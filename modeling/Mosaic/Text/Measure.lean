/-! Texts as lists of characters: their length in bytes, and the place of a word in them. -/
namespace Mosaic.Text

def bytes : List Char → Nat
  | [] => 0
  | c :: rest => c.utf8Size + bytes rest

@[simp] theorem bytes_nil : bytes [] = 0 := rfl

@[simp] theorem bytes_cons (c : Char) (rest : List Char) :
    bytes (c :: rest) = c.utf8Size + bytes rest := rfl

@[simp] theorem bytes_append (s t : List Char) : bytes (s ++ t) = bytes s + bytes t := by
  induction s with
  | nil => simp only [List.nil_append, bytes_nil, Nat.zero_add]
  | cons c rest ih => simp only [List.cons_append, bytes_cons, ih, Nat.add_assoc]

/-- The number of characters before the first occurrence of `word`. -/
def indexOf? (word : List Char) : List Char → Option Nat
  | [] => if word.isEmpty then some 0 else none
  | c :: rest =>
    if word.isPrefixOf (c :: rest) then some 0 else (indexOf? word rest).map (· + 1)

/-- The number of characters up to the end of the first occurrence of `word`. -/
def endOf? (word s : List Char) : Option Nat := (indexOf? word s).map (· + word.length)

/-- Lowercase the ASCII letters and keep the rest. -/
def lower (s : List Char) : List Char := s.map Char.toLower

end Mosaic.Text
