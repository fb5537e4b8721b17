import Mosaic.Json.Pretty

/-! JSON text says what it stands for. Every part of a value is written so that its text tells it
from all others of its sort and shows where it ends; so does the text of the whole value. -/
namespace Mosaic.Json

/-! ### Legible texts -/

section Legible

variable {α : Type} {write : α → List Char} {behind : List Char → Prop} {a : α}

/-- The text of something tells it from all others and shows where it ends, as long as only texts
of one sort stand behind. -/
def Legible (write : α → List Char) (behind : List Char → Prop) (a : α) : Prop :=
  ∀ other s t, behind s → behind t → write a ++ s = write other ++ t → a = other ∧ s = t

/-- Any text may stand behind. -/
def Anything (_ : List Char) : Prop := True

/-- A text has a given character at its front. -/
def Begins (c : Char) (s : List Char) : Prop := ∃ rest, s = c :: rest

theorem legible_of_read {read : List Char → Option (α × List Char)}
    (reads : ∀ a s, read (write a ++ s) = some (a, s)) (a : α) : Legible write Anything a := by
  intro other s t _ _ same
  have found := reads a s
  rw [same, reads] at found
  cases found
  exact ⟨rfl, rfl⟩

theorem Legible.front (lead : List Char) (h : Legible write behind a) :
    Legible (fun a => lead ++ write a) behind a := by
  intro other s t hs ht same
  rw [List.append_assoc, List.append_assoc, List.append_cancel_left_eq] at same
  exact h other s t hs ht same

theorem behind_flatMap (next : ∀ a s, behind (write a ++ s)) (as : List α) {s : List Char}
    (ends : behind s) : behind (as.flatMap write ++ s) := by
  cases as with
  | nil => exact ends
  | cons a rest =>
    rw [List.flatMap_cons, List.append_assoc]
    exact next a _

/-- Legible texts in a row are legible if the character behind the last of them begins no text. -/
theorem Legible.flatMap {last : Char} {as : List α} (each : ∀ a ∈ as, Legible write behind a)
    (apart : ∀ a s, ¬ Begins last (write a ++ s)) (next : ∀ a s, behind (write a ++ s))
    (finish : ∀ s, Begins last s → behind s) :
    Legible (List.flatMap write) (Begins last) as := by
  induction as with
  | nil =>
    intro others s t hs _ same
    cases others with
    | nil => exact ⟨rfl, same⟩
    | cons b others =>
      -- one row has ended: the character behind it would begin the next text of the other
      rw [List.flatMap_nil, List.nil_append, List.flatMap_cons, List.append_assoc] at same
      exact absurd (same ▸ hs) (apart b _)
  | cons a rest ih =>
    obtain ⟨first, later⟩ := List.forall_mem_cons.mp each
    intro others s t hs ht same
    cases others with
    | nil =>
      rw [List.flatMap_nil, List.nil_append, List.flatMap_cons, List.append_assoc] at same
      exact absurd (same ▸ ht) (apart a _)
    | cons b others =>
      rw [List.flatMap_cons, List.flatMap_cons, List.append_assoc, List.append_assoc] at same
      obtain ⟨rfl, more⟩ := first b _ _ (behind_flatMap next rest (finish s hs))
        (behind_flatMap next others (finish t ht)) same
      obtain ⟨rfl, ends⟩ := ih later others s t hs ht more
      exact ⟨rfl, ends⟩

end Legible

/-! ### Strings -/

/-- The character that a letter behind a backslash stands for. -/
def letter? : Char → Option Char
  | '"' => some '"'
  | '\\' => some '\\'
  | 'n' => some '\n'
  | 'r' => some '\r'
  | 't' => some '\t'
  | 'b' => some '\x08'
  | 'f' => some '\x0c'
  | _ => none

/-- The control character that four digits stand for. -/
def control? (digits : List Char) : Option Char :=
  ((List.range 32).find? (fourDigits · == digits)).map Char.ofNat

/-- The character that an escaped text begins with, and the text behind it. -/
def unescape? : List Char → Option (Char × List Char)
  | [] => none
  | '\\' :: 'u' :: rest => (control? (rest.take 4)).map (·, rest.drop 4)
  | '\\' :: letter :: rest => (letter? letter).map (·, rest)
  | c :: rest => some (c, rest)

theorem length_fourDigits : ∀ n < 32, (fourDigits n).length = 4 := by
  decide

theorem control?_fourDigits : ∀ n < 32, control? (fourDigits n) = some (Char.ofNat n) := by
  decide

theorem unescape?_code {c : Char} (control : c.toNat < 32) (s : List Char) :
    unescape? (['\\', 'u'] ++ fourDigits c.toNat ++ s) = some (c, s) := by
  have four := length_fourDigits _ control
  change (control? ((fourDigits c.toNat ++ s).take 4)).map (·, (fourDigits c.toNat ++ s).drop 4) = _
  rw [List.take_left' four, List.drop_left' four, control?_fourDigits _ control, Char.ofNat_toNat]
  rfl

theorem unescape?_plain {c : Char} (plain : c ≠ '\\') (s : List Char) :
    unescape? (c :: s) = some (c, s) := by
  unfold unescape?
  split <;> grind

theorem unescape?_escapeChar (c : Char) (s : List Char) :
    unescape? (escapeChar c ++ s) = some (c, s) := by
  fun_cases escapeChar c
  case case8 control => exact unescape?_code control s
  case case9 backslash _ _ _ _ _ _ => exact unescape?_plain backslash s
  all_goals
    subst c
    rfl

theorem legible_escapeChar (c : Char) : Legible escapeChar Anything c :=
  legible_of_read unescape?_escapeChar c

theorem escapeChar_apart (c : Char) (s : List Char) : ¬ Begins '"' (escapeChar c ++ s) := by
  rintro ⟨rest, same⟩
  have read := unescape?_escapeChar c s
  rw [same, unescape?_plain (by decide)] at read
  cases read
  cases same

theorem quoted_append (text : String) (s : List Char) :
    quoted text ++ s = '"' :: (text.toList.flatMap escapeChar ++ '"' :: s) := by
  rw [quoted, List.append_assoc, List.append_assoc]
  rfl

/-- A quoted text shows where it ends, for a quote in it is escaped. -/
theorem legible_quoted (text : String) : Legible quoted Anything text := by
  intro other s t _ _ same
  have row : Legible (List.flatMap escapeChar) (Begins '"') text.toList :=
    .flatMap (fun c _ => legible_escapeChar c) escapeChar_apart (fun _ _ => trivial)
      fun _ _ => trivial
  rw [quoted_append, quoted_append] at same
  obtain ⟨chars, ends⟩ :=
    row other.toList _ _ ⟨s, rfl⟩ ⟨t, rfl⟩ (List.tail_eq_of_cons_eq same)
  exact ⟨String.toList_inj.mp chars, List.tail_eq_of_cons_eq ends⟩

/-! ### Numbers -/

/-- There is no digit at the front of a text. -/
def Digitless (s : List Char) : Prop := ∀ c, s.head? = some c → c.isDigit = false

theorem digitless_of_begins {c : Char} (plain : c.isDigit = false) {s : List Char}
    (h : Begins c s) : Digitless s := by
  obtain ⟨rest, rfl⟩ := h
  intro d first
  cases first
  exact plain

theorem takeWhile_digits {s : List Char} (ends : Digitless s) (n : Nat) :
    (Nat.toDigits 10 n ++ s).takeWhile Char.isDigit = Nat.toDigits 10 n := by
  have digits : ∀ c ∈ Nat.toDigits 10 n, c.isDigit = true :=
    fun c => Nat.isDigit_of_mem_toDigits (by decide) (by decide)
  rw [List.takeWhile_append_of_pos digits]
  cases s with
  | nil => exact List.append_nil _
  | cons c rest =>
    rw [List.takeWhile_cons_of_neg (Bool.eq_false_iff.mp (ends c rfl)), List.append_nil]

theorem legible_toDigits (n : Nat) : Legible (Nat.toDigits 10) Digitless n := by
  intro m s t hs ht same
  have digits : Nat.toDigits 10 n = Nat.toDigits 10 m := by
    rw [← takeWhile_digits hs n, same, takeWhile_digits ht m]
  have number : n = m := by
    rw [← Nat.ofDigitChars_ten_toDigits (n := n), digits, Nat.ofDigitChars_ten_toDigits]
  subst number
  exact ⟨rfl, List.append_cancel_left same⟩

/-! ### Lists and objects -/

section Block

variable {α : Type} {write : α → List Char}

/-- Something on a line of its own, behind a comma. -/
def nextLine (level : Nat) (write : α → List Char) (a : α) : List Char :=
  (',' :: lineBreak level) ++ write a

/-- Things between brackets, each on a line of its own. -/
def block (opener closer : Char) (level : Nat) (write : α → List Char) : List α → List Char
  | [] => [opener, closer]
  | first :: rest =>
    opener :: (lineBreak (level + 1) ++ write first ++ rest.flatMap (nextLine (level + 1) write) ++
      lineBreak level ++ [closer])

theorem block_append (opener closer : Char) (level : Nat) (first : α) (rest : List α)
    (s : List Char) :
    block opener closer level write (first :: rest) ++ s =
      (opener :: lineBreak (level + 1)) ++ (write first ++
        (rest.flatMap (nextLine (level + 1) write) ++ (lineBreak level ++ (closer :: s)))) := by
  simp only [block, List.cons_append, List.append_assoc, List.nil_append]

theorem digitless_rows (level : Nat) (as : List α) {s : List Char} (ends : Begins '\n' s) :
    Digitless (as.flatMap (nextLine level write) ++ s) :=
  behind_flatMap (fun _ _ => digitless_of_begins (c := ',') rfl ⟨_, rfl⟩) as
    (digitless_of_begins rfl ends)

theorem legible_rows {level : Nat} {as : List α} (each : ∀ a ∈ as, Legible write Digitless a) :
    Legible (List.flatMap (nextLine level write)) (Begins '\n') as := by
  refine .flatMap (fun a mem => (each a mem).front _) ?_ ?_ fun s => digitless_of_begins rfl
  · rintro a s ⟨rest, same⟩
    cases same
  · exact fun a s => digitless_of_begins (c := ',') rfl ⟨_, rfl⟩

theorem block_nil_ne {opener closer : Char} (plain : closer ≠ '\n') (level : Nat) (first : α)
    (rest : List α) (s t : List Char) :
    block opener closer level write [] ++ s ≠
      block opener closer level write (first :: rest) ++ t := by
  intro same
  rw [block_append] at same
  exact plain (List.head_eq_of_cons_eq (List.tail_eq_of_cons_eq same))

/-- A block says what is in it if its parts do, and where it ends. -/
theorem legible_block {opener closer : Char} (plain : closer ≠ '\n') (level : Nat) {as : List α}
    (each : ∀ a ∈ as, Legible write Digitless a) :
    Legible (block opener closer level write) Anything as := by
  intro others s t _ _ same
  cases as with
  | nil =>
    cases others with
    | nil => exact ⟨rfl, List.append_cancel_left same⟩
    | cons b others => exact absurd same (block_nil_ne plain level b others s t)
  | cons a rest =>
    obtain ⟨first, later⟩ := List.forall_mem_cons.mp each
    cases others with
    | nil => exact absurd same.symm (block_nil_ne plain level a rest t s)
    | cons b others =>
      rw [block_append, block_append, List.append_cancel_left_eq] at same
      obtain ⟨rfl, more⟩ :=
        first b _ _ (digitless_rows _ rest ⟨_, rfl⟩) (digitless_rows _ others ⟨_, rfl⟩) same
      obtain ⟨rfl, ends⟩ := legible_rows later others (lineBreak level ++ (closer :: s))
        (lineBreak level ++ (closer :: t)) ⟨_, rfl⟩ ⟨_, rfl⟩ more
      exact ⟨rfl, List.tail_eq_of_cons_eq (List.append_cancel_left ends)⟩

end Block

theorem moreItems_eq_flatMap (level : Nat) (items : List Json) :
    moreItems level items = items.flatMap (nextLine level (chars level)) := by
  induction items with
  | nil => rw [moreItems, List.flatMap_nil]
  | cons item rest ih =>
    simp only [moreItems, List.flatMap_cons, nextLine, ih, List.cons_append, List.append_assoc]

theorem moreMembers_eq_flatMap (level : Nat) (members : List (String × Json)) :
    moreMembers level members = members.flatMap (nextLine level (member level)) := by
  induction members with
  | nil => rw [moreMembers, List.flatMap_nil]
  | cons first rest ih =>
    simp only [moreMembers, List.flatMap_cons, nextLine, ih, List.cons_append, List.append_assoc]

theorem chars_list (level : Nat) (items : List Json) :
    chars level (.list items) = block '[' ']' level (chars (level + 1)) items := by
  cases items with
  | nil => rw [chars, block]
  | cons first rest => rw [chars, block, moreItems_eq_flatMap]

theorem chars_object (level : Nat) (members : List (String × Json)) :
    chars level (.object members) = block '\x7b' '\x7d' level (member (level + 1)) members := by
  cases members with
  | nil => rw [chars, block]
  | cons first rest => rw [chars, block, moreMembers_eq_flatMap]

theorem legible_member {level : Nat} {value : Json} (h : Legible (chars level) Digitless value)
    (key : String) : Legible (member level) Digitless (key, value) := by
  rintro ⟨otherKey, other⟩ s t hs ht same
  rw [member, member, List.append_assoc, List.append_assoc, List.append_assoc,
    List.append_assoc] at same
  obtain ⟨rfl, more⟩ := legible_quoted key otherKey _ _ trivial trivial same
  obtain ⟨rfl, ends⟩ := h other s t hs ht (List.append_cancel_left more)
  exact ⟨rfl, ends⟩

/-! ### Values -/

/-- The kinds of values, each with characters of its own to begin with. -/
inductive Kind where
  | null
  | bool
  | number
  | text
  | list
  | object
deriving DecidableEq

/-- The kind of a value. -/
def kind : Json → Kind
  | .null => .null
  | .bool _ => .bool
  | .number _ => .number
  | .text _ => .text
  | .list _ => .list
  | .object _ => .object

/-- The kind of a value that begins with a character. -/
def Kind.ofFirst (c : Char) : Kind :=
  if c.isDigit then .number
  else if c = 'n' then .null
  else if c = '"' then .text
  else if c = '[' then .list
  else if c = '\x7b' then .object
  else .bool

theorem begins_block {α : Type} (opener closer : Char) (level : Nat) (write : α → List Char)
    (as : List α) : Begins opener (block opener closer level write as) := by
  cases as <;> exact ⟨_, rfl⟩

theorem begins_chars (level : Nat) (value : Json) :
    ∃ c, Begins c (chars level value) ∧ Kind.ofFirst c = value.kind := by
  cases value with
  | null => exact ⟨'n', ⟨['u', 'l', 'l'], by rw [chars]⟩, rfl⟩
  | bool value =>
    cases value with
    | true => exact ⟨'t', ⟨['r', 'u', 'e'], by rw [chars]⟩, rfl⟩
    | false => exact ⟨'f', ⟨['a', 'l', 's', 'e'], by rw [chars]⟩, rfl⟩
  | number n =>
    obtain ⟨c, rest, digits⟩ := List.exists_cons_of_ne_nil (Nat.toDigits_ne_nil (n := n) (b := 10))
    have digit : c.isDigit = true :=
      Nat.isDigit_of_mem_toDigits (b := 10) (n := n) (by decide) (by decide)
        (digits ▸ List.mem_cons_self)
    refine ⟨c, ⟨rest, by rw [chars, digits]⟩, ?_⟩
    rw [Kind.ofFirst, if_pos digit]
    rfl
  | text text => exact ⟨'"', ⟨_, by rw [chars]; rfl⟩, rfl⟩
  | list items => exact ⟨'[', by rw [chars_list]; exact begins_block _ _ _ _ _, rfl⟩
  | object members => exact ⟨'\x7b', by rw [chars_object]; exact begins_block _ _ _ _ _, rfl⟩

/-- Texts of values of different kinds differ in their first characters. -/
theorem kind_eq_of_append {level : Nat} {value other : Json} {s t : List Char}
    (same : chars level value ++ s = chars level other ++ t) : value.kind = other.kind := by
  obtain ⟨c, ⟨rest, begins⟩, kind⟩ := begins_chars level value
  obtain ⟨d, ⟨otherRest, otherBegins⟩, otherKind⟩ := begins_chars level other
  rw [begins, otherBegins] at same
  rw [← kind, ← otherKind, List.head_eq_of_cons_eq same]

/-- The values that a value is made of. -/
def parts : Json → List Json
  | .list items => items
  | .object members => members.map (·.2)
  | _ => []

theorem sizeOf_parts {value part : Json} (mem : part ∈ value.parts) :
    sizeOf part < sizeOf value := by
  cases value with
  | list items =>
    have := List.sizeOf_lt_of_mem (show part ∈ items from mem)
    rw [list.sizeOf_spec]
    omega
  | object members =>
    obtain ⟨⟨key, value⟩, inside, rfl⟩ := List.mem_map.mp mem
    have := List.sizeOf_lt_of_mem inside
    rw [Prod.mk.sizeOf_spec] at this
    change sizeOf value < _
    rw [object.sizeOf_spec]
    omega
  | _ => cases mem

/-- To show something of every value, show it of a value whose parts have it already. -/
theorem induct {motive : Json → Prop}
    (step : ∀ value, (∀ part ∈ value.parts, motive part) → motive value) (value : Json) :
    motive value := by
  induction size : sizeOf value using Nat.strongRecOn generalizing value with
  | ind n ih =>
    subst size
    exact step value fun part mem => ih _ (sizeOf_parts mem) part rfl

/-- The text of a value says what the value is and where it ends, if no digit follows. -/
theorem legible_chars (value : Json) (level : Nat) : Legible (chars level) Digitless value := by
  induction value using induct generalizing level with
  | step value ih =>
    intro other s t hs ht same
    have kinds := kind_eq_of_append same
    cases value with
    | null =>
      cases other with
      | null => exact ⟨rfl, List.append_cancel_left same⟩
      | _ => cases kinds
    | bool value =>
      cases other with
      | bool other =>
        cases value <;> cases other <;> simp only [chars] at same
        case false.false | true.true => exact ⟨rfl, List.append_cancel_left same⟩
        all_goals cases same
      | _ => cases kinds
    | number n =>
      cases other with
      | number m =>
        rw [chars, chars] at same
        obtain ⟨rfl, ends⟩ := legible_toDigits n m s t hs ht same
        exact ⟨rfl, ends⟩
      | _ => cases kinds
    | text text =>
      cases other with
      | text otherText =>
        rw [chars, chars] at same
        obtain ⟨rfl, ends⟩ := legible_quoted text otherText s t trivial trivial same
        exact ⟨rfl, ends⟩
      | _ => cases kinds
    | list items =>
      cases other with
      | list others =>
        rw [chars_list, chars_list] at same
        obtain ⟨rfl, ends⟩ := legible_block (by decide) level (fun item mem => ih item mem _)
          others s t trivial trivial same
        exact ⟨rfl, ends⟩
      | _ => cases kinds
    | object members =>
      cases other with
      | object others =>
        rw [chars_object, chars_object] at same
        obtain ⟨rfl, ends⟩ := legible_block (by decide) level
          (fun member mem => legible_member (ih member.2 (List.mem_map_of_mem mem) _) member.1)
          others s t trivial trivial same
        exact ⟨rfl, ends⟩
      | _ => cases kinds

/-- Different values have different texts. -/
theorem pretty_inj {value other : Json} : value.pretty = other.pretty ↔ value = other := by
  constructor
  · intro same
    have chars := String.ofList_inj.mp same
    have ends : Digitless [] := fun _ none => nomatch none
    exact (legible_chars value 0 other [] [] ends ends (by rw [chars])).1
  · exact congrArg pretty

end Mosaic.Json
