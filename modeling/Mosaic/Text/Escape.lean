import Mosaic.Text.Visible

/-! Text written so that every character shows: line breaks, quotes and hidden characters are
replaced by escapes. -/
namespace Mosaic.Text

def codeEscape (c : Char) : List Char :=
  ['\\', 'u', '{'] ++ Nat.toDigits 16 c.toNat ++ ['}']

/-- A character as it shows. The listed quotes are escaped, and an extender is when it `stands`
alone. -/
def escapeChar (quotes : List Char) (stands : Bool) (c : Char) : List Char :=
  if c = '\x00' then ['\\', '0']
  else if c = '\t' then ['\\', 't']
  else if c = '\r' then ['\\', 'r']
  else if c = '\n' then ['\\', 'n']
  else if c = '\\' ∨ c ∈ quotes then ['\\', c]
  else if stands ∧ isExtender c ∨ isHidden c then codeEscape c
  else [c]

/-- A text as it shows on a line of its own: an extender stands alone only at the front. -/
def escape : List Char → List Char
  | [] => []
  | c :: rest =>
    escapeChar ['"', '\''] true c ++ rest.flatMap (escapeChar ['"', '\''] false)

/-- A text between double quotes: every extender stands alone. -/
def quote (s : List Char) : List Char :=
  ['"'] ++ s.flatMap (escapeChar ['"'] true) ++ ['"']

end Mosaic.Text
