import Mosaic.Json.Value

/-! JSON values as text: a member or an item on a line of its own, two spaces for each level, and
nothing between the brackets of an empty list or object. -/
namespace Mosaic.Json

/-- Four hexadecimal digits of a number below 65536. -/
def fourDigits (n : Nat) : List Char :=
  let digits := Nat.toDigits 16 n
  List.replicate (4 - digits.length) '0' ++ digits

/-- A character between the quotes of a string: quotes, backslashes and control characters are
escaped. -/
def escapeChar (c : Char) : List Char :=
  if c = '"' then ['\\', '"']
  else if c = '\\' then ['\\', '\\']
  else if c = '\n' then ['\\', 'n']
  else if c = '\r' then ['\\', 'r']
  else if c = '\t' then ['\\', 't']
  else if c = '\x08' then ['\\', 'b']
  else if c = '\x0c' then ['\\', 'f']
  else if c.toNat < 32 then ['\\', 'u'] ++ fourDigits c.toNat
  else [c]

def quoted (s : String) : List Char := ['"'] ++ s.toList.flatMap escapeChar ++ ['"']

/-- The line break and indentation in front of something at a level. -/
def lineBreak (level : Nat) : List Char := '\n' :: List.replicate (2 * level) ' '

mutual

/-- A value whose first line stands at a level. -/
def chars (level : Nat) : Json → List Char
  | .null => ['n', 'u', 'l', 'l']
  | .bool true => ['t', 'r', 'u', 'e']
  | .bool false => ['f', 'a', 'l', 's', 'e']
  | .number n => Nat.toDigits 10 n
  | .text s => quoted s
  | .list [] => ['[', ']']
  | .list (first :: rest) =>
    '[' :: (lineBreak (level + 1) ++ chars (level + 1) first ++ moreItems (level + 1) rest ++
      lineBreak level ++ [']'])
  | .object [] => ['{', '}']
  | .object (first :: rest) =>
    '{' :: (lineBreak (level + 1) ++ member (level + 1) first ++ moreMembers (level + 1) rest ++
      lineBreak level ++ ['}'])

def member (level : Nat) : String × Json → List Char
  | (key, value) => quoted key ++ [':', ' '] ++ chars level value

def moreItems (level : Nat) : List Json → List Char
  | [] => []
  | item :: rest => ',' :: (lineBreak level ++ chars level item ++ moreItems level rest)

def moreMembers (level : Nat) : List (String × Json) → List Char
  | [] => []
  | first :: rest => ',' :: (lineBreak level ++ member level first ++ moreMembers level rest)

end

def pretty (value : Json) : String := String.ofList (chars 0 value)

end Mosaic.Json
