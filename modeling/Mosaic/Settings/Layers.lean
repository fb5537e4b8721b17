import Mosaic.Settings.Value

/-! Settings in layers: a later layer wins over an earlier one entry by entry, while lists and
single values are replaced as a whole. Keys are the same in any case. -/
namespace Mosaic.Settings

def lowerKey (key : String) : String := String.ofList (Text.lower key.toList)

/-- One step on the way to a value in nested tables and lists. An index below zero counts from
the end of a list. -/
inductive Step where
  | key (name : String)
  | index (number : Int)
deriving DecidableEq

/-- Change the entry of a key; a missing entry is changed from `null`. -/
def modifyEntry (key : String) (change : Value → Value) :
    List (String × Value) → List (String × Value)
  | [] => [(key, change .null)]
  | (name, value) :: rest =>
    if name = key then (name, change value) :: rest
    else (name, value) :: modifyEntry key change rest

/-- Change the item at an index; the list is filled up to it with `null`. -/
def modifyItem (index : Nat) (change : Value → Value) : List Value → List Value :=
  fun items =>
    let filled := items ++ List.replicate (index + 1 - items.length) .null
    filled.modify index change

/-- The entries of a table; what is no table has none. -/
def entriesOf : Value → List (String × Value)
  | .table entries => entries
  | _ => []

/-- The items of a list; what is no list has none. -/
def itemsOf : Value → List Value
  | .list items => items
  | _ => []

/-- The place in a list that an index means. -/
def indexIn (items : List Value) (number : Int) : Nat :=
  if 0 ≤ number then number.toNat else items.length - number.natAbs

/-- Change the value at the end of a path. What is in the way is made a table or a list. -/
def modifyAt (change : Value → Value) : List Step → Value → Value
  | [], value => change value
  | .key name :: path, value =>
    .table (modifyEntry (lowerKey name) (modifyAt change path) (entriesOf value))
  | .index number :: path, value =>
    let items := itemsOf value
    .list (modifyItem (indexIn items number) (modifyAt change path) items)

mutual

/-- The value that holds where another one lies over `lower`. An empty table hides nothing. -/
def merge (lower : Value) : Value → Value
  | .table [] => match lower with
    | .null => .table []
    | other => other
  | .table (entry :: rest) =>
    .table (mergeEntries (mergeEntry (entriesOf lower) entry) rest)
  | .null => .null
  | .bool value => .bool value
  | .integer value => .integer value
  | .fraction text => .fraction text
  | .text value => .text value
  | .list items => .list items

/-- The entries that hold where some entries lie over others. -/
def mergeEntries (lower : List (String × Value)) : List (String × Value) → List (String × Value)
  | [] => lower
  | entry :: rest => mergeEntries (mergeEntry lower entry) rest

/-- The entries that hold where one entry lies over others. -/
def mergeEntry (lower : List (String × Value)) : String × Value → List (String × Value)
  | (key, value) => modifyEntry (lowerKey key) (merge · value) lower

end

/-- A letter or digit of ASCII, a blank, a line or a dash. -/
def isKeyPart (c : Char) : Bool := c.isAlphanum || c == ' ' || c == '_' || c == '-'

def isSpacing (c : Char) : Bool := c == ' ' || c == '\t'

/-- The number of 64 bits that a text of digits stands for, perhaps with a minus and with spaces
and tabs around. -/
def indexOf? (text : List Char) : Option Int :=
  let trimmed := ((text.dropWhile isSpacing).reverse.dropWhile isSpacing).reverse
  let (negative, digits) := match trimmed with
    | '-' :: rest => (true, rest)
    | _ => (false, trimmed)
  if digits.isEmpty ∨ !digits.all Char.isDigit then none
  else
    let n : Int := digits.foldl (fun n c => 10 * n + (c.toNat - '0'.toNat)) 0
    let number := if negative then -n else n
    if (Int64.ofInt number).toInt = number then some number else none

/-- The steps behind the first key of a path. -/
def moreSteps : List Char → Option (List Step)
  | [] => some []
  | '.' :: rest =>
    let name := rest.takeWhile isKeyPart
    if name.isEmpty then none
    else (moreSteps (rest.drop name.length)).map (.key (String.ofList name) :: ·)
  | '[' :: rest =>
    let inner := rest.takeWhile (· ≠ ']')
    match rest.drop inner.length, indexOf? inner with
    | ']' :: _, some number =>
      (moreSteps (rest.drop (inner.length + 1))).map (.index number :: ·)
    | _, _ => none
  | _ => none
termination_by s => s.length

/-- The path that a key describes: names with dots between them, and indices in brackets. -/
def path? (key : String) : Option (List Step) :=
  let name := key.toList.takeWhile isKeyPart
  if name.isEmpty then none
  else (moreSteps (key.toList.drop name.length)).map (.key (String.ofList name) :: ·)

def isItem (path : List Step) : Bool :=
  match path.getLast? with
  | some (.index _) => true
  | _ => false

/-- Put a value at a path. It lies over what is there, but takes the place of an item. -/
def putAt (path : List Step) (upper lower : Value) : Value :=
  modifyAt (fun value => if isItem path then upper else merge value upper) path lower

/-- Put an entry of a layer over a value. Its key is a path if it can be read as one. -/
def putEntry (lower : Value) (entry : String × Value) : Value :=
  putAt ((path? entry.1).getD [.key entry.1]) entry.2 lower

def putLayer (lower : Value) (layer : List (String × Value)) : Value := layer.foldl putEntry lower

end Mosaic.Settings
