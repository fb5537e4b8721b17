import Mosaic.Settings.Value

/-! The tables of a TOML document while it is read. A table may be opened by a header once; dotted
keys may add to tables that dotted keys made, and to no others. -/
namespace Mosaic.Toml

open Settings (Value)

/-- How a table came to be: on the way to another table, by dotted keys, or by its header. -/
inductive Making where
  | implied
  | dotted
  | header
deriving DecidableEq

/-- What stands at a key: a value, a table, or a list of tables under one header. -/
inductive Node where
  | value (value : Value)
  | table (making : Making) (entries : List (String × Node))
  | tables (items : List (List (String × Node)))

abbrev Entries := List (String × Node)

def Entries.put (key : String) (node : Node) : Entries → Entries
  | [] => [(key, node)]
  | (name, other) :: rest =>
    if name = key then (key, node) :: rest else (name, other) :: Entries.put key node rest

def changeLast (change : Entries → Option Entries) : List Entries → Option (List Entries)
  | [] => none
  | [last] => (change last).map ([·])
  | first :: rest => (changeLast change rest).map (first :: ·)

/-- Change the table at a path, making the tables on the way. -/
def within (change : Entries → Option Entries) : List String → Entries → Option Entries
  | [], entries => change entries
  | key :: path, entries =>
    match entries.lookup key with
    | none => (within change path []).map fun inner => entries.put key (.table .implied inner)
    | some (.table making inner) =>
      (within change path inner).map fun inner => entries.put key (.table making inner)
    | some (.tables items) =>
      (changeLast (within change path) items).map fun items => entries.put key (.tables items)
    | some (.value _) => none

def openTable (key : String) (entries : Entries) : Option Entries :=
  match entries.lookup key with
  | none => some (entries.put key (.table .header []))
  | some (.table .implied inner) => some (entries.put key (.table .header inner))
  | some _ => none

def openTables (key : String) (entries : Entries) : Option Entries :=
  match entries.lookup key with
  | none => some (entries.put key (.tables [[]]))
  | some (.tables items) => some (entries.put key (.tables (items ++ [[]])))
  | some _ => none

/-- Set the value of a dotted key. The table it is set in must have been made by dotted keys, and
no table on the way by a header of its own. Of a list of tables the way goes on in the last. -/
def define (value : Value) : List String → Entries → Option Entries
  | [], _ => none
  | [key], entries =>
    match entries.lookup key with
    | none => some (entries.put key (.value value))
    | some _ => none
  | key :: path, entries =>
    match entries.lookup key with
    | none => (define value path []).map fun inner => entries.put key (.table .dotted inner)
    | some (.table .dotted inner) =>
      (define value path inner).map fun inner => entries.put key (.table .dotted inner)
    | some (.table .implied inner) =>
      if path.length = 1 then none
      else (define value path inner).map fun inner => entries.put key (.table .implied inner)
    | some (.tables items) =>
      if path.length = 1 then none
      else (changeLast (define value path) items).map fun items => entries.put key (.tables items)
    | some _ => none

mutual

def Node.toValue : Node → Value
  | .value v => v
  | .table _ entries => .table (Node.toEntries entries)
  | .tables items => .list (Node.toTables items)

def Node.toTables : List (List (String × Node)) → List Value
  | [] => []
  | entries :: rest => .table (Node.toEntries entries) :: Node.toTables rest

def Node.toEntries : List (String × Node) → List (String × Value)
  | [] => []
  | entry :: rest => Node.toEntry entry :: Node.toEntries rest

def Node.toEntry : String × Node → String × Value
  | (key, node) => (key, node.toValue)

end

end Mosaic.Toml
