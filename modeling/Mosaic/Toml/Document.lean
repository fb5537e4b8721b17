import Mosaic.Toml.Scalar
import Mosaic.Toml.Table

/-! TOML documents: settings on lines of their own, under the headers of their tables. -/
namespace Mosaic.Toml

open Settings (Value)

/-- A key has fewer parts than this, and fewer lists and tables stand in each other. -/
def nestingLimit : Nat := 80

def skipSpaces (s : List Char) : List Char := s.dropWhile fun c => c == ' ' || c == '\t'

/-- Drop spaces, line breaks and comments; a comment may be open already. -/
def skipLayout : (inComment : Bool) → List Char → List Char
  | _, [] => []
  | true, c :: rest => skipLayout (c != '\n') rest
  | false, c :: rest =>
    if c = ' ' ∨ c = '\t' ∨ c = '\n' ∨ c = '\r' then skipLayout false rest
    else if c = '#' then skipLayout true rest
    else c :: rest

/-- Drop what may follow on a line, and its line break. -/
def skipLineEnd (s : List Char) : Option (List Char) :=
  match skipSpaces s with
  | [] => some []
  | '\n' :: rest => some rest
  | '\r' :: '\n' :: rest => some rest
  | '#' :: rest => some (rest.dropWhile (· ≠ '\n'))
  | _ => none

def keyParts : (fuel : Nat) → List Char → Option (List String × List Char)
  | 0, _ => none
  | fuel + 1, s => do
    let (key, rest) ← keyPart (skipSpaces s)
    match skipSpaces rest with
    | '.' :: rest =>
      let (path, rest) ← keyParts fuel rest
      return (key :: path, rest)
    | rest => return ([key], rest)

/-- A dotted key that is not too long, and the rest. -/
def keyPath (fuel : Nat) (s : List Char) : Option (List String × List Char) := do
  let (path, rest) ← keyParts fuel s
  if path.length < nestingLimit then return (path, rest) else none

mutual

/-- A value in which lists and tables stand in each other up to a `depth`, and the rest. -/
def value : (fuel depth : Nat) → List Char → Option (Value × List Char)
  | 0, _, _ => none
  | fuel + 1, depth, s =>
    match s, depth with
    | '"' :: rest, _ =>
      (basicBody rest).map fun (text, rest) => (.text (String.ofList text), rest)
    | '\'' :: rest, _ =>
      (literalBody rest).map fun (text, rest) => (.text (String.ofList text), rest)
    | '[' :: _, 0 => none
    | '[' :: rest, depth + 1 =>
      (items fuel depth rest).map fun (values, rest) => (.list values, rest)
    | '{' :: _, 0 => none
    | '{' :: rest, depth + 1 =>
      match skipSpaces rest with
      | '}' :: rest => some (.table [], rest)
      | rest => (members fuel depth [] rest).map fun (entries, rest) =>
        (.table (Node.toEntries entries), rest)
    | _, _ => scalar? s

/-- The items of a list up to its closing bracket, and the rest. -/
def items : (fuel depth : Nat) → List Char → Option (List Value × List Char)
  | 0, _, _ => none
  | fuel + 1, depth, s =>
    match skipLayout false s with
    | ']' :: rest => some ([], rest)
    | s => do
      let (first, rest) ← value fuel depth s
      match skipLayout false rest with
      | ',' :: rest =>
        let (more, rest) ← items fuel depth rest
        return (first :: more, rest)
      | ']' :: rest => return ([first], rest)
      | _ => none

/-- The entries of a table on one line up to its closing bracket, and the rest. -/
def members : (fuel depth : Nat) → Entries → List Char → Option (Entries × List Char)
  | 0, _, _, _ => none
  | fuel + 1, depth, entries, s => do
    let (path, rest) ← keyPath fuel s
    let '=' :: rest := rest | none
    let (found, rest) ← value fuel depth (skipSpaces rest)
    let entries ← define found path entries
    match skipSpaces rest with
    | ',' :: rest => members fuel depth entries rest
    | '}' :: rest => return (entries, rest)
    | _ => none

end

/-- The header of a table behind its first bracket: its path, and the rest of its line. -/
def header (fuel : Nat) (s : List Char) : Option (List String × List Char) := do
  let (path, rest) ← keyPath fuel s
  let ']' :: rest := rest | none
  return (path, rest)

/-- Open the table at a path with `opening`. -/
def openAt (opening : String → Entries → Option Entries) (path : List String)
    (root : Entries) : Option Entries := do
  let key ← path.getLast?
  within (opening key) path.dropLast root

/-- The tables of a document, where `here` is the path of the table that is open. -/
def statements : (fuel : Nat) → (here : List String) → Entries → List Char → Option Entries
  | 0, _, _, _ => none
  | fuel + 1, here, root, s =>
    match skipLayout false s with
    | [] => some root
    | '[' :: '[' :: rest => do
      let (path, rest) ← header fuel rest
      let ']' :: rest := rest | none
      let rest ← skipLineEnd rest
      statements fuel path (← openAt openTables path root) rest
    | '[' :: rest => do
      let (path, rest) ← header fuel rest
      let rest ← skipLineEnd rest
      statements fuel path (← openAt openTable path root) rest
    | s => do
      let (path, rest) ← keyPath fuel s
      let '=' :: rest := rest | none
      let (found, rest) ← value fuel (nestingLimit - 1) (skipSpaces rest)
      let rest ← skipLineEnd rest
      statements fuel here (← within (define found path) here root) rest

/-- Whether every control character is a tab or a part of a line break. -/
def isPlainText : List Char → Bool
  | [] => true
  | '\r' :: '\n' :: rest => isPlainText rest
  | c :: rest => (c == '\n' || !isControl c) && isPlainText rest

def read? (source : String) : Option (List (String × Value)) :=
  let s := source.toList
  if isPlainText s then (statements (s.length + 2) [] [] s).map Node.toEntries else none

end Mosaic.Toml
