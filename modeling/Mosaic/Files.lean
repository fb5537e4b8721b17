import Mosaic.Path
import Mosaic.Text.Measure

/-! Files as far as they are looked at: what stands at a path. -/
namespace Mosaic

inductive Entry where
  | file (bytes : List UInt8)
  | directory
  | missing
  /-- A part of the path is a file, not a directory. -/
  | notDirectory
  /-- The path or a part of it is too long. -/
  | nameTooLong
deriving DecidableEq

abbrev Files := String → Entry

/-- The text that some bytes are, if they are UTF-8. -/
def textOf? (bytes : List UInt8) : Option String := String.fromUTF8? bytes.toByteArray

def Entry.read : Entry → Except String String
  | .file bytes =>
    match textOf? bytes with
    | some text => .ok text
    | none => .error "stream did not contain valid UTF-8"
  | .directory => .error "Is a directory (os error 21)"
  | .missing => .error "No such file or directory (os error 2)"
  | .notDirectory => .error "Not a directory (os error 20)"
  | .nameTooLong => .error "File name too long (os error 36)"

/-- A directory that holds some files, given by their paths from it. -/
structure Folder where
  files : List (List (List Char) × List UInt8)

namespace Folder

def ofFiles (files : List (String × List UInt8)) : Folder :=
  ⟨files.map fun (name, bytes) => (Path.parts name, bytes)⟩

/-- What stands at a path without dots and empty parts. -/
def plainEntry (folder : Folder) (path : List (List Char)) : Entry :=
  match folder.files.lookup path with
  | some bytes => .file bytes
  | none =>
    if path.isEmpty ∨ folder.files.any (fun (name, _) => path.isPrefixOf name) then .directory
    else .missing

/-- Whether a part of a path has more than 255 bytes, so that no directory can hold it. -/
def isTooLong (part : List Char) : Bool := 255 < Text.bytes part

/-- What stands at a path from outside of the folder, where nothing but directories above it is
known. -/
def outsideEntry (path : List (List Char)) : Entry :=
  match path.find? fun part => !(Path.isHere part || Path.isAbove part) with
  | none => .directory
  | some part => if isTooLong part then .nameTooLong else .missing

/-- What stands at a path that goes on from the directory `here`. -/
def entryFrom (folder : Folder) (here : List (List Char)) : List (List Char) → Entry
  | [] => folder.plainEntry here
  | part :: rest =>
    match folder.plainEntry here with
    | .file _ => .notDirectory
    | .directory =>
      if Path.isHere part then entryFrom folder here rest
      else if Path.isAbove part then
        if here.isEmpty then outsideEntry rest else entryFrom folder here.dropLast rest
      else if isTooLong part then .nameTooLong
      else entryFrom folder (here ++ [part]) rest
    | other => other

/-- What stands at a path. A path has at most 4095 bytes. -/
def entry (folder : Folder) : Files := fun path =>
  if path.isEmpty then .missing
  else if 4095 < path.utf8ByteSize then .nameTooLong
  else if path.toList.head? = some '/' then outsideEntry (Path.parts path)
  else folder.entryFrom [] (Path.parts path)

end Folder

end Mosaic
