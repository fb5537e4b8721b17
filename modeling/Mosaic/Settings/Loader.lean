import Mosaic.Files
import Mosaic.Settings.Layers
import Mosaic.Toml.Document

/-! Settings from files. The standard settings lie at the bottom, the files above them in the order
in which they were added, and entries that were set one by one above every file. -/
namespace Mosaic.Settings

/-- A file with settings, which may have to exist. -/
structure Source where
  name : String
  required : Bool
deriving DecidableEq

structure Loader where
  sources : List Source
  overrides : List (List Step × Value)

def standardTemplate : List (String × Value) :=
  [("engine", .text Template.standard.engine),
    ("ld", .text Template.standard.left),
    ("rd", .text Template.standard.right)]

/-- The settings at the bottom. -/
def standardLayer : List (String × Value) :=
  let types : List Value := [.text "text/template", .text "text/x-template"]
  [("tpl", .table standardTemplate), ("js_tpl", .table (("type", .list types) :: standardTemplate))]

/-- Drop the mark that some texts begin with. -/
def dropMark : List UInt8 → List UInt8
  | 0xEF :: 0xBB :: 0xBF :: rest => rest
  | bytes => bytes

/-- The name of a file with settings where the ending is left out, if it can be. -/
def fullName? (name : String) : Option String := Path.withEnding? ".toml" name

/-- The bytes of a file with settings, which is looked for under its name first. -/
def findFile? (files : Files) (name : String) : Option (List UInt8) :=
  match files name, (fullName? name).map files with
  | .file bytes, _ => some bytes
  | _, some (.file bytes) => some bytes
  | _, _ => none

def findText? (files : Files) (name : String) : Option String :=
  (findFile? files name).bind fun bytes => textOf? (dropMark bytes)

/-- Put a file over a value. A file without a text may be left out if it need not exist, but a text
that cannot be read as settings is an error. -/
def putSource (files : Files) (lower : Value) (source : Source) : Option Value :=
  match findText? files source.name with
  | some text => (Toml.read? text).map (putLayer lower)
  | none => if source.required then none else some lower

namespace Loader

def standard : Loader := ⟨[], []⟩

def withFile (loader : Loader) (name : String) : Loader :=
  { loader with sources := loader.sources ++ [⟨name, true⟩] }

def withOptionalFile (loader : Loader) (name : String) : Loader :=
  { loader with sources := loader.sources ++ [⟨name, false⟩] }

/-- Set the value of a key, if the key is a path. -/
def setOverride? (loader : Loader) (key : String) (value : Value) : Option Loader :=
  (path? key).map fun path => { loader with overrides := loader.overrides ++ [(path, value)] }

def build? (loader : Loader) (files : Files) : Option Config := do
  let bottom := putLayer (.table []) standardLayer
  let value ← loader.sources.foldlM (putSource files) bottom
  config? lenient <|
    loader.overrides.foldl (fun lower (path, upper) => putAt path upper lower) value

end Loader

end Mosaic.Settings
