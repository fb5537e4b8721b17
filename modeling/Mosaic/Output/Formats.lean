import Mosaic.Json.Encode
import Mosaic.Json.Pretty
import Mosaic.Output.TreeView

/-! The formats in which a tree can be put out, and the registry that knows them by name. -/
namespace Mosaic

inductive FormatError where
  | notFound (name : String)
  | serialization (reason : String)
deriving DecidableEq

def FormatError.text : FormatError → String
  | .notFound name => "Format '" ++ name ++ "' not found"
  | .serialization reason => "Serialization error: " ++ reason

structure Format where
  name : String
  description : String
  serialize : Ast → Except FormatError String

namespace Format

def text : Format where
  name := "text"
  description := "Source text regenerated from the tree"
  serialize ast :=
    (stringify .builtin ast.grammar ast).mapError fun error => .serialization error.text

def json : Format where
  name := "json"
  description := "The full tree, nested regions included, as JSON"
  serialize ast := .ok ast.json.pretty

def treeView : Format where
  name := "treeviz"
  description := "Visual tree representation with indentation and Unicode icons"
  serialize ast := .ok (TreeView.render ast)

end Format

/-- Formats by ascending name. -/
structure Formats where
  entries : List Format

namespace Formats

def empty : Formats := ⟨[]⟩

/-- Put a format in its place; it replaces a format of the same name. -/
def insert (format : Format) : List Format → List Format
  | [] => [format]
  | first :: rest =>
    if format.name < first.name then format :: first :: rest
    else if format.name = first.name then format :: rest
    else first :: insert format rest

def register (formats : Formats) (format : Format) : Formats := ⟨insert format formats.entries⟩

def builtin : Formats := empty |>.register .text |>.register .json |>.register .treeView

def get? (formats : Formats) (name : String) : Option Format :=
  formats.entries.find? (·.name == name)

def has (formats : Formats) (name : String) : Bool := (formats.get? name).isSome

def names (formats : Formats) : List String := formats.entries.map (·.name)

def serialize (formats : Formats) (name : String) (ast : Ast) : Except FormatError String :=
  match formats.get? name with
  | some format => format.serialize ast
  | none => .error (.notFound name)

end Formats

end Mosaic
