import Mosaic.Dispatch
import Mosaic.Path

/-! Documents: files whose grammar follows from their names and properties. Scripts and style
sheets are known by their extensions; markup comes with all kinds of extensions and is known by a
property. -/
namespace Mosaic

/-- What is asked of a file: the path that messages name it by, its extension without a dot, and
whether it has a property. -/
structure FileDescriptor where
  path : String
  extension : String
  has : String → Bool

/-- The property of files that hold markup. -/
def templateProperty : String := "tpl"

inductive Operation where
  | parse
  | stringify
deriving DecidableEq

inductive DocumentError where
  /-- The file has no grammar. -/
  | unsupported (path : String) (operation : Operation)
  | backend (error : BackendError)
deriving DecidableEq

def DocumentError.text : DocumentError → String
  | .unsupported path .parse => "file " ++ path ++ " can not get AST"
  | .unsupported path .stringify => "can not convert file " ++ path ++ " AST to string"
  | .backend error => error.text

namespace FileDescriptor

/-- The grammar of a file, if it has one. An extension that is known counts first. -/
def grammar? (file : FileDescriptor) : Option Grammar :=
  let extension := Text.lower file.extension.toList
  if extension = ['j', 's'] then some .script
  else if extension = ['c', 's', 's'] then some .style
  else if file.has templateProperty then some .markup
  else none

def grammarFor (file : FileDescriptor) (operation : Operation) : Except DocumentError Grammar :=
  match file.grammar? with
  | some grammar => .ok grammar
  | none => .error (.unsupported file.path operation)

def parse (b : Backends) (config : Config) (file : FileDescriptor) (content : String) :
    Except DocumentError Ast := do
  let grammar ← file.grammarFor .parse
  (dispatch b config grammar .zero content).mapError .backend

def stringify (b : Backends) (file : FileDescriptor) (ast : Ast) :
    Except DocumentError String := do
  let grammar ← file.grammarFor .stringify
  (Mosaic.stringify b grammar ast).mapError .backend

end FileDescriptor

structure SourceFile where
  path : String
  properties : List String
deriving DecidableEq

namespace SourceFile

/-- What follows the last dot of a name, unless the name begins with that dot. -/
def suffix (name : List Char) : List Char :=
  let ending := (name.reverse.takeWhile (· ≠ '.')).reverse
  if ending.length + 1 < name.length then ending else []

def extension (file : SourceFile) : String :=
  match Path.fileName? file.path with
  | some name => String.ofList (suffix name)
  | none => ""

def has (file : SourceFile) (property : String) : Bool := property ∈ file.properties

def descriptor (file : SourceFile) : FileDescriptor := ⟨file.path, file.extension, file.has⟩

def grammarFor (file : SourceFile) (operation : Operation) : Except DocumentError Grammar :=
  file.descriptor.grammarFor operation

def parse (b : Backends) (config : Config) (file : SourceFile) (content : String) :
    Except DocumentError Ast :=
  file.descriptor.parse b config content

def stringify (b : Backends) (file : SourceFile) (ast : Ast) : Except DocumentError String :=
  file.descriptor.stringify b ast

end SourceFile

end Mosaic
