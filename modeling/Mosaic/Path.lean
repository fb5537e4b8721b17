/-! Paths: parts with slashes between them. An empty part and a dot stand for the directory that
they are in, two dots for the one above it. -/
namespace Mosaic.Path

def parts (path : String) : List (List Char) := path.toList.splitOn '/'

/-- Whether a part stands for the directory that it is in. -/
def isHere (part : List Char) : Bool := part == [] || part == ['.']

/-- Whether a part stands for the directory above. -/
def isAbove (part : List Char) : Bool := part == ['.', '.']

/-- The parts of a path up to the last one that leads on. -/
def leading (path : String) : List (List Char) := ((parts path).reverse.dropWhile isHere).reverse

/-- The last part of a path that names a file. -/
def fileName? (path : String) : Option (List Char) :=
  match (leading path).getLast? with
  | some name => if isAbove name then none else some name
  | none => none

/-- The path with more text behind the name of its file, if it names one. -/
def withEnding? (ending path : String) : Option String :=
  (fileName? path).map fun _ => String.ofList (['/'].intercalate (leading path)) ++ ending

end Mosaic.Path
