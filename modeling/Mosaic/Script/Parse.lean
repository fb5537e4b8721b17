import Mosaic.Script.Lexeme

/-! Reading a script: its lexemes are gathered into groups by their brackets. -/
namespace Mosaic.Script

/-- An open group: its bracket, where that stands, and the nodes before it, last one first. -/
structure Frame where
  opener : Char
  offset : Nat
  before : List Node

/-- Gather lexemes into a tree. The first lexeme stands at byte `offset`, the open groups are
listed from the innermost one on, and `body` holds the nodes of the innermost one, last one
first. After the lexemes the script ends, or cannot be read further for the cause `ending`. -/
def nest (ending : Option Cause) (offset : Nat) (stack : List Frame) (body : List Node) :
    List Lexeme → Except Fault Tree
  | [] =>
    match ending, stack with
    | some cause, _ => .error ⟨cause, offset⟩
    | none, frame :: _ => .error ⟨.unclosedOpener frame.opener, frame.offset⟩
    | none, [] => .ok ⟨body.reverse⟩
  | ⟨role, text⟩ :: rest =>
    let next := offset + Text.bytes text
    match role with
    | .leaf kind => nest ending next stack (.leaf kind (String.ofList text) :: body) rest
    | .opener c => nest ending next (⟨c, offset, body⟩ :: stack) [] rest
    | .closer c =>
      match stack with
      | [] => .error ⟨.unexpectedCloser c, offset⟩
      | frame :: outer =>
        if closerOf frame.opener = c then
          nest ending next outer (.group frame.opener body.reverse c :: frame.before) rest
        else .error ⟨.mismatchedCloser frame.opener c, offset⟩

def read (source : List Char) : Except Fault Tree :=
  let (found, ending) := lexemes true source
  nest ending 0 [] [] found

/-- The tree of a script. A script is read as a document of its own, so its failures have their
places in the script itself. -/
def parse (source : String) : Except BackendError Tree :=
  (read source.toList).mapError fun fault =>
    fault.locate .script (.ofText source.toList .zero)

end Mosaic.Script
