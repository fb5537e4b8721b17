import Mosaic.Style.Piece
import Mosaic.Token.Basic

/-! Style sheets as tokens. Every character of a sheet is in exactly one token, so a sheet is
written back by putting the texts of its tokens one after the other. -/
namespace Mosaic.Style

/-- The tokens of pieces, the first of which stands at byte `offset`. -/
def place (locator : Locator) (offset : Nat) : List Piece → List Token
  | [] => []
  | ⟨kind, text⟩ :: rest =>
    let next := offset + Text.bytes text
    .plain kind (String.ofList text) (locator.range offset next) :: place locator next rest

def read (t : Template.Scanner) (source : List Char) : Except Fault (List Piece) :=
  match lexemes t source with
  | (found, none) => .ok (pieces found)
  | (found, some cause) => .error ⟨cause, Text.bytes (found.flatMap (·.text))⟩

def tokenize (t : Template.Scanner) (origin : Origin) (source : String) :
    Except BackendError (List Token) :=
  let locator := Locator.ofText source.toList origin
  match read t source.toList with
  | .ok found => .ok (place locator 0 found)
  | .error fault => .error (fault.locate .style locator)

def stringify (tokens : List Token) : String := Token.concat tokens

end Mosaic.Style
