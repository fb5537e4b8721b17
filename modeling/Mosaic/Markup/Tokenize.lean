import Mosaic.Markup.Piece
import Mosaic.Token.Basic

/-! Markup as tokens: the pieces of a document, each at its place. -/
namespace Mosaic.Markup

/-- The byte offset of an attribute's value in the attribute. -/
def valueOffset (attr : Attr) : Nat :=
  Text.bytes (attr.leading ++ attr.name ++ attr.assign ++ attr.quoteText).toList

/-- Attributes with the places of their values, the first of which stands at byte `offset`. -/
def placeAttrs (locator : Locator) (offset : Nat) : List Attr → List Attr
  | [] => []
  | attr :: rest =>
    let start := offset + valueOffset attr
    let valueRange := attr.value.map fun value =>
      locator.range start (start + Text.bytes value.toList)
    { attr with valueRange } ::
      placeAttrs locator (offset + Text.bytes (attr.render none).toList) rest

/-- A tag with the places of its values, which stands at byte `offset`. -/
def placeTag (locator : Locator) (offset : Nat) (tag : Tag) : Tag :=
  { tag with attrs := placeAttrs locator (offset + 1 + Text.bytes tag.name.toList) tag.attrs }

/-- A token without detail for the text at byte `offset`. -/
def placeText (locator : Locator) (offset : Nat) (kind : TokenKind) (text : List Char) : Token :=
  .plain kind (String.ofList text) (locator.range offset (offset + Text.bytes text))

def placeTagText (locator : Locator) (offset : Nat) (kind : TokenKind) (tag : TagText) : Token :=
  { placeText locator offset kind tag.text with detail := some (placeTag locator offset tag.tag) }

/-- The type that a start tag declares: trimmed and in lower case. -/
def declaredType? (tag : Tag) : Option String :=
  (tag.attrValue? "type").map fun value => String.ofList (Text.lower (Text.trim value.toList))

/-- The start part of a block. A script's declared type hangs in its type slot. -/
def placeStart (locator : Locator) (offset : Nat) (element : Element) (start : TagText) : Token :=
  let token := placeTagText locator offset .tagStart start
  match element, declaredType? start.tag with
  | .script, some declared => token.attach .type (.text declared)
  | _, _ => token

def Piece.token (locator : Locator) (offset : Nat) (piece : Piece) : Token :=
  match piece with
  | .plain kind text => placeText locator offset kind text
  | .startTag tag => placeTagText locator offset .tagStart tag
  | .endTag tag => placeTagText locator offset .tagEnd tag
  | .block element start content finish =>
    let contentAt := offset + Text.bytes start.text
    let finishAt := contentAt + Text.bytes content
    let block := placeText locator offset element.kind piece.text
      |>.attach .start (.token (placeStart locator offset element start))
      |>.attach .content (.token (placeText locator contentAt .text content))
    match finish with
    | some tag => block.attach .finish (.token (placeTagText locator finishAt .tagEnd tag))
    | none => block

/-- The tokens of pieces, the first of which stands at byte `offset`. -/
def place (locator : Locator) (offset : Nat) : List Piece → List Token
  | [] => []
  | piece :: rest =>
    piece.token locator offset :: place locator (offset + Text.bytes piece.text) rest

/-- The fault that a halt is in the text it was met in. -/
def Halt.fault (halt : Halt) (source : List Char) : Fault :=
  ⟨halt.cause, Text.bytes source - Text.bytes halt.rest⟩

def tokenize (t : Template.Scanner) (origin : Origin) (source : String) :
    Except BackendError (List Token) :=
  let locator := Locator.ofText source.toList origin
  match pieces t source.toList with
  | .ok found => .ok (place locator 0 found)
  | .error halt => .error ((halt.fault source.toList).locate .markup locator)

end Mosaic.Markup
