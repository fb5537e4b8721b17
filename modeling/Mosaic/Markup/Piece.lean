import Mosaic.Markup.Tag
import Mosaic.Token.Kind

/-! The pieces of a markup document. A style or script element is one piece: its body is not
markup, and nothing but its own end tag ends it. -/
namespace Mosaic.Markup

/-- The elements whose bodies are no markup. -/
inductive Element where
  | style
  | script
deriving DecidableEq

namespace Element

def name : Element → String
  | .style => "style"
  | .script => "script"

def kind : Element → TokenKind
  | .style => .styleBlock
  | .script => .scriptBlock

def ofName? (name : String) : Option Element :=
  if name = "style" then some .style else if name = "script" then some .script else none

end Element

/-- A piece of markup. -/
inductive Piece where
  | plain (kind : TokenKind) (text : List Char)
  | startTag (tag : TagText)
  | endTag (tag : TagText)
  | block (element : Element) (start : TagText) (content : List Char) (finish : Option TagText)
deriving DecidableEq

def Piece.text : Piece → List Char
  | .plain _ text => text
  | .startTag tag => tag.text
  | .endTag tag => tag.text
  | .block _ start content finish =>
    start.text ++ content ++ match finish with
      | some tag => tag.text
      | none => []

/-- Whether `d` is the lowercase letter `c` in either case; the long s is an s too. -/
def sameLetter (c d : Char) : Bool := d.toLower == c || (c == 's' && d == 'ſ')

/-- Whether a text begins with a name in any case. -/
def beginsWithName : (name text : List Char) → Bool
  | [], _ => true
  | _ :: _, [] => false
  | c :: name, d :: text => sameLetter c d && beginsWithName name text

/-- The length of the end tag of an element at the front of `s`: its name in any case, perhaps
with blanks before the closing bracket. -/
def closerLength? (element : Element) (s : List Char) : Option Nat :=
  let name := element.name.toList
  match s with
  | '<' :: '/' :: rest =>
    if beginsWithName name rest then
      let after := rest.drop name.length
      match after.dropWhile Text.isBlank with
      | '>' :: _ => some (name.length + Text.blankLength after + 3)
      | _ => none
    else none
  | _ => none

/-- The number of characters before the first end tag of an element, and its length. -/
def firstCloser? (element : Element) : List Char → Option (Nat × Nat)
  | [] => none
  | c :: rest =>
    match closerLength? element (c :: rest) with
    | some n => some (0, n)
    | none => (firstCloser? element rest).map fun (i, n) => (i + 1, n)

def opensStartTag (s : List Char) : Bool :=
  match s with
  | '<' :: c :: _ => c.isAlpha
  | _ => false

def opensEndTag (s : List Char) : Bool :=
  match s with
  | '<' :: '/' :: c :: _ => c.isAlpha
  | _ => false

/-- Whether anything but text begins at the front of `s`. -/
def opensConstruct (t : Template.Scanner) (s : List Char) : Bool :=
  t.opens s || ['<', '!'].isPrefixOf s || ['<', '?'].isPrefixOf s || opensEndTag s ||
    opensStartTag s

/-- The number of characters before anything but text begins. -/
def textLength (t : Template.Scanner) : List Char → Nat
  | [] => 0
  | c :: rest => if opensConstruct t (c :: rest) then 0 else textLength t rest + 1

/-- The element whose start tag opens with a bracket followed by `rest`, and how many characters
of `rest` belong to it. An element that is never ended reaches to the end of the document. -/
def elementAt (t : Template.Scanner) (rest : List Char) : Except Halt (Piece × Nat) :=
  match startTagAt t rest with
  | .error halt => .error halt
  | .ok (start, n) =>
    match if start.tag.selfClosing then none else Element.ofName? start.tag.nameLower with
    | none => .ok (.startTag start, n)
    | some element =>
      let after := rest.drop n
      match firstCloser? element after with
      | none => .ok (.block element start after none, n + after.length)
      | some (i, m) =>
        match endTagAt t (after.drop (i + 1)) with
        | .error halt => .error halt
        | .ok (finish, _) => .ok (.block element start (after.take i) (some finish), n + i + m)

/-- A piece that ends with the first `word` behind its first `skip + 1` characters. -/
def upTo (kind : TokenKind) (cause : Cause) (skip : Nat) (word : List Char) (c : Char)
    (rest : List Char) : Except Halt (Piece × Nat) :=
  match Text.endOf? word (rest.drop skip) with
  | none => .error ⟨cause, c :: rest⟩
  | some n => .ok (.plain kind (c :: rest.take (skip + n)), skip + n)

/-- The piece that begins with `c`, and how many of the characters after `c` belong to it. -/
def pieceAt (t : Template.Scanner) (c : Char) (rest : List Char) : Except Halt (Piece × Nat) :=
  if t.opens (c :: rest) then
    match t.scanAfter c rest with
    | none => .error ⟨.unclosedTemplate, c :: rest⟩
    | some n => .ok (.plain .template (c :: rest.take n), n)
  else if ['<', '!', '-', '-'].isPrefixOf (c :: rest) then
    upTo .comment .unclosedComment 3 ['-', '-', '>'] c rest
  else if ['<', '!'].isPrefixOf (c :: rest) ∨ ['<', '?'].isPrefixOf (c :: rest) then
    upTo .declaration .unclosedDeclaration 1 ['>'] c rest
  else if opensEndTag (c :: rest) then (endTagAt t rest).map fun (tag, n) => (.endTag tag, n)
  else if opensStartTag (c :: rest) then elementAt t rest
  else
    let n := textLength t rest
    .ok (.plain .text (c :: rest.take n), n)

def pieces (t : Template.Scanner) : List Char → Except Halt (List Piece)
  | [] => .ok []
  | c :: rest =>
    match pieceAt t c rest with
    | .error halt => .error halt
    | .ok (piece, n) =>
      match pieces t (rest.drop n) with
      | .error halt => .error halt
      | .ok more => .ok (piece :: more)
termination_by s => s.length
decreasing_by
  simp only [List.length_drop, List.length_cons]
  omega

end Mosaic.Markup
