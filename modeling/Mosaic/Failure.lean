import Mosaic.Location
import Mosaic.Grammar
import Mosaic.Text.Escape

/-! What can go wrong with a text, and how it is told. -/
namespace Mosaic

/-- What is wrong with a text. -/
inductive Cause where
  /-- A template region without its right delimiter. -/
  | unclosedTemplate
  /-- A comment without its end. -/
  | unclosedComment
  /-- A declaration without its closing bracket. -/
  | unclosedDeclaration
  /-- An end tag without its closing bracket. -/
  | unclosedEndTag
  /-- A start tag without its closing bracket. -/
  | unclosedTag (name : String)
  /-- A quoted attribute value without its second quote. -/
  | unclosedValue
  /-- A string without its second quote. -/
  | unterminatedString
  /-- A regular expression without its second slash. -/
  | unterminatedRegex
  /-- A character that starts nothing. -/
  | unexpectedInput (input : Char)
  /-- A closing bracket where no bracket is open. -/
  | unexpectedCloser (closer : Char)
  /-- A closing bracket that belongs to another opening one. -/
  | mismatchedCloser (opener closer : Char)
  /-- An opening bracket that is never closed. -/
  | unclosedOpener (opener : Char)
  /-- A tree of one grammar where another is expected. -/
  | wrongTree (expected found : Grammar)
  /-- A nested text that is no shorter than the text around it. -/
  | endlessNesting
  /-- A failure told by a backend in its own words. -/
  | reported (text : String)
deriving DecidableEq

def Cause.message : Cause → String
  | .unclosedTemplate => "unclosed template region"
  | .unclosedComment => "unclosed comment"
  | .unclosedDeclaration => "unclosed declaration"
  | .unclosedEndTag => "unclosed end tag"
  | .unclosedTag name => "unclosed tag <" ++ name ++ ">"
  | .unclosedValue => "unclosed attribute value"
  | .unterminatedString => "unterminated string"
  | .unterminatedRegex => "unterminated regular expression"
  | .unexpectedInput input => "unexpected input " ++ String.ofList (Text.quote [input])
  | .unexpectedCloser closer => "unexpected '" ++ closer.toString ++ "'"
  | .mismatchedCloser opener closer =>
    "'" ++ opener.toString ++ "' closed by '" ++ closer.toString ++ "'"
  | .unclosedOpener opener => "unclosed '" ++ opener.toString ++ "'"
  | .wrongTree expected found =>
    "expected a " ++ expected.name ++ " tree, got a " ++ found.name ++ " tree"
  | .endlessNesting => "nested text is not shorter than the text around it"
  | .reported text => text

/-- A cause and the byte offset, in the text that was read, of what it is about. -/
structure Fault where
  cause : Cause
  offset : Nat
deriving DecidableEq

/-- A failure of one grammar, with its place in the document if it has one. -/
structure BackendError where
  grammar : Grammar
  cause : Cause
  position : Option Position
deriving DecidableEq

/-- The failure that a fault is in the document. -/
def Fault.locate (fault : Fault) (grammar : Grammar) (locator : Locator) : BackendError :=
  ⟨grammar, fault.cause, some (locator.position fault.offset)⟩

/-- The grammar, the place if there is one, and what is wrong. -/
def BackendError.text (e : BackendError) : String :=
  let place := match e.position with
    | some position => " at " ++ position.text
    | none => ""
  e.grammar.name ++ " error" ++ place ++ ": " ++ e.cause.message

end Mosaic
