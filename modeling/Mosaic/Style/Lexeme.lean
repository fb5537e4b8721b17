import Mosaic.Failure
import Mosaic.Template.Scanner

/-! The lexemes of a style sheet. Template regions are cut out first; the text between two of them
is read on its own, so that neither a comment nor a string reaches across a region. -/
namespace Mosaic.Style

/-- What a lexeme is, as far as it matters before its place in the sheet is known. -/
inductive Mark where
  | blank
  | comment
  | leftBrace
  | rightBrace
  | colon
  | semicolon
  /-- Part of a run of text: a word, a string, or a sign without a meaning of its own. -/
  | run
  | template
deriving DecidableEq

structure Lexeme where
  mark : Mark
  text : List Char
deriving DecidableEq

/-- A space, tab, line feed, carriage return or form feed. -/
def isSpace (c : Char) : Bool := c == ' ' || c == '\t' || c == '\n' || c == '\r' || c == '\x0c'

def isQuote (c : Char) : Bool := c == '"' || c == '\''

def isWordPart (c : Char) : Bool :=
  !(isSpace c || isQuote c || c == '\x7b' || c == '\x7d' || c == ':' || c == ';' || c == '/')

/-- The number of characters up to and including the closing quote, if it stands on the same
line. A backslash hides the character after it. -/
def stringLength? (quote : Char) : List Char → Option Nat
  | [] => none
  | '\\' :: _ :: rest => (stringLength? quote rest).map (· + 2)
  | c :: rest =>
    if c = '\n' then none
    else if c = quote then some 1
    else (stringLength? quote rest).map (· + 1)

/-- What a slash begins, and how many of the characters after it belong to that. -/
def slashMark : List Char → Except Cause (Mark × Nat)
  | '*' :: rest =>
    match Text.endOf? ['*', '/'] rest with
    | some n => .ok (.comment, n + 1)
    | none => .error .unclosedComment
  | _ => .ok (.run, 0)

/-- What the character `c` begins, and how many of the characters after it belong to that. A
quote without its second quote is a sign like others. -/
def markAt (c : Char) (rest : List Char) : Except Cause (Mark × Nat) :=
  if isSpace c then .ok (.blank, (rest.takeWhile isSpace).length)
  else if c = '\x7b' then .ok (.leftBrace, 0)
  else if c = '\x7d' then .ok (.rightBrace, 0)
  else if c = ':' then .ok (.colon, 0)
  else if c = ';' then .ok (.semicolon, 0)
  else if c = '/' then slashMark rest
  else if isQuote c then .ok (.run, (stringLength? c rest).getD 0)
  else .ok (.run, (rest.takeWhile isWordPart).length)

/-- The lexemes of a text without templates, up to its end or to what cannot be read. -/
def plainLexemes : List Char → List Lexeme × Option Cause
  | [] => ([], none)
  | c :: rest =>
    match markAt c rest with
    | .error cause => ([], some cause)
    | .ok (mark, n) =>
      let (more, cause) := plainLexemes (rest.drop n)
      (⟨mark, c :: rest.take n⟩ :: more, cause)
termination_by s => s.length
decreasing_by
  simp only [List.length_drop, List.length_cons]
  omega

/-- The lexemes of a style sheet, up to its end or to what cannot be read. -/
def lexemes (t : Template.Scanner) : List Char → List Lexeme × Option Cause
  | [] => ([], none)
  | c :: rest =>
    if t.opens (c :: rest) then
      match t.scanAfter c rest with
      | none => ([], some .unclosedTemplate)
      | some n =>
        let (more, cause) := lexemes t (rest.drop n)
        (⟨.template, c :: rest.take n⟩ :: more, cause)
    else
      let n := (t.nextOpen? rest).getD rest.length
      match plainLexemes (c :: rest.take n) with
      | (found, some cause) => (found, some cause)
      | (found, none) =>
        let (more, cause) := lexemes t (rest.drop n)
        (found ++ more, cause)
termination_by s => s.length
decreasing_by
  all_goals
    simp only [List.length_drop, List.length_cons]
    omega

end Mosaic.Style
