import Mosaic.Failure
import Mosaic.Script.Tree
import Mosaic.Text.Blank
import Mosaic.Text.Letter
import Mosaic.Text.Numeral

/-! The lexemes of a script. A slash that begins no comment is a division after an operand and
begins a regular expression where an operand is expected; that is all a reading has to remember
from one lexeme to the next. -/
namespace Mosaic.Script

/-- A leaf, an opening bracket or a closing one. -/
inductive Role where
  | leaf (kind : LeafKind)
  | opener (bracket : Char)
  | closer (bracket : Char)
deriving DecidableEq

structure Lexeme where
  role : Role
  text : List Char
deriving DecidableEq

/-- The words after which a slash begins a regular expression. -/
def operandKeywords : List String :=
  ["return", "typeof", "instanceof", "in", "of", "new", "delete", "void", "throw", "case", "do",
    "else", "yield", "await"]

def isIdentStart (c : Char) : Bool := Text.isLetter c || c == '_' || c == '$'

def isIdentPart (c : Char) : Bool := isIdentStart c || Text.isNumeral c

def isNumberPart (c : Char) : Bool := c.isAlphanum || c == '_' || c == '.'

/-- A double quote, a single quote or a grave accent. -/
def isQuote (c : Char) : Bool := c == '"' || c == '\'' || c == '\x60'

def isOpener (c : Char) : Bool := c == '(' || c == '[' || c == '\x7b'

def isCloser (c : Char) : Bool := c == ')' || c == ']' || c == '\x7d'

def closerOf (opener : Char) : Char :=
  if opener = '(' then ')' else if opener = '[' then ']' else '\x7d'

/-- The number of characters up to and including the closing quote. A backslash hides the
character after it, and only grave accents enclose line breaks. -/
def stringLength? (quote : Char) : List Char → Option Nat
  | [] => none
  | '\\' :: _ :: rest => (stringLength? quote rest).map (· + 2)
  | c :: rest =>
    if c = '\n' ∧ quote ≠ '\x60' then none
    else if c = quote then some 1
    else (stringLength? quote rest).map (· + 1)

/-- The number of characters of a regular expression after its first slash, flags included. A
slash between square brackets does not end it, and no line break may stand in it. -/
def regexLength? : (inClass : Bool) → List Char → Option Nat
  | _, [] => none
  | inClass, '\\' :: _ :: rest => (regexLength? inClass rest).map (· + 2)
  | inClass, c :: rest =>
    if c = '\n' then none
    else if c = '[' then (regexLength? true rest).map (· + 1)
    else if c = ']' then (regexLength? false rest).map (· + 1)
    else if c = '/' ∧ !inClass then some ((rest.takeWhile Char.isAlpha).length + 1)
    else (regexLength? inClass rest).map (· + 1)

/-- What a slash begins, and how many of the characters after it belong to that. -/
def slashRole (operand : Bool) : List Char → Except Cause (Role × Nat)
  | '/' :: rest => .ok (.leaf .comment, (rest.takeWhile (· ≠ '\n')).length + 1)
  | '*' :: rest =>
    match Text.endOf? ['*', '/'] rest with
    | some n => .ok (.leaf .comment, n + 1)
    | none => .error .unclosedComment
  | rest =>
    if operand then
      match regexLength? false rest with
      | some n => .ok (.leaf .regex, n)
      | none => .error .unterminatedRegex
    else .ok (.leaf .punct, 0)

/-- What the character `c` begins, and how many of the characters after it belong to that. -/
def roleAt (operand : Bool) (c : Char) (rest : List Char) : Except Cause (Role × Nat) :=
  if Text.isBlank c then .ok (.leaf .whitespace, Text.blankLength rest)
  else if isIdentStart c then .ok (.leaf .ident, (rest.takeWhile isIdentPart).length)
  else if c.isDigit then .ok (.leaf .number, (rest.takeWhile isNumberPart).length)
  else if isQuote c then
    match stringLength? c rest with
    | some n => .ok (.leaf (if c = '\x60' then .template else .str), n)
    | none => .error .unterminatedString
  else if c = '/' then slashRole operand rest
  else if isOpener c then .ok (.opener c, 0)
  else if isCloser c then .ok (.closer c, 0)
  else if Text.isNumeral c then .error (.unexpectedInput c)
  else .ok (.leaf .punct, 0)

/-- Whether an operand is expected after a lexeme, when `operand` says so before it. -/
def Lexeme.operandAfter (lexeme : Lexeme) (operand : Bool) : Bool :=
  match lexeme.role with
  | .opener _ => true
  | .closer _ => false
  | .leaf .whitespace => operand
  | .leaf .comment => operand
  | .leaf .ident => String.ofList lexeme.text ∈ operandKeywords
  | .leaf .punct => true
  | .leaf _ => false

/-- The lexemes of a script up to its end or to what cannot be read, and why it cannot. -/
def lexemes (operand : Bool) : List Char → List Lexeme × Option Cause
  | [] => ([], none)
  | c :: rest =>
    match roleAt operand c rest with
    | .error cause => ([], some cause)
    | .ok (role, n) =>
      let lexeme : Lexeme := ⟨role, c :: rest.take n⟩
      let (more, cause) := lexemes (lexeme.operandAfter operand) (rest.drop n)
      (lexeme :: more, cause)
termination_by s => s.length
decreasing_by
  simp only [List.length_drop, List.length_cons]
  omega

end Mosaic.Script
