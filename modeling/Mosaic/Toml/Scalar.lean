import Mosaic.Decimal
import Mosaic.Settings.Value

/-! The parts of TOML that stand on one line: strings, numbers, switches and keys. -/
namespace Mosaic.Toml

open Settings (Value)

/-- A control character, the tab left out. -/
def isControl (c : Char) : Bool := (c.toNat < 32 && c != '\t') || c.toNat == 127

def digit? (c : Char) : Option Nat :=
  if '0' ≤ c ∧ c ≤ '9' then some (c.toNat - '0'.toNat)
  else if 'a' ≤ c ∧ c ≤ 'f' then some (c.toNat - 'a'.toNat + 10)
  else if 'A' ≤ c ∧ c ≤ 'F' then some (c.toNat - 'A'.toNat + 10)
  else none

def number? (base : Nat) (digits : List Char) : Option Nat :=
  digits.foldlM (fun n c => do
    let d ← digit? c
    if d < base then some (n * base + d) else none) 0

def codePoint? (digits : List Char) : Option Char := do
  let n ← number? 16 digits
  if n.isValidChar then some (Char.ofNat n) else none

/-- The character that a letter behind a backslash stands for. -/
def shortEscape? : Char → Option Char
  | 'b' => some '\x08'
  | 't' => some '\t'
  | 'n' => some '\n'
  | 'f' => some '\x0c'
  | 'r' => some '\r'
  | '"' => some '"'
  | '\\' => some '\\'
  | _ => none

/-- A text with a character before it, and the rest. -/
def before (c : Char) (taken : List Char × List Char) : List Char × List Char :=
  (c :: taken.1, taken.2)

/-- A text with escapes up to its closing double quote, and the rest. -/
def basicBody : List Char → Option (List Char × List Char)
  | [] => none
  | '"' :: rest => some ([], rest)
  | '\\' :: 'u' :: a :: b :: c :: d :: rest => do
    let found ← codePoint? [a, b, c, d]
    (basicBody rest).map (before found)
  | '\\' :: 'U' :: a :: b :: c :: d :: e :: f :: g :: h :: rest => do
    let found ← codePoint? [a, b, c, d, e, f, g, h]
    (basicBody rest).map (before found)
  | '\\' :: c :: rest => do
    let found ← shortEscape? c
    (basicBody rest).map (before found)
  | c :: rest => if isControl c then none else (basicBody rest).map (before c)

/-- A text without escapes up to its closing single quote, and the rest. -/
def literalBody : List Char → Option (List Char × List Char)
  | [] => none
  | '\'' :: rest => some ([], rest)
  | c :: rest => if isControl c then none else (literalBody rest).map (before c)

/-- A character of a key without quotes. -/
def isBare (c : Char) : Bool := c.isAlphanum || c == '_' || c == '-'

def keyPart : List Char → Option (String × List Char)
  | '"' :: rest => (basicBody rest).map fun (name, rest) => (String.ofList name, rest)
  | '\'' :: rest => (literalBody rest).map fun (name, rest) => (String.ofList name, rest)
  | s =>
    let name := s.takeWhile isBare
    if name.isEmpty then none else some (String.ofList name, s.drop name.length)

/-- Digits without the underscores between them. -/
def plainDigits? : List Char → Option (List Char)
  | [] => none
  | [c] => if c.isAlphanum then some [c] else none
  | c :: '_' :: rest => if c.isAlphanum then (plainDigits? rest).map (c :: ·) else none
  | c :: rest => if c.isAlphanum then (plainDigits? rest).map (c :: ·) else none

def noLeadingZero : List Char → Bool
  | '0' :: _ :: _ => false
  | _ => true

def sign : List Char → Bool × List Char
  | '-' :: rest => (true, rest)
  | '+' :: rest => (false, rest)
  | s => (false, s)

/-- A whole number in 64 bits. -/
def inRange (n : Int) : Option Value :=
  if (Int64.ofInt n).toInt = n then some (.integer n) else none

def basedInteger? (base : Nat) (digits : List Char) : Option Value := do
  let digits ← plainDigits? digits
  inRange (← number? base digits)

def integer? (s : List Char) : Option Value :=
  match s with
  | '0' :: 'x' :: rest => basedInteger? 16 rest
  | '0' :: 'o' :: rest => basedInteger? 8 rest
  | '0' :: 'b' :: rest => basedInteger? 2 rest
  | _ => do
    let (negative, rest) := sign s
    let digits ← plainDigits? rest
    let n ← number? 10 digits
    if noLeadingZero digits then inRange (if negative then -n else n) else none

/-- The double nearest to a number, as the shortest text for it. A number above all doubles is
refused, while one below all of them is taken for minus infinity. -/
def fractionOf (negative : Bool) (d : Decimal) : Option Value :=
  let x := d.nearest
  if x.isFinite then
    some (.fraction ((if negative then "-" else "") ++ x.shortest.text))
  else if negative then some (.fraction "-inf")
  else none

def exponent? (s : List Char) : Option Int := do
  let (negative, rest) := sign s
  let digits ← plainDigits? rest
  let n ← number? 10 digits
  return if negative then -n else n

def fraction? : List Char → Option (List Char × List Char)
  | '.' :: rest =>
    let text := rest.takeWhile fun c => c.isDigit || c == '_'
    (plainDigits? text).map (·, rest.drop text.length)
  | rest => some ([], rest)

/-- A number with a point or a power of ten, or one of the words for what is no number. -/
def decimal? (s : List Char) : Option Value := do
  let (negative, unsigned) := sign s
  if unsigned = ['i', 'n', 'f'] then return .fraction (if negative then "-inf" else "inf")
  if unsigned = ['n', 'a', 'n'] then return .fraction "NaN"
  let text := unsigned.takeWhile fun c => c.isDigit || c == '_'
  let whole ← plainDigits? text
  let (part, rest) ← fraction? (unsigned.drop text.length)
  let power ← match rest with
    | 'e' :: rest | 'E' :: rest => exponent? rest
    | [] => some 0
    | _ => none
  if noLeadingZero whole ∧ unsigned.any (fun c => c == '.' || c == 'e' || c == 'E') then
    fractionOf negative ⟨← number? 10 (whole ++ part), power - part.length⟩
  else none

def isScalarPart (c : Char) : Bool :=
  c.isAlphanum || c == '_' || c == '+' || c == '-' || c == '.' || c == ':'

/-- A switch or a number, and the rest. -/
def scalar? (s : List Char) : Option (Value × List Char) := do
  let text := s.takeWhile isScalarPart
  let rest := s.drop text.length
  if text = ['t', 'r', 'u', 'e'] then return (.bool true, rest)
  if text = ['f', 'a', 'l', 's', 'e'] then return (.bool false, rest)
  return (← (integer? text).or (decimal? text), rest)

end Mosaic.Toml
