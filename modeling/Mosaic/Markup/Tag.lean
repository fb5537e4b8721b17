import Mosaic.Failure
import Mosaic.Template.Scanner
import Mosaic.Text.Blank
import Mosaic.Token.Tag

/-! Start tags and end tags cut out of markup. Template regions may stand where an attribute could
and inside of values; they are skipped whole, so a quote or bracket in one ends nothing. -/
namespace Mosaic.Markup

/-- Why a text cannot be read, and the rest of it from the place that is to blame. -/
structure Halt where
  cause : Cause
  rest : List Char
deriving DecidableEq

structure TagText where
  tag : Tag
  text : List Char
deriving DecidableEq

/-- Whether a tag name ends in front of `s`. -/
def endsName (t : Template.Scanner) (s : List Char) : Bool :=
  match s with
  | [] => true
  | c :: rest =>
    Text.isBlank c || c == '>' || (c == '/' && rest.head? == some '>') || t.opens s

def endsAttrName (t : Template.Scanner) (s : List Char) : Bool :=
  s.head? == some '=' || endsName t s

def nameLength (t : Template.Scanner) : List Char → Nat
  | [] => 0
  | c :: rest => if endsName t (c :: rest) then 0 else nameLength t rest + 1

def attrNameLength (t : Template.Scanner) : List Char → Nat
  | [] => 0
  | c :: rest => if endsAttrName t (c :: rest) then 0 else attrNameLength t rest + 1

/-- The number of characters before the closing quote, where the first `skip` ones belong to a
template region. -/
def quotedLength (t : Template.Scanner) (quote : Char) (unclosed : Halt) :
    (skip : Nat) → List Char → Except Halt Nat
  | _, [] => .error unclosed
  | skip + 1, _ :: rest => (quotedLength t quote unclosed skip rest).map (· + 1)
  | 0, c :: rest =>
    if t.opens (c :: rest) then
      match t.scanAfter c rest with
      | none => .error ⟨.unclosedTemplate, c :: rest⟩
      | some n => (quotedLength t quote unclosed n rest).map (· + 1)
    else if c = quote then .ok 0
    else (quotedLength t quote unclosed 0 rest).map (· + 1)

/-- The number of characters before the blank or bracket that ends a value without quotes, where
the first `skip` ones belong to a template region. -/
def unquotedLength (t : Template.Scanner) : (skip : Nat) → List Char → Except Halt Nat
  | _, [] => .ok 0
  | skip + 1, _ :: rest => (unquotedLength t skip rest).map (· + 1)
  | 0, c :: rest =>
    if t.opens (c :: rest) then
      match t.scanAfter c rest with
      | none => .error ⟨.unclosedTemplate, c :: rest⟩
      | some n => (unquotedLength t n rest).map (· + 1)
    else if Text.isBlank c ∨ c = '>' then .ok 0
    else (unquotedLength t 0 rest).map (· + 1)

/-- A double or a single quote. -/
def isQuote (c : Char) : Bool := c == '"' || c == '\''

/-- A value, its quote, and the number of characters that both take. -/
def valueAt (t : Template.Scanner) (s : List Char) : Except Halt (Option Char × List Char × Nat) :=
  match s with
  | [] => .ok (none, [], 0)
  | c :: rest =>
    if isQuote c then
      (quotedLength t c ⟨.unclosedValue, c :: rest⟩ 0 rest).map
        fun n => (some c, rest.take n, n + 2)
    else (unquotedLength t 0 (c :: rest)).map fun n => (none, (c :: rest).take n, n)

/-- The number of characters between a name and its value, if an equals sign follows the name. -/
def assignLength? (s : List Char) : Option Nat :=
  match s.drop (Text.blankLength s) with
  | '=' :: rest => some (Text.blankLength s + 1 + Text.blankLength rest)
  | _ => none

def bareAttr (leading name : List Char) : Attr where
  leading := String.ofList leading
  name := String.ofList name
  nameLower := String.ofList (Text.lower name)
  assign := ""
  quote := none
  value := none
  valueRange := none
  isTemplate := false

/-- A template region in the place of an attribute. -/
def templateAttr (leading text : List Char) : Attr :=
  { bareAttr leading text with nameLower := String.ofList text, isTemplate := true }

/-- The attribute that begins with `c`, and how many of the characters after `c` belong to it. An
equals sign where a name should begin is a name of its own, without a value. -/
def attrAt (t : Template.Scanner) (leading : List Char) (c : Char) (rest : List Char) :
    Except Halt (Attr × Nat) :=
  if t.opens (c :: rest) then
    match t.scanAfter c rest with
    | none => .error ⟨.unclosedTemplate, c :: rest⟩
    | some n => .ok (templateAttr leading (c :: rest.take n), n)
  else
    let n := if c = '=' then 0 else attrNameLength t rest
    let attr := bareAttr leading (c :: rest.take n)
    match if c = '=' then none else assignLength? (rest.drop n) with
    | none => .ok (attr, n)
    | some a =>
      match valueAt t (rest.drop (n + a)) with
      | .error halt => .error halt
      | .ok (quote, value, m) =>
        let assign := String.ofList ((rest.drop n).take a)
        .ok ({ attr with assign, quote, value := some (String.ofList value) }, n + a + m)

/-- What follows the name of a start tag, and the number of characters that takes. -/
structure TagRest where
  attrs : List Attr
  tail : List Char
  selfClosing : Bool
  length : Nat

/-- The attributes and the closing bracket at the front of `s`. -/
def tagRest (t : Template.Scanner) (unclosed : Halt) (s : List Char) : Except Halt TagRest :=
  let leading := s.takeWhile Text.isBlank
  match h : s.dropWhile Text.isBlank with
  | [] => .error unclosed
  | '/' :: '>' :: _ => .ok ⟨[], leading, true, leading.length + 2⟩
  | '>' :: _ => .ok ⟨[], leading, false, leading.length + 1⟩
  | c :: rest =>
    match attrAt t leading c rest with
    | .error halt => .error halt
    | .ok (attr, n) =>
      match tagRest t unclosed (rest.drop n) with
      | .error halt => .error halt
      | .ok more =>
        .ok { more with
          attrs := attr :: more.attrs, length := leading.length + 1 + n + more.length }
termination_by s.length
decreasing_by
  have shorter := (List.dropWhile_sublist Text.isBlank (l := s)).length_le
  rw [h] at shorter
  simp only [List.length_cons, List.length_drop] at shorter ⊢
  omega

/-- The start tag whose first bracket is followed by `rest`, and how many characters of `rest`
belong to it. -/
def startTagAt (t : Template.Scanner) (rest : List Char) : Except Halt (TagText × Nat) :=
  let n := nameLength t rest
  let name := rest.take n
  match tagRest t ⟨.unclosedTag (String.ofList name), '<' :: rest⟩ (rest.drop n) with
  | .error halt => .error halt
  | .ok more =>
    let tag : Tag := {
      name := String.ofList name
      nameLower := String.ofList (Text.lower name)
      attrs := more.attrs
      tail := String.ofList more.tail
      selfClosing := more.selfClosing }
    .ok (⟨tag, '<' :: rest.take (n + more.length)⟩, n + more.length)

/-- The end tag whose first bracket is followed by `rest`, which begins with a slash, and how
many characters of `rest` belong to it. -/
def endTagAt (t : Template.Scanner) (rest : List Char) : Except Halt (TagText × Nat) :=
  let n := nameLength t (rest.drop 1)
  let name := (rest.drop 1).take n
  match Text.endOf? ['>'] (rest.drop (n + 1)) with
  | none => .error ⟨.unclosedEndTag, '<' :: rest⟩
  | some m =>
    let tag := Tag.ofName (String.ofList name) (String.ofList (Text.lower name))
    .ok (⟨tag, '<' :: rest.take (n + 1 + m)⟩, n + 1 + m)

end Mosaic.Markup
