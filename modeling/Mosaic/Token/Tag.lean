import Mosaic.Location

/-! Start tags, in enough detail to write them back letter by letter. -/
namespace Mosaic

/-- An attribute of a start tag, or a template region that stands where an attribute could. -/
structure Attr where
  /-- The blanks before it. -/
  leading : String
  name : String
  /-- The name in lower case. -/
  nameLower : String
  /-- The text between the name and the value. -/
  assign : String
  quote : Option Char
  value : Option String
  /-- Where the value stands, its quotes left out. -/
  valueRange : Option Range
  isTemplate : Bool
deriving DecidableEq

/-- A start tag in parts; of an end tag only the name is kept. -/
structure Tag where
  name : String
  /-- The name in lower case. -/
  nameLower : String
  attrs : List Attr
  /-- The blanks before the closing bracket. -/
  tail : String
  selfClosing : Bool
deriving DecidableEq

namespace Attr

/-- The quote as text, empty where there is none. -/
def quoteText (attr : Attr) : String :=
  match attr.quote with
  | some quote => quote.toString
  | none => ""

/-- The attribute as text. A replacement takes the place of the value if there is a value. -/
def render (attr : Attr) (replacement : Option String) : String :=
  let value := match attr.value with
    | some value => attr.quoteText ++ replacement.getD value ++ attr.quoteText
    | none => ""
  attr.leading ++ attr.name ++ attr.assign ++ value

/-- Whether this is an attribute, no template region, with the given lowercase name. -/
def isNamed (attr : Attr) (name : String) : Bool := !attr.isTemplate && attr.nameLower == name

end Attr

namespace Tag

/-- A tag of which only the name is known. -/
def ofName (name lower : String) : Tag := ⟨name, lower, [], "", false⟩

def attr? (tag : Tag) (name : String) : Option Attr := tag.attrs.find? (·.isNamed name)

def attrValue? (tag : Tag) (name : String) : Option String := (tag.attr? name).bind (·.value)

/-- Attributes as text, the value of the first style attribute replaced. -/
def renderAttrs (style : Option String) : List Attr → String
  | [] => ""
  | attr :: rest =>
    if attr.isNamed "style" then attr.render style ++ renderAttrs none rest
    else attr.render none ++ renderAttrs style rest

/-- The tag as text, with `style` as the value of the first style attribute if it is given. -/
def render (tag : Tag) (style : Option String) : String :=
  "<" ++ tag.name ++ renderAttrs style tag.attrs ++ tag.tail ++
    (if tag.selfClosing then "/>" else ">")

end Tag

end Mosaic
