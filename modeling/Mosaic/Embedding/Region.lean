import Mosaic.Config
import Mosaic.Grammar
import Mosaic.Token.Basic

/-! The places in markup where another text is nested: the style attribute of a start tag, the
body of a style element, and the body of a script element that is declared to hold markup. -/
namespace Mosaic.Embedding

inductive RegionKind where
  | inlineStyle
  | styleBlock
  | templateScript
deriving DecidableEq

def RegionKind.name : RegionKind → String
  | .inlineStyle => "inline-style"
  | .styleBlock => "style-block"
  | .templateScript => "template-script"

def RegionKind.grammar : RegionKind → Grammar
  | .inlineStyle | .styleBlock => .style
  | .templateScript => .markup

/-- A nested text, where it starts, and the declared type of a script. -/
structure Region where
  kind : RegionKind
  text : String
  origin : Origin
  dialect : Option String
deriving DecidableEq

/-- The inline style of a start tag, if it has one that is not empty. -/
def inlineStyle? (start : Token) : Option Region :=
  match start.detail.bind (·.attr? "style") with
  | none => none
  | some attr =>
    match attr.value with
    | none => none
    | some value =>
      if value.isEmpty then none
      else
        let origin := match attr.valueRange with
          | some range => Origin.ofRange range
          | none => .zero
        some ⟨.inlineStyle, value, origin, none⟩

/-- The inline style of the start part of a block. -/
def startRegions (block : Token) : List Region :=
  ((block.ext.token? .start).bind inlineStyle?).toList

def contentRegion (kind : RegionKind) (dialect : Option String) (content : Token) : Region :=
  ⟨kind, content.value, .ofRange content.range, dialect⟩

/-- The declared type of a script block if scripts of this type hold markup. -/
def dialect? (config : Config) (block : Token) : Option String :=
  match (block.ext.token? .start).bind (·.ext.text? .type) with
  | some type => if config.isDialect type then some type else none
  | none => none

/-- The body of a script block if it holds markup. -/
def scriptRegions (config : Config) (block : Token) : List Region :=
  match dialect? config block, block.ext.token? .content with
  | some type, some content => [contentRegion .templateScript (some type) content]
  | _, _ => []

/-- The nested texts of a token, in the order in which they stand. -/
def regions (config : Config) (token : Token) : List Region :=
  match token.kind with
  | .tagStart => (inlineStyle? token).toList
  | .styleBlock =>
    startRegions token ++
      ((token.ext.token? .content).map (contentRegion .styleBlock none)).toList
  | .scriptBlock => startRegions token ++ scriptRegions config token
  | _ => []

/-- The nested texts of some tokens, each with the index of its token. -/
def locate (config : Config) (tokens : List Token) : List (Nat × Region) :=
  tokens.zipIdx.flatMap fun (token, index) => (regions config token).map (index, ·)

end Mosaic.Embedding
