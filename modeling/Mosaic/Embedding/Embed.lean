import Mosaic.Embedding.Inline

/-! Nested texts are read where they stand, and what was read hangs in a slot of the token that
owns the text: style tokens at the start tag, the tokens of a body at the content part. -/
namespace Mosaic.Embedding

/-- How markup in a script is read. -/
abbrev NestedReader := Config → Origin → String → Except BackendError (List Token)

/-- What a nested text holds. Nothing is attached for an inline style that stays text. -/
def payload? (b : Backends) (nested : NestedReader) (config : Config) (region : Region) :
    Except BackendError (Option Payload) :=
  match region.kind with
  | .inlineStyle => (declarations? b config region).map (·.map .style)
  | .styleBlock =>
    (b.style.tokenize config.template region.origin region.text).map (some <| .style ·)
  | .templateScript =>
    match config.nested? with
    | none => .ok none
    | some inner => (nested inner region.origin region.text).map (some <| .markup ·)

/-- Hang what a nested text holds at the token that owns the text. -/
def attach (kind : RegionKind) (owner : Token) (payload : Payload) : Token :=
  match kind with
  | .inlineStyle =>
    if owner.kind = .tagStart then owner.attach .styleTokens payload
    else { owner with ext := owner.ext.modifyToken .start (·.attach .styleTokens payload) }
  | .styleBlock | .templateScript =>
    { owner with ext := owner.ext.modifyToken .content (·.attach .tokens payload) }

def embedRegion (b : Backends) (nested : NestedReader) (config : Config) (owner : Token)
    (region : Region) : Except BackendError Token := do
  match ← payload? b nested config region with
  | some payload => return attach region.kind owner payload
  | none => return owner

def embedToken (b : Backends) (nested : NestedReader) (config : Config) (token : Token) :
    Except BackendError Token :=
  (regions config token).foldlM (embedRegion b nested config) token

def embedWith (b : Backends) (nested : NestedReader) (config : Config) (tokens : List Token) :
    Except BackendError (List Token) :=
  tokens.mapM (embedToken b nested config)

end Mosaic.Embedding
