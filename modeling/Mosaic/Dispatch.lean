import Mosaic.Embedding.Embed

/-! Texts become trees, at the top of a document and in every nested text alike. Markup in a
script is read as the markup around it is, down to where nothing more is nested. -/
namespace Mosaic

inductive Ast where
  | markup (tokens : List Token)
  | style (tokens : List Token)
  | script (tree : Script.Tree)

namespace Ast

def grammar : Ast → Grammar
  | .markup _ => .markup
  | .style _ => .style
  | .script _ => .script

def tokens? : Ast → Option (List Token)
  | .markup tokens => some tokens
  | .style tokens => some tokens
  | .script _ => none

/-- The tokens of a tree; a script has none. -/
def tokens (ast : Ast) : List Token := ast.tokens?.getD []

def script? : Ast → Option Script.Tree
  | .script tree => some tree
  | _ => none

end Ast

/-- Read markup with all that is nested in it. A nested text is a part of the text around it;
one that is no shorter than that is refused. -/
def readMarkup (b : Backends) (config : Config) (origin : Origin) (source : String) :
    Except BackendError (List Token) := do
  let tokens ← b.markup.tokenize config.template origin source
  let nested : Embedding.NestedReader := fun inner start text =>
    if text.length < source.length then readMarkup b inner start text
    else .error ⟨.markup, .endlessNesting, none⟩
  Embedding.embedWith b nested config tokens
termination_by source.length

/-- Read the nested texts of some tokens. -/
def embed (b : Backends) (config : Config) (tokens : List Token) :
    Except BackendError (List Token) :=
  Embedding.embedWith b (readMarkup b) config tokens

def dispatch (b : Backends) (config : Config) (grammar : Grammar) (origin : Origin)
    (source : String) : Except BackendError Ast :=
  match grammar with
  | .script => (b.script.parse source).map .script
  | .style => (b.style.tokenize config.template origin source).map .style
  | .markup => (readMarkup b config origin source).map .markup

def Backends.writers (b : Backends) : Markup.Writers := ⟨b.style.stringify, b.script.generate⟩

/-- Write a tree that is expected to be of a grammar. -/
def stringify (b : Backends) (grammar : Grammar) (ast : Ast) : Except BackendError String :=
  match grammar, ast with
  | .script, .script tree => b.script.generate tree
  | .style, .style tokens => b.style.stringify tokens
  | .markup, .markup tokens => b.markup.stringify b.writers tokens
  | expected, ast => .error ⟨expected, .wrongTree expected ast.grammar, none⟩

end Mosaic
