import Mosaic.Failure
import Mosaic.Token.Basic

/-! Markup written back from its tokens. A token is written as its text unless something was read
from a part of it: a start tag with style tokens is put together anew around their text, and a
block is written part by part, its body from what hangs in the body's slots. -/
namespace Mosaic.Markup

/-- How the other grammars write what hangs in markup. -/
structure Writers where
  style : List Token → Except BackendError String
  script : Script.Tree → Except BackendError String

def writeStart (w : Writers) (token : Token) : Except BackendError String :=
  match token.detail, token.ext.styleTokens with
  | some tag, some (.style tokens) => do
    let style ← w.style tokens
    return tag.render (some style)
  | _, _ => .ok token.value

def writeStartPart (w : Writers) : Option Payload → Except BackendError String
  | some (.token token) => writeStart w token
  | _ => .ok ""

def writeFinishPart : Option Payload → String
  | some (.token token) => token.value
  | _ => ""

def holdsToken : Option Payload → Bool
  | some (.token _) => true
  | _ => false

mutual

def writeToken (w : Writers) : Token → Except BackendError String
  | ⟨.tagStart, value, range, detail, ext⟩ => writeStart w ⟨.tagStart, value, range, detail, ext⟩
  | ⟨.styleBlock, value, _, _, ext⟩ => writeBlock w value ext
  | ⟨.scriptBlock, value, _, _, ext⟩ => writeBlock w value ext
  | ⟨_, value, _, _, _⟩ => .ok value

/-- A block as text: its parts, or its own text if it has neither start nor body. -/
def writeBlock (w : Writers) (value : String) : Extensions → Except BackendError String
  | ⟨start, content, finish, _, _, _, _⟩ =>
    if holdsToken start || holdsToken content then do
      let first ← writeStartPart w start
      let body ← writeBody w content
      return first ++ body ++ writeFinishPart finish
    else .ok value

def writeBody (w : Writers) : Option Payload → Except BackendError String
  | some (.token ⟨_, value, _, _, ⟨_, _, _, _, tokens, _, ast⟩⟩) =>
    match tokens, ast with
    | some (.style tokens), _ => w.style tokens
    | some (.markup tokens), _ => writeTokens w tokens
    | _, some (.script tree) => w.script tree
    | _, _ => .ok value
  | _ => .ok ""

def writeTokens (w : Writers) : List Token → Except BackendError String
  | [] => .ok ""
  | token :: rest => do
    let first ← writeToken w token
    let more ← writeTokens w rest
    return first ++ more

end

end Mosaic.Markup
