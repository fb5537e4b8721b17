import Mosaic.Config
import Mosaic.Markup.Stringify
import Mosaic.Markup.Tokenize
import Mosaic.Script.Parse
import Mosaic.Style.Tokenize

/-! One reader and one writer for each grammar. What puts documents together never looks inside a
grammar: it reaches each one through its backend, so any of them can be exchanged. -/
namespace Mosaic

structure MarkupBackend where
  tokenize : Template → Origin → String → Except BackendError (List Token)
  stringify : Markup.Writers → List Token → Except BackendError String

structure StyleBackend where
  tokenize : Template → Origin → String → Except BackendError (List Token)
  stringify : List Token → Except BackendError String

structure ScriptBackend where
  parse : String → Except BackendError Script.Tree
  generate : Script.Tree → Except BackendError String

structure Backends where
  markup : MarkupBackend
  style : StyleBackend
  script : ScriptBackend

/-- Markup with adapters registered for some engines. -/
def MarkupBackend.builtin (adapters : Template.Adapters) : MarkupBackend where
  tokenize template := Markup.tokenize (adapters.scanner template)
  stringify := Markup.writeTokens

def StyleBackend.builtin (adapters : Template.Adapters) : StyleBackend where
  tokenize template := Style.tokenize (adapters.scanner template)
  stringify tokens := .ok (Style.stringify tokens)

def ScriptBackend.builtin : ScriptBackend where
  parse := Script.parse
  generate tree := .ok tree.source

/-- The backends of this library, with adapters registered for both grammars that know
templates. -/
def Backends.withAdapters (adapters : Template.Adapters) : Backends :=
  ⟨.builtin adapters, .builtin adapters, .builtin⟩

def Backends.builtin : Backends := .withAdapters .empty

end Mosaic
