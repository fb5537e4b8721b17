import Mosaic.Template.Scanner

/-! Settings of one reading: the templates of the document itself, and the types of scripts that
are documents of their own with templates of their own. -/
namespace Mosaic

/-- Put a text into an ascending list without repeating it. -/
def insertText (text : String) : List String → List String
  | [] => [text]
  | first :: rest =>
    if text < first then text :: first :: rest
    else if text = first then first :: rest
    else first :: insertText text rest

/-- The ascending list of some texts, each written once. -/
def ascending (texts : List String) : List String := texts.foldr insertText []

/-- The types of scripts that hold markup, ascending, and the templates in that markup. -/
structure ScriptTemplates where
  types : List String
  template : Template
deriving DecidableEq

/-- The settings of one reading. -/
structure Config where
  template : Template
  scripts : Option ScriptTemplates
deriving DecidableEq

namespace Config

def standard : Config := ⟨.standard, none⟩

instance : Inhabited Config := ⟨standard⟩

/-- Whether scripts of a type hold markup. -/
def isDialect (config : Config) (type : String) : Bool :=
  match config.scripts with
  | some scripts => type ∈ scripts.types
  | none => false

/-- The settings for markup in a script. The scripts in that markup are treated alike. -/
def nested? (config : Config) : Option Config :=
  config.scripts.map fun scripts => ⟨scripts.template, some scripts⟩

end Config

end Mosaic
