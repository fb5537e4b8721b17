import Mosaic.Config

/-! Settings as they are written down: values in tables. They are read in two ways. A strict
reading takes texts for texts only; a lenient one also takes a switch or a number where a text is
expected, and a list for the entries of a template table in order. -/
namespace Mosaic.Settings

/-- A value in settings. A fraction is kept as its text. -/
inductive Value where
  | null
  | bool (value : Bool)
  | integer (value : Int)
  | fraction (text : String)
  | text (value : String)
  | list (items : List Value)
  | table (entries : List (String × Value))

instance : Inhabited Value := ⟨.null⟩

def find? (key : String) (entries : List (String × Value)) : Option Value := entries.lookup key

namespace Value

def text? : Value → Option String
  | .text s => some s
  | _ => none

/-- A text written as a text, a switch or a number. -/
def scalar? : Value → Option String
  | .text s => some s
  | .bool true => some "true"
  | .bool false => some "false"
  | .integer n => some (toString n)
  | .fraction s => some s
  | _ => none

end Value

structure Manner where
  /-- How a text is read. -/
  asText : Value → Option String
  /-- Whether a list stands for the entries of a template table in order. -/
  takesList : Bool

/-- Texts are texts, tables are tables. -/
def strict : Manner := ⟨Value.text?, false⟩

/-- What is not a text is taken for one. -/
def lenient : Manner := ⟨Value.scalar?, true⟩

/-- The text of an entry, or what holds without the entry. -/
def textOr (asText : Value → Option String) (fallback : String) : Option Value → Option String
  | some value => asText value
  | none => some fallback

/-- Template settings from up to three entries. -/
def templateOf (asText : Value → Option String) (engine left right : Option Value) :
    Option Template := do
  let engine ← textOr asText Template.standard.engine engine
  let left ← textOr asText Template.standard.left left
  let right ← textOr asText Template.standard.right right
  return ⟨engine, left, right, none⟩

def templateOfTable (asText : Value → Option String) (entries : List (String × Value)) :
    Option Template :=
  templateOf asText (find? "engine" entries) (find? "ld" entries) (find? "rd" entries)

def template? (manner : Manner) : Value → Option Template
  | .table entries => templateOfTable manner.asText entries
  | .list items =>
    if manner.takesList then templateOf manner.asText items[0]? items[1]? items[2]? else none
  | _ => none

/-- The value of an entry that has two names, of which only one may be used. -/
def eitherName (first second : String) (entries : List (String × Value)) :
    Option (Option Value) :=
  match find? first entries, find? second entries with
  | some _, some _ => none
  | some value, none => some (some value)
  | none, other => some other

def types? (manner : Manner) : Option Value → Option (List String)
  | none => some []
  | some (.list items) => (items.mapM manner.asText).map ascending
  | some _ => none

/-- Script settings from a value; the templates in scripts are always read strictly. -/
def scripts? (manner : Manner) : Value → Option ScriptTemplates
  | .table entries => do
    let types ← types? manner (← eitherName "type" "types" entries)
    let template ← templateOfTable Value.text? entries
    return ⟨types, template⟩
  | _ => none

/-- The settings of one reading from a value. Entries with other names mean nothing. -/
def config? (manner : Manner) : Value → Option Config
  | .table entries => do
    let template ← match find? "tpl" entries with
      | some value => template? manner value
      | none => some .standard
    let scripts ← match ← eitherName "js_tpl" "jsTpl" entries with
      | none => some none
      | some .null => some none
      | some value => (scripts? manner value).map some
    return ⟨template, scripts⟩
  | _ => none

end Mosaic.Settings
