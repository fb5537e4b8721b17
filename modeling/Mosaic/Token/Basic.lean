import Mosaic.Script.Tree
import Mosaic.Token.Kind
import Mosaic.Token.Tag

/-! Tokens: pieces of markup or style with their kind, their exact text and their place. What
belongs to a token, such as the parts of a block or the tokens of a nested text, hangs in its
slots, so that a document with all that is nested in it is one tree. -/
namespace Mosaic

mutual

/-- A piece of markup or style. -/
structure Token where
  kind : TokenKind
  /-- The exact text of the piece. -/
  value : String
  range : Range
  /-- The parts of a tag. -/
  detail : Option Tag
  ext : Extensions

/-- What hangs in the slots of a token. -/
structure Extensions where
  start : Option Payload
  content : Option Payload
  finish : Option Payload
  type : Option Payload
  tokens : Option Payload
  styleTokens : Option Payload
  ast : Option Payload

inductive Payload where
  | token (token : Token)
  | markup (tokens : List Token)
  | style (tokens : List Token)
  | script (tree : Script.Tree)
  | text (text : String)

end

namespace Extensions

def empty : Extensions := ⟨none, none, none, none, none, none, none⟩

def get? (ext : Extensions) : Slot → Option Payload
  | .start => ext.start
  | .content => ext.content
  | .finish => ext.finish
  | .type => ext.type
  | .tokens => ext.tokens
  | .styleTokens => ext.styleTokens
  | .ast => ext.ast

/-- Hang a payload in a slot, in the place of what hung there. -/
def insert (ext : Extensions) (slot : Slot) (payload : Payload) : Extensions :=
  match slot with
  | .start => { ext with start := some payload }
  | .content => { ext with content := some payload }
  | .finish => { ext with finish := some payload }
  | .type => { ext with type := some payload }
  | .tokens => { ext with tokens := some payload }
  | .styleTokens => { ext with styleTokens := some payload }
  | .ast => { ext with ast := some payload }

theorem get?_insert (ext : Extensions) (slot other : Slot) (payload : Payload) :
    (ext.insert slot payload).get? other =
      if other = slot then some payload else ext.get? other := by
  cases slot <;> cases other <;> rfl

def entries (ext : Extensions) : List (Slot × Payload) :=
  Slot.all.filterMap fun slot => (ext.get? slot).map (slot, ·)

def size (ext : Extensions) : Nat := ext.entries.length

def isEmpty (ext : Extensions) : Bool := ext.entries.isEmpty

def contains (ext : Extensions) (slot : Slot) : Bool := (ext.get? slot).isSome

theorem mem_entries_iff {ext : Extensions} {slot : Slot} {payload : Payload} :
    (slot, payload) ∈ ext.entries ↔ ext.get? slot = some payload := by
  simp only [entries, List.mem_filterMap, Option.map_eq_some_iff, Prod.mk.injEq]
  constructor
  · rintro ⟨other, -, found, held, rfl, rfl⟩
    exact held
  · intro held
    exact ⟨slot, slot.mem_all, payload, held, rfl, rfl⟩

/-- A slot is filled if and only if it is listed. -/
theorem contains_iff {ext : Extensions} {slot : Slot} :
    ext.contains slot = true ↔ ∃ payload, (slot, payload) ∈ ext.entries := by
  simp only [contains, Option.isSome_iff_exists, mem_entries_iff]

def token? (ext : Extensions) (slot : Slot) : Option Token :=
  match ext.get? slot with
  | some (.token token) => some token
  | _ => none

def text? (ext : Extensions) (slot : Slot) : Option String :=
  match ext.get? slot with
  | some (.text text) => some text
  | _ => none

def modifyToken (ext : Extensions) (slot : Slot) (change : Token → Token) : Extensions :=
  match ext.token? slot with
  | some token => ext.insert slot (.token (change token))
  | none => ext

end Extensions

namespace Token

def plain (kind : TokenKind) (value : String) (range : Range) : Token :=
  ⟨kind, value, range, none, .empty⟩

def attach (token : Token) (slot : Slot) (payload : Payload) : Token :=
  { token with ext := token.ext.insert slot payload }

def concat (tokens : List Token) : String := String.join (tokens.map (·.value))

end Token

end Mosaic
