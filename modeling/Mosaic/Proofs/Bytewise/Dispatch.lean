import Mosaic.Dispatch
import Mosaic.Proofs.Bytewise.Markup.Document
import Mosaic.Proofs.Bytewise.Script.Document
import Mosaic.Proofs.Bytewise.Style.Document

/-! Documents read by bytes, with all that is nested in them. -/
namespace Mosaic.Bytewise

open Mosaic.Embedding Outcome

abbrev NestedReader := Config → Origin → String → Checked (List Token)

def front {α : Type} (items : List α) (stop : Nat) : Checked (List α) :=
  if stop ≤ items.length then .ok (items.take stop) else .error (.trap .badIndex)

def trimByPosition (tokens : List Token) : Checked (List Token) := do
  if 3 ≤ tokens.length then
    let last ← minus tokens.length 1
    return Embedding.slice tokens 2 last
  else return []

/-- Take the wrapper off. -/
def trimWrapper (tokens : List Token) : Checked (List Token) := do
  match tokens.findIdx? (·.kind == .leftBrace), lastIndex? (·.kind == .rightBrace) tokens with
  | some first, some last =>
    if first < last then
      let head ← front tokens first
      if head.all isWrapperHead then return Embedding.slice tokens (first + 1) last
      else trimByPosition tokens
    else trimByPosition tokens
  | _, _ => trimByPosition tokens

section Readers

variable (adapters : Template.Adapters)

def declarations? (config : Config) (region : Region) : Checked (Option (List Token)) := do
  let wrapped := wrap region.text
  if crossesWrapper config.template.left.toList wrapped.toList then return none
  else
    let tokens ← Style.tokenize (adapters.scanner config.template) (region.origin.back 2) wrapped
    let kept ← trimWrapper tokens
    return if Mosaic.Style.stringify kept = region.text then some kept else none

/-- What a nested text holds. -/
def payload? (nested : NestedReader) (config : Config) (region : Region) :
    Checked (Option Payload) :=
  match region.kind with
  | .inlineStyle => (declarations? adapters config region).map (·.map .style)
  | .styleBlock =>
    (Style.tokenize (adapters.scanner config.template) region.origin region.text).map
      (some <| .style ·)
  | .templateScript =>
    match config.nested? with
    | none => .ok none
    | some inner => (nested inner region.origin region.text).map (some <| .markup ·)

def embedRegion (nested : NestedReader) (config : Config) (owner : Token) (region : Region) :
    Checked Token := do
  match ← payload? adapters nested config region with
  | some payload => return attach region.kind owner payload
  | none => return owner

def embedWith (nested : NestedReader) (config : Config) (tokens : List Token) :
    Checked (List Token) :=
  tokens.mapM fun token => (regions config token).foldlM (embedRegion adapters nested config) token

/-- Read markup with all that is nested in it. -/
def readMarkup (config : Config) (origin : Origin) (source : String) : Checked (List Token) := do
  let tokens ← Markup.tokenize (adapters.scanner config.template) origin source
  let nested : NestedReader := fun inner start text =>
    if text.length < source.length then readMarkup inner start text
    else .error (.failure ⟨.markup, .endlessNesting, none⟩)
  embedWith adapters nested config tokens
termination_by source.length

/-- Read a text that starts at `origin`. -/
def dispatch (config : Config) (grammar : Grammar) (origin : Origin) (source : String) :
    Checked Ast :=
  match grammar with
  | .script => (Script.parse source).map .script
  | .style => (Style.tokenize (adapters.scanner config.template) origin source).map .style
  | .markup => (readMarkup adapters config origin source).map .markup

end Readers

theorem trimByPosition_eq (tokens : List Token) :
    trimByPosition tokens = .ok (Embedding.trimByPosition tokens) := by
  rw [trimByPosition, Embedding.trimByPosition]
  by_cases enough : 3 ≤ tokens.length
  · have some : 1 ≤ tokens.length := Nat.le_trans (by decide) enough
    rw [if_pos enough, if_pos enough, minus, if_pos some]
    rfl
  · rw [if_neg enough, if_neg enough]
    rfl

theorem trimWrapper_eq (tokens : List Token) :
    trimWrapper tokens = .ok (Embedding.trimWrapper tokens) := by
  rw [trimWrapper, Embedding.trimWrapper]
  cases opened : tokens.findIdx? (·.kind == .leftBrace) with
  | none => exact trimByPosition_eq tokens
  | some first =>
    cases lastIndex? (·.kind == .rightBrace) tokens with
    | none => exact trimByPosition_eq tokens
    | some last =>
      dsimp only
      have within : first ≤ tokens.length := by
        obtain ⟨lt, -⟩ := List.findIdx?_eq_some_iff_getElem.mp opened
        exact Nat.le_of_lt lt
      by_cases before : first < last
      · rw [if_pos before, front, if_pos within, ok_bind]
        by_cases heads : (tokens.take first).all isWrapperHead = true
        · rw [if_pos heads, if_pos ⟨before, heads⟩]
          rfl
        · rw [if_neg heads, if_neg fun both => heads both.2]
          exact trimByPosition_eq tokens
      · rw [if_neg before, if_neg fun both => before both.1]
        exact trimByPosition_eq tokens

section Spec

variable {adapters : Template.Adapters}

theorem declarations?_eq (config : Config) (region : Region) :
    declarations? adapters config region =
      (Embedding.declarations? (.withAdapters adapters) config region).mapError .failure := by
  rw [declarations?, Embedding.declarations?]
  dsimp only
  by_cases crosses :
      crossesWrapper config.template.left.toList (wrap region.text).toList = true
  · rw [if_pos crosses, if_pos crosses]
    rfl
  · rw [if_neg crosses, if_neg crosses, Style.tokenize_eq, mapError_bind]
    congr 1
    funext tokens
    rw [trimWrapper_eq]
    rfl

/-- A reader by bytes that tells what a reader by characters tells. -/
def Agrees (nested : NestedReader) (read : Embedding.NestedReader) : Prop :=
  ∀ config origin source,
    nested config origin source = (read config origin source).mapError .failure

variable {nested : NestedReader} {read : Embedding.NestedReader}

theorem payload?_eq (same : Agrees nested read) (config : Config) (region : Region) :
    payload? adapters nested config region =
      (Embedding.payload? (.withAdapters adapters) read config region).mapError .failure := by
  rw [payload?, Embedding.payload?]
  cases region.kind with
  | inlineStyle =>
    dsimp only
    rw [declarations?_eq, mapError_map]
  | styleBlock =>
    dsimp only
    rw [Style.tokenize_eq, ← mapError_map]
    rfl
  | templateScript =>
    dsimp only
    cases config.nested? with
    | none => rfl
    | some inner =>
      dsimp only
      rw [same, mapError_map]

theorem embedWith_eq (same : Agrees nested read) (config : Config) (tokens : List Token) :
    embedWith adapters nested config tokens =
      (Embedding.embedWith (.withAdapters adapters) read config tokens).mapError .failure := by
  have one : embedRegion adapters nested config = fun owner region =>
      (Embedding.embedRegion (.withAdapters adapters) read config owner region).mapError
        .failure := by
    funext owner region
    rw [embedRegion, payload?_eq same, Embedding.embedRegion, mapError_bind]
    congr 1
    funext found
    cases found <;> rfl
  rw [embedWith, Embedding.embedWith, mapError_mapM]
  congr 1
  funext token
  rw [one, Embedding.embedToken, mapError_foldlM]

theorem agrees_readMarkup :
    Agrees (readMarkup adapters) (Mosaic.readMarkup (.withAdapters adapters)) := by
  intro config origin source
  induction hsize : source.length using Nat.strongRecOn generalizing config origin source with
  | ind size ih =>
    subst hsize
    rw [readMarkup, Mosaic.readMarkup, mapError_bind, Markup.tokenize_eq]
    congr 1
    funext tokens
    apply embedWith_eq
    intro inner start text
    dsimp only
    by_cases shorter : text.length < source.length
    · rw [if_pos shorter, if_pos shorter]
      exact ih text.length shorter inner start text rfl
    · rw [if_neg shorter, if_neg shorter]
      rfl

theorem dispatch_eq (config : Config) (grammar : Grammar) (origin : Origin) (source : String) :
    dispatch adapters config grammar origin source =
      (Mosaic.dispatch (.withAdapters adapters) config grammar origin source).mapError
        .failure := by
  cases grammar with
  | script =>
    rw [dispatch, Script.parse_eq, ← mapError_map]
    rfl
  | style =>
    rw [dispatch, Style.tokenize_eq, ← mapError_map]
    rfl
  | markup =>
    rw [dispatch, agrees_readMarkup, ← mapError_map]
    rfl

end Spec

/-- No document makes the reading by bytes stop at a trap: it cuts texts at characters, takes no
difference below zero and moves on in every loop, and it comes to what is read by characters. A
template region, in particular, is cut where its right delimiter ends. -/
theorem dispatch_keeps_bounds (adapters : Template.Adapters) (config : Config) (grammar : Grammar)
    (origin : Origin) (source : String) :
    dispatch adapters config grammar origin source =
        (Mosaic.dispatch (.withAdapters adapters) config grammar origin source).mapError
          .failure ∧
      (∀ trap, dispatch adapters config grammar origin source ≠ .error (.trap trap)) ∧
      ∀ (adapter : Template.Adapter) (left right text : String), left ≠ "" → right ≠ "" →
        left.toList.isPrefixOf text.toList = true →
        measure left.toList right.toList text.toList adapter = .ok (adapter.reach left right text) ∧
          ∀ size, adapter.reach left right text = some size →
            Text.bytes left.toList + Text.bytes right.toList ≤ size ∧
              size ≤ Text.bytes text.toList ∧
              ∃ inside, prefixAt text.toList size = .ok (left.toList ++ inside ++ right.toList) := by
  refine ⟨dispatch_eq config grammar origin source, ?_, ?_⟩
  · intro trap trapped
    rw [dispatch_eq] at trapped
    cases hread : Mosaic.dispatch (.withAdapters adapters) config grammar origin source with
    | ok ast =>
      rw [hread] at trapped
      cases trapped
    | error error =>
      rw [hread] at trapped
      cases trapped
  · intro adapter left right text leftSome rightSome begins
    have leftChars : left.toList ≠ [] := fun none => leftSome (String.toList_eq_nil_iff.mp none)
    have rightChars : right.toList ≠ [] := fun none => rightSome (String.toList_eq_nil_iff.mp none)
    have measured := measure_eq adapter leftChars rightChars begins
    refine ⟨measured, ?_⟩
    intro size reached
    apply measure_ends adapter leftChars rightChars begins
    rw [measured]
    exact congrArg Except.ok reached

theorem dispatch_keeps_bounds_quoted :
    ("\x7b%" : String) ≠ "" ∧ ("%\x7d" : String) ≠ "" ∧
      Template.Adapter.reach .delimited "\x7b%" "%\x7d" "\x7b%'%\x7dé'%\x7dü" = some 10 ∧
      (∀ trap, dispatch .empty .standard .markup .zero "<i>é" ≠ .error (.trap trap)) ∧
      ∃ inside, prefixAt "\x7b%'%\x7dé'%\x7dü".toList 10 =
        .ok ("\x7b%".toList ++ inside ++ "%\x7d".toList) := by
  have reached :
      Template.Adapter.reach .delimited "\x7b%" "%\x7d" "\x7b%'%\x7dé'%\x7dü" = some 10 := by
    decide
  obtain ⟨-, untrapped, bounds⟩ :=
    dispatch_keeps_bounds .empty .standard .markup .zero "<i>é"
  obtain ⟨-, ends⟩ :=
    bounds .delimited "\x7b%" "%\x7d" "\x7b%'%\x7dé'%\x7dü" (by decide) (by decide) (by decide)
  exact ⟨by decide, by decide, reached, untrapped, (ends 10 reached).2.2⟩

end Mosaic.Bytewise
