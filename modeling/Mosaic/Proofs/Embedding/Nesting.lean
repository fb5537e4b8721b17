import Mosaic.Proofs.Embedding.Parts
import Mosaic.Proofs.Text

/-! Markup nested in markup. What is nested is the body of a script element, which stands behind a
start tag; so every nested text is shorter than the text around it, and reading nested markup needs
no other limit. -/
namespace Mosaic

open Outcome

namespace Embedding

theorem mem_place {locator : Locator} {offset : Nat} {found : List Markup.Piece} {token : Token}
    (h : token ∈ Markup.place locator offset found) :
    ∃ front piece back, found = front ++ piece :: back ∧
      token = piece.token locator (offset + Text.bytes (front.flatMap Markup.Piece.text)) := by
  induction found generalizing offset with
  | nil => cases h
  | cons piece rest ih =>
    rw [Markup.place] at h
    rcases List.mem_cons.mp h with rfl | later
    · exact ⟨[], piece, rest, rfl, rfl⟩
    · obtain ⟨front, other, back, rfl, rfl⟩ := ih later
      refine ⟨piece :: front, other, back, rfl, ?_⟩
      simp only [List.flatMap_cons, Text.bytes_append, Nat.add_assoc]

theorem mem_locate {config : Config} {tokens : List Token} {index : Nat} {region : Region} :
    (index, region) ∈ locate config tokens ↔
      ∃ token, tokens[index]? = some token ∧ region ∈ regions config token := by
  constructor
  · intro mem
    obtain ⟨⟨token, place⟩, inside, found⟩ := List.mem_flatMap.mp mem
    obtain ⟨other, held, same⟩ := List.mem_map.mp found
    cases same
    exact ⟨token, List.mem_zipIdx_iff_getElem?.mp inside, held⟩
  · rintro ⟨token, inside, held⟩
    apply List.mem_flatMap.mpr
    refine ⟨(token, index), List.mem_zipIdx_iff_getElem?.mpr inside, ?_⟩
    exact List.mem_map.mpr ⟨region, held, rfl⟩

/-- The text in the body of an element is nested whole, and keeps its place. -/
theorem body_of_mem_regions {config : Config} {locator : Locator} {offset : Nat}
    {piece : Markup.Piece} {region : Region}
    (mem : region ∈ regions config (piece.token locator offset))
    (kind : region.kind ≠ .inlineStyle) :
    ∃ element start content finish, piece = .block element start content finish ∧
      region.text = String.ofList content ∧
      region.origin = .ofRange (locator.range (offset + Text.bytes start.text)
        (offset + Text.bytes start.text + Text.bytes content)) := by
  cases piece with
  | plain kind text => cases kind <;> cases mem
  | endTag tag => cases mem
  | startTag tag =>
    have inline := inlineStyle?_kind (Option.mem_toList.mp mem)
    exact absurd inline kind
  | block element start content finish =>
    rw [token_block] at mem
    simp only [regions_block] at mem
    rcases List.mem_append.mp mem with inline | body
    · exact absurd (inlineStyle?_kind (Option.mem_toList.mp inline)) kind
    · refine ⟨element, start, content, finish, rfl, ?_⟩
      cases element with
      | style =>
        rw [List.mem_singleton.mp body]
        exact ⟨rfl, rfl⟩
      | script =>
        simp only [bodyRegions] at body
        split at body
        · rw [List.mem_singleton.mp body]
          exact ⟨rfl, rfl⟩
        · cases body

/-- An inline style is nested in the start tag that a piece begins with. -/
theorem inline_of_mem_regions {config : Config} {locator : Locator} {offset : Nat}
    {piece : Markup.Piece} {region : Region} (spelled : piece.Spelled)
    (mem : region ∈ regions config (piece.token locator offset))
    (kind : region.kind = .inlineStyle) :
    ∃ tag type behind, tag.Opens ∧ piece.text = tag.text ++ behind ∧
      inlineStyle? (startToken locator offset tag type) = some region := by
  cases piece with
  | plain kind text => cases kind <;> cases mem
  | endTag tag => cases mem
  | startTag tag =>
    exact ⟨tag, none, [], spelled, (List.append_nil _).symm, Option.mem_toList.mp mem⟩
  | block element start content finish =>
    rw [token_block] at mem
    simp only [regions_block] at mem
    rcases List.mem_append.mp mem with inline | body
    · obtain ⟨type, placed⟩ := placeStart_eq locator offset element start
      rw [placed] at inline
      refine ⟨start, type, content ++ Markup.finishText finish, spelled.1, ?_, ?_⟩
      · rw [Markup.text_block, List.append_assoc]
      · exact Option.mem_toList.mp inline
    · cases element with
      | style =>
        rw [List.mem_singleton.mp body] at kind
        cases kind
      | script =>
        simp only [bodyRegions] at body
        split at body
        · rw [List.mem_singleton.mp body] at kind
          cases kind
        · cases body

/-- Reading the nested texts of some tokens only depends on what is read where markup is nested. -/
theorem embedWith_congr {b : Backends} {config : Config} {tokens : List Token}
    {nested other : NestedReader}
    (same : ∀ token ∈ tokens, ∀ region ∈ regions config token, region.kind = .templateScript →
      ∀ inner, config.nested? = some inner →
        nested inner region.origin region.text = other inner region.origin region.text) :
    embedWith b nested config tokens = embedWith b other config tokens := by
  apply mapM_congr
  intro token inside
  apply foldlM_congr
  intro region held owner
  rw [embedRegion, embedRegion]
  have payload : payload? b nested config region = payload? b other config region := by
    cases hkind : region.kind with
    | inlineStyle | styleBlock => simp only [payload?, hkind]
    | templateScript =>
      simp only [payload?, hkind]
      cases hinner : config.nested? with
      | none => rfl
      | some inner => simp only [same token inside region held hkind inner hinner]
  rw [payload]

end Embedding

/-- A text that is read as markup, with its settings and its origin. -/
structure Excerpt where
  config : Config
  origin : Origin
  source : String

/-- The texts nested in an excerpt. There are none if it cannot be cut into tokens. -/
def Excerpt.located (adapters : Template.Adapters) (excerpt : Excerpt) :
    List (Nat × Embedding.Region) :=
  match Markup.tokenize (adapters.scanner excerpt.config.template) excerpt.origin
    excerpt.source with
  | .ok tokens => Embedding.locate excerpt.config tokens
  | .error _ => []

/-- The second excerpt is a script in the first one that is declared to hold markup. -/
inductive Nests (adapters : Template.Adapters) : Excerpt → Excerpt → Prop
  | script {outer : Excerpt} {index : Nat} {region : Embedding.Region} {inner : Config} :
    (index, region) ∈ outer.located adapters → region.kind = .templateScript →
    outer.config.nested? = some inner → Nests adapters outer ⟨inner, region.origin, region.text⟩

theorem Excerpt.mem_located {adapters : Template.Adapters} {excerpt : Excerpt} {index : Nat}
    {region : Embedding.Region} :
    (index, region) ∈ excerpt.located adapters ↔ ∃ tokens,
      Markup.tokenize (adapters.scanner excerpt.config.template) excerpt.origin excerpt.source =
        .ok tokens ∧ (index, region) ∈ Embedding.locate excerpt.config tokens := by
  unfold Excerpt.located
  constructor
  · intro mem
    split at mem
    · next tokens tokenized => exact ⟨tokens, tokenized, mem⟩
    · cases mem
  · rintro ⟨tokens, tokenized, mem⟩
    rw [tokenized]
    exact mem

section Shorter

variable {adapters : Template.Adapters}

/-- A script in a text that is read as markup stands behind its start tag. -/
theorem Nests.inside {outer inner : Excerpt} (h : Nests adapters outer inner) :
    ∃ before after, before ≠ [] ∧
      outer.source.toList = before ++ inner.source.toList ++ after := by
  cases h with
  | script held kind settings =>
    obtain ⟨tokens, tokenized, located⟩ := Excerpt.mem_located.mp held
    obtain ⟨found, hfound, rfl⟩ := Markup.tokenize_eq_ok tokenized
    obtain ⟨token, inside, held⟩ := Embedding.mem_locate.mp located
    obtain ⟨front, piece, back, rfl, rfl⟩ :=
      Embedding.mem_place (List.mem_of_getElem? inside)
    obtain ⟨element, start, content, finish, rfl, text, -⟩ :=
      Embedding.body_of_mem_regions held (by rw [kind]; decide)
    have spelled := Markup.pieces_spelled hfound _
      (List.mem_append_right front List.mem_cons_self)
    refine ⟨front.flatMap Markup.Piece.text ++ start.text,
      Markup.finishText finish ++ back.flatMap Markup.Piece.text, ?_, ?_⟩
    · exact List.append_ne_nil_of_right_ne_nil _ spelled.1.nonempty
    · rw [← Markup.pieces_text hfound, text, String.toList_ofList, List.flatMap_append,
        List.flatMap_cons, Markup.text_block]
      simp only [List.append_assoc]

theorem Nests.fewer_bytes {outer inner : Excerpt} (h : Nests adapters outer inner) :
    Text.bytes inner.source.toList < Text.bytes outer.source.toList := by
  obtain ⟨before, after, some, whole⟩ := h.inside
  have pos := Text.bytes_pos some
  rw [whole, Text.bytes_append, Text.bytes_append]
  omega

theorem Nests.shorter {outer inner : Excerpt} (h : Nests adapters outer inner) :
    inner.source.length < outer.source.length := by
  obtain ⟨before, after, some, whole⟩ := h.inside
  have pos := List.length_pos_iff.mpr some
  rw [← String.length_toList, ← String.length_toList, whole, List.length_append,
    List.length_append]
  omega

/-- No excerpt has endless markup nested in it. -/
theorem wellFounded_nests (adapters : Template.Adapters) :
    WellFounded fun inner outer => Nests adapters outer inner := by
  apply Subrelation.wf (r := InvImage (· < ·) fun excerpt : Excerpt => excerpt.source.length)
  · intro inner outer nests
    exact nests.shorter
  · exact InvImage.wf _ Nat.lt_wfRel.wf

/-- Nested markup is read like the markup around it: no text is refused for its length. -/
theorem readMarkup_eq (adapters : Template.Adapters) (config : Config) (origin : Origin)
    (source : String) :
    readMarkup (.withAdapters adapters) config origin source =
      Markup.tokenize (adapters.scanner config.template) origin source >>=
        embed (.withAdapters adapters) config := by
  rw [readMarkup]
  change (Markup.tokenize (adapters.scanner config.template) origin source >>= fun _ => _) = _
  cases tokenized : Markup.tokenize (adapters.scanner config.template) origin source with
  | error e => rfl
  | ok tokens =>
    apply Embedding.embedWith_congr
    intro token inside region held kind inner settings
    obtain ⟨index, found⟩ := List.mem_iff_getElem?.mp inside
    have located := Embedding.mem_locate.mpr ⟨token, found, held⟩
    have nests : Nests adapters ⟨config, origin, source⟩ ⟨inner, region.origin, region.text⟩ :=
      .script (Excerpt.mem_located.mpr ⟨tokens, tokenized, located⟩) kind settings
    exact if_pos nests.shorter

end Shorter

end Mosaic
