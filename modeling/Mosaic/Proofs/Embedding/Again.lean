import Mosaic.Proofs.Embedding.Passes

/-! Embedding a second time. What is written into tokens goes to slots from which nothing is
located: the details of tags, the declared types, and the texts and places of bodies all stay. So a
second pass finds the same nested texts, reads the same from them, and puts that where it hangs
already. -/
namespace Mosaic.Embedding

open Outcome

variable {b : Backends} {config : Config}

theorem attach_attach (token : Token) (slot : Slot) (payload : Payload) :
    (token.attach slot payload).attach slot payload = token.attach slot payload := by
  cases slot <;> rfl

theorem SameBut.inlineStyle? {free : List Slot} {before after : Token}
    (h : SameBut free before after) : inlineStyle? after = inlineStyle? before := by
  unfold Embedding.inlineStyle?
  rw [h.detail]

theorem SameBut.inlineStyle_iff {free : List Slot} {before after : Token}
    (h : SameBut free before after) (region : Region) :
    InlineStyle after region ↔ InlineStyle before region := by
  rw [← inlineStyle?_eq_some, ← inlineStyle?_eq_some, h.inlineStyle?]

theorem SameBut.type {free : List Slot} {before after : Token} (h : SameBut free before after)
    (fixed : .type ∉ free) : after.ext.text? .type = before.ext.text? .type := by
  unfold Extensions.text?
  rw [h.slots .type fixed]

theorem SameBut.contentRegion {free : List Slot} {before after : Token}
    (h : SameBut free before after) (kind : RegionKind) (dialect : Option String) :
    contentRegion kind dialect after = contentRegion kind dialect before := by
  rw [Embedding.contentRegion, h.value, h.range, Embedding.contentRegion]

/-- What is read from a part in a slot stays if no change of a part makes a difference to it. -/
theorem PartEffect.bind_token? {α : Type} {change : Token → Token → Prop} {read : Token → Option α}
    (same : ∀ part next, change part next → read next = read part) {before after : Extensions}
    {slot : Slot} (h : PartEffect change (before.get? slot) (after.get? slot)) :
    (after.token? slot).bind read = (before.token? slot).bind read := by
  unfold Extensions.token?
  generalize before.get? slot = held at h
  generalize after.get? slot = left at h
  cases h with
  | token changed => exact same _ _ changed
  | other => rfl

theorem Framed.dialect? {before after : Token} (h : Framed before after)
    (block : before.kind.isBlock = true) : dialect? config after = dialect? config before := by
  have typed : (after.ext.token? .start).bind (·.ext.text? .type) =
      (before.ext.token? .start).bind (·.ext.text? .type) :=
    PartEffect.bind_token? (fun _ _ changed => changed.type (by decide)) (h.start block)
  unfold Embedding.dialect?
  rw [typed]

/-- Where nothing changes but what embedding may write, the same texts are nested. -/
theorem Framed.regions {before after : Token} (h : Framed before after) :
    regions config after = regions config before := by
  by_cases block : before.kind.isBlock = true
  · have kind : after.kind.isBlock = true := by rwa [h.same.kind]
    have start : startRegions after = startRegions before := congrArg Option.toList
      (PartEffect.bind_token? (fun _ _ changed => changed.inlineStyle?) (h.start block))
    have content : ∀ kind dialect,
        (after.ext.token? .content).map (contentRegion kind dialect) =
          (before.ext.token? .content).map (contentRegion kind dialect) := by
      intro kind dialect
      rw [Option.map_eq_bind, Option.map_eq_bind]
      refine PartEffect.bind_token? ?_ (h.content block)
      exact fun _ _ changed => congrArg some (changed.contentRegion kind dialect)
    rw [regions_of_isBlock kind, regions_of_isBlock block, start, contentRegions, contentRegions,
      h.same.kind, content, scriptRegions_eq, scriptRegions_eq, h.dialect? block]
    simp only [content]
  · by_cases tag : before.kind = .tagStart
    · rw [Embedding.regions, Embedding.regions, h.same.kind, tag]
      exact congrArg Option.toList h.same.inlineStyle?
    · unfold Embedding.regions
      rw [h.same.kind]
      cases kind : before.kind with
      | tagStart => exact absurd kind tag
      | styleBlock | scriptBlock =>
        rw [kind] at block
        exact absurd rfl block
      | _ => rfl

theorem StartEffect.again {start after : Token} (h : StartEffect b config start after) :
    StartEffect b config after after := by
  have inline := h.sameBut.inlineStyle_iff
  cases h with
  | unstyled unstyled => exact .unstyled unstyled
  | text styled read => exact .text styled read
  | @styled region kept styled read =>
    have twice : StartEffect b config _ _ := .styled ((inline region).mpr styled) read
    rwa [attach_attach] at twice

theorem BodyEffect.again {block other content after : Token} (kind : other.kind = block.kind)
    (declares : ∀ scripts, Declares scripts other ↔ Declares scripts block)
    (h : BodyEffect b config block content after) : BodyEffect b config other after after := by
  cases h with
  | @style ast style read =>
    have twice : BodyEffect b config other (content.attach .tokens (.style ast.tokens)) _ :=
      .style (kind.trans style) read
    rwa [attach_attach] at twice
  | @markup scripts ast script settings known read =>
    have twice : BodyEffect b config other (content.attach .tokens (.markup ast.tokens)) _ :=
      .markup (kind.trans script) settings ((declares scripts).mpr known) read
    rwa [attach_attach] at twice
  | script script undeclared =>
    refine .script (kind.trans script) fun scripts settings known => ?_
    exact undeclared scripts settings ((declares scripts).mp known)

theorem PartEffect.again {change other : Token → Token → Prop}
    (twice : ∀ part after, change part after → other after after) {before after : Option Payload}
    (h : PartEffect change before after) : PartEffect other after after := by
  cases h with
  | token changed => exact .token (twice _ _ changed)
  | other free => exact .other free

/-- A start part declares what it declared before. -/
theorem declares_iff {before after : Token}
    (h : PartEffect (SameBut [.styleTokens]) before.ext.start after.ext.start)
    (scripts : ScriptTemplates) : Declares scripts after ↔ Declares scripts before := by
  unfold Declares
  generalize before.ext.start = held at h
  generalize after.ext.start = left at h
  cases h with
  | @token part next changed =>
    have type : next.ext.type = part.ext.type := changed.slots .type (by decide)
    simp only [Option.some.injEq, Payload.token.injEq, exists_and_left, exists_eq_left', type]
  | other => rfl

/-- What a token becomes stays as it is when its nested texts are read again. -/
theorem Effect.again {before after : Token} (h : Effect b config before after) :
    Effect b config after after := by
  have framed := h.framed
  cases h with
  | startTag kind effect => exact .startTag (effect.sameBut.kind.trans kind) effect.again
  | block kind first body =>
    refine Effect.block kind (first.again fun _ _ => .again) (body.again fun _ _ => ?_)
    exact BodyEffect.again rfl (declares_iff (framed.start kind))
  | plain other whole => exact .plain other whole

theorem locate_congr {tokens made : List Token}
    (same : List.Forall₂ (fun before after => regions config after = regions config before) tokens
      made) : locate config made = locate config tokens := by
  unfold locate
  generalize 0 = index
  induction same generalizing index with
  | nil => rfl
  | cons own _ ih => simp only [List.zipIdx_cons, List.flatMap_cons, own, ih]

/-- Embedding a second time finds the same nested texts at the same tokens, succeeds, and changes
nothing, whatever hung in the slots before the first time. -/
theorem embed_idempotent {tokens made : List Token} (h : embed b config tokens = .ok made) :
    locate config made = locate config tokens ∧ embed b config made = .ok made := by
  have effects := embed_eq_ok.mp h
  refine ⟨locate_congr (effects.imp fun _ _ effect => effect.framed.regions), embed_eq_ok.mpr ?_⟩
  clear h
  induction effects with
  | nil => exact .nil
  | cons effect _ ih => exact .cons effect.again ih

/-- A start tag with something in the slot for its style tokens, and with a style that the wrapper
would join to a left delimiter. -/
def staleStart : Token :=
  ⟨.tagStart, "<p style=%x>", .zero,
    some ⟨"p", "p", [⟨" ", "style", "style", "=", none, some "%x", none, false⟩], "", false⟩,
    { Extensions.empty with styleTokens := some (.text "") }⟩

theorem embed_idempotent_stale : ∃ made,
    embed .builtin .standard [filledBlock, staleStart] = .ok made ∧
      locate .standard made = locate .standard [filledBlock, staleStart] ∧
      (locate .standard made).length = 3 ∧ embed .builtin .standard made = .ok made := by
  have read : (embed .builtin .standard [filledBlock, staleStart]).toBool := by
    decide +kernel
  obtain ⟨made, read⟩ := exists_of_toBool read
  obtain ⟨located, again⟩ := embed_idempotent read
  refine ⟨made, read, located, ?_, again⟩
  rw [located]
  decide +kernel

end Mosaic.Embedding
