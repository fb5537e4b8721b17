import Mathlib.Data.List.Forall2
import Mosaic.Proofs.Embedding.Effect
import Mosaic.Proofs.Embedding.Nesting

/-! Embedding in two passes. Nested texts are located first and read afterwards, and an index is all
that ties a text to its token; yet it comes to the same as going through the tokens one by one. -/
namespace Mosaic.Embedding

open Outcome

/-- Read a located text and hang it at the token that its index names. -/
def embedAt (b : Backends) (config : Config) (tokens : List Token) (located : Nat × Region) :
    Except BackendError (List Token) :=
  match tokens[located.1]? with
  | none => .ok tokens
  | some owner => do
    let changed ← embedRegion b (readMarkup b) config owner located.2
    return tokens.set located.1 changed

variable {b : Backends} {config : Config}

/-- Steps taken for each item apart succeed with what each of them makes. -/
theorem mapM_eq_ok {ε α β : Type} {step : α → Except ε β} {items : List α} {made : List β} :
    items.mapM step = .ok made ↔ List.Forall₂ (fun a b => step a = .ok b) items made := by
  induction items generalizing made with
  | nil =>
    rw [List.forall₂_nil_left_iff]
    constructor
    · intro h
      cases h
      rfl
    · rintro rfl
      rfl
  | cons a items ih =>
    rw [List.mapM_cons, bind_eq_ok, List.forall₂_cons_left_iff]
    constructor
    · rintro ⟨b, first, h⟩
      obtain ⟨more, later, same⟩ := bind_eq_ok.mp h
      cases same
      exact ⟨b, more, first, ih.mp later, rfl⟩
    · rintro ⟨b, more, first, later, rfl⟩
      exact ⟨b, first, bind_eq_ok.mpr ⟨more, ih.mpr later, rfl⟩⟩

theorem embed_eq_ok {tokens made : List Token} :
    embed b config tokens = .ok made ↔ List.Forall₂ (Effect b config) tokens made := by
  have same : (fun token after => embedToken b (readMarkup b) config token = .ok after) =
      Effect b config := by
    funext token after
    exact propext embedToken_iff
  rw [embed, embedWith, mapM_eq_ok, same]

theorem embed_append (xs ys : List Token) :
    embed b config (xs ++ ys) = (do
      let first ← embed b config xs
      let more ← embed b config ys
      return first ++ more) := by
  rw [embed, embedWith, List.mapM_append]
  rfl

theorem embedAt_of_getElem? {tokens : List Token} {index : Nat} {region : Region} {owner : Token}
    (own : tokens[index]? = some owner) :
    embedAt b config tokens (index, region) =
      (embedRegion b (readMarkup b) config owner region).map (tokens.set index ·) := by
  simp only [embedAt, own]
  cases embedRegion b (readMarkup b) config owner region <;> rfl

/-- At the index of a token, located texts are read as the texts of that token. -/
theorem foldlM_embedAt (before after : List Token) (found : List Region) (owner : Token) :
    (found.map (before.length, ·)).foldlM (embedAt b config) (before ++ owner :: after) =
      (found.foldlM (embedRegion b (readMarkup b) config) owner).map fun changed =>
        before ++ changed :: after := by
  induction found generalizing owner with
  | nil => rfl
  | cons region found ih =>
    have own : (before ++ owner :: after)[before.length]? = some owner := by
      rw [List.getElem?_append_right (Nat.le_refl _), Nat.sub_self]
      rfl
    have put : ∀ changed, (before ++ owner :: after).set before.length changed =
        before ++ changed :: after := by
      intro changed
      rw [List.set_append_right _ _ (Nat.le_refl _), Nat.sub_self]
      rfl
    rw [List.map_cons, List.foldlM_cons, List.foldlM_cons, embedAt_of_getElem? own]
    simp only [put]
    cases embedRegion b (readMarkup b) config owner region with
    | error e => rfl
    | ok changed => exact ih changed

/-- What is located in some tokens first and hung at the tokens with its indices afterwards comes
to what is read token by token. -/
theorem foldlM_locate (tokens : List Token) :
    (locate config tokens).foldlM (embedAt b config) tokens = embed b config tokens := by
  suffices behind : ∀ before, ((tokens.zipIdx before.length).flatMap fun placed =>
      (regions config placed.1).map (placed.2, ·)).foldlM (embedAt b config) (before ++ tokens) =
        (embed b config tokens).map (before ++ ·) by
    have whole := behind []
    rw [List.nil_append] at whole
    refine Eq.trans whole ?_
    cases embed b config tokens <;> rfl
  induction tokens with
  | nil =>
    intro before
    rfl
  | cons token rest ih =>
    intro before
    have alone : embed b config (token :: rest) = (do
        let changed ← embedToken b (readMarkup b) config token
        let more ← embed b config rest
        return changed :: more) := List.mapM_cons
    rw [List.zipIdx_cons, List.flatMap_cons, List.foldlM_append, foldlM_embedAt, alone]
    change (embedToken b (readMarkup b) config token).map _ >>= _ = _
    cases embedToken b (readMarkup b) config token with
    | error e => rfl
    | ok changed =>
      have later := ih (before ++ [changed])
      rw [List.length_append, List.length_singleton, List.append_assoc] at later
      refine Eq.trans later ?_
      rw [ok_bind]
      cases embed b config rest with
      | error e => rfl
      | ok more => exact congrArg Except.ok (List.append_assoc before [changed] more)

theorem embedRegion_eq_error {nested : NestedReader} {owner : Token} {region : Region}
    {error : BackendError} :
    embedRegion b nested config owner region = .error error ↔
      payload? b nested config region = .error error := by
  rw [embedRegion, bind_eq_error]
  constructor
  · rintro (fails | ⟨held, -, hung⟩)
    · exact fails
    · cases held <;> cases hung
  · exact .inl

theorem length_of_embedAt {tokens next : List Token} {located : Nat × Region}
    (h : embedAt b config tokens located = .ok next) : next.length = tokens.length := by
  unfold embedAt at h
  split at h
  · cases h
    rfl
  · obtain ⟨changed, -, made⟩ := bind_eq_ok.mp h
    cases made
    exact List.length_set

/-- Embedding fails for the first of the located texts that cannot be read. -/
theorem embed_eq_error {tokens : List Token} {error : BackendError} :
    embed b config tokens = .error error ↔
      ∃ before index region after, locate config tokens = before ++ (index, region) :: after ∧
        (∀ located ∈ before, ∃ held,
          payload? b (readMarkup b) config located.2 = .ok held) ∧
        payload? b (readMarkup b) config region = .error error := by
  have fails : ∀ located ∈ locate config tokens, ∀ now : List Token,
      now.length = tokens.length → ∀ error, embedAt b config now located = .error error ↔
        payload? b (readMarkup b) config located.2 = .error error := by
    rintro ⟨index, region⟩ mem now length error
    obtain ⟨token, found, -⟩ := mem_locate.mp mem
    obtain ⟨inside, -⟩ := List.getElem?_eq_some_iff.mp found
    have own := List.getElem?_eq_getElem (length ▸ inside)
    rw [embedAt_of_getElem? own, map_eq_error, embedRegion_eq_error]
  rw [← foldlM_locate, foldlM_eq_error fails
    (fun _ now next length made => (length_of_embedAt made).trans length) rfl]
  constructor
  · rintro ⟨before, ⟨index, region⟩, after, found⟩
    exact ⟨before, index, region, after, found⟩
  · rintro ⟨before, index, region, after, found⟩
    exact ⟨before, (index, region), after, found⟩

/-- Embedding is done in two passes, one that locates and one that reads, and comes to the same as
going through the tokens one by one: it is done alike for the parts of a list of tokens, it fails
for the first text in the list that cannot be read, and else each token becomes what its kind and
its parts say, with nothing else changed. -/
theorem embed_tokenwise (b : Backends) (config : Config) :
    (∀ tokens, (locate config tokens).foldlM (embedAt b config) tokens = embed b config tokens) ∧
      (∀ xs ys, embed b config (xs ++ ys) = (do
        let first ← embed b config xs
        let more ← embed b config ys
        return first ++ more)) ∧
      (∀ tokens error, embed b config tokens = .error error ↔
        ∃ before index region after, locate config tokens = before ++ (index, region) :: after ∧
          (∀ located ∈ before, ∃ held,
            payload? b (readMarkup b) config located.2 = .ok held) ∧
          payload? b (readMarkup b) config region = .error error) ∧
      (∀ tokens made, embed b config tokens = .ok made ↔
        List.Forall₂ (Effect b config) tokens made) ∧
      ∀ before after, Effect b config before after → Framed before after :=
  ⟨foldlM_locate, embed_append, fun _ _ => embed_eq_error, fun _ _ => embed_eq_ok,
    fun _ _ => Effect.framed⟩

/-- A style element with an inline style and with something in the slot for its tokens. -/
def filledBlock : Token :=
  blockToken .style "<style style=a:b>c\x7b\x7d" .zero
    ⟨.tagStart, "<style style=a:b>", .zero,
      some ⟨"style", "style", [⟨" ", "style", "style", "=", none, some "a:b", none, false⟩], "", false⟩,
      .empty⟩
    ((Token.plain .text "c\x7b\x7d" .zero).attach .tokens (.text "")) none

/-- A style element with a comment that does not end and without a start part. -/
def openBlock : Token :=
  ⟨.styleBlock, "", .zero, none,
    { Extensions.empty with content := some (.token (.plain .text "/*" .zero)) }⟩

theorem embed_tokenwise_filled :
    (∃ made, embed .builtin .standard [filledBlock] = .ok made ∧
      List.Forall₂ (Effect .builtin .standard) [filledBlock] made ∧
      List.Forall₂ Framed [filledBlock] made) ∧
    ∃ before index region after,
      locate .standard [filledBlock, openBlock] = before ++ (index, region) :: after ∧
        payload? .builtin (readMarkup .builtin) .standard region =
          .error ⟨.style, .unclosedComment, some ⟨0, 0⟩⟩ := by
  have read : (embed .builtin .standard [filledBlock]).toBool := by
    decide +kernel
  have stops : failure? (embed .builtin .standard [filledBlock, openBlock]) =
      some ⟨.style, .unclosedComment, some ⟨0, 0⟩⟩ := by
    decide +kernel
  obtain ⟨-, -, fails, reads, frame⟩ := embed_tokenwise .builtin .standard
  obtain ⟨made, read⟩ := exists_of_toBool read
  have effects := (reads _ _).mp read
  obtain ⟨before, index, region, after, found, -, stopped⟩ :=
    (fails _ _).mp (eq_error_of_failure? stops)
  exact ⟨⟨made, read, effects, effects.imp frame⟩, before, index, region, after, found, stopped⟩

end Mosaic.Embedding
