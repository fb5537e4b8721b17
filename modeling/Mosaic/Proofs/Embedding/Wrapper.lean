import Mathlib
import Mosaic.Proofs.Embedding.Failure
import Mosaic.Proofs.Style.Wrapper

/-! The wrapper of an inline style. A value that is a style sheet by itself is one in the wrapper
too, unless a left delimiter touches the wrapper. The check that is made before a value is read
sees only delimiters that begin in front of it; one that reaches the brace behind the value is
missed, and then a document fails for a text that is not in it. -/
namespace Mosaic.Embedding

open Outcome

variable {t : Template.Scanner} {value : String}

/-- A delimiter touches the wrapper at one of finitely many places. -/
instance (t : Template.Scanner) (value : String) : Decidable (Clear t value) :=
  decidable_of_iff (∀ n < (wrap value).toList.length,
      t.opens ((wrap value).toList.drop n) = true →
        2 ≤ n ∧ n + t.left.length ≤ 2 + value.toList.length) (by
    constructor
    · intro h n opens
      apply h n _ opens
      apply Nat.lt_of_not_le
      intro behind
      rw [List.drop_of_length_le behind, Template.Scanner.not_opens_nil] at opens
      cases opens
    · intro h n _ opens
      exact h n opens)

theorem Clear.apart (h : Clear t value) : t.Apart value.toList ['\x7d'] := by
  intro active k begins
  have place : (wrap value).toList.drop (2 + k) = (value.toList ++ ['\x7d']).drop k := by
    rw [toList_wrap, ← List.drop_drop]
    rfl
  have opens : t.opens ((wrap value).toList.drop (2 + k)) = true := by
    rw [place, Template.Scanner.opens, active, begins]
    rfl
  have inside := h (2 + k) opens
  omega

theorem Clear.not_opens {n : Nat} (h : Clear t value) (front : n < 2) :
    ¬ t.opens ((wrap value).toList.drop n) = true := by
  intro opens
  have behind := (h n opens).1
  omega

/-- A value that can be read by itself can be read in the wrapper. -/
theorem Clear.read_wrap {found : List Style.Piece} (h : Clear t value)
    (read : Style.read t value.toList = .ok found) :
    ∃ pieces, Style.read t (wrap value).toList = .ok pieces := by
  unfold Style.read at read
  split at read
  · next lexed =>
    -- first the brace behind the value, which may be in its last lexeme; then the two in front,
    -- which are always lexemes of their own
    obtain ⟨more, behind⟩ := Style.lexemes_append_brace h.apart lexed
    have star := h.not_opens (n := 0) (by decide)
    have brace := h.not_opens (n := 1) (by decide)
    rw [toList_wrap] at star brace ⊢
    have whole := Style.lexemes_behind_brace (s := value.toList ++ ['\x7d']) star brace
    rw [behind] at whole
    exact ⟨_, Style.read_of_lexemes whole⟩
  · cases read

variable {adapters : Template.Adapters} {config : Config}

/-- An inline style that is read and written back as its value, or left as it is. -/
def Unwraps (adapters : Template.Adapters) (config : Config) (region : Region) : Prop :=
  ∃ kept, declarations? (.withAdapters adapters) config region = .ok kept ∧
    (crossesWrapper config.template.left.toList (wrap region.text).toList = true → kept = none) ∧
    ∀ tokens, kept = some tokens → Style.stringify tokens = region.text

theorem unwraps_of_clear {region : Region} {origin : Origin} {sheet : List Token}
    (bare : Style.tokenize (adapters.scanner config.template) origin region.text = .ok sheet)
    (apart : crossesWrapper config.template.left.toList (wrap region.text).toList = true ∨
      Clear (adapters.scanner config.template) region.text) :
    Unwraps adapters config region := by
  unfold Unwraps declarations?
  dsimp only
  by_cases crosses : crossesWrapper config.template.left.toList (wrap region.text).toList = true
  · rw [if_pos crosses]
    exact ⟨none, rfl, fun _ => rfl, fun _ same => nomatch same⟩
  · obtain ⟨found, read, -⟩ := Style.tokenize_eq_ok bare
    obtain ⟨pieces, wrapped⟩ := (apart.resolve_left crosses).read_wrap read
    have tokenized := Style.tokenize_of_read (region.origin.back 2) wrapped
    let tokens := trimWrapper (Style.place (wrapLocator region) 0 pieces)
    refine ⟨if Style.stringify tokens = region.text then some tokens else none, ?_, ?_, ?_⟩
    · rw [if_neg crosses]
      exact bind_eq_ok.mpr ⟨_, tokenized, rfl⟩
    · exact fun other => absurd other crosses
    · intro kept same
      split at same
      · next written =>
        cases same
        exact written
      · cases same

/-- Only the inline styles of some tokens are read. -/
def embedInline (b : Backends) (config : Config) (tokens : List Token) :
    Except BackendError (List Token) :=
  tokens.mapM fun token =>
    ((regions config token).filter (·.kind = .inlineStyle)).foldlM
      (embedRegion b (readMarkup b) config) token

theorem exists_of_embedInline_error {b : Backends} {tokens : List Token} {error : BackendError}
    (h : embedInline b config tokens = .error error) :
    ∃ index region, (index, region) ∈ locate config tokens ∧ region.kind = .inlineStyle ∧
      declarations? b config region = .error error := by
  obtain ⟨token, inside, fails⟩ := exists_of_mapM_error h
  obtain ⟨region, held, owner, fails⟩ := exists_of_foldlM_error fails
  obtain ⟨held, kind⟩ := List.mem_filter.mp held
  have inline : region.kind = .inlineStyle := of_decide_eq_true kind
  obtain ⟨index, found⟩ := List.mem_iff_getElem?.mp inside
  refine ⟨index, region, mem_locate.mpr ⟨token, found, held⟩, inline, ?_⟩
  rw [embedRegion_inlineStyle inline] at fails
  rcases bind_eq_error.mp fails with fails | ⟨kept, -, later⟩
  · exact fails
  · cases kept <;> cases later

/-- The inline styles of a document: if each value can be read by itself, and no left delimiter
touches the wrapper unless it begins there and ends in the value, then each value is read, or left
as it is. Where embedding fails, it fails for the body of an element. -/
theorem unwraps_of_bare {tokens : List Token}
    (bare : ∀ index region, (index, region) ∈ locate config tokens →
      region.kind = .inlineStyle → ∃ origin sheet,
        Style.tokenize (adapters.scanner config.template) origin region.text = .ok sheet)
    (apart : ∀ index region, (index, region) ∈ locate config tokens →
      region.kind = .inlineStyle →
        crossesWrapper config.template.left.toList (wrap region.text).toList = true ∨
          Clear (adapters.scanner config.template) region.text) :
    (∃ embedded, embedInline (.withAdapters adapters) config tokens = .ok embedded) ∧
      (∀ index region, (index, region) ∈ locate config tokens → region.kind = .inlineStyle →
        Unwraps adapters config region) ∧
      ∀ error, embed (.withAdapters adapters) config tokens = .error error →
        ∃ index region, (index, region) ∈ locate config tokens ∧ region.kind ≠ .inlineStyle ∧
          payload? (.withAdapters adapters) (readMarkup (.withAdapters adapters)) config region =
            .error error := by
  have each : ∀ index region, (index, region) ∈ locate config tokens →
      region.kind = .inlineStyle → Unwraps adapters config region := by
    intro index region located inline
    obtain ⟨origin, sheet, read⟩ := bare index region located inline
    exact unwraps_of_clear read (apart index region located inline)
  refine ⟨?_, each, ?_⟩
  · cases embedded : embedInline (.withAdapters adapters) config tokens with
    | ok tokens => exact ⟨tokens, rfl⟩
    | error error =>
      obtain ⟨index, region, located, inline, fails⟩ := exists_of_embedInline_error embedded
      obtain ⟨kept, reads, -⟩ := each index region located inline
      exact nomatch reads.symm.trans fails
  · intro error fails
    obtain ⟨index, region, located, fails⟩ := exists_of_embedWith_error fails
    refine ⟨index, region, located, ?_, fails⟩
    intro inline
    obtain ⟨kept, reads, -⟩ := each index region located inline
    simp only [payload?, inline, reads] at fails
    cases fails

/-- A value with a template region in it, and one that is the end of a left delimiter. -/
theorem unwraps_of_bare_standard : ∃ tokens,
    Markup.tokenize (Template.Adapters.empty.scanner .standard) .zero
        "<p style='a:\x7b%b%\x7d'><i style='%b'>" = .ok tokens ∧
      (∃ embedded, embedInline .builtin .standard tokens = .ok embedded) ∧
      (∀ index region, (index, region) ∈ locate .standard tokens →
        region.kind = .inlineStyle → Unwraps .empty .standard region) ∧
      ∀ error, embed .builtin .standard tokens = .error error →
        ∃ index region, (index, region) ∈ locate .standard tokens ∧
          region.kind ≠ .inlineStyle ∧
          payload? .builtin (readMarkup .builtin) .standard region = .error error := by
  have styles : (Markup.tokenize (Template.Adapters.empty.scanner .standard) .zero
      "<p style='a:\x7b%b%\x7d'><i style='%b'>").toOption.bind (some ∘ locate .standard) =
        some [(0, ⟨.inlineStyle, "a:\x7b%b%\x7d", ⟨10, 0, 10, 0⟩, none⟩),
          (1, ⟨.inlineStyle, "%b", ⟨29, 0, 29, 0⟩, none⟩)] := by
    cbv
  obtain ⟨tokens, markup, found⟩ := exists_of_toOption_bind styles
  have located : locate .standard tokens = _ := Option.some.inj found
  refine ⟨tokens, markup, @unwraps_of_bare .empty .standard tokens ?_ ?_⟩
  · intro index region found _
    rw [located] at found
    rcases List.mem_cons.mp found with same | found
    · cases same
      exact ⟨.zero, exists_of_toBool (by cbv)⟩
    · cases List.mem_singleton.mp found
      exact ⟨.zero, exists_of_toBool (by cbv)⟩
  · intro index region found _
    rw [located] at found
    rcases List.mem_cons.mp found with same | found
    · cases same
      exact .inr (by decide)
    · cases List.mem_singleton.mp found
      exact .inl (by cbv)

/-- Settings in which a template region begins with a right brace. -/
def braceFirst : Config := ⟨⟨"", "\x7d", "x", none⟩, none⟩

/-- The brace behind a value is taken for a left delimiter, and embedding fails for it. -/
theorem not_embedInline_of_brace : ∃ tokens,
    Markup.tokenize (Template.Adapters.empty.scanner braceFirst.template) .zero
        "<p style=a:b>" = .ok tokens ∧
      (∀ index region, (index, region) ∈ locate braceFirst tokens →
        region.kind = .inlineStyle → ∃ origin sheet,
          Style.tokenize (Template.Adapters.empty.scanner braceFirst.template) origin
            region.text = .ok sheet) ∧
      embedInline .builtin braceFirst tokens =
        .error ⟨.style, .unclosedTemplate, some ⟨0, 12⟩⟩ := by
  have styles : (Markup.tokenize (Template.Adapters.empty.scanner braceFirst.template) .zero
      "<p style=a:b>").toOption.bind (some ∘ locate braceFirst) =
        some [(0, ⟨.inlineStyle, "a:b", ⟨9, 0, 9, 0⟩, none⟩)] := by
    decide +kernel
  have fails : failure? (Markup.tokenize (Template.Adapters.empty.scanner braceFirst.template)
      .zero "<p style=a:b>" >>= embedInline .builtin braceFirst) =
        some ⟨.style, .unclosedTemplate, some ⟨0, 12⟩⟩ := by
    decide +kernel
  obtain ⟨tokens, markup, found⟩ := exists_of_toOption_bind styles
  have located : locate braceFirst tokens = _ := Option.some.inj found
  rw [markup, ok_bind] at fails
  refine ⟨tokens, markup, ?_, ?_⟩
  · intro index region found _
    rw [located] at found
    cases List.mem_singleton.mp found
    exact ⟨.zero, exists_of_toBool (by decide +kernel)⟩
  · exact eq_error_of_failure? fails

end Mosaic.Embedding
