import Mosaic.Proofs.Embedding.Tree
import Mosaic.Proofs.Markup.Agreement
import Mosaic.Proofs.Style.Agreement

/-! Template settings that a text makes no use of. They leave no trace in what is read: the tokens
are those of any other settings that the text makes no use of, or reading fails in the same way, and
there is no template region among the tokens. -/
namespace Mosaic

open Template.Scanner

/-- A token that is no template region, with none in the place of an attribute. -/
structure Token.Untemplated (token : Token) : Prop where
  kind : token.kind ≠ .template
  attrs : ∀ tag, token.detail = some tag → ∀ attr ∈ tag.attrs, attr.isTemplate = false

/-- No template region is in the trees of some tokens. -/
def TemplateFree (tokens : List Token) : Prop :=
  ∀ top ∈ tokens, ∀ token, Within top token → token.Untemplated

namespace Markup

variable {locator : Locator} {offset : Nat} {token : Token}

theorem untemplated_placeText {kind : TokenKind} {text : List Char} (plain : kind ≠ .template)
    (within : Within (placeText locator offset kind text) token) : token.Untemplated := by
  rw [within.eq_of_empty rfl]
  exact ⟨plain, fun _ none => nomatch none⟩

theorem TagText.Untemplated.placed {tag : TagText} (h : tag.Untemplated) :
    ∀ attr ∈ (placeTag locator offset tag.tag).attrs, attr.isTemplate = false := by
  intro attr mem
  obtain ⟨original, inside, valueRange, rfl⟩ := exists_of_mem_placeAttrs mem
  exact h original inside

theorem untemplated_placeTagText {kind : TokenKind} {tag : TagText} (plain : kind ≠ .template)
    (tags : tag.Untemplated) (within : Within (placeTagText locator offset kind tag) token) :
    token.Untemplated := by
  rw [within.eq_of_empty rfl]
  refine ⟨plain, fun placed same => ?_⟩
  cases same
  exact tags.placed

theorem untemplated_placeStart {element : Element} {tag : TagText} (tags : tag.Untemplated)
    (within : Within (placeStart locator offset element tag) token) : token.Untemplated := by
  obtain ⟨type, typed⟩ := Embedding.placeStart_eq locator offset element tag
  rw [typed] at within
  have alone : token = Embedding.startToken locator offset tag type := by
    refine within.eq_of_childless fun slot payload held => ?_
    cases slot <;> try cases held
    obtain ⟨text, -, rfl⟩ := Option.map_eq_some_iff.mp held
    rfl
  rw [alone]
  refine ⟨nofun, fun placed same => ?_⟩
  cases same
  exact tags.placed

/-- What a piece becomes has no template region in it if the piece has none. -/
theorem untemplated_token {piece : Piece} (h : piece.Untemplated)
    (within : Within (piece.token locator offset) token) : token.Untemplated := by
  cases piece with
  | plain kind text => exact untemplated_placeText h within
  | startTag tag => exact untemplated_placeTagText (by decide) h within
  | endTag tag => exact untemplated_placeTagText (by decide) h within
  | block element start content finish =>
    rw [Embedding.token_block] at within
    rcases Embedding.within_block within with rfl | first | body | ⟨last, ends, inside⟩
    · refine ⟨?_, fun _ none => nomatch none⟩
      cases element <;> exact nofun
    · exact untemplated_placeStart h.1 first
    · exact untemplated_placeText (by decide) body
    · obtain ⟨tag, same, rfl⟩ := Option.map_eq_some_iff.mp ends
      exact untemplated_placeTagText (by decide) (h.2 tag same) inside

theorem templateFree_of_tokenize {origin : Origin} {source : String} {tokens : List Token}
    (h : tokenize off origin source = .ok tokens) : TemplateFree tokens := by
  intro top mem token within
  obtain ⟨before, after, rfl⟩ := List.append_of_mem mem
  obtain ⟨piece, c, rest, n, back, offset, cut, rfl, -⟩ := cut_of_tokenize h
  exact untemplated_token cut.untemplated within

end Markup

theorem Style.templateFree_place {found : List Style.Piece} (h : Style.Untemplated found)
    (locator : Locator) (offset : Nat) : TemplateFree (Style.place locator offset found) := by
  induction found generalizing offset with
  | nil => exact fun _ mem => nomatch mem
  | cons piece rest ih =>
    obtain ⟨own, others⟩ := List.forall_mem_cons.mp h
    refine List.forall_mem_cons.mpr ⟨fun token within => ?_, ih others _⟩
    rw [within.eq_of_empty rfl]
    exact ⟨own, fun _ none => nomatch none⟩

theorem Style.templateFree_of_tokenize {origin : Origin} {source : String} {tokens : List Token}
    (h : Style.tokenize off origin source = .ok tokens) : TemplateFree tokens := by
  obtain ⟨found, read, rfl⟩ := Style.tokenize_eq_ok h
  exact Style.templateFree_place (Style.read_untemplated read) _ 0

/-- Any two settings that a text makes no use of, with any adapters registered, read it alike, be it
markup or style, and find no template region in it. -/
theorem tokenize_of_unused {settings other : Template} {source : String}
    (unused : settings.Unused source) (otherUnused : other.Unused source)
    (adapters otherAdapters : Template.Adapters) (origin : Origin) :
    (MarkupBackend.builtin adapters).tokenize settings origin source =
        (MarkupBackend.builtin otherAdapters).tokenize other origin source ∧
      (StyleBackend.builtin adapters).tokenize settings origin source =
        (StyleBackend.builtin otherAdapters).tokenize other origin source ∧
      (∀ tokens, (MarkupBackend.builtin adapters).tokenize settings origin source = .ok tokens →
        TemplateFree tokens) ∧
      ∀ tokens, (StyleBackend.builtin adapters).tokenize settings origin source = .ok tokens →
        TemplateFree tokens := by
  have silent := Template.silent_of_unused unused adapters
  have agree := silent.agree (Template.silent_of_unused otherUnused otherAdapters)
  refine ⟨Markup.tokenize_congr agree origin, Style.tokenize_congr agree origin,
    fun tokens read => ?_, fun tokens read => ?_⟩
  · exact Markup.templateFree_of_tokenize
      ((Markup.tokenize_congr silent.agree_off origin).symm.trans read)
  · exact Style.templateFree_of_tokenize
      ((Style.tokenize_congr silent.agree_off origin).symm.trans read)

/-- Settings whose left delimiter is not in the source, and settings without a right delimiter whose
left one is in a text, in a value, and in the place of an attribute. -/
theorem tokenize_of_unused_halfEmpty :
    (⟨"", "\x7b\x7b", "\x7d\x7d", none⟩ : Template).Unused "<p \x7b a='\x7b%'>b\x7b</p>" ∧
      (⟨"e", "\x7b", "", some .nested⟩ : Template).Unused "<p \x7b a='\x7b%'>b\x7b</p>" ∧
      ∃ tokens,
        (MarkupBackend.builtin .empty).tokenize ⟨"", "\x7b\x7b", "\x7d\x7d", none⟩ .zero
          "<p \x7b a='\x7b%'>b\x7b</p>" = .ok tokens ∧
        (MarkupBackend.builtin ⟨[("e", .delimited)]⟩).tokenize ⟨"e", "\x7b", "", some .nested⟩
          .zero "<p \x7b a='\x7b%'>b\x7b</p>" = .ok tokens ∧
        tokens.length = 3 ∧ TemplateFree tokens ∧
        (StyleBackend.builtin .empty).tokenize ⟨"", "\x7b\x7b", "\x7d\x7d", none⟩ .zero
            "<p \x7b a='\x7b%'>b\x7b</p>" =
          (StyleBackend.builtin ⟨[("e", .delimited)]⟩).tokenize ⟨"e", "\x7b", "", some .nested⟩
            .zero "<p \x7b a='\x7b%'>b\x7b</p>" := by
  have unused : (⟨"", "\x7b\x7b", "\x7d\x7d", none⟩ : Template).Unused
      "<p \x7b a='\x7b%'>b\x7b</p>" := .inl (by decide +kernel)
  have endless : (⟨"e", "\x7b", "", some .nested⟩ : Template).Unused
      "<p \x7b a='\x7b%'>b\x7b</p>" := .inr (.inr rfl)
  have seen : ((MarkupBackend.builtin .empty).tokenize ⟨"", "\x7b\x7b", "\x7d\x7d", none⟩ .zero
      "<p \x7b a='\x7b%'>b\x7b</p>").toOption.bind (fun tokens => some tokens.length) = some 3 := by
    decide +kernel
  obtain ⟨tokens, read, size⟩ := Outcome.exists_of_toOption_bind seen
  obtain ⟨markup, style, free, -⟩ :=
    tokenize_of_unused unused endless .empty ⟨[("e", .delimited)]⟩ .zero
  exact ⟨unused, endless, tokens, read, markup.symm.trans read, Option.some.inj size,
    free tokens read, style⟩

end Mosaic
