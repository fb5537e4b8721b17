import Mosaic.Document
import Mosaic.Proofs.Embedding.Inline
import Mosaic.Proofs.Embedding.Parts
import Mosaic.Proofs.Markup.Piece
import Mosaic.Proofs.Script.Tree

/-! Documents are written back letter by letter. The tokens of a document cover it, and what is
attached to them is written as the text it was read from. -/
namespace Mosaic

open Outcome

namespace Markup

open Mosaic.Embedding

variable {adapters : Template.Adapters} {config : Config}

theorem writeStart_readStart {locator : Locator} {offset : Nat} {tag : TagText}
    {type : Option String} {first : Token} (opens : tag.Opens)
    (h : readStart (.withAdapters adapters) config (startToken locator offset tag type) =
      .ok first) :
    writeStart (Backends.withAdapters adapters).writers first = .ok (String.ofList tag.text) := by
  rcases readStart_eq_ok h with rfl | ⟨region, kept, hregion, hkept, rfl⟩
  · rfl
  · obtain ⟨-, -, -, same⟩ := declarations?_eq_ok hkept
    obtain ⟨placed, attr, hdetail, named, valued, -, -⟩ := inlineStyle?_attr hregion
    cases hdetail
    obtain ⟨front, back, written, -⟩ := render_around named valued
    calc writeStart (Backends.withAdapters adapters).writers
          ((startToken locator offset tag type).attach .styleTokens (.style kept))
        = .ok ((placeTag locator offset tag.tag).render (some (Style.stringify kept))) := rfl
      _ = .ok (tag.tag.render none) := by
        rw [render_placeTag, same, written, written]
        rfl
      _ = .ok (String.ofList tag.text) := congrArg Except.ok opens

theorem writeBody_readBody {nested : NestedReader} {element : Element} {start content body : Token}
    (plain : content.ext = .empty)
    (inner : ∀ config origin text tokens, nested config origin text = .ok tokens →
      writeTokens (Backends.withAdapters adapters).writers tokens = .ok text)
    (h : readBody (.withAdapters adapters) nested config element start content = .ok body) :
    writeBody (Backends.withAdapters adapters).writers (some (.token body)) =
      .ok content.value := by
  rcases content with ⟨kind, value, range, detail, ext⟩
  obtain rfl : ext = .empty := plain
  rcases readBody_eq_ok h with rfl | ⟨tokens, htokens, rfl⟩ | ⟨settings, tokens, htokens, rfl⟩
  · rfl
  · exact congrArg Except.ok (Style.stringify_of_tokenize htokens)
  · exact inner _ _ _ _ htokens

theorem writeToken_block (w : Writers) (element : Element) (value : String) (range : Range)
    (start content : Token) (finish : Option Token) :
    writeToken w (blockToken element value range start content finish) = (do
      let first ← writeStart w start
      let body ← writeBody w (some (.token content))
      return first ++ body ++ writeFinishPart (finish.map .token)) := by
  cases element <;> rfl

theorem writeToken_tagStart (w : Writers) {start : Token} (h : start.kind = .tagStart) :
    writeToken w start = writeStart w start := by
  rcases start with ⟨kind, value, range, detail, ext⟩
  obtain rfl : kind = .tagStart := h
  rfl

theorem writeToken_plain (w : Writers) (kind : TokenKind) (value : String) (range : Range) :
    writeToken w (.plain kind value range) = .ok value := by
  cases kind <;> rfl

theorem writeFinishPart_place (locator : Locator) (offset : Nat) (finish : Option TagText) :
    writeFinishPart ((finish.map (placeTagText locator offset .tagEnd)).map .token) =
      String.ofList (finishText finish) := by
  cases finish <;> rfl

theorem writeToken_embedToken {nested : NestedReader} {locator : Locator} {offset : Nat}
    {piece : Piece} {token : Token} (spelled : piece.Spelled)
    (inner : ∀ config origin text tokens, nested config origin text = .ok tokens →
      writeTokens (Backends.withAdapters adapters).writers tokens = .ok text)
    (h : embedToken (.withAdapters adapters) nested config (piece.token locator offset) =
      .ok token) :
    writeToken (Backends.withAdapters adapters).writers token =
      .ok (String.ofList piece.text) := by
  cases embedded_of_embedToken h with
  | plain kind text => exact writeToken_plain _ kind _ _
  | endTag tag => rfl
  | startTag inline =>
    rw [writeToken_tagStart _ (readStart_kind inline)]
    exact writeStart_readStart spelled inline
  | block _ hfirst hbody =>
    have start' := writeStart_readStart spelled.1 hfirst
    have body' := writeBody_readBody rfl inner hbody
    rw [writeToken_block, start', body', ok_bind, ok_bind, writeFinishPart_place, text_block,
      placeText_value, String.ofList_append, String.ofList_append]
    rfl

theorem writeTokens_embedWith {nested : NestedReader} {locator : Locator} {offset : Nat}
    {found : List Piece} {tokens : List Token} (spelled : ∀ piece ∈ found, piece.Spelled)
    (inner : ∀ config origin text tokens, nested config origin text = .ok tokens →
      writeTokens (Backends.withAdapters adapters).writers tokens = .ok text)
    (h : embedWith (.withAdapters adapters) nested config (place locator offset found) =
      .ok tokens) :
    writeTokens (Backends.withAdapters adapters).writers tokens =
      .ok (String.ofList (found.flatMap Piece.text)) := by
  induction found generalizing offset tokens with
  | nil =>
    cases h
    rfl
  | cons piece rest ih =>
    simp only [place, embedWith, List.mapM_cons] at h
    obtain ⟨token, htoken, h⟩ := bind_eq_ok.mp h
    obtain ⟨more, hmore, h⟩ := bind_eq_ok.mp h
    cases h
    have first := writeToken_embedToken (spelled piece List.mem_cons_self) inner htoken
    have others := ih (fun x mem => spelled x (List.mem_cons_of_mem piece mem)) hmore
    simp only [writeTokens, first, others, ok_bind, List.flatMap_cons, String.ofList_append]
    rfl

/-- Markup is written back as it was read, with all that is nested in it. -/
theorem writeTokens_readMarkup {origin : Origin} {source : String} {tokens : List Token}
    (h : readMarkup (.withAdapters adapters) config origin source = .ok tokens) :
    writeTokens (Backends.withAdapters adapters).writers tokens = .ok source := by
  refine readMarkup_induct (motive := fun _ _ source tokens =>
    writeTokens (Backends.withAdapters adapters).writers tokens = .ok source)
    (fun config origin source found tokens nested hfound inner h => ?_) h
  have nestedMarkup := fun config origin text tokens h => (inner config origin text tokens h).2
  rw [writeTokens_embedWith (pieces_spelled hfound) nestedMarkup h, pieces_text hfound,
    String.ofList_toList]

end Markup

/-- A text of any grammar is written back as it was read. -/
theorem stringify_of_dispatch {adapters : Template.Adapters} {config : Config} {grammar : Grammar}
    {origin : Origin} {source : String} {ast : Ast}
    (h : dispatch (.withAdapters adapters) config grammar origin source = .ok ast) :
    stringify (.withAdapters adapters) grammar ast = .ok source := by
  cases grammar with
  | script =>
    obtain ⟨tree, htree, rfl⟩ := map_eq_ok.mp h
    exact congrArg Except.ok (Script.source_of_parse htree)
  | style =>
    obtain ⟨tokens, htokens, rfl⟩ := map_eq_ok.mp h
    have read : Style.tokenize _ _ source = .ok tokens := htokens
    exact congrArg Except.ok (Style.stringify_of_tokenize read)
  | markup =>
    obtain ⟨tokens, htokens, rfl⟩ := map_eq_ok.mp h
    exact Markup.writeTokens_readMarkup htokens

namespace FileDescriptor

/-- What is read from a file is written back to it letter by letter. -/
theorem stringify_of_parse {config : Config} {file : FileDescriptor} {content : String} {ast : Ast}
    (h : file.parse .builtin config content = .ok ast) :
    file.stringify .builtin ast = .ok content := by
  obtain ⟨grammar, hgrammar, hast⟩ := bind_eq_ok.mp h
  have known : file.grammarFor .stringify = .ok grammar := by
    unfold grammarFor at hgrammar ⊢
    split at hgrammar
    · cases hgrammar
      rfl
    · cases hgrammar
  have written : Mosaic.stringify .builtin grammar ast = .ok content :=
    stringify_of_dispatch (mapError_eq_ok.mp hast)
  rw [stringify, known, ok_bind, written]
  rfl

def page : FileDescriptor := ⟨"a.tpl", "tpl", (· = templateProperty)⟩

/-- Scripts of type `tpl` hold markup with nested templates. -/
def nestingConfig : Config :=
  ⟨.standard, some ⟨["tpl"], ⟨"ejs", "<%", "%>", some .nested⟩⟩⟩

/-- A page with an inline style, a style sheet, and markup in a script in markup in a script. -/
def nestingPage : String :=
  "<p style='top:0'>\x7b%a%\x7d<style>b\x7b\x7d</style><script type=tpl>" ++
    "<b style=x:y><script type=tpl><%c<%d%>%></script>"

theorem stringify_of_parse_page : ∃ ast,
    page.parse .builtin nestingConfig nestingPage = .ok ast ∧
      page.stringify .builtin ast = .ok nestingPage := by
  have read : (page.parse .builtin nestingConfig nestingPage).toBool := by decide +kernel
  obtain ⟨ast, hast⟩ := exists_of_toBool read
  exact ⟨ast, hast, stringify_of_parse hast⟩

end FileDescriptor

end Mosaic
