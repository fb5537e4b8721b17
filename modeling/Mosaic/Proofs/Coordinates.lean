import Mosaic.Proofs.Embedding.Inline
import Mosaic.Proofs.Embedding.Parts
import Mosaic.Proofs.Location
import Mosaic.Proofs.Markup.Piece
import Mosaic.Proofs.Text

/-! Coordinates of the whole document, at every depth. A nested text is located through the place
where it stands, so whatever is read from it stands at its true place in the document, and the
tokens of every text cover that text. -/
namespace Mosaic

open Outcome

/-- Tokens that follow one another from byte `start` to byte `stop`. -/
def Consecutive : (start stop : Nat) → List Token → Prop
  | start, stop, [] => start = stop
  | start, stop, token :: rest =>
    token.range.span.start = start ∧ Consecutive token.range.span.stop stop rest

/-- Tokens that follow one another from byte `start` to byte `stop`, none of them empty. -/
def Tiles (start stop : Nat) (tokens : List Token) : Prop :=
  Consecutive start stop tokens ∧
    ∀ token ∈ tokens, token.range.span.start < token.range.span.stop

/-- A token says the truth about a document: of itself, of the values of its attributes, of its
parts, and of what was read from its text and from its inline style. -/
structure Faithful (document : List Char) (token : Token) : Prop where
  covers : Covers document token.range token.value.toList
  attributes : ∀ tag, token.detail = some tag → ∀ attr ∈ tag.attrs, ∀ value,
    attr.value = some value → ∃ range, attr.valueRange = some range ∧
      Covers document range value.toList
  parts : token.kind.isBlock = true →
    ∃ start content finish, token.ext.start = some (.token start) ∧
      token.ext.content = some (.token content) ∧ token.ext.finish = Option.map .token finish ∧
      Consecutive token.range.span.start token.range.span.stop
        (start :: content :: finish.toList) ∧
      ∀ part ∈ start :: finish.toList, part.range.span.start < part.range.span.stop
  body : ∀ payload, token.ext.tokens = some payload →
    Tiles token.range.span.start token.range.span.stop payload.tokens
  inlineStyle : ∀ payload, token.ext.styleTokens = some payload → ∃ tag attr range,
    token.detail = some tag ∧ tag.attr? "style" = some attr ∧ attr.valueRange = some range ∧
      Tiles range.span.start range.span.stop payload.tokens

/-- Every token in a tree says the truth about a document. -/
def FaithfulTree (document : List Char) (top : Token) : Prop :=
  ∀ token, Within top token → Faithful document token

theorem FaithfulTree.intro {document : List Char} {top : Token} (self : Faithful document top)
    (below : ∀ slot payload, top.ext.get? slot = some payload → ∀ child ∈ payload.tokens,
      FaithfulTree document child) : FaithfulTree document top := by
  intro token within
  cases within with
  | self => exact self
  | child filled mem deeper => exact below _ _ filled _ mem token deeper

/-- Tokens tile the part of a document that stands behind `front`, and their trees say the truth
about the document. -/
def FaithfulPart (document front text : List Char) (tokens : List Token) : Prop :=
  Tiles (Text.bytes front) (Text.bytes (front ++ text)) tokens ∧
    ∀ token ∈ tokens, FaithfulTree document token

theorem Range.behind_lt (front : List Char) {text : List Char} (h : text ≠ []) :
    (Range.behind front text).span.start < (Range.behind front text).span.stop := by
  have pos := Text.bytes_pos h
  simp only [Range.behind, Text.bytes_append]
  omega

namespace FaithfulPart

variable {document front : List Char}

theorem nil : FaithfulPart document front [] [] :=
  ⟨⟨congrArg Text.bytes (List.append_nil front).symm, fun _ mem => nomatch mem⟩,
    fun _ mem => nomatch mem⟩

theorem cons {text more : List Char} {token : Token} {rest : List Token} (nonempty : text ≠ [])
    (range : token.range = .behind front text) (tree : FaithfulTree document token)
    (others : FaithfulPart document (front ++ text) more rest) :
    FaithfulPart document front (text ++ more) (token :: rest) := by
  obtain ⟨⟨follows, nonempties⟩, trees⟩ := others
  refine ⟨⟨⟨?_, ?_⟩, List.forall_mem_cons.mpr ⟨?_, nonempties⟩⟩,
    List.forall_mem_cons.mpr ⟨tree, trees⟩⟩
  · rw [range]
    rfl
  · rw [range, ← List.append_assoc]
    exact follows
  · rw [range]
    exact Range.behind_lt front nonempty

end FaithfulPart

theorem faithfulTree_plain {document : List Char} {kind : TokenKind} {value : String}
    {range : Range} (covers : Covers document range value.toList) (whole : kind.isBlock = false) :
    FaithfulTree document (.plain kind value range) := by
  refine .intro ⟨covers, fun _ h => (nomatch h), fun block => ?_, fun _ h => (nomatch h),
    fun _ h => (nomatch h)⟩ fun slot payload filled => ?_
  · rw [show kind.isBlock = true from block] at whole
    cases whole
  · cases slot <;> cases filled

theorem faithfulPart_style {locator : Locator} {lead : Nat} {document front : List Char}
    {found : List Style.Piece} (spelled : ∀ piece ∈ found, piece.Spelled)
    (located : locator.Locates lead document front (found.flatMap Style.Piece.text)) :
    FaithfulPart document front (found.flatMap Style.Piece.text)
      (Style.place locator lead found) := by
  induction found generalizing lead front with
  | nil => exact .nil
  | cons piece rest ih =>
    obtain ⟨self, others⟩ := List.forall_mem_cons.mp spelled
    rw [List.flatMap_cons] at located ⊢
    have first := located.head
    refine .cons self.nonempty first.range (faithfulTree_plain ?_ self.whole)
      (ih others located.tail)
    rw [String.toList_ofList]
    exact first.covers

theorem faithfulPart_tokenize {t : Template.Scanner} {document front after : List Char}
    {source : String} {tokens : List Token} (part : document = front ++ source.toList ++ after)
    (h : Style.tokenize t (.behind front) source = .ok tokens) :
    FaithfulPart document front source.toList tokens := by
  obtain ⟨found, hfound, rfl⟩ := Style.tokenize_eq_ok h
  have whole := Style.read_text hfound
  have located : (Locator.ofText source.toList (.behind front)).Locates 0 document front
      (found.flatMap Style.Piece.text) := by
    rw [whole]
    exact locates_text part
  have read := faithfulPart_style (Style.read_spelled hfound) located
  rwa [whole] at read

namespace Embedding

variable {adapters : Template.Adapters} {config : Config} {document front : List Char}

theorem valueRange_of_mem {locator : Locator} {offset : Nat} {tag : Markup.TagText} {attr : Attr}
    {value : String} (located : locator.Locates offset document front tag.text)
    (opens : tag.Opens) (mem : attr ∈ (Markup.placeTag locator offset tag.tag).attrs)
    (valued : attr.value = some value) :
    ∃ before after, tag.text = before ++ value.toList ++ after ∧
      attr.valueRange = some (.behind (front ++ before) value.toList) := by
  obtain ⟨before, after, written, placed⟩ := Markup.render_of_mem mem valued
  have split : tag.text = before.toList ++ value.toList ++ after.toList := by
    rw [← String.toList_ofList (l := tag.text), ← opens, written, String.toList_append,
      String.toList_append]
  exact ⟨before.toList, after.toList, split, by rw [placed, (located.narrow split).range]⟩

theorem valueRange_covers {locator : Locator} {offset : Nat} {tag : Markup.TagText} {attr : Attr}
    {value : String} (located : locator.Locates offset document front tag.text)
    (opens : tag.Opens) (mem : attr ∈ (Markup.placeTag locator offset tag.tag).attrs)
    (valued : attr.value = some value) :
    ∃ range, attr.valueRange = some range ∧ Covers document range value.toList := by
  obtain ⟨before, after, split, placed⟩ := valueRange_of_mem located opens mem valued
  obtain ⟨behind, hbehind⟩ := located.part
  refine ⟨_, placed, front ++ before, after ++ behind, ?_, rfl⟩
  rw [hbehind, split]
  simp only [List.append_assoc]

theorem faithfulPart_kept {region : Region} {kept : List Token} {after : List Char}
    (nonempty : region.text ≠ "") (origin : region.origin = .behind front)
    (part : document = front ++ region.text.toList ++ after)
    (h : declarations? (.withAdapters adapters) config region = .ok (some kept)) :
    FaithfulPart document front region.text.toList kept := by
  obtain ⟨found, spelled, text, rfl⟩ := kept_eq_place nonempty h
  have located := locates_ofText ['*', '\x7b'] (by decide) ['\x7d'] part
  rw [← toList_wrap, ← origin, ← text] at located
  rw [← text]
  exact faithfulPart_style spelled located

theorem faithfulTree_start {locator : Locator} {offset : Nat} {tag : Markup.TagText}
    {type : Option String} {first : Token}
    (located : locator.Locates offset document front tag.text) (opens : tag.Opens)
    (h : readStart (.withAdapters adapters) config (startToken locator offset tag type) =
      .ok first) :
    first.range = .behind front tag.text ∧ FaithfulTree document first := by
  have covers : Covers document (locator.range offset (offset + Text.bytes tag.text))
      (String.ofList tag.text).toList := by
    rw [String.toList_ofList]
    exact located.covers
  have attributes : ∀ parts, some (Markup.placeTag locator offset tag.tag) = some parts →
      ∀ attr ∈ parts.attrs, ∀ value, attr.value = some value →
        ∃ range, attr.valueRange = some range ∧ Covers document range value.toList := by
    rintro parts ⟨⟩ attr mem value valued
    exact valueRange_covers located opens mem valued
  rcases readStart_eq_ok h with rfl | ⟨region, kept, hregion, hkept, rfl⟩
  · refine ⟨located.range, .intro ⟨covers, attributes, fun block => (nomatch block),
      fun _ h => (nomatch h), fun _ h => (nomatch h)⟩ fun slot payload filled child mem => ?_⟩
    cases slot <;> try cases filled
    obtain ⟨text, -, rfl⟩ := Option.map_eq_some_iff.mp filled
    cases mem
  · obtain ⟨parts, attr, hdetail, named, valued, nonempty, origin⟩ := inlineStyle?_attr hregion
    cases hdetail
    obtain ⟨before, after, split, placed⟩ :=
      valueRange_of_mem located opens (List.mem_of_find?_eq_some named) valued
    obtain ⟨behind, hbehind⟩ := located.part
    rw [placed] at origin
    have part : document = front ++ before ++ region.text.toList ++ (after ++ behind) := by
      rw [hbehind, split]
      simp only [List.append_assoc]
    have tokens := faithfulPart_kept nonempty origin part hkept
    refine ⟨located.range, .intro ⟨covers, attributes, fun block => (nomatch block),
      fun _ h => (nomatch h), ?_⟩ fun slot payload filled child mem => ?_⟩
    · rintro payload ⟨⟩
      exact ⟨_, attr, _, rfl, named, placed, tokens.1⟩
    · cases slot <;> try cases filled
      · obtain ⟨text, -, rfl⟩ := Option.map_eq_some_iff.mp filled
        cases mem
      · exact tokens.2 child mem

/-- What is known of a reader of nested markup: it tells the truth about every document. -/
def FaithfulReader (nested : NestedReader) : Prop :=
  ∀ config origin text tokens, nested config origin text = .ok tokens →
    ∀ document front after, origin = .behind front → document = front ++ text.toList ++ after →
      FaithfulPart document front text.toList tokens

theorem faithfulTree_body {kind : TokenKind} {text : List Char} {range : Range} (payload : Payload)
    (whole : kind.isBlock = false) (covers : Covers document range text)
    (placed : range = .behind front text)
    (tokens : FaithfulPart document front text payload.tokens) :
    FaithfulTree document
      ((Token.plain kind (String.ofList text) range).attach .tokens payload) := by
  refine .intro ⟨?_, fun _ h => (nomatch h), fun block => ?_, ?_, fun _ h => (nomatch h)⟩
    fun slot other filled child mem => ?_
  · rw [Token.attach, Token.plain, String.toList_ofList]
    exact covers
  · rw [show kind.isBlock = true from block] at whole
    cases whole
  · rintro other ⟨⟩
    rw [Token.attach, Token.plain, placed]
    exact tokens.1
  · cases slot <;> try cases filled
    exact tokens.2 child mem

theorem faithfulTree_readBody {nested : NestedReader} (inner : FaithfulReader nested)
    {locator : Locator} {offset : Nat} {text : List Char} {element : Markup.Element}
    {start body : Token} (located : locator.Locates offset document front text)
    (h : readBody (.withAdapters adapters) nested config element start
      (Markup.placeText locator offset .text text) = .ok body) :
    body.range = .behind front text ∧ FaithfulTree document body := by
  have covers := located.covers
  have placed := located.range
  obtain ⟨after, part⟩ := located.part
  rw [← String.toList_ofList (l := text)] at part
  rcases readBody_eq_ok h with rfl | ⟨tokens, htokens, rfl⟩ | ⟨settings, tokens, htokens, rfl⟩
  · refine ⟨placed, faithfulTree_plain ?_ rfl⟩
    rw [String.toList_ofList]
    exact covers
  · have read : Style.tokenize _ (.ofRange (locator.range offset (offset + Text.bytes text)))
      (String.ofList text) = .ok tokens := htokens
    rw [placed, Origin.ofRange_behind] at read
    have sheet := faithfulPart_tokenize part read
    rw [String.toList_ofList] at sheet
    exact ⟨placed, faithfulTree_body (.style tokens) rfl covers placed sheet⟩
  · have read := inner _ _ _ _ htokens document front after (congrArg Origin.ofRange placed) part
    rw [placeText_value, String.toList_ofList] at read
    exact ⟨placed, faithfulTree_body (.markup tokens) rfl covers placed read⟩

theorem faithfulTree_endTag {locator : Locator} {offset : Nat} {tag : Markup.TagText}
    (located : locator.Locates offset document front tag.text) (ends : tag.Ends) :
    FaithfulTree document (Markup.placeTagText locator offset .tagEnd tag) := by
  refine .intro ⟨?_, ?_, fun block => (nomatch block), fun _ h => (nomatch h),
    fun _ h => (nomatch h)⟩ fun slot payload filled => ?_
  · rw [Markup.placeTagText, placeText_value, String.toList_ofList]
    exact located.covers
  · rintro parts ⟨⟩ attr mem
    rw [Markup.placeTag, ends.2] at mem
    cases mem
  · cases slot <;> cases filled

theorem faithfulTree_block {element : Markup.Element} {text opening content closing : List Char}
    {start body : Token} {finish : Option Token} {range : Range}
    (split : text = opening ++ content ++ closing) (covers : Covers document range text)
    (placed : range = .behind front text) (opened : opening ≠ [])
    (start' : start.range = .behind front opening ∧ FaithfulTree document start)
    (body' : body.range = .behind (front ++ opening) content ∧ FaithfulTree document body)
    (finish' : ∀ part ∈ finish, closing ≠ [] ∧
      part.range = .behind (front ++ opening ++ content) closing ∧ FaithfulTree document part)
    (unfinished : finish = none → closing = []) :
    FaithfulTree document
      (blockToken element (String.ofList text) range start body finish) := by
  have whole : front ++ text = front ++ opening ++ content ++ closing := by
    simp only [split, List.append_assoc]
  have last : Consecutive (Text.bytes (front ++ opening ++ content)) (Text.bytes (front ++ text))
      finish.toList := by
    rw [whole]
    cases finish with
    | none =>
      rw [unfinished rfl, List.append_nil]
      exact rfl
    | some part =>
      obtain ⟨-, range, -⟩ := finish' part rfl
      simp only [Option.toList_some, Consecutive, range]
      exact ⟨rfl, rfl⟩
  refine .intro ⟨?_, fun _ h => (nomatch h), fun _ => ?_, fun _ h => (nomatch h),
    fun _ h => (nomatch h)⟩ fun slot payload filled child mem => ?_
  · rw [blockToken, String.toList_ofList]
    exact covers
  · refine ⟨start, body, finish, rfl, rfl, rfl, ?_, List.forall_mem_cons.mpr ⟨?_, ?_⟩⟩
    · rw [blockToken, placed]
      simp only [Consecutive, start'.1, body'.1]
      exact ⟨rfl, rfl, last⟩
    · rw [start'.1]
      exact Range.behind_lt front opened
    · intro part mem
      obtain ⟨closed, range, -⟩ := finish' part (Option.mem_toList.mp mem)
      rw [range]
      exact Range.behind_lt _ closed
  · cases slot <;> try cases filled
    · exact List.mem_singleton.mp mem ▸ start'.2
    · exact List.mem_singleton.mp mem ▸ body'.2
    · obtain ⟨part, hpart, rfl⟩ := Option.map_eq_some_iff.mp filled
      exact List.mem_singleton.mp mem ▸ (finish' part hpart).2.2

theorem faithfulTree_embedToken {nested : NestedReader} (inner : FaithfulReader nested)
    {locator : Locator} {offset : Nat} {piece : Markup.Piece} {token : Token}
    (spelled : piece.Spelled) (located : locator.Locates offset document front piece.text)
    (h : embedToken (.withAdapters adapters) nested config (piece.token locator offset) =
      .ok token) :
    token.range = .behind front piece.text ∧ FaithfulTree document token := by
  cases embedded_of_embedToken h with
  | plain kind text =>
    refine ⟨located.range, faithfulTree_plain ?_ spelled.2⟩
    rw [String.toList_ofList]
    exact located.covers
  | endTag tag => exact ⟨located.range, faithfulTree_endTag located spelled⟩
  | startTag inline => exact faithfulTree_start located spelled inline
  | block _ hfirst hbody =>
    have parts := located
    rw [Markup.text_block] at parts
    have start' := faithfulTree_start parts.head.head spelled.1 hfirst
    have body' := faithfulTree_readBody inner parts.head.tail hbody
    have finish' := parts.tail
    rw [Text.bytes_append, ← Nat.add_assoc, ← List.append_assoc] at finish'
    refine ⟨located.range, faithfulTree_block (Markup.text_block _ _ _ _) located.covers
      located.range spelled.1.nonempty start' body' (fun part mem => ?_) fun none => ?_⟩
    · obtain ⟨tag, rfl, rfl⟩ := Option.map_eq_some_iff.mp mem
      have ends := spelled.2 tag rfl
      exact ⟨ends.1, finish'.range, faithfulTree_endTag finish' ends⟩
    · rw [Option.map_eq_none_iff.mp none]
      rfl

theorem faithfulPart_embedWith {nested : NestedReader} (inner : FaithfulReader nested)
    {locator : Locator} {offset : Nat} {found : List Markup.Piece} {tokens : List Token}
    (spelled : ∀ piece ∈ found, piece.Spelled)
    (located : locator.Locates offset document front (found.flatMap Markup.Piece.text))
    (h : embedWith (.withAdapters adapters) nested config (Markup.place locator offset found) =
      .ok tokens) :
    FaithfulPart document front (found.flatMap Markup.Piece.text) tokens := by
  induction found generalizing offset front tokens with
  | nil =>
    cases h
    exact .nil
  | cons piece rest ih =>
    simp only [Markup.place, embedWith, List.mapM_cons] at h
    obtain ⟨token, htoken, h⟩ := bind_eq_ok.mp h
    obtain ⟨more, hmore, h⟩ := bind_eq_ok.mp h
    cases h
    obtain ⟨self, others⟩ := List.forall_mem_cons.mp spelled
    rw [List.flatMap_cons] at located ⊢
    obtain ⟨range, tree⟩ := faithfulTree_embedToken inner self located.head htoken
    exact .cons self.nonempty range tree (ih others located.tail hmore)

end Embedding

theorem faithfulPart_readMarkup {adapters : Template.Adapters} :
    Embedding.FaithfulReader (readMarkup (.withAdapters adapters)) := by
  intro config origin text tokens h
  refine readMarkup_induct (motive := fun _ origin text tokens => ∀ document front after,
    origin = .behind front → document = front ++ text.toList ++ after →
      FaithfulPart document front text.toList tokens) ?_ h
  rintro config _ text found tokens nested hfound inner h document front after rfl part
  have whole := Markup.pieces_text hfound
  have located : (Locator.ofText text.toList (.behind front)).Locates 0 document front
      (found.flatMap Markup.Piece.text) := by
    rw [whole]
    exact locates_text part
  have nestedMarkup := fun config origin text tokens h => (inner config origin text tokens h).2
  have read :=
    Embedding.faithfulPart_embedWith nestedMarkup (Markup.pieces_spelled hfound) located h
  rwa [whole] at read

/-- Whatever is read as markup or style at its true place in a document: the tokens tile what was
read, and every token in their trees says the truth about the document. -/
theorem faithful_of_dispatch {config : Config} {grammar : Grammar} {before after : List Char}
    {content : String} {ast : Ast} (tokenized : grammar ≠ .script)
    (h : dispatch .builtin config grammar (.behind before) content = .ok ast) :
    Tiles (Text.bytes before) (Text.bytes (before ++ content.toList)) ast.tokens ∧
      ∀ top ∈ ast.tokens, ∀ token, Within top token →
        Faithful (before ++ content.toList ++ after) token := by
  cases grammar with
  | script => exact absurd rfl tokenized
  | style =>
    obtain ⟨tokens, htokens, rfl⟩ := map_eq_ok.mp h
    have read : Style.tokenize _ (.behind before) content = .ok tokens := htokens
    exact faithfulPart_tokenize rfl read
  | markup =>
    obtain ⟨tokens, htokens, rfl⟩ := map_eq_ok.mp h
    exact faithfulPart_readMarkup _ _ _ _ htokens _ _ _ rfl rfl

/-- An inline style over two lines, and markup with a style sheet in a script. -/
def twoLines : String :=
  "<p style='a:b;\nc:d'><script type=tpl>x\n<style>y\x7b\x7d</style></script>"

theorem faithful_of_dispatch_twoLines : ∃ ast,
    dispatch .builtin ⟨.standard, some ⟨["tpl"], .standard⟩⟩ .markup (.behind ['é', '\n', 'a'])
        twoLines = .ok ast ∧
      Tiles 4 70 ast.tokens ∧ ∀ top ∈ ast.tokens, ∀ token, Within top token →
        Faithful (['é', '\n', 'a'] ++ twoLines.toList ++ ['b']) token := by
  have read : (dispatch .builtin ⟨.standard, some ⟨["tpl"], .standard⟩⟩ .markup
      (.behind ['é', '\n', 'a']) twoLines).toBool := by
    decide +kernel
  obtain ⟨ast, hast⟩ := exists_of_toBool read
  exact ⟨ast, hast, faithful_of_dispatch (by decide) hast⟩

end Mosaic
