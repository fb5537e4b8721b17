import Mosaic.Proofs.Location
import Mosaic.Proofs.RoundTrip
import Mosaic.Proofs.Spot

/-! Exchanging what was read from a nested text. The tokens around a nested text still hold the
text as it was, but the document is written from what hangs in their slots: exchanging that
changes the text of its region and nothing else. -/
namespace Mosaic

open Outcome Mosaic.Embedding Spot

namespace Payload

/-- Two payloads of tokens of the same grammar. -/
def Alike : Payload → Payload → Prop
  | .style _, .style _ => True
  | .markup _, .markup _ => True
  | _, _ => False

/-- The text of style or markup. -/
def write (w : Markup.Writers) : Payload → Except BackendError String
  | .style tokens => w.style tokens
  | .markup tokens => Markup.writeTokens w tokens
  | _ => .ok ""

end Payload

/-- In a text behind `front`, the text of `old` stands at a place, and with any other payload of
the same grammar the text is written with the text of that payload at this place. -/
def Exchanges (w : Markup.Writers) (front source : List Char) (old : Payload)
    (place : Option Range) (written : Payload → Except BackendError String) : Prop :=
  ∃ before text after, source = before ++ text ++ after ∧
    place = some (.behind (front ++ before) text) ∧
    ∀ new, Payload.Alike old new → ∀ inner, new.write w = .ok inner →
      written new = .ok (String.ofList before ++ inner ++ String.ofList after)

theorem Exchanges.widen {w : Markup.Writers} {front lead source trail : List Char} {old : Payload}
    {place : Option Range} {written longer : Payload → Except BackendError String}
    (h : Exchanges w (front ++ lead) source old place written)
    (around : ∀ new inner, written new = .ok inner →
      longer new = .ok (String.ofList lead ++ inner ++ String.ofList trail)) :
    Exchanges w front (lead ++ source ++ trail) old place longer := by
  obtain ⟨before, text, after, rfl, hplace, exchanged⟩ := h
  refine ⟨lead ++ before, text, after ++ trail, by simp only [List.append_assoc],
    by rw [hplace, List.append_assoc], fun new alike inner hinner => ?_⟩
  rw [around new _ (exchanged new alike inner hinner)]
  simp only [String.ofList_append, String.append_assoc]

namespace Markup

variable {adapters : Template.Adapters} {config : Config}

theorem exchanges_start {locator : Locator} {offset : Nat} {document front : List Char}
    {tag : TagText} {type : Option String} {first : Token} {old : Payload}
    (located : locator.Locates offset document front tag.text) (opens : tag.Opens)
    (h : readStart (.withAdapters adapters) config (startToken locator offset tag type) =
      .ok first)
    (held : first.ext.styleTokens = some old) :
    Exchanges (Backends.withAdapters adapters).writers front tag.text old
      ((first.detail.bind (·.attr? "style")).bind (·.valueRange))
      fun new => writeStart (Backends.withAdapters adapters).writers
        (first.attach .styleTokens new) := by
  rcases readStart_eq_ok h with rfl | ⟨region, kept, hregion, hkept, rfl⟩
  · cases held
  · cases held
    obtain ⟨placed, attr, hdetail, named, valued, -, -⟩ := inlineStyle?_attr hregion
    cases hdetail
    obtain ⟨before, after, written, valueRange⟩ := render_around named valued
    have split : tag.text = before.toList ++ region.text.toList ++ after.toList := by
      rw [← String.toList_ofList (l := tag.text), ← opens, written, String.toList_append,
        String.toList_append]
      rfl
    rw [(located.narrow split).range] at valueRange
    refine ⟨before.toList, region.text.toList, after.toList, split, ?_, ?_⟩
    · exact Option.bind_eq_some_iff.mpr ⟨attr, named, valueRange⟩
    · intro new alike inner hinner
      cases new with
      | style tokens =>
        cases hinner
        have exchanged := written (some (Style.stringify tokens))
        rw [← render_placeTag locator offset] at exchanged
        rw [String.ofList_toList, String.ofList_toList]
        exact congrArg Except.ok exchanged
      | _ => cases alike

theorem writeBody_attach (w : Writers) (body : Token) {old new : Payload} (alike : old.Alike new) :
    writeBody w (some (.token (body.attach .tokens new))) = new.write w := by
  rcases body with ⟨kind, value, range, detail, ext⟩
  cases new with
  | style tokens => rfl
  | markup tokens => rfl
  | _ => cases old <;> cases alike

theorem exchanges_body {nested : NestedReader} {element : Element} {start body : Token}
    {locator : Locator} {offset : Nat} {document front text : List Char} {old : Payload}
    (located : locator.Locates offset document front text)
    (h : readBody (.withAdapters adapters) nested config element start
      (placeText locator offset .text text) = .ok body)
    (held : body.ext.tokens = some old) :
    Exchanges (Backends.withAdapters adapters).writers front text old (some body.range)
      fun new => writeBody (Backends.withAdapters adapters).writers
        (some (.token (body.attach .tokens new))) := by
  have whole : ∀ payload, body = (placeText locator offset .text text).attach .tokens payload →
      Exchanges (Backends.withAdapters adapters).writers front text old (some body.range)
        fun new => writeBody (Backends.withAdapters adapters).writers
          (some (.token (body.attach .tokens new))) := by
    rintro payload rfl
    cases held
    refine ⟨[], text, [], by rw [List.nil_append, List.append_nil], ?_, fun new alike inner h => ?_⟩
    · rw [List.append_nil, ← located.range]
      rfl
    · rw [String.ofList_nil, String.empty_append, String.append_empty, ← h]
      exact writeBody_attach _ _ alike
  rcases readBody_eq_ok h with rfl | ⟨tokens, -, rfl⟩ | ⟨inner, tokens, -, rfl⟩
  · cases held
  · exact whole _ rfl
  · exact whole _ rfl

/-- What is known of the nested markup in a document: it is written back, and what hangs in it can
be exchanged. -/
def ExchangeReader (adapters : Template.Adapters) (nested : NestedReader) : Prop :=
  ∀ config origin text tokens, nested config origin text = .ok tokens →
    writeTokens (Backends.withAdapters adapters).writers tokens = .ok text ∧
    ∀ front, origin = .behind front → ∀ index (spot : Spot) old,
      tokens[index]?.bind spot.payload? = some old →
      Exchanges (Backends.withAdapters adapters).writers front text.toList old
        (tokens[index]?.bind spot.range?)
        fun new => writeTokens (Backends.withAdapters adapters).writers
          (tokens.modify index (spot.put new))

/-- Exchanging what hangs in a block. -/
theorem exchanges_block {w : Writers} {element : Element} {value : String} {range : Range}
    {first body : Token} {finish : Option Token} {front opening content closing : List Char}
    (opened : writeStart w first = .ok (String.ofList opening))
    (contained : writeBody w (some (.token body)) = .ok (String.ofList content))
    (closed : writeFinishPart (finish.map .token) = String.ofList closing)
    (start : ∀ old, first.ext.styleTokens = some old → Exchanges w front opening old
      ((first.detail.bind (·.attr? "style")).bind (·.valueRange))
      fun new => writeStart w (first.attach .styleTokens new))
    (whole : ∀ old, body.ext.tokens = some old →
      Exchanges w (front ++ opening) content old (some body.range)
        fun new => writeBody w (some (.token (body.attach .tokens new))))
    (inner : ∀ tokens, body.ext.tokens = some (.markup tokens) → ∀ index (spot : Spot) old,
      tokens[index]?.bind spot.payload? = some old →
      Exchanges w (front ++ opening) content old (tokens[index]?.bind spot.range?)
        fun new => writeTokens w (tokens.modify index (spot.put new)))
    {spot : Spot} {old : Payload}
    (held : spot.payload? (blockToken element value range first body finish) = some old) :
    Exchanges w front (opening ++ content ++ closing) old
      (spot.range? (blockToken element value range first body finish))
      fun new =>
        writeToken w (spot.put new (blockToken element value range first body finish)) := by
  have ofBody : ∀ place written,
      Exchanges w (front ++ opening) content old place written →
      Exchanges w front (opening ++ content ++ closing) old place fun new => (do
        let body ← written new
        return String.ofList opening ++ body ++ String.ofList closing) := by
    intro place written exchanges
    refine exchanges.widen fun new inner hinner => ?_
    rw [hinner]
    rfl
  cases spot with
  | here kind =>
    by_cases style : kind = .inlineStyle
    · subst style
      simp only [Spot.payload?, Spot.range?, Spot.put, held?_block_inlineStyle,
        heldRange?_block_inlineStyle, attach_block_inlineStyle, writeToken_block, contained,
        closed, ok_bind] at held ⊢
      have wide := (start old held)
      rw [← List.append_nil front] at wide
      rw [← List.nil_append opening, List.append_assoc]
      refine wide.widen fun new inner hinner => ?_
      rw [hinner, ok_bind, String.ofList_append]
      simp only [String.ofList_nil, String.empty_append, String.append_assoc]
      rfl
    · simp only [Spot.payload?, Spot.range?, Spot.put, held?_block_body style,
        heldRange?_block_body style, attach_block_body style,
        writeToken_block, opened, closed, ok_bind] at held ⊢
      exact ofBody _ _ (whole old held)
  | inside index spot =>
    simp only [Spot.payload?, Spot.range?, Spot.put] at held ⊢
    cases hmarkup : Spot.markup (blockToken element value range first body finish) with
    | nil =>
      rw [hmarkup] at held
      cases held
    | cons token rest =>
      have body' : RegionKind.templateScript ≠ .inlineStyle := by decide
      have written : ∀ tokens, writeBody w (some (.token (body.attach .tokens (.markup tokens)))) =
          writeTokens w tokens := by
        intro tokens
        exact writeBody_attach w body (show (Payload.markup []).Alike (.markup tokens) from trivial)
      simp only [hmarkup, attach_block_body body', writeToken_block, opened, closed,
        ok_bind] at held ⊢
      refine ofBody _ _ ?_
      simp only [written]
      exact inner _ (markup_block_cons hmarkup) index spot old held

theorem exchanges_startTag {locator : Locator} {offset : Nat} {document front : List Char}
    {tag : TagText} {type : Option String} {first : Token} {spot : Spot} {old : Payload}
    (located : locator.Locates offset document front tag.text) (opens : tag.Opens)
    (h : readStart (.withAdapters adapters) config (startToken locator offset tag type) =
      .ok first)
    (held : spot.payload? first = some old) :
    Exchanges (Backends.withAdapters adapters).writers front tag.text old (spot.range? first)
      fun new => writeToken (Backends.withAdapters adapters).writers (spot.put new first) := by
  have kind : first.kind = .tagStart := readStart_kind h
  have bodiless : first.ext.content = none := by
    rcases readStart_eq_ok h with rfl | ⟨region, kept, -, -, rfl⟩ <;> rfl
  have none : Spot.held? .templateScript first = none := by
    simp only [Spot.held?, Extensions.token?, Extensions.get?, bodiless, Option.bind_none]
  cases spot with
  | here place =>
    cases place with
    | inlineStyle =>
      simp only [Spot.payload?, Spot.range?, Spot.put, Spot.held?, Spot.heldRange?, Spot.startTag?,
        attach, kind, if_true, Option.bind_some] at held ⊢
      have written : ∀ new, writeToken (Backends.withAdapters adapters).writers
          (first.attach .styleTokens new) = writeStart _ (first.attach .styleTokens new) :=
        fun new => writeToken_tagStart _ kind
      simp only [written]
      exact exchanges_start located opens h held
    | styleBlock | templateScript =>
      have empty := none.symm.trans held
      cases empty
  | inside index spot =>
    simp only [Spot.payload?, Spot.markup, none] at held
    cases held

/-- Exchanging what hangs in the tree of a token. -/
theorem exchanges_embedToken {nested : NestedReader} (inner : ExchangeReader adapters nested)
    {locator : Locator} {offset : Nat} {document front : List Char} {piece : Piece} {token : Token}
    {spot : Spot} {old : Payload} (spelled : piece.Spelled)
    (located : locator.Locates offset document front piece.text)
    (h : embedToken (.withAdapters adapters) nested config (piece.token locator offset) =
      .ok token)
    (held : spot.payload? token = some old) :
    Exchanges (Backends.withAdapters adapters).writers front piece.text old (spot.range? token)
      fun new => writeToken (Backends.withAdapters adapters).writers (spot.put new token) := by
  cases embedded_of_embedToken h with
  | plain | endTag =>
    have empty := (payload?_empty spot).symm.trans held
    cases empty
  | startTag inline => exact exchanges_startTag located spelled inline held
  | @block element start content finish type first body _ hfirst hbody =>
    have parts := located
    rw [text_block] at parts ⊢
    refine exchanges_block (writeStart_readStart spelled.1 hfirst)
      (writeBody_readBody rfl (fun config origin text tokens h => (inner _ _ _ _ h).1) hbody)
      (writeFinishPart_place _ _ finish)
      (fun old => exchanges_start parts.head.head spelled.1 hfirst)
      (fun old => exchanges_body parts.head.tail hbody) (fun tokens hmarkup => ?_) held
    rcases readBody_eq_ok hbody with rfl | ⟨sheet, -, rfl⟩ | ⟨settings, markup, hnested, rfl⟩
    · cases hmarkup
    · cases hmarkup
    · cases hmarkup
      have exchanges := (inner _ _ _ _ hnested).2 _ (congrArg Origin.ofRange parts.head.tail.range)
      rw [placeText_value, String.toList_ofList] at exchanges
      exact exchanges

theorem exchanges_embedWith {nested : NestedReader} (inner : ExchangeReader adapters nested)
    {locator : Locator} {offset : Nat} {document front : List Char} {found : List Piece}
    {tokens : List Token} {index : Nat} {spot : Spot} {old : Payload}
    (spelled : ∀ piece ∈ found, piece.Spelled)
    (located : locator.Locates offset document front (found.flatMap Piece.text))
    (h : embedWith (.withAdapters adapters) nested config (place locator offset found) =
      .ok tokens)
    (held : tokens[index]?.bind spot.payload? = some old) :
    Exchanges (Backends.withAdapters adapters).writers front (found.flatMap Piece.text) old
      (tokens[index]?.bind spot.range?)
      fun new => writeTokens (Backends.withAdapters adapters).writers
        (tokens.modify index (spot.put new)) := by
  have writtenBack := fun config origin text tokens h => (inner config origin text tokens h).1
  induction found generalizing offset front tokens index with
  | nil =>
    cases h
    cases held
  | cons piece rest ih =>
    simp only [place, embedWith, List.mapM_cons] at h
    obtain ⟨token, htoken, h⟩ := bind_eq_ok.mp h
    obtain ⟨more, hmore, h⟩ := bind_eq_ok.mp h
    cases h
    obtain ⟨self, others⟩ := List.forall_mem_cons.mp spelled
    rw [List.flatMap_cons] at located ⊢
    cases index with
    | zero =>
      have first := exchanges_embedToken inner self located.head htoken held
      have written := writeTokens_embedWith others writtenBack hmore
      rw [← List.append_nil front] at first
      rw [← List.nil_append piece.text]
      refine first.widen fun new inside hinside => ?_
      simp only [List.modify_zero_cons, writeTokens, hinside, written, ok_bind, String.ofList_nil,
        String.empty_append]
      rfl
    | succ index =>
      have behind := ih others located.tail hmore held
      have written := writeToken_embedToken self writtenBack htoken
      rw [← List.append_nil (piece.text ++ _)]
      refine behind.widen fun new inside hinside => ?_
      simp only [List.modify_succ_cons, writeTokens, hinside, written, ok_bind, String.ofList_nil,
        String.append_empty]
      rfl

theorem exchanges_readMarkup :
    ExchangeReader adapters (readMarkup (.withAdapters adapters)) := by
  intro config origin text tokens h
  refine ⟨writeTokens_readMarkup h, ?_⟩
  refine readMarkup_induct (motive := fun _ origin text tokens => ∀ front, origin = .behind front →
    ∀ index (spot : Spot) old, tokens[index]?.bind spot.payload? = some old →
      Exchanges (Backends.withAdapters adapters).writers front text.toList old
        (tokens[index]?.bind spot.range?)
        fun new => writeTokens (Backends.withAdapters adapters).writers
          (tokens.modify index (spot.put new))) ?_ h
  rintro config _ text found tokens nested hfound inner h front rfl index spot old held
  have whole := pieces_text hfound
  have located : (Locator.ofText text.toList (.behind front)).Locates 0 (front ++ text.toList) front
      (found.flatMap Piece.text) := by
    rw [whole]
    exact locates_text (List.append_nil _).symm
  have nestedMarkup : ExchangeReader adapters nested := fun config origin text tokens h =>
    ⟨writeTokens_readMarkup (inner config origin text tokens h).1,
      (inner config origin text tokens h).2⟩
  have read := exchanges_embedWith nestedMarkup (pieces_spelled hfound) located h held
  rwa [whole] at read

theorem writeStart_succeeds (token : Token) :
    ∃ text, writeStart (Backends.withAdapters adapters).writers token = .ok text := by
  unfold writeStart
  split
  · exact ⟨_, rfl⟩
  · exact ⟨_, rfl⟩

mutual

theorem writeToken_succeeds (adapters : Template.Adapters) : ∀ token,
    ∃ text, writeToken (Backends.withAdapters adapters).writers token = .ok text
  | ⟨kind, value, range, detail, ext⟩ => by
    cases kind with
    | tagStart => exact writeStart_succeeds _
    | styleBlock => exact writeBlock_succeeds adapters value ext
    | scriptBlock => exact writeBlock_succeeds adapters value ext
    | _ => exact ⟨value, rfl⟩

theorem writeBlock_succeeds (adapters : Template.Adapters) (value : String) : ∀ ext,
    ∃ text, writeBlock (Backends.withAdapters adapters).writers value ext = .ok text
  | ⟨start, content, finish, _, _, _, _⟩ => by
    obtain ⟨body, hbody⟩ := writeBody_succeeds adapters content
    have first : ∃ text, writeStartPart (Backends.withAdapters adapters).writers start =
        .ok text := by
      unfold writeStartPart
      split
      · exact writeStart_succeeds _
      · exact ⟨_, rfl⟩
    obtain ⟨first, hfirst⟩ := first
    unfold writeBlock
    split
    · exact ⟨_, by rw [hfirst, ok_bind, hbody, ok_bind]; rfl⟩
    · exact ⟨value, rfl⟩

theorem writeBody_succeeds (adapters : Template.Adapters) : ∀ content,
    ∃ text, writeBody (Backends.withAdapters adapters).writers content = .ok text
  | none => ⟨"", rfl⟩
  | some (.token ⟨_, _, _, _, ⟨_, _, _, _, tokens, _, ast⟩⟩) => by
    cases tokens with
    | some payload =>
      cases payload with
      | markup inner => exact writeTokens_succeeds adapters inner
      | _ => rcases ast with _ | (_ | _ | _ | _ | _) <;> exact ⟨_, rfl⟩
    | none => rcases ast with _ | (_ | _ | _ | _ | _) <;> exact ⟨_, rfl⟩
  | some (.markup _) => ⟨"", rfl⟩
  | some (.style _) => ⟨"", rfl⟩
  | some (.script _) => ⟨"", rfl⟩
  | some (.text _) => ⟨"", rfl⟩

theorem writeTokens_succeeds (adapters : Template.Adapters) : ∀ tokens,
    ∃ text, writeTokens (Backends.withAdapters adapters).writers tokens = .ok text
  | [] => ⟨"", rfl⟩
  | token :: rest => by
    obtain ⟨first, hfirst⟩ := writeToken_succeeds adapters token
    obtain ⟨more, hmore⟩ := writeTokens_succeeds adapters rest
    exact ⟨first ++ more, by rw [writeTokens, hfirst, ok_bind, hmore]; rfl⟩

end

end Markup

/-- A document is written from what hangs in it. Everything that was read from a nested text, at
any depth, hangs at a spot. Whatever hangs at a spot, put other tokens of the same grammar there,
and the document is written with their text at the place of the nested text, and is the same
everywhere else. -/
theorem stringify_of_put {config : Config} {source : String} {tokens : List Token}
    (h : dispatch .builtin config .markup .zero source = .ok (.markup tokens)) :
    (∀ top ∈ tokens, Reaches top) ∧
    ∀ index (spot : Spot) old, tokens[index]?.bind spot.payload? = some old →
      ∃ before text after, source = before ++ text ++ after ∧
        tokens[index]?.bind spot.range? = some (.behind before.toList text.toList) ∧
        (∀ sheet, old = .style sheet → ∀ new,
          stringify .builtin .markup (.markup (tokens.modify index (spot.put (.style new)))) =
            .ok (before ++ Token.concat new ++ after)) ∧
        (∀ inner, old = .markup inner → ∀ new, ∃ written,
          stringify .builtin .markup (.markup new) = .ok written ∧
          stringify .builtin .markup (.markup (tokens.modify index (spot.put (.markup new)))) =
            .ok (before ++ written ++ after)) := by
  obtain ⟨read, hread, same⟩ := map_eq_ok.mp h
  cases same
  refine ⟨Spot.reaches_readMarkup _ _ _ _ hread, fun index spot old held => ?_⟩
  obtain ⟨before, text, after, split, place, exchanged⟩ :=
    (Markup.exchanges_readMarkup _ _ _ _ hread).2 [] rfl index spot old held
  refine ⟨String.ofList before, String.ofList text, String.ofList after, ?_, ?_, ?_, ?_⟩
  · rw [← String.toList_inj, split]
    simp only [String.toList_append, String.toList_ofList]
  · rw [place, String.toList_ofList, String.toList_ofList, List.nil_append]
  · rintro sheet rfl new
    exact exchanged (.style new) trivial _ rfl
  · rintro inner rfl new
    obtain ⟨written, hwritten⟩ := Markup.writeTokens_succeeds .empty new
    exact ⟨written, hwritten, exchanged (.markup new) trivial written hwritten⟩

def Payload.isStyle : Payload → Bool
  | .style _ => true
  | _ => false

/-- The inline style of a start tag that stands in a script. -/
theorem stringify_of_put_inside : ∃ tokens sheet,
    dispatch .builtin ⟨.standard, some ⟨["tpl"], .standard⟩⟩ .markup .zero
        "a<script type=tpl><p style='b:c' style></script>" = .ok (.markup tokens) ∧
      tokens[1]?.bind (Spot.inside 0 (.here .inlineStyle)).payload? = some (.style sheet) ∧
      ∃ before after : String, ∀ new, stringify .builtin .markup (.markup
          (tokens.modify 1 (Spot.put (.style new) (.inside 0 (.here .inlineStyle))))) =
        .ok (before ++ Token.concat new ++ after) := by
  have styled : ((readMarkup .builtin ⟨.standard, some ⟨["tpl"], .standard⟩⟩ .zero
      "a<script type=tpl><p style='b:c' style></script>").toOption.bind fun tokens =>
        tokens[1]?.bind (Spot.inside 0 (.here .inlineStyle)).payload?).any
          Payload.isStyle = true := by decide +kernel
  obtain ⟨payload, seen, style⟩ := (Option.any_eq_true _ _).mp styled
  obtain ⟨tokens, hread, held⟩ := exists_of_toOption_bind seen
  have whole : dispatch .builtin ⟨.standard, some ⟨["tpl"], .standard⟩⟩ .markup .zero
      "a<script type=tpl><p style='b:c' style></script>" = .ok (.markup tokens) :=
    map_eq_ok.mpr ⟨tokens, hread, rfl⟩
  cases payload with
  | style sheet =>
    obtain ⟨before, text, after, -, -, exchanged, -⟩ :=
      (stringify_of_put whole).2 1 (.inside 0 (.here .inlineStyle)) _ held
    exact ⟨tokens, sheet, whole, held, before, after, exchanged sheet rfl⟩
  | token | markup | script | text => cases style

end Mosaic
