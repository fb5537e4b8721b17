import Mosaic.Dispatch
import Mosaic.Proofs.Embedding.Inline
import Mosaic.Proofs.Markup.Piece

/-! What embedding does to the tokens of markup, part by part. A start tag is read for its inline
style, a block for the inline style of its start part and for its body; no other token holds a
nested text. -/
namespace Mosaic.Embedding

open Outcome

def readStart (b : Backends) (config : Config) (start : Token) : Except BackendError Token :=
  match inlineStyle? start with
  | none => .ok start
  | some region => do
    match ← declarations? b config region with
    | some kept => return start.attach .styleTokens (.style kept)
    | none => return start

/-- A start tag either stays as it is or gets style tokens. -/
theorem readStart_eq_ok {b : Backends} {config : Config} {start first : Token}
    (h : readStart b config start = .ok first) :
    first = start ∨ ∃ region kept, inlineStyle? start = some region ∧
      declarations? b config region = .ok (some kept) ∧
      first = start.attach .styleTokens (.style kept) := by
  unfold readStart at h
  split at h
  · cases h
    exact .inl rfl
  · next region hregion =>
    obtain ⟨kept, hkept, hfirst⟩ := bind_eq_ok.mp h
    cases kept with
    | none =>
      cases hfirst
      exact .inl rfl
    | some kept =>
      cases hfirst
      exact .inr ⟨region, kept, hregion, hkept, rfl⟩

theorem readStart_kind {b : Backends} {config : Config} {start first : Token}
    (h : readStart b config start = .ok first) : first.kind = start.kind := by
  rcases readStart_eq_ok h with rfl | ⟨region, kept, -, -, rfl⟩ <;> rfl

def startDialect? (config : Config) (start : Token) : Option String :=
  match start.ext.text? .type with
  | some type => if config.isDialect type then some type else none
  | none => none

def readBody (b : Backends) (nested : NestedReader) (config : Config) (element : Markup.Element)
    (start content : Token) : Except BackendError Token :=
  match element with
  | .style => do
    let tokens ← b.style.tokenize config.template (.ofRange content.range) content.value
    return content.attach .tokens (.style tokens)
  | .script =>
    match startDialect? config start, config.nested? with
    | some _, some inner => do
      let tokens ← nested inner (.ofRange content.range) content.value
      return content.attach .tokens (.markup tokens)
    | _, _ => .ok content

theorem startDialect?_eq_some {config : Config} {start : Token} {type : String} :
    startDialect? config start = some type ↔ start.ext.text? .type = some type ∧
      ∃ templates, config.scripts = some templates ∧ type ∈ templates.types := by
  have known : config.isDialect type = true ↔
      ∃ templates, config.scripts = some templates ∧ type ∈ templates.types := by
    unfold Config.isDialect
    cases config.scripts <;> simp
  unfold startDialect?
  rw [← known]
  cases start.ext.text? .type with
  | none => simp
  | some other =>
    dsimp only
    constructor
    · intro h
      split at h
      · next dialect =>
        cases h
        exact ⟨rfl, dialect⟩
      · cases h
    · rintro ⟨same, dialect⟩
      cases same
      exact if_pos dialect

/-- The body of a script is left as it is, or its type is one of those in the settings. -/
theorem readBody_script {b : Backends} {nested : NestedReader} {config : Config}
    {start content body : Token}
    (h : readBody b nested config .script start content = .ok body) :
    (body = content ∧ ∀ type templates, start.ext.text? .type = some type →
      config.scripts = some templates → type ∉ templates.types) ∨
    ∃ type templates tokens, start.ext.text? .type = some type ∧
      config.scripts = some templates ∧ type ∈ templates.types ∧
      nested ⟨templates.template, some templates⟩ (.ofRange content.range) content.value =
        .ok tokens ∧
      body = content.attach .tokens (.markup tokens) := by
  simp only [readBody] at h
  cases dialect : startDialect? config start with
  | none =>
    rw [dialect] at h
    cases h
    refine .inl ⟨rfl, ?_⟩
    intro type templates typed settings met
    have some := startDialect?_eq_some.mpr ⟨typed, templates, settings, met⟩
    exact nomatch dialect.symm.trans some
  | some type =>
    obtain ⟨typed, templates, settings, met⟩ := startDialect?_eq_some.mp dialect
    rw [dialect, Config.nested?, settings] at h
    obtain ⟨tokens, read, made⟩ := bind_eq_ok.mp h
    cases made
    exact .inr ⟨type, templates, tokens, typed, settings, met, read, rfl⟩

/-- The body of a block stays as it is or gets the tokens that its text was read as. -/
theorem readBody_eq_ok {b : Backends} {nested : NestedReader} {config : Config}
    {element : Markup.Element} {start content body : Token}
    (h : readBody b nested config element start content = .ok body) :
    body = content ∨
      (∃ tokens, b.style.tokenize config.template (.ofRange content.range) content.value =
        .ok tokens ∧ body = content.attach .tokens (.style tokens)) ∨
      ∃ inner tokens, nested inner (.ofRange content.range) content.value = .ok tokens ∧
        body = content.attach .tokens (.markup tokens) := by
  cases element with
  | style =>
    obtain ⟨tokens, htokens, hbody⟩ := bind_eq_ok.mp h
    cases hbody
    exact .inr (.inl ⟨tokens, htokens, rfl⟩)
  | script =>
    rcases readBody_script h with ⟨rfl, -⟩ | ⟨type, templates, tokens, -, -, -, read, rfl⟩
    · exact .inl rfl
    · exact .inr (.inr ⟨_, tokens, read, rfl⟩)

/-- The token of a block with the given parts. -/
def blockToken (element : Markup.Element) (value : String) (range : Range) (start content : Token)
    (finish : Option Token) : Token :=
  ⟨element.kind, value, range, none,
    ⟨some (.token start), some (.token content), finish.map .token, none, none, none, none⟩⟩

theorem embedToken_plain (b : Backends) (nested : NestedReader) (config : Config)
    (kind : TokenKind) (value : String) (range : Range) :
    embedToken b nested config (.plain kind value range) = .ok (.plain kind value range) := by
  cases kind <;> rfl

theorem embedRegion_inlineStyle {b : Backends} {nested : NestedReader} {config : Config}
    {owner : Token} {region : Region} (h : region.kind = .inlineStyle) :
    embedRegion b nested config owner region = (do
      match ← declarations? b config region with
      | some kept => return attach .inlineStyle owner (.style kept)
      | none => return owner) := by
  simp only [embedRegion, payload?, h]
  cases declarations? b config region with
  | error e => rfl
  | ok found => cases found <;> rfl

theorem embedToken_tagStart (b : Backends) (nested : NestedReader) (config : Config)
    {start : Token} (h : start.kind = .tagStart) :
    embedToken b nested config start = readStart b config start := by
  simp only [embedToken, regions, h, readStart]
  cases hregion : inlineStyle? start with
  | none => rfl
  | some region =>
    simp only [Option.toList_some, List.foldlM_cons, List.foldlM_nil, bind_pure,
      embedRegion_inlineStyle (inlineStyle?_kind hregion), attach, h, if_true]

/-- Change the token in a slot, if there is one. -/
def changePart (change : Token → Except BackendError Token) :
    Option Payload → Except BackendError (Option Payload)
  | some (.token part) => (change part).map fun after => some (.token after)
  | held => .ok held

/-- The inline style of a block is read for its start part. -/
theorem embed_startRegions {b : Backends} {config : Config} (nested : NestedReader) {block : Token}
    (kind : block.kind ≠ .tagStart) :
    (startRegions block).foldlM (embedRegion b nested config) block =
      (changePart (readStart b config) block.ext.start).map fun first =>
        { block with ext := { block.ext with start := first } } := by
  rcases block with ⟨hkind, value, range, detail, start, content, finish, type, tokens, styles, ast⟩
  rcases start with _ | ⟨part | _ | _ | _ | _⟩
  case some.token =>
    change (inlineStyle? part).toList.foldlM _ _ = _
    simp only [changePart, readStart]
    cases inline : inlineStyle? part with
    | none => rfl
    | some region =>
      simp only [Option.toList_some, List.foldlM_cons, List.foldlM_nil, bind_pure,
        embedRegion_inlineStyle (inlineStyle?_kind inline), attach, if_neg kind]
      cases declarations? b config region with
      | error e => rfl
      | ok found => cases found <;> rfl
  all_goals rfl

/-- The nested texts in the body of a block. -/
def bodyRegions (config : Config) (element : Markup.Element) (start content : Token) :
    List Region :=
  match element with
  | .style => [contentRegion .styleBlock none content]
  | .script =>
    match startDialect? config start with
    | some type => [contentRegion .templateScript (some type) content]
    | none => []

theorem regions_block (config : Config) (element : Markup.Element) (value : String)
    (range : Range) (start content : Token) (finish : Option Token) :
    regions config (blockToken element value range start content finish) =
      (inlineStyle? start).toList ++ bodyRegions config element start content := by
  cases element with
  | style => rfl
  | script =>
    simp only [bodyRegions, startDialect?]
    unfold regions scriptRegions dialect?
    simp only [blockToken, Markup.Element.kind, Extensions.token?, Extensions.get?, startRegions,
      Option.bind_some]
    cases start.ext.text? .type with
    | none => rfl
    | some type =>
      cases h : config.isDialect type with
      | false =>
        simp only [h]
        rfl
      | true => simp only [h, if_true]

section Block

variable (b : Backends) (nested : NestedReader) (config : Config) (element : Markup.Element)
  (value : String) (range : Range) (start content : Token) (finish : Option Token)

theorem embedStart_block :
    (inlineStyle? start).toList.foldlM (embedRegion b nested config)
        (blockToken element value range start content finish) = (do
      let first ← readStart b config start
      return blockToken element value range first content finish) := by
  have other : (blockToken element value range start content finish).kind ≠ .tagStart := by
    cases element <;> exact fun h => nomatch h
  refine Eq.trans (embed_startRegions nested other) ?_
  change ((readStart b config start).map fun after => some (Payload.token after)).map _ = _
  cases readStart b config start <;> rfl

theorem embedBody_block (first : Token) :
    (bodyRegions config element start content).foldlM (embedRegion b nested config)
        (blockToken element value range first content finish) = (do
      let body ← readBody b nested config element start content
      return blockToken element value range first body finish) := by
  cases element with
  | style =>
    simp only [bodyRegions, readBody, List.foldlM_cons, List.foldlM_nil, bind_pure, embedRegion,
      payload?, contentRegion]
    cases b.style.tokenize config.template (.ofRange content.range) content.value <;> rfl
  | script =>
    simp only [bodyRegions, readBody]
    cases startDialect? config start with
    | none => rfl
    | some type =>
      simp only [List.foldlM_cons, List.foldlM_nil, bind_pure, embedRegion, payload?,
        contentRegion]
      cases config.nested? with
      | none => rfl
      | some inner =>
        simp only
        cases nested inner (.ofRange content.range) content.value <;> rfl

theorem embedToken_block :
    embedToken b nested config (blockToken element value range start content finish) = (do
      let first ← readStart b config start
      let body ← readBody b nested config element start content
      return blockToken element value range first body finish) := by
  rw [embedToken, regions_block, List.foldlM_append, embedStart_block, bind_assoc]
  refine bind_congr fun first => ?_
  rw [pure_bind, embedBody_block]

end Block

theorem token_block (locator : Locator) (offset : Nat) (element : Markup.Element)
    (start : Markup.TagText) (content : List Char) (finish : Option Markup.TagText) :
    (Markup.Piece.block element start content finish).token locator offset =
      let text := (Markup.Piece.block element start content finish).text
      let contentAt := offset + Text.bytes start.text
      blockToken element (String.ofList text)
        (locator.range offset (offset + Text.bytes text))
        (Markup.placeStart locator offset element start)
        (Markup.placeText locator contentAt .text content)
        (finish.map (Markup.placeTagText locator (contentAt + Text.bytes content) .tagEnd)) := by
  cases finish <;> rfl

theorem placeText_value (locator : Locator) (offset : Nat) (kind : TokenKind) (text : List Char) :
    (Markup.placeText locator offset kind text).value = String.ofList text := rfl

/-- The token of a start tag with its declared type, if that is kept. -/
def startToken (locator : Locator) (offset : Nat) (tag : Markup.TagText) (type : Option String) :
    Token :=
  ⟨.tagStart, String.ofList tag.text, locator.range offset (offset + Text.bytes tag.text),
    some (Markup.placeTag locator offset tag.tag),
    ⟨none, none, none, type.map .text, none, none, none⟩⟩

theorem placeTagText_tagStart (locator : Locator) (offset : Nat) (tag : Markup.TagText) :
    Markup.placeTagText locator offset .tagStart tag = startToken locator offset tag none := rfl

theorem type_startToken (locator : Locator) (offset : Nat) (tag : Markup.TagText)
    (type : Option String) : (startToken locator offset tag type).ext.text? .type = type := by
  cases type <;> rfl

theorem placeStart_script (locator : Locator) (offset : Nat) (tag : Markup.TagText) :
    Markup.placeStart locator offset .script tag =
      startToken locator offset tag (Markup.declaredType? tag.tag) := by
  unfold Markup.placeStart
  cases Markup.declaredType? tag.tag <;> rfl

theorem placeStart_eq (locator : Locator) (offset : Nat) (element : Markup.Element)
    (tag : Markup.TagText) :
    ∃ type, Markup.placeStart locator offset element tag = startToken locator offset tag type := by
  cases element with
  | style => exact ⟨none, rfl⟩
  | script => exact ⟨_, placeStart_script locator offset tag⟩

/-- What the token of a piece becomes when its nested texts are read. -/
inductive Embedded (b : Backends) (nested : NestedReader) (config : Config) (locator : Locator)
    (offset : Nat) : Markup.Piece → Token → Prop where
  | plain (kind : TokenKind) (text : List Char) :
    Embedded b nested config locator offset (.plain kind text)
      (Markup.placeText locator offset kind text)
  | endTag (tag : Markup.TagText) :
    Embedded b nested config locator offset (.endTag tag)
      (Markup.placeTagText locator offset .tagEnd tag)
  | startTag {tag : Markup.TagText} {first : Token}
    (inline : readStart b config (startToken locator offset tag none) = .ok first) :
    Embedded b nested config locator offset (.startTag tag) first
  | block {element : Markup.Element} {start : Markup.TagText} {content : List Char}
    {finish : Option Markup.TagText} {type : Option String} {first body : Token}
    (typed : Markup.placeStart locator offset element start = startToken locator offset start type)
    (inline : readStart b config (startToken locator offset start type) = .ok first)
    (inside : readBody b nested config element (startToken locator offset start type)
      (Markup.placeText locator (offset + Text.bytes start.text) .text content) = .ok body) :
    Embedded b nested config locator offset (.block element start content finish)
      (blockToken element (String.ofList (Markup.Piece.block element start content finish).text)
        (locator.range offset
          (offset + Text.bytes (Markup.Piece.block element start content finish).text))
        first body
        (finish.map (Markup.placeTagText locator
          (offset + Text.bytes start.text + Text.bytes content) .tagEnd)))

theorem embedded_of_embedToken {b : Backends} {nested : NestedReader} {config : Config}
    {locator : Locator} {offset : Nat} {piece : Markup.Piece} {token : Token}
    (h : embedToken b nested config (piece.token locator offset) = .ok token) :
    Embedded b nested config locator offset piece token := by
  cases piece with
  | plain kind text =>
    rw [Markup.Piece.token, Markup.placeText, embedToken_plain] at h
    cases h
    exact .plain kind text
  | endTag tag =>
    cases h
    exact .endTag tag
  | startTag tag =>
    rw [Markup.Piece.token, placeTagText_tagStart, embedToken_tagStart _ _ _ rfl] at h
    exact .startTag h
  | block element start content finish =>
    obtain ⟨type, typed⟩ := placeStart_eq locator offset element start
    rw [token_block, typed] at h
    simp only [embedToken_block] at h
    obtain ⟨first, inline, h⟩ := bind_eq_ok.mp h
    obtain ⟨body, inside, h⟩ := bind_eq_ok.mp h
    cases h
    exact .block typed inline inside

/-- Every token of a document is the token of a piece, with what was read from it. -/
theorem exists_of_mem_embedWith {b : Backends} {nested : NestedReader} {config : Config}
    {locator : Locator} {offset : Nat} {found : List Markup.Piece} {tokens : List Token}
    {token : Token}
    (h : embedWith b nested config (Markup.place locator offset found) = .ok tokens)
    (mem : token ∈ tokens) :
    ∃ piece offset, piece ∈ found ∧
      embedToken b nested config (piece.token locator offset) = .ok token := by
  induction found generalizing offset tokens with
  | nil =>
    cases h
    cases mem
  | cons piece rest ih =>
    simp only [Markup.place, embedWith, List.mapM_cons] at h
    obtain ⟨first, hfirst, h⟩ := bind_eq_ok.mp h
    obtain ⟨more, hmore, h⟩ := bind_eq_ok.mp h
    cases h
    rcases List.mem_cons.mp mem with rfl | mem
    · exact ⟨piece, offset, List.mem_cons_self, hfirst⟩
    · obtain ⟨other, further, inside, made⟩ := ih hmore mem
      exact ⟨other, further, List.mem_cons_of_mem piece inside, made⟩

end Mosaic.Embedding

namespace Mosaic

open Outcome

/-- To show something of everything that is read as markup, show it of tokens whose nested markup
was read in the same way and has it already. -/
theorem readMarkup_induct {adapters : Template.Adapters}
    {motive : Config → Origin → String → List Token → Prop}
    (step : ∀ config origin source found tokens nested,
      Markup.pieces (adapters.scanner config.template) source.toList = .ok found →
      (∀ inner start text inside, nested inner start text = .ok inside →
        readMarkup (.withAdapters adapters) inner start text = .ok inside ∧
          motive inner start text inside) →
      Embedding.embedWith (.withAdapters adapters) nested config
        (Markup.place (.ofText source.toList origin) 0 found) = .ok tokens →
      motive config origin source tokens)
    {config : Config} {origin : Origin} {source : String} {tokens : List Token}
    (h : readMarkup (.withAdapters adapters) config origin source = .ok tokens) :
    motive config origin source tokens := by
  induction hsize : source.length using Nat.strongRecOn generalizing config origin source tokens with
  | ind size ih =>
    subst hsize
    rw [readMarkup] at h
    obtain ⟨raw, hraw, hembed⟩ := bind_eq_ok.mp h
    obtain ⟨found, hfound, rfl⟩ := Markup.tokenize_eq_ok hraw
    refine step config origin source found tokens _ hfound ?_ hembed
    intro inner start text inside hinside
    split at hinside
    · next shorter => exact ⟨hinside, ih text.length shorter hinside rfl⟩
    · cases hinside

end Mosaic
