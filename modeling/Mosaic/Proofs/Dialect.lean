import Mathlib
import Mosaic.Proofs.Spot

/-! Scripts that hold markup. Whether the body of a script is read as markup depends on its type,
which is trimmed and put in lower case before it is looked up. The types in the settings are taken
as they are written, so one that is not trimmed and in lower case is never met. -/
namespace Mosaic

open Outcome Mosaic.Embedding

namespace Text

theorem isBlank_of_isAlpha {c : Char} (h : c.isAlpha = true) : isBlank c = false := by
  have letter : (65 ≤ c.toNat ∧ c.toNat ≤ 90) ∨ (97 ≤ c.toNat ∧ c.toNat ≤ 122) := by
    simpa [Char.isAlpha, Char.isUpper, Char.isLower, UInt32.le_iff_toNat_le] using h
  simp only [isBlank, blankRanges, inRanges]
  grind

theorem isBlank_toLower (c : Char) : isBlank c.toLower = isBlank c := by
  by_cases letter : c.isAlpha = true
  · have lowered := (Char.isAlpha_toLower_eq_isAlpha c).trans letter
    rw [isBlank_of_isAlpha letter, isBlank_of_isAlpha lowered]
  · have same : c.toLower = c := by
      apply Char.toLower_eq_of_not_isUpper
      intro upper
      rw [Char.isAlpha, upper] at letter
      exact letter rfl
    rw [same]

theorem lower_lower (s : List Char) : lower (lower s) = lower s := by
  unfold lower
  rw [List.map_map]
  apply List.map_congr_left
  intro c _
  exact Char.toLower_toLower_eq_toLower c

theorem lower_reverse (s : List Char) : lower s.reverse = (lower s).reverse := List.map_reverse

theorem trimStart_lower (s : List Char) : trimStart (lower s) = lower (trimStart s) := by
  unfold trimStart lower
  rw [List.dropWhile_map, show isBlank ∘ Char.toLower = isBlank from funext isBlank_toLower]

theorem trim_lower (s : List Char) : trim (lower s) = lower (trim s) := by
  unfold trim
  rw [trimStart_lower, ← lower_reverse, trimStart_lower, lower_reverse]

theorem trimStart_trim (s : List Char) : trimStart (trim s) = trim s := by
  have begins : trim s <+: trimStart s := List.rdropWhile_prefix isBlank (trimStart s)
  have clear := List.dropWhile_eq_self_iff.mp (List.dropWhile_idempotent isBlank s)
  apply List.dropWhile_eq_self_iff.mpr
  intro some
  rw [begins.getElem some]
  exact clear (Nat.lt_of_lt_of_le some begins.length_le)

theorem trim_trim (s : List Char) : trim (trim s) = trim s :=
  calc trim (trim s) = (trimStart (trim s)).rdropWhile isBlank := rfl
    _ = (trim s).rdropWhile isBlank := by rw [trimStart_trim]
    _ = trim s := List.rdropWhile_idempotent isBlank (trimStart s)

end Text

namespace Markup

/-- A type as it is looked up: trimmed and in lower case. -/
def foldType (type : String) : String := String.ofList (Text.lower (Text.trim type.toList))

theorem declaredType?_eq (tag : Tag) : declaredType? tag = (tag.attrValue? "type").map foldType :=
  rfl

theorem foldType_foldType (type : String) : foldType (foldType type) = foldType type := by
  rw [foldType, foldType, String.toList_ofList, Text.trim_lower, Text.lower_lower, Text.trim_trim]

end Markup

open Markup (foldType)

/-- What becomes of the body of a script with this start tag, where scripts of some types hold
markup: the body has the tokens of its markup if its type is one of those, or else nothing. -/
structure Gated (adapters : Template.Adapters) (scripts : Option ScriptTemplates) (tag : Tag)
    (content : Token) : Prop where
  taken {value : String} {templates : ScriptTemplates} :
    tag.attrValue? "type" = some value → scripts = some templates →
    foldType value ∈ templates.types →
    ∃ tokens, dispatch (.withAdapters adapters) ⟨templates.template, some templates⟩ .markup
        (.ofRange content.range) content.value = .ok (.markup tokens) ∧
      content.ext = { Extensions.empty with tokens := some (.markup tokens) }
  left :
    (∀ value templates, tag.attrValue? "type" = some value → scripts = some templates →
      foldType value ∉ templates.types) →
    content.ext = .empty

/-- A script block in which the body is read as its type asks for. -/
def GatedBlock (adapters : Template.Adapters) (scripts : Option ScriptTemplates) (block : Token) :
    Prop :=
  ∃ start tag content, block.ext.token? .start = some start ∧ start.detail = some tag ∧
    block.ext.token? .content = some content ∧ Gated adapters scripts tag content

section Blocks

variable {adapters : Template.Adapters} {config : Config} {locator : Locator} {offset : Nat}
  {owner : Token}

/-- The tree of a start tag holds no block. -/
theorem not_block_of_readStart {tag : Markup.TagText} {type : Option String} {first : Token}
    (h : readStart (.withAdapters adapters) config (startToken locator offset tag type) =
      .ok first)
    (within : Within first owner) : owner.kind.isBlock = false := by
  rcases within_start h within with rfl | leaf
  · rw [readStart_kind h]
    rfl
  · exact leaf.whole

/-- The tree of a body holds blocks where the body was read as markup. -/
theorem block_of_readBody {nested : NestedReader} {element : Markup.Element} {start body : Token}
    {text : List Char}
    (h : readBody (.withAdapters adapters) nested config element start
      (Markup.placeText locator offset .text text) = .ok body)
    (within : Within body owner) (block : owner.kind.isBlock = true) :
    ∃ templates origin text tokens, config.scripts = some templates ∧
      nested ⟨templates.template, some templates⟩ origin text = .ok tokens ∧
      ∃ top ∈ tokens, Within top owner := by
  rcases within_body h within with rfl | leaf |
    ⟨templates, origin, text, tokens, settings, read, -, further⟩
  · rcases readBody_eq_ok h with rfl | ⟨tokens, -, rfl⟩ | ⟨inner, tokens, -, rfl⟩ <;> cases block
  · exact nomatch leaf.whole.symm.trans block
  · exact ⟨templates, origin, text, tokens, settings, read, further⟩

theorem type_placeStart (locator : Locator) (offset : Nat) (tag : Markup.TagText) :
    (Markup.placeStart locator offset .script tag).ext.text? .type =
      (tag.tag.attrValue? "type").map foldType := by
  rw [placeStart_script, type_startToken, Markup.declaredType?_eq]

theorem readStart_detail {b : Backends} {start first : Token}
    (h : readStart b config start = .ok first) : first.detail = start.detail := by
  rcases readStart_eq_ok h with rfl | ⟨region, kept, -, -, rfl⟩ <;> rfl

/-- The blocks in what is read as markup by a nested reader. -/
def GatedReader (adapters : Template.Adapters) (scripts : Option ScriptTemplates)
    (nested : NestedReader) : Prop :=
  ∀ inner origin text tokens, inner.scripts = scripts → nested inner origin text = .ok tokens →
    readMarkup (.withAdapters adapters) inner origin text = .ok tokens ∧
    ∀ top ∈ tokens, ∀ block, Within top block → block.kind = .scriptBlock →
      GatedBlock adapters scripts block

theorem gated_of_readBody {nested : NestedReader}
    (inner : GatedReader adapters config.scripts nested) {start : Markup.TagText} {behind : Nat}
    {text : List Char} {body : Token}
    (h : readBody (.withAdapters adapters) nested config .script
      (Markup.placeStart locator offset .script start)
      (Markup.placeText locator behind .text text) = .ok body) :
    Gated adapters config.scripts (Markup.placeTag locator offset start.tag) body := by
  have declared := type_placeStart locator offset start
  rw [← Markup.attrValue?_placeTag locator offset] at declared
  rcases readBody_script h with ⟨rfl, unmet⟩ |
    ⟨found, templates, tokens, has, settings, met, read, rfl⟩
  · constructor
    · intro value templates valued settings met
      rw [valued] at declared
      exact absurd met (unmet _ _ declared settings)
    · intro unmet
      rfl
  · rw [declared] at has
    obtain ⟨value, valued, rfl⟩ := Option.map_eq_some_iff.mp has
    constructor
    · intro other others _ same _
      cases settings.symm.trans same
      refine ⟨tokens, ?_, rfl⟩
      exact map_eq_ok.mpr ⟨tokens, (inner _ _ _ _ settings.symm read).1, rfl⟩
    · intro unmet
      exact absurd met (unmet value templates valued settings)

theorem gated_embedToken {nested : NestedReader}
    (inner : GatedReader adapters config.scripts nested) {piece : Markup.Piece} {token : Token}
    (spelled : piece.Spelled)
    (h : embedToken (.withAdapters adapters) nested config (piece.token locator offset) =
      .ok token)
    (within : Within token owner) (script : owner.kind = .scriptBlock) :
    GatedBlock adapters config.scripts owner := by
  have isBlock : owner.kind.isBlock = true := by rw [script]; rfl
  -- a script block is either the token itself or stands in what its body was read to, and there
  -- the nested reader has dealt with it
  cases embedded_of_embedToken h with
  | plain kind text =>
    rw [within.eq_of_empty rfl] at isBlock
    exact nomatch spelled.2.symm.trans isBlock
  | endTag tag =>
    rw [within.eq_of_empty rfl] at isBlock
    cases isBlock
  | startTag inline => exact nomatch (not_block_of_readStart inline within).symm.trans isBlock
  | @block element start content finish type first body typed hfirst hbody =>
    rcases within_block within with rfl | within | within | ⟨part, last, within⟩
    · cases element with
      | style => cases script
      | script =>
        have detail := readStart_detail hfirst
        refine ⟨first, _, body, rfl, detail, rfl, ?_⟩
        rw [← typed] at hbody
        exact gated_of_readBody inner hbody
    · exact nomatch (not_block_of_readStart hfirst within).symm.trans isBlock
    · obtain ⟨templates, origin, text, tokens, settings, read, top, mem, within⟩ :=
        block_of_readBody hbody within isBlock
      exact (inner _ _ _ _ settings.symm read).2 top mem owner within script
    · obtain ⟨tag, -, rfl⟩ := Option.map_eq_some_iff.mp last
      rw [within.eq_of_empty rfl] at isBlock
      cases isBlock

theorem gated_readMarkup {origin : Origin} {source : String} {tokens : List Token}
    (h : readMarkup (.withAdapters adapters) config origin source = .ok tokens) :
    ∀ top ∈ tokens, ∀ block, Within top block → block.kind = .scriptBlock →
      GatedBlock adapters config.scripts block := by
  refine readMarkup_induct (motive := fun config _ _ tokens => ∀ top ∈ tokens, ∀ block,
    Within top block → block.kind = .scriptBlock → GatedBlock adapters config.scripts block) ?_ h
  intro config origin source found tokens nested cut inner read top mem block within script
  obtain ⟨piece, offset, there, made⟩ := exists_of_mem_embedWith read mem
  refine gated_embedToken ?_ (Markup.pieces_spelled cut piece there) made within script
  intro settings start text tokens same read
  rw [← same]
  exact inner settings start text tokens read

end Blocks

/-- Scripts at every depth: where the declared type, trimmed and in lower case, is one of those in
the settings, the body has the tokens of its markup, read with the settings for scripts; otherwise
nothing hangs at it. In particular nothing does if every type in the settings differs from the
declared one by more than the blanks at its ends and the case of its letters. -/
theorem gated_of_dispatch {adapters : Template.Adapters} {config : Config} {origin : Origin}
    {source : String} {ast : Ast} {top block : Token}
    (h : dispatch (.withAdapters adapters) config .markup origin source = .ok ast)
    (mem : top ∈ ast.tokens) (within : Within top block) (script : block.kind = .scriptBlock) :
    ∃ start tag content, block.ext.token? .start = some start ∧ start.detail = some tag ∧
      block.ext.token? .content = some content ∧ Gated adapters config.scripts tag content ∧
      ((∀ value templates type, tag.attrValue? "type" = some value →
          config.scripts = some templates → type ∈ templates.types →
          foldType type ≠ foldType value) →
        content.ext = .empty) := by
  obtain ⟨tokens, read, rfl⟩ := map_eq_ok.mp h
  obtain ⟨start, tag, content, first, detail, body, gated⟩ :=
    gated_readMarkup read top mem block within script
  refine ⟨start, tag, content, first, detail, body, gated, ?_⟩
  intro foreign
  apply gated.left
  intro value templates valued settings met
  exact foreign value templates (foldType value) valued settings met
    (Markup.foldType_foldType value)

/-- What a script block declares as its type, and whether its body has tokens. -/
def scriptView (block : Token) : Option (Option String × Bool) :=
  if block.kind = .scriptBlock then do
    let start ← block.ext.token? .start
    let tag ← start.detail
    let content ← block.ext.token? .content
    return (tag.attrValue? "type", content.ext.tokens.isSome)
  else none

theorem exists_of_scriptView {block : Token} {type : Option String} {read : Bool}
    (h : scriptView block = some (type, read)) :
    block.kind = .scriptBlock ∧ ∃ start tag content, block.ext.token? .start = some start ∧
      start.detail = some tag ∧ block.ext.token? .content = some content ∧
      tag.attrValue? "type" = type ∧ content.ext.tokens.isSome = read := by
  unfold scriptView at h
  split at h
  · next script =>
    obtain ⟨start, first, h⟩ := Option.bind_eq_some_iff.mp h
    obtain ⟨tag, detail, h⟩ := Option.bind_eq_some_iff.mp h
    obtain ⟨content, body, h⟩ := Option.bind_eq_some_iff.mp h
    cases h
    exact ⟨script, start, tag, content, first, detail, body, rfl, rfl⟩
  · cases h

/-- The settings of a document in which scripts of one type hold markup. -/
def oneType (type : String) : Config := ⟨.standard, some ⟨[type], ⟨"", "[[", "]]", none⟩⟩⟩

/-- A script in a script. -/
def scriptInScript : String := "<script type=' Text/X '><script type=text/X>[[b]]</script>"

theorem gated_of_dispatch_scriptInScript :
    ∃ ast top block start tag content, dispatch .builtin (oneType "text/x") .markup .zero
        scriptInScript = .ok ast ∧
      top ∈ ast.tokens ∧ Within top block ∧ block.kind = .scriptBlock ∧
      block.ext.token? .start = some start ∧ start.detail = some tag ∧
      block.ext.token? .content = some content ∧ tag.attrValue? "type" = some "text/X" ∧
      ∃ tokens, dispatch .builtin ⟨⟨"", "[[", "]]", none⟩, (oneType "text/x").scripts⟩ .markup
          (.ofRange content.range) content.value = .ok (.markup tokens) ∧
        content.ext = { Extensions.empty with tokens := some (.markup tokens) } := by
  have seen : (readMarkup .builtin (oneType "text/x") .zero scriptInScript).toOption.bind
      (fun tokens => tokens[0]?.bind fun top => (Spot.markup top)[0]?.bind scriptView) =
        some (some "text/X", true) := by
    decide +kernel
  obtain ⟨tokens, markup, seen⟩ := exists_of_toOption_bind seen
  obtain ⟨top, atTop, seen⟩ := Option.bind_eq_some_iff.mp seen
  obtain ⟨block, inside, seen⟩ := Option.bind_eq_some_iff.mp seen
  obtain ⟨script, start, tag, content, first, detail, body, typed, -⟩ := exists_of_scriptView seen
  have whole : dispatch .builtin (oneType "text/x") .markup .zero scriptInScript =
      .ok (.markup tokens) := map_eq_ok.mpr ⟨tokens, markup, rfl⟩
  have mem : top ∈ tokens := List.mem_of_getElem? atTop
  have within : Within top block := Spot.within_markup (List.mem_of_getElem? inside)
  obtain ⟨start', tag', content', first', detail', body', gated, -⟩ :=
    @gated_of_dispatch .empty _ _ _ _ _ _ whole mem within script
  cases first.symm.trans first'
  cases detail.symm.trans detail'
  cases body.symm.trans body'
  exact ⟨_, top, block, start, tag, content, whole, mem, within, script, first, detail, body,
    typed, gated.taken typed rfl (by decide)⟩

/-- A type in the settings with a capital letter is not met by the script that declares just
this type. -/
theorem not_read_of_capital :
    ∃ ast block start tag content, dispatch .builtin (oneType "Text/X") .markup .zero
        "<script type='Text/X'>b</script>" = .ok ast ∧
      block ∈ ast.tokens ∧ block.kind = .scriptBlock ∧
      block.ext.token? .start = some start ∧ start.detail = some tag ∧
      block.ext.token? .content = some content ∧ tag.attrValue? "type" = some "Text/X" ∧
      (oneType "Text/X").isDialect "Text/X" = true ∧ content.ext.tokens = none := by
  have seen : (readMarkup .builtin (oneType "Text/X") .zero
      "<script type='Text/X'>b</script>").toOption.bind (fun tokens =>
        tokens[0]?.bind scriptView) = some (some "Text/X", false) := by
    decide +kernel
  obtain ⟨tokens, markup, seen⟩ := exists_of_toOption_bind seen
  obtain ⟨block, atTop, seen⟩ := Option.bind_eq_some_iff.mp seen
  obtain ⟨script, start, tag, content, first, detail, body, typed, none⟩ := exists_of_scriptView seen
  refine ⟨.markup tokens, block, start, tag, content, ?_, ?_, script, first, detail, body, typed,
    by decide, Option.not_isSome_iff_eq_none.mp (Bool.not_eq_true _ ▸ none)⟩
  · exact map_eq_ok.mpr ⟨tokens, markup, rfl⟩
  · exact List.mem_of_getElem? atTop

end Mosaic
