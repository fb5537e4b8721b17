import Mosaic.Proofs.Embedding.Parts

/-! What becomes of a token of any shape, whether a tokenizer made it or not, when its nested texts
are read. A start tag may get style tokens, and the content part of a block the tokens of its body;
parts that are missing stay missing, slots that are filled already are filled anew, and nothing
else changes. -/
namespace Mosaic.Embedding

open Outcome

/-- What becomes of a start tag. Its inline style stays text if it cannot be told apart from the
wrapper that it is read in. -/
inductive StartEffect (b : Backends) (config : Config) (start : Token) : Token → Prop
  | unstyled : (∀ region, ¬ InlineStyle start region) → StartEffect b config start start
  | text {region : Region} : InlineStyle start region → declarations? b config region = .ok none →
    StartEffect b config start start
  | styled {region : Region} {kept : List Token} : InlineStyle start region →
    declarations? b config region = .ok (some kept) →
    StartEffect b config start (start.attach .styleTokens (.style kept))

/-- The start part of a block declares a type that is one of those in the settings. -/
def Declares (scripts : ScriptTemplates) (block : Token) : Prop :=
  ∃ start type, block.ext.start = some (.token start) ∧ start.ext.type = some (.text type) ∧
    type ∈ scripts.types

/-- What becomes of the content part of a block. -/
inductive BodyEffect (b : Backends) (config : Config) (block content : Token) : Token → Prop
  | style {ast : Ast} : block.kind = .styleBlock →
    dispatch b config .style (.ofRange content.range) content.value = .ok ast →
    BodyEffect b config block content (content.attach .tokens (.style ast.tokens))
  | markup {scripts : ScriptTemplates} {ast : Ast} : block.kind = .scriptBlock →
    config.scripts = some scripts → Declares scripts block →
    dispatch b ⟨scripts.template, some scripts⟩ .markup (.ofRange content.range) content.value =
      .ok ast →
    BodyEffect b config block content (content.attach .tokens (.markup ast.tokens))
  | script : block.kind = .scriptBlock →
    (∀ scripts, config.scripts = some scripts → ¬ Declares scripts block) →
    BodyEffect b config block content content

/-- What becomes of what hangs in a slot: a token changes, anything else stays. -/
inductive PartEffect (change : Token → Token → Prop) : Option Payload → Option Payload → Prop
  | token {part after : Token} : change part after →
    PartEffect change (some (.token part)) (some (.token after))
  | other {held : Option Payload} : (∀ part, held ≠ some (.token part)) →
    PartEffect change held held

/-- What becomes of a token. -/
inductive Effect (b : Backends) (config : Config) : Token → Token → Prop
  | startTag {start after : Token} : start.kind = .tagStart → StartEffect b config start after →
    Effect b config start after
  | block {block : Token} {first body : Option Payload} : block.kind.isBlock = true →
    PartEffect (StartEffect b config) block.ext.start first →
    PartEffect (BodyEffect b config block) block.ext.content body →
    Effect b config block { block with ext := { block.ext with start := first, content := body } }
  | plain {token : Token} : token.kind ≠ .tagStart → token.kind.isBlock = false →
    Effect b config token token

/-- Two tokens that differ in nothing but some slots. -/
structure SameBut (free : List Slot) (before after : Token) : Prop where
  kind : after.kind = before.kind
  value : after.value = before.value
  range : after.range = before.range
  detail : after.detail = before.detail
  slots : ∀ slot, slot ∉ free → after.ext.get? slot = before.ext.get? slot

/-- The slots that may change in a token of a kind. -/
def freeSlots : TokenKind → List Slot
  | .tagStart => [.styleTokens]
  | .styleBlock | .scriptBlock => [.start, .content]
  | _ => []

/-- Nothing changes but style tokens in a start tag and tokens in a content part. -/
structure Framed (before after : Token) : Prop where
  same : SameBut (freeSlots before.kind) before after
  start : before.kind.isBlock = true →
    PartEffect (SameBut [.styleTokens]) before.ext.start after.ext.start
  content : before.kind.isBlock = true →
    PartEffect (SameBut [.tokens]) before.ext.content after.ext.content

section Frame

variable {b : Backends} {config : Config}

theorem SameBut.refl (free : List Slot) (token : Token) : SameBut free token token :=
  ⟨rfl, rfl, rfl, rfl, fun _ _ => rfl⟩

theorem sameBut_attach (token : Token) (slot : Slot) (payload : Payload) :
    SameBut [slot] token (token.attach slot payload) := by
  refine ⟨rfl, rfl, rfl, rfl, ?_⟩
  intro other free
  rw [Token.attach, Extensions.get?_insert, if_neg (by simpa using free)]

theorem StartEffect.sameBut {start after : Token} (h : StartEffect b config start after) :
    SameBut [.styleTokens] start after := by
  cases h with
  | unstyled => exact .refl _ start
  | text => exact .refl _ start
  | styled => exact sameBut_attach start _ _

theorem BodyEffect.sameBut {block content after : Token}
    (h : BodyEffect b config block content after) : SameBut [.tokens] content after := by
  cases h with
  | style => exact sameBut_attach content _ _
  | markup => exact sameBut_attach content _ _
  | script => exact .refl _ content

theorem PartEffect.mono {change other : Token → Token → Prop}
    (imp : ∀ part after, change part after → other part after) {before after : Option Payload}
    (h : PartEffect change before after) : PartEffect other before after := by
  cases h with
  | token changed => exact .token (imp _ _ changed)
  | other free => exact .other free

theorem Effect.framed {before after : Token} (h : Effect b config before after) :
    Framed before after := by
  cases h with
  | startTag kind effect =>
    refine ⟨?_, ?_, ?_⟩
    · rw [kind]
      exact effect.sameBut
    · intro block
      rw [kind] at block
      cases block
    · intro block
      rw [kind] at block
      cases block
  | block kind first body =>
    refine ⟨⟨rfl, rfl, rfl, rfl, ?_⟩, fun _ => ?_, fun _ => ?_⟩
    · intro slot fixed
      cases hkind : before.kind with
      | styleBlock | scriptBlock =>
        rw [hkind] at fixed
        cases slot with
        | start | content => exact absurd fixed (by decide)
        | finish | type | tokens | styleTokens | ast => rfl
      | _ =>
        rw [hkind] at kind
        cases kind
    · exact first.mono fun _ _ => StartEffect.sameBut
    · exact body.mono fun _ _ => BodyEffect.sameBut
  | plain other whole =>
    refine ⟨.refl _ before, ?_, ?_⟩
    · intro block
      rw [whole] at block
      cases block
    · intro block
      rw [whole] at block
      cases block

end Frame

section Parts

variable {b : Backends} {config : Config}

theorem changePart_eq_ok {change : Token → Except BackendError Token}
    {effect : Token → Token → Prop}
    (same : ∀ part after, change part = .ok after ↔ effect part after)
    {held after : Option Payload} :
    changePart change held = .ok after ↔ PartEffect effect held after := by
  constructor
  · intro h
    unfold changePart at h
    split at h
    · obtain ⟨part, changed, rfl⟩ := map_eq_ok.mp h
      exact .token ((same _ _).mp changed)
    · next other =>
      cases h
      exact .other other
  · intro h
    cases h with
    | token changed => exact map_eq_ok.mpr ⟨_, (same _ _).mpr changed, rfl⟩
    | other free =>
      unfold changePart
      split
      · next part => exact absurd rfl (free part)
      · rfl

/-- Read the content part of a block. -/
def readContent (b : Backends) (config : Config) (block content : Token) :
    Except BackendError Token :=
  if block.kind = .styleBlock then
    (dispatch b config .style (.ofRange content.range) content.value).map fun ast =>
      content.attach .tokens (.style ast.tokens)
  else
    match dialect? config block, config.nested? with
    | some _, some inner =>
      (dispatch b inner .markup (.ofRange content.range) content.value).map fun ast =>
        content.attach .tokens (.markup ast.tokens)
    | _, _ => .ok content

theorem readStart_iff {start after : Token} :
    readStart b config start = .ok after ↔ StartEffect b config start after := by
  constructor
  · intro h
    unfold readStart at h
    split at h
    · next unstyled =>
      cases h
      refine .unstyled fun region inline => ?_
      exact nomatch unstyled.symm.trans (inlineStyle?_eq_some.mpr inline)
    · next region inline =>
      have inline := inlineStyle?_eq_some.mp inline
      obtain ⟨kept, read, made⟩ := bind_eq_ok.mp h
      cases kept with
      | none =>
        cases made
        exact .text inline read
      | some kept =>
        cases made
        exact .styled inline read
  · intro h
    cases h with
    | unstyled unstyled =>
      cases inline : inlineStyle? start with
      | none => rw [readStart, inline]
      | some region => exact absurd (inlineStyle?_eq_some.mp inline) (unstyled region)
    | text inline read =>
      rw [readStart, inlineStyle?_eq_some.mpr inline]
      exact bind_eq_ok.mpr ⟨none, read, rfl⟩
    | styled inline read =>
      rw [readStart, inlineStyle?_eq_some.mpr inline]
      exact bind_eq_ok.mpr ⟨some _, read, rfl⟩

theorem token?_eq_some {ext : Extensions} {slot : Slot} {part : Token} :
    ext.token? slot = some part ↔ ext.get? slot = some (.token part) := by
  unfold Extensions.token?
  constructor
  · intro h
    split at h
    · next held =>
      cases h
      exact held
    · cases h
  · intro h
    rw [h]

theorem text?_eq_some {ext : Extensions} {slot : Slot} {text : String} :
    ext.text? slot = some text ↔ ext.get? slot = some (.text text) := by
  unfold Extensions.text?
  constructor
  · intro h
    split at h
    · next held =>
      cases h
      exact held
    · cases h
  · intro h
    rw [h]

/-- A type is kept as a dialect if it is declared and known, and then there are settings for it. -/
theorem dialect?_isSome {block : Token} :
    (dialect? config block).isSome = true ↔
      ∃ scripts, config.scripts = some scripts ∧ Declares scripts block := by
  have declared : ∀ type, (block.ext.token? .start).bind (·.ext.text? .type) = some type ↔
      ∃ start, block.ext.start = some (.token start) ∧ start.ext.type = some (.text type) := by
    intro type
    simp only [Option.bind_eq_some_iff, token?_eq_some, text?_eq_some]
    rfl
  unfold dialect? Config.isDialect
  constructor
  · intro h
    split at h
    · next type found =>
      obtain ⟨start, hung, typed⟩ := (declared type).mp found
      cases settings : config.scripts with
      | none =>
        rw [settings] at h
        cases h
      | some scripts =>
        rw [settings] at h
        refine ⟨scripts, rfl, start, type, hung, typed, ?_⟩
        by_cases known : type ∈ scripts.types
        · exact known
        · rw [if_neg (by simpa using known)] at h
          cases h
    · cases h
  · rintro ⟨scripts, settings, start, type, hung, typed, known⟩
    rw [(declared type).mpr ⟨start, hung, typed⟩, settings]
    dsimp only
    rw [if_pos (decide_eq_true known)]
    rfl

theorem scriptBlock_of_isBlock {kind : TokenKind} (block : kind.isBlock = true)
    (other : kind ≠ .styleBlock) : kind = .scriptBlock := by
  cases kind with
  | scriptBlock => rfl
  | styleBlock => exact absurd rfl other
  | _ => cases block

theorem readContent_iff {block content after : Token} (kind : block.kind.isBlock = true) :
    readContent b config block content = .ok after ↔ BodyEffect b config block content after := by
  unfold readContent
  by_cases style : block.kind = .styleBlock
  · rw [if_pos style]
    constructor
    · intro h
      obtain ⟨ast, read, rfl⟩ := map_eq_ok.mp h
      exact .style style read
    · intro h
      cases h with
      | style _ read => exact map_eq_ok.mpr ⟨_, read, rfl⟩
      | markup other => exact nomatch style.symm.trans other
      | script other => exact nomatch style.symm.trans other
  · have script := scriptBlock_of_isBlock kind style
    rw [if_neg style]
    cases dialect : dialect? config block with
    | none =>
      have undeclared : ¬ ∃ scripts, config.scripts = some scripts ∧ Declares scripts block := by
        rw [← dialect?_isSome, dialect]
        exact Bool.false_ne_true
      constructor
      · intro h
        cases h
        exact .script script fun scripts settings known => undeclared ⟨scripts, settings, known⟩
      · intro h
        cases h with
        | style other => exact absurd other style
        | markup _ settings known => exact absurd ⟨_, settings, known⟩ undeclared
        | script => rfl
    | some type =>
      obtain ⟨scripts, settings, known⟩ := dialect?_isSome.mp (Option.isSome_of_eq_some dialect)
      rw [Config.nested?, settings]
      constructor
      · intro h
        obtain ⟨ast, read, rfl⟩ := map_eq_ok.mp h
        exact .markup script settings known read
      · intro h
        cases h with
        | style other => exact absurd other style
        | markup _ other _ read =>
          cases settings.symm.trans other
          exact map_eq_ok.mpr ⟨_, read, rfl⟩
        | script _ undeclared => exact absurd known (undeclared scripts settings)

theorem scriptRegions_eq (block : Token) :
    scriptRegions config block = ((dialect? config block).bind fun type =>
      (block.ext.token? .content).map (contentRegion .templateScript (some type))).toList := by
  unfold scriptRegions
  cases dialect? config block with
  | none => rfl
  | some type => cases block.ext.token? .content <;> rfl

/-- The nested texts of a block behind its start part. -/
def contentRegions (config : Config) (block : Token) : List Region :=
  if block.kind = .styleBlock then
    ((block.ext.token? .content).map (contentRegion .styleBlock none)).toList
  else scriptRegions config block

/-- The body of a block is read for its content part, whatever became of its start part. -/
theorem embed_contentRegions (block : Token) (first : Option Payload) :
    (contentRegions config block).foldlM (embedRegion b (readMarkup b) config)
        { block with ext := { block.ext with start := first } } =
      (changePart (readContent b config block) block.ext.content).map fun body =>
        { block with ext := { block.ext with start := first, content := body } } := by
  rcases block with ⟨kind, value, range, detail, start, content, finish, type, tokens, styles, ast⟩
  unfold contentRegions
  rcases content with _ | ⟨content | _ | _ | _ | _⟩
  case some.token =>
    simp only [changePart, readContent]
    by_cases style : kind = .styleBlock
    · rw [if_pos style, if_pos style]
      change ([contentRegion .styleBlock none content]).foldlM _ _ = _
      simp only [List.foldlM_cons, List.foldlM_nil, bind_pure, embedRegion, payload?,
        contentRegion, dispatch]
      cases b.style.tokenize config.template (.ofRange content.range) content.value <;> rfl
    · rw [if_neg style, if_neg style, scriptRegions]
      cases dialect? config _ with
      | none => rfl
      | some type =>
        change ([contentRegion .templateScript (some type) content]).foldlM _ _ = _
        simp only [List.foldlM_cons, List.foldlM_nil, bind_pure, embedRegion, payload?,
          contentRegion, dispatch]
        cases config.nested? with
        | none => rfl
        | some inner =>
          dsimp only
          cases readMarkup b inner (.ofRange content.range) content.value <;> rfl
  all_goals
    -- no token hangs in the slot of the content part, so that nothing is nested there
    rw [scriptRegions]
    by_cases style : kind = .styleBlock
    · rw [if_pos style]
      rfl
    · rw [if_neg style]
      cases dialect? config _ <;> rfl

theorem regions_of_isBlock {block : Token} (kind : block.kind.isBlock = true) :
    regions config block = startRegions block ++ contentRegions config block := by
  unfold regions contentRegions
  by_cases style : block.kind = .styleBlock
  · rw [style, if_pos rfl]
  · rw [scriptBlock_of_isBlock kind style, if_neg (by decide)]

theorem embedToken_of_isBlock {block : Token} (kind : block.kind.isBlock = true) :
    embedToken b (readMarkup b) config block = (do
      let first ← changePart (readStart b config) block.ext.start
      let body ← changePart (readContent b config block) block.ext.content
      return { block with ext := { block.ext with start := first, content := body } }) := by
  have other : block.kind ≠ .tagStart := by
    intro same
    rw [same] at kind
    cases kind
  rw [embedToken, regions_of_isBlock kind, List.foldlM_append, embed_startRegions _ other]
  cases changePart (readStart b config) block.ext.start with
  | error e => rfl
  | ok first =>
    change (contentRegions config block).foldlM _
      { block with ext := { block.ext with start := first } } = _
    rw [embed_contentRegions, ok_bind]
    cases changePart (readContent b config block) block.ext.content <;> rfl

/-- A token becomes what its kind and its parts say, and nothing else. -/
theorem embedToken_iff {token after : Token} :
    embedToken b (readMarkup b) config token = .ok after ↔ Effect b config token after := by
  by_cases tag : token.kind = .tagStart
  · rw [embedToken_tagStart _ _ _ tag, readStart_iff]
    constructor
    · exact .startTag tag
    · intro h
      cases h with
      | startTag _ effect => exact effect
      | block kind =>
        rw [tag] at kind
        cases kind
      | plain other => exact absurd tag other
  · by_cases block : token.kind.isBlock = true
    · rw [embedToken_of_isBlock block, bind_eq_ok]
      constructor
      · rintro ⟨first, start, h⟩
        obtain ⟨body, content, made⟩ := bind_eq_ok.mp h
        cases made
        exact .block block ((changePart_eq_ok fun _ _ => readStart_iff).mp start)
          ((changePart_eq_ok fun _ _ => readContent_iff block).mp content)
      · intro h
        cases h with
        | startTag same => exact absurd same tag
        | block _ start content =>
          refine ⟨_, (changePart_eq_ok fun _ _ => readStart_iff).mpr start, ?_⟩
          exact bind_eq_ok.mpr
            ⟨_, (changePart_eq_ok fun _ _ => readContent_iff block).mpr content, rfl⟩
        | plain _ whole => exact nomatch whole.symm.trans block
    · have whole : token.kind.isBlock = false := Bool.eq_false_iff.mpr block
      have none : regions config token = [] := by
        unfold regions
        split
        · next same => exact absurd same tag
        · next same => exact absurd (congrArg TokenKind.isBlock same) block
        · next same => exact absurd (congrArg TokenKind.isBlock same) block
        · rfl
      rw [embedToken, none]
      constructor
      · intro h
        cases h
        exact .plain tag whole
      · intro h
        cases h with
        | startTag same => exact absurd same tag
        | block kind => exact absurd kind block
        | plain => rfl

end Parts

end Mosaic.Embedding
