import Mosaic.Proofs.Embedding.Effect
import Mosaic.Proofs.Markup.Detail
import Mosaic.Proofs.Markup.RawText

/-! Which nested texts are found in a token. There is one for each inline style, for each style
sheet in a style element and for each script that holds markup, and there is no other; in a document
nothing is missing that such a text could be taken from. -/
namespace Mosaic.Embedding

/-- A start tag, which may be the start part of a block. -/
def StartOf (token start : Token) : Prop :=
  token.kind = .tagStart ∧ start = token ∨
    token.kind.isBlock = true ∧ token.ext.start = some (.token start)

/-- The nested texts of a token. -/
inductive Nested (config : Config) (token : Token) : Region → Prop
  | inlineStyle {start : Token} {region : Region} : StartOf token start →
    InlineStyle start region → Nested config token region
  | styleBlock {content : Token} : token.kind = .styleBlock →
    token.ext.content = some (.token content) →
    Nested config token (contentRegion .styleBlock none content)
  | templateScript {scripts : ScriptTemplates} {start content : Token} {type : String} :
    token.kind = .scriptBlock → config.scripts = some scripts →
    token.ext.start = some (.token start) → start.ext.type = some (.text type) →
    type ∈ scripts.types → token.ext.content = some (.token content) →
    Nested config token (contentRegion .templateScript (some type) content)

/-- What has a nested text: a start tag whose first style attribute has a value that is not empty, a
style block, and a script block whose type is one of those in the settings. -/
inductive Bears (config : Config) (token : Token) : RegionKind → Prop
  | inlineStyle {start : Token} {tag : Tag} {before after : List Attr} {attr : Attr}
    {value : String} : StartOf token start → start.detail = some tag →
    tag.attrs = before ++ attr :: after → (∀ other ∈ before, ¬ other.IsCalled "style") →
    attr.IsCalled "style" → attr.value = some value → value ≠ "" →
    Bears config token .inlineStyle
  | styleBlock : token.kind = .styleBlock → Bears config token .styleBlock
  | templateScript {scripts : ScriptTemplates} : token.kind = .scriptBlock →
    config.scripts = some scripts → Declares scripts token →
    Bears config token .templateScript

section Regions

variable {config : Config} {token : Token} {region : Region}

theorem mem_startRegions : region ∈ startRegions token ↔
    ∃ start, token.ext.start = some (.token start) ∧ InlineStyle start region := by
  simp only [startRegions, Option.mem_toList, Option.bind_eq_some_iff, token?_eq_some,
    inlineStyle?_eq_some]
  rfl

theorem dialect?_eq_some {type : String} : dialect? config token = some type ↔
    ∃ scripts start, config.scripts = some scripts ∧ token.ext.start = some (.token start) ∧
      start.ext.type = some (.text type) ∧ type ∈ scripts.types := by
  have part : dialect? config token = (token.ext.token? .start).bind (startDialect? config) := by
    unfold dialect? startDialect?
    cases token.ext.token? .start <;> rfl
  rw [part, Option.bind_eq_some_iff]
  simp only [startDialect?_eq_some, token?_eq_some, text?_eq_some]
  constructor
  · rintro ⟨start, hung, typed, scripts, settings, known⟩
    exact ⟨scripts, start, settings, hung, typed, known⟩
  · rintro ⟨scripts, start, settings, hung, typed, known⟩
    exact ⟨start, hung, typed, scripts, settings, known⟩

theorem mem_contentRegions (block : token.kind.isBlock = true) :
    region ∈ contentRegions config token ↔ Nested config token region ∧
      region.kind ≠ .inlineStyle := by
  constructor
  · intro mem
    unfold contentRegions at mem
    split at mem
    · next style =>
      obtain ⟨content, held, rfl⟩ := Option.map_eq_some_iff.mp (Option.mem_toList.mp mem)
      exact ⟨.styleBlock style (token?_eq_some.mp held), by rintro ⟨⟩⟩
    · next other =>
      unfold scriptRegions at mem
      split at mem
      · next type content dialect held =>
        obtain ⟨scripts, start, settings, hung, typed, known⟩ := dialect?_eq_some.mp dialect
        rw [List.mem_singleton.mp mem]
        exact ⟨.templateScript (scriptBlock_of_isBlock block other) settings hung typed known
          (token?_eq_some.mp held), by rintro ⟨⟩⟩
      · cases mem
  · rintro ⟨nested, other⟩
    cases nested with
    | inlineStyle _ inline => cases inline with | of => exact absurd rfl other
    | styleBlock style held =>
      rw [contentRegions, if_pos style, Option.mem_toList, Option.map_eq_some_iff]
      exact ⟨_, token?_eq_some.mpr held, rfl⟩
    | templateScript script settings hung typed known held =>
      have plain : token.kind ≠ .styleBlock := by
        rw [script]
        decide
      have part : token.ext.token? .content = some _ := token?_eq_some.mpr held
      rw [contentRegions, if_neg plain, scriptRegions,
        dialect?_eq_some.mpr ⟨_, _, settings, hung, typed, known⟩, part]
      exact List.mem_singleton.mpr rfl

/-- Exactly the nested texts of a token are found in it. -/
theorem mem_regions_iff : region ∈ regions config token ↔ Nested config token region := by
  by_cases block : token.kind.isBlock = true
  · rw [regions_of_isBlock block, List.mem_append, mem_startRegions, mem_contentRegions block]
    constructor
    · rintro (⟨start, hung, inline⟩ | ⟨nested, -⟩)
      · exact .inlineStyle (.inr ⟨block, hung⟩) inline
      · exact nested
    · intro nested
      cases nested with
      | inlineStyle own inline =>
        rcases own with ⟨tag, -⟩ | ⟨-, hung⟩
        · rw [tag] at block
          cases block
        · exact .inl ⟨_, hung, inline⟩
      | styleBlock style held => exact .inr ⟨.styleBlock style held, by rintro ⟨⟩⟩
      | templateScript script settings hung typed known held =>
        exact .inr ⟨.templateScript script settings hung typed known held, by rintro ⟨⟩⟩
  · have whole : ∀ {kind}, token.kind = kind → ¬ kind.isBlock = true := fun same => same ▸ block
    constructor
    · intro mem
      unfold regions at mem
      split at mem
      · next tag =>
        exact .inlineStyle (.inl ⟨tag, rfl⟩) (inlineStyle?_eq_some.mp (Option.mem_toList.mp mem))
      · next style => exact absurd rfl (whole style)
      · next script => exact absurd rfl (whole script)
      · cases mem
    · intro nested
      cases nested with
      | inlineStyle own inline =>
        rcases own with ⟨tag, rfl⟩ | ⟨other, -⟩
        · rw [regions, tag]
          exact Option.mem_toList.mpr (inlineStyle?_eq_some.mpr inline)
        · exact absurd other block
      | styleBlock style => exact absurd rfl (whole style)
      | templateScript script => exact absurd rfl (whole script)

theorem StartOf.unique {start other : Token} (h : StartOf token start)
    (again : StartOf token other) : start = other := by
  rcases h with ⟨tag, rfl⟩ | ⟨block, hung⟩
  · rcases again with ⟨-, rfl⟩ | ⟨block, -⟩
    · rfl
    · rw [tag] at block
      cases block
  · rcases again with ⟨tag, -⟩ | ⟨-, other⟩
    · rw [tag] at block
      cases block
    · cases hung.symm.trans other
      rfl

/-- A token has one nested text of each kind at most. -/
theorem Nested.unique {other : Region} (h : Nested config token region)
    (again : Nested config token other) (same : region.kind = other.kind) : region = other := by
  have inlineKind : ∀ {start region}, InlineStyle start region → region.kind = .inlineStyle :=
    fun inline => inlineStyle?_kind (inlineStyle?_eq_some.mpr inline)
  cases h with
  | inlineStyle own inline =>
    rw [inlineKind inline] at same
    cases again with
    | inlineStyle part other =>
      cases own.unique part
      have found := inlineStyle?_eq_some.mpr inline
      exact Option.some.inj (found.symm.trans (inlineStyle?_eq_some.mpr other))
    | styleBlock | templateScript => cases same
  | styleBlock style held =>
    cases again with
    | inlineStyle _ inline =>
      rw [inlineKind inline] at same
      cases same
    | styleBlock _ other =>
      cases held.symm.trans other
      rfl
    | templateScript => cases same
  | templateScript script settings hung typed known held =>
    cases again with
    | inlineStyle _ inline =>
      rw [inlineKind inline] at same
      cases same
    | styleBlock => cases same
    | templateScript _ _ start type _ content =>
      cases hung.symm.trans start
      cases typed.symm.trans type
      cases held.symm.trans content
      rfl

end Regions

section Document

variable {t : Template.Scanner} {origin : Origin} {source : String} {tokens : List Token}
  {token : Token}

theorem attr?_eq_some_iff {tag : Tag} (spelled : ∀ attr ∈ tag.attrs, attr.Spelled t)
    {name : String} {attr : Attr} :
    tag.attr? name = some attr ↔ ∃ before after, tag.attrs = before ++ attr :: after ∧
      (∀ other ∈ before, ¬ other.IsCalled name) ∧ attr.IsCalled name := by
  rw [Tag.attr?, List.find?_eq_some_iff_append]
  constructor
  · rintro ⟨named, before, after, split, unnamed⟩
    have own : ∀ other ∈ before ++ attr :: after, other.Spelled t := split ▸ spelled
    obtain ⟨front, self, -⟩ := List.forall_mem_append.mp own |>.imp_right List.forall_mem_cons.mp
    refine ⟨before, after, split, fun other mem called => ?_, (self.isNamed_iff name).mp named⟩
    have free := unnamed other mem
    rw [((front other mem).isNamed_iff name).mpr called] at free
    cases free
  · rintro ⟨before, after, split, uncalled, called⟩
    have own : ∀ other ∈ before ++ attr :: after, other.Spelled t := split ▸ spelled
    obtain ⟨front, self, -⟩ := List.forall_mem_append.mp own |>.imp_right List.forall_mem_cons.mp
    refine ⟨(self.isNamed_iff name).mpr called, before, after, split, fun other mem => ?_⟩
    rw [Bool.not_eq_true', Bool.eq_false_iff]
    exact fun named => uncalled other mem (((front other mem).isNamed_iff name).mp named)

/-- The parts of a start tag of a document are known. -/
theorem spelled_of_startOf (h : Markup.tokenize t origin source = .ok tokens) (mem : token ∈ tokens)
    {start : Token} (own : StartOf token start) {tag : Tag} (detail : start.detail = some tag) :
    ∀ attr ∈ tag.attrs, attr.Spelled t := by
  obtain ⟨before, after, rfl⟩ := List.append_of_mem mem
  obtain ⟨piece, c, rest, n, back, offset, cut, rfl, -⟩ := Markup.cut_of_tokenize h
  have here : ∃ tag n, Markup.startTagAt t rest = .ok (tag, n) ∧
      start.value = String.ofList tag.text ∧ start.detail = some (Markup.placeTag
        (.ofText source.toList origin) (Text.bytes (Token.concat before).toList) tag.tag) := by
    rcases own with ⟨kind, rfl⟩ | ⟨-, hung⟩
    · exact Markup.startTag_of_cut cut (.inl ⟨rfl, kind⟩)
    · exact Markup.startTag_of_cut cut (.inr (token?_eq_some.mpr hung))
  obtain ⟨text, n, read, -, known⟩ := here
  cases detail.symm.trans known
  exact (Markup.startTagAt_captures read _ _).attrs

/-- A block of a document has a content part. -/
theorem exists_content (h : Markup.tokenize t origin source = .ok tokens) (mem : token ∈ tokens)
    (block : token.kind.isBlock = true) : ∃ content, token.ext.content = some (.token content) := by
  obtain ⟨before, after, rfl⟩ := List.append_of_mem mem
  obtain ⟨piece, c, rest, n, back, offset, cut, rfl, -⟩ := Markup.cut_of_tokenize h
  have element : ∃ element : Markup.Element,
      (piece.token (.ofText source.toList origin) (Text.bytes (Token.concat before).toList)).kind =
        element.kind := by
    generalize Markup.Piece.token _ _ piece = token at block
    cases kind : token.kind with
    | styleBlock => exact ⟨.style, rfl⟩
    | scriptBlock => exact ⟨.script, rfl⟩
    | _ =>
      rw [kind] at block
      cases block
  obtain ⟨element, kind⟩ := element
  obtain ⟨start, tag, content, finish, parts⟩ := Markup.rawParts_of_cut cut kind
  rw [parts.slots]
  exact ⟨content, rfl⟩

/-- In a document there is a nested text of a kind wherever a token has one to offer. -/
theorem bears_iff {config : Config} (h : Markup.tokenize t origin source = .ok tokens)
    (mem : token ∈ tokens) {kind : RegionKind} :
    Bears config token kind ↔ ∃ region, Nested config token region ∧ region.kind = kind := by
  constructor
  · intro bears
    cases bears with
    | inlineStyle own detail split uncalled called valued filled =>
      have named := (attr?_eq_some_iff (spelled_of_startOf h mem own detail)).mpr
        ⟨_, _, split, uncalled, called⟩
      exact ⟨_, .inlineStyle own (.of detail named valued filled), rfl⟩
    | styleBlock style =>
      obtain ⟨content, held⟩ := exists_content h mem (by rw [style]; rfl)
      exact ⟨_, .styleBlock style held, rfl⟩
    | templateScript script settings declares =>
      obtain ⟨content, held⟩ := exists_content h mem (by rw [script]; rfl)
      obtain ⟨start, type, hung, typed, known⟩ := declares
      exact ⟨_, .templateScript script settings hung typed known held, rfl⟩
  · rintro ⟨region, nested, rfl⟩
    cases nested with
    | inlineStyle own inline =>
      cases inline with
      | of detail named valued filled =>
        obtain ⟨before, after, split, uncalled, called⟩ :=
          (attr?_eq_some_iff (spelled_of_startOf h mem own detail)).mp named
        exact .inlineStyle own detail split uncalled called valued filled
    | styleBlock style => exact .styleBlock style
    | templateScript script settings hung typed known =>
      exact .templateScript script settings ⟨_, _, hung, typed, known⟩

end Document

end Mosaic.Embedding
