import Mathlib.Logic.Relation
import Mosaic.Document
import Mosaic.Proofs.Coordinates
import Mosaic.Proofs.Embedding.Nesting
import Mosaic.Proofs.Markup.Failure
import Mosaic.Proofs.Script.Failure
import Mosaic.Proofs.Style.Failure

/-! Failures of whole documents. A nested text knows where it stands, so what fails in it, however
deep it is nested, fails at a place of the document, and what is to blame stands there. -/
namespace Mosaic

open Outcome Relation

namespace Embedding

/-- A nested text stands in a document where its origin says. -/
def Region.Stands (document : List Char) (region : Region) : Prop :=
  ∃ before after, document = before ++ region.text.toList ++ after ∧
    region.origin = .behind before

theorem stands_of_mem_regions {config : Config} {locator : Locator} {offset : Nat}
    {document front : List Char} {piece : Markup.Piece} {region : Region}
    (located : locator.Locates offset document front piece.text) (spelled : piece.Spelled)
    (mem : region ∈ regions config (piece.token locator offset)) : region.Stands document := by
  by_cases kind : region.kind = .inlineStyle
  · obtain ⟨tag, type, behind, opens, text, inline⟩ := inline_of_mem_regions spelled mem kind
    obtain ⟨parts, attr, detail, named, valued, -, origin⟩ := inlineStyle?_attr inline
    cases detail
    rw [text] at located
    obtain ⟨before, after, split, placed⟩ :=
      valueRange_of_mem located.head opens (List.mem_of_find?_eq_some named) valued
    obtain ⟨further, whole⟩ := located.head.part
    rw [placed] at origin
    refine ⟨front ++ before, after ++ further, ?_, origin⟩
    rw [whole, split]
    simp only [List.append_assoc]
  · obtain ⟨element, start, content, finish, rfl, text, origin⟩ := body_of_mem_regions mem kind
    rw [Markup.text_block] at located
    have body := located.head.tail
    obtain ⟨after, whole⟩ := body.part
    rw [body.range, Origin.ofRange_behind] at origin
    refine ⟨front ++ start.text, after, ?_, origin⟩
    rw [text, String.toList_ofList]
    exact whole

theorem stands_of_mem_locate {t : Template.Scanner} {config : Config} {origin : Origin}
    {source : String} {tokens : List Token} {document front after : List Char}
    (place : origin = .behind front) (part : document = front ++ source.toList ++ after)
    (tokenized : Markup.tokenize t origin source = .ok tokens) {index : Nat} {region : Region}
    (mem : (index, region) ∈ locate config tokens) : region.Stands document := by
  subst place
  obtain ⟨found, hfound, rfl⟩ := Markup.tokenize_eq_ok tokenized
  obtain ⟨token, inside, held⟩ := mem_locate.mp mem
  obtain ⟨ahead, piece, back, rfl, rfl⟩ := mem_place (List.mem_of_getElem? inside)
  have spelled := Markup.pieces_spelled hfound piece
    (List.mem_append_right ahead List.mem_cons_self)
  have whole := Markup.pieces_text hfound
  rw [List.flatMap_append, List.flatMap_cons, ← List.append_assoc] at whole
  exact stands_of_mem_regions ((locates_text part).narrow whole.symm) spelled held

/-- Template regions open in a wrapped value only inside of the value: no left delimiter touches
the wrapper. -/
def Clear (t : Template.Scanner) (value : String) : Prop :=
  ∀ n, t.opens ((wrap value).toList.drop n) = true →
    2 ≤ n ∧ n + t.left.length ≤ 2 + value.toList.length

/-- A word that stands in a wrapped value and does not touch the wrapper stands in the value. -/
theorem inside_of_wrap {value : String} {word before rest : List Char}
    (split : (wrap value).toList = before ++ rest) (begins : word <+: rest)
    (ahead : 2 ≤ before.length) (back : before.length + word.length ≤ 2 + value.toList.length) :
    ∃ inside behind, before = ['*', '\x7b'] ++ inside ∧ value.toList = inside ++ behind ∧
      word <+: behind := by
  obtain ⟨n, len⟩ := Nat.exists_eq_add_of_le ahead
  have fits : n ≤ value.toList.length := by omega
  rw [toList_wrap] at split
  have first := congrArg (List.take before.length) split
  have last := congrArg (List.drop before.length) split
  rw [List.take_left, len, show 2 + n = ['*', '\x7b'].length + n from rfl,
    List.take_length_add_append, List.take_append_of_le_length fits] at first
  rw [List.drop_left, len, show 2 + n = ['*', '\x7b'].length + n from rfl,
    List.drop_length_add_append, List.drop_append_of_le_length fits] at last
  refine ⟨value.toList.take n, value.toList.drop n, first.symm, ?_, ?_⟩
  · exact (List.take_append_drop n _).symm
  · rw [← last] at begins
    apply List.prefix_of_prefix_length_le begins (List.prefix_append _ _)
    rw [List.length_drop]
    omega

/-- Where a wrapped value cannot be read on, it is the value that is to blame. -/
theorem inside_of_stops {t : Template.Scanner} {value : String} {cause : Cause}
    {before rest : List Char} (clear : Clear t value)
    (split : (wrap value).toList = before ++ rest) (stops : Style.Stops t cause rest) :
    ∃ inside behind, before = ['*', '\x7b'] ++ inside ∧ value.toList = inside ++ behind ∧
      cause.Names t .style behind := by
  cases stops with
  | template opens =>
    have touches := clear before.length
    rw [split, List.drop_left] at touches
    obtain ⟨ahead, back⟩ := touches opens
    rw [Template.Scanner.opens, Bool.and_eq_true] at opens
    obtain ⟨inside, behind, front, parts, begins⟩ :=
      inside_of_wrap split (List.isPrefixOf_iff_prefix.mp opens.2) ahead back
    exact ⟨inside, behind, front, parts, .template opens.1 begins⟩
  | comment unclosed =>
    -- the wrapper takes no part in a comment: neither byte in front of the value is a slash, and
    -- the one behind it is no star
    obtain ⟨more, rfl⟩ := unclosed.begins
    have parts := split
    rw [toList_wrap] at parts
    have ahead : 2 ≤ before.length := by
      rcases before with _ | ⟨star, _ | ⟨brace, before⟩⟩
      · cases parts
      · cases parts
      · exact Nat.le_add_left 2 _
    have back : before.length + ['/', '*'].length ≤ 2 + value.toList.length := by
      have length := congrArg List.length parts
      simp only [List.length_append, List.length_cons, List.length_nil] at length ⊢
      cases more with
      | nil =>
        have last := congrArg List.reverse parts
        simp at last
      | cons c more =>
        rw [List.length_cons] at length
        omega
    obtain ⟨inside, behind, front, parts, begins⟩ :=
      inside_of_wrap split (List.prefix_append ['/', '*'] more) ahead back
    exact ⟨inside, behind, front, parts, .comment (by decide) begins⟩

theorem declarations?_points {adapters : Template.Adapters} {config : Config} {region : Region}
    {document : List Char} {error : BackendError} (stands : region.Stands document)
    (clear : Clear (adapters.scanner config.template) region.text)
    (h : declarations? (.withAdapters adapters) config region = .error error) :
    error.Points (adapters.scanner config.template) document := by
  obtain ⟨front, after, rfl, origin⟩ := stands
  unfold declarations? at h
  simp only at h
  split at h
  · cases h
  · rcases bind_eq_error.mp h with stopped | ⟨tokens, -, later⟩
    · obtain ⟨fault, read, rfl⟩ := Style.tokenize_eq_error stopped
      obtain ⟨before, rest, split, offset, stops⟩ := Style.read_stops read
      obtain ⟨inside, behind, rfl, value, names⟩ := inside_of_stops clear split stops
      have place := position_behind (show '\n' ∉ ['*', '\x7b'] by decide) front inside
        (behind ++ ['\x7d'])
      refine ⟨front ++ inside, behind ++ after, ?_, ?_, names.append after⟩
      · rw [value]
        simp only [List.append_assoc]
      · rw [Fault.locate, offset, Text.bytes_append, toList_wrap, value, origin,
          List.append_assoc inside]
        exact congrArg some place
    · cases later

/-- Embedding fails where one of the nested texts cannot be read. -/
theorem exists_of_embedWith_error {b : Backends} {nested : NestedReader} {config : Config}
    {tokens : List Token} {error : BackendError}
    (h : embedWith b nested config tokens = .error error) :
    ∃ index region, (index, region) ∈ locate config tokens ∧
      payload? b nested config region = .error error := by
  obtain ⟨token, inside, fails⟩ := exists_of_mapM_error h
  obtain ⟨region, held, owner, fails⟩ := exists_of_foldlM_error fails
  obtain ⟨index, found⟩ := List.mem_iff_getElem?.mp inside
  refine ⟨index, region, mem_locate.mpr ⟨token, found, held⟩, ?_⟩
  rcases bind_eq_error.mp fails with fails | ⟨payload, -, later⟩
  · exact fails
  · cases payload <;> cases later

end Embedding

/-- No left delimiter touches the wrapper of an inline style in an excerpt. -/
def Excerpt.Clear (adapters : Template.Adapters) (excerpt : Excerpt) : Prop :=
  ∀ index region, (index, region) ∈ excerpt.located adapters → region.kind = .inlineStyle →
    Embedding.Clear (adapters.scanner excerpt.config.template) region.text

/-- An excerpt cannot be read for a failure of its own, and not for one of a script in it: it cannot
be cut into tokens, or one of the styles nested in it cannot be read. -/
structure Excerpt.Fails (adapters : Template.Adapters) (excerpt : Excerpt) (error : BackendError) :
    Prop where
  read : readMarkup (.withAdapters adapters) excerpt.config excerpt.origin excerpt.source =
    .error error
  own : Markup.tokenize (adapters.scanner excerpt.config.template) excerpt.origin excerpt.source =
      .error error ∨
    ∃ index region, (index, region) ∈ excerpt.located adapters ∧ region.kind ≠ .templateScript ∧
      Embedding.payload? (.withAdapters adapters) (readMarkup (.withAdapters adapters))
        excerpt.config region = .error error

/-- Markup that cannot be read: the failure points at what is to blame, at its place in the
document. Which delimiter that may be depends on the excerpt that fails. -/
theorem readMarkup_points {adapters : Template.Adapters} {document : List Char}
    {error : BackendError} (excerpt : Excerpt) {front after : List Char}
    (place : excerpt.origin = .behind front)
    (part : document = front ++ excerpt.source.toList ++ after)
    (clear : ∀ inner, ReflTransGen (Nests adapters) excerpt inner → inner.Clear adapters)
    (h : readMarkup (.withAdapters adapters) excerpt.config excerpt.origin excerpt.source =
      .error error) :
    ∃ inner, ReflTransGen (Nests adapters) excerpt inner ∧ inner.Fails adapters error ∧
      error.Points (adapters.scanner inner.config.template) document := by
  -- on the nesting: only the body of a script is read as markup again, and it is an excerpt that
  -- nests in this one; the other nested texts fail by themselves
  induction excerpt using (wellFounded_nests adapters).induction generalizing front after with
  | h excerpt ih =>
    have split := h
    rw [readMarkup_eq] at split
    rcases bind_eq_error.mp split with stopped | ⟨tokens, tokenized, stopped⟩
    · exact ⟨excerpt, .refl, ⟨h, .inl stopped⟩, Markup.tokenize_points place part stopped⟩
    · obtain ⟨index, region, located, fails⟩ := Embedding.exists_of_embedWith_error stopped
      have stands := Embedding.stands_of_mem_locate place part tokenized located
      have held := Excerpt.mem_located.mpr ⟨tokens, tokenized, located⟩
      have own : region.kind ≠ .templateScript → excerpt.Fails adapters error := fun other =>
        ⟨h, .inr ⟨index, region, held, other, fails⟩⟩
      cases kind : region.kind with
      | inlineStyle =>
        have failed := own (by rw [kind]; decide)
        have free := clear excerpt .refl index region held kind
        simp only [Embedding.payload?, kind] at fails
        have points := Embedding.declarations?_points stands free (map_eq_error.mp fails)
        exact ⟨excerpt, .refl, failed, points⟩
      | styleBlock =>
        have failed := own (by rw [kind]; decide)
        simp only [Embedding.payload?, kind] at fails
        obtain ⟨before, behind, whole, origin⟩ := stands
        have points := Style.tokenize_points origin whole (map_eq_error.mp fails)
        exact ⟨excerpt, .refl, failed, points⟩
      | templateScript =>
        simp only [Embedding.payload?, kind] at fails
        cases settings : excerpt.config.nested? with
        | none =>
          rw [settings] at fails
          cases fails
        | some config =>
          rw [settings] at fails
          obtain ⟨before, behind, whole, origin⟩ := stands
          have nests : Nests adapters excerpt ⟨config, region.origin, region.text⟩ :=
            .script held kind settings
          obtain ⟨inner, deeper, points⟩ := ih _ nests origin whole
            (fun inner deeper => clear inner (.head nests deeper)) (map_eq_error.mp fails)
          exact ⟨inner, .head nests deeper, points⟩

/-- A document that cannot be read fails with a position, and there stands what the failure is
about: a delimiter, a bracket, a quote or a tag, however deep it is nested. A delimiter is that of
the excerpt which fails. -/
theorem FileDescriptor.points_of_parse {file : FileDescriptor} {config : Config}
    {content : String} {error : BackendError}
    (clear : file.grammar? = some .markup → ∀ inner,
      ReflTransGen (Nests .empty) ⟨config, .zero, content⟩ inner → inner.Clear .empty)
    (h : file.parse .builtin config content = .error (.backend error)) :
    ∃ inner, ReflTransGen (Nests .empty) ⟨config, .zero, content⟩ inner ∧
      (file.grammar? = some .markup → inner.Fails .empty error) ∧
      (file.grammar? ≠ some .markup → inner = ⟨config, .zero, content⟩) ∧
      error.Points (Template.Adapters.empty.scanner inner.config.template) content.toList := by
  have whole : content.toList = [] ++ content.toList ++ [] := by
    rw [List.nil_append, List.append_nil]
  have top : ReflTransGen (Nests .empty) ⟨config, .zero, content⟩ ⟨config, .zero, content⟩ := .refl
  unfold FileDescriptor.parse FileDescriptor.grammarFor at h
  cases kind : file.grammar? with
  | none =>
    rw [kind] at h
    cases h
  | some grammar =>
    rw [kind] at h
    have fails : dispatch .builtin config grammar .zero content = .error error := by
      cases read : dispatch .builtin config grammar .zero content with
      | ok ast =>
        rw [ok_bind, read] at h
        cases h
      | error e =>
        rw [ok_bind, read] at h
        cases h
        rfl
    cases grammar with
    | script =>
      refine ⟨_, top, ?_, fun _ => rfl, Script.parse_points (map_eq_error.mp fails)⟩
      rintro ⟨⟩
    | style =>
      refine ⟨_, top, ?_, fun _ => rfl, Style.tokenize_points rfl whole (map_eq_error.mp fails)⟩
      rintro ⟨⟩
    | markup =>
      obtain ⟨inner, nested, failed, points⟩ :=
        readMarkup_points ⟨config, .zero, content⟩ rfl whole (clear kind) (map_eq_error.mp fails)
      exact ⟨inner, nested, fun _ => failed, fun other => absurd rfl other, points⟩

/-- A template region that does not end, in a script behind an inline style. -/
def unclosedInside : Excerpt :=
  ⟨⟨⟨"", "[[", "]]", none⟩, some ⟨["a"], ⟨"", "<%", "%>", none⟩⟩⟩, .zero,
    "<i style=a:b><script type=a>é\n<%</script>"⟩

/-- The script in it. -/
def unclosedScript : Excerpt :=
  ⟨⟨⟨"", "<%", "%>", none⟩, unclosedInside.config.scripts⟩, ⟨28, 0, 28, 0⟩, "é\n<%"⟩

theorem read_unclosedInside :
    unclosedInside.located .empty = [(0, ⟨.inlineStyle, "a:b", ⟨9, 0, 9, 0⟩, none⟩),
      (1, ⟨.templateScript, unclosedScript.source, unclosedScript.origin, some "a"⟩)] ∧
    unclosedScript.located .empty = [] ∧
    failure? ((SourceFile.mk "a.html" ["tpl"]).descriptor.parse .builtin unclosedInside.config
      unclosedInside.source) = some (.backend ⟨.markup, .unclosedTemplate, some ⟨1, 0⟩⟩) := by
  decide +kernel

theorem clear_unclosedInside : unclosedInside.Clear .empty := by
  intro index region found kind
  rw [read_unclosedInside.1] at found
  rcases List.mem_cons.mp found with same | found
  · cases same
    intro n opens
    rw [Template.Scanner.opens, Bool.and_eq_true, List.isPrefixOf_iff_prefix] at opens
    have bracket : '[' ∈ (Embedding.wrap "a:b").toList :=
      List.mem_of_mem_drop (opens.2.subset List.mem_cons_self)
    exact absurd bracket (by decide)
  · cases List.mem_singleton.mp found
    cases kind

theorem eq_unclosedScript_of_nests {inner : Excerpt} (h : Nests .empty unclosedInside inner) :
    inner = unclosedScript := by
  cases h with
  | script found kind settings =>
    rw [read_unclosedInside.1] at found
    rcases List.mem_cons.mp found with same | found
    · cases same
      cases kind
    · cases List.mem_singleton.mp found
      cases settings
      rfl

theorem not_nests_unclosedScript (inner : Excerpt) : ¬ Nests .empty unclosedScript inner := by
  intro nests
  cases nests with
  | script found =>
    rw [read_unclosedInside.2.1] at found
    cases found

theorem clear_of_nests_unclosedInside {inner : Excerpt}
    (h : ReflTransGen (Nests .empty) unclosedInside inner) : inner.Clear .empty := by
  rcases h.cases_head with rfl | ⟨next, nests, deeper⟩
  · exact clear_unclosedInside
  · obtain rfl := eq_unclosedScript_of_nests nests
    rcases deeper.cases_head with rfl | ⟨further, nests, -⟩
    · intro index region found
      rw [read_unclosedInside.2.1] at found
      cases found
    · exact absurd nests (not_nests_unclosedScript further)

theorem FileDescriptor.points_of_parse_unclosedInside :
    ∃ error, (SourceFile.mk "a.html" ["tpl"]).descriptor.parse .builtin unclosedInside.config
        unclosedInside.source = .error (.backend error) ∧
      error = ⟨.markup, .unclosedTemplate, some ⟨1, 0⟩⟩ ∧
      ∃ inner, ReflTransGen (Nests .empty) unclosedInside inner ∧ inner.Fails .empty error ∧
        error.Points (Template.Adapters.empty.scanner inner.config.template)
          unclosedInside.source.toList := by
  have read := eq_error_of_failure? read_unclosedInside.2.2
  have markup : (SourceFile.mk "a.html" ["tpl"]).descriptor.grammar? = some .markup := by decide
  obtain ⟨inner, nested, failed, -, points⟩ :=
    @FileDescriptor.points_of_parse _ unclosedInside.config unclosedInside.source _
      (fun _ _ => clear_of_nests_unclosedInside) read
  exact ⟨_, read, rfl, inner, nested, failed markup, points⟩

end Mosaic
