import Mosaic.Proofs.Embedding.Located
import Mosaic.Proofs.Embedding.Nesting
import Mosaic.Proofs.Location

/-! Where the nested texts of a document stand. They are found in the order in which they stand,
none of them reaches into another, and each knows its place, wherever the document itself starts. -/
namespace Mosaic

open Mosaic.Embedding

/-- The place right behind `before` in a text that starts at `origin`. -/
def Origin.after (origin : Origin) (before : List Char) : Origin :=
  ⟨origin.offset + Text.bytes before, origin.line + before.count '\n',
    if '\n' ∈ before then Text.bytes (lastLine before)
    else origin.column + Text.bytes before, 0⟩

/-- If a text is at its true place in a document, so are the places in it. -/
theorem Origin.behind_after (front before : List Char) :
    (Origin.behind front).after before = .behind (front ++ before) := by
  simp only [Origin.after, Origin.behind, Position.behind, Text.bytes_append, List.count_append,
    Origin.mk.injEq, true_and, and_true]
  by_cases broken : '\n' ∈ before
  · rw [if_pos broken, lastLine_append_of_mem _ broken]
  · rw [if_neg broken, lastLine_append_of_not_mem _ broken, Text.bytes_append, bytes_reverse,
      Nat.add_comm]

/-- The origin of a part of a text is the place where that part begins. -/
theorem Origin.ofRange_range {origin : Origin} (whole : origin.lead = 0)
    {source front before rest : List Char} (split : source = front ++ before ++ rest)
    (stop : Nat) :
    Origin.ofRange ((Locator.ofText source origin).range (Text.bytes front + Text.bytes before)
      stop) = origin.after (front ++ before) := by
  subst split
  rw [← Text.bytes_append, Origin.ofRange, Locator.range, position_ofText]
  simp only [Locator.absolute, Locator.ofText, whole, Nat.sub_zero, Origin.after]

namespace Embedding

/-- A nested text begins in front of another and ends there. -/
def Region.Before (first second : Region) : Prop :=
  first.origin.offset < second.origin.offset ∧
    first.origin.offset + Text.bytes first.text.toList ≤ second.origin.offset

/-- A nested text stands behind the first character of a text, which stands behind `front` in a
document that starts at `origin`. -/
def Region.Inside (origin : Origin) (front text : List Char) (region : Region) : Prop :=
  ∃ before after, before ≠ [] ∧ text = before ++ region.text.toList ++ after ∧
    region.origin = origin.after (front ++ before)

variable {config : Config} {origin : Origin} {source front back text : List Char}
  {region : Region}

theorem Region.Inside.bounds (h : region.Inside origin front text) :
    origin.offset + Text.bytes front < region.origin.offset ∧
      region.origin.offset + Text.bytes region.text.toList ≤
        origin.offset + Text.bytes (front ++ text) := by
  obtain ⟨before, after, some, rfl, place⟩ := h
  have pos := Text.bytes_pos some
  simp only [place, Origin.after, Text.bytes_append]
  omega

theorem Region.Inside.extend (h : region.Inside origin front text) (more : List Char) :
    region.Inside origin front (text ++ more) := by
  obtain ⟨before, after, some, rfl, place⟩ := h
  refine ⟨before, after ++ more, some, ?_, place⟩
  simp only [List.append_assoc]

/-- An inline style stands in its start tag. -/
theorem inside_of_inlineStyle (whole : origin.lead = 0) {tag : Markup.TagText}
    {type : Option String} (opens : tag.Opens) (split : source = front ++ tag.text ++ back)
    (inline : inlineStyle? (startToken (.ofText source origin) (Text.bytes front) tag type) =
      some region) : region.Inside origin front tag.text := by
  obtain ⟨parts, attr, detail, named, valued, -, place⟩ := inlineStyle?_attr inline
  cases detail
  obtain ⟨before, after, written, placed⟩ :=
    Markup.render_inside (List.mem_of_find?_eq_some named) valued
  have text : tag.text = ("<" ++ before).toList ++ region.text.toList ++ after.toList := by
    rw [← String.toList_ofList (l := tag.text), ← opens, written, String.toList_append,
      String.toList_append]
  rw [placed] at place
  refine ⟨("<" ++ before).toList, after.toList, ?_, text, place.trans ?_⟩
  · rw [String.toList_append]
    exact List.cons_ne_nil _ _
  · have own : source = front ++ ("<" ++ before).toList ++
        (region.text.toList ++ after.toList ++ back) := by
      rw [split, text]
      simp only [List.append_assoc]
    exact Origin.ofRange_range whole own _

/-- A body stands behind the start tag of its block. -/
theorem inside_of_body (whole : origin.lead = 0) {piece : Markup.Piece} (spelled : piece.Spelled)
    (split : source = front ++ piece.text ++ back)
    (mem : region ∈ regions config (piece.token (.ofText source origin) (Text.bytes front)))
    (kind : region.kind ≠ .inlineStyle) :
    ∃ element start content finish, piece = .block element start content finish ∧
      region.origin = origin.after (front ++ start.text) ∧
      region.Inside origin front piece.text := by
  obtain ⟨element, start, content, finish, rfl, text, place⟩ := body_of_mem_regions mem kind
  rw [Markup.text_block] at split ⊢
  have own : source = front ++ start.text ++ (content ++ Markup.finishText finish ++ back) := by
    rw [split]
    simp only [List.append_assoc]
  have here := place.trans (Origin.ofRange_range whole own _)
  refine ⟨element, start, content, finish, rfl, here, start.text, Markup.finishText finish,
    spelled.1.nonempty, ?_, here⟩
  rw [text, String.toList_ofList]

theorem inside_of_regions (whole : origin.lead = 0) {piece : Markup.Piece}
    (spelled : piece.Spelled) (split : source = front ++ piece.text ++ back)
    (mem : region ∈ regions config (piece.token (.ofText source origin) (Text.bytes front))) :
    region.Inside origin front piece.text := by
  by_cases kind : region.kind = .inlineStyle
  · obtain ⟨tag, type, behind, opens, text, inline⟩ := inline_of_mem_regions spelled mem kind
    have own : source = front ++ tag.text ++ (behind ++ back) := by
      rw [split, text]
      simp only [List.append_assoc]
    rw [text]
    exact (inside_of_inlineStyle whole opens own inline).extend behind
  · obtain ⟨-, -, -, -, -, -, inside⟩ := inside_of_body whole spelled split mem kind
    exact inside

theorem pairwise_toList {α : Type} {R : α → α → Prop} (found : Option α) :
    found.toList.Pairwise R := by
  cases found with
  | none => exact .nil
  | some a => exact List.pairwise_singleton R a

theorem pairwise_contentRegions {R : Region → Region → Prop} (block : Token) :
    (contentRegions config block).Pairwise R := by
  unfold contentRegions
  split
  · exact pairwise_toList _
  · rw [scriptRegions_eq]
    exact pairwise_toList _

/-- The inline style of a block stands in front of its body. -/
theorem pairwise_regions (whole : origin.lead = 0) {piece : Markup.Piece} (spelled : piece.Spelled)
    (split : source = front ++ piece.text ++ back) :
    (regions config (piece.token (.ofText source origin) (Text.bytes front))).Pairwise
      Region.Before := by
  cases piece with
  | plain kind text => cases kind <;> exact .nil
  | endTag tag => exact .nil
  | startTag tag => exact pairwise_toList _
  | block element start content finish =>
    have block : ((Markup.Piece.block element start content finish).token (.ofText source origin)
        (Text.bytes front)).kind.isBlock = true := by
      rw [token_block]
      cases element <;> rfl
    rw [regions_of_isBlock block, List.pairwise_append]
    refine ⟨pairwise_toList _, pairwise_contentRegions _, fun first style second body => ?_⟩
    obtain ⟨part, hung, inline⟩ := mem_startRegions.mp style
    obtain ⟨nested, other⟩ := (mem_contentRegions block).mp body
    obtain ⟨_, tag, _, _, same, place, -⟩ :=
      inside_of_body whole spelled split (mem_regions_iff.mpr nested) other
    cases same
    obtain ⟨type, placed⟩ := placeStart_eq (.ofText source origin) (Text.bytes front) element start
    rw [token_block, placed] at hung
    cases hung
    have found := inlineStyle?_eq_some.mpr inline
    obtain ⟨-, -, -, -, -, filled, -⟩ := inlineStyle?_attr found
    have own : source = front ++ start.text ++ (content ++ Markup.finishText finish ++ back) := by
      rw [split, Markup.text_block]
      simp only [List.append_assoc]
    obtain ⟨-, last⟩ := (inside_of_inlineStyle whole spelled.1 own found).bounds
    have pos := Text.bytes_pos (s := first.text.toList) (by simpa using filled)
    rw [Region.Before, place]
    simp only [Origin.after]
    omega

/-- A nested text of a document stands in the piece that its token was cut out as. -/
theorem inside_of_place (whole : origin.lead = 0) {found : List Markup.Piece}
    (spelled : ∀ piece ∈ found, piece.Spelled)
    (split : source = front ++ found.flatMap Markup.Piece.text ++ back)
    (mem : region ∈ (Markup.place (.ofText source origin) (Text.bytes front) found).flatMap
      (regions config)) :
    ∃ before text after, found.flatMap Markup.Piece.text = before ++ text ++ after ∧
      region.Inside origin (front ++ before) text := by
  obtain ⟨token, inside, held⟩ := List.mem_flatMap.mp mem
  obtain ⟨ahead, piece, behind, rfl, rfl⟩ := mem_place inside
  rw [← Text.bytes_append] at held
  have own := spelled piece (List.mem_append_right ahead List.mem_cons_self)
  rw [List.flatMap_append, List.flatMap_cons] at split ⊢
  refine ⟨_, _, _, (List.append_assoc _ _ _).symm, ?_⟩
  have part : source = front ++ ahead.flatMap Markup.Piece.text ++ piece.text ++
      (behind.flatMap Markup.Piece.text ++ back) := by
    rw [split]
    simp only [List.append_assoc]
  exact inside_of_regions whole own part held

theorem pairwise_place (whole : origin.lead = 0) {found : List Markup.Piece}
    (spelled : ∀ piece ∈ found, piece.Spelled)
    (split : source = front ++ found.flatMap Markup.Piece.text ++ back) :
    ((Markup.place (.ofText source origin) (Text.bytes front) found).flatMap
      (regions config)).Pairwise Region.Before := by
  induction found generalizing front with
  | nil => exact .nil
  | cons piece rest ih =>
    obtain ⟨own, others⟩ := List.forall_mem_cons.mp spelled
    have first : source = front ++ piece.text ++ (rest.flatMap Markup.Piece.text ++ back) := by
      rw [split, List.flatMap_cons]
      simp only [List.append_assoc]
    have later : source = front ++ piece.text ++ rest.flatMap Markup.Piece.text ++ back := by
      rw [first]
      simp only [List.append_assoc]
    rw [Markup.place, ← Text.bytes_append, List.flatMap_cons, List.pairwise_append]
    refine ⟨pairwise_regions whole own first, ih others later, fun a here b there => ?_⟩
    obtain ⟨start, stop⟩ := (inside_of_regions whole own first here).bounds
    obtain ⟨before, text, after, -, inside⟩ := inside_of_place whole others later there
    have behind := inside.bounds.1
    rw [Text.bytes_append] at behind
    rw [Region.Before]
    omega

theorem map_locate (config : Config) (tokens : List Token) :
    (locate config tokens).map Prod.snd = tokens.flatMap (regions config) := by
  unfold locate
  generalize 0 = index
  induction tokens generalizing index with
  | nil => rfl
  | cons token rest ih =>
    rw [List.zipIdx_cons, List.flatMap_cons, List.map_append, ih, List.map_map, List.flatMap_cons]
    congr 1
    exact List.map_id _

/-- In a document that starts at any origin with its first character, the nested texts are found in
the order in which they stand, apart from each other, each as it stands and at its place. They are
the nested texts of the tokens: one for each start tag whose first style attribute has a value that
is not empty, one for each style block, one for each script block whose type is known, and no
others. -/
theorem located_of_tokenize {t : Template.Scanner} (config : Config) {origin : Origin}
    {source : String} {tokens : List Token} (whole : origin.lead = 0)
    (h : Markup.tokenize t origin source = .ok tokens) :
    ((locate config tokens).map Prod.snd).Pairwise Region.Before ∧
    (∀ index region, (index, region) ∈ locate config tokens → ∃ before after,
      source.toList = before ++ region.text.toList ++ after ∧
        region.origin = origin.after before ∧
        ∀ front, origin = .behind front → region.origin = .behind (front ++ before)) ∧
    (∀ index region, (index, region) ∈ locate config tokens ↔
      ∃ token, tokens[index]? = some token ∧ Nested config token region) ∧
    ∀ token ∈ tokens, (∀ region, Nested config token region → Bears config token region.kind) ∧
      ∀ kind, Bears config token kind →
        ∃! region, Nested config token region ∧ region.kind = kind := by
  obtain ⟨found, cut, rfl⟩ := Markup.tokenize_eq_ok h
  have spelled := Markup.pieces_spelled cut
  have split : source.toList = [] ++ found.flatMap Markup.Piece.text ++ [] := by
    rw [Markup.pieces_text cut, List.nil_append, List.append_nil]
  refine ⟨?_, ?_, ?_, ?_⟩
  · rw [map_locate]
    exact pairwise_place whole spelled split
  · intro index region mem
    have inside := List.mem_map_of_mem (f := Prod.snd) mem
    rw [map_locate] at inside
    obtain ⟨front, text, behind, parts, before, after, -, rfl, place⟩ :=
      inside_of_place whole spelled split inside
    refine ⟨front ++ before, after ++ behind, ?_, place, ?_⟩
    · rw [split, parts]
      simp only [List.nil_append, List.append_nil, List.append_assoc]
    · rintro start rfl
      exact place.trans (Origin.behind_after start _)
  · intro index region
    simp only [mem_locate, mem_regions_iff]
  · intro token mem
    refine ⟨fun region nested => (bears_iff h mem).mpr ⟨region, nested, rfl⟩, fun kind some => ?_⟩
    obtain ⟨region, nested, rfl⟩ := (bears_iff h mem).mp some
    exact ⟨region, ⟨nested, rfl⟩, fun other ⟨again, same⟩ => again.unique nested same⟩

/-- Scripts of one type hold markup. -/
def oneDialect : Config := ⟨.standard, some ⟨["tpl"], .standard⟩⟩

/-- A style element with an inline style and no body, and a script without an end tag, in a document
that starts in the middle of a line. -/
theorem located_of_tokenize_twoBlocks :
    (⟨5, 2, 3, 0⟩ : Origin).lead = 0 ∧ ∃ tokens block,
      Markup.tokenize (Template.Adapters.empty.scanner .standard) ⟨5, 2, 3, 0⟩
          "<style style='a:b'></style>\n<script type=TPL style=''><p STYLE=c:d>" = .ok tokens ∧
        locate oneDialect tokens =
          [(0, ⟨.inlineStyle, "a:b", ⟨19, 2, 17, 0⟩, none⟩),
            (0, ⟨.styleBlock, "", ⟨24, 2, 22, 0⟩, none⟩),
            (2, ⟨.templateScript, "<p STYLE=c:d>", ⟨59, 3, 26, 0⟩, some "tpl"⟩)] ∧
        ((locate oneDialect tokens).map Prod.snd).Pairwise Region.Before ∧
        tokens[0]? = some block ∧ Bears oneDialect block .inlineStyle := by
  have seen : (Markup.tokenize (Template.Adapters.empty.scanner .standard) ⟨5, 2, 3, 0⟩
      "<style style='a:b'></style>\n<script type=TPL style=''><p STYLE=c:d>").toOption.bind
        (fun tokens => some (locate oneDialect tokens)) =
      some [(0, ⟨.inlineStyle, "a:b", ⟨19, 2, 17, 0⟩, none⟩),
        (0, ⟨.styleBlock, "", ⟨24, 2, 22, 0⟩, none⟩),
        (2, ⟨.templateScript, "<p STYLE=c:d>", ⟨59, 3, 26, 0⟩, some "tpl"⟩)] := by
    decide +kernel
  obtain ⟨tokens, read, seen⟩ := Outcome.exists_of_toOption_bind seen
  have found := Option.some.inj seen
  obtain ⟨order, -, nested, bears⟩ := located_of_tokenize oneDialect rfl read
  have style : (0, (⟨.inlineStyle, "a:b", ⟨19, 2, 17, 0⟩, none⟩ : Region)) ∈
      locate oneDialect tokens := by
    rw [found]
    exact List.mem_cons_self
  obtain ⟨block, first, held⟩ := (nested _ _).mp style
  exact ⟨rfl, tokens, block, read, found, order, first,
    (bears block (List.mem_of_getElem? first)).1 _ held⟩

end Embedding

end Mosaic
