import Mathlib.Data.List.Chain
import Mosaic.Proofs.Outcome
import Mosaic.Proofs.Style.Stand

/-! The grammar of the tokens of a style sheet. Braces and semicolons cut a sheet into segments;
without its spaces and comments a segment is the heading of a block or a declaration, and
declarations stand in blocks only. -/
namespace Mosaic

/-- Whether tokens of this kind are runs of text. -/
def TokenKind.isRun : TokenKind → Bool
  | .selector | .atRule | .property | .value => true
  | _ => false

/-- Whether tokens of this kind belong to headings. -/
def TokenKind.isHeading : TokenKind → Bool
  | .selector | .atRule => true
  | _ => false

/-- Whether tokens of this kind belong to declarations. -/
def TokenKind.isDeclaration : TokenKind → Bool
  | .property | .colon | .value => true
  | _ => false

theorem TokenKind.of_isRun {kind : TokenKind} (run : kind.isRun = true) :
    kind.cuts = false ∧ kind.isLoose = false := by
  cases kind <;> first | exact ⟨rfl, rfl⟩ | cases run

theorem TokenKind.of_isDeclaration {kind : TokenKind} (part : kind.isDeclaration = true) :
    kind.cuts = false ∧ kind.isLoose = false ∧ kind.isHeading = false := by
  cases kind <;> first | exact ⟨rfl, rfl, rfl⟩ | cases part

namespace Style

/-- A token as a piece. -/
def Piece.ofToken (token : Token) : Piece := ⟨token.kind, token.value.toList⟩

/-- The pieces that do not only lay a sheet out. -/
def solid (pieces : List Piece) : List Piece := pieces.filter fun piece => !piece.kind.isTrivia

/-- A part of a sheet between two cuts, or between a cut and an end of the sheet. -/
structure IsSegment (pieces front segment back : List Piece) : Prop where
  parts : pieces = front ++ segment ++ back
  whole : ∀ piece ∈ segment, piece.kind.cuts = false
  begins : ∀ piece, front.getLast? = some piece → piece.kind.cuts = true
  ends : ∀ piece, back.head? = some piece → piece.kind.cuts = true

/-- The number of open blocks behind a piece; a right brace outside of all blocks closes nothing. -/
def depthAfter (depth : Nat) (piece : Piece) : Nat :=
  match piece.kind with
  | .leftBrace => depth + 1
  | .rightBrace => depth - 1
  | _ => depth

/-- The number of blocks that are open behind the pieces that a sheet begins with. -/
def depth (front : List Piece) : Nat := front.foldl depthAfter 0

/-- Selectors, at-rules and loose pieces. -/
def Heading (segment : List Piece) : Prop :=
  ∀ piece ∈ segment, piece.kind.isHeading = true ∨ piece.kind.isLoose = true

/-- Properties and loose pieces, and behind a colon values and loose pieces. -/
inductive Declaration : List Piece → Prop
  | names {names : List Piece} :
    (∀ piece ∈ names, piece.kind = .property ∨ piece.kind.isLoose = true) → Declaration names
  | valued {names values : List Piece} {colon : Piece} :
    (∀ piece ∈ names, piece.kind = .property ∨ piece.kind.isLoose = true) → colon.kind = .colon →
    (∀ piece ∈ values, piece.kind = .value ∨ piece.kind.isLoose = true) →
      Declaration (names ++ colon :: values)

theorem isHeading_runKind (text : List Char) : (runKind .heading text).isHeading = true := by
  rcases runKind_heading text with kind | kind <;> rw [kind] <;> rfl

theorem Declaration.cons {piece : Piece} {rest : List Piece}
    (name : piece.kind = .property ∨ piece.kind.isLoose = true) (h : Declaration rest) :
    Declaration (piece :: rest) := by
  cases h with
  | names all => exact .names (List.forall_mem_cons.mpr ⟨name, all⟩)
  | valued all colon values =>
    exact .valued (List.forall_mem_cons.mpr ⟨name, all⟩) colon values

namespace Stand

variable {s : Stand} {opens : Bool} {piece : Piece}

theorem part_after_loose (loose : piece.kind.isLoose = true) : (s.after piece).part = s.part := by
  rcases piece with ⟨kind, text⟩
  cases kind <;> first | rfl | cases loose

theorem part_after_cut (cut : piece.kind.cuts = true) : (s.after piece).part = .lead := by
  rcases piece with ⟨kind, text⟩
  cases kind <;> first | rfl | cases cut

theorem inside_after (whole : piece.kind.cuts = false) :
    (s.after piece).nest.Inside ↔ s.nest.Inside := by
  rcases piece with ⟨kind, text⟩
  cases kind <;> first | rfl | cases whole

theorem free_after_run (run : piece.kind.isRun = true) : (s.after piece).free = false := by
  rcases piece with ⟨kind, text⟩
  cases kind <;> first | rfl | cases run

/-- A run stands where one can stand. -/
theorem Admits.run (h : s.Admits opens piece) (run : piece.kind.isRun = true) :
    s.free = true ∧ Firm piece.text ∧
      (piece.kind.isHeading = true → piece.kind = runKind .heading piece.text) := by
  obtain ⟨whole, heavy⟩ := TokenKind.of_isRun run
  cases h with
  | cut cut => exact absurd (whole.symm.trans cut) Bool.false_ne_true
  | loose loose => exact absurd (heavy.symm.trans loose) Bool.false_ne_true
  | heading free firm => exact ⟨free, firm, fun _ => rfl⟩
  | name free firm => exact ⟨free, firm, fun heading => nomatch heading⟩
  | colon => cases run
  | value free firm => exact ⟨free, firm, fun heading => nomatch heading⟩

/-- Parts of a declaration stand directly in a declaration block. -/
theorem Admits.inside (h : s.Admits opens piece) (part : piece.kind.isDeclaration = true) :
    s.nest.Inside := by
  obtain ⟨whole, heavy, other⟩ := TokenKind.of_isDeclaration part
  cases h with
  | cut cut => exact absurd (whole.symm.trans cut) Bool.false_ne_true
  | loose loose => exact absurd (heavy.symm.trans loose) Bool.false_ne_true
  | heading => exact absurd (other.symm.trans (isHeading_runKind _)) Bool.false_ne_true
  | name _ _ _ inside => exact inside
  | colon _ inside => exact inside
  | value _ _ _ inside => exact inside

end Stand

namespace Laid

variable {s : Stand} {front segment back : List Piece}

/-- What holds of the pieces that can stand behind one that is no cut, in a part that they do not
leave, holds of all pieces up to the next cut. -/
theorem forall_mem {P : Piece → Prop} {part : Part}
    (keep : ∀ (s : Stand) (opens : Bool) (piece : Piece), s.part = part → s.Admits opens piece →
      piece.kind.cuts = false → P piece ∧ (s.after piece).part = part)
    (h : Laid s (segment ++ back)) (whole : ∀ piece ∈ segment, piece.kind.cuts = false)
    (start : s.part = part) : ∀ piece ∈ segment, P piece := by
  induction segment generalizing s with
  | nil => exact fun _ mem => (nomatch mem)
  | cons piece rest ih =>
    obtain ⟨self, others⟩ := List.forall_mem_cons.mp whole
    rw [List.cons_append, laid_cons] at h
    obtain ⟨admits, later⟩ := h
    obtain ⟨holds, stays⟩ := keep s _ piece start admits self
    exact List.forall_mem_cons.mpr ⟨holds, ih later others stays⟩

theorem heading (h : Laid s (segment ++ back)) (whole : ∀ piece ∈ segment, piece.kind.cuts = false)
    (start : s.part = .heading) : Heading segment := by
  refine h.forall_mem ?_ whole start
  intro s opens piece start admits whole
  cases admits with
  | cut cut => exact absurd (whole.symm.trans cut) Bool.false_ne_true
  | loose loose => exact ⟨.inr loose, (s.part_after_loose loose).trans start⟩
  | heading => exact ⟨.inl (isHeading_runKind _), s.part_after_heading _⟩
  | name _ _ part => exact absurd part (by rw [start]; decide)
  | colon part => exact absurd part (by rw [start]; decide)
  | value _ _ part => exact absurd part (by rw [start]; decide)

theorem values (h : Laid s (segment ++ back)) (whole : ∀ piece ∈ segment, piece.kind.cuts = false)
    (start : s.part = .values) :
    ∀ piece ∈ segment, piece.kind = .value ∨ piece.kind.isLoose = true := by
  refine h.forall_mem ?_ whole start
  intro s opens piece start admits whole
  cases admits with
  | cut cut => exact absurd (whole.symm.trans cut) Bool.false_ne_true
  | loose loose => exact ⟨.inr loose, (s.part_after_loose loose).trans start⟩
  | heading _ _ part => exact absurd part (by rw [start]; decide)
  | name _ _ part => exact absurd part (by rw [start]; decide)
  | colon part => exact absurd part (by rw [start]; decide)
  | value => exact ⟨.inl rfl, rfl⟩

theorem declaration (h : Laid s (segment ++ back))
    (whole : ∀ piece ∈ segment, piece.kind.cuts = false) (start : s.part = .names) :
    Declaration segment := by
  induction segment generalizing s with
  | nil => exact .names (List.forall_mem_nil _)
  | cons piece rest ih =>
    obtain ⟨self, others⟩ := List.forall_mem_cons.mp whole
    rw [List.cons_append, laid_cons] at h
    obtain ⟨admits, later⟩ := h
    cases admits with
    | cut cut => exact absurd (self.symm.trans cut) Bool.false_ne_true
    | loose loose =>
      exact .cons (.inr loose) (ih later others ((s.part_after_loose loose).trans start))
    | heading _ _ part => exact absurd part (by rw [start]; decide)
    | name => exact .cons (.inl rfl) (ih later others rfl)
    | colon => exact .valued (List.forall_mem_nil _) rfl (later.values others rfl)
    | value _ _ part => exact absurd part (by rw [start]; decide)

/-- From one cut to the next there is a heading or a declaration. -/
theorem heading_or_declaration (h : Laid s (segment ++ back))
    (whole : ∀ piece ∈ segment, piece.kind.cuts = false) (start : s.part = .lead) :
    Heading segment ∨ Declaration segment := by
  induction segment generalizing s with
  | nil => exact .inl (List.forall_mem_nil _)
  | cons piece rest ih =>
    obtain ⟨self, others⟩ := List.forall_mem_cons.mp whole
    rw [List.cons_append, laid_cons] at h
    obtain ⟨admits, later⟩ := h
    cases admits with
    | cut cut => exact absurd (self.symm.trans cut) Bool.false_ne_true
    | loose loose =>
      rcases ih later others ((s.part_after_loose loose).trans start) with all | all
      · exact .inl (List.forall_mem_cons.mpr ⟨.inr loose, all⟩)
      · exact .inr (.cons (.inr loose) all)
    | heading =>
      have all := later.heading others (s.part_after_heading _)
      exact .inl (List.forall_mem_cons.mpr ⟨.inl (isHeading_runKind _), all⟩)
    | name => exact .inr (.cons (.inl rfl) (later.declaration others rfl))
    | colon => exact .inr (.valued (List.forall_mem_nil _) rfl (later.values others rfl))
    | value _ _ part => exact absurd part (by rw [start]; decide)

theorem inside (h : Laid s (segment ++ back)) (whole : ∀ piece ∈ segment, piece.kind.cuts = false)
    {piece : Piece} (mem : piece ∈ segment) (part : piece.kind.isDeclaration = true) :
    s.nest.Inside := by
  induction segment generalizing s with
  | nil => cases mem
  | cons first rest ih =>
    obtain ⟨self, others⟩ := List.forall_mem_cons.mp whole
    rw [List.cons_append, laid_cons] at h
    obtain ⟨admits, later⟩ := h
    rcases List.mem_cons.mp mem with rfl | mem
    · exact admits.inside part
    · exact (s.inside_after self).mp (ih later others mem)

/-- Two runs are not next to each other. -/
theorem isChain (h : Laid s front) :
    front.IsChain fun left right => ¬ (left.kind.isRun = true ∧ right.kind.isRun = true) := by
  induction front generalizing s with
  | nil => exact .nil
  | cons left rest ih =>
    rw [laid_cons] at h
    obtain ⟨-, later⟩ := h
    cases rest with
    | nil => exact .singleton _
    | cons right rest =>
      refine .cons_cons ?_ (ih later)
      rintro ⟨run, next⟩
      have free := ((laid_cons.mp later).1.run next).1
      rw [s.free_after_run run] at free
      cases free

theorem behind (h : Laid s (front ++ back)) : Laid (front.foldl Stand.after s) back := by
  induction front generalizing s with
  | nil => exact h
  | cons piece rest ih =>
    rw [List.cons_append, laid_cons] at h
    obtain ⟨-, later⟩ := h
    exact ih later

/-- A run has a firm text, and is an at-rule if it begins with the sign of one. -/
theorem run (h : Laid s front) {piece : Piece} (mem : piece ∈ front)
    (run : piece.kind.isRun = true) : Firm piece.text ∧
      (piece.kind.isHeading = true → piece.kind = runKind .heading piece.text) := by
  induction front generalizing s with
  | nil => cases mem
  | cons first rest ih =>
    rw [laid_cons] at h
    obtain ⟨admits, later⟩ := h
    rcases List.mem_cons.mp mem with rfl | mem
    · exact (admits.run run).2
    · exact ih later mem

theorem solid (h : Laid s front) : leadsToBlock (Style.solid front) = leadsToBlock front ∧
    Laid s (Style.solid front) := by
  induction h with
  | nil => exact ⟨rfl, .nil⟩
  | @cons s piece rest admits _ ih =>
    obtain ⟨same, laid⟩ := ih
    by_cases blank : piece.kind.isTrivia = true
    · rw [s.after_trivia blank] at laid
      have dropped : Style.solid (piece :: rest) = Style.solid rest :=
        List.filter_cons_of_neg (by simp [blank])
      rw [dropped, same]
      have single : ∀ other ∈ [piece], other.kind.isTrivia = true :=
        List.forall_mem_singleton.mpr blank
      exact ⟨(leadsToBlock_trivia single rest).symm, laid⟩
    · have kept : Style.solid (piece :: rest) = piece :: Style.solid rest :=
        List.filter_cons_of_pos (by simpa using blank)
      rw [kept]
      refine ⟨?_, .cons (same.symm ▸ admits) laid⟩
      simp only [leadsToBlock, same]

end Laid

theorem Stand.length_blocks_after (s : Stand) (piece : Piece) :
    (s.after piece).nest.blocks.length = depthAfter s.nest.blocks.length piece := by
  rcases piece with ⟨kind, text⟩
  cases kind <;> first | rfl | exact List.length_tail

theorem length_blocks_behind (s : Stand) (front : List Piece) :
    (front.foldl Stand.after s).nest.blocks.length =
      front.foldl depthAfter s.nest.blocks.length := by
  induction front generalizing s with
  | nil => rfl
  | cons piece rest ih => rw [List.foldl_cons, List.foldl_cons, ih, s.length_blocks_after]

/-- A segment begins with nothing read of it. -/
theorem IsSegment.part {pieces front segment back : List Piece}
    (h : IsSegment pieces front segment back) :
    (front.foldl Stand.after (.fresh [])).part = .lead := by
  rcases List.eq_nil_or_concat front with rfl | ⟨before, last, rfl⟩
  · rfl
  · rw [List.concat_eq_append, List.foldl_concat]
    exact Stand.part_after_cut (h.begins last (by simp))

theorem map_ofToken_place (locator : Locator) (offset : Nat) (found : List Piece) :
    (place locator offset found).map Piece.ofToken = found := by
  induction found generalizing offset with
  | nil => rfl
  | cons piece rest ih =>
    rw [place, List.map_cons, ih]
    exact congrArg (fun text => (⟨piece.kind, text⟩ : Piece) :: rest) String.toList_ofList

theorem laid_of_tokenize {t : Template.Scanner} {origin : Origin} {source : String}
    {tokens : List Token} (h : tokenize t origin source = .ok tokens) :
    Laid (.fresh []) (tokens.map Piece.ofToken) := by
  obtain ⟨found, read, rfl⟩ := tokenize_eq_ok h
  rw [map_ofToken_place]
  exact laid_of_read read

/-- The grammar of the tokens of a style sheet: without spaces and comments every segment is a
heading, or a declaration inside of a block, and has no two runs next to each other. -/
theorem segments_of_tokenize {t : Template.Scanner} {origin : Origin} {source : String}
    {tokens : List Token} (h : tokenize t origin source = .ok tokens) :
    (∀ front segment back, IsSegment (solid (tokens.map Piece.ofToken)) front segment back →
      (Heading segment ∨ Declaration segment) ∧
      (∀ piece ∈ segment, piece.kind.isDeclaration = true → 0 < depth front) ∧
      segment.IsChain fun left right =>
        ¬ (left.kind.isRun = true ∧ right.kind.isRun = true)) ∧
    ∀ token ∈ tokens, token.kind.isRun = true → Firm token.value.toList ∧
      (token.kind.isHeading = true →
        (token.kind = .atRule ↔ token.value.toList.head? = some '@')) := by
  have laid := laid_of_tokenize h
  constructor
  · intro front segment back cut
    have solid := laid.solid.2
    rw [cut.parts, List.append_assoc] at solid
    have here := solid.behind
    refine ⟨here.heading_or_declaration cut.whole cut.part, ?_, here.isChain.left_of_append⟩
    intro piece mem part
    have inside := here.inside cut.whole mem part
    have length := length_blocks_behind (.fresh []) front
    rw [depth, ← show (Stand.fresh []).nest.blocks.length = 0 from rfl, ← length]
    exact List.length_pos_of_mem (List.mem_of_head? inside)
  · intro token mem run
    obtain ⟨firm, kind⟩ := laid.run (List.mem_map_of_mem mem) run
    refine ⟨firm, fun heading => ?_⟩
    rw [show token.kind = runKind .heading token.value.toList from kind heading]
    simp only [runKind]
    split <;> simp_all

/-- The declaration of a sheet with a template region for a value. -/
theorem segments_of_tokenize_region : ∃ tokens front segment back,
    tokenize (Template.Adapters.empty.scanner .standard) .zero
      "p \x7b/**/ a: \x7b%x%\x7d b;\x7d" = .ok tokens ∧
    IsSegment (solid (tokens.map Piece.ofToken)) front segment back ∧
    segment = [⟨.property, ['a']⟩, ⟨.colon, [':']⟩, ⟨.template, "\x7b%x%\x7d".toList⟩,
      ⟨.value, ['b']⟩] ∧
    (Heading segment ∨ Declaration segment) ∧ 0 < depth front := by
  obtain ⟨tokens, read⟩ := Outcome.exists_of_toBool
    (e := tokenize (Template.Adapters.empty.scanner .standard) .zero
      "p \x7b/**/ a: \x7b%x%\x7d b;\x7d") (by decide +kernel)
  have seen : (tokenize (Template.Adapters.empty.scanner .standard) .zero
      "p \x7b/**/ a: \x7b%x%\x7d b;\x7d").toOption.map
        (fun tokens => solid (tokens.map Piece.ofToken)) =
      some ([⟨.selector, ['p']⟩, ⟨.leftBrace, ['\x7b']⟩] ++
        [⟨.property, ['a']⟩, ⟨.colon, [':']⟩, ⟨.template, "\x7b%x%\x7d".toList⟩,
          ⟨.value, ['b']⟩] ++ [⟨.semicolon, [';']⟩, ⟨.rightBrace, ['\x7d']⟩]) := by
    decide +kernel
  rw [read] at seen
  have cut : IsSegment (solid (tokens.map Piece.ofToken)) _ _ _ :=
    ⟨Option.some.inj seen, by decide, by decide, by decide⟩
  obtain ⟨shape, inside, -⟩ := (segments_of_tokenize read).1 _ _ _ cut
  exact ⟨tokens, _, _, _, read, cut, rfl, shape,
    inside ⟨.property, ['a']⟩ (List.mem_cons_self ..) rfl⟩

end Style

end Mosaic
