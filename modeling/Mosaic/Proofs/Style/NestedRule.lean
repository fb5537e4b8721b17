import Mosaic.Proofs.Style.Segment

/-! Rules in declaration blocks. What a left brace ends there is read as a heading, unless it begins
with a colon: a colon in front of every name is the colon of a declaration, even if a left brace
comes before its end. -/
namespace Mosaic.Style

/-- What stands first besides template regions, spaces and comments begins with a colon. -/
def BeginsWithColon (stretch : List Piece) : Prop :=
  ∃ first, stretch.find? (fun piece => !piece.kind.isLoose) = some first ∧
    first.text.head? = some ':'

theorem beginsWithColon_cons_loose {piece : Piece} {rest : List Piece}
    (loose : piece.kind.isLoose = true) :
    BeginsWithColon (piece :: rest) ↔ BeginsWithColon rest := by
  unfold BeginsWithColon
  rw [List.find?_cons_of_neg (by simp [loose])]

theorem beginsWithColon_cons_heavy {piece : Piece} {rest : List Piece}
    (heavy : piece.kind.isLoose = false) :
    BeginsWithColon (piece :: rest) ↔ piece.text.head? = some ':' := by
  unfold BeginsWithColon
  rw [List.find?_cons_of_pos (by simp [heavy])]
  simp

/-- Loose pieces, a colon, and behind it values and loose pieces. -/
def Unnamed (stretch : List Piece) : Prop :=
  ∃ lead colon values, stretch = lead ++ colon :: values ∧
    (∀ piece ∈ lead, piece.kind.isLoose = true) ∧ colon.kind = .colon ∧
    ∀ piece ∈ values, piece.kind = .value ∨ piece.kind.isLoose = true

theorem Unnamed.cons {piece : Piece} {rest : List Piece} (loose : piece.kind.isLoose = true)
    (h : Unnamed rest) : Unnamed (piece :: rest) := by
  obtain ⟨lead, colon, values, rfl, all, kind, behind⟩ := h
  exact ⟨piece :: lead, colon, values, rfl, List.forall_mem_cons.mpr ⟨loose, all⟩, kind, behind⟩

theorem leadsToBlock_of_whole {segment : List Piece}
    (whole : ∀ piece ∈ segment, piece.kind.cuts = false) (back : List Piece) :
    leadsToBlock (segment ++ back) = leadsToBlock back := by
  induction segment with
  | nil => rfl
  | cons piece rest ih =>
    obtain ⟨self, others⟩ := List.forall_mem_cons.mp whole
    rw [← ih others]
    rcases piece with ⟨kind, text⟩
    cases kind <;> first | rfl | cases self

/-- In a declaration block, what a left brace ends is a heading, or begins with a colon. -/
theorem Laid.nestedRule {s : Stand} {stretch back : List Piece} (h : Laid s (stretch ++ back))
    (whole : ∀ piece ∈ stretch, piece.kind.cuts = false) (start : s.part = .lead)
    (inside : s.nest.Inside) (opens : leadsToBlock back = true)
    (spelled : ∀ piece ∈ stretch, piece.Spelled) :
    (BeginsWithColon stretch → Unnamed stretch) ∧ (¬ BeginsWithColon stretch → Heading stretch) := by
  induction stretch generalizing s with
  | nil =>
    refine ⟨?_, fun _ => List.forall_mem_nil _⟩
    rintro ⟨_, ⟨⟩, -⟩
  | cons piece rest ih =>
    obtain ⟨self, others⟩ := List.forall_mem_cons.mp whole
    obtain ⟨sign, spelled⟩ := List.forall_mem_cons.mp spelled
    rw [List.cons_append, laid_cons] at h
    obtain ⟨admits, later⟩ := h
    cases admits with
    | cut cut => exact absurd (self.symm.trans cut) Bool.false_ne_true
    | loose loose =>
      have still := (s.part_after_loose loose).trans start
      obtain ⟨colon, plain⟩ := ih later others still ((s.inside_after self).mpr inside) spelled
      rw [beginsWithColon_cons_loose loose]
      refine ⟨fun begins => (colon begins).cons loose, fun begins => ?_⟩
      exact List.forall_mem_cons.mpr ⟨.inr loose, plain begins⟩
    | @heading text _ _ _ nested =>
      have heavy : (runKind .heading text).isLoose = false := by
        rcases runKind_heading text with kind | kind <;> rw [kind] <;> rfl
      rw [beginsWithColon_cons_heavy heavy]
      refine ⟨fun begins => absurd begins ((nested inside).2 start), fun _ => ?_⟩
      have all := later.heading others (s.part_after_heading _)
      exact List.forall_mem_cons.mpr ⟨.inl (isHeading_runKind _), all⟩
    | name _ _ _ _ closed =>
      rw [leadsToBlock_of_whole others, opens] at closed
      cases closed
    | @colon text =>
      have colon : text = [':'] := sign.sign ':' rfl
      rw [beginsWithColon_cons_heavy rfl]
      refine ⟨fun _ => ?_, fun plain => absurd (by rw [colon]; rfl) plain⟩
      exact ⟨[], _, rest, rfl, List.forall_mem_nil _, rfl, later.values others rfl⟩
    | value _ _ part => exact absurd part (by rw [start]; decide)

/-- The open blocks behind the pieces that a sheet begins with. -/
def nestBehind (front : List Piece) : Nest := front.foldl Nest.after .outside

theorem nest_foldl (s : Stand) (front : List Piece) :
    (front.foldl Stand.after s).nest = front.foldl Nest.after s.nest := by
  induction front generalizing s with
  | nil => rfl
  | cons piece rest ih => rw [List.foldl_cons, List.foldl_cons, ih, Stand.after]

theorem spelled_of_tokenize {t : Template.Scanner} {origin : Origin} {source : String}
    {tokens : List Token} (h : tokenize t origin source = .ok tokens) :
    ∀ piece ∈ tokens.map Piece.ofToken, piece.Spelled := by
  obtain ⟨found, read, rfl⟩ := tokenize_eq_ok h
  rw [map_ofToken_place]
  exact read_spelled read

/-- Directly in a declaration block the tokens between two cuts, the second of which is a left
brace, are a heading, unless the first of them that is no template region, space or comment begins
with a colon. No token between them is a property. -/
theorem nestedRule_of_tokenize {t : Template.Scanner} {origin : Origin} {source : String}
    {tokens : List Token} {front stretch back : List Piece} {brace : Piece}
    (h : tokenize t origin source = .ok tokens)
    (cut : IsSegment (tokens.map Piece.ofToken) front stretch (brace :: back))
    (ends : brace.kind = .leftBrace) (inside : (nestBehind front).Inside) :
    (BeginsWithColon stretch → Unnamed stretch) ∧ (¬ BeginsWithColon stretch → Heading stretch) := by
  have laid := laid_of_tokenize h
  have spelled := spelled_of_tokenize h
  rw [cut.parts, List.append_assoc] at laid spelled
  have own := (List.forall_mem_append.mp (List.forall_mem_append.mp spelled).2).1
  refine laid.behind.nestedRule cut.whole cut.part ?_ ?_ own
  · rw [nest_foldl]
    exact inside
  · simp only [leadsToBlock, ends]

/-- A rule in a declaration block, behind a declaration. -/
theorem nestedRule_of_tokenize_parent : ∃ tokens front stretch back,
    tokenize (Template.Adapters.empty.scanner .standard) .zero
      "p\x7ba:b; &:hover\x7b\x7d\x7d" = .ok tokens ∧
    IsSegment (tokens.map Piece.ofToken) front stretch (⟨.leftBrace, ['\x7b']⟩ :: back) ∧
    (nestBehind front).Inside ∧ stretch = [⟨.styleBlank, [' ']⟩, ⟨.selector, "&:hover".toList⟩] ∧
    Heading stretch := by
  obtain ⟨tokens, read⟩ := Outcome.exists_of_toBool
    (e := tokenize (Template.Adapters.empty.scanner .standard) .zero
      "p\x7ba:b; &:hover\x7b\x7d\x7d") (by decide +kernel)
  have seen : (tokenize (Template.Adapters.empty.scanner .standard) .zero
      "p\x7ba:b; &:hover\x7b\x7d\x7d").toOption.map (List.map Piece.ofToken) =
      some ([⟨.selector, ['p']⟩, ⟨.leftBrace, ['\x7b']⟩, ⟨.property, ['a']⟩, ⟨.colon, [':']⟩,
          ⟨.value, ['b']⟩, ⟨.semicolon, [';']⟩] ++
        [⟨.styleBlank, [' ']⟩, ⟨.selector, "&:hover".toList⟩] ++
        [⟨.leftBrace, ['\x7b']⟩, ⟨.rightBrace, ['\x7d']⟩, ⟨.rightBrace, ['\x7d']⟩]) := by
    decide +kernel
  rw [read] at seen
  have cut : IsSegment (tokens.map Piece.ofToken) _ _ (⟨.leftBrace, ['\x7b']⟩ :: _) :=
    ⟨Option.some.inj seen, by decide, by decide, by decide⟩
  have inside : (nestBehind [⟨.selector, ['p']⟩, ⟨.leftBrace, ['\x7b']⟩, ⟨.property, ['a']⟩,
      ⟨.colon, [':']⟩, ⟨.value, ['b']⟩, ⟨.semicolon, [';']⟩]).Inside := rfl
  have heading := (nestedRule_of_tokenize read cut rfl inside).2
  refine ⟨tokens, _, _, _, read, cut, inside, rfl, heading ?_⟩
  rintro ⟨_, ⟨⟩, ⟨⟩⟩

/-- A rule in a declaration block whose selector begins with a colon is not read as a heading. -/
theorem not_heading_of_colon : ∃ tokens front stretch back,
    tokenize (Template.Adapters.empty.scanner .standard) .zero "p\x7b:hover\x7b\x7d\x7d" =
      .ok tokens ∧
    IsSegment (tokens.map Piece.ofToken) front stretch (⟨.leftBrace, ['\x7b']⟩ :: back) ∧
    (nestBehind front).Inside ∧ ¬ Heading stretch := by
  obtain ⟨tokens, read⟩ := Outcome.exists_of_toBool
    (e := tokenize (Template.Adapters.empty.scanner .standard) .zero
      "p\x7b:hover\x7b\x7d\x7d") (by decide +kernel)
  have seen : (tokenize (Template.Adapters.empty.scanner .standard) .zero
      "p\x7b:hover\x7b\x7d\x7d").toOption.map (List.map Piece.ofToken) =
      some ([⟨.selector, ['p']⟩, ⟨.leftBrace, ['\x7b']⟩] ++
        [⟨.colon, [':']⟩, ⟨.value, "hover".toList⟩] ++
        [⟨.leftBrace, ['\x7b']⟩, ⟨.rightBrace, ['\x7d']⟩, ⟨.rightBrace, ['\x7d']⟩]) := by
    decide +kernel
  rw [read] at seen
  refine ⟨tokens, _, _, _, read, ⟨Option.some.inj seen, by decide, by decide, by decide⟩, rfl, ?_⟩
  intro heading
  rcases heading _ (List.mem_cons_self ..) with kind | kind <;> cases kind

end Mosaic.Style
