import Mosaic.Proofs.Failure
import Mosaic.Proofs.Style.Piece
import Mosaic.Proofs.Template

/-! Where a style sheet cannot be read on: at a template region or at a comment that does not end,
and at nothing else. -/
namespace Mosaic.Style

variable {t : Template.Scanner}

/-- A text begins with a comment that is not closed in front of the next template region. -/
structure OpenComment (t : Template.Scanner) (rest : List Char) : Prop where
  begins : ['/', '*'] <+: rest
  covered : ∀ i, 2 ≤ i → ['*', '/'] <+: rest.drop i →
    ∃ j, 2 ≤ j ∧ j < i + 2 ∧ t.opens (rest.drop j) = true

/-- What a style sheet cannot be read on for, and what the rest of it begins with then. -/
inductive Stops (t : Template.Scanner) : Cause → List Char → Prop
  | template {rest : List Char} : t.opens rest = true → Stops t .unclosedTemplate rest
  | comment {rest : List Char} : OpenComment t rest → Stops t .unclosedComment rest

theorem Stops.names {cause : Cause} {rest : List Char} (h : Stops t cause rest) :
    cause.Names t .style rest := by
  cases h with
  | template opens => exact Cause.names_of_opens opens
  | comment unclosed => exact .comment (by decide) unclosed.begins

theorem slashMark_stops {rest : List Char} {cause : Cause} (h : slashMark rest = .error cause) :
    cause = .unclosedComment ∧ ∃ body, rest = '*' :: body ∧ Text.endOf? ['*', '/'] body = none := by
  unfold slashMark at h
  split at h
  · next body =>
    split at h
    · cases h
    · next endless =>
      cases h
      exact ⟨rfl, body, rfl, endless⟩
  · cases h

theorem markAt_stops {c : Char} {rest : List Char} {cause : Cause}
    (h : markAt c rest = .error cause) :
    cause = .unclosedComment ∧ ∃ body, c :: rest = '/' :: '*' :: body ∧
      Text.endOf? ['*', '/'] body = none := by
  unfold markAt at h
  split at h
  · cases h
  · split at h
    · cases h
    · split at h
      · cases h
      · split at h
        · cases h
        · split at h
          · cases h
          · split at h
            · next slash =>
              subst slash
              obtain ⟨comment, body, rfl, endless⟩ := slashMark_stops h
              exact ⟨comment, body, rfl, endless⟩
            · split at h <;> cases h

theorem plainLexemes_stops {s : List Char} {found : List Lexeme} {cause : Cause}
    (h : plainLexemes s = (found, some cause)) :
    cause = .unclosedComment ∧ ∃ body, s = found.flatMap Lexeme.text ++ '/' :: '*' :: body ∧
      Text.endOf? ['*', '/'] body = none := by
  fun_induction plainLexemes s generalizing found with
  | case1 => cases h
  | case2 c rest cause marked =>
    cases h
    exact markAt_stops marked
  | case3 c rest mark n _ more _ later ih =>
    cases h
    obtain ⟨comment, body, split, endless⟩ := ih later
    refine ⟨comment, body, ?_, endless⟩
    rw [List.flatMap_cons, List.append_assoc, ← split, List.cons_append, List.take_append_drop]

/-- A comment without an end in the text up to the next template region. -/
theorem openComment_of_plain {body more : List Char}
    (endless : Text.endOf? ['*', '/'] body = none) (last : more = [] ∨ t.opens more = true) :
    OpenComment t ('/' :: '*' :: body ++ more) := by
  refine ⟨List.prefix_append ['/', '*'] (body ++ more), fun i behind closes => ?_⟩
  obtain ⟨k, rfl⟩ := Nat.exists_eq_add_of_le' behind
  have closes : ['*', '/'] <+: (body ++ more).drop k := closes
  by_cases inside : k + 2 ≤ body.length
  · rw [List.drop_append_of_le_length (by omega)] at closes
    have found := Text.isPrefixOf_of_append (List.isPrefixOf_iff_prefix.mpr closes) (by
      rw [List.length_drop]
      exact Nat.le_sub_of_add_le' inside)
    rw [Text.not_isPrefixOf_of_indexOf? (Option.map_eq_none_iff.mp endless)] at found
    cases found
  · rcases last with rfl | opens
    · have fits := closes.length_le
      rw [List.append_nil, List.length_drop] at fits
      exact absurd fits (by simp only [List.length_cons, List.length_nil]; omega)
    · refine ⟨body.length + 2, by omega, by omega, ?_⟩
      change t.opens ((body ++ more).drop body.length) = true
      rwa [List.drop_left]

/-- The lexemes that are found, and the rest that begins with what cannot be read on. -/
theorem lexemes_stops {s : List Char} {found : List Lexeme} {cause : Cause}
    (h : lexemes t s = (found, some cause)) :
    ∃ rest, s = found.flatMap Lexeme.text ++ rest ∧ Stops t cause rest := by
  fun_induction lexemes t s generalizing found with
  | case1 => cases h
  | case2 c rest opens =>
    cases h
    exact ⟨c :: rest, rfl, .template opens⟩
  | case3 c rest opens n _ more _ later ih =>
    cases h
    obtain ⟨behind, split, stops⟩ := ih later
    refine ⟨behind, ?_, stops⟩
    rw [List.flatMap_cons, List.append_assoc, ← split, List.cons_append, List.take_append_drop]
  | case4 c rest closed n plain cause =>
    rename_i stopped
    cases h
    obtain ⟨rfl, body, split, endless⟩ := plainLexemes_stops stopped
    have last : rest.drop n = [] ∨ t.opens (rest.drop n) = true := by
      cases next : t.nextOpen? rest with
      | none =>
        have size : n = rest.length := by simp only [n, next, Option.getD_none]
        rw [size]
        exact .inl List.drop_length
      | some m =>
        have size : n = m := by simp only [n, next, Option.getD_some]
        rw [size]
        exact .inr (Template.Scanner.opens_of_nextOpen? next).1
    refine ⟨_, ?_, .comment (openComment_of_plain endless last)⟩
    rw [← List.append_assoc, ← split, List.cons_append, List.take_append_drop]
  | case5 c rest closed n plain read more _ later =>
    rename_i ih
    cases h
    obtain ⟨behind, split, stops⟩ := ih later
    refine ⟨behind, ?_, stops⟩
    rw [List.flatMap_append, List.append_assoc, ← split, plainLexemes_text read, List.cons_append,
      List.take_append_drop]

theorem read_stops {source : List Char} {fault : Fault} (h : read t source = .error fault) :
    ∃ before rest, source = before ++ rest ∧ fault.offset = Text.bytes before ∧
      Stops t fault.cause rest := by
  unfold read at h
  split at h
  · cases h
  · next found cause stopped =>
    cases h
    obtain ⟨rest, split, stops⟩ := lexemes_stops stopped
    exact ⟨found.flatMap Lexeme.text, rest, split, rfl, stops⟩

theorem tokenize_eq_error {origin : Origin} {source : String} {error : BackendError}
    (h : tokenize t origin source = .error error) :
    ∃ fault, read t source.toList = .error fault ∧
      error = fault.locate .style (.ofText source.toList origin) := by
  simp only [tokenize] at h
  split at h
  · cases h
  · next fault stopped =>
    cases h
    exact ⟨fault, stopped, rfl⟩

theorem tokenize_points {origin : Origin} {source : String} {error : BackendError}
    {document front after : List Char} (place : origin = .behind front)
    (part : document = front ++ source.toList ++ after)
    (h : tokenize t origin source = .error error) : error.Points t document := by
  subst place part
  obtain ⟨fault, stopped, rfl⟩ := tokenize_eq_error h
  obtain ⟨before, rest, split, offset, stops⟩ := read_stops stopped
  exact Fault.Points.locate ⟨before, rest, split, offset, stops.names⟩

end Mosaic.Style
