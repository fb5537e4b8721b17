import Mosaic.Proofs.Outcome
import Mosaic.Proofs.Style.Failure

/-! Comments that are told to be unclosed. Template regions are cut out before comments are read, so
a comment must be closed in front of the next region: one that is closed behind a region in it is
told to be unclosed too. -/
namespace Mosaic.Style

open Outcome

variable {t : Template.Scanner}

/-- A failure for a comment points at a comment that is not closed in front of the next template
region; it points at nothing else in the sheet. -/
theorem openComment_of_tokenize {origin : Origin} {source : String} {error : BackendError}
    (h : tokenize t origin source = .error error) (cause : error.cause = .unclosedComment) :
    ∃ before rest, source.toList = before ++ rest ∧ OpenComment t rest ∧
      error = ⟨.style, .unclosedComment,
        some ((Locator.ofText source.toList origin).position (Text.bytes before))⟩ ∧
      (origin.lead = 0 → ∀ other behind, source.toList = other ++ behind →
        error.position = some ((Locator.ofText source.toList origin).position (Text.bytes other)) →
          other = before) := by
  obtain ⟨⟨_, offset⟩, stopped, rfl⟩ := tokenize_eq_error h
  cases cause
  obtain ⟨before, rest, split, rfl, stops⟩ := read_stops stopped
  cases stops with
  | comment unclosed =>
    refine ⟨before, rest, split, unclosed, rfl, ?_⟩
    intro whole other behind parts same
    exact (position_inj whole split parts (Option.some.inj same)).symm

/-- An end of a comment in a template region does not close the comment. -/
theorem openComment_of_tokenize_region : ∃ before rest,
    "p\x7b\x7d\n /* \x7b%*/%\x7d".toList = before ++ rest ∧
      OpenComment (Template.Adapters.empty.scanner .standard) rest ∧ before.length = 5 ∧
      tokenize (Template.Adapters.empty.scanner .standard) .zero
        "p\x7b\x7d\n /* \x7b%*/%\x7d" = .error ⟨.style, .unclosedComment, some ⟨1, 1⟩⟩ := by
  have fails : failure? (tokenize (Template.Adapters.empty.scanner .standard) .zero
      "p\x7b\x7d\n /* \x7b%*/%\x7d") = some ⟨.style, .unclosedComment, some ⟨1, 1⟩⟩ := by
    decide +kernel
  obtain ⟨before, rest, split, unclosed, -, unique⟩ :=
    openComment_of_tokenize (eq_error_of_failure? fails) rfl
  have place := unique rfl "p\x7b\x7d\n ".toList "/* \x7b%*/%\x7d".toList (by decide)
    (by decide +kernel)
  subst place
  exact ⟨_, rest, split, unclosed, by decide, eq_error_of_failure? fails⟩

/-- A comment with a template region in it fails, although it is closed. -/
theorem not_tokenize_of_region :
    tokenize (Template.Adapters.empty.scanner .standard) .zero "/*\x7b%x%\x7d*/" =
        .error ⟨.style, .unclosedComment, some ⟨0, 0⟩⟩ ∧
      ['/', '*'] <+: "/*\x7b%x%\x7d*/".toList ∧
      ['*', '/'] <+: "/*\x7b%x%\x7d*/".toList.drop 7 := by
  refine ⟨?_, by decide, by decide⟩
  apply eq_error_of_failure?
  decide +kernel

end Mosaic.Style
