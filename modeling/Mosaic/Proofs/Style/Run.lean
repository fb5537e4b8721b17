import Mosaic.Proofs.Style.Ends

/-! Runs of text in a style sheet. Neither a run nor a colon begins or ends with a space, and the
spaces and comments inside a run are part of it. -/
namespace Mosaic.Style

/-- A text that neither begins nor ends with a space. -/
structure Firm (text : List Char) : Prop where
  first : ∃ c, text.head? = some c ∧ isSpace c = false
  last : ∃ c, text.getLast? = some c ∧ isSpace c = false

theorem Firm.append {front back : List Char} (h : Firm front) (middle : List Char)
    (more : Firm back) : Firm (front ++ middle ++ back) := by
  obtain ⟨c, first, begins⟩ := h.first
  obtain ⟨d, last, ends⟩ := more.last
  refine ⟨⟨c, ?_, begins⟩, ⟨d, ?_, ends⟩⟩
  · simp only [List.append_assoc, List.head?_append, first, Option.some_or]
  · simp only [List.getLast?_append, last, Option.some_or]

theorem firm_cons {c : Char} {rest : List Char} (begins : isSpace c = false)
    (ends : ∀ d, rest.getLast? = some d → isSpace d = false) : Firm (c :: rest) := by
  refine ⟨⟨c, rfl, begins⟩, ?_⟩
  cases last : rest.getLast? with
  | none =>
    rw [List.getLast?_cons, last]
    exact ⟨c, rfl, begins⟩
  | some d =>
    rw [List.getLast?_cons, last]
    exact ⟨d, rfl, ends d last⟩

/-- Neither a part of a run nor a colon begins or ends with a space, and no part of a run begins
with a colon. -/
structure Lexeme.Formed (lexeme : Lexeme) : Prop where
  firm : lexeme.mark = .run ∨ lexeme.mark = .colon → Firm lexeme.text
  plain : lexeme.mark = .run → lexeme.text.head? ≠ some ':'

theorem isSpace_of_isWordPart {c : Char} (h : isWordPart c = true) : isSpace c = false := by
  grind [isWordPart]

theorem slashMark_part {rest : List Char} {mark : Mark} {n : Nat}
    (h : slashMark rest = .ok (mark, n)) (part : mark = .run ∨ mark = .colon) : n = 0 := by
  unfold slashMark at h
  split at h
  · split at h
    · cases h
      rcases part with part | part <;> cases part
    · cases h
  · cases h
    rfl

theorem isSpace_of_isQuote {c : Char} (h : isQuote c = true) : isSpace c = false := by
  grind [isQuote, isSpace]

/-- A part of a run is a sign, a string or a word. -/
theorem markAt_part {c : Char} {rest : List Char} {mark : Mark} {n : Nat}
    (h : markAt c rest = .ok (mark, n)) (part : mark = .run ∨ mark = .colon) :
    isSpace c = false ∧ (n = 0 ∨ (isQuote c = true ∧ n = (stringLength? c rest).getD 0) ∨
      n = (rest.takeWhile isWordPart).length) := by
  have slash : slashMark rest = .ok (mark, n) → n = 0 := fun found =>
    slashMark_part found part
  unfold markAt at h
  split at h
  · cases h
    rcases part with part | part <;> cases part
  · grind

theorem markAt_last_firm {c : Char} {rest : List Char} {mark : Mark} {n : Nat}
    (h : markAt c rest = .ok (mark, n)) (part : mark = .run ∨ mark = .colon) :
    ∀ d, (rest.take n).getLast? = some d → isSpace d = false := by
  intro d last
  obtain ⟨-, rfl | ⟨quote, rfl⟩ | rfl⟩ := markAt_part h part
  · cases last
  · cases found : stringLength? c rest with
    | none =>
      rw [found] at last
      cases last
    | some m =>
      rw [found, Option.getD_some, stringLength?_last found] at last
      cases last
      exact isSpace_of_isQuote quote
  · rw [Text.take_length_takeWhile] at last
    have mem := List.mem_of_getLast? last
    exact isSpace_of_isWordPart (List.all_eq_true.mp List.all_takeWhile d mem)

theorem markAt_head {c : Char} {rest : List Char} {n : Nat} (h : markAt c rest = .ok (.run, n)) :
    c ≠ ':' := by
  rintro rfl
  cases h

theorem markAt_formed {c : Char} {rest : List Char} {mark : Mark} {n : Nat}
    (h : markAt c rest = .ok (mark, n)) : Lexeme.Formed ⟨mark, c :: rest.take n⟩ := by
  constructor
  · intro part
    exact firm_cons (markAt_part h part).1 (markAt_last_firm h part)
  · rintro rfl first
    exact markAt_head h (Option.some.inj first)

theorem lexemes_formed {t : Template.Scanner} {s : List Char} {found : List Lexeme}
    {cause : Option Cause} (h : lexemes t s = (found, cause)) :
    ∀ lexeme ∈ found, lexeme.Formed := by
  refine forall_mem_lexemes (fun _ _ _ _ => markAt_formed) ?_ h
  intro c rest n _ _
  constructor
  · rintro (part | part) <;> cases part
  · rintro ⟨⟩

end Mosaic.Style
