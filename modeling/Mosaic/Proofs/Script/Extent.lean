import Mosaic.Proofs.Script.Cut

/-! How far a lexeme reaches. Where a lexeme ends depends on its own characters and on the first one
behind it: it is the same lexeme in every text in which that one is the same, or is one with which
the lexeme cannot go on. -/
namespace Mosaic.Script

/-- A lexeme of a kind cannot go on with a character. -/
def Role.Stops : Role → Char → Prop
  | .leaf .whitespace, c => Text.isBlank c = false
  | .leaf .comment, c => c = '\n'
  | .leaf .ident, c => isIdentPart c = false
  | .leaf .number, c => isNumberPart c = false
  | .leaf .regex, c => c.isAlpha = false
  | .leaf .punct, c => c ≠ '/' ∧ c ≠ '*'
  | _, _ => True

/-- The first character behind a lexeme is the same in two texts, or stops the lexeme. -/
def Role.Ends (role : Role) (back other : List Char) : Prop :=
  other.head? = back.head? ∨ ∀ c, other.head? = some c → role.Stops c

variable {due : Bool} {role : Role} {back other : List Char}

theorem Role.Ends.run {p : Char → Bool} {run : List Char} (ends : role.Ends back other)
    (stops : ∀ c, role.Stops c → p c = false) (h : Run p run back) : Run p run other := by
  refine ⟨h.inside, fun c first => ?_⟩
  rcases ends with same | stopped
  · exact h.ends c (same.symm.trans first)
  · exact stops c (stopped c first)

/-- A slash that divides cannot go on to a comment. -/
theorem Role.Ends.noComment (ends : (Role.leaf .punct).Ends back other) (h : NoComment back) :
    NoComment other := by
  rcases ends with same | stopped
  · rwa [NoComment, same]
  · exact ⟨fun first => (stopped _ first).1 rfl, fun first => (stopped _ first).2 rfl⟩

/-- A lexeme reaches as far in every text in which it ends in the same way. -/
theorem Cut.behind {lexeme : Lexeme} (h : Cut due lexeme back)
    (ends : lexeme.role.Ends back other) : Cut due lexeme other := by
  cases h with
  | whitespace blank span => exact .whitespace blank (ends.run (fun _ stops => stops) span)
  | lineComment span =>
    refine .lineComment (ends.run ?_ span)
    rintro _ rfl
    rfl
  | blockComment first => exact .blockComment first
  | ident start span => exact .ident start (ends.run (fun _ stops => stops) span)
  | number digit span => exact .number digit (ends.run (fun _ stops => stops) span)
  | string sign inner => exact .string sign inner
  | template inner => exact .template inner
  | regex operand plain inner flags =>
    exact .regex operand plain inner (ends.run (fun _ stops => stops) flags)
  | division operator plain => exact .division operator (ends.noComment plain)
  | opener pair => exact .opener pair
  | closer pair => exact .closer pair
  | sign sign => exact .sign sign

end Mosaic.Script
