import Mosaic.Proofs.Style.Ends
import Mosaic.Proofs.Template.Agreement

/-! Style sheets read with scanners that agree on them. With two such scanners the same regions are
cut out of a sheet, so the lexemes between them are the same. Where no region opens, no piece of a
sheet is one: template tokens come from regions alone. -/
namespace Mosaic.Style

open Template.Scanner

variable {t u : Template.Scanner} {s : List Char}

theorem lexemes_congr (h : Agree t u s) : lexemes t s = lexemes u s := by
  induction size : s.length using Nat.strongRecOn generalizing s with
  | ind n ih =>
    cases s with
    | nil => rw [lexemes, lexemes]
    | cons c rest =>
      have shorter : ∀ k, (rest.drop k).length < n := by
        intro k
        rw [List.length_cons] at size
        rw [List.length_drop]
        omega
      have behind : ∀ k, lexemes t (rest.drop k) = lexemes u (rest.drop k) :=
        fun k => ih _ (shorter k) (h.tail.drop k) rfl
      rw [lexemes, lexemes, h.opens_front, h.tail.nextOpen?]
      split
      · next opens =>
        rw [h.scanAfter opens]
        simp only [behind]
      · simp only [behind]

theorem tokenize_congr {source : String} (h : Agree t u source.toList) (origin : Origin) :
    tokenize t origin source = tokenize u origin source := by
  rw [tokenize, tokenize, read, read, lexemes_congr h]

/-- No template region is among some pieces. -/
def Untemplated (pieces : List Piece) : Prop := ∀ piece ∈ pieces, piece.kind ≠ .template

namespace Untemplated

theorem nil : Untemplated [] := fun _ mem => nomatch mem

theorem append {front back : List Piece} (h : Untemplated front) (more : Untemplated back) :
    Untemplated (front ++ back) := List.forall_mem_append.mpr ⟨h, more⟩

theorem single {kind : TokenKind} {text : List Char} (h : kind ≠ .template) :
    Untemplated [⟨kind, text⟩] := List.forall_mem_singleton.mpr h

theorem held {r : Reading} (h : Untemplated r.trivia) : Untemplated r.held := by
  unfold Reading.held
  split
  · next run =>
    refine List.forall_mem_cons.mpr ⟨?_, h⟩
    unfold runKind
    split
    · split <;> exact nofun
    · exact nofun
    · exact nofun
  · exact h

theorem extend {r : Reading} (h : Untemplated r.trivia) (text : List Char) (nests : Bool) :
    Untemplated (r.extend text nests).1 ∧ Untemplated (r.extend text nests).2.trivia := by
  unfold Reading.extend
  split
  · exact ⟨nil, nil⟩
  · exact ⟨h, nil⟩

theorem step {r : Reading} (h : Untemplated r.trivia) {lexeme : Lexeme}
    (plain : lexeme.mark ≠ .template) (nests : Bool) :
    Untemplated (r.step lexeme nests).1 ∧ Untemplated (r.step lexeme nests).2.trivia := by
  rcases lexeme with ⟨mark, text⟩
  cases mark with
  | blank => exact ⟨nil, h.append (single (by decide))⟩
  | comment => exact ⟨nil, h.append (single (by decide))⟩
  | template => exact absurd rfl plain
  | semicolon => exact ⟨h.held.append (single (by decide)), nil⟩
  | leftBrace => exact ⟨h.held.append (single (by decide)), nil⟩
  | rightBrace => exact ⟨h.held.append (single (by decide)), nil⟩
  | run => exact h.extend text nests
  | colon =>
    simp only [Reading.step]
    split
    · exact ⟨h.held.append (single (by decide)), nil⟩
    · exact h.extend text nests

theorem piecesFrom {r : Reading} (h : Untemplated r.trivia) {lexemes : List Lexeme}
    (plain : ∀ lexeme ∈ lexemes, lexeme.mark ≠ .template) :
    Untemplated (Style.piecesFrom r lexemes) := by
  induction lexemes generalizing r with
  | nil => exact h.held
  | cons lexeme rest ih =>
    obtain ⟨self, others⟩ := List.forall_mem_cons.mp plain
    obtain ⟨found, next⟩ := h.step self (opensRule rest)
    exact found.append (ih next others)

end Untemplated

theorem read_untemplated {found : List Piece} (h : read off s = .ok found) :
    Untemplated found := by
  obtain ⟨lexed, hlex, rfl⟩ := read_eq_ok h
  have start : Untemplated Reading.initial.trivia := .nil
  refine start.piecesFrom (forall_mem_lexemes ?_ ?_ hlex)
  · rintro c rest mark n marked rfl
    exact markAt_not_template marked
  · intro c rest n opens
    exact absurd opens (not_opens_off _)

end Mosaic.Style
