import Mosaic.Proofs.Outcome
import Mosaic.Proofs.Script.Cut
import Mosaic.Script.Parse

/-! A script tree keeps every character: written back it is the script. A bracket is no leaf, so a
tree holds it as a character alone; that is its whole text. -/
namespace Mosaic.Script

theorem charsAll_append (front back : List Node) :
    Node.charsAll (front ++ back) = Node.charsAll front ++ Node.charsAll back := by
  induction front with
  | nil => rfl
  | cons node rest ih => simp only [List.cons_append, Node.charsAll, ih, List.append_assoc]

theorem charsAll_reverse_cons (node : Node) (body : List Node) :
    Node.charsAll (node :: body).reverse = Node.charsAll body.reverse ++ node.chars := by
  simp only [List.reverse_cons, charsAll_append, Node.charsAll, List.append_nil]

/-- The text of a tree that is being gathered: what stands before each open group, its bracket,
and at last the nodes of the innermost one. -/
def gathered : List Frame → List Node → List Char
  | [], body => Node.charsAll body.reverse
  | frame :: outer, body => gathered outer frame.before ++ frame.opener :: Node.charsAll body.reverse

theorem gathered_cons (stack : List Frame) (node : Node) (body : List Node) :
    gathered stack (node :: body) = gathered stack body ++ node.chars := by
  cases stack with
  | nil => exact charsAll_reverse_cons node body
  | cons frame outer =>
    simp only [gathered, charsAll_reverse_cons, List.append_assoc, List.cons_append]

/-- A script that cannot be read to its end has no tree. -/
theorem ending_of_nest {ending : Option Cause} {offset : Nat} {stack : List Frame}
    {body : List Node} {found : List Lexeme} {tree : Tree}
    (h : nest ending offset stack body found = .ok tree) : ending = none := by
  induction found generalizing offset stack body with
  | nil =>
    cases ending with
    | none => rfl
    | some cause => cases h
  | cons lexeme rest ih =>
    rcases lexeme with ⟨role, text⟩
    cases role with
    | leaf kind => exact ih h
    | opener c => exact ih h
    | closer c =>
      cases stack with
      | nil => cases h
      | cons frame outer =>
        simp only [nest] at h
        split at h
        · exact ih h
        · cases h

theorem nest_text {offset : Nat} {stack : List Frame} {body : List Node} {found : List Lexeme}
    {tree : Tree} (known : ∀ lexeme ∈ found, lexeme.Bracketed)
    (h : nest none offset stack body found = .ok tree) :
    Node.charsAll tree.body = gathered stack body ++ found.flatMap Lexeme.text := by
  induction found generalizing offset stack body with
  | nil =>
    cases stack with
    | nil =>
      cases h
      exact (List.append_nil _).symm
    | cons frame outer => cases h
  | cons lexeme rest ih =>
    rcases lexeme with ⟨role, text⟩
    obtain ⟨bracketed, further⟩ := List.forall_mem_cons.mp known
    cases role with
    | leaf kind =>
      rw [ih further h, gathered_cons, List.flatMap_cons, List.append_assoc, Node.chars,
        String.toList_ofList]
    | opener c =>
      have spell : text = [c] := bracketed.text_of_opener rfl
      rw [ih further h, List.flatMap_cons, spell]
      simp only [gathered, List.reverse_nil, Node.charsAll, List.append_assoc, List.cons_append,
        List.nil_append]
    | closer c =>
      have spell : text = [c] := bracketed.text_of_closer rfl
      cases stack with
      | nil => cases h
      | cons frame outer =>
        simp only [nest] at h
        split at h
        · rw [ih further h, gathered_cons, List.flatMap_cons, spell]
          simp only [gathered, Node.chars, List.append_assoc, List.cons_append, List.nil_append]
        · cases h

/-- A script is written back as it was read. -/
theorem source_of_parse {source : String} {tree : Tree} (h : parse source = .ok tree) :
    tree.source = source := by
  have nested : read source.toList = .ok tree := Outcome.mapError_eq_ok.mp h
  unfold read at nested
  generalize hlex : lexemes true source.toList = reading at nested
  obtain ⟨found, ending⟩ := reading
  obtain rfl : ending = none := ending_of_nest nested
  rw [Tree.source, nest_text (bracketed_of_lexemes hlex) nested, lexemes_text hlex]
  exact String.ofList_toList

end Mosaic.Script
