import Mathlib.Data.List.Forall2
import Mosaic.Proofs.Script.Brackets
import Mosaic.Proofs.Script.Extent

/-! Line breaks between lexemes. A line break is white space, which only more white space can take
in, and an operand is due behind it if one is due in front of it. So a script with one more line
break between two lexemes has the same lexemes and the same tree, up to white space. -/
namespace Mosaic.Script

/-- Whether a lexeme is no white space. -/
def Lexeme.isSolid (lexeme : Lexeme) : Bool := lexeme.role != .leaf .whitespace

/-- White space is all blanks. -/
theorem Cut.blanks {due : Bool} {lexeme : Lexeme} {rest : List Char} (h : Cut due lexeme rest)
    (white : lexeme.role = .leaf .whitespace) : ∀ c ∈ lexeme.text, Text.isBlank c = true := by
  cases h with
  | whitespace blank span => exact List.forall_mem_cons.mpr ⟨blank, span.inside⟩
  | _ => cases white

theorem stops_lineBreak {role : Role} (solid : role ≠ .leaf .whitespace) : role.Stops '\n' := by
  cases role with
  | opener c => trivial
  | closer c => trivial
  | leaf kind =>
    cases kind with
    | whitespace => exact absurd rfl solid
    | ident => exact Bool.eq_false_iff.mpr (by decide +kernel)
    | number => rfl
    | regex => rfl
    | punct => exact ⟨by decide, by decide⟩
    | comment => rfl
    | str => trivial
    | template => trivial

theorem lexemes_white {operand : Bool} {c : Char} (blank : Text.isBlank c = true)
    (rest : List Char) :
    lexemes operand (c :: rest) =
      (⟨.leaf .whitespace, c :: rest.takeWhile Text.isBlank⟩ ::
          (lexemes operand (rest.dropWhile Text.isBlank)).1,
        (lexemes operand (rest.dropWhile Text.isBlank)).2) := by
  have cut : Cut operand ⟨.leaf .whitespace, c :: rest.takeWhile Text.isBlank⟩
      (rest.dropWhile Text.isBlank) := .whitespace blank (run_takeWhile _ rest)
  have whole := lexemes_append cut rfl
  rwa [List.cons_append, List.takeWhile_append_dropWhile] at whole

/-- Behind white space, the white space at the front of a text makes no difference. -/
theorem lexemes_behind_blanks {operand : Bool} {s : List Char} {found : List Lexeme}
    (h : lexemes operand s = (found, none)) :
    ∃ more, lexemes operand (s.dropWhile Text.isBlank) = (more, none) ∧
      more.filter Lexeme.isSolid = found.filter Lexeme.isSolid := by
  cases s with
  | nil => exact ⟨found, h, rfl⟩
  | cons c rest =>
    by_cases blank : Text.isBlank c = true
    · rw [lexemes_white blank] at h
      obtain ⟨rfl, ending⟩ := Prod.mk.inj h
      rw [List.dropWhile_cons, if_pos blank]
      exact ⟨_, Prod.ext rfl ending, rfl⟩
    · rw [List.dropWhile_cons, if_neg blank]
      exact ⟨found, h, rfl⟩

/-- White space in front of a text that can be read is white space. -/
theorem lexemes_blanks {operand : Bool} {c : Char} {blanks s : List Char} {found : List Lexeme}
    (all : ∀ d ∈ c :: blanks, Text.isBlank d = true) (h : lexemes operand s = (found, none)) :
    ∃ more, lexemes operand (c :: (blanks ++ s)) = (more, none) ∧
      more.filter Lexeme.isSolid = found.filter Lexeme.isSolid := by
  obtain ⟨first, others⟩ := List.forall_mem_cons.mp all
  obtain ⟨later, read, same⟩ := lexemes_behind_blanks h
  rw [lexemes_white first, List.dropWhile_append_of_pos others, read]
  exact ⟨_, rfl, same⟩

/-- A line break between two lexemes adds white space and changes no other lexeme. -/
theorem lexemes_lineBreak {operand : Bool} {s : List Char} {front back : List Lexeme}
    (h : lexemes operand s = (front ++ back, none)) :
    ∃ found, lexemes operand (front.flatMap Lexeme.text ++ '\n' :: back.flatMap Lexeme.text) =
        (found, none) ∧
      found.filter Lexeme.isSolid = (front ++ back).filter Lexeme.isSolid := by
  have lineBreak : Text.isBlank '\n' = true := by decide
  induction front generalizing operand s with
  | nil =>
    rw [List.nil_append] at h
    rw [← lexemes_text h] at h
    exact lexemes_blanks (List.forall_mem_singleton.mpr lineBreak) h
  | cons lexeme front ih =>
    obtain ⟨outer, rfl, cut, later⟩ := exists_of_lexemes_cons h
    have text : (front ++ back).flatMap Lexeme.text = outer := lexemes_text later
    rw [List.flatMap_append] at text
    subst text
    rw [List.flatMap_cons, List.append_assoc]
    by_cases merges : front = [] ∧ lexeme.role = .leaf .whitespace
    · -- white space takes the line break in
      obtain ⟨rfl, white⟩ := merges
      obtain ⟨c, inner, own⟩ := List.exists_cons_of_ne_nil cut.text_ne_nil
      have all : ∀ d ∈ c :: (inner ++ ['\n']), Text.isBlank d = true := by
        rw [← List.cons_append, ← own]
        exact List.forall_mem_append.mpr
          ⟨cut.blanks white, List.forall_mem_singleton.mpr lineBreak⟩
      have after : lexeme.operandAfter operand = operand := by
        rw [Lexeme.operandAfter, white]
      rw [after] at later
      obtain ⟨found, read, same⟩ := lexemes_blanks all later
      rw [List.append_assoc, ← List.cons_append, ← own] at read
      refine ⟨found, read, ?_⟩
      have hollow : lexeme.isSolid = false := by
        rw [Lexeme.isSolid, white]
        rfl
      simp only [List.cons_append, List.filter_cons, hollow, Bool.false_eq_true, if_false]
      exact same
    · have ends : lexeme.role.Ends (front.flatMap Lexeme.text ++ back.flatMap Lexeme.text)
          (front.flatMap Lexeme.text ++ '\n' :: back.flatMap Lexeme.text) := by
        cases front with
        | nil =>
          refine .inr ?_
          rintro _ ⟨⟩
          exact stops_lineBreak fun white => merges ⟨rfl, white⟩
        | cons next front =>
          obtain ⟨_, -, begins, -⟩ := exists_of_lexemes_cons later
          obtain ⟨d, more, text⟩ := List.exists_cons_of_ne_nil begins.text_ne_nil
          refine .inl ?_
          rw [List.flatMap_cons, text]
          rfl
      obtain ⟨found, read, same⟩ := ih later
      refine ⟨lexeme :: found, lexemes_append (cut.behind ends) read, ?_⟩
      rw [List.cons_append, List.filter_cons, List.filter_cons, same]

mutual

/-- A node without its white space; nothing is left of white space. -/
def Node.solid : Node → List Node
  | .leaf kind text => if kind = .whitespace then [] else [.leaf kind text]
  | .group opener body closer => [.group opener (Node.solidAll body) closer]

/-- Some nodes without their white space. -/
def Node.solidAll : List Node → List Node
  | [] => []
  | node :: rest => node.solid ++ Node.solidAll rest

end

theorem solidAll_append (front back : List Node) :
    Node.solidAll (front ++ back) = Node.solidAll front ++ Node.solidAll back := by
  induction front with
  | nil => rfl
  | cons node rest ih => simp only [List.cons_append, Node.solidAll, ih, List.append_assoc]

theorem solidAll_reverse (nodes : List Node) :
    Node.solidAll nodes.reverse = (Node.solidAll nodes).reverse := by
  induction nodes with
  | nil => rfl
  | cons node rest ih =>
    have same : node.solid.reverse = node.solid := by
      cases node with
      | leaf kind text =>
        rw [Node.solid]
        split <;> rfl
      | group opener body closer =>
        rw [Node.solid]
        rfl
    simp only [List.reverse_cons, solidAll_append, ih, Node.solidAll, List.reverse_append, same,
      List.append_nil]

/-- Two open groups with the same bracket, one of them without the white space before it. -/
def Frame.Like (frame other : Frame) : Prop :=
  other.opener = frame.opener ∧ other.before = Node.solidAll frame.before

/-- The lexemes that are no white space are gathered into the tree without its white space. -/
theorem nest_solid {offset other : Nat} {stack frames : List Frame} {body : List Node}
    {found : List Lexeme} {tree : Tree} (like : List.Forall₂ Frame.Like stack frames)
    (h : nest none offset stack body found = .ok tree) :
    nest none other frames (Node.solidAll body) (found.filter Lexeme.isSolid) =
      .ok ⟨Node.solidAll tree.body⟩ := by
  induction found generalizing offset other stack frames body with
  | nil =>
    cases like with
    | nil =>
      cases h
      rw [List.filter_nil, nest, solidAll_reverse]
    | cons => cases h
  | cons lexeme rest ih =>
    obtain ⟨role, text⟩ := lexeme
    cases role with
    | leaf kind =>
      rw [nest] at h
      by_cases white : kind = .whitespace
      · subst white
        have blank : Node.solidAll (.leaf .whitespace (String.ofList text) :: body) =
            Node.solidAll body := by
          simp only [Node.solidAll, Node.solid, if_true, List.nil_append]
        rw [← blank]
        exact ih like h
      · have own : Lexeme.isSolid ⟨.leaf kind, text⟩ = true := by
          simpa [Lexeme.isSolid] using white
        have kept : Node.solidAll (.leaf kind (String.ofList text) :: body) =
            .leaf kind (String.ofList text) :: Node.solidAll body := by
          simp only [Node.solidAll, Node.solid, if_neg white, List.singleton_append]
        rw [List.filter_cons, if_pos own, nest, ← kept]
        exact ih like h
    | opener c =>
      rw [nest] at h
      have opened : Frame.Like ⟨c, offset, body⟩ ⟨c, other, Node.solidAll body⟩ := ⟨rfl, rfl⟩
      exact ih (.cons opened like) h
    | closer c =>
      cases like with
      | nil => cases h
      | @cons frame frame' outer outer' same like =>
        obtain ⟨opener, place, before⟩ := frame'
        obtain ⟨rfl, rfl⟩ := same
        simp only [nest] at h
        have kept : Lexeme.isSolid ⟨.closer c, text⟩ = true := rfl
        rw [List.filter_cons, if_pos kept]
        simp only [nest]
        split at h
        · next mate =>
          rw [if_pos mate, ← solidAll_reverse]
          have group : Node.solidAll (.group frame.opener body.reverse c :: frame.before) =
              .group frame.opener (Node.solidAll body.reverse) c ::
                Node.solidAll frame.before := by
            simp only [Node.solidAll, Node.solid, List.singleton_append]
          rw [← group]
          exact ih like h
        · cases h

theorem brackets_solid (found : List Lexeme) :
    brackets (found.filter Lexeme.isSolid) = brackets found := by
  induction found with
  | nil => rfl
  | cons lexeme rest ih =>
    obtain ⟨role, text⟩ := lexeme
    cases role with
    | leaf kind =>
      rw [List.filter_cons]
      split
      · exact ih
      · exact ih
    | opener c => exact congrArg (.opener c :: ·) ih
    | closer c => exact congrArg (.closer c :: ·) ih

/-- Scripts whose lexemes are the same up to white space have the same tree up to white space. -/
theorem exists_nest_of_solid {found other : List Lexeme} {tree : Tree}
    (same : other.filter Lexeme.isSolid = found.filter Lexeme.isSolid)
    (h : nest none 0 [] [] found = .ok tree) :
    ∃ twin, nest none 0 [] [] other = .ok twin ∧
      Node.solidAll twin.body = Node.solidAll tree.body := by
  have closed := (exists_nest_iff.mp ⟨tree, h⟩).2
  rw [← brackets_solid, ← same, brackets_solid] at closed
  obtain ⟨twin, gathered⟩ := exists_nest_iff.mpr ⟨rfl, closed⟩
  have one := @nest_solid 0 0 [] [] [] found tree .nil h
  have two := @nest_solid 0 0 [] [] [] other twin .nil gathered
  rw [same, one] at two
  exact ⟨twin, gathered, (congrArg Tree.body (Except.ok.inj two)).symm⟩

/-- A script is read as before, up to white space, with one more line break between two of its
lexemes. -/
theorem parse_lineBreak {source front back : String} {tree : Tree} {before after : List Lexeme}
    (h : parse source = .ok tree) (split : source = front ++ back)
    (parts : Node.lexemesAll tree.body = before ++ after)
    (cut : front.toList = before.flatMap Lexeme.text) :
    ∃ twin, parse (front ++ "\n" ++ back) = .ok twin ∧
      Node.solidAll twin.body = Node.solidAll tree.body := by
  obtain ⟨read, gathered⟩ := lexemes_of_parse h
  rw [parts] at read gathered
  have rest : after.flatMap Lexeme.text = back.toList := by
    have whole := lexemes_text read
    rw [split, String.toList_append, List.flatMap_append, ← cut] at whole
    exact List.append_cancel_left whole
  obtain ⟨found, later, same⟩ := lexemes_lineBreak read
  rw [← cut, rest] at later
  obtain ⟨twin, nested, equal⟩ := exists_nest_of_solid same gathered
  refine ⟨twin, parse_eq_ok.mpr ?_, equal⟩
  have text : (front ++ "\n" ++ back).toList = front.toList ++ '\n' :: back.toList := by
    simp only [String.toList_append, List.append_assoc]
    rfl
  rw [text, later]
  exact nested

/-- A division at the beginning of a line stays a division. -/
theorem parse_lineBreak_division : ∃ tree twin, parse "f(a/b)/ /c/" = .ok tree ∧
    (Node.lexemesAll tree.body).length = 9 ∧
    "f(a/b)".toList = ((Node.lexemesAll tree.body).take 6).flatMap Lexeme.text ∧
    parse "f(a/b)\n/ /c/" = .ok twin ∧ Node.solidAll twin.body = Node.solidAll tree.body := by
  obtain ⟨tree, h⟩ := Outcome.exists_of_toBool (e := parse "f(a/b)/ /c/") (by decide +kernel)
  have read : (lexemes true "f(a/b)/ /c/".toList).1 = Node.lexemesAll tree.body :=
    congrArg Prod.fst (lexemes_of_parse h).1
  have size : (Node.lexemesAll tree.body).length = 9 := by
    rw [← read]
    decide +kernel
  have cut : "f(a/b)".toList = ((Node.lexemesAll tree.body).take 6).flatMap Lexeme.text := by
    rw [← read]
    decide +kernel
  have parts := (List.take_append_drop 6 (Node.lexemesAll tree.body)).symm
  have split : "f(a/b)/ /c/" = "f(a/b)" ++ "/ /c/" := by decide
  obtain ⟨twin, later, same⟩ := parse_lineBreak h split parts cut
  exact ⟨tree, twin, h, size, cut, later, same⟩

end Mosaic.Script
