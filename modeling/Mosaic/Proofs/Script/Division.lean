import Mathlib.Data.List.Induction
import Mosaic.Proofs.Script.Lines
import Mosaic.Proofs.Script.Reading

/-! Slashes at the end of a script. A text behind a script that ends in an operand is read from
there on, with no operand due, unless the script ends in a comment that takes the text in. So a
slash behind an operand is a division. A sign is no operand: behind `++` and `--`, which are two
signs each, a slash begins a regular expression even where they stand behind an operand. -/
namespace Mosaic.Script

/-- Whether a node is white space or a comment. -/
def Node.isTrivia : Node → Bool
  | .leaf kind _ => kind == .whitespace || kind == .comment
  | .group _ _ _ => false

/-- Whether a node can be divided: a group, a literal, or an identifier that demands no operand. -/
def Node.isOperand : Node → Bool
  | .group _ _ _ => true
  | .leaf .ident text => text ∉ operandKeywords
  | .leaf .number _ | .leaf .str _ | .leaf .template _ | .leaf .regex _ => true
  | .leaf .whitespace _ | .leaf .comment _ | .leaf .punct _ => false

/-- The last node that is neither white space nor a comment can be divided. -/
def Tree.EndsInOperand (tree : Tree) : Prop :=
  ∃ node, (tree.body.filter fun node => !node.isTrivia).getLast? = some node ∧
    node.isOperand = true

/-- The last node is a comment to the end of the line. -/
def Tree.EndsInLineComment (tree : Tree) : Prop :=
  ∃ before text, tree.body = before ++ [.leaf .comment text] ∧ "//".toList <+: text.toList

/-- The number of regular expressions among some lexemes. -/
def regexes (found : List Lexeme) : Nat := (found.map Lexeme.role).count (.leaf .regex)

/-- The number of regular expressions in a tree. -/
def Tree.regexes (tree : Tree) : Nat := Script.regexes (Node.lexemesAll tree.body)

/-- Lexemes that are neither brackets nor regular expressions change neither of these. -/
theorem brackets_and_regexes {found whole : List Lexeme} (signs : List Role)
    (roles : whole.map Lexeme.role = found.map Lexeme.role ++ signs)
    (plain : ∀ role ∈ signs, role.isBracket = false ∧ role ≠ .leaf .regex) :
    brackets whole = brackets found ∧ regexes whole = regexes found := by
  have noBracket : signs.filter Role.isBracket = [] := by
    rw [List.filter_eq_nil_iff]
    intro role mem
    rw [(plain role mem).1]
    exact Bool.false_ne_true
  have noRegex : signs.count (.leaf .regex) = 0 := by
    rw [List.count_eq_zero]
    exact fun mem => (plain _ mem).2 rfl
  constructor
  · rw [brackets, roles, List.filter_append, noBracket, List.append_nil, brackets]
  · rw [regexes, roles, List.count_append, noRegex, Nat.add_zero, regexes]

/-- An operand is due behind some nodes unless the last one that matters can be divided. -/
theorem operandDue_lexemesAll {nodes : List Node} {node : Node}
    (last : (nodes.filter fun node => !node.isTrivia).getLast? = some node)
    (operand : node.isOperand = true) : operandDue (Node.lexemesAll nodes) = false := by
  induction nodes using List.reverseRecOn with
  | nil => cases last
  | append_singleton front final ih =>
    have split : Node.lexemesAll (front ++ [final]) = Node.lexemesAll front ++ final.lexemes := by
      simp only [lexemesAll_append, Node.lexemesAll, List.append_nil]
    rw [split]
    rw [List.filter_append] at last
    cases final with
    | group opener body closer =>
      rw [Node.lexemes, ← List.cons_append, ← List.append_assoc, operandDue_append]
      rfl
    | leaf kind text =>
      rw [Node.lexemes, operandDue_append]
      by_cases trivia : Node.isTrivia (.leaf kind text) = true
      · rw [List.filter_singleton, trivia] at last
        have before := ih (by simpa using last)
        rw [before]
        cases kind <;> first | rfl | cases trivia
      · rw [List.filter_singleton, Bool.eq_false_iff.mpr trivia] at last
        obtain rfl : Node.leaf kind text = node := by simpa using last
        cases kind with
        | ident =>
          rw [Lexeme.operandAfter, String.ofList_toList]
          simpa [Node.isOperand] using operand
        | whitespace | comment | punct => cases operand
        | number | str | template | regex => rfl

/-- With a text behind it, a script is read as before up to its last lexeme. -/
theorem lexemes_behind_front (before : List Lexeme) {front : List Lexeme} {last : Lexeme}
    {s : List Char} (tail : List Char)
    (h : lexemes (operandDue before) s = (front ++ [last], none)) :
    Cut (operandDue (before ++ front)) last [] ∧
      ∀ more ending, lexemes (operandDue (before ++ front)) (last.text ++ tail) =
          (more, ending) →
        lexemes (operandDue before) (s ++ tail) = (front ++ more, ending) := by
  induction front generalizing before s with
  | nil =>
    obtain ⟨back, rfl, cut, later⟩ := exists_of_lexemes_cons h
    obtain rfl := nil_of_lexemes later
    rw [List.append_nil, List.append_nil]
    exact ⟨cut, fun _ _ read => read⟩
  | cons first front ih =>
    obtain ⟨back, rfl, cut, later⟩ := exists_of_lexemes_cons h
    rw [← operandDue_append] at later
    obtain ⟨own, grown⟩ := ih _ later
    rw [List.append_assoc, List.singleton_append] at own grown
    refine ⟨own, fun more ending read => ?_⟩
    have ends : first.role.Ends back (back ++ tail) := by
      cases back with
      | nil =>
        rw [lexemes, Prod.mk.injEq] at later
        exact absurd (List.append_eq_nil_iff.mp later.1.symm).2 (List.cons_ne_nil last [])
      | cons e others => exact .inl rfl
    have next := grown more ending read
    rw [operandDue_append] at next
    rw [List.append_assoc]
    exact lexemes_append (cut.behind ends) next

/-- Whether a lexeme is a comment that only a line break ends. -/
def Lexeme.isLineComment (lexeme : Lexeme) : Bool :=
  lexeme.role == .leaf .comment && "//".toList.isPrefixOf lexeme.text

theorem Lexeme.isLineComment_iff {lexeme : Lexeme} :
    lexeme.isLineComment = true ↔ lexeme.role = .leaf .comment ∧ ['/', '/'] <+: lexeme.text := by
  rw [isLineComment, Bool.and_eq_true, beq_iff_eq, List.isPrefixOf_iff_prefix]
  rfl

section Comment

variable {due : Bool} {lexeme : Lexeme} {tail : List Char}

/-- A comment that a line break ends goes on with every text without one. -/
theorem Cut.extend (h : Cut due lexeme []) (line : lexeme.isLineComment = true)
    (noBreak : '\n' ∉ tail) : Cut due ⟨.leaf .comment, lexeme.text ++ tail⟩ [] := by
  obtain ⟨comment, begins⟩ := Lexeme.isLineComment_iff.mp line
  cases h with
  | lineComment span =>
    refine .lineComment ⟨fun c mem => ?_, fun _ first => nomatch first⟩
    have plain : c ≠ '\n' := by
      rintro rfl
      rcases List.mem_append.mp mem with mem | mem
      · exact absurd (span.inside _ mem) (by decide)
      · exact noBreak mem
    exact decide_eq_true plain
  | blockComment first => cases (List.cons_prefix_cons.mp (List.cons_prefix_cons.mp begins).2).1
  | _ => cases comment

/-- Every other comment ends where it ends, whatever follows it. -/
theorem Cut.blockComment_behind (h : Cut due lexeme []) (comment : lexeme.role = .leaf .comment)
    (block : lexeme.isLineComment = false) (other : List Char) : Cut due lexeme other := by
  cases h with
  | lineComment span => cases block
  | blockComment first => exact .blockComment first
  | _ => cases comment

end Comment

/-- A blank stops everything but comments and blanks, and a sign of an increment or a decrement
everything but comments. -/
theorem stops_tail {role : Role} {c : Char} (known : c = ' ' ∨ c = '+' ∨ c = '-')
    (plain : role ≠ .leaf .comment) (solid : role = .leaf .whitespace → c ≠ ' ') :
    role.Stops c := by
  cases role with
  | opener c => trivial
  | closer c => trivial
  | leaf kind =>
    cases kind with
    | comment => exact absurd rfl plain
    | str | template => trivial
    | whitespace =>
      rcases known with rfl | rfl | rfl
      · exact absurd rfl (solid rfl)
      · exact Bool.eq_false_iff.mpr (by decide)
      · exact Bool.eq_false_iff.mpr (by decide)
    | ident => rcases known with rfl | rfl | rfl <;> exact Bool.eq_false_iff.mpr (by decide +kernel)
    | number | regex => rcases known with rfl | rfl | rfl <;> rfl
    | punct => rcases known with rfl | rfl | rfl <;> exact ⟨by decide, by decide⟩

section Tail

variable {found front : List Lexeme} {last : Lexeme} {s tail : List Char}

/-- A text behind a script is read on its own where it cannot belong to the last lexeme. -/
theorem lexemes_tail {more : List Lexeme} {ending : Option Cause}
    (h : lexemes true s = (front ++ [last], none)) (closed : last.isLineComment = false)
    (stops : last.role ≠ .leaf .comment → ∀ c, tail.head? = some c → last.role.Stops c)
    (later : lexemes (operandDue (front ++ [last])) tail = (more, ending)) :
    lexemes true (s ++ tail) = (front ++ last :: more, ending) := by
  obtain ⟨cut, grown⟩ := lexemes_behind_front [] tail h
  rw [operandDue_append] at later
  refine grown _ _ (lexemes_append ?_ later)
  by_cases comment : last.role = .leaf .comment
  · exact cut.blockComment_behind comment closed tail
  · exact cut.behind (.inr (stops comment))

/-- An open comment takes in what follows it on its line. -/
theorem lexemes_lineComment (h : lexemes true s = (front ++ [last], none))
    (line : last.isLineComment = true) (noBreak : '\n' ∉ tail) :
    lexemes true (s ++ tail) = (front ++ [⟨.leaf .comment, last.text ++ tail⟩], none) := by
  obtain ⟨cut, grown⟩ := lexemes_behind_front [] tail h
  have whole := lexemes_append (cut.extend line noBreak) (by rw [lexemes])
  rw [List.append_nil] at whole
  exact grown _ _ whole

/-- White space at the end takes in a blank behind it. -/
theorem lexemes_whiteTail {more : List Lexeme} {ending : Option Cause}
    (h : lexemes true s = (front ++ [last], none)) (white : last.role = .leaf .whitespace)
    (solid : ∀ c, tail.head? = some c → Text.isBlank c = false)
    (later : lexemes (operandDue (front ++ [last])) tail = (more, ending)) :
    lexemes true (s ++ ' ' :: tail) =
      (front ++ ⟨.leaf .whitespace, last.text ++ [' ']⟩ :: more, ending) := by
  obtain ⟨cut, grown⟩ := lexemes_behind_front [] (' ' :: tail) h
  obtain ⟨c, inner, text⟩ := List.exists_cons_of_ne_nil cut.text_ne_nil
  have blanks := cut.blanks white
  rw [text] at blanks
  obtain ⟨blank, others⟩ := List.forall_mem_cons.mp blanks
  have span : Run Text.isBlank (inner ++ [' ']) tail :=
    ⟨List.forall_mem_append.mpr ⟨others, List.forall_mem_singleton.mpr (by decide)⟩, solid⟩
  have longer : Cut (operandDue front) ⟨.leaf .whitespace, last.text ++ [' ']⟩ tail := by
    rw [text]
    exact .whitespace blank span
  rw [operandDue_append, Lexeme.operandAfter, white] at later
  have whole := lexemes_append longer later
  rw [List.append_assoc] at whole
  exact grown _ _ whole

/-- What an open comment takes in adds no regular expression and no bracket. -/
theorem exists_lexemes_comment (h : lexemes true s = (front ++ [last], none))
    (line : last.isLineComment = true) (noBreak : '\n' ∉ tail) :
    ∃ whole, lexemes true (s ++ tail) = (whole, none) ∧
      brackets whole = brackets (front ++ [last]) ∧
      regexes whole = regexes (front ++ [last]) := by
  have comment := (Lexeme.isLineComment_iff.mp line).1
  refine ⟨_, lexemes_lineComment h line noBreak, brackets_and_regexes [] ?_ ?_⟩
  · simp only [List.map_append, List.map_cons, List.map_nil, comment, List.append_nil]
  · exact List.forall_mem_nil _

/-- A slash behind a script that ends in an operand adds no regular expression and no bracket. -/
theorem exists_lexemes_division (h : lexemes true s = (found, none))
    (operand : operandDue found = false) :
    ∃ whole, lexemes true (s ++ " / 2".toList) = (whole, none) ∧
      brackets whole = brackets found ∧ regexes whole = regexes found := by
  have slash : lexemes false ['/', ' ', '2'] =
      ([⟨.leaf .punct, ['/']⟩, ⟨.leaf .whitespace, [' ']⟩, ⟨.leaf .number, ['2']⟩], none) := by
    decide +kernel
  have blank : lexemes false [' ', '/', ' ', '2'] = (⟨.leaf .whitespace, [' ']⟩ ::
      (lexemes false ['/', ' ', '2']).1, none) := by
    decide +kernel
  have text : " / 2".toList = [' ', '/', ' ', '2'] := by decide
  rw [text]
  rcases List.eq_nil_or_concat found with rfl | ⟨front, last, rfl⟩
  · cases operand
  rw [List.concat_eq_append] at h operand ⊢
  by_cases line : last.isLineComment = true
  · exact exists_lexemes_comment h line (by decide)
  by_cases white : last.role = .leaf .whitespace
  · have solid : ∀ c, ['/', ' ', '2'].head? = some c → Text.isBlank c = false := by
      rintro _ ⟨⟩
      decide
    refine ⟨_, lexemes_whiteTail h white solid (by rw [operand, slash]), ?_⟩
    refine brackets_and_regexes [.leaf .punct, .leaf .whitespace, .leaf .number] ?_ (by decide)
    simp only [List.map_append, List.map_cons, List.map_nil, white, List.append_assoc,
      List.singleton_append]
  · have stops : last.role ≠ .leaf .comment →
        ∀ c, [' ', '/', ' ', '2'].head? = some c → last.role.Stops c := by
      rintro plain _ ⟨⟩
      exact stops_tail (.inl rfl) plain fun same => absurd same white
    have read := lexemes_tail h (Bool.eq_false_iff.mpr line) stops (by rw [operand, blank, slash])
    refine ⟨_, read, ?_⟩
    refine brackets_and_regexes
      [.leaf .whitespace, .leaf .punct, .leaf .whitespace, .leaf .number] ?_ (by decide)
    simp only [List.map_append, List.map_cons, List.map_nil, List.append_assoc,
      List.singleton_append]

/-- Behind two signs a slash begins a regular expression, and the text ends before that does. -/
theorem lexemes_increment {sign : Char} (known : sign = '+' ∨ sign = '-')
    (h : lexemes true s = (found, none)) (operand : operandDue found = false)
    (closed : ∀ last, found.getLast? = some last → last.isLineComment = false) :
    lexemes true (s ++ [sign, sign, ' ', '/', ' ', '2']) =
      (found ++ [⟨.leaf .punct, [sign]⟩, ⟨.leaf .punct, [sign]⟩, ⟨.leaf .whitespace, [' ']⟩],
        some .unterminatedRegex) := by
  have signs : lexemes false [sign, sign, ' ', '/', ' ', '2'] =
      ([⟨.leaf .punct, [sign]⟩, ⟨.leaf .punct, [sign]⟩, ⟨.leaf .whitespace, [' ']⟩],
        some .unterminatedRegex) := by
    rcases known with rfl | rfl <;> decide +kernel
  rcases List.eq_nil_or_concat found with rfl | ⟨front, last, rfl⟩
  · cases operand
  rw [List.concat_eq_append] at h operand closed ⊢
  have stops : last.role ≠ .leaf .comment →
      ∀ c, [sign, sign, ' ', '/', ' ', '2'].head? = some c → last.role.Stops c := by
    rintro plain _ ⟨⟩
    refine stops_tail (.inr known) plain fun _ => ?_
    rcases known with rfl | rfl <;> decide
  have read := lexemes_tail h (closed last List.getLast?_concat) stops (by rw [operand, signs])
  rw [List.append_assoc]
  exact read

end Tail

/-- A script that is read to its end with nested brackets has a tree of its lexemes. -/
theorem exists_parse {source : String} {found : List Lexeme}
    (read : lexemes true source.toList = (found, none)) (nested : Nested (brackets found)) :
    ∃ tree, parse source = .ok tree ∧ Node.lexemesAll tree.body = found := by
  obtain ⟨tree, gathered⟩ := exists_nest_of_nested nested
  have accepted : parse source = .ok tree := parse_eq_ok.mpr (by rw [read]; exact gathered)
  refine ⟨tree, accepted, ?_⟩
  exact (congrArg Prod.fst ((lexemes_of_parse accepted).1.symm.trans read))

/-- A script that is read up to a fault, with nested brackets so far, fails there. -/
theorem parse_eq_error {source : String} {found : List Lexeme} {cause : Cause}
    (read : lexemes true source.toList = (found, some cause)) (nested : Nested (brackets found)) :
    parse source = .error ⟨.script, cause, some (.behind (found.flatMap Lexeme.text))⟩ := by
  cases parsed : parse source with
  | ok tree =>
    have ended := congrArg Prod.snd ((lexemes_of_parse parsed).1.symm.trans read)
    cases ended
  | error failure =>
    obtain ⟨before, blamed, blames, rfl⟩ := blames_of_parse parsed
    rw [read] at blames
    have viable : ∀ {front back : List Lexeme}, found = front ++ back →
        Viable (brackets front) := by
      rintro front back rfl
      exact ⟨brackets back, by rwa [← brackets_append]⟩
    cases blames with
    | lexical => rfl
    | unexpected parts _ stuck =>
      rw [List.append_cons] at parts
      exact absurd (viable parts) stuck
    | mismatched parts _ stuck =>
      rw [List.append_cons] at parts
      exact absurd (viable parts) stuck

theorem endsInLineComment_iff {tree : Tree} :
    tree.EndsInLineComment ↔ ∃ front last, Node.lexemesAll tree.body = front ++ [last] ∧
      last.isLineComment = true := by
  constructor
  · rintro ⟨before, text, body, line⟩
    refine ⟨Node.lexemesAll before, ⟨.leaf .comment, text.toList⟩, ?_, ?_⟩
    · simp only [body, lexemesAll_append, Node.lexemesAll, Node.lexemes, List.append_nil]
    · exact Lexeme.isLineComment_iff.mpr ⟨rfl, line⟩
  · rintro ⟨front, last, found, line⟩
    rcases List.eq_nil_or_concat tree.body with body | ⟨before, node, body⟩
    · rw [body] at found
      exact absurd (List.append_eq_nil_iff.mp found.symm).2 (List.cons_ne_nil last [])
    · rw [List.concat_eq_append] at body
      simp only [body, lexemesAll_append, Node.lexemesAll, List.append_nil] at found
      cases node with
      | group opener inner closer =>
        rw [Node.lexemes, ← List.cons_append, ← List.append_assoc] at found
        obtain ⟨-, same⟩ := List.append_inj' found rfl
        cases same
        cases line
      | leaf kind text =>
        obtain ⟨-, same⟩ := List.append_inj' found rfl
        cases same
        obtain ⟨⟨⟩, begins⟩ := Lexeme.isLineComment_iff.mp line
        exact ⟨before, text, body, begins⟩

/-- A script with the brackets and the regular expressions of a tree has a tree too. -/
theorem exists_twin {source longer : String} {tree : Tree} {whole : List Lexeme}
    (h : parse source = .ok tree) (read : lexemes true longer.toList = (whole, none))
    (same : brackets whole = brackets (Node.lexemesAll tree.body))
    (count : regexes whole = regexes (Node.lexemesAll tree.body)) :
    ∃ twin, parse longer = .ok twin ∧ twin.regexes = tree.regexes := by
  have nested := (mated_of_parse h).nested
  rw [← same] at nested
  obtain ⟨twin, accepted, found⟩ := exists_parse read nested
  refine ⟨twin, accepted, ?_⟩
  rw [Tree.regexes, found, count, Tree.regexes]

theorem Tree.EndsInOperand.operandDue {tree : Tree} (h : tree.EndsInOperand) :
    operandDue (Node.lexemesAll tree.body) = false := by
  obtain ⟨node, last, divisible⟩ := h
  exact operandDue_lexemesAll last divisible

theorem toList_increment (source : String) (sign : Char) :
    (source ++ String.ofList [sign, sign] ++ " / 2").toList =
      source.toList ++ [sign, sign, ' ', '/', ' ', '2'] := by
  simp only [String.toList_append, String.toList_ofList, List.append_assoc]
  rfl

/-- A comment at the end of a script takes an increment in, and the slash behind it. -/
theorem parse_comment_increment {source : String} {tree : Tree} {sign : Char}
    (h : parse source = .ok tree) (known : sign = '+' ∨ sign = '-')
    (comment : tree.EndsInLineComment) :
    ∃ twin, parse (source ++ String.ofList [sign, sign] ++ " / 2") = .ok twin ∧
      twin.regexes = tree.regexes := by
  obtain ⟨front, last, found, line⟩ := endsInLineComment_iff.mp comment
  have read := (lexemes_of_parse h).1
  rw [found] at read
  have noBreak : '\n' ∉ [sign, sign, ' ', '/', ' ', '2'] := by
    rcases known with rfl | rfl <;> decide
  obtain ⟨whole, longer, same, count⟩ := exists_lexemes_comment read line noBreak
  rw [← toList_increment] at longer
  rw [← found] at same count
  exact exists_twin h longer same count

/-- Behind an increment of an operand a slash begins a regular expression, which never ends. -/
theorem parse_increment {source : String} {tree : Tree} {sign : Char}
    (h : parse source = .ok tree) (operand : tree.EndsInOperand) (known : sign = '+' ∨ sign = '-')
    (comment : ¬ tree.EndsInLineComment) :
    parse (source ++ String.ofList [sign, sign] ++ " / 2") =
      .error ⟨.script, .unterminatedRegex,
        some (.behind (source ++ String.ofList [sign, sign] ++ " ").toList)⟩ := by
  have read := (lexemes_of_parse h).1
  have closed : ∀ last, (Node.lexemesAll tree.body).getLast? = some last →
      last.isLineComment = false := by
    intro last ends
    rw [Bool.eq_false_iff]
    intro line
    obtain ⟨front, found⟩ := List.getLast?_eq_some_iff.mp ends
    exact comment (endsInLineComment_iff.mpr ⟨front, last, found, line⟩)
  have longer := lexemes_increment known read operand.operandDue closed
  rw [← toList_increment] at longer
  have nested : Nested (brackets (Node.lexemesAll tree.body ++
      [⟨.leaf .punct, [sign]⟩, ⟨.leaf .punct, [sign]⟩, ⟨.leaf .whitespace, [' ']⟩])) := by
    rw [brackets_append]
    exact (mated_of_parse h).nested.append .nil
  have fails := parse_eq_error longer nested
  rw [List.flatMap_append, lexemes_text read] at fails
  have place : (source ++ String.ofList [sign, sign] ++ " ").toList =
      source.toList ++ [sign, sign, ' '] := by
    simp only [String.toList_append, String.toList_ofList, List.append_assoc]
    rfl
  rw [place]
  exact fails

/-- Behind an operand ` / 2` divides it. Behind an increment or a decrement of the operand it does
not: a sign demands an operand, so that the slash begins a regular expression, which never ends.
Only a comment at the end of the script hides that. -/
theorem parse_division {source : String} {tree : Tree} (h : parse source = .ok tree)
    (operand : tree.EndsInOperand) :
    (∃ twin, parse (source ++ " / 2") = .ok twin ∧ twin.regexes = tree.regexes) ∧
    ∀ sign ∈ ["++", "--"],
      (tree.EndsInLineComment →
        ∃ twin, parse (source ++ sign ++ " / 2") = .ok twin ∧ twin.regexes = tree.regexes) ∧
      (¬ tree.EndsInLineComment →
        parse (source ++ sign ++ " / 2") =
          .error ⟨.script, .unterminatedRegex, some (.behind (source ++ sign ++ " ").toList)⟩) := by
  constructor
  · have read := (lexemes_of_parse h).1
    obtain ⟨whole, longer, same, count⟩ := exists_lexemes_division read operand.operandDue
    rw [← String.toList_append] at longer
    exact exists_twin h longer same count
  · intro sign known
    have signs : ∃ c, sign = String.ofList [c, c] ∧ (c = '+' ∨ c = '-') := by
      simp only [List.mem_cons, List.not_mem_nil, or_false] at known
      rcases known with rfl | rfl
      · exact ⟨'+', rfl, .inl rfl⟩
      · exact ⟨'-', rfl, .inr rfl⟩
    obtain ⟨c, rfl, either⟩ := signs
    exact ⟨parse_comment_increment h either, parse_increment h operand either⟩

/-- A call is divided, with a comment between. -/
theorem parse_division_call : ∃ tree twin, parse "f(x)/*y*/" = .ok tree ∧ tree.EndsInOperand ∧
    ¬ tree.EndsInLineComment ∧ parse "f(x)/*y*/ / 2" = .ok twin ∧ twin.regexes = tree.regexes ∧
    parse "f(x)/*y*/++ / 2" = .error ⟨.script, .unterminatedRegex, some ⟨0, 12⟩⟩ := by
  have read : lexemes true "f(x)/*y*/".toList =
      ([⟨.leaf .ident, ['f']⟩, ⟨.opener '(', ['(']⟩, ⟨.leaf .ident, ['x']⟩, ⟨.closer ')', [')']⟩,
        ⟨.leaf .comment, "/*y*/".toList⟩], none) := by
    decide +kernel
  let tree : Tree :=
    ⟨[.leaf .ident "f", .group '(' [.leaf .ident "x"] ')', .leaf .comment "/*y*/"]⟩
  have accepted : parse "f(x)/*y*/" = .ok tree := parse_eq_ok.mpr (by rw [read]; rfl)
  have operand : tree.EndsInOperand := ⟨.group '(' [.leaf .ident "x"] ')', rfl, rfl⟩
  have closed : ¬ tree.EndsInLineComment := by
    rintro ⟨before, text, body, line⟩
    have last := congrArg List.getLast? body
    rw [List.getLast?_concat] at last
    cases last
    exact absurd line (by decide)
  obtain ⟨⟨twin, longer, same⟩, signs⟩ := parse_division accepted operand
  have fails := (signs "++" (by decide)).2 closed
  exact ⟨tree, twin, accepted, operand, closed, longer, same, fails⟩

/-- An identifier with an increment cannot be divided, although the identifier can. -/
theorem not_parse_of_increment : ∃ tree twin, parse "i" = .ok tree ∧ tree.EndsInOperand ∧
    parse "i / 2" = .ok twin ∧
    parse "i++ / 2" = .error ⟨.script, .unterminatedRegex, some ⟨0, 4⟩⟩ := by
  have read : lexemes true "i".toList = ([⟨.leaf .ident, ['i']⟩], none) := by decide +kernel
  have accepted : parse "i" = .ok ⟨[.leaf .ident "i"]⟩ := parse_eq_ok.mpr (by rw [read]; rfl)
  obtain ⟨twin, divided⟩ := Outcome.exists_of_toBool (e := parse "i / 2") (by decide +kernel)
  exact ⟨_, twin, accepted, ⟨.leaf .ident "i", rfl, rfl⟩, divided,
    Outcome.eq_error_of_failure? (by decide +kernel)⟩

end Mosaic.Script
