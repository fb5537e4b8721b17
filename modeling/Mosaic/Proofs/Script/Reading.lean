import Mosaic.Proofs.Script.Failure

/-! Which scripts can be read. The lexemes of a script are read from left to right, and what a slash
begins depends on the lexemes before it alone. A script is accepted if and only if they can be read
to the end and their brackets are a nested word; its tree has these very lexemes then. -/
namespace Mosaic.Script

/-- Whether a lexeme is white space or a comment. -/
def Lexeme.isTrivia (lexeme : Lexeme) : Bool :=
  lexeme.role == .leaf .whitespace || lexeme.role == .leaf .comment

/-- Whether an operand comes next: the last lexeme that is neither white space nor a comment is an
opening bracket, a sign or a keyword that demands one, or there is none. -/
def operandDue (before : List Lexeme) : Bool :=
  match (before.filter fun lexeme => !lexeme.isTrivia).getLast? with
  | none => true
  | some ⟨.opener _, _⟩ => true
  | some ⟨.leaf .punct, _⟩ => true
  | some ⟨.leaf .ident, text⟩ => String.ofList text ∈ operandKeywords
  | some _ => false

/-- Reading a text behind the lexemes `before`: its lexemes, up to its end or to a fault. -/
inductive Reads : List Lexeme → List Char → List Lexeme → Option Cause → Prop
  | done (before : List Lexeme) : Reads before [] [] none
  | stops {before : List Lexeme} {s : List Char} {cause : Cause} :
    Faulty (operandDue before) s cause → Reads before s [] (some cause)
  | lexeme {before more : List Lexeme} {lexeme : Lexeme} {rest : List Char}
    {ending : Option Cause} : Cut (operandDue before) lexeme rest →
    Reads (before ++ [lexeme]) rest more ending →
    Reads before (lexeme.text ++ rest) (lexeme :: more) ending

theorem operandDue_append (before : List Lexeme) (lexeme : Lexeme) :
    operandDue (before ++ [lexeme]) = lexeme.operandAfter (operandDue before) := by
  rcases lexeme with ⟨role, text⟩
  unfold operandDue
  rw [List.filter_append]
  cases role with
  | opener c => simp [Lexeme.isTrivia, Lexeme.operandAfter]
  | closer c => simp [Lexeme.isTrivia, Lexeme.operandAfter]
  | leaf kind => cases kind <;> simp [Lexeme.isTrivia, Lexeme.operandAfter]

/-- A text has one reading, the one that the flag for operands leads through. -/
theorem reads_iff {before found : List Lexeme} {s : List Char} {ending : Option Cause} :
    Reads before s found ending ↔ lexemes (operandDue before) s = (found, ending) := by
  constructor
  · intro reads
    induction reads with
    | done before => rw [lexemes]
    | stops fault => exact lexemes_of_faulty fault
    | lexeme cut reads ih =>
      rw [operandDue_append] at ih
      exact lexemes_append cut ih
  · intro read
    generalize due : operandDue before = operand at read
    fun_induction lexemes operand s generalizing before found with
    | case1 =>
      cases read
      exact .done before
    | case2 operand c rest cause stopped =>
      cases read
      subst due
      exact .stops (faulty_of_roleAt stopped)
    | case3 operand c rest role n cut lexeme more cause later =>
      rename_i ih
      cases read
      subst due
      have reads := Reads.lexeme (cut_of_roleAt cut) (ih (operandDue_append before lexeme) later)
      rwa [List.cons_append, List.take_append_drop] at reads

/-- A slash that begins no comment begins a regular expression if and only if an operand is due. -/
theorem Cut.regex_iff {due : Bool} {lexeme : Lexeme} {rest : List Char} (h : Cut due lexeme rest)
    (slash : lexeme.text.head? = some '/') (plain : lexeme.role ≠ .leaf .comment) :
    lexeme.role = .leaf .regex ↔ due = true := by
  cases h with
  | lineComment | blockComment => exact absurd rfl plain
  | regex operand => exact iff_of_true rfl operand
  | division operator =>
    rw [operator]
    exact iff_of_false (by decide) (by decide)
  | whitespace first | ident first | number first | string first | sign first =>
    cases slash
    exact absurd first (by decide +kernel)
  | template => cases slash
  | opener pair | closer pair =>
    cases slash
    cases pair

theorem Reads.regex_iff {before found : List Lexeme} {s : List Char} {ending : Option Cause}
    (h : Reads before s found ending) {front back : List Lexeme} {lexeme : Lexeme}
    (parts : found = front ++ lexeme :: back) (slash : lexeme.text.head? = some '/')
    (plain : lexeme.role ≠ .leaf .comment) :
    lexeme.role = .leaf .regex ↔ operandDue (before ++ front) = true := by
  induction h generalizing front with
  | done => cases front <;> cases parts
  | stops => cases front <;> cases parts
  | lexeme cut reads ih =>
    cases front with
    | cons first front =>
      cases parts
      have later := ih rfl
      rwa [List.append_assoc] at later
    | nil =>
      cases parts
      rw [List.append_nil]
      exact cut.regex_iff slash plain

theorem Blames.prefix_found {found before : List Lexeme} {ending : Option Cause} {cause : Cause}
    (h : Blames found ending before cause) : before <+: found := by
  cases h with
  | lexical viable => exact List.prefix_refl found
  | unexpected parts => exact ⟨_, parts.symm⟩
  | mismatched parts => exact ⟨_, parts.symm⟩
  | unclosed viable parts => exact ⟨_, parts.symm⟩

/-- A script that cannot be read fails at what is to blame. -/
theorem blames_of_parse {source : String} {error : BackendError}
    (h : parse source = .error error) :
    ∃ before cause,
      Blames (lexemes true source.toList).1 (lexemes true source.toList).2 before cause ∧
      error = ⟨.script, cause, some (.behind (before.flatMap Lexeme.text))⟩ := by
  cases stopped : read source.toList with
  | ok tree =>
    rw [parse, stopped] at h
    cases h
  | error fault =>
    rw [parse, stopped] at h
    cases h
    obtain ⟨rest, split, -⟩ := @exists_of_lexemes true source.toList _ _ rfl
    obtain ⟨before, cause, blames, rfl⟩ := read_blames stopped
    refine ⟨before, cause, blames, ?_⟩
    obtain ⟨after, whole⟩ := blames.prefix_found
    rw [← whole, List.flatMap_append, List.append_assoc] at split
    have place := position_behind (List.not_mem_nil (a := '\n')) [] (before.flatMap Lexeme.text)
      (after.flatMap Lexeme.text ++ rest)
    rw [← split, Text.bytes_nil, Nat.zero_add, List.nil_append, List.nil_append] at place
    exact congrArg (fun p => (⟨.script, cause, some p⟩ : BackendError)) place

/-- A script has one reading. It is accepted if and only if it is read to its end with nested
brackets, and fails where its reading does or where its brackets first go wrong. -/
theorem parse_iff_nested (source : String) :
    ∃ found ending,
      (∀ other cause, Reads [] source.toList other cause ↔ other = found ∧ cause = ending) ∧
      (∀ front lexeme back, found = front ++ lexeme :: back → lexeme.text.head? = some '/' →
        lexeme.role ≠ .leaf .comment → (lexeme.role = .leaf .regex ↔ operandDue front = true)) ∧
      (∀ lexeme ∈ found, ∀ c,
        (lexeme.role = .opener c ↔ lexeme.text = [c] ∧ c ∈ ['(', '[', '\x7b']) ∧
        (lexeme.role = .closer c ↔ lexeme.text = [c] ∧ c ∈ [')', ']', '\x7d'])) ∧
      ((∃ tree, parse source = .ok tree) ↔ ending = none ∧ Nested (brackets found)) ∧
      (∀ tree, parse source = .ok tree →
        Node.lexemesAll tree.body = found ∧ Node.MatedAll tree.body) ∧
      ∀ error, parse source = .error error → ∃ before cause, Blames found ending before cause ∧
        error = ⟨.script, cause, some (.behind (before.flatMap Lexeme.text))⟩ := by
  have reads : Reads [] source.toList (lexemes true source.toList).1
      (lexemes true source.toList).2 := reads_iff.mpr rfl
  refine ⟨(lexemes true source.toList).1, (lexemes true source.toList).2, ?_, ?_, ?_, ?_, ?_, ?_⟩
  · intro other cause
    rw [reads_iff, ← Prod.mk.injEq]
    exact eq_comm
  · intro front lexeme back parts slash plain
    exact reads.regex_iff parts slash plain
  · intro lexeme mem c
    have bracketed := bracketed_of_lexemes rfl lexeme mem
    exact ⟨bracketed.opener c, bracketed.closer c⟩
  · constructor
    · rintro ⟨tree, accepted⟩
      rw [(lexemes_of_parse accepted).1]
      exact ⟨rfl, (mated_of_parse accepted).nested⟩
    · rintro ⟨ending, nested⟩
      obtain ⟨tree, gathered⟩ := exists_nest_of_nested nested
      exact ⟨tree, parse_eq_ok.mpr (by rw [ending, gathered])⟩
  · intro tree accepted
    exact ⟨congrArg Prod.fst (lexemes_of_parse accepted).1.symm, mated_of_parse accepted⟩
  · intro error failed
    exact blames_of_parse failed

end Mosaic.Script
