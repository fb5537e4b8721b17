import Mosaic.Proofs.Script.Grammar

/-! The reader of scripts and their grammar. The reader cuts a lexeme off a text if and only if a
rule allows it, and stops for a cause if and only if that is the fault there. So what holds of every
lexeme is shown rule by rule, and never by way of the reader. -/
namespace Mosaic.Script

variable {due : Bool}

/-- Whether a comment begins is seen at the first character. -/
theorem noComment_append {body rest : List Char} (nonempty : body ≠ []) :
    NoComment (body ++ rest) ↔ NoComment body := by
  obtain ⟨c, more, rfl⟩ := List.exists_cons_of_ne_nil nonempty
  exact Iff.rfl

theorem roleAt_ident {c : Char} (start : isIdentStart c = true) (rest : List Char) :
    roleAt due c rest = .ok (.leaf .ident, (rest.takeWhile isIdentPart).length) := by
  have blank := not_isBlank_of_isIdentPart (isIdentPart_of_isIdentStart start)
  rw [roleAt, if_neg blank, if_pos start]

theorem roleAt_number {c : Char} (digit : c.isDigit = true) (rest : List Char) :
    roleAt due c rest = .ok (.leaf .number, (rest.takeWhile isNumberPart).length) := by
  have blank := not_isBlank_of_isIdentPart (isIdentPart_of_isNumeral (isNumeral_of_isDigit digit))
  rw [roleAt, if_neg blank, if_neg (not_isIdentStart_of_isDigit digit), if_pos digit]

theorem roleAt_quote {c : Char} (quote : c ∈ ['"', '\'', '\x60']) (rest : List Char) :
    roleAt due c rest =
      match stringLength? c rest with
      | some n => .ok (.leaf (if c = '\x60' then .template else .str), n)
      | none => .error .unterminatedString := by
  have known : ['"', '\'', '\x60'].all fun c =>
      ¬ Text.isBlank c = true ∧ ¬ isIdentStart c = true ∧ ¬ c.isDigit = true := by decide +kernel
  obtain ⟨blank, start, digit⟩ := of_decide_eq_true (List.all_eq_true.mp known c quote)
  rw [roleAt, if_neg blank, if_neg start, if_neg digit]
  exact if_pos (isQuote_iff.mpr quote)

theorem roleAt_slash (rest : List Char) : roleAt due '/' rest = slashRole due rest := by
  have start : isIdentStart '/' = false := by decide +kernel
  rw [roleAt, if_neg (by decide), start]
  rfl

/-- What a slash begins that begins no comment. -/
theorem slashRole_plain {rest : List Char} (plain : NoComment rest) :
    slashRole due rest =
      if due then
        match regexLength? false rest with
        | some n => .ok (.leaf .regex, n)
        | none => .error .unterminatedRegex
      else .ok (.leaf .punct, 0) := by
  unfold slashRole
  split
  · exact absurd rfl plain.1
  · exact absurd rfl plain.2
  · rfl

theorem roleAt_opener {c d : Char} (pair : Mates c d) (rest : List Char) :
    roleAt due c rest = .ok (.opener c, 0) := by
  have start : isIdentStart c = false := by cases pair <;> decide
  rw [roleAt, start]
  cases pair <;> rfl

theorem roleAt_closer {c d : Char} (pair : Mates d c) (rest : List Char) :
    roleAt due c rest = .ok (.closer c, 0) := by
  have start : isIdentStart c = false := by cases pair <;> decide
  rw [roleAt, start]
  cases pair <;> rfl

theorem mem_marks {c : Char} :
    c ∈ marks ↔ isQuote c = true ∨ c = '/' ∨ isOpener c = true ∨ isCloser c = true := by
  simp only [marks, isQuote, isOpener, isCloser, List.mem_cons, List.not_mem_nil, or_false,
    Bool.or_eq_true, beq_iff_eq, or_assoc]

/-- A character that is no mark is a sign, unless it is a numeral. -/
theorem roleAt_unmarked {c : Char} (blank : ¬ Text.isBlank c = true)
    (start : ¬ isIdentStart c = true) (digit : ¬ c.isDigit = true) (unmarked : c ∉ marks)
    (rest : List Char) :
    roleAt due c rest =
      if Text.isNumeral c then .error (.unexpectedInput c) else .ok (.leaf .punct, 0) := by
  rw [mem_marks, not_or, not_or, not_or] at unmarked
  obtain ⟨quote, slash, opener, closer⟩ := unmarked
  rw [roleAt, if_neg blank, if_neg start, if_neg digit, if_neg quote, if_neg slash, if_neg opener,
    if_neg closer]

theorem roleAt_sign {c : Char} (sign : isSign c = true) (rest : List Char) :
    roleAt due c rest = .ok (.leaf .punct, 0) := by
  simp only [isSign, Bool.not_eq_true', Bool.or_eq_false_iff, List.contains_eq_mem,
    decide_eq_false_iff_not] at sign
  obtain ⟨⟨blank, part⟩, unmarked⟩ := sign
  have whole : ¬ isIdentPart c = true := Bool.eq_false_iff.mp part
  have start := mt isIdentPart_of_isIdentStart whole
  have numeral := mt isIdentPart_of_isNumeral whole
  rw [roleAt_unmarked (Bool.eq_false_iff.mp blank) start (mt isNumeral_of_isDigit numeral) unmarked,
    if_neg numeral]

theorem roleAt_input {c : Char} (numeral : Text.isNumeral c = true)
    (start : isIdentStart c = false) (digit : c.isDigit = false) (rest : List Char) :
    roleAt due c rest = .error (.unexpectedInput c) := by
  have blank := not_isBlank_of_isIdentPart (isIdentPart_of_isNumeral numeral)
  have marked : marks.all fun c => ¬ Text.isNumeral c = true := by decide +kernel
  have unmarked : c ∉ marks :=
    fun mem => of_decide_eq_true (List.all_eq_true.mp marked c mem) numeral
  rw [roleAt_unmarked blank (Bool.eq_false_iff.mp start) (Bool.eq_false_iff.mp digit) unmarked,
    if_pos numeral]

/-- What a rule allows is what the reader cuts off. -/
theorem Cut.roleAt_eq {lexeme : Lexeme} {rest : List Char} (h : Cut due lexeme rest) :
    ∃ c text, lexeme.text = c :: text ∧
      roleAt due c (text ++ rest) = .ok (lexeme.role, text.length) := by
  cases h with
  | @whitespace c run rest blank span =>
    refine ⟨c, run, rfl, ?_⟩
    rw [roleAt, if_pos blank, Text.blankLength, span.length_takeWhile]
  | @ident c run rest start span =>
    refine ⟨c, run, rfl, ?_⟩
    rw [roleAt_ident start, span.length_takeWhile]
  | @number c run rest digit span =>
    refine ⟨c, run, rfl, ?_⟩
    rw [roleAt_number digit, span.length_takeWhile]
  | @lineComment run rest span =>
    refine ⟨'/', '/' :: run, rfl, ?_⟩
    rw [roleAt_slash, List.cons_append, slashRole, span.length_takeWhile]
    rfl
  | @blockComment body rest first =>
    refine ⟨'/', '*' :: (body ++ ['*', '/']), rfl, ?_⟩
    have found := Text.indexOf?_before (List.cons_ne_nil '*' ['/']) first rest
    rw [roleAt_slash, List.cons_append, List.append_assoc, slashRole, Text.endOf?, found]
    simp
  | @string quote body rest sign inner =>
    refine ⟨quote, body, rfl, ?_⟩
    have quotes : quote ∈ ['"', '\'', '\x60'] := List.mem_append_left ['\x60'] sign
    have other : quote ≠ '\x60' := by
      rintro rfl
      exact absurd sign (by decide)
    rw [roleAt_quote quotes, stringLength?_of_rest (isQuote_iff.mpr quotes) inner, if_neg other]
  | @template body rest inner =>
    refine ⟨'\x60', body, rfl, ?_⟩
    rw [roleAt_quote (by decide), stringLength?_of_rest rfl inner]
    rfl
  | @regex body flags rest operand plain inner run =>
    refine ⟨'/', body ++ flags, rfl, ?_⟩
    have nonempty : body ≠ [] := by
      rintro rfl
      cases inner
    have first : NoComment (body ++ (flags ++ rest)) := (noComment_append nonempty).mpr plain
    rw [roleAt_slash, List.append_assoc, slashRole_plain first, if_pos operand,
      regexLength?_of_rest inner run, List.length_append]
  | division operator plain =>
    refine ⟨'/', [], rfl, ?_⟩
    rw [roleAt_slash, List.nil_append, slashRole_plain plain, operator]
    rfl
  | opener pair => exact ⟨_, [], rfl, roleAt_opener pair rest⟩
  | closer pair => exact ⟨_, [], rfl, roleAt_closer pair rest⟩
  | sign sign => exact ⟨_, [], rfl, roleAt_sign sign rest⟩

theorem Cut.text_ne_nil {lexeme : Lexeme} {rest : List Char} (h : Cut due lexeme rest) :
    lexeme.text ≠ [] := by
  obtain ⟨c, text, parts, -⟩ := h.roleAt_eq
  rw [parts]
  exact List.cons_ne_nil c text

theorem Faulty.roleAt_eq {c : Char} {rest : List Char} {cause : Cause}
    (h : Faulty due (c :: rest) cause) : roleAt due c rest = .error cause := by
  cases h with
  | comment endless =>
    rw [roleAt_slash, slashRole, Text.endOf?, Text.indexOf?_eq_none_iff.mpr endless]
    rfl
  | string quote endless =>
    rw [roleAt_quote quote, (stringLength?_eq_none (isQuote_iff.mpr quote)).mpr endless]
  | regex operand plain endless =>
    rw [roleAt_slash, slashRole_plain plain, if_pos operand,
      regexLength?_eq_none.mpr endless]
  | input numeral start digit => exact roleAt_input numeral start digit rest

/-- What the reader finds at the front of a text is what a rule says. -/
def Found (due : Bool) (c : Char) (rest : List Char) : Except Cause (Role × Nat) → Prop
  | .ok (role, n) => Cut due ⟨role, c :: rest.take n⟩ (rest.drop n)
  | .error cause => Faulty due (c :: rest) cause

theorem noComment_of {rest : List Char} (line : ∀ more, rest ≠ '/' :: more)
    (block : ∀ more, rest ≠ '*' :: more) : NoComment rest := by
  cases rest with
  | nil => exact ⟨nofun, nofun⟩
  | cons c more =>
    constructor
    · rintro ⟨⟩
      exact line more rfl
    · rintro ⟨⟩
      exact block more rfl

theorem found_blockComment {rest : List Char} {n : Nat}
    (closed : Text.endOf? ['*', '/'] rest = some n) :
    Cut due ⟨.leaf .comment, '/' :: '*' :: rest.take n⟩ (rest.drop n) := by
  obtain ⟨m, found, rfl⟩ := Option.map_eq_some_iff.mp closed
  obtain ⟨body, behind, rfl, rfl, first⟩ :=
    Text.exists_of_indexOf? (List.cons_ne_nil '*' ['/']) found
  rw [← List.append_assoc, List.take_left' List.length_append, List.drop_left' List.length_append]
  exact .blockComment first

theorem found_regex {rest : List Char} {n : Nat} (operand : due = true) (plain : NoComment rest)
    (closed : regexLength? false rest = some n) :
    Cut due ⟨.leaf .regex, '/' :: rest.take n⟩ (rest.drop n) := by
  obtain ⟨body, flags, behind, rfl, rfl, inner, run⟩ := exists_of_regexLength? closed
  have nonempty : body ≠ [] := by
    rintro rfl
    cases inner
  have first := (noComment_append nonempty).mp plain
  rw [← List.append_assoc, List.take_left' List.length_append, List.drop_left' List.length_append]
  exact .regex operand first inner run

theorem found_slash (rest : List Char) : Found due '/' rest (slashRole due rest) := by
  fun_cases slashRole due rest with
  | case1 more => exact .lineComment (run_take _ more)
  | case2 more n closed => exact found_blockComment closed
  | case3 more endless =>
    obtain never := Option.map_eq_none_iff.mp endless
    exact .comment (Text.indexOf?_eq_none_iff.mp never)
  | case4 rest line block operand n closed =>
    exact found_regex operand (noComment_of line block) closed
  | case5 rest line block operand endless =>
    exact .regex operand (noComment_of line block) (regexLength?_eq_none.mp endless)
  | case6 rest line block operator =>
    exact .division (Bool.eq_false_iff.mpr operator) (noComment_of line block)

theorem found_quote {c : Char} {rest : List Char} {n : Nat} (quote : isQuote c = true)
    (closed : stringLength? c rest = some n) :
    Cut due ⟨.leaf (if c = '\x60' then .template else .str), c :: rest.take n⟩ (rest.drop n) := by
  have inner := stringRest_of_length closed
  by_cases accent : c = '\x60'
  · subst accent
    exact .template inner
  · rw [if_neg accent]
    refine .string ?_ inner
    rcases List.mem_append.mp (show c ∈ ['"', '\''] ++ ['\x60'] from isQuote_iff.mp quote) with
      other | last
    · exact other
    · exact absurd (List.mem_singleton.mp last) accent

theorem found_roleAt (due : Bool) (c : Char) (rest : List Char) :
    Found due c rest (roleAt due c rest) := by
  fun_cases roleAt due c rest with
  | case1 blank => exact .whitespace blank (run_take _ rest)
  | case2 blank start => exact .ident start (run_take _ rest)
  | case3 blank start digit => exact .number digit (run_take _ rest)
  | case4 blank start digit quote n closed => exact found_quote quote closed
  | case5 blank start digit quote endless =>
    exact .string (isQuote_iff.mp quote) ((stringLength?_eq_none quote).mp endless)
  | case6 blank start digit quote slash =>
    subst slash
    exact found_slash rest
  | case7 blank start digit quote slash opener =>
    obtain ⟨d, pair⟩ := isOpener_iff.mp opener
    exact .opener pair
  | case8 blank start digit quote slash opener closer =>
    obtain ⟨d, pair⟩ := isCloser_iff.mp closer
    exact .closer pair
  | case9 blank start digit quote slash opener closer numeral =>
    exact .input numeral (Bool.eq_false_iff.mpr start) (Bool.eq_false_iff.mpr digit)
  | case10 blank start digit quote slash opener closer numeral =>
    have unmarked : c ∉ marks := by
      rw [mem_marks]
      rintro (isMark | isMark | isMark | isMark)
      · exact quote isMark
      · exact slash isMark
      · exact opener isMark
      · exact closer isMark
    refine .sign ?_
    simp [isSign, isIdentPart, blank, start, numeral, unmarked]

theorem cut_of_roleAt {c : Char} {rest : List Char} {role : Role} {n : Nat}
    (h : roleAt due c rest = .ok (role, n)) :
    Cut due ⟨role, c :: rest.take n⟩ (rest.drop n) := by
  have found := found_roleAt due c rest
  rwa [h] at found

theorem faulty_of_roleAt {c : Char} {rest : List Char} {cause : Cause}
    (h : roleAt due c rest = .error cause) : Faulty due (c :: rest) cause := by
  have found := found_roleAt due c rest
  rwa [h] at found

/-- The reader cuts a lexeme off a text if and only if a rule allows it. -/
theorem cut_iff {role : Role} {c : Char} {text rest : List Char} :
    Cut due ⟨role, c :: text⟩ rest ↔ roleAt due c (text ++ rest) = .ok (role, text.length) := by
  constructor
  · intro cut
    obtain ⟨d, inner, parts, read⟩ := cut.roleAt_eq
    cases parts
    exact read
  · intro read
    have cut := cut_of_roleAt read
    rwa [List.take_left, List.drop_left] at cut

/-- The reader stops for a cause if and only if that is the fault there. -/
theorem faulty_iff {c : Char} {rest : List Char} {cause : Cause} :
    Faulty due (c :: rest) cause ↔ roleAt due c rest = .error cause :=
  ⟨Faulty.roleAt_eq, faulty_of_roleAt⟩

/-! ### Brackets -/

/-- A lexeme is a bracket if and only if its text is one of the six. -/
structure Lexeme.Bracketed (lexeme : Lexeme) : Prop where
  opener : ∀ c, lexeme.role = .opener c ↔ lexeme.text = [c] ∧ c ∈ ['(', '[', '\x7b']
  closer : ∀ c, lexeme.role = .closer c ↔ lexeme.text = [c] ∧ c ∈ [')', ']', '\x7d']

theorem Lexeme.Bracketed.text_of_opener {lexeme : Lexeme} {c : Char} (h : lexeme.Bracketed)
    (opens : lexeme.role = .opener c) : lexeme.text = [c] :=
  ((h.opener c).mp opens).1

theorem Lexeme.Bracketed.text_of_closer {lexeme : Lexeme} {c : Char} (h : lexeme.Bracketed)
    (closes : lexeme.role = .closer c) : lexeme.text = [c] :=
  ((h.closer c).mp closes).1

theorem Lexeme.Bracketed.isOpener {lexeme : Lexeme} {c : Char} (h : lexeme.Bracketed)
    (opens : lexeme.role = .opener c) : isOpener c = true :=
  isOpener_iff.mpr (mem_openers_iff.mp ((h.opener c).mp opens).2)

theorem Lexeme.Bracketed.isCloser {lexeme : Lexeme} {c : Char} (h : lexeme.Bracketed)
    (closes : lexeme.role = .closer c) : isCloser c = true :=
  isCloser_iff.mpr (mem_closers_iff.mp ((h.closer c).mp closes).2)

theorem Cut.bracketed {lexeme : Lexeme} {rest : List Char} (h : Cut due lexeme rest) :
    lexeme.Bracketed := by
  obtain ⟨b, inner, parts, read⟩ := h.roleAt_eq
  constructor
  · intro c
    rw [mem_openers_iff]
    constructor
    · intro opens
      cases h with
      | opener pair =>
        cases opens
        exact ⟨rfl, _, pair⟩
      | _ => cases opens
    · rintro ⟨text, d, pair⟩
      cases parts.symm.trans text
      rw [roleAt_opener pair] at read
      exact (Prod.mk.inj (Except.ok.inj read)).1.symm
  · intro c
    rw [mem_closers_iff]
    constructor
    · intro closes
      cases h with
      | closer pair =>
        cases closes
        exact ⟨rfl, _, pair⟩
      | _ => cases closes
    · rintro ⟨text, d, pair⟩
      cases parts.symm.trans text
      rw [roleAt_closer pair] at read
      exact (Prod.mk.inj (Except.ok.inj read)).1.symm

/-! ### Lexeme after lexeme -/

theorem lexemes_append {lexeme : Lexeme} {back : List Char} {more : List Lexeme}
    {ending : Option Cause} (cut : Cut due lexeme back)
    (later : lexemes (lexeme.operandAfter due) back = (more, ending)) :
    lexemes due (lexeme.text ++ back) = (lexeme :: more, ending) := by
  obtain ⟨c, inner, parts, read⟩ := cut.roleAt_eq
  obtain ⟨role, text⟩ := lexeme
  cases parts
  rw [List.cons_append, lexemes, read]
  simp only [List.take_left, List.drop_left, later]

theorem lexemes_of_faulty {s : List Char} {cause : Cause} (fault : Faulty due s cause) :
    lexemes due s = ([], some cause) := by
  cases s with
  | nil => cases fault
  | cons c rest => rw [lexemes, fault.roleAt_eq]

theorem nil_of_lexemes {s : List Char} (h : lexemes due s = ([], none)) : s = [] := by
  cases s with
  | nil => rfl
  | cons c rest =>
    cases read : roleAt due c rest <;> rw [lexemes, read] at h <;> cases h

theorem faulty_of_lexemes {s : List Char} {cause : Cause}
    (h : lexemes due s = ([], some cause)) : Faulty due s cause := by
  cases s with
  | nil =>
    rw [lexemes] at h
    cases h
  | cons c rest =>
    cases read : roleAt due c rest <;> rw [lexemes, read] at h <;> cases h
    exact faulty_of_roleAt read

/-- The first lexeme of a text, and how the text is read behind it. -/
theorem exists_of_lexemes_cons {s : List Char} {lexeme : Lexeme} {more : List Lexeme}
    {ending : Option Cause} (h : lexemes due s = (lexeme :: more, ending)) :
    ∃ back, s = lexeme.text ++ back ∧ Cut due lexeme back ∧
      lexemes (lexeme.operandAfter due) back = (more, ending) := by
  cases s with
  | nil =>
    rw [lexemes] at h
    cases h
  | cons c rest =>
    cases read : roleAt due c rest with
    | error cause =>
      rw [lexemes, read] at h
      cases h
    | ok first =>
      obtain ⟨role, n⟩ := first
      rw [lexemes, read] at h
      cases h
      refine ⟨rest.drop n, ?_, cut_of_roleAt read, rfl⟩
      rw [List.cons_append, List.take_append_drop]

theorem bracketed_of_lexemes {s : List Char} {found : List Lexeme} {ending : Option Cause}
    (h : lexemes due s = (found, ending)) : ∀ lexeme ∈ found, lexeme.Bracketed := by
  induction found generalizing due s with
  | nil => exact List.forall_mem_nil _
  | cons lexeme more ih =>
    obtain ⟨back, -, cut, later⟩ := exists_of_lexemes_cons h
    exact List.forall_mem_cons.mpr ⟨cut.bracketed, ih later⟩

/-- A text is its lexemes and, where it cannot be read on, what the fault is in front of. -/
theorem exists_of_lexemes {s : List Char} {found : List Lexeme} {ending : Option Cause}
    (h : lexemes due s = (found, ending)) :
    ∃ rest, s = found.flatMap Lexeme.text ++ rest ∧ (ending = none → rest = []) ∧
      ∀ cause, ending = some cause → ∃ operand, Faulty operand rest cause := by
  induction found generalizing due s with
  | nil =>
    refine ⟨s, rfl, ?_, ?_⟩
    · rintro rfl
      exact nil_of_lexemes h
    · rintro cause rfl
      exact ⟨due, faulty_of_lexemes h⟩
  | cons lexeme more ih =>
    obtain ⟨back, rfl, cut, later⟩ := exists_of_lexemes_cons h
    obtain ⟨rest, rfl, stops⟩ := ih later
    exact ⟨rest, by rw [List.flatMap_cons, List.append_assoc], stops⟩

/-- A script that is read to its end is its lexemes. -/
theorem lexemes_text {s : List Char} {found : List Lexeme} (h : lexemes due s = (found, none)) :
    found.flatMap Lexeme.text = s := by
  obtain ⟨rest, rfl, all, -⟩ := exists_of_lexemes h
  rw [all rfl, List.append_nil]

end Mosaic.Script
