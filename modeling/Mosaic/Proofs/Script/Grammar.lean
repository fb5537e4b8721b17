import Mosaic.Proofs.Text
import Mosaic.Script.Lexeme

/-! The lexical grammar of scripts. Each kind of lexeme has a rule that says what its text is and
what may stand behind it, and each lexical fault one that says when no lexeme begins. The reader
cuts a lexeme off a text if and only if a rule allows it, and stops for a cause if and only if
that is the fault there. -/
namespace Mosaic.Script

/-- The three pairs of brackets. -/
inductive Mates : Char → Char → Prop
  | round : Mates '(' ')'
  | square : Mates '[' ']'
  | curly : Mates '\x7b' '\x7d'

/-- The quotes, the slash and the brackets. -/
def marks : List Char := ['"', '\'', '\x60', '/', '(', '[', '\x7b', ')', ']', '\x7d']

/-- A character that is no blank, no mark and no part of a name. -/
def isSign (c : Char) : Bool := !(Text.isBlank c || isIdentPart c || marks.contains c)

/-- Some characters of one class, and behind them none of it. -/
structure Run (p : Char → Bool) (run rest : List Char) : Prop where
  inside : ∀ c ∈ run, p c = true
  ends : ∀ c, rest.head? = some c → p c = false

/-- A string behind its opening quote, up to the closing one. A backslash hides the character behind
it, and only grave accents enclose line breaks. -/
inductive StringRest (quote : Char) : List Char → Prop
  | close : StringRest quote [quote]
  | hidden {c : Char} {rest : List Char} : StringRest quote rest →
    StringRest quote ('\\' :: c :: rest)
  | plain {c : Char} {rest : List Char} : c ≠ '\\' → c ≠ quote → (c = '\n' → quote = '\x60') →
    StringRest quote rest → StringRest quote (c :: rest)

/-- A regular expression behind its first slash, up to the one that closes it. Between square
brackets a slash closes nothing, and there is no line break that is not hidden. -/
inductive RegexRest : Bool → List Char → Prop
  | close : RegexRest false ['/']
  | hidden {inClass : Bool} {c : Char} {rest : List Char} : RegexRest inClass rest →
    RegexRest inClass ('\\' :: c :: rest)
  | opens {inClass : Bool} {rest : List Char} : RegexRest true rest →
    RegexRest inClass ('[' :: rest)
  | shuts {inClass : Bool} {rest : List Char} : RegexRest false rest →
    RegexRest inClass (']' :: rest)
  | plain {inClass : Bool} {c : Char} {rest : List Char} : c ∉ ['\\', '\n', '[', ']'] →
    (c = '/' → inClass = true) → RegexRest inClass rest → RegexRest inClass (c :: rest)

/-- No comment begins with a slash in front of a text. -/
def NoComment (rest : List Char) : Prop := rest.head? ≠ some '/' ∧ rest.head? ≠ some '*'

/-- A lexeme in front of a text, where an operand is `due` or not. -/
inductive Cut (due : Bool) : Lexeme → List Char → Prop
  | whitespace {c : Char} {run rest : List Char} : Text.isBlank c = true →
    Run Text.isBlank run rest → Cut due ⟨.leaf .whitespace, c :: run⟩ rest
  | lineComment {run rest : List Char} : Run (· ≠ '\n') run rest →
    Cut due ⟨.leaf .comment, '/' :: '/' :: run⟩ rest
  | blockComment {body rest : List Char} : ¬ ['*', '/'] <:+: body ++ ['*'] →
    Cut due ⟨.leaf .comment, '/' :: '*' :: (body ++ ['*', '/'])⟩ rest
  | ident {c : Char} {run rest : List Char} : isIdentStart c = true → Run isIdentPart run rest →
    Cut due ⟨.leaf .ident, c :: run⟩ rest
  | number {c : Char} {run rest : List Char} : c.isDigit = true → Run isNumberPart run rest →
    Cut due ⟨.leaf .number, c :: run⟩ rest
  | string {quote : Char} {body rest : List Char} : quote ∈ ['"', '\''] → StringRest quote body →
    Cut due ⟨.leaf .str, quote :: body⟩ rest
  | template {body rest : List Char} : StringRest '\x60' body →
    Cut due ⟨.leaf .template, '\x60' :: body⟩ rest
  | regex {body flags rest : List Char} : due = true → NoComment body → RegexRest false body →
    Run Char.isAlpha flags rest → Cut due ⟨.leaf .regex, '/' :: (body ++ flags)⟩ rest
  | division {rest : List Char} : due = false → NoComment rest →
    Cut due ⟨.leaf .punct, ['/']⟩ rest
  | opener {c d : Char} {rest : List Char} : Mates c d → Cut due ⟨.opener c, [c]⟩ rest
  | closer {c d : Char} {rest : List Char} : Mates d c → Cut due ⟨.closer c, [c]⟩ rest
  | sign {c : Char} {rest : List Char} : isSign c = true → Cut due ⟨.leaf .punct, [c]⟩ rest

/-- Why no lexeme begins at the front of a text, where an operand is `due` or not. -/
inductive Faulty (due : Bool) : List Char → Cause → Prop
  | comment {rest : List Char} : ¬ ['*', '/'] <:+: rest →
    Faulty due ('/' :: '*' :: rest) .unclosedComment
  | string {quote : Char} {rest : List Char} : quote ∈ ['"', '\'', '\x60'] →
    (∀ body, StringRest quote body → ¬ body <+: rest) →
    Faulty due (quote :: rest) .unterminatedString
  | regex {rest : List Char} : due = true → NoComment rest →
    (∀ body, RegexRest false body → ¬ body <+: rest) →
    Faulty due ('/' :: rest) .unterminatedRegex
  | input {c : Char} {rest : List Char} : Text.isNumeral c = true → isIdentStart c = false →
    c.isDigit = false → Faulty due (c :: rest) (.unexpectedInput c)

/-! ### Classes of characters -/

theorem exists_range_of_inRanges {ranges : List (Nat × Nat)} {n : Nat}
    (h : Text.inRanges ranges n = true) : ∃ range ∈ ranges, range.1 ≤ n ∧ n ≤ range.2 := by
  induction ranges with
  | nil => cases h
  | cons range rest ih =>
    rw [Text.inRanges] at h
    split at h
    · cases h
    · next low =>
      split at h
      · next high => exact ⟨range, List.mem_cons_self, Nat.le_of_not_lt low, high⟩
      · obtain ⟨other, mem, bounds⟩ := ih h
        exact ⟨other, List.mem_cons_of_mem _ mem, bounds⟩

/-- No number is in both of two lists of intervals that keep apart. -/
theorem inRanges_apart {ranges others : List (Nat × Nat)}
    (apart : ∀ range ∈ ranges, ∀ other ∈ others, range.2 < other.1 ∨ other.2 < range.1) {n : Nat}
    (h : Text.inRanges ranges n = true) : Text.inRanges others n = false := by
  rw [Bool.eq_false_iff]
  intro again
  obtain ⟨range, mem, low, high⟩ := exists_range_of_inRanges h
  obtain ⟨other, inside, otherLow, otherHigh⟩ := exists_range_of_inRanges again
  have beside := apart range mem other inside
  omega

theorem isIdentPart_of_isBlank {c : Char} (h : Text.isBlank c = true) : isIdentPart c = false := by
  have letter : Text.isLetter c = false := inRanges_apart (by decide +kernel) h
  have numeral : Text.isNumeral c = false := inRanges_apart (by decide +kernel) h
  have low : c ≠ '_' := by
    rintro rfl
    exact absurd h (by decide)
  have dollar : c ≠ '$' := by
    rintro rfl
    exact absurd h (by decide)
  simp [isIdentPart, isIdentStart, letter, numeral, low, dollar]

theorem isIdentPart_of_isIdentStart {c : Char} (h : isIdentStart c = true) :
    isIdentPart c = true := by
  rw [isIdentPart, h, Bool.true_or]

theorem isIdentPart_of_isNumeral {c : Char} (h : Text.isNumeral c = true) :
    isIdentPart c = true := by
  rw [isIdentPart, h, Bool.or_true]

theorem not_isBlank_of_isIdentPart {c : Char} (h : isIdentPart c = true) :
    ¬ Text.isBlank c = true := by
  intro blank
  rw [isIdentPart_of_isBlank blank] at h
  cases h

theorem isNumeral_of_isDigit {c : Char} (h : c.isDigit = true) : Text.isNumeral c = true := by
  obtain ⟨low, high⟩ := Char.isDigit_iff_toNat.mp h
  have all : ∀ n < 58, 48 ≤ n → Text.inRanges Text.numeralRanges n = true := by decide
  exact all _ (Nat.lt_succ_of_le high) low

theorem not_isIdentStart_of_isDigit {c : Char} (h : c.isDigit = true) :
    ¬ isIdentStart c = true := by
  obtain ⟨low, high⟩ := Char.isDigit_iff_toNat.mp h
  have all : ∀ n < 58, 48 ≤ n → isIdentStart (Char.ofNat n) = false := by decide
  have own := all _ (Nat.lt_succ_of_le high) low
  rw [Char.ofNat_toNat] at own
  exact Bool.eq_false_iff.mp own

theorem isQuote_iff {c : Char} : isQuote c = true ↔ c ∈ ['"', '\'', '\x60'] := by
  simp only [isQuote, Bool.or_eq_true, beq_iff_eq, List.mem_cons, List.not_mem_nil, or_false,
    or_assoc]

theorem mem_openers_iff {c : Char} : c ∈ ['(', '[', '\x7b'] ↔ ∃ d, Mates c d := by
  constructor
  · intro mem
    simp only [List.mem_cons, List.not_mem_nil, or_false] at mem
    rcases mem with rfl | rfl | rfl
    · exact ⟨_, .round⟩
    · exact ⟨_, .square⟩
    · exact ⟨_, .curly⟩
  · rintro ⟨d, pair⟩
    cases pair <;> decide

theorem mem_closers_iff {d : Char} : d ∈ [')', ']', '\x7d'] ↔ ∃ c, Mates c d := by
  constructor
  · intro mem
    simp only [List.mem_cons, List.not_mem_nil, or_false] at mem
    rcases mem with rfl | rfl | rfl
    · exact ⟨_, .round⟩
    · exact ⟨_, .square⟩
    · exact ⟨_, .curly⟩
  · rintro ⟨c, pair⟩
    cases pair <;> decide

theorem isOpener_iff {c : Char} : isOpener c = true ↔ ∃ d, Mates c d := by
  rw [← mem_openers_iff]
  simp only [isOpener, Bool.or_eq_true, beq_iff_eq, List.mem_cons, List.not_mem_nil, or_false,
    or_assoc]

theorem isCloser_iff {d : Char} : isCloser d = true ↔ ∃ c, Mates c d := by
  rw [← mem_closers_iff]
  simp only [isCloser, Bool.or_eq_true, beq_iff_eq, List.mem_cons, List.not_mem_nil, or_false,
    or_assoc]

theorem Mates.eq_closerOf {c d : Char} (h : Mates c d) : closerOf c = d := by
  cases h <;> rfl

theorem mates_closerOf {c : Char} (h : isOpener c = true) : Mates c (closerOf c) := by
  obtain ⟨d, pair⟩ := isOpener_iff.mp h
  rwa [pair.eq_closerOf]

/-! ### Spans, strings and regular expressions -/

theorem Run.length_takeWhile {p : Char → Bool} {run rest : List Char} (h : Run p run rest) :
    ((run ++ rest).takeWhile p).length = run.length :=
  Text.length_takeWhile_append.mpr ⟨h.inside, h.ends⟩

theorem run_takeWhile (p : Char → Bool) (s : List Char) :
    Run p (s.takeWhile p) (s.dropWhile p) := by
  have whole : ((s.takeWhile p ++ s.dropWhile p).takeWhile p).length = (s.takeWhile p).length := by
    rw [List.takeWhile_append_dropWhile]
  obtain ⟨inside, ends⟩ := Text.length_takeWhile_append.mp whole
  exact ⟨inside, ends⟩

theorem run_take (p : Char → Bool) (s : List Char) :
    Run p (s.take (s.takeWhile p).length) (s.drop (s.takeWhile p).length) := by
  rw [Text.take_length_takeWhile, Text.drop_length_takeWhile]
  exact run_takeWhile p s

theorem stringLength?_cons {quote c : Char} {rest : List Char} (visible : c ≠ '\\' ∨ rest = []) :
    stringLength? quote (c :: rest) =
      if c = '\n' ∧ quote ≠ '\x60' then none
      else if c = quote then some 1
      else (stringLength? quote rest).map (· + 1) := by
  rw [stringLength?]
  rintro d more rfl rfl
  simp at visible

theorem stringLength?_of_rest {quote : Char} (sign : isQuote quote = true) {body : List Char}
    (h : StringRest quote body) (rest : List Char) :
    stringLength? quote (body ++ rest) = some body.length := by
  have visible : quote ≠ '\\' ∧ quote ≠ '\n' := by
    constructor <;> rintro rfl <;> cases sign
  induction h with
  | close =>
    rw [List.singleton_append, stringLength?_cons (.inl visible.1),
      if_neg (fun same => visible.2 same.1), if_pos rfl]
    rfl
  | hidden inner ih =>
    rw [List.cons_append, List.cons_append, stringLength?, ih]
    rfl
  | plain escape other lines inner ih =>
    rw [List.cons_append, stringLength?_cons (.inl escape),
      if_neg (fun same => same.2 (lines same.1)), if_neg other, ih]
    rfl

theorem stringRest_of_length {quote : Char} {s : List Char} {n : Nat}
    (h : stringLength? quote s = some n) : StringRest quote (s.take n) := by
  fun_induction stringLength? quote s generalizing n with
  | case1 => cases h
  | case2 d rest ih =>
    obtain ⟨m, found, rfl⟩ := Option.map_eq_some_iff.mp h
    exact .hidden (ih found)
  | case3 => cases h
  | case4 rest =>
    cases h
    exact .close
  | case5 c rest visible newline other ih =>
    obtain ⟨m, found, rfl⟩ := Option.map_eq_some_iff.mp h
    refine .plain ?_ other (fun same => ?_) (ih found)
    · rintro rfl
      cases rest with
      | nil => cases found
      | cons d more => exact visible d more rfl rfl
    · by_cases lines : quote = '\x60'
      · exact lines
      · exact absurd ⟨same, lines⟩ newline

/-- A string ends if and only if a closing quote is to come. -/
theorem stringLength?_eq_none {quote : Char} (sign : isQuote quote = true) {s : List Char} :
    stringLength? quote s = none ↔ ∀ body, StringRest quote body → ¬ body <+: s := by
  constructor
  · rintro never body inner ⟨rest, rfl⟩
    rw [stringLength?_of_rest sign inner] at never
    cases never
  · intro never
    cases found : stringLength? quote s with
    | none => rfl
    | some n => exact absurd (List.take_prefix n s) (never _ (stringRest_of_length found))

theorem regexLength?_cons {inClass : Bool} {c : Char} (visible : c ≠ '\\') (rest : List Char) :
    regexLength? inClass (c :: rest) =
      if c = '\n' then none
      else if c = '[' then (regexLength? true rest).map (· + 1)
      else if c = ']' then (regexLength? false rest).map (· + 1)
      else if c = '/' ∧ !inClass then some ((rest.takeWhile Char.isAlpha).length + 1)
      else (regexLength? inClass rest).map (· + 1) := by
  rw [regexLength?]
  intro d more escape
  exact absurd escape visible

theorem regexLength?_of_rest {inClass : Bool} {body flags rest : List Char}
    (h : RegexRest inClass body) (run : Run Char.isAlpha flags rest) :
    regexLength? inClass (body ++ (flags ++ rest)) = some (body.length + flags.length) := by
  induction h with
  | close =>
    rw [List.singleton_append, regexLength?_cons (by decide), run.length_takeWhile]
    simp [Nat.add_comm]
  | hidden inner ih =>
    rw [List.cons_append, List.cons_append, regexLength?, ih]
    simp [Nat.add_right_comm]
  | opens inner ih | shuts inner ih =>
    rw [List.cons_append, regexLength?_cons (by decide), ih]
    simp [Nat.add_right_comm]
  | @plain inClass c more visible slash inner ih =>
    rw [List.cons_append]
    simp only [List.mem_cons, List.not_mem_nil, or_false, not_or] at visible
    obtain ⟨escape, newline, opening, closing⟩ := visible
    have goes : ¬ (c = '/' ∧ !inClass) := by
      rintro ⟨same, outside⟩
      rw [slash same] at outside
      cases outside
    rw [regexLength?_cons escape, if_neg newline, if_neg opening, if_neg closing, if_neg goes, ih]
    simp [Nat.add_right_comm]

theorem exists_of_regexLength? {inClass : Bool} {s : List Char} {n : Nat}
    (h : regexLength? inClass s = some n) :
    ∃ body flags rest, s = body ++ (flags ++ rest) ∧ n = body.length + flags.length ∧
      RegexRest inClass body ∧ Run Char.isAlpha flags rest := by
  fun_induction regexLength? inClass s generalizing n with
  | case1 => cases h
  | case2 inClass d rest ih =>
    obtain ⟨m, found, rfl⟩ := Option.map_eq_some_iff.mp h
    obtain ⟨body, flags, behind, rfl, rfl, inner, run⟩ := ih found
    exact ⟨_, flags, behind, rfl, by simp [Nat.add_right_comm], .hidden inner, run⟩
  | case3 => cases h
  | case4 inClass rest _ _ ih =>
    obtain ⟨m, found, rfl⟩ := Option.map_eq_some_iff.mp h
    obtain ⟨body, flags, behind, rfl, rfl, inner, run⟩ := ih found
    exact ⟨_, flags, behind, rfl, by simp [Nat.add_right_comm], .opens inner, run⟩
  | case5 inClass rest _ _ _ ih =>
    obtain ⟨m, found, rfl⟩ := Option.map_eq_some_iff.mp h
    obtain ⟨body, flags, behind, rfl, rfl, inner, run⟩ := ih found
    exact ⟨_, flags, behind, rfl, by simp [Nat.add_right_comm], .shuts inner, run⟩
  | case6 inClass c rest visible newline opening closing slash =>
    cases h
    obtain ⟨rfl, outside⟩ := slash
    rw [Bool.not_eq_true'] at outside
    subst outside
    refine ⟨['/'], _, _, ?_, Nat.add_comm _ 1, .close, run_takeWhile Char.isAlpha rest⟩
    rw [List.takeWhile_append_dropWhile, List.singleton_append]
  | case7 inClass c rest visible newline opening closing slash ih =>
    obtain ⟨m, found, rfl⟩ := Option.map_eq_some_iff.mp h
    obtain ⟨body, flags, behind, rfl, rfl, inner, run⟩ := ih found
    have escape : c ≠ '\\' := by
      rintro rfl
      cases inner <;> exact visible _ _ rfl rfl
    refine ⟨_, flags, behind, rfl, by simp [Nat.add_right_comm], .plain ?_ ?_ inner, run⟩
    · simp only [List.mem_cons, List.not_mem_nil, or_false, not_or]
      exact ⟨escape, newline, opening, closing⟩
    · intro same
      cases inClass with
      | true => rfl
      | false => exact absurd ⟨same, rfl⟩ slash

/-- A regular expression ends if and only if a closing slash is to come. -/
theorem regexLength?_eq_none {inClass : Bool} {s : List Char} :
    regexLength? inClass s = none ↔ ∀ body, RegexRest inClass body → ¬ body <+: s := by
  constructor
  · rintro never body inner ⟨rest, rfl⟩
    have read := regexLength?_of_rest inner (run_takeWhile Char.isAlpha rest)
    rw [List.takeWhile_append_dropWhile, never] at read
    cases read
  · intro never
    cases found : regexLength? inClass s with
    | none => rfl
    | some n =>
      obtain ⟨body, flags, rest, rfl, -, inner, -⟩ := exists_of_regexLength? found
      exact absurd (List.prefix_append body _) (never body inner)

end Mosaic.Script
