import Mosaic.Proofs.Bytewise.Position
import Mosaic.Proofs.Bytewise.Template
import Mosaic.Proofs.Outcome
import Mosaic.Proofs.Style.Piece

/-! The lexemes of a style sheet as byte intervals. A lexer reads the text between two template
regions, and is moved on by hand over comments and strings; the intervals that it leaves behind
are those of the lexemes that are cut out by characters. -/
namespace Mosaic.Bytewise.Style

open Mosaic.Style Outcome

/-- A lexeme by its byte interval. -/
structure Cut where
  mark : Mark
  start : Nat
  stop : Nat
deriving DecidableEq

section Readers

variable (t : Template.Scanner) (origin : Origin) (source : List Char)

def fail {α : Type} (cause : Cause) (pos : Nat) : Checked α :=
  Bytewise.fail .style (.ofText source origin) cause pos

section Plain

variable (text : List Char) (offset : Nat)

def cut (cuts : List Cut) (pos : Nat) (mark : Mark) (stop : Nat) :
    Checked (Step (List Cut) (List Cut)) := do
  let _ ← suffixAt text stop
  return .go stop (cuts ++ [⟨mark, offset + pos, offset + stop⟩])

def slash (cuts : List Cut) (pos : Nat) : Checked (Step (List Cut) (List Cut)) := do
  match ← suffixAt text (pos + 1) with
  | '*' :: body =>
    match find ['*', '/'] body with
    | some close => cut text offset cuts pos .comment (pos + 1 + (1 + close + 2))
    | none => fail origin source .unclosedComment (offset + pos)
  | _ => cut text offset cuts pos .run (pos + 1)

def quoted (cuts : List Cut) (pos : Nat) (quote : Char) :
    Checked (Step (List Cut) (List Cut)) := do
  let rest ← suffixAt text (pos + 1)
  match ← stringSize true quote (encode rest) with
  | some size => cut text offset cuts pos .run (pos + 1 + size)
  | none => cut text offset cuts pos .run (pos + 1)

def plainRound (cuts : List Cut) (pos : Nat) : Checked (Step (List Cut) (List Cut)) := do
  match ← suffixAt text pos with
  | [] => .error (.trap .badIndex)
  | c :: rest =>
    if isSpace c then
      cut text offset cuts pos .blank (pos + Text.bytes (c :: rest.takeWhile isSpace))
    else if c = '\x7b' then cut text offset cuts pos .leftBrace (pos + 1)
    else if c = '\x7d' then cut text offset cuts pos .rightBrace (pos + 1)
    else if c = ':' then cut text offset cuts pos .colon (pos + 1)
    else if c = ';' then cut text offset cuts pos .semicolon (pos + 1)
    else if c = '/' then slash origin source text offset cuts pos
    else if isQuote c then quoted text offset cuts pos c
    else cut text offset cuts pos .run (pos + Text.bytes (c :: rest.takeWhile isWordPart))

def lexPlain (cuts : List Cut) : Checked (List Cut) :=
  loop (Text.bytes text) (plainRound origin source text offset) (fun cuts _ => .ok cuts) cuts 0

end Plain

def lexRound (cuts : List Cut) (pos : Nat) : Checked (Step (List Cut) (List Cut)) := do
  let rest ← suffixAt source pos
  if t.opens rest then
    match ← scan t rest with
    | some size => return .go (pos + size) (cuts ++ [⟨.template, pos, pos + size⟩])
    | none => fail origin source .unclosedTemplate pos
  else
    let stop := ((nextOpen t rest).map (pos + ·)).getD (Text.bytes source)
    let text ← slice source pos stop
    return .go stop (← lexPlain origin source text pos cuts)

def lex : Checked (List Cut) :=
  loop (Text.bytes source) (lexRound t origin source) (fun cuts _ => .ok cuts) [] 0

end Readers

/-- The byte intervals of lexemes, the first of which stands at byte `pos`. -/
def cutsFrom (pos : Nat) : List Lexeme → List Cut
  | [] => []
  | ⟨mark, text⟩ :: rest =>
    ⟨mark, pos, pos + Text.bytes text⟩ :: cutsFrom (pos + Text.bytes text) rest

def told (origin : Origin) (source : List Char) (fault : Fault) : Stop :=
  .failure (fault.locate .style (.ofText source origin))

section Plain

variable {origin : Origin} {source text : List Char} {offset pos : Nat} {c : Char}
  {rest : List Char}

theorem fail_eq {α : Type} (cause : Cause) (pos : Nat) :
    (fail origin source cause pos : Checked α) = .error (told origin source ⟨cause, pos⟩) :=
  Bytewise.fail_eq source origin .style cause pos

/-- What a round of the lexer does for what is cut out by characters. -/
def answer (origin : Origin) (source : List Char) (offset pos : Nat) (cuts : List Cut) (c : Char)
    (rest : List Char) : Except Cause (Mark × Nat) → Checked (Step (List Cut) (List Cut))
  | .error cause => .error (told origin source ⟨cause, offset + pos⟩)
  | .ok (mark, n) =>
    .ok (.go (pos + Text.bytes (c :: rest.take n))
      (cuts ++ [⟨mark, offset + pos, offset + pos + Text.bytes (c :: rest.take n)⟩]))

theorem cut_eq (cuts : List Cut) (mark : Mark) (n : Nat) (h : At text pos (c :: rest)) :
    cut text offset cuts pos mark (pos + Text.bytes (c :: rest.take n)) =
      answer origin source offset pos cuts c rest (.ok (mark, n)) := by
  have stop : At text (pos + Text.bytes (c :: rest.take n)) (rest.drop n) := h.drop (n + 1)
  rw [cut, stop.suffix, ok_bind, ← Nat.add_assoc]
  rfl

theorem sign_eq (cuts : List Cut) (mark : Mark) (h : At text pos (c :: rest))
    (one : c.utf8Size = 1) :
    cut text offset cuts pos mark (pos + 1) =
      answer origin source offset pos cuts c rest (.ok (mark, 0)) := by
  rw [← cut_eq cuts mark 0 h, List.take_zero, Text.bytes_cons, one]
  rfl

theorem span_eq (cuts : List Cut) (mark : Mark) (p : Char → Bool) (h : At text pos (c :: rest)) :
    cut text offset cuts pos mark (pos + Text.bytes (c :: rest.takeWhile p)) =
      answer origin source offset pos cuts c rest (.ok (mark, (rest.takeWhile p).length)) := by
  rw [← cut_eq cuts mark _ h, Text.take_length_takeWhile]

theorem stringLength?_eq {quote : Char} (plain : quote ≠ '\\') (s : List Char) :
    stringLength? quote s = (walkChars (quoteAct true quote) () s).map (· + 1) := by
  apply eq_walkChars plain
  · rfl
  · have other : '\\' ≠ quote := fun same => plain same.symm
    rw [stringLength?, if_neg (by decide), if_neg other]
    · rfl
    · exact fun _ _ _ same => nomatch same
  · exact fun _ _ => rfl
  · intro c rest visible
    have line : (c = '\n') = (true = true ∧ c = '\n') := by
      rw [eq_self, true_and]
    rw [stringLength?]
    · exact ite_congr line (fun _ => rfl) fun _ => rfl
    · intro d more escape
      exact absurd escape visible

theorem slash_eq (cuts : List Cut) (h : At text pos ('/' :: rest)) :
    slash origin source text offset cuts pos =
      answer origin source offset pos cuts '/' rest (slashMark rest) := by
  have one : '/'.utf8Size = 1 := by decide
  have behind := h.next
  rw [one] at behind
  rw [slash, behind.suffix, ok_bind]
  by_cases comment : ∃ body, rest = '*' :: body
  · obtain ⟨body, rfl⟩ := comment
    rw [slashMark]
    change (match find ['*', '/'] body with
      | some close => cut text offset cuts pos .comment (pos + 1 + (1 + close + 2))
      | none => fail origin source .unclosedComment (offset + pos)) = _
    obtain ⟨unfound, unclosed⟩ | ⟨close, n, found, closed, size⟩ := find_comment body
    · rw [unfound, unclosed]
      exact fail_eq _ _
    · rw [found, closed]
      dsimp only
      rw [Nat.add_assoc, size]
      exact cut_eq cuts .comment (n + 1) h
  · have sign : slashMark rest = .ok (.run, 0) := by
      rw [slashMark]
      intro body same
      exact comment ⟨body, same⟩
    rw [sign, ← sign_eq cuts .run h one]
    split
    next body => exact absurd ⟨body, rfl⟩ comment
    next => rfl

theorem quoted_eq (cuts : List Cut) (h : At text pos (c :: rest)) (quote : isQuote c = true) :
    quoted text offset cuts pos c =
      answer origin source offset pos cuts c rest
        (.ok (.run, (stringLength? c rest).getD 0)) := by
  have small : c.toNat ≤ 127 ∧ c ≠ '\\' := by
    rw [isQuote, Bool.or_eq_true, beq_iff_eq, beq_iff_eq] at quote
    obtain rfl | rfl := quote <;> decide
  have one : c.utf8Size = 1 := Char.utf8Size_eq_one_iff.mpr small.1
  have behind := h.next
  rw [one] at behind
  rw [quoted, behind.suffix, ok_bind, stringSize_eq true small.1, ok_bind,
    stringLength?_eq small.2]
  cases walkChars (quoteAct true c) () rest with
  | none => exact sign_eq cuts .run h one
  | some n =>
    have stop : pos + 1 + Text.bytes (rest.take (n + 1)) =
        pos + Text.bytes (c :: rest.take (n + 1)) := by
      rw [Text.bytes_cons, one, Nat.add_assoc]
    dsimp only [Option.map_some]
    rw [stop]
    exact cut_eq cuts .run (n + 1) h

theorem plainRound_eq (cuts : List Cut) (h : At text pos (c :: rest)) :
    plainRound origin source text offset cuts pos =
      answer origin source offset pos cuts c rest (markAt c rest) := by
  rw [plainRound, h.suffix, ok_bind, markAt]
  dsimp only
  by_cases blank : isSpace c = true
  · rw [if_pos blank, if_pos blank]
    exact span_eq cuts .blank isSpace h
  · rw [if_neg blank, if_neg blank]
    by_cases leftBrace : c = '\x7b'
    · rw [if_pos leftBrace, if_pos leftBrace]
      exact sign_eq cuts .leftBrace h (by rw [leftBrace]; decide)
    · rw [if_neg leftBrace, if_neg leftBrace]
      by_cases rightBrace : c = '\x7d'
      · rw [if_pos rightBrace, if_pos rightBrace]
        exact sign_eq cuts .rightBrace h (by rw [rightBrace]; decide)
      · rw [if_neg rightBrace, if_neg rightBrace]
        by_cases colon : c = ':'
        · rw [if_pos colon, if_pos colon]
          exact sign_eq cuts .colon h (by rw [colon]; decide)
        · rw [if_neg colon, if_neg colon]
          by_cases semicolon : c = ';'
          · rw [if_pos semicolon, if_pos semicolon]
            exact sign_eq cuts .semicolon h (by rw [semicolon]; decide)
          · rw [if_neg semicolon, if_neg semicolon]
            by_cases isSlash : c = '/'
            · subst isSlash
              rw [if_pos rfl, if_pos rfl]
              exact slash_eq cuts h
            · rw [if_neg isSlash, if_neg isSlash]
              by_cases quote : isQuote c = true
              · rw [if_pos quote, if_pos quote]
                exact quoted_eq cuts h quote
              · rw [if_neg quote, if_neg quote]
                exact span_eq cuts .run isWordPart h

end Plain

/-- What a lexer by bytes answers where lexemes are cut out by characters, from byte `pos` on. -/
def outcome (origin : Origin) (source : List Char) (cuts : List Cut) (pos : Nat) :
    List Lexeme × Option Cause → Checked (List Cut)
  | (found, none) => .ok (cuts ++ cutsFrom pos found)
  | (found, some cause) =>
    .error (told origin source ⟨cause, pos + Text.bytes (found.flatMap Lexeme.text)⟩)

section Lexer

variable {t : Template.Scanner} {origin : Origin} {source : List Char} {pos : Nat}

theorem outcome_cons (cuts : List Cut) (pos : Nat) (mark : Mark) (text : List Char)
    (found : List Lexeme) (cause : Option Cause) :
    outcome origin source cuts pos (⟨mark, text⟩ :: found, cause) =
      outcome origin source (cuts ++ [⟨mark, pos, pos + Text.bytes text⟩])
        (pos + Text.bytes text) (found, cause) := by
  cases cause with
  | none =>
    refine congrArg Except.ok ?_
    rw [List.append_assoc]
    rfl
  | some cause =>
    rw [outcome, outcome, List.flatMap_cons, Text.bytes_append, Nat.add_assoc]

theorem outcome_append (cuts : List Cut) (pos : Nat) (first found : List Lexeme)
    (cause : Option Cause) :
    outcome origin source cuts pos (first ++ found, cause) =
      outcome origin source (cuts ++ cutsFrom pos first)
        (pos + Text.bytes (first.flatMap Lexeme.text)) (found, cause) := by
  induction first generalizing cuts pos with
  | nil => rw [cutsFrom, List.append_nil]; rfl
  | cons lexeme first ih =>
    rw [List.cons_append, outcome_cons, ih, List.append_assoc, List.flatMap_cons,
      Text.bytes_append, Nat.add_assoc]
    rfl

theorem loop_plain {text s : List Char} {offset : Nat} (cuts : List Cut) (h : At text pos s) :
    loop (Text.bytes text) (plainRound origin source text offset) (fun cuts _ => .ok cuts) cuts
        pos = outcome origin source cuts (offset + pos) (plainLexemes s) := by
  fun_induction plainLexemes s generalizing pos cuts with
  | case1 =>
    rw [loop_finish (Nat.le_of_eq h.stop.symm)]
    exact congrArg Except.ok (List.append_nil cuts).symm
  | case2 c rest cause marked =>
    apply loop_stop h.lt
    rw [plainRound_eq cuts h, marked]
    rfl
  | case3 c rest mark n marked more cause later ih =>
    have go : plainRound origin source text offset cuts pos =
        .ok (.go (pos + Text.bytes (c :: rest.take n))
          (cuts ++ [⟨mark, offset + pos, offset + pos + Text.bytes (c :: rest.take n)⟩])) := by
      rw [plainRound_eq cuts h, marked]
      rfl
    have some : 0 < Text.bytes (c :: rest.take n) := Text.bytes_pos (List.cons_ne_nil _ _)
    have at_ : At text (pos + Text.bytes (c :: rest.take n)) (rest.drop n) := h.drop (n + 1)
    rw [loop_go h.lt go (Nat.lt_add_of_pos_right some), ih _ at_, later, outcome_cons,
      ← Nat.add_assoc]

theorem lexPlain_eq (text : List Char) (offset : Nat) (cuts : List Cut) :
    lexPlain origin source text offset cuts =
      outcome origin source cuts offset (plainLexemes text) :=
  loop_plain cuts (At.start text)

theorem plainStop_eq {c : Char} {rest : List Char} (h : At source pos (c :: rest))
    (closed : ¬ t.opens (c :: rest) = true) :
    ((nextOpen t (c :: rest)).map (pos + ·)).getD (Text.bytes source) =
      pos + Text.bytes (c :: rest.take ((t.nextOpen? rest).getD rest.length)) := by
  rw [nextOpen_eq, Template.Scanner.nextOpen?_cons closed]
  cases t.nextOpen? rest with
  | none =>
    change Text.bytes source = pos + Text.bytes (c :: rest.take rest.length)
    rw [List.take_length, h.size]
  | some n => rfl

theorem lexRound_plain {c : Char} {rest : List Char} (cuts : List Cut)
    (h : At source pos (c :: rest)) (closed : ¬ t.opens (c :: rest) = true) :
    lexRound t origin source cuts pos =
      ((outcome origin source cuts pos
        (plainLexemes (c :: rest.take ((t.nextOpen? rest).getD rest.length)))).map
          (.go (pos + Text.bytes (c :: rest.take ((t.nextOpen? rest).getD rest.length))))) := by
  rw [lexRound, h.suffix, ok_bind, if_neg closed, plainStop_eq h closed]
  have text : slice source pos
      (pos + Text.bytes (c :: rest.take ((t.nextOpen? rest).getD rest.length))) =
        .ok (c :: rest.take ((t.nextOpen? rest).getD rest.length)) :=
    h.slice_take ((t.nextOpen? rest).getD rest.length + 1)
  dsimp only
  rw [text, ok_bind, lexPlain_eq]
  cases outcome origin source cuts pos _ <;> rfl

theorem loop_lex {s : List Char} (cuts : List Cut) (h : At source pos s) :
    loop (Text.bytes source) (lexRound t origin source) (fun cuts _ => .ok cuts) cuts pos =
      outcome origin source cuts pos (lexemes t s) := by
  fun_induction lexemes t s generalizing pos cuts with
  | case1 =>
    rw [loop_finish (Nat.le_of_eq h.stop.symm)]
    exact congrArg Except.ok (List.append_nil cuts).symm
  | case2 c rest opens found =>
    have none := Option.map_eq_none_iff.mp found
    apply loop_stop h.lt
    rw [lexRound, h.suffix, ok_bind, if_pos opens, scan_eq opens, none]
    exact fail_eq _ _
  | case3 c rest opens n found more cause later ih =>
    obtain ⟨scanned, -⟩ := Template.Scanner.scanAfter_spec opens found
    have go : lexRound t origin source cuts pos =
        .ok (.go (pos + Text.bytes (c :: rest.take n))
          (cuts ++ [⟨.template, pos, pos + Text.bytes (c :: rest.take n)⟩])) := by
      rw [lexRound, h.suffix, ok_bind, if_pos opens, scan_eq opens, scanned]
      rfl
    have some : 0 < Text.bytes (c :: rest.take n) := Text.bytes_pos (List.cons_ne_nil _ _)
    have at_ : At source (pos + Text.bytes (c :: rest.take n)) (rest.drop n) := h.drop (n + 1)
    rw [loop_go h.lt go (Nat.lt_add_of_pos_right some), ih _ at_, later, outcome_cons]
  | case4 c rest closed n found cause =>
    rename_i plain
    apply loop_stop h.lt
    rw [lexRound_plain cuts h closed, plain]
    rfl
  | case5 c rest closed n found plain more cause later =>
    rename_i ih
    have text : Text.bytes (found.flatMap Lexeme.text) = Text.bytes (c :: rest.take n) :=
      congrArg Text.bytes (plainLexemes_text plain)
    have go : lexRound t origin source cuts pos =
        .ok (.go (pos + Text.bytes (c :: rest.take n)) (cuts ++ cutsFrom pos found)) := by
      rw [lexRound_plain cuts h closed, plain]
      rfl
    have some : 0 < Text.bytes (c :: rest.take n) := Text.bytes_pos (List.cons_ne_nil _ _)
    have at_ : At source (pos + Text.bytes (c :: rest.take n)) (rest.drop n) := h.drop (n + 1)
    rw [loop_go h.lt go (Nat.lt_add_of_pos_right some), ih _ at_, later, outcome_append, text]

theorem lex_eq (t : Template.Scanner) (origin : Origin) (source : List Char) :
    lex t origin source = outcome origin source [] 0 (lexemes t source) :=
  loop_lex [] (At.start source)

end Lexer

end Mosaic.Bytewise.Style
