import Mosaic.Proofs.Bytewise.Script.Lexeme
import Mosaic.Proofs.Script.Cut

/-! A script read in bytes. The lexer, the groups that are open and the nodes of the innermost one
go on together; they end where the gathering of all lexemes ends. -/
namespace Mosaic.Bytewise.Script

open Mosaic.Script Outcome

/-- The open groups, the nodes of the innermost one, and whether an operand is expected. -/
structure State where
  stack : List Frame
  body : List Node
  operand : Bool

section Readers

variable (source : List Char)

def fail {α : Type} (cause : Cause) (pos : Nat) : Checked α :=
  Bytewise.fail .script (.ofText source .zero) cause pos

def leaf (state : State) (pos : Nat) (kind : LeafKind) (stop : Nat) :
    Checked (Step State Tree) := do
  let text ← slice source pos stop
  let lexeme : Lexeme := ⟨.leaf kind, text⟩
  return .go stop { state with
    body := .leaf kind (String.ofList text) :: state.body
    operand := lexeme.operandAfter state.operand }

def quoted (state : State) (pos : Nat) (quote : Char) : Checked (Step State Tree) := do
  let rest ← suffixAt source (pos + 1)
  match ← stringSize (quote ≠ '\x60') quote (encode rest) with
  | some size =>
    leaf source state pos (if quote = '\x60' then .template else .str) (pos + 1 + size)
  | none => fail source .unterminatedString pos

def slash (state : State) (pos : Nat) : Checked (Step State Tree) := do
  let rest ← suffixAt source (pos + 1)
  match rest with
  | '/' :: _ =>
    leaf source state pos .comment (pos + 1 + (find ['\n'] rest).getD (Text.bytes rest))
  | '*' :: body =>
    match find ['*', '/'] body with
    | some close => leaf source state pos .comment (pos + 1 + (1 + close + 2))
    | none => fail source .unclosedComment pos
  | _ =>
    if state.operand then
      match ← regexSize (encode rest) with
      | some size => leaf source state pos .regex (pos + 1 + size)
      | none => fail source .unterminatedRegex pos
    else leaf source state pos .punct (pos + 1)

def closeGroup (state : State) (pos : Nat) (bracket : Char) : Checked (Step State Tree) :=
  match state.stack with
  | [] => fail source (.unexpectedCloser bracket) pos
  | frame :: outer =>
    if closerOf frame.opener = bracket then
      .ok (.go (pos + 1)
        ⟨outer, .group frame.opener state.body.reverse bracket :: frame.before, false⟩)
    else fail source (.mismatchedCloser frame.opener bracket) pos

def parseRound (state : State) (pos : Nat) : Checked (Step State Tree) := do
  match ← suffixAt source pos with
  | [] => .error (.trap .badIndex)
  | c :: rest =>
    if Text.isBlank c then
      leaf source state pos .whitespace (pos + Text.bytes (c :: rest.takeWhile Text.isBlank))
    else if isIdentStart c then
      leaf source state pos .ident (pos + Text.bytes (c :: rest.takeWhile isIdentPart))
    else if c.isDigit then
      leaf source state pos .number (pos + Text.bytes (c :: rest.takeWhile isNumberPart))
    else if isQuote c then quoted source state pos c
    else if c = '/' then slash source state pos
    else if isOpener c then
      return .go (pos + 1) ⟨⟨c, pos, state.body⟩ :: state.stack, [], true⟩
    else if isCloser c then closeGroup source state pos c
    else if Text.isNumeral c then fail source (.unexpectedInput c) pos
    else leaf source state pos .punct (pos + c.utf8Size)

def finish (state : State) (_ : Nat) : Checked Tree :=
  match state.stack with
  | frame :: _ => fail source (.unclosedOpener frame.opener) frame.offset
  | [] => .ok ⟨state.body.reverse⟩

end Readers

/-- The tree of a script. -/
def parse (source : String) : Checked Tree :=
  loop (Text.bytes source.toList) (parseRound source.toList) (finish source.toList)
    ⟨[], [], true⟩ 0

def told (source : List Char) (fault : Fault) : Stop :=
  .failure (fault.locate .script (.ofText source .zero))

section Spec

variable {source : List Char} {pos : Nat} {c : Char} {rest : List Char}

theorem fail_eq {α : Type} (cause : Cause) (pos : Nat) :
    (fail source cause pos : Checked α) = .error (told source ⟨cause, pos⟩) :=
  Bytewise.fail_eq source .zero .script cause pos

/-- What a round does with what is cut out by characters. -/
def answer (source : List Char) (state : State) (pos : Nat) (c : Char) (rest : List Char) :
    Except Cause (Role × Nat) → Checked (Step State Tree)
  | .error cause => .error (told source ⟨cause, pos⟩)
  | .ok (.leaf kind, n) =>
    .ok (.go (pos + Text.bytes (c :: rest.take n)) { state with
      body := .leaf kind (String.ofList (c :: rest.take n)) :: state.body
      operand := Lexeme.operandAfter ⟨.leaf kind, c :: rest.take n⟩ state.operand })
  | .ok (.opener bracket, n) =>
    .ok (.go (pos + Text.bytes (c :: rest.take n))
      ⟨⟨bracket, pos, state.body⟩ :: state.stack, [], true⟩)
  | .ok (.closer bracket, n) =>
    match state.stack with
    | [] => .error (told source ⟨.unexpectedCloser bracket, pos⟩)
    | frame :: outer =>
      if closerOf frame.opener = bracket then
        .ok (.go (pos + Text.bytes (c :: rest.take n))
          ⟨outer, .group frame.opener state.body.reverse bracket :: frame.before, false⟩)
      else .error (told source ⟨.mismatchedCloser frame.opener bracket, pos⟩)

theorem leaf_eq (state : State) (kind : LeafKind) (n : Nat) (h : At source pos (c :: rest)) :
    leaf source state pos kind (pos + Text.bytes (c :: rest.take n)) =
      answer source state pos c rest (.ok (.leaf kind, n)) := by
  have text : slice source pos (pos + Text.bytes (c :: rest.take n)) = .ok (c :: rest.take n) :=
    h.slice_take (n + 1)
  rw [leaf, text]
  rfl

theorem sign_eq (state : State) (kind : LeafKind) (h : At source pos (c :: rest))
    (one : c.utf8Size = 1) :
    leaf source state pos kind (pos + 1) =
      answer source state pos c rest (.ok (.leaf kind, 0)) := by
  have size := leaf_eq state kind 0 h
  rwa [List.take_zero, Text.bytes_cons, one] at size

theorem stringLength?_eq {quote : Char} (plain : quote ≠ '\\') (s : List Char) :
    stringLength? quote s =
      (walkChars (quoteAct (quote ≠ '\x60') quote) () s).map (· + 1) := by
  apply eq_walkChars plain
  · rfl
  · have other : '\\' ≠ quote := fun same => plain same.symm
    rw [stringLength?, if_neg fun both => absurd both.1 (by decide), if_neg other]
    · rfl
    · rintro _ _ _ ⟨⟩
  · exact fun _ _ => rfl
  · intro c rest visible
    have line : (c = '\n' ∧ quote ≠ '\x60') =
        (decide (quote ≠ '\x60') = true ∧ c = '\n') := by
      rw [decide_eq_true_eq, And.comm]
    rw [stringLength?]
    · exact ite_congr line (fun _ => rfl) fun _ => rfl
    · intro d more escape
      exact absurd escape visible

theorem quoted_eq (state : State) (h : At source pos (c :: rest)) (quote : isQuote c = true) :
    quoted source state pos c =
      answer source state pos c rest
        (match stringLength? c rest with
        | some n => .ok (.leaf (if c = '\x60' then .template else .str), n)
        | none => .error .unterminatedString) := by
  have small : c.toNat ≤ 127 ∧ c ≠ '\\' := by
    rw [isQuote, Bool.or_eq_true, Bool.or_eq_true, beq_iff_eq, beq_iff_eq, beq_iff_eq] at quote
    obtain (rfl | rfl) | rfl := quote <;> decide
  have one : c.utf8Size = 1 := Char.utf8Size_eq_one_iff.mpr small.1
  have behind := h.next
  rw [one] at behind
  rw [quoted, behind.suffix, ok_bind, stringSize_eq _ small.1, ok_bind, stringLength?_eq small.2]
  cases walkChars (quoteAct (c ≠ '\x60') c) () rest with
  | none => exact fail_eq _ _
  | some n =>
    have stop : pos + 1 + Text.bytes (rest.take (n + 1)) =
        pos + Text.bytes (c :: rest.take (n + 1)) := by
      rw [Text.bytes_cons, one, Nat.add_assoc]
    dsimp only [Option.map_some]
    rw [stop]
    exact leaf_eq state _ (n + 1) h

theorem slash_suffix (h : At source pos ('/' :: rest)) :
    suffixAt source (pos + 1) = .ok rest := h.next.suffix

theorem slash_line (state : State) {more : List Char} (h : At source pos ('/' :: '/' :: more)) :
    slash source state pos =
      answer source state pos '/' ('/' :: more) (slashRole state.operand ('/' :: more)) := by
  have here : ('/' :: more).takeWhile (· ≠ '\n') = '/' :: more.takeWhile (· ≠ '\n') :=
    List.takeWhile_cons_of_pos (by decide)
  have stop : pos + 1 + (find ['\n'] ('/' :: more)).getD (Text.bytes ('/' :: more)) =
      pos + Text.bytes ('/' :: ('/' :: more).take
        ((more.takeWhile (· ≠ '\n')).length + 1)) := by
    rw [getD_find, here, List.take_succ_cons, Text.take_length_takeWhile, Nat.add_assoc]
    rfl
  rw [slash, slash_suffix h, ok_bind, slashRole]
  change leaf source state pos .comment
    (pos + 1 + (find ['\n'] ('/' :: more)).getD (Text.bytes ('/' :: more))) = _
  rw [stop]
  exact leaf_eq state .comment _ h

theorem slash_block (state : State) {body : List Char} (h : At source pos ('/' :: '*' :: body)) :
    slash source state pos =
      answer source state pos '/' ('*' :: body) (slashRole state.operand ('*' :: body)) := by
  rw [slash, slash_suffix h, ok_bind, slashRole]
  change (match find ['*', '/'] body with
    | some close => leaf source state pos .comment (pos + 1 + (1 + close + 2))
    | none => fail source .unclosedComment pos) = _
  obtain ⟨unfound, unclosed⟩ | ⟨close, n, found, closed, size⟩ := find_comment body
  · rw [unfound, unclosed]
    exact fail_eq _ _
  · rw [found, closed]
    dsimp only
    rw [Nat.add_assoc, size]
    exact leaf_eq state .comment (n + 1) h

theorem slash_plain (state : State) (h : At source pos ('/' :: rest)) (plain : NoComment rest) :
    slash source state pos =
      answer source state pos '/' rest (slashRole state.operand rest) := by
  rw [slash, slash_suffix h, ok_bind, slashRole_plain plain]
  split
  next more => exact absurd rfl plain.1
  next body => exact absurd rfl plain.2
  next =>
    by_cases operand : state.operand = true
    · rw [if_pos operand, if_pos operand, regexSize_eq, ok_bind]
      cases regexLength? false rest with
      | none => exact fail_eq _ _
      | some n =>
        have stop : pos + 1 + Text.bytes (rest.take n) =
            pos + Text.bytes ('/' :: rest.take n) := Nat.add_assoc pos 1 _
        dsimp only [Option.map_some]
        rw [stop]
        exact leaf_eq state .regex n h
    · rw [if_neg operand, if_neg operand]
      exact sign_eq state .punct h rfl

theorem slash_eq (state : State) (h : At source pos ('/' :: rest)) :
    slash source state pos =
      answer source state pos '/' rest (slashRole state.operand rest) := by
  by_cases line : rest.head? = some '/'
  · obtain ⟨more, rfl⟩ := List.head?_eq_some_iff.mp line
    exact slash_line state h
  · by_cases block : rest.head? = some '*'
    · obtain ⟨body, rfl⟩ := List.head?_eq_some_iff.mp block
      exact slash_block state h
    · exact slash_plain state h ⟨line, block⟩

theorem closeGroup_eq (state : State) (bracket : Char) (one : c.utf8Size = 1) :
    closeGroup source state pos bracket =
      answer source state pos c rest (.ok (.closer bracket, 0)) := by
  rw [closeGroup, answer, List.take_zero, Text.bytes_cons, one]
  cases state.stack with
  | nil => exact fail_eq _ _
  | cons frame outer =>
    dsimp only
    by_cases same : closerOf frame.opener = bracket
    · rw [if_pos same, if_pos same]
      rfl
    · rw [if_neg same, if_neg same]
      exact fail_eq _ _

theorem utf8Size_opener {c : Char} (h : isOpener c = true) : c.utf8Size = 1 := by
  rw [isOpener, Bool.or_eq_true, Bool.or_eq_true, beq_iff_eq, beq_iff_eq, beq_iff_eq] at h
  obtain (rfl | rfl) | rfl := h <;> decide

theorem utf8Size_closer {c : Char} (h : isCloser c = true) : c.utf8Size = 1 := by
  rw [isCloser, Bool.or_eq_true, Bool.or_eq_true, beq_iff_eq, beq_iff_eq, beq_iff_eq] at h
  obtain (rfl | rfl) | rfl := h <;> decide

theorem span_eq (state : State) (kind : LeafKind) (p : Char → Bool)
    (h : At source pos (c :: rest)) :
    leaf source state pos kind (pos + Text.bytes (c :: rest.takeWhile p)) =
      answer source state pos c rest (.ok (.leaf kind, (rest.takeWhile p).length)) := by
  have size := leaf_eq state kind (rest.takeWhile p).length h
  rwa [Text.take_length_takeWhile] at size

theorem parseRound_eq (state : State) (h : At source pos (c :: rest)) :
    parseRound source state pos =
      answer source state pos c rest (roleAt state.operand c rest) := by
  rw [parseRound, h.suffix, ok_bind, roleAt]
  dsimp only
  by_cases blank : Text.isBlank c = true
  · rw [if_pos blank, if_pos blank]
    exact span_eq state .whitespace Text.isBlank h
  · rw [if_neg blank, if_neg blank]
    by_cases ident : isIdentStart c = true
    · rw [if_pos ident, if_pos ident]
      exact span_eq state .ident isIdentPart h
    · rw [if_neg ident, if_neg ident]
      by_cases digit : c.isDigit = true
      · rw [if_pos digit, if_pos digit]
        exact span_eq state .number isNumberPart h
      · rw [if_neg digit, if_neg digit]
        by_cases quote : isQuote c = true
        · rw [if_pos quote, if_pos quote]
          exact quoted_eq state h quote
        · rw [if_neg quote, if_neg quote]
          by_cases isSlash : c = '/'
          · subst isSlash
            rw [if_pos rfl, if_pos rfl]
            exact slash_eq state h
          · rw [if_neg isSlash, if_neg isSlash]
            by_cases opener : isOpener c = true
            · rw [if_pos opener, if_pos opener, answer, List.take_zero, Text.bytes_cons,
                utf8Size_opener opener]
              rfl
            · rw [if_neg opener, if_neg opener]
              by_cases closer : isCloser c = true
              · rw [if_pos closer, if_pos closer]
                exact closeGroup_eq state c (utf8Size_closer closer)
              · rw [if_neg closer, if_neg closer]
                by_cases numeral : Text.isNumeral c = true
                · rw [if_pos numeral, if_pos numeral]
                  exact fail_eq _ _
                · rw [if_neg numeral, if_neg numeral]
                  exact leaf_eq state .punct 0 h

/-- Lexemes are gathered into groups while they are read. -/
theorem loop_parse {s : List Char} (stack : List Frame) (body : List Node) (operand : Bool)
    (h : At source pos s) :
    loop (Text.bytes source) (parseRound source) (finish source) ⟨stack, body, operand⟩ pos =
      (nest (lexemes operand s).2 pos stack body (lexemes operand s).1).mapError
        (told source) := by
  fun_induction lexemes operand s generalizing pos stack body with
  | case1 operand =>
    rw [loop_finish (Nat.le_of_eq h.stop.symm)]
    cases stack with
    | nil => rfl
    | cons frame outer => exact fail_eq _ _
  | case2 operand c rest cause role =>
    apply loop_stop h.lt
    rw [parseRound_eq _ h, role]
    rfl
  | case3 operand c rest role n cut _ more cause later =>
    rename_i ih
    have round := parseRound_eq ⟨stack, body, operand⟩ h
    rw [cut] at round
    have some : 0 < Text.bytes (c :: rest.take n) := Text.bytes_pos (List.cons_ne_nil _ _)
    have forward := Nat.lt_add_of_pos_right (n := pos) some
    have at_ : At source (pos + Text.bytes (c :: rest.take n)) (rest.drop n) := h.drop (n + 1)
    rw [later] at ih
    cases role with
    | leaf kind =>
      rw [loop_go h.lt round forward]
      exact ih _ _ at_
    | opener bracket =>
      rw [loop_go h.lt round forward]
      exact ih _ _ at_
    | closer bracket =>
      rw [answer] at round
      unfold nest
      cases stack with
      | nil => exact loop_stop h.lt round
      | cons frame outer =>
        dsimp only at round ⊢
        by_cases same : closerOf frame.opener = bracket
        · rw [if_pos same] at round ⊢
          rw [loop_go h.lt round forward]
          exact ih _ _ at_
        · rw [if_neg same] at round ⊢
          exact loop_stop h.lt round

end Spec

/-- A script is read by bytes as it is read by characters: nothing is ever trapped. -/
theorem parse_eq (source : String) :
    parse source = (Mosaic.Script.parse source).mapError .failure := by
  rw [parse, loop_parse [] [] true (At.start source.toList), Mosaic.Script.parse,
    Mosaic.Script.read]
  obtain ⟨found, ending⟩ := lexemes true source.toList
  dsimp only
  cases nest ending 0 [] [] found <;> rfl

end Mosaic.Bytewise.Script
