import Mosaic.Failure
import Mosaic.Proofs.Text

/-! Reading by byte offsets. A cursor is a number of bytes; a text may only be cut where a
character ends, a difference may not fall below zero, and a loop has to move its cursor on. What
breaks one of these rules is trapped, so a program that is never trapped keeps all of them. -/
namespace Mosaic.Bytewise

/-- What must never happen. -/
inductive Trap where
  /-- An index behind the end, or inside of a character where a text is cut. -/
  | badIndex
  /-- A difference below zero. -/
  | underflow
  /-- A loop that does not move its cursor on. -/
  | standstill
deriving DecidableEq

/-- What stops a program before its end: a trap, or a failure that it tells of a document. -/
inductive Stop where
  | trap (trap : Trap)
  | failure (error : BackendError)
deriving DecidableEq

abbrev Checked (α : Type) := Except Stop α

def minus (a b : Nat) : Checked Nat :=
  if b ≤ a then .ok (a - b) else .error (.trap .underflow)

def item {α : Type} (items : List α) (index : Nat) : Checked α :=
  match items[index]? with
  | some found => .ok found
  | none => .error (.trap .badIndex)

/-- The number of characters in the first `count` bytes, if a character ends there. -/
def charsIn? : List Char → Nat → Option Nat
  | _, 0 => some 0
  | [], _ + 1 => none
  | c :: rest, count + 1 =>
    if c.utf8Size ≤ count + 1 then (charsIn? rest (count + 1 - c.utf8Size)).map (· + 1) else none

/-- The text from byte `start` on. -/
def suffixAt (text : List Char) (start : Nat) : Checked (List Char) :=
  match charsIn? text start with
  | some n => .ok (text.drop n)
  | none => .error (.trap .badIndex)

def prefixAt (text : List Char) (stop : Nat) : Checked (List Char) :=
  match charsIn? text stop with
  | some n => .ok (text.take n)
  | none => .error (.trap .badIndex)

/-- The text from byte `start` to before byte `stop`. -/
def slice (text : List Char) (start stop : Nat) : Checked (List Char) := do
  let rest ← suffixAt text start
  if start ≤ stop then prefixAt rest (stop - start) else .error (.trap .badIndex)

def find (word text : List Char) : Option Nat :=
  (Text.indexOf? word text).map fun n => Text.bytes (text.take n)

def firstSize : List Char → Nat
  | [] => 1
  | c :: _ => c.utf8Size

/-- What a round of a loop leads to: the next round with its cursor, or a result. -/
inductive Step (σ α : Type) where
  | go (next : Nat) (state : σ)
  | done (result : α)

/-- Repeat a round while the cursor is before byte `size`. -/
def loop {σ α : Type} (size : Nat) (round : σ → Nat → Checked (Step σ α))
    (finish : σ → Nat → Checked α) (state : σ) (pos : Nat) : Checked α :=
  if pos < size then
    match round state pos with
    | .error stop => .error stop
    | .ok (.done result) => .ok result
    | .ok (.go next state) =>
      if pos < next then loop size round finish state next else .error (.trap .standstill)
  else finish state pos
termination_by size - pos

section Loop

variable {σ α : Type} {size : Nat} {round : σ → Nat → Checked (Step σ α)}
  {finish : σ → Nat → Checked α} {state next : σ} {pos target : Nat}

theorem loop_finish (h : size ≤ pos) :
    loop size round finish state pos = finish state pos := by
  rw [loop, if_neg (Nat.not_lt.mpr h)]

theorem loop_done {result : α} (h : pos < size)
    (done : round state pos = .ok (.done result)) :
    loop size round finish state pos = .ok result := by
  rw [loop, if_pos h, done]

theorem loop_go (h : pos < size) (go : round state pos = .ok (.go target next))
    (forward : pos < target) :
    loop size round finish state pos = loop size round finish next target := by
  rw [loop, if_pos h, go]
  exact if_pos forward

theorem loop_stop {stop : Stop} (h : pos < size) (stops : round state pos = .error stop) :
    loop size round finish state pos = .error stop := by
  rw [loop, if_pos h, stops]

end Loop

theorem minus_add (a b : Nat) : minus (a + b) b = .ok a := by
  rw [minus, if_pos (Nat.le_add_left b a), Nat.add_sub_cancel]

theorem charsIn?_bytes (before after : List Char) :
    charsIn? (before ++ after) (Text.bytes before) = some before.length := by
  induction before with
  | nil => cases after <;> rfl
  | cons c rest ih =>
    have pos := c.utf8Size_pos
    obtain ⟨count, hcount⟩ : ∃ count, c.utf8Size + Text.bytes rest = count + 1 :=
      ⟨c.utf8Size + Text.bytes rest - 1, by omega⟩
    have left : count + 1 - c.utf8Size = Text.bytes rest := by omega
    rw [List.cons_append, Text.bytes_cons, hcount, charsIn?, if_pos (by omega), left, ih]
    rfl

theorem suffixAt_bytes (before after : List Char) :
    suffixAt (before ++ after) (Text.bytes before) = .ok after := by
  rw [suffixAt, charsIn?_bytes]
  exact congrArg Except.ok List.drop_left

theorem prefixAt_bytes (before after : List Char) :
    prefixAt (before ++ after) (Text.bytes before) = .ok before := by
  rw [prefixAt, charsIn?_bytes]
  exact congrArg Except.ok List.take_left

theorem charsIn?_eq_some {text : List Char} {count n : Nat} (h : charsIn? text count = some n) :
    count = Text.bytes (text.take n) := by
  induction text generalizing count n with
  | nil =>
    cases count with
    | zero => cases h; rfl
    | succ => cases h
  | cons c rest ih =>
    cases count with
    | zero => cases h; rfl
    | succ count =>
      rw [charsIn?] at h
      split at h
      next fits =>
        obtain ⟨m, inside, rfl⟩ := Option.map_eq_some_iff.mp h
        have left := ih inside
        rw [List.take_succ_cons, Text.bytes_cons]
        omega
      next => cases h

theorem slice_bytes (before middle after : List Char) :
    slice (before ++ (middle ++ after)) (Text.bytes before)
      (Text.bytes before + Text.bytes middle) = .ok middle := by
  rw [slice, suffixAt_bytes]
  have ahead : Text.bytes before ≤ Text.bytes before + Text.bytes middle := Nat.le_add_right _ _
  change (if _ then prefixAt _ _ else _) = _
  rw [if_pos ahead, Nat.add_sub_cancel_left, prefixAt_bytes]

theorem find_add (word text : List Char) :
    (find word text).map (· + Text.bytes word) =
      (Text.endOf? word text).map fun n => Text.bytes (text.take n) := by
  rw [find, Text.endOf?, Option.map_map, Option.map_map]
  cases h : Text.indexOf? word text with
  | none => rfl
  | some n =>
    have opens := Text.take_of_prefix (Text.isPrefixOf_of_indexOf? h)
    change some (_ + _) = some (Text.bytes (text.take (n + word.length)))
    rw [List.take_add, Text.bytes_append, opens]

/-- A comment that begins with a slash and a star ends by bytes where it ends by characters. -/
theorem find_comment (body : List Char) :
    (find ['*', '/'] body = none ∧ Text.endOf? ['*', '/'] body = none) ∨
      ∃ close n, find ['*', '/'] body = some close ∧ Text.endOf? ['*', '/'] body = some n ∧
        1 + (1 + close + 2) = Text.bytes ('/' :: ('*' :: body).take (n + 1)) := by
  have signs : '/'.utf8Size = 1 ∧ '*'.utf8Size = 1 := by decide
  have word : Text.bytes ['*', '/'] = 2 := by decide
  have found := find_add ['*', '/'] body
  rw [word] at found
  cases hfind : find ['*', '/'] body with
  | none =>
    rw [hfind] at found
    exact .inl ⟨rfl, Option.map_eq_none_iff.mp found.symm⟩
  | some close =>
    rw [hfind] at found
    obtain ⟨n, hn, closed⟩ := Option.map_eq_some_iff.mp found.symm
    refine .inr ⟨close, n, rfl, hn, ?_⟩
    rw [List.take_succ_cons, Text.bytes_cons, Text.bytes_cons, closed, signs.1, signs.2,
      Nat.add_assoc]

/-- The bytes up to the first occurrence of a character, or up to the end. -/
theorem getD_find (c : Char) (s : List Char) :
    (find [c] s).getD (Text.bytes s) = Text.bytes (s.takeWhile (· ≠ c)) := by
  induction s with
  | nil => rfl
  | cons d rest ih =>
    rw [find, Text.indexOf?]
    by_cases same : d = c
    · have here : [c].isPrefixOf (d :: rest) = true := by
        rw [same, List.isPrefixOf, beq_self_eq_true]
        rfl
      have stops : ¬ decide (d ≠ c) = true := fun other => of_decide_eq_true other same
      rw [if_pos here, List.takeWhile_cons, if_neg stops]
      rfl
    · have notHere : ¬ [c].isPrefixOf (d :: rest) = true := by
        rw [List.isPrefixOf, Bool.and_eq_true, beq_iff_eq]
        exact fun both => same both.1.symm
      rw [if_neg notHere, List.takeWhile_cons, if_pos (decide_eq_true same), Text.bytes_cons,
        Text.bytes_cons, ← ih, find]
      cases Text.indexOf? [c] rest <;> rfl

/-- What stands in a text from byte `pos` on. -/
def At (text : List Char) (pos : Nat) (rest : List Char) : Prop :=
  ∃ before, text = before ++ rest ∧ pos = Text.bytes before

theorem At.start (text : List Char) : At text 0 text := ⟨[], rfl, rfl⟩

namespace At

variable {text rest first more : List Char} {pos : Nat} {c : Char}

theorem suffix (h : At text pos rest) : suffixAt text pos = .ok rest := by
  obtain ⟨before, rfl, rfl⟩ := h
  exact suffixAt_bytes before rest

theorem skip (h : At text pos (first ++ more)) : At text (pos + Text.bytes first) more := by
  obtain ⟨before, rfl, rfl⟩ := h
  exact ⟨before ++ first, by rw [List.append_assoc], by rw [Text.bytes_append]⟩

theorem next (h : At text pos (c :: rest)) : At text (pos + c.utf8Size) rest := by
  have skipped := (show At text pos ([c] ++ rest) from h).skip
  rwa [Text.bytes_cons, Text.bytes_nil, Nat.add_zero] at skipped

theorem drop (h : At text pos rest) (n : Nat) :
    At text (pos + Text.bytes (rest.take n)) (rest.drop n) := by
  apply skip
  rwa [List.take_append_drop]

theorem span (p : Char → Bool) (h : At text pos rest) :
    At text (pos + Text.bytes (rest.takeWhile p)) (rest.dropWhile p) := by
  apply skip
  rwa [List.takeWhile_append_dropWhile]

theorem slice (h : At text pos (first ++ more)) :
    Bytewise.slice text pos (pos + Text.bytes first) = .ok first := by
  obtain ⟨before, rfl, rfl⟩ := h
  exact slice_bytes before first more

theorem slice_take (h : At text pos rest) (n : Nat) :
    Bytewise.slice text pos (pos + Text.bytes (rest.take n)) = .ok (rest.take n) := by
  have whole : At text pos (rest.take n ++ rest.drop n) := by rwa [List.take_append_drop]
  exact whole.slice

theorem of_suffix (h : suffixAt text pos = .ok rest) : At text pos rest := by
  rw [suffixAt] at h
  split at h
  next n inside =>
    obtain rfl := Except.ok.inj h
    exact ⟨text.take n, (List.take_append_drop n text).symm, charsIn?_eq_some inside⟩
  next => cases h

theorem size (h : At text pos rest) : pos + Text.bytes rest = Text.bytes text := by
  obtain ⟨before, rfl, rfl⟩ := h
  rw [Text.bytes_append]

theorem lt (h : At text pos (c :: rest)) : pos < Text.bytes text := by
  have size := h.size
  have pos := c.utf8Size_pos
  rw [Text.bytes_cons] at size
  omega

theorem le (h : At text pos rest) : pos ≤ Text.bytes text := by
  rw [← h.size]
  exact Nat.le_add_right _ _

theorem stop (h : At text pos []) : pos = Text.bytes text := by
  rw [← h.size]
  rfl

end At

/-- A text may be cut at a byte where some of its characters end, and nowhere else. -/
theorem suffixAt_eq_ok {text rest : List Char} {pos : Nat} :
    suffixAt text pos = .ok rest ↔ At text pos rest := ⟨At.of_suffix, At.suffix⟩

example : suffixAt ['é', 'x'] 2 = .ok ['x'] ∧
    suffixAt ['é', 'x'] 1 = .error (.trap .badIndex) ∧
    suffixAt ['é', 'x'] 4 = .error (.trap .badIndex) := ⟨rfl, rfl, rfl⟩

end Mosaic.Bytewise
