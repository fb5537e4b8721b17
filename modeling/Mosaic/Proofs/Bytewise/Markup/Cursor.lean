import Mosaic.Proofs.Bytewise.Position
import Mosaic.Proofs.Bytewise.Template
import Mosaic.Proofs.Markup.Piece

/-! Markup read with a cursor in bytes: where its parts end. Each reader of a part is met by the
reader that counts the characters of the rest of the document. -/
namespace Mosaic.Bytewise.Markup

open Mosaic.Markup

section Readers

variable (t : Template.Scanner) (origin : Origin) (source : List Char)

def fail {α : Type} (cause : Cause) (pos : Nat) : Checked α :=
  Bytewise.fail .markup (.ofText source origin) cause pos

def templateEnd (pos : Nat) : Checked Nat := do
  let rest ← suffixAt source pos
  match ← scan t rest with
  | some size => return pos + size
  | none => fail origin source .unclosedTemplate pos

def findAfter (cursor start : Nat) (word : List Char) (cause : Cause) : Checked Nat := do
  let rest ← suffixAt source start
  match find word rest with
  | some i => return start + i + Text.bytes word
  | none => fail origin source cause cursor

def nameEnd (start : Nat) : Checked Nat := walk (endsName t) source start

def blanksEnd (start : Nat) : Checked Nat := do
  let rest ← suffixAt source start
  let size ← minus (Text.bytes rest) (Text.bytes (Text.trimStart rest))
  return start + size

/-- The lesser one of two places, if there are any. -/
def sooner : Option Nat → Option Nat → Option Nat
  | some i, some j => some (min i j)
  | some i, none => some i
  | none, some j => some j
  | none, none => none

def textRound (start : Nat) (_ : Unit) (pos : Nat) : Checked (Step Unit Nat) := do
  let rest ← suffixAt source pos
  match sooner (find ['<'] rest) (nextOpen t rest) with
  | none => return .done (Text.bytes source)
  | some next =>
    let candidate ← suffixAt rest next
    if start < next + pos ∧ opensConstruct t candidate then return .done (pos + next)
    else
      -- A bracket that opens nothing takes one byte.
      return .go (pos + next + 1) ()

/-- The end of the text from byte `start` on. -/
def textEnd (start : Nat) : Checked Nat :=
  loop (Text.bytes source + 1) (textRound t source start) (fun _ _ => .error (.trap .badIndex)) ()
    start

def valueRound (ends : Char → Bool) (_ : Unit) (pos : Nat) : Checked (Step Unit Nat) := do
  let rest ← suffixAt source pos
  if t.opens rest then return .go (← templateEnd t origin source pos) ()
  else if rest.head?.any ends then return .done pos
  else return .go (pos + firstSize rest) ()

/-- The end of a value that begins at byte `start`: the first character outside of template regions
that ends it. -/
def valueEnd (ends : Char → Bool) (finish : Nat → Checked Nat) (start : Nat) : Checked Nat :=
  loop (Text.bytes source) (valueRound t origin source ends) (fun _ pos => finish pos) () start

/-- The place of the closing quote, where the first byte behind the opening one is `start`. -/
def quotedEnd (quote : Char) (start : Nat) : Checked Nat :=
  valueEnd t origin source (· == quote)
    (fun _ => do fail origin source .unclosedValue (← minus start 1)) start

def unquotedEnd (start : Nat) : Checked Nat :=
  valueEnd t origin source (fun c => Text.isBlank c || c == '>') .ok start

end Readers

def told (origin : Origin) (source : List Char) (halt : Halt) : Stop :=
  .failure ((halt.fault source).locate .markup (.ofText source origin))

section Spec

variable {t : Template.Scanner} {origin : Origin} {source : List Char} {pos : Nat}
  {c : Char} {rest : List Char}

theorem fail_eq {α : Type} (cause : Cause) (h : At source pos rest) :
    (fail origin source cause pos : Checked α) = .error (told origin source ⟨cause, rest⟩) := by
  have offset : Text.bytes source - Text.bytes rest = pos := by
    rw [← h.size, Nat.add_sub_cancel]
  rw [fail, Bytewise.fail_eq, told, Halt.fault, offset]

theorem templateEnd_eq (origin : Origin) (h : At source pos (c :: rest))
    (opens : t.opens (c :: rest) = true) :
    templateEnd t origin source pos =
      match t.scanAfter c rest with
      | none => .error (told origin source ⟨.unclosedTemplate, c :: rest⟩)
      | some n => .ok (pos + Text.bytes (c :: rest.take n)) := by
  rw [templateEnd, h.suffix]
  change (scan t (c :: rest) >>= fun _ => _) = _
  rw [scan_eq opens]
  cases found : t.scanAfter c rest with
  | none =>
    have none := Option.map_eq_none_iff.mp found
    rw [none]
    exact fail_eq _ h
  | some n =>
    rw [(Template.Scanner.scanAfter_spec opens found).1]
    rfl

theorem findAfter_eq {cursor : Nat} {behind : List Char} (word : List Char) (cause : Cause)
    (h : At source pos rest) (blame : At source cursor behind) :
    findAfter origin source cursor pos word cause =
      match Text.endOf? word rest with
      | none => .error (told origin source ⟨cause, behind⟩)
      | some n => .ok (pos + Text.bytes (rest.take n)) := by
  have found := find_add word rest
  rw [findAfter, h.suffix]
  change (match find word rest with
    | some i => Except.ok (pos + i + Text.bytes word)
    | none => fail origin source cause cursor) = _
  cases hfind : find word rest with
  | none =>
    rw [hfind] at found
    rw [Option.map_eq_none_iff.mp found.symm]
    exact fail_eq _ blame
  | some i =>
    rw [hfind] at found
    obtain ⟨n, hn, same⟩ := Option.map_eq_some_iff.mp found.symm
    rw [hn]
    exact congrArg Except.ok (by rw [same, Nat.add_assoc])

theorem lengthUntil_endsName (s : List Char) : lengthUntil (endsName t) s = nameLength t s := by
  induction s with
  | nil => rfl
  | cons c rest ih => rw [lengthUntil, nameLength, ih]

theorem nameEnd_eq (h : At source pos rest) :
    nameEnd t source pos = .ok (pos + Text.bytes (rest.take (nameLength t rest))) := by
  rw [nameEnd, walk_eq _ h, lengthUntil_endsName]

theorem blanksEnd_eq (h : At source pos rest) :
    blanksEnd source pos = .ok (pos + Text.bytes (rest.takeWhile Text.isBlank)) := by
  have split : Text.bytes rest =
      Text.bytes (rest.takeWhile Text.isBlank) + Text.bytes (Text.trimStart rest) := by
    rw [← Text.bytes_append, Text.trimStart, List.takeWhile_append_dropWhile]
  rw [blanksEnd, h.suffix]
  change (minus _ _ >>= fun _ => _) = _
  rw [split, minus_add]
  rfl

end Spec

/-- The number of characters before the one that ends a value, where the first `skip` ones belong
to a template region; `last` is the answer at the end of the text. -/
def valueLength (t : Template.Scanner) (ends : Char → Bool) (last : Except Halt Nat) :
    (skip : Nat) → List Char → Except Halt Nat
  | _, [] => last
  | skip + 1, _ :: rest => (valueLength t ends last skip rest).map (· + 1)
  | 0, c :: rest =>
    if t.opens (c :: rest) then
      match t.scanAfter c rest with
      | none => .error ⟨.unclosedTemplate, c :: rest⟩
      | some n => (valueLength t ends last n rest).map (· + 1)
    else if ends c then .ok 0
    else (valueLength t ends last 0 rest).map (· + 1)

section Value

variable {t : Template.Scanner} {origin : Origin} {source : List Char} {ends : Char → Bool}
  {last : Except Halt Nat}

theorem valueLength_skip {skip : Nat} {rest : List Char} (h : skip ≤ rest.length) :
    valueLength t ends last skip rest =
      (valueLength t ends last 0 (rest.drop skip)).map (· + skip) := by
  induction skip generalizing rest with
  | zero =>
    rw [List.drop_zero]
    cases valueLength t ends last 0 rest <;> rfl
  | succ skip ih =>
    cases rest with
    | nil => cases h
    | cons c rest =>
      rw [valueLength, ih (Nat.le_of_succ_le_succ h), List.drop_succ_cons, Outcome.map_map]
      rfl

theorem eq_valueLength {length : Nat → List Char → Except Halt Nat}
    (nil : ∀ skip, length skip [] = last)
    (skips : ∀ skip c rest, length (skip + 1) (c :: rest) = (length skip rest).map (· + 1))
    (reads : ∀ c rest, length 0 (c :: rest) =
      if t.opens (c :: rest) then
        match t.scanAfter c rest with
        | none => .error ⟨.unclosedTemplate, c :: rest⟩
        | some n => (length n rest).map (· + 1)
      else if ends c then .ok 0
      else (length 0 rest).map (· + 1)) (skip : Nat) (s : List Char) :
    length skip s = valueLength t ends last skip s := by
  induction s generalizing skip with
  | nil =>
    rw [nil]
    cases skip <;> rfl
  | cons c rest ih =>
    cases skip with
    | zero =>
      simp only [reads, ih]
      rfl
    | succ skip =>
      rw [skips, ih]
      rfl

theorem quotedLength_eq (quote : Char) (unclosed : Halt) (skip : Nat) (s : List Char) :
    quotedLength t quote unclosed skip s =
      valueLength t (· == quote) (.error unclosed) skip s := by
  apply eq_valueLength
  · intro skip
    cases skip <;> rfl
  · exact fun _ _ _ => rfl
  · intro c rest
    have ends : (c = quote) = ((c == quote) = true) := propext beq_iff_eq.symm
    exact ite_congr rfl (fun _ => rfl) fun _ => ite_congr ends (fun _ => rfl) fun _ => rfl

theorem unquotedLength_eq (skip : Nat) (s : List Char) :
    unquotedLength t skip s =
      valueLength t (fun c => Text.isBlank c || c == '>') (.ok 0) skip s := by
  apply eq_valueLength
  · intro skip
    cases skip <;> rfl
  · exact fun _ _ _ => rfl
  · intro c rest
    have ends : (Text.isBlank c = true ∨ c = '>') = ((Text.isBlank c || c == '>') = true) := by
      rw [Bool.or_eq_true, beq_iff_eq]
    exact ite_congr rfl (fun _ => rfl) fun _ => ite_congr ends (fun _ => rfl) fun _ => rfl

/-- A value goes on behind a template region, or behind a character that does not end it. -/
theorem valueLength_cons (c : Char) (rest : List Char) :
    valueLength t ends last 0 (c :: rest) =
      if t.opens (c :: rest) then
        match t.scanAfter c rest with
        | none => .error ⟨.unclosedTemplate, c :: rest⟩
        | some n => (valueLength t ends last 0 (rest.drop n)).map (· + (n + 1))
      else if ends c then .ok 0
      else (valueLength t ends last 0 rest).map (· + 1) := by
  rw [valueLength]
  split
  · next opens =>
    cases found : t.scanAfter c rest with
    | none => rfl
    | some n =>
      have bound := (Template.Scanner.scanAfter_spec opens found).2.2
      simp only [valueLength_skip bound, Outcome.map_map]
      rfl
  · rfl

theorem valueRound_eq {pos : Nat} {c : Char} {rest : List Char} (h : At source pos (c :: rest)) :
    valueRound t origin source ends () pos =
      if t.opens (c :: rest) then
        match t.scanAfter c rest with
        | none => .error (told origin source ⟨.unclosedTemplate, c :: rest⟩)
        | some n => .ok (.go (pos + Text.bytes (c :: rest.take n)) ())
      else if ends c then .ok (.done pos)
      else .ok (.go (pos + Text.bytes [c]) ()) := by
  rw [valueRound, h.suffix]
  change (if _ then _ else if _ then _ else _) = _
  split
  · next opens =>
    rw [templateEnd_eq origin h opens]
    cases t.scanAfter c rest <;> rfl
  · rfl

/-- A place in a value, counted from the front of what was passed before it. -/
theorem map_passed (pos n : Nat) (c : Char) (rest : List Char) (found : Except Halt Nat) :
    ((found.mapError (told origin source)).map fun m =>
        pos + Text.bytes (c :: rest.take n) + Text.bytes ((rest.drop n).take m)) =
      ((found.map (· + (n + 1))).mapError (told origin source)).map
        fun m => pos + Text.bytes ((c :: rest).take m) := by
  cases found with
  | error halt => rfl
  | ok m =>
    refine congrArg Except.ok ?_
    change _ + _ = pos + Text.bytes ((c :: rest).take (m + n + 1))
    rw [Nat.add_comm m, List.take_succ_cons, List.take_add, Text.bytes_cons, Text.bytes_cons,
      Text.bytes_append]
    omega

theorem valueEnd_eq {finish : Nat → Checked Nat} {pos : Nat} {rest : List Char}
    (atEnd : finish (Text.bytes source) =
      (last.mapError (told origin source)).map fun _ => Text.bytes source)
    (h : At source pos rest) :
    valueEnd t origin source ends finish pos =
      ((valueLength t ends last 0 rest).mapError (told origin source)).map
        fun n => pos + Text.bytes (rest.take n) := by
  rw [valueEnd]
  induction hlen : rest.length using Nat.strongRecOn generalizing pos rest with
  | ind len ih =>
    subst hlen
    cases rest with
    | nil =>
      simp only [List.take_nil, Text.bytes_nil, Nat.add_zero]
      rw [loop_finish (Nat.le_of_eq h.stop.symm), h.stop, atEnd, valueLength]
    | cons c rest =>
      have round : valueRound t origin source ends () pos = _ := valueRound_eq h
      have jump : ∀ n, valueRound t origin source ends () pos =
            .ok (.go (pos + Text.bytes (c :: rest.take n)) ()) →
          loop (Text.bytes source) (valueRound t origin source ends) (fun _ pos => finish pos) ()
              pos =
            (((valueLength t ends last 0 (rest.drop n)).map (· + (n + 1))).mapError
              (told origin source)).map fun m => pos + Text.bytes ((c :: rest).take m) := by
        intro n go
        have later := h.drop (n + 1)
        rw [List.take_succ_cons, List.drop_succ_cons] at later
        have shorter : (rest.drop n).length < (c :: rest).length := by
          rw [List.length_drop, List.length_cons]
          omega
        rw [loop_go h.lt go (Nat.lt_add_of_pos_right (Text.bytes_pos (List.cons_ne_nil _ _))),
          ih _ shorter later rfl, map_passed]
      rw [valueLength_cons]
      split
      · next opens =>
        rw [if_pos opens] at round
        cases found : t.scanAfter c rest with
        | none =>
          rw [found] at round
          exact loop_stop h.lt round
        | some n =>
          rw [found] at round
          exact jump n round
      · next closed =>
        rw [if_neg closed] at round
        split
        · next stop =>
          rw [if_pos stop] at round
          exact loop_done h.lt round
        · next open_ =>
          rw [if_neg open_] at round
          exact jump 0 round

theorem unquotedEnd_eq {pos : Nat} {rest : List Char} (h : At source pos rest) :
    unquotedEnd t origin source pos =
      ((unquotedLength t 0 rest).mapError (told origin source)).map
        fun n => pos + Text.bytes (rest.take n) := by
  rw [unquotedLength_eq]
  exact valueEnd_eq rfl h

/-- The byte before the first one between quotes is the opening quote. -/
theorem quotedEnd_eq {quote : Char} (one : quote.utf8Size = 1) {pos : Nat} {rest : List Char}
    (h : At source pos (quote :: rest)) :
    quotedEnd t origin source quote (pos + 1) =
      ((quotedLength t quote ⟨.unclosedValue, quote :: rest⟩ 0 rest).mapError
        (told origin source)).map fun n => pos + 1 + Text.bytes (rest.take n) := by
  have inside := h.next
  rw [one] at inside
  rw [quotedLength_eq, quotedEnd]
  refine valueEnd_eq ?_ inside
  rw [minus_add]
  exact fail_eq _ h

end Value

section PlainText

variable {t : Template.Scanner} {source s : List Char}

theorem bracket_or_opens (h : opensConstruct t s = true) :
    ['<'].isPrefixOf s = true ∨ t.opens s = true := by
  by_cases opens : t.opens s = true
  · exact .inr opens
  · left
    cases s with
    | nil =>
      rw [opensConstruct, Bool.eq_false_iff.mpr opens] at h
      cases h
    | cons c rest =>
      simp only [opensConstruct, Bool.eq_false_iff.mpr opens, Bool.false_or, Bool.or_eq_true] at h
      have bracket : c = '<' := by
        rcases h with ((declared | processed) | ends) | starts
        · exact (eq_of_beq (Bool.and_eq_true_iff.mp declared).1).symm
        · exact (eq_of_beq (Bool.and_eq_true_iff.mp processed).1).symm
        · exact bracket_of_opensEndTag ends
        · exact bracket_of_opensStartTag starts
      subst bracket
      rfl

theorem construct_of_opens (h : t.opens s = true) : opensConstruct t s = true := by
  simp only [opensConstruct, h, Bool.true_or]

theorem ne_nil_of_opens (h : t.opens s = true) : s ≠ [] := by
  rintro rfl
  rw [Template.Scanner.opens, Bool.and_eq_true] at h
  obtain ⟨leftSome, -⟩ := Template.Scanner.ne_nil_of_active h.1
  exact leftSome (List.prefix_nil.mp (List.isPrefixOf_iff_prefix.mp h.2))

theorem textLength_skip {n : Nat} (le : n ≤ s.length)
    (plain : ∀ k < n, opensConstruct t (s.drop k) = false) :
    textLength t s = textLength t (s.drop n) + n := by
  induction n generalizing s with
  | zero => rfl
  | succ n ih =>
    cases s with
    | nil => cases le
    | cons c rest =>
      have later := ih (Nat.le_of_succ_le_succ le)
        fun k before => plain (k + 1) (Nat.succ_lt_succ before)
      have first : opensConstruct t (c :: rest) = false := plain 0 (Nat.succ_pos n)
      rw [textLength, if_neg (Bool.eq_false_iff.mp first), later]
      rfl

/-- The number of characters before the next bracket or template region. -/
def nextPlace (t : Template.Scanner) (s : List Char) : Option Nat :=
  sooner (Text.indexOf? ['<'] s) (t.nextOpen? s)

theorem sooner_eq (t : Template.Scanner) (s : List Char) :
    sooner (find ['<'] s) (nextOpen t s) =
      (nextPlace t s).map fun n => Text.bytes (s.take n) := by
  rw [nextPlace, nextOpen_eq, find]
  cases Text.indexOf? ['<'] s with
  | none => cases t.nextOpen? s <;> rfl
  | some i =>
    cases t.nextOpen? s with
    | none => rfl
    | some j =>
      refine congrArg some ?_
      rcases Nat.le_total i j with le | le
      · rw [Nat.min_eq_left le, Nat.min_eq_left (Text.bytes_take_le s le)]
      · rw [Nat.min_eq_right le, Nat.min_eq_right (Text.bytes_take_le s le)]

theorem plain_of_neither {k : Nat} (noBracket : ['<'].isPrefixOf (s.drop k) = false)
    (closed : t.opens (s.drop k) = false) : opensConstruct t (s.drop k) = false := by
  rw [Bool.eq_false_iff]
  intro construct
  rcases bracket_or_opens construct with bracket | opens
  · rw [noBracket] at bracket
    cases bracket
  · rw [closed] at opens
    cases opens

/-- Before the next place there is only text, and at it a bracket or a template region. -/
theorem nextPlace_spec {n : Nat} (h : nextPlace t s = some n) :
    (∀ k < n, opensConstruct t (s.drop k) = false) ∧
      (['<'].isPrefixOf (s.drop n) = true ∨ t.opens (s.drop n) = true) := by
  rw [nextPlace] at h
  cases bracket : Text.indexOf? ['<'] s with
  | none =>
    cases region : t.nextOpen? s with
    | none =>
      rw [bracket, region] at h
      cases h
    | some j =>
      rw [bracket, region] at h
      cases h
      obtain ⟨opens, closed⟩ := Template.Scanner.opens_of_nextOpen? region
      refine ⟨fun k before => ?_, .inr opens⟩
      exact plain_of_neither (Text.not_isPrefixOf_of_indexOf? bracket k) (closed k before)
  | some i =>
    cases region : t.nextOpen? s with
    | none =>
      rw [bracket, region] at h
      cases h
      refine ⟨fun k before => ?_, .inl (Text.isPrefixOf_of_indexOf? bracket)⟩
      exact plain_of_neither (Text.not_isPrefixOf_before bracket before)
        (Template.Scanner.not_opens_of_nextOpen? region k)
    | some j =>
      rw [bracket, region] at h
      obtain rfl := Option.some.inj h
      obtain ⟨opens, closed⟩ := Template.Scanner.opens_of_nextOpen? region
      refine ⟨fun k before => ?_, ?_⟩
      · exact plain_of_neither
          (Text.not_isPrefixOf_before bracket (Nat.lt_of_lt_of_le before (Nat.min_le_left i j)))
          (closed k (Nat.lt_of_lt_of_le before (Nat.min_le_right i j)))
      · rcases Nat.le_total i j with le | le
        · rw [Nat.min_eq_left le]
          exact .inl (Text.isPrefixOf_of_indexOf? bracket)
        · rw [Nat.min_eq_right le]
          exact .inr opens

theorem textLength_of_nextPlace (h : nextPlace t s = none) : textLength t s = s.length := by
  have plain : ∀ k < s.length, opensConstruct t (s.drop k) = false := by
    rw [nextPlace] at h
    cases bracket : Text.indexOf? ['<'] s with
    | some i =>
      rw [bracket] at h
      cases region : t.nextOpen? s with
      | none =>
        rw [region] at h
        cases h
      | some j =>
        rw [region] at h
        cases h
    | none =>
      cases region : t.nextOpen? s with
      | some j =>
        rw [bracket, region] at h
        cases h
      | none =>
        intro k _
        exact plain_of_neither (Text.not_isPrefixOf_of_indexOf? bracket k)
          (Template.Scanner.not_opens_of_nextOpen? region k)
  rw [textLength_skip (Nat.le_refl _) plain, List.drop_length, textLength, Nat.zero_add]

/-- At the next place there is a character: a bracket, unless a construct opens. -/
theorem exists_of_nextPlace {n : Nat} (h : nextPlace t s = some n) :
    ∃ c rest, s.drop n = c :: rest ∧ n < s.length ∧
      (opensConstruct t (c :: rest) = false → c = '<') := by
  obtain ⟨-, special⟩ := nextPlace_spec h
  cases behind : s.drop n with
  | nil =>
    rw [behind] at special
    rcases special with bracket | opens
    · cases bracket
    · exact absurd rfl (ne_nil_of_opens opens)
  | cons c rest =>
    refine ⟨c, rest, rfl, ?_, fun plain => ?_⟩
    · apply Nat.lt_of_not_le
      intro beyond
      rw [List.drop_eq_nil_of_le beyond] at behind
      cases behind
    · rw [behind] at special
      rcases special with bracket | opens
      · exact (eq_of_beq (Bool.and_eq_true_iff.mp bracket).1).symm
      · rw [construct_of_opens opens] at plain
        cases plain

theorem textRound_eq {start pos : Nat} (h : At source pos s) :
    textRound t source start () pos =
      match nextPlace t s with
      | none => .ok (.done (Text.bytes source))
      | some n =>
        if start < Text.bytes (s.take n) + pos ∧ opensConstruct t (s.drop n) = true then
          .ok (.done (pos + Text.bytes (s.take n)))
        else .ok (.go (pos + Text.bytes (s.take n) + 1) ()) := by
  rw [textRound, h.suffix]
  change (match sooner (find ['<'] s) (nextOpen t s) with
    | none => _
    | some next => _) = _
  rw [sooner_eq]
  cases nextPlace t s with
  | none => rfl
  | some n =>
    have found := (At.start s).drop n
    rw [Nat.zero_add] at found
    change (suffixAt s (Text.bytes (s.take n)) >>= fun _ => _) = _
    rw [found.suffix]
    rfl

theorem bytes_take_textLength {n : Nat} (le : n ≤ s.length)
    (plain : ∀ k < n, opensConstruct t (s.drop k) = false) :
    Text.bytes (s.take (textLength t s)) =
      Text.bytes (s.take n) + Text.bytes ((s.drop n).take (textLength t (s.drop n))) := by
  rw [textLength_skip le plain, Nat.add_comm, List.take_add, Text.bytes_append]

/-- The search for the end of a text, from a place on that does not end it. -/
theorem loop_text {start pos : Nat} (h : At source pos s)
    (inside : start < pos ∨ start = pos ∧ opensConstruct t s = false) :
    loop (Text.bytes source + 1) (textRound t source start) (fun _ _ => .error (.trap .badIndex))
        () pos = .ok (pos + Text.bytes (s.take (textLength t s))) := by
  induction hlen : s.length using Nat.strongRecOn generalizing pos s with
  | ind len ih =>
    subst hlen
    have room : pos < Text.bytes source + 1 := Nat.lt_succ_of_le h.le
    have round : textRound t source start () pos = _ := textRound_eq h
    cases place : nextPlace t s with
    | none =>
      rw [place] at round
      rw [loop_done room round, textLength_of_nextPlace place, List.take_length, h.size]
    | some n =>
      obtain ⟨plain, -⟩ := nextPlace_spec place
      obtain ⟨c, rest, behind, bound, bracket⟩ := exists_of_nextPlace place
      have there := h.drop n
      simp only [place, behind] at round
      rw [bytes_take_textLength (Nat.le_of_lt bound) plain]
      rw [behind] at there ⊢
      by_cases construct : opensConstruct t (c :: rest) = true
      · have ahead : start < Text.bytes (s.take n) + pos := by
          rcases inside with lt | ⟨rfl, none⟩
          · omega
          · apply Nat.lt_add_of_pos_left
            cases n with
            | zero =>
              rw [List.drop_zero] at behind
              rw [behind, construct] at none
              cases none
            | succ n => exact Text.bytes_pos (List.ne_nil_of_length_pos (by simp; omega))
        rw [if_pos ⟨ahead, construct⟩] at round
        rw [loop_done room round, textLength, if_pos construct]
        rfl
      · rw [if_neg fun both => construct both.2] at round
        obtain rfl := bracket (Bool.eq_false_iff.mpr construct)
        have shorter : rest.length < s.length := by
          have length := congrArg List.length behind
          rw [List.length_drop, List.length_cons] at length
          omega
        have one : '<'.utf8Size = 1 := by decide
        have next := there.next
        rw [one] at next
        have later : start < pos + Text.bytes (s.take n) + 1 := by
          rcases inside with lt | ⟨rfl, -⟩ <;> omega
        rw [loop_go room round (by omega), ih _ shorter next (.inl later) rfl, textLength,
          if_neg construct, List.take_succ_cons, Text.bytes_cons, one]
        exact congrArg Except.ok (by omega)

theorem textEnd_eq {c : Char} {rest : List Char} {pos : Nat} (h : At source pos (c :: rest))
    (plain : opensConstruct t (c :: rest) = false) :
    textEnd t source pos = .ok (pos + Text.bytes (c :: rest.take (textLength t rest))) := by
  rw [textEnd, loop_text h (.inr ⟨rfl, plain⟩), textLength, plain]
  rfl

end PlainText

end Mosaic.Bytewise.Markup
