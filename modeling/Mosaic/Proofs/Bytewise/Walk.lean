import Mosaic.Proofs.Bytewise.Encoding

/-! Walks through a text: from character to character, and from byte to byte. A walk from byte to
byte looks at bytes inside of characters too, and steps over two bytes behind a backslash; but it
only ever ends at a whole character. -/
namespace Mosaic.Bytewise

section Characters

variable (stops : List Char → Bool) (text : List Char)

def walkRound (_ : Unit) (pos : Nat) : Checked (Step Unit Nat) := do
  let rest ← suffixAt text pos
  return if stops rest then .done pos else .go (pos + firstSize rest) ()

/-- Walk from character to character up to where `stops` holds of the rest of the text. -/
def walk (start : Nat) : Checked Nat :=
  loop (Text.bytes text) (walkRound stops text) (fun _ pos => .ok pos) () start

end Characters

/-- The number of characters up to where `stops` holds of the rest of the text. -/
def lengthUntil (stops : List Char → Bool) : List Char → Nat
  | [] => 0
  | c :: rest => if stops (c :: rest) then 0 else lengthUntil stops rest + 1

theorem walk_eq (stops : List Char → Bool) {text rest : List Char} {pos : Nat}
    (h : At text pos rest) :
    walk stops text pos = .ok (pos + Text.bytes (rest.take (lengthUntil stops rest))) := by
  induction rest generalizing pos with
  | nil =>
    rw [walk, loop_finish (Nat.le_of_eq h.stop.symm)]
    rfl
  | cons c rest ih =>
    by_cases stop : stops (c :: rest) = true
    · have done : walkRound stops text () pos = .ok (.done pos) := by
        rw [walkRound, h.suffix]
        exact congrArg Except.ok (if_pos stop)
      rw [walk, loop_done h.lt done, lengthUntil, if_pos stop]
      rfl
    · have go : walkRound stops text () pos = .ok (.go (pos + c.utf8Size) ()) := by
        rw [walkRound, h.suffix]
        exact congrArg Except.ok (if_neg stop)
      have rest' := ih h.next
      rw [walk] at rest' ⊢
      rw [loop_go h.lt go (Nat.lt_add_of_pos_right c.utf8Size_pos), rest', lengthUntil,
        if_neg stop, List.take_succ_cons, Text.bytes_cons, Nat.add_assoc]

/-- What stands in a list of bytes from byte `pos` on. -/
def AtByte (bytes : List UInt8) (pos : Nat) (tail : List UInt8) : Prop :=
  ∃ front, bytes = front ++ tail ∧ pos = front.length

namespace AtByte

variable {bytes tail first : List UInt8} {pos : Nat} {b : UInt8}

theorem lt (h : AtByte bytes pos (b :: tail)) : pos < bytes.length := by
  obtain ⟨front, rfl, rfl⟩ := h
  rw [List.length_append, List.length_cons]
  omega

theorem item (h : AtByte bytes pos (b :: tail)) : Bytewise.item bytes pos = .ok b := by
  obtain ⟨front, rfl, rfl⟩ := h
  rw [Bytewise.item, List.getElem?_append_right (Nat.le_refl _), Nat.sub_self]
  rfl

theorem skip (h : AtByte bytes pos (first ++ tail)) : AtByte bytes (pos + first.length) tail := by
  obtain ⟨front, rfl, rfl⟩ := h
  exact ⟨front ++ first, by rw [List.append_assoc], by rw [List.length_append]⟩

theorem next (h : AtByte bytes pos (b :: tail)) : AtByte bytes (pos + 1) tail :=
  (show AtByte bytes pos ([b] ++ tail) from h).skip

theorem stop (h : AtByte bytes pos []) : bytes.length ≤ pos := by
  obtain ⟨front, rfl, rfl⟩ := h
  exact Nat.le_of_eq (congrArg List.length (List.append_nil front))

end AtByte

theorem At.bytes {text rest : List Char} {pos : Nat} (h : At text pos rest) :
    AtByte (encode text) pos (encode rest) := by
  obtain ⟨before, rfl, rfl⟩ := h
  exact ⟨encode before, encode_append before rest, (length_encode before).symm⟩

theorem loop_inside {σ α : Type} {bytes : List UInt8} {round : σ → Nat → Checked (Step σ α)}
    {finish : σ → Nat → Checked α}
    (passes : ∀ state pos b tail, AtByte bytes pos (b :: tail) → ¬ b.IsUTF8FirstByte →
      round state pos = .ok (.go (pos + 1) state))
    {conts tail : List UInt8} (inside : ∀ b ∈ conts, ¬ b.IsUTF8FirstByte) {pos : Nat}
    (h : AtByte bytes pos (conts ++ tail)) (state : σ) :
    loop bytes.length round finish state pos =
      loop bytes.length round finish state (pos + conts.length) := by
  induction conts generalizing pos with
  | nil => rfl
  | cons b conts ih =>
    obtain ⟨own, others⟩ := List.forall_mem_cons.mp inside
    rw [loop_go h.lt (passes state pos b _ h own) (Nat.lt_succ_self pos), ih others h.next,
      List.length_cons, Nat.add_assoc, Nat.add_comm 1]

/-- What a walk from byte to byte does at a byte, which it takes for a character. -/
inductive Act (σ : Type) where
  /-- Step over this byte and the next one. -/
  | escape
  | pass (state : σ)
  | close
  | fail

section Bytes

variable {σ : Type} (act : σ → Char → Act σ)

def byteRound (bytes : List UInt8) (state : σ) (pos : Nat) : Checked (Step σ (Option Nat)) := do
  let b ← item bytes pos
  return match act state (asChar b) with
    | .escape => .go (pos + 2) state
    | .pass next => .go (pos + 1) next
    | .close => .done (some pos)
    | .fail => .done none

/-- Walk from byte to byte to the byte that closes. -/
def walkBytes (bytes : List UInt8) (state : σ) (start : Nat) : Checked (Option Nat) :=
  loop bytes.length (byteRound act bytes) (fun _ _ => .ok none) state start

/-- The number of characters up to the character that closes. -/
def walkChars : σ → List Char → Option Nat
  | _, [] => none
  | state, [c] =>
    match act state c with
    | .close => some 0
    | _ => none
  | state, c :: d :: rest =>
    match act state c with
    | .escape => (walkChars state rest).map (· + 2)
    | .pass next => (walkChars next (d :: rest)).map (· + 1)
    | .close => some 0
    | .fail => none

/-- Only the characters of one byte mean something to a walk. -/
def PassesWide : Prop := ∀ state c, 127 < c.toNat → act state c = .pass state

variable {act}

/-- The first byte of a character means what the character means. -/
theorem act_lead (passes : PassesWide act) {c : Char} {lead : UInt8} {conts : List UInt8}
    (h : String.utf8EncodeChar c = lead :: conts) (state : σ) :
    act state (asChar lead) = act state c ∧ (act state c = .pass state ∨ conts = []) := by
  by_cases small : lead.toNat < 128
  · obtain ⟨rfl, none⟩ := eq_asChar_of_lt h small
    exact ⟨rfl, .inr none⟩
  · have wide : 127 < c.toNat := Nat.lt_of_not_le fun le => small (lead_of_small le h)
    have wideLead : 127 < (asChar lead).toNat := by
      rw [toNat_asChar]
      omega
    rw [passes state c wide, passes state _ wideLead]
    exact ⟨rfl, .inl rfl⟩

theorem byteRound_inside (passes : PassesWide act) {bytes : List UInt8} (state : σ) (pos : Nat)
    (b : UInt8) (tail : List UInt8) (h : AtByte bytes pos (b :: tail))
    (inside : ¬ b.IsUTF8FirstByte) : byteRound act bytes state pos = .ok (.go (pos + 1) state) := by
  have wide : 127 < (asChar b).toNat := by
    rw [toNat_asChar]
    exact ge_of_not_first inside
  rw [byteRound, h.item]
  change Except.ok _ = _
  rw [passes state _ wide]

theorem walkBytes_cons (passes : PassesWide act) {bytes : List UInt8} {c : Char}
    {rest : List Char} {pos : Nat} (state : σ) (h : AtByte bytes pos (encode (c :: rest))) :
    walkBytes act bytes state pos =
      match act state c with
      | .escape => walkBytes act bytes state (pos + 2)
      | .pass next => walkBytes act bytes next (pos + c.utf8Size)
      | .close => .ok (some pos)
      | .fail => .ok none := by
  obtain ⟨lead, conts, hc, size, -, inside⟩ := encodeChar_eq_cons c
  rw [encode_cons, hc, List.cons_append] at h
  obtain ⟨same, whole⟩ := act_lead passes hc state
  have round : byteRound act bytes state pos = .ok (match act state c with
      | .escape => .go (pos + 2) state
      | .pass next => .go (pos + 1) next
      | .close => .done (some pos)
      | .fail => .done none) := by
    rw [byteRound, h.item, ← same]
    rfl
  rw [walkBytes]
  cases hact : act state c with
  | escape =>
    rw [hact] at round
    exact loop_go h.lt round (by omega)
  | close =>
    rw [hact] at round
    exact loop_done h.lt round
  | fail =>
    rw [hact] at round
    exact loop_done h.lt round
  | pass next =>
    rw [hact] at round
    rw [loop_go h.lt round (Nat.lt_succ_self pos),
      loop_inside (byteRound_inside passes) inside h.next, ← size, Nat.add_assoc, Nat.add_comm 1]
    rfl

/-- Behind the first byte of a character a walk goes on to the next character. -/
theorem walkBytes_inside (passes : PassesWide act) {bytes : List UInt8} {c : Char}
    {rest : List Char} {pos : Nat} (state : σ) (h : AtByte bytes pos (encode (c :: rest))) :
    walkBytes act bytes state (pos + 1) = walkBytes act bytes state (pos + c.utf8Size) := by
  obtain ⟨lead, conts, hc, size, -, inside⟩ := encodeChar_eq_cons c
  rw [encode_cons, hc, List.cons_append] at h
  rw [walkBytes, loop_inside (byteRound_inside passes) inside h.next, ← size, Nat.add_assoc,
    Nat.add_comm 1]
  rfl

theorem AtByte.char {bytes : List UInt8} {c : Char} {rest : List Char} {pos : Nat}
    (h : AtByte bytes pos (encode (c :: rest))) :
    AtByte bytes (pos + c.utf8Size) (encode rest) := by
  rw [encode_cons] at h
  have skipped := h.skip
  rwa [String.length_utf8EncodeChar] at skipped

theorem walkBytes_nil {bytes : List UInt8} {pos : Nat} (state : σ) (h : bytes.length ≤ pos) :
    walkBytes act bytes state pos = .ok none := loop_finish h

theorem utf8Size_of_act (passes : PassesWide act) (state : σ) (c : Char)
    (special : ∀ next, act state c ≠ .pass next) : c.utf8Size = 1 := by
  rw [Char.utf8Size_eq_one_iff]
  apply Nat.le_of_not_lt
  intro wide
  exact special state (passes state c wide)

/-- A walk over the bytes of a text ends where the walk over its characters ends. -/
theorem walkBytes_eq (passes : PassesWide act) {bytes : List UInt8} {rest : List Char} {pos : Nat}
    (state : σ) (h : AtByte bytes pos (encode rest)) :
    walkBytes act bytes state pos =
      .ok ((walkChars act state rest).map fun n => pos + Text.bytes (rest.take n)) := by
  fun_induction walkChars act state rest generalizing pos with
  | case1 state => exact walkBytes_nil state h.stop
  | case2 state c close =>
    rw [walkBytes_cons passes state h, close]
    rfl
  | case3 state c open_ =>
    rw [walkBytes_cons passes state h]
    have behind := h.char.stop
    cases hact : act state c with
    | escape =>
      have size := utf8Size_of_act passes state c (by simp [hact])
      exact walkBytes_nil state (by omega)
    | pass next => exact walkBytes_nil next behind
    | close => exact absurd hact open_
    | fail => rfl
  | case4 state c d rest escape ih =>
    have size := utf8Size_of_act passes state c (by simp [escape])
    have second := h.char
    rw [size] at second
    rw [walkBytes_cons passes state h, escape]
    change walkBytes act bytes state (pos + 1 + 1) = _
    rw [walkBytes_inside passes state second, ih second.char, Option.map_map]
    congr 2
    funext n
    simp only [Function.comp, List.take_succ_cons, Text.bytes_cons, size]
    omega
  | case5 state c d rest next pass ih =>
    rw [walkBytes_cons passes state h, pass]
    change walkBytes act bytes next (pos + c.utf8Size) = _
    rw [ih h.char, Option.map_map]
    congr 2
    funext n
    simp only [Function.comp, List.take_succ_cons, Text.bytes_cons]
    omega
  | case6 state c d rest close =>
    rw [walkBytes_cons passes state h, close]
    rfl
  | case7 state c d rest fail =>
    rw [walkBytes_cons passes state h, fail]
    rfl

/-- A walk ends at a character that closes. -/
theorem walkChars_closes {state : σ} {rest : List Char} {n : Nat}
    (h : walkChars act state rest = some n) :
    ∃ last c, rest[n]? = some c ∧ act last c = .close := by
  fun_induction walkChars act state rest generalizing n with
  | case1 => cases h
  | case2 state c close =>
    cases h
    exact ⟨state, c, rfl, close⟩
  | case3 => cases h
  | case4 state c d rest _ ih =>
    obtain ⟨m, hm, rfl⟩ := Option.map_eq_some_iff.mp h
    exact ih hm
  | case5 state c d rest next _ ih =>
    obtain ⟨m, hm, rfl⟩ := Option.map_eq_some_iff.mp h
    exact ih hm
  | case6 state c d rest close =>
    cases h
    exact ⟨state, c, rfl, close⟩
  | case7 => cases h

end Bytes

/-- Between quotes a backslash hides the next byte, and a line break may end the reading. -/
def quoteAct (oneLine : Bool) (quote : Char) (_ : Unit) (c : Char) : Act Unit :=
  if c = '\\' then .escape
  else if oneLine ∧ c = '\n' then .fail
  else if c = quote then .close
  else .pass ()

/-- The bytes up to and including the closing quote. -/
def stringSize (oneLine : Bool) (quote : Char) (bytes : List UInt8) : Checked (Option Nat) := do
  match ← walkBytes (quoteAct oneLine quote) bytes () 0 with
  | some stop => return some (stop + 1)
  | none => return none

section Quotes

variable {quote c : Char}

theorem passesWide_quoteAct (oneLine : Bool) (small : quote.toNat ≤ 127) :
    PassesWide (quoteAct oneLine quote) := by
  intro state c wide
  rw [quoteAct, if_neg (ne_of_wide wide (by decide)),
    if_neg fun both => ne_of_wide wide (by decide) both.2, if_neg (ne_of_wide wide small)]

theorem quoteAct_close {oneLine : Bool} {state : Unit}
    (h : quoteAct oneLine quote state c = .close) : c = quote := by
  rw [quoteAct] at h
  split at h
  next => cases h
  next =>
    split at h
    next => cases h
    next =>
      split at h
      next same => exact same
      next => cases h

theorem quoteAct_escape {oneLine : Bool} {state : Unit}
    (h : quoteAct oneLine quote state c = .escape) : c = '\\' := by
  rw [quoteAct] at h
  split at h
  next same => exact same
  next =>
    split at h
    next => cases h
    next => split at h <;> cases h

theorem quoteAct_hides (oneLine : Bool) (state : Unit) :
    quoteAct oneLine quote state '\\' = .escape := if_pos rfl

/-- A reader of strings that does at every character what a walk does there is a walk. -/
theorem eq_walkChars {oneLine : Bool} {length : List Char → Option Nat} (plain : quote ≠ '\\')
    (nil : length [] = none) (alone : length ['\\'] = none)
    (hides : ∀ d rest, length ('\\' :: d :: rest) = (length rest).map (· + 2))
    (plainly : ∀ c rest, c ≠ '\\' → length (c :: rest) =
      if oneLine ∧ c = '\n' then none
      else if c = quote then some 1
      else (length rest).map (· + 1)) (s : List Char) :
    length s = (walkChars (quoteAct oneLine quote) () s).map (· + 1) := by
  have other : ∀ c rest, c ≠ '\\' → length (c :: rest) =
      match quoteAct oneLine quote () c with
      | .close => some 1
      | .fail => none
      | _ => (length rest).map (· + 1) := by
    intro c rest visible
    rw [plainly c rest visible, quoteAct, if_neg visible]
    by_cases broken : oneLine ∧ c = '\n'
    · rw [if_pos broken, if_pos broken]
    · rw [if_neg broken, if_neg broken]
      by_cases same : c = quote
      · rw [if_pos same, if_pos same]
      · rw [if_neg same, if_neg same]
  have shown : ∀ {c}, quoteAct oneLine quote () c ≠ .escape → c ≠ '\\' := by
    rintro c visible rfl
    exact visible (quoteAct_hides oneLine ())
  fun_induction walkChars (quoteAct oneLine quote) () s with
  | case1 => exact nil
  | case2 _ c close =>
    have visible : c ≠ '\\' := by
      rw [quoteAct_close close]
      exact plain
    rw [other c [] visible, close]
    rfl
  | case3 _ c open_ =>
    cases hact : quoteAct oneLine quote () c with
    | escape =>
      rw [quoteAct_escape hact]
      exact alone
    | close => exact absurd hact open_
    | fail =>
      rw [other c [] (shown (by rw [hact]; exact nofun)), hact]
      rfl
    | pass => rw [other c [] (shown (by rw [hact]; exact nofun)), hact, nil]
  | case4 _ c d rest escape ih =>
    rw [quoteAct_escape escape, hides, ih, Option.map_map, Option.map_map]
    rfl
  | case5 _ c d rest next pass ih =>
    rw [other c (d :: rest) (shown (by rw [pass]; exact nofun)), pass, ih]
  | case6 _ c d rest close =>
    rw [other c (d :: rest) (shown (by rw [close]; exact nofun)), close]
    rfl
  | case7 _ c d rest fail =>
    rw [other c (d :: rest) (shown (by rw [fail]; exact nofun)), fail]
    rfl

theorem stringSize_eq (oneLine : Bool) (small : quote.toNat ≤ 127) (s : List Char) :
    stringSize oneLine quote (encode s) =
      .ok ((walkChars (quoteAct oneLine quote) () s).map
        fun n => Text.bytes (s.take (n + 1))) := by
  have start : AtByte (encode s) 0 (encode s) := ⟨[], rfl, rfl⟩
  rw [stringSize, walkBytes_eq (passesWide_quoteAct oneLine small) () start]
  cases hw : walkChars (quoteAct oneLine quote) () s with
  | none => rfl
  | some n =>
    obtain ⟨state, c, found, close⟩ := walkChars_closes hw
    have one : quote.utf8Size = 1 := Char.utf8Size_eq_one_iff.mpr small
    obtain rfl := quoteAct_close close
    change Except.ok (some (0 + Text.bytes (s.take n) + 1)) =
      Except.ok (some (Text.bytes (s.take (n + 1))))
    rw [List.take_add_one, found, Text.bytes_append, Nat.zero_add]
    exact congrArg (fun size => Except.ok (some (_ + size))) one.symm

end Quotes

end Mosaic.Bytewise
