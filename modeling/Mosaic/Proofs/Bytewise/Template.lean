import Mosaic.Proofs.Bytewise.Walk
import Mosaic.Proofs.Template

/-! Template regions measured in bytes. The delimited adapter walks over bytes and looks for the
right delimiter at every one of them; it finds the region that is found by characters. -/
namespace Mosaic.Bytewise

open Template

section Adapters

variable (left right source : List Char)

def bytesAt (bytes : List UInt8) (pos : Nat) : Checked (List UInt8) :=
  if pos ≤ bytes.length then .ok (bytes.drop pos) else .error (.trap .badIndex)

def delimitedRound (_ : Unit) (pos : Nat) : Checked (Step Unit (Option Nat)) := do
  let bytes := encode source
  let tail ← bytesAt bytes pos
  if (encode right).isPrefixOf tail then return .done (some (pos + Text.bytes right))
  else
    let quote := asChar (← item bytes pos)
    if quote = '"' ∨ quote = '\'' then
      match ← walkBytes (quoteAct false quote) bytes () (pos + 1) with
      | some stop => return .go (stop + 1) ()
      | none =>
        -- A quote that never closes: from here on quotes are no longer honoured.
        let body ← suffixAt source (Text.bytes left)
        return .done ((find right body).map fun i => Text.bytes left + i + Text.bytes right)
    else return .go (pos + 1) ()

def delimited : Checked (Option Nat) :=
  loop (encode source).length (delimitedRound left right source) (fun _ _ => .ok none) ()
    (Text.bytes left)

def nestedRound (depth pos : Nat) : Checked (Step Nat (Option Nat)) := do
  let rest ← suffixAt source pos
  if left.isPrefixOf rest then return .go (pos + Text.bytes left) (depth + 1)
  else if right.isPrefixOf rest then
    let stop := pos + Text.bytes right
    return if depth - 1 = 0 then .done (some stop) else .go stop (depth - 1)
  else return .go (pos + firstSize rest) depth

def nested : Checked (Option Nat) :=
  loop (Text.bytes source) (nestedRound left right source) (fun _ _ => .ok none) 0 0

/-- The bytes of the region at the front of `source`. -/
def measure : Adapter → Checked (Option Nat)
  | .delimited => delimited left right source
  | .nested => nested left right source

end Adapters

/-- The bytes of the region that opens at the front of `rest`. -/
def scan (t : Scanner) (rest : List Char) : Checked (Option Nat) :=
  measure t.left t.right rest t.adapter

/-- The bytes before the next region that opens. -/
def nextOpen (t : Scanner) (rest : List Char) : Option Nat :=
  if t.active then find t.left rest else none

section Nested

variable {left right source : List Char}

theorem nestedFrom_skip (depth : Nat) {skip : Nat} {rest : List Char} (h : skip ≤ rest.length) :
    nestedFrom left right depth skip rest =
      (nestedFrom left right depth 0 (rest.drop skip)).map (· + skip) := by
  induction skip generalizing rest with
  | zero => exact Option.map_id'.symm
  | succ skip ih =>
    cases rest with
    | nil => cases h
    | cons c rest =>
      rw [nestedFrom, ih (Nat.le_of_succ_le_succ h), List.drop_succ_cons, Option.map_map]
      rfl

theorem nestedFrom_word (depth : Nat) {word rest : List Char} {c : Char} (some : word ≠ [])
    (h : word.isPrefixOf (c :: rest) = true) :
    (nestedFrom left right depth (word.length - 1) rest).map (· + 1) =
      (nestedFrom left right depth 0 ((c :: rest).drop word.length)).map (· + word.length) := by
  cases word with
  | nil => exact absurd rfl some
  | cons d word =>
    have le := (List.isPrefixOf_iff_prefix.mp h).length_le
    rw [List.length_cons, Nat.add_sub_cancel, nestedFrom_skip depth (Nat.le_of_succ_le_succ le),
      Option.map_map, List.drop_succ_cons]
    rfl

/-- The nested adapter goes on behind a delimiter, or behind a character that opens none. -/
theorem nestedFrom_cons (leftSome : left ≠ []) (rightSome : right ≠ []) (depth : Nat) (c : Char)
    (rest : List Char) :
    nestedFrom left right depth 0 (c :: rest) =
      if left.isPrefixOf (c :: rest) then
        (nestedFrom left right (depth + 1) 0 ((c :: rest).drop left.length)).map (· + left.length)
      else if right.isPrefixOf (c :: rest) then
        if depth ≤ 1 then some right.length
        else (nestedFrom left right (depth - 1) 0 ((c :: rest).drop right.length)).map
          (· + right.length)
      else (nestedFrom left right depth 0 rest).map (· + 1) := by
  have notEmpty : right.isEmpty = false := List.isEmpty_eq_false_iff.mpr rightSome
  rw [nestedFrom]
  split
  · next opens => exact nestedFrom_word (depth + 1) leftSome opens
  · split
    · next closes =>
      simp only [notEmpty, Bool.false_eq_true, or_false]
      rw [nestedFrom_word (depth - 1) rightSome closes]
    · rfl

theorem nestedRound_eq (depth : Nat) {pos : Nat} {rest : List Char} (h : At source pos rest) :
    nestedRound left right source depth pos =
      .ok (if left.isPrefixOf rest then .go (pos + Text.bytes left) (depth + 1)
        else if right.isPrefixOf rest then
          if depth ≤ 1 then .done (some (pos + Text.bytes right))
          else .go (pos + Text.bytes right) (depth - 1)
        else .go (pos + firstSize rest) depth) := by
  rw [nestedRound, h.suffix]
  change (if _ then _ else if _ then _ else _) = _
  simp only [Nat.sub_eq_zero_iff_le]
  split
  · rfl
  · split <;> rfl

theorem At.behind {word rest : List Char} {pos : Nat} (h : At source pos rest)
    (opens : word.isPrefixOf rest = true) :
    At source (pos + Text.bytes word) (rest.drop word.length) := by
  have later := h.drop word.length
  rwa [Text.take_of_prefix opens] at later

/-- A place behind a word, counted from the front of the word. -/
theorem map_behind {word rest : List Char} (opens : word.isPrefixOf rest = true) (pos : Nat)
    (found : Option Nat) :
    (found.map fun n => pos + Text.bytes word + Text.bytes ((rest.drop word.length).take n)) =
      (found.map (· + word.length)).map fun n => pos + Text.bytes (rest.take n) := by
  rw [Option.map_map]
  congr 1
  funext n
  rw [Function.comp, Nat.add_comm n, List.take_add, Text.bytes_append, Text.take_of_prefix opens,
    Nat.add_assoc]

/-- From a character on, the nested adapter finds by bytes what it finds by characters. -/
theorem loop_nested (leftSome : left ≠ []) (rightSome : right ≠ []) (depth : Nat) {pos : Nat}
    {rest : List Char} (h : At source pos rest) :
    loop (Text.bytes source) (nestedRound left right source) (fun _ _ => .ok none) depth pos =
      .ok ((nestedFrom left right depth 0 rest).map fun n => pos + Text.bytes (rest.take n)) := by
  induction hlen : rest.length using Nat.strongRecOn generalizing depth pos rest with
  | ind len ih =>
    subst hlen
    cases rest with
    | nil => exact loop_finish (Nat.le_of_eq h.stop.symm)
    | cons c rest =>
      have round : nestedRound left right source depth pos = _ := nestedRound_eq depth h
      have jump : ∀ word inner, word ≠ [] → word.isPrefixOf (c :: rest) = true →
          nestedRound left right source depth pos = .ok (.go (pos + Text.bytes word) inner) →
          loop (Text.bytes source) (nestedRound left right source) (fun _ _ => .ok none) depth pos =
            .ok (((nestedFrom left right inner 0 ((c :: rest).drop word.length)).map
              (· + word.length)).map fun n => pos + Text.bytes ((c :: rest).take n)) := by
        intro word inner some opens go
        have shorter : ((c :: rest).drop word.length).length < (c :: rest).length := by
          have positive := List.length_pos_iff.mpr some
          rw [List.length_drop, List.length_cons]
          omega
        rw [loop_go h.lt go (Nat.lt_add_of_pos_right (Text.bytes_pos some)),
          ih _ shorter inner (h.behind opens) rfl, map_behind opens]
      rw [nestedFrom_cons leftSome rightSome]
      split
      · next opens => exact jump left _ leftSome opens (by rw [round, if_pos opens])
      · next closed =>
        rw [if_neg closed] at round
        split
        · next closes =>
          rw [if_pos closes] at round
          split
          · next last =>
            rw [if_pos last] at round
            rw [loop_done h.lt round, Option.map_some, Text.take_of_prefix closes]
          · next deep => exact jump right _ rightSome closes (by rw [round, if_neg deep])
        · next open_ =>
          -- the round steps over one character, as it does over a delimiter
          have single : [c].isPrefixOf (c :: rest) = true :=
            List.isPrefixOf_iff_prefix.mpr (List.prefix_append [c] rest)
          exact jump [c] depth (List.cons_ne_nil c []) single (by rw [round, if_neg open_]; rfl)

end Nested

section Delimited

variable {left right body : List Char}

theorem quoteAct_lines (quote : Char) (state : Unit) (c : Char) :
    quoteAct false quote state c =
      if c = '\\' then .escape else if c = quote then .close else .pass () := by
  simp only [quoteAct, Bool.false_eq_true, false_and, if_false]

theorem quoteAct_ne_fail (quote : Char) (state : Unit) (c : Char) :
    quoteAct false quote state c ≠ .fail := by
  rw [quoteAct_lines]
  split
  · exact nofun
  · split <;> exact nofun

theorem delimitedFrom_inside_cons (quote c : Char) (passed : Nat) (rest : List Char) :
    delimitedFrom right body (.inside quote) passed (c :: rest) =
      match quoteAct false quote () c with
      | .escape => delimitedFrom right body (.escaped quote) (passed + 1) rest
      | .close => delimitedFrom right body .outside (passed + 1) rest
      | .pass _ => delimitedFrom right body (.inside quote) (passed + 1) rest
      | .fail => none := by
  rw [delimitedFrom, quoteAct_lines]
  split
  · rfl
  · split <;> rfl

theorem delimitedFrom_inside (quote : Char) (passed : Nat) (rest : List Char) :
    delimitedFrom right body (.inside quote) passed rest =
      match walkChars (quoteAct false quote) () rest with
      | some n => delimitedFrom right body .outside (passed + n + 1) (rest.drop (n + 1))
      | none => Text.endOf? right body := by
  fun_induction walkChars (quoteAct false quote) () rest generalizing passed with
  | case1 => rfl
  | case2 _ c close =>
    rw [delimitedFrom_inside_cons, close]
    rfl
  | case3 _ c open_ =>
    rw [delimitedFrom_inside_cons]
    cases hact : quoteAct false quote () c with
    | escape => rfl
    | pass => rfl
    | close => exact absurd hact open_
    | fail => exact absurd hact (quoteAct_ne_fail quote () c)
  | case4 _ c d rest escape ih =>
    rw [delimitedFrom_inside_cons, escape]
    change delimitedFrom right body (.inside quote) (passed + 1 + 1) rest = _
    rw [ih]
    cases walkChars (quoteAct false quote) () rest with
    | none => rfl
    | some n =>
      change delimitedFrom _ _ _ (passed + 2 + n + 1) _ =
        delimitedFrom _ _ _ (passed + (n + 2) + 1) _
      rw [Nat.add_assoc passed, Nat.add_comm 2]
      rfl
  | case5 _ c d rest next pass ih =>
    rw [delimitedFrom_inside_cons, pass]
    change delimitedFrom right body (.inside quote) (passed + 1) (d :: rest) = _
    rw [ih]
    cases walkChars (quoteAct false quote) () (d :: rest) with
    | none => rfl
    | some n =>
      change delimitedFrom _ _ _ (passed + 1 + n + 1) _ =
        delimitedFrom _ _ _ (passed + (n + 1) + 1) _
      rw [Nat.add_assoc passed, Nat.add_comm 1]
      rfl
  | case6 _ c d rest close =>
    rw [delimitedFrom_inside_cons, close]
    rfl
  | case7 _ c d rest fail => exact absurd fail (quoteAct_ne_fail quote () c)

theorem AtByte.bytesAt {bytes tail : List UInt8} {pos : Nat} (h : AtByte bytes pos tail) :
    Bytewise.bytesAt bytes pos = .ok tail := by
  obtain ⟨front, rfl, rfl⟩ := h
  have le : front.length ≤ (front ++ tail).length := by
    rw [List.length_append]
    exact Nat.le_add_right _ _
  rw [Bytewise.bytesAt, if_pos le, List.drop_left]

theorem utf8Size_of_quote {c : Char} (h : c = '"' ∨ c = '\'') : c.toNat ≤ 127 ∧ c.utf8Size = 1 := by
  obtain rfl | rfl := h <;> exact ⟨by decide, by decide⟩

theorem delimitedRound_inside {source : List Char} (rightSome : right ≠ []) (state : Unit)
    (pos : Nat) (b : UInt8) (tail : List UInt8) (h : AtByte (encode source) pos (b :: tail))
    (inside : ¬ b.IsUTF8FirstByte) :
    delimitedRound left right source state pos = .ok (.go (pos + 1) state) := by
  have wide : 127 < (asChar b).toNat := by
    rw [toNat_asChar]
    exact ge_of_not_first inside
  have noQuote : ¬ (asChar b = '"' ∨ asChar b = '\'') := by
    rintro (same | same)
    · exact ne_of_wide wide (by decide) same
    · exact ne_of_wide wide (by decide) same
  have noRight : ¬ (encode right).isPrefixOf (b :: tail) = true := by
    rw [isPrefixOf_inside rightSome tail inside]
    exact Bool.false_ne_true
  rw [delimitedRound, h.bytesAt, h.item]
  change (if _ then _ else if _ then _ else _) = _
  rw [if_neg noRight, if_neg noQuote]
  rfl

section Round

variable {source rest : List Char} {pos : Nat} {c : Char}

theorem delimitedRound_closes (h : At source pos rest) (closes : right.isPrefixOf rest = true) :
    delimitedRound left right source () pos = .ok (.done (some (pos + Text.bytes right))) := by
  rw [delimitedRound, h.bytes.bytesAt]
  exact if_pos ((isPrefixOf_encode right rest).trans closes)

/-- A byte that stands for a quote or for none is told from the character that it begins. -/
theorem delimitedRound_open (h : At source pos (c :: rest))
    (open_ : ¬ right.isPrefixOf (c :: rest) = true) :
    delimitedRound left right source () pos =
      if c = '"' ∨ c = '\'' then do
        match ← walkBytes (quoteAct false c) (encode source) () (pos + 1) with
        | some stop => return .go (stop + 1) ()
        | none =>
          let body ← suffixAt source (Text.bytes left)
          return .done ((find right body).map fun i => Text.bytes left + i + Text.bytes right)
      else .ok (.go (pos + 1) ()) := by
  obtain ⟨lead, conts, hc, -⟩ := encodeChar_eq_cons c
  have first := h.bytes
  have notHere := open_
  rw [← isPrefixOf_encode] at notHere
  rw [encode_cons, hc, List.cons_append] at first notHere
  rw [delimitedRound, first.bytesAt, first.item]
  change (if _ then _ else if _ then _ else _) = _
  rw [if_neg notHere]
  have quotes : (asChar lead = '"' ∨ asChar lead = '\'') ↔ (c = '"' ∨ c = '\'') :=
    or_congr (asChar_eq_iff hc (by decide)) (asChar_eq_iff hc (by decide))
  by_cases quote : c = '"' ∨ c = '\''
  · have own : asChar lead = c := (asChar_eq_iff hc (utf8Size_of_quote quote).1).mpr rfl
    rw [if_pos quote, if_pos (quotes.mpr quote), own]
  · rw [if_neg quote, if_neg (mt quotes.mp quote)]
    rfl

/-- A quote that closes is stepped over; one that never does is not honoured. -/
theorem delimitedRound_quote (h : At source pos (c :: rest)) (begins : source = left ++ body)
    (open_ : ¬ right.isPrefixOf (c :: rest) = true) (quote : c = '"' ∨ c = '\'') :
    delimitedRound left right source () pos =
      .ok (match walkChars (quoteAct false c) () rest with
        | some n => .go (pos + 1 + Text.bytes (rest.take n) + 1) ()
        | none => .done ((find right body).map
            fun i => Text.bytes left + i + Text.bytes right)) := by
  obtain ⟨small, one⟩ := utf8Size_of_quote quote
  have behind := h.next.bytes
  rw [one] at behind
  rw [delimitedRound_open h open_, if_pos quote,
    walkBytes_eq (passesWide_quoteAct false small) () behind]
  cases walkChars (quoteAct false c) () rest with
  | some n => rfl
  | none =>
    rw [begins]
    change (suffixAt (left ++ body) (Text.bytes left) >>= fun _ => _) = _
    rw [suffixAt_bytes]
    rfl

/-- The bytes inside of a character are stepped over one by one. -/
theorem loop_unquoted (rightSome : right ≠ []) (h : At source pos (c :: rest))
    (open_ : ¬ right.isPrefixOf (c :: rest) = true) (plain : ¬ (c = '"' ∨ c = '\'')) :
    loop (encode source).length (delimitedRound left right source) (fun _ _ => .ok none) () pos =
      loop (encode source).length (delimitedRound left right source) (fun _ _ => .ok none) ()
        (pos + c.utf8Size) := by
  have go : delimitedRound left right source () pos = _ := delimitedRound_open h open_
  rw [if_neg plain] at go
  obtain ⟨lead, conts, hc, size, -, inside⟩ := encodeChar_eq_cons c
  have first := h.bytes
  rw [encode_cons, hc, List.cons_append] at first
  rw [loop_go first.lt go (Nat.lt_succ_self _),
    loop_inside (delimitedRound_inside rightSome) inside first.next, Nat.add_assoc,
    Nat.add_comm 1, size]

end Round

theorem find_endOf? (left right body : List Char) :
    ((find right body).map fun i => Text.bytes left + i + Text.bytes right) =
      (Text.endOf? right body).map fun n => Text.bytes left + Text.bytes (body.take n) := by
  have found := congrArg (Option.map (Text.bytes left + ·)) (find_add right body)
  rw [Option.map_map, Option.map_map] at found
  rw [← Function.comp_def, ← found]
  congr 1
  funext i
  exact Nat.add_assoc _ _ _

/-- The bytes of a quoted text, its quotes included. -/
theorem bytes_quoted {quote : Char} {rest : List Char} {n : Nat} (one : quote.utf8Size = 1)
    (found : rest[n]? = some quote) :
    Text.bytes ((quote :: rest).take (n + 2)) = 1 + Text.bytes (rest.take n) + 1 := by
  rw [List.take_succ_cons, List.take_add_one, found, Option.toList_some, Text.bytes_cons,
    Text.bytes_append, Text.bytes_cons, one, Text.bytes_nil]
  omega

/-- From a character on, the delimited adapter finds by bytes what it finds by characters. -/
theorem loop_delimited {source : List Char} (rightSome : right ≠ [])
    (begins : source = left ++ body) {front rest : List Char} (whole : body = front ++ rest) :
    loop (encode source).length (delimitedRound left right source) (fun _ _ => .ok none) ()
        (Text.bytes left + Text.bytes front) =
      .ok ((delimitedFrom right body .outside front.length rest).map
        fun n => Text.bytes left + Text.bytes (body.take n)) := by
  induction hlen : rest.length using Nat.strongRecOn generalizing front rest with
  | ind len ih =>
    subst hlen
    have here : At source (Text.bytes left + Text.bytes front) rest :=
      ⟨left ++ front, by rw [begins, whole, List.append_assoc], by rw [Text.bytes_append]⟩
    cases rest with
    | nil => exact loop_finish here.bytes.stop
    | cons c rest =>
      have inside : Text.bytes left + Text.bytes front < (encode source).length := by
        rw [length_encode]
        exact here.lt
      have onward : ∀ n, body = (front ++ (c :: rest).take (n + 1)) ++ rest.drop n := by
        intro n
        rw [whole, List.append_assoc]
        exact congrArg (front ++ ·) (List.take_append_drop (n + 1) (c :: rest)).symm
      rw [delimitedFrom]
      split
      · next closes =>
        rw [loop_done inside (delimitedRound_closes here closes), Option.map_some, whole,
          List.take_length_add_append, Text.take_of_prefix closes, Text.bytes_append,
          Nat.add_assoc]
      · next open_ =>
        split
        · next quote =>
          have round := delimitedRound_quote here begins open_ quote
          rw [delimitedFrom_inside]
          cases walked : walkChars (quoteAct false c) () rest with
          | none =>
            rw [walked] at round
            rw [loop_done inside round, find_endOf?]
          | some n =>
            rw [walked] at round
            obtain ⟨last, d, found, close⟩ := walkChars_closes walked
            obtain rfl := quoteAct_close close
            obtain ⟨inRest, -⟩ := List.getElem?_eq_some_iff.mp found
            have shorter : (rest.drop (n + 1)).length < (d :: rest).length := by
              rw [List.length_drop, List.length_cons]
              omega
            have next := ih _ shorter (onward (n + 1)) rfl
            have length :
                (front ++ (d :: rest).take (n + 2)).length = front.length + 1 + n + 1 := by
              rw [List.length_append, List.length_take, List.length_cons]
              omega
            rw [Text.bytes_append, bytes_quoted (utf8Size_of_quote quote).2 found, length] at next
            rw [loop_go inside round (by omega)]
            simpa only [Nat.add_assoc] using next
        · next plain =>
          have next := ih _ (Nat.lt_succ_self _) (onward 0) rfl
          rw [List.take_succ_cons, List.take_zero, Text.bytes_append, Text.bytes_cons,
            Text.bytes_nil, Nat.add_zero, List.length_append, ← Nat.add_assoc] at next
          rw [loop_unquoted rightSome here open_ plain]
          exact next

end Delimited

section Measure

variable {left right source : List Char}

/-- By bytes a region reaches as far as by characters. -/
theorem measure_eq (adapter : Adapter) (leftSome : left ≠ []) (rightSome : right ≠ [])
    (begins : left.isPrefixOf source = true) :
    measure left right source adapter =
      .ok ((adapter.scan left right source).map fun n => Text.bytes (source.take n)) := by
  cases adapter with
  | nested =>
    have whole := loop_nested leftSome rightSome 0 (At.start source)
    simp only [Nat.zero_add] at whole
    exact whole
  | delimited =>
    obtain ⟨body, rfl⟩ := List.isPrefixOf_iff_prefix.mp begins
    have whole := loop_delimited rightSome (Eq.refl (left ++ body)) (List.nil_append body).symm
    rw [Text.bytes_nil, Nat.add_zero, List.length_nil] at whole
    rw [measure, delimited, whole, Adapter.scan]
    simp only [List.drop_left, Option.map_map]
    congr 2
    funext n
    rw [Function.comp, Nat.add_comm n, List.take_length_add_append, Text.bytes_append]

theorem scan_eq {t : Scanner} {rest : List Char} (h : t.opens rest = true) :
    scan t rest = .ok ((t.scan rest).map fun n => Text.bytes (rest.take n)) := by
  rw [Scanner.opens, Bool.and_eq_true] at h
  obtain ⟨leftSome, rightSome⟩ := Scanner.ne_nil_of_active h.1
  exact measure_eq t.adapter leftSome rightSome h.2

theorem nextOpen_eq (t : Scanner) (rest : List Char) :
    nextOpen t rest = (t.nextOpen? rest).map fun n => Text.bytes (rest.take n) := by
  rw [nextOpen, Scanner.nextOpen?]
  split <;> rfl

/-- The size of a region is at a character boundary, and the region ends with the right
delimiter, which does not overlap the left one. -/
theorem measure_ends (adapter : Adapter) {size : Nat} (leftSome : left ≠ [])
    (rightSome : right ≠ []) (begins : left.isPrefixOf source = true)
    (h : measure left right source adapter = .ok (some size)) :
    Text.bytes left + Text.bytes right ≤ size ∧ size ≤ Text.bytes source ∧
      ∃ inside, prefixAt source size = .ok (left ++ inside ++ right) := by
  rw [measure_eq adapter leftSome rightSome begins] at h
  obtain ⟨n, found, rfl⟩ := Option.map_eq_some_iff.mp (Except.ok.inj h)
  obtain ⟨m, le, rfl, closes⟩ := endsAfter_scan leftSome begins found
  obtain ⟨body, rfl⟩ := List.isPrefixOf_iff_prefix.mp begins
  obtain ⟨k, rfl⟩ := Nat.exists_eq_add_of_le le
  have region : (left ++ body).take (left.length + k + right.length) =
      left ++ body.take k ++ right := by
    rw [List.take_add, Text.take_of_prefix closes, List.take_length_add_append]
  have whole : left ++ body = (left ++ body.take k ++ right) ++
      (left ++ body).drop (left.length + k + right.length) := by
    rw [← region, List.take_append_drop]
  have bounds := congrArg Text.bytes whole
  rw [region]
  simp only [Text.bytes_append] at bounds ⊢
  refine ⟨by omega, by omega, body.take k, ?_⟩
  rw [whole]
  have cut := prefixAt_bytes (left ++ body.take k ++ right)
    ((left ++ body).drop (left.length + k + right.length))
  simpa only [Text.bytes_append] using cut

end Measure

end Mosaic.Bytewise
