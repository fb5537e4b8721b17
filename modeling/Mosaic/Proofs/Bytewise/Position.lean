import Mosaic.Proofs.Bytewise.Checked

/-! Lines looked up by search. The lines start at increasing offsets, the first one at zero; so an
offset that starts no line stands behind the start of some line, and neither the index of the line
nor the column falls below zero. -/
namespace Mosaic.Bytewise

/-- The index of an element of an increasing list, or the index at which it would stand. -/
def search (items : List Nat) (sought : Nat) : Except Nat Nat :=
  match items.idxOf? sought with
  | some index => .ok index
  | none => .error (items.countP (· < sought))

/-- The index of the last line that starts at or before `offset`. -/
def lineIndex (starts : List Nat) (offset : Nat) : Checked Nat :=
  match search starts offset with
  | .ok index => .ok index
  | .error index => minus index 1

def positionAt (l : Locator) (offset : Nat) : Checked Position := do
  let starts := 0 :: l.starts
  let line ← lineIndex starts offset
  let start ← item starts line
  let column ← minus offset start
  return if line = 0 then ⟨l.origin.line, l.origin.column + (column - l.origin.lead)⟩
    else ⟨l.origin.line + line, column⟩

def rangeAt (l : Locator) (start stop : Nat) : Checked Range := do
  let first ← positionAt l start
  let last ← positionAt l stop
  return ⟨⟨l.absolute start, l.absolute stop⟩, first, last⟩

def fail {α : Type} (grammar : Grammar) (l : Locator) (cause : Cause) (offset : Nat) :
    Checked α := do
  let position ← positionAt l offset
  .error (.failure ⟨grammar, cause, some position⟩)

/-- Lines start at increasing offsets. -/
abbrev Increasing (starts : List Nat) : Prop := starts.Pairwise (· < ·)

theorem lineStarts_behind (text : List Char) (offset : Nat) :
    ∀ start ∈ lineStarts offset text, offset < start := by
  induction text generalizing offset with
  | nil => exact fun _ mem => nomatch mem
  | cons c rest ih =>
    intro start mem
    have forward := Nat.lt_add_of_pos_right (n := offset) c.utf8Size_pos
    rw [lineStarts] at mem
    split at mem
    · obtain rfl | later := List.mem_cons.mp mem
      · exact forward
      · exact Nat.lt_trans forward (ih _ start later)
    · exact Nat.lt_trans forward (ih _ start mem)

theorem increasing_lineStarts (text : List Char) (offset : Nat) :
    Increasing (offset :: lineStarts offset text) := by
  refine List.pairwise_cons.mpr ⟨lineStarts_behind text offset, ?_⟩
  induction text generalizing offset with
  | nil => exact List.Pairwise.nil
  | cons c rest ih =>
    rw [lineStarts]
    split
    · exact List.pairwise_cons.mpr ⟨lineStarts_behind rest _, ih _⟩
    · exact ih _

theorem lineIndex_ahead {start offset : Nat} {starts : List Nat} (le : start ≤ offset)
    (ahead : ∀ next ∈ starts, offset < next) : lineIndex (start :: starts) offset = .ok 0 := by
  have none : starts.idxOf? offset = none := by
    rw [List.idxOf?_eq_none_iff]
    intro mem
    exact Nat.lt_irrefl _ (ahead _ mem)
  have count : starts.countP (· < offset) = 0 := by
    rw [List.countP_eq_zero]
    intro next mem
    have later := ahead next mem
    rw [decide_eq_true_eq]
    omega
  obtain rfl | lt := Nat.eq_or_lt_of_le le
  · rw [lineIndex, search, List.idxOf?_cons, beq_self_eq_true]
    rfl
  · rw [lineIndex, search, List.idxOf?_cons, beq_false_of_ne (Nat.ne_of_lt lt), none,
      List.countP_cons, count, decide_eq_true lt]
    rfl

theorem lineIndex_behind {start next offset : Nat} {starts : List Nat} {index : Nat}
    (lt : start < offset) (h : lineIndex (next :: starts) offset = .ok index) :
    lineIndex (start :: next :: starts) offset = .ok (index + 1) := by
  rw [lineIndex, search, List.idxOf?_cons, beq_false_of_ne (Nat.ne_of_lt lt)]
  rw [lineIndex, search] at h
  cases found : (next :: starts).idxOf? offset with
  | some i =>
    rw [found] at h
    obtain rfl := Except.ok.inj h
    rfl
  | none =>
    rw [found] at h
    have counted : minus ((next :: starts).countP (· < offset)) 1 = .ok index := h
    change minus ((start :: next :: starts).countP (· < offset)) 1 = _
    rw [List.countP_cons, decide_eq_true lt]
    rw [minus] at counted
    split at counted
    next le =>
      have value := Except.ok.inj counted
      rw [if_pos rfl, minus_add]
      exact congrArg Except.ok (by omega)
    next => cases counted

/-- The search finds the line that is reached from line to line. -/
theorem lineIndex_eq {start offset : Nat} {starts : List Nat} (line : Nat)
    (increasing : Increasing (start :: starts)) (le : start ≤ offset) :
    ∃ index from_, lineIndex (start :: starts) offset = .ok index ∧
      item (start :: starts) index = .ok from_ ∧ from_ ≤ offset ∧
      lineAt offset line start starts = (line + index, from_) := by
  induction starts generalizing start line with
  | nil => exact ⟨0, start, lineIndex_ahead le (fun _ mem => nomatch mem), rfl, le, rfl⟩
  | cons next starts ih =>
    obtain ⟨behind, later⟩ := List.pairwise_cons.mp increasing
    have forward := behind next List.mem_cons_self
    rw [lineAt]
    by_cases reached : next ≤ offset
    · obtain ⟨index, from_, found, at_, le', same⟩ := ih (line + 1) later reached
      rw [if_pos reached, same]
      refine ⟨index + 1, from_, lineIndex_behind (Nat.lt_of_lt_of_le forward reached) found, at_,
        le', ?_⟩
      rw [Nat.add_assoc, Nat.add_comm 1]
    · have ahead : ∀ other ∈ next :: starts, offset < other := by
        intro other mem
        obtain rfl | mem := List.mem_cons.mp mem
        · exact Nat.lt_of_not_le reached
        · exact Nat.lt_trans (Nat.lt_of_not_le reached) ((List.pairwise_cons.mp later).1 _ mem)
      rw [if_neg reached]
      exact ⟨0, start, lineIndex_ahead le ahead, rfl, le, rfl⟩

section

variable (text : List Char) (origin : Origin)

theorem positionAt_eq (offset : Nat) :
    positionAt (.ofText text origin) offset =
      .ok ((Locator.ofText text origin).position offset) := by
  obtain ⟨index, start, found, at_, le, same⟩ :=
    lineIndex_eq 0 (increasing_lineStarts text 0) (Nat.zero_le offset)
  rw [Nat.zero_add] at same
  rw [positionAt, Locator.position, Locator.ofText, found]
  change (item (0 :: lineStarts 0 text) index >>= fun _ => _) = _
  rw [at_]
  change (minus offset start >>= fun _ => _) = _
  rw [minus, if_pos le, same]
  rfl

theorem rangeAt_eq (start stop : Nat) :
    rangeAt (.ofText text origin) start stop =
      .ok ((Locator.ofText text origin).range start stop) := by
  rw [rangeAt, positionAt_eq, positionAt_eq]
  rfl

theorem fail_eq {α : Type} (grammar : Grammar) (cause : Cause) (offset : Nat) :
    (fail grammar (.ofText text origin) cause offset : Checked α) =
      .error (.failure ((Fault.mk cause offset).locate grammar (.ofText text origin))) := by
  rw [fail, positionAt_eq]
  rfl

end

end Mosaic.Bytewise
