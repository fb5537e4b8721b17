import Mosaic.Proofs.Text
import Mosaic.Template.Scanner

/-! What an adapter measures: a region begins with the left delimiter, ends with the right one,
and these two do not overlap. -/
namespace Mosaic.Template

variable {left right body source : List Char}

/-- The first `n` characters of `s` end with `word`, which begins behind the first `before`. -/
def EndsAfter (word s : List Char) (before n : Nat) : Prop :=
  ∃ m, before ≤ m ∧ n = m + word.length ∧ word.isPrefixOf (s.drop m) = true

theorem EndsAfter.cons {word rest : List Char} {before n : Nat} (c : Char)
    (h : EndsAfter word rest before n) : EndsAfter word (c :: rest) (before + 1) (n + 1) := by
  obtain ⟨m, le, last, closes⟩ := h
  exact ⟨m + 1, Nat.succ_le_succ le, by omega, closes⟩

theorem EndsAfter.anywhere {word s : List Char} {before n : Nat} (h : EndsAfter word s before n) :
    EndsAfter word s 0 n := by
  obtain ⟨m, -, last, closes⟩ := h
  exact ⟨m, Nat.zero_le m, last, closes⟩

theorem endsAfter_endOf? {n : Nat} (h : Text.endOf? right body = some n) :
    EndsAfter right body 0 n := by
  obtain ⟨m, found, rfl⟩ := Option.map_eq_some_iff.mp h
  exact ⟨m, Nat.zero_le m, rfl, Text.isPrefixOf_of_indexOf? found⟩

theorem endsAfter_delimitedFrom {quoting : Quoting} {passed n : Nat} {front rest : List Char}
    (whole : body = front ++ rest) (length : front.length = passed)
    (h : delimitedFrom right body quoting passed rest = some n) : EndsAfter right body 0 n := by
  have later : ∀ {c : Char} {rest : List Char} {front : List Char} {passed : Nat},
      body = front ++ c :: rest → front.length = passed →
        body = (front ++ [c]) ++ rest ∧ (front ++ [c]).length = passed + 1 := by
    intro c rest front passed whole length
    rw [List.append_assoc, List.length_append, length]
    exact ⟨whole, rfl⟩
  fun_induction delimitedFrom right body quoting passed rest generalizing front with
  | case1 => cases h
  | case2 => exact endsAfter_endOf? h
  | case3 => exact endsAfter_endOf? h
  | case4 passed c rest closes =>
    cases h
    subst length
    refine ⟨front.length, Nat.zero_le _, rfl, ?_⟩
    rw [whole, List.drop_left]
    exact closes
  | case5 passed c rest _ _ ih => exact ih (later whole length).1 (later whole length).2 h
  | case6 passed c rest _ _ ih => exact ih (later whole length).1 (later whole length).2 h
  | case7 quote passed rest ih => exact ih (later whole length).1 (later whole length).2 h
  | case8 passed c rest _ ih => exact ih (later whole length).1 (later whole length).2 h
  | case9 quote passed c rest _ _ ih => exact ih (later whole length).1 (later whole length).2 h
  | case10 quote passed c rest ih => exact ih (later whole length).1 (later whole length).2 h

theorem endsAfter_nestedFrom {depth skip n : Nat} {rest : List Char}
    (h : nestedFrom left right depth skip rest = some n) : EndsAfter right rest skip n := by
  fun_induction nestedFrom left right depth skip rest generalizing n with
  | case1 => cases h
  | case2 depth skip c rest ih =>
    obtain ⟨m, found, rfl⟩ := Option.map_eq_some_iff.mp h
    exact (ih found).cons c
  | case3 depth c rest _ ih =>
    obtain ⟨m, found, rfl⟩ := Option.map_eq_some_iff.mp h
    exact ((ih found).cons c).anywhere
  | case4 depth c rest _ closes =>
    cases h
    exact ⟨0, Nat.le_refl 0, (Nat.zero_add _).symm, closes⟩
  | case5 depth c rest _ _ _ ih =>
    obtain ⟨m, found, rfl⟩ := Option.map_eq_some_iff.mp h
    exact ((ih found).cons c).anywhere
  | case6 depth c rest _ _ ih =>
    obtain ⟨m, found, rfl⟩ := Option.map_eq_some_iff.mp h
    exact ((ih found).cons c).anywhere

/-- A region that ends in a text ends there in a longer text too, or it reaches to the end of
that: the character behind the text may belong to a right delimiter. -/
theorem delimitedFrom_append {quoting : Quoting} {passed n : Nat} {rest : List Char} {last : Char}
    (plain : ¬ (last = '"' ∨ last = '\''))
    (outside : ∀ quote, quoting = .inside quote ∨ quoting = .escaped quote → last ≠ quote)
    (length : passed + rest.length = body.length)
    (h : delimitedFrom right body quoting passed rest = some n) :
    ∃ m, delimitedFrom right (body ++ [last]) quoting passed (rest ++ [last]) = some m ∧
      (m = n ∨ m = body.length + 1) := by
  fun_induction delimitedFrom right body quoting passed rest with
  | case1 => cases h
  | case2 quote passed =>
    have other : last ≠ quote := outside quote (.inl rfl)
    refine ⟨n, ?_, .inl rfl⟩
    simp only [List.nil_append, delimitedFrom, other, if_false, ite_self]
    exact Text.endOf?_append [last] h
  | case3 quote passed => exact ⟨n, Text.endOf?_append [last] h, .inl rfl⟩
  | case4 passed c rest closes =>
    refine ⟨n, ?_, .inl rfl⟩
    rw [List.cons_append, delimitedFrom, ← List.cons_append,
      if_pos (Text.isPrefixOf_append [last] closes)]
    exact h
  | case5 passed c rest closed isQuote ih =>
    rw [List.length_cons] at length
    rw [List.cons_append, delimitedFrom]
    split
    · next closes =>
      have long := Text.length_of_grown closed closes
      rw [List.length_cons] at long
      exact ⟨_, rfl, .inr (by omega)⟩
    · apply ih _ (by omega) h
      intro quote same
      cases same with
      | inl same =>
        cases same
        rintro rfl
        exact plain isQuote
      | inr same => cases same
  | case6 passed c rest closed notQuote ih =>
    rw [List.length_cons] at length
    rw [List.cons_append, delimitedFrom]
    split
    · next closes =>
      have long := Text.length_of_grown closed closes
      rw [List.length_cons] at long
      exact ⟨_, rfl, .inr (by omega)⟩
    · exact ih outside (by omega) h
  | case7 quote passed rest ih =>
    rw [List.length_cons] at length
    rw [List.cons_append, delimitedFrom, if_pos rfl]
    exact ih (fun other same => outside other (.inl (by simpa using same))) (by omega) h
  | case8 passed c rest notEscape ih =>
    rw [List.length_cons] at length
    rw [List.cons_append, delimitedFrom, if_neg notEscape, if_pos rfl]
    exact ih (fun other same => by simp at same) (by omega) h
  | case9 quote passed c rest notEscape notQuote ih =>
    rw [List.length_cons] at length
    rw [List.cons_append, delimitedFrom, if_neg notEscape, if_neg notQuote]
    exact ih outside (by omega) h
  | case10 quote passed c rest ih =>
    rw [List.length_cons] at length
    rw [List.cons_append, delimitedFrom]
    exact ih (fun other same => outside other (.inr (by simpa using same))) (by omega) h

/-- A nested region ends in a longer text where it ends in the text, if no left delimiter reaches
behind that. -/
theorem nestedFrom_append {depth skip n : Nat} {rest : List Char} (more : List Char)
    (apart : Text.Apart left rest more) (h : nestedFrom left right depth skip rest = some n) :
    nestedFrom left right depth skip (rest ++ more) = some n := by
  fun_induction nestedFrom left right depth skip rest generalizing n with
  | case1 => cases h
  | case2 depth skip c rest ih =>
    obtain ⟨m, found, rfl⟩ := Option.map_eq_some_iff.mp h
    rw [List.cons_append, nestedFrom, ih apart.tail found]
    rfl
  | case3 depth c rest opens ih =>
    obtain ⟨m, found, rfl⟩ := Option.map_eq_some_iff.mp h
    rw [List.cons_append, nestedFrom, ← List.cons_append,
      if_pos (Text.isPrefixOf_append more opens), ih apart.tail found]
    rfl
  | case4 depth c rest closed closes last =>
    rw [← apart.isPrefixOf_append] at closed
    rw [List.cons_append, nestedFrom, ← List.cons_append, if_neg closed,
      if_pos (Text.isPrefixOf_append more closes), if_pos last]
    exact h
  | case5 depth c rest closed closes inner ih =>
    obtain ⟨m, found, rfl⟩ := Option.map_eq_some_iff.mp h
    rw [← apart.isPrefixOf_append] at closed
    rw [List.cons_append, nestedFrom, ← List.cons_append, if_neg closed,
      if_pos (Text.isPrefixOf_append more closes), if_neg inner, ih apart.tail found]
    rfl
  | case6 depth c rest closed unclosed ih =>
    obtain ⟨m, found, rfl⟩ := Option.map_eq_some_iff.mp h
    obtain ⟨k, -, last, closes⟩ := endsAfter_nestedFrom found
    -- the region ends in the text, so the right delimiter is too short to reach behind it
    have fits := (List.isPrefixOf_iff_prefix.mp closes).length_le
    rw [List.length_drop] at fits
    have notYet : ¬ right.isPrefixOf ((c :: rest) ++ more) = true := by
      intro closes
      apply unclosed
      apply Text.isPrefixOf_of_append closes
      rw [List.length_cons]
      omega
    rw [← apart.isPrefixOf_append] at closed
    rw [List.cons_append, nestedFrom, ← List.cons_append, if_neg closed,
      if_neg notYet, ih apart.tail found]
    rfl

/-- A region begins with the left delimiter and ends with the right one behind it. -/
theorem endsAfter_scan {adapter : Adapter} {n : Nat} (leftSome : left ≠ [])
    (begins : left.isPrefixOf source = true) (h : adapter.scan left right source = some n) :
    EndsAfter right source left.length n := by
  cases adapter with
  | delimited =>
    obtain ⟨m, found, rfl⟩ := Option.map_eq_some_iff.mp h
    obtain ⟨k, -, rfl, closes⟩ := endsAfter_delimitedFrom (List.nil_append _).symm rfl found
    refine ⟨left.length + k, Nat.le_add_right _ _, by omega, ?_⟩
    rwa [List.drop_drop] at closes
  | nested =>
    cases source with
    | nil =>
      cases left with
      | nil => exact absurd rfl leftSome
      | cons => cases begins
    | cons c rest =>
      have notEmpty := List.length_pos_iff.mpr leftSome
      rw [Adapter.scan, nestedFrom, if_pos begins] at h
      obtain ⟨m, found, rfl⟩ := Option.map_eq_some_iff.mp h
      obtain ⟨k, le, rfl, closes⟩ := endsAfter_nestedFrom found
      exact ⟨k + 1, by omega, by omega, closes⟩

theorem Scanner.ne_nil_of_active {t : Scanner} (h : t.active = true) :
    t.left ≠ [] ∧ t.right ≠ [] := by
  rw [Scanner.active, Bool.and_eq_true, Bool.not_eq_true', Bool.not_eq_true'] at h
  exact ⟨List.isEmpty_eq_false_iff.mp h.1, List.isEmpty_eq_false_iff.mp h.2⟩

theorem Scanner.scan_bounds {t : Scanner} {s : List Char} {n : Nat} (opens : t.opens s = true)
    (h : t.scan s = some n) : 2 ≤ n ∧ n ≤ s.length := by
  rw [Scanner.opens, Bool.and_eq_true] at opens
  obtain ⟨leftSome, rightSome⟩ := ne_nil_of_active opens.1
  obtain ⟨m, behind, rfl, closes⟩ := endsAfter_scan leftSome opens.2 h
  have leftPos := List.length_pos_iff.mpr leftSome
  have rightPos := List.length_pos_iff.mpr rightSome
  have le := (List.isPrefixOf_iff_prefix.mp closes).length_le
  rw [List.length_drop] at le
  omega

theorem Scanner.scanAfter_spec {t : Scanner} {c : Char} {rest : List Char} {n : Nat}
    (opens : t.opens (c :: rest) = true) (h : t.scanAfter c rest = some n) :
    t.scan (c :: rest) = some (n + 1) ∧ 1 ≤ n ∧ n ≤ rest.length := by
  obtain ⟨m, found, rfl⟩ := Option.map_eq_some_iff.mp h
  have bounds := scan_bounds opens found
  rw [List.length_cons] at bounds
  refine ⟨?_, by omega, by omega⟩
  rw [found]
  exact congrArg some (by omega)

namespace Scanner

variable {t : Scanner} {s more : List Char}

theorem opens_of_nextOpen? {n : Nat} (h : t.nextOpen? s = some n) :
    t.opens (s.drop n) = true ∧ ∀ k < n, t.opens (s.drop k) = false := by
  rw [nextOpen?] at h
  split at h
  next active =>
    constructor
    · rw [opens, active, Text.isPrefixOf_of_indexOf? h]
      rfl
    · intro k before
      rw [opens, Text.not_isPrefixOf_before h before, Bool.and_false]
  next => cases h

theorem nextOpen?_le {n : Nat} (h : t.nextOpen? s = some n) : n ≤ s.length := by
  rw [nextOpen?] at h
  split at h
  · exact Nat.le_trans (Nat.le_add_right _ _) (Text.indexOf?_le h)
  · cases h

theorem not_opens_of_nextOpen? (h : t.nextOpen? s = none) (k : Nat) :
    t.opens (s.drop k) = false := by
  rw [nextOpen?] at h
  rw [opens]
  split at h
  next => rw [Text.not_isPrefixOf_of_indexOf? h, Bool.and_false]
  next inactive => rw [Bool.eq_false_iff.mpr inactive, Bool.false_and]

theorem nextOpen?_cons {c : Char} {rest : List Char} (closed : ¬ t.opens (c :: rest) = true) :
    t.nextOpen? (c :: rest) = (t.nextOpen? rest).map (· + 1) := by
  rw [opens, Bool.and_eq_true] at closed
  rw [nextOpen?, nextOpen?]
  by_cases active : t.active = true
  · rw [if_pos active, if_pos active, Text.indexOf?,
      if_neg fun begins => closed ⟨active, begins⟩]
  · rw [if_neg active, if_neg active]
    rfl

theorem not_opens_nil (t : Scanner) : t.opens [] = false := by
  rw [Bool.eq_false_iff]
  intro opens
  rw [Scanner.opens, Bool.and_eq_true] at opens
  exact (ne_nil_of_active opens.1).1 (List.prefix_nil.mp (List.isPrefixOf_iff_prefix.mp opens.2))

theorem nextOpen?_nil (t : Scanner) : t.nextOpen? [] = none := by
  cases found : t.nextOpen? [] with
  | none => rfl
  | some n =>
    have opens := (opens_of_nextOpen? found).1
    rw [List.drop_nil, not_opens_nil] at opens
    cases opens

theorem nextOpen?_of_opens (opens : t.opens s = true) : t.nextOpen? s = some 0 := by
  cases s with
  | nil => exact nomatch (not_opens_nil t).symm.trans opens
  | cons c rest =>
    rw [Scanner.opens, Bool.and_eq_true] at opens
    rw [nextOpen?, if_pos opens.1]
    exact if_pos opens.2

/-- In `s` and what follows it, all left delimiters stand in `s`. -/
def Apart (t : Scanner) (s more : List Char) : Prop :=
  t.active = true → Text.Apart t.left s more

theorem Apart.drop {n : Nat} (h : t.Apart s more) (le : n ≤ s.length) : t.Apart (s.drop n) more :=
  fun active => (h active).drop le

theorem Apart.opens_append (h : t.Apart s more) : t.opens (s ++ more) = t.opens s := by
  rw [opens, opens]
  by_cases active : t.active = true
  · rw [(h active).isPrefixOf_append]
  · rw [Bool.eq_false_iff.mpr active, Bool.false_and, Bool.false_and]

theorem Apart.nextOpen?_append (h : t.Apart s more) :
    t.nextOpen? (s ++ more) = t.nextOpen? s := by
  rw [nextOpen?, nextOpen?]
  by_cases active : t.active = true
  · rw [if_pos active, if_pos active, (h active).indexOf?_append]
  · rw [if_neg active, if_neg active]

/-- The region at the front of a text ends where it ends if one more character follows, unless
that belongs to the right delimiter. -/
theorem Apart.scan_append {last : Char} {n : Nat} (h : t.Apart s [last])
    (plain : ¬ (last = '"' ∨ last = '\'')) (opens : t.opens s = true) (found : t.scan s = some n) :
    ∃ m, t.scan (s ++ [last]) = some m ∧ (m = n ∨ m = s.length + 1) := by
  rw [Scanner.opens, Bool.and_eq_true] at opens
  have long := (List.isPrefixOf_iff_prefix.mp opens.2).length_le
  unfold scan at found ⊢
  cases kind : t.adapter with
  | delimited =>
    rw [kind] at found
    obtain ⟨size, measured, rfl⟩ := Option.map_eq_some_iff.mp found
    obtain ⟨m, grown, same⟩ := delimitedFrom_append plain
      (fun quote same => by rcases same with same | same <;> cases same)
      (Nat.zero_add _) measured
    rw [← List.drop_append_of_le_length long] at grown
    refine ⟨m + t.left.length, Option.map_eq_some_iff.mpr ⟨m, grown, rfl⟩, ?_⟩
    rw [List.length_drop] at same
    omega
  | nested =>
    rw [kind] at found
    exact ⟨n, nestedFrom_append [last] (h opens.1) found, .inl rfl⟩

end Scanner

end Mosaic.Template
