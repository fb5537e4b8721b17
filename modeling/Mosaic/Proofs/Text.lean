import Mosaic.Text.Measure

/-! Where a word stands in a text. -/
namespace Mosaic.Text

theorem indexOf?_eq_none_iff {word s : List Char} : indexOf? word s = none ↔ ¬ word <:+: s := by
  induction s with
  | nil => cases word <;> simp [indexOf?]
  | cons c rest ih =>
    rw [indexOf?, List.infix_cons_iff, ← List.isPrefixOf_iff_prefix]
    split
    · next begins => simp [begins]
    · next later => simp [later, ih]

/-- The first occurrence of a word is one that begins nowhere sooner, so that it is not yet found
without its last character. -/
theorem indexOf?_before {word body : List Char} (nonempty : word ≠ [])
    (first : ¬ word <:+: body ++ word.dropLast) (rest : List Char) :
    indexOf? word (body ++ (word ++ rest)) = some body.length := by
  induction body with
  | nil =>
    have begins : word.isPrefixOf (word ++ rest) = true :=
      List.isPrefixOf_iff_prefix.mpr (List.prefix_append word rest)
    obtain ⟨c, more, rfl⟩ := List.exists_cons_of_ne_nil nonempty
    exact if_pos begins
  | cons c body ih =>
    rw [List.cons_append, List.infix_cons_iff, not_or] at first
    have later : ¬ word.isPrefixOf (c :: (body ++ (word ++ rest))) = true := by
      intro begins
      refine first.1 (List.prefix_of_prefix_length_le (List.isPrefixOf_iff_prefix.mp begins) ?_ ?_)
      · refine (List.prefix_append_right_inj (c :: body)).mpr ?_
        exact (List.dropLast_prefix word).trans (List.prefix_append word rest)
      · simp only [List.length_cons, List.length_append, List.length_dropLast]
        omega
    rw [List.cons_append, indexOf?, if_neg later, ih first.2]
    rfl

theorem exists_of_indexOf? {word s : List Char} {n : Nat} (nonempty : word ≠ [])
    (h : indexOf? word s = some n) :
    ∃ body rest, s = body ++ (word ++ rest) ∧ n = body.length ∧
      ¬ word <:+: body ++ word.dropLast := by
  induction s generalizing n with
  | nil =>
    rw [indexOf?, if_neg (by simpa using nonempty)] at h
    cases h
  | cons c rest ih =>
    rw [indexOf?] at h
    split at h
    · next begins =>
      cases h
      obtain ⟨behind, split⟩ := List.isPrefixOf_iff_prefix.mp begins
      refine ⟨[], behind, split.symm, rfl, fun inside => ?_⟩
      have short := inside.length_le
      have pos := List.length_pos_iff.mpr nonempty
      rw [List.nil_append, List.length_dropLast] at short
      omega
    · next later =>
      obtain ⟨m, found, rfl⟩ := Option.map_eq_some_iff.mp h
      obtain ⟨body, behind, rfl, rfl, first⟩ := ih found
      refine ⟨c :: body, behind, rfl, rfl, ?_⟩
      rw [List.cons_append, List.infix_cons_iff, not_or]
      refine ⟨fun begins => later (List.isPrefixOf_iff_prefix.mpr (begins.trans ?_)), first⟩
      refine (List.prefix_append_right_inj (c :: body)).mpr ?_
      exact (List.dropLast_prefix word).trans (List.prefix_append word behind)
theorem indexOf?_first {c : Char} {before : List Char} (after : List Char) (h : c ∉ before) :
    indexOf? [c] (before ++ c :: after) = some before.length := by
  refine indexOf?_before (List.cons_ne_nil c []) (fun inside => ?_) after
  rw [List.dropLast_singleton, List.append_nil] at inside
  exact h (inside.subset List.mem_cons_self)

theorem endOf?_first {c : Char} {before : List Char} (after : List Char) (h : c ∉ before) :
    endOf? [c] (before ++ c :: after) = some (before.length + 1) := by
  rw [endOf?, indexOf?_first after h]
  rfl

theorem bytes_pos {s : List Char} (h : s ≠ []) : 0 < bytes s := by
  cases s with
  | nil => exact absurd rfl h
  | cons c rest =>
    have pos := c.utf8Size_pos
    rw [bytes_cons]
    omega

theorem take_of_prefix {word s : List Char} (h : word.isPrefixOf s = true) :
    s.take word.length = word :=
  (List.prefix_iff_eq_take.mp (List.isPrefixOf_iff_prefix.mp h)).symm

theorem isPrefixOf_of_indexOf? {word s : List Char} {n : Nat} (h : indexOf? word s = some n) :
    word.isPrefixOf (s.drop n) = true := by
  induction s generalizing n with
  | nil =>
    cases word with
    | nil => rfl
    | cons => cases h
  | cons c rest ih =>
    rw [indexOf?] at h
    split at h
    next opens =>
      cases h
      exact opens
    next =>
      obtain ⟨m, found, rfl⟩ := Option.map_eq_some_iff.mp h
      exact ih found

theorem not_isPrefixOf_before {word s : List Char} {n k : Nat} (h : indexOf? word s = some n)
    (before : k < n) : word.isPrefixOf (s.drop k) = false := by
  induction s generalizing n k with
  | nil =>
    cases word with
    | nil =>
      cases h
      cases before
    | cons => cases h
  | cons c rest ih =>
    rw [indexOf?] at h
    split at h
    next =>
      cases h
      cases before
    next closed =>
      obtain ⟨m, found, rfl⟩ := Option.map_eq_some_iff.mp h
      cases k with
      | zero => exact Bool.eq_false_iff.mpr closed
      | succ k => exact ih found (Nat.lt_of_succ_lt_succ before)

theorem not_isPrefixOf_of_indexOf? {word s : List Char} (h : indexOf? word s = none) (k : Nat) :
    word.isPrefixOf (s.drop k) = false := by
  induction s generalizing k with
  | nil =>
    cases word with
    | nil => cases h
    | cons => cases k <;> rfl
  | cons c rest ih =>
    rw [indexOf?] at h
    split at h
    next => cases h
    next closed =>
      cases k with
      | zero => exact Bool.eq_false_iff.mpr closed
      | succ k => exact ih (Option.map_eq_none_iff.mp h) k

theorem isPrefixOf_append {word s : List Char} (more : List Char) (h : word.isPrefixOf s = true) :
    word.isPrefixOf (s ++ more) = true :=
  List.isPrefixOf_iff_prefix.mpr
    ((List.isPrefixOf_iff_prefix.mp h).trans (List.prefix_append s more))

theorem isPrefixOf_of_append {word s more : List Char} (h : word.isPrefixOf (s ++ more) = true)
    (fits : word.length ≤ s.length) : word.isPrefixOf s = true :=
  List.isPrefixOf_iff_prefix.mpr (List.prefix_of_prefix_length_le
    (List.isPrefixOf_iff_prefix.mp h) (List.prefix_append s more) fits)

theorem indexOf?_le {word s : List Char} {n : Nat} (h : indexOf? word s = some n) :
    n + word.length ≤ s.length := by
  induction s generalizing n with
  | nil =>
    cases word with
    | nil =>
      cases h
      exact Nat.le_refl 0
    | cons => cases h
  | cons c rest ih =>
    rw [indexOf?] at h
    split at h
    next opens =>
      cases h
      rw [Nat.zero_add]
      exact (List.isPrefixOf_iff_prefix.mp opens).length_le
    next =>
      obtain ⟨m, found, rfl⟩ := Option.map_eq_some_iff.mp h
      have fits := ih found
      rw [List.length_cons]
      omega

theorem endOf?_le {word s : List Char} {n : Nat} (h : endOf? word s = some n) : n ≤ s.length := by
  obtain ⟨m, found, rfl⟩ := Option.map_eq_some_iff.mp h
  exact indexOf?_le found

theorem indexOf?_append {word s : List Char} {n : Nat} (more : List Char)
    (h : indexOf? word s = some n) : indexOf? word (s ++ more) = some n := by
  induction s generalizing n with
  | nil =>
    cases word with
    | nil =>
      cases h
      cases more <;> rfl
    | cons => cases h
  | cons c rest ih =>
    rw [indexOf?] at h
    rw [List.cons_append, indexOf?]
    split at h
    · next opens =>
      cases h
      exact if_pos (isPrefixOf_append more opens)
    · next closed =>
      obtain ⟨m, found, rfl⟩ := Option.map_eq_some_iff.mp h
      have fits := indexOf?_le found
      have still : ¬ word.isPrefixOf (c :: (rest ++ more)) = true := by
        intro opens
        apply closed
        refine isPrefixOf_of_append (s := c :: rest) opens ?_
        rw [List.length_cons]
        omega
      rw [if_neg still, ih found]
      rfl

theorem endOf?_append {word s : List Char} {n : Nat} (more : List Char)
    (h : endOf? word s = some n) : endOf? word (s ++ more) = some n := by
  obtain ⟨m, found, rfl⟩ := Option.map_eq_some_iff.mp h
  rw [endOf?, indexOf?_append more found]
  rfl

theorem length_of_grown {word s : List Char} {last : Char} (short : ¬ word.isPrefixOf s = true)
    (h : word.isPrefixOf (s ++ [last]) = true) : word.length = s.length + 1 := by
  have le := (List.isPrefixOf_iff_prefix.mp h).length_le
  rw [List.length_append, List.length_singleton] at le
  have long : ¬ word.length ≤ s.length := fun fits => short (isPrefixOf_of_append h fits)
  omega

/-- In `s` and what follows it, each `word` stands in `s`. -/
def Apart (word s more : List Char) : Prop :=
  ∀ k, word.isPrefixOf ((s ++ more).drop k) = true → k + word.length ≤ s.length

namespace Apart

variable {word s more : List Char}

theorem drop {n : Nat} (h : Apart word s more) (le : n ≤ s.length) :
    Apart word (s.drop n) more := by
  intro k begins
  rw [← List.drop_append_of_le_length le, List.drop_drop] at begins
  have fits := h (n + k) begins
  rw [List.length_drop]
  omega

theorem tail {c : Char} {rest : List Char} (h : Apart word (c :: rest) more) :
    Apart word rest more :=
  h.drop (n := 1) (Nat.succ_le_succ (Nat.zero_le _))

theorem isPrefixOf_append (h : Apart word s more) :
    word.isPrefixOf (s ++ more) = word.isPrefixOf s := by
  rw [Bool.eq_iff_iff]
  constructor
  · intro begins
    have fits := h 0 begins
    rw [Nat.zero_add] at fits
    exact isPrefixOf_of_append begins fits
  · intro begins
    exact Text.isPrefixOf_append more begins

theorem indexOf?_append (h : Apart word s more) : indexOf? word (s ++ more) = indexOf? word s := by
  cases found : indexOf? word s with
  | some n => exact Text.indexOf?_append more found
  | none =>
    cases later : indexOf? word (s ++ more) with
    | none => rfl
    | some n =>
      have begins := isPrefixOf_of_indexOf? later
      have le := Nat.le_trans (Nat.le_add_right _ _) (h n begins)
      rw [List.drop_append_of_le_length le, (h.drop le).isPrefixOf_append,
        not_isPrefixOf_of_indexOf? found] at begins
      cases begins

end Apart

theorem take_length_takeWhile (p : Char → Bool) (s : List Char) :
    s.take (s.takeWhile p).length = s.takeWhile p :=
  (List.prefix_iff_eq_take.mp (List.takeWhile_prefix p)).symm

theorem drop_length_takeWhile (p : Char → Bool) (s : List Char) :
    s.drop (s.takeWhile p).length = s.dropWhile p := by
  have whole : s.takeWhile p ++ s.drop (s.takeWhile p).length = s.takeWhile p ++ s.dropWhile p := by
    rw [List.takeWhile_append_dropWhile]
    calc s.takeWhile p ++ s.drop (s.takeWhile p).length
        = s.take (s.takeWhile p).length ++ s.drop (s.takeWhile p).length := by
          rw [take_length_takeWhile]
      _ = s := List.take_append_drop _ s
  exact List.append_cancel_left whole

theorem takeWhile_reverse_append_of_not_mem {α : Type} [DecidableEq α] {mark : α} {back : List α}
    (front : List α) (h : mark ∉ back) :
    (front ++ back).reverse.takeWhile (· ≠ mark) =
      back.reverse ++ front.reverse.takeWhile (· ≠ mark) := by
  rw [List.reverse_append, List.takeWhile_append_of_pos]
  intro a mem
  rw [decide_eq_true_eq]
  rintro rfl
  exact h (List.mem_reverse.mp mem)

theorem takeWhile_reverse_append_of_mem {α : Type} [DecidableEq α] {mark : α} {back : List α}
    (front : List α) (h : mark ∈ back) :
    (front ++ back).reverse.takeWhile (· ≠ mark) = back.reverse.takeWhile (· ≠ mark) := by
  have stops : (back.reverse.takeWhile (· ≠ mark)).length ≠ back.reverse.length := by
    intro len
    have whole := (List.takeWhile_prefix _).eq_of_length len
    have mem : mark ∈ back.reverse.takeWhile (· ≠ mark) := by
      rw [whole]
      exact List.mem_reverse.mpr h
    have other := List.all_eq_true.mp List.all_takeWhile _ mem
    exact of_decide_eq_true other rfl
  rw [List.reverse_append, List.takeWhile_append, if_neg stops]

/-- What a span takes ends where a character does not belong to it, or with the text. -/
theorem length_takeWhile_append {p : Char → Bool} {front back : List Char} :
    ((front ++ back).takeWhile p).length = front.length ↔
      (∀ c ∈ front, p c = true) ∧ ∀ c, back.head? = some c → p c = false := by
  induction front with
  | nil =>
    cases back with
    | nil => simp
    | cons c rest => simp [List.takeWhile_cons]
  | cons c rest ih =>
    rw [List.cons_append, List.takeWhile_cons, List.forall_mem_cons, and_assoc]
    by_cases inside : p c = true
    · simp only [inside, if_true, List.length_cons, Nat.add_right_cancel_iff, ih, true_and]
    · simp [inside]

theorem bytes_take_le (s : List Char) {i j : Nat} (h : i ≤ j) :
    bytes (s.take i) ≤ bytes (s.take j) := by
  obtain ⟨k, rfl⟩ := Nat.exists_eq_add_of_le h
  rw [List.take_add, bytes_append]
  exact Nat.le_add_right _ _

end Mosaic.Text
