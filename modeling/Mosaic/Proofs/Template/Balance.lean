import Mosaic.Proofs.Template

/-! How far a nested region extends. What stands between its delimiters is text, in which neither
delimiter begins, and regions of the same form. The scan keeps nothing of that form but how many
regions are open, and it still ends where the form does: delimiters that differ enough cannot be
mistaken for each other, nor reach over the end of a region. -/
namespace Mosaic.Template

/-- A text in front of `behind` in which neither delimiter begins. -/
inductive Free (left right behind : List Char) : List Char → Prop
  | nil : Free left right behind []
  | cons {c : Char} {text : List Char} : ¬ left <+: c :: (text ++ behind) →
    ¬ right <+: c :: (text ++ behind) → Free left right behind text →
    Free left right behind (c :: text)

/-- What stands, in front of `behind`, between the delimiters of a region: a text, or a text and a
region with more of the same kind after it. -/
inductive Between (left right : List Char) : (behind body : List Char) → Prop
  | text {behind text : List Char} : Free left right behind text → Between left right behind text
  | region {behind text inner more : List Char} :
    Free left right (left ++ inner ++ right ++ more ++ behind) text →
    Between left right (right ++ (more ++ behind)) inner → Between left right behind more →
    Between left right behind (text ++ (left ++ inner ++ right) ++ more)

/-- A region in front of `behind`: two delimiters and what stands between them. -/
def Balanced (left right behind region : List Char) : Prop :=
  ∃ body, region = left ++ body ++ right ∧ Between left right (right ++ behind) body

/-- The first `n` bytes of a text are a region. -/
def Spans (left right source : List Char) (n : Nat) : Prop :=
  ∃ region behind, source = region ++ behind ∧ Text.bytes region = n ∧
    Balanced left right behind region

/-- Delimiters that cannot be mistaken for each other. Neither of them is empty then, since the
empty text begins every text and stands in every text. -/
structure Distinct (left right : List Char) : Prop where
  apart : ¬ right <:+: left
  begins : ¬ left <+: right

variable {left right behind body : List Char}

namespace Distinct

theorem left_ne_nil (h : Distinct left right) : left ≠ [] := by
  rintro rfl
  exact h.begins List.nil_prefix

theorem right_ne_nil (h : Distinct left right) : right ≠ [] := by
  rintro rfl
  exact h.apart List.nil_infix

/-- Where a right delimiter stands no left one begins. -/
theorem not_prefix (h : Distinct left right) (rest : List Char) : ¬ left <+: right ++ rest := by
  intro begins
  rcases List.prefix_or_prefix_of_prefix begins (List.prefix_append right rest) with short | long
  · exact h.begins short
  · exact h.apart long.isInfix

/-- In front of a right delimiter, what is read behind that delimiter makes no difference. -/
theorem prefix_iff (h : Distinct left right) {word : List Char}
    (delimiter : word = left ∨ word = right) (text rest : List Char) :
    word <+: text ++ (right ++ rest) ↔ word <+: text ++ right := by
  rw [← List.append_assoc]
  constructor
  · intro begins
    rcases List.prefix_or_prefix_of_prefix begins (List.prefix_append (text ++ right) rest) with
      short | long
    · exact short
    · rcases delimiter with rfl | rfl
      · exact absurd ((List.suffix_append text right).isInfix.trans long.isInfix) h.apart
      · have same : text ++ word = word := by
          refine long.eq_of_length_le ?_
          rw [List.length_append]
          exact Nat.le_add_left _ _
        exact ⟨[], by rw [List.append_nil, same]⟩
  · exact fun begins => begins.trans (List.prefix_append _ rest)

end Distinct

theorem Free.behind_right (distinct : Distinct left right) (ahead : List Char) {text : List Char}
    (h : Free left right (ahead ++ (right ++ behind)) text) (other : List Char) :
    Free left right (ahead ++ (right ++ other)) text := by
  have same : ∀ {word c text}, word = left ∨ word = right →
      ¬ word <+: c :: (text ++ (ahead ++ (right ++ behind))) →
        ¬ word <+: c :: (text ++ (ahead ++ (right ++ other))) := by
    intro word c text delimiter closed begins
    rw [← List.append_assoc, ← List.cons_append, distinct.prefix_iff delimiter] at closed begins
    exact closed begins
  induction h with
  | nil => exact .nil
  | cons unopened unclosed _ ih =>
    exact .cons (same (.inl rfl) unopened) (same (.inr rfl) unclosed) ih

namespace Between

/-- What is read behind the right delimiter makes no difference between the delimiters. -/
theorem behind_right (distinct : Distinct left right)
    (h : Between left right (right ++ behind) body) (other : List Char) :
    Between left right (right ++ other) body := by
  generalize whole : right ++ behind = rest at h
  induction h generalizing behind other with
  | text free =>
    subst whole
    exact .text (free.behind_right distinct [] other)
  | @region rest text inner more free _ _ nested later =>
    subst whole
    refine .region ?_ (nested (more ++ (right ++ other)) rfl) (later other rfl)
    exact free.behind_right distinct _ other

theorem cons {c : Char} (unopened : ¬ left <+: c :: (body ++ behind))
    (unclosed : ¬ right <+: c :: (body ++ behind)) (h : Between left right behind body) :
    Between left right behind (c :: body) := by
  cases h with
  | text free => exact .text (.cons unopened unclosed free)
  | @region _ text inner more free nested later =>
    have whole : text ++ (left ++ inner ++ right) ++ more ++ behind =
        text ++ (left ++ inner ++ right ++ more ++ behind) := by
      simp only [List.append_assoc]
    rw [whole] at unopened unclosed
    exact .region (.cons unopened unclosed free) nested later

end Between

theorem Balanced.before (distinct : Distinct left right) {region : List Char}
    (h : Balanced left right behind region) (other : List Char) :
    Balanced left right other region := by
  obtain ⟨body, rfl, between⟩ := h
  exact ⟨body, rfl, between.behind_right distinct other⟩

theorem nestedFrom_skip (left right : List Char) (depth : Nat) (front rest : List Char) :
    nestedFrom left right depth front.length (front ++ rest) =
      (nestedFrom left right depth 0 rest).map (· + front.length) := by
  induction front with
  | nil => exact Option.map_id'.symm
  | cons c front ih =>
    rw [List.length_cons, List.cons_append, nestedFrom, ih, Option.map_map]
    rfl

theorem nestedFrom_left (leftSome : left ≠ []) (right : List Char) (depth : Nat)
    (rest : List Char) :
    nestedFrom left right depth 0 (left ++ rest) =
      (nestedFrom left right (depth + 1) 0 rest).map (· + left.length) := by
  have opens : left.isPrefixOf (left ++ rest) = true :=
    List.isPrefixOf_iff_prefix.mpr (List.prefix_append left rest)
  cases left with
  | nil => exact absurd rfl leftSome
  | cons c tail =>
    rw [List.cons_append] at opens ⊢
    rw [nestedFrom, if_pos opens, List.length_cons, Nat.add_sub_cancel, nestedFrom_skip,
      Option.map_map]
    rfl

/-- A right delimiter closes one region. -/
theorem nestedFrom_right (distinct : Distinct left right) (depth : Nat) (rest : List Char) :
    nestedFrom left right depth 0 (right ++ rest) =
      if depth ≤ 1 then some right.length
      else (nestedFrom left right (depth - 1) 0 rest).map (· + right.length) := by
  have closes : right.isPrefixOf (right ++ rest) = true :=
    List.isPrefixOf_iff_prefix.mpr (List.prefix_append right rest)
  have unopened := distinct.not_prefix rest
  have rightSome := distinct.right_ne_nil
  rw [← List.isPrefixOf_iff_prefix] at unopened
  cases right with
  | nil => exact absurd rfl rightSome
  | cons c tail =>
    rw [List.cons_append] at closes unopened ⊢
    rw [nestedFrom, if_neg unopened, if_pos closes, List.isEmpty_cons, List.length_cons,
      Nat.add_sub_cancel, nestedFrom_skip, Option.map_map]
    simp only [Bool.false_eq_true, or_false]
    rfl

theorem nestedFrom_plain {c : Char} {rest : List Char} (unopened : ¬ left <+: c :: rest)
    (unclosed : ¬ right <+: c :: rest) (depth : Nat) :
    nestedFrom left right depth 0 (c :: rest) =
      (nestedFrom left right depth 0 rest).map (· + 1) := by
  rw [← List.isPrefixOf_iff_prefix] at unopened unclosed
  rw [nestedFrom, if_neg unopened, if_neg unclosed]

theorem nestedFrom_free {text : List Char} (h : Free left right behind text) (depth : Nat) :
    nestedFrom left right depth 0 (text ++ behind) =
      (nestedFrom left right depth 0 behind).map (· + text.length) := by
  induction h with
  | nil => exact Option.map_id'.symm
  | cons unopened unclosed _ ih =>
    rw [List.cons_append, nestedFrom_plain unopened unclosed, ih, Option.map_map]
    rfl

/-- A scan passes what stands between two delimiters, however many regions are open around it. -/
theorem nestedFrom_between (distinct : Distinct left right) (h : Between left right behind body)
    (depth : Nat) :
    nestedFrom left right (depth + 1) 0 (body ++ behind) =
      (nestedFrom left right (depth + 1) 0 behind).map (· + body.length) := by
  induction h generalizing depth with
  | text free => exact nestedFrom_free free (depth + 1)
  | @region behind text inner more free _ _ nested later =>
    have whole : text ++ (left ++ inner ++ right) ++ more ++ behind =
        text ++ (left ++ inner ++ right ++ more ++ behind) := by
      simp only [List.append_assoc]
    have inside : left ++ inner ++ right ++ more ++ behind =
        left ++ (inner ++ (right ++ (more ++ behind))) := by
      simp only [List.append_assoc]
    rw [whole, nestedFrom_free free, inside, nestedFrom_left distinct.left_ne_nil, nested,
      nestedFrom_right distinct, if_neg (by omega), Nat.add_sub_cancel, later]
    simp only [Option.map_map]
    congr 1
    funext n
    simp only [Function.comp_apply, List.length_append]
    omega

/-- A text either closes the region that it stands in, or closes none of those that are open. -/
theorem closes_or_endless (distinct : Distinct left right) (s : List Char) :
    (∃ body behind, s = body ++ (right ++ behind) ∧
      Between left right (right ++ behind) body) ∨
    ∀ depth, nestedFrom left right (depth + 1) 0 s = none := by
  induction size : s.length using Nat.strongRecOn generalizing s with
  | ind size ih =>
    subst size
    have leftPos := List.length_pos_iff.mpr distinct.left_ne_nil
    by_cases opens : left <+: s
    · obtain ⟨rest, rfl⟩ := opens
      have shorter : rest.length < (left ++ rest).length := by
        rw [List.length_append]
        omega
      rcases ih rest.length shorter rest rfl with ⟨inner, after, rfl, nested⟩ | endless
      · have further : after.length < (left ++ (inner ++ (right ++ after))).length := by
          simp only [List.length_append]
          omega
        -- the inner region is closed, so it depends on what stands behind it
        rcases ih after.length further after rfl with ⟨more, behind, rfl, later⟩ | endless
        · have between := Between.region .nil nested later
          refine .inl ⟨_, behind, ?_, between⟩
          simp only [List.nil_append, List.append_assoc]
        · refine .inr fun depth => ?_
          rw [nestedFrom_left distinct.left_ne_nil, nestedFrom_between distinct nested,
            nestedFrom_right distinct, if_neg (by omega), Nat.add_sub_cancel, endless]
          rfl
      · refine .inr fun depth => ?_
        rw [nestedFrom_left distinct.left_ne_nil, endless]
        rfl
    · by_cases closes : right <+: s
      · obtain ⟨rest, rfl⟩ := closes
        exact .inl ⟨[], rest, rfl, .text .nil⟩
      · cases s with
        | nil => exact .inr fun depth => rfl
        | cons c rest =>
          rcases ih rest.length (Nat.lt_succ_self _) rest rfl with
            ⟨body, behind, rfl, between⟩ | endless
          · exact .inl ⟨c :: body, behind, rfl, between.cons opens closes⟩
          · refine .inr fun depth => ?_
            rw [nestedFrom_plain opens closes, endless]
            rfl

namespace Adapter

theorem scan_balanced (distinct : Distinct left right) {region : List Char}
    (h : Balanced left right behind region) :
    nested.scan left right (region ++ behind) = some region.length := by
  obtain ⟨body, rfl, between⟩ := h
  have whole : left ++ body ++ right ++ behind = left ++ (body ++ (right ++ behind)) := by
    simp only [List.append_assoc]
  rw [scan, whole, nestedFrom_left distinct.left_ne_nil, nestedFrom_between distinct between,
    nestedFrom_right distinct, if_pos (Nat.le_refl 1), Option.map_some, Option.map_some,
    List.length_append, List.length_append]
  congr 1
  omega

/-- A scan that begins with the left delimiter ends at the end of a region, or there is none. -/
theorem balanced_or_none (distinct : Distinct left right) {source : List Char}
    (begins : left <+: source) :
    (∃ region behind, source = region ++ behind ∧ Balanced left right behind region) ∨
      nested.scan left right source = none := by
  obtain ⟨rest, rfl⟩ := begins
  rcases closes_or_endless distinct rest with ⟨body, behind, rfl, between⟩ | endless
  · refine .inl ⟨left ++ body ++ right, behind, ?_, body, rfl, between⟩
    simp only [List.append_assoc]
  · right
    rw [scan, nestedFrom_left distinct.left_ne_nil, endless]
    rfl

theorem reach_balanced {left right source : String}
    (distinct : Distinct left.toList right.toList) {region behind : List Char}
    (split : source.toList = region ++ behind)
    (h : Balanced left.toList right.toList behind region) :
    nested.reach left right source = some (Text.bytes region) := by
  rw [reach, split, scan_balanced distinct h, Option.map_some, List.take_left]

theorem reach_eq_some_iff {left right source : String}
    (distinct : Distinct left.toList right.toList) (begins : left.toList <+: source.toList)
    {n : Nat} :
    nested.reach left right source = some n ↔
      Spans left.toList right.toList source.toList n := by
  constructor
  · intro h
    rcases balanced_or_none distinct begins with ⟨region, behind, split, balanced⟩ | none
    · rw [reach_balanced distinct split balanced] at h
      exact ⟨region, behind, split, Option.some.inj h, balanced⟩
    · rw [reach, none] at h
      cases h
  · rintro ⟨region, behind, split, rfl, balanced⟩
    exact reach_balanced distinct split balanced

/-- The nested adapter ends a region where the form of regions does: it measures `n` bytes if and
only if these are a region. There is one such `n` at most, it stays the same whatever follows the
region, and the adapter finds none exactly if there is none. -/
theorem reach_nested_iff {left right source : String}
    (distinct : Distinct left.toList right.toList) (begins : left.toList <+: source.toList) :
    (∀ n, nested.reach left right source = some n ↔
      Spans left.toList right.toList source.toList n) ∧
    (∀ m n, Spans left.toList right.toList source.toList m →
      Spans left.toList right.toList source.toList n → m = n) ∧
    (∀ region behind, source.toList = region ++ behind →
      Balanced left.toList right.toList behind region → ∀ more : String,
        Balanced left.toList right.toList more.toList region ∧
          nested.reach left right (String.ofList region ++ more) = some (Text.bytes region)) ∧
    (nested.reach left right source = none ↔
      ∀ n, ¬ Spans left.toList right.toList source.toList n) := by
  refine ⟨fun n => reach_eq_some_iff distinct begins, ?_, ?_, ?_⟩
  · intro m n first second
    rw [← reach_eq_some_iff distinct begins] at first second
    exact Option.some.inj (first.symm.trans second)
  · intro region behind split balanced more
    have other := balanced.before distinct more.toList
    refine ⟨other, reach_balanced distinct ?_ other⟩
    rw [String.toList_append, String.toList_ofList]
  · rw [Option.eq_none_iff_forall_ne_some]
    exact forall_congr' fun n => not_congr (reach_eq_some_iff distinct begins)

/-- A region in a region, where the delimiters share a character, and a stray delimiter behind. -/
theorem reach_nested_iff_shared :
    Distinct "\x7b%".toList "%\x7d".toList ∧
      "\x7b%".toList <+: "\x7b%é\x7b%%\x7d%%\x7d%\x7d".toList ∧
      Spans "\x7b%".toList "%\x7d".toList "\x7b%é\x7b%%\x7d%%\x7d%\x7d".toList 11 ∧
      ¬ Spans "\x7b%".toList "%\x7d".toList "\x7b%é\x7b%%\x7d%%\x7d%\x7d".toList 13 ∧
      ∀ n, ¬ Spans "\x7b%".toList "%\x7d".toList "\x7b%é\x7b%%\x7d%".toList n := by
  have distinct : Distinct "\x7b%".toList "%\x7d".toList := ⟨by decide, by decide⟩
  have begins : "\x7b%".toList <+: "\x7b%é\x7b%%\x7d%%\x7d%\x7d".toList := by decide
  obtain ⟨spans, unique, -, -⟩ := reach_nested_iff distinct begins
  have found := (spans 11).mp (by decide +kernel)
  refine ⟨distinct, begins, found, fun other => absurd (unique _ _ found other) (by decide), ?_⟩
  exact (reach_nested_iff distinct (by decide)).2.2.2.mp (by decide +kernel)

end Adapter

end Mosaic.Template
