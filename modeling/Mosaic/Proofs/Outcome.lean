import Mosaic.Failure

/-! Readings that succeed: what is known of the steps of a reading that came to its end. -/
namespace Mosaic.Outcome

variable {ε ε' α β : Type}

theorem map_eq_ok {e : Except ε α} {f : α → β} {b : β} :
    e.map f = .ok b ↔ ∃ a, e = .ok a ∧ f a = b := by
  cases e with
  | error x => exact ⟨fun h => (nomatch h), fun ⟨_, h, _⟩ => (nomatch h)⟩
  | ok a => simp only [Except.map, Except.ok.injEq, exists_eq_left']

theorem map_eq_error {e : Except ε α} {f : α → β} {x : ε} :
    e.map f = .error x ↔ e = .error x := by
  cases e with
  | error y =>
    exact ⟨fun h => congrArg _ (Except.error.inj h), fun h => congrArg _ (Except.error.inj h)⟩
  | ok a => exact ⟨fun h => (nomatch h), fun h => (nomatch h)⟩

theorem mapError_eq_ok {e : Except ε α} {f : ε → ε'} {a : α} :
    e.mapError f = .ok a ↔ e = .ok a := by
  cases e with
  | error x => exact ⟨fun h => (nomatch h), fun h => (nomatch h)⟩
  | ok a => exact ⟨fun h => congrArg _ (Except.ok.inj h), fun h => congrArg _ (Except.ok.inj h)⟩

theorem bind_eq_ok {e : Except ε α} {f : α → Except ε β} {b : β} :
    e >>= f = .ok b ↔ ∃ a, e = .ok a ∧ f a = .ok b := by
  cases e with
  | error x => exact ⟨fun h => (nomatch h), fun ⟨_, h, _⟩ => (nomatch h)⟩
  | ok a => simp only [bind, Except.bind, Except.ok.injEq, exists_eq_left']

theorem bind_eq_error {e : Except ε α} {f : α → Except ε β} {x : ε} :
    e >>= f = .error x ↔ e = .error x ∨ ∃ a, e = .ok a ∧ f a = .error x := by
  cases e with
  | error y => simp only [bind, Except.bind, reduceCtorEq, false_and, exists_false, or_false,
      Except.error.injEq]
  | ok a => simp only [bind, Except.bind, Except.ok.injEq, exists_eq_left', reduceCtorEq, false_or]

/-- How a reading failed, if it did. -/
def failure? : Except ε α → Option ε
  | .ok _ => none
  | .error x => some x

theorem eq_error_of_failure? {e : Except ε α} {x : ε} (h : failure? e = some x) :
    e = .error x := by
  cases e with
  | ok a => cases h
  | error y => rw [Option.some.inj h]

theorem exists_of_toBool {e : Except ε α} (h : e.toBool) : ∃ a, e = .ok a := by
  cases e with
  | error x => cases h
  | ok a => exact ⟨a, rfl⟩

theorem exists_of_toOption_bind {e : Except ε α} {f : α → Option β} {b : β}
    (h : e.toOption.bind f = some b) : ∃ a, e = .ok a ∧ f a = some b := by
  cases e with
  | error x => cases h
  | ok a => exact ⟨a, rfl, h⟩

theorem map_map {γ : Type} (e : Except ε α) (f : α → β) (g : β → γ) :
    (e.map f).map g = e.map fun a => g (f a) := by
  cases e <;> rfl

theorem mapError_map (e : Except ε α) (f : ε → ε') (g : α → β) :
    (e.map g).mapError f = (e.mapError f).map g := by
  cases e <;> rfl

theorem mapError_bind (e : Except ε α) (f : ε → ε') (next : α → Except ε β) :
    (e >>= next).mapError f = e.mapError f >>= fun a => (next a).mapError f := by
  cases e <;> rfl

theorem mapError_foldlM (f : ε → ε') (step : β → α → Except ε β) (items : List α) (b : β) :
    (items.foldlM step b).mapError f =
      items.foldlM (fun b a => (step b a).mapError f) b := by
  induction items generalizing b with
  | nil => rfl
  | cons a items ih =>
    rw [List.foldlM_cons, List.foldlM_cons, mapError_bind]
    congr 1
    funext next
    exact ih next

theorem mapError_mapM (f : ε → ε') (step : α → Except ε β) (items : List α) :
    (items.mapM step).mapError f = items.mapM fun a => (step a).mapError f := by
  induction items with
  | nil => rfl
  | cons a items ih =>
    rw [List.mapM_cons, List.mapM_cons, mapError_bind, ← ih]
    congr 1
    funext b
    rw [mapError_bind]
    rfl

theorem ok_bind {a : α} {f : α → Except ε β} : (Except.ok a >>= f) = f a := rfl

theorem mapM_congr {step other : α → Except ε β} {items : List α}
    (same : ∀ a ∈ items, step a = other a) : items.mapM step = items.mapM other := by
  induction items with
  | nil => rfl
  | cons a items ih =>
    obtain ⟨first, later⟩ := List.forall_mem_cons.mp same
    rw [List.mapM_cons, List.mapM_cons, first, ih later]

theorem foldlM_congr {step other : β → α → Except ε β} {items : List α}
    (same : ∀ a ∈ items, ∀ b, step b a = other b a) (b : β) :
    items.foldlM step b = items.foldlM other b := by
  induction items generalizing b with
  | nil => rfl
  | cons a items ih =>
    obtain ⟨first, later⟩ := List.forall_mem_cons.mp same
    rw [List.foldlM_cons, List.foldlM_cons, first]
    congr 1
    funext next
    exact ih later next

/-- Steps taken one after the other fail where one of them fails. -/
theorem exists_of_mapM_error {step : α → Except ε β} {items : List α} {x : ε}
    (h : items.mapM step = .error x) : ∃ a ∈ items, step a = .error x := by
  induction items with
  | nil => cases h
  | cons a items ih =>
    rw [List.mapM_cons] at h
    rcases bind_eq_error.mp h with fails | ⟨b, -, h⟩
    · exact ⟨a, List.mem_cons_self, fails⟩
    · rcases bind_eq_error.mp h with fails | ⟨more, -, h⟩
      · obtain ⟨other, mem, fails⟩ := ih fails
        exact ⟨other, List.mem_cons_of_mem a mem, fails⟩
      · cases h

theorem exists_of_foldlM_error {step : β → α → Except ε β} {items : List α} {b : β} {x : ε}
    (h : items.foldlM step b = .error x) : ∃ a ∈ items, ∃ b, step b a = .error x := by
  induction items generalizing b with
  | nil => cases h
  | cons a items ih =>
    rw [List.foldlM_cons] at h
    rcases bind_eq_error.mp h with fails | ⟨next, -, h⟩
    · exact ⟨a, List.mem_cons_self, b, fails⟩
    · obtain ⟨other, mem, fails⟩ := ih h
      exact ⟨other, List.mem_cons_of_mem a mem, fails⟩

/-- Where each step fails if and only if `read` fails for its item, a run fails for the first item
for which `read` does. -/
theorem foldlM_eq_error {γ : Type} {step : β → α → Except ε β} {read : α → Except ε γ}
    {keep : β → Prop} {items : List α} {b : β} {x : ε}
    (fails : ∀ a ∈ items, ∀ b, keep b → ∀ x, step b a = .error x ↔ read a = .error x)
    (kept : ∀ a b next, keep b → step b a = .ok next → keep next) (start : keep b) :
    items.foldlM step b = .error x ↔ ∃ before a after, items = before ++ a :: after ∧
      (∀ other ∈ before, ∃ y, read other = .ok y) ∧ read a = .error x := by
  induction items generalizing b with
  | nil =>
    constructor
    · intro h
      cases h
    · rintro ⟨before, a, after, split, -⟩
      exact nomatch (List.append_eq_nil_iff.mp split.symm).2
  | cons a items ih =>
    obtain ⟨own, others⟩ := List.forall_mem_cons.mp fails
    rw [List.foldlM_cons, bind_eq_error]
    constructor
    · rintro (first | ⟨next, first, later⟩)
      · exact ⟨[], a, items, rfl, fun _ mem => (nomatch mem), (own b start x).mp first⟩
      · obtain ⟨before, other, after, rfl, reads, stopped⟩ :=
          (ih others (kept a b next start first)).mp later
        have here : ∃ y, read a = .ok y := by
          cases found : read a with
          | ok y => exact ⟨y, rfl⟩
          | error y => exact nomatch first.symm.trans ((own b start y).mpr found)
        exact ⟨a :: before, other, after, rfl, List.forall_mem_cons.mpr ⟨here, reads⟩, stopped⟩
    · rintro ⟨before, other, after, split, reads, stopped⟩
      cases before with
      | nil =>
        cases split
        exact .inl ((own b start x).mpr stopped)
      | cons first before =>
        cases split
        obtain ⟨⟨y, here⟩, reads⟩ := List.forall_mem_cons.mp reads
        cases made : step b a with
        | error e => exact nomatch here.symm.trans ((own b start e).mp made)
        | ok next =>
          refine .inr ⟨next, rfl, (ih others (kept a b next start made)).mpr ?_⟩
          exact ⟨before, other, after, rfl, reads, stopped⟩

end Mosaic.Outcome
