import Mathlib

/-!
# Checked computations

How a computation that may fail comes to a result: through the result of each of its parts. A
check that fails when its condition holds has been passed exactly when the condition is false.
-/

namespace VoltageStats

variable {ε ε' α β : Type}

/-- A sequence has a result exactly when its parts have. -/
@[simp] theorem except_bind_eq_ok_iff {x : Except ε α} {f : α → Except ε β} {b : β} :
    x >>= f = .ok b ↔ ∃ a, x = .ok a ∧ f a = .ok b := by
  cases x with
  | error e => simp [bind, Except.bind]
  | ok a => simp [bind, Except.bind]

@[simp] theorem except_pure_eq_ok_iff {a b : α} : (pure a : Except ε α) = .ok b ↔ a = b := by
  simp [pure, Except.pure]

@[simp] theorem except_throw_ne_ok {e : ε} {a : α} : (throw e : Except ε α) ≠ .ok a := by
  simp [throw, throwThe, MonadExceptOf.throw]

/-- To call an error by another name does not change what succeeds. -/
@[simp] theorem except_mapError_eq_ok_iff {x : Except ε α} {f : ε → ε'} {a : α} :
    x.mapError f = .ok a ↔ x = .ok a := by
  cases x with
  | error e => simp [Except.mapError]
  | ok b => simp [Except.mapError]

/-- A check is passed exactly when what it refuses is not the case. -/
@[simp] theorem except_refuse_eq_ok_iff {p : Prop} [Decidable p] {e : ε}
    {f : PUnit → Except ε α} {x : Except ε α} {a : α} :
    (if p then throw e >>= f else x) = .ok a ↔ ¬ p ∧ x = .ok a := by
  by_cases hp : p <;> simp [hp]

/-- A list has results exactly when each of its items has one. -/
theorem option_mapM_eq_some_iff {f : α → Option β} {xs : List α} {ys : List β} :
    xs.mapM f = some ys ↔ List.Forall₂ (fun x y => f x = some y) xs ys := by
  induction xs generalizing ys with
  | nil => simp [eq_comm]
  | cons x xs ih =>
      simp only [List.mapM_cons, Option.bind_eq_bind, Option.bind_eq_some_iff, Option.pure_def,
        Option.some.injEq, ih, List.forall₂_cons_left_iff]
      constructor
      · rintro ⟨y, hy, ys, hys, rfl⟩
        exact ⟨y, ys, hy, hys, rfl⟩
      · rintro ⟨y, ys, hy, hys, rfl⟩
        exact ⟨y, hy, ys, hys, rfl⟩

/-- If each item has a result that is related to it, so has the list. -/
theorem exists_mapM {f : α → Option β} {R : α → β → Prop} {xs : List α}
    (h : ∀ x ∈ xs, ∃ y, f x = some y ∧ R x y) :
    ∃ ys, xs.mapM f = some ys ∧ List.Forall₂ R xs ys := by
  induction xs with
  | nil => exact ⟨[], rfl, .nil⟩
  | cons x xs ih =>
      obtain ⟨y, hy, hxy⟩ := h x List.mem_cons_self
      obtain ⟨ys, hys, hrest⟩ := ih fun x hmem => h x (List.mem_cons_of_mem _ hmem)
      exact ⟨y :: ys, by simp [List.mapM_cons, hy, hys], .cons hxy hrest⟩

theorem exists_of_mem_forall₂ {R : α → β → Prop} {xs : List α} {ys : List β} {y : β}
    (h : List.Forall₂ R xs ys) (hmem : y ∈ ys) : ∃ x ∈ xs, R x y := by
  induction h with
  | nil => cases hmem
  | cons hfirst hrest ih =>
      rcases List.mem_cons.mp hmem with rfl | hmem
      · exact ⟨_, List.mem_cons_self, hfirst⟩
      · obtain ⟨x, hx, hxy⟩ := ih hmem
        exact ⟨x, List.mem_cons_of_mem _ hx, hxy⟩

/-- Every result is that of an item. -/
theorem exists_of_mem_mapM {f : α → Option β} {xs : List α} {ys : List β} {y : β}
    (h : xs.mapM f = some ys) (hmem : y ∈ ys) : ∃ x ∈ xs, f x = some y := by
  obtain ⟨x, hx, hresult⟩ := exists_of_mem_forall₂ (option_mapM_eq_some_iff.mp h) hmem
  exact ⟨x, hx, hresult⟩

/-- A list has no results exactly when one of its items has none. -/
theorem option_mapM_eq_none_iff {f : α → Option β} {xs : List α} :
    xs.mapM f = none ↔ ∃ x ∈ xs, f x = none := by
  constructor
  · intro hnone
    by_contra hall
    have hsome : ∀ x ∈ xs, ∃ y, f x = some y ∧ True := by
      intro x hmem
      obtain ⟨y, hy⟩ := Option.ne_none_iff_exists'.mp fun hx => hall ⟨x, hmem, hx⟩
      exact ⟨y, hy, trivial⟩
    obtain ⟨ys, hys, -⟩ := exists_mapM hsome
    rw [hnone] at hys
    cases hys
  · intro h
    obtain ⟨x, hmem, hx⟩ := h
    by_contra hsome
    obtain ⟨ys, hys⟩ := Option.ne_none_iff_exists'.mp hsome
    obtain ⟨y, -, hy⟩ := exists_of_mem_forall₂ (option_mapM_eq_some_iff.mp hys).flip hmem
    rw [hx] at hy
    cases hy

theorem except_isOk_iff {x : Except ε Unit} : x.isOk = true ↔ x = .ok () := by
  cases x with
  | error e => simp [Except.isOk, Except.toBool]
  | ok a => simp [Except.isOk, Except.toBool]

end VoltageStats
