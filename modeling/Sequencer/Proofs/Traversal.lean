import Mathlib.Data.List.Forall2

/-!
# Traversals that stop at the first error

Rows are fitted column by column and machines are compiled state by state, and
both passes stop at the first part that fails.  This module says once what such
a pass returns: on success a result for each part, and on failure the error of
the first part that has one, whatever comes after it.

## Main Results

* `mapM_eq_ok_iff` — a traversal succeeds exactly when every part does.
* `mapM_eq_error_iff` — a traversal fails exactly with its first error.
* `exists_mapM_ok_iff` — success alone, without the results.
-/

namespace Sequencer

variable {ε α β : Type}

/-! ### One step -/

/-- A computation in two steps succeeds exactly when both steps do. -/
theorem bind_eq_ok_iff {x : Except ε α} {f : α → Except ε β} {b : β} :
    (x >>= f) = .ok b ↔ ∃ a, x = .ok a ∧ f a = .ok b := by
  cases x with
  | error err => simp [bind, Except.bind]
  | ok a => simp [bind, Except.bind]

/-- A computation in two steps fails with the error of the first step, or with
that of the second after the first has succeeded. -/
theorem bind_eq_error_iff {x : Except ε α} {f : α → Except ε β} {err : ε} :
    (x >>= f) = .error err ↔ x = .error err ∨ ∃ a, x = .ok a ∧ f a = .error err := by
  cases x with
  | error err' => simp [bind, Except.bind]
  | ok a => simp [bind, Except.bind]

theorem map_eq_ok_iff {x : Except ε α} {f : α → β} {b : β} :
    x.map f = .ok b ↔ ∃ a, x = .ok a ∧ f a = b := by
  cases x <;> simp [Except.map]

theorem map_eq_error_iff {x : Except ε α} {f : α → β} {err : ε} :
    x.map f = .error err ↔ x = .error err := by
  cases x <;> simp [Except.map]

/-- What does not succeed fails. -/
theorem exists_error_of_not_ok {x : Except ε α} (h : ¬ ∃ a, x = .ok a) :
    ∃ err, x = .error err := by
  cases x with
  | error err => exact ⟨err, rfl⟩
  | ok a => exact absurd ⟨a, rfl⟩ h

/-! ### All steps -/

/-- A traversal succeeds exactly when each part does, and then it returns their
results in order. -/
theorem mapM_eq_ok_iff {f : α → Except ε β} {xs : List α} {ys : List β} :
    xs.mapM f = .ok ys ↔ List.Forall₂ (fun x y => f x = .ok y) xs ys := by
  induction xs generalizing ys with
  | nil =>
      rw [List.mapM_nil, List.forall₂_nil_left_iff]
      exact ⟨fun h => (Except.ok.inj h).symm, fun h => by rw [h]; rfl⟩
  | cons x xs ih =>
      rw [List.mapM_cons, bind_eq_ok_iff, List.forall₂_cons_left_iff]
      constructor
      · rintro ⟨y, hy, h⟩
        obtain ⟨zs, hzs, h⟩ := bind_eq_ok_iff.mp h
        exact ⟨y, zs, hy, ih.mp hzs, (Except.ok.inj h).symm⟩
      · rintro ⟨y, zs, hy, hzs, rfl⟩
        exact ⟨y, hy, bind_eq_ok_iff.mpr ⟨zs, ih.mpr hzs, rfl⟩⟩

/-- **A traversal fails with its first error.**  The parts before the one that
fails all succeed; the parts after it have no influence. -/
theorem mapM_eq_error_iff {f : α → Except ε β} {xs : List α} {err : ε} :
    xs.mapM f = .error err ↔
      ∃ before x after, xs = before ++ x :: after ∧
        (∀ y ∈ before, ∃ z, f y = .ok z) ∧ f x = .error err := by
  induction xs with
  | nil => simp [pure, Except.pure]
  | cons x xs ih =>
      rw [List.mapM_cons, bind_eq_error_iff]
      constructor
      · rintro (hx | ⟨y, hy, h⟩)
        · exact ⟨[], x, xs, rfl, by simp, hx⟩
        · rcases bind_eq_error_iff.mp h with hxs | ⟨_, _, h⟩
          · obtain ⟨before, w, after, rfl, hbefore, hw⟩ := ih.mp hxs
            refine ⟨x :: before, w, after, rfl, ?_, hw⟩
            exact List.forall_mem_cons.mpr ⟨⟨y, hy⟩, hbefore⟩
          · cases h
      · rintro ⟨before, w, after, heq, hbefore, hw⟩
        cases before with
        | nil =>
            obtain ⟨rfl, rfl⟩ := List.cons.inj heq
            exact Or.inl hw
        | cons b before =>
            obtain ⟨rfl, rfl⟩ := List.cons.inj heq
            obtain ⟨⟨y, hy⟩, hrest⟩ := List.forall_mem_cons.mp hbefore
            refine Or.inr ⟨y, hy, bind_eq_error_iff.mpr (Or.inl ?_)⟩
            exact ih.mpr ⟨before, w, after, rfl, hrest, hw⟩

/-- A traversal succeeds where no part fails. -/
theorem exists_mapM_ok_iff {f : α → Except ε β} {xs : List α} :
    (∃ ys, xs.mapM f = .ok ys) ↔ ∀ x ∈ xs, ∃ y, f x = .ok y := by
  constructor
  · rintro ⟨ys, h⟩
    have hall := mapM_eq_ok_iff.mp h
    clear h
    induction hall with
    | nil => simp
    | cons hxy _ ih => exact List.forall_mem_cons.mpr ⟨⟨_, hxy⟩, ih⟩
  · intro hall
    by_contra hno
    obtain ⟨err, herr⟩ := exists_error_of_not_ok hno
    obtain ⟨before, x, after, rfl, -, hx⟩ := mapM_eq_error_iff.mp herr
    obtain ⟨y, hy⟩ := hall x (by simp)
    rw [hx] at hy
    cases hy

end Sequencer
