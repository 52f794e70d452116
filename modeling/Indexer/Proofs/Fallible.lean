import Indexer.Fault.Basic
import Mathlib.Data.List.Forall2

/-! Computations that may fail: what it takes for a sequence of them, or one for each element of a
list, to succeed. -/
namespace Indexer

variable {α β ε ε' : Type} {f : α → Except ε β} {xs : List α} {ys : List β}

theorem mapError_eq_ok_iff {g : ε → ε'} {x : Except ε α} {a : α} :
    x.mapError g = .ok a ↔ x = .ok a := by
  cases x <;> simp

/-- A computation that succeeds has succeeded in its first part, and then in the rest. -/
theorem bind_eq_ok_iff {x : Except ε α} {b : β} : x >>= f = .ok b ↔ ∃ a, x = .ok a ∧ f a = .ok b := by
  cases x <;> simp [bind, Except.bind]

theorem mapM_eq_ok_iff :
    xs.mapM f = .ok ys ↔ List.Forall₂ (fun x y => f x = .ok y) xs ys := by
  induction xs generalizing ys with
  | nil => simp [pure, Except.pure, eq_comm]
  | cons x xs ih =>
      rw [List.mapM_cons, List.forall₂_cons_left_iff]
      cases hFirst : f x with
      | error e => simp [bind, Except.bind]
      | ok y =>
          cases hRest : xs.mapM f with
          | error e => simp [bind, Except.bind, ← ih, hRest]
          | ok rest => simp [bind, Except.bind, pure, Except.pure, ← ih, hRest, eq_comm]

/-- The error of a list is that of one of its elements. -/
theorem exists_of_mapM_error {e : ε} (h : xs.mapM f = .error e) : ∃ x ∈ xs, f x = .error e := by
  induction xs with
  | nil => cases h
  | cons x xs ih =>
      rw [List.mapM_cons] at h
      cases hFirst : f x with
      | error g =>
          rw [hFirst] at h
          cases h
          exact ⟨x, List.mem_cons_self, hFirst⟩
      | ok y =>
          cases hRest : xs.mapM f with
          | error g =>
              rw [hFirst, hRest] at h
              cases h
              obtain ⟨later, hLater, hError⟩ := ih hRest
              exact ⟨later, List.mem_cons_of_mem x hLater, hError⟩
          | ok ys =>
              rw [hFirst, hRest] at h
              cases h

/-- What every step that succeeds gives holds of the whole list. -/
theorem forall_mem_of_mapM {P : β → Prop} (h : xs.mapM f = .ok ys)
    (hStep : ∀ x ∈ xs, ∀ y, f x = .ok y → P y) : ∀ y ∈ ys, P y := by
  have hSteps := mapM_eq_ok_iff.mp h
  clear h
  induction hSteps with
  | nil => exact nofun
  | cons hFirst _ ih =>
      exact List.forall_mem_cons.mpr ⟨hStep _ List.mem_cons_self _ hFirst,
        ih fun x hx => hStep x (List.mem_cons_of_mem _ hx)⟩

end Indexer
