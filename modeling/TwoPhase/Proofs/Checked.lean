/-
# `Checked` — computations that may fail

Running, reading and checking are all written as computations that end in
a result or in an error.  One of them followed by another ends in a result
just if both do, a check that is met is passed by and one that is not ends
the computation, and a list is gone through with results just if every
element has one.  What is computed from a result gives the result back,
which is how a run on a given program is looked at.
-/
import Mathlib
import TwoPhase.Tableau.Basic

namespace TwoPhase

variable {ε β γ : Type}

theorem bind_eq_ok_iff {x : Except ε β} {f : β → Except ε γ} {c : γ} :
    (x >>= f) = .ok c ↔ ∃ b, x = .ok b ∧ f b = .ok c := by
  constructor
  · intro h
    cases x with
    | error e => cases h
    | ok b => exact ⟨b, rfl, h⟩
  · rintro ⟨b, rfl, h⟩
    exact h

theorem mapM_eq_ok_map {f : β → Except ε γ} {g : β → γ} {xs : List β}
    (h : ∀ x ∈ xs, f x = .ok (g x)) : xs.mapM f = .ok (xs.map g) := by
  induction xs with
  | nil => rfl
  | cons x xs ih =>
      rw [List.mapM_cons, h x List.mem_cons_self, ih fun y hy => h y (List.mem_cons_of_mem _ hy)]
      rfl

theorem exists_of_toOption_map {x : Except ε β} {f : β → γ} {c : γ}
    (h : x.toOption.map f = some c) : ∃ b, x = .ok b ∧ f b = c := by
  cases x with
  | error e => cases h
  | ok b => exact ⟨b, rfl, Option.some.inj h⟩

/-! ## Checks -/

section Require

variable {condition : Prop} [Decidable condition] {fault : Fault} {f : Unit → Except Fault γ}

theorem require_bind_of (h : condition) : (require condition fault >>= f) = f () := by
  rw [require, if_pos h]
  rfl

theorem require_bind_of_not (h : ¬ condition) : (require condition fault >>= f) = .error fault := by
  rw [require, if_neg h]
  rfl

end Require

end TwoPhase
