/-
# `Exact` — the solver's arithmetic on the rationals

On the rationals every operation of a scalar is the ordinary one, so its
laws hold and a tolerance of zero tells numbers apart exactly.  The
weighted sum `dot` is what rows, costs and constraints are all read
through; it is linear in its first argument, which is all that row
operations need.
-/
import Mathlib
import TwoPhase.Tableau.Pivot

namespace TwoPhase

/-! ## Magnitude and comparison -/

theorem scalarAbs_eq_abs (v : ℚ) : Scalar.abs v = |v| := by
  show (if v < 0 then -v else v) = |v|
  split
  next h => exact (abs_of_neg h).symm
  next h => exact (abs_of_nonneg (not_lt.mp h)).symm

/-- Under a tolerance, `a` exceeds `b` where the tolerance lies strictly between
them. -/
theorem exceeds_iff {tol a b : ℚ} (htol : 0 ≤ tol) : Exceeds tol a b ↔ b + tol < a := by
  rw [Exceeds, scalarAbs_eq_abs, not_le]
  constructor
  · rintro ⟨hfar, hlt⟩
    rw [abs_of_pos (sub_pos.mpr hlt)] at hfar
    linarith
  · intro h
    have hlt : b < a := by linarith
    refine ⟨?_, hlt⟩
    rw [abs_of_pos (sub_pos.mpr hlt)]
    linarith

theorem snap_zero (tol : ℚ) : snap tol 0 = 0 := by
  rw [snap]
  split <;> rfl

theorem snap_one {tol : ℚ} (h : tol ≤ 1) : snap tol 1 = 1 := by
  rw [snap, scalarAbs_eq_abs, abs_one, if_neg (not_lt.mpr h)]

@[simp] theorem snap_zero_tol (v : ℚ) : snap 0 v = v := by
  simp only [snap, scalarAbs_eq_abs, not_lt.mpr (abs_nonneg v), if_false]

/-! ## The weighted sum -/

theorem foldl_add_eq (xs : List ℚ) (a : ℚ) : xs.foldl (· + ·) a = a + xs.sum := by
  induction xs generalizing a with
  | nil => simp
  | cons x xs ih => rw [List.foldl_cons, ih, List.sum_cons, add_assoc]

theorem dot_eq_sum (xs ys : List ℚ) : dot xs ys = (List.zipWith (· * ·) xs ys).sum := by
  show (List.zipWith (· * ·) xs ys).foldl (· + ·) (-0) = _
  rw [foldl_add_eq, neg_zero, zero_add]

@[simp] theorem dot_nil_left (ys : List ℚ) : dot [] ys = 0 := by
  simp [dot_eq_sum]

@[simp] theorem dot_nil_right (xs : List ℚ) : dot xs [] = 0 := by
  simp [dot_eq_sum]

@[simp] theorem dot_cons (x y : ℚ) (xs ys : List ℚ) :
    dot (x :: xs) (y :: ys) = x * y + dot xs ys := by
  simp [dot_eq_sum]

theorem dot_append {xs ys : List ℚ} (h : xs.length = ys.length) (xs' ys' : List ℚ) :
    dot (xs ++ xs') (ys ++ ys') = dot xs ys + dot xs' ys' := by
  rw [dot_eq_sum, List.zipWith_append h, List.sum_append, dot_eq_sum, dot_eq_sum]

theorem dot_map_map {β : Type} (xs : List β) (f g : β → ℚ) :
    dot (xs.map f) (xs.map g) = (xs.map fun v => f v * g v).sum := by
  rw [dot_eq_sum, List.zipWith_map, List.zipWith_self]

theorem dot_map_neg (xs ys : List ℚ) : dot (xs.map (- ·)) ys = - dot xs ys := by
  induction xs generalizing ys with
  | nil => simp
  | cons x xs ih =>
      cases ys with
      | nil => simp
      | cons y ys => rw [List.map_cons, dot_cons, dot_cons, ih]; ring

theorem dot_map_div (xs ys : List ℚ) (d : ℚ) : dot (xs.map (· / d)) ys = dot xs ys / d := by
  induction xs generalizing ys with
  | nil => simp
  | cons x xs ih =>
      cases ys with
      | nil => simp
      | cons y ys => rw [List.map_cons, dot_cons, dot_cons, ih]; ring

theorem dot_zipWith_sub {xs ys : List ℚ} (h : xs.length = ys.length) (k : ℚ) (zs : List ℚ) :
    dot (List.zipWith (fun v w => v - w * k) xs ys) zs = dot xs zs - dot ys zs * k := by
  induction xs generalizing ys zs with
  | nil => cases ys with
    | nil => simp
    | cons y ys => simp at h
  | cons x xs ih =>
      cases ys with
      | nil => simp at h
      | cons y ys =>
          cases zs with
          | nil => simp
          | cons z zs =>
              simp only [List.zipWith_cons_cons, dot_cons]
              rw [ih (by simpa using h)]; ring

@[simp] theorem dot_replicate_zero_left (n : Nat) (ys : List ℚ) :
    dot (List.replicate n 0) ys = 0 := by
  induction n generalizing ys with
  | zero => simp
  | succ n ih =>
      cases ys with
      | nil => simp
      | cons y ys => rw [List.replicate_succ, dot_cons, ih]; ring

@[simp] theorem dot_replicate_zero_right (xs : List ℚ) (n : Nat) :
    dot xs (List.replicate n 0) = 0 := by
  induction n generalizing xs with
  | zero => simp
  | succ n ih =>
      cases xs with
      | nil => simp
      | cons x xs => rw [List.replicate_succ, dot_cons, ih]; ring

/-- Zeros at the end of a vector count for nothing, and neither do the coefficients
there. -/
theorem dot_take (xs ys : List ℚ) (n : Nat) :
    dot (xs.take ys.length) ys = dot xs (ys ++ List.replicate n 0) := by
  induction ys generalizing xs with
  | nil => simp
  | cons y ys ih =>
      cases xs with
      | nil => simp
      | cons x xs =>
          rw [List.length_cons, List.take_succ_cons, List.cons_append, dot_cons, dot_cons, ih]

theorem dot_eq_sum_range (xs ys : List ℚ) :
    dot xs ys = ∑ j ∈ Finset.range xs.length, xs.getD j 0 * ys.getD j 0 := by
  induction xs generalizing ys with
  | nil => simp
  | cons x xs ih =>
      cases ys with
      | nil => simp
      | cons y ys =>
          rw [dot_cons, List.length_cons, Finset.sum_range_succ', ih, add_comm]
          simp

theorem dot_comm (xs ys : List ℚ) : dot xs ys = dot ys xs := by
  rw [dot_eq_sum, dot_eq_sum, List.zipWith_comm]
  simp only [mul_comm]

theorem dot_eq_sum_range_right (xs ys : List ℚ) :
    dot xs ys = ∑ j ∈ Finset.range ys.length, xs.getD j 0 * ys.getD j 0 := by
  rw [dot_comm, dot_eq_sum_range]
  exact Finset.sum_congr rfl fun j _ => mul_comm _ _

theorem sum_dot_mul {β : Type} (s : Finset Nat) (weights : List ℚ) (xs : List β)
    (g : Nat → β → ℚ) (y : Nat → ℚ) :
    ∑ j ∈ s, dot weights (xs.map (g j)) * y j
      = dot weights (xs.map fun v => ∑ j ∈ s, g j v * y j) := by
  induction xs generalizing weights with
  | nil => simp
  | cons v xs ih =>
      cases weights with
      | nil => simp
      | cons w weights =>
          simp only [List.map_cons, dot_cons, add_mul, Finset.sum_add_distrib, ih, Finset.mul_sum,
            mul_assoc]

theorem dot_nonneg {xs ys : List ℚ} (hx : ∀ v ∈ xs, 0 ≤ v) (hy : ∀ v ∈ ys, 0 ≤ v) :
    0 ≤ dot xs ys := by
  induction xs generalizing ys with
  | nil => simp
  | cons x xs ih =>
      cases ys with
      | nil => simp
      | cons y ys =>
          rw [dot_cons]
          have hhead : 0 ≤ x * y := mul_nonneg (hx x (by simp)) (hy y (by simp))
          have htail : 0 ≤ dot xs ys :=
            ih (fun v hv => hx v (List.mem_cons_of_mem _ hv))
              (fun v hv => hy v (List.mem_cons_of_mem _ hv))
          exact add_nonneg hhead htail

end TwoPhase
