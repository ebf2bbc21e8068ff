/-
# `BasicPoint` — the solutions a tableau shows

A tableau with a unit basis names its solutions: let one column that is
not basic run and keep the others at zero, and the rows give the basic
columns.  At the start of such a ray stands the basic point.  Where the
rules of choice end, these are the certificates: a tableau without a
negative reduced cost has its greatest objective at the basic point, and
one with an entering column that no row limits has a ray along which the
objective grows without bound.
-/
import Mathlib
import TwoPhase.Report
import TwoPhase.Proofs.Basis
import TwoPhase.Proofs.Selection

namespace TwoPhase

namespace Tableau

/-! ## Rays -/

/-- The value of column `k` where column `j` is at `s`, the other columns that are not
basic are at zero and the rows give the rest. -/
def valueAlong (t : Tableau ℚ) (j : Nat) (s : ℚ) (k : Nat) : ℚ :=
  match t.rows.find? (·.basic == k) with
  | some r => r.rhs - s * r.entry j
  | none => if k = j then s else 0

/-- The point at `s` on the ray of column `j`. -/
def pointAlong (t : Tableau ℚ) (j : Nat) (s : ℚ) : List ℚ :=
  (List.range t.columns.length).map (t.valueAlong j s)

/-- The values of all columns in the basic solution. -/
def basicPoint (t : Tableau ℚ) : List ℚ := (List.range t.columns.length).map t.valueOfColumn

@[simp] theorem length_pointAlong (t : Tableau ℚ) (j : Nat) (s : ℚ) :
    (t.pointAlong j s).length = t.columns.length := by
  simp [pointAlong]

theorem valueAlong_zero (t : Tableau ℚ) (j k : Nat) : t.valueAlong j 0 k = t.valueOfColumn k := by
  rw [valueAlong, valueOfColumn]
  cases t.rows.find? (·.basic == k) with
  | some r => simp only [zero_mul, sub_zero]
  | none => simp only [ite_self]

theorem pointAlong_zero (t : Tableau ℚ) (j : Nat) : t.pointAlong j 0 = t.basicPoint := by
  rw [pointAlong, basicPoint]
  exact List.map_congr_left fun k _ => valueAlong_zero t j k

variable {t : Tableau ℚ} {j : Nat} {s : ℚ}

/-- A column may run unless it is basic; none has to. -/
def MayRun (t : Tableau ℚ) (j : Nat) (s : ℚ) : Prop :=
  s ≠ 0 → j < t.columns.length ∧ ∀ r ∈ t.rows, r.basic ≠ j

theorem valueAlong_cases (t : Tableau ℚ) (j : Nat) (s : ℚ) (k : Nat) :
    (∃ (i : Nat) (r : BasicRow ℚ), t.rows[i]? = some r ∧ r.basic = k ∧
      t.valueAlong j s k = r.rhs - s * r.entry j) ∨
    ((∀ r ∈ t.rows, r.basic ≠ k) ∧ t.valueAlong j s k = if k = j then s else 0) := by
  rw [valueAlong]
  split
  next r hr =>
    obtain ⟨i, hi⟩ := List.mem_iff_getElem?.mp (List.mem_of_find?_eq_some hr)
    exact .inl ⟨i, r, hi, by simpa using List.find?_some hr, rfl⟩
  next hnone =>
    refine .inr ⟨fun r hr => ?_, rfl⟩
    simpa using List.find?_eq_none.mp hnone r hr

theorem valueAlong_of_basic (h : t.HasUnitBasis) {i : Nat} {r : BasicRow ℚ}
    (hr : t.rows[i]? = some r) : t.valueAlong j s r.basic = r.rhs - s * r.entry j := by
  rcases t.valueAlong_cases j s r.basic with ⟨k, q, hk, hb, hv⟩ | ⟨hnone, -⟩
  · obtain rfl := h.basic_inj hk hr hb
    cases hk.symm.trans hr
    exact hv
  · exact absurd rfl (hnone r (List.mem_of_getElem? hr))

theorem entry_mul_ite (w : Row ℚ) (j k : Nat) (s : ℚ) :
    w.entry k * (if k = j then s else 0) = if k = j then s * w.entry j else 0 := by
  split
  next hkj => rw [hkj, mul_comm]
  next => exact mul_zero _

namespace MayRun

theorem ite_basic (hj : t.MayRun j s) {q : BasicRow ℚ} (hq : q ∈ t.rows) (c : ℚ) :
    (if q.basic = j then s * c else 0) = 0 := by
  by_cases hs : s = 0
  · rw [hs, zero_mul, ite_self]
  · exact if_neg ((hj hs).2 q hq)

theorem sum_ite (hj : t.MayRun j s) (c : ℚ) :
    ∑ k ∈ Finset.range t.columns.length, (if k = j then s * c else 0) = s * c := by
  rw [Finset.sum_ite_eq']
  by_cases hs : s = 0
  · rw [hs, zero_mul, ite_self]
  · exact if_pos (Finset.mem_range.mpr (hj hs).1)

end MayRun

theorem dot_map_range {n : Nat} {w : Row ℚ} (hw : w.coeffs.length = n) (g : Nat → ℚ) :
    dot w.coeffs ((List.range n).map g) = ∑ k ∈ Finset.range n, w.entry k * g k := by
  rw [dot_eq_sum_range, hw]
  refine Finset.sum_congr rfl fun k hk => ?_
  have hk := Finset.mem_range.mp hk
  rw [← Row.entry_eq_getD w (hw ▸ hk)]
  congr 1
  rw [List.getD_eq_getElem _ _ (by simpa using hk)]
  simp

theorem dot_pointAlong {w : Row ℚ} (hw : w.coeffs.length = t.columns.length) :
    dot w.coeffs (t.pointAlong j s)
      = ∑ k ∈ Finset.range t.columns.length, w.entry k * t.valueAlong j s k :=
  dot_map_range hw _

theorem entry_mul_valueAlong (h : t.HasUnitBasis) (hj : t.MayRun j s) {i : Nat}
    {r : BasicRow ℚ} (hr : t.rows[i]? = some r) (k : Nat) :
    r.entry k * t.valueAlong j s k =
      (if k = r.basic then r.rhs - s * r.entry j else 0) + if k = j then s * r.entry j else 0 := by
  rcases t.valueAlong_cases j s k with ⟨m, q, hm, rfl, hv⟩ | ⟨hnone, hv⟩
  · rw [hv, hj.ite_basic (List.mem_of_getElem? hm), add_zero, h.entry_basic hm hr]
    by_cases him : i = m
    · subst him
      cases hm.symm.trans hr
      rw [if_pos rfl, if_pos rfl, one_mul]
    · rw [if_neg him, zero_mul, if_neg fun hb => him (h.basic_inj hm hr hb).symm]
  · rw [hv, if_neg (hnone r (List.mem_of_getElem? hr)).symm, zero_add, entry_mul_ite]

theorem solvedBy_pointAlong (h : t.HasUnitBasis) (hj : t.MayRun j s) :
    t.SolvedBy (t.pointAlong j s) := by
  intro r hr
  obtain ⟨i, hi⟩ := List.mem_iff_getElem?.mp hr
  have hb : r.basic ∈ Finset.range t.columns.length :=
    Finset.mem_range.mpr (h.shaped.basic_lt r hr)
  show dot r.coeffs (t.pointAlong j s) = r.rhs
  rw [dot_pointAlong (h.shaped.rectangular.1 r hr),
    Finset.sum_congr rfl fun k _ => entry_mul_valueAlong h hj hi k, Finset.sum_add_distrib,
    Finset.sum_ite_eq', if_pos hb, hj.sum_ite, sub_add_cancel]

/-- Along a ray the objective changes with the reduced cost of the column that runs. -/
theorem gap_objective_pointAlong (h : t.HasUnitBasis) (hpriced : t.IsPriced)
    (hj : t.MayRun j s) :
    t.objective.gap (t.pointAlong j s) = t.objectiveValue - s * t.objective.entry j := by
  have hterm : ∀ k, t.objective.entry k * t.valueAlong j s k
      = if k = j then s * t.objective.entry j else 0 := by
    intro k
    rcases t.valueAlong_cases j s k with ⟨m, q, hm, rfl, -⟩ | ⟨-, hv⟩
    · have hmem := List.mem_of_getElem? hm
      rw [hpriced q hmem, zero_mul, hj.ite_basic hmem]
    · rw [hv, entry_mul_ite]
  show t.objective.rhs - dot t.objective.coeffs (t.pointAlong j s) = _
  rw [dot_pointAlong h.shaped.rectangular.2, Finset.sum_congr rfl fun k _ => hterm k, hj.sum_ite]
  rfl

theorem nonneg_pointAlong (hfeasible : t.IsFeasible) (hs : 0 ≤ s)
    (hj : ∀ r ∈ t.rows, s * r.entry j ≤ 0) : ∀ v ∈ t.pointAlong j s, 0 ≤ v := by
  intro v hv
  obtain ⟨k, -, rfl⟩ := List.mem_map.mp hv
  rcases t.valueAlong_cases j s k with ⟨i, r, hi, -, hv⟩ | ⟨-, hv⟩
  · have hmem := List.mem_of_getElem? hi
    rw [hv]
    exact sub_nonneg.mpr ((hj r hmem).trans (hfeasible r hmem))
  · rw [hv]
    split
    · exact hs
    · exact le_rfl

/-! ## The basic point -/

theorem length_basicPoint (t : Tableau ℚ) : t.basicPoint.length = t.columns.length := by
  simp [basicPoint]

theorem mayRun_zero : t.MayRun j 0 := fun h => absurd rfl h

theorem solvedBy_basicPoint (h : t.HasUnitBasis) : t.SolvedBy t.basicPoint := by
  rw [← pointAlong_zero t 0]
  exact solvedBy_pointAlong h mayRun_zero

theorem gap_objective_basicPoint (h : t.HasUnitBasis) (hpriced : t.IsPriced) :
    t.objective.gap t.basicPoint = t.objectiveValue := by
  rw [← pointAlong_zero t 0, gap_objective_pointAlong h hpriced mayRun_zero, zero_mul, sub_zero]

theorem nonneg_basicPoint (hfeasible : t.IsFeasible) : ∀ v ∈ t.basicPoint, 0 ≤ v := by
  rw [← pointAlong_zero t 0]
  exact nonneg_pointAlong hfeasible le_rfl fun r _ => by rw [zero_mul]

theorem valueOfColumn_of_basic (h : t.HasUnitBasis) {i : Nat} {r : BasicRow ℚ}
    (hr : t.rows[i]? = some r) : t.valueOfColumn r.basic = r.rhs := by
  rw [← valueAlong_zero t 0, valueAlong_of_basic h hr, zero_mul, sub_zero]

/-! ## What the ends of the pivot loop certify -/

theorem entry_lt_of_entering {tol : ℚ} (h : t.entering tol = some j) :
    t.objective.entry j < -tol := by
  obtain ⟨v, hv, hneg⟩ := entering_some h
  rwa [(Row.lt_and_entry_of_getElem? hv).2]

/-- What the solver needs of a tableau, and keeps: unit columns, a priced objective row and
no right-hand side below zero. -/
structure IsBasicFeasible (t : Tableau ℚ) : Prop where
  unit : t.HasUnitBasis
  priced : t.IsPriced
  feasible : t.IsFeasible

theorem gap_objective_le_of_optimal (h : t.IsBasicFeasible)
    (hopt : t.choose 0 = .ok .optimal) {y : List ℚ} (hy : ∀ v ∈ y, 0 ≤ v) :
    t.objective.gap y ≤ t.objectiveValue := by
  have hnone := entering_eq_none_iff.mp (entering_of_optimal h.unit.shaped.rectangular hopt)
  have hcoeffs : ∀ v ∈ t.objective.coeffs, 0 ≤ v := by
    intro v hv
    simpa using hnone v hv
  have hdot := dot_nonneg hcoeffs hy
  show t.objective.rhs - dot t.objective.coeffs y ≤ t.objective.rhs
  linarith

/-- An entering column that no row limits takes the objective beyond every bound. -/
theorem exists_gap_objective_gt (h : t.IsBasicFeasible) {j : Nat}
    (hunb : t.choose 0 = .ok (.unbounded j)) (K : ℚ) :
    ∃ y, y.length = t.columns.length ∧ (∀ v ∈ y, 0 ≤ v) ∧ t.SolvedBy y ∧
      K < t.objective.gap y := by
  have hrect := h.unit.shaped.rectangular
  obtain ⟨hentering, hleaving⟩ := entering_of_unbounded hrect hunb
  have hj : j < t.columns.length := entering_lt hrect hentering
  obtain ⟨c, hcost⟩ : ∃ c, t.objective.entry j = c := ⟨_, rfl⟩
  have hc0 : 0 < -c := by simpa [hcost] using entry_lt_of_entering hentering
  -- a basic column has no reduced cost, so the entering one may run
  have hnotBasic : ∀ r ∈ t.rows, r.basic ≠ j := by
    rintro r hr rfl
    rw [h.priced r hr] at hcost
    rw [← hcost, neg_zero] at hc0
    exact lt_irrefl 0 hc0
  have hentry : ∀ r ∈ t.rows, r.entry j ≤ 0 := fun r hr =>
    not_lt.mp (leastRatioRow_eq_none_iff.mp hleaving r hr)
  -- far enough along the ray
  obtain ⟨s, hs, hgrow⟩ : ∃ s, 0 ≤ s ∧ K < t.objectiveValue - s * c := by
    refine ⟨|K - t.objectiveValue| / -c + 1, by positivity, ?_⟩
    have hcancel : |K - t.objectiveValue| / -c * -c = |K - t.objectiveValue| :=
      div_mul_cancel₀ _ hc0.ne'
    have habs := le_abs_self (K - t.objectiveValue)
    have hexpand : t.objectiveValue - (|K - t.objectiveValue| / -c + 1) * c
        = t.objectiveValue + |K - t.objectiveValue| / -c * -c + -c := by ring
    rw [hexpand, hcancel]
    linarith
  refine ⟨t.pointAlong j s, length_pointAlong t j s, ?_, ?_, ?_⟩
  · exact nonneg_pointAlong h.feasible hs fun r hr =>
      mul_nonpos_of_nonneg_of_nonpos hs (hentry r hr)
  · exact solvedBy_pointAlong h.unit fun _ => ⟨hj, hnotBasic⟩
  · rw [gap_objective_pointAlong h.unit h.priced fun _ => ⟨hj, hnotBasic⟩, hcost]
    exact hgrow

/-- A pivot by the rules of choice leads from one such tableau to another. -/
theorem IsBasicFeasible.pivotOn (h : t.IsBasicFeasible) {cell : Cell} {r : BasicRow ℚ}
    (hchoose : t.choose 0 = .ok (.pivot cell)) (hr : t.rows[cell.row]? = some r) :
    (t.pivotOn r.toRow cell 0).IsBasicFeasible := by
  have hshaped := h.unit.shaped
  have hleaving := (entering_of_pivot hshaped.rectangular hchoose).2
  have hc := (cell_of_choose hshaped.rectangular hchoose).1
  obtain ⟨r', hr', hpos, hleast⟩ := leastRatioRow_le le_rfl hleaving
  cases hr.symm.trans hr'
  refine ⟨h.unit.pivotOn zero_le_one hr hc hpos.ne', h.priced.pivotOn h.unit hr hc, ?_⟩
  refine h.feasible.pivotOn hshaped hr hc hpos fun s hs hspos => ?_
  simpa using hleast s hs hspos

end Tableau

end TwoPhase
