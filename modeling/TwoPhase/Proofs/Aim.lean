/-
# `Aim` — what a phase works towards

Each phase makes one value as large as it gets over the non-negative
solutions of one system of equations.  A tableau expresses such an aim
when its rows have those solutions and its objective row has that value at
each of them, and it pursues the aim when it is a basic feasible tableau
besides.  Pursuit survives every pivot, and both ends of the pivot loop
say something about the aim itself, in which no tableau occurs.

The aim of phase 1 is a small artificial sum.  That of phase 2 is the
program's own, as seen through the standard form.
-/
import Mathlib
import TwoPhase.Proofs.BasicPoint
import TwoPhase.Proofs.Meaning

namespace TwoPhase

/-- A value to be made large over the solutions of a system of equations, which have one
entry for each column. -/
structure Aim where
  columns : List Column
  Solves : List ℚ → Prop
  value : List ℚ → ℚ

/-- The vectors among which an aim looks for the largest value. -/
@[mk_iff] structure Aim.IsSolution (aim : Aim) (y : List ℚ) : Prop where
  length_eq : y.length = aim.columns.length
  nonneg : ∀ v ∈ y, 0 ≤ v
  solves : aim.Solves y

namespace Tableau

/-- The rows have the solutions of the aim, and the objective row has its value there. -/
structure Expresses (t : Tableau ℚ) (aim : Aim) : Prop where
  columns_eq : t.columns = aim.columns
  solvedBy_iff : ∀ y : List ℚ, y.length = aim.columns.length → (t.SolvedBy y ↔ aim.Solves y)
  gap_objective : ∀ y : List ℚ, y.length = aim.columns.length → aim.Solves y →
    t.objective.gap y = aim.value y

/-- The tableau expresses the aim and is one that the pivot loop can work on. -/
structure Pursues (t : Tableau ℚ) (aim : Aim) : Prop where
  expresses : t.Expresses aim
  basic : t.IsBasicFeasible

variable {t : Tableau ℚ} {aim : Aim}

theorem Expresses.pivotOn (h : t.Expresses aim) (ht : t.IsRectangular) {r : BasicRow ℚ}
    {cell : Cell} (hr : t.rows[cell.row]? = some r) (hc : cell.column < t.columns.length)
    (hne : r.entry cell.column ≠ 0) : (t.pivotOn r.toRow cell 0).Expresses aim := by
  refine ⟨h.columns_eq, ?_, ?_⟩
  · intro y hy
    rw [solvedBy_pivotOn ht hr hc hne]
    exact h.solvedBy_iff y hy
  · intro y hy hsolves
    rw [gap_objective_pivotOn ht hr hc hne ((h.solvedBy_iff y hy).mpr hsolves)]
    exact h.gap_objective y hy hsolves

namespace Pursues

theorem shaped (h : t.Pursues aim) : t.IsShaped := h.basic.unit.shaped

theorem pivotOn (h : t.Pursues aim) {cell : Cell} {r : BasicRow ℚ}
    (hchoose : t.choose 0 = .ok (.pivot cell)) (hr : t.rows[cell.row]? = some r) :
    (t.pivotOn r.toRow cell 0).Pursues aim := by
  have hrect := h.shaped.rectangular
  obtain ⟨hc, r', hr', hpos⟩ := cell_of_choose hrect hchoose
  cases hr.symm.trans hr'
  exact ⟨h.expresses.pivotOn hrect hr hc hpos.ne', h.basic.pivotOn hchoose hr⟩

theorem isSolution_basicPoint (h : t.Pursues aim) : aim.IsSolution t.basicPoint := by
  have hlen : t.basicPoint.length = aim.columns.length := by
    rw [length_basicPoint, h.expresses.columns_eq]
  exact ⟨hlen, nonneg_basicPoint h.basic.feasible,
    (h.expresses.solvedBy_iff _ hlen).mp (solvedBy_basicPoint h.basic.unit)⟩

theorem value_basicPoint (h : t.Pursues aim) : aim.value t.basicPoint = t.objectiveValue := by
  have hsol := h.isSolution_basicPoint
  rw [← h.expresses.gap_objective _ hsol.length_eq hsol.solves]
  exact gap_objective_basicPoint h.basic.unit h.basic.priced

/-- Where the loop ends in an optimum, no solution has a larger value. -/
theorem value_le (h : t.Pursues aim) (hopt : t.choose 0 = .ok .optimal) {y : List ℚ}
    (hy : aim.IsSolution y) : aim.value y ≤ t.objectiveValue := by
  rw [← h.expresses.gap_objective y hy.length_eq hy.solves]
  exact gap_objective_le_of_optimal h.basic hopt hy.nonneg

/-- Where the loop finds the objective unbounded, so is the value. -/
theorem exists_value_gt (h : t.Pursues aim) {j : Nat}
    (hunb : t.choose 0 = .ok (.unbounded j)) (K : ℚ) :
    ∃ y, aim.IsSolution y ∧ K < aim.value y := by
  obtain ⟨y, hlen, hnonneg, hsolved, hgt⟩ := exists_gap_objective_gt h.basic hunb K
  rw [h.expresses.columns_eq] at hlen
  have hsolves := (h.expresses.solvedBy_iff y hlen).mp hsolved
  refine ⟨y, ⟨hlen, hnonneg, hsolves⟩, ?_⟩
  rwa [← h.expresses.gap_objective y hlen hsolves]

theorem of_price (hunit : t.HasUnitBasis) (hfeasible : t.IsFeasible) {costs : List ℚ}
    (hcosts : costs.length = t.columns.length) (hcolumns : t.columns = aim.columns)
    (hsolves : ∀ y : List ℚ, y.length = aim.columns.length → (t.SolvedBy y ↔ aim.Solves y))
    (hvalue : ∀ y : List ℚ, y.length = aim.columns.length → dot costs y = aim.value y) :
    ({ t with objective := t.pricedRow costs } : Tableau ℚ).Pursues aim := by
  have hreduced := IsReduced.of_price hunit hcosts
  refine ⟨⟨hcolumns, hsolves, fun y hy hy' => ?_⟩, ⟨hreduced.unit, hreduced.priced, hfeasible⟩⟩
  rw [← hvalue y hy]
  exact gap_pricedRow hunit.shaped.rectangular hcosts ((hsolves y hy).mpr hy')

end Pursues

end Tableau

namespace StandardForm

/-! ## The aims of the two phases -/

/-- Phase 1 wants the artificial sum small. -/
def phaseOneAim (f : StandardForm ℚ) : Aim where
  columns := f.columns
  Solves := f.SolvedBy
  value y := -f.artificialSum y

/-- Phase 2 wants the objective large, with the artificial columns at zero. -/
def phaseTwoAim (f : StandardForm ℚ) : Aim where
  columns := f.columns.filter fun c => ¬ c.IsArtificial
  Solves y := f.SolvedBy (f.extend y)
  value y := dot f.costs (f.extend y)

theorem phaseOneAim_value_nonpos {f : StandardForm ℚ} {y : List ℚ}
    (hy : f.phaseOneAim.IsSolution y) : f.phaseOneAim.value y ≤ 0 :=
  neg_nonpos.mpr (artificialSum_nonneg hy.nonneg)

section Program

variable {p : Program ℚ} {x y : List ℚ}

theorem columns_phaseTwoAim (p : Program ℚ) : (layout p).phaseTwoAim.columns = realColumns p :=
  filter_columns_layout p

theorem columns_eq_realColumns {t : Tableau ℚ} (h : t.Expresses (layout p).phaseTwoAim) :
    t.columns = realColumns p := h.columns_eq.trans (columns_phaseTwoAim p)

theorem length_realColumns (p : Program ℚ) :
    (realColumns p).length = p.numVars + (slackColumns (normalized p)).length := by
  simp [realColumns]

theorem isFeasible_iff_isSolution (h : p.objection = none) :
    p.IsFeasible x ↔
      x.length = p.numVars ∧ ∃ w, (layout p).phaseTwoAim.IsSolution (x ++ w) := by
  rw [isFeasible_iff h]
  refine and_congr_right fun hx => exists_congr fun w => ?_
  have hlen : (x ++ w).length = (layout p).phaseTwoAim.columns.length ↔
      w.length = (slackColumns (normalized p)).length := by
    rw [columns_phaseTwoAim, length_realColumns, List.length_append, hx, Nat.add_left_cancel_iff]
  exact ⟨fun ⟨hw, hnonneg, hsolved⟩ => ⟨hlen.mpr hw, hnonneg, hsolved⟩,
    fun hw => ⟨hlen.mp hw.length_eq, hw.nonneg, hw.solves⟩⟩

theorem isFeasible_take (h : p.objection = none) (hy : (layout p).phaseTwoAim.IsSolution y) :
    p.IsFeasible (y.take p.numVars) ∧
      (layout p).phaseTwoAim.value y = p.direction.signed (p.value (y.take p.numVars)) := by
  have hlen := hy.length_eq
  rw [columns_phaseTwoAim, length_realColumns] at hlen
  have htake : (y.take p.numVars).length = p.numVars := by
    rw [List.length_take]
    omega
  refine ⟨(isFeasible_iff_isSolution h).mpr ⟨htake, y.drop p.numVars, ?_⟩, ?_⟩
  · rw [List.take_append_drop]
    exact hy
  · show dot (layout p).costs ((layout p).extend y) = _
    rw [extend, ← List.take_append_drop p.numVars y, List.append_assoc, dot_costs_layout h htake,
      List.take_append_drop]

theorem exists_isSolution (h : p.objection = none) (hx : p.IsFeasible x) :
    ∃ y, (layout p).phaseTwoAim.IsSolution y ∧
      (layout p).phaseTwoAim.value y = p.direction.signed (p.value x) := by
  obtain ⟨hlen, w, hw⟩ := (isFeasible_iff_isSolution h).mp hx
  refine ⟨x ++ w, hw, ?_⟩
  show dot (layout p).costs ((layout p).extend (x ++ w)) = _
  rw [extend, List.append_assoc, dot_costs_layout h hlen]

theorem length_extend_of_length_eq (hy : y.length = (layout p).phaseTwoAim.columns.length) :
    ((layout p).extend y).length = (layout p).phaseOneAim.columns.length := by
  rw [length_extend, hy, columns_phaseTwoAim]
  exact (length_columns_layout p).symm

theorem isSolution_extend (hy : (layout p).phaseTwoAim.IsSolution y) :
    (layout p).phaseOneAim.IsSolution ((layout p).extend y) :=
  ⟨length_extend_of_length_eq hy.length_eq, nonneg_extend hy.nonneg, hy.solves⟩

/-- Where the artificial sum cannot come down to zero there is no feasible point. -/
theorem not_isFeasible_of_isLeast (h : p.objection = none) {s : ℚ} (hpos : 0 < s)
    (hleast : IsLeast ((layout p).artificialSum '' {y | (layout p).phaseOneAim.IsSolution y}) s) :
    ¬ p.IsFeasible x := by
  intro hx
  obtain ⟨y, hy, -⟩ := exists_isSolution h hx
  have hle := hleast.2 ⟨_, isSolution_extend hy, rfl⟩
  have hzero : (layout p).artificialSum ((layout p).extend y) = 0 :=
    artificialSum_extend (hy.length_eq.trans (by rw [columns_phaseTwoAim]))
  rw [hzero] at hle
  exact absurd hpos (not_lt.mpr hle)

/-! ## Where the solver starts -/

theorem hasUnitBasis_tableau (h : p.objection = none) : (layout p).tableau.HasUnitBasis :=
  ⟨isShaped_tableau_layout h, fun hr hs => entry_layout_basic h hr hs⟩

theorem isFeasible_tableau (p : Program ℚ) : (layout p).tableau.IsFeasible := by
  intro r hr
  obtain ⟨i, hi⟩ := List.mem_iff_getElem?.mp hr
  obtain ⟨c, -, rfl⟩ := layout_row hi
  exact Constraint.rhs_normalize_nonneg c

end Program

end StandardForm

end TwoPhase
