/-
# `Reduced` — every tableau of a solve is reduced to its basis

A tableau is reduced when each basic column is the unit vector of its row
and the objective row has nothing in it.  The equations start out that
way, and on exact numbers nothing on the course of a solve spoils it, for
every tolerance from zero to one: the entries pivoted on lie beyond the
tolerance, so they are not zero, and snapping leaves zeros and ones as
they are.  Feasibility plays no part, so the right-hand sides may be
anything, and where the solve stops makes no difference.
-/
import Mathlib
import TwoPhase.Proofs.Course
import TwoPhase.Proofs.Aim

namespace TwoPhase

theorem StandardForm.isReduced_tableau {f : StandardForm ℚ} (h : f.tableau.HasUnitBasis) :
    f.tableau.IsReduced := by
  refine ⟨h, fun r hr => ?_⟩
  have hlt : r.basic < f.tableau.objective.coeffs.length := by
    rw [h.shaped.rectangular.2]
    exact h.shaped.basic_lt r hr
  rw [Row.entry_of_lt hlt]
  exact List.getElem_map _

section Course

variable {settings : Settings ℚ} {f : StandardForm ℚ} {part : Part} {run : Run ℚ}

/-- Nothing on the course spoils the reduced form. -/
theorem Course.isReduced (h : Course settings f part run) (htol : 0 ≤ settings.tol)
    (htol' : settings.tol ≤ 1) (hf : f.tableau.HasUnitBasis) : run.tableau.IsReduced := by
  induction h with
  | start _ => exact .of_price hf (List.length_map _)
  | direct _ => exact StandardForm.isReduced_tableau hf
  | pivot _ hchoose hr _ ih =>
      obtain ⟨hc, r', hr', hpos⟩ := Tableau.cell_of_choose ih.unit.shaped.rectangular hchoose
      cases hr.symm.trans hr'
      exact ih.pivotOn htol' hr hc (htol.trans_lt hpos).ne'
  | settle _ _ ih => exact ih
  | clear _ _ ih => exact ih
  | keep _ _ _ ih => exact ih
  | swap _ hr _ hj _ ih =>
      -- the entry may be negative, but not zero
      exact ih.pivotOn htol' hr (Tableau.largestColumn_lt hj)
        (Tableau.entry_ne_zero_of_largestColumn htol hj)
  | drop _ _ _ _ ih => exact ih.eraseIdx _
  | restrict _ hreal ih =>
      exact ih.marked (List.length_map _) (ih.unit.shaped.realMask_basic hreal)
  | reprice _ ih => exact .of_price ih.unit (List.length_map _)

end Course

open StandardForm

/-- Whatever becomes of an exact solve with a tolerance from zero to one, each of its steps
and the final tableau are reduced to a basis of distinct columns, one for each row. -/
theorem solve_reduced {tol : ℚ} (htol : 0 ≤ tol) (htol' : tol ≤ 1) (feasibilityTol : ℚ)
    (m : Option Nat) {p : Program ℚ} (h : p.objection = none) :
    ∃ r t, solve ⟨tol, feasibilityTol, m⟩ p = .ok r ∧ r.final = some t ∧
      (∀ s ∈ r.steps, s.picture.IsReduced ∧ s.picture.basis.Nodup) ∧
        t.IsReduced ∧ t.basis.Nodup := by
  obtain ⟨r, hr⟩ := exists_report ⟨tol, feasibilityTol, m⟩ p
  obtain ⟨hsteps, t, hfinal, ht⟩ :=
    forall_tableau_of_solve (P := fun u => u.IsReduced ∧ u.basis.Nodup) h hr fun hrun =>
      have hreduced := hrun.isReduced htol htol' (hasUnitBasis_tableau h)
      ⟨hreduced, hreduced.unit.nodup_basis⟩
  exact ⟨r, t, hr, hfinal, hsteps, ht⟩

/-- The budget runs out between the phases, before the second artificial column is swapped. -/
theorem solve_reduced_exhaustedClearing :
    ∃ r t, solve ⟨1 / 2, 0, some 1⟩ (⟨2, [1, 1], [⟨[1, 1], .equal, 4⟩, ⟨[1, -1], .equal, 4⟩],
        .maximize⟩ : Program ℚ) = .ok r ∧ r.final = some t ∧
      (∀ s ∈ r.steps, s.picture.IsReduced ∧ s.picture.basis.Nodup) ∧
        t.IsReduced ∧ t.basis.Nodup :=
  solve_reduced (by norm_num) (by norm_num) 0 (some 1) (by decide +kernel)

end TwoPhase
