/-
# `Ascent` — the steps of an exact solve stay feasible and go up

With nothing tolerated, no right-hand side of a step falls below zero, and
within a phase no step has a smaller objective than one before it.  In the
pivot loops both come from the signs that the rules of choice look for:
the least ratio is not negative and the entering column has a negative
reduced cost.  A swap has neither sign, but pivots in a row at level zero,
so it leaves the objective where the loop of phase 1 has brought it.
-/
import Mathlib
import TwoPhase.Proofs.Phases
import TwoPhase.Proofs.Replay

namespace TwoPhase

/-! ## The objective in a pivot -/

namespace Tableau

variable {t : Tableau ℚ} {cell : Cell} {r : BasicRow ℚ}

/-- A pivot by the rules of choice takes nothing from the objective. -/
theorem IsBasicFeasible.objectiveValue_le (h : t.IsBasicFeasible)
    (hchoose : t.choose 0 = .ok (.pivot cell)) (hr : t.rows[cell.row]? = some r) :
    t.objectiveValue ≤ (t.pivotOn r.toRow cell 0).objectiveValue := by
  have hshaped := h.unit.shaped
  obtain ⟨hc, r', hr', hpos⟩ := cell_of_choose hshaped.rectangular hchoose
  cases hr.symm.trans hr'
  have hcost : t.objective.entry cell.column ≤ 0 := by
    have hneg := entry_lt_of_entering (entering_of_pivot hshaped.rectangular hchoose).1
    simpa using hneg.le
  have hratio : 0 ≤ r.rhs / r.entry cell.column :=
    div_nonneg (h.feasible r (List.mem_of_getElem? hr)) hpos.le
  rw [objectiveValue_pivotOn hshaped hr hc]
  have hchange := mul_nonpos_of_nonneg_of_nonpos hratio hcost
  linarith

theorem objectiveValue_pivotOn_of_rhs_eq_zero (ht : t.IsShaped)
    (hr : t.rows[cell.row]? = some r) (hc : cell.column < t.columns.length)
    (hzero : r.rhs = 0) :
    (t.pivotOn r.toRow cell 0).objectiveValue = t.objectiveValue := by
  rw [objectiveValue_pivotOn ht hr hc, hzero, zero_div, zero_mul, sub_zero]

end Tableau

/-- The steps of a solve stay feasible, and the objective goes up phase by phase. -/
structure IsAscent (steps : List (Step (Tableau ℚ))) : Prop where
  feasible : ∀ s ∈ steps, s.picture.IsFeasible
  rising : steps.Pairwise fun q s =>
    q.phase = s.phase → q.picture.objectiveValue ≤ s.picture.objectiveValue
  /-- After the loop of phase 1 its objective stays. -/
  level : steps.Pairwise fun q s => q.phase = 1 → q.pivot = none → s.phase = 1 →
    s.picture.objectiveValue = q.picture.objectiveValue
  /-- What a swap leads to has the same objective. -/
  swaps : Throughout (fun before s => s.phase = 1 ∧ LoopEnded before →
    ∃ t, s.result 0 = .ok t ∧ t.objectiveValue = s.picture.objectiveValue) steps

/-! ## The course goes up -/

section Course

open StandardForm

variable {p : Program ℚ} {m : Option Nat} {part : Part} {run : Run ℚ} {i : Nat}
  {r : BasicRow ℚ}

/-- No part of an exact solve has a right-hand side below zero. -/
theorem Course.isFeasible (hrun : Course ⟨0, 0, m⟩ (layout p) part run)
    (h : p.objection = none) : run.tableau.IsFeasible := by
  have hheeds := hrun.heeds h
  cases part with
  | pivoting phase => exact (show run.IsPursuing _ _ from hheeds).pursues.basic.feasible
  | settled phase => exact (show run.HasPursued _ _ from hheeds).pursues.basic.feasible
  | clearing i => exact (show run.IsClearing _ from hheeds).feasible
  | cleared => exact (show run.IsCleared _ from hheeds).feasible

theorem Course.objectiveValue_swap (hrun : Course ⟨0, 0, m⟩ (layout p) (.clearing i) run)
    (h : p.objection = none) {k j : Nat} (hr : run.tableau.rows[k]? = some r)
    (hart : r.IsArtificial run.tableau.columns)
    (hj : run.tableau.largestColumn r.toRow 0 = some j) :
    (run.tableau.pivotOn r.toRow ⟨k, j⟩ 0).objectiveValue = run.tableau.objectiveValue := by
  have hclearing : run.IsClearing (layout p) := hrun.heeds h
  exact Tableau.objectiveValue_pivotOn_of_rhs_eq_zero hclearing.unit.shaped hr
    (Tableau.largestColumn_lt hj) (hclearing.level r (List.mem_of_getElem? hr) hart)

theorem Course.objectiveValue_le (hrun : Course ⟨0, 0, m⟩ (layout p) part run)
    (h : p.objection = none) : ∀ q ∈ run.steps.toList, q.phase = part.phase →
      q.picture.objectiveValue ≤ run.tableau.objectiveValue := by
  induction hrun with
  | start _ => exact fun q hq => (nomatch hq)
  | direct _ => exact fun q hq => (nomatch hq)
  | pivot hrun hchoose hr _ ih =>
      have hpursuing : Run.IsPursuing _ (layout p) _ := hrun.heeds h
      have hle := hpursuing.pursues.basic.objectiveValue_le hchoose hr
      rw [Run.steps_afterPivot]
      exact List.forall_mem_append.mpr ⟨fun q hq hphase => (ih q hq hphase).trans hle,
        List.forall_mem_singleton.mpr fun _ => hle⟩
  | settle _ _ ih =>
      simp only [Run.steps_record]
      exact List.forall_mem_append.mpr ⟨ih, List.forall_mem_singleton.mpr fun _ => le_rfl⟩
  | clear _ _ ih => exact ih
  | keep _ _ _ ih => exact ih
  | swap hrun hr hart hj _ ih =>
      have hle := (hrun.objectiveValue_swap h hr hart hj).ge
      rw [Run.steps_afterPivot]
      exact List.forall_mem_append.mpr ⟨fun q hq hphase => (ih q hq hphase).trans hle,
        List.forall_mem_singleton.mpr fun _ => hle⟩
  | drop _ _ _ _ ih => exact ih
  | restrict _ _ ih => exact ih
  | reprice hrun _ => exact fun q hq hphase => absurd hphase (hrun.phase_ne_two q hq)

/-- Once the loop of phase 1 has ended, its objective stays until the artificial columns
are gone. -/
theorem Course.objectiveValue_eq (hrun : Course ⟨0, 0, m⟩ (layout p) part run)
    (h : p.objection = none) (hfirst : part.IsFirst) : ∀ q ∈ run.steps.toList,
      q.phase = 1 → q.pivot = none → run.tableau.objectiveValue = q.picture.objectiveValue := by
  induction hrun with
  | start _ => exact fun q hq => (nomatch hq)
  | direct _ => exact fun q hq => (nomatch hq)
  | pivot hrun _ _ _ ih =>
      obtain rfl : _ = 1 := hfirst
      rw [Run.steps_afterPivot]
      refine List.forall_mem_append.mpr ⟨fun q hq hphase hend => ?_,
        List.forall_mem_singleton.mpr fun _ hend => (nomatch hend)⟩
      exact absurd ⟨q, hq, hphase, hend⟩ hrun.not_loopEnded_of_pivoting
  | settle hrun _ ih =>
      obtain rfl : _ = 1 := hfirst
      simp only [Run.steps_record]
      refine List.forall_mem_append.mpr ⟨fun q hq hphase hend => ?_,
        List.forall_mem_singleton.mpr fun _ _ => rfl⟩
      exact absurd ⟨q, hq, hphase, hend⟩ hrun.not_loopEnded_of_pivoting
  | clear _ _ ih => exact ih rfl
  | keep _ _ _ ih => exact ih trivial
  | swap hrun hr hart hj _ ih =>
      have hsame := hrun.objectiveValue_swap h hr hart hj
      rw [Run.steps_afterPivot]
      exact List.forall_mem_append.mpr
        ⟨fun q hq hphase hend => hsame.trans (ih trivial q hq hphase hend),
          List.forall_mem_singleton.mpr fun _ hend => (nomatch hend)⟩
  | drop _ _ _ _ ih => exact ih trivial
  | restrict _ _ _ => exact hfirst.elim
  | reprice _ _ => exact absurd hfirst (show ¬ (2 : Nat) = 1 by decide)

end Course

/-! ## The steps go up -/

section Report

open StandardForm

variable {p : Program ℚ} {m : Option Nat} {r : Report (Tableau ℚ) ℚ}

theorem isAscent_of_solve (h : p.objection = none) (hr : solve ⟨0, 0, m⟩ p = .ok r) :
    IsAscent r.steps := by
  have htaken := taken_of_solve h hr
  constructor
  case feasible =>
    exact (forall_tableau_of_solve h hr fun hrun => hrun.isFeasible h).1
  case rising =>
    refine Throughout.pairwise fun before s after hsplit q hq hphase => ?_
    obtain ⟨part, run, hrun, hpart, hbefore, hpicture⟩ :=
      (htaken before s after hsplit).exists_course
    rw [hpicture]
    exact hrun.objectiveValue_le h q (hbefore ▸ hq) (hphase.trans hpart.symm)
  case level =>
    refine Throughout.pairwise fun before s after hsplit q hq hphase hend hone => ?_
    cases htaken before s after hsplit with
    | pivoting hrun hbefore hpicture _ =>
        rw [hpicture]
        exact hrun.objectiveValue_eq h hone q (hbefore ▸ hq) hphase hend
    | clearing hrun hbefore hpicture _ _ =>
        rw [hpicture]
        exact hrun.objectiveValue_eq h trivial q (hbefore ▸ hq) hphase hend
  case swaps =>
    rintro before s after hsplit ⟨hphase, hended⟩
    cases htaken before s after hsplit with
    | pivoting hrun hbefore _ _ =>
        rw [hphase] at hrun
        exact absurd (hbefore ▸ hended) hrun.not_loopEnded_of_pivoting
    | @clearing i run hrun hbefore hpicture _ hswap =>
        have hshaped := hrun.shaped (isShaped_tableau_layout h)
        obtain ⟨cell, r, hpivot, hrow, hart, hj⟩ := hswap
        rw [hpicture] at hrow hart hj ⊢
        rw [Tableau.replacement_of_row hshaped.rectangular hrow] at hj
        have hj := Except.ok.inj hj
        refine ⟨run.tableau.pivotOn r.toRow cell 0, ?_, hrun.objectiveValue_swap h hrow hart hj⟩
        rw [Step.result, hpivot, hpicture]
        exact Tableau.pivot_of_shaped hshaped hrow (Tableau.largestColumn_lt hj)

/-- Whatever becomes of a solve in which nothing is tolerated, its steps and its final tableau
have no right-hand side below zero, and phase by phase the objective goes up from step to
step; over the swaps at the end of phase 1 it stays. -/
theorem solve_ascends (h : p.objection = none) (m : Option Nat) :
    ∃ r t, solve ⟨0, 0, m⟩ p = .ok r ∧ r.final = some t ∧ t.IsFeasible ∧ IsAscent r.steps := by
  obtain ⟨r, hr⟩ := exists_report ⟨0, 0, m⟩ p
  obtain ⟨-, t, hfinal, ht⟩ := forall_tableau_of_solve h hr fun hrun => hrun.isFeasible h
  exact ⟨r, t, hr, hfinal, ht, isAscent_of_solve h hr⟩

/-- The entry that is swapped on is negative here. -/
theorem solve_ascends_swap :
    ∃ r t, solve ⟨0, 0, none⟩ (⟨2, [1, 1], [⟨[1, 1], .equal, 4⟩, ⟨[1, -1], .equal, 4⟩],
        .maximize⟩ : Program ℚ) = .ok r ∧ r.final = some t ∧ t.IsFeasible ∧ IsAscent r.steps :=
  solve_ascends (by decide +kernel) none

end Report

end TwoPhase
