/-
# `Cycling` — a basis comes back only where nothing moves

The rules of choice may lead a pivot loop back to basic columns that it
has had before, and from there it goes round for as long as the budget
lets it.  In exact arithmetic this costs nothing but time.  The basic
columns fix the tableau up to the order of its rows, so what comes back
with them is the objective as well.  But a pivot in a row that is not at
level zero adds to the objective, and no pivot of the loop takes anything
from it: between the two steps all rows pivoted in are at level zero.
-/
import Mathlib
import TwoPhase.Proofs.Ascent
import TwoPhase.Proofs.Forms

namespace TwoPhase

/-! ## What a basis fixes -/

namespace Tableau

variable {t u : Tableau ℚ} {aim : Aim}

theorem Expresses.agrees (ht : t.Expresses aim) (hu : u.Expresses aim) : t.Agrees u := by
  refine ⟨⟨ht.columns_eq.trans hu.columns_eq.symm, fun y hy => ?_⟩, fun y hy hsolved => ?_⟩
  · rw [ht.columns_eq] at hy
    rw [ht.solvedBy_iff y hy, hu.solvedBy_iff y hy]
  · rw [ht.columns_eq] at hy
    have hsolves := (ht.solvedBy_iff y hy).mp hsolved
    rw [ht.gap_objective y hy hsolves, hu.gap_objective y hy hsolves]

/-- Over the same basic columns there is one tableau for an aim, but for the order of its
rows. -/
theorem Pursues.eq_of_basis (ht : t.Pursues aim) (hu : u.Pursues aim)
    (hbasis : ∀ j, j ∈ t.basis ↔ j ∈ u.basis) :
    t.rows.Perm u.rows ∧ t.objective = u.objective := by
  have hsame := (ht.expresses.agrees hu.expresses).isReordering
    ⟨ht.basic.unit, ht.basic.priced⟩ ⟨hu.basic.unit, hu.basic.priced⟩ hbasis
  exact ⟨hsame.perm_rows, hsame.objective_eq⟩

theorem IsBasicFeasible.objectiveValue_lt (h : t.IsBasicFeasible) {cell : Cell} {r : BasicRow ℚ}
    (hchoose : t.choose 0 = .ok (.pivot cell)) (hr : t.rows[cell.row]? = some r)
    (hlevel : r.rhs ≠ 0) : t.objectiveValue < (t.pivotOn r.toRow cell 0).objectiveValue := by
  have hshaped := h.unit.shaped
  obtain ⟨hc, r', hr', hpos⟩ := cell_of_choose hshaped.rectangular hchoose
  cases hr.symm.trans hr'
  have hcost : t.objective.entry cell.column < 0 := by
    simpa using entry_lt_of_entering (entering_of_pivot hshaped.rectangular hchoose).1
  refine lt_of_le_of_ne (h.objectiveValue_le hchoose hr) fun hsame => ?_
  rw [objectiveValue_pivotOn hshaped hr hc] at hsame
  have hgain : r.rhs / r.entry cell.column * t.objective.entry cell.column = 0 := by linarith
  exact mul_ne_zero (div_ne_zero hlevel hpos.ne') hcost.ne hgain

end Tableau

/-! ## Steps of a pivot loop -/

/-- The step has a pivot, and the row pivoted in is at level zero. -/
def Step.IsDegenerate (s : Step (Tableau ℚ)) : Prop :=
  ∃ cell r, s.pivot = some cell ∧ s.picture.rows[cell.row]? = some r ∧ r.rhs = 0

section Loop

variable {α : Type}

/-- The step is one of the pivot loop of a phase, given the steps before it.  The swaps that
follow the loop of phase 1 are not. -/
def Step.IsInLoop (n : Nat) (before : List (Step (Tableau α))) (s : Step (Tableau α)) : Prop :=
  s.phase = n ∧ ¬ (n = 1 ∧ LoopEnded before)

/-- Among the steps there is a stretch of the pivot loop of a phase: two steps of it, and
those between them. -/
def HasStretch (steps : List (Step (Tableau α))) (n : Nat) (q : Step (Tableau α))
    (between : List (Step (Tableau α))) (s : Step (Tableau α)) : Prop :=
  ∃ before after, steps = before ++ q :: between ++ s :: after ∧ q.IsInLoop n before ∧
    s.IsInLoop n (before ++ q :: between)

theorem pairwise_stretch {σ : Type} {R : σ → σ → Prop} {before between after : List σ}
    {q s w : σ} (h : (before ++ q :: between ++ s :: after).Pairwise R)
    (hw : w ∈ q :: between) : (w = q ∨ R q w) ∧ R w s := by
  obtain ⟨hprior, -, hlast⟩ := List.pairwise_append.mp h
  refine ⟨?_, hlast w (List.mem_append_right _ hw) s List.mem_cons_self⟩
  obtain ⟨hfirst, -⟩ := List.pairwise_cons.mp (List.pairwise_append.mp hprior).2.1
  exact (List.mem_cons.mp hw).imp_right (hfirst w)

variable [Scalar α] {p : Program α} {settings : Settings α} {r : Report (Tableau α) α}

open StandardForm

theorem Step.IsInLoop.exists_course {n : Nat} {before after : List (Step (Tableau α))}
    {s : Step (Tableau α)} (hs : s.IsInLoop n before) (h : p.objection = none)
    (hr : solve settings p = .ok r) (hsplit : r.steps = before ++ s :: after) :
    ∃ run, Course settings (layout p) (.pivoting n) run ∧ run.steps.toList = before ∧
      s.picture = run.tableau := by
  obtain ⟨rfl, hopen⟩ := hs
  cases taken_of_solve h hr before s after hsplit with
  | pivoting hrun hbefore hpicture _ => exact ⟨_, hrun, hbefore, hpicture⟩
  | clearing hrun hbefore _ hphase _ =>
      exact absurd ⟨hphase, hbefore ▸ hrun.loopEnded_of_clearing⟩ hopen

end Loop

/-! ## Nothing moves where a basis comes back -/

section Exact

open StandardForm

variable {p : Program ℚ} {m : Option Nat} {run : Run ℚ} {r : Report (Tableau ℚ) ℚ} {n : Nat}

/-- In a pivot loop every step of it had a smaller objective than the run has come to, or its
pivot was degenerate. -/
theorem Course.lt_or_isDegenerate (hrun : Course ⟨0, 0, m⟩ (layout p) (.pivoting n) run)
    (h : p.objection = none) : ∀ w ∈ run.steps.toList, w.phase = n →
      w.picture.objectiveValue < run.tableau.objectiveValue ∨ w.IsDegenerate := by
  refine hrun.of_pivoting (P := fun run => ∀ w ∈ run.steps.toList, w.phase = n →
    w.picture.objectiveValue < run.tableau.objectiveValue ∨ w.IsDegenerate) ?_ ?_ ?_
  · exact fun _ _ _ w hw => (nomatch hw)
  · rintro rfl run log hrun w hw hphase
    exact absurd hphase (hrun.phase_ne_two w hw)
  · intro run cell r log hrun ih hchoose hr
    have hpursuing : run.IsPursuing (layout p) n := hrun.heeds h
    have hbasic := hpursuing.pursues.basic
    rw [Run.steps_afterPivot]
    refine List.forall_mem_append.mpr ⟨fun w hw hphase => ?_,
      List.forall_mem_singleton.mpr fun _ => ?_⟩
    · exact (ih w hw hphase).imp_left fun hlt =>
        hlt.trans_le (hbasic.objectiveValue_le hchoose hr)
    · by_cases hlevel : r.rhs = 0
      · exact .inr ⟨cell, r, rfl, hr, hlevel⟩
      · exact .inl (hbasic.objectiveValue_lt hchoose hr hlevel)

theorem HasStretch.eq_of_basis {q s : Step (Tableau ℚ)} {between : List (Step (Tableau ℚ))}
    (hstretch : HasStretch r.steps n q between s) (h : p.objection = none)
    (hr : solve ⟨0, 0, m⟩ p = .ok r)
    (hbasis : q.picture.basis.toFinset = s.picture.basis.toFinset) :
    q.picture.rows.Perm s.picture.rows ∧ q.picture.objective = s.picture.objective := by
  obtain ⟨before, after, hsplit, hq, hs⟩ := hstretch
  obtain ⟨runq, hrunq, -, hpicture⟩ :=
    hq.exists_course h hr (hsplit.trans (List.append_assoc _ _ _))
  obtain ⟨runs, hruns, -, hpicture'⟩ := hs.exists_course h hr hsplit
  have hpursuing : runq.IsPursuing (layout p) n := hrunq.heeds h
  have hpursuing' : runs.IsPursuing (layout p) n := hruns.heeds h
  rw [hpicture, hpicture'] at hbasis ⊢
  refine hpursuing.pursues.eq_of_basis hpursuing'.pursues fun j => ?_
  rw [← List.mem_toFinset, hbasis, List.mem_toFinset]

/-- Where a stretch of a pivot loop ends with the objective that it began with, all its
pivots are degenerate. -/
theorem HasStretch.isDegenerate {q s : Step (Tableau ℚ)} {between : List (Step (Tableau ℚ))}
    (hstretch : HasStretch r.steps n q between s) (h : p.objection = none)
    (hr : solve ⟨0, 0, m⟩ p = .ok r)
    (hlevel : q.picture.objectiveValue = s.picture.objectiveValue) :
    ∀ w ∈ q :: between, w.IsDegenerate := by
  obtain ⟨before, after, hsplit, hq, hs⟩ := hstretch
  obtain ⟨run, hrun, hbefore, hpicture⟩ := hs.exists_course h hr hsplit
  intro w hw
  obtain ⟨hafter, hprior⟩ := pairwise_stretch (hsplit ▸ (isReplay_of_solve h hr).sorted) hw
  -- phases do not go down, so what stands between is of the loop as well
  have hphase : w.phase = n := by
    rcases hafter with rfl | hle
    · exact hq.1
    · exact le_antisymm (hs.1 ▸ hprior) (hq.1 ▸ hle)
  have hrise : q.picture.objectiveValue ≤ w.picture.objectiveValue := by
    rcases (pairwise_stretch (hsplit ▸ (isAscent_of_solve h hr).rising) hw).1 with rfl | hle
    · exact le_rfl
    · exact hle (hq.1.trans hphase.symm)
  have hw' : w ∈ run.steps.toList := hbefore ▸ List.mem_append_right _ hw
  rcases hrun.lt_or_isDegenerate h w hw' hphase with hlt | hdegenerate
  · rw [← hpicture, ← hlevel] at hlt
    exact absurd hrise (not_le.mpr hlt)
  · exact hdegenerate

/-- Where the basic columns of two steps of one pivot loop are the same, the objective of the
two is the same, and every pivot from the one to the other is in a row at level zero.  So no
basis comes back in a loop without such pivots. -/
theorem basis_repeats_only_degenerate (h : p.objection = none) (m : Option Nat) :
    ∃ r, solve ⟨0, 0, m⟩ p = .ok r ∧ ∀ n,
      (∀ q between s, HasStretch r.steps n q between s →
        q.picture.basis.toFinset = s.picture.basis.toFinset →
          q.picture.objectiveValue = s.picture.objectiveValue ∧
            ∀ w ∈ q :: between, w.IsDegenerate) ∧
      ((∀ before w after, r.steps = before ++ w :: after → w.IsInLoop n before →
          ¬ w.IsDegenerate) →
        ∀ q between s, HasStretch r.steps n q between s →
          q.picture.basis.toFinset ≠ s.picture.basis.toFinset) := by
  obtain ⟨r, hr⟩ := exists_report ⟨0, 0, m⟩ p
  have hrepeat : ∀ n q between s, HasStretch r.steps n q between s →
      q.picture.basis.toFinset = s.picture.basis.toFinset →
        q.picture.objectiveValue = s.picture.objectiveValue ∧
          ∀ w ∈ q :: between, w.IsDegenerate := by
    intro n q between s hstretch hbasis
    have hlevel : q.picture.objectiveValue = s.picture.objectiveValue :=
      congrArg Row.rhs (hstretch.eq_of_basis h hr hbasis).2
    exact ⟨hlevel, hstretch.isDegenerate h hr hlevel⟩
  refine ⟨r, hr, fun n => ⟨hrepeat n, fun hnone q between s hstretch hbasis => ?_⟩⟩
  have hdegenerate := (hrepeat n q between s hstretch hbasis).2 q List.mem_cons_self
  obtain ⟨before, after, hsplit, hq, -⟩ := hstretch
  exact hnone before q _ (hsplit.trans (List.append_assoc _ _ _)) hq hdegenerate

/-- Six pivots lead back to the basis of the start. -/
theorem basis_repeats_only_degenerate_around :
    let p : Program ℚ := ⟨4, [3 / 4, -20, 1 / 2, -6], [⟨[1 / 4, -8, -1, 9], .atMost, 0⟩,
      ⟨[1 / 2, -12, -1 / 2, 3], .atMost, 0⟩, ⟨[0, 0, 1, 0], .atMost, 1⟩], .maximize⟩
    ∃ r q between s, solve ⟨0, 0, some 7⟩ p = .ok r ∧ HasStretch r.steps 2 q between s ∧
      between.length = 5 ∧ q.picture.basis.toFinset = s.picture.basis.toFinset ∧
      q.picture.objectiveValue = s.picture.objectiveValue ∧
        ∀ w ∈ q :: between, w.IsDegenerate := by
  intro p
  obtain ⟨r, hr, hrepeat⟩ := basis_repeats_only_degenerate (p := p) (by decide +kernel) (some 7)
  have hbases : (solve ⟨0, 0, some 7⟩ p).toOption.map
      (fun r => r.steps.map fun s => (s.phase, s.picture.basis)) =
        some ((2, [4, 5, 6]) :: [(2, [0, 5, 6]), (2, [0, 1, 6]), (2, [2, 1, 6]), (2, [2, 3, 6]),
          (2, [4, 3, 6])] ++ [(2, [4, 5, 6])]) := by
    decide +kernel
  rw [hr] at hbases
  obtain ⟨first, last, hsplit, hfirst, hlast⟩ :=
    List.map_eq_append_iff.mp (Option.some.inj hbases)
  obtain ⟨q, between, rfl, hq, hbetween⟩ := List.map_eq_cons_iff.mp hfirst
  obtain ⟨s, rfl, hs⟩ := List.map_eq_singleton_iff.mp hlast
  obtain ⟨hqphase, hqbasis⟩ := Prod.mk.inj hq
  obtain ⟨hsphase, hsbasis⟩ := Prod.mk.inj hs
  have hlength : between.length = 5 := by simpa using congrArg List.length hbetween
  have hstretch : HasStretch r.steps 2 q between s :=
    ⟨[], [], hsplit, ⟨hqphase, fun hloop => nomatch hloop.1⟩, hsphase,
      fun hloop => nomatch hloop.1⟩
  have hbasis : q.picture.basis.toFinset = s.picture.basis.toFinset := by rw [hqbasis, hsbasis]
  exact ⟨r, q, between, s, hr, hstretch, hlength, hbasis,
    (hrepeat 2).1 q between s hstretch hbasis⟩

end Exact

end TwoPhase
