/-
# `Accounting` — a solve comes to its end, and its steps account for it

Nothing in the arithmetic makes a pivot loop end: a basis may come back,
and of machine doubles not even the comparisons can be relied on.  What
ends the loops is the budget that all pivots draw on, and what ends the
scan for artificial columns is that each look leaves fewer rows to look
at.  `Round` is one thing done to a run, without any note of how much is
left to do; the runs that rounds lead to are those of the course, and the
rounds use up a natural number.

The counter of pivots is kept beside the steps, not read off them.  That
the two agree, that the counter stays within the budget and that a phase
ends at most once are inductions on the course.
-/
import Mathlib
import TwoPhase.Proofs.Replay

namespace TwoPhase

variable {α : Type} [Scalar α]

/-! ## Rounds -/

/-- One thing that is done to a run of a solve. -/
inductive Round (settings : Settings α) (f : StandardForm α) :
    Part × Run α → Part × Run α → Prop where
  | pivot {phase : Nat} {run : Run α} {cell : Cell} {r : BasicRow α} {log : Array (Event α)}
      (hchoose : run.tableau.choose settings.tol = .ok (.pivot cell))
      (hr : run.tableau.rows[cell.row]? = some r) (hbudget : run.pivots < settings.budget f) :
      Round settings f (.pivoting phase, run)
        (.pivoting phase, run.afterPivot settings.tol phase r.toRow cell log)
  | settle {phase : Nat} {run : Run α} {log : Array (Event α)}
      (hchoose : run.tableau.choose settings.tol = .ok .optimal) :
      Round settings f (.pivoting phase, run) (.settled phase, { run.record phase none with log })
  | clear {run : Run α}
      (hresidual : ¬ settings.feasibilityTol < -run.tableau.objectiveValue) :
      Round settings f (.settled 1, run) (.clearing 0, run)
  | keep {i : Nat} {run : Run α} {r : BasicRow α} (hr : run.tableau.rows[i]? = some r)
      (hreal : ¬ r.IsArtificial run.tableau.columns) :
      Round settings f (.clearing i, run) (.clearing (i + 1), run)
  | swap {i j : Nat} {run : Run α} {r : BasicRow α} {log : Array (Event α)}
      (hr : run.tableau.rows[i]? = some r) (hart : r.IsArtificial run.tableau.columns)
      (hj : run.tableau.largestColumn r.toRow settings.tol = some j)
      (hbudget : run.pivots < settings.budget f) :
      Round settings f (.clearing i, run)
        (.clearing (i + 1), run.afterPivot settings.tol 1 r.toRow ⟨i, j⟩ log)
  | drop {i : Nat} {run : Run α} {r : BasicRow α} {log : Array (Event α)}
      (hr : run.tableau.rows[i]? = some r) (hart : r.IsArtificial run.tableau.columns)
      (hnone : run.tableau.largestColumn r.toRow settings.tol = none) :
      Round settings f (.clearing i, run) (.clearing i, { run with
        tableau := { run.tableau with rows := run.tableau.rows.eraseIdx i }, log })
  | restrict {run : Run α} (hreal : ∀ r ∈ run.tableau.rows, ¬ r.IsArtificial run.tableau.columns) :
      Round settings f (.clearing run.tableau.rows.length, run) (.cleared, { run with
        tableau := run.tableau.marked run.tableau.realMask })
  | reprice {run : Run α} {log : Array (Event α)} :
      Round settings f (.cleared, run) (.pivoting 2, { run with
        tableau := { run.tableau with
          objective := run.tableau.pricedRow (run.tableau.columns.map f.costOf) }, log })

inductive SetsOut (f : StandardForm α) : Part × Run α → Prop where
  | start {log : Array (Event α)} (hart : f.HasArtificials) :
      SetsOut f (.pivoting 1, ⟨{ f.tableau with
        objective := f.tableau.pricedRow (phaseOneCosts f.columns) }, #[], 0, log⟩)
  | direct {log : Array (Event α)} (hart : ¬ f.HasArtificials) :
      SetsOut f (.cleared, ⟨f.tableau, #[], 0, log⟩)

/-- Rounds lead here. -/
def Reached (settings : Settings α) (f : StandardForm α) (now : Part × Run α) : Prop :=
  ∃ start, SetsOut f start ∧ Relation.ReflTransGen (Round settings f) start now

section Rounds

variable {settings : Settings α} {f : StandardForm α} {part : Part} {run : Run α}
  {now next : Part × Run α}

theorem Reached.round (h : Reached settings f now) (hround : Round settings f now next) :
    Reached settings f next := by
  obtain ⟨start, hstart, hrounds⟩ := h
  exact ⟨start, hstart, hrounds.tail hround⟩

theorem Course.round (h : Course settings f now.1 now.2) (hround : Round settings f now next) :
    Course settings f next.1 next.2 := by
  cases hround with
  | pivot hchoose hr hbudget => exact h.pivot hchoose hr hbudget
  | settle hchoose => exact h.settle hchoose
  | clear hresidual => exact h.clear hresidual
  | keep hr hreal => exact h.keep hr hreal
  | swap hr hart hj hbudget => exact h.swap hr hart hj hbudget
  | drop hr hart hnone => exact h.drop hr hart hnone
  | restrict hreal => exact h.restrict hreal
  | reprice => exact h.reprice

/-- The course of a solve is what its rounds lead to. -/
theorem course_iff_reached : Course settings f part run ↔ Reached settings f (part, run) := by
  constructor
  · intro h
    induction h with
    | start hart => exact ⟨_, .start hart, .refl⟩
    | direct hart => exact ⟨_, .direct hart, .refl⟩
    | pivot _ hchoose hr hbudget ih => exact ih.round (.pivot hchoose hr hbudget)
    | settle _ hchoose ih => exact ih.round (.settle hchoose)
    | clear _ hresidual ih => exact ih.round (.clear hresidual)
    | keep _ hr hreal ih => exact ih.round (.keep hr hreal)
    | swap _ hr hart hj hbudget ih => exact ih.round (.swap hr hart hj hbudget)
    | drop _ hr hart hnone ih => exact ih.round (.drop hr hart hnone)
    | restrict _ hreal ih => exact ih.round (.restrict hreal)
    | reprice _ ih => exact ih.round .reprice
  · rintro ⟨start, hstart, hrounds⟩
    have hfirst : Course settings f start.1 start.2 := by
      cases hstart with
      | start hart => exact .start hart
      | direct hart => exact .direct hart
    exact hrounds.head_induction_on (motive := fun now _ => Course settings f now.1 now.2 →
      Course settings f part run) id (fun hround _ ih h => ih (h.round hround)) hfirst

/-! ## Rounds come to an end -/

def Part.ahead : Part → Nat
  | .pivoting n => if n = 1 then 5 else 1
  | .settled n => if n = 1 then 4 else 0
  | .clearing _ => 3
  | .cleared => 2

/-- How many rows, out of the given number, the scan for artificial columns has yet to look
at. -/
def Part.unseen (rows : Nat) : Part → Nat
  | .pivoting n => if n = 1 then rows else 0
  | .settled n => if n = 1 then rows else 0
  | .clearing i => rows - i
  | .cleared => 0

/-- What rounds use up: parts, rows and pivots. -/
def potential (settings : Settings α) (f : StandardForm α) (now : Part × Run α) : Nat :=
  now.1.ahead + now.1.unseen now.2.tableau.rows.length + (settings.budget f - now.2.pivots)

theorem Round.potential_lt (h : Round settings f now next) :
    potential settings f next < potential settings f now := by
  have hseen : ∀ {i : Nat} {run : Run α} {r : BasicRow α}, run.tableau.rows[i]? = some r →
      i < run.tableau.rows.length := fun hr => (List.getElem?_eq_some_iff.mp hr).1
  -- pivots and swaps use up a pivot, rows kept or dropped a row, and all else a part
  cases h with
  | pivot hchoose hr hbudget =>
      simp only [potential, Run.afterPivot, Tableau.length_rows_pivotOn]
      omega
  | @settle phase run log hchoose =>
      simp only [potential, Part.ahead, Part.unseen, Run.record]
      split <;> omega
  | clear hresidual =>
      simp only [potential, Part.ahead, Part.unseen, if_true]
      omega
  | keep hr hreal =>
      have hi := hseen hr
      simp only [potential, Part.ahead, Part.unseen]
      omega
  | swap hr hart hj hbudget =>
      simp only [potential, Part.ahead, Part.unseen, Run.afterPivot,
        Tableau.length_rows_pivotOn]
      omega
  | drop hr hart hnone =>
      have hi := hseen hr
      simp only [potential, Part.ahead, Part.unseen, List.length_eraseIdx_of_lt hi]
      omega
  | restrict hreal =>
      simp only [potential, Part.ahead, Part.unseen]
      omega
  | reprice =>
      simp only [potential, Part.ahead, Part.unseen]
      split <;> omega

theorem SetsOut.potential_le (h : SetsOut f now) :
    potential settings f now ≤ settings.budget f + f.rows.length + 5 := by
  cases h with
  | start hart =>
      show 5 + f.rows.length + (settings.budget f - 0) ≤ _
      omega
  | direct hart =>
      show 2 + 0 + (settings.budget f - 0) ≤ _
      omega

/-- Only so many rounds follow one another. -/
theorem rounds_le {c : Nat → Part × Run α} (hstart : SetsOut f (c 0)) {n : Nat}
    (hrounds : ∀ k < n, Round settings f (c k) (c (k + 1))) :
    n ≤ settings.budget f + f.rows.length + 5 := by
  have hused : ∀ k ≤ n, potential settings f (c k) + k ≤ potential settings f (c 0) := by
    intro k
    induction k with
    | zero => exact fun _ => le_rfl
    | succ k ih =>
        intro hk
        have hlt := (hrounds k hk).potential_lt
        have hle := ih (Nat.le_of_succ_le hk)
        omega
  have hn := hused n le_rfl
  have hbound : potential settings f (c 0) ≤ _ := hstart.potential_le
  omega

end Rounds

/-! ## The counter and the steps -/

section Course

variable {settings : Settings α} {f : StandardForm α} {part : Part} {run : Run α}

/-- The counter says how many steps have a pivot. -/
theorem Course.pivots_eq (h : Course settings f part run) :
    run.pivots = run.steps.toList.countP (·.pivot.isSome) := by
  induction h with
  | start _ => rfl
  | direct _ => rfl
  | pivot _ _ _ _ ih =>
      rw [Run.steps_afterPivot, List.countP_append, ← ih]
      rfl
  | settle _ _ ih =>
      simp only [Run.steps_record, List.countP_append, ← ih]
      rfl
  | clear _ _ ih => exact ih
  | keep _ _ _ ih => exact ih
  | swap _ _ _ _ _ ih =>
      rw [Run.steps_afterPivot, List.countP_append, ← ih]
      rfl
  | drop _ _ _ _ ih => exact ih
  | restrict _ _ ih => exact ih
  | reprice _ ih => exact ih

theorem Course.pivots_le (h : Course settings f part run) :
    run.pivots ≤ settings.budget f := by
  induction h with
  | start _ => exact Nat.zero_le _
  | direct _ => exact Nat.zero_le _
  | pivot _ _ _ hbudget _ => exact hbudget
  | settle _ _ ih => exact ih
  | clear _ _ ih => exact ih
  | keep _ _ _ ih => exact ih
  | swap _ _ _ _ hbudget _ => exact hbudget
  | drop _ _ _ _ ih => exact ih
  | restrict _ _ ih => exact ih
  | reprice _ ih => exact ih

theorem Course.phase_lt_of_ended {n : Nat} (h : Course settings f (.pivoting n) run) :
    ∀ q ∈ run.steps.toList, q.pivot = none → q.phase < n := by
  refine h.of_pivoting (P := fun run => ∀ q ∈ run.steps.toList, q.pivot = none → q.phase < n)
    ?_ ?_ ?_
  · exact fun _ _ _ q hq => (nomatch hq)
  · rintro rfl run log hrun q hq -
    exact Nat.lt_succ_of_le (hrun.phase_le q hq)
  · intro run cell r log _ ih _ _
    rw [Run.steps_afterPivot]
    exact List.forall_mem_append.mpr
      ⟨ih, List.forall_mem_singleton.mpr fun hend => (nomatch hend)⟩

theorem Stops.exists_course_append {e : SolveError α} (h : Stops settings f run e) :
    ∃ part run' ends, Course settings f part run' ∧ run.pivots = run'.pivots ∧
      run.steps.toList = run'.steps.toList ++ ends ∧ ∀ s ∈ ends, s.pivot = none := by
  have hnone : ∀ s ∈ ([] : List (Step (Tableau α))), s.pivot = none := fun s hs => (nomatch hs)
  cases h with
  | infeasible h _ => exact ⟨_, _, [], h, rfl, (List.append_nil _).symm, hnone⟩
  | unbounded h _ =>
      exact ⟨_, _, _, h, rfl, Run.steps_record _ _ _, List.forall_mem_singleton.mpr rfl⟩
  | exhausted h _ _ => exact ⟨_, _, [], h, rfl, (List.append_nil _).symm, hnone⟩
  | exhaustedClearing h _ _ _ _ => exact ⟨_, _, [], h, rfl, (List.append_nil _).symm, hnone⟩

theorem Stops.eq_budget {k : Nat} (h : Stops settings f run (.iterationLimit k)) :
    k = settings.budget f ∧ run.pivots = k := by
  cases h with
  | exhausted h _ hbudget => exact ⟨h.pivots_le.antisymm hbudget, rfl⟩
  | exhaustedClearing h _ _ _ hbudget => exact ⟨h.pivots_le.antisymm hbudget, rfl⟩

end Course

/-! ## What a report accounts for -/

/-- The steps of a report account for its pivots, within a budget. -/
structure Report.IsAccounted (r : Report (Tableau α) α) (budget : Nat) : Prop where
  pivots_eq : r.pivots = r.steps.countP (·.pivot.isSome)
  pivots_le : r.pivots ≤ budget
  /-- A phase has at most one step without a pivot. -/
  ended_once : ∀ n, r.steps.countP (fun s => s.phase = n ∧ s.pivot = none) ≤ 1
  ended_twice : r.steps.countP (·.pivot.isNone) ≤ 2
  length_le : r.steps.length ≤ budget + 2
  /-- Where the budget is what the solve stopped for, all of it is used up. -/
  limit : ∀ k, r.error? = some (.iterationLimit k) → k = budget ∧ r.pivots = k

section Report

open StandardForm

variable {p : Program α} {settings : Settings α} {r : Report (Tableau α) α}

theorem pairwise_ended_of_solve (h : p.objection = none) (hr : solve settings p = .ok r) :
    r.steps.Pairwise fun q s => q.pivot = none → s.pivot = none → q.phase < s.phase := by
  refine Throughout.pairwise fun before s after hsplit q hq hq' hs => ?_
  cases taken_of_solve h hr before s after hsplit with
  | pivoting hrun hbefore _ _ => exact hrun.phase_lt_of_ended q (hbefore ▸ hq) hq'
  | clearing _ _ _ _ hswap =>
      obtain ⟨cell, -, hcell, -⟩ := hswap
      exact nomatch hs.symm.trans hcell

theorem ended_phases_of_solve (h : p.objection = none) (hr : solve settings p = .ok r) :
    ((r.steps.filter (·.pivot.isNone)).map (·.phase)).Nodup ∧
      (r.steps.filter (·.pivot.isNone)).map (·.phase) ⊆ [1, 2] := by
  constructor
  · refine List.pairwise_map.mpr ?_
    refine (List.pairwise_filter.mpr ?_).imp (fun {q s} hlt => Nat.ne_of_lt hlt)
    refine (pairwise_ended_of_solve h hr).imp fun {q s} hlt hq hs => ?_
    exact hlt (Option.isNone_iff_eq_none.mp hq) (Option.isNone_iff_eq_none.mp hs)
  · intro n hn
    obtain ⟨s, hs, rfl⟩ := List.mem_map.mp hn
    rcases (isReplay_of_solve h hr).phase_cases s (List.mem_of_mem_filter hs) with hone | htwo
    · rw [hone]
      exact List.mem_cons_self
    · rw [htwo]
      exact List.mem_cons_of_mem _ List.mem_cons_self

/-- The counter of a report is that of a run which the rounds lead to, and its steps are those
of that run, but for steps without a pivot at the end. -/
theorem exists_reached_of_solve (h : p.objection = none) (hr : solve settings p = .ok r) :
    ∃ part run ends, Reached settings (layout p) (part, run) ∧ r.pivots = run.pivots ∧
      r.steps = run.steps.toList ++ ends ∧ ∀ s ∈ ends, s.pivot = none := by
  rcases report_cases h hr with ⟨run, hrun, rfl⟩ | ⟨run, e, hstops, rfl⟩
  · exact ⟨_, run, [], course_iff_reached.mp hrun, rfl, (List.append_nil _).symm,
      fun s hs => (nomatch hs)⟩
  · obtain ⟨part, run', ends, hrun, hpivots, hsteps, hends⟩ := hstops.exists_course_append
    exact ⟨part, run', ends, course_iff_reached.mp hrun, hpivots, hsteps, hends⟩

theorem isAccounted_of_solve (h : p.objection = none) (hr : solve settings p = .ok r) :
    r.IsAccounted (settings.budget (layout p)) := by
  obtain ⟨part, run, ends, hreached, hpivots, hsteps, hends⟩ := exists_reached_of_solve h hr
  have hrun := course_iff_reached.mpr hreached
  obtain ⟨hnodup, hphases⟩ := ended_phases_of_solve h hr
  have heq : r.pivots = r.steps.countP (·.pivot.isSome) := by
    have hnone : ends.countP (·.pivot.isSome) = 0 :=
      List.countP_eq_zero.mpr fun s hs => by rw [hends s hs]; exact Bool.false_ne_true
    rw [hpivots, hrun.pivots_eq, hsteps, List.countP_append, hnone, Nat.add_zero]
  have hle : r.pivots ≤ settings.budget (layout p) := hpivots ▸ hrun.pivots_le
  have htwice : r.steps.countP (·.pivot.isNone) ≤ 2 := by
    have hlength := (hnodup.subperm hphases).length_le
    rwa [List.length_map, ← List.countP_eq_length_filter] at hlength
  refine ⟨heq, hle, fun n => ?_, htwice, ?_, fun k hk => ?_⟩
  · have honce := List.nodup_iff_count_le_one.mp hnodup n
    rw [List.count, List.countP_map, List.countP_filter] at honce
    refine (List.countP_mono_left fun s _ hs => ?_).trans honce
    simpa using hs
  · have hsplit := List.length_eq_countP_add_countP (·.pivot.isSome) (l := r.steps)
    have hnone : ∀ s : Step (Tableau α), (decide ¬ s.pivot.isSome = true) = s.pivot.isNone :=
      fun s => by cases s.pivot <;> rfl
    rw [hsplit, ← heq]
    simp only [hnone]
    exact Nat.add_le_add hle htwice
  · obtain ⟨run', hstops, rfl⟩ := exists_stops_of_error h hr hk
    exact hstops.eq_budget

/-- Whatever the arithmetic returns, the rounds of a solve come to an end, and so soon that
there are not many more of them than the budget allows pivots and the equations have rows.  The
solve reports of a run that rounds lead to: its counter is the number of steps with a pivot and
within the budget, each phase has at most one step without a pivot, and where the budget is
what the solve stopped for, all of it is used up. -/
theorem solve_accounts (settings : Settings α) {p : Program α} (h : p.objection = none) :
    ∃ f r, ofProgram p = .ok f ∧ solve settings p = .ok r ∧
      (∀ (c : Nat → Part × Run α) (n : Nat), SetsOut f (c 0) →
        (∀ k < n, Round settings f (c k) (c (k + 1))) →
          n ≤ settings.budget f + f.rows.length + 5) ∧
      (∃ part run ends, Reached settings f (part, run) ∧ r.pivots = run.pivots ∧
        r.steps = run.steps.toList ++ ends ∧ ∀ s ∈ ends, s.pivot = none) ∧
      r.IsAccounted (settings.budget f) := by
  obtain ⟨r, hr⟩ := exists_report settings p
  exact ⟨layout p, r, ofProgram_eq_ok h, hr, fun c n hstart hrounds => rounds_le hstart hrounds,
    exists_reached_of_solve h hr, isAccounted_of_solve h hr⟩

/-- The budget allows one pivot, and the one that is refused would swap a column. -/
theorem solve_accounts_exhausted :
    let p : Program ℚ := ⟨2, [1, 1], [⟨[1, 1], .equal, 4⟩, ⟨[1, -1], .equal, 4⟩], .maximize⟩
    let settings : Settings ℚ := ⟨0, 0, some 1⟩
    ∃ f r, ofProgram p = .ok f ∧ solve settings p = .ok r ∧
      r.error? = some (.iterationLimit 1) ∧
      (∀ (c : Nat → Part × Run ℚ) (n : Nat), SetsOut f (c 0) →
        (∀ k < n, Round settings f (c k) (c (k + 1))) →
          n ≤ settings.budget f + f.rows.length + 5) ∧
      (∃ part run ends, Reached settings f (part, run) ∧ r.pivots = run.pivots ∧
        r.steps = run.steps.toList ++ ends ∧ ∀ s ∈ ends, s.pivot = none) ∧
      r.IsAccounted (settings.budget f) := by
  intro p settings
  obtain ⟨f, r, hf, hr, haccounts⟩ := solve_accounts settings (p := p) (by decide +kernel)
  have hend : (solve settings p).toOption.map
      (fun r => r.error? matches some (.iterationLimit 1)) = some true := by
    decide +kernel
  rw [hr] at hend
  have hlimit : (r.error? matches some (.iterationLimit 1)) = true := Option.some.inj hend
  split at hlimit
  next herror => exact ⟨f, r, hf, hr, herror, haccounts⟩
  next => exact nomatch hlimit

end Report

end TwoPhase
