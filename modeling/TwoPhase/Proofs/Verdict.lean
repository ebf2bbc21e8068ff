/-
# `Verdict` — what an exact solve reports is true

A solve on the rationals in which nothing is tolerated, with any pivot
budget.  It always reports something, and what it reports holds of the
program: an optimum is feasible and no feasible point is better, the
residual of an infeasible program is the least artificial sum there is,
and an unbounded one has feasible points beyond every bound.  Its trace
never loses the program: each step shows the equations and the objective
of its phase in another form.
-/
import Mathlib
import TwoPhase.Proofs.Phases
import TwoPhase.Proofs.Solution

namespace TwoPhase

open StandardForm

variable {p : Program ℚ} {run : Run ℚ}

/-! ## How an exact solve ends -/

/-- An exact solve of a program without objection ends with both phases behind it or with
an error that is certified. -/
theorem exact_solve_cases (h : p.objection = none) (m : Option Nat) :
    (∃ run : Run ℚ, run.HasPursued (layout p) 2 ∧ solve ⟨0, 0, m⟩ p =
      .ok (.ofOptimal run.tableau (p.direction = .minimize) run.steps.toList run.pivots)) ∨
    ∃ (run : Run ℚ) (e : SolveError ℚ), run.HasStopped (layout p) e ∧
      solve ⟨0, 0, m⟩ p = .ok (.ofError e run.steps.toList (some run.tableau) run.pivots) := by
  rcases solve_takes_course ⟨0, 0, m⟩ h with ⟨run, hrun, hr⟩ | ⟨run, e, hstops, hr⟩
  · exact .inl ⟨run, hrun.heeds h, hr⟩
  · exact .inr ⟨run, e, hstops.hasStopped h, hr⟩

theorem exists_solve_eq (p : Program ℚ) (m : Option Nat) : ∃ r, solve ⟨0, 0, m⟩ p = .ok r :=
  exists_report ⟨0, 0, m⟩ p

/-! ## Optimal -/

theorem values_eq_take_basicPoint {t : Tableau ℚ} (h : t.columns = realColumns p) :
    t.solution.values = t.basicPoint.take p.numVars := by
  have hle : p.numVars ≤ t.columns.length := by
    rw [h, length_realColumns]
    exact Nat.le_add_right _ _
  rw [Tableau.solution_eq h, Assignment.values, List.map_map, Tableau.basicPoint, ← List.map_take,
    List.take_range, min_eq_left hle]
  · rfl
  · rintro c hc i rfl
    exact decision_notMem_addedColumns (List.mem_append_left _ hc)

theorem reportedValue_signed (p : Program ℚ) (v : ℚ) :
    reportedValue (p.direction = .minimize) (p.direction.signed v) = v := by
  rw [reportedValue_eq]
  cases p.direction with
  | maximize => rfl
  | minimize => exact neg_neg v

/-- A run with both phases behind it shows a feasible point with its value, and no feasible
point is better. -/
theorem Run.HasPursued.solution_isBest (hrun : run.HasPursued (layout p) 2)
    (h : p.objection = none) :
    p.IsFeasible run.tableau.solution.values ∧
      reportedValue (p.direction = .minimize) run.tableau.objectiveValue
        = p.value run.tableau.solution.values ∧
      ∀ y, p.IsFeasible y →
        ¬ p.direction.Better (p.value y) (p.value run.tableau.solution.values) := by
  have haim : run.tableau.Pursues (layout p).phaseTwoAim := hrun.pursues
  have hcolumns := columns_eq_realColumns haim.expresses
  obtain ⟨hfeasible, hvalue⟩ := isFeasible_take h haim.isSolution_basicPoint
  rw [haim.value_basicPoint] at hvalue
  rw [values_eq_take_basicPoint hcolumns]
  refine ⟨hfeasible, ?_, fun y hy => ?_⟩
  · rw [hvalue, reportedValue_signed]
  · obtain ⟨z, hz, hsame⟩ := exists_isSolution h hy
    rw [Direction.better_iff, not_lt, ← hvalue, ← hsame]
    exact haim.value_le hrun.optimal hz

/-- Where a solve reports an optimum, its point is feasible, its value is that of the
point, and no feasible point is better. -/
theorem optimal_isBest (p : Program ℚ) (m : Option Nat) :
    ∃ r, solve ⟨0, 0, m⟩ p = .ok r ∧ (r.status = .optimal →
      p.IsFeasible r.values ∧ r.optimalValue? = some (p.value r.values) ∧
        ∀ y, p.IsFeasible y → ¬ p.direction.Better (p.value y) (p.value r.values)) := by
  cases h : p.objection with
  | some o => exact ⟨_, solve_of_objection h, fun hstatus => nomatch hstatus⟩
  | none =>
      rcases exact_solve_cases h m with ⟨run, hrun, hr⟩ | ⟨run, e, -, hr⟩
      · obtain ⟨hfeasible, hvalue, hbest⟩ := hrun.solution_isBest h
        exact ⟨_, hr, fun _ => ⟨hfeasible, congrArg some hvalue, hbest⟩⟩
      · refine ⟨_, hr, fun hstatus => ?_⟩
        have hstatus : e.status = .optimal := hstatus
        cases e <;> exact nomatch hstatus

-- two equations that say the same, one of them with a negative right-hand side
example : (solve ⟨0, 0, none⟩ ⟨2, [3, 2], [⟨[1, 1], .equal, 4⟩, ⟨[-2, -2], .equal, -8⟩,
    ⟨[1, 0], .atMost, 3⟩], .maximize⟩ : Except Fault (Report _ ℚ)).toOption.map
      (fun r => (r.values, r.optimalValue?)) = some ([3, 1], some 11) := by decide +kernel

/-! ## Infeasible -/

/-- An error that an exact solve reports is certified. -/
theorem certifies_of_error (h : p.objection = none) {m : Option Nat}
    {r : Report (Tableau ℚ) ℚ} (hr : solve ⟨0, 0, m⟩ p = .ok r) {e : SolveError ℚ}
    (he : r.error? = some e) : (layout p).Certifies e := by
  rcases exact_solve_cases h m with ⟨run, -, hr'⟩ | ⟨run, e', hrun, hr'⟩
  · cases hr.symm.trans hr'
    exact nomatch he
  · cases hr.symm.trans hr'
    cases he
    exact hrun.certified

/-- Where a solve reports a program to be infeasible, the residual is above zero and the
least sum of the artificial variables over the non-negative solutions of the equations, and
there is no feasible point. -/
theorem residual_isLeast_artificialSum (p : Program ℚ) (m : Option Nat) :
    ∃ r, solve ⟨0, 0, m⟩ p = .ok r ∧ ∀ residual, r.error? = some (.infeasible residual) →
      0 < residual ∧
      (∃ f, ofProgram p = .ok f ∧ IsLeast (f.artificialSum ''
        {y | y.length = f.columns.length ∧ (∀ v ∈ y, 0 ≤ v) ∧ f.SolvedBy y}) residual) ∧
      ∀ x, ¬ p.IsFeasible x := by
  obtain ⟨r, hr⟩ := exists_solve_eq p m
  refine ⟨r, hr, fun residual he => ?_⟩
  cases h : p.objection with
  | some o =>
      cases hr.symm.trans (solve_of_objection h)
      exact nomatch he
  | none =>
      obtain ⟨hpos, hleast⟩ := certifies_of_error h hr he
      refine ⟨hpos, ⟨layout p, ofProgram_eq_ok h, ?_⟩,
        fun x => not_isFeasible_of_isLeast h hpos hleast⟩
      simp only [Aim.isSolution_iff] at hleast
      exact hleast

-- a variable cannot be at least two and at most one
example : (solve ⟨0, 0, none⟩ ⟨1, [1], [⟨[1], .atLeast, 2⟩, ⟨[1], .atMost, 1⟩], .maximize⟩ :
    Except Fault (Report _ ℚ)).toOption.map (fun r => (r.status, r.pivots))
      = some (.infeasible, 1) := by decide +kernel

/-! ## Unbounded -/

/-- Where a solve reports a program to be unbounded, there is a feasible point, and there
are some that are better than any bound. -/
theorem unbounded_exists_better (p : Program ℚ) (m : Option Nat) :
    ∃ r, solve ⟨0, 0, m⟩ p = .ok r ∧ ∀ column, r.error? = some (.unbounded column) →
      (∃ x, p.IsFeasible x) ∧ ∀ K, ∃ x, p.IsFeasible x ∧ p.direction.Better (p.value x) K := by
  obtain ⟨r, hr⟩ := exists_solve_eq p m
  refine ⟨r, hr, fun column he => ?_⟩
  cases h : p.objection with
  | some o =>
      cases hr.symm.trans (solve_of_objection h)
      exact nomatch he
  | none =>
      have hunb : (layout p).phaseTwoAim.IsUnbounded := certifies_of_error h hr he
      have hbeyond : ∀ K, ∃ x, p.IsFeasible x ∧ p.direction.Better (p.value x) K := by
        intro K
        obtain ⟨y, hy, hgt⟩ := hunb (p.direction.signed K)
        obtain ⟨hfeasible, hvalue⟩ := isFeasible_take h hy
        rw [hvalue] at hgt
        exact ⟨_, hfeasible, (Direction.better_iff _ _ _).mpr hgt⟩
      obtain ⟨x, hx, -⟩ := hbeyond 0
      exact ⟨⟨x, hx⟩, hbeyond⟩

-- one row holds the difference of two variables up, and both of them can grow
example : (solve ⟨0, 0, none⟩ ⟨2, [-1, 0], [⟨[1, -1], .atLeast, 2⟩], .minimize⟩ :
    Except Fault (Report _ ℚ)).toOption.map (fun r => (r.status, r.steps.map (·.phase)))
      = some (.unbounded, [1, 1, 2]) := by decide +kernel

/-! ## The trace -/

/-- Every step of a solve was recorded on a tableau that says the same as the standard form.
In the pivot loop of phase 1, which ends with the first step without a pivot, it has the
solutions of the equations, and its objective row has the negated artificial sum there.  In
phase 2 it is about the columns that are not artificial, and has the solutions and the costs
of the form where the artificial variables are zero. -/
theorem steps_express_aim (p : Program ℚ) (m : Option Nat) :
    ∃ r, solve ⟨0, 0, m⟩ p = .ok r ∧ ∀ f, ofProgram p = .ok f →
      ∀ before s after, r.steps = before ++ s :: after →
        (s.phase = 1 → (∀ q ∈ before, q.pivot ≠ none) → s.picture.Expresses f.phaseOneAim) ∧
        (s.phase = 2 → s.picture.Expresses f.phaseTwoAim) := by
  obtain ⟨r, hr⟩ := exists_solve_eq p m
  refine ⟨r, hr, fun f hf => ?_⟩
  have htraced : f.IsTracedBy r.steps := by
    cases h : p.objection with
    | some o =>
        rw [ofProgram_eq, h] at hf
        exact nomatch hf
    | none =>
        cases (ofProgram_eq_ok h).symm.trans hf
        rcases exact_solve_cases h m with ⟨run, hrun, hr'⟩ | ⟨run, e, hrun, hr'⟩
        · cases hr.symm.trans hr'
          exact hrun.traced
        · cases hr.symm.trans hr'
          exact hrun.traced
  intro before s after hsplit
  have hstep := htraced before s after hsplit
  constructor
  · intro hphase hopen
    have hexpresses := hstep fun _ => hopen
    rwa [hphase] at hexpresses
  · intro hphase
    have hexpresses := hstep fun hone => nomatch hone.symm.trans hphase
    rwa [hphase] at hexpresses

end TwoPhase
