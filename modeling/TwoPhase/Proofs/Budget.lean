/-
# `Budget` — the pivot budget only cuts a solve short

Every stage of a solve takes a limit on pivots, and the limit plays no
part in what the stage does as long as it is not reached.  So a stage that
ends under one limit for any other reason ends in the same run under every
limit that leaves it its pivots, and under a smaller one it stops at that
limit with the first of its steps.  Two stages in a row inherit this from
each other, and each loop of the solver has it by induction on its rounds.
Nothing is assumed of the arithmetic.
-/
import Mathlib
import TwoPhase.Proofs.Course

namespace TwoPhase

variable {α : Type}

/-- The solve stopped because the pivots were used up. -/
def IsLimit (stop : Option (SolveError α)) : Prop := ∃ k, stop = some (.iterationLimit k)

/-- What other limits make of a stage that set out with `n` pivots and the steps `history`
behind it, and that ends in `run` and `stop` where the limit is not reached. -/
structure IsCutOnly (F : Nat → Except Fault (Stage α)) (n : Nat)
    (history : List (Step (Tableau α))) (run : Run α) (stop : Option (SolveError α)) :
    Prop where
  pivots_le : n ≤ run.pivots
  steps : history <+: run.steps.toList
  /-- A limit that leaves the stage its pivots changes nothing. -/
  enough : ∀ K, run.pivots ≤ K → F K = .ok (run, stop)
  /-- A smaller one stops it there. -/
  short : ∀ K, n ≤ K → K < run.pivots → ∃ cut : Run α,
    F K = .ok (cut, some (.iterationLimit K)) ∧ cut.pivots = K ∧
      cut.steps.toList <+: run.steps.toList

/-- However the stage ends, if not for the limit, other limits only cut it short. -/
def Budgeted (F : Nat → Except Fault (Stage α)) (n : Nat) (history : List (Step (Tableau α))) :
    Prop :=
  ∀ K run stop, F K = .ok (run, stop) → ¬ IsLimit stop → IsCutOnly F n history run stop

section Stage

variable {F : Nat → Except Fault (Stage α)} {n : Nat} {history : List (Step (Tableau α))}

theorem Budgeted.congr {G : Nat → Except Fault (Stage α)} (h : Budgeted G n history)
    (hFG : ∀ K, F K = G K) : Budgeted F n history := by
  obtain rfl : F = G := funext hFG
  exact h

theorem Budgeted.of_const (x : Except Fault (Stage α)) (hF : ∀ K, F K = x)
    (hx : ∀ run stop, x = .ok (run, stop) → run.pivots = n ∧ history <+: run.steps.toList) :
    Budgeted F n history := by
  intro K run stop hK _
  obtain ⟨hpivots, hsteps⟩ := hx run stop ((hF K).symm.trans hK)
  refine ⟨hpivots.ge, hsteps, fun K' _ => (hF K').trans ((hF K).symm.trans hK), ?_⟩
  intro K' hle hlt
  omega

theorem Budgeted.of_fault (fault : Fault) (hF : ∀ K, F K = .error fault) :
    Budgeted F n history :=
  .of_const (.error fault) hF fun _ _ h => (nomatch h)

theorem Budgeted.next [Scalar α] {G : Nat → Run α → Except Fault (Stage α)}
    (hF : Budgeted F n history)
    (hG : ∀ run : Run α, Budgeted (fun K => G K run) run.pivots run.steps.toList) :
    Budgeted (fun K => F K >>= fun stage => stage.next (G K)) n history := by
  intro K run stop hK hstop
  cases hFK : F K with
  | error fault =>
      simp only [hFK, bind, Except.bind] at hK
      exact nomatch hK
  | ok stage =>
      obtain ⟨run₁, stop₁⟩ := stage
      simp only [hFK, bind, Except.bind] at hK
      cases stop₁ with
      | some e =>
          -- the first stage has stopped, and the second does not begin
          cases hK
          have hcut := hF K _ _ hFK hstop
          refine ⟨hcut.pivots_le, hcut.steps, fun K' hK' => ?_, fun K' hle hlt => ?_⟩
          · simp only [hcut.enough K' hK', bind, Except.bind]
            rfl
          · obtain ⟨cut, hFK', hpivots, hprefix⟩ := hcut.short K' hle hlt
            refine ⟨cut, ?_, hpivots, hprefix⟩
            simp only [hFK', bind, Except.bind]
            rfl
      | none =>
          have hcut₁ := hF K _ _ hFK (by rintro ⟨k, hk⟩; exact nomatch hk)
          have hcut := hG run₁ K _ _ hK hstop
          refine ⟨hcut₁.pivots_le.trans hcut.pivots_le, hcut₁.steps.trans hcut.steps,
            fun K' hK' => ?_, fun K' hle hlt => ?_⟩
          · simp only [hcut₁.enough K' (hcut.pivots_le.trans hK'), bind, Except.bind]
            exact hcut.enough K' hK'
          · rcases lt_or_ge K' run₁.pivots with hfirst | hsecond
            · obtain ⟨cut, hFK', hpivots, hprefix⟩ := hcut₁.short K' hle hfirst
              refine ⟨cut, ?_, hpivots, hprefix.trans hcut.steps⟩
              simp only [hFK', bind, Except.bind]
              rfl
            · simp only [hcut₁.enough K' hsecond, bind, Except.bind]
              exact hcut.short K' hsecond hlt

/-- A first round of a stage: what comes after it has one pivot and one step more behind it,
and the round itself is only begun where the limit is not reached. -/
theorem IsCutOnly.of_pivot {G : Nat → Except Fault (Stage α)} {step : Step (Tableau α)}
    {before run : Run α} {stop : Option (SolveError α)} (hn : before.pivots = n)
    (hhistory : before.steps.toList = history)
    (hmore : ∀ K, n < K → F K = G K)
    (hlimit : F n = .ok (before, some (.iterationLimit n)))
    (h : IsCutOnly G (n + 1) (history ++ [step]) run stop) : IsCutOnly F n history run stop := by
  have hprefix : history <+: run.steps.toList := (List.prefix_append _ _).trans h.steps
  refine ⟨(Nat.le_succ n).trans h.pivots_le, hprefix, fun K hK => ?_, fun K hle hlt => ?_⟩
  · have hpivots := h.pivots_le
    rw [hmore K (by omega)]
    exact h.enough K hK
  · rcases Nat.eq_or_lt_of_le hle with rfl | hlt'
    · exact ⟨before, hlimit, hn, hhistory ▸ hprefix⟩
    · rw [hmore K hlt']
      exact h.short K hlt' hlt

end Stage

variable [Scalar α]

/-! ## The loops -/

theorem Run.pivot_eq_ok {run next : Run α} {tol : α} {phase : Nat} {cell : Cell}
    (h : run.pivot tol phase cell = .ok next) :
    next.pivots = run.pivots + 1 ∧
      next.steps.toList = run.steps.toList ++ [⟨phase, run.tableau, some cell⟩] := by
  obtain ⟨event, -, h⟩ := bind_eq_ok_iff.mp h
  obtain ⟨t, -, h⟩ := bind_eq_ok_iff.mp h
  cases h
  exact ⟨rfl, Array.toList_push⟩

theorem pivotLoop_budgeted_of_ended {tol : α} {phase : Nat} {run : Run α}
    (hended : ∀ cell, run.tableau.choose tol ≠ .ok (.pivot cell)) :
    Budgeted (fun K => pivotLoop tol phase (K - run.pivots) run) run.pivots
      run.steps.toList := by
  have hprefix : run.steps.toList <+: (run.record phase none).steps.toList := by
    rw [Run.steps_record]
    exact List.prefix_append _ _
  cases hchoose : run.tableau.choose tol with
  | error fault =>
      refine .of_fault fault fun K => ?_
      rw [pivotLoop, hchoose]
      rfl
  | ok choice =>
      cases choice with
      | optimal =>
          refine .of_const (.ok ((run.record phase none).note
            (.phaseOptimal phase run.pivots run.tableau.objectiveValue), none))
            (fun K => ?_) fun last stop hlast => ?_
          · rw [pivotLoop, hchoose]
            rfl
          · cases hlast
            exact ⟨rfl, hprefix⟩
      | unbounded column =>
          refine .of_const (.ok (run.record phase none, some (.unbounded column)))
            (fun K => ?_) fun last stop hlast => ?_
          · rw [pivotLoop, hchoose]
            rfl
          · cases hlast
            exact ⟨rfl, hprefix⟩
      | pivot cell => exact absurd hchoose (hended cell)

/-- Each round of the pivot loop uses up one of the pivots that the limit leaves. -/
theorem pivotLoop_budgeted (tol : α) (phase : Nat) (run : Run α) :
    Budgeted (fun K => pivotLoop tol phase (K - run.pivots) run) run.pivots
      run.steps.toList := by
  intro K
  induction hn : K - run.pivots generalizing run with
  | zero =>
      intro last stop hK hstop
      by_cases hended : ∀ cell, run.tableau.choose tol ≠ .ok (.pivot cell)
      · exact pivotLoop_budgeted_of_ended hended K last stop hK hstop
      · -- nothing is allowed any more, so the limit is what the loop ends for
        push Not at hended
        obtain ⟨cell, hchoose⟩ := hended
        have hK : pivotLoop tol phase (K - run.pivots) run = .ok (last, stop) := hK
        rw [hn, pivotLoop, hchoose] at hK
        cases hK
        exact absurd ⟨_, rfl⟩ hstop
  | succ n ih =>
      intro last stop hK hstop
      by_cases hended : ∀ cell, run.tableau.choose tol ≠ .ok (.pivot cell)
      · exact pivotLoop_budgeted_of_ended hended K last stop hK hstop
      · push Not at hended
        obtain ⟨cell, hchoose⟩ := hended
        -- the round is the same whatever the allowance is, as long as there is one
        have hround : ∀ k, pivotLoop tol phase (k + 1) run
            = run.pivot tol phase cell >>= pivotLoop tol phase k := by
          intro k
          rw [pivotLoop, hchoose]
          rfl
        have hK : pivotLoop tol phase (K - run.pivots) run = .ok (last, stop) := hK
        rw [hn, hround] at hK
        obtain ⟨next, hpivot, hK⟩ := bind_eq_ok_iff.mp hK
        obtain ⟨hpivots, hsteps⟩ := Run.pivot_eq_ok hpivot
        have hrest : K - next.pivots = n := by omega
        rw [← hrest] at hK
        have hcut := ih next hrest last stop hK hstop
        rw [hpivots, hsteps] at hcut
        refine .of_pivot rfl rfl (fun k hk => ?_) ?_ hcut
        · show pivotLoop tol phase (k - run.pivots) run = _
          rw [show k - run.pivots = (k - (run.pivots + 1)) + 1 by omega, hround, hpivot]
          rfl
        · show pivotLoop tol phase (run.pivots - run.pivots) run = _
          rw [Nat.sub_self, pivotLoop, hchoose]
          rfl

theorem driveOut_budgeted_of_some {tol : α} {remaining i a j : Nat} {run : Run α}
    {row : BasicRow α} (hr : run.tableau.rows[i]? = some row)
    (hc : run.tableau.columns[row.basic]? = some (.artificial a))
    (hj : run.tableau.replacement i tol = .ok (some j))
    (ih : ∀ next : Run α, Budgeted (fun K => driveOut tol K remaining (i + 1) next) next.pivots
      next.steps.toList) :
    Budgeted (fun K => driveOut tol K (remaining + 1) i run) run.pivots run.steps.toList := by
  intro K last stop hK hstop
  have hK : driveOut tol K (remaining + 1) i run = .ok (last, stop) := hK
  rw [driveOut_of_some hr hc hj] at hK
  split at hK
  · cases hK
    exact absurd ⟨_, rfl⟩ hstop
  · obtain ⟨next, hpivot, hK⟩ := bind_eq_ok_iff.mp hK
    obtain ⟨hpivots, hsteps⟩ := Run.pivot_eq_ok hpivot
    have hcut := ih next K last stop hK hstop
    rw [hpivots, hsteps] at hcut
    refine .of_pivot rfl rfl (fun k hk => ?_) ?_ hcut
    · rw [driveOut_of_some hr hc hj, if_neg (not_le.mpr hk), hpivot]
      rfl
    · rw [driveOut_of_some hr hc hj, if_pos le_rfl]

theorem driveOut_budgeted_of_artificial {tol : α} {remaining i a : Nat} {run : Run α}
    {row : BasicRow α} (hr : run.tableau.rows[i]? = some row)
    (hc : run.tableau.columns[row.basic]? = some (.artificial a))
    (ih : ∀ k (next : Run α), Budgeted (fun K => driveOut tol K remaining k next) next.pivots
      next.steps.toList) :
    Budgeted (fun K => driveOut tol K (remaining + 1) i run) run.pivots run.steps.toList := by
  cases hfound : run.tableau.replacement i tol with
  | error fault => exact .of_fault fault fun K => driveOut_of_error hr hc hfound
  | ok found =>
      cases found with
      | some j => exact driveOut_budgeted_of_some hr hc hfound (ih (i + 1))
      | none =>
          -- a row that is dropped costs no pivot
          cases hdrop : run.tableau.dropRow i with
          | error fault =>
              refine .of_fault fault fun K => ?_
              rw [driveOut_of_none hr hc hfound, hdrop]
              rfl
          | ok t =>
              refine (ih i { run.note (.redundantRow i) with tableau := t }).congr fun K => ?_
              rw [driveOut_of_none hr hc hfound, hdrop]
              rfl

/-- The scan that drives out artificial columns uses up a pivot for each swap. -/
theorem driveOut_budgeted (tol : α) : ∀ (remaining i : Nat) (run : Run α),
    Budgeted (fun K => driveOut tol K remaining i run) run.pivots run.steps.toList := by
  intro remaining
  induction remaining with
  | zero =>
      intro i run
      refine .of_const (.ok (run, none)) (fun K => rfl) fun last stop hlast => ?_
      cases hlast
      exact ⟨rfl, List.prefix_refl _⟩
  | succ remaining ih =>
      intro i run
      cases hr : run.tableau.rows[i]? with
      | none => exact .of_fault (.noRow i) fun K => by rw [driveOut, hr]
      | some row =>
          cases hc : run.tableau.columns[row.basic]? with
          | none =>
              refine .of_fault .basicColumnAbsent fun K => ?_
              rw [driveOut, hr]
              simp only [hc]
          | some c =>
              by_cases hart : c.IsArtificial
              · obtain ⟨a, rfl⟩ := hart.exists_eq
                exact driveOut_budgeted_of_artificial hr hc ih
              · exact (ih (i + 1) run).congr fun K => driveOut_of_real hr hc hart

/-! ## The stages -/

section Phases

variable (settings : Settings α) (f : StandardForm α) (run : Run α)

theorem phaseTwo_budgeted :
    Budgeted (fun K => phaseTwo settings f K run) run.pivots run.steps.toList := by
  cases hprice : run.tableau.price (run.tableau.columns.map f.costOf) with
  | error fault =>
      refine .of_fault fault fun K => ?_
      simp only [phaseTwo, Run.note, hprice, bind, Except.bind]
  | ok priced =>
      refine (pivotLoop_budgeted settings.tol 2 { run.note (.phaseTwoStarted
        run.tableau.rows.length run.tableau.columns.length) with tableau := priced }).congr
          fun K => ?_
      simp only [phaseTwo, Run.note, hprice, bind, Except.bind]

theorem phaseOne_budgeted :
    Budgeted (fun K => phaseOne settings f K run) run.pivots run.steps.toList := by
  cases hprice : run.tableau.price (phaseOneCosts f.columns) with
  | error fault =>
      refine .of_fault fault fun K => ?_
      simp only [phaseOne, Run.note, hprice, bind, Except.bind]
  | ok priced =>
      refine (Budgeted.next (pivotLoop_budgeted settings.tol 1 { run.note
        (.phaseOneStarted f.artificialColumns.length) with tableau := priced })
          (G := fun _ last => if settings.feasibilityTol < -last.tableau.objectiveValue then
            .ok (last.note (.phaseOneInfeasible (-last.tableau.objectiveValue)),
              some (.infeasible (-last.tableau.objectiveValue)))
            else .ok (last, none)) fun last => ?_).congr fun K => ?_
      · refine .of_const _ (fun K => rfl) fun next stop hnext => ?_
        split at hnext <;> cases hnext <;> exact ⟨rfl, List.prefix_refl _⟩
      · simp only [phaseOne, Run.note, hprice, bind, Except.bind]

theorem dropArtificials_budgeted (tol : α) :
    Budgeted (fun K => dropArtificials tol K run) run.pivots run.steps.toList := by
  refine Budgeted.next (driveOut_budgeted tol run.tableau.rows.length 0 run)
    (G := fun _ last => last.tableau.restrict last.tableau.realMask >>= fun t =>
      .ok ({ last with tableau := t }, none)) fun last => ?_
  refine .of_const _ (fun K => rfl) fun next stop hnext => ?_
  obtain ⟨t, -, hnext⟩ := bind_eq_ok_iff.mp hnext
  cases hnext
  exact ⟨rfl, List.prefix_refl _⟩

theorem bothPhases_budgeted :
    Budgeted (fun K => bothPhases settings f K run) run.pivots run.steps.toList := by
  by_cases hart : f.HasArtificials
  · refine ((phaseOne_budgeted settings f run).next fun run₁ =>
      (dropArtificials_budgeted run₁ settings.tol).next fun run₂ =>
        phaseTwo_budgeted settings f run₂).congr fun K => ?_
    rw [bothPhases, if_pos hart]
  · refine (phaseTwo_budgeted settings f run).congr fun K => ?_
    rw [bothPhases, if_neg hart]

end Phases

/-! ## The whole solve -/

section Solve

open StandardForm

variable {p : Program α}

theorem conclude_eq (run : Run α) (negated : Bool) (stop : Option (SolveError α)) :
    (run.conclude negated stop).1.pivots = run.pivots ∧
      (run.conclude negated stop).1.steps = run.steps.toList ∧
        (run.conclude negated stop).1.error? = stop := by
  cases stop with
  | none => exact ⟨rfl, rfl, rfl⟩
  | some e => exact ⟨rfl, rfl, rfl⟩

/-- Another budget only cuts a solve short.  Where it does not end for the budget, every budget
that leaves it its pivots gives the same report; and every smaller one gives the error that
names it, with that many pivots carried out and the first of the steps. -/
theorem solve_cut_only (settings : Settings α) (p : Program α) :
    ∃ r, solve settings p = .ok r ∧ ((∀ k, r.error? ≠ some (.iterationLimit k)) →
      (∀ K, r.pivots ≤ K → solve { settings with maxPivots := some K } p = .ok r) ∧
      ∀ K < r.pivots, ∃ cut, solve { settings with maxPivots := some K } p = .ok cut ∧
        cut.status = .error ∧ cut.error? = some (.iterationLimit K) ∧ cut.pivots = K ∧
          cut.steps <+: r.steps) := by
  cases h : p.objection with
  | some o =>
      refine ⟨_, solve_of_objection h, fun _ => ⟨fun K _ => solve_of_objection h, ?_⟩⟩
      exact fun K hK => absurd hK (Nat.not_lt_zero K)
  | none =>
      obtain ⟨run, stop, hrun, -⟩ : Reaches (bothPhases settings (layout p)
          (settings.budget (layout p)) (.start p)) _ _ := bothPhases_course h
      obtain ⟨hpivots, hsteps, herror⟩ := conclude_eq run (layout p).negatedObjective stop
      refine ⟨_, solve_of_bothPhases h hrun, fun hlimit => ?_⟩
      have hcut := bothPhases_budgeted settings (layout p) (.start p) _ run stop hrun
        fun ⟨k, hk⟩ => hlimit k (herror.trans hk)
      refine ⟨fun K hK => ?_, fun K hK => ?_⟩
      · exact solve_of_bothPhases h
          (hcut.enough K (hpivots ▸ hK))
      · obtain ⟨last, hlast, hlastPivots, hprefix⟩ :=
          hcut.short K (Nat.zero_le K) (hpivots ▸ hK)
        obtain ⟨hpivots', hsteps', herror'⟩ :=
          conclude_eq last (layout p).negatedObjective (some (.iterationLimit K))
        refine ⟨_, solve_of_bothPhases h hlast, rfl, herror', hpivots'.trans hlastPivots, ?_⟩
        rw [hsteps', hsteps]
        exact hprefix

-- two pivots are needed, the second to swap a column, and one is allowed
example : (solve ⟨0, 0, some 1⟩
    ⟨2, [1, 1], [⟨[1, 1], .equal, 4⟩, ⟨[1, -1], .equal, 4⟩], .maximize⟩ :
    Except Fault (Report _ ℚ)).toOption.map (fun r => (r.pivots, r.steps.map (·.pivot)))
      = some (1, [some ⟨0, 0⟩, none]) := by decide +kernel

end Solve

end TwoPhase
