/-
# `Unlogged` — the log is written and never read

The stages of a solve write to the log and take no decision by it, so what
a solve reports does not depend on the events noted before it starts.  Two
programs with one objection, or with one standard form but for the
direction of the objective, therefore go through one and the same run.
-/
import Mathlib
import TwoPhase.Proofs.Budget

namespace TwoPhase

variable {α : Type}

/-- Two stages come to the same, but for their logs. -/
def AlikeButLog (x y : Except Fault (Stage α)) : Prop :=
  (∃ fault, x = .error fault ∧ y = .error fault) ∨
    ∃ run log stop, x = .ok (run, stop) ∧ y = .ok ({ run with log }, stop)

/-- The stage takes no decision by the log. -/
def OnlyWrites (f : Run α → Except Fault (Stage α)) : Prop :=
  ∀ run log, AlikeButLog (f run) (f { run with log })

namespace AlikeButLog

theorem fault (fault : Fault) : AlikeButLog (α := α) (.error fault) (.error fault) :=
  .inl ⟨fault, rfl, rfl⟩

theorem ends (run : Run α) (log : Array (Event α)) (stop : Option (SolveError α)) :
    AlikeButLog (.ok (run, stop)) (.ok ({ run with log }, stop)) :=
  .inr ⟨run, log, stop, rfl, rfl⟩

theorem next [Scalar α] {x y : Except Fault (Stage α)} {rest : Run α → Except Fault (Stage α)}
    (h : AlikeButLog x y) (hrest : OnlyWrites rest) :
    AlikeButLog (x >>= fun stage => stage.next rest) (y >>= fun stage => stage.next rest) := by
  rcases h with ⟨f, rfl, rfl⟩ | ⟨run, log, stop, rfl, rfl⟩
  · exact .fault f
  · cases stop with
    | none => exact hrest run log
    | some e => exact .ends run log (some e)

theorem bind {β : Type} (x : Except Fault β) {f g : β → Except Fault (Stage α)}
    (h : ∀ b, AlikeButLog (f b) (g b)) : AlikeButLog (x >>= f) (x >>= g) := by
  cases x with
  | error f => exact .fault f
  | ok b => exact h b

end AlikeButLog

variable [Scalar α]

theorem Run.pivot_eq (run : Run α) (tol : α) (phase : Nat) (cell : Cell) :
    run.pivot tol phase cell =
      (run.announcement phase cell >>= fun event => run.tableau.pivot cell tol >>= fun t =>
        .ok ⟨t, run.steps.push ⟨phase, run.tableau, some cell⟩, run.pivots + 1,
          (run.log.push event).push (.pivoted t)⟩) := rfl

/-- A pivot goes alike, and so does what comes behind it. -/
theorem OnlyWrites.pivot {rest : Run α → Except Fault (Stage α)} (hrest : OnlyWrites rest)
    (run : Run α) (log : Array (Event α)) (tol : α) (phase : Nat) (cell : Cell) :
    AlikeButLog (run.pivot tol phase cell >>= rest)
      (({ run with log } : Run α).pivot tol phase cell >>= rest) := by
  have hsame : ({ run with log } : Run α).announcement phase cell
      = run.announcement phase cell := rfl
  rw [Run.pivot_eq, Run.pivot_eq, hsame]
  cases run.announcement phase cell with
  | error fault => exact .fault fault
  | ok event =>
      show AlikeButLog ((run.tableau.pivot cell tol >>= _) >>= rest)
        ((run.tableau.pivot cell tol >>= _) >>= rest)
      cases run.tableau.pivot cell tol with
      | error fault => exact .fault fault
      | ok t => exact hrest _ _

theorem pivotLoop_onlyWrites (tol : α) (phase : Nat) :
    ∀ allowance, OnlyWrites (pivotLoop tol phase allowance) := by
  intro allowance
  induction allowance with
  | zero =>
      intro run log
      rw [pivotLoop, pivotLoop]
      cases run.tableau.choose tol with
      | error fault => exact .fault fault
      | ok choice =>
          cases choice with
          | optimal => exact .ends _ _ none
          | unbounded column => exact .ends _ _ _
          | pivot cell => exact .ends _ _ _
  | succ allowance ih =>
      intro run log
      rw [pivotLoop, pivotLoop]
      cases run.tableau.choose tol with
      | error fault => exact .fault fault
      | ok choice =>
          cases choice with
          | optimal => exact .ends _ _ none
          | unbounded column => exact .ends _ _ _
          | pivot cell =>
              show AlikeButLog (run.pivot tol phase cell >>= pivotLoop tol phase allowance)
                (({ run with log } : Run α).pivot tol phase cell >>= pivotLoop tol phase allowance)
              exact ih.pivot run log tol phase cell

theorem driveOut_log_of_artificial {tol : α} {limit remaining i a : Nat} {run run' : Run α}
    (hrun : run' = { run with log := run'.log }) {row : BasicRow α}
    (hr : run.tableau.rows[i]? = some row) (hr' : run'.tableau.rows[i]? = some row)
    (hc : run.tableau.columns[row.basic]? = some (.artificial a))
    (hc' : run'.tableau.columns[row.basic]? = some (.artificial a))
    (hstay : OnlyWrites (driveOut tol limit remaining i))
    (hnext : OnlyWrites (driveOut tol limit remaining (i + 1))) :
    AlikeButLog (driveOut tol limit (remaining + 1) i run)
      (driveOut tol limit (remaining + 1) i run') := by
  have hsame : run'.tableau.replacement i tol = run.tableau.replacement i tol := by rw [hrun]
  cases hfound : run.tableau.replacement i tol with
  | error fault =>
      rw [driveOut_of_error hr hc hfound, driveOut_of_error hr' hc' (hsame.trans hfound)]
      exact .fault fault
  | ok found =>
      cases found with
      | none =>
          rw [driveOut_of_none hr hc hfound, driveOut_of_none hr' hc' (hsame.trans hfound), hrun]
          exact .bind (run.tableau.dropRow i) fun t => hstay _ _
      | some j =>
          rw [driveOut_of_some hr hc hfound, driveOut_of_some hr' hc' (hsame.trans hfound), hrun]
          by_cases hlimit : limit ≤ run.pivots
          · rw [if_pos hlimit, if_pos hlimit]
            exact .ends run _ _
          · rw [if_neg hlimit, if_neg hlimit]
            exact hnext.pivot run run'.log tol 1 ⟨i, j⟩

theorem driveOut_onlyWrites (tol : α) (limit : Nat) :
    ∀ remaining i, OnlyWrites (driveOut tol limit remaining i) := by
  intro remaining
  induction remaining with
  | zero =>
      intro i run log
      exact .ends run log none
  | succ remaining ih =>
      intro i run log
      cases hr : run.tableau.rows[i]? with
      | none =>
          rw [driveOut, driveOut, hr]
          exact .fault _
      | some row =>
          have hr' : ({ run with log } : Run α).tableau.rows[i]? = some row := hr
          cases hc : run.tableau.columns[row.basic]? with
          | none =>
              rw [driveOut, driveOut, hr]
              simp only [hc]
              exact .fault _
          | some c =>
              have hc' : ({ run with log } : Run α).tableau.columns[row.basic]? = some c := hc
              by_cases hart : c.IsArtificial
              · obtain ⟨a, rfl⟩ := hart.exists_eq
                exact driveOut_log_of_artificial rfl hr hr' hc hc' (ih i) (ih (i + 1))
              · rw [driveOut_of_real hr hc hart, driveOut_of_real hr' hc' hart]
                exact ih (i + 1) run log

theorem phaseOne_onlyWrites (settings : Settings α) (f : StandardForm α) (limit : Nat) :
    OnlyWrites (phaseOne settings f limit) := by
  intro run log
  rw [phaseOne, phaseOne]
  refine .bind (run.tableau.price (phaseOneCosts f.columns)) fun priced => ?_
  refine AlikeButLog.next (pivotLoop_onlyWrites _ 1 _ _ _) fun run log => ?_
  by_cases hresidual : settings.feasibilityTol < -run.tableau.objectiveValue
  · simp only [hresidual, if_true]
    exact .ends _ _ _
  · simp only [hresidual, if_false]
    exact .ends _ _ _

theorem dropArtificials_onlyWrites (tol : α) (limit : Nat) :
    OnlyWrites (dropArtificials tol limit) := by
  intro run log
  refine AlikeButLog.next (driveOut_onlyWrites tol limit _ 0 run log) fun run log => ?_
  exact .bind (run.tableau.restrict (run.tableau.columns.map fun c => decide (¬ c.IsArtificial)))
    fun t => .ends _ _ none

theorem phaseTwo_onlyWrites (settings : Settings α) (f : StandardForm α) (limit : Nat) :
    OnlyWrites (phaseTwo settings f limit) := by
  intro run log
  simp only [phaseTwo, Run.note]
  exact .bind (run.tableau.price (run.tableau.columns.map f.costOf)) fun priced =>
    pivotLoop_onlyWrites _ 2 _ _ _

theorem bothPhases_onlyWrites (settings : Settings α) (f : StandardForm α) (limit : Nat) :
    OnlyWrites (bothPhases settings f limit) := by
  intro run log
  rw [bothPhases, bothPhases]
  split
  · refine AlikeButLog.next (phaseOne_onlyWrites settings f limit run log) fun run log => ?_
    exact AlikeButLog.next (dropArtificials_onlyWrites _ limit run log)
      (phaseTwo_onlyWrites settings f limit)
  · exact phaseTwo_onlyWrites settings f limit run log

/-! ## Solves that go through the same run -/

section Solve

open StandardForm

variable {p p' : Program α}

theorem Run.conclude_log (run : Run α) (log : Array (Event α)) (negated : Bool)
    (stop : Option (SolveError α)) :
    (({ run with log } : Run α).conclude negated stop).1 = (run.conclude negated stop).1 := by
  cases stop with
  | none => rfl
  | some e => rfl

/-- Only the report at the end asks for the direction of the objective. -/
theorem bothPhases_negatedObjective (settings : Settings α) (f : StandardForm α) (b : Bool)
    (limit : Nat) (run : Run α) :
    bothPhases settings { f with negatedObjective := b } limit run
      = bothPhases settings f limit run := rfl

/-- Programs with one objection are both refused for it, and programs with one standard form,
but for the direction of the objective, are both solved by one run. -/
theorem solve_alike (settings : Settings α) (hobjection : p'.objection = p.objection)
    (hlayout : p.objection = none → layout p' =
      { layout p with negatedObjective := (layout p').negatedObjective }) :
    (∃ o, solve settings p = .ok (.ofError (.invalid o) [] none 0) ∧
        solve settings p' = .ok (.ofError (.invalid o) [] none 0)) ∨
      ∃ (run : Run α) (stop : Option (SolveError α)),
        solve settings p = .ok (run.conclude (layout p).negatedObjective stop).1 ∧
          solve settings p' = .ok (run.conclude (layout p').negatedObjective stop).1 := by
  cases h : p.objection with
  | some o => exact .inl ⟨o, solve_of_objection h, solve_of_objection (hobjection.trans h)⟩
  | none =>
      have hform := hlayout h
      -- only the log tells what direction the objective has
      have hstart : Run.start p' = { Run.start p with log := (Run.start p').log } := by
        rw [Run.start, hform]
        rfl
      have hsame : bothPhases settings (layout p') (settings.budget (layout p')) (.start p')
          = bothPhases settings (layout p) (settings.budget (layout p))
            { Run.start p with log := (Run.start p').log } := by
        rw [hstart, hform]
        exact bothPhases_negatedObjective settings _ _ _ _
      obtain ⟨run, stop, hrun, -⟩ : Reaches (bothPhases settings (layout p) _ (.start p)) _ _ :=
        bothPhases_course h
      have halike := bothPhases_onlyWrites settings (layout p) (settings.budget (layout p))
        (.start p) (Run.start p').log
      refine .inr ⟨run, stop, solve_of_bothPhases h hrun, ?_⟩
      rw [hrun, ← hsame] at halike
      rcases halike with ⟨fault, hfault, -⟩ | ⟨run, log, stop, hrun, hrun'⟩
      · cases hfault
      · cases hrun
        rw [solve_of_bothPhases (hobjection.trans h) hrun', Run.conclude_log]

end Solve

end TwoPhase
