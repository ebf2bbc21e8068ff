/-
# `Course` — the course a solve takes

Whatever the arithmetic returns, a solve goes through the same parts in
the same order.  `Course` says which runs it can be in, with one
constructor for each thing that is done to a run, and `Stops` says where
it can stop with an error.  That every solve of a program without
objection takes such a course, and so ends without a fault, is proved once
here from the rules for the stages.  What is true of all tableaux or of
all steps of a solve is an induction on the course from there on.

The steps of a solve are explained by the course as well: each was taken
by a run that had recorded just the steps before it, and is either what
the rules of entering and leaving ask for or a swap that drives an
artificial column out.
-/
import Mathlib
import TwoPhase.Proofs.Stage

namespace TwoPhase

/-! ## Histories -/

/-- Each element of a history has the property, which may look at those before it. -/
def Throughout {σ : Type} (P : List σ → σ → Prop) (history : List σ) : Prop :=
  ∀ before s after, history = before ++ s :: after → P before s

section Throughout

variable {σ : Type} {P P' : List σ → σ → Prop} {history : List σ}

theorem throughout_nil : Throughout P [] := by
  intro before s after h
  cases before with
  | nil => exact nomatch h
  | cons _ _ => exact nomatch h

theorem Throughout.concat (h : Throughout P history) {s : σ} (hs : P history s) :
    Throughout P (history ++ [s]) := by
  intro before q after hsplit
  rcases List.eq_nil_or_concat after with rfl | ⟨after, last, rfl⟩
  · obtain ⟨rfl, hlast⟩ := List.append_inj' hsplit rfl
    cases hlast
    exact hs
  · have hsplit : history ++ [s] = (before ++ q :: after) ++ [last] := by
      rw [hsplit, List.concat_eq_append, List.append_assoc]
      rfl
    obtain ⟨rfl, -⟩ := List.append_inj' hsplit rfl
    exact h before q after rfl

theorem Throughout.of_mem (h : Throughout P history) {s : σ} (hs : s ∈ history) :
    ∃ before, P before s := by
  obtain ⟨before, after, hsplit⟩ := List.append_of_mem hs
  exact ⟨before, h before s after hsplit⟩

end Throughout

variable {α : Type}

abbrev Tableau.realMask (t : Tableau α) : List Bool :=
  t.columns.map fun c => decide (¬ c.IsArtificial)

theorem Tableau.IsShaped.realMask_basic {t : Tableau α} (h : t.IsShaped)
    (hreal : ∀ r ∈ t.rows, ¬ r.IsArtificial t.columns) :
    ∀ r ∈ t.rows, t.realMask[r.basic]? = some true := by
  intro r hr
  have hc := List.getElem?_eq_getElem (h.basic_lt r hr)
  rw [List.getElem?_map, hc, Option.map_some]
  congr 1
  exact decide_eq_true fun hart => hreal r hr ⟨_, hc, hart⟩

/-! ## The runs of a solve -/

theorem Run.steps_record (run : Run α) (phase : Nat) (pivot : Option Cell) :
    (run.record phase pivot).steps.toList
      = run.steps.toList ++ [⟨phase, run.tableau, pivot⟩] :=
  Array.toList_push

variable [Scalar α]

theorem Run.steps_afterPivot (run : Run α) (tol : α) (phase : Nat) (r : Row α) (cell : Cell)
    (log : Array (Event α)) : (run.afterPivot tol phase r cell log).steps.toList
      = run.steps.toList ++ [⟨phase, run.tableau, some cell⟩] :=
  Array.toList_push

/-- The part of a solve that a run is in. -/
inductive Part where
  /-- The pivot loop of a phase. -/
  | pivoting (phase : Nat)
  /-- That loop has ended in an optimum. -/
  | settled (phase : Nat)
  /-- Artificial columns are driven out, and the row given is the next to be looked at. -/
  | clearing (row : Nat)
  /-- No artificial column is left, and phase 2 is to be priced. -/
  | cleared

/-- The phase that a step recorded next counts to. -/
def Part.phase : Part → Nat
  | .pivoting n => n
  | .settled n => n
  | .clearing _ => 1
  | .cleared => 1

/-- The runs that a solve of a standard form can be in.  The log is left open. -/
inductive Course (settings : Settings α) (f : StandardForm α) : Part → Run α → Prop where
  | start {log : Array (Event α)} (hart : f.HasArtificials) :
      Course settings f (.pivoting 1) ⟨{ f.tableau with
        objective := f.tableau.pricedRow (phaseOneCosts f.columns) }, #[], 0, log⟩
  | direct {log : Array (Event α)} (hart : ¬ f.HasArtificials) :
      Course settings f .cleared ⟨f.tableau, #[], 0, log⟩
  | pivot {phase : Nat} {run : Run α} {cell : Cell} {r : BasicRow α} {log : Array (Event α)}
      (h : Course settings f (.pivoting phase) run)
      (hchoose : run.tableau.choose settings.tol = .ok (.pivot cell))
      (hr : run.tableau.rows[cell.row]? = some r) (hbudget : run.pivots < settings.budget f) :
      Course settings f (.pivoting phase) (run.afterPivot settings.tol phase r.toRow cell log)
  | settle {phase : Nat} {run : Run α} {log : Array (Event α)}
      (h : Course settings f (.pivoting phase) run)
      (hchoose : run.tableau.choose settings.tol = .ok .optimal) :
      Course settings f (.settled phase) { run.record phase none with log }
  | clear {run : Run α} (h : Course settings f (.settled 1) run)
      (hresidual : ¬ settings.feasibilityTol < -run.tableau.objectiveValue) :
      Course settings f (.clearing 0) run
  | keep {i : Nat} {run : Run α} {r : BasicRow α} (h : Course settings f (.clearing i) run)
      (hr : run.tableau.rows[i]? = some r) (hreal : ¬ r.IsArtificial run.tableau.columns) :
      Course settings f (.clearing (i + 1)) run
  | swap {i j : Nat} {run : Run α} {r : BasicRow α} {log : Array (Event α)}
      (h : Course settings f (.clearing i) run) (hr : run.tableau.rows[i]? = some r)
      (hart : r.IsArtificial run.tableau.columns)
      (hj : run.tableau.largestColumn r.toRow settings.tol = some j)
      (hbudget : run.pivots < settings.budget f) :
      Course settings f (.clearing (i + 1)) (run.afterPivot settings.tol 1 r.toRow ⟨i, j⟩ log)
  | drop {i : Nat} {run : Run α} {r : BasicRow α} {log : Array (Event α)}
      (h : Course settings f (.clearing i) run) (hr : run.tableau.rows[i]? = some r)
      (hart : r.IsArtificial run.tableau.columns)
      (hnone : run.tableau.largestColumn r.toRow settings.tol = none) :
      Course settings f (.clearing i) { run with
        tableau := { run.tableau with rows := run.tableau.rows.eraseIdx i }, log }
  | restrict {run : Run α} (h : Course settings f (.clearing run.tableau.rows.length) run)
      (hreal : ∀ r ∈ run.tableau.rows, ¬ r.IsArtificial run.tableau.columns) :
      Course settings f .cleared { run with
        tableau := run.tableau.marked run.tableau.realMask }
  | reprice {run : Run α} {log : Array (Event α)} (h : Course settings f .cleared run) :
      Course settings f (.pivoting 2) { run with
        tableau := { run.tableau with
          objective := run.tableau.pricedRow (run.tableau.columns.map f.costOf) }, log }

/-- The runs in which a solve of a standard form can stop, each with the error. -/
inductive Stops (settings : Settings α) (f : StandardForm α) : Run α → SolveError α → Prop where
  | infeasible {run : Run α} {log : Array (Event α)} (h : Course settings f (.settled 1) run)
      (hresidual : settings.feasibilityTol < -run.tableau.objectiveValue) :
      Stops settings f { run with log } (.infeasible (-run.tableau.objectiveValue))
  | unbounded {phase j : Nat} {run : Run α} (h : Course settings f (.pivoting phase) run)
      (hchoose : run.tableau.choose settings.tol = .ok (.unbounded j)) :
      Stops settings f (run.record phase none) (.unbounded j)
  | exhausted {phase : Nat} {run : Run α} {cell : Cell}
      (h : Course settings f (.pivoting phase) run)
      (hchoose : run.tableau.choose settings.tol = .ok (.pivot cell))
      (hbudget : settings.budget f ≤ run.pivots) :
      Stops settings f run (.iterationLimit run.pivots)
  | exhaustedClearing {i j : Nat} {run : Run α} {r : BasicRow α}
      (h : Course settings f (.clearing i) run) (hr : run.tableau.rows[i]? = some r)
      (hart : r.IsArtificial run.tableau.columns)
      (hj : run.tableau.largestColumn r.toRow settings.tol = some j)
      (hbudget : settings.budget f ≤ run.pivots) :
      Stops settings f run (.iterationLimit run.pivots)

section Course

variable {settings : Settings α} {f : StandardForm α} {part : Part} {run : Run α}

theorem Course.shaped (h : Course settings f part run) (hf : f.tableau.IsShaped) :
    run.tableau.IsShaped := by
  induction h with
  | start _ => exact hf.price (List.length_map _)
  | direct _ => exact hf
  | pivot _ hchoose hr _ ih =>
      exact ih.pivotOn hr (Tableau.cell_of_choose ih.rectangular hchoose).1
  | settle _ _ ih => exact ih
  | clear _ _ ih => exact ih
  | keep _ _ _ ih => exact ih
  | swap _ hr _ hj _ ih =>
      exact ih.pivotOn hr (Tableau.largestColumn_lt hj)
  | drop _ _ _ _ ih => exact ih.of_subset List.eraseIdx_subset
  | restrict _ hreal ih => exact ih.marked (List.length_map _) (ih.realMask_basic hreal)
  | reprice _ ih => exact ih.price (List.length_map _)

theorem Course.phase_cases (h : Course settings f part run) : part.phase = 1 ∨ part.phase = 2 := by
  induction h with
  | start _ => exact .inl rfl
  | direct _ => exact .inl rfl
  | pivot _ _ _ _ ih => exact ih
  | settle _ _ ih => exact ih
  | clear _ _ _ => exact .inl rfl
  | keep _ _ _ _ => exact .inl rfl
  | swap _ _ _ _ _ _ => exact .inl rfl
  | drop _ _ _ _ _ => exact .inl rfl
  | restrict _ _ _ => exact .inl rfl
  | reprice _ _ => exact .inr rfl

theorem Course.of_pivoting {n : Nat} {P : Run α → Prop}
    (start : n = 1 → f.HasArtificials → ∀ log : Array (Event α), P ⟨{ f.tableau with
      objective := f.tableau.pricedRow (phaseOneCosts f.columns) }, #[], 0, log⟩)
    (reprice : n = 2 → ∀ (run : Run α) (log : Array (Event α)), Course settings f .cleared run →
      P { run with
        tableau := { run.tableau with
          objective := run.tableau.pricedRow (run.tableau.columns.map f.costOf) }, log })
    (pivot : ∀ (run : Run α) (cell : Cell) (r : BasicRow α) (log : Array (Event α)),
      Course settings f (.pivoting n) run → P run →
      run.tableau.choose settings.tol = .ok (.pivot cell) →
      run.tableau.rows[cell.row]? = some r →
        P (run.afterPivot settings.tol n r.toRow cell log))
    (h : Course settings f (.pivoting n) run) : P run := by
  generalize hpart : Part.pivoting n = part at h
  induction h with
  | start hart =>
      cases hpart
      exact start rfl hart _
  | pivot h hchoose hr _ ih =>
      cases hpart
      exact pivot _ _ _ _ h (ih rfl) hchoose hr
  | reprice h _ =>
      cases hpart
      exact reprice rfl _ _ h
  | direct _ => exact nomatch hpart
  | settle _ _ _ => exact nomatch hpart
  | clear _ _ _ => exact nomatch hpart
  | keep _ _ _ _ => exact nomatch hpart
  | swap _ _ _ _ _ _ => exact nomatch hpart
  | drop _ _ _ _ _ => exact nomatch hpart
  | restrict _ _ _ => exact nomatch hpart

/-! ## Every solve takes this course -/

theorem pivotLoop_course {phase : Nat} (h : Course settings f (.pivoting phase) run)
    (hf : f.tableau.IsShaped) :
    Reaches (pivotLoop settings.tol phase (settings.budget f - run.pivots) run)
      (Course settings f (.settled phase)) (Stops settings f) := by
  -- the allowance is what the budget leaves
  refine pivotLoop_reaches (I := fun n run => Course settings f (.pivoting phase) run ∧
    n = settings.budget f - run.pivots) ?_ ?_ ?_ ?_ _ run ⟨h, rfl⟩ (h.shaped hf)
  · rintro n run cell r log ⟨h, hn⟩ - hchoose hr
    refine ⟨h.pivot hchoose hr (by omega), ?_⟩
    show n = settings.budget f - (run.pivots + 1)
    omega
  · rintro n run event ⟨h, -⟩ - hchoose
    exact h.settle hchoose
  · rintro n run j ⟨h, -⟩ - hchoose
    exact .unbounded h hchoose
  · rintro run cell ⟨h, hn⟩ - hchoose
    exact .exhausted h hchoose (by omega)

theorem dropArtificials_course (h : Course settings f (.clearing 0) run)
    (hf : f.tableau.IsShaped) :
    Reaches (dropArtificials settings.tol (settings.budget f) run) (Course settings f .cleared)
      (Stops settings f) := by
  refine Reaches.next (P := fun run => Course settings f (.clearing run.tableau.rows.length) run ∧
    ∀ r ∈ run.tableau.rows, ¬ r.IsArtificial run.tableau.columns) ?_ ?_
  · refine driveOut_reaches (I := fun i run => Course settings f (.clearing i) run) ?_ ?_ ?_ ?_ ?_
      _ 0 run h (.start (h.shaped hf))
    · exact fun i run r h _ hr hreal => h.keep hr hreal
    · exact fun i j run r log h _ hr hart hj hbudget => h.swap hr hart hj hbudget
    · exact fun i run r event h _ hr hart hnone => h.drop hr hart hnone
    · exact fun i j run r h _ hr hart hj hbudget => .exhaustedClearing h hr hart hj hbudget
    · exact fun run h _ hreal => ⟨h, hreal⟩
  · rintro run ⟨h, hreal⟩
    have hshaped := h.shaped hf
    have hrestrict : run.tableau.restrict run.tableau.realMask
        = .ok (run.tableau.marked run.tableau.realMask) :=
      Tableau.restrict_of_shaped hshaped (List.length_map _) (hshaped.realMask_basic hreal)
    simp only [hrestrict, bind, Except.bind]
    exact .goesOn (h.restrict hreal)

theorem phaseTwo_course (h : Course settings f .cleared run) (hf : f.tableau.IsShaped) :
    Reaches (phaseTwo settings f (settings.budget f) run) (Course settings f (.settled 2))
      (Stops settings f) := by
  have hcosts : (run.tableau.columns.map f.costOf).length = run.tableau.columns.length :=
    List.length_map _
  have hprice := Tableau.price_of_shaped (h.shaped hf) hcosts
  simp only [phaseTwo, Run.note, hprice, bind, Except.bind]
  exact pivotLoop_course h.reprice hf

end Course

section Solve

open StandardForm

variable {p : Program α} {settings : Settings α}

theorem phaseOne_course (h : p.objection = none) (hart : (layout p).HasArtificials) :
    Reaches (phaseOne settings (layout p) (settings.budget (layout p)) (.start p))
      (Course settings (layout p) (.clearing 0)) (Stops settings (layout p)) := by
  have hshaped := isShaped_tableau_layout h
  have hcosts : (phaseOneCosts (layout p).columns : List α).length
      = (layout p).tableau.columns.length := List.length_map _
  have hprice := Tableau.price_of_shaped hshaped hcosts
  simp only [phaseOne, Run.start, Run.note, hprice, bind, Except.bind]
  refine Reaches.next (P := Course settings (layout p) (.settled 1))
    (pivotLoop_course (.start hart) hshaped) fun run hrun => ?_
  by_cases hresidual : settings.feasibilityTol < -run.tableau.objectiveValue
  · simp only [hresidual, if_true]
    exact .stops (.infeasible hrun hresidual)
  · simp only [hresidual, if_false]
    exact .goesOn (hrun.clear hresidual)

theorem bothPhases_course (h : p.objection = none) :
    Reaches (bothPhases settings (layout p) (settings.budget (layout p)) (.start p))
      (Course settings (layout p) (.settled 2)) (Stops settings (layout p)) := by
  have hshaped := isShaped_tableau_layout h
  rw [bothPhases]
  split
  next hart =>
    refine (phaseOne_course h hart).next fun run hrun => ?_
    refine (dropArtificials_course hrun hshaped).next fun run hrun => ?_
    exact phaseTwo_course hrun hshaped
  next hart => exact phaseTwo_course (.direct hart) hshaped

/-- A solve of a program without objection ends on its course: with both phases behind it,
or where the course can stop with an error. -/
theorem solve_takes_course (settings : Settings α) (h : p.objection = none) :
    (∃ run, Course settings (layout p) (.settled 2) run ∧ solve settings p =
      .ok (.ofOptimal run.tableau (p.direction = .minimize) run.steps.toList run.pivots)) ∨
    ∃ run e, Stops settings (layout p) run e ∧
      solve settings p = .ok (.ofError e run.steps.toList (some run.tableau) run.pivots) :=
  solve_of_reaches h (bothPhases_course h)

end Solve

/-! ## Where the steps come from -/

/-- The step does what the rules of entering and leaving say on its tableau. -/
def Step.IsDecided (tol : α) (s : Step (Tableau α)) : Prop :=
  match s.pivot with
  | some cell => s.picture.choose tol = .ok (.pivot cell)
  | none => s.picture.choose tol = .ok .optimal ∨ ∃ j, s.picture.choose tol = .ok (.unbounded j)

/-- The step replaces an artificial basic column by the column with the largest entry of its
row. -/
def Step.IsSwap (tol : α) (s : Step (Tableau α)) : Prop :=
  ∃ cell r, s.pivot = some cell ∧ s.picture.rows[cell.row]? = some r ∧
    r.IsArtificial s.picture.columns ∧
      s.picture.replacement cell.row tol = .ok (some cell.column)

/-- The step was taken by a run on the course that had recorded just the steps before it. -/
inductive Taken (settings : Settings α) (f : StandardForm α) (before : List (Step (Tableau α)))
    (s : Step (Tableau α)) : Prop where
  | pivoting {run : Run α} (h : Course settings f (.pivoting s.phase) run)
      (hbefore : run.steps.toList = before) (hpicture : s.picture = run.tableau)
      (hdecided : s.IsDecided settings.tol)
  | clearing {i : Nat} {run : Run α} (h : Course settings f (.clearing i) run)
      (hbefore : run.steps.toList = before) (hpicture : s.picture = run.tableau)
      (hphase : s.phase = 1) (hswap : s.IsSwap settings.tol)

section Taken

variable {settings : Settings α} {f : StandardForm α} {part : Part} {run : Run α}
  {before : List (Step (Tableau α))} {s : Step (Tableau α)}

theorem Taken.exists_course (h : Taken settings f before s) :
    ∃ part run, Course settings f part run ∧ part.phase = s.phase ∧
      run.steps.toList = before ∧ s.picture = run.tableau := by
  cases h with
  | pivoting h hbefore hpicture _ => exact ⟨_, _, h, rfl, hbefore, hpicture⟩
  | clearing h hbefore hpicture hphase _ => exact ⟨_, _, h, hphase.symm, hbefore, hpicture⟩

theorem Course.taken (h : Course settings f part run) (hf : f.tableau.IsShaped) :
    Throughout (Taken settings f) run.steps.toList := by
  induction h with
  | start _ => exact throughout_nil
  | direct _ => exact throughout_nil
  | pivot h hchoose _ _ ih =>
      rw [Run.steps_afterPivot]
      exact ih.concat (.pivoting h rfl rfl hchoose)
  | settle h hchoose ih =>
      simp only [Run.steps_record]
      exact ih.concat (.pivoting h rfl rfl (.inl hchoose))
  | clear _ _ ih => exact ih
  | keep _ _ _ ih => exact ih
  | swap h hr hart hj _ ih =>
      rw [Run.steps_afterPivot]
      refine ih.concat (.clearing h rfl rfl rfl ⟨_, _, rfl, hr, hart, ?_⟩)
      exact (Tableau.replacement_of_row (h.shaped hf).rectangular hr).trans (congrArg _ hj)
  | drop _ _ _ _ ih => exact ih
  | restrict _ _ ih => exact ih
  | reprice _ ih => exact ih

theorem Stops.taken {e : SolveError α} (h : Stops settings f run e) (hf : f.tableau.IsShaped) :
    Throughout (Taken settings f) run.steps.toList := by
  cases h with
  | infeasible h _ => exact h.taken hf
  | unbounded h hchoose =>
      rw [Run.steps_record]
      exact (h.taken hf).concat (.pivoting h rfl rfl (.inr ⟨_, hchoose⟩))
  | exhausted h _ _ => exact h.taken hf
  | exhaustedClearing h _ _ _ _ => exact h.taken hf

theorem Stops.exists_course {e : SolveError α} (h : Stops settings f run e) :
    ∃ part run', Course settings f part run' ∧ run.tableau = run'.tableau := by
  cases h with
  | infeasible h _ => exact ⟨_, _, h, rfl⟩
  | unbounded h _ => exact ⟨_, _, h, rfl⟩
  | exhausted h _ _ => exact ⟨_, _, h, rfl⟩
  | exhaustedClearing h _ _ _ _ => exact ⟨_, _, h, rfl⟩

end Taken

/-! ## Every solve reports -/

section Report

open StandardForm

variable {p : Program α} {settings : Settings α} {r : Report (Tableau α) α}

theorem exists_report (settings : Settings α) (p : Program α) :
    ∃ r, solve settings p = .ok r := by
  cases h : p.objection with
  | some o => exact ⟨_, solve_of_objection h⟩
  | none =>
      rcases solve_takes_course settings h with ⟨run, -, hr⟩ | ⟨run, e, -, hr⟩
      · exact ⟨_, hr⟩
      · exact ⟨_, hr⟩

theorem report_cases (h : p.objection = none) (hr : solve settings p = .ok r) :
    (∃ run, Course settings (layout p) (.settled 2) run ∧
      r = .ofOptimal run.tableau (p.direction = .minimize) run.steps.toList run.pivots) ∨
    ∃ run e, Stops settings (layout p) run e ∧
      r = .ofError e run.steps.toList (some run.tableau) run.pivots := by
  rcases solve_takes_course settings h with ⟨run, hrun, hr'⟩ | ⟨run, e, hstops, hr'⟩
  · exact .inl ⟨run, hrun, Except.ok.inj (hr.symm.trans hr')⟩
  · exact .inr ⟨run, e, hstops, Except.ok.inj (hr.symm.trans hr')⟩

theorem exists_settled_of_optimal (h : p.objection = none) (hr : solve settings p = .ok r)
    (hstatus : r.status = .optimal) :
    ∃ run, Course settings (layout p) (.settled 2) run ∧
      r = .ofOptimal run.tableau (p.direction = .minimize) run.steps.toList run.pivots := by
  rcases report_cases h hr with hsettled | ⟨run, e, -, rfl⟩
  · exact hsettled
  · have hstatus : e.status = .optimal := hstatus
    cases e <;> exact nomatch hstatus

theorem exists_stops_of_error (h : p.objection = none) (hr : solve settings p = .ok r)
    {e : SolveError α} (he : r.error? = some e) :
    ∃ run, Stops settings (layout p) run e ∧
      r = .ofError e run.steps.toList (some run.tableau) run.pivots := by
  rcases report_cases h hr with ⟨run, -, rfl⟩ | ⟨run, e', hstops, rfl⟩
  · exact nomatch he
  · cases he
    exact ⟨run, hstops, rfl⟩

/-- Every step of a report was taken on the course. -/
theorem taken_of_solve (h : p.objection = none) (hr : solve settings p = .ok r) :
    Throughout (Taken settings (layout p)) r.steps := by
  have hshaped := isShaped_tableau_layout h
  rcases report_cases h hr with ⟨run, hrun, rfl⟩ | ⟨run, e, hstops, rfl⟩
  · exact hrun.taken hshaped
  · exact hstops.taken hshaped

theorem final_of_solve (h : p.objection = none) (hr : solve settings p = .ok r) :
    ∃ part run, Course settings (layout p) part run ∧ r.final = some run.tableau := by
  rcases report_cases h hr with ⟨run, hrun, rfl⟩ | ⟨run, e, hstops, rfl⟩
  · exact ⟨_, _, hrun, rfl⟩
  · obtain ⟨part, run', hrun', htableau⟩ := hstops.exists_course
    exact ⟨part, run', hrun', congrArg some htableau⟩

/-- What holds of every tableau on the course holds of the steps of a report and of its
final tableau. -/
theorem forall_tableau_of_solve (h : p.objection = none) (hr : solve settings p = .ok r)
    {P : Tableau α → Prop}
    (hcourse : ∀ {part run}, Course settings (layout p) part run → P run.tableau) :
    (∀ s ∈ r.steps, P s.picture) ∧ ∃ t, r.final = some t ∧ P t := by
  refine ⟨fun s hs => ?_, ?_⟩
  · obtain ⟨before, htaken⟩ := (taken_of_solve h hr).of_mem hs
    obtain ⟨part, run, hrun, -, -, hpicture⟩ := htaken.exists_course
    rw [hpicture]
    exact hcourse hrun
  · obtain ⟨part, run, hrun, hfinal⟩ := final_of_solve h hr
    exact ⟨run.tableau, hfinal, hcourse hrun⟩

/-- That a row has no basic column is never an objection to a program. -/
theorem objection_ne_noBasicColumn {i : Nat} : p.objection ≠ some (.noBasicColumn i) := by
  have hconstraint : ∀ (n : Nat) (c : Constraint α) (k : Nat),
      Program.objectionTo n c k ≠ some (.noBasicColumn i) := by
    intro n c k
    rw [Program.objectionTo]
    split_ifs <;> simp
  rw [Program.objection]
  split_ifs
  · simp
  · simp
  · simp
  · simp
  · intro h
    obtain ⟨⟨c, k⟩, -, hc⟩ := List.exists_of_findSome?_eq_some h
    exact hconstraint _ c k hc

/-- Whatever the settings are and whatever the arithmetic returns, a solve ends in a report:
no operation on the way meets a tableau, a mask, costs or a position that it cannot work on.
A row without a basic column is never reported, every equation of the standard form has its
coefficients and costs in place, and every tableau handed out is in shape. -/
theorem solve_never_faults (settings : Settings α) (p : Program α) :
    ∃ r, solve settings p = .ok r ∧
      (∀ i, r.error? ≠ some (.invalid (.noBasicColumn i))) ∧
      (∀ f, ofProgram p = .ok f →
        f.tableau.IsShaped ∧ f.costs.length = f.columns.length) ∧
      (∀ s ∈ r.steps, s.picture.IsShaped) ∧ ∀ t, r.final = some t → t.IsShaped := by
  obtain ⟨r, hr⟩ := exists_report settings p
  refine ⟨r, hr, ?_⟩
  cases h : p.objection with
  | some o =>
      cases hr.symm.trans (solve_of_objection h)
      refine ⟨?_, ?_, fun s hs => (nomatch hs), fun t ht => (nomatch ht)⟩
      · intro i he
        cases he
        exact objection_ne_noBasicColumn h
      · intro f hf
        rw [ofProgram_eq, h] at hf
        exact nomatch hf
  | none =>
      have hshaped := isShaped_tableau_layout h
      obtain ⟨hsteps, t, hfinal, ht⟩ :=
        forall_tableau_of_solve h hr fun hrun => hrun.shaped hshaped
      refine ⟨?_, ?_, hsteps, ?_⟩
      · intro i he
        rcases solve_takes_course settings h with ⟨run, -, hr'⟩ | ⟨run, e, hstops, hr'⟩
        · cases hr.symm.trans hr'
          exact nomatch he
        · cases hr.symm.trans hr'
          cases he
          exact nomatch hstops
      · intro f hf
        cases (ofProgram_eq_ok h).symm.trans hf
        exact ⟨hshaped, length_costs_layout h⟩
      · intro u hu
        cases hfinal.symm.trans hu
        exact ht

end Report

end TwoPhase
