/-
# `Stage` — rules for the stages of a solve

A stage either goes on with a run or stops with a run and an error, and
nothing but a fault could keep it from doing one of the two.  `Reaches`
says that it does so without a fault, with one postcondition for each way
out.  Each loop of the solver gets one rule here: an invariant that every
round preserves gives the postconditions.  That the tableau stays shaped,
so that no round faults, is part of the rules and not of the invariants,
and holds for every scalar.  A last rule turns what the stages reach into
what the solve reports.
-/
import Mathlib
import TwoPhase.Solve
import TwoPhase.Proofs.Layout

namespace TwoPhase

variable {α : Type}

/-- The stage is reached without a fault.  Where the solve goes on its run has `P`,
and where it stops its run and its error have `Q`. -/
def Reaches (x : Except Fault (Stage α)) (P : Run α → Prop) (Q : Run α → SolveError α → Prop) :
    Prop :=
  ∃ run stop, x = .ok (run, stop) ∧
    match stop with
    | none => P run
    | some e => Q run e

namespace Reaches

variable {P P' : Run α → Prop} {Q : Run α → SolveError α → Prop} {run : Run α}

theorem goesOn (h : P run) : Reaches (.ok (run, none)) P Q := ⟨run, none, rfl, h⟩

theorem stops {e : SolveError α} (h : Q run e) : Reaches (.ok (run, some e)) P Q :=
  ⟨run, some e, rfl, h⟩

theorem next [Scalar α] {x : Except Fault (Stage α)} {rest : Run α → Except Fault (Stage α)}
    (hx : Reaches x P Q) (hrest : ∀ run, P run → Reaches (rest run) P' Q) :
    Reaches (x >>= fun stage => stage.next rest) P' Q := by
  obtain ⟨run, stop, rfl, h⟩ := hx
  cases stop with
  | none => exact hrest run h
  | some e => exact stops h

end Reaches

/-- The basic column of the row is an artificial one. -/
def BasicRow.IsArtificial (r : BasicRow α) (columns : List Column) : Prop :=
  ∃ c, columns[r.basic]? = some c ∧ c.IsArtificial

theorem Column.IsArtificial.exists_eq {c : Column} (h : c.IsArtificial) :
    ∃ a, c = .artificial a := by
  cases c with
  | artificial a => exact ⟨a, rfl⟩
  | _ => exact h.elim

theorem BasicRow.IsArtificial.exists_artificial {r : BasicRow α} {columns : List Column}
    (h : r.IsArtificial columns) : ∃ a, columns[r.basic]? = some (.artificial a) := by
  obtain ⟨c, hc, hart⟩ := h
  obtain ⟨a, rfl⟩ := hart.exists_eq
  exact ⟨a, hc⟩

/-- The scan stands at row `i` and has the given number of rows to look at.  No row before it
has an artificial basic column. -/
structure Run.IsClearedTo (run : Run α) (i remaining : Nat) : Prop where
  shaped : run.tableau.IsShaped
  length_eq : i + remaining = run.tableau.rows.length
  real : ∀ k < i, ∀ r, run.tableau.rows[k]? = some r → ¬ r.IsArtificial run.tableau.columns

namespace Run.IsClearedTo

variable {remaining i : Nat} {run : Run α} {r : BasicRow α}

theorem start (h : run.tableau.IsShaped) : run.IsClearedTo 0 run.tableau.rows.length :=
  ⟨h, Nat.zero_add _, fun _ hk => absurd hk (Nat.not_lt_zero _)⟩

theorem exists_row (h : run.IsClearedTo i (remaining + 1)) :
    ∃ r, run.tableau.rows[i]? = some r := by
  have hi : i < run.tableau.rows.length := by
    rw [← h.length_eq]
    omega
  exact ⟨_, List.getElem?_eq_getElem hi⟩

theorem all_real (h : run.IsClearedTo i 0) :
    i = run.tableau.rows.length ∧ ∀ r ∈ run.tableau.rows, ¬ r.IsArtificial run.tableau.columns := by
  obtain rfl : i = run.tableau.rows.length := h.length_eq
  refine ⟨rfl, fun r hr => ?_⟩
  obtain ⟨k, hk⟩ := List.mem_iff_getElem?.mp hr
  exact h.real k (List.getElem?_eq_some_iff.mp hk).1 r hk

theorem keep (h : run.IsClearedTo i (remaining + 1)) (hr : run.tableau.rows[i]? = some r)
    (hreal : ¬ r.IsArtificial run.tableau.columns) : run.IsClearedTo (i + 1) remaining where
  shaped := h.shaped
  length_eq := by
    have := h.length_eq
    omega
  real k hk s hs := by
    rcases Nat.lt_succ_iff_lt_or_eq.mp hk with hk | rfl
    · exact h.real k hk s hs
    · cases hr.symm.trans hs
      exact hreal

theorem drop (h : run.IsClearedTo i (remaining + 1)) (event : Event α) :
    ({ run.note event with
      tableau := { run.tableau with rows := run.tableau.rows.eraseIdx i } } : Run α).IsClearedTo
        i remaining := by
  have hlen := h.length_eq
  refine ⟨h.shaped.of_subset List.eraseIdx_subset, ?_, ?_⟩
  · show i + remaining = (run.tableau.rows.eraseIdx i).length
    rw [List.length_eraseIdx_of_lt (by omega)]
    omega
  · intro k hk s hs
    have hs : (run.tableau.rows.eraseIdx i)[k]? = some s := hs
    rw [List.getElem?_eraseIdx_of_lt hk] at hs
    exact h.real k hk s hs

end Run.IsClearedTo

variable [Scalar α]

/-! ## One pivot of a run -/

namespace Run

/-- The run after a pivot on a cell whose row is `r`. -/
def afterPivot (run : Run α) (tol : α) (phase : Nat) (r : Row α) (cell : Cell)
    (log : Array (Event α)) : Run α :=
  ⟨run.tableau.pivotOn r cell tol, run.steps.push ⟨phase, run.tableau, some cell⟩,
    run.pivots + 1, log⟩

theorem pivot_of_shaped {run : Run α} (h : run.tableau.IsShaped) {r : BasicRow α} {cell : Cell}
    (hr : run.tableau.rows[cell.row]? = some r)
    (hc : cell.column < run.tableau.columns.length) (tol : α) (phase : Nat) :
    ∃ log, run.pivot tol phase cell = .ok (run.afterPivot tol phase r.toRow cell log) := by
  have hb : r.basic < run.tableau.columns.length := h.basic_lt_of_row hr
  have hannounced : run.announcement phase cell = .ok (.pivoting phase run.pivots
      run.tableau.columns[cell.column] run.tableau.columns[r.basic] cell) := by
    rw [announcement, List.getElem?_eq_getElem hc, hr]
    simp only [List.getElem?_eq_getElem hb]
  have hpivot : run.tableau.pivot cell tol = .ok (run.tableau.pivotOn r.toRow cell tol) :=
    Tableau.pivot_of_shaped h hr hc
  rw [Run.pivot, hannounced, hpivot]
  exact ⟨_, rfl⟩

end Run

/-! ## The pivot loop -/

/-- The rule of the pivot loop.  The invariant `I` also says how many pivots are still
allowed. -/
theorem pivotLoop_reaches {tol : α} {phase : Nat} {I : Nat → Run α → Prop} {P : Run α → Prop}
    {Q : Run α → SolveError α → Prop}
    (pivot : ∀ n run cell r log, I (n + 1) run → run.tableau.IsShaped →
      run.tableau.choose tol = .ok (.pivot cell) → run.tableau.rows[cell.row]? = some r →
      I n (run.afterPivot tol phase r.toRow cell log))
    (optimal : ∀ n run event, I n run → run.tableau.IsShaped →
      run.tableau.choose tol = .ok .optimal → P ((run.record phase none).note event))
    (unbounded : ∀ n run column, I n run → run.tableau.IsShaped →
      run.tableau.choose tol = .ok (.unbounded column) →
      Q (run.record phase none) (.unbounded column))
    (limit : ∀ run cell, I 0 run → run.tableau.IsShaped →
      run.tableau.choose tol = .ok (.pivot cell) → Q run (.iterationLimit run.pivots)) :
    ∀ (n : Nat) (run : Run α), I n run → run.tableau.IsShaped →
      Reaches (pivotLoop tol phase n run) P Q := by
  intro n
  induction n with
  | zero =>
      intro run hI hshaped
      rcases Tableau.choose_cases hshaped.rectangular tol with
        ⟨hc, -⟩ | ⟨j, hc, -⟩ | ⟨i, j, hc, -⟩
      · rw [pivotLoop, hc]
        exact .goesOn (optimal 0 run _ hI hshaped hc)
      · rw [pivotLoop, hc]
        exact .stops (unbounded 0 run j hI hshaped hc)
      · rw [pivotLoop, hc]
        exact .stops (limit run ⟨i, j⟩ hI hshaped hc)
  | succ n ih =>
      intro run hI hshaped
      rcases Tableau.choose_cases hshaped.rectangular tol with
        ⟨hc, -⟩ | ⟨j, hc, -⟩ | ⟨i, j, hc, -⟩
      · rw [pivotLoop, hc]
        exact .goesOn (optimal _ run _ hI hshaped hc)
      · rw [pivotLoop, hc]
        exact .stops (unbounded _ run j hI hshaped hc)
      · obtain ⟨hcolumn, r, hr, -⟩ := Tableau.cell_of_choose hshaped.rectangular hc
        obtain ⟨log, hpivot⟩ := Run.pivot_of_shaped hshaped hr hcolumn tol phase
        rw [pivotLoop, hc]
        show Reaches (run.pivot tol phase ⟨i, j⟩ >>= pivotLoop tol phase n) P Q
        rw [hpivot]
        exact ih _ (pivot n run ⟨i, j⟩ r log hI hshaped hc hr) (hshaped.pivotOn hr hcolumn)

/-! ## Driving out the artificial columns -/

section Look

variable {tol : α} {limit remaining i a : Nat} {run : Run α} {row : BasicRow α}

theorem driveOut_of_some (hr : run.tableau.rows[i]? = some row)
    (hc : run.tableau.columns[row.basic]? = some (.artificial a)) {j : Nat}
    (hj : run.tableau.replacement i tol = .ok (some j)) :
    driveOut tol limit (remaining + 1) i run =
      if limit ≤ run.pivots then .ok (run, some (.iterationLimit run.pivots))
      else run.pivot tol 1 ⟨i, j⟩ >>= driveOut tol limit remaining (i + 1) := by
  rw [driveOut, hr]
  simp only [hc, hj]
  rfl

theorem driveOut_of_none (hr : run.tableau.rows[i]? = some row)
    (hc : run.tableau.columns[row.basic]? = some (.artificial a))
    (hnone : run.tableau.replacement i tol = .ok none) :
    driveOut tol limit (remaining + 1) i run =
      run.tableau.dropRow i >>= fun t =>
        driveOut tol limit remaining i { run.note (.redundantRow i) with tableau := t } := by
  rw [driveOut, hr]
  simp only [hc, hnone]
  rfl

theorem driveOut_of_error (hr : run.tableau.rows[i]? = some row)
    (hc : run.tableau.columns[row.basic]? = some (.artificial a)) {fault : Fault}
    (hfault : run.tableau.replacement i tol = .error fault) :
    driveOut tol limit (remaining + 1) i run = .error fault := by
  rw [driveOut, hr]
  simp only [hc, hfault]
  rfl

theorem driveOut_of_real (hr : run.tableau.rows[i]? = some row) {c : Column}
    (hc : run.tableau.columns[row.basic]? = some c) (hreal : ¬ c.IsArtificial) :
    driveOut tol limit (remaining + 1) i run = driveOut tol limit remaining (i + 1) run := by
  rw [driveOut, hr]
  cases c with
  | artificial _ => exact absurd trivial hreal
  | _ => simp only [hc]

end Look

section Round

variable {tol : α} {limit remaining i : Nat} {run : Run α} {r : BasicRow α}

theorem driveOut_of_not_isArtificial (h : run.tableau.IsShaped)
    (hr : run.tableau.rows[i]? = some r) (hreal : ¬ r.IsArtificial run.tableau.columns) :
    driveOut tol limit (remaining + 1) i run = driveOut tol limit remaining (i + 1) run := by
  have hc := List.getElem?_eq_getElem (h.basic_lt_of_row hr)
  exact driveOut_of_real hr hc fun hart => hreal ⟨_, hc, hart⟩

theorem Run.IsClearedTo.swap {j : Nat} (h : run.IsClearedTo i (remaining + 1))
    (hr : run.tableau.rows[i]? = some r)
    (hj : run.tableau.largestColumn r.toRow tol = some j) (log : Array (Event α)) :
    (run.afterPivot tol 1 r.toRow ⟨i, j⟩ log).IsClearedTo (i + 1) remaining := by
  obtain ⟨v, c, -, hc, hreal, -⟩ := Tableau.largestColumn_some hj
  refine ⟨h.shaped.pivotOn hr (List.getElem?_eq_some_iff.mp hc).1, ?_, ?_⟩
  · have hlen := h.length_eq
    rw [Run.afterPivot, Tableau.length_rows_pivotOn]
    omega
  · intro k hk s hs
    rcases Tableau.pivotOn_row_cases hs with ⟨-, rfl⟩ | ⟨hne, s₀, hs₀, rfl⟩
    · -- the row pivoted on has the column that entered, which is not artificial
      rintro ⟨c', hc', hart⟩
      cases hc.symm.trans hc'
      exact hreal hart
    · exact h.real k (lt_of_le_of_ne (Nat.lt_succ_iff.mp hk) hne) s₀ hs₀

/-- Where a row with an artificial basic column can be pivoted on, the limit decides whether
it is. -/
theorem driveOut_of_largestColumn (h : run.tableau.IsShaped)
    (hr : run.tableau.rows[i]? = some r) (hart : r.IsArtificial run.tableau.columns) {j : Nat}
    (hj : run.tableau.largestColumn r.toRow tol = some j) :
    ∃ log, driveOut tol limit (remaining + 1) i run =
      if limit ≤ run.pivots then .ok (run, some (.iterationLimit run.pivots))
      else driveOut tol limit remaining (i + 1) (run.afterPivot tol 1 r.toRow ⟨i, j⟩ log) := by
  obtain ⟨a, ha⟩ := hart.exists_artificial
  obtain ⟨_, c, -, hc, -⟩ := Tableau.largestColumn_some hj
  obtain ⟨log, hpivot⟩ : ∃ log, run.pivot tol 1 ⟨i, j⟩ =
      .ok (run.afterPivot tol 1 r.toRow ⟨i, j⟩ log) :=
    Run.pivot_of_shaped h hr (List.getElem?_eq_some_iff.mp hc).1 tol 1
  have hfound : run.tableau.replacement i tol = .ok (some j) := by
    rw [Tableau.replacement_of_row h.rectangular hr, hj]
  refine ⟨log, ?_⟩
  rw [driveOut_of_some hr ha hfound, hpivot]
  rfl

theorem driveOut_of_redundant (h : run.tableau.IsShaped)
    (hr : run.tableau.rows[i]? = some r) (hart : r.IsArtificial run.tableau.columns)
    (hnone : run.tableau.largestColumn r.toRow tol = none) :
    driveOut tol limit (remaining + 1) i run =
      driveOut tol limit remaining i { run.note (.redundantRow i) with
        tableau := { run.tableau with rows := run.tableau.rows.eraseIdx i } } := by
  obtain ⟨a, ha⟩ := hart.exists_artificial
  have hfound : run.tableau.replacement i tol = .ok none := by
    rw [Tableau.replacement_of_row h.rectangular hr, hnone]
  rw [driveOut_of_none hr ha hfound, Tableau.dropRow_of_lt (List.getElem?_eq_some_iff.mp hr).1]
  rfl

end Round

/-- The rule of the scan that drives out artificial columns.  The invariant `I` knows the
row that is looked at next. -/
theorem driveOut_reaches {tol : α} {limit : Nat} {I : Nat → Run α → Prop} {P : Run α → Prop}
    {Q : Run α → SolveError α → Prop}
    (keep : ∀ i run r, I i run → run.tableau.IsShaped → run.tableau.rows[i]? = some r →
      ¬ r.IsArtificial run.tableau.columns → I (i + 1) run)
    (swap : ∀ i j run r log, I i run → run.tableau.IsShaped → run.tableau.rows[i]? = some r →
      r.IsArtificial run.tableau.columns → run.tableau.largestColumn r.toRow tol = some j →
      run.pivots < limit → I (i + 1) (run.afterPivot tol 1 r.toRow ⟨i, j⟩ log))
    (drop : ∀ i run r event, I i run → run.tableau.IsShaped → run.tableau.rows[i]? = some r →
      r.IsArtificial run.tableau.columns → run.tableau.largestColumn r.toRow tol = none →
      I i { run.note event with
        tableau := { run.tableau with rows := run.tableau.rows.eraseIdx i } })
    (exhausted : ∀ i j run r, I i run → run.tableau.IsShaped → run.tableau.rows[i]? = some r →
      r.IsArtificial run.tableau.columns → run.tableau.largestColumn r.toRow tol = some j →
      limit ≤ run.pivots → Q run (.iterationLimit run.pivots))
    (finish : ∀ run, I run.tableau.rows.length run → run.tableau.IsShaped →
      (∀ r ∈ run.tableau.rows, ¬ r.IsArtificial run.tableau.columns) → P run) :
    ∀ (remaining i : Nat) (run : Run α), I i run → run.IsClearedTo i remaining →
      Reaches (driveOut tol limit remaining i run) P Q := by
  intro remaining
  induction remaining with
  | zero =>
      intro i run hI hcleared
      obtain ⟨rfl, hreal⟩ := hcleared.all_real
      exact .goesOn (finish run hI hcleared.shaped hreal)
  | succ remaining ih =>
      intro i run hI hcleared
      have hshaped := hcleared.shaped
      obtain ⟨r, hr⟩ := hcleared.exists_row
      by_cases hart : r.IsArtificial run.tableau.columns
      · cases hj : run.tableau.largestColumn r.toRow tol with
        | none =>
            rw [driveOut_of_redundant hshaped hr hart hj]
            exact ih i _ (drop i run r _ hI hshaped hr hart hj) (hcleared.drop _)
        | some j =>
            obtain ⟨log, hround⟩ := driveOut_of_largestColumn hshaped hr hart hj
            rw [hround]
            split
            next hlimit => exact .stops (exhausted i j run r hI hshaped hr hart hj hlimit)
            next hlimit =>
              exact ih (i + 1) _ (swap i j run r log hI hshaped hr hart hj (not_le.mp hlimit))
                (hcleared.swap hr hj log)
      · rw [driveOut_of_not_isArtificial hshaped hr hart]
        exact ih (i + 1) run (keep i run r hI hshaped hr hart) (hcleared.keep hr hart)

/-! ## The whole solve -/

section Solve

open StandardForm

variable {p : Program α} {settings : Settings α}

theorem solve_of_objection {o : Objection} (h : p.objection = some o) :
    solve settings p = .ok (.ofError (.invalid o) [] none 0) := by
  have hform : ofProgram p = .error o := by rw [ofProgram_eq, h]
  rw [solve, solveLogged, hform]
  rfl

def Run.start (p : Program α) : Run α :=
  ⟨(layout p).tableau, #[], 0, (layoutEvents p (layout p)).toArray⟩

theorem solve_of_bothPhases (h : p.objection = none) {run : Run α}
    {stop : Option (SolveError α)} (hrun : bothPhases settings (layout p)
      (settings.budget (layout p)) (.start p) = .ok (run, stop)) :
    solve settings p = .ok (run.conclude (layout p).negatedObjective stop).1 := by
  rw [Run.start] at hrun
  rw [solve, solveLogged, ofProgram_eq_ok h]
  simp only [hrun, bind, Except.bind]
  rfl

/-- What both phases reach from the start is what the report tells of. -/
theorem solve_of_reaches (h : p.objection = none) {P : Run α → Prop}
    {Q : Run α → SolveError α → Prop}
    (hreach : Reaches (bothPhases settings (layout p) (settings.budget (layout p)) (.start p))
      P Q) :
    (∃ run, P run ∧ solve settings p = .ok (.ofOptimal run.tableau (p.direction = .minimize)
      run.steps.toList run.pivots)) ∨
    ∃ run e, Q run e ∧
      solve settings p = .ok (.ofError e run.steps.toList (some run.tableau) run.pivots) := by
  obtain ⟨run, stop, hrun, hpost⟩ := hreach
  have hreport := solve_of_bothPhases h hrun
  cases stop with
  | none => exact .inl ⟨run, hpost, hreport⟩
  | some e => exact .inr ⟨run, e, hpost, hreport⟩

end Solve

end TwoPhase
