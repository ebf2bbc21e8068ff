/-
# `Phases` — the exact solve, part by part

With nothing tolerated, every part of a solve hands on what the next one
needs.  The pivot loops keep the aim of their phase.  After phase 1 each
row with an artificial basic column is at level zero, so driving these
columns out moves no right-hand side, and a row without anything to
replace its column says nothing about the columns that stay.  What is left
is the aim of phase 2, and where the solve stops on the way the error is
certified.

The trace is carried along: every step that a pivot loop records is on a
tableau that expresses the aim of its phase.
-/
import Mathlib
import TwoPhase.Proofs.Course
import TwoPhase.Proofs.Aim

namespace TwoPhase

/-- No bound holds for the value of the aim. -/
def Aim.IsUnbounded (aim : Aim) : Prop := ∀ K, ∃ y, aim.IsSolution y ∧ K < aim.value y

namespace StandardForm

def aimOf (f : StandardForm ℚ) : (phase : Nat) → Aim
  | 1 => f.phaseOneAim
  | _ => f.phaseTwoAim

/-- Every step was recorded on a tableau that expresses the aim of its phase.  Only of the
swaps that drive out artificial columns is this not said: they count as phase 1, but come
after the step without a pivot in which its loop ends. -/
def IsTracedBy (f : StandardForm ℚ) (steps : List (Step (Tableau ℚ))) : Prop :=
  ∀ before s after, steps = before ++ s :: after →
    (s.phase = 1 → ∀ q ∈ before, q.pivot ≠ none) → s.picture.Expresses (f.aimOf s.phase)

/-- What is known where the solve stops with an error. -/
def Certifies (f : StandardForm ℚ) : SolveError ℚ → Prop
  | .infeasible residual =>
      0 < residual ∧ IsLeast (f.artificialSum '' {y | f.phaseOneAim.IsSolution y}) residual
  | .unbounded _ => f.phaseTwoAim.IsUnbounded
  | .iterationLimit _ => True
  | .invalid _ => False

variable {f : StandardForm ℚ}

theorem isTracedBy_nil : f.IsTracedBy [] := throughout_nil

theorem IsTracedBy.concat {steps : List (Step (Tableau ℚ))} {s : Step (Tableau ℚ)}
    (h : f.IsTracedBy steps)
    (hs : (s.phase = 1 → ∀ q ∈ steps, q.pivot ≠ none) →
      s.picture.Expresses (f.aimOf s.phase)) :
    f.IsTracedBy (steps ++ [s]) :=
  Throughout.concat h hs

end StandardForm

namespace Run

/-- The run is in the pivot loop of a phase. -/
structure IsPursuing (run : Run ℚ) (f : StandardForm ℚ) (phase : Nat) : Prop where
  pursues : run.tableau.Pursues (f.aimOf phase)
  traced : f.IsTracedBy run.steps.toList

/-- The run has come to the end of such a loop. -/
structure HasPursued (run : Run ℚ) (f : StandardForm ℚ) (phase : Nat) : Prop
    extends run.IsPursuing f phase where
  optimal : run.tableau.choose 0 = .ok .optimal
  closed : ∃ q ∈ run.steps.toList, q.pivot = none

/-- The run is between the phases, where artificial columns are driven out. -/
structure IsClearing (run : Run ℚ) (f : StandardForm ℚ) : Prop where
  columns_eq : run.tableau.columns = f.columns
  unit : run.tableau.HasUnitBasis
  feasible : run.tableau.IsFeasible
  level : ∀ r ∈ run.tableau.rows, r.IsArtificial run.tableau.columns → r.rhs = 0
  solvedBy_iff : ∀ y : List ℚ, y.length = f.phaseTwoAim.columns.length →
    (run.tableau.SolvedBy (f.extend y) ↔ f.SolvedBy (f.extend y))
  traced : f.IsTracedBy run.steps.toList
  closed : ∃ q ∈ run.steps.toList, q.pivot = none

/-- The run is free of artificial columns and has only to be priced for phase 2. -/
structure IsCleared (run : Run ℚ) (f : StandardForm ℚ) : Prop where
  columns_eq : run.tableau.columns = f.phaseTwoAim.columns
  unit : run.tableau.HasUnitBasis
  feasible : run.tableau.IsFeasible
  solvedBy_iff : ∀ y : List ℚ, y.length = f.phaseTwoAim.columns.length →
    (run.tableau.SolvedBy y ↔ f.phaseTwoAim.Solves y)
  traced : f.IsTracedBy run.steps.toList

/-- The run has stopped with an error that is certified. -/
structure HasStopped (f : StandardForm ℚ) (run : Run ℚ) (e : SolveError ℚ) : Prop where
  certified : f.Certifies e
  traced : f.IsTracedBy run.steps.toList

end Run

/-! ## The pivot loop -/

section Loop

variable {f : StandardForm ℚ} {phase : Nat} {run : Run ℚ} {log : Array (Event ℚ)}

theorem Run.IsPursuing.traced_concat (h : run.IsPursuing f phase) (cell : Option Cell) :
    f.IsTracedBy (run.steps.toList ++ [⟨phase, run.tableau, cell⟩]) :=
  h.traced.concat fun _ => h.pursues.expresses

theorem Run.IsPursuing.afterPivot (h : run.IsPursuing f phase) {cell : Cell} {r : BasicRow ℚ}
    (hchoose : run.tableau.choose 0 = .ok (.pivot cell))
    (hr : run.tableau.rows[cell.row]? = some r) :
    (run.afterPivot 0 phase r.toRow cell log).IsPursuing f phase := by
  refine ⟨h.pursues.pivotOn hchoose hr, ?_⟩
  rw [Run.steps_afterPivot]
  exact h.traced_concat (some cell)

theorem Run.IsPursuing.settled (h : run.IsPursuing f phase)
    (hopt : run.tableau.choose 0 = .ok .optimal) :
    ({ run.record phase none with log } : Run ℚ).HasPursued f phase := by
  refine ⟨⟨h.pursues, ?_⟩, hopt, ⟨phase, run.tableau, none⟩, ?_, rfl⟩
  · simp only [Run.steps_record]
    exact h.traced_concat none
  · simp only [Run.steps_record]
    exact List.mem_append_right _ (List.mem_singleton_self _)

end Loop

/-! ## Phase 1 -/

section PhaseOne

variable {p : Program ℚ} {run : Run ℚ}

open StandardForm

theorem Tableau.Pursues.level {f : StandardForm ℚ} {t : Tableau ℚ}
    (h : t.Pursues f.phaseOneAim) (hzero : 0 ≤ t.objectiveValue) {r : BasicRow ℚ}
    (hr : r ∈ t.rows) (hart : r.IsArtificial t.columns) : r.rhs = 0 := by
  obtain ⟨i, hi⟩ := List.mem_iff_getElem?.mp hr
  obtain ⟨c, hc, hart⟩ := hart
  rw [h.expresses.columns_eq] at hc
  have hsum : f.artificialSum t.basicPoint ≤ 0 := by
    have hvalue : -f.artificialSum t.basicPoint = t.objectiveValue := h.value_basicPoint
    linarith
  have hlevel : t.basicPoint.getD r.basic 0 = r.rhs := by
    have hlt := h.shaped.basic_lt r hr
    rw [List.getD_eq_getElem _ _ (by rw [Tableau.length_basicPoint]; exact hlt)]
    simp only [Tableau.basicPoint, List.getElem_map, List.getElem_range]
    exact Tableau.valueOfColumn_of_basic h.basic.unit hi
  have hle := getD_le_artificialSum h.isSolution_basicPoint.nonneg
    (mem_artificialColumns.mpr ⟨c, hc, hart⟩)
  rw [hlevel] at hle
  exact le_antisymm (hle.trans hsum) (h.basic.feasible r hr)

theorem isLeast_artificialSum {f : StandardForm ℚ} {t : Tableau ℚ}
    (h : t.Pursues f.phaseOneAim) (hopt : t.choose 0 = .ok .optimal) :
    IsLeast (f.artificialSum '' {y | f.phaseOneAim.IsSolution y}) (-t.objectiveValue) := by
  have hvalue : -f.artificialSum t.basicPoint = t.objectiveValue := h.value_basicPoint
  refine ⟨⟨t.basicPoint, h.isSolution_basicPoint, ?_⟩, ?_⟩
  · rw [← hvalue, neg_neg]
  · rintro s ⟨y, hy, rfl⟩
    exact neg_le.mp (h.value_le hopt hy)

theorem isPursuing_start (h : p.objection = none) (log : Array (Event ℚ)) :
    (⟨{ (layout p).tableau with
        objective := (layout p).tableau.pricedRow (phaseOneCosts (layout p).columns) },
      #[], 0, log⟩ : Run ℚ).IsPursuing (layout p) 1 := by
  have hcosts : (phaseOneCosts (layout p).columns : List ℚ).length
      = (layout p).tableau.columns.length := List.length_map _
  exact ⟨.of_price (hasUnitBasis_tableau h) (isFeasible_tableau p) hcosts rfl
    (fun _ _ => Iff.rfl) fun y _ => dot_phaseOneCosts (layout p) y, isTracedBy_nil⟩

theorem Run.HasPursued.isClearing (h : run.HasPursued (layout p) 1)
    (hresidual : ¬ 0 < -run.tableau.objectiveValue) : run.IsClearing (layout p) := by
  have haim : run.tableau.Pursues (layout p).phaseOneAim := h.pursues
  refine ⟨haim.expresses.columns_eq, haim.basic.unit, haim.basic.feasible, ?_, ?_, h.traced,
    h.closed⟩
  · exact fun r hr hart => haim.level (neg_nonpos.mp (not_lt.mp hresidual)) hr hart
  · exact fun y hy => haim.expresses.solvedBy_iff _ (length_extend_of_length_eq hy)

end PhaseOne

/-! ## Between the phases -/

section Clearing

variable {p : Program ℚ} {run : Run ℚ} {i : Nat} {r : BasicRow ℚ}

open StandardForm

namespace Run.IsClearing

variable {f : StandardForm ℚ}

theorem afterPivot (h : run.IsClearing f) (hr : run.tableau.rows[i]? = some r)
    (hart : r.IsArtificial run.tableau.columns) {j : Nat}
    (hj : run.tableau.largestColumn r.toRow 0 = some j) (log : Array (Event ℚ)) :
    (run.afterPivot 0 1 r.toRow ⟨i, j⟩ log).IsClearing f := by
  obtain ⟨-, c, -, hc, hreal, -⟩ := Tableau.largestColumn_some hj
  have hcolumn : j < run.tableau.columns.length := (List.getElem?_eq_some_iff.mp hc).1
  have hne : r.entry j ≠ 0 := Tableau.entry_ne_zero_of_largestColumn le_rfl hj
  have hlevel : r.rhs = 0 := h.level r (List.mem_of_getElem? hr) hart
  have hrhs : ∀ {k : Nat} {s : BasicRow ℚ},
      (run.tableau.pivotOn r.toRow ⟨i, j⟩ 0).rows[k]? = some s →
        ∃ s₀, run.tableau.rows[k]? = some s₀ ∧ s.rhs = s₀.rhs :=
    fun hs => Tableau.rhs_pivotOn_of_rhs_eq_zero h.unit.shaped hr hcolumn hlevel hs
  constructor
  case columns_eq => exact h.columns_eq
  case unit => exact h.unit.pivotOn zero_le_one hr hcolumn hne
  case feasible =>
    intro s hs
    obtain ⟨k, hk⟩ := List.mem_iff_getElem?.mp hs
    obtain ⟨s₀, hs₀, hsame⟩ := hrhs hk
    rw [hsame]
    exact h.feasible s₀ (List.mem_of_getElem? hs₀)
  case level =>
    intro s hs hs'
    obtain ⟨k, hk⟩ := List.mem_iff_getElem?.mp hs
    obtain ⟨s₀, hs₀, hsame⟩ := hrhs hk
    rcases Tableau.pivotOn_row_cases hk with ⟨-, rfl⟩ | ⟨-, s₁, hs₁, rfl⟩
    · -- the row swapped has a basic column now that is not artificial
      obtain ⟨c', hc', hart'⟩ := hs'
      cases hc.symm.trans hc'
      exact absurd hart' hreal
    · cases hs₀.symm.trans hs₁
      rw [hsame]
      exact h.level s₀ (List.mem_of_getElem? hs₀) hs'
  case solvedBy_iff =>
    intro y hy
    rw [← h.solvedBy_iff y hy]
    exact Tableau.solvedBy_pivotOn h.unit.shaped.rectangular hr hcolumn hne
  case traced =>
    rw [Run.steps_afterPivot]
    refine h.traced.concat fun hopen => ?_
    obtain ⟨q, hq, hclosed⟩ := h.closed
    exact absurd hclosed (hopen rfl q hq)
  case closed =>
    obtain ⟨q, hq, hclosed⟩ := h.closed
    refine ⟨q, ?_, hclosed⟩
    rw [Run.steps_afterPivot]
    exact List.mem_append_left _ hq

end Run.IsClearing

theorem getElem?_columns_of_lt {k : Nat} (hk : k < (realColumns p).length) :
    ∃ c, (layout p).columns[k]? = some c ∧ ¬ c.IsArtificial := by
  refine ⟨(realColumns p)[k], ?_, not_isArtificial_of_mem_realColumns (List.getElem_mem hk)⟩
  rw [columns_layout_eq, List.getElem?_append_left hk, List.getElem?_eq_getElem hk]

/-- A row at level zero with nothing in the columns that stay holds wherever the others
are at zero. -/
theorem holds_extend_of_largestColumn_eq_none (hcolumns : run.tableau.columns = (layout p).columns)
    (hnone : run.tableau.largestColumn r.toRow 0 = none) (hlevel : r.rhs = 0) {y : List ℚ}
    (hy : y.length = (realColumns p).length) : r.Holds ((layout p).extend y) := by
  have hzero : r.coeffs.take y.length
      = List.replicate (r.coeffs.take y.length).length 0 := by
    refine List.eq_replicate_iff.mpr ⟨rfl, fun v hv => ?_⟩
    obtain ⟨k, hk⟩ := List.mem_iff_getElem?.mp hv
    have hlt : k < y.length := by
      have hlt := (List.getElem?_eq_some_iff.mp hk).1
      rw [List.length_take] at hlt
      omega
    rw [List.getElem?_take_of_lt hlt] at hk
    obtain ⟨c, hc, hreal⟩ := getElem?_columns_of_lt (hy ▸ hlt)
    have hsmall := Tableau.largestColumn_eq_none_iff.mp hnone k v c hk (hcolumns ▸ hc) hreal
    rw [scalarAbs_eq_abs] at hsmall
    exact abs_nonpos_iff.mp (not_lt.mp hsmall)
  show dot r.coeffs (y ++ List.replicate _ 0) = r.rhs
  rw [← dot_take, hzero, dot_replicate_zero_left, hlevel]

theorem Run.IsClearing.drop (h : run.IsClearing (layout p)) (hr : run.tableau.rows[i]? = some r)
    (hart : r.IsArtificial run.tableau.columns)
    (hnone : run.tableau.largestColumn r.toRow 0 = none) (log : Array (Event ℚ)) :
    ({ run with tableau := { run.tableau with rows := run.tableau.rows.eraseIdx i }, log } :
      Run ℚ).IsClearing (layout p) := by
  have hsub : run.tableau.rows.eraseIdx i ⊆ run.tableau.rows := List.eraseIdx_subset
  have hlevel := h.level r (List.mem_of_getElem? hr) hart
  refine ⟨h.columns_eq, h.unit.eraseIdx i, h.feasible.of_subset hsub,
    fun s hs => h.level s (hsub hs), fun y hy => ?_, h.traced, h.closed⟩
  rw [columns_phaseTwoAim] at hy
  rw [← h.solvedBy_iff y (by rw [columns_phaseTwoAim, hy])]
  exact Tableau.solvedBy_eraseIdx hr
    (holds_extend_of_largestColumn_eq_none h.columns_eq hnone hlevel hy)

theorem map_real_columns (p : Program ℚ) :
    (layout p).columns.map (fun c => decide (¬ c.IsArtificial)) =
      List.replicate (realColumns p).length true ++
        List.replicate (layout p).artificialColumns.length false := by
  rw [columns_layout_eq, List.map_append, length_artificialColumns]
  congr 1
  · refine List.map_eq_replicate_iff.mpr fun c hc => ?_
    exact decide_eq_true (not_isArtificial_of_mem_realColumns hc)
  · refine List.map_eq_replicate_iff.mpr fun c hc => ?_
    exact decide_eq_false (not_not_intro (isArtificial_of_mem_artificialPart hc))

/-- Without artificial basic columns the others can go. -/
theorem Run.IsClearing.restrict (h : run.IsClearing (layout p))
    (hreal : ∀ r ∈ run.tableau.rows, ¬ r.IsArtificial run.tableau.columns) :
    ({ run with tableau := run.tableau.marked run.tableau.realMask } :
      Run ℚ).IsCleared (layout p) := by
  have hmask : run.tableau.realMask = List.replicate (realColumns p).length true ++
      List.replicate (layout p).artificialColumns.length false := by
    rw [Tableau.realMask, h.columns_eq, map_real_columns]
  have hbasic := h.unit.shaped.realMask_basic hreal
  refine ⟨?_, h.unit.marked (List.length_map _) hbasic, h.feasible.marked _, ?_, h.traced⟩
  · show keepMarked _ run.tableau.columns = _
    rw [hmask, Tableau.keepMarked_firstMarked, h.columns_eq, columns_layout_eq, List.take_left,
      columns_phaseTwoAim]
  · intro y hy
    have hy' : y.length = (realColumns p).length := by rw [hy, columns_phaseTwoAim]
    rw [hmask]
    exact (Tableau.solvedBy_firstColumns hy').trans (h.solvedBy_iff y hy)

end Clearing

/-! ## Phase 2 -/

section PhaseTwo

variable {p : Program ℚ} {run : Run ℚ}

open StandardForm

theorem dot_map_costOf (h : p.objection = none) {y : List ℚ}
    (hy : y.length = (realColumns p).length) :
    dot ((realColumns p).map (layout p).costOf) y = dot (layout p).costs ((layout p).extend y) := by
  rw [map_costOf_realColumns h, ← hy]
  exact dot_take _ _ _

theorem Run.IsCleared.isPursuing (hrun : run.IsCleared (layout p)) (h : p.objection = none)
    (log : Array (Event ℚ)) :
    ({ run with
      tableau := { run.tableau with
        objective := run.tableau.pricedRow (run.tableau.columns.map (layout p).costOf) }, log } :
      Run ℚ).IsPursuing (layout p) 2 := by
  have hpursues : ({ run.tableau with
      objective := run.tableau.pricedRow (run.tableau.columns.map (layout p).costOf) } :
        Tableau ℚ).Pursues (layout p).phaseTwoAim := by
    refine .of_price hrun.unit hrun.feasible (List.length_map _) hrun.columns_eq
      hrun.solvedBy_iff fun y hy => ?_
    rw [columns_phaseTwoAim] at hy
    rw [hrun.columns_eq, columns_phaseTwoAim]
    exact dot_map_costOf h hy
  exact ⟨hpursues, hrun.traced⟩

theorem isCleared_of_not_hasArtificials (h : p.objection = none)
    (hnone : ¬ (layout p).HasArtificials) (hstart : run.tableau = (layout p).tableau)
    (htraced : (layout p).IsTracedBy run.steps.toList) : run.IsCleared (layout p) := by
  have hpart : artificialPart (normalized p) = [] := by
    refine List.eq_nil_iff_forall_not_mem.mpr fun c hc => hnone ⟨c, ?_, ?_⟩
    · rw [columns_layout_eq]
      exact List.mem_append_right _ hc
    · exact isArtificial_of_mem_artificialPart hc
  have hextend : ∀ y : List ℚ, (layout p).extend y = y := by
    intro y
    rw [extend, length_artificialColumns, hpart]
    exact List.append_nil y
  constructor
  case columns_eq =>
    rw [hstart, columns_phaseTwoAim]
    show (layout p).columns = _
    rw [columns_layout_eq, hpart, List.append_nil]
  case unit =>
    rw [hstart]
    exact hasUnitBasis_tableau h
  case feasible =>
    rw [hstart]
    exact isFeasible_tableau p
  case solvedBy_iff =>
    intro y _
    show _ ↔ (layout p).SolvedBy ((layout p).extend y)
    rw [hstart, hextend]
    exact Iff.rfl
  case traced => exact htraced

/-! ## Both phases -/

/-- What a part of the exact solve keeps of its run. -/
def Run.Heeds (run : Run ℚ) (f : StandardForm ℚ) : Part → Prop
  | .pivoting phase => run.IsPursuing f phase
  | .settled phase => run.HasPursued f phase
  | .clearing _ => run.IsClearing f
  | .cleared => run.IsCleared f

/-- On the course of an exact solve the aims of the phases are kept in view. -/
theorem Course.heeds {m : Option Nat} {part : Part} (hrun : Course ⟨0, 0, m⟩ (layout p) part run)
    (h : p.objection = none) : run.Heeds (layout p) part := by
  induction hrun with
  | start _ => exact isPursuing_start h _
  | direct hnone => exact isCleared_of_not_hasArtificials h hnone rfl isTracedBy_nil
  | pivot _ hchoose hr _ ih => exact Run.IsPursuing.afterPivot ih hchoose hr
  | settle _ hchoose ih => exact Run.IsPursuing.settled ih hchoose
  | clear _ hresidual ih => exact Run.HasPursued.isClearing ih hresidual
  | keep _ _ _ ih => exact ih
  | swap _ hr hart hj _ ih => exact Run.IsClearing.afterPivot ih hr hart hj _
  | drop _ hr hart hnone ih => exact Run.IsClearing.drop ih hr hart hnone _
  | restrict _ hreal ih => exact Run.IsClearing.restrict ih hreal
  | reprice _ ih => exact Run.IsCleared.isPursuing ih h _

/-- Where an exact solve stops, the error is certified. -/
theorem Stops.hasStopped {m : Option Nat} {e : SolveError ℚ}
    (hstops : Stops ⟨0, 0, m⟩ (layout p) run e) (h : p.objection = none) :
    Run.HasStopped (layout p) run e := by
  cases hstops with
  | infeasible hrun hresidual =>
      have hpursued : Run.HasPursued _ (layout p) 1 := hrun.heeds h
      exact ⟨⟨hresidual, isLeast_artificialSum hpursued.pursues hpursued.optimal⟩,
        hpursued.traced⟩
  | unbounded hrun hchoose =>
      have hpursuing : Run.IsPursuing _ (layout p) _ := hrun.heeds h
      have hunb := hpursuing.pursues.exists_value_gt hchoose
      refine ⟨?_, ?_⟩
      · rcases hrun.phase_cases with hphase | hphase <;> cases hphase
        · -- the artificial sum is not below zero, so its negation is not unbounded
          obtain ⟨y, hy, hpos⟩ := hunb 0
          exact absurd hpos (not_lt.mpr (phaseOneAim_value_nonpos hy))
        · exact hunb
      · rw [Run.steps_record]
        exact hpursuing.traced_concat none
  | exhausted hrun _ _ =>
      have hpursuing : Run.IsPursuing _ (layout p) _ := hrun.heeds h
      exact ⟨trivial, hpursuing.traced⟩
  | exhaustedClearing hrun _ _ _ _ =>
      have hclearing : Run.IsClearing _ (layout p) := hrun.heeds h
      exact ⟨trivial, hclearing.traced⟩

end PhaseTwo

end TwoPhase
