/-
# `Places` — a column keeps its place

A column is named by its place, in the steps of a report as in its error,
and the tableaux of the two phases do not have the same columns.  But the
artificial columns stand behind all others, so taking them away moves
none: what phase 2 has left is the beginning of the columns of the
standard form, its costs are the beginning of the costs there, and one
place means one column through the whole solve.

No arithmetic enters.  What a part of the solve has for columns is fixed
by the part, whichever rows are dropped on the way.
-/
import Mathlib
import TwoPhase.Proofs.Replay
import TwoPhase.Proofs.Solution

namespace TwoPhase

variable {α : Type}

theorem keepMarked_map {β : Type} (mark : β → Bool) (xs : List β) :
    keepMarked (xs.map mark) xs = xs.filter mark := by
  induction xs with
  | nil => rfl
  | cons x xs ih => rw [List.map_cons, keepMarked_cons, ih, List.filter_cons]

theorem Tableau.IsRectangular.length_of_mem_grid {t : Tableau α} (h : t.IsRectangular)
    {row : List α} (hrow : row ∈ t.grid) : row.length = t.columns.length + 1 := by
  obtain ⟨r, hr, rfl⟩ := List.mem_map.mp hrow
  rw [Row.entries, List.length_append, h.length_of_mem_allRows hr]
  rfl

namespace StandardForm

/-- The columns before the first artificial one. -/
def realPrefix (f : StandardForm α) : List Column := f.columns.takeWhile fun c => ¬ c.IsArtificial

/-- No column but artificial ones stands behind an artificial one, and a column finds the
cost at its own place. -/
structure IsOrdered [Scalar α] (f : StandardForm α) : Prop where
  realPrefix_eq : f.realPrefix = f.columns.filter fun c => ¬ c.IsArtificial
  map_costOf : f.realPrefix.map f.costOf = f.costs.take f.realPrefix.length

variable {f : StandardForm α}

theorem realPrefix_prefix (f : StandardForm α) : f.realPrefix <+: f.columns :=
  List.takeWhile_prefix _

theorem not_isArtificial_of_mem_realPrefix {c : Column} (h : c ∈ f.realPrefix) :
    ¬ c.IsArtificial := by
  simpa using List.mem_takeWhile_imp h

theorem realPrefix_of_not_hasArtificials (h : ¬ f.HasArtificials) : f.realPrefix = f.columns :=
  List.takeWhile_eq_self_iff.mpr fun c hc => decide_eq_true fun hart => h ⟨c, hc, hart⟩

theorem realPrefix_layout [Scalar α] (p : Program α) : (layout p).realPrefix = realColumns p := by
  have hreal : ∀ c ∈ realColumns p, decide (¬ c.IsArtificial) = true := fun c hc =>
    decide_eq_true (not_isArtificial_of_mem_realColumns hc)
  rw [realPrefix, columns_layout_eq, List.takeWhile_append_of_pos hreal]
  refine (congrArg _ (List.takeWhile_eq_nil_iff.mpr fun hl => ?_)).trans (List.append_nil _)
  simpa using isArtificial_of_mem_artificialPart (List.getElem_mem hl)

theorem isOrdered_layout [Scalar α] {p : Program α} (h : p.objection = none) :
    (layout p).IsOrdered := by
  refine ⟨?_, ?_⟩
  · rw [realPrefix_layout, filter_columns_layout]
  · rw [realPrefix_layout, map_costOf_realColumns h]

end StandardForm

/-! ## The columns of a part -/

/-- The columns that a part of a solve works on. -/
def Part.columns (f : StandardForm α) : Part → List Column
  | .pivoting n => if n = 1 then f.columns else f.realPrefix
  | .settled n => if n = 1 then f.columns else f.realPrefix
  | .clearing _ => f.columns
  | .cleared => f.realPrefix

theorem Part.columns_prefix (f : StandardForm α) (part : Part) : part.columns f <+: f.columns := by
  cases part with
  | pivoting n =>
      rw [Part.columns]
      split
      · exact List.prefix_rfl
      · exact f.realPrefix_prefix
  | settled n =>
      rw [Part.columns]
      split
      · exact List.prefix_rfl
      · exact f.realPrefix_prefix
  | clearing i => exact List.prefix_rfl
  | cleared => exact f.realPrefix_prefix

variable [Scalar α]

section Course

variable {settings : Settings α} {f : StandardForm α} {part : Part} {run : Run α}

theorem Course.columns_eq (h : Course settings f part run) (hf : f.IsOrdered) :
    run.tableau.columns = part.columns f := by
  induction h with
  | start _ => rfl
  | direct hnone => exact (StandardForm.realPrefix_of_not_hasArtificials hnone).symm
  | pivot _ _ _ _ ih => exact ih
  | settle _ _ ih => exact ih
  | clear _ _ ih => exact ih
  | keep _ _ _ ih => exact ih
  | swap _ _ _ _ _ ih => exact ih
  | drop _ _ _ _ ih => exact ih
  | @restrict run _ _ ih =>
      have ih : run.tableau.columns = f.columns := ih
      show keepMarked (run.tableau.columns.map _) run.tableau.columns = f.realPrefix
      rw [keepMarked_map, ih, hf.realPrefix_eq]
  | reprice _ ih => exact ih

theorem Course.getElem?_columns (h : Course settings f part run) (hf : f.IsOrdered) {j : Nat}
    (hj : j < run.tableau.columns.length) :
    ∃ c, run.tableau.columns[j]? = some c ∧ f.columns[j]? = some c := by
  have hprefix : run.tableau.columns <+: f.columns := h.columns_eq hf ▸ part.columns_prefix f
  exact ⟨_, List.getElem?_eq_getElem hj, List.prefix_iff_getElem?.mp hprefix j hj⟩

/-- The tableau has the columns of phase 2.  Before the first step of that phase, its
objective row is the one that the costs of these columns give. -/
structure Tableau.IsSecond (t : Tableau α) (f : StandardForm α) (before : List (Step (Tableau α))) :
    Prop where
  columns_eq : t.columns = f.realPrefix
  priced : (∀ q ∈ before, q.phase = 1) →
    t.objective = t.pricedRow (f.costs.take f.realPrefix.length)

theorem Tableau.isSecond_of_mem {t : Tableau α} {before : List (Step (Tableau α))}
    (hcolumns : t.columns = f.realPrefix) {q : Step (Tableau α)} (hq : q ∈ before)
    (hphase : q.phase = 2) : t.IsSecond f before :=
  ⟨hcolumns, fun hfirst => nomatch hphase.symm.trans (hfirst q hq)⟩

theorem Course.isSecond (h : Course settings f (.pivoting 2) run) (hf : f.IsOrdered) :
    run.tableau.IsSecond f run.steps.toList := by
  refine ⟨h.columns_eq hf, ?_⟩
  refine h.of_pivoting (P := fun run => (∀ q ∈ run.steps.toList, q.phase = 1) →
    run.tableau.objective = run.tableau.pricedRow (f.costs.take f.realPrefix.length)) ?_ ?_ ?_
  · exact fun hphase => nomatch hphase
  · intro _ run log hrun _
    show run.tableau.pricedRow (run.tableau.columns.map f.costOf) = _
    rw [hrun.columns_eq hf, Part.columns, hf.map_costOf]
    rfl
  · intro run cell r log _ _ _ _ hfirst
    rw [Run.steps_afterPivot] at hfirst
    exact nomatch hfirst _ (List.mem_append_right _ List.mem_cons_self)

theorem Course.isSecond_of_settled (h : Course settings f (.settled 2) run) (hf : f.IsOrdered) :
    run.tableau.IsSecond f run.steps.toList := by
  have hlast := List.mem_of_getLast? h.getLast?_of_settled
  exact Tableau.isSecond_of_mem (h.columns_eq hf) hlast rfl

/-- Where a solve stops in phase 1 all columns are there still. -/
theorem Stops.columns_cases {e : SolveError α} (h : Stops settings f run e) (hf : f.IsOrdered) :
    (run.tableau.columns = f.columns ∧ ∀ q ∈ run.steps.toList, q.phase ≤ 1) ∨
      run.tableau.IsSecond f run.steps.toList := by
  cases h with
  | infeasible h _ => exact .inl ⟨h.columns_eq hf, h.phase_le⟩
  | @unbounded phase _ run h _ =>
      rcases h.phase_cases with hphase | hphase <;> cases hphase
      · refine .inl ⟨h.columns_eq hf, ?_⟩
        rw [Run.steps_record]
        exact List.forall_mem_append.mpr ⟨h.phase_le, List.forall_mem_singleton.mpr le_rfl⟩
      · have hlast : (⟨2, run.tableau, none⟩ : Step (Tableau α)) ∈
            (run.record 2 none).steps.toList := by
          rw [Run.steps_record]
          exact List.mem_append_right _ List.mem_cons_self
        exact .inr (Tableau.isSecond_of_mem (h.columns_eq hf) hlast rfl)
  | exhausted h _ _ =>
      rcases h.phase_cases with hphase | hphase <;> cases hphase
      · exact .inl ⟨h.columns_eq hf, h.phase_le⟩
      · exact .inr (h.isSecond hf)
  | exhaustedClearing h _ _ _ _ => exact .inl ⟨h.columns_eq hf, h.phase_le⟩

end Course

section Steps

variable {settings : Settings α} {f : StandardForm α} {before : List (Step (Tableau α))}
  {s : Step (Tableau α)} {cell : Cell} {tol : α}

theorem Step.IsDecided.column_lt (h : s.IsDecided tol) (ht : s.picture.IsRectangular)
    (hcell : s.pivot = some cell) : cell.column < s.picture.columns.length := by
  rw [Step.IsDecided, hcell] at h
  exact (Tableau.cell_of_choose ht h).1

theorem Step.IsSwap.exists_column (h : s.IsSwap tol) (ht : s.picture.IsRectangular)
    (hcell : s.pivot = some cell) :
    ∃ c, s.picture.columns[cell.column]? = some c ∧ ¬ c.IsArtificial := by
  obtain ⟨cell', row, hcell', hrow, -, hj⟩ := h
  cases hcell.symm.trans hcell'
  rw [Tableau.replacement_of_row ht hrow] at hj
  obtain ⟨-, c, -, hc, hreal, -⟩ := Tableau.largestColumn_some (Except.ok.inj hj)
  exact ⟨c, hc, hreal⟩

theorem Taken.columns_of_phase_one (h : Taken settings f before s) (hf : f.IsOrdered)
    (hphase : s.phase = 1) : s.picture.columns = f.columns := by
  cases h with
  | pivoting hrun _ hpicture _ =>
      rw [hphase] at hrun
      exact hpicture ▸ hrun.columns_eq hf
  | clearing hrun _ hpicture _ _ => exact hpicture ▸ hrun.columns_eq hf

theorem Taken.isSecond (h : Taken settings f before s) (hf : f.IsOrdered) (hphase : s.phase = 2) :
    s.picture.IsSecond f before := by
  cases h with
  | pivoting hrun hbefore hpicture _ =>
      rw [hphase] at hrun
      exact hpicture ▸ hbefore ▸ hrun.isSecond hf
  | clearing _ _ _ hone _ => exact nomatch hone.symm.trans hphase

theorem Taken.exists_column (h : Taken settings f before s) (hf : f.IsOrdered)
    (ht : f.tableau.IsShaped) (hcell : s.pivot = some cell) :
    ∃ c, s.picture.columns[cell.column]? = some c ∧ f.columns[cell.column]? = some c := by
  cases h with
  | pivoting hrun _ hpicture hdecided =>
      rw [hpicture]
      refine hrun.getElem?_columns hf ?_
      exact hpicture ▸ hdecided.column_lt (hpicture ▸ (hrun.shaped ht).rectangular) hcell
  | clearing hrun _ hpicture _ hswap =>
      obtain ⟨c, hc, -⟩ := hswap.exists_column (hpicture ▸ (hrun.shaped ht).rectangular) hcell
      rw [hpicture] at hc ⊢
      exact hrun.getElem?_columns hf (List.getElem?_eq_some_iff.mp hc).1

theorem Taken.exists_real_column (h : Taken settings f before s) (hf : f.IsOrdered)
    (ht : f.tableau.IsShaped) (hlate : s.phase = 2 ∨ s.IsSwap tol) (hcell : s.pivot = some cell) :
    ∃ c, f.columns[cell.column]? = some c ∧ ¬ c.IsArtificial := by
  obtain ⟨c, hc, hc'⟩ := h.exists_column hf ht hcell
  refine ⟨c, hc', ?_⟩
  rcases hlate with htwo | hswap
  · rw [(h.isSecond hf htwo).columns_eq] at hc
    exact StandardForm.not_isArtificial_of_mem_realPrefix (List.mem_of_getElem? hc)
  · obtain ⟨part, run, hrun, -, -, hpicture⟩ := h.exists_course
    obtain ⟨c', hs, hreal⟩ :=
      hswap.exists_column (hpicture ▸ (hrun.shaped ht).rectangular) hcell
    cases hc.symm.trans hs
    exact hreal

theorem Stops.exists_column {run : Run α} {j : Nat} (h : Stops settings f run (.unbounded j))
    (hf : f.IsOrdered) (ht : f.tableau.IsShaped) :
    ∃ c, run.tableau.columns[j]? = some c ∧ f.columns[j]? = some c := by
  cases h with
  | unbounded hrun hchoose =>
      have hrect := (hrun.shaped ht).rectangular
      exact hrun.getElem?_columns hf
        (Tableau.entering_lt hrect (Tableau.entering_of_unbounded hrect hchoose).1)

end Steps

/-! ## Places in a report -/

/-- The tableau is that of a step of the report, or its final one. -/
def Report.Shows (r : Report (Tableau α) α) (t : Tableau α) : Prop :=
  (∃ s ∈ r.steps, s.picture = t) ∨ r.final = some t

/-- One place means one column, in the steps and in the error of a report as in the standard
form. -/
structure Report.KeepsPlaces (r : Report (Tableau α) α) (f : StandardForm α) : Prop where
  /-- A picture has a number for each column and the right-hand side. -/
  width : ∀ t, r.Shows t → ∀ row ∈ t.grid, row.length = t.columns.length + 1
  first : ∀ s ∈ r.steps, s.phase = 1 → s.picture.columns = f.columns
  second : Throughout (fun before s => s.phase = 2 → s.picture.IsSecond f before) r.steps
  /-- Where the solve stopped in phase 1 the final tableau has all columns. -/
  final : ∀ t, r.final = some t →
    (t.columns = f.columns ∧ ∀ s ∈ r.steps, s.phase = 1) ∨ t.IsSecond f r.steps
  optimal : r.status = .optimal → ∀ t, r.final = some t → t.IsSecond f r.steps
  pivot : ∀ s ∈ r.steps, ∀ cell, s.pivot = some cell →
    ∃ c, s.picture.columns[cell.column]? = some c ∧ f.columns[cell.column]? = some c
  /-- Neither a pivot of phase 2 nor a swap enters an artificial column. -/
  entering : Throughout (fun before s => s.phase = 2 ∨ (s.phase = 1 ∧ LoopEnded before) →
    ∀ cell, s.pivot = some cell → ∃ c, f.columns[cell.column]? = some c ∧ ¬ c.IsArtificial) r.steps
  unbounded : ∀ j, r.error? = some (.unbounded j) → ∃ t c, r.final = some t ∧
    t.columns[j]? = some c ∧ f.columns[j]? = some c

section Report

open StandardForm

variable {p : Program α} {settings : Settings α} {r : Report (Tableau α) α}

/-- What a report shows has its columns where the standard form has them. -/
theorem keepsPlaces_of_solve (h : p.objection = none) (hr : solve settings p = .ok r) :
    r.KeepsPlaces (layout p) := by
  have hf := isOrdered_layout h
  have hshaped := isShaped_tableau_layout h
  have htaken := taken_of_solve h hr
  have hreplay := isReplay_of_solve h hr
  have hfirst : (∀ q ∈ r.steps, q.phase ≤ 1) → ∀ q ∈ r.steps, q.phase = 1 := by
    intro hle q hq
    rcases hreplay.phase_cases q hq with hone | htwo
    · exact hone
    · exact absurd (htwo ▸ hle q hq) (by decide)
  constructor
  case width =>
    intro t ht row hrow
    obtain ⟨hsteps, t', hfinal, ht'⟩ := forall_tableau_of_solve h hr fun hrun =>
      (hrun.shaped hshaped).rectangular
    rcases ht with ⟨s, hs, rfl⟩ | ht
    · exact (hsteps s hs).length_of_mem_grid hrow
    · cases ht.symm.trans hfinal
      exact ht'.length_of_mem_grid hrow
  case first =>
    intro s hs hphase
    obtain ⟨before, hs⟩ := htaken.of_mem hs
    exact hs.columns_of_phase_one hf hphase
  case second =>
    intro before s after hsplit hphase
    exact (htaken before s after hsplit).isSecond hf hphase
  case final =>
    intro t ht
    rcases report_cases h hr with ⟨run, hrun, rfl⟩ | ⟨run, e, hstops, rfl⟩
    · cases ht
      exact .inr (hrun.isSecond_of_settled hf)
    · cases ht
      exact (hstops.columns_cases hf).imp_left fun ⟨hcolumns, hle⟩ => ⟨hcolumns, hfirst hle⟩
  case optimal =>
    intro hstatus t ht
    obtain ⟨run, hrun, rfl⟩ := exists_settled_of_optimal h hr hstatus
    cases ht
    exact hrun.isSecond_of_settled hf
  case pivot =>
    intro s hs cell hcell
    obtain ⟨before, hs⟩ := htaken.of_mem hs
    exact hs.exists_column hf hshaped hcell
  case entering =>
    intro before s after hsplit hlate cell hcell
    exact (htaken before s after hsplit).exists_real_column hf hshaped
      (hlate.imp_right (hreplay.swaps before s after hsplit)) hcell
  case unbounded =>
    intro j hj
    obtain ⟨run, hstops, rfl⟩ := exists_stops_of_error h hr hj
    obtain ⟨c, hc, hc'⟩ := hstops.exists_column hf hshaped
    exact ⟨_, c, rfl, hc, hc'⟩

theorem solution_names_of_solve (h : p.objection = none) (hr : solve settings p = .ok r)
    (hstatus : r.status = .optimal) :
    ∃ a, r.solution? = some a ∧
      a.map (fun q => Column.variableName q.1)
        = (List.range p.numVars).map Column.variableName := by
  obtain ⟨run, hrun, rfl⟩ := exists_settled_of_optimal h hr hstatus
  refine ⟨run.tableau.solution, rfl, ?_⟩
  have hcolumns : run.tableau.columns = realColumns p :=
    (hrun.columns_eq (isOrdered_layout h)).trans (realPrefix_layout p)
  rw [Tableau.solution_eq hcolumns, List.map_map]
  · rfl
  · rintro c hc i rfl
    exact decision_notMem_addedColumns (List.mem_append_left _ hc)

/-- Whatever the settings are and whatever the arithmetic returns, a place names one column
through the whole solve of a program.  Phase 1 works on the columns of the standard form,
phase 2 on those before the first artificial one, which are all that are not artificial, and
with the first of the costs; so a step, and an error as well, names the same column on its own
tableau and in the standard form.  An optimum has a value for each of the variables. -/
theorem columns_keep_places (settings : Settings α) (h : p.objection = none) :
    ∃ f r, ofProgram p = .ok f ∧ solve settings p = .ok r ∧ f.IsOrdered ∧ r.KeepsPlaces f ∧
      (r.status = .optimal → ∃ a, r.solution? = some a ∧
        a.map (fun q => Column.variableName q.1)
          = (List.range p.numVars).map Column.variableName) := by
  obtain ⟨r, hr⟩ := exists_report settings p
  exact ⟨layout p, r, ofProgram_eq_ok h, hr, isOrdered_layout h, keepsPlaces_of_solve h hr,
    solution_names_of_solve h hr⟩

/-- A column is swapped, a row is dropped, and phase 2 is short of three columns. -/
theorem columns_keep_places_dropped :
    let p : Program ℚ := ⟨2, [3, 2], [⟨[1, 1], .equal, 4⟩, ⟨[1, -1], .equal, 4⟩,
      ⟨[1, 0], .atMost, 7⟩, ⟨[-2, -2], .equal, -8⟩], .maximize⟩
    ∃ f r a, ofProgram p = .ok f ∧ solve ⟨0, 0, none⟩ p = .ok r ∧ f.IsOrdered ∧ r.KeepsPlaces f ∧
      r.status = .optimal ∧ r.solution? = some a ∧
        a.map (fun q => Column.variableName q.1)
          = (List.range p.numVars).map Column.variableName := by
  intro p
  obtain ⟨f, r, hf, hr, hordered, hplaces, hnames⟩ :=
    columns_keep_places ⟨0, 0, none⟩ (p := p) (by decide +kernel)
  have hend : (solve ⟨0, 0, none⟩ p).toOption.map (·.status) = some .optimal := by decide +kernel
  rw [hr] at hend
  have hstatus : r.status = .optimal := Option.some.inj hend
  obtain ⟨a, ha, hnames⟩ := hnames hstatus
  exact ⟨f, r, a, hf, hr, hordered, hplaces, hstatus, ha, hnames⟩

-- the same program: the places of the pivots, and how many columns there are
example : (solve ⟨0, 0, none⟩ ⟨2, [3, 2], [⟨[1, 1], .equal, 4⟩, ⟨[1, -1], .equal, 4⟩,
    ⟨[1, 0], .atMost, 7⟩, ⟨[-2, -2], .equal, -8⟩], .maximize⟩ :
      Except Fault (Report _ ℚ)).toOption.map
        (fun r => r.steps.map fun s => (s.phase, s.picture.columns.length, s.pivot)) =
    some [(1, 6, some ⟨0, 0⟩), (1, 6, none), (1, 6, some ⟨1, 1⟩), (2, 3, none)] := by
  decide +kernel

end Report

end TwoPhase
