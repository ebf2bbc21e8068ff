/-
# `Replay` — the steps of a report replay the solve

The steps of a report are all there is to see of a solve, and they are
enough to follow it: from one step to the next of the same phase the
tableau changes by the pivot that was recorded and by nothing else, save
that rows are dropped once the pivot loop of phase 1 has ended.  Each step
of a loop holds the cell that the rules name on its own tableau, each step
after the loop of phase 1 is a swap, and the last step of a solve that has
an answer shows the final tableau.

None of it is arithmetic.  Along the course of a solve two things are kept:
what the step recorded last leads to, and whether the loop of phase 1 has
ended among the steps.
-/
import Mathlib
import TwoPhase.Report.Written
import TwoPhase.Tableau.Walk
import TwoPhase.Proofs.Course

namespace TwoPhase

variable {α : Type}

/-- The second tableau is the first with some of its constraint rows dropped. -/
structure Tableau.ThinsTo (t u : Tableau α) : Prop where
  columns_eq : u.columns = t.columns
  objective_eq : u.objective = t.objective
  sublist : u.rows.Sublist t.rows

theorem Tableau.ThinsTo.refl (t : Tableau α) : t.ThinsTo t := ⟨rfl, rfl, List.Sublist.refl _⟩

theorem Tableau.ThinsTo.eraseIdx {t u : Tableau α} (h : t.ThinsTo u) (i : Nat) :
    t.ThinsTo { u with rows := u.rows.eraseIdx i } :=
  ⟨h.columns_eq, h.objective_eq, (List.eraseIdx_sublist _ _).trans h.sublist⟩

/-- The pivot loop of phase 1 has ended among the steps. -/
def LoopEnded (steps : List (Step (Tableau α))) : Prop :=
  ∃ q ∈ steps, q.phase = 1 ∧ q.pivot = none

theorem loopEnded_concat {steps : List (Step (Tableau α))} {s : Step (Tableau α)} :
    LoopEnded (steps ++ [s]) ↔ LoopEnded steps ∨ (s.phase = 1 ∧ s.pivot = none) := by
  simp only [LoopEnded, List.mem_append, List.mem_singleton, or_and_right, exists_or,
    exists_eq_left]

theorem Throughout.pairwise {σ : Type} {R : σ → σ → Prop} {history : List σ}
    (h : Throughout (fun before s => ∀ q ∈ before, R q s) history) : history.Pairwise R := by
  induction history using List.reverseRecOn with
  | nil => exact .nil
  | append_singleton history s ih =>
      have hprior : history.Pairwise R := by
        refine ih fun before q after hsplit => h before q (after ++ [s]) ?_
        rw [hsplit, List.append_assoc, List.cons_append]
      refine List.pairwise_append.mpr ⟨hprior, List.pairwise_singleton _ _, fun q hq u hu => ?_⟩
      rw [List.mem_singleton.mp hu]
      exact h history s [] rfl q hq

namespace Part

def IsFirst : Part → Prop
  | .pivoting n => n = 1
  | .settled n => n = 1
  | .clearing _ => True
  | .cleared => False

/-- What the current tableau is, given the one that the step recorded last leads to. -/
def Follows : Part → Tableau α → Tableau α → Prop
  | .pivoting _, t, u => u = t
  | .settled _, t, u => u = t
  | .clearing _, t, u => t.ThinsTo u
  | .cleared, _, _ => True

end Part

variable [Scalar α]

/-- The tableau that a step leads to: the pivot carried out, if there is one. -/
def Step.result (tol : α) (s : Step (Tableau α)) : Except Fault (Tableau α) :=
  match s.pivot with
  | some cell => s.picture.pivot cell tol
  | none => .ok s.picture

/-- The steps replay a solve. -/
structure IsReplay (tol : α) (steps : List (Step (Tableau α))) : Prop where
  /-- There are two phases, and the first comes first. -/
  phase_cases : ∀ s ∈ steps, s.phase = 1 ∨ s.phase = 2
  sorted : steps.Pairwise fun q s => q.phase ≤ s.phase
  /-- A step of a pivot loop holds what the rules of entering and leaving say. -/
  decided : Throughout (fun before s => ¬ (s.phase = 1 ∧ LoopEnded before) → s.IsDecided tol) steps
  /-- The other steps of phase 1 are swaps, and have a pivot. -/
  swaps : Throughout (fun before s => s.phase = 1 ∧ LoopEnded before → s.IsSwap tol) steps
  /-- A step shows what the one before it leads to; after the loop of phase 1 rows may be
  missing. -/
  follows : Throughout (fun before s => ∀ q, before.getLast? = some q → q.phase = s.phase →
    ∃ t, q.result tol = .ok t ∧
      (s.picture = t ∨ s.phase = 1 ∧ LoopEnded before ∧ t.ThinsTo s.picture)) steps

theorem isReplay_nil (tol : α) : IsReplay tol ([] : List (Step (Tableau α))) :=
  ⟨fun _ hs => (nomatch hs), .nil, throughout_nil, throughout_nil, throughout_nil⟩

/-- Each of the documents begins with the number of its place as a step. -/
def IsNumbered (docs : List Json.Value) : Prop :=
  ∀ (k : Nat) (doc : Json.Value), docs[k]? = some doc →
    ∃ members, doc = .object (("step", .natural k) :: members)

/-! ## What the course keeps -/

namespace Course

variable {settings : Settings α} {f : StandardForm α} {part : Part} {run : Run α}

theorem phase_le (h : Course settings f part run) :
    ∀ q ∈ run.steps.toList, q.phase ≤ part.phase := by
  induction h with
  | start _ => exact fun q hq => (nomatch hq)
  | direct _ => exact fun q hq => (nomatch hq)
  | pivot _ _ _ _ ih =>
      rw [Run.steps_afterPivot]
      exact List.forall_mem_append.mpr ⟨ih, List.forall_mem_singleton.mpr le_rfl⟩
  | settle _ _ ih =>
      simp only [Run.steps_record]
      exact List.forall_mem_append.mpr ⟨ih, List.forall_mem_singleton.mpr le_rfl⟩
  | clear _ _ ih => exact ih
  | keep _ _ _ ih => exact ih
  | swap _ _ _ _ _ ih =>
      rw [Run.steps_afterPivot]
      exact List.forall_mem_append.mpr ⟨ih, List.forall_mem_singleton.mpr le_rfl⟩
  | drop _ _ _ _ ih => exact ih
  | restrict _ _ ih => exact ih
  | reprice _ ih => exact fun q hq => (ih q hq).trans (Nat.le_succ 1)

theorem phase_ne_two (h : Course settings f .cleared run) :
    ∀ q ∈ run.steps.toList, q.phase ≠ 2 := by
  intro q hq htwo
  have hle : q.phase ≤ 1 := h.phase_le q hq
  rw [htwo] at hle
  exact absurd hle (by decide)

theorem hasArtificials (h : Course settings f part run) (hfirst : part.IsFirst) :
    f.HasArtificials := by
  induction h with
  | start hart => exact hart
  | direct _ => exact hfirst.elim
  | pivot _ _ _ _ ih => exact ih hfirst
  | settle _ _ ih => exact ih hfirst
  | clear _ _ ih => exact ih rfl
  | keep _ _ _ ih => exact ih trivial
  | swap _ _ _ _ _ ih => exact ih trivial
  | drop _ _ _ _ ih => exact ih trivial
  | restrict _ _ _ => exact hfirst.elim
  | reprice _ _ => exact absurd hfirst (show ¬ (2 : Nat) = 1 by decide)

/-- As long as the artificial columns are there, the loop of phase 1 has ended among the
steps exactly where the run is no longer in it. -/
theorem loopEnded_iff (h : Course settings f part run) (hfirst : part.IsFirst) :
    LoopEnded run.steps.toList ↔ part ≠ .pivoting 1 := by
  induction h with
  | start _ => simp [LoopEnded]
  | direct _ => exact hfirst.elim
  | pivot _ _ _ _ ih =>
      rw [Run.steps_afterPivot, loopEnded_concat, ih hfirst]
      simp
  | settle _ _ ih =>
      simp only [Run.steps_record]
      rw [loopEnded_concat]
      exact ⟨fun _ => Part.noConfusion, fun _ => .inr ⟨hfirst, rfl⟩⟩
  | clear _ _ ih => exact (ih rfl).trans (by simp)
  | keep _ _ _ ih => exact (ih trivial).trans (by simp)
  | swap _ _ _ _ _ ih =>
      rw [Run.steps_afterPivot, loopEnded_concat, ih trivial]
      simp
  | drop _ _ _ _ ih => exact ih trivial
  | restrict _ _ _ => exact hfirst.elim
  | reprice _ _ => exact absurd hfirst (show ¬ (2 : Nat) = 1 by decide)

theorem not_loopEnded_of_pivoting (h : Course settings f (.pivoting 1) run) :
    ¬ LoopEnded run.steps.toList :=
  fun hended => (h.loopEnded_iff rfl).mp hended rfl

theorem loopEnded_of_clearing {i : Nat} (h : Course settings f (.clearing i) run) :
    LoopEnded run.steps.toList :=
  (h.loopEnded_iff trivial).mpr Part.noConfusion

/-- The step recorded last leads to the current tableau, as far as it is one of the same
phase. -/
theorem follows (h : Course settings f part run) (hf : f.tableau.IsShaped) :
    ∀ q, run.steps.toList.getLast? = some q → q.phase = part.phase →
      ∃ t, q.result settings.tol = .ok t ∧ part.Follows t run.tableau := by
  induction h with
  | start _ => exact fun q hq => (nomatch hq)
  | direct _ => exact fun q hq => (nomatch hq)
  | pivot h hchoose hr _ _ =>
      intro q hq _
      have hshaped := h.shaped hf
      rw [Run.steps_afterPivot, List.getLast?_concat] at hq
      cases hq
      have hc := (Tableau.cell_of_choose hshaped.rectangular hchoose).1
      exact ⟨_, Tableau.pivot_of_shaped hshaped hr hc, rfl⟩
  | settle _ _ _ =>
      intro q hq _
      simp only [Run.steps_record, List.getLast?_concat] at hq
      cases hq
      exact ⟨_, rfl, rfl⟩
  | clear _ _ ih =>
      intro q hq hphase
      obtain ⟨t, hresult, hsame⟩ := ih q hq hphase
      cases hsame
      exact ⟨_, hresult, .refl _⟩
  | keep _ _ _ ih => exact ih
  | swap h hr _ hj _ _ =>
      intro q hq _
      rw [Run.steps_afterPivot, List.getLast?_concat] at hq
      cases hq
      have hc := Tableau.largestColumn_lt hj
      exact ⟨_, Tableau.pivot_of_shaped (h.shaped hf) hr hc, .refl _⟩
  | drop _ _ _ _ ih =>
      intro q hq hphase
      -- the row dropped is missing from what the step led to
      obtain ⟨t, hresult, hthin⟩ := ih q hq hphase
      exact ⟨t, hresult, hthin.eraseIdx _⟩
  | restrict _ _ ih =>
      intro q hq hphase
      obtain ⟨t, hresult, -⟩ := ih q hq hphase
      exact ⟨t, hresult, trivial⟩
  | reprice h _ =>
      -- phase 2 begins without a step behind it
      exact fun q hq hphase => absurd hphase (h.phase_ne_two q (List.mem_of_getLast? hq))

theorem getLast?_of_settled {n : Nat} (h : Course settings f (.settled n) run) :
    run.steps.toList.getLast? = some ⟨n, run.tableau, none⟩ := by
  cases h with
  | settle _ _ => simp only [Run.steps_record, List.getLast?_concat]; rfl

end Course

/-! ## A pivot loop walks -/

/-- A walk of at most `limit` pivots has led along the path from the tableau of `start` to that
of `run`, and all of its pivots are recorded and counted. -/
structure Run.HasWalked (tol : α) (start : Run α) (limit : Nat) (path : List Cell)
    (run : Run α) : Prop where
  walk_eq : start.tableau.walk tol limit = .ok (path, run.tableau)
  cells_eq : run.steps.toList.filterMap (·.pivot)
    = start.steps.toList.filterMap (·.pivot) ++ path
  pivots_eq : run.pivots = start.pivots + path.length

namespace Run.HasWalked

variable {tol : α} {start run : Run α} {n : Nat} {path : List Cell}

theorem refl (tol : α) (start : Run α) : start.HasWalked tol 0 [] start :=
  ⟨rfl, (List.append_nil _).symm, rfl⟩

theorem pivot {r : BasicRow α} {cell : Cell} (h : start.HasWalked tol n path run)
    (hchoose : run.tableau.choose tol = .ok (.pivot cell)) (hshaped : run.tableau.IsShaped)
    (hr : run.tableau.rows[cell.row]? = some r) (phase : Nat) (log : Array (Event α)) :
    start.HasWalked tol (n + 1) (path ++ [cell])
      (run.afterPivot tol phase r.toRow cell log) where
  walk_eq := by
    have hc := (Tableau.cell_of_choose hshaped.rectangular hchoose).1
    exact Tableau.walk_add h.walk_eq
      (Tableau.walk_of_pivot hchoose (Tableau.pivot_of_shaped hshaped hr hc) rfl)
  cells_eq := by
    rw [Run.steps_afterPivot, List.filterMap_append, h.cells_eq, List.append_assoc]
    rfl
  pivots_eq := by
    rw [List.length_append, ← Nat.add_assoc, ← h.pivots_eq]
    rfl

theorem record (h : start.HasWalked tol n path run) (hend : run.tableau.IsEnd tol)
    (phase rest : Nat) : start.HasWalked tol (n + rest) path (run.record phase none) where
  walk_eq := by
    rw [← List.append_nil path]
    exact Tableau.walk_add h.walk_eq (Tableau.walk_of_isEnd hend rest)
  cells_eq := by
    rw [Run.steps_record, List.filterMap_append, h.cells_eq]
    exact List.append_nil _
  pivots_eq := h.pivots_eq

end Run.HasWalked

/-- The loop of a phase walks by the rules of choice, to the end or as far as it is allowed. -/
theorem pivotLoop_walks (tol : α) (phase limit : Nat) {start : Run α}
    (h : start.tableau.IsShaped) :
    Reaches (pivotLoop tol phase limit start)
      (fun run => ∃ path, start.HasWalked tol limit path run)
      (fun run _ => ∃ path, start.HasWalked tol limit path run) := by
  refine pivotLoop_reaches (I := fun rest run => ∃ n path, n + rest = limit ∧
    start.HasWalked tol n path run) ?_ ?_ ?_ ?_ limit start
      ⟨0, [], Nat.zero_add _, .refl tol start⟩ h
  · rintro rest run cell r log ⟨n, path, rfl, hwalked⟩ hshaped hchoose hr
    exact ⟨n + 1, path ++ [cell], by omega, hwalked.pivot hchoose hshaped hr phase log⟩
  · rintro rest run event ⟨n, path, rfl, hwalked⟩ - hchoose
    have hrecord := hwalked.record (.inl hchoose) phase rest
    exact ⟨path, hrecord.walk_eq, hrecord.cells_eq, hrecord.pivots_eq⟩
  · rintro rest run j ⟨n, path, rfl, hwalked⟩ - hchoose
    exact ⟨path, hwalked.record (.inr ⟨j, hchoose⟩) phase rest⟩
  · rintro run cell ⟨n, path, rfl, hwalked⟩ - -
    exact ⟨path, hwalked⟩

/-! ## What a report shows -/

section Report

open StandardForm

variable {p : Program α} {settings : Settings α} {r : Report (Tableau α) α}

theorem isReplay_of_solve (h : p.objection = none) (hr : solve settings p = .ok r) :
    IsReplay settings.tol r.steps := by
  have hshaped := isShaped_tableau_layout h
  have htaken := taken_of_solve h hr
  constructor
  case phase_cases =>
    intro s hs
    obtain ⟨before, hs⟩ := htaken.of_mem hs
    obtain ⟨part, run, hrun, hphase, -, -⟩ := hs.exists_course
    rw [← hphase]
    exact hrun.phase_cases
  case sorted =>
    refine Throughout.pairwise fun before s after hsplit q hq => ?_
    obtain ⟨part, run, hrun, hphase, hbefore, -⟩ := (htaken before s after hsplit).exists_course
    rw [← hphase]
    exact hrun.phase_le q (hbefore ▸ hq)
  case decided =>
    intro before s after hsplit hloop
    cases htaken before s after hsplit with
    | pivoting _ _ _ hdecided => exact hdecided
    | clearing hrun hbefore _ hphase _ =>
        exact absurd ⟨hphase, hbefore ▸ hrun.loopEnded_of_clearing⟩ hloop
  case swaps =>
    rintro before s after hsplit ⟨hphase, hended⟩
    cases htaken before s after hsplit with
    | pivoting hrun hbefore _ _ =>
        rw [hphase] at hrun
        exact absurd (hbefore ▸ hended) hrun.not_loopEnded_of_pivoting
    | clearing _ _ _ _ hswap => exact hswap
  case follows =>
    intro before s after hsplit q hq hphase
    cases htaken before s after hsplit with
    | pivoting hrun hbefore hpicture _ =>
        obtain ⟨t, hresult, hsame⟩ := hrun.follows hshaped q (hbefore ▸ hq) hphase
        exact ⟨t, hresult, .inl (hpicture.trans hsame)⟩
    | clearing hrun hbefore hpicture hone _ =>
        obtain ⟨t, hresult, hthin⟩ := hrun.follows hshaped q (hbefore ▸ hq) (hphase.trans hone)
        exact ⟨t, hresult, .inr ⟨hone, hbefore ▸ hrun.loopEnded_of_clearing, hpicture ▸ hthin⟩⟩

theorem hasArtificials_of_phase_one (h : p.objection = none) (hr : solve settings p = .ok r)
    {s : Step (Tableau α)} (hs : s ∈ r.steps) (hphase : s.phase = 1) :
    (layout p).HasArtificials := by
  obtain ⟨before, hs⟩ := (taken_of_solve h hr).of_mem hs
  cases hs with
  | pivoting hrun _ _ _ => exact hrun.hasArtificials hphase
  | clearing hrun _ _ _ _ => exact hrun.hasArtificials trivial

/-- A solve that has an answer ends on a step without a pivot, which shows the final
tableau. -/
theorem final_eq_last (h : p.objection = none) (hr : solve settings p = .ok r)
    (hstatus : r.status ≠ .error) :
    ∃ s, r.steps.getLast? = some s ∧ s.pivot = none ∧ r.final = some s.picture := by
  rcases report_cases h hr with ⟨run, hrun, rfl⟩ | ⟨run, e, hstops, rfl⟩
  · exact ⟨_, hrun.getLast?_of_settled, rfl, rfl⟩
  · cases hstops with
    | infeasible hrun _ => exact ⟨_, hrun.getLast?_of_settled, rfl, rfl⟩
    | @unbounded phase _ run _ _ =>
        refine ⟨⟨phase, run.tableau, none⟩, ?_, rfl, rfl⟩
        show (run.record phase none).steps.toList.getLast? = _
        rw [Run.steps_record, List.getLast?_concat]
    | exhausted _ _ _ => exact absurd rfl hstatus
    | exhaustedClearing _ _ _ _ _ => exact absurd rfl hstatus

theorem isNumbered_stepsDocument (steps : List (Step (Grid Float))) :
    ∃ docs, stepsDocument steps = .array docs ∧ docs.length = steps.length ∧
      IsNumbered docs := by
  refine ⟨_, rfl, List.length_mapIdx, fun k doc hk => ?_⟩
  rw [List.getElem?_mapIdx, Option.map_eq_some_iff] at hk
  obtain ⟨s, -, rfl⟩ := hk
  exact ⟨_, rfl⟩

/-- The steps of a solve are its history, whatever the arithmetic returns.  They replay it;
phase 1 occurs only where the standard form has artificial columns; an answer comes with the
tableau of the last step, on which no pivot was left to do; and in writing the steps are
numbered from zero in their order. -/
theorem steps_replay (settings : Settings α) (p : Program α) :
    ∃ r, solve settings p = .ok r ∧ IsReplay settings.tol r.steps ∧
      ((∃ s ∈ r.steps, s.phase = 1) → ∃ f, ofProgram p = .ok f ∧ f.HasArtificials) ∧
      (r.status ≠ .error →
        ∃ s, r.steps.getLast? = some s ∧ s.pivot = none ∧ r.final = some s.picture) ∧
      ∀ draw : Tableau α → Grid Float, ∃ docs, stepsDocument (r.map draw).steps = .array docs ∧
        docs.length = r.steps.length ∧ IsNumbered docs := by
  obtain ⟨r, hr⟩ := exists_report settings p
  have hnumbered : ∀ draw : Tableau α → Grid Float, ∃ docs,
      stepsDocument (r.map draw).steps = .array docs ∧ docs.length = r.steps.length ∧
        IsNumbered docs := by
    intro draw
    obtain ⟨docs, hdocs, hlength, hnumber⟩ := isNumbered_stepsDocument (r.map draw).steps
    exact ⟨docs, hdocs, hlength.trans (List.length_map _), hnumber⟩
  cases h : p.objection with
  | some o =>
      cases hr.symm.trans (solve_of_objection h)
      refine ⟨_, hr, isReplay_nil _, ?_, fun hstatus => absurd rfl hstatus, hnumbered⟩
      rintro ⟨s, hs, -⟩
      exact nomatch hs
  | none =>
      refine ⟨r, hr, isReplay_of_solve h hr, ?_, final_eq_last h hr, hnumbered⟩
      rintro ⟨s, hs, hphase⟩
      exact ⟨_, ofProgram_eq_ok h, hasArtificials_of_phase_one h hr hs hphase⟩

-- a pivot of phase 1, the end of its loop, a swap, and phase 2 with nothing left to do
example : (solve ⟨0, 0, none⟩ ⟨2, [1, 1], [⟨[1, 1], .equal, 4⟩, ⟨[1, -1], .equal, 4⟩], .maximize⟩ :
    Except Fault (Report _ ℚ)).toOption.map (fun r => r.steps.map fun s => (s.phase, s.pivot))
      = some [(1, some ⟨0, 0⟩), (1, none), (1, some ⟨1, 1⟩), (2, none)] := by decide +kernel

end Report

end TwoPhase
