/-
# `Outcome` — the parts of a report agree

A report holds one outcome, and its status, solution, value, wording and
error are views of it.  They agree on every way out of a solve: each of
them tells an optimum from an error by itself, and an error has the status
and the wording that belong to it.  Beyond that a program which is refused
is told from one that is solved: only a refusal is reported as such, with
nothing taken and nothing left to show, since a tableau has its objective
row even where all its constraint rows were dropped.
-/
import Mathlib
import TwoPhase.Proofs.Course
import TwoPhase.Report.Written

namespace TwoPhase

namespace Report

section Views

variable {π α : Type} (r : Report π α)

/-- Each part of a report by itself tells whether an optimum was found. -/
theorem optimal_tfae [Numeral α] :
    List.TFAE [r.status = .optimal, r.solution?.isSome, r.optimalValue?.isSome,
      r.message? = none, r.error? = none, r.toExcept = .ok r] := by
  obtain ⟨outcome, steps, final, pivots⟩ := r
  cases outcome with
  | optimal solution value =>
      refine List.tfae_of_forall True _ ?_
      simp [status, solution?, optimalValue?, message?, error?, toExcept]
  | stopped e =>
      have hstatus : e.status ≠ .optimal := by cases e <;> exact nofun
      refine List.tfae_of_forall False _ ?_
      simp [status, solution?, optimalValue?, message?, error?, toExcept, hstatus]

theorem toExcept_eq_error_iff {e : SolveError α} : r.toExcept = .error e ↔ r.error? = some e := by
  rw [toExcept]
  cases r.error? with
  | none => simp
  | some e' => simp

theorem status_and_message_of_error [Numeral α] {e : SolveError α} (h : r.error? = some e) :
    r.status = e.status ∧ r.message? = some e.message := by
  obtain ⟨outcome, steps, final, pivots⟩ := r
  cases outcome with
  | optimal solution value => exact nomatch h
  | stopped e' =>
      cases h
      exact ⟨rfl, rfl⟩

end Views

/-- The numbers of the final tableau, none where there is no such tableau. -/
def finalGrid {α : Type} (r : Report (Tableau α) α) : Grid α := (r.final.map (·.grid)).getD []

end Report

theorem Tableau.flatten_grid_ne_nil {α : Type} (t : Tableau α) : t.grid.flatten ≠ [] := by
  intro h
  have hobjective : t.objective.entries ∈ t.grid :=
    List.mem_map_of_mem (List.mem_append_right _ List.mem_cons_self)
  have hnil := List.flatten_eq_nil_iff.mp h _ hobjective
  exact List.cons_ne_nil _ _ (List.append_eq_nil_iff.mp hnil).2

/-! ## Members of a written report -/

section Written

variable {r : Report (Grid Float) Float}

theorem member_status : r.document.member? "status" = some (.text r.status.name) := rfl

theorem Status.name_injective : Function.Injective Status.name := by
  intro s s' h
  cases s <;> cases s' <;> first | rfl | exact absurd h (by decide)

theorem member_status_eq_optimal_iff :
    r.document.member? "status" = some (.text "optimal") ↔ r.status = .optimal := by
  rw [member_status, Option.some.injEq, Json.Value.text.injEq]
  exact Status.name_injective.eq_iff (b := .optimal)

/-- The members that depend on how the solve ended are there exactly where the report has what
they tell. -/
theorem members_isSome :
    (r.document.member? "solutionValues").isSome = r.solution?.isSome ∧
      (r.document.member? "optimalValue").isSome = r.optimalValue?.isSome ∧
      (r.document.member? "message").isSome = r.message?.isSome := by
  simp only [Report.document, Json.Value.member?]
  refine ⟨?_, ?_, ?_⟩ <;> cases r.solution? <;> cases r.optimalValue? <;> cases r.message? <;> rfl

end Written

/-! ## Refusals -/

section Refusal

variable {α : Type} [Scalar α] {p : Program α} {settings : Settings α}
  {r : Report (Tableau α) α}

theorem Stops.ne_invalid {f : StandardForm α} {run : Run α} {o : Objection} :
    ¬ Stops settings f run (.invalid o) := nofun

theorem refused_of_check {o : Objection} (h : p.check = .error o)
    (hr : solve settings p = .ok r) :
    r.error? = some (.invalid o) ∧ r.steps = [] ∧ r.pivots = 0 ∧ r.finalGrid = [] := by
  have ho : p.objection = some o := by
    rw [Program.check] at h
    cases hobjection : p.objection with
    | none => exact nomatch hobjection ▸ h
    | some o' =>
        rw [hobjection] at h
        cases h
        rfl
  cases hr.symm.trans (solve_of_objection ho)
  exact ⟨rfl, rfl, rfl, rfl⟩

theorem not_refused_of_check (h : p.check = .ok ()) (hr : solve settings p = .ok r) :
    (∀ o, r.error? ≠ some (.invalid o)) ∧ r.finalGrid.flatten ≠ [] := by
  have ho : p.objection = none := by
    rw [Program.check] at h
    cases hobjection : p.objection with
    | none => rfl
    | some o => exact nomatch hobjection ▸ h
  rcases report_cases ho hr with ⟨run, -, rfl⟩ | ⟨run, e, hstops, rfl⟩
  · exact ⟨fun o => nofun, run.tableau.flatten_grid_ne_nil⟩
  · refine ⟨fun o he => ?_, run.tableau.flatten_grid_ne_nil⟩
    cases he
    exact hstops.ne_invalid

/-- A program is refused exactly where the report says so, and exactly where no final tableau
is handed back. -/
theorem refused_tfae (hr : solve settings p = .ok r) :
    List.TFAE [∃ o, p.check = .error o, ∃ o, r.error? = some (.invalid o),
      r.finalGrid.flatten = []] := by
  cases h : p.check with
  | error o =>
      obtain ⟨herror, -, -, hgrid⟩ := refused_of_check h hr
      exact List.tfae_of_forall True _ (by simp [herror, hgrid])
  | ok u =>
      obtain ⟨herror, hgrid⟩ := not_refused_of_check h hr
      exact List.tfae_of_forall False _ (by simp [herror, hgrid])

end Refusal

/-- The parts of a report agree on every way out of a solve.  An optimum is reported by the
status, by a solution, by a value, by no wording, by no error and by the report itself where
only an optimum will do; otherwise that gives the error, and the status and the wording are
those of the error.  A program is refused exactly where the error says so and where there is no
final tableau; the objection is then the one found, and nothing was done.  The written report
has a solution and a value exactly where it says `optimal`, and a wording exactly where it does
not. -/
theorem report_agrees (settings : Settings Float) (p : Program Float) :
    ∃ r, solve settings p = .ok r ∧
      List.TFAE [r.status = .optimal, r.solution?.isSome, r.optimalValue?.isSome,
        r.message? = none, r.error? = none, solveToOptimum settings p = .ok (.ok r)] ∧
      (r.status ≠ .optimal → ∃ e, r.error? = some e ∧
        solveToOptimum settings p = .ok (.error e) ∧ r.status = e.status ∧
        r.message? = some e.message) ∧
      List.TFAE [∃ o, p.check = .error o, ∃ o, r.error? = some (.invalid o),
        r.finalGrid.flatten = []] ∧
      (∀ o, p.check = .error o →
        r.error? = some (.invalid o) ∧ r.steps = [] ∧ r.pivots = 0 ∧ r.finalGrid = []) ∧
      let doc := (r.map (·.grid)).document
      let saysOptimal := doc.member? "status" = some (.text "optimal")
      ((doc.member? "solutionValues").isSome ↔ saysOptimal) ∧
        ((doc.member? "optimalValue").isSome ↔ saysOptimal) ∧
        ((doc.member? "message").isSome ↔ ¬ saysOptimal) := by
  obtain ⟨r, hr⟩ := exists_report settings p
  have hanswer : solveToOptimum settings p = .ok r.toExcept := by
    rw [solveToOptimum, hr]
    rfl
  refine ⟨r, hr, ?_, fun hstatus => ?_, refused_tfae hr, fun o ho => refused_of_check ho hr, ?_⟩
  · simpa only [hanswer, Except.ok.injEq] using r.optimal_tfae
  · cases he : r.error? with
    | none => exact absurd ((r.optimal_tfae.out 0 4).mpr he) hstatus
    | some e =>
        have htext := r.status_and_message_of_error he
        exact ⟨e, rfl, hanswer.trans (congrArg _ (r.toExcept_eq_error_iff.mpr he)), htext⟩
  · -- the written report shows numbers only, and its outcome is that of the report
    have htfae := (r.map (·.grid)).optimal_tfae
    obtain ⟨hsolution, hvalue, hmessage⟩ := members_isSome (r := r.map (·.grid))
    simp only [hsolution, hvalue, hmessage, member_status_eq_optimal_iff]
    refine ⟨htfae.out 1 0, htfae.out 2 0, ?_⟩
    rw [Option.isSome_iff_ne_none]
    exact not_congr (htfae.out 3 0)

end TwoPhase
