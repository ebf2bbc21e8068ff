/-
# `Readout` — an optimum is the basic solution, variable by variable

One tableau is read in two ways.  The basic solution writes the right-hand
side of each row into the place of its basic column, over what may stand
there.  The report of an optimum takes each decision column and looks for
the first row in which it is basic.  Where two rows had one basic column
the one reading would give the later of them and the other the earlier; if
no two have, the readings agree, in whatever order the columns stand and
whatever stands between them.  Nothing is asked of the numbers.
-/
import Mathlib
import TwoPhase.Proofs.Display
import TwoPhase.Proofs.Solution

namespace TwoPhase

variable {α : Type}

theorem getElem?_eq_some_iff_of_count_eq_one {β : Type} [DecidableEq β] {xs : List β} {x : β}
    (h : xs.count x = 1) {j : Nat} : xs[j]? = some x ↔ j = xs.idxOf x := by
  induction xs generalizing j with
  | nil => simp at h
  | cons y ys ih =>
      by_cases hy : y = x
      · subst hy
        have hrest : y ∉ ys := List.count_eq_zero.mp (by simpa using h)
        rw [List.idxOf_cons_self]
        cases j with
        | zero => simp
        | succ j => simpa using fun hj => hrest (List.mem_of_getElem? hj)
      · rw [List.count_cons_of_ne hy] at h
        rw [List.idxOf_cons_ne _ hy]
        cases j with
        | zero => simp [hy]
        | succ j => simpa using ih h

/-- Under its name a variable is found with its value. -/
theorem Assignment.IsAscending.valueOf?_eq {a : Assignment α} (h : a.IsAscending) {i : Nat} {v : α}
    (hmem : (i, v) ∈ a) : a.valueOf? (Column.variableName i) = some v := by
  have hnames : (a.map fun q => Column.variableName q.1).Nodup :=
    List.pairwise_map.mpr (h.imp fun hlt hname => hlt.ne (variableName_inj hname))
  exact congrArg (Option.map Prod.snd) (find?_key_eq_some _ hnames hmem)

/-! ## The two readings -/

namespace Tableau

/-- Each of the first `n` variables has one column, wherever it stands, and no other variable
has any. -/
structure HasVariables (t : Tableau α) (n : Nat) : Prop where
  count_eq_one : ∀ i < n, t.columns.count (.decision i) = 1
  lt_of_mem : ∀ i, .decision i ∈ t.columns → i < n

theorem HasVariables.getElem?_eq_iff {t : Tableau α} {n : Nat} (h : t.HasVariables n) (i j : Nat) :
    t.columns[j]? = some (.decision i) ↔ i < n ∧ j = t.columns.idxOf (.decision i) := by
  constructor
  · intro hj
    have hi := h.lt_of_mem i (List.mem_of_getElem? hj)
    exact ⟨hi, (getElem?_eq_some_iff_of_count_eq_one (h.count_eq_one i hi)).mp hj⟩
  · rintro ⟨hi, hj⟩
    exact (getElem?_eq_some_iff_of_count_eq_one (h.count_eq_one i hi)).mpr hj

end Tableau

/-- The assignment names the first `n` variables in their order and has for each of them, at its
place and under its name, what the list has at the place of the variable's column.  For a column
that is basic that is the right-hand side of its row, for any other zero. -/
structure Assignment.IsReadout [Zero α] (a : Assignment α) (t : Tableau α) (n : Nat)
    (values : List α) : Prop where
  names : a.map (fun q => Column.variableName q.1) = (List.range n).map Column.variableName
  value : ∀ i < n, ∃ (j : Nat) (v : α), t.columns[j]? = some (.decision i) ∧
    values[j]? = some v ∧ a[i]? = some (i, v) ∧ a.valueOf? (Column.variableName i) = some v
  basic : ∀ i, ∀ r ∈ t.rows, t.columns[r.basic]? = some (.decision i) →
    a.valueOf? (Column.variableName i) = some r.rhs
  not_basic : ∀ i j : Nat, t.columns[j]? = some (.decision i) → j ∉ t.basis →
    a.valueOf? (Column.variableName i) = some 0

/-- Where no two rows have one basic column, an optimum is reported with the values of the basic
solution, be it a maximum or a minimum: the variables in their order, each under its name with
what stands at the place of its column. -/
theorem Report.ofOptimal_isReadout [Scalar α] {t : Tableau α} {n : Nat} (hnodup : t.basis.Nodup)
    (hlt : ∀ j ∈ t.basis, j < t.columns.length) (hvars : t.HasVariables n) (negated : Bool)
    (steps : List (Step (Tableau α))) (pivots : Nat) :
    ∃ (a : Assignment α) (values : List α),
      (Report.ofOptimal t negated steps pivots).solution? = some a ∧
        t.basicSolution = .ok values ∧ a.IsReadout t n values := by
  have hrows : ∀ r ∈ t.rows, r.basic < t.columns.length := fun r hr =>
    hlt r.basic (List.mem_map_of_mem hr)
  have hsolution := Tableau.solution_eq_of_places hvars.getElem?_eq_iff
  have hplace : ∀ {i j : Nat}, t.columns[j]? = some (.decision i) →
      t.solution[i]? = some (i, t.valueOfColumn j) := by
    intro i j hj
    obtain ⟨hi, rfl⟩ := (hvars.getElem?_eq_iff i j).mp hj
    rw [hsolution, List.getElem?_map, List.getElem?_range hi, Option.map_some]
  have hname : ∀ {i j : Nat}, t.columns[j]? = some (.decision i) →
      t.solution.valueOf? (Column.variableName i) = some (t.valueOfColumn j) := fun hj =>
    (Tableau.isAscending_solution t).valueOf?_eq (List.mem_of_getElem? (hplace hj))
  refine ⟨t.solution, _, rfl, Tableau.basicSolution_eq hrows hnodup, ?_⟩
  constructor
  case names =>
    rw [hsolution, List.map_map]
    rfl
  case value =>
    intro i hi
    have hj := (hvars.getElem?_eq_iff i _).mpr ⟨hi, rfl⟩
    refine ⟨_, _, hj, ?_, hplace hj, hname hj⟩
    rw [List.getElem?_map, List.getElem?_range (List.getElem?_eq_some_iff.mp hj).1, Option.map_some]
  case basic =>
    intro i r hr hcolumn
    rw [hname hcolumn, Tableau.valueOfColumn_of_mem hnodup hr]
  case not_basic =>
    intro i j hcolumn hj
    rw [hname hcolumn, Tableau.valueOfColumn_of_notMem hj]

/-- Three variables out of order among columns of other kinds, two of them basic, in rows that
stand the other way round than the variables. -/
theorem Report.ofOptimal_isReadout_scattered :
    let t : Tableau Float := ⟨[.slack 0, .decision 2, .artificial 1, .decision 0, .surplus 1,
        .decision 1],
      [⟨⟨[1, 0.5, 0, 0, 2, 0], 4⟩, 0⟩, ⟨⟨[0, 3, 1, 0, -1, 1], 7⟩, 5⟩,
        ⟨⟨[0, 2, 0, 1, 3, 0], 2.5⟩, 3⟩],
      ⟨[0, 1, 0, 0, 2, 0], 9⟩⟩
    t.basis.Nodup ∧ (∀ j ∈ t.basis, j < t.columns.length) ∧ t.HasVariables 3 ∧
      ∃ (a : Assignment Float) (values : List Float),
        (Report.ofOptimal t true [] 2).solution? = some a ∧
          t.basicSolution = .ok values ∧ a.IsReadout t 3 values := by
  intro t
  have hnodup : t.basis.Nodup := by decide
  have hlt : ∀ j ∈ t.basis, j < t.columns.length := by decide
  have hvars : t.HasVariables 3 := by
    refine ⟨by decide, fun i hi => ?_⟩
    simp only [t, List.mem_cons, List.not_mem_nil, Column.decision.injEq, reduceCtorEq,
      false_or, or_false] at hi
    omega
  exact ⟨hnodup, hlt, hvars, ofOptimal_isReadout hnodup hlt hvars true [] 2⟩

/-- Of two rows with one basic column the solution shows the first and the basic solution the
last. -/
example :
    let t : Tableau ℚ := ⟨[.decision 0], [⟨⟨[1], 1⟩, 0⟩, ⟨⟨[1], 2⟩, 0⟩], ⟨[0], 0⟩⟩
    t.solution = [(0, 1)] ∧ t.basicSolution = .ok [2] := ⟨rfl, rfl⟩

end TwoPhase
