/-
# `Solution` — reading the optimum off a tableau

The basic solution is written row by row, and where no column is basic
twice it has in each place the value of the column there.  The values of
the decision variables are collected column by column into an assignment,
which stays in the order of the variables whatever the order of the columns
is, and the last column of a variable decides.  Two assignments in that
order are the same if they have the same entries, so where each variable
has one column it is enough to know what is collected, and not when.  All
this holds of any scalar.  On the rationals the value reported is the
objective of the program, with the sign of a minimum put right again.
-/
import Mathlib
import TwoPhase.Report
import TwoPhase.Proofs.Layout

namespace TwoPhase

variable {α : Type}

/-! ## Assignments in the order of the variables -/

namespace Assignment

/-- Each variable once, the variables in ascending order. -/
def IsAscending (a : Assignment α) : Prop := a.Pairwise fun p q => p.1 < q.1

variable {a b : Assignment α} {i : Nat} {v : α}

theorem isAscending_cons {p : Nat × α} :
    IsAscending (p :: a) ↔ (∀ q ∈ a, p.1 < q.1) ∧ IsAscending a := List.pairwise_cons

theorem mem_assign (h : a.IsAscending) {q : Nat × α} :
    q ∈ a.assign i v ↔ q = (i, v) ∨ q ∈ a ∧ q.1 ≠ i := by
  induction a with
  | nil => simp [assign]
  | cons p rest ih =>
      obtain ⟨k, w⟩ := p
      obtain ⟨hlt, hrest⟩ : (∀ q ∈ rest, k < q.1) ∧ IsAscending rest := isAscending_cons.mp h
      rw [assign]
      split_ifs with hbefore hsame
      · -- every variable that has a value lies beyond
        have hne : ∀ q ∈ (k, w) :: rest, q.1 ≠ i := by
          intro q hq
          rcases List.mem_cons.mp hq with rfl | hq
          · exact hbefore.ne'
          · exact (hbefore.trans (hlt q hq)).ne'
        rw [List.mem_cons, and_iff_left_of_imp (hne q)]
      · subst hsame
        have hold : ¬ (q = (i, w) ∧ q.1 ≠ i) := fun ⟨hq, hne⟩ => hne (congrArg Prod.fst hq)
        have hne : q ∈ rest → q.1 ≠ i := fun hq => (hlt q hq).ne'
        rw [List.mem_cons, List.mem_cons, or_and_right, or_iff_right hold, and_iff_left_of_imp hne]
      · rw [List.mem_cons, ih hrest, List.mem_cons, or_and_right, or_left_comm]
        refine or_congr_right (or_congr_left ?_)
        refine (and_iff_left_of_imp ?_).symm
        rintro rfl
        exact Ne.symm hsame

theorem IsAscending.assign (h : a.IsAscending) (i : Nat) (v : α) : (a.assign i v).IsAscending := by
  induction a with
  | nil => exact List.pairwise_singleton ..
  | cons p rest ih =>
      obtain ⟨k, w⟩ := p
      obtain ⟨hfirst, hrest⟩ := isAscending_cons.mp h
      rw [Assignment.assign]
      split_ifs with hbefore hsame
      · refine isAscending_cons.mpr ⟨fun q hq => ?_, h⟩
        rcases List.mem_cons.mp hq with rfl | hq
        · exact hbefore
        · exact hbefore.trans (hfirst q hq)
      · subst hsame
        exact isAscending_cons.mpr ⟨hfirst, hrest⟩
      · refine isAscending_cons.mpr ⟨fun q hq => ?_, ih hrest⟩
        rcases (mem_assign hrest).mp hq with rfl | ⟨hq, -⟩
        · show k < i
          omega
        · exact hfirst q hq

/-- The entries tell the assignment. -/
theorem IsAscending.eq_of_mem_iff (ha : a.IsAscending) (hb : b.IsAscending)
    (h : ∀ q, q ∈ a ↔ q ∈ b) : a = b := by
  have : Std.Irrefl fun p q : Nat × α => p.1 < q.1 := ⟨fun p => lt_irrefl p.1⟩
  have : Std.Antisymm fun p q : Nat × α => p.1 < q.1 := ⟨fun p q hlt hgt => absurd hlt hgt.asymm⟩
  exact List.Pairwise.eq_of_mem_iff ha hb h

end Assignment

/-! ## The basic solution -/

theorem find?_key_eq_some {β κ : Type} [BEq κ] [LawfulBEq κ] (key : β → κ) {xs : List β}
    (h : (xs.map key).Nodup) {x : β} (hx : x ∈ xs) : xs.find? (key · == key x) = some x := by
  cases hfind : xs.find? (key · == key x) with
  | none => simpa using List.find?_eq_none.mp hfind x hx
  | some y =>
      have hkey : key y = key x := by simpa using List.find?_some hfind
      rw [List.inj_on_of_nodup_map h (List.mem_of_find?_eq_some hfind) hx hkey]

theorem find?_key_eq_none {β κ : Type} [BEq κ] [LawfulBEq κ] (key : β → κ) {xs : List β} {k : κ}
    (h : k ∉ xs.map key) : xs.find? (key · == k) = none := by
  rw [List.find?_eq_none]
  intro x hx hk
  exact h (List.mem_map.mpr ⟨x, hx, eq_of_beq hk⟩)

/-- Of values written one after another, each into a place of its own, none is written over. -/
theorem getElem?_foldl_set {β γ : Type} (place : β → Nat) (value : β → γ) (k : Nat) :
    ∀ {items : List β} {values : List γ}, (items.map place).Nodup →
      (items.foldl (fun values b => values.set (place b) (value b)) values)[k]?
        = match items.find? (place · == k) with
          | some b => values[k]?.map fun _ => value b
          | none => values[k]?
  | [], _, _ => rfl
  | b :: items, values, h => by
      obtain ⟨hfirst, hrest⟩ := List.nodup_cons.mp h
      rw [List.foldl_cons, getElem?_foldl_set place value k hrest]
      by_cases hk : place b = k
      · have hnone : items.find? (place · == k) = none := find?_key_eq_none place (hk ▸ hfirst)
        rw [hnone, List.find?_cons_of_pos (by simpa using hk), ← hk, List.getElem?_set_self']
        rfl
      · rw [List.find?_cons_of_neg (by simpa using hk), List.getElem?_set_ne hk]

namespace Tableau

variable [Scalar α] {t : Tableau α}

theorem valueOfColumn_of_notMem {j : Nat} (h : j ∉ t.basis) : t.valueOfColumn j = 0 := by
  rw [valueOfColumn, find?_key_eq_none BasicRow.basic h]

theorem valueOfColumn_of_mem (h : t.basis.Nodup) {r : BasicRow α} (hr : r ∈ t.rows) :
    t.valueOfColumn r.basic = r.rhs := by
  rw [valueOfColumn, find?_key_eq_some BasicRow.basic h hr]

theorem basicSolution_eq (hlt : ∀ r ∈ t.rows, r.basic < t.columns.length)
    (hnodup : t.basis.Nodup) :
    t.basicSolution = .ok ((List.range t.columns.length).map t.valueOfColumn) := by
  rw [basicSolution, require_bind_of hlt]
  refine congrArg Except.ok (List.ext_getElem? fun k => ?_)
  rw [getElem?_foldl_set BasicRow.basic (fun r => r.rhs) k hnodup, List.getElem?_map]
  rcases lt_or_ge k t.columns.length with hk | hk
  · rw [List.getElem?_replicate_of_lt hk, List.getElem?_range hk, Option.map_some, valueOfColumn]
    cases t.rows.find? (·.basic == k) <;> rfl
  · rw [List.getElem?_eq_none (by simpa using hk), List.getElem?_eq_none (by simpa using hk)]
    cases t.rows.find? (·.basic == k) <;> rfl

/-! ## Collecting the values of the variables -/

abbrev collect (t : Tableau α) (a : Assignment α) (q : Column × Nat) : Assignment α :=
  match q.1 with
  | .decision i => a.assign i (t.valueOfColumn q.2)
  | _ => a

theorem isAscending_foldl_collect (t : Tableau α) (cols : List (Column × Nat)) :
    ∀ {a : Assignment α}, a.IsAscending → (cols.foldl t.collect a).IsAscending := by
  induction cols with
  | nil => exact id
  | cons q cols ih =>
      intro a ha
      refine ih ?_
      obtain ⟨c, j⟩ := q
      cases c with
      | decision i => exact ha.assign i (t.valueOfColumn j)
      | _ => exact ha

theorem isAscending_solution (t : Tableau α) : t.solution.IsAscending :=
  isAscending_foldl_collect t _ .nil

theorem mem_foldl_collect {cols : List (Column × Nat)} (h : cols.Pairwise fun p q => p.2 < q.2)
    (q : Nat × α) : q ∈ cols.foldl t.collect [] ↔ ∃ j, (.decision q.1, j) ∈ cols ∧
      (∀ k, (.decision q.1, k) ∈ cols → k ≤ j) ∧ t.valueOfColumn j = q.2 := by
  -- from the right, since the column that comes last decides
  induction cols using List.reverseRecOn with
  | nil => simp
  | append_singleton cols p ih =>
      obtain ⟨hcols, -, hlast⟩ := List.pairwise_append.mp h
      obtain ⟨c, j⟩ := p
      have hlt : ∀ {k}, (Column.decision q.1, k) ∈ cols → k < j := fun hk =>
        hlast _ hk (c, j) List.mem_cons_self
      rw [List.foldl_append, List.foldl_cons, List.foldl_nil]
      cases c with
      | decision i =>
          rw [Assignment.mem_assign (isAscending_foldl_collect t cols .nil), ih hcols]
          simp only [List.mem_append, List.mem_singleton, Prod.mk.injEq, Column.decision.injEq]
          by_cases hi : q.1 = i
          · subst hi
            simp only [true_and, ne_eq, not_true_eq_false, and_false, or_false]
            constructor
            · intro hq
              refine ⟨j, .inr rfl, fun k hk => ?_, by rw [hq]⟩
              rcases hk with hk | rfl
              · exact (hlt hk).le
              · exact le_rfl
            · rintro ⟨k, hk, hmax, hvalue⟩
              have hle : j ≤ k := hmax j (.inr rfl)
              obtain rfl : k = j := hk.resolve_left fun hk => (hlt hk).not_ge hle
              exact Prod.ext rfl hvalue.symm
          · have hne : q ≠ (i, t.valueOfColumn j) := fun hq => hi (congrArg Prod.fst hq)
            simp only [hi, hne, false_and, or_false, false_or, ne_eq, not_false_eq_true, and_true]
      | _ => simpa using ih hcols

/-- Whatever the columns are, the solution has a value for each variable that has a column, and
if it has several the last of them counts. -/
theorem mem_solution_iff (q : Nat × α) : q ∈ t.solution ↔
    ∃ j, t.columns[j]? = some (.decision q.1) ∧
      (∀ k, t.columns[k]? = some (.decision q.1) → k ≤ j) ∧ t.valueOfColumn j = q.2 := by
  have hplace : ∀ {j}, (Column.decision q.1, j) ∈ t.columns.zipIdx ↔
      t.columns[j]? = some (.decision q.1) := List.mem_zipIdx_iff_getElem?
  have hmem := mem_foldl_collect (t := t) (pairwise_zipIdx_snd t.columns) q
  simp only [hplace] at hmem
  exact hmem

theorem solution_eq_of_places {n : Nat} {place : Nat → Nat}
    (h : ∀ i j, t.columns[j]? = some (.decision i) ↔ i < n ∧ j = place i) :
    t.solution = (List.range n).map fun i => (i, t.valueOfColumn (place i)) := by
  have hread : ((List.range n).map fun i => (i, t.valueOfColumn (place i))).Pairwise
      fun p q => p.1 < q.1 := List.pairwise_map.mpr List.pairwise_lt_range
  refine (isAscending_solution t).eq_of_mem_iff hread fun q => ?_
  rw [mem_solution_iff, List.mem_map]
  constructor
  · rintro ⟨j, hj, -, hvalue⟩
    obtain ⟨hlt, rfl⟩ := (h q.1 j).mp hj
    exact ⟨q.1, List.mem_range.mpr hlt, Prod.ext rfl hvalue⟩
  · rintro ⟨i, hi, rfl⟩
    have hplace := (h i (place i)).mpr ⟨List.mem_range.mp hi, rfl⟩
    exact ⟨place i, hplace, fun k hk => ((h i k).mp hk).2.le, rfl⟩

theorem solution_eq {n : Nat} {rest : List Column}
    (hcolumns : t.columns = (List.range n).map .decision ++ rest)
    (hrest : ∀ c ∈ rest, ∀ i, c ≠ .decision i) :
    t.solution = (List.range n).map fun i => (i, t.valueOfColumn i) := by
  refine solution_eq_of_places fun i j => ?_
  rw [hcolumns, StandardForm.getElem?_decisions_append_iff fun i hi => hrest _ hi i rfl]
  constructor
  · rintro ⟨rfl, hlt⟩
    exact ⟨hlt, rfl⟩
  · rintro ⟨hlt, rfl⟩
    exact ⟨rfl, hlt⟩

end Tableau

/-! ## The value reported -/

theorem reportedValue_eq (negated : Bool) (z : ℚ) :
    reportedValue negated z = if negated then -z else z := by
  have hkeep : ∀ v : ℚ, (if v == 0 then 0 else v) = v := by
    intro v
    split
    next h => exact (eq_of_beq h).symm
    next => rfl
  show (if (if negated then z * (-1) else z) == 0 then (0 : ℚ)
    else if negated then z * (-1) else z) = _
  rw [hkeep, mul_neg_one]

end TwoPhase
