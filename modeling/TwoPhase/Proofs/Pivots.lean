/-
# `Pivots` — what a pivot keeps, and where pivots lead

In exact arithmetic a pivot on any entry that is not zero, be it of
either sign and whatever the basis, only writes the same equations and the
same objective in another way.  It makes its own column a unit vector and
leaves those columns alone in which its row has nothing, which are the
unit vectors of the other rows among them.

So the tableaux of a sequence of pivots all agree, and where they are
reduced a basis fixes them: it is of no account by which pivots a basis
is reached, and the way back is one pivot.
-/
import Mathlib
import TwoPhase.Tableau.Walk
import TwoPhase.Proofs.Forms

namespace TwoPhase

namespace Tableau

variable {t u v : Tableau ℚ} {r : BasicRow ℚ} {cell : Cell}

/-! ## One pivot -/

/-- The entries of a column, from the first constraint row to the objective row. -/
def column (t : Tableau ℚ) (j : Nat) : List ℚ := t.allRows.map (·.entry j)

/-- Among the constraint rows the column has a one in the row given and nothing in the
others. -/
def IsUnitColumn (t : Tableau ℚ) (i j : Nat) : Prop :=
  ∀ k s, t.rows[k]? = some s → s.entry j = if k = i then 1 else 0

instance (t : Tableau ℚ) (i j : Nat) : Decidable (t.IsUnitColumn i j) :=
  decidable_of_iff (∀ p ∈ t.rows.zipIdx, p.1.entry j = if p.2 = i then 1 else 0) <| by
    simp only [IsUnitColumn, Prod.forall, List.mem_zipIdx_iff_getElem?]
    exact forall_comm

theorem agrees_pivotOn (ht : t.IsRectangular) (hr : t.rows[cell.row]? = some r)
    (hc : cell.column < t.columns.length) (hne : r.entry cell.column ≠ 0) :
    t.Agrees (t.pivotOn r.toRow cell 0) :=
  ⟨⟨rfl, fun _ _ => (solvedBy_pivotOn ht hr hc hne).symm⟩,
    fun _ _ hsolved => (gap_objective_pivotOn ht hr hc hne hsolved).symm⟩

theorem isUnitColumn_pivotOn (ht : t.IsRectangular) (hr : t.rows[cell.row]? = some r)
    (hc : cell.column < t.columns.length) :
    (t.pivotOn r.toRow cell 0).IsUnitColumn cell.row cell.column := by
  intro k s hs
  obtain ⟨_, _, _, hentry⟩ := entry_pivotOn ht hr hc hs
  rw [hentry, if_pos rfl]

theorem column_pivotOn (ht : t.IsRectangular) (hr : t.rows[cell.row]? = some r)
    (hc : cell.column < t.columns.length) (hne : r.entry cell.column ≠ 0) {j : Nat}
    (hj : r.entry j = 0) : (t.pivotOn r.toRow cell 0).column j = t.column j := by
  have hcol : j ≠ cell.column := by
    rintro rfl
    exact hne hj
  have hobjective : (t.pivotOn r.toRow cell 0).objective.entry j = t.objective.entry j := by
    rw [entry_objective_pivotOn ht hr hc, if_neg hcol, hj, zero_div, zero_mul, sub_zero,
      snap_zero_tol]
  have hrows : (t.pivotOn r.toRow cell 0).rows.map (·.entry j) = t.rows.map (·.entry j) := by
    refine List.ext_getElem (by simp) fun k hk hk' => ?_
    rw [List.getElem_map, List.getElem_map]
    rw [List.length_map] at hk hk'
    obtain ⟨s₀, hs₀, -, hentry⟩ := entry_pivotOn ht hr hc (List.getElem?_eq_getElem hk)
    obtain ⟨_, rfl⟩ := List.getElem?_eq_some_iff.mp hs₀
    rw [hentry, if_neg hcol, snap_zero_tol]
    by_cases hkr : k = cell.row
    · subst hkr
      cases hr.symm.trans hs₀
      rw [pivotEntry, if_pos rfl, hj, zero_div]
    · exact pivotEntry_of_entry_eq_zero hj hkr
  simp only [column, allRows, List.map_append, List.map_map, List.map_singleton]
  exact congrArg₂ (· ++ [·]) hrows hobjective

/-- A pivot with no tolerance, on any entry that is not zero, keeps the solutions, the
objective at each of them and the unit columns of the other rows; its column becomes the unit
column of its row, the objective row included, and basic there. -/
theorem pivot_keeps_meaning (ht : t.IsRectangular) (hr : t.rows[cell.row]? = some r)
    (hc : cell.column < t.columns.length) (hne : r.entry cell.column ≠ 0) :
    ∃ u, t.pivot cell 0 = .ok u ∧ u.IsRectangular ∧ u.columns = t.columns ∧
      (∀ y, u.SolvedBy y ↔ t.SolvedBy y) ∧
      (∀ y, t.SolvedBy y → u.objective.gap y = t.objective.gap y) ∧
      u.IsUnitColumn cell.row cell.column ∧ u.objective.entry cell.column = 0 ∧
      (∀ i j, i ≠ cell.row → t.IsUnitColumn i j → u.column j = t.column j) ∧
      u.basis = t.basis.set cell.row cell.column := by
  refine ⟨t.pivotOn r.toRow cell 0, pivot_of_row ht hr hc, ht.pivotOn hr, rfl,
    fun y => solvedBy_pivotOn ht hr hc hne, fun y => gap_objective_pivotOn ht hr hc hne,
    isUnitColumn_pivotOn ht hr hc, ?_, ?_, basis_pivotOn t r.toRow cell 0⟩
  · rw [entry_objective_pivotOn ht hr hc, if_pos rfl]
  · intro i j hi hunit
    refine column_pivotOn ht hr hc hne ?_
    rw [hunit _ _ hr, if_neg hi.symm]

/-- A negative entry in a tableau that is not canonical; the third column is the unit vector of
the second row, but for a reduced cost. -/
theorem pivot_keeps_meaning_negative :
    let t : Tableau ℚ := ⟨[.decision 0, .decision 1, .slack 0],
      [⟨⟨[2, -4, 0], 6⟩, 2⟩, ⟨⟨[1, 3, 1], -5⟩, 0⟩], ⟨[1, -1, 1], 2⟩⟩
    ¬ t.IsCanonical 0 ∧ ∃ u, t.pivot ⟨0, 1⟩ 0 = .ok u ∧ (∀ y, u.SolvedBy y ↔ t.SolvedBy y) ∧
      (∀ y, t.SolvedBy y → u.objective.gap y = t.objective.gap y) ∧ u.IsUnitColumn 0 1 ∧
      u.column 2 = t.column 2 ∧ u.basis = [1, 0] := by
  intro t
  obtain ⟨u, hu, -, -, hsolved, hgap, hunit, -, hkeep, hbasis⟩ :=
    @pivot_keeps_meaning t _ ⟨0, 1⟩ (by decide) rfl (by decide) (by decide +kernel)
  have hthird : t.IsUnitColumn 1 2 := by decide +kernel
  exact ⟨by decide +kernel, u, hu, hsolved, hgap, hunit, hkeep 1 2 one_ne_zero hthird, hbasis⟩

/-! ## Sequences of pivots -/

/-- The pivots lead from one tableau to another.  Each is made on an entry that is not zero at
that moment; its column may even be basic. -/
inductive LeadsTo : Tableau ℚ → List Cell → Tableau ℚ → Prop
  | nil (t : Tableau ℚ) : LeadsTo t [] t
  | cons {t u v : Tableau ℚ} {cell : Cell} {cells : List Cell} {r : BasicRow ℚ}
      (hr : t.rows[cell.row]? = some r) (hc : cell.column < t.columns.length)
      (hne : r.entry cell.column ≠ 0) (hpivot : t.pivot cell 0 = .ok u)
      (h : LeadsTo u cells v) : LeadsTo t (cell :: cells) v

namespace LeadsTo

variable {cells cells' : List Cell}

theorem isReduced (h : t.LeadsTo cells u) : t.IsReduced → u.IsReduced := by
  induction h with
  | nil t => exact id
  | cons hr hc hne hpivot _ ih =>
      intro ht
      cases (pivot_of_shaped ht.unit.shaped hr hc).symm.trans hpivot
      exact ih (ht.pivotOn zero_le_one hr hc hne)

theorem agrees (h : t.LeadsTo cells u) : t.IsRectangular → t.Agrees u := by
  induction h with
  | nil t => exact fun _ => .refl t
  | cons hr hc hne hpivot _ ih =>
      intro ht
      cases (pivot_of_row ht hr hc).symm.trans hpivot
      exact (agrees_pivotOn ht hr hc hne).trans (ih (ht.pivotOn hr))

theorem of_pivotOn (ht : t.IsRectangular) (hi : cell.row < t.rows.length)
    (hc : cell.column < t.columns.length) (hne : (t.rows[cell.row]).entry cell.column ≠ 0)
    (h : (t.pivotOn (t.rows[cell.row]).toRow cell 0).LeadsTo cells v) :
    t.LeadsTo (cell :: cells) v :=
  have hr := List.getElem?_eq_getElem hi
  .cons hr hc hne (pivot_of_row ht hr hc) h

/-- The rules of choice, too, pivot on entries that are not zero. -/
theorem of_walk {limit : Nat} (ht : t.IsRectangular) (h : t.walk 0 limit = .ok (cells, v)) :
    t.LeadsTo cells v := by
  induction limit generalizing t cells with
  | zero =>
      cases h
      exact .nil _
  | succ limit ih =>
      rcases walk_succ_cases h with ⟨-, rfl, rfl⟩ | ⟨cell, u, rest, hchoose, hpivot, hwalk, rfl⟩
      · exact .nil _
      · obtain ⟨hc, r, hr, hpos⟩ := cell_of_choose ht hchoose
        cases (pivot_of_row ht hr hc).symm.trans hpivot
        exact .cons hr hc hpos.ne' hpivot (ih (ht.pivotOn hr) hwalk)

theorem agrees_of_leadsTo (hu : t.LeadsTo cells u) (hv : t.LeadsTo cells' v)
    (ht : t.IsRectangular) : u.Agrees v :=
  (hu.agrees ht).symm.trans (hv.agrees ht)

end LeadsTo

/-! ## The way back -/

theorem entry_basic_pivotOn_ne_zero (h : t.HasUnitBasis) (hr : t.rows[cell.row]? = some r)
    (hc : cell.column < t.columns.length) (hne : r.entry cell.column ≠ 0) {s : BasicRow ℚ}
    (hs : (t.pivotOn r.toRow cell 0).rows[cell.row]? = some s) : s.entry r.basic ≠ 0 := by
  obtain ⟨_, _, _, hentry⟩ := entry_pivotOn h.shaped.rectangular hr hc hs
  rw [hentry, if_pos rfl]
  split
  · exact one_ne_zero
  · rw [snap_zero_tol, pivotEntry, if_pos rfl, h.entry_basic hr hr, if_pos rfl]
    exact one_div_ne_zero hne

theorem basis_pivotOn_back (hr : t.rows[cell.row]? = some r) (s : Row ℚ) :
    ((t.pivotOn r.toRow cell 0).pivotOn s ⟨cell.row, r.basic⟩ 0).basis = t.basis := by
  have hold : t.basis[cell.row]? = some r.basic := by
    rw [basis, List.getElem?_map, hr, Option.map_some]
  obtain ⟨hlt, hget⟩ := List.getElem?_eq_some_iff.mp hold
  rw [basis_pivotOn, basis_pivotOn, List.set_set, ← hget, List.set_getElem_self]

/-- A pivot is taken back by one in the same row, on the column that was basic there. -/
theorem IsReduced.pivot_back (h : t.IsReduced) (hr : t.rows[cell.row]? = some r)
    (hc : cell.column < t.columns.length) (hne : r.entry cell.column ≠ 0) :
    ∃ u, t.pivot cell 0 = .ok u ∧ u.pivot ⟨cell.row, r.basic⟩ 0 = .ok t := by
  have hrect := h.unit.shaped.rectangular
  have hu : (t.pivotOn r.toRow cell 0).IsReduced := h.pivotOn zero_le_one hr hc hne
  have hrect' := hu.unit.shaped.rectangular
  obtain ⟨s, hs⟩ : ∃ s, (t.pivotOn r.toRow cell 0).rows[cell.row]? = some s := by
    rw [getElem?_rows_pivotOn, hr]
    exact ⟨_, rfl⟩
  have hback : r.basic < (t.pivotOn r.toRow cell 0).columns.length :=
    h.unit.shaped.basic_lt_of_row hr
  have hne' := entry_basic_pivotOn_ne_zero h.unit hr hc hne hs
  have hagrees : t.Agrees ((t.pivotOn r.toRow cell 0).pivotOn s.toRow ⟨cell.row, r.basic⟩ 0) :=
    (agrees_pivotOn hrect hr hc hne).trans (agrees_pivotOn hrect' hs hback hne')
  have hsame := hagrees.eq_of_basis_eq h (hu.pivotOn zero_le_one hs hback hne')
    (basis_pivotOn_back hr s.toRow).symm
  have hpivot : (t.pivotOn r.toRow cell 0).pivot ⟨cell.row, r.basic⟩ 0
      = .ok ((t.pivotOn r.toRow cell 0).pivotOn s.toRow ⟨cell.row, r.basic⟩ 0) :=
    pivot_of_row hrect' hs hback
  refine ⟨_, pivot_of_row hrect hr hc, ?_⟩
  rw [hpivot, ← hsame]

/-! ## One end for one basis -/

/-- From a reduced tableau, sequences of pivots that end over the same basis end in the same
tableau, and those that end over the same basic columns end in the same but for the order of
the rows.  A pivot and the one that takes it back are such a sequence. -/
theorem pivots_path_independent (h : t.IsReduced) :
    (∀ cells cells' u v, t.LeadsTo cells u → t.LeadsTo cells' v →
      (u.basis = v.basis → u = v) ∧
      (u.basis.toFinset = v.basis.toFinset → u.IsReordering v)) ∧
    ∀ cell r, t.rows[cell.row]? = some r → cell.column < t.columns.length →
      r.entry cell.column ≠ 0 →
      ∃ u, t.pivot cell 0 = .ok u ∧ u.pivot ⟨cell.row, r.basic⟩ 0 = .ok t := by
  refine ⟨?_, fun cell r hr hc hne => h.pivot_back hr hc hne⟩
  intro cells cells' u v hu hv
  have hagrees := hu.agrees_of_leadsTo hv h.unit.shaped.rectangular
  have hu' := hu.isReduced h
  have hv' := hv.isReduced h
  refine ⟨hagrees.eq_of_basis_eq hu' hv', ?_⟩
  intro hbasis
  refine hagrees.isReordering hu' hv' fun j => ?_
  rw [← List.mem_toFinset, hbasis, List.mem_toFinset]

/-- Two pivots in either order end over one basis, and crosswise over its columns. -/
theorem pivots_path_independent_crosswise :
    let t : Tableau ℚ := ⟨[.decision 0, .decision 1, .slack 0, .slack 1],
      [⟨⟨[1, 2, 1, 0], 4⟩, 2⟩, ⟨⟨[3, 2, 0, 1], 6⟩, 3⟩], ⟨[-1, -1, 0, 0], 0⟩⟩
    ∃ u v w, t.LeadsTo [⟨0, 0⟩, ⟨1, 1⟩] u ∧ t.LeadsTo [⟨1, 1⟩, ⟨0, 0⟩] v ∧
      t.LeadsTo [⟨0, 1⟩, ⟨1, 0⟩] w ∧ u.basis = [0, 1] ∧ v.basis = [0, 1] ∧ w.basis = [1, 0] ∧
      u = v ∧ u.IsReordering w := by
  intro t
  have ht : t.IsReduced := ((isCanonical_zero_iff (by decide)).mp (by decide +kernel)).1
  obtain ⟨hends, -⟩ := pivots_path_independent ht
  have hu : t.LeadsTo [⟨0, 0⟩, ⟨1, 1⟩] _ :=
    .of_pivotOn (by decide) (by decide) (by decide) (by decide +kernel) <|
      .of_pivotOn (by decide) (by decide) (by decide) (by decide +kernel) (.nil _)
  have hv : t.LeadsTo [⟨1, 1⟩, ⟨0, 0⟩] _ :=
    .of_pivotOn (by decide) (by decide) (by decide) (by decide +kernel) <|
      .of_pivotOn (by decide) (by decide) (by decide) (by decide +kernel) (.nil _)
  have hw : t.LeadsTo [⟨0, 1⟩, ⟨1, 0⟩] _ :=
    .of_pivotOn (by decide) (by decide) (by decide) (by decide +kernel) <|
      .of_pivotOn (by decide) (by decide) (by decide) (by decide +kernel) (.nil _)
  exact ⟨_, _, _, hu, hv, hw, by decide, by decide, by decide,
    (hends _ _ _ _ hu hv).1 (by decide), (hends _ _ _ _ hu hw).2 (by decide)⟩

end Tableau

end TwoPhase
