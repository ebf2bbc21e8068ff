/-
# `Basis` — unit columns, reduced costs and feasible right-hand sides

Three invariants carry the method.  Every basic column is the unit vector
of its row (`HasUnitBasis`), the objective row has nothing in a basic
column (`IsPriced`), and no right-hand side lies below zero
(`IsFeasible`).  The first two, which make a tableau `IsReduced`, survive
a pivot on any entry that is not zero, for every tolerance from zero to
one: snapping leaves zeros and ones alone.  The third needs the least
ratio, or a pivot row at level zero.
-/
import Mathlib
import TwoPhase.Proofs.Equations

namespace TwoPhase

namespace Tableau

/-- Every basic column is the unit vector of its row among the constraint rows. -/
structure HasUnitBasis (t : Tableau ℚ) : Prop where
  shaped : t.IsShaped
  entry_basic : ∀ {i k : Nat} {r s : BasicRow ℚ}, t.rows[i]? = some r → t.rows[k]? = some s →
    s.entry r.basic = if k = i then 1 else 0

/-- The objective row has nothing in a basic column. -/
def IsPriced (t : Tableau ℚ) : Prop := ∀ r ∈ t.rows, t.objective.entry r.basic = 0

/-- No right-hand side of a constraint row lies below zero. -/
def IsFeasible (t : Tableau ℚ) : Prop := ∀ r ∈ t.rows, 0 ≤ r.rhs

variable {t : Tableau ℚ}

theorem HasUnitBasis.basic_inj (h : t.HasUnitBasis) {i k : Nat} {r s : BasicRow ℚ}
    (hr : t.rows[i]? = some r) (hs : t.rows[k]? = some s) (hb : r.basic = s.basic) : i = k := by
  by_contra hne
  have hzero := h.entry_basic hs hr
  have hone := h.entry_basic hr hr
  rw [if_neg hne, ← hb, hone, if_pos rfl] at hzero
  exact one_ne_zero hzero

theorem HasUnitBasis.nodup_basis (h : t.HasUnitBasis) : t.basis.Nodup := by
  rw [List.nodup_iff_getElem?_ne_getElem?]
  intro i k hik hk heq
  rw [basis, List.length_map] at hk
  have hr := List.getElem?_eq_getElem (hik.trans hk)
  have hs := List.getElem?_eq_getElem hk
  rw [basis, List.getElem?_map, List.getElem?_map, hr, hs] at heq
  exact hik.ne (h.basic_inj hr hs (Option.some.inj heq))

theorem HasUnitBasis.entry_of_mem (h : t.HasUnitBasis) {r s : BasicRow ℚ} (hr : r ∈ t.rows)
    (hs : s ∈ t.rows) : s.entry r.basic = if s.basic = r.basic then 1 else 0 := by
  obtain ⟨i, hi⟩ := List.mem_iff_getElem?.mp hr
  obtain ⟨k, hk⟩ := List.mem_iff_getElem?.mp hs
  rw [h.entry_basic hi hk]
  refine if_congr ⟨?_, h.basic_inj hk hi⟩ rfl rfl
  rintro rfl
  cases hk.symm.trans hi
  rfl

theorem HasUnitBasis.of_subset (h : t.HasUnitBasis) {rows : List (BasicRow ℚ)}
    (hsub : rows ⊆ t.rows) (hnodup : (rows.map (·.basic)).Nodup) :
    ({ t with rows } : Tableau ℚ).HasUnitBasis := by
  refine ⟨h.shaped.of_subset hsub, ?_⟩
  intro i k r s hr hs
  obtain ⟨hi, rfl⟩ := List.getElem?_eq_some_iff.mp hr
  obtain ⟨hk, rfl⟩ := List.getElem?_eq_some_iff.mp hs
  rw [h.entry_of_mem (hsub (List.getElem_mem hi)) (hsub (List.getElem_mem hk))]
  refine if_congr ⟨?_, ?_⟩ rfl rfl
  · intro hb
    have hsame : rows[k] = rows[i] :=
      List.inj_on_of_nodup_map hnodup (List.getElem_mem hk) (List.getElem_mem hi) hb
    exact hnodup.of_map.getElem_inj_iff.mp hsame
  · rintro rfl
    rfl

theorem HasUnitBasis.of_perm (h : t.HasUnitBasis) {rows : List (BasicRow ℚ)}
    (hperm : rows.Perm t.rows) : ({ t with rows } : Tableau ℚ).HasUnitBasis :=
  h.of_subset hperm.subset ((hperm.map _).nodup_iff.mpr h.nodup_basis)

theorem HasUnitBasis.with_objective (h : t.HasUnitBasis) {z : Row ℚ}
    (hz : z.coeffs.length = t.columns.length) :
    ({ t with objective := z } : Tableau ℚ).HasUnitBasis :=
  ⟨⟨⟨h.shaped.rectangular.1, hz⟩, h.shaped.basic_lt⟩, h.entry_basic⟩

theorem HasUnitBasis.eraseIdx (h : t.HasUnitBasis) (i : Nat) :
    ({ t with rows := t.rows.eraseIdx i } : Tableau ℚ).HasUnitBasis :=
  h.of_subset List.eraseIdx_subset
    (((List.eraseIdx_sublist t.rows i).map _).nodup h.nodup_basis)

theorem entry_ne_zero_of_largestColumn {r : Row ℚ} {tol : ℚ} (htol : 0 ≤ tol) {j : Nat}
    (hj : t.largestColumn r tol = some j) : r.entry j ≠ 0 := by
  obtain ⟨v, c, hv, -, -, hbig⟩ := largestColumn_some hj
  rw [scalarAbs_eq_abs, ← (Row.lt_and_entry_of_getElem? hv).2] at hbig
  exact abs_pos.mp (htol.trans_lt hbig)

theorem IsFeasible.of_subset (h : t.IsFeasible) {rows : List (BasicRow ℚ)}
    (hsub : rows ⊆ t.rows) : ({ t with rows } : Tableau ℚ).IsFeasible :=
  fun r hr => h r (hsub hr)

/-! ## Pivoting -/

section Pivot

variable {r : BasicRow ℚ} {cell : Cell} {tol : ℚ}

/-- The entries of a row after a pivot, before they are snapped. -/
def pivotEntry (r : Row ℚ) (cell : Cell) (k : Nat) (s : Row ℚ) (j : Nat) : ℚ :=
  if k = cell.row then r.entry j / r.entry cell.column
  else s.entry j - r.entry j / r.entry cell.column * s.entry cell.column

theorem entry_settle_eliminate {r s : Row ℚ} (hlen : s.coeffs.length = r.coeffs.length)
    (hc : cell.column < r.coeffs.length) (j : Nat) :
    ((s.eliminate cell.column (scaledRow r cell)).settle tol cell.column 0).entry j =
      if j = cell.column then 0
      else snap tol (s.entry j - r.entry j / r.entry cell.column * s.entry cell.column) := by
  have hlen' : s.coeffs.length = (scaledRow r cell).coeffs.length := by simpa using hlen
  rw [Row.entry_settle _ (by rw [Row.length_eliminate hlen', hlen]; exact hc),
    Row.entry_eliminate hlen', entry_scaledRow]

/-- What a pivot does to the rows, entry by entry. -/
theorem entry_pivotOn (ht : t.IsRectangular) (hr : t.rows[cell.row]? = some r)
    (hc : cell.column < t.columns.length) {k : Nat} {s : BasicRow ℚ}
    (hs : (t.pivotOn r.toRow cell tol).rows[k]? = some s) :
    ∃ s₀, t.rows[k]? = some s₀ ∧
      s.basic = (if k = cell.row then cell.column else s₀.basic) ∧
      ∀ j, s.entry j = if j = cell.column then (if k = cell.row then 1 else 0)
        else snap tol (pivotEntry r.toRow cell k s₀.toRow j) := by
  have hlen : r.coeffs.length = t.columns.length := ht.1 r (List.mem_of_getElem? hr)
  have hc' : cell.column < r.coeffs.length := hlen ▸ hc
  rcases pivotOn_row_cases hs with ⟨rfl, rfl⟩ | ⟨hne, s₀, hs₀, rfl⟩
  · refine ⟨r, hr, by simp, fun j => ?_⟩
    rw [Row.entry_settle _ (by simpa using hc'), entry_scaledRow]
    simp [pivotEntry]
  · have hlen₀ := ht.1 s₀ (List.mem_of_getElem? hs₀)
    refine ⟨s₀, hs₀, by simp [hne], fun j => ?_⟩
    rw [entry_settle_eliminate (hlen₀.trans hlen.symm) hc']
    simp [pivotEntry, hne]

theorem pivotEntry_of_entry_eq_zero {r s : Row ℚ} {k j : Nat} (hj : r.entry j = 0)
    (hk : k ≠ cell.row) : pivotEntry r cell k s j = s.entry j := by
  rw [pivotEntry, if_neg hk, hj, zero_div, zero_mul, sub_zero]

/-- The unit columns survive.  A basic column of another row is not the pivot column,
because the pivot row has nothing in it. -/
theorem HasUnitBasis.pivotOn (h : t.HasUnitBasis) (htol : tol ≤ 1)
    (hr : t.rows[cell.row]? = some r) (hc : cell.column < t.columns.length)
    (hne : r.entry cell.column ≠ 0) : (t.pivotOn r.toRow cell tol).HasUnitBasis := by
  refine ⟨h.shaped.pivotOn hr hc, ?_⟩
  intro i k q s hq hs
  obtain ⟨q₀, hq₀, hqb, -⟩ := entry_pivotOn h.shaped.rectangular hr hc hq
  obtain ⟨s₀, hs₀, -, hse⟩ := entry_pivotOn h.shaped.rectangular hr hc hs
  rw [hse, hqb]
  by_cases hi : i = cell.row
  · rw [if_pos hi, if_pos rfl, hi]
  · rw [if_neg hi]
    have hpivot : r.entry q₀.basic = 0 := by
      rw [h.entry_basic hq₀ hr, if_neg (Ne.symm hi)]
    have hcol : q₀.basic ≠ cell.column := fun hb => hne (hb ▸ hpivot)
    rw [if_neg hcol]
    by_cases hk : k = cell.row
    · rw [pivotEntry, if_pos hk, hpivot, zero_div, snap_zero, if_neg]
      exact fun hki => hi (hki.symm.trans hk)
    · rw [pivotEntry_of_entry_eq_zero hpivot hk, h.entry_basic hq₀ hs₀]
      split
      · exact snap_one htol
      · exact snap_zero tol

theorem entry_objective_pivotOn (ht : t.IsRectangular) (hr : t.rows[cell.row]? = some r)
    (hc : cell.column < t.columns.length) (j : Nat) :
    (t.pivotOn r.toRow cell tol).objective.entry j =
      if j = cell.column then 0
      else snap tol (t.objective.entry j
        - r.entry j / r.entry cell.column * t.objective.entry cell.column) := by
  have hlen : r.coeffs.length = t.columns.length := ht.1 r (List.mem_of_getElem? hr)
  rw [objective_pivotOn, entry_settle_eliminate (ht.2.trans hlen.symm) (hlen ▸ hc)]

theorem IsPriced.pivotOn (h : t.IsPriced) (hunit : t.HasUnitBasis)
    (hr : t.rows[cell.row]? = some r) (hc : cell.column < t.columns.length) :
    (t.pivotOn r.toRow cell tol).IsPriced := by
  intro s hs
  obtain ⟨k, hk⟩ := List.mem_iff_getElem?.mp hs
  obtain ⟨s₀, hs₀, hb, -⟩ := entry_pivotOn hunit.shaped.rectangular hr hc hk
  rw [entry_objective_pivotOn hunit.shaped.rectangular hr hc]
  split
  · rfl
  next hcol =>
    have hkr : k ≠ cell.row := fun hkr => hcol (by rw [hb, if_pos hkr])
    rw [if_neg hkr] at hb
    have hpivot : r.entry s₀.basic = 0 := by
      rw [hunit.entry_basic hs₀ hr, if_neg (Ne.symm hkr)]
    rw [hb, hpivot, h s₀ (List.mem_of_getElem? hs₀), zero_div, zero_mul, sub_zero, snap_zero]

end Pivot

/-! ## Right-hand sides -/

section Rhs

variable {r : BasicRow ℚ} {cell : Cell}

theorem rhs_pivotOn (ht : t.IsShaped) (hr : t.rows[cell.row]? = some r)
    (hc : cell.column < t.columns.length) {k : Nat} {s : BasicRow ℚ}
    (hs : (t.pivotOn r.toRow cell 0).rows[k]? = some s) :
    ∃ s₀, t.rows[k]? = some s₀ ∧
      s.rhs = if k = cell.row then r.rhs / r.entry cell.column
        else s₀.rhs - r.rhs / r.entry cell.column * s₀.entry cell.column := by
  obtain ⟨s₀, hs₀, -, hentry⟩ := entry_pivotOn ht.rectangular hr hc hs
  refine ⟨s₀, hs₀, ?_⟩
  have hlen : s.coeffs.length = t.columns.length := (ht.pivotOn hr hc).length_row hs
  have hrhs := hentry t.columns.length
  rw [if_neg hc.ne', snap_zero_tol, pivotEntry] at hrhs
  rw [← Row.entry_length s.toRow, hlen, hrhs, ← Row.entry_length r.toRow,
    ← Row.entry_length s₀.toRow, ht.length_row hr, ht.length_row hs₀]

theorem objectiveValue_pivotOn (ht : t.IsShaped) (hr : t.rows[cell.row]? = some r)
    (hc : cell.column < t.columns.length) :
    (t.pivotOn r.toRow cell 0).objectiveValue
      = t.objectiveValue - r.rhs / r.entry cell.column * t.objective.entry cell.column := by
  have hlen : (t.pivotOn r.toRow cell 0).objective.coeffs.length = t.columns.length :=
    (ht.pivotOn hr hc).rectangular.2
  have hrhs : (t.pivotOn r.toRow cell 0).objective.entry t.columns.length = _ :=
    entry_objective_pivotOn ht.rectangular hr hc _
  rw [if_neg hc.ne', snap_zero_tol] at hrhs
  rw [objectiveValue, ← Row.entry_length, hlen, hrhs, objectiveValue, ← Row.entry_length r.toRow,
    ← Row.entry_length t.objective, ht.length_row hr, ht.rectangular.2]

/-- The least ratio keeps every right-hand side at zero or above. -/
theorem IsFeasible.pivotOn (h : t.IsFeasible) (ht : t.IsShaped)
    (hr : t.rows[cell.row]? = some r) (hc : cell.column < t.columns.length)
    (hpos : 0 < r.entry cell.column)
    (hleast : ∀ s ∈ t.rows, 0 < s.entry cell.column →
      r.rhs / r.entry cell.column ≤ s.rhs / s.entry cell.column) :
    (t.pivotOn r.toRow cell 0).IsFeasible := by
  have hratio : 0 ≤ r.rhs / r.entry cell.column :=
    div_nonneg (h r (List.mem_of_getElem? hr)) hpos.le
  intro s hs
  obtain ⟨k, hk⟩ := List.mem_iff_getElem?.mp hs
  obtain ⟨s₀, hs₀, hrhs⟩ := rhs_pivotOn ht hr hc hk
  rw [hrhs]
  split
  · exact hratio
  · have hmem := List.mem_of_getElem? hs₀
    rw [sub_nonneg]
    rcases le_or_gt (s₀.entry cell.column) 0 with hle | hgt
    · exact (mul_nonpos_of_nonneg_of_nonpos hratio hle).trans (h s₀ hmem)
    · rw [← le_div_iff₀ hgt]
      exact hleast s₀ hmem hgt

theorem rhs_pivotOn_of_rhs_eq_zero (ht : t.IsShaped) (hr : t.rows[cell.row]? = some r)
    (hc : cell.column < t.columns.length) (hzero : r.rhs = 0) {k : Nat} {s : BasicRow ℚ}
    (hs : (t.pivotOn r.toRow cell 0).rows[k]? = some s) :
    ∃ s₀, t.rows[k]? = some s₀ ∧ s.rhs = s₀.rhs := by
  obtain ⟨s₀, hs₀, hrhs⟩ := rhs_pivotOn ht hr hc hs
  refine ⟨s₀, hs₀, ?_⟩
  rw [hrhs, hzero, zero_div, zero_mul, sub_zero]
  split
  next hk =>
    subst hk
    cases hr.symm.trans hs₀
    exact hzero.symm
  next => rfl

end Rhs

/-! ## Pricing -/

theorem entry_foldl_eliminate (j : Nat) :
    ∀ (rows : List (BasicRow ℚ)) {z : Row ℚ},
      (∀ r ∈ rows, r.coeffs.length = z.coeffs.length) →
      rows.Pairwise (fun r s => r.entry s.basic = 0) →
      (rows.foldl (fun z r => z.eliminate r.basic r.toRow) z).entry j
        = z.entry j - (rows.map fun r => z.entry r.basic * r.entry j).sum
  | [], _, _, _ => by simp
  | r :: rows, z, hlen, hpair => by
      obtain ⟨hfirst, hrest⟩ := List.pairwise_cons.mp hpair
      have hr := (hlen r List.mem_cons_self).symm
      have hz := Row.length_eliminate hr r.basic
      have hsame : ∀ s ∈ rows, (z.eliminate r.basic r.toRow).entry s.basic * s.entry j
          = z.entry s.basic * s.entry j := by
        intro s hs
        rw [Row.entry_eliminate hr, hfirst s hs, zero_mul, sub_zero]
      rw [List.foldl_cons, entry_foldl_eliminate j rows _ hrest, List.map_congr_left hsame,
        Row.entry_eliminate hr, List.map_cons, List.sum_cons]
      · ring
      · rw [hz]
        exact fun s hs => hlen s (List.mem_cons_of_mem _ hs)

theorem HasUnitBasis.pairwise_entry_eq_zero (h : t.HasUnitBasis) :
    t.rows.Pairwise fun r s => r.entry s.basic = 0 := by
  rw [List.pairwise_iff_getElem]
  intro i k hi hk hik
  rw [h.entry_basic (List.getElem?_eq_getElem hk) (List.getElem?_eq_getElem hi), if_neg hik.ne]

theorem entry_negated_costs (costs : List ℚ) (j : Nat) :
    (⟨costs.map (- ·), 0⟩ : Row ℚ).entry j = -costs.getD j 0 := by
  rw [Row.entry, Row.entries, List.getD_eq_getElem?_getD, List.getD_eq_getElem?_getD]
  rcases lt_trichotomy j costs.length with hj | rfl | hj
  · rw [List.getElem?_append_left (by simpa using hj), List.getElem?_map,
      List.getElem?_eq_getElem hj]
    rfl
  · simp
  · rw [List.getElem?_eq_none (by simpa using hj), List.getElem?_eq_none hj.le]
    exact neg_zero.symm

/-- A reduced cost is what the costs of the basic columns make of the column, less its own
cost. -/
theorem HasUnitBasis.entry_pricedRow (h : t.HasUnitBasis) {costs : List ℚ}
    (hcosts : costs.length = t.columns.length) (j : Nat) :
    (t.pricedRow costs).entry j
      = (t.rows.map fun r => costs.getD r.basic 0 * r.entry j).sum - costs.getD j 0 := by
  have hlen : ∀ r ∈ t.rows, r.coeffs.length = (costs.map (- ·)).length := fun r hr => by
    rw [List.length_map, hcosts, h.shaped.rectangular.1 r hr]
  have hrows : (t.rows.map fun r => (⟨costs.map (- ·), 0⟩ : Row ℚ).entry r.basic * r.entry j)
      = t.rows.map fun r => -1 * (costs.getD r.basic 0 * r.entry j) := by
    refine List.map_congr_left fun r _ => ?_
    rw [entry_negated_costs, neg_one_mul, neg_mul]
  rw [pricedRow, entry_foldl_eliminate j _ hlen h.pairwise_entry_eq_zero, hrows,
    List.sum_map_mul_left, entry_negated_costs]
  ring

theorem HasUnitBasis.sum_ite_basic (h : t.HasUnitBasis) {i : Nat} {r : BasicRow ℚ}
    (hr : t.rows[i]? = some r) (c : ℚ) (g : BasicRow ℚ → ℚ) :
    (t.rows.map fun s => (if s.basic = r.basic then c else 0) * g s).sum = c * g r := by
  obtain ⟨hlt, rfl⟩ := List.getElem?_eq_some_iff.mp hr
  rw [← Fin.sum_univ_fun_getElem, Finset.sum_eq_single (⟨i, hlt⟩ : Fin t.rows.length)]
  · rw [if_pos rfl]
  · intro k _ hne
    have hother : t.rows[k.val].basic ≠ t.rows[i].basic := fun hsame =>
      hne (Fin.ext (h.basic_inj (List.getElem?_eq_getElem k.isLt) hr hsame))
    rw [if_neg hother, zero_mul]
  · exact fun hnot => absurd (Finset.mem_univ _) hnot

theorem HasUnitBasis.isPriced_pricedRow (h : t.HasUnitBasis) {costs : List ℚ}
    (hcosts : costs.length = t.columns.length) :
    ({ t with objective := t.pricedRow costs } : Tableau ℚ).IsPriced := by
  intro r hr
  obtain ⟨i, hi⟩ := List.mem_iff_getElem?.mp hr
  have hown : (t.rows.map fun s => costs.getD s.basic 0 * s.entry r.basic)
      = t.rows.map fun s => (if s.basic = r.basic then 1 else 0) * costs.getD s.basic 0 := by
    refine List.map_congr_left fun s hs => ?_
    rw [h.entry_of_mem hr hs, mul_comm]
  show (t.pricedRow costs).entry r.basic = 0
  rw [h.entry_pricedRow hcosts, hown, h.sum_ite_basic hi 1 fun s => costs.getD s.basic 0, one_mul,
    sub_self]

/-! ## Keeping marked columns -/

section Marked

variable {mask : List Bool}

theorem HasUnitBasis.marked (h : t.HasUnitBasis) (hmask : mask.length = t.columns.length)
    (hbasic : ∀ r ∈ t.rows, mask[r.basic]? = some true) : (t.marked mask).HasUnitBasis := by
  refine ⟨h.shaped.marked hmask hbasic, ?_⟩
  intro i m r s hr hs
  have hr : (t.rows.map _)[i]? = some r := hr
  have hs : (t.rows.map _)[m]? = some s := hs
  rw [List.getElem?_map, Option.map_eq_some_iff] at hr hs
  obtain ⟨r₀, hr₀, rfl⟩ := hr
  obtain ⟨s₀, hs₀, rfl⟩ := hs
  rw [← h.entry_basic hr₀ hs₀]
  exact entry_marked (hmask.trans (h.shaped.length_row hs₀).symm)
    (hbasic r₀ (List.mem_of_getElem? hr₀))

theorem IsPriced.marked (h : t.IsPriced) (ht : t.IsRectangular)
    (hmask : mask.length = t.columns.length)
    (hbasic : ∀ r ∈ t.rows, mask[r.basic]? = some true) : (t.marked mask).IsPriced := by
  intro s hs
  obtain ⟨r, hr, rfl⟩ := List.mem_map.mp hs
  rw [← h r hr]
  exact entry_marked (hmask.trans ht.2.symm) (hbasic r hr)

theorem IsFeasible.marked (h : t.IsFeasible) (mask : List Bool) : (t.marked mask).IsFeasible := by
  intro s hs
  obtain ⟨r, hr, rfl⟩ := List.mem_map.mp hs
  exact h r hr

end Marked

/-! ## Reduced tableaux -/

/-- The tableau is solved for its basic columns, the objective row included. -/
structure IsReduced (t : Tableau ℚ) : Prop where
  unit : t.HasUnitBasis
  priced : t.IsPriced

namespace IsReduced

variable {r : BasicRow ℚ} {cell : Cell} {tol : ℚ}

theorem pivotOn (h : t.IsReduced) (htol : tol ≤ 1) (hr : t.rows[cell.row]? = some r)
    (hc : cell.column < t.columns.length) (hne : r.entry cell.column ≠ 0) :
    (t.pivotOn r.toRow cell tol).IsReduced :=
  ⟨h.unit.pivotOn htol hr hc hne, h.priced.pivotOn h.unit hr hc⟩

theorem of_price (h : t.HasUnitBasis) {costs : List ℚ} (hcosts : costs.length = t.columns.length) :
    ({ t with objective := t.pricedRow costs } : Tableau ℚ).IsReduced :=
  ⟨h.with_objective (length_pricedRow h.shaped.rectangular hcosts), h.isPriced_pricedRow hcosts⟩

theorem eraseIdx (h : t.IsReduced) (i : Nat) :
    ({ t with rows := t.rows.eraseIdx i } : Tableau ℚ).IsReduced :=
  ⟨h.unit.eraseIdx i, fun r hr => h.priced r (List.eraseIdx_subset hr)⟩

theorem marked (h : t.IsReduced) {mask : List Bool} (hmask : mask.length = t.columns.length)
    (hbasic : ∀ r ∈ t.rows, mask[r.basic]? = some true) : (t.marked mask).IsReduced :=
  ⟨h.unit.marked hmask hbasic, h.priced.marked h.unit.shaped.rectangular hmask hbasic⟩

end IsReduced

/-- With no tolerance, canonical is reduced and feasible. -/
theorem isCanonical_zero_iff (ht : t.IsRectangular) :
    t.IsCanonical 0 ↔ t.IsReduced ∧ t.IsFeasible := by
  have hexact : ∀ v : ℚ, ¬ 0 < Scalar.abs v ↔ v = 0 := fun v => by
    rw [scalarAbs_eq_abs, abs_pos, not_not]
  simp only [IsCanonical, hexact, sub_eq_zero, neg_zero, not_lt]
  constructor
  · rintro ⟨-, h⟩
    have hrow : ∀ {i r}, t.rows[i]? = some r → _ := fun {i r} hr =>
      h (r, i) (List.mem_zipIdx_iff_getElem?.mpr hr)
    refine ⟨⟨⟨⟨ht, fun r hr => ?_⟩, fun {i k r s} hr hs => ?_⟩, fun r hr => ?_⟩, fun r hr => ?_⟩
    · obtain ⟨i, hi⟩ := List.mem_iff_getElem?.mp hr
      exact (hrow hi).1
    · have hs := getElem?_allRows_of_row hs
      exact (hrow hr).2.2 (s.toRow, k) (List.mem_zipIdx_iff_getElem?.mpr hs)
    · obtain ⟨i, hi⟩ := List.mem_iff_getElem?.mp hr
      have hlt : i < t.rows.length := (List.getElem?_eq_some_iff.mp hi).1
      -- the objective row is the last of all rows
      have hentry := (hrow hi).2.2 (t.objective, t.rows.length)
        (List.mem_zipIdx_iff_getElem?.mpr t.getElem?_allRows_length)
      exact hentry.trans (if_neg hlt.ne')
    · obtain ⟨i, hi⟩ := List.mem_iff_getElem?.mp hr
      exact (hrow hi).2.1
  · rintro ⟨hreduced, hfeasible⟩
    refine ⟨hreduced.unit.nodup_basis, fun ⟨r, i⟩ hr => ?_⟩
    have hr := List.mem_zipIdx_iff_getElem?.mp hr
    have hmem := List.mem_of_getElem? hr
    refine ⟨hreduced.unit.shaped.basic_lt r hmem, hfeasible r hmem, fun ⟨q, k⟩ hq => ?_⟩
    rcases allRows_cases (List.mem_zipIdx_iff_getElem?.mp hq) with ⟨s, hs, rfl⟩ | ⟨rfl, rfl⟩
    · exact hreduced.unit.entry_basic hr hs
    · have hlt : i < t.rows.length := (List.getElem?_eq_some_iff.mp hr).1
      exact (hreduced.priced r hmem).trans (if_neg hlt.ne').symm

end Tableau

end TwoPhase
