/-
# `Forms` — a reduced tableau is fixed by its basis

The solutions of a tableau with a unit basis are known by their rays, so
a row with nothing in the basic columns is known by its gap along them.
Two things follow.  The objective row of a reduced tableau is the one that
pricing installs, whatever pivots it came from.  And a row that holds
wherever the tableau is solved is a combination of the tableau's rows, in
which each of them is taken as often as the row's entry in the basic
column says.

So two such tableaux with the same solutions have equally many rows, and
over the same basic columns they have the same rows.  If they agree about
the objective as well, then over one basis they are one tableau.
-/
import Mathlib
import TwoPhase.Proofs.BasicPoint

namespace TwoPhase

namespace Tableau

variable {t : Tableau ℚ}

/-! ## Rows known by their gap -/

theorem HasUnitBasis.row_ext (h : t.HasUnitBasis) {z z' : Row ℚ}
    (hz : z.coeffs.length = t.columns.length) (hz' : z'.coeffs.length = t.columns.length)
    (hpriced : ∀ r ∈ t.rows, z.entry r.basic = 0) (hpriced' : ∀ r ∈ t.rows, z'.entry r.basic = 0)
    (hgap : ∀ y : List ℚ, y.length = t.columns.length → t.SolvedBy y → z.gap y = z'.gap y) :
    z = z' := by
  have hray : ∀ {j : Nat} {s : ℚ}, t.MayRun j s →
      z.rhs - s * z.entry j = z'.rhs - s * z'.entry j := by
    intro j s hj
    have hleft := gap_objective_pointAlong (h.with_objective hz) hpriced hj
    have hright := gap_objective_pointAlong (h.with_objective hz') hpriced' hj
    exact hleft.symm.trans
      ((hgap _ (length_pointAlong t j s) (solvedBy_pointAlong h hj)).trans hright)
  have hrhs : z.rhs = z'.rhs := by
    simpa using hray (@mayRun_zero t 0)
  refine Row.ext_entry (hz.trans hz'.symm) fun j hj => ?_
  rcases hj.lt_or_eq with hlt | rfl
  · by_cases hbasic : ∃ r ∈ t.rows, r.basic = j
    · obtain ⟨r, hr, rfl⟩ := hbasic
      rw [hpriced r hr, hpriced' r hr]
    · have hrun : t.MayRun j 1 := fun _ => ⟨hz ▸ hlt, fun r hr hb => hbasic ⟨r, hr, hb⟩⟩
      have hone := hray hrun
      rw [hrhs, one_mul, one_mul] at hone
      exact sub_right_injective hone
  · rw [Row.entry_length, hz.trans hz'.symm, Row.entry_length, hrhs]

/-- However a reduced tableau was come by, its objective row is the one that pricing
installs. -/
theorem IsReduced.objective_eq_pricedRow (h : t.IsReduced) {costs : List ℚ}
    (hcosts : costs.length = t.columns.length)
    (hgap : ∀ y : List ℚ, y.length = t.columns.length → t.SolvedBy y →
      t.objective.gap y = dot costs y) : t.objective = t.pricedRow costs := by
  have hrect := h.unit.shaped.rectangular
  refine h.unit.row_ext hrect.2 (length_pricedRow hrect hcosts) h.priced
    (h.unit.isPriced_pricedRow hcosts) fun y hy hsolved => ?_
  rw [hgap y hy hsolved, gap_pricedRow hrect hcosts hsolved]

/-- A row that holds at every solution is combined from the rows of the tableau. -/
theorem HasUnitBasis.entry_eq_sum (h : t.HasUnitBasis) {w : Row ℚ}
    (hw : w.coeffs.length = t.columns.length)
    (hold : ∀ y : List ℚ, y.length = t.columns.length → t.SolvedBy y → w.Holds y) {j : Nat}
    (hj : j ≤ t.columns.length) :
    w.entry j = (t.rows.map fun r => w.entry r.basic * r.entry j).sum := by
  have hrect := h.shaped.rectangular
  have hcosts : (w.coeffs.map (- ·)).length = t.columns.length := by rw [List.length_map, hw]
  -- priced, the coefficients of the row leave nothing but the right-hand side
  have hpriced : t.pricedRow (w.coeffs.map (- ·))
      = ⟨List.replicate t.columns.length 0, -w.rhs⟩ := by
    refine h.row_ext (length_pricedRow hrect hcosts) List.length_replicate
      (h.isPriced_pricedRow hcosts) (fun r hr => ?_) fun y hy hsolved => ?_
    · rw [Row.entry_of_lt (by simpa using h.shaped.basic_lt r hr), List.getElem_replicate]
    · rw [gap_pricedRow hrect hcosts hsolved, dot_map_neg, hold y hy hsolved]
      show -w.rhs = -w.rhs - dot (List.replicate _ 0) y
      rw [dot_replicate_zero_left, sub_zero]
  have hcost : ∀ k, (w.coeffs.map (- ·)).getD k 0 = -w.coeffs.getD k 0 := by
    intro k
    simp only [List.getD_eq_getElem?_getD, List.getElem?_map]
    cases w.coeffs[k]? with
    | none => exact neg_zero.symm
    | some v => rfl
  have hentry := h.entry_pricedRow hcosts j
  have hrows : (t.rows.map fun r => (w.coeffs.map (- ·)).getD r.basic 0 * r.entry j)
      = t.rows.map fun r => -1 * (w.entry r.basic * r.entry j) := by
    refine List.map_congr_left fun r hr => ?_
    rw [hcost, ← Row.entry_eq_getD w (hw ▸ h.shaped.basic_lt r hr), neg_one_mul, neg_mul]
  rw [hpriced, hrows, List.sum_map_mul_left, hcost] at hentry
  rcases hj.lt_or_eq with hlt | rfl
  · rw [Row.entry_of_lt (by simpa using hlt), List.getElem_replicate,
      ← Row.entry_eq_getD w (hw ▸ hlt)] at hentry
    linarith
  · have hbeyond : w.coeffs.getD t.columns.length 0 = 0 := List.getD_eq_default _ _ hw.le
    have hlast : (⟨List.replicate t.columns.length 0, -w.rhs⟩ : Row ℚ).entry t.columns.length
        = -w.rhs := by
      simp [Row.entry, Row.entries]
    rw [hbeyond, hlast] at hentry
    rw [← hw, Row.entry_length, hw]
    linarith

theorem HasUnitBasis.entry_add_cost (h : t.HasUnitBasis) {z : Row ℚ} {costs : List ℚ}
    (hz : z.coeffs.length = t.columns.length) (hcosts : costs.length = t.columns.length)
    (hgap : ∀ y : List ℚ, y.length = t.columns.length → t.SolvedBy y → z.gap y = dot costs y)
    {j : Nat} (hj : j ≤ t.columns.length) :
    z.entry j + costs.getD j 0
      = (t.rows.map fun r => (z.entry r.basic + costs.getD r.basic 0) * r.entry j).sum := by
  have hlen : z.coeffs.length = (costs.map (- ·)).length := by rw [List.length_map, hz, hcosts]
  have hentry : ∀ k, (z.subtract 1 ⟨costs.map (- ·), 0⟩).entry k = z.entry k + costs.getD k 0 := by
    intro k
    rw [Row.entry_subtract hlen, entry_negated_costs, mul_one, sub_neg_eq_add]
  have hsum := h.entry_eq_sum (w := z.subtract 1 ⟨costs.map (- ·), 0⟩)
    ((Row.length_subtract hlen 1).trans hz) (fun y hy hsolved => ?_) hj
  · simpa only [hentry] using hsum
  · rw [Row.holds_iff_gap, Row.gap_subtract hlen, hgap y hy hsolved]
    show dot costs y - (0 - dot (costs.map (- ·)) y) * 1 = 0
    rw [dot_map_neg, zero_sub, neg_neg, mul_one, sub_self]

/-! ## Tableaux with the same solutions -/

/-- The rows of the two tableaux are about the same columns and have the same solutions. -/
structure Equivalent (t u : Tableau ℚ) : Prop where
  columns_eq : t.columns = u.columns
  solvedBy_iff : ∀ y : List ℚ, y.length = t.columns.length → (t.SolvedBy y ↔ u.SolvedBy y)

namespace Equivalent

variable {u : Tableau ℚ}

theorem symm (h : t.Equivalent u) : u.Equivalent t :=
  ⟨h.columns_eq.symm, fun y hy => (h.solvedBy_iff y (h.columns_eq ▸ hy)).symm⟩

theorem entry_eq_sum (h : t.Equivalent u) (ht : t.HasUnitBasis) (hu : u.HasUnitBasis)
    {s : BasicRow ℚ} (hs : s ∈ u.rows) {j : Nat} (hj : j ≤ t.columns.length) :
    s.entry j = (t.rows.map fun r => s.entry r.basic * r.entry j).sum := by
  have hlen : s.coeffs.length = t.columns.length := by
    rw [hu.shaped.rectangular.1 s hs, h.columns_eq]
  exact ht.entry_eq_sum hlen (fun y hy hsolved => (h.solvedBy_iff y hy).mp hsolved s hs) hj

theorem row_eq (h : t.Equivalent u) (ht : t.HasUnitBasis) (hu : u.HasUnitBasis)
    (hbasis : t.basis ⊆ u.basis) {r s : BasicRow ℚ} (hr : r ∈ t.rows) (hs : s ∈ u.rows)
    (hb : r.basic = s.basic) : r = s := by
  obtain ⟨i, hi⟩ := List.mem_iff_getElem?.mp hr
  -- of the rows of the one, the row of the other takes that with its own basic column, once
  have hentry : ∀ q ∈ t.rows, s.entry q.basic = if q.basic = r.basic then 1 else 0 := by
    intro q hq
    obtain ⟨q', hq', hsame⟩ := List.mem_map.mp (hbasis (List.mem_map_of_mem hq))
    rw [← hsame, hu.entry_of_mem hq' hs, hb]
    exact if_congr eq_comm rfl rfl
  have hlen : r.coeffs.length = s.coeffs.length := by
    rw [ht.shaped.rectangular.1 r hr, hu.shaped.rectangular.1 s hs, h.columns_eq]
  have hrow : r.toRow = s.toRow := by
    refine Row.ext_entry hlen fun j hj => ?_
    rw [ht.shaped.rectangular.1 r hr] at hj
    have hterms : (t.rows.map fun q => s.entry q.basic * q.entry j)
        = t.rows.map fun q => (if q.basic = r.basic then 1 else 0) * q.entry j :=
      List.map_congr_left fun q hq => by rw [hentry q hq]
    rw [h.entry_eq_sum ht hu hs hj, hterms, ht.sum_ite_basic hi 1 (·.entry j), one_mul]
  cases r
  cases s
  cases hrow
  cases hb
  rfl

/-- Over one and the same basis the rows are the same, in their order. -/
theorem rows_eq (h : t.Equivalent u) (ht : t.HasUnitBasis) (hu : u.HasUnitBasis)
    (hbasis : t.basis = u.basis) : t.rows = u.rows := by
  have hlen : t.rows.length = u.rows.length := by
    simpa [basis] using congrArg List.length hbasis
  refine List.ext_getElem hlen fun k hk hk' => ?_
  have hb : t.rows[k].basic = u.rows[k].basic := by
    have hlt : k < t.basis.length := by simpa [basis] using hk
    simpa [basis] using List.getElem_of_eq hbasis hlt
  exact h.row_eq ht hu (fun _ hj => hbasis ▸ hj) (List.getElem_mem hk) (List.getElem_mem hk') hb

theorem perm_rows (h : t.Equivalent u) (ht : t.HasUnitBasis) (hu : u.HasUnitBasis)
    (hbasis : ∀ j, j ∈ t.basis ↔ j ∈ u.basis) : t.rows.Perm u.rows := by
  refine (List.perm_ext_iff_of_nodup ht.nodup_basis.of_map hu.nodup_basis.of_map).mpr fun r => ?_
  constructor
  · intro hr
    obtain ⟨s, hs, hb⟩ := List.mem_map.mp ((hbasis _).mp (List.mem_map_of_mem hr))
    rwa [h.row_eq ht hu (fun j hj => (hbasis j).mp hj) hr hs hb.symm]
  · intro hr
    obtain ⟨s, hs, hb⟩ := List.mem_map.mp ((hbasis _).mpr (List.mem_map_of_mem hr))
    rwa [h.symm.row_eq hu ht (fun j hj => (hbasis j).mpr hj) hr hs hb.symm]

/-- There are as many rows in the one as in the other: both numbers are the sum of what the
rows have in each other's basic columns. -/
theorem length_rows_eq (h : t.Equivalent u) (ht : t.HasUnitBasis) (hu : u.HasUnitBasis) :
    t.rows.length = u.rows.length := by
  have hcount : ∀ {t u : Tableau ℚ}, t.Equivalent u → t.HasUnitBasis → u.HasUnitBasis →
      (u.rows.length : ℚ) = (u.rows.map fun s =>
        (t.rows.map fun r => s.entry r.basic * r.entry s.basic).sum).sum := by
    intro t u h ht hu
    have hone : ∀ s ∈ u.rows,
        (t.rows.map fun r => s.entry r.basic * r.entry s.basic).sum = 1 := by
      intro s hs
      obtain ⟨k, hk⟩ := List.mem_iff_getElem?.mp hs
      have hlt : s.basic ≤ t.columns.length := h.columns_eq ▸ (hu.shaped.basic_lt s hs).le
      rw [← h.entry_eq_sum ht hu hs hlt, hu.entry_basic hk hk, if_pos rfl]
    rw [List.map_congr_left hone, List.map_const', List.sum_replicate, nsmul_eq_mul, mul_one]
  have hswap : (u.rows.map fun s => (t.rows.map fun r => s.entry r.basic * r.entry s.basic).sum).sum
      = (t.rows.map fun r => (u.rows.map fun s => r.entry s.basic * s.entry r.basic).sum).sum := by
    refine (Multiset.sum_map_sum_map (u.rows : Multiset (BasicRow ℚ))
      (t.rows : Multiset (BasicRow ℚ))).trans ?_
    refine congrArg List.sum (List.map_congr_left fun r _ => ?_)
    exact congrArg List.sum (List.map_congr_left fun s _ => mul_comm _ _)
  have hsame : (t.rows.length : ℚ) = u.rows.length := by
    rw [hcount h ht hu, hcount h.symm hu ht, hswap]
  exact_mod_cast hsame

end Equivalent

/-! ## Tableaux that agree about the objective -/

/-- The tableaux have the same solutions, and the same objective at each of them. -/
structure Agrees (t u : Tableau ℚ) : Prop extends t.Equivalent u where
  gap_objective : ∀ y : List ℚ, y.length = t.columns.length → t.SolvedBy y →
    t.objective.gap y = u.objective.gap y

/-- The tableaux differ in nothing but the order of the constraint rows, each of which takes
its basic column along. -/
structure IsReordering (t u : Tableau ℚ) : Prop where
  columns_eq : t.columns = u.columns
  objective_eq : t.objective = u.objective
  perm_rows : t.rows.Perm u.rows

namespace Agrees

variable {u v : Tableau ℚ}

theorem refl (t : Tableau ℚ) : t.Agrees t :=
  ⟨⟨rfl, fun _ _ => .rfl⟩, fun _ _ _ => rfl⟩

theorem symm (h : t.Agrees u) : u.Agrees t := by
  refine ⟨h.toEquivalent.symm, fun y hy hsolved => ?_⟩
  rw [← h.columns_eq] at hy
  exact (h.gap_objective y hy ((h.solvedBy_iff y hy).mpr hsolved)).symm

theorem trans (h : t.Agrees u) (h' : u.Agrees v) : t.Agrees v := by
  refine ⟨⟨h.columns_eq.trans h'.columns_eq, fun y hy => ?_⟩, fun y hy hsolved => ?_⟩
  · exact (h.solvedBy_iff y hy).trans (h'.solvedBy_iff y (h.columns_eq ▸ hy))
  · exact (h.gap_objective y hy hsolved).trans
      (h'.gap_objective y (h.columns_eq ▸ hy) ((h.solvedBy_iff y hy).mp hsolved))

theorem objective_eq (h : t.Agrees u) (ht : t.IsReduced) (hu : u.IsReduced)
    (hbasis : t.basis ⊆ u.basis) : t.objective = u.objective := by
  have hwidth : u.objective.coeffs.length = t.columns.length := by
    rw [hu.unit.shaped.rectangular.2, h.columns_eq]
  refine ht.unit.row_ext ht.unit.shaped.rectangular.2 hwidth ht.priced ?_ h.gap_objective
  intro r hr
  obtain ⟨s, hs, hb⟩ := List.mem_map.mp (hbasis (List.mem_map_of_mem hr))
  rw [← hb]
  exact hu.priced s hs

theorem isReordering (h : t.Agrees u) (ht : t.IsReduced) (hu : u.IsReduced)
    (hbasis : ∀ j, j ∈ t.basis ↔ j ∈ u.basis) : t.IsReordering u :=
  ⟨h.columns_eq, h.objective_eq ht hu fun j hj => (hbasis j).mp hj,
    h.perm_rows ht.unit hu.unit hbasis⟩

theorem eq_of_basis_eq (h : t.Agrees u) (ht : t.IsReduced) (hu : u.IsReduced)
    (hbasis : t.basis = u.basis) : t = u := by
  have hrows := h.rows_eq ht.unit hu.unit hbasis
  have hobjective := h.objective_eq ht hu fun _ hj => hbasis ▸ hj
  have hcolumns := h.columns_eq
  cases t
  cases u
  cases hcolumns
  cases hrows
  cases hobjective
  rfl

end Agrees

end Tableau

end TwoPhase
