/-
# `Equations` — what the rows of a tableau say

A tableau is read as a system of equations, its constraint rows, and a
linear function, the gap of its objective row.  With a tolerance of zero
every operation of the solver is accounted for in these terms: a pivot
changes neither the solutions nor the function on them, pricing installs
the function that the costs give, a row that holds anyway can go, and so
can columns at the end once they are held at zero.
-/
import Mathlib
import TwoPhase.Proofs.Shape
import TwoPhase.Proofs.Row

namespace TwoPhase

namespace Tableau

/-- Every constraint row holds of the vector. -/
def SolvedBy (t : Tableau ℚ) (y : List ℚ) : Prop := ∀ r ∈ t.rows, r.Holds y

theorem SolvedBy.gap_eq_zero {t : Tableau ℚ} {y : List ℚ} (h : t.SolvedBy y) {i : Nat}
    {r : BasicRow ℚ} (hr : t.rows[i]? = some r) : r.gap y = 0 :=
  Row.holds_iff_gap.mp (h r (List.mem_of_getElem? hr))

/-! ## Pivoting -/

section Pivot

variable {t : Tableau ℚ} {r : BasicRow ℚ} {cell : Cell} {y : List ℚ}

theorem entry_scaledRow (r : Row ℚ) (cell : Cell) (k : Nat) :
    (scaledRow r cell).entry k = r.entry k / r.entry cell.column :=
  Row.entry_map_div r _ k

theorem settle_scaledRow {r : Row ℚ} (hc : cell.column < r.coeffs.length)
    (hne : r.entry cell.column ≠ 0) :
    (scaledRow r cell).settle 0 cell.column 1 = scaledRow r cell :=
  Row.settle_zero_tol _ (by simpa using hc) (by rw [entry_scaledRow, div_self hne])

theorem settle_eliminate {r s : Row ℚ} (hlen : s.coeffs.length = r.coeffs.length)
    (hc : cell.column < r.coeffs.length) (hne : r.entry cell.column ≠ 0) :
    (s.eliminate cell.column (scaledRow r cell)).settle 0 cell.column 0
      = s.eliminate cell.column (scaledRow r cell) := by
  have hlen' : s.coeffs.length = (scaledRow r cell).coeffs.length := by simpa using hlen
  refine Row.settle_zero_tol _ ?_ ?_
  · rw [Row.length_eliminate hlen', hlen]
    exact hc
  · rw [Row.entry_eliminate hlen', entry_scaledRow, div_self hne, one_mul, sub_self]

theorem gap_scaledRow (r : Row ℚ) (cell : Cell) (y : List ℚ) :
    (scaledRow r cell).gap y = r.gap y / r.entry cell.column :=
  Row.gap_map_div r _ y

theorem gap_settle_eliminate {r s : Row ℚ} (hlen : s.coeffs.length = r.coeffs.length)
    (hc : cell.column < r.coeffs.length) (hne : r.entry cell.column ≠ 0) (y : List ℚ) :
    ((s.eliminate cell.column (scaledRow r cell)).settle 0 cell.column 0).gap y
      = s.gap y - r.gap y / r.entry cell.column * s.entry cell.column := by
  rw [settle_eliminate hlen hc hne, Row.gap_eliminate (by simpa using hlen), gap_scaledRow]

/-- A pivot on an entry that is not zero keeps the solutions. -/
theorem solvedBy_pivotOn (ht : t.IsRectangular) (hr : t.rows[cell.row]? = some r)
    (hc : cell.column < t.columns.length) (hne : r.entry cell.column ≠ 0) :
    (t.pivotOn r.toRow cell 0).SolvedBy y ↔ t.SolvedBy y := by
  have hlen : r.coeffs.length = t.columns.length := ht.1 r (List.mem_of_getElem? hr)
  have hc' : cell.column < r.coeffs.length := hlen ▸ hc
  constructor
  · intro h
    -- the pivot row first: the others have had a multiple of it taken away
    have hpivot : r.gap y = 0 := by
      have hrow : (t.pivotOn r.toRow cell 0).rows[cell.row]? =
          some ⟨(scaledRow r.toRow cell).settle 0 cell.column 1, cell.column⟩ := by
        rw [getElem?_rows_pivotOn, hr, Option.map_some, if_pos rfl]
      have hgap := h.gap_eq_zero hrow
      rw [settle_scaledRow hc' hne, gap_scaledRow, div_eq_zero_iff] at hgap
      exact hgap.resolve_right hne
    intro s hs
    obtain ⟨k, hk⟩ := List.mem_iff_getElem?.mp hs
    rw [Row.holds_iff_gap]
    by_cases hkr : k = cell.row
    · subst hkr
      cases hr.symm.trans hk
      exact hpivot
    · have hrow : (t.pivotOn r.toRow cell 0).rows[k]? =
          some ⟨(s.toRow.eliminate cell.column (scaledRow r.toRow cell)).settle 0 cell.column 0,
            s.basic⟩ := by
        rw [getElem?_rows_pivotOn, hk, Option.map_some, if_neg hkr]
      have hgap := h.gap_eq_zero hrow
      rwa [gap_settle_eliminate ((ht.1 s hs).trans hlen.symm) hc' hne, hpivot, zero_div, zero_mul,
        sub_zero] at hgap
  · intro h s hs
    have hpivot := h.gap_eq_zero hr
    obtain ⟨k, hk⟩ := List.mem_iff_getElem?.mp hs
    rw [Row.holds_iff_gap]
    rcases pivotOn_row_cases hk with ⟨-, rfl⟩ | ⟨-, s₀, hs₀, rfl⟩
    · rw [settle_scaledRow hc' hne, gap_scaledRow, hpivot, zero_div]
    · have hlen₀ := ht.1 s₀ (List.mem_of_getElem? hs₀)
      rw [gap_settle_eliminate (hlen₀.trans hlen.symm) hc' hne, hpivot, h.gap_eq_zero hs₀]
      ring

/-- A pivot keeps the value of the objective row at every solution. -/
theorem gap_objective_pivotOn (ht : t.IsRectangular) (hr : t.rows[cell.row]? = some r)
    (hc : cell.column < t.columns.length) (hne : r.entry cell.column ≠ 0)
    (hy : t.SolvedBy y) : (t.pivotOn r.toRow cell 0).objective.gap y = t.objective.gap y := by
  have hlen : r.coeffs.length = t.columns.length := ht.1 r (List.mem_of_getElem? hr)
  rw [objective_pivotOn, gap_settle_eliminate (ht.2.trans hlen.symm) (hlen ▸ hc) hne,
    hy.gap_eq_zero hr, zero_div, zero_mul, sub_zero]

end Pivot

/-! ## Pricing -/

theorem gap_foldl_eliminate {y : List ℚ} :
    ∀ (rows : List (BasicRow ℚ)) {z : Row ℚ},
      (∀ r ∈ rows, r.coeffs.length = z.coeffs.length) → (∀ r ∈ rows, r.gap y = 0) →
      (rows.foldl (fun z r => z.eliminate r.basic r.toRow) z).gap y = z.gap y
  | [], _, _, _ => rfl
  | r :: rows, z, hlen, hgap => by
      have hr := (hlen r List.mem_cons_self).symm
      have hz := Row.length_eliminate hr r.basic
      rw [List.foldl_cons, gap_foldl_eliminate rows]
      · rw [Row.gap_eliminate hr, hgap r List.mem_cons_self, zero_mul, sub_zero]
      · rw [hz]
        exact fun s hs => hlen s (List.mem_cons_of_mem _ hs)
      · exact fun s hs => hgap s (List.mem_cons_of_mem _ hs)

/-- The row that pricing installs has the value of the costs at every solution. -/
theorem gap_pricedRow {t : Tableau ℚ} (ht : t.IsRectangular) {costs y : List ℚ}
    (hcosts : costs.length = t.columns.length) (hy : t.SolvedBy y) :
    (t.pricedRow costs).gap y = dot costs y := by
  rw [pricedRow, gap_foldl_eliminate]
  · show 0 - dot (costs.map (- ·)) y = dot costs y
    rw [dot_map_neg, zero_sub, neg_neg]
  · intro r hr
    simpa [hcosts] using ht.1 r hr
  · exact fun r hr => Row.holds_iff_gap.mp (hy r hr)

/-! ## Dropping rows and columns -/

theorem solvedBy_eraseIdx {t : Tableau ℚ} {i : Nat} {r : BasicRow ℚ} {y : List ℚ}
    (hr : t.rows[i]? = some r) (hold : r.Holds y) :
    ({ t with rows := t.rows.eraseIdx i } : Tableau ℚ).SolvedBy y ↔ t.SolvedBy y := by
  constructor
  · intro h s hs
    obtain ⟨k, hk⟩ := List.mem_iff_getElem?.mp hs
    by_cases hki : k = i
    · subst hki
      cases hr.symm.trans hk
      exact hold
    · exact h s (List.mem_eraseIdx_iff_getElem?.mpr ⟨k, hki, hk⟩)
  · exact fun h s hs => h s (List.mem_of_mem_eraseIdx hs)

theorem keepMarked_firstMarked {β : Type} (a : Nat) :
    ∀ (xs : List β) (k : Nat),
      keepMarked (List.replicate k true ++ List.replicate a false) xs = xs.take k
  | [], k => by simp [keepMarked]
  | x :: xs, 0 => by
      have hnone : ∀ q ∈ (List.replicate a false).zip (x :: xs), ¬ q.1 = true := by
        intro q hq
        have := List.eq_of_mem_replicate (List.of_mem_zip hq).1
        simp [this]
      simp [keepMarked, List.filter_eq_nil_iff.mpr hnone]
  | x :: xs, k + 1 => by
      rw [List.replicate_succ, List.cons_append, keepMarked_cons, keepMarked_firstMarked a xs k]
      rfl

/-- The tableau without the columns from the `k`-th on, of which there are `a`. -/
abbrev firstColumns (t : Tableau ℚ) (k a : Nat) : Tableau ℚ :=
  t.marked (List.replicate k true ++ List.replicate a false)

theorem gap_take (r : Row ℚ) {k : Nat} {y : List ℚ} (hy : y.length = k) (a : Nat) :
    (⟨r.coeffs.take k, r.rhs⟩ : Row ℚ).gap y = r.gap (y ++ List.replicate a 0) := by
  subst hy
  show r.rhs - dot (r.coeffs.take y.length) y = r.rhs - dot r.coeffs (y ++ List.replicate a 0)
  rw [dot_take]

theorem solvedBy_firstColumns {t : Tableau ℚ} {k a : Nat} {y : List ℚ} (hy : y.length = k) :
    (t.firstColumns k a).SolvedBy y ↔ t.SolvedBy (y ++ List.replicate a 0) := by
  have hrow : ∀ r : BasicRow ℚ,
      (⟨keepMarked (List.replicate k true ++ List.replicate a false) r.coeffs, r.rhs⟩ :
        Row ℚ).Holds y ↔ r.Holds (y ++ List.replicate a 0) := by
    intro r
    rw [Row.holds_iff_gap, Row.holds_iff_gap, keepMarked_firstMarked, gap_take r.toRow hy a]
  simp only [SolvedBy, firstColumns, marked, List.forall_mem_map]
  exact forall₂_congr fun r _ => hrow r

end Tableau

end TwoPhase
