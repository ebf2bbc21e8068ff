/-
# `Shape` — tableaux on which no operation faults

A tableau is shaped when its rows fit its columns and its basic columns
exist.  On a shaped tableau every checked operation goes through, whatever
the arithmetic returns, and the operation's own total function gives the
result; and each of them leaves a shaped tableau.
-/
import Mathlib
import TwoPhase.Proofs.Choice
import TwoPhase.Proofs.Row

namespace TwoPhase

variable {α : Type}

/-! ## Keeping the marked elements -/

theorem keepMarked_cons {β : Type} (b : Bool) (mask : List Bool) (x : β) (xs : List β) :
    keepMarked (b :: mask) (x :: xs) =
      if b then x :: keepMarked mask xs else keepMarked mask xs := by
  cases b <;> rfl

theorem length_keepMarked {β : Type} :
    ∀ {mask : List Bool} {xs : List β}, mask.length = xs.length →
      (keepMarked mask xs).length = mask.count true
  | [], [], _ => rfl
  | [], _ :: _, h => by simp at h
  | _ :: _, [], h => by simp at h
  | b :: mask, x :: xs, h => by
      have ih : (keepMarked mask xs).length = mask.count true :=
        length_keepMarked (by simpa using h)
      rw [keepMarked_cons, List.count_cons]
      cases b <;> simp [ih]

namespace Tableau

theorem rank_lt_count {mask : List Bool} {j : Nat} (h : mask[j]? = some true) :
    rank mask j < mask.count true := by
  rw [rank]
  have hj : j < mask.length := (List.getElem?_eq_some_iff.mp h).1
  have hget : mask[j] = true := (List.getElem?_eq_some_iff.mp h).2
  have hsplit : mask.count true = (mask.take j).count true + (mask.drop j).count true := by
    rw [← List.count_append, List.take_append_drop]
  rw [hsplit, List.drop_eq_getElem_cons hj, hget, List.count_cons_self]
  omega

theorem getElem?_keepMarked {β : Type} :
    ∀ {mask : List Bool} {xs : List β} {j : Nat}, mask[j]? = some true →
      (keepMarked mask xs)[rank mask j]? = xs[j]?
  | [], _, _, h => by simp at h
  | _ :: _, [], _, _ => by simp [keepMarked]
  | b :: mask, x :: xs, 0, h => by
      obtain rfl : b = true := by simpa using h
      rw [keepMarked_cons]
      rfl
  | b :: mask, x :: xs, j + 1, h => by
      have ih : (keepMarked mask xs)[rank mask j]? = xs[j]? :=
        getElem?_keepMarked (by simpa using h)
      have hrank : rank (b :: mask) (j + 1) = rank mask j + if b then 1 else 0 := by
        rw [rank, List.take_succ_cons, List.count_cons]
        cases b <;> rfl
      rw [keepMarked_cons, hrank]
      cases b <;> simpa using ih

/-- Every row fits the columns, and every basic column is one of them. -/
structure IsShaped (t : Tableau α) : Prop where
  rectangular : t.IsRectangular
  basic_lt : ∀ r ∈ t.rows, r.basic < t.columns.length

theorem IsShaped.length_row {t : Tableau α} (h : t.IsShaped) {i : Nat} {r : BasicRow α}
    (hr : t.rows[i]? = some r) : r.coeffs.length = t.columns.length :=
  h.rectangular.1 r (List.mem_of_getElem? hr)

theorem IsShaped.basic_lt_of_row {t : Tableau α} (h : t.IsShaped) {i : Nat} {r : BasicRow α}
    (hr : t.rows[i]? = some r) : r.basic < t.columns.length :=
  h.basic_lt r (List.mem_of_getElem? hr)

theorem IsShaped.of_subset {t : Tableau α} (h : t.IsShaped) {rows : List (BasicRow α)}
    (hsub : rows ⊆ t.rows) : ({ t with rows } : Tableau α).IsShaped :=
  ⟨⟨fun r hr => h.rectangular.1 r (hsub hr), h.rectangular.2⟩,
    fun r hr => h.basic_lt r (hsub hr)⟩

/-! ## Dropping rows and columns -/

theorem dropRow_of_lt {t : Tableau α} {i : Nat} (h : i < t.rows.length) :
    t.dropRow i = .ok { t with rows := t.rows.eraseIdx i } := by
  rw [dropRow, require_bind_of h]
  rfl

theorem IsShaped.marked {t : Tableau α} (h : t.IsShaped) {mask : List Bool}
    (hmask : mask.length = t.columns.length)
    (hbasic : ∀ r ∈ t.rows, mask[r.basic]? = some true) : (t.marked mask).IsShaped := by
  have hcolumns : (keepMarked mask t.columns).length = mask.count true :=
    length_keepMarked hmask
  refine ⟨⟨?_, ?_⟩, ?_⟩
  · intro s hs
    obtain ⟨r, hr, rfl⟩ := List.mem_map.mp hs
    show (keepMarked mask r.coeffs).length = (keepMarked mask t.columns).length
    rw [hcolumns, length_keepMarked (hmask.trans (h.rectangular.1 r hr).symm)]
  · show (keepMarked mask t.objective.coeffs).length = (keepMarked mask t.columns).length
    rw [hcolumns, length_keepMarked (hmask.trans h.rectangular.2.symm)]
  · intro s hs
    obtain ⟨r, hr, rfl⟩ := List.mem_map.mp hs
    show rank mask r.basic < (keepMarked mask t.columns).length
    rw [hcolumns]
    exact rank_lt_count (hbasic r hr)

theorem restrict_of_shaped {t : Tableau α} (h : t.IsShaped) {mask : List Bool}
    (hmask : mask.length = t.columns.length)
    (hbasic : ∀ r ∈ t.rows, mask[r.basic]? = some true) :
    t.restrict mask = .ok (t.marked mask) := by
  rw [restrict, require_bind_of h.rectangular, require_bind_of hmask, require_bind_of hbasic]
  rfl

variable [Scalar α] {t : Tableau α} {tol : α}

theorem entry_marked {mask : List Bool} {r : Row α} (hmask : mask.length = r.coeffs.length)
    {j : Nat} (hj : mask[j]? = some true) :
    (⟨keepMarked mask r.coeffs, r.rhs⟩ : Row α).entry (rank mask j) = r.entry j := by
  have hlt : j < r.coeffs.length := hmask ▸ (List.getElem?_eq_some_iff.mp hj).1
  have hrank : rank mask j < (keepMarked mask r.coeffs).length := by
    rw [length_keepMarked hmask]
    exact rank_lt_count hj
  rw [Row.entry_of_lt hlt, Row.entry_of_lt hrank, ← Option.some_inj, ← List.getElem?_eq_getElem,
    ← List.getElem?_eq_getElem, getElem?_keepMarked hj]

/-! ## Pivoting -/

/-- The row that is pivoted on, divided by the entry in the pivot column. -/
abbrev scaledRow (r : Row α) (cell : Cell) : Row α := r.map (· / r.entry cell.column)

@[simp] theorem columns_pivotOn (t : Tableau α) (r : Row α) (cell : Cell) (tol : α) :
    (t.pivotOn r cell tol).columns = t.columns := rfl

@[simp] theorem length_rows_pivotOn (t : Tableau α) (r : Row α) (cell : Cell) (tol : α) :
    (t.pivotOn r cell tol).rows.length = t.rows.length := by
  simp [pivotOn]

theorem getElem?_rows_pivotOn (t : Tableau α) (r : Row α) (cell : Cell) (tol : α) (k : Nat) :
    (t.pivotOn r cell tol).rows[k]? = t.rows[k]?.map fun s =>
      if k = cell.row then ⟨(scaledRow r cell).settle tol cell.column 1, cell.column⟩
      else ⟨(s.toRow.eliminate cell.column (scaledRow r cell)).settle tol cell.column 0,
        s.basic⟩ := by
  simp only [pivotOn, List.getElem?_mapIdx]

theorem objective_pivotOn (t : Tableau α) (r : Row α) (cell : Cell) (tol : α) :
    (t.pivotOn r cell tol).objective =
      (t.objective.eliminate cell.column (scaledRow r cell)).settle tol cell.column 0 := rfl

/-- The row a pivot leaves at a place, given the one it finds there. -/
theorem pivotOn_row_cases {r : Row α} {cell : Cell} {k : Nat} {s : BasicRow α}
    (h : (t.pivotOn r cell tol).rows[k]? = some s) :
    (k = cell.row ∧
      s = ⟨(scaledRow r cell).settle tol cell.column 1, cell.column⟩) ∨
    (k ≠ cell.row ∧ ∃ s₀, t.rows[k]? = some s₀ ∧
      s = ⟨(s₀.toRow.eliminate cell.column (scaledRow r cell)).settle tol cell.column 0,
        s₀.basic⟩) := by
  rw [getElem?_rows_pivotOn, Option.map_eq_some_iff] at h
  obtain ⟨s₀, hs₀, hs⟩ := h
  by_cases hk : k = cell.row
  · rw [if_pos hk] at hs
    exact .inl ⟨hk, hs.symm⟩
  · rw [if_neg hk] at hs
    exact .inr ⟨hk, s₀, hs₀, hs.symm⟩

theorem basis_pivotOn (t : Tableau α) (r : Row α) (cell : Cell) (tol : α) :
    (t.pivotOn r cell tol).basis = t.basis.set cell.row cell.column := by
  refine List.ext_getElem? fun k => ?_
  rw [basis, basis, List.getElem?_map, getElem?_rows_pivotOn, List.getElem?_set,
    List.getElem?_map, List.length_map]
  by_cases hk : k = cell.row
  · subst hk
    cases hr : t.rows[cell.row]? with
    | none => simpa using hr
    | some s => simp [(List.getElem?_eq_some_iff.mp hr).1]
  · rw [if_neg (Ne.symm hk)]
    cases t.rows[k]? with
    | none => rfl
    | some s => simp [hk]

theorem IsRectangular.pivotOn (h : t.IsRectangular) {r : BasicRow α} {cell : Cell}
    (hr : t.rows[cell.row]? = some r) : (t.pivotOn r.toRow cell tol).IsRectangular := by
  have hscaled : (scaledRow r.toRow cell).coeffs.length = t.columns.length := by
    rw [Row.length_map, h.1 r (List.mem_of_getElem? hr)]
  refine ⟨fun s hs => ?_, ?_⟩
  · obtain ⟨k, hk⟩ := List.mem_iff_getElem?.mp hs
    rcases pivotOn_row_cases hk with ⟨-, rfl⟩ | ⟨-, s₀, hs₀, rfl⟩
    · simpa using hscaled
    · have hlen := h.1 s₀ (List.mem_of_getElem? hs₀)
      simp only [Row.length_settle, columns_pivotOn]
      rw [Row.length_eliminate (hlen.trans hscaled.symm), hlen]
  · rw [objective_pivotOn, Row.length_settle, Row.length_eliminate (h.2.trans hscaled.symm)]
    exact h.2

theorem IsShaped.pivotOn (h : t.IsShaped) {r : BasicRow α} {cell : Cell}
    (hr : t.rows[cell.row]? = some r) (hc : cell.column < t.columns.length) :
    (t.pivotOn r.toRow cell tol).IsShaped := by
  refine ⟨h.rectangular.pivotOn hr, fun s hs => ?_⟩
  obtain ⟨k, hk⟩ := List.mem_iff_getElem?.mp hs
  rcases pivotOn_row_cases hk with ⟨-, rfl⟩ | ⟨-, s₀, hs₀, rfl⟩
  · exact hc
  · exact h.basic_lt s₀ (List.mem_of_getElem? hs₀)

theorem pivot_of_row (h : t.IsRectangular) {r : BasicRow α} {cell : Cell}
    (hr : t.rows[cell.row]? = some r) (hc : cell.column < t.columns.length) :
    t.pivot cell tol = .ok (t.pivotOn r.toRow cell tol) := by
  rw [pivot, require_bind_of h, require_bind_of hc, hr]
  rfl

theorem pivot_of_shaped (h : t.IsShaped) {r : BasicRow α} {cell : Cell}
    (hr : t.rows[cell.row]? = some r) (hc : cell.column < t.columns.length) :
    t.pivot cell tol = .ok (t.pivotOn r.toRow cell tol) :=
  pivot_of_row h.rectangular hr hc

theorem cell_of_choose (h : t.IsRectangular) {cell : Cell}
    (hc : t.choose tol = .ok (.pivot cell)) :
    cell.column < t.columns.length ∧
      ∃ r, t.rows[cell.row]? = some r ∧ tol < r.entry cell.column := by
  obtain ⟨hj, hi⟩ := entering_of_pivot h hc
  exact ⟨entering_lt h hj, leastRatioRow_some hi⟩

/-! ## Pricing -/

theorem length_foldl_eliminate :
    ∀ (rows : List (BasicRow α)) {z : Row α},
      (∀ r ∈ rows, r.coeffs.length = z.coeffs.length) →
      (rows.foldl (fun z r => z.eliminate r.basic r.toRow) z).coeffs.length = z.coeffs.length
  | [], _, _ => rfl
  | r :: rows, z, h => by
      have hz := Row.length_eliminate (h r List.mem_cons_self).symm r.basic
      rw [List.foldl_cons, length_foldl_eliminate rows fun s hs => ?_, hz]
      rw [hz]
      exact h s (List.mem_cons_of_mem _ hs)

theorem length_pricedRow (h : t.IsRectangular) {costs : List α}
    (hcosts : costs.length = t.columns.length) :
    (t.pricedRow costs).coeffs.length = t.columns.length := by
  rw [pricedRow, length_foldl_eliminate]
  · simpa using hcosts
  · intro r hr
    simpa [hcosts] using h.1 r hr

theorem IsShaped.price (h : t.IsShaped) {costs : List α}
    (hcosts : costs.length = t.columns.length) :
    ({ t with objective := t.pricedRow costs } : Tableau α).IsShaped :=
  ⟨⟨h.rectangular.1, length_pricedRow h.rectangular hcosts⟩, h.basic_lt⟩

theorem price_of_shaped (h : t.IsShaped) {costs : List α}
    (hcosts : costs.length = t.columns.length) :
    t.price costs = .ok { t with objective := t.pricedRow costs } := by
  rw [Tableau.price, require_bind_of h.rectangular, require_bind_of hcosts,
    require_bind_of fun r hr => (h.basic_lt r hr).le]
  rfl

end Tableau

end TwoPhase
