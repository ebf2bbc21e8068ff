/-
# `Pricing` — the objective row that costs install

Pricing goes through the rows one after the other.  Each is taken as often
as the objective row, changed by the rows before it, has something in its
basic column, and a row whose column has nothing there is passed over.
Where the basic columns are unit vectors this comes to the same as taking
all rows at once: no row has anything in the basic columns of the others.
So the reduced costs have a closed form, and neither the order of the rows
nor the objective row of before has a part in it.
-/
import Mathlib
import TwoPhase.Proofs.Forms
import TwoPhase.Proofs.Solution

namespace TwoPhase

namespace Tableau

variable {t : Tableau ℚ} {costs : List ℚ}

theorem HasUnitBasis.pricedRow_of_perm (h : t.HasUnitBasis) {rows : List (BasicRow ℚ)}
    (hperm : rows.Perm t.rows) (hcosts : costs.length = t.columns.length) :
    ({ t with rows } : Tableau ℚ).pricedRow costs = t.pricedRow costs := by
  have h' := h.of_perm hperm
  refine Row.ext_entry ?_ fun j _ => ?_
  · rw [length_pricedRow h.shaped.rectangular hcosts]
    exact length_pricedRow h'.shaped.rectangular hcosts
  · rw [h.entry_pricedRow hcosts, h'.entry_pricedRow hcosts]
    congr 1
    exact (hperm.map _).sum_eq

theorem HasUnitBasis.rhs_pricedRow (h : t.HasUnitBasis)
    (hcosts : costs.length = t.columns.length) :
    (t.pricedRow costs).rhs = dot costs t.basicPoint := by
  have hreduced := IsReduced.of_price h hcosts
  rw [← gap_pricedRow h.shaped.rectangular hcosts (solvedBy_basicPoint h)]
  exact (gap_objective_basicPoint hreduced.unit hreduced.priced).symm

/-- Where the basic columns are unit vectors, pricing changes nothing but the objective row.
The new one has the reduced costs of the closed form, which are zero in the basic columns, and
the value of the basic solution.  It is the same for every order of the rows and every
objective row to begin with. -/
theorem price_closed_form (h : t.HasUnitBasis) (hcosts : costs.length = t.columns.length) :
    ∃ u x, t.price costs = .ok u ∧ t.basicSolution = .ok x ∧
      u.columns = t.columns ∧ u.rows = t.rows ∧ u.IsRectangular ∧
      (∀ j < t.columns.length, u.objective.entry j
        = (t.rows.map fun r => costs.getD r.basic 0 * r.entry j).sum - costs.getD j 0) ∧
      u.objective.rhs = dot costs x ∧ (∀ r ∈ t.rows, u.objective.entry r.basic = 0) ∧
      ∀ rows z, rows.Perm t.rows → z.coeffs.length = t.columns.length →
        ({ t with rows, objective := z } : Tableau ℚ).price costs = .ok { u with rows } := by
  have hpriced := IsReduced.of_price h hcosts
  refine ⟨{ t with objective := t.pricedRow costs }, t.basicPoint, price_of_shaped h.shaped hcosts,
    basicSolution_eq h.shaped.basic_lt h.nodup_basis, rfl, rfl, hpriced.unit.shaped.rectangular,
    fun j _ => h.entry_pricedRow hcosts j, h.rhs_pricedRow hcosts, hpriced.priced, ?_⟩
  intro rows z hperm hz
  have hshaped := ((h.of_perm hperm).with_objective hz).shaped
  have hrow : ({ t with rows, objective := z } : Tableau ℚ).pricedRow costs
      = t.pricedRow costs := h.pricedRow_of_perm hperm hcosts
  rw [price_of_shaped hshaped hcosts, hrow]

/-- The objective row of before is of no use, and the rows may be taken in reverse. -/
theorem price_closed_form_reverse :
    let t : Tableau ℚ := ⟨[.decision 0, .decision 1, .slack 0, .slack 1],
      [⟨⟨[1, 2, 0, 1], 4⟩, 0⟩, ⟨⟨[0, 3, 1, -1], 5⟩, 2⟩], ⟨[7, 7, 7, 7], 7⟩⟩
    ∃ u, t.price [3, 1, 2, 0] = .ok u ∧ t.basicSolution = .ok [4, 0, 5, 0] ∧
      u.rows = t.rows ∧ u.objective.entry 1 = 11 ∧ u.objective.entry 3 = 1 ∧
      u.objective.rhs = 22 ∧
      ({ t with rows := t.rows.reverse } : Tableau ℚ).price [3, 1, 2, 0]
        = .ok { u with rows := t.rows.reverse } := by
  intro t
  have hcanonical : ({ t with objective := ⟨[0, 0, 0, 0], 0⟩ } : Tableau ℚ).IsCanonical 0 := by
    decide +kernel
  have ht : t.HasUnitBasis :=
    ((isCanonical_zero_iff (by decide)).mp hcanonical).1.unit.with_objective (by decide)
  have hcosts : [3, 1, 2, (0 : ℚ)].length = t.columns.length := rfl
  obtain ⟨u, x, hu, hx, -, hrows, -, hentry, hrhs, -, horder⟩ := price_closed_form ht hcosts
  have hsolution : t.basicSolution = .ok [4, 0, 5, 0] := rfl
  cases hsolution.symm.trans hx
  refine ⟨u, hu, hsolution, hrows, (hentry 1 (by decide)).trans (by decide +kernel),
    (hentry 3 (by decide)).trans (by decide +kernel), hrhs.trans (by decide +kernel),
    horder _ t.objective (List.reverse_perm _) rfl⟩

end Tableau

end TwoPhase
