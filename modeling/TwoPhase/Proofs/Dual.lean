/-
# `Dual` — the last objective row weighs the constraints

In a program without equations every constraint has a slack or a surplus
column, and at an optimum the objective row holds a multiplier for it
there.  The multipliers certify the optimum without the solver: taken as
often as they say, the constraints add up to one that has at least the
cost of each variable on its left-hand side and the value of the optimum
on its right.

Solved for the slack and surplus columns the equations are a tableau too.
The solver need not come by it, and it may be far from feasible, but it
has the same solutions as the final tableau.  So the two have equally many
rows, and what pivoting has added to the costs is combined from the
constraints, each taken as often as its own column says.
-/
import Mathlib
import TwoPhase.Proofs.Completion
import TwoPhase.Proofs.Forms

namespace TwoPhase

namespace StandardForm

/-! ## The equations solved for slack and surplus -/

/-- The slack or surplus column of a row that is no equation. -/
def ownColumn (i : Nat) : Relation → Column
  | .atMost => .slack i
  | _ => .surplus i

/-- The equation of a row over the columns that are not artificial. -/
def slackRow (cs : List (NormalConstraint ℚ)) (c : NormalConstraint ℚ) (i : Nat) : Row ℚ :=
  ⟨c.coeffs ++ (slackColumns cs).map (unitEntry i), c.rhs⟩

/-- The equations solved for the slack and surplus columns. -/
def slackTableau (p : Program ℚ) : Tableau ℚ where
  columns := realColumns p
  rows := (normalized p).zipIdx.map fun (c, i) =>
    ⟨(slackRow (normalized p) c i).map (· / slackSign c.relation),
      (realColumns p).idxOf (ownColumn i c.relation)⟩
  objective := ⟨(realColumns p).map fun _ => 0, 0⟩

section Rows

variable {cs : List (NormalConstraint ℚ)} {c : NormalConstraint ℚ} {i k : Nat}

theorem slackColumn_eq_ownColumn (h : c.relation.IsInequality) :
    c.slackColumn i = some (ownColumn i c.relation) := by
  rw [NormalConstraint.slackColumn]
  cases hrel : c.relation with
  | atMost => rfl
  | atLeast => rfl
  | equal => exact absurd hrel h

theorem ownColumn_inj {relation relation' : Relation}
    (h : ownColumn i relation = ownColumn k relation') : i = k := by
  cases relation <;> cases relation' <;> cases h <;> rfl

theorem ownColumn_ne_decision (relation : Relation) (k : Nat) :
    ownColumn i relation ≠ .decision k := by
  cases relation <;> exact Column.noConfusion

theorem ownColumn_mem_slackColumns (hc : cs[i]? = some c) (h : c.relation.IsInequality) :
    ownColumn i c.relation ∈ slackColumns cs :=
  mem_zipIdx_filterMap.mpr ⟨i, c, hc, slackColumn_eq_ownColumn h⟩

theorem isInequality_normalize {c : Constraint ℚ} (h : c.relation.IsInequality) :
    c.normalize.relation.IsInequality := by
  rw [Constraint.normalize]
  split
  · show c.relation.flip ≠ .equal
    cases hrel : c.relation with
    | atMost => exact Relation.noConfusion
    | atLeast => exact Relation.noConfusion
    | equal => exact absurd hrel h
  · exact h

theorem unitEntry_ownColumn {c' : NormalConstraint ℚ} (hc : cs[i]? = some c)
    (hc' : cs[k]? = some c') (h : c.relation.IsInequality) (h' : c'.relation.IsInequality) :
    unitEntry k (ownColumn i c.relation) / slackSign c'.relation = if k = i then 1 else 0 := by
  rw [unitEntry_of_mem_slackColumns hc' (ownColumn_mem_slackColumns hc h),
    slackColumn_eq_ownColumn h']
  by_cases hki : k = i
  · subst hki
    cases hc.symm.trans hc'
    rw [if_pos rfl, if_pos rfl, div_self (slackSign_ne_zero (slackColumn_eq_ownColumn h (i := k)))]
  · rw [if_neg fun hsame => hki (ownColumn_inj (Option.some.inj hsame)), if_neg hki, zero_div]

end Rows

section Program

variable {p : Program ℚ} {c : NormalConstraint ℚ} {i j : Nat} {r : BasicRow ℚ} {y : List ℚ}

theorem length_coeffs_normalized (h : p.objection = none) (hc : (normalized p)[i]? = some c) :
    c.coeffs.length = p.numVars := by
  obtain ⟨c₀, hc₀, rfl⟩ := List.mem_map.mp (List.mem_of_getElem? hc)
  rw [length_coeffs_normalize, (of_objection_eq_none h).2.2 c₀ hc₀]

theorem isInequality_normalized (hne : ∀ c ∈ p.constraints, c.relation.IsInequality)
    (hc : (normalized p)[i]? = some c) : c.relation.IsInequality := by
  obtain ⟨c₀, hc₀, rfl⟩ := List.mem_map.mp (List.mem_of_getElem? hc)
  exact isInequality_normalize (hne c₀ hc₀)

theorem getElem?_slackTableau_rows (p : Program ℚ) (i : Nat) :
    (slackTableau p).rows[i]? = (normalized p)[i]?.map fun c =>
      ⟨(slackRow (normalized p) c i).map (· / slackSign c.relation),
        (realColumns p).idxOf (ownColumn i c.relation)⟩ := by
  show ((normalized p).zipIdx.map _)[i]? = _
  rw [List.getElem?_map, List.getElem?_zipIdx, Option.map_map, Nat.zero_add]
  rfl

theorem slackTableau_row (hr : (slackTableau p).rows[i]? = some r) :
    ∃ c, (normalized p)[i]? = some c ∧
      r = ⟨(slackRow (normalized p) c i).map (· / slackSign c.relation),
        (realColumns p).idxOf (ownColumn i c.relation)⟩ := by
  rw [getElem?_slackTableau_rows] at hr
  obtain ⟨c, hc, rfl⟩ := Option.map_eq_some_iff.mp hr
  exact ⟨c, hc, rfl⟩

theorem length_slackRow (h : p.objection = none) (hc : (normalized p)[i]? = some c) :
    (slackRow (normalized p) c i).coeffs.length = (realColumns p).length := by
  rw [length_realColumns, ← length_coeffs_normalized h hc, slackRow, List.length_append,
    List.length_map]

theorem entry_slackRow_of_lt (h : p.objection = none) (hc : (normalized p)[i]? = some c)
    (hj : j < p.numVars) : (slackRow (normalized p) c i).entry j = c.coeffs.getD j 0 := by
  have hlt : j < c.coeffs.length := (length_coeffs_normalized h hc).symm ▸ hj
  have hle : j < (slackRow (normalized p) c i).coeffs.length := by
    rw [slackRow, List.length_append]
    exact Nat.lt_add_right _ hlt
  rw [Row.entry_eq_getD _ hle, slackRow, List.getD_append _ _ _ _ hlt]

theorem entry_slackRow_last (h : p.objection = none) (hc : (normalized p)[i]? = some c) :
    (slackRow (normalized p) c i).entry (realColumns p).length = c.rhs := by
  rw [← length_slackRow h hc, Row.entry_length]
  rfl

theorem getElem?_idxOf_ownColumn (hne : ∀ c ∈ p.constraints, c.relation.IsInequality)
    (hc : (normalized p)[i]? = some c) :
    (realColumns p)[(realColumns p).idxOf (ownColumn i c.relation)]?
      = some (ownColumn i c.relation) := by
  have hmem : ownColumn i c.relation ∈ realColumns p :=
    List.mem_append_right _ (ownColumn_mem_slackColumns hc (isInequality_normalized hne hc))
  rw [List.getElem?_eq_getElem (List.idxOf_lt_length_iff.mpr hmem), List.getElem_idxOf]

theorem isShaped_slackTableau (h : p.objection = none)
    (hne : ∀ c ∈ p.constraints, c.relation.IsInequality) : (slackTableau p).IsShaped := by
  refine ⟨⟨fun r hr => ?_, List.length_map _⟩, fun r hr => ?_⟩
  · obtain ⟨i, hi⟩ := List.mem_iff_getElem?.mp hr
    obtain ⟨c, hc, rfl⟩ := slackTableau_row hi
    exact (Row.length_map _ _).trans (length_slackRow h hc)
  · obtain ⟨i, hi⟩ := List.mem_iff_getElem?.mp hr
    obtain ⟨c, hc, rfl⟩ := slackTableau_row hi
    exact (List.getElem?_eq_some_iff.mp (getElem?_idxOf_ownColumn hne hc)).1

theorem hasUnitBasis_slackTableau (h : p.objection = none)
    (hne : ∀ c ∈ p.constraints, c.relation.IsInequality) : (slackTableau p).HasUnitBasis := by
  refine ⟨isShaped_slackTableau h hne, fun {i k r s} hr hs => ?_⟩
  obtain ⟨c, hc, rfl⟩ := slackTableau_row hr
  obtain ⟨c', hc', rfl⟩ := slackTableau_row hs
  have hplace := getElem?_idxOf_ownColumn hne hc
  show ((slackRow (normalized p) c' k).map (· / slackSign c'.relation)).entry _ = _
  rw [Row.entry_map_div, slackRow,
    entry_append_map (length_coeffs_normalized h hc') hplace (ownColumn_ne_decision _)]
  exact unitEntry_ownColumn hc hc' (isInequality_normalized hne hc)
    (isInequality_normalized hne hc')

theorem holds_slackRow_iff (h : p.objection = none) {c : Constraint ℚ}
    (hc : p.constraints[i]? = some c) (hr : (layout p).rows[i]? = some r)
    (hy : y.length = (realColumns p).length) :
    r.Holds ((layout p).extend y) ↔ (slackRow (normalized p) c.normalize i).Holds y := by
  obtain ⟨c', hc', rfl⟩ := layout_row hr
  cases hc.symm.trans hc'
  have hlen : (c.normalize.coeffs ++ (slackColumns (normalized p)).map (unitEntry i)).length
      = y.length := (length_slackRow h (normalized_getElem? hc)).trans hy.symm
  show dot (c.normalize.coeffs ++ (slackColumns _ ++ artificialPart _).map (unitEntry i))
    (y ++ List.replicate _ 0) = _ ↔ _
  rw [List.map_append, ← List.append_assoc, dot_append hlen, dot_replicate_zero_right, add_zero]
  exact Iff.rfl

/-- Solved for slack and surplus or not, the equations have the same solutions. -/
theorem solvedBy_slackTableau_iff (h : p.objection = none)
    (hne : ∀ c ∈ p.constraints, c.relation.IsInequality) (hy : y.length = (realColumns p).length) :
    (slackTableau p).SolvedBy y ↔ (layout p).SolvedBy ((layout p).extend y) := by
  have hsign : ∀ {i : Nat} {c : NormalConstraint ℚ}, (normalized p)[i]? = some c →
      slackSign c.relation ≠ 0 := fun {i c} hc =>
    slackSign_ne_zero (slackColumn_eq_ownColumn (isInequality_normalized hne hc) (i := i))
  constructor
  · intro hsolved r hr
    obtain ⟨i, hi⟩ := List.mem_iff_getElem?.mp hr
    obtain ⟨c, hc, -⟩ := layout_row hi
    have hc' := normalized_getElem? hc
    have hi' := getElem?_slackTableau_rows p i
    rw [hc', Option.map_some] at hi'
    have hrow := hsolved _ (List.mem_of_getElem? hi')
    exact (holds_slackRow_iff h hc hi hy).mpr ((Row.holds_map_div (hsign hc') y).mp hrow)
  · intro hsolved s hs
    obtain ⟨i, hi⟩ := List.mem_iff_getElem?.mp hs
    obtain ⟨c, hc, rfl⟩ := slackTableau_row hi
    obtain ⟨c₀, hc₀, rfl⟩ : ∃ c₀, p.constraints[i]? = some c₀ ∧ c₀.normalize = c := by
      rwa [List.getElem?_map, Option.map_eq_some_iff] at hc
    obtain ⟨r, hr⟩ := exists_layout_row hc₀
    have hrow := hsolved r (List.mem_of_getElem? hr)
    exact (Row.holds_map_div (hsign hc) y).mpr ((holds_slackRow_iff h hc₀ hr hy).mp hrow)

end Program

end StandardForm

/-! ## Multipliers -/

open StandardForm

namespace Tableau

variable {t : Tableau ℚ}

/-- The multiplier of a constraint: what the objective row has under its slack, or the negation
of what it has under its surplus. -/
def multiplier (t : Tableau ℚ) (i : Nat) : Relation → ℚ
  | .atMost => t.objective.entry (t.columns.idxOf (.slack i))
  | .atLeast => -t.objective.entry (t.columns.idxOf (.surplus i))
  | .equal => 0

def multipliers (t : Tableau ℚ) (cs : List (NormalConstraint ℚ)) : List ℚ :=
  cs.zipIdx.map fun (c, i) => t.multiplier i c.relation

/-- The tableau has a row for each of the constraints, and its multipliers certify its objective
for the given costs of the first `n` variables. -/
structure CertifiesDual (t : Tableau ℚ) (cs : List (NormalConstraint ℚ)) (costs : List ℚ)
    (n : Nat) : Prop where
  length_rows : t.rows.length = cs.length
  atMost : ∀ i c, cs[i]? = some c → c.relation = .atMost →
    .slack i ∈ t.columns ∧ 0 ≤ t.multiplier i .atMost
  atLeast : ∀ i c, cs[i]? = some c → c.relation = .atLeast →
    .surplus i ∈ t.columns ∧ t.multiplier i .atLeast ≤ 0
  cost_le : ∀ j < n, costs.getD j 0 ≤ dot (t.multipliers cs) (cs.map (·.coeffs.getD j 0))
  rhs_eq : dot (t.multipliers cs) (cs.map (·.rhs)) = t.objectiveValue

theorem multiplier_eq {relation : Relation} (h : relation.IsInequality) (t : Tableau ℚ) (i : Nat) :
    t.multiplier i relation
      = t.objective.entry (t.columns.idxOf (ownColumn i relation)) / slackSign relation := by
  cases relation with
  | atMost => exact (div_one _).symm
  | atLeast => rw [slackSign, div_neg, div_one]; rfl
  | equal => exact absurd rfl h

theorem dot_multipliers (t : Tableau ℚ) (cs : List (NormalConstraint ℚ))
    (g : NormalConstraint ℚ → ℚ) : dot (t.multipliers cs) (cs.map g)
      = (cs.zipIdx.map fun q => t.multiplier q.2 q.1.relation * g q.1).sum := by
  have hmap : cs.map g = cs.zipIdx.map fun q => g q.1 := by
    conv_lhs => rw [← List.zipIdx_map_fst 0 cs, List.map_map]
    rfl
  rw [hmap, multipliers, dot_map_map]

namespace CertifiesDual

variable {cs : List (NormalConstraint ℚ)} {costs x : List ℚ} {n : Nat}

theorem dot_lhs_le (h : t.CertifiesDual cs costs n) (hx : ∀ c ∈ cs, c.Holds x) :
    dot (t.multipliers cs) (cs.map fun c => dot c.coeffs x)
      ≤ dot (t.multipliers cs) (cs.map (·.rhs)) := by
  rw [dot_multipliers, dot_multipliers]
  refine List.sum_le_sum ?_
  rintro ⟨c, i⟩ hmem
  have hc := List.mem_zipIdx_iff_getElem?.mp hmem
  have hold := hx c (List.mem_of_getElem? hc)
  show t.multiplier i c.relation * _ ≤ t.multiplier i c.relation * _
  cases hrel : c.relation with
  | atMost =>
      exact mul_le_mul_of_nonneg_left ((Constraint.holds_atMost hrel).mp hold)
        (h.atMost i c hc hrel).2
  | atLeast =>
      exact mul_le_mul_of_nonpos_left ((Constraint.holds_atLeast hrel).mp hold)
        (h.atLeast i c hc hrel).2
  | equal =>
      show (0 : ℚ) * _ ≤ 0 * _
      rw [zero_mul, zero_mul]

theorem dot_costs_le (h : t.CertifiesDual cs costs n) (hlen : ∀ c ∈ cs, c.coeffs.length = n)
    (hxlen : x.length = n) (hnonneg : ∀ v ∈ x, 0 ≤ v) (hx : ∀ c ∈ cs, c.Holds x) :
    dot costs x ≤ t.objectiveValue := by
  have hlhs : (cs.map fun c => ∑ j ∈ Finset.range n, c.coeffs.getD j 0 * x.getD j 0)
      = cs.map fun c => dot c.coeffs x := by
    refine List.map_congr_left fun c hc => ?_
    rw [dot_eq_sum_range, hlen c hc]
  calc dot costs x
      = ∑ j ∈ Finset.range n, costs.getD j 0 * x.getD j 0 := by rw [dot_eq_sum_range_right, hxlen]
    _ ≤ ∑ j ∈ Finset.range n,
          dot (t.multipliers cs) (cs.map (·.coeffs.getD j 0)) * x.getD j 0 := by
        refine Finset.sum_le_sum fun j hj => ?_
        exact mul_le_mul_of_nonneg_right (h.cost_le j (Finset.mem_range.mp hj))
          (getD_nonneg hnonneg j)
    _ = dot (t.multipliers cs) (cs.map fun c => dot c.coeffs x) := by rw [sum_dot_mul, hlhs]
    _ ≤ dot (t.multipliers cs) (cs.map (·.rhs)) := h.dot_lhs_le hx
    _ = t.objectiveValue := h.rhs_eq

end CertifiesDual

theorem entry_objective_nonneg (ht : t.IsRectangular) (hopt : t.choose 0 = .ok .optimal) {j : Nat}
    (hj : j < t.columns.length) : 0 ≤ t.objective.entry j := by
  have hnone := entering_eq_none_iff.mp (entering_of_optimal ht hopt)
  have hlt : j < t.objective.coeffs.length := ht.2.symm ▸ hj
  rw [Row.entry_of_lt hlt]
  simpa using hnone _ (List.getElem_mem hlt)

end Tableau

section Program

variable {p : Program ℚ} {t : Tableau ℚ} {i j : Nat} {c : NormalConstraint ℚ}

theorem equivalent_slackTableau (ht : t.Expresses (layout p).phaseTwoAim) (h : p.objection = none)
    (hne : ∀ c ∈ p.constraints, c.relation.IsInequality) : t.Equivalent (slackTableau p) := by
  have hcolumns := columns_eq_realColumns ht
  refine ⟨hcolumns, fun y hy => ?_⟩
  rw [hcolumns] at hy
  rw [solvedBy_slackTableau_iff h hne hy]
  exact ht.solvedBy_iff y (by rw [columns_phaseTwoAim, hy])

theorem multiplier_eq_of_normalized (h : p.objection = none)
    (hne : ∀ c ∈ p.constraints, c.relation.IsInequality) (hcolumns : t.columns = realColumns p)
    (hc : (normalized p)[i]? = some c) :
    (t.objective.entry ((realColumns p).idxOf (ownColumn i c.relation))
        + ((layout p).costs.take (realColumns p).length).getD
          ((realColumns p).idxOf (ownColumn i c.relation)) 0) / slackSign c.relation
      = t.multiplier i c.relation := by
  have hplace := getElem?_idxOf_ownColumn hne hc
  have hlt := (List.getElem?_eq_some_iff.mp hplace).1
  have hfree : ((layout p).costs.take (realColumns p).length).getD
      ((realColumns p).idxOf (ownColumn i c.relation)) 0 = 0 := by
    rw [List.getD_eq_getElem?_getD, List.getElem?_take_of_lt hlt, ← List.getD_eq_getElem?_getD]
    exact getD_costs_layout_of_le h
      (le_of_getElem?_decisions_append hplace (ownColumn_ne_decision _))
  rw [hfree, add_zero, ← hcolumns, t.multiplier_eq (isInequality_normalized hne hc)]

/-- Taken as often as the multipliers say, the constraints have in a column what the objective
row has there beyond the negated cost. -/
theorem Tableau.Pursues.dot_multipliers (ht : t.Pursues (layout p).phaseTwoAim)
    (h : p.objection = none) (hne : ∀ c ∈ p.constraints, c.relation.IsInequality)
    (hj : j ≤ (realColumns p).length) {g : NormalConstraint ℚ → ℚ}
    (hg : ∀ i c, (normalized p)[i]? = some c → (slackRow (normalized p) c i).entry j = g c) :
    dot (t.multipliers (normalized p)) ((normalized p).map g)
      = t.objective.entry j + ((layout p).costs.take (realColumns p).length).getD j 0 := by
  have hcolumns := columns_eq_realColumns ht.expresses
  have hcosts : ((layout p).costs.take (realColumns p).length).length = (realColumns p).length := by
    rw [← map_costOf_realColumns h, List.length_map]
  have hgap : ∀ y : List ℚ, y.length = (realColumns p).length → (slackTableau p).SolvedBy y →
      t.objective.gap y = dot ((layout p).costs.take (realColumns p).length) y := by
    intro y hy hsolved
    have hlen : y.length = (layout p).phaseTwoAim.columns.length := by
      rw [columns_phaseTwoAim, hy]
    rw [ht.expresses.gap_objective y hlen ((solvedBy_slackTableau_iff h hne hy).mp hsolved), ← hy]
    exact (dot_take _ _ _).symm
  have hsum := (hasUnitBasis_slackTableau h hne).entry_add_cost
    (ht.shaped.rectangular.2.trans (congrArg _ hcolumns)) hcosts hgap hj
  rw [hsum, Tableau.dot_multipliers]
  show _ = (((normalized p).zipIdx.map _).map _).sum
  rw [List.map_map]
  refine congrArg List.sum (List.map_congr_left ?_)
  rintro ⟨c, i⟩ hmem
  have hc : (normalized p)[i]? = some c := List.mem_zipIdx_iff_getElem?.mp hmem
  show t.multiplier i c.relation * g c
    = _ * ((slackRow _ c i).map (· / slackSign c.relation)).entry j
  rw [Row.entry_map_div, hg i c hc, ← multiplier_eq_of_normalized h hne hcolumns hc,
    div_mul_eq_mul_div, mul_div_assoc]

/-- Where phase 2 ends in an optimum, the multipliers certify it. -/
theorem Tableau.Pursues.certifiesDual (ht : t.Pursues (layout p).phaseTwoAim)
    (hopt : t.choose 0 = .ok .optimal) (h : p.objection = none)
    (hne : ∀ c ∈ p.constraints, c.relation.IsInequality) :
    t.CertifiesDual (normalized p) (layout p).costs p.numVars := by
  have hcolumns := columns_eq_realColumns ht.expresses
  have hrect := ht.shaped.rectangular
  -- no column has a negative reduced cost, or one could still enter
  have hreduced : ∀ {j}, j < (realColumns p).length → 0 ≤ t.objective.entry j := fun hj =>
    entry_objective_nonneg hrect hopt (hcolumns ▸ hj)
  have hown : ∀ i c, (normalized p)[i]? = some c → ownColumn i c.relation ∈ t.columns ∧
      0 ≤ t.objective.entry (t.columns.idxOf (ownColumn i c.relation)) := by
    intro i c hc
    have hplace := getElem?_idxOf_ownColumn hne hc
    rw [hcolumns]
    exact ⟨List.mem_of_getElem? hplace, hreduced (List.getElem?_eq_some_iff.mp hplace).1⟩
  have hwidth : p.numVars ≤ (realColumns p).length := by
    rw [length_realColumns]
    exact Nat.le_add_right _ _
  constructor
  case length_rows =>
    rw [(equivalent_slackTableau ht.expresses h hne).length_rows_eq ht.basic.unit
      (hasUnitBasis_slackTableau h hne)]
    exact (List.length_map _).trans List.length_zipIdx
  case atMost =>
    intro i c hc hrel
    obtain ⟨hmem, hnonneg⟩ := hown i c hc
    rw [hrel] at hmem hnonneg
    exact ⟨hmem, hnonneg⟩
  case atLeast =>
    intro i c hc hrel
    obtain ⟨hmem, hnonneg⟩ := hown i c hc
    rw [hrel] at hmem hnonneg
    exact ⟨hmem, neg_nonpos.mpr hnonneg⟩
  case cost_le =>
    intro j hj
    have hlt := hj.trans_le hwidth
    rw [ht.dot_multipliers h hne hlt.le fun i c hc => entry_slackRow_of_lt h hc hj,
      List.getD_eq_getElem?_getD (l := List.take _ _), List.getElem?_take_of_lt hlt,
      ← List.getD_eq_getElem?_getD]
    exact le_add_of_nonneg_left (hreduced hlt)
  case rhs_eq =>
    have hlen : ((layout p).costs.take (realColumns p).length).length ≤ (realColumns p).length :=
      List.length_take_le _ _
    have hlast : t.objective.entry (realColumns p).length = t.objectiveValue := by
      rw [← hcolumns, ← hrect.2, Row.entry_length]
      rfl
    rw [ht.dot_multipliers h hne le_rfl fun i c hc => entry_slackRow_last h hc, hlast,
      List.getD_eq_default _ _ hlen, add_zero]

/-- The certificate speaks for itself: no feasible point is worth more. -/
theorem Tableau.CertifiesDual.value_le
    (ht : t.CertifiesDual (normalized p) (layout p).costs p.numVars) (h : p.objection = none)
    {x : List ℚ} (hx : p.IsFeasible x) : p.direction.signed (p.value x) ≤ t.objectiveValue := by
  rw [← dot_costs_layout h hx.length_eq [], List.append_nil]
  refine ht.dot_costs_le (fun c hc => ?_) hx.length_eq hx.nonneg fun c hc => ?_
  · obtain ⟨i, hi⟩ := List.mem_iff_getElem?.mp hc
    exact length_coeffs_normalized h hi
  · obtain ⟨c₀, hc₀, rfl⟩ := List.mem_map.mp hc
    exact (Constraint.holds_normalize c₀ x).mpr (hx.holds c₀ hc₀)

/-- An exact solve that finds the optimum of a program without equations drops no row, and its
final tableau certifies the objective: the multipliers have the sign that the relation of their
constraint asks for, cover the cost of every variable and make the objective of the right-hand
sides. -/
theorem optimum_certifiesDual (h : p.objection = none)
    (hne : ∀ c ∈ p.constraints, c.relation.IsInequality) (m : Option Nat) :
    ∃ f r, ofProgram p = .ok f ∧ solve ⟨0, 0, m⟩ p = .ok r ∧ (r.status = .optimal →
      ∃ t, r.final = some t ∧
        t.CertifiesDual (p.constraints.map (·.normalize)) f.costs p.numVars) := by
  obtain ⟨r, hr⟩ := exists_report ⟨0, 0, m⟩ p
  refine ⟨layout p, r, ofProgram_eq_ok h, hr, fun hstatus => ?_⟩
  obtain ⟨run, hrun, rfl⟩ := exists_settled_of_optimal h hr hstatus
  have hpursued : run.HasPursued (layout p) 2 := hrun.heeds h
  exact ⟨_, rfl, hpursued.pursues.certifiesDual hpursued.optimal h hne⟩

/-- Both relations, and a right-hand side below zero. -/
theorem optimum_certifiesDual_mixed :
    let p : Program ℚ := ⟨2, [2, 3], [⟨[1, 1], .atLeast, 2⟩, ⟨[-1, -3], .atMost, -3⟩,
      ⟨[1, 0], .atMost, 5⟩], .minimize⟩
    ∃ f r t, ofProgram p = .ok f ∧ solve ⟨0, 0, none⟩ p = .ok r ∧ r.status = .optimal ∧
      r.final = some t ∧ t.CertifiesDual (p.constraints.map (·.normalize)) f.costs p.numVars := by
  intro p
  obtain ⟨f, r, hf, hr, hcertified⟩ :=
    optimum_certifiesDual (p := p) (by decide +kernel) (by decide +kernel) none
  have hend : (solve ⟨0, 0, none⟩ p).toOption.map (·.status) = some .optimal := by decide +kernel
  rw [hr] at hend
  have hstatus : r.status = .optimal := Option.some.inj hend
  obtain ⟨t, hfinal, ht⟩ := hcertified hstatus
  exact ⟨f, r, t, hf, hr, hstatus, hfinal, ht⟩

-- the multipliers of the three constraints, and what they make of the right-hand sides
example : (solve ⟨0, 0, none⟩ ⟨2, [2, 3], [⟨[1, 1], .atLeast, 2⟩, ⟨[-1, -3], .atMost, -3⟩,
    ⟨[1, 0], .atMost, 5⟩], .minimize⟩ : Except Fault (Report _ ℚ)).toOption.bind
      (fun r => r.final.map fun t => (t.rows.length, [t.multiplier 0 .atLeast,
        t.multiplier 1 .atLeast, t.multiplier 2 .atMost], t.objectiveValue)) =
    some (3, [-3 / 2, -1 / 2, 0], -9 / 2) := by decide +kernel

end Program

end TwoPhase
