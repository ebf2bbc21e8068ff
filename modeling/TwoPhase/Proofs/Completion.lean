/-
# `Completion` — each feasible point has one place in the standard form

A vector over the columns of a standard form completes a point when it
has the point's values in the decision columns, zeros in the artificial
ones, no negative entry, and solves the equations.  A point is feasible
exactly where it has a completion.  There is never more than one: every
slack or surplus column has an entry in the row it belongs to and in no
other, so that row fixes its value.
-/
import Mathlib
import TwoPhase.Proofs.Phases

namespace TwoPhase

namespace StandardForm

/-- The vector completes the point to a solution of the equations in which nothing is
artificial. -/
structure IsCompletion (f : StandardForm ℚ) (x y : List ℚ) : Prop where
  length_eq : y.length = f.columns.length
  nonneg : ∀ v ∈ y, 0 ≤ v
  decision : ∀ i j : Nat, f.columns[j]? = some (.decision i) → y[j]? = x[i]?
  artificial : ∀ i j : Nat, f.columns[j]? = some (.artificial i) → y[j]? = some 0
  solves : f.SolvedBy y

/-! ## Slack and surplus are fixed by their rows -/

section Slack

variable {cs : List (NormalConstraint ℚ)} {i j : Nat} {x : NormalConstraint ℚ} {c : Column}

theorem slackPart_eq_mul (hx : cs[i]? = some x) (hc : x.slackColumn i = some c)
    (hj : (slackColumns cs)[j]? = some c) (w : List ℚ) :
    slackPart cs i w = slackSign x.relation * w.getD j 0 := by
  obtain ⟨hlt, hget⟩ := List.getElem?_eq_some_iff.mp hj
  rw [slackPart, dot_eq_sum_range, List.length_map]
  rw [Finset.sum_eq_single_of_mem j (Finset.mem_range.mpr hlt)]
  · rw [List.getD_eq_getElem _ _ (by simpa using hlt), List.getElem_map, hget,
      unitEntry_of_mem_slackColumns hx (List.mem_of_getElem? hj), if_pos hc]
  · intro k hk hne
    have hlt' := Finset.mem_range.mp hk
    have hother : (slackColumns cs)[k] ≠ c := by
      rw [← hget]
      exact fun h => hne ((List.Nodup.getElem_inj_iff nodup_slackColumns).mp h)
    rw [List.getD_eq_getElem _ _ (by simpa using hlt'), List.getElem_map,
      unitEntry_of_mem_slackColumns hx (List.getElem_mem hlt'), hc,
      if_neg fun h => hother (Option.some.inj h).symm, zero_mul]

theorem slackSign_ne_zero (hc : x.slackColumn i = some c) : slackSign x.relation ≠ 0 := by
  rcases NormalConstraint.slackColumn_eq_some_iff.mp hc with ⟨hrel, -⟩ | ⟨hrel, -⟩
  · rw [hrel]
    exact one_ne_zero
  · rw [hrel]
    exact neg_ne_zero.mpr one_ne_zero

/-- Slack and surplus values that make the same of every row are the same. -/
theorem eq_of_slackPart_eq {w w' : List ℚ} (hw : w.length = (slackColumns cs).length)
    (hw' : w'.length = (slackColumns cs).length)
    (h : ∀ i x, cs[i]? = some x → slackPart cs i w = slackPart cs i w') : w = w' := by
  refine List.ext_getElem (hw.trans hw'.symm) fun j hj hj' => ?_
  have hcol : (slackColumns cs)[j]? = some (slackColumns cs)[j] :=
    List.getElem?_eq_getElem (hw ▸ hj)
  obtain ⟨i, x, hx, hc⟩ := mem_zipIdx_filterMap.mp (List.mem_of_getElem? hcol)
  have hpart := h i x hx
  rw [slackPart_eq_mul hx hc hcol, slackPart_eq_mul hx hc hcol] at hpart
  have hvalue := mul_left_cancel₀ (slackSign_ne_zero hc) hpart
  rwa [List.getD_eq_getElem _ _ hj, List.getD_eq_getElem _ _ hj'] at hvalue

end Slack

/-! ## What a completion looks like -/

section Layout

variable {p : Program ℚ} {x y : List ℚ}

theorem getElem?_columns_eq_decision_iff {i j : Nat} :
    (layout p).columns[j]? = some (.decision i) ↔ i = j ∧ j < p.numVars :=
  getElem?_decisions_append_iff fun _ => decision_notMem_addedColumns

theorem length_realColumns_le_of_artificial {i j : Nat}
    (h : (layout p).columns[j]? = some (.artificial i)) : (realColumns p).length ≤ j := by
  by_contra hlt
  obtain ⟨c, hc, hreal⟩ := getElem?_columns_of_lt (not_le.mp hlt)
  cases h.symm.trans hc
  exact hreal trivial

theorem exists_getElem?_columns_eq_artificial {j : Nat} (hge : (realColumns p).length ≤ j)
    (hlt : j < (layout p).columns.length) :
    ∃ i, (layout p).columns[j]? = some (.artificial i) := by
  obtain ⟨col, hcol⟩ : ∃ col, (layout p).columns[j]? = some col :=
    ⟨_, List.getElem?_eq_getElem hlt⟩
  have hpart := hcol
  rw [columns_layout_eq, List.getElem?_append_right hge] at hpart
  obtain ⟨i, c, -, hc⟩ := mem_zipIdx_filterMap.mp (List.mem_of_getElem? hpart)
  obtain ⟨-, rfl⟩ := NormalConstraint.artificialColumn_eq_some_iff.mp hc
  exact ⟨i, hcol⟩

theorem IsCompletion.exists_eq_extend (hy : (layout p).IsCompletion x y)
    (hx : x.length = p.numVars) :
    ∃ w, w.length = (slackColumns (normalized p)).length ∧ y = (layout p).extend (x ++ w) := by
  have hlen := hy.length_eq.trans (length_columns_layout p)
  rw [length_realColumns] at hlen
  refine ⟨(y.drop p.numVars).take (slackColumns (normalized p)).length, ?_, ?_⟩
  · rw [List.length_take, List.length_drop]
    omega
  refine List.ext_getElem? fun j => ?_
  rw [extend, List.append_assoc]
  -- decision variables first, then slack and surplus, then the artificial ones
  rcases lt_or_ge j p.numVars with hj | hj
  · rw [List.getElem?_append_left (hx ▸ hj)]
    exact hy.decision j j (getElem?_columns_eq_decision_iff.mpr ⟨rfl, hj⟩)
  rw [List.getElem?_append_right (hx ▸ hj), hx]
  rcases lt_or_ge j (realColumns p).length with hj' | hj'
  · rw [length_realColumns] at hj'
    rw [List.getElem?_append_left (by rw [List.length_take, List.length_drop]; omega),
      List.getElem?_take_of_lt (by omega), List.getElem?_drop]
    congr 1
    omega
  have hreal := length_realColumns p
  rw [List.getElem?_append_right (by rw [List.length_take, List.length_drop]; omega),
    List.length_take, List.length_drop, List.getElem?_replicate]
  rcases lt_or_ge j (layout p).columns.length with hlt | hge
  · obtain ⟨i, hi⟩ := exists_getElem?_columns_eq_artificial hj' hlt
    rw [hy.artificial i j hi, if_pos]
    have := length_columns_layout p
    omega
  · rw [List.getElem?_eq_none (hy.length_eq ▸ hge), if_neg]
    have := length_columns_layout p
    omega

/-- Slack and surplus that solve the equations without artificial help complete a point. -/
theorem isCompletion_extend (hx : x.length = p.numVars) {w : List ℚ}
    (hw : w.length = (slackColumns (normalized p)).length) (hnonneg : ∀ v ∈ x ++ w, 0 ≤ v)
    (hsolved : (layout p).SolvedBy ((layout p).extend (x ++ w))) :
    (layout p).IsCompletion x ((layout p).extend (x ++ w)) := by
  have hreal : (x ++ w).length = (realColumns p).length := by
    rw [length_realColumns, List.length_append, hx, hw]
  refine ⟨?_, nonneg_extend hnonneg, fun i j hj => ?_, fun i j hj => ?_, hsolved⟩
  · rw [length_extend, hreal, length_columns_layout]
  · obtain ⟨rfl, hlt⟩ := getElem?_columns_eq_decision_iff.mp hj
    rw [extend, List.append_assoc, List.getElem?_append_left (hx ▸ hlt)]
  · have hge := length_realColumns_le_of_artificial hj
    have hlt := (List.getElem?_eq_some_iff.mp hj).1
    rw [length_columns_layout] at hlt
    rw [extend, List.getElem?_append_right (hreal ▸ hge), List.getElem?_replicate,
      if_pos (by omega)]

theorem IsCompletion.eq (h : p.objection = none) (hx : x.length = p.numVars) {y' : List ℚ}
    (hy : (layout p).IsCompletion x y) (hy' : (layout p).IsCompletion x y') : y' = y := by
  obtain ⟨w, hw, rfl⟩ := hy.exists_eq_extend hx
  obtain ⟨w', hw', rfl⟩ := hy'.exists_eq_extend hx
  have hsame : w' = w := by
    refine eq_of_slackPart_eq hw' hw fun i n hn => ?_
    rw [List.getElem?_map, Option.map_eq_some_iff] at hn
    obtain ⟨c, hc, -⟩ := hn
    obtain ⟨r, hr⟩ := exists_layout_row hc
    have hmem := List.mem_of_getElem? hr
    have hrow := (holds_extend_iff h hc hr hx hw).mp (hy.solves r hmem)
    have hrow' := (holds_extend_iff h hc hr hx hw').mp (hy'.solves r hmem)
    exact add_left_cancel (hrow'.trans hrow.symm)
  rw [hsame]

theorem isFeasible_iff_exists_isCompletion (h : p.objection = none)
    (hx : x.length = p.numVars) : p.IsFeasible x ↔ ∃ y, (layout p).IsCompletion x y := by
  rw [isFeasible_iff h]
  constructor
  · rintro ⟨-, w, hw, hnonneg, hsolved⟩
    exact ⟨_, isCompletion_extend hx hw hnonneg hsolved⟩
  · rintro ⟨y, hy⟩
    obtain ⟨w, hw, rfl⟩ := hy.exists_eq_extend hx
    exact ⟨hx, w, hw, fun v hv => hy.nonneg v (List.mem_append_left _ hv), hy.solves⟩

theorem IsCompletion.dot_costs (h : p.objection = none) (hx : x.length = p.numVars)
    (hy : (layout p).IsCompletion x y) :
    dot (layout p).costs y = p.direction.signed (p.value x) := by
  obtain ⟨w, -, rfl⟩ := hy.exists_eq_extend hx
  rw [extend, List.append_assoc, dot_costs_layout h hx]

end Layout

end StandardForm

/-! ## The program and its standard form -/

/-- A program to which there is no objection is laid out as equations with right-hand sides
that are not negative.  They are the program again: a point is feasible exactly where it
has a completion, it has at most one, and the costs weigh it as the objective weighs the
point, with the sign turned where the program is to be minimised. -/
theorem standardForm_equivalent {p : Program ℚ} (h : p.objection = none) :
    ∃ f, StandardForm.ofProgram p = .ok f ∧ (∀ r ∈ f.rows, 0 ≤ r.rhs) ∧
      ∀ x : List ℚ, x.length = p.numVars →
        (p.IsFeasible x ↔ ∃ y, f.IsCompletion x y) ∧
        ∀ y, f.IsCompletion x y → (∀ y', f.IsCompletion x y' → y' = y) ∧
          dot f.costs y = p.direction.signed (p.value x) := by
  refine ⟨StandardForm.layout p, StandardForm.ofProgram_eq_ok h,
    StandardForm.isFeasible_tableau p, fun x hx => ⟨?_, fun y hy => ⟨fun y' hy' => ?_, ?_⟩⟩⟩
  · exact StandardForm.isFeasible_iff_exists_isCompletion h hx
  · exact hy.eq h hx hy'
  · exact hy.dot_costs h hx

/-- An equation, and one row of each relation whose right-hand side is negative. -/
theorem standardForm_equivalent_mixed :
    let p : Program ℚ := ⟨2, [1, -2], [⟨[-1, -1], .atLeast, -4⟩, ⟨[1, -1], .atMost, -1⟩,
      ⟨[-1, -2], .equal, -6⟩, ⟨[1, 0], .atLeast, 0⟩], .minimize⟩
    ∃ f, StandardForm.ofProgram p = .ok f ∧ (∀ r ∈ f.rows, 0 ≤ r.rhs) ∧
      ∀ x : List ℚ, x.length = p.numVars →
        (p.IsFeasible x ↔ ∃ y, f.IsCompletion x y) ∧
        ∀ y, f.IsCompletion x y → (∀ y', f.IsCompletion x y' → y' = y) ∧
          dot f.costs y = p.direction.signed (p.value x) :=
  standardForm_equivalent (by decide +kernel)

end TwoPhase
