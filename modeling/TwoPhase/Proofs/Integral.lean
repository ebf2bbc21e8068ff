/-
# `Integral` — programs in whole numbers

A program in whole numbers has a standard form in whole numbers: what is
added to a row are zeros and ones, with one sign or the other.  So its
minors are bounded by the size of the numbers and of the program, and the
tableaux of either phase have a small denominator.  For phase 2 the
equations are those of the form without the artificial columns, and a
minor of them is one of the form.
-/
import Mathlib
import TwoPhase.Proofs.Minors
import TwoPhase.Proofs.Aim

namespace TwoPhase

/-- All numbers of the program are whole, and those of its constraints have at most the given
magnitude. -/
structure Program.IsIntegral (p : Program ℚ) (B : ℚ) : Prop where
  objective : ∀ v ∈ p.objective, v.den = 1
  constraints : ∀ c ∈ p.constraints, ∀ v ∈ c.rhs :: c.coeffs, v.den = 1 ∧ |v| ≤ B

/-! ## Minors of bounded rows -/

theorem Row.entry_mem_or (r : Row ℚ) (j : Nat) : r.entry j ∈ r.entries ∨ r.entry j = 0 := by
  rw [Row.entry_eq]
  cases hj : r.entries[j]? with
  | none => exact .inr rfl
  | some v => exact .inl (List.mem_of_getElem? hj)

theorem hasMinorsUpTo_of_entries {rows : List (Row ℚ)} {B : ℚ} (hB : 1 ≤ B)
    (hrows : ∀ r ∈ rows, ∀ v ∈ r.entries, v.den = 1 ∧ |v| ≤ B) :
    HasMinorsUpTo rows (rows.length.factorial * B ^ rows.length) := by
  have hentry : ∀ r ∈ rows, ∀ j, (r.entry j).den = 1 ∧ |r.entry j| ≤ B := by
    intro r hr j
    rcases r.entry_mem_or j with hmem | hzero
    · exact hrows r hr _ hmem
    · rw [hzero, abs_zero]
      exact ⟨rfl, zero_le_one.trans hB⟩
  refine ⟨fun r hr j => (hentry r hr j).1, ?_⟩
  intro k ρ γ
  rcases le_or_gt k rows.length with hk | hk
  · have hdet : |(block rows ρ γ).det| ≤ (k.factorial : ℚ) * B ^ k := by
      have hle : AbsoluteValue.abs (block rows ρ γ).det
          ≤ (Fintype.card (Fin k)).factorial • B ^ Fintype.card (Fin k) :=
        Matrix.det_le fun a b => (hentry _ (List.get_mem rows (ρ a)) _).2
      simpa using hle
    have hfactorial : (k.factorial : ℚ) ≤ rows.length.factorial := by
      exact_mod_cast Nat.factorial_le hk
    have hpow : B ^ k ≤ B ^ rows.length := pow_le_pow_right₀ hB hk
    calc |(block rows ρ γ).det| ≤ (k.factorial : ℚ) * B ^ k := hdet
      _ ≤ rows.length.factorial * B ^ rows.length := by gcongr
  · -- one of the rows is taken twice
    obtain ⟨a, b, hab, hsame⟩ := Fintype.exists_ne_map_eq_of_card_lt ρ (by simpa using hk)
    have hzero : (block rows ρ γ).det = 0 := by
      refine Matrix.det_zero_of_row_eq hab ?_
      funext c
      show (rows.get (ρ a)).entry (γ c) = (rows.get (ρ b)).entry (γ c)
      rw [hsame]
    rw [hzero, abs_zero]
    positivity

/-- Where the places of a row that is cut down to the first `k` of `n` columns stand in the
whole row. -/
def placeInWhole (n k j : Nat) : Nat := if j < k then j else if j = k then n else n + 1

theorem Row.entry_take {r : Row ℚ} {n k : Nat} (hlen : r.coeffs.length = n) (hk : k ≤ n)
    (j : Nat) :
    (⟨r.coeffs.take k, r.rhs⟩ : Row ℚ).entry j = r.entry (placeInWhole n k j) := by
  rw [Row.entry_eq, Row.entry_eq, Row.entries, Row.entries]
  rcases lt_trichotomy j k with hj | rfl | hj
  · have hplace : placeInWhole n k j = j := if_pos hj
    rw [hplace, List.getElem?_append_left (by rw [List.length_take]; omega),
      List.getElem?_append_left (by omega), List.getElem?_take_of_lt hj]
  · have hplace : placeInWhole n j j = n := by simp [placeInWhole]
    rw [hplace, List.getElem?_append_right (by rw [List.length_take]; omega),
      List.getElem?_append_right (by omega), List.length_take, hlen, min_eq_left hk,
      Nat.sub_self, Nat.sub_self]
  · -- beyond the right-hand side there is nothing in either
    have hplace : placeInWhole n k j = n + 1 := by simp [placeInWhole, hj.not_gt, hj.ne']
    rw [hplace, List.getElem?_eq_none (by simp; omega), List.getElem?_eq_none (by simp; omega)]

theorem HasMinorsUpTo.take {rows : List (Row ℚ)} {D : ℚ} (h : HasMinorsUpTo rows D) {n k : Nat}
    (hwidth : ∀ r ∈ rows, r.coeffs.length = n) (hk : k ≤ n) :
    HasMinorsUpTo (rows.map fun r => ⟨r.coeffs.take k, r.rhs⟩) D := by
  constructor
  case integral =>
    intro r hr j
    obtain ⟨s, hs, rfl⟩ := List.mem_map.mp hr
    rw [Row.entry_take (hwidth s hs) hk]
    exact h.integral s hs _
  case bounded =>
    intro l ρ γ
    have hblock : block (rows.map fun r => ⟨r.coeffs.take k, r.rhs⟩) ρ γ
        = block rows (fun a => (ρ a).cast (List.length_map _)) (placeInWhole n k ∘ γ) := by
      ext a b
      have hmem := List.get_mem rows ((ρ a).cast (List.length_map _))
      rw [block, block, Matrix.of_apply, Matrix.of_apply, Function.comp_apply,
        ← Row.entry_take (hwidth _ hmem) hk]
      simp
    rw [hblock]
    exact h.bounded _ _

namespace StandardForm

variable {p : Program ℚ} {D : ℚ} {t : Tableau ℚ}

/-! ## The rows of the layout -/

/-- The equations of a form, without regard to what is basic in them. -/
abbrev equations (f : StandardForm ℚ) : List (Row ℚ) := f.rows.map (·.toRow)

theorem solvedBy_iff_equations (f : StandardForm ℚ) (y : List ℚ) :
    f.SolvedBy y ↔ ∀ w ∈ f.equations, w.Holds y := by
  simp only [SolvedBy, equations, List.forall_mem_map]

theorem length_equations (h : p.objection = none) :
    ∀ w ∈ (layout p).equations, w.coeffs.length = (layout p).columns.length := by
  intro w hw
  obtain ⟨r, hr, rfl⟩ := List.mem_map.mp hw
  exact (isShaped_tableau_layout h).rectangular.1 r hr

theorem unitEntry_cases (i : Nat) (c : Column) :
    (unitEntry i c : ℚ) = 0 ∨ (unitEntry i c : ℚ) = 1 ∨ (unitEntry i c : ℚ) = -1 := by
  cases c with
  | decision _ => exact .inl rfl
  | slack r =>
      rw [unitEntry]
      split
      · exact .inr (.inl rfl)
      · exact .inl rfl
  | surplus r =>
      rw [unitEntry]
      split
      · exact .inr (.inr rfl)
      · exact .inl rfl
  | artificial r =>
      rw [unitEntry]
      split
      · exact .inr (.inl rfl)
      · exact .inl rfl

theorem entries_normalize {c : Constraint ℚ} {B : ℚ}
    (h : ∀ v ∈ c.rhs :: c.coeffs, v.den = 1 ∧ |v| ≤ B) :
    ∀ v ∈ c.normalize.rhs :: c.normalize.coeffs, v.den = 1 ∧ |v| ≤ B := by
  have hneg : ∀ v ∈ c.rhs :: c.coeffs, (-v).den = 1 ∧ |-v| ≤ B := by
    intro v hv
    rw [Rat.den_neg_eq_den, abs_neg]
    exact h v hv
  rw [Constraint.normalize]
  split
  · rw [List.forall_mem_cons] at hneg ⊢
    exact ⟨hneg.1, List.forall_mem_map.mpr hneg.2⟩
  · exact h

/-- The standard form of a program in whole numbers has bounded minors. -/
theorem hasMinorsUpTo_of_isIntegral {B : ℚ} (h : p.IsIntegral B) (hB : 1 ≤ B) :
    HasMinorsUpTo (layout p).equations
      (p.constraints.length.factorial * B ^ p.constraints.length) := by
  have hlength : (layout p).equations.length = p.constraints.length := by
    simp [equations, layout]
  rw [← hlength]
  refine hasMinorsUpTo_of_entries hB fun w hw => ?_
  obtain ⟨r, hr, rfl⟩ := List.mem_map.mp hw
  obtain ⟨i, hi⟩ := List.mem_iff_getElem?.mp hr
  obtain ⟨c, hc, rfl⟩ := layout_row hi
  have hnormal := entries_normalize (h.constraints c (List.mem_of_getElem? hc))
  intro v hv
  rcases List.mem_append.mp hv with hv | hv
  · rcases List.mem_append.mp hv with hv | hv
    · exact hnormal v (List.mem_cons_of_mem _ hv)
    · obtain ⟨col, -, rfl⟩ := List.mem_map.mp hv
      rcases unitEntry_cases i col with hu | hu | hu <;> rw [hu] <;>
        exact ⟨rfl, by norm_num; linarith⟩
  · rw [List.mem_singleton.mp hv]
    exact hnormal _ List.mem_cons_self

/-! ## Tableaux of the phases -/

theorem exists_hasDenominator_phaseOne (h : p.objection = none)
    (hminors : HasMinorsUpTo (layout p).equations D) (ht : t.IsReduced)
    (hexpresses : t.Expresses (layout p).phaseOneAim) : ∃ d, t.HasDenominator d D := by
  have hcolumns : t.columns = (layout p).columns := hexpresses.columns_eq
  refine ht.exists_hasDenominator hminors ?_ ?_ (phaseOneCosts t.columns) (List.length_map _)
    ?_ ?_
  · rw [hcolumns]
    exact length_equations h
  · intro y hy
    rw [hcolumns] at hy
    exact (hexpresses.solvedBy_iff y hy).trans (solvedBy_iff_equations _ y)
  · intro v hv
    obtain ⟨c, -, rfl⟩ := List.mem_map.mp hv
    split <;> rfl
  · intro y hy hsolved
    rw [hcolumns] at hy
    rw [hexpresses.gap_objective y hy ((hexpresses.solvedBy_iff y hy).mp hsolved), hcolumns]
    exact (dot_phaseOneCosts _ y).symm

theorem den_costs {B : ℚ} (h : p.IsIntegral B) : ∀ v ∈ (layout p).costs, v.den = 1 := by
  intro v hv
  rcases List.mem_append.mp hv with hv | hv
  · rw [decisionCosts] at hv
    split at hv
    · exact h.objective v hv
    · obtain ⟨w, hw, rfl⟩ := List.mem_map.mp hv
      rw [Rat.den_neg_eq_den]
      exact h.objective w hw
  · obtain ⟨c, -, rfl⟩ := List.mem_map.mp hv
    rfl

theorem exists_hasDenominator_phaseTwo (h : p.objection = none)
    (hminors : HasMinorsUpTo (layout p).equations D) (hcosts : ∀ v ∈ (layout p).costs, v.den = 1)
    (ht : t.IsReduced) (hexpresses : t.Expresses (layout p).phaseTwoAim) :
    ∃ d, t.HasDenominator d D := by
  have hcolumns := columns_eq_realColumns hexpresses
  have hle : (realColumns p).length ≤ (layout p).columns.length := by
    rw [length_columns_layout]
    exact Nat.le_add_right _ _
  refine ht.exists_hasDenominator (hminors.take (length_equations h) (hcolumns ▸ hle)) ?_ ?_
    ((layout p).costs.take t.columns.length) ?_ ?_ ?_
  · intro w hw
    obtain ⟨r, hr, rfl⟩ := List.mem_map.mp hw
    show (r.coeffs.take _).length = _
    rw [List.length_take, length_equations h r hr, hcolumns, min_eq_left hle]
  · intro y hy
    have hlen : y.length = (layout p).phaseTwoAim.columns.length := by
      rw [hy, hexpresses.columns_eq]
    refine (hexpresses.solvedBy_iff y hlen).trans ?_
    show (layout p).SolvedBy ((layout p).extend y) ↔ _
    rw [solvedBy_iff_equations]
    refine Iff.trans (forall₂_congr fun r _ => ?_) List.forall_mem_map.symm
    rw [Row.holds_iff_gap, Row.holds_iff_gap, Tableau.gap_take r hy]
    rfl
  · rw [List.length_take, length_costs_layout h, hcolumns, min_eq_left hle]
  · exact fun v hv => hcosts v (List.mem_of_mem_take hv)
  · intro y hy hsolved
    have hlen : y.length = (layout p).phaseTwoAim.columns.length := by
      rw [hy, hexpresses.columns_eq]
    rw [hexpresses.gap_objective y hlen ((hexpresses.solvedBy_iff y hlen).mp hsolved), ← hy]
    exact (dot_take _ _ _).symm

end StandardForm

end TwoPhase
