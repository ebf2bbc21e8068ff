/-
# `Interval` — the decimals that read back as a double

The reals that round to a double fill an interval around it.  Intervals of
two doubles have no point in common: where they touch, the end belongs to
neither or to the one whose significand is even.  The decimal that a double
is written with lies in its interval, so no two doubles are written with
decimals of the same value.
-/
import Mathlib
import TwoPhase.Decimal.Shortest

namespace TwoPhase

namespace Decimal

def value (d : Decimal) : ℚ := d.digits * (10 : ℚ) ^ d.exponent

end Decimal

namespace Binary

/-! ## The interval of a double -/

/-- The significand and exponent of a double: its bits are used to the full unless the exponent is
the least one, and it is narrow below just above a power of two. -/
structure IsDouble (x : Binary) : Prop where
  significand_lt : x.significand < 2 ^ 53
  le_exponent : -1074 ≤ x.exponent
  exponent_eq : x.significand < 2 ^ 52 → x.exponent = -1074
  narrowBelow_iff : x.narrowBelow = true ↔ x.significand = 2 ^ 52 ∧ -1074 < x.exponent

/-- A quarter of the last binary place. -/
def quarter (x : Binary) : ℚ := (2 : ℚ) ^ (x.exponent - 2)

theorem quarter_pos (x : Binary) : 0 < x.quarter := by
  unfold quarter
  positivity

/-- The number of quarters down to the lower end. -/
def lowQuarters (x : Binary) : Nat := 4 * x.significand - if x.narrowBelow then 1 else 2

/-- The number of quarters up to the upper end. -/
def highQuarters (x : Binary) : Nat := 4 * x.significand + 2

/-- The number rounds to `x`.  The ends do if the significand is even. -/
def Encloses (x : Binary) (q : ℚ) : Prop :=
  if x.significand % 2 = 0 then
    x.lowQuarters * x.quarter ≤ q ∧ q ≤ x.highQuarters * x.quarter
  else x.lowQuarters * x.quarter < q ∧ q < x.highQuarters * x.quarter

theorem Encloses.le {x : Binary} {q : ℚ} (h : x.Encloses q) :
    x.lowQuarters * x.quarter ≤ q ∧ q ≤ x.highQuarters * x.quarter := by
  unfold Encloses at h
  split at h
  · exact h
  · exact ⟨h.1.le, h.2.le⟩

theorem Encloses.even {x : Binary} {q : ℚ} (h : x.Encloses q)
    (hq : q = x.lowQuarters * x.quarter ∨ q = x.highQuarters * x.quarter) :
    x.significand % 2 = 0 := by
  unfold Encloses at h
  split at h
  · assumption
  · rcases hq with rfl | rfl
    · exact absurd h.1 (lt_irrefl _)
    · exact absurd h.2 (lt_irrefl _)

theorem zpow_eq_div {b : ℚ} (hb : b ≠ 0) (e : Int) :
    b ^ e = b ^ e.toNat / b ^ (-e).toNat := by
  rw [← zpow_natCast, ← zpow_natCast, ← zpow_sub₀ hb]
  congr 1
  omega

theorem exists_common_unit (x : Binary) (e : Int) : ∃ u : ℚ, 0 < u ∧
    (∀ k : Nat, ((k * (x.common e).1 : Nat) : ℚ) = k * x.quarter * u) ∧
      ∀ d : Nat, ((d * (x.common e).2 : Nat) : ℚ) = d * (10 : ℚ) ^ e * u := by
  refine ⟨(2 : ℚ) ^ (-(x.exponent - 2)).toNat * (10 : ℚ) ^ (-e).toNat, by positivity, ?_, ?_⟩
  · intro k
    rw [quarter, zpow_eq_div (by norm_num)]
    simp only [common, power, Nat.pow_eq]
    push_cast
    field_simp
  · intro d
    rw [zpow_eq_div (by norm_num)]
    simp only [common, power, Nat.pow_eq]
    push_cast
    field_simp

/-- The comparisons of whole numbers decide whether a decimal is enclosed. -/
theorem readsBack_iff {x : Binary} {d : Nat} {e : Int} :
    x.readsBack d e = true ↔ x.Encloses (d * (10 : ℚ) ^ e) := by
  obtain ⟨u, hu, hquarters, hunits⟩ := x.exists_common_unit e
  have hle : ∀ k : Nat, (k * (x.common e).1 ≤ d * (x.common e).2 ↔
      (k : ℚ) * x.quarter ≤ d * (10 : ℚ) ^ e) ∧ (d * (x.common e).2 ≤ k * (x.common e).1 ↔
      d * (10 : ℚ) ^ e ≤ (k : ℚ) * x.quarter) := by
    intro k
    rw [← Nat.cast_le (α := ℚ), ← Nat.cast_le (α := ℚ), hquarters, hunits,
      mul_le_mul_iff_left₀ hu, mul_le_mul_iff_left₀ hu]
    exact ⟨Iff.rfl, Iff.rfl⟩
  unfold Encloses
  show (if x.significand % 2 = 0 then
      decide (x.lowQuarters * (x.common e).1 ≤ d * (x.common e).2 ∧
        d * (x.common e).2 ≤ x.highQuarters * (x.common e).1)
    else decide (x.lowQuarters * (x.common e).1 < d * (x.common e).2 ∧
        d * (x.common e).2 < x.highQuarters * (x.common e).1)) = true ↔ _
  split
  · rw [decide_eq_true_iff, (hle _).1, (hle _).2]
  · rw [decide_eq_true_iff, ← not_le, ← not_le, (hle _).1, (hle _).2, not_le, not_le]

/-! ## The decimal of a double lies in its interval -/

theorem readsBack_of_onGrid? {tie : Tie} {x : Binary} {e : Int} {d : Nat}
    (h : x.onGrid? tie e = some d) : x.readsBack d e = true := by
  unfold onGrid? at h
  simp only at h
  split at h
  · cases h
  · cases h
    assumption
  · cases h
    assumption
  · -- Both neighbours read back, so whichever is nearer does.
    split at h
    · cases h
      assumption
    · cases h
      assumption
    · cases h
      assumption
    · split at h <;> cases h <;> assumption

theorem value_exactDecimal (x : Binary) : x.exactDecimal.value = 4 * x.significand * x.quarter := by
  have hten : (10 : ℚ) ^ min x.exponent 0 = 1 / (10 : ℚ) ^ (-x.exponent).toNat := by
    rw [zpow_eq_div (by norm_num), Int.toNat_of_nonpos (min_le_right _ _), pow_zero]
    congr 2
    omega
  have hfive : (10 : ℚ) ^ (-x.exponent).toNat =
      5 ^ (-x.exponent).toNat * 2 ^ (-x.exponent).toNat := by
    rw [← mul_pow]
    norm_num
  have hquarter : x.quarter = (2 : ℚ) ^ x.exponent / 4 := by
    rw [quarter, zpow_sub₀ (by norm_num)]
    norm_num
  rw [Decimal.value, exactDecimal, hten, hfive, hquarter, zpow_eq_div (b := 2) (by norm_num)]
  simp only [power, Nat.pow_eq]
  push_cast
  field_simp

theorem encloses_self {x : Binary} (h : 0 < x.significand) :
    x.Encloses (4 * x.significand * x.quarter) := by
  have hlow : (x.lowQuarters : ℚ) < 4 * x.significand := by
    have hlt : x.lowQuarters < 4 * x.significand := by
      unfold lowQuarters
      split <;> omega
    exact_mod_cast hlt
  have hhigh : 4 * (x.significand : ℚ) < x.highQuarters := by
    have hlt : 4 * x.significand < x.highQuarters := by
      unfold highQuarters
      omega
    exact_mod_cast hlt
  have hbelow := mul_lt_mul_of_pos_right hlow x.quarter_pos
  have habove := mul_lt_mul_of_pos_right hhigh x.quarter_pos
  unfold Encloses
  split
  · exact ⟨hbelow.le, habove.le⟩
  · exact ⟨hbelow, habove⟩

theorem encloses_zero {x : Binary} (h : x.significand = 0) : x.Encloses 0 := by
  have hpos := x.quarter_pos
  have hlow : x.lowQuarters = 0 := by rw [lowQuarters, h, Nat.mul_zero, Nat.zero_sub]
  rw [Encloses, h, if_pos rfl, hlow]
  refine ⟨by simp, ?_⟩
  positivity

/-- The decimal that is found for a double rounds to it. -/
theorem encloses_shortest (tie : Tie) {x : Binary} (h : 0 < x.significand) :
    x.Encloses (x.shortest tie).value := by
  simp only [shortest]
  cases hfind : ((List.range 20).map fun (k : Nat) => x.coarsest - (k : Int)).findSome?
      fun e => (x.onGrid? tie e).map fun d => (⟨d, e⟩ : Decimal) with
  | none =>
      rw [Option.getD_none, value_exactDecimal]
      exact encloses_self h
  | some found =>
      obtain ⟨e, -, he⟩ := List.exists_of_findSome?_eq_some hfind
      obtain ⟨d, hd, rfl⟩ := Option.map_eq_some_iff.mp he
      exact readsBack_iff.mp (readsBack_of_onGrid? hd)

/-! ## Intervals of different doubles -/

theorem highQuarters_le {x y : Binary} (hx : x.IsDouble) (hy : y.IsDouble)
    (hexponent : x.exponent = y.exponent) (h : x.significand < y.significand) :
    x.highQuarters ≤ y.lowQuarters ∧
      (x.highQuarters = y.lowQuarters → y.significand = x.significand + 1) := by
  have hwide : y.narrowBelow = false := by
    rw [Bool.eq_false_iff]
    intro hnarrow
    obtain ⟨hpower, hleast⟩ := hy.narrowBelow_iff.mp hnarrow
    have := hx.exponent_eq (by omega)
    omega
  rw [highQuarters, lowQuarters, hwide, if_neg Bool.false_ne_true]
  omega

theorem highQuarters_le_two_mul {x y : Binary} (hx : x.IsDouble) (hy : y.IsDouble)
    (h : x.exponent < y.exponent) :
    x.highQuarters ≤ 2 * y.lowQuarters ∧
      (x.highQuarters = 2 * y.lowQuarters → x.significand = 2 ^ 53 - 1) := by
  have hleast := hx.le_exponent
  have hlt := hx.significand_lt
  have hfull : 2 ^ 52 ≤ y.significand := by
    by_contra hsmall
    have := hy.exponent_eq (by omega)
    omega
  have hlow : 2 ^ 55 - 2 ≤ 2 * y.lowQuarters := by
    rw [lowQuarters]
    split
    · omega
    · rename_i hwide
      have hne : y.significand ≠ 2 ^ 52 := fun hpower =>
        hwide (hy.narrowBelow_iff.mpr ⟨hpower, by omega⟩)
      omega
  rw [highQuarters]
  omega

/-- The interval of a larger double begins where that of a smaller one ends, or above; and where
they touch one of the significands is odd. -/
theorem high_le_low {x y : Binary} (hx : x.IsDouble) (hy : y.IsDouble)
    (h : x.exponent < y.exponent ∨ x.exponent = y.exponent ∧ x.significand < y.significand) :
    x.highQuarters * x.quarter ≤ y.lowQuarters * y.quarter ∧
      (x.highQuarters * x.quarter = y.lowQuarters * y.quarter →
        ¬ (x.significand % 2 = 0 ∧ y.significand % 2 = 0)) := by
  have hpos := x.quarter_pos
  rcases h with hlt | ⟨heq, hlt⟩
  · obtain ⟨hle, htouch⟩ := highQuarters_le_two_mul hx hy hlt
    have hle : (x.highQuarters : ℚ) ≤ 2 * y.lowQuarters := by exact_mod_cast hle
    have hdouble : 2 * x.quarter ≤ y.quarter := by
      rw [quarter, quarter, ← zpow_one_add₀ (by norm_num)]
      exact zpow_le_zpow_right₀ (by norm_num) (by omega)
    have hbetween : 2 * (y.lowQuarters : ℚ) * x.quarter ≤ y.lowQuarters * y.quarter := by
      have hmul := mul_le_mul_of_nonneg_left hdouble (Nat.cast_nonneg (α := ℚ) y.lowQuarters)
      linarith
    have hfirst := mul_le_mul_of_nonneg_right hle hpos.le
    refine ⟨hfirst.trans hbetween, fun hend => ?_⟩
    have hsame : (x.highQuarters : ℚ) = 2 * y.lowQuarters :=
      hle.antisymm (le_of_mul_le_mul_right (hbetween.trans hend.ge) hpos)
    have := htouch (by exact_mod_cast hsame)
    omega
  · obtain ⟨hle, htouch⟩ := highQuarters_le hx hy heq hlt
    have hquarter : y.quarter = x.quarter := by rw [quarter, quarter, heq]
    rw [hquarter]
    refine ⟨mul_le_mul_of_nonneg_right (by exact_mod_cast hle) hpos.le, fun hend => ?_⟩
    have := htouch (by exact_mod_cast mul_right_cancel₀ hpos.ne' hend)
    omega

theorem not_encloses_both {x y : Binary} (hx : x.IsDouble) (hy : y.IsDouble)
    (h : x.exponent < y.exponent ∨ x.exponent = y.exponent ∧ x.significand < y.significand)
    {q : ℚ} (hxq : x.Encloses q) (hyq : y.Encloses q) : False := by
  obtain ⟨hle, htouch⟩ := high_le_low hx hy h
  have hhigh := hxq.le.2
  have hlow := hyq.le.1
  have hq : q = x.highQuarters * x.quarter := hhigh.antisymm (hle.trans hlow)
  have hq' : q = y.lowQuarters * y.quarter := (hhigh.trans hle).antisymm hlow
  exact htouch (hq.symm.trans hq') ⟨hxq.even (.inr hq), hyq.even (.inl hq')⟩

/-- A number rounds to no more than one double. -/
theorem eq_of_encloses {x y : Binary} (hx : x.IsDouble) (hy : y.IsDouble) {q : ℚ}
    (hxq : x.Encloses q) (hyq : y.Encloses q) : x = y := by
  have hsame : x.significand = y.significand ∧ x.exponent = y.exponent := by
    rcases lt_trichotomy x.exponent y.exponent with hlt | heq | hlt
    · exact (not_encloses_both hx hy (.inl hlt) hxq hyq).elim
    · rcases lt_trichotomy x.significand y.significand with hlt | hsame | hlt
      · exact (not_encloses_both hx hy (.inr ⟨heq, hlt⟩) hxq hyq).elim
      · exact ⟨hsame, heq⟩
      · exact (not_encloses_both hy hx (.inr ⟨heq.symm, hlt⟩) hyq hxq).elim
    · exact (not_encloses_both hy hx (.inl hlt) hyq hxq).elim
  have hnarrow : x.narrowBelow = y.narrowBelow := by
    rw [Bool.eq_iff_iff, hx.narrowBelow_iff, hy.narrowBelow_iff, hsame.1, hsame.2]
  obtain ⟨m, e, narrow⟩ := x
  obtain ⟨m', e', narrow'⟩ := y
  obtain ⟨rfl, rfl⟩ := hsame
  obtain rfl := hnarrow
  rfl

end Binary

end TwoPhase
