/-
# `Double` — doubles part by part, and their negation

A double is a sign, eleven bits of exponent and fifty-two of mantissa, or
it is no number.  Negating it turns the sign and touches nothing else, so
negation undoes itself bit for bit, and a double and its negation fall on
the two sides of zero.  Two doubles in order have zero between them or lie
on one side of it.  Multiplying by minus one is negation too: the product
of the mantissas has the bits of the one factor, fifty-two places up, and
rounding shifts them back without losing any.
-/
import Mathlib
import TwoPhase.Scalar

namespace TwoPhase

open Float.Model Float.Model.UnpackedFloat

/-! ## The parts of a bit pattern -/

abbrev ofParts (s : Sign) (e : BitVec 11) (m : BitVec 52) : BitVec Format.binary64.numBits :=
  packComponents Format.binary64 s e m

theorem neg_neg_sign (s : Sign) : - -s = s := by cases s <;> rfl

theorem neg_sign_eq_negative_iff (s : Sign) : -s = .negative ↔ s ≠ .negative := by
  cases s with
  | negative => exact iff_of_false nofun (not_not_intro rfl)
  | positive => exact iff_of_true rfl nofun

theorem ofBitVec_toBitVec (s : Sign) : Sign.ofBitVec s.toBitVec = s := by cases s <;> rfl

theorem unpackSign_ofParts (s : Sign) (e : BitVec 11) (m : BitVec 52) :
    unpackSign (ofParts s e m) = s.toBitVec := by
  simp only [packComponents, unpackSign, BitVec.extractLsb]
  ext i hi
  grind

theorem exists_ofParts (b : BitVec Format.binary64.numBits) : ∃ s e m, b = ofParts s e m := by
  refine ⟨Sign.ofBitVec (unpackSign b), unpackExponent b, unpackMantissa b, ?_⟩
  have hsign : ∀ v : BitVec 1, (Sign.ofBitVec v).toBitVec = v := by decide
  simp only [packComponents, hsign, unpackSign, unpackExponent, unpackMantissa, BitVec.extractLsb]
  ext i hi
  grind

section Mantissa

variable (m : BitVec 52)

theorem toNat_one_append : (1#1 ++ m).toNat = 2 ^ 52 + m.toNat := by
  rw [BitVec.toNat_append, ← Nat.shiftLeft_add_eq_or_of_lt m.isLt]
  rfl

variable {m} in
theorem toNat_pos_of_ne_zero (h : m ≠ 0#52) : 0 < m.toNat :=
  Nat.pos_of_ne_zero fun hm => h (BitVec.eq_of_toNat_eq hm)

theorem log2_toNat_lt : m.toNat.log2 < 52 := by
  rcases Nat.eq_zero_or_pos m.toNat with h | h
  · rw [h]
    decide
  · exact (Nat.log2_lt h.ne').mpr m.isLt

theorem log2_two_pow_add_toNat : (2 ^ 52 + m.toNat).log2 = 52 := by
  have hlt := m.isLt
  rw [Nat.log2_eq_iff (by omega)]
  omega

end Mantissa

/-! ## What a bit pattern stands for -/

section Unpack

variable {s : Sign} {e : BitVec 11} {m : BitVec 52}

theorem unpack_ofParts (s : Sign) (e : BitVec 11) (m : BitVec 52) :
    UnpackedFloat.unpack Format.binary64 (ofParts s e m) =
      if e = -1#11 then if m = 0#52 then .infinity s else .notANumber
      else if e = 0#11 then
        if h : m = 0#52 then .zero s else .finite s m.toNat (-1074) (toNat_pos_of_ne_zero h)
      else .finite s (2 ^ 52 + m.toNat) (e.toNat - 1075) (by omega) := by
  simp only [UnpackedFloat.unpack, unpackMantissa_packComponents, unpackExponent_packComponents,
    unpackSign_ofParts, ofBitVec_toBitVec, toNat_one_append]
  split_ifs with h1 h2 h3 h4
  · rfl
  · rfl
  · rfl
  · subst h3
    rfl
  · rfl

theorem neg_unpack_ofParts (s : Sign) (e : BitVec 11) (m : BitVec 52) :
    (UnpackedFloat.unpack Format.binary64 (ofParts s e m)).neg
      = UnpackedFloat.unpack Format.binary64 (ofParts (-s) e m) := by
  rw [unpack_ofParts, unpack_ofParts]
  split_ifs <;> rfl

theorem pack_finite (s : Sign) (m : Nat) (e : Int) (h : 0 < m) :
    UnpackedFloat.pack Format.binary64 (.finite s m e h) =
      if 2 ^ 11 ≤ (e + 1075).toNat + 1 then packedInfinity Format.binary64 s
      else if m.log2 + 1 = 53 then
        ofParts s (BitVec.ofNat _ (e + 1075).toNat) (BitVec.ofNat _ m)
      else ofParts s 0#11 (BitVec.ofNat _ m) := by
  have hbias : e + (Format.binary64.exponentBias : Int)
      + (Format.binary64.mantissaBitsWithoutImplicit : Int) = e + 1075 := by
    show e + ((1023 : Nat) : Int) + ((52 : Nat) : Int) = e + 1075
    omega
  rw [UnpackedFloat.pack, hbias]
  rfl

/-- What a bit pattern stands for leads back to it. -/
theorem pack_unpack_ofParts (h : e = -1#11 → m = 0#52) :
    UnpackedFloat.pack Format.binary64 (UnpackedFloat.unpack Format.binary64 (ofParts s e m))
      = ofParts s e m := by
  rw [unpack_ofParts]
  split_ifs with h1 h2 h3 h4
  · rw [h1, h2]
    rfl
  · exact absurd (h h1) h2
  · rw [h3, h4]
    rfl
  · -- the first bit of the mantissa is missing
    have hlog := log2_toNat_lt m
    rw [pack_finite, if_neg (by decide), if_neg (by omega), h3, BitVec.ofNat_toNat,
      BitVec.setWidth_eq]
  · have he : e.toNat ≠ 2047 := fun he => h1 (BitVec.eq_of_toNat_eq he)
    have hlt := e.isLt
    have hexponent : ((e.toNat : Int) - 1075 + 1075).toNat = e.toNat := by omega
    have hmantissa : BitVec.ofNat 52 (2 ^ 52 + m.toNat) = m := by
      refine BitVec.eq_of_toNat_eq ?_
      rw [BitVec.toNat_ofNat, Nat.add_mod_left, Nat.mod_eq_of_lt m.isLt]
    rw [pack_finite, hexponent, if_neg (by omega), log2_two_pow_add_toNat, if_pos rfl,
      BitVec.ofNat_toNat, BitVec.setWidth_eq]
    exact congrArg _ hmantissa

end Unpack

/-! ## Doubles -/

def notANumber : Float := ⟨Float.Model.pack .notANumber⟩

/-- The double with the given parts, which must not be those of no number. -/
def double (s : Sign) (e : BitVec 11) (m : BitVec 52) (h : e = -1#11 → m = 0#52) : Float where
  toModel :=
    { toBits := UInt64.ofBitVec (ofParts s e m)
      valid := by
        refine ⟨fun he hm => ?_⟩
        rw [unpackExponent_packComponents] at he
        rw [unpackMantissa_packComponents] at hm
        exact absurd (h he) hm }

theorem double_cases (x : Float) : x = notANumber ∨ ∃ s e m h, x = double s e m h := by
  obtain ⟨⟨bits, hvalid⟩⟩ := x
  obtain ⟨s, e, m, hparts⟩ := exists_ofParts bits.toBitVec
  by_cases h : e = -1#11 → m = 0#52
  · refine .inr ⟨s, e, m, h, ?_⟩
    rw [double]
    congr 2
    exact UInt64.toBitVec_inj.mp hparts
  · refine .inl ?_
    obtain ⟨he, hm⟩ := Classical.not_imp.mp h
    have hbits : bits.toBitVec = packedNaN Format.binary64 := by
      refine hvalid.eq_packedNaN ?_ ?_
      · rw [hparts, unpackExponent_packComponents, he]
      · rwa [hparts, unpackMantissa_packComponents]
    rw [notANumber]
    congr 2
    exact UInt64.toBitVec_inj.mp hbits

section Double

variable {s : Sign} {e : BitVec 11} {m : BitVec 52} {h : e = -1#11 → m = 0#52}

theorem unpack_double : (double s e m h).toModel.unpack =
    UnpackedFloat.unpack Format.binary64 (ofParts s e m) := rfl

theorem pack_unpack_double :
    Float.Model.pack (double s e m h).toModel.unpack = (double s e m h).toModel := by
  rw [Float.Model.pack, double]
  congr 2
  exact pack_unpack_ofParts h

theorem neg_double : -(double s e m h) = double (-s) e m h := by
  show Float.ofModel (Float.Model.pack (double s e m h).toModel.unpack.neg) = _
  rw [unpack_double, neg_unpack_ofParts, ← unpack_double (h := h), pack_unpack_double]

theorem neg_notANumber : -notANumber = notANumber := by decide +kernel

theorem isFinite_double : (double s e m h).isFinite = decide (e ≠ -1#11) := by
  show UnpackedFloat.isFinite (double s e m h).toModel.unpack = _
  rw [unpack_double, unpack_ofParts]
  split_ifs with h1 h2 h3 h4
  · simp only [h1]
    rfl
  · simp only [h1]
    rfl
  · exact (decide_eq_true h1).symm
  · exact (decide_eq_true h1).symm
  · exact (decide_eq_true h1).symm

theorem compare_double_zero :
    UnpackedFloat.compare (double s e m h).toModel.unpack (0 : Float).toModel.unpack =
      if e = 0#11 ∧ m = 0#52 then some .eq
      else match s with
        | .negative => some .lt
        | .positive => some .gt := by
  have hzero : (0 : Float).toModel.unpack = .zero .positive := by rfl
  rw [unpack_double, unpack_ofParts, hzero]
  cases s <;> split_ifs with h1 h2 h3 h4 h5 h6 h7 <;> first | rfl | simp_all

theorem double_beq_zero : (double s e m h == 0) = decide (e = 0#11 ∧ m = 0#52) := by
  show (UnpackedFloat.compare _ (0 : Float).toModel.unpack == some .eq) = _
  rw [compare_double_zero]
  cases s <;> split_ifs with hzero <;> simp [hzero]

theorem double_lt_zero_iff :
    double s e m h < 0 ↔ s = .negative ∧ ¬ (e = 0#11 ∧ m = 0#52) := by
  have hlt : double s e m h < 0 ↔ (UnpackedFloat.compare (double s e m h).toModel.unpack
      (0 : Float).toModel.unpack == some .lt) = true :=
    decide_eq_true_iff
  rw [hlt, compare_double_zero]
  cases s <;> split_ifs with hzero <;> simp [hzero]

end Double

/-! ## The sides of zero -/

theorem neg_neg_double (x : Float) : - -x = x := by
  rcases double_cases x with rfl | ⟨s, e, m, h, rfl⟩
  · rw [neg_notANumber, neg_notANumber]
  · rw [neg_double, neg_double]
    congr 1
    exact neg_neg_sign s

theorem unpack_neg (x : Float) : (-x).toModel.unpack = x.toModel.unpack.neg := by
  rcases double_cases x with rfl | ⟨s, e, m, h, rfl⟩
  · have hnan : notANumber.toModel.unpack = .notANumber := by rfl
    rw [neg_notANumber, hnan]
    rfl
  · rw [neg_double, unpack_double, unpack_double, neg_unpack_ofParts]

/-- Zero stands to a number as the negation of the number stands to zero. -/
theorem compare_zero_left (u : UnpackedFloat) :
    (UnpackedFloat.zero .positive).compare u = u.neg.compare (.zero .positive) := by
  cases u with
  | notANumber => rfl
  | zero s => rfl
  | infinity s => cases s <;> rfl
  | finite s m e hm => cases s <;> rfl

theorem compare_neg_zero (u : UnpackedFloat) :
    u.neg.compare (.zero .positive) = (u.compare (.zero .positive)).map Ordering.swap := by
  cases u with
  | notANumber => rfl
  | zero s => rfl
  | infinity s => cases s <;> rfl
  | finite s m e hm => cases s <;> rfl

theorem compare_zero_of_compare : ∀ {u v : UnpackedFloat}, u.compare v = some .lt →
    u.compare (.zero .positive) = some .lt ∨ (UnpackedFloat.zero .positive).compare v = some .lt
  | .infinity .negative, _, _ => .inl rfl
  | .finite .negative _ _ _, _, _ => .inl rfl
  | _, .infinity .positive, _ => .inr rfl
  | _, .finite .positive _ _ _, _ => .inr rfl
  | .notANumber, _, h => nomatch h
  | .infinity .positive, .notANumber, h => nomatch h
  | .infinity .positive, .infinity .negative, h => nomatch h
  | .infinity .positive, .zero _, h => nomatch h
  | .infinity .positive, .finite .negative _ _ _, h => nomatch h
  | .zero _, .notANumber, h => nomatch h
  | .zero _, .infinity .negative, h => nomatch h
  | .zero _, .zero _, h => nomatch h
  | .zero _, .finite .negative _ _ _, h => nomatch h
  | .finite .positive _ _ _, .notANumber, h => nomatch h
  | .finite .positive _ _ _, .infinity .negative, h => nomatch h
  | .finite .positive _ _ _, .zero _, h => nomatch h
  | .finite .positive _ _ _, .finite .negative _ _ _, h => nomatch h

section Sides

variable {x y : Float}

theorem lt_iff_compare : x < y ↔ x.toModel.unpack.compare y.toModel.unpack = some .lt := by
  have hlt : x < y ↔ (x.toModel.unpack.compare y.toModel.unpack == some .lt) = true :=
    decide_eq_true_iff
  rw [hlt, beq_iff_eq]

theorem lt_zero_iff_compare : x < 0 ↔ x.toModel.unpack.compare (.zero .positive) = some .lt :=
  lt_iff_compare

theorem zero_lt_iff_neg_lt_zero : 0 < x ↔ -x < 0 := by
  rw [lt_zero_iff_compare, unpack_neg, ← compare_zero_left]
  exact lt_iff_compare

theorem lt_zero_or_zero_lt (h : x < y) : x < 0 ∨ 0 < y := by
  rw [lt_zero_iff_compare, lt_iff_compare]
  exact compare_zero_of_compare (lt_iff_compare.mp h)

theorem not_lt_zero_of_nonneg (h : 0 ≤ x) : ¬ x < 0 := by
  have hle : ((UnpackedFloat.zero .positive).compare x.toModel.unpack).any Ordering.isLE = true :=
    decide_eq_true_iff.mp h
  rw [compare_zero_left, compare_neg_zero] at hle
  rw [lt_zero_iff_compare]
  intro hlt
  rw [hlt] at hle
  cases hle

theorem not_neg_lt_zero (h : x < 0) : ¬ -x < 0 := by
  rw [lt_zero_iff_compare] at h ⊢
  rw [unpack_neg, compare_neg_zero, h]
  exact nofun

theorem not_lt_neg_of_nonneg {tol : Float} (hx : ¬ x < 0) (htol : 0 ≤ tol) : ¬ x < -tol := by
  intro hlt
  rcases lt_zero_or_zero_lt hlt with h | h
  · exact hx h
  · rw [zero_lt_iff_neg_lt_zero, neg_neg_double] at h
    exact not_lt_zero_of_nonneg htol h

end Sides

/-! ## Multiplying by minus one -/

theorem shiftRight_exact (m n : Nat) :
    (⟨m * 2 ^ n, false, false⟩ : ExtendedMantissa) >>> n = ⟨m, false, false⟩ := by
  show n.repeat ExtendedMantissa.shiftRightOne _ = _
  induction n generalizing m with
  | zero =>
      rw [pow_zero, mul_one]
      rfl
  | succ n ih =>
      rw [Nat.repeat, pow_succ', ← mul_assoc, ih (m * 2), ExtendedMantissa.shiftRightOne]
      simp

theorem log2_mul_two_pow {m : Nat} (hm : 0 < m) (k : Nat) : (m * 2 ^ k).log2 = m.log2 + k := by
  induction k with
  | zero => rw [pow_zero, mul_one, add_zero]
  | succ k ih =>
      rw [pow_succ', mul_left_comm, Nat.log2_two_mul (by positivity), ih]
      rfl

/-- A double has its mantissa at this exponent. -/
def IsExponentOf (m : Nat) (e : Int) : Prop := max ((m.log2 : Int) + e - 52) (-1074) = e

section Round

variable {m : Nat} {e : Int}

theorem shiftToTargetExponent_shifted (hm : 0 < m) (h : IsExponentOf m e) (k : Nat) :
    shiftToTargetExponent Format.binary64 (m * 2 ^ k) (e - k) .exact = (⟨m, false, false⟩, e) := by
  have htarget : Format.binary64.targetExponent (totalExponent (m * 2 ^ k) (e - k)) = e := by
    rw [totalExponent, log2_mul_two_pow hm k]
    show max (_ - ((53 : Nat) : Int)) (-1074) = e
    refine Eq.trans ?_ h
    congr 1
    push_cast
    omega
  have hshift : (e - (e - k)).toNat = k := by omega
  rw [shiftToTargetExponent, htarget, shiftToExponent, hshift]
  refine Prod.ext (shiftRight_exact m k) ?_
  show e - (k : Int) + k = e
  omega

/-- Bits that only stand too far up are shifted back and not rounded. -/
theorem roundWithAccuracy_shifted (hm : 0 < m) (h : IsExponentOf m e) (k : Nat) (s : Sign) :
    roundWithAccuracy Format.binary64 s (m * 2 ^ k) (e - k) .exact = .finite s m e hm := by
  have hagain := shiftToTargetExponent_shifted hm h 0
  rw [pow_zero, mul_one, Int.natCast_zero, sub_zero] at hagain
  have hround : ExtendedMantissa.roundedMantissa ⟨m, false, false⟩ = m := rfl
  simp only [roundWithAccuracy, shiftToTargetExponent_shifted hm h k, hround, hagain]
  exact dif_neg hm.ne'

end Round

theorem mul_unpack_neg_one {u : UnpackedFloat}
    (h : ∀ s m e hm, u = .finite s m e hm → IsExponentOf m e) :
    UnpackedFloat.mul Format.binary64 u (-1 : Float).toModel.unpack = u.neg := by
  have hone : (-1 : Float).toModel.unpack = .finite .negative (2 ^ 52) (-52) (by decide) := by rfl
  have hsign : ∀ s : Sign, s * .negative = -s := fun s => by cases s <;> rfl
  rw [hone]
  cases u with
  | notANumber => rfl
  | infinity s => exact congrArg _ (hsign s)
  | zero s => exact congrArg _ (hsign s)
  | finite s m e hm =>
      rw [UnpackedFloat.neg, ← hsign]
      exact roundWithAccuracy_shifted hm (h s m e hm rfl) 52 (s * .negative)

theorem isExponentOf_of_unpack {s s' : Sign} {e : BitVec 11} {m : BitVec 52} {n : Nat} {k : Int}
    {hn : 0 < n}
    (h : UnpackedFloat.unpack Format.binary64 (ofParts s e m) = .finite s' n k hn) :
    IsExponentOf n k := by
  rw [unpack_ofParts] at h
  split_ifs at h with h1 h2 h3 h4
  · cases h
    have hlog := log2_toNat_lt m
    rw [IsExponentOf]
    omega
  · have he : e.toNat ≠ 0 := fun he => h3 (BitVec.eq_of_toNat_eq he)
    cases h
    rw [IsExponentOf, log2_two_pow_add_toNat]
    omega

theorem mul_neg_one_eq_neg (x : Float) : x * (-1) = -x := by
  rcases double_cases x with rfl | ⟨s, e, m, h, rfl⟩
  · decide +kernel
  · refine congrArg Float.ofModel (congrArg Float.Model.pack ?_)
    exact mul_unpack_neg_one fun s' n k hn hunpack => isExponentOf_of_unpack hunpack

end TwoPhase
