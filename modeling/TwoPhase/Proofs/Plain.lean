/-
# `Plain` — the text of a double tells it from every other

A double is written positionally, as digits with at most one point, and
its value is found again from where the point stands.  Since no two
doubles are written with decimals of the same value, and the sign and the
word for infinity are not lost either, two doubles that are numbers have
the same text only if they have the same bits, the two zeros included.
-/
import Mathlib
import TwoPhase.Decimal.Notation
import TwoPhase.Proofs.Double
import TwoPhase.Proofs.Interval

namespace TwoPhase

/-! ## Positional notation -/

/-- The number that digits with a point among them stand for. -/
def positionalValue (cs : List Char) : ℚ :=
  let whole := cs.takeWhile Char.isDigit
  let places := (cs.dropWhile Char.isDigit).tail
  Nat.ofDigitChars 10 (whole ++ places) 0 / 10 ^ places.length

/-- The characters of a natural number with zeros in front, so that there are more than
`places`. -/
def paddedDigits (n places : Nat) : List Char :=
  List.replicate (places + 1 - (Nat.toDigits 10 n).length) '0' ++ Nat.toDigits 10 n

theorem isDigit_paddedDigits (n places : Nat) : ∀ c ∈ paddedDigits n places, c.isDigit = true := by
  intro c hc
  rcases List.mem_append.mp hc with hzero | hdigit
  · rw [List.eq_of_mem_replicate hzero]
    rfl
  · exact Nat.isDigit_of_mem_toDigits (by decide) (by decide) hdigit

theorem lt_length_paddedDigits (n places : Nat) : places < (paddedDigits n places).length := by
  rw [paddedDigits, List.length_append, List.length_replicate]
  omega

theorem ofDigitChars_paddedDigits (n places : Nat) :
    Nat.ofDigitChars 10 (paddedDigits n places) 0 = n := by
  rw [paddedDigits, Nat.ofDigitChars_append, Nat.ofDigitChars_replicate_zero, Nat.mul_zero,
    Nat.ofDigitChars_toDigits (by decide) (by decide)]

theorem toList_setPoint (n places : Nat) :
    (setPoint (toString n) places).toList =
      if places = 0 then paddedDigits n places
      else (paddedDigits n places).take ((paddedDigits n places).length - places) ++
        '.' :: (paddedDigits n places).drop ((paddedDigits n places).length - places) := by
  have hdigits : (toString n).toList = Nat.toDigits 10 n := String.toList_ofList
  have hpadded : (repeated (places + 1 - (toString n).length) '0' ++ toString n).toList =
      paddedDigits n places := by
    rw [String.toList_append, repeated, String.toList_ofList, hdigits, paddedDigits,
      ← String.length_toList, hdigits]
  simp only [setPoint, hpadded]
  split
  · exact String.toList_ofList
  · simp

theorem takeWhile_append_dropWhile_of_digits {w f : List Char} (hw : ∀ c ∈ w, c.isDigit = true) :
    (w ++ '.' :: f).takeWhile Char.isDigit = w ∧
      (w ++ '.' :: f).dropWhile Char.isDigit = '.' :: f := by
  constructor
  · rw [List.takeWhile_append_of_pos hw]
    simp
  · rw [List.dropWhile_append_of_pos hw]
    rfl

theorem positionalValue_setPoint (n places : Nat) :
    positionalValue (setPoint (toString n) places).toList = n / 10 ^ places := by
  have hdigits := isDigit_paddedDigits n places
  have hlen := lt_length_paddedDigits n places
  have hvalue := ofDigitChars_paddedDigits n places
  rw [toList_setPoint]
  split
  · subst places
    have htake := List.takeWhile_eq_self_iff.mpr hdigits
    have hdrop := List.dropWhile_eq_nil_iff.mpr hdigits
    simp only [positionalValue, htake, hdrop, List.tail_nil, List.append_nil, List.length_nil,
      hvalue]
  · obtain ⟨htake, hdrop⟩ := takeWhile_append_dropWhile_of_digits
      (w := (paddedDigits n places).take ((paddedDigits n places).length - places))
      (f := (paddedDigits n places).drop ((paddedDigits n places).length - places))
      fun c hc => hdigits c (List.mem_of_mem_take hc)
    have hplaces : ((paddedDigits n places).drop
        ((paddedDigits n places).length - places)).length = places := by
      rw [List.length_drop]
      omega
    simp only [positionalValue, htake, hdrop, List.tail_cons, List.take_append_drop, hplaces,
      hvalue]

/-- The value of a decimal is found again from its text. -/
theorem positionalValue_positional (d : Decimal) :
    positionalValue d.positional.toList = d.value := by
  rw [Decimal.positional, positionalValue_setPoint, Decimal.value,
    Binary.zpow_eq_div (by norm_num)]
  simp only [power, Nat.pow_eq]
  push_cast
  rw [mul_div_assoc]

theorem positional_chars (d : Decimal) :
    (∃ c cs, d.positional.toList = c :: cs ∧ c.isDigit = true) ∧
      ∀ c ∈ d.positional.toList, c.isDigit = true ∨ c = '.' := by
  rw [Decimal.positional, toList_setPoint]
  generalize d.digits * power 10 d.exponent.toNat = n
  generalize (-d.exponent).toNat = places
  have hdigits := isDigit_paddedDigits n places
  have hlen := lt_length_paddedDigits n places
  have hfront : ∃ c cs, (paddedDigits n places).take ((paddedDigits n places).length - places)
      = c :: cs := by
    refine List.exists_cons_of_ne_nil fun hnil => ?_
    have := congrArg List.length hnil
    rw [List.length_take, List.length_nil] at this
    omega
  obtain ⟨c, cs, hcons⟩ := hfront
  have hc : c.isDigit = true :=
    hdigits c (List.mem_of_mem_take (hcons ▸ List.mem_cons_self))
  split
  · subst places
    rw [Nat.sub_zero, List.take_length] at hcons
    exact ⟨⟨c, cs, hcons, hc⟩, fun a ha => .inl (hdigits a ha)⟩
  · refine ⟨⟨c, _, by rw [hcons, List.cons_append], hc⟩, fun a ha => ?_⟩
    rcases List.mem_append.mp ha with ha | ha
    · exact .inl (hdigits a (List.mem_of_mem_take ha))
    · rcases List.mem_cons.mp ha with rfl | ha
      · exact .inr rfl
      · exact .inl (hdigits a (List.mem_of_mem_drop ha))

/-! ## Signs -/

theorem mem_signed {b : Bool} {t : String} {c : Char} :
    c ∈ (signed b t).toList ↔ b = true ∧ c = '-' ∨ c ∈ t.toList := by
  cases b with
  | false => simp [signed]
  | true =>
      have hminus : "-".toList = ['-'] := rfl
      simp [signed, hminus]

theorem signed_inj {b b' : Bool} {t t' : String} (ht : t.toList.head? ≠ some '-')
    (ht' : t'.toList.head? ≠ some '-') (h : signed b t = signed b' t') : b = b' ∧ t = t' := by
  have hhead : ∀ u : String, ("-" ++ u).toList.head? = some '-' := fun u => by
    rw [String.toList_append]
    rfl
  cases b <;> cases b'
  · exact ⟨rfl, h⟩
  · rw [show t = "-" ++ t' from h, hhead] at ht
    exact absurd rfl ht
  · rw [show t' = "-" ++ t from h.symm, hhead] at ht'
    exact absurd rfl ht'
  · exact ⟨rfl, (String.append_right_inj "-").mp h⟩

/-! ## Magnitudes -/

namespace Magnitude

def plain : Magnitude → String
  | .notANumber => "NaN"
  | .infinite => "inf"
  | .finite b => if b.significand = 0 then "0" else (b.shortest .upward).positional

/-- The magnitude of a double that is a number. -/
def IsProper : Magnitude → Prop
  | .notANumber => False
  | .infinite => True
  | .finite b => b.IsDouble

theorem finite_chars (b : Binary) :
    (∃ c cs, (plain (.finite b)).toList = c :: cs ∧ c.isDigit = true) ∧
      ∀ c ∈ (plain (.finite b)).toList, c.isDigit = true ∨ c = '.' := by
  rw [plain]
  split
  · have htext : "0".toList = ['0'] := rfl
    rw [htext]
    exact ⟨⟨'0', [], rfl, rfl⟩, List.forall_mem_singleton.mpr (.inl rfl)⟩
  · exact positional_chars _

theorem plain_chars {a : Magnitude} (ha : a.IsProper) :
    (∃ c cs, a.plain.toList = c :: cs ∧ (c.isDigit = true ∨ c = 'i')) ∧
      ∀ c ∈ a.plain.toList, c.isDigit = true ∨ c ∈ ['.', 'i', 'n', 'f'] := by
  cases a with
  | notANumber => exact ha.elim
  | infinite =>
      have htext : infinite.plain.toList = ['i', 'n', 'f'] := rfl
      rw [htext]
      exact ⟨⟨'i', ['n', 'f'], rfl, .inr rfl⟩, by simp⟩
  | finite b =>
      obtain ⟨⟨c, cs, hcons, hc⟩, hall⟩ := finite_chars b
      refine ⟨⟨c, cs, hcons, .inl hc⟩, fun a ha => (hall a ha).imp_right ?_⟩
      rintro rfl
      exact List.mem_cons_self

theorem head_plain {a : Magnitude} (ha : a.IsProper) : a.plain.toList.head? ≠ some '-' := by
  obtain ⟨⟨c, cs, hcons, hc⟩, -⟩ := plain_chars ha
  rw [hcons, List.head?_cons]
  rintro ⟨rfl⟩
  simp at hc

/-- The value of the text rounds to the double that is written. -/
theorem encloses_positionalValue (b : Binary) :
    b.Encloses (positionalValue (plain (.finite b)).toList) := by
  rw [plain]
  split
  · rename_i hzero
    have htext : positionalValue "0".toList = 0 := by
      show ((0 : Nat) : ℚ) / 10 ^ 0 = 0
      simp
    rw [htext]
    exact Binary.encloses_zero hzero
  · rename_i hpos
    rw [positionalValue_positional]
    exact Binary.encloses_shortest .upward (Nat.pos_of_ne_zero hpos)

theorem plain_inj {a b : Magnitude} (ha : a.IsProper) (hb : b.IsProper)
    (h : a.plain = b.plain) : a = b := by
  have hword : ∀ x : Binary, infinite.plain ≠ plain (.finite x) := by
    intro x heq
    obtain ⟨⟨c, cs, hcons, hc⟩, -⟩ := finite_chars x
    rw [← heq] at hcons
    obtain rfl : 'i' = c := (List.cons.inj hcons).1
    cases hc
  cases a with
  | notANumber => exact ha.elim
  | infinite =>
      cases b with
      | notANumber => exact hb.elim
      | infinite => rfl
      | finite y => exact absurd h (hword y)
  | finite x =>
      cases b with
      | notANumber => exact hb.elim
      | infinite => exact absurd h.symm (hword x)
      | finite y =>
          have hx := encloses_positionalValue x
          rw [h] at hx
          rw [Binary.eq_of_encloses ha hb hx (encloses_positionalValue y)]

theorem isProper_ofBits {bits : Nat} (h : ofBits bits ≠ .notANumber) : (ofBits bits).IsProper := by
  have hpower : power 2 52 = 2 ^ 52 := rfl
  have hfraction : bits % 2 ^ 52 < 2 ^ 52 := Nat.mod_lt _ (by decide)
  have hbiased : power 2 11 = 2 ^ 11 := rfl
  simp only [ofBits, hpower, hbiased] at h ⊢
  generalize bits % 2 ^ 52 = fraction at h hfraction ⊢
  generalize bits / 2 ^ 52 % 2 ^ 11 = biased at h ⊢
  split_ifs at h ⊢ with hmax hfrac hmin
  · trivial
  · exact h rfl
  · exact
      { significand_lt := hfraction.trans (by decide)
        le_exponent := le_rfl
        exponent_eq := fun _ => rfl
        narrowBelow_iff := iff_of_false nofun fun hpow => hfraction.ne hpow.1 }
  · refine ⟨?_, ?_, ?_, ?_⟩ <;> simp only [decide_eq_true_eq] <;> omega

/-- The fields of the bits that a magnitude comes from: the exponent and the fraction. -/
def fields : Magnitude → Nat × Nat
  | .finite b =>
      if b.significand < 2 ^ 52 then (0, b.significand)
      else ((b.exponent + 1075).toNat, b.significand - 2 ^ 52)
  | .infinite => (2047, 0)
  | .notANumber => (2047, 1)

theorem fields_ofBits {bits : Nat} (h : ofBits bits ≠ .notANumber) :
    (ofBits bits).fields = (bits / 2 ^ 52 % 2 ^ 11, bits % 2 ^ 52) := by
  have hpower : power 2 52 = 2 ^ 52 := rfl
  have hfraction : bits % 2 ^ 52 < 2 ^ 52 := Nat.mod_lt _ (by decide)
  have hbiased : power 2 11 = 2 ^ 11 := rfl
  simp only [ofBits, hpower, hbiased] at h ⊢
  generalize bits % 2 ^ 52 = fraction at h hfraction ⊢
  generalize bits / 2 ^ 52 % 2 ^ 11 = biased at h ⊢
  split_ifs at h ⊢ with hmax hfrac hmin
  · rw [hmax, hfrac, fields]
  · exact absurd rfl h
  · rw [hmin, fields, if_pos hfraction]
  · rw [fields, if_neg (by simp)]
    simp

end Magnitude

/-! ## Doubles -/

section Double

open Float.Model Float.Model.UnpackedFloat

variable {s s' : Sign} {e e' : BitVec 11} {m m' : BitVec 52} {h : e = -1#11 → m = 0#52}
  {h' : e' = -1#11 → m' = 0#52}

theorem sign_eq_of_iff (h : s = .negative ↔ s' = .negative) : s = s' := by
  cases s with
  | negative => exact (h.mp rfl).symm
  | positive =>
      cases s' with
      | negative => exact h.mpr rfl
      | positive => rfl

theorem toNat_toBits_double : (double s e m h).toBits.toNat =
    s.toBitVec.toNat * 2 ^ 63 + e.toNat * 2 ^ 52 + m.toNat := by
  have hbits : (double s e m h).toBits.toNat = (s.toBitVec ++ e ++ m).toNat := rfl
  rw [hbits, BitVec.toNat_append, ← Nat.shiftLeft_add_eq_or_of_lt m.isLt, BitVec.toNat_append,
    ← Nat.shiftLeft_add_eq_or_of_lt e.isLt, Nat.shiftLeft_eq, Nat.shiftLeft_eq]
  ring

theorem hasMinusSign_double : hasMinusSign (double s e m h) = true ↔ s = .negative := by
  have he : e.toNat < 2 ^ 11 := e.isLt
  have hm : m.toNat < 2 ^ 52 := m.isLt
  have hpower : power 2 63 = 2 ^ 63 := rfl
  rw [hasMinusSign, toNat_toBits_double, hpower, decide_eq_true_iff]
  cases s with
  | negative =>
      have hsign : (Sign.toBitVec .negative).toNat = 1 := rfl
      rw [hsign]
      exact iff_of_true (by omega) rfl
  | positive =>
      have hsign : (Sign.toBitVec .positive).toNat = 0 := rfl
      rw [hsign]
      exact iff_of_false (by omega) nofun

theorem fields_toBits_double : (double s e m h).toBits.toNat / 2 ^ 52 % 2 ^ 11 = e.toNat ∧
    (double s e m h).toBits.toNat % 2 ^ 52 = m.toNat := by
  have he : e.toNat < 2 ^ 11 := e.isLt
  have hm : m.toNat < 2 ^ 52 := m.isLt
  rw [toNat_toBits_double]
  omega

theorem ofFloat_double_ne : Magnitude.ofFloat (double s e m h) ≠ .notANumber := by
  obtain ⟨hexponent, hmantissa⟩ := fields_toBits_double (s := s) (h := h)
  have hfraction : power 2 52 = 2 ^ 52 := rfl
  have hbiased : power 2 11 = 2 ^ 11 := rfl
  simp only [Magnitude.ofFloat, Magnitude.ofBits, hfraction, hbiased, hexponent, hmantissa]
  split_ifs with hmax hfrac
  · nofun
  · rw [h (BitVec.eq_of_toNat_eq hmax)] at hfrac
    exact absurd rfl hfrac
  · nofun
  · nofun

theorem fields_ofFloat_double :
    (Magnitude.ofFloat (double s e m h)).fields = (e.toNat, m.toNat) := by
  obtain ⟨hexponent, hmantissa⟩ := fields_toBits_double (s := s) (h := h)
  rw [Magnitude.ofFloat, Magnitude.fields_ofBits ofFloat_double_ne, hexponent, hmantissa]

theorem isProper_ofFloat_double : (Magnitude.ofFloat (double s e m h)).IsProper :=
  Magnitude.isProper_ofBits ofFloat_double_ne

theorem parts_eq_of_magnitude
    (h : Magnitude.ofFloat (double s e m h) = Magnitude.ofFloat (double s' e' m' h')) :
    e = e' ∧ m = m' := by
  have hfields := congrArg Magnitude.fields h
  rw [fields_ofFloat_double, fields_ofFloat_double] at hfields
  obtain ⟨he, hm⟩ := Prod.mk.inj hfields
  exact ⟨BitVec.eq_of_toNat_eq he, BitVec.eq_of_toNat_eq hm⟩

theorem abs_double : Scalar.abs (double s e m h) = double .positive e m h := by
  have habs : (UnpackedFloat.unpack Format.binary64 (ofParts s e m)).abs
      = UnpackedFloat.unpack Format.binary64 (ofParts .positive e m) := by
    rw [unpack_ofParts, unpack_ofParts]
    split_ifs <;> rfl
  show Float.ofModel (Float.Model.pack (double s e m h).toModel.unpack.abs) = _
  rw [unpack_double, habs, ← unpack_double (h := h), pack_unpack_double]

theorem plainText_double : plainText (double s e m h) =
    signed (hasMinusSign (double s e m h)) (Magnitude.ofFloat (double s e m h)).plain := by
  have hne := ofFloat_double_ne (h := h) (s := s)
  rw [plainText]
  split
  · contradiction
  · rename_i hmagnitude
    rw [hmagnitude]
    rfl
  · rename_i hmagnitude
    rw [hmagnitude]
    rfl

theorem plainText_abs_double : plainText (Scalar.abs (double s e m h)) =
    (Magnitude.ofFloat (double .positive e m h)).plain := by
  rw [abs_double, plainText_double, signed, if_neg]
  rw [hasMinusSign_double]
  nofun

end Double

/-! ## Numbers -/

section Number

variable {x y : Float}

theorem exists_double (hx : x.isNaN = false) : ∃ s e m h, x = double s e m h := by
  rcases double_cases x with rfl | hdouble
  · have hnan : notANumber.isNaN = true := by decide +kernel
    rw [hnan] at hx
    cases hx
  · exact hdouble

theorem toBits_inj : x.toBits = y.toBits ↔ x = y := by
  refine ⟨fun h => ?_, fun h => h ▸ rfl⟩
  obtain ⟨⟨bits, hx⟩⟩ := x
  obtain ⟨⟨bits', hy⟩⟩ := y
  obtain rfl : bits = bits' := h
  rfl

/-- No two numbers have the same text. -/
theorem plainText_inj (hx : x.isNaN = false) (hy : y.isNaN = false)
    (h : plainText x = plainText y) : x = y := by
  obtain ⟨s, e, m, hparts, rfl⟩ := exists_double hx
  obtain ⟨s', e', m', hparts', rfl⟩ := exists_double hy
  have hproper := isProper_ofFloat_double (s := s) (h := hparts)
  have hproper' := isProper_ofFloat_double (s := s') (h := hparts')
  rw [plainText_double, plainText_double] at h
  obtain ⟨hminus, hplain⟩ :=
    signed_inj (Magnitude.head_plain hproper) (Magnitude.head_plain hproper') h
  obtain ⟨rfl, rfl⟩ := parts_eq_of_magnitude (Magnitude.plain_inj hproper hproper' hplain)
  have hsign : s = .negative ↔ s' = .negative := by
    rw [← hasMinusSign_double (h := hparts), hminus, hasMinusSign_double]
  rw [sign_eq_of_iff hsign]

theorem plainText_abs_inj (hx : x.isNaN = false) (hy : y.isNaN = false) (hx0 : (x == 0) = false)
    (hy0 : (y == 0) = false) (hside : x < 0 ↔ y < 0)
    (h : plainText (Scalar.abs x) = plainText (Scalar.abs y)) : x = y := by
  obtain ⟨s, e, m, hparts, rfl⟩ := exists_double hx
  obtain ⟨s', e', m', hparts', rfl⟩ := exists_double hy
  rw [double_beq_zero, decide_eq_false_iff_not] at hx0 hy0
  rw [double_lt_zero_iff, double_lt_zero_iff, and_iff_left hx0, and_iff_left hy0] at hside
  rw [plainText_abs_double, plainText_abs_double] at h
  obtain ⟨rfl, rfl⟩ := parts_eq_of_magnitude
    (Magnitude.plain_inj isProper_ofFloat_double isProper_ofFloat_double h)
  rw [sign_eq_of_iff hside]

theorem plainText_abs_chars (hx : x.isNaN = false) :
    (plainText (Scalar.abs x)).toList.head? ≠ some '-' ∧
      ∀ c ∈ (plainText (Scalar.abs x)).toList, c.isDigit = true ∨ c ∈ ['.', 'i', 'n', 'f'] := by
  obtain ⟨s, e, m, hparts, rfl⟩ := exists_double hx
  rw [plainText_abs_double]
  exact ⟨Magnitude.head_plain isProper_ofFloat_double,
    (Magnitude.plain_chars isProper_ofFloat_double).2⟩

/-- The text of a number has none of the characters between texts: no blank and no asterisk. -/
theorem plainText_chars (hx : x.isNaN = false) :
    ∀ c ∈ (plainText x).toList, c.isDigit = true ∨ c ∈ ['-', '.', 'i', 'n', 'f'] := by
  obtain ⟨s, e, m, hparts, rfl⟩ := exists_double hx
  obtain ⟨-, hchars⟩ := Magnitude.plain_chars (isProper_ofFloat_double (s := s) (h := hparts))
  intro c hc
  rw [plainText_double, mem_signed] at hc
  rcases hc with ⟨-, rfl⟩ | hc
  · exact .inr List.mem_cons_self
  · exact (hchars c hc).imp_right (List.mem_cons_of_mem _)

end Number

end TwoPhase
