/-
# `Minors` — integral equations give fractions with a small denominator

Let the equations be integral, right-hand sides included, and let `D`
bound their minors.  A tableau with a unit basis and the same solutions
has the equations as combinations of its rows, the weights being the
equations' own entries in the basic columns.  These columns are
independent, so as many of the equations as there are basic columns have
a determinant there that is not zero, and Cramer's rule makes every entry
of the tableau a quotient of two minors, the lower one always the same.
So no two entries lie close together without being the same: how close
they can come depends on `D` alone, and not on the pivots before.
-/
import Mathlib
import TwoPhase.Proofs.Forms

namespace TwoPhase

/-! ## Determinants -/

section Matrix

variable {m q : Nat}

theorem exists_submatrix_det_ne_zero (A : Matrix (Fin m) (Fin q) ℚ)
    (hA : ∀ v, A.mulVec v = 0 → v = 0) : ∃ ρ : Fin q → Fin m, (A.submatrix ρ id).det ≠ 0 := by
  have hinj : Function.Injective A.mulVecLin :=
    (injective_iff_map_eq_zero A.mulVecLin).mpr fun v hv => hA v hv
  have hrank : Module.finrank ℚ (Submodule.span ℚ (Set.range A.row)) = q := by
    rw [← Matrix.rank_eq_finrank_span_row, Matrix.rank, LinearMap.finrank_range_of_inj hinj,
      Module.finrank_fin_fun]
  obtain ⟨f, hf, hindep⟩ : ∃ f : Fin q → Fin q → ℚ, (∀ i, f i ∈ Set.range A.row) ∧
      LinearIndependent ℚ f := by
    have hspan := Submodule.exists_fun_fin_finrank_span_eq ℚ (Set.range A.row)
    rw [hrank] at hspan
    obtain ⟨f, hf, -, hindep⟩ := hspan
    exact ⟨f, hf, hindep⟩
  choose ρ hρ using hf
  refine ⟨ρ, ?_⟩
  have hrows : (A.submatrix ρ id).row = f := funext hρ
  have hunit := Matrix.linearIndependent_rows_iff_isUnit.mp (hrows ▸ hindep)
  exact ((Matrix.isUnit_iff_isUnit_det _).mp hunit).ne_zero

/-- Cramer's rule, for a right-hand side that is known to be met. -/
theorem det_mul_eq_det_updateCol (B : Matrix (Fin q) (Fin q) ℚ) (s : Fin q → ℚ) (a : Fin q) :
    B.det * s a = (B.updateCol a (B.mulVec s)).det := by
  rw [← Matrix.cramer_apply, Matrix.cramer_eq_adjugate_mulVec, Matrix.mulVec_mulVec,
    Matrix.adjugate_mul, Matrix.smul_mulVec, Matrix.one_mulVec, Pi.smul_apply, smul_eq_mul]

theorem exists_det_eq_intCast (A : Matrix (Fin q) (Fin q) ℚ) (hA : ∀ a b, (A a b).den = 1) :
    ∃ n : ℤ, A.det = n := by
  refine ⟨(Matrix.of fun a b => (A a b).num).det, ?_⟩
  have hcast : A = (Matrix.of fun a b => (A a b).num).map (Int.castRingHom ℚ) := by
    ext a b
    exact (Rat.coe_int_num_of_den_eq_one (hA a b)).symm
  rw [← eq_intCast (Int.castRingHom ℚ), RingHom.map_det]
  exact congrArg Matrix.det hcast

end Matrix

theorem exists_mul_sum_eq_intCast {β : Type} (d : ℤ) (f : β → ℚ) (xs : List β)
    (hf : ∀ x ∈ xs, ∃ n : ℤ, d * f x = n) : ∃ n : ℤ, d * (xs.map f).sum = n := by
  induction xs with
  | nil => exact ⟨0, by simp⟩
  | cons x xs ih =>
      obtain ⟨n, hn⟩ := hf x List.mem_cons_self
      obtain ⟨m, hm⟩ := ih fun y hy => hf y (List.mem_cons_of_mem _ hy)
      refine ⟨n + m, ?_⟩
      rw [List.map_cons, List.sum_cons, mul_add, hn, hm, Int.cast_add]

theorem exists_getD_eq_intCast {costs : List ℚ} (h : ∀ v ∈ costs, v.den = 1) (k : Nat) :
    ∃ n : ℤ, costs.getD k 0 = n := by
  rw [List.getD_eq_getElem?_getD]
  cases hk : costs[k]? with
  | none => exact ⟨0, Int.cast_zero.symm⟩
  | some v =>
      have hv := h v (List.mem_of_getElem? hk)
      exact ⟨v.num, (Rat.coe_int_num_of_den_eq_one hv).symm⟩

theorem eq_zero_or_lt_abs {d n : ℤ} {v E tol : ℚ} (hd : d ≠ 0) (hle : |(d : ℚ)| ≤ E)
    (hn : d * v = n) (htol : 0 ≤ tol) (hE : E * tol < 1) : v = 0 ∨ tol < |v| := by
  have hd' : (d : ℚ) ≠ 0 := Int.cast_ne_zero.mpr hd
  rcases eq_or_ne n 0 with rfl | hne
  · rw [Int.cast_zero] at hn
    exact .inl ((mul_eq_zero.mp hn).resolve_left hd')
  · have hone : 1 ≤ |(n : ℚ)| := by
      exact_mod_cast Int.one_le_abs hne
    have hlt : |(d : ℚ)| * tol < |(d : ℚ)| * |v| := by
      calc |(d : ℚ)| * tol ≤ E * tol := mul_le_mul_of_nonneg_right hle htol
        _ < 1 := hE
        _ ≤ |(n : ℚ)| := hone
        _ = |(d : ℚ)| * |v| := by rw [← hn, abs_mul]
    exact .inr (lt_of_mul_lt_mul_left hlt (abs_nonneg _))

/-! ## Equations with bounded minors -/

def block (rows : List (Row ℚ)) {k l : Nat} (ρ : Fin k → Fin rows.length) (γ : Fin l → Nat) :
    Matrix (Fin k) (Fin l) ℚ :=
  Matrix.of fun a b => (rows.get (ρ a)).entry (γ b)

/-- The rows are integral, and no minor of theirs exceeds the bound in magnitude. -/
structure HasMinorsUpTo (rows : List (Row ℚ)) (D : ℚ) : Prop where
  integral : ∀ r ∈ rows, ∀ j, (r.entry j).den = 1
  bounded : ∀ {k : Nat} (ρ : Fin k → Fin rows.length) (γ : Fin k → Nat),
    |(block rows ρ γ).det| ≤ D

theorem HasMinorsUpTo.mono {rows : List (Row ℚ)} {D E : ℚ} (h : HasMinorsUpTo rows D)
    (hle : D ≤ E) : HasMinorsUpTo rows E :=
  ⟨h.integral, fun ρ γ => (h.bounded ρ γ).trans hle⟩

/-- The entries of a tableau have a common denominator, and its constraint rows a bound on the
numerators. -/
structure Tableau.HasDenominator (t : Tableau ℚ) (d : ℤ) (D : ℚ) : Prop where
  ne_zero : d ≠ 0
  le : |(d : ℚ)| ≤ D
  rows : ∀ r ∈ t.rows, ∀ j ≤ t.columns.length, ∃ n : ℤ, d * r.entry j = n ∧ |(n : ℚ)| ≤ D
  objective : ∀ j ≤ t.columns.length, ∃ n : ℤ, d * t.objective.entry j = n

namespace Tableau

variable {t : Tableau ℚ}

/-! ## The basic columns are independent -/

def moved (t : Tableau ℚ) (v : Fin t.rows.length → ℚ) : List ℚ :=
  (List.range t.columns.length).map fun k =>
    t.valueOfColumn k + ∑ b, if (t.rows.get b).basic = k then v b else 0

theorem length_moved (t : Tableau ℚ) (v : Fin t.rows.length → ℚ) :
    (t.moved v).length = t.columns.length := by
  simp [moved]

theorem gap_moved (h : t.IsShaped) (v : Fin t.rows.length → ℚ) {w : Row ℚ}
    (hw : w.coeffs.length = t.columns.length) :
    w.gap (t.moved v) = w.gap t.basicPoint - ∑ b, w.entry (t.rows.get b).basic * v b := by
  have hcolumn : ∀ b : Fin t.rows.length,
      ∑ k ∈ Finset.range t.columns.length,
        w.entry k * (if (t.rows.get b).basic = k then v b else 0)
          = w.entry (t.rows.get b).basic * v b := by
    intro b
    have hlt := h.basic_lt _ (List.get_mem t.rows b)
    simp only [mul_ite, mul_zero]
    rw [Finset.sum_ite_eq, if_pos (Finset.mem_range.mpr hlt)]
  have hdot : dot w.coeffs (t.moved v)
      = dot w.coeffs t.basicPoint + ∑ b, w.entry (t.rows.get b).basic * v b := by
    rw [moved, basicPoint, dot_map_range hw, dot_map_range hw]
    simp only [mul_add, Finset.sum_add_distrib, Finset.mul_sum]
    rw [Finset.sum_comm, Finset.sum_congr rfl fun b _ => hcolumn b]
  rw [Row.gap, hdot, Row.gap]
  ring

theorem HasUnitBasis.eq_zero_of_sum_eq_zero (h : t.HasUnitBasis) {rows : List (Row ℚ)}
    (hwidth : ∀ w ∈ rows, w.coeffs.length = t.columns.length)
    (hsolved : ∀ y : List ℚ, y.length = t.columns.length →
      (t.SolvedBy y ↔ ∀ w ∈ rows, w.Holds y)) {v : Fin t.rows.length → ℚ}
    (hv : ∀ w ∈ rows, ∑ b, w.entry (t.rows.get b).basic * v b = 0) : v = 0 := by
  have hpoint := (hsolved _ (length_basicPoint t)).mp (solvedBy_basicPoint h)
  have hmoved : t.SolvedBy (t.moved v) := by
    refine (hsolved _ (length_moved t v)).mpr fun w hw => ?_
    rw [Row.holds_iff_gap, gap_moved h.shaped v (hwidth w hw), hv w hw, sub_zero]
    exact Row.holds_iff_gap.mp (hpoint w hw)
  funext a
  -- the row of the basic column sees no other move
  have hmem := List.get_mem t.rows a
  have hgap := Row.holds_iff_gap.mp (hmoved _ hmem)
  have hunit : ∀ b : Fin t.rows.length, (t.rows.get a).entry (t.rows.get b).basic * v b
      = if b = a then v b else 0 := by
    intro b
    have hentry : (t.rows.get a).entry (t.rows.get b).basic = if a.val = b.val then 1 else 0 :=
      h.entry_basic (List.getElem?_eq_getElem b.isLt) (List.getElem?_eq_getElem a.isLt)
    rw [hentry, ite_mul, one_mul, zero_mul]
    exact if_congr (by rw [Fin.ext_iff, eq_comm]) rfl rfl
  rw [gap_moved h.shaped v (h.shaped.rectangular.1 _ hmem),
    Row.holds_iff_gap.mp (solvedBy_basicPoint h _ hmem), zero_sub, neg_eq_zero,
    Finset.sum_congr rfl fun b _ => hunit b, Finset.sum_ite_eq', if_pos (Finset.mem_univ a)] at hgap
  exact hgap

/-! ## Cramer's rule -/

/-- The entries of a tableau with a unit basis are quotients of minors of any equations that
have its solutions. -/
theorem HasUnitBasis.exists_minors (h : t.HasUnitBasis) {rows : List (Row ℚ)}
    (hwidth : ∀ w ∈ rows, w.coeffs.length = t.columns.length)
    (hsolved : ∀ y : List ℚ, y.length = t.columns.length →
      (t.SolvedBy y ↔ ∀ w ∈ rows, w.Holds y)) :
    ∃ ρ : Fin t.rows.length → Fin rows.length,
      (block rows ρ fun b => (t.rows.get b).basic).det ≠ 0 ∧
      ∀ (a : Fin t.rows.length), ∀ j ≤ t.columns.length,
        (block rows ρ fun b => (t.rows.get b).basic).det * (t.rows.get a).entry j
          = (block rows ρ (Function.update (fun b => (t.rows.get b).basic) a j)).det := by
  obtain ⟨ρ, hdet⟩ := exists_submatrix_det_ne_zero
    (block rows id fun b : Fin t.rows.length => (t.rows.get b).basic) fun v hv =>
      h.eq_zero_of_sum_eq_zero hwidth hsolved fun w hw => by
        obtain ⟨i, rfl⟩ := List.get_of_mem hw
        exact congrFun hv i
  refine ⟨ρ, hdet, fun a j hj => ?_⟩
  -- column `j` of the equations is combined from their basic columns
  have hcolumn : (block rows ρ fun b => (t.rows.get b).basic).mulVec
      (fun b => (t.rows.get b).entry j) = fun c => (rows.get (ρ c)).entry j := by
    funext c
    have hmem := List.get_mem rows (ρ c)
    rw [h.entry_eq_sum (hwidth _ hmem) (fun y hy hy' => (hsolved y hy).mp hy' _ hmem) hj,
      ← Fin.sum_univ_fun_getElem]
    rfl
  rw [det_mul_eq_det_updateCol _ (fun b => (t.rows.get b).entry j), hcolumn]
  congr 1
  ext c b
  rw [Matrix.updateCol_apply, block, block, Matrix.of_apply, Matrix.of_apply, Function.update_apply]
  split <;> rfl

/-- The numbers of a reduced tableau of integral equations and integral costs are fractions
over the determinant of its basic columns. -/
theorem IsReduced.exists_hasDenominator (h : t.IsReduced) {rows : List (Row ℚ)} {D : ℚ}
    (hminors : HasMinorsUpTo rows D) (hwidth : ∀ w ∈ rows, w.coeffs.length = t.columns.length)
    (hsolved : ∀ y : List ℚ, y.length = t.columns.length →
      (t.SolvedBy y ↔ ∀ w ∈ rows, w.Holds y)) (costs : List ℚ)
    (hcosts : costs.length = t.columns.length) (hintegral : ∀ v ∈ costs, v.den = 1)
    (hvalue : ∀ y : List ℚ, y.length = t.columns.length → t.SolvedBy y →
      t.objective.gap y = dot costs y) : ∃ d, t.HasDenominator d D := by
  obtain ⟨ρ, hdet, hentry⟩ := h.unit.exists_minors hwidth hsolved
  have hint : ∀ γ : Fin t.rows.length → Nat, ∃ n : ℤ, (block rows ρ γ).det = n := by
    intro γ
    exact exists_det_eq_intCast _ fun a b => hminors.integral _ (List.get_mem rows (ρ a)) _
  obtain ⟨d, hd⟩ := hint fun b => (t.rows.get b).basic
  have hrows : ∀ r ∈ t.rows, ∀ j ≤ t.columns.length,
      ∃ n : ℤ, d * r.entry j = n ∧ |(n : ℚ)| ≤ D := by
    intro r hr j hj
    obtain ⟨a, rfl⟩ := List.get_of_mem hr
    obtain ⟨n, hn⟩ := hint (Function.update (fun b => (t.rows.get b).basic) a j)
    refine ⟨n, ?_, ?_⟩
    · rw [← hd, hentry a j hj, hn]
    · rw [← hn]
      exact hminors.bounded ρ _
  refine ⟨d, ?_⟩
  constructor
  case ne_zero =>
    rintro rfl
    exact hdet (hd.trans Int.cast_zero)
  case le =>
    rw [← hd]
    exact hminors.bounded ρ _
  case rows => exact hrows
  case objective =>
    -- the objective row is priced, so it is combined from the rows and the costs
    intro j hj
    obtain ⟨n, hn⟩ := exists_mul_sum_eq_intCast d (fun r => costs.getD r.basic 0 * r.entry j)
      t.rows fun r hr => by
        obtain ⟨c, hc⟩ := exists_getD_eq_intCast hintegral r.basic
        obtain ⟨e, he, -⟩ := hrows r hr j hj
        refine ⟨c * e, ?_⟩
        rw [hc, Int.cast_mul, ← he]
        ring
    obtain ⟨c, hc⟩ := exists_getD_eq_intCast hintegral j
    refine ⟨n - d * c, ?_⟩
    rw [h.objective_eq_pricedRow hcosts hvalue, h.unit.entry_pricedRow hcosts, mul_sub, hn, hc,
      Int.cast_sub, Int.cast_mul]

end Tableau

end TwoPhase
