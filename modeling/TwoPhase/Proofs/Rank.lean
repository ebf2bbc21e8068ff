/-
# `Rank` — how many rows remain

With nothing tolerated, the rows that remain when the artificial columns
have been driven out are as many as the equations of the program are
independent.  The rows left have a unit vector each in their basic columns,
so none depends on the others; and what solves them are the solutions of
the equations with the artificial variables at zero, so both systems let
the same vectors vanish and have one rank.
-/
import Mathlib
import TwoPhase.Proofs.Phases
import TwoPhase.Proofs.BasicPoint
import TwoPhase.Proofs.Sweep

namespace TwoPhase

open Matrix

/-- Matrices that let the same vectors vanish have one rank. -/
theorem rank_eq_of_mulVec_eq_zero_iff {m m' n : Type} [Fintype m] [Fintype m'] [Fintype n]
    {A : Matrix m n ℚ} {B : Matrix m' n ℚ} (h : ∀ v, A *ᵥ v = 0 ↔ B *ᵥ v = 0) :
    A.rank = B.rank := by
  have hker : A.mulVecLin.ker = B.mulVecLin.ker := by
    ext v
    simpa using h v
  have hA := A.mulVecLin.finrank_range_add_finrank_ker
  have hB := B.mulVecLin.finrank_range_add_finrank_ker
  rw [hker] at hA
  rw [Matrix.rank, Matrix.rank]
  omega

/-! ## Rows as a matrix -/

/-- The coefficients that rows have in the first `n` columns. -/
def frontMatrix (rows : List (BasicRow ℚ)) (n : Nat) : Matrix (Fin rows.length) (Fin n) ℚ :=
  .of fun i j => rows[i].entry j

theorem dot_ofFn {r : Row ℚ} {n : Nat} (hn : n ≤ r.coeffs.length) (v : Fin n → ℚ) (a : Nat) :
    dot r.coeffs (List.ofFn v ++ List.replicate a 0) = ∑ j : Fin n, r.entry j * v j := by
  rw [← dot_take, dot_eq_sum_range_right, List.length_ofFn, Finset.sum_range]
  refine Finset.sum_congr rfl fun j _ => ?_
  have hj : (j : Nat) < r.coeffs.length := j.isLt.trans_le hn
  rw [Row.entry_eq_getD r hj, List.getD_eq_getElem?_getD, List.getElem?_take_of_lt j.isLt,
    ← List.getD_eq_getElem?_getD, List.getD_eq_getElem (List.ofFn v) 0 (by simp), List.getElem_ofFn]

theorem frontMatrix_mulVec_eq_zero_iff {rows : List (BasicRow ℚ)} {n a : Nat}
    (hn : ∀ r ∈ rows, n ≤ r.coeffs.length) {v₀ : Fin n → ℚ}
    (h₀ : ∀ r ∈ rows, r.Holds (List.ofFn v₀ ++ List.replicate a 0)) (v : Fin n → ℚ) :
    frontMatrix rows n *ᵥ v = 0 ↔
      ∀ r ∈ rows, r.Holds (List.ofFn (v₀ + v) ++ List.replicate a 0) := by
  have hrow : ∀ r ∈ rows, r.Holds (List.ofFn (v₀ + v) ++ List.replicate a 0) ↔
      ∑ j : Fin n, r.entry j * v j = 0 := by
    intro r hr
    have hrhs : ∑ j : Fin n, r.entry j * v₀ j = r.rhs := by
      rw [← dot_ofFn (hn r hr) v₀ a]
      exact h₀ r hr
    rw [Row.Holds, dot_ofFn (hn r hr)]
    simp only [Pi.add_apply, mul_add, Finset.sum_add_distrib, hrhs, add_eq_left]
  constructor
  · intro h r hr
    obtain ⟨i, hi, rfl⟩ := List.getElem_of_mem hr
    exact (hrow _ hr).mpr (congrFun h ⟨i, hi⟩)
  · intro h
    funext i
    exact (hrow _ (List.getElem_mem i.isLt)).mp (h _ (List.getElem_mem i.isLt))

namespace Tableau

variable {t : Tableau ℚ}

/-- The place of the basic column of a row among the columns. -/
def HasUnitBasis.basicPlace (h : t.HasUnitBasis) (k : Fin t.rows.length) :
    Fin t.columns.length :=
  ⟨t.rows[k].basic, h.shaped.basic_lt _ (List.getElem_mem k.isLt)⟩

theorem HasUnitBasis.submatrix_basicPlace (h : t.HasUnitBasis) :
    (frontMatrix t.rows t.columns.length).submatrix id h.basicPlace = 1 := by
  ext i k
  have hentry : t.rows[i].entry t.rows[k].basic = if (i : Nat) = k then 1 else 0 :=
    h.entry_basic (List.getElem?_eq_getElem k.isLt) (List.getElem?_eq_getElem i.isLt)
  simp only [Matrix.one_apply, Fin.ext_iff]
  exact hentry

theorem HasUnitBasis.rank_frontMatrix (h : t.HasUnitBasis) :
    (frontMatrix t.rows t.columns.length).rank = t.rows.length := by
  -- a product picks the basic columns out
  have hunit : frontMatrix t.rows t.columns.length
      * (1 : Matrix (Fin t.columns.length) (Fin t.columns.length) ℚ).submatrix (Equiv.refl _)
        h.basicPlace = 1 :=
    (Matrix.mul_submatrix_one _ _ _).trans h.submatrix_basicPlace
  apply le_antisymm
  · simpa using (frontMatrix t.rows t.columns.length).rank_le_card_height
  · have hle := Matrix.rank_mul_le_left (frontMatrix t.rows t.columns.length)
      ((1 : Matrix (Fin t.columns.length) (Fin t.columns.length) ℚ).submatrix (Equiv.refl _)
        h.basicPlace)
    rwa [hunit, Matrix.rank_one, Fintype.card_fin] at hle

theorem ofFn_valueOfColumn (t : Tableau ℚ) :
    List.ofFn (fun j : Fin t.columns.length => t.valueOfColumn j) = t.basicPoint := by
  refine List.ext_getElem ?_ fun k hk hk' => ?_
  · rw [List.length_ofFn, length_basicPoint]
  · simp [basicPoint]

end Tableau

/-! ## The equations without their artificial columns -/

/-- The coefficients of the equations in the columns that are not artificial. -/
def StandardForm.realMatrix (f : StandardForm ℚ) :
    Matrix (Fin f.rows.length) {j : Fin f.columns.length // ¬ f.columns[j].IsArtificial} ℚ :=
  .of fun i j => f.rows[i].entry j.1

section Program

open StandardForm

variable {p : Program ℚ} {run : Run ℚ}

theorem length_realColumns_le (p : Program ℚ) :
    (realColumns p).length ≤ (layout p).columns.length :=
  List.IsPrefix.length_le ⟨_, (columns_layout_eq p).symm⟩

def realPlaces (p : Program ℚ) : Fin (realColumns p).length ≃
    {j : Fin (layout p).columns.length // ¬ (layout p).columns[j].IsArtificial} where
  toFun k :=
    have hk : (k : Nat) < (layout p).columns.length := k.isLt.trans_le (length_realColumns_le p)
    ⟨⟨k, hk⟩, mt (isArtificial_iff_le (List.getElem?_eq_getElem hk)).mp (not_le.mpr k.isLt)⟩
  invFun j := ⟨j.1, not_le.mp (mt (isArtificial_iff_le (List.getElem?_eq_getElem j.1.isLt)).mpr
    j.2)⟩
  left_inv _ := rfl
  right_inv _ := rfl

theorem rank_realMatrix (p : Program ℚ) :
    (layout p).realMatrix.rank = (frontMatrix (layout p).rows (realColumns p).length).rank :=
  ((layout p).realMatrix.rank_submatrix (Equiv.refl _) (realPlaces p)).symm

/-- What is left without artificial columns are as many rows as the equations are
independent. -/
theorem Run.IsCleared.length_rows_eq_rank (hrun : run.IsCleared (layout p))
    (h : p.objection = none) : run.tableau.rows.length = (layout p).realMatrix.rank := by
  have hcolumns : run.tableau.columns = realColumns p :=
    hrun.columns_eq.trans (columns_phaseTwoAim p)
  have hlen : run.tableau.columns.length = (realColumns p).length := congrArg _ hcolumns
  have hsolves : ∀ v : Fin (realColumns p).length → ℚ,
      run.tableau.SolvedBy (List.ofFn v) ↔
        ∀ r ∈ (layout p).rows, r.Holds ((layout p).extend (List.ofFn v)) := fun v =>
    hrun.solvedBy_iff _ (by rw [List.length_ofFn, columns_phaseTwoAim])
  -- both systems are solved by the basic point, and their kernels lead on from it
  obtain ⟨v₀, hpoint⟩ : ∃ v₀ : Fin (realColumns p).length → ℚ,
      List.ofFn v₀ = run.tableau.basicPoint := by
    rw [← hlen]
    exact ⟨_, run.tableau.ofFn_valueOfColumn⟩
  have hleft : run.tableau.SolvedBy (List.ofFn v₀) := by
    rw [hpoint]
    exact Tableau.solvedBy_basicPoint hrun.unit
  have hkernel : ∀ v, frontMatrix run.tableau.rows (realColumns p).length *ᵥ v = 0 ↔
      frontMatrix (layout p).rows (realColumns p).length *ᵥ v = 0 := by
    intro v
    have hwidth : ∀ r ∈ run.tableau.rows, (realColumns p).length ≤ r.coeffs.length :=
      fun r hr => (hrun.unit.shaped.rectangular.1 r hr).trans hlen |>.ge
    have hwidth' : ∀ r ∈ (layout p).rows, (realColumns p).length ≤ r.coeffs.length :=
      fun r hr => (length_realColumns_le p).trans
        ((isShaped_tableau_layout h).rectangular.1 r hr).ge
    have hleft' : ∀ r ∈ run.tableau.rows, r.Holds (List.ofFn v₀ ++ List.replicate 0 0) := by
      rwa [List.replicate_zero, List.append_nil]
    rw [frontMatrix_mulVec_eq_zero_iff hwidth hleft',
      frontMatrix_mulVec_eq_zero_iff hwidth' ((hsolves v₀).mp hleft), List.replicate_zero,
      List.append_nil]
    exact hsolves (v₀ + v)
  rw [rank_realMatrix, ← rank_eq_of_mulVec_eq_zero_iff hkernel, ← hlen]
  exact hrun.unit.rank_frontMatrix.symm

/-- Where phase 1 has ended well, the artificial columns are driven out, or the budget runs out
on the way.  In the first case the rows were swept once from the first to the last, the rows
that remain stand in their order and were pivoted at most once each, every artificial basic
column cost one swap or one row, and no artificial column is left, basic or not.  In the second
case the solve stops with all artificial columns in place.  With nothing tolerated, the rows
that remain are as many as the equations are independent in the columns that are not
artificial. -/
theorem dropArtificials_clears (settings : Settings ℚ) {f : StandardForm ℚ}
    (hf : ofProgram p = .ok f) (hart : f.HasArtificials)
    (hrun : phaseOne settings f (settings.budget f) (.start p) = .ok (run, none)) :
    ∃ last stop, dropArtificials settings.tol (settings.budget f) run = .ok (last, stop) ∧
      (stop = none → ∃ fates swaps, DrivenOut settings.tol run last fates swaps) ∧
      (∀ e, stop = some e → e = .iterationLimit (settings.budget f) ∧
        last.tableau.columns = f.columns ∧
        solve settings p = .ok (.ofError e last.steps.toList (some last.tableau) last.pivots)) ∧
      (settings.tol = 0 → settings.feasibilityTol = 0 → stop = none →
        last.tableau.rows.length = f.realMatrix.rank) := by
  obtain ⟨h, rfl⟩ : p.objection = none ∧ f = layout p := by
    rw [ofProgram_eq] at hf
    cases h : p.objection with
    | some o => exact nomatch h ▸ hf
    | none =>
        rw [h] at hf
        exact ⟨rfl, (Except.ok.inj hf).symm⟩
  have hshaped := isShaped_tableau_layout h
  have hcourse : Course settings (layout p) (.clearing 0) run := by
    obtain ⟨run', stop, hrun', hpost⟩ : Reaches (phaseOne settings (layout p) _ (.start p)) _ _ :=
      phaseOne_course h hart
    cases hrun.symm.trans hrun'
    exact hpost
  have hcolumns : run.tableau.columns = (layout p).columns :=
    hcourse.columns_eq (isOrdered_layout h)
  obtain ⟨last, stop, hdrop, hlast⟩ := dropArtificials_drivenOut settings.tol
    (settings.budget (layout p)) (hcourse.shaped hshaped) hcolumns
  -- the sweep and the course both speak of the one run returned
  obtain ⟨last', stop', hdrop', hcleared⟩ := dropArtificials_course hcourse hshaped
  cases hdrop.symm.trans hdrop'
  refine ⟨last, stop, hdrop, ?_, ?_, ?_⟩
  · rintro rfl
    exact hlast
  · rintro e rfl
    obtain ⟨rfl, hkept⟩ := hlast
    have hstops : Stops settings (layout p) last (.iterationLimit last.pivots) := hcleared
    refine ⟨congrArg _ hstops.eq_budget.1, hkept.trans hcolumns, ?_⟩
    have hphases : bothPhases settings (layout p) (settings.budget (layout p)) (.start p)
        = .ok (last, some (.iterationLimit last.pivots)) := by
      rw [bothPhases, if_pos hart, hrun]
      show (dropArtificials _ _ run >>= fun stage => stage.next _) = _
      rw [hdrop]
      rfl
    exact solve_of_bothPhases h hphases
  · rintro htol hfeasibility rfl
    obtain ⟨tol, feasibilityTol, m⟩ := settings
    obtain rfl : tol = 0 := htol
    obtain rfl : feasibilityTol = 0 := hfeasibility
    have hheeds : Run.IsCleared last (layout p) := Course.heeds hcleared h
    exact hheeds.length_rows_eq_rank h

/-- A row whose artificial column is swapped, and one that is dropped. -/
theorem dropArtificials_clears_dependent :
    let p : Program ℚ := ⟨2, [3, 2], [⟨[1, 1], .equal, 4⟩, ⟨[1, -1], .equal, 4⟩,
      ⟨[1, 0], .atMost, 7⟩, ⟨[-2, -2], .equal, -8⟩], .maximize⟩
    let settings : Settings ℚ := ⟨0, 0, none⟩
    ∃ f run last fates swaps, ofProgram p = .ok f ∧ f.HasArtificials ∧
      phaseOne settings f (settings.budget f) (.start p) = .ok (run, none) ∧
      dropArtificials settings.tol (settings.budget f) run = .ok (last, none) ∧
      DrivenOut settings.tol run last fates swaps ∧ last.tableau.rows.length = 3 ∧
      f.realMatrix.rank = 3 := by
  intro p settings
  have hf : ofProgram p = .ok (layout p) := ofProgram_eq_ok (by decide +kernel)
  have hart : (layout p).HasArtificials := by decide +kernel
  have hend : (phaseOne settings (layout p) (settings.budget (layout p)) (.start p)).toOption.map
      (fun stage => (stage.2.isNone,
        (dropArtificials settings.tol (settings.budget (layout p)) stage.1).toOption.map
          fun stage => (stage.2.isNone, stage.1.tableau.rows.length))) =
      some (true, some (true, 3)) := by
    decide +kernel
  cases hrun : phaseOne settings (layout p) (settings.budget (layout p)) (.start p) with
  | error fault => exact nomatch hrun ▸ hend
  | ok stage =>
      obtain ⟨run, stop⟩ := stage
      rw [hrun] at hend
      cases stop with
      | some e => exact nomatch hend
      | none =>
          obtain ⟨last, stop, hdrop, hdriven, -, hrank⟩ :=
            dropArtificials_clears settings hf hart hrun
          simp only [hdrop, Except.toOption, Option.map_some, Option.some.injEq, Prod.mk.injEq,
            Option.isNone_iff_eq_none] at hend
          obtain ⟨-, hstop, hrows⟩ := hend
          subst hstop
          obtain ⟨fates, swaps, hdriven⟩ := hdriven rfl
          exact ⟨layout p, run, last, fates, swaps, hf, hart, hrun, hdrop, hdriven, hrows,
            (hrank rfl rfl rfl).symm.trans hrows⟩

end Program

end TwoPhase
