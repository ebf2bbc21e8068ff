/-
# `Clear` — where tolerances decide nothing

With tolerances a solve can end in an optimum that is far from meeting the
constraints.  A near tie lets a row leave that has not the least ratio, an
artificial column is replaced although it is not at zero but within the
tolerance of feasibility, and an entry that is snapped may be multiplied
by a large one later on; each of these moves right-hand sides by more than
the tolerance.

A tableau is clear when the tolerance has nothing to decide on it: the
numbers that a choice compares are equal or further apart than the
tolerance, and no number but zero is snapped.  Where every tableau that an
exact solve can come to is clear, the solve with tolerances takes the
course of the exact one step by step, and all that holds of the exact
solve holds of it.  For programs in whole numbers this is a matter of
their size.
-/
import Mathlib
import TwoPhase.Proofs.Coarse
import TwoPhase.Proofs.Verdict

namespace TwoPhase

/-! ## Scans that agree -/

/-- Equal, or told apart under the tolerance. -/
def Apart (tol a b : ℚ) : Prop := a = b ∨ tol < |a - b|

theorem Apart.sub {tol a b : ℚ} (h : Apart tol a b) : a - b = 0 ∨ tol < |a - b| :=
  h.imp_left sub_eq_zero.mpr

theorem Apart.exceeds_iff {tol a b : ℚ} (h : Apart tol a b) (htol : 0 ≤ tol) :
    Exceeds tol a b ↔ Exceeds 0 a b := by
  have hsub := lt_iff_pos h.sub htol
  rw [TwoPhase.exceeds_iff htol, TwoPhase.exceeds_iff le_rfl, add_zero, ← lt_sub_iff_add_lt',
    hsub, sub_pos]

theorem foldl_held_congr {α : Type} {yields yields' : α → α → Bool} {cands : List (α × Nat)}
    (h : ∀ a ∈ cands, ∀ b ∈ cands, yields a.1 b.1 = yields' a.1 b.1) :
    ∀ (rest : List (α × Nat)) (held : α × Nat), rest ⊆ cands → held ∈ cands →
      rest.foldl (fun held next => if yields held.1 next.1 then next else held) held
        = rest.foldl (fun held next => if yields' held.1 next.1 then next else held) held := by
  intro rest
  induction rest with
  | nil => exact fun _ _ _ => rfl
  | cons next rest ih =>
      intro held hrest hheld
      have hnext : next ∈ cands := hrest List.mem_cons_self
      have hmem : (if yields' held.1 next.1 then next else held) ∈ cands := by
        split
        · exact hnext
        · exact hheld
      rw [List.foldl_cons, List.foldl_cons, h held hheld next hnext]
      exact ih _ (fun c hc => hrest (List.mem_cons_of_mem _ hc)) hmem

theorem scan_congr {α : Type} {yields yields' : α → α → Bool} {cands : List (α × Nat)}
    (h : ∀ a ∈ cands, ∀ b ∈ cands, yields a.1 b.1 = yields' a.1 b.1) :
    scan yields cands = scan yields' cands := by
  cases cands with
  | nil => rfl
  | cons first rest =>
      rw [scan, scan, foldl_held_congr h rest first (List.subset_cons_self _ _)
        List.mem_cons_self]

/-! ## Clear tableaux -/

/-- The tolerance decides nothing about the tableau: neither what is zero, nor which of two
reduced costs, two ratios of a column or two magnitudes of a row is the greater. -/
structure Tableau.IsClear (t : Tableau ℚ) (tol : ℚ) : Prop where
  coarse : t.IsCoarse tol
  costs : ∀ j < t.columns.length, ∀ k < t.columns.length,
    Apart tol (t.objective.entry j) (t.objective.entry k)
  ratios : ∀ j < t.columns.length, ∀ r ∈ t.rows, ∀ s ∈ t.rows, 0 < r.entry j → 0 < s.entry j →
    Apart tol (r.rhs / r.entry j) (s.rhs / s.entry j)
  magnitudes : ∀ r ∈ t.rows, ∀ j < t.columns.length, ∀ k < t.columns.length,
    Apart tol |r.entry j| |r.entry k|

/-- Every tableau that pursues the aim of one of the phases is clear, and the tolerance of
feasibility does not decide whether an artificial sum is zero. -/
structure StandardForm.IsClear (f : StandardForm ℚ) (tol feasibilityTol : ℚ) : Prop where
  phaseOne : ∀ t : Tableau ℚ, t.Pursues f.phaseOneAim → t.IsClear tol
  phaseTwo : ∀ t : Tableau ℚ, t.Pursues f.phaseTwoAim → t.IsClear tol
  residual : ∀ t : Tableau ℚ, t.Pursues f.phaseOneAim → Apart feasibilityTol 0 t.objectiveValue

namespace Tableau

variable {t : Tableau ℚ} {tol : ℚ} {r : BasicRow ℚ}

theorem IsClear.of_subset (h : t.IsClear tol) {rows : List (BasicRow ℚ)} (hsub : rows ⊆ t.rows) :
    ({ t with rows } : Tableau ℚ).IsClear tol := by
  refine ⟨?_, h.costs, ?_, fun r hr => h.magnitudes r (hsub hr)⟩
  · intro r hr
    rcases List.mem_append.mp hr with hr | hr
    · obtain ⟨s, hs, rfl⟩ := List.mem_map.mp hr
      exact fun j hj => h.coarse.row (hsub hs) hj
    · exact h.coarse r (List.mem_append_right _ hr)
  · exact fun j hj r hr s hs => h.ratios j hj r (hsub hr) s (hsub hs)

theorem entering_eq_of_isClear (h : t.IsClear tol) (ht : t.IsRectangular) (htol : 0 ≤ tol) :
    t.entering tol = t.entering 0 := by
  have hentry : ∀ {v : ℚ} {j : Nat}, t.objective.coeffs[j]? = some v →
      j < t.columns.length ∧ t.objective.entry j = v := by
    rw [← ht.2]
    exact Row.lt_and_entry_of_getElem?
  have hcands : t.enteringCandidates tol = t.enteringCandidates 0 := by
    refine List.filter_congr fun q hq => ?_
    obtain ⟨hj, hv⟩ := hentry (List.mem_zipIdx_iff_getElem?.mp hq)
    have hcoarse := h.coarse.objective hj.le
    rw [hv, ← neg_eq_zero, ← abs_neg] at hcoarse
    refine decide_eq_decide.mpr ?_
    rw [lt_neg, neg_zero, ← neg_pos]
    exact lt_iff_pos hcoarse htol
  rw [entering, entering, hcands]
  refine scan_congr fun a ha b hb => decide_eq_decide.mpr ?_
  obtain ⟨hj, hv⟩ := hentry (mem_enteringCandidates.mp ha).1
  obtain ⟨hk, hw⟩ := hentry (mem_enteringCandidates.mp hb).1
  rw [← hv, ← hw]
  exact (h.costs _ hj _ hk).exceeds_iff htol

theorem leastRatioRow_eq_of_isClear (h : t.IsClear tol) (htol : 0 ≤ tol) {j : Nat}
    (hj : j < t.columns.length) : t.leastRatioRow j tol = t.leastRatioRow j 0 := by
  have hcands : t.leavingCandidates j tol = t.leavingCandidates j 0 := by
    rw [leavingCandidates, leavingCandidates]
    congr 1
    refine List.filter_congr fun q hq => decide_eq_decide.mpr ?_
    exact lt_iff_pos (h.coarse.row (List.fst_mem_of_mem_zipIdx hq) hj.le) htol
  rw [leastRatioRow, leastRatioRow, hcands]
  refine scan_congr fun a ha b hb => decide_eq_decide.mpr ?_
  obtain ⟨r, hr, hrpos, ha⟩ := mem_leavingCandidates.mp ha
  obtain ⟨s, hs, hspos, hb⟩ := mem_leavingCandidates.mp hb
  rw [ha, hb]
  exact (h.ratios j hj r (List.mem_of_getElem? hr) s (List.mem_of_getElem? hs) hrpos
    hspos).exceeds_iff htol

theorem largestColumn_eq_of_isClear (h : t.IsClear tol) (ht : t.IsRectangular) (htol : 0 ≤ tol)
    (hr : r ∈ t.rows) : t.largestColumn r.toRow tol = t.largestColumn r.toRow 0 := by
  have hentry : ∀ {v : ℚ} {j : Nat}, r.coeffs[j]? = some v →
      j < t.columns.length ∧ r.entry j = v := by
    rw [← ht.1 r hr]
    exact Row.lt_and_entry_of_getElem?
  have hcands : t.replacementCandidates r.toRow tol = t.replacementCandidates r.toRow 0 := by
    rw [replacementCandidates, replacementCandidates]
    congr 1
    refine List.filter_congr fun q hq => decide_eq_decide.mpr (and_congr_right fun _ => ?_)
    have hzip := List.mem_zipIdx_iff_getElem?.mp hq
    obtain ⟨hj, hv⟩ := hentry (List.getElem?_zip_eq_some.mp hzip).1
    rw [scalarAbs_eq_abs, ← hv]
    have hcoarse : |r.entry q.2| = 0 ∨ tol < |(|r.entry q.2|)| := by
      rw [abs_eq_zero, abs_abs]
      exact h.coarse.row hr hj.le
    exact lt_iff_pos hcoarse htol
  rw [largestColumn, largestColumn, hcands]
  refine scan_congr fun a ha b hb => decide_eq_decide.mpr ?_
  obtain ⟨hj, hv⟩ := hentry (mem_replacementCandidates.mp ha).1
  obtain ⟨hk, hw⟩ := hentry (mem_replacementCandidates.mp hb).1
  rw [scalarAbs_eq_abs, scalarAbs_eq_abs, ← hv, ← hw]
  exact (h.magnitudes r hr _ hk _ hj).exceeds_iff htol

/-- On a clear tableau the rules of entering and leaving do what the exact ones do. -/
theorem choose_eq_of_isClear (h : t.IsClear tol) (ht : t.IsRectangular) (htol : 0 ≤ tol) :
    t.choose tol = t.choose 0 := by
  rw [choose, choose, entering_eq_of_isClear h ht htol]
  cases hj : t.entering 0 with
  | none => rfl
  | some j =>
      have hlt := entering_lt ht hj
      simp only [leaving_of_lt ht hlt, leastRatioRow_eq_of_isClear h htol hlt]

end Tableau

/-! ## The solve takes the course of the exact one -/

section Course

open StandardForm

variable {p : Program ℚ} {m : Option Nat} {part : Part} {run : Run ℚ} {i : Nat}
  {tol feasibilityTol : ℚ}

theorem StandardForm.IsClear.of_pursues {f : StandardForm ℚ} (h : f.IsClear tol feasibilityTol)
    {phase : Nat} {t : Tableau ℚ} (ht : t.Pursues (f.aimOf phase)) : t.IsClear tol := by
  unfold aimOf at ht
  split at ht
  · exact h.phaseOne t ht
  · exact h.phaseTwo t ht

theorem Tableau.Pursues.swap {t : Tableau ℚ} {aim : Aim} (h : t.Pursues aim) {cell : Cell}
    {r : BasicRow ℚ} (hr : t.rows[cell.row]? = some r) (hc : cell.column < t.columns.length)
    (hne : r.entry cell.column ≠ 0) (hlevel : r.rhs = 0) :
    (t.pivotOn r.toRow cell 0).Pursues aim := by
  have hshaped := h.shaped
  refine ⟨h.expresses.pivotOn hshaped.rectangular hr hc hne,
    h.basic.unit.pivotOn zero_le_one hr hc hne, h.basic.priced.pivotOn h.basic.unit hr hc, ?_⟩
  intro s hs
  obtain ⟨k, hk⟩ := List.mem_iff_getElem?.mp hs
  obtain ⟨s₀, hs₀, hsame⟩ := Tableau.rhs_pivotOn_of_rhs_eq_zero hshaped hr hc hlevel hk
  rw [hsame]
  exact h.basic.feasible s₀ (List.mem_of_getElem? hs₀)

theorem Tableau.rows_pivotOn_subset {t u : Tableau ℚ} (ht : t.HasUnitBasis) {r : BasicRow ℚ}
    {i k j : Nat} (hsub : t.rows ⊆ u.rows) (hi : t.rows[i]? = some r) (hk : u.rows[k]? = some r) :
    (t.pivotOn r.toRow ⟨i, j⟩ 0).rows ⊆ (u.pivotOn r.toRow ⟨k, j⟩ 0).rows := by
  intro s hs
  obtain ⟨l, hl⟩ := List.mem_iff_getElem?.mp hs
  rcases Tableau.pivotOn_row_cases hl with ⟨-, rfl⟩ | ⟨hne, s₀, hs₀, rfl⟩
  · refine List.mem_of_getElem? (i := k) ?_
    rw [Tableau.getElem?_rows_pivotOn, hk, Option.map_some, if_pos rfl]
  · obtain ⟨n, hn⟩ := List.mem_iff_getElem?.mp (hsub (List.mem_of_getElem? hs₀))
    have hnk : n ≠ k := by
      rintro rfl
      cases hn.symm.trans hk
      exact hne (ht.basic_inj hs₀ hi rfl)
    refine List.mem_of_getElem? (i := n) ?_
    rw [Tableau.getElem?_rows_pivotOn, hn, Option.map_some, if_neg hnk]

theorem Course.exists_pursues (hrun : Course ⟨0, 0, m⟩ (layout p) part run)
    (h : p.objection = none) (hpart : part = .clearing i) :
    ∃ rows, run.tableau.rows ⊆ rows ∧
      ({ run.tableau with rows } : Tableau ℚ).Pursues (layout p).phaseOneAim := by
  induction hrun generalizing i with
  | start _ => exact nomatch hpart
  | direct _ => exact nomatch hpart
  | pivot _ _ _ _ _ => exact nomatch hpart
  | settle _ _ _ => exact nomatch hpart
  | @clear run hrun hresidual _ =>
      have hpursued : run.HasPursued (layout p) 1 := hrun.heeds h
      exact ⟨run.tableau.rows, List.Subset.refl _, hpursued.pursues⟩
  | keep _ _ _ ih => exact ih rfl
  | @swap _ j run r log hrun hr hart hj _ ih =>
      have hclearing : run.IsClearing (layout p) := hrun.heeds h
      obtain ⟨rows, hsub, hpursues⟩ := ih rfl
      obtain ⟨k, hk⟩ := List.mem_iff_getElem?.mp (hsub (List.mem_of_getElem? hr))
      have hne := Tableau.entry_ne_zero_of_largestColumn le_rfl hj
      have hlevel := hclearing.level r (List.mem_of_getElem? hr) hart
      have hc : (⟨k, j⟩ : Cell).column < run.tableau.columns.length := Tableau.largestColumn_lt hj
      exact ⟨_, Tableau.rows_pivotOn_subset (u := { run.tableau with rows }) hclearing.unit hsub
        hr hk, hpursues.swap hk hc hne hlevel⟩
  | drop _ _ _ _ ih =>
      obtain ⟨rows, hsub, hpursues⟩ := ih rfl
      exact ⟨rows, List.Subset.trans List.eraseIdx_subset hsub, hpursues⟩
  | restrict _ _ _ => exact nomatch hpart
  | reprice _ _ => exact nomatch hpart

theorem Course.isClear_of_pivoting {phase : Nat}
    (hrun : Course ⟨0, 0, m⟩ (layout p) (.pivoting phase) run) (h : p.objection = none)
    (hclear : (layout p).IsClear tol feasibilityTol) : run.tableau.IsClear tol := by
  have hpursuing : run.IsPursuing (layout p) phase := hrun.heeds h
  exact hclear.of_pursues hpursuing.pursues

theorem Course.isClear_of_clearing (hrun : Course ⟨0, 0, m⟩ (layout p) (.clearing i) run)
    (h : p.objection = none) (hclear : (layout p).IsClear tol feasibilityTol) :
    run.tableau.IsClear tol := by
  obtain ⟨rows, hsub, hpursues⟩ := hrun.exists_pursues h rfl
  exact (hclear.phaseOne _ hpursues).of_subset hsub

theorem Course.isRectangular (hrun : Course ⟨0, 0, m⟩ (layout p) part run)
    (h : p.objection = none) : run.tableau.IsRectangular :=
  (hrun.shaped (isShaped_tableau_layout h)).rectangular

theorem Course.choose_eq {phase : Nat} (hrun : Course ⟨0, 0, m⟩ (layout p) (.pivoting phase) run)
    (h : p.objection = none) (htol : 0 ≤ tol) (hclear : (layout p).IsClear tol feasibilityTol) :
    run.tableau.choose tol = run.tableau.choose 0 :=
  Tableau.choose_eq_of_isClear (hrun.isClear_of_pivoting h hclear) (hrun.isRectangular h) htol

theorem Course.largestColumn_eq (hrun : Course ⟨0, 0, m⟩ (layout p) (.clearing i) run)
    (h : p.objection = none) (htol : 0 ≤ tol) (hclear : (layout p).IsClear tol feasibilityTol)
    {r : BasicRow ℚ} (hr : run.tableau.rows[i]? = some r) :
    run.tableau.largestColumn r.toRow tol = run.tableau.largestColumn r.toRow 0 :=
  Tableau.largestColumn_eq_of_isClear (hrun.isClear_of_clearing h hclear) (hrun.isRectangular h)
    htol (List.mem_of_getElem? hr)

theorem Run.afterPivot_eq_of_isCoarse {r : BasicRow ℚ} {cell : Cell} {phase : Nat}
    {log : Array (Event ℚ)} (ht : run.tableau.IsRectangular)
    (hr : run.tableau.rows[cell.row]? = some r) (hc : cell.column < run.tableau.columns.length)
    (h : (run.afterPivot 0 phase r.toRow cell log).tableau.IsCoarse tol) :
    run.afterPivot tol phase r.toRow cell log = run.afterPivot 0 phase r.toRow cell log := by
  rw [Run.afterPivot, Run.afterPivot, Tableau.pivotOn_eq_of_isCoarse ht hr hc h]

/-- Where the tolerances decide nothing, whatever a solve does the exact one does as well. -/
theorem Course.exact (hrun : Course ⟨tol, feasibilityTol, m⟩ (layout p) part run)
    (h : p.objection = none) (htol : 0 ≤ tol) (hclear : (layout p).IsClear tol feasibilityTol) :
    Course ⟨0, 0, m⟩ (layout p) part run := by
  induction hrun with
  | start hart => exact .start hart
  | direct hart => exact .direct hart
  | @pivot phase run cell r log _ hchoose hr hbudget ih =>
      rw [ih.choose_eq h htol hclear] at hchoose
      -- the exact pivot leads to a clear tableau, in which there is nothing to snap
      have hnext : Course ⟨0, 0, m⟩ (layout p) (.pivoting phase)
          (run.afterPivot 0 phase r.toRow cell log) := ih.pivot hchoose hr hbudget
      have hcoarse := (hnext.isClear_of_pivoting h hclear).coarse
      have hc := (Tableau.cell_of_choose (ih.isRectangular h) hchoose).1
      rwa [Run.afterPivot_eq_of_isCoarse (ih.isRectangular h) hr hc hcoarse]
  | settle _ hchoose ih =>
      rw [ih.choose_eq h htol hclear] at hchoose
      exact ih.settle hchoose
  | @clear run _ hresidual ih =>
      -- a residual other than zero would lie beyond the tolerance
      have hpursued : run.HasPursued (layout p) 1 := ih.heeds h
      have haim : run.tableau.Pursues (layout p).phaseOneAim := hpursued.pursues
      have hapart := (hclear.residual _ haim).sub
      rw [zero_sub] at hapart
      exact ih.clear fun hpos => hresidual ((hapart.resolve_left hpos.ne').trans_le
        (abs_of_pos hpos).le)
  | keep _ hr hreal ih => exact ih.keep hr hreal
  | @swap i j run r log _ hr hart hj hbudget ih =>
      rw [ih.largestColumn_eq h htol hclear hr] at hj
      have hnext : Course ⟨0, 0, m⟩ (layout p) (.clearing (i + 1))
          (run.afterPivot 0 1 r.toRow ⟨i, j⟩ log) := ih.swap hr hart hj hbudget
      have hcoarse := (hnext.isClear_of_clearing h hclear).coarse
      have hc := Tableau.largestColumn_lt hj
      rwa [Run.afterPivot_eq_of_isCoarse (ih.isRectangular h) hr hc hcoarse]
  | drop _ hr hart hnone ih =>
      rw [ih.largestColumn_eq h htol hclear hr] at hnone
      exact ih.drop hr hart hnone
  | restrict _ hreal ih => exact ih.restrict hreal
  | reprice _ ih => exact ih.reprice

end Course

/-! ## Whole numbers -/

section Integral

open StandardForm

variable {p : Program ℚ} {t : Tableau ℚ} {d : ℤ} {D B tol feasibilityTol : ℚ}

theorem apart_of_denominator {a b E : ℚ} {d n : ℤ} (hd : d ≠ 0) (hle : |(d : ℚ)| ≤ E)
    (hn : d * (a - b) = n) (htol : 0 ≤ tol) (hE : E * tol < 1) : Apart tol a b :=
  (eq_zero_or_lt_abs hd hle hn htol hE).imp_left sub_eq_zero.mp

/-- Ratios of a column have the entries of that column as denominators, so two of them have a
product of two. -/
theorem Tableau.HasDenominator.apart_ratios (h : t.HasDenominator d D) (ht : t.IsShaped)
    (htol : 0 ≤ tol) (hD : D ^ 2 * tol < 1) {j : Nat} (hj : j < t.columns.length)
    {r s : BasicRow ℚ} (hr : r ∈ t.rows) (hs : s ∈ t.rows) (hrpos : 0 < r.entry j)
    (hspos : 0 < s.entry j) : Apart tol (r.rhs / r.entry j) (s.rhs / s.entry j) := by
  have hrhs : ∀ q ∈ t.rows, ∃ n : ℤ, d * q.rhs = n := by
    intro q hq
    obtain ⟨n, hn, -⟩ := h.rows q hq _ le_rfl
    rw [← ht.rectangular.1 q hq, Row.entry_length] at hn
    exact ⟨n, hn⟩
  have hentry : ∀ q ∈ t.rows, 0 < q.entry j →
      ∃ e : ℤ, d * q.entry j = e ∧ e ≠ 0 ∧ |(e : ℚ)| ≤ D := by
    intro q hq hpos
    obtain ⟨e, he, hle⟩ := h.rows q hq j hj.le
    refine ⟨e, he, ?_, hle⟩
    rintro rfl
    rw [Int.cast_zero, mul_eq_zero, Int.cast_eq_zero] at he
    exact he.elim h.ne_zero hpos.ne'
  obtain ⟨n₁, hn₁⟩ := hrhs r hr
  obtain ⟨n₂, hn₂⟩ := hrhs s hs
  obtain ⟨e₁, he₁, hne₁, hle₁⟩ := hentry r hr hrpos
  obtain ⟨e₂, he₂, hne₂, hle₂⟩ := hentry s hs hspos
  refine apart_of_denominator (mul_ne_zero hne₁ hne₂) (E := D ^ 2) ?_ (n := n₁ * e₂ - n₂ * e₁)
    ?_ htol hD
  · rw [Int.cast_mul, abs_mul, sq]
    exact mul_le_mul hle₁ hle₂ (abs_nonneg _) ((abs_nonneg _).trans hle₁)
  · push_cast
    rw [← he₁, ← he₂, ← hn₁, ← hn₂]
    field_simp

theorem Tableau.HasDenominator.isClear (h : t.HasDenominator d D) (ht : t.IsShaped)
    (htol : 0 ≤ tol) (hD : D ^ 2 * tol < 1) : t.IsClear tol := by
  have hone : 1 ≤ D := by
    have hd : (1 : ℚ) ≤ |(d : ℚ)| := by
      exact_mod_cast Int.one_le_abs h.ne_zero
    exact hd.trans h.le
  have hsmall : D * tol < 1 := by
    refine lt_of_le_of_lt (mul_le_mul_of_nonneg_right ?_ htol) hD
    exact le_self_pow₀ hone two_ne_zero
  refine ⟨h.isCoarse htol hsmall, fun j hj k hk => ?_,
    fun j hj r hr s hs hrpos hspos => h.apart_ratios ht htol hD hj hr hs hrpos hspos,
    fun r hr j hj k hk => ?_⟩
  · obtain ⟨n, hn⟩ := h.objective j hj.le
    obtain ⟨n', hn'⟩ := h.objective k hk.le
    refine apart_of_denominator h.ne_zero h.le (n := n - n') ?_ htol hsmall
    rw [mul_sub, hn, hn', Int.cast_sub]
  · obtain ⟨n, hn, -⟩ := h.rows r hr j hj.le
    obtain ⟨n', hn', -⟩ := h.rows r hr k hk.le
    refine apart_of_denominator (d := |d|) (abs_ne_zero.mpr h.ne_zero) (E := D) ?_
      (n := |n| - |n'|) ?_ htol hsmall
    · rw [Int.cast_abs, abs_abs]
      exact h.le
    · push_cast
      rw [mul_sub, ← abs_mul, ← abs_mul, hn, hn']

/-- Whole numbers of moderate size keep all tableaux of a solve clear. -/
theorem isClear_of_isIntegral (h : p.objection = none) (hint : p.IsIntegral B) (hB : 1 ≤ B)
    (hD : p.constraints.length.factorial * B ^ p.constraints.length ≤ D) (htol : 0 ≤ tol)
    (hfeasibilityTol : 0 ≤ feasibilityTol) (hsmall : D ^ 2 * tol < 1)
    (hsmall' : D * feasibilityTol < 1) : (layout p).IsClear tol feasibilityTol := by
  have hminors : HasMinorsUpTo (layout p).equations D :=
    (hasMinorsUpTo_of_isIntegral hint hB).mono hD
  have hphaseOne : ∀ t : Tableau ℚ, t.Pursues (layout p).phaseOneAim →
      ∃ d, t.HasDenominator d D := fun t ht =>
    exists_hasDenominator_phaseOne h hminors ⟨ht.basic.unit, ht.basic.priced⟩ ht.expresses
  refine ⟨fun t ht => ?_, fun t ht => ?_, fun t ht => ?_⟩
  · obtain ⟨d, hd⟩ := hphaseOne t ht
    exact hd.isClear ht.shaped htol hsmall
  · obtain ⟨d, hd⟩ := exists_hasDenominator_phaseTwo h hminors (den_costs hint)
      ⟨ht.basic.unit, ht.basic.priced⟩ ht.expresses
    exact hd.isClear ht.shaped htol hsmall
  · obtain ⟨d, hd⟩ := hphaseOne t ht
    obtain ⟨n, hn⟩ := hd.objective _ le_rfl
    rw [← ht.shaped.rectangular.2, Row.entry_length] at hn
    refine apart_of_denominator hd.ne_zero hd.le (n := -n) ?_ hfeasibilityTol hsmall'
    rw [zero_sub, mul_neg, Int.cast_neg, ← hn]
    rfl

end Integral

/-! ## The round trip -/

section Verdict

open StandardForm

variable {p : Program ℚ} {tol feasibilityTol : ℚ}

theorem isFeasible_of_isClear (h : p.objection = none) (htol : 0 ≤ tol) (m : Option Nat)
    (hclear : (layout p).IsClear tol feasibilityTol) :
    ∃ r, solve ⟨tol, feasibilityTol, m⟩ p = .ok r ∧
      (r.status = .optimal → p.IsFeasible r.values) := by
  rcases solve_takes_course ⟨tol, feasibilityTol, m⟩ h with ⟨run, hrun, hr⟩ | ⟨run, e, -, hr⟩
  · refine ⟨_, hr, fun _ => ?_⟩
    have hpursued : run.HasPursued (layout p) 2 := (hrun.exact h htol hclear).heeds h
    exact (hpursued.solution_isBest h).1
  · refine ⟨_, hr, fun hstatus => ?_⟩
    cases e <;> exact nomatch hstatus

/-- At the standard tolerances, where they decide nothing on the tableaux of the program: an
optimum has no value below zero, and it meets every constraint, up to the tolerance of
feasibility. -/
theorem optimal_isMetBy (h : p.objection = none) (hclear : (layout p).IsClear 1e-9 1e-7) :
    ∃ r, solve .standard p = .ok r ∧ (r.status = .optimal →
      (∀ v ∈ r.values, -1e-7 ≤ v) ∧ ∀ c ∈ p.constraints, c.IsMetBy r.values 1e-7) := by
  obtain ⟨r, hr, hfeasible⟩ := isFeasible_of_isClear h (by norm_num) none hclear
  refine ⟨r, hr, fun hstatus => ⟨fun v hv => ?_, fun c hc => ?_⟩⟩
  · have hnonneg := (hfeasible hstatus).nonneg v hv
    exact (by norm_num : (-1e-7 : ℚ) ≤ 0).trans hnonneg
  · have hmet := (c.isMetBy_zero_tol r.values).mpr ((hfeasible hstatus).holds c hc)
    exact hmet.mono (by norm_num)

/-- Both phases, with an artificial column to be swapped. -/
theorem optimal_isMetBy_integral :
    ∃ r, solve .standard (⟨2, [3, 2], [⟨[1, 1], .equal, 4⟩, ⟨[-2, -2], .equal, -8⟩,
        ⟨[1, 0], .atMost, 3⟩], .maximize⟩ : Program ℚ) = .ok r ∧ (r.status = .optimal →
      (∀ v ∈ r.values, -1e-7 ≤ v) ∧ ∀ c ∈ ([⟨[1, 1], .equal, 4⟩, ⟨[-2, -2], .equal, -8⟩,
        ⟨[1, 0], .atMost, 3⟩] : List (Constraint ℚ)), c.IsMetBy r.values 1e-7) :=
  optimal_isMetBy (by decide +kernel) (isClear_of_isIntegral (by decide +kernel)
    ⟨by decide +kernel, by decide +kernel⟩ (show (1 : ℚ) ≤ 8 by norm_num) le_rfl (by norm_num)
    (by norm_num) (by norm_num [Nat.factorial]) (by norm_num [Nat.factorial]))

/-- Without such a condition an optimum can lie outside its constraints.  Phase 1 leaves the
equation short by less than the tolerance of feasibility, and the swap of its artificial column
then divides what is missing by the small coefficient: the variable is `2e-5` above its bound. -/
theorem optimal_not_isMetBy :
    ∃ r, solve .standard (⟨1, [1], [⟨[1], .atMost, 1⟩, ⟨[0.001], .equal, 0.00100002⟩],
        .maximize⟩ : Program ℚ) = .ok r ∧ r.status = .optimal ∧
      ∃ c ∈ ([⟨[1], .atMost, 1⟩, ⟨[0.001], .equal, 0.00100002⟩] : List (Constraint ℚ)),
        ¬ c.IsMetBy r.values 1e-7 := by
  have hend : (solve .standard (⟨1, [1], [⟨[1], .atMost, 1⟩, ⟨[0.001], .equal, 0.00100002⟩],
      .maximize⟩ : Program ℚ)).toOption.map (fun r => (r.status, r.values)) =
        some (.optimal, [1.00002]) := by
    decide +kernel
  obtain ⟨r, hr, hanswer⟩ := exists_of_toOption_map hend
  obtain ⟨hstatus, hvalues⟩ := Prod.mk.inj hanswer
  refine ⟨r, hr, hstatus, ⟨[1], .atMost, 1⟩, List.mem_cons_self, ?_⟩
  rw [hvalues]
  decide +kernel

end Verdict

end TwoPhase
