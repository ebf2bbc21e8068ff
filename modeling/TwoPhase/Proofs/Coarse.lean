/-
# `Coarse` — phase 1 and the tolerance of its signs

The objective of phase 1 is bounded, so with nothing tolerated its loop
never finds it unbounded.  Under a tolerance that is not so.  A reduced
cost of phase 1 adds up the entries of all rows with an artificial basic
column, and it can lie beyond the tolerance where each of these entries
lies within it; or the entries have been snapped to zero and the reduced
cost has not.  Then a column enters that no row limits, and the solve ends
in phase 1 with the verdict that the program is unbounded.

Two things rule this out.  Where the equations have at most one artificial
column, the objective row of phase 1 is that column's row with its signs
turned, and snapping treats both alike.  And where no number of a tableau
of phase 1 lies within the tolerance of zero without being zero, nothing
is ever snapped and an entry that is positive is one beyond the tolerance.
-/
import Mathlib
import TwoPhase.Proofs.Integral
import TwoPhase.Proofs.Phases

namespace TwoPhase

/-! ## Tableaux that snapping leaves alone -/

/-- No number of the tableau lies within the tolerance of zero without being zero. -/
def Tableau.IsCoarse (t : Tableau ℚ) (tol : ℚ) : Prop :=
  ∀ r ∈ t.allRows, ∀ j ≤ t.columns.length, r.entry j = 0 ∨ tol < |r.entry j|

/-- That is so for every tableau that phase 1 can come to. -/
def StandardForm.IsCoarse (f : StandardForm ℚ) (tol : ℚ) : Prop :=
  ∀ t : Tableau ℚ, t.IsReduced → t.Expresses f.phaseOneAim → t.IsCoarse tol

theorem lt_iff_pos {tol v : ℚ} (h : v = 0 ∨ tol < |v|) (htol : 0 ≤ tol) : tol < v ↔ 0 < v := by
  refine ⟨htol.trans_lt, fun hpos => ?_⟩
  have hbig := h.resolve_left hpos.ne'
  rwa [abs_of_pos hpos] at hbig

theorem snap_of_lt {tol v : ℚ} (h : tol < |v|) : snap tol v = v := by
  rw [snap, scalarAbs_eq_abs, if_neg (not_lt.mpr h.le)]

theorem snap_neg (tol v : ℚ) : snap tol (-v) = -snap tol v := by
  rw [snap, snap, scalarAbs_eq_abs, scalarAbs_eq_abs, abs_neg]
  split
  · exact neg_zero.symm
  · rfl

theorem snap_nonneg {tol v : ℚ} (h : 0 ≤ v) : 0 ≤ snap tol v := by
  rw [snap]
  split
  · exact le_rfl
  · exact h

theorem Row.settle_eq_of_coarse {r : Row ℚ} {tol v : ℚ} {j : Nat} (hj : j < r.coeffs.length)
    (h : ∀ k ≤ r.coeffs.length, (r.settle 0 j v).entry k = 0 ∨ tol < |(r.settle 0 j v).entry k|) :
    r.settle tol j v = r.settle 0 j v := by
  refine Row.ext_entry (by simp) fun k hk => ?_
  have hcoarse := h k (by simpa using hk)
  rw [Row.entry_settle r hj] at hcoarse ⊢
  rw [Row.entry_settle r hj]
  split
  · rfl
  next hne =>
    rw [if_neg hne, snap_zero_tol] at hcoarse
    rw [snap_zero_tol]
    rcases hcoarse with hzero | hbig
    · rw [hzero, snap_zero]
    · exact snap_of_lt hbig

namespace Tableau

variable {t : Tableau ℚ} {tol : ℚ} {r : BasicRow ℚ} {cell : Cell}

theorem IsCoarse.row (h : t.IsCoarse tol) {r : BasicRow ℚ} (hr : r ∈ t.rows) {j : Nat}
    (hj : j ≤ t.columns.length) : r.entry j = 0 ∨ tol < |r.entry j| :=
  h r.toRow (List.mem_append_left _ (List.mem_map_of_mem hr)) j hj

theorem IsCoarse.objective (h : t.IsCoarse tol) {j : Nat} (hj : j ≤ t.columns.length) :
    t.objective.entry j = 0 ∨ tol < |t.objective.entry j| :=
  h t.objective (List.mem_append_right _ (List.mem_singleton_self _)) j hj

theorem pivotOn_eq_of_isCoarse (ht : t.IsRectangular) (hr : t.rows[cell.row]? = some r)
    (hc : cell.column < t.columns.length) (h : (t.pivotOn r.toRow cell 0).IsCoarse tol) :
    t.pivotOn r.toRow cell tol = t.pivotOn r.toRow cell 0 := by
  have hlen : r.coeffs.length = t.columns.length := ht.1 r (List.mem_of_getElem? hr)
  have hwidth : ∀ s : Row ℚ, s.coeffs.length = t.columns.length →
      (s.eliminate cell.column (scaledRow r.toRow cell)).coeffs.length = t.columns.length := by
    intro s hs
    rw [Row.length_eliminate (by rw [Row.length_map, hs, hlen]), hs]
  -- what the exact pivot makes of a row is coarse, so the tolerance settles nothing more in it
  have hrows : (t.pivotOn r.toRow cell tol).rows = (t.pivotOn r.toRow cell 0).rows := by
    refine List.ext_getElem? fun k => ?_
    rw [getElem?_rows_pivotOn, getElem?_rows_pivotOn]
    cases hs : t.rows[k]? with
    | none => rfl
    | some s =>
        have hafter := getElem?_rows_pivotOn t r.toRow cell 0 k
        rw [hs, Option.map_some] at hafter
        have hcoarse := fun j (hj : j ≤ t.columns.length) =>
          h.row (List.mem_of_getElem? hafter) hj
        rw [Option.map_some, Option.map_some]
        by_cases hk : k = cell.row
        · simp only [if_pos hk] at hcoarse ⊢
          rw [Row.settle_eq_of_coarse (by simpa [hlen] using hc) fun j hj =>
            hcoarse j (by simpa [hlen] using hj)]
        · simp only [if_neg hk] at hcoarse ⊢
          have hwide := hwidth s.toRow (ht.1 s (List.mem_of_getElem? hs))
          rw [Row.settle_eq_of_coarse (by rw [hwide]; exact hc) fun j hj =>
            hcoarse j (by rw [hwide] at hj; exact hj)]
  have hobjective : (t.pivotOn r.toRow cell tol).objective
      = (t.pivotOn r.toRow cell 0).objective := by
    have hwide := hwidth t.objective ht.2
    rw [objective_pivotOn, objective_pivotOn, Row.settle_eq_of_coarse (by rw [hwide]; exact hc)
      fun j hj => h.objective (by rw [hwide] at hj; exact hj)]
  show Tableau.mk _ (t.pivotOn r.toRow cell tol).rows (t.pivotOn r.toRow cell tol).objective = _
  rw [hrows, hobjective]
  rfl

end Tableau

/-! ## The loop of phase 1 -/

section Loop

variable {settings : Settings ℚ} {f : StandardForm ℚ} {run : Run ℚ}

theorem Course.of_pivoting_one {P : Tableau ℚ → Prop}
    (start : f.HasArtificials →
      P { f.tableau with objective := f.tableau.pricedRow (phaseOneCosts f.columns) })
    (pivot : ∀ (t : Tableau ℚ) (cell : Cell) (r : BasicRow ℚ), P t →
      t.choose settings.tol = .ok (.pivot cell) → t.rows[cell.row]? = some r →
        P (t.pivotOn r.toRow cell settings.tol))
    (h : Course settings f (.pivoting 1) run) : P run.tableau :=
  h.of_pivoting (P := fun run => P run.tableau) (fun _ hart _ => start hart)
    (fun htwo => absurd htwo (by decide))
    fun _ _ _ _ _ hrun hchoose hr => pivot _ _ _ hrun hchoose hr

end Loop

/-! ## Coarse tableaux -/

namespace StandardForm

variable {f : StandardForm ℚ} {t : Tableau ℚ} {y y' : List ℚ}

theorem artificialSum_mono (h : ∀ k, y.getD k 0 ≤ y'.getD k 0) :
    f.artificialSum y ≤ f.artificialSum y' :=
  List.sum_le_sum fun k _ => h k

theorem exists_entry_pos (ht : t.IsReduced) (hexpresses : t.Expresses f.phaseOneAim) {j : Nat}
    (hj : j < t.columns.length) (hneg : t.objective.entry j < 0) :
    ∃ r ∈ t.rows, 0 < r.entry j := by
  by_contra hnone
  have hlimit : ∀ r ∈ t.rows, r.entry j ≤ 0 := fun r hr =>
    not_lt.mp fun hpos => hnone ⟨r, hr, hpos⟩
  have hnotBasic : ∀ r ∈ t.rows, r.basic ≠ j := by
    rintro r hr rfl
    exact hneg.ne (ht.priced r hr)
  have hvalue : ∀ s : ℚ, t.MayRun j s →
      f.artificialSum (t.pointAlong j s) = -(t.objectiveValue - s * t.objective.entry j) := by
    intro s hs
    have hlen : (t.pointAlong j s).length = f.phaseOneAim.columns.length := by
      rw [Tableau.length_pointAlong, hexpresses.columns_eq]
    have hsolves := (hexpresses.solvedBy_iff _ hlen).mp (Tableau.solvedBy_pointAlong ht.unit hs)
    rw [← Tableau.gap_objective_pointAlong ht.unit ht.priced hs,
      hexpresses.gap_objective _ hlen hsolves]
    exact (neg_neg _).symm
  -- along the ray no column falls, and neither does the artificial sum
  have hgrow : ∀ k, (t.pointAlong j 0).getD k 0 ≤ (t.pointAlong j 1).getD k 0 := by
    intro k
    rw [List.getD_eq_getElem?_getD, List.getD_eq_getElem?_getD, Tableau.pointAlong,
      Tableau.pointAlong, List.getElem?_map, List.getElem?_map]
    cases hk : (List.range t.columns.length)[k]? with
    | none => exact le_rfl
    | some k =>
        show t.valueAlong j 0 k ≤ t.valueAlong j 1 k
        rw [Tableau.valueAlong, Tableau.valueAlong]
        split
        next r hr =>
          have hle := hlimit r (List.mem_of_find?_eq_some hr)
          linarith
        next =>
          split
          · exact zero_le_one
          · exact le_rfl
  have hsum := f.artificialSum_mono hgrow
  rw [hvalue 0 Tableau.mayRun_zero, hvalue 1 fun _ => ⟨hj, hnotBasic⟩] at hsum
  linarith

end StandardForm

section Coarse

open StandardForm

variable {settings : Settings ℚ} {p : Program ℚ} {run : Run ℚ} {j : Nat}

theorem Course.expresses_of_isCoarse (hrun : Course settings (layout p) (.pivoting 1) run)
    (h : p.objection = none) (htol : 0 ≤ settings.tol)
    (hcoarse : (layout p).IsCoarse settings.tol) :
    run.tableau.IsReduced ∧ run.tableau.Expresses (layout p).phaseOneAim := by
  refine Course.of_pivoting_one (P := fun t => t.IsReduced ∧ t.Expresses (layout p).phaseOneAim)
    (fun _ => ?_) (fun t cell r ht hchoose hr => ?_) hrun
  · have hstart := (isPursuing_start h #[]).pursues
    exact ⟨⟨hstart.basic.unit, hstart.basic.priced⟩, hstart.expresses⟩
  · obtain ⟨hreduced, hexpresses⟩ := ht
    have hrect := hreduced.unit.shaped.rectangular
    obtain ⟨hc, r', hr', hpos⟩ := Tableau.cell_of_choose hrect hchoose
    cases hr.symm.trans hr'
    have hne : r.entry cell.column ≠ 0 := (htol.trans_lt hpos).ne'
    have hreduced' := hreduced.pivotOn zero_le_one hr hc hne
    have hexpresses' := hexpresses.pivotOn hrect hr hc hne
    rw [Tableau.pivotOn_eq_of_isCoarse hrect hr hc (hcoarse _ hreduced' hexpresses')]
    exact ⟨hreduced', hexpresses'⟩

/-- On coarse tableaux a column that enters has a row to leave. -/
theorem Course.not_unbounded_of_isCoarse (hrun : Course settings (layout p) (.pivoting 1) run)
    (h : p.objection = none) (htol : 0 ≤ settings.tol)
    (hcoarse : (layout p).IsCoarse settings.tol) :
    run.tableau.choose settings.tol ≠ .ok (.unbounded j) := by
  intro hunb
  obtain ⟨hreduced, hexpresses⟩ := hrun.expresses_of_isCoarse h htol hcoarse
  have hrect := hreduced.unit.shaped.rectangular
  obtain ⟨hentering, hleaving⟩ := Tableau.entering_of_unbounded hrect hunb
  have hj := Tableau.entering_lt hrect hentering
  have hneg : run.tableau.objective.entry j < 0 :=
    (Tableau.entry_lt_of_entering hentering).trans_le (neg_nonpos.mpr htol)
  obtain ⟨r, hr, hpos⟩ := exists_entry_pos hreduced hexpresses hj hneg
  have hbig := (lt_iff_pos ((hcoarse _ hreduced hexpresses).row hr hj.le) htol).mpr hpos
  exact Tableau.leastRatioRow_eq_none_iff.mp hleaving r hr hbig

theorem Tableau.HasDenominator.isCoarse {t : Tableau ℚ} {d : ℤ} {D tol : ℚ}
    (h : t.HasDenominator d D) (htol : 0 ≤ tol) (hD : D * tol < 1) : t.IsCoarse tol := by
  intro r hr k hk
  obtain ⟨n, hn⟩ : ∃ n : ℤ, d * r.entry k = n := by
    rcases List.mem_append.mp hr with hr | hr
    · obtain ⟨s, hs, rfl⟩ := List.mem_map.mp hr
      obtain ⟨n, hn, -⟩ := h.rows s hs k hk
      exact ⟨n, hn⟩
    · rw [List.mem_singleton.mp hr]
      exact h.objective k hk
  exact eq_zero_or_lt_abs h.ne_zero h.le hn htol hD

/-- Whole numbers of moderate size keep the tableaux of phase 1 coarse. -/
theorem isCoarse_of_isIntegral {B tol : ℚ} (h : p.objection = none) (hint : p.IsIntegral B)
    (hB : 1 ≤ B) (htol : 0 ≤ tol)
    (hsmall : p.constraints.length.factorial * B ^ p.constraints.length * tol < 1) :
    (layout p).IsCoarse tol := by
  intro t ht hexpresses
  obtain ⟨d, hd⟩ :=
    exists_hasDenominator_phaseOne h (hasMinorsUpTo_of_isIntegral hint hB) ht hexpresses
  exact hd.isCoarse htol hsmall

end Coarse

/-! ## One artificial column -/

/-- The objective row is the row given with its signs turned, but for the artificial column,
in which only that row has anything. -/
structure Tableau.Mirrors (t : Tableau ℚ) (i a : Nat) : Prop where
  row : ∃ r, t.rows[i]? = some r ∧ 0 ≤ r.entry a ∧
    ∀ j < t.columns.length, j ≠ a → t.objective.entry j = -r.entry j
  level : t.objective.entry a = 0
  others : ∀ k s, t.rows[k]? = some s → k ≠ i → s.entry a = 0

/-- What the loop of phase 1 keeps where one column is artificial: the objective row mirrors
a row until that row is pivoted on, and is not negative from there on. -/
structure Tableau.IsMirrored (t : Tableau ℚ) : Prop where
  shaped : t.IsShaped
  cases : (∃ i a, t.Mirrors i a) ∨ ∀ j < t.columns.length, 0 ≤ t.objective.entry j

namespace Tableau

variable {t : Tableau ℚ} {tol : ℚ} {i a : Nat} {r : BasicRow ℚ} {cell : Cell}

theorem Mirrors.nonneg_of_pivotOn (h : t.Mirrors i a) (ht : t.IsRectangular)
    (hr : t.rows[cell.row]? = some r) (hc : cell.column < t.columns.length)
    (hne : r.entry cell.column ≠ 0) (hca : cell.column ≠ a) (hi : cell.row = i) :
    ∀ j < t.columns.length, 0 ≤ (t.pivotOn r.toRow cell tol).objective.entry j := by
  intro j hj
  obtain ⟨s, hs, hown, hmirror⟩ := h.row
  rw [← hi, hr] at hs
  cases hs
  rw [entry_objective_pivotOn ht hr hc, hmirror _ hc hca, mul_neg, div_mul_cancel₀ _ hne,
    sub_neg_eq_add]
  split
  · exact le_rfl
  · by_cases hja : j = a
    · rw [hja, h.level, zero_add]
      exact snap_nonneg hown
    · rw [hmirror j hj hja, neg_add_cancel, snap_zero]

/-- Pivoting on another row keeps the mirror, since what is taken from the row is taken from
the objective with the sign turned. -/
theorem Mirrors.pivotOn (h : t.Mirrors i a) (ht : t.IsRectangular)
    (hr : t.rows[cell.row]? = some r) (hc : cell.column < t.columns.length)
    (hca : cell.column ≠ a) (hi : cell.row ≠ i) : (t.pivotOn r.toRow cell tol).Mirrors i a := by
  obtain ⟨s, hs, hown, hmirror⟩ := h.row
  have hra : r.entry a = 0 := h.others _ _ hr hi
  obtain ⟨s', hs'⟩ : ∃ s', (t.pivotOn r.toRow cell tol).rows[i]? = some s' := by
    rw [getElem?_rows_pivotOn, hs]
    exact ⟨_, rfl⟩
  obtain ⟨s₀, hs₀, -, hentry⟩ := entry_pivotOn ht hr hc hs'
  cases hs.symm.trans hs₀
  refine ⟨⟨s', hs', ?_, fun j hj hja => ?_⟩, ?_, fun k q hq hk => ?_⟩
  · rw [hentry, if_neg hca.symm, pivotEntry_of_entry_eq_zero hra hi.symm]
    exact snap_nonneg hown
  · rw [hentry, entry_objective_pivotOn ht hr hc]
    split
    · rw [if_neg hi.symm, neg_zero]
    · rw [pivotEntry, if_neg hi.symm, hmirror j hj hja, hmirror _ hc hca, ← snap_neg]
      congr 1
      ring
  · rw [entry_objective_pivotOn ht hr hc, if_neg hca.symm, h.level, hra, zero_div, zero_mul,
      sub_zero, snap_zero]
  · obtain ⟨q₀, hq₀, -, hentry⟩ := entry_pivotOn ht hr hc hq
    rw [hentry, if_neg hca.symm]
    by_cases hkr : k = cell.row
    · rw [pivotEntry, if_pos hkr, hra, zero_div, snap_zero]
    · rw [pivotEntry_of_entry_eq_zero hra hkr, h.others k q₀ hq₀ hk, snap_zero]

theorem IsMirrored.pivotOn (h : t.IsMirrored) (htol : 0 ≤ tol)
    (hchoose : t.choose tol = .ok (.pivot cell)) (hr : t.rows[cell.row]? = some r) :
    (t.pivotOn r.toRow cell tol).IsMirrored := by
  have hrect := h.shaped.rectangular
  obtain ⟨hc, r', hr', hpos⟩ := cell_of_choose hrect hchoose
  cases hr.symm.trans hr'
  have hneg : t.objective.entry cell.column < 0 :=
    (entry_lt_of_entering (entering_of_pivot hrect hchoose).1).trans_le (neg_nonpos.mpr htol)
  refine ⟨h.shaped.pivotOn hr hc, ?_⟩
  rcases h.cases with ⟨i, a, hmirrors⟩ | hnonneg
  · have hca : cell.column ≠ a := by
      rintro rfl
      exact hneg.ne hmirrors.level
    by_cases hi : cell.row = i
    · exact .inr (hmirrors.nonneg_of_pivotOn hrect hr hc (htol.trans_lt hpos).ne' hca hi)
    · exact .inl ⟨i, a, hmirrors.pivotOn hrect hr hc hca hi⟩
  · exact absurd hneg (not_lt.mpr (hnonneg _ hc))

theorem IsMirrored.choose_ne_unbounded (h : t.IsMirrored) (htol : 0 ≤ tol) (j : Nat) :
    t.choose tol ≠ .ok (.unbounded j) := by
  intro hunb
  have hrect := h.shaped.rectangular
  obtain ⟨hentering, hleaving⟩ := entering_of_unbounded hrect hunb
  have hj := entering_lt hrect hentering
  have hneg := entry_lt_of_entering hentering
  rcases h.cases with ⟨i, a, hmirrors⟩ | hnonneg
  · obtain ⟨r, hr, -, hmirror⟩ := hmirrors.row
    have hja : j ≠ a := by
      rintro rfl
      rw [hmirrors.level] at hneg
      linarith
    rw [hmirror j hj hja, neg_lt_neg_iff] at hneg
    exact leastRatioRow_eq_none_iff.mp hleaving r (List.mem_of_getElem? hr) hneg
  · have hle := hnonneg j hj
    linarith

end Tableau

section Mirror

open StandardForm

variable {p : Program ℚ} {i : Nat} {r : BasicRow ℚ}

theorem exists_row_of_isArtificial {j : Nat} {c : Column} (hj : (layout p).columns[j]? = some c)
    (hc : c.IsArtificial) : ∃ (i : Nat) (r : BasicRow ℚ), (layout p).rows[i]? = some r ∧
      r.IsArtificial (layout p).columns := by
  have hmem := List.mem_of_getElem? hj
  rw [columns_layout_eq] at hmem
  have hpart := (List.mem_append.mp hmem).resolve_left fun hreal =>
    not_isArtificial_of_mem_realColumns hreal hc
  obtain ⟨i, x, hx, hcol⟩ := mem_zipIdx_filterMap.mp hpart
  obtain ⟨hrel, rfl⟩ := NormalConstraint.artificialColumn_eq_some_iff.mp hcol
  rw [List.getElem?_map, Option.map_eq_some_iff] at hx
  obtain ⟨k, hk, rfl⟩ := hx
  obtain ⟨r, hr⟩ := exists_layout_row hk
  obtain ⟨k', hk', hbasic⟩ := getElem?_columns_basic hr
  cases hk.symm.trans hk'
  refine ⟨i, r, hr, _, hbasic, ?_⟩
  rw [NormalConstraint.startColumn]
  split
  next hle => exact absurd hle hrel
  next => trivial

theorem eq_of_length_artificialColumns_le_one {f : StandardForm ℚ}
    (hone : f.artificialColumns.length ≤ 1) {a k : Nat} {b c : Column}
    (ha : f.columns[a]? = some b) (hb : b.IsArtificial) (hk : f.columns[k]? = some c)
    (hc : c.IsArtificial) : k = a := by
  have ha' : a ∈ f.artificialColumns := mem_artificialColumns.mpr ⟨b, ha, hb⟩
  have hk' : k ∈ f.artificialColumns := mem_artificialColumns.mpr ⟨c, hk, hc⟩
  obtain ⟨x, hx⟩ := List.length_eq_one_iff.mp (le_antisymm hone (List.length_pos_of_mem ha'))
  rw [hx, List.mem_singleton] at ha' hk'
  rw [hk', ha']

theorem getD_phaseOneCosts {columns : List Column} {a : Nat} {b : Column}
    (ha : columns[a]? = some b) (hb : b.IsArtificial)
    (honly : ∀ k c, columns[k]? = some c → c.IsArtificial → k = a) (k : Nat) :
    (phaseOneCosts columns : List ℚ).getD k 0 = if k = a then -1 else 0 := by
  rw [List.getD_eq_getElem?_getD, phaseOneCosts, List.getElem?_map]
  cases hk : columns[k]? with
  | none =>
      rw [if_neg]
      · rfl
      · rintro rfl
        exact nomatch hk.symm.trans ha
  | some c =>
      show (if c.IsArtificial then (-1 : ℚ) else 0) = _
      refine if_congr ⟨honly k c hk, ?_⟩ rfl rfl
      rintro rfl
      cases hk.symm.trans ha
      exact hb

/-- With one artificial column phase 1 sets out from a mirror of its row. -/
theorem isMirrored_start (h : p.objection = none) (hart : (layout p).HasArtificials)
    (hone : (layout p).artificialColumns.length ≤ 1) :
    ({ (layout p).tableau with
      objective := (layout p).tableau.pricedRow (phaseOneCosts (layout p).columns) } :
        Tableau ℚ).IsMirrored := by
  have hunit := hasUnitBasis_tableau h
  have hcosts : (phaseOneCosts (layout p).columns : List ℚ).length
      = (layout p).tableau.columns.length := List.length_map _
  refine ⟨hunit.shaped.price hcosts, .inl ?_⟩
  obtain ⟨c, hmem, hc⟩ := hart
  obtain ⟨j, hj⟩ := List.mem_iff_getElem?.mp hmem
  obtain ⟨i, r, hr, b, hb, hbart⟩ := exists_row_of_isArtificial hj hc
  have hcost := getD_phaseOneCosts hb hbart fun _ _ hk hkart =>
    eq_of_length_artificialColumns_le_one hone hb hbart hk hkart
  have hentry : ∀ k, ((layout p).tableau.pricedRow (phaseOneCosts (layout p).columns)).entry k
      = -r.entry k - if k = r.basic then -1 else 0 := by
    intro k
    simp only [hunit.entry_pricedRow hcosts, hcost]
    have hsum := hunit.sum_ite_basic hr (-1) fun s => s.entry k
    rw [hsum, neg_one_mul]
  have hown : r.entry r.basic = 1 := by
    rw [hunit.entry_basic hr hr, if_pos rfl]
  refine ⟨i, r.basic, ⟨r, hr, ?_, fun k _ hk => ?_⟩, ?_, fun k s hs hk => ?_⟩
  · rw [hown]
    exact zero_le_one
  · rw [hentry, if_neg hk, sub_zero]
  · rw [hentry, hown, if_pos rfl, sub_self]
  · rw [hunit.entry_basic hr hs, if_neg hk]

theorem Course.not_unbounded_of_one {settings : Settings ℚ} {run : Run ℚ}
    (hrun : Course settings (layout p) (.pivoting 1) run) (h : p.objection = none)
    (htol : 0 ≤ settings.tol) (hone : (layout p).artificialColumns.length ≤ 1) (j : Nat) :
    run.tableau.choose settings.tol ≠ .ok (.unbounded j) := by
  have hmirrored : run.tableau.IsMirrored :=
    Course.of_pivoting_one (fun hart => isMirrored_start h hart hone)
      (fun _ _ _ ht hchoose hr => ht.pivotOn htol hchoose hr) hrun
  exact hmirrored.choose_ne_unbounded htol j

end Mirror

/-! ## The verdict of unboundedness -/

section Verdict

open StandardForm

/-- Where the equations have at most one artificial column, or the tableaux of phase 1 are
coarse for the tolerance, a program found to be unbounded is found so in phase 2. -/
theorem unbounded_isPhaseTwo {tol : ℚ} (htol : 0 ≤ tol) (feasibilityTol : ℚ) (m : Option Nat)
    {p : Program ℚ} (h : p.objection = none)
    (hphase : (layout p).artificialColumns.length ≤ 1 ∨ (layout p).IsCoarse tol) :
    ∃ r, solve ⟨tol, feasibilityTol, m⟩ p = .ok r ∧
      (r.status = .unbounded → ∃ s, r.steps.getLast? = some s ∧ s.phase = 2) := by
  rcases solve_takes_course ⟨tol, feasibilityTol, m⟩ h with ⟨run, -, hr⟩ | ⟨run, e, hstops, hr⟩
  · exact ⟨_, hr, fun hstatus => (nomatch hstatus)⟩
  · refine ⟨_, hr, fun hstatus => ?_⟩
    cases hstops with
    | infeasible _ _ => exact nomatch hstatus
    | exhausted _ _ _ => exact nomatch hstatus
    | exhaustedClearing _ _ _ _ _ => exact nomatch hstatus
    | @unbounded phase j run hrun hchoose =>
        rcases hrun.phase_cases with hone | htwo
        · cases hone
          rcases hphase with hfew | hcoarse
          · exact absurd hchoose (hrun.not_unbounded_of_one h htol hfew j)
          · exact absurd hchoose (hrun.not_unbounded_of_isCoarse h htol hcoarse)
        · cases htwo
          refine ⟨⟨2, run.tableau, none⟩, ?_, rfl⟩
          show ((run.record 2 none).steps.toList).getLast? = _
          rw [Run.steps_record, List.getLast?_concat]

/-- Two rows with artificial columns, and two variables that can grow together. -/
theorem unbounded_isPhaseTwo_integral :
    ∃ r, solve .standard (⟨2, [1, 0], [⟨[1, -1], .equal, 1⟩, ⟨[2, -2], .atLeast, 1⟩],
        .maximize⟩ : Program ℚ) = .ok r ∧
      (r.status = .unbounded → ∃ s, r.steps.getLast? = some s ∧ s.phase = 2) :=
  unbounded_isPhaseTwo (by norm_num) _ _ (by decide +kernel)
    (.inr (isCoarse_of_isIntegral (by decide +kernel)
      ⟨by decide +kernel, by decide +kernel⟩ (show (1 : ℚ) ≤ 2 by norm_num) (by norm_num)
      (by norm_num [Nat.factorial])))

/-- Without such a condition the verdict can come from phase 1.  Once the first column is
basic, two rows have an entry within the tolerance in the second one; they are snapped to zero,
but the reduced cost, which is their sum, is not, and no row limits the column.  The program has
a feasible point, and its objective cannot fall below zero. -/
theorem unbounded_inPhaseOne :
    ∃ r s, solve .standard (⟨2, [1, 0], [⟨[1, -1], .equal, 1⟩, ⟨[1, -0.9999999992], .equal, 2⟩,
        ⟨[1, -0.9999999992], .equal, 2⟩], .minimize⟩ : Program ℚ) = .ok r ∧
      r.status = .unbounded ∧ r.steps.getLast? = some s ∧ s.phase = 1 := by
  have hend : (solve .standard (⟨2, [1, 0], [⟨[1, -1], .equal, 1⟩,
      ⟨[1, -0.9999999992], .equal, 2⟩, ⟨[1, -0.9999999992], .equal, 2⟩],
        .minimize⟩ : Program ℚ)).toOption.map
          (fun r => (r.status, r.steps.getLast?.map (·.phase))) = some (.unbounded, some 1) := by
    decide +kernel
  obtain ⟨r, hr, hverdict⟩ := exists_of_toOption_map hend
  obtain ⟨hstatus, hlast⟩ := Prod.mk.inj hverdict
  obtain ⟨s, hs, hphase⟩ := Option.map_eq_some_iff.mp hlast
  exact ⟨r, s, hr, hstatus, hs, hphase⟩

end Verdict

end TwoPhase
