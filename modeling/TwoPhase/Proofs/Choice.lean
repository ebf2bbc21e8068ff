/-
# `Choice` — what the scans choose

A scan ends in one of its candidates, and in none only where there is no
candidate.  This holds of any scalar, and it says in terms of the tableau
what each answer of `Tableau.choose` and `Tableau.replacement` means.
-/
import Mathlib
import TwoPhase.Tableau.Choice
import TwoPhase.Proofs.Checked
import TwoPhase.Proofs.Exact

namespace TwoPhase

/-! ## A scan ends in a candidate -/

section Any

variable {α : Type}

theorem scan_eq_none_iff {yields : α → α → Bool} {cands : List (α × Nat)} :
    scan yields cands = none ↔ ∀ a i, (a, i) ∉ cands := by
  cases cands with
  | nil => exact ⟨fun _ _ _ hmem => (nomatch hmem), fun _ => rfl⟩
  | cons first rest => exact ⟨fun h => (nomatch h), fun h => absurd List.mem_cons_self (h _ _)⟩

theorem foldl_held_mem (f : α × Nat → α × Nat → Bool) (rest : List (α × Nat)) :
    ∀ first, rest.foldl (fun held next => if f held next then next else held) first
      ∈ first :: rest := by
  induction rest with
  | nil => exact fun first => List.mem_cons_self
  | cons next rest ih =>
      intro first
      rw [List.foldl_cons]
      rcases List.mem_cons.mp (ih (if f first next then next else first)) with h | h
      · rw [h]
        split
        · exact List.mem_cons_of_mem _ List.mem_cons_self
        · exact List.mem_cons_self
      · exact List.mem_cons_of_mem _ (List.mem_cons_of_mem _ h)

theorem exists_mem_of_scan {yields : α → α → Bool} {cands : List (α × Nat)} {i : Nat}
    (h : scan yields cands = some i) : ∃ a, (a, i) ∈ cands := by
  cases cands with
  | nil => exact nomatch h
  | cons first rest =>
      have hmem := foldl_held_mem (fun held next => yields held.1 next.1) rest first
      rw [← Option.some.inj h]
      exact ⟨_, hmem⟩

theorem place?_of_lt {n position : Nat} (h : position < n) :
    place? n position = some position := if_pos h

theorem lt_of_place? {n position i : Nat} (h : place? n position = some i) : i < n := by
  rw [place?] at h
  split at h
  next hlt => exact Option.some.inj h ▸ hlt
  next =>
    split at h
    next hword =>
      obtain rfl := Option.some.inj h
      omega
    next => exact nomatch h

theorem pairwise_zipIdx_snd {β : Type} (xs : List β) :
    xs.zipIdx.Pairwise fun a b => a.2 < b.2 := by
  apply List.pairwise_map.mp
  show (xs.zipIdx.map Prod.snd).Pairwise (· < ·)
  rw [List.zipIdx_map_snd]
  exact List.pairwise_lt_range'

namespace Tableau

/-! ## The rows by their places -/

theorem getElem?_allRows_of_row {t : Tableau α} {i : Nat} {r : BasicRow α}
    (hr : t.rows[i]? = some r) : t.allRows[i]? = some r.toRow := by
  have hi : i < t.rows.length := (List.getElem?_eq_some_iff.mp hr).1
  rw [allRows, List.getElem?_append_left (by simpa using hi), List.getElem?_map, hr]
  rfl

theorem getElem?_allRows_length (t : Tableau α) : t.allRows[t.rows.length]? = some t.objective := by
  simp [allRows]

theorem allRows_cases {t : Tableau α} {k : Nat} {q : Row α} (h : t.allRows[k]? = some q) :
    (∃ s, t.rows[k]? = some s ∧ q = s.toRow) ∨ k = t.rows.length ∧ q = t.objective := by
  have hk : k < t.rows.length + 1 := by
    simpa [allRows] using (List.getElem?_eq_some_iff.mp h).1
  rcases (Nat.lt_succ_iff.mp hk).lt_or_eq with hlt | rfl
  · have hs := List.getElem?_eq_getElem hlt
    exact .inl ⟨t.rows[k], hs, Option.some.inj (h.symm.trans (getElem?_allRows_of_row hs))⟩
  · exact .inr ⟨rfl, Option.some.inj (h.symm.trans t.getElem?_allRows_length)⟩

theorem IsRectangular.length_of_mem_allRows {t : Tableau α} (h : t.IsRectangular) {q : Row α}
    (hq : q ∈ t.allRows) : q.coeffs.length = t.columns.length := by
  obtain ⟨k, hk⟩ := List.mem_iff_getElem?.mp hq
  rcases allRows_cases hk with ⟨s, hs, rfl⟩ | ⟨-, rfl⟩
  · exact h.1 s (List.mem_of_getElem? hs)
  · exact h.2

variable [Scalar α] {t : Tableau α} {tol : α}

/-! ## Candidates -/

theorem mem_enteringCandidates {v : α} {j : Nat} :
    (v, j) ∈ t.enteringCandidates tol ↔ t.objective.coeffs[j]? = some v ∧ v < -tol := by
  simp [enteringCandidates, List.mem_zipIdx_iff_getElem?]

theorem mem_leavingCandidates {j i : Nat} {ratio : α} :
    (ratio, i) ∈ t.leavingCandidates j tol ↔
      ∃ r, t.rows[i]? = some r ∧ tol < r.entry j ∧ ratio = r.rhs / r.entry j := by
  simp only [leavingCandidates, List.mem_map, List.mem_filter, List.mem_zipIdx_iff_getElem?,
    decide_eq_true_eq, Prod.exists, Prod.mk.injEq]
  constructor
  · rintro ⟨r, k, ⟨hr, htol⟩, rfl, rfl⟩
    exact ⟨r, hr, htol, rfl⟩
  · rintro ⟨r, hr, htol, rfl⟩
    exact ⟨r, i, ⟨hr, htol⟩, rfl, rfl⟩

theorem mem_replacementCandidates {r : Row α} {v : α} {j : Nat} :
    (v, j) ∈ t.replacementCandidates r tol ↔
      r.coeffs[j]? = some v ∧ (∃ c, t.columns[j]? = some c ∧ ¬ c.IsArtificial) ∧
        tol < Scalar.abs v := by
  simp only [replacementCandidates, List.mem_map, List.mem_filter, List.mem_zipIdx_iff_getElem?,
    decide_eq_true_eq, Prod.exists, Prod.mk.injEq, List.getElem?_zip_eq_some]
  constructor
  · rintro ⟨v', c, k, ⟨⟨hv, hc⟩, hart, htol⟩, rfl, rfl⟩
    exact ⟨hv, ⟨c, hc, hart⟩, htol⟩
  · rintro ⟨hv, ⟨c, hc, hart⟩, htol⟩
    exact ⟨v, c, j, ⟨⟨hv, hc⟩, hart, htol⟩, rfl, rfl⟩

/-! All three lists of candidates go from the left to the right, or from the top to the bottom. -/

theorem pairwise_enteringCandidates :
    (t.enteringCandidates tol).Pairwise fun a b => a.2 < b.2 :=
  (pairwise_zipIdx_snd _).filter _

theorem pairwise_leavingCandidates (j : Nat) :
    (t.leavingCandidates j tol).Pairwise fun a b => a.2 < b.2 :=
  List.pairwise_map.mpr ((pairwise_zipIdx_snd t.rows).filter _)

theorem pairwise_replacementCandidates (r : Row α) :
    (t.replacementCandidates r tol).Pairwise fun a b => a.2 < b.2 :=
  List.pairwise_map.mpr ((pairwise_zipIdx_snd (r.coeffs.zip t.columns)).filter _)

theorem entering_eq_none_iff :
    t.entering tol = none ↔ ∀ v ∈ t.objective.coeffs, ¬ v < -tol := by
  rw [entering, scan_eq_none_iff]
  constructor
  · intro h v hv hneg
    obtain ⟨j, hj⟩ := List.mem_iff_getElem?.mp hv
    exact h v j (mem_enteringCandidates.mpr ⟨hj, hneg⟩)
  · intro h v j hmem
    obtain ⟨hv, hneg⟩ := mem_enteringCandidates.mp hmem
    exact h v (List.mem_of_getElem? hv) hneg

theorem entering_some {j : Nat} (h : t.entering tol = some j) :
    ∃ v, t.objective.coeffs[j]? = some v ∧ v < -tol := by
  obtain ⟨v, hmem⟩ := exists_mem_of_scan h
  exact ⟨v, mem_enteringCandidates.mp hmem⟩

theorem leastRatioRow_eq_none_iff {j : Nat} :
    t.leastRatioRow j tol = none ↔ ∀ r ∈ t.rows, ¬ tol < r.entry j := by
  rw [leastRatioRow, scan_eq_none_iff]
  constructor
  · intro h r hr hpos
    obtain ⟨i, hi⟩ := List.mem_iff_getElem?.mp hr
    exact h _ i (mem_leavingCandidates.mpr ⟨r, hi, hpos, rfl⟩)
  · intro h ratio i hmem
    obtain ⟨r, hr, hpos, -⟩ := mem_leavingCandidates.mp hmem
    exact h r (List.mem_of_getElem? hr) hpos

theorem leastRatioRow_some {j i : Nat} (h : t.leastRatioRow j tol = some i) :
    ∃ r, t.rows[i]? = some r ∧ tol < r.entry j := by
  obtain ⟨ratio, hmem⟩ := exists_mem_of_scan h
  obtain ⟨r, hr, hpos, -⟩ := mem_leavingCandidates.mp hmem
  exact ⟨r, hr, hpos⟩

theorem largestColumn_eq_none_iff {r : Row α} :
    t.largestColumn r tol = none ↔
      ∀ (j : Nat) (v : α) (c : Column), r.coeffs[j]? = some v → t.columns[j]? = some c →
        ¬ c.IsArtificial → ¬ tol < Scalar.abs v := by
  rw [largestColumn, scan_eq_none_iff]
  constructor
  · intro h j v c hv hc hart hbig
    exact h v j (mem_replacementCandidates.mpr ⟨hv, ⟨c, hc, hart⟩, hbig⟩)
  · intro h v j hmem
    obtain ⟨hv, ⟨c, hc, hart⟩, hbig⟩ := mem_replacementCandidates.mp hmem
    exact h j v c hv hc hart hbig

theorem largestColumn_some {r : Row α} {j : Nat} (h : t.largestColumn r tol = some j) :
    ∃ v c, r.coeffs[j]? = some v ∧ t.columns[j]? = some c ∧ ¬ c.IsArtificial ∧
      tol < Scalar.abs v := by
  obtain ⟨v, hmem⟩ := exists_mem_of_scan h
  obtain ⟨hv, ⟨c, hc, hart⟩, hbig⟩ := mem_replacementCandidates.mp hmem
  exact ⟨v, c, hv, hc, hart, hbig⟩

/-! ## The answers of the checked choices -/

theorem entering_lt (ht : t.IsRectangular) {j : Nat} (h : t.entering tol = some j) :
    j < t.columns.length := by
  obtain ⟨v, hv, -⟩ := entering_some h
  rw [← ht.2]
  exact (List.getElem?_eq_some_iff.mp hv).1

theorem largestColumn_lt {r : Row α} {j : Nat} (h : t.largestColumn r tol = some j) :
    j < t.columns.length := by
  obtain ⟨v, c, -, hc, -⟩ := largestColumn_some h
  exact (List.getElem?_eq_some_iff.mp hc).1

theorem leaving_of_place (ht : t.IsRectangular) {position j : Nat}
    (hj : place? (t.columns.length + 1) position = some j) :
    t.leaving position tol = .ok (t.leastRatioRow j tol) := by
  rw [leaving, require_bind_of ht, hj]
  rfl

theorem leaving_of_lt (ht : t.IsRectangular) {j : Nat} (hj : j < t.columns.length) :
    t.leaving j tol = .ok (t.leastRatioRow j tol) :=
  leaving_of_place ht (place?_of_lt (Nat.lt_succ_of_lt hj))

theorem replacement_of_place (ht : t.IsRectangular) {position i : Nat} {r : Row α}
    (hi : place? t.allRows.length position = some i) (hr : t.allRows[i]? = some r) :
    t.replacement position tol = .ok (t.largestColumn r tol) := by
  rw [replacement, require_bind_of ht, hi, Option.bind_some, hr]
  rfl

theorem replacement_of_row (ht : t.IsRectangular) {i : Nat} {r : BasicRow α}
    (hr : t.rows[i]? = some r) : t.replacement i tol = .ok (t.largestColumn r.toRow tol) := by
  have hall := getElem?_allRows_of_row hr
  exact replacement_of_place ht (place?_of_lt (List.getElem?_eq_some_iff.mp hall).1) hall

/-- What an answer of the rules of entering and leaving says about the tableau. -/
theorem choose_cases (ht : t.IsRectangular) (tol : α) :
    (t.choose tol = .ok .optimal ∧ t.entering tol = none) ∨
    (∃ j, t.choose tol = .ok (.unbounded j) ∧ t.entering tol = some j ∧
      t.leastRatioRow j tol = none) ∨
    (∃ i j, t.choose tol = .ok (.pivot ⟨i, j⟩) ∧ t.entering tol = some j ∧
      t.leastRatioRow j tol = some i) := by
  cases hj : t.entering tol with
  | none => exact .inl ⟨by simp [choose, hj], rfl⟩
  | some j =>
      have hleaving : t.leaving j tol = .ok (t.leastRatioRow j tol) :=
        leaving_of_lt ht (entering_lt ht hj)
      cases hi : t.leastRatioRow j tol with
      | none =>
          refine .inr (.inl ⟨j, ?_, rfl, hi⟩)
          simp only [choose, hj, hleaving, hi]
          rfl
      | some i =>
          refine .inr (.inr ⟨i, j, ?_, rfl, hi⟩)
          simp only [choose, hj, hleaving, hi]
          rfl

theorem entering_of_optimal (ht : t.IsRectangular) (h : t.choose tol = .ok .optimal) :
    t.entering tol = none := by
  rcases choose_cases ht tol with ⟨-, hnone⟩ | ⟨j, hc, -⟩ | ⟨i, j, hc, -⟩
  · exact hnone
  · exact nomatch h.symm.trans hc
  · exact nomatch h.symm.trans hc

theorem entering_of_unbounded (ht : t.IsRectangular) {j : Nat}
    (h : t.choose tol = .ok (.unbounded j)) :
    t.entering tol = some j ∧ t.leastRatioRow j tol = none := by
  rcases choose_cases ht tol with ⟨hc, -⟩ | ⟨j', hc, hs⟩ | ⟨i, j', hc, -⟩
  · exact nomatch h.symm.trans hc
  · cases h.symm.trans hc
    exact hs
  · exact nomatch h.symm.trans hc

theorem entering_of_pivot (ht : t.IsRectangular) {cell : Cell}
    (h : t.choose tol = .ok (.pivot cell)) :
    t.entering tol = some cell.column ∧ t.leastRatioRow cell.column tol = some cell.row := by
  rcases choose_cases ht tol with ⟨hc, -⟩ | ⟨j, hc, -⟩ | ⟨i, j, hc, hs⟩
  · exact nomatch h.symm.trans hc
  · exact nomatch h.symm.trans hc
  · cases h.symm.trans hc
    exact hs

end Tableau

end Any

end TwoPhase
