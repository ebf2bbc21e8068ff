/-
# `Selection` — what the scans guarantee in exact arithmetic

"More than the tolerance better" is no ordering: in a chain of near ties
each candidate ties with the next, and the last is far below the first.
So what a scan ends with is the minimum of nothing.  It is pinned down by
an invariant of the scan itself, `IsLeastSoFar`: the candidate held is at
most the tolerance above everything seen and strictly below all that came
before it.

The candidates of the three rules stand in the order of their places, so
that what came before is what has a smaller place.  Each rule thus has the
one guarantee, `PicksNearLeast`, for candidates and values of its own.
-/
import Mathlib
import TwoPhase.Proofs.Choice
import TwoPhase.Proofs.Row

namespace TwoPhase

/-! ## The candidate held -/

section Least

variable {α : Type} (key : α → ℚ) (tol : ℚ)

/-- The candidate held after a scan has seen the given ones. -/
def IsLeastSoFar (seen : List (α × Nat)) (held : α × Nat) : Prop :=
  ∃ before after, seen = before ++ held :: after ∧
    (∀ c ∈ seen, key held.1 ≤ key c.1 + tol) ∧ ∀ c ∈ before, key held.1 < key c.1

variable {key tol} {yields : α → α → Bool}

/-- One more candidate: it is taken over only from a value more than the tolerance
above it, which is then strictly above it and was at most the tolerance above all
others. -/
theorem IsLeastSoFar.step (hyields : ∀ a b, yields a b = true ↔ key b + tol < key a)
    (htol : 0 ≤ tol) {seen : List (α × Nat)} {held : α × Nat}
    (h : IsLeastSoFar key tol seen held) (next : α × Nat) :
    IsLeastSoFar key tol (seen ++ [next]) (if yields held.1 next.1 then next else held) := by
  obtain ⟨before, after, hseen, hle, hlt⟩ := h
  split
  next hy =>
    have hnext := (hyields _ _).mp hy
    refine ⟨seen, [], rfl, ?_, ?_⟩
    · intro c hc
      rcases List.mem_append.mp hc with hc | hc
      · have := hle c hc
        linarith
      · rw [List.mem_singleton.mp hc]
        linarith
    · intro c hc
      have := hle c hc
      linarith
  next hy =>
    have hnext : key held.1 ≤ key next.1 + tol :=
      not_lt.mp fun hlt => hy ((hyields _ _).mpr hlt)
    refine ⟨before, after ++ [next], by simp [hseen], ?_, hlt⟩
    intro c hc
    rcases List.mem_append.mp hc with hc | hc
    · exact hle c hc
    · rw [List.mem_singleton.mp hc]
      exact hnext

theorem IsLeastSoFar.foldl (hyields : ∀ a b, yields a b = true ↔ key b + tol < key a)
    (htol : 0 ≤ tol) (rest : List (α × Nat)) :
    ∀ {seen : List (α × Nat)} {held : α × Nat}, IsLeastSoFar key tol seen held →
      IsLeastSoFar key tol (seen ++ rest)
        (rest.foldl (fun held next => if yields held.1 next.1 then next else held) held) := by
  induction rest with
  | nil => intro seen held h; simpa using h
  | cons next rest ih =>
      intro seen held h
      have hstep := ih (h.step hyields htol next)
      rwa [List.append_assoc, List.singleton_append] at hstep

theorem isLeastSoFar_of_scan (hyields : ∀ a b, yields a b = true ↔ key b + tol < key a)
    (htol : 0 ≤ tol) {cands : List (α × Nat)} {i : Nat} (h : scan yields cands = some i) :
    ∃ a, IsLeastSoFar key tol cands (a, i) := by
  cases cands with
  | nil => exact nomatch h
  | cons first rest =>
      have hfirst : IsLeastSoFar key tol [first] first :=
        ⟨[], [], rfl, by simpa using htol, by simp⟩
      have hall := hfirst.foldl hyields htol rest
      rw [List.singleton_append] at hall
      rw [← Option.some.inj h]
      exact ⟨_, hall⟩

end Least

/-! ## The place picked -/

/-- The place is a candidate whose value is at most the tolerance above that of any other, and
strictly below those of the candidates before it. -/
structure IsNearLeast (candidate : Nat → Prop) (value : Nat → ℚ) (tol : ℚ) (i : Nat) : Prop where
  isCandidate : candidate i
  le_add : ∀ k, candidate k → value i ≤ value k + tol
  lt_of_lt : ∀ k < i, candidate k → value i < value k

/-- The choice is near the least, and there is one unless there is no candidate. -/
structure PicksNearLeast (candidate : Nat → Prop) (value : Nat → ℚ) (tol : ℚ)
    (choice : Option Nat) : Prop where
  eq_none_iff : choice = none ↔ ∀ k, ¬ candidate k
  isNearLeast : ∀ i, choice = some i → IsNearLeast candidate value tol i

section Places

variable {α : Type} {key : α → ℚ} {tol : ℚ} {yields : α → α → Bool} {cands : List (α × Nat)}
  {candidate : Nat → Prop} {value : Nat → ℚ}

/-- Of candidates in order, those with a smaller index than another stand before it. -/
theorem mem_before_of_lt {before after : List (α × Nat)} {held c : α × Nat}
    (hsorted : (before ++ held :: after).Pairwise fun a b => a.2 < b.2)
    (hc : c ∈ before ++ held :: after) (hlt : c.2 < held.2) : c ∈ before := by
  rcases List.mem_append.mp hc with hbefore | hrest
  · exact hbefore
  rcases List.mem_cons.mp hrest with rfl | hafter
  · exact absurd hlt (lt_irrefl _)
  · have hgt := (List.pairwise_cons.mp (List.pairwise_append.mp hsorted).2.1).1 c hafter
    exact absurd hlt hgt.not_gt

theorem IsLeastSoFar.isNearLeast {held : α × Nat} (h : IsLeastSoFar key tol cands held)
    (hsorted : cands.Pairwise fun a b => a.2 < b.2)
    (hcands : ∀ k, candidate k ↔ ∃ a, (a, k) ∈ cands)
    (hvalue : ∀ a k, (a, k) ∈ cands → key a = value k) :
    IsNearLeast candidate value tol held.2 := by
  obtain ⟨before, after, rfl, hle, hlt⟩ := h
  have hheld : held ∈ before ++ held :: after := List.mem_append_right _ List.mem_cons_self
  have hkey : key held.1 = value held.2 := hvalue _ _ hheld
  refine ⟨(hcands _).mpr ⟨held.1, hheld⟩, ?_, ?_⟩
  · intro k hk
    obtain ⟨a, ha⟩ := (hcands k).mp hk
    rw [← hkey, ← hvalue a k ha]
    exact hle (a, k) ha
  · intro k hki hk
    obtain ⟨a, ha⟩ := (hcands k).mp hk
    rw [← hkey, ← hvalue a k ha]
    exact hlt (a, k) (mem_before_of_lt hsorted ha hki)

theorem picksNearLeast_scan (key : α → ℚ)
    (hyields : ∀ a b, yields a b = true ↔ key b + tol < key a) (htol : 0 ≤ tol)
    (hsorted : cands.Pairwise fun a b => a.2 < b.2)
    (hcands : ∀ k, candidate k ↔ ∃ a, (a, k) ∈ cands)
    (hvalue : ∀ a k, (a, k) ∈ cands → key a = value k) :
    PicksNearLeast candidate value tol (scan yields cands) := by
  refine ⟨?_, ?_⟩
  · simp only [scan_eq_none_iff, hcands, not_exists]
    exact forall_comm
  · intro i hi
    obtain ⟨a, hleast⟩ := isLeastSoFar_of_scan hyields htol hi
    exact hleast.isNearLeast hsorted hcands hvalue

end Places

/-! ## The three rules -/

namespace Tableau

/-- The reduced cost of the column is below zero by more than the tolerance. -/
def MayEnter (t : Tableau ℚ) (tol : ℚ) (j : Nat) : Prop :=
  j < t.columns.length ∧ t.objective.entry j < -tol

/-- The row has an entry above the tolerance in column `j`. -/
def MayLeave (t : Tableau ℚ) (tol : ℚ) (j i : Nat) : Prop :=
  ∃ r, t.rows[i]? = some r ∧ tol < r.entry j

/-- What the row has on the right-hand side for each unit of column `j`. -/
def ratio (t : Tableau ℚ) (j i : Nat) : ℚ :=
  match t.rows[i]? with
  | some r => r.rhs / r.entry j
  | none => 0

/-- The column is not artificial, and the magnitude of the row's entry there is above the
tolerance. -/
def MayReplace (t : Tableau ℚ) (tol : ℚ) (r : Row ℚ) (j : Nat) : Prop :=
  (∃ c, t.columns[j]? = some c ∧ ¬ c.IsArtificial) ∧ tol < |r.entry j|

variable {t : Tableau ℚ} {tol : ℚ}

theorem ratio_of_row {i : Nat} {r : BasicRow ℚ} (hr : t.rows[i]? = some r) (j : Nat) :
    t.ratio j i = r.rhs / r.entry j := by
  rw [ratio, hr]

theorem decide_exceeds_iff (htol : 0 ≤ tol) (a b : ℚ) :
    decide (Exceeds tol a b) = true ↔ b + tol < a := by
  rw [decide_eq_true_eq, exceeds_iff htol]

theorem picksNearLeast_entering (ht : t.IsRectangular) (htol : 0 ≤ tol) :
    PicksNearLeast (t.MayEnter tol) t.objective.entry tol (t.entering tol) := by
  refine picksNearLeast_scan id (decide_exceeds_iff htol) htol pairwise_enteringCandidates ?_ ?_
  · intro k
    constructor
    · rintro ⟨hk, hneg⟩
      rw [← ht.2] at hk
      rw [Row.entry_of_lt hk] at hneg
      exact ⟨_, mem_enteringCandidates.mpr ⟨List.getElem?_eq_getElem hk, hneg⟩⟩
    · rintro ⟨v, hmem⟩
      obtain ⟨hv, hneg⟩ := mem_enteringCandidates.mp hmem
      obtain ⟨hk, rfl⟩ := Row.lt_and_entry_of_getElem? hv
      exact ⟨ht.2 ▸ hk, hneg⟩
  · intro v k hmem
    exact (Row.lt_and_entry_of_getElem? (mem_enteringCandidates.mp hmem).1).2.symm

theorem picksNearLeast_leastRatioRow (htol : 0 ≤ tol) (j : Nat) :
    PicksNearLeast (t.MayLeave tol j) (t.ratio j) tol (t.leastRatioRow j tol) := by
  refine picksNearLeast_scan id (decide_exceeds_iff htol) htol (pairwise_leavingCandidates j) ?_ ?_
  · intro i
    constructor
    · rintro ⟨r, hr, hpos⟩
      exact ⟨_, mem_leavingCandidates.mpr ⟨r, hr, hpos, rfl⟩⟩
    · rintro ⟨v, hmem⟩
      obtain ⟨r, hr, hpos, -⟩ := mem_leavingCandidates.mp hmem
      exact ⟨r, hr, hpos⟩
  · intro v i hmem
    obtain ⟨r, hr, -, rfl⟩ := mem_leavingCandidates.mp hmem
    exact (ratio_of_row hr j).symm

theorem picksNearLeast_largestColumn (htol : 0 ≤ tol) {r : Row ℚ}
    (hr : r.coeffs.length = t.columns.length) :
    PicksNearLeast (t.MayReplace tol r) (fun j => -|r.entry j|) tol (t.largestColumn r tol) := by
  refine picksNearLeast_scan (fun v => -|v|) ?_ htol (pairwise_replacementCandidates r) ?_ ?_
  · intro a b
    rw [decide_exceeds_iff htol, scalarAbs_eq_abs, scalarAbs_eq_abs]
    constructor <;> intro h <;> linarith
  · intro k
    constructor
    · rintro ⟨⟨c, hc, hreal⟩, hbig⟩
      have hk : k < r.coeffs.length := hr ▸ (List.getElem?_eq_some_iff.mp hc).1
      rw [Row.entry_of_lt hk, ← scalarAbs_eq_abs] at hbig
      exact ⟨_, mem_replacementCandidates.mpr
        ⟨List.getElem?_eq_getElem hk, ⟨c, hc, hreal⟩, hbig⟩⟩
    · rintro ⟨v, hmem⟩
      obtain ⟨hv, hreal, hbig⟩ := mem_replacementCandidates.mp hmem
      rw [scalarAbs_eq_abs, ← (Row.lt_and_entry_of_getElem? hv).2] at hbig
      exact ⟨hreal, hbig⟩
  · intro v k hmem
    rw [(Row.lt_and_entry_of_getElem? (mem_replacementCandidates.mp hmem).1).2]

theorem leastRatioRow_le (htol : 0 ≤ tol) {i j : Nat} (h : t.leastRatioRow j tol = some i) :
    ∃ r, t.rows[i]? = some r ∧ tol < r.entry j ∧
      ∀ s ∈ t.rows, tol < s.entry j → r.rhs / r.entry j ≤ s.rhs / s.entry j + tol := by
  obtain ⟨⟨r, hr, hpos⟩, hle, -⟩ := (picksNearLeast_leastRatioRow htol j).isNearLeast i h
  refine ⟨r, hr, hpos, fun s hs hspos => ?_⟩
  obtain ⟨k, hk⟩ := List.mem_iff_getElem?.mp hs
  rw [← ratio_of_row hr, ← ratio_of_row hk]
  exact hle k ⟨s, hk, hspos⟩

/-- At every position that stands for something, each rule answers with a place near the least
of its candidates, and with none where it has no candidate.  The reduced cost of the entering
column is near the least of all, candidates or not. -/
theorem choices_within_tolerance (ht : t.IsRectangular) (htol : 0 ≤ tol) :
    PicksNearLeast (t.MayEnter tol) t.objective.entry tol (t.entering tol) ∧
    (∀ j, t.entering tol = some j → ∀ k < t.columns.length,
      t.objective.entry j ≤ t.objective.entry k + tol) ∧
    (∀ position j, place? (t.columns.length + 1) position = some j →
      ∃ choice, t.leaving position tol = .ok choice ∧
        PicksNearLeast (t.MayLeave tol j) (t.ratio j) tol choice) ∧
    ∀ position i, place? t.allRows.length position = some i →
      ∃ r choice, t.allRows[i]? = some r ∧ t.replacement position tol = .ok choice ∧
        PicksNearLeast (t.MayReplace tol r) (fun j => -|r.entry j|) tol choice := by
  have hentering := picksNearLeast_entering ht htol
  refine ⟨hentering, ?_, ?_, ?_⟩
  · intro j hj k hk
    have hnear := hentering.isNearLeast j hj
    by_cases hcand : t.objective.entry k < -tol
    · exact hnear.le_add k ⟨hk, hcand⟩
    · have hneg := hnear.isCandidate.2
      linarith
  · intro position j hj
    exact ⟨_, leaving_of_place ht hj, picksNearLeast_leastRatioRow htol j⟩
  · intro position i hi
    have hr := List.getElem?_eq_getElem (lt_of_place? hi)
    have hlen := ht.length_of_mem_allRows (List.mem_of_getElem? hr)
    exact ⟨_, _, hr, replacement_of_place ht hi hr, picksNearLeast_largestColumn htol hlen⟩

/-- In each of three chains neighbours are within the tolerance of each other: the scan passes
over the second candidate and ends in the third. -/
theorem choices_within_tolerance_chain :
    let r : BasicRow ℚ := ⟨⟨[1, -3 / 2, 2, 0, 9], 4⟩, 0⟩
    let t : Tableau ℚ := ⟨[.decision 0, .decision 1, .slack 0, .slack 1, .artificial 2],
      [r, ⟨⟨[0, 0, 1, 1, 0], 8 / 5⟩, 3⟩, ⟨⟨[1, 0, 1, 0, 1], 6 / 5⟩, 4⟩],
      ⟨[-1, -7 / 5, -9 / 5, -2, 0], 0⟩⟩
    t.entering (1 / 2) = some 2 ∧ t.leaving 2 (1 / 2) = .ok (some 2) ∧
    t.replacement 0 (1 / 2) = .ok (some 2) ∧
    IsNearLeast (t.MayEnter (1 / 2)) t.objective.entry (1 / 2) 2 ∧
    IsNearLeast (t.MayLeave (1 / 2) 2) (t.ratio 2) (1 / 2) 2 ∧
    IsNearLeast (t.MayReplace (1 / 2) r.toRow) (fun j => -|r.entry j|) (1 / 2) 2 := by
  intro r t
  have htol : (0 : ℚ) ≤ 1 / 2 := by decide +kernel
  obtain ⟨hentering, -, hleaving, hreplacement⟩ :=
    choices_within_tolerance (t := t) (by decide) htol
  have hj : t.entering (1 / 2) = some 2 := by decide +kernel
  have hi : t.leaving 2 (1 / 2) = .ok (some 2) := by decide +kernel
  have hk : t.replacement 0 (1 / 2) = .ok (some 2) := by decide +kernel
  obtain ⟨choice, hchoice, hleaves⟩ := hleaving 2 2 (place?_of_lt (by decide))
  cases hi.symm.trans hchoice
  obtain ⟨r', choice, hr', hchoice, hreplaces⟩ := hreplacement 0 0 (place?_of_lt (by decide))
  cases hr'
  cases hk.symm.trans hchoice
  exact ⟨hj, hi, hk, hentering.isNearLeast 2 hj, hleaves.isNearLeast 2 rfl,
    hreplaces.isNearLeast 2 rfl⟩

end Tableau

end TwoPhase
