/-
# `Row` — what row operations do to entries and to equations

A row is looked at in two ways.  Entry by entry: each operation has a
formula for `Row.entry`, right-hand side included.  As an equation: the
gap of a row at a vector is what the weighted sum leaves of the
right-hand side.  A constraint row holds where its gap is zero, and the
gap of an objective row is the objective it stands for; the gap is linear
in the row, so both readings survive row operations for one reason.
-/
import Mathlib
import TwoPhase.Proofs.Exact

namespace TwoPhase

namespace Row

/-! ## Widths -/

section Width

variable {α : Type}

@[simp] theorem length_map (f : α → α) (r : Row α) :
    (r.map f).coeffs.length = r.coeffs.length := List.length_map f

@[simp] theorem length_zipWith (f : α → α → α) (r s : Row α) :
    (r.zipWith f s).coeffs.length = min r.coeffs.length s.coeffs.length :=
  List.length_zipWith

@[simp] theorem length_setCoeff (r : Row α) (j : Nat) (v : α) :
    (r.setCoeff j v).coeffs.length = r.coeffs.length := List.length_set

variable [Scalar α]

@[simp] theorem length_settle (r : Row α) (tol : α) (j : Nat) (v : α) :
    (r.settle tol j v).coeffs.length = r.coeffs.length := by
  simp [settle]

theorem length_subtract {r s : Row α} (h : r.coeffs.length = s.coeffs.length) (k : α) :
    (r.subtract k s).coeffs.length = r.coeffs.length := by
  simp [subtract, h]

theorem eliminate_cases (r s : Row α) (j : Nat) :
    ((r.entry j == 0) = true ∧ r.eliminate j s = r) ∨
      r.eliminate j s = r.subtract (r.entry j) s := by
  rw [eliminate]
  split
  next h => exact .inl ⟨h, rfl⟩
  next => exact .inr rfl

theorem length_eliminate {r s : Row α} (h : r.coeffs.length = s.coeffs.length) (j : Nat) :
    (r.eliminate j s).coeffs.length = r.coeffs.length := by
  rcases eliminate_cases r s j with ⟨-, he⟩ | he
  · rw [he]
  · rw [he, length_subtract h]

theorem entry_eq (r : Row α) (j : Nat) : r.entry j = r.entries[j]?.getD 0 :=
  List.getD_eq_getElem?_getD

theorem entry_of_lt {r : Row α} {j : Nat} (h : j < r.coeffs.length) :
    r.entry j = r.coeffs[j] := by
  simp [entry, entries, List.getElem?_append_left h, List.getElem?_eq_getElem h]

theorem lt_and_entry_of_getElem? {r : Row α} {j : Nat} {v : α} (h : r.coeffs[j]? = some v) :
    j < r.coeffs.length ∧ r.entry j = v := by
  obtain ⟨hlt, hv⟩ := List.getElem?_eq_some_iff.mp h
  exact ⟨hlt, (entry_of_lt hlt).trans hv⟩

@[simp] theorem entry_length (r : Row α) : r.entry r.coeffs.length = r.rhs := by
  simp [entry, entries]

end Width

/-! ## Entries -/

theorem entry_eq_getD (r : Row ℚ) {j : Nat} (h : j < r.coeffs.length) :
    r.entry j = r.coeffs.getD j 0 := by
  rw [entry_of_lt h, List.getD_eq_getElem _ _ h]

theorem entry_map {f : ℚ → ℚ} (hf : f 0 = 0) (r : Row ℚ) (j : Nat) :
    (r.map f).entry j = f (r.entry j) := by
  have hentries : (r.map f).entries = r.entries.map f := by simp [map, entries]
  rw [entry_eq, entry_eq, hentries, List.getElem?_map]
  cases r.entries[j]? with
  | none => exact hf.symm
  | some v => rfl

theorem entry_map_div (r : Row ℚ) (d : ℚ) (j : Nat) : (r.map (· / d)).entry j = r.entry j / d := by
  have hzero : (fun v => v / d) 0 = 0 := zero_div _
  exact entry_map hzero r j

theorem entry_subtract {r s : Row ℚ} (h : r.coeffs.length = s.coeffs.length) (k : ℚ) (j : Nat) :
    (r.subtract k s).entry j = r.entry j - s.entry j * k := by
  have hentries : (r.subtract k s).entries
      = List.zipWith (fun v w => v - w * k) r.entries s.entries := by
    simp only [subtract, zipWith, entries]
    rw [List.zipWith_append h]
    rfl
  have hlen : r.entries.length = s.entries.length := by simp [entries, h]
  rw [entry_eq, entry_eq, entry_eq, hentries, List.getElem?_zipWith]
  rcases lt_or_ge j r.entries.length with hj | hj
  · rw [List.getElem?_eq_getElem hj, List.getElem?_eq_getElem (hlen ▸ hj)]
    rfl
  · rw [List.getElem?_eq_none hj, List.getElem?_eq_none (hlen ▸ hj)]
    show (0 : ℚ) = 0 - 0 * k
    ring

theorem entry_setCoeff (r : Row ℚ) {j : Nat} (h : j < r.coeffs.length) (v : ℚ) (k : Nat) :
    (r.setCoeff j v).entry k = if k = j then v else r.entry k := by
  have hentries : (r.setCoeff j v).entries = r.entries.set j v := by
    simp [setCoeff, entries, List.set_append_left _ _ h]
  rw [entry_eq, entry_eq, hentries, List.getElem?_set]
  have hlen : j < r.entries.length := by simp [entries]; omega
  by_cases hk : k = j
  · subst hk; simp [hlen]
  · simp [hk, Ne.symm hk]

theorem entry_eliminate {r s : Row ℚ} (h : r.coeffs.length = s.coeffs.length) (j k : Nat) :
    (r.eliminate j s).entry k = r.entry k - s.entry k * r.entry j := by
  rcases eliminate_cases r s j with ⟨hzero, he⟩ | he
  · rw [he, eq_of_beq hzero, mul_zero, sub_zero]
  · rw [he, entry_subtract h]

theorem entry_settle (r : Row ℚ) {tol : ℚ} {j : Nat} (h : j < r.coeffs.length) (v : ℚ)
    (k : Nat) : (r.settle tol j v).entry k = if k = j then v else snap tol (r.entry k) := by
  rw [settle, entry_setCoeff _ (by simpa using h), entry_map (snap_zero tol)]

theorem ext_entry {r s : Row ℚ} (hlen : r.coeffs.length = s.coeffs.length)
    (h : ∀ j ≤ r.coeffs.length, r.entry j = s.entry j) : r = s := by
  have hcoeffs : r.coeffs = s.coeffs := by
    refine List.ext_getElem hlen fun j hr hs => ?_
    rw [← entry_of_lt hr, ← entry_of_lt hs]
    exact h j hr.le
  have hrhs : r.rhs = s.rhs := by
    rw [← entry_length r, ← entry_length s, ← hlen]
    exact h _ le_rfl
  cases r; cases s
  simp_all

/-! ## The gap of a row at a vector -/

/-- What the weighted sum of a vector leaves of the right-hand side. -/
def gap (r : Row ℚ) (y : List ℚ) : ℚ := r.rhs - dot r.coeffs y

/-- The row, read as an equation, holds of a vector. -/
def Holds (r : Row ℚ) (y : List ℚ) : Prop := dot r.coeffs y = r.rhs

theorem holds_iff_gap {r : Row ℚ} {y : List ℚ} : r.Holds y ↔ r.gap y = 0 := by
  rw [Holds, gap, sub_eq_zero]
  exact eq_comm

theorem gap_map_div (r : Row ℚ) (d : ℚ) (y : List ℚ) : (r.map (· / d)).gap y = r.gap y / d := by
  show r.rhs / d - dot (r.coeffs.map (· / d)) y = _
  rw [dot_map_div, gap, sub_div]

theorem holds_map_div {r : Row ℚ} {d : ℚ} (hd : d ≠ 0) (y : List ℚ) :
    (r.map (· / d)).Holds y ↔ r.Holds y := by
  rw [holds_iff_gap, holds_iff_gap, gap_map_div, div_eq_zero_iff]
  exact ⟨fun h => h.resolve_right hd, .inl⟩

theorem gap_subtract {r s : Row ℚ} (h : r.coeffs.length = s.coeffs.length) (k : ℚ)
    (y : List ℚ) : (r.subtract k s).gap y = r.gap y - s.gap y * k := by
  show r.rhs - s.rhs * k - dot (List.zipWith (fun v w => v - w * k) r.coeffs s.coeffs) y = _
  rw [dot_zipWith_sub h, gap, gap]
  ring

theorem gap_eliminate {r s : Row ℚ} (h : r.coeffs.length = s.coeffs.length) (j : Nat)
    (y : List ℚ) : (r.eliminate j s).gap y = r.gap y - s.gap y * r.entry j := by
  rcases eliminate_cases r s j with ⟨hzero, he⟩ | he
  · rw [he, eq_of_beq hzero, mul_zero, sub_zero]
  · rw [he, gap_subtract h]

theorem settle_zero_tol (r : Row ℚ) {j : Nat} (h : j < r.coeffs.length) {v : ℚ}
    (hv : r.entry j = v) : r.settle 0 j v = r := by
  refine ext_entry (by simp) fun k _ => ?_
  rw [entry_settle r h, snap_zero_tol]
  split
  next hk => rw [hk, hv]
  next => rfl

end Row

end TwoPhase
