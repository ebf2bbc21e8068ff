/-
# `Meaning` — a program and its standard form ask for the same

What a program asks for is stated without reference to the solver: which
points are feasible, and what a point is worth.  A constraint and its
normalised form ask for the same, exactly as well as up to a tolerance.  A
standard form is a system of equations over non-negative vectors.  Program
and standard form agree: a point is feasible exactly where slack and
surplus variables complete it, without any help from artificial ones, to a
solution of the equations, and the costs of the form weigh the point as the
objective does, up to the sign that turns a minimum into a maximum.
-/
import Mathlib
import TwoPhase.Solve
import TwoPhase.Proofs.Layout
import TwoPhase.Proofs.Row

namespace TwoPhase

/-! ## What a program asks for -/

namespace Constraint

/-- The values meet the constraint exactly. -/
def Holds (c : Constraint ℚ) (x : List ℚ) : Prop :=
  match c.relation with
  | .atMost => dot c.coeffs x ≤ c.rhs
  | .atLeast => c.rhs ≤ dot c.coeffs x
  | .equal => dot c.coeffs x = c.rhs

section Relation

variable {c : Constraint ℚ} {x : List ℚ}

theorem holds_atMost (h : c.relation = .atMost) : c.Holds x ↔ dot c.coeffs x ≤ c.rhs := by
  rw [Holds, h]

theorem holds_atLeast (h : c.relation = .atLeast) : c.Holds x ↔ c.rhs ≤ dot c.coeffs x := by
  rw [Holds, h]

theorem holds_equal (h : c.relation = .equal) : c.Holds x ↔ dot c.coeffs x = c.rhs := by
  rw [Holds, h]

end Relation

theorem isMetBy_zero_tol (c : Constraint ℚ) (x : List ℚ) : c.IsMetBy x 0 ↔ c.Holds x := by
  unfold IsMetBy Holds lhs
  cases c.relation with
  | atMost => simp only [add_zero]
  | atLeast => simp only [sub_zero]
  | equal => simp only [scalarAbs_eq_abs, abs_nonpos_iff, sub_eq_zero]

theorem IsMetBy.mono {c : Constraint ℚ} {x : List ℚ} {tol tol' : ℚ}
    (h : c.IsMetBy x tol) (hle : tol ≤ tol') : c.IsMetBy x tol' := by
  unfold IsMetBy at h ⊢
  cases hrel : c.relation with
  | atMost =>
      simp only [hrel] at h ⊢
      exact h.trans (add_le_add_right hle _)
  | atLeast =>
      simp only [hrel] at h ⊢
      exact (sub_le_sub_left hle _).trans h
  | equal =>
      simp only [hrel] at h ⊢
      exact h.trans hle

/-- Negating both sides and turning the relation round leaves it to the same values, and up to
the same tolerance, to meet a constraint.  The tolerance is added on the one side of an
inequality and taken away on the other, so negation exchanges the two ways of writing it. -/
theorem isMetBy_negate (c : Constraint ℚ) (values : List ℚ) (tol : ℚ) :
    c.negate.IsMetBy values tol ↔ c.IsMetBy values tol := by
  obtain ⟨coeffs, relation, rhs⟩ := c
  cases relation with
  | atMost =>
      show -rhs - tol ≤ dot (coeffs.map (- ·)) values ↔ dot coeffs values ≤ rhs + tol
      rw [dot_map_neg, ← neg_add', neg_le_neg_iff]
  | atLeast =>
      show dot (coeffs.map (- ·)) values ≤ -rhs + tol ↔ rhs - tol ≤ dot coeffs values
      rw [dot_map_neg, neg_add_eq_sub, neg_le, neg_sub]
  | equal =>
      show Scalar.abs (dot (coeffs.map (- ·)) values - -rhs) ≤ tol ↔
        Scalar.abs (dot coeffs values - rhs) ≤ tol
      rw [dot_map_neg, scalarAbs_eq_abs, scalarAbs_eq_abs, neg_sub_neg, abs_sub_comm]

theorem isMetBy_normalize (c : Constraint ℚ) (values : List ℚ) (tol : ℚ) :
    c.normalize.IsMetBy values tol ↔ c.IsMetBy values tol := by
  rw [normalize]
  split
  · exact isMetBy_negate c values tol
  · exact Iff.rfl

theorem holds_normalize (c : Constraint ℚ) (x : List ℚ) :
    c.normalize.Holds x ↔ c.Holds x := by
  rw [← isMetBy_zero_tol, isMetBy_normalize, isMetBy_zero_tol]

theorem rhs_normalize_nonneg (c : Constraint ℚ) : 0 ≤ c.normalize.rhs := by
  rw [normalize]
  split
  next h => exact (neg_pos.mpr h).le
  next h => exact not_lt.mp h

theorem normalize_of_rhs_nonneg {c : Constraint ℚ} (h : 0 ≤ c.rhs) :
    c.normalize = { c with negated := false } := if_neg (not_lt.mpr h)

/-- The normalised form of a constraint has no right-hand side below zero and is met by the same
values up to the same tolerance, be the values more or fewer than the coefficients and the
tolerance above or below zero.  It is its own normalised form, and there nothing has been
negated. -/
theorem normalize_keeps_demand (c : Constraint ℚ) :
    0 ≤ c.normalize.rhs ∧
      (∀ values tol, c.normalize.toConstraint.IsMetBy values tol ↔ c.IsMetBy values tol) ∧
      c.normalize.toConstraint.normalize = { c.normalize with negated := false } := by
  have hrhs : 0 ≤ c.normalize.rhs := rhs_normalize_nonneg c
  exact ⟨hrhs, isMetBy_normalize c, normalize_of_rhs_nonneg hrhs⟩

end Constraint

/-- The point has one value for each variable, none of them below zero, and meets every
constraint. -/
structure Program.IsFeasible (p : Program ℚ) (x : List ℚ) : Prop where
  length_eq : x.length = p.numVars
  nonneg : ∀ v ∈ x, 0 ≤ v
  holds : ∀ c ∈ p.constraints, c.Holds x

/-- What a point is worth. -/
def Program.value (p : Program ℚ) (x : List ℚ) : ℚ := dot p.objective x

/-- The first value is strictly better than the second. -/
def Direction.Better : Direction → ℚ → ℚ → Prop
  | .maximize, v, w => w < v
  | .minimize, v, w => v < w

def Direction.signed : Direction → ℚ → ℚ
  | .maximize, v => v
  | .minimize, v => -v

theorem Direction.better_iff (d : Direction) (v w : ℚ) :
    d.Better v w ↔ d.signed w < d.signed v := by
  cases d with
  | maximize => exact Iff.rfl
  | minimize => exact neg_lt_neg_iff.symm

namespace StandardForm

/-! ## What a standard form asks for -/

/-- Every equation of the form holds of the vector. -/
def SolvedBy (f : StandardForm ℚ) (y : List ℚ) : Prop := ∀ r ∈ f.rows, r.Holds y

/-- The sum of the artificial entries of a vector. -/
def artificialSum (f : StandardForm ℚ) (y : List ℚ) : ℚ :=
  (f.artificialColumns.map (y.getD · 0)).sum

/-- The vector with a zero added for each artificial column. -/
def extend (f : StandardForm ℚ) (y : List ℚ) : List ℚ :=
  y ++ List.replicate f.artificialColumns.length 0

section ArtificialSum

variable {f : StandardForm ℚ} {y : List ℚ}

theorem getD_nonneg (hy : ∀ v ∈ y, 0 ≤ v) (j : Nat) : 0 ≤ y.getD j 0 := by
  rw [List.getD_eq_getElem?_getD]
  cases hj : y[j]? with
  | none => exact le_rfl
  | some v => exact hy v (List.mem_of_getElem? hj)

theorem artificialSum_nonneg (hy : ∀ v ∈ y, 0 ≤ v) : 0 ≤ f.artificialSum y := by
  refine List.sum_nonneg fun v hv => ?_
  obtain ⟨j, -, rfl⟩ := List.mem_map.mp hv
  exact getD_nonneg hy j

theorem mem_artificialColumns {j : Nat} :
    j ∈ f.artificialColumns ↔ ∃ c, f.columns[j]? = some c ∧ c.IsArtificial := by
  simp [artificialColumns, List.mem_zipIdx_iff_getElem?]

theorem getD_le_artificialSum (hy : ∀ v ∈ y, 0 ≤ v) {j : Nat} (hj : j ∈ f.artificialColumns) :
    y.getD j 0 ≤ f.artificialSum y := by
  refine List.single_le_sum (fun v hv => ?_) _ (List.mem_map_of_mem hj)
  obtain ⟨k, -, rfl⟩ := List.mem_map.mp hv
  exact getD_nonneg hy k

theorem dot_map_drop (g : Column → ℚ) (y : List ℚ) :
    ∀ (cols : List Column) (k : Nat), dot (cols.map g) (y.drop k) =
      ((cols.zipIdx k).map fun q => g q.1 * y.getD q.2 0).sum
  | [], _ => by simp
  | c :: cols, k => by
      rw [List.zipIdx_cons, List.map_cons, List.map_cons, List.sum_cons,
        ← dot_map_drop g y cols (k + 1)]
      rcases lt_or_ge k y.length with hk | hk
      · rw [List.drop_eq_getElem_cons hk, dot_cons, List.getD_eq_getElem _ _ hk]
      · rw [List.drop_eq_nil_of_le hk, List.drop_eq_nil_of_le (by omega), dot_nil_right,
          dot_nil_right, List.getD_eq_default _ _ hk, mul_zero, add_zero]

theorem sum_map_phaseOneCost (g : Nat → ℚ) :
    ∀ cols : List (Column × Nat),
      (cols.map fun q => (if q.1.IsArtificial then -1 else 0) * g q.2).sum
        = -(((cols.filter fun (c, _) => c.IsArtificial).map (·.2)).map g).sum
  | [] => by simp
  | (c, j) :: cols => by
      rw [List.map_cons, List.sum_cons, sum_map_phaseOneCost g cols]
      by_cases hc : c.IsArtificial
      · rw [List.filter_cons_of_pos (by simpa using hc)]
        simp only [hc, if_true, List.map_cons, List.sum_cons]
        ring
      · rw [List.filter_cons_of_neg (by simpa using hc)]
        simp only [hc, if_false, zero_mul, zero_add]

/-- The costs of phase 1 weigh a vector as the negated sum of its artificial entries. -/
theorem dot_phaseOneCosts (f : StandardForm ℚ) (y : List ℚ) :
    dot (phaseOneCosts f.columns) y = -f.artificialSum y := by
  have hdrop := dot_map_drop (fun c => if c.IsArtificial then -1 else 0) y f.columns 0
  exact hdrop.trans (sum_map_phaseOneCost (y.getD · 0) f.columns.zipIdx)

end ArtificialSum

/-! ## Slack and surplus columns -/

section Slack

variable {cs : List (NormalConstraint ℚ)} {i : Nat} {x : NormalConstraint ℚ}

/-- The sign with which the slack or surplus column of a row enters it. -/
def slackSign : Relation → ℚ
  | .atMost => 1
  | .atLeast => -1
  | .equal => 0

theorem unitEntry_of_mem_slackColumns (hx : cs[i]? = some x) {c : Column}
    (hc : c ∈ slackColumns cs) :
    (unitEntry i c : ℚ) = if x.slackColumn i = some c then slackSign x.relation else 0 := by
  obtain ⟨k, z, hz, hk⟩ := mem_zipIdx_filterMap.mp hc
  by_cases hki : k = i
  · subst hki
    cases hx.symm.trans hz
    rw [if_pos hk]
    rcases NormalConstraint.slackColumn_eq_some_iff.mp hk with ⟨hrel, rfl⟩ | ⟨hrel, rfl⟩
    · rw [hrel]
      exact if_pos rfl
    · rw [hrel]
      exact if_pos rfl
  · have hother : x.slackColumn i ≠ some c := by
      intro h
      rcases NormalConstraint.slackColumn_eq_some_iff.mp hk with ⟨-, rfl⟩ | ⟨-, rfl⟩ <;>
        rcases NormalConstraint.slackColumn_eq_some_iff.mp h with ⟨-, h⟩ | ⟨-, h⟩ <;>
        simp_all
    rw [if_neg hother]
    rcases NormalConstraint.slackColumn_eq_some_iff.mp hk with ⟨-, rfl⟩ | ⟨-, rfl⟩
    · exact if_neg hki
    · exact if_neg hki

/-- What the slack and surplus columns add to the left-hand side of a row. -/
abbrev slackPart (cs : List (NormalConstraint ℚ)) (i : Nat) (w : List ℚ) : ℚ :=
  dot ((slackColumns cs).map (unitEntry i)) w

theorem holds_of_slackPart (hx : cs[i]? = some x) {w v : List ℚ} (hw : ∀ v ∈ w, 0 ≤ v)
    (h : dot x.coeffs v + slackPart cs i w = x.rhs) : x.Holds v := by
  cases hrel : x.relation with
  | atMost =>
      have hpart : 0 ≤ slackPart cs i w := by
        refine dot_nonneg (fun u hu => ?_) hw
        obtain ⟨c, hc, rfl⟩ := List.mem_map.mp hu
        rw [unitEntry_of_mem_slackColumns hx hc, hrel]
        split
        · exact zero_le_one
        · exact le_rfl
      exact (Constraint.holds_atMost hrel).mpr (by linarith)
  | atLeast =>
      have hpart : 0 ≤ -slackPart cs i w := by
        rw [← dot_map_neg]
        refine dot_nonneg (fun u hu => ?_) hw
        rw [List.map_map] at hu
        obtain ⟨c, hc, rfl⟩ := List.mem_map.mp hu
        show 0 ≤ -(unitEntry i c : ℚ)
        rw [unitEntry_of_mem_slackColumns hx hc, hrel]
        split
        · rw [slackSign, neg_neg]
          exact zero_le_one
        · exact neg_zero.ge
      exact (Constraint.holds_atLeast hrel).mpr (by linarith)
  | equal =>
      have hzero : (slackColumns cs).map (unitEntry i : Column → ℚ)
          = List.replicate (slackColumns cs).length 0 := by
        refine List.map_eq_replicate_iff.mpr fun c hc => ?_
        rw [unitEntry_of_mem_slackColumns hx hc, hrel]
        exact ite_self 0
      rw [slackPart, hzero, dot_replicate_zero_left, add_zero] at h
      exact (Constraint.holds_equal hrel).mpr h

/-- What the slack or surplus variable of a row has to be: the distance of its sides. -/
def distance (cs : List (NormalConstraint ℚ)) (v : List ℚ) : Column → ℚ
  | .slack i | .surplus i =>
      match cs[i]? with
      | some x => |x.rhs - dot x.coeffs v|
      | none => 0
  | _ => 0

theorem distance_slack (hx : cs[i]? = some x) (v : List ℚ) :
    distance cs v (.slack i) = |x.rhs - dot x.coeffs v| := by
  rw [distance, hx]

theorem distance_surplus (hx : cs[i]? = some x) (v : List ℚ) :
    distance cs v (.surplus i) = |x.rhs - dot x.coeffs v| := by
  rw [distance, hx]

theorem distance_nonneg (cs : List (NormalConstraint ℚ)) (v : List ℚ) (c : Column) :
    0 ≤ distance cs v c := by
  cases c with
  | decision _ => exact le_rfl
  | artificial _ => exact le_rfl
  | slack i =>
      rw [distance]
      cases cs[i]? with
      | none => exact le_rfl
      | some x => exact abs_nonneg _
  | surplus i =>
      rw [distance]
      cases cs[i]? with
      | none => exact le_rfl
      | some x => exact abs_nonneg _

/-- The distances of the sides make every constraint that holds an equation. -/
theorem slackPart_distance (hx : cs[i]? = some x) {v : List ℚ} (h : x.Holds v) :
    slackPart cs i ((slackColumns cs).map (distance cs v)) = x.rhs - dot x.coeffs v := by
  rw [slackPart, dot_map_map]
  cases hcol : x.slackColumn i with
  | none =>
      have hrel := NormalConstraint.slackColumn_eq_none_iff.mp hcol
      have hmet : dot x.coeffs v = x.rhs := (Constraint.holds_equal hrel).mp h
      rw [List.sum_eq_zero, hmet, sub_self]
      intro u hu
      obtain ⟨c, hc, rfl⟩ := List.mem_map.mp hu
      rw [unitEntry_of_mem_slackColumns hx hc, hcol, if_neg (nomatch ·), zero_mul]
  | some c =>
      have hmem : c ∈ slackColumns cs := mem_zipIdx_filterMap.mpr ⟨i, x, hx, hcol⟩
      rw [List.sum_map_eq_nsmul_single c, List.count_eq_one_of_mem nodup_slackColumns hmem,
        one_nsmul, unitEntry_of_mem_slackColumns hx hmem, if_pos hcol]
      · rcases NormalConstraint.slackColumn_eq_some_iff.mp hcol with ⟨hrel, rfl⟩ | ⟨hrel, rfl⟩
        · have hmet : dot x.coeffs v ≤ x.rhs := (Constraint.holds_atMost hrel).mp h
          rw [hrel, slackSign, one_mul, distance_slack hx, abs_of_nonneg (sub_nonneg.mpr hmet)]
        · have hmet : x.rhs ≤ dot x.coeffs v := (Constraint.holds_atLeast hrel).mp h
          rw [hrel, slackSign, neg_one_mul, distance_surplus hx,
            abs_of_nonpos (sub_nonpos.mpr hmet), neg_neg]
      · intro d hne hd
        rw [unitEntry_of_mem_slackColumns hx hd, hcol,
          if_neg fun h => hne (Option.some.inj h).symm, zero_mul]

end Slack

/-! ## The program and its layout -/

section Layout

variable {p : Program ℚ} {x w y : List ℚ}

theorem holds_extend_iff (h : p.objection = none) {i : Nat} {c : Constraint ℚ}
    (hc : p.constraints[i]? = some c) {r : BasicRow ℚ} (hr : (layout p).rows[i]? = some r)
    (hx : x.length = p.numVars) (hw : w.length = (slackColumns (normalized p)).length) :
    r.Holds ((layout p).extend (x ++ w)) ↔
      dot c.normalize.coeffs x + slackPart (normalized p) i w = c.normalize.rhs := by
  obtain ⟨-, -, hlen⟩ := of_objection_eq_none h
  obtain ⟨c', hc', rfl⟩ := layout_row hr
  cases hc.symm.trans hc'
  have hcoeffs : c.normalize.coeffs.length = x.length := by
    rw [length_coeffs_normalize, hlen c (List.mem_of_getElem? hc), hx]
  show dot (c.normalize.coeffs ++ (slackColumns _ ++ artificialPart _).map (unitEntry i))
    (x ++ w ++ List.replicate _ 0) = _ ↔ _
  rw [List.map_append, List.append_assoc, dot_append hcoeffs, dot_append (by simpa using hw.symm),
    dot_replicate_zero_right, add_zero]

/-- A point is feasible exactly where slack and surplus alone complete it to a solution of
the equations. -/
theorem isFeasible_iff (h : p.objection = none) :
    p.IsFeasible x ↔ x.length = p.numVars ∧ ∃ w : List ℚ,
      w.length = (slackColumns (normalized p)).length ∧ (∀ v ∈ x ++ w, 0 ≤ v) ∧
        (layout p).SolvedBy ((layout p).extend (x ++ w)) := by
  constructor
  · intro hx
    refine ⟨hx.length_eq, (slackColumns (normalized p)).map (distance (normalized p) x),
      List.length_map _, ?_, ?_⟩
    · intro v hv
      rcases List.mem_append.mp hv with hv | hv
      · exact hx.nonneg v hv
      · obtain ⟨c, -, rfl⟩ := List.mem_map.mp hv
        exact distance_nonneg _ _ c
    · intro r hr
      obtain ⟨i, hi⟩ := List.mem_iff_getElem?.mp hr
      obtain ⟨c, hc, -⟩ := layout_row hi
      have hold : c.normalize.Holds x :=
        (Constraint.holds_normalize c x).mpr (hx.holds c (List.mem_of_getElem? hc))
      rw [holds_extend_iff h hc hi hx.length_eq (List.length_map _),
        slackPart_distance (normalized_getElem? hc) hold, add_sub_cancel]
  · rintro ⟨hx, w, hw, hnonneg, hsolved⟩
    refine ⟨hx, fun v hv => hnonneg v (List.mem_append_left _ hv), fun c hc => ?_⟩
    obtain ⟨i, hi⟩ := List.mem_iff_getElem?.mp hc
    obtain ⟨r, hr⟩ := exists_layout_row hi
    have hrow := (holds_extend_iff h hi hr hx hw).mp (hsolved r (List.mem_of_getElem? hr))
    exact (Constraint.holds_normalize c x).mp (holds_of_slackPart (normalized_getElem? hi)
      (fun v hv => hnonneg v (List.mem_append_right _ hv)) hrow)

theorem dot_costs_layout (h : p.objection = none) (hx : x.length = p.numVars) (z : List ℚ) :
    dot (layout p).costs (x ++ z) = p.direction.signed (p.value x) := by
  obtain ⟨-, hlen, -⟩ := of_objection_eq_none h
  have hzeros : ((addedColumns (normalized p)).map fun _ => (0 : ℚ))
      = List.replicate (addedColumns (normalized p)).length 0 := List.map_const'
  show dot (decisionCosts p ++ (addedColumns (normalized p)).map fun _ => 0) (x ++ z) = _
  rw [decisionCosts]
  cases hd : p.direction with
  | maximize =>
      rw [dot_append (hlen.trans hx.symm), hzeros, dot_replicate_zero_left, add_zero]
      rfl
  | minimize =>
      have hneg : (p.objective.map (- ·)).length = x.length := by
        rw [List.length_map, hlen, hx]
      rw [dot_append hneg, hzeros, dot_replicate_zero_left, add_zero, dot_map_neg]
      rfl

theorem length_columns_layout (p : Program ℚ) :
    (layout p).columns.length = (realColumns p).length + (layout p).artificialColumns.length := by
  rw [columns_layout_eq, List.length_append, length_artificialColumns]

theorem length_extend (f : StandardForm ℚ) (y : List ℚ) :
    (f.extend y).length = y.length + f.artificialColumns.length := by
  simp [extend]

theorem nonneg_extend {f : StandardForm ℚ} (hy : ∀ v ∈ y, 0 ≤ v) : ∀ v ∈ f.extend y, 0 ≤ v := by
  intro v hv
  rcases List.mem_append.mp hv with hv | hv
  · exact hy v hv
  · exact (List.eq_of_mem_replicate hv).ge

theorem artificialSum_extend (hy : y.length = (realColumns p).length) :
    (layout p).artificialSum ((layout p).extend y) = 0 := by
  have hreal : phaseOneCosts (realColumns p) = List.replicate y.length (0 : ℚ) := by
    rw [hy]
    refine List.map_eq_replicate_iff.mpr fun c hc => ?_
    exact if_neg (not_isArtificial_of_mem_realColumns hc)
  have hsplit : phaseOneCosts (layout p).columns = List.replicate y.length (0 : ℚ)
      ++ phaseOneCosts (artificialPart (normalized p)) := by
    rw [← hreal, columns_layout_eq]
    exact List.map_append
  rw [← neg_eq_zero, ← dot_phaseOneCosts, hsplit, extend, dot_append List.length_replicate,
    dot_replicate_zero_left, dot_replicate_zero_right, add_zero]

end Layout

end StandardForm

end TwoPhase
