/-
# `Signs` — what a solve makes of signs turned round

A constraint and its negation ask for the same, and making an objective
small is making its negation large.  Where negation is exact, a solve takes
no notice of either: a constraint with a right-hand side that is not zero
has one normal form with its negation, and the costs of both objectives
are the same numbers.  The standard forms agree, so the solves go through
one run, and only the value reported at its end knows the direction.

Nothing but negation is asked to obey laws, and the doubles do: their
negation turns one bit.
-/
import Mathlib
import TwoPhase.Decimal.Notation
import TwoPhase.Proofs.Double
import TwoPhase.Proofs.Unlogged

namespace TwoPhase

/-- Negation undoes itself, keeps what is finite and what is zero, leads from one side of zero
to the other, and is what multiplying by minus one comes to. -/
class ExactNegation (α : Type) [Scalar α] : Prop where
  neg_neg : ∀ a : α, - -a = a
  isFinite_neg : ∀ a : α, Scalar.isFinite (-a) = Scalar.isFinite a
  neg_beq_zero : ∀ a : α, (-a == 0) = (a == 0)
  neg_lt_zero_iff : ∀ a : α, Scalar.isFinite a = true → (a == 0) = false → (-a < 0 ↔ ¬ a < 0)
  mul_neg_one : ∀ a : α, a * (-1) = -a

instance : ExactNegation ℚ where
  neg_neg := neg_neg
  isFinite_neg _ := rfl
  neg_beq_zero a := by
    show decide (-a = 0) = decide (a = 0)
    simp only [neg_eq_zero]
  neg_lt_zero_iff a _ h := by
    have hne : a ≠ 0 := of_decide_eq_false h
    show -a < 0 ↔ ¬ a < 0
    rw [neg_lt_zero, not_lt, le_iff_lt_or_eq, or_iff_left hne.symm]
  mul_neg_one := mul_neg_one

instance : ExactNegation Float where
  neg_neg := neg_neg_double
  isFinite_neg a := by
    rcases double_cases a with rfl | ⟨s, e, m, h, rfl⟩
    · exact congrArg Float.isFinite neg_notANumber
    · show (-double s e m h).isFinite = (double s e m h).isFinite
      rw [neg_double, isFinite_double, isFinite_double]
  neg_beq_zero a := by
    rcases double_cases a with rfl | ⟨s, e, m, h, rfl⟩
    · exact congrArg (· == 0) neg_notANumber
    · show (-double s e m h == 0) = (double s e m h == 0)
      rw [neg_double, double_beq_zero, double_beq_zero]
  neg_lt_zero_iff a hfinite hne := by
    rcases double_cases a with rfl | ⟨s, e, m, h, rfl⟩
    · exact absurd hfinite (by decide +kernel)
    · have hzero : ¬ (e = 0#11 ∧ m = 0#52) := of_decide_eq_false (double_beq_zero.symm.trans hne)
      show -double s e m h < 0 ↔ ¬ double s e m h < 0
      rw [neg_double, double_lt_zero_iff, double_lt_zero_iff, and_iff_left hzero,
        and_iff_left hzero]
      exact neg_sign_eq_negative_iff s
  mul_neg_one := mul_neg_one_eq_neg

/-! ## Constraints and their negations -/

theorem Relation.flip_flip (r : Relation) : r.flip.flip = r := by cases r <;> rfl

namespace Constraint

variable {α : Type} [Scalar α]

/-- The second constraint is the first, or its negation where that has a right-hand side that
is not zero. -/
def IsMirrored (c c' : Constraint α) : Prop := c' = c ∨ (c.rhs == 0) = false ∧ c' = c.negate

variable [ExactNegation α]

theorem negate_negate (c : Constraint α) : c.negate.negate = c := by
  have hneg : ((- ·) ∘ (- ·) : α → α) = id := funext ExactNegation.neg_neg
  rw [negate, negate, Relation.flip_flip, ExactNegation.neg_neg, List.map_map, hneg, List.map_id]

theorem normalize_negate {c : Constraint α} (hfinite : Scalar.isFinite c.rhs = true)
    (hne : (c.rhs == 0) = false) :
    c.negate.normalize = { c.normalize with negated := !c.normalize.negated } := by
  have hside := ExactNegation.neg_lt_zero_iff c.rhs hfinite hne
  by_cases h : c.rhs < 0
  · have hother : ¬ c.negate.rhs < 0 := fun hlt => hside.mp hlt h
    rw [normalize, if_neg hother, normalize, if_pos h]
    rfl
  · have hother : c.negate.rhs < 0 := hside.mpr h
    rw [normalize, if_pos hother, negate_negate, normalize, if_neg h]
    rfl

end Constraint

namespace NormalConstraint

variable {α : Type}

/-- The constraint without the note whether it was negated. -/
def unnoted (c : NormalConstraint α) : NormalConstraint α := { c with negated := false }

end NormalConstraint

namespace StandardForm

variable {α : Type}

theorem addedColumns_unnoted (cs : List (NormalConstraint α)) :
    addedColumns (cs.map (·.unnoted)) = addedColumns cs := by
  simp only [addedColumns, List.zipIdx_map, List.filterMap_map]
  rfl

variable [Scalar α]

/-- Nothing in a standard form but the direction of the objective tells programs apart that
have the same costs and the same constraints in normal form. -/
theorem layout_eq_of_unnoted {p p' : Program α} (hvars : p'.numVars = p.numVars)
    (hcosts : decisionCosts p' = decisionCosts p)
    (hrows : (normalized p').map (·.unnoted) = (normalized p).map (·.unnoted)) :
    layout p' = { layout p with negatedObjective := (layout p').negatedObjective } := by
  have hadded : addedColumns (normalized p') = addedColumns (normalized p) := by
    rw [← addedColumns_unnoted, hrows, addedColumns_unnoted]
  have hall : allColumns p'.numVars (normalized p') = allColumns p.numVars (normalized p) := by
    rw [allColumns, hvars, hadded]
  have hzip : ∀ g : NormalConstraint α × Nat → BasicRow α, (∀ c i, g (c.unnoted, i) = g (c, i)) →
      (normalized p').zipIdx.map g = (normalized p).zipIdx.map g := by
    intro g hg
    have hskip : ∀ cs : List (NormalConstraint α),
        cs.zipIdx.map g = (cs.map (·.unnoted)).zipIdx.map g := by
      intro cs
      rw [List.zipIdx_map, List.map_map]
      exact List.map_congr_left fun x _ => (hg x.1 x.2).symm
    rw [hskip, hrows, ← hskip]
  rw [layout, layout, hall, hadded, hcosts]
  congr 1
  exact hzip _ fun c i => rfl

end StandardForm

/-! ## Constraints turned round -/

section Mirrored

open StandardForm

variable {α : Type} [Scalar α]

theorem isFinite_rhs_of_objection {p : Program α} (h : p.objection = none) :
    ∀ c ∈ p.constraints, Scalar.isFinite c.rhs = true := by
  intro c hc
  rw [Program.objection] at h
  split_ifs at h with h1 h2 h3 h4
  obtain ⟨i, hi⟩ := List.mem_iff_getElem?.mp hc
  have hnone : Program.objectionTo p.numVars c i = none :=
    List.findSome?_eq_none_iff.mp h (c, i) (List.mem_zipIdx_iff_getElem?.mpr hi)
  rw [Program.objectionTo] at hnone
  split_ifs at hnone with h5 h6
  rw [Bool.or_eq_true, not_or] at h6
  simpa using h6.1

variable [ExactNegation α] {cs cs' : List (Constraint α)}

theorem objectionTo_negate (n : Nat) (c : Constraint α) (i : Nat) :
    Program.objectionTo n c.negate i = Program.objectionTo n c i := by
  simp [Program.objectionTo, Constraint.negate, ExactNegation.isFinite_neg, List.any_map,
    Function.comp_def]

theorem findSome?_objectionTo_mirrored (h : List.Forall₂ Constraint.IsMirrored cs cs') (n : Nat) :
    ∀ k, (cs'.zipIdx k).findSome? (fun x => Program.objectionTo n x.1 x.2)
      = (cs.zipIdx k).findSome? fun x => Program.objectionTo n x.1 x.2 := by
  induction h with
  | nil => exact fun k => rfl
  | @cons c c' _ _ hc _ ih =>
      intro k
      have hsame : Program.objectionTo n c' k = Program.objectionTo n c k := by
        rcases hc with rfl | ⟨-, rfl⟩
        · rfl
        · exact objectionTo_negate n c k
      rw [List.zipIdx_cons, List.zipIdx_cons, List.findSome?_cons, List.findSome?_cons, hsame, ih]

theorem map_unnoted_mirrored (h : List.Forall₂ Constraint.IsMirrored cs cs')
    (hfinite : ∀ c ∈ cs, Scalar.isFinite c.rhs = true) :
    (cs'.map (·.normalize)).map (·.unnoted) = (cs.map (·.normalize)).map (·.unnoted) := by
  induction h with
  | nil => rfl
  | @cons c c' _ _ hc _ ih =>
      have hsame : c'.normalize.unnoted = c.normalize.unnoted := by
        rcases hc with rfl | ⟨hne, rfl⟩
        · rfl
        · rw [Constraint.normalize_negate (hfinite c List.mem_cons_self) hne]
          rfl
      simp only [List.map_cons, hsame, List.cons.injEq, true_and]
      exact ih fun d hd => hfinite d (List.mem_cons_of_mem _ hd)

variable {p : Program α} {constraints : List (Constraint α)}

theorem objection_mirrored (h : List.Forall₂ Constraint.IsMirrored p.constraints constraints) :
    ({ p with constraints } : Program α).objection = p.objection := by
  have hempty : constraints.isEmpty = p.constraints.isEmpty := by
    rw [Bool.eq_iff_iff, List.isEmpty_iff_length_eq_zero, List.isEmpty_iff_length_eq_zero,
      h.length_eq]
  have hfirst := findSome?_objectionTo_mirrored h p.numVars 0
  simp only [Program.objection, hempty]
  split_ifs
  · rfl
  · rfl
  · rfl
  · rfl
  · exact hfirst

theorem layout_mirrored (h : List.Forall₂ Constraint.IsMirrored p.constraints constraints)
    (hobjection : p.objection = none) : layout { p with constraints } = layout p :=
  layout_eq_of_unnoted rfl rfl (map_unnoted_mirrored h (isFinite_rhs_of_objection hobjection))

theorem ofProgram_mirrored (h : List.Forall₂ Constraint.IsMirrored p.constraints constraints) :
    ofProgram { p with constraints } = ofProgram p := by
  rw [ofProgram_eq, ofProgram_eq, objection_mirrored h]
  cases hobjection : p.objection with
  | some o => rfl
  | none => exact congrArg _ (layout_mirrored h hobjection)

/-- Constraints turned round leave the report as it is. -/
theorem solve_mirrored (settings : Settings α)
    (h : List.Forall₂ Constraint.IsMirrored p.constraints constraints) :
    solve settings { p with constraints } = solve settings p := by
  rcases solve_alike settings (objection_mirrored h)
      (fun hobjection => (layout_mirrored h hobjection).trans rfl) with
    ⟨o, hsolve, hsolve'⟩ | ⟨run, stop, hsolve, hsolve'⟩
  · rw [hsolve, hsolve']
  · rw [hsolve, hsolve']
    rfl

end Mirrored

/-! ## Small and large objectives -/

section Opposite

open StandardForm

variable {α : Type} [Scalar α]

/-- The values are one another's negation, and zero is the same zero in both. -/
def IsOppositeValue (v w : α) : Prop := (v = 0 ∧ w = 0) ∨ (w == 0) = false ∧ v = -w

/-- The reports differ in nothing but the sign of the value. -/
structure Report.IsOpposite [Numeral α] (r r' : Report (Tableau α) α) : Prop where
  status_eq : r.status = r'.status
  solution_eq : r.solution? = r'.solution?
  steps_eq : r.steps = r'.steps
  final_eq : r.final = r'.final
  message_eq : r.message? = r'.message?
  pivots_eq : r.pivots = r'.pivots
  error_eq : r.error? = r'.error?
  value : Option.Rel IsOppositeValue r.optimalValue? r'.optimalValue?

variable [ExactNegation α]

theorem isOppositeValue_reportedValue (z : α) :
    IsOppositeValue (reportedValue true z) (reportedValue false z) := by
  have hvalue : reportedValue true z = if z == 0 then 0 else -z := by
    rw [reportedValue, if_pos rfl, ExactNegation.mul_neg_one, ExactNegation.neg_beq_zero]
  have hvalue' : reportedValue false z = if z == 0 then 0 else z := rfl
  rw [hvalue, hvalue', IsOppositeValue]
  cases hz : z == 0 with
  | true => exact .inl ⟨rfl, rfl⟩
  | false => exact .inr ⟨hz, rfl⟩

abbrev Program.smallest (p : Program α) : Program α := { p with direction := .minimize }

/-- The program with the negation of its objective made large. -/
abbrev Program.largestNegated (p : Program α) : Program α :=
  { p with objective := p.objective.map (- ·), direction := .maximize }

theorem objection_largestNegated (p : Program α) :
    p.largestNegated.objection = p.smallest.objection := by
  simp [Program.objection, List.any_map, Function.comp_def, ExactNegation.isFinite_neg]

/-- Making an objective small and making its negation large is the same work. -/
theorem solve_opposite [Numeral α] (settings : Settings α) (p : Program α) :
    ∃ r r', solve settings p.smallest = .ok r ∧ solve settings p.largestNegated = .ok r' ∧
      r.IsOpposite r' := by
  have hlayout : layout p.largestNegated = { layout p.smallest with
      negatedObjective := (layout p.largestNegated).negatedObjective } :=
    layout_eq_of_unnoted rfl rfl rfl
  rcases solve_alike settings (objection_largestNegated p) (fun _ => hlayout) with
    ⟨o, hsolve, hsolve'⟩ | ⟨run, stop, hsolve, hsolve'⟩
  · exact ⟨_, _, hsolve, hsolve', rfl, rfl, rfl, rfl, rfl, rfl, rfl, .none⟩
  · refine ⟨_, _, hsolve, hsolve', ?_⟩
    cases stop with
    | some e => exact ⟨rfl, rfl, rfl, rfl, rfl, rfl, rfl, .none⟩
    | none =>
        exact ⟨rfl, rfl, rfl, rfl, rfl, rfl, rfl,
          .some (isOppositeValue_reportedValue run.tableau.objectiveValue)⟩

end Opposite

section SignSymmetric

open StandardForm

/-- Bit for bit, and whatever the doubles of a program are, negating constraints whose
right-hand side is not zero changes neither the standard form nor the report, and making an
objective small is reported as making its negation large is, but for the sign of the value. -/
theorem solve_sign_symmetric (settings : Settings Float) (p : Program Float) :
    (∀ constraints, List.Forall₂ Constraint.IsMirrored p.constraints constraints →
      ofProgram { p with constraints } = ofProgram p ∧
        solve settings { p with constraints } = solve settings p) ∧
      ∃ r r', solve settings { p with direction := .minimize } = .ok r ∧
        solve settings { p with objective := p.objective.map (- ·), direction := .maximize }
          = .ok r' ∧
        r.IsOpposite r' :=
  ⟨fun _ h => ⟨ofProgram_mirrored h, solve_mirrored settings h⟩, solve_opposite settings p⟩

/-- The second of two constraints is turned round. -/
theorem solve_sign_symmetric_turned :
    let p : Program Float := ⟨2, [1, 2], [⟨[1, 1], .atMost, 4⟩, ⟨[2, 1], .atMost, 6⟩], .maximize⟩
    let turned := [⟨[1, 1], .atMost, 4⟩, ⟨[-2, -1], .atLeast, -6⟩]
    List.Forall₂ Constraint.IsMirrored p.constraints turned ∧
      ofProgram { p with constraints := turned } = ofProgram p ∧
      solve .standard { p with constraints := turned } = solve .standard p := by
  intro p turned
  have hturned : List.Forall₂ Constraint.IsMirrored p.constraints turned :=
    .cons (.inl rfl) (.cons (.inr ⟨by decide +kernel, rfl⟩) .nil)
  exact ⟨hturned, (solve_sign_symmetric .standard p).1 turned hturned⟩

end SignSymmetric

end TwoPhase
