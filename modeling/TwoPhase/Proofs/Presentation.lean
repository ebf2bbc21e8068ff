/-
# `Presentation` — the texts of a program

A program may be put into a text in many ways: its members and those of a
constraint in any order and among others, as objects or as arrays of the
values alone, the direction of a maximum and the relation of an upper
bound left out, and any blanks between the tokens.  A text is read as a
program just if it is one of these.  A text in which a member of a record
comes twice, or is not there although it must be, is read as none.
-/
import Mathlib
import TwoPhase.Program.Read
import TwoPhase.Proofs.Grammar
import TwoPhase.Proofs.Members

namespace TwoPhase

open Json

/-- The names of the members of a constraint, in their order. -/
def Constraint.memberNames : List String := ["coeffs", "rhs", "inequality"]

/-- The names of the members of a program, in their order. -/
def Program.memberNames : List String := ["numVars", "objective", "constraints", "optimization"]

def Constraint.parts (c : Constraint Float) : List Part :=
  [⟨"coeffs", False, Doc.ShowsList Doc.ShowsFloat c.coeffs⟩,
   ⟨"rhs", False, Doc.ShowsFloat c.rhs⟩,
   ⟨"inequality", c.relation = .atMost, Doc.ShowsWord c.relation.letter⟩]

def Program.parts (p : Program Float) : List Part :=
  [⟨"numVars", False, Doc.ShowsCount p.numVars⟩,
   ⟨"objective", False, Doc.ShowsList Doc.ShowsFloat p.objective⟩,
   ⟨"constraints", False, Doc.ShowsList (fun c d => d.Shows c.parts) p.constraints⟩,
   ⟨"optimization", p.direction = .maximize, Doc.ShowsWord p.direction.word⟩]

theorem lookup_letters {s : String} {r : Relation} :
    Relation.letters.lookup s = some r ↔ s = r.letter := by
  cases r <;> simp [Relation.letters, Relation.letter, List.lookup] <;> grind

theorem lookup_words {s : String} {d : Direction} :
    Direction.words.lookup s = some d ↔ s = d.word := by
  cases d <;> simp [Direction.words, Direction.word, List.lookup] <;> grind

theorem word_letters {d : Doc} {r : Relation} :
    d.word Relation.letters = .ok r ↔ d.ShowsWord r.letter := by
  simp only [word_eq_ok_iff, lookup_letters, exists_eq_left]

theorem word_words {d : Doc} {r : Direction} :
    d.word Direction.words = .ok r ↔ d.ShowsWord r.word := by
  simp only [word_eq_ok_iff, lookup_words, exists_eq_left]

theorem list_floats {d : Doc} (hd : d.IsWhole) {xs : List Float} :
    d.list Doc.float = .ok xs ↔ d.ShowsList Doc.ShowsFloat xs :=
  list_eq_ok_iff (fun _ => float_eq_ok_iff) hd

/-! ## The readers of the members -/

theorem slot_coeffs : IsSlot ConstraintParts.fields[0] (·.coeffs)
    (fun x s => { s with coeffs := some x }) (Doc.list Doc.float) :=
  ⟨fun _ => rfl, fun _ _ => rfl, fun _ _ => rfl, by rintro _ ⟨⟩ ⟨⟩; rfl⟩

theorem slot_rhs : IsSlot ConstraintParts.fields[1] (·.rhs)
    (fun x s => { s with rhs := some x }) Doc.float :=
  ⟨fun _ => rfl, fun _ _ => rfl, fun _ _ => rfl, by rintro _ ⟨⟩ ⟨⟩; rfl⟩

theorem slot_relation : IsSlot ConstraintParts.fields[2] (·.relation)
    (fun x s => { s with relation := some x }) (Doc.word Relation.letters) :=
  ⟨fun _ => rfl, fun _ _ => rfl, fun _ _ => rfl, by rintro _ ⟨⟩ ⟨⟩; rfl⟩

theorem slot_numVars : IsSlot ProgramParts.fields[0] (·.numVars)
    (fun x s => { s with numVars := some x }) Doc.count :=
  ⟨fun _ => rfl, fun _ _ => rfl, fun _ _ => rfl, by rintro _ ⟨⟩ ⟨⟩; rfl⟩

theorem slot_objective : IsSlot ProgramParts.fields[1] (·.objective)
    (fun x s => { s with objective := some x }) (Doc.list Doc.float) :=
  ⟨fun _ => rfl, fun _ _ => rfl, fun _ _ => rfl, by rintro _ ⟨⟩ ⟨⟩; rfl⟩

theorem slot_constraints : IsSlot ProgramParts.fields[2] (·.constraints)
    (fun x s => { s with constraints := some x }) (Doc.list Constraint.ofDoc) :=
  ⟨fun _ => rfl, fun _ _ => rfl, fun _ _ => rfl, by rintro _ ⟨⟩ ⟨⟩; rfl⟩

theorem slot_direction : IsSlot ProgramParts.fields[3] (·.direction)
    (fun x s => { s with direction := some x }) (Doc.word Direction.words) :=
  ⟨fun _ => rfl, fun _ _ => rfl, fun _ _ => rfl, by rintro _ ⟨⟩ ⟨⟩; rfl⟩

theorem needed_eq_ok_iff {β : Type} {name : String} {v : Option β} {x : β} :
    needed name v = .ok x ↔ v = some x := by
  cases v <;> simp [needed]

/-! ## Constraints -/

def Constraint.members (c : Constraint Float) : List (Member ConstraintParts) :=
  [.required slot_coeffs rfl (fun _ _ => isWhole_of_list isWhole_of_float) c.coeffs
     (Doc.ShowsList Doc.ShowsFloat c.coeffs) fun _ hv => list_floats hv,
   .required slot_rhs rfl (fun _ _ => isWhole_of_float) c.rhs
     (Doc.ShowsFloat c.rhs) fun _ _ => float_eq_ok_iff,
   .omissibleAs .atMost slot_relation rfl (fun _ _ => isWhole_of_word) c.relation
     (Doc.ShowsWord c.relation.letter) fun _ _ => word_letters]

theorem areApart_constraint (c : Constraint Float) : AreApart c.members ⟨none, none, none⟩ where
  nodup := by
    show Constraint.memberNames.Nodup
    decide
  spares := by simp [Constraint.members, Member.required, Member.omissibleAs]
  unset := by simp [Constraint.members, Member.required, Member.omissibleAs]

theorem isIn_members_constraint {c : Constraint Float} {s : ConstraintParts} :
    (∀ m ∈ c.members, m.IsIn s) ↔ s.coeffs = some c.coeffs ∧ s.rhs = some c.rhs ∧
      s.relation.getD .atMost = c.relation := by
  rw [Constraint.members, List.forall_mem_cons, List.forall_mem_cons, List.forall_mem_singleton]
  exact and_congr Member.isIn_required (and_congr Member.isIn_required Member.isIn_omissibleAs)

theorem ofDoc_constraint_eq_ok_iff {d : Doc} {c : Constraint Float} :
    Constraint.ofDoc d = .ok c ↔
      ∃ s, d.record "Constraint" (c.members.map (·.reader)) ⟨none, none, none⟩ = .ok s ∧
        ∀ m ∈ c.members, m.IsIn s := by
  have hfields : c.members.map (·.reader) = ConstraintParts.fields := rfl
  simp only [Constraint.ofDoc, bind_eq_ok_iff, needed_eq_ok_iff, hfields]
  refine exists_congr fun s => and_congr_right fun _ => ?_
  rw [isIn_members_constraint]
  constructor
  · rintro ⟨coeffs, hcoeffs, rhs, hrhs, heq⟩
    cases heq
    exact ⟨hcoeffs, hrhs, rfl⟩
  · rintro ⟨hcoeffs, hrhs, hrelation⟩
    refine ⟨_, hcoeffs, _, hrhs, ?_⟩
    rw [hrelation]
    rfl

theorem ofDoc_constraint {d : Doc} (hd : d.IsWhole) {c : Constraint Float} :
    Constraint.ofDoc d = .ok c ↔ d.Shows c.parts :=
  ofDoc_constraint_eq_ok_iff.trans (Doc.record_iff (areApart_constraint c) _ hd)

theorem isWhole_of_ofDoc_constraint {d : Doc} {c : Constraint Float}
    (h : Constraint.ofDoc d = .ok c) : d.IsWhole := by
  obtain ⟨s, hs, -⟩ := ofDoc_constraint_eq_ok_iff.mp h
  exact Doc.isWhole_of_members hs

/-! ## Programs -/

def Program.members (p : Program Float) : List (Member ProgramParts) :=
  [.required slot_numVars rfl (fun _ _ => isWhole_of_count) p.numVars
     (Doc.ShowsCount p.numVars) fun _ _ => count_eq_ok_iff,
   .required slot_objective rfl (fun _ _ => isWhole_of_list isWhole_of_float) p.objective
     (Doc.ShowsList Doc.ShowsFloat p.objective) fun _ hv => list_floats hv,
   .required slot_constraints rfl (fun _ _ => isWhole_of_list isWhole_of_ofDoc_constraint)
     p.constraints (Doc.ShowsList (fun c d => d.Shows c.parts) p.constraints)
     fun _ hv => list_eq_ok_iff (fun hc => ofDoc_constraint hc) hv,
   .omissibleAs .maximize slot_direction rfl (fun _ _ => isWhole_of_word) p.direction
     (Doc.ShowsWord p.direction.word) fun _ _ => word_words]

theorem areApart_program (p : Program Float) : AreApart p.members ⟨none, none, none, none⟩ where
  nodup := by
    show Program.memberNames.Nodup
    decide
  spares := by simp [Program.members, Member.required, Member.omissibleAs]
  unset := by simp [Program.members, Member.required, Member.omissibleAs]

theorem isIn_members_program {p : Program Float} {s : ProgramParts} :
    (∀ m ∈ p.members, m.IsIn s) ↔ s.numVars = some p.numVars ∧ s.objective = some p.objective ∧
      s.constraints = some p.constraints ∧ s.direction.getD .maximize = p.direction := by
  rw [Program.members, List.forall_mem_cons, List.forall_mem_cons, List.forall_mem_cons,
    List.forall_mem_singleton]
  exact and_congr Member.isIn_required <| and_congr Member.isIn_required <|
    and_congr Member.isIn_required Member.isIn_omissibleAs

theorem ofDoc_program_eq_ok_iff {d : Doc} {p : Program Float} :
    Program.ofDoc d = .ok p ↔
      ∃ s, d.record "LinearProgram" (p.members.map (·.reader)) ⟨none, none, none, none⟩ = .ok s ∧
        ∀ m ∈ p.members, m.IsIn s := by
  have hfields : p.members.map (·.reader) = ProgramParts.fields := rfl
  simp only [Program.ofDoc, bind_eq_ok_iff, needed_eq_ok_iff, hfields]
  refine exists_congr fun s => and_congr_right fun _ => ?_
  rw [isIn_members_program]
  constructor
  · rintro ⟨numVars, hvars, objective, hobjective, constraints, hconstraints, heq⟩
    cases heq
    exact ⟨hvars, hobjective, hconstraints, rfl⟩
  · rintro ⟨hvars, hobjective, hconstraints, hdirection⟩
    refine ⟨_, hvars, _, hobjective, _, hconstraints, ?_⟩
    rw [hdirection]
    rfl

/-- A program is read just from the records that show it. -/
theorem ofDoc_program {d : Doc} (hd : d.IsWhole) {p : Program Float} :
    Program.ofDoc d = .ok p ↔ d.Shows p.parts :=
  ofDoc_program_eq_ok_iff.trans (Doc.record_iff (areApart_program p) _ hd)

theorem isWhole_of_ofDoc_program {d : Doc} {p : Program Float}
    (h : Program.ofDoc d = .ok p) : d.IsWhole := by
  obtain ⟨s, hs, -⟩ := ofDoc_program_eq_ok_iff.mp h
  exact Doc.isWhole_of_members hs

/-! ## Texts -/

/-- A constraint with a member twice, or without one that it needs. -/
def Constraint.IsAmiss (d : Doc) : Prop :=
  d.Repeats memberNames ∨ d.Lacks memberNames ["coeffs", "rhs"]

/-- A program with a member twice, or without one that it needs, or with such a constraint. -/
def Program.IsAmiss (d : Doc) : Prop :=
  d.Repeats memberNames ∨ d.Lacks memberNames ["numVars", "objective", "constraints"] ∨
    ∃ items, .array items ∈ d.valuesOf memberNames "constraints" ∧
      ∃ c ∈ items.toList, Constraint.IsAmiss c

theorem not_isAmiss_constraint {d : Doc} {c : Constraint Float} (h : d.Shows c.parts) :
    ¬ Constraint.IsAmiss d := by
  rintro (hrepeats | hlacks)
  · exact h.not_repeats hrepeats
  · refine h.not_lacks (fun name hname => ?_) hlacks
    simp only [List.mem_cons, List.not_mem_nil, or_false] at hname
    rcases hname with rfl | rfl <;> simp [Constraint.parts]

theorem not_isAmiss_program {d : Doc} {p : Program Float} (h : d.Shows p.parts) :
    ¬ Program.IsAmiss d := by
  rintro (hrepeats | hlacks | ⟨items, hitems, e, he, hamiss⟩)
  · exact h.not_repeats hrepeats
  · refine h.not_lacks (fun name hname => ?_) hlacks
    simp only [List.mem_cons, List.not_mem_nil, or_false] at hname
    rcases hname with rfl | rfl | rfl <;> simp [Program.parts]
  · have hvalue := h.value
      ⟨"constraints", False, Doc.ShowsList (fun c d => d.Shows c.parts) p.constraints⟩
      (by simp [Program.parts])
    obtain ⟨v, hv, items', rfl, hall⟩ | ⟨hfalse, -⟩ := hvalue
    · have hmem : Doc.array items ∈ [Doc.array items'] := hv ▸ hitems
      cases List.mem_singleton.mp hmem
      have hnone : List.Forall₂ (fun d (c : Constraint Float) => ¬ Constraint.IsAmiss d ∧
          d.Shows c.parts) items.toList p.constraints :=
        (List.Forall₂.flip hall).imp fun _ _ hc => ⟨not_isAmiss_constraint hc, hc⟩
      exact ((List.forall₂_and_left _ _).mp hnone).1 e he hamiss
    · exact hfalse

/-- A text is read as a program just if the document in it shows that program: member by member in
any order and among others, or as an array, with the members that may be left out there or not.  No
program is read from a text in which a member comes twice or one is missing. -/
theorem Program.ofText_presentation (text : String) :
    (∀ p, Program.ofText text = .ok p ↔ ∃ d : Doc, d.IsHeldBy text ∧ d.Shows p.parts) ∧
      ∀ d : Doc, d.IsHeldBy text → Program.IsAmiss d → ∀ p, Program.ofText text ≠ .ok p := by
  constructor
  · intro p
    rw [Program.ofText, readText_eq_ok_iff isWhole_of_ofDoc_program]
    exact exists_congr fun d => and_congr_right fun hd => ofDoc_program hd.1
  · intro d hd hamiss p h
    rw [Program.ofText, readText_eq _ hd.1 (isHeldBy_iff.mp hd).2, ofDoc_program hd.1] at h
    exact not_isAmiss_program h hamiss

/-- Members out of their order and one too many, a constraint as an array, and the maximum and the
upper bound not mentioned; then a text with two objectives. -/
theorem Program.ofText_presentation_mixed :
    Program.ofText
        "\x7b\"a\":0,\"constraints\":[[[2],3]],\n\"objective\":[1],\"numVars\":1\x7d" =
        .ok ⟨1, [1], [⟨[2], .atMost, 3⟩], .maximize⟩ ∧
      ∀ p, Program.ofText "\x7b\"objective\":[],\"objective\":[]\x7d" ≠ .ok p := by
  let digit (n : Nat) : Doc := .atom (.number ⟨false, [n], none, none⟩)
  let one (d : Doc) : Doc := .array (.item d .closed)
  let bound : Doc := .array (.item (one (digit 2)) (.item (digit 3) .closed))
  let mixed : Doc := .object <| .member (quotedText "a") (digit 0) <|
    .member (quotedText "constraints") (one bound) <|
    .member (quotedText "objective") (one (digit 1)) <|
    .member (quotedText "numVars") (digit 1) .closed
  let repeating : Doc := .object <| .member (quotedText "objective") (.array .closed) <|
    .member (quotedText "objective") (.array .closed) .closed
  have hmixed : mixed.IsHeldBy
      "\x7b\"a\":0,\"constraints\":[[[2],3]],\n\"objective\":[1],\"numVars\":1\x7d" := by
    refine isHeldBy_iff.mpr ⟨?_, rfl⟩
    simp [mixed, bound, one, digit, quotedText, Doc.IsWhole, Members.IsWhole, Items.IsWhole,
      Atom.IsWhole]
  have hrepeating : repeating.IsHeldBy "\x7b\"objective\":[],\"objective\":[]\x7d" := by
    refine isHeldBy_iff.mpr ⟨?_, rfl⟩
    simp [repeating, quotedText, Doc.IsWhole, Members.IsWhole, Items.IsWhole]
  constructor
  · refine ((ofText_presentation _).1 _).mpr ⟨_, hmixed, ?_⟩
    exact (ofDoc_program hmixed.1).mp rfl
  · refine (ofText_presentation _).2 _ hrepeating (.inl ⟨"objective", by decide, ?_⟩)
    exact Nat.le_refl 2

end TwoPhase
