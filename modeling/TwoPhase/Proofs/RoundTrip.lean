/-
# `RoundTrip` — a program that is written is read again

Every member that is written has the name it is read under, and every word
and letter stands for what it was written for.  So a program comes back
from its text as it was, bit for bit, as long as each of its doubles does.

A double that is not finite is written `null`.  The reader meets the first
of them where it wants a number and stops there: such a text is never read
as another program.
-/
import Mathlib
import TwoPhase.Program.Read
import TwoPhase.Proofs.Compact
import TwoPhase.Proofs.Double

namespace TwoPhase

open Json

/-! ## Doubles -/

theorem documentText?_infinite (s : Float.Model.UnpackedFloat.Sign) :
    documentText? (double s (-1#11) 0#52 fun _ => rfl) = none := by
  cases s <;> decide +kernel

theorem documentText?_eq_none {x : Float} (hx : x.isFinite = false) : documentText? x = none := by
  rcases double_cases x with rfl | ⟨s, e, m, h, rfl⟩
  · decide +kernel
  · rw [isFinite_double, decide_eq_false_iff_not, not_not] at hx
    subst hx
    obtain rfl : m = 0#52 := h rfl
    exact documentText?_infinite s

/-- A finite double comes back from its text. -/
def ReadsBack (x : Float) : Prop := readText Doc.float (realText x) = .ok x

theorem tokens_realText_of_not_finite {x : Float} (hx : x.isFinite = false) :
    tokens (realText x).toList = [.atom .null] := by
  rw [realText, documentText?_eq_none hx]
  rfl

theorem isLegible_of {x : Float} (h : x.isFinite = true → ReadsBack x) : IsLegible x := by
  cases hx : x.isFinite with
  | false => exact ⟨.null, trivial, tokens_realText_of_not_finite hx⟩
  | true =>
      obtain ⟨n, htokens, -⟩ := tokens_of_readText_float (h hx)
      exact ⟨.number n, trivial, htokens⟩

/-! ## What becomes of the doubles in a reading -/

/-- A reading of something written: it gives `v` where all the doubles in it are finite,
and otherwise stops at a null that stands for a number. -/
def Restores {β : Type} (r : Except Refusal β) (v : β) (xs : List Float) : Prop :=
  ((∀ x ∈ xs, x.isFinite = true) → r = .ok v) ∧
    ((∃ x ∈ xs, x.isFinite = false) → r = .error (.unsuitable (.invalidType .null .number)))

section Restores

variable {β γ : Type} {r : Except Refusal β} {v : β} {xs ys : List Float}

theorem restores_ok (v : β) : Restores (.ok v) v [] := ⟨fun _ => rfl, nofun⟩

theorem Restores.bind {f : β → Except Refusal γ} {w : γ} (h : Restores r v xs)
    (hf : Restores (f v) w ys) : Restores (r >>= f) w (xs ++ ys) := by
  constructor
  · intro hfinite
    rw [List.forall_mem_append] at hfinite
    rw [h.1 hfinite.1]
    exact hf.1 hfinite.2
  · rintro ⟨x, hmem, hx⟩
    by_cases hxs : ∃ y ∈ xs, y.isFinite = false
    · rw [h.2 hxs]
      rfl
    · have hfinite : ∀ y ∈ xs, y.isFinite = true := by
        intro y hy
        by_contra hne
        exact hxs ⟨y, hy, Bool.not_eq_true _ ▸ hne⟩
      have hys : x ∈ ys := (List.mem_append.mp hmem).resolve_left fun hmem => hxs ⟨x, hmem, hx⟩
      rw [h.1 hfinite]
      exact hf.2 ⟨x, hys, hx⟩

theorem Restores.map (h : Restores r v xs) (g : β → γ) :
    Restores (r >>= fun b => pure (g b)) (g v) xs := by
  have hmap := h.bind (f := fun b => .ok (g b)) (restores_ok (g v))
  rw [List.append_nil] at hmap
  exact hmap

theorem restores_readAll {read : Doc → Except Refusal β} {written : β → Value}
    {reals : β → List Float} {l : List β}
    (h : ∀ b ∈ l, Restores (read (written b).doc) b (reals b)) :
    Restores ((Value.itemDocs (l.map written)).readAll read) l (l.flatMap reals) := by
  induction l with
  | nil => exact restores_ok []
  | cons b l ih =>
      rw [List.forall_mem_cons] at h
      exact h.1.bind ((ih h.2).map (b :: ·))

end Restores

theorem restores_real {x : Float} (h : x.isFinite = true → ReadsBack x) :
    Restores (Value.real x).doc.float x [x] := by
  constructor
  · intro hx
    obtain ⟨n, htokens, hread⟩ := tokens_of_readText_float (h (hx x List.mem_cons_self))
    rw [Value.doc_real (a := .number n) trivial htokens]
    exact hread
  · rintro ⟨y, hy, hx⟩
    cases List.mem_singleton.mp hy
    rw [Value.doc_real (a := .null) trivial (tokens_realText_of_not_finite hx)]
    rfl

theorem restores_numbers {xs : List Float} (h : ∀ x ∈ xs, x.isFinite = true → ReadsBack x) :
    Restores ((numbers xs).doc.list Doc.float) xs xs := by
  have hall : Restores ((Value.itemDocs (xs.map .real)).readAll Doc.float) xs
      (xs.flatMap fun x => [x]) := restores_readAll fun x hx => restores_real (h x hx)
  rw [List.flatMap_singleton'] at hall
  exact hall

/-! ## Members -/

section Member

variable {σ : Type} {fields : List (FieldReader σ)}

theorem readFields_member (field : FieldReader σ) (v : Value) (rest : List (String × Value))
    {s : σ} (hfind : fields.find? (·.name == field.name) = some field)
    (hset : field.isSet s = false) :
    (Value.memberDocs ((field.name, v) :: rest)).readFields fields s =
      field.read v.doc s >>= (Value.memberDocs rest).readFields fields := by
  simp only [Value.memberDocs, Members.readFields, read_quotedText, bind, Except.bind, hfind, hset]
  rfl

theorem Restores.member (field : FieldReader σ) {v : Value} {rest : List (String × Value)}
    {s s' s'' : σ} {xs ys : List Float}
    (hfind : fields.find? (·.name == field.name) = some field) (hset : field.isSet s = false)
    (h : Restores (field.read v.doc s) s' xs)
    (hrest : Restores ((Value.memberDocs rest).readFields fields s') s'' ys) :
    Restores ((Value.memberDocs ((field.name, v) :: rest)).readFields fields s) s'' (xs ++ ys) := by
  rw [readFields_member field v rest hfind hset]
  exact h.bind hrest

end Member

theorem word_text {β : Type} (words : List (String × β)) (s : String) :
    (Value.text s).doc.word words = lookUpWord words s := by
  simp only [Value.doc, Doc.word, read_quotedText]
  rfl

theorem lookUpWord_letter (r : Relation) : lookUpWord Relation.letters r.letter = .ok r := by
  cases r <;> rfl

theorem lookUpWord_word (d : Direction) : lookUpWord Direction.words d.word = .ok d := by
  cases d <;> rfl

theorem restores_text {β : Type} {words : List (String × β)} {s : String} {v : β}
    (h : lookUpWord words s = .ok v) : Restores ((Value.text s).doc.word words) v [] := by
  rw [word_text, h]
  exact restores_ok v

theorem restores_natural {n : Nat} (h : n < wordValues) :
    Restores (Value.natural n).doc.count n [] := by
  have hcount : (Value.natural n).doc.count = .ok n := by
    simp only [Value.doc, Doc.count, Doc.found, Atom.found, quantity_numeral h]
    rfl
  rw [hcount]
  exact restores_ok n

/-! ## Constraints and programs -/

def Constraint.reals (c : Constraint Float) : List Float := c.coeffs ++ [c.rhs]

/-- The doubles of a program: the objective, and then the coefficients and the right-hand
side of each constraint. -/
def Program.reals (p : Program Float) : List Float :=
  p.objective ++ p.constraints.flatMap Constraint.reals

theorem restores_constraint {c : Constraint Float}
    (h : ∀ x ∈ c.reals, x.isFinite = true → ReadsBack x) :
    Restores (Constraint.ofDoc c.document.doc) c c.reals := by
  have hcoeffs := restores_numbers fun x hx => h x (List.mem_append_left _ hx)
  have hrhs := restores_real (h c.rhs (List.mem_append_right _ List.mem_cons_self))
  have hletter := restores_text (lookUpWord_letter c.relation)
  have hrecord : Restores (c.document.doc.record "Constraint" ConstraintParts.fields
      ⟨none, none, none⟩) ⟨some c.coeffs, some c.rhs, some c.relation⟩
      (c.coeffs ++ ([c.rhs] ++ ([] ++ []))) :=
    .member ConstraintParts.fields[0] rfl rfl (hcoeffs.map _) <|
    .member ConstraintParts.fields[1] rfl rfl (hrhs.map _) <|
    .member ConstraintParts.fields[2] rfl rfl (hletter.map _) <|
    restores_ok _
  have hreals : c.reals = c.coeffs ++ ([c.rhs] ++ ([] ++ [])) ++ [] := by simp [Constraint.reals]
  rw [hreals]
  exact hrecord.bind (restores_ok c)

theorem restores_program {p : Program Float} (hvars : p.numVars < wordValues)
    (h : ∀ x ∈ p.reals, x.isFinite = true → ReadsBack x) :
    Restores (Program.ofDoc p.document.doc) p p.reals := by
  have hobjective := restores_numbers fun x hx => h x (List.mem_append_left _ hx)
  have hconstraints : Restores
      ((Value.itemDocs (p.constraints.map (·.document))).readAll Constraint.ofDoc) p.constraints
      (p.constraints.flatMap Constraint.reals) :=
    restores_readAll fun c hc => restores_constraint fun x hx =>
      h x (List.mem_append_right _ (List.mem_flatMap.mpr ⟨c, hc, hx⟩))
  have hrecord : Restores (p.document.doc.record "LinearProgram" ProgramParts.fields
      ⟨none, none, none, none⟩)
      ⟨some p.numVars, some p.objective, some p.constraints, some p.direction⟩
      ([] ++ (p.objective ++ (p.constraints.flatMap Constraint.reals ++ ([] ++ [])))) :=
    .member ProgramParts.fields[0] rfl rfl ((restores_natural hvars).map _) <|
    .member ProgramParts.fields[1] rfl rfl (hobjective.map _) <|
    .member ProgramParts.fields[2] rfl rfl (hconstraints.map _) <|
    .member ProgramParts.fields[3] rfl rfl ((restores_text (lookUpWord_word p.direction)).map _) <|
    restores_ok _
  have hreals : p.reals =
      [] ++ (p.objective ++ (p.constraints.flatMap Constraint.reals ++ ([] ++ []))) ++ [] := by
    simp [Program.reals]
  rw [hreals]
  exact hrecord.bind (restores_ok p)

/-! ## The text of a program -/

theorem itemReals_map {β : Type} (written : β → Value) (l : List β) :
    Value.itemReals (l.map written) = l.flatMap fun b => (written b).reals := by
  induction l with
  | nil => rfl
  | cons b l ih => rw [List.map_cons, Value.itemReals, ih, List.flatMap_cons]

theorem reals_numbers (xs : List Float) : (numbers xs).reals = xs :=
  (itemReals_map Value.real xs).trans (List.flatMap_singleton' xs)

theorem reals_document_constraint (c : Constraint Float) : c.document.reals = c.reals := by
  simp [Constraint.document, Constraint.reals, Value.reals, Value.memberReals, reals_numbers]

/-- The doubles in the text of a program are those of the program. -/
theorem reals_document (p : Program Float) : p.document.reals = p.reals := by
  simp [Program.document, Program.reals, Value.reals, Value.memberReals, reals_numbers,
    itemReals_map, reals_document_constraint]

/-- A program whose doubles are finite is read from its text as it was written.  Where one
of them is not, the text is refused: it is well formed, and has null for a number. -/
theorem ofText_document (p : Program Float) (hvars : p.numVars < wordValues)
    (hread : ∀ x ∈ p.reals, x.isFinite = true → ReadsBack x) :
    ((∀ x ∈ p.reals, x.isFinite = true) → Program.ofText p.document.compact = .ok p) ∧
      ((∃ x ∈ p.reals, x.isFinite = false) →
        Program.ofText p.document.compact =
          .error (.unsuitable (.invalidType .null .number))) := by
  have hlegible : ∀ x ∈ p.document.reals, IsLegible x := by
    intro x hx
    rw [reals_document] at hx
    exact isLegible_of (hread x hx)
  rw [Program.ofText, readText_compact Program.ofDoc p.document hlegible]
  exact restores_program hvars hread

/-- A minus zero, a lower bound and a minimum come back; an infinite bound does not. -/
theorem ofText_document_minus_zero :
    let p (rhs : Float) : Program Float := ⟨2, [3, -0.0], [⟨[1, 0.1], .atLeast, rhs⟩], .minimize⟩
    Program.ofText (p 4).document.compact = .ok (p 4) ∧
      Program.ofText (p (1 / 0)).document.compact =
        .error (.unsuitable (.invalidType .null .number)) := by
  intro p
  have hread : ∀ rhs, ((rhs.isFinite = true) → ReadsBack rhs) →
      ∀ x ∈ (p rhs).reals, x.isFinite = true → ReadsBack x := by
    intro rhs hrhs x hx
    have hcases : x = 3 ∨ x = -0.0 ∨ x = 1 ∨ x = 0.1 ∨ x = rhs := by
      simpa [p, Program.reals, Constraint.reals] using hx
    rcases hcases with rfl | rfl | rfl | rfl | rfl
    · exact fun _ => rfl
    · exact fun _ => rfl
    · exact fun _ => rfl
    · exact fun _ => rfl
    · exact hrhs
  constructor
  · exact (ofText_document (p 4) (by decide) (hread 4 fun _ => rfl)).1 (by decide +kernel)
  · have hinf : (1 / 0 : Float).isFinite = false := by decide +kernel
    refine (ofText_document (p (1 / 0)) (by decide) (hread _ fun h => ?_)).2 ⟨1 / 0, ?_, hinf⟩
    · exact absurd (h.symm.trans hinf) nofun
    · simp [p, Program.reals, Constraint.reals]

end TwoPhase
