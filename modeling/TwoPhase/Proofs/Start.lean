/-
# `Start` — the tableau a solve starts from

The columns of a standard form are those of the decision variables, then
for each constraint in turn its slack or surplus, then for each constraint
that needs one its artificial column.  No two of them are the same, and
though slack and surplus share a letter no two have the same heading: a
constraint has only one of the two.

A row sees of all added columns its own alone, so the starting basis is a
unit matrix bit for bit.  Nothing stands below zero on the right, and the
tableau is canonical at every tolerance that is not below zero.  Of the
arithmetic no more is asked for this than on which side of zero a number
lies.
-/
import Mathlib
import TwoPhase.Proofs.Double
import TwoPhase.Proofs.Layout

namespace TwoPhase

/-- What is asked of numbers on the two sides of zero. -/
class SidedZero (α : Type) [Scalar α] : Prop where
  not_neg_lt_zero : ∀ {a : α}, a < 0 → ¬ -a < 0
  not_lt_zero : ∀ {a : α}, 0 ≤ a → ¬ a < 0
  not_lt_neg : ∀ {a tol : α}, ¬ a < 0 → 0 ≤ tol → ¬ a < -tol
  abs_one_sub_one : Scalar.abs (1 - 1 : α) = 0
  abs_zero_sub_zero : Scalar.abs (0 - 0 : α) = 0
  one_beq_zero : ((1 : α) == 0) = false
  neg_one_beq_zero : ((-1 : α) == 0) = false

instance : SidedZero ℚ where
  not_neg_lt_zero {a} h := by
    show ¬ -a < 0
    rw [neg_lt_zero]
    exact h.le.not_gt
  not_lt_zero h := not_lt.mpr h
  not_lt_neg {a tol} ha htol := by
    show ¬ a < -tol
    rw [not_lt]
    exact (neg_nonpos.mpr htol).trans (not_lt.mp ha)
  abs_one_sub_one := by
    rw [scalarAbs_eq_abs]
    exact abs_eq_zero.mpr (sub_self 1)
  abs_zero_sub_zero := by
    rw [scalarAbs_eq_abs]
    exact abs_eq_zero.mpr (sub_self 0)
  one_beq_zero := rfl
  neg_one_beq_zero := rfl

instance : SidedZero Float where
  not_neg_lt_zero := not_neg_lt_zero
  not_lt_zero := not_lt_zero_of_nonneg
  not_lt_neg := not_lt_neg_of_nonneg
  abs_one_sub_one := by decide +kernel
  abs_zero_sub_zero := by decide +kernel
  one_beq_zero := by decide +kernel
  neg_one_beq_zero := by decide +kernel

/-! ## Headings -/

namespace Column

/-- The constraint whose slack, surplus or artificial variable a column is. -/
def owner? : Column → Option Nat
  | .decision _ => none
  | .slack i => some i
  | .surplus i => some i
  | .artificial i => some i

/-- The variable or constraint that a column belongs to. -/
def index : Column → Nat
  | .decision i => i
  | .slack i => i
  | .surplus i => i
  | .artificial i => i

def letter : Column → Char
  | .decision _ => 'x'
  | .slack _ => 's'
  | .surplus _ => 's'
  | .artificial _ => 'a'

theorem toList_label (c : Column) :
    c.label.toList = c.letter :: (toString (c.index + 1)).toList := by
  cases c <;> exact String.toList_append

/-- A heading tells the letter and the index. -/
theorem letter_and_index_of_label_eq {c d : Column} (h : c.label = d.label) :
    c.letter = d.letter ∧ c.index = d.index := by
  have hlist := congrArg String.toList h
  rw [toList_label, toList_label, List.cons.injEq, String.toList_inj] at hlist
  exact ⟨hlist.1, Nat.succ_injective (Nat.repr_inj.mp hlist.2)⟩

end Column

namespace Tableau

variable {α : Type} [Scalar α] {t : Tableau α}

/-! ## Exact unit columns -/

/-- Where the basic columns are unit vectors and nothing lies below zero, no tolerance makes
a difference. -/
theorem isCanonical_of_exact [SidedZero α] (ht : t.IsShaped) (hnodup : t.basis.Nodup)
    (hrhs : ∀ r ∈ t.rows, ¬ r.rhs < 0)
    (hentry : ∀ {i k : Nat} {r s : BasicRow α}, t.rows[i]? = some r → t.rows[k]? = some s →
      s.entry r.basic = if k = i then 1 else 0)
    (hobjective : ∀ r ∈ t.rows, t.objective.entry r.basic = 0) {tol : α} (htol : 0 ≤ tol) :
    t.IsCanonical tol := by
  have hexact : ∀ {v : α} {c : Prop} [Decidable c], v = (if c then 1 else 0) →
      ¬ tol < Scalar.abs (v - if c then 1 else 0) := by
    intro v c _ hv
    have hzero : Scalar.abs (v - if c then 1 else 0) = 0 := by
      rw [hv]
      split_ifs
      · exact SidedZero.abs_one_sub_one
      · exact SidedZero.abs_zero_sub_zero
    rw [hzero]
    exact SidedZero.not_lt_zero htol
  refine ⟨hnodup, ?_⟩
  rintro ⟨r, i⟩ hmem
  have hr : t.rows[i]? = some r := List.mem_zipIdx_iff_getElem?.mp hmem
  have hrow := List.mem_of_getElem? hr
  refine ⟨ht.basic_lt r hrow, SidedZero.not_lt_neg (hrhs r hrow) htol, ?_⟩
  rintro ⟨q, k⟩ hq
  rcases allRows_cases (List.mem_zipIdx_iff_getElem?.mp hq) with ⟨s, hs, rfl⟩ | ⟨rfl, rfl⟩
  · exact hexact (hentry hr hs)
  · have hlt : i < t.rows.length := (List.getElem?_eq_some_iff.mp hr).1
    refine hexact ?_
    rw [if_neg hlt.ne']
    exact hobjective r hrow

end Tableau

namespace StandardForm

variable {α : Type} [Scalar α]

/-! ## The columns of a layout -/

theorem not_rhs_normalize_lt_zero [SidedZero α] (c : Constraint α) : ¬ c.normalize.rhs < 0 := by
  rw [Constraint.normalize]
  split_ifs with h
  · exact SidedZero.not_neg_lt_zero h
  · exact h

section Columns

variable {p : Program α}

theorem mem_addedColumns_of_owner {col : Column} (hcol : col ∈ (layout p).columns) {i : Nat}
    (hi : col.owner? = some i) : col ∈ addedColumns (normalized p) := by
  refine (List.mem_append.mp hcol).resolve_left fun hdecision => ?_
  obtain ⟨k, -, rfl⟩ := List.mem_map.mp hdecision
  exact nomatch hi

theorem not_slack_and_surplus {i : Nat} (hslack : .slack i ∈ (layout p).columns)
    (hsurplus : .surplus i ∈ (layout p).columns) : False := by
  obtain ⟨k, c, hc, hcases⟩ := mem_addedColumns.mp (mem_addedColumns_of_owner hslack rfl)
  obtain ⟨k', c', hc', hcases'⟩ := mem_addedColumns.mp (mem_addedColumns_of_owner hsurplus rfl)
  simp only [Column.slack.injEq, Column.surplus.injEq, reduceCtorEq, and_false, or_false,
    false_or] at hcases hcases'
  obtain ⟨hslack, rfl⟩ := hcases
  obtain ⟨hsurplus, rfl⟩ := hcases'
  cases hc.symm.trans hc'
  exact nomatch hslack.symm.trans hsurplus

theorem nodup_labels_layout (p : Program α) : ((layout p).columns.map (·.label)).Nodup := by
  refine List.Nodup.map_on ?_ (nodup_allColumns _)
  intro c hc d hd heq
  obtain ⟨hletter, hindex⟩ := Column.letter_and_index_of_label_eq heq
  cases c <;> cases d <;> simp only [Column.letter, Char.reduceEq] at hletter <;> cases hindex
  case slack.surplus => exact (not_slack_and_surplus hc hd).elim
  case surplus.slack => exact (not_slack_and_surplus hd hc).elim
  all_goals rfl

omit [Scalar α] in
theorem index_startColumn (c : NormalConstraint α) (i : Nat) : (c.startColumn i).index = i := by
  rw [NormalConstraint.startColumn]
  split <;> rfl

theorem nodup_basis_layout (p : Program α) : ((layout p).rows.map (·.basic)).Nodup := by
  rw [List.nodup_iff_pairwise_ne, List.pairwise_map, List.pairwise_iff_getElem]
  intro i k hi hk hlt heq
  obtain ⟨c, -, hc⟩ := getElem?_columns_basic (List.getElem?_eq_getElem hi)
  obtain ⟨d, -, hd⟩ := getElem?_columns_basic (List.getElem?_eq_getElem hk)
  rw [heq, hd] at hc
  have hindex := congrArg Column.index (Option.some.inj hc)
  rw [index_startColumn, index_startColumn] at hindex
  exact hlt.ne' hindex

theorem hasArtificials_layout_iff :
    (layout p).HasArtificials ↔ ∃ c ∈ normalized p, c.relation ≠ .atMost := by
  constructor
  · rintro ⟨col, hcol, hartificial⟩
    cases col with
    | artificial i =>
        obtain ⟨k, c, hc, hcases⟩ := mem_addedColumns.mp (mem_addedColumns_of_owner hcol rfl)
        simp only [reduceCtorEq, and_false, false_or] at hcases
        exact ⟨c, List.mem_of_getElem? hc, hcases.1⟩
    | decision i => exact hartificial.elim
    | slack i => exact hartificial.elim
    | surplus i => exact hartificial.elim
  · rintro ⟨c, hc, hne⟩
    obtain ⟨i, hi⟩ := List.mem_iff_getElem?.mp hc
    exact ⟨.artificial i,
      List.mem_append_right _ ((artificial_mem_addedColumns hi).mpr hne), trivial⟩

end Columns

/-! ## The layout as a whole -/

/-- The entry of a constraint in its own slack, surplus or artificial column. -/
def ownEntry : Column → α
  | .surplus _ => -1
  | _ => 1

theorem ownEntry_beq_zero [SidedZero α] (col : Column) : ((ownEntry col : α) == 0) = false := by
  cases col with
  | surplus i => exact SidedZero.neg_one_beq_zero
  | _ => exact SidedZero.one_beq_zero

theorem unitEntry_of_owner {col : Column} {i : Nat} (h : col.owner? = some i) (k : Nat) :
    (unitEntry k col : α) = if k = i then ownEntry col else 0 := by
  have hswap : ∀ v : α, (if i = k then v else 0) = if k = i then v else 0 := by
    intro v
    simp only [eq_comm]
  cases col with
  | decision j => exact nomatch h
  | slack j => cases h; exact hswap 1
  | surplus j => cases h; exact hswap (-1)
  | artificial j => cases h; exact hswap 1

/-- A standard form with the columns that the constraints of the program call for, in their
order, and with an exact starting basis. -/
structure StartsFrom (f : StandardForm α) (p : Program α) : Prop where
  columns_eq : f.columns = (List.range p.numVars).map .decision ++
    ((normalized p).zipIdx.filterMap fun (c, i) =>
      match c.relation with
      | .atMost => some (.slack i)
      | .atLeast => some (.surplus i)
      | .equal => none) ++
    (normalized p).zipIdx.filterMap fun (c, i) =>
      if c.relation ≠ .atMost then some (.artificial i) else none
  nodup_columns : f.columns.Nodup
  nodup_labels : (f.columns.map (·.label)).Nodup
  length_rows : f.rows.length = p.constraints.length
  length_coeffs : ∀ r ∈ f.rows, r.coeffs.length = f.columns.length
  nodup_basis : (f.rows.map (·.basic)).Nodup
  basic_column : ∀ {i : Nat} {c : NormalConstraint α} {r : BasicRow α},
    (normalized p)[i]? = some c → f.rows[i]? = some r →
    f.columns[r.basic]? = some (if c.relation = .atMost then .slack i else .artificial i)
  basic_entry : ∀ {i k : Nat} {r s : BasicRow α}, f.rows[i]? = some r → f.rows[k]? = some s →
    s.entry r.basic = if k = i then 1 else 0
  added_entry : ∀ {i j k : Nat} {col : Column} {s : BasicRow α}, f.columns[j]? = some col →
    col.owner? = some i → f.rows[k]? = some s →
    if k = i then s.entry j = ownEntry col ∧ (s.entry j == 0) = false else s.entry j = 0
  not_rhs_lt_zero : ∀ r ∈ f.rows, ¬ r.rhs < 0
  hasArtificials_iff : f.HasArtificials ↔ ∃ c ∈ normalized p, c.relation ≠ .atMost
  isCanonical : ∀ tol, 0 ≤ tol → f.tableau.IsCanonical tol

theorem startsFrom_layout [SidedZero α] {p : Program α} (h : p.objection = none) :
    (layout p).StartsFrom p := by
  have hshaped := isShaped_tableau_layout h
  have hrhs : ∀ r ∈ (layout p).rows, ¬ r.rhs < 0 := by
    intro r hr
    obtain ⟨i, hi⟩ := List.mem_iff_getElem?.mp hr
    obtain ⟨c, -, rfl⟩ := layout_row hi
    exact not_rhs_normalize_lt_zero c
  constructor
  case columns_eq =>
    rw [columns_layout_eq]
    rfl
  case nodup_columns => exact nodup_allColumns _
  case nodup_labels => exact nodup_labels_layout p
  case length_rows => simp [layout]
  case length_coeffs => exact hshaped.rectangular.1
  case nodup_basis => exact nodup_basis_layout p
  case basic_column =>
    intro i c r hc hr
    obtain ⟨c', hc', hbasic⟩ := getElem?_columns_basic hr
    cases hc.symm.trans (normalized_getElem? hc')
    rw [hbasic, NormalConstraint.startColumn]
    cases c'.normalize.relation <;> rfl
  case basic_entry => exact entry_layout_basic h
  case added_entry =>
    intro i j k col s hj hi hs
    have hadded := mem_addedColumns_of_owner (List.mem_of_getElem? hj) hi
    rw [entry_layout_row h hs hj hadded, unitEntry_of_owner hi]
    split_ifs
    · exact ⟨rfl, ownEntry_beq_zero col⟩
    · rfl
  case not_rhs_lt_zero => exact hrhs
  case hasArtificials_iff => exact hasArtificials_layout_iff
  case isCanonical =>
    intro tol htol
    refine Tableau.isCanonical_of_exact hshaped (nodup_basis_layout p) hrhs
      (entry_layout_basic h) ?_ htol
    intro r hr
    have hlt : r.basic < (layout p).columns.length := hshaped.basic_lt r hr
    show (⟨(layout p).columns.map fun _ => 0, 0⟩ : Row α).entry r.basic = 0
    rw [Row.entry_of_lt (by simpa using hlt)]
    exact List.getElem_map _

/-- A program that passes is laid out, bit for bit, with a column for each decision variable, a
slack or surplus for each inequality and an artificial column for each constraint that is no
upper bound in normal form, and starts from an exact basis of slack and artificial columns. -/
theorem ofProgram_startsFrom [SidedZero α] {p : Program α} (h : p.check = .ok ()) :
    ∃ f, ofProgram p = .ok f ∧ f.StartsFrom p := by
  have hobjection : p.objection = none := by
    rw [Program.check] at h
    cases hobjection : p.objection with
    | none => rfl
    | some o => exact nomatch hobjection ▸ h
  exact ⟨layout p, ofProgram_eq_ok hobjection, startsFrom_layout hobjection⟩

/-- An upper bound, a lower bound and an equation, the last two of them turned round. -/
theorem ofProgram_startsFrom_turned :
    let p : Program Float := ⟨2, [2, 3], [⟨[1, 1], .atMost, 4⟩, ⟨[-1, 1], .atMost, -1⟩,
      ⟨[1, 2], .equal, -2⟩], .minimize⟩
    p.check = .ok () ∧ ∃ f, ofProgram p = .ok f ∧ f.StartsFrom p := by
  intro p
  have h : p.check = .ok () := by decide +kernel
  exact ⟨h, ofProgram_startsFrom h⟩

end StandardForm

end TwoPhase
