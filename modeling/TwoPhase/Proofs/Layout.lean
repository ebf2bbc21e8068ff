/-
# `Layout` — the columns and rows of a standard form

A program to which there is no objection is always laid out, and the
result has a closed form, `StandardForm.layout`.  Its columns are pairwise
distinct, which is what lets a column be found again by what it stands
for: the `k`-th row has, in an added column, exactly the entry that the
column's own name gives it.  All of it holds bit for bit, for any scalar.
-/
import Mathlib
import TwoPhase.StandardForm
import TwoPhase.Proofs.Shape

namespace TwoPhase

variable {α : Type}

/-! ## The added columns -/

theorem mem_zipIdx_filterMap {β : Type} {xs : List β} {g : β → Nat → Option Column}
    {c : Column} :
    c ∈ (xs.zipIdx.filterMap fun (x, i) => g x i) ↔ ∃ i x, xs[i]? = some x ∧ g x i = some c := by
  rw [List.mem_filterMap]
  constructor
  · rintro ⟨⟨x, i⟩, hmem, hc⟩
    exact ⟨i, x, List.mem_zipIdx_iff_getElem?.mp hmem, hc⟩
  · rintro ⟨i, x, hx, hc⟩
    exact ⟨(x, i), List.mem_zipIdx_iff_getElem?.mpr hx, hc⟩

namespace NormalConstraint

theorem slackColumn_eq_some_iff {c : NormalConstraint α} {i : Nat} {col : Column} :
    c.slackColumn i = some col ↔
      (c.relation = .atMost ∧ col = .slack i) ∨ (c.relation = .atLeast ∧ col = .surplus i) := by
  rw [slackColumn]
  cases c.relation <;> simp [eq_comm]

theorem slackColumn_eq_none_iff {c : NormalConstraint α} {i : Nat} :
    c.slackColumn i = none ↔ c.relation = .equal := by
  rw [slackColumn]
  cases c.relation <;> simp

theorem artificialColumn_eq_some_iff {c : NormalConstraint α} {i : Nat} {col : Column} :
    c.artificialColumn i = some col ↔ c.relation ≠ .atMost ∧ col = .artificial i := by
  rw [artificialColumn]
  cases c.relation <;> simp [Relation.StartsArtificial, eq_comm]

end NormalConstraint

namespace StandardForm

/-- The slack and surplus columns, in the order of the constraints. -/
abbrev slackColumns (cs : List (NormalConstraint α)) : List Column :=
  cs.zipIdx.filterMap fun (c, i) => c.slackColumn i

/-- The artificial columns, in the order of the constraints. -/
abbrev artificialPart (cs : List (NormalConstraint α)) : List Column :=
  cs.zipIdx.filterMap fun (c, i) => c.artificialColumn i

variable {cs : List (NormalConstraint α)} {i : Nat}

theorem isArtificial_of_mem_artificialPart {c : Column} (h : c ∈ artificialPart cs) :
    c.IsArtificial := by
  obtain ⟨i, x, -, hc⟩ := mem_zipIdx_filterMap.mp h
  obtain ⟨-, rfl⟩ := NormalConstraint.artificialColumn_eq_some_iff.mp hc
  trivial

theorem not_isArtificial_of_mem_slackColumns {c : Column} (h : c ∈ slackColumns cs) :
    ¬ c.IsArtificial := by
  obtain ⟨i, x, -, hc⟩ := mem_zipIdx_filterMap.mp h
  rcases NormalConstraint.slackColumn_eq_some_iff.mp hc with ⟨-, rfl⟩ | ⟨-, rfl⟩
  · exact id
  · exact id

theorem mem_addedColumns {c : Column} :
    c ∈ addedColumns cs ↔ ∃ i x, cs[i]? = some x ∧
      ((x.relation = .atMost ∧ c = .slack i) ∨ (x.relation = .atLeast ∧ c = .surplus i) ∨
        (x.relation ≠ .atMost ∧ c = .artificial i)) := by
  rw [addedColumns, List.mem_append, mem_zipIdx_filterMap, mem_zipIdx_filterMap]
  simp only [NormalConstraint.slackColumn_eq_some_iff,
    NormalConstraint.artificialColumn_eq_some_iff]
  constructor
  · rintro (⟨i, x, hx, h | h⟩ | ⟨i, x, hx, h⟩)
    · exact ⟨i, x, hx, .inl h⟩
    · exact ⟨i, x, hx, .inr (.inl h)⟩
    · exact ⟨i, x, hx, .inr (.inr h)⟩
  · rintro ⟨i, x, hx, h | h | h⟩
    · exact .inl ⟨i, x, hx, .inl h⟩
    · exact .inl ⟨i, x, hx, .inr h⟩
    · exact .inr ⟨i, x, hx, h⟩

@[simp] theorem decision_notMem_addedColumns : Column.decision i ∉ addedColumns cs := by
  simp [mem_addedColumns]

theorem slack_mem_addedColumns {x : NormalConstraint α} (hx : cs[i]? = some x) :
    Column.slack i ∈ addedColumns cs ↔ x.relation = .atMost := by
  simp [mem_addedColumns, hx]

theorem artificial_mem_addedColumns {x : NormalConstraint α} (hx : cs[i]? = some x) :
    Column.artificial i ∈ addedColumns cs ↔ x.relation ≠ .atMost := by
  simp [mem_addedColumns, hx]

theorem startColumn_mem_addedColumns {x : NormalConstraint α} (hx : cs[i]? = some x) :
    x.startColumn i ∈ addedColumns cs := by
  rw [NormalConstraint.startColumn]
  split
  next h => exact (slack_mem_addedColumns hx).mpr h
  next h => exact (artificial_mem_addedColumns hx).mpr h

theorem nodup_slackColumns : (slackColumns cs).Nodup := by
  rw [List.nodup_iff_pairwise_ne]
  apply (pairwise_zipIdx_snd cs).filterMap
  rintro ⟨x, i⟩ ⟨y, k⟩ hlt c hc d hd rfl
  have hne : i ≠ k := hlt.ne
  rcases NormalConstraint.slackColumn_eq_some_iff.mp hc with ⟨-, rfl⟩ | ⟨-, rfl⟩ <;>
    rcases NormalConstraint.slackColumn_eq_some_iff.mp hd with ⟨-, h⟩ | ⟨-, h⟩ <;>
    simp_all

theorem nodup_artificialPart : (artificialPart cs).Nodup := by
  rw [List.nodup_iff_pairwise_ne]
  apply (pairwise_zipIdx_snd cs).filterMap
  rintro ⟨x, i⟩ ⟨y, k⟩ hlt c hc d hd rfl
  have hne : i ≠ k := hlt.ne
  obtain ⟨-, rfl⟩ := NormalConstraint.artificialColumn_eq_some_iff.mp hc
  obtain ⟨-, h⟩ := NormalConstraint.artificialColumn_eq_some_iff.mp hd
  simp_all

theorem nodup_addedColumns : (addedColumns cs).Nodup := by
  refine List.nodup_append.mpr ⟨nodup_slackColumns, nodup_artificialPart, ?_⟩
  rintro c hc d hd rfl
  exact not_isArtificial_of_mem_slackColumns hc (isArtificial_of_mem_artificialPart hd)

abbrev allColumns (n : Nat) (cs : List (NormalConstraint α)) : List Column :=
  (List.range n).map .decision ++ addedColumns cs

theorem nodup_allColumns (n : Nat) : (allColumns n cs).Nodup := by
  refine List.nodup_append.mpr ⟨?_, nodup_addedColumns, ?_⟩
  · exact List.nodup_range.map fun i k h => Column.decision.inj h
  · rintro c hc d hd rfl
    obtain ⟨i, -, rfl⟩ := List.mem_map.mp hc
    exact decision_notMem_addedColumns hd

theorem length_artificialColumns_eq (f : StandardForm α) :
    f.artificialColumns.length = (f.columns.filter (·.IsArtificial)).length := by
  have hfilter : (f.columns.zipIdx.filter fun q => q.1.IsArtificial).map Prod.fst
      = f.columns.filter (·.IsArtificial) := by
    rw [← List.zipIdx_map_fst 0 f.columns, List.filter_map, List.zipIdx_map_fst]
    rfl
  rw [← hfilter, List.length_map, artificialColumns, List.length_map]

/-! ## The closed form -/

variable [Scalar α]

/-- The constraints of a program in normalised form. -/
abbrev normalized (p : Program α) : List (NormalConstraint α) := p.constraints.map (·.normalize)

/-- The costs of the decision variables when the objective is to be maximised. -/
def decisionCosts (p : Program α) : List α :=
  match p.direction with
  | .maximize => p.objective
  | .minimize => p.objective.map (- ·)

/-- The standard form of a program to which there is no objection. -/
def layout (p : Program α) : StandardForm α where
  columns := allColumns p.numVars (normalized p)
  rows := (normalized p).zipIdx.map fun (c, i) =>
    ⟨⟨c.coeffs ++ (addedColumns (normalized p)).map (unitEntry i), c.rhs⟩,
      (allColumns p.numVars (normalized p)).idxOf (c.startColumn i)⟩
  costs := decisionCosts p ++ (addedColumns (normalized p)).map fun _ => 0
  negatedObjective := p.direction = .minimize

theorem basicRow_eq_ok {columns added : List Column} {c : NormalConstraint α}
    (h : c.startColumn i ∈ columns) :
    basicRow columns added c i =
      .ok ⟨⟨c.coeffs ++ added.map (unitEntry i), c.rhs⟩, columns.idxOf (c.startColumn i)⟩ := by
  obtain ⟨j, hj⟩ := Option.isSome_iff_exists.mp (List.isSome_idxOf?.mpr h)
  have hidx : columns.idxOf (c.startColumn i) = j := by
    rw [List.idxOf_eq_getD_idxOf?, hj]
    rfl
  rw [basicRow, hj, hidx]

/-- A program is laid out exactly where there is no objection to it. -/
theorem ofProgram_eq (p : Program α) :
    ofProgram p = match p.objection with
      | some o => .error o
      | none => .ok (layout p) := by
  unfold ofProgram Program.check
  cases p.objection with
  | some o => rfl
  | none =>
      have hrows : (normalized p).zipIdx.mapM (fun (c, i) =>
          basicRow (allColumns p.numVars (normalized p)) (addedColumns (normalized p)) c i)
            = .ok (layout p).rows := by
        refine mapM_eq_ok_map ?_
        rintro ⟨c, i⟩ hmem
        exact basicRow_eq_ok (List.mem_append_right _
          (startColumn_mem_addedColumns (List.mem_zipIdx_iff_getElem?.mp hmem)))
      simp only [bind, Except.bind, hrows]
      rfl

theorem ofProgram_eq_ok {p : Program α} (h : p.objection = none) :
    ofProgram p = .ok (layout p) := by
  rw [ofProgram_eq, h]

/-! ## Rows of the layout -/

section Rows

variable {p : Program α}

theorem of_objection_eq_none (h : p.objection = none) :
    0 < p.numVars ∧ p.objective.length = p.numVars ∧
      ∀ c ∈ p.constraints, c.coeffs.length = p.numVars := by
  rw [Program.objection] at h
  split at h
  · exact nomatch h
  next hvars =>
    split at h
    · exact nomatch h
    next hobj =>
      split at h
      · exact nomatch h
      · split at h
        · exact nomatch h
        · refine ⟨not_lt.mp hvars, not_not.mp hobj, fun c hc => ?_⟩
          obtain ⟨i, hi⟩ := List.mem_iff_getElem?.mp hc
          have hnone := List.findSome?_eq_none_iff.mp h (c, i)
            (List.mem_zipIdx_iff_getElem?.mpr hi)
          by_contra hne
          simp [Program.objectionTo, hne] at hnone

@[simp] theorem length_coeffs_normalize (c : Constraint α) :
    c.normalize.coeffs.length = c.coeffs.length := by
  rw [Constraint.normalize]
  split
  · exact List.length_map _
  · rfl

theorem getElem?_layout_rows (p : Program α) (i : Nat) :
    (layout p).rows[i]? = p.constraints[i]?.map fun c =>
      ⟨⟨c.normalize.coeffs ++ (addedColumns (normalized p)).map (unitEntry i), c.normalize.rhs⟩,
        (layout p).columns.idxOf (c.normalize.startColumn i)⟩ := by
  show ((normalized p).zipIdx.map _)[i]? = _
  rw [List.getElem?_map, List.getElem?_zipIdx, List.getElem?_map]
  cases p.constraints[i]? with
  | none => rfl
  | some c => simp [layout]

theorem layout_row {i : Nat} {r : BasicRow α} (hr : (layout p).rows[i]? = some r) :
    ∃ c, p.constraints[i]? = some c ∧ r =
      ⟨⟨c.normalize.coeffs ++ (addedColumns (normalized p)).map (unitEntry i), c.normalize.rhs⟩,
        (layout p).columns.idxOf (c.normalize.startColumn i)⟩ := by
  rw [getElem?_layout_rows] at hr
  obtain ⟨c, hc, rfl⟩ := Option.map_eq_some_iff.mp hr
  exact ⟨c, hc, rfl⟩

theorem exists_layout_row {i : Nat} {c : Constraint α} (hc : p.constraints[i]? = some c) :
    ∃ r, (layout p).rows[i]? = some r := by
  rw [getElem?_layout_rows, hc]
  exact ⟨_, rfl⟩

theorem normalized_getElem? {i : Nat} {c : Constraint α} (hc : p.constraints[i]? = some c) :
    (normalized p)[i]? = some c.normalize := by
  rw [List.getElem?_map, hc]
  rfl

theorem startColumn_mem_columns {i : Nat} {c : Constraint α} (hc : p.constraints[i]? = some c) :
    c.normalize.startColumn i ∈ (layout p).columns :=
  List.mem_append_right _ (startColumn_mem_addedColumns (normalized_getElem? hc))

theorem getElem?_columns_basic {i : Nat} {r : BasicRow α} (hr : (layout p).rows[i]? = some r) :
    ∃ c, p.constraints[i]? = some c ∧
      (layout p).columns[r.basic]? = some (c.normalize.startColumn i) := by
  obtain ⟨c, hc, rfl⟩ := layout_row hr
  refine ⟨c, hc, ?_⟩
  have hlt := List.idxOf_lt_length_iff.mpr (startColumn_mem_columns hc)
  rw [List.getElem?_eq_getElem hlt, List.getElem_idxOf]

theorem isShaped_tableau_layout (h : p.objection = none) : (layout p).tableau.IsShaped := by
  obtain ⟨-, -, hlen⟩ := of_objection_eq_none h
  refine ⟨⟨fun r hr => ?_, List.length_map _⟩, fun r hr => ?_⟩
  · obtain ⟨i, hi⟩ := List.mem_iff_getElem?.mp hr
    obtain ⟨c, hc, rfl⟩ := layout_row hi
    have hcoeffs := hlen c (List.mem_of_getElem? hc)
    simp [tableau, layout, hcoeffs]
  · obtain ⟨i, hi⟩ := List.mem_iff_getElem?.mp hr
    obtain ⟨c, -, hb⟩ := getElem?_columns_basic hi
    exact (List.getElem?_eq_some_iff.mp hb).1

/-- Where the decision columns come first, each stands at the place that its index says. -/
theorem getElem?_decisions_append_iff {n : Nat} {cols : List Column}
    (hcols : ∀ i, Column.decision i ∉ cols) {i j : Nat} :
    ((List.range n).map Column.decision ++ cols)[j]? = some (.decision i) ↔ i = j ∧ j < n := by
  rcases lt_or_ge j n with hj | hj
  · rw [List.getElem?_append_left (by simpa using hj)]
    simp [hj, eq_comm]
  · rw [List.getElem?_append_right (by simpa using hj)]
    constructor
    · exact fun h => absurd (List.mem_of_getElem? h) (hcols i)
    · exact fun h => absurd h.2 (not_lt.mpr hj)

theorem le_of_getElem?_decisions_append {n : Nat} {cols : List Column} {j : Nat} {col : Column}
    (hj : ((List.range n).map Column.decision ++ cols)[j]? = some col)
    (hcol : ∀ i, col ≠ .decision i) : n ≤ j := by
  by_contra hlt
  rw [List.getElem?_append_left (by simpa using hlt)] at hj
  obtain ⟨i, -, rfl⟩ := List.mem_map.mp (List.mem_of_getElem? hj)
  exact hcol i rfl

theorem entry_append_map {n : Nat} {coeffs : List α} (hcoeffs : coeffs.length = n)
    {cols : List Column} {g : Column → α} {rhs : α} {j : Nat} {col : Column}
    (hj : ((List.range n).map Column.decision ++ cols)[j]? = some col)
    (hcol : ∀ i, col ≠ .decision i) : (⟨coeffs ++ cols.map g, rhs⟩ : Row α).entry j = g col := by
  have hge := le_of_getElem?_decisions_append hj hcol
  rw [List.getElem?_append_right (by simpa using hge), List.length_map, List.length_range] at hj
  have hlt : j - n < cols.length := (List.getElem?_eq_some_iff.mp hj).1
  rw [Row.entry_of_lt (by simp [hcoeffs]; omega), List.getElem_append_right (by omega)]
  simp only [hcoeffs, List.getElem_map, (List.getElem?_eq_some_iff.mp hj).2]

/-- The entry of a row in an added column is the one that the column's name gives it. -/
theorem entry_layout_row (h : p.objection = none) {k j : Nat} {r : BasicRow α}
    (hr : (layout p).rows[k]? = some r) {col : Column} (hj : (layout p).columns[j]? = some col)
    (hcol : col ∈ addedColumns (normalized p)) : r.entry j = unitEntry k col := by
  obtain ⟨-, -, hlen⟩ := of_objection_eq_none h
  obtain ⟨c, hc, rfl⟩ := layout_row hr
  have hcoeffs : c.normalize.coeffs.length = p.numVars := by
    rw [length_coeffs_normalize, hlen c (List.mem_of_getElem? hc)]
  refine entry_append_map hcoeffs hj ?_
  rintro i rfl
  exact decision_notMem_addedColumns hcol

theorem unitEntry_startColumn (c : NormalConstraint α) (i k : Nat) :
    (unitEntry k (c.startColumn i) : α) = if i = k then 1 else 0 := by
  rw [NormalConstraint.startColumn]
  split <;> rfl

/-- The starting basis consists of unit columns. -/
theorem entry_layout_basic (h : p.objection = none) {i k : Nat} {r s : BasicRow α}
    (hr : (layout p).rows[i]? = some r) (hs : (layout p).rows[k]? = some s) :
    s.entry r.basic = if k = i then 1 else 0 := by
  obtain ⟨c, hc, hb⟩ := getElem?_columns_basic hr
  rw [entry_layout_row h hs hb (startColumn_mem_addedColumns (normalized_getElem? hc)),
    unitEntry_startColumn]
  simp only [eq_comm]

end Rows

/-! ## Costs -/

theorem map_lookup_zip {β γ : Type} [BEq β] [LawfulBEq β] (d : γ) :
    ∀ {ks : List β} {vs : List γ}, ks.Nodup → ks.length = vs.length →
      (ks.map fun k => ((ks.zip vs).lookup k).getD d) = vs
  | [], [], _, _ => rfl
  | [], _ :: _, _, h => nomatch h
  | _ :: _, [], _, h => nomatch h
  | k :: ks, v :: vs, hnodup, hlen => by
      obtain ⟨hk, hks⟩ := List.nodup_cons.mp hnodup
      have htail : ∀ c ∈ ks, (((k :: ks).zip (v :: vs)).lookup c).getD d
          = ((ks.zip vs).lookup c).getD d := by
        intro c hc
        have hne : (c == k) = false := beq_false_of_ne fun h => hk (h ▸ hc)
        rw [List.zip_cons_cons, List.lookup_cons, hne]
      rw [List.map_cons, List.map_congr_left htail, map_lookup_zip d hks (by simpa using hlen),
        List.zip_cons_cons, List.lookup_cons_self]
      rfl

theorem length_decisionCosts {p : Program α} (h : p.objection = none) :
    (decisionCosts p).length = p.numVars := by
  obtain ⟨-, hlen, -⟩ := of_objection_eq_none h
  rw [decisionCosts]
  split
  · exact hlen
  · rw [List.length_map, hlen]

theorem length_costs_layout {p : Program α} (h : p.objection = none) :
    (layout p).costs.length = (layout p).columns.length := by
  show (decisionCosts p ++ (addedColumns (normalized p)).map fun _ => 0).length
    = (allColumns p.numVars (normalized p)).length
  simp only [List.length_append, List.length_map, List.length_range, length_decisionCosts h]

theorem getD_costs_layout_of_le {p : Program α} (h : p.objection = none) {j : Nat}
    (hj : p.numVars ≤ j) : (layout p).costs.getD j 0 = 0 := by
  rw [← length_decisionCosts h] at hj
  show (decisionCosts p ++ (addedColumns (normalized p)).map fun _ => 0).getD j 0 = 0
  rw [List.getD_eq_getElem?_getD, List.getElem?_append_right hj, List.getElem?_map]
  cases (addedColumns (normalized p))[j - (decisionCosts p).length]? with
  | none => rfl
  | some _ => rfl

theorem map_costOf_columns {p : Program α} (h : p.objection = none) :
    (layout p).columns.map (layout p).costOf = (layout p).costs :=
  map_lookup_zip 0 (nodup_allColumns _) (length_costs_layout h).symm

/-! ## Real and artificial columns -/

/-- The columns of the layout that are not artificial: they stand before the others. -/
abbrev realColumns (p : Program α) : List Column :=
  (List.range p.numVars).map .decision ++ slackColumns (normalized p)

theorem columns_layout_eq (p : Program α) :
    (layout p).columns = realColumns p ++ artificialPart (normalized p) := by
  show allColumns _ _ = _
  rw [List.append_assoc]
  rfl

theorem not_isArtificial_of_mem_realColumns {p : Program α} {c : Column}
    (h : c ∈ realColumns p) : ¬ c.IsArtificial := by
  rcases List.mem_append.mp h with h | h
  · obtain ⟨i, -, rfl⟩ := List.mem_map.mp h
    exact id
  · exact not_isArtificial_of_mem_slackColumns h

theorem filter_columns_layout (p : Program α) :
    (layout p).columns.filter (fun c => ¬ c.IsArtificial) = realColumns p := by
  have hreal : (realColumns p).filter (fun c => ¬ c.IsArtificial) = realColumns p := by
    refine List.filter_eq_self.mpr fun c hc => ?_
    simpa using not_isArtificial_of_mem_realColumns hc
  have hart : (artificialPart (normalized p)).filter (fun c => ¬ c.IsArtificial) = [] := by
    refine List.filter_eq_nil_iff.mpr fun c hc => ?_
    simpa using isArtificial_of_mem_artificialPart hc
  rw [columns_layout_eq, List.filter_append, hreal, hart, List.append_nil]

theorem map_costOf_realColumns {p : Program α} (h : p.objection = none) :
    (realColumns p).map (layout p).costOf = (layout p).costs.take (realColumns p).length := by
  rw [← map_costOf_columns h, ← List.map_take, columns_layout_eq, List.take_left]

theorem length_artificialColumns (p : Program α) :
    (layout p).artificialColumns.length = (artificialPart (normalized p)).length := by
  have hreal : (realColumns p).filter (·.IsArtificial) = [] := by
    refine List.filter_eq_nil_iff.mpr fun c hc => ?_
    simpa using not_isArtificial_of_mem_realColumns hc
  have hart : (artificialPart (normalized p)).filter (·.IsArtificial)
      = artificialPart (normalized p) := by
    refine List.filter_eq_self.mpr fun c hc => ?_
    simpa using isArtificial_of_mem_artificialPart hc
  rw [length_artificialColumns_eq, columns_layout_eq, List.filter_append, hreal, hart,
    List.nil_append]

end StandardForm

end TwoPhase
