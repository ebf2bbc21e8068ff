/-
# `Sweep` — how the artificial columns are driven out

Between the phases the rows are looked at one after the other, each once.
A row keeps its basic column if that is not artificial.  Otherwise the
column is swapped for one that is not, or, where the row has nothing to
offer, the row is dropped and the next one moves up to its place.  `Swept`
follows the sweep row by row, with the fate of every row looked at, and
what it leaves behind is an induction on it: what is left stands in the
order it came in, a place that was passed is not touched again, and each
artificial basic column costs one swap or one row.

None of this needs arithmetic.
-/
import Mathlib
import TwoPhase.Proofs.Accounting
import TwoPhase.Proofs.Places

namespace TwoPhase

/-- What becomes of a row when artificial columns are driven out. -/
inductive Fate where
  | kept
  | swapped (column : Nat)
  | dropped
deriving DecidableEq, Repr

/-- The basic column that a row is left with, none where the row goes. -/
def Fate.basic (old : Nat) : Fate → Option Nat
  | .kept => some old
  | .swapped j => some j
  | .dropped => none

/-- The basic columns of the rows that remain, in their order. -/
def remaining (basis : List Nat) (fates : List Fate) : List Nat :=
  (List.zipWith Fate.basic basis fates).reduceOption

theorem remaining_concat {basis : List Nat} {fates : List Fate}
    (h : basis.length = fates.length) (b : Nat) (fate : Fate) :
    remaining (basis ++ [b]) (fates ++ [fate])
      = remaining basis fates ++ (fate.basic b).toList := by
  rw [remaining, List.zipWith_append h, List.reduceOption_append]
  cases fate <;> rfl

variable {α : Type}

instance (r : BasicRow α) (columns : List Column) : Decidable (r.IsArtificial columns) :=
  decidable_of_iff (columns[r.basic]?.any (·.IsArtificial)) <| by
    simp [BasicRow.IsArtificial, Option.any_eq_true]

theorem Tableau.not_isArtificial_of_mem_marked {t : Tableau α} {c : Column}
    (hc : c ∈ (t.marked t.realMask).columns) : ¬ c.IsArtificial := by
  have hc : c ∈ keepMarked t.realMask t.columns := hc
  rw [realMask, keepMarked_map] at hc
  exact of_decide_eq_true (List.mem_filter.mp hc).2

variable [Scalar α]

/-! ## The sweep -/

/-- A sweep that set out from `start` has come to the `i`-th row of `run`.  The rows it has
looked at met the given fates, and the swaps on the way were made on the given tableaux and
cells. -/
inductive Swept (tol : α) (start : Run α) :
    Nat → List Fate → List (Tableau α × Cell) → Run α → Prop where
  | start : Swept tol start 0 [] [] start
  /-- The basic column of the row is not artificial. -/
  | keep {i : Nat} {fates : List Fate} {swaps : List (Tableau α × Cell)} {run : Run α}
      {r : BasicRow α} (h : Swept tol start i fates swaps run)
      (hr : run.tableau.rows[i]? = some r) (hreal : ¬ r.IsArtificial run.tableau.columns) :
      Swept tol start (i + 1) (fates ++ [.kept]) swaps run
  /-- The row has an entry beyond the tolerance in a column that is not artificial, and is
  pivoted there. -/
  | swap {i j : Nat} {fates : List Fate} {swaps : List (Tableau α × Cell)} {run : Run α}
      {r : BasicRow α} {v : α} {c : Column} {log : Array (Event α)}
      (h : Swept tol start i fates swaps run) (hr : run.tableau.rows[i]? = some r)
      (hart : r.IsArtificial run.tableau.columns) (hv : r.coeffs[j]? = some v)
      (hc : run.tableau.columns[j]? = some c) (hreal : ¬ c.IsArtificial)
      (hbig : tol < Scalar.abs v) :
      Swept tol start (i + 1) (fates ++ [.swapped j]) (swaps ++ [(run.tableau, ⟨i, j⟩)])
        (run.afterPivot tol 1 r.toRow ⟨i, j⟩ log)
  /-- The row has no entry beyond the tolerance in a column that is not artificial. -/
  | drop {i : Nat} {fates : List Fate} {swaps : List (Tableau α × Cell)} {run : Run α}
      {r : BasicRow α} {log : Array (Event α)}
      (h : Swept tol start i fates swaps run) (hr : run.tableau.rows[i]? = some r)
      (hart : r.IsArtificial run.tableau.columns)
      (hsmall : ∀ (j : Nat) (v : α) (c : Column), r.coeffs[j]? = some v →
        run.tableau.columns[j]? = some c → ¬ c.IsArtificial → ¬ tol < Scalar.abs v) :
      Swept tol start i (fates ++ [.dropped]) swaps { run with
        tableau := { run.tableau with rows := run.tableau.rows.eraseIdx i }, log }

namespace Swept

variable {tol : α} {start run : Run α} {i : Nat} {fates : List Fate}
  {swaps : List (Tableau α × Cell)}

theorem columns_eq (h : Swept tol start i fates swaps run) :
    run.tableau.columns = start.tableau.columns := by
  induction h with
  | start => rfl
  | keep _ _ _ ih => exact ih
  | swap _ _ _ _ _ _ _ ih => exact ih
  | drop _ _ _ _ ih => exact ih

/-- The rows not yet looked at stand behind the `i` rows that remain of the others. -/
structure Splits (start : Run α) (i : Nat) (fates : List Fate)
    (swaps : List (Tableau α × Cell)) (run : Run α) (seen rest : List (BasicRow α)) : Prop where
  rows_eq : start.tableau.rows = seen ++ rest
  length_seen : seen.length = fates.length
  length_remaining : (remaining (seen.map (·.basic)) fates).length = i
  basis_eq : run.tableau.basis = remaining (seen.map (·.basic)) fates ++ rest.map (·.basic)
  /-- Each row with an artificial basic column cost one swap or was dropped. -/
  count_eq : swaps.length + fates.count .dropped
    = seen.countP fun r => r.IsArtificial start.tableau.columns
  length_eq : i + fates.count .dropped = seen.length

namespace Splits

variable {seen rest : List (BasicRow α)} {s : BasicRow α}

omit [Scalar α]

theorem exists_cons (h : Splits start i fates swaps run seen rest)
    (hcolumns : run.tableau.columns = start.tableau.columns) {r : BasicRow α}
    (hr : run.tableau.rows[i]? = some r) :
    ∃ s rest', rest = s :: rest' ∧
      (s.IsArtificial start.tableau.columns ↔ r.IsArtificial run.tableau.columns) := by
  have hbasis : run.tableau.basis[i]? = some r.basic := by
    rw [Tableau.basis, List.getElem?_map, hr]
    rfl
  rw [h.basis_eq, List.getElem?_append_right h.length_remaining.le, h.length_remaining,
    Nat.sub_self] at hbasis
  cases rest with
  | nil => exact absurd hbasis.symm (Option.some_ne_none _)
  | cons s rest' =>
      refine ⟨s, rest', rfl, ?_⟩
      have hs : s.basic = r.basic := Option.some.inj hbasis
      rw [BasicRow.IsArtificial, BasicRow.IsArtificial, hs, hcolumns]

/-- One more row is looked at.  It costs a swap or is dropped if its basic column is
artificial, and costs nothing otherwise. -/
theorem concat (h : Splits start i fates swaps run seen (s :: rest)) (fate : Fate)
    {swaps' : List (Tableau α × Cell)} {run' : Run α}
    (hbasis : run'.tableau.basis = remaining (seen.map (·.basic)) fates ++
      (fate.basic s.basic).toList ++ rest.map (·.basic))
    (hcost : swaps'.length + [fate].count .dropped
      = swaps.length + [s].countP fun r => r.IsArtificial start.tableau.columns)
    (hplace : (fate.basic s.basic).toList.length + [fate].count .dropped = 1) :
    Splits start (i + (fate.basic s.basic).toList.length) (fates ++ [fate]) swaps' run'
      (seen ++ [s]) rest := by
  have hremaining : remaining ((seen ++ [s]).map (·.basic)) (fates ++ [fate])
      = remaining (seen.map (·.basic)) fates ++ (fate.basic s.basic).toList := by
    rw [List.map_append]
    exact remaining_concat ((List.length_map _).trans h.length_seen) s.basic fate
  constructor
  case rows_eq =>
    rw [h.rows_eq, List.append_assoc, List.singleton_append]
  case length_seen =>
    simp [h.length_seen]
  case length_remaining =>
    rw [hremaining, List.length_append, h.length_remaining]
  case basis_eq =>
    rw [hbasis, hremaining]
  case count_eq =>
    rw [List.count_append, List.countP_append, ← h.count_eq]
    omega
  case length_eq =>
    rw [List.count_append, List.length_append, ← h.length_eq, List.length_singleton]
    omega

end Splits

theorem exists_splits (h : Swept tol start i fates swaps run) :
    ∃ seen rest, Splits start i fates swaps run seen rest := by
  induction h with
  | start => exact ⟨[], start.tableau.rows, rfl, rfl, rfl, rfl, rfl, rfl⟩
  | keep h hr hreal ih =>
      obtain ⟨seen, rest, hsplit⟩ := ih
      obtain ⟨s, rest, rfl, hs⟩ := hsplit.exists_cons h.columns_eq hr
      refine ⟨seen ++ [s], rest, hsplit.concat .kept ?_ (by simp [hs, hreal]) rfl⟩
      rw [hsplit.basis_eq, List.append_assoc]
      rfl
  | @swap i j _ _ _ _ _ _ _ h hr hart _ _ _ _ ih =>
      obtain ⟨seen, rest, hsplit⟩ := ih
      obtain ⟨s, rest, rfl, hs⟩ := hsplit.exists_cons h.columns_eq hr
      refine ⟨seen ++ [s], rest, hsplit.concat (.swapped j) ?_ (by simp [hs, hart]) rfl⟩
      rw [Run.afterPivot, Tableau.basis_pivotOn, hsplit.basis_eq,
        List.set_append_right _ _ hsplit.length_remaining.le, hsplit.length_remaining,
        Nat.sub_self, List.append_assoc]
      rfl
  | @drop i _ _ _ _ _ h hr hart _ ih =>
      obtain ⟨seen, rest, hsplit⟩ := ih
      obtain ⟨s, rest, rfl, hs⟩ := hsplit.exists_cons h.columns_eq hr
      refine ⟨seen ++ [s], rest, hsplit.concat .dropped ?_ (by simp [hs, hart]) rfl⟩
      rw [Tableau.basis, ← List.eraseIdx_map, ← Tableau.basis, hsplit.basis_eq,
        List.eraseIdx_append_of_length_le hsplit.length_remaining.le, hsplit.length_remaining,
        Nat.sub_self]
      simp [Fate.basic]

theorem steps_eq (h : Swept tol start i fates swaps run) :
    run.steps.toList = start.steps.toList ++ swaps.map (fun s => ⟨1, s.1, some s.2⟩) ∧
      run.pivots = start.pivots + swaps.length := by
  induction h with
  | start => exact ⟨(List.append_nil _).symm, rfl⟩
  | keep _ _ _ ih => exact ih
  | swap _ _ _ _ _ _ _ ih =>
      obtain ⟨hsteps, hpivots⟩ := ih
      refine ⟨?_, ?_⟩
      · rw [Run.steps_afterPivot, hsteps, List.map_append, List.append_assoc]
        rfl
      · rw [Run.afterPivot, hpivots, List.length_append]
        rfl
  | drop _ _ _ _ ih => exact ih

/-- The swaps were made in places from the first on, in each at most once, and their columns
are basic there. -/
theorem swaps_in_place (h : Swept tol start i fates swaps run) :
    (swaps.Pairwise fun s s' => s.2.row < s'.2.row) ∧
      ∀ s ∈ swaps, s.2.row < i ∧ run.tableau.basis[s.2.row]? = some s.2.column := by
  induction h with
  | start => exact ⟨.nil, nofun⟩
  | keep _ _ _ ih =>
      obtain ⟨hordered, hplaces⟩ := ih
      exact ⟨hordered, fun s hs => ⟨Nat.lt_succ_of_lt (hplaces s hs).1, (hplaces s hs).2⟩⟩
  | @swap i j _ _ run r _ _ _ h hr _ _ _ _ _ ih =>
      obtain ⟨hordered, hplaces⟩ := ih
      have hi : i < run.tableau.basis.length := by
        rw [Tableau.basis, List.length_map]
        exact (List.getElem?_eq_some_iff.mp hr).1
      refine ⟨List.pairwise_append.mpr ⟨hordered, List.pairwise_singleton _ _, ?_⟩, ?_⟩
      · intro s hs s' hs'
        rw [List.mem_singleton.mp hs']
        exact (hplaces s hs).1
      · intro s hs
        rw [Run.afterPivot, Tableau.basis_pivotOn]
        rcases List.mem_append.mp hs with hs | hs
        · obtain ⟨hlt, hbasic⟩ := hplaces s hs
          exact ⟨Nat.lt_succ_of_lt hlt, by rwa [List.getElem?_set_ne hlt.ne']⟩
        · rw [List.mem_singleton.mp hs]
          exact ⟨Nat.lt_succ_self i, List.getElem?_set_self hi⟩
  | @drop i _ _ run _ _ _ _ _ _ ih =>
      obtain ⟨hordered, hplaces⟩ := ih
      refine ⟨hordered, fun s hs => ⟨(hplaces s hs).1, ?_⟩⟩
      -- only places from the `i`-th on move up
      have hsame : (run.tableau.basis.eraseIdx i)[s.2.row]? = run.tableau.basis[s.2.row]? :=
        List.getElem?_eraseIdx_of_lt (hplaces s hs).1
      rw [Tableau.basis, ← List.eraseIdx_map, ← Tableau.basis, hsame]
      exact (hplaces s hs).2

end Swept

/-! ## Driving out -/

/-- What driving the artificial columns out makes of a run, given what becomes of its rows and
which swaps are made. -/
structure DrivenOut (tol : α) (before after : Run α) (fates : List Fate)
    (swaps : List (Tableau α × Cell)) : Prop where
  /-- The rows are looked at up to the last, and then the artificial columns are left out. -/
  swept : ∃ run : Run α, Swept tol before run.tableau.rows.length fates swaps run ∧
    after.tableau = run.tableau.marked run.tableau.realMask
  columns_real : ∀ c ∈ after.tableau.columns, ¬ c.IsArtificial
  basic_real : ∀ r ∈ after.tableau.rows,
    ∃ c, after.tableau.columns[r.basic]? = some c ∧ ¬ c.IsArtificial
  /-- Every row is looked at once. -/
  length_fates : fates.length = before.tableau.rows.length
  /-- The rows that remain are in the order they had. -/
  basis_eq : after.tableau.basis = remaining before.tableau.basis fates
  length_rows : after.tableau.rows.length + fates.count .dropped = before.tableau.rows.length
  /-- Each artificial basic column costs a swap or a row. -/
  count_eq : swaps.length + fates.count .dropped
    = before.tableau.rows.countP fun r => r.IsArtificial before.tableau.columns
  steps_eq : after.steps.toList = before.steps.toList ++ swaps.map fun s => ⟨1, s.1, some s.2⟩
  pivots_eq : after.pivots = before.pivots + swaps.length
  /-- No row that remains is pivoted twice. -/
  once : swaps.Pairwise fun s s' => s.2.row < s'.2.row
  /-- The column swapped in is basic in the row that remains. -/
  in_place : ∀ s ∈ swaps, after.tableau.basis[s.2.row]? = some s.2.column

section DrivenOut

open StandardForm

variable {p : Program α} {tol : α} {before run : Run α} {fates : List Fate}
  {swaps : List (Tableau α × Cell)}

theorem StandardForm.isArtificial_iff_le {j : Nat} {c : Column}
    (hc : (layout p).columns[j]? = some c) : c.IsArtificial ↔ (realColumns p).length ≤ j := by
  rw [columns_layout_eq] at hc
  rcases lt_or_ge j (realColumns p).length with hlt | hge
  · rw [List.getElem?_append_left hlt] at hc
    exact iff_of_false (not_isArtificial_of_mem_realColumns (List.mem_of_getElem? hc))
      (not_le.mpr hlt)
  · rw [List.getElem?_append_right hge] at hc
    exact iff_of_true (isArtificial_of_mem_artificialPart (List.mem_of_getElem? hc)) hge

theorem Tableau.rank_realMask {t : Tableau α} (ht : t.columns = (layout p).columns) {b : Nat}
    (hb : t.realMask[b]? = some true) : rank t.realMask b = b := by
  have hlt : b < t.realMask.length := (List.getElem?_eq_some_iff.mp hb).1
  rw [realMask, List.getElem?_map, Option.map_eq_some_iff, ht] at hb
  obtain ⟨c, hc, hreal⟩ := hb
  have hbreal : b < (realColumns p).length :=
    not_le.mp (mt (isArtificial_iff_le hc).mpr (of_decide_eq_true hreal))
  have hall : ∀ m ∈ t.realMask.take b, true = m := by
    intro m hm
    obtain ⟨k, hk⟩ := List.mem_iff_getElem?.mp hm
    have hkb : k < b := by
      have hkb := (List.getElem?_eq_some_iff.mp hk).1
      rw [List.length_take] at hkb
      omega
    rw [List.getElem?_take_of_lt hkb, realMask, List.getElem?_map, Option.map_eq_some_iff,
      ht] at hk
    obtain ⟨d, hd, rfl⟩ := hk
    exact (decide_eq_true (mt (isArtificial_iff_le hd).mp (not_le.mpr (hkb.trans hbreal)))).symm
  rw [rank, List.count_eq_length.mpr hall, List.length_take, min_eq_left hlt.le]

theorem Tableau.basis_marked_realMask {t : Tableau α} (ht : t.columns = (layout p).columns)
    (hbasic : ∀ r ∈ t.rows, t.realMask[r.basic]? = some true) :
    (t.marked t.realMask).basis = t.basis := by
  rw [basis, marked, basis, List.map_map]
  exact List.map_congr_left fun r hr => rank_realMask ht (hbasic r hr)

theorem Swept.drivenOut (h : Swept tol before run.tableau.rows.length fates swaps run)
    (hcolumns : before.tableau.columns = (layout p).columns) (hshaped : run.tableau.IsShaped)
    (hreal : ∀ r ∈ run.tableau.rows, ¬ r.IsArtificial run.tableau.columns) :
    DrivenOut tol before { run with tableau := run.tableau.marked run.tableau.realMask } fates
      swaps := by
  have hbasic := hshaped.realMask_basic hreal
  have hmarked := hshaped.marked (List.length_map _) hbasic
  have hbasis := Tableau.basis_marked_realMask (h.columns_eq.trans hcolumns) hbasic
  obtain ⟨hsteps, hpivots⟩ := h.steps_eq
  obtain ⟨hordered, hplaces⟩ := h.swaps_in_place
  obtain ⟨seen, rest, hsplit⟩ := h.exists_splits
  -- the rows that remain are as many as were counted, so none is left to look at
  have hrest : rest = [] := by
    have hlen := congrArg List.length hsplit.basis_eq
    rw [List.length_append, hsplit.length_remaining, Tableau.basis, List.length_map,
      List.length_map] at hlen
    exact List.length_eq_zero_iff.mp (by omega)
  obtain rfl : seen = before.tableau.rows := by rw [hsplit.rows_eq, hrest, List.append_nil]
  refine ⟨⟨run, h, rfl⟩, fun c hc => Tableau.not_isArtificial_of_mem_marked hc, ?_,
    hsplit.length_seen.symm, ?_, ?_, hsplit.count_eq, hsteps, hpivots, hordered, ?_⟩
  · intro r hr
    have hc := List.getElem?_eq_getElem (hmarked.basic_lt r hr)
    exact ⟨_, hc, Tableau.not_isArtificial_of_mem_marked (List.getElem_mem _)⟩
  · rw [hbasis, hsplit.basis_eq, hrest]
    exact List.append_nil _
  · rw [← hsplit.length_eq, Tableau.marked, List.length_map]
  · intro s hs
    rw [hbasis]
    exact (hplaces s hs).2

/-- The artificial columns are driven out, or the budget runs out on the way and all columns
are left in place. -/
theorem dropArtificials_drivenOut (tol : α) (limit : Nat) (hshaped : before.tableau.IsShaped)
    (hcolumns : before.tableau.columns = (layout p).columns) :
    Reaches (dropArtificials tol limit before)
      (fun after => ∃ fates swaps, DrivenOut tol before after fates swaps)
      (fun run e => e = .iterationLimit run.pivots ∧
        run.tableau.columns = before.tableau.columns) := by
  refine Reaches.next (P := fun run => (∃ fates swaps,
    Swept tol before run.tableau.rows.length fates swaps run) ∧ run.tableau.IsShaped ∧
      ∀ r ∈ run.tableau.rows, ¬ r.IsArtificial run.tableau.columns) ?_ ?_
  · refine driveOut_reaches (I := fun i run => ∃ fates swaps, Swept tol before i fates swaps run)
      ?_ ?_ ?_ ?_ ?_ _ 0 before ⟨[], [], .start⟩ (.start hshaped)
    · rintro i run r ⟨fates, swaps, h⟩ - hr hreal
      exact ⟨_, _, h.keep hr hreal⟩
    · rintro i j run r log ⟨fates, swaps, h⟩ - hr hart hj -
      obtain ⟨v, c, hv, hc, hreal, hbig⟩ := Tableau.largestColumn_some hj
      exact ⟨_, _, h.swap hr hart hv hc hreal hbig⟩
    · rintro i run r event ⟨fates, swaps, h⟩ - hr hart hnone
      exact ⟨_, _, h.drop hr hart (Tableau.largestColumn_eq_none_iff.mp hnone)⟩
    · rintro i j run r ⟨fates, swaps, h⟩ - - - - -
      exact ⟨rfl, h.columns_eq⟩
    · rintro run h hshaped hreal
      exact ⟨h, hshaped, hreal⟩
  · rintro run ⟨⟨fates, swaps, h⟩, hshaped, hreal⟩
    have hrestrict : run.tableau.restrict run.tableau.realMask
        = .ok (run.tableau.marked run.tableau.realMask) :=
      Tableau.restrict_of_shaped hshaped (List.length_map _) (hshaped.realMask_basic hreal)
    simp only [hrestrict, bind, Except.bind]
    exact .goesOn ⟨fates, swaps, h.drivenOut hcolumns hshaped hreal⟩

end DrivenOut

end TwoPhase
