/-
# `Projection` — what is left of a tableau when columns go

Dropping columns keeps of every row the entries at the marked places, in
their order, and the right-hand side behind them.  A basic column is found
again at its rank among the marked ones, so the basis, the basic solution
and the question whether the tableau is canonical survive, whatever the
numbers are.

A tableau may also be kept in three arrays, for the numbers, the basic
columns and the columns, and the columns be dropped there in place: by a
list of the places that stay, and by one that says where each of them goes.
The arrays end as those of the smaller tableau, or stand as they were if
the mask does not fit.
-/
import Mathlib
import TwoPhase.Proofs.Shape
import TwoPhase.Proofs.Solution

namespace TwoPhase

variable {α : Type}

/-! ## The places that stay -/

def markedPlaces (mask : List Bool) : List Nat := (mask.zipIdx.filter (·.1)).map (·.2)

theorem markedPlaces_eq (mask : List Bool) :
    markedPlaces mask = keepMarked mask (List.range mask.length) := by
  rw [markedPlaces, keepMarked, List.zipIdx_eq_zip_range', List.range_eq_range']

theorem mem_markedPlaces {mask : List Bool} {j : Nat} :
    j ∈ markedPlaces mask ↔ mask[j]? = some true := by
  simp [markedPlaces, List.mem_zipIdx_iff_getElem?]

theorem pairwise_markedPlaces (mask : List Bool) : (markedPlaces mask).Pairwise (· < ·) := by
  rw [markedPlaces, List.pairwise_map]
  exact (pairwise_zipIdx_snd mask).filter _

theorem getElem?_markedPlaces_rank {mask : List Bool} {j : Nat} (hj : mask[j]? = some true) :
    (markedPlaces mask)[Tableau.rank mask j]? = some j := by
  have hlt : j < mask.length := (List.getElem?_eq_some_iff.mp hj).1
  rw [markedPlaces_eq, Tableau.getElem?_keepMarked hj, List.getElem?_range hlt]

/-- The `k`-th marked place is the one of rank `k`. -/
theorem getElem?_markedPlaces_iff {mask : List Bool} {j k : Nat} :
    (markedPlaces mask)[k]? = some j ↔ mask[j]? = some true ∧ Tableau.rank mask j = k := by
  constructor
  · intro h
    have hj := mem_markedPlaces.mp (List.mem_of_getElem? h)
    refine ⟨hj, ?_⟩
    have hnodup : (markedPlaces mask).Nodup := (pairwise_markedPlaces mask).imp Nat.ne_of_lt
    have hk : k < (markedPlaces mask).length := (List.getElem?_eq_some_iff.mp h).1
    exact ((List.getElem?_inj hk hnodup).mp (h.trans (getElem?_markedPlaces_rank hj).symm)).symm
  · rintro ⟨hj, rfl⟩
    exact getElem?_markedPlaces_rank hj

theorem rank_inj {mask : List Bool} {i j : Nat} (hi : mask[i]? = some true)
    (hj : mask[j]? = some true) (h : Tableau.rank mask i = Tableau.rank mask j) : i = j := by
  have hsame := getElem?_markedPlaces_rank hi
  rw [h, getElem?_markedPlaces_rank hj] at hsame
  exact (Option.some.inj hsame).symm

theorem getElem?_keepMarked_of_place {β : Type} {mask : List Bool} {xs : List β} {j k : Nat}
    (h : (markedPlaces mask)[k]? = some j) : (keepMarked mask xs)[k]? = xs[j]? := by
  obtain ⟨hj, rfl⟩ := getElem?_markedPlaces_iff.mp h
  exact Tableau.getElem?_keepMarked hj

theorem length_markedPlaces (mask : List Bool) : (markedPlaces mask).length = mask.count true := by
  rw [markedPlaces_eq, length_keepMarked (by simp)]

theorem getElem?_keepMarked_eq_bind {β : Type} {mask : List Bool} {xs : List β}
    (h : mask.length = xs.length) (k : Nat) :
    (keepMarked mask xs)[k]? = (markedPlaces mask)[k]?.bind (xs[·]?) := by
  cases hk : (markedPlaces mask)[k]? with
  | none =>
      refine List.getElem?_eq_none ?_
      rw [length_keepMarked h, ← length_markedPlaces]
      exact List.getElem?_eq_none_iff.mp hk
  | some j => exact getElem?_keepMarked_of_place hk

theorem filterMap_markedPlaces {β : Type} {mask : List Bool} {xs : List β}
    (h : mask.length = xs.length) :
    (markedPlaces mask).filterMap (xs[·]?) = keepMarked mask xs := by
  have hmap : (markedPlaces mask).map (xs[·]?) = (keepMarked mask xs).map some := by
    refine List.ext_getElem? fun k => ?_
    rw [List.getElem?_map, List.getElem?_map, getElem?_keepMarked_eq_bind h]
    cases hk : (markedPlaces mask)[k]? with
    | none => rfl
    | some j =>
        have hj : j < xs.length := by
          rw [← h]
          exact (List.getElem?_eq_some_iff.mp (mem_markedPlaces.mp (List.mem_of_getElem? hk))).1
        rw [Option.map_some, Option.bind_some, List.getElem?_eq_getElem hj]
        rfl
  calc (markedPlaces mask).filterMap (xs[·]?)
    _ = ((markedPlaces mask).map (xs[·]?)).filterMap id := by rw [List.filterMap_map]; rfl
    _ = keepMarked mask xs := by
        rw [hmap, List.filterMap_map]
        exact List.filterMap_some

/-- Writing into a marked place and then keeping what is marked is writing into its rank. -/
theorem keepMarked_set {β : Type} {mask : List Bool} {xs : List β} {j : Nat} (v : β)
    (h : mask.length = xs.length) (hj : mask[j]? = some true) :
    keepMarked mask (xs.set j v) = (keepMarked mask xs).set (Tableau.rank mask j) v := by
  have hset : mask.length = (xs.set j v).length := by rw [List.length_set, h]
  have hj' : j < xs.length := h ▸ (List.getElem?_eq_some_iff.mp hj).1
  refine List.ext_getElem? fun k => ?_
  rw [getElem?_keepMarked_eq_bind hset, List.getElem?_set, getElem?_keepMarked_eq_bind h,
    length_keepMarked h]
  cases hk : (markedPlaces mask)[k]? with
  | none =>
      have hne : Tableau.rank mask j ≠ k := fun hrank =>
        absurd (getElem?_markedPlaces_iff.mpr ⟨hj, hrank⟩) (by simp [hk])
      rw [if_neg hne]
      rfl
  | some i =>
      obtain ⟨hi, rfl⟩ := getElem?_markedPlaces_iff.mp hk
      rw [Option.bind_some, Option.bind_some, List.getElem?_set]
      by_cases hij : j = i
      · subst hij
        rw [if_pos rfl, if_pos rfl, if_pos hj', if_pos (Tableau.rank_lt_count hj)]
      · rw [if_neg hij, if_neg fun hrank => hij (rank_inj hj hi hrank)]

theorem length_foldl_set {β γ : Type} (place : β → Nat) (value : β → γ) (items : List β)
    (values : List γ) :
    (items.foldl (fun values b => values.set (place b) (value b)) values).length
      = values.length := by
  induction items generalizing values with
  | nil => rfl
  | cons b items ih => rw [List.foldl_cons, ih, List.length_set]

namespace Tableau

variable {t : Tableau α} {mask : List Bool}

/-! ## What the smaller tableau shares with the larger -/

theorem allRows_marked (t : Tableau α) (mask : List Bool) :
    (t.marked mask).allRows = t.allRows.map fun r => ⟨keepMarked mask r.coeffs, r.rhs⟩ := by
  simp [allRows, marked]

theorem basis_marked (t : Tableau α) (mask : List Bool) :
    (t.marked mask).basis = t.basis.map (rank mask) := by
  simp [basis, marked]

theorem nodup_basis_marked_iff (hbasic : ∀ j ∈ t.basis, mask[j]? = some true) :
    (t.marked mask).basis.Nodup ↔ t.basis.Nodup := by
  rw [basis_marked]
  constructor
  · exact List.Nodup.of_map _
  · intro h
    exact h.map_on fun i hi j hj heq => rank_inj (hbasic i hi) (hbasic j hj) heq

variable [Scalar α]

theorem basicSolution_marked (ht : t.IsShaped) (hmask : mask.length = t.columns.length)
    (hbasic : ∀ r ∈ t.rows, mask[r.basic]? = some true) :
    (t.marked mask).basicSolution = keepMarked mask <$> t.basicSolution := by
  have hwrite : ∀ (rows : List (BasicRow α)) (values : List α), mask.length = values.length →
      (∀ r ∈ rows, mask[r.basic]? = some true) →
      keepMarked mask (rows.foldl (fun values r => values.set r.basic r.rhs) values) =
        rows.foldl (fun values r => values.set (rank mask r.basic) r.rhs)
          (keepMarked mask values) := by
    intro rows
    induction rows with
    | nil => exact fun values _ _ => rfl
    | cons r rows ih =>
        intro values hlen hrows
        rw [List.foldl_cons, List.foldl_cons,
          ← keepMarked_set r.rhs hlen (hrows r List.mem_cons_self)]
        refine ih _ ?_ fun s hs => hrows s (List.mem_cons_of_mem _ hs)
        rw [List.length_set, hlen]
  have hzeros : keepMarked mask (List.replicate t.columns.length (0 : α)) =
      List.replicate (keepMarked mask t.columns).length 0 := by
    refine List.eq_replicate_iff.mpr ⟨?_, fun v hv => ?_⟩
    · rw [length_keepMarked hmask, length_keepMarked (by simpa using hmask)]
    · obtain ⟨⟨b, w⟩, hmem, rfl⟩ := List.mem_map.mp hv
      exact List.eq_of_mem_replicate (List.of_mem_zip (List.mem_filter.mp hmem).1).2
  rw [basicSolution, basicSolution, require_bind_of (ht.marked hmask hbasic).basic_lt,
    require_bind_of ht.basic_lt]
  show Except.ok _ = Except.ok _
  rw [hwrite t.rows _ (by simpa using hmask) hbasic, hzeros]
  simp only [marked, List.foldl_map]

theorem isCanonical_marked_iff (ht : t.IsShaped) (hmask : mask.length = t.columns.length)
    (hbasic : ∀ r ∈ t.rows, mask[r.basic]? = some true) (tol : α) :
    (t.marked mask).IsCanonical tol ↔ t.IsCanonical tol := by
  have hbasis : ∀ j ∈ t.basis, mask[j]? = some true := by
    intro j hj
    obtain ⟨r, hr, rfl⟩ := List.mem_map.mp hj
    exact hbasic r hr
  have hrows : (t.marked mask).rows.zipIdx = t.rows.zipIdx.map fun q =>
      (⟨⟨keepMarked mask q.1.coeffs, q.1.rhs⟩, rank mask q.1.basic⟩, q.2) := List.zipIdx_map ..
  rw [IsCanonical, IsCanonical, nodup_basis_marked_iff hbasis, hrows, allRows_marked,
    List.zipIdx_map, List.forall_mem_map]
  refine and_congr_right' (forall₂_congr fun q hq => ?_)
  have hr : q.1 ∈ t.rows := List.fst_mem_of_mem_zipIdx hq
  refine and_congr ?_ (and_congr_right' ?_)
  · have hkept := (ht.marked hmask hbasic).basic_lt _ (List.mem_map_of_mem hr)
    exact iff_of_true hkept (ht.basic_lt q.1 hr)
  · rw [List.forall_mem_map]
    refine forall₂_congr fun z hz => ?_
    have hlen := ht.rectangular.length_of_mem_allRows (List.fst_mem_of_mem_zipIdx hz)
    simp only [Prod.map, entry_marked (hmask.trans hlen.symm) (hbasic q.1 hr), id]

end Tableau

/-! ## Dropping columns in place -/

/-- Where each of `n` places goes when only the given ones stay. -/
def newPlaces (n : Nat) (places : List Nat) : List (Option Nat) :=
  places.zipIdx.foldl (fun news q => news.set q.1 (some q.2)) (List.replicate n none)

theorem getElem?_newPlaces {mask : List Bool} {j : Nat} (hj : mask[j]? = some true) :
    (newPlaces mask.length (markedPlaces mask))[j]? = some (some (Tableau.rank mask j)) := by
  have hnodup : ((markedPlaces mask).zipIdx.map Prod.fst).Nodup := by
    rw [List.zipIdx_map_fst]
    exact (pairwise_markedPlaces mask).imp Nat.ne_of_lt
  have hmem : (j, Tableau.rank mask j) ∈ (markedPlaces mask).zipIdx :=
    List.mem_zipIdx_iff_getElem?.mpr (getElem?_markedPlaces_rank hj)
  have hfind : (markedPlaces mask).zipIdx.find? (·.1 == j) = some (j, Tableau.rank mask j) :=
    find?_key_eq_some Prod.fst hnodup hmem
  have hlt : j < mask.length := (List.getElem?_eq_some_iff.mp hj).1
  rw [newPlaces, getElem?_foldl_set Prod.fst (fun q => some q.2) j hnodup, hfind]
  simp [hlt]

/-- A tableau in three arrays: the numbers, the basic columns and the columns. -/
structure Arrays (α : Type) where
  grid : Grid α
  basis : List Nat
  columns : List Column

namespace Arrays

/-- Goes on only where the condition holds. -/
def check (condition : Prop) [Decidable condition] (fault : Fault) :
    EStateM Fault (Arrays α) Unit :=
  unless condition do throw fault

theorem run_check_bind (condition : Prop) [Decidable condition] (fault : Fault)
    (rest : EStateM Fault (Arrays α) Unit) (a : Arrays α) :
    (check condition fault >>= fun _ => rest).run a =
      if condition then rest.run a else .error fault a := by
  by_cases h : condition
  · rw [check, if_pos h, if_pos h]
    rfl
  · rw [check, if_neg h, if_neg h]
    rfl

/-- Drops the columns that the mask does not mark from one array after the other.  What has been
changed when a fault comes up stays changed. -/
def keep (mask : List Bool) : EStateM Fault (Arrays α) Unit := do
  let n := (← get).columns.length
  check (mask.length = n) (.maskCount mask.length n)
  let places := markedPlaces mask
  let news := newPlaces n places
  let basis := (← get).basis
  check (∀ j ∈ basis, mask[j]? = some true) .basicColumnDropped
  modify fun a => { a with
    grid := a.grid.map fun entries => (places ++ [n]).filterMap (entries[·]?) }
  modify fun a => { a with columns := places.filterMap (a.columns[·]?) }
  modify fun a => { a with basis := a.basis.filterMap fun j => (news[j]?).join }

def marked (a : Arrays α) (mask : List Bool) : Arrays α where
  grid := a.grid.map fun entries =>
    (markedPlaces mask ++ [a.columns.length]).filterMap (entries[·]?)
  columns := (markedPlaces mask).filterMap (a.columns[·]?)
  basis := a.basis.filterMap fun j =>
    ((newPlaces a.columns.length (markedPlaces mask))[j]?).join

/-- Either a check fails, and then nothing has been changed, or every array is. -/
theorem run_keep (mask : List Bool) (a : Arrays α) :
    (keep mask).run a =
      if mask.length = a.columns.length then
        if ∀ j ∈ a.basis, mask[j]? = some true then .ok () (a.marked mask)
        else .error .basicColumnDropped a
      else .error (.maskCount mask.length a.columns.length) a := by
  show (check (mask.length = a.columns.length) _ >>= fun _ => get >>= fun b =>
    check (∀ j ∈ b.basis, mask[j]? = some true) _ >>= _).run a = _
  rw [run_check_bind]
  refine if_congr Iff.rfl ?_ rfl
  show (check (∀ j ∈ a.basis, mask[j]? = some true) _ >>= _).run a = _
  rw [run_check_bind]
  rfl

end Arrays

namespace Tableau

def arrays (t : Tableau α) : Arrays α := ⟨t.grid, t.basis, t.columns⟩

theorem filterMap_entries {r : Row α} {mask : List Bool} (h : mask.length = r.coeffs.length) :
    (markedPlaces mask ++ [r.coeffs.length]).filterMap (r.entries[·]?) =
      (⟨keepMarked mask r.coeffs, r.rhs⟩ : Row α).entries := by
  have hcoeffs : (markedPlaces mask).filterMap (r.entries[·]?) = keepMarked mask r.coeffs := by
    rw [← filterMap_markedPlaces h]
    refine List.filterMap_congr fun j hj => ?_
    have hlt : j < r.coeffs.length :=
      h ▸ (List.getElem?_eq_some_iff.mp (mem_markedPlaces.mp hj)).1
    rw [Row.entries, List.getElem?_append_left hlt]
  rw [List.filterMap_append, hcoeffs]
  simp [Row.entries]

theorem arrays_marked {t : Tableau α} (ht : t.IsShaped) {mask : List Bool}
    (hmask : mask.length = t.columns.length)
    (hbasic : ∀ r ∈ t.rows, mask[r.basic]? = some true) :
    (t.marked mask).arrays = t.arrays.marked mask := by
  have hgrid : (t.marked mask).grid = (t.arrays.marked mask).grid := by
    show _ = t.grid.map _
    rw [grid, grid, allRows_marked, List.map_map, List.map_map]
    refine List.map_congr_left fun r hr => ?_
    have hlen := ht.rectangular.length_of_mem_allRows hr
    rw [Function.comp, Function.comp, ← filterMap_entries (hmask.trans hlen.symm), hlen]
    rfl
  have hbasis : (t.marked mask).basis = (t.arrays.marked mask).basis := by
    rw [basis_marked, ← List.filterMap_eq_map]
    refine List.filterMap_congr fun j hj => ?_
    obtain ⟨r, hr, rfl⟩ := List.mem_map.mp hj
    show _ = ((newPlaces t.columns.length _)[_]?).join
    rw [← hmask, getElem?_newPlaces (hbasic r hr)]
    rfl
  have hcolumns : (t.marked mask).columns = (t.arrays.marked mask).columns :=
    (filterMap_markedPlaces hmask).symm
  rw [arrays, hgrid, hbasis, hcolumns]

theorem run_keep_arrays {t : Tableau α} (ht : t.IsShaped) (mask : List Bool) :
    (Arrays.keep mask).run t.arrays = match t.restrict mask with
      | .ok u => .ok () u.arrays
      | .error fault => .error fault t.arrays := by
  have hbasis : (∀ j ∈ t.arrays.basis, mask[j]? = some true) ↔
      ∀ r ∈ t.rows, mask[r.basic]? = some true := List.forall_mem_map
  rw [Arrays.run_keep, restrict, require_bind_of ht.rectangular]
  by_cases hmask : mask.length = t.columns.length
  · rw [require_bind_of hmask]
    refine (if_pos hmask).trans ?_
    by_cases hbasic : ∀ r ∈ t.rows, mask[r.basic]? = some true
    · rw [require_bind_of hbasic, if_pos (hbasis.mpr hbasic), ← arrays_marked ht hmask hbasic]
      rfl
    · rw [require_bind_of_not hbasic, if_neg (mt hbasis.mp hbasic)]
  · rw [require_bind_of_not hmask]
    exact if_neg hmask

variable [Scalar α]

/-- The tableau `u` is `t` with the marked columns only. -/
structure IsProjection (u t : Tableau α) (mask : List Bool) : Prop where
  shaped : u.IsShaped
  /-- The columns are those at the marked places, in their order. -/
  column : ∀ k : Nat, u.columns[k]? = (markedPlaces mask)[k]?.bind (t.columns[·]?)
  length_rows : u.rows.length = t.rows.length
  length_basis : u.basis.length = t.basis.length
  /-- Every row, the objective row included, has the entries of those columns and keeps its
  right-hand side. -/
  row : ∀ (i : Nat) (r s : Row α), t.allRows[i]? = some r → u.allRows[i]? = some s →
    s.rhs = r.rhs ∧ ∀ k : Nat, s.coeffs[k]? = (markedPlaces mask)[k]?.bind (r.coeffs[·]?)
  /-- The basic column of a row is still the same column. -/
  basic : ∀ (i : Nat) (r s : BasicRow α), t.rows[i]? = some r → u.rows[i]? = some s →
    ∃ column, t.columns[r.basic]? = some column ∧ u.columns[s.basic]? = some column
  /-- The basic solution is the old one in those columns. -/
  solution : ∃ values, t.basicSolution = .ok values ∧
    u.basicSolution = .ok ((markedPlaces mask).filterMap (values[·]?))
  canonical : ∀ tol, u.IsCanonical tol ↔ t.IsCanonical tol

theorem isProjection_marked {t : Tableau α} (ht : t.IsShaped) {mask : List Bool}
    (hmask : mask.length = t.columns.length)
    (hbasic : ∀ r ∈ t.rows, mask[r.basic]? = some true) :
    (t.marked mask).IsProjection t mask where
  shaped := ht.marked hmask hbasic
  column k := getElem?_keepMarked_eq_bind hmask k
  length_rows := List.length_map _
  length_basis := by rw [basis_marked, List.length_map]
  row i r s hr hs := by
    have hlen := ht.rectangular.length_of_mem_allRows (List.mem_of_getElem? hr)
    rw [allRows_marked, List.getElem?_map, hr] at hs
    obtain rfl := Option.some.inj hs
    exact ⟨rfl, fun k => getElem?_keepMarked_eq_bind (hmask.trans hlen.symm) k⟩
  basic i r s hr hs := by
    have hrows : (t.marked mask).rows[i]? = _ := List.getElem?_map
    rw [hrows, hr] at hs
    obtain rfl := Option.some.inj hs
    refine ⟨_, List.getElem?_eq_getElem (ht.basic_lt_of_row hr), ?_⟩
    rw [← List.getElem?_eq_getElem]
    exact getElem?_keepMarked (hbasic r (List.mem_of_getElem? hr))
  solution := by
    have hsol : t.basicSolution = .ok (t.rows.foldl (fun values r => values.set r.basic r.rhs)
        (List.replicate t.columns.length 0)) := require_bind_of ht.basic_lt
    refine ⟨_, hsol, ?_⟩
    rw [basicSolution_marked ht hmask hbasic, hsol, filterMap_markedPlaces]
    · rfl
    · rw [length_foldl_set, List.length_replicate, hmask]
  canonical := isCanonical_marked_iff ht hmask hbasic

/-- Dropping columns of a shaped tableau fails exactly if the mask does not have a mark for each
column or leaves a basic column out; otherwise the result is the old tableau with the marked
columns only.  In the arrays of the tableau it comes to the same, and they stand as they were
after a fault. -/
theorem restrict_isProjection {t : Tableau α} (ht : t.IsShaped) (mask : List Bool) :
    ((∃ fault, t.restrict mask = .error fault) ↔
      mask.length ≠ t.columns.length ∨ ∃ r ∈ t.rows, mask[r.basic]? = some false) ∧
    (∀ u, t.restrict mask = .ok u → u.IsProjection t mask) ∧
    (Arrays.keep mask).run t.arrays = match t.restrict mask with
      | .ok u => .ok () u.arrays
      | .error fault => .error fault t.arrays := by
  have hrun := run_keep_arrays ht mask
  by_cases hmask : mask.length = t.columns.length
  · have hdropped : (∃ r ∈ t.rows, mask[r.basic]? = some false) ↔
        ¬ ∀ r ∈ t.rows, mask[r.basic]? = some true := by
      push Not
      refine exists_congr fun r => and_congr_right fun hr => ?_
      rw [List.getElem?_eq_getElem (hmask ▸ ht.basic_lt r hr)]
      simp
    by_cases hbasic : ∀ r ∈ t.rows, mask[r.basic]? = some true
    · have hok := restrict_of_shaped ht hmask hbasic
      refine ⟨?_, ?_, hrun⟩
      · rw [hok]
        exact iff_of_false (by rintro ⟨_, ⟨⟩⟩)
          (not_or_intro (not_not_intro hmask) (mt hdropped.mp (not_not_intro hbasic)))
      · intro u hu
        obtain rfl : t.marked mask = u := Except.ok.inj (hok.symm.trans hu)
        exact isProjection_marked ht hmask hbasic
    · have herror : t.restrict mask = .error .basicColumnDropped := by
        rw [restrict, require_bind_of ht.rectangular, require_bind_of hmask,
          require_bind_of_not hbasic]
      refine ⟨?_, fun u hu => ?_, hrun⟩
      · exact iff_of_true ⟨_, herror⟩ (.inr (hdropped.mpr hbasic))
      · cases herror.symm.trans hu
  · have herror : t.restrict mask = .error (.maskCount mask.length t.columns.length) := by
      rw [restrict, require_bind_of ht.rectangular, require_bind_of_not hmask]
    refine ⟨?_, fun u hu => ?_, hrun⟩
    · exact iff_of_true ⟨_, herror⟩ (.inl hmask)
    · cases herror.symm.trans hu

/-- With gaps in between the basic columns move up by one and by two; without its last column
the tableau would lose a basic one. -/
theorem restrict_isProjection_gaps :
    let t : Tableau ℚ := ⟨[.decision 0, .decision 1, .slack 0, .surplus 1, .artificial 1],
      [⟨⟨[1, 2, 1, 0, 0], 4⟩, 2⟩, ⟨⟨[5, 1, 0, -1, 1], 3⟩, 4⟩], ⟨[-1, -7, 0, 0, 0], 0⟩⟩
    let u : Tableau ℚ := ⟨[.decision 0, .slack 0, .artificial 1],
      [⟨⟨[1, 1, 0], 4⟩, 1⟩, ⟨⟨[5, 0, 1], 3⟩, 2⟩], ⟨[-1, 0, 0], 0⟩⟩
    t.restrict [true, false, true, false, true] = .ok u ∧
      u.IsProjection t [true, false, true, false, true] ∧
      (∃ fault, t.restrict [true, false, true, false, false] = .error fault) := by
  intro t u
  have ht : t.IsShaped := ⟨by decide, by decide⟩
  have hkept : t.restrict [true, false, true, false, true] = .ok u := rfl
  refine ⟨hkept, (restrict_isProjection ht _).2.1 u hkept, ?_⟩
  refine (restrict_isProjection ht _).1.mpr (.inr ⟨⟨⟨[5, 1, 0, -1, 1], 3⟩, 4⟩, ?_, rfl⟩)
  simp [t]

end Tableau

end TwoPhase
