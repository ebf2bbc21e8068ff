/-
# `Members` — records by what is expected of their members

A member is read by one reader, kept at one place of the state and taken
for something where it is left out.  With the value that is expected of
each of them, a list of members says all there is to know of a record, and
reading it comes to these values just if the document shows them.
-/
import Mathlib
import TwoPhase.Proofs.Records

namespace TwoPhase.Json

/-! ## Members by what they are read to -/

/-- The reader of a member that is read by `parse`, put into the state by `put` and found there by
`get`. -/
structure IsSlot {σ β : Type} (f : FieldReader σ) (get : σ → Option β) (put : β → σ → σ)
    (parse : Doc → Except Refusal β) : Prop where
  isSet : ∀ s, f.isSet s = (get s).isSome
  read : ∀ v s, f.read v s = parse v >>= fun x => pure (put x s)
  get_put : ∀ x s, get (put x s) = some x
  put_of_get : ∀ {x s}, get s = some x → put x s = s

section Slot

variable {σ β γ : Type} {f g : FieldReader σ} {get : σ → Option β} {put : β → σ → σ}
  {parse : Doc → Except Refusal β} {get' : σ → Option γ} {put' : γ → σ → σ}
  {parse' : Doc → Except Refusal γ} {blank s s' : σ} {v : Doc} {vs : List Doc} {x : β}

theorem IsSlot.read_eq_ok_iff (hf : IsSlot f get put parse) :
    f.read v s = .ok s' ↔ ∃ x, parse v = .ok x ∧ put x s = s' := by
  rw [hf.read, bind_eq_ok_iff]
  refine exists_congr fun x => and_congr_right' ?_
  exact ⟨Except.ok.inj, congrArg Except.ok⟩

theorem IsSlot.read_self_iff (hf : IsSlot f get put parse) :
    f.read v s = .ok s ↔ ∃ x, parse v = .ok x ∧ get s = some x := by
  rw [hf.read_eq_ok_iff]
  refine exists_congr fun x => and_congr_right' ⟨fun h => ?_, hf.put_of_get⟩
  rw [← h, hf.get_put]

theorem IsSlot.again (hf : IsSlot f get put parse) (h : f.read v s = .ok s') :
    f.isSet s' = true ∧ f.read v s' = .ok s' := by
  obtain ⟨x, hx, rfl⟩ := hf.read_eq_ok_iff.mp h
  rw [hf.isSet, hf.get_put]
  exact ⟨rfl, hf.read_self_iff.mpr ⟨x, hx, hf.get_put x s⟩⟩

theorem IsSlot.exists_read (hf : IsSlot f get put parse) (h : parse v = .ok x) (s : σ) :
    ∃ s₁ s₂, f.read v s₁ = .ok s₂ :=
  ⟨s, put x s, hf.read_eq_ok_iff.mpr ⟨x, h, rfl⟩⟩

theorem IsSlot.anywhere (hf : IsSlot f get put parse) (h : f.read v s = .ok s') (s₁ : σ) :
    ∃ s₂, f.read v s₁ = .ok s₂ := by
  obtain ⟨x, hx, -⟩ := hf.read_eq_ok_iff.mp h
  exact ⟨put x s₁, hf.read_eq_ok_iff.mpr ⟨x, hx, rfl⟩⟩

theorem IsSlot.spares (hf : IsSlot f get put parse) (hg : IsSlot g get' put' parse')
    (h : ∀ x s, get' (put x s) = get' s) (hread : f.read v s = .ok s') :
    g.isSet s' = g.isSet s ∧ ∀ w, g.read w s = .ok s → g.read w s' = .ok s' := by
  obtain ⟨x, -, rfl⟩ := hf.read_eq_ok_iff.mp hread
  rw [hg.isSet, hg.isSet, h]
  refine ⟨rfl, fun w hw => ?_⟩
  obtain ⟨y, hy, hget⟩ := hg.read_self_iff.mp hw
  exact hg.read_self_iff.mpr ⟨y, hy, (h x s).trans hget⟩

/-- A member comes to `x` just if its one value is read to it, or it is not there and `x` is what it
is taken for then. -/
theorem Took.or_eq_some_iff (h : Took f blank s vs) (hf : IsSlot f get put parse)
    (hblank : get blank = .none) (default : Option β) :
    (get s).or default = some x ↔
      (∃ v, vs = [v] ∧ parse v = .ok x) ∨ default = some x ∧ vs = [] := by
  cases h with
  | none hsame =>
      rw [hf.isSet, hf.isSet, hblank, Option.isSome_none, Option.isSome_eq_false_iff,
        Option.isNone_iff_eq_none] at hsame
      simp [hsame]
  | @one v _ _ hread =>
      obtain ⟨y, hy, hget⟩ := hf.read_self_iff.mp hread
      simp [hget, hy]

end Slot

/-! ## Records by their members -/

/-- A member of a record with the value that is expected of it: how it is read, where it is kept,
what it is taken for where it is left out, and which documents show the value. -/
structure Member (σ : Type) where
  {Value : Type}
  {reader : FieldReader σ}
  {get : σ → Option Value}
  {put : Value → σ → σ}
  {parse : Doc → Except Refusal Value}
  slot : IsSlot reader get put parse
  isWhole : ∀ v x, parse v = .ok x → v.IsWhole
  default : Option Value
  optional_eq : reader.optional = default.isSome
  value : Value
  omissible : Prop
  omissible_iff : omissible ↔ default = some value
  shows : Doc → Prop
  parse_iff : ∀ v, v.IsWhole → (parse v = .ok value ↔ shows v)

section Members

variable {σ : Type} {members : List (Member σ)} {blank s : σ} {d : Doc}

def Member.required {β : Type} {f : FieldReader σ} {get : σ → Option β} {put : β → σ → σ}
    {parse : Doc → Except Refusal β} (slot : IsSlot f get put parse)
    (hrequired : f.optional = false) (isWhole : ∀ v x, parse v = .ok x → v.IsWhole) (value : β)
    (shows : Doc → Prop)
    (parse_iff : ∀ v, v.IsWhole → (parse v = .ok value ↔ shows v)) : Member σ where
  slot := slot
  isWhole := isWhole
  default := none
  optional_eq := hrequired
  value := value
  omissible := False
  omissible_iff := iff_of_false id nofun
  shows := shows
  parse_iff := parse_iff

/-- A member that may be left out if it has the value it is taken for then. -/
def Member.omissibleAs {β : Type} {f : FieldReader σ} {get : σ → Option β} {put : β → σ → σ}
    {parse : Doc → Except Refusal β} (default : β) (slot : IsSlot f get put parse)
    (hoptional : f.optional = true) (isWhole : ∀ v x, parse v = .ok x → v.IsWhole) (value : β)
    (shows : Doc → Prop) (parse_iff : ∀ v, v.IsWhole → (parse v = .ok value ↔ shows v)) :
    Member σ where
  slot := slot
  isWhole := isWhole
  default := some default
  optional_eq := hoptional
  value := value
  omissible := value = default
  omissible_iff := by rw [Option.some.injEq, eq_comm]
  shows := shows
  parse_iff := parse_iff

def Member.part (m : Member σ) : Part := ⟨m.reader.name, m.omissible, m.shows⟩

/-- What was read comes to the value that is expected. -/
def Member.IsIn (m : Member σ) (s : σ) : Prop := (m.get s).or m.default = some m.value

section Kinds

variable {β : Type} {f : FieldReader σ} {get : σ → Option β} {put : β → σ → σ}
  {parse : Doc → Except Refusal β} {slot : IsSlot f get put parse} {shows : Doc → Prop}
  {isWhole : ∀ v x, parse v = .ok x → v.IsWhole} {default value : β}
  {parse_iff : ∀ v, v.IsWhole → (parse v = .ok value ↔ shows v)}

theorem Member.isIn_required {hrequired : f.optional = false} :
    (required slot hrequired isWhole value shows parse_iff).IsIn s ↔ get s = some value := by
  simp [IsIn, required]

theorem Member.isIn_omissibleAs {hoptional : f.optional = true} :
    (omissibleAs default slot hoptional isWhole value shows parse_iff).IsIn s ↔
      (get s).getD default = value := by
  simp [IsIn, omissibleAs, Option.or_some]

end Kinds

/-- Members of different names that are kept apart from each other, none of them at first. -/
structure AreApart (members : List (Member σ)) (blank : σ) : Prop where
  nodup : (members.map (·.reader.name)).Nodup
  spares : ∀ m ∈ members, ∀ n ∈ members, n.reader.name ≠ m.reader.name →
    ∀ x s, n.get (m.put x s) = n.get s
  unset : ∀ m ∈ members, m.get blank = none

theorem AreApart.keeps (h : AreApart members blank) : Keeps (members.map (·.reader)) where
  nodup := by
    rw [List.map_map]
    exact h.nodup
  again f hf := by
    obtain ⟨m, -, rfl⟩ := List.mem_map.mp hf
    exact m.slot.again
  anywhere f hf := by
    obtain ⟨m, -, rfl⟩ := List.mem_map.mp hf
    exact m.slot.anywhere
  others f hf g hg hne := by
    obtain ⟨m, hm, rfl⟩ := List.mem_map.mp hf
    obtain ⟨n, hn, rfl⟩ := List.mem_map.mp hg
    exact m.slot.spares n.slot (h.spares m hm n hn hne)

theorem Member.isIn_iff (m : Member σ) (hblank : m.get blank = none) (hd : d.IsWhole)
    {names : List String} (h : Took m.reader blank s (d.valuesOf names m.reader.name)) :
    m.IsIn s ↔ (∃ v, d.valuesOf names m.reader.name = [v] ∧ m.shows v) ∨
      m.omissible ∧ d.valuesOf names m.reader.name = [] := by
  rw [Member.IsIn, h.or_eq_some_iff m.slot hblank, m.omissible_iff,
    exists_value_iff hd m.parse_iff]

/-- A record is read and its members are as expected just if it shows them. -/
theorem Doc.record_iff (h : AreApart members blank) (name : String) (hd : d.IsWhole) :
    (∃ s, d.record name (members.map (·.reader)) blank = .ok s ∧ ∀ m ∈ members, m.IsIn s) ↔
      d.Shows (members.map (·.part)) := by
  have hnames : (members.map (·.part)).map (·.name) = (members.map (·.reader)).map (·.name) := by
    rw [List.map_map, List.map_map]
    rfl
  have hblank : ∀ f ∈ members.map (·.reader), f.isSet blank = false := by
    intro f hf
    obtain ⟨m, hm, rfl⟩ := List.mem_map.mp hf
    rw [m.slot.isSet, h.unset m hm]
    rfl
  constructor
  · rintro ⟨s, hs, hin⟩
    obtain ⟨hfits, htook⟩ := Doc.took_of_record h.keeps hblank hs
    constructor
    · simpa using hfits
    · intro p hp
      obtain ⟨m, hm, rfl⟩ := List.mem_map.mp hp
      rw [hnames]
      exact (m.isIn_iff (h.unset m hm) hd (htook _ (List.mem_map_of_mem hm))).mp (hin m hm)
  · rintro ⟨hfits, hvalue⟩
    have hshown : ∀ m ∈ members, _ := fun m hm => hnames ▸ hvalue m.part (List.mem_map_of_mem hm)
    obtain ⟨s, hs⟩ : ∃ s, d.record name (members.map (·.reader)) blank = .ok s := by
      refine Doc.exists_record h.keeps name hblank hd (by simpa using hfits) fun f hf => ?_
      obtain ⟨m, hm, rfl⟩ := List.mem_map.mp hf
      obtain ⟨v, hv, hshows⟩ | ⟨homissible, hnone⟩ := hshown m hm
      · have hwhole : v.IsWhole := hd.of_mem_valuesOf (hv ▸ List.mem_cons_self)
        exact .inr ⟨v, hv, m.slot.exists_read ((m.parse_iff v hwhole).mpr hshows) blank⟩
      · refine .inl ⟨?_, hnone⟩
        rw [m.optional_eq, m.omissible_iff.mp homissible]
        rfl
    obtain ⟨-, htook⟩ := Doc.took_of_record h.keeps hblank hs
    refine ⟨s, hs, fun m hm => ?_⟩
    exact (m.isIn_iff (h.unset m hm) hd (htook _ (List.mem_map_of_mem hm))).mpr (hshown m hm)

theorem Doc.isWhole_of_members {name : String}
    (h : d.record name (members.map (·.reader)) blank = .ok s) : d.IsWhole := by
  refine Doc.isWhole_of_record (fun f hf => ?_) h
  intro v s s' hread
  obtain ⟨m, -, rfl⟩ := List.mem_map.mp hf
  obtain ⟨x, hx, -⟩ := m.slot.read_eq_ok_iff.mp hread
  exact m.isWhole v x hx

end Members

end TwoPhase.Json
