/-
# `Records` — what a record says, in whichever form it is written

A record is an object, whose members may come in any order and among
others, or an array of their values.  Either way it has values under the
names of its members, and what it says is fixed by these alone: exactly
one under each name, or none where the member may be left out.

A reader of records goes through the members once and keeps what it read
in a state.  All that is used of a single member here is what `Keeps`
states, so that the order, members that no one asked for and the form of
the record are dealt with once for all records.
-/
import Mathlib
import TwoPhase.Proofs.Values

namespace TwoPhase.Json

/-! ## What a record has under a name -/

def Members.entries (members : Members) : List (Option String × Doc) :=
  members.toList.map fun m => (m.1.text?, m.2)

/-- The values in an array with the names that the order gives them. -/
def Items.entries (names : List String) (items : Items) : List (Option String × Doc) :=
  (names.map some).zip items.toList

/-- The values in a record with the names they stand under. -/
def Doc.entries (names : List String) : Doc → List (Option String × Doc)
  | .object members => members.entries
  | .array items => items.entries names
  | .atom _ => []

/-- The values that stand under a name. -/
def valuesUnder (name : String) (entries : List (Option String × Doc)) : List Doc :=
  (entries.filter (·.1 = some name)).map (·.2)

/-- The values that a record has under a name. -/
def Doc.valuesOf (names : List String) (name : String) (d : Doc) : List Doc :=
  valuesUnder name (d.entries names)

/-- An object whose names can all be read, or an array with no more elements than a record has
members. -/
def Doc.Fits (size : Nat) : Doc → Prop
  | .object members => ∀ m ∈ members.toList, m.1.text? ≠ none
  | .array items => items.toList.length ≤ size
  | .atom _ => False

/-- A member of a record: its name, whether it may be left out, and which documents show its
value. -/
structure Part where
  name : String
  omissible : Prop
  shows : Doc → Prop

/-- The document is a record with these members: under each name there is one value, and it is the
right one, or there is none and need not be. -/
structure Doc.Shows (parts : List Part) (d : Doc) : Prop where
  fits : d.Fits parts.length
  value : ∀ p ∈ parts, (∃ v, d.valuesOf (parts.map (·.name)) p.name = [v] ∧ p.shows v) ∨
    p.omissible ∧ d.valuesOf (parts.map (·.name)) p.name = []

def Doc.Repeats (names : List String) (d : Doc) : Prop :=
  ∃ name ∈ names, 2 ≤ (d.valuesOf names name).length

def Doc.Lacks (names required : List String) (d : Doc) : Prop :=
  ∃ name ∈ required, d.valuesOf names name = []

theorem Doc.Shows.not_repeats {parts : List Part} {d : Doc} (h : d.Shows parts) :
    ¬ d.Repeats (parts.map (·.name)) := by
  rintro ⟨name, hname, hlen⟩
  obtain ⟨p, hp, rfl⟩ := List.mem_map.mp hname
  obtain ⟨v, hv, -⟩ | ⟨-, hv⟩ := h.value p hp
  · simp [hv] at hlen
  · simp [hv] at hlen

theorem Doc.Shows.not_lacks {parts : List Part} {d : Doc} (h : d.Shows parts)
    {required : List String}
    (hrequired : ∀ name ∈ required, ∃ p ∈ parts, p.name = name ∧ ¬ p.omissible) :
    ¬ d.Lacks (parts.map (·.name)) required := by
  rintro ⟨name, hname, hnone⟩
  obtain ⟨p, hp, rfl, hneeded⟩ := hrequired name hname
  obtain ⟨v, hv, -⟩ | ⟨homissible, -⟩ := h.value p hp
  · rw [hv] at hnone
    cases hnone
  · exact hneeded homissible

/-! ## The values of a whole record -/

theorem Doc.IsWhole.of_mem_valuesOf {d v : Doc} {names : List String} {name : String}
    (h : d.IsWhole) (hv : v ∈ d.valuesOf names name) : v.IsWhole := by
  obtain ⟨e, he, rfl⟩ := List.mem_map.mp hv
  replace he := (List.mem_filter.mp he).1
  cases d with
  | atom => cases he
  | array items => exact h.of_mem _ (List.of_mem_zip he).2
  | object members =>
      obtain ⟨m, hm, rfl⟩ := List.mem_map.mp he
      exact h.of_mem m hm

theorem exists_value_iff {d : Doc} (hd : d.IsWhole) {names : List String} {name : String}
    {P Q : Doc → Prop} (h : ∀ v, v.IsWhole → (P v ↔ Q v)) :
    (∃ v, d.valuesOf names name = [v] ∧ P v) ↔ ∃ v, d.valuesOf names name = [v] ∧ Q v := by
  refine exists_congr fun v => and_congr_right fun hv => h v ?_
  exact hd.of_mem_valuesOf (hv ▸ List.mem_cons_self)

/-! ## Reading a record -/

/-- What the readers of a record's members have in common.  A member that has been read is set, and
reading it once more would change nothing; whether it can be read does not depend on what was read
before; and no reader meddles with what another one has read. -/
structure Keeps {σ : Type} (fields : List (FieldReader σ)) : Prop where
  nodup : (fields.map (·.name)).Nodup
  again : ∀ f ∈ fields, ∀ {v s s'}, f.read v s = .ok s' → f.isSet s' = true ∧ f.read v s' = .ok s'
  anywhere : ∀ f ∈ fields, ∀ {v s s'}, f.read v s = .ok s' → ∀ s₁, ∃ s₂, f.read v s₁ = .ok s₂
  others : ∀ f ∈ fields, ∀ g ∈ fields, g.name ≠ f.name → ∀ {v s s'}, f.read v s = .ok s' →
    g.isSet s' = g.isSet s ∧ ∀ w, g.read w s = .ok s → g.read w s' = .ok s'

/-- What became of a member that had these values: it is as it was, or it was not set and is now,
to its only value. -/
inductive Took {σ : Type} (f : FieldReader σ) (s s' : σ) : List Doc → Prop
  | none : f.isSet s' = f.isSet s → (∀ w, f.read w s = .ok s → f.read w s' = .ok s') →
      Took f s s' []
  | one {v : Doc} : f.isSet s = false → f.isSet s' = true → f.read v s' = .ok s' →
      Took f s s' [v]

section Record

variable {σ : Type} {fields : List (FieldReader σ)} {f g : FieldReader σ} {s s₁ s' : σ}
  {v : Doc} {vs : List Doc}

theorem Took.refl (f : FieldReader σ) (s : σ) : Took f s s [] := .none rfl fun _ h => h

theorem Keeps.eq_of_name (h : Keeps fields) (hf : f ∈ fields) (hg : g ∈ fields)
    (hname : f.name = g.name) : f = g :=
  List.inj_on_of_nodup_map h.nodup hf hg hname

theorem Took.cons_self (h : Keeps fields) (hf : f ∈ fields) (hset : f.isSet s = false)
    (hread : f.read v s = .ok s₁) (hrest : Took f s₁ s' vs) : Took f s s' (v :: vs) := by
  obtain ⟨hset₁, hagain⟩ := h.again f hf hread
  cases hrest with
  | none hsame hkeeps => exact .one hset (hsame.trans hset₁) (hkeeps v hagain)
  | one hunset => exact nomatch hunset.symm.trans hset₁

theorem Took.of_other (h : Keeps fields) (hf : f ∈ fields) (hg : g ∈ fields)
    (hname : g.name ≠ f.name) (hread : f.read v s = .ok s₁) (hrest : Took g s₁ s' vs) :
    Took g s s' vs := by
  obtain ⟨hsame₁, hkeeps₁⟩ := h.others f hf g hg hname hread
  cases hrest with
  | none hsame hkeeps => exact .none (hsame.trans hsame₁) fun w hw => hkeeps w (hkeeps₁ w hw)
  | one hunset hset hread => exact .one (hsame₁ ▸ hunset) hset hread

end Record

theorem valuesUnder_cons (name : String) (e : Option String × Doc)
    (entries : List (Option String × Doc)) :
    valuesUnder name (e :: entries) =
      if e.1 = some name then e.2 :: valuesUnder name entries else valuesUnder name entries := by
  rw [valuesUnder, List.filter_cons]
  by_cases h : e.1 = some name
  · simp [h, valuesUnder]
  · simp [h, valuesUnder]

theorem valuesUnder_member (n : String) (name : Quoted) (d : Doc) (rest : Members) :
    valuesUnder n (Members.member name d rest).entries =
      if name.text? = some n then d :: valuesUnder n rest.entries
      else valuesUnder n rest.entries := by
  rw [Members.entries, Members.toList, List.map_cons, valuesUnder_cons]
  rfl

theorem valuesUnder_item (n name : String) (names : List String) (d : Doc) (rest : Items) :
    valuesUnder n ((Items.item d rest).entries (name :: names)) =
      if name = n then d :: valuesUnder n (rest.entries names)
      else valuesUnder n (rest.entries names) := by
  rw [Items.entries, Items.toList, List.map_cons, List.zip_cons_cons, valuesUnder_cons]
  simp only [Option.some.injEq, Items.entries]

theorem valuesUnder_closed (n : String) (names : List String) :
    valuesUnder n (Items.closed.entries names) = [] := by
  rw [Items.entries, Items.toList, List.zip_nil_right]
  rfl

mutual

theorem Doc.IsWhole.skip : ∀ {d : Doc}, d.IsWhole → d.skip = .ok ()
  | .atom a, h => by
      cases a with
      | text q =>
          rw [Doc.skip, Atom.skip, Quoted.skip, show q.broken = none from h]
      | broken => exact h.elim
      | absent => exact h.elim
      | _ => rfl
  | .array _, h => Items.IsWhole.skip h
  | .object _, h => Members.IsWhole.skip h

theorem Items.IsWhole.skip : ∀ {items : Items}, items.IsWhole → items.skip = .ok ()
  | .closed, _ => rfl
  | .item _ _, h => by
      rw [Items.skip, Doc.IsWhole.skip h.1, Items.IsWhole.skip h.2]
      rfl

theorem Members.IsWhole.skip : ∀ {members : Members}, members.IsWhole → members.skip = .ok ()
  | .closed, _ => rfl
  | .member name _ _, h => by
      rw [Members.skip, Quoted.skip, h.1, Doc.IsWhole.skip h.2.1, Members.IsWhole.skip h.2.2]
      rfl

end

section Forms

variable {σ : Type} {fields : List (FieldReader σ)}

theorem Members.took_of_readFields (h : Keeps fields) :
    ∀ {members : Members} {s s' : σ}, members.readFields fields s = .ok s' →
      (∀ m ∈ members.toList, m.1.text? ≠ none) ∧
        ∀ f ∈ fields, Took f s s' (valuesUnder f.name members.entries)
  | .closed, s, s', hread => by
      obtain rfl : s = s' := Except.ok.inj hread
      exact ⟨nofun, fun f _ => Took.refl f s⟩
  | .member name d rest, s, s', hread => by
      obtain ⟨n, hn, hread⟩ := bind_eq_ok_iff.mp hread
      have htext := text?_eq_some.mpr hn
      have hnames : (∀ m ∈ rest.toList, m.1.text? ≠ none) →
          ∀ m ∈ (Members.member name d rest).toList, m.1.text? ≠ none := by
        intro hrest
        rw [Members.toList, List.forall_mem_cons]
        exact ⟨by rw [htext]; nofun, hrest⟩
      cases hfind : fields.find? (·.name == n) with
      | none =>
          rw [hfind] at hread
          -- a member of no field is passed over
          obtain ⟨-, -, hread⟩ := bind_eq_ok_iff.mp hread
          obtain ⟨hrest, htook⟩ := took_of_readFields h hread
          refine ⟨hnames hrest, fun f hf => ?_⟩
          have hne : n ≠ f.name := by
            rintro rfl
            simpa using List.find?_eq_none.mp hfind f hf
          rw [valuesUnder_member, htext, if_neg (by simpa using hne)]
          exact htook f hf
      | some g =>
          rw [hfind] at hread
          have hg := List.mem_of_find?_eq_some hfind
          have hname : g.name = n := by simpa using List.find?_some hfind
          cases hset : g.isSet s with
          -- a second value under one name is refused
          | true => simp [hset] at hread
          | false =>
              simp only [hset, Bool.false_eq_true, if_false] at hread
              obtain ⟨s₁, hfirst, hread⟩ := bind_eq_ok_iff.mp hread
              obtain ⟨hrest, htook⟩ := took_of_readFields h hread
              refine ⟨hnames hrest, fun f hf => ?_⟩
              rw [valuesUnder_member, htext]
              by_cases hfg : n = f.name
              · obtain rfl := h.eq_of_name hf hg (hfg.symm.trans hname.symm)
                rw [if_pos (congrArg some hfg)]
                exact Took.cons_self h hf hset hfirst (htook f hf)
              · rw [if_neg (by simpa using hfg)]
                exact Took.of_other h hg hf (fun heq => hfg (hname.symm.trans heq.symm)) hfirst
                  (htook f hf)

theorem Members.exists_readFields (h : Keeps fields) :
    ∀ {members : Members} {s : σ}, members.IsWhole → (∀ m ∈ members.toList, m.1.text? ≠ none) →
      (∀ f ∈ fields, valuesUnder f.name members.entries = [] ∨
        ∃ v, valuesUnder f.name members.entries = [v] ∧ f.isSet s = false ∧
          ∃ s₁ s₂, f.read v s₁ = .ok s₂) →
      ∃ s', members.readFields fields s = .ok s'
  | .closed, s, _, _, _ => ⟨s, rfl⟩
  | .member name d rest, s, hwhole, hnames, hvalues => by
      rw [Members.toList, List.forall_mem_cons] at hnames
      obtain ⟨n, htext⟩ := Option.ne_none_iff_exists'.mp hnames.1
      simp only [valuesUnder_member, htext, Option.some.injEq] at hvalues
      simp only [Members.readFields, text?_eq_some.mp htext, bind, Except.bind]
      cases hfind : fields.find? (·.name == n) with
      | none =>
          have hrest : ∃ s', rest.readFields fields s = .ok s' := by
            refine exists_readFields h hwhole.2.2 hnames.2 fun f hf => ?_
            have hne : n ≠ f.name := by
              rintro rfl
              simpa using List.find?_eq_none.mp hfind f hf
            simpa only [if_neg hne] using hvalues f hf
          simp only [hwhole.2.1.skip]
          exact hrest
      | some g =>
          have hg := List.mem_of_find?_eq_some hfind
          have hname : g.name = n := by simpa using List.find?_some hfind
          have hfirst := hvalues g hg
          rw [if_pos hname.symm] at hfirst
          obtain hnone | ⟨v, hone, hset, s₁, s₂, hread⟩ := hfirst
          · cases hnone
          · obtain ⟨rfl, hlast⟩ := List.cons.inj hone
            obtain ⟨s', hs'⟩ := h.anywhere g hg hread s
            have hrest : ∃ s'', rest.readFields fields s' = .ok s'' := by
              refine exists_readFields h hwhole.2.2 hnames.2 fun f hf => ?_
              by_cases hfg : n = f.name
              · exact .inl (hfg ▸ hname ▸ hlast)
              · have hsame := (h.others g hg f hf (fun heq => hfg (hname.symm.trans heq.symm))
                  hs').1
                rw [hsame]
                simpa only [if_neg hfg] using hvalues f hf
            simp only [hset, Bool.false_eq_true, if_false, hs']
            exact hrest

theorem Items.took_of_readFields (h : Keeps fields) {wanted : Wanted} :
    ∀ {fs : List (FieldReader σ)} {items : Items} {position : Nat} {s s' : σ}, fs ⊆ fields →
      (fs.map (·.name)).Nodup → (∀ f ∈ fs, f.isSet s = false) →
      Items.readFields wanted position fs items s = .ok s' →
      items.toList.length ≤ fs.length ∧
        ∀ f ∈ fields, Took f s s' (valuesUnder f.name (items.entries (fs.map (·.name))))
  | [], .closed, _, s, s', _, _, _, hread => by
      obtain rfl : s = s' := Except.ok.inj hread
      exact ⟨Nat.le_refl 0, fun f _ => Took.refl f s⟩
  | [], .cut _, _, _, _, _, _, _, hread => nomatch hread
  | [], .item _ _, _, _, _, _, _, _, hread => nomatch hread
  | f :: fs, .closed, position, s, s', hsub, hnodup, hset, hread => by
      -- an array may end early if all that it leaves out is optional
      rw [Items.readFields] at hread
      cases hoptional : f.optional with
      | false => simp [hoptional] at hread
      | true =>
          rw [hoptional, if_pos rfl] at hread
          obtain ⟨-, htook⟩ := took_of_readFields h (List.subset_of_cons_subset hsub)
            (List.nodup_cons.mp hnodup).2 (fun g hg => hset g (List.mem_cons_of_mem _ hg)) hread
          refine ⟨Nat.zero_le _, fun g hg => ?_⟩
          have htook := htook g hg
          rwa [valuesUnder_closed] at htook ⊢
  | _ :: _, .cut _, _, _, _, _, _, _, hread => nomatch hread
  | f :: fs, .item d rest, position, s, s', hsub, hnodup, hset, hread => by
      obtain ⟨s₁, hfirst, hread⟩ := bind_eq_ok_iff.mp hread
      rw [List.map_cons, List.nodup_cons] at hnodup
      have hf : f ∈ fields := hsub List.mem_cons_self
      have hne : ∀ g ∈ fs, g.name ≠ f.name := fun g hg heq =>
        hnodup.1 (heq ▸ List.mem_map_of_mem hg)
      have hset₁ : ∀ g ∈ fs, g.isSet s₁ = false := by
        intro g hg
        rw [(h.others f hf g (hsub (List.mem_cons_of_mem _ hg)) (hne g hg) hfirst).1]
        exact hset g (List.mem_cons_of_mem _ hg)
      obtain ⟨hlen, htook⟩ := took_of_readFields h (List.subset_of_cons_subset hsub) hnodup.2
        hset₁ hread
      refine ⟨Nat.succ_le_succ hlen, fun g hg => ?_⟩
      rw [List.map_cons, valuesUnder_item]
      by_cases hfg : f.name = g.name
      · obtain rfl := h.eq_of_name hf hg hfg
        rw [if_pos rfl]
        exact Took.cons_self h hf (hset f List.mem_cons_self) hfirst (htook f hf)
      · rw [if_neg hfg]
        exact Took.of_other h hf hg (Ne.symm hfg) hfirst (htook g hg)

theorem Items.exists_readFields (h : Keeps fields) {wanted : Wanted} :
    ∀ {fs : List (FieldReader σ)} {items : Items} {position : Nat} {s : σ}, fs ⊆ fields →
      (fs.map (·.name)).Nodup → items.IsWhole → items.toList.length ≤ fs.length →
      (∀ f ∈ fs, f.optional = true ∧ valuesUnder f.name (items.entries (fs.map (·.name))) = [] ∨
        ∃ v, valuesUnder f.name (items.entries (fs.map (·.name))) = [v] ∧
          ∃ s₁ s₂, f.read v s₁ = .ok s₂) →
      ∃ s', Items.readFields wanted position fs items s = .ok s'
  | [], .closed, _, s, _, _, _, _, _ => ⟨s, rfl⟩
  | [], .item _ _, _, _, _, _, _, hlen, _ => nomatch hlen
  | f :: fs, .closed, position, s, hsub, hnodup, hwhole, hlen, hvalues => by
      simp only [valuesUnder_closed] at hvalues
      have hoptional : ∀ g ∈ f :: fs, g.optional = true := by
        intro g hg
        obtain ⟨hoptional, -⟩ | ⟨v, hone, -⟩ := hvalues g hg
        · exact hoptional
        · cases hone
      rw [Items.readFields, if_pos (hoptional f List.mem_cons_self)]
      refine exists_readFields h (List.subset_of_cons_subset hsub) (List.nodup_cons.mp hnodup).2
        hwhole (Nat.zero_le _) fun g hg => .inl ⟨hoptional g (List.mem_cons_of_mem _ hg), ?_⟩
      exact valuesUnder_closed _ _
  | f :: fs, .item d rest, position, s, hsub, hnodup, hwhole, hlen, hvalues => by
      rw [List.map_cons, List.nodup_cons] at hnodup
      simp only [List.map_cons, valuesUnder_item] at hvalues
      rw [List.forall_mem_cons, if_pos rfl] at hvalues
      obtain ⟨hfirst, hrest⟩ := hvalues
      obtain ⟨-, hnone⟩ | ⟨v, hone, s₁, s₂, hread⟩ := hfirst
      · cases hnone
      · obtain ⟨rfl, -⟩ := List.cons.inj hone
        obtain ⟨s', hs'⟩ := h.anywhere f (hsub List.mem_cons_self) hread s
        rw [Items.readFields, hs']
        refine exists_readFields h (List.subset_of_cons_subset hsub) hnodup.2 hwhole.2
          (Nat.le_of_succ_le_succ hlen) fun g hg => ?_
        have hne : f.name ≠ g.name := fun heq => hnodup.1 (heq ▸ List.mem_map_of_mem hg)
        simpa only [if_neg hne] using hrest g hg

/-- Reading a record takes the values it has under each name. -/
theorem Doc.took_of_record (h : Keeps fields) {name : String} {blank s : σ} {d : Doc}
    (hblank : ∀ f ∈ fields, f.isSet blank = false) (hread : d.record name fields blank = .ok s) :
    d.Fits fields.length ∧
      ∀ f ∈ fields, Took f blank s (d.valuesOf (fields.map (·.name)) f.name) := by
  cases d with
  | atom a => exact absurd hread (refuse_ne_ok _ _ _)
  | array items => exact Items.took_of_readFields h (List.Subset.refl _) h.nodup hblank hread
  | object members => exact Members.took_of_readFields h hread

/-- A record is read if there is one value under each name, which can be read, or none and that is
allowed. -/
theorem Doc.exists_record (h : Keeps fields) (name : String) {blank : σ} {d : Doc}
    (hblank : ∀ f ∈ fields, f.isSet blank = false) (hwhole : d.IsWhole)
    (hfits : d.Fits fields.length)
    (hvalues : ∀ f ∈ fields, f.optional = true ∧ d.valuesOf (fields.map (·.name)) f.name = [] ∨
      ∃ v, d.valuesOf (fields.map (·.name)) f.name = [v] ∧ ∃ s₁ s₂, f.read v s₁ = .ok s₂) :
    ∃ s, d.record name fields blank = .ok s := by
  cases d with
  | atom a => exact hfits.elim
  | array items =>
      exact Items.exists_readFields h (List.Subset.refl _) h.nodup hwhole hfits hvalues
  | object members =>
      refine Members.exists_readFields h hwhole hfits fun f hf => ?_
      obtain ⟨-, hnone⟩ | ⟨v, hone, hread⟩ := hvalues f hf
      · exact .inl hnone
      · exact .inr ⟨v, hone, hblank f hf, hread⟩

end Forms

end TwoPhase.Json
