/-
# `Values` — what the readers of values take

A number is read from a number, a word from a text or from an object with
nothing but a null under that text, and a list from an array whose
elements are read one by one.  Each reader is described here by the
documents it takes and by what it makes of them.

No reader stops halfway: a document from which anything is read is whole.
-/
import Mathlib
import TwoPhase.Json.Record
import TwoPhase.Proofs.Documents

namespace TwoPhase.Json

/-! ## The parts of a document -/

/-- The elements of an array, as far as it goes. -/
def Items.toList : Items → List Doc
  | .closed => []
  | .cut _ => []
  | .item d rest => d :: rest.toList

/-- The members of an object, as far as it goes. -/
def Members.toList : Members → List (Quoted × Doc)
  | .closed => []
  | .cut _ => []
  | .member name d rest => (name, d) :: rest.toList

/-- What a quoted text says, if it can be read. -/
def Quoted.text? (q : Quoted) : Option String := q.read.toOption

theorem Items.IsWhole.of_mem {items : Items} (h : items.IsWhole) :
    ∀ d ∈ items.toList, d.IsWhole := by
  cases items with
  | closed => exact List.forall_mem_nil _
  | cut _ => exact h.elim
  | item d rest => exact List.forall_mem_cons.mpr ⟨h.1, of_mem h.2⟩

theorem Members.IsWhole.of_mem {members : Members} (h : members.IsWhole) :
    ∀ m ∈ members.toList, m.2.IsWhole := by
  cases members with
  | closed => exact List.forall_mem_nil _
  | cut _ => exact h.elim
  | member name d rest => exact List.forall_mem_cons.mpr ⟨h.2.1, of_mem h.2.2⟩

/-! ## Values by themselves -/

/-- The document is a number that is understood as this double. -/
def Doc.ShowsFloat (x : Float) (d : Doc) : Prop :=
  ∃ n, d = .atom (.number n) ∧ n.quantity.map Quantity.toFloat = some x

/-- The document is a number that is understood as this natural number. -/
def Doc.ShowsCount (k : Nat) (d : Doc) : Prop :=
  ∃ n, d = .atom (.number n) ∧ n.quantity = some (.natural k)

/-- The document is this word, or an object with nothing but a null under this name. -/
def Doc.ShowsWord (word : String) (d : Doc) : Prop :=
  ∃ q : Quoted, q.text? = some word ∧
    (d = .atom (.text q) ∨ d = .object (.member q (.atom .null) .closed))

/-- The document is an array that shows the elements of a list one after another. -/
def Doc.ShowsList {β : Type} (shows : β → Doc → Prop) (xs : List β) (d : Doc) : Prop :=
  ∃ items, d = .array items ∧ List.Forall₂ shows xs items.toList

theorem text?_eq_some {q : Quoted} {s : String} : q.text? = some s ↔ q.read = .ok s := by
  rw [Quoted.text?]
  cases q.read <;> simp [Except.toOption]

theorem found_eq_ok {d : Doc} {f : Found} (h : d.found = .ok f) :
    (∀ q, f = .quantity q → ∃ n, d = .atom (.number n) ∧ n.quantity = some q) ∧
      (f = .null → d = .atom .null) := by
  cases d with
  | atom a =>
      cases a with
      | number n =>
          rw [Doc.found, Atom.found] at h
          cases hq : n.quantity with
          | none => rw [hq] at h; cases h
          | some q =>
              rw [hq] at h
              cases h
              exact ⟨fun _ heq => ⟨n, rfl, by cases heq; exact hq⟩, by rintro ⟨⟩⟩
      | text t =>
          rw [Doc.found, Atom.found] at h
          cases ht : t.read with
          | error r => rw [ht] at h; cases h
          | ok s =>
              rw [ht] at h
              cases h
              exact ⟨by rintro _ ⟨⟩, by rintro ⟨⟩⟩
      | null =>
          cases h
          exact ⟨by rintro _ ⟨⟩, fun _ => rfl⟩
      | bool b =>
          cases h
          exact ⟨by rintro _ ⟨⟩, by rintro ⟨⟩⟩
      | _ => cases h
  | _ =>
      cases h
      exact ⟨by rintro _ ⟨⟩, by rintro ⟨⟩⟩

theorem float_eq_ok_iff {d : Doc} {x : Float} : d.float = .ok x ↔ d.ShowsFloat x := by
  constructor
  · intro h
    obtain ⟨f, hf, hx⟩ := bind_eq_ok_iff.mp h
    cases f with
    | quantity q =>
        obtain ⟨n, hd, hq⟩ := (found_eq_ok hf).1 q rfl
        refine ⟨n, hd, ?_⟩
        rw [hq, Option.map_some]
        exact congrArg some (Except.ok.inj hx)
    | _ => cases hx
  · rintro ⟨n, rfl, hx⟩
    obtain ⟨q, hq, rfl⟩ := Option.map_eq_some_iff.mp hx
    rw [Doc.float, Doc.found, Atom.found, hq]
    rfl

theorem count_eq_ok_iff {d : Doc} {k : Nat} : d.count = .ok k ↔ d.ShowsCount k := by
  constructor
  · intro h
    obtain ⟨f, hf, hk⟩ := bind_eq_ok_iff.mp h
    cases f with
    | quantity q =>
        cases q with
        | natural n =>
            obtain rfl := Except.ok.inj hk
            exact (found_eq_ok hf).1 _ rfl
        | _ => cases hk
    | _ => cases hk
  · rintro ⟨n, rfl, hq⟩
    rw [Doc.count, Doc.found, Atom.found, hq]
    rfl

theorem lookUpWord_eq_ok_iff {β : Type} {words : List (String × β)} {s : String} {v : β} :
    lookUpWord words s = .ok v ↔ words.lookup s = some v := by
  rw [lookUpWord]
  cases words.lookup s with
  | none => exact iff_of_false nofun nofun
  | some w => simp

theorem word_eq_ok_iff {β : Type} {words : List (String × β)} {d : Doc} {v : β} :
    d.word words = .ok v ↔ ∃ s, words.lookup s = some v ∧ d.ShowsWord s := by
  constructor
  · intro h
    unfold Doc.word at h
    split at h
    case h_1 q =>
      obtain ⟨s, hs, hv⟩ := bind_eq_ok_iff.mp h
      exact ⟨s, lookUpWord_eq_ok_iff.mp hv, q, text?_eq_some.mpr hs, .inl rfl⟩
    case h_3 q value rest =>
      obtain ⟨s, hs, h⟩ := bind_eq_ok_iff.mp h
      obtain ⟨w, hw, h⟩ := bind_eq_ok_iff.mp h
      obtain ⟨f, hf, h⟩ := bind_eq_ok_iff.mp h
      cases f with
      | null =>
          obtain rfl := (found_eq_ok hf).2 rfl
          cases rest with
          | closed =>
              obtain rfl : w = v := Except.ok.inj h
              exact ⟨s, lookUpWord_eq_ok_iff.mp hw, q, text?_eq_some.mpr hs, .inr rfl⟩
          | _ => cases h
      | _ => cases h
    all_goals cases h
  · rintro ⟨s, hs, q, hq, rfl | rfl⟩
    · rw [Doc.word, text?_eq_some.mp hq]
      exact lookUpWord_eq_ok_iff.mpr hs
    · rw [Doc.word, text?_eq_some.mp hq]
      refine bind_eq_ok_iff.mpr ⟨s, rfl, bind_eq_ok_iff.mpr ⟨v, lookUpWord_eq_ok_iff.mpr hs, rfl⟩⟩

/-- Elements are read one by one, each by itself. -/
theorem readAll_eq_ok_iff {β : Type} {read : Doc → Except Refusal β} {shows : β → Doc → Prop}
    (hread : ∀ {d x}, d.IsWhole → (read d = .ok x ↔ shows x d)) :
    ∀ {items : Items} {xs : List β}, items.IsWhole →
      (items.readAll read = .ok xs ↔ List.Forall₂ shows xs items.toList)
  | .closed, xs, _ => by
      rw [Items.readAll, Items.toList, List.forall₂_nil_right_iff, Except.ok.injEq, eq_comm]
  | .item d rest, xs, h => by
      rw [Items.readAll, Items.toList, List.forall₂_cons_right_iff, bind_eq_ok_iff]
      refine exists_congr fun x => ?_
      rw [bind_eq_ok_iff, hread h.1]
      constructor
      · rintro ⟨hx, xs', hxs', heq⟩
        exact ⟨xs', hx, (readAll_eq_ok_iff hread h.2).mp hxs', (Except.ok.inj heq).symm⟩
      · rintro ⟨xs', hx, hxs', rfl⟩
        exact ⟨hx, xs', (readAll_eq_ok_iff hread h.2).mpr hxs', rfl⟩

theorem refuse_ne_ok {β : Type} (d : Doc) (wanted : Wanted) (x : β) : d.refuse wanted ≠ .ok x := by
  intro h
  obtain ⟨f, -, h⟩ := bind_eq_ok_iff.mp h
  cases h

theorem list_eq_ok_iff {β : Type} {read : Doc → Except Refusal β} {shows : β → Doc → Prop}
    (hread : ∀ {d x}, d.IsWhole → (read d = .ok x ↔ shows x d)) {d : Doc} {xs : List β}
    (h : d.IsWhole) : d.list read = .ok xs ↔ d.ShowsList shows xs := by
  cases d with
  | array items =>
      refine (readAll_eq_ok_iff hread h).trans ⟨fun hall => ⟨items, rfl, hall⟩, ?_⟩
      rintro ⟨items', heq, hall⟩
      cases heq
      exact hall
  | _ => exact iff_of_false (refuse_ne_ok _ _ _) (by rintro ⟨items, ⟨⟩, -⟩)

/-! ## What is read is whole -/

theorem joinPieces_broken (r : Refusal) (ps : List Piece) :
    ∃ e, joinPieces (some r) ps = .error e := by
  fun_induction joinPieces (some r) ps
  case case1 => contradiction
  case case3 ih | case4 ih | case5 ih | case7 ih =>
    obtain ⟨e, he⟩ := ih
    rw [he]
    exact ⟨e, rfl⟩
  all_goals exact ⟨_, rfl⟩

theorem broken_eq_none_of_text? {q : Quoted} {s : String} (h : q.text? = some s) :
    q.broken = none := by
  cases hq : q.broken with
  | none => rfl
  | some r =>
      obtain ⟨e, he⟩ := joinPieces_broken r q.pieces
      have hread := text?_eq_some.mp h
      rw [Quoted.read, hq, he] at hread
      cases hread

theorem broken_eq_none_of_skip {q : Quoted} (h : q.skip = .ok ()) : q.broken = none := by
  rw [Quoted.skip] at h
  cases hq : q.broken with
  | none => rfl
  | some r => rw [hq] at h; cases h

mutual

theorem Doc.isWhole_of_skip : ∀ {d : Doc}, d.skip = .ok () → d.IsWhole
  | .atom a, h => by
      cases a with
      | text q => exact broken_eq_none_of_skip h
      | broken => cases h
      | absent => cases h
      | _ => trivial
  | .array _, h => Items.isWhole_of_skip h
  | .object _, h => Members.isWhole_of_skip h

theorem Items.isWhole_of_skip : ∀ {items : Items}, items.skip = .ok () → items.IsWhole
  | .closed, _ => trivial
  | .cut _, h => nomatch h
  | .item _ _, h => by
      obtain ⟨⟨⟩, hd, hrest⟩ := bind_eq_ok_iff.mp h
      exact ⟨Doc.isWhole_of_skip hd, Items.isWhole_of_skip hrest⟩

theorem Members.isWhole_of_skip : ∀ {members : Members}, members.skip = .ok () → members.IsWhole
  | .closed, _ => trivial
  | .cut _, h => nomatch h
  | .member _ _ _, h => by
      obtain ⟨⟨⟩, hname, h⟩ := bind_eq_ok_iff.mp h
      obtain ⟨⟨⟩, hd, hrest⟩ := bind_eq_ok_iff.mp h
      exact ⟨broken_eq_none_of_skip hname, Doc.isWhole_of_skip hd, Members.isWhole_of_skip hrest⟩

end

theorem isWhole_of_float {d : Doc} {x : Float} (h : d.float = .ok x) : d.IsWhole := by
  obtain ⟨n, rfl, -⟩ := float_eq_ok_iff.mp h
  trivial

theorem isWhole_of_count {d : Doc} {k : Nat} (h : d.count = .ok k) : d.IsWhole := by
  obtain ⟨n, rfl, -⟩ := count_eq_ok_iff.mp h
  trivial

theorem isWhole_of_word {β : Type} {words : List (String × β)} {d : Doc} {v : β}
    (h : d.word words = .ok v) : d.IsWhole := by
  obtain ⟨s, -, q, hq, rfl | rfl⟩ := word_eq_ok_iff.mp h
  · exact broken_eq_none_of_text? hq
  · exact ⟨broken_eq_none_of_text? hq, trivial, trivial⟩

theorem isWhole_of_readAll {β : Type} {read : Doc → Except Refusal β}
    (hread : ∀ {d x}, read d = .ok x → d.IsWhole) :
    ∀ {items : Items} {xs : List β}, items.readAll read = .ok xs → items.IsWhole
  | .closed, _, _ => trivial
  | .cut _, _, h => nomatch h
  | .item _ _, _, h => by
      obtain ⟨x, hx, h⟩ := bind_eq_ok_iff.mp h
      obtain ⟨xs, hxs, -⟩ := bind_eq_ok_iff.mp h
      exact ⟨hread hx, isWhole_of_readAll hread hxs⟩

theorem isWhole_of_list {β : Type} {read : Doc → Except Refusal β}
    (hread : ∀ {d x}, read d = .ok x → d.IsWhole) {d : Doc} {xs : List β}
    (h : d.list read = .ok xs) : d.IsWhole := by
  cases d with
  | array items => exact isWhole_of_readAll hread h
  | _ => exact absurd h (refuse_ne_ok _ _ _)

section Whole

variable {σ : Type} {fields : List (FieldReader σ)}

theorem Members.isWhole_of_readFields
    (hread : ∀ f ∈ fields, ∀ {v s s'}, f.read v s = .ok s' → v.IsWhole) :
    ∀ {members : Members} {s s' : σ}, members.readFields fields s = .ok s' → members.IsWhole
  | .closed, _, _, _ => trivial
  | .cut _, _, _, h => nomatch h
  | .member name d rest, s, s', h => by
      obtain ⟨n, hn, h⟩ := bind_eq_ok_iff.mp h
      have hname : name.broken = none :=
        broken_eq_none_of_text? (text?_eq_some.mpr hn)
      cases hfind : fields.find? (·.name == n) with
      | none =>
          rw [hfind] at h
          obtain ⟨⟨⟩, hd, h⟩ := bind_eq_ok_iff.mp h
          exact ⟨hname, Doc.isWhole_of_skip hd, isWhole_of_readFields hread h⟩
      | some f =>
          rw [hfind] at h
          cases hset : f.isSet s with
          | true => simp [hset] at h
          | false =>
              simp only [hset, Bool.false_eq_true, if_false] at h
              obtain ⟨s₁, hd, h⟩ := bind_eq_ok_iff.mp h
              exact ⟨hname, hread f (List.mem_of_find?_eq_some hfind) hd,
                isWhole_of_readFields hread h⟩

theorem Items.isWhole_of_readFields {wanted : Wanted} :
    ∀ {fs : List (FieldReader σ)} {items : Items} {position : Nat} {s s' : σ},
      (∀ f ∈ fs, ∀ {v s s'}, f.read v s = .ok s' → v.IsWhole) →
      Items.readFields wanted position fs items s = .ok s' → items.IsWhole
  | _, .closed, _, _, _, _, _ => trivial
  | [], .cut _, _, _, _, _, h => nomatch h
  | [], .item _ _, _, _, _, _, h => nomatch h
  | _ :: _, .cut _, _, _, _, _, h => nomatch h
  | f :: fs, .item d rest, _, s, s', hread, h => by
      obtain ⟨s₁, hd, h⟩ := bind_eq_ok_iff.mp h
      rw [List.forall_mem_cons] at hread
      exact ⟨hread.1 hd, isWhole_of_readFields hread.2 h⟩

/-- Reading a record goes through all of it. -/
theorem Doc.isWhole_of_record (hread : ∀ f ∈ fields, ∀ {v s s'}, f.read v s = .ok s' → v.IsWhole)
    {name : String} {blank s : σ} {d : Doc} (h : d.record name fields blank = .ok s) :
    d.IsWhole := by
  cases d with
  | atom a => exact absurd h (refuse_ne_ok _ _ _)
  | array items => exact Items.isWhole_of_readFields hread h
  | object members => exact Members.isWhole_of_readFields hread h

end Whole

end TwoPhase.Json
