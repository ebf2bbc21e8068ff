/-
# `Documents` — a document is put together from its own tokens

Every document that breaks off nowhere has its tokens, and the machine
that puts tokens together makes the document of them again, wherever a
value may stand.  By `tokens_append` a text whose tokens are those of a
document is therefore read as that document, whatever blanks stand in it.

In the other direction the machine keeps every token that it takes: a text
that is read as a document which breaks off nowhere has the tokens of that
document and no others.
-/
import Mathlib
import TwoPhase.Json.Record
import TwoPhase.Proofs.Checked
import TwoPhase.Proofs.Tokens

namespace TwoPhase.Json

/-! ## The tokens of a document -/

mutual

def Doc.tokens : Doc → List Token
  | .atom a => [.atom a]
  | .array items => .opening .square :: items.tokens
  | .object members => .opening .curly :: members.tokens

def Items.tokens : Items → List Token
  | .closed => [.closing .square]
  | .cut _ => []
  | .item d rest => d.tokens ++ rest.tokensBehind

def Items.tokensBehind : Items → List Token
  | .closed => [.closing .square]
  | .cut _ => []
  | .item d rest => .comma :: (d.tokens ++ rest.tokensBehind)

def Members.tokens : Members → List Token
  | .closed => [.closing .curly]
  | .cut _ => []
  | .member name d rest => .atom (.text name) :: .colon :: (d.tokens ++ rest.tokensBehind)

def Members.tokensBehind : Members → List Token
  | .closed => [.closing .curly]
  | .cut _ => []
  | .member name d rest =>
      .comma :: .atom (.text name) :: .colon :: (d.tokens ++ rest.tokensBehind)

end

mutual

/-- A document that breaks off nowhere. -/
def Doc.IsWhole : Doc → Prop
  | .atom a => a.IsWhole
  | .array items => items.IsWhole
  | .object members => members.IsWhole

def Items.IsWhole : Items → Prop
  | .closed => True
  | .cut _ => False
  | .item d rest => d.IsWhole ∧ rest.IsWhole

def Members.IsWhole : Members → Prop
  | .closed => True
  | .cut _ => False
  | .member name d rest => name.broken = none ∧ d.IsWhole ∧ rest.IsWhole

end

mutual

theorem Doc.IsWhole.tokens : ∀ {d : Doc}, d.IsWhole → ∀ k ∈ d.tokens, k.IsWhole
  | .atom _, h => by
      rw [Doc.tokens, List.forall_mem_singleton]
      exact h
  | .array _, h => List.forall_mem_cons.mpr ⟨trivial, Items.IsWhole.tokens h⟩
  | .object _, h => List.forall_mem_cons.mpr ⟨trivial, Members.IsWhole.tokens h⟩

theorem Items.IsWhole.tokens : ∀ {items : Items}, items.IsWhole → ∀ k ∈ items.tokens, k.IsWhole
  | .closed, _ => List.forall_mem_singleton.mpr trivial
  | .item _ _, h => List.forall_mem_append.mpr
      ⟨Doc.IsWhole.tokens h.1, Items.IsWhole.tokensBehind h.2⟩

theorem Items.IsWhole.tokensBehind : ∀ {items : Items}, items.IsWhole →
    ∀ k ∈ items.tokensBehind, k.IsWhole
  | .closed, _ => List.forall_mem_singleton.mpr trivial
  | .item _ _, h => by
      simp only [Items.tokensBehind, List.forall_mem_cons, List.forall_mem_append]
      exact ⟨trivial, Doc.IsWhole.tokens h.1, Items.IsWhole.tokensBehind h.2⟩

theorem Members.IsWhole.tokens : ∀ {members : Members}, members.IsWhole →
    ∀ k ∈ members.tokens, k.IsWhole
  | .closed, _ => List.forall_mem_singleton.mpr trivial
  | .member _ _ _, h => by
      simp only [Members.tokens, List.forall_mem_cons, List.forall_mem_append]
      exact ⟨h.1, trivial, Doc.IsWhole.tokens h.2.1, Members.IsWhole.tokensBehind h.2.2⟩

theorem Members.IsWhole.tokensBehind : ∀ {members : Members}, members.IsWhole →
    ∀ k ∈ members.tokensBehind, k.IsWhole
  | .closed, _ => List.forall_mem_singleton.mpr trivial
  | .member _ _ _, h => by
      simp only [Members.tokensBehind, List.forall_mem_cons, List.forall_mem_append]
      exact ⟨trivial, h.1, trivial, Doc.IsWhole.tokens h.2.1, Members.IsWhole.tokensBehind h.2.2⟩

end

namespace Document

theorem resume_firstItem (d : Doc) (ts : List Token) (stack : List Frame) :
    resume (.firstItem stack) (d.tokens ++ ts) =
      resume (.value (.items [] :: stack)) (d.tokens ++ ts) := by
  cases d with
  | atom a => simp only [Doc.tokens, List.cons_append, resume, State.take]
  | array items => cases items <;> simp only [Doc.tokens, List.cons_append, resume, State.take]
  | object members => cases members <;> simp only [Doc.tokens, List.cons_append, resume, State.take]

mutual

/-- A document is put together from its tokens wherever a value may stand. -/
theorem resume_tokens (ts : List Token) (stack : List Frame) : ∀ d : Doc, d.IsWhole →
    resume (.value stack) (d.tokens ++ ts) = resume (.behind d stack) ts
  | .atom a, _ => rfl
  | .array .closed, _ => rfl
  | .array (.item d rest), h => by
      calc resume (.value stack) ((Doc.array (.item d rest)).tokens ++ ts)
        _ = resume (.firstItem stack) (d.tokens ++ (rest.tokensBehind ++ ts)) := by
            rw [← List.append_assoc]; rfl
        _ = resume (.behind d (.items [] :: stack)) (rest.tokensBehind ++ ts) := by
            rw [resume_firstItem, resume_tokens _ _ d h.1]
        _ = resume (.behind (.array (.item d rest)) stack) ts :=
            resume_tokensBehind_items d [] ts stack rest h.2
  | .object .closed, _ => rfl
  | .object (.member name d rest), h => by
      calc resume (.value stack) ((Doc.object (.member name d rest)).tokens ++ ts)
        _ = resume (.value (.member [] name :: stack)) (d.tokens ++ (rest.tokensBehind ++ ts)) := by
            rw [← List.append_assoc]; rfl
        _ = resume (.behind d (.member [] name :: stack)) (rest.tokensBehind ++ ts) := by
            rw [resume_tokens _ _ d h.2.1]
        _ = resume (.behind (.object (.member name d rest)) stack) ts :=
            resume_tokensBehind_members name d [] ts stack rest h.2.2
termination_by structural d => d

theorem resume_tokensBehind_items (d : Doc) (done : List Doc) (ts : List Token)
    (stack : List Frame) : ∀ rest : Items, rest.IsWhole →
    resume (.behind d (.items done :: stack)) (rest.tokensBehind ++ ts) =
      resume (.behind (.array (Items.behind (d :: done) rest)) stack) ts
  | .closed, _ => rfl
  | .item d' rest, h => by
      calc resume (.behind d (.items done :: stack)) ((Items.item d' rest).tokensBehind ++ ts)
        _ = resume (.value (.items (d :: done) :: stack))
              (d'.tokens ++ (rest.tokensBehind ++ ts)) := by
            rw [← List.append_assoc]; rfl
        _ = resume (.behind d' (.items (d :: done) :: stack)) (rest.tokensBehind ++ ts) := by
            rw [resume_tokens _ _ d' h.1]
        _ = resume (.behind (.array (Items.behind (d :: done) (.item d' rest))) stack) ts :=
            resume_tokensBehind_items d' (d :: done) ts stack rest h.2
termination_by structural rest => rest

theorem resume_tokensBehind_members (name : Quoted) (d : Doc) (done : List (Quoted × Doc))
    (ts : List Token) (stack : List Frame) : ∀ rest : Members, rest.IsWhole →
    resume (.behind d (.member done name :: stack)) (rest.tokensBehind ++ ts) =
      resume (.behind (.object (Members.behind ((name, d) :: done) rest)) stack) ts
  | .closed, _ => rfl
  | .member name' d' rest, h => by
      calc resume (.behind d (.member done name :: stack))
            ((Members.member name' d' rest).tokensBehind ++ ts)
        _ = resume (.value (.member ((name, d) :: done) name' :: stack))
              (d'.tokens ++ (rest.tokensBehind ++ ts)) := by
            rw [← List.append_assoc]; rfl
        _ = resume (.behind d' (.member ((name, d) :: done) name' :: stack))
              (rest.tokensBehind ++ ts) := by
            rw [resume_tokens _ _ d' h.2.1]
        _ = resume (.behind (.object (Members.behind ((name, d) :: done) (.member name' d' rest)))
              stack) ts :=
            resume_tokensBehind_members name' d' ((name, d) :: done) ts stack rest h.2.2
termination_by structural rest => rest

end

theorem ofText_eq {text : String} {d : Doc} (hd : d.IsWhole)
    (h : Json.tokens text.toList = d.tokens) : ofText text = ⟨d, false⟩ := by
  rw [ofText, ofTokens, h, ← List.append_nil d.tokens, resume_tokens _ _ d hd]
  rfl

end Document

/-! ## What a text holds -/

/-- A text whose tokens are those of a document holds what the document does. -/
theorem readText_eq {β : Type} (read : Doc → Except Refusal β) {text : String} {d : Doc}
    (hd : d.IsWhole) (h : tokens text.toList = d.tokens) : readText read text = read d := by
  rw [readText, Document.ofText_eq hd h]
  cases read d <;> rfl

theorem ofText_of_readText {β : Type} {read : Doc → Except Refusal β} {text : String} {x : β}
    (h : readText read text = .ok x) :
    ∃ root, Document.ofText text = ⟨root, false⟩ ∧ read root = .ok x := by
  rw [readText] at h
  rcases hdoc : Document.ofText text with ⟨root, trailing⟩
  obtain ⟨y, hy, h⟩ := bind_eq_ok_iff.mp h
  rw [hdoc] at hy h
  cases trailing with
  | true => cases h
  | false =>
      cases h
      exact ⟨root, rfl, hy⟩

/-! ## The tokens of a text that holds a document -/

/-- Elements, the last one first, with a comma behind each of them. -/
def itemsTaken (done : List Doc) : List Token :=
  done.reverse.flatMap fun d => d.tokens ++ [.comma]

/-- Members, the last one first, with a comma behind each of them. -/
def membersTaken (done : List (Quoted × Doc)) : List Token :=
  done.reverse.flatMap fun m => .atom (.text m.1) :: .colon :: m.2.tokens ++ [.comma]

/-- The tokens of an array or object up to the value that is being read. -/
def Frame.taken : Frame → List Token
  | .items done => .opening .square :: itemsTaken done
  | .member done name => .opening .curly :: (membersTaken done ++ [.atom (.text name), .colon])

def stackTaken (stack : List Frame) : List Token := stack.reverse.flatMap Frame.taken

/-- The tokens that have been taken so far. -/
def State.taken : State → List Token
  | .value stack => stackTaken stack
  | .firstItem stack => stackTaken stack ++ [.opening .square]
  | .firstName stack => stackTaken stack ++ [.opening .curly]
  | .name done stack => stackTaken stack ++ .opening .curly :: membersTaken done
  | .colon done key stack =>
      stackTaken stack ++ .opening .curly :: (membersTaken done ++ [.atom (.text key)])
  | .behind d stack => stackTaken stack ++ d.tokens

theorem itemsTaken_cons (d : Doc) (done : List Doc) :
    itemsTaken (d :: done) = itemsTaken done ++ (d.tokens ++ [.comma]) := by
  simp [itemsTaken]

theorem membersTaken_cons (name : Quoted) (d : Doc) (done : List (Quoted × Doc)) :
    membersTaken ((name, d) :: done) =
      membersTaken done ++ .atom (.text name) :: .colon :: (d.tokens ++ [.comma]) := by
  simp [membersTaken]

theorem stackTaken_cons (frame : Frame) (stack : List Frame) :
    stackTaken (frame :: stack) = stackTaken stack ++ frame.taken := by
  simp [stackTaken]

theorem tokens_behind_items (d : Doc) (done : List Doc) (rest : Items) :
    (Items.behind (d :: done) rest).tokens =
      itemsTaken done ++ (d.tokens ++ rest.tokensBehind) := by
  induction done generalizing d rest with
  | nil => rfl
  | cons e done ih =>
      have hbehind : Items.behind (d :: e :: done) rest = Items.behind (e :: done) (.item d rest) :=
        rfl
      rw [hbehind, ih, itemsTaken_cons, Items.tokensBehind]
      simp only [List.append_assoc, List.singleton_append]

theorem tokens_behind_members (name : Quoted) (d : Doc) (done : List (Quoted × Doc))
    (rest : Members) :
    (Members.behind ((name, d) :: done) rest).tokens =
      membersTaken done ++ .atom (.text name) :: .colon :: (d.tokens ++ rest.tokensBehind) := by
  induction done generalizing name d rest with
  | nil => rfl
  | cons m done ih =>
      have hbehind : Members.behind ((name, d) :: m :: done) rest =
          Members.behind (m :: done) (.member name d rest) := rfl
      rw [hbehind, ih, membersTaken_cons, Members.tokensBehind]
      simp only [List.append_assoc, List.cons_append, List.nil_append]

theorem takeValue_taken {stack : List Frame} {t : Token} {s : State}
    (h : State.takeValue stack t = .ok s) : s.taken = stackTaken stack ++ [t] := by
  unfold State.takeValue at h
  split at h <;> cases h <;> rfl

theorem takeName_taken {done : List (Quoted × Doc)} {stack : List Frame} {t : Token} {s : State}
    (h : State.takeName done stack t = .ok s) :
    s.taken = stackTaken stack ++ .opening .curly :: (membersTaken done ++ [t]) := by
  unfold State.takeName at h
  split at h <;> cases h
  rfl

/-- Every token that is taken is accounted for. -/
theorem take_taken {s s' : State} {t : Token} (h : s.take t = .ok s') :
    s'.taken = s.taken ++ [t] := by
  unfold State.take at h
  split at h
  case h_1 => exact takeValue_taken h
  case h_3 =>
    rw [takeValue_taken h, stackTaken_cons]
    rfl
  case h_5 => rw [takeName_taken h]; simp [State.taken, membersTaken]
  case h_6 => rw [takeName_taken h]; simp [State.taken]
  all_goals
    cases h
    try simp [State.taken, stackTaken_cons, Frame.taken, itemsTaken_cons, membersTaken_cons,
      tokens_behind_items, tokens_behind_members, Doc.tokens, Items.tokens, Members.tokens,
      Items.tokensBehind, Members.tokensBehind]

theorem isWhole_of_behind_items (done : List Doc) {rest : Items}
    (h : (Items.behind done rest).IsWhole) : rest.IsWhole := by
  induction done generalizing rest with
  | nil => exact h
  | cons d done ih => exact (ih h).2

theorem isWhole_of_behind_members (done : List (Quoted × Doc)) {rest : Members}
    (h : (Members.behind done rest).IsWhole) : rest.IsWhole := by
  induction done generalizing rest with
  | nil => exact h
  | cons m done ih => exact (ih h).2.2

theorem not_isWhole_cutBehind (why : Refusal) (d : Doc) (frame : Frame) :
    ¬ (frame.cutBehind why d).IsWhole := by
  cases frame with
  | items done => exact fun h => isWhole_of_behind_items (d :: done) h
  | member done name => exact fun h => isWhole_of_behind_members ((name, d) :: done) h

theorem isWhole_of_breakOff {stack : List Frame} {d : Doc} (h : (breakOff stack d).IsWhole) :
    stack = [] ∧ d.IsWhole := by
  induction stack generalizing d with
  | nil => exact ⟨rfl, h⟩
  | cons frame stack ih => exact absurd (ih h).2 (not_isWhole_cutBehind _ d frame)

theorem not_isWhole_finish {s : State} (hs : ∀ d, s ≠ .behind d []) : ¬ s.finish.IsWhole := by
  intro h
  cases s with
  | value stack => exact (isWhole_of_breakOff h).2
  | firstItem stack => exact (isWhole_of_breakOff h).2
  | firstName stack => exact (isWhole_of_breakOff h).2
  | name done stack =>
      exact (isWhole_of_behind_members done (isWhole_of_breakOff h).2).2.1
  | colon done name stack => exact nomatch (isWhole_of_breakOff h).1
  | behind d stack => exact hs d ((isWhole_of_breakOff h).1 ▸ rfl)

theorem not_isWhole_takeValue {stack : List Frame} {t : Token} {d : Doc}
    (h : State.takeValue stack t = .error d) : ¬ d.IsWhole := by
  unfold State.takeValue at h
  split at h <;> cases h
  exact fun h => (isWhole_of_breakOff h).2

theorem not_isWhole_takeName {done : List (Quoted × Doc)} {stack : List Frame} {t : Token} {d : Doc}
    (h : State.takeName done stack t = .error d) : ¬ d.IsWhole := by
  unfold State.takeName at h
  split at h <;> cases h
  exact fun h => isWhole_of_behind_members done (isWhole_of_breakOff h).2

theorem not_isWhole_take {s : State} {t : Token} {d : Doc} (hs : ∀ d, s ≠ .behind d [])
    (h : s.take t = .error d) : ¬ d.IsWhole := by
  unfold State.take at h
  split at h
  case h_1 => exact not_isWhole_takeValue h
  case h_3 => exact not_isWhole_takeValue h
  case h_5 => exact not_isWhole_takeName h
  case h_6 => exact not_isWhole_takeName h
  all_goals cases h
  · exact fun h => nomatch (isWhole_of_breakOff h).1
  · exact fun h => not_isWhole_cutBehind _ _ _ (isWhole_of_breakOff h).2
  · exact absurd rfl (hs d)

theorem resume_nil_of_ne {s : State} (hs : ∀ d, s ≠ .behind d []) :
    Document.resume s [] = ⟨s.finish, false⟩ := by
  cases s with
  | behind d stack =>
      cases stack with
      | nil => exact absurd rfl (hs d)
      | cons => rfl
  | _ => rfl

theorem resume_cons_of_ne {s : State} (hs : ∀ d, s ≠ .behind d []) (t : Token) (ts : List Token) :
    Document.resume s (t :: ts) = match s.take t with
      | .ok s => Document.resume s ts
      | .error d => ⟨d, false⟩ := by
  cases s with
  | behind d stack =>
      cases stack with
      | nil => exact absurd rfl (hs d)
      | cons => rfl
  | _ => rfl

theorem taken_of_resume {s : State} {ts : List Token} {d : Doc} (hd : d.IsWhole)
    (h : Document.resume s ts = ⟨d, false⟩) : s.taken ++ ts = d.tokens := by
  induction ts generalizing s with
  | nil =>
      by_cases hs : ∃ d', s = .behind d' []
      · obtain ⟨d', rfl⟩ := hs
        cases h
        exact List.append_nil _
      · rw [not_exists] at hs
        rw [resume_nil_of_ne hs] at h
        cases h
        exact absurd hd (not_isWhole_finish hs)
  | cons t ts ih =>
      by_cases hs : ∃ d', s = .behind d' []
      · obtain ⟨d', rfl⟩ := hs
        cases h
      · rw [not_exists] at hs
        rw [resume_cons_of_ne hs] at h
        cases htake : s.take t with
        | ok s' =>
            rw [htake] at h
            rw [← ih h, take_taken htake, List.append_assoc, List.singleton_append]
        | error e =>
            rw [htake] at h
            cases h
            exact absurd hd (not_isWhole_take hs htake)

/-- A text that is read as a whole document has the tokens of that document. -/
theorem tokens_of_ofText {text : String} {d : Doc} (hd : d.IsWhole)
    (h : Document.ofText text = ⟨d, false⟩) : tokens text.toList = d.tokens :=
  taken_of_resume hd h

theorem number_of_float {d : Doc} {x : Float} (h : d.float = .ok x) :
    ∃ n, d = .atom (.number n) := by
  cases d with
  | atom a =>
      cases a with
      | number n => exact ⟨n, rfl⟩
      | text q =>
          rw [Doc.float, Doc.found, Atom.found] at h
          cases hq : q.read with
          | error r => rw [hq] at h; cases h
          | ok s => rw [hq] at h; cases h
      | _ => cases h
  | _ => cases h

theorem tokens_of_readText_float {text : String} {x : Float}
    (h : readText Doc.float text = .ok x) :
    ∃ n, tokens text.toList = [.atom (.number n)] ∧ Doc.float (.atom (.number n)) = .ok x := by
  obtain ⟨root, hdoc, hroot⟩ := ofText_of_readText h
  obtain ⟨n, rfl⟩ := number_of_float hroot
  exact ⟨n, tokens_of_ofText (d := .atom (.number n)) trivial hdoc, hroot⟩

end TwoPhase.Json
