/-
# `Grammar` — which texts hold a document

What the characters of a number, a word or a quoted text may be is said
here as a grammar, without a scanner.  A text holds a document if it
spells the document's tokens one after another, with any blanks in front
of them, between them and at the end.

The tokenizer finds the tokens of every such text, although nothing marks
where one of them ends: in a document a value never follows a value, so
that behind a number there is a blank, a mark or the end.
-/
import Mathlib
import TwoPhase.Proofs.Compact

namespace TwoPhase.Json

/-! ## Spelling -/

def IsDigits (ds : List Nat) : Prop := ds ≠ [] ∧ ∀ d ∈ ds, d < 10

def digitChars (ds : List Nat) : List Char := ds.map Nat.digitChar

/-- A fraction is a point and digits. -/
inductive FractionSpelled : Option (List Nat) → List Char → Prop
  | none : FractionSpelled none []
  | some {ds : List Nat} : IsDigits ds → FractionSpelled (some ds) ('.' :: digitChars ds)

/-- An exponent is a letter of either case, a sign where one is wanted, and digits. -/
inductive ExponentSpelled : Option (Bool × List Nat) → List Char → Prop
  | none : ExponentSpelled none []
  | unsigned {mark : Char} {ds : List Nat} : mark = 'e' ∨ mark = 'E' → IsDigits ds →
      ExponentSpelled (some (false, ds)) (mark :: digitChars ds)
  | plus {mark : Char} {ds : List Nat} : mark = 'e' ∨ mark = 'E' → IsDigits ds →
      ExponentSpelled (some (false, ds)) (mark :: '+' :: digitChars ds)
  | minus {mark : Char} {ds : List Nat} : mark = 'e' ∨ mark = 'E' → IsDigits ds →
      ExponentSpelled (some (true, ds)) (mark :: '-' :: digitChars ds)

/-- A number is its digits, of which a leading zero stands alone, with a minus in front if it is
negative, and a fraction and an exponent behind. -/
inductive NumberSpelled : Number → List Char → Prop
  | mk {n : Number} {f e : List Char} : IsDigits n.whole → (∀ d rest, n.whole ≠ 0 :: d :: rest) →
      FractionSpelled n.fraction f → ExponentSpelled n.exponent e →
      NumberSpelled n ((if n.negative then ['-'] else []) ++ (digitChars n.whole ++ (f ++ e)))

/-- A piece of a quoted text is a character by itself or an escape. -/
inductive PieceSpelled : Piece → List Char → Prop
  | plain {c : Char} : c ≠ '"' → c ≠ '\\' → ¬ c.toNat < 0x20 → PieceSpelled (.char c) [c]
  | letter {l c : Char} : unescaped? l = some c → PieceSpelled (.char c) ['\\', l]
  | unit {a b c d : Char} {n : Nat} : unitOf? a b c d = some n →
      PieceSpelled (.unit n) ['\\', 'u', a, b, c, d]

inductive PiecesSpelled : List Piece → List Char → Prop
  | nil : PiecesSpelled [] []
  | cons {p : Piece} {ps : List Piece} {s t : List Char} : PieceSpelled p s → PiecesSpelled ps t →
      PiecesSpelled (p :: ps) (s ++ t)

/-- An atom is one of three words, a number, or pieces between quotes. -/
inductive AtomSpelled : Atom → List Char → Prop
  | null : AtomSpelled .null ['n', 'u', 'l', 'l']
  | true : AtomSpelled (.bool true) ['t', 'r', 'u', 'e']
  | false : AtomSpelled (.bool false) ['f', 'a', 'l', 's', 'e']
  | number {n : Number} {s : List Char} : NumberSpelled n s → AtomSpelled (.number n) s
  | text {ps : List Piece} {s : List Char} : PiecesSpelled ps s →
      AtomSpelled (.text ⟨ps, none⟩) ('"' :: (s ++ ['"']))

def Token.mark? : Token → Option Char
  | .opening .square => some '['
  | .opening .curly => some '\x7b'
  | .closing .square => some ']'
  | .closing .curly => some '\x7d'
  | .comma => some ','
  | .colon => some ':'
  | .atom _ => none

inductive TokenSpelled : Token → List Char → Prop
  | mark {k : Token} {c : Char} : k.mark? = some c → TokenSpelled k [c]
  | atom {a : Atom} {s : List Char} : AtomSpelled a s → TokenSpelled (.atom a) s

/-- Tokens one after another with any blanks around them. -/
inductive Spelled : List Token → List Char → Prop
  | nil {s : List Char} : (∀ c ∈ s, isBlank c = true) → Spelled [] s
  | cons {k : Token} {ks : List Token} {b s r : List Char} : (∀ c ∈ b, isBlank c = true) →
      TokenSpelled k s → Spelled ks r → Spelled (k :: ks) (b ++ (s ++ r))

/-- The text is one whole document. -/
def Doc.IsHeldBy (d : Doc) (text : String) : Prop := d.IsWhole ∧ Spelled d.tokens text.toList

/-! ## Numbers -/

theorem digitChar_isDigit {d : Nat} (hd : d < 10) :
    d.digitChar.isDigit = true ∧ d.digitChar.toNat - '0'.toNat = d := by
  interval_cases d <;> decide

theorem splitDigits_digitChars {ds : List Nat} (hds : ∀ d ∈ ds, d < 10) {t : List Char}
    (ht : ∀ c ∈ t.head?, c.isDigit = false) : splitDigits (digitChars ds ++ t) = (ds, t) := by
  induction ds with
  | nil =>
      cases t with
      | nil => rfl
      | cons c t => simp [digitChars, splitDigits, ht c rfl]
  | cons d ds ih =>
      obtain ⟨hd, hrest⟩ := List.forall_mem_cons.mp hds
      have ih := ih hrest
      obtain ⟨hdigit, hvalue⟩ := digitChar_isDigit hd
      simp only [splitDigits, digitChars, Prod.mk.injEq] at ih ⊢
      simp only [List.map_cons, List.cons_append, List.takeWhile_cons, List.dropWhile_cons, hdigit,
        if_true, hvalue, ih, and_self]

theorem splitDigits_digitChars_nil {ds : List Nat} (hds : ∀ d ∈ ds, d < 10) :
    splitDigits (digitChars ds) = (ds, []) := by
  have h := splitDigits_digitChars hds (t := []) nofun
  rwa [List.append_nil] at h

theorem scanExponentDigits_digitChars (minus : Bool) {ds : List Nat} (hds : IsDigits ds) :
    scanExponentDigits minus (digitChars ds) = .ok (some (minus, ds), []) := by
  rw [scanExponentDigits, splitDigits_digitChars_nil hds.2]
  cases ds with
  | nil => exact absurd rfl hds.1
  | cons d ds => rfl

theorem scanSignedExponent_digitChars {ds : List Nat} (hds : IsDigits ds) :
    scanSignedExponent (digitChars ds) = .ok (some (false, ds), []) := by
  cases ds with
  | nil => exact absurd rfl hds.1
  | cons d ds =>
      have hdigit := (digitChar_isDigit (hds.2 d List.mem_cons_self)).1
      have hsign : ∀ sign : Char, sign.isDigit = false → ∀ s' : List Char,
          d.digitChar :: digitChars ds = sign :: s' → False := by
        intro sign hsign s' heq
        rw [← (List.cons.inj heq).1, hdigit] at hsign
        cases hsign
      rw [← scanExponentDigits_digitChars false hds]
      exact scanSignedExponent.eq_3 _ (hsign '+' rfl) (hsign '-' rfl)

theorem scanExponent_of_spelled {e : Option (Bool × List Nat)} {s : List Char}
    (h : ExponentSpelled e s) : scanExponent s = .ok (e, []) := by
  cases h with
  | none => rfl
  | unsigned hmark hds => rcases hmark with rfl | rfl <;> exact scanSignedExponent_digitChars hds
  | plus hmark hds => rcases hmark with rfl | rfl <;> exact scanExponentDigits_digitChars false hds
  | minus hmark hds => rcases hmark with rfl | rfl <;> exact scanExponentDigits_digitChars true hds

theorem head_exponent {e : Option (Bool × List Nat)} {s : List Char} (h : ExponentSpelled e s) :
    ∀ c ∈ s.head?, c.isDigit = false ∧ c ≠ '.' := by
  intro c hc
  cases h with
  | none => cases hc
  | unsigned hmark | plus hmark | minus hmark =>
      obtain rfl := Option.some.inj hc
      rcases hmark with rfl | rfl <;> decide

theorem scanFraction_of_spelled {f : Option (List Nat)} {s t : List Char}
    (h : FractionSpelled f s) (ht : ∀ c ∈ t.head?, c.isDigit = false ∧ c ≠ '.') :
    scanFraction (s ++ t) = .ok (f, t) := by
  cases h with
  | none =>
      rw [List.nil_append]
      unfold scanFraction
      split
      · exact absurd rfl (ht '.' rfl).2
      · rfl
  | some hds =>
      rename_i ds
      rw [List.cons_append, scanFraction, splitDigits_digitChars hds.2 fun c hc => (ht c hc).1]
      cases ds with
      | nil => exact absurd rfl hds.1
      | cons d ds => rfl

theorem head_fraction {f : Option (List Nat)} {s t : List Char} (h : FractionSpelled f s)
    (ht : ∀ c ∈ t.head?, c.isDigit = false) : ∀ c ∈ (s ++ t).head?, c.isDigit = false := by
  cases h with
  | none => exact ht
  | some =>
      rintro c ⟨⟩
      rfl

theorem tokens_number {n : Number} {s : List Char} (h : NumberSpelled n s) :
    tokens s = [.atom (.number n)] := by
  obtain ⟨hwhole, hzero, hf, he⟩ := h
  rename_i f e
  have hhead := head_exponent he
  have hsplit : splitDigits (digitChars n.whole ++ (f ++ e)) = (n.whole, f ++ e) :=
    splitDigits_digitChars hwhole.2 (head_fraction hf fun c hc => (hhead c hc).1)
  have hscan : scanUnsigned n.negative (digitChars n.whole ++ (f ++ e)) = .ok (n, []) := by
    rw [scanUnsigned_eq_ok_iff, hsplit]
    exact ⟨rfl, rfl, hwhole.1, hzero, e, scanFraction_of_spelled hf hhead,
      scanExponent_of_spelled he⟩
  cases hneg : n.negative with
  | true =>
      rw [hneg] at hscan
      rw [if_pos rfl, List.singleton_append, tokens_cons _ (by decide),
        scanToken_number (.inl rfl) hscan]
      rfl
  | false =>
      rw [hneg] at hscan
      rw [if_neg Bool.false_ne_true, List.nil_append]
      obtain ⟨d, ds, hds⟩ := List.exists_cons_of_ne_nil hwhole.1
      have hdigit := (digitChar_isDigit (hwhole.2 d (hds ▸ List.mem_cons_self))).1
      have hsign : ∀ c ∈ (digitChars n.whole ++ (f ++ e)).head?, c ≠ '-' := by
        rw [hds]
        rintro c ⟨⟩ hc
        rw [hc] at hdigit
        cases hdigit
      rw [← scanNumber_of_ne hsign] at hscan
      rw [hds, digitChars, List.map_cons, List.cons_append] at hscan ⊢
      rw [tokens_cons _ (isBlank_of_isDigit hdigit), scanToken_number (.inr hdigit) hscan]
      rfl

/-! ## Quoted texts -/

theorem scanQuoted_piece {p : Piece} {s : List Char} (h : PieceSpelled p s) (t : List Char) :
    scanQuoted (s ++ t) = Quoted.cons p (scanQuoted t) := by
  cases h with
  | plain hquote hslash hcontrol => exact scanQuoted_plain hquote hslash hcontrol t
  | letter hl =>
      rename_i l c
      have hne : l ≠ 'u' := by
        rintro rfl
        cases hl
      rw [List.cons_append, List.cons_append, List.nil_append, scanQuoted]
      · simp only [hl]
      all_goals simp_all
  | unit hn => simp only [List.cons_append, List.nil_append, scanQuoted, hn]

theorem scanQuoted_of_spelled {ps : List Piece} {s : List Char} (h : PiecesSpelled ps s) :
    scanQuoted (s ++ ['"']) = (⟨ps, none⟩, []) := by
  induction h with
  | nil => rfl
  | cons hp _ ih =>
      rw [List.append_assoc, scanQuoted_piece hp, ih]
      rfl

theorem tokens_atom {a : Atom} {s : List Char} (h : AtomSpelled a s) :
    tokens s = [.atom a] ∧ a.IsWhole := by
  cases h with
  | null => exact ⟨rfl, trivial⟩
  | true => exact ⟨rfl, trivial⟩
  | false => exact ⟨rfl, trivial⟩
  | number hn => exact ⟨tokens_number hn, trivial⟩
  | text hps =>
      rename_i ps s
      have htoken : scanToken '"' (s ++ ['"']) =
          (.atom (.text (scanQuoted (s ++ ['"'])).1), (scanQuoted (s ++ ['"'])).2) := rfl
      rw [tokens_cons _ (by decide), htoken, scanQuoted_of_spelled hps]
      exact ⟨rfl, rfl⟩

/-! ## Texts -/

theorem tokens_blanks {b : List Char} (hb : ∀ c ∈ b, isBlank c = true) (t : List Char) :
    tokens (b ++ t) = tokens t := by
  induction b with
  | nil => rfl
  | cons c b ih =>
      obtain ⟨hc, hrest⟩ := List.forall_mem_cons.mp hb
      rw [List.cons_append, tokens_blank _ hc, ih hrest]

theorem tokens_mark {k : Token} {c : Char} (h : k.mark? = some c) (t : List Char) :
    tokens (c :: t) = k :: tokens t ∧ EndsNumber (c :: t) := by
  cases k with
  | opening b | closing b =>
      cases b with
      | square | curly =>
          obtain rfl := Option.some.inj h
          exact ⟨tokens_cons t rfl, endsNumber_cons (by decide) t⟩
  | comma | colon =>
      obtain rfl := Option.some.inj h
      exact ⟨tokens_cons t rfl, endsNumber_cons (by decide) t⟩
  | atom => cases h

/-- No value follows a value. -/
def Separated (ks : List Token) : Prop :=
  ks.IsChain fun k l => k.mark?.isSome ∨ l.mark?.isSome

theorem endsNumber_blanks {b t : List Char} (hb : ∀ c ∈ b, isBlank c = true)
    (ht : EndsNumber t) : EndsNumber (b ++ t) := by
  cases b with
  | nil => exact ht
  | cons c b =>
      have hc := hb c List.mem_cons_self
      refine endsNumber_cons ?_ _
      simp only [isBlank, Bool.or_eq_true, decide_eq_true_eq] at hc
      obtain ((rfl | rfl) | rfl) | rfl := hc <;> decide

theorem endsNumber_nil : EndsNumber [] := nofun

/-- A text that starts with a mark or with nothing does not go on with a number. -/
theorem endsNumber_of_spelled {ks : List Token} {s : List Char} (h : Spelled ks s)
    (hks : ∀ k ∈ ks.head?, k.mark?.isSome) : EndsNumber s := by
  cases h with
  | nil hs =>
      have hends := endsNumber_blanks hs endsNumber_nil
      rwa [List.append_nil] at hends
  | cons hb hk _ =>
      refine endsNumber_blanks hb ?_
      cases hk with
      | mark hc => exact (tokens_mark hc _).2
      | atom => exact absurd (hks _ rfl) Bool.false_ne_true

/-- The tokens of a text are those it spells. -/
theorem tokens_of_spelled {ks : List Token} {s : List Char} (h : Spelled ks s)
    (hks : Separated ks) : tokens s = ks := by
  induction h with
  | nil hs =>
      have hblank := tokens_blanks hs []
      rwa [List.append_nil] at hblank
  | cons hb hk hr ih =>
      rename_i k ks b s r
      rw [tokens_blanks hb]
      have ih := ih hks.of_cons
      cases hk with
      | mark hc => rw [List.singleton_append, (tokens_mark hc r).1, ih]
      | atom ha =>
          obtain ⟨hs, hwhole⟩ := tokens_atom ha
          have hends : EndsNumber r := by
            refine endsNumber_of_spelled hr fun l hl => ?_
            exact (hks.rel_head? hl).resolve_left Bool.false_ne_true
          rw [tokens_append _ hends, hs, ih]
          · rfl
          · rw [hs]
            exact List.forall_mem_singleton.mpr hwhole

/-! ## Nothing else has tokens -/

theorem digitChar_toNat {c : Char} (hc : c.isDigit = true) :
    c.toNat - '0'.toNat < 10 ∧ (c.toNat - '0'.toNat).digitChar = c := by
  obtain ⟨hle, hge⟩ := Char.isDigit_iff_toNat.mp hc
  have hval : c = Char.ofNat c.toNat := (Char.ofNat_toNat c).symm
  have hlow : 48 ≤ c.toNat := hle
  have hhigh : c.toNat ≤ 57 := hge
  generalize c.toNat = n at hval hlow hhigh
  subst hval
  interval_cases n <;> decide

theorem eq_digitChars_append (s : List Char) :
    s = digitChars (splitDigits s).1 ++ (splitDigits s).2 ∧ ∀ d ∈ (splitDigits s).1, d < 10 := by
  induction s with
  | nil => exact ⟨rfl, nofun⟩
  | cons c s ih =>
      cases hc : c.isDigit with
      | false => simp [splitDigits, digitChars, hc]
      | true =>
          obtain ⟨hlt, hchar⟩ := digitChar_toNat hc
          simp only [splitDigits, digitChars] at ih ⊢
          simp only [List.takeWhile_cons, List.dropWhile_cons, hc, if_true, List.map_cons, hchar,
            List.cons_append, ← ih.1, List.forall_mem_cons]
          exact ⟨trivial, hlt, ih.2⟩

theorem spelled_of_digits {β : Type} {f : List Nat → β} {s r : List Char} {v : β}
    (h : (match splitDigits s with
      | ([], rest) => Except.error (unfinishedNumber rest)
      | (digits, rest) => .ok (f digits, rest)) = .ok (v, r)) :
    ∃ ds, v = f ds ∧ IsDigits ds ∧ s = digitChars ds ++ r := by
  obtain ⟨hs, hlt⟩ := eq_digitChars_append s
  rcases hsplit : splitDigits s with ⟨ds, rest⟩
  rw [hsplit] at h hs hlt
  cases ds with
  | nil => cases h
  | cons d ds =>
      cases h
      exact ⟨d :: ds, rfl, ⟨List.cons_ne_nil _ _, hlt⟩, hs⟩

theorem spelled_of_scanFraction {s r : List Char} {f : Option (List Nat)}
    (h : scanFraction s = .ok (f, r)) : ∃ t, s = t ++ r ∧ FractionSpelled f t := by
  unfold scanFraction at h
  split at h
  · obtain ⟨ds, rfl, hds, rfl⟩ := spelled_of_digits (f := some) h
    exact ⟨_, rfl, .some hds⟩
  · cases h
    exact ⟨[], rfl, .none⟩

theorem spelled_of_scanSignedExponent {mark : Char} (hmark : mark = 'e' ∨ mark = 'E')
    {s r : List Char} {e : Option (Bool × List Nat)} (h : scanSignedExponent s = .ok (e, r)) :
    ∃ t, mark :: s = t ++ r ∧ ExponentSpelled e t := by
  unfold scanSignedExponent at h
  split at h
  · obtain ⟨ds, rfl, hds, rfl⟩ := spelled_of_digits (f := fun ds => some (false, ds)) h
    exact ⟨_, rfl, .plus hmark hds⟩
  · obtain ⟨ds, rfl, hds, rfl⟩ := spelled_of_digits (f := fun ds => some (true, ds)) h
    exact ⟨_, rfl, .minus hmark hds⟩
  · obtain ⟨ds, rfl, hds, rfl⟩ := spelled_of_digits (f := fun ds => some (false, ds)) h
    exact ⟨_, rfl, .unsigned hmark hds⟩

theorem spelled_of_scanExponent {s r : List Char} {e : Option (Bool × List Nat)}
    (h : scanExponent s = .ok (e, r)) : ∃ t, s = t ++ r ∧ ExponentSpelled e t := by
  unfold scanExponent at h
  split at h
  · exact spelled_of_scanSignedExponent (.inl rfl) h
  · exact spelled_of_scanSignedExponent (.inr rfl) h
  · cases h
    exact ⟨[], rfl, .none⟩

theorem spelled_of_scanUnsigned {negative : Bool} {s r : List Char} {n : Number}
    (h : scanUnsigned negative s = .ok (n, r)) :
    ∃ t, (if negative then ['-'] else []) ++ s = t ++ r ∧ NumberSpelled n t := by
  obtain ⟨rfl, hwhole, hne, hzero, rest, hfraction, hexponent⟩ := scanUnsigned_eq_ok_iff.mp h
  obtain ⟨hs, hlt⟩ := eq_digitChars_append s
  obtain ⟨f, hf, hfspelled⟩ := spelled_of_scanFraction hfraction
  obtain ⟨e, rfl, hespelled⟩ := spelled_of_scanExponent hexponent
  rw [← hwhole, hf] at hs
  refine ⟨_, ?_, .mk ⟨hne, hwhole ▸ hlt⟩ hzero hfspelled hespelled⟩
  rw [hs]
  simp only [List.append_assoc]

theorem spelled_of_scanNumber {s r : List Char} {n : Number} (h : scanNumber s = .ok (n, r)) :
    ∃ t, s = t ++ r ∧ NumberSpelled n t := by
  unfold scanNumber at h
  split at h
  · exact spelled_of_scanUnsigned h
  · exact spelled_of_scanUnsigned h

theorem eq_of_scanWord {a : Atom} {expected s : List Char}
    (h : (scanWord a expected s).1.IsWhole) :
    (scanWord a expected s).1 = a ∧ s = expected ++ (scanWord a expected s).2 := by
  induction expected generalizing s with
  | nil => exact ⟨rfl, rfl⟩
  | cons e expected ih =>
      cases s with
      | nil => exact h.elim
      | cons c s =>
          by_cases hc : c = e
          · simp only [scanWord, hc, if_true] at h ⊢
            obtain ⟨ha, hs⟩ := ih h
            exact ⟨ha, by rw [List.cons_append, ← hs]⟩
          · simp only [scanWord, hc, if_false] at h
            exact h.elim

theorem spelled_of_scanQuoted {s : List Char} (h : (scanQuoted s).1.broken = none) :
    ∃ t, s = t ++ '"' :: (scanQuoted s).2 ∧ PiecesSpelled (scanQuoted s).1.pieces t := by
  fun_induction scanQuoted s with
  | case2 rest => exact ⟨[], rfl, .nil⟩
  | case3 a b c d rest n hn ih =>
      obtain ⟨t, ht, hpieces⟩ := ih h
      refine ⟨'\\' :: 'u' :: a :: b :: c :: d :: t, ?_, .cons (.unit hn) hpieces⟩
      simpa [Quoted.cons] using ht
  | case6 c rest _ _ u hu ih =>
      obtain ⟨t, ht, hpieces⟩ := ih h
      refine ⟨'\\' :: c :: t, ?_, .cons (.letter hu) hpieces⟩
      simpa [Quoted.cons] using ht
  | case10 c rest hquote _ _ hslash hend hcontrol ih =>
      obtain ⟨t, ht, hpieces⟩ := ih h
      have hne : c ≠ '\\' := by
        rintro rfl
        cases rest with
        | nil => exact hend rfl rfl
        | cons d rest => exact hslash d rest rfl rfl
      refine ⟨c :: t, ?_, .cons (.plain hquote hne hcontrol) hpieces⟩
      simpa [Quoted.cons] using ht
  | _ => cases h

theorem spelled_of_scanAtom {c : Char} {s : List Char} (h : (scanAtom c s).1.IsWhole) :
    ∃ t, c :: s = t ++ (scanAtom c s).2 ∧ AtomSpelled (scanAtom c s).1 t := by
  have hword : ∀ {a : Atom} {expected : List Char}, (scanWord a expected s).1.IsWhole →
      AtomSpelled a (c :: expected) → ∃ t, c :: s = t ++ (scanWord a expected s).2 ∧
        AtomSpelled (scanWord a expected s).1 t := by
    intro a expected hwhole hspelled
    obtain ⟨ha, hs⟩ := eq_of_scanWord hwhole
    rw [ha]
    exact ⟨c :: expected, by rw [List.cons_append, ← hs], hspelled⟩
  unfold scanAtom at h ⊢
  split_ifs at h ⊢ with hquote hnumber hnull htrue hfalse
  · obtain ⟨t, ht, hpieces⟩ := spelled_of_scanQuoted h
    subst hquote
    rcases hscan : scanQuoted s with ⟨⟨pieces, broken⟩, rest⟩
    simp only [hscan] at h ht hpieces ⊢
    obtain rfl : broken = none := h
    exact ⟨_, by simp [ht], .text hpieces⟩
  · split at h
    case h_1 n r hn =>
      obtain ⟨t, ht, hspelled⟩ := spelled_of_scanNumber hn
      exact ⟨t, ht, .number hspelled⟩
    case h_2 a hn => exact (not_isWhole_of_scanNumber hn h).elim
  · subst hnull
    exact hword h .null
  · subst htrue
    exact hword h .true
  · subst hfalse
    exact hword h .false
  · exact h.elim

theorem spelled_of_scanToken {c : Char} {s : List Char} (h : (scanToken c s).1.IsWhole) :
    ∃ t, c :: s = t ++ (scanToken c s).2 ∧ TokenSpelled (scanToken c s).1 t := by
  unfold scanToken at h ⊢
  split at h
  case h_7 =>
    obtain ⟨t, ht, hspelled⟩ := spelled_of_scanAtom h
    exact ⟨t, ht, .atom hspelled⟩
  all_goals exact ⟨[_], rfl, .mark rfl⟩

theorem Spelled.blank {ks : List Token} {c : Char} {s : List Char} (hc : isBlank c = true)
    (h : Spelled ks s) : Spelled ks (c :: s) := by
  cases h with
  | nil hs => exact .nil (List.forall_mem_cons.mpr ⟨hc, hs⟩)
  | cons hb hk hr =>
      rw [← List.cons_append]
      exact .cons (List.forall_mem_cons.mpr ⟨hc, hb⟩) hk hr

/-- A text without broken tokens spells the tokens it has. -/
theorem spelled_tokens {s : List Char} (h : ∀ k ∈ tokens s, k.IsWhole) : Spelled (tokens s) s := by
  induction hn : s.length using Nat.strong_induction_on generalizing s with
  | _ n ih =>
    cases s with
    | nil => exact .nil nofun
    | cons c s =>
        rw [List.length_cons] at hn
        cases hc : isBlank c with
        | true =>
            rw [tokens_blank _ hc] at h ⊢
            exact (ih s.length (by omega) h rfl).blank hc
        | false =>
            rw [tokens_cons _ hc, List.forall_mem_cons] at h
            have hlen := length_scanToken_le c s
            obtain ⟨t, ht, hspelled⟩ := spelled_of_scanToken h.1
            rw [tokens_cons _ hc]
            have hrest := ih _ (by omega) h.2 rfl
            have hcons : Spelled _ ([] ++ (t ++ (scanToken c s).2)) := .cons nofun hspelled hrest
            rw [List.nil_append, ← ht] at hcons
            exact hcons

/-! ## Documents -/

theorem Separated.mark {k : Token} {ks : List Token} (hk : k.mark?.isSome) (h : Separated ks) :
    Separated (k :: ks) :=
  List.isChain_cons.mpr ⟨fun _ _ => .inl hk, h⟩

theorem Separated.before {k l : Token} {ks : List Token} (hl : l.mark?.isSome)
    (h : Separated (l :: ks)) : Separated (k :: l :: ks) :=
  List.isChain_cons.mpr ⟨by rintro _ ⟨⟩; exact .inr hl, h⟩

theorem Items.head_tokensBehind {items : Items} (h : items.IsWhole) (ks : List Token) :
    ∃ k l, items.tokensBehind ++ ks = k :: l ∧ k.mark?.isSome := by
  cases items with
  | closed => exact ⟨_, _, rfl, rfl⟩
  | cut => exact h.elim
  | item => exact ⟨_, _, rfl, rfl⟩

theorem Members.head_tokensBehind {members : Members} (h : members.IsWhole) (ks : List Token) :
    ∃ k l, members.tokensBehind ++ ks = k :: l ∧ k.mark?.isSome := by
  cases members with
  | closed => exact ⟨_, _, rfl, rfl⟩
  | cut => exact h.elim
  | member => exact ⟨_, _, rfl, rfl⟩

mutual

theorem Doc.separated_tokens : ∀ (d : Doc) (k : Token) (ks : List Token), d.IsWhole →
    k.mark?.isSome → Separated (k :: ks) → Separated (d.tokens ++ k :: ks)
  | .atom _, _, _, _, hk, hks => hks.before hk
  | .array items, _, _, h, _, hks => (Items.separated_tokens items _ h hks).mark rfl
  | .object members, _, _, h, _, hks => (Members.separated_tokens members _ h hks).mark rfl

theorem Items.separated_tokens : ∀ (items : Items) (ks : List Token), items.IsWhole →
    Separated ks → Separated (items.tokens ++ ks)
  | .closed, _, _, hks => hks.mark rfl
  | .item d rest, ks, h, hks => by
      obtain ⟨k, l, hrest, hk⟩ := Items.head_tokensBehind h.2 ks
      have htail : Separated (k :: l) := hrest ▸ Items.separated_tokensBehind rest ks h.2 hks
      rw [Items.tokens, List.append_assoc, hrest]
      exact Doc.separated_tokens d k l h.1 hk htail

theorem Items.separated_tokensBehind : ∀ (items : Items) (ks : List Token), items.IsWhole →
    Separated ks → Separated (items.tokensBehind ++ ks)
  | .closed, _, _, hks => hks.mark rfl
  | .item d rest, ks, h, hks => by
      obtain ⟨k, l, hrest, hk⟩ := Items.head_tokensBehind h.2 ks
      have htail : Separated (k :: l) := hrest ▸ Items.separated_tokensBehind rest ks h.2 hks
      rw [Items.tokensBehind, List.cons_append, List.append_assoc, hrest]
      exact (Doc.separated_tokens d k l h.1 hk htail).mark rfl

theorem Members.separated_tokens : ∀ (members : Members) (ks : List Token), members.IsWhole →
    Separated ks → Separated (members.tokens ++ ks)
  | .closed, _, _, hks => hks.mark rfl
  | .member name d rest, ks, h, hks => by
      obtain ⟨k, l, hrest, hk⟩ := Members.head_tokensBehind h.2.2 ks
      have htail : Separated (k :: l) := hrest ▸ Members.separated_tokensBehind rest ks h.2.2 hks
      rw [Members.tokens, List.cons_append, List.cons_append, List.append_assoc, hrest]
      exact ((Doc.separated_tokens d k l h.2.1 hk htail).mark (k := .colon) rfl).before rfl

theorem Members.separated_tokensBehind : ∀ (members : Members) (ks : List Token),
    members.IsWhole → Separated ks → Separated (members.tokensBehind ++ ks)
  | .closed, _, _, hks => hks.mark rfl
  | .member name d rest, ks, h, hks => by
      obtain ⟨k, l, hrest, hk⟩ := Members.head_tokensBehind h.2.2 ks
      have htail : Separated (k :: l) := hrest ▸ Members.separated_tokensBehind rest ks h.2.2 hks
      rw [Members.tokensBehind, List.cons_append, List.cons_append, List.cons_append,
        List.append_assoc, hrest]
      exact (((Doc.separated_tokens d k l h.2.1 hk htail).mark (k := .colon) rfl).before rfl).mark
        rfl

end

theorem Doc.separated (d : Doc) (h : d.IsWhole) : Separated d.tokens := by
  cases d with
  | atom a => exact List.isChain_singleton _
  | array items =>
      have hitems := Items.separated_tokens items [] h List.isChain_nil
      rw [List.append_nil] at hitems
      exact hitems.mark rfl
  | object members =>
      have hmembers := Members.separated_tokens members [] h List.isChain_nil
      rw [List.append_nil] at hmembers
      exact hmembers.mark rfl

theorem isHeldBy_iff {d : Doc} {text : String} :
    d.IsHeldBy text ↔ d.IsWhole ∧ tokens text.toList = d.tokens := by
  refine and_congr_right fun hd => ⟨fun h => tokens_of_spelled h (d.separated hd), fun h => ?_⟩
  have hwhole : ∀ k ∈ tokens text.toList, k.IsWhole := by
    rw [h]
    exact hd.tokens
  exact h ▸ spelled_tokens hwhole

/-- A text is read as `x` just if it holds a document that is. -/
theorem readText_eq_ok_iff {β : Type} {read : Doc → Except Refusal β}
    (hread : ∀ {d x}, read d = .ok x → d.IsWhole) {text : String} {x : β} :
    readText read text = .ok x ↔
      ∃ d : Doc, d.IsHeldBy text ∧ read d = .ok x := by
  constructor
  · intro h
    obtain ⟨root, hdoc, hroot⟩ := ofText_of_readText h
    have hwhole := hread hroot
    exact ⟨root, isHeldBy_iff.mpr ⟨hwhole, tokens_of_ofText hwhole hdoc⟩, hroot⟩
  · rintro ⟨d, hd, hx⟩
    rw [readText_eq read hd.1 (isHeldBy_iff.mp hd).2, hx]

end TwoPhase.Json
