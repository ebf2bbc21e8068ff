/-
# `Tokens` — the tokens of a text stand by themselves

What the tokens of a text are does not depend on what stands behind it, as
long as the text breaks off nowhere and what follows does not go on with a
number at its end.  So texts are put together from pieces, and the tokens
of the whole are the tokens of the pieces, one after another.

The scanners are looked at one by one: each leaves the same behind it and,
with more text at the end, that much more.  Since every token takes at
least one character, the fuel of the tokenizer is only a bound.
-/
import Mathlib
import TwoPhase.Json.Token
import TwoPhase.Json.Value

namespace TwoPhase.Json

/-! ## Numbers -/

/-- An atom that does not break off. -/
def Atom.IsWhole : Atom → Prop
  | .text q => q.broken = none
  | .broken _ _ => False
  | .absent => False
  | _ => True

/-- A text that does not go on with a number in front of it. -/
def EndsNumber (t : List Char) : Prop :=
  ∀ c ∈ t.head?, c.isDigit = false ∧ c ≠ '.' ∧ c ≠ 'e' ∧ c ≠ 'E'

theorem endsNumber_cons {c : Char} (h : c.isDigit = false ∧ c ≠ '.' ∧ c ≠ 'e' ∧ c ≠ 'E')
    (t : List Char) : EndsNumber (c :: t) := by
  rintro d ⟨⟩
  exact h

/-- A scanner for a part of a number: it leaves a part of the text, it fails with an
atom that breaks off, and it stops at the same place when something that does not go on
with the number is put behind. -/
structure Settles {β : Type} (scan : List Char → Except Atom (β × List Char)) : Prop where
  length_le : ∀ {s v r}, scan s = .ok (v, r) → r.length ≤ s.length
  fails : ∀ {s a}, scan s = .error a → ¬ a.IsWhole
  append : ∀ {s v r t}, scan s = .ok (v, r) → EndsNumber t → scan (s ++ t) = .ok (v, r ++ t)

theorem length_splitDigits (s : List Char) :
    (splitDigits s).1.length + (splitDigits s).2.length = s.length := by
  rw [splitDigits, List.length_map, ← List.length_append, List.takeWhile_append_dropWhile]

theorem splitDigits_append (s : List Char) {t : List Char} (ht : EndsNumber t) :
    splitDigits (s ++ t) = ((splitDigits s).1, (splitDigits s).2 ++ t) := by
  have htake : t.takeWhile Char.isDigit = [] ∧ t.dropWhile Char.isDigit = t := by
    cases t with
    | nil => exact ⟨rfl, rfl⟩
    | cons c t => simp [(ht c rfl).1]
  induction s with
  | nil => simp [splitDigits, htake]
  | cons c s ih =>
      simp only [splitDigits, Prod.mk.injEq] at ih
      cases hc : c.isDigit with
      | false => simp [splitDigits, hc]
      | true => simp only [splitDigits, List.cons_append, List.takeWhile_cons, List.dropWhile_cons,
          hc, if_true, List.map_cons, ih]

theorem settles_digits {β : Type} (f : List Nat → β) : Settles fun s =>
    match splitDigits s with
    | ([], rest) => .error (unfinishedNumber rest)
    | (digits, rest) => .ok (f digits, rest) where
  length_le {s v r} h := by
    have hlen := length_splitDigits s
    grind
  fails {s a} h := by
    split at h <;> cases h
    exact id
  append {s v r t} h ht := by
    have hsplit := splitDigits_append s ht
    grind

theorem settles_scanExponentDigits (minus : Bool) : Settles (scanExponentDigits minus) :=
  settles_digits fun digits => some (minus, digits)

theorem settles_scanSignedExponent : Settles scanSignedExponent where
  length_le {s v r} h := by
    unfold scanSignedExponent at h
    split at h
    · exact Nat.le_succ_of_le ((settles_scanExponentDigits _).length_le h)
    · exact Nat.le_succ_of_le ((settles_scanExponentDigits _).length_le h)
    · exact (settles_scanExponentDigits _).length_le h
  fails {s a} h := by
    unfold scanSignedExponent at h
    split at h <;> exact (settles_scanExponentDigits _).fails h
  append {s v r t} h ht := by
    unfold scanSignedExponent at h
    split at h
    · exact (settles_scanExponentDigits _).append h ht
    · exact (settles_scanExponentDigits _).append h ht
    · cases s with
      | nil => cases h
      | cons c s =>
        rw [List.cons_append, scanSignedExponent]
        · exact (settles_scanExponentDigits _).append h ht
        all_goals
          rintro s' ⟨⟩
          simp_all

/-- A part that may be left out settles if what follows its mark does, and no mark goes on
behind a number that has ended. -/
theorem settles_marked {β : Type} {scan body : List Char → Except Atom (Option β × List Char)}
    {isMark : Char → Prop} (hbody : Settles body)
    (hmarked : ∀ c s, isMark c → scan (c :: s) = body s)
    (hleft : ∀ s : List Char, (∀ c ∈ s.head?, ¬ isMark c) → scan s = .ok (none, s))
    (hends : ∀ t, EndsNumber t → ∀ c ∈ t.head?, ¬ isMark c) : Settles scan := by
  have hcases : ∀ s : List Char, (∃ c s', s = c :: s' ∧ isMark c) ∨ ∀ c ∈ s.head?, ¬ isMark c := by
    intro s
    by_cases h : ∀ c ∈ s.head?, ¬ isMark c
    · exact .inr h
    · push Not at h
      obtain ⟨c, hc, hmark⟩ := h
      obtain ⟨s', rfl⟩ := List.head?_eq_some_iff.mp hc
      exact .inl ⟨c, s', rfl, hmark⟩
  constructor
  case length_le =>
    intro s v r h
    obtain ⟨c, s, rfl, hc⟩ | hs := hcases s
    · rw [hmarked c s hc] at h
      exact Nat.le_succ_of_le (hbody.length_le h)
    · rw [hleft s hs] at h
      cases h
      rfl
  case fails =>
    intro s a h
    obtain ⟨c, s, rfl, hc⟩ | hs := hcases s
    · rw [hmarked c s hc] at h
      exact hbody.fails h
    · rw [hleft s hs] at h
      cases h
  case append =>
    intro s v r t h ht
    obtain ⟨c, s, rfl, hc⟩ | hs := hcases s
    · rw [hmarked c s hc] at h
      rw [List.cons_append, hmarked c _ hc]
      exact hbody.append h ht
    · rw [hleft s hs] at h
      cases h
      -- the part was left out, and what follows the number does not supply its mark
      refine hleft _ ?_
      cases s with
      | nil => exact hends t ht
      | cons c s => exact hs

theorem settles_scanFraction : Settles scanFraction := by
  refine settles_marked (settles_digits some) (fun c s hc => ?_) (fun s hs => ?_)
    fun t ht c hc => (ht c hc).2.1
  · subst hc
    rfl
  · unfold scanFraction
    split
    · exact absurd rfl (hs '.' rfl)
    · rfl

theorem settles_scanExponent : Settles scanExponent := by
  refine settles_marked settles_scanSignedExponent (fun c s hc => ?_) (fun s hs => ?_)
    fun t ht c hc => not_or.mpr (ht c hc).2.2
  · rcases hc with rfl | rfl <;> rfl
  · unfold scanExponent
    split
    · exact absurd (.inl rfl) (hs 'e' rfl)
    · exact absurd (.inr rfl) (hs 'E' rfl)
    · rfl

theorem scanUnsigned_eq_ok_iff {negative : Bool} {s r : List Char} {n : Number} :
    scanUnsigned negative s = .ok (n, r) ↔
      n.negative = negative ∧ n.whole = (splitDigits s).1 ∧ n.whole ≠ [] ∧
      (∀ d rest, n.whole ≠ 0 :: d :: rest) ∧
      ∃ rest, scanFraction (splitDigits s).2 = .ok (n.fraction, rest) ∧
        scanExponent rest = .ok (n.exponent, r) := by
  rcases hd : splitDigits s with ⟨whole, rest⟩
  unfold scanUnsigned
  rw [hd]
  split
  case h_1 heq =>
    cases heq
    exact iff_of_false nofun fun ⟨_, hwhole, hne, _⟩ => hne hwhole
  case h_2 heq =>
    cases heq
    exact iff_of_false nofun fun ⟨_, hwhole, _, hzero, _⟩ => hzero _ _ hwhole
  case h_3 hne hzero heq =>
    cases heq
    rcases n with ⟨sign, ds, f, e⟩
    constructor
    · intro h
      cases hf : scanFraction rest with
      | error a => simp [hf, bind, Except.bind] at h
      | ok fr =>
        cases he : scanExponent fr.2 with
        | error a => simp [hf, he, bind, Except.bind] at h
        | ok er =>
          simp only [hf, he, bind, Except.bind, pure, Except.pure] at h
          cases h
          exact ⟨rfl, rfl, fun h => hne h, fun d t h => hzero d t h, fr.2, rfl, he⟩
    · rintro ⟨rfl, rfl, -, -, rest', hfraction, hexponent⟩
      simp [hfraction, hexponent, bind, Except.bind, pure, Except.pure]

theorem length_scanUnsigned_lt {negative : Bool} {s r : List Char} {n : Number}
    (h : scanUnsigned negative s = .ok (n, r)) : r.length < s.length := by
  obtain ⟨-, hwhole, hne, -, rest, hfraction, hexponent⟩ := scanUnsigned_eq_ok_iff.mp h
  have hlen := length_splitDigits s
  have hpos := List.length_pos_of_ne_nil hne
  have hrest := settles_scanFraction.length_le hfraction
  have hr := settles_scanExponent.length_le hexponent
  rw [hwhole] at hpos
  omega

theorem settles_scanUnsigned (negative : Bool) : Settles (scanUnsigned negative) where
  length_le h := (length_scanUnsigned_lt h).le
  fails {s a} h := by
    unfold scanUnsigned at h
    split at h
    · cases h
      exact id
    · cases h
      exact id
    case h_3 rest _ _ _ =>
      cases hf : scanFraction rest with
      | error b =>
        simp only [hf, bind, Except.bind] at h
        cases h
        exact settles_scanFraction.fails hf
      | ok fr =>
        cases he : scanExponent fr.2 with
        | error b =>
          simp only [hf, he, bind, Except.bind] at h
          cases h
          exact settles_scanExponent.fails he
        | ok er => simp [hf, he, bind, Except.bind, pure, Except.pure] at h
  append {s n r t} h ht := by
    obtain ⟨hneg, hwhole, hne, hzero, rest, hfraction, hexponent⟩ := scanUnsigned_eq_ok_iff.mp h
    rw [scanUnsigned_eq_ok_iff, splitDigits_append s ht]
    exact ⟨hneg, hwhole, hne, hzero, rest ++ t, settles_scanFraction.append hfraction ht,
      settles_scanExponent.append hexponent ht⟩

theorem scanNumber_of_ne {s : List Char} (h : ∀ c ∈ s.head?, c ≠ '-') :
    scanNumber s = scanUnsigned false s := by
  unfold scanNumber
  split
  · exact absurd rfl (h '-' rfl)
  · rfl

section Cons

variable {c : Char} {s r t : List Char} {n : Number}

theorem length_scanNumber_le (h : scanNumber (c :: s) = .ok (n, r)) : r.length ≤ s.length := by
  by_cases hc : c = '-'
  · subst hc
    exact (length_scanUnsigned_lt h).le
  · rw [scanNumber_of_ne (by simpa using hc)] at h
    exact Nat.le_of_lt_succ (length_scanUnsigned_lt h)

theorem scanNumber_append (h : scanNumber (c :: s) = .ok (n, r)) (ht : EndsNumber t) :
    scanNumber (c :: s ++ t) = .ok (n, r ++ t) := by
  by_cases hc : c = '-'
  · subst hc
    exact (settles_scanUnsigned true).append h ht
  · rw [scanNumber_of_ne (by simpa using hc)] at h ⊢
    exact (settles_scanUnsigned false).append h ht

theorem not_isWhole_of_scanNumber {s : List Char} {a : Atom} (h : scanNumber s = .error a) :
    ¬ a.IsWhole := by
  unfold scanNumber at h
  split at h
  · exact (settles_scanUnsigned true).fails h
  · exact (settles_scanUnsigned false).fails h

end Cons

/-! ## Words and quoted texts -/

theorem length_scanWord_le (a : Atom) (expected s : List Char) :
    (scanWord a expected s).2.length ≤ s.length := by
  fun_induction scanWord a expected s <;> grind

theorem scanQuoted_plain {c : Char} (hquote : c ≠ '"') (hslash : c ≠ '\\')
    (hcontrol : ¬ c.toNat < 0x20) (s : List Char) :
    scanQuoted (c :: s) = Quoted.cons (.char c) (scanQuoted s) := by
  rw [scanQuoted, if_neg hcontrol]
  all_goals simp_all

theorem length_scanQuoted_le (s : List Char) : (scanQuoted s).2.length ≤ s.length := by
  fun_induction scanQuoted s <;>
    simp only [Quoted.cut, Quoted.cons, List.length_cons, List.length_nil] <;> omega

theorem scanWord_append {a : Atom} {expected s : List Char} (t : List Char)
    (h : (scanWord a expected s).1.IsWhole) :
    scanWord a expected (s ++ t) =
      ((scanWord a expected s).1, (scanWord a expected s).2 ++ t) := by
  induction expected generalizing s with
  | nil => rfl
  | cons e expected ih =>
      cases s with
      | nil => exact h.elim
      | cons c s =>
          by_cases hc : c = e
          · simp only [scanWord, hc, if_true, List.cons_append] at h ⊢
            exact ih h
          · simp only [scanWord, hc, if_false] at h
            exact h.elim

theorem scanQuoted_append {s : List Char} (t : List Char) (h : (scanQuoted s).1.broken = none) :
    scanQuoted (s ++ t) = ((scanQuoted s).1, (scanQuoted s).2 ++ t) := by
  fun_induction scanQuoted s with
  | case10 c rest hquote _ _ hslash hend hcontrol ih =>
      have hne : c ≠ '\\' := by
        rintro rfl
        cases rest with
        | nil => exact hend rfl rfl
        | cons d rest => exact hslash d rest rfl rfl
      rw [List.cons_append, scanQuoted_plain hquote hne hcontrol, ih h]
      rfl
  | _ => simp_all [Quoted.cut, Quoted.cons, scanQuoted]

/-! ## Atoms and tokens -/

theorem length_scanAtom_le (c : Char) (s : List Char) :
    (scanAtom c s).2.length ≤ s.length := by
  unfold scanAtom
  split_ifs
  · exact length_scanQuoted_le s
  · split
    case h_1 h => exact length_scanNumber_le h
    case h_2 => exact Nat.zero_le _
  · exact length_scanWord_le ..
  · exact length_scanWord_le ..
  · exact length_scanWord_le ..
  · exact Nat.zero_le _

theorem scanAtom_append {c : Char} {s t : List Char} (h : (scanAtom c s).1.IsWhole)
    (ht : EndsNumber t) :
    scanAtom c (s ++ t) = ((scanAtom c s).1, (scanAtom c s).2 ++ t) := by
  unfold scanAtom at h ⊢
  split_ifs at h ⊢
  · simp only [scanQuoted_append t h]
  · rw [← List.cons_append]
    split at h
    case h_1 hn => rw [scanNumber_append hn ht]
    case h_2 hn => exact (not_isWhole_of_scanNumber hn h).elim
  · exact scanWord_append t h
  · exact scanWord_append t h
  · exact scanWord_append t h
  · exact h.elim

def Token.IsWhole : Token → Prop
  | .atom a => a.IsWhole
  | _ => True

theorem scanToken_cases (c : Char) :
    (∃ k : Token, ∀ s, scanToken c s = (k, s)) ∨
      ∀ s, scanToken c s = (.atom (scanAtom c s).1, (scanAtom c s).2) := by
  unfold scanToken
  split
  any_goals exact .inl ⟨_, fun _ => rfl⟩
  exact .inr fun _ => rfl

theorem length_scanToken_le (c : Char) (s : List Char) :
    (scanToken c s).2.length ≤ s.length := by
  obtain ⟨k, hk⟩ | hatom := scanToken_cases c
  · rw [hk]
  · rw [hatom]
    exact length_scanAtom_le c s

theorem scanToken_append {c : Char} {s t : List Char} (h : (scanToken c s).1.IsWhole)
    (ht : EndsNumber t) :
    scanToken c (s ++ t) = ((scanToken c s).1, (scanToken c s).2 ++ t) := by
  obtain ⟨k, hk⟩ | hatom := scanToken_cases c
  · rw [hk, hk]
  · rw [hatom] at h
    rw [hatom, hatom, scanAtom_append h ht]

/-! ## Texts -/

/-- More fuel than the text is long makes no difference. -/
theorem tokensWithin_eq {n m : Nat} {s : List Char} (hn : s.length ≤ n) (hm : s.length ≤ m) :
    tokensWithin n s = tokensWithin m s := by
  induction n generalizing m s with
  | zero =>
      rw [List.length_eq_zero_iff.mp (Nat.le_zero.mp hn)]
      cases m <;> rfl
  | succ n ih =>
      cases s with
      | nil => cases m <;> rfl
      | cons c s =>
          cases m with
          | zero => exact absurd hm (Nat.not_succ_le_zero _)
          | succ m =>
              have hlen := length_scanToken_le c s
              rw [List.length_cons] at hn hm
              have hblank : tokensWithin n s = tokensWithin m s := ih (by omega) (by omega)
              have hrest : tokensWithin n (scanToken c s).2 = tokensWithin m (scanToken c s).2 :=
                ih (by omega) (by omega)
              simp only [tokensWithin, hblank, hrest]

@[simp] theorem tokens_nil : tokens [] = [] := rfl

theorem tokens_blank {c : Char} (s : List Char) (h : isBlank c = true) :
    tokens (c :: s) = tokens s := by
  rw [tokens, List.length_cons, tokensWithin, if_pos h]
  rfl

theorem tokens_cons {c : Char} (s : List Char) (h : isBlank c = false) :
    tokens (c :: s) = (scanToken c s).1 :: tokens (scanToken c s).2 := by
  have hrest : tokensWithin s.length (scanToken c s).2 = tokens (scanToken c s).2 :=
    tokensWithin_eq (length_scanToken_le c s) (Nat.le_refl _)
  rw [tokens, List.length_cons, tokensWithin, h, ← hrest]
  rfl

/-- The tokens of a text that breaks off nowhere are followed by the tokens of whatever
stands behind it. -/
theorem tokens_append {s t : List Char} (hs : ∀ k ∈ tokens s, k.IsWhole) (ht : EndsNumber t) :
    tokens (s ++ t) = tokens s ++ tokens t := by
  induction hn : s.length using Nat.strong_induction_on generalizing s with
  | _ n ih =>
    cases s with
    | nil => rfl
    | cons c s =>
        rw [List.length_cons] at hn
        cases hc : isBlank c with
        | true =>
            rw [tokens_blank _ hc] at hs ⊢
            rw [List.cons_append, tokens_blank _ hc]
            exact ih s.length (by omega) hs rfl
        | false =>
            rw [tokens_cons _ hc] at hs
            have hlen := length_scanToken_le c s
            have hrest : tokens ((scanToken c s).2 ++ t) = tokens (scanToken c s).2 ++ tokens t :=
              ih _ (by omega) (fun k hk => hs k (List.mem_cons_of_mem _ hk)) rfl
            rw [List.cons_append, tokens_cons _ hc, tokens_cons _ hc,
              scanToken_append (hs _ List.mem_cons_self) ht, List.cons_append, ← hrest]

end TwoPhase.Json
