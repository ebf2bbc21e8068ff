/-
# `Compact` — what is written on one line is read again

A value written on one line has the tokens of one whole document, so it is
read as that document.  Quoted texts come back letter for letter, escapes
and all, and natural numbers digit by digit.  How a double is written is
not looked into: it is enough that its text is a single atom.
-/
import Mathlib
import TwoPhase.Json.Value
import TwoPhase.Proofs.Documents

namespace TwoPhase.Json

/-! ## Quoted texts -/

/-- The piece that a written character is read as. -/
def pieceOf (c : Char) : Piece :=
  if c.toNat < 0x20 ∧ c ∉ ['\x08', '\x0c', '\n', '\r', '\t'] then .unit c.toNat else .char c

def quotedText (s : String) : Quoted := ⟨s.toList.map pieceOf, none⟩

theorem unitOf_hexDigit : ∀ n < 0x20,
    unitOf? '0' '0' (hexDigit (n / 16)) (hexDigit (n % 16)) = some n := by decide

theorem scanQuoted_escaped (c : Char) (s : List Char) :
    scanQuoted (escaped c ++ s) = Quoted.cons (pieceOf c) (scanQuoted s) := by
  unfold escaped
  split
  case h_8 hquote hslash hb hf hn hr ht =>
    split_ifs with hcontrol
    · have hunit := unitOf_hexDigit c.toNat hcontrol
      have hpiece : pieceOf c = .unit c.toNat := by
        rw [pieceOf, if_pos]
        simp_all
      simp only [List.cons_append, List.nil_append, scanQuoted, hunit, hpiece]
    · rw [pieceOf, if_neg (fun h => hcontrol h.1)]
      exact scanQuoted_plain hquote hslash hcontrol s
  all_goals rfl

theorem joinPieces_unit {n : Nat} (h : n < 0xD800) (broken : Option Refusal) (rest : List Piece) :
    joinPieces broken (.unit n :: rest) = (Char.ofNat n :: ·) <$> joinPieces broken rest := by
  have hchar : n < 0xD800 ∨ 0xDFFF < n := .inl h
  cases rest with
  | nil => simp only [joinPieces, hchar, if_true]
  | cons p rest => cases p <;> simp only [joinPieces, hchar, if_true]

theorem joinPieces_pieceOf (cs : List Char) : joinPieces none (cs.map pieceOf) = .ok cs := by
  induction cs with
  | nil => rfl
  | cons c cs ih =>
      rw [List.map_cons, pieceOf]
      split_ifs with h
      · rw [joinPieces_unit (by omega), ih, Char.ofNat_toNat]
        rfl
      · rw [joinPieces, ih]
        rfl

theorem read_quotedText (s : String) : (quotedText s).read = .ok s := by
  rw [Quoted.read, quotedText, joinPieces_pieceOf]
  simp [Functor.map, Except.map]

theorem tokens_quoted (s : String) : tokens (quoted s).toList = [.atom (.text (quotedText s))] := by
  have hscan : ∀ cs : List Char, scanQuoted (cs.flatMap escaped ++ ['"']) =
      (⟨cs.map pieceOf, none⟩, []) := by
    intro cs
    induction cs with
    | nil => rfl
    | cons c cs ih =>
        rw [List.flatMap_cons, List.append_assoc, scanQuoted_escaped, ih]
        rfl
  rw [quoted, String.toList_ofList, List.cons_append, tokens_cons _ (by decide)]
  have htoken : scanToken '"' (s.toList.flatMap escaped ++ ['"']) =
      (.atom (.text (scanQuoted (s.toList.flatMap escaped ++ ['"'])).1),
        (scanQuoted (s.toList.flatMap escaped ++ ['"'])).2) := rfl
  rw [htoken, hscan]
  rfl

/-! ## Natural numbers -/

def numeral (n : Nat) : Number :=
  ⟨false, (Nat.toDigits 10 n).map fun c => c.toNat - '0'.toNat, none, none⟩

theorem head_toDigits_ne_zero {n : Nat} (h : 0 < n) : (Nat.toDigits 10 n).head? ≠ some '0' := by
  induction n using Nat.strong_induction_on with
  | _ n ih =>
    rcases Nat.lt_or_ge n 10 with hn | hn
    · rw [Nat.toDigits_of_lt_base hn]
      interval_cases n <;> decide
    · rw [Nat.toDigits_of_base_le (by decide) hn, List.head?_append_of_ne_nil _ Nat.toDigits_ne_nil]
      exact ih (n / 10) (by omega) (by omega)

theorem ofDigits_map_toNat (cs : List Char) :
    ofDigits (cs.map fun c => c.toNat - '0'.toNat) = Nat.ofDigitChars 10 cs 0 := by
  rw [ofDigits, List.foldl_map, Nat.ofDigitChars]
  simp only [Nat.mul_comm]

theorem quantity_numeral {n : Nat} (h : n < wordValues) :
    (numeral n).quantity = some (.natural n) := by
  have hvalue : ofDigits (numeral n).whole = n := by
    rw [numeral, ofDigits_map_toNat, Nat.ofDigitChars_toDigits (by decide) (by decide)]
  have hpart : ¬ ((numeral n).fraction.isSome ∨ (numeral n).exponent.isSome) := by
    rintro (hpart | hpart) <;> cases hpart
  rw [Number.quantity, if_neg hpart, hvalue]
  exact if_pos h

theorem scanToken_number {c : Char} {s r : List Char} {n : Number}
    (hc : c = '-' ∨ c.isDigit = true) (h : scanNumber (c :: s) = .ok (n, r)) :
    scanToken c s = (.atom (.number n), r) := by
  have hquote : c ≠ '"' := by
    rintro rfl
    rcases hc with hc | hc <;> cases hc
  have hatom : scanAtom c s = (.number n, r) := by
    rw [scanAtom, if_neg hquote, if_pos hc, h]
  unfold scanToken
  split
  case h_7 => rw [hatom]
  all_goals rcases hc with hc | hc <;> cases hc

theorem isDigit_toDigits (n : Nat) : ∀ c ∈ Nat.toDigits 10 n, c.isDigit = true :=
  fun _ => Nat.isDigit_of_mem_toDigits (by decide) (by decide)

theorem eq_zero_of_isDigit {c : Char} (hc : c.isDigit = true) (h : c.toNat - '0'.toNat = 0) :
    c = '0' := by
  have hle : '0'.toNat ≤ c.toNat := (Char.isDigit_iff_toNat.mp hc).1
  have heq : c.toNat = '0'.toNat := by omega
  rw [← Char.ofNat_toNat c, heq]
  rfl

theorem whole_numeral_ne (n d : Nat) (rest : List Nat) : (numeral n).whole ≠ 0 :: d :: rest := by
  intro h
  obtain ⟨c, cs, hcs, hc, htail⟩ := List.map_eq_cons_iff.mp h
  rcases Nat.eq_zero_or_pos n with rfl | hn
  · cases hcs
    cases htail
  · have hdigit := isDigit_toDigits n c (by rw [hcs]; exact List.mem_cons_self)
    apply head_toDigits_ne_zero hn
    rw [hcs, eq_zero_of_isDigit hdigit hc]
    rfl

theorem isBlank_of_isDigit {c : Char} (hc : c.isDigit = true) : isBlank c = false := by
  by_contra h
  simp only [isBlank, Bool.not_eq_false, Bool.or_eq_true, decide_eq_true_eq] at h
  obtain ((rfl | rfl) | rfl) | rfl := h <;> cases hc

theorem scanUnsigned_toDigits (n : Nat) :
    scanUnsigned false (Nat.toDigits 10 n) = .ok (numeral n, []) := by
  have hsplit : splitDigits (Nat.toDigits 10 n) = ((numeral n).whole, []) := by
    rw [splitDigits, List.takeWhile_eq_self_iff.mpr (isDigit_toDigits n),
      List.dropWhile_eq_nil_iff.mpr (isDigit_toDigits n)]
    rfl
  rw [scanUnsigned_eq_ok_iff, hsplit]
  refine ⟨rfl, rfl, ?_, whole_numeral_ne n, [], rfl, rfl⟩
  exact fun h => Nat.toDigits_ne_nil (List.map_eq_nil_iff.mp h)

theorem tokens_natural (n : Nat) : tokens (toString n).toList = [.atom (.number (numeral n))] := by
  have hlist : (toString n).toList = Nat.toDigits 10 n := String.toList_ofList
  have hscan := scanUnsigned_toDigits n
  have hdigits := isDigit_toDigits n
  rw [hlist]
  cases hcs : Nat.toDigits 10 n with
  | nil => exact absurd hcs Nat.toDigits_ne_nil
  | cons c cs =>
      rw [hcs] at hscan hdigits
      have hc : c.isDigit = true := hdigits c List.mem_cons_self
      have hsign : ∀ e ∈ (c :: cs).head?, e ≠ '-' := by
        rintro e ⟨⟩ rfl
        cases hc
      rw [← scanNumber_of_ne hsign] at hscan
      rw [tokens_cons _ (isBlank_of_isDigit hc), scanToken_number (.inr hc) hscan]
      rfl

/-! ## Values -/

/-- The text of a double is a single atom. -/
def IsLegible (x : Float) : Prop :=
  ∃ a : Atom, a.IsWhole ∧ tokens (realText x).toList = [.atom a]

mutual

def Value.reals : Value → List Float
  | .real x => [x]
  | .array vs => itemReals vs
  | .object ms => memberReals ms
  | _ => []

def Value.itemReals : List Value → List Float
  | [] => []
  | v :: vs => v.reals ++ Value.itemReals vs

def Value.memberReals : List (String × Value) → List Float
  | [] => []
  | (_, v) :: ms => v.reals ++ Value.memberReals ms

end

mutual

def Value.doc : Value → Doc
  | .null => .atom .null
  | .real x => (Document.ofText (realText x)).root
  | .natural n => .atom (.number (numeral n))
  | .text s => .atom (.text (quotedText s))
  | .array vs => .array (itemDocs vs)
  | .object ms => .object (memberDocs ms)

def Value.itemDocs : List Value → Items
  | [] => .closed
  | v :: vs => .item v.doc (Value.itemDocs vs)

def Value.memberDocs : List (String × Value) → Members
  | [] => .closed
  | (name, v) :: ms => .member (quotedText name) v.doc (Value.memberDocs ms)

end

namespace Value

theorem doc_real {x : Float} {a : Atom} (ha : a.IsWhole)
    (h : tokens (realText x).toList = [.atom a]) : (Value.real x).doc = .atom a := by
  rw [Value.doc, Document.ofText_eq (d := .atom a) ha h]

mutual

theorem isWhole_doc : ∀ v : Value, (∀ x ∈ v.reals, IsLegible x) → v.doc.IsWhole
  | .null, _ => trivial
  | .real x, h => by
      obtain ⟨a, ha, htokens⟩ := h x List.mem_cons_self
      rw [doc_real ha htokens]
      exact ha
  | .natural _, _ => trivial
  | .text _, _ => rfl
  | .array vs, h => isWhole_itemDocs vs h
  | .object ms, h => isWhole_memberDocs ms h

theorem isWhole_itemDocs : ∀ vs : List Value, (∀ x ∈ itemReals vs, IsLegible x) →
    (itemDocs vs).IsWhole
  | [], _ => trivial
  | v :: vs, h => by
      rw [itemReals, List.forall_mem_append] at h
      exact ⟨isWhole_doc v h.1, isWhole_itemDocs vs h.2⟩

theorem isWhole_memberDocs : ∀ ms : List (String × Value), (∀ x ∈ memberReals ms, IsLegible x) →
    (memberDocs ms).IsWhole
  | [], _ => trivial
  | (_, v) :: ms, h => by
      rw [memberReals, List.forall_mem_append] at h
      exact ⟨rfl, isWhole_doc v h.1, isWhole_memberDocs ms h.2⟩

end

theorem tokens_compact_append {v : Value} (h : ∀ x ∈ v.reals, IsLegible x)
    (hv : tokens v.compact.toList = v.doc.tokens) {t : List Char} (ht : EndsNumber t) :
    tokens (v.compact.toList ++ t) = v.doc.tokens ++ tokens t := by
  rw [tokens_append _ ht, hv]
  rw [hv]
  exact (isWhole_doc v h).tokens

theorem tokens_name (name : String) (s : List Char) :
    tokens ((quoted name).toList ++ ':' :: s) =
      .atom (.text (quotedText name)) :: .colon :: tokens s := by
  have hname := tokens_quoted name
  rw [tokens_append _ (endsNumber_cons (by decide) _), hname, tokens_cons _ (by decide)]
  · rfl
  · rw [hname]
    exact List.forall_mem_singleton.mpr rfl

mutual

/-- A value on one line has the tokens of its document. -/
theorem tokens_compact : ∀ v : Value, (∀ x ∈ v.reals, IsLegible x) →
    tokens v.compact.toList = v.doc.tokens
  | .null, _ => rfl
  | .real x, h => by
      obtain ⟨a, ha, htokens⟩ := h x List.mem_cons_self
      rw [compact, doc_real ha htokens, htokens]
      rfl
  | .natural n, _ => tokens_natural n
  | .text s, _ => tokens_quoted s
  | .array vs, h => by
      have hlist : (compact (.array vs)).toList = '[' :: ((compactItems vs).toList ++ [']']) := by
        simp [compact]
      rw [hlist, tokens_cons _ (by decide)]
      exact congrArg (Token.opening .square :: ·) (tokens_compactItems vs h)
  | .object ms, h => by
      have hlist : (compact (.object ms)).toList =
          '\x7b' :: ((compactMembers ms).toList ++ ['\x7d']) := by
        simp [compact]
      rw [hlist, tokens_cons _ (by decide)]
      exact congrArg (Token.opening .curly :: ·) (tokens_compactMembers ms h)

theorem tokens_compactItems : ∀ vs : List Value, (∀ x ∈ itemReals vs, IsLegible x) →
    tokens ((compactItems vs).toList ++ [']']) = (itemDocs vs).tokens
  | [], _ => rfl
  | [v], h => by
      rw [itemReals, List.forall_mem_append] at h
      have hends : EndsNumber [']'] := endsNumber_cons (by decide) _
      rw [compactItems, tokens_compact_append h.1 (tokens_compact v h.1) hends]
      rfl
  | v :: w :: vs, h => by
      rw [itemReals, List.forall_mem_append] at h
      have hlist : (compactItems (v :: w :: vs)).toList ++ [']'] =
          v.compact.toList ++ ',' :: ((compactItems (w :: vs)).toList ++ [']']) := by
        simp [compactItems]
      have hends : EndsNumber (',' :: ((compactItems (w :: vs)).toList ++ [']'])) :=
        endsNumber_cons (by decide) _
      rw [hlist, tokens_compact_append h.1 (tokens_compact v h.1) hends, tokens_cons _ (by decide)]
      exact congrArg (v.doc.tokens ++ Token.comma :: ·) (tokens_compactItems (w :: vs) h.2)

theorem tokens_compactMembers : ∀ ms : List (String × Value), (∀ x ∈ memberReals ms, IsLegible x) →
    tokens ((compactMembers ms).toList ++ ['\x7d']) = (memberDocs ms).tokens
  | [], _ => rfl
  | [(name, v)], h => by
      rw [memberReals, List.forall_mem_append] at h
      have hlist : (compactMembers [(name, v)]).toList ++ ['\x7d'] =
          (quoted name).toList ++ ':' :: (v.compact.toList ++ ['\x7d']) := by
        simp [compactMembers]
      have hends : EndsNumber ['\x7d'] := endsNumber_cons (by decide) _
      rw [hlist, tokens_name, tokens_compact_append h.1 (tokens_compact v h.1) hends]
      rfl
  | (name, v) :: m :: ms, h => by
      rw [memberReals, List.forall_mem_append] at h
      have hlist : (compactMembers ((name, v) :: m :: ms)).toList ++ ['\x7d'] =
          (quoted name).toList ++ ':' ::
            (v.compact.toList ++ ',' :: ((compactMembers (m :: ms)).toList ++ ['\x7d'])) := by
        simp [compactMembers]
      have hends : EndsNumber (',' :: ((compactMembers (m :: ms)).toList ++ ['\x7d'])) :=
        endsNumber_cons (by decide) _
      rw [hlist, tokens_name, tokens_compact_append h.1 (tokens_compact v h.1) hends,
        tokens_cons _ (by decide)]
      exact congrArg (Token.atom (.text (quotedText name)) :: Token.colon :: v.doc.tokens ++
        Token.comma :: ·) (tokens_compactMembers (m :: ms) h.2)

end

end Value

/-- What is written on one line holds the document it was written from. -/
theorem readText_compact {β : Type} (read : Doc → Except Refusal β) (v : Value)
    (h : ∀ x ∈ v.reals, IsLegible x) : readText read v.compact = read v.doc :=
  readText_eq read (v.isWhole_doc h) (v.tokens_compact h)

end TwoPhase.Json
