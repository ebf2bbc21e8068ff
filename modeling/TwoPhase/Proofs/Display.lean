/-
# `Display` — a constraint in running text says all of itself

The words of a constraint are told apart by the blanks between them: a sign
and a magnitude with the name of its variable for every term that is
written, the relation, and the right-hand side.  Names count the terms that
are not written, so with the number of coefficients known the text leaves
nothing open but the sign of a coefficient that is zero.
-/
import Mathlib
import TwoPhase.Program.Text
import TwoPhase.Proofs.Plain

namespace TwoPhase

/-! ## Words -/

def sentence (ws : List (List Char)) : List Char := ws.flatMap (' ' :: ·)

@[simp] theorem sentence_nil : sentence [] = [] := rfl

@[simp] theorem sentence_cons (w : List Char) (ws : List (List Char)) :
    sentence (w :: ws) = ' ' :: w ++ sentence ws := rfl

@[simp] theorem sentence_append (ws ws' : List (List Char)) :
    sentence (ws ++ ws') = sentence ws ++ sentence ws' := List.flatMap_append

theorem append_sentence (w : List Char) (ws : List (List Char)) :
    w ++ sentence ws = [' '].intercalate (w :: ws) := by
  induction ws generalizing w with
  | nil => simp
  | cons v ws ih =>
      rw [sentence_cons, List.cons_append, ih, List.intercalate_cons_cons]
      simp

/-- Words without blanks are found again in their sentence. -/
theorem sentence_inj {ws ws' : List (List Char)} (h : ∀ w ∈ ws, ' ' ∉ w) (h' : ∀ w ∈ ws', ' ' ∉ w)
    (heq : sentence ws = sentence ws') : ws = ws' := by
  have hsplit : ∀ vs : List (List Char), (∀ w ∈ vs, ' ' ∉ w) →
      List.splitOn ' ' (sentence vs) = [] :: vs := by
    intro vs hvs
    rw [← List.nil_append (sentence vs), append_sentence]
    refine List.splitOn_intercalate _ (fun w hw => ?_) (List.cons_ne_nil _ _)
    rcases List.mem_cons.mp hw with rfl | hw
    · exact List.not_mem_nil
    · exact hvs w hw
  have htail := hsplit ws h
  rw [heq, hsplit ws' h'] at htail
  exact (List.cons.inj htail).2.symm

/-! ## Terms -/

/-- The terms of a form that are written: the coefficients that are not zero, each with its
variable. -/
def terms (i : Nat) (coeffs : List Float) : List (Float × Nat) :=
  (coeffs.zipIdx i).filter fun t => !(t.1 == 0)

section

variable {v : Float} {i : Nat} {coeffs : List Float}

theorem terms_cons_zero (hv : (v == 0) = true) : terms i (v :: coeffs) = terms (i + 1) coeffs := by
  simp [terms, hv]

theorem terms_cons (hv : (v == 0) = false) :
    terms i (v :: coeffs) = (v, i) :: terms (i + 1) coeffs := by
  simp [terms, hv]

theorem le_of_mem_terms {t : Float × Nat} (ht : t ∈ terms i coeffs) : i ≤ t.2 :=
  List.le_snd_of_mem_zipIdx (List.mem_of_mem_filter ht)

theorem mem_of_mem_terms {t : Float × Nat} (ht : t ∈ terms i coeffs) :
    t.1 ∈ coeffs ∧ (t.1 == 0) = false := by
  obtain ⟨hmem, hnonzero⟩ := List.mem_filter.mp ht
  exact ⟨List.fst_mem_of_mem_zipIdx hmem, by simpa using hnonzero⟩

theorem terms_eq_nil_iff : terms i coeffs = [] ↔ coeffs.all (· == 0) = true := by
  induction coeffs generalizing i with
  | nil => simp [terms]
  | cons v coeffs ih =>
      cases hv : v == 0 with
      | true => rw [terms_cons_zero hv, ih, List.all_cons, hv, Bool.true_and]
      | false => simp [terms_cons hv, hv]

end

/-- Two coefficients are one, but for the sign of a zero. -/
def EqButZeroSign (v w : Float) : Prop := v.toBits = w.toBits ∨ (v == 0) = true ∧ (w == 0) = true

theorem EqButZeroSign.beq_zero {v w : Float} (h : EqButZeroSign v w) : (v == 0) = (w == 0) := by
  rcases h with hbits | ⟨hv, hw⟩
  · rw [toBits_inj.mp hbits]
  · rw [hv, hw]

theorem terms_cons_ne {v w : Float} {i : Nat} {cs ds : List Float} (hv : (v == 0) = true)
    (hw : (w == 0) = false) : terms i (v :: cs) ≠ terms i (w :: ds) := by
  rw [terms_cons_zero hv, terms_cons hw]
  intro h
  have hmem : (w, i) ∈ terms (i + 1) cs := h ▸ List.mem_cons_self
  exact absurd (le_of_mem_terms hmem) (Nat.not_succ_le_self i)

/-- Forms of one length with the same terms differ in the signs of zeros only. -/
theorem terms_eq_iff {cs ds : List Float} (hlen : cs.length = ds.length) (i : Nat) :
    terms i cs = terms i ds ↔ List.Forall₂ EqButZeroSign cs ds := by
  induction cs generalizing ds i with
  | nil =>
      obtain rfl := List.length_eq_zero_iff.mp hlen.symm
      exact iff_of_true rfl .nil
  | cons v cs ih =>
      obtain ⟨w, ds, rfl⟩ := List.exists_cons_of_length_eq_add_one hlen.symm
      specialize ih (Nat.succ.inj hlen) (i + 1)
      rw [List.forall₂_cons]
      cases hv : v == 0 <;> cases hw : w == 0
      · rw [terms_cons hv, terms_cons hw, List.cons.injEq, ih, Prod.mk.injEq, and_iff_left rfl]
        refine and_congr_left fun _ => ⟨fun h => .inl (h ▸ rfl), fun h => ?_⟩
        rcases h with hbits | ⟨hzero, -⟩
        · exact toBits_inj.mp hbits
        · exact absurd (hv.symm.trans hzero) Bool.false_ne_true
      · refine iff_of_false (terms_cons_ne hw hv).symm fun h => ?_
        exact absurd (hv.symm.trans (h.1.beq_zero.trans hw)) Bool.false_ne_true
      · refine iff_of_false (terms_cons_ne hv hw) fun h => ?_
        exact absurd (hw.symm.trans (h.1.beq_zero.symm.trans hv)) Bool.false_ne_true
      · rw [terms_cons_zero hv, terms_cons_zero hw, ih, and_iff_right (.inr ⟨hv, hw⟩)]

/-! ## The words of a form -/

def signWord (t : Float × Nat) : List Char := if t.1 < 0 then ['-'] else ['+']

def termWord (t : Float × Nat) : List Char := (termText t.1 t.2).toList

def laterWords (ts : List (Float × Nat)) : List (List Char) :=
  ts.flatMap fun t => [signWord t, termWord t]

/-- The words of a form: its first term has its sign attached. -/
def formWords : List (Float × Nat) → List (List Char)
  | [] => [['0']]
  | t :: ts => (signed (decide (t.1 < 0)) (termText t.1 t.2)).toList :: laterWords ts

theorem toList_termsText_false (i : Nat) (cs : List Float) :
    (termsText false i cs).toList = sentence (laterWords (terms i cs)) := by
  induction cs generalizing i with
  | nil => rfl
  | cons v cs ih =>
      rw [termsText]
      cases hv : v == 0 with
      | true => rw [if_pos rfl, ih, terms_cons_zero hv]
      | false =>
          have hsign : (if v < 0 then " - " else " + ").toList =
              ' ' :: signWord (v, i) ++ [' '] := by
            rw [signWord]
            split <;> rfl
          simp only [Bool.false_eq_true, if_false, String.toList_append, ih, terms_cons hv, hsign]
          simp [laterWords, termWord]

theorem toList_termsText_true (i : Nat) {cs : List Float} (h : terms i cs ≠ []) :
    ' ' :: (termsText true i cs).toList = sentence (formWords (terms i cs)) := by
  induction cs generalizing i with
  | nil => exact absurd rfl h
  | cons v cs ih =>
      rw [termsText]
      cases hv : v == 0 with
      | true =>
          rw [terms_cons_zero hv] at h ⊢
          rw [if_pos rfl, ih _ h]
      | false =>
          have hsign : (if v < 0 then "-" else "") ++ termText v i =
              signed (decide (v < 0)) (termText v i) := by
            rw [signed]
            split <;> simp [*]
          simp only [Bool.false_eq_true, if_false, if_true, terms_cons hv, hsign,
            String.toList_append, toList_termsText_false]
          rfl

theorem toList_linearText (cs : List Float) :
    ' ' :: (linearText cs).toList = sentence (formWords (terms 0 cs)) := by
  rw [linearText]
  split
  · rename_i hall
    rw [terms_eq_nil_iff.mpr hall]
    rfl
  · rename_i hall
    exact toList_termsText_true 0 (terms_eq_nil_iff.not.mpr hall)

/-! ## Telling words apart -/

theorem toList_variableName (i : Nat) :
    (Column.variableName i).toList = 'x' :: Nat.toDigits 10 (i + 1) := by
  have hname : Column.variableName i = "x" ++ toString (i + 1) := rfl
  have hdigits : (toString (i + 1)).toList = Nat.toDigits 10 (i + 1) := String.toList_ofList
  rw [hname, String.toList_append, hdigits]
  rfl

theorem variableName_inj {i j : Nat} (h : Column.variableName i = Column.variableName j) :
    i = j := by
  have hlist := congrArg String.toList h
  rw [toList_variableName, toList_variableName] at hlist
  have hvalue := congrArg (Nat.ofDigitChars 10 · 0) (List.cons.inj hlist).2
  simp only [Nat.ofDigitChars_toDigits (b := 10) (by decide) (by decide)] at hvalue
  omega

def IsTerm (t : Float × Nat) : Prop := t.1.isNaN = false ∧ (t.1 == 0) = false

theorem toList_termText (v : Float) (i : Nat) : (termText v i).toList =
    (plainText (Scalar.abs v)).toList ++ '*' :: (Column.variableName i).toList := by
  simp only [termText, String.toList_append, List.append_assoc]
  rfl

theorem not_mem_variableName {c : Char} (hc : c.isDigit = false) (hx : c ≠ 'x') (i : Nat) :
    c ∉ (Column.variableName i).toList := by
  intro hmem
  rw [toList_variableName] at hmem
  rcases List.mem_cons.mp hmem with hx' | hdigit
  · exact hx hx'
  · rw [Nat.isDigit_of_mem_toDigits (by decide) (by decide) hdigit] at hc
    cases hc

theorem not_mem_plainText_abs {v : Float} (hv : v.isNaN = false) {c : Char}
    (hc : c.isDigit = false) (hother : c ∉ ['.', 'i', 'n', 'f']) :
    c ∉ (plainText (Scalar.abs v)).toList := by
  intro hmem
  rcases (plainText_abs_chars hv).2 _ hmem with hdigit | hletter
  · rw [hdigit] at hc
    cases hc
  · exact hother hletter

theorem termText_inj {t u : Float × Nat} (ht : IsTerm t) (hu : IsTerm u)
    (hside : t.1 < 0 ↔ u.1 < 0) (h : termText t.1 t.2 = termText u.1 u.2) : t = u := by
  have hlist := congrArg String.toList h
  rw [toList_termText, toList_termText] at hlist
  obtain ⟨hmagnitude, -, hname⟩ := (List.append_cons_inj_of_notMem
    (not_mem_plainText_abs ht.1 rfl (by decide)) (not_mem_variableName rfl (by decide) _)).mp hlist
  exact Prod.ext
    (plainText_abs_inj ht.1 hu.1 ht.2 hu.2 hside (String.toList_inj.mp hmagnitude))
    (variableName_inj (String.toList_inj.mp hname))

theorem laterWords_inj {ts us : List (Float × Nat)} (hts : ∀ t ∈ ts, IsTerm t)
    (hus : ∀ u ∈ us, IsTerm u) (h : laterWords ts = laterWords us) : ts = us := by
  induction ts generalizing us with
  | nil =>
      cases us with
      | nil => rfl
      | cons u us => cases h
  | cons t ts ih =>
      cases us with
      | nil => cases h
      | cons u us =>
          obtain ⟨hsign, hrest⟩ := List.cons.inj h
          obtain ⟨hterm, hlater⟩ := List.cons.inj hrest
          obtain ⟨ht, hts⟩ := List.forall_mem_cons.mp hts
          obtain ⟨hu, hus⟩ := List.forall_mem_cons.mp hus
          have hside : t.1 < 0 ↔ u.1 < 0 := by
            simp only [signWord] at hsign
            split at hsign <;> split at hsign <;> simp_all
          rw [termText_inj ht hu hside (String.toList_inj.mp hterm), ih hts hus hlater]

theorem head_termText {t : Float × Nat} (ht : IsTerm t) :
    (termText t.1 t.2).toList.head? ≠ some '-' := by
  have hhead := (plainText_abs_chars ht.1).1
  rw [toList_termText]
  cases hmagnitude : (plainText (Scalar.abs t.1)).toList with
  | nil => simp
  | cons c cs =>
      rw [hmagnitude] at hhead
      exact hhead

/-- A form without terms is written as no term is: without an asterisk. -/
theorem signed_termText_ne (b : Bool) (t : Float × Nat) :
    (signed b (termText t.1 t.2)).toList ≠ ['0'] := by
  intro h
  have hterm : '*' ∈ (termText t.1 t.2).toList := by simp [toList_termText]
  have hmem : '*' ∈ (signed b (termText t.1 t.2)).toList := mem_signed.mpr (.inr hterm)
  rw [h] at hmem
  cases List.mem_singleton.mp hmem

/-- The words of a form tell which terms it has. -/
theorem formWords_inj {ts us : List (Float × Nat)} (hts : ∀ t ∈ ts, IsTerm t)
    (hus : ∀ u ∈ us, IsTerm u) (h : formWords ts = formWords us) : ts = us := by
  cases ts with
  | nil =>
      cases us with
      | nil => rfl
      | cons u us => exact absurd (List.cons.inj h).1.symm (signed_termText_ne _ u)
  | cons t ts =>
      cases us with
      | nil => exact absurd (List.cons.inj h).1 (signed_termText_ne _ t)
      | cons u us =>
          obtain ⟨hfirst, hlater⟩ := List.cons.inj h
          obtain ⟨ht, hts⟩ := List.forall_mem_cons.mp hts
          obtain ⟨hu, hus⟩ := List.forall_mem_cons.mp hus
          obtain ⟨hside, hterm⟩ :=
            signed_inj (head_termText ht) (head_termText hu) (String.toList_inj.mp hfirst)
          rw [termText_inj ht hu (decide_eq_decide.mp hside) hterm, laterWords_inj hts hus hlater]

theorem blank_notMem_termText {t : Float × Nat} (ht : IsTerm t) :
    ' ' ∉ (termText t.1 t.2).toList := by
  rw [toList_termText]
  intro hmem
  rcases List.mem_append.mp hmem with hmagnitude | hname
  · exact not_mem_plainText_abs ht.1 rfl (by decide) hmagnitude
  · rcases List.mem_cons.mp hname with hasterisk | hname
    · cases hasterisk
    · exact not_mem_variableName rfl (by decide) _ hname

theorem blank_notMem_formWords {ts : List (Float × Nat)} (hts : ∀ t ∈ ts, IsTerm t) :
    ∀ w ∈ formWords ts, ' ' ∉ w := by
  cases ts with
  | nil =>
      intro w hw
      rw [List.mem_singleton.mp hw]
      decide
  | cons t ts =>
      obtain ⟨ht, hts⟩ := List.forall_mem_cons.mp hts
      intro w hw
      rcases List.mem_cons.mp hw with rfl | hw
      · rw [mem_signed]
        rintro (⟨-, hminus⟩ | hterm)
        · cases hminus
        · exact blank_notMem_termText ht hterm
      · obtain ⟨u, hu, hw⟩ := List.mem_flatMap.mp hw
        rcases List.mem_cons.mp hw with rfl | hw
        · rw [signWord]
          split <;> decide
        · rw [List.mem_singleton.mp hw]
          exact blank_notMem_termText (hts u hu)

/-! ## Constraints -/

def Constraint.words (c : Constraint Float) : List (List Char) :=
  formWords (terms 0 c.coeffs) ++ [c.relation.symbol.toList, (plainText c.rhs).toList]

theorem Constraint.toList_text (c : Constraint Float) :
    ' ' :: c.text.toList = sentence c.words := by
  have hrhs : Numeral.text c.rhs = plainText c.rhs := rfl
  simp only [Constraint.text, hrhs, String.toList_append, words, sentence_append,
    ← toList_linearText]
  simp

def Constraint.NoNaN (c : Constraint Float) : Prop :=
  (∀ v ∈ c.coeffs, v.isNaN = false) ∧ c.rhs.isNaN = false

theorem Constraint.NoNaN.isTerm {c : Constraint Float} (hc : c.NoNaN) :
    ∀ t ∈ terms 0 c.coeffs, IsTerm t := by
  intro t ht
  obtain ⟨hmem, hnonzero⟩ := mem_of_mem_terms ht
  exact ⟨hc.1 _ hmem, hnonzero⟩

theorem Constraint.blank_notMem_words {c : Constraint Float} (hc : c.NoNaN) :
    ∀ w ∈ c.words, ' ' ∉ w := by
  intro w hw
  rcases List.mem_append.mp hw with hform | hend
  · exact blank_notMem_formWords hc.isTerm w hform
  · rcases List.mem_cons.mp hend with rfl | hrhs
    · cases c.relation <;> decide
    · rw [List.mem_singleton.mp hrhs]
      intro hmem
      rcases plainText_chars hc.2 _ hmem with hdigit | hother
      · cases hdigit
      · simp at hother

theorem Relation.symbol_inj {r r' : Relation} (h : r.symbol = r'.symbol) : r = r' := by
  cases r <;> cases r' <;> first | rfl | exact absurd h (by decide)

/-- The text of a constraint tells its coefficients, up to the sign of a zero, its relation and
its right-hand side. -/
theorem Constraint.text_eq_iff (c d : Constraint Float) (hlen : c.coeffs.length = d.coeffs.length)
    (hc : c.NoNaN) (hd : d.NoNaN) :
    c.text = d.text ↔ List.Forall₂ EqButZeroSign c.coeffs d.coeffs ∧ c.relation = d.relation ∧
      c.rhs.toBits = d.rhs.toBits := by
  rw [← terms_eq_iff hlen 0, toBits_inj]
  constructor
  · intro htext
    have hsentence : sentence c.words = sentence d.words := by
      rw [← toList_text, ← toList_text, htext]
    have hwords := sentence_inj (blank_notMem_words hc) (blank_notMem_words hd) hsentence
    obtain ⟨hform, hend⟩ := List.append_inj' hwords rfl
    obtain ⟨hrelation, hrhs⟩ := List.cons.inj hend
    exact ⟨formWords_inj hc.isTerm hd.isTerm hform,
      Relation.symbol_inj (String.toList_inj.mp hrelation),
      plainText_inj hc.2 hd.2 (String.toList_inj.mp (List.cons.inj hrhs).1)⟩
  · rintro ⟨hterms, hrelation, hrhs⟩
    have hwords : c.words = d.words := by rw [words, words, hterms, hrelation, hrhs]
    have hlist : ' ' :: c.text.toList = ' ' :: d.text.toList := by
      rw [toList_text, toList_text, hwords]
    exact String.toList_inj.mp (List.cons.inj hlist).2

/-- The sign of a zero shows on the right-hand side and nowhere else. -/
theorem Constraint.text_eq_iff_zeros :
    let c : Constraint Float := ⟨[1, -0, -2.5], .atMost, 0⟩
    let d : Constraint Float := ⟨[1, 0, -2.5], .atMost, 0⟩
    let e : Constraint Float := ⟨[1, 0, -2.5], .atMost, -0⟩
    (c.NoNaN ∧ d.NoNaN ∧ e.NoNaN) ∧ c.text = d.text ∧ d.text ≠ e.text := by
  intro c d e
  have hc : c.NoNaN := ⟨by decide +kernel, by decide +kernel⟩
  have hd : d.NoNaN := ⟨by decide +kernel, by decide +kernel⟩
  have he : e.NoNaN := ⟨by decide +kernel, by decide +kernel⟩
  refine ⟨⟨hc, hd, he⟩, (text_eq_iff c d rfl hc hd).mpr ⟨?_, rfl, rfl⟩, fun htext => ?_⟩
  · exact .cons (.inl rfl) (.cons (.inr ⟨by decide +kernel, by decide +kernel⟩)
      (.cons (.inl rfl) .nil))
  · have hbits := ((text_eq_iff d e rfl hd he).mp htext).2.2
    revert hbits
    decide +kernel

end TwoPhase
