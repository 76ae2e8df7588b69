import Mathlib.Data.List.TakeWhile
import DocumentAi.Lib.Substitution

/-!
# Masking personal identifiers in log texts (`logging/pii.py`)

| here | there |
| --- | --- |
| `findTin`      | `TIN_RE` (`:60-70`), with the character classes of `re.ASCII` |
| `findPassport` | `PASSPORT_RE` (`:73`), with the Unicode classes |
| `maskText`     | the two substitutions of `_mask_pii` (`:127-131`); a text without a match is left alone, so the two `search` calls are left out |
| `maskPii`      | `_mask_pii`; `str` gives the text of a value |
| `TinMatch`, `PassportMatch` | what the two expressions match, and where |

Neither expression leaves a choice: after a digit a dash is taken when it is there, and a passport
number is a word of its own.
-/

namespace DocumentAi.Pii

open Subst (Matcher Implements sub)

/-! ## Character classes -/

/-- `\w` under `re.ASCII`. -/
def isAsciiWord (c : Char) : Bool := c.isAlphanum || c == '_'

/-- `\w` and `\d` of a `str` pattern. -/
structure UnicodeClasses where
  word        : Char → Bool
  digit       : Char → Bool
  word_ascii  : ∀ c, c.toNat < 128 → word c = isAsciiWord c
  digit_ascii : ∀ c, c.toNat < 128 → digit c = c.isDigit
  digit_word  : ∀ c, digit c = true → word c = true

/-- `\b`: one of the two neighbours is a word character. -/
def wordBoundary (word : Char → Bool) (before after : List Char) : Bool :=
  before.head?.any word != after.head?.any word

/-- `(?<!\w-)` fails: `before` has the nearest character first. -/
def dashBefore : List Char → Bool
  | '-' :: w :: _ => isAsciiWord w
  | _             => false

/-- `(?!\.\d)` fails. -/
def dotAfter : List Char → Bool
  | '.' :: d :: _ => d.isDigit
  | _             => false

/-! ## The two expressions -/

/-- `-?`. -/
def takeDash : List Char → List Char × List Char
  | '-' :: s => (['-'], s)
  | s        => ([], s)

/-- `(\d-?){n}\d`. -/
def takeTin : Nat → List Char → Option (List Char × List Char)
  | _, []         => none
  | 0, c :: s     => if c.isDigit then some ([c], s) else none
  | n + 1, c :: s =>
    if c.isDigit then
      (takeTin n (takeDash s).2).map fun r => (c :: ((takeDash s).1 ++ r.1), r.2)
    else none

def findTin : Matcher := fun before s =>
  if wordBoundary isAsciiWord before s && !dashBefore before then
    match takeTin 8 s with
    | some (m, rest) =>
      if wordBoundary isAsciiWord (m.reverse ++ before) rest && !dotAfter rest then some (m, rest)
      else none
    | none => none
  else none

def findPassport (U : UnicodeClasses) : Matcher := fun before s =>
  let letters := (s.takeWhile Char.isUpper).take 2
  let numeric := s.drop letters.length
  let digits := (numeric.takeWhile U.digit).take 8
  let rest := numeric.drop digits.length
  if wordBoundary U.word before s && !letters.isEmpty && decide (7 ≤ digits.length) &&
      wordBoundary U.word ((letters ++ digits).reverse ++ before) rest then
    some (letters ++ digits, rest)
  else none

/-! ## Masking -/

def stars : List Char := "*********".toList

def maskText (U : UnicodeClasses) (s : List Char) : List Char :=
  sub stars (findPassport U) 0 [] (sub stars findTin 0 [] s)

/-- The masked text, or the value itself when nothing is masked. -/
def maskPii {V : Type} (U : UnicodeClasses) (str : V → String) (value : V) : V ⊕ String :=
  let s := String.ofList (maskText U (str value).toList)
  if s ≠ str value then .inr s else .inl value

/-- `str` of a result. -/
def strOf {V : Type} (str : V → String) : V ⊕ String → String := Sum.elim str id

theorem strOf_maskPii {V : Type} (U : UnicodeClasses) (str : V → String) (value : V) :
    (strOf str (maskPii U str value)).toList = maskText U (str value).toList := by
  unfold maskPii
  dsimp only
  split
  · exact String.toList_ofList
  · next h =>
    change (str value).toList = _
    conv_lhs => rw [← not_not.1 h]
    exact String.toList_ofList

/-! ## What they match -/

inductive TinShape : Nat → List Char → Prop
  | last {d} : d.isDigit = true → TinShape 0 [d]
  | more {n d dash m} : d.isDigit = true → (dash = [] ∨ dash = ['-']) → TinShape n m →
      TinShape (n + 1) (d :: (dash ++ m))

def wordAt (word : Char → Bool) (s : List Char) : Bool := s.head?.any word

structure TinMatch (before m rest : List Char) : Prop where
  shape : TinShape 8 m
  start : wordAt isAsciiWord before = false
  dash  : dashBefore before = false
  stop  : wordAt isAsciiWord rest = false
  dot   : dotAfter rest = false

structure PassportShape (U : UnicodeClasses) (m : List Char) : Prop where
  parts : ∃ letters digits, m = letters ++ digits ∧ (∀ c ∈ letters, c.isUpper = true) ∧
    (letters.length = 1 ∨ letters.length = 2) ∧ (∀ c ∈ digits, U.digit c = true) ∧
    (digits.length = 7 ∨ digits.length = 8)

structure PassportMatch (U : UnicodeClasses) (before m rest : List Char) : Prop where
  shape : PassportShape U m
  start : wordAt U.word before = false
  stop  : wordAt U.word rest = false

theorem isAsciiWord_of_isDigit {c : Char} (h : c.isDigit = true) : isAsciiWord c = true := by
  simp [isAsciiWord, Char.isAlphanum, h]

theorem isAsciiWord_of_isUpper {c : Char} (h : c.isUpper = true) : isAsciiWord c = true := by
  have halpha : c.isAlpha = true := by
    change (c.isUpper || c.isLower) = true
    rw [h, Bool.true_or]
  simp [isAsciiWord, Char.isAlphanum, halpha]

theorem ascii_of_isDigit {c : Char} (h : c.isDigit = true) : c.toNat < 128 := by
  simp only [Char.isDigit, Bool.and_eq_true, decide_eq_true_eq, UInt32.le_iff_toNat_le] at h
  exact Nat.lt_of_le_of_lt h.2 (by decide)

theorem isUpper_iff {c : Char} : c.isUpper = true ↔ 65 ≤ c.toNat ∧ c.toNat ≤ 90 := decide_eq_true_iff

theorem isDigit_le {c : Char} (h : c.isDigit = true) : c.toNat ≤ 57 := by
  simp only [Char.isDigit, Bool.and_eq_true, decide_eq_true_eq, UInt32.le_iff_toNat_le] at h
  exact h.2

theorem not_isUpper_of_isDigit {c : Char} (h : c.isDigit = true) : c.isUpper = false := by
  by_contra hupper
  have hge := (isUpper_iff.1 (by simpa using hupper)).1
  have hle := isDigit_le h
  omega

theorem ascii_of_isUpper {c : Char} (h : c.isUpper = true) : c.toNat < 128 :=
  Nat.lt_of_le_of_lt (isUpper_iff.1 h).2 (by decide)

theorem UnicodeClasses.word_of_isDigit (U : UnicodeClasses) {c : Char} (h : c.isDigit = true) :
    U.word c = true := by
  rw [U.word_ascii c (ascii_of_isDigit h)]
  exact isAsciiWord_of_isDigit h

theorem UnicodeClasses.word_of_isUpper (U : UnicodeClasses) {c : Char} (h : c.isUpper = true) :
    U.word c = true := by
  rw [U.word_ascii c (ascii_of_isUpper h)]
  exact isAsciiWord_of_isUpper h

theorem TinShape.head {n : Nat} {m : List Char} (h : TinShape n m) :
    ∃ d m', m = d :: m' ∧ d.isDigit = true := by
  cases h with
  | last hd => exact ⟨_, _, rfl, hd⟩
  | more hd _ _ => exact ⟨_, _, rfl, hd⟩

theorem TinShape.last_digit {n : Nat} {m : List Char} (h : TinShape n m) :
    ∃ m' d, m = m' ++ [d] ∧ d.isDigit = true := by
  induction h with
  | last hd => exact ⟨[], _, rfl, hd⟩
  | @more n d dash m _ _ _ ih =>
    obtain ⟨m', d', rfl, hd'⟩ := ih
    refine ⟨d :: (dash ++ m'), d', ?_, hd'⟩
    rw [List.cons_append, List.append_assoc]

/-- Digits and dashes. -/
theorem TinShape.mem {n : Nat} {m : List Char} (h : TinShape n m) :
    ∀ c ∈ m, c.isDigit = true ∨ c = '-' := by
  induction h with
  | last hd =>
    intro c hc
    rw [List.mem_singleton.1 hc]
    exact .inl hd
  | more hd hdash _ ih =>
    intro c hc
    rcases List.mem_cons.1 hc with rfl | hc
    · exact .inl hd
    rcases List.mem_append.1 hc with hc | hc
    · rcases hdash with rfl | rfl
      · cases hc
      · exact .inr (List.mem_singleton.1 hc)
    · exact ih c hc

theorem takeDash_eq (s : List Char) : (takeDash s).1 ++ (takeDash s).2 = s ∧
    ((takeDash s).1 = [] ∨ (takeDash s).1 = ['-']) := by
  unfold takeDash
  split
  · exact ⟨rfl, .inr rfl⟩
  · exact ⟨rfl, .inl rfl⟩

theorem takeDash_append {dash s : List Char} (h : dash = [] ∨ dash = ['-'])
    (hs : ∀ s', s ≠ '-' :: s') : takeDash (dash ++ s) = (dash, s) := by
  rcases h with rfl | rfl
  · rw [List.nil_append]
    unfold takeDash
    split
    · next s' => exact absurd rfl (hs s')
    · rfl
  · rfl

theorem takeTin_sound : ∀ (n : Nat) (s m rest : List Char), takeTin n s = some (m, rest) →
    s = m ++ rest ∧ TinShape n m
  | 0, [], m, rest, h         => by cases h
  | n + 1, [], m, rest, h     => by cases h
  | 0, c :: s, m, rest, h     => by
    rw [takeTin] at h
    by_cases hc : c.isDigit = true
    · rw [if_pos hc] at h
      cases h
      exact ⟨rfl, .last hc⟩
    · rw [if_neg hc] at h
      cases h
  | n + 1, c :: s, m, rest, h => by
    rw [takeTin] at h
    by_cases hc : c.isDigit = true
    · rw [if_pos hc] at h
      obtain ⟨⟨m', rest'⟩, hr, heq⟩ := Option.map_eq_some_iff.1 h
      cases heq
      obtain ⟨hs, hshape⟩ := takeTin_sound n _ _ _ hr
      obtain ⟨hdash, hcases⟩ := takeDash_eq s
      refine ⟨?_, .more hc hcases hshape⟩
      rw [List.cons_append, List.append_assoc, ← hs, hdash]
    · rw [if_neg hc] at h
      cases h

theorem takeTin_complete {n : Nat} {m : List Char} (h : TinShape n m) (rest : List Char) :
    takeTin n (m ++ rest) = some (m, rest) := by
  induction h with
  | last hd => exact if_pos hd
  | @more n d dash m hd hdash hm ih =>
    obtain ⟨d', m', hm', hd'⟩ := hm.head
    have htake : takeDash (dash ++ (m ++ rest)) = (dash, m ++ rest) := by
      refine takeDash_append hdash fun s' heq => ?_
      rw [hm', List.cons_append] at heq
      rw [(List.cons.inj heq).1] at hd'
      cases hd'
    rw [List.cons_append, List.append_assoc, takeTin, if_pos hd, htake]
    dsimp only
    rw [ih]
    rfl

theorem implements_findTin : Implements findTin TinMatch := by
  constructor
  · intro before s m rest h
    unfold findTin at h
    split at h
    next hstart =>
      rw [Bool.and_eq_true, Bool.not_eq_true'] at hstart
      cases htake : takeTin 8 s with
      | none =>
        rw [htake] at h
        cases h
      | some r =>
        obtain ⟨m', rest'⟩ := r
        rw [htake] at h
        dsimp only at h
        split at h
        next hstop =>
          cases h
          rw [Bool.and_eq_true, Bool.not_eq_true'] at hstop
          obtain ⟨rfl, hshape⟩ := takeTin_sound 8 s m rest htake
          obtain ⟨d, m₁, rfl, hd⟩ := hshape.head
          obtain ⟨m₂, d', hlast, hd'⟩ := hshape.last_digit
          refine ⟨rfl, List.cons_ne_nil _ _, hshape, ?_, hstart.2, ?_, hstop.2⟩
          · have hb := hstart.1
            simp only [wordBoundary, List.cons_append, List.head?_cons, Option.any_some,
              isAsciiWord_of_isDigit hd, bne_iff_ne, ne_eq, Bool.not_eq_true] at hb
            exact hb
          · have hb := hstop.1
            rw [hlast, List.reverse_append] at hb
            simp only [wordBoundary, List.reverse_singleton, List.cons_append, List.head?_cons,
              Option.any_some, isAsciiWord_of_isDigit hd', bne_iff_ne, ne_eq] at hb
            exact Bool.not_eq_true _ ▸ fun ht => hb ht.symm
        next => cases h
    next => cases h
  · intro before m rest h
    obtain ⟨d, m₁, hm, hd⟩ := h.shape.head
    obtain ⟨m₂, d', hlast, hd'⟩ := h.shape.last_digit
    have hstart : wordBoundary isAsciiWord before (m ++ rest) = true := by
      have hs := h.start
      rw [wordAt] at hs
      rw [wordBoundary, hs, hm, List.cons_append, List.head?_cons, Option.any_some,
        isAsciiWord_of_isDigit hd]
      rfl
    have hstop : wordBoundary isAsciiWord (m.reverse ++ before) rest = true := by
      have hs := h.stop
      rw [wordAt] at hs
      rw [wordBoundary, hs, hlast, List.reverse_append, List.reverse_singleton, List.singleton_append,
        List.cons_append, List.head?_cons, Option.any_some, isAsciiWord_of_isDigit hd']
      rfl
    unfold findTin
    rw [hstart, h.dash, takeTin_complete h.shape]
    dsimp only
    rw [hstop, h.dot]
    rfl

theorem takeWhile_append_stop {p : Char → Bool} {x y : List Char} (hx : ∀ c ∈ x, p c = true)
    (hy : wordAt p y = false) : (x ++ y).takeWhile p = x := by
  rw [List.takeWhile_append_of_pos hx]
  cases y with
  | nil => rw [List.takeWhile_nil, List.append_nil]
  | cons c y =>
    have hc : p c = false := hy
    rw [List.takeWhile_cons, if_neg (by rw [hc]; decide), List.append_nil]

theorem take_takeWhile_append_drop (p : Char → Bool) (n : Nat) (s : List Char) :
    (s.takeWhile p).take n ++ s.drop ((s.takeWhile p).take n).length = s := by
  have hprefix : (s.takeWhile p).take n <+: s := (List.take_prefix n _).trans (List.takeWhile_prefix p)
  exact List.prefix_iff_eq_append.1 hprefix

variable {U : UnicodeClasses}

/-- An upper-case letter is no digit. -/
theorem wordAt_isUpper_of_digits {digits rest : List Char} (h : ∀ c ∈ digits, U.digit c = true)
    (hne : digits ≠ []) : wordAt Char.isUpper (digits ++ rest) = false := by
  cases digits with
  | nil => exact absurd rfl hne
  | cons d digits =>
    have hd := h d List.mem_cons_self
    by_contra hupper
    have hupper : d.isUpper = true := by simpa [wordAt] using hupper
    rw [U.digit_ascii d (ascii_of_isUpper hupper)] at hd
    rw [not_isUpper_of_isDigit hd] at hupper
    cases hupper

theorem PassportShape.head {m : List Char} (h : PassportShape U m) :
    ∃ c m', m = c :: m' ∧ c.isUpper = true := by
  obtain ⟨letters, digits, rfl, hupper, hlen, -, -⟩ := h.parts
  cases letters with
  | nil => simp at hlen
  | cons c letters => exact ⟨c, letters ++ digits, rfl, hupper c List.mem_cons_self⟩

theorem PassportShape.last_digit {m : List Char} (h : PassportShape U m) :
    ∃ m' d, m = m' ++ [d] ∧ U.digit d = true := by
  obtain ⟨letters, digits, rfl, -, -, hdigit, hlen⟩ := h.parts
  rcases List.eq_nil_or_concat digits with rfl | ⟨digits', d, rfl⟩
  · simp at hlen
  · refine ⟨letters ++ digits', d, ?_, hdigit d (by simp)⟩
    rw [List.concat_eq_append, List.append_assoc]

theorem implements_findPassport (U : UnicodeClasses) : Implements (findPassport U) (PassportMatch U) := by
  constructor
  · intro before s m rest h
    unfold findPassport at h
    dsimp only at h
    split at h
    next hcond =>
      obtain ⟨hm, hrest⟩ := Prod.mk.inj (Option.some.inj h)
      rw [Bool.and_eq_true, Bool.and_eq_true, Bool.and_eq_true, decide_eq_true_eq,
        Bool.not_eq_true', List.isEmpty_eq_false_iff] at hcond
      obtain ⟨⟨⟨hstart, hletters⟩, hdigits⟩, hstop⟩ := hcond
      have hs := take_takeWhile_append_drop Char.isUpper 2 s
      generalize hL : (s.takeWhile Char.isUpper).take 2 = letters at *
      have hn := take_takeWhile_append_drop U.digit 8 (s.drop letters.length)
      generalize hD : ((s.drop letters.length).takeWhile U.digit).take 8 = digits at *
      have hupper : ∀ c ∈ letters, c.isUpper = true := fun c hc =>
        List.mem_takeWhile_imp (List.mem_of_mem_take (hL ▸ hc))
      have hdigit : ∀ c ∈ digits, U.digit c = true := fun c hc =>
        List.mem_takeWhile_imp (List.mem_of_mem_take (hD ▸ hc))
      have hle : letters.length ≤ 2 := by
        rw [← hL]
        exact List.length_take_le _ _
      have hle' : digits.length ≤ 8 := by
        rw [← hD]
        exact List.length_take_le _ _
      have hpos : 0 < letters.length := List.length_pos_iff.2 hletters
      have hshape : PassportShape U m :=
        ⟨letters, digits, hm.symm, hupper, by omega, hdigit, by omega⟩
      have htext : s = m ++ rest := by
        rw [← hm, ← hrest, List.append_assoc, hn, hs]
      obtain ⟨c, m₁, hc, hcup⟩ := hshape.head
      obtain ⟨m₂, d, hd, hddig⟩ := hshape.last_digit
      refine ⟨htext, by rw [hc]; exact List.cons_ne_nil _ _, hshape, ?_, ?_⟩
      · rw [htext, hc] at hstart
        simp only [wordBoundary, List.cons_append, List.head?_cons, Option.any_some,
          U.word_of_isUpper hcup, bne_iff_ne, ne_eq, Bool.not_eq_true] at hstart
        exact hstart
      · rw [hm, hrest, hd, List.reverse_append] at hstop
        simp only [wordBoundary, List.reverse_singleton, List.cons_append, List.head?_cons,
          Option.any_some, U.digit_word d hddig, bne_iff_ne, ne_eq] at hstop
        exact Bool.not_eq_true _ ▸ fun ht => hstop ht.symm
    next => cases h
  · intro before m rest h
    obtain ⟨c, m₁, hc, hcup⟩ := h.shape.head
    obtain ⟨m₂, d, hd, hddig⟩ := h.shape.last_digit
    have hstart : wordBoundary U.word before (m ++ rest) = true := by
      have hs := h.start
      rw [wordAt] at hs
      rw [wordBoundary, hs, hc, List.cons_append, List.head?_cons, Option.any_some,
        U.word_of_isUpper hcup]
      rfl
    have hstop : wordBoundary U.word (m.reverse ++ before) rest = true := by
      have hs := h.stop
      rw [wordAt] at hs
      rw [wordBoundary, hs, hd, List.reverse_append, List.reverse_singleton, List.singleton_append,
        List.cons_append, List.head?_cons, Option.any_some, U.digit_word d hddig]
      rfl
    obtain ⟨letters, digits, rfl, hupper, hlen, hdigit, hlen'⟩ := h.shape.parts
    have hne : digits ≠ [] := by
      rintro rfl
      simp at hlen'
    have hrest : wordAt U.digit rest = false := by
      have hs := h.stop
      cases rest with
      | nil => rfl
      | cons r rest =>
        have hr : U.word r = false := hs
        by_contra hdig
        have hdig : U.digit r = true := by simpa [wordAt] using hdig
        rw [U.digit_word r hdig] at hr
        cases hr
    have hL : ((letters ++ digits ++ rest).takeWhile Char.isUpper).take 2 = letters := by
      rw [List.append_assoc, takeWhile_append_stop hupper (wordAt_isUpper_of_digits hdigit hne),
        List.take_of_length_le (by omega)]
    have hD : ((digits ++ rest).takeWhile U.digit).take 8 = digits := by
      rw [takeWhile_append_stop hdigit hrest, List.take_of_length_le (by omega)]
    have hdrop : (letters ++ digits ++ rest).drop letters.length = digits ++ rest := by
      rw [List.append_assoc, List.drop_left]
    have hletters : letters.isEmpty = false := by
      rw [List.isEmpty_eq_false_iff]
      rintro rfl
      simp at hlen
    have hseven : decide (7 ≤ digits.length) = true := by
      rw [decide_eq_true_eq]
      omega
    unfold findPassport
    dsimp only
    rw [hL, hdrop, hD, List.drop_left, hstart, hstop, hletters, hseven]
    rfl

end DocumentAi.Pii
