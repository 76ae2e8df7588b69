import DocumentAi.Logging.PiiScan

/-!
# Is masking complete, and does it touch nothing else?

The context tests of an expression read the text before its substitution. Once an identifier has
become stars, a dash or a dot beside it no longer keeps its neighbour from being a match.

| here | meaning |
| --- | --- |
| `MasksPii` | nothing is left to match, and each pass changes its matches only |
| `Freed`    | a run of nine digits that a dash or a dot exempts, with a masked identifier on the other side of it |

A run is looked at in three texts: before, between and after the two substitutions. The pieces of
the two scans say what stands around it in each.
-/

namespace DocumentAi.Pii

open Subst

/-! ## What is claimed of a masked text -/

def PiiFree (U : UnicodeClasses) (s : List Char) : Prop :=
  ∀ l m b, s = l.reverse ++ (m ++ b) → ¬ TinMatch l m b ∧ ¬ PassportMatch U l m b

/-- One pass: the text outside the masked matches is unchanged and in order. -/
def MasksOnly (R : Pattern) (s t : List Char) : Prop :=
  ∃ P, orig P = s ∧ shown stars P = t ∧
    ∀ A m B, P = A ++ .mask m :: B → R (orig A).reverse m (orig B)

structure MasksPii (U : UnicodeClasses) (s r : List Char) : Prop where
  complete : PiiFree U r
  again    : maskText U r = r
  outside  : ∃ t, MasksOnly TinMatch s t ∧ MasksOnly (PassportMatch U) t r

/-! ## Exempt runs beside identifiers -/

/-- No tax identifier begins in `m`. -/
def NoTinWithin (l m s : List Char) : Prop :=
  ∀ m₁ m₂, m = m₁ ++ m₂ → m₂ ≠ [] → NoMatch TinMatch (m₁.reverse ++ l) (m₂ ++ s)

/-- The dash before `s` follows a masked identifier. -/
def AfterMasked (U : UnicodeClasses) (l s : List Char) : Prop :=
  ∃ m' l', l = '-' :: (m'.reverse ++ l') ∧ (TinMatch l' m' ('-' :: s) ∨
    PassportMatch U l' m' ('-' :: s) ∧ NoTinWithin l' m' ('-' :: s))

/-- The dot after `l` stands before a tax identifier. -/
def BeforeTin (l b : List Char) : Prop :=
  ∃ m' b', b = '.' :: (m' ++ b') ∧ TinMatch ('.' :: l) m' b'

structure Freed (U : UnicodeClasses) (l m b : List Char) : Prop where
  shape   : TinShape 8 m
  start   : wordAt isAsciiWord l = false
  stop    : wordAt isAsciiWord b = false
  blocked : dashBefore l = true ∨ dotAfter b = true
  dash    : dashBefore l = true → AfterMasked U l (m ++ b)
  dot     : dotAfter b = true → BeforeTin (m.reverse ++ l) b
  /-- The run does not begin inside a passport number. -/
  outside : ∀ u v l' b', l = u.reverse ++ l' → m ++ b = v ++ b' → u ≠ [] → v ≠ [] →
    ¬ PassportMatch U l' (u ++ v) b'

section
variable {U : UnicodeClasses}

/-! ## What is left -/

/-- A run is left to match exactly when only masked identifiers had exempted it. -/
theorem tinMatch_masked_iff {s t m : List Char} {A₁ B₁ A₂ B₂ : List Piece}
    (h₁ : Scan TinMatch [] s (A₁ ++ (keeps m ++ B₁)))
    (h₂ : Scan (PassportMatch U) [] t (A₂ ++ (keeps m ++ B₂))) (hA : shown stars A₁ = orig A₂)
    (hB : shown stars B₁ = orig B₂) (hm : TinShape 8 m) :
    TinMatch (shown stars A₂).reverse m (shown stars B₂) ↔
      wordAt isAsciiWord (orig A₁).reverse = false ∧ wordAt isAsciiWord (orig B₁) = false ∧
      (dashBefore (orig A₁).reverse = true → (∃ A' m', A₁ = A' ++ [.mask m', .keep '-']) ∨
        ∃ A' m', A₂ = A' ++ [.mask m', .keep '-']) ∧
      (dotAfter (orig B₁) = true → ∃ m' B', B₁ = .keep '.' :: .mask m' :: B') := by
  have hn₁ := neighbours tin_sides h₁ (hm.wordEnds fun c hc => isAsciiWord_of_isDigit hc)
  have hn₂ := neighbours passport_sides h₂ (hm.wordEnds fun c hc => U.word_of_isDigit hc)
  have hstart : wordAt isAsciiWord (shown stars A₂).reverse = wordAt isAsciiWord (orig A₁).reverse := by
    rw [wordAt_left hn₂.left, ← hA, wordAt_left hn₁.left]
  have hstop : wordAt isAsciiWord (shown stars B₂) = wordAt isAsciiWord (orig B₁) := by
    rw [wordAt_right hn₂.right, ← hB, wordAt_right hn₁.right]
  have hdash : dashBefore (shown stars A₂).reverse = true ↔ (dashBefore (orig A₁).reverse = true ∧
      ∀ A' m', A₁ ≠ A' ++ [.mask m', .keep '-']) ∧ ∀ A' m', A₂ ≠ A' ++ [.mask m', .keep '-'] := by
    rw [dashBefore_shown hn₂.left, ← hA, dashBefore_shown hn₁.left]
  -- a passport number begins with a letter, so no dot before one exempts a run
  have hletter : dotAfter (orig B₂) = true → ∀ m' B', B₂ ≠ .keep '.' :: .mask m' :: B' := by
    rintro hdot m' B' rfl
    have hpieces : A₂ ++ (keeps m ++ .keep '.' :: .mask m' :: B') =
        (A₂ ++ (keeps m ++ [.keep '.'])) ++ .mask m' :: B' := by simp
    rw [hpieces] at h₂
    obtain ⟨c, m'', rfl, hc⟩ := h₂.rest.isMatch.shape.head
    have hd : c.isDigit = true := hdot
    rw [not_isUpper_of_isDigit hd] at hc
    cases hc
  have hdot : dotAfter (shown stars B₂) = true ↔ dotAfter (orig B₁) = true ∧
      ∀ m' B', B₁ ≠ .keep '.' :: .mask m' :: B' := by
    rw [dotAfter_shown hn₂.right, ← hB, dotAfter_shown hn₁.right]
    rw [← hB, dotAfter_shown hn₁.right] at hletter
    exact ⟨fun hd => hd.1, fun hd => ⟨hd, hletter hd⟩⟩
  constructor
  · intro hmatch
    refine ⟨hstart ▸ hmatch.start, hstop ▸ hmatch.stop, fun hd => ?_, fun hd => ?_⟩
    · by_contra hnot
      rw [not_or] at hnot
      have hstill := hdash.2 ⟨⟨hd, fun A' m' heq => hnot.1 ⟨A', m', heq⟩⟩,
        fun A' m' heq => hnot.2 ⟨A', m', heq⟩⟩
      rw [hmatch.dash] at hstill
      cases hstill
    · by_contra hnot
      have hstill := hdot.2 ⟨hd, fun m' B' heq => hnot ⟨m', B', heq⟩⟩
      rw [hmatch.dot] at hstill
      cases hstill
  · rintro ⟨hs, hb, hd, ho⟩
    refine ⟨hm, hstart.trans hs, ?_, hstop.trans hb, ?_⟩
    · by_contra hstill
      obtain ⟨⟨hdashed, hno₁⟩, hno₂⟩ := hdash.1 (by simpa using hstill)
      rcases hd hdashed with ⟨A', m', heq⟩ | ⟨A', m', heq⟩
      · exact hno₁ A' m' heq
      · exact hno₂ A' m' heq
    · by_contra hstill
      obtain ⟨hdotted, hno⟩ := hdot.1 (by simpa using hstill)
      obtain ⟨m', B', heq⟩ := ho hdotted
      exact hno m' B' heq

theorem PassportShape.upper {m : List Char} (h : PassportShape U m) :
    wordAt Char.isUpper m = true := by
  obtain ⟨c, m', rfl, hc⟩ := h.head
  exact hc

theorem isAsciiWord_of_upper {m : List Char} (h : wordAt Char.isUpper m = true) :
    wordAt isAsciiWord m = true := by
  cases m with
  | nil => cases h
  | cons c m => exact isAsciiWord_of_isUpper h

/-- In front of a passport number the first pass has changed no neighbour. -/
theorem wordAt_before_passport {s : List Char} {A C : List Piece} {W : Char → Bool}
    (h : Scan TinMatch [] s (A ++ C)) (hC : wordAt Char.isUpper (orig C) = true) :
    wordAt W (shown stars A).reverse = wordAt W (orig A).reverse :=
  wordAt_left (not_mask_left (fun _ _ _ hmatch => hmatch.stop) h (isAsciiWord_of_upper hC))

theorem noPassport_left {t l m b : List Char} {P : List Piece} (h : Scan (PassportMatch U) [] t P)
    (hr : shown stars P = l.reverse ++ (m ++ b)) : ¬ PassportMatch U l m b := by
  intro hmatch
  have hends := hmatch.shape.wordEnds
  obtain ⟨A, B, rfl, hA, hB⟩ := exists_keeps hmatch.shape.not_star hends.ne stars_ne_nil hr
  have hn := neighbours passport_sides h hends
  have hno := @noMatch_of_keeps _ _ _ [] _ _ _ h hends.ne
  rw [List.append_nil] at hno
  refine hno m (orig B) rfl (hmatch.congr ?_ ?_)
  · rw [← List.reverse_reverse l, ← hA]
    exact (wordAt_left hn.left).symm
  · rw [← hB]
    exact (wordAt_right hn.right).symm

theorem eq_nil_of_shown {B : List Piece} (h : shown stars B = []) : B = [] := by
  cases B with
  | nil => rfl
  | cons p B =>
    cases p with
    | keep c => cases h
    | mask m =>
      rw [shown_mask, stars_eq] at h
      cases h

/-- A run before a masked passport number and a dash, seen in the text before both passes. -/
theorem afterMasked_of_passport {s m' d : List Char} {A₁ B A' : List Piece}
    (h₁ : Scan TinMatch [] s (A₁ ++ B)) (hA : shown stars A₁ = orig A' ++ (m' ++ ['-']))
    (hmatch : PassportMatch U (orig A').reverse m' d) :
    AfterMasked U (orig A₁).reverse (orig B) := by
  have hstar : ∀ c ∈ m' ++ ['-'], c ∉ stars := by
    intro c hc
    rcases List.mem_append.1 hc with hc | hc
    · exact hmatch.shape.not_star c hc
    · rw [List.mem_singleton.1 hc]
      decide
  rw [← List.append_nil (m' ++ ['-'])] at hA
  obtain ⟨A, D, rfl, hshown, hD⟩ := exists_keeps hstar (by simp) stars_ne_nil hA
  obtain rfl := eq_nil_of_shown hD
  rw [List.append_nil, List.append_assoc] at h₁
  have hhead : wordAt Char.isUpper (orig (keeps (m' ++ ['-']) ++ B)) = true := by
    rw [orig_append, orig_keeps, List.append_assoc, wordAt_append hmatch.shape.wordEnds.ne]
    exact hmatch.shape.upper
  have hleft := wordAt_before_passport (W := U.word) h₁ hhead
  refine ⟨m', (orig A).reverse, by simp, .inr ⟨⟨hmatch.shape, ?_, not_word_dash U⟩, ?_⟩⟩
  · rw [← hleft, hshown]
    exact hmatch.start
  · intro m₁ m₂ heq hne
    subst heq
    rw [List.append_assoc] at h₁
    have hno := noMatch_of_keeps h₁ (by simp)
    rw [List.append_nil, List.append_assoc] at hno
    exact hno

theorem cut_within {x u : List Char} {A₁ Q : List Piece} (hA : orig A₁ = x ++ u) (hu : u ≠ [])
    (hcut : ∃ A C, A₁ ++ Q = A ++ C ∧ orig A = x ∧ orig C = u ++ orig Q) :
    ∃ A C, A₁ = A ++ C ∧ orig A = x ∧ orig C = u := by
  obtain ⟨A, C, hsplit, hx, -⟩ := hcut
  rcases List.append_eq_append_iff.1 hsplit with ⟨w, rfl, -⟩ | ⟨w, rfl, -⟩
  · rw [orig_append, hA, List.append_assoc] at hx
    have hnil := List.append_right_eq_self.1 hx
    exact absurd (List.append_eq_nil_iff.1 hnil).1 hu
  · rw [orig_append, hx] at hA
    exact ⟨A, w, rfl, hx, List.append_cancel_left hA⟩

/-- A run that the second pass has kept does not begin inside a passport number. -/
theorem outside_of_kept {s t m u v l b : List Char} {A₁ B₁ A₂ B₂ : List Piece}
    (h₁ : Scan TinMatch [] s (A₁ ++ (keeps m ++ B₁)))
    (h₂ : Scan (PassportMatch U) [] t (A₂ ++ (keeps m ++ B₂))) (hA : shown stars A₁ = orig A₂)
    (hm : TinShape 8 m) (hl : (orig A₁).reverse = u.reverse ++ l)
    (hb : m ++ orig B₁ = v ++ b) (hu : u ≠ []) (hv : v ≠ []) : ¬ PassportMatch U l (u ++ v) b := by
  intro hmatch
  obtain ⟨m₂, hne, rfl, rfl⟩ := hm.overlap hmatch.shape hb
  have hx : orig A₁ = l.reverse ++ u := by
    rw [← List.reverse_reverse (orig A₁), hl, List.reverse_append, List.reverse_reverse]
  have hupper : wordAt Char.isUpper u = true := by
    rw [← wordAt_append hu v]
    exact hmatch.shape.upper
  -- the first pass has kept the letters and digits of the number before the run
  have hcut₁ := tin_cut h₁ (x := l.reverse) (y := u ++ orig (keeps (v ++ m₂) ++ B₁))
    (by rw [orig_append, hx, List.append_assoc]) (.inr (by rw [wordAt_append hu]; exact hupper))
  obtain ⟨A, C, rfl, hAl, hC⟩ := cut_within hx hu hcut₁
  rw [List.append_assoc] at h₁
  have height : (orig C).countP Char.isDigit ≤ 8 := by
    have htotal := hmatch.shape.countP
    rw [List.countP_append] at htotal
    rw [hC]
    omega
  have hkeeps := eq_keeps h₁ height
  rw [hC] at hkeeps
  subst hkeeps
  have hleft := wordAt_before_passport (W := U.word) h₁ (by
    rw [orig_append, orig_keeps, wordAt_append hu]
    exact hupper)
  have hstart : wordAt U.word (shown stars A).reverse = false := by
    rw [hleft, hAl, List.reverse_reverse]
    exact hmatch.start
  have hsecond : PassportMatch U (shown stars A).reverse (u ++ v) (m₂ ++ orig B₂) := by
    refine ⟨hmatch.shape, hstart, ?_⟩
    have hstop := hmatch.stop
    rw [wordAt_append hne] at hstop ⊢
    exact hstop
  -- so it is a match of the second pass, which takes the beginning of the run
  rw [shown_append, shown_keeps] at hA
  have hcut₂ := passport_cut h₂ (x := shown stars A) (y := u ++ orig (keeps (v ++ m₂) ++ B₂))
    (by rw [orig_append, ← hA, List.append_assoc]) hstart
  obtain ⟨A', C', rfl, hA', hC'⟩ := cut_within hA.symm hu hcut₂
  rw [List.append_assoc] at h₂
  have hrest := h₂.rest
  have htext : orig (C' ++ (keeps (v ++ m₂) ++ B₂)) = (u ++ v) ++ (m₂ ++ orig B₂) := by
    simp [hC']
  rw [htext, hA', List.append_nil] at hrest
  obtain ⟨P', hP', -⟩ := hrest.mask_of_match (implements_findPassport U) hsecond
  cases C' with
  | nil => exact hu hC'.symm
  | cons p C' =>
    obtain ⟨rfl, -⟩ := List.cons.inj hP'
    rw [orig_mask, List.append_assoc] at hC'
    have hnil := List.append_right_eq_self.1 hC'
    exact hv (List.append_eq_nil_iff.1 hnil).1

theorem freed_of_left {s l m b : List Char} {P₁ P₂ : List Piece} (h₁ : Scan TinMatch [] s P₁)
    (h₂ : Scan (PassportMatch U) [] (shown stars P₁) P₂)
    (hr : shown stars P₂ = l.reverse ++ (m ++ b)) (hmatch : TinMatch l m b) :
    ∃ l' b', s = l'.reverse ++ (m ++ b') ∧ Freed U l' m b' := by
  have hm := hmatch.shape
  have hne := (hm.wordEnds fun c hc => isAsciiWord_of_isDigit hc).ne
  obtain ⟨A₂, B₂, rfl, hA₂, hB₂⟩ := exists_keeps hm.not_star hne stars_ne_nil hr
  have ht := h₂.orig_eq
  rw [orig_append, orig_append, orig_keeps] at ht
  obtain ⟨A₁, B₁, rfl, hA, hB⟩ := exists_keeps hm.not_star hne stars_ne_nil ht.symm
  have hs := h₁.orig_eq
  rw [orig_append, orig_append, orig_keeps] at hs
  have hl : (shown stars A₂).reverse = l := by rw [hA₂, List.reverse_reverse]
  rw [← hl, ← hB₂] at hmatch
  obtain ⟨hstart, hstop, hdash, hdot⟩ := (tinMatch_masked_iff h₁ h₂ hA hB hm).1 hmatch
  refine ⟨(orig A₁).reverse, orig B₁, by rw [List.reverse_reverse, hs],
    ⟨hm, hstart, hstop, ?_, ?_, ?_, ?_⟩⟩
  · by_contra hfree
    rw [not_or, Bool.not_eq_true, Bool.not_eq_true] at hfree
    have hno := @noMatch_of_keeps _ _ _ [] _ _ _ h₁ hne
    rw [List.append_nil] at hno
    exact hno m (orig B₁) rfl ⟨hm, hstart, hfree.1, hstop, hfree.2⟩
  · intro hd
    rcases hdash hd with ⟨A', m', rfl⟩ | ⟨A', m', rfl⟩
    · rw [List.append_assoc] at h₁
      have htin := h₁.rest.isMatch
      refine ⟨m', (orig A').reverse, by simp, .inl ?_⟩
      simpa using htin
    · rw [List.append_assoc] at h₂
      have hpassport := h₂.rest.isMatch
      rw [List.append_nil] at hpassport
      have hafter := afterMasked_of_passport h₁ (by rw [hA]; simp) hpassport
      simpa using hafter
  · intro hd
    obtain ⟨m', B', rfl⟩ := hdot hd
    have hpieces : A₁ ++ (keeps m ++ .keep '.' :: .mask m' :: B') =
        (A₁ ++ (keeps m ++ [.keep '.'])) ++ .mask m' :: B' := by simp
    rw [hpieces] at h₁
    have htin := h₁.rest.isMatch
    refine ⟨m', orig B', rfl, ?_⟩
    simpa using htin
  · intro u v l' b' hl' hb' hu hv
    exact outside_of_kept h₁ h₂ hA hm hl' hb' hu hv

theorem Freed.not_match {l m b : List Char} (hf : Freed U l m b) : ¬ TinMatch l m b := by
  intro hmatch
  rcases hf.blocked with h | h
  · rw [hmatch.dash] at h
    cases h
  · rw [hmatch.dot] at h
    cases h

/-- What the first pass has made of the text before an exempt run. -/
structure Before (U : UnicodeClasses) (l m b : List Char) (A : List Piece) : Prop where
  orig_eq : orig A = l.reverse
  dash    : dashBefore l = true → (∃ A' m', A = A' ++ [.mask m', .keep '-']) ∨
    ∃ A' m', A = A' ++ (keeps m' ++ [.keep '-']) ∧
      PassportMatch U (orig A').reverse m' ('-' :: (m ++ b))

theorem exists_before {s l m b : List Char} {P : List Piece} (h : Scan TinMatch [] s P)
    (hs : s = l.reverse ++ (m ++ b)) (hf : Freed U l m b) :
    ∃ A C, P = A ++ C ∧ Before U l m b A ∧ orig C = m ++ b := by
  have htext := h.orig_eq.trans hs
  by_cases hdash : dashBefore l = true
  · obtain ⟨m', l', rfl, hbefore⟩ := hf.dash hdash
    have hcut : orig P = l'.reverse ++ (m' ++ '-' :: (m ++ b)) := by
      rw [htext]
      simp
    rcases hbefore with htin | ⟨hpassport, hno⟩
    · obtain ⟨A, C, rfl, hA, hC⟩ := tin_cut h hcut (.inl (by
        rw [List.reverse_reverse]
        exact htin.not_inside))
      have hrest := h.rest
      rw [hC, hA, List.reverse_reverse, List.append_nil] at hrest
      obtain ⟨C', rfl, hC'⟩ := hrest.mask_of_match implements_findTin htin
      rw [List.append_cons A] at h
      have hdashed := h.rest
      rw [hC'] at hdashed
      obtain ⟨D, rfl, -⟩ := hdashed.keep_of_noMatch (noTin_of_not_digit (by decide) _ _)
      refine ⟨A ++ [.mask m', .keep '-'], D, by simp, ⟨?_, fun _ => .inl ⟨A, m', rfl⟩⟩, ?_⟩
      · simp [hA]
      · exact (List.cons.inj hC').2
    · have hne := hpassport.shape.wordEnds.ne
      obtain ⟨A, C, rfl, hA, hC⟩ := tin_cut h hcut (.inr (by
        rw [wordAt_append hne]
        exact hpassport.shape.upper))
      have hrest := h.rest
      rw [hC, hA, List.reverse_reverse, List.append_nil] at hrest
      obtain ⟨C', rfl, hscan⟩ := kept_of_noMatch hrest hno
      obtain ⟨D, rfl, hD⟩ := hscan.keep_of_noMatch (noTin_of_not_digit (by decide) _ _)
      refine ⟨A ++ (keeps m' ++ [.keep '-']), D, by simp,
        ⟨?_, fun _ => .inr ⟨A, m', rfl, ?_⟩⟩, hD.orig_eq⟩
      · simp [hA]
      · rw [hA, List.reverse_reverse]
        exact hpassport
  · obtain ⟨A, C, rfl, hA, hC⟩ := tin_cut h htext (.inl (by
      rw [List.reverse_reverse]
      intro hin
      rcases hin with hin | hin
      · rw [hf.start] at hin
        cases hin
      · exact hdash hin))
    exact ⟨A, C, rfl, ⟨hA, fun hd => absurd hd hdash⟩, hC⟩

theorem Before.not_outside {s l m b : List Char} {A C : List Piece} (h : Scan TinMatch [] s (A ++ C))
    (hA : Before U l m b A) (hf : Freed U l m b) {A' u v b' y : List Char}
    (hu : u ≠ []) (hv : v ≠ []) (hx : shown stars A = A' ++ u) (hy : m ++ y = v ++ b') :
    ¬ PassportMatch U A'.reverse (u ++ v) b' := by
  intro hmatch
  obtain ⟨m₂, hne, rfl, rfl⟩ := hf.shape.overlap hmatch.shape hy
  have hstar : ∀ c ∈ u, c ∉ stars := fun c hc =>
    hmatch.shape.not_star c (List.mem_append_left v hc)
  rw [← List.append_nil u] at hx
  obtain ⟨A₁, D, rfl, hshown, hD⟩ := exists_keeps hstar hu stars_ne_nil hx
  obtain rfl := eq_nil_of_shown hD
  rw [List.append_nil, List.append_assoc] at h
  have hleft := wordAt_before_passport (W := U.word) h (by
    rw [orig_append, orig_keeps, wordAt_append hu, ← wordAt_append hu v]
    exact hmatch.shape.upper)
  have hl : l = u.reverse ++ (orig A₁).reverse := by
    rw [← List.reverse_reverse l, ← hA.orig_eq]
    simp
  refine hf.outside u v (orig A₁).reverse (m₂ ++ b) hl (List.append_assoc v m₂ b) hu hv
    (hmatch.congr ?_ ?_)
  · rw [← hleft, hshown]
  · rw [wordAt_append hne, wordAt_append hne]

/-- What the second pass has made of the text before an exempt run. -/
theorem exists_after {s l m b y : List Char} {A C P : List Piece}
    (h₁ : Scan TinMatch [] s (A ++ C)) (hA : Before U l m b A) (hf : Freed U l m b)
    (h₂ : Scan (PassportMatch U) [] (shown stars A ++ (m ++ y)) P) :
    ∃ A₂ B₂, P = A₂ ++ (keeps m ++ B₂) ∧ orig A₂ = shown stars A ∧ orig B₂ = y ∧
      (dashBefore l = true → (∃ A' m', A = A' ++ [.mask m', .keep '-']) ∨
        ∃ A' m', A₂ = A' ++ [.mask m', .keep '-']) := by
  by_cases hpassport : dashBefore l = true ∧ ∃ A' m', A = A' ++ (keeps m' ++ [.keep '-']) ∧
      PassportMatch U (orig A').reverse m' ('-' :: (m ++ b))
  · obtain ⟨-, A', m', rfl, hmatch⟩ := hpassport
    have hne := hmatch.shape.wordEnds.ne
    rw [List.append_assoc] at h₁
    have hleft := wordAt_before_passport (W := U.word) h₁ (by
      rw [List.append_assoc, orig_append, orig_keeps, wordAt_append hne]
      exact hmatch.shape.upper)
    have hsecond : PassportMatch U (shown stars A').reverse m' ('-' :: (m ++ y)) :=
      ⟨hmatch.shape, hleft.trans hmatch.start, not_word_dash U⟩
    have htext : orig P = shown stars A' ++ (m' ++ '-' :: (m ++ y)) := by
      rw [h₂.orig_eq]
      simp
    obtain ⟨D, E, rfl, hD, hE⟩ := passport_cut h₂ htext hsecond.start
    have hrest := h₂.rest
    rw [hE, hD, List.append_nil] at hrest
    obtain ⟨E', rfl, hE'⟩ := hrest.mask_of_match (implements_findPassport U) hsecond
    rw [List.append_cons D] at h₂
    have hdashed := h₂.rest
    rw [hE'] at hdashed
    obtain ⟨F, rfl, hF⟩ := hdashed.keep_of_noMatch (noPassport_of_not_upper (by decide) _ _)
    obtain ⟨B₂, rfl, hB₂⟩ := kept_of_not_upper hf.shape.not_upper hF
    refine ⟨D ++ [.mask m', .keep '-'], B₂, by simp, by simp [hD], hB₂.orig_eq,
      fun _ => .inr ⟨D, m', rfl⟩⟩
  · have htext := h₂.orig_eq
    rcases scan_cut h₂ htext with ⟨D, E, rfl, hD, hE⟩ | ⟨A', u, v, b', hu, hv, hx, hy, hmatch⟩
    · have hrest := h₂.rest
      rw [hE] at hrest
      obtain ⟨B₂, rfl, hB₂⟩ := kept_of_not_upper hf.shape.not_upper hrest
      refine ⟨D, B₂, rfl, hD, hB₂.orig_eq, fun hd => ?_⟩
      rcases hA.dash hd with hmask | hkeep
      · exact .inl hmask
      · exact absurd ⟨hd, hkeep⟩ hpassport
    · exact absurd hmatch (hA.not_outside h₁ hf hu hv hx hy)

theorem left_of_freed {s l m b : List Char} {P₁ P₂ : List Piece} (h₁ : Scan TinMatch [] s P₁)
    (h₂ : Scan (PassportMatch U) [] (shown stars P₁) P₂) (hs : s = l.reverse ++ (m ++ b))
    (hf : Freed U l m b) :
    ∃ l' b', shown stars P₂ = l'.reverse ++ (m ++ b') ∧ TinMatch l' m b' := by
  obtain ⟨A₁, C, rfl, hA, hC⟩ := exists_before h₁ hs hf
  have hrest := h₁.rest
  rw [hC, hA.orig_eq, List.reverse_reverse, List.append_nil] at hrest
  obtain ⟨B₁, rfl, hB⟩ := hf.shape.kept hrest (noMatch_of_blocked hf.shape hf.not_match)
  have hb := hB.orig_eq
  have hdot : dotAfter (orig B₁) = true → ∃ m' B', B₁ = .keep '.' :: .mask m' :: B' := by
    intro hd
    rw [hb] at hd
    obtain ⟨m', b', rfl, htin⟩ := hf.dot hd
    obtain ⟨B', rfl, hscan⟩ := hB.keep_of_noMatch (noTin_of_not_digit (by decide) _ _)
    obtain ⟨B'', rfl, -⟩ := hscan.mask_of_match implements_findTin htin
    exact ⟨m', B'', rfl⟩
  rw [shown_append, shown_append, shown_keeps] at h₂
  obtain ⟨A₂, B₂, rfl, hA₂, hB₂, hdash⟩ := exists_after h₁ hA hf h₂
  refine ⟨(shown stars A₂).reverse, shown stars B₂, by simp, ?_⟩
  refine (tinMatch_masked_iff h₁ h₂ hA₂.symm hB₂.symm hf.shape).2 ⟨?_, ?_, ?_, hdot⟩
  · rw [hA.orig_eq, List.reverse_reverse]
    exact hf.start
  · rw [hb]
    exact hf.stop
  · intro hd
    rw [hA.orig_eq, List.reverse_reverse] at hd
    exact hdash hd

/-! ## The masked text -/

theorem MasksOnly.of_scan {R : Pattern} {s : List Char} {P : List Piece} (h : Scan R [] s P) :
    MasksOnly R s (shown stars P) := by
  refine ⟨P, h.orig_eq, rfl, ?_⟩
  rintro A m B rfl
  have hmatch := h.rest.isMatch
  rw [List.append_nil] at hmatch
  exact hmatch

theorem sub_eq_self {find : Matcher} {R : Pattern} (himp : Implements find R) {s : List Char}
    (h : ∀ l m b, s = l.reverse ++ (m ++ b) → ¬ R l m b) : sub stars find 0 [] s = s := by
  obtain ⟨P, hscan, hsub⟩ := scan_sub himp stars _ [] s (Nat.le_refl s.length)
  rw [← List.append_nil s] at hscan
  obtain ⟨P', rfl, hrest⟩ := kept_of_noMatch hscan fun m₁ m₂ heq _ m b hmb => by
    refine h (m₁.reverse ++ []) m b ?_
    rw [hmb, heq]
    simp
  obtain rfl := hrest.eq_nil
  rw [hsub, List.append_nil, shown_keeps]

/-- A second pass over a text without identifiers changes nothing. -/
theorem maskText_of_piiFree {s : List Char} (h : PiiFree U s) : maskText U s = s := by
  have hfirst := sub_eq_self implements_findTin fun l m b hs => (h l m b hs).1
  rw [maskText, hfirst]
  exact sub_eq_self (implements_findPassport U) fun l m b hs => (h l m b hs).2

/-- Nothing is left exactly when no exempt run has a masked identifier as its only excuse. -/
theorem maskText_iff (U : UnicodeClasses) (s : List Char) :
    MasksPii U s (maskText U s) ↔ ¬ ∃ l m b, s = l.reverse ++ (m ++ b) ∧ Freed U l m b := by
  obtain ⟨P₁, h₁, hsub₁⟩ := scan_sub implements_findTin stars _ [] s (Nat.le_refl s.length)
  obtain ⟨P₂, h₂, hsub₂⟩ :=
    scan_sub (implements_findPassport U) stars _ [] (shown stars P₁) (Nat.le_refl _)
  have hmask : maskText U s = shown stars P₂ := by
    rw [maskText, hsub₁, hsub₂]
  constructor
  · rintro hall ⟨l, m, b, hs, hf⟩
    obtain ⟨l', b', hr, hmatch⟩ := left_of_freed h₁ h₂ hs hf
    exact (hall.complete l' m b' (hmask.trans hr)).1 hmatch
  · intro hnone
    have hfree : PiiFree U (maskText U s) := by
      refine fun l m b hr => ⟨fun hmatch => ?_, noPassport_left h₂ (hmask.symm.trans hr)⟩
      obtain ⟨l', b', hs, hf⟩ := freed_of_left h₁ h₂ (hmask.symm.trans hr) hmatch
      exact hnone ⟨l', m, b', hs, hf⟩
    refine ⟨hfree, maskText_of_piiFree hfree, shown stars P₁, .of_scan h₁, ?_⟩
    rw [hmask]
    exact .of_scan h₂

end

/-- **Masking is complete exactly when every exempt run is exempt for another reason than an
identifier that is masked itself.** -/
theorem masksPii_iff {V : Type} (U : UnicodeClasses) (str : V → String) (value : V) :
    MasksPii U (str value).toList (strOf str (maskPii U str value)).toList ↔
      ¬ ∃ l m b, (str value).toList = l.reverse ++ (m ++ b) ∧ Freed U l m b := by
  rw [strOf_maskPii]
  exact maskText_iff U (str value).toList

/-! ## Two identifiers joined by a dash -/

def asciiClasses : UnicodeClasses where
  word        := isAsciiWord
  digit       := Char.isDigit
  word_ascii  := fun _ _ => rfl
  digit_ascii := fun _ _ => rfl
  digit_word  := fun _ => isAsciiWord_of_isDigit

def nineDigits : List Char := "123456789".toList

theorem tinShape_nineDigits : TinShape 8 nineDigits :=
  (takeTin_sound 8 nineDigits nineDigits [] (by decide)).2

theorem freed_second (U : UnicodeClasses) : Freed U ('-' :: nineDigits.reverse) nineDigits [] where
  shape   := tinShape_nineDigits
  start   := by decide
  stop    := rfl
  blocked := .inl (by decide)
  dash    := fun _ => ⟨nineDigits, [], by rw [List.append_nil],
    .inl ⟨tinShape_nineDigits, rfl, rfl, by decide, by decide⟩⟩
  dot     := fun h => by cases h
  outside := by
    intro u v l' b' hl _ hu _ hmatch
    have hno : ('-' :: nineDigits.reverse).all (fun c => !c.isUpper) = true := by decide
    cases u with
    | nil => exact hu rfl
    | cons c u =>
      have hc : c.isUpper = false := by
        simpa using List.all_eq_true.mp hno c (by rw [hl]; simp)
      have hupper : c.isUpper = true := hmatch.shape.upper
      rw [hc] at hupper
      cases hupper

theorem maskPii_leaves_second :
    ¬ ∀ (V : Type) (U : UnicodeClasses) (str : V → String) (value : V),
      MasksPii U (str value).toList (strOf str (maskPii U str value)).toList := by
  intro hall
  have hmask := hall String asciiClasses id "123456789-123456789"
  rw [strOf_maskPii] at hmask
  exact (maskText_iff _ _).1 hmask
    ⟨'-' :: nineDigits.reverse, nineDigits, [], by decide, freed_second asciiClasses⟩

end DocumentAi.Pii
