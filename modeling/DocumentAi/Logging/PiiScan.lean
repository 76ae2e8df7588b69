import DocumentAi.Logging.Pii

/-!
# The two scans of a masked text

| here | meaning |
| --- | --- |
| `Inside`     | a place within a run of digits, where no tax identifier begins |
| `Neighbours` | no match stands right beside a kept run |

Main results: `TinShape.kept`, `kept_of_not_upper`, what a scan keeps; `dashBefore_shown`,
`dotAfter_shown`, what of the context of a run is left; `tin_cut`, `passport_cut`, where a match
cannot go across a place.
-/

namespace DocumentAi.Pii

open Subst

/-! ## Characters of the matches -/

section
variable {U : UnicodeClasses}

theorem PassportShape.mem {m : List Char} (h : PassportShape U m) :
    ∀ c ∈ m, c.isUpper = true ∨ U.digit c = true := by
  obtain ⟨letters, digits, rfl, hupper, -, hdigit, -⟩ := h.parts
  intro c hc
  rcases List.mem_append.1 hc with hc | hc
  · exact .inl (hupper c hc)
  · exact .inr (hdigit c hc)

theorem PassportShape.word {m : List Char} (h : PassportShape U m) : ∀ c ∈ m, U.word c = true := by
  intro c hc
  rcases h.mem c hc with hc | hc
  · exact U.word_of_isUpper hc
  · exact U.digit_word c hc

theorem mem_stars {c : Char} (h : c ∈ stars) : c = '*' := by
  have hstars : stars = List.replicate 9 '*' := by decide
  rw [hstars] at h
  exact List.eq_of_mem_replicate h

theorem TinShape.not_star {n : Nat} {m : List Char} (h : TinShape n m) : ∀ c ∈ m, c ∉ stars := by
  intro c hc hstar
  have hstar := mem_stars hstar
  rcases h.mem c hc with hd | rfl
  · rw [hstar] at hd
    cases hd
  · cases hstar

theorem not_word_star (U : UnicodeClasses) : U.word '*' = false := U.word_ascii '*' (by decide)

theorem not_word_dash (U : UnicodeClasses) : U.word '-' = false := U.word_ascii '-' (by decide)

theorem PassportShape.not_star {m : List Char} (h : PassportShape U m) : ∀ c ∈ m, c ∉ stars := by
  intro c hc hstar
  have hstar := mem_stars hstar
  have hword := h.word c hc
  rw [hstar, not_word_star] at hword
  cases hword

theorem TinShape.not_upper {n : Nat} {m : List Char} (h : TinShape n m) :
    ∀ c ∈ m, c.isUpper = false := by
  intro c hc
  rcases h.mem c hc with hd | rfl
  · exact not_isUpper_of_isDigit hd
  · decide

/-- Nine digits. -/
theorem TinShape.countP {n : Nat} {m : List Char} (h : TinShape n m) :
    m.countP Char.isDigit = n + 1 := by
  induction h with
  | last hd => simp [hd]
  | more hd hdash _ ih =>
    rw [List.countP_cons, List.countP_append, ih, if_pos hd]
    rcases hdash with rfl | rfl
    · rw [List.countP_nil]
      omega
    · rw [List.countP_singleton, if_neg (by decide)]
      omega

/-- At most eight digits. -/
theorem PassportShape.countP {m : List Char} (h : PassportShape U m) : m.countP Char.isDigit ≤ 8 := by
  obtain ⟨letters, digits, rfl, hupper, -, -, hlen⟩ := h.parts
  have hletters : letters.countP Char.isDigit = 0 := by
    rw [List.countP_eq_zero]
    intro c hc hd
    have hnot := not_isUpper_of_isDigit hd
    rw [hupper c hc] at hnot
    cases hnot
  have hdigits : digits.countP Char.isDigit ≤ digits.length := List.countP_le_length
  rw [List.countP_append, hletters]
  omega

/-! ## Where nothing matches -/

/-- A place inside a run: after one of its digits, or after its dash. -/
def Inside (l : List Char) : Prop := wordAt isAsciiWord l = true ∨ dashBefore l = true

theorem Inside.noMatch {l : List Char} (h : Inside l) (s : List Char) : NoMatch TinMatch l s := by
  intro m b _ hmatch
  rcases h with h | h
  · rw [hmatch.start] at h
    cases h
  · rw [hmatch.dash] at h
    cases h

theorem TinMatch.not_inside {l m b : List Char} (h : TinMatch l m b) : ¬ Inside l :=
  fun hin => hin.noMatch _ m b rfl h

theorem noTin_of_not_digit {c : Char} (h : c.isDigit = false) (l s : List Char) :
    NoMatch TinMatch l (c :: s) := by
  intro m b hmb hmatch
  obtain ⟨d, m', rfl, hd⟩ := hmatch.shape.head
  rw [(List.cons.inj hmb).1] at hd
  rw [h] at hd
  cases hd

theorem noPassport_of_not_upper {c : Char} (h : c.isUpper = false) (l s : List Char) :
    NoMatch (PassportMatch U) l (c :: s) := by
  intro m b hmb hmatch
  obtain ⟨d, m', rfl, hd⟩ := hmatch.shape.head
  rw [(List.cons.inj hmb).1] at hd
  rw [h] at hd
  cases hd

/-- A cut through a run leaves a place inside it. -/
theorem TinShape.inside {n : Nat} {m : List Char} (h : TinShape n m) :
    ∀ {u v l : List Char}, m = u ++ v → u ≠ [] → v ≠ [] → Inside (u.reverse ++ l) := by
  induction h with
  | last hd =>
    intro u v l hm hu hv
    have hlen := congrArg List.length hm
    have hu := List.length_pos_iff.2 hu
    have hv := List.length_pos_iff.2 hv
    rw [List.length_append, List.length_singleton] at hlen
    omega
  | @more n d dash m hd hdash hm ih =>
    intro u v l heq hu hv
    cases u with
    | nil => exact absurd rfl hu
    | cons d' u =>
      obtain ⟨rfl, hrest⟩ := List.cons.inj heq
      have hword : isAsciiWord d = true := isAsciiWord_of_isDigit hd
      rw [List.reverse_cons, List.append_assoc]
      cases u with
      | nil => exact .inl hword
      | cons c u =>
        rcases hdash with rfl | rfl
        · exact ih hrest (List.cons_ne_nil _ _) hv
        · obtain ⟨rfl, htail⟩ := List.cons.inj hrest
          rw [List.reverse_cons, List.append_assoc]
          cases u with
          | nil => exact .inr hword
          | cons c u => exact ih htail (List.cons_ne_nil _ _) hv

/-- Runs that begin at one place are equal. -/
theorem TinShape.unique {m b x y : List Char} (h : TinShape 8 m) (hx : TinShape 8 x)
    (heq : x ++ y = m ++ b) : x = m ∧ y = b := by
  have hm := takeTin_complete h b
  rw [← heq, takeTin_complete hx y] at hm
  exact Prod.mk.inj (Option.some.inj hm)

theorem noMatch_of_blocked {l m b : List Char} (h : TinShape 8 m) (hnot : ¬ TinMatch l m b) :
    NoMatch TinMatch l (m ++ b) := by
  intro x y heq hmatch
  obtain ⟨rfl, rfl⟩ := h.unique hmatch.shape heq
  exact hnot hmatch

/-! ## Kept characters -/

/-- A run that is no match where it begins is kept. -/
theorem TinShape.kept {n : Nat} {m : List Char} (h : TinShape n m) :
    ∀ {l b : List Char} {P : List Piece}, Scan TinMatch l (m ++ b) P →
      NoMatch TinMatch l (m ++ b) → ∃ P', P = keeps m ++ P' ∧ Scan TinMatch (m.reverse ++ l) b P' := by
  induction h with
  | last hd =>
    intro l b P hscan hno
    obtain ⟨P', rfl, hrest⟩ := hscan.keep_of_noMatch hno
    exact ⟨P', rfl, hrest⟩
  | @more n d dash m hd hdash hm ih =>
    intro l b P hscan hno
    have hword : isAsciiWord d = true := isAsciiWord_of_isDigit hd
    have hdigit : Inside (d :: l) := .inl hword
    have hdashed : Inside ('-' :: d :: l) := .inr hword
    obtain ⟨P₁, rfl, hrest⟩ := hscan.keep_of_noMatch hno
    rcases hdash with rfl | rfl
    · change Scan TinMatch (d :: l) (m ++ b) P₁ at hrest
      obtain ⟨P', rfl, hscan'⟩ := ih hrest (hdigit.noMatch _)
      refine ⟨P', rfl, ?_⟩
      rw [List.nil_append, List.reverse_cons, List.append_assoc]
      exact hscan'
    · change Scan TinMatch (d :: l) ('-' :: (m ++ b)) P₁ at hrest
      obtain ⟨P₂, rfl, htail⟩ := hrest.keep_of_noMatch (hdigit.noMatch _)
      obtain ⟨P', rfl, hscan'⟩ := ih htail (hdashed.noMatch _)
      refine ⟨P', rfl, ?_⟩
      rw [List.reverse_cons, List.reverse_append, List.append_assoc, List.append_assoc]
      exact hscan'

/-- Characters at none of which a match begins are kept. -/
theorem kept_of_noMatch {R : Pattern} : ∀ {m l b : List Char} {P : List Piece},
    Scan R l (m ++ b) P →
      (∀ m₁ m₂, m = m₁ ++ m₂ → m₂ ≠ [] → NoMatch R (m₁.reverse ++ l) (m₂ ++ b)) →
        ∃ P', P = keeps m ++ P' ∧ Scan R (m.reverse ++ l) b P'
  | [], l, b, P, hscan, _     => ⟨P, rfl, hscan⟩
  | c :: m, l, b, P, hscan, h => by
    obtain ⟨P₁, rfl, hrest⟩ := hscan.keep_of_noMatch (h [] (c :: m) rfl (List.cons_ne_nil _ _))
    obtain ⟨P', rfl, hscan'⟩ := kept_of_noMatch hrest fun m₁ m₂ heq hne => by
      have hno := h (c :: m₁) m₂ (by rw [heq]; rfl) hne
      rw [List.reverse_cons, List.append_assoc] at hno
      exact hno
    refine ⟨P', rfl, ?_⟩
    rw [List.reverse_cons, List.append_assoc]
    exact hscan'

theorem kept_of_not_upper {m l b : List Char} {P : List Piece} (h : ∀ c ∈ m, c.isUpper = false)
    (hscan : Scan (PassportMatch U) l (m ++ b) P) :
    ∃ P', P = keeps m ++ P' ∧ Scan (PassportMatch U) (m.reverse ++ l) b P' := by
  refine kept_of_noMatch hscan fun m₁ m₂ heq hne => ?_
  cases m₂ with
  | nil => exact absurd rfl hne
  | cons c m₂ => exact noPassport_of_not_upper (h c (by rw [heq]; simp)) _ _

theorem noMatch_of_keeps {R : Pattern} {A B : List Piece} {m₁ m₂ l s : List Char}
    (h : Scan R l s (A ++ (keeps (m₁ ++ m₂) ++ B))) (hne : m₂ ≠ []) :
    NoMatch R (m₁.reverse ++ ((orig A).reverse ++ l)) (m₂ ++ orig B) := by
  cases m₂ with
  | nil => exact absurd rfl hne
  | cons c m₂ =>
    have hpieces : A ++ (keeps (m₁ ++ c :: m₂) ++ B) =
        (A ++ keeps m₁) ++ (.keep c :: (keeps m₂ ++ B)) := by
      simp [keeps]
    rw [hpieces] at h
    have hno := h.rest.noMatch
    simpa using hno

/-! ## Neighbours -/

theorem stars_eq : stars = '*' :: List.replicate 8 '*' := by decide

theorem stars_reverse : stars.reverse = '*' :: List.replicate 8 '*' := by decide

theorem stars_ne_nil : stars ≠ [] := by decide

theorem eq_nil_or_snoc (A : List Piece) :
    A = [] ∨ (∃ A' c, A = A' ++ [.keep c]) ∨ ∃ A' m, A = A' ++ [.mask m] := by
  rcases List.eq_nil_or_concat A with rfl | ⟨A', p, rfl⟩
  · exact .inl rfl
  · rw [List.concat_eq_append]
    cases p with
    | keep c => exact .inr (.inl ⟨A', c, rfl⟩)
    | mask m => exact .inr (.inr ⟨A', m, rfl⟩)

theorem wordAt_left {W : Char → Bool} {A : List Piece} (h : ∀ A' m, A ≠ A' ++ [.mask m]) :
    wordAt W (shown stars A).reverse = wordAt W (orig A).reverse := by
  rcases eq_nil_or_snoc A with rfl | ⟨A', c, rfl⟩ | ⟨A', m, rfl⟩
  · rfl
  · simp [wordAt]
  · exact absurd rfl (h A' m)

theorem wordAt_right {W : Char → Bool} {B : List Piece} (h : ∀ m B', B ≠ .mask m :: B') :
    wordAt W (shown stars B) = wordAt W (orig B) := by
  cases B with
  | nil => rfl
  | cons p B =>
    cases p with
    | keep c => rfl
    | mask m => exact absurd rfl (h m B)

theorem dashBefore_cons {c : Char} {l : List Char} (h : dashBefore (c :: l) = true) : c = '-' := by
  unfold dashBefore at h
  split at h
  next heq => exact (List.cons.inj heq).1
  next => cases h

theorem dashBefore_cons_cons (c d : Char) (l l' : List Char) :
    dashBefore (c :: d :: l) = dashBefore (c :: d :: l') := by
  by_cases hc : c = '-'
  · rw [hc]
    rfl
  · have hfalse : ∀ l, dashBefore (c :: d :: l) = false := fun l => by
      by_contra hdash
      exact hc (dashBefore_cons (by simpa using hdash))
    rw [hfalse, hfalse]

theorem dotAfter_cons {c : Char} {s : List Char} (h : dotAfter (c :: s) = true) : c = '.' := by
  unfold dotAfter at h
  split at h
  next heq => exact (List.cons.inj heq).1
  next => cases h

theorem dotAfter_cons_cons (c d : Char) (s s' : List Char) :
    dotAfter (c :: d :: s) = dotAfter (c :: d :: s') := by
  by_cases hc : c = '.'
  · rw [hc]
    rfl
  · have hfalse : ∀ s, dotAfter (c :: d :: s) = false := fun s => by
      by_contra hdot
      exact hc (dotAfter_cons (by simpa using hdot))
    rw [hfalse, hfalse]

/-- A dash counts afterwards if it did before and does not follow a match. -/
theorem dashBefore_shown {A : List Piece} (h : ∀ A' m, A ≠ A' ++ [.mask m]) :
    dashBefore (shown stars A).reverse = true ↔ dashBefore (orig A).reverse = true ∧
      ∀ A' m, A ≠ A' ++ [.mask m, .keep '-'] := by
  rcases eq_nil_or_snoc A with rfl | ⟨A', c, rfl⟩ | ⟨A', m, rfl⟩
  · exact ⟨fun hd => (by cases hd), fun hd => hd.1⟩
  · rw [shown_append, orig_append, List.reverse_append, List.reverse_append]
    change dashBefore (c :: (shown stars A').reverse) = true ↔
      dashBefore (c :: (orig A').reverse) = true ∧ _
    have hne : ∀ (A₁ A₂ : List Piece) (d : Char) (m : List Char),
        A₁ ++ [.keep d] ++ [.keep c] ≠ A₂ ++ [.mask m, .keep '-'] := by
      intro A₁ A₂ d m heq
      have hsplit : A₁ ++ [.keep d, .keep c] = A₂ ++ [.mask m, .keep '-'] := by simpa using heq
      have hlast := (List.append_inj' hsplit rfl).2
      cases hlast
    rcases eq_nil_or_snoc A' with rfl | ⟨A'', d, rfl⟩ | ⟨A'', m, rfl⟩
    · refine ⟨fun hd => ?_, fun hd => hd.1⟩
      rw [dashBefore_cons hd] at hd
      cases hd
    · rw [shown_append, orig_append, List.reverse_append, List.reverse_append]
      change dashBefore (c :: d :: (shown stars A'').reverse) = true ↔
        dashBefore (c :: d :: (orig A'').reverse) = true ∧ _
      rw [dashBefore_cons_cons c d _ (orig A'').reverse]
      exact ⟨fun hd => ⟨hd, fun A₂ m => hne A'' A₂ d m⟩, fun hd => hd.1⟩
    · rw [shown_append, shown_mask, shown_nil, List.append_nil, List.reverse_append, stars_reverse]
      constructor
      · intro hd
        rw [dashBefore_cons hd] at hd
        cases hd
      · rintro ⟨hd, hno⟩
        rw [dashBefore_cons hd] at hno
        exact absurd (by rw [List.append_assoc]; rfl) (hno A'' m)
  · exact absurd rfl (h A' m)

theorem dotAfter_shown {B : List Piece} (h : ∀ m B', B ≠ .mask m :: B') :
    dotAfter (shown stars B) = true ↔ dotAfter (orig B) = true ∧
      ∀ m B', B ≠ .keep '.' :: .mask m :: B' := by
  cases B with
  | nil => exact ⟨fun hd => (by cases hd), fun hd => hd.1⟩
  | cons p B =>
    cases p with
    | mask m => exact absurd rfl (h m B)
    | keep c =>
      rw [shown_keep, orig_keep]
      cases B with
      | nil =>
        refine ⟨fun hd => ?_, fun hd => hd.1⟩
        rw [dotAfter_cons hd] at hd
        cases hd
      | cons q B =>
        cases q with
        | keep d =>
          rw [shown_keep, orig_keep, dotAfter_cons_cons c d _ (orig B)]
          exact ⟨fun hd => ⟨hd, fun m B' heq => (by cases heq)⟩, fun hd => hd.1⟩
        | mask m =>
          rw [shown_mask, stars_eq]
          constructor
          · intro hd
            rw [dotAfter_cons hd] at hd
            cases hd
          · rintro ⟨hd, hno⟩
            rw [dotAfter_cons hd] at hno
            exact absurd rfl (hno m B)

/-- No piece is a match right before a word character. -/
theorem not_mask_left {R : Pattern} {W : Char → Bool} (hR : ∀ l m b, R l m b → wordAt W b = false)
    {s : List Char} {A Q : List Piece} (h : Scan R [] s (A ++ Q)) (hQ : wordAt W (orig Q) = true) :
    ∀ A' m, A ≠ A' ++ [.mask m] := by
  rintro A' m rfl
  rw [List.append_assoc] at h
  have hstop : wordAt W (orig Q) = false := hR _ _ _ h.rest.isMatch
  rw [hQ] at hstop
  cases hstop

theorem not_mask_right {R : Pattern} {W : Char → Bool} (hR : ∀ l m b, R l m b → wordAt W l = false)
    {s : List Char} {A B : List Piece} (h : Scan R [] s (A ++ B))
    (hA : wordAt W (orig A).reverse = true) : ∀ m B', B ≠ .mask m :: B' := by
  rintro m B' rfl
  have hstart := hR _ _ _ h.rest.isMatch
  rw [List.append_nil, hA] at hstart
  cases hstart

/-- The context of a kept run in the text that a scan shows. -/
structure Neighbours (A B : List Piece) : Prop where
  left  : ∀ A' m, A ≠ A' ++ [.mask m]
  right : ∀ m B', B ≠ .mask m :: B'

theorem wordAt_append {W : Char → Bool} {x : List Char} (hne : x ≠ []) (y : List Char) :
    wordAt W (x ++ y) = wordAt W x := by
  cases x with
  | nil => exact absurd rfl hne
  | cons c x => rfl

/-- A word has word characters at both ends. -/
structure WordEnds (W : Char → Bool) (m : List Char) : Prop where
  ne    : m ≠ []
  first : wordAt W m = true
  last  : wordAt W m.reverse = true

theorem WordEnds.of_all {W : Char → Bool} {m : List Char} (hne : m ≠ []) (h : ∀ c ∈ m, W c = true) :
    WordEnds W m := by
  refine ⟨hne, ?_, ?_⟩
  · cases m with
    | nil => exact absurd rfl hne
    | cons c m => exact h c List.mem_cons_self
  · rcases List.eq_nil_or_concat m with rfl | ⟨m', c, rfl⟩
    · exact absurd rfl hne
    · rw [List.concat_eq_append, List.reverse_append]
      exact h c (by simp)

theorem TinShape.wordEnds {W : Char → Bool} (hW : ∀ c, c.isDigit = true → W c = true) {n : Nat}
    {m : List Char} (h : TinShape n m) : WordEnds W m := by
  obtain ⟨d, m₁, hfirst, hd⟩ := h.head
  obtain ⟨m₂, d', hlast, hd'⟩ := h.last_digit
  refine ⟨by rw [hfirst]; exact List.cons_ne_nil _ _, ?_, ?_⟩
  · rw [hfirst]
    exact hW d hd
  · rw [hlast, List.reverse_append]
    exact hW d' hd'

theorem PassportShape.wordEnds {m : List Char} (h : PassportShape U m) : WordEnds U.word m := by
  obtain ⟨c, m', hm, -⟩ := h.head
  exact .of_all (by rw [hm]; exact List.cons_ne_nil _ _) h.word

theorem neighbours {R : Pattern} {W : Char → Bool}
    (hR : ∀ l m b, R l m b → wordAt W l = false ∧ wordAt W b = false) {s m : List Char}
    {A B : List Piece} (h : Scan R [] s (A ++ (keeps m ++ B))) (hm : WordEnds W m) :
    Neighbours A B := by
  constructor
  · refine not_mask_left (fun l m b hmatch => (hR l m b hmatch).2) h ?_
    rw [orig_append, orig_keeps, wordAt_append hm.ne]
    exact hm.first
  · rw [← List.append_assoc] at h
    refine not_mask_right (fun l m b hmatch => (hR l m b hmatch).1) h ?_
    rw [orig_append, orig_keeps, List.reverse_append,
      wordAt_append (fun hnil => hm.ne (List.reverse_eq_nil_iff.1 hnil))]
    exact hm.last

theorem tin_sides (l m b : List Char) (h : TinMatch l m b) :
    wordAt isAsciiWord l = false ∧ wordAt isAsciiWord b = false := ⟨h.start, h.stop⟩

theorem passport_sides (l m b : List Char) (h : PassportMatch U l m b) :
    wordAt U.word l = false ∧ wordAt U.word b = false := ⟨h.start, h.stop⟩

/-! ## Cuts -/

theorem scan_cut {R : Pattern} {s x y : List Char} {P : List Piece} (h : Scan R [] s P)
    (hxy : orig P = x ++ y) :
    (∃ A B, P = A ++ B ∧ orig A = x ∧ orig B = y) ∨
      ∃ A u v b, u ≠ [] ∧ v ≠ [] ∧ x = A ++ u ∧ y = v ++ b ∧ R A.reverse (u ++ v) b := by
  rcases flatMap_eq_append hxy with hcut | ⟨A, p, B, u, v, rfl, hp, hu, hv, rfl, rfl⟩
  · exact .inl hcut
  · cases p with
    | keep c =>
      have hlen := congrArg List.length hp
      rw [List.length_append] at hlen
      have hu := List.length_pos_iff.2 hu
      have hv := List.length_pos_iff.2 hv
      change 1 = _ at hlen
      omega
    | mask m =>
      have hm : m = u ++ v := hp
      subst hm
      have hmatch := h.rest.isMatch
      rw [List.append_nil] at hmatch
      exact .inr ⟨orig A, u, v, orig B, hu, hv, rfl, rfl, hmatch⟩

/-- No tax identifier goes across a place outside the runs, or before a letter. -/
theorem tin_cut {s x y : List Char} {P : List Piece} (h : Scan TinMatch [] s P)
    (hxy : orig P = x ++ y) (hat : ¬ Inside x.reverse ∨ wordAt Char.isUpper y = true) :
    ∃ A B, P = A ++ B ∧ orig A = x ∧ orig B = y := by
  rcases scan_cut h hxy with hcut | ⟨A, u, v, b, hu, hv, rfl, rfl, hmatch⟩
  · exact hcut
  rcases hat with hat | hat
  · refine absurd ?_ hat
    rw [List.reverse_append]
    exact hmatch.shape.inside rfl hu hv
  · cases v with
    | nil => exact absurd rfl hv
    | cons c v =>
      have hno := hmatch.shape.not_upper c (by simp)
      have hc : c.isUpper = true := hat
      rw [hno] at hc
      cases hc

/-- No passport number goes across the end of a word. -/
theorem passport_cut {t x y : List Char} {P : List Piece} (h : Scan (PassportMatch U) [] t P)
    (hxy : orig P = x ++ y) (hat : wordAt U.word x.reverse = false) :
    ∃ A B, P = A ++ B ∧ orig A = x ∧ orig B = y := by
  rcases scan_cut h hxy with hcut | ⟨A, u, v, b, hu, hv, rfl, rfl, hmatch⟩
  · exact hcut
  have hword : wordAt U.word u.reverse = true :=
    (WordEnds.of_all hu fun c hc => hmatch.shape.word c (List.mem_append_left v hc)).last
  rw [List.reverse_append, wordAt_append (fun hnil => hu (List.reverse_eq_nil_iff.1 hnil)),
    hword] at hat
  cases hat

theorem PassportMatch.congr {l l' m b b' : List Char} (h : PassportMatch U l m b)
    (hl : wordAt U.word l' = wordAt U.word l) (hb : wordAt U.word b' = wordAt U.word b) :
    PassportMatch U l' m b' :=
  ⟨h.shape, hl.trans h.start, hb.trans h.stop⟩

/-- A passport number that ends behind the first character of a run ends within it. -/
theorem TinShape.overlap {m b u v b' : List Char} (hm : TinShape 8 m) (hp : PassportShape U (u ++ v))
    (h : m ++ b = v ++ b') : ∃ m₂, m₂ ≠ [] ∧ m = v ++ m₂ ∧ b' = m₂ ++ b := by
  have hnine := hm.countP
  have height := hp.countP
  rw [List.countP_append] at height
  rcases List.append_eq_append_iff.1 h with ⟨w, rfl, -⟩ | ⟨w, rfl, rfl⟩
  · rw [List.countP_append] at height
    omega
  · refine ⟨w, ?_, rfl, rfl⟩
    rintro rfl
    rw [List.append_nil] at hnine
    omega

/-- Pieces with at most eight digits are kept. -/
theorem eq_keeps {s : List Char} {A C D : List Piece} (h : Scan TinMatch [] s (A ++ (C ++ D)))
    (height : (orig C).countP Char.isDigit ≤ 8) : C = keeps (orig C) := by
  induction C generalizing A with
  | nil => rfl
  | cons p C ih =>
    cases p with
    | keep c =>
      rw [orig_keep, List.countP_cons] at height
      have hrest : Scan TinMatch [] s ((A ++ [.keep c]) ++ (C ++ D)) := by
        rw [List.append_assoc]
        exact h
      exact congrArg (Piece.keep c :: ·) (ih hrest (by omega))
    | mask m =>
      have hnine := h.rest.isMatch.shape.countP
      rw [orig_mask, List.countP_append] at height
      omega

end

end DocumentAi.Pii
