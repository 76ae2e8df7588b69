import Mathlib.Data.List.Basic
import Mathlib.Data.List.Infix

/-!
# Replacing every match of a pattern

A matcher looks at a place of a text: the characters before it, nearest first, and those after it.
A substitution goes from left to right, puts a fixed text for each match and goes on behind it;
the context is always that of the text before the substitution.

| here | meaning |
| --- | --- |
| `sub`     | the text after the substitution; `skip` characters are left of the match in progress |
| `Piece`   | a character that is kept, or a match |
| `Scan`    | the pieces that the substitution goes through |
| `Implements` | a matcher finds exactly the matches of a relation |

Main results: `scan_sub`, a substitution shows the pieces of a scan; `Scan.rest`, what is true where
a scan has come to; `exists_keeps`, what is in the text afterwards and not in the replacement was
there before.
-/

namespace Subst

/-- The match, and the text after it. -/
abbrev Matcher : Type := List Char → List Char → Option (List Char × List Char)

/-- Before, match, after. -/
abbrev Pattern : Type := List Char → List Char → List Char → Prop

def sub (mask : List Char) (find : Matcher) : (skip : Nat) → (before : List Char) → List Char →
    List Char
  | _, _, []         => []
  | k + 1, l, c :: s => sub mask find k (c :: l) s
  | 0, l, c :: s     =>
    match find l (c :: s) with
    | some (_ :: more, _) => mask ++ sub mask find more.length (c :: l) s
    | _                   => c :: sub mask find 0 (c :: l) s

inductive Piece where
  | keep (c : Char)
  | mask (m : List Char)

def Piece.orig : Piece → List Char
  | keep c => [c]
  | mask m => m

def Piece.shown (mask : List Char) : Piece → List Char
  | .keep c => [c]
  | .mask _ => mask

def orig (P : List Piece) : List Char := P.flatMap Piece.orig

def shown (mask : List Char) (P : List Piece) : List Char := P.flatMap (Piece.shown mask)

def keeps (m : List Char) : List Piece := m.map .keep

def NoMatch (R : Pattern) (l s : List Char) : Prop := ∀ m b, m ++ b = s → ¬ R l m b

inductive Scan (R : Pattern) : List Char → List Char → List Piece → Prop
  | done {l} : Scan R l [] []
  | keep {l c s P} : NoMatch R l (c :: s) → Scan R (c :: l) s P → Scan R l (c :: s) (.keep c :: P)
  | mask {l m b P} : m ≠ [] → R l m b → Scan R (m.reverse ++ l) b P → Scan R l (m ++ b) (.mask m :: P)

structure Implements (find : Matcher) (R : Pattern) : Prop where
  sound    : ∀ l s m b, find l s = some (m, b) → s = m ++ b ∧ m ≠ [] ∧ R l m b
  complete : ∀ l m b, R l m b → find l (m ++ b) = some (m, b)

variable {mask : List Char} {find : Matcher} {R : Pattern}

/-! ## Pieces -/

@[simp] theorem orig_append (A B : List Piece) : orig (A ++ B) = orig A ++ orig B :=
  List.flatMap_append

@[simp] theorem shown_append (A B : List Piece) : shown mask (A ++ B) = shown mask A ++ shown mask B :=
  List.flatMap_append

@[simp] theorem orig_keep (c : Char) (P : List Piece) : orig (.keep c :: P) = c :: orig P := rfl

@[simp] theorem orig_mask (m : List Char) (P : List Piece) : orig (.mask m :: P) = m ++ orig P := rfl

@[simp] theorem shown_keep (c : Char) (P : List Piece) :
    shown mask (.keep c :: P) = c :: shown mask P := rfl

@[simp] theorem shown_mask (m : List Char) (P : List Piece) :
    shown mask (.mask m :: P) = mask ++ shown mask P := rfl

@[simp] theorem orig_nil : orig [] = [] := rfl

@[simp] theorem shown_nil : shown mask [] = [] := rfl

@[simp] theorem orig_keeps (m : List Char) : orig (keeps m) = m := by
  induction m with
  | nil => rfl
  | cons c m ih => exact congrArg (c :: ·) ih

@[simp] theorem shown_keeps (m : List Char) : shown mask (keeps m) = m := by
  induction m with
  | nil => rfl
  | cons c m ih => exact congrArg (c :: ·) ih

/-- A cut of the text is a cut of the pieces, or goes through one of them. -/
theorem flatMap_eq_append {f : Piece → List Char} :
    ∀ {P : List Piece} {x y : List Char}, P.flatMap f = x ++ y →
      (∃ A B, P = A ++ B ∧ A.flatMap f = x ∧ B.flatMap f = y) ∨
        ∃ A p B u v, P = A ++ p :: B ∧ f p = u ++ v ∧ u ≠ [] ∧ v ≠ [] ∧
          x = A.flatMap f ++ u ∧ y = v ++ B.flatMap f
  | P, [], y, h          => .inl ⟨[], P, rfl, rfl, h⟩
  | [], c :: x, y, h     => by cases h
  | p :: P, c :: x, y, h => by
    rw [List.flatMap_cons] at h
    rcases List.append_eq_append_iff.1 h with ⟨w, hx, hP⟩ | ⟨w, hp, hy⟩
    · rcases flatMap_eq_append hP with ⟨A, B, rfl, rfl, rfl⟩ | ⟨A, q, B, u, v, rfl, hq, hu, hv, rfl, rfl⟩
      · exact .inl ⟨p :: A, B, rfl, hx.symm, rfl⟩
      · refine .inr ⟨p :: A, q, B, u, v, rfl, hq, hu, hv, ?_, rfl⟩
        rw [hx, List.flatMap_cons, List.append_assoc]
    · by_cases hw : w = []
      · subst hw
        rw [List.append_nil] at hp
        rw [List.nil_append] at hy
        exact .inl ⟨[p], P, rfl, by rw [List.flatMap_singleton, hp], hy.symm⟩
      · exact .inr ⟨[], p, P, c :: x, w, rfl, hp, List.cons_ne_nil _ _, hw, rfl, hy⟩

/-- Kept characters at the head. -/
theorem eq_keeps_append : ∀ {m b : List Char} {P : List Piece}, (∀ c ∈ m, c ∉ mask) → mask ≠ [] →
    shown mask P = m ++ b → ∃ B, P = keeps m ++ B ∧ shown mask B = b
  | [], b, P, _, _, h             => ⟨P, rfl, h⟩
  | c :: m, b, [], _, _, h        => by cases h
  | c :: m, b, .keep d :: P, hm, hmask, h => by
    rw [shown_keep, List.cons_append] at h
    obtain ⟨rfl, hrest⟩ := List.cons.inj h
    obtain ⟨B, rfl, hB⟩ := eq_keeps_append (fun c hc => hm c (List.mem_cons_of_mem _ hc)) hmask hrest
    exact ⟨B, rfl, hB⟩
  | c :: m, b, .mask _ :: P, hm, hmask, h => by
    rw [shown_mask] at h
    cases mask with
    | nil => exact absurd rfl hmask
    | cons x mask =>
      rw [List.cons_append, List.cons_append] at h
      refine absurd ?_ (hm c List.mem_cons_self)
      rw [(List.cons.inj h).1]
      exact List.mem_cons_self

/-- A character that no match contains is kept. -/
theorem exists_keep {c : Char} : ∀ {P : List Piece} {x y : List Char},
    (∀ m, .mask m ∈ P → c ∉ m) → orig P = x ++ c :: y →
      ∃ A B, P = A ++ .keep c :: B ∧ orig A = x ∧ orig B = y
  | [], x, _, _, h           => by
    cases x with
    | nil => cases h
    | cons d x => cases h
  | .keep d :: P, [], _, _, h => by
    obtain ⟨rfl, rfl⟩ := List.cons.inj h
    exact ⟨[], P, rfl, rfl, rfl⟩
  | .keep d :: _, _ :: _, _, hP, h => by
    obtain ⟨rfl, hrest⟩ := List.cons.inj h
    obtain ⟨A, B, rfl, rfl, hB⟩ := exists_keep (fun m hm => hP m (List.mem_cons_of_mem _ hm)) hrest
    exact ⟨.keep d :: A, B, rfl, rfl, hB⟩
  | .mask m :: P, _, _, hP, h => by
    rw [orig_mask] at h
    have hP' : ∀ m, .mask m ∈ P → c ∉ m := fun m hm => hP m (List.mem_cons_of_mem _ hm)
    rcases List.append_eq_append_iff.1 h with ⟨w, rfl, hrest⟩ | ⟨w, hm, hrest⟩
    · obtain ⟨A, B, rfl, rfl, hB⟩ := exists_keep hP' hrest
      exact ⟨.mask m :: A, B, rfl, rfl, hB⟩
    · cases w with
      | nil =>
        rw [List.append_nil] at hm
        obtain ⟨A, B, rfl, hA, hB⟩ := exists_keep hP' (show orig P = [] ++ _ from hrest.symm)
        exact ⟨.mask m :: A, B, rfl, by rw [orig_mask, hA, List.append_nil, hm], hB⟩
      | cons d w =>
        obtain ⟨rfl, -⟩ := List.cons.inj hrest
        refine absurd ?_ (hP m List.mem_cons_self)
        rw [hm]
        simp

theorem eq_keeps_orig : ∀ {P : List Piece}, (∀ m, .mask m ∉ P) → P = keeps (orig P)
  | [], _           => rfl
  | .keep c :: P, h =>
    congrArg (Piece.keep c :: ·) (eq_keeps_orig fun m hm => h m (List.mem_cons_of_mem _ hm))
  | .mask m :: P, h => absurd List.mem_cons_self (h m)

/-- What the replacement does not contain has been kept. -/
theorem exists_keeps {a m b : List Char} {P : List Piece} (hm : ∀ c ∈ m, c ∉ mask) (hne : m ≠ [])
    (hmask : mask ≠ []) (h : shown mask P = a ++ (m ++ b)) :
    ∃ A B, P = A ++ (keeps m ++ B) ∧ shown mask A = a ∧ shown mask B = b := by
  rcases flatMap_eq_append h with ⟨A, B, rfl, hA, hB⟩ | ⟨A, p, B, u, v, rfl, hp, hu, hv, -, hy⟩
  · obtain ⟨B', rfl, hB'⟩ := eq_keeps_append hm hmask hB
    exact ⟨A, B', rfl, hA, hB'⟩
  · cases m with
    | nil => exact absurd rfl hne
    | cons c m =>
      cases v with
      | nil => exact absurd rfl hv
      | cons d v =>
        obtain ⟨rfl, -⟩ := List.cons.inj hy
        cases p with
        | keep c' =>
          have hlen := congrArg List.length hp
          cases u with
          | nil => exact absurd rfl hu
          | cons c'' u => simp [Piece.shown] at hlen
        | mask m' =>
          refine absurd ?_ (hm c List.mem_cons_self)
          rw [show mask = u ++ c :: v from hp]
          simp

/-! ## Scans -/

theorem Scan.orig_eq {l s : List Char} {P : List Piece} (h : Scan R l s P) : orig P = s := by
  induction h with
  | done => rfl
  | keep _ _ ih => rw [orig_keep, ih]
  | mask _ _ _ ih => rw [orig_mask, ih]

theorem Scan.eq_nil {l : List Char} {P : List Piece} (h : Scan R l [] P) : P = [] := by
  generalize htext : ([] : List Char) = text at h
  cases h with
  | done => rfl
  | keep _ _ => cases htext
  | mask hne _ _ => exact absurd (List.append_eq_nil_iff.1 htext.symm).1 hne

/-- Behind some of its pieces a scan goes on. -/
theorem Scan.rest : ∀ {A B : List Piece} {l s : List Char}, Scan R l s (A ++ B) →
    Scan R ((orig A).reverse ++ l) (orig B) B
  | [], B, l, s, h          => by
    rw [← h.orig_eq] at h
    exact h
  | .keep c :: A, B, l, s, h => by
    cases h with
    | keep _ h =>
      have hrest := Scan.rest h
      rw [orig_keep, List.reverse_cons, List.append_assoc]
      exact hrest
  | .mask m :: A, B, l, s, h => by
    cases h with
    | mask _ _ h =>
      have hrest := Scan.rest h
      rw [orig_mask, List.reverse_append, List.append_assoc]
      exact hrest

theorem Scan.noMatch {l s : List Char} {c : Char} {P : List Piece} (h : Scan R l s (.keep c :: P)) :
    NoMatch R l s := by
  cases h with
  | keep hno _ => exact hno

theorem Scan.isMatch {l s m : List Char} {P : List Piece} (h : Scan R l s (.mask m :: P)) :
    R l m (orig P) := by
  cases h with
  | mask _ hR h =>
    rw [h.orig_eq]
    exact hR

/-- Every piece that is masked is a match. -/
theorem Scan.mem_mask {l s : List Char} {P : List Piece} (h : Scan R l s P) :
    ∀ m, .mask m ∈ P → ∃ l b, R l m b := by
  induction h with
  | done => exact fun m hm => absurd hm List.not_mem_nil
  | keep _ _ ih =>
    intro m hm
    rcases List.mem_cons.1 hm with heq | hm
    · cases heq
    · exact ih m hm
  | mask _ hR _ ih =>
    intro m hm
    rcases List.mem_cons.1 hm with heq | hm
    · cases heq
      exact ⟨_, _, hR⟩
    · exact ih m hm

/-- Where there is no match the next character is kept. -/
theorem Scan.keep_of_noMatch {l s : List Char} {c : Char} {P : List Piece}
    (h : Scan R l (c :: s) P) (hno : NoMatch R l (c :: s)) :
    ∃ P', P = .keep c :: P' ∧ Scan R (c :: l) s P' := by
  generalize htext : c :: s = text at h
  cases h with
  | done => cases htext
  | keep _ hrest =>
    cases htext
    exact ⟨_, rfl, hrest⟩
  | mask _ hR _ => exact absurd hR (hno _ _ htext.symm)

/-- Where there is a match it is a piece, if no two matches begin at one place. -/
theorem Scan.mask_of_match {l m b : List Char} {P : List Piece} (himp : Implements find R)
    (h : Scan R l (m ++ b) P) (hR : R l m b) : ∃ P', P = .mask m :: P' ∧ orig P' = b := by
  have hfind := himp.complete l m b hR
  generalize htext : m ++ b = text at h
  cases h with
  | done =>
    rw [htext] at hfind
    obtain ⟨hnil, hne, -⟩ := himp.sound _ _ _ _ hfind
    exact absurd (List.append_eq_nil_iff.1 hnil.symm).1 hne
  | keep hno _ => exact absurd hR (hno _ _ htext)
  | mask _ hR' hrest =>
    have hfind' := himp.complete _ _ _ hR'
    rw [← htext, hfind] at hfind'
    cases hfind'
    exact ⟨_, rfl, hrest.orig_eq⟩

theorem sub_skip (mask : List Char) (find : Matcher) : ∀ (k : Nat) (l s : List Char),
    sub mask find k l s = sub mask find 0 ((s.take k).reverse ++ l) (s.drop k)
  | 0, l, s          => by rw [List.take_zero, List.drop_zero]; rfl
  | k + 1, l, []     => by rw [List.drop_nil]; rfl
  | k + 1, l, c :: s => by
    rw [List.take_succ_cons, List.drop_succ_cons, List.reverse_cons, List.append_assoc]
    exact sub_skip mask find k (c :: l) s

theorem sub_of_none (mask : List Char) {find : Matcher} : ∀ {s l : List Char},
    (∀ l t, t <:+ s → find l t = none) → sub mask find 0 l s = s
  | [], _, _     => rfl
  | c :: s, l, h => by
    rw [sub, h l (c :: s) List.suffix_rfl]
    dsimp only
    rw [sub_of_none mask fun l t ht => h l t (ht.trans (List.suffix_cons c s))]

/-- **A substitution shows the pieces of a scan.** -/
theorem scan_sub (himp : Implements find R) (mask : List Char) :
    ∀ (n : Nat) (l s : List Char), s.length ≤ n →
      ∃ P, Scan R l s P ∧ sub mask find 0 l s = shown mask P
  | _, l, [], _          => ⟨[], .done, rfl⟩
  | n + 1, l, c :: s, hn => by
    rw [List.length_cons] at hn
    cases hfind : find l (c :: s) with
    | none =>
      have hno : NoMatch R l (c :: s) := by
        intro m b hmb hR
        have hsome := himp.complete l m b hR
        rw [hmb, hfind] at hsome
        cases hsome
      obtain ⟨P, hP, hsub⟩ := scan_sub himp mask n (c :: l) s (by omega)
      refine ⟨.keep c :: P, .keep hno hP, ?_⟩
      rw [sub, hfind, shown_keep, ← hsub]
    | some r =>
      obtain ⟨m, b⟩ := r
      obtain ⟨htext, hne, hR⟩ := himp.sound _ _ _ _ hfind
      cases m with
      | nil => exact absurd rfl hne
      | cons d more =>
        have hhead := (List.cons.inj htext).1
        have htail : s = more ++ b := (List.cons.inj htext).2
        subst hhead htail
        obtain ⟨P, hP, hsub⟩ := scan_sub himp mask n ((c :: more).reverse ++ l) b
          (by rw [List.length_append] at hn; omega)
        refine ⟨.mask (c :: more) :: P, .mask hne hR hP, ?_⟩
        rw [sub, hfind]
        dsimp only
        rw [sub_skip, List.take_left, List.drop_left, shown_mask, ← hsub, List.reverse_cons,
          List.append_assoc]
        rfl

end Subst
