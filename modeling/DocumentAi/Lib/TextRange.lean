import Mathlib.Data.Char
import Mathlib.Data.List.Lex
import DocumentAi.Lib.Decimal

/-!
# Ranges of texts in lexicographic order

A range query selects the keys between two texts. A key that goes on after the upper text is above
it; `e ++ [top]`, with a character above all others, puts the keys that begin with `e` below.

| here | meaning |
| --- | --- |
| `append_lt_append_iff` | heads of one length are compared first |
| `le_append_top_iff`    | up to `e ++ [top]`: what is before `e`, and what begins with it |
| `padded_append_lt`     | a number of fixed width, then the rest |
-/

namespace TextRange

open Decimal (padded length_padded padded_lt_padded append_lt_append)

theorem append_lt_append_iff {as bs : List Char} (h : as.length = bs.length) (cs ds : List Char) :
    as ++ cs < bs ++ ds ↔ as < bs ∨ as = bs ∧ cs < ds := by
  constructor
  · intro hlt
    rcases lt_trichotomy as bs with hab | rfl | hab
    · exact .inl hab
    · rcases lt_trichotomy cs ds with hcd | rfl | hcd
      · exact .inr ⟨rfl, hcd⟩
      · exact absurd hlt (lt_irrefl _)
      · exact absurd hlt (lt_asymm (List.append_left_lt hcd))
    · exact absurd hlt (lt_asymm (append_lt_append hab h.symm ds cs))
  · rintro (hab | ⟨rfl, hcd⟩)
    · exact append_lt_append hab h cs ds
    · exact List.append_left_lt hcd

/-- A number of fixed width is compared before what follows it. -/
theorem padded_append_lt {w n m : Nat} {s t : List Char} (hm : m < 10 ^ w)
    (h : n < m ∨ n = m ∧ s < t) : padded w n ++ s < padded w m ++ t := by
  rcases h with hlt | ⟨rfl, hst⟩
  · exact append_lt_append (padded_lt_padded hlt hm) (by simp only [length_padded]) s t
  · exact List.append_left_lt hst

theorem le_append_self (as bs : List Char) : as ≤ as ++ bs := by
  refine not_lt.1 fun hlt => ?_
  have hself : as ++ [] < as ++ bs ∨ as ++ [] = as ++ bs := by
    cases bs with
    | nil => exact .inr rfl
    | cons b bs => exact .inl (List.append_left_lt (List.nil_lt_cons b bs))
  rw [List.append_nil] at hself
  rcases hself with hself | hself
  · exact lt_asymm hlt hself
  · rw [← hself] at hlt
    exact lt_irrefl _ hlt

theorem le_append_top_iff {top : Char} {e : List Char} :
    ∀ {s : List Char}, (∀ c ∈ s, c < top) → (s ≤ e ++ [top] ↔ s < e ∨ e <+: s) := by
  induction e with
  | nil =>
    intro s hs
    refine iff_of_true (not_lt.1 fun hlt => ?_) (.inr List.nil_prefix)
    cases s with
    | nil => exact List.not_lt_nil _ hlt
    | cons c s =>
      rcases List.cons_lt_cons_iff.1 hlt with htop | ⟨rfl, _⟩
      · exact lt_asymm htop (hs c List.mem_cons_self)
      · exact lt_irrefl _ (hs _ List.mem_cons_self)
  | cons a e ih =>
    intro s hs
    cases s with
    | nil => exact iff_of_true (not_lt.1 (List.not_lt_nil _)) (.inl (List.nil_lt_cons a e))
    | cons c s =>
      have hrest := ih fun x hx => hs x (List.mem_cons_of_mem _ hx)
      rw [← not_lt] at hrest
      rw [← not_lt, List.cons_append, List.cons_lt_cons_iff, List.cons_lt_cons_iff,
        List.cons_prefix_cons]
      rcases lt_trichotomy c a with hca | rfl | hac
      · simp [hca, hca.ne', hca.not_gt]
      · simp only [lt_irrefl, false_or, true_and]
        exact hrest
      · simp [hac, hac.ne, hac.ne', hac.not_gt]

section
variable {d e : List Char}

/-- The lower end, for keys with a head of its length. -/
theorem le_append_iff (h : e.length = d.length) (rest : List Char) : e ≤ d ++ rest ↔ e ≤ d := by
  constructor
  · intro hle
    refine not_lt.1 fun hlt => ?_
    have hall : d ++ rest < e ++ [] := append_lt_append hlt h.symm rest []
    rw [List.append_nil] at hall
    exact absurd hle (not_le.2 hall)
  · intro hle
    exact le_trans hle (le_append_self d rest)

/-- The upper end, for keys with a head of its length. -/
theorem lt_or_prefix_iff (h : e.length = d.length) (rest : List Char) :
    d ++ rest < e ∨ e <+: d ++ rest ↔ d ≤ e := by
  constructor
  · rintro (hlt | hpre)
    · exact le_trans (le_append_self d rest) (le_of_lt hlt)
    · have hhead : e <+: d := List.prefix_of_prefix_length_le hpre (List.prefix_append d rest) h.le
      exact (hhead.eq_of_length h).symm.le
  · intro hle
    rcases lt_or_eq_of_le hle with hlt | rfl
    · have hall : d ++ rest < e ++ [] := append_lt_append hlt h.symm rest []
      rw [List.append_nil] at hall
      exact .inl hall
    · exact .inr (List.prefix_append _ _)

end

end TextRange
