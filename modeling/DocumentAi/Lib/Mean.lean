import Mathlib.Algebra.BigOperators.Group.List.Basic
import Mathlib.Algebra.Field.Basic
import Mathlib.Data.Nat.Cast.Defs
import Mathlib.Algebra.CharZero.Defs
import Mathlib.Data.List.Perm.Basic

/-!
# Means of finite lists

The mean of no numbers is absent. `Balanced xs ys` says that the numbers `ys` may be left out of
the mean of both lists together.
-/

namespace Mean

variable {K α : Type} [Field K]

def mean (xs : List K) : Option K := if xs = [] then none else some (xs.sum / xs.length)

theorem mean_eq_none {xs : List K} : mean xs = none ↔ xs = [] := by
  unfold mean
  split
  next h => simp [h]
  next h => simp [h]

theorem mean_of_ne_nil {xs : List K} (h : xs ≠ []) : mean xs = some (xs.sum / xs.length) := if_neg h

theorem mean_perm {xs ys : List K} (h : xs.Perm ys) : mean xs = mean ys := by
  unfold mean
  rw [h.sum_eq, h.length_eq]
  by_cases hx : xs = []
  · subst hx
    rw [if_pos rfl, if_pos h.nil_eq.symm]
  · have hy : ys ≠ [] := fun hy => hx (h.trans (.of_eq hy)).eq_nil
    rw [if_neg hx, if_neg hy]

/-- There are no numbers to leave out, or they have the mean of the others. -/
def Balanced (xs ys : List K) : Prop := ys = [] ∨ xs ≠ [] ∧ mean ys = mean xs

instance [DecidableEq K] (xs ys : List K) : Decidable (Balanced xs ys) := inferInstanceAs (Decidable (_ ∨ _))

theorem mean_append_eq_iff [CharZero K] {xs ys : List K} :
    mean (xs ++ ys) = mean xs ↔ Balanced xs ys := by
  by_cases hy : ys = []
  · subst hy
    rw [List.append_nil]
    exact iff_of_true rfl (.inl rfl)
  by_cases hx : xs = []
  · subst hx
    rw [List.nil_append, mean_eq_none.2 rfl, mean_eq_none]
    exact iff_of_false hy fun h => h.elim hy fun h => h.1 rfl
  have hxy : xs ++ ys ≠ [] := List.append_ne_nil_of_left_ne_nil hx ys
  have hm : (xs.length : K) ≠ 0 := Nat.cast_ne_zero.2 (mt List.length_eq_zero_iff.1 hx)
  have hn : (ys.length : K) ≠ 0 := Nat.cast_ne_zero.2 (mt List.length_eq_zero_iff.1 hy)
  have hmn : (xs.length : K) + ys.length ≠ 0 := by
    rw [← Nat.cast_add, ← List.length_append]
    exact Nat.cast_ne_zero.2 (mt List.length_eq_zero_iff.1 hxy)
  rw [Balanced, or_iff_right hy, and_iff_right hx, mean_of_ne_nil hxy, mean_of_ne_nil hx,
    mean_of_ne_nil hy, Option.some.injEq, Option.some.injEq, List.sum_append, List.length_append,
    Nat.cast_add, div_eq_div_iff hmn hm, div_eq_div_iff hn hm, add_mul, mul_add, add_right_inj]

/-- Of the elements that `q` chooses, those that `p` does not choose may be left out. -/
theorem mean_filter_eq_iff [CharZero K] {p q : α → Bool} (f : α → K) {l : List α}
    (hpq : ∀ x ∈ l, p x = true → q x = true) :
    mean ((l.filter q).map f) = mean ((l.filter p).map f) ↔
      Balanced ((l.filter p).map f) ((l.filter fun x => q x && !p x).map f) := by
  have hp : (l.filter q).filter p = l.filter p := by
    rw [List.filter_filter]
    refine List.filter_congr fun x hx => ?_
    cases h : p x with
    | true => exact hpq x hx h
    | false => rfl
  have hrest : (l.filter q).filter (fun x => !p x) = l.filter fun x => q x && !p x := by
    rw [List.filter_filter]
    exact List.filter_congr fun x _ => Bool.and_comm _ _
  have hperm := (List.filter_append_perm p (l.filter q)).map f
  rw [hp, hrest, List.map_append] at hperm
  rw [← mean_perm hperm, mean_append_eq_iff]

end Mean
