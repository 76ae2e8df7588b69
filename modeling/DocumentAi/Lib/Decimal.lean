import Mathlib.Data.Nat.ModEq
import Mathlib.Tactic.Linarith

/-!
# Decimal numbers of a fixed width

| here | Python |
| --- | --- |
| `padded w n` | `f"{n:0{w}d}"`, for numbers of at most `w` digits |

Numbers of one width compare as their texts do (`padded_lt_padded`), and a text of fixed width is
compared before what follows it (`append_lt_append`).
-/

namespace Decimal

def padded : Nat → Nat → List Char
  | 0, _     => []
  | w + 1, n => Nat.digitChar (n / 10 ^ w) :: padded w (n % 10 ^ w)

theorem length_padded (w n : Nat) : (padded w n).length = w := by
  induction w generalizing n with
  | zero => rfl
  | succ w ih => rw [padded, List.length_cons, ih]

theorem digitChar_lt_digitChar : ∀ b < 10, ∀ a < b, Nat.digitChar a < Nat.digitChar b := by
  decide

theorem padded_lt_padded {w n m : Nat} (hlt : n < m) (hm : m < 10 ^ w) :
    padded w n < padded w m := by
  induction w generalizing n m with
  | zero => omega
  | succ w ih =>
    have hpos : 0 < 10 ^ w := Nat.pos_of_ne_zero (pow_ne_zero w (by decide))
    have hlead : m / 10 ^ w < 10 := by
      rw [Nat.div_lt_iff_lt_mul hpos, Nat.mul_comm, ← pow_succ]
      exact hm
    rw [padded, padded, List.cons_lt_cons_iff]
    rcases Nat.lt_or_eq_of_le (Nat.div_le_div_right (c := 10 ^ w) hlt.le) with hdiv | hdiv
    · exact .inl (digitChar_lt_digitChar _ hlead _ hdiv)
    · refine .inr ⟨congrArg _ hdiv, ih ?_ (Nat.mod_lt m hpos)⟩
      have hn := Nat.div_add_mod n (10 ^ w)
      have hm' := Nat.div_add_mod m (10 ^ w)
      rw [hdiv] at hn
      omega

theorem append_lt_append {as bs : List Char} (h : as < bs) (hlen : as.length = bs.length)
    (cs ds : List Char) : as ++ cs < bs ++ ds := by
  induction as generalizing bs with
  | nil =>
    rw [List.eq_nil_of_length_eq_zero hlen.symm] at h
    exact absurd h (List.lt_irrefl _)
  | cons a as ih =>
    cases bs with
    | nil => cases hlen
    | cons b bs =>
      rw [List.cons_append, List.cons_append, List.cons_lt_cons_iff]
      rcases List.cons_lt_cons_iff.1 h with hab | ⟨hab, h⟩
      · exact .inl hab
      · exact .inr ⟨hab, ih h (Nat.succ.inj hlen)⟩

end Decimal
