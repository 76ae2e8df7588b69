import Mathlib.Data.List.Basic

/-!
# Percent-encoding of strings

| here | there |
| --- | --- |
| `unreserved`   | the bytes that `urllib.parse.quote` never encodes: ASCII letters, digits and `_.-~` |
| `quote s`      | `quote(s, safe="")`: every other character as the `%XX` of its UTF-8 bytes |
| `quote_eq_self_iff` | encoding leaves alone exactly the strings of unreserved characters |
-/

namespace Quote

def unreserved (c : Char) : Bool := c.isAlphanum || ['_', '.', '-', '~'].contains c

/-- An upper-case hexadecimal digit. -/
def hexDigit (n : Nat) : Char := Char.ofNat (if n < 10 then n + 48 else n + 55)

def quoteByte (b : UInt8) : List Char :=
  ['%', hexDigit (b.toNat / 16), hexDigit (b.toNat % 16)]

def quoteChar (c : Char) : List Char :=
  if unreserved c then [c] else (String.utf8EncodeChar c).flatMap quoteByte

def quote (s : String) : String := String.ofList (s.toList.flatMap quoteChar)

theorem quoteChar_of_unreserved {c : Char} (h : unreserved c = true) : quoteChar c = [c] :=
  if_pos h

/-- An encoded character is longer than the character. -/
theorem one_lt_length_quoteChar {c : Char} (h : unreserved c = false) :
    1 < (quoteChar c).length := by
  rw [quoteChar, if_neg (by simp [h])]
  cases hc : String.utf8EncodeChar c with
  | nil => exact absurd hc String.utf8EncodeChar_ne_nil
  | cons b bs => simp [quoteByte]

theorem length_quoteChar_pos (c : Char) : 0 < (quoteChar c).length := by
  cases h : unreserved c with
  | true => simp [quoteChar_of_unreserved h]
  | false => exact Nat.lt_trans Nat.zero_lt_one (one_lt_length_quoteChar h)

theorem length_le_length_flatMap (cs : List Char) : cs.length ≤ (cs.flatMap quoteChar).length := by
  induction cs with
  | nil => exact Nat.le_refl _
  | cons c cs ih =>
    have hc := length_quoteChar_pos c
    simp only [List.flatMap_cons, List.length_append, List.length_cons]
    omega

theorem flatMap_quoteChar_eq_self_iff (cs : List Char) :
    cs.flatMap quoteChar = cs ↔ ∀ c ∈ cs, unreserved c = true := by
  induction cs with
  | nil => simp
  | cons c cs ih =>
    rw [List.flatMap_cons, List.forall_mem_cons]
    cases h : unreserved c with
    | true =>
      rw [quoteChar_of_unreserved h, List.singleton_append, List.cons_inj_right, ih]
      exact (and_iff_right rfl).symm
    | false =>
      -- the encoded string is longer
      refine iff_of_false (fun he => ?_) fun hu => (by cases hu.1)
      have hlen := congrArg List.length he
      have hc := one_lt_length_quoteChar h
      have hcs := length_le_length_flatMap cs
      simp only [List.length_append, List.length_cons] at hlen
      omega

theorem quote_eq_self_iff (s : String) : quote s = s ↔ ∀ c ∈ s.toList, unreserved c = true := by
  rw [← flatMap_quoteChar_eq_self_iff, quote, ← String.toList_inj, String.toList_ofList]

example : quote "my file.pdf" = "my%20file.pdf" := by decide

end Quote
