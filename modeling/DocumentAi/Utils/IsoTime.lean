import Mathlib.Data.Bool.AllAny
import DocumentAi.Lib.TextRange

/-!
# Times as texts (`datetime.now(UTC).isoformat()`)

| here | there |
| --- | --- |
| `UtcTime`   | an aware `datetime` in UTC, by the digits of its fields |
| `isoformat` | `isoformat()`: no fraction when there are no microseconds |
| `Day.text`  | `YYYY-MM-DD`, the first ten characters of the text of a time |

Times compare as their texts do, whatever follows the texts (`isoformat_append_lt`).
-/

namespace DocumentAi.Iso

open Decimal (padded length_padded)

structure Day where
  year  : Nat
  month : Nat
  day   : Nat
  year_lt  : year < 10000
  month_lt : month < 100
  day_lt   : day < 100

structure UtcTime where
  date        : Day
  hour        : Nat
  minute      : Nat
  second      : Nat
  microsecond : Nat
  hour_lt        : hour < 100
  minute_lt      : minute < 100
  second_lt      : second < 100
  microsecond_lt : microsecond < 1000000

/-- The fields read as one number, which orders the days. -/
def Day.number (d : Day) : Nat := (d.year * 100 + d.month) * 100 + d.day

def UtcTime.number (t : UtcTime) : Nat :=
  (((t.date.number * 100 + t.hour) * 100 + t.minute) * 100 + t.second) * 1000000 + t.microsecond

def Day.text (d : Day) : List Char :=
  padded 4 d.year ++ '-' :: (padded 2 d.month ++ '-' :: padded 2 d.day)

def fraction (microsecond : Nat) : List Char :=
  if microsecond = 0 then [] else '.' :: padded 6 microsecond

def UtcTime.clock (t : UtcTime) : List Char :=
  padded 2 t.hour ++ ':' :: (padded 2 t.minute ++ ':' :: (padded 2 t.second ++ fraction t.microsecond))

def isoformat (t : UtcTime) : List Char := t.date.text ++ 'T' :: t.clock ++ "+00:00".toList

example : isoformat ⟨⟨2026, 1, 8, by decide, by decide, by decide⟩, 7, 30, 0, 5, by decide, by decide,
    by decide, by decide⟩ = "2026-01-08T07:30:00.000005+00:00".toList := by decide

/-! ## The order of days -/

theorem Day.length_text (d : Day) : d.text.length = 10 := by
  simp [Day.text, length_padded]

theorem Day.text_lt {d e : Day} (h : d.number < e.number) : d.text < e.text := by
  have hd := d.month_lt
  have hd' := d.day_lt
  have he := e.year_lt
  have he' := e.month_lt
  have he'' := e.day_lt
  unfold Day.number at h
  unfold Day.text
  refine TextRange.padded_append_lt (by omega) ?_
  rcases Nat.lt_or_ge d.year e.year with hyear | hyear
  · exact .inl hyear
  obtain hyear : d.year = e.year := by omega
  refine .inr ⟨hyear, List.cons_lt_cons_self.2 (TextRange.padded_append_lt (by omega) ?_)⟩
  rcases Nat.lt_or_ge d.month e.month with hmonth | hmonth
  · exact .inl hmonth
  obtain hmonth : d.month = e.month := by omega
  exact .inr ⟨hmonth, List.cons_lt_cons_self.2 (Decimal.padded_lt_padded (by omega) (by omega))⟩

theorem Day.text_le_iff {d e : Day} : d.text ≤ e.text ↔ d.number ≤ e.number := by
  constructor
  · intro hle
    by_contra hlt
    exact absurd (Day.text_lt (Nat.lt_of_not_le hlt)) (not_lt.2 hle)
  · intro hle
    rcases Nat.lt_or_eq_of_le hle with hlt | heq
    · exact le_of_lt (Day.text_lt hlt)
    · refine le_of_eq ?_
      have hd := d.month_lt
      have hd' := d.day_lt
      have he' := e.month_lt
      have he'' := e.day_lt
      unfold Day.number at heq
      have hday : d.day = e.day := by omega
      have hmonth : d.month = e.month := by omega
      have hyear : d.year = e.year := by omega
      unfold Day.text
      rw [hday, hmonth, hyear]

/-! ## The order of times -/

/-- The fraction is compared before the offset: `+` is below the decimal point. -/
theorem fraction_append_lt {m n : Nat} (h : m < n) (hn : n < 1000000) (s s' : List Char) :
    fraction m ++ ("+00:00".toList ++ s) < fraction n ++ ("+00:00".toList ++ s') := by
  unfold fraction
  rw [if_neg (by omega : n ≠ 0)]
  by_cases hm : m = 0
  · rw [if_pos hm]
    exact List.cons_lt_cons_iff.2 (.inl (by decide))
  · rw [if_neg hm]
    exact List.cons_lt_cons_self.2 (TextRange.padded_append_lt (by omega) (.inl h))

/-- **Texts of times compare as the times do, whatever follows them.** -/
theorem isoformat_append_lt {t u : UtcTime} (h : t.number < u.number) (s s' : List Char) :
    isoformat t ++ s < isoformat u ++ s' := by
  have ht := t.hour_lt
  have ht' := t.minute_lt
  have ht'' := t.second_lt
  have hmicro := t.microsecond_lt
  have hu := u.hour_lt
  have hu' := u.minute_lt
  have hu'' := u.second_lt
  have hmicro' := u.microsecond_lt
  unfold UtcTime.number at h
  simp only [isoformat, List.append_assoc, List.cons_append]
  rw [TextRange.append_lt_append_iff (by simp only [Day.length_text])]
  rcases Nat.lt_or_ge t.date.number u.date.number with hdate | hdate
  · exact .inl (Day.text_lt hdate)
  obtain hdate : t.date.number = u.date.number := by omega
  have htext : t.date.text = u.date.text :=
    le_antisymm (Day.text_le_iff.2 hdate.le) (Day.text_le_iff.2 hdate.ge)
  refine .inr ⟨htext, List.cons_lt_cons_self.2 ?_⟩
  simp only [UtcTime.clock, List.append_assoc, List.cons_append]
  refine TextRange.padded_append_lt (by omega) ?_
  rcases Nat.lt_or_ge t.hour u.hour with hhour | hhour
  · exact .inl hhour
  obtain hhour : t.hour = u.hour := by omega
  refine .inr ⟨hhour, List.cons_lt_cons_self.2 (TextRange.padded_append_lt (by omega) ?_)⟩
  rcases Nat.lt_or_ge t.minute u.minute with hminute | hminute
  · exact .inl hminute
  obtain hminute : t.minute = u.minute := by omega
  refine .inr ⟨hminute, List.cons_lt_cons_self.2 (TextRange.padded_append_lt (by omega) ?_)⟩
  rcases Nat.lt_or_ge t.second u.second with hsecond | hsecond
  · exact .inl hsecond
  obtain hsecond : t.second = u.second := by omega
  exact .inr ⟨hsecond, fraction_append_lt (by omega) (by omega) s s'⟩

/-! ## The characters of a time -/

theorem mem_padded {w n : Nat} {c : Char} (hn : n < 10 ^ w) (h : c ∈ padded w n) :
    '0' ≤ c ∧ c ≤ '9' := by
  induction w generalizing n with
  | zero => cases h
  | succ w ih =>
    have hpos : 0 < 10 ^ w := Nat.pos_of_ne_zero (pow_ne_zero w (by decide))
    have hdigit : ∀ k < 10, '0' ≤ Nat.digitChar k ∧ Nat.digitChar k ≤ '9' := by decide
    rcases List.mem_cons.1 h with rfl | h
    · refine hdigit _ ?_
      rw [Nat.div_lt_iff_lt_mul hpos, Nat.mul_comm, ← pow_succ]
      exact hn
    · exact ih (Nat.mod_lt n hpos) h

/-- The text of a time has digits, separators and an offset. -/
theorem forall_mem_isoformat {P : Char → Prop} (hdigit : ∀ c, '0' ≤ c → c ≤ '9' → P c)
    (hseparator : ∀ c ∈ ['-', 'T', ':', '.', '+'], P c) (t : UtcTime) : ∀ c ∈ isoformat t, P c := by
  have hpadded : ∀ {w n : Nat}, n < 10 ^ w → ∀ c ∈ padded w n, P c :=
    fun hn c hc => hdigit c (mem_padded hn hc).1 (mem_padded hn hc).2
  have hfraction : ∀ c ∈ fraction t.microsecond, P c := by
    unfold fraction
    split
    · simp
    · exact List.forall_mem_cons.2 ⟨hseparator _ (by decide), hpadded t.microsecond_lt⟩
  have hoffset : ∀ c ∈ "+00:00".toList, P c := by
    have hchars : ∀ c ∈ "+00:00".toList, ('0' ≤ c ∧ c ≤ '9') ∨ c ∈ ['-', 'T', ':', '.', '+'] :=
      List.all_iff_forall_prop.1 (by decide)
    exact fun c hc => (hchars c hc).elim (fun h => hdigit c h.1 h.2) (hseparator c)
  simp only [isoformat, Day.text, UtcTime.clock, List.forall_mem_append, List.forall_mem_cons]
  exact ⟨⟨⟨hpadded t.date.year_lt, hseparator _ (by decide), hpadded t.date.month_lt,
    hseparator _ (by decide), hpadded t.date.day_lt⟩, hseparator _ (by decide), hpadded t.hour_lt,
    hseparator _ (by decide), hpadded t.minute_lt, hseparator _ (by decide), hpadded t.second_lt,
    hfraction⟩, hoffset⟩

end DocumentAi.Iso
