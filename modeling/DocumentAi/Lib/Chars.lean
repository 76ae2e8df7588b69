import Mathlib.Data.List.TakeWhile

/-!
# Splitting and joining character lists

| here | Python |
| --- | --- |
| `splitOn sep s`   | `s.split(sep)` for a one-character `sep` |
| `lastField sep s` | `s.split(sep)[-1]` |
| `partition sep s` | `s.partition(sep)` without the separator |
| `splitPair a b s` | `s.split(ab)` for a separator of two characters |
| `strip c s`       | `s.strip(c)` for a one-character `c` |
| `trim s`, `words s` | `s.strip()`, `s.split()` |
| `chars s`         | `list(s)` |
-/

namespace Chars

def splitOn (sep : Char) : List Char → List (List Char)
  | [] => [[]]
  | c :: cs =>
    if c = sep then [] :: splitOn sep cs
    else match splitOn sep cs with
      | []      => [[c]]
      | f :: fs => (c :: f) :: fs

/-- What follows the last separator, or everything when there is none. -/
def lastField (sep : Char) (s : List Char) : List Char :=
  (s.reverse.takeWhile (· ≠ sep)).reverse

/-- What stands before and after the first separator. -/
def partition (sep : Char) (s : List Char) : List Char × List Char :=
  (s.takeWhile (· ≠ sep), (s.dropWhile (· ≠ sep)).drop 1)

def stripLeft (c : Char) (s : List Char) : List Char := s.dropWhile (· = c)

def stripRight (c : Char) (s : List Char) : List Char := (stripLeft c s.reverse).reverse

def strip (c : Char) (s : List Char) : List Char := stripRight c (stripLeft c s)

/-- Put a character before the first field. -/
def push (c : Char) : List (List Char) → List (List Char)
  | []      => [[c]]
  | f :: fs => (c :: f) :: fs

def splitPair (a b : Char) : List Char → List (List Char)
  | []             => [[]]
  | [c]            => [[c]]
  | c :: d :: rest =>
    if c = a ∧ d = b then [] :: splitPair a b rest else push c (splitPair a b (d :: rest))

/-- `str.isspace` of one character. -/
def isSpace (c : Char) : Bool :=
  [9, 10, 11, 12, 13, 28, 29, 30, 31, 32, 133, 160, 5760, 8232, 8233, 8239, 8287, 12288].contains
    c.toNat || decide (8192 ≤ c.toNat ∧ c.toNat ≤ 8202)

def trimBy (p : Char → Bool) (s : List Char) : List Char :=
  ((s.dropWhile p).reverse.dropWhile p).reverse

def trim (s : List Char) : List Char := trimBy isSpace s

def words (s : List Char) : List (List Char) := (s.splitOnP isSpace).filter (· ≠ [])

theorem lastField_of_not_mem {sep : Char} {s : List Char} (h : sep ∉ s) : lastField sep s = s := by
  unfold lastField
  rw [List.takeWhile_eq_self_iff.2]
  · exact s.reverse_reverse
  · intro c hc
    simp only [decide_eq_true_eq]
    rintro rfl
    exact h (List.mem_reverse.1 hc)

theorem lastField_append_cons {sep : Char} {s t : List Char} (h : sep ∉ t) :
    lastField sep (s ++ sep :: t) = t := by
  unfold lastField
  rw [List.reverse_append, List.reverse_cons, List.append_assoc, List.takeWhile_append_of_pos]
  · simp
  · intro c hc
    simp only [decide_eq_true_eq]
    rintro rfl
    exact h (List.mem_reverse.1 hc)

theorem splitOn_of_not_mem {sep : Char} : ∀ {s : List Char}, sep ∉ s → splitOn sep s = [s]
  | [], _ => rfl
  | c :: cs, h => by
    rw [List.mem_cons, not_or] at h
    rw [splitOn, if_neg (Ne.symm h.1), splitOn_of_not_mem h.2]

/-! ## Splitting loses nothing -/

theorem splitOn_ne_nil (sep : Char) (s : List Char) : splitOn sep s ≠ [] := by
  cases s with
  | nil => exact List.cons_ne_nil _ _
  | cons c cs =>
    rw [splitOn]
    split
    · exact List.cons_ne_nil _ _
    · split
      · exact List.cons_ne_nil _ _
      · exact List.cons_ne_nil _ _

theorem intercalate_splitOn (sep : Char) (s : List Char) : [sep].intercalate (splitOn sep s) = s := by
  induction s with
  | nil => rfl
  | cons c cs ih =>
    obtain ⟨f, fs, hfs⟩ := List.exists_cons_of_ne_nil (splitOn_ne_nil sep cs)
    rw [hfs] at ih
    rw [splitOn, hfs]
    split
    next hc => rw [List.intercalate_cons_cons, ih, hc, List.nil_append, List.singleton_append]
    next =>
      cases fs with
      | nil =>
        rw [List.intercalate_singleton] at ih ⊢
        rw [ih]
      | cons g gs =>
        rw [List.intercalate_cons_cons] at ih ⊢
        rw [List.cons_append, List.cons_append, ih]

theorem splitOn_injective (sep : Char) {s t : List Char} (h : splitOn sep s = splitOn sep t) :
    s = t := by
  rw [← intercalate_splitOn sep s, h, intercalate_splitOn]

/-! ## The characters of a closed string -/

/-- `s.toList`, byte by byte when every byte is a character of its own: what a closed check
evaluates need not be decoded. -/
def chars (s : String) : List Char :=
  let bytes := s.toByteArray.data.toList
  if bytes.all (·.toNat < 128) then bytes.map fun b => Char.ofNat b.toNat else s.toList

theorem bytes_eq (s : String) :
    s.toByteArray.data.toList = s.toList.flatMap String.utf8EncodeChar := by
  rw [← String.utf8Encode_toList, List.utf8Encode, List.data_toByteArray]

theorem map_utf8EncodeChar {c : Char}
    (h : (String.utf8EncodeChar c).all (·.toNat < 128) = true) :
    (String.utf8EncodeChar c).map (fun b => Char.ofNat b.toNat) = [c] := by
  unfold String.utf8EncodeChar at h ⊢
  simp only at h ⊢
  split
  next hv =>
    have hbyte : (UInt8.ofNat c.val.toNat).toNat = c.toNat := by
      rw [UInt8.toNat_ofNat']
      exact Nat.mod_eq_of_lt (by omega)
    rw [List.map_singleton, hbyte, Char.ofNat_toNat]
  next hv =>
    -- the first byte of a longer encoding is at least 192
    rw [if_neg hv] at h
    split at h
    all_goals try split at h
    all_goals
      rw [List.all_cons, Bool.and_eq_true, decide_eq_true_eq, UInt8.toNat_ofNat'] at h
      omega

theorem chars_eq (s : String) : chars s = s.toList := by
  unfold chars
  simp only [bytes_eq]
  split
  next h =>
    generalize s.toList = cs at h ⊢
    induction cs with
    | nil => rfl
    | cons c cs ih =>
      rw [List.flatMap_cons, List.all_append, Bool.and_eq_true] at h
      rw [List.flatMap_cons, List.map_append, map_utf8EncodeChar h.1, ih h.2, List.singleton_append]
  next => rfl

end Chars
