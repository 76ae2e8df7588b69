import Mathlib.Data.List.Basic

/-!
# Bytes: UTF-8, and Base64 with the URL-safe alphabet

Bytes are numbers below 256. The decoder is the lenient one: characters outside the alphabet are
skipped, and padding that completes a quad ends the input.

| here | Python |
| --- | --- |
| `utf8`   | `s.encode()` |
| `ofUtf8` | `b.decode()`; `none` where it raises `UnicodeDecodeError` |
| `encode` | `base64.urlsafe_b64encode` |
| `decode` | `base64.urlsafe_b64decode`; `none` where it raises `binascii.Error` |
-/

namespace Base64

def utf8 (cs : List Char) : List Nat := (String.ofList cs).toByteArray.data.toList.map UInt8.toNat

def ofUtf8 (bs : List Nat) : Option (List Char) :=
  (ByteArray.mk (bs.map UInt8.ofNat).toArray).utf8Decode?.map Array.toList

def alphabet : List Char :=
  "ABCDEFGHIJKLMNOPQRSTUVWXYZabcdefghijklmnopqrstuvwxyz0123456789-_".toList

def digit (n : Nat) : Char := alphabet.getD n 'A'

/-- The six bits of a character; the standard alphabet is read as well. -/
def value (c : Char) : Option Nat :=
  if c = '+' then some 62 else if c = '/' then some 63 else alphabet.idxOf? c

def encode : List Nat → List Char
  | a :: b :: c :: rest =>
    digit (a / 4) :: digit (a % 4 * 16 + b / 16) :: digit (b % 16 * 4 + c / 64) :: digit (c % 64) ::
      encode rest
  | [a, b] => [digit (a / 4), digit (a % 4 * 16 + b / 16), digit (b % 16 * 4), '=']
  | [a] => [digit (a / 4), digit (a % 4 * 16), '=', '=']
  | [] => []

/-- How many characters of a quad have been read, and the bits left over from the last one. -/
inductive Quad where
  | start
  | one (left : Nat)
  | two (left : Nat)
  | three (left : Nat)

/-- The byte that a character completes, and the state after it. -/
def Quad.next (v : Nat) : Quad → Option Nat × Quad
  | start      => (none, one v)
  | one left   => (some (left * 4 + v / 16), two (v % 16))
  | two left   => (some (left * 16 + v / 4), three (v % 4))
  | three left => (some (left * 64 + v), start)

def Quad.count : Quad → Nat
  | start   => 0
  | one _   => 1
  | two _   => 2
  | three _ => 3

/-- Read from a state in which `pads` padding characters of the quad have been seen. -/
def decodeFrom : Quad → Nat → List Char → Option (List Nat)
  | .start, _, [] => some []
  | _, _, []      => none
  | q, pads, c :: cs =>
    if c = '=' then
      if 2 ≤ q.count then
        if 4 ≤ q.count + (pads + 1) then some [] else decodeFrom q (pads + 1) cs
      else decodeFrom q pads cs
    else
      match value c with
      | none   => decodeFrom q pads cs
      | some v => (decodeFrom (q.next v).2 0 cs).map ((q.next v).1.toList ++ ·)

def decode (cs : List Char) : Option (List Nat) := decodeFrom .start 0 cs

/-! ## Decoding what was encoded -/

theorem utf8_lt (cs : List Char) : ∀ b ∈ utf8 cs, b < 256 := by
  intro b hb
  obtain ⟨u, -, rfl⟩ := List.mem_map.1 hb
  exact u.toNat_lt

theorem ofUtf8_utf8 (cs : List Char) : ofUtf8 (utf8 cs) = some cs := by
  have hbytes : (utf8 cs).map UInt8.ofNat = (String.ofList cs).toByteArray.data.toList := by
    rw [utf8, List.map_map]
    exact List.map_id'' (fun u => UInt8.ofNat_toNat) _
  rw [ofUtf8, hbytes, Array.toArray_toList, ← String.utf8Encode_toList, String.toList_ofList,
    List.utf8Decode?_utf8Encode]
  rfl

theorem value_digit : ∀ n, n < 64 → value (digit n) = some n := by decide +kernel

theorem digit_ne_pad : ∀ n, n < 64 → digit n ≠ '=' := by decide +kernel

theorem decodeFrom_digit {n : Nat} (h : n < 64) (q : Quad) (pads : Nat) (cs : List Char) :
    decodeFrom q pads (digit n :: cs) =
      (decodeFrom (q.next n).2 0 cs).map ((q.next n).1.toList ++ ·) := by
  rw [decodeFrom, if_neg (digit_ne_pad n h), value_digit n h]

theorem decodeFrom_encode (bs : List Nat) (h : ∀ b ∈ bs, b < 256) :
    decodeFrom .start 0 (encode bs) = some bs := by
  induction bs using encode.induct with
  | case1 a b c rest ih =>
    have ha : a < 256 := h a (by simp)
    have hb : b < 256 := h b (by simp)
    have hc : c < 256 := h c (by simp)
    have hrest : decodeFrom .start 0 (encode rest) = some rest :=
      ih fun x hx => h x (by simp [hx])
    have h₁ : a / 4 * 4 + (a % 4 * 16 + b / 16) / 16 = a := by omega
    have h₂ : (a % 4 * 16 + b / 16) % 16 * 16 + (b % 16 * 4 + c / 64) / 4 = b := by omega
    have h₃ : (b % 16 * 4 + c / 64) % 4 * 64 + c % 64 = c := by omega
    rw [encode, decodeFrom_digit (by omega), decodeFrom_digit (by omega),
      decodeFrom_digit (by omega), decodeFrom_digit (by omega)]
    simp only [Quad.next, hrest, h₁, h₂, h₃, Option.map_some, Option.toList_some,
      Option.toList_none, List.cons_append, List.nil_append]
  | case2 a b =>
    have ha : a < 256 := h a (by simp)
    have hb : b < 256 := h b (by simp)
    have h₁ : a / 4 * 4 + (a % 4 * 16 + b / 16) / 16 = a := by omega
    have h₂ : (a % 4 * 16 + b / 16) % 16 * 16 + b % 16 * 4 / 4 = b := by omega
    have hpad : ∀ left, decodeFrom (.three left) 0 ['='] = some [] := fun _ => rfl
    rw [encode, decodeFrom_digit (by omega), decodeFrom_digit (by omega),
      decodeFrom_digit (by omega)]
    simp only [Quad.next, hpad, h₁, h₂, Option.map_some, Option.toList_some, Option.toList_none,
      List.cons_append, List.nil_append]
  | case3 a =>
    have ha : a < 256 := h a (by simp)
    have h₁ : a / 4 * 4 + a % 4 * 16 / 16 = a := by omega
    have hpad : ∀ left, decodeFrom (.two left) 0 ['=', '='] = some [] := fun _ => rfl
    rw [encode, decodeFrom_digit (by omega), decodeFrom_digit (by omega)]
    simp only [Quad.next, hpad, h₁, Option.map_some, Option.toList_some, Option.toList_none,
      List.cons_append, List.nil_append]
  | case4 => rfl

/-- **Round trip.** -/
theorem decode_encode {bs : List Nat} (h : ∀ b ∈ bs, b < 256) : decode (encode bs) = some bs :=
  decodeFrom_encode bs h

end Base64
