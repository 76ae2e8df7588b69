import Mathlib.Data.List.TakeWhile

/-!
# JSON texts: a value, its text, and the reader of texts

Texts and strings are lists of characters. A number is kept as its literal. The reader takes fuel;
`loads` gives it one unit for each character, which is always enough.

| here | Python |
| --- | --- |
| `dump`    | `json.dumps` with its default separators, ASCII only |
| `loads`   | `json.loads` of a text; `none` where it raises, and for a string with an unpaired surrogate |
| `setField`| `d[k] = v` |
| `truthy`  | `bool(v)` |
-/

inductive Json where
  | null
  | bool (b : Bool)
  | num (literal : List Char)
  | str (s : List Char)
  | arr (items : List Json)
  | obj (fields : List (List Char × Json))

namespace Json

/-! ## Strings -/

def hexDigit (n : Nat) : Char := "0123456789abcdef".toList.getD n '0'

def hexValue (c : Char) : Option Nat := "0123456789abcdef".toList.idxOf? c.toLower

def hex4 (n : Nat) : List Char :=
  [hexDigit (n / 4096 % 16), hexDigit (n / 256 % 16), hexDigit (n / 16 % 16), hexDigit (n % 16)]

def escapeUnit (n : Nat) : List Char := '\\' :: 'u' :: hex4 n

/-- The UTF-16 code units of a character. -/
def units (c : Char) : List Nat :=
  if c.toNat < 65536 then [c.toNat]
  else [55296 + (c.toNat - 65536) / 1024, 56320 + (c.toNat - 65536) % 1024]

def escape (c : Char) : List Char :=
  if c = '"' then ['\\', '"']
  else if c = '\\' then ['\\', '\\']
  else if c = '\n' then ['\\', 'n']
  else if c = '\r' then ['\\', 'r']
  else if c = '\t' then ['\\', 't']
  else if c.toNat = 8 then ['\\', 'b']
  else if c.toNat = 12 then ['\\', 'f']
  else if 32 ≤ c.toNat ∧ c.toNat ≤ 126 then [c]
  else (units c).flatMap escapeUnit

def dumpString (s : List Char) : List Char := '"' :: s.flatMap escape ++ ['"']

/-- The character an escape other than `\u` stands for. -/
def unescape (c : Char) : Option Nat :=
  if c = '"' ∨ c = '\\' ∨ c = '/' then some c.toNat
  else if c = 'n' then some 10
  else if c = 'r' then some 13
  else if c = 't' then some 9
  else if c = 'b' then some 8
  else if c = 'f' then some 12
  else none

/-- Where the reader of a string stands: outside an escape, after its backslash, or with hexadecimal
digits still to come and the value of those before. -/
inductive Escape where
  | plain
  | slash
  | hex (left acc : Nat)

/-- The code units up to the closing quote, and what follows it. -/
def parseUnits : Escape → List Char → Option (List Nat × List Char)
  | _, []             => none
  | .plain, c :: rest =>
    if c = '"' then some ([], rest)
    else if c = '\\' then parseUnits .slash rest
    else if c.toNat < 32 then none
    else (parseUnits .plain rest).map fun p => (c.toNat :: p.1, p.2)
  | .slash, c :: rest =>
    if c = 'u' then parseUnits (.hex 3 0) rest
    else match unescape c with
      | some u => (parseUnits .plain rest).map fun p => (u :: p.1, p.2)
      | none   => none
  | .hex 0 acc, c :: rest =>
    (hexValue c).bind fun v => (parseUnits .plain rest).map fun p => ((acc * 16 + v) :: p.1, p.2)
  | .hex (k + 1) acc, c :: rest => (hexValue c).bind fun v => parseUnits (.hex k (acc * 16 + v)) rest

def isHigh (u : Nat) : Bool := decide (55296 ≤ u ∧ u ≤ 56319)
def isLow (u : Nat) : Bool := decide (56320 ≤ u ∧ u ≤ 57343)

/-- Pair the surrogates; `high` is one that waits for its second half. -/
def joinUnits : (high : Option Nat) → List Nat → Option (List Char)
  | none, []        => some []
  | some _, []      => none
  | none, u :: rest =>
    if isHigh u then joinUnits (some u) rest
    else if isLow u then none
    else (joinUnits none rest).map (Char.ofNat u :: ·)
  | some h, u :: rest =>
    if isLow u then
      (joinUnits none rest).map (Char.ofNat (65536 + (h - 55296) * 1024 + (u - 56320)) :: ·)
    else none

/-- A string after its opening quote. -/
def parseString (cs : List Char) : Option (List Char × List Char) :=
  (parseUnits .plain cs).bind fun p => (joinUnits none p.1).map fun s => (s, p.2)

theorem hexValue_hexDigit : ∀ n, n < 16 → hexValue (hexDigit n) = some n := by decide +kernel

theorem parseUnits_hexDigit {n : Nat} (hn : n < 16) (acc k : Nat) (rest : List Char) :
    parseUnits (.hex (k + 1) acc) (hexDigit n :: rest) = parseUnits (.hex k (acc * 16 + n)) rest := by
  rw [parseUnits, hexValue_hexDigit n hn, Option.bind_some]

theorem parseUnits_lastDigit {n : Nat} (hn : n < 16) (acc : Nat) (rest : List Char) :
    parseUnits (.hex 0 acc) (hexDigit n :: rest) =
      (parseUnits .plain rest).map fun p => ((acc * 16 + n) :: p.1, p.2) := by
  rw [parseUnits, hexValue_hexDigit n hn, Option.bind_some]

theorem parseUnits_escapeUnit {n : Nat} (h : n < 65536) (rest : List Char) :
    parseUnits .plain (escapeUnit n ++ rest) =
      (parseUnits .plain rest).map fun p => (n :: p.1, p.2) := by
  have hsum : (((0 * 16 + n / 4096 % 16) * 16 + n / 256 % 16) * 16 + n / 16 % 16) * 16 + n % 16 = n := by
    omega
  have hslash : parseUnits .plain (escapeUnit n ++ rest) =
      parseUnits (.hex 3 0) (hex4 n ++ rest) := rfl
  rw [hslash, hex4, List.cons_append, parseUnits_hexDigit (by omega), List.cons_append,
    parseUnits_hexDigit (by omega), List.cons_append, parseUnits_hexDigit (by omega),
    List.singleton_append, parseUnits_lastDigit (by omega), hsum]

theorem parseUnits_short {e : Char} {u : Nat} (hne : e ≠ 'u') (he : unescape e = some u)
    (rest : List Char) : parseUnits .plain ('\\' :: e :: rest) =
      (parseUnits .plain rest).map fun p => (u :: p.1, p.2) := by
  have hslash : parseUnits .plain ('\\' :: e :: rest) = parseUnits .slash (e :: rest) := rfl
  rw [hslash, parseUnits, if_neg hne, he]

theorem parseUnits_plain {c : Char} (hq : c ≠ '"') (hb : c ≠ '\\') (hc : 32 ≤ c.toNat)
    (rest : List Char) : parseUnits .plain (c :: rest) =
      (parseUnits .plain rest).map fun p => (c.toNat :: p.1, p.2) := by
  rw [parseUnits, if_neg hq, if_neg hb, if_neg (Nat.not_lt.2 hc)]

theorem toNat_lt (c : Char) : c.toNat < 55296 ∨ 57343 < c.toNat ∧ c.toNat < 1114112 := c.valid

theorem units_lt (c : Char) : ∀ u ∈ units c, u < 65536 := by
  have hc := toNat_lt c
  unfold units
  split
  · simpa
  · simp only [List.mem_cons, List.not_mem_nil, or_false, forall_eq_or_imp, forall_eq]
    omega

theorem parseUnits_escapeUnits {us : List Nat} (h : ∀ u ∈ us, u < 65536) (rest : List Char) :
    parseUnits .plain (us.flatMap escapeUnit ++ rest) =
      (parseUnits .plain rest).map fun p => (us ++ p.1, p.2) := by
  induction us with
  | nil => simp
  | cons u us ih =>
    obtain ⟨hu, hus⟩ := List.forall_mem_cons.1 h
    rw [List.flatMap_cons, List.append_assoc, parseUnits_escapeUnit hu, ih hus, Option.map_map]
    rfl

/-- A character that is not escaped with `\u`. -/
theorem units_of_lt {c : Char} {n : Nat} (h : c.toNat = n) (hn : n < 65536) : units c = [n] := by
  rw [units, h, if_pos hn]

theorem parseUnits_escape (c : Char) (rest : List Char) :
    parseUnits .plain (escape c ++ rest) =
      (parseUnits .plain rest).map fun p => (units c ++ p.1, p.2) := by
  unfold escape
  split
  next h =>
    rw [h]
    exact parseUnits_short (by decide) rfl rest
  split
  next h =>
    rw [h]
    exact parseUnits_short (by decide) rfl rest
  split
  next h =>
    rw [h]
    exact parseUnits_short (by decide) rfl rest
  split
  next h =>
    rw [h]
    exact parseUnits_short (by decide) rfl rest
  split
  next h =>
    rw [h]
    exact parseUnits_short (by decide) rfl rest
  split
  next h =>
    rw [units_of_lt h (by decide)]
    exact parseUnits_short (by decide) rfl rest
  split
  next h =>
    rw [units_of_lt h (by decide)]
    exact parseUnits_short (by decide) rfl rest
  split
  next hq hb _ _ _ _ _ h =>
    rw [units_of_lt rfl (by omega)]
    exact parseUnits_plain hq hb h.1 rest
  next => exact parseUnits_escapeUnits (units_lt c) rest

theorem parseUnits_dumped (s rest : List Char) :
    parseUnits .plain (s.flatMap escape ++ '"' :: rest) = some (s.flatMap units, rest) := by
  induction s with
  | nil => rfl
  | cons c s ih =>
    rw [List.flatMap_cons, List.append_assoc, parseUnits_escape, ih]
    rfl

theorem joinUnits_units (c : Char) (us : List Nat) :
    joinUnits none (units c ++ us) = (joinUnits none us).map (c :: ·) := by
  have hc := toNat_lt c
  unfold units
  split
  · have hhigh : isHigh c.toNat = false := decide_eq_false (by omega)
    have hlow : isLow c.toNat = false := decide_eq_false (by omega)
    rw [List.singleton_append, joinUnits]
    simp only [hhigh, hlow, Bool.false_eq_true, if_false, Char.ofNat_toNat]
  · have hhigh : isHigh (55296 + (c.toNat - 65536) / 1024) = true := decide_eq_true (by omega)
    have hlow : isLow (56320 + (c.toNat - 65536) % 1024) = true := decide_eq_true (by omega)
    have hsum : 65536 + (55296 + (c.toNat - 65536) / 1024 - 55296) * 1024 +
        (56320 + (c.toNat - 65536) % 1024 - 56320) = c.toNat := by omega
    rw [List.cons_append, List.singleton_append, joinUnits, if_pos hhigh, joinUnits, if_pos hlow,
      hsum, Char.ofNat_toNat]

theorem joinUnits_flatMap (s : List Char) : joinUnits none (s.flatMap units) = some s := by
  induction s with
  | nil => rfl
  | cons c s ih =>
    rw [List.flatMap_cons, joinUnits_units, ih]
    rfl

theorem parseString_dumped (s rest : List Char) :
    parseString (s.flatMap escape ++ '"' :: rest) = some (s, rest) := by
  rw [parseString, parseUnits_dumped, Option.bind_some, joinUnits_flatMap, Option.map_some]

/-! ## Texts -/

def isSpace (c : Char) : Bool := decide (c = ' ' ∨ c = '\t' ∨ c = '\n' ∨ c = '\r')

def skipSpaces (cs : List Char) : List Char := cs.dropWhile isSpace

/-- The characters of numbers and keywords. -/
def atomChar (c : Char) : Bool := c.isAlphanum || ['-', '+', '.'].contains c

/-- What has been read of a number. -/
inductive Numeral where
  | start
  | minus
  | zero
  | int
  | point
  | frac
  | exp
  | sign
  | power

def Numeral.next (c : Char) : Numeral → Option Numeral
  | start | minus => if c = '0' then some zero else if c.isDigit then some int else none
  | zero  => if c = '.' then some point else if c = 'e' ∨ c = 'E' then some exp else none
  | int   =>
    if c.isDigit then some int else if c = '.' then some point
    else if c = 'e' ∨ c = 'E' then some exp else none
  | point => if c.isDigit then some frac else none
  | frac  => if c.isDigit then some frac else if c = 'e' ∨ c = 'E' then some exp else none
  | exp   => if c = '+' ∨ c = '-' then some sign else if c.isDigit then some power else none
  | sign | power => if c.isDigit then some power else none

def Numeral.complete : Numeral → Bool
  | zero | int | frac | power => true
  | _ => false

def isNumber (cs : List Char) : Bool :=
  match (if cs.head? = some '-' then cs.tail.foldlM (fun q c => q.next c) Numeral.minus
    else cs.foldlM (fun q c => q.next c) Numeral.start) with
  | some q => q.complete
  | none   => false

def keywords : List (List Char × Json) :=
  [("null".toList, null), ("true".toList, bool true), ("false".toList, bool false),
    ("NaN".toList, num "NaN".toList), ("Infinity".toList, num "Infinity".toList),
    ("-Infinity".toList, num "-Infinity".toList)]

def atom (word : List Char) : Option Json :=
  match keywords.find? (·.1 == word) with
  | some kw => some kw.2
  | none    => if isNumber word then some (num word) else none

/-- `d[k] = v`. -/
def setField (d : List (List Char × Json)) (k : List Char) (v : Json) : List (List Char × Json) :=
  if d.any (·.1 == k) then d.map fun e => if e.1 == k then (k, v) else e else d ++ [(k, v)]

/-- The separator before an item that is not the first. -/
def afterComma (first : Bool) (cs : List Char) : Option (List Char) :=
  if first then some cs else if cs.head? = some ',' then some (skipSpaces cs.tail) else none

/-- A name and its colon. -/
def parseName (cs : List Char) : Option (List Char × List Char) :=
  if cs.head? = some '"' then
    (parseString cs.tail).bind fun p =>
      if (skipSpaces p.2).head? = some ':' then some (p.1, skipSpaces (skipSpaces p.2).tail) else none
  else none

def truthy : Json → Bool
  | null       => false
  | bool b     => b
  | num l      => (l.takeWhile fun c => c ≠ 'e' ∧ c ≠ 'E').any fun c => c ≠ '0' ∧ c ≠ '.' ∧ c ≠ '-'
  | str s      => !s.isEmpty
  | arr items  => !items.isEmpty
  | obj fields => !fields.isEmpty

mutual

def dump : Json → List Char
  | null       => "null".toList
  | bool true  => "true".toList
  | bool false => "false".toList
  | num l      => l
  | str s      => dumpString s
  | arr items  => '[' :: dumpItems [] items
  | obj fields => '{' :: dumpFields [] fields

/-- The items that are left, each after its separator, and the closing bracket. -/
def dumpItems : (sep : List Char) → List Json → List Char
  | _, []          => [']']
  | sep, j :: rest => sep ++ dump j ++ dumpItems [',', ' '] rest

def dumpFields : (sep : List Char) → List (List Char × Json) → List Char
  | _, []               => ['}']
  | sep, (k, j) :: rest =>
    sep ++ (dumpString k ++ ([':', ' '] ++ dump j)) ++ dumpFields [',', ' '] rest

end

mutual

def parseValue : (fuel : Nat) → List Char → Option (Json × List Char)
  | 0, _      => none
  | n + 1, cs =>
    if cs.head? = some '"' then (parseString cs.tail).map fun p => (str p.1, p.2)
    else if cs.head? = some '[' then
      (parseItems n true (skipSpaces cs.tail)).map fun p => (arr p.1, p.2)
    else if cs.head? = some '{' then
      (parseFields n true (skipSpaces cs.tail)).map fun p =>
        (obj (p.1.foldl (fun d e => setField d e.1 e.2) []), p.2)
    else (atom (cs.takeWhile atomChar)).map fun j => (j, cs.dropWhile atomChar)

def parseItems : (fuel : Nat) → (first : Bool) → List Char → Option (List Json × List Char)
  | 0, _, _          => none
  | n + 1, first, cs =>
    if cs.head? = some ']' then some ([], cs.tail)
    else
      (afterComma first cs).bind fun r =>
        (parseValue n r).bind fun p =>
          (parseItems n false (skipSpaces p.2)).map fun q => (p.1 :: q.1, q.2)

def parseFields : (fuel : Nat) → (first : Bool) → List Char →
    Option (List (List Char × Json) × List Char)
  | 0, _, _          => none
  | n + 1, first, cs =>
    if cs.head? = some '}' then some ([], cs.tail)
    else
      (afterComma first cs).bind fun r =>
        (parseName r).bind fun name =>
          (parseValue n name.2).bind fun p =>
            (parseFields n false (skipSpaces p.2)).map fun q => ((name.1, p.1) :: q.1, q.2)

end

def loads (cs : List Char) : Option Json :=
  (parseValue (cs.length + 1) (skipSpaces cs)).bind fun p =>
    if skipSpaces p.2 = [] then some p.1 else none

/-! ## Reading what was written -/

mutual

/-- The values that have a text: numbers are literals and no object has a name twice. -/
def Valid : Json → Prop
  | num l      => (∀ c ∈ l, atomChar c = true) ∧ atom l = some (num l)
  | arr items  => ValidItems items
  | obj fields => (fields.map Prod.fst).Nodup ∧ ValidFields fields
  | _          => True

def ValidItems : List Json → Prop
  | []        => True
  | j :: rest => Valid j ∧ ValidItems rest

def ValidFields : List (List Char × Json) → Prop
  | []             => True
  | (_, j) :: rest => Valid j ∧ ValidFields rest

end

/-- What may follow a number or a keyword. -/
def Ends (cs : List Char) : Prop := ∀ c ∈ cs.head?, atomChar c = false

/-- The separator that `dumpItems` writes before an item. -/
def separator (first : Bool) : List Char := if first then [] else [',', ' ']

theorem skipSpaces_cons {c : Char} (h : isSpace c = false) (cs : List Char) :
    skipSpaces (c :: cs) = c :: cs :=
  List.dropWhile_cons_of_neg (by simp [h])

theorem takeWhile_atom {l r : List Char} (hl : ∀ c ∈ l, atomChar c = true) (hr : Ends r) :
    (l ++ r).takeWhile atomChar = l := by
  rw [List.takeWhile_append_of_pos hl]
  cases r with
  | nil => rw [List.takeWhile_nil, List.append_nil]
  | cons c t =>
    have hc : atomChar c = false := hr c rfl
    rw [List.takeWhile_cons_of_neg (by simp [hc]), List.append_nil]

theorem dropWhile_atom {l r : List Char} (hl : ∀ c ∈ l, atomChar c = true) (hr : Ends r) :
    (l ++ r).dropWhile atomChar = r := by
  rw [List.dropWhile_append_of_pos hl]
  cases r with
  | nil => rfl
  | cons c t =>
    have hc : atomChar c = false := hr c rfl
    exact List.dropWhile_cons_of_neg (by simp [hc])

/-- A word made of atom characters is read as an atom. -/
theorem parseValue_atom {l r : List Char} {j : Json} (hl : ∀ c ∈ l, atomChar c = true)
    (ha : atom l = some j) (hr : Ends r) (n : Nat) :
    parseValue (n + 1) (l ++ r) = some (j, r) := by
  cases l with
  | nil => cases ha
  | cons c t =>
    have hc : atomChar c = true := hl c List.mem_cons_self
    have hne : ∀ d : Char, atomChar d = false → ¬ (c :: t ++ r).head? = some d := by
      intro d hd heq
      have hcd : c = d := Option.some.inj heq
      rw [← hcd, hc] at hd
      cases hd
    rw [parseValue, if_neg (hne '"' rfl), if_neg (hne '[' rfl), if_neg (hne '{' rfl),
      takeWhile_atom hl hr, dropWhile_atom hl hr, ha]
    rfl

theorem isSpace_of_atom {c : Char} (h : atomChar c = true) : isSpace c = false := by
  refine decide_eq_false fun hspace => ?_
  rcases hspace with rfl | rfl | rfl | rfl <;> cases h

/-- The first character of a text. -/
theorem dump_head {j : Json} (h : Valid j) :
    ∃ c t, dump j = c :: t ∧ isSpace c = false ∧ c ≠ ']' := by
  cases j with
  | null => exact ⟨_, _, rfl, rfl, by decide⟩
  | bool b => cases b <;> exact ⟨_, _, rfl, rfl, by decide⟩
  | num l =>
    obtain ⟨hl, ha⟩ := h
    cases l with
    | nil => cases ha
    | cons c t =>
      have hc : atomChar c = true := hl c List.mem_cons_self
      exact ⟨c, t, rfl, isSpace_of_atom hc, fun heq => by rw [heq] at hc; cases hc⟩
  | str s => exact ⟨_, _, rfl, rfl, by decide⟩
  | arr items => exact ⟨_, _, rfl, rfl, by decide⟩
  | obj fields => exact ⟨_, _, rfl, rfl, by decide⟩

theorem dumpItems_ends (items : List Json) (r : List Char) :
    Ends (dumpItems [',', ' '] items ++ r) := by
  cases items <;> intro c hc <;> cases hc <;> rfl

theorem dumpFields_ends (fields : List (List Char × Json)) (r : List Char) :
    Ends (dumpFields [',', ' '] fields ++ r) := by
  cases fields <;> intro c hc <;> cases hc <;> rfl

theorem parseName_dumped (k : List Char) {r : List Char} (hr : skipSpaces r = r) :
    parseName (dumpString k ++ ([':', ' '] ++ r)) = some (k, r) := by
  have hk : (dumpString k ++ ([':', ' '] ++ r)).tail =
      k.flatMap escape ++ '"' :: ':' :: ' ' :: r := by
    simp [dumpString]
  have hcolon : skipSpaces (':' :: ' ' :: r) = ':' :: ' ' :: r := rfl
  have hspace : skipSpaces (' ' :: r) = r := hr
  have hname : parseString (k.flatMap escape ++ '"' :: ':' :: ' ' :: r) = some (k, ':' :: ' ' :: r) :=
    parseString_dumped ..
  have hquote : (dumpString k ++ ([':', ' '] ++ r)).head? = some '"' := rfl
  have hhead : (':' :: ' ' :: r).head? = some ':' := rfl
  rw [parseName, if_pos hquote, hk, hname, Option.bind_some, hcolon, if_pos hhead, List.tail_cons,
    hspace]

theorem skipSpaces_dump {j : Json} (h : Valid j) (r : List Char) :
    skipSpaces (dump j ++ r) = dump j ++ r := by
  obtain ⟨c, t, hd, hc, -⟩ := dump_head h
  rw [hd, List.cons_append, skipSpaces_cons hc]

theorem skipSpaces_dumpItems {items : List Json} (h : ValidItems items) (first : Bool)
    (r : List Char) : skipSpaces (dumpItems (separator first) items ++ r) =
      dumpItems (separator first) items ++ r := by
  cases items with
  | nil => rfl
  | cons j rest =>
    cases first with
    | false => rfl
    | true =>
      rw [dumpItems, separator, if_pos rfl, List.nil_append, List.append_assoc,
        skipSpaces_dump h.1]

theorem skipSpaces_dumpFields (fields : List (List Char × Json)) (first : Bool) (r : List Char) :
    skipSpaces (dumpFields (separator first) fields ++ r) =
      dumpFields (separator first) fields ++ r := by
  cases fields with
  | nil => rfl
  | cons f rest => cases first <;> rfl

/-- Before an item stands its separator. -/
theorem afterComma_separator (first : Bool) {cs : List Char} (h : skipSpaces cs = cs) :
    afterComma first (separator first ++ cs) = some cs := by
  cases first with
  | true => rfl
  | false =>
    have hspace : skipSpaces (' ' :: cs) = cs := h
    rw [afterComma, if_neg Bool.false_ne_true]
    exact congrArg some hspace

theorem separator_head (first : Bool) {c d : Char} (t : List Char) (hc : c ≠ d) (hd : d ≠ ',') :
    ¬ (separator first ++ c :: t).head? = some d := by
  intro heq
  cases first with
  | true => exact hc (Option.some.inj heq)
  | false => exact hd (Option.some.inj heq).symm

/-- Names that are added once stay in order. -/
theorem foldl_setField (d fields : List (List Char × Json))
    (h : ((d ++ fields).map Prod.fst).Nodup) :
    fields.foldl (fun d e => setField d e.1 e.2) d = d ++ fields := by
  induction fields generalizing d with
  | nil => exact (List.append_nil d).symm
  | cons e rest ih =>
    have hnew : setField d e.1 e.2 = d ++ [e] := by
      rw [setField, if_neg]
      intro hany
      obtain ⟨e', he', heq⟩ := List.any_eq_true.1 hany
      rw [List.map_append, List.nodup_append] at h
      exact h.2.2 e'.1 (List.mem_map_of_mem he') e.1 List.mem_cons_self (eq_of_beq heq)
    rw [List.foldl_cons, hnew, ih _ (by simpa using h), List.append_assoc, List.singleton_append]

theorem dump_pos {j : Json} (h : Valid j) : 0 < (dump j).length := by
  obtain ⟨c, t, hd, -, -⟩ := dump_head h
  rw [hd]
  exact Nat.succ_pos _

theorem dumpItems_pos (sep : List Char) (items : List Json) : 0 < (dumpItems sep items).length := by
  cases items with
  | nil => exact Nat.one_pos
  | cons j rest =>
    rw [dumpItems, List.length_append]
    have := dumpItems_pos [',', ' '] rest
    omega

theorem dumpFields_pos (sep : List Char) (fields : List (List Char × Json)) :
    0 < (dumpFields sep fields).length := by
  cases fields with
  | nil => exact Nat.one_pos
  | cons f rest =>
    rw [dumpFields, List.length_append]
    have := dumpFields_pos [',', ' '] rest
    omega

mutual

/-- **Round trip**: by recursion on the value, with a unit of fuel for each character. -/
theorem parseValue_dump (j : Json) (h : Valid j) {n : Nat} (hn : (dump j).length ≤ n)
    {r : List Char} (hr : Ends r) : parseValue n (dump j ++ r) = some (j, r) := by
  obtain ⟨m, rfl⟩ : ∃ m, n = m + 1 := Nat.exists_eq_add_one.2 (lt_of_lt_of_le (dump_pos h) hn)
  match j with
  | null => exact parseValue_atom (List.all_eq_true.1 rfl) rfl hr m
  | bool true => exact parseValue_atom (List.all_eq_true.1 rfl) rfl hr m
  | bool false => exact parseValue_atom (List.all_eq_true.1 rfl) rfl hr m
  | num l => exact parseValue_atom h.1 h.2 hr m
  | str s =>
    have hs : (dump (str s) ++ r).tail = s.flatMap escape ++ '"' :: r := by simp [dump, dumpString]
    have hhead : (dump (str s) ++ r).head? = some '"' := rfl
    rw [parseValue, if_pos hhead, hs, parseString_dumped]
    rfl
  | arr items =>
    have hm : (dumpItems [] items).length ≤ m := Nat.le_of_succ_le_succ hn
    have hitems : parseItems m true (dumpItems [] items ++ r) = some (items, r) :=
      parseItems_dump items h true hm
    have hskip : skipSpaces (dump (arr items) ++ r).tail = dumpItems [] items ++ r :=
      skipSpaces_dumpItems h true r
    have hhead : (dump (arr items) ++ r).head? = some '[' := rfl
    rw [parseValue, if_neg (by rw [hhead]; decide), if_pos hhead, hskip, hitems]
    rfl
  | obj fields =>
    have hm : (dumpFields [] fields).length ≤ m := Nat.le_of_succ_le_succ hn
    have hfields : parseFields m true (dumpFields [] fields ++ r) = some (fields, r) :=
      parseFields_dump fields h.2 true hm
    have hskip : skipSpaces (dump (obj fields) ++ r).tail = dumpFields [] fields ++ r :=
      skipSpaces_dumpFields fields true r
    have hhead : (dump (obj fields) ++ r).head? = some '{' := rfl
    rw [parseValue, if_neg (by rw [hhead]; decide), if_neg (by rw [hhead]; decide), if_pos hhead,
      hskip, hfields, Option.map_some, foldl_setField [] fields h.1, List.nil_append]

theorem parseItems_dump (items : List Json) (h : ValidItems items) (first : Bool) {n : Nat}
    (hn : (dumpItems (separator first) items).length ≤ n) {r : List Char} :
    parseItems n first (dumpItems (separator first) items ++ r) = some (items, r) := by
  obtain ⟨m, rfl⟩ : ∃ m, n = m + 1 :=
    Nat.exists_eq_add_one.2 (lt_of_lt_of_le (dumpItems_pos _ items) hn)
  match items with
  | [] => rfl
  | j :: rest =>
    obtain ⟨hj, hrest⟩ := h
    rw [dumpItems, List.length_append, List.length_append] at hn
    have hvalue : (dump j).length ≤ m := by
      have := dumpItems_pos [',', ' '] rest
      omega
    have hmore : (dumpItems [',', ' '] rest).length ≤ m := by
      have := dump_pos hj
      omega
    have hread : parseValue m (dump j ++ (dumpItems [',', ' '] rest ++ r)) =
        some (j, dumpItems [',', ' '] rest ++ r) :=
      parseValue_dump j hj hvalue (dumpItems_ends rest r)
    have hreadRest : parseItems m false (dumpItems [',', ' '] rest ++ r) = some (rest, r) :=
      parseItems_dump rest hrest false hmore
    have hskip : skipSpaces (dumpItems [',', ' '] rest ++ r) = dumpItems [',', ' '] rest ++ r :=
      skipSpaces_dumpItems hrest false r
    obtain ⟨c, t, hd, -, hc⟩ := dump_head hj
    have hhead : ¬ (separator first ++ (dump j ++ (dumpItems [',', ' '] rest ++ r))).head? =
        some ']' := by
      rw [hd]
      exact separator_head first _ hc (by decide)
    rw [dumpItems, List.append_assoc, List.append_assoc, parseItems, if_neg hhead,
      afterComma_separator first (skipSpaces_dump hj _), Option.bind_some, hread, Option.bind_some,
      hskip, hreadRest]
    rfl

theorem parseFields_dump (fields : List (List Char × Json)) (h : ValidFields fields) (first : Bool)
    {n : Nat} (hn : (dumpFields (separator first) fields).length ≤ n) {r : List Char} :
    parseFields n first (dumpFields (separator first) fields ++ r) = some (fields, r) := by
  obtain ⟨m, rfl⟩ : ∃ m, n = m + 1 :=
    Nat.exists_eq_add_one.2 (lt_of_lt_of_le (dumpFields_pos _ fields) hn)
  match fields with
  | [] => rfl
  | (k, j) :: rest =>
    obtain ⟨hj, hrest⟩ := h
    rw [dumpFields] at hn
    simp only [List.length_append] at hn
    have hvalue : (dump j).length ≤ m := by
      have := dumpFields_pos [',', ' '] rest
      omega
    have hmore : (dumpFields [',', ' '] rest).length ≤ m := by
      have := dump_pos hj
      omega
    have hread : parseValue m (dump j ++ (dumpFields [',', ' '] rest ++ r)) =
        some (j, dumpFields [',', ' '] rest ++ r) :=
      parseValue_dump j hj hvalue (dumpFields_ends rest r)
    have hreadRest : parseFields m false (dumpFields [',', ' '] rest ++ r) = some (rest, r) :=
      parseFields_dump rest hrest false hmore
    have hskip : skipSpaces (dumpFields [',', ' '] rest ++ r) = dumpFields [',', ' '] rest ++ r :=
      skipSpaces_dumpFields rest false r
    have hname : parseName (dumpString k ++ ([':', ' '] ++
        (dump j ++ (dumpFields [',', ' '] rest ++ r)))) =
          some (k, dump j ++ (dumpFields [',', ' '] rest ++ r)) :=
      parseName_dumped k (skipSpaces_dump hj _)
    have hhead : ¬ (separator first ++ (dumpString k ++ ([':', ' '] ++
        (dump j ++ (dumpFields [',', ' '] rest ++ r))))).head? = some '}' :=
      separator_head first _ (by decide) (by decide)
    have hquote : skipSpaces (dumpString k ++ ([':', ' '] ++
        (dump j ++ (dumpFields [',', ' '] rest ++ r)))) = dumpString k ++ ([':', ' '] ++
        (dump j ++ (dumpFields [',', ' '] rest ++ r))) := rfl
    rw [dumpFields]
    simp only [List.append_assoc]
    rw [parseFields, if_neg hhead, afterComma_separator first hquote, Option.bind_some, hname,
      Option.bind_some, hread, Option.bind_some, hskip, hreadRest]
    rfl

end

theorem loads_dump {j : Json} (h : Valid j) : loads (dump j) = some j := by
  have hread : parseValue ((dump j).length + 1) (dump j ++ []) = some (j, []) :=
    parseValue_dump j h (Nat.le_succ _) fun c hc => by cases hc
  rw [List.append_nil] at hread
  have hskip : skipSpaces (dump j ++ []) = dump j ++ [] := skipSpaces_dump h []
  rw [List.append_nil] at hskip
  rw [loads, hskip, hread]
  rfl

end Json
