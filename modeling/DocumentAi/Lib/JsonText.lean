import Mathlib.Data.List.Infix
import DocumentAi.Lib.Json

/-!
# The members of a JSON text

| here | meaning |
| --- | --- |
| `readText` | `loads` with every member kept as it stands in the text |
| `normal`   | a value with a later member in the place of an earlier one of its name |
| `size`     | the characters of all names and strings of a value |

Main results: `loads_eq_readText`; `read_suffix`, what a reader leaves; `read_fuel`, a character needs
one unit of fuel.
-/

namespace Json

/-! ## Members as they stand -/

mutual

def readValue : (fuel : Nat) → List Char → Option (Json × List Char)
  | 0, _      => none
  | n + 1, cs =>
    if cs.head? = some '"' then (parseString cs.tail).map fun p => (str p.1, p.2)
    else if cs.head? = some '[' then
      (readItems n true (skipSpaces cs.tail)).map fun p => (arr p.1, p.2)
    else if cs.head? = some '{' then
      (readFields n true (skipSpaces cs.tail)).map fun p => (obj p.1, p.2)
    else (atom (cs.takeWhile atomChar)).map fun j => (j, cs.dropWhile atomChar)

def readItems : (fuel : Nat) → (first : Bool) → List Char → Option (List Json × List Char)
  | 0, _, _          => none
  | n + 1, first, cs =>
    if cs.head? = some ']' then some ([], cs.tail)
    else
      (afterComma first cs).bind fun r =>
        (readValue n r).bind fun p =>
          (readItems n false (skipSpaces p.2)).map fun q => (p.1 :: q.1, q.2)

def readFields : (fuel : Nat) → (first : Bool) → List Char →
    Option (List (List Char × Json) × List Char)
  | 0, _, _          => none
  | n + 1, first, cs =>
    if cs.head? = some '}' then some ([], cs.tail)
    else
      (afterComma first cs).bind fun r =>
        (parseName r).bind fun name =>
          (readValue n name.2).bind fun p =>
            (readFields n false (skipSpaces p.2)).map fun q => ((name.1, p.1) :: q.1, q.2)

end

def readText (cs : List Char) : Option Json :=
  (readValue (cs.length + 1) (skipSpaces cs)).bind fun p =>
    if skipSpaces p.2 = [] then some p.1 else none

/-- `dict(fields)`. -/
def dict (fields : List (List Char × Json)) : List (List Char × Json) :=
  fields.foldl (fun d e => setField d e.1 e.2) []

mutual

def normal : Json → Json
  | null       => null
  | bool b     => bool b
  | num l      => num l
  | str s      => str s
  | arr items  => arr (normalItems items)
  | obj fields => obj (dict (normalFields fields))

def normalItems : List Json → List Json
  | []        => []
  | j :: rest => normal j :: normalItems rest

def normalFields : List (List Char × Json) → List (List Char × Json)
  | []             => []
  | (k, j) :: rest => (k, normal j) :: normalFields rest

end

/-- A number or a keyword has no members and no characters. -/
theorem atom_cases {word : List Char} {j : Json} (h : atom word = some j) :
    j = null ∨ (∃ b, j = bool b) ∨ ∃ l, j = num l := by
  unfold atom at h
  split at h
  next kw hfind =>
    cases h
    have hmem := List.mem_of_find?_eq_some hfind
    simp only [keywords, List.mem_cons, List.not_mem_nil, or_false] at hmem
    rcases hmem with rfl | rfl | rfl | rfl | rfl | rfl
    · exact .inl rfl
    · exact .inr (.inl ⟨true, rfl⟩)
    · exact .inr (.inl ⟨false, rfl⟩)
    · exact .inr (.inr ⟨_, rfl⟩)
    · exact .inr (.inr ⟨_, rfl⟩)
    · exact .inr (.inr ⟨_, rfl⟩)
  next =>
    split at h
    · cases h
      exact .inr (.inr ⟨_, rfl⟩)
    · cases h

theorem normal_atom {word : List Char} {j : Json} (h : atom word = some j) : normal j = j := by
  rcases atom_cases h with rfl | ⟨b, rfl⟩ | ⟨l, rfl⟩
  · rfl
  · rfl
  · rfl

/-- What `loads` reads is what stands there, with the members of each object put into a `dict`. -/
theorem parse_eq_read (n : Nat) :
    (∀ cs, parseValue n cs = (readValue n cs).map fun p => (normal p.1, p.2)) ∧
    (∀ first cs, parseItems n first cs = (readItems n first cs).map fun p => (normalItems p.1, p.2)) ∧
    (∀ first cs, parseFields n first cs =
      (readFields n first cs).map fun p => (normalFields p.1, p.2)) := by
  induction n with
  | zero => exact ⟨fun _ => rfl, fun _ _ => rfl, fun _ _ => rfl⟩
  | succ n ih =>
    obtain ⟨hvalue, hitems, hfields⟩ := ih
    refine ⟨fun cs => ?_, fun first cs => ?_, fun first cs => ?_⟩
    · rw [parseValue, readValue]
      split
      · rw [Option.map_map]
        rfl
      split
      · rw [hitems, Option.map_map, Option.map_map]
        rfl
      split
      · rw [hfields, Option.map_map, Option.map_map]
        rfl
      · cases hatom : atom (cs.takeWhile atomChar) with
        | none => rfl
        | some j => rw [Option.map_some, Option.map_some, normal_atom hatom]
    · rw [parseItems, readItems]
      split
      · rfl
      cases afterComma first cs with
      | none => rfl
      | some r =>
        rw [Option.bind_some, Option.bind_some, hvalue]
        cases readValue n r with
        | none => rfl
        | some p =>
          rw [Option.map_some, Option.bind_some, Option.bind_some, hitems, Option.map_map,
            Option.map_map]
          rfl
    · rw [parseFields, readFields]
      split
      · rfl
      cases afterComma first cs with
      | none => rfl
      | some r =>
        rw [Option.bind_some, Option.bind_some]
        cases parseName r with
        | none => rfl
        | some name =>
          rw [Option.bind_some, Option.bind_some, hvalue]
          cases readValue n name.2 with
          | none => rfl
          | some p =>
            rw [Option.map_some, Option.bind_some, Option.bind_some, hfields, Option.map_map,
              Option.map_map]
            rfl

theorem loads_eq_readText (cs : List Char) : loads cs = (readText cs).map normal := by
  rw [loads, readText, (parse_eq_read _).1]
  cases readValue (cs.length + 1) (skipSpaces cs) with
  | none => rfl
  | some p =>
    rw [Option.map_some, Option.bind_some, Option.bind_some]
    dsimp only
    split
    · rfl
    · rfl

/-! ## Sizes -/

mutual

def size : Json → Nat
  | null       => 0
  | bool _     => 0
  | num _      => 0
  | str s      => s.length
  | arr items  => sizeItems items
  | obj fields => sizeFields fields

def sizeItems : List Json → Nat
  | []        => 0
  | j :: rest => size j + sizeItems rest

def sizeFields : List (List Char × Json) → Nat
  | []             => 0
  | (k, j) :: rest => k.length + size j + sizeFields rest

end

theorem sizeFields_append (d e : List (List Char × Json)) :
    sizeFields (d ++ e) = sizeFields d + sizeFields e := by
  induction d with
  | nil => rw [List.nil_append, sizeFields, Nat.zero_add]
  | cons f rest ih =>
    obtain ⟨k, j⟩ := f
    rw [List.cons_append, sizeFields, sizeFields, ih]
    omega

theorem keys_setField (d : List (List Char × Json)) (k : List Char) (v : Json) :
    (setField d k v).map Prod.fst =
      if d.any (·.1 == k) then d.map Prod.fst else d.map Prod.fst ++ [k] := by
  unfold setField
  split
  · rw [List.map_map]
    refine List.map_congr_left fun e _ => ?_
    by_cases he : e.1 = k
    · simp [he]
    · simp [he]
  · rw [List.map_append]
    rfl

theorem nodup_setField {d : List (List Char × Json)} (h : (d.map Prod.fst).Nodup) (k : List Char)
    (v : Json) : ((setField d k v).map Prod.fst).Nodup := by
  rw [keys_setField]
  split
  · exact h
  next hnew =>
    rw [List.nodup_append]
    refine ⟨h, by simp, fun a ha b hb => ?_⟩
    rw [List.mem_singleton.1 hb]
    rintro rfl
    obtain ⟨e, he, rfl⟩ := List.mem_map.1 ha
    exact hnew (List.any_eq_true.2 ⟨e, he, beq_self_eq_true _⟩)

/-- Writing over one name. -/
theorem sizeFields_replace {k : List Char} {v : Json} : ∀ {d : List (List Char × Json)},
    (d.map Prod.fst).Nodup →
      sizeFields (d.map fun e => if e.1 == k then (k, v) else e) ≤ sizeFields d + (k.length + size v)
  | [], _            => Nat.zero_le _
  | (j, w) :: rest, h => by
    obtain ⟨hj, hrest⟩ := List.nodup_cons.1 h
    rw [List.map_cons]
    by_cases hjk : j = k
    · subst hjk
      have hsame : (rest.map fun e => if e.1 == j then (j, v) else e) = rest := by
        refine (List.map_congr_left fun e he => ?_).trans (List.map_id rest)
        have hne : ¬ e.1 = j := fun heq => hj (List.mem_map.2 ⟨e, he, heq⟩)
        simp [hne]
      rw [hsame]
      simp only [beq_self_eq_true, if_true, sizeFields]
      omega
    · have ih := sizeFields_replace (k := k) (v := v) hrest
      simp only [beq_eq_false_iff_ne.2 hjk, Bool.false_eq_true, if_false, sizeFields]
      omega

theorem sizeFields_setField {d : List (List Char × Json)} (h : (d.map Prod.fst).Nodup) (k : List Char)
    (v : Json) : sizeFields (setField d k v) ≤ sizeFields d + (k.length + size v) := by
  unfold setField
  split
  · exact sizeFields_replace h
  · rw [sizeFields_append, sizeFields, sizeFields]
    omega

theorem sizeFields_foldl : ∀ (fields : List (List Char × Json)) {d : List (List Char × Json)},
    (d.map Prod.fst).Nodup →
      sizeFields (fields.foldl (fun d e => setField d e.1 e.2) d) ≤ sizeFields d + sizeFields fields
  | [], d, _             => by rw [List.foldl_nil, sizeFields]; omega
  | (k, v) :: rest, d, h => by
    have hone := sizeFields_setField h k v
    have hrest := sizeFields_foldl rest (nodup_setField h k v)
    rw [List.foldl_cons, sizeFields]
    dsimp only
    omega

theorem sizeFields_dict (fields : List (List Char × Json)) : sizeFields (dict fields) ≤ sizeFields fields := by
  have h := sizeFields_foldl (d := []) fields List.nodup_nil
  rw [sizeFields, Nat.zero_add] at h
  exact h

mutual

/-- A `dict` drops what is written over. -/
theorem size_normal : (j : Json) → size (normal j) ≤ size j
  | null       => le_rfl
  | bool _     => le_rfl
  | num _      => le_rfl
  | str _      => le_rfl
  | arr items  => by
    rw [normal, size, size]
    exact sizeItems_normal items
  | obj fields => by
    rw [normal, size, size]
    exact (sizeFields_dict _).trans (sizeFields_normal fields)

theorem sizeItems_normal : (items : List Json) → sizeItems (normalItems items) ≤ sizeItems items
  | []        => le_rfl
  | j :: rest => by
    rw [normalItems, sizeItems, sizeItems]
    exact Nat.add_le_add (size_normal j) (sizeItems_normal rest)

theorem sizeFields_normal : (fields : List (List Char × Json)) →
    sizeFields (normalFields fields) ≤ sizeFields fields
  | []             => le_rfl
  | (k, j) :: rest => by
    rw [normalFields, sizeFields, sizeFields]
    have hj := size_normal j
    have hrest := sizeFields_normal rest
    omega

end

mutual

/-- A value without a name twice is as it stands. -/
theorem normal_of_valid : (j : Json) → Valid j → normal j = j
  | null, _       => rfl
  | bool _, _     => rfl
  | num _, _      => rfl
  | str _, _      => rfl
  | arr items, h  => by rw [normal, normalItems_of_valid items h]
  | obj fields, h => by
    rw [normal, normalFields_of_valid fields h.2, dict, foldl_setField [] fields h.1, List.nil_append]

theorem normalItems_of_valid : (items : List Json) → ValidItems items → normalItems items = items
  | [], _        => rfl
  | j :: rest, h => by rw [normalItems, normal_of_valid j h.1, normalItems_of_valid rest h.2]

theorem normalFields_of_valid : (fields : List (List Char × Json)) → ValidFields fields →
    normalFields fields = fields
  | [], _             => rfl
  | (k, j) :: rest, h => by rw [normalFields, normal_of_valid j h.1, normalFields_of_valid rest h.2]

end

/-! ## What a reader leaves -/

theorem parseUnits_suffix : ∀ {cs : List Char} {st : Escape} {us : List Nat} {r : List Char},
    parseUnits st cs = some (us, r) → '"' :: r <:+ cs
  | [], _, _, _, h       => by
    rw [parseUnits] at h
    cases h
  | c :: cs, st, us, r, h => by
    have hmore : ∀ {u : Nat}, (parseUnits .plain cs).map (fun p => (u :: p.1, p.2)) = some (us, r) →
        '"' :: r <:+ c :: cs := by
      intro u h
      obtain ⟨p, hp, heq⟩ := Option.map_eq_some_iff.1 h
      cases heq
      exact (parseUnits_suffix hp).trans (List.suffix_cons c cs)
    cases st with
    | plain =>
      rw [parseUnits] at h
      split at h
      next hquote =>
        cases h
        exact hquote ▸ List.suffix_rfl
      split at h
      · exact (parseUnits_suffix h).trans (List.suffix_cons c cs)
      split at h
      · cases h
      · exact hmore h
    | slash =>
      rw [parseUnits] at h
      split at h
      · exact (parseUnits_suffix h).trans (List.suffix_cons c cs)
      · cases hescape : unescape c with
        | none =>
          rw [hescape] at h
          cases h
        | some u =>
          rw [hescape] at h
          exact hmore h
    | hex left acc =>
      cases left with
      | zero =>
        rw [parseUnits] at h
        obtain ⟨v, -, h⟩ := Option.bind_eq_some_iff.1 h
        exact hmore h
      | succ left =>
        rw [parseUnits] at h
        obtain ⟨v, -, h⟩ := Option.bind_eq_some_iff.1 h
        exact (parseUnits_suffix h).trans (List.suffix_cons c cs)

theorem parseString_suffix {cs s r : List Char} (h : parseString cs = some (s, r)) :
    '"' :: r <:+ cs := by
  obtain ⟨⟨us, r₁⟩, hus, h⟩ := Option.bind_eq_some_iff.1 h
  obtain ⟨s₁, -, heq⟩ := Option.map_eq_some_iff.1 h
  cases heq
  exact parseUnits_suffix hus

theorem skipSpaces_suffix (cs : List Char) : skipSpaces cs <:+ cs := List.dropWhile_suffix _

theorem afterComma_suffix {first : Bool} {cs r : List Char} (h : afterComma first cs = some r) :
    r <:+ cs := by
  cases first with
  | true =>
    cases h
    exact List.suffix_rfl
  | false =>
    rw [afterComma, if_neg Bool.false_ne_true] at h
    split at h
    · cases h
      exact (skipSpaces_suffix _).trans (List.tail_suffix _)
    · cases h

theorem parseName_head {cs : List Char} {p : List Char × List Char} (h : parseName cs = some p) :
    cs.head? = some '"' := by
  unfold parseName at h
  split at h
  next hc => exact hc
  next => cases h

theorem parseName_suffix {cs name r : List Char} (h : parseName cs = some (name, r)) :
    r <:+ cs ∧ r.length < cs.length := by
  rw [parseName, if_pos (parseName_head h)] at h
  obtain ⟨⟨name₁, r₁⟩, hname, h⟩ := Option.bind_eq_some_iff.1 h
  dsimp only at h
  split at h
  · cases h
    have hquote := (parseString_suffix hname).trans (List.tail_suffix cs)
    have hr : skipSpaces (skipSpaces r₁).tail <:+ r₁ :=
      (skipSpaces_suffix _).trans ((List.tail_suffix _).trans (skipSpaces_suffix _))
    have hlen := hquote.length_le
    rw [List.length_cons] at hlen
    refine ⟨hr.trans ((List.suffix_cons _ _).trans hquote), ?_⟩
    exact lt_of_le_of_lt hr.length_le (by omega)
  · cases h

/-- A reader leaves the end of its text; before it stands what closes the value. -/
theorem read_suffix (n : Nat) :
    (∀ {cs j r}, readValue n cs = some (j, r) → r <:+ cs ∧ r.length < cs.length) ∧
    (∀ {first cs js r}, readItems n first cs = some (js, r) → ']' :: r <:+ cs) ∧
    (∀ {first cs fs r}, readFields n first cs = some (fs, r) → '}' :: r <:+ cs) := by
  induction n with
  | zero => exact ⟨fun h => (by cases h), fun h => (by cases h), fun h => (by cases h)⟩
  | succ n ih =>
    obtain ⟨hvalue, hitems, hfields⟩ := ih
    -- what closes a value stands in the tail
    have hclosed : ∀ {c : Char} {r cs : List Char}, c :: r <:+ cs.tail →
        r <:+ cs ∧ r.length < cs.length := by
      intro c r cs h
      have hcs := h.trans (List.tail_suffix cs)
      have hlen := hcs.length_le
      rw [List.length_cons] at hlen
      exact ⟨(List.suffix_cons c r).trans hcs, by omega⟩
    have hbracket : ∀ {c : Char} {cs : List Char}, cs.head? = some c → c :: cs.tail <:+ cs := by
      intro c cs hc
      cases cs with
      | nil => cases hc
      | cons d t =>
        obtain rfl := Option.some.inj hc
        exact List.suffix_rfl
    refine ⟨fun h => ?_, fun h => ?_, fun h => ?_⟩
    · rename_i cs j r
      rw [readValue] at h
      split at h
      · obtain ⟨⟨s, r₁⟩, hs, heq⟩ := Option.map_eq_some_iff.1 h
        cases heq
        exact hclosed (parseString_suffix hs)
      split at h
      · obtain ⟨⟨js, r₁⟩, hjs, heq⟩ := Option.map_eq_some_iff.1 h
        cases heq
        exact hclosed ((hitems hjs).trans (skipSpaces_suffix _))
      split at h
      · obtain ⟨⟨fs, r₁⟩, hfs, heq⟩ := Option.map_eq_some_iff.1 h
        cases heq
        exact hclosed ((hfields hfs).trans (skipSpaces_suffix _))
      · obtain ⟨j₁, hj, heq⟩ := Option.map_eq_some_iff.1 h
        cases heq
        refine ⟨List.dropWhile_suffix _, ?_⟩
        have hword : cs.takeWhile atomChar ≠ [] := by
          intro hnil
          rw [hnil] at hj
          cases hj
        have hlen := congrArg List.length (List.takeWhile_append_dropWhile (p := atomChar) (l := cs))
        rw [List.length_append] at hlen
        have hpos := List.length_pos_iff.2 hword
        omega
    · rename_i first cs js r
      rw [readItems] at h
      split at h
      next hc =>
        cases h
        exact hbracket hc
      next =>
        obtain ⟨r₁, hr₁, h⟩ := Option.bind_eq_some_iff.1 h
        obtain ⟨⟨j, r₂⟩, hj, h⟩ := Option.bind_eq_some_iff.1 h
        obtain ⟨⟨js₁, r₃⟩, hjs, heq⟩ := Option.map_eq_some_iff.1 h
        cases heq
        exact (hitems hjs).trans ((skipSpaces_suffix _).trans
          ((hvalue hj).1.trans (afterComma_suffix hr₁)))
    · rename_i first cs fs r
      rw [readFields] at h
      split at h
      next hc =>
        cases h
        exact hbracket hc
      next =>
        obtain ⟨r₁, hr₁, h⟩ := Option.bind_eq_some_iff.1 h
        obtain ⟨⟨name, r₀⟩, hname, h⟩ := Option.bind_eq_some_iff.1 h
        obtain ⟨⟨j, r₂⟩, hj, h⟩ := Option.bind_eq_some_iff.1 h
        obtain ⟨⟨fs₁, r₃⟩, hfs, heq⟩ := Option.map_eq_some_iff.1 h
        cases heq
        exact (hfields hfs).trans ((skipSpaces_suffix _).trans
          ((hvalue hj).1.trans ((parseName_suffix hname).1.trans (afterComma_suffix hr₁))))

/-- Fuel for the characters that are read is enough. -/
theorem read_fuel (n : Nat) :
    (∀ {cs j r}, readValue n cs = some (j, r) →
      ∀ {m}, cs.length ≤ r.length + m → readValue m cs = some (j, r)) ∧
    (∀ {first cs js r}, readItems n first cs = some (js, r) →
      ∀ {m}, cs.length ≤ r.length + m → readItems m first cs = some (js, r)) ∧
    (∀ {first cs fs r}, readFields n first cs = some (fs, r) →
      ∀ {m}, cs.length ≤ r.length + m → readFields m first cs = some (fs, r)) := by
  induction n with
  | zero => exact ⟨fun h => (by cases h), fun h => (by cases h), fun h => (by cases h)⟩
  | succ n ih =>
    obtain ⟨hvalue, hitems, hfields⟩ := ih
    have hskip : ∀ cs, (skipSpaces cs).length ≤ cs.length := fun cs => (skipSpaces_suffix cs).length_le
    refine ⟨fun h m hm => ?_, fun h m hm => ?_, fun h m hm => ?_⟩
    · rename_i cs j r
      have hlt := ((read_suffix _).1 h).2
      obtain ⟨m, rfl⟩ : ∃ m', m = m' + 1 := Nat.exists_eq_add_one.2 (by omega)
      have htail : cs.tail.length = cs.length - 1 := List.length_tail
      rw [readValue] at h ⊢
      split at h
      next hc =>
        rw [if_pos hc]
        exact h
      next hc =>
        rw [if_neg hc]
        split at h
        next hc =>
          obtain ⟨⟨js, r₁⟩, hjs, heq⟩ := Option.map_eq_some_iff.1 h
          cases heq
          dsimp only at hlt hm
          have hle := hskip cs.tail
          rw [if_pos hc, hitems hjs (by omega)]
          rfl
        next hc =>
          rw [if_neg hc]
          split at h
          next hc =>
            obtain ⟨⟨fs, r₁⟩, hfs, heq⟩ := Option.map_eq_some_iff.1 h
            cases heq
            dsimp only at hlt hm
            have hle := hskip cs.tail
            rw [if_pos hc, hfields hfs (by omega)]
            rfl
          next hc =>
            rw [if_neg hc]
            exact h
    · rename_i first cs js r
      have hlt := ((read_suffix _).2.1 h).length_le
      rw [List.length_cons] at hlt
      obtain ⟨m, rfl⟩ : ∃ m', m = m' + 1 := Nat.exists_eq_add_one.2 (by omega)
      rw [readItems] at h ⊢
      split at h
      next hc =>
        rw [if_pos hc]
        exact h
      next hc =>
        rw [if_neg hc]
        obtain ⟨r₁, hr₁, h⟩ := Option.bind_eq_some_iff.1 h
        obtain ⟨⟨j, r₂⟩, hj, h⟩ := Option.bind_eq_some_iff.1 h
        obtain ⟨⟨js₁, r₃⟩, hjs, heq⟩ := Option.map_eq_some_iff.1 h
        cases heq
        dsimp only at hlt hm
        have hle₁ := (afterComma_suffix hr₁).length_le
        have hlt₂ := ((read_suffix _).1 hj).2
        have hlt₃ := ((read_suffix _).2.1 hjs).length_le
        rw [List.length_cons] at hlt₃
        dsimp only at hlt₃
        have hle₂ := hskip r₂
        have hm₁ : r₁.length ≤ r₂.length + m := by omega
        have hm₂ : (skipSpaces r₂).length ≤ r₃.length + m := by omega
        rw [hr₁, Option.bind_some, hvalue hj hm₁, Option.bind_some, hitems hjs hm₂]
        rfl
    · rename_i first cs fs r
      have hlt := ((read_suffix _).2.2 h).length_le
      rw [List.length_cons] at hlt
      obtain ⟨m, rfl⟩ : ∃ m', m = m' + 1 := Nat.exists_eq_add_one.2 (by omega)
      rw [readFields] at h ⊢
      split at h
      next hc =>
        rw [if_pos hc]
        exact h
      next hc =>
        rw [if_neg hc]
        obtain ⟨r₁, hr₁, h⟩ := Option.bind_eq_some_iff.1 h
        obtain ⟨⟨name, r₀⟩, hname, h⟩ := Option.bind_eq_some_iff.1 h
        obtain ⟨⟨j, r₂⟩, hj, h⟩ := Option.bind_eq_some_iff.1 h
        obtain ⟨⟨fs₁, r₃⟩, hfs, heq⟩ := Option.map_eq_some_iff.1 h
        cases heq
        dsimp only at hlt hm
        have hle₁ := (afterComma_suffix hr₁).length_le
        have hlt₀ := (parseName_suffix hname).2
        have hlt₂ := ((read_suffix _).1 hj).2
        have hlt₃ := ((read_suffix _).2.2 hfs).length_le
        rw [List.length_cons] at hlt₃
        dsimp only at hlt₂ hlt₃
        have hle₂ := hskip r₂
        have hm₁ : r₀.length ≤ r₂.length + m := by omega
        have hm₂ : (skipSpaces r₂).length ≤ r₃.length + m := by omega
        rw [hr₁, Option.bind_some, hname, Option.bind_some, hvalue hj hm₁, Option.bind_some,
          hfields hfs hm₂]
        rfl

end Json
