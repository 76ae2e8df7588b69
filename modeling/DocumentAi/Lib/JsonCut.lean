import DocumentAi.Lib.JsonText

/-!
# A JSON text from whose strings something has been left out

| here | meaning |
| --- | --- |
| `Cut`        | a text without some chunks, each of which began with a backtick |
| `Fewer`      | the code units of a string without some of them |
| `ReadsShort` | a reader of the cut text |

Outside the strings a JSON text has no backtick, so every chunk stood in one of them. Main result:
`read_cut`, a text that can be read can be read after a cut, and the value is shorter by the
characters that have been left out.
-/

namespace Json

/-! ## Cuts -/

/-- A chunk of a string, none of whose characters the reader of strings treats apart. -/
structure Chunk (m : List Char) : Prop where
  head  : m.head? = some '`'
  plain : ∀ c ∈ m, c ≠ '"' ∧ c ≠ '\\'

/-- `k` characters are left out, and white space at the end. -/
inductive Cut : List Char → List Char → Nat → Prop
  | nil : Cut [] [] 0
  | stop {cs} : (∀ c ∈ cs, isSpace c = true) → Cut cs [] 0
  | keep {c cs cs' k} : Cut cs cs' k → Cut (c :: cs) (c :: cs') k
  | drop {m cs cs' k} : Chunk m → Cut cs cs' k → Cut (m ++ cs) cs' (m.length + k)

theorem Chunk.eq_cons {m : List Char} (h : Chunk m) : ∃ t, m = '`' :: t := by
  cases m with
  | nil => cases h.head
  | cons c t => exact ⟨t, by rw [Option.some.inj h.head]⟩

/-- A character that begins no chunk is kept. -/
theorem Cut.cons {c : Char} {cs cs' : List Char} {k : Nat} (h : Cut (c :: cs) cs' k) (hc : c ≠ '`')
    (hspace : isSpace c = false) : ∃ t, cs' = c :: t ∧ Cut cs t k := by
  generalize htext : c :: cs = text at h
  cases h with
  | nil => cases htext
  | stop hall =>
    rw [← htext] at hall
    rw [hall c List.mem_cons_self] at hspace
    cases hspace
  | keep hrest =>
    cases htext
    exact ⟨_, rfl, hrest⟩
  | drop hchunk _ =>
    obtain ⟨t, rfl⟩ := hchunk.eq_cons
    cases htext
    exact absurd rfl hc

theorem Chunk.head_append {m : List Char} (h : Chunk m) (cs : List Char) :
    (m ++ cs).head? = some '`' := by
  obtain ⟨t, rfl⟩ := h.eq_cons
  rfl

theorem skipSpaces_head {cs : List Char} (h : cs.head? = some '`') : skipSpaces cs = cs := by
  cases cs with
  | nil => cases h
  | cons c t =>
    obtain rfl := Option.some.inj h
    exact skipSpaces_cons rfl t

theorem Cut.skipSpaces {cs cs' : List Char} {k : Nat} (h : Cut cs cs' k)
    (hhead : (skipSpaces cs).head? ≠ some '`') : Cut (skipSpaces cs) (skipSpaces cs') k := by
  induction h with
  | nil => exact .nil
  | @stop cs hall =>
    have hnil : Json.skipSpaces cs = [] := List.dropWhile_eq_nil_iff.2 hall
    rw [hnil]
    exact .nil
  | @keep c cs cs' k hrest ih =>
    by_cases hc : isSpace c = true
    · have hskip : ∀ t, Json.skipSpaces (c :: t) = Json.skipSpaces t := fun t =>
        List.dropWhile_cons_of_pos hc
      rw [hskip] at hhead ⊢
      rw [hskip]
      exact ih hhead
    · have hc : isSpace c = false := by simpa using hc
      rw [skipSpaces_cons hc, skipSpaces_cons hc]
      exact .keep hrest
  | @drop m cs cs' k hchunk hrest ih =>
    rw [skipSpaces_head (hchunk.head_append cs)] at hhead
    exact absurd (hchunk.head_append cs) hhead

/-! ## Strings -/

/-- `d` code units, each a character of its own, are left out. -/
inductive Fewer : List Nat → List Nat → Nat → Prop
  | nil : Fewer [] [] 0
  | keep {u us us' d} : Fewer us us' d → Fewer (u :: us) (u :: us') d
  | drop {us us' d} (c : Char) : Fewer us us' d → Fewer (c.toNat :: us) us' (d + 1)

theorem Fewer.eq {us us' : List Nat} {d : Nat} (h : Fewer us us' d) (hd : d = 0) : us' = us := by
  induction h with
  | nil => rfl
  | keep _ ih => rw [ih hd]
  | drop c _ _ => cases hd

theorem Fewer.drops {us us' : List Nat} {d : Nat} (h : Fewer us us' d) (m : List Char) :
    Fewer (m.map Char.toNat ++ us) us' (m.length + d) := by
  induction m with
  | nil =>
    rw [List.length_nil, Nat.zero_add]
    exact h
  | cons c m ih =>
    rw [List.length_cons, Nat.add_right_comm]
    exact .drop c ih

theorem joinUnits_fewer {us us' : List Nat} {d : Nat} (h : Fewer us us' d) :
    ∀ {high : Option Nat} {s : List Char}, joinUnits high us = some s →
      ∃ s', joinUnits high us' = some s' ∧ s.length = s'.length + d := by
  induction h with
  | nil => exact fun h => ⟨_, h, rfl⟩
  | @keep u us us' d hrest ih =>
    intro high s h
    cases high with
    | none =>
      rw [joinUnits] at h ⊢
      split at h
      next hhigh =>
        rw [if_pos hhigh]
        exact ih h
      next hhigh =>
        rw [if_neg hhigh]
        split at h
        · cases h
        next hlow =>
          rw [if_neg hlow]
          obtain ⟨t, ht, rfl⟩ := Option.map_eq_some_iff.1 h
          obtain ⟨t', ht', hlen⟩ := ih ht
          refine ⟨_, Option.map_eq_some_iff.2 ⟨t', ht', rfl⟩, ?_⟩
          rw [List.length_cons, List.length_cons, hlen]
          omega
    | some high =>
      rw [joinUnits] at h ⊢
      split at h
      next hlow =>
        rw [if_pos hlow]
        obtain ⟨t, ht, rfl⟩ := Option.map_eq_some_iff.1 h
        obtain ⟨t', ht', hlen⟩ := ih ht
        refine ⟨_, Option.map_eq_some_iff.2 ⟨t', ht', rfl⟩, ?_⟩
        rw [List.length_cons, List.length_cons, hlen]
        omega
      next => cases h
  | @drop us us' d c hrest ih =>
    intro high s h
    have hc := toNat_lt c
    have hhigh : isHigh c.toNat = false := decide_eq_false (by omega)
    have hlow : isLow c.toNat = false := decide_eq_false (by omega)
    cases high with
    | none =>
      rw [joinUnits, hhigh, hlow] at h
      obtain ⟨t, ht, rfl⟩ := Option.map_eq_some_iff.1 h
      obtain ⟨t', ht', hlen⟩ := ih ht
      refine ⟨t', ht', ?_⟩
      rw [List.length_cons, hlen]
      omega
    | some high =>
      rw [joinUnits, hlow] at h
      cases h

/-- No string ends in white space. -/
theorem parseUnits_spaces : ∀ {cs : List Char} {st : Escape}, (∀ c ∈ cs, isSpace c = true) →
    parseUnits st cs = none
  | [], _, _       => by rw [parseUnits]
  | c :: cs, st, h => by
    obtain ⟨hc, hcs⟩ := List.forall_mem_cons.1 h
    have hspace : c = ' ' ∨ c = '\t' ∨ c = '\n' ∨ c = '\r' := of_decide_eq_true hc
    cases st with
    | plain =>
      have hplain : parseUnits .plain cs = none := parseUnits_spaces hcs
      rw [parseUnits, hplain]
      rcases hspace with rfl | rfl | rfl | rfl
      · rfl
      · rfl
      · rfl
      · rfl
    | slash =>
      rcases hspace with rfl | rfl | rfl | rfl
      · rfl
      · rfl
      · rfl
      · rfl
    | hex left acc =>
      have hnone : hexValue c = none := by
        rcases hspace with rfl | rfl | rfl | rfl
        · decide
        · decide
        · decide
        · decide
      cases left with
      | zero => rw [parseUnits, hnone, Option.bind_none]
      | succ left => rw [parseUnits, hnone, Option.bind_none]

theorem parseUnits_chunk : ∀ {m cs : List Char} {us : List Nat} {r : List Char},
    (∀ c ∈ m, c ≠ '"' ∧ c ≠ '\\') → parseUnits .plain (m ++ cs) = some (us, r) →
      ∃ us', parseUnits .plain cs = some (us', r) ∧ us = m.map Char.toNat ++ us'
  | [], cs, us, r, _, h     => ⟨us, h, rfl⟩
  | c :: m, cs, us, r, hm, h => by
    obtain ⟨⟨hquote, hslash⟩, hm⟩ := List.forall_mem_cons.1 hm
    rw [List.cons_append, parseUnits, if_neg hquote, if_neg hslash] at h
    split at h
    · cases h
    · obtain ⟨p, hp, heq⟩ := Option.map_eq_some_iff.1 h
      cases heq
      obtain ⟨us', hus', hp'⟩ := parseUnits_chunk hm hp
      exact ⟨us', hus', by rw [hp']; rfl⟩

/-- Chunks stand between the escapes of a string. -/
theorem parseUnits_cut {cs cs' : List Char} {k : Nat} (h : Cut cs cs' k) :
    ∀ {st : Escape} {us : List Nat} {r : List Char}, parseUnits st cs = some (us, r) →
      ∃ us' r' d k', k = d + k' ∧ parseUnits st cs' = some (us', r') ∧ Cut r r' k' ∧
        Fewer us us' d := by
  induction h with
  | nil =>
    intro st us r h
    rw [parseUnits] at h
    cases h
  | stop hall =>
    intro st us r h
    rw [parseUnits_spaces hall] at h
    cases h
  | @keep c cs cs' k hcut ih =>
    intro st us r h
    -- one more unit before those that the rest gives
    have hmore : ∀ {u : Nat} {us : List Nat} {r : List Char},
        (parseUnits .plain cs).map (fun p => (u :: p.1, p.2)) = some (us, r) →
          ∃ us' r' d k', k = d + k' ∧
            (parseUnits .plain cs').map (fun p => (u :: p.1, p.2)) = some (us', r') ∧ Cut r r' k' ∧
              Fewer us us' d := by
      intro u us r h
      obtain ⟨p, hp, heq⟩ := Option.map_eq_some_iff.1 h
      cases heq
      obtain ⟨us', r', d, k', hk, hus', hr', hfewer⟩ := ih hp
      exact ⟨u :: us', r', d, k', hk, by rw [hus']; rfl, hr', .keep hfewer⟩
    cases st with
    | plain =>
      rw [parseUnits] at h ⊢
      split at h
      next hquote =>
        rw [if_pos hquote]
        cases h
        exact ⟨[], cs', 0, k, (Nat.zero_add k).symm, rfl, hcut, .nil⟩
      next hquote =>
        rw [if_neg hquote]
        split at h
        next hslash =>
          rw [if_pos hslash]
          exact ih h
        next hslash =>
          rw [if_neg hslash]
          split at h
          · cases h
          next hcontrol =>
            rw [if_neg hcontrol]
            exact hmore h
    | slash =>
      rw [parseUnits] at h ⊢
      split at h
      next hu =>
        rw [if_pos hu]
        exact ih h
      next hu =>
        rw [if_neg hu]
        cases hescape : unescape c with
        | none =>
          rw [hescape] at h
          cases h
        | some u =>
          rw [hescape] at h
          exact hmore h
    | hex left acc =>
      cases left with
      | zero =>
        rw [parseUnits] at h ⊢
        obtain ⟨v, hv, h⟩ := Option.bind_eq_some_iff.1 h
        rw [hv]
        exact hmore h
      | succ left =>
        rw [parseUnits] at h ⊢
        obtain ⟨v, hv, h⟩ := Option.bind_eq_some_iff.1 h
        rw [hv]
        exact ih h
  | @drop m cs cs' k hchunk hcut ih =>
    intro st us r h
    obtain ⟨t, rfl⟩ := hchunk.eq_cons
    cases st with
    | plain =>
      obtain ⟨us₁, hus₁, rfl⟩ := parseUnits_chunk hchunk.plain h
      obtain ⟨us', r', d, k', hk, hus', hr', hfewer⟩ := ih hus₁
      exact ⟨us', r', _, k', by rw [hk, Nat.add_assoc], hus', hr', hfewer.drops _⟩
    | slash => cases h
    | hex left acc =>
      have hnone : hexValue '`' = none := by decide
      cases left with
      | zero =>
        rw [List.cons_append, parseUnits, hnone] at h
        cases h
      | succ left =>
        rw [List.cons_append, parseUnits, hnone] at h
        cases h

/-- A reader of the cut text: it reads what is shorter by the characters that have been left out, and
goes on behind them. -/
def ReadsShort {α : Type} (size : α → Nat) (k : Nat) (a : α) (r : List Char)
    (read : Option (α × List Char)) : Prop :=
  ∃ a' r' d k', k = d + k' ∧ read = some (a', r') ∧ Cut r r' k' ∧ size a = size a' + d ∧
    (d = 0 → a' = a)

theorem parseString_cut {cs cs' s r : List Char} {k : Nat} (hcut : Cut cs cs' k)
    (h : parseString cs = some (s, r)) : ReadsShort List.length k s r (parseString cs') := by
  obtain ⟨⟨us, r₁⟩, hus, h⟩ := Option.bind_eq_some_iff.1 h
  obtain ⟨s₁, hs, heq⟩ := Option.map_eq_some_iff.1 h
  cases heq
  obtain ⟨us', r', d, k', hk, hus', hr', hfewer⟩ := parseUnits_cut hcut hus
  obtain ⟨s', hs', hlen⟩ := joinUnits_fewer hfewer hs
  refine ⟨s', r', d, k', hk, ?_, hr', hlen, fun hd => ?_⟩
  · rw [parseString, hus', Option.bind_some, hs']
    rfl
  · rw [hfewer.eq hd, hs] at hs'
    exact (Option.some.inj hs').symm

/-! ## Values -/

/-- A text that goes on with neither white space nor a backtick. -/
def Starts (cs : List Char) : Prop := ∃ c t, cs = c :: t ∧ c ≠ '`' ∧ isSpace c = false

theorem Starts.head {cs : List Char} (h : Starts cs) : cs.head? ≠ some '`' := by
  obtain ⟨c, t, rfl, hc, -⟩ := h
  exact fun heq => hc (Option.some.inj heq)

theorem Starts.of_head {cs : List Char} {c : Char} (h : cs.head? = some c) (hc : c ≠ '`')
    (hspace : isSpace c = false) : Starts cs := by
  cases cs with
  | nil => cases h
  | cons d t =>
    obtain rfl := Option.some.inj h
    exact ⟨d, t, rfl, hc, hspace⟩

theorem head_of_skipSpaces {cs : List Char} (h : Starts (skipSpaces cs)) : cs.head? ≠ some '`' := by
  intro hhead
  rw [skipSpaces_head hhead] at h
  exact h.head hhead

theorem Cut.starts {cs cs' : List Char} {k : Nat} (h : Cut cs cs' k) (hs : Starts cs) :
    cs'.head? = cs.head? ∧ Cut cs.tail cs'.tail k := by
  obtain ⟨c, t, rfl, hc, hspace⟩ := hs
  obtain ⟨t', rfl, ht'⟩ := h.cons hc hspace
  exact ⟨rfl, ht'⟩

theorem readValue_starts {n : Nat} {cs : List Char} {p : Json × List Char}
    (h : readValue n cs = some p) : Starts cs := by
  cases n with
  | zero => cases h
  | succ n =>
    rw [readValue] at h
    split at h
    next hc => exact .of_head hc (by decide) (by decide)
    split at h
    next hc => exact .of_head hc (by decide) (by decide)
    split at h
    next hc => exact .of_head hc (by decide) (by decide)
    next =>
      obtain ⟨j, hj, -⟩ := Option.map_eq_some_iff.1 h
      cases cs with
      | nil => cases hj
      | cons c t =>
        by_cases hc : atomChar c = true
        · refine ⟨c, t, rfl, ?_, isSpace_of_atom hc⟩
          rintro rfl
          cases hc
        · rw [List.takeWhile_cons_of_neg hc] at hj
          cases hj

theorem afterComma_starts {first : Bool} {cs r : List Char} (h : afterComma first cs = some r)
    (hr : Starts r) : Starts cs := by
  cases first with
  | true =>
    cases h
    exact hr
  | false =>
    rw [afterComma, if_neg Bool.false_ne_true] at h
    split at h
    next hc => exact .of_head hc (by decide) (by decide)
    next => cases h

theorem readItems_starts {n : Nat} {first : Bool} {cs : List Char} {p : List Json × List Char}
    (h : readItems n first cs = some p) : Starts cs := by
  cases n with
  | zero => cases h
  | succ n =>
    rw [readItems] at h
    split at h
    next hc => exact .of_head hc (by decide) (by decide)
    next =>
      obtain ⟨r, hr, h⟩ := Option.bind_eq_some_iff.1 h
      obtain ⟨q, hq, -⟩ := Option.bind_eq_some_iff.1 h
      exact afterComma_starts hr (readValue_starts hq)

theorem readFields_starts {n : Nat} {first : Bool} {cs : List Char}
    {p : List (List Char × Json) × List Char} (h : readFields n first cs = some p) : Starts cs := by
  cases n with
  | zero => cases h
  | succ n =>
    rw [readFields] at h
    split at h
    next hc => exact .of_head hc (by decide) (by decide)
    next =>
      obtain ⟨r, hr, h⟩ := Option.bind_eq_some_iff.1 h
      obtain ⟨name, hname, -⟩ := Option.bind_eq_some_iff.1 h
      exact afterComma_starts hr (.of_head (parseName_head hname) (by decide) (by decide))

theorem afterComma_cut {first : Bool} {cs cs' r : List Char} {k : Nat} (hcut : Cut cs cs' k)
    (h : afterComma first cs = some r) (hr : Starts r) :
    ∃ r', afterComma first cs' = some r' ∧ Cut r r' k := by
  obtain ⟨hhead, htail⟩ := hcut.starts (afterComma_starts h hr)
  cases first with
  | true =>
    cases h
    exact ⟨cs', rfl, hcut⟩
  | false =>
    rw [afterComma, if_neg Bool.false_ne_true] at h ⊢
    split at h
    next hc =>
      cases h
      exact ⟨skipSpaces cs'.tail, if_pos (hhead.trans hc), htail.skipSpaces hr.head⟩
    next => cases h

theorem parseName_cut {cs cs' name r : List Char} {k : Nat} (hcut : Cut cs cs' k)
    (h : parseName cs = some (name, r)) (hr : Starts r) :
    ReadsShort List.length k name r (parseName cs') := by
  have hquote := parseName_head h
  obtain ⟨hhead, htail⟩ := hcut.starts (.of_head hquote (by decide) (by decide))
  rw [parseName, if_pos hquote] at h
  obtain ⟨⟨name₁, r₁⟩, hname, h⟩ := Option.bind_eq_some_iff.1 h
  dsimp only at h
  split at h
  next hcolon =>
    cases h
    have hstarts : Starts (skipSpaces r₁) := .of_head hcolon (by decide) (by decide)
    obtain ⟨name', r₁', d, k', hk, hname', hr₁', hlen, hsame⟩ := parseString_cut htail hname
    obtain ⟨hhead₁, htail₁⟩ := (hr₁'.skipSpaces hstarts.head).starts hstarts
    refine ⟨name', skipSpaces (skipSpaces r₁').tail, d, k', hk, ?_, htail₁.skipSpaces hr.head, hlen,
      hsame⟩
    rw [parseName, if_pos (hhead.trans hquote), hname', Option.bind_some]
    exact if_pos (hhead₁.trans hcolon)
  next => cases h

theorem Cut.atom {cs cs' : List Char} {k : Nat} (h : Cut cs cs' k)
    (hhead : (cs.dropWhile atomChar).head? ≠ some '`') :
    cs'.takeWhile atomChar = cs.takeWhile atomChar ∧
      Cut (cs.dropWhile atomChar) (cs'.dropWhile atomChar) k := by
  induction h with
  | nil => exact ⟨rfl, .nil⟩
  | @stop cs hall =>
    cases cs with
    | nil => exact ⟨rfl, .nil⟩
    | cons c t =>
      have hc : ¬ atomChar c = true := by
        intro hatom
        have hspace := isSpace_of_atom hatom
        rw [hall c List.mem_cons_self] at hspace
        cases hspace
      rw [List.takeWhile_cons_of_neg hc, List.dropWhile_cons_of_neg hc]
      exact ⟨rfl, .stop hall⟩
  | @keep c cs cs' k hrest ih =>
    by_cases hc : atomChar c = true
    · rw [List.dropWhile_cons_of_pos hc] at hhead ⊢
      rw [List.dropWhile_cons_of_pos hc, List.takeWhile_cons_of_pos hc, List.takeWhile_cons_of_pos hc]
      obtain ⟨htake, hdrop⟩ := ih hhead
      exact ⟨by rw [htake], hdrop⟩
    · rw [List.dropWhile_cons_of_neg hc, List.dropWhile_cons_of_neg hc,
        List.takeWhile_cons_of_neg hc, List.takeWhile_cons_of_neg hc]
      exact ⟨rfl, .keep hrest⟩
  | @drop m cs cs' k hchunk hrest ih =>
    obtain ⟨t, rfl⟩ := hchunk.eq_cons
    exact absurd rfl hhead

/-- **A text that can be read can be read after a cut.** -/
theorem read_cut (n : Nat) :
    (∀ {cs cs' k j r}, readValue n cs = some (j, r) → r.head? ≠ some '`' → Cut cs cs' k →
      ReadsShort size k j r (readValue n cs')) ∧
    (∀ {first cs cs' k js r}, readItems n first cs = some (js, r) → Cut cs cs' k →
      ReadsShort sizeItems k js r (readItems n first cs')) ∧
    (∀ {first cs cs' k fs r}, readFields n first cs = some (fs, r) → Cut cs cs' k →
      ReadsShort sizeFields k fs r (readFields n first cs')) := by
  induction n with
  | zero => exact ⟨fun h => (by cases h), fun h => (by cases h), fun h => (by cases h)⟩
  | succ n ih =>
    obtain ⟨hvalue, hitems, hfields⟩ := ih
    refine ⟨fun h hr hcut => ?_, fun h hcut => ?_, fun h hcut => ?_⟩
    · rename_i cs cs' k j r
      obtain ⟨hhead, htail⟩ := hcut.starts (readValue_starts h)
      rw [readValue] at h ⊢
      rw [hhead]
      split at h
      next hc =>
        obtain ⟨⟨s, r₁⟩, hs, heq⟩ := Option.map_eq_some_iff.1 h
        cases heq
        obtain ⟨s', r', d, k', hk, hs', hr', hlen, hsame⟩ := parseString_cut htail hs
        rw [if_pos hc, hs']
        exact ⟨str s', r', d, k', hk, rfl, hr', hlen, fun hd => by rw [hsame hd]⟩
      next hc =>
        rw [if_neg hc]
        split at h
        next hc =>
          obtain ⟨⟨js, r₁⟩, hjs, heq⟩ := Option.map_eq_some_iff.1 h
          cases heq
          obtain ⟨js', r', d, k', hk, hjs', hr', hlen, hsame⟩ :=
            hitems hjs (htail.skipSpaces (readItems_starts hjs).head)
          rw [if_pos hc, hjs']
          exact ⟨arr js', r', d, k', hk, rfl, hr', hlen, fun hd => by rw [hsame hd]⟩
        next hc =>
          rw [if_neg hc]
          split at h
          next hc =>
            obtain ⟨⟨fs, r₁⟩, hfs, heq⟩ := Option.map_eq_some_iff.1 h
            cases heq
            obtain ⟨fs', r', d, k', hk, hfs', hr', hlen, hsame⟩ :=
              hfields hfs (htail.skipSpaces (readFields_starts hfs).head)
            rw [if_pos hc, hfs']
            exact ⟨obj fs', r', d, k', hk, rfl, hr', hlen, fun hd => by rw [hsame hd]⟩
          next hc =>
            obtain ⟨j₁, hj, heq⟩ := Option.map_eq_some_iff.1 h
            cases heq
            obtain ⟨htake, hdrop⟩ := hcut.atom hr
            rw [if_neg hc, htake, hj]
            exact ⟨j, _, 0, k, (Nat.zero_add k).symm, rfl, hdrop, rfl, fun _ => rfl⟩
    · rename_i first cs cs' k js r
      obtain ⟨hhead, htail⟩ := hcut.starts (readItems_starts h)
      rw [readItems] at h ⊢
      rw [hhead]
      split at h
      next hc =>
        cases h
        rw [if_pos hc]
        exact ⟨[], cs'.tail, 0, k, (Nat.zero_add k).symm, rfl, htail, rfl, fun _ => rfl⟩
      next hc =>
        rw [if_neg hc]
        obtain ⟨r₁, hr₁, h⟩ := Option.bind_eq_some_iff.1 h
        obtain ⟨⟨j, r₂⟩, hj, h⟩ := Option.bind_eq_some_iff.1 h
        obtain ⟨⟨js₁, r₃⟩, hjs, heq⟩ := Option.map_eq_some_iff.1 h
        cases heq
        have hnext := readItems_starts hjs
        obtain ⟨r₁', hr₁', hcut₁⟩ := afterComma_cut hcut hr₁ (readValue_starts hj)
        obtain ⟨j', r₂', d, k₁, rfl, hj', hcut₂, hsize, hsame⟩ :=
          hvalue hj (head_of_skipSpaces hnext) hcut₁
        obtain ⟨js', r₃', e, k₂, rfl, hjs', hcut₃, hsizes, hsames⟩ :=
          hitems hjs (hcut₂.skipSpaces hnext.head)
        refine ⟨j' :: js', r₃', d + e, k₂, (Nat.add_assoc d e k₂).symm, ?_, hcut₃, ?_, fun hd => ?_⟩
        · rw [hr₁', Option.bind_some, hj', Option.bind_some, hjs']
          rfl
        · rw [sizeItems, sizeItems, hsize, hsizes]
          omega
        · rw [hsame (by omega), hsames (by omega)]
    · rename_i first cs cs' k fs r
      obtain ⟨hhead, htail⟩ := hcut.starts (readFields_starts h)
      rw [readFields] at h ⊢
      rw [hhead]
      split at h
      next hc =>
        cases h
        rw [if_pos hc]
        exact ⟨[], cs'.tail, 0, k, (Nat.zero_add k).symm, rfl, htail, rfl, fun _ => rfl⟩
      next hc =>
        rw [if_neg hc]
        obtain ⟨r₁, hr₁, h⟩ := Option.bind_eq_some_iff.1 h
        obtain ⟨⟨name, r₀⟩, hname, h⟩ := Option.bind_eq_some_iff.1 h
        obtain ⟨⟨j, r₂⟩, hj, h⟩ := Option.bind_eq_some_iff.1 h
        obtain ⟨⟨fs₁, r₃⟩, hfs, heq⟩ := Option.map_eq_some_iff.1 h
        cases heq
        have hnext := readFields_starts hfs
        have hquote : Starts r₁ := .of_head (parseName_head hname) (by decide) (by decide)
        obtain ⟨r₁', hr₁', hcut₁⟩ := afterComma_cut hcut hr₁ hquote
        obtain ⟨name', r₀', c, k₀, rfl, hname', hcut₀, hlen, hnames⟩ :=
          parseName_cut hcut₁ hname (readValue_starts hj)
        obtain ⟨j', r₂', d, k₁, rfl, hj', hcut₂, hsize, hsame⟩ :=
          hvalue hj (head_of_skipSpaces hnext) hcut₀
        obtain ⟨fs', r₃', e, k₂, rfl, hfs', hcut₃, hsizes, hsames⟩ :=
          hfields hfs (hcut₂.skipSpaces hnext.head)
        refine ⟨(name', j') :: fs', r₃', c + (d + e), k₂, by omega, ?_, hcut₃, ?_, fun hd => ?_⟩
        · rw [hr₁', Option.bind_some, hname', Option.bind_some, hj', Option.bind_some, hfs']
          rfl
        · rw [sizeFields, sizeFields, hlen, hsize, hsizes]
          omega
        · rw [hnames (by omega), hsame (by omega), hsames (by omega)]

end Json
