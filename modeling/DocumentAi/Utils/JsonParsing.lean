import DocumentAi.Lib.Chars
import DocumentAi.Lib.JsonCut
import DocumentAi.Lib.Substitution

/-!
# JSON in the output of a language model (`utils/json_parsing.py:25-64`)

| here | there |
| --- | --- |
| `findFence`    | the pattern of the first `re.sub` (`:36`), `\s` with the Unicode classes |
| `findClosing`  | that of the second (`:37`) |
| `findObject`   | the greedy search for an object (`:40`) |
| `repair`       | the `re.sub` before the second attempt (`:57`); `word` is `\w` |
| `parseLlmJson` | `parse_llm_json`; the warnings are left out |
| `Wrapped`      | a serialisation alone, in a code fence, or in prose without braces |

`parseLlmJson_iff`: the object comes back exactly when no three backticks stand in its serialisation.
The first substitution does not know where a string begins, so it takes them out of the strings too.
-/

namespace DocumentAi.LlmJson

open Subst (Matcher Piece Scan Implements NoMatch orig shown sub keeps)

/-! ## The parser -/

def fence : List Char := ['`', '`', '`']

def language : List Char := ['j', 's', 'o', 'n']

/-- `(?:json)?\s*` behind a fence. -/
def afterFence (s : List Char) : List Char :=
  let word := if language.isPrefixOf s then language else []
  word ++ (s.drop word.length).takeWhile Chars.isSpace

def findFence : Matcher := fun _ s =>
  if fence.isPrefixOf s then
    let found := fence ++ afterFence (s.drop 3)
    some (found, s.drop found.length)
  else none

def findClosing : Matcher := fun _ s =>
  if fence.isPrefixOf s && (s.drop 3).all Chars.isSpace then some (s, []) else none

/-- From the first opening brace to the last closing one. -/
def findObject (s : List Char) : Option (List Char) :=
  let found := ((s.dropWhile (· ≠ '{')).reverse.dropWhile (· ≠ '}')).reverse
  if found = [] then none else some found

def findQuote (word : Char → Bool) : Matcher := fun before s =>
  match s with
  | '"' :: c :: rest =>
    if before.head?.any word && !([':', ',', '}', ']'].contains c || Chars.isSpace c) then
      some (['"'], c :: rest)
    else none
  | _ => none

def repair (word : Char → Bool) (raw : List Char) : List Char := sub ['\\', '"'] (findQuote word) 0 [] raw

def asDict : Json → Option (List (List Char × Json))
  | .obj fields => some fields
  | _           => none

def cleaned (text : List Char) : List Char := sub [] findClosing 0 [] (sub [] findFence 0 [] text)

def parseLlmJson (word : Char → Bool) (text : List Char) : Option (List (List Char × Json)) :=
  match findObject (cleaned text) with
  | none     => none
  | some raw =>
    match Json.loads raw with
    | some parsed => asDict parsed
    | none        =>
      match Json.loads (repair word raw) with
      | some parsed => asDict parsed
      | none        => none

/-! ## What it is given -/

/-- A text whose members are those of the object, with any spacing and any escapes. -/
structure Serialises (s : List Char) (fields : List (List Char × Json)) : Prop where
  reads : Json.readText s = some (.obj fields)
  valid : Json.Valid (.obj fields)

def BraceFree (s : List Char) : Prop := '{' ∉ s ∧ '}' ∉ s

inductive Wrapped (s : List Char) : List Char → Prop
  | alone : Wrapped s s
  | fenced {info : List Char} : BraceFree info →
      Wrapped s (fence ++ info ++ '\n' :: (s ++ '\n' :: fence))
  | prose {before after : List Char} : BraceFree before → BraceFree after →
      Wrapped s (before ++ (s ++ after))

/-! ## Fences -/

structure FenceShape (m : List Char) : Prop where
  parts : ∃ more, m = fence ++ more ∧ ∀ c ∈ more, c ∈ language ∨ Chars.isSpace c = true

theorem afterFence_prefix (s : List Char) : afterFence s <+: s := by
  unfold afterFence
  dsimp only
  split
  next h =>
    obtain ⟨t, rfl⟩ := List.isPrefixOf_iff_prefix.1 h
    rw [List.drop_left]
    exact List.prefix_append_right_inj _ |>.2 (List.takeWhile_prefix _)
  next => exact List.takeWhile_prefix _

theorem mem_afterFence {s : List Char} : ∀ c ∈ afterFence s, c ∈ language ∨ Chars.isSpace c = true := by
  intro c hc
  unfold afterFence at hc
  rcases List.mem_append.1 hc with hword | hspace
  · split at hword
    · exact .inl hword
    · cases hword
  · exact .inr (List.mem_takeWhile_imp hspace)

theorem findFence_of_prefix {s : List Char} (h : fence <+: s) (l : List Char) :
    ∃ m b, findFence l s = some (m, b) ∧ s = m ++ b ∧ FenceShape m := by
  obtain ⟨t, rfl⟩ := h
  obtain ⟨rest, hrest⟩ := afterFence_prefix t
  have htext : fence ++ t = (fence ++ afterFence t) ++ rest := by rw [List.append_assoc, hrest]
  have hdrop : (fence ++ t).drop 3 = t := rfl
  have hbehind : (fence ++ t).drop (fence ++ afterFence t).length = rest := by
    rw [htext, List.drop_left]
  refine ⟨fence ++ afterFence t, rest, ?_, htext, ⟨_, rfl, mem_afterFence⟩⟩
  rw [findFence, if_pos (List.isPrefixOf_iff_prefix.2 (List.prefix_append fence t)), hdrop]
  dsimp only
  rw [hbehind]

theorem prefix_of_findFence {s m b l : List Char} (h : findFence l s = some (m, b)) : fence <+: s := by
  unfold findFence at h
  split at h
  next hs => exact List.isPrefixOf_iff_prefix.1 hs
  next => cases h

/-- Where a fence is found. -/
def FenceMatch (l m b : List Char) : Prop := findFence l (m ++ b) = some (m, b)

theorem implements_findFence : Implements findFence FenceMatch := by
  constructor
  · intro l s m b h
    obtain ⟨m', b', h', rfl, hshape⟩ := findFence_of_prefix (prefix_of_findFence h) l
    rw [h'] at h
    cases h
    obtain ⟨more, rfl, -⟩ := hshape.parts
    exact ⟨rfl, List.cons_ne_nil _ _, h'⟩
  · exact fun l m b h => h

theorem shape_of_match {l m b : List Char} (h : FenceMatch l m b) : FenceShape m := by
  obtain ⟨m', b', h', -, hshape⟩ := findFence_of_prefix (prefix_of_findFence h) l
  rw [h] at h'
  cases h'
  exact hshape

theorem noMatch_iff {l s : List Char} : NoMatch FenceMatch l s ↔ ¬ fence <+: s := by
  constructor
  · intro h hs
    obtain ⟨m, b, hfind, rfl, -⟩ := findFence_of_prefix hs l
    exact h m b rfl hfind
  · rintro h m b rfl hmatch
    exact h (prefix_of_findFence hmatch)

/-- A scan shows ticks only where they stood. -/
theorem ticks_of_shown : ∀ (n : Nat) {l s : List Char} {P : List Piece}, Scan FenceMatch l s P →
    ¬ fence <+: s → List.replicate n '`' <+: shown [] P → List.replicate n '`' <+: s
  | 0, _, _, _, _, _, _           => List.nil_prefix
  | n + 1, l, s, P, hscan, hs, hP => by
    cases hscan with
    | done => exact hP
    | mask _ hmatch _ => exact absurd (prefix_of_findFence hmatch) hs
    | @keep _ c s P _ hrest =>
      rw [Subst.shown_keep, List.replicate_succ] at hP
      rw [List.replicate_succ]
      obtain ⟨rfl, hrestP⟩ := List.cons_prefix_cons.1 hP
      refine List.cons_prefix_cons.2 ⟨rfl, ?_⟩
      by_cases hs' : fence <+: s
      · -- four ticks begin with three
        obtain ⟨t, rfl⟩ := hs'
        exact absurd ⟨'`' :: t, rfl⟩ hs
      · exact ticks_of_shown n hrest hs' hrestP

/-- No fence is left. -/
theorem no_fence_shown {l s : List Char} {P : List Piece} (h : Scan FenceMatch l s P) :
    ¬ fence <:+: shown [] P := by
  induction h with
  | done => exact fun h => by cases List.eq_nil_of_infix_nil h
  | mask _ _ _ ih => exact ih
  | @keep l c s P hno hrest ih =>
    rw [Subst.shown_keep]
    intro h
    rcases List.infix_cons_iff.1 h with hbegins | hinside
    · have hscan : Scan FenceMatch l (c :: s) (.keep c :: P) := .keep hno hrest
      exact noMatch_iff.1 hno (ticks_of_shown 3 hscan (noMatch_iff.1 hno) hbegins)
    · exact ih hinside

/-- The second substitution finds nothing. -/
theorem cleaned_eq (text : List Char) :
    ∃ P, Scan FenceMatch [] text P ∧ cleaned text = shown [] P := by
  obtain ⟨P, hscan, hsub⟩ := Subst.scan_sub implements_findFence [] text.length [] text le_rfl
  refine ⟨P, hscan, ?_⟩
  rw [cleaned, hsub]
  refine Subst.sub_of_none [] fun l t ht => ?_
  rw [findClosing, if_neg]
  intro h
  rw [Bool.and_eq_true] at h
  exact no_fence_shown hscan ((List.isPrefixOf_iff_prefix.1 h.1).isInfix.trans ht.isInfix)

/-! ## The text around the object -/

theorem FenceShape.mem {m : List Char} (h : FenceShape m) :
    ∀ c ∈ m, c = '`' ∨ c ∈ language ∨ Chars.isSpace c = true := by
  obtain ⟨more, rfl, hmore⟩ := h.parts
  intro c hc
  rcases List.mem_append.1 hc with hfence | hc
  · left
    simpa [fence] using hfence
  · exact .inr (hmore c hc)

theorem FenceShape.not_mem {m : List Char} (h : FenceShape m) {c : Char} (hc : c ∉ language)
    (htick : c ≠ '`') (hspace : Chars.isSpace c = false) : c ∉ m := by
  intro hm
  rcases h.mem c hm with heq | hword | hs
  · exact htick heq
  · exact hc hword
  · rw [hspace] at hs
    cases hs

theorem FenceShape.chunk {m : List Char} (h : FenceShape m) : Json.Chunk m where
  head  := by
    obtain ⟨more, rfl, -⟩ := h.parts
    rfl
  plain := fun c hc => ⟨
    fun heq => h.not_mem (c := '"') (by decide) (by decide) (by decide) (heq ▸ hc),
    fun heq => h.not_mem (c := '\\') (by decide) (by decide) (by decide) (heq ▸ hc)⟩

/-- The characters that a list of pieces hides. -/
def hidden : List Piece → Nat
  | []           => 0
  | .keep _ :: P => hidden P
  | .mask m :: P => m.length + hidden P

theorem cut_of_pieces : ∀ {P : List Piece} {y y' : List Char} {k : Nat},
    (∀ m, .mask m ∈ P → Json.Chunk m) → Json.Cut y y' k →
      Json.Cut (orig P ++ y) (shown [] P ++ y') (hidden P + k)
  | [], y, y', k, _, h           => by
    rw [hidden, Nat.zero_add]
    exact h
  | .keep c :: P, y, y', k, hP, h => by
    have hrest := cut_of_pieces (fun m hm => hP m (List.mem_cons_of_mem _ hm)) h
    exact .keep hrest
  | .mask m :: P, y, y', k, hP, h => by
    have hrest := cut_of_pieces (fun m hm => hP m (List.mem_cons_of_mem _ hm)) h
    rw [hidden, Nat.add_assoc, Subst.orig_mask, List.append_assoc]
    exact .drop (hP m List.mem_cons_self) hrest

theorem hidden_eq_zero {P : List Piece} (hP : ∀ m, .mask m ∈ P → m ≠ []) :
    hidden P = 0 ↔ ∀ m, .mask m ∉ P := by
  induction P with
  | nil => exact ⟨fun _ m hm => (by cases hm), fun _ => rfl⟩
  | cons p P ih =>
    have ih := ih fun m hm => hP m (List.mem_cons_of_mem _ hm)
    cases p with
    | keep c =>
      rw [hidden, ih]
      simp
    | mask m =>
      have hpos := List.length_pos_iff.2 (hP m List.mem_cons_self)
      rw [hidden]
      exact ⟨fun h => by omega, fun h => absurd List.mem_cons_self (h m)⟩

/-- What is shown was there before. -/
theorem mem_of_shown {P : List Piece} {c : Char} (h : c ∈ shown [] P) : c ∈ orig P := by
  induction P with
  | nil => exact h
  | cons p P ih =>
    cases p with
    | keep d =>
      rw [Subst.shown_keep] at h
      rw [Subst.orig_keep]
      rcases List.mem_cons.1 h with rfl | h
      · exact List.mem_cons_self
      · exact List.mem_cons_of_mem _ (ih h)
    | mask m =>
      rw [Subst.orig_mask]
      exact List.mem_append_right m (ih h)

theorem dropWhile_ne_append {c : Char} {x : List Char} (hx : c ∉ x) (y : List Char) :
    (x ++ c :: y).dropWhile (· ≠ c) = c :: y := by
  rw [List.dropWhile_append_of_pos fun d hd => by
    rw [decide_eq_true_eq]
    rintro rfl
    exact hx hd]
  exact List.dropWhile_cons_of_neg (by simp)

/-- With no brace before or behind it, the object is found. -/
theorem findObject_append {before inner after : List Char} (hbefore : '{' ∉ before)
    (hafter : '}' ∉ after) :
    findObject (before ++ '{' :: (inner ++ '}' :: after)) = some ('{' :: (inner ++ ['}'])) := by
  have hreverse : ('{' :: (inner ++ '}' :: after)).reverse =
      after.reverse ++ '}' :: (inner.reverse ++ ['{']) := by
    simp
  have hback : ('}' :: (inner.reverse ++ ['{'])).reverse = '{' :: (inner ++ ['}']) := by
    simp
  rw [findObject, dropWhile_ne_append hbefore, hreverse,
    dropWhile_ne_append (fun h => hafter (List.mem_reverse.1 h)), hback, if_neg (List.cons_ne_nil _ _)]

/-! ## The text of the object -/

theorem isSpace_of_json {c : Char} (h : Json.isSpace c = true) : c ≠ '{' ∧ c ≠ '}' ∧ c ≠ '`' := by
  have hspace : c = ' ' ∨ c = '\t' ∨ c = '\n' ∨ c = '\r' := of_decide_eq_true h
  rcases hspace with rfl | rfl | rfl | rfl
  · decide
  · decide
  · decide
  · decide

/-- An object is read from its opening brace to the closing one. -/
theorem exists_braces {n : Nat} {cs r : List Char} {fields : List (List Char × Json)}
    (h : Json.readValue n cs = some (.obj fields, r)) : ∃ inner, cs = '{' :: (inner ++ '}' :: r) := by
  cases n with
  | zero => cases h
  | succ n =>
    rw [Json.readValue] at h
    split at h
    · obtain ⟨p, -, heq⟩ := Option.map_eq_some_iff.1 h
      cases heq
    split at h
    · obtain ⟨p, -, heq⟩ := Option.map_eq_some_iff.1 h
      cases heq
    split at h
    next hbrace =>
      obtain ⟨⟨fs, r'⟩, hfs, heq⟩ := Option.map_eq_some_iff.1 h
      cases heq
      obtain ⟨inner, hinner⟩ :=
        ((Json.read_suffix n).2.2 hfs).trans (Json.skipSpaces_suffix _)
      cases cs with
      | nil => cases hbrace
      | cons c t =>
        obtain rfl := Option.some.inj hbrace
        exact ⟨inner, congrArg ('{' :: ·) hinner.symm⟩
    next =>
      obtain ⟨j, hj, heq⟩ := Option.map_eq_some_iff.1 h
      cases heq
      rcases Json.atom_cases hj with hnull | ⟨b, hbool⟩ | ⟨l, hnum⟩
      · cases hnull
      · cases hbool
      · cases hnum

theorem readValue_brace {n : Nat} {t r : List Char} {j : Json}
    (h : Json.readValue n ('{' :: t) = some (j, r)) : ∃ fields, j = .obj fields := by
  cases n with
  | zero => cases h
  | succ n =>
    obtain ⟨p, -, heq⟩ := Option.map_eq_some_iff.1 h
    cases heq
    exact ⟨p.1, rfl⟩

/-- The object in a serialisation of it, between white space. -/
structure Core (s : List Char) (fields : List (List Char × Json)) (ws inner rest : List Char) :
    Prop where
  text  : s = ws ++ '{' :: (inner ++ '}' :: rest)
  left  : ∀ c ∈ ws, Json.isSpace c = true
  right : ∀ c ∈ rest, Json.isSpace c = true
  reads : ∃ n, Json.readValue n ('{' :: (inner ++ '}' :: rest)) = some (.obj fields, rest)

theorem exists_core {s : List Char} {fields : List (List Char × Json)}
    (h : Json.readText s = some (.obj fields)) : ∃ ws inner rest, Core s fields ws inner rest := by
  obtain ⟨⟨j, r⟩, hread, h⟩ := Option.bind_eq_some_iff.1 h
  dsimp only at h
  split at h
  next hr =>
    cases h
    obtain ⟨inner, hinner⟩ := exists_braces hread
    refine ⟨s.takeWhile Json.isSpace, inner, r, ?_, fun c hc => List.mem_takeWhile_imp hc,
      List.dropWhile_eq_nil_iff.1 hr, _, hinner ▸ hread⟩
    rw [← hinner]
    exact List.takeWhile_append_dropWhile.symm
  next => cases h

theorem prefix_of_append_cons {c : Char} : ∀ {u x y : List Char}, c ∉ u → u <+: x ++ c :: y → u <+: x
  | [], _, _, _, _             => List.nil_prefix
  | d :: u, [], y, hc, h        => by
    obtain ⟨rfl, -⟩ := List.cons_prefix_cons.1 h
    exact absurd List.mem_cons_self hc
  | d :: u, e :: x, y, hc, h    => by
    obtain ⟨rfl, htail⟩ := List.cons_prefix_cons.1 h
    exact List.cons_prefix_cons.2
      ⟨rfl, prefix_of_append_cons (fun hu => hc (List.mem_cons_of_mem _ hu)) htail⟩

theorem infix_of_append_cons {c : Char} {u y : List Char} (hc : c ∉ u) : ∀ {x : List Char},
    u <:+: x ++ c :: y → u <:+: x ∨ u <:+: y
  | [], h     => by
    rcases List.infix_cons_iff.1 h with hbegins | hinside
    · exact .inl (prefix_of_append_cons hc (show u <+: [] ++ c :: y from hbegins)).isInfix
    · exact .inr hinside
  | d :: x, h => by
    rcases List.infix_cons_iff.1 h with hbegins | hinside
    · exact .inl (prefix_of_append_cons hc (show u <+: (d :: x) ++ c :: y from hbegins)).isInfix
    · exact (infix_of_append_cons hc hinside).imp (fun h => h.trans (List.suffix_cons d x).isInfix) id

/-- A fence stands between the braces or nowhere. -/
theorem Core.fence_iff {s ws inner rest : List Char} {fields : List (List Char × Json)}
    (h : Core s fields ws inner rest) : fence <:+: s ↔ fence <:+: inner := by
  have hopen : '{' ∉ fence := by decide
  have hclose : '}' ∉ fence := by decide
  have hspaces : ∀ {x : List Char}, (∀ c ∈ x, Json.isSpace c = true) → ¬ fence <:+: x := by
    intro x hx hinside
    have htick := hx '`' (hinside.subset (by decide))
    cases htick
  rw [h.text]
  constructor
  · intro hinside
    rcases infix_of_append_cons hopen hinside with hws | hbehind
    · exact absurd hws (hspaces h.left)
    rcases infix_of_append_cons hclose hbehind with hinner | hrest
    · exact hinner
    · exact absurd hrest (hspaces h.right)
  · rintro ⟨a, b, rfl⟩
    exact ⟨ws ++ '{' :: a, b ++ '}' :: rest, by simp⟩

/-- The pieces of the object hide something exactly when it has a fence. -/
theorem hidden_iff {l s : List Char} {A B M : List Piece}
    (h : Scan FenceMatch l s (A ++ .keep '{' :: (M ++ .keep '}' :: B))) :
    hidden M = 0 ↔ ¬ fence <:+: orig M := by
  have hmask : ∀ m, .mask m ∈ M → FenceShape m := by
    intro m hm
    obtain ⟨l', b, hmatch⟩ := h.mem_mask m (by simp [hm])
    exact shape_of_match hmatch
  have hne : ∀ m, .mask m ∈ M → m ≠ [] := by
    intro m hm
    obtain ⟨more, rfl, -⟩ := (hmask m hm).parts
    exact List.cons_ne_nil _ _
  rw [hidden_eq_zero hne]
  constructor
  · intro hno hinside
    obtain ⟨a, b, hab⟩ := hinside
    have hkeeps := Subst.eq_keeps_orig hno
    rw [← hab] at hkeeps
    -- at the fence the scan would have found it
    have hsplit : A ++ .keep '{' :: (M ++ .keep '}' :: B) =
        (A ++ .keep '{' :: keeps a) ++ .keep '`' ::
          (.keep '`' :: .keep '`' :: (keeps b ++ .keep '}' :: B)) := by
      rw [hkeeps]
      simp [keeps, fence]
    rw [hsplit] at h
    refine noMatch_iff.1 h.rest.noMatch ⟨b ++ '}' :: orig B, ?_⟩
    simp [fence]
  · intro hfence m hm
    obtain ⟨more, rfl, -⟩ := (hmask m hm).parts
    obtain ⟨M₁, M₂, rfl⟩ := List.append_of_mem hm
    exact hfence ⟨orig M₁, more ++ orig M₂, by simp⟩

theorem Cut_spaces {r r' : List Char} {k : Nat} (h : Json.Cut r r' k)
    (hr : ∀ c ∈ r, Json.isSpace c = true) : k = 0 ∧ ∀ c ∈ r', Json.isSpace c = true := by
  induction h with
  | nil => exact ⟨rfl, hr⟩
  | stop _ => exact ⟨rfl, fun c hc => absurd hc List.not_mem_nil⟩
  | keep _ ih =>
    obtain ⟨hc, hrest⟩ := List.forall_mem_cons.1 hr
    obtain ⟨hk, hall⟩ := ih hrest
    exact ⟨hk, List.forall_mem_cons.2 ⟨hc, hall⟩⟩
  | drop hchunk _ _ =>
    obtain ⟨t, rfl⟩ := hchunk.eq_cons
    have htick := hr '`' (by simp)
    cases htick

/-! ## Prose -/

/-- What comes back from the object in brace-free prose. -/
theorem exists_parsed (word : Char → Bool) {s before after : List Char}
    {fields : List (List Char × Json)} (hs : Json.readText s = some (.obj fields))
    (hbefore : BraceFree before) (hafter : BraceFree after) :
    ∃ parsed k, parseLlmJson word (before ++ (s ++ after)) = asDict (Json.normal (.obj parsed)) ∧
      (k = 0 ↔ ¬ fence <:+: s) ∧ Json.size (.obj fields) = Json.size (.obj parsed) + k ∧
        (k = 0 → parsed = fields) := by
  obtain ⟨ws, inner, rest, hcore⟩ := exists_core hs
  obtain ⟨P, hscan, hcleaned⟩ := cleaned_eq (before ++ (s ++ after))
  have hshape : ∀ m, .mask m ∈ P → FenceShape m := by
    intro m hm
    obtain ⟨l, b, hmatch⟩ := hscan.mem_mask m hm
    exact shape_of_match hmatch
  have htext : orig P = (before ++ ws) ++ '{' :: (inner ++ '}' :: (rest ++ after)) := by
    rw [hscan.orig_eq, hcore.text]
    simp
  -- the braces of the object are kept, and cut the scan
  obtain ⟨A, Q, rfl, hA, hQ⟩ := Subst.exists_keep
    (fun m hm => (hshape m hm).not_mem (by decide) (by decide) (by decide)) htext
  obtain ⟨M, B, rfl, hM, hB⟩ := Subst.exists_keep
    (fun m hm => (hshape m (by simp [hm])).not_mem (by decide) (by decide) (by decide)) hQ
  have hshown : cleaned (before ++ (s ++ after)) =
      shown [] A ++ '{' :: (shown [] M ++ '}' :: shown [] B) := by
    rw [hcleaned]
    simp
  have hfound : findObject (cleaned (before ++ (s ++ after))) =
      some ('{' :: (shown [] M ++ ['}'])) := by
    rw [hshown]
    refine findObject_append (fun h => ?_) (fun h => ?_)
    · have hmem := mem_of_shown h
      rw [hA] at hmem
      rcases List.mem_append.1 hmem with hb | hw
      · exact hbefore.1 hb
      · exact (isSpace_of_json (hcore.left _ hw)).1 rfl
    · have hmem := mem_of_shown h
      rw [hB] at hmem
      rcases List.mem_append.1 hmem with hr | ha
      · exact (isSpace_of_json (hcore.right _ hr)).2.1 rfl
      · exact hafter.2 ha
  have hcut : Json.Cut ('{' :: (inner ++ '}' :: rest)) ('{' :: (shown [] M ++ ['}'])) (hidden M) := by
    rw [← hM]
    exact .keep (cut_of_pieces (fun m hm => (hshape m (by simp [hm])).chunk)
      (.keep (.stop hcore.right)))
  obtain ⟨n, hread⟩ := hcore.reads
  have hrest : rest.head? ≠ some '`' := by
    intro hhead
    cases rest with
    | nil => cases hhead
    | cons c t =>
      obtain rfl := Option.some.inj hhead
      exact (isSpace_of_json (hcore.right _ List.mem_cons_self)).2.2 rfl
  obtain ⟨j', r', d, k', hk, hread', hr', hsize, hsame⟩ := (Json.read_cut n).1 hread hrest hcut
  obtain ⟨rfl, hspaces⟩ := Cut_spaces hr' hcore.right
  obtain ⟨parsed, rfl⟩ := readValue_brace hread'
  have hloads : Json.loads ('{' :: (shown [] M ++ ['}'])) = some (Json.normal (.obj parsed)) := by
    have hskip : Json.skipSpaces ('{' :: (shown [] M ++ ['}'])) = '{' :: (shown [] M ++ ['}']) := rfl
    have hfuel := (Json.read_fuel n).1 hread' (m := ('{' :: (shown [] M ++ ['}'])).length + 1)
      (by omega)
    have hend : Json.skipSpaces r' = [] := List.dropWhile_eq_nil_iff.2 hspaces
    rw [Json.loads_eq_readText, Json.readText, hskip, hfuel, Option.bind_some, if_pos hend]
    rfl
  refine ⟨parsed, d, ?_, ?_, hsize, fun hd => ?_⟩
  · rw [parseLlmJson, hfound]
    dsimp only
    rw [hloads]
  · rw [Nat.add_zero] at hk
    rw [← hk, hidden_iff hscan, hM, hcore.fence_iff]
  · exact (Json.obj.inj (hsame hd))

/-- Every wrapping is brace-free prose. -/
theorem Wrapped.prose_of {s text : List Char} (h : Wrapped s text) :
    ∃ before after, BraceFree before ∧ BraceFree after ∧ text = before ++ (s ++ after) := by
  cases h with
  | alone => exact ⟨[], [], ⟨by decide, by decide⟩, ⟨by decide, by decide⟩, by simp⟩
  | @fenced info hinfo =>
    refine ⟨fence ++ info ++ ['\n'], '\n' :: fence, ⟨?_, ?_⟩, ⟨by decide, by decide⟩, by simp⟩
    · simp [fence, hinfo.1]
    · simp [fence, hinfo.2]
  | prose hbefore hafter => exact ⟨_, _, hbefore, hafter, rfl⟩

/-- **The object comes back exactly when no fence stands in its serialisation.** -/
theorem parseLlmJson_iff (word : Char → Bool) {s text : List Char}
    {fields : List (List Char × Json)} (hs : Serialises s fields) (hw : Wrapped s text) :
    parseLlmJson word text = some fields ↔ ¬ fence <:+: s := by
  obtain ⟨before, after, hbefore, hafter, rfl⟩ := hw.prose_of
  obtain ⟨parsed, k, hparse, hfence, hsize, hsame⟩ := exists_parsed word hs.reads hbefore hafter
  rw [hparse, ← hfence]
  constructor
  · intro h
    have hnormal : Json.normal (.obj parsed) = .obj fields := by
      cases hj : Json.normal (.obj parsed) with
      | obj fs =>
        rw [hj] at h
        rw [Option.some.inj h]
      | _ => rw [hj] at h; cases h
    have hle := Json.size_normal (.obj parsed)
    rw [hnormal] at hle
    omega
  · intro hk
    rw [hsame hk, Json.normal_of_valid _ hs.valid]
    rfl

def oneValue (value : List Char) : List (List Char × Json) := [(['k', 'e', 'y'], .str value)]

def oneValueText (value : List Char) : List Char :=
  ['{', '"', 'k', 'e', 'y', '"', ':', ' ', '"'] ++ value ++ ['"', '}']

theorem serialises_oneValue {value : List Char}
    (h : Json.readText (oneValueText value) = some (.obj (oneValue value))) :
    Serialises (oneValueText value) (oneValue value) :=
  ⟨h, by simp [oneValue], trivial, trivial⟩

theorem parseLlmJson_fenced_value :
    parseLlmJson Char.isAlphanum
        (fence ++ language ++ '\n' :: (oneValueText ['4', '-', '6'] ++ '\n' :: fence)) =
      some (oneValue ['4', '-', '6']) :=
  (parseLlmJson_iff Char.isAlphanum (serialises_oneValue rfl)
    (.fenced ⟨by decide, by decide⟩)).2 (by decide)

/-! ## A value with a fence -/

theorem not_parsed_fence : ¬ ∀ (word : Char → Bool) (s text : List Char)
    (fields : List (List Char × Json)), Serialises s fields → Wrapped s text →
      parseLlmJson word text = some fields := by
  intro hall
  have hreads : Json.readText (oneValueText fence) = some (.obj (oneValue fence)) := rfl
  have hparse : parseLlmJson Char.isAlphanum (oneValueText fence) = some (oneValue []) := rfl
  have hsame := hall Char.isAlphanum _ _ _ (serialises_oneValue hreads) .alone
  rw [hparse] at hsame
  cases hsame

end DocumentAi.LlmJson
