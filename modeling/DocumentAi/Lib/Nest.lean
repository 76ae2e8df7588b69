import Mathlib.Data.List.Perm.Basic
import Mathlib.Logic.Function.Basic

/-!
# Nested dictionaries and insertion by path

| here | meaning |
| --- | --- |
| `Node`      | a dictionary, as the function of its lookups, or another value |
| `insertAt`  | `setdefault(part, {})` along a path, then an assignment of its last part |
| `Holds`     | each entry is at its path, and nothing else is in the dictionary |
| `Lossless`  | in every order the entries give one dictionary, and it holds them |

Entries compete for a node when one path is a prefix of another. Main results:
`lossless_of_prefixFree`; `Holds.inside`, what else follows when two paths do compete.
-/

namespace Nest

inductive Node (K V : Type) where
  | atom (v : V)
  | dict (members : K → Option (Node K V))

inductive Refused where
  /-- An item is assigned to a value that is no dictionary. -/
  | typeError
  /-- A value that is no dictionary is asked for `setdefault`. -/
  | attributeError
deriving DecidableEq

variable {K V : Type}

namespace Node

def empty : Node K V := .dict fun _ => none

def get : List K → Node K V → Option (Node K V)
  | [], n          => some n
  | k :: p, dict m => (m k).bind (get p)
  | _ :: _, atom _ => none

@[simp] theorem get_nil (n : Node K V) : n.get [] = some n := by cases n <;> rfl

@[simp] theorem get_cons_dict (k : K) (p : List K) (m : K → Option (Node K V)) :
    (dict m).get (k :: p) = (m k).bind (get p) := rfl

@[simp] theorem get_cons_atom (k : K) (p : List K) (v : V) : (atom v).get (k :: p) = none := rfl

theorem get_append : ∀ (p q : List K) (n : Node K V), n.get (p ++ q) = (n.get p).bind (get q)
  | [], q, n => by rw [List.nil_append, get_nil, Option.bind_some]
  | k :: p, q, atom v => rfl
  | k :: p, q, dict m => by
    rw [List.cons_append, get_cons_dict, get_cons_dict]
    cases m k with
    | none => rfl
    | some n => exact get_append p q n

/-- What lies beyond a path that ends in something lies in a dictionary. -/
theorem dict_of_get_append {p q : List K} {n n' : Node K V} (hq : q ≠ [])
    (h : n.get (p ++ q) = some n') : ∃ m, n.get p = some (dict m) := by
  rw [get_append] at h
  obtain ⟨a, ha, hqa⟩ := Option.bind_eq_some_iff.1 h
  cases a with
  | dict m => exact ⟨m, ha⟩
  | atom v =>
    cases q with
    | nil => exact absurd rfl hq
    | cons k q => cases hqa

/-! ### A node is what the lookups see -/

/-- Nothing, a dictionary, or the value. -/
def kind : Option (Node K V) → Option (Option V)
  | none          => none
  | some (dict _) => some none
  | some (atom v) => some (some v)

mutual

theorem eq_of_kind : ∀ n n' : Node K V, (∀ p, kind (n.get p) = kind (n'.get p)) → n = n'
  | atom v, atom v', h => by
    have hv := h []
    simp only [get_nil, kind, Option.some.injEq] at hv
    rw [hv]
  | atom _, dict _, h  => by cases h []
  | dict _, atom _, h  => by cases h []
  | dict m, dict m', h =>
    congrArg dict (funext fun k => eq_of_kind_option (m k) (m' k) fun p => h (k :: p))

theorem eq_of_kind_option : ∀ o o' : Option (Node K V),
    (∀ p, kind (o.bind (get p)) = kind (o'.bind (get p))) → o = o'
  | none, none, _       => rfl
  | none, some n, h     => by
    have hn := h []
    cases n <;> cases hn
  | some n, none, h     => by
    have hn := h []
    cases n <;> cases hn
  | some n, some n', h  => congrArg some (eq_of_kind n n' h)

end

end Node

/-! ## Insertion -/

section
variable [DecidableEq K]

def insertAt (entry : Node K V) : List K → Node K V → Except Refused (Node K V)
  | [], _           => .ok entry
  | k :: p, .dict m =>
    (insertAt entry p ((m k).getD .empty)).map fun n => .dict (Function.update m k (some n))
  | _ :: p, .atom _ => .error (if p.isEmpty then .typeError else .attributeError)

def insertAll (flat : List (List K × Node K V)) (n : Node K V) : Except Refused (Node K V) :=
  flat.foldlM (fun n e => insertAt e.2 e.1 n) n

end

/-- What a nested dictionary holds of a flat one. -/
structure Holds (flat : List (List K × Node K V)) (n : Node K V) : Prop where
  root    : ∃ m, n = .dict m
  entries : ∀ e ∈ flat, n.get e.1 = some e.2
  only    : ∀ p ≠ [], (n.get p).isSome = true → ∃ e ∈ flat, p <+: e.1 ∨ e.1 <+: p

def Lossless [DecidableEq K] (flat : List (List K × Node K V)) : Prop :=
  ∃ n, Holds flat n ∧ ∀ order, order.Perm flat → insertAll order .empty = .ok n

/-- No path is empty, and of two entries neither path is a prefix of the other. -/
structure PrefixFree (flat : List (List K × Node K V)) : Prop where
  nonempty : ∀ e ∈ flat, e.1 ≠ []
  apart    : flat.Pairwise fun e e' => ¬ e.1 <+: e'.1 ∧ ¬ e'.1 <+: e.1

theorem PrefixFree.perm {flat order : List (List K × Node K V)} (h : PrefixFree flat)
    (hp : order.Perm flat) : PrefixFree order :=
  ⟨fun e he => h.nonempty e (hp.mem_iff.1 he),
    (hp.pairwise_iff fun ⟨h, h'⟩ => ⟨h', h⟩).2 h.apart⟩

theorem Holds.perm {flat order : List (List K × Node K V)} {n : Node K V} (h : Holds order n)
    (hp : order.Perm flat) : Holds flat n := by
  refine ⟨h.root, fun e he => h.entries e (hp.mem_iff.2 he), fun p hne hp' => ?_⟩
  obtain ⟨e, he, hpre⟩ := h.only p hne hp'
  exact ⟨e, hp.mem_iff.1 he, hpre⟩

/-- The entries determine the dictionary. -/
theorem Holds.unique {flat : List (List K × Node K V)} {n n' : Node K V} (h : Holds flat n)
    (h' : Holds flat n') : n = n' := by
  refine Node.eq_of_kind n n' fun p => ?_
  by_cases hnil : p = []
  · obtain ⟨m, rfl⟩ := h.root
    obtain ⟨m', rfl⟩ := h'.root
    rw [hnil]
    rfl
  by_cases hbelow : ∃ e ∈ flat, e.1 <+: p
  · obtain ⟨e, he, q, rfl⟩ := hbelow
    rw [Node.get_append, Node.get_append, h.entries e he, h'.entries e he]
  by_cases habove : ∃ e ∈ flat, p <+: e.1
  · obtain ⟨e, he, q, hq⟩ := habove
    have hqne : q ≠ [] := by
      rintro rfl
      rw [List.append_nil] at hq
      exact hbelow ⟨e, he, hq ▸ List.prefix_refl _⟩
    have hentry := h.entries e he
    have hentry' := h'.entries e he
    rw [← hq] at hentry hentry'
    obtain ⟨m, hm⟩ := Node.dict_of_get_append hqne hentry
    obtain ⟨m', hm'⟩ := Node.dict_of_get_append hqne hentry'
    rw [hm, hm']
    rfl
  have hnone : ∀ {n : Node K V}, Holds flat n → n.get p = none := by
    intro n hn
    by_contra hsome
    obtain ⟨e, he, hp | hp⟩ := hn.only p hnil (Option.isSome_iff_ne_none.2 hsome)
    · exact habove ⟨e, he, hp⟩
    · exact hbelow ⟨e, he, hp⟩
  rw [hnone h, hnone h']

/-- Of two entries with comparable paths one lies inside the other. -/
theorem Holds.inside {flat : List (List K × Node K V)} {n : Node K V} (h : Holds flat n)
    {e e' : List K × Node K V} (he : e ∈ flat) (he' : e' ∈ flat) {q : List K} (hq : e'.1 = e.1 ++ q) :
    e.2.get q = some e'.2 := by
  have hget := h.entries e' he'
  rw [hq, Node.get_append, h.entries e he] at hget
  exact hget

theorem holds_empty : Holds ([] : List (List K × Node K V)) .empty := by
  refine ⟨⟨_, rfl⟩, fun e he => (by cases he), fun p hp hsome => ?_⟩
  cases p with
  | nil => exact absurd rfl hp
  | cons k p => cases hsome

/-! ## What one insertion does -/

section
variable [DecidableEq K] {entry : Node K V}

/-- An insertion that meets no atom before the end of its path succeeds. -/
theorem insertAt_ok : ∀ {path : List K} {n : Node K V},
    (∀ p q, path = p ++ q → q ≠ [] → ∀ v, n.get p ≠ some (.atom v)) →
      ∃ n', insertAt entry path n = .ok n'
  | [], _, _              => ⟨entry, rfl⟩
  | k :: path, .atom v, h => absurd (Node.get_nil _) (h [] (k :: path) rfl (List.cons_ne_nil _ _) v)
  | k :: path, .dict m, h => by
    have hsub : ∀ p q, path = p ++ q → q ≠ [] → ∀ v, ((m k).getD .empty).get p ≠ some (.atom v) := by
      intro p q hpq hq v hv
      cases hk : m k with
      | some n =>
        rw [hk] at hv
        refine h (k :: p) q (by rw [hpq]; rfl) hq v ?_
        rw [Node.get_cons_dict, hk]
        exact hv
      | none =>
        rw [hk] at hv
        cases p with
        | nil => cases hv
        | cons k' p => cases hv
    obtain ⟨n', hn'⟩ := insertAt_ok hsub
    exact ⟨_, by rw [insertAt, hn']; rfl⟩

theorem insertAt_cons {k : K} {path : List K} {n n' : Node K V}
    (h : insertAt entry (k :: path) n = .ok n') : ∃ m sub, n = .dict m ∧
      insertAt entry path ((m k).getD .empty) = .ok sub ∧ n' = .dict (Function.update m k (some sub)) := by
  cases n with
  | atom v => cases h
  | dict m =>
    rw [insertAt] at h
    cases hsub : insertAt entry path ((m k).getD .empty) with
    | error e =>
      rw [hsub] at h
      cases h
    | ok sub =>
      rw [hsub] at h
      cases h
      exact ⟨m, sub, rfl, hsub, rfl⟩

theorem get_insertAt_self : ∀ {path : List K} {n n' : Node K V},
    insertAt entry path n = .ok n' → n'.get path = some entry
  | [], n, n', h        => by
    cases h
    exact Node.get_nil _
  | k :: path, n, n', h => by
    obtain ⟨m, sub, rfl, hsub, rfl⟩ := insertAt_cons h
    rw [Node.get_cons_dict, Function.update_self, Option.bind_some]
    exact get_insertAt_self hsub

/-- Frame: a path beside the one of the insertion. -/
theorem get_insertAt_of_apart : ∀ {path q : List K} {n n' : Node K V},
    insertAt entry path n = .ok n' → ¬ path <+: q → ¬ q <+: path → n'.get q = n.get q
  | [], q, _, _, _, hp, _                => absurd List.nil_prefix hp
  | _ :: _, [], _, _, _, _, hq           => absurd List.nil_prefix hq
  | k :: path, k' :: q, n, n', h, hp, hq => by
    obtain ⟨m, sub, rfl, hsub, rfl⟩ := insertAt_cons h
    rw [Node.get_cons_dict, Node.get_cons_dict]
    by_cases hk : k' = k
    · subst hk
      have hp' : ¬ path <+: q := fun hpre => hp (List.cons_prefix_cons.2 ⟨rfl, hpre⟩)
      have hq' : ¬ q <+: path := fun hpre => hq (List.cons_prefix_cons.2 ⟨rfl, hpre⟩)
      rw [Function.update_self, Option.bind_some, get_insertAt_of_apart hsub hp' hq']
      cases hm : m k' with
      | some a => rfl
      | none =>
        cases q with
        | nil => exact absurd List.nil_prefix hq'
        | cons a q => rfl
    · rw [Function.update_of_ne hk]

theorem Holds.insertAt {flat : List (List K × Node K V)} {n : Node K V} {path : List K}
    (h : Holds flat n) (hne : path ≠ []) (hapart : ∀ e ∈ flat, ¬ path <+: e.1 ∧ ¬ e.1 <+: path) :
    ∃ n', Nest.insertAt entry path n = .ok n' ∧ Holds ((path, entry) :: flat) n' := by
  have hfree : ∀ p q, path = p ++ q → q ≠ [] → ∀ v, n.get p ≠ some (.atom v) := by
    intro p q hpath hq v hv
    by_cases hnil : p = []
    · obtain ⟨m, rfl⟩ := h.root
      rw [hnil] at hv
      cases hv
    obtain ⟨e, he, ⟨r, hr⟩ | hpre⟩ := h.only p hnil (by rw [hv]; rfl)
    · have hrne : r ≠ [] := by
        rintro rfl
        rw [List.append_nil] at hr
        exact (hapart e he).2 ⟨q, by rw [← hr, hpath]⟩
      have hentry := h.entries e he
      rw [← hr] at hentry
      obtain ⟨m, hm⟩ := Node.dict_of_get_append hrne hentry
      rw [hm] at hv
      cases hv
    · exact (hapart e he).2 (hpre.trans ⟨q, hpath.symm⟩)
  obtain ⟨n', hn'⟩ : ∃ n', Nest.insertAt entry path n = .ok n' := insertAt_ok hfree
  refine ⟨n', hn', ?_, ?_, ?_⟩
  · cases path with
    | nil => exact absurd rfl hne
    | cons k path =>
      obtain ⟨m, sub, -, -, rfl⟩ := insertAt_cons hn'
      exact ⟨_, rfl⟩
  · intro e he
    rcases List.mem_cons.1 he with rfl | he
    · exact get_insertAt_self hn'
    · rw [get_insertAt_of_apart hn' (hapart e he).1 (hapart e he).2]
      exact h.entries e he
  · intro p hp hsome
    by_cases hbelow : path <+: p
    · exact ⟨_, List.mem_cons_self, .inr hbelow⟩
    by_cases habove : p <+: path
    · exact ⟨_, List.mem_cons_self, .inl habove⟩
    rw [get_insertAt_of_apart hn' hbelow habove] at hsome
    obtain ⟨e, he, hpre⟩ := h.only p hp hsome
    exact ⟨e, List.mem_cons_of_mem _ he, hpre⟩

/-- Insertion of all the entries, after those of `done`. -/
theorem Holds.insertAll : ∀ {flat done : List (List K × Node K V)} {n : Node K V},
    Holds done n → PrefixFree (flat ++ done) →
      ∃ n', Nest.insertAll flat n = .ok n' ∧ Holds (flat ++ done) n'
  | [], _, n, h, _             => ⟨n, rfl, h⟩
  | e :: flat, done, n, h, hpf => by
    have hmem : e ∈ e :: flat ++ done := List.mem_cons_self
    have hperm : (flat ++ e :: done).Perm (e :: flat ++ done) := List.perm_middle
    have hapart : ∀ e' ∈ done, ¬ e.1 <+: e'.1 ∧ ¬ e'.1 <+: e.1 := fun e' he' =>
      (List.pairwise_cons.1 hpf.apart).1 e' (List.mem_append_right _ he')
    obtain ⟨n', hn', hholds⟩ : ∃ n', Nest.insertAt e.2 e.1 n = .ok n' ∧ Holds ((e.1, e.2) :: done) n' :=
      h.insertAt (hpf.nonempty e hmem) hapart
    obtain ⟨n'', hn'', hholds'⟩ := Holds.insertAll hholds (hpf.perm hperm)
    refine ⟨n'', ?_, hholds'.perm hperm⟩
    rw [Nest.insertAll, List.foldlM_cons, hn']
    exact hn''

/-- **Entries none of whose paths is a prefix of another are nested without loss.** -/
theorem lossless_of_prefixFree {flat : List (List K × Node K V)} (h : PrefixFree flat) :
    Lossless flat := by
  have hall : ∀ order, order.Perm flat → ∃ n, insertAll order .empty = .ok n ∧ Holds flat n := by
    intro order hp
    have hfree : PrefixFree (order ++ []) := by
      rw [List.append_nil]
      exact h.perm hp
    obtain ⟨n, hn, hholds⟩ := holds_empty.insertAll hfree
    rw [List.append_nil] at hholds
    exact ⟨n, hn, hholds.perm hp⟩
  obtain ⟨n, -, hholds⟩ := hall flat (List.Perm.refl _)
  refine ⟨n, hholds, fun order hp => ?_⟩
  obtain ⟨n', hn', hholds'⟩ := hall order hp
  rw [hn', hholds'.unique hholds]

end

end Nest
