import Mathlib.Algebra.GroupWithZero.Nat
import Mathlib.Algebra.BigOperators.Group.List.Basic
import Mathlib.Data.List.Nodup

/-!
# Dictionaries of counts

A count is kept under its key, in the order in which the keys first came.

| here | Python |
| --- | --- |
| `add k n c` | `c[k] = c.get(k, 0) + n` |
| `get c k`   | `c.get(k, 0)` |
| `merge c d` | `for k, n in d.items(): c[k] = c.get(k, 0) + n` |
| `total c`   | `sum(c.values())` |
| `Same c d`  | `c == d` |
| `Valid c`   | no key twice and no count zero: such a dictionary is determined by `get` |
-/

abbrev Counter (κ : Type) : Type := List (κ × Nat)

namespace Counter

variable {κ : Type} [DecidableEq κ]

def add (k : κ) (n : Nat) : Counter κ → Counter κ
  | []             => [(k, n)]
  | (j, m) :: rest => if j = k then (j, m + n) :: rest else (j, m) :: add k n rest

def get (c : Counter κ) (k : κ) : Nat := (c.lookup k).getD 0

def total (c : Counter κ) : Nat := (c.map Prod.snd).sum

def merge (c d : Counter κ) : Counter κ := d.foldl (fun c e => add e.1 e.2 c) c

def Same (c d : Counter κ) : Prop := ∀ k, c.lookup k = d.lookup k

structure Valid (c : Counter κ) : Prop where
  nodup : (c.map Prod.fst).Nodup
  pos   : ∀ e ∈ c, 0 < e.2

variable {c d : Counter κ}

@[simp] theorem get_nil (k : κ) : get ([] : Counter κ) k = 0 := rfl

theorem get_cons (j : κ) (m : Nat) (rest : Counter κ) (k : κ) :
    get ((j, m) :: rest) k = if k = j then m else get rest k := by
  unfold get
  rw [List.lookup_cons]
  by_cases h : k = j
  · rw [if_pos h, beq_iff_eq.2 h]
    rfl
  · rw [if_neg h, beq_eq_false_iff_ne.2 h]

@[simp] theorem get_add (k : κ) (n : Nat) (c : Counter κ) (j : κ) :
    get (add k n c) j = get c j + if j = k then n else 0 := by
  induction c with
  | nil => rw [add, get_cons, get_nil, Nat.zero_add]
  | cons e rest ih =>
    obtain ⟨i, m⟩ := e
    rw [add]
    split
    next hik =>
      subst hik
      rw [get_cons, get_cons]
      split
      · rfl
      · rfl
    next hik =>
      rw [get_cons, get_cons]
      by_cases hj : j = i
      · rw [if_pos hj, if_pos hj, if_neg (fun hjk => hik (hj.symm.trans hjk)), Nat.add_zero]
      · rw [if_neg hj, if_neg hj, ih]

@[simp] theorem total_add (k : κ) (n : Nat) (c : Counter κ) : total (add k n c) = total c + n := by
  induction c with
  | nil => exact Nat.add_comm n 0
  | cons e rest ih =>
    obtain ⟨i, m⟩ := e
    unfold total at ih ⊢
    rw [add]
    split
    · simp only [List.map_cons, List.sum_cons]
      omega
    · simp only [List.map_cons, List.sum_cons, ih]
      omega

theorem mem_keys_add {k j : κ} {n : Nat} :
    j ∈ (add k n c).map Prod.fst ↔ j = k ∨ j ∈ c.map Prod.fst := by
  induction c with
  | nil => simp [add]
  | cons e rest ih =>
    obtain ⟨i, m⟩ := e
    rw [add]
    split
    next hik =>
      subst hik
      simp
    next hik =>
      simp only [List.map_cons, List.mem_cons, ih]
      tauto

omit [DecidableEq κ] in
theorem valid_nil : Valid ([] : Counter κ) := ⟨List.nodup_nil, fun _ h => by cases h⟩

theorem Valid.add (h : Valid c) (k : κ) {n : Nat} (hn : 0 < n) : Valid (add k n c) := by
  induction c with
  | nil =>
    refine ⟨List.nodup_singleton k, fun e he => ?_⟩
    rw [List.mem_singleton.1 he]
    exact hn
  | cons e rest ih =>
    obtain ⟨i, m⟩ := e
    obtain ⟨hnodup, hpos⟩ := h
    rw [List.map_cons, List.nodup_cons] at hnodup
    rw [List.forall_mem_cons] at hpos
    rw [Counter.add]
    split
    next hik =>
      exact ⟨by rw [List.map_cons, List.nodup_cons]; exact hnodup,
        List.forall_mem_cons.2 ⟨Nat.add_pos_left hpos.1 n, hpos.2⟩⟩
    next hik =>
      obtain ⟨hnodup', hpos'⟩ := ih ⟨hnodup.2, hpos.2⟩
      refine ⟨?_, List.forall_mem_cons.2 ⟨hpos.1, hpos'⟩⟩
      rw [List.map_cons, List.nodup_cons]
      refine ⟨fun hmem => ?_, hnodup'⟩
      rcases mem_keys_add.1 hmem with hi | hi
      · exact hik hi
      · exact hnodup.1 hi

theorem get_eq_zero_of_not_mem {k : κ} (h : k ∉ c.map Prod.fst) : get c k = 0 := by
  induction c with
  | nil => rfl
  | cons e rest ih =>
    rw [List.map_cons, List.mem_cons, not_or] at h
    rw [get_cons, if_neg h.1, ih h.2]

theorem get_merge (hd : (d.map Prod.fst).Nodup) (k : κ) : get (merge c d) k = get c k + get d k := by
  induction d generalizing c with
  | nil => rfl
  | cons e rest ih =>
    obtain ⟨i, m⟩ := e
    rw [List.map_cons, List.nodup_cons] at hd
    have hstep : merge c ((i, m) :: rest) = merge (add i m c) rest := rfl
    rw [hstep, ih hd.2, get_add, get_cons]
    by_cases hk : k = i
    · have hzero : get rest k = 0 := get_eq_zero_of_not_mem (hk ▸ hd.1)
      rw [if_pos hk, if_pos hk, hzero, Nat.add_zero]
    · rw [if_neg hk, if_neg hk, Nat.add_zero]

theorem Valid.merge (hc : Valid c) (hd : ∀ e ∈ d, 0 < e.2) : Valid (merge c d) := by
  induction d generalizing c with
  | nil => exact hc
  | cons e rest ih =>
    obtain ⟨he, hrest⟩ := List.forall_mem_cons.1 hd
    exact ih (hc.add e.1 he) hrest

theorem Valid.lookup_eq (h : Valid c) (k : κ) :
    c.lookup k = if get c k = 0 then none else some (get c k) := by
  unfold get
  cases hk : c.lookup k with
  | none => rfl
  | some n =>
    have hmem : (k, n) ∈ c := by
      obtain ⟨l₁, l₂, hl, -⟩ := List.lookup_eq_some_iff.1 hk
      rw [hl]
      simp
    have hn : n ≠ 0 := Nat.ne_of_gt (h.pos _ hmem)
    rw [Option.getD_some, if_neg hn]

theorem Valid.same (hc : Valid c) (hd : Valid d) (h : ∀ k, get c k = get d k) : Same c d := by
  intro k
  rw [hc.lookup_eq, hd.lookup_eq, h k]

end Counter
