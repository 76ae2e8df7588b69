import Mathlib.Algebra.BigOperators.Group.List.Basic
import Mathlib.Data.List.Induction
import Mathlib.Data.List.Nodup
import Mathlib.Tactic.Abel

/-!
# Dictionaries and grouping

Keys stay in the order in which they first came.

| here | Python |
| --- | --- |
| `update k a f d`        | `d[k] = f(d.get(k, a))` |
| `assign k a d`          | `d[k] = a` |
| `rs.foldl (fun d r => assign (key r) (f r) d) []` | `{key(r): f(r) for r in rs}` |
| `groupFold key a step`  | `for r in rs: d[key(r)] = step(d.get(key(r), a), r)` |
-/

namespace Dict

variable {κ α ρ M : Type} [DecidableEq κ]

def update (k : κ) (default : α) (f : α → α) : List (κ × α) → List (κ × α)
  | []             => [(k, f default)]
  | (j, a) :: rest => if j = k then (j, f a) :: rest else (j, a) :: update k default f rest

def assign (k : κ) (a : α) (d : List (κ × α)) : List (κ × α) := update k a (fun _ => a) d

def groupFold (key : ρ → κ) (default : α) (step : α → ρ → α) (rs : List ρ) : List (κ × α) :=
  rs.foldl (fun d r => update (key r) default (step · r) d) []

section
variable {k : κ} {default : α} {f : α → α}

theorem lookup_update (d : List (κ × α)) (j : κ) : (update k default f d).lookup j =
    if j = k then some (f ((d.lookup k).getD default)) else d.lookup j := by
  induction d with
  | nil =>
    rw [update, List.lookup_cons]
    by_cases hj : j = k
    · rw [if_pos hj, beq_iff_eq.2 hj]
      rfl
    · rw [if_neg hj, beq_eq_false_iff_ne.2 hj]
  | cons e rest ih =>
    obtain ⟨i, a⟩ := e
    rw [update]
    split
    next hik =>
      subst hik
      simp only [List.lookup_cons, beq_self_eq_true, Option.getD_some]
      by_cases hj : j = i
      · rw [if_pos hj, beq_iff_eq.2 hj]
      · rw [if_neg hj, beq_eq_false_iff_ne.2 hj]
    next hik =>
      have hki : (k == i) = false := beq_eq_false_iff_ne.2 fun h => hik h.symm
      rw [List.lookup_cons, List.lookup_cons, List.lookup_cons, hki, ih]
      by_cases hj : j = i
      · have hjk : ¬ j = k := fun h => hik (hj.symm.trans h)
        simp only [beq_iff_eq.2 hj, if_neg hjk]
      · rw [beq_eq_false_iff_ne.2 hj]

theorem update_of_not_mem {d : List (κ × α)} (h : k ∉ d.map Prod.fst) :
    update k default f d = d ++ [(k, f default)] := by
  induction d with
  | nil => rfl
  | cons e rest ih =>
    rw [List.map_cons, List.mem_cons, not_or] at h
    rw [update, if_neg (Ne.symm h.1), ih h.2, List.cons_append]

theorem mem_keys_update {d : List (κ × α)} {j : κ} :
    j ∈ (update k default f d).map Prod.fst ↔ j = k ∨ j ∈ d.map Prod.fst := by
  induction d with
  | nil => simp [update]
  | cons e rest ih =>
    obtain ⟨i, a⟩ := e
    rw [update]
    split
    next hik =>
      subst hik
      simp
    next =>
      simp only [List.map_cons, List.mem_cons, ih]
      tauto

theorem keys_update_of_mem {d : List (κ × α)} (h : k ∈ d.map Prod.fst) :
    (update k default f d).map Prod.fst = d.map Prod.fst := by
  induction d with
  | nil => cases h
  | cons e rest ih =>
    obtain ⟨i, a⟩ := e
    rw [update]
    split
    · rfl
    next hik =>
      rw [List.map_cons, List.map_cons, ih ((List.mem_cons.1 h).resolve_left (Ne.symm hik))]

theorem nodup_keys_update {d : List (κ × α)} (h : (d.map Prod.fst).Nodup) :
    ((update k default f d).map Prod.fst).Nodup := by
  induction d with
  | nil => exact List.nodup_singleton k
  | cons e rest ih =>
    obtain ⟨i, a⟩ := e
    rw [List.map_cons, List.nodup_cons] at h
    rw [update]
    split
    · rw [List.map_cons, List.nodup_cons]
      exact h
    next hik =>
      rw [List.map_cons, List.nodup_cons]
      refine ⟨fun hmem => ?_, ih h.2⟩
      rcases mem_keys_update.1 hmem with hi | hi
      · exact hik hi
      · exact h.1 hi

/-- An entry is one of before or the new one. -/
theorem forall_assign {P : α → Prop} {a : α} {d : List (κ × α)} (hd : ∀ e ∈ d, P e.2) (ha : P a) :
    ∀ e ∈ assign k a d, P e.2 := by
  induction d with
  | nil =>
    intro e he
    cases List.mem_singleton.1 he
    exact ha
  | cons e' rest ih =>
    obtain ⟨i, b⟩ := e'
    have hrest := fun e he => hd e (List.mem_cons_of_mem _ he)
    rw [assign, update]
    split
    · intro e he
      rcases List.mem_cons.1 he with rfl | he
      · exact ha
      · exact hrest e he
    · intro e he
      rcases List.mem_cons.1 he with rfl | he
      · exact hd _ List.mem_cons_self
      · exact ih hrest e he

/-- A change by `x` of one entry changes the sum over the entries by `x`. -/
theorem sum_update [AddCommMonoid M] {g : α → M} {x : M} (hf : ∀ a, g (f a) = g a + x)
    (h0 : g default = 0) (d : List (κ × α)) :
    ((update k default f d).map fun e => g e.2).sum = (d.map fun e => g e.2).sum + x := by
  induction d with
  | nil => simp [update, hf, h0]
  | cons e rest ih =>
    obtain ⟨i, a⟩ := e
    rw [update]
    split
    · simp only [List.map_cons, List.sum_cons, hf]
      abel
    · simp only [List.map_cons, List.sum_cons, ih]
      abel

end

theorem lookup_map_key (g : κ → α → ρ) (d : List (κ × α)) (k : κ) :
    (d.map fun e => (e.1, g e.1 e.2)).lookup k = (d.lookup k).map (g k) := by
  induction d with
  | nil => rfl
  | cons e rest ih =>
    obtain ⟨j, a⟩ := e
    rw [List.map_cons, List.lookup_cons, List.lookup_cons]
    by_cases hk : k = j
    · rw [hk, beq_self_eq_true]
      rfl
    · rw [beq_eq_false_iff_ne.2 hk]
      exact ih

theorem lookup_map (g : α → ρ) (d : List (κ × α)) (k : κ) :
    (d.map fun e => (e.1, g e.2)).lookup k = (d.lookup k).map g :=
  lookup_map_key (fun _ => g) d k

theorem lookup_filter (p : κ → Bool) (d : List (κ × α)) (k : κ) :
    (d.filter fun e => p e.1).lookup k = if p k then d.lookup k else none := by
  induction d with
  | nil => simp
  | cons e rest ih =>
    obtain ⟨i, a⟩ := e
    rw [List.filter_cons, List.lookup_cons]
    by_cases hk : k = i
    · subst hk
      cases hp : p k with
      | true => rw [if_pos rfl, List.lookup_cons, if_pos rfl, beq_self_eq_true]
      | false => simpa [hp] using ih
    · rw [beq_eq_false_iff_ne.2 hk, ← ih]
      cases p i with
      | true => rw [if_pos rfl, List.lookup_cons, beq_eq_false_iff_ne.2 hk]
      | false => rw [if_neg Bool.false_ne_true]

theorem lookup_of_mem {d : List (κ × α)} (h : (d.map Prod.fst).Nodup) {e : κ × α} (he : e ∈ d) :
    d.lookup e.1 = some e.2 := by
  induction d with
  | nil => cases he
  | cons e' rest ih =>
    rw [List.map_cons, List.nodup_cons] at h
    rw [List.lookup_cons]
    rcases List.mem_cons.1 he with rfl | he
    · rw [beq_self_eq_true]
    · have hne : (e.1 == e'.1) = false :=
        beq_eq_false_iff_ne.2 fun heq => h.1 (heq ▸ List.mem_map_of_mem he)
      rw [hne]
      exact ih h.2 he

/-! ## Assignments in turn -/

section
variable {key : ρ → κ} {f : ρ → α}

theorem assignAll_concat (rs : List ρ) (r : ρ) :
    (rs ++ [r]).foldl (fun d r => assign (key r) (f r) d) [] =
      assign (key r) (f r) (rs.foldl (fun d r => assign (key r) (f r) d) []) := by
  rw [List.foldl_append]
  rfl

/-- The last assignment to a key stands. -/
theorem lookup_assignAll (rs : List ρ) (k : κ) :
    (rs.foldl (fun d r => assign (key r) (f r) d) []).lookup k =
      (rs.reverse.find? fun r => key r = k).map f := by
  induction rs using List.reverseRecOn with
  | nil => rfl
  | append_singleton rs r ih =>
    rw [assignAll_concat, assign, lookup_update, ih, List.reverse_append, List.reverse_singleton,
      List.singleton_append, List.find?_cons]
    by_cases hk : k = key r
    · rw [if_pos hk, decide_eq_true hk.symm]
      rfl
    · rw [if_neg hk, decide_eq_false fun h => hk h.symm]

theorem assignAll_eq_nil {rs : List ρ} :
    rs.foldl (fun d r => assign (key r) (f r) d) [] = [] ↔ rs = [] := by
  constructor
  · intro h
    induction rs using List.reverseRecOn with
    | nil => rfl
    | append_singleton rs r ih =>
      rw [assignAll_concat] at h
      have hmem : key r ∈ (assign (key r) (f r)
          (rs.foldl (fun d r => assign (key r) (f r) d) [])).map Prod.fst :=
        mem_keys_update.2 (.inl rfl)
      rw [h] at hmem
      cases hmem
  · rintro rfl
    rfl

end

section
variable {key : ρ → κ} {f : ρ → α}

theorem mem_keys_assignAll {rs : List ρ} {k : κ} :
    k ∈ (rs.foldl (fun d r => assign (key r) (f r) d) []).map Prod.fst ↔ ∃ r ∈ rs, key r = k := by
  induction rs using List.reverseRecOn with
  | nil => simp
  | append_singleton rs r ih =>
    rw [assignAll_concat, assign, mem_keys_update, ih]
    simp only [List.mem_append, List.mem_singleton]
    constructor
    · rintro (rfl | ⟨r', hr', rfl⟩)
      · exact ⟨r, .inr rfl, rfl⟩
      · exact ⟨r', .inl hr', rfl⟩
    · rintro ⟨r', hr' | rfl, rfl⟩
      · exact .inr ⟨r', hr', rfl⟩
      · exact .inl rfl

theorem nodup_keys_assignAll (rs : List ρ) :
    ((rs.foldl (fun d r => assign (key r) (f r) d) []).map Prod.fst).Nodup := by
  induction rs using List.reverseRecOn with
  | nil => exact List.nodup_nil
  | append_singleton rs r ih =>
    rw [assignAll_concat]
    exact nodup_keys_update ih

variable (key f) in
/-- The keys stand in the order in which they first came. -/
theorem pairwise_keys_assignAll (rs : List ρ) :
    ((rs.foldl (fun d r => assign (key r) (f r) d) []).map Prod.fst).Pairwise
      fun a b => (rs.map key).idxOf a < (rs.map key).idxOf b := by
  induction rs using List.reverseRecOn with
  | nil => exact List.Pairwise.nil
  | append_singleton rs r ih =>
    have hmem : ∀ k, k ∈ (rs.foldl (fun d r => assign (key r) (f r) d) []).map Prod.fst ↔
        k ∈ rs.map key := fun k => mem_keys_assignAll.trans List.mem_map.symm
    have hkeep : ∀ k ∈ rs.map key, ((rs ++ [r]).map key).idxOf k = (rs.map key).idxOf k := by
      intro k hk
      rw [List.map_append, List.idxOf_append_of_mem hk]
    have hold := ih.imp_of_mem (S := fun a b =>
        ((rs ++ [r]).map key).idxOf a < ((rs ++ [r]).map key).idxOf b) fun {a b} ha hb hab => by
      rwa [← hkeep a ((hmem a).1 ha), ← hkeep b ((hmem b).1 hb)] at hab
    rw [assignAll_concat, assign]
    by_cases hk : key r ∈ rs.map key
    · rwa [keys_update_of_mem ((hmem _).2 hk)]
    · rw [update_of_not_mem fun h => hk ((hmem _).1 h), List.map_append (f := Prod.fst),
        List.pairwise_append]
      refine ⟨hold, List.pairwise_singleton _ _, fun a ha b hb => ?_⟩
      cases List.mem_singleton.1 hb
      have hrs := (hmem a).1 ha
      rw [hkeep a hrs, List.map_append, List.idxOf_append_of_notMem hk, List.map_singleton,
        List.idxOf_cons_self, Nat.add_zero]
      exact List.idxOf_lt_length_iff.2 hrs

variable (key f) in
/-- The values do not matter for the keys. -/
theorem keys_assignAll {β : Type} (f' : ρ → β) (rs : List ρ) :
    (rs.foldl (fun d r => assign (key r) (f r) d) []).map Prod.fst =
      (rs.foldl (fun d r => assign (key r) (f' r) d) []).map Prod.fst := by
  induction rs using List.reverseRecOn with
  | nil => rfl
  | append_singleton rs r ih =>
    rw [assignAll_concat, assignAll_concat, assign, assign]
    by_cases hk : key r ∈ (rs.foldl (fun d r => assign (key r) (f r) d) []).map Prod.fst
    · rw [keys_update_of_mem hk, keys_update_of_mem (ih ▸ hk), ih]
    · rw [update_of_not_mem hk, update_of_not_mem (ih ▸ hk), List.map_append, List.map_append, ih]
      rfl

theorem map_assign {β : Type} (g : α → β) (k : κ) (a : α) (d : List (κ × α)) :
    (assign k a d).map (fun e => (e.1, g e.2)) = assign k (g a) (d.map fun e => (e.1, g e.2)) := by
  induction d with
  | nil => rfl
  | cons e rest ih =>
    obtain ⟨j, b⟩ := e
    rw [List.map_cons, assign, assign, update, update]
    by_cases hj : j = k
    · rw [if_pos hj, if_pos hj]
      rfl
    · rw [if_neg hj, if_neg hj, List.map_cons]
      exact congrArg _ ih

/-- Assignments to different keys only add entries. -/
theorem assignAll_of_nodup {rs : List ρ} (h : (rs.map key).Nodup) :
    rs.foldl (fun d r => assign (key r) (f r) d) [] = rs.map fun r => (key r, f r) := by
  induction rs using List.reverseRecOn with
  | nil => rfl
  | append_singleton rs r ih =>
    rw [List.map_append, List.nodup_append] at h
    obtain ⟨hrs, _, hdisjoint⟩ := h
    have hnew : key r ∉ ((rs.map fun r => (key r, f r)).map Prod.fst) := by
      rw [List.map_map]
      intro hmem
      exact hdisjoint (key r) hmem (key r) (List.mem_singleton_self _) rfl
    rw [assignAll_concat, ih hrs, assign, update_of_not_mem hnew, List.map_append]
    rfl

end

/-! ## Grouping -/

section
variable {key : ρ → κ} {default : α} {step : α → ρ → α}

theorem groupFold_concat (rs : List ρ) (r : ρ) : groupFold key default step (rs ++ [r]) =
    update (key r) default (step · r) (groupFold key default step rs) := by
  rw [groupFold, List.foldl_append]
  rfl

/-- The entry of a group is the fold over its elements. -/
theorem lookup_groupFold (rs : List ρ) (k : κ) : (groupFold key default step rs).lookup k =
    if (rs.filter fun r => key r = k) = [] then none
    else some ((rs.filter fun r => key r = k).foldl step default) := by
  induction rs using List.reverseRecOn with
  | nil => rfl
  | append_singleton rs r ih =>
    rw [groupFold_concat, lookup_update, List.filter_append]
    by_cases hk : k = key r
    · subst hk
      have hr : [r].filter (fun r' => key r' = key r) = [r] :=
        List.filter_eq_self.2 fun x hx => by rw [List.mem_singleton.1 hx]; exact decide_eq_true rfl
      have hne : rs.filter (fun r' => key r' = key r) ++ [r] ≠ [] :=
        List.append_ne_nil_of_right_ne_nil _ (List.cons_ne_nil _ _)
      rw [if_pos rfl, ih, hr, if_neg hne, List.foldl_append]
      by_cases hnil : rs.filter (fun r' => key r' = key r) = []
      · rw [if_pos hnil, hnil]
        rfl
      · rw [if_neg hnil]
        rfl
    · have hr : [r].filter (fun r' => key r' = k) = [] :=
        List.filter_eq_nil_iff.2 fun x hx => by
          rw [List.mem_singleton.1 hx, decide_eq_true_eq]
          exact fun h => hk h.symm
      rw [if_neg hk, ih, hr, List.append_nil]

theorem mem_keys_groupFold {rs : List ρ} {k : κ} :
    k ∈ (groupFold key default step rs).map Prod.fst ↔ ∃ r ∈ rs, key r = k := by
  induction rs using List.reverseRecOn with
  | nil => simp [groupFold]
  | append_singleton rs r ih =>
    rw [groupFold_concat, mem_keys_update, ih]
    simp only [List.mem_append, List.mem_singleton]
    constructor
    · rintro (rfl | ⟨r', hr', rfl⟩)
      · exact ⟨r, .inr rfl, rfl⟩
      · exact ⟨r', .inl hr', rfl⟩
    · rintro ⟨r', hr' | rfl, rfl⟩
      · exact .inr ⟨r', hr', rfl⟩
      · exact .inl rfl

theorem nodup_keys_groupFold (rs : List ρ) :
    ((groupFold key default step rs).map Prod.fst).Nodup := by
  induction rs using List.reverseRecOn with
  | nil => exact List.nodup_nil
  | append_singleton rs r ih =>
    rw [groupFold_concat]
    exact nodup_keys_update ih

/-- When every element adds its share to its group, the groups add up to all the shares. -/
theorem sum_groupFold [AddCommMonoid M] {g : α → M} {share : ρ → M}
    (hstep : ∀ a r, g (step a r) = g a + share r) (h0 : g default = 0) (rs : List ρ) :
    ((groupFold key default step rs).map fun e => g e.2).sum = (rs.map share).sum := by
  induction rs using List.reverseRecOn with
  | nil => rfl
  | append_singleton rs r ih =>
    have hsum := sum_update (k := key r) (f := (step · r)) (fun a => hstep a r) h0
      (groupFold key default step rs)
    rw [groupFold_concat, hsum, ih, List.map_append, List.sum_append, List.map_singleton,
      List.sum_singleton]

/-- An entry holds the fold over the elements of its group. -/
theorem eq_of_mem_groupFold {rs : List ρ} {e : κ × α} (he : e ∈ groupFold key default step rs) :
    e.2 = (rs.filter fun r => key r = e.1).foldl step default := by
  have hlook := lookup_of_mem (nodup_keys_groupFold rs) he
  rw [lookup_groupFold] at hlook
  split at hlook
  · cases hlook
  · exact (Option.some.inj hlook).symm

end

/-! ## Groups of elements -/

section
variable {key : ρ → κ} {f : ρ → α}

theorem perm_flatMap_update (k : κ) (x : α) (d : List (κ × List α)) :
    ((update k [] (· ++ [x]) d).flatMap Prod.snd).Perm (d.flatMap Prod.snd ++ [x]) := by
  induction d with
  | nil => exact .refl _
  | cons e rest ih =>
    obtain ⟨i, a⟩ := e
    rw [update]
    split
    · simp only [List.flatMap_cons, List.append_assoc]
      exact List.Perm.append_left a List.perm_append_comm
    · simp only [List.flatMap_cons, List.append_assoc]
      exact ih.append_left a

/-- The groups together hold every element once. -/
theorem perm_groupFold (rs : List ρ) :
    ((groupFold key [] (fun g r => g ++ [f r]) rs).flatMap Prod.snd).Perm (rs.map f) := by
  induction rs using List.reverseRecOn with
  | nil => exact .refl _
  | append_singleton rs r ih =>
    rw [groupFold_concat, List.map_append]
    exact (perm_flatMap_update (key r) (f r) _).trans (ih.append_right _)

omit [DecidableEq κ] in
theorem foldl_concat (rs : List ρ) (g : List α) :
    rs.foldl (fun g r => g ++ [f r]) g = g ++ rs.map f := by
  induction rs generalizing g with
  | nil => exact (List.append_nil g).symm
  | cons r rs ih => rw [List.foldl_cons, ih, List.append_assoc, List.map_cons, List.singleton_append]

end

/-! ## Sums by key -/

section
variable [AddCommMonoid M] {key : ρ → κ} {g : ρ → M}

omit [DecidableEq κ] in
theorem sum_filter (p : ρ → Prop) [DecidablePred p] (rs : List ρ) :
    ((rs.filter fun r => p r).map g).sum = (rs.map fun r => if p r then g r else 0).sum := by
  induction rs with
  | nil => rfl
  | cons r rs ih =>
    rw [List.map_cons, List.sum_cons, List.filter_cons, ← ih]
    by_cases hr : p r
    · rw [if_pos (decide_eq_true hr), if_pos hr, List.map_cons, List.sum_cons]
    · rw [if_neg (by simpa using hr), if_neg hr, zero_add]

/-- Summed key by key, every element whose key is listed counts once. -/
theorem sum_by_key {ks : List κ} (h : ks.Nodup) (rs : List ρ) :
    (ks.map fun k => ((rs.filter fun r => key r = k).map g).sum).sum =
      ((rs.filter fun r => key r ∈ ks).map g).sum := by
  induction ks with
  | nil => simp
  | cons k ks ih =>
    obtain ⟨hk, hks⟩ := List.nodup_cons.1 h
    rw [List.map_cons, List.sum_cons, ih hks, sum_filter, sum_filter, sum_filter,
      ← List.sum_map_add]
    refine congrArg List.sum (List.map_congr_left fun r _ => ?_)
    by_cases hr : key r = k
    · have hnot : key r ∉ ks := fun hmem => hk (hr ▸ hmem)
      rw [if_pos hr, if_neg hnot, if_pos (List.mem_cons.2 (.inl hr)), add_zero]
    · by_cases hmem : key r ∈ ks
      · rw [if_neg hr, if_pos hmem, if_pos (List.mem_cons_of_mem k hmem), zero_add]
      · have hnot : key r ∉ k :: ks := fun hc => (List.mem_cons.1 hc).elim hr hmem
        rw [if_neg hr, if_neg hmem, if_neg hnot, add_zero]

end

/-! ## The newest element of each key -/

/-- The elements that no element before them in the list has replaced; the newest come first. -/
def newest (key : ρ → κ) : List ρ → List ρ
  | []      => []
  | r :: rs => r :: (newest key rs).filter fun r' => ¬ key r' = key r

section
variable {key : ρ → κ} {g : ρ → Nat}

theorem sum_filter_add_sum_filter_not (p : ρ → Prop) [DecidablePred p] (rs : List ρ) :
    ((rs.filter fun r => ¬ p r).map g).sum + ((rs.filter fun r => p r).map g).sum =
      (rs.map g).sum := by
  rw [sum_filter, sum_filter, ← List.sum_map_add]
  refine congrArg List.sum (List.map_congr_left fun r _ => ?_)
  by_cases hr : p r
  · rw [if_neg (not_not.2 hr), if_pos hr, Nat.zero_add]
  · rw [if_pos hr, if_neg hr, Nat.add_zero]

theorem sum_newest_le (rs : List ρ) : ((newest key rs).map g).sum ≤ (rs.map g).sum := by
  induction rs with
  | nil => exact Nat.le_refl _
  | cons r rs ih =>
    have hsplit := sum_filter_add_sum_filter_not (g := g) (fun r' => key r' = key r) (newest key rs)
    rw [newest, List.map_cons, List.sum_cons, List.map_cons, List.sum_cons]
    omega

/-- What counts is among the newest when nothing that counts is replaced. -/
theorem mem_newest {rs : List ρ} (h : rs.Pairwise fun r r' => key r' = key r → g r' = 0) {r : ρ}
    (hr : r ∈ rs) (hg : g r ≠ 0) : r ∈ newest key rs := by
  induction rs with
  | nil => cases hr
  | cons r' rs ih =>
    obtain ⟨hhead, htail⟩ := List.pairwise_cons.1 h
    rcases List.mem_cons.1 hr with rfl | hr
    · exact List.mem_cons_self
    · refine List.mem_cons_of_mem _ (List.mem_filter.2 ⟨ih htail hr, ?_⟩)
      exact decide_eq_true fun hkey => hg (hhead r hr hkey)

theorem mem_of_mem_newest {rs : List ρ} {r : ρ} (hr : r ∈ newest key rs) : r ∈ rs := by
  induction rs with
  | nil => cases hr
  | cons r' rs ih =>
    rcases List.mem_cons.1 hr with rfl | hr
    · exact List.mem_cons_self
    · exact List.mem_cons_of_mem _ (ih (List.mem_of_mem_filter hr))

/-- **Nothing is lost with the replaced elements exactly when all of them count nothing.** -/
theorem sum_newest_eq_iff (rs : List ρ) : ((newest key rs).map g).sum = (rs.map g).sum ↔
    rs.Pairwise fun r r' => key r' = key r → g r' = 0 := by
  induction rs with
  | nil => exact iff_of_true rfl List.Pairwise.nil
  | cons r rs ih =>
    have hsplit := sum_filter_add_sum_filter_not (g := g) (fun r' => key r' = key r) (newest key rs)
    have hle : ((newest key rs).map g).sum ≤ (rs.map g).sum := sum_newest_le rs
    have hzero : (((newest key rs).filter fun r' => key r' = key r).map g).sum = 0 ↔
        ∀ r' ∈ newest key rs, key r' = key r → g r' = 0 := by
      rw [List.sum_eq_zero_iff_forall_eq_nat, List.forall_mem_map, List.forall_mem_filter]
      simp only [decide_eq_true_eq]
    rw [newest, List.map_cons, List.sum_cons, List.map_cons, List.sum_cons, List.pairwise_cons,
      ← ih]
    constructor
    · intro heq
      have hrest : ((newest key rs).map g).sum = (rs.map g).sum := by omega
      refine ⟨fun r' hr' hkey => ?_, hrest⟩
      by_contra hg
      exact hg (hzero.1 (by omega) r' (mem_newest (ih.1 hrest) hr' hg) hkey)
    · rintro ⟨hhead, hrest⟩
      have hnone := hzero.2 fun r' hr' => hhead r' (mem_of_mem_newest hr')
      omega

end

end Dict
