import Mathlib.Logic.Function.Basic
import Mathlib.Data.List.Nodup

/-!
# A DynamoDB table: items, update expressions, conditions

An item gives each attribute of a schema at most one value. An `UpdateItem` request has an
optional condition and a list of actions; the condition is checked first, every action reads the
item as it was before the request, and a request either applies as a whole or leaves the item
alone.

| here | DynamoDB |
| --- | --- |
| `Action.set`            | `SET a = :v` |
| `Action.setIfNotExists` | `SET a = if_not_exists(a, :v)` |
| `Action.setPath`        | `SET a.#k = :v`: a validation error unless the item has the map `a` |
| `Action.add`            | `ADD a :n` and `SET a = f(a)`: an absent `a` counts as the start value |
| `Cond`                  | `attribute_not_exists`, comparisons (false on an absent attribute), `OR`, `AND` |
| `Table.update`          | `UpdateItem`: a missing item is created when the request applies |
-/

namespace Dynamo

structure Schema where
  Attr : Type
  Val  : Attr → Type

/-- One item: the value of each attribute, when present. -/
abbrev Item (T : Schema) : Type := (a : T.Attr) → Option (T.Val a)

inductive Action (T : Schema) : Type where
  | set            : (a : T.Attr) → T.Val a → Action T
  | setIfNotExists : (a : T.Attr) → T.Val a → Action T
  | setPath        : (a : T.Attr) → (T.Val a → T.Val a) → Action T
  | add            : (a : T.Attr) → (Option (T.Val a) → T.Val a) → Action T

inductive Cond (T : Schema) : Type where
  | attributeNotExists : T.Attr → Cond T
  | holds : (a : T.Attr) → (T.Val a → Bool) → Cond T
  | or    : Cond T → Cond T → Cond T
  | and   : Cond T → Cond T → Cond T

structure Update (T : Schema) where
  actions : List (Action T)
  cond    : Option (Cond T) := none

inductive Rejection where
  | conditionalCheckFailed
  | validation
deriving DecidableEq, Repr

variable {T : Schema}

def Cond.eval (it : Item T) : Cond T → Bool
  | .attributeNotExists a => (it a).isNone
  | .holds a p => (it a).any p
  | .or c d    => c.eval it || d.eval it
  | .and c d   => c.eval it && d.eval it

def Action.target : Action T → T.Attr
  | set a _ | setIfNotExists a _ | setPath a _ | add a _ => a

def Action.legal (old : Item T) : Action T → Bool
  | setPath a _ => (old a).isSome
  | _ => true

section
variable [DecidableEq T.Attr]

/-- The effect of one action on `acc`; its operands are read from the item `old`. -/
def Action.write (old acc : Item T) : Action T → Item T
  | set a v            => Function.update acc a (some v)
  | setIfNotExists a v => Function.update acc a (some ((old a).getD v))
  | setPath a f        => Function.update acc a ((old a).map f)
  | add a f            => Function.update acc a (some (f (old a)))

def Update.apply (u : Update T) (old : Item T) : Except Rejection (Item T) :=
  if u.cond.all (Cond.eval old) then
    if u.actions.all (Action.legal old) then .ok (u.actions.foldl (Action.write old) old)
    else .error .validation
  else .error .conditionalCheckFailed

theorem Action.write_ne {old acc : Item T} {x : Action T} {a : T.Attr} (h : x.target ≠ a) :
    x.write old acc a = acc a := by
  cases x <;> exact Function.update_of_ne (Ne.symm h) _ _

theorem foldl_write_ne {old : Item T} {a : T.Attr} :
    ∀ {xs : List (Action T)} {acc : Item T}, (∀ x ∈ xs, x.target ≠ a) →
      xs.foldl (Action.write old) acc a = acc a
  | [], _, _ => rfl
  | x :: xs, acc, h => by
    rw [List.foldl_cons, foldl_write_ne fun y hy => h y (List.mem_cons_of_mem _ hy)]
    exact Action.write_ne (h x List.mem_cons_self)

/-- When every action on `a` is the same `x`, and there is one, the result at `a` is what `x`
writes there. -/
theorem foldl_write_eq {old : Item T} {a : T.Attr} {x : Action T} (hx : x.target = a) :
    ∀ {xs : List (Action T)} {acc : Item T}, (∀ y ∈ xs, y.target = a → y = x) →
      (x ∈ xs ∨ acc a = x.write old old a) → xs.foldl (Action.write old) acc a = x.write old old a
  | [], _, _, h => by simpa using h
  | y :: ys, acc, hall, h => by
    rw [List.foldl_cons]
    refine foldl_write_eq hx (fun z hz => hall z (List.mem_cons_of_mem _ hz)) ?_
    by_cases hy : y.target = a
    · obtain rfl := hall y List.mem_cons_self hy
      right
      subst hy
      cases y <;> simp [Action.write, Action.target]
    · rw [Action.write_ne hy]
      rcases h with h | h
      · rcases List.mem_cons.1 h with rfl | h
        · exact absurd hx hy
        · exact .inl h
      · exact .inr h

theorem Update.apply_eq_ok {u : Update T} {old new : Item T} (h : u.apply old = .ok new) :
    u.cond.all (Cond.eval old) = true ∧ u.actions.all (Action.legal old) = true ∧
      new = u.actions.foldl (Action.write old) old := by
  unfold Update.apply at h
  split at h
  next hc =>
    split at h
    next hl => exact ⟨hc, hl, by simpa using h.symm⟩
    next => simp at h
  next => simp at h

/-- Frame: an attribute that no action targets keeps its value. -/
theorem Update.apply_frame {u : Update T} {old new : Item T} {a : T.Attr}
    (h : u.apply old = .ok new) (ha : ∀ x ∈ u.actions, x.target ≠ a) : new a = old a := by
  rw [(apply_eq_ok h).2.2]
  exact foldl_write_ne ha

theorem Update.apply_target {u : Update T} {old new : Item T} {x : Action T}
    (h : u.apply old = .ok new) (hx : x ∈ u.actions)
    (hall : ∀ y ∈ u.actions, y.target = x.target → y = x) :
    new x.target = x.write old old x.target := by
  rw [(apply_eq_ok h).2.2]
  exact foldl_write_eq rfl hall (.inl hx)

/-- The value of an attribute after the request that sets it. -/
theorem Update.apply_set {u : Update T} {old new : Item T} {a : T.Attr} {v : T.Val a}
    (h : u.apply old = .ok new) (hx : .set a v ∈ u.actions)
    (hall : ∀ y ∈ u.actions, y.target = a → y = .set a v) : new a = some v := by
  have := apply_target h hx hall
  simpa [Action.target, Action.write] using this

/-- A present attribute that only `if_not_exists` sets keeps its value. -/
theorem Update.apply_once {u : Update T} {old new : Item T} {a : T.Attr} {v : T.Val a}
    (h : u.apply old = .ok new) (ho : old a = some v)
    (hx : ∀ x ∈ u.actions, x.target = a → ∃ v', x = .setIfNotExists a v') : new a = some v := by
  rw [(apply_eq_ok h).2.2]
  have key : ∀ (xs : List (Action T)) (acc : Item T), acc a = some v →
      (∀ x ∈ xs, x.target = a → ∃ v', x = .setIfNotExists a v') →
        xs.foldl (Action.write old) acc a = some v := by
    intro xs
    induction xs with
    | nil => exact fun _ h _ => h
    | cons x xs ih =>
      intro acc hacc hxs
      refine ih _ ?_ fun y hy => hxs y (List.mem_cons_of_mem _ hy)
      by_cases hxa : x.target = a
      · obtain ⟨v', rfl⟩ := hxs x List.mem_cons_self hxa
        simp [Action.write, ho]
      · rwa [Action.write_ne hxa]
  exact key _ _ ho hx

theorem Action.write_isSome {old acc : Item T} {x : Action T} (h : x.legal old = true) :
    (x.write old acc x.target).isSome := by
  cases x with
  | setPath a f =>
    obtain ⟨v, hv⟩ := Option.isSome_iff_exists.1 h
    simp [Action.write, Action.target, hv]
  | _ => simp [Action.write, Action.target]

theorem foldl_write_isSome {old : Item T} {a : T.Attr} :
    ∀ {xs : List (Action T)} {acc : Item T}, (∀ x ∈ xs, x.legal old = true) →
      (acc a).isSome ∨ (∃ x ∈ xs, x.target = a) → (xs.foldl (Action.write old) acc a).isSome
  | [], _, _, h => by simpa using h
  | y :: ys, acc, hl, h => by
    rw [List.foldl_cons]
    refine foldl_write_isSome (fun z hz => hl z (List.mem_cons_of_mem _ hz)) ?_
    by_cases hy : y.target = a
    · exact .inl (hy ▸ Action.write_isSome (hl y List.mem_cons_self))
    · rw [Action.write_ne hy]
      refine h.imp_right ?_
      rintro ⟨x, hx, rfl⟩
      rcases List.mem_cons.1 hx with rfl | hx
      · exact absurd rfl hy
      · exact ⟨x, hx, rfl⟩

/-- An attribute that is present stays present: no action removes one. -/
theorem Update.apply_isSome {u : Update T} {old new : Item T} {a : T.Attr}
    (h : u.apply old = .ok new) (ha : (old a).isSome) : (new a).isSome := by
  obtain ⟨_, hl, rfl⟩ := apply_eq_ok h
  exact foldl_write_isSome (List.all_eq_true.1 hl) (.inl ha)

/-- An attribute that an action targets is present afterwards. -/
theorem Update.apply_target_isSome {u : Update T} {old new : Item T} {x : Action T}
    (h : u.apply old = .ok new) (hx : x ∈ u.actions) : (new x.target).isSome := by
  obtain ⟨_, hl, rfl⟩ := apply_eq_ok h
  exact foldl_write_isSome (List.all_eq_true.1 hl) (.inr ⟨x, hx, rfl⟩)

end

/-! ## What a list of actions writes -/

section
variable {xs ys : List (Action T)} {a : T.Attr}

/-- Every action targets an attribute that satisfies `P`. -/
def Targets (P : T.Attr → Prop) (xs : List (Action T)) : Prop := ∀ x ∈ xs, P x.target

variable {P P' : T.Attr → Prop}

@[simp] theorem targets_nil : Targets P ([] : List (Action T)) := by simp [Targets]

@[simp] theorem targets_cons {x : Action T} :
    Targets P (x :: xs) ↔ P x.target ∧ Targets P xs := List.forall_mem_cons

@[simp] theorem targets_append : Targets P (xs ++ ys) ↔ Targets P xs ∧ Targets P ys :=
  List.forall_mem_append

theorem targets_ne_iff : Targets (· ≠ a) xs ↔ a ∉ xs.map Action.target := by
  simp only [Targets, List.mem_map, not_exists, not_and]

theorem Targets.mono (h : ∀ a, P a → P' a) (hx : Targets P xs) : Targets P' xs :=
  fun x m => h _ (hx x m)

variable [DecidableEq T.Attr]

/-- The value a plain `SET a = :v` writes. -/
def Action.setValue (a : T.Attr) : Action T → Option (T.Val a)
  | set b v => if h : b = a then some (h ▸ v) else none
  | _       => none

/-- The value of the last plain `SET a = :v` of the list. -/
def lastSet (a : T.Attr) : List (Action T) → Option (T.Val a)
  | []      => none
  | x :: xs => (lastSet a xs).or (x.setValue a)

@[simp] theorem setValue_set_self (v : T.Val a) : (Action.set a v).setValue a = some v := by
  simp [Action.setValue]

theorem setValue_ne {x : Action T} (h : x.target ≠ a) : x.setValue a = none := by
  cases x with
  | set b v => exact dif_neg h
  | _ => rfl

@[simp] theorem lastSet_append : lastSet a (xs ++ ys) = (lastSet a ys).or (lastSet a xs) := by
  induction xs with
  | nil => cases h : lastSet a ys <;> simp [lastSet, h]
  | cons x xs ih => simp only [List.cons_append, lastSet, ih, Option.or_assoc]

theorem lastSet_eq_none (h : Targets (· ≠ a) xs) : lastSet a xs = none := by
  induction xs with
  | nil => rfl
  | cons x xs ih =>
    rw [targets_cons] at h
    rw [lastSet, ih h.2, setValue_ne h.1]
    rfl

theorem lastSet_cons_set {v : T.Val a} (h : Targets (· ≠ a) xs) :
    lastSet a (.set a v :: xs) = some v := by
  rw [lastSet, lastSet_eq_none h, setValue_set_self]
  rfl

/-- Every action on `a` is a plain `SET`. -/
def SetsOnly (a : T.Attr) (xs : List (Action T)) : Prop :=
  ∀ x ∈ xs, x.target = a → (x.setValue a).isSome = true

theorem setsOnly_of_targets (h : Targets (· ≠ a) xs) : SetsOnly a xs :=
  fun x m e => absurd e (h x m)

theorem setsOnly_append : SetsOnly a (xs ++ ys) ↔ SetsOnly a xs ∧ SetsOnly a ys :=
  List.forall_mem_append

theorem setsOnly_cons {x : Action T} : SetsOnly a (x :: xs) ↔
    (x.target = a → (x.setValue a).isSome = true) ∧ SetsOnly a xs := List.forall_mem_cons

theorem foldl_write_setsOnly {old : Item T} (h : SetsOnly a xs) (acc : Item T) :
    xs.foldl (Action.write old) acc a = (lastSet a xs).or (acc a) := by
  induction xs generalizing acc with
  | nil => rfl
  | cons x xs ih =>
    rw [setsOnly_cons] at h
    rw [List.foldl_cons, ih h.2, lastSet, Option.or_assoc]
    congr 1
    by_cases hx : x.target = a
    · cases x with
      | set b v =>
        change b = a at hx
        subst hx
        simp [Action.write]
      | _ => simp [Action.setValue, hx] at h
    · rw [Action.write_ne hx, setValue_ne hx]
      rfl

/-- After a request that only plainly sets `a`, the value of `a` is the last one set, or the old
one. -/
theorem Update.apply_setsOnly {u : Update T} {old new : Item T} (h : u.apply old = .ok new)
    (hs : SetsOnly a u.actions) : new a = (lastSet a u.actions).or (old a) := by
  rw [(apply_eq_ok h).2.2]
  exact foldl_write_setsOnly hs old

end

/-! ## Tables -/

/-- The item without the attributes `rs` (`REMOVE`). -/
def Item.without [DecidableEq T.Attr] (it : Item T) (rs : List T.Attr) : Item T :=
  fun a => if a ∈ rs then none else it a

/-- A table: the keys in order of creation and the item of each. -/
structure Table (K : Type) (T : Schema) where
  keys  : List K
  item  : K → Option (Item T)
  nodup : keys.Nodup
  mem   : ∀ k, k ∈ keys ↔ (item k).isSome = true

namespace Table

variable {K : Type} [DecidableEq K]

def empty : Table K T where
  keys  := []
  item  := fun _ => none
  nodup := List.nodup_nil
  mem   := by simp

/-- `PutItem`: replace or create the item of `k`. -/
def put (t : Table K T) (k : K) (it : Item T) : Table K T where
  keys  := if k ∈ t.keys then t.keys else t.keys ++ [k]
  item  := Function.update t.item k (some it)
  nodup := by
    split
    · exact t.nodup
    · next h => exact List.Nodup.append t.nodup (List.nodup_singleton k) (by simpa using h)
  mem j := by
    by_cases hj : j = k
    · subst hj; split <;> simp_all
    · rw [Function.update_of_ne hj, ← t.mem j]; split <;> simp [hj]

def update [DecidableEq T.Attr] (t : Table K T) (k : K) (u : Update T) :
    Except Rejection (Table K T) :=
  (u.apply ((t.item k).getD fun _ => none)).map (t.put k)

/-- `DeleteItem`: no error when there is no item. -/
def delete (t : Table K T) (k : K) : Table K T where
  keys  := t.keys.filter (· ≠ k)
  item  := Function.update t.item k none
  nodup := t.nodup.filter _
  mem j := by
    by_cases hj : j = k
    · subst hj; simp
    · rw [Function.update_of_ne hj, ← t.mem j]; simp [hj]

/-- `UpdateItem` with a `REMOVE` part for the attributes `rs`. -/
def updateRemoving [DecidableEq T.Attr] (t : Table K T) (k : K) (u : Update T)
    (rs : List T.Attr) : Except Rejection (Table K T) :=
  (u.apply ((t.item k).getD fun _ => none)).map fun it => t.put k (it.without rs)

/-- `Query` on an index: the items whose attributes satisfy `p`, in order. -/
def query (t : Table K T) (p : Item T → Bool) : List (K × Item T) :=
  t.keys.filterMap fun k => ((t.item k).filter p).map fun it => (k, it)

@[simp] theorem put_item_self (t : Table K T) (k : K) (it : Item T) :
    (t.put k it).item k = some it := Function.update_self ..

theorem put_item_ne (t : Table K T) {j k : K} (it : Item T) (h : j ≠ k) :
    (t.put k it).item j = t.item j := Function.update_of_ne h ..

@[simp] theorem delete_item_self (t : Table K T) (k : K) : (t.delete k).item k = none :=
  Function.update_self ..

theorem delete_item_ne (t : Table K T) {j k : K} (h : j ≠ k) : (t.delete k).item j = t.item j :=
  Function.update_of_ne h ..

theorem delete_item_eq_some {t : Table K T} {j k : K} {it : Item T} :
    (t.delete k).item j = some it ↔ j ≠ k ∧ t.item j = some it := by
  by_cases h : j = k
  · subst h; simp
  · simp [delete_item_ne t h, h]

omit [DecidableEq K] in
theorem mem_query {t : Table K T} {p : Item T → Bool} {k : K} {it : Item T} :
    (k, it) ∈ t.query p ↔ t.item k = some it ∧ p it = true := by
  simp only [query, List.mem_filterMap, Option.map_eq_some_iff, Option.filter_eq_some_iff,
    Prod.mk.injEq]
  constructor
  · rintro ⟨j, _, i, ⟨h, hp⟩, rfl, rfl⟩; exact ⟨h, hp⟩
  · rintro ⟨h, hp⟩; exact ⟨k, (t.mem k).2 (by simp [h]), it, ⟨h, hp⟩, rfl, rfl⟩

section
variable [DecidableEq T.Attr]

theorem updateRemoving_eq_ok {t t' : Table K T} {k : K} {u : Update T} {rs : List T.Attr}
    (h : t.updateRemoving k u rs = .ok t') :
    ∃ it, u.apply ((t.item k).getD fun _ => none) = .ok it ∧ t' = t.put k (it.without rs) := by
  unfold updateRemoving at h
  cases hu : u.apply ((t.item k).getD fun _ => none) with
  | error e => rw [hu] at h; cases h
  | ok it => rw [hu] at h; exact ⟨it, rfl, by cases h; rfl⟩

theorem update_eq_ok {t t' : Table K T} {k : K} {u : Update T} (h : t.update k u = .ok t') :
    ∃ it, u.apply ((t.item k).getD fun _ => none) = .ok it ∧ t' = t.put k it := by
  unfold update at h
  cases hu : u.apply ((t.item k).getD fun _ => none) with
  | error e => rw [hu] at h; cases h
  | ok it => rw [hu] at h; exact ⟨it, rfl, by cases h; rfl⟩

end

end Table

end Dynamo
