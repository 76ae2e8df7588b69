import DocumentAi.Lib.Protocol
import DocumentAi.Utils.BaseCrudTable

/-!
# Is a creation exclusive, and does an update never bring an item back?

Every operation but `now` reads the item and then writes it in a second request without a condition.
What the read has found is a *phase* of the operation, computed from its requests.

| here | meaning |
| --- | --- |
| `Phase`            | how far an operation has come, with the key it works on |
| `Orderly`          | the move changes no item by a put and creates none by an update |
| `races`            | the write comes between the read and the write of another operation |
| `create_exclusive` | a run without races is orderly, and creations are exclusive in it |
-/

namespace DocumentAi.BaseCrudTable

open Effect (play Along getElem?_set_cases getElem?_concat_cases)
open Effect.Prog (All all_bind all_perform)
open Effect.Protocol (obeys_bind obeys_perform obeys_ret obeys_raise protocol_inv)

/-! ## How far an operation has come -/

inductive Phase where
  | creating (key : Key) (checkExists : Bool)
  /-- A creation that has found no item, or an item. -/
  | free (key : Key)
  | taken (key : Key)
  /-- A creation whose put has been carried out. -/
  | landed (key : Key)
  | updating (key : Key)
  /-- An update or a deactivation that has found the item. -/
  | found (key : Key)
  | deleting (key : Key)
  | located (key : Key)
  | deleted (key : Key)
  | settled
  | failed (e : Exc)
deriving DecidableEq

namespace Phase

def read (exists' : Bool) : Phase → Phase
  | creating key _ => if exists' then taken key else free key
  | updating key   => if exists' then found key else settled
  | deleting key   => if exists' then located key else settled
  | s              => s

def written : Phase → Phase
  | creating key _ | free key => landed key
  | found _                   => settled
  | located key               => deleted key
  | s                         => s

def next (s : Phase) : (op : Op) → sig.Ans op → Phase
  | _, .error e       => failed e
  | .now, .ok _       => s
  | .getItem _, .ok r => s.read (r : Option Item).isSome
  | _, .ok _          => s.written

def allows : Phase → Op → Prop
  | creating key true, op  => op = .getItem key
  | creating key false, op
  | free key, op           => op = .now ∨ ∃ it, op = .putItem key it
  | updating key, op       => op = .getItem key
  | found key, op          => op = .now ∨ ∃ u clear, op = .updateItem key u clear
  | deleting key, op       => op = .getItem key
  | located key, op        => op = .deleteItem key
  | settled, op               => ∃ key, op = .getItem key
  | _, _                   => False

theorem allows_getItem {s : Phase} {key : Key} (h : s.allows (.getItem key)) :
    s = creating key true ∨ s = updating key ∨ s = deleting key ∨ s = settled := by
  rcases s with ⟨key', _ | _⟩ | _ | _ | _ | _ | _ | _ | _ | _ | _ | _ <;> simp [allows] at h
  · rw [h]; exact .inl rfl
  · rw [h]; exact .inr (.inl rfl)
  · rw [h]; exact .inr (.inr (.inl rfl))
  · exact .inr (.inr (.inr rfl))

theorem allows_putItem {s : Phase} {key : Key} {it : Item} (h : s.allows (.putItem key it)) :
    s = creating key false ∨ s = free key := by
  rcases s with ⟨key', _ | _⟩ | _ | _ | _ | _ | _ | _ | _ | _ | _ | _ <;> simp [allows] at h
  · rw [h]; exact .inl rfl
  · rw [h]; exact .inr rfl

theorem allows_updateItem {s : Phase} {key : Key} {u : Dynamo.Update schema} {clear : List String}
    (h : s.allows (.updateItem key u clear)) : s = found key := by
  rcases s with ⟨key', _ | _⟩ | _ | _ | _ | _ | _ | _ | _ | _ | _ | _ <;> simp [allows] at h
  rw [h]

theorem allows_deleteItem {s : Phase} {key : Key} (h : s.allows (.deleteItem key)) :
    s = located key := by
  rcases s with ⟨key', _ | _⟩ | _ | _ | _ | _ | _ | _ | _ | _ | _ | _ <;> simp [allows] at h
  rw [h]

/-- A creation returns after its put only. -/
def Returned : Phase → Prop
  | creating .. | free _ | taken _ | failed _ => False
  | _ => True

/-- A creation raises for the item it has found, or the exception of a request. -/
def Raised : Phase → Exc → Prop
  | taken key, e  => e = itemExists key
  | failed e', e  => e = e'
  | creating .. , _ | free _, _ | landed _, _ => False
  | _, _ => True

end Phase

abbrev phaseProtocol : Effect.Protocol sig where
  State := Phase
  allow s op := s.allows op
  possible _ _ _ := True
  next s op ans := s.next op ans

def phaseInit (T : CrudTable) : Entry → Phase
  | .create pk sk _ checkExists => .creating (T.buildKey pk sk) checkExists
  | .update pk sk ..            => .updating (T.buildKey pk sk)
  | .deactivate pk sk           => .updating (T.buildKey pk sk)
  | .delete pk sk               => .deleting (T.buildKey pk sk)

/-! ## Every operation obeys -/

namespace Phase

section
variable {T : CrudTable} {key : Key} {s : Phase}

/-- The second half of a creation. -/
theorem obeys_put (hs : s = .free key ∨ s = .creating key false) (f : Timestamp → Item) :
    phaseProtocol.Obeys (fun s _ => Returned s) Raised s
      ((call .now).bind fun now => call (.putItem key (f now))) := by
  refine obeys_bind (Q := fun (s' : Phase) _ => s' = s) (obeys_perform ?_ (fun _ _ => rfl)
    fun _ _ => rfl) fun s' now hs' => ?_
  · rcases hs with rfl | rfl
    · exact .inl rfl
    · exact .inl rfl
  · rw [hs']
    refine obeys_perform ?_ (fun _ _ => ?_) fun _ _ => rfl
    · rcases hs with rfl | rfl
      · exact .inr ⟨_, rfl⟩
      · exact .inr ⟨_, rfl⟩
    · rcases hs with rfl | rfl
      · trivial
      · trivial

theorem obeys_assertNew :
    phaseProtocol.Obeys (fun s _ => s = .free key) Raised (.creating key true)
      (assertNew key) := by
  refine obeys_bind (Q := fun (s : Phase) (r : Option Item) => s =
    if r.isSome then .taken key else .free key) (obeys_perform rfl (fun _ _ => rfl) fun _ _ => rfl)
    fun s r hs => ?_
  rw [hs]
  cases r with
  | none => exact obeys_ret rfl
  | some it => exact obeys_raise rfl

theorem obeys_create (pk : String) (sk : Option String) (item : Item) (checkExists : Bool) :
    phaseProtocol.Obeys (fun s _ => Returned s) Raised
      (.creating (T.buildKey pk sk) checkExists) (create T pk sk item checkExists) := by
  cases checkExists with
  | false => exact obeys_put (.inr rfl) _
  | true =>
    refine obeys_bind obeys_assertNew fun s _ hs => ?_
    exact obeys_put (.inl hs) _

/-- An update and a deactivation of an item that was found. -/
theorem obeys_updateItem {α : Type} {f : Timestamp → Dynamo.Update schema} {clear : List String}
    {k : Prog α} (hk : phaseProtocol.Obeys (fun s _ => Returned s) Raised .settled k) :
    phaseProtocol.Obeys (fun s _ => Returned s) Raised (.found key)
      ((call .now).bind fun now => (call (.updateItem key (f now) clear)).bind fun _ => k) := by
  refine obeys_bind (Q := fun (s : Phase) _ => s = .found key)
    (obeys_perform (.inl rfl) (fun _ _ => rfl) fun _ _ => rfl) fun s now hs => ?_
  rw [hs]
  refine obeys_bind (Q := fun (s : Phase) _ => s = .settled)
    (obeys_perform (.inr ⟨_, _, rfl⟩) (fun _ _ => rfl) fun _ _ => rfl) fun s _ hs => ?_
  rw [hs]
  exact hk

theorem obeys_update (pk : String) (sk : Option String) (clear : List String)
    (fields : List (String × AttrValue)) :
    phaseProtocol.Obeys (fun s _ => Returned s) Raised
      (.updating (T.buildKey pk sk)) (update T pk sk clear fields) := by
  refine obeys_bind (Q := fun (s : Phase) (r : Option Item) => s =
    if r.isSome then .found (T.buildKey pk sk) else .settled)
    (obeys_perform rfl (fun _ _ => rfl) fun _ _ => rfl) fun s r hs => ?_
  rw [hs]
  cases r with
  | none => exact obeys_raise trivial
  | some it =>
    change phaseProtocol.Obeys _ _ (.found (T.buildKey pk sk)) (ite _ _ _)
    split
    · exact obeys_raise trivial
    refine obeys_updateItem (obeys_bind (Q := fun (s : Phase) _ => s = .settled)
      (obeys_perform ⟨_, rfl⟩ (fun _ _ => rfl) fun _ _ => rfl) fun s again hs => ?_)
    rw [hs]
    cases again with
    | none => exact obeys_raise trivial
    | some it => exact obeys_ret trivial

theorem obeys_deactivate (pk : String) (sk : Option String) :
    phaseProtocol.Obeys (fun s _ => Returned s) Raised
      (.updating (T.buildKey pk sk)) (deactivate T pk sk) := by
  refine obeys_bind (Q := fun (s : Phase) (r : Option Item) => s =
    if r.isSome then .found (T.buildKey pk sk) else .settled)
    (obeys_perform rfl (fun _ _ => rfl) fun _ _ => rfl) fun s r hs => ?_
  rw [hs]
  cases r with
  | none => exact obeys_ret trivial
  | some it => exact obeys_updateItem (obeys_ret trivial)

theorem obeys_delete (pk : String) (sk : Option String) :
    phaseProtocol.Obeys (fun s _ => Returned s) Raised
      (.deleting (T.buildKey pk sk)) (delete T pk sk) := by
  refine obeys_bind (Q := fun (s : Phase) (r : Option Item) => s =
    if r.isSome then .located (T.buildKey pk sk) else .settled)
    (obeys_perform rfl (fun _ _ => rfl) fun _ _ => rfl) fun s r hs => ?_
  rw [hs]
  cases r with
  | none => exact obeys_ret trivial
  | some it =>
    refine obeys_bind (Q := fun (s : Phase) _ => s = .deleted (T.buildKey pk sk)) (obeys_perform rfl
      (fun _ _ => rfl) fun _ _ => rfl) fun s _ hs => ?_
    rw [hs]
    exact obeys_ret trivial

theorem obeys_body (e : Entry) :
    phaseProtocol.Obeys (fun s _ => Returned s) Raised (phaseInit T e)
      (e.body T) := by
  cases e with
  | create pk sk item checkExists => exact obeys_create pk sk item checkExists
  | update pk sk clear fields => exact obeys_update pk sk clear fields
  | deactivate pk sk =>
    exact obeys_bind (Q := fun (s : Phase) _ => s.Returned) (obeys_deactivate pk sk) fun _ _ h => obeys_ret h
  | delete pk sk =>
    exact obeys_bind (Q := fun (s : Phase) _ => s.Returned) (obeys_delete pk sk) fun _ _ h => obeys_ret h

end

end Phase

/-! ## Races -/

section
variable {T : CrudTable}

abbrev phase (th : Thread T) : Phase := phaseProtocol.loc (phaseInit T) th

/-- A request on the key is carried out. -/
def accepts (T : CrudTable) (key : Key) (ch : Choice) : Bool :=
  ch.fail.isNone && T.tableName.isSome && T.validKey key

/-- A handler beside `i` that has not crashed is in the phase. -/
def others (c : Config T) (i : Nat) (s : Phase) : Bool :=
  (c.threads.eraseIdx i).any fun th => !th.crashed && phase th == s

/-- The put comes between the read and the put of another creation, or overwrites unchecked; the
deletion comes between the read and the write of an update. -/
def races (c : Config T) : Move T → Bool
  | .act i ch =>
    match c.nextOp i with
    | some (.putItem key _)  =>
      accepts T key ch && (others c i (.free key) ||
        (c.threads[i]?).any (fun th => phase th == .creating key false) && (c.world.item key).isSome)
    | some (.deleteItem key) => accepts T key ch && others c i (.found key)
    | _ => false
  | _ => false

/-- A put changes no stored item, and an update leaves no item where there is none. -/
def Orderly (c : Config T) : Move T → Prop
  | .act i ch => ∀ c', Effect.move c (.act i ch) = some c' →
    (∀ key it, c.nextOp i = some (.putItem key it) → (c.world.item key).isSome = true →
      c'.world.item key = c.world.item key) ∧
    ∀ key u clear, c.nextOp i = some (.updateItem key u clear) → c.world.item key = none →
      c'.world.item key = none
  | _ => True

/-! ## What a request does -/

variable {w w' : World} {key : Key} {ch : Choice} {op : Op} {ans : sig.Ans op}

theorem exec_now {ans : sig.Ans .now} (h : exec T w .now ch = some (ans, w')) :
    w' = w ∧ ∃ t, ans = .ok t := by
  cases h
  exact ⟨rfl, _, rfl⟩

/-- A request on a key is carried out, or fails and changes nothing. -/
theorem exec_cases (hkey : op.key = some key) (h : exec T w op ch = some (ans, w')) :
    (accepts T key ch = true ∧ run T w ch op = (ans, w')) ∨ ∃ e, ans = .error e ∧ w' = w := by
  unfold exec at h
  rw [hkey] at h
  cases hf : ch.fail with
  | some e =>
    rw [hf] at h
    cases h
    exact .inr ⟨_, rfl, rfl⟩
  | none =>
    rw [hf] at h
    simp only at h
    split at h
    next => cases h; exact .inr ⟨_, rfl, rfl⟩
    next hname =>
      split at h
      next hvalid =>
        refine .inl ⟨?_, Option.some.inj h⟩
        have hname : T.tableName.isSome = true := by simpa [Option.isSome_iff_ne_none] using hname
        rw [accepts, hf, hname, hvalid]
        rfl
      next => cases h; exact .inr ⟨_, rfl, rfl⟩

theorem exec_getItem {ans : sig.Ans (.getItem key)}
    (h : exec T w (.getItem key) ch = some (ans, w')) :
    w' = w ∧ (ans = .ok (w.item key) ∨ ∃ e, ans = .error e) := by
  rcases exec_cases rfl h with ⟨_, h⟩ | ⟨e, rfl, rfl⟩
  · cases h
    exact ⟨rfl, .inl rfl⟩
  · exact ⟨rfl, .inr ⟨e, rfl⟩⟩

theorem exec_putItem {it : Item} {ans : sig.Ans (.putItem key it)}
    (h : exec T w (.putItem key it) ch = some (ans, w')) :
    (accepts T key ch = true ∧ ans = .ok () ∧ w' = w.put key it) ∨
      ∃ e, ans = .error e ∧ w' = w := by
  rcases exec_cases rfl h with ⟨ha, h⟩ | h
  · cases h
    exact .inl ⟨ha, rfl, rfl⟩
  · exact .inr h

theorem exec_updateItem {u : Dynamo.Update schema} {clear : List String}
    {ans : sig.Ans (.updateItem key u clear)}
    (h : exec T w (.updateItem key u clear) ch = some (ans, w')) :
    (∃ it, ans = .ok () ∧ w' = w.put key it) ∨ ∃ e, ans = .error e ∧ w' = w := by
  rcases exec_cases rfl h with ⟨_, h⟩ | h
  · simp only [run] at h
    split at h
    next hu =>
      obtain ⟨it, _, rfl⟩ := Dynamo.Table.updateRemoving_eq_ok hu
      cases h
      exact .inl ⟨_, rfl, rfl⟩
    next =>
      cases h
      exact .inr ⟨_, rfl, rfl⟩
  · exact .inr h

theorem exec_deleteItem {ans : sig.Ans (.deleteItem key)}
    (h : exec T w (.deleteItem key) ch = some (ans, w')) :
    (accepts T key ch = true ∧ ans = .ok () ∧ w' = w.delete key) ∨
      ∃ e, ans = .error e ∧ w' = w := by
  rcases exec_cases rfl h with ⟨ha, h⟩ | h
  · cases h
    exact .inl ⟨ha, rfl, rfl⟩
  · exact .inr h

/-! ## The invariant -/

/-- What a waiting operation has read still holds. -/
def Phase.Fits (w : World) : Phase → Prop
  | free key  => w.item key = none
  | found key => (w.item key).isSome = true
  | _         => True

def stored (w : World) (key : Key) : Nat := if (w.item key).isSome then 1 else 0

/-- The creations and the deletions of the item that have been carried out. -/
def landed (c : Config T) (key : Key) : Nat := c.threads.countP fun th => phase th == .landed key

def deletions (c : Config T) (key : Key) : Nat := c.threads.countP fun th => phase th == .deleted key

structure CrudInv (w₀ : World) (c : Config T) : Prop where
  fits  : ∀ (i : Nat) (th : Thread T), c.threads[i]? = some th → th.crashed = false → (phase th).Fits c.world
  count : ∀ key, landed c key + stored w₀ key ≤ deletions c key + stored c.world key

variable {w₀ : World} {c : Config T} {i : Nat} {th : Thread T} {k : sig.Ans op → Prog Unit}

theorem not_done_of_allows {s : Phase} (ha : s.allows op) (key : Key) :
    s ≠ .landed key ∧ s ≠ .deleted key := by
  constructor
  · rintro rfl
    exact ha
  · rintro rfl
    exact ha

theorem CrudInv.step (hJ : CrudInv w₀ c) (hn : c.Next i th op k) (ha : (phase th).allows op)
    (hown : ((phase th).next op ans).Fits w')
    (hrest : ∀ j u, j ≠ i → c.threads[j]? = some u → u.crashed = false →
      (phase u).Fits c.world → (phase u).Fits w')
    (hcount : ∀ key, (if (phase th).next op ans = .landed key then 1 else 0) + stored c.world key ≤
      (if (phase th).next op ans = .deleted key then 1 else 0) + stored w' key) :
    CrudInv w₀ { world := w', threads := c.threads.set i (th.resume k ans) } := by
  refine ⟨fun j u hu hlive => ?_, fun key => ?_⟩
  · rcases getElem?_set_cases hu with ⟨_, rfl⟩ | ⟨hj, hu⟩
    · exact hown
    · exact hrest j u hj hu hlive (hJ.fits j u hu hlive)
  · obtain ⟨hlanded, hdeleted⟩ := not_done_of_allows ha key
    have hcreated : landed { world := w', threads := c.threads.set i (th.resume k ans) } key =
        landed c key + if (phase th).next op ans = .landed key then 1 else 0 := by
      refine (Effect.countP_set_of_not (p := fun th => phase th == .landed key) hn.1
        (beq_eq_false_iff_ne.2 hlanded)).trans ?_
      simp only [beq_iff_eq]
      rfl
    have hremoved : deletions { world := w', threads := c.threads.set i (th.resume k ans) } key =
        deletions c key + if (phase th).next op ans = .deleted key then 1 else 0 := by
      refine (Effect.countP_set_of_not (p := fun th => phase th == .deleted key) hn.1
        (beq_eq_false_iff_ne.2 hdeleted)).trans ?_
      simp only [beq_iff_eq]
      rfl
    rw [hcreated, hremoved]
    have hbefore := hJ.count key
    have hmove := hcount key
    change _ ≤ _ + stored w' key
    omega

/-- A request that writes nothing. -/
theorem CrudInv.stay (hJ : CrudInv w₀ c) (hn : c.Next i th op k) (ha : (phase th).allows op)
    (hw : w' = c.world) (hown : ((phase th).next op ans).Fits c.world)
    (hlanded : ∀ key, (phase th).next op ans ≠ .landed key) :
    CrudInv w₀ { world := w', threads := c.threads.set i (th.resume k ans) } := by
  rw [hw]
  refine hJ.step hn ha hown (fun _ _ _ _ _ h => h) fun key => ?_
  rw [if_neg (hlanded key)]
  omega

theorem fits_of_others {s : Phase} {j : Nat} {u : Thread T} (hrace : others c i s = false)
    (hj : j ≠ i) (hu : c.threads[j]? = some u) (hlive : u.crashed = false) : phase u ≠ s := by
  have hmem : u ∈ c.threads.eraseIdx i := List.mem_eraseIdx_iff_getElem?.2 ⟨j, hj, hu⟩
  have hnot := List.any_eq_false.1 hrace u hmem
  rw [hlive] at hnot
  simpa using hnot

/-! ### One request of each kind -/

theorem CrudInv.now {ans : sig.Ans .now} {k : sig.Ans .now → Prog Unit}
    (hJ : CrudInv w₀ c) (hn : c.Next i th .now k) (ha : (phase th).allows .now)
    (hx : exec T c.world .now ch = some (ans, w')) :
    CrudInv w₀ { world := w', threads := c.threads.set i (th.resume k ans) } := by
  obtain ⟨hw, t, rfl⟩ := exec_now hx
  exact hJ.stay hn ha hw (hJ.fits i th hn.1 hn.2.1) fun key => (not_done_of_allows ha key).1

/-- What a read has found holds when it has found it. -/
theorem fits_read {s : Phase} {w : World} (ha : s.allows (.getItem key)) :
    (s.read (w.item key).isSome).Fits w := by
  rcases Phase.allows_getItem ha with rfl | rfl | rfl | rfl
  · change Phase.Fits w (ite _ _ _)
    split
    · trivial
    next h => exact Option.not_isSome_iff_eq_none.1 h
  · change Phase.Fits w (ite _ _ _)
    split
    next h => exact h
    next => trivial
  · change Phase.Fits w (ite _ _ _)
    split <;> trivial
  · trivial

theorem read_ne_landed {s : Phase} {b : Bool} (ha : s.allows (.getItem key)) (key' : Key) :
    s.read b ≠ .landed key' := by
  rcases Phase.allows_getItem ha with rfl | rfl | rfl | rfl
  · cases b <;> exact fun h => by cases h
  · cases b <;> exact fun h => by cases h
  · cases b <;> exact fun h => by cases h
  · exact fun h => by cases h

theorem CrudInv.getItem {ans : sig.Ans (.getItem key)} {k : sig.Ans (.getItem key) → Prog Unit}
    (hJ : CrudInv w₀ c) (hn : c.Next i th (.getItem key) k) (ha : (phase th).allows (.getItem key))
    (hx : exec T c.world (.getItem key) ch = some (ans, w')) :
    CrudInv w₀ { world := w', threads := c.threads.set i (th.resume k ans) } := by
  obtain ⟨hw, rfl | ⟨e, rfl⟩⟩ := exec_getItem hx
  · exact hJ.stay hn ha hw (fits_read ha) (read_ne_landed ha)
  · exact hJ.stay hn ha hw trivial fun _ h => (by cases h)

/-- No creation waits on the key, and this one has checked it or finds it free. -/
theorem CrudInv.isFree {it : Item} {k : sig.Ans (.putItem key it) → Prog Unit}
    (hJ : CrudInv w₀ c) (hφ : races c (.act i ch) = false) (hn : c.Next i th (.putItem key it) k)
    (ha : (phase th).allows (.putItem key it)) (haccepts : accepts T key ch = true) :
    c.world.item key = none ∧ others c i (.free key) = false := by
  have hop := Effect.Config.nextOp_eq_some.2 ⟨th, k, hn⟩
  simp only [races, hop, hn.1, Option.any_some, haccepts, Bool.true_and, Bool.or_eq_false_iff] at hφ
  refine ⟨?_, hφ.1⟩
  rcases Phase.allows_putItem ha with hs | hs
  · have hfree := hφ.2
    rw [hs] at hfree
    simpa using hfree
  · have hfits := hJ.fits i th hn.1 hn.2.1
    rw [hs] at hfits
    exact hfits

theorem CrudInv.putItem {it : Item} {ans : sig.Ans (.putItem key it)}
    {k : sig.Ans (.putItem key it) → Prog Unit}
    (hJ : CrudInv w₀ c) (hφ : races c (.act i ch) = false) (hn : c.Next i th (.putItem key it) k)
    (ha : (phase th).allows (.putItem key it))
    (hx : exec T c.world (.putItem key it) ch = some (ans, w')) :
    CrudInv w₀ { world := w', threads := c.threads.set i (th.resume k ans) } := by
  rcases exec_putItem hx with ⟨haccepts, rfl, rfl⟩ | ⟨e, rfl, hw⟩
  · obtain ⟨hfree, hothers⟩ := hJ.isFree hφ hn ha haccepts
    have hnext : (phase th).next (.putItem key it) (.ok ()) = .landed key := by
      rcases Phase.allows_putItem ha with hs | hs
      · rw [hs]; rfl
      · rw [hs]; rfl
    refine hJ.step hn ha (by rw [hnext]; trivial) (fun j u hj hu hlive hfits => ?_) fun key' => ?_
    · cases hs : phase u with
      | free key' =>
        rw [hs] at hfits
        have hne : key' ≠ key := by
          rintro rfl
          exact fits_of_others hothers hj hu hlive hs
        exact (Dynamo.Table.put_item_ne _ _ hne).trans hfits
      | found key' =>
        rw [hs] at hfits
        by_cases hkey : key' = key
        · subst hkey
          exact congrArg Option.isSome (Dynamo.Table.put_item_self ..)
        · exact (congrArg Option.isSome (Dynamo.Table.put_item_ne _ _ hkey)).trans hfits
      | _ => trivial
    · rw [hnext, if_neg (fun h => (by cases h) : Phase.landed key ≠ .deleted key')]
      by_cases hkey : key' = key
      · subst hkey
        simp [stored, hfree]
      · rw [if_neg (fun h => hkey (by cases h; rfl))]
        simp [stored, Dynamo.Table.put_item_ne _ _ hkey]
  · exact hJ.stay hn ha hw trivial fun _ h => (by cases h)

theorem CrudInv.updateItem {u : Dynamo.Update schema} {clear : List String}
    {ans : sig.Ans (.updateItem key u clear)} {k : sig.Ans (.updateItem key u clear) → Prog Unit}
    (hJ : CrudInv w₀ c) (hn : c.Next i th (.updateItem key u clear) k)
    (ha : (phase th).allows (.updateItem key u clear))
    (hx : exec T c.world (.updateItem key u clear) ch = some (ans, w')) :
    CrudInv w₀ { world := w', threads := c.threads.set i (th.resume k ans) } := by
  have hs := Phase.allows_updateItem ha
  have hthere : (c.world.item key).isSome = true := by
    have hfits := hJ.fits i th hn.1 hn.2.1
    rw [hs] at hfits
    exact hfits
  rcases exec_updateItem hx with ⟨it, rfl, rfl⟩ | ⟨e, rfl, hw⟩
  · have hnext : (phase th).next (.updateItem key u clear) (.ok ()) = .settled := by
      rw [hs]
      rfl
    have hsame : ∀ key', ((c.world.put key it).item key').isSome = (c.world.item key').isSome := by
      intro key'
      by_cases hkey : key' = key
      · subst hkey
        rw [Dynamo.Table.put_item_self, hthere]
        rfl
      · rw [Dynamo.Table.put_item_ne _ _ hkey]
    refine hJ.step hn ha (by rw [hnext]; trivial) (fun j u hj hu hlive hfits => ?_) fun key' => ?_
    · cases hs' : phase u with
      | free key' =>
        rw [hs'] at hfits
        have hnone := hsame key'
        rw [show c.world.item key' = none from hfits] at hnone
        exact Option.not_isSome_iff_eq_none.1 (by rw [hnone]; decide)
      | found key' =>
        rw [hs'] at hfits
        exact (hsame key').trans hfits
      | _ => trivial
    · rw [hnext]
      simp [stored, hsame key']
  · exact hJ.stay hn ha hw trivial fun _ h => (by cases h)

theorem CrudInv.deleteItem {ans : sig.Ans (.deleteItem key)}
    {k : sig.Ans (.deleteItem key) → Prog Unit}
    (hJ : CrudInv w₀ c) (hφ : races c (.act i ch) = false) (hn : c.Next i th (.deleteItem key) k)
    (ha : (phase th).allows (.deleteItem key))
    (hx : exec T c.world (.deleteItem key) ch = some (ans, w')) :
    CrudInv w₀ { world := w', threads := c.threads.set i (th.resume k ans) } := by
  rcases exec_deleteItem hx with ⟨haccepts, rfl, rfl⟩ | ⟨e, rfl, hw⟩
  · have hop := Effect.Config.nextOp_eq_some.2 ⟨th, k, hn⟩
    simp only [races, hop, haccepts, Bool.true_and] at hφ
    have hnext : (phase th).next (.deleteItem key) (.ok ()) = .deleted key := by
      rw [Phase.allows_deleteItem ha]
      rfl
    refine hJ.step hn ha (by rw [hnext]; trivial) (fun j u hj hu hlive hfits => ?_) fun key' => ?_
    · cases hs : phase u with
      | free key' =>
        rw [hs] at hfits
        by_cases hkey : key' = key
        · subst hkey
          exact Dynamo.Table.delete_item_self ..
        · exact (Dynamo.Table.delete_item_ne _ hkey).trans hfits
      | found key' =>
        rw [hs] at hfits
        have hne : key' ≠ key := by
          rintro rfl
          exact fits_of_others hφ hj hu hlive hs
        exact (congrArg Option.isSome (Dynamo.Table.delete_item_ne _ hne)).trans hfits
      | _ => trivial
    · rw [hnext, if_neg (fun h => (by cases h) : Phase.deleted key ≠ .landed key')]
      by_cases hkey : key' = key
      · subst hkey
        rw [if_pos rfl]
        unfold stored
        split <;> split <;> omega
      · rw [if_neg (fun h => hkey (by cases h; rfl))]
        simp [stored, Dynamo.Table.delete_item_ne _ hkey]
  · exact hJ.stay hn ha hw trivial fun _ h => (by cases h)

/-- **Step lemma.** A request that is no race keeps the invariant. -/
theorem CrudInv.act (hJ : CrudInv w₀ c) (hφ : races c (.act i ch) = false)
    (hn : c.Next i th op k) (ha : (phase th).allows op)
    (hx : exec T c.world op ch = some (ans, w')) :
    CrudInv w₀ { world := w', threads := c.threads.set i (th.resume k ans) } := by
  cases op with
  | now => exact hJ.now hn ha hx
  | getItem key => exact hJ.getItem hn ha hx
  | putItem key it => exact hJ.putItem hφ hn ha hx
  | updateItem key u clear => exact hJ.updateItem hn ha hx
  | deleteItem key => exact hJ.deleteItem hφ hn ha hx

/-! ## Runs -/

theorem CrudInv.start (hJ : CrudInv w₀ c) (e : Entry) :
    CrudInv w₀ { c with threads := c.threads ++ [Effect.Thread.init e] } := by
  have hinit : ∀ key, phaseInit T e ≠ .landed key ∧ phaseInit T e ≠ .deleted key := fun key => by
    cases e <;> exact ⟨fun h => (by cases h), fun h => (by cases h)⟩
  have hcount : ∀ s, phaseInit T e ≠ s →
      (c.threads ++ [Effect.Thread.init e]).countP (fun th => phase th == s) =
        c.threads.countP fun th => phase th == s := by
    intro s hs
    have hnot : (phase (Effect.Thread.init e : Thread T) == s) = false := beq_eq_false_iff_ne.2 hs
    rw [List.countP_append, List.countP_singleton, hnot]
    rfl
  refine ⟨fun j th hth hlive => ?_, fun key => ?_⟩
  · rcases getElem?_concat_cases hth with hth | rfl
    · exact hJ.fits j th hth hlive
    · change (phaseInit T e).Fits c.world
      cases e <;> trivial
  · unfold landed deletions
    rw [hcount _ (hinit key).1, hcount _ (hinit key).2]
    exact hJ.count key

theorem CrudInv.crash (hJ : CrudInv w₀ c) (hi : c.threads[i]? = some th) :
    CrudInv w₀ { c with threads := c.threads.set i { th with crashed := true } } := by
  refine ⟨fun j u hu hlive => ?_, fun key => ?_⟩
  · rcases getElem?_set_cases hu with ⟨_, rfl⟩ | ⟨_, hu⟩
    · cases hlive
    · exact hJ.fits j u hu hlive
  · have hsame : ∀ s, (c.threads.set i { th with crashed := true }).countP
        (fun u => phase u == s) = c.threads.countP fun u => phase u == s :=
      fun s => Effect.countP_set_of_eq (p := fun u => phase u == s) hi rfl
    unfold landed deletions
    rw [hsame, hsame]
    exact hJ.count key

/-- The invariant with the programs that are left. -/
def Running (w₀ : World) (c : Config T) : Prop :=
  phaseProtocol.Coupled (phaseInit T) (fun s _ => s.Returned) Phase.Raised c ∧ CrudInv w₀ c

/-- **Run lemma.** -/
theorem Running.play {c' : Config T} {ms : List (Move T)} (h₀ : Running w₀ c)
    (ha : Along (fun c m => races c m = false) c ms) (h : Effect.play c ms = some c') :
    Running w₀ c' := by
  unfold Running
  exact protocol_inv (R := phaseProtocol) (φ := fun c m => races c m = false) (phaseInit T)
    (J := CrudInv w₀) Phase.obeys_body (fun _ e hJ _ => hJ.start e)
    (fun _ _ _ _ _ _ _ _ hJ _ hφ hn ha hx => ⟨trivial, hJ.act hφ hn ha hx⟩)
    (fun _ _ _ hJ _ hi => hJ.crash hi) h₀.1 h₀.2 ha h

theorem Running.init (w : World) : Running w (.init w : Config T) :=
  ⟨fun _ ht => (by cases ht), fun _ _ ht => (by cases ht), fun _ => Nat.le_refl _⟩

theorem Running.orderly {m : Move T} (hc : Running w₀ c) (hφ : races c m = false) :
    Orderly c m := by
  cases m with
  | start e => trivial
  | crash i => trivial
  | act i ch =>
    intro c' hm
    obtain ⟨th, op, k, ans, w', hn, hx, rfl⟩ := Effect.move_act hm
    have hop := Effect.Config.nextOp_eq_some.2 ⟨th, k, hn⟩
    have ha : (phase th).allows op := hc.1.allow hn
    constructor
    · intro key it hput hthere
      obtain rfl := Option.some.inj (hop.symm.trans hput)
      rcases exec_putItem hx with ⟨haccepts, _, _⟩ | ⟨_, _, rfl⟩
      · rw [(hc.2.isFree hφ hn ha haccepts).1] at hthere
        cases hthere
      · rfl
    · intro key u clear hupdate hnone
      obtain rfl := Option.some.inj (hop.symm.trans hupdate)
      have hfits := hc.2.fits i th hn.1 hn.2.1
      rw [Phase.allows_updateItem ha] at hfits
      have hthere : (c.world.item key).isSome = true := hfits
      rw [hnone] at hthere
      cases hthere

/-! ## How a creation ends -/

/-- It has returned after its put, has raised for the item it has found, or a request has failed. -/
structure CreationEnds (th : Thread T) (key : Key) : Prop where
  returned : th.prog = .ret () → phase th = .landed key
  raised   : ∀ e, th.prog = .raise e →
    phase th = .taken key ∧ e = itemExists key ∨ phase th = .failed e

def Phase.OfCreation (key : Key) : Phase → Prop
  | creating key' _ | free key' | taken key' | landed key' => key' = key
  | failed _ => True
  | _ => False

theorem Phase.OfCreation.next {s : Phase} (hs : s.OfCreation key) (op : Op) (ans : sig.Ans op) :
    (s.next op ans).OfCreation key := by
  cases ans with
  | error e => cases op <;> trivial
  | ok r =>
    cases op with
    | now => exact hs
    | getItem key' =>
      change (s.read (r : Option Item).isSome).OfCreation key
      cases s with
      | creating => cases (r : Option Item).isSome <;> exact hs
      | free | taken | landed | failed => exact hs
      | _ => exact hs.elim
    | putItem | updateItem | deleteItem =>
      change s.written.OfCreation key
      cases s with
      | creating | free | taken | landed | failed => exact hs
      | _ => exact hs.elim

theorem ofCreation_phase {pk : String} {sk : Option String} {item : Item} {checkExists : Bool}
    (he : th.entry = .create pk sk item checkExists) :
    (phase th).OfCreation (T.buildKey pk sk) := by
  have hfold : ∀ tr : List (Effect.Event sig), Phase.OfCreation (T.buildKey pk sk)
      (tr.foldr (fun ev s => Phase.next s ev.op ev.ans) (phaseInit T th.entry)) := by
    intro tr
    induction tr with
    | nil =>
      rw [he]
      exact rfl
    | cons ev tr ih => exact ih.next ev.op ev.ans
  exact hfold th.trace

theorem Running.ends (hc : Running w₀ c) (hth : th ∈ c.threads) {pk : String}
    {sk : Option String} {item : Item} {checkExists : Bool}
    (he : th.entry = .create pk sk item checkExists) : CreationEnds th (T.buildKey pk sk) := by
  have hof := ofCreation_phase he
  have hobeys := hc.1 th hth
  constructor
  · intro hret
    rw [hret] at hobeys
    have hreturned : (phase th).Returned := hobeys
    cases hs : phase th with
    | landed key =>
      rw [hs] at hof
      rw [show key = T.buildKey pk sk from hof]
    | creating | free | taken | failed =>
      rw [hs] at hreturned
      exact hreturned.elim
    | _ =>
      rw [hs] at hof
      exact hof.elim
  · intro e hraise
    rw [hraise] at hobeys
    have hraised : (phase th).Raised e := hobeys
    cases hs : phase th with
    | taken key =>
      rw [hs] at hof hraised
      rw [show key = T.buildKey pk sk from hof] at hraised ⊢
      exact .inl ⟨rfl, hraised⟩
    | failed e' =>
      rw [hs] at hraised
      exact .inr (congrArg _ (Eq.symm hraised))
    | creating | free | landed =>
      rw [hs] at hraised
      exact hraised.elim
    | _ =>
      rw [hs] at hof
      exact hof.elim

/-- **Along a run without races no put changes a stored item and no update brings one back; of the
creations of a key at most one more than its deletions succeeds, and the others report.** -/
theorem create_exclusive {w : World} {ms : List (Move T)}
    (hsteps : Along (fun c m => races c m = false) (.init w) ms)
    (h : Effect.play (.init w) ms = some c) :
    Along Orderly (.init w) ms ∧
      (∀ key, landed c key + stored w key ≤ deletions c key + 1) ∧
      ∀ th ∈ c.threads, ∀ pk sk item checkExists, th.entry = .create pk sk item checkExists →
        CreationEnds th (T.buildKey pk sk) := by
  have hrun := (Running.init w).play hsteps h
  refine ⟨?_, fun key => ?_, fun th hth pk sk item checkExists he => hrun.ends hth he⟩
  · refine Along.of_inv (I := Running w) (fun c m c' hc hφ hm => ?_) (fun c m hc hφ => hc.orderly hφ)
      (Running.init w) hsteps
    have hone : Effect.play c [m] = some c' := by
      simp only [Effect.play, hm]
      rfl
    have hφ' : Along (fun c m => races c m = false) c [m] := ⟨hφ, fun _ _ => trivial⟩
    exact hc.play hφ' hone
  · have hcount := hrun.2.count key
    have hone : stored c.world key ≤ 1 := by
      unfold stored
      split <;> omega
    omega

end

/-! ## Two creations, one after the other and at once -/

def categories : CrudTable where
  tableName := some "document-categories"
  pkField   := "tenantId"
  skField   := some "categoryName"

def createInvoice (displayName : String) : Move categories :=
  .start (.create "acme" (some "invoice")
    (fun a => if a = "displayName" then some (.string displayName) else none) true)

def noItems : World := .empty

/-- The second creation finds the item of the first. -/
def createTwice : List (Move categories) :=
  createInvoice "Invoices" :: List.replicate 3 (.act 0 {}) ++ [createInvoice "Bills", .act 1 {}]

theorem create_exclusive_createTwice : ∃ c, Effect.play (.init noItems) createTwice = some c ∧
    landed c ("acme", some "invoice") ≤ 1 := by
  have hplay : (Effect.play (.init noItems) createTwice).map
      (fun c => deletions c ("acme", some "invoice")) = some 0 := by decide +kernel
  obtain ⟨c, hc, hnone⟩ := Option.map_eq_some_iff.1 hplay
  refine ⟨c, hc, ?_⟩
  have hfree : Along (fun c m => races c m = false) (.init noItems) createTwice := by
    decide +kernel
  have hcount := (create_exclusive (w := noItems) hfree hc).2.1 ("acme", some "invoice")
  rw [hnone] at hcount
  exact hcount

/-- Both creations read before either puts. -/
def createAtOnce : List (Move categories) :=
  [createInvoice "Invoices", createInvoice "Bills", .act 0 {}, .act 1 {}] ++
    List.replicate 2 (.act 0 {}) ++ List.replicate 2 (.act 1 {})

theorem create_not_exclusive : ¬ ∀ (T : CrudTable) (w : World) (ms : List (Move T)) (c : Config T),
    Effect.play (.init w) ms = some c → Along Orderly (.init w) ms ∧
      (∀ key, landed c key + stored w key ≤ deletions c key + 1) ∧
      ∀ th ∈ c.threads, ∀ pk sk item checkExists, th.entry = .create pk sk item checkExists →
        CreationEnds th (T.buildKey pk sk) := by
  intro hall
  have hplay : (Effect.play (.init noItems) createAtOnce).map (fun c =>
      (landed c ("acme", some "invoice"), deletions c ("acme", some "invoice"))) = some (2, 0) := by
    decide +kernel
  obtain ⟨c, hc, hdata⟩ := Option.map_eq_some_iff.1 hplay
  obtain ⟨htwo, hnone⟩ := Prod.mk.inj hdata
  have hcount := (hall categories noItems createAtOnce c hc).2.1 ("acme", some "invoice")
  rw [htwo, hnone] at hcount
  omega

end DocumentAi.BaseCrudTable
