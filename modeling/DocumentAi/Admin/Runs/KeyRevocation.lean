import DocumentAi.Lib.Protocol
import DocumentAi.Admin.Exec

/-!
# Is a revoked key refused at once?

A key can be stored under two hashes, its plain one and its peppered one, and is cached under one of
them. `deactivate_api_key` updates the record of one hash and then invalidates that hash in the cache.
An authentication that has read the record before may still store it under the other hash or cache it
after.

| here | meaning |
| --- | --- |
| `keyHashes`   | the hashes of a key |
| `KeyState`    | what a handler has read of the key and which hashes it has deactivated |
| `deactivated` | a deactivation of the key has made its last call, after which it returns `True` |
| `resurrects`  | the deactivation of one hash with the other live, or the write of a record read before |
| `revocation_final` | in a run without such moves a revoked key stays revoked and is refused |
-/

namespace DocumentAi.Admin

open Effect (play play_append Along along_append getElem?_set_cases getElem?_concat_cases)
open Effect.Prog (All all_bind all_perform spec_tryCatch spec_ite)
open Effect.Protocol (obeys_bind obeys_tryCatch obeys_perform obeys_ret obeys_raise
  obeys_of_inv protocol_inv)

/-- The hashes under which a key can be stored. -/
def keyHashes (env : KeyEnv) (apiKey : String) : List String :=
  hashKey env apiKey :: (getPepper env).toList.map fun pepper => hashKeyWithPepper env apiKey pepper

theorem computeKeyHash_mem (env : KeyEnv) (apiKey : String) :
    computeKeyHash env apiKey ∈ keyHashes env apiKey := by
  unfold computeKeyHash keyHashes
  cases getPepper env <;> simp

theorem pepperedHash_mem {env : KeyEnv} {pepper : String} (hp : getPepper env = some pepper)
    (apiKey : String) : hashKeyWithPepper env apiKey pepper ∈ keyHashes env apiKey := by
  simp [keyHashes, hp]

/-- The hash is stored with an active record. -/
def World.activeHash (w : World) (h : String) : Bool :=
  (w.apiKeys.item h).any fun (it : KeyRecord) => it.isActive

/-- The process caches an active record under the hash. -/
def World.cachesActive (w : World) (pid : Nat) (h : String) : Bool :=
  (w.processes pid).cache.any fun e => e.1 == h && e.2.value.isActive

/-- The request of `_update_last_used`. -/
def lastUsedUpdate (now : Timestamp) : Dynamo.Update ApiKeyRecord.schema :=
  { actions := [.set .lastUsed now] }

def setsInactive (u : Dynamo.Update ApiKeyRecord.schema) : Bool :=
  (Dynamo.lastSet (T := ApiKeyRecord.schema) .isActive u.actions).any fun (b : Bool) => !b

/-! ## What a handler has read and deactivated -/

structure KeyState where
  /-- One of the handlers the run is about. -/
  inRun    : Bool
  /-- An authentication with the key. -/
  own      : Bool := false
  /-- It has been answered an active record of the key. -/
  seen     : Bool := false
  updated  : List String := []
  returned : List String := []

namespace KeyState

variable (env : KeyEnv) (pid : Nat) (apiKey : String)

def next (s : KeyState) : (op : Op) → sig.Ans op → KeyState
  | .getKey h, .ok r =>
    { s with seen := s.seen ||
        (keyHashes env apiKey).contains h && (r : Option KeyRecord).any (·.isActive) }
  | .cacheGet q h, .ok r =>
    { s with seen := s.seen ||
        q == pid && h == computeKeyHash env apiKey && (r : Option KeyRecord).any (·.isActive) }
  | .updateKey h u, .ok _ => { s with updated := if setsInactive u then h :: s.updated else s.updated }
  | .cacheInvalidate q h, .ok _ =>
    { s with returned := if q == pid && s.updated.contains h then h :: s.returned else s.returned }
  | _, _ => s

/-- The only requests on a stored key beside puts and deletes. -/
def IsKeyUpdate (u : Dynamo.Update ApiKeyRecord.schema) : Prop :=
  u = deactivation ∨ ∃ now, u = lastUsedUpdate now

abbrev protocol : Effect.Protocol sig where
  State := KeyState
  allow s op := s.inRun = true → ∀ h u, op = .updateKey h u → IsKeyUpdate u
  possible _ _ _ := True
  next s op ans := s.next env pid apiKey op ans

def init : Entry → KeyState
  | .authenticate q key    => { inRun := q == pid, own := q == pid && key == apiKey }
  | .deactivateApiKey q _  => { inRun := q == pid }
  | .updateLastUsed q _    => { inRun := q == pid }
  | _                      => { inRun := false }

/-! ## Every handler of the run obeys -/

variable {env pid apiKey}
variable {α : Type} {s : KeyState} {h : String}

@[simp] theorem next_inRun (op : Op) (ans : sig.Ans op) :
    (s.next env pid apiKey op ans).inRun = s.inRun := by
  cases op with
  | _ => cases ans <;> rfl

@[simp] theorem next_own (op : Op) (ans : sig.Ans op) :
    (s.next env pid apiKey op ans).own = s.own := by
  cases op with
  | _ => cases ans <;> rfl

theorem next_seen (hs : s.seen = true) (op : Op) (ans : sig.Ans op) :
    (s.next env pid apiKey op ans).seen = true := by
  cases op with
  | getKey | cacheGet =>
    cases ans with
    | ok r => exact Bool.or_eq_true_iff.2 (.inl hs)
    | error e => exact hs
  | _ => cases ans <;> exact hs

/-- The request, if it updates a key, is one of the two. -/
def Allowed (op : Op) : Prop := ∀ h u, op = .updateKey h u → IsKeyUpdate u

theorem allowed_of_other {op : Op} (hop : ∀ h u, op ≠ .updateKey h u) : Allowed op :=
  fun h u he => absurd he (hop h u)

theorem allowed_call {op : Op} (hop : ∀ h u, op ≠ .updateKey h u) : All Allowed (call op) :=
  all_perform (allowed_of_other hop)

theorem allowed_lookupKeyInDdb (h : String) : All Allowed (lookupKeyInDdb h) :=
  spec_tryCatch (allowed_call fun _ _ h => by cases h) fun _ => trivial

theorem allowed_migrateKeyHash (oldHash newHash : String) :
    All Allowed (migrateKeyHash pid oldHash newHash) := by
  refine spec_tryCatch (all_bind (allowed_lookupKeyInDdb oldHash) fun r => ?_) fun _ => trivial
  cases r with
  | none => trivial
  | some existing =>
    refine all_bind (allowed_call fun _ _ h => by cases h) fun _ => ?_
    refine all_bind (allowed_call fun _ _ h => by cases h) fun _ => ?_
    exact allowed_call fun _ _ h => by cases h

theorem allowed_legacyLookup (key : String) : All Allowed (legacyLookup env pid key) := by
  refine all_bind (allowed_lookupKeyInDdb _) fun r => ?_
  cases r with
  | none => trivial
  | some record =>
    dsimp only
    split
    · trivial
    · exact all_bind (allowed_migrateKeyHash ..) fun _ => trivial

theorem allowed_lookupAndMaybeMigrate (key : String) :
    All Allowed (lookupAndMaybeMigrate env pid key) := by
  unfold lookupAndMaybeMigrate
  split
  · exact allowed_legacyLookup key
  · refine all_bind (allowed_lookupKeyInDdb _) fun r => ?_
    cases r with
    | none => exact allowed_legacyLookup key
    | some _ => trivial

theorem allowed_validateKeyRecord (record : KeyRecord) : All Allowed (validateKeyRecord record) := by
  refine spec_ite trivial ?_
  split
  · exact all_bind (allowed_call fun _ _ h => by cases h) fun _ => trivial
  · trivial

theorem allowed_acceptRecord (hash : String) (record : KeyRecord) :
    All Allowed (acceptRecord pid hash record) := by
  unfold acceptRecord
  split
  · trivial
  · exact all_bind (allowed_call fun _ _ h => by cases h) fun _ => trivial

theorem allowed_authenticate (key : String) : All Allowed (authenticate env pid key) := by
  refine spec_ite (all_bind ?_ fun r => ?_) trivial
  · refine all_bind (allowed_call fun _ _ h => by cases h) fun cached => ?_
    cases cached with
    | some _ => trivial
    | none =>
      refine all_bind (allowed_lookupAndMaybeMigrate key) fun found => ?_
      cases found with
      | none => trivial
      | some _ => exact all_bind (allowed_call fun _ _ h => by cases h) fun _ => trivial
  · cases r with
    | none => trivial
    | some record =>
      exact all_bind (allowed_validateKeyRecord record) fun _ =>
        spec_ite (allowed_acceptRecord ..) trivial

theorem allowed_deactivateApiKey (h : String) : All Allowed (deactivateApiKey pid h) := by
  refine all_bind (allowed_call fun _ _ h => by cases h) fun r => ?_
  cases r with
  | none => trivial
  | some _ =>
    have hupdate : Allowed (.updateKey h deactivation) := fun _ _ he => by
      cases he
      exact .inl rfl
    exact all_bind (all_perform hupdate) fun _ =>
      all_bind (allowed_call fun _ _ h => by cases h) fun _ => trivial

theorem allowed_updateLastUsed (h : String) : All Allowed (updateLastUsed pid h) := by
  refine all_bind (allowed_call fun _ _ h => by cases h) fun due => spec_ite ?_ trivial
  refine spec_tryCatch (all_bind (allowed_call fun _ _ h => by cases h) fun now => ?_)
    fun _ => allowed_call fun _ _ h => by cases h
  have hupdate : Allowed (.updateKey h (lastUsedUpdate now)) := fun _ _ he => by
    cases he
    exact .inr ⟨now, rfl⟩
  have hcall : All Allowed (call (.updateKey h (lastUsedUpdate now))) := all_perform hupdate
  exact hcall

theorem allow_of_allowed {op : Op} (hop : Allowed op) : (protocol env pid apiKey).allow s op :=
  fun _ => hop

/-- What an authentication may answer: an active record of the key only if it has been read. -/
def Read (s : KeyState) (r : KeyRecord) : Prop := r.isActive = true → s.seen = true

theorem Read.keep {r : KeyRecord} {p : Prog α} (hr : Read s r) (hp : All Allowed p) :
    (protocol env pid apiKey).Obeys (fun s _ => Read s r) (fun _ _ => True) s p := by
  have hI : ∀ (s : KeyState) (op : Op), Allowed op → Read s r →
      (protocol env pid apiKey).allow s op ∧ ∀ ans, Read (s.next env pid apiKey op ans) r :=
    fun s op hop hs => ⟨allow_of_allowed hop, fun ans hact => next_seen (hs hact) op ans⟩
  exact (obeys_of_inv (R := protocol env pid apiKey) hI hp hr).mono (fun _ _ h => h)
    fun _ _ _ => trivial

theorem obeys_lookupKeyInDdb (hh : h ∈ keyHashes env apiKey) :
    (protocol env pid apiKey).Obeys (fun s r => ∀ it, r = some it → Read s it) (fun _ _ => True) s
      (lookupKeyInDdb h) := by
  refine obeys_tryCatch (F := fun _ _ => True) (obeys_perform ?_ (fun r _ it he hact => ?_)
    fun _ _ => trivial) fun _ _ _ => obeys_ret fun _ he => by cases he
  · exact allow_of_allowed (allowed_of_other fun _ _ h => by cases h)
  · rw [he]
    simp [KeyState.next, hh, hact]

theorem obeys_legacyLookup :
    (protocol env pid apiKey).Obeys (fun s r => ∀ it, r = some it → Read s it) (fun _ _ => True) s
      (legacyLookup env pid apiKey) := by
  refine obeys_bind (obeys_lookupKeyInDdb List.mem_cons_self) fun s r hr => ?_
  cases r with
  | none => exact obeys_ret fun _ he => by cases he
  | some record =>
    have hrecord := hr record rfl
    dsimp only
    cases getPepper env with
    | none => exact obeys_ret hr
    | some pepper =>
      refine obeys_bind (hrecord.keep (allowed_migrateKeyHash ..)) fun s _ hs => obeys_ret ?_
      rintro it ⟨⟩
      exact hs

theorem obeys_lookupAndMaybeMigrate :
    (protocol env pid apiKey).Obeys (fun s r => ∀ it, r = some it → Read s it) (fun _ _ => True) s
      (lookupAndMaybeMigrate env pid apiKey) := by
  unfold lookupAndMaybeMigrate
  split
  · exact obeys_legacyLookup
  next pepper hp =>
    refine obeys_bind (obeys_lookupKeyInDdb (pepperedHash_mem hp apiKey)) fun s r hr => ?_
    cases r with
    | none => exact obeys_legacyLookup
    | some record => exact obeys_ret hr

theorem obeys_findRecord :
    (protocol env pid apiKey).Obeys (fun s r => ∀ it, r = some it → Read s it) (fun _ _ => True) s
      (findRecord env pid apiKey) := by
  refine obeys_bind (Q := fun s r => ∀ it, r = some it → Read s it)
    (obeys_perform ?_ (fun r _ it he hact => ?_) fun _ _ => trivial) fun s r hr => ?_
  · exact allow_of_allowed (allowed_of_other fun _ _ h => by cases h)
  · rw [he]
    simp [KeyState.next, hact]
  cases r with
  | some record => exact obeys_ret hr
  | none =>
    refine obeys_bind obeys_lookupAndMaybeMigrate fun s r hr => ?_
    cases r with
    | none => exact obeys_ret hr
    | some record =>
      refine obeys_bind ((hr record rfl).keep (allowed_call fun _ _ h => by cases h))
        fun s _ hs => obeys_ret ?_
      rintro it ⟨⟩
      exact hs

theorem validateKeyRecord_inactive {record : KeyRecord} (hr : record.isActive = false) :
    validateKeyRecord record = .ret false := by
  unfold validateKeyRecord
  rw [hr]
  rfl

/-- An authentication that succeeds has been answered an active record of the key. -/
theorem obeys_authenticate :
    (protocol env pid apiKey).Obeys (fun s _ => s.seen = true) (fun _ _ => True) s
      (authenticate env pid apiKey) := by
  unfold authenticate
  split
  · refine obeys_bind obeys_findRecord fun s r hr => ?_
    cases r with
    | none => exact obeys_raise trivial
    | some record =>
      have hrecord : Read s record := hr record rfl
      dsimp only
      cases hact : record.isActive with
      | false =>
        rw [validateKeyRecord_inactive hact]
        exact obeys_raise trivial
      | true =>
        have hrest : All Allowed ((validateKeyRecord record).bind fun valid =>
            if valid then acceptRecord pid (computeKeyHash env apiKey) record
            else throw invalidApiKey) :=
          all_bind (allowed_validateKeyRecord record) fun _ =>
            spec_ite (allowed_acceptRecord ..) trivial
        exact (hrecord.keep hrest).mono (fun _ _ hs => hs hact) fun _ _ _ => trivial
  · exact obeys_raise trivial

/-- At its end an authentication with the key has been answered an active record. -/
theorem obeys_body (e : Entry) :
    (protocol env pid apiKey).Obeys (fun s _ => s.own = true → s.seen = true) (fun _ _ => True)
      (init pid apiKey e) (e.body env) := by
  have hother : ∀ {s : KeyState} {p : Prog Unit}, s.own = false → All Allowed p ∨ s.inRun = false →
      (protocol env pid apiKey).Obeys (fun s _ => s.own = true → s.seen = true) (fun _ _ => True)
        s p := by
    intro s p hs hp
    have hmono : ∀ {s' : KeyState}, s'.own = false → s'.own = true → s'.seen = true :=
      fun h h' => by rw [h] at h'; cases h'
    rcases hp with hp | hrun
    · have hI : ∀ (s : KeyState) (op : Op), Allowed op → s.own = false →
          (protocol env pid apiKey).allow s op ∧
            ∀ ans, (s.next env pid apiKey op ans).own = false :=
        fun s op hop ho => ⟨allow_of_allowed hop, fun ans => (next_own op ans).trans ho⟩
      exact (obeys_of_inv (R := protocol env pid apiKey) hI hp hs).mono (fun _ _ h => hmono h)
        fun _ _ _ => trivial
    · have hI : ∀ (s : KeyState) (op : Op), True → s.own = false ∧ s.inRun = false →
          (protocol env pid apiKey).allow s op ∧ ∀ ans,
            (s.next env pid apiKey op ans).own = false ∧
              (s.next env pid apiKey op ans).inRun = false :=
        fun s op _ ho => ⟨fun h => (by rw [ho.2] at h; cases h),
          fun ans => ⟨(next_own op ans).trans ho.1, (next_inRun op ans).trans ho.2⟩⟩
      exact (obeys_of_inv (R := protocol env pid apiKey) hI (Effect.Prog.all_true p) ⟨hs, hrun⟩).mono
        (fun _ _ h => hmono h.1) fun _ _ _ => trivial
  cases e with
  | authenticate q key =>
    by_cases hown : q = pid ∧ key = apiKey
    · obtain ⟨rfl, rfl⟩ := hown
      exact obeys_bind (obeys_authenticate.mono (fun _ _ h => h) fun _ _ h => h)
        fun s _ hs => obeys_ret fun _ => hs
    · refine hother ?_ (.inl (all_bind (allowed_authenticate key) fun _ => trivial))
      simpa [init] using hown
  | deactivateApiKey q h =>
    exact hother rfl (.inl (all_bind (allowed_deactivateApiKey h) fun _ => trivial))
  | updateLastUsed q i =>
    exact hother rfl (.inl (all_bind (allowed_call fun _ _ h => by cases h) allowed_updateLastUsed))
  | _ => exact hother rfl (.inr rfl)

end KeyState

section
variable {env : KeyEnv} {pid : Nat} {apiKey : String}

abbrev keyState (pid : Nat) (apiKey : String) (th : Thread env) : KeyState :=
  (KeyState.protocol env pid apiKey).loc (KeyState.init pid apiKey) th

/-! ## Moves that bring a revoked key back -/

/-- A deactivation of the key has updated its record. -/
def recordRevoked (pid : Nat) (apiKey : String) (c : Config env) : Bool :=
  c.threads.any fun th => (keyHashes env apiKey).any (keyState pid apiKey th).updated.contains

/-- A deactivation of the key has made its last call, after which it returns `True`. -/
def deactivated (pid : Nat) (apiKey : String) (c : Config env) : Bool :=
  c.threads.any fun th => (keyHashes env apiKey).any (keyState pid apiKey th).returned.contains

/-- A deactivation has updated the record of a hash under which the key is not cached. -/
def updatedApart (pid : Nat) (apiKey : String) (c : Config env) : Bool :=
  c.threads.any fun th => (keyHashes env apiKey).any fun h =>
    h != computeKeyHash env apiKey && (keyState pid apiKey th).updated.contains h

/-- Nothing invalidates the cached key any more. -/
def cacheRevoked (pid : Nat) (apiKey : String) (c : Config env) : Bool :=
  deactivated pid apiKey c || updatedApart pid apiKey c

/-- The key stays usable through another hash than `h`. -/
def liveApart (w : World) (env : KeyEnv) (pid : Nat) (apiKey h : String) : Bool :=
  (keyHashes env apiKey).any (fun j => j != h && w.activeHash j) ||
    h != computeKeyHash env apiKey && w.cachesActive pid (computeKeyHash env apiKey)

/-- The move deactivates one hash of the key while another is live, or writes an active record of
the key after a deactivation. -/
def resurrects (pid : Nat) (apiKey : String) (c : Config env) : Move env → Bool
  | .act i ch =>
    match c.nextOp i, ch.fail with
    | some (.updateKey h u), none =>
      setsInactive u && (keyHashes env apiKey).contains h && liveApart c.world env pid apiKey h
    | some (.putKey h it), none =>
      it.isActive && (keyHashes env apiKey).contains h && recordRevoked pid apiKey c
    | some (.cacheAdd q h it _), _ =>
      it.isActive && (q == pid && h == computeKeyHash env apiKey) && cacheRevoked pid apiKey c
    | _, _ => false
  | _ => false

/-! ## The invariant -/

/-- No record of the key is active. -/
def RecordsInactive (env : KeyEnv) (apiKey : String) (w : World) : Prop :=
  ∀ h ∈ keyHashes env apiKey, w.activeHash h = false

structure KeyInv (pid : Nat) (apiKey : String) (c : Config env) : Prop where
  scope  : ∀ th ∈ c.threads, (keyState pid apiKey th).inRun = true
  order  : ∀ th ∈ c.threads, ∀ h ∈ (keyState pid apiKey th).returned,
    h ∈ (keyState pid apiKey th).updated
  record : recordRevoked pid apiKey c = true → RecordsInactive env apiKey c.world
  cached : cacheRevoked pid apiKey c = true →
    c.world.cachesActive pid (computeKeyHash env apiKey) = false

theorem recordRevoked_iff {c : Config env} : recordRevoked pid apiKey c = true ↔
    ∃ th ∈ c.threads, ∃ h ∈ keyHashes env apiKey, h ∈ (keyState pid apiKey th).updated := by
  simp [recordRevoked, List.any_eq_true]

theorem cacheRevoked_iff {c : Config env} : cacheRevoked pid apiKey c = true ↔
    ∃ th ∈ c.threads, ∃ h ∈ keyHashes env apiKey, h ∈ (keyState pid apiKey th).returned ∨
      (h ≠ computeKeyHash env apiKey ∧ h ∈ (keyState pid apiKey th).updated) := by
  simp only [cacheRevoked, deactivated, updatedApart, Bool.or_eq_true, List.any_eq_true,
    Bool.and_eq_true, bne_iff_ne, List.contains_iff_mem]
  constructor
  · rintro (⟨th, hth, h, hh, hr⟩ | ⟨th, hth, h, hh, hr⟩)
    · exact ⟨th, hth, h, hh, .inl hr⟩
    · exact ⟨th, hth, h, hh, .inr hr⟩
  · rintro ⟨th, hth, h, hh, hr | hr⟩
    · exact .inl ⟨th, hth, h, hh, hr⟩
    · exact .inr ⟨th, hth, h, hh, hr⟩

/-! ### What a call adds -/

section
variable {s : KeyState} {op : Op} {ans : sig.Ans op} {h : String}

theorem mem_updated_next (hh : h ∈ (s.next env pid apiKey op ans).updated) :
    h ∈ s.updated ∨ ∃ u r, (⟨op, ans⟩ : Effect.Event sig) = ⟨.updateKey h u, .ok r⟩ ∧
      setsInactive u = true := by
  cases op with
  | updateKey j u =>
    cases ans with
    | error e => exact .inl hh
    | ok r =>
      simp only [KeyState.next] at hh
      split at hh
      next hu =>
        rcases List.mem_cons.1 hh with rfl | hh
        · exact .inr ⟨u, r, rfl, hu⟩
        · exact .inl hh
      next => exact .inl hh
  | _ => cases ans <;> exact .inl hh

theorem updated_subset_next (hh : h ∈ s.updated) : h ∈ (s.next env pid apiKey op ans).updated := by
  cases op with
  | updateKey j u =>
    cases ans with
    | error e => exact hh
    | ok r =>
      simp only [KeyState.next]
      split
      · exact List.mem_cons_of_mem _ hh
      · exact hh
  | _ => cases ans <;> exact hh

theorem mem_returned_next (hh : h ∈ (s.next env pid apiKey op ans).returned) :
    h ∈ s.returned ∨ (op = .cacheInvalidate pid h ∧ h ∈ s.updated) := by
  cases op with
  | cacheInvalidate q j =>
    cases ans with
    | error e => exact .inl hh
    | ok r =>
      simp only [KeyState.next] at hh
      split at hh
      next hc =>
        obtain ⟨hq, hj⟩ := Bool.and_eq_true_iff.1 hc
        rcases List.mem_cons.1 hh with rfl | hh
        · rw [eq_of_beq hq]
          exact .inr ⟨rfl, List.contains_iff_mem.1 hj⟩
        · exact .inl hh
      next => exact .inl hh
  | _ => cases ans <;> exact .inl hh

theorem returned_subset_next (hh : h ∈ s.returned) :
    h ∈ (s.next env pid apiKey op ans).returned := by
  cases op with
  | cacheInvalidate q j =>
    cases ans with
    | error e => exact hh
    | ok r =>
      simp only [KeyState.next]
      split
      · exact List.mem_cons_of_mem _ hh
      · exact hh
  | _ => cases ans <;> exact hh

variable {w w' : World} {ch : Choice}

/-- A call that succeeds was not failed by the environment, unless it stays inside the process. -/
theorem fail_of_ok {r : sig.Res op} (hl : World.isLocal op = false)
    (hx : w.exec op ch = some (.ok r, w')) : ch.fail = none := by
  unfold World.exec at hx
  split at hx
  next e he =>
    rw [if_neg (by rw [hl]; exact Bool.false_ne_true)] at hx
    cases hx
  next he => exact he

/-- A record becomes active only by a put. -/
theorem activeHash_exec (hop : KeyState.Allowed op) (hx : w.exec op ch = some (ans, w'))
    (ha : w'.activeHash h = true) : w.activeHash h = true ∨
      ∃ it : KeyRecord, op = .putKey h it ∧ it.isActive = true ∧ ch.fail = none := by
  by_cases hk : op.isKeyWrite = true
  · have hne : ∀ {j : String} {it : KeyRecord}, h ≠ j →
        World.activeHash { w with apiKeys := w.apiKeys.put j it } h = true →
          w.activeHash h = true := by
      intro j it hj ha
      rwa [World.activeHash, Dynamo.Table.put_item_ne _ _ hj] at ha
    cases op with
    | putKey j it =>
      rcases exec_putKey hx with ⟨rfl, rfl⟩ | ⟨_, _, _, rfl⟩
      · by_cases hj : h = j
        · subst hj
          rw [World.activeHash, Dynamo.Table.put_item_self] at ha
          exact .inr ⟨it, rfl, ha, fail_of_ok rfl hx⟩
        · exact .inl (hne hj ha)
      · exact .inl ha
    | deleteKey j =>
      rcases exec_deleteKey hx with ⟨_, rfl⟩ | ⟨_, _, _, rfl⟩
      · obtain ⟨it, hit, hact⟩ := (Option.any_eq_true _ _).1 ha
        rw [Dynamo.Table.delete_item_eq_some] at hit
        exact .inl ((Option.any_eq_true _ _).2 ⟨it, hit.2, hact⟩)
      · exact .inl ha
    | updateKey j u =>
      rcases exec_updateKey hx with ⟨it, _, hit, rfl⟩ | ⟨_, _, rfl⟩
      · by_cases hj : h = j
        · subst hj
          rw [World.activeHash, Dynamo.Table.put_item_self] at ha
          have hact : KeyRecord.isActive it = true := ha
          rcases hop h u rfl with rfl | ⟨now, rfl⟩
          · cases hit
            cases hact
          · have hsame : it .isActive = w.keyRecord h .isActive :=
              Dynamo.Update.apply_frame hit fun x hx => by
                rw [List.mem_singleton.1 hx]
                exact fun h => by cases h
            rw [KeyRecord.isActive, hsame, World.keyRecord] at hact
            cases hold : w.apiKeys.item h with
            | none =>
              rw [hold] at hact
              cases hact
            | some old =>
              rw [hold] at hact
              exact .inl (by rw [World.activeHash, hold]; exact hact)
        · exact .inl (hne hj ha)
      · exact .inl ha
    | _ => cases hk
  · rw [World.activeHash, (exec_frame hx).apiKeys (Bool.eq_false_iff.2 hk)] at ha
    exact .inl ha

/-- A cache gets an active record only by an add. -/
theorem cachesActive_exec (hx : w.exec op ch = some (ans, w')) {q : Nat}
    (ha : w'.cachesActive q h = true) : w.cachesActive q h = true ∨
      ∃ (it : KeyRecord) (ttl : Nat), op = .cacheAdd q h it ttl ∧ it.isActive = true := by
  obtain ⟨e, he, hact⟩ := List.any_eq_true.1 ha
  by_cases hadd : ∃ p k it ttl, op = .cacheAdd p k it ttl
  · obtain ⟨p, k, it, ttl, rfl⟩ := hadd
    obtain ⟨_, rfl⟩ := exec_cacheAdd hx
    by_cases hq : q = p
    · subst hq
      rw [setProcess_self] at he
      rcases List.mem_cons.1 he with rfl | he
      · obtain ⟨hk, hit⟩ := Bool.and_eq_true_iff.1 hact
        obtain rfl : k = h := eq_of_beq hk
        exact .inr ⟨it, ttl, rfl, hit⟩
      · exact .inl (List.any_eq_true.2 ⟨e, List.mem_of_mem_filter he, hact⟩)
    · rw [setProcess_ne _ _ hq] at he
      exact .inl (List.any_eq_true.2 ⟨e, he, hact⟩)
  · refine .inl (List.any_eq_true.2 ⟨e, ?_, hact⟩)
    exact exec_cache_subset hx (fun p k it ttl h => hadd ⟨p, k, it, ttl, h⟩) q e he

theorem setsInactive_exec {u : Dynamo.Update ApiKeyRecord.schema} (hu : setsInactive u = true)
    (hop : KeyState.IsKeyUpdate u) {r : Unit}
    (hx : w.exec (.updateKey h u) ch = some (.ok r, w')) : w'.activeHash h = false := by
  rcases hop with rfl | ⟨now, rfl⟩
  · rcases exec_updateKey hx with ⟨it, _, hit, rfl⟩ | ⟨_, he, _⟩
    · rw [World.activeHash, Dynamo.Table.put_item_self]
      cases hit
      rfl
    · cases he
  · cases hu

theorem not_cachesActive_invalidate {r : Unit}
    (hx : w.exec (.cacheInvalidate pid h) ch = some (.ok r, w')) : w'.cachesActive pid h = false := by
  obtain ⟨_, rfl⟩ := exec_cacheInvalidate hx
  rw [World.cachesActive, setProcess_self, List.any_eq_false]
  intro e he
  have hne := (List.mem_filter.1 he).2
  simp only [bne_iff_ne] at hne
  simp [hne]

end

/-! ### One call of one thread -/

section
variable {c : Config env} {i : Nat} {th : Thread env} {op : Op} {k : sig.Ans op → Prog Unit}
  {ans : sig.Ans op} {ch : Choice} {w' : World}

theorem allowed_of_allow (hJ : KeyInv pid apiKey c) (hn : c.Next i th op k)
    (ha : (KeyState.protocol env pid apiKey).allow (keyState pid apiKey th) op) :
    KeyState.Allowed op := ha (hJ.scope th (List.mem_of_getElem? hn.1))

/-- After a deactivation no call makes a record of the key active. -/
theorem recordsInactive_act (hr : recordRevoked pid apiKey c = true)
    (hclean : RecordsInactive env apiKey c.world) (hop : KeyState.Allowed op)
    (hφ : resurrects pid apiKey c (.act i ch) = false) (hn : c.Next i th op k)
    (hx : c.world.exec op ch = some (ans, w')) : RecordsInactive env apiKey w' := by
  intro h hh
  by_contra hact
  rcases activeHash_exec hop hx (by simpa using hact) with hold | ⟨it, rfl, hit, hf⟩
  · rw [hclean h hh] at hold
    cases hold
  · have hnext := Effect.Config.nextOp_eq_some.2 ⟨th, k, hn⟩
    simp only [resurrects, hnext, hf, hit, hr, List.contains_iff_mem.2 hh] at hφ
    cases hφ

/-- Once nothing invalidates the key any more, no call caches an active record of it. -/
theorem notCached_act (hr : cacheRevoked pid apiKey c = true)
    (hclean : c.world.cachesActive pid (computeKeyHash env apiKey) = false)
    (hφ : resurrects pid apiKey c (.act i ch) = false) (hn : c.Next i th op k)
    (hx : c.world.exec op ch = some (ans, w')) :
    w'.cachesActive pid (computeKeyHash env apiKey) = false := by
  by_contra hact
  rcases cachesActive_exec hx (by simpa using hact) with hold | ⟨it, ttl, rfl, hit⟩
  · rw [hclean] at hold
    cases hold
  · have hnext := Effect.Config.nextOp_eq_some.2 ⟨th, k, hn⟩
    simp only [resurrects, hnext, hit, hr, beq_self_eq_true] at hφ
    cases hφ

/-- The update of a deactivation leaves no other hash of the key live. -/
theorem not_liveApart_of_update {h : String} {u : Dynamo.Update ApiKeyRecord.schema}
    {k : sig.Ans (.updateKey h u) → Prog Unit} {r : Unit} (hh : h ∈ keyHashes env apiKey)
    (hu : setsInactive u = true) (hφ : resurrects pid apiKey c (.act i ch) = false)
    (hn : c.Next i th (.updateKey h u) k)
    (hx : c.world.exec (.updateKey h u) ch = some (.ok r, w')) :
    liveApart c.world env pid apiKey h = false := by
  have hnext := Effect.Config.nextOp_eq_some.2 ⟨th, k, hn⟩
  have hf : ch.fail = none := fail_of_ok rfl hx
  simpa only [resurrects, hnext, hf, hu, List.contains_iff_mem.2 hh, Bool.true_and] using hφ

theorem KeyInv.record_act (hJ : KeyInv pid apiKey c) (hop : KeyState.Allowed op)
    (hφ : resurrects pid apiKey c (.act i ch) = false) (hn : c.Next i th op k)
    (hx : c.world.exec op ch = some (ans, w'))
    (hr : recordRevoked pid apiKey { world := w', threads := c.threads.set i (th.resume k ans) } = true) :
    RecordsInactive env apiKey w' := by
  obtain ⟨u, hu, h, hh, hupd⟩ := recordRevoked_iff.1 hr
  have hold : ∀ v ∈ c.threads, h ∈ (keyState pid apiKey v).updated → RecordsInactive env apiKey w' :=
    fun v hv hmem =>
      have hrc := recordRevoked_iff.2 ⟨v, hv, h, hh, hmem⟩
      recordsInactive_act hrc (hJ.record hrc) hop hφ hn hx
  rcases List.mem_or_eq_of_mem_set hu with hu | rfl
  · exact hold u hu hupd
  · rcases mem_updated_next hupd with hmem | ⟨v, r, he, hv⟩
    · exact hold th (List.mem_of_getElem? hn.1) hmem
    · cases he
      have hlive := not_liveApart_of_update hh hv hφ hn hx
      simp only [liveApart, Bool.or_eq_false_iff, List.any_eq_false] at hlive
      intro j hj
      by_cases hjh : j = h
      · subst hjh
        exact setsInactive_exec hv (hop j v rfl) hx
      · by_contra hact
        rcases activeHash_exec hop hx (by simpa using hact) with hold | ⟨_, he, _⟩
        · exact hlive.1 j hj (by simp [hjh, hold])
        · cases he

theorem KeyInv.cached_act (hJ : KeyInv pid apiKey c) (hφ : resurrects pid apiKey c (.act i ch) = false)
    (hn : c.Next i th op k) (hx : c.world.exec op ch = some (ans, w'))
    (hr : cacheRevoked pid apiKey { world := w', threads := c.threads.set i (th.resume k ans) } = true) :
    w'.cachesActive pid (computeKeyHash env apiKey) = false := by
  obtain ⟨u, hu, h, hh, hrev⟩ := cacheRevoked_iff.1 hr
  have hold : ∀ v ∈ c.threads, (h ∈ (keyState pid apiKey v).returned ∨
      (h ≠ computeKeyHash env apiKey ∧ h ∈ (keyState pid apiKey v).updated)) →
        w'.cachesActive pid (computeKeyHash env apiKey) = false :=
    fun v hv hmem =>
      have hrc := cacheRevoked_iff.2 ⟨v, hv, h, hh, hmem⟩
      notCached_act hrc (hJ.cached hrc) hφ hn hx
  have hth := List.mem_of_getElem? hn.1
  rcases List.mem_or_eq_of_mem_set hu with hu | rfl
  · exact hold u hu hrev
  rcases hrev with hret | ⟨hne, hupd⟩
  · rcases mem_returned_next hret with hmem | ⟨rfl, hupd⟩
    · exact hold th hth (.inl hmem)
    · by_cases hc : h = computeKeyHash env apiKey
      · cases ans with
        | ok r =>
          rw [← hc]
          exact not_cachesActive_invalidate hx
        | error e =>
          obtain ⟨he, _⟩ := exec_cacheInvalidate hx
          cases he
      · exact hold th hth (.inr ⟨hc, hupd⟩)
  · rcases mem_updated_next hupd with hmem | ⟨v, r, he, hv⟩
    · exact hold th hth (.inr ⟨hne, hmem⟩)
    · cases he
      have hlive := not_liveApart_of_update hh hv hφ hn hx
      simp only [liveApart, Bool.or_eq_false_iff] at hlive
      have hclean : c.world.cachesActive pid (computeKeyHash env apiKey) = false := by
        simpa [hne] using hlive.2
      rw [World.cachesActive, (exec_frame hx).processes rfl]
      exact hclean

/-- **Step lemma.** A call that does not resurrect the key keeps the invariant. -/
theorem KeyInv.act (hJ : KeyInv pid apiKey c) (hφ : resurrects pid apiKey c (.act i ch) = false)
    (hn : c.Next i th op k)
    (ha : (KeyState.protocol env pid apiKey).allow (keyState pid apiKey th) op)
    (hx : c.world.exec op ch = some (ans, w')) :
    KeyInv pid apiKey { world := w', threads := c.threads.set i (th.resume k ans) } where
  scope u hu := by
    rcases List.mem_or_eq_of_mem_set hu with hu | rfl
    · exact hJ.scope u hu
    · exact (KeyState.next_inRun op ans).trans (hJ.scope th (List.mem_of_getElem? hn.1))
  order u hu h hh := by
    rcases List.mem_or_eq_of_mem_set hu with hu | rfl
    · exact hJ.order u hu h hh
    · rcases mem_returned_next hh with hh | ⟨_, hh⟩
      · exact updated_subset_next (hJ.order th (List.mem_of_getElem? hn.1) h hh)
      · exact updated_subset_next hh
  record := hJ.record_act (allowed_of_allow hJ hn ha) hφ hn hx
  cached := hJ.cached_act hφ hn hx

end

theorem init_updated (e : Entry) : (KeyState.init pid apiKey e).updated = [] := by cases e <;> rfl

theorem init_returned (e : Entry) : (KeyState.init pid apiKey e).returned = [] := by cases e <;> rfl

theorem init_seen (e : Entry) : (KeyState.init pid apiKey e).seen = false := by cases e <;> rfl

/-- Authentications, background updates and deactivations of the process. -/
def Entry.isKeyUse (pid : Nat) : Entry → Bool
  | .authenticate q _ | .updateLastUsed q _ | .deactivateApiKey q _ => q == pid
  | _ => false

theorem init_inRun {e : Entry} (he : e.isKeyUse pid = true) :
    (KeyState.init pid apiKey e).inRun = true := by
  cases e with
  | authenticate | updateLastUsed | deactivateApiKey => exact he
  | _ => cases he

section
variable {c : Config env}

theorem recordRevoked_start {e : Entry} : recordRevoked pid apiKey
    { c with threads := c.threads ++ [Effect.Thread.init e] } = recordRevoked pid apiKey c := by
  have hnew : keyState pid apiKey (Effect.Thread.init e : Thread env) = KeyState.init pid apiKey e :=
    rfl
  simp [recordRevoked, hnew, init_updated]

theorem cacheRevoked_start {e : Entry} : cacheRevoked pid apiKey
    { c with threads := c.threads ++ [Effect.Thread.init e] } = cacheRevoked pid apiKey c := by
  have hnew : keyState pid apiKey (Effect.Thread.init e : Thread env) = KeyState.init pid apiKey e :=
    rfl
  have hnil : ([] : List String).contains = fun _ => false := rfl
  have hnone : ∀ l : List String, (l.any fun _ => false) = false :=
    fun _ => List.any_eq_false.2 fun _ _ h => by cases h
  simp [cacheRevoked, deactivated, updatedApart, hnew, init_updated, init_returned, hnil, hnone]

theorem KeyInv.start (hJ : KeyInv pid apiKey c) {e : Entry} (he : e.isKeyUse pid = true) :
    KeyInv pid apiKey { c with threads := c.threads ++ [Effect.Thread.init e] } where
  scope th hth := by
    rcases List.mem_append.1 hth with hth | hth
    · exact hJ.scope th hth
    · rw [List.mem_singleton.1 hth]
      exact init_inRun he
  order th hth h hh := by
    rcases List.mem_append.1 hth with hth | hth
    · exact hJ.order th hth h hh
    · rw [List.mem_singleton.1 hth] at hh
      have hnone : h ∈ (KeyState.init pid apiKey e).returned := hh
      rw [init_returned] at hnone
      cases hnone
  record hr := hJ.record (by rwa [recordRevoked_start] at hr)
  cached hr := hJ.cached (by rwa [cacheRevoked_start] at hr)

/-- A crash leaves the state of every thread. -/
theorem keyState_crash {i : Nat} {th u : Thread env} (hi : c.threads[i]? = some th)
    (hu : u ∈ c.threads.set i { th with crashed := true }) :
    ∃ v ∈ c.threads, keyState pid apiKey u = keyState pid apiKey v := by
  rcases List.mem_or_eq_of_mem_set hu with hu | rfl
  · exact ⟨u, hu, rfl⟩
  · exact ⟨th, List.mem_of_getElem? hi, rfl⟩

theorem KeyInv.crash (hJ : KeyInv pid apiKey c) {i : Nat} {th : Thread env}
    (hi : c.threads[i]? = some th) :
    KeyInv pid apiKey { c with threads := c.threads.set i { th with crashed := true } } where
  scope u hu := by
    obtain ⟨v, hv, he⟩ := keyState_crash hi hu
    rw [he]
    exact hJ.scope v hv
  order u hu h hh := by
    obtain ⟨v, hv, he⟩ := keyState_crash hi hu
    rw [he] at hh ⊢
    exact hJ.order v hv h hh
  record hr := by
    obtain ⟨u, hu, h, hh, hmem⟩ := recordRevoked_iff.1 hr
    obtain ⟨v, hv, he⟩ := keyState_crash hi hu
    rw [he] at hmem
    exact hJ.record (recordRevoked_iff.2 ⟨v, hv, h, hh, hmem⟩)
  cached hr := by
    obtain ⟨u, hu, h, hh, hmem⟩ := cacheRevoked_iff.1 hr
    obtain ⟨v, hv, he⟩ := keyState_crash hi hu
    rw [he] at hmem
    exact hJ.cached (cacheRevoked_iff.2 ⟨v, hv, h, hh, hmem⟩)

/-! ## Authentications that start after the deactivation -/

/-- The key has been deactivated, and no thread from the `n`-th on has read an active record. -/
structure LateInv (pid : Nat) (apiKey : String) (n : Nat) (c : Config env) : Prop extends
    KeyInv pid apiKey c where
  revoked : deactivated pid apiKey c = true
  late    : ∀ i th, n ≤ i → c.threads[i]? = some th → (keyState pid apiKey th).seen = false

theorem deactivated_iff : deactivated pid apiKey c = true ↔
    ∃ th ∈ c.threads, ∃ h ∈ keyHashes env apiKey, h ∈ (keyState pid apiKey th).returned := by
  simp [deactivated, List.any_eq_true]

theorem deactivated_set {c : Config env} {w' : World} {i : Nat} {th th' : Thread env}
    (hd : deactivated pid apiKey c = true) (hi : c.threads[i]? = some th)
    (hsub : ∀ h, h ∈ (keyState pid apiKey th).returned → h ∈ (keyState pid apiKey th').returned) :
    deactivated pid apiKey { world := w', threads := c.threads.set i th' : Config env } = true := by
  obtain ⟨u, hu, h, hh, hret⟩ := deactivated_iff.1 hd
  obtain ⟨j, hj⟩ := List.mem_iff_getElem?.1 hu
  by_cases hij : i = j
  · subst hij
    rw [hi] at hj
    cases hj
    have hlt := (List.getElem?_eq_some_iff.1 hi).1
    exact deactivated_iff.2 ⟨_, List.mem_set hlt _, h, hh, hsub h hret⟩
  · refine deactivated_iff.2 ⟨u, List.mem_iff_getElem?.2 ⟨j, ?_⟩, h, hh, hret⟩
    rw [List.getElem?_set_ne hij, hj]

theorem LateInv.recordsInactive {n : Nat} (hJ : LateInv pid apiKey n c) :
    RecordsInactive env apiKey c.world := by
  obtain ⟨th, hth, h, hh, hret⟩ := deactivated_iff.1 hJ.revoked
  exact hJ.record (recordRevoked_iff.2 ⟨th, hth, h, hh, hJ.order th hth h hret⟩)

theorem LateInv.notCached {n : Nat} (hJ : LateInv pid apiKey n c) :
    c.world.cachesActive pid (computeKeyHash env apiKey) = false :=
  hJ.cached (Bool.or_eq_true_iff.2 (.inl hJ.revoked))

/-- With no active record stored or cached, a call is answered none. -/
theorem seen_next_of_clean {w w' : World} {s : KeyState} {op : Op} {ans : sig.Ans op} {ch : Choice}
    (hrec : RecordsInactive env apiKey w)
    (hcache : w.cachesActive pid (computeKeyHash env apiKey) = false)
    (hx : w.exec op ch = some (ans, w')) (hs : s.seen = false) :
    (s.next env pid apiKey op ans).seen = false := by
  cases op with
  | getKey h =>
    obtain ⟨-, rfl | ⟨_, _, rfl⟩⟩ := exec_getKey hx
    · change (s.seen || (keyHashes env apiKey).contains h && w.activeHash h) = false
      rw [hs, Bool.false_or, Bool.and_eq_false_iff]
      by_cases hh : h ∈ keyHashes env apiKey
      · exact .inr (hrec h hh)
      · exact .inl (by simpa using hh)
    · exact hs
  | cacheGet q h =>
    obtain ⟨rfl, -⟩ := exec_cacheGet hx
    by_contra hseen
    have hread := Bool.or_eq_true_iff.1 (Bool.of_not_eq_false hseen)
    rw [hs] at hread
    obtain ⟨hqh, hact⟩ := Bool.and_eq_true_iff.1 (hread.resolve_left Bool.false_ne_true)
    obtain ⟨hq, hh⟩ := Bool.and_eq_true_iff.1 hqh
    obtain ⟨it, hit, hact⟩ := (Option.any_eq_true _ _).1 hact
    obtain ⟨e, he, rfl, -⟩ := cacheGet_eq_some hit
    rw [← eq_of_beq hq, ← eq_of_beq hh] at hcache
    exact List.any_eq_false.1 hcache _ he (by simpa using hact)
  | _ => cases ans <;> exact hs

theorem LateInv.act {n i : Nat} {th : Thread env} {op : Op} {k : sig.Ans op → Prog Unit}
    {ans : sig.Ans op} {ch : Choice} {w' : World} (hJ : LateInv pid apiKey n c)
    (hφ : resurrects pid apiKey c (.act i ch) = false) (hn : c.Next i th op k)
    (ha : (KeyState.protocol env pid apiKey).allow (keyState pid apiKey th) op)
    (hx : c.world.exec op ch = some (ans, w')) :
    LateInv pid apiKey n { world := w', threads := c.threads.set i (th.resume k ans) } where
  toKeyInv := hJ.toKeyInv.act hφ hn ha hx
  revoked := deactivated_set hJ.revoked hn.1 fun _ hh => returned_subset_next hh
  late j u hj hu := by
    rcases getElem?_set_cases hu with ⟨rfl, rfl⟩ | ⟨-, hu⟩
    · exact seen_next_of_clean hJ.recordsInactive hJ.notCached hx (hJ.late j th hj hn.1)
    · exact hJ.late j u hj hu

theorem LateInv.start {n : Nat} (hJ : LateInv pid apiKey n c) {e : Entry}
    (he : e.isKeyUse pid = true) :
    LateInv pid apiKey n { c with threads := c.threads ++ [Effect.Thread.init e] } where
  toKeyInv := hJ.toKeyInv.start he
  revoked := by
    obtain ⟨u, hu, h, hh, hret⟩ := deactivated_iff.1 hJ.revoked
    exact deactivated_iff.2 ⟨u, List.mem_append_left _ hu, h, hh, hret⟩
  late j u hj hu := by
    rcases getElem?_concat_cases hu with hu | rfl
    · exact hJ.late j u hj hu
    · exact init_seen e

theorem LateInv.crash {n i : Nat} {th : Thread env} (hJ : LateInv pid apiKey n c)
    (hi : c.threads[i]? = some th) :
    LateInv pid apiKey n { c with threads := c.threads.set i { th with crashed := true } } where
  toKeyInv := hJ.toKeyInv.crash hi
  revoked := deactivated_set hJ.revoked hi fun _ hh => hh
  late j u hj hu := by
    rcases getElem?_set_cases hu with ⟨rfl, rfl⟩ | ⟨-, hu⟩
    · exact hJ.late j th hj hi
    · exact hJ.late j u hj hu

/-! ## Runs -/

/-- The move starts nothing but uses of keys in the process, and brings no revoked key back. -/
def KeepsKeys (pid : Nat) (apiKey : String) (c : Config env) (m : Move env) : Prop :=
  (∀ e, m = .start e → e.isKeyUse pid = true) ∧ resurrects pid apiKey c m = false

abbrev KeyCoupled (pid : Nat) (apiKey : String) (c : Config env) : Prop :=
  (KeyState.protocol env pid apiKey).Coupled (KeyState.init pid apiKey)
    (fun s _ => s.own = true → s.seen = true) (fun _ _ => True) c

theorem keyInv_run {c' : Config env} {ms : List (Move env)} (hc : KeyCoupled pid apiKey c)
    (hJ : KeyInv pid apiKey c) (ha : Along (KeepsKeys pid apiKey) c ms) (h : play c ms = some c') :
    KeyCoupled pid apiKey c' ∧ KeyInv pid apiKey c' := by
  refine protocol_inv (R := KeyState.protocol env pid apiKey) (J := KeyInv pid apiKey)
    (KeyState.init pid apiKey) KeyState.obeys_body
    (fun c e hJ hφ => KeyInv.start hJ (hφ.1 e rfl)) ?_ (fun c i th hJ _ hi => KeyInv.crash hJ hi)
    hc hJ ha h
  intro c i ch th op k ans w' hJ _ hφ hn hallow hx
  exact ⟨trivial, KeyInv.act hJ hφ.2 hn hallow hx⟩

theorem lateInv_run {n : Nat} {c' : Config env} {ms : List (Move env)}
    (hc : KeyCoupled pid apiKey c) (hJ : LateInv pid apiKey n c)
    (ha : Along (KeepsKeys pid apiKey) c ms) (h : play c ms = some c') :
    KeyCoupled pid apiKey c' ∧ LateInv pid apiKey n c' := by
  refine protocol_inv (R := KeyState.protocol env pid apiKey) (J := LateInv pid apiKey n)
    (KeyState.init pid apiKey) KeyState.obeys_body
    (fun c e hJ hφ => LateInv.start hJ (hφ.1 e rfl)) ?_ (fun c i th hJ _ hi => LateInv.crash hJ hi)
    hc hJ ha h
  intro c i ch th op k ans w' hJ _ hφ hn hallow hx
  exact ⟨trivial, LateInv.act hJ hφ.2 hn hallow hx⟩

end

/-- Whether a thread authenticates with the key is fixed at its start. -/
theorem own_keyState (th : Thread env) :
    (keyState pid apiKey th).own = (KeyState.init pid apiKey th.entry).own := by
  change (th.trace.foldr (fun ev s => s.next env pid apiKey ev.op ev.ans)
    (KeyState.init pid apiKey th.entry)).own = _
  induction th.trace with
  | nil => rfl
  | cons ev tr ih => rw [List.foldr_cons, KeyState.next_own, ih]

/-- No record of the key is active, and no authentication that started as thread `n` or later has
succeeded. -/
def Refused (pid : Nat) (apiKey : String) (n : Nat) (c : Config env) : Prop :=
  RecordsInactive env apiKey c.world ∧ ∀ i th, n ≤ i → c.threads[i]? = some th →
    th.entry = .authenticate pid apiKey → th.prog ≠ .ret ()

/-- **Once a deactivation has returned, the key is refused and its records stay inactive, in every run
in which no other hash of the key is live at a deactivation's update and no record read before is
written after.** -/
theorem revocation_final {w : World} {ns ms : List (Move env)} {c₁ c : Config env}
    (huse : ∀ e, .start e ∈ ns ++ ms → e.isKeyUse pid = true)
    (hsteps : Along (fun c m => resurrects pid apiKey c m = false) (.init w) (ns ++ ms))
    (h₁ : play (.init w) ns = some c₁) (hdeact : deactivated pid apiKey c₁ = true)
    (h : play c₁ ms = some c) : Refused pid apiKey c₁.threads.length c := by
  have hstart : ∀ m ∈ ns ++ ms, ∀ e, m = .start e → e.isKeyUse pid = true := by
    rintro m hm e rfl
    exact huse e hm
  have hkeeps : Along (KeepsKeys pid apiKey) (.init w) (ns ++ ms) := hsteps.and_of_mem hstart
  have hinit : KeyInv pid apiKey (.init w : Config env) :=
    ⟨fun _ ht => (by cases ht), fun _ ht => (by cases ht), fun h => (by cases h),
      fun h => (by cases h)⟩
  obtain ⟨hc₁, hJ₁⟩ := keyInv_run (fun _ ht => by cases ht) hinit (along_append h₁ hkeeps).1 h₁
  have hlate : LateInv pid apiKey c₁.threads.length c₁ :=
    ⟨hJ₁, hdeact, fun i th hi hth => by
      rw [List.getElem?_eq_none hi] at hth
      cases hth⟩
  obtain ⟨hc, hJ⟩ := lateInv_run hc₁ hlate (along_append h₁ hkeeps).2 h
  refine ⟨hJ.recordsInactive, fun i th hi hth he hret => ?_⟩
  have hobeys := hc th (List.mem_of_getElem? hth)
  rw [hret] at hobeys
  have hown : (keyState pid apiKey th).own = true := by
    rw [own_keyState, he]
    simp [KeyState.init]
  have hseen : (keyState pid apiKey th).seen = true := hobeys hown
  rw [hJ.late i th hi hth] at hseen
  cases hseen

end

/-! ## A deactivation after a migration, and one within it -/

/-- A deployment with a pepper. -/
def pepperEnv : KeyEnv := { sampleKeyEnv with pepper := some "pepper" }

/-- A key that is stored under its plain hash. -/
def legacyWorld : World where
  apiKeys := Dynamo.Table.empty.put (hashKey pepperEnv sampleApiKey) sampleKeyRecord

/-- The key is migrated and cached, and its peppered hash deactivated. -/
def migrateThenDeactivate : List (Move pepperEnv) :=
  .start (.authenticate 0 sampleApiKey) :: List.replicate 9 (.act 0 {})
    ++ .start (.deactivateApiKey 0 (computeKeyHash pepperEnv sampleApiKey))
      :: List.replicate 3 (.act 1 {})

/-- Another authentication with the key. -/
def authenticateAgain : List (Move pepperEnv) :=
  .start (.authenticate 0 sampleApiKey) :: List.replicate 3 (.act 2 {})

theorem isKeyUse_of_all {env : KeyEnv} {pid : Nat} {ms : List (Move env)}
    (h : ms.all (fun | .start e => e.isKeyUse pid | _ => true) = true) (e : Entry)
    (he : .start e ∈ ms) : e.isKeyUse pid = true :=
  List.all_eq_true.1 h _ he

set_option maxRecDepth 10000 in
theorem revocation_final_migrated : ∃ c₁ c, play (.init legacyWorld) migrateThenDeactivate = some c₁ ∧
    play c₁ authenticateAgain = some c ∧ Refused 0 sampleApiKey c₁.threads.length c := by
  have hdeact : (play (.init legacyWorld) migrateThenDeactivate).map (deactivated 0 sampleApiKey) =
      some true := by
    decide +kernel
  have hends : (play (.init legacyWorld) (migrateThenDeactivate ++ authenticateAgain)).isSome =
      true := by
    decide +kernel
  obtain ⟨c₁, h₁, hd⟩ := Option.map_eq_some_iff.1 hdeact
  obtain ⟨c, h⟩ := Option.isSome_iff_exists.1 hends
  rw [play_append h₁] at h
  refine ⟨c₁, c, h₁, h, revocation_final (isKeyUse_of_all ?_) ?_ h₁ hd h⟩
  · decide +kernel
  · decide +kernel

/-- The plain hash is deactivated after the migration has read its record. -/
def deactivateWithinMigrate : List (Move pepperEnv) :=
  .start (.authenticate 0 sampleApiKey) :: List.replicate 4 (.act 0 {})
    ++ .start (.deactivateApiKey 0 (hashKey pepperEnv sampleApiKey)) :: List.replicate 3 (.act 1 {})

set_option maxRecDepth 10000 in
/-- The migration then stores the key as active under the peppered hash. -/
theorem revocation_final_fails : ¬ ∀ (env : KeyEnv) (pid : Nat) (apiKey : String) (w : World)
    (ns ms : List (Move env)) (c₁ c : Config env),
    (∀ e, .start e ∈ ns ++ ms → e.isKeyUse pid = true) → play (.init w) ns = some c₁ →
      deactivated pid apiKey c₁ = true → play c₁ ms = some c →
        Refused pid apiKey c₁.threads.length c := by
  intro hall
  have hdeact : (play (.init legacyWorld) deactivateWithinMigrate).map (deactivated 0 sampleApiKey) =
      some true := by
    decide +kernel
  have hactive : (play (.init legacyWorld) (deactivateWithinMigrate ++ [.act 0 {}])).map
      (fun c : Config pepperEnv => c.world.activeHash (computeKeyHash pepperEnv sampleApiKey)) =
      some true := by
    decide +kernel
  obtain ⟨c₁, h₁, hd⟩ := Option.map_eq_some_iff.1 hdeact
  obtain ⟨c, h, hact⟩ := Option.map_eq_some_iff.1 hactive
  rw [play_append h₁] at h
  have huse : ∀ e, .start e ∈ deactivateWithinMigrate ++ [.act 0 {}] → e.isKeyUse 0 = true :=
    isKeyUse_of_all (by decide +kernel)
  obtain ⟨hrecords, -⟩ := hall pepperEnv 0 sampleApiKey legacyWorld deactivateWithinMigrate
    [.act 0 {}] c₁ c huse h₁ hd h
  rw [hrecords _ (computeKeyHash_mem pepperEnv sampleApiKey)] at hact
  cases hact

end DocumentAi.Admin
