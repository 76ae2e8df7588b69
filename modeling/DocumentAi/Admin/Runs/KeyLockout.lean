import DocumentAi.Admin.Runs.KeyRevocation

/-!
# Is a valid key always accepted?

With a pepper a key that is stored under its plain hash is moved to the peppered one by the first
authentications that use it: read, put, delete, each of which may fail, while other authentications
look the key up under the two hashes one after the other.

| here | meaning |
| --- | --- |
| `standing`   | what the store says of a hash: nothing, an acceptable record, another record |
| `Lookup`     | how far an authentication has come with the two hashes |
| `ordinary`   | a move of the runs considered: uses of the key by a time `T`, with reads that succeed |
| `locksOut`   | the plain hash is deleted under a lookup, or a background update writes a bare record |
| `neverLockedOut` | in a run without `locksOut` no authentication with the key raises |
-/

namespace DocumentAi.Admin

open Effect (play Along)
open Effect.Prog (All all_bind all_perform spec_tryCatch spec_ite)
open Effect.Protocol (obeys_bind obeys_tryCatch obeys_perform obeys_ret obeys_of_free
  obeys_of_inv protocol_inv)

/-- Accepted at every time up to `T`: active, not expired, with a tenant. -/
def KeyRecord.acceptedUntil (T : Timestamp) (it : KeyRecord) : Bool :=
  keyRecordValid it T && (nonEmpty it.tenantId).isSome

/-- What the store says of a hash: `none` without a record, else whether the record is accepted. -/
def World.standing (w : World) (T : Timestamp) (h : String) : Option Bool :=
  (w.apiKeys.item h).map (KeyRecord.acceptedUntil T)

/-- The key can be authenticated with: it is stored under the hash that is looked up first, or under
its plain hash only. -/
def World.keyValid (w : World) (env : KeyEnv) (T : Timestamp) (apiKey : String) : Bool :=
  isValidKeyFormat apiKey && (w.standing T (computeKeyHash env apiKey) == some true ||
    w.standing T (computeKeyHash env apiKey) == none && w.standing T (hashKey env apiKey) == some true)

/-- Every record of the key in a cache is accepted. -/
def World.CachesAccepted (w : World) (env : KeyEnv) (T : Timestamp) (apiKey : String) : Prop :=
  ∀ q, ∀ e ∈ (w.processes q).cache, e.1 = computeKeyHash env apiKey →
    KeyRecord.acceptedUntil T e.2.value = true

theorem keyRecordValid_of_le {it : KeyRecord} {now T : Timestamp} (h : keyRecordValid it T = true)
    (hle : now ≤ T) : keyRecordValid it now = true := by
  unfold keyRecordValid at h ⊢
  obtain ⟨hact, hexp⟩ := Bool.and_eq_true_iff.1 h
  rw [hact, Bool.true_and]
  split at hexp
  · rfl
  · cases hexp
  next expiry _ =>
    have hT : ¬ expiry < T := by simpa using hexp
    have hnow : ¬ expiry < now := fun hlt => hT (Nat.lt_of_lt_of_le hlt hle)
    simpa using hnow

/-! ## How far an authentication has come -/

/-- The calls of one thread on the two hashes of the key. -/
inductive Lookup where
  /-- It has not missed the key under the hash it looks up first. -/
  | looking
  /-- It has, and has not read the plain hash yet. -/
  | missed
  | migrating
  /-- It has stored the key under the peppered hash. -/
  | stored
  /-- A background update. -/
  | updating
  /-- Not a handler of the run. -/
  | other
deriving DecidableEq, Repr

namespace Lookup

def own : Lookup → Bool
  | updating | other => false
  | _ => true

def next : Lookup → (op : Op) → sig.Ans op → Lookup
  | looking, .getKey _, .ok r     => if (r : Option KeyRecord).isNone then missed else looking
  | missed, .getKey _, .ok _      => migrating
  | migrating, .putKey .., .ok _  => stored
  | s, _, _                       => s

/-- The requests that concern no record of the key. -/
def Aside : Op → Prop
  | .getKey _ | .cacheAdd .. => False
  | op => op.isKeyWrite = false

variable (env : KeyEnv) (T : Timestamp) (apiKey : String)

def allows : Lookup → Op → Prop
  | other, _ => True
  | looking, .getKey h => h = computeKeyHash env apiKey
  | missed, .getKey h | migrating, .getKey h => h = hashKey env apiKey
  | migrating, .putKey h it => h = computeKeyHash env apiKey ∧ KeyRecord.acceptedUntil T it = true
  | stored, .deleteKey h => h = hashKey env apiKey
  | updating, .updateKey _ u => ∃ now, u = lastUsedUpdate now
  | _, .cacheAdd _ _ it _ => KeyRecord.acceptedUntil T it = true
  | _, op => Aside op

/-- What is answered while the key is stored under one of its hashes. -/
def answers : Lookup → (op : Op) → sig.Ans op → Prop
  | other, _, _ => True
  | _, .getKey _, .error _ => False
  | looking, .getKey _, .ok r =>
    (∀ it, r = some it → KeyRecord.acceptedUntil T it = true) ∧ (r = none → (getPepper env).isSome)
  | missed, .getKey _, .ok r => ∃ it, r = some it ∧ KeyRecord.acceptedUntil T it = true
  | _, .getKey _, .ok r => ∀ it, r = some it → KeyRecord.acceptedUntil T it = true
  | _, .cacheGet _ h, .ok r =>
    h = computeKeyHash env apiKey → ∀ it, r = some it → KeyRecord.acceptedUntil T it = true
  | _, .now, .ok t => Nat.le t T
  | _, op, .error _ => World.isLocal op = false
  | _, _, _ => True

abbrev protocol : Effect.Protocol sig where
  State    := Lookup
  allow    := allows env T apiKey
  possible := answers env T apiKey
  next     := next

def init : Entry → Lookup
  | .authenticate _ key => if key = apiKey then looking else other
  | .updateLastUsed ..  => updating
  | _                   => other

/-! ## Every handler of the run obeys -/

variable {env T apiKey}
variable {α : Type} {s : Lookup} {E : Lookup → Exc → Prop}

theorem own_next (op : Op) (ans : sig.Ans op) : (s.next op ans).own = s.own := by
  unfold next
  split
  · split <;> rfl
  · rfl
  · rfl
  · rfl

/-- An authentication with the key does not raise. -/
def NoRaise (s : Lookup) (_ : Exc) : Prop := s.own = false

theorem not_answers_error {op : Op} (hs : s.own = true) (hl : World.isLocal op = true) {e : Exc} :
    ¬ answers env T apiKey s op (.error e) := by
  intro h
  cases op with
  | cacheGet | cacheAdd | cacheInvalidate | debounce | forgetLastUsed | startLastUsed | takeLastUsed
  | now | tokenUrlsafe =>
    cases s with
    | updating | other => cases hs
    | _ => cases h
  | _ => cases hl

/-- A call within the process by an authentication does not fail. -/
theorem obeys_local {op : Op} (hs : s.own = true) (hl : World.isLocal op = true)
    (ha : allows env T apiKey s op) : (protocol env T apiKey).Obeys
      (fun s' r => s'.own = true ∧ answers env T apiKey s op (.ok r)) NoRaise s (call op) :=
  obeys_perform ha (fun _ hr => ⟨(own_next op _).trans hs, hr⟩) fun _ h =>
    absurd h (not_answers_error hs hl)

theorem allows_aside {op : Op} (hs : s.own = true) (hop : Aside op) : allows env T apiKey s op := by
  unfold allows
  split
  all_goals first | exact hop | exact hop.elim | trivial

theorem allows_cacheAdd {q : Nat} {h : String} {it : KeyRecord} {ttl : Nat} (hs : s.own = true)
    (hit : KeyRecord.acceptedUntil T it = true) : allows env T apiKey s (.cacheAdd q h it ttl) := by
  cases s with
  | updating | other => cases hs
  | _ => exact hit

theorem eq_other_of_next {op : Op} {ans : sig.Ans op} (h : s.next op ans = other) : s = other := by
  unfold next at h
  split at h
  · split at h <;> cases h
  · cases h
  · cases h
  · exact h

/-- The record of the key, found. -/
def Found (T : Timestamp) (s : Lookup) (r : Option KeyRecord) : Prop :=
  s.own = true ∧ ∃ it, r = some it ∧ KeyRecord.acceptedUntil T it = true


theorem obeys_lookupFirst :
    (protocol env T apiKey).Obeys (fun s r =>
        (∀ it, r = some it → s = looking ∧ KeyRecord.acceptedUntil T it = true) ∧
          (r = none → s = missed ∧ (getPepper env).isSome)) E looking
      (lookupKeyInDdb (computeKeyHash env apiKey)) := by
  refine obeys_tryCatch (F := fun _ _ => False) (obeys_perform rfl ?_ fun _ h => h.elim)
    fun _ _ h => h.elim
  rintro r ⟨hgood, hnone⟩
  refine ⟨?_, ?_⟩
  · rintro it rfl
    exact ⟨rfl, hgood it rfl⟩
  · rintro rfl
    exact ⟨rfl, hnone rfl⟩

theorem obeys_lookupPlain :
    (protocol env T apiKey).Obeys (fun s r => s = migrating ∧
        ∃ it, r = some it ∧ KeyRecord.acceptedUntil T it = true) E missed
      (lookupKeyInDdb (hashKey env apiKey)) :=
  obeys_tryCatch (F := fun _ _ => False) (obeys_perform rfl (fun _ h => ⟨rfl, h⟩) fun _ h => h.elim)
    fun _ _ h => h.elim

theorem obeys_lookupAgain :
    (protocol env T apiKey).Obeys (fun s r => s = migrating ∧
        ∀ it, r = some it → KeyRecord.acceptedUntil T it = true) E migrating
      (lookupKeyInDdb (hashKey env apiKey)) :=
  obeys_tryCatch (F := fun _ _ => False) (obeys_perform rfl (fun _ h => ⟨rfl, h⟩) fun _ h => h.elim)
    fun _ _ h => h.elim

/-- A migration that fails leaves the authentication as it is. -/
theorem obeys_migrateKeyHash (pid : Nat) {pepper : String} (hp : getPepper env = some pepper) :
    (protocol env T apiKey).Obeys (fun s _ => s.own = true) E migrating
      (migrateKeyHash pid (hashKey env apiKey) (hashKeyWithPepper env apiKey pepper)) := by
  have hc : hashKeyWithPepper env apiKey pepper = computeKeyHash env apiKey := by
    rw [computeKeyHash, hp]
  rw [hc]
  refine obeys_tryCatch (F := fun (s : Lookup) _ => s.own = true) ?_ fun s _ hs => obeys_ret hs
  refine obeys_bind obeys_lookupAgain fun s r hr => ?_
  obtain ⟨rfl, hr⟩ := hr
  cases r with
  | none => exact obeys_ret rfl
  | some existing =>
    refine obeys_bind (Q := fun (s : Lookup) _ => s = stored)
      (obeys_perform ⟨rfl, hr existing rfl⟩ (fun _ _ => rfl) fun _ _ => rfl) fun s _ hs => ?_
    subst hs
    refine obeys_bind (Q := fun (s : Lookup) _ => s = stored)
      (obeys_perform rfl (fun _ _ => rfl) fun _ _ => rfl) fun s _ hs => ?_
    subst hs
    exact obeys_perform rfl (fun _ _ => rfl) fun _ _ => rfl

theorem obeys_legacyLookup (pid : Nat) {pepper : String} (hp : getPepper env = some pepper) :
    (protocol env T apiKey).Obeys (Found T) E missed (legacyLookup env pid apiKey) := by
  refine obeys_bind obeys_lookupPlain fun s r hr => ?_
  obtain ⟨rfl, it, rfl, hit⟩ := hr
  simp only [hp]
  exact obeys_bind (obeys_migrateKeyHash pid hp) fun s _ hs => obeys_ret ⟨hs, it, rfl, hit⟩

theorem obeys_lookupAndMaybeMigrate (pid : Nat) :
    (protocol env T apiKey).Obeys (Found T) E looking (lookupAndMaybeMigrate env pid apiKey) := by
  have hfirst : (protocol env T apiKey).Obeys _ E looking
      (lookupKeyInDdb (computeKeyHash env apiKey)) := obeys_lookupFirst
  unfold lookupAndMaybeMigrate
  cases hp : getPepper env with
  | none =>
    rw [computeKeyHash, hp] at hfirst
    refine obeys_bind hfirst fun s r hr => ?_
    cases r with
    | none =>
      obtain ⟨-, hsome⟩ := hr.2 rfl
      cases hsome
    | some it =>
      obtain ⟨rfl, hit⟩ := hr.1 it rfl
      simp only [hp]
      exact obeys_ret ⟨rfl, it, rfl, hit⟩
  | some pepper =>
    rw [computeKeyHash, hp] at hfirst
    refine obeys_bind hfirst fun s r hr => ?_
    cases r with
    | none =>
      obtain ⟨rfl, -⟩ := hr.2 rfl
      exact obeys_legacyLookup pid hp
    | some it =>
      obtain ⟨rfl, hit⟩ := hr.1 it rfl
      exact obeys_ret ⟨rfl, it, rfl, hit⟩

theorem obeys_findRecord (pid : Nat) :
    (protocol env T apiKey).Obeys (Found T) NoRaise looking (findRecord env pid apiKey) := by
  refine obeys_bind (Q := fun s r => s = looking ∧
    ∀ it, r = some it → KeyRecord.acceptedUntil T it = true)
    (obeys_perform rfl (fun r hr => ⟨rfl, hr rfl⟩) fun _ h => by cases h) fun s r hr => ?_
  obtain ⟨rfl, hr⟩ := hr
  cases r with
  | some it => exact obeys_ret ⟨rfl, it, rfl, hr it rfl⟩
  | none =>
    refine obeys_bind (obeys_lookupAndMaybeMigrate pid) fun s r hr => ?_
    obtain ⟨hs, it, rfl, hit⟩ := hr
    refine obeys_bind (obeys_local hs rfl (allows_cacheAdd hs hit)) fun s _ hs => ?_
    exact obeys_ret ⟨hs.1, it, rfl, hit⟩

theorem le_of_answers_now {now : Timestamp} (hs : s.own = true)
    (h : answers env T apiKey s .now (.ok now)) : now ≤ T := by
  cases s with
  | updating | other => cases hs
  | _ => exact h

theorem obeys_validateKeyRecord {it : KeyRecord} (hit : KeyRecord.acceptedUntil T it = true)
    (hs : s.own = true) : (protocol env T apiKey).Obeys (fun s r => s.own = true ∧ r = true) NoRaise s
      (validateKeyRecord it) := by
  have hvalid : keyRecordValid it T = true := (Bool.and_eq_true_iff.1 hit).1
  have hact : it.isActive = true := (Bool.and_eq_true_iff.1 hvalid).1
  unfold validateKeyRecord
  rw [hact]
  split
  next h => cases h
  next =>
    split
    · refine obeys_bind (obeys_local hs rfl (allows_aside hs rfl)) fun s now hn => ?_
      exact obeys_ret ⟨hn.1, keyRecordValid_of_le hvalid (le_of_answers_now hs hn.2)⟩
    · exact obeys_ret ⟨hs, keyRecordValid_of_le hvalid (Nat.zero_le T)⟩

theorem obeys_acceptRecord {it : KeyRecord} (pid : Nat) (h : String)
    (hit : KeyRecord.acceptedUntil T it = true) (hs : s.own = true) :
    (protocol env T apiKey).Obeys (fun _ _ => True) NoRaise s (acceptRecord pid h it) := by
  obtain ⟨tenantId, ht⟩ := Option.isSome_iff_exists.1 (Bool.and_eq_true_iff.1 hit).2
  unfold acceptRecord
  rw [ht]
  exact obeys_bind (obeys_local hs rfl (allows_aside hs rfl)) fun s _ hs => obeys_ret trivial

theorem obeys_authenticate (pid : Nat) (hkey : isValidKeyFormat apiKey = true) :
    (protocol env T apiKey).Obeys (fun _ _ => True) NoRaise looking (authenticate env pid apiKey) := by
  unfold authenticate
  rw [if_pos hkey]
  refine obeys_bind (obeys_findRecord pid) fun s r hr => ?_
  obtain ⟨hs, it, rfl, hit⟩ := hr
  refine obeys_bind (obeys_validateKeyRecord hit hs) fun s valid hv => ?_
  obtain ⟨hs, rfl⟩ := hv
  exact obeys_acceptRecord pid _ hit hs

theorem updating_updateLastUsed (pid : Nat) (h : String) :
    All (allows env T apiKey updating) (updateLastUsed pid h) := by
  have hlocal : ∀ {op : Op}, allows env T apiKey updating op →
      All (allows env T apiKey updating) (call op) := fun hop => all_perform hop
  refine all_bind (hlocal rfl) fun due => spec_ite ?_ trivial
  refine spec_tryCatch (all_bind (hlocal rfl) fun now => ?_) fun _ => hlocal rfl
  have hupdate : All (allows env T apiKey updating) (call (.updateKey h (lastUsedUpdate now))) :=
    all_perform ⟨now, rfl⟩
  exact hupdate

/-- An authentication with the key never raises while the key is stored. -/
theorem obeys_body (hkey : isValidKeyFormat apiKey = true) (e : Entry) :
    (protocol env T apiKey).Obeys (fun _ _ => True) NoRaise (init apiKey e) (e.body env) := by
  have hother : ∀ p : Prog Unit,
      (protocol env T apiKey).Obeys (fun _ _ => True) NoRaise other p := by
    intro p
    have hfree : ∀ (s : Lookup) (op : Op), s = other → allows env T apiKey s op ∧
        ∀ ans : sig.Ans op, s.next op ans = other := by
      rintro s op rfl
      exact ⟨trivial, fun ans => rfl⟩
    exact (obeys_of_free (R := protocol env T apiKey) hfree rfl p).mono (fun _ _ _ => trivial)
      fun s _ hs => by rw [hs]; rfl
  cases e with
  | authenticate q key =>
    by_cases hown : key = apiKey
    · subst hown
      rw [init, if_pos rfl]
      exact obeys_bind (obeys_authenticate q hkey) fun _ _ _ => obeys_ret trivial
    · rw [init, if_neg hown]
      exact hother _
  | updateLastUsed q i =>
    have hkeep : ∀ (s : Lookup) (op : Op), allows env T apiKey updating op → s = updating →
        allows env T apiKey s op ∧ ∀ ans : sig.Ans op, s.next op ans = updating := by
      rintro s op hop rfl
      exact ⟨hop, fun ans => rfl⟩
    have hbody : All (allows env T apiKey updating) (Entry.body env (.updateLastUsed q i)) :=
      all_bind (all_perform rfl) (updating_updateLastUsed q)
    exact (obeys_of_inv (R := protocol env T apiKey) hkeep hbody rfl).mono (fun _ _ _ => trivial)
      fun s _ hs => by rw [hs]; rfl
  | _ => exact hother _

end Lookup

section
variable {env : KeyEnv} {T : Timestamp} {apiKey : String}

/-- How far a thread has come. -/
def lookup (apiKey : String) (th : Thread env) : Lookup :=
  th.trace.foldr (fun ev s => s.next ev.op ev.ans) (Lookup.init apiKey th.entry)

/-! ## The moves -/

/-- Authentications with the key and background updates. -/
def Entry.usesKey (apiKey : String) : Entry → Bool
  | .authenticate _ key => key == apiKey
  | .updateLastUsed ..  => true
  | _                   => false

/-- The runs considered: uses of the key by the time `T`; every read of the store succeeds. -/
def ordinary (T : Timestamp) (apiKey : String) (c : Config env) : Move env → Bool
  | .start e  => e.usesKey apiKey
  | .act i ch =>
    match c.nextOp i, ch.fail with
    | some (.getKey _), some _ => false
    | _, _                     => decide (ch.now ≤ T)
  | .crash _  => true

/-- The move deletes the plain hash while an authentication has missed the peppered hash and has not
read the plain one, or it is a background update of a hash of the key that has no record. -/
def locksOut (apiKey : String) (c : Config env) : Move env → Bool
  | .act i ch =>
    match c.nextOp i, ch.fail with
    | some (.updateKey h _), none =>
      (keyHashes env apiKey).contains h && (c.world.apiKeys.item h).isNone
    | some (.deleteKey h), none =>
      h == hashKey env apiKey && c.threads.any fun th => !th.crashed && lookup apiKey th == .missed
    | _, _ => false
  | _ => false

/-! ## The invariant -/

/-- What the store says of the two hashes at each point of an authentication. -/
def Lookup.Sound (env : KeyEnv) (T : Timestamp) (apiKey : String) (w : World) : Lookup → Prop
  | .missed =>
    computeKeyHash env apiKey ≠ hashKey env apiKey ∧ w.standing T (hashKey env apiKey) = some true
  | .migrating =>
    computeKeyHash env apiKey ≠ hashKey env apiKey ∧ w.standing T (hashKey env apiKey) ≠ some false
  | .stored =>
    computeKeyHash env apiKey ≠ hashKey env apiKey ∧
      w.standing T (computeKeyHash env apiKey) = some true
  | _ => True

/-- The key is stored under the hash that is looked up first, or under its plain hash only. -/
def Stored (env : KeyEnv) (T : Timestamp) (apiKey : String) (w : World) : Prop :=
  w.standing T (computeKeyHash env apiKey) = some true ∨
    w.standing T (computeKeyHash env apiKey) = none ∧ w.standing T (hashKey env apiKey) = some true

structure LockoutInv (T : Timestamp) (apiKey : String) (c : Config env) : Prop where
  scope  : ∀ th ∈ c.threads, lookup apiKey th ≠ .other
  stored : Stored env T apiKey c.world
  caches : c.world.CachesAccepted env T apiKey
  sound  : ∀ th ∈ c.threads, th.crashed = false →
    (lookup apiKey th).Sound env T apiKey c.world

section
variable {w w' : World} {s : Lookup} {op : Op} {ans : sig.Ans op} {ch : Choice} {h : String}

theorem acceptedUntil_lastUsed {it it' : KeyRecord} {now : Timestamp}
    (hu : (lastUsedUpdate now).apply it = .ok it') :
    KeyRecord.acceptedUntil T it' = KeyRecord.acceptedUntil T it := by
  have hsame : ∀ a : ApiKeyRecord, a ≠ .lastUsed → it' a = it a := by
    intro a ha
    refine Dynamo.Update.apply_frame hu fun x hx => ?_
    rw [List.mem_singleton.1 hx]
    exact fun h => ha h.symm
  have hact : it' .isActive = it .isActive := hsame _ fun h => by cases h
  have hexp : it' .expiresAt = it .expiresAt := hsame _ fun h => by cases h
  have htenant : it' .tenantId = it .tenantId := hsame _ fun h => by cases h
  simp only [KeyRecord.acceptedUntil, keyRecordValid, KeyRecord.isActive, KeyRecord.expiresAt,
    KeyRecord.tenantId, hact, hexp, htenant]

theorem init_ne_other {e : Entry} (he : e.usesKey apiKey = true) : Lookup.init apiKey e ≠ .other := by
  cases e with
  | authenticate q key =>
    rw [Lookup.init, if_pos (eq_of_beq he)]
    exact fun h => by cases h
  | updateLastUsed => exact fun h => by cases h
  | _ => cases he

theorem sound_init (e : Entry) : (Lookup.init apiKey e).Sound env T apiKey w := by
  cases e with
  | authenticate q key =>
    rw [Lookup.init]
    split <;> trivial
  | _ => trivial

/-- What a call of a handler of the run does to the standing of a hash. -/
theorem standing_exec (hs : s ≠ .other) (ha : Lookup.allows env T apiKey s op)
    (hx : w.exec op ch = some (ans, w')) (h : String) :
    w'.standing T h = w.standing T h ∨
    (s = .migrating ∧ h = computeKeyHash env apiKey ∧ w'.standing T h = some true) ∨
    (s = .stored ∧ h = hashKey env apiKey ∧ op = .deleteKey h ∧ ch.fail = none ∧
      w'.standing T h = none) ∨
    (∃ u, op = .updateKey h u ∧ ch.fail = none ∧ w.standing T h = none) := by
  by_cases hk : op.isKeyWrite = true
  · cases op with
    | putKey j it =>
      cases s with
      | migrating =>
        obtain ⟨hj, hit⟩ := ha
        rcases exec_putKey hx with ⟨_, rfl⟩ | ⟨_, _, _, rfl⟩
        · by_cases hh : h = j
          · subst hh
            refine .inr (.inl ⟨rfl, hj, ?_⟩)
            rw [World.standing, Dynamo.Table.put_item_self, Option.map_some, hit]
          · exact .inl (by rw [World.standing, Dynamo.Table.put_item_ne _ _ hh, World.standing])
        · exact .inl rfl
      | other => exact absurd rfl hs
      | _ => cases ha
    | deleteKey j =>
      cases s with
      | stored =>
        obtain rfl : j = hashKey env apiKey := ha
        rcases exec_deleteKey hx with ⟨rfl, rfl⟩ | ⟨_, _, _, rfl⟩
        · by_cases hh : h = hashKey env apiKey
          · subst hh
            refine .inr (.inr (.inl ⟨rfl, rfl, rfl, fail_of_ok rfl hx, ?_⟩))
            rw [World.standing, Dynamo.Table.delete_item_self, Option.map_none]
          · exact .inl (by rw [World.standing, Dynamo.Table.delete_item_ne _ hh, World.standing])
        · exact .inl rfl
      | other => exact absurd rfl hs
      | _ => cases ha
    | updateKey j u =>
      cases s with
      | updating =>
        obtain ⟨now, rfl⟩ := ha
        rcases exec_updateKey hx with ⟨it, rfl, hit, rfl⟩ | ⟨_, _, rfl⟩
        · by_cases hh : h = j
          · subst hh
            cases hold : w.apiKeys.item h with
            | none =>
              have hnone : w.standing T h = none := by rw [World.standing, hold, Option.map_none]
              exact .inr (.inr (.inr ⟨_, rfl, fail_of_ok rfl hx, hnone⟩))
            | some old =>
              rw [World.keyRecord, hold, Option.getD_some] at hit
              left
              rw [World.standing, Dynamo.Table.put_item_self, World.standing, hold, Option.map_some,
                Option.map_some, acceptedUntil_lastUsed hit]
          · exact .inl (by rw [World.standing, Dynamo.Table.put_item_ne _ _ hh, World.standing])
        · exact .inl rfl
      | other => exact absurd rfl hs
      | _ => cases ha
    | _ => cases hk
  · left
    rw [World.standing, (exec_frame hx).apiKeys (Bool.eq_false_iff.2 hk), World.standing]

/-- What the moves considered do to the standing of the two hashes. -/
theorem standing_act {c : Config env} {i : Nat} {th : Thread env} {k : sig.Ans op → Prog Unit}
    (hJ : LockoutInv T apiKey c) (hφ : locksOut apiKey c (.act i ch) = false) (hn : c.Next i th op k)
    (ha : Lookup.allows env T apiKey (lookup apiKey th) op)
    (hx : c.world.exec op ch = some (ans, w')) (hh : h ∈ keyHashes env apiKey) :
    w'.standing T h = c.world.standing T h ∨
    (h = computeKeyHash env apiKey ∧ w'.standing T h = some true) ∨
    (h = hashKey env apiKey ∧ computeKeyHash env apiKey ≠ hashKey env apiKey ∧
      c.world.standing T (computeKeyHash env apiKey) = some true ∧ w'.standing T h = none ∧
      ∀ u ∈ c.threads, u.crashed = false → lookup apiKey u ≠ .missed) := by
  have hmem := List.mem_of_getElem? hn.1
  have hnext := Effect.Config.nextOp_eq_some.2 ⟨th, k, hn⟩
  rcases standing_exec (hJ.scope th hmem) ha hx h with hsame | ⟨-, hc, hput⟩ |
    ⟨hs, hl, rfl, hf, hdel⟩ | ⟨u, rfl, hf, hnone⟩
  · exact .inl hsame
  · exact .inr (.inl ⟨hc, hput⟩)
  · have hsound := hJ.sound th hmem hn.2.1
    rw [hs] at hsound
    obtain ⟨hne, hstored⟩ := hsound
    refine .inr (.inr ⟨hl, hne, hstored, hdel, fun u hu hcr hmissed => ?_⟩)
    have hany : (c.threads.any fun th => !th.crashed && lookup apiKey th == .missed) = true :=
      List.any_eq_true.2 ⟨u, hu, by rw [hcr, hmissed]; rfl⟩
    simp only [locksOut, hnext, hf, hl, hany, beq_self_eq_true] at hφ
    cases hφ
  · have hitem : (c.world.apiKeys.item h).isNone = true := by
      rw [Option.isNone_iff_eq_none]
      exact Option.map_eq_none_iff.1 hnone
    simp only [locksOut, hnext, hf, hitem, List.contains_iff_mem.2 hh] at hφ
    cases hφ

theorem plainHash_mem : hashKey env apiKey ∈ keyHashes env apiKey := List.mem_cons_self

section
variable {c : Config env} {i : Nat} {th : Thread env} {k : sig.Ans op → Prog Unit}

/-- The key stays stored: its plain hash is deleted only after the peppered one has been written. -/
theorem LockoutInv.stored_act (hJ : LockoutInv T apiKey c)
    (hφ : locksOut apiKey c (.act i ch) = false) (hn : c.Next i th op k)
    (ha : Lookup.allows env T apiKey (lookup apiKey th) op)
    (hx : c.world.exec op ch = some (ans, w')) : Stored env T apiKey w' := by
  have hfirst := standing_act hJ hφ hn ha hx (computeKeyHash_mem env apiKey)
  have hplain := standing_act hJ hφ hn ha hx plainHash_mem
  rcases hfirst with hfirst | ⟨-, hput⟩ | ⟨hl, hne, -⟩
  · rcases hJ.stored with hC | ⟨hC, hL⟩
    · exact .inl (hfirst.trans hC)
    · rcases hplain with hplain | ⟨hl, hput⟩ | ⟨-, -, hstored, -⟩
      · exact .inr ⟨hfirst.trans hC, hplain.trans hL⟩
      · rw [hl] at hL
        rw [hL] at hC
        cases hC
      · rw [hC] at hstored
        cases hstored
  · exact .inl hput
  · exact absurd hl hne

/-- What the other authentications know of the two hashes stays true. -/
theorem LockoutInv.sound_act (hJ : LockoutInv T apiKey c)
    (hφ : locksOut apiKey c (.act i ch) = false) (hn : c.Next i th op k)
    (ha : Lookup.allows env T apiKey (lookup apiKey th) op)
    (hx : c.world.exec op ch = some (ans, w')) {u : Thread env} (hu : u ∈ c.threads)
    (hcr : u.crashed = false) : (lookup apiKey u).Sound env T apiKey w' := by
  have hsound := hJ.sound u hu hcr
  have hplain := standing_act hJ hφ hn ha hx plainHash_mem
  have hfirst := standing_act hJ hφ hn ha hx (computeKeyHash_mem env apiKey)
  cases hs : lookup apiKey u with
  | missed =>
    rw [hs] at hsound
    obtain ⟨hne, hL⟩ := hsound
    refine ⟨hne, ?_⟩
    rcases hplain with hplain | ⟨hl, -⟩ | ⟨-, -, -, -, hnone⟩
    · exact hplain.trans hL
    · exact absurd hl.symm hne
    · exact absurd hs (hnone u hu hcr)
  | migrating =>
    rw [hs] at hsound
    obtain ⟨hne, hL⟩ := hsound
    refine ⟨hne, ?_⟩
    rcases hplain with hplain | ⟨hl, -⟩ | ⟨-, -, -, hdel, -⟩
    · rwa [hplain]
    · exact absurd hl.symm hne
    · rw [hdel]
      exact fun h => by cases h
  | stored =>
    rw [hs] at hsound
    obtain ⟨hne, hC⟩ := hsound
    refine ⟨hne, ?_⟩
    rcases hfirst with hfirst | ⟨-, hput⟩ | ⟨hl, -⟩
    · exact hfirst.trans hC
    · exact hput
    · exact absurd hl hne
  | _ => trivial

/-- A read leaves the store alone, and a put of a migration stores an accepted record. -/
theorem LockoutInv.sound_next (hJ : LockoutInv T apiKey c)
    (hφ : locksOut apiKey c (.act i ch) = false) (hn : c.Next i th op k)
    (ha : Lookup.allows env T apiKey (lookup apiKey th) op)
    (hx : c.world.exec op ch = some (ans, w')) :
    ((lookup apiKey th).next op ans).Sound env T apiKey w' := by
  have hmem := List.mem_of_getElem? hn.1
  have hkeep := hJ.sound_act hφ hn ha hx hmem hn.2.1
  have hsound := hJ.sound th hmem hn.2.1
  cases hs : lookup apiKey th with
  | looking =>
    rw [hs] at ha
    cases op with
    | getKey h =>
      obtain rfl : h = computeKeyHash env apiKey := ha
      obtain ⟨rfl, rfl | ⟨e, -, rfl⟩⟩ := exec_getKey hx
      · cases hitem : c.world.apiKeys.item (computeKeyHash env apiKey) with
        | some it => trivial
        | none =>
          have hC : c.world.standing T (computeKeyHash env apiKey) = none := by
            rw [World.standing, hitem, Option.map_none]
          rcases hJ.stored with hC' | ⟨-, hL⟩
          · rw [hC] at hC'
            cases hC'
          · refine ⟨fun hne => ?_, hL⟩
            rw [hne, hL] at hC
            cases hC
      · trivial
    | _ => cases ans <;> trivial
  | missed =>
    rw [hs] at hkeep hsound
    cases op with
    | getKey h =>
      obtain ⟨rfl, rfl | ⟨e, -, rfl⟩⟩ := exec_getKey hx
      · exact ⟨hsound.1, by rw [hsound.2]; exact fun h => by cases h⟩
      · exact hkeep
    | _ => cases ans <;> exact hkeep
  | migrating =>
    rw [hs] at hkeep ha
    cases op with
    | putKey h it =>
      obtain ⟨rfl, hit⟩ := ha
      rcases exec_putKey hx with ⟨rfl, rfl⟩ | ⟨_, _, rfl, rfl⟩
      · refine ⟨hkeep.1, ?_⟩
        rw [World.standing, Dynamo.Table.put_item_self, Option.map_some, hit]
      · exact hkeep
    | _ => cases ans <;> exact hkeep
  | _ =>
    rw [hs] at hkeep
    exact hkeep

theorem LockoutInv.caches_act (hJ : LockoutInv T apiKey c)
    (hmem : th ∈ c.threads) (ha : Lookup.allows env T apiKey (lookup apiKey th) op)
    (hx : c.world.exec op ch = some (ans, w')) : w'.CachesAccepted env T apiKey := by
  intro q e he hkey
  by_cases hadd : ∃ p h it ttl, op = .cacheAdd p h it ttl
  · obtain ⟨p, h, it, ttl, rfl⟩ := hadd
    obtain ⟨-, rfl⟩ := exec_cacheAdd hx
    by_cases hq : q = p
    · subst hq
      rw [setProcess_self] at he
      rcases List.mem_cons.1 he with rfl | he
      · cases hs : lookup apiKey th with
        | other => exact absurd hs (hJ.scope th hmem)
        | _ =>
          rw [hs] at ha
          exact ha
      · exact hJ.caches q e (List.mem_of_mem_filter he) hkey
    · rw [setProcess_ne _ _ hq] at he
      exact hJ.caches q e he hkey
  · have hsub := exec_cache_subset hx (fun p h it ttl h' => hadd ⟨p, h, it, ttl, h'⟩) q e he
    exact hJ.caches q e hsub hkey

theorem local_ok {e : Exc} (hl : World.isLocal op = true) : w.exec op ch ≠ some (.error e, w') := by
  intro hx
  have hrun := exec_local hl hx
  cases op with
  | takeLastUsed q i =>
    obtain ⟨_, -, h⟩ := Option.map_eq_some_iff.1 hrun
    cases h
  | tokenUrlsafe =>
    simp only [World.run] at hrun
    split at hrun <;> cases hrun
  | cacheGet | cacheAdd | cacheInvalidate | debounce | forgetLastUsed | startLastUsed | now =>
    cases hrun
  | _ => cases hl

theorem accepted_of_item {it : KeyRecord} {b : Bool} (hw : w.standing T h = some b)
    (hit : w.apiKeys.item h = some it) : KeyRecord.acceptedUntil T it = b := by
  rw [World.standing, hit, Option.map_some] at hw
  exact Option.some.inj hw

/-- What the store answers at each point of an authentication. -/
theorem LockoutInv.answers_getKey {r : Option KeyRecord} (hJ : LockoutInv T apiKey c)
    (hs : s.Sound env T apiKey c.world) (ha : Lookup.allows env T apiKey s (.getKey h))
    (hr : c.world.apiKeys.item h = r) : Lookup.answers env T apiKey s (.getKey h) (.ok r) := by
  cases s with
  | looking =>
    obtain rfl : h = computeKeyHash env apiKey := ha
    refine ⟨fun it hit => ?_, fun hnone => ?_⟩
    · rcases hJ.stored with hC | ⟨hC, -⟩
      · exact accepted_of_item hC (hr.trans hit)
      · rw [World.standing, hr, hit] at hC
        cases hC
    · rw [hnone] at hr
      have hC : c.world.standing T (computeKeyHash env apiKey) = none := by
        rw [World.standing, hr, Option.map_none]
      rcases hJ.stored with hC' | ⟨-, hL⟩
      · rw [hC] at hC'
        cases hC'
      · rw [Option.isSome_iff_ne_none]
        intro hp
        rw [computeKeyHash, hp, hL] at hC
        cases hC
  | missed =>
    obtain rfl : h = hashKey env apiKey := ha
    obtain ⟨-, hL⟩ := hs
    obtain ⟨it, hit, hgood⟩ := Option.map_eq_some_iff.1 hL
    exact ⟨it, hr.symm.trans hit, hgood⟩
  | migrating =>
    obtain rfl : h = hashKey env apiKey := ha
    intro it hit
    by_contra hbad
    refine hs.2 ?_
    rw [World.standing, hr, hit, Option.map_some, Bool.eq_false_iff.2 hbad]
  | stored | updating => exact ha.elim
  | other => trivial

/-- What a call answers is what the key's place in the store and the caches lead to. -/
theorem LockoutInv.answers_act (hJ : LockoutInv T apiKey c)
    (hφ : ordinary T apiKey c (.act i ch) = true) (hn : c.Next i th op k)
    (ha : Lookup.allows env T apiKey (lookup apiKey th) op)
    (hx : c.world.exec op ch = some (ans, w')) :
    Lookup.answers env T apiKey (lookup apiKey th) op ans := by
  have hmem := List.mem_of_getElem? hn.1
  have hnext := Effect.Config.nextOp_eq_some.2 ⟨th, k, hn⟩
  have hsound := hJ.sound th hmem hn.2.1
  have hlocal : ∀ e, ans = .error e → World.isLocal op = false := by
    rintro e rfl
    by_contra hl
    exact local_ok (by simpa using hl) hx
  cases op with
  | getKey h =>
    obtain ⟨-, rfl | ⟨e, hf, -⟩⟩ := exec_getKey hx
    · exact hJ.answers_getKey hsound ha rfl
    · simp only [ordinary, hnext, hf] at hφ
      cases hφ
  | cacheGet q h =>
    obtain ⟨rfl, -⟩ := exec_cacheGet hx
    have hcached : h = computeKeyHash env apiKey → ∀ it,
        ((c.world.processes q).cacheGet h ch.now).1 = some it →
          KeyRecord.acceptedUntil T it = true := by
      intro hh it hit
      obtain ⟨e, he, rfl, -⟩ := cacheGet_eq_some hit
      exact hJ.caches q _ he hh
    cases lookup apiKey th with
    | other => trivial
    | _ => exact hcached
  | now =>
    have hle : ch.now ≤ T := by simpa [ordinary, hnext] using hφ
    obtain ⟨rfl, -⟩ := Prod.mk.inj (Option.some.inj (exec_local rfl hx))
    cases lookup apiKey th with
    | other => trivial
    | _ => exact hle
  | _ =>
    cases ans with
    | ok r => cases lookup apiKey th <;> trivial
    | error e =>
      have hl := hlocal e rfl
      cases lookup apiKey th with
      | other => trivial
      | _ => exact hl

/-- **Step lemma.** A call that does not lock the key out keeps the invariant. -/
theorem LockoutInv.act (hJ : LockoutInv T apiKey c) (hφ : locksOut apiKey c (.act i ch) = false)
    (hn : c.Next i th op k) (ha : Lookup.allows env T apiKey (lookup apiKey th) op)
    (hx : c.world.exec op ch = some (ans, w')) :
    LockoutInv T apiKey { world := w', threads := c.threads.set i (th.resume k ans) } where
  scope u hu := by
    rcases List.mem_or_eq_of_mem_set hu with hu | rfl
    · exact hJ.scope u hu
    · intro hother
      have hnext : (lookup apiKey th).next op ans = .other := hother
      exact hJ.scope th (List.mem_of_getElem? hn.1) (Lookup.eq_other_of_next hnext)
  stored := hJ.stored_act hφ hn ha hx
  caches := hJ.caches_act (List.mem_of_getElem? hn.1) ha hx
  sound u hu hcr := by
    rcases List.mem_or_eq_of_mem_set hu with hu | rfl
    · exact hJ.sound_act hφ hn ha hx hu hcr
    · exact hJ.sound_next hφ hn ha hx

theorem LockoutInv.start (hJ : LockoutInv T apiKey c) {e : Entry} (he : e.usesKey apiKey = true) :
    LockoutInv T apiKey { c with threads := c.threads ++ [Effect.Thread.init e] } where
  scope u hu := by
    rcases List.mem_append.1 hu with hu | hu
    · exact hJ.scope u hu
    · rw [List.mem_singleton.1 hu]
      exact init_ne_other he
  stored := hJ.stored
  caches := hJ.caches
  sound u hu hcr := by
    rcases List.mem_append.1 hu with hu | hu
    · exact hJ.sound u hu hcr
    · rw [List.mem_singleton.1 hu]
      exact sound_init e

theorem LockoutInv.crash (hJ : LockoutInv T apiKey c) (hi : c.threads[i]? = some th) :
    LockoutInv T apiKey { c with threads := c.threads.set i { th with crashed := true } } where
  scope u hu := by
    rcases List.mem_or_eq_of_mem_set hu with hu | rfl
    · exact hJ.scope u hu
    · exact hJ.scope th (List.mem_of_getElem? hi)
  stored := hJ.stored
  caches := hJ.caches
  sound u hu hcr := by
    rcases List.mem_or_eq_of_mem_set hu with hu | rfl
    · exact hJ.sound u hu hcr
    · cases hcr

end

end

/-! ## Runs -/

/-- Whether a thread authenticates with the key is fixed at its start. -/
theorem own_lookup (th : Thread env) :
    (lookup apiKey th).own = (Lookup.init apiKey th.entry).own := by
  unfold lookup
  induction th.trace with
  | nil => rfl
  | cons ev tr ih => rw [List.foldr_cons, Lookup.own_next, ih]

/-- **A valid key is never refused, in every run in which its plain hash is not deleted under a lookup
and no background update writes to a hash of the key that has no record.** -/
theorem neverLockedOut {w : World} {ms : List (Move env)} {c : Config env}
    (hkey : w.keyValid env T apiKey = true) (hcaches : w.CachesAccepted env T apiKey)
    (hord : Along (fun c m => ordinary T apiKey c m = true) (.init w) ms)
    (hsteps : Along (fun c m => locksOut apiKey c m = false) (.init w) ms)
    (h : play (.init w) ms = some c) {th : Thread env} (hth : th ∈ c.threads) {q : Nat}
    (he : th.entry = .authenticate q apiKey) (e : Exc) : th.prog ≠ .raise e := by
  obtain ⟨hformat, hstored⟩ := Bool.and_eq_true_iff.1 hkey
  have hfound : Stored env T apiKey w := by simpa [Stored] using hstored
  have hinit : LockoutInv T apiKey (.init w : Config env) :=
    ⟨fun _ ht => (by cases ht), hfound, hcaches, fun _ ht => (by cases ht)⟩
  have hcoupled : (Lookup.protocol env T apiKey).Coupled (Lookup.init apiKey) (fun _ _ => True)
      Lookup.NoRaise (.init w : Config env) := fun _ ht => by cases ht
  obtain ⟨hobeys, -⟩ := protocol_inv (R := Lookup.protocol env T apiKey) (J := LockoutInv T apiKey)
    (Lookup.init apiKey) (Lookup.obeys_body hformat)
    (fun c e hJ hφ => LockoutInv.start hJ hφ.1)
    (fun c i ch th op k ans w' hJ _ hφ hn ha hx => ⟨LockoutInv.answers_act hJ hφ.1 hn ha hx,
      LockoutInv.act hJ hφ.2 hn ha hx⟩)
    (fun c i th hJ _ hi => LockoutInv.crash hJ hi) hcoupled hinit (hord.and hsteps) h
  intro hraise
  have hth := hobeys th hth
  rw [hraise] at hth
  have hown : (lookup apiKey th).own = false := hth
  rw [own_lookup, he, Lookup.init, if_pos rfl] at hown
  cases hown

end

/-! ## A migration that succeeds, and one whose put fails -/

/-- One process migrates the key and writes its `lastUsed`; another one looks it up. -/
def migrateThenUse : List (Move pepperEnv) :=
  .start (.authenticate 0 sampleApiKey) :: List.replicate 9 (.act 0 {})
    ++ .start (.updateLastUsed 0 0) :: List.replicate 4 (.act 1 { monotonic := 100 })
    ++ .start (.authenticate 1 sampleApiKey) :: List.replicate 4 (.act 2 {})

theorem cachesAccepted_legacyWorld (T : Timestamp) :
    legacyWorld.CachesAccepted pepperEnv T sampleApiKey := fun _ _ he => by cases he

set_option maxRecDepth 10000 in
theorem neverLockedOut_migrated : ∃ c, play (.init legacyWorld) migrateThenUse = some c ∧
    ∀ th ∈ c.threads, ∀ q, th.entry = .authenticate q sampleApiKey → ∀ e, th.prog ≠ .raise e := by
  have hends : (play (.init legacyWorld) migrateThenUse).isSome = true := by decide +kernel
  obtain ⟨c, h⟩ := Option.isSome_iff_exists.1 hends
  refine ⟨c, h, fun th hth q he e => ?_⟩
  refine neverLockedOut (T := 0) ?_ (cachesAccepted_legacyWorld 0) ?_ ?_ h hth he e
  · decide +kernel
  · decide +kernel
  · decide +kernel

/-- The put of the migration fails; the `lastUsed` update that follows runs all the same. -/
def failedMigrateThenUse : List (Move pepperEnv) :=
  .start (.authenticate 0 sampleApiKey) :: List.replicate 4 (.act 0 {})
    ++ .act 0 { fail := some (.exception "ProvisionedThroughputExceededException") }
      :: List.replicate 2 (.act 0 {})
    ++ .start (.updateLastUsed 0 0) :: List.replicate 4 (.act 1 { monotonic := 100 })
    ++ .start (.authenticate 1 sampleApiKey) :: List.replicate 3 (.act 2 {})

set_option maxRecDepth 10000 in
/-- The update has stored a record of the peppered hash that holds nothing but `lastUsed`. -/
theorem neverLockedOut_fails : ¬ ∀ (env : KeyEnv) (T : Timestamp) (apiKey : String) (w : World)
    (ms : List (Move env)) (c : Config env), w.keyValid env T apiKey = true →
      w.CachesAccepted env T apiKey →
      Along (fun c m => ordinary T apiKey c m = true) (.init w) ms → play (.init w) ms = some c →
        ∀ th ∈ c.threads, ∀ q, th.entry = .authenticate q apiKey → ∀ e, th.prog ≠ .raise e := by
  intro hall
  have hraises : (play (.init legacyWorld) failedMigrateThenUse).map (fun c : Config pepperEnv =>
      c.threads.any fun th => match th.entry, th.prog with
        | .authenticate _ key, .raise _ => key == sampleApiKey
        | _, _                          => false) = some true := by
    decide +kernel
  obtain ⟨c, h, hany⟩ := Option.map_eq_some_iff.1 hraises
  have hvalid : legacyWorld.keyValid pepperEnv 0 sampleApiKey = true := by decide +kernel
  have hord : Along (fun c m => ordinary 0 sampleApiKey c m = true) (.init legacyWorld)
      failedMigrateThenUse := by
    decide +kernel
  obtain ⟨th, hth, hraise⟩ := List.any_eq_true.1 hany
  split at hraise
  next q key e he hprog =>
    rw [eq_of_beq hraise] at he
    exact hall pepperEnv 0 sampleApiKey legacyWorld failedMigrateThenUse c hvalid
      (cachesAccepted_legacyWorld 0) hord h th hth q he e hprog
  next => cases hraise

end DocumentAi.Admin
