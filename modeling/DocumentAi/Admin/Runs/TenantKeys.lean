import DocumentAi.Lib.Protocol
import DocumentAi.Admin.Exec

/-!
# Has an inactive tenant no active key?

A deactivation reads the tenant's keys once and updates them one by one. `delete_tenant` marks the
tenant after the keys, `update_tenant` before them, and a key is created by a check of the tenant
followed by a put. An active key of an inactive tenant is *owed* by a deactivation that still runs.

| here | meaning |
| --- | --- |
| `KeysRevoked`    | no inactive tenant has an active key |
| `Revocation`     | how far a deactivation has come, computed from its calls |
| `owes`           | the deactivation has yet to deactivate the key |
| `endangers`      | the move that leaves an active key to nobody, or creates one too late |
| `keysRevoked_of_quiescent` | when the moves of a run endanger no key, none is left active |
-/

namespace DocumentAi.Admin

open Effect (play move_cases Along getElem?_set_cases getElem?_concat_cases)
open Effect.Prog (All all_bind all_perform spec_tryCatch spec_ite)
open Effect.Protocol (obeys_bind obeys_quiet_bind obeys_tryCatch obeys_perform obeys_ret
  obeys_raise obeys_of_stuck obeys_of_quiet protocol_inv)

/-! ## Active keys and inactive tenants -/

def World.inactive (w : World) (t : String) : Bool :=
  (w.tenants.item t).any fun (it : TenantItem) => !it.isActive

def KeyRecord.activeFor (it : KeyRecord) (t : String) : Bool := it.isActive && it.tenantId == some t

/-- The hash `h` is stored with an active record of the tenant. -/
def World.activeKey (w : World) (t h : String) : Bool :=
  (w.apiKeys.item h).any fun (it : KeyRecord) => it.activeFor t

/-- A tenant that is inactive has no active API key. -/
def KeysRevoked (w : World) : Prop :=
  ∀ t h, w.inactive t = true → w.activeKey t h = false

/-! ## How far a deactivation has come -/

/-- Creation, the two deactivations before and after their key query, and other handlers. -/
inductive Revocation where
  | other
  | creating
  | deleting (tenantId : String)
  | updating (tenantId : String)
  /-- `update_tenant` has written the tenant and not yet read its keys. -/
  | marked (tenantId : String)
  | revoking (byDelete : Bool) (tenantId : String) (pending : List String)
  | finished
deriving DecidableEq

/-- The hashes `deactivate_keys_for_tenant` goes through. -/
def activeHashes (items : List (String × KeyRecord)) : List String :=
  ((items.filter fun e => e.2.isActive).map (·.1)).filter (· ≠ "")

/-- The request leaves the tenant inactive. -/
def Deactivates (u : Dynamo.Update TenantRecord.schema) (clear : List TenantRecord) : Prop :=
  ∀ old new, u.apply old = .ok new → TenantItem.isActive (new.without clear) = false

namespace Revocation

def drop (h : String) : Revocation → Revocation
  | revoking b t pending => revoking b t (pending.filter (· ≠ h))
  | s                    => s

def next (s : Revocation) : (op : Op) → sig.Ans op → Revocation
  | .queryKeysByTenant .., .ok items =>
    match s with
    | deleting t => revoking true t (activeHashes items)
    | marked t   => revoking false t (activeHashes items)
    | s          => s
  | .queryKeysByTenant .., .error _ =>
    match s with
    | marked _ => finished
    | s        => s
  | .getTenant _, .error _ =>
    match s with
    | marked _ | revoking .. => finished
    | s                      => s
  | .getTenant _, .ok r =>
    match s with
    | marked _ | revoking .. => if (r : Option TenantItem).isSome then s else finished
    | s                      => s
  | .updateTenant .., .ok _ =>
    match s with
    | updating t  => marked t
    | revoking .. => finished
    | s           => s
  | .updateTenant .., .error _ =>
    match s with
    | revoking .. => finished
    | s           => s
  | .getKey h, .ok r => if (r : Option KeyRecord).isSome then s else s.drop h
  | .getKey h, .error _ => s.drop h
  | .updateKey h _, _ => s.drop h
  | _, _ => s

def allows : Revocation → Op → Prop
  | other, _ => True
  | creating, op =>
    op.isTenantWrite = false ∧ (op.isKeyWrite = true → ∃ h it, op = .putKey h it ∧ h ≠ "")
  | updating t, op =>
    op.isKeyWrite = false ∧
      (op.isTenantWrite = true → ∃ u clear, op = .updateTenant t u clear ∧ Deactivates u clear)
  | revoking byDelete t pending, op =>
    (op.isKeyWrite = true → ∃ h, op = .updateKey h deactivation ∧ h ≠ "") ∧
      (op.isTenantWrite = true → byDelete = true ∧ pending = [] ∧
        ∃ u, op = .updateTenant t u [] ∧ Deactivates u []) ∧
      ∀ t', op = .getTenant t' → pending = []
  | deleting t, op | marked t, op =>
    op.isKeyWrite = false ∧ op.isTenantWrite = false ∧
      (∀ t' name, op = .queryKeysByTenant t' name → t' = t ∧ name = none) ∧
      ∀ t', op = .getTenant t' → t' = t
  | finished, op => op.isKeyWrite = false ∧ op.isTenantWrite = false

/-- The key is still to be read or deactivated by this deactivation. -/
def owes : Revocation → String → String → Bool
  | marked t, t', _             => t' == t
  | revoking _ t pending, t', h => t' == t && pending.contains h
  | _, _, _                     => false

end Revocation

abbrev revocationProtocol : Effect.Protocol sig where
  State := Revocation
  allow s op := s.allows op
  possible _ _ _ := True
  next s op ans := s.next op ans

def revocationInit : Entry → Revocation
  | .createApiKey .. | .cliGenerate .. => .creating
  | .deleteTenant _ _ t                => .deleting t
  | .updateTenant _ _ t body           =>
    if body.isActive = some (some false) then .updating t else .other
  | _                                  => .other

/-- Nothing is left to do for the keys of an inactive tenant. -/
def Finished : Revocation → Prop
  | .marked _               => False
  | .revoking _ _ pending   => pending = []
  | _                       => True

/-! ## Every route obeys -/

namespace Revocation

section
variable {env : KeyEnv} {pid : Nat} {creds : Option String} {t : String} {α : Type}
  {s : Revocation} {b : Bool} {pending : List String}

/-- Calls that neither write a key or a tenant nor read one. -/
def Aside : Op → Prop
  | .decodeAndVerify _ | .putAuditEvent _ | .cacheInvalidate .. | .now | .tokenUrlsafe => True
  | _ => False

theorem quiet_of_aside {op : Op} (h : Aside op) : revocationProtocol.Quiet op := by
  intro s
  cases op with
  | decodeAndVerify | putAuditEvent | cacheInvalidate | now | tokenUrlsafe =>
    refine ⟨?_, fun r => by cases r <;> rfl⟩
    cases s with
    | other => trivial
    | creating => exact ⟨rfl, fun h => (by cases h)⟩
    | updating => exact ⟨rfl, fun h => (by cases h)⟩
    | revoking => exact ⟨fun h => (by cases h), fun h => (by cases h), fun _ h => (by cases h)⟩
    | deleting => exact ⟨rfl, rfl, fun _ _ h => (by cases h), fun _ h => (by cases h)⟩
    | marked => exact ⟨rfl, rfl, fun _ _ h => (by cases h), fun _ h => (by cases h)⟩
    | finished => exact ⟨rfl, rfl⟩
  | _ => exact h.elim

theorem quiet_call {op : Op} (h : Aside op) : All revocationProtocol.Quiet (call op) :=
  all_perform (quiet_of_aside h)

theorem quiet_ofExcept (r : Except Exc α) :
    All revocationProtocol.Quiet (Effect.Prog.ofExcept (S := sig) r) := by
  cases r <;> trivial

theorem quiet_verifyJwt (creds : Option String) : All revocationProtocol.Quiet (verifyJwt creds) := by
  unfold verifyJwt
  split
  · trivial
  · refine spec_tryCatch (quiet_call trivial) fun e => ?_
    split <;> trivial

theorem quiet_verifyJwtWithRole (creds : Option String) :
    All revocationProtocol.Quiet (verifyJwtWithRole creds) :=
  all_bind (quiet_verifyJwt creds) fun _ => all_bind (quiet_ofExcept _) fun _ => trivial

theorem quiet_verifyJwtWithSuperAdmin (creds : Option String) :
    All revocationProtocol.Quiet (verifyJwtWithSuperAdmin creds) :=
  all_bind (quiet_verifyJwt creds) fun _ => all_bind (quiet_ofExcept _) fun _ => trivial

theorem quiet_logEvent (claims : Claims) (action targetType targetId : String)
    (t : Option String) :
    All revocationProtocol.Quiet (logEvent claims action targetType targetId t) := by
  refine spec_tryCatch (all_bind (quiet_call trivial) fun _ => ?_) fun _ => trivial
  exact spec_ite (quiet_call trivial) trivial

theorem obeys_quiet {p : Prog α} (hp : All revocationProtocol.Quiet p) (hs : Finished s) :
    revocationProtocol.Obeys (fun s _ => Finished s) (fun s _ => Finished s) s p :=
  (obeys_of_quiet hp s).mono (fun s' _ (h : s' = s) => by rw [h]; exact hs)
    fun s' _ (h : s' = s) => by rw [h]; exact hs

/-! ### Creation -/

abbrev CreatingCall (op : Op) : Prop := Revocation.creating.allows op

theorem next_creating (op : Op) (ans : sig.Ans op) :
    Revocation.creating.next op ans = .creating := by
  cases op with
  | getTenant | getKey =>
    cases ans with
    | ok r => cases r <;> rfl
    | error e => rfl
  | _ => cases ans <;> rfl

theorem creating_of_read {op : Op} (hk : op.isKeyWrite = false) (ht : op.isTenantWrite = false) :
    CreatingCall op :=
  ⟨ht, fun h => by rw [hk] at h; cases h⟩

theorem creating_call {op : Op} (hk : op.isKeyWrite = false) (ht : op.isTenantWrite = false) :
    All CreatingCall (call op) := all_perform (creating_of_read hk ht)

theorem creating_of_quiet {p : Prog α} (h : All revocationProtocol.Quiet p) :
    All CreatingCall p := h.mono fun _ hop => (hop .creating).1

theorem creating_generateApiKey (hhash : ∀ key, computeKeyHash env key ≠ "") (name e t : String)
    (expiry : Option Timestamp) (createdBy email : Option String) :
    All CreatingCall (generateApiKey env name e t expiry createdBy email) := by
  refine all_bind ?_ fun existing => ?_
  · exact spec_tryCatch (all_bind (creating_call rfl rfl) fun _ => trivial) fun _ => trivial
  refine all_bind (creating_call rfl rfl) fun random => ?_
  refine all_bind (creating_call rfl rfl) fun now => all_bind (all_perform ?_) fun _ => trivial
  exact ⟨rfl, fun _ => ⟨_, _, rfl, hhash _⟩⟩

theorem creating_createApiKey (hhash : ∀ key, computeKeyHash env key ≠ "")
    (body : CreateApiKeyRequest) : All CreatingCall (createApiKey env creds body) := by
  refine all_bind (creating_of_quiet (quiet_verifyJwtWithRole creds)) fun claims => ?_
  refine all_bind (creating_of_quiet (quiet_ofExcept _)) fun requested => ?_
  split
  · trivial
  refine all_bind (creating_call rfl rfl) fun record => ?_
  split
  · trivial
  refine spec_ite trivial (all_bind ?_ fun duplicate => spec_ite trivial (all_bind ?_ fun _ => ?_))
  · exact spec_tryCatch (all_bind (creating_call rfl rfl) fun _ => trivial) fun _ => trivial
  · exact spec_tryCatch (creating_generateApiKey hhash ..) fun _ => trivial
  · exact creating_of_quiet (quiet_logEvent ..)

theorem creating_cliGenerate (hhash : ∀ key, computeKeyHash env key ≠ "") (name e t : String)
    (expiry : Option Timestamp) : All CreatingCall (cliGenerate env name e t expiry) := by
  refine all_bind (creating_call rfl rfl) fun record => ?_
  split
  · trivial
  · exact all_bind (spec_tryCatch (creating_generateApiKey hhash ..) fun _ => trivial)
      fun _ => trivial

theorem obeys_creating {p : Prog Unit} (hp : All CreatingCall p) :
    revocationProtocol.Obeys (fun s _ => Finished s) (fun s _ => Finished s) .creating p :=
  (obeys_of_stuck (fun op hop => ⟨hop, next_creating op⟩) hp).mono
    (fun s _ (h : s = .creating) => by rw [h]; trivial)
    fun s _ (h : s = .creating) => by rw [h]; trivial

/-! ### Deactivation -/

theorem obeys_deactivateOne {h : String} (hh : h ≠ "") :
    revocationProtocol.Obeys (fun (s : Revocation) _ => s = .revoking b t (pending.filter (· ≠ h)))
      (fun _ _ => False) (.revoking b t pending) (deactivateOne pid h) := by
  have hread : Revocation.allows (.revoking b t pending) (.getKey h) :=
    ⟨fun h => (by cases h), fun h => (by cases h), fun _ h => (by cases h)⟩
  have hwrite : Revocation.allows (.revoking b t pending) (.updateKey h deactivation) :=
    ⟨fun _ => ⟨h, rfl, hh⟩, fun h => (by cases h), fun _ h => (by cases h)⟩
  refine obeys_tryCatch
    (F := fun (s : Revocation) _ => s = .revoking b t (pending.filter (· ≠ h))) ?_
    fun s _ hs => obeys_ret hs
  refine obeys_bind
    (Q := fun (s : Revocation) _ => s = .revoking b t (pending.filter (· ≠ h))) ?_
    fun s _ hs => obeys_ret hs
  refine obeys_bind (Q := fun (s : Revocation) (r : Option KeyRecord) => s =
    if r.isSome then .revoking b t pending else .revoking b t (pending.filter (· ≠ h)))
    (obeys_perform hread (fun _ _ => rfl) fun _ _ => rfl) fun s r hs => ?_
  cases r with
  | none => exact obeys_ret hs
  | some record =>
    have hs : s = .revoking b t pending := hs
    rw [hs]
    refine obeys_bind
      (Q := fun (s : Revocation) _ => s = .revoking b t (pending.filter (· ≠ h)))
      (obeys_perform hwrite (fun _ _ => rfl) fun _ _ => rfl) fun s _ hs => ?_
    exact obeys_quiet_bind (quiet_call trivial) (fun _ => hs) fun _ => obeys_ret hs

/-- The loop over the keys leaves none of them pending. -/
theorem obeys_deactivateAll : ∀ (hs : List String) (pending : List String), (∀ h ∈ hs, h ≠ "") →
    (∀ h ∈ pending, h ∈ hs) →
    revocationProtocol.Obeys (fun (s : Revocation) _ => s = .revoking b t []) (fun _ _ => False)
      (.revoking b t pending) (Effect.Prog.forEach (deactivateOne pid) hs)
  | [], pending, _, hsub => by
    rw [List.eq_nil_iff_forall_not_mem.2 fun h hh => List.not_mem_nil (hsub h hh)]
    exact obeys_ret rfl
  | h :: hs, pending, hne, hsub => by
    obtain ⟨hh, hne⟩ := List.forall_mem_cons.1 hne
    refine obeys_bind (obeys_deactivateOne hh) fun s _ he => ?_
    rw [he]
    refine obeys_deactivateAll hs _ hne fun h' hh' => ?_
    obtain ⟨hmem, hne'⟩ := List.mem_filter.1 hh'
    exact (List.mem_cons.1 (hsub h' hmem)).resolve_left (by simpa using hne')

theorem activeHashes_ne (items : List (String × KeyRecord)) : ∀ h ∈ activeHashes items, h ≠ "" :=
  fun h hh => by simpa using (List.mem_filter.1 hh).2

theorem obeys_deactivateKeys (ha : s.allows (.queryKeysByTenant t none))
    (hok : ∀ items, s.next (.queryKeysByTenant t none) (.ok items) =
      .revoking b t (activeHashes items))
    (herr : ∀ e, Finished (s.next (.queryKeysByTenant t none) (.error e))) :
    revocationProtocol.Obeys (fun (s : Revocation) _ => s = .revoking b t [])
      (fun s _ => Finished s) s (deactivateKeysForTenant pid t) := by
  refine obeys_bind (Q := fun (s : Revocation) items => s = .revoking b t (activeHashes items))
    (obeys_perform ha (fun items _ => hok items) fun e _ => herr e) fun s items hs => ?_
  rw [hs]
  exact (obeys_deactivateAll _ _ (activeHashes_ne items) fun _ h => h).mono (fun _ _ h => h)
    fun _ _ h => h.elim

theorem allows_query_deleting : Revocation.allows (.deleting t) (.queryKeysByTenant t none) :=
  ⟨rfl, rfl, fun _ _ h => (by cases h; exact ⟨rfl, rfl⟩), fun _ h => (by cases h)⟩

theorem allows_query_marked : Revocation.allows (.marked t) (.queryKeysByTenant t none) :=
  ⟨rfl, rfl, fun _ _ h => (by cases h; exact ⟨rfl, rfl⟩), fun _ h => (by cases h)⟩

theorem deactivates_of_set {u : Dynamo.Update TenantRecord.schema} {clear : List TenantRecord}
    (hset : .set .isActive (false : Bool) ∈ u.actions)
    (honly : ∀ y ∈ u.actions, y.target = .isActive → y = .set .isActive (false : Bool))
    (hclear : .isActive ∉ clear) : Deactivates u clear := by
  intro old new h
  have hnew : new .isActive = some (false : Bool) := Dynamo.Update.apply_set h hset honly
  have hkept : new.without clear .isActive = some (false : Bool) :=
    (if_neg hclear).trans hnew
  rw [TenantItem.isActive, hkept]
  rfl

/-- After the read of the tenant a failed or completed write ends `delete_tenant`. -/
theorem obeys_deactivateTenant (t : String) :
    revocationProtocol.Obeys (fun s _ => Finished s) (fun s _ => Finished s) (.revoking true t [])
      (deactivateTenant t) := by
  have hread : Revocation.allows (.revoking true t []) (.getTenant t) :=
    ⟨fun h => (by cases h), fun h => (by cases h), fun _ _ => rfl⟩
  refine obeys_bind (Q := fun (s : Revocation) (r : Option TenantItem) => s =
    if r.isSome then .revoking true t [] else .finished)
    (obeys_perform hread (fun _ _ => rfl) fun _ _ => trivial) fun s r hs => ?_
  cases r with
  | none =>
    have hs : s = .finished := hs
    rw [hs]
    exact obeys_ret trivial
  | some record =>
    have hs : s = .revoking true t [] := hs
    rw [hs]
    refine obeys_quiet_bind (quiet_call trivial) (fun _ => rfl) fun now => ?_
    refine obeys_bind (Q := fun (s : Revocation) _ => s = .finished) (obeys_perform ?_ (fun _ _ => rfl)
      fun _ _ => trivial) fun s _ hs => ?_
    · refine ⟨fun h => (by cases h), fun _ => ⟨rfl, rfl, _, rfl, deactivates_of_set ?_ ?_ ?_⟩,
        fun _ h => (by cases h)⟩
      · exact List.mem_cons_self
      · rintro y (_ | ⟨_, _ | ⟨_, hy⟩⟩) h
        · rfl
        · cases h
        · cases hy
      · exact List.not_mem_nil
    · rw [hs]
      exact obeys_ret trivial

theorem obeys_deleteTenant (t : String) :
    revocationProtocol.Obeys (fun s _ => Finished s) (fun s _ => Finished s) (.deleting t)
      (deleteTenant pid creds t) := by
  refine obeys_quiet_bind (quiet_verifyJwtWithSuperAdmin creds) (fun _ => trivial) fun claims => ?_
  refine obeys_bind (obeys_deactivateKeys allows_query_deleting (fun _ => rfl) fun _ => trivial)
    fun s _ hs => ?_
  rw [hs]
  refine obeys_bind (obeys_deactivateTenant t) fun s found hs => ?_
  cases found with
  | false => exact obeys_raise hs
  | true => exact obeys_quiet (quiet_logEvent ..) hs

theorem mem_setField {a : TenantRecord} {v : Option (Option (TenantRecord.Val a))}
    {y : Dynamo.Action TenantRecord.schema} (h : y ∈ setField a v) :
    ∃ x, v = some (some x) ∧ y = .set a x := by
  unfold setField at h
  split at h
  next x => exact ⟨x, rfl, List.mem_singleton.1 h⟩
  next => cases h

theorem target_setField {a : TenantRecord} {v : Option (Option (TenantRecord.Val a))}
    {y : Dynamo.Action TenantRecord.schema} (h : y ∈ setField a v) : y.target = a := by
  obtain ⟨x, _, rfl⟩ := mem_setField h
  rfl

theorem deactivates_body {body : UpdateTenantRequest} (hb : body.isActive = some (some false))
    (now : Timestamp) :
    Deactivates { actions := setFields body ++ [.set .updatedAt now] } (clearFields body) := by
  have hactive : setField .isActive body.isActive = [.set .isActive (false : Bool)] := by
    rw [hb]
    rfl
  refine deactivates_of_set ?_ ?_ ?_
  · simp [setFields, hactive]
  · intro y hy hta
    have hother : ∀ {a : TenantRecord} {v : Option (Option (TenantRecord.Val a))},
        a ≠ .isActive → y ∉ setField a v := fun hne hmem => hne ((target_setField hmem).symm.trans hta)
    simp only [setFields, hactive, List.mem_append, List.mem_singleton] at hy
    rcases hy with ((((((hy | hy) | hy) | hy) | hy) | hy) | hy) | hy
    · exact absurd hy (hother (by decide))
    · exact absurd hy (hother (by decide))
    · exact hy
    · exact absurd hy (hother (by decide))
    · exact absurd hy (hother (by decide))
    · exact absurd hy (hother (by decide))
    · split at hy
      · rw [List.mem_singleton.1 hy] at hta
        cases hta
      · cases hy
    · rw [hy] at hta
      cases hta
  · have hother : ∀ {β : Type} {a : TenantRecord} {v : Option (Option β)}, a ≠ .isActive →
        .isActive ∉ clearField a v := by
      intro β a v hne hmem
      unfold clearField at hmem
      split at hmem
      · exact hne (List.mem_singleton.1 hmem).symm
      · cases hmem
    simp only [clearFields, List.mem_append, not_or]
    refine ⟨⟨⟨⟨hother (by decide), hother (by decide)⟩, hother (by decide)⟩,
      hother (by decide)⟩, ?_⟩
    split <;> decide

theorem obeys_updateTenantRecord {body : UpdateTenantRequest}
    (hb : body.isActive = some (some false)) :
    revocationProtocol.Obeys (fun (s : Revocation) _ => s = .marked t) (fun s _ => Finished s)
      (.updating t) (updateTenantRecord t body) := by
  unfold updateTenantRecord
  split
  · exact obeys_raise trivial
  refine obeys_bind (Q := fun (s : Revocation) _ => s = .updating t)
    (obeys_perform ⟨rfl, fun h => (by cases h)⟩ (fun _ _ => rfl) fun _ _ => trivial)
    fun s r hs => ?_
  rw [hs]
  cases r with
  | none => exact obeys_raise trivial
  | some record =>
    refine obeys_quiet_bind (quiet_call trivial) (fun _ => trivial) fun now => ?_
    refine obeys_bind (Q := fun (s : Revocation) _ => s = .marked t) (obeys_perform
      ⟨rfl, fun _ => ⟨_, _, rfl, deactivates_body hb now⟩⟩ (fun _ _ => rfl) fun _ _ => trivial)
      fun s _ hs => ?_
    rw [hs]
    refine ⟨⟨rfl, rfl, fun _ _ h => (by cases h), fun _ h => (by cases h; rfl)⟩, fun r _ => ?_⟩
    cases r with
    | error e => exact obeys_raise trivial
    | ok r =>
      cases r with
      | none => exact obeys_raise trivial
      | some _ => exact obeys_ret rfl

theorem obeys_updateTenant {body : UpdateTenantRequest}
    (hb : body.isActive = some (some false)) :
    revocationProtocol.Obeys (fun s _ => Finished s) (fun s _ => Finished s) (.updating t)
      (updateTenant pid creds t body) := by
  refine obeys_quiet_bind (quiet_verifyJwtWithRole creds) (fun _ => trivial) fun claims => ?_
  refine obeys_quiet_bind (quiet_ofExcept _) (fun _ => trivial) fun _ => ?_
  refine obeys_bind (Q := fun (s : Revocation) _ => s = .updating t)
    (obeys_perform ⟨rfl, fun h => (by cases h)⟩ (fun _ _ => rfl) fun _ _ => trivial)
    fun s r hs => ?_
  rw [hs]
  cases r with
  | none => exact obeys_raise trivial
  | some record =>
    change revocationProtocol.Obeys _ _ _ (ite _ _ _)
    split
    · exact obeys_raise trivial
    change revocationProtocol.Obeys _ _ _ (ite _ _ _)
    split
    · exact obeys_raise trivial
    refine obeys_bind (Q := fun (s : Revocation) _ => s = .marked t)
      (obeys_tryCatch (obeys_updateTenantRecord hb) fun s e he => ?_) fun s _ hs => ?_
    · cases e <;> exact obeys_raise he
    · rw [hs]
      refine obeys_bind (obeys_deactivateKeys allows_query_marked (fun _ => rfl) fun _ => trivial)
        fun s _ hs => ?_
      rw [hs]
      exact obeys_quiet (quiet_logEvent ..) rfl

/-! ### Every handler -/

theorem next_other (op : Op) (ans : sig.Ans op) : Revocation.other.next op ans = .other := by
  cases op with
  | getTenant | getKey =>
    cases ans with
    | ok r => cases r <;> rfl
    | error e => rfl
  | _ => cases ans <;> rfl

theorem obeys_other (p : Prog Unit) :
    revocationProtocol.Obeys (fun s _ => Finished s) (fun s _ => Finished s) .other p :=
  (obeys_of_stuck (fun op _ => ⟨trivial, next_other op⟩) (Effect.Prog.all_true p)).mono
    (fun s _ (h : s = .other) => by rw [h]; trivial) fun s _ (h : s = .other) => by rw [h]; trivial

theorem obeys_body (hhash : ∀ key, computeKeyHash env key ≠ "") (e : Entry) :
    revocationProtocol.Obeys (fun s _ => Finished s) (fun s _ => Finished s) (revocationInit e)
      (e.body env) := by
  cases e with
  | createApiKey creds body => exact obeys_creating (creating_createApiKey hhash body)
  | cliGenerate name e t expiry => exact obeys_creating (creating_cliGenerate hhash name e t expiry)
  | deleteTenant pid creds t => exact obeys_deleteTenant t
  | updateTenant pid creds t body =>
    by_cases hb : body.isActive = some (some false)
    · rw [revocationInit, if_pos hb]
      exact obeys_updateTenant hb
    · rw [revocationInit, if_neg hb]
      exact obeys_other _
  | _ => exact obeys_other _

end

end Revocation

/-! ## Moves that endanger a key -/

section
variable {env : KeyEnv}

abbrev revocation (th : Thread env) : Revocation := revocationProtocol.loc revocationInit th

/-- A handler of the list that has not crashed owes the key. -/
def owedBy (ts : List (Thread env)) (t h : String) : Bool :=
  ts.any fun th => !th.crashed && (revocation th).owes t h

/-- Thread `i`, in phase `s`, is the last to owe an active key of an inactive tenant. -/
def lastToOwe (c : Config env) (i : Nat) (s : Revocation) (h : String) : Bool :=
  (c.world.apiKeys.item h).any fun (it : KeyRecord) => it.isActive && it.tenantId.any fun t =>
    s.owes t h && c.world.inactive t && !owedBy (c.threads.eraseIdx i) t h

/-- `delete_tenant` is about to mark a tenant whose key `h` is active. -/
def skips (w : World) (h : String) : Revocation → Bool
  | .revoking true t _ => !w.inactive t && w.activeKey t h
  | _                  => false

/-- `delete_tenant` has read the keys of the tenant, and `h` is none of those still pending. -/
def misses (t h : String) : Revocation → Bool
  | .revoking true t' pending => t' == t && !pending.contains h
  | _                         => false

/-- A key of the tenant created now is deactivated by nobody. -/
def tooLate (c : Config env) (h t : String) : Bool :=
  if c.world.inactive t then !owedBy c.threads t h
  else c.threads.any fun th => !th.crashed && misses t h (revocation th)

/-- The move creates an active key too late, or loses the last deactivation of one. -/
def endangers (c : Config env) : Move env → Bool
  | .start _  => false
  | .crash i  =>
    (c.threads[i]?).any fun th => c.world.apiKeys.keys.any (lastToOwe c i (revocation th))
  | .act i ch =>
    (c.threads[i]?).any fun th =>
      match c.nextOp i, ch.fail with
      | some (.putKey h it), none => it.isActive && it.tenantId.any (tooLate c h)
      | some (.getKey h), some _ | some (.updateKey h _), some _ =>
        lastToOwe c i (revocation th) h || skips c.world h (revocation th)
      | some (.getTenant _), some _ | some (.queryKeysByTenant ..), some _ =>
        c.world.apiKeys.keys.any (lastToOwe c i (revocation th))
      | _, _ => false

/-! ## One call -/

variable {w w' : World} {ch : Choice} {t h : String}

theorem activeKey_put_self (w : World) (t h : String) (it : KeyRecord) :
    World.activeKey { w with apiKeys := w.apiKeys.put h it } t h = it.activeFor t := by
  rw [World.activeKey, Dynamo.Table.put_item_self]
  rfl

theorem activeKey_put_ne (w : World) (t : String) {h j : String} (it : KeyRecord) (hj : j ≠ h) :
    World.activeKey { w with apiKeys := w.apiKeys.put h it } t j = w.activeKey t j := by
  rw [World.activeKey, Dynamo.Table.put_item_ne _ _ hj]
  rfl

theorem inactive_put_self (w : World) (t : String) {it : TenantItem} (h : it.isActive = false) :
    World.inactive { w with tenants := w.tenants.put t it } t = true := by
  rw [World.inactive, Dynamo.Table.put_item_self]
  simp [h]

theorem inactive_put_ne (w : World) {t j : String} (it : TenantItem) (hj : j ≠ t) :
    World.inactive { w with tenants := w.tenants.put t it } j = w.inactive j := by
  rw [World.inactive, Dynamo.Table.put_item_ne _ _ hj]
  rfl

/-- A deactivation succeeds unless the environment fails it. -/
theorem exec_deactivation {ans : sig.Ans (.updateKey h deactivation)}
    (hx : w.exec (.updateKey h deactivation) ch = some (ans, w')) :
    (∃ it : KeyRecord, it.isActive = false ∧ ans = .ok () ∧
      w' = { w with apiKeys := w.apiKeys.put h it }) ∨
      ∃ e, ch.fail = some e ∧ ans = .error e ∧ w' = w := by
  rcases exec_cases hx with hrun | ⟨e, he, _, rfl, rfl⟩
  · obtain ⟨rfl, rfl⟩ := Prod.mk.inj (Option.some.inj hrun)
    exact .inl ⟨_, rfl, rfl, rfl⟩
  · exact .inr ⟨e, he, rfl, rfl⟩

theorem mem_activeHashes {items : List (String × KeyRecord)} {it : KeyRecord} (hne : h ≠ "")
    (hm : (h, it) ∈ items) (ha : it.isActive = true) : h ∈ activeHashes items := by
  refine List.mem_filter.2 ⟨List.mem_map.2 ⟨(h, it), List.mem_filter.2 ⟨hm, ha⟩, rfl⟩, ?_⟩
  simpa using hne

theorem activeKey_eq_true : w.activeKey t h = true ↔
    ∃ it : KeyRecord, w.apiKeys.item h = some it ∧ it.isActive = true ∧ it.tenantId = some t := by
  simp [World.activeKey, KeyRecord.activeFor, Option.any_eq_true]

/-- What the key query of a deactivation answers. -/
def World.keysOf (w : World) (t : String) : List (String × KeyRecord) :=
  w.apiKeys.query fun (it : KeyRecord) =>
    it.tenantId == some t && (none : Option String).all fun n => it.apiKeyName == some n

theorem activeKey_mem_keysOf (hempty : w.apiKeys.item "" = none) (ha : w.activeKey t h = true) :
    h ∈ activeHashes (w.keysOf t) := by
  obtain ⟨it, hit, hact, ht⟩ := activeKey_eq_true.1 ha
  refine mem_activeHashes ?_ (Dynamo.Table.mem_query.2 ⟨hit, by simp [ht]⟩) hact
  rintro rfl
  rw [hempty] at hit
  cases hit

theorem lastToOwe_eq_false {c : Config env} {i : Nat} {s : Revocation}
    (hl : lastToOwe c i s h = false) (hin : c.world.inactive t = true)
    (ha : c.world.activeKey t h = true) (ho : s.owes t h = true) :
    owedBy (c.threads.eraseIdx i) t h = true := by
  obtain ⟨it, hit, hact, ht⟩ := activeKey_eq_true.1 ha
  by_contra hno
  rw [lastToOwe, hit] at hl
  simp [hact, ht, ho, hin, hno] at hl

theorem lastToOwe_keys {c : Config env} {i : Nat} {s : Revocation}
    (hl : c.world.apiKeys.keys.any (lastToOwe c i s) = false) (hin : c.world.inactive t = true)
    (ha : c.world.activeKey t h = true) (ho : s.owes t h = true) :
    owedBy (c.threads.eraseIdx i) t h = true := by
  obtain ⟨it, hit, -⟩ := activeKey_eq_true.1 ha
  have hmem : h ∈ c.world.apiKeys.keys := (c.world.apiKeys.mem h).2 (by rw [hit]; rfl)
  exact lastToOwe_eq_false (Bool.eq_false_iff.2 (List.any_eq_false.1 hl h hmem)) hin ha ho

/-! ## The invariant -/

/-- What the world holds for a deactivation in phase `s`. -/
def Sound (w : World) : Revocation → Prop
  | .marked t => w.inactive t = true
  | .revoking true t pending =>
    w.inactive t = true ∨ ∀ h, w.activeKey t h = true → h ∈ pending
  | _ => True

structure RevocationInv (c : Config env) : Prop where
  nonempty : c.world.apiKeys.item "" = none
  scope    : ∀ th ∈ c.threads, revocation th ≠ .other
  sound    : ∀ th ∈ c.threads, th.crashed = false → Sound c.world (revocation th)
  owed     : ∀ t h, c.world.inactive t = true → c.world.activeKey t h = true →
    owedBy c.threads t h = true

theorem owedBy_eq_true {ts : List (Thread env)} : owedBy ts t h = true ↔
    ∃ th ∈ ts, th.crashed = false ∧ (revocation th).owes t h = true := by
  simp [owedBy, List.any_eq_true]

/-- A key that is owed is owed by thread `i` or by another. -/
theorem owedBy_split {ts : List (Thread env)} {i : Nat} {th : Thread env} (hi : ts[i]? = some th)
    (ho : owedBy ts t h = true) :
    (revocation th).owes t h = true ∨ owedBy (ts.eraseIdx i) t h = true := by
  obtain ⟨th', hmem, hlive, ho⟩ := owedBy_eq_true.1 ho
  obtain ⟨j, hj⟩ := List.mem_iff_getElem?.1 hmem
  by_cases hij : j = i
  · subst hij
    rw [hi] at hj
    cases hj
    exact .inl ho
  · refine .inr (owedBy_eq_true.2 ⟨th', ?_, hlive, ho⟩)
    exact List.mem_eraseIdx_iff_getElem?.2 ⟨j, hij, hj⟩

theorem owedBy_set {ts : List (Thread env)} {i : Nat} {th th' : Thread env}
    (hi : ts[i]? = some th) (ho : (th'.crashed = false ∧ (revocation th').owes t h = true) ∨
      owedBy (ts.eraseIdx i) t h = true) : owedBy (ts.set i th') t h = true := by
  refine owedBy_eq_true.2 ?_
  rcases ho with ⟨hlive, ho⟩ | ho
  · have hlt := (List.getElem?_eq_some_iff.1 hi).1
    exact ⟨th', List.mem_set hlt th', hlive, ho⟩
  · obtain ⟨u, hmem, hlive, ho⟩ := owedBy_eq_true.1 ho
    obtain ⟨j, hij, hj⟩ := List.mem_eraseIdx_iff_getElem?.1 hmem
    refine ⟨u, List.mem_iff_getElem?.2 ⟨j, ?_⟩, hlive, ho⟩
    rw [List.getElem?_set_ne (Ne.symm hij), hj]

/-- The invariant after a step of thread `i`. -/
theorem RevocationInv.step {c : Config env} {i : Nat} {th th' : Thread env} (hJ : RevocationInv c)
    (hi : c.threads[i]? = some th) (hempty : w'.apiKeys.item "" = none)
    (hscope : revocation th' ≠ .other)
    (hself : th'.crashed = false → Sound w' (revocation th'))
    (hothers : ∀ u ∈ c.threads, u.crashed = false → Sound c.world (revocation u) →
      Sound w' (revocation u))
    (howed : ∀ t h, w'.inactive t = true → w'.activeKey t h = true →
      (th'.crashed = false ∧ (revocation th').owes t h = true) ∨
        owedBy (c.threads.eraseIdx i) t h = true) :
    RevocationInv { world := w', threads := c.threads.set i th' } where
  nonempty := hempty
  scope u hu := by
    rcases List.mem_or_eq_of_mem_set hu with hu | rfl
    · exact hJ.scope u hu
    · exact hscope
  sound u hu hlive := by
    rcases List.mem_or_eq_of_mem_set hu with hu | rfl
    · exact hothers u hu hlive (hJ.sound u hu hlive)
    · exact hself hlive
  owed t h hin ha := owedBy_set hi (howed t h hin ha)

/-- A world with no more active keys and no fewer inactive tenants is as sound. -/
theorem Sound.mono {s : Revocation} (hin : ∀ t, w.inactive t = true → w'.inactive t = true)
    (hact : ∀ t h, w'.activeKey t h = true → w.activeKey t h = true) (hs : Sound w s) :
    Sound w' s := by
  cases s with
  | marked t => exact hin t hs
  | revoking b t pending =>
    cases b with
    | false => trivial
    | true => exact hs.imp (hin t) fun hall h ha => hall h (hact t h ha)
  | _ => trivial

theorem owes_drop {s : Revocation} {j : String} (ho : s.owes t j = true) (hj : j ≠ h) :
    (s.drop h).owes t j = true := by
  cases s with
  | revoking b t' pending =>
    simp only [Revocation.owes, Bool.and_eq_true, List.contains_eq_mem, decide_eq_true_eq] at ho
    simp [Revocation.drop, Revocation.owes, ho, hj]
  | _ => exact ho

/-- A key may be dropped that is not active, or whose tenant is inactive already. -/
theorem Sound.drop {s : Revocation} (hs : Sound w s)
    (hh : ∀ t pending, s = .revoking true t pending → w.inactive t = true ∨
      w.activeKey t h = false) : Sound w (s.drop h) := by
  cases s with
  | revoking b t pending =>
    cases b with
    | false => trivial
    | true =>
      rcases hs with hs | hs
      · exact .inl hs
      rcases hh t pending rfl with hin | hno
      · exact .inl hin
      refine .inr fun j hj => List.mem_filter.2 ⟨hs j hj, decide_eq_true fun hjh => ?_⟩
      rw [hjh, hno] at hj
      cases hj
  | _ => exact hs

theorem drop_ne_other {s : Revocation} (hs : s ≠ .other) : s.drop h ≠ .other := by
  cases s with
  | other => exact absurd rfl hs
  | _ => intro h; cases h

/-! ### One call of one thread -/

variable {c : Config env} {i : Nat} {th : Thread env} {op : Op} {k : sig.Ans op → Prog Unit}
  {ans : sig.Ans op}

/-- A call that leaves the stores alone, when the next phase owes what is owed and nobody else
owes. -/
theorem RevocationInv.read {s : Revocation} (hJ : RevocationInv c) (hn : c.Next i th op k)
    (hkeys : w'.apiKeys = c.world.apiKeys) (htenants : w'.tenants = c.world.tenants)
    (hnext : (revocation th).next op ans = s) (hscope : s ≠ .other)
    (hself : Sound c.world (revocation th) → Sound c.world s)
    (howed : ∀ t h, c.world.inactive t = true → c.world.activeKey t h = true →
      (revocation th).owes t h = true → s.owes t h = true ∨
        owedBy (c.threads.eraseIdx i) t h = true) :
    RevocationInv { world := w', threads := c.threads.set i (th.resume k ans) } := by
  have hin : ∀ t, w'.inactive t = c.world.inactive t := fun t => by
    rw [World.inactive, World.inactive, htenants]
  have hact : ∀ t h, w'.activeKey t h = c.world.activeKey t h := fun t h => by
    rw [World.activeKey, World.activeKey, hkeys]
  have hmono : ∀ {s : Revocation}, Sound c.world s → Sound w' s := fun hs =>
    hs.mono (fun t h => by rw [hin]; exact h) fun t h ha => by rw [← hact]; exact ha
  have hlive := hn.2.1
  subst hnext
  refine hJ.step hn.1 (by rw [hkeys]; exact hJ.nonempty) hscope
    (fun _ => hmono (hself (hJ.sound th (List.mem_of_getElem? hn.1) hlive)))
    (fun _ _ _ hs => hmono hs) fun t h hi ha => ?_
  rw [hin] at hi
  rw [hact] at ha
  rcases owedBy_split hn.1 (hJ.owed t h hi ha) with ho | ho
  · exact (howed t h hi ha ho).imp_left fun ho => ⟨hlive, ho⟩
  · exact .inr ho

/-- A read or a deactivation of the key `h` fails. -/
theorem RevocationInv.dropFailed (hJ : RevocationInv c) (hn : c.Next i th op k)
    (hnext : (revocation th).next op ans = (revocation th).drop h)
    (hlast : lastToOwe c i (revocation th) h = false) (hskip : skips c.world h (revocation th) = false) :
    RevocationInv { world := c.world, threads := c.threads.set i (th.resume k ans) } := by
  have hscope := hJ.scope th (List.mem_of_getElem? hn.1)
  refine hJ.read hn rfl rfl hnext (drop_ne_other hscope) (fun hs => ?_) fun t j hin ha ho => ?_
  · refine hs.drop fun t pending he => ?_
    rw [he] at hskip
    cases hin : c.world.inactive t with
    | true => exact .inl rfl
    | false =>
      right
      simpa [skips, hin] using hskip
  · by_cases hj : j = h
    · subst hj
      exact .inr (lastToOwe_eq_false hlast hin ha ho)
    · exact .inl (owes_drop ho hj)

/-- A call that leaves the stores and the phase alone. -/
theorem RevocationInv.stay (hJ : RevocationInv c) (hn : c.Next i th op k)
    (hkeys : w'.apiKeys = c.world.apiKeys) (htenants : w'.tenants = c.world.tenants)
    (hnext : (revocation th).next op ans = revocation th) :
    RevocationInv { world := w', threads := c.threads.set i (th.resume k ans) } :=
  hJ.read hn hkeys htenants hnext (hJ.scope th (List.mem_of_getElem? hn.1)) id
    fun _ _ _ _ ho => .inl ho

/-- A read of a deactivation fails, and ends it. -/
theorem RevocationInv.giveUp (hJ : RevocationInv c) (hn : c.Next i th op k)
    (hnext : (revocation th).next op ans = .finished)
    (hlast : c.world.apiKeys.keys.any (lastToOwe c i (revocation th)) = false) :
    RevocationInv { world := c.world, threads := c.threads.set i (th.resume k ans) } :=
  hJ.read hn rfl rfl hnext (by decide) (fun _ => trivial)
    fun _ _ hin ha ho => .inr (lastToOwe_keys hlast hin ha ho)

theorem RevocationInv.getKey {k : sig.Ans (.getKey h) → Prog Unit} {ans : sig.Ans (.getKey h)}
    (hJ : RevocationInv c) (hφ : endangers c (.act i ch) = false)
    (hn : c.Next i th (.getKey h) k) (hx : c.world.exec (.getKey h) ch = some (ans, w')) :
    RevocationInv { world := w', threads := c.threads.set i (th.resume k ans) } := by
  have hscope := hJ.scope th (List.mem_of_getElem? hn.1)
  obtain ⟨rfl, rfl | ⟨e, hf, rfl⟩⟩ := exec_getKey hx
  · cases hit : c.world.apiKeys.item h with
    | some it => exact hJ.stay hn rfl rfl rfl
    | none =>
      have hno : ∀ t, c.world.activeKey t h = false := fun t => by rw [World.activeKey, hit]; rfl
      refine hJ.read hn rfl rfl rfl (drop_ne_other hscope) (fun hs => hs.drop fun t _ _ => .inr (hno t))
        fun t j _ ha ho => .inl (owes_drop ho ?_)
      rintro rfl
      rw [hno] at ha
      cases ha
  · have hop := Effect.Config.nextOp_eq_some.2 ⟨th, k, hn⟩
    simp only [endangers, hn.1, hop, hf, Option.any_some, Bool.or_eq_false_iff] at hφ
    exact hJ.dropFailed hn rfl hφ.1 hφ.2

theorem RevocationInv.updateKey {u : Dynamo.Update ApiKeyRecord.schema}
    {k : sig.Ans (.updateKey h u) → Prog Unit} {ans : sig.Ans (.updateKey h u)}
    (hJ : RevocationInv c) (hφ : endangers c (.act i ch) = false)
    (hn : c.Next i th (.updateKey h u) k) (ha : (revocation th).allows (.updateKey h u))
    (hx : c.world.exec (.updateKey h u) ch = some (ans, w')) :
    RevocationInv { world := w', threads := c.threads.set i (th.resume k ans) } := by
  have hscope := hJ.scope th (List.mem_of_getElem? hn.1)
  obtain ⟨rfl, hne⟩ : u = deactivation ∧ h ≠ "" := by
    cases hs : revocation th with
    | other => exact absurd hs hscope
    | creating =>
      rw [hs] at ha
      obtain ⟨_, _, he, _⟩ := ha.2 rfl
      cases he
    | revoking b t pending =>
      rw [hs] at ha
      obtain ⟨_, he, hne⟩ := ha.1 rfl
      cases he
      exact ⟨rfl, hne⟩
    | updating | deleting | marked | finished =>
      rw [hs] at ha
      cases ha.1
  rcases exec_deactivation hx with ⟨it, hit, rfl, rfl⟩ | ⟨e, hf, rfl, rfl⟩
  · have hact : ∀ t j, World.activeKey { c.world with apiKeys := c.world.apiKeys.put h it } t j = true →
        j ≠ h ∧ c.world.activeKey t j = true := by
      intro t j hj
      by_cases hjh : j = h
      · subst hjh
        rw [activeKey_put_self, KeyRecord.activeFor, hit] at hj
        cases hj
      · rw [activeKey_put_ne _ _ _ hjh] at hj
        exact ⟨hjh, hj⟩
    have hin : ∀ t, c.world.inactive t = true →
        World.inactive { c.world with apiKeys := c.world.apiKeys.put h it } t = true := fun _ h => h
    have hmono : ∀ {s : Revocation}, Sound c.world s →
        Sound { c.world with apiKeys := c.world.apiKeys.put h it } s :=
      fun hs => hs.mono hin fun t j hj => (hact t j hj).2
    refine hJ.step hn.1 ?_ (drop_ne_other hscope) (fun _ => ?_) (fun _ _ _ hs => hmono hs)
      fun t j hin hj => ?_
    · rw [Dynamo.Table.put_item_ne _ _ (Ne.symm hne)]
      exact hJ.nonempty
    · refine (hmono (hJ.sound th (List.mem_of_getElem? hn.1) hn.2.1)).drop fun t _ _ => .inr ?_
      rw [activeKey_put_self, KeyRecord.activeFor, hit]
      rfl
    · obtain ⟨hjh, hj⟩ := hact t j hj
      rcases owedBy_split hn.1 (hJ.owed t j hin hj) with ho | ho
      · exact .inl ⟨hn.2.1, owes_drop ho hjh⟩
      · exact .inr ho
  · have hop := Effect.Config.nextOp_eq_some.2 ⟨th, k, hn⟩
    simp only [endangers, hn.1, hop, hf, Option.any_some, Bool.or_eq_false_iff] at hφ
    exact hJ.dropFailed hn rfl hφ.1 hφ.2

theorem RevocationInv.getTenant {t' : String} {k : sig.Ans (.getTenant t') → Prog Unit}
    {ans : sig.Ans (.getTenant t')} (hJ : RevocationInv c)
    (hφ : endangers c (.act i ch) = false) (hn : c.Next i th (.getTenant t') k)
    (ha : (revocation th).allows (.getTenant t'))
    (hx : c.world.exec (.getTenant t') ch = some (ans, w')) :
    RevocationInv { world := w', threads := c.threads.set i (th.resume k ans) } := by
  have hmem := List.mem_of_getElem? hn.1
  have hscope := hJ.scope th hmem
  have hsound := hJ.sound th hmem hn.2.1
  obtain ⟨rfl, hans⟩ := exec_getTenant hx
  cases hs : revocation th with
  | marked t =>
    rw [hs] at ha hsound
    obtain rfl := ha.2.2.2 t' rfl
    rcases hans with hok | ⟨e, hf, herr⟩
    · obtain ⟨it, hit, -⟩ := (Option.any_eq_true _ _).1 hsound
      refine hJ.stay hn rfl rfl ?_
      rw [hs, hok, hit]
      rfl
    · have hop := Effect.Config.nextOp_eq_some.2 ⟨th, k, hn⟩
      simp only [endangers, hn.1, hop, hf, Option.any_some] at hφ
      refine hJ.giveUp hn ?_ hφ
      rw [hs, herr]
      rfl
  | revoking b t pending =>
    rw [hs] at ha
    obtain rfl := ha.2.2 t' rfl
    -- nothing is pending any more, so the deactivation may end here
    have hnone : ∀ t h, (revocation th).owes t h = false := fun t h => by
      rw [hs]
      simp [Revocation.owes]
    have hover : (revocation th).next (.getTenant t') ans = .finished →
        RevocationInv { c with threads := c.threads.set i (th.resume k ans) } := fun hnext =>
      hJ.read hn rfl rfl hnext (by decide) (fun _ => trivial) fun t h _ _ ho => by
        rw [hnone] at ho
        cases ho
    rcases hans with hok | ⟨e, _, herr⟩
    · cases hit : c.world.tenants.item t' with
      | none => exact hover (by rw [hs, hok, hit]; rfl)
      | some it => exact hJ.stay hn rfl rfl (by rw [hs, hok, hit]; rfl)
    · exact hover (by rw [hs, herr]; rfl)
  | other => exact absurd hs hscope
  | creating | deleting | updating | finished =>
    refine hJ.stay hn rfl rfl ?_
    rw [hs]
    cases ans <;> rfl

theorem RevocationInv.queryKeys {t' : String} {name : Option String}
    {k : sig.Ans (.queryKeysByTenant t' name) → Prog Unit}
    {ans : sig.Ans (.queryKeysByTenant t' name)} (hJ : RevocationInv c)
    (hφ : endangers c (.act i ch) = false) (hn : c.Next i th (.queryKeysByTenant t' name) k)
    (ha : (revocation th).allows (.queryKeysByTenant t' name))
    (hx : c.world.exec (.queryKeysByTenant t' name) ch = some (ans, w')) :
    RevocationInv { world := w', threads := c.threads.set i (th.resume k ans) } := by
  have hscope := hJ.scope th (List.mem_of_getElem? hn.1)
  obtain ⟨rfl, hans⟩ := exec_queryKeysByTenant hx
  cases hs : revocation th with
  | deleting t =>
    rw [hs] at ha
    obtain ⟨rfl, rfl⟩ := ha.2.2.1 t' name rfl
    rcases hans with hok | ⟨e, _, herr⟩
    · have hnext : (revocation th).next (.queryKeysByTenant t' none) ans =
          .revoking true t' (activeHashes (c.world.keysOf t')) := by rw [hs, hok]; rfl
      refine hJ.read hn rfl rfl hnext (fun h => by cases h) (fun _ => ?_) fun _ _ _ _ ho => ?_
      · exact .inr fun h hact => activeKey_mem_keysOf hJ.nonempty hact
      · rw [hs] at ho
        cases ho
    · exact hJ.stay hn rfl rfl (by rw [hs, herr]; rfl)
  | marked t =>
    rw [hs] at ha
    obtain ⟨rfl, rfl⟩ := ha.2.2.1 t' name rfl
    rcases hans with hok | ⟨e, hf, herr⟩
    · have hnext : (revocation th).next (.queryKeysByTenant t' none) ans =
          .revoking false t' (activeHashes (c.world.keysOf t')) := by rw [hs, hok]; rfl
      refine hJ.read hn rfl rfl hnext (fun h => by cases h) (fun _ => trivial)
        fun t h _ hact ho => .inl ?_
      rw [hs] at ho
      obtain rfl : t' = t := (eq_of_beq ho).symm
      simpa [Revocation.owes] using activeKey_mem_keysOf hJ.nonempty hact
    · have hop := Effect.Config.nextOp_eq_some.2 ⟨th, k, hn⟩
      simp only [endangers, hn.1, hop, hf, Option.any_some] at hφ
      refine hJ.giveUp hn ?_ hφ
      rw [hs, herr]
      rfl
  | other => exact absurd hs hscope
  | creating | updating | revoking | finished =>
    refine hJ.stay hn rfl rfl ?_
    rw [hs]
    cases ans <;> rfl

theorem RevocationInv.updateTenant {t' : String} {u : Dynamo.Update TenantRecord.schema}
    {clear : List TenantRecord} {k : sig.Ans (.updateTenant t' u clear) → Prog Unit}
    {ans : sig.Ans (.updateTenant t' u clear)} (hJ : RevocationInv c)
    (hn : c.Next i th (.updateTenant t' u clear) k)
    (ha : (revocation th).allows (.updateTenant t' u clear))
    (hx : c.world.exec (.updateTenant t' u clear) ch = some (ans, w')) :
    RevocationInv { world := w', threads := c.threads.set i (th.resume k ans) } := by
  have hmem := List.mem_of_getElem? hn.1
  have hsound := hJ.sound th hmem hn.2.1
  have hmono : ∀ {it : TenantItem}, it.isActive = false → ∀ t, c.world.inactive t = true →
      World.inactive { c.world with tenants := c.world.tenants.put t' it } t = true := by
    intro it hit t ht
    by_cases htt : t = t'
    · subst htt
      exact inactive_put_self _ _ hit
    · rw [inactive_put_ne _ _ htt]
      exact ht
  cases hs : revocation th with
  | updating t =>
    rw [hs] at ha
    obtain ⟨_, _, he, hdeact⟩ := ha.2 rfl
    cases he
    rcases exec_updateTenant hx with ⟨it, rfl, hit, rfl⟩ | ⟨e, rfl, rfl⟩
    · have hinactive := hdeact _ _ hit
      have hnext : revocation (th.resume k (.ok ())) = .marked t' := by
        change (revocation th).next (.updateTenant t' u clear) (.ok ()) = .marked t'
        rw [hs]
        rfl
      refine hJ.step hn.1 hJ.nonempty (by rw [hnext]; exact fun h => by cases h) (fun _ => ?_)
        (fun _ _ _ hS => hS.mono (hmono hinactive) fun _ _ h => h) fun j h hin hact => ?_
      · rw [hnext]
        exact inactive_put_self _ _ hinactive
      · by_cases hjt : j = t'
        · subst hjt
          refine .inl ⟨hn.2.1, ?_⟩
          rw [hnext]
          exact beq_self_eq_true j
        · rw [inactive_put_ne _ _ hjt] at hin
          rcases owedBy_split hn.1 (hJ.owed j h hin hact) with ho | ho
          · rw [hs] at ho
            cases ho
          · exact .inr ho
    · exact hJ.stay hn rfl rfl (by rw [hs]; rfl)
  | revoking b t pending =>
    rw [hs] at ha hsound
    obtain ⟨rfl, rfl, _, he, hdeact⟩ := ha.2.1 rfl
    cases he
    have hnone : ∀ j h, (revocation th).owes j h = false := fun j h => by
      rw [hs]
      simp [Revocation.owes]
    have hothers : ∀ j h, c.world.inactive j = true → c.world.activeKey j h = true →
        owedBy (c.threads.eraseIdx i) j h = true := by
      intro j h hin hact
      refine (owedBy_split hn.1 (hJ.owed j h hin hact)).resolve_left ?_
      rw [hnone]
      exact Bool.false_ne_true
    have hnext : (revocation th).next (.updateTenant t' u []) ans = .finished := by
      rw [hs]
      cases ans <;> rfl
    rcases exec_updateTenant hx with ⟨it, rfl, hit, rfl⟩ | ⟨e, rfl, rfl⟩
    · have hinactive := hdeact _ _ hit
      have hover : revocation (th.resume k (.ok ())) = .finished := hnext
      refine hJ.step hn.1 hJ.nonempty (by rw [hover]; decide) (fun _ => by rw [hover]; trivial)
        (fun _ _ _ hS => hS.mono (hmono hinactive) fun _ _ h => h) fun j h hin hact => .inr ?_
      have hact : c.world.activeKey j h = true := hact
      by_cases hjt : j = t'
      · subst hjt
        rcases hsound with hin | hall
        · exact hothers j h hin hact
        · cases hall h hact
      · rw [inactive_put_ne _ _ hjt] at hin
        exact hothers j h hin hact
    · exact hJ.read hn rfl rfl hnext (by decide) (fun _ => trivial)
        fun j h hin hact _ => .inr (hothers j h hin hact)
  | other => exact absurd hs (hJ.scope th hmem)
  | creating =>
    rw [hs] at ha
    cases ha.1
  | deleting | marked =>
    rw [hs] at ha
    cases ha.2.1
  | finished =>
    rw [hs] at ha
    cases ha.2

theorem RevocationInv.putKey {it : KeyRecord} {k : sig.Ans (.putKey h it) → Prog Unit}
    {ans : sig.Ans (.putKey h it)} (hJ : RevocationInv c)
    (hφ : endangers c (.act i ch) = false) (hn : c.Next i th (.putKey h it) k)
    (ha : (revocation th).allows (.putKey h it))
    (hx : c.world.exec (.putKey h it) ch = some (ans, w')) :
    RevocationInv { world := w', threads := c.threads.set i (th.resume k ans) } := by
  have hscope := hJ.scope th (List.mem_of_getElem? hn.1)
  obtain ⟨hs, hne⟩ : revocation th = .creating ∧ h ≠ "" := by
    cases hs : revocation th with
    | other => exact absurd hs hscope
    | creating =>
      rw [hs] at ha
      obtain ⟨_, _, he, hne⟩ := ha.2 rfl
      cases he
      exact ⟨rfl, hne⟩
    | revoking =>
      rw [hs] at ha
      obtain ⟨_, he, _⟩ := ha.1 rfl
      cases he
    | deleting | updating | marked | finished =>
      rw [hs] at ha
      cases ha.1
  have hnone : ∀ t j, (revocation th).owes t j = false := fun t j => by
    rw [hs]
    rfl
  rcases exec_putKey hx with ⟨rfl, rfl⟩ | ⟨e, _, rfl, rfl⟩
  · cases hf : ch.fail with
    | some e =>
      rw [World.exec, hf] at hx
      cases hx
    | none =>
      have hop := Effect.Config.nextOp_eq_some.2 ⟨th, k, hn⟩
      simp only [endangers, hn.1, hop, hf, Option.any_some] at hφ
      -- a key of a tenant that is stored in time
      have hintime : ∀ t, it.activeFor t = true → tooLate c h t = false := by
        intro t hact
        obtain ⟨hit, ht⟩ := Bool.and_eq_true_iff.1 hact
        rw [hit, eq_of_beq ht] at hφ
        exact hφ
      refine hJ.step hn.1 ?_ (by exact hscope) (fun _ => ?_) (fun u hu hlive hS => ?_)
        fun t j hin hact => .inr ?_
      · rw [Dynamo.Table.put_item_ne _ _ (Ne.symm hne)]
        exact hJ.nonempty
      · have hstay : revocation (th.resume k (.ok ())) = .creating := hs
        rw [hstay]
        trivial
      · cases hu' : revocation u with
        | revoking b t pending =>
          rw [hu'] at hS
          cases b with
          | false => trivial
          | true =>
            by_cases htin : c.world.inactive t = true
            · exact .inl htin
            refine .inr fun j hj => ?_
            by_cases hjh : j = h
            · subst hjh
              rw [activeKey_put_self] at hj
              have hlate := hintime t hj
              rw [tooLate, if_neg htin] at hlate
              have hmiss := List.any_eq_false.1 hlate u hu
              simpa [hlive, hu', misses] using hmiss
            · rw [activeKey_put_ne _ _ _ hjh] at hj
              exact hS.resolve_left htin j hj
        | marked t =>
          rw [hu'] at hS
          exact hS
        | _ => trivial
      · have htin : c.world.inactive t = true := hin
        suffices ho : owedBy c.threads t j = true by
          refine (owedBy_split hn.1 ho).resolve_left ?_
          rw [hnone]
          exact Bool.false_ne_true
        by_cases hjh : j = h
        · subst hjh
          rw [activeKey_put_self] at hact
          have hlate := hintime t hact
          rw [tooLate, if_pos htin] at hlate
          simpa using hlate
        · rw [activeKey_put_ne _ _ _ hjh] at hact
          exact hJ.owed t j htin hact
  · exact hJ.stay hn rfl rfl rfl

/-- **Step lemma.** A call that endangers no key keeps the invariant. -/
theorem RevocationInv.act (hJ : RevocationInv c) (hφ : endangers c (.act i ch) = false)
    (hn : c.Next i th op k) (ha : (revocation th).allows op)
    (hx : c.world.exec op ch = some (ans, w')) :
    RevocationInv { world := w', threads := c.threads.set i (th.resume k ans) } := by
  have hscope := hJ.scope th (List.mem_of_getElem? hn.1)
  cases op with
  | getKey h => exact hJ.getKey hφ hn hx
  | updateKey h u => exact hJ.updateKey hφ hn ha hx
  | getTenant t => exact hJ.getTenant hφ hn ha hx
  | queryKeysByTenant t name => exact hJ.queryKeys hφ hn ha hx
  | updateTenant t u clear => exact hJ.updateTenant hn ha hx
  | putKey h it => exact hJ.putKey hφ hn ha hx
  | deleteKey h =>
    cases hs : revocation th with
    | other => exact absurd hs hscope
    | creating =>
      rw [hs] at ha
      obtain ⟨_, _, he, _⟩ := ha.2 rfl
      cases he
    | revoking =>
      rw [hs] at ha
      obtain ⟨_, he, _⟩ := ha.1 rfl
      cases he
    | deleting | updating | marked | finished =>
      rw [hs] at ha
      cases ha.1
  | putTenant t it =>
    cases hs : revocation th with
    | other => exact absurd hs hscope
    | creating =>
      rw [hs] at ha
      cases ha.1
    | revoking =>
      rw [hs] at ha
      obtain ⟨_, _, _, he, _⟩ := ha.2.1 rfl
      cases he
    | updating =>
      rw [hs] at ha
      obtain ⟨_, _, he, _⟩ := ha.2 rfl
      cases he
    | deleting | marked =>
      rw [hs] at ha
      cases ha.2.1
    | finished =>
      rw [hs] at ha
      cases ha.2
  | _ => exact hJ.stay hn ((exec_frame hx).apiKeys rfl) ((exec_frame hx).tenants rfl) rfl

theorem RevocationInv.crash (hJ : RevocationInv c) (hφ : endangers c (.crash i) = false)
    (hi : c.threads[i]? = some th) :
    RevocationInv { c with threads := c.threads.set i { th with crashed := true } } := by
  simp only [endangers, hi, Option.any_some] at hφ
  refine hJ.step hi hJ.nonempty (hJ.scope th (List.mem_of_getElem? hi)) (fun h => by cases h)
    (fun _ _ _ hS => hS) fun t h hin ha => .inr ?_
  rcases owedBy_split hi (hJ.owed t h hin ha) with ho | ho
  · exact lastToOwe_keys hφ hin ha ho
  · exact ho

end

/-! ## Runs of creations and deactivations -/

/-- The creation of a key, or the deactivation of a tenant. -/
def Entry.isKeyTraffic : Entry → Bool
  | .createApiKey .. | .cliGenerate .. | .deleteTenant .. => true
  | .updateTenant _ _ _ body => body.isActive == some (some false)
  | _ => false

theorem revocationInit_ne_other {e : Entry} (h : e.isKeyTraffic = true) :
    revocationInit e ≠ .other := by
  cases e with
  | createApiKey | cliGenerate | deleteTenant => exact fun h => by cases h
  | updateTenant _ _ t body =>
    rw [revocationInit, if_pos (eq_of_beq h)]
    exact fun h => by cases h
  | _ => cases h

section
variable {env : KeyEnv} {c : Config env}

theorem RevocationInv.start (hJ : RevocationInv c) {e : Entry} (he : e.isKeyTraffic = true) :
    RevocationInv { c with threads := c.threads ++ [Effect.Thread.init e] } where
  nonempty := hJ.nonempty
  scope th hth := by
    rcases List.mem_append.1 hth with hth | hth
    · exact hJ.scope th hth
    · rw [List.mem_singleton.1 hth]
      exact revocationInit_ne_other he
  sound th hth hlive := by
    rcases List.mem_append.1 hth with hth | hth
    · exact hJ.sound th hth hlive
    · rw [List.mem_singleton.1 hth]
      change Sound c.world (revocationInit e)
      cases e with
      | updateTenant _ _ _ body =>
        rw [revocationInit]
        split <;> trivial
      | _ => trivial
  owed t h hin ha := by
    obtain ⟨th, hth, hlive, ho⟩ := owedBy_eq_true.1 (hJ.owed t h hin ha)
    exact owedBy_eq_true.2 ⟨th, List.mem_append_left _ hth, hlive, ho⟩

/-- The move starts nothing but creations and deactivations, and endangers no key. -/
def KeepsRevoked (c : Config env) (m : Move env) : Prop :=
  (∀ e, m = .start e → e.isKeyTraffic = true) ∧ endangers c m = false

/-- **Run lemma.** Every active key of an inactive tenant is owed by a deactivation that runs. -/
theorem revocationInv_run (hhash : ∀ key, computeKeyHash env key ≠ "") {w : World}
    (hempty : w.apiKeys.item "" = none) (hw : KeysRevoked w) {ms : List (Move env)}
    (ha : Along KeepsRevoked (.init w) ms) (h : play (.init w) ms = some c) :
    revocationProtocol.Coupled revocationInit (fun s _ => Finished s) (fun s _ => Finished s) c ∧
      RevocationInv c := by
  refine protocol_inv (R := revocationProtocol) revocationInit (J := RevocationInv)
    (Revocation.obeys_body hhash) (fun c e hJ hφ => hJ.start (hφ.1 e rfl)) ?_
    (fun c i th hJ hφ hi => hJ.crash hφ.2 hi) (fun _ ht => by cases ht)
    ⟨hempty, fun _ ht => (by cases ht), fun _ ht => (by cases ht), fun t h hin hact => ?_⟩ ha h
  · intro c i ch th op k ans w' hJ _ hφ hn hallow hx
    exact ⟨trivial, hJ.act hφ.2 hn hallow hx⟩
  · have hno : World.activeKey w t h = false := hw t h hin
    exact absurd (hno.symm.trans hact) Bool.false_ne_true

theorem not_owes_of_finished {s : Revocation} (hs : Finished s) (t h : String) :
    s.owes t h = false := by
  cases s with
  | marked t' => exact hs.elim
  | revoking b t' pending =>
    obtain rfl : pending = [] := hs
    simp [Revocation.owes]
  | _ => rfl

/-- **Once all creations and deactivations have ended, no inactive tenant has an active key, when no
move has created an active key too late or lost the last deactivation of one.** -/
theorem keysRevoked_of_quiescent (hhash : ∀ key, computeKeyHash env key ≠ "") {w : World}
    (hempty : w.apiKeys.item "" = none) (hw : KeysRevoked w) {ms : List (Move env)}
    (htraffic : ∀ e, .start e ∈ ms → e.isKeyTraffic = true)
    (hsteps : Along (fun c m => endangers c m = false) (.init w) ms)
    (h : play (.init w) ms = some c) (hidle : ∀ th ∈ c.threads, th.Done) :
    KeysRevoked c.world := by
  have hstart : ∀ m ∈ ms, ∀ e, m = .start e → e.isKeyTraffic = true := by
    rintro m hm e rfl
    exact htraffic e hm
  obtain ⟨hcoupled, hJ⟩ := revocationInv_run hhash hempty hw (hsteps.and_of_mem hstart) h
  intro t j hin
  by_contra hact
  obtain ⟨th, hth, hlive, ho⟩ := owedBy_eq_true.1 (hJ.owed t j hin (by simpa using hact))
  have hfin : Finished (revocation th) := by
    have hobeys := hcoupled th hth
    rcases hidle th hth with hcrashed | hret | ⟨e, hraise⟩
    · rw [hlive] at hcrashed
      cases hcrashed
    · rw [hret] at hobeys
      exact hobeys
    · rw [hraise] at hobeys
      exact hobeys
  rw [not_owes_of_finished hfin] at ho
  cases ho

end

/-! ## A creation and a deactivation, one after the other and at once -/

/-- A super-admin and an active tenant without keys. -/
def tenantWorld : World where
  tenants := Dynamo.Table.empty.put "acme" fun
    | .isActive => some true
    | _         => none
  tokens  := [("root", { groups := .many [SUPER_ADMIN_GROUP] })]

theorem tenantWorld_revoked : KeysRevoked tenantWorld := fun _ _ _ => rfl

theorem sampleHash_ne : ∀ key, computeKeyHash sampleKeyEnv key ≠ "" := by
  intro key h
  have hlen := congrArg String.length h
  simp [computeKeyHash, getPepper, nonEmpty, sampleKeyEnv, hashKey] at hlen

def createAcmeKey : Move sampleKeyEnv :=
  .start (.createApiKey (some "root") { apiKeyName := "intake", tenantId := some "acme" })

def deleteAcme : Move sampleKeyEnv := .start (.deleteTenant 0 (some "root") "acme")

/-- The key is created, then the tenant is deleted. -/
def createThenDelete : List (Move sampleKeyEnv) :=
  createAcmeKey :: List.replicate 9 (.act 0 { fresh := "0" })
    ++ deleteAcme :: List.replicate 10 (.act 1 {})

def allEnded (c : Config sampleKeyEnv) : Bool := c.threads.all fun th => th.prog.result.isSome

set_option maxRecDepth 10000 in
theorem keysRevoked_createThenDelete : ∃ c, play (.init tenantWorld) createThenDelete = some c ∧
    KeysRevoked c.world := by
  have hplay : (play (.init tenantWorld) createThenDelete).map allEnded = some true := by
    decide +kernel
  obtain ⟨c, hc, hended⟩ := Option.map_eq_some_iff.1 hplay
  refine ⟨c, hc, keysRevoked_of_quiescent sampleHash_ne rfl tenantWorld_revoked ?_ ?_ hc ?_⟩
  · simp [createThenDelete, createAcmeKey, deleteAcme, Entry.isKeyTraffic]
  · decide +kernel
  · exact fun th hth => Effect.Thread.done_of_result (List.all_eq_true.1 hended th hth)

/-- The tenant is deleted after the creation has checked it. -/
def deleteWithinCreate : List (Move sampleKeyEnv) :=
  createAcmeKey :: List.replicate 6 (.act 0 { fresh := "0" })
    ++ deleteAcme :: List.replicate 7 (.act 1 {}) ++ List.replicate 3 (.act 0 {})

set_option maxRecDepth 10000 in
theorem keysRevoked_fails : ¬ ∀ (env : KeyEnv) (w : World) (ms : List (Move env)) (c : Config env),
    (∀ key, computeKeyHash env key ≠ "") → w.apiKeys.item "" = none → KeysRevoked w →
    (∀ e, .start e ∈ ms → e.isKeyTraffic = true) → play (.init w) ms = some c →
    (∀ th ∈ c.threads, th.Done) → KeysRevoked c.world := by
  intro hall
  have hplay : (play (.init tenantWorld) deleteWithinCreate).map (fun c => (allEnded c,
      c.world.inactive "acme", c.world.activeKey "acme" (computeKeyHash sampleKeyEnv "docai_0"))) =
      some (true, true, true) := by
    decide +kernel
  obtain ⟨c, hc, hdata⟩ := Option.map_eq_some_iff.1 hplay
  obtain ⟨hended, hdata⟩ := Prod.mk.inj hdata
  obtain ⟨hin, hact⟩ := Prod.mk.inj hdata
  have hrevoked := hall sampleKeyEnv tenantWorld deleteWithinCreate c sampleHash_ne rfl
    tenantWorld_revoked (by simp [deleteWithinCreate, createAcmeKey, deleteAcme, Entry.isKeyTraffic])
    hc fun th hth => Effect.Thread.done_of_result (List.all_eq_true.1 hended th hth)
  rw [hrevoked _ _ hin] at hact
  cases hact

end DocumentAi.Admin
