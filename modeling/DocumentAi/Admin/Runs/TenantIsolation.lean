import DocumentAi.Admin.Exec
import DocumentAi.Lib.Protocol

/-!
# Tenant isolation of the callers

| here | meaning |
| --- | --- |
| `TenantIdsValid`    | every tenant id in the stores, the caches and the tokens matches the pattern |
| `Allowed`           | the calls that keep it |
| `Plausible`         | the answers that such a world gives |
| `tenantProtocol`    | all calls are allowed, all answers plausible; the local state is the trace |
| `OwnTenant`         | the tenant of the presented key's record or of the presented token |
-/

namespace DocumentAi.Admin

open Effect (Event Ends Steps Protocol)
open Effect.Prog (Spec All spec_bind spec_tryCatch spec_perform spec_ite all_bind all_perform)

/-! ## Worlds with valid tenant ids -/

def KeyOk (it : KeyRecord) : Prop := ∀ t, it.tenantId = some t → IsTenantId t

structure TenantIdsValid (w : World) : Prop where
  tenants : ∀ t it, w.tenants.item t = some it → IsTenantId t
  apiKeys : ∀ h it, w.apiKeys.item h = some it → KeyOk it
  users   : ∀ n u t, w.users n = some u → u.tenantId = some t → IsTenantId t
  tokens  : ∀ e ∈ w.tokens, ∀ t, e.2.tenantId = some t → IsTenantId t
  caches  : ∀ pid, ∀ e ∈ (w.processes pid).cache, KeyOk e.2.value

def Allowed : Op → Prop
  | .putKey _ it => KeyOk it
  | .updateKey _ u => Dynamo.Targets (· ≠ ApiKeyRecord.tenantId) u.actions
  | .putTenant t _ | .updateTenant t _ _ => IsTenantId t
  | .adminUpdateUserAttributes _ t => IsTenantId t
  | .cacheAdd _ _ it _ => KeyOk it
  | _ => True

def Plausible : (op : Op) → sig.Ans op → Prop
  | .getKey _, ans => ∀ it, ans = .ok (some it) → KeyOk it
  | .getTenant t, ans => ∀ it, ans = .ok (some it) → IsTenantId t
  | .cacheGet .., ans => ∀ it, ans = .ok (some it) → KeyOk it
  | .decodeAndVerify _, ans => ∀ claims t, ans = .ok claims → claims.tenantId = some t → IsTenantId t
  | _, _ => True

/-- The sentinel is no tenant id: `_` is outside the pattern. -/
theorem superAdmin_not_isTenantId : ¬ IsTenantId SUPER_ADMIN := by decide

theorem IsTenantId.ne_empty {t : String} (h : IsTenantId t) : t ≠ "" := by
  rintro rfl
  exact absurd h.1 (by decide)

theorem IsTenantId.ne_superAdmin {t : String} (h : IsTenantId t) : t ≠ SUPER_ADMIN := by
  rintro rfl
  exact superAdmin_not_isTenantId h

section
variable {w w' : World} {op : Op} {ch : Choice} {ans : sig.Ans op}

theorem mem_of_lookup {α : Type} {k : String} {v : α} {l : List (String × α)}
    (h : l.lookup k = some v) : (k, v) ∈ l := by
  obtain ⟨l₁, l₂, rfl, _⟩ := List.lookup_eq_some_iff.1 h
  exact List.mem_append_right _ List.mem_cons_self

theorem plausible_of_exec (hv : TenantIdsValid w) (h : w.exec op ch = some (ans, w')) :
    Plausible op ans := by
  cases op with
  | getKey k =>
    obtain ⟨_, rfl | ⟨_, _, rfl⟩⟩ := exec_getKey h <;> intro it hit
    · exact hv.apiKeys k it (Except.ok.inj hit)
    · cases hit
  | getTenant t =>
    obtain ⟨_, rfl | ⟨_, _, rfl⟩⟩ := exec_getTenant h <;> intro it hit
    · exact hv.tenants t it (Except.ok.inj hit)
    · cases hit
  | cacheGet pid k =>
    obtain ⟨rfl, _⟩ := exec_cacheGet h
    intro it hit
    obtain ⟨e, he, rfl, _⟩ := cacheGet_eq_some (Except.ok.inj hit)
    exact hv.caches pid _ he
  | decodeAndVerify token =>
    obtain ⟨_, ⟨claims, hc, rfl⟩ | ⟨_, rfl⟩⟩ := exec_decodeAndVerify h <;> intro claims' t hcl ht
    · cases hcl
      exact hv.tokens _ (mem_of_lookup hc) t ht
    · cases hcl
  | _ => trivial

/-- A write of records leaves the rest as it was. -/
theorem TenantIdsValid.of_frame (hv : TenantIdsValid w) (h : w.exec op ch = some (ans, w'))
    (htenants : op.isTenantWrite = true → ∀ t it, w'.tenants.item t = some it → IsTenantId t)
    (hkeys : op.isKeyWrite = true → ∀ k it, w'.apiKeys.item k = some it → KeyOk it)
    (husers : op.isUserWrite = true → ∀ n u t, w'.users n = some u → u.tenantId = some t →
      IsTenantId t)
    (htokens : op.isTokenWrite = true → ∀ e ∈ w'.tokens, ∀ t, e.2.tenantId = some t → IsTenantId t)
    (hcaches : ∀ pid, ∀ e ∈ (w'.processes pid).cache, KeyOk e.2.value) : TenantIdsValid w' := by
  have hf := exec_frame h
  refine ⟨?_, ?_, ?_, ?_, hcaches⟩
  · by_cases ht : op.isTenantWrite = true
    · exact htenants ht
    · rw [hf.tenants (Bool.eq_false_iff.2 ht)]
      exact hv.tenants
  · by_cases ht : op.isKeyWrite = true
    · exact hkeys ht
    · rw [hf.apiKeys (Bool.eq_false_iff.2 ht)]
      exact hv.apiKeys
  · by_cases ht : op.isUserWrite = true
    · exact husers ht
    · rw [hf.users (Bool.eq_false_iff.2 ht)]
      exact hv.users
  · by_cases ht : op.isTokenWrite = true
    · exact htokens ht
    · rw [hf.tokens (Bool.eq_false_iff.2 ht)]
      exact hv.tokens

theorem put_keyOk {k : String} {it : KeyRecord} (hv : TenantIdsValid w) (hit : KeyOk it) (j : String)
    (it' : KeyRecord) (h : (w.apiKeys.put k it).item j = some it') : KeyOk it' := by
  by_cases hj : j = k
  · subst hj
    rw [Dynamo.Table.put_item_self] at h
    exact Option.some.inj h ▸ hit
  · rw [Dynamo.Table.put_item_ne _ _ hj] at h
    exact hv.apiKeys j it' h

theorem setUser_valid {n : String} {u : CognitoUser} (hv : TenantIdsValid w)
    (hu : ∀ t, u.tenantId = some t → IsTenantId t) (m : String) (v : CognitoUser) (t : String)
    (hm : (w.setUser n (some u)).users m = some v) (ht : v.tenantId = some t) : IsTenantId t := by
  by_cases hmn : m = n
  · subst hmn
    rw [setUser_self] at hm
    cases hm
    exact hu t ht
  · rw [setUser_ne _ _ hmn] at hm
    exact hv.users m v t hm ht

theorem mem_cacheAdd {p : Process} {k : String} {it : KeyRecord} {ttl : Nat} {now : Timestamp}
    {e : String × CacheItem} (h : e ∈ (p.cacheAdd k it ttl now).cache) :
    e.2.value = it ∨ e ∈ p.cache := by
  rcases List.mem_cons.1 h with rfl | h
  · exact .inl rfl
  · exact .inr (List.mem_of_mem_filter h)

/-- An allowed call keeps every tenant id valid. -/
theorem tenantIdsValid_step (hv : TenantIdsValid w) (hop : Allowed op)
    (h : w.exec op ch = some (ans, w')) : TenantIdsValid w' := by
  by_cases hadd : ∃ pid k it ttl, op = .cacheAdd pid k it ttl
  · obtain ⟨pid, k, it, ttl, rfl⟩ := hadd
    refine hv.of_frame h (fun h => (by cases h)) (fun h => (by cases h)) (fun h => (by cases h))
      (fun h => (by cases h)) fun q e he => ?_
    obtain ⟨_, rfl⟩ := exec_cacheAdd h
    by_cases hq : q = pid
    · subst hq
      rw [setProcess_self] at he
      rcases mem_cacheAdd he with heq | he
      · exact heq ▸ hop
      · exact hv.caches q e he
    · rw [setProcess_ne _ _ hq] at he
      exact hv.caches q e he
  · have hcaches : ∀ pid, ∀ e ∈ (w'.processes pid).cache, KeyOk e.2.value := fun q e he =>
      hv.caches q e (exec_cache_subset h (fun pid k it ttl he => hadd ⟨pid, k, it, ttl, he⟩) q e he)
    refine hv.of_frame h ?_ ?_ ?_ ?_ hcaches <;> intro hw
    · -- tenants
      cases op with
      | putTenant t it =>
        rcases exec_putTenant h with ⟨_, rfl⟩ | ⟨_, _, _, rfl⟩
        · intro t' it' ht'
          by_cases he : t' = t
          · exact he ▸ hop
          · rw [Dynamo.Table.put_item_ne _ _ he] at ht'
            exact hv.tenants t' it' ht'
        · exact hv.tenants
      | updateTenant t u cl =>
        rcases exec_updateTenant h with ⟨it, _, _, rfl⟩ | ⟨_, _, rfl⟩
        · intro t' it' ht'
          by_cases he : t' = t
          · exact he ▸ hop
          · rw [Dynamo.Table.put_item_ne _ _ he] at ht'
            exact hv.tenants t' it' ht'
        · exact hv.tenants
      | _ => cases hw
    · -- keys
      cases op with
      | putKey k it =>
        rcases exec_putKey h with ⟨_, rfl⟩ | ⟨_, _, _, rfl⟩
        · exact put_keyOk hv hop
        · exact hv.apiKeys
      | updateKey k u =>
        rcases exec_updateKey h with ⟨it, _, hit, rfl⟩ | ⟨_, _, rfl⟩
        · refine put_keyOk hv fun t ht => ?_
          -- the update leaves the tenant of the record alone
          have hsame : it .tenantId = w.keyRecord k .tenantId :=
            Dynamo.Update.apply_frame hit fun x hx => hop x hx
          have ht' : (w.keyRecord k).tenantId = some t := hsame.symm.trans ht
          cases hk : w.apiKeys.item k with
          | none =>
            rw [World.keyRecord, hk] at ht'
            cases ht'
          | some it' =>
            rw [World.keyRecord, hk] at ht'
            exact hv.apiKeys k it' hk t ht'
        · exact hv.apiKeys
      | deleteKey k =>
        rcases exec_deleteKey h with ⟨_, rfl⟩ | ⟨_, _, _, rfl⟩
        · intro j it hj
          exact hv.apiKeys j it (Dynamo.Table.delete_item_eq_some.1 hj).2
        · exact hv.apiKeys
      | _ => cases hw
    · -- users
      cases op with
      | adminAddUserToGroup n g =>
        rcases exec_addUserToGroup h with ⟨_, _, rfl⟩ | ⟨u, hu, _, rfl⟩
        · exact hv.users
        · exact setUser_valid hv fun t ht => hv.users n u t hu ht
      | adminRemoveUserFromGroup n g =>
        rcases exec_removeUserFromGroup h with ⟨_, _, rfl⟩ | ⟨u, hu, _, rfl⟩
        · exact hv.users
        · exact setUser_valid hv fun t ht => hv.users n u t hu ht
      | adminUpdateUserAttributes n t =>
        rcases exec_updateUserAttributes h with ⟨_, _, rfl⟩ | ⟨u, hu, _, rfl⟩
        · exact hv.users
        · exact setUser_valid hv fun t' ht => Option.some.inj ht ▸ hop
      | adminDeleteUserAttributes n =>
        rcases exec_deleteUserAttributes h with ⟨_, _, rfl⟩ | ⟨u, hu, _, rfl⟩
        · exact hv.users
        · exact setUser_valid hv fun t ht => (by cases ht)
      | adminDeleteUser n =>
        rcases exec_deleteUser h with ⟨_, _, rfl⟩ | ⟨_, rfl⟩
        · exact hv.users
        · intro m v t hm ht
          by_cases hmn : m = n
          · rw [hmn, setUser_self] at hm
            cases hm
          · rw [setUser_ne _ _ hmn] at hm
            exact hv.users m v t hm ht
      | signUp n email sub =>
        rcases exec_signUp h with ⟨_, _, rfl⟩ | ⟨_, rfl⟩
        · exact hv.users
        · exact setUser_valid hv fun t ht => (by cases ht)
      | _ => cases hw
    · -- tokens
      cases op with
      | issueToken n =>
        rcases exec_issueToken h with ⟨u, hu, _, _, rfl⟩ | ⟨_, _, rfl⟩
        · intro e he t ht
          rcases List.mem_cons.1 he with rfl | he
          · simp only [Claims.ofUser] at ht
            split at ht
            · cases ht
            · exact hv.users n u t hu ht
          · exact hv.tokens e he t ht
        · exact hv.tokens
      | _ => cases hw

end

/-! ## The protocol of the handlers -/

/-- The local state is the trace, newest call first. -/
abbrev tenantProtocol : Protocol sig where
  State    := List (Event sig)
  allow    := fun _ op => Allowed op
  possible := fun _ op ans => Plausible op ans
  next     := fun s op ans => ⟨op, ans⟩ :: s

/-- All calls are allowed, a return satisfies `Q`. -/
abbrev Obeys {α : Type} (Q : List (Event sig) → α → Prop) (s : List (Event sig)) (p : Prog α) :
    Prop := tenantProtocol.Obeys Q (fun _ _ => True) s p

section
variable {α β : Type} {s : List (Event sig)}

theorem isolated_bind {Q : List (Event sig) → α → Prop} {Q₂ : List (Event sig) → β → Prop}
    {p : Prog α} {f : α → Prog β} (hp : Obeys Q s p) (hf : ∀ s a, Q s a → Obeys Q₂ s (f a)) :
    Obeys Q₂ s (p.bind f) := Protocol.obeys_bind hp hf

theorem isolated_tryCatch {Q : List (Event sig) → α → Prop} {p : Prog α} {g : Exc → Prog α}
    (hp : Obeys Q s p) (hg : ∀ s e, Obeys Q s (g e)) : Obeys Q s (p.tryCatch g) :=
  Protocol.obeys_tryCatch hp fun s e _ => hg s e

theorem obeys_call {op : Op} (h : Allowed op) :
    Obeys (fun s r => Plausible op (.ok r) ∧ (⟨op, .ok r⟩ : Event sig) ∈ s) s (call op) :=
  Protocol.obeys_perform h (fun _ hr => ⟨hr, List.mem_cons_self⟩) fun _ _ => trivial

theorem Obeys.weaken {Q Q' : List (Event sig) → α → Prop} {p : Prog α} (h : Obeys Q s p)
    (hQ : ∀ s a, Q s a → Q' s a) : Obeys Q' s p := Protocol.Obeys.mono hQ (fun _ _ h => h) h

/-- A program whose calls are allowed whatever the answers are. -/
theorem obeys_of_allowed {p : Prog α} (h : All Allowed p) : Obeys (fun _ _ => True) s p :=
  Protocol.obeys_of_spec (R := tenantProtocol) (fun _ _ h => h) h s

/-- The trace only grows. -/
theorem Obeys.grows {Q : List (Event sig) → α → Prop} {p : Prog α} (h : Obeys Q s p) :
    Obeys (fun s' a => Q s' a ∧ ∀ ev ∈ s, ev ∈ s') s p := by
  induction p generalizing s with
  | ret a => exact ⟨h, fun _ h => h⟩
  | raise e => trivial
  | call op k ih =>
    refine ⟨h.1, fun r hr => ?_⟩
    refine (ih r (h.2 r hr)).weaken fun s' a hQ => ⟨hQ.1, fun ev hev => ?_⟩
    exact hQ.2 ev (List.mem_cons_of_mem _ hev)

theorem obeys_pure {Q : List (Event sig) → α → Prop} {a : α} (h : Q s a) :
    Obeys Q s (pure a : Prog α) := h

theorem obeys_throw {Q : List (Event sig) → α → Prop} {e : Exc} :
    Obeys Q s (throw e : Prog α) := trivial

theorem obeys_ofExcept {Q : List (Event sig) → α → Prop} {r : Except Exc α}
    (h : ∀ a, r = .ok a → Q s a) : Obeys Q s (Effect.Prog.ofExcept r : Prog α) := by
  cases r with
  | ok a => exact h a rfl
  | error e => trivial

end

/-! ## Keys -/

section
variable {env : KeyEnv} {pid : Nat} {apiKey : String} {s : List (Event sig)}

/-- The trace shows a record of the key with tenant `t`, from the store or the cache. -/
def KeyTenant (env : KeyEnv) (apiKey : String) (s : List (Event sig)) (it : KeyRecord) : Prop :=
  ∃ h, (h = computeKeyHash env apiKey ∨ h = hashKey env apiKey) ∧
    ((⟨.getKey h, .ok (some it)⟩ : Event sig) ∈ s ∨
      ∃ pid, (⟨.cacheGet pid h, .ok (some it)⟩ : Event sig) ∈ s)

theorem KeyTenant.mono {s' : List (Event sig)} {it : KeyRecord} (h : KeyTenant env apiKey s it)
    (hs : ∀ ev ∈ s, ev ∈ s') : KeyTenant env apiKey s' it := by
  obtain ⟨k, hk, hev | ⟨pid, hev⟩⟩ := h
  · exact ⟨k, hk, .inl (hs _ hev)⟩
  · exact ⟨k, hk, .inr ⟨pid, hs _ hev⟩⟩

theorem obeys_lookupKeyInDdb (k : String) : Obeys (fun s r => ∀ it, r = some it →
    KeyOk it ∧ (⟨.getKey k, .ok (some it)⟩ : Event sig) ∈ s) s (lookupKeyInDdb k) := by
  refine isolated_tryCatch ((obeys_call (by trivial)).weaken ?_) fun s e => obeys_pure fun _ h => (by cases h)
  rintro s r ⟨hp, hev⟩ it rfl
  exact ⟨hp it rfl, hev⟩

theorem obeys_migrateKeyHash (oldHash newHash : String) :
    Obeys (fun _ _ => True) s (migrateKeyHash pid oldHash newHash) := by
  refine isolated_tryCatch ?_ fun s e => obeys_pure trivial
  refine isolated_bind (obeys_lookupKeyInDdb oldHash) fun s r hr => ?_
  cases r with
  | none => exact obeys_pure trivial
  | some it =>
    refine isolated_bind (obeys_call (by exact (hr it rfl).1)) fun s _ _ => ?_
    refine isolated_bind (obeys_call (by trivial)) fun s _ _ => ?_
    exact (obeys_call (by trivial)).weaken fun _ _ _ => trivial

theorem obeys_legacyLookup : Obeys (fun s r => ∀ it, r = some it →
    KeyOk it ∧ KeyTenant env apiKey s it) s (legacyLookup env pid apiKey) := by
  refine isolated_bind (obeys_lookupKeyInDdb _) fun s r hr => ?_
  cases r with
  | none => exact obeys_pure fun _ h => (by cases h)
  | some record =>
    obtain ⟨hok, hev⟩ := hr record rfl
    have hkey : KeyTenant env apiKey s record := ⟨_, .inr rfl, .inl hev⟩
    dsimp only
    cases getPepper env with
    | none =>
      refine obeys_pure ?_
      rintro it ⟨⟩
      exact ⟨hok, hkey⟩
    | some pepper =>
      refine isolated_bind (obeys_migrateKeyHash _ _).grows fun s' _ hs' => obeys_pure ?_
      rintro it ⟨⟩
      exact ⟨hok, hkey.mono hs'.2⟩

theorem computeKeyHash_of_pepper {pepper : String} (h : getPepper env = some pepper) :
    computeKeyHash env apiKey = hashKeyWithPepper env apiKey pepper := by
  rw [computeKeyHash, h]

theorem obeys_lookupAndMaybeMigrate : Obeys (fun s r => ∀ it, r = some it →
    KeyOk it ∧ KeyTenant env apiKey s it) s (lookupAndMaybeMigrate env pid apiKey) := by
  unfold lookupAndMaybeMigrate
  split
  · exact obeys_legacyLookup
  next pepper hp =>
    refine isolated_bind (obeys_lookupKeyInDdb _) fun s r hr => ?_
    cases r with
    | none => exact obeys_legacyLookup
    | some record =>
      obtain ⟨hok, hev⟩ := hr record rfl
      refine obeys_pure ?_
      rintro it ⟨⟩
      exact ⟨hok, _, .inl (computeKeyHash_of_pepper hp).symm, .inl hev⟩

theorem obeys_findRecord : Obeys (fun s r => ∀ it, r = some it →
    KeyOk it ∧ KeyTenant env apiKey s it) s (findRecord env pid apiKey) := by
  refine isolated_bind (obeys_call (by trivial)) fun s r hr => ?_
  cases r with
  | some record =>
    refine obeys_pure ?_
    rintro it ⟨⟩
    exact ⟨hr.1 record rfl, _, .inl rfl, .inr ⟨pid, hr.2⟩⟩
  | none =>
    refine isolated_bind obeys_lookupAndMaybeMigrate fun s r hr => ?_
    cases r with
    | none => exact obeys_pure fun _ h => (by cases h)
    | some record =>
      obtain ⟨hok, hkey⟩ := hr record rfl
      refine isolated_bind (obeys_call (by exact hok)).grows fun s' _ hs' => obeys_pure ?_
      rintro it ⟨⟩
      exact ⟨hok, hkey.mono hs'.2⟩

theorem allowed_validateKeyRecord (record : KeyRecord) : All Allowed (validateKeyRecord record) := by
  unfold validateKeyRecord
  refine spec_ite trivial ?_
  split
  · exact all_bind (all_perform trivial) fun _ => trivial
  · trivial

/-- An authenticated key acts for the tenant of its record. -/
theorem obeys_authenticate : Obeys (fun s r => KeyOk r.1 ∧ KeyTenant env apiKey s r.1 ∧
    r.1.tenantId = some r.2 ∧ r.2 ≠ "") s (authenticate env pid apiKey) := by
  unfold authenticate
  split
  · refine isolated_bind obeys_findRecord fun s r hr => ?_
    cases r with
    | none => exact obeys_throw
    | some record =>
      obtain ⟨hok, hkey⟩ := hr record rfl
      refine isolated_bind (obeys_of_allowed (allowed_validateKeyRecord record)).grows fun s₁ valid hs₁ => ?_
      cases valid with
      | false => exact obeys_throw
      | true =>
        change Obeys _ s₁ (acceptRecord pid (computeKeyHash env apiKey) record)
        unfold acceptRecord
        split
        · exact obeys_throw
        next tenantId ht =>
          obtain ⟨ht, hne⟩ := nonEmpty_eq_some.1 ht
          refine isolated_bind (obeys_call (by trivial)).grows fun s₂ _ hs₂ => obeys_pure ?_
          exact ⟨hok, (hkey.mono hs₁.2).mono hs₂.2, ht, hne⟩
  · exact obeys_throw

end

/-! ## Callers -/

section
variable {env : KeyEnv} {pid : Nat} {apiKey credentials : Option String} {s : List (Event sig)}

/-- The tenant a caller acts for: its key's, its token's, or the one of local development. -/
inductive OwnTenant (env : KeyEnv) (apiKey credentials : Option String) (s : List (Event sig)) :
    String → Prop where
  | key {key t : String} {it : KeyRecord} (hkey : apiKey = some key)
      (hit : KeyTenant env key s it) (ht : it.tenantId = some t) : OwnTenant env apiKey credentials s t
  | token {token t : String} {claims : Claims} (htoken : credentials = some token)
      (hev : (⟨.decodeAndVerify token, .ok claims⟩ : Event sig) ∈ s)
      (ht : claims.tenantId = some t) : OwnTenant env apiKey credentials s t
  | localDevelopment (h : env.apiAuthEnabled = false) : OwnTenant env apiKey credentials s "local"

/-- The token is that of a super-admin. -/
def IsSuperAdminToken (credentials : Option String) (s : List (Event sig)) : Prop :=
  ∃ token claims, credentials = some token ∧
    (⟨.decodeAndVerify token, .ok claims⟩ : Event sig) ∈ s ∧ isSuperAdmin claims = true

/-- The context of a caller: a super-admin's, or that of the caller's own tenant. -/
def ContextIsolated (env : KeyEnv) (apiKey credentials : Option String) (s : List (Event sig))
    (ctx : UserContext) : Prop :=
  (IsSuperAdminToken credentials s ∧ ctx.authMethod = "jwt" ∧ ctx.tenantId = SUPER_ADMIN) ∨
    (OwnTenant env apiKey credentials s ctx.tenantId ∧ IsTenantId ctx.tenantId)

theorem OwnTenant.mono {s' : List (Event sig)} {t : String}
    (h : OwnTenant env apiKey credentials s t) (hs : ∀ ev ∈ s, ev ∈ s') :
    OwnTenant env apiKey credentials s' t := by
  cases h with
  | key hkey hit ht => exact .key hkey (hit.mono hs) ht
  | token htoken hev ht => exact .token htoken (hs _ hev) ht
  | localDevelopment h => exact .localDevelopment h

theorem obeys_getUserContextFromApiKey {key : String} (h : apiKey = some key) :
    Obeys (ContextIsolated env apiKey credentials) s (getUserContextFromApiKey env pid key) := by
  unfold getUserContextFromApiKey
  split
  · refine isolated_bind obeys_authenticate fun s r hr => ?_
    obtain ⟨record, tenantId⟩ := r
    obtain ⟨hok, hkey, ht, _⟩ := hr
    exact obeys_pure (.inr ⟨.key h hkey ht, hok tenantId ht⟩)
  next henabled =>
    refine isolated_bind (obeys_ofExcept fun _ _ => trivial : Obeys (fun _ _ => True) s _)
      fun s _ _ => obeys_pure ?_
    exact .inr ⟨.localDevelopment (Bool.eq_false_iff.2 henabled), by decide⟩

theorem obeys_getUserContextFromToken {token : String} (h : credentials = some token) :
    Obeys (ContextIsolated env apiKey credentials) s (getUserContextFromToken token) := by
  refine isolated_tryCatch ?_ fun s e => ?_
  · refine isolated_bind (obeys_call (by trivial)) fun s claims hcl => ?_
    refine isolated_bind (obeys_ofExcept (Q := fun s' _ => s' = s) fun _ _ => rfl) fun s' _ hs' => ?_
    subst hs'
    refine isolated_bind (obeys_ofExcept (Q := fun s'' t => s'' = s' ∧ contextTenant claims = .ok t)
      fun t ht => ⟨rfl, ht⟩) fun s'' t ht => ?_
    obtain ⟨rfl, ht⟩ := ht
    refine obeys_pure ?_
    unfold contextTenant at ht
    split at ht
    next hsuper =>
      cases ht
      exact .inl ⟨⟨token, claims, h, hcl.2, hsuper⟩, rfl, rfl⟩
    next =>
      split at ht
      · cases ht
      next tenant htenant =>
        cases ht
        obtain ⟨htenant, _⟩ := nonEmpty_eq_some.1 htenant
        exact .inr ⟨.token h hcl.2 htenant, hcl.1 claims t rfl htenant⟩
  · cases e <;> exact obeys_throw

theorem obeys_getUserContextFromCredentials :
    Obeys (ContextIsolated env apiKey credentials) s (getUserContextFromCredentials credentials) := by
  unfold getUserContextFromCredentials
  split
  · exact obeys_getUserContextFromToken rfl
  · exact obeys_throw

theorem obeys_getUserContextWithFallback : Obeys (ContextIsolated env apiKey credentials) s
    (getUserContextWithFallback env pid apiKey credentials) := by
  unfold getUserContextWithFallback
  split
  next key hkey =>
    refine isolated_tryCatch (obeys_getUserContextFromApiKey (nonEmpty_eq_some.1 hkey).1) fun s e => ?_
    cases e <;> first | exact obeys_getUserContextFromCredentials | exact obeys_throw
  · exact obeys_getUserContextFromCredentials

end

/-- The claims of a verified token name a valid tenant id, if any. -/
theorem obeys_verifyJwtWithRole (credentials : Option String) :
    Obeys (fun _ claims => ∀ t, claims.tenantId = some t → IsTenantId t) s
      (verifyJwtWithRole credentials) := by
  refine isolated_bind (Q := fun _ claims => ∀ t, claims.tenantId = some t → IsTenantId t) ?_
    fun s claims hcl => ?_
  · unfold verifyJwt
    split
    · exact obeys_throw
    · refine isolated_tryCatch ((obeys_call (by trivial)).weaken fun s claims hcl t => ?_) fun s e => ?_
      · exact hcl.1 claims t rfl
      · split <;> exact obeys_throw
  · refine isolated_bind (obeys_ofExcept fun _ _ => trivial : Obeys (fun _ _ => True) s _)
      fun s _ _ => obeys_pure hcl

/-! ## The other handlers -/

section
variable {env : KeyEnv} {pid : Nat} {creds : Option String} {s : List (Event sig)} {α : Type}

theorem allowed_call {op : Op} (h : Allowed op) : All Allowed (call op) := all_perform h

theorem allowed_ofExcept (r : Except Exc α) : All Allowed (Effect.Prog.ofExcept (S := sig) r) := by
  cases r <;> trivial

theorem allowed_verifyJwt (creds : Option String) : All Allowed (verifyJwt creds) := by
  unfold verifyJwt
  split
  · trivial
  · refine spec_tryCatch (allowed_call trivial) fun e => ?_
    split <;> trivial

theorem allowed_verifyJwtWithRole (creds : Option String) : All Allowed (verifyJwtWithRole creds) :=
  all_bind (allowed_verifyJwt creds) fun _ => all_bind (allowed_ofExcept _) fun _ => trivial

theorem allowed_verifyJwtWithSuperAdmin (creds : Option String) :
    All Allowed (verifyJwtWithSuperAdmin creds) :=
  all_bind (allowed_verifyJwt creds) fun _ => all_bind (allowed_ofExcept _) fun _ => trivial

theorem allowed_logEvent (claims : Claims) (action targetType targetId : String)
    (t : Option String) : All Allowed (logEvent claims action targetType targetId t) := by
  refine spec_tryCatch (all_bind (allowed_call trivial) fun _ => ?_) fun _ => trivial
  exact spec_ite (allowed_call trivial) trivial

theorem allowed_set {k : String} {a : ApiKeyRecord} {v : ApiKeyRecord.Val a}
    (h : a ≠ .tenantId) : Allowed (.updateKey k { actions := [.set a v] }) := by
  intro x hx
  rw [List.mem_singleton.1 hx]
  exact h

theorem allowed_updateLastUsed (k : String) : All Allowed (updateLastUsed pid k) := by
  refine all_bind (allowed_call trivial) fun due => spec_ite ?_ trivial
  exact spec_tryCatch (all_bind (allowed_call trivial) fun now => allowed_call (allowed_set (by decide)))
    fun _ => allowed_call trivial

theorem allowed_deactivateApiKey (k : String) : All Allowed (deactivateApiKey pid k) := by
  refine all_bind (allowed_call trivial) fun r => ?_
  cases r with
  | none => trivial
  | some _ =>
    refine all_bind (allowed_call (allowed_set (by decide))) fun _ => ?_
    exact all_bind (allowed_call trivial) fun _ => trivial

theorem allowed_deactivateKeysForTenant (t : String) :
    All Allowed (deactivateKeysForTenant pid t) := by
  refine all_bind (allowed_call trivial) fun items => Effect.Prog.all_forEach (fun k => ?_) _
  exact spec_tryCatch (all_bind (allowed_deactivateApiKey k) fun _ => trivial) fun _ => trivial

theorem allowed_generateApiKey {t : String} (ht : IsTenantId t) (name e : String)
    (expiry : Option Timestamp) (by_ email : Option String) :
    All Allowed (generateApiKey env name e t expiry by_ email) := by
  refine all_bind ?_ fun existing => ?_
  · refine spec_tryCatch (all_bind (allowed_call trivial) fun _ => trivial) fun _ => trivial
  refine all_bind (allowed_call trivial) fun random => all_bind (allowed_call trivial) fun now => ?_
  refine all_bind (allowed_call ?_) fun _ => trivial
  intro t' ht'
  exact Option.some.inj ht' ▸ ht

theorem obeys_createApiKey (body : CreateApiKeyRequest) :
    Obeys (fun _ _ => True) s (createApiKey env creds body) := by
  refine isolated_bind (obeys_of_allowed (allowed_verifyJwtWithRole creds)) fun s claims _ => ?_
  refine isolated_bind (obeys_of_allowed (allowed_ofExcept _)) fun s requested _ => ?_
  split
  · exact obeys_throw
  next effectiveTenant _ =>
    refine isolated_bind (obeys_call (by trivial)) fun s r hr => ?_
    cases r with
    | none => exact obeys_throw
    | some tenantRecord =>
      have htenant : IsTenantId effectiveTenant := hr.1 tenantRecord rfl
      refine obeys_of_allowed (spec_ite trivial ?_)
      refine all_bind ?_ fun duplicate => spec_ite trivial ?_
      · exact spec_tryCatch (all_bind (allowed_call trivial) fun _ => trivial) fun _ => trivial
      refine all_bind (spec_tryCatch (allowed_generateApiKey htenant ..) fun _ => trivial) fun r => ?_
      exact allowed_logEvent ..

theorem obeys_cliGenerate (name e t : String) (expiry : Option Timestamp) :
    Obeys (fun _ _ => True) s (cliGenerate env name e t expiry) := by
  refine isolated_bind (obeys_call (by trivial)) fun s r hr => ?_
  cases r with
  | none => exact obeys_throw
  | some record =>
    refine obeys_of_allowed (all_bind (spec_tryCatch ?_ fun _ => trivial) fun _ => trivial)
    exact allowed_generateApiKey (hr.1 record rfl) ..

theorem allowed_deleteApiKey (keyId : String) : All Allowed (deleteApiKey pid creds keyId) := by
  refine all_bind (allowed_verifyJwtWithRole creds) fun claims => ?_
  refine all_bind (allowed_ofExcept _) fun callerTenant => ?_
  refine all_bind ?_ fun fullHash => ?_
  · unfold resolveKeyId
    refine spec_ite ?_ (all_bind (spec_tryCatch ?_ fun e => ?_) fun r => ?_)
    · cases callerTenant with
      | none => trivial
      | some tenant =>
        refine all_bind (allowed_call trivial) fun r => ?_
        cases r with
        | none => trivial
        | some record => exact spec_ite trivial trivial
    · refine all_bind (spec_tryCatch (allowed_call trivial) fun _ => trivial) fun items => ?_
      simp only
      split <;> trivial
    · cases e <;> trivial
    · cases nonEmpty r <;> trivial
  · refine all_bind (allowed_deactivateApiKey fullHash) fun deactivated => spec_ite trivial ?_
    exact allowed_logEvent ..

theorem allowed_createTenant (body : CreateTenantRequest) : All Allowed (createTenant creds body) := by
  refine all_bind (allowed_verifyJwtWithSuperAdmin creds) fun claims => ?_
  refine all_bind (spec_tryCatch ?_ fun e => ?_) fun _ => allowed_logEvent ..
  · refine all_bind (allowed_call trivial) fun r => ?_
    cases r with
    | some _ => trivial
    | none => exact all_bind (allowed_call trivial) fun now => allowed_call body.tenantId.2
  · cases e <;> trivial

theorem obeys_updateTenantRecord (t : String) (body : UpdateTenantRequest) :
    Obeys (fun _ _ => True) s (updateTenantRecord t body) := by
  unfold updateTenantRecord
  split
  · exact obeys_throw
  refine isolated_bind (obeys_call (by trivial)) fun s r hr => ?_
  cases r with
  | none => exact obeys_throw
  | some record =>
    refine obeys_of_allowed (all_bind (allowed_call trivial) fun now => ?_)
    refine all_bind (allowed_call (hr.1 record rfl)) fun _ => all_bind (allowed_call trivial) fun r => ?_
    cases r <;> trivial

theorem obeys_deactivateTenant (t : String) :
    Obeys (fun _ _ => True) s (deactivateTenant t) := by
  refine isolated_bind (obeys_call (by trivial)) fun s r hr => ?_
  cases r with
  | none => exact obeys_pure trivial
  | some record =>
    refine obeys_of_allowed (all_bind (allowed_call trivial) fun now => ?_)
    exact all_bind (allowed_call (hr.1 record rfl)) fun _ => trivial

theorem obeys_updateTenant (t : String) (body : UpdateTenantRequest) :
    Obeys (fun _ _ => True) s (updateTenant pid creds t body) := by
  refine isolated_bind (obeys_of_allowed (allowed_verifyJwtWithRole creds)) fun s claims _ => ?_
  refine isolated_bind (obeys_of_allowed (allowed_ofExcept _)) fun s _ _ => ?_
  refine isolated_bind (obeys_of_allowed (allowed_call trivial)) fun s r _ => ?_
  cases r with
  | none => exact obeys_throw
  | some record =>
    change Obeys _ s (ite _ _ _)
    split
    · exact obeys_throw
    change Obeys _ s (ite _ _ _)
    split
    · exact obeys_throw
    refine isolated_bind (isolated_tryCatch (obeys_updateTenantRecord t body) fun s e => ?_) fun s _ _ => ?_
    · cases e <;> exact obeys_throw
    · refine obeys_of_allowed (spec_ite ?_ (allowed_logEvent ..))
      exact all_bind (allowed_deactivateKeysForTenant t) fun _ => allowed_logEvent ..

theorem obeys_deleteTenant (t : String) :
    Obeys (fun _ _ => True) s (deleteTenant pid creds t) := by
  refine isolated_bind (obeys_of_allowed (allowed_verifyJwtWithSuperAdmin creds)) fun s claims _ => ?_
  refine isolated_bind (obeys_of_allowed (allowed_deactivateKeysForTenant t)) fun s _ _ => ?_
  refine isolated_bind (obeys_deactivateTenant t) fun s found _ => ?_
  exact obeys_of_allowed (spec_ite trivial (allowed_logEvent ..))

/-- A tenant named in a body is known to exist once it has been looked up. -/
theorem obeys_requireTenant (t : Option String) :
    Obeys (fun _ _ => ∀ t', nonEmpty t = some t' → IsTenantId t') s (requireTenant t) := by
  unfold requireTenant
  split
  next hnone =>
    refine obeys_pure fun t' ht' => ?_
    rw [hnone] at ht'
    cases ht'
  next t₁ ht₁ =>
    refine isolated_bind (obeys_call (by trivial)) fun s r hr => ?_
    cases r with
    | none => exact obeys_throw
    | some record =>
      refine obeys_pure fun t' ht' => ?_
      rw [ht₁] at ht'
      exact Option.some.inj ht' ▸ hr.1 record rfl

theorem allowed_setTenant {n : String} {t : Option String}
    (h : ∀ t', nonEmpty t = some t' → IsTenantId t') : All Allowed (setTenant n t) := by
  unfold setTenant
  split
  next t' ht' => exact allowed_call (h t' ht')
  next => exact allowed_call trivial

theorem allowed_replaceRole (n : String) (role : Option Role) : All Allowed (replaceRole n role) := by
  refine all_bind (allowed_call trivial) fun groups => all_bind ?_ fun _ => ?_
  · refine Effect.Prog.all_forEach (fun g => ?_) groups
    exact spec_ite (allowed_call trivial) trivial
  · cases role with
    | none => trivial
    | some role => exact allowed_call trivial

theorem obeys_approveUser (n : String) (body : ApproveRequest) :
    Obeys (fun _ _ => True) s (approveUser creds n body) := by
  refine isolated_bind (obeys_of_allowed (allowed_verifyJwtWithSuperAdmin creds)) fun s claims _ => ?_
  refine isolated_bind (obeys_of_allowed (allowed_ofExcept _)) fun s _ _ => ?_
  refine isolated_bind (obeys_requireTenant body.tenantId) fun s _ ht => ?_
  refine obeys_of_allowed (all_bind (spec_tryCatch ?_ fun _ => trivial) fun _ => allowed_logEvent ..)
  refine all_bind (allowed_replaceRole ..) fun _ => allowed_setTenant fun t' ht' => ?_
  split at ht'
  · cases ht'
  · exact ht t' ht'

theorem obeys_changeRole (n : String) (body : ChangeRoleRequest) :
    Obeys (fun _ _ => True) s (changeRole creds n body) := by
  refine isolated_bind (obeys_of_allowed (allowed_verifyJwtWithSuperAdmin creds)) fun s claims _ => ?_
  refine isolated_bind (obeys_of_allowed (allowed_ofExcept _)) fun s _ _ => ?_
  refine isolated_bind (obeys_requireTenant body.tenantId) fun s _ ht => ?_
  refine obeys_of_allowed (all_bind (spec_tryCatch ?_ fun _ => trivial) fun _ => allowed_logEvent ..)
  refine all_bind (allowed_replaceRole ..) fun _ => allowed_setTenant fun t' ht' => ?_
  split at ht'
  · exact ht t' ht'
  · cases ht'

theorem obeys_changeTenant (n : String) (body : ChangeTenantRequest) :
    Obeys (fun _ _ => True) s (changeTenant creds n body) := by
  refine isolated_bind (obeys_of_allowed (allowed_verifyJwtWithSuperAdmin creds)) fun s claims _ => ?_
  refine isolated_bind (obeys_requireTenant body.tenantId) fun s _ ht => ?_
  refine obeys_of_allowed (all_bind (spec_tryCatch (allowed_setTenant ht) fun _ => trivial) fun _ => ?_)
  exact allowed_logEvent ..

theorem allowed_deleteUser (n : String) : All Allowed (deleteUser creds n) := by
  refine all_bind (allowed_verifyJwtWithSuperAdmin creds) fun claims => spec_ite trivial ?_
  refine all_bind (spec_tryCatch (allowed_call trivial) fun _ => trivial) fun _ => ?_
  exact allowed_logEvent ..

theorem obeys_discard {Q : List (Event sig) → α → Prop} {p : Prog α} (h : Obeys Q s p) :
    Obeys (fun _ _ => True) s (discard p) :=
  isolated_bind h fun _ _ _ => obeys_pure trivial

theorem obeys_body (env : KeyEnv) (e : Entry) : Obeys (fun _ _ => True) [] (e.body env) := by
  cases e with
  | authenticate pid key => exact obeys_discard obeys_authenticate
  | getUserContext pid key creds => exact obeys_discard obeys_getUserContextWithFallback
  | deactivateApiKey pid k => exact obeys_discard (obeys_of_allowed (allowed_deactivateApiKey k))
  | updateLastUsed pid i =>
    exact obeys_of_allowed (all_bind (allowed_call trivial) fun k => allowed_updateLastUsed k)
  | createApiKey creds body => exact obeys_createApiKey body
  | deleteApiKey pid creds keyId => exact obeys_of_allowed (allowed_deleteApiKey keyId)
  | cliGenerate name e t expiry => exact obeys_cliGenerate name e t expiry
  | cliDeactivate pid key =>
    refine obeys_of_allowed (all_bind (allowed_deactivateApiKey _) fun _ => ?_)
    exact spec_ite trivial trivial
  | createTenant creds body => exact obeys_of_allowed (allowed_createTenant body)
  | updateTenant pid creds t body => exact obeys_updateTenant t body
  | deleteTenant pid creds t => exact obeys_deleteTenant t
  | approveUser creds n body => exact obeys_approveUser n body
  | changeRole creds n body => exact obeys_changeRole n body
  | changeTenant creds n body => exact obeys_changeTenant n body
  | deleteUser creds n => exact obeys_of_allowed (allowed_deleteUser n)
  | signUp n email sub => exact obeys_of_allowed (allowed_call trivial)
  | signIn n => exact obeys_discard (obeys_of_allowed (allowed_call trivial))

end

/-! ## Every reachable state -/

/-- Some interleaved run of the admin system leads from `w₀` to `w`. -/
def Reachable (env : KeyEnv) (w₀ w : World) : Prop :=
  ∃ (ms : List (Move env)) (c : Config env), Effect.play (.init w₀) ms = some c ∧ c.world = w

theorem tenantIdsValid_play {env : KeyEnv} {w₀ : World} {ms : List (Move env)} {c : Config env}
    (h0 : TenantIdsValid w₀) (h : Effect.play (.init w₀) ms = some c) : TenantIdsValid c.world := by
  have hcoupled : tenantProtocol.Coupled (fun _ => ([] : List (Event sig))) (fun _ _ => True) (fun _ _ => True)
      (Effect.Config.init (P := system env) w₀) := fun t ht => (by cases ht)
  have halong : Effect.Along (fun _ _ => True) (Effect.Config.init (P := system env) w₀) ms :=
    Effect.along_iff_split.2 fun _ _ _ _ _ _ => trivial
  refine (Protocol.protocol_inv (R := tenantProtocol) (fun _ => ([] : List (Event sig)))
    (J := fun c : Config env => TenantIdsValid c.world) (fun e => obeys_body env e)
    (fun c e hJ _ => hJ) ?_ (fun c i t hJ _ _ => hJ) hcoupled h0 halong h).2
  intro c i ch t op k ans w' hJ _ _ _ hallow hx
  exact ⟨plausible_of_exec hJ hx, tenantIdsValid_step hJ hallow hx⟩

theorem Reachable.valid {env : KeyEnv} {w₀ w : World} (h0 : TenantIdsValid w₀)
    (h : Reachable env w₀ w) : TenantIdsValid w := by
  obtain ⟨ms, c, hplay, rfl⟩ := h
  exact tenantIdsValid_play h0 hplay

/-- The worlds in which a handler's calls may find the system. -/
abbrev amidReachable (env : KeyEnv) (w₀ : World) : Effect.Sys sig := (system env).amid (Reachable env w₀)

/-- What a handler does in a run, it does amid reachable worlds: so what is proved of runs amid
reachable worlds covers every interleaving. -/
theorem handlers_amid {env : KeyEnv} {w₀ : World} {ms : List (Move env)} {c : Config env}
    (h : Effect.play (.init w₀) ms = some c) : ∀ t ∈ c.threads,
      Steps (amidReachable env w₀) () (t.entry.body env) t.trace.reverse t.prog () := by
  refine Effect.amid_of_play (P := system env) (fun ns ns' c₁ _ hns => ⟨ns, c₁, hns, rfl⟩) h ?_
  exact fun t ht => (by cases ht)

/-- What an obeying program returns amid reachable worlds. -/
theorem obeys_amid {env : KeyEnv} {w₀ : World} {α : Type} {Q : List (Event sig) → α → Prop}
    {p : Prog α} {tr : List (Event sig)} {a : α} (h0 : TenantIdsValid w₀) (hp : Obeys Q [] p)
    (h : Steps (amidReachable env w₀) () p tr (.ret a) ()) : Q tr.reverse a := by
  have hpos : ∀ s w op ch ans w', (amidReachable env w₀).exec w op ch = some (ans, w') →
      tenantProtocol.possible s op ans := by
    intro s w op ch ans w' hx
    obtain ⟨w₁, ch', w₂, hw₁, hx'⟩ := Effect.amid_exec hx
    exact plausible_of_exec (hw₁.valid h0) hx'
  have hfold : ∀ tr s : List (Event sig),
      tr.foldl (fun s ev => ⟨ev.op, ev.ans⟩ :: s) s = tr.reverse ++ s := by
    intro tr
    induction tr with
    | nil => exact fun s => rfl
    | cons ev tr ih =>
      intro s
      rw [List.foldl_cons, ih, List.reverse_cons, List.append_assoc]
      rfl
  have hend : Obeys Q (tr.foldl (fun s ev => ⟨ev.op, ev.ans⟩ :: s) []) (.ret a) :=
    Protocol.Obeys.steps hpos hp h
  rw [hfold, List.append_nil] at hend
  exact hend

/-- A caller of its own tenant gets this tenant or a refusal, whatever it asks for. -/
theorem resolveTenantFromContext_own {ctx : UserContext} (h : ctx.tenantId ≠ SUPER_ADMIN)
    (requested : Option String) :
    resolveTenantFromContext ctx requested = .ok (some ctx.tenantId) ∨
      resolveTenantFromContext ctx requested = .error (.httpException 403 "Access denied.") := by
  by_cases hr : (nonEmpty requested).any (· ≠ ctx.tenantId) = true
  · right
    simp only [resolveTenantFromContext, hr, if_true, if_neg h, ite_self]
  · left
    simp only [resolveTenantFromContext, if_neg hr, if_neg h, ite_self]

theorem resolveRulesTenant_own {t : String} (h : t ≠ SUPER_ADMIN) (body : Option String) :
    resolveRulesTenant t body = .ok t := if_pos h

/-- **Tenant isolation.** In every reachable state a caller that is not a super-admin resolves to its
own tenant only, and to no sentinel, whatever tenant it asks for. -/
theorem tenant_isolation (env : KeyEnv) (w₀ : World) (h0 : TenantIdsValid w₀) (pid : Nat)
    (apiKey credentials : Option String) :
    (∀ tr ctx, Steps (amidReachable env w₀) ()
        (getUserContextWithFallback env pid apiKey credentials) tr (.ret ctx) () →
      ¬ IsSuperAdminToken credentials tr →
        OwnTenant env apiKey credentials tr ctx.tenantId ∧ ctx.tenantId ≠ "" ∧
          ctx.tenantId ≠ SUPER_ADMIN ∧
          (∀ requested, resolveTenantFromContext ctx requested = .ok (some ctx.tenantId) ∨
            resolveTenantFromContext ctx requested = .error (.httpException 403 "Access denied.")) ∧
          ∀ body, resolveRulesTenant ctx.tenantId body = .ok ctx.tenantId) ∧
    ∀ tr claims, Steps (amidReachable env w₀) () (verifyJwtWithRole credentials) tr (.ret claims) () →
      isSuperAdmin claims = false → ∀ requested,
        match nonEmpty claims.tenantId with
        | some tenant => tenant ≠ SUPER_ADMIN ∧ tenantScope claims = .ok (some tenant) ∧
            resolveTenant claims requested = .ok (some tenant)
        | none        => tenantScope claims = .error noTenantAssigned ∧
            resolveTenant claims requested = .error noTenantAssigned := by
  constructor
  · intro tr ctx hs hnot
    have hrev : ∀ ev ∈ tr.reverse, ev ∈ tr := fun ev => List.mem_reverse.1
    rcases obeys_amid h0 obeys_getUserContextWithFallback hs with ⟨hsuper, _⟩ | ⟨hown, hid⟩
    · obtain ⟨token, claims, htoken, hev, hadmin⟩ := hsuper
      exact absurd ⟨token, claims, htoken, hrev _ hev, hadmin⟩ hnot
    · exact ⟨hown.mono hrev, hid.ne_empty, hid.ne_superAdmin,
        resolveTenantFromContext_own hid.ne_superAdmin, resolveRulesTenant_own hid.ne_superAdmin⟩
  · intro tr claims hs hadmin requested
    have hclaims := obeys_amid h0 (obeys_verifyJwtWithRole credentials) hs
    rw [resolveTenant_of_not_superAdmin hadmin, tenantScope_of_not_superAdmin hadmin]
    cases ht : nonEmpty claims.tenantId with
    | none => exact ⟨rfl, rfl⟩
    | some tenant => exact ⟨(hclaims tenant (nonEmpty_eq_some.1 ht).1).ne_superAdmin, rfl, rfl⟩

/-- One tenant with one key. -/
def keyWorld : World where
  tenants := Dynamo.Table.empty.put "acme" fun _ => none
  apiKeys := Dynamo.Table.empty.put (hashKey sampleKeyEnv sampleApiKey) sampleKeyRecord

theorem keyWorld_valid : TenantIdsValid keyWorld := by
  refine ⟨fun t it ht => ?_, fun k it hk => ?_, fun n u t hu => (by cases hu),
    fun e he => (by cases he), fun pid e he => (by cases he)⟩
  · by_cases he : t = "acme"
    · rw [he]
      decide
    · rw [keyWorld, Dynamo.Table.put_item_ne _ _ he] at ht
      cases ht
  · by_cases he : k = hashKey sampleKeyEnv sampleApiKey
    · rw [he, keyWorld, Dynamo.Table.put_item_self] at hk
      cases hk
      rintro t ⟨⟩
      decide
    · rw [keyWorld, Dynamo.Table.put_item_ne _ _ he] at hk
      cases hk

/-- A caller with the key. -/
def keyCaller : List (Move sampleKeyEnv) :=
  .start (.getUserContext 0 (some sampleApiKey) none) :: List.replicate 4 (.act 0 {})

set_option maxRecDepth 10000 in
theorem keyCaller_ends : (Effect.play (.init keyWorld) keyCaller).map (fun c =>
    c.threads.map fun t => t.prog.result) = some [some (.ok ())] := by
  decide +kernel

theorem tenant_isolation_keyCaller : ∃ tr ctx, Steps (amidReachable sampleKeyEnv keyWorld) ()
    (getUserContextWithFallback sampleKeyEnv 0 (some sampleApiKey) none) tr (.ret ctx) () ∧
      OwnTenant sampleKeyEnv (some sampleApiKey) none tr ctx.tenantId ∧
        resolveRulesTenant ctx.tenantId (some "other") = .ok ctx.tenantId := by
  obtain ⟨c, hplay, hprog⟩ := Option.map_eq_some_iff.1 keyCaller_ends
  obtain ⟨tr, q, w, _, rfl⟩ := (Effect.play_alone (P := system sampleKeyEnv)).1
    ⟨List.replicate 4 {}, hplay⟩
  obtain rfl : q = .ret () := Effect.Prog.eq_ofExcept (List.cons.inj hprog).1
  have hs : Ends (amidReachable sampleKeyEnv keyWorld) () ((getUserContextWithFallback sampleKeyEnv 0
      (some sampleApiKey) none).bind fun _ => .ret ()) tr.reverse.reverse (.ok ()) () :=
    handlers_amid hplay _ (List.mem_singleton.2 rfl)
  rcases Effect.ends_bind_iff.1 hs with ⟨_, he, _⟩ | ⟨ctx, _, tr₁, tr₂, h₁, _, _⟩
  · cases he
  obtain ⟨hown, _, _, _, hrules⟩ := (tenant_isolation sampleKeyEnv keyWorld keyWorld_valid 0
    (some sampleApiKey) none).1 tr₁ ctx h₁ fun ⟨_, _, hc, _⟩ => (by cases hc)
  exact ⟨tr₁, ctx, h₁, hown, hrules (some "other")⟩

end DocumentAi.Admin
