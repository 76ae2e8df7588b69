import DocumentAi.Admin.System

/-!
# What one call of the admin system does to the world

| here | meaning |
| --- | --- |
| `exec_cases`    | a call runs, or fails by the environment's choice and changes nothing |
| `exec_frame`    | each store changes by its own requests only |
| `exec_error`    | a failed call changes nothing |
| `exec_onUser`, `exec_putKey`, … | what each write does |
-/

namespace DocumentAi.Admin

namespace Op

def isKeyWrite : Op → Bool
  | putKey .. | updateKey .. | deleteKey _ => true
  | _ => false

def isTenantWrite : Op → Bool
  | putTenant .. | updateTenant .. => true
  | _ => false

def isUserWrite : Op → Bool
  | adminAddUserToGroup .. | adminRemoveUserFromGroup .. | adminUpdateUserAttributes ..
  | adminDeleteUserAttributes _ | adminDeleteUser _ | signUp .. => true
  | _ => false

def isTokenWrite : Op → Bool
  | issueToken _ => true
  | _ => false

/-- Calls on the state of one process. -/
def isProcessOp : Op → Bool
  | cacheGet .. | cacheAdd .. | cacheInvalidate .. | debounce .. | forgetLastUsed ..
  | startLastUsed .. | takeLastUsed .. => true
  | _ => false

end Op

section
variable {w w' : World} {op : Op} {ch : Choice} {ans : sig.Ans op}

/-- The parts of the world that a call leaves alone. -/
structure Frame (op : Op) (w w' : World) : Prop where
  apiKeys   : op.isKeyWrite = false → w'.apiKeys = w.apiKeys
  tenants   : op.isTenantWrite = false → w'.tenants = w.tenants
  users     : op.isUserWrite = false → w'.users = w.users
  tokens    : op.isTokenWrite = false → w'.tokens = w.tokens
  processes : op.isProcessOp = false → w'.processes = w.processes

theorem Frame.refl (op : Op) (w : World) : Frame op w w :=
  ⟨fun _ => rfl, fun _ => rfl, fun _ => rfl, fun _ => rfl, fun _ => rfl⟩

theorem onUser_eq {n : String} {f : CognitoUser → CognitoUser} {r : Except Exc Unit}
    (h : w.onUser n f = (r, w')) : (∃ e, r = .error e ∧ w' = w) ∨
      ∃ u, w.users n = some u ∧ r = .ok () ∧ w' = w.setUser n (some (f u)) := by
  unfold World.onUser at h
  split at h
  next u hu =>
    cases h
    exact .inr ⟨u, hu, rfl, rfl⟩
  next =>
    cases h
    exact .inl ⟨_, rfl, rfl⟩

theorem frame_setUser {n : String} {u : Option CognitoUser} (h : op.isUserWrite = true) :
    Frame op w (w.setUser n u) :=
  ⟨fun _ => rfl, fun _ => rfl, fun h' => (by rw [h] at h'; cases h'), fun _ => rfl, fun _ => rfl⟩

theorem frame_setProcess {pid : Nat} {p : Process} (h : op.isProcessOp = true) :
    Frame op w (w.setProcess pid p) :=
  ⟨fun _ => rfl, fun _ => rfl, fun _ => rfl, fun _ => rfl, fun h' => (by rw [h] at h'; cases h')⟩

theorem run_frame (h : w.run ch op = some (ans, w')) : Frame op w w' := by
  cases op with
  | putKey k it | deleteKey k | putTenant t it | putAuditEvent e =>
    cases h
    refine ⟨?_, ?_, ?_, ?_, ?_⟩ <;> intro h
    all_goals first | rfl | cases h
  | updateKey k u | updateTenant t u cl =>
    simp only [World.run, World.raise] at h
    split at h <;> cases h
    · refine ⟨?_, ?_, ?_, ?_, ?_⟩ <;> intro h
      all_goals first | rfl | cases h
    · exact .refl _ _
  | adminAddUserToGroup n g | adminRemoveUserFromGroup n g | adminUpdateUserAttributes n t
  | adminDeleteUserAttributes n =>
    rcases onUser_eq (Option.some.inj h) with ⟨_, _, rfl⟩ | ⟨_, _, _, rfl⟩
    · exact .refl _ _
    · exact frame_setUser rfl
  | adminDeleteUser n | signUp n e s =>
    simp only [World.run, World.raise] at h
    split at h <;> cases h
    all_goals first | exact frame_setUser rfl | exact .refl _ _
  | issueToken n =>
    simp only [World.run, World.raise] at h
    split at h
    · cases h
    · split at h <;> cases h
      · exact ⟨fun _ => rfl, fun _ => rfl, fun _ => rfl, fun h => (by cases h), fun _ => rfl⟩
      · exact .refl _ _
  | cacheGet p k | cacheAdd p k v t | cacheInvalidate p k | debounce p k | forgetLastUsed p k
  | startLastUsed p k =>
    cases h
    exact frame_setProcess rfl
  | takeLastUsed p i =>
    obtain ⟨_, _, h⟩ := Option.map_eq_some_iff.1 h
    cases h
    exact frame_setProcess rfl
  | tokenUrlsafe =>
    simp only [World.run] at h
    split at h <;> cases h
    exact ⟨fun _ => rfl, fun _ => rfl, fun _ => rfl, fun _ => rfl, fun _ => rfl⟩
  | adminListGroupsForUser n | decodeAndVerify t =>
    simp only [World.run, World.ok, World.raise] at h
    split at h <;> cases h
    all_goals exact .refl _ _
  | getKey | scanKeys | queryKeysByTenant | getTenant | now =>
    cases h
    exact .refl _ _

/-- A call either runs, or fails by the environment's choice. -/
theorem exec_cases (h : w.exec op ch = some (ans, w')) :
    w.run ch op = some (ans, w') ∨
      ∃ e, ch.fail = some e ∧ World.isLocal op = false ∧ ans = .error e ∧ w' = w := by
  unfold World.exec at h
  split at h
  next e he =>
    split at h
    · exact .inl h
    next hl =>
      obtain ⟨rfl, rfl⟩ : Except.error e = ans ∧ w = w' := by simpa [World.raise] using h
      exact .inr ⟨e, he, by simpa using hl, rfl, rfl⟩
  next => exact .inl h

theorem exec_frame (h : w.exec op ch = some (ans, w')) : Frame op w w' := by
  rcases exec_cases h with h | ⟨_, _, _, _, rfl⟩
  · exact run_frame h
  · exact .refl _ _

end

/-! ## Cognito -/

section
variable {w w' : World} {op : Op} {ch : Choice} {n g t : String}

@[simp] theorem setUser_self (w : World) (n : String) (u : Option CognitoUser) :
    (w.setUser n u).users n = u := Function.update_self ..

theorem setUser_ne (w : World) {n m : String} (u : Option CognitoUser) (h : m ≠ n) :
    (w.setUser n u).users m = w.users m := dif_neg h

theorem exec_removeUserFromGroup {ans : sig.Ans (.adminRemoveUserFromGroup n g)}
    (h : w.exec (.adminRemoveUserFromGroup n g) ch = some (ans, w')) :
    (∃ e, ans = .error e ∧ w' = w) ∨ ∃ u, w.users n = some u ∧ ans = .ok () ∧
      w' = w.setUser n (some { u with groups := u.groups.filter (· != g) }) := by
  rcases exec_cases h with h | ⟨e, _, _, rfl, rfl⟩
  · exact onUser_eq (Option.some.inj h)
  · exact .inl ⟨e, rfl, rfl⟩

theorem exec_addUserToGroup {ans : sig.Ans (.adminAddUserToGroup n g)}
    (h : w.exec (.adminAddUserToGroup n g) ch = some (ans, w')) :
    (∃ e, ans = .error e ∧ w' = w) ∨ ∃ u, w.users n = some u ∧ ans = .ok () ∧
      w' = w.setUser n (some
        { u with groups := if g ∈ u.groups then u.groups else u.groups ++ [g] }) := by
  rcases exec_cases h with h | ⟨e, _, _, rfl, rfl⟩
  · exact onUser_eq (Option.some.inj h)
  · exact .inl ⟨e, rfl, rfl⟩

theorem exec_updateUserAttributes {ans : sig.Ans (.adminUpdateUserAttributes n t)}
    (h : w.exec (.adminUpdateUserAttributes n t) ch = some (ans, w')) :
    (∃ e, ans = .error e ∧ w' = w) ∨ ∃ u, w.users n = some u ∧ ans = .ok () ∧
      w' = w.setUser n (some { u with tenantId := some t }) := by
  rcases exec_cases h with h | ⟨e, _, _, rfl, rfl⟩
  · exact onUser_eq (Option.some.inj h)
  · exact .inl ⟨e, rfl, rfl⟩

theorem exec_deleteUserAttributes {ans : sig.Ans (.adminDeleteUserAttributes n)}
    (h : w.exec (.adminDeleteUserAttributes n) ch = some (ans, w')) :
    (∃ e, ans = .error e ∧ w' = w) ∨ ∃ u, w.users n = some u ∧ ans = .ok () ∧
      w' = w.setUser n (some { u with tenantId := none }) := by
  rcases exec_cases h with h | ⟨e, _, _, rfl, rfl⟩
  · exact onUser_eq (Option.some.inj h)
  · exact .inl ⟨e, rfl, rfl⟩

theorem exec_deleteUser {ans : sig.Ans (.adminDeleteUser n)}
    (h : w.exec (.adminDeleteUser n) ch = some (ans, w')) :
    (∃ e, ans = .error e ∧ w' = w) ∨ ans = .ok () ∧ w' = w.setUser n none := by
  rcases exec_cases h with h | ⟨e, _, _, rfl, rfl⟩
  · simp only [World.run, World.raise] at h
    split at h
    · obtain ⟨rfl, rfl⟩ := Prod.mk.inj (Option.some.inj h)
      exact .inr ⟨rfl, rfl⟩
    · obtain ⟨rfl, rfl⟩ := Prod.mk.inj (Option.some.inj h)
      exact .inl ⟨_, rfl, rfl⟩
  · exact .inl ⟨e, rfl, rfl⟩

theorem exec_signUp {email : Option String} {sub : String} {ans : sig.Ans (.signUp n email sub)}
    (h : w.exec (.signUp n email sub) ch = some (ans, w')) :
    (∃ e, ans = .error e ∧ w' = w) ∨ ans = .ok () ∧ w' = w.setUser n (some { email, sub }) := by
  rcases exec_cases h with h | ⟨e, _, _, rfl, rfl⟩
  · simp only [World.run, World.raise] at h
    split at h
    · obtain ⟨rfl, rfl⟩ := Prod.mk.inj (Option.some.inj h)
      exact .inl ⟨_, rfl, rfl⟩
    · obtain ⟨rfl, rfl⟩ := Prod.mk.inj (Option.some.inj h)
      exact .inr ⟨rfl, rfl⟩
  · exact .inl ⟨e, rfl, rfl⟩

theorem exec_listGroupsForUser {ans : sig.Ans (.adminListGroupsForUser n)}
    (h : w.exec (.adminListGroupsForUser n) ch = some (ans, w')) :
    (∃ e, ans = .error e ∧ w' = w) ∨
      ∃ u, w.users n = some u ∧ ans = .ok u.groups ∧ w' = w := by
  rcases exec_cases h with h | ⟨e, _, _, rfl, rfl⟩
  · simp only [World.run, World.ok, World.raise] at h
    split at h
    next u hu =>
      cases h
      exact .inr ⟨u, hu, rfl, rfl⟩
    next =>
      cases h
      exact .inl ⟨_, rfl, rfl⟩
  · exact .inl ⟨e, rfl, rfl⟩

end

/-! ## Stores -/

section
variable {w w' : World} {ch : Choice} {k t : String}

theorem exec_getKey {ans : sig.Ans (.getKey k)} (h : w.exec (.getKey k) ch = some (ans, w')) :
    w' = w ∧ (ans = .ok (w.apiKeys.item k) ∨ ∃ e, ch.fail = some e ∧ ans = .error e) := by
  rcases exec_cases h with h | ⟨e, he, _, rfl, rfl⟩
  · obtain ⟨rfl, rfl⟩ := Prod.mk.inj (Option.some.inj h)
    exact ⟨rfl, .inl rfl⟩
  · exact ⟨rfl, .inr ⟨e, he, rfl⟩⟩

theorem exec_putKey {it : KeyRecord} {ans : sig.Ans (.putKey k it)}
    (h : w.exec (.putKey k it) ch = some (ans, w')) :
    (ans = .ok () ∧ w' = { w with apiKeys := w.apiKeys.put k it }) ∨
      ∃ e, ch.fail = some e ∧ ans = .error e ∧ w' = w := by
  rcases exec_cases h with h | ⟨e, he, _, rfl, rfl⟩
  · obtain ⟨rfl, rfl⟩ := Prod.mk.inj (Option.some.inj h)
    exact .inl ⟨rfl, rfl⟩
  · exact .inr ⟨e, he, rfl, rfl⟩

theorem exec_deleteKey {ans : sig.Ans (.deleteKey k)}
    (h : w.exec (.deleteKey k) ch = some (ans, w')) :
    (ans = .ok () ∧ w' = { w with apiKeys := w.apiKeys.delete k }) ∨
      ∃ e, ch.fail = some e ∧ ans = .error e ∧ w' = w := by
  rcases exec_cases h with h | ⟨e, he, _, rfl, rfl⟩
  · obtain ⟨rfl, rfl⟩ := Prod.mk.inj (Option.some.inj h)
    exact .inl ⟨rfl, rfl⟩
  · exact .inr ⟨e, he, rfl, rfl⟩

/-- The record of `k`, or the empty item an update starts from. -/
def World.keyRecord (w : World) (k : String) : KeyRecord := (w.apiKeys.item k).getD fun _ => none

theorem exec_updateKey {u : Dynamo.Update ApiKeyRecord.schema} {ans : sig.Ans (.updateKey k u)}
    (h : w.exec (.updateKey k u) ch = some (ans, w')) :
    (∃ it, ans = .ok () ∧ u.apply (w.keyRecord k) = .ok it ∧
      w' = { w with apiKeys := w.apiKeys.put k it }) ∨ ∃ e, ans = .error e ∧ w' = w := by
  rcases exec_cases h with h | ⟨e, _, _, rfl, rfl⟩
  · simp only [World.run, World.raise] at h
    split at h
    next apiKeys hu =>
      obtain ⟨it, hit, rfl⟩ := Dynamo.Table.update_eq_ok hu
      obtain ⟨rfl, rfl⟩ := Prod.mk.inj (Option.some.inj h)
      exact .inl ⟨it, rfl, hit, rfl⟩
    next =>
      obtain ⟨rfl, rfl⟩ := Prod.mk.inj (Option.some.inj h)
      exact .inr ⟨_, rfl, rfl⟩
  · exact .inr ⟨e, rfl, rfl⟩

theorem exec_getTenant {ans : sig.Ans (.getTenant t)}
    (h : w.exec (.getTenant t) ch = some (ans, w')) :
    w' = w ∧ (ans = .ok (w.tenants.item t) ∨ ∃ e, ch.fail = some e ∧ ans = .error e) := by
  rcases exec_cases h with h | ⟨e, he, _, rfl, rfl⟩
  · obtain ⟨rfl, rfl⟩ := Prod.mk.inj (Option.some.inj h)
    exact ⟨rfl, .inl rfl⟩
  · exact ⟨rfl, .inr ⟨e, he, rfl⟩⟩

theorem exec_putTenant {it : TenantItem} {ans : sig.Ans (.putTenant t it)}
    (h : w.exec (.putTenant t it) ch = some (ans, w')) :
    (ans = .ok () ∧ w' = { w with tenants := w.tenants.put t it }) ∨
      ∃ e, ch.fail = some e ∧ ans = .error e ∧ w' = w := by
  rcases exec_cases h with h | ⟨e, he, _, rfl, rfl⟩
  · obtain ⟨rfl, rfl⟩ := Prod.mk.inj (Option.some.inj h)
    exact .inl ⟨rfl, rfl⟩
  · exact .inr ⟨e, he, rfl, rfl⟩

/-- The record of tenant `t`, or the empty item an update starts from. -/
def World.tenantItem (w : World) (t : String) : TenantItem := (w.tenants.item t).getD fun _ => none

theorem exec_updateTenant {u : Dynamo.Update TenantRecord.schema} {cl : List TenantRecord}
    {ans : sig.Ans (.updateTenant t u cl)}
    (h : w.exec (.updateTenant t u cl) ch = some (ans, w')) :
    (∃ it, ans = .ok () ∧ u.apply (w.tenantItem t) = .ok it ∧
      w' = { w with tenants := w.tenants.put t (it.without cl) }) ∨
      ∃ e, ans = .error e ∧ w' = w := by
  rcases exec_cases h with h | ⟨e, _, _, rfl, rfl⟩
  · simp only [World.run, World.raise] at h
    split at h
    next tenants hu =>
      obtain ⟨it, hit, rfl⟩ := Dynamo.Table.updateRemoving_eq_ok hu
      obtain ⟨rfl, rfl⟩ := Prod.mk.inj (Option.some.inj h)
      exact .inl ⟨it, rfl, hit, rfl⟩
    next =>
      obtain ⟨rfl, rfl⟩ := Prod.mk.inj (Option.some.inj h)
      exact .inr ⟨_, rfl, rfl⟩
  · exact .inr ⟨e, rfl, rfl⟩

theorem exec_queryKeysByTenant {name : Option String} {ans : sig.Ans (.queryKeysByTenant t name)}
    (h : w.exec (.queryKeysByTenant t name) ch = some (ans, w')) :
    w' = w ∧ (ans = .ok (w.apiKeys.query fun (it : KeyRecord) =>
      it.tenantId == some t && name.all fun n => it.apiKeyName == some n) ∨
        ∃ e, ch.fail = some e ∧ ans = .error e) := by
  rcases exec_cases h with h | ⟨e, he, _, rfl, rfl⟩
  · obtain ⟨rfl, rfl⟩ := Prod.mk.inj (Option.some.inj h)
    exact ⟨rfl, .inl rfl⟩
  · exact ⟨rfl, .inr ⟨e, he, rfl⟩⟩

theorem exec_issueToken {n : String} {ans : sig.Ans (.issueToken n)}
    (h : w.exec (.issueToken n) ch = some (ans, w')) :
    (∃ u, w.users n = some u ∧ ans = .ok ch.fresh ∧ ch.fresh ∉ w.tokens.map (·.1) ∧
      w' = { w with tokens := (ch.fresh, Claims.ofUser n u ch.accessToken) :: w.tokens }) ∨
      ∃ e, ans = .error e ∧ w' = w := by
  rcases exec_cases h with h | ⟨e, _, _, rfl, rfl⟩
  · simp only [World.run, World.raise] at h
    split at h
    · cases h
    next hfresh =>
      split at h
      next u hu =>
        obtain ⟨rfl, rfl⟩ := Prod.mk.inj (Option.some.inj h)
        exact .inl ⟨u, hu, rfl, hfresh, rfl⟩
      next =>
        obtain ⟨rfl, rfl⟩ := Prod.mk.inj (Option.some.inj h)
        exact .inr ⟨_, rfl, rfl⟩
  · exact .inr ⟨e, rfl, rfl⟩

theorem exec_decodeAndVerify {token : String} {ans : sig.Ans (.decodeAndVerify token)}
    (h : w.exec (.decodeAndVerify token) ch = some (ans, w')) :
    w' = w ∧ ((∃ claims, w.tokens.lookup token = some claims ∧ ans = .ok claims) ∨
      ∃ e, ans = .error e) := by
  rcases exec_cases h with h | ⟨e, _, _, rfl, rfl⟩
  · simp only [World.run, World.ok, World.raise] at h
    split at h
    next claims hc =>
      obtain ⟨rfl, rfl⟩ := Prod.mk.inj (Option.some.inj h)
      exact ⟨rfl, .inl ⟨claims, hc, rfl⟩⟩
    next =>
      obtain ⟨rfl, rfl⟩ := Prod.mk.inj (Option.some.inj h)
      exact ⟨rfl, .inr ⟨_, rfl⟩⟩
  · exact ⟨rfl, .inr ⟨e, rfl⟩⟩

end

/-! ## One process -/

section
variable {w w' : World} {ch : Choice} {pid : Nat} {k : String}

theorem exec_local {op : Op} {ans : sig.Ans op} (hl : World.isLocal op = true)
    (h : w.exec op ch = some (ans, w')) : w.run ch op = some (ans, w') := by
  rcases exec_cases h with h | ⟨_, _, hl', _⟩
  · exact h
  · rw [hl] at hl'
    cases hl'

@[simp] theorem setProcess_self (w : World) (pid : Nat) (p : Process) :
    (w.setProcess pid p).processes pid = p := Function.update_self ..

theorem setProcess_ne (w : World) {pid q : Nat} (p : Process) (h : q ≠ pid) :
    (w.setProcess pid p).processes q = w.processes q := dif_neg h

theorem exec_cacheGet {ans : sig.Ans (.cacheGet pid k)}
    (h : w.exec (.cacheGet pid k) ch = some (ans, w')) :
    ans = .ok ((w.processes pid).cacheGet k ch.now).1 ∧
      w' = w.setProcess pid ((w.processes pid).cacheGet k ch.now).2 := by
  obtain ⟨rfl, rfl⟩ := Prod.mk.inj (Option.some.inj (exec_local rfl h))
  exact ⟨rfl, rfl⟩

theorem exec_cacheAdd {it : KeyRecord} {ttl : Nat} {ans : sig.Ans (.cacheAdd pid k it ttl)}
    (h : w.exec (.cacheAdd pid k it ttl) ch = some (ans, w')) :
    ans = .ok () ∧ w' = w.setProcess pid ((w.processes pid).cacheAdd k it ttl ch.now) := by
  obtain ⟨rfl, rfl⟩ := Prod.mk.inj (Option.some.inj (exec_local rfl h))
  exact ⟨rfl, rfl⟩

theorem exec_cacheInvalidate {ans : sig.Ans (.cacheInvalidate pid k)}
    (h : w.exec (.cacheInvalidate pid k) ch = some (ans, w')) :
    ans = .ok () ∧ w' = w.setProcess pid ((w.processes pid).cacheInvalidate k) := by
  obtain ⟨rfl, rfl⟩ := Prod.mk.inj (Option.some.inj (exec_local rfl h))
  exact ⟨rfl, rfl⟩

theorem exec_debounce {ans : sig.Ans (.debounce pid k)}
    (h : w.exec (.debounce pid k) ch = some (ans, w')) :
    ans = .ok ((w.processes pid).debounce k ch.monotonic).1 ∧
      w' = w.setProcess pid ((w.processes pid).debounce k ch.monotonic).2 := by
  have hrun := exec_local rfl h
  unfold World.run at hrun
  obtain ⟨rfl, rfl⟩ := Prod.mk.inj (Option.some.inj hrun)
  exact ⟨rfl, rfl⟩

theorem debounce_cache (p : Process) (seconds : Nat) : (p.debounce k seconds).2.cache = p.cache := by
  unfold Process.debounce
  simp only
  split <;> rfl

/-- What `Cache.get` answers is in the cache, and it adds nothing. -/
theorem cacheGet_eq_some {p : Process} {now : Timestamp} {it : KeyRecord}
    (h : (p.cacheGet k now).1 = some it) : ∃ e, (k, e) ∈ p.cache ∧ e.value = it ∧ now ≤ e.expiresAt := by
  unfold Process.cacheGet at h
  split at h
  · cases h
  next e he =>
    split at h
    · cases h
    next hexp =>
      obtain ⟨l₁, l₂, hl, _⟩ := List.lookup_eq_some_iff.1 he
      refine ⟨e, ?_, Option.some.inj h, Nat.le_of_not_lt hexp⟩
      rw [hl]
      exact List.mem_append_right _ List.mem_cons_self

theorem cacheGet_cache_subset (p : Process) (now : Timestamp) :
    ∀ e ∈ (p.cacheGet k now).2.cache, e ∈ p.cache := by
  unfold Process.cacheGet
  split
  · exact fun _ h => h
  · split
    · exact fun e h => List.mem_of_mem_filter h
    · exact fun _ h => h

/-- The calls on a process other than `cacheAdd` only take entries out of a cache. -/
theorem exec_cache_subset {op : Op} {ans : sig.Ans op} (h : w.exec op ch = some (ans, w'))
    (hop : ∀ pid k it ttl, op ≠ .cacheAdd pid k it ttl) (q : Nat) :
    ∀ e ∈ (w'.processes q).cache, e ∈ (w.processes q).cache := by
  have hset : ∀ (pid : Nat) (p : Process), (∀ e ∈ p.cache, e ∈ (w.processes pid).cache) →
      ∀ e ∈ ((w.setProcess pid p).processes q).cache, e ∈ (w.processes q).cache := by
    intro pid p hp e he
    by_cases hq : q = pid
    · subst hq
      rw [setProcess_self] at he
      exact hp e he
    · rw [setProcess_ne _ _ hq] at he
      exact he
  by_cases hproc : op.isProcessOp = true
  · cases op with
    | cacheGet pid k =>
      obtain ⟨_, rfl⟩ := exec_cacheGet h
      exact hset pid _ (cacheGet_cache_subset _ _)
    | cacheAdd pid k it ttl => exact absurd rfl (hop pid k it ttl)
    | cacheInvalidate pid k =>
      obtain ⟨_, rfl⟩ := exec_cacheInvalidate h
      exact hset pid _ fun e he => List.mem_of_mem_filter he
    | debounce pid k =>
      obtain ⟨_, rfl⟩ := exec_debounce h
      refine hset pid _ fun e he => ?_
      rwa [debounce_cache] at he
    | forgetLastUsed pid k | startLastUsed pid k =>
      obtain ⟨_, rfl⟩ := Prod.mk.inj (Option.some.inj (exec_local rfl h))
      exact hset pid _ fun e he => he
    | takeLastUsed pid i =>
      obtain ⟨_, _, hx⟩ := Option.map_eq_some_iff.1 (exec_local rfl h)
      obtain ⟨_, rfl⟩ := Prod.mk.inj hx
      exact hset pid _ fun e he => he
    | _ => cases hproc
  · rw [(exec_frame h).processes (Bool.eq_false_iff.2 hproc)]
    exact fun e he => he

end

end DocumentAi.Admin
