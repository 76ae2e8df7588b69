import DocumentAi.Admin.Exec

/-!
# Role and tenant of a user over sequences of requests

| here | meaning |
| --- | --- |
| `RoleTenantConsistent`  | a super-admin and a pending user have no tenant, a tenant-admin has one |
| `removesRole`, `addsRole`, `writesTenant` | the Cognito writes of a request that succeeded |
| `KeepsRoleTenant`       | when a request keeps every user consistent |
-/

namespace DocumentAi.Admin

open Effect (Event Ends Steps ends_bind_iff ends_tryCatch_iff ends_perform_iff ends_ret_iff
  ends_raise_iff Served Serves EachServed)
open Effect.Prog (Spec All spec_bind spec_tryCatch spec_perform spec_ite all_bind all_perform)

/-! ## Consistent users -/

def CognitoUser.isPending (u : CognitoUser) : Bool := u.groups.all (· ∉ ROLE_GROUPS)

structure RoleTenantConsistent (u : CognitoUser) : Prop where
  unscoped : SUPER_ADMIN_GROUP ∈ u.groups ∨ u.isPending = true → u.tenantId = none
  assigned : TENANT_ADMIN ∈ u.groups → nonEmpty u.tenantId ≠ none

/-- Every user of the pool is consistent. -/
def UsersConsistent (w : World) : Prop :=
  ∀ n u, w.users n = some u → RoleTenantConsistent u

/-- The user is a tenant-admin. -/
def isScoped (w : World) (n : String) : Bool := (w.users n).any fun u => TENANT_ADMIN ∈ u.groups

/-! ## What a request has written -/

def removesRole : Event sig → Bool
  | ⟨.adminRemoveUserFromGroup .., .ok _⟩ => true
  | _ => false

def addsRole : Event sig → Bool
  | ⟨.adminAddUserToGroup .., .ok _⟩ => true
  | _ => false

def writesTenant : Event sig → Bool
  | ⟨.adminUpdateUserAttributes .., .ok _⟩ | ⟨.adminDeleteUserAttributes _, .ok _⟩ => true
  | _ => false

/-- A role change that was cut off before its tenant write keeps the user consistent: with the new
group added, exactly when both or neither of the roles is scoped; with the old group removed, when
that was not the scoped one. -/
def CutOffKeeps (w : World) (n : String) (role : Option Role) (tr : List (Event sig)) : Prop :=
  if tr.any addsRole then (role = some .tenantAdmin ↔ isScoped w n = true)
  else tr.any removesRole = true → isScoped w n = false

instance (w : World) (n : String) (role : Option Role) (tr : List (Event sig)) :
    Decidable (CutOffKeeps w n role tr) := by unfold CutOffKeeps; infer_instance

/-- When a request keeps every user consistent: by its body, the user's role before it, and which of
its Cognito calls succeeded. -/
def KeepsRoleTenant (w : World) : Entry → List (Event sig) → Prop
  | .approveUser _ n body, tr =>
    if tr.any writesTenant then body.role = .superAdmin → nonEmpty body.tenantId = none
    else CutOffKeeps w n (some body.role) tr
  | .changeRole _ n body, tr => tr.any writesTenant = true ∨ CutOffKeeps w n body.role tr
  | .changeTenant _ n body, tr =>
    tr.any writesTenant = true → (isScoped w n = true ↔ nonEmpty body.tenantId ≠ none)
  | _, _ => True

instance (w : World) (e : Entry) (tr : List (Event sig)) : Decidable (KeepsRoleTenant w e tr) := by
  cases e <;> (unfold KeepsRoleTenant; infer_instance)

/-- The requests that change a role or a tenant. -/
def IsRoleRequest : Entry → Prop
  | .approveUser .. | .changeRole .. | .changeTenant .. => True
  | _ => False

/-! ## Roles of a consistent user -/

section
variable {u : CognitoUser} {w : World} {n : String}

/-- The role groups among `gs` are those of `role`. -/
def HasRole (gs : List String) (role : Option Role) : Prop :=
  ∀ g ∈ ROLE_GROUPS, g ∈ gs ↔ role.map Role.name = some g

theorem HasRole.unique {gs : List String} {role role' : Option Role} (h : HasRole gs role)
    (h' : HasRole gs role') : role = role' := by
  have hsuper := (h SUPER_ADMIN_GROUP (by decide)).symm.trans (h' _ (by decide))
  have htenant := (h TENANT_ADMIN (by decide)).symm.trans (h' _ (by decide))
  rcases role with _ | _ | _ <;> rcases role' with _ | _ | _ <;>
    first | rfl | exact absurd hsuper (by decide) | exact absurd htenant (by decide)

theorem consistent_of_hasRole {role : Option Role} (h : HasRole u.groups role) :
    RoleTenantConsistent u ↔
      if role = some .tenantAdmin then nonEmpty u.tenantId ≠ none else u.tenantId = none := by
  have hsuper : SUPER_ADMIN_GROUP ∈ u.groups ↔ role.map Role.name = some SUPER_ADMIN_GROUP :=
    h _ (by decide)
  have htenant : TENANT_ADMIN ∈ u.groups ↔ role.map Role.name = some TENANT_ADMIN :=
    h _ (by decide)
  have hpending : u.isPending = true ↔ role = none := by
    constructor
    · intro hp
      cases role with
      | none => rfl
      | some ρ =>
        have hmem : ρ.name ∈ ROLE_GROUPS := by cases ρ <;> decide
        have hnot := List.all_eq_true.1 hp ρ.name ((h _ hmem).2 rfl)
        exact absurd hmem (of_decide_eq_true hnot)
    · rintro rfl
      refine List.all_eq_true.2 fun g hg => decide_eq_true fun hmem => ?_
      cases (h g hmem).1 hg
  constructor
  · rintro ⟨hun, has⟩
    rcases role with _ | _ | _
    · rw [if_neg (by decide)]
      exact hun (.inr (hpending.2 rfl))
    · rw [if_neg (by decide)]
      exact hun (.inl (hsuper.2 rfl))
    · rw [if_pos rfl]
      exact has (htenant.2 rfl)
  · intro hc
    refine ⟨?_, ?_⟩
    · rintro (hs | hp)
      · rcases role with _ | _ | _
        · cases hsuper.1 hs
        · rwa [if_neg (by decide)] at hc
        · exact absurd (hsuper.1 hs) (by decide)
      · cases hpending.1 hp
        rwa [if_neg (by decide)] at hc
    · intro ht
      rcases role with _ | _ | _
      · cases htenant.1 ht
      · exact absurd (htenant.1 ht) (by decide)
      · rwa [if_pos rfl] at hc

/-- No user is in both role groups. -/
theorem RoleTenantConsistent.hasRole (h : RoleTenantConsistent u) : ∃ role, HasRole u.groups role := by
  by_cases hs : SUPER_ADMIN_GROUP ∈ u.groups
  · have hnone := h.unscoped (.inl hs)
    have ht : TENANT_ADMIN ∉ u.groups := by
      intro ht
      exact h.assigned ht (by rw [hnone]; rfl)
    refine ⟨some .superAdmin, fun g hg => ?_⟩
    rcases List.mem_cons.1 hg with rfl | hg
    · exact ⟨fun _ => rfl, fun _ => hs⟩
    · cases List.mem_singleton.1 hg
      exact ⟨fun hg => absurd hg ht, fun hg => absurd hg (by decide)⟩
  · by_cases ht : TENANT_ADMIN ∈ u.groups
    · refine ⟨some .tenantAdmin, fun g hg => ?_⟩
      rcases List.mem_cons.1 hg with rfl | hg
      · exact ⟨fun hg => absurd hg hs, fun hg => absurd hg (by decide)⟩
      · cases List.mem_singleton.1 hg
        exact ⟨fun _ => rfl, fun _ => ht⟩
    · refine ⟨none, fun g hg => ?_⟩
      rcases List.mem_cons.1 hg with rfl | hg
      · exact ⟨fun hg => absurd hg hs, fun hg => (by cases hg)⟩
      · cases List.mem_singleton.1 hg
        exact ⟨fun hg => absurd hg ht, fun hg => (by cases hg)⟩

theorem isScoped_eq (hu : w.users n = some u) :
    isScoped w n = decide (TENANT_ADMIN ∈ u.groups) := by
  rw [isScoped, hu]
  rfl

/-- A consistent user is a tenant-admin exactly when it has a tenant. -/
theorem RoleTenantConsistent.isScoped_iff (h : RoleTenantConsistent u)
    (hu : w.users n = some u) : isScoped w n = true ↔ nonEmpty u.tenantId ≠ none := by
  obtain ⟨role, hrole⟩ := h.hasRole
  have hmem : TENANT_ADMIN ∈ u.groups ↔ role = some .tenantAdmin := by
    rw [hrole _ (by decide)]
    rcases role with _ | _ | _ <;> decide
  have hc := (consistent_of_hasRole hrole).1 h
  rw [isScoped_eq hu, decide_eq_true_iff, hmem]
  constructor
  · intro hr
    rwa [if_pos hr] at hc
  · intro ht
    by_contra hr
    rw [if_neg hr] at hc
    rw [hc] at ht
    exact ht rfl

theorem RoleTenantConsistent.not_isScoped_iff (h : RoleTenantConsistent u)
    (hu : w.users n = some u) : isScoped w n = false ↔ u.tenantId = none := by
  obtain ⟨role, hrole⟩ := h.hasRole
  have hc := (consistent_of_hasRole hrole).1 h
  rw [← Bool.not_eq_true, h.isScoped_iff hu, not_not]
  constructor
  · intro ht
    by_cases hr : role = some .tenantAdmin
    · rw [if_pos hr] at hc
      exact absurd ht hc
    · rwa [if_neg hr] at hc
  · intro ht
    rw [ht]
    rfl

end

/-! ## Runs that write no user -/

/-- Calls that write no user. -/
def Bystander (op : Op) : Prop := op.isUserWrite = false

/-- No call of the trace has written a role or a tenant. -/
structure NoUserWrite (tr : List (Event sig)) : Prop where
  removed : tr.any removesRole = false
  added   : tr.any addsRole = false
  tenant  : tr.any writesTenant = false

theorem noUserWrite_nil : NoUserWrite [] := ⟨rfl, rfl, rfl⟩

theorem NoUserWrite.cons {ev : Event sig} {tr : List (Event sig)} (h : Bystander ev.op)
    (ht : NoUserWrite tr) : NoUserWrite (ev :: tr) := by
  have hev : removesRole ev = false ∧ addsRole ev = false ∧ writesTenant ev = false := by
    obtain ⟨op, ans⟩ := ev
    cases op <;> first | exact ⟨rfl, rfl, rfl⟩ | cases h
  obtain ⟨h₁, h₂, h₃⟩ := hev
  exact ⟨by rw [List.any_cons, h₁, ht.removed]; rfl, by rw [List.any_cons, h₂, ht.added]; rfl,
    by rw [List.any_cons, h₃, ht.tenant]; rfl⟩

section
variable {env : KeyEnv} {α : Type} {w w' : World} {tr : List (Event sig)}

theorem bystander_steps {p q : Prog α} (hp : All Bystander p)
    (h : Steps (system env) w p tr q w') : w'.users = w.users ∧ NoUserWrite tr := by
  refine h.relate (R := fun (w : World) tr (w' : World) => w'.users = w.users ∧ NoUserWrite tr)
    (fun _ => ⟨rfl, noUserWrite_nil⟩) ?_ hp
  intro w w₁ w' op ch ans tr hop hx hrest
  exact ⟨hrest.1.trans ((exec_frame hx).users hop), hrest.2.cons hop⟩

theorem bystander_call {op : Op} (h : Bystander op) : All Bystander (call op) := all_perform h

theorem bystander_ofExcept (r : Except Exc α) : All Bystander (Effect.Prog.ofExcept (S := sig) r) := by
  cases r <;> trivial

theorem bystander_verifyJwt (credentials : Option String) :
    All Bystander (verifyJwt credentials) := by
  unfold verifyJwt
  split
  · trivial
  · refine spec_tryCatch (bystander_call rfl) fun e => ?_
    split <;> trivial

theorem bystander_verifyJwtWithSuperAdmin (credentials : Option String) :
    All Bystander (verifyJwtWithSuperAdmin credentials) :=
  all_bind (bystander_verifyJwt credentials) fun _ => all_bind (bystander_ofExcept _) fun _ => trivial

theorem bystander_requireTenant (t : Option String) : All Bystander (requireTenant t) := by
  unfold requireTenant
  split
  · trivial
  · refine all_bind (bystander_call rfl) fun r => ?_
    cases r <;> trivial

theorem bystander_logEvent (claims : Claims) (action targetType targetId : String)
    (t : Option String) : All Bystander (logEvent claims action targetType targetId t) := by
  refine spec_tryCatch (all_bind (bystander_call rfl) fun _ => ?_) fun _ => trivial
  exact spec_ite (bystander_call rfl) trivial

end

/-! ## `replace_role` and `set_tenant` -/

section
variable {env : KeyEnv} {w w' : World} {n : String} {u : CognitoUser} {tr : List (Event sig)}
  {r : Except Exc Unit}

theorem update_users_self (hu : w.users n = some u) :
    Function.update w.users n (some u) = w.users := by
  rw [← hu]
  exact Function.update_eq_self n w.users

theorem removeRoleGroup_of_mem {g : String} (h : g ∈ ROLE_GROUPS) :
    removeRoleGroup n g = call (.adminRemoveUserFromGroup n g) := if_pos h

theorem removeRoleGroup_of_not_mem {g : String} (h : g ∉ ROLE_GROUPS) :
    removeRoleGroup n g = .ret () := if_neg h

/-- The loop of `replace_role` over `gs`, in which `ρ` is the only role group. -/
theorem removeRoleGroups_ends {ρ : String} {gs : List String} (hu : w.users n = some u)
    (hρ : ∀ g ∈ gs, g ∈ ROLE_GROUPS → g = ρ)
    (h : Ends (system env) w (Effect.Prog.forEach (removeRoleGroup n) gs) tr r w') :
    tr.any addsRole = false ∧ tr.any writesTenant = false ∧
      w'.users = Function.update w.users n (some { u with
        groups := if tr.any removesRole then u.groups.filter (· != ρ) else u.groups }) ∧
      (r = .ok () → tr.any removesRole = false → ∀ g ∈ gs, g ∉ ROLE_GROUPS) := by
  induction gs generalizing w u tr with
  | nil =>
    obtain ⟨rfl, rfl, rfl⟩ := ends_ret_iff.1 h
    refine ⟨rfl, rfl, ?_, fun _ _ _ hg => (by cases hg)⟩
    exact (update_users_self hu).symm
  | cons g gs ih =>
    obtain ⟨hg, hgs⟩ := List.forall_mem_cons.1 hρ
    rw [Effect.Prog.forEach] at h
    by_cases hrole : g ∈ ROLE_GROUPS
    · obtain rfl := hg hrole
      rw [removeRoleGroup_of_mem hrole] at h
      rcases ends_bind_iff.1 h with ⟨e, rfl, he⟩ | ⟨_, w₁, tr₁, tr₂, h₁, h₂, rfl⟩
      · -- the removal failed
        obtain ⟨ch, hx, rfl⟩ := ends_perform_iff.1 he
        rcases exec_removeUserFromGroup hx with ⟨_, _, rfl⟩ | ⟨_, _, ha, _⟩
        · refine ⟨rfl, rfl, ?_, fun h => (by cases h)⟩
          exact (update_users_self hu).symm
        · cases ha
      · obtain ⟨ch, hx, rfl⟩ := ends_perform_iff.1 h₁
        rcases exec_removeUserFromGroup hx with ⟨_, ha, _⟩ | ⟨u', hu', _, rfl⟩
        · cases ha
        obtain rfl : u' = u := Option.some.inj (hu'.symm.trans hu)
        have hu₁ : (w.setUser n (some { u' with groups := u'.groups.filter (· != g) })).users n =
            some { u' with groups := u'.groups.filter (· != g) } := Function.update_self ..
        obtain ⟨ha, ht, hw, _⟩ := ih hu₁ hgs h₂
        refine ⟨ha, ht, ?_, fun _ hr => (by cases hr)⟩
        rw [hw]
        change Function.update (Function.update w.users n _) n _ = _
        rw [Function.update_idem]
        congr 2
        split
        · rw [List.filter_filter]
          simp only [Bool.and_self]
          rfl
        · rfl
    · rw [removeRoleGroup_of_not_mem hrole] at h
      obtain ⟨ha, ht, hw, hok⟩ := ih hu hgs h
      refine ⟨ha, ht, hw, fun hr hrem g' hg' => ?_⟩
      rcases List.mem_cons.1 hg' with rfl | hg'
      · exact hrole
      · exact hok hr hrem g' hg'

/-- The role after a role change with these writes. -/
def roleAfter (old role : Option Role) (tr : List (Event sig)) : Option Role :=
  if tr.any addsRole then role else if tr.any removesRole then none else old

theorem hasRole_filter {old : Option Role} {gs : List String} (h : HasRole gs old) :
    HasRole (gs.filter (· != (old.map Role.name).getD "")) none := by
  intro g hg
  constructor
  · intro hmem
    obtain ⟨hgs, hne⟩ := List.mem_filter.1 hmem
    rw [(h g hg).1 hgs] at hne
    simp at hne
  · intro hnone
    cases hnone

theorem hasRole_add {ρ : Role} {gs : List String} (h : HasRole gs none) :
    HasRole (if ρ.name ∈ gs then gs else gs ++ [ρ.name]) (some ρ) := by
  have hρ : ρ.name ∉ gs := by
    intro hmem
    have hrole : ρ.name ∈ ROLE_GROUPS := by cases ρ <;> decide
    cases (h _ hrole).1 hmem
  rw [if_neg hρ]
  intro g hg
  rw [List.mem_append, List.mem_singleton, h g hg]
  constructor
  · rintro (hn | rfl)
    · cases hn
    · rfl
  · intro hs
    exact .inr (Option.some.inj hs).symm

theorem replaceRole_ends {old role : Option Role} (hu : w.users n = some u)
    (hold : HasRole u.groups old) (h : Ends (system env) w (replaceRole n role) tr r w') :
    tr.any writesTenant = false ∧ ∃ gs,
      w'.users = Function.update w.users n (some { u with groups := gs }) ∧
        HasRole gs (roleAfter old role tr) ∧ (r = .ok () → roleAfter old role tr = role) := by
  rcases ends_bind_iff.1 h with ⟨e, rfl, he⟩ | ⟨groups, w₁, tr₁, tr₂, h₁, h₂, rfl⟩
  · -- listing the groups failed
    obtain ⟨ch, hx, rfl⟩ := ends_perform_iff.1 he
    rcases exec_listGroupsForUser hx with ⟨_, _, rfl⟩ | ⟨_, _, ha, _⟩
    · exact ⟨rfl, u.groups, (update_users_self hu).symm, hold, fun h => (by cases h)⟩
    · cases ha
  obtain ⟨ch, hx, rfl⟩ := ends_perform_iff.1 h₁
  rcases exec_listGroupsForUser hx with ⟨_, ha, _⟩ | ⟨u', hu', ha, rfl⟩
  · cases ha
  obtain rfl : u' = u := Option.some.inj (hu'.symm.trans hu)
  cases ha
  have hρ : ∀ g ∈ u'.groups, g ∈ ROLE_GROUPS → g = (old.map Role.name).getD "" := by
    intro g hg hrole
    rw [(hold g hrole).1 hg]
    rfl
  -- the role of the groups that the loop leaves
  have hloop : ∀ {tr : List (Event sig)}, tr.any addsRole = false →
      HasRole (if tr.any removesRole then u'.groups.filter (· != (old.map Role.name).getD "")
        else u'.groups) (roleAfter old role tr) := by
    intro tr ha
    rw [roleAfter, ha, if_neg Bool.false_ne_true]
    split
    · exact hasRole_filter hold
    · exact hold
  rcases ends_bind_iff.1 h₂ with ⟨e, rfl, he⟩ | ⟨_, w₂, tr₃, tr₄, h₃, h₄, rfl⟩
  · obtain ⟨ha, ht, hw, _⟩ := removeRoleGroups_ends hu hρ he
    exact ⟨ht, _, hw, hloop ha, fun h => (by cases h)⟩
  obtain ⟨ha, ht, hw, hok⟩ := removeRoleGroups_ends hu hρ h₃
  -- a loop that ended has left no role group
  have hnone : roleAfter old none tr₃ = none := by
    rw [roleAfter, ha, if_neg Bool.false_ne_true]
    split
    · rfl
    · next hr =>
      have hrest := hok rfl (Bool.eq_false_iff.2 hr)
      exact hold.unique fun g hg => ⟨fun hmem => absurd hg (hrest g hmem), fun h => (by cases h)⟩
  have hleft := hloop ha
  have hrole₃ : roleAfter old role tr₃ = none := by
    rw [← hnone, roleAfter, roleAfter, ha]
    rfl
  rw [hrole₃] at hleft
  generalize (if tr₃.any removesRole = true then u'.groups.filter (· != (old.map Role.name).getD "")
    else u'.groups) = gs at hw hleft
  cases role with
  | none =>
    obtain ⟨rfl, rfl, rfl⟩ := ends_ret_iff.1 h₄
    have htr : roleAfter old none ([⟨.adminListGroupsForUser n, .ok u'.groups⟩] ++ (tr₃ ++ [])) =
        none := by
      rw [List.append_nil]
      exact hrole₃
    refine ⟨by rw [List.append_nil]; exact ht, gs, hw, ?_, fun _ => htr⟩
    rw [htr]
    exact hleft
  | some ρ =>
    obtain ⟨ch, hx, rfl⟩ := ends_perform_iff.1 h₄
    rcases exec_addUserToGroup hx with ⟨e, rfl, rfl⟩ | ⟨u₂, hu₂, rfl, rfl⟩
    · -- the new group was not added
      refine ⟨?_, gs, hw, ?_, fun h => (by cases h)⟩
      · simp [ht, writesTenant]
      · have htr : roleAfter old (some ρ) ([⟨.adminListGroupsForUser n, .ok u'.groups⟩] ++
            (tr₃ ++ [⟨.adminAddUserToGroup n ρ.name, .error e⟩])) = none := by
          rw [← hrole₃, roleAfter, roleAfter]
          simp [ha, addsRole, removesRole]
        rw [htr]
        exact hleft
    · have htr : roleAfter old (some ρ) ([⟨.adminListGroupsForUser n, .ok u'.groups⟩] ++
          (tr₃ ++ [⟨.adminAddUserToGroup n ρ.name, .ok ()⟩])) = some ρ := by
        rw [roleAfter]
        simp [addsRole]
      rw [hw, Function.update_self] at hu₂
      cases hu₂
      refine ⟨by simp [ht, writesTenant], if ρ.name ∈ gs then gs else gs ++ [ρ.name], ?_, ?_,
        fun _ => htr⟩
      · change Function.update w₂.users n _ = _
        rw [hw, Function.update_idem]
      · rw [htr]
        exact hasRole_add hleft

theorem setTenant_ends {t : Option String} (hu : w.users n = some u)
    (h : Ends (system env) w (setTenant n t) tr r w') :
    tr.any addsRole = false ∧ tr.any removesRole = false ∧
      w'.users = Function.update w.users n (some { u with
        tenantId := if tr.any writesTenant then nonEmpty t else u.tenantId }) := by
  unfold setTenant at h
  split at h
  next t' ht =>
    obtain ⟨ch, hx, rfl⟩ := ends_perform_iff.1 h
    rcases exec_updateUserAttributes hx with ⟨_, rfl, rfl⟩ | ⟨u', hu', rfl, rfl⟩
    · exact ⟨rfl, rfl, (update_users_self hu).symm⟩
    · obtain rfl : u' = u := Option.some.inj (hu'.symm.trans hu)
      refine ⟨rfl, rfl, ?_⟩
      rw [ht]
      rfl
  next ht =>
    obtain ⟨ch, hx, rfl⟩ := ends_perform_iff.1 h
    rcases exec_deleteUserAttributes hx with ⟨_, rfl, rfl⟩ | ⟨u', hu', rfl, rfl⟩
    · exact ⟨rfl, rfl, (update_users_self hu).symm⟩
    · obtain rfl : u' = u := Option.some.inj (hu'.symm.trans hu)
      refine ⟨rfl, rfl, ?_⟩
      rw [ht]
      rfl

/-- `replace_role` followed by `set_tenant`, for a role and a tenant. -/
def assign (n : String) (role : Option Role) (t : Option String) : Prog Unit := do
  replaceRole n role
  setTenant n t

theorem assign_ends {old role : Option Role} {t : Option String} (hu : w.users n = some u)
    (hold : HasRole u.groups old) (h : Ends (system env) w (assign n role t) tr r w') :
    ∃ gs, w'.users = Function.update w.users n (some { u with
        groups := gs
        tenantId := if tr.any writesTenant then nonEmpty t else u.tenantId }) ∧
      HasRole gs (roleAfter old role tr) ∧
      (tr.any writesTenant = true → roleAfter old role tr = role) := by
  rcases ends_bind_iff.1 h with ⟨e, rfl, he⟩ | ⟨_, w₁, tr₁, tr₂, h₁, h₂, rfl⟩
  · obtain ⟨ht, gs, hw, hgs, _⟩ := replaceRole_ends hu hold he
    refine ⟨gs, ?_, hgs, fun hwt => ?_⟩
    · rw [hw, ht]
      rfl
    · rw [ht] at hwt
      cases hwt
  · obtain ⟨ht, gs, hw, hgs, hok⟩ := replaceRole_ends hu hold h₁
    have hu₁ : w₁.users n = some { u with groups := gs } := by rw [hw, Function.update_self]
    obtain ⟨ha, hr, hw'⟩ := setTenant_ends hu₁ h₂
    have hafter : roleAfter old role (tr₁ ++ tr₂) = roleAfter old role tr₁ := by
      simp only [roleAfter, List.any_append, ha, hr, Bool.or_false]
    refine ⟨gs, ?_, hafter ▸ hgs, fun _ => hafter ▸ hok rfl⟩
    rw [hw', hw, Function.update_idem, List.any_append, ht, Bool.false_or]

/-- A name that is no user's: every Cognito call on it fails. -/
theorem assign_ends_unknown {role : Option Role} {t : Option String} (hu : w.users n = none)
    (h : Ends (system env) w (assign n role t) tr r w') : w'.users = w.users ∧ NoUserWrite tr := by
  rcases ends_bind_iff.1 h with ⟨e, rfl, he⟩ | ⟨_, w₁, tr₁, tr₂, h₁, _, rfl⟩
  · rcases ends_bind_iff.1 he with ⟨e, _, he⟩ | ⟨groups, w₁, tr₁, tr₂, h₁, _, rfl⟩
    · obtain ⟨ch, hx, rfl⟩ := ends_perform_iff.1 he
      rcases exec_listGroupsForUser hx with ⟨_, _, rfl⟩ | ⟨_, hu', _⟩
      · exact ⟨rfl, rfl, rfl, rfl⟩
      · rw [hu] at hu'
        cases hu'
    · obtain ⟨ch, hx, rfl⟩ := ends_perform_iff.1 h₁
      rcases exec_listGroupsForUser hx with ⟨_, ha, _⟩ | ⟨_, hu', _⟩
      · cases ha
      · rw [hu] at hu'
        cases hu'
  · rcases ends_bind_iff.1 h₁ with ⟨e, he, _⟩ | ⟨groups, w₂, tr₃, tr₄, h₃, _, rfl⟩
    · cases he
    · obtain ⟨ch, hx, rfl⟩ := ends_perform_iff.1 h₃
      rcases exec_listGroupsForUser hx with ⟨_, ha, _⟩ | ⟨_, hu', _⟩
      · cases ha
      · rw [hu] at hu'
        cases hu'

theorem setTenant_ends_unknown {t : Option String} (hu : w.users n = none)
    (h : Ends (system env) w (setTenant n t) tr r w') : w'.users = w.users ∧ NoUserWrite tr := by
  unfold setTenant at h
  split at h
  · obtain ⟨ch, hx, rfl⟩ := ends_perform_iff.1 h
    rcases exec_updateUserAttributes hx with ⟨_, rfl, rfl⟩ | ⟨_, hu', _⟩
    · exact ⟨rfl, rfl, rfl, rfl⟩
    · rw [hu] at hu'
      cases hu'
  · obtain ⟨ch, hx, rfl⟩ := ends_perform_iff.1 h
    rcases exec_deleteUserAttributes hx with ⟨_, rfl, rfl⟩ | ⟨_, hu', _⟩
    · exact ⟨rfl, rfl, rfl, rfl⟩
    · rw [hu] at hu'
      cases hu'

/-! ## When a role change keeps the users consistent -/

theorem usersConsistent_update {u' : CognitoUser} (hw : UsersConsistent w)
    (h : w'.users = Function.update w.users n (some u')) :
    UsersConsistent w' ↔ RoleTenantConsistent u' := by
  constructor
  · intro hc
    exact hc n u' (by rw [h, Function.update_self])
  · intro hu' m v hv
    rw [h] at hv
    by_cases hm : m = n
    · subst hm
      rw [Function.update_self] at hv
      exact Option.some.inj hv ▸ hu'
    · rw [Function.update_of_ne hm] at hv
      exact hw m v hv

theorem usersConsistent_congr (h : w'.users = w.users) (hw : UsersConsistent w) :
    UsersConsistent w' := by
  intro m v hv
  rw [h] at hv
  exact hw m v hv

theorem nonEmpty_idem (t : Option String) : nonEmpty (nonEmpty t) = nonEmpty t := by
  rw [nonEmpty, nonEmpty, Option.filter_filter]
  simp only [Bool.and_self]

theorem NoUserWrite.cutOffKeeps {role : Option Role} (h : NoUserWrite tr) :
    CutOffKeeps w n role tr := by
  rw [CutOffKeeps, h.added, if_neg Bool.false_ne_true, h.removed]
  exact fun hf => (by cases hf)

theorem assign_keeps {role : Option Role} {t : Option String} (hw : UsersConsistent w)
    (h : Ends (system env) w (assign n role t) tr r w') :
    UsersConsistent w' ↔
      if tr.any writesTenant then (role = some .tenantAdmin ↔ nonEmpty t ≠ none)
      else CutOffKeeps w n role tr := by
  cases hu : w.users n with
  | none =>
    obtain ⟨hsame, hno⟩ := assign_ends_unknown hu h
    rw [hno.tenant, if_neg Bool.false_ne_true]
    exact ⟨fun _ => hno.cutOffKeeps, fun _ => usersConsistent_congr hsame hw⟩
  | some u =>
    have hcons := hw n u hu
    obtain ⟨old, hold⟩ := hcons.hasRole
    obtain ⟨gs, hw', hgs, hrole⟩ := assign_ends hu hold h
    rw [usersConsistent_update hw hw', consistent_of_hasRole hgs]
    by_cases hwt : tr.any writesTenant = true
    · rw [hrole hwt, if_pos hwt, if_pos hwt, nonEmpty_idem]
      by_cases hta : role = some .tenantAdmin
      · rw [if_pos hta]
        exact ⟨fun ht => ⟨fun _ => ht, fun _ => hta⟩, fun hiff => hiff.1 hta⟩
      · rw [if_neg hta]
        exact ⟨fun ht => ⟨fun h => absurd h hta, fun h => absurd ht h⟩,
          fun hiff => by_contra fun ht => hta (hiff.2 ht)⟩
    · rw [if_neg hwt, if_neg hwt, CutOffKeeps, roleAfter]
      by_cases ha : tr.any addsRole = true
      · rw [if_pos ha, if_pos ha]
        by_cases hta : role = some .tenantAdmin
        · rw [if_pos hta, ← hcons.isScoped_iff hu]
          exact ⟨fun hs => ⟨fun _ => hs, fun _ => hta⟩, fun hiff => hiff.1 hta⟩
        · rw [if_neg hta, ← hcons.not_isScoped_iff hu, ← Bool.not_eq_true]
          exact ⟨fun hs => ⟨fun h => absurd h hta, fun h => absurd h hs⟩,
            fun hiff hs => hta (hiff.2 hs)⟩
      · rw [if_neg ha, if_neg ha]
        by_cases hr : tr.any removesRole = true
        · rw [if_pos hr, if_neg (by decide), ← hcons.not_isScoped_iff hu]
          exact ⟨fun hs _ => hs, fun hs => hs hr⟩
        · rw [if_neg hr, ← consistent_of_hasRole hold]
          exact ⟨fun _ hr' => absurd hr' hr, fun _ => hcons⟩

end

/-! ## Requests -/

section
variable {env : KeyEnv} {w w' : World} {n : String} {tr : List (Event sig)} {r : Except Exc Unit}

/-- A stretch of calls that writes no user. -/
structure Unchanged (w : World) (tr : List (Event sig)) (w' : World) : Prop where
  users : w'.users = w.users
  no    : NoUserWrite tr

/-- Two traces with the same user writes. -/
structure SameWrites (tr tr' : List (Event sig)) : Prop where
  removed : tr.any removesRole = tr'.any removesRole
  added   : tr.any addsRole = tr'.any addsRole
  tenant  : tr.any writesTenant = tr'.any writesTenant

theorem NoUserWrite.sameWrites_left {tr' : List (Event sig)} (h : NoUserWrite tr) :
    SameWrites (tr ++ tr') tr' :=
  ⟨by rw [List.any_append, h.removed, Bool.false_or], by rw [List.any_append, h.added, Bool.false_or],
    by rw [List.any_append, h.tenant, Bool.false_or]⟩

theorem NoUserWrite.sameWrites_right {tr' : List (Event sig)} (h : NoUserWrite tr') :
    SameWrites (tr ++ tr') tr :=
  ⟨by rw [List.any_append, h.removed, Bool.or_false], by rw [List.any_append, h.added, Bool.or_false],
    by rw [List.any_append, h.tenant, Bool.or_false]⟩

theorem SameWrites.trans {tr₁ tr₂ tr₃ : List (Event sig)} (h : SameWrites tr₁ tr₂)
    (h' : SameWrites tr₂ tr₃) : SameWrites tr₁ tr₃ :=
  ⟨h.removed.trans h'.removed, h.added.trans h'.added, h.tenant.trans h'.tenant⟩

/-- A run comes to a core that satisfies `C`, or has written nothing at all. -/
def Comes (w : World) (tr : List (Event sig)) (w' : World)
    (C : World → List (Event sig) → World → Prop) : Prop :=
  Unchanged w tr w' ∨ ∃ w₁ tr₁ w₂, w₁.users = w.users ∧ C w₁ tr₁ w₂ ∧ w'.users = w₂.users ∧
    SameWrites tr tr₁

theorem Comes.mono {C D : World → List (Event sig) → World → Prop}
    (hCD : ∀ w tr w', C w tr w' → D w tr w') (h : Comes w tr w' C) : Comes w tr w' D := by
  rcases h with hun | ⟨w₁, tr₁, w₂, hw₁, hC, hw₂, hsame⟩
  · exact .inl hun
  · exact .inr ⟨w₁, tr₁, w₂, hw₁, hCD _ _ _ hC, hw₂, hsame⟩

theorem comes_bind {α : Type} {pre : Prog α} {f : α → Prog Unit}
    {C : World → List (Event sig) → World → Prop} (hp : All Bystander pre)
    (hf : ∀ a w w₁ tr₁ tr r, Ends (system env) w₁ pre tr₁ (.ok a) w →
      Ends (system env) w (f a) tr r w' → Comes w tr w' C)
    (h : Ends (system env) w (pre.bind f) tr r w') : Comes w tr w' C := by
  rcases ends_bind_iff.1 h with ⟨e, _, he⟩ | ⟨a, w₁, tr₁, tr₂, h₁, h₂, rfl⟩
  · obtain ⟨hu, hn⟩ := bystander_steps hp he
    exact .inl ⟨hu, hn⟩
  · obtain ⟨hu, hn⟩ := bystander_steps hp h₁
    rcases hf a w₁ w tr₁ tr₂ r h₁ h₂ with hun | ⟨w₂, tr₃, w₃, hw₂, hC, hw', hsame⟩
    · refine .inl ⟨hun.users.trans hu, ?_⟩
      have hsw : SameWrites (tr₁ ++ tr₂) tr₂ := hn.sameWrites_left
      exact ⟨hsw.removed.trans hun.no.removed, hsw.added.trans hun.no.added,
        hsw.tenant.trans hun.no.tenant⟩
    · exact .inr ⟨w₂, tr₃, w₃, hw₂.trans hu, hC, hw', hn.sameWrites_left.trans hsame⟩

/-- The guarded core of a route, followed by its audit event. -/
theorem comes_core {core : Prog Unit} {e : Exc} {post : Prog Unit} (hpost : All Bystander post)
    (h : Ends (system env) w ((core.tryCatch fun _ => .raise e).bind fun _ => post) tr r w') :
    Comes w tr w' fun w tr w' => ∃ r, Ends (system env) w core tr r w' := by
  rcases ends_bind_iff.1 h with ⟨e', _, he⟩ | ⟨_, w₁, tr₁, tr₂, h₁, h₂, rfl⟩
  · rcases ends_tryCatch_iff.1 he with ⟨_, hr, _⟩ | ⟨e'', w₁, tr₁, tr₂, h₁, h₂, rfl⟩
    · cases hr
    · obtain ⟨rfl, _, rfl⟩ := ends_raise_iff.1 h₂
      exact .inr ⟨w, tr₁, w', rfl, ⟨_, h₁⟩, rfl, noUserWrite_nil.sameWrites_right⟩
  · obtain ⟨hu, hn⟩ := bystander_steps hpost h₂
    rcases ends_tryCatch_iff.1 h₁ with ⟨_, _, hc⟩ | ⟨e'', w₂, tr₃, tr₄, _, h₄, rfl⟩
    · exact .inr ⟨w, tr₁, w₁, rfl, ⟨_, hc⟩, hu, hn.sameWrites_right⟩
    · obtain ⟨_, hr, _⟩ := ends_raise_iff.1 h₄
      cases hr

theorem isScoped_congr {w₁ : World} (h : w₁.users = w.users) : isScoped w₁ n = isScoped w n := by
  rw [isScoped, isScoped, h]

theorem cutOffKeeps_congr {w₁ : World} {role : Option Role} {tr₁ : List (Event sig)}
    (hw : w₁.users = w.users) (h : SameWrites tr tr₁) :
    CutOffKeeps w n role tr ↔ CutOffKeeps w₁ n role tr₁ := by
  rw [CutOffKeeps, CutOffKeeps, h.added, h.removed, isScoped_congr hw]

/-- A tenant-admin role is only assigned together with a tenant. -/
theorem validateTenantForRole_ok {role : Option Role} {t : Option String}
    (h : validateTenantForRole role t = .ok ()) (hr : role = some .tenantAdmin) :
    nonEmpty t ≠ none := by
  intro ht
  subst hr
  rw [validateTenantForRole, if_pos ⟨rfl, ht⟩] at h
  cases h

theorem ends_ofExcept {α : Type} {x : Except Exc α} {a : α}
    (h : Ends (system env) w (.ofExcept x) tr (.ok a) w') : x = .ok a := by
  cases x with
  | ok b =>
    obtain ⟨_, hr, _⟩ := ends_ret_iff.1 h
    exact hr.symm
  | error e =>
    obtain ⟨_, hr, _⟩ := ends_raise_iff.1 h
    cases hr

/-- The outcome of a request whose core assigns `role` and `t`. -/
theorem comes_assign {role : Option Role} {t : Option String}
    (hw : UsersConsistent w)
    (h : Comes w tr w' fun w tr w' => ∃ r, Ends (system env) w (assign n role t) tr r w') :
    UsersConsistent w' ↔
      if tr.any writesTenant then (role = some .tenantAdmin ↔ nonEmpty t ≠ none)
      else CutOffKeeps w n role tr := by
  rcases h with hun | ⟨w₁, tr₁, w₂, hw₁, ⟨r, hr⟩, hw₂, hsame⟩
  · rw [hun.no.tenant, if_neg Bool.false_ne_true]
    exact ⟨fun _ => hun.no.cutOffKeeps, fun _ => usersConsistent_congr hun.users hw⟩
  · have hiff := assign_keeps (usersConsistent_congr hw₁ hw) hr
    rw [hsame.tenant, cutOffKeeps_congr hw₁ hsame, ← hiff]
    exact ⟨usersConsistent_congr hw₂.symm, usersConsistent_congr hw₂⟩

theorem approveUser_keeps {creds : Option String} {body : ApproveRequest} (hw : UsersConsistent w)
    (h : Ends (system env) w (approveUser creds n body) tr r w') :
    UsersConsistent w' ↔ KeepsRoleTenant w (.approveUser creds n body) tr := by
  have hne : body.role.name ≠ SUPER_ADMIN := by cases body.role <;> decide
  have hcome : Comes w tr w' fun w tr w' => (body.role = .tenantAdmin → nonEmpty body.tenantId ≠ none) ∧
      ∃ r, Ends (system env) w (assign n (some body.role) body.tenantId) tr r w' := by
    refine comes_bind (bystander_verifyJwtWithSuperAdmin creds) (fun claims w w₁ _ tr r _ h => ?_) h
    refine comes_bind (bystander_ofExcept _) (fun _ w w₁ _ tr r hv h => ?_) h
    have hvalid := validateTenantForRole_ok (ends_ofExcept hv)
    refine comes_bind (bystander_requireTenant _) (fun _ w w₁ _ tr r _ h => ?_) h
    rw [if_neg hne] at h
    rcases comes_core (bystander_logEvent ..) h with hun | ⟨w₂, tr₂, w₃, hw₂, hC, hw₃, hsame⟩
    · exact .inl hun
    · exact .inr ⟨w₂, tr₂, w₃, hw₂, ⟨fun hr => hvalid (by rw [hr]), hC⟩, hw₃, hsame⟩
  have hassign := comes_assign hw (hcome.mono fun _ _ _ hC => hC.2)
  rw [hassign, KeepsRoleTenant]
  by_cases hwt : tr.any writesTenant = true
  · rw [if_pos hwt, if_pos hwt]
    -- the request got past its validation
    have hvalid : body.role = .tenantAdmin → nonEmpty body.tenantId ≠ none := by
      rcases hcome with hun | ⟨_, _, _, _, ⟨hv, _⟩, _⟩
      · rw [hun.no.tenant] at hwt
        cases hwt
      · exact hv
    cases hrole : body.role with
    | superAdmin =>
      constructor
      · intro hiff _
        by_contra ht
        cases hiff.2 ht
      · intro hnone
        exact ⟨fun h => (by cases h), fun ht => absurd (hnone rfl) ht⟩
    | tenantAdmin =>
      exact ⟨fun _ h => (by cases h), fun _ => ⟨fun _ => hvalid hrole, fun _ => rfl⟩⟩
  · rw [if_neg hwt, if_neg hwt]

theorem changeRole_keeps {creds : Option String} {body : ChangeRoleRequest}
    (hw : UsersConsistent w) (h : Ends (system env) w (changeRole creds n body) tr r w') :
    UsersConsistent w' ↔ KeepsRoleTenant w (.changeRole creds n body) tr := by
  have hname : body.role.map Role.name = some TENANT_ADMIN ↔ body.role = some .tenantAdmin := by
    rcases body.role with _ | _ | _ <;> decide
  have hcome : Comes w tr w' fun w tr w' =>
      (body.role = some .tenantAdmin → nonEmpty body.tenantId ≠ none) ∧
        ∃ r, Ends (system env) w (assign n body.role
          (if body.role.map Role.name = some TENANT_ADMIN then body.tenantId else none)) tr r w' := by
    refine comes_bind (bystander_verifyJwtWithSuperAdmin creds) (fun claims w w₁ _ tr r _ h => ?_) h
    refine comes_bind (bystander_ofExcept _) (fun _ w w₁ _ tr r hv h => ?_) h
    have hvalid := validateTenantForRole_ok (ends_ofExcept hv)
    refine comes_bind (bystander_requireTenant _) (fun _ w w₁ _ tr r _ h => ?_) h
    rcases comes_core (bystander_logEvent ..) h with hun | ⟨w₂, tr₂, w₃, hw₂, hC, hw₃, hsame⟩
    · exact .inl hun
    · exact .inr ⟨w₂, tr₂, w₃, hw₂, ⟨hvalid, hC⟩, hw₃, hsame⟩
  have hassign := comes_assign hw (hcome.mono fun _ _ _ hC => hC.2)
  rw [hassign, KeepsRoleTenant]
  by_cases hwt : tr.any writesTenant = true
  · rw [if_pos hwt]
    refine ⟨fun _ => .inl hwt, fun _ => ?_⟩
    rcases hcome with hun | ⟨_, _, _, _, ⟨hvalid, _⟩, _⟩
    · rw [hun.no.tenant] at hwt
      cases hwt
    by_cases hta : body.role = some .tenantAdmin
    · rw [if_pos (hname.2 hta)]
      exact ⟨fun _ => hvalid hta, fun _ => hta⟩
    · rw [if_neg (fun h => hta (hname.1 h))]
      exact ⟨fun h => absurd h hta, fun h => absurd rfl h⟩
  · rw [if_neg hwt]
    exact ⟨.inr, fun h => h.resolve_left hwt⟩

theorem changeTenant_keeps {creds : Option String} {body : ChangeTenantRequest}
    (hw : UsersConsistent w) (h : Ends (system env) w (changeTenant creds n body) tr r w') :
    UsersConsistent w' ↔ KeepsRoleTenant w (.changeTenant creds n body) tr := by
  have hcome : Comes w tr w' fun w tr w' =>
      ∃ r, Ends (system env) w (setTenant n body.tenantId) tr r w' := by
    refine comes_bind (bystander_verifyJwtWithSuperAdmin creds) (fun claims w w₁ _ tr r _ h => ?_) h
    refine comes_bind (bystander_requireTenant _) (fun _ w w₁ _ tr r _ h => ?_) h
    exact comes_core (bystander_logEvent ..) h
  rw [KeepsRoleTenant]
  rcases hcome with hun | ⟨w₁, tr₁, w₂, hw₁, ⟨r, hr⟩, hw₂, hsame⟩
  · rw [hun.no.tenant]
    exact ⟨fun _ hf => (by cases hf), fun _ => usersConsistent_congr hun.users hw⟩
  have hc₁ := usersConsistent_congr hw₁ hw
  have hiff : UsersConsistent w' ↔ UsersConsistent w₂ :=
    ⟨usersConsistent_congr hw₂.symm, usersConsistent_congr hw₂⟩
  rw [hiff, hsame.tenant, ← isScoped_congr hw₁]
  cases hu : w₁.users n with
  | none =>
    obtain ⟨hsame, hno⟩ := setTenant_ends_unknown hu hr
    rw [hno.tenant]
    exact ⟨fun _ hf => (by cases hf), fun _ => usersConsistent_congr hsame hc₁⟩
  | some u =>
    have hcons := hc₁ n u hu
    obtain ⟨role, hrole⟩ := hcons.hasRole
    obtain ⟨_, _, hset⟩ := setTenant_ends hu hr
    have hmem : isScoped w₁ n = true ↔ role = some .tenantAdmin := by
      rw [isScoped_eq hu, decide_eq_true_iff, hrole _ (by decide)]
      rcases role with _ | _ | _ <;> decide
    rw [usersConsistent_update hc₁ hset, hmem]
    by_cases hwt : tr₁.any writesTenant = true
    · rw [if_pos hwt, consistent_of_hasRole (u := { u with tenantId := nonEmpty body.tenantId }) hrole,
        nonEmpty_idem]
      by_cases hta : role = some .tenantAdmin
      · rw [if_pos hta]
        exact ⟨fun ht _ => ⟨fun _ => ht, fun _ => hta⟩, fun hiff => (hiff hwt).1 hta⟩
      · rw [if_neg hta]
        exact ⟨fun ht _ => ⟨fun h => absurd h hta, fun h => absurd ht h⟩,
          fun hiff => by_contra fun ht => hta ((hiff hwt).2 ht)⟩
    · rw [if_neg hwt]
      exact ⟨fun _ hf => absurd hf hwt, fun _ => hcons⟩

end

/-! ## The invariant over sequences of requests -/

/-- Over any sequence of role and tenant requests, each served alone with any of its calls failing,
all users stay consistent exactly when every request meets `KeepsRoleTenant`. -/
theorem roleTenant_consistent_iff (env : KeyEnv) (w : World) (ss : List (Served (system env)))
    (h0 : UsersConsistent w) (hreq : ∀ s ∈ ss, IsRoleRequest s.entry)
    (h : Serves (system env) w ss) :
    (∀ s ∈ ss, UsersConsistent s.world) ↔ EachServed (P := system env) KeepsRoleTenant w ss := by
  refine Effect.serves_inv_iff (P := system env) (A := IsRoleRequest) ?_ h0 hreq h
  intro w e tr r w' he hw hends
  cases e with
  | approveUser creds n body => exact approveUser_keeps hw hends
  | changeRole creds n body => exact changeRole_keeps hw hends
  | changeTenant creds n body => exact changeTenant_keeps hw hends
  | _ => exact he.elim

/-! ## Two sample runs -/

/-- One tenant, a pending user and the token of a super-admin. -/
def userWorld : World where
  tenants := Dynamo.Table.empty.put "acme" fun _ => none
  users   := Function.update (fun _ => none) "ada" (some { sub := "1" })
  tokens  := [("root", { groups := .many ["super-admin"], sub := some "0" })]

theorem userWorld_consistent : UsersConsistent userWorld := by
  intro n u hu
  by_cases hn : n = "ada"
  · subst hn
    cases hu
    exact ⟨fun _ => rfl, fun h => (by cases h)⟩
  · have hnone : userWorld.users n = none := dif_neg hn
    rw [hnone] at hu
    cases hu

def sampleApproval (role : Role) : Entry :=
  .approveUser (some "root") "ada" { role, tenantId := some "acme" }

/-- Approved as tenant-admin, then made a super-admin. -/
def samplePromotion : List (Entry × List Choice) :=
  [(sampleApproval .tenantAdmin, List.replicate 7 {}),
    (.changeRole (some "root") "ada" { role := some .superAdmin }, List.replicate 6 {})]

set_option maxRecDepth 10000 in
theorem samplePromotion_served : ((Effect.serve (system sampleKeyEnv) userWorld samplePromotion).map
    fun ss => (decide (EachServed (P := system sampleKeyEnv) KeepsRoleTenant userWorld ss),
      ss.map fun s => s.world.users "ada")) =
    some (true, [some { groups := ["tenant-admin"], tenantId := some "acme", sub := "1" },
      some { groups := ["super-admin"], sub := "1" }]) := by
  decide +kernel

theorem roleTenant_consistent_promotion : ∃ ss, Serves (system sampleKeyEnv) userWorld ss ∧
    ss.length = 2 ∧ ∀ s ∈ ss, UsersConsistent s.world := by
  obtain ⟨ss, hss, hdata⟩ := Option.map_eq_some_iff.1 samplePromotion_served
  obtain ⟨hserves, hentries⟩ := Effect.serves_of_serve hss
  obtain ⟨heach, _⟩ := Prod.mk.inj hdata
  have hlength : ss.length = 2 := by
    have := congrArg List.length hentries
    rwa [List.length_map] at this
  refine ⟨ss, hserves, hlength, ?_⟩
  have hreq : ∀ s ∈ ss, IsRoleRequest s.entry := by
    intro s hs
    have hmem : s.entry ∈ samplePromotion.map (·.1) := hentries ▸ List.mem_map_of_mem hs
    rcases List.mem_cons.1 hmem with he | hmem
    · rw [he]
      trivial
    · rw [List.mem_singleton.1 hmem]
      trivial
  exact (roleTenant_consistent_iff sampleKeyEnv userWorld ss userWorld_consistent hreq hserves).2
    (of_decide_eq_true heach)

set_option maxRecDepth 10000 in
theorem sampleApproval_served :
    ((Effect.serve (system sampleKeyEnv) userWorld
      [(sampleApproval .superAdmin, List.replicate 7 {})]).map
        fun ss => ss.map fun s => s.world.users "ada") =
      some [some { groups := ["super-admin"], tenantId := some "acme", sub := "1" }] := by
  decide +kernel

/-- Approving a user as super-admin with a tenant in the body stores that tenant: `SUPER_ADMIN` is
the tenant sentinel, which no role equals. -/
theorem roleTenant_consistent_fails : ¬ ∀ (env : KeyEnv) (w : World) (ss : List (Served (system env))),
    UsersConsistent w → (∀ s ∈ ss, IsRoleRequest s.entry) → Serves (system env) w ss →
      ∀ s ∈ ss, UsersConsistent s.world := by
  intro hall
  obtain ⟨ss, hss, hdata⟩ := Option.map_eq_some_iff.1 sampleApproval_served
  obtain ⟨hserves, hentries⟩ := Effect.serves_of_serve hss
  obtain ⟨s, rfl⟩ : ∃ s, ss = [s] := by
    have hlength := congrArg List.length hentries
    rw [List.length_map] at hlength
    exact List.length_eq_one_iff.1 hlength
  have hentry : s.entry = sampleApproval .superAdmin := (List.cons.inj hentries).1
  have huser : s.world.users "ada" =
      some { groups := ["super-admin"], tenantId := some "acme", sub := "1" } :=
    (List.cons.inj hdata).1
  have hcons := hall sampleKeyEnv userWorld [s] userWorld_consistent
    (fun s' hs' => by rw [List.mem_singleton.1 hs', hentry]; trivial) hserves s
    (List.mem_singleton.2 rfl) "ada" _ huser
  cases hcons.unscoped (.inl (List.mem_singleton.2 rfl))

end DocumentAi.Admin
