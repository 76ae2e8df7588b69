import DocumentAi.Admin.Tenants

/-!
# `routers/users.py` with `services/cognito.py`: role and tenant of a user
-/

namespace DocumentAi.Admin

/-- `Role = Literal["super-admin", "tenant-admin"]`. -/
inductive Role where
  | superAdmin | tenantAdmin
deriving DecidableEq, Repr

def Role.name : Role → String
  | superAdmin  => "super-admin"
  | tenantAdmin => "tenant-admin"

def ROLE_GROUPS : List String := ["super-admin", "tenant-admin"]

/-! ## `services/cognito.py` -/

def setTenant (username : String) (tenantId : Option String) : Prog Unit :=
  match nonEmpty tenantId with
  | some t => call (.adminUpdateUserAttributes username t)
  | none   => call (.adminDeleteUserAttributes username)

/-- One round of the loop of `replace_role`. -/
def removeRoleGroup (username group : String) : Prog Unit :=
  if group ∈ ROLE_GROUPS then call (.adminRemoveUserFromGroup username group) else return ()

def replaceRole (username : String) (newRole : Option Role) : Prog Unit := do
  let groups ← call (.adminListGroupsForUser username)
  Effect.Prog.forEach (removeRoleGroup username) groups
  match newRole with
  | some role => call (.adminAddUserToGroup username role.name)
  | none      => return ()

/-! ## Routes -/

structure ApproveRequest where
  role     : Role
  tenantId : Option String := none

structure ChangeRoleRequest where
  role     : Option Role := none
  tenantId : Option String := none

structure ChangeTenantRequest where
  tenantId : Option String := none

def validateTenantForRole (role : Option Role) (tenantId : Option String) : Except Exc Unit :=
  if role.map Role.name = some TENANT_ADMIN ∧ nonEmpty tenantId = none then
    .error (.httpException 400 "tenant_id is required when assigning the tenant-admin role.")
  else .ok ()

/-- The check that the tenant named in a body exists. -/
def requireTenant (tenantId : Option String) : Prog Unit :=
  match nonEmpty tenantId with
  | none   => return ()
  | some t => do
    match ← call (.getTenant t) with
    | none   => throw (.httpException 400 ("Tenant '" ++ t ++ "' does not exist."))
    | some _ => return ()

def approveUser (credentials : Option String) (username : String) (body : ApproveRequest) :
    Prog Unit := do
  let claims ← verifyJwtWithSuperAdmin credentials
  Effect.Prog.ofExcept (validateTenantForRole (some body.role) body.tenantId)
  requireTenant body.tenantId
  tryCatch (do
    replaceRole username (some body.role)
    setTenant username (if body.role.name = SUPER_ADMIN then none else body.tenantId)) fun _ =>
      throw (.httpException 500 "Failed to approve user")
  logEvent claims "user.approve" "user" username body.tenantId

def changeRole (credentials : Option String) (username : String) (body : ChangeRoleRequest) :
    Prog Unit := do
  let claims ← verifyJwtWithSuperAdmin credentials
  Effect.Prog.ofExcept (validateTenantForRole body.role body.tenantId)
  requireTenant body.tenantId
  let tenantId := if body.role.map Role.name = some TENANT_ADMIN then body.tenantId else none
  tryCatch (do
    replaceRole username body.role
    setTenant username tenantId) fun _ =>
      throw (.httpException 500 "Failed to change role")
  logEvent claims "user.role.change" "user" username tenantId

def changeTenant (credentials : Option String) (username : String) (body : ChangeTenantRequest) :
    Prog Unit := do
  let claims ← verifyJwtWithSuperAdmin credentials
  requireTenant body.tenantId
  tryCatch (setTenant username body.tenantId) fun _ =>
    throw (.httpException 500 "Failed to change tenant")
  logEvent claims "user.tenant.change" "user" username body.tenantId

def deleteUser (credentials : Option String) (username : String) : Prog Unit := do
  let claims ← verifyJwtWithSuperAdmin credentials
  if claims.username = some username ∨ claims.sub = some username then
    throw (.httpException 400 "You cannot delete your own account.")
  tryCatch (call (.adminDeleteUser username)) fun _ =>
    throw (.httpException 500 "Failed to delete user")
  logEvent claims "user.delete" "user" username

end DocumentAi.Admin
