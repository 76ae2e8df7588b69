import DocumentAi.Admin.Services
import DocumentAi.Lib.Sequential

/-!
# `utils/jwt_auth.py`: roles, tenant scope and the JWT dependencies

`documentai_api/utils/auth.py:642-655` adds the two dependencies that also require a role.
-/

namespace DocumentAi.Admin

/-- `SUPER_ADMIN`: the tenant id that stands for super-admins. -/
def SUPER_ADMIN : String := "__admin__"

/-- `SUPER_ADMIN_GROUP`: the Cognito group. -/
def SUPER_ADMIN_GROUP : String := "super-admin"

def TENANT_ADMIN : String := "tenant-admin"

def getRoles (claims : Claims) : List String :=
  match claims.groups with
  | .absent   => []
  | .single g => if g = "" then [] else [g]
  | .many gs  => gs

def getTenantId (claims : Claims) : Option String := claims.tenantId

def isSuperAdmin (claims : Claims) : Bool := SUPER_ADMIN_GROUP ∈ getRoles claims

def isTenantAdmin (claims : Claims) : Bool := TENANT_ADMIN ∈ getRoles claims

def requireSuperAdmin (claims : Claims) : Except Exc Unit :=
  if isSuperAdmin claims then .ok () else .error (.httpException 403 "Super-admin role required.")

def requireRole (claims : Claims) : Except Exc Unit :=
  if isSuperAdmin claims || isTenantAdmin claims then .ok ()
  else .error (.httpException 403 "Your account is pending approval by an administrator.")

def noTenantAssigned : Exc :=
  .httpException 403 "Account has no tenant assigned. Contact an administrator."

/-- A Python `str | None` that is truthy. -/
def nonEmpty (s : Option String) : Option String := s.filter (· ≠ "")

def tenantScope (claims : Claims) : Except Exc (Option String) :=
  if isSuperAdmin claims then .ok none
  else match nonEmpty (getTenantId claims) with
    | none        => .error noTenantAssigned
    | some tenant => .ok (some tenant)

def resolveTenant (claims : Claims) (requestedTenantId : Option String) :
    Except Exc (Option String) :=
  (tenantScope claims).map fun scope => scope.or requestedTenantId

/-- `verify_jwt`: the exceptions of PyJWT become 401, any other passes. -/
def verifyJwt (credentials : Option String) : Prog Claims :=
  match credentials with
  | none       => throw (.httpException 401 "Missing authorization header")
  | some token =>
    tryCatch (call (.decodeAndVerify token)) fun
      | .exception "ExpiredSignatureError" => throw (.httpException 401 "Token expired")
      | .exception "InvalidTokenError"     => throw (.httpException 401 "Invalid or expired token")
      | .exception "PyJWKClientError"      => throw (.httpException 401 "Invalid or expired token")
      | e                                  => throw e

/-- `AdminClaims`. -/
def verifyJwtWithRole (credentials : Option String) : Prog Claims := do
  let claims ← verifyJwt credentials
  Effect.Prog.ofExcept (requireRole claims)
  return claims

/-- `SuperAdminClaims`. -/
def verifyJwtWithSuperAdmin (credentials : Option String) : Prog Claims := do
  let claims ← verifyJwt credentials
  Effect.Prog.ofExcept (requireSuperAdmin claims)
  return claims

/-! ## What the roles allow -/

@[simp] theorem nonEmpty_eq_some {s : Option String} {t : String} :
    nonEmpty s = some t ↔ s = some t ∧ t ≠ "" := by
  simp [nonEmpty, Option.filter_eq_some_iff]

@[simp] theorem nonEmpty_eq_none {s : Option String} :
    nonEmpty s = none ↔ s = none ∨ s = some "" := by
  cases s <;> simp [nonEmpty]

/-- A caller outside the super-admin group is scoped to its own tenant or rejected. -/
theorem tenantScope_of_not_superAdmin {claims : Claims} (h : isSuperAdmin claims = false) :
    tenantScope claims =
      match nonEmpty claims.tenantId with
      | some tenant => .ok (some tenant)
      | none        => .error noTenantAssigned := by
  unfold tenantScope getTenantId
  rw [if_neg (by rw [h]; exact Bool.false_ne_true)]
  cases nonEmpty claims.tenantId <;> rfl

/-- The requested tenant changes nothing for such a caller. -/
theorem resolveTenant_of_not_superAdmin {claims : Claims} (h : isSuperAdmin claims = false)
    (requested : Option String) : resolveTenant claims requested = tenantScope claims := by
  rw [resolveTenant, tenantScope_of_not_superAdmin h]
  cases nonEmpty claims.tenantId <;> rfl

end DocumentAi.Admin
