import DocumentAi.Admin.Auth

/-!
# `routers/tenants.py` with `utils/tenants.py`, `utils/base_crud_table.py` and `utils/audit_log.py`

Presentation masking and the response items are left out: they only rename what a response shows.
-/

namespace DocumentAi.Admin

/-! ## Audit log -/

def GLOBAL_TENANT : String := "__global__"

/-- `log_event`: two writes whose failure is only logged. -/
def logEvent (claims : Claims) (action targetType targetId : String)
    (tenantId : Option String := none) : Prog Unit :=
  let partition := (nonEmpty tenantId).getD GLOBAL_TENANT
  let event : AuditEvent := {
    tenantId := partition
    actorSub := claims.sub.getD "unknown"
    actorEmail := claims.email.getD "unknown"
    action, targetType, targetId }
  tryCatch (do
    call (.putAuditEvent event)
    if partition ≠ GLOBAL_TENANT then
      call (.putAuditEvent { event with tenantId := GLOBAL_TENANT })) fun _ => return ()

/-! ## Request models (`models/tenant.py`) -/

/-- A character of `[a-z0-9-]`. -/
def isTenantIdChar (c : Char) : Bool := ('a' ≤ c && c ≤ 'z') || ('0' ≤ c && c ≤ '9') || c = '-'

/-- The constraints of `TenantIdStr`. -/
def IsTenantId (s : String) : Prop :=
  1 ≤ s.length ∧ s.length ≤ 128 ∧ s.toList.all isTenantIdChar = true

instance (s : String) : Decidable (IsTenantId s) := by unfold IsTenantId; infer_instance

abbrev TenantIdStr : Type := { s : String // IsTenantId s }

def validateWriteLimits (day month : Option Nat) : Bool :=
  match day, month with
  | some d, some m => decide (d ≤ m)
  | _, _           => true

structure CreateTenantRequest where
  tenantId                  : TenantIdStr
  displayName               : String
  primaryContact            : Option String := none
  extractionConfidenceFloor : Option Rat := none
  maxWritesPerDay           : Option Nat := none
  maxWritesPerMonth         : Option Nat := none
  limits : validateWriteLimits maxWritesPerDay maxWritesPerMonth = true := by rfl

/-- `UpdateTenantRequest`: `none` for a field that is not in the body, `some none` for `null`. -/
structure UpdateTenantRequest where
  displayName               : Option (Option String) := none
  primaryContact            : Option (Option String) := none
  isActive                  : Option (Option Bool) := none
  extractionConfidenceFloor : Option (Option Rat) := none
  maxWritesPerDay           : Option (Option Nat) := none
  maxWritesPerMonth         : Option (Option Nat) := none
  disabledBlueprintList     : Option (Option (List String)) := none

/-! ## The tenants table -/

/-- `tenants_util.create_tenant` with `BaseCrudTable.create`. -/
def createTenantRecord (body : CreateTenantRequest) : Prog Unit := do
  match ← call (.getTenant body.tenantId.1) with
  | some _ => throw (.valueError ("Item already exists: " ++ body.tenantId.1 ++ "/"))
  | none   =>
    let now ← call .now
    call (.putTenant body.tenantId.1 fun
      | .displayName               => some body.displayName
      | .primaryContact            => nonEmpty body.primaryContact
      | .isActive                  => some true
      | .extractionConfidenceFloor => body.extractionConfidenceFloor
      | .maxWritesPerDay           => body.maxWritesPerDay
      | .maxWritesPerMonth         => body.maxWritesPerMonth
      | .disabledBlueprintList     => none
      | .createdAt                 => some now
      | .updatedAt                 => some now)

/-- The `SET` part for a field of the body: nothing when it is absent or `null`. -/
def setField (a : TenantRecord) (v : Option (Option (TenantRecord.Val a))) :
    List (Dynamo.Action TenantRecord.schema) :=
  match v with
  | some (some v) => [.set a v]
  | _             => []

/-- The `REMOVE` part for a clearable field: present when the body has `null`. -/
def clearField {α : Type} (a : TenantRecord) (v : Option (Option α)) : List TenantRecord :=
  match v with
  | some none => [a]
  | _         => []

/-- An empty list of disabled blueprints removes the attribute; `null` leaves it alone. -/
def disabledBlueprints (body : UpdateTenantRequest) : Option (List String) :=
  body.disabledBlueprintList.join

def setFields (body : UpdateTenantRequest) : List (Dynamo.Action TenantRecord.schema) :=
  setField .displayName body.displayName ++ setField .primaryContact body.primaryContact ++
    setField .isActive body.isActive ++
    setField .extractionConfidenceFloor body.extractionConfidenceFloor ++
    setField .maxWritesPerDay body.maxWritesPerDay ++
    setField .maxWritesPerMonth body.maxWritesPerMonth ++
    match disabledBlueprints body with
    | some (b :: bs) => [.set .disabledBlueprintList (b :: bs)]
    | _              => []

def clearFields (body : UpdateTenantRequest) : List TenantRecord :=
  clearField .primaryContact body.primaryContact ++
    clearField .extractionConfidenceFloor body.extractionConfidenceFloor ++
    clearField .maxWritesPerDay body.maxWritesPerDay ++
    clearField .maxWritesPerMonth body.maxWritesPerMonth ++
    if disabledBlueprints body = some [] then [.disabledBlueprintList] else []

/-- `tenants_util.update_tenant` with `BaseCrudTable.update`. -/
def updateTenantRecord (tenantId : String) (body : UpdateTenantRequest) : Prog Unit := do
  if setFields body = [] ∧ clearFields body = [] then throw (.valueError "No fields to update")
  match ← call (.getTenant tenantId) with
  | none   => throw (.valueError "Item not found")
  | some _ =>
    let now ← call .now
    call (.updateTenant tenantId { actions := setFields body ++ [.set .updatedAt now] }
      (clearFields body))
    match ← call (.getTenant tenantId) with
    | none   => throw (.valueError "Update failed")
    | some _ => return ()

/-- `tenants_util.deactivate_tenant` with `BaseCrudTable.deactivate`. -/
def deactivateTenant (tenantId : String) : Prog Bool := do
  match ← call (.getTenant tenantId) with
  | none   => return false
  | some _ =>
    let now ← call .now
    call (.updateTenant tenantId
      { actions := [.set .isActive (false : Bool), .set .updatedAt now] } [])
    return true

/-! ## Routes -/

def enforceScope (claims : Claims) (tenantId : String) : Except Exc Unit :=
  match tenantScope claims with
  | .error e      => .error e
  | .ok none      => .ok ()
  | .ok (some scope) =>
    if scope ≠ tenantId then .error (.httpException 403 "Access denied to this tenant.") else .ok ()

def createTenant (credentials : Option String) (body : CreateTenantRequest) : Prog Unit := do
  let claims ← verifyJwtWithSuperAdmin credentials
  tryCatch (createTenantRecord body) fun
    | .valueError msg => throw (.httpException 409 msg)
    | e               => throw e
  logEvent claims "tenant.create" "tenant" body.tenantId.1

/-- The fields of the body that only a super-admin may modify, sorted by name. -/
def restrictedFields (body : UpdateTenantRequest) : List String :=
  (if body.extractionConfidenceFloor.isSome then ["extraction_confidence_floor"] else []) ++
    (if body.isActive.isSome then ["is_active"] else []) ++
    (if body.maxWritesPerDay.isSome then ["max_writes_per_day"] else []) ++
    (if body.maxWritesPerMonth.isSome then ["max_writes_per_month"] else [])

/-- The limit after the request: the body's value or `null`, else the stored one. -/
def effectiveLimit (field : Option (Option Nat)) (stored : Option Nat) : Option Nat :=
  field.getD stored

def updateTenant (pid : Nat) (credentials : Option String) (tenantId : String)
    (body : UpdateTenantRequest) : Prog Unit := do
  let claims ← verifyJwtWithRole credentials
  Effect.Prog.ofExcept (enforceScope claims tenantId)
  match ← call (.getTenant tenantId) with
  | none        => throw (.httpException 404 "Tenant not found")
  | some record =>
    if !isSuperAdmin claims ∧ restrictedFields body ≠ [] then
      throw (.httpException 403
        ("Only super-admins may modify: " ++ ", ".intercalate (restrictedFields body)))
    if !validateWriteLimits (effectiveLimit body.maxWritesPerDay record.maxWritesPerDay)
        (effectiveLimit body.maxWritesPerMonth record.maxWritesPerMonth) then
      throw (.httpException 422 "Daily write limit cannot exceed monthly write limit")
    tryCatch (updateTenantRecord tenantId body) fun
      | .valueError msg => throw (.httpException 400 msg)
      | e               => throw e
    if body.isActive = some (some false) then deactivateKeysForTenant pid tenantId
    logEvent claims "tenant.update" "tenant" tenantId (some tenantId)

def deleteTenant (pid : Nat) (credentials : Option String) (tenantId : String) : Prog Unit := do
  let claims ← verifyJwtWithSuperAdmin credentials
  deactivateKeysForTenant pid tenantId
  let found : Bool ← deactivateTenant tenantId
  if !found then throw (.httpException 404 "Tenant not found")
  logEvent claims "tenant.deactivate" "tenant" tenantId (some tenantId)

end DocumentAi.Admin
