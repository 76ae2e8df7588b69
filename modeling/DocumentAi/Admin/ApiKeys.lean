import DocumentAi.Admin.Tenants

/-!
# `routers/api_keys.py` and `cli/api_keys.py`: creating and deactivating keys
-/

namespace DocumentAi.Admin

structure CreateApiKeyRequest where
  apiKeyName   : String
  environment  : String := "dev"
  emailAddress : Option String := none
  expiresAt    : Option Timestamp := none
  tenantId     : Option String := none

/-- The first characters of a text (`[:n]`). -/
def takeChars (n : Nat) (s : String) : String := String.ofList (s.toList.take n)

def createApiKey (env : KeyEnv) (credentials : Option String) (body : CreateApiKeyRequest) :
    Prog Unit := do
  let claims ← verifyJwtWithRole credentials
  let createdBy := (nonEmpty claims.email).or claims.sub
  let emailAddress := body.emailAddress.or (nonEmpty claims.email)
  let requested ← Effect.Prog.ofExcept (resolveTenant claims body.tenantId)
  match nonEmpty requested with
  | none =>
    throw (.httpException 400 "tenant_id is required when creating keys as super-admin.")
  | some effectiveTenant =>
    match ← call (.getTenant effectiveTenant) with
    | none =>
      throw (.httpException 400 ("Tenant '" ++ effectiveTenant ++ "' does not exist."))
    | some tenantRecord =>
      if !tenantRecord.isActive then
        throw (.httpException 400 ("Tenant '" ++ effectiveTenant ++ "' is inactive."))
      let duplicate : Bool ← isDuplicateKeyName effectiveTenant body.apiKeyName
      if duplicate then
        throw (.httpException 409
          ("An active key named '" ++ body.apiKeyName ++ "' already exists for this tenant."))
      let (apiKey, _) ← tryCatch
        (generateApiKey env body.apiKeyName body.environment effectiveTenant body.expiresAt
          createdBy emailAddress)
        fun _ => throw (.httpException 500 "Failed to generate API key")
      logEvent claims "key.create" "key" (takeChars 8 (env.sha256 apiKey)) (some effectiveTenant)

/-- The end of `typer.Exit(code=1)`. -/
def exit1 : Exc := .exception "1"

/-- `generate` of `cli/api_keys.py`: the tenant must exist. -/
def cliGenerate (env : KeyEnv) (apiKeyName environment tenantId : String)
    (expiresAt : Option Timestamp) : Prog Unit := do
  match ← call (.getTenant tenantId) with
  | none   => throw exit1
  | some _ =>
    let _ ← tryCatch (generateApiKey env apiKeyName environment tenantId expiresAt none none)
      fun _ => throw exit1
    return ()

/-- `find_api_key_by_prefix`. -/
def findApiKeyByPrefix (keyPrefix : String) (tenantId : Option String) :
    Prog (Option String) := do
  let allItems ← tryCatch (call .scanKeys) fun _ => return []
  let found := (allItems.filter fun e => e.2.isActive &&
    keyPrefix.toList.isPrefixOf e.1.toList && tenantId.all fun t => e.2.tenantId == some t).map (·.1)
  match found with
  | []     => return none
  | [hash] => return some hash
  | _      => throw (.valueError ("Prefix '" ++ keyPrefix ++ "' matches " ++
      toString found.length ++ " keys; use a longer prefix"))

def keyNotFound : Exc := .httpException 404 "Key not found"

/-- The full hash that `delete_api_key` deactivates. -/
def resolveKeyId (keyId : String) (callerTenant : Option String) : Prog String := do
  if keyId.length = 64 then
    match callerTenant with
    | none        => return keyId
    | some tenant =>
      match ← call (.getKey keyId) with
      | none        => throw keyNotFound
      | some record => if record.tenantId ≠ some tenant then throw keyNotFound else return keyId
  else
    let fullHash ← tryCatch (findApiKeyByPrefix keyId callerTenant) fun
      | .valueError msg => throw (.httpException 409 msg)
      | e               => throw e
    match nonEmpty fullHash with
    | none      => throw keyNotFound
    | some hash => return hash

def deleteApiKey (pid : Nat) (credentials : Option String) (keyId : String) : Prog Unit := do
  let claims ← verifyJwtWithRole credentials
  let callerTenant ← Effect.Prog.ofExcept (tenantScope claims)
  let fullHash ← resolveKeyId keyId callerTenant
  let deactivated : Bool ← deactivateApiKey pid fullHash
  if !deactivated then throw keyNotFound
  logEvent claims "key.revoke" "key" (takeChars 8 fullHash) callerTenant

/-- `deactivate --api-key` of `cli/api_keys.py`. -/
def cliDeactivate (env : KeyEnv) (pid : Nat) (apiKey : String) : Prog Unit := do
  let deactivated : Bool ← deactivateApiKey pid (computeKeyHash env apiKey)
  if !deactivated then throw exit1

end DocumentAi.Admin
