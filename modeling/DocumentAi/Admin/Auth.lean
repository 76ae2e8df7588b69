import DocumentAi.Admin.JwtAuth

/-!
# `utils/auth.py`: API-key authentication, key creation and deactivation

| here | there |
| --- | --- |
| `KeyEnv`  | the settings of one deployment: the pepper `_get_pepper` resolves and keeps, the hash functions, the cache TTL, the local-development switch |
| `pid`     | the process a function runs in: its cache and its `lastUsed` debounce |

Table and index names are taken as configured, and the pepper as resolved, to the same value in every
process: the `except` branch of `_get_pepper`, which answers none, and its `lru_cache` are left out.
-/

namespace DocumentAi.Admin

structure KeyEnv where
  pepper           : Option String := none
  /-- `hashlib.sha256(api_key).hexdigest()`. -/
  sha256           : String → String
  /-- `hmac.new(pepper, api_key, hashlib.sha256).hexdigest()`. -/
  hmacSha256       : String → String → String
  /-- `api_auth_cache_ttl` in seconds; `none` when reading it raises. -/
  apiAuthCacheTtl  : Option Nat := some 300
  apiAuthEnabled   : Bool := true
  insecureSharedKey : Option String := none

/-- `UserContext` (`utils/auth.py:38-43`). -/
structure UserContext where
  tenantId   : String
  apiKeyName : String
  authMethod : String := "api_key"
deriving DecidableEq, Repr

/-! ## Hashes and lookup -/

def hashKey (env : KeyEnv) (apiKey : String) : String := env.sha256 apiKey

def hashKeyWithPepper (env : KeyEnv) (apiKey pepper : String) : String :=
  env.hmacSha256 pepper apiKey

/-- The pepper, when truthy. -/
def getPepper (env : KeyEnv) : Option String := nonEmpty env.pepper

def computeKeyHash (env : KeyEnv) (apiKey : String) : String :=
  match getPepper env with
  | some pepper => hashKeyWithPepper env apiKey pepper
  | none        => hashKey env apiKey

/-- `_lookup_key_in_ddb`: a failed read counts as a missing record. -/
def lookupKeyInDdb (keyHash : String) : Prog (Option KeyRecord) :=
  tryCatch (call (.getKey keyHash)) fun _ => return none

/-- `_migrate_key_hash`. -/
def migrateKeyHash (pid : Nat) (oldHash newHash : String) : Prog Unit :=
  tryCatch (do
    match ← lookupKeyInDdb oldHash with
    | none          => return ()
    | some existing =>
      call (.putKey newHash existing)
      call (.deleteKey oldHash)
      call (.cacheInvalidate pid oldHash)) fun _ => return ()

/-- The part of `_lookup_and_maybe_migrate` after the peppered lookup. -/
def legacyLookup (env : KeyEnv) (pid : Nat) (apiKey : String) : Prog (Option KeyRecord) := do
  match ← lookupKeyInDdb (hashKey env apiKey) with
  | none        => return none
  | some record =>
    match getPepper env with
    | none        => return some record
    | some pepper =>
      migrateKeyHash pid (hashKey env apiKey) (hashKeyWithPepper env apiKey pepper)
      return some record

def lookupAndMaybeMigrate (env : KeyEnv) (pid : Nat) (apiKey : String) :
    Prog (Option KeyRecord) := do
  match getPepper env with
  | none        => legacyLookup env pid apiKey
  | some pepper =>
    match ← lookupKeyInDdb (hashKeyWithPepper env apiKey pepper) with
    | some record => return some record
    | none        => legacyLookup env pid apiKey

def getCacheTtlMinutes (env : KeyEnv) : Nat :=
  match env.apiAuthCacheTtl with
  | some seconds => max 1 (seconds / 60)
  | none         => 5

/-! ## Validation -/

/-- `_validate_key_record`, with the clock it reads when there is an expiry. -/
def keyRecordValid (record : KeyRecord) (now : Timestamp) : Bool :=
  record.isActive && match record.expiresAt with
    | none               => true
    | some none          => false
    | some (some expiry) => !decide (expiry < now)

def validateKeyRecord (record : KeyRecord) : Prog Bool := do
  if !record.isActive then return false
  match record.expiresAt with
  | some (some _) => return keyRecordValid record (← call .now)
  | _             => return keyRecordValid record 0

def API_KEY_PREFIX : String := "docai_"

def isValidKeyFormat (apiKey : String) : Bool :=
  API_KEY_PREFIX.toList.isPrefixOf apiKey.toList &&
    decide (API_KEY_PREFIX.length + 32 ≤ apiKey.length)

def invalidApiKey : Exc := .httpException 401 "Invalid API key"

/-- `_update_last_used`, the body of the started thread. -/
def updateLastUsed (pid : Nat) (keyHash : String) : Prog Unit := do
  let due : Bool ← call (.debounce pid keyHash)
  if due then
    tryCatch (do
      let now ← call .now
      call (.updateKey keyHash { actions := [.set .lastUsed now] })) fun _ =>
        call (.forgetLastUsed pid keyHash)

/-- The record of the key: the cached one, else the stored one, which is then cached. -/
def findRecord (env : KeyEnv) (pid : Nat) (apiKey : String) : Prog (Option KeyRecord) := do
  match ← call (.cacheGet pid (computeKeyHash env apiKey)) with
  | some record => return some record
  | none        =>
    match ← lookupAndMaybeMigrate env pid apiKey with
    | none        => return none
    | some record =>
      call (.cacheAdd pid (computeKeyHash env apiKey) record (getCacheTtlMinutes env))
      return some record

/-- The end of `_authenticate`, for a valid record. -/
def acceptRecord (pid : Nat) (keyHash : String) (record : KeyRecord) :
    Prog (KeyRecord × String) :=
  match nonEmpty record.tenantId with
  | none          => throw invalidApiKey
  | some tenantId => do
    call (.startLastUsed pid keyHash)
    return (record, tenantId)

/-- `_authenticate`. -/
def authenticate (env : KeyEnv) (pid : Nat) (apiKey : String) : Prog (KeyRecord × String) :=
  if isValidKeyFormat apiKey then do
    match ← findRecord env pid apiKey with
    | none        => throw invalidApiKey
    | some record =>
      let valid ← validateKeyRecord record
      if valid then acceptRecord pid (computeKeyHash env apiKey) record else throw invalidApiKey
  else throw invalidApiKey

/-- `secrets.compare_digest` on two texts: ASCII only. -/
def compareDigest (a b : String) : Except Exc Bool :=
  if a.toList.all (·.val < 128) && b.toList.all (·.val < 128) then .ok (a = b)
  else .error (.exception "comparing strings with non-ASCII characters is not supported")

def verifyWithInsecureSharedKey (env : KeyEnv) (apiKey : String) : Except Exc Unit :=
  match nonEmpty env.insecureSharedKey with
  | none          => .error (.httpException 500 "API key not configured")
  | some expected =>
    if apiKey = "" then .error invalidApiKey
    else match compareDigest apiKey expected with
      | .error e   => .error e
      | .ok true   => .ok ()
      | .ok false  => .error invalidApiKey

/-! ## Creation and deactivation -/

/-- `get_active_keys_by_name` with a tenant. -/
def getActiveKeysByName (apiKeyName tenantId : String) : Prog (List (String × KeyRecord)) :=
  tryCatch (do
    let items ← call (.queryKeysByTenant tenantId (nonEmpty (some apiKeyName)))
    return items.filter fun e => e.2.isActive) fun _ => return []

def isDuplicateKeyName (tenantId apiKeyName : String) : Prog Bool :=
  tryCatch (do
    let items ← call (.queryKeysByTenant tenantId (nonEmpty (some apiKeyName)))
    return decide (0 < items.length)) fun _ => return false

/-- The item `generate_api_key` stores. -/
def newKeyRecord (apiKeyName environment tenantId : String) (expiresAt : Option Timestamp)
    (createdBy emailAddress : Option String) (now : Timestamp) : KeyRecord
  | .apiKeyName   => some apiKeyName
  | .tenantId     => some tenantId
  | .environment  => some environment
  | .isActive     => some true
  | .createdAt    => some now
  | .expiresAt    => expiresAt.map some
  | .lastUsed     => none
  | .createdBy    => nonEmpty createdBy
  | .emailAddress => nonEmpty emailAddress

def generateApiKey (env : KeyEnv) (apiKeyName environment tenantId : String)
    (expiresAt : Option Timestamp) (createdBy emailAddress : Option String) :
    Prog (String × List (String × KeyRecord)) := do
  let existingKeys ← getActiveKeysByName apiKeyName tenantId
  let randomPart : String ← call .tokenUrlsafe
  let apiKey := API_KEY_PREFIX ++ randomPart
  let now ← call .now
  call (.putKey (computeKeyHash env apiKey)
    (newKeyRecord apiKeyName environment tenantId expiresAt createdBy emailAddress now))
  return (apiKey, existingKeys)

/-- `SET isActive = :isActive` with `false`. -/
def deactivation : Dynamo.Update ApiKeyRecord.schema :=
  { actions := [.set .isActive (false : Bool)] }

def deactivateApiKey (pid : Nat) (keyHash : String) : Prog Bool := do
  match ← call (.getKey keyHash) with
  | none   => return false
  | some _ =>
    call (.updateKey keyHash deactivation)
    call (.cacheInvalidate pid keyHash)
    return true

/-- One round of the loop of `deactivate_keys_for_tenant`. -/
def deactivateOne (pid : Nat) (keyHash : String) : Prog Unit :=
  tryCatch (do
    let _ ← deactivateApiKey pid keyHash
    return ()) fun _ => return ()

/-- `deactivate_keys_for_tenant`; the count it returns only goes to the audit log. -/
def deactivateKeysForTenant (pid : Nat) (tenantId : String) : Prog Unit := do
  let items ← call (.queryKeysByTenant tenantId none)
  let active := items.filter fun e => e.2.isActive
  Effect.Prog.forEach (deactivateOne pid) ((active.map (·.1)).filter (· ≠ ""))

/-! ## User context -/

/-- `get_user_context_from_api_key`. -/
def getUserContextFromApiKey (env : KeyEnv) (pid : Nat) (apiKey : String) : Prog UserContext := do
  if env.apiAuthEnabled then
    let (record, tenantId) ← authenticate env pid apiKey
    return { tenantId, apiKeyName := record.apiKeyName.getD "unknown" }
  else
    Effect.Prog.ofExcept (verifyWithInsecureSharedKey env apiKey)
    return { tenantId := "local", apiKeyName := "local-dev" }

/-- The tenant id of a JWT caller's context. -/
def contextTenant (claims : Claims) : Except Exc String :=
  if isSuperAdmin claims then .ok SUPER_ADMIN
  else match nonEmpty (getTenantId claims) with
    | none        => .error noTenantAssigned
    | some tenant => .ok tenant

def missingCredentials : Exc :=
  .httpException 401 "Missing or invalid API-Key or Authorization header"

/-- The JWT part of `get_user_context_with_fallback`. -/
def getUserContextFromToken (token : String) : Prog UserContext :=
  tryCatch (do
    let claims ← call (.decodeAndVerify token)
    Effect.Prog.ofExcept (requireRole claims)
    let tenantId ← Effect.Prog.ofExcept (contextTenant claims)
    return {
      tenantId
      apiKeyName := (nonEmpty claims.email).getD (claims.sub.getD "unknown")
      authMethod := "jwt" }) fun
    | .httpException status detail => throw (.httpException status detail)
    | _                            => throw missingCredentials

def getUserContextFromCredentials (credentials : Option String) : Prog UserContext :=
  match credentials with
  | some token => getUserContextFromToken token
  | none       => throw missingCredentials

/-- `get_user_context_with_fallback`. -/
def getUserContextWithFallback (env : KeyEnv) (pid : Nat) (apiKey credentials : Option String) :
    Prog UserContext :=
  match nonEmpty apiKey with
  | some key =>
    tryCatch (getUserContextFromApiKey env pid key) fun
      | .httpException _ _ => getUserContextFromCredentials credentials
      | e                  => throw e
  | none     => getUserContextFromCredentials credentials

/-- `resolve_tenant_from_context`. -/
def resolveTenantFromContext (auth : UserContext) (requestedTenantId : Option String) :
    Except Exc (Option String) :=
  let ownTenant :=
    if (nonEmpty requestedTenantId).any (· ≠ auth.tenantId) then
      .error (.httpException 403 "Access denied.")
    else .ok (some auth.tenantId)
  if auth.authMethod = "api_key" then ownTenant
  else if auth.tenantId = SUPER_ADMIN then .ok requestedTenantId
  else ownTenant

/-- `_resolve_tenant` of `routers/extraction_rules.py`. -/
def resolveRulesTenant (authTenantId : String) (bodyTenantId : Option String) :
    Except Exc String :=
  if authTenantId ≠ "__admin__" then .ok authTenantId
  else match nonEmpty bodyTenantId with
    | none        =>
      .error (.httpException 400 "tenant_id is required for super-admin operations.")
    | some tenant => .ok tenant

end DocumentAi.Admin
