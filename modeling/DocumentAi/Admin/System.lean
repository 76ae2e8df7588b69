import DocumentAi.Admin.ApiKeys
import DocumentAi.Admin.Users

/-!
# The admin system: its routes, commands and background updates over one world

| here | there |
| --- | --- |
| `authenticate`, `getUserContext`       | the API-key and fallback dependencies of the routes (`utils/auth.py`) |
| `deactivateApiKey`                     | a call of `deactivate_api_key` |
| `createApiKey` … `deleteUser`          | the routes under `/v1/admin` |
| `cliGenerate`, `cliDeactivate`         | the commands of `cli/api_keys.py` |
| `updateLastUsed`                       | a background update started by an authentication |
| `signUp`, `signIn`                     | a user at the Cognito hosted UI |
-/

namespace DocumentAi.Admin

inductive Entry where
  | authenticate (pid : Nat) (apiKey : String)
  | getUserContext (pid : Nat) (apiKey credentials : Option String)
  | deactivateApiKey (pid : Nat) (keyHash : String)
  | updateLastUsed (pid i : Nat)
  | createApiKey (credentials : Option String) (body : CreateApiKeyRequest)
  | deleteApiKey (pid : Nat) (credentials : Option String) (keyId : String)
  | cliGenerate (apiKeyName environment tenantId : String) (expiresAt : Option Timestamp)
  | cliDeactivate (pid : Nat) (apiKey : String)
  | createTenant (credentials : Option String) (body : CreateTenantRequest)
  | updateTenant (pid : Nat) (credentials : Option String) (tenantId : String)
      (body : UpdateTenantRequest)
  | deleteTenant (pid : Nat) (credentials : Option String) (tenantId : String)
  | approveUser (credentials : Option String) (username : String) (body : ApproveRequest)
  | changeRole (credentials : Option String) (username : String) (body : ChangeRoleRequest)
  | changeTenant (credentials : Option String) (username : String) (body : ChangeTenantRequest)
  | deleteUser (credentials : Option String) (username : String)
  | signUp (username : String) (email : Option String) (sub : String)
  | signIn (username : String)

/-- Drop the result of a program. -/
def discard {α : Type} (p : Prog α) : Prog Unit := do
  let _ ← p
  return ()

def Entry.body (env : KeyEnv) : Entry → Prog Unit
  | authenticate pid key                  => discard (Admin.authenticate env pid key)
  | getUserContext pid key creds          => discard (getUserContextWithFallback env pid key creds)
  | deactivateApiKey pid hash             => discard (Admin.deactivateApiKey pid hash)
  | updateLastUsed pid i                  => do Admin.updateLastUsed pid (← call (.takeLastUsed pid i))
  | createApiKey creds body               => Admin.createApiKey env creds body
  | deleteApiKey pid creds keyId          => Admin.deleteApiKey pid creds keyId
  | cliGenerate name e tenant expiry      => Admin.cliGenerate env name e tenant expiry
  | cliDeactivate pid key                 => Admin.cliDeactivate env pid key
  | createTenant creds body               => Admin.createTenant creds body
  | updateTenant pid creds tenant body    => Admin.updateTenant pid creds tenant body
  | deleteTenant pid creds tenant         => Admin.deleteTenant pid creds tenant
  | approveUser creds user body           => Admin.approveUser creds user body
  | changeRole creds user body            => Admin.changeRole creds user body
  | changeTenant creds user body          => Admin.changeTenant creds user body
  | deleteUser creds user                 => Admin.deleteUser creds user
  | signUp user email sub                 => call (.signUp user email sub)
  | signIn user                           => discard (call (.issueToken user))

abbrev system (env : KeyEnv) : Effect.Sys sig where
  World  := World
  Choice := Choice
  exec   := World.exec
  Entry  := Entry
  body   := Entry.body env

abbrev Config (env : KeyEnv) : Type := Effect.Config (system env)
abbrev Move (env : KeyEnv) : Type := Effect.Move (system env)
abbrev Thread (env : KeyEnv) : Type := Effect.Thread (system env)

/-- A deployment for sample runs, with hashes that are one-to-one and apart from each other. -/
def sampleKeyEnv : KeyEnv where
  sha256     := fun key => "sha256:" ++ key
  hmacSha256 := fun pepper key => "hmac:" ++ pepper ++ ":" ++ key

def sampleApiKey : String := "docai_0123456789abcdef0123456789abcdef"

def sampleKeyRecord : KeyRecord
  | .apiKeyName => some "intake"
  | .tenantId   => some "acme"
  | .isActive   => some true
  | _           => none

end DocumentAi.Admin
