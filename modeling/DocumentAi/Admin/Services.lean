import DocumentAi.Services

/-!
# Services of the admin API: keys, tenants, users and the state of a process

As in `Services`, one call is one request and is executed atomically, a failed call changes nothing,
and a query of an index is answered from the table as it stands. The stores are shared; the auth cache,
the `lastUsed` debounce and the started background updates belong to one process, named by a number.

| here | there |
| --- | --- |
| `getKey` … `queryKeysByTenant`   | `services/ddb.py` on the api-keys table and its tenant index |
| `getTenant`, `putTenant`, `updateTenant` | the same on the tenants table |
| `admin…`                         | the Cognito client calls of `services/cognito.py` |
| `signUp`, `issueToken`           | the Cognito hosted UI: a new user, a token with the user's groups and tenant |
| `decodeAndVerify`                | `_decode_and_verify` (`utils/jwt_auth.py`): the payload of an issued token |
| `putAuditEvent`                  | one `put_item` of `log_event` (`utils/audit_log.py`) |
| `cacheGet`, `cacheAdd`, `cacheInvalidate` | `Cache` (`utils/cache.py`) |
| `debounce`, `forgetLastUsed`     | the two `_last_used_lock` sections of `_update_last_used` (`utils/auth.py`) |
| `startLastUsed`, `takeLastUsed`  | `threading.Thread(target=_update_last_used).start()` and that thread's start |
-/

namespace DocumentAi.Admin

/-! ## Tables -/

/-- Attributes of an api-keys item beside its key `keyHash` (`schemas/api_key.py`). -/
inductive ApiKeyRecord where
  | apiKeyName | tenantId | environment | isActive | createdAt | expiresAt | lastUsed | createdBy
  | emailAddress
deriving DecidableEq, Repr

namespace ApiKeyRecord

/-- `expiresAt` is `none` when its text is not an ISO date. -/
def Val : ApiKeyRecord → Type
  | isActive => Bool
  | createdAt | lastUsed => Timestamp
  | expiresAt => Option Timestamp
  | _ => String

abbrev schema : Dynamo.Schema := ⟨ApiKeyRecord, Val⟩

end ApiKeyRecord

abbrev KeyRecord : Type := Dynamo.Item ApiKeyRecord.schema

namespace KeyRecord

def isActive (r : KeyRecord) : Bool := ((r .isActive : Option Bool)).getD false
def tenantId (r : KeyRecord) : Option String := r .tenantId
def apiKeyName (r : KeyRecord) : Option String := r .apiKeyName
def expiresAt (r : KeyRecord) : Option (Option Timestamp) := r .expiresAt

end KeyRecord

/-- Attributes of a tenants item beside its key `tenantId` (`schemas/tenants.py`). -/
inductive TenantRecord where
  | displayName | primaryContact | isActive | extractionConfidenceFloor | maxWritesPerDay
  | maxWritesPerMonth | disabledBlueprintList | createdAt | updatedAt
deriving DecidableEq, Repr

namespace TenantRecord

def Val : TenantRecord → Type
  | displayName | primaryContact => String
  | isActive => Bool
  | extractionConfidenceFloor => Rat
  | maxWritesPerDay | maxWritesPerMonth => Nat
  | disabledBlueprintList => List String
  | createdAt | updatedAt => Timestamp

abbrev schema : Dynamo.Schema := ⟨TenantRecord, Val⟩

end TenantRecord

abbrev TenantItem : Type := Dynamo.Item TenantRecord.schema

namespace TenantItem

/-- `record.get(TenantRecord.IS_ACTIVE, True)`. -/
def isActive (r : TenantItem) : Bool := ((r .isActive : Option Bool)).getD true
def maxWritesPerDay (r : TenantItem) : Option Nat := r .maxWritesPerDay
def maxWritesPerMonth (r : TenantItem) : Option Nat := r .maxWritesPerMonth

end TenantItem

/-! ## Users and tokens -/

structure CognitoUser where
  groups   : List String := []
  /-- The attribute `custom:tenant_id`. -/
  tenantId : Option String := none
  email    : Option String := none
  sub      : String := ""
deriving DecidableEq, Repr

/-- The claim `cognito:groups`. -/
inductive GroupsClaim where
  | absent
  | single (group : String)
  | many (groups : List String)
deriving DecidableEq, Repr

/-- The claims of a verified token that the code reads. -/
structure Claims where
  groups   : GroupsClaim := .absent
  tenantId : Option String := none
  email    : Option String := none
  sub      : Option String := none
  username : Option String := none
deriving DecidableEq, Repr

/-- The payload of a token for the user; an access token carries no custom attribute. -/
def Claims.ofUser (username : String) (u : CognitoUser) (accessToken : Bool) : Claims where
  groups   := if u.groups = [] then .absent else .many u.groups
  tenantId := if accessToken then none else u.tenantId
  email    := if accessToken then none else u.email
  sub      := some u.sub
  username := some username

/-- An item of the audit-events table; `metadata` and the times are left out. -/
structure AuditEvent where
  tenantId   : String
  actorSub   : String
  actorEmail : String
  action     : String
  targetType : String
  targetId   : String
deriving DecidableEq, Repr

/-! ## One process -/

/-- `CacheItem`: a value and `expires_at`. -/
structure CacheItem where
  value     : KeyRecord
  expiresAt : Timestamp

structure Process where
  cache             : List (String × CacheItem) := []
  /-- `_last_used_written_at`: the oldest entry comes first. -/
  lastUsedWrittenAt : List (String × Nat) := []
  /-- Background updates that have been started and have not begun to run. -/
  lastUsedThreads   : List String := []

def lastUsedDebounceSeconds : Nat := 60
def lastUsedMaxEntries : Nat := 50000

namespace Process

/-- `Cache.get`: an expired entry is removed. -/
def cacheGet (p : Process) (key : String) (now : Timestamp) : Option KeyRecord × Process :=
  match p.cache.lookup key with
  | none      => (none, p)
  | some item =>
    if item.expiresAt < now then (none, { p with cache := p.cache.filter fun e => e.1 != key })
    else (some item.value, p)

/-- `Cache.add`. -/
def cacheAdd (p : Process) (key : String) (value : KeyRecord) (ttlMinutes : Nat)
    (now : Timestamp) : Process :=
  { p with
    cache := (key, { value, expiresAt := now + ttlMinutes * 60000000 }) ::
      p.cache.filter fun e => e.1 != key }

/-- `Cache.invalidate`. -/
def cacheInvalidate (p : Process) (key : String) : Process :=
  { p with cache := p.cache.filter fun e => e.1 != key }

/-- The first locked section of `_update_last_used`: `false` when the update is skipped. `seconds`
is `time.monotonic()`. -/
def debounce (p : Process) (hash : String) (seconds : Nat) : Bool × Process :=
  let last := (p.lastUsedWrittenAt.lookup hash).getD 0
  if seconds - last < lastUsedDebounceSeconds then (false, p)
  else
    let newestFirst := (hash, seconds) :: (p.lastUsedWrittenAt.filter fun e => e.1 != hash).reverse
    (true, { p with lastUsedWrittenAt := (newestFirst.take lastUsedMaxEntries).reverse })

/-- The locked section of the exception handler. -/
def forgetLastUsed (p : Process) (hash : String) : Process :=
  { p with lastUsedWrittenAt := p.lastUsedWrittenAt.filter fun e => e.1 != hash }

end Process

/-! ## Calls -/

inductive Op where
  | getKey (hash : String)
  | putKey (hash : String) (item : KeyRecord)
  | updateKey (hash : String) (u : Dynamo.Update ApiKeyRecord.schema)
  | deleteKey (hash : String)
  | scanKeys
  | queryKeysByTenant (tenantId : String) (apiKeyName : Option String)
  | getTenant (tenantId : String)
  | putTenant (tenantId : String) (item : TenantItem)
  | updateTenant (tenantId : String) (u : Dynamo.Update TenantRecord.schema)
      (clear : List TenantRecord)
  | adminListGroupsForUser (username : String)
  | adminAddUserToGroup (username group : String)
  | adminRemoveUserFromGroup (username group : String)
  | adminUpdateUserAttributes (username tenantId : String)
  | adminDeleteUserAttributes (username : String)
  | adminDeleteUser (username : String)
  | signUp (username : String) (email : Option String) (sub : String)
  | issueToken (username : String)
  | decodeAndVerify (token : String)
  | putAuditEvent (e : AuditEvent)
  | cacheGet (pid : Nat) (key : String)
  | cacheAdd (pid : Nat) (key : String) (value : KeyRecord) (ttlMinutes : Nat)
  | cacheInvalidate (pid : Nat) (key : String)
  | debounce (pid : Nat) (hash : String)
  | forgetLastUsed (pid : Nat) (hash : String)
  | startLastUsed (pid : Nat) (hash : String)
  | takeLastUsed (pid i : Nat)
  | now
  | tokenUrlsafe

def Op.Res : Op → Type
  | getKey _ => Option KeyRecord
  | scanKeys | queryKeysByTenant .. => List (String × KeyRecord)
  | getTenant _ => Option TenantItem
  | adminListGroupsForUser _ => List String
  | issueToken _ => String
  | decodeAndVerify _ => Claims
  | cacheGet .. => Option KeyRecord
  | debounce .. => Bool
  | takeLastUsed .. => String
  | now => Timestamp
  | tokenUrlsafe => String
  | _ => Unit

abbrev sig : Effect.Sig := ⟨Op, Op.Res, Exc⟩

abbrev Prog (α : Type) : Type := Effect.Prog sig α

def call (op : Op) : Prog op.Res := Effect.Prog.perform (S := sig) op

/-! ## The world -/

structure World where
  apiKeys     : Dynamo.Table String ApiKeyRecord.schema := .empty
  tenants     : Dynamo.Table String TenantRecord.schema := .empty
  users       : String → Option CognitoUser := fun _ => none
  /-- Every token Cognito has issued, with its payload. -/
  tokens      : List (String × Claims) := []
  auditEvents : List AuditEvent := []
  processes   : Nat → Process := fun _ => {}
  /-- Random strings `secrets` has drawn. -/
  randoms     : List String := []

/-- The environment's part in one call. -/
structure Choice where
  fail        : Option Exc := none
  now         : Timestamp := 0
  /-- `time.monotonic()`, in whole seconds. -/
  monotonic   : Nat := 0
  /-- The token Cognito issues or the string `secrets` draws. -/
  fresh       : String := ""
  accessToken : Bool := false

namespace World

def ok {op : Op} (w : World) (r : op.Res) : Option (sig.Ans op × World) := some (.ok r, w)

def raise {op : Op} (w : World) (e : Exc) : Option (sig.Ans op × World) := some (.error e, w)

def setProcess (w : World) (pid : Nat) (p : Process) : World :=
  { w with processes := Function.update w.processes pid p }

def setUser (w : World) (username : String) (u : Option CognitoUser) : World :=
  { w with users := Function.update w.users username u }

def userNotFound : Exc := .clientError (.other "UserNotFoundException")

/-- A Cognito call that changes one user and answers nothing. -/
def onUser (w : World) (username : String) (f : CognitoUser → CognitoUser) :
    Except Exc Unit × World :=
  match w.users username with
  | some u => (.ok (), w.setUser username (some (f u)))
  | none   => (.error userNotFound, w)

/-- Execute a call that does not fail by the environment's choice. -/
def run (w : World) (ch : Choice) : (op : Op) → Option (sig.Ans op × World)
  | .getKey hash => w.ok (w.apiKeys.item hash)
  | .putKey hash item => some (.ok (), { w with apiKeys := w.apiKeys.put hash item })
  | .updateKey hash u =>
    match w.apiKeys.update hash u with
    | .ok apiKeys => some (.ok (), { w with apiKeys })
    | .error e    => w.raise (.ofRejection e)
  | .deleteKey hash => some (.ok (), { w with apiKeys := w.apiKeys.delete hash })
  | .scanKeys => w.ok (w.apiKeys.query fun _ => true)
  | .queryKeysByTenant t name =>
    w.ok (w.apiKeys.query fun (it : KeyRecord) =>
      it.tenantId == some t && name.all fun n => it.apiKeyName == some n)
  | .getTenant t => w.ok (w.tenants.item t)
  | .putTenant t item => some (.ok (), { w with tenants := w.tenants.put t item })
  | .updateTenant t u clear =>
    match w.tenants.updateRemoving t u clear with
    | .ok tenants => some (.ok (), { w with tenants })
    | .error e    => w.raise (.ofRejection e)
  | .adminListGroupsForUser n =>
    match w.users n with
    | some u => w.ok u.groups
    | none   => w.raise userNotFound
  | .adminAddUserToGroup n g =>
    some (w.onUser n fun u => { u with groups := if g ∈ u.groups then u.groups else u.groups ++ [g] })
  | .adminRemoveUserFromGroup n g =>
    some (w.onUser n fun u => { u with groups := u.groups.filter (· != g) })
  | .adminUpdateUserAttributes n t => some (w.onUser n fun u => { u with tenantId := some t })
  | .adminDeleteUserAttributes n => some (w.onUser n fun u => { u with tenantId := none })
  | .adminDeleteUser n =>
    match w.users n with
    | some _ => some (.ok (), w.setUser n none)
    | none   => w.raise userNotFound
  | .signUp n email sub =>
    match w.users n with
    | some _ => w.raise (.clientError (.other "UsernameExistsException"))
    | none   => some (.ok (), w.setUser n (some { email, sub }))
  | .issueToken n =>
    if ch.fresh ∈ w.tokens.map (·.1) then none
    else match w.users n with
      | some u =>
        some (.ok ch.fresh,
          { w with tokens := (ch.fresh, Claims.ofUser n u ch.accessToken) :: w.tokens })
      | none   => w.raise userNotFound
  | .decodeAndVerify token =>
    match w.tokens.lookup token with
    | some claims => w.ok claims
    | none        => w.raise (.exception "InvalidTokenError")
  | .putAuditEvent e => some (.ok (), { w with auditEvents := e :: w.auditEvents })
  | .cacheGet pid key =>
    let r := (w.processes pid).cacheGet key ch.now
    some (.ok r.1, w.setProcess pid r.2)
  | .cacheAdd pid key value ttl =>
    some (.ok (), w.setProcess pid ((w.processes pid).cacheAdd key value ttl ch.now))
  | .cacheInvalidate pid key =>
    some (.ok (), w.setProcess pid ((w.processes pid).cacheInvalidate key))
  | .debounce pid hash =>
    let r := (w.processes pid).debounce hash ch.monotonic
    some (.ok r.1, w.setProcess pid r.2)
  | .forgetLastUsed pid hash =>
    some (.ok (), w.setProcess pid ((w.processes pid).forgetLastUsed hash))
  | .startLastUsed pid hash =>
    let p := w.processes pid
    some (.ok (), w.setProcess pid { p with lastUsedThreads := p.lastUsedThreads ++ [hash] })
  | .takeLastUsed pid i =>
    let p := w.processes pid
    (p.lastUsedThreads[i]?).map fun hash =>
      (.ok hash, w.setProcess pid { p with lastUsedThreads := p.lastUsedThreads.eraseIdx i })
  | .now => w.ok ch.now
  | .tokenUrlsafe =>
    if ch.fresh ∈ w.randoms then none
    else some (.ok ch.fresh, { w with randoms := ch.fresh :: w.randoms })

/-- Calls that stay inside the process: they do not fail. -/
def isLocal : Op → Bool
  | .cacheGet .. | .cacheAdd .. | .cacheInvalidate .. | .debounce .. | .forgetLastUsed ..
  | .startLastUsed .. | .takeLastUsed .. | .now | .tokenUrlsafe => true
  | _ => false

def exec (w : World) (op : Op) (ch : Choice) : Option (sig.Ans op × World) :=
  match ch.fail with
  | some e => if isLocal op then w.run ch op else w.raise e
  | none   => w.run ch op

end World

end DocumentAi.Admin
