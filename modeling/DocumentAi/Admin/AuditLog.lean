import DocumentAi.Admin.Documents
import DocumentAi.Admin.Tenants
import DocumentAi.Utils.IsoTime

/-!
# The audit log (`utils/audit_log.py`, `routers/audit_log.py`)

`Admin.logEvent` has what an event is about; a row here also has its key, times and metadata.

| here | there |
| --- | --- |
| `logEvent`          | `log_event` (`utils/audit_log.py:51-108`) |
| `recordToItem`      | `record_to_item` (`:111-124`); every row is one of `log_event` and lacks nothing |
| `buildSkCondition`  | `build_sk_condition` (`:127-135`) |
| `queryByTenant`, `queryByActor`, `queryByAction` | the same names (`:138-211`) |
| `getAuditLog`       | `get_audit_log` (`routers/audit_log.py:84-151`); `count` is left out |
| `KeyCondition`      | **DynamoDB boundary**: the rows with a hash key and a range of sort keys |
| `asked`             | what an answer is meant to show |

Main theorem `getAuditLog_pages`: the pages of a request show what was asked, newest key first.
-/

namespace DocumentAi.AuditLog

open DocumentAi.Admin (Claims GLOBAL_TENANT nonEmpty nonEmpty_eq_some tenantScope)
open Iso (UtcTime isoformat)

/-- An item of the audit-events table. Its key is `tenantId` with `timestampEventId`. -/
structure AuditEventRecord where
  tenantId         : String
  timestampEventId : List Char
  eventId          : List Char
  actorSub         : String
  actorEmail       : String
  action           : String
  targetType       : String
  targetId         : String
  metadata         : List (List Char × Json)
  ttl              : Nat

/-! ## Writing -/

inductive Op where
  | ulid
  | now
  | time
  | putItem (item : AuditEventRecord)

def Op.Res : Op → Type
  | ulid      => List Char
  | now       => UtcTime
  | time      => Nat
  | putItem _ => Unit

abbrev sig : Effect.Sig := ⟨Op, Op.Res, Exc⟩

abbrev Prog (α : Type) : Type := Effect.Prog sig α

def call (op : Op) : Prog op.Res := Effect.Prog.perform (S := sig) op

/-- `_TTL_SECONDS`: one year. -/
def TTL_SECONDS : Nat := 365 * 24 * 60 * 60

def getTableName (auditEventsTableName : Option String) : Except Exc String :=
  match nonEmpty auditEventsTableName with
  | none      => .error (.valueError "AUDIT_EVENTS_TABLE_NAME environment variable not set")
  | some name => .ok name

/-- The arguments of `log_event`. -/
structure Logged where
  claims     : Claims
  action     : String
  targetType : String
  targetId   : String
  tenantId   : Option String := none
  metadata   : Option (List (List Char × Json)) := none

/-- `tenant_id or GLOBAL_TENANT`. -/
def Logged.partition (e : Logged) : String := (nonEmpty e.tenantId).getD GLOBAL_TENANT

def sortKey (now : UtcTime) (eventId : List Char) : List Char := isoformat now ++ '#' :: eventId

/-- `{**base_item, TENANT_ID: tenant}`. -/
def Logged.item (e : Logged) (eventId : List Char) (now : UtcTime) (seconds : Nat)
    (tenant : String) : AuditEventRecord where
  tenantId         := tenant
  timestampEventId := sortKey now eventId
  eventId          := eventId
  actorSub         := e.claims.sub.getD "unknown"
  actorEmail       := e.claims.email.getD "unknown"
  action           := e.action
  targetType       := e.targetType
  targetId         := e.targetId
  metadata         := e.metadata.getD []
  ttl              := seconds + TTL_SECONDS

def logEvent (auditEventsTableName : Option String) (e : Logged) : Prog Unit := do
  let eventId ← call .ulid
  let now ← call .now
  let seconds ← call .time
  tryCatch (do
    let _ ← Effect.Prog.ofExcept (getTableName auditEventsTableName)
    call (.putItem (e.item eventId now seconds e.partition))
    if e.partition ≠ GLOBAL_TENANT then
      call (.putItem (e.item eventId now seconds GLOBAL_TENANT))) fun _ => return ()

/-! ## Reading -/

structure AuditEventItem where
  eventId        : List Char
  tenantId       : String
  maskedTenantId : Option String
  actorSub       : String
  actorEmail     : String
  action         : String
  targetType     : String
  targetId       : String
  metadata       : List (List Char × Json)
  timestamp      : List Char

def recordToItem (record : AuditEventRecord) : AuditEventItem where
  eventId        := record.eventId
  tenantId       := record.tenantId
  maskedTenantId := none
  actorSub       := record.actorSub
  actorEmail     := record.actorEmail
  action         := record.action
  targetType     := record.targetType
  targetId       := record.targetId
  metadata       := record.metadata
  timestamp      := record.timestampEventId.takeWhile (· ≠ '#')

/-- `sk.between(low, high)`, `sk.gte(low)` and `sk.lte(high)`. -/
inductive SkCondition where
  | between (low high : List Char)
  | gte (low : List Char)
  | lte (high : List Char)

def SkCondition.holds : SkCondition → List Char → Bool
  | between low high, sk => decide (low ≤ sk) && decide (sk ≤ high)
  | gte low, sk          => decide (low ≤ sk)
  | lte high, sk         => decide (sk ≤ high)

/-- `if text:`. -/
def truthyText (text : Option (List Char)) : Option (List Char) := text.filter (· ≠ [])

def buildSkCondition (startDate endDate : Option (List Char)) : Option SkCondition :=
  match truthyText startDate, truthyText endDate with
  | some start, some stop => some (.between start (stop ++ ['~']))
  | some start, none      => some (.gte start)
  | none, some stop       => some (.lte (stop ++ ['~']))
  | none, none            => none

/-- `Key(…).eq(…)` on the table or one of its two indexes. -/
inductive HashKey where
  | tenantId (value : String)
  | actorEmail (value : String)
  | action (value : String)

def HashKey.matches : HashKey → AuditEventRecord → Bool
  | tenantId value, r   => r.tenantId == value
  | actorEmail value, r => r.actorEmail == value
  | action value, r     => r.action == value

structure KeyCondition where
  hash : HashKey
  sk   : Option SkCondition

def KeyCondition.selects (k : KeyCondition) (r : AuditEventRecord) : Bool :=
  k.hash.matches r && k.sk.all fun c => c.holds r.timestampEventId

abbrev AuditQuery : Type := QuerySpec KeyCondition AuditEventRecord

/-- `PageLimit` bounds the limit; the dates are texts that begin with a date. -/
structure AuditRequest where
  isPresentationMode : Bool := false
  tenantId           : Option String := none
  action             : Option String := none
  actorEmail         : Option String := none
  startDate          : Option (List Char) := none
  endDate            : Option (List Char) := none
  limit              : Nat := 50
  limit_ge           : 1 ≤ limit := by decide
  limit_le           : limit ≤ 200 := by decide

def actionFilter (action : Option String) : Option (AuditEventRecord → Bool) :=
  (nonEmpty action).map fun a r => r.action == a

def queryByTenant (tenantId : String) (req : AuditRequest) : AuditQuery where
  keyCondition     := ⟨.tenantId tenantId, buildSkCondition req.startDate req.endDate⟩
  filterExpression :=
    match actionFilter req.action, nonEmpty req.actorEmail with
    | some f, some e => some fun r => f r && r.actorEmail == e
    | none, some e   => some fun r => r.actorEmail == e
    | f, none        => f
  limit            := some req.limit
  scanForward      := false

def queryByActor (actorEmail : String) (req : AuditRequest) : AuditQuery where
  keyCondition     := ⟨.actorEmail actorEmail, buildSkCondition req.startDate req.endDate⟩
  indexName        := some "actor-email-timestamp-index"
  filterExpression := actionFilter req.action
  limit            := some req.limit
  scanForward      := false

def queryByAction (action : String) (req : AuditRequest) : AuditQuery where
  keyCondition := ⟨.action action, buildSkCondition req.startDate req.endDate⟩
  indexName    := some "action-timestamp-index"
  limit        := some req.limit
  scanForward  := false

/-- The tenant of the request after the caller's scope. -/
def auditTenant (scope : Option String) (req : AuditRequest) : Except Exc (Option String) :=
  match scope with
  | none        => .ok (nonEmpty req.tenantId)
  | some tenant =>
    if (nonEmpty req.tenantId).any (· ≠ tenant) then
      .error (.httpException 403 "Access denied to this tenant's audit log.")
    else .ok (some tenant)

def auditQuery (tenantId : Option String) (req : AuditRequest) : AuditQuery :=
  match tenantId, nonEmpty req.actorEmail, nonEmpty req.action with
  | none, some e, _    => queryByActor e req
  | none, none, some a => queryByAction a req
  | tenant, _, _       => queryByTenant (tenant.getD GLOBAL_TENANT) req

/-- The lines of presentation mode. -/
def mask (maskEmail maskTenant : String → String) (item : AuditEventItem) : AuditEventItem :=
  { item with
    actorEmail     := maskEmail item.actorEmail
    maskedTenantId :=
      if item.tenantId ≠ "" ∧ item.tenantId ≠ GLOBAL_TENANT then some (maskTenant item.tenantId)
      else item.maskedTenantId }

def shown (maskEmail maskTenant : String → String) (isPresentationMode : Bool)
    (record : AuditEventRecord) : AuditEventItem :=
  if isPresentationMode then mask maskEmail maskTenant (recordToItem record) else recordToItem record

def auditError : Exc → Exc
  | .httpException status detail => .httpException status detail
  | _                            => .httpException 500 "Failed to query audit log"

/-- The events, `next_cursor`, and the number of the next request to the table. -/
def getAuditLog (table : ReadOnlyTable KeyCondition AuditEventRecord)
    (maskEmail maskTenant : String → String) (claims : Claims) (req : AuditRequest)
    (fuel call : Nat) (cursor : Option (List Char)) :
    Option (Except Exc (List AuditEventItem × Option (List Char) × Nat)) :=
  match (tenantScope claims).bind (auditTenant · req) with
  | .error e   => some (.error e)
  | .ok tenant =>
    (listPage table (auditQuery tenant req) fuel call cursor).map fun r =>
      match r with
      | .error e => .error (auditError e)
      | .ok p    => .ok (p.1.map (shown maskEmail maskTenant req.isPresentationMode), p.2)

/-! ## What is asked -/

/-- From the start on, and up to the end with all that begins with it. -/
def inRange (req : AuditRequest) (sk : List Char) : Bool :=
  (truthyText req.startDate).all (fun start => decide (start ≤ sk)) &&
    (truthyText req.endDate).all fun stop => decide (sk < stop) || stop.isPrefixOf sk

/-- Without a tenant, an actor or an action, the global rows. -/
def ofTenant (tenant : Option String) (req : AuditRequest) (r : AuditEventRecord) : Bool :=
  match tenant with
  | some t => r.tenantId == t
  | none   =>
    (nonEmpty req.actorEmail).isSome || (nonEmpty req.action).isSome || r.tenantId == GLOBAL_TENANT

def asked (tenant : Option String) (req : AuditRequest) (r : AuditEventRecord) : Bool :=
  ofTenant tenant req r && (nonEmpty req.actorEmail).all (r.actorEmail == ·) &&
    (nonEmpty req.action).all (r.action == ·) && inRange req r.timestampEventId

/-- `~` is above every character of the sort key. -/
def Plain (r : AuditEventRecord) : Prop := ∀ c ∈ r.timestampEventId, c < '~'

section
variable {req : AuditRequest} {r : AuditEventRecord}

theorem buildSkCondition_holds {sk : List Char} (hsk : ∀ c ∈ sk, c < '~') :
    ((buildSkCondition req.startDate req.endDate).all fun c => c.holds sk) = inRange req sk := by
  have hstop : ∀ stop : List Char,
      decide (sk ≤ stop ++ ['~']) = (decide (sk < stop) || stop.isPrefixOf sk) := by
    intro stop
    rw [Bool.eq_iff_iff, Bool.or_eq_true, decide_eq_true_iff, decide_eq_true_iff,
      List.isPrefixOf_iff_prefix]
    exact TextRange.le_append_top_iff hsk
  unfold buildSkCondition inRange
  cases truthyText req.startDate <;> cases truthyText req.endDate <;>
    simp [SkCondition.holds, hstop]

/-- The query and its filter together select what was asked, on each of the three paths. -/
theorem selects_and_matches (tenant : Option String) (hr : Plain r) :
    ((auditQuery tenant req).keyCondition.selects r &&
      matchesFilter (auditQuery tenant req).filterExpression r) = asked tenant req r := by
  have hrange : ((buildSkCondition req.startDate req.endDate).all fun c =>
      c.holds r.timestampEventId) = inRange req r.timestampEventId := buildSkCondition_holds hr
  unfold asked ofTenant
  rw [← hrange]
  cases tenant <;> cases he : nonEmpty req.actorEmail <;> cases ha : nonEmpty req.action <;>
    simp [auditQuery, queryByTenant, queryByActor, queryByAction, KeyCondition.selects,
      HashKey.matches, matchesFilter, actionFilter, he, ha, Bool.and_assoc, Bool.and_comm,
      Bool.and_left_comm]

end

/-! ## All the pages -/

/-- **DynamoDB boundary.** A partition of the table or of an index: the rows that the key condition
selects, in the order of their sort keys. -/
structure Stores (P : Partition AuditEventRecord) (rows : List AuditEventRecord)
    (k : KeyCondition) : Prop where
  selected : P.items.Perm (rows.filter k.selects)
  sorted   : P.items.Pairwise fun r r' => r.timestampEventId ≤ r'.timestampEventId

section
variable {table : ReadOnlyTable KeyCondition AuditEventRecord} {claims : Claims}
  {req : AuditRequest} {tenant : Option String} (maskEmail maskTenant : String → String)

/-- A page that is authorised is a page of the query. -/
theorem getAuditLog_eq (htenant : (tenantScope claims).bind (auditTenant · req) = .ok tenant)
    {fuel call call' : Nat} {cursor next : Option (List Char)} {records : List AuditEventRecord}
    (h : listPage table (auditQuery tenant req) fuel call cursor =
      some (.ok (records, next, call'))) :
    getAuditLog table maskEmail maskTenant claims req fuel call cursor =
      some (.ok (records.map (shown maskEmail maskTenant req.isPresentationMode), next, call')) := by
  rw [getAuditLog, htenant]
  simp only [h, Option.map_some]

theorem auditQuery_limit (tenant : Option String) (req : AuditRequest) :
    (auditQuery tenant req).limit = some req.limit ∧ (auditQuery tenant req).scanForward = false := by
  unfold auditQuery
  split <;> exact ⟨rfl, rfl⟩

/-- **The pages of a request show the rows that were asked for, the newest key first.** -/
theorem getAuditLog_pages {P : Partition AuditEventRecord} {rows : List AuditEventRecord}
    (hname : table.tableName.filter (· ≠ "") ≠ none)
    (htenant : (tenantScope claims).bind (auditTenant · req) = .ok tenant)
    (hrows : ∀ r ∈ rows, Plain r) (hstores : Stores P rows (auditQuery tenant req).keyCondition)
    (h : AnswersPages table P (auditQuery tenant req)) (call : Nat) {fuel : Nat}
    (hfuel : P.items.length + 2 ≤ fuel) :
    ∃ records : List AuditEventRecord, records.Perm (rows.filter (asked tenant req)) ∧
      records.Pairwise (fun r r' => r'.timestampEventId ≤ r.timestampEventId) ∧
      followCursors (getAuditLog table maskEmail maskTenant claims req fuel) fuel call none =
        some (.ok (records.map (shown maskEmail maskTenant req.isPresentationMode))) := by
  obtain ⟨hlimit, hscan⟩ := auditQuery_limit tenant req
  have hlen : P.items.reverse.length = P.items.length := List.length_reverse
  have horder : ([] : List AuditEventRecord) ++ P.items.reverse =
      P.order (auditQuery tenant req).scanForward := by
    rw [hscan]
    rfl
  have hpages := followCursors_eq h hname req.limit_ge hlimit fuel fuel [] P.items.reverse call
    horder (by omega) (by omega)
  refine ⟨_, ?_, ?_, Admin.followCursors_map (fun xs ys => List.map_append)
    (fun c cursor items next c' hp => getAuditLog_eq maskEmail maskTenant htenant hp) fuel hpages⟩
  · have hsame : (rows.filter (auditQuery tenant req).keyCondition.selects).filter
        (matchesFilter (auditQuery tenant req).filterExpression) = rows.filter (asked tenant req) := by
      rw [List.filter_filter]
      refine List.filter_congr fun r hr => ?_
      rw [Bool.and_comm]
      exact selects_and_matches tenant (hrows r hr)
    rw [← hsame]
    exact ((List.reverse_perm _).trans hstores.selected).filter _
  · exact (List.pairwise_reverse.2 hstores.sorted).filter _

end

end DocumentAi.AuditLog
