import DocumentAi.Admin.JwtAuth
import DocumentAi.Utils.BaseReadonlyTable

/-!
# Listing the documents of a tenant (`routers/admin_documents.py`)

| here | there |
| --- | --- |
| `recordToItem`    | `_record_to_item` (`:47-61`) |
| `documentFilter`  | the filter expression (`:181-195`) |
| `queryByTenant`   | `DocumentMetadataTable.query_by_tenant` without dates (`utils/document_metadata_table.py:32-56`) |
| `listDocuments`   | `list_documents` (`:153-227`); its audit event is left out |
-/

namespace DocumentAi.Admin

structure DocumentListItem where
  jobId            : String
  fileName         : String
  tenantId         : String
  apiKeyName       : String
  processStatus    : String
  documentCategory : String
  matchedBlueprint : String
  createdAt        : Option Timestamp
  processedDate    : Option Day
  maskedTenantId   : Option String

/-- `maskTenant` is the demo tenant's id (`utils/presentation_mask.py`). -/
def recordToItem (maskTenant : String → String) (isPresentationMode : Bool) (record : Record) :
    DocumentListItem where
  jobId            := record.jobId.getD ""
  fileName         := (record .originalFileName : Option String).getD ""
  tenantId         := record.tenantId.getD ""
  apiKeyName       := (record .apiKeyName : Option String).getD ""
  processStatus    := (record.status.map ProcessStatus.value).getD ""
  documentCategory := (record .userProvidedDocumentCategory : Option String).getD ""
  matchedBlueprint := (record .matchedBlueprintName : Option String).getD ""
  createdAt        := record.createdAt
  processedDate    := record .processedDate
  maskedTenantId   :=
    if isPresentationMode then (nonEmpty record.tenantId).map maskTenant else none

structure ListRequest where
  isPresentationMode : Bool := false
  tenantId           : Option String := none
  statusFilter       : Option String := none
  isDemo             : Option Bool := none
  isTestRun          : Option Bool := some false
  limit              : Nat := 50

/-- `Attr(a).eq(v)` is false and `Attr(a).ne(v)` true of an item without the attribute. -/
def documentFilter (req : ListRequest) : Option (Record → Bool) :=
  let parts : List (Record → Bool) :=
    ((nonEmpty req.statusFilter).map fun s r => r.status.any (·.value == s)).toList
      ++ (req.isDemo.map fun b r => (r .isDemo : Option Bool) == some b).toList
      ++ (req.isTestRun.map fun b r =>
          if b then (r .isTestRun : Option Bool) == some true
          else (r .isTestRun : Option Bool) != some true).toList
  if parts = [] then none else some fun r => parts.all (· r)

/-- The tenant index, newest first; the key condition is the tenant id. -/
def queryByTenant (tenantIndex : String) (tenantId : String)
    (filterExpression : Option (Record → Bool)) (limit : Nat) : QuerySpec String Record where
  keyCondition     := tenantId
  filterExpression := filterExpression
  indexName        := some tenantIndex
  limit            := some limit
  scanForward      := false

/-- The tenant whose documents are listed. -/
def listedTenant (scope : Option String) (req : ListRequest) : Except Exc String :=
  match scope with
  | some tenant =>
    if (nonEmpty req.tenantId).any (· ≠ tenant) then
      .error (.httpException 403 "Access denied to this tenant's documents.")
    else .ok tenant
  | none        =>
    match nonEmpty req.tenantId with
    | none        => .error (.httpException 400 "tenant_id is required.")
    | some tenant => .ok tenant

/-- `except HTTPException: raise` and the handler below it. -/
def listError : Exc → Exc
  | .httpException status detail => .httpException status detail
  | _                            => .httpException 500 "Failed to list documents"

/-- The documents, `next_cursor`, and the number of the next request to the table. -/
def listDocuments (table : ReadOnlyTable String Record) (tenantIndex : Option String)
    (maskTenant : String → String) (claims : Claims) (req : ListRequest) (fuel call : Nat)
    (cursor : Option (List Char)) :
    Option (Except Exc (List DocumentListItem × Option (List Char) × Nat)) :=
  match (tenantScope claims).bind (listedTenant · req) with
  | .error e   => some (.error e)
  | .ok tenant =>
    match startKeyOf cursor, nonEmpty tenantIndex with
    | .error e, _     => some (.error (listError e))
    | .ok _, none     => some (.error (.httpException 503 "Storage not configured"))
    | .ok _, some idx =>
      (listPage table (queryByTenant idx tenant (documentFilter req) req.limit) fuel call cursor).map
        fun r =>
          match r with
          | .error e => .error (listError e)
          | .ok p    => .ok (p.1.map (recordToItem maskTenant req.isPresentationMode), p.2)

/-! ## All the pages -/

section
variable {table : ReadOnlyTable String Record} {claims : Claims} {req : ListRequest}
  {tenant idx : String} (maskTenant : String → String)

/-- A page that is authorised is a page of the tenant's query. -/
theorem listDocuments_eq (htenant : (tenantScope claims).bind (listedTenant · req) = .ok tenant)
    (hidx : idx ≠ "") {fuel call call' : Nat} {cursor next : Option (List Char)}
    {records : List Record}
    (h : listPage table (queryByTenant idx tenant (documentFilter req) req.limit) fuel call cursor =
      some (.ok (records, next, call'))) :
    listDocuments table (some idx) maskTenant claims req fuel call cursor =
      some (.ok (records.map (recordToItem maskTenant req.isPresentationMode), next, call')) := by
  have hname : nonEmpty (some idx) = some idx := nonEmpty_eq_some.2 ⟨rfl, hidx⟩
  cases hstart : startKeyOf cursor with
  | error e =>
    rw [listPage, hstart] at h
    cases h
  | ok start =>
    rw [listDocuments, htenant]
    simp only [hstart, hname, h, Option.map_some]

/-- Following the pages of a request that is answered follows those of the query. -/
theorem followCursors_map {α β : Type} {f : List α → List β} (hf : ∀ xs ys, f (xs ++ ys) = f xs ++ f ys)
    {page : Nat → Option (List Char) → Option (Except Exc (List α × Option (List Char) × Nat))}
    {page' : Nat → Option (List Char) → Option (Except Exc (List β × Option (List Char) × Nat))}
    (h : ∀ call cursor items next call', page call cursor = some (.ok (items, next, call')) →
      page' call cursor = some (.ok (f items, next, call'))) (fuel : Nat) :
    ∀ {call : Nat} {cursor : Option (List Char)} {items : List α},
      followCursors page fuel call cursor = some (.ok items) →
        followCursors page' fuel call cursor = some (.ok (f items)) := by
  induction fuel with
  | zero => intro call cursor items hp; cases hp
  | succ n ih =>
    intro call cursor items hp
    rw [followCursors] at hp ⊢
    cases hpage : page call cursor with
    | none =>
      rw [hpage] at hp
      cases hp
    | some r =>
      cases r with
      | error e =>
        rw [hpage] at hp
        cases hp
      | ok p =>
        obtain ⟨its, next, c⟩ := p
        rw [h _ _ _ _ _ hpage]
        rw [hpage] at hp
        cases next with
        | none =>
          obtain rfl : its = items := by simpa using hp
          rfl
        | some cur =>
          cases hrest : followCursors page n c (some cur) with
          | none =>
            simp only [hrest, Option.map_none] at hp
            cases hp
          | some r' =>
            cases r' with
            | error e =>
              simp only [hrest, Option.map_some, Except.map] at hp
              cases hp
            | ok more =>
              simp only [hrest, Option.map_some, Except.map] at hp
              obtain rfl : its ++ more = items := by simpa using hp
              simp only [ih hrest, Option.map_some, Except.map, hf]

/-- **The pages of a tenant's documents are its matching records, newest first.** -/
theorem listDocuments_pages {P : Partition Record} (hname : table.tableName.filter (· ≠ "") ≠ none)
    (htenant : (tenantScope claims).bind (listedTenant · req) = .ok tenant) (hidx : idx ≠ "")
    (hlimit : 0 < req.limit)
    (h : AnswersPages table P (queryByTenant idx tenant (documentFilter req) req.limit))
    (call : Nat) {fuel : Nat} (hfuel : P.items.length + 2 ≤ fuel) :
    followCursors (listDocuments table (some idx) maskTenant claims req fuel) fuel call none =
      some (.ok ((P.items.reverse.filter (matchesFilter (documentFilter req))).map
        (recordToItem maskTenant req.isPresentationMode))) := by
  have hlen : P.items.reverse.length = P.items.length := List.length_reverse
  have hpages := followCursors_eq h hname hlimit rfl fuel fuel [] P.items.reverse
    call rfl (by omega) (by omega)
  exact followCursors_map (fun xs ys => List.map_append)
    (fun c cursor items next c' hp => listDocuments_eq maskTenant htenant hidx hp) fuel hpages

end

end DocumentAi.Admin
