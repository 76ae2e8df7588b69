import DocumentAi.Metrics.Partition

/-!
# The usage report and the usage endpoint

| here | there |
| --- | --- |
| `UsageTotals`        | `UsageStats` (`dtos/usage_stats.py`) |
| `endDay`, `usageRows` | `_build_daily_usage_query` (`jobs/usage_report/main.py:28-80`); **Athena boundary**: the query is answered exactly, its sums without the bound of `BIGINT` |
| `generateDailyUsage` | `generate_daily_usage` (`:161-189`), after the query |
| `writeDailyFiles`    | `_write_daily_files` (`:192-225`) |
| `generateUsageReport` | `generate_usage_report` (`:122-158`) |
| `todayStats`         | `_get_daily_metrics` of the current day (`utils/metrics.py:44-86`), on stats that are current |
| `readDailyUsage`     | `_read_daily_usage` (`routers/admin_usage.py:59-108`) |
| `getUsage`           | the monthly branch of `get_usage` (`:161-204`) |
| `UsageRead`          | one read, with the report generated earlier on the same day |

Texts of dates have fixed width, so they compare as the dates do.
-/

namespace DocumentAi.Metrics

/-! ## Dates -/

structure Month where
  year  : Nat
  month : Nat
deriving DecidableEq

/-- `monthrange(year, month)[1]`. -/
def daysInMonth (m : Month) : Nat :=
  if m.month = 2 then
    if m.year % 4 = 0 ∧ (m.year % 100 ≠ 0 ∨ m.year % 400 = 0) then 29 else 28
  else if [4, 6, 9, 11].contains m.month then 30 else 31

structure Date where
  inMonth : Month
  day     : Nat
  day_pos : 1 ≤ day
  day_le  : day ≤ daysInMonth inMonth
deriving DecidableEq

/-- `d <= e` on texts of dates. -/
def Date.le (d e : Date) : Prop :=
  d.inMonth.year < e.inMonth.year ∨ (d.inMonth.year = e.inMonth.year ∧
    (d.inMonth.month < e.inMonth.month ∨ (d.inMonth.month = e.inMonth.month ∧ d.day ≤ e.day)))

/-- `{year}-{month}-{day}`. -/
def Date.text (d : Date) : String :=
  toString d.inMonth.year ++ "-" ++ String.ofList (twoDigits d.inMonth.month) ++ "-"
    ++ String.ofList (twoDigits d.day)

/-! ## Records and totals -/

/-- One archived metrics record; a column that is null is absent. -/
structure RawRecord where
  fileName                      : String
  updatedAt                     : Nat
  date                          : Date
  tenantId                      : Option Admin.TenantIdStr
  bdaInvocationArn              : Option { s : String // s ≠ "" }
  fileSizeBytes                 : Option Nat
  pagesSentToBda                : Option Nat
  preclassificationInputTokens  : Option Nat
  cropInputTokens               : Option Nat
  preclassificationOutputTokens : Option Nat
  cropOutputTokens              : Option Nat
  /-- The columns that usage does not read. -/
  others                        : QueryRow

structure UsageTotals where
  totalRecords             : Int := 0
  totalBdaInvocations      : Int := 0
  totalFileSizeBytes       : Int := 0
  totalBdaPages            : Int := 0
  totalBedrockInputTokens  : Int := 0
  totalBedrockOutputTokens : Int := 0

def UsageTotals.add (t u : UsageTotals) : UsageTotals where
  totalRecords             := t.totalRecords + u.totalRecords
  totalBdaInvocations      := t.totalBdaInvocations + u.totalBdaInvocations
  totalFileSizeBytes       := t.totalFileSizeBytes + u.totalFileSizeBytes
  totalBdaPages            := t.totalBdaPages + u.totalBdaPages
  totalBedrockInputTokens  := t.totalBedrockInputTokens + u.totalBedrockInputTokens
  totalBedrockOutputTokens := t.totalBedrockOutputTokens + u.totalBedrockOutputTokens

/-- `UsageStats.sum`. -/
def UsageTotals.sum (items : List UsageTotals) : UsageTotals := items.foldl UsageTotals.add {}

/-- `UsageStats.from_aggregator`. -/
def UsageTotals.fromAggregator (s : Stats) : UsageTotals where
  totalRecords             := s.totalRecords
  totalBdaInvocations      := s.totalBdaInvocations
  totalFileSizeBytes       := s.usageStats.totalFileSizeBytes
  totalBdaPages            := s.usageStats.totalBdaPages
  totalBedrockInputTokens  := s.usageStats.totalBedrockInputTokens
  totalBedrockOutputTokens := s.usageStats.totalBedrockOutputTokens

/-! ## The report's query -/

/-- `ROW_NUMBER() OVER (PARTITION BY file_name ORDER BY updated_at DESC) = 1`, one record more. -/
def insertLatest (r : RawRecord) : List RawRecord → List RawRecord
  | []        => [r]
  | e :: rest =>
    if e.fileName = r.fileName then (if e.updatedAt < r.updatedAt then r else e) :: rest
    else e :: insertLatest r rest

def deduped (rs : List RawRecord) : List RawRecord := rs.foldl (fun kept r => insertLatest r kept) []

/-- The day part of `end_date`. -/
def endDay (today : Date) (yyyymm : Month) : Nat :=
  if today.inMonth = yyyymm ∧ 1 < today.day then today.day - 1 else daysInMonth yyyymm

/-- `date BETWEEN '{yyyymm}-01' AND '{end_date}'`. -/
def inRange (today : Date) (yyyymm : Month) (r : RawRecord) : Bool :=
  decide (r.date.inMonth = yyyymm ∧ r.date.day ≤ endDay today yyyymm)

/-- `COALESCE(tenant_id, '__unknown__')`. -/
def tenantLabel (r : RawRecord) : String :=
  match r.tenantId with
  | none   => "__unknown__"
  | some t => t.1

/-- `SUM`: null when every value is. -/
def sqlSum (xs : List (Option Nat)) : Option Nat :=
  if xs.all Option.isNone then none else some (xs.map (·.getD 0)).sum

/-- `+`: null when one side is. -/
def sqlAdd : Option Nat → Option Nat → Option Nat
  | some a, some b => some (a + b)
  | _, _           => none

/-- The aggregates of one group. -/
def usageRow (g : List RawRecord) : UsageTotals where
  totalRecords             := g.length
  totalBdaInvocations      := (g.filter (·.bdaInvocationArn.isSome)).length
  totalFileSizeBytes       := (sqlSum (g.map (·.fileSizeBytes))).getD 0
  totalBdaPages            := (sqlSum (g.map (·.pagesSentToBda))).getD 0
  totalBedrockInputTokens  :=
    (sqlAdd (sqlSum (g.map (·.preclassificationInputTokens)))
      (sqlSum (g.map (·.cropInputTokens)))).getD 0
  totalBedrockOutputTokens :=
    (sqlAdd (sqlSum (g.map (·.preclassificationOutputTokens)))
      (sqlSum (g.map (·.cropOutputTokens)))).getD 0

structure UsageRow where
  date     : Date
  tenantId : String
  totals   : UsageTotals

/-- `GROUP BY date, tenant_id`. -/
def usageGroups (rs : List RawRecord) : List ((Date × String) × List RawRecord) :=
  Dict.groupFold (fun r => (r.date, tenantLabel r)) [] (fun g r => g ++ [r]) rs

def archivedPart (archive : List RawRecord) (today : Date) (yyyymm : Month) : List RawRecord :=
  deduped (archive.filter (inRange today yyyymm))

def usageRows (archive : List RawRecord) (today : Date) (yyyymm : Month) : List UsageRow :=
  (usageGroups (archivedPart archive today yyyymm)).map fun g => ⟨g.1.1, g.1.2, usageRow g.2⟩

/-! ## The report's files -/

def generateDailyUsage (rows : List UsageRow) : List (Date × List (String × UsageTotals)) :=
  Dict.groupFold UsageRow.date [] (fun tenantRows row => tenantRows ++ [(row.tenantId, row.totals)]) rows

/-- The file of each tenant of a day and, under `none`, the global one. -/
def writeDailyFiles (daily : List (Date × List (String × UsageTotals))) :
    List ((Date × Option String) × UsageTotals) :=
  daily.flatMap fun e =>
    e.2.map (fun row => ((e.1, some row.1), row.2)) ++ [((e.1, none), UsageTotals.sum (e.2.map Prod.snd))]

def generateUsageReport (daily : List (Date × List (String × UsageTotals))) :
    List (String × UsageTotals) :=
  let tenantTotals := Dict.groupFold Prod.fst {}
    (fun current row => UsageTotals.sum [current, row.2]) (daily.flatMap Prod.snd)
  tenantTotals.mergeSort fun a b => decide (b.2.totalRecords ≤ a.2.totalRecords)

/-! ## One read of the endpoint -/

structure UsageRead where
  /-- The archive at the time of the read, one record for each document. -/
  records  : List RawRecord
  /-- The record was in the archive when the report was generated. -/
  inReport : RawRecord → Bool
  today    : Date
  month    : Month
  /-- The ids of the tenant registry; `none` when it is unavailable. -/
  registry : Option (List Admin.TenantIdStr)
  nodup    : (records.map RawRecord.fileName).Nodup
  past     : ∀ r ∈ records, r.date.le today

def columnText (v : Option Nat) : String :=
  match v with
  | none   => ""
  | some n => toString n

/-- The record as a row of the aggregator's `SELECT *`. -/
def RawRecord.toRow (r : RawRecord) : QueryRow :=
  [("tenant_id", match r.tenantId with
      | none   => ""
      | some t => t.1),
    ("bda_invocation_arn", match r.bdaInvocationArn with
      | none   => ""
      | some arn => arn.1),
    ("file_size_bytes", columnText r.fileSizeBytes), ("pages_sent_to_bda", columnText r.pagesSentToBda),
    ("preclassification_input_tokens", columnText r.preclassificationInputTokens),
    ("crop_input_tokens", columnText r.cropInputTokens),
    ("preclassification_output_tokens", columnText r.preclassificationOutputTokens),
    ("crop_output_tokens", columnText r.cropOutputTokens)] ++ r.others

section
variable (num : Numbers) (s : UsageRead)

def UsageRead.todayRecords : List RawRecord := deduped (s.records.filter fun r => r.date = s.today)

/-- The aggregator's stats of today, of one tenant or of all; no file is written without records. -/
def UsageRead.todayStats (tenantId : Option String) : Option DailyStats :=
  if s.todayRecords = [] then none
  else (aggregateRecords num (s.todayRecords.map RawRecord.toRow) s.today.text).lookup
    (tenantId.getD "__global__")

def UsageRead.archived : List RawRecord := archivedPart (s.records.filter s.inReport) s.today s.month

def UsageRead.dailyUsage : List (Date × List (String × UsageTotals)) :=
  generateDailyUsage (usageRows (s.records.filter s.inReport) s.today s.month)

/-- A day of the month, when there is one of this number. -/
def dayOf (m : Month) (day : Nat) : Option Date :=
  if h : 1 ≤ day ∧ day ≤ daysInMonth m then some ⟨m, day, h.1, h.2⟩ else none

/-- The totals of one day; the current day is partial. -/
def UsageRead.fetchDay (tenantId : Option String) (d : Date) : Option UsageTotals :=
  if d = s.today then (s.todayStats num tenantId).map fun st => UsageTotals.fromAggregator st.toStats
  else (writeDailyFiles s.dailyUsage).lookup (d, tenantId)

def UsageRead.readDailyUsage (tenantId : Option String) : List (Date × UsageTotals) :=
  ((List.range' 1 (daysInMonth s.month)).filterMap (dayOf s.month)).filterMap fun d =>
    (s.fetchDay num tenantId d).map fun t => (d, t)

def UsageRead.report : List (String × UsageTotals) := generateUsageReport s.dailyUsage

/-- The tenants whose current day is added: those of the report and of the registry. -/
def UsageRead.tenantIds : List String :=
  (s.report.map Prod.fst ++ (s.registry.getD []).map Subtype.val).dedup

def addToday (tenantsRaw : List (String × UsageTotals)) (tid : String) : List (String × UsageTotals) :=
  match s.todayStats num (some tid) with
  | none    => tenantsRaw
  | some st =>
    Dict.update tid {} (fun matched => matched.add (UsageTotals.fromAggregator st.toStats)) tenantsRaw

/-- The totals of all tenants for the month. -/
def UsageRead.getUsage : List (String × UsageTotals) :=
  if s.month = s.today.inMonth then s.tenantIds.foldl (addToday num s) s.report else s.report

/-! ## What is counted -/

/-- The records behind the live part of the monthly totals. -/
def UsageRead.live : List RawRecord :=
  if s.month = s.today.inMonth then s.todayRecords.filter fun r => tenantLabel r ∈ s.tenantIds else []

def UsageRead.monthRecords : List RawRecord := s.records.filter fun r => r.date.inMonth = s.month

end

/-- Totals over all tenants of a month, or over its days. -/
def totalsOver {κ : Type} (d : List (κ × UsageTotals)) : UsageTotals := UsageTotals.sum (d.map Prod.snd)

/-- The monthly totals are those of the days and of the month's records, and each of these records is
in exactly one of the two parts. -/
structure CountedOnce (num : Numbers) (s : UsageRead) : Prop where
  daily : totalsOver (s.getUsage num) = totalsOver (s.readDailyUsage num none)
  exact : totalsOver (s.getUsage num) =
    UsageTotals.fromAggregator (statsOf num (s.monthRecords.map RawRecord.toRow))
  once  : ∀ r ∈ s.monthRecords, r ∈ s.archived ↔ r ∉ s.live

/-- A sum of two token columns is not lost: when one of them is null throughout, the other counts
nothing. -/
def TokensCounted (a b : RawRecord → Option Nat) (g : List RawRecord) : Prop :=
  ((∀ r ∈ g, a r = none) ∨ (∀ r ∈ g, b r = none)) → ∀ r ∈ g, (a r).getD 0 = 0 ∧ (b r).getD 0 = 0

/-- The condition on the records and the day of the read. -/
structure Countable (s : UsageRead) : Prop where
  /-- Every record of an earlier day was archived before the report. -/
  early  : ∀ r ∈ s.monthRecords, r.date ≠ s.today → s.inReport r = true
  /-- On the first of the month the report found no record of the day. -/
  first  : s.today.day = 1 → ∀ r ∈ s.monthRecords, r.date = s.today → s.inReport r = false
  /-- The tenant of a record of today is registered, or has records in the report. -/
  listed : ∀ r ∈ s.monthRecords, r.date = s.today →
    (∃ t ∈ s.registry.getD [], t.1 = tenantLabel r) ∨ ∃ r' ∈ s.archived, tenantLabel r' = tenantLabel r
  input  : ∀ d t, TokensCounted (·.preclassificationInputTokens) (·.cropInputTokens)
    (s.archived.filter fun r => (r.date, tenantLabel r) = (d, t))
  output : ∀ d t, TokensCounted (·.preclassificationOutputTokens) (·.cropOutputTokens)
    (s.archived.filter fun r => (r.date, tenantLabel r) = (d, t))

end DocumentAi.Metrics
