import DocumentAi.Services

/-!
# Query results: the two Athena readers

| here | there |
| --- | --- |
| `getAthenaResults`  | `_get_athena_results` (`jobs/metrics_aggregator/main.py:115-146`) |
| `executeQuery`      | `_execute_query` (`jobs/usage_report/main.py:83-119`) |
| `Execution`         | **Athena boundary**: the states `get_query_execution` answers, one for each poll, and the pages of `get_query_results` |
| `ResultSet`         | the pages hold one header row and then the data rows, however they are split |

Both readers drop the first row of every page.
-/

namespace DocumentAi.Metrics

/-- The `VarCharValue` of each column; absent for a null. -/
abbrev Row : Type := List (Option String)

structure Page where
  /-- `ResultSetMetadata.ColumnInfo`. -/
  columns : List String
  rows    : List Row

/-- A row as a dictionary. -/
abbrev QueryRow : Type := List (String × String)

/-- `d[k] = v`. -/
def setItem (d : QueryRow) (k v : String) : QueryRow :=
  if d.any (·.1 == k) then d.map fun e => if e.1 == k then (k, v) else e else d ++ [(k, v)]

structure Execution where
  executionId : String := ""
  /-- The state answered at the `n`-th poll. -/
  state       : Nat → String
  reason      : String := ""
  pages       : List Page

/-! ## Polling -/

def ATHENA_QUERY_TIMEOUT_SECONDS : Nat := 300

namespace AthenaQueryStatus

def SUCCEEDED : String := "SUCCEEDED"
def FAILED : String := "FAILED"
def CANCELLED : String := "CANCELLED"

def isFinal (status : String) : Bool := [SUCCEEDED, FAILED, CANCELLED].contains status

end AthenaQueryStatus

/-- The first final state, one poll a second; `none` after the timeout. -/
def Execution.finalState (ex : Execution) : Option String :=
  ((List.range ATHENA_QUERY_TIMEOUT_SECONDS).map ex.state).find? AthenaQueryStatus.isFinal

/-! ## Rows -/

/-- `row["Data"][i].get("VarCharValue", "")` for each column. -/
def readRow : List String → Row → QueryRow → Except Exc QueryRow
  | [], _, record               => .ok record
  | _ :: _, [], _               => .error (.exception "list index out of range")
  | c :: cs, v :: vs, record    => readRow cs vs (setItem record c (v.getD ""))

def readRows (columns : List String) : List Row → Except Exc (List QueryRow)
  | []        => .ok []
  | r :: rest => do
    let record ← readRow columns r []
    let records ← readRows columns rest
    return record :: records

/-- The loop over the pages, with the first row of each skipped. -/
def readPages : List Page → Except Exc (List QueryRow)
  | []        => .ok []
  | p :: rest => do
    let records ← readRows p.columns (p.rows.drop 1)
    let others ← readPages rest
    return records ++ others

def getAthenaResults (ex : Execution) : Except Exc (List QueryRow) :=
  match ex.finalState with
  | none        =>
    .error (.exception ("Athena query " ++ ex.executionId ++ " did not complete within "
      ++ toString ATHENA_QUERY_TIMEOUT_SECONDS ++ "s"))
  | some status =>
    if status ≠ AthenaQueryStatus.SUCCEEDED then
      .error (.exception ("Query failed with status: " ++ status))
    else readPages ex.pages

def executeQuery (ex : Execution) : Except Exc (List QueryRow) :=
  match ex.finalState with
  | none        =>
    .error (.runtimeError ("Athena query " ++ ex.executionId ++ " did not complete within "
      ++ toString ATHENA_QUERY_TIMEOUT_SECONDS ++ "s"))
  | some status =>
    if status ≠ AthenaQueryStatus.SUCCEEDED then
      .error (.runtimeError ("Query failed (" ++ status ++ "): " ++ ex.reason))
    else readPages ex.pages

/-! ## What the pages hold -/

/-- The row keyed by the columns. -/
def keyed (columns : List String) (r : Row) : QueryRow :=
  (columns.zip r).foldl (fun record cv => setItem record cv.1 (cv.2.getD "")) []

/-- A query that succeeds, with its header row and its data rows. -/
structure ResultSet (ex : Execution) (columns : List String) (header : Row) (data : List Row) :
    Prop where
  succeeded : ex.finalState = some AthenaQueryStatus.SUCCEEDED
  metadata  : ∀ p ∈ ex.pages, p.columns = columns
  rows      : ex.pages.flatMap Page.rows = header :: data
  width     : ∀ r ∈ data, r.length = columns.length

/-- The pages that are not empty. -/
def fullPages (ps : List Page) : List Page := ps.filter fun p => !p.rows.isEmpty

section
variable {columns : List String}

theorem readRow_eq {r : Row} (h : r.length = columns.length) (record : QueryRow) :
    readRow columns r record =
      .ok ((columns.zip r).foldl (fun record cv => setItem record cv.1 (cv.2.getD "")) record) := by
  induction columns generalizing r record with
  | nil =>
    have hr : r = [] := List.eq_nil_of_length_eq_zero h
    rw [hr]
    rfl
  | cons c cs ih =>
    cases r with
    | nil => cases h
    | cons v vs =>
      have hvs : vs.length = cs.length := Nat.succ.inj h
      rw [readRow, ih hvs]
      rfl

theorem readRows_eq {rs : List Row} (h : ∀ r ∈ rs, r.length = columns.length) :
    readRows columns rs = .ok (rs.map (keyed columns)) := by
  induction rs with
  | nil => rfl
  | cons r rest ih =>
    obtain ⟨hr, hrest⟩ := List.forall_mem_cons.1 h
    have hrow : readRow columns r [] = .ok (keyed columns r) := readRow_eq hr []
    rw [readRows, hrow, ih hrest]
    rfl

theorem readPages_eq {ps : List Page} (hcols : ∀ p ∈ ps, p.columns = columns)
    (hwidth : ∀ p ∈ ps, ∀ r ∈ p.rows.drop 1, r.length = columns.length) :
    readPages ps = .ok ((ps.flatMap fun p => p.rows.drop 1).map (keyed columns)) := by
  induction ps with
  | nil => rfl
  | cons p rest ih =>
    obtain ⟨hp, hrest⟩ := List.forall_mem_cons.1 hcols
    obtain ⟨hw, hwrest⟩ := List.forall_mem_cons.1 hwidth
    rw [readPages, hp, readRows_eq hw, ih hrest hwrest]
    simp only [List.flatMap_cons, List.map_append]
    rfl

/-- One row of each page that is not empty is dropped. -/
theorem length_dropped (ps : List Page) :
    (ps.flatMap fun p => p.rows.drop 1).length + (fullPages ps).length =
      (ps.flatMap Page.rows).length := by
  induction ps with
  | nil => rfl
  | cons p rest ih =>
    simp only [List.flatMap_cons, List.length_append, fullPages, List.filter_cons] at ih ⊢
    cases hp : p.rows with
    | nil => simpa [fullPages, hp] using ih
    | cons r rs =>
      simp only [List.drop_succ_cons, List.drop_zero, List.isEmpty_cons, Bool.not_false, if_true,
        List.length_cons]
      omega

/-- With one page that is not empty exactly the first row is dropped. -/
theorem dropped_eq_tail {ps : List Page} (h : (fullPages ps).length = 1) :
    (ps.flatMap fun p => p.rows.drop 1) = (ps.flatMap Page.rows).tail := by
  induction ps with
  | nil => cases h
  | cons p rest ih =>
    rw [List.flatMap_cons, List.flatMap_cons]
    cases hp : p.rows with
    | nil =>
      have hrest : (fullPages rest).length = 1 := by simpa [fullPages, hp] using h
      simpa [hp] using ih hrest
    | cons r rs =>
      have hrest : fullPages rest = [] := by simpa [fullPages, hp] using h
      have hnone : ∀ q ∈ rest, q.rows = [] := by
        intro q hq
        have := List.filter_eq_nil_iff.1 hrest q hq
        simpa using this
      have hrows : rest.flatMap Page.rows = [] := List.flatMap_eq_nil_iff.2 hnone
      have hdrop : (rest.flatMap fun p => p.rows.drop 1) = [] :=
        List.flatMap_eq_nil_iff.2 fun q hq => by rw [hnone q hq, List.drop_nil]
      rw [hrows, hdrop]
      rfl

end

section
variable {ex : Execution} {columns : List String} {header : Row} {data : List Row}

/-- Every row that is read is a data row. -/
theorem ResultSet.width_dropped (h : ResultSet ex columns header data) :
    ∀ p ∈ ex.pages, ∀ r ∈ p.rows.drop 1, r.length = columns.length := by
  have hrows := h.rows
  have hwidth := h.width
  clear h
  generalize ex.pages = ps at hrows ⊢
  induction ps with
  | nil => exact fun p hp => by cases hp
  | cons q rest ih =>
    intro p hp r hr
    rw [List.flatMap_cons] at hrows
    cases hq : q.rows with
    | nil =>
      rw [hq, List.nil_append] at hrows
      rcases List.mem_cons.1 hp with rfl | hp
      · rw [hq] at hr
        cases hr
      · exact ih hrows p hp r hr
    | cons r₀ rs =>
      rw [hq, List.cons_append] at hrows
      have hdata : rs ++ rest.flatMap Page.rows = data := (List.cons.inj hrows).2
      rcases List.mem_cons.1 hp with rfl | hp
      · rw [hq] at hr
        exact hwidth r (hdata ▸ List.mem_append_left _ hr)
      · have hmem : r ∈ rest.flatMap Page.rows :=
          List.mem_flatMap.2 ⟨p, hp, List.mem_of_mem_drop hr⟩
        exact hwidth r (hdata ▸ List.mem_append_right _ hmem)

theorem ResultSet.readPages_eq (h : ResultSet ex columns header data) :
    readPages ex.pages = .ok ((ex.pages.flatMap fun p => p.rows.drop 1).map (keyed columns)) :=
  Metrics.readPages_eq h.metadata h.width_dropped

theorem ResultSet.readers_eq (h : ResultSet ex columns header data) :
    getAthenaResults ex = readPages ex.pages ∧ executeQuery ex = readPages ex.pages := by
  constructor
  · rw [getAthenaResults, h.succeeded]
    exact if_neg fun hne => hne rfl
  · rw [executeQuery, h.succeeded]
    exact if_neg fun hne => hne rfl

/-- **The readers return exactly the data rows if and only if one page holds all the rows.** -/
theorem readers_complete_iff (h : ResultSet ex columns header data) :
    (getAthenaResults ex = .ok (data.map (keyed columns)) ∧
      executeQuery ex = .ok (data.map (keyed columns))) ↔ (fullPages ex.pages).length = 1 := by
  obtain ⟨hagg, husage⟩ := h.readers_eq
  rw [hagg, husage, and_self, h.readPages_eq]
  have hlen := length_dropped ex.pages
  rw [h.rows, List.length_cons] at hlen
  constructor
  · intro heq
    have hmap := congrArg List.length (Except.ok.inj heq)
    rw [List.length_map, List.length_map] at hmap
    omega
  · intro hone
    rw [dropped_eq_tail hone, h.rows, List.tail_cons]

end

/-! ## One page and two -/

/-- A query that succeeds at the first poll. -/
def sampleExecution (pages : List (List Row)) : Execution where
  state := fun _ => AthenaQueryStatus.SUCCEEDED
  pages := pages.map fun rows => { columns := ["tenant_id", "total_records"], rows }

def sampleHeader : Row := [some "tenant_id", some "total_records"]

theorem resultSet_sample {pages : List (List Row)} {data : List Row}
    (hrows : pages.flatten = sampleHeader :: data) (hwidth : ∀ r ∈ data, r.length = 2) :
    ResultSet (sampleExecution pages) ["tenant_id", "total_records"] sampleHeader data where
  succeeded := by
    change ((List.range ATHENA_QUERY_TIMEOUT_SECONDS).map fun _ => AthenaQueryStatus.SUCCEEDED).find?
      AthenaQueryStatus.isFinal = some AthenaQueryStatus.SUCCEEDED
    decide +kernel
  metadata p hp := by
    obtain ⟨rows, _, rfl⟩ := List.mem_map.1 hp
    rfl
  rows := by
    rw [sampleExecution, List.flatMap_map, ← hrows]
    exact List.flatMap_id' ..
  width := hwidth

theorem readers_complete_onePage :
    (getAthenaResults (sampleExecution [[sampleHeader, [some "acme", some "3"]]]) =
        .ok [[("tenant_id", "acme"), ("total_records", "3")]] ∧
      executeQuery (sampleExecution [[sampleHeader, [some "acme", some "3"]]]) =
        .ok [[("tenant_id", "acme"), ("total_records", "3")]]) ↔
      (fullPages (sampleExecution [[sampleHeader, [some "acme", some "3"]]]).pages).length = 1 :=
  have hresult : ResultSet (sampleExecution [[sampleHeader, [some "acme", some "3"]]])
      ["tenant_id", "total_records"] sampleHeader [[some "acme", some "3"]] :=
    resultSet_sample rfl (by decide)
  readers_complete_iff hresult

/-- The first row of the second page is lost. -/
theorem readers_complete_fails : ¬ ∀ (ex : Execution) (columns : List String) (header : Row)
    (data : List Row), ResultSet ex columns header data →
      getAthenaResults ex = .ok (data.map (keyed columns)) ∧
        executeQuery ex = .ok (data.map (keyed columns)) := by
  intro hall
  have hset : ResultSet (sampleExecution [[sampleHeader], [[some "acme", some "3"]]])
      ["tenant_id", "total_records"] sampleHeader [[some "acme", some "3"]] :=
    resultSet_sample rfl (by decide)
  have hpages := (readers_complete_iff hset).1 (hall _ _ _ _ hset)
  exact absurd hpages (by decide)

end DocumentAi.Metrics
