import DocumentAi.Lib.Csv
import DocumentAi.Lib.Dict

/-!
# CSV responses (`utils/response_builder.py`)

| here | there |
| --- | --- |
| `escapeValue`      | `escape_value` (`:66-71`), on what `str` gives for a value |
| `buildFlatFile`    | `build_flat_file` (`:65-75`) |
| `fieldNames`       | `list(dict.fromkeys(k for row in data for k in row)) if data else []` (`:80`) |
| `buildCsvResponse` | the content of `build_csv_response` (`:78-81`) |
| `cellText`         | what a cell should hold: the string of the value, nothing for `None` or no value |

`ReadsBack`: a CSV reader gets the columns and the rows back. The columns are those of all rows, so
with no key in any row there is no column, and the lines of the file are empty; a reader takes an
empty line for a record with one empty field (`readsBack_iff`).
-/

namespace DocumentAi
namespace CsvResponse

section
variable {V : Type}

/-- A row: names with values, `none` for `None`. -/
abbrev Row (V : Type) : Type := List (String × Option V)

def escapeValue : Option String → String
  | none   => "\"\""
  | some s => "\"" ++ String.ofList (Csv.doubled s.toList) ++ "\""

/-- `row.get(col, "")`, then `str` of it. -/
def cell (str : V → String) (row : Row V) (col : String) : Option String :=
  match row.lookup col with
  | none   => some ""
  | some v => v.map str

def buildFlatFile (str : V → String) (names : List String) (data : List (Row V)) (delim : String) :
    String :=
  let header := delim.intercalate (names.map fun name => escapeValue (some name))
  let rows := data.map fun row => delim.intercalate (names.map fun col => escapeValue (cell str row col))
  "\r\n".intercalate (header :: rows)

def rowKeys (data : List (Row V)) : List String := data.flatMap fun row => row.map Prod.fst

def fieldNames (data : List (Row V)) : List String :=
  ((rowKeys data).foldl (fun d k => Dict.assign k () d) []).map Prod.fst

def buildCsvResponse (str : V → String) (data : List (Row V)) : String :=
  buildFlatFile str (fieldNames data) data ","

/-! ## Reading the response -/

def parseCsv (content : String) : Option (List (List String)) :=
  (Csv.parse content.toList).map fun records => records.map fun r => r.map String.ofList

def cellText (str : V → String) (row : Row V) (col : String) : String :=
  (((row.lookup col).getD none).map str).getD ""

/-- Every key of a row, once, in the order in which the keys first come. -/
structure FirstSeen (keys columns : List String) : Prop where
  nodup : columns.Nodup
  mem_iff : ∀ k, k ∈ columns ↔ k ∈ keys
  order : columns.Pairwise fun a b => keys.idxOf a < keys.idxOf b

def ReadsBack (str : V → String) (data : List (Row V)) : Prop :=
  ∃ columns, FirstSeen (rowKeys data) columns ∧
    parseCsv (buildCsvResponse str data) =
      some (columns :: data.map fun row => columns.map (cellText str row))

/-! ## Columns -/

theorem firstSeen_fieldNames (data : List (Row V)) :
    FirstSeen (rowKeys data) (fieldNames data) where
  nodup := Dict.nodup_keys_assignAll _
  mem_iff k := by
    rw [fieldNames, Dict.mem_keys_assignAll]
    exact exists_eq_right
  order := by
    have h := Dict.pairwise_keys_assignAll id (fun _ : String => ()) (rowKeys data)
    rw [List.map_id] at h
    exact h

theorem FirstSeen.eq_nil_iff {keys columns : List String} (h : FirstSeen keys columns) :
    columns = [] ↔ keys = [] := by
  rw [List.eq_nil_iff_forall_not_mem, List.eq_nil_iff_forall_not_mem]
  exact forall_congr' fun k => not_congr (h.mem_iff k)

theorem rowKeys_eq_nil {data : List (Row V)} : rowKeys data = [] ↔ ∀ row ∈ data, row = [] := by
  simp [rowKeys, List.flatMap_eq_nil_iff]

/-! ## The file -/

theorem toList_escapeValue (v : Option String) :
    (escapeValue v).toList = Csv.field ((v.getD "").toList) := by
  cases v with
  | none => decide
  | some s => simp [escapeValue, Csv.field]

theorem cell_getD (str : V → String) (row : Row V) (col : String) :
    (cell str row col).getD "" = cellText str row col := by
  unfold cell cellText
  cases row.lookup col <;> rfl

/-- The records of the response: the columns, then the cells of each row. -/
def records (str : V → String) (names : List String) (data : List (Row V)) : List Csv.Record :=
  (names :: data.map fun row => names.map (cellText str row)).map fun r => r.map String.toList

theorem toList_line (cells : List (Option String)) :
    (",".intercalate (cells.map escapeValue)).toList =
      Csv.record (cells.map fun v => (v.getD "").toList) := by
  have hcells : (cells.map escapeValue).map String.toList =
      (cells.map fun v => (v.getD "").toList).map Csv.field := by
    rw [List.map_map, List.map_map]
    exact List.map_congr_left fun v _ => toList_escapeValue v
  rw [String.toList_intercalate, hcells]
  rfl

theorem toList_buildFlatFile (str : V → String) (names : List String) (data : List (Row V)) :
    (buildFlatFile str names data ",").toList = Csv.file (records str names data) := by
  have hheader : (",".intercalate (names.map fun name => escapeValue (some name))).toList =
      Csv.record (names.map String.toList) := by
    have h := toList_line (names.map some)
    rwa [List.map_map, List.map_map] at h
  have hrow : ∀ row : Row V,
      (",".intercalate (names.map fun col => escapeValue (cell str row col))).toList =
        Csv.record ((names.map (cellText str row)).map String.toList) := by
    intro row
    have h := toList_line (names.map (cell str row))
    rw [List.map_map, List.map_map] at h
    rw [List.map_map]
    refine h.trans (congrArg Csv.record (List.map_congr_left fun col _ => ?_))
    exact congrArg String.toList (cell_getD str row col)
  have hrows : data.map (String.toList ∘ fun row =>
      ",".intercalate (names.map fun col => escapeValue (cell str row col))) =
      data.map fun row => Csv.record ((names.map (cellText str row)).map String.toList) :=
    List.map_congr_left fun row _ => hrow row
  rw [buildFlatFile, String.toList_intercalate, Csv.file, records, List.map_cons, List.map_cons,
    List.map_cons, hheader, List.map_map, List.map_map, List.map_map, hrows]
  rfl

theorem map_ofList_records (str : V → String) (names : List String) (data : List (Row V)) :
    (records str names data).map (fun r => r.map String.ofList) =
      names :: data.map fun row => names.map (cellText str row) := by
  rw [records, List.map_map]
  refine (List.map_congr_left fun r _ => ?_).trans (List.map_id _)
  rw [Function.comp_apply, List.map_map]
  exact (List.map_congr_left fun s _ => String.ofList_toList).trans (List.map_id _)

theorem parseCsv_buildFlatFile (str : V → String) {names : List String} (hnames : names ≠ [])
    (data : List (Row V)) :
    parseCsv (buildFlatFile str names data ",") =
      some (names :: data.map fun row => names.map (cellText str row)) := by
  have hparse : Csv.parse (Csv.file (records str names data)) = some (records str names data) := by
    refine Csv.parse_file (List.cons_ne_nil _ _) fun r hr => ?_
    obtain ⟨q, hq, rfl⟩ := List.mem_map.1 hr
    have hne : q ≠ [] := by
      rcases List.mem_cons.1 hq with rfl | hq
      · exact hnames
      · obtain ⟨row, -, rfl⟩ := List.mem_map.1 hq
        exact List.map_eq_nil_iff.not.2 hnames
    exact List.map_eq_nil_iff.not.2 hne
  rw [parseCsv, toList_buildFlatFile, hparse, Option.map_some, map_ofList_records]

/-- A reader finds a field in every record. -/
theorem ne_nil_of_parseCsv {content : String} {rs : List (List String)}
    (h : parseCsv content = some rs) : ∀ r ∈ rs, r ≠ [] := by
  obtain ⟨records, hread, rfl⟩ := Option.map_eq_some_iff.1 h
  intro r hr
  obtain ⟨q, hq, rfl⟩ := List.mem_map.1 hr
  exact List.map_eq_nil_iff.not.2 (Csv.ne_nil_of_read hread q hq)

/-- **The response is read back as the columns and the cells of every row exactly when some row has
a key.** -/
theorem readsBack_iff (str : V → String) (data : List (Row V)) :
    ReadsBack str data ↔ ∃ row ∈ data, row ≠ [] := by
  have hkeys : rowKeys data ≠ [] ↔ ∃ row ∈ data, row ≠ [] := by
    rw [Ne, rowKeys_eq_nil]
    push Not
    rfl
  rw [← hkeys]
  constructor
  · rintro ⟨columns, hseen, hread⟩ hnil
    have hcolumns := hseen.eq_nil_iff.2 hnil
    exact ne_nil_of_parseCsv hread columns List.mem_cons_self hcolumns
  · intro hne
    have hseen := firstSeen_fieldNames data
    exact ⟨_, hseen, parseCsv_buildFlatFile str (hseen.eq_nil_iff.not.2 hne) data⟩

end

/-- Without rows the response is empty: a header with one empty field. -/
theorem not_readsBack_nil : ¬ ∀ data : List (Row String), ReadsBack id data := by
  intro h
  obtain ⟨columns, hseen, hread⟩ := h []
  have hcolumns : columns = [] := hseen.eq_nil_iff.2 rfl
  have hempty : parseCsv (buildCsvResponse id ([] : List (Row String))) = some [[""]] := by decide
  rw [hempty, hcolumns] at hread
  exact absurd hread (by decide)

end CsvResponse
end DocumentAi
