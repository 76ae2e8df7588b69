import Mathlib.Data.List.Dedup
import Mathlib.Data.String.Basic
import DocumentAi.Lib.Decimal
import DocumentAi.Metrics.Usage

/-!
# Monthly metrics (`utils/metrics.py:86-141`)

| here | there |
| --- | --- |
| `CalendarDate`      | a `datetime` of `strptime(.., "%Y-%m-%d")`: year 1 to 9999, month 1 to 12 |
| `nextMonth`         | `current_dt.replace(..)` (`:98-101`); `none` for `ValueError` |
| `monthsAdded`       | the `while` loop (`:94-101`): the texts in the order in which they are added to the set |
| `sortedSet`         | `sorted(months)` |
| `readMonths`        | the `for` loop (`:104-118`): the keys requested and what it collects; `none` when it raises |
| `mapResponseCodes`  | `_map_response_codes` (`:132-141`) |
| `getMonthlyMetrics` | `_get_monthly_metrics` (`:86-129`) |
| `Fetched`           | **S3 boundary**: `get_object` and `json.loads` for one key |

The loop steps through the first days of the months after the start. `Month.index` counts months, one
step adds one to it (`index_nextMonth`), so the loop adds the months from that of the start to that of
the end (`monthsAdded_eq`). Their texts have one width and sort as the months do.
-/

namespace DocumentAi.Metrics

/-! ## Dates and months -/

structure CalendarDate extends Date where
  month_pos : 1 ≤ inMonth.month
  month_le  : inMonth.month ≤ 12
  year_pos  : 1 ≤ inMonth.year
  year_le   : inMonth.year ≤ 9999

instance (d e : Date) : Decidable (d.le e) := inferInstanceAs (Decidable (_ ∨ _))

theorem one_le_daysInMonth (m : Month) : 1 ≤ daysInMonth m := by
  unfold daysInMonth
  split
  · split <;> decide
  · split <;> decide

/-- `datetime(year, month, 1)`. -/
def firstOf (m : Month) : Option CalendarDate :=
  if h : (1 ≤ m.month ∧ m.month ≤ 12) ∧ 1 ≤ m.year ∧ m.year ≤ 9999 then
    some
      { inMonth := m, day := 1, day_pos := Nat.le_refl 1, day_le := one_le_daysInMonth m
        month_pos := h.1.1, month_le := h.1.2, year_pos := h.2.1, year_le := h.2.2 }
  else none

def CalendarDate.nextMonth (d : CalendarDate) : Option CalendarDate :=
  if d.inMonth.month = 12 then firstOf ⟨d.inMonth.year + 1, 1⟩
  else firstOf ⟨d.inMonth.year, d.inMonth.month + 1⟩

/-- `strftime("%Y-%m")`. -/
def Month.text (m : Month) : String :=
  String.ofList (Decimal.padded 4 m.year ++ '-' :: Decimal.padded 2 m.month)

def Month.lt (m n : Month) : Prop := m.year < n.year ∨ (m.year = n.year ∧ m.month < n.month)

def Month.index (m : Month) : Nat := 12 * m.year + m.month

def Month.ofIndex (i : Nat) : Month := ⟨(i - 1) / 12, (i - 1) % 12 + 1⟩

theorem inMonth_firstOf {m : Month} {d : CalendarDate} (h : firstOf m = some d) :
    d.inMonth = m ∧ d.day = 1 := by
  unfold firstOf at h
  split at h
  · cases h
    exact ⟨rfl, rfl⟩
  · cases h

theorem index_nextMonth {d next : CalendarDate} (h : d.nextMonth = some next) :
    next.inMonth.index = d.inMonth.index + 1 ∧ next.day = 1 := by
  unfold CalendarDate.nextMonth at h
  split at h
  next hm =>
    obtain ⟨hmonth, hday⟩ := inMonth_firstOf h
    refine ⟨?_, hday⟩
    rw [hmonth, Month.index, Month.index, hm]
    show 12 * (d.inMonth.year + 1) + 1 = 12 * d.inMonth.year + 12 + 1
    omega
  next =>
    obtain ⟨hmonth, hday⟩ := inMonth_firstOf h
    refine ⟨?_, hday⟩
    rw [hmonth]
    rfl

theorem isSome_nextMonth {d : CalendarDate} (h : d.inMonth.index < (⟨9999, 12⟩ : Month).index) :
    ∃ next, d.nextMonth = some next := by
  have hpos := d.month_pos
  have hle := d.month_le
  have hy := d.year_pos
  have hy' := d.year_le
  have hindex : 12 * d.inMonth.year + d.inMonth.month < 12 * 9999 + 12 := h
  unfold CalendarDate.nextMonth
  split
  next hm =>
    have hyear : d.inMonth.year + 1 ≤ 9999 := by omega
    exact ⟨_, dif_pos ⟨⟨Nat.le_refl 1, Nat.le_of_ble_eq_true rfl⟩, Nat.le_add_left 1 _, hyear⟩⟩
  next hm =>
    have hmonth : d.inMonth.month + 1 ≤ 12 := by omega
    exact ⟨_, dif_pos ⟨⟨Nat.le_add_left 1 _, hmonth⟩, hy, hy'⟩⟩

theorem index_le_of_le {d e : CalendarDate} (h : d.toDate.le e.toDate) :
    d.inMonth.index ≤ e.inMonth.index := by
  have hd := d.month_le
  have he := e.month_pos
  unfold Date.le at h
  unfold Month.index
  omega

theorem le_of_index_lt {d e : CalendarDate} (h : d.inMonth.index < e.inMonth.index) :
    d.toDate.le e.toDate := by
  have hd := d.month_pos
  have he := e.month_le
  unfold Month.index at h
  unfold Date.le
  omega

/-- A first day comes before every other day of its month. -/
theorem le_of_day_one {d e : CalendarDate} (hday : d.day = 1)
    (h : d.inMonth.index ≤ e.inMonth.index) : d.toDate.le e.toDate := by
  have hd := d.month_pos
  have hd' := d.month_le
  have he := e.month_pos
  have he' := e.month_le
  have hpos := e.day_pos
  unfold Month.index at h
  unfold Date.le
  omega

/-! ## The loop over the months -/

def monthsAdded (current last : CalendarDate) : Option (List String) :=
  if _hle : current.toDate.le last.toDate then
    match _hnext : current.nextMonth with
    | none      => none
    | some next => (monthsAdded next last).map (current.inMonth.text :: ·)
  else some []
termination_by last.inMonth.index + 1 - current.inMonth.index
decreasing_by
  have hstep := (index_nextMonth _hnext).1
  have hindex := index_le_of_le _hle
  omega

def sortedSet (texts : List String) : List String :=
  texts.dedup.mergeSort fun a b => decide (a ≤ b)

/-- The months with the numbers from `a` to `b`. -/
def monthsBetween (a b : Nat) : List Month := (List.range' a (b + 1 - a)).map Month.ofIndex

theorem ofIndex_index {m : Month} (hpos : 1 ≤ m.month) (hle : m.month ≤ 12) :
    Month.ofIndex m.index = m := by
  obtain ⟨year, month⟩ := m
  simp only at hpos hle
  simp only [Month.ofIndex, Month.index, Month.mk.injEq]
  omega

theorem index_ofIndex {i : Nat} (h : 1 ≤ i) : (Month.ofIndex i).index = i := by
  simp only [Month.ofIndex, Month.index]
  omega

theorem monthsBetween_cons {a b : Nat} (h : a ≤ b) :
    monthsBetween a b = Month.ofIndex a :: monthsBetween (a + 1) b := by
  have hlen : b + 1 - a = (b + 1 - (a + 1)) + 1 := by omega
  rw [monthsBetween, hlen, List.range'_succ, List.map_cons, monthsBetween]

/-- The loop adds the months one by one, from that of its first day to that of the last. -/
theorem monthsAdded_eq (current last : CalendarDate)
    (hend : last.inMonth.index < (⟨9999, 12⟩ : Month).index)
    (hstart : current.toDate.le last.toDate ∨ last.inMonth.index < current.inMonth.index) :
    monthsAdded current last =
      some ((monthsBetween current.inMonth.index last.inMonth.index).map Month.text) := by
  induction hn : last.inMonth.index + 1 - current.inMonth.index generalizing current with
  | zero =>
    have hover : ¬ current.toDate.le last.toDate := fun h => by
      have hindex := index_le_of_le h
      omega
    rw [monthsAdded, dif_neg hover, monthsBetween, hn]
    rfl
  | succ n ih =>
    have hle : current.toDate.le last.toDate := hstart.resolve_right (by omega)
    have hindex := index_le_of_le hle
    obtain ⟨next, hnext⟩ := isSome_nextMonth (d := current) (by omega)
    obtain ⟨hstep, hday⟩ := index_nextMonth hnext
    have hrest := ih next (by
      rcases Nat.lt_or_ge last.inMonth.index next.inMonth.index with hlt | hge
      · exact .inr hlt
      · exact .inl (le_of_day_one hday hge)) (by omega)
    rw [monthsAdded, dif_pos hle]
    split
    next hnone =>
      rw [hnext] at hnone
      cases hnone
    next next' hsome =>
      rw [hnext] at hsome
      cases hsome
      rw [hrest, hstep, Option.map_some, monthsBetween_cons hindex, List.map_cons,
        ofIndex_index current.month_pos current.month_le]

/-! ## The requests -/

/-- `ResponseCodes.get_message`, empty for other codes. -/
def messageOf (code : String) : String :=
  let codes : List ResponseCode :=
    [.success, .noBlueprintMatched, .aiConsentDeclined, .processingExcluded,
      .skippedPerPreclassification, .blueprintDisabled, .missingFields, .miscategorized,
      .noDocumentDetected, .blurryDocumentDetected, .lowExtractionConfidence, .passwordProtected,
      .multipleDocumentsOnSinglePage, .multipleDocumentsInMultipage, .internalProcessingError]
  ((codes.find? fun c => c.value = code).map ResponseCode.getMessage).getD ""

def mapResponseCodes (stats : Stats) : Stats :=
  let key (code : String) : String :=
    match truthy (some (messageOf code)) with
    | some display => code ++ " - " ++ display
    | none         => code
  { stats with
    byResponseCode :=
      stats.byResponseCode.foldl (fun mapped e => Dict.assign (key e.1) e.2 mapped) [] }

inductive Fetched where
  | stats (s : Stats)
  | noSuchKey
  | failed

def readMonths (get : String → Fetched) : List String → List String × Option (List Stats)
  | []          => ([], some [])
  | key :: keys =>
    match get key with
    | .failed    => ([key], none)
    | .noSuchKey => (key :: (readMonths get keys).1, (readMonths get keys).2)
    | .stats s   =>
      (key :: (readMonths get keys).1, (readMonths get keys).2.map (mapResponseCodes s :: ·))

def monthlyKey (tenantId : Option String) (yyyymm : String) : String :=
  match truthy tenantId with
  | some tenant => "aggregated/utc/month=" ++ yyyymm ++ "/tenant=" ++ tenant ++ "/stats.json"
  | none        => "aggregated/utc/month=" ++ yyyymm ++ "/stats.json"

structure MonthlyMetrics where
  startDate    : String
  endDate      : String
  granularity  : String := "monthly"
  monthlyStats : List Stats
  summary      : Stats

/-- The keys requested, and the answer; `none` when it raises. -/
def getMonthlyMetrics (num : Numbers) (strptime : String → Option CalendarDate)
    (get : String → Fetched) (startDate endDate : String) (tenantId : Option String) :
    List String × Option MonthlyMetrics :=
  match strptime startDate, strptime endDate with
  | some startDt, some endDt =>
    match monthsAdded startDt endDt with
    | none        => ([], none)
    | some months =>
      let (requested, monthlyStats) := readMonths get ((sortedSet months).map (monthlyKey tenantId))
      (requested, monthlyStats.map fun stats =>
        { startDate, endDate, monthlyStats := stats, summary := buildSummary num stats })
  | _, _ => ([], none)

/-! ## The months of a range -/

/-- A day of the month lies in the range. -/
def Month.Meets (m : Month) (first last : CalendarDate) : Prop :=
  ∃ d : CalendarDate, d.inMonth = m ∧ first.toDate.le d.toDate ∧ d.toDate.le last.toDate

theorem lt_of_index_lt {m n : Month} (hm : 1 ≤ m.month) (hn : n.month ≤ 12)
    (h : m.index < n.index) : m.lt n := by
  unfold Month.index at h
  unfold Month.lt
  omega

theorem month_ofIndex (i : Nat) : 1 ≤ (Month.ofIndex i).month ∧ (Month.ofIndex i).month ≤ 12 := by
  simp only [Month.ofIndex]
  omega

theorem one_le_index (d : CalendarDate) : 1 ≤ d.inMonth.index := by
  have hpos := d.month_pos
  unfold Month.index
  omega

theorem pairwise_monthsBetween {a : Nat} (ha : 1 ≤ a) (b : Nat) :
    (monthsBetween a b).Pairwise Month.lt := by
  rw [monthsBetween, List.pairwise_map]
  refine List.Pairwise.imp_of_mem (fun {i j} hi hj hij => ?_) List.pairwise_lt_range'
  have hia := (List.mem_range'_1.1 hi).1
  have hja := (List.mem_range'_1.1 hj).1
  refine lt_of_index_lt (month_ofIndex i).1 (month_ofIndex j).2 ?_
  rw [index_ofIndex (ha.trans hia), index_ofIndex (ha.trans hja)]
  exact hij

/-- The months between those of the start and the end are the ones with a day in the range. -/
theorem mem_monthsBetween {first last : CalendarDate} (hle : first.toDate.le last.toDate)
    {m : Month} :
    m ∈ monthsBetween first.inMonth.index last.inMonth.index ↔ m.Meets first last := by
  rw [monthsBetween, List.mem_map]
  constructor
  · rintro ⟨i, hi, rfl⟩
    obtain ⟨hfirst, hlast⟩ := List.mem_range'_1.1 hi
    rcases Nat.eq_or_lt_of_le hfirst with heq | hlt
    · exact ⟨first, heq ▸ (ofIndex_index first.month_pos first.month_le).symm,
        .inr ⟨rfl, .inr ⟨rfl, Nat.le_refl _⟩⟩, hle⟩
    · have hindex := index_ofIndex ((one_le_index first).trans hfirst)
      have hfp := first.year_pos
      have hly := last.year_le
      have hlm := last.month_le
      have hfm := first.month_pos
      have hyear : 1 ≤ (Month.ofIndex i).year ∧ (Month.ofIndex i).year ≤ 9999 := by
        have hmonth := month_ofIndex i
        simp only [Month.index] at hindex hlt hlast hfirst
        omega
      obtain ⟨d, hd⟩ : ∃ d, firstOf (Month.ofIndex i) = some d :=
        ⟨_, dif_pos ⟨month_ofIndex i, hyear⟩⟩
      obtain ⟨hmonth, hday⟩ := inMonth_firstOf hd
      refine ⟨d, hmonth, le_of_index_lt ?_, le_of_day_one hday ?_⟩
      · rw [hmonth, hindex]
        exact hlt
      · rw [hmonth, hindex]
        omega
  · rintro ⟨d, rfl, hfirst, hlast⟩
    have ha := index_le_of_le hfirst
    have hb := index_le_of_le hlast
    exact ⟨d.inMonth.index, List.mem_range'_1.2 (by omega), ofIndex_index d.month_pos d.month_le⟩

/-! ## Sorting the texts -/

theorem text_lt_text {m n : Month} (hn : n.month ≤ 12) (hy : n.year ≤ 9999) (h : m.lt n) :
    m.text < n.text := by
  rw [String.lt_iff, Month.text, Month.text, String.toList_ofList, String.toList_ofList]
  rcases h with hyear | ⟨hyear, hmonth⟩
  · exact Decimal.append_lt_append (Decimal.padded_lt_padded hyear (by omega))
      (by rw [Decimal.length_padded, Decimal.length_padded]) _ _
  · rw [hyear]
    refine List.append_left_lt (List.cons_lt_cons_iff.2 (.inr ⟨rfl, ?_⟩))
    exact Decimal.padded_lt_padded hmonth (by omega)

/-- Texts that increase are neither reordered nor dropped. -/
theorem sortedSet_of_pairwise {texts : List String} (h : texts.Pairwise (· < ·)) :
    sortedSet texts = texts := by
  have hnodup : texts.Nodup := h.imp fun hlt => ne_of_lt hlt
  rw [sortedSet, List.Nodup.dedup hnodup]
  exact List.mergeSort_of_pairwise (h.imp fun hlt => decide_eq_true hlt.le)

theorem pairwise_text {a b : Nat} (ha : 1 ≤ a) (hb : b < (⟨9999, 12⟩ : Month).index) :
    ((monthsBetween a b).map Month.text).Pairwise (· < ·) := by
  rw [List.pairwise_map]
  refine (pairwise_monthsBetween ha b).imp_of_mem fun {m n} _ hn hlt => ?_
  obtain ⟨i, hi, rfl⟩ := List.mem_map.1 hn
  obtain ⟨hia, hib⟩ := List.mem_range'_1.1 hi
  have hindex := index_ofIndex (ha.trans hia)
  have hmonth := month_ofIndex i
  refine text_lt_text hmonth.2 ?_ hlt
  simp only [Month.index] at hindex hb
  omega

/-! ## What is requested -/

theorem readMonths_prefix (get : String → Fetched) (keys : List String) :
    (readMonths get keys).1 <+: keys := by
  induction keys with
  | nil => exact List.prefix_rfl
  | cons key keys ih =>
    rw [readMonths]
    cases get key with
    | failed => exact List.cons_prefix_cons.2 ⟨rfl, List.nil_prefix⟩
    | noSuchKey => exact List.cons_prefix_cons.2 ⟨rfl, ih⟩
    | stats s => exact List.cons_prefix_cons.2 ⟨rfl, ih⟩

/-- Without a failure every key is requested and the loop ends. -/
theorem readMonths_of_noFailure {get : String → Fetched} {keys : List String}
    (h : ∀ key ∈ keys, get key ≠ .failed) :
    (readMonths get keys).1 = keys ∧ (readMonths get keys).2.isSome = true := by
  induction keys with
  | nil => exact ⟨rfl, rfl⟩
  | cons key keys ih =>
    obtain ⟨hkey, hkeys⟩ := List.forall_mem_cons.1 h
    obtain ⟨hrequested, hstats⟩ := ih hkeys
    rw [readMonths]
    cases hget : get key with
    | failed => exact absurd hget hkey
    | noSuchKey => exact ⟨congrArg _ hrequested, hstats⟩
    | stats s => exact ⟨congrArg _ hrequested, by simpa using hstats⟩

def lastOf2023 : CalendarDate :=
  ⟨⟨⟨2023, 12⟩, 31, by decide, by decide⟩, by decide, by decide, by decide, by decide⟩

def leapDay2024 : CalendarDate :=
  ⟨⟨⟨2024, 2⟩, 29, by decide, by decide⟩, by decide, by decide, by decide, by decide⟩

/-- From the last day of a year to a leap day. -/
def overNewYear (text : String) : Option CalendarDate :=
  if text = "2023-12-31" then some lastOf2023
  else if text = "2024-02-29" then some leapDay2024
  else none

end DocumentAi.Metrics
