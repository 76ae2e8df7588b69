import Mathlib.Algebra.Order.Ring.Rat
import DocumentAi.Admin.Tenants
import DocumentAi.Metrics.Stats

/-!
# Aggregation is a partition

Everything that is counted or summed is a `Measure`; each record has a share in it, and stats are
the sums of the shares of their records (`measure_statsOf`). The rest follows from how sums behave
when the records are split by tenant, permuted, or split by day.

| here | meaning |
| --- | --- |
| `Measure`       | a total, a sum or count of times, or the count of one label of a histogram |
| `statsOf`       | the stats of a list of records, times averaged |
| `recordsOf t`   | the records behind the entry `t` of `_aggregate_records` |
| `Stats.Same`    | equal as dictionaries |
-/

namespace DocumentAi.Metrics

inductive TimeKind where
  | totalProcessing | bdaProcessing | bdaWait
deriving DecidableEq

def Stats.timing (s : Stats) : TimeKind → Timing
  | .totalProcessing => s.totalProcessingTime
  | .bdaProcessing   => s.bdaProcessingTime
  | .bdaWait         => s.bdaWaitTime

def Stats.hist (s : Stats) : Histogram → Counter String
  | .status         => s.byStatus
  | .classification => s.byClassification
  | .responseCode   => s.byResponseCode
  | .fileType       => s.byFileType
  | .userCategory   => s.byUserCategory
  | .uploadMethod   => s.byUploadMethod
  | .hour           => s.byHour

inductive Measure where
  | records | bdaInvocations | textractExtractions | extractionInvocations | documentsRecognized
  | fileSizeBytes | pages | bdaPages | bedrockInputTokens | bedrockOutputTokens
  | timeSum (k : TimeKind)
  | timeCount (k : TimeKind)
  | label (h : Histogram) (k : String)

def Stats.measure (s : Stats) : Measure → Rat
  | .records               => s.totalRecords
  | .bdaInvocations        => s.totalBdaInvocations
  | .textractExtractions   => s.totalTextractExtractions
  | .extractionInvocations => s.totalExtractionInvocations
  | .documentsRecognized   => s.totalDocumentsRecognized
  | .fileSizeBytes         => s.usageStats.totalFileSizeBytes
  | .pages                 => s.usageStats.totalPages
  | .bdaPages              => s.usageStats.totalBdaPages
  | .bedrockInputTokens    => s.usageStats.totalBedrockInputTokens
  | .bedrockOutputTokens   => s.usageStats.totalBedrockOutputTokens
  | .timeSum k             => (s.timing k).sum
  | .timeCount k           => (s.timing k).count
  | .label h k             => (s.hist h).get k

/-- The column that a time is read from. -/
def TimeKind.value : TimeKind → QueryRow → Option String
  | totalProcessing, r => r.lookup "total_processing_time_seconds"
  | bdaProcessing, r   => timeOf r "extraction_processing_time_seconds" "bda_processing_time_seconds"
  | bdaWait, r         => timeOf r "extraction_wait_time_seconds" "bda_wait_time_seconds"

section
variable (num : Numbers)

def TimeKind.read (k : TimeKind) (r : QueryRow) : Option Rat := (truthy (k.value r)).bind num.float

/-- What one record adds. -/
def Measure.share : Measure → QueryRow → Rat
  | records, _               => 1
  | bdaInvocations, r        => if hasBdaInvocation r then 1 else 0
  | textractExtractions, r   => if isTextract r then 1 else 0
  | extractionInvocations, r => if hasBdaInvocation r || isTextract r then 1 else 0
  | documentsRecognized, r   => if isDocumentTypeIdentified (responseCodeLabel r) then 1 else 0
  | fileSizeBytes, r         => columnInt num (r.lookup "file_size_bytes")
  | pages, r                 => columnInt num (r.lookup "pages_detected")
  | bdaPages, r              => columnInt num (r.lookup "pages_sent_to_bda")
  | bedrockInputTokens, r    =>
    columnInt num (r.lookup "preclassification_input_tokens")
      + columnInt num (r.lookup "crop_input_tokens")
  | bedrockOutputTokens, r   =>
    columnInt num (r.lookup "preclassification_output_tokens")
      + columnInt num (r.lookup "crop_output_tokens")
  | timeSum k, r             => (k.read num r).getD 0
  | timeCount k, r           => if (k.read num r).isSome then 1 else 0
  | label h k, r             => if h.label num r = some k then 1 else 0

def statsOf (rs : List QueryRow) : Stats := finalizeTiming num (rs.foldl (processRecord num) .init)

/-- Histograms are proper dictionaries and the averages are those of the sums. -/
structure Settled (s : Stats) : Prop where
  valid    : ∀ h, (s.hist h).Valid
  averaged : ∀ k, (s.timing k).avg =
    if 0 < (s.timing k).count then num.round ((s.timing k).sum / (s.timing k).count) else 0

end

structure Stats.Same (s t : Stats) : Prop where
  measures : ∀ m, s.measure m = t.measure m
  hists    : ∀ h, Counter.Same (s.hist h) (t.hist h)
  averages : ∀ k, (s.timing k).avg = (t.timing k).avg

def recordsOf (t : String) (rs : List QueryRow) : List QueryRow :=
  if t = "__global__" then rs else rs.filter fun r => tenantKey r = t

/-- The tenant id is absent, empty, or one that the tenant model admits. -/
def AdmittedTenant (r : QueryRow) : Prop := ∀ t, truthy (r.lookup "tenant_id") = some t → Admin.IsTenantId t

/-! ## One record more -/

section
variable {num : Numbers}

theorem hist_processRecord (s : Stats) (r : QueryRow) (h : Histogram) :
    (processRecord num s r).hist h = countLabel (h.label num r) (s.hist h) := by
  cases h <;> rfl

theorem timing_processRecord (s : Stats) (r : QueryRow) (k : TimeKind) :
    (processRecord num s r).timing k = (s.timing k).add num (k.value r) := by
  cases k <;> rfl

theorem get_countLabel (l : Option String) (c : Counter String) (k : String) :
    (countLabel l c).get k = c.get k + if l = some k then 1 else 0 := by
  cases l with
  | none => rfl
  | some j =>
    rw [countLabel, Counter.get_add]
    simp only [Option.some.injEq, eq_comm]

theorem Timing.sum_add (t : Timing) (v : Option String) :
    (t.add num v).sum = t.sum + ((truthy v).bind num.float).getD 0 := by
  unfold Timing.add
  cases (truthy v).bind num.float with
  | none => exact (add_zero _).symm
  | some x => rfl

theorem Timing.count_add (t : Timing) (v : Option String) :
    (t.add num v).count = t.count + if ((truthy v).bind num.float).isSome then 1 else 0 := by
  unfold Timing.add
  cases (truthy v).bind num.float with
  | none => rfl
  | some x => rfl

theorem Timing.avg_add (t : Timing) (v : Option String) : (t.add num v).avg = t.avg := by
  unfold Timing.add
  cases (truthy v).bind num.float with
  | none => rfl
  | some x => rfl

theorem cast_count {n : Nat} {c : Prop} [Decidable c] :
    ((n + if c then 1 else 0 : Nat) : Rat) = n + if c then 1 else 0 := by
  split
  · rw [Nat.cast_add, Nat.cast_one]
  · rw [Nat.add_zero, add_zero]

/-- **Step.** A record adds its share to every measure. -/
theorem measure_processRecord (s : Stats) (r : QueryRow) (m : Measure) :
    (processRecord num s r).measure m = s.measure m + m.share num r := by
  cases m with
  | records => exact Nat.cast_succ _
  | bdaInvocations => exact cast_count
  | textractExtractions => exact cast_count
  | extractionInvocations => exact cast_count
  | documentsRecognized => exact cast_count
  | fileSizeBytes => exact Int.cast_add ..
  | pages => exact Int.cast_add ..
  | bdaPages => exact Int.cast_add ..
  | bedrockInputTokens =>
    simp only [Stats.measure, Measure.share, processRecord, addUsage, Int.cast_add, add_assoc]
  | bedrockOutputTokens =>
    simp only [Stats.measure, Measure.share, processRecord, addUsage, Int.cast_add, add_assoc]
  | timeSum k =>
    rw [Stats.measure, timing_processRecord, Timing.sum_add]
    rfl
  | timeCount k =>
    rw [Stats.measure, timing_processRecord, Timing.count_add]
    exact cast_count
  | label h k =>
    rw [Stats.measure, hist_processRecord, get_countLabel]
    exact cast_count

theorem valid_processRecord {s : Stats} (hs : ∀ h, (s.hist h).Valid) (r : QueryRow) (h : Histogram) :
    ((processRecord num s r).hist h).Valid := by
  rw [hist_processRecord]
  cases h.label num r with
  | none => exact hs h
  | some k => exact (hs h).add k Nat.one_pos

theorem total_processRecord (s : Stats) (r : QueryRow) (h : Histogram) :
    ((processRecord num s r).hist h).total =
      (s.hist h).total + if (h.label num r).isSome then 1 else 0 := by
  rw [hist_processRecord]
  cases h.label num r with
  | none => rfl
  | some k => exact Counter.total_add k 1 _

/-! ## A list of records -/

theorem measure_init (m : Measure) : Stats.init.measure m = 0 := by
  cases m with
  | timeSum k => cases k <;> rfl
  | timeCount k => cases k <;> rfl
  | label h k => cases h <;> rfl
  | _ => rfl

theorem valid_init (h : Histogram) : (Stats.init.hist h).Valid := by
  cases h <;> exact Counter.valid_nil

theorem measure_foldl (rs : List QueryRow) (s : Stats) (m : Measure) :
    (rs.foldl (processRecord num) s).measure m = s.measure m + (rs.map (m.share num)).sum := by
  induction rs generalizing s with
  | nil => exact (add_zero _).symm
  | cons r rs ih =>
    rw [List.foldl_cons, ih, measure_processRecord, List.map_cons, List.sum_cons, add_assoc]

theorem valid_foldl (rs : List QueryRow) {s : Stats} (hs : ∀ h, (s.hist h).Valid) (h : Histogram) :
    ((rs.foldl (processRecord num) s).hist h).Valid := by
  induction rs generalizing s with
  | nil => exact hs h
  | cons r rs ih => exact ih fun h => valid_processRecord hs r h

theorem total_foldl (rs : List QueryRow) (s : Stats) (h : Histogram) :
    ((rs.foldl (processRecord num) s).hist h).total =
      (s.hist h).total + rs.countP fun r => (h.label num r).isSome := by
  induction rs generalizing s with
  | nil => rfl
  | cons r rs ih =>
    rw [List.foldl_cons, ih, total_processRecord, List.countP_cons, Nat.add_assoc,
      Nat.add_comm (List.countP _ _)]

theorem avg_foldl (rs : List QueryRow) (s : Stats) (k : TimeKind) :
    ((rs.foldl (processRecord num) s).timing k).avg = (s.timing k).avg := by
  induction rs generalizing s with
  | nil => rfl
  | cons r rs ih => rw [List.foldl_cons, ih, timing_processRecord, Timing.avg_add]

theorem timing_finalizeTiming (s : Stats) (k : TimeKind) :
    (finalizeTiming num s).timing k = (s.timing k).finalize num := by
  cases k <;> rfl

theorem hist_finalizeTiming (s : Stats) (h : Histogram) : (finalizeTiming num s).hist h = s.hist h := by
  cases h <;> rfl

theorem Timing.finalize_sum_count (t : Timing) :
    (t.finalize num).sum = t.sum ∧ (t.finalize num).count = t.count := by
  unfold Timing.finalize
  split
  · exact ⟨rfl, rfl⟩
  · exact ⟨rfl, rfl⟩

theorem measure_finalizeTiming (s : Stats) (m : Measure) :
    (finalizeTiming num s).measure m = s.measure m := by
  cases m with
  | timeSum k => rw [Stats.measure, timing_finalizeTiming, (Timing.finalize_sum_count _).1]; rfl
  | timeCount k => rw [Stats.measure, timing_finalizeTiming, (Timing.finalize_sum_count _).2]; rfl
  | label h k => rw [Stats.measure, hist_finalizeTiming]; rfl
  | _ => rfl

/-- Stats that have not been averaged yet are settled by `finalizeTiming`. -/
theorem settled_finalizeTiming {s : Stats} (hs : ∀ h, (s.hist h).Valid)
    (havg : ∀ k, (s.timing k).avg = 0) : Settled num (finalizeTiming num s) where
  valid h := by
    rw [hist_finalizeTiming]
    exact hs h
  averaged k := by
    rw [timing_finalizeTiming, (Timing.finalize_sum_count _).1, (Timing.finalize_sum_count _).2]
    unfold Timing.finalize
    split
    · rfl
    · exact havg k

theorem measure_statsOf (rs : List QueryRow) (m : Measure) :
    (statsOf num rs).measure m = (rs.map (m.share num)).sum := by
  rw [statsOf, measure_finalizeTiming, measure_foldl, measure_init, zero_add]

theorem settled_statsOf (rs : List QueryRow) : Settled num (statsOf num rs) := by
  refine settled_finalizeTiming (fun h => valid_foldl rs valid_init h) fun k => ?_
  rw [avg_foldl]
  cases k <;> rfl

theorem total_statsOf (rs : List QueryRow) (h : Histogram) :
    ((statsOf num rs).hist h).total = rs.countP fun r => (h.label num r).isSome := by
  rw [statsOf, hist_finalizeTiming, total_foldl]
  cases h <;> exact Nat.zero_add _

theorem label_isSome {h : Histogram} (hh : h ≠ .hour) (r : QueryRow) :
    (h.label num r).isSome = true := by
  cases h with
  | hour => exact absurd rfl hh
  | _ => rfl

theorem totalRecords_statsOf (rs : List QueryRow) : (statsOf num rs).totalRecords = rs.length := by
  have hrec : (statsOf num rs).measure .records = (rs.map (Measure.records.share num)).sum :=
    measure_statsOf rs .records
  have hones : rs.map (Measure.records.share num) = List.replicate rs.length 1 :=
    List.eq_replicate_iff.2 ⟨List.length_map _, fun x hx => by
      obtain ⟨r, -, rfl⟩ := List.mem_map.1 hx
      rfl⟩
  rw [hones, List.sum_replicate, nsmul_eq_mul, mul_one] at hrec
  exact Nat.cast_injective hrec

/-! ## What determines stats -/

/-- **Settled stats with equal measures are equal dictionaries.** -/
theorem Settled.same {s t : Stats} (hs : Settled num s) (ht : Settled num t)
    (h : ∀ m, s.measure m = t.measure m) : s.Same t where
  measures := h
  hists := fun hist => (hs.valid hist).same (ht.valid hist) fun k =>
    Nat.cast_injective (R := Rat) (h (.label hist k))
  averages := fun k => by
    have hcount : (s.timing k).count = (t.timing k).count :=
      Nat.cast_injective (R := Rat) (h (.timeCount k))
    have hsum : (s.timing k).sum = (t.timing k).sum := h (.timeSum k)
    rw [hs.averaged k, ht.averaged k, hcount, hsum]

theorem same_of_perm {rs rs' : List QueryRow} (h : rs.Perm rs') :
    (statsOf num rs).Same (statsOf num rs') := by
  refine (settled_statsOf rs).same (settled_statsOf rs') fun m => ?_
  rw [measure_statsOf, measure_statsOf]
  exact (h.map _).sum_eq

/-! ## Several days -/

theorem hist_merge (s t : Stats) (h : Histogram) : (s.merge t).hist h = (s.hist h).merge (t.hist h) := by
  cases h <;> rfl

theorem timing_merge (s t : Stats) (k : TimeKind) :
    (s.merge t).timing k = (s.timing k).merge (t.timing k) := by
  cases k <;> rfl

theorem measure_merge (s : Stats) {t : Stats} (ht : ∀ h, (t.hist h).Valid) (m : Measure) :
    (s.merge t).measure m = s.measure m + t.measure m := by
  cases m with
  | timeSum k =>
    rw [Stats.measure, timing_merge]
    rfl
  | timeCount k =>
    rw [Stats.measure, timing_merge]
    exact Nat.cast_add ..
  | label h k =>
    rw [Stats.measure, hist_merge, Counter.get_merge (ht h).nodup, Nat.cast_add]
    rfl
  | records => exact Nat.cast_add ..
  | bdaInvocations => exact Nat.cast_add ..
  | textractExtractions => exact Nat.cast_add ..
  | extractionInvocations => exact Nat.cast_add ..
  | documentsRecognized => exact Nat.cast_add ..
  | fileSizeBytes => exact Int.cast_add ..
  | pages => exact Int.cast_add ..
  | bdaPages => exact Int.cast_add ..
  | bedrockInputTokens => exact Int.cast_add ..
  | bedrockOutputTokens => exact Int.cast_add ..

/-- The loop of `build_summary`, by induction on the days. -/
theorem foldl_merge {days : List Stats} (hd : ∀ t ∈ days, ∀ h, (t.hist h).Valid) {s : Stats}
    (hs : ∀ h, (s.hist h).Valid) :
    (∀ m, (days.foldl Stats.merge s).measure m = s.measure m + (days.map (·.measure m)).sum) ∧
      (∀ h, ((days.foldl Stats.merge s).hist h).Valid) ∧
      ∀ k, ((days.foldl Stats.merge s).timing k).avg = (s.timing k).avg := by
  induction days generalizing s with
  | nil => exact ⟨fun m => (add_zero _).symm, hs, fun _ => rfl⟩
  | cons t days ih =>
    obtain ⟨ht, hdays⟩ := List.forall_mem_cons.1 hd
    have hvalid : ∀ h, ((s.merge t).hist h).Valid := fun h => by
      rw [hist_merge]
      exact (hs h).merge (ht h).pos
    obtain ⟨hm, hv, ha⟩ := ih hdays hvalid
    refine ⟨fun m => ?_, hv, fun k => ?_⟩
    · rw [List.foldl_cons, hm, measure_merge s ht, List.map_cons, List.sum_cons, add_assoc]
    · rw [List.foldl_cons, ha, timing_merge]
      rfl

theorem measure_buildSummary {days : List Stats} (hd : ∀ t ∈ days, ∀ h, (t.hist h).Valid) (m : Measure) :
    (buildSummary num days).measure m = (days.map (·.measure m)).sum := by
  rw [buildSummary, measure_finalizeTiming, (foldl_merge hd valid_init).1, measure_init, zero_add]

theorem settled_buildSummary {days : List Stats} (hd : ∀ t ∈ days, ∀ h, (t.hist h).Valid) :
    Settled num (buildSummary num days) := by
  obtain ⟨-, hv, ha⟩ := foldl_merge hd valid_init
  refine settled_finalizeTiming hv fun k => ?_
  rw [ha]
  cases k <;> rfl

/-! ## By tenant -/

/-- The dictionary that the loop of `_aggregate_records` fills. -/
abbrev byTenant (num : Numbers) (rs : List QueryRow) : List (String × Stats) :=
  Dict.groupFold tenantKey Stats.init (processRecord num) rs

/-- No admitted tenant id is the key of the global stats. -/
theorem tenantKey_ne_global {r : QueryRow} (h : AdmittedTenant r) : tenantKey r ≠ "__global__" := by
  unfold tenantKey
  cases ht : truthy (r.lookup "tenant_id") with
  | none => decide
  | some t =>
    rw [Option.getD_some]
    rintro rfl
    exact absurd (h _ ht) (by decide)

/-- The entry of a tenant, or the global one: the stats of its records, when there are any. -/
theorem lookup_aggregateRecords (rs : List QueryRow) (date t : String) :
    (aggregateRecords num rs date).lookup t =
      if t ≠ "__global__" ∧ recordsOf t rs = [] then none
      else some ⟨statsOf num (recordsOf t rs), date⟩ := by
  have hagg : (aggregateRecords num rs date).lookup t =
      if t = "__global__" then some ⟨statsOf num rs, date⟩
      else ((byTenant num rs).lookup t).map fun s => ⟨finalizeTiming num s, date⟩ := by
    rw [aggregateRecords, Dict.assign, Dict.lookup_update]
    split
    · rfl
    · exact Dict.lookup_map (fun s => (⟨finalizeTiming num s, date⟩ : DailyStats)) _ t
  rw [hagg]
  by_cases ht : t = "__global__"
  · rw [if_pos ht, if_neg (fun h => h.1 ht), recordsOf, if_pos ht]
  · rw [if_neg ht, Dict.lookup_groupFold, recordsOf, if_neg ht]
    by_cases hnil : (rs.filter fun r => tenantKey r = t) = []
    · rw [if_pos hnil, if_pos ⟨ht, hnil⟩]
      rfl
    · rw [if_neg hnil, if_neg (fun h => hnil h.2)]
      rfl

theorem tenants_aggregateRecords {rs : List QueryRow} (h : ∀ r ∈ rs, AdmittedTenant r) (date : String) :
    (aggregateRecords num rs date).filter (fun e => e.1 ≠ "__global__") =
      (byTenant num rs).map fun e => (e.1, ⟨finalizeTiming num e.2, date⟩) := by
  have hkey : ∀ t ∈ (byTenant num rs).map Prod.fst, t ≠ "__global__" := by
    intro t ht
    obtain ⟨r, hr, rfl⟩ := Dict.mem_keys_groupFold.1 ht
    exact tenantKey_ne_global (h r hr)
  have hnew : "__global__" ∉ ((byTenant num rs).map fun e =>
      (e.1, (⟨finalizeTiming num e.2, date⟩ : DailyStats))).map Prod.fst := by
    intro hmem
    rw [List.map_map] at hmem
    exact hkey _ hmem rfl
  have hagg : aggregateRecords num rs date = Dict.assign "__global__" ⟨statsOf num rs, date⟩
      ((byTenant num rs).map fun e => (e.1, ⟨finalizeTiming num e.2, date⟩)) := rfl
  rw [hagg, Dict.assign, Dict.update_of_not_mem hnew, List.filter_append, List.filter_eq_self.2,
    List.filter_eq_nil_iff.2, List.append_nil]
  · intro e he
    rw [List.mem_singleton.1 he]
    simp
  · intro e he
    obtain ⟨e', he', rfl⟩ := List.mem_map.1 he
    exact decide_eq_true (hkey _ (List.mem_map_of_mem he'))

/-! ## Split by day -/

theorem recordsOf_append (t : String) (rs rs' : List QueryRow) :
    recordsOf t (rs ++ rs') = recordsOf t rs ++ recordsOf t rs' := by
  unfold recordsOf
  split
  · rfl
  · exact List.filter_append ..

theorem recordsOf_perm {rs rs' : List QueryRow} (h : rs.Perm rs') (t : String) :
    (recordsOf t rs).Perm (recordsOf t rs') := by
  unfold recordsOf
  split
  · exact h
  · exact h.filter _

/-- The stats of the days on which the entry exists. -/
def dailyStats (num : Numbers) (t : String) (days : List (String × List QueryRow)) : List Stats :=
  days.filterMap fun d => ((aggregateRecords num d.2 d.1).lookup t).map (·.toStats)

theorem valid_dailyStats (t : String) (days : List (String × List QueryRow)) :
    ∀ s ∈ dailyStats num t days, ∀ h, (s.hist h).Valid := by
  intro s hs
  obtain ⟨d, -, hd⟩ := List.mem_filterMap.1 hs
  rw [lookup_aggregateRecords] at hd
  split at hd
  · cases hd
  · cases hd
    exact (settled_statsOf _).valid

theorem measure_dailyStats (t : String) (days : List (String × List QueryRow)) (m : Measure) :
    ((dailyStats num t days).map (·.measure m)).sum =
      ((recordsOf t (days.flatMap Prod.snd)).map (m.share num)).sum := by
  induction days with
  | nil =>
    have hnil : recordsOf t [] = [] := by
      unfold recordsOf
      split <;> rfl
    rw [List.flatMap_nil, hnil]
    rfl
  | cons d days ih =>
    rw [List.flatMap_cons, recordsOf_append, List.map_append, List.sum_append, ← ih, dailyStats,
      List.filterMap_cons, lookup_aggregateRecords]
    by_cases hnone : t ≠ "__global__" ∧ recordsOf t d.2 = []
    · rw [if_pos hnone, hnone.2, List.map_nil, List.sum_nil, zero_add]
      rfl
    · rw [if_neg hnone]
      simp only [Option.map_some, List.map_cons, List.sum_cons, measure_statsOf]
      rfl

end

/-! ## Two tenants and a record without one -/

def sampleNumbers : Numbers where
  int           := fun s => if s = "3" then some 3 else none
  float         := fun s => if s = "1.5" then some (3 / 2) else none
  round         := id
  fromisoformat := fun s => if s = "2026-01-31T09:00:00" then some ⟨2026, 1, 31, 9⟩ else none

def sampleRows : List QueryRow :=
  [[("tenant_id", "acme"), ("process_status", "success"), ("pages_detected", "3"),
      ("created_at", "2026-01-31T09:00:00")],
    [("tenant_id", "globex"), ("total_processing_time_seconds", "1.5")], [("tenant_id", "")]]

theorem sampleRows_admitted : ∀ r ∈ sampleRows, AdmittedTenant r := by
  intro r hr t ht
  simp only [sampleRows, List.mem_cons, List.not_mem_nil, or_false] at hr
  rcases hr with rfl | rfl | rfl
  · obtain rfl : "acme" = t := Option.some.inj ht
    decide
  · obtain rfl : "globex" = t := Option.some.inj ht
    decide
  · cases ht

end DocumentAi.Metrics
