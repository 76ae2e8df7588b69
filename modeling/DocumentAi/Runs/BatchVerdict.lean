import DocumentAi.Footprint.StaleReads
import DocumentAi.Lib.Protocol
import DocumentAi.Runs.CodeSurvives

/-!
# The verdict on a batch

A document of a batch is closed by a classification or by the reaper: a status write that applies
to a record that is not terminal yet, and after it an increment of the batch's counter. The call
whose increment brings the counter to the total queries the jobs of the batch and writes the verdict.

| here | meaning |
| --- | --- |
| `closingSystem`     | the `classify_*` functions, reaper runs and calls that leave statuses and batches alone |
| `AnsweredAs P`      | the move is answered as `P` says |
| `ShowsBatches`      | the status index shows records with the batches they have |
| `ShowsJobs`         | the batch index shows the jobs as they stand |
| `CloseStage`        | what a call owes: nothing, an increment, a query of the jobs, a verdict |
| `jobKeys w b`       | the records of the batch `b` |
| `closed w b`        | how many of them are terminal |
| `counted_once`      | each record that becomes terminal is counted at most once |
| `verdict_exact`     | the batch has a verdict only when all its records are terminal, and it is the right one |
| `batch_finalized`   | when no request on the batch fails, the batch has a verdict once all records are terminal |

`upsert_initial_ddb_record` is not among these calls. It counts a password-protected or excluded
document before it writes its status, without a condition (`document_lifecycle.py:413-437`), and
makes a blurry document terminal without counting it.
-/

namespace DocumentAi

open Effect (Event Protocol)
open Effect.Prog (All Spec spec_bind spec_tryCatch all_bind)
open Effect.Protocol (Obeys obeys_bind obeys_tryCatch obeys_perform obeys_ret obeys_raise
  obeys_of_stuck)

/-- A call that leaves the status and the batch of every record, and every batch, alone. -/
def Harmless : Op → Prop
  | .updateItem _ u =>
    Dynamo.Targets (T := DocumentMetadata.schema) (· ∉ [DocumentMetadata.processStatus, .batchId])
      u.actions
  | op => ¬ IsBatchWrite op

def Classification.batchId : Classification → Option String
  | success _ _ _ b _ | extractionResult _ _ _ b _ _ | failed _ _ b _ | notImplemented _ b
  | noDocumentDetected _ b _ _ | aiConsentDeclined b | conversionFailed _ b
  | noCustomBlueprintMatched _ b _ _ | extractionNotConfigured _ b | multipleDocumentsOnPage _ b
  | multipleDocumentsInMultipage _ b => b

/-- `batchOf k` is the batch on the record `k`; a classification is passed it by its caller. -/
inductive CloseEntry (batchOf : String → Option String) where
  | classify (env : EnvConfig) (key : String) (c : Classification) (h : truthy c.batchId = batchOf key)
  | reaper
  | other (op : Op) (h : Harmless op)

/-- Queries of the status index and of the batch index, which may lag behind the table. -/
def Op.isIndexQuery : Op → Bool
  | .queryByStatusCreatedAt .. | .queryByBatchId _ => true
  | _ => false

abbrev closingSystem (batchOf : String → Option String) : Effect.Sys sig where
  World  := World
  Choice := StaleChoice
  exec   := World.execStale Op.isIndexQuery
  Entry  := CloseEntry batchOf
  body
    | .classify env key c _ => c.body env key
    | .reaper               => reaperMain
    | .other op _           => do let _ ← call op

/-! ## What a call owes -/

/-- The request of `update_batch_status` with the condition of `increment_resolved_count`. -/
def verdictRequest (now : Timestamp) (v : BatchStatus) : Dynamo.Update DocumentBatches.schema :=
  { actions := [.set .batchStatus v, .set .updatedAt now]
    cond := some (batchStatusIs .processing) }

inductive CloseStage where
  | idle
  | marked (b : String)
  | counted (b : String) (total : Nat)
  | decided (b : String) (v : BatchStatus)

/-- A terminal status write on the record `k`. -/
def Marks (k : String) (op : Op) : Prop :=
  ∃ u s, op = .updateItem k u ∧ u.cond = some nonTerminalCondition ∧ s.isClassified = true ∧
    Writes u (some s) none none

namespace CloseStage

/-- After the record `k` has become terminal. -/
def owed (batchOf : String → Option String) (k : String) : CloseStage :=
  match batchOf k with
  | some b => marked b
  | none   => idle

def allow : CloseStage → Op → Prop
  | idle, op        => Harmless op ∨ ∃ k, Marks k op
  | marked b, op    => Harmless op ∨ ∃ now, op = .updateBatch b (incrementRequest now)
  | counted b _, op => op = .queryByBatchId b
  | decided b v, op => op = .now ∨ ∃ now, op = .updateBatch b (verdictRequest now v)

def afterIncrement (b : String) : Except Exc BatchRecord → CloseStage
  | .ok r    =>
    if BatchRecord.resolved r < BatchRecord.total r then idle else counted b (BatchRecord.total r)
  | .error _ => idle

def afterQuery (b : String) (total : Nat) : Except Exc (List (String × Record)) → CloseStage
  | .ok jobs => decided b (batchVerdict total jobs)
  | .error _ => idle

def afterUpdate (batchOf : String → Option String) (k : String) (u : DocUpdate) :
    Except Exc Unit → CloseStage
  | .ok _    => if (statusWrite u).isSome then owed batchOf k else idle
  | .error _ => idle

def next (batchOf : String → Option String) : CloseStage → (op : Op) → sig.Ans op → CloseStage
  | idle, .updateItem k u, ans               => afterUpdate batchOf k u ans
  | marked b, .updateBatch .., ans           => afterIncrement b ans
  | counted b total, .queryByBatchId _, ans  => afterQuery b total ans
  | decided .., .updateBatch .., _           => idle
  | s, _, _                                  => s

end CloseStage

/-- Records that the reaper reads come with their batches. -/
def WithBatches (batchOf : String → Option String) : Except Exc (List (String × Record)) → Prop
  | .ok items => ∀ it ∈ items, truthy it.2.batchId = batchOf it.1
  | .error _  => True

/-- And the clock answers. -/
def possibleClose (batchOf : String → Option String) : (op : Op) → sig.Ans op → Prop
  | .now, .error _                   => False
  | .queryByStatusCreatedAt .., ans  => WithBatches batchOf ans
  | _, _ => True

abbrev closeProtocol (batchOf : String → Option String) : Protocol sig where
  State      := CloseStage
  allow      := CloseStage.allow
  possible _ := possibleClose batchOf
  next       := CloseStage.next batchOf

section
open CloseStage

variable {batchOf : String → Option String} {α : Type} {E : CloseStage → Exc → Prop}

theorem harmless_of_isRead {op : Op} (h : op.isRead = true) : Harmless op := by
  cases op <;> first | exact fun h => h.elim | cases h

theorem harmless_of_isQuiet {op : Op} (h : op.isQuiet = true) : Harmless op := by
  cases op <;> first | exact fun h => h.elim | cases h

theorem harmless_call {op : Op} (h : op.isQuiet = true) : All Harmless (call op) :=
  Effect.Prog.all_perform (harmless_of_isQuiet h)

theorem harmless_update {k : String} {u : DocUpdate} (h : Dynamo.Targets (T := DocumentMetadata.schema)
    (· ∉ [DocumentMetadata.processStatus, .batchId]) u.actions) : Harmless (.updateItem k u) := h

theorem harmless_targets {k : String} {u : DocUpdate} {a : DocumentMetadata}
    (h : Harmless (.updateItem k u)) (ha : a ∈ [DocumentMetadata.processStatus, .batchId]) :
    Dynamo.Targets (T := DocumentMetadata.schema) (· ≠ a) u.actions := by
  intro x hx he
  exact h x hx (he ▸ ha)

theorem statusWrite_of_harmless {k : String} {u : DocUpdate} (h : Harmless (.updateItem k u)) :
    statusWrite u = none :=
  Dynamo.lastSet_eq_none (harmless_targets h (by decide))

/-- A harmless call does not change what is owed, as long as the batch is not being counted. -/
theorem stuck_harmless (batchOf : String → Option String) {s : CloseStage}
    (hs : s = idle ∨ ∃ b, s = marked b) (op : Op) (h : Harmless op) :
    (closeProtocol batchOf).allow s op ∧ ∀ r, (closeProtocol batchOf).next s op r = s := by
  rcases hs with rfl | ⟨b, rfl⟩
  · refine ⟨.inl h, fun r => ?_⟩
    cases op with
    | updateItem k u =>
      change afterUpdate batchOf k u r = idle
      cases r with
      | error e => rfl
      | ok x =>
        change (if (statusWrite u).isSome then owed batchOf k else idle) = idle
        rw [statusWrite_of_harmless h]
        rfl
    | _ => rfl
  · refine ⟨.inl h, fun r => ?_⟩
    cases op with
    | updateBatch => exact absurd trivial h
    | _ => rfl

theorem obeys_harmless {s : CloseStage} (hs : s = idle ∨ ∃ b, s = marked b) {p : Prog α}
    (h : All Harmless p) :
    (closeProtocol batchOf).Obeys (fun s' _ => s' = s) (fun s' _ => s' = s) s p :=
  obeys_of_stuck (stuck_harmless batchOf hs) h

theorem obeys_harmless_spec {s : CloseStage} (hs : s = idle ∨ ∃ b, s = marked b) {Q : α → Prop}
    {p : Prog α} (h : Spec Harmless Q p) :
    (closeProtocol batchOf).Obeys (fun s' a => s' = s ∧ Q a) (fun s' _ => s' = s) s p := by
  induction p with
  | ret a => exact ⟨rfl, h⟩
  | raise e => exact rfl
  | call op k ih =>
    obtain ⟨ha, hn⟩ := stuck_harmless batchOf hs op h.1
    exact ⟨ha, fun r _ => by rw [hn r]; exact ih r (h.2 r)⟩

/-- A program of harmless calls whose errors are swallowed. -/
theorem obeys_swallow {s : CloseStage} (hs : s = idle ∨ ∃ b, s = marked b) {p : Prog α}
    (h : All Harmless p) (a : α) :
    (closeProtocol batchOf).Obeys (fun s' _ => s' = s) (fun _ _ => False) s
      (p.tryCatch fun _ => .ret a) :=
  obeys_tryCatch (obeys_harmless hs h) fun _ _ hs' => obeys_ret hs'

theorem owed_stuck (batchOf : String → Option String) (k : String) :
    owed batchOf k = idle ∨ ∃ b, owed batchOf k = marked b := by
  unfold owed
  cases batchOf k with
  | none => exact .inl rfl
  | some b => exact .inr ⟨b, rfl⟩

/-- The counter's errors are swallowed. -/
theorem obeys_incrementResolvedCount (b : String) :
    (closeProtocol batchOf).Obeys (fun s _ => s = idle) (fun _ _ => False) (marked b)
      (incrementResolvedCount b) := by
  unfold incrementResolvedCount
  refine obeys_tryCatch (F := fun s _ => s = idle) ?_ fun s e hs => obeys_ret hs
  refine obeys_bind (Q := fun s _ => s = marked b) (obeys_perform (.inl fun h => h.elim) (fun _ _ => rfl)
    fun e h => h.elim) ?_
  rintro _ now rfl
  refine obeys_bind (Q := fun s (r : BatchRecord) => s = afterIncrement b (.ok r))
    (obeys_perform (.inr ⟨now, rfl⟩) (fun _ _ => rfl) fun _ _ => rfl) ?_
  rintro _ updated rfl
  rw [afterIncrement]
  split
  · exact obeys_ret rfl
  · refine obeys_bind (Q := fun s (jobs : List (String × Record)) =>
      s = decided b (batchVerdict (BatchRecord.total updated) jobs))
      (obeys_perform rfl (fun _ _ => rfl) fun _ _ => rfl) ?_
    rintro _ jobs rfl
    unfold updateBatchStatus
    refine obeys_bind (Q := fun s _ => s = decided b (batchVerdict (BatchRecord.total updated) jobs))
      (obeys_perform (.inl rfl) (fun _ _ => rfl) fun e h => h.elim) ?_
    rintro _ now' rfl
    exact obeys_bind (Q := fun s _ => s = idle) (obeys_perform (.inr ⟨now', rfl⟩) (fun _ _ => rfl)
      fun _ _ => rfl) fun _ _ hs => obeys_ret hs

theorem obeys_incrementIfBatch {k : String} {batchId : Option String} (h : truthy batchId = batchOf k) :
    (closeProtocol batchOf).Obeys (fun s _ => s = idle) (fun _ _ => False) (owed batchOf k)
      (incrementIfBatch batchId) := by
  unfold incrementIfBatch owed
  rw [h]
  cases batchOf k with
  | none => exact obeys_ret rfl
  | some b => exact obeys_incrementResolvedCount b

/-- A terminal status write, or none when it fails. -/
theorem obeys_mark {k : String} {u : DocUpdate} {s : ProcessStatus} (hc : u.cond = some nonTerminalCondition)
    (hs : s.isClassified = true) (hw : Writes u (some s) none none) :
    (closeProtocol batchOf).Obeys (fun s _ => s = owed batchOf k) (fun s _ => s = idle) idle
      (call (.updateItem k u)) := by
  refine obeys_perform (.inr ⟨k, u, s, rfl, hc, hs, hw⟩) (fun r _ => ?_) fun _ _ => rfl
  change (if (statusWrite u).isSome then owed batchOf k else idle) = _
  rw [hw.status]
  rfl

theorem harmless_of_does {k : String} {st : ProcessStatus} {p : Prog α} (h : Does (IsResponse k st) p) :
    All Harmless p := by
  refine Effect.Prog.All.mono (fun op hop => ?_) h
  rcases hop with hq | ⟨r, _, rfl⟩
  · exact harmless_of_isQuiet hq
  · exact harmless_update (targets_set (by decide) (targets_setOpt (by decide) _))

theorem harmless_writeMethodResponse (env : EnvConfig) (record : UpdateDdbRecord)
    (r : Option ExtractionResult) (m : Option ExtractMethod) :
    All Harmless (writeMethodResponse env record r m) := by
  unfold writeMethodResponse
  cases m with
  | none => trivial
  | some m =>
    refine Effect.Prog.All.mono (fun op hop => ?_) (makes_writeExtractMethodResponse env record.objectKey
      record.status m r record.data record.errorMessage)
    rcases hop with hq | ⟨u, hu, rfl⟩
    · exact harmless_of_isRead hq
    · refine harmless_update (Dynamo.Targets.mono (fun a ha => ?_) hu)
      simp only [methodAttrs, List.mem_cons, List.not_mem_nil, or_false] at ha
      rcases ha with rfl | rfl <;> decide

theorem obeys_updateDdb {env : EnvConfig} {data : UpdateDdbRecord} (hs : data.status.isClassified = true) :
    (closeProtocol batchOf).Obeys (fun s _ => s = owed batchOf data.objectKey) (fun s _ => s = idle) idle
      (updateDdb env data (some nonTerminalCondition)) := by
  unfold updateDdb
  refine obeys_bind (Q := fun s _ => s = idle) (obeys_harmless (.inl rfl)
    (harmless_call rfl)) ?_
  rintro _ now rfl
  have htiming := spec_buildTimingUpdates data.objectKey data.status (data.data.bind (·.bdaOutputS3Uri))
  refine obeys_bind (obeys_harmless_spec (.inl rfl)
    (htiming.mono (fun _ => harmless_of_isRead) fun _ h => h)) ?_
  rintro _ timing ⟨rfl, ht⟩
  refine obeys_bind (obeys_mark (k := data.objectKey) (s := data.status) rfl hs
    (show Writes (updateRequest env now data timing (some nonTerminalCondition)) _ _ _ from
      writes_updateRequest ht)) ?_
  rintro _ _ rfl
  dsimp only
  rw [if_pos hs]
  unfold sendRecordToMetricsQueue
  refine (obeys_swallow (owed_stuck batchOf data.objectKey) ?_ ()).mono (fun _ _ h => h)
    fun _ _ h => h.elim
  split
  · refine all_bind (harmless_call rfl) fun r => ?_
    cases r with
    | none => trivial
    | some r => exact Effect.Prog.spec_ite trivial (harmless_call rfl)
  · trivial

theorem obeys_writeStatusUnlessTerminal {env : EnvConfig} {record : UpdateDdbRecord}
    (hs : record.status.isClassified = true) :
    (closeProtocol batchOf).Obeys
      (fun s (applied : Bool) => s = if applied then owed batchOf record.objectKey else idle)
      (fun s _ => s = idle) idle (writeStatusUnlessTerminal env record) := by
  unfold writeStatusUnlessTerminal
  refine obeys_tryCatch (F := fun s _ => s = idle) ?_ ?_
  · refine obeys_bind (obeys_updateDdb hs) ?_
    rintro _ _ rfl
    exact obeys_ret rfl
  · rintro _ e rfl
    dsimp only
    split
    · exact obeys_ret rfl
    · exact obeys_raise rfl

theorem obeys_writeTerminalStatus {env : EnvConfig} {record : UpdateDdbRecord} {batchId : Option String}
    (hs : record.status.isClassified = true) (hb : truthy batchId = batchOf record.objectKey)
    (result : Option ExtractionResult) (method : Option ExtractMethod) :
    (closeProtocol batchOf).Obeys (fun s _ => s = idle) (fun _ _ => True) idle
      (writeTerminalStatus env record batchId result method) := by
  have hmethod : (closeProtocol batchOf).Obeys (fun s _ => s = idle) (fun _ _ => True) idle
      (writeMethodResponse env record result method) :=
    (obeys_harmless (.inl rfl) (harmless_writeMethodResponse ..)).mono (fun _ _ h => h) fun _ _ _ => trivial
  unfold writeTerminalStatus
  split
  · exact hmethod
  · refine obeys_bind ((obeys_writeStatusUnlessTerminal hs).mono (fun _ _ h => h)
      fun _ _ _ => trivial) ?_
    rintro _ applied rfl
    cases applied with
    | false => exact obeys_ret rfl
    | true =>
      refine obeys_bind ((obeys_harmless (owed_stuck batchOf record.objectKey)
        (harmless_of_does (does_finalizeV1Response ..))).mono (fun _ _ h => h) fun _ _ _ => trivial) ?_
      rintro _ _ rfl
      refine obeys_bind ((obeys_incrementIfBatch hb).mono (fun _ _ h => h) fun _ _ h => h.elim) ?_
      rintro _ _ rfl
      exact hmethod

/-! ## The classifications -/

/-- Reads come before the terminal write. -/
theorem obeys_quiet {p : Prog α} {f : α → Prog Unit} (hp : Quiet p)
    (hf : ∀ a, (closeProtocol batchOf).Obeys (fun s _ => s = idle) (fun _ _ => True) idle (f a)) :
    (closeProtocol batchOf).Obeys (fun s _ => s = idle) (fun _ _ => True) idle (p.bind f) := by
  refine obeys_bind ((obeys_harmless (.inl rfl) (hp.mono fun _ => harmless_of_isQuiet)).mono
    (fun _ _ h => h) fun _ _ _ => trivial) ?_
  rintro _ a rfl
  exact hf a

theorem obeys_classifyWith {env : EnvConfig} {v : Verdict} {key : String} {batchId : Option String}
    (hs : v.status.isClassified = true) (hb : truthy batchId = batchOf key)
    (data : Option ClassificationData) (message : Option String) (started : Option Timestamp) :
    (closeProtocol batchOf).Obeys (fun s _ => s = idle) (fun _ _ => True) idle
      (classifyWith env v key data batchId message started) :=
  obeys_quiet (reads_getInternalApiResponse ..).quiet fun _ => obeys_writeTerminalStatus hs hb none v.method

theorem obeys_classifyAsSuccess {env : EnvConfig} {key : String} {batchId : Option String}
    (hb : truthy batchId = batchOf key) (code : ResponseCode) (data : ClassificationData)
    (method : ExtractMethod) (d : SuccessDetails) (result : ExtractionResult) :
    (closeProtocol batchOf).Obeys (fun s _ => s = idle) (fun _ _ => True) idle
      (classifyAsSuccess env key code data method d batchId result) :=
  obeys_quiet (reads_getInternalApiResponse ..).quiet fun _ =>
    obeys_writeTerminalStatus rfl hb (some result) (some method)

theorem obeys_classifyExtractionResult {env : EnvConfig} {key : String} {batchId : Option String}
    (hb : truthy batchId = batchOf key) (result : ExtractionResult) (uri t : Option String)
    (started : Option Timestamp) (method : ExtractMethod) :
    (closeProtocol batchOf).Obeys (fun s _ => s = idle) (fun _ _ => True) idle
      (classifyExtractionResult env key result uri t batchId started method) := by
  unfold classifyExtractionResult
  cases uri with
  | none => exact obeys_raise trivial
  | some uri =>
    refine obeys_quiet (reads_getExtractionConfidenceFloor t).quiet fun floor => ?_
    refine obeys_quiet (reads_tenantHasConfidenceFloor t).quiet fun hasFloor => ?_
    refine obeys_quiet (reads_getMissingRequiredFields ..).quiet fun rules => ?_
    exact obeys_classifyAsSuccess hb ..

/-- Every classification writes a terminal status and counts it for the batch it was passed. -/
theorem obeys_classification (env : EnvConfig) {key : String} {c : Classification}
    (hb : truthy c.batchId = batchOf key) :
    (closeProtocol batchOf).Obeys (fun s _ => s = idle) (fun _ _ => True) idle (c.body env key) := by
  cases c with
  | success => exact obeys_classifyAsSuccess hb ..
  | extractionResult => exact obeys_classifyExtractionResult hb ..
  | _ => exact obeys_classifyWith rfl hb ..

/-! ## The reaper -/

theorem obeys_markTerminal {k : String} {st : ProcessStatus} {reason : Option String}
    (hs : st.isClassified = true) :
    (closeProtocol batchOf).Obeys (fun s (applied : Bool) => s = if applied then owed batchOf k else idle)
      (fun s _ => s = idle) idle (markTerminal k st reason) := by
  unfold markTerminal
  refine obeys_bind (Q := fun s _ => s = idle) (obeys_harmless (.inl rfl) (harmless_call rfl)) ?_
  rintro _ now rfl
  refine obeys_tryCatch (F := fun s _ => s = idle) ?_ ?_
  · refine obeys_bind (obeys_mark (u := markTerminalRequest now st reason) rfl hs
      (writes_markTerminalRequest now st reason)) ?_
    rintro _ _ rfl
    exact obeys_ret rfl
  · rintro _ e rfl
    dsimp only
    split
    · exact obeys_ret rfl
    · exact obeys_raise rfl

theorem obeys_markAndIncrement {k : String} {batchId : Option String} {st : ProcessStatus}
    {reason : Option String} (hs : st.isClassified = true) (hb : truthy batchId = batchOf k) :
    (closeProtocol batchOf).Obeys (fun s _ => s = idle) (fun s _ => s = idle) idle
      (markAndIncrement k batchId st reason) := by
  unfold markAndIncrement
  refine obeys_bind (obeys_markTerminal hs) ?_
  rintro _ applied rfl
  cases applied with
  | false => exact obeys_ret rfl
  | true => exact (obeys_incrementIfBatch hb).mono (fun _ _ h => h) fun _ _ h => h.elim

theorem obeys_processStaleRecord {k : String} {r : Record} (hb : truthy r.batchId = batchOf k) :
    (closeProtocol batchOf).Obeys (fun s _ => s = idle) (fun s _ => s = idle) idle
      (processStaleRecord k r) := by
  unfold processStaleRecord
  split
  · exact obeys_markAndIncrement rfl hb
  · refine obeys_bind (Q := fun s _ => s = idle) ?_ ?_
    · refine obeys_harmless (.inl rfl) (spec_tryCatch ?_ fun _ => trivial)
      exact all_bind (harmless_call rfl) fun _ => trivial
    · rintro _ response rfl
      split
      · exact obeys_markAndIncrement rfl hb
      · exact obeys_ret rfl
      · split
        · exact obeys_markAndIncrement rfl hb
        · split
          · exact obeys_markAndIncrement rfl hb
          · exact obeys_ret rfl

theorem obeys_queryStaleByStatus (cutoff : Timestamp) (st : ProcessStatus) :
    (closeProtocol batchOf).Obeys (fun s items => s = idle ∧ WithBatches batchOf (.ok items))
      (fun s _ => s = idle) idle (queryStaleByStatus cutoff st) := by
  unfold queryStaleByStatus
  refine obeys_tryCatch (F := fun s _ => s = idle)
    (obeys_perform (.inl fun h => h.elim) (fun items h => ⟨rfl, h⟩) fun _ _ => rfl) ?_
  rintro _ e rfl
  exact obeys_ret ⟨rfl, fun it hit => by cases hit⟩

theorem obeys_findStaleRecords :
    (closeProtocol batchOf).Obeys (fun s items => s = idle ∧ WithBatches batchOf (.ok items))
      (fun s _ => s = idle) idle findStaleRecords := by
  unfold findStaleRecords
  refine obeys_bind (Q := fun s _ => s = idle) (obeys_harmless (.inl rfl) (harmless_call rfl)) ?_
  rintro _ (now : Timestamp) rfl
  refine obeys_bind (obeys_queryStaleByStatus _ _) ?_
  rintro _ started ⟨rfl, h₁⟩
  refine obeys_bind (obeys_queryStaleByStatus _ _) ?_
  rintro _ notStarted ⟨rfl, h₂⟩
  refine obeys_bind (obeys_queryStaleByStatus _ _) ?_
  rintro _ pendingUpload ⟨rfl, h₃⟩
  refine obeys_bind (obeys_queryStaleByStatus _ _) ?_
  rintro _ pendingImage ⟨rfl, h₄⟩
  refine obeys_ret ⟨rfl, fun it hit => ?_⟩
  simp only [List.mem_append] at hit
  rcases hit with ((h | h) | h) | h
  · exact h₁ it h
  · exact h₂ it h
  · exact h₃ it h
  · exact h₄ it h

theorem obeys_reapRecords (items : List (String × Record)) (h : WithBatches batchOf (.ok items)) :
    (closeProtocol batchOf).Obeys (fun s _ => s = idle) (fun _ _ => True) idle
      (Effect.Prog.forEach reapRecord items) := by
  induction items with
  | nil => exact obeys_ret rfl
  | cons it items ih =>
    refine obeys_bind (Q := fun s _ => s = idle) ?_ ?_
    · exact obeys_tryCatch (obeys_processStaleRecord (h it List.mem_cons_self)) fun _ _ hs => obeys_ret hs
    · rintro _ _ rfl
      exact ih fun x hx => h x (List.mem_cons_of_mem _ hx)

theorem obeys_reaperMain :
    (closeProtocol batchOf).Obeys (fun s _ => s = idle) (fun _ _ => True) idle reaperMain := by
  unfold reaperMain
  refine obeys_bind (obeys_findStaleRecords.mono (fun _ _ h => h) fun _ _ _ => trivial) ?_
  rintro _ stale ⟨rfl, hstale⟩
  refine obeys_bind (Q := fun s _ => s = idle) ((obeys_harmless (.inl rfl) (harmless_call rfl)).mono
    (fun _ _ h => h) fun _ _ _ => trivial) ?_
  rintro _ _ rfl
  exact obeys_reapRecords stale hstale

theorem obeys_close (e : CloseEntry batchOf) :
    (closeProtocol batchOf).Obeys (fun s _ => s = idle) (fun _ _ => True) idle
      ((closingSystem batchOf).body e) := by
  cases e with
  | classify env key c h => exact obeys_classification env h
  | reaper => exact obeys_reaperMain
  | other op h =>
    refine obeys_bind (Q := fun s _ => s = idle) ((obeys_harmless (.inl rfl)
      (Effect.Prog.all_perform h)).mono (fun _ _ h => h) fun _ _ _ => trivial) ?_
    rintro _ _ rfl
    exact obeys_ret rfl

end

/-! ## The records of a batch -/

def World.jobKeys (w : World) (b : String) : List String :=
  w.docs.keys.filter fun k => (w.record k).batchId == some b

def Record.isClosed (r : Record) : Bool := (Record.status r).any ProcessStatus.isClassified

/-- How many records of the batch are terminal. -/
def World.closed (w : World) (b : String) : Nat := (w.jobKeys b).countP fun k => (w.record k).isClosed

def World.jobs (w : World) (b : String) : List (String × Record) :=
  (w.jobKeys b).map fun k => (k, w.record k)

theorem isClosed_iff (r : Record) : r.isClosed = true ↔ r.Classified := by
  unfold Record.isClosed Record.Classified
  cases Record.status r with
  | none => simp
  | some s => simp

theorem query_eq_jobs (w : World) (b : String) :
    (w.docs.query fun (it : Record) => it.batchId == some b) = w.jobs b := by
  unfold Dynamo.Table.query World.jobs World.jobKeys
  have hkeys : ∀ k ∈ w.docs.keys, w.docs.item k = some (w.record k) := by
    intro k hk
    obtain ⟨r, hr⟩ := Option.isSome_iff_exists.1 ((w.docs.mem k).1 hk)
    rw [World.record, hr, Option.getD_some]
  generalize w.docs.keys = ks at hkeys
  induction ks with
  | nil => rfl
  | cons k ks ih =>
    have hk := hkeys k List.mem_cons_self
    have ih := ih fun j hj => hkeys j (List.mem_cons_of_mem _ hj)
    by_cases hb : ((w.record k).batchId == some b) = true
    · rw [List.filter_cons_of_pos (p := fun k => (w.record k).batchId == some b) hb, List.map_cons, ← ih]
      refine List.filterMap_cons_some ?_
      rw [hk, Option.filter_some, if_pos hb]
      rfl
    · rw [List.filter_cons_of_neg (p := fun k => (w.record k).batchId == some b) hb, ← ih]
      refine List.filterMap_cons_none ?_
      rw [hk, Option.filter_some, if_neg hb]
      rfl

section
variable {w w' : World} {b k : String}

/-- The records of a batch stay the same when no record changes its batch. -/
theorem jobKeys_setRecord {r : Record} (h : r.batchId = (w.record k).batchId) :
    (w.setRecord k r).jobKeys b = w.jobKeys b := by
  have hrec : ∀ j, ((w.setRecord k r).record j).batchId = (w.record j).batchId := by
    intro j
    by_cases hj : j = k
    · subst hj
      rw [record_setRecord_self, h]
    · rw [record_setRecord_ne w r hj]
  unfold World.jobKeys
  simp only [hrec]
  change (if k ∈ w.docs.keys then w.docs.keys else w.docs.keys ++ [k]).filter _ = _
  by_cases hk : k ∈ w.docs.keys
  · rw [if_pos hk]
  · rw [if_neg hk, List.filter_append]
    have hnone : (w.record k).batchId = none := by
      have hitem : w.docs.item k = none := by
        rw [← Option.not_isSome_iff_eq_none, ← w.docs.mem k]
        exact hk
      rw [World.record, hitem]
      rfl
    rw [List.filter_cons_of_neg (by rw [hnone]; simp), List.filter_nil, List.append_nil]

theorem record_setRecord_eq (w : World) (k j : String) (r : Record) :
    (w.setRecord k r).record j = if j = k then r else w.record j := by
  by_cases hj : j = k
  · subst hj
    rw [record_setRecord_self, if_pos rfl]
  · rw [record_setRecord_ne w r hj, if_neg hj]

/-! ## One call -/

/-- The requests of `increment_resolved_count`. -/
def Op.isBatchCall : Op → Bool
  | .updateBatch .. | .queryByBatchId _ => true
  | _ => false

/-- The status index shows records with the batches they have. -/
def ShowsBatches (w : World) : (op : Op) → sig.Ans op → Prop
  | .queryByStatusCreatedAt .., ans => WithBatches (fun k => truthy (w.record k).batchId) ans
  | _, _ => True

/-- The batch index shows the jobs as they stand. -/
def ShowsJobs (w : World) : (op : Op) → sig.Ans op → Prop
  | .queryByBatchId b, .ok jobs => jobs = w.jobs b
  | _, _ => True

theorem shown_jobs {ch : Choice} {jobs : List (String × Record)}
    (h : w.exec (.queryByBatchId b) ch = some (.ok jobs, w')) : jobs = w.jobs b := by
  rcases exec_cases h with hrun | ⟨_, _, _, hans, _⟩
  · cases hrun
    exact query_eq_jobs w b
  · cases hans

theorem shown_batches {ch : Choice} {st : ProcessStatus} {cutoff : Timestamp}
    {ans : sig.Ans (.queryByStatusCreatedAt st cutoff)}
    (h : w.exec (.queryByStatusCreatedAt st cutoff) ch = some (ans, w')) :
    ShowsBatches w (.queryByStatusCreatedAt st cutoff) ans := by
  rcases exec_cases h with hrun | ⟨e, _, _, rfl, _⟩
  · cases hrun
    intro it hit
    change truthy it.2.batchId = truthy (w.record it.1).batchId
    rw [World.record, (Dynamo.Table.mem_query.1 hit).1]
    rfl
  · trivial

/-- The move is answered as `P` says. -/
def AnsweredAs {batchOf : String → Option String} (P : World → (op : Op) → sig.Ans op → Prop)
    (c : Effect.Config (closingSystem batchOf)) : Effect.Move (closingSystem batchOf) → Prop
  | .act i ch => ∀ op ans w', c.nextOp i = some op →
      c.world.execStale Op.isIndexQuery op ch = some (ans, w') → P c.world op ans
  | _ => True

/-- What the calls of this pool leave alone. -/
structure SameRecords (w w' : World) : Prop where
  status : ∀ k, (w'.record k).status = (w.record k).status
  batch  : ∀ k, (w'.record k).batchId = (w.record k).batchId
  keys   : ∀ b, w'.jobKeys b = w.jobKeys b

theorem SameRecords.of_docs (h : w'.docs = w.docs) : SameRecords w w' := by
  have hrec : ∀ k, w'.record k = w.record k := record_congr h
  refine ⟨fun k => by rw [hrec], fun k => by rw [hrec], fun b => ?_⟩
  unfold World.jobKeys
  simp only [hrec, h]

theorem SameRecords.put (b : String) (r : BatchRecord) :
    SameRecords w { w with batches := w.batches.put b r } := .of_docs rfl

theorem SameRecords.set {r : Record} (hs : r.status = (w.record k).status)
    (hb : r.batchId = (w.record k).batchId) : SameRecords w (w.setRecord k r) := by
  refine ⟨fun j => ?_, fun j => ?_, fun b => jobKeys_setRecord hb⟩ <;> rw [record_setRecord_eq] <;> split
  · next h => rw [h, hs]
  · rfl
  · next h => rw [h, hb]
  · rfl

theorem sameRecords_of_harmless {op : Op} {ch : Choice} {ans : sig.Ans op} (h : Harmless op)
    (hx : w.exec op ch = some (ans, w')) : SameRecords w w' ∧ w'.batches = w.batches := by
  cases op with
  | updateItem k u =>
    have hframe := exec_frame hx
    refine ⟨?_, hframe.batches fun h => h.elim⟩
    rcases exec_updateItem hx with ⟨e, _, rfl⟩ | ⟨r, _, _, hr, rfl⟩
    · exact .of_docs rfl
    · exact .set (Dynamo.Update.apply_frame hr (harmless_targets h (by decide)))
        (Dynamo.Update.apply_frame hr (harmless_targets h (by decide)))
  | _ => exact ⟨.of_docs ((exec_frame hx).docs rfl), (exec_frame hx).batches h⟩

namespace CloseStage

/-- One allowed call, by what it does to the records and the batches; `current` when the jobs it is
shown are those of the table. -/
inductive Step (batchOf : String → Option String) (w w' : World) (fails current : Prop) :
    CloseStage → CloseStage → Prop
  | harmless {s : CloseStage} (records : SameRecords w w') (batches : w'.batches = w.batches) :
      Step batchOf w w' fails current s s
  | mark {k : String} {r : Record} (notYet : (w.record k).isClosed = false) (closed : r.isClosed = true)
      (batch : r.batchId = (w.record k).batchId) (world : w' = w.setRecord k r) :
      Step batchOf w w' fails current idle (owed batchOf k)
  | count {b : String} {r : BatchRecord} (processing : BatchRecord.status (w.batchRecord b) = some .processing)
      (status : BatchRecord.status r = some .processing)
      (total : BatchRecord.total r = BatchRecord.total (w.batchRecord b))
      (resolved : BatchRecord.resolved r = BatchRecord.resolved (w.batchRecord b) + 1)
      (world : w' = { w with batches := w.batches.put b r }) :
      Step batchOf w w' fails current (marked b) (afterIncrement b (.ok r))
  | drop {b : String} (why : fails ∨ BatchRecord.status (w.batchRecord b) ≠ some .processing)
      (world : w' = w) : Step batchOf w w' fails current (marked b) idle
  | query {b : String} {total : Nat} {jobs : List (String × Record)} (world : w' = w)
      (shown : current → jobs = w.jobs b) :
      Step batchOf w w' fails current (counted b total) (decided b (batchVerdict total jobs))
  | queryFails {b : String} {total : Nat} (why : fails) (world : w' = w) :
      Step batchOf w w' fails current (counted b total) idle
  | verdict {b : String} {v : BatchStatus} {r : BatchRecord}
      (processing : BatchRecord.status (w.batchRecord b) = some .processing)
      (status : BatchRecord.status r = some v)
      (total : BatchRecord.total r = BatchRecord.total (w.batchRecord b))
      (resolved : BatchRecord.resolved r = BatchRecord.resolved (w.batchRecord b))
      (world : w' = { w with batches := w.batches.put b r }) :
      Step batchOf w w' fails current (decided b v) idle
  | verdictFails {b : String} {v : BatchStatus}
      (why : fails ∨ BatchRecord.status (w.batchRecord b) ≠ some .processing)
      (world : w' = w) : Step batchOf w w' fails current (decided b v) idle

theorem whileProcessing_eval (r : BatchRecord) :
    (batchStatusIs .processing).eval r = true ↔ BatchRecord.status r = some .processing := by
  change (BatchRecord.status r).any (fun x => x == .processing) = true ↔ _
  rw [Option.any_eq_true]
  constructor
  · rintro ⟨st, hst, he⟩
    rw [eq_of_beq he] at hst
    exact hst
  · intro h
    exact ⟨.processing, h, rfl⟩

theorem apply_increment {now : Timestamp} {old r : BatchRecord}
    (h : (incrementRequest now).apply old = .ok r) :
    BatchRecord.status old = some .processing ∧ BatchRecord.status r = some .processing ∧
      BatchRecord.total r = BatchRecord.total old ∧
      BatchRecord.resolved r = BatchRecord.resolved old + 1 := by
  obtain ⟨hcond, _, rfl⟩ := Dynamo.Update.apply_eq_ok h
  have hold := (whileProcessing_eval old).1 hcond
  exact ⟨hold, hold, rfl, rfl⟩

theorem apply_verdict {now : Timestamp} {v : BatchStatus} {old r : BatchRecord}
    (h : (verdictRequest now v).apply old = .ok r) :
    BatchRecord.status old = some .processing ∧ BatchRecord.status r = some v ∧
      BatchRecord.total r = BatchRecord.total old ∧
      BatchRecord.resolved r = BatchRecord.resolved old := by
  obtain ⟨hcond, _, rfl⟩ := Dynamo.Update.apply_eq_ok h
  exact ⟨(whileProcessing_eval old).1 hcond, rfl, rfl, rfl⟩

/-- The two requests are rejected for their condition only. -/
theorem rejected_while_processing {u : Dynamo.Update DocumentBatches.schema} {old : BatchRecord}
    {e : Dynamo.Rejection} (hcond : u.cond = some (batchStatusIs .processing))
    (hlegal : u.actions.all (Dynamo.Action.legal old) = true) (h : u.apply old = .error e) :
    BatchRecord.status old ≠ some .processing := by
  intro hold
  have heval : u.cond.all (Dynamo.Cond.eval old) = true := by
    rw [hcond]
    exact (whileProcessing_eval old).2 hold
  unfold Dynamo.Update.apply at h
  rw [if_pos heval, if_pos hlegal] at h
  cases h

theorem Step.of_allow (batchOf : String → Option String) {s : CloseStage} {op : Op} {ch : StaleChoice}
    {ans : sig.Ans op} (ha : s.allow op) (hx : w.execStale Op.isIndexQuery op ch = some (ans, w')) :
    Step batchOf w w' (op.isBatchCall = true ∧ ch.services.fail.isSome = true) (ShowsJobs w op ans) s
      (s.next batchOf op ans) := by
  obtain ⟨stored, hstored, hans⟩ := execStale_cases hx
  have hharmless : ∀ {s}, (s = idle ∨ ∃ b, s = marked b) → Harmless op →
      Step batchOf w w' (op.isBatchCall = true ∧ ch.services.fail.isSome = true) (ShowsJobs w op ans) s
        (s.next batchOf op ans) := by
    intro s hs h
    obtain ⟨hrec, hbat⟩ := sameRecords_of_harmless h hstored
    rw [show s.next batchOf op ans = s from (stuck_harmless batchOf hs op h).2 ans]
    exact .harmless hrec hbat
  cases s with
  | idle =>
    rcases ha with h | ⟨k, u, st, rfl, hcond, hst, hw⟩
    · exact hharmless (.inl rfl) h
    · change Step batchOf w w' _ _ idle (afterUpdate batchOf k u ans)
      rcases exec_updateItem (execStale_of_not rfl hx) with ⟨e, rfl, rfl⟩ | ⟨r, rfl, _, hr, rfl⟩
      · exact .harmless (.of_docs rfl) rfl
      · change Step batchOf w _ _ _ idle (if (statusWrite u).isSome then owed batchOf k else idle)
        rw [hw.status]
        change Step batchOf w _ _ _ idle (owed batchOf k)
        have heval := (Dynamo.Update.apply_eq_ok hr).1
        rw [hcond, Option.all_some, nonTerminalCondition_eval, ← isClosed_iff, Bool.not_eq_true] at heval
        refine .mark heval ?_ ?_ rfl
        · rw [isClosed_iff]
          exact ⟨st, by rw [hw.status_eq hr]; rfl, hst⟩
        · rw [hw.batch_eq hr]
          rfl
  | marked b =>
    rcases ha with h | ⟨now, rfl⟩
    · exact hharmless (.inr ⟨b, rfl⟩) h
    · change Step batchOf w w' _ _ (marked b) (afterIncrement b ans)
      rcases exec_updateBatch (execStale_of_not rfl hx) with
        ⟨e, hf, rfl, rfl⟩ | ⟨e, _, he, rfl, rfl⟩ | ⟨r, _, hr, rfl, rfl⟩
      · exact .drop (.inl ⟨rfl, by rw [hf]; rfl⟩) rfl
      · exact .drop (.inr (rejected_while_processing rfl rfl he)) rfl
      · obtain ⟨hold, hstatus, htotal, hresolved⟩ := apply_increment hr
        exact .count hold hstatus htotal hresolved rfl
  | counted b total =>
    obtain rfl : op = .queryByBatchId b := ha
    have hw := exec_read rfl hstored
    change Step batchOf w w' _ _ (counted b total) (afterQuery b total ans)
    cases ans with
    | ok jobs => exact .query hw fun hcur => hcur
    | error e =>
      rcases exec_cases (execStale_error hx) with hrun | ⟨e', hf, _, _, _⟩
      · cases hrun
      · exact .queryFails ⟨rfl, by rw [hf]; rfl⟩ hw
  | decided b v =>
    rcases ha with rfl | ⟨now, rfl⟩
    · have hw := exec_read rfl hstored
      exact .harmless (.of_docs (by rw [hw])) (by rw [hw])
    · change Step batchOf w w' _ _ (decided b v) idle
      rcases exec_updateBatch (execStale_of_not rfl hx) with
        ⟨e, hf, _, rfl⟩ | ⟨e, _, he, _, rfl⟩ | ⟨r, _, hr, _, rfl⟩
      · exact .verdictFails (.inl ⟨rfl, by rw [hf]; rfl⟩) rfl
      · exact .verdictFails (.inr (rejected_while_processing rfl rfl he)) rfl
      · obtain ⟨hold, hstatus, htotal, hresolved⟩ := apply_verdict hr
        exact .verdict hold hstatus htotal hresolved rfl

end CloseStage

/-! ## Counting -/

def World.statusOf (w : World) (b : String) : Option BatchStatus := BatchRecord.status (w.batchRecord b)

def World.totalOf (w : World) (b : String) : Nat := BatchRecord.total (w.batchRecord b)

def World.resolvedOf (w : World) (b : String) : Nat := BatchRecord.resolved (w.batchRecord b)

/-- The batch a classification passes for the record `k`. -/
def batchesOf (w : World) (k : String) : Option String := truthy (w.record k).batchId

theorem batchRecord_put (b b' : String) (r : BatchRecord) :
    World.batchRecord { w with batches := w.batches.put b' r } b =
      if b = b' then r else w.batchRecord b := by
  unfold World.batchRecord
  by_cases hb : b = b'
  · subst hb
    rw [Dynamo.Table.put_item_self, if_pos rfl]
    rfl
  · rw [Dynamo.Table.put_item_ne _ _ hb, if_neg hb]

theorem batchRecord_congr (h : w'.batches = w.batches) (b : String) :
    w'.batchRecord b = w.batchRecord b := by
  unfold World.batchRecord
  rw [h]

theorem SameRecords.isClosed (h : SameRecords w w') (k : String) :
    (w'.record k).isClosed = (w.record k).isClosed := by
  unfold Record.isClosed
  rw [h.status k]

theorem SameRecords.closed (h : SameRecords w w') (b : String) : w'.closed b = w.closed b := by
  unfold World.closed
  simp only [h.isClosed, h.keys]

theorem mem_jobKeys_of_batch (h : (w.record k).batchId = some b) : k ∈ w.jobKeys b := by
  refine List.mem_filter.2 ⟨?_, by rw [h]; simp⟩
  rw [w.docs.mem]
  by_contra hn
  rw [Option.not_isSome_iff_eq_none] at hn
  rw [World.record, hn] at h
  cases h

/-- One element of a list comes to satisfy the predicate. -/
theorem countP_flip {l : List String} {p : String → Bool} (hl : l.Nodup) (hk : p k = false) :
    l.countP (fun j => if j = k then true else p j) = l.countP p + if k ∈ l then 1 else 0 := by
  induction l with
  | nil => simp
  | cons j l ih =>
    obtain ⟨hj, hl⟩ := List.nodup_cons.1 hl
    rw [List.countP_cons, List.countP_cons, ih hl]
    by_cases hjk : j = k
    · subst hjk
      simp [hj, hk]
    · simp only [hjk, List.mem_cons, Ne.symm hjk, false_or, if_false]
      omega

theorem closed_mark {r : Record} (hk : (w.record k).isClosed = false) (hr : r.isClosed = true)
    (hb : r.batchId = (w.record k).batchId) (b : String) :
    (w.setRecord k r).closed b = w.closed b + if (w.record k).batchId = some b then 1 else 0 := by
  have hmem : k ∈ w.jobKeys b ↔ (w.record k).batchId = some b := by
    refine ⟨fun h => ?_, mem_jobKeys_of_batch⟩
    simpa using (List.mem_filter.1 h).2
  have hflip := countP_flip (l := w.jobKeys b) (p := fun j => (w.record j).isClosed) (k := k)
    (w.docs.nodup.filter _) hk
  unfold World.closed
  rw [jobKeys_setRecord hb]
  simp only [hmem] at hflip
  rw [← hflip]
  refine List.countP_congr fun j _ => ?_
  rw [record_setRecord_eq]
  by_cases hj : j = k
  · subst hj
    simp [hr]
  · simp [hj]

namespace CloseStage

def owes (b : String) : CloseStage → Bool
  | marked b' => b' == b
  | _         => false

theorem owes_afterIncrement (b b' : String) (r : BatchRecord) :
    (afterIncrement b' (.ok r)).owes b = false := by
  change (if BatchRecord.resolved r < BatchRecord.total r then idle
    else counted b' (BatchRecord.total r)).owes b = false
  split <;> rfl

theorem owes_owed {batchOf : String → Option String} (b k : String) :
    (owed batchOf k).owes b = decide (batchOf k = some b) := by
  unfold owed
  cases h : batchOf k with
  | none => simp [owes]
  | some b' => simp [owes, Bool.beq_eq_decide_eq]

theorem truthy_eq_some {o : Option String} {b : String} : truthy o = some b ↔ o = some b ∧ b ≠ "" := by
  unfold truthy
  rw [Option.filter_eq_some_iff]
  simp

/-- A call adds to the counter and to what is owed no more than the records it closes. -/
theorem Step.count_le {batchOf : String → Option String} {fails current : Prop} {s s' : CloseStage}
    (h : Step batchOf w w' fails current s s') (hb : ∀ k, truthy (w.record k).batchId = batchOf k)
    (b : String) :
    w'.resolvedOf b + (if s'.owes b then 1 else 0) + w.closed b ≤
      w.resolvedOf b + (if s.owes b then 1 else 0) + w'.closed b := by
  cases h with
  | harmless records batches =>
    rw [World.resolvedOf, batchRecord_congr batches, records.closed, ← World.resolvedOf]
  | @mark k r notYet closed batch world =>
    subst world
    rw [closed_mark notYet closed batch, owes_owed, ← hb k]
    change w.resolvedOf b + _ + _ ≤ w.resolvedOf b + 0 + _
    by_cases hk : truthy (w.record k).batchId = some b
    · rw [decide_eq_true hk, if_pos rfl, if_pos (truthy_eq_some.1 hk).1]
      omega
    · simp only [hk, decide_false, Bool.false_eq_true, if_false]
      omega
  | @count b' r processing status total resolved world =>
    subst world
    have hclosed := (SameRecords.put (w := w) b' r).closed b
    rw [owes_afterIncrement, hclosed, World.resolvedOf, batchRecord_put]
    by_cases hbb : b = b'
    · subst hbb
      rw [if_pos rfl, resolved]
      simp [owes, World.resolvedOf]
    · rw [if_neg hbb, ← World.resolvedOf]
      simp only [Bool.false_eq_true, if_false]
      omega
  | drop why world =>
    subst world
    simp only [owes, Bool.false_eq_true, if_false]
    omega
  | query world =>
    subst world
    simp [owes]
  | queryFails why world =>
    subst world
    simp [owes]
  | @verdict b' v r processing status total resolved world =>
    subst world
    have hclosed := (SameRecords.put (w := w) b' r).closed b
    rw [hclosed, World.resolvedOf, batchRecord_put]
    by_cases hbb : b = b'
    · subst hbb
      rw [if_pos rfl, resolved]
      simp [owes, World.resolvedOf]
    · rw [if_neg hbb, ← World.resolvedOf]
      simp [owes]
  | verdictFails why world =>
    subst world
    simp [owes]

/-- The counter grows, and only while the batch is `PROCESSING`; the total stays. -/
theorem Step.batch {batchOf : String → Option String} {fails current : Prop} {s s' : CloseStage}
    (h : Step batchOf w w' fails current s s') (b : String) :
    w'.totalOf b = w.totalOf b ∧ w.resolvedOf b ≤ w'.resolvedOf b := by
  cases h with
  | harmless records batches =>
    unfold World.totalOf World.resolvedOf
    rw [batchRecord_congr batches]
    exact ⟨rfl, Nat.le_refl _⟩
  | mark notYet closed batch world =>
    subst world
    exact ⟨rfl, Nat.le_refl _⟩
  | @count b' r processing status total resolved world =>
    subst world
    unfold World.totalOf World.resolvedOf
    rw [batchRecord_put]
    split
    next hb =>
      subst hb
      exact ⟨total, by omega⟩
    · exact ⟨rfl, Nat.le_refl _⟩
  | @verdict b' v r processing status total resolved world =>
    subst world
    unfold World.totalOf World.resolvedOf
    rw [batchRecord_put]
    split
    next hb =>
      subst hb
      exact ⟨total, resolved.ge⟩
    · exact ⟨rfl, Nat.le_refl _⟩
  | drop why world | query world | queryFails why world | verdictFails why world =>
    subst world
    exact ⟨rfl, Nat.le_refl _⟩

end CloseStage

/-! ## The verdict -/

def World.AllClosed (w : World) (b : String) : Prop := ∀ k ∈ w.jobKeys b, (w.record k).isClosed = true

/-- The verdict on the jobs as they are. -/
def World.verdictOn (w : World) (b : String) : BatchStatus := batchVerdict (w.totalOf b) (w.jobs b)

/-- The records of the batch keep their statuses. -/
structure Frozen (w w' : World) (b : String) : Prop where
  keys   : w'.jobKeys b = w.jobKeys b
  status : ∀ k ∈ w.jobKeys b, (w'.record k).status = (w.record k).status

theorem SameRecords.frozen (h : SameRecords w w') (b : String) : Frozen w w' b :=
  ⟨h.keys b, fun k _ => h.status k⟩

theorem Frozen.allClosed (h : Frozen w w' b) (hc : w.AllClosed b) : w'.AllClosed b := by
  intro k hk
  rw [h.keys] at hk
  unfold Record.isClosed
  rw [h.status k hk]
  exact hc k hk

theorem Frozen.verdictOn (h : Frozen w w' b) (ht : w'.totalOf b = w.totalOf b) :
    w'.verdictOn b = w.verdictOn b := by
  have hfailed : (w'.jobs b).countP isFailedJob = (w.jobs b).countP isFailedJob := by
    unfold World.jobs
    rw [h.keys, List.countP_map, List.countP_map]
    refine List.countP_congr fun k hk => ?_
    change (isFailedJob (k, w'.record k)) = true ↔ (isFailedJob (k, w.record k)) = true
    unfold isFailedJob
    rw [h.status k hk]
  unfold World.verdictOn batchVerdict
  rw [ht, hfailed]

/-- The statuses of a batch whose records are all terminal do not change any more. -/
theorem CloseStage.Step.frozen {batchOf : String → Option String} {fails current : Prop} {s s' : CloseStage}
    (h : CloseStage.Step batchOf w w' fails current s s') (hc : w.AllClosed b) : Frozen w w' b := by
  cases h with
  | harmless records batches => exact records.frozen b
  | @mark k r notYet closed batch world =>
    subst world
    refine ⟨jobKeys_setRecord batch, fun j hj => ?_⟩
    have hjk : j ≠ k := by
      rintro rfl
      rw [hc j hj] at notYet
      cases notYet
    rw [record_setRecord_ne w r hjk]
  | count processing status total resolved world =>
    subst world
    exact (SameRecords.put _ _).frozen b
  | verdict processing status total resolved world =>
    subst world
    exact (SameRecords.put _ _).frozen b
  | drop why world | query world | queryFails why world | verdictFails why world =>
    subst world
    exact (SameRecords.of_docs rfl).frozen b

/-- What a call that is counted or has decided knows of the batch `b`. -/
structure Knows (w : World) (b : String) (s : CloseStage) : Prop where
  counted : ∀ n, s = .counted b n → n = w.totalOf b ∧ w.totalOf b ≤ w.resolvedOf b
  decided : ∀ v, s = .decided b v → w.AllClosed b ∧ v = w.verdictOn b

theorem Knows.step {batchOf : String → Option String} {fails current : Prop} {s s' t : CloseStage}
    (ht : Knows w b t) (h : CloseStage.Step batchOf w w' fails current s s') : Knows w' b t := by
  obtain ⟨htotal, hresolved⟩ := h.batch b
  refine ⟨fun n hn => ?_, fun v hv => ?_⟩
  · obtain ⟨hn', hle⟩ := ht.counted n hn
    rw [htotal]
    exact ⟨hn', by omega⟩
  · obtain ⟨hc, hv'⟩ := ht.decided v hv
    have hf := h.frozen hc
    exact ⟨hf.allClosed hc, hv'.trans (hf.verdictOn htotal).symm⟩

theorem knows_idle : Knows w b .idle := ⟨fun _ h => (by cases h), fun _ h => (by cases h)⟩

theorem knows_marked (b' : String) : Knows w b (.marked b') :=
  ⟨fun _ h => (by cases h), fun _ h => (by cases h)⟩

theorem knows_owed (batchOf : String → Option String) (k : String) :
    Knows w b (CloseStage.owed batchOf k) := by
  unfold CloseStage.owed
  cases batchOf k with
  | none => exact knows_idle
  | some b' => exact knows_marked b'

/-- What the call that is made knows afterwards. -/
theorem CloseStage.Step.knows {batchOf : String → Option String} {fails current : Prop} {s s' : CloseStage}
    (h : CloseStage.Step batchOf w w' fails current s s') (hcur : current) (hs : Knows w b s)
    (hfull : w.totalOf b ≤ w.resolvedOf b → w.AllClosed b) : Knows w' b s' := by
  have hstep := h
  cases h with
  | harmless records batches => exact hs.step hstep
  | @mark k => exact knows_owed batchOf k
  | @count b' r processing status total resolved world =>
    subst world
    change Knows _ b (if BatchRecord.resolved r < BatchRecord.total r then .idle
      else .counted b' (BatchRecord.total r))
    split
    · exact knows_idle
    next hlt =>
      refine ⟨fun n hn => ?_, fun v hv => (by cases hv)⟩
      cases hn
      unfold World.totalOf World.resolvedOf
      rw [batchRecord_put, if_pos rfl]
      exact ⟨rfl, by omega⟩
  | @query b' total jobs world shown =>
    subst world
    refine ⟨fun n hn => (by cases hn), fun v hv => ?_⟩
    cases hv
    obtain ⟨htotal, hle⟩ := hs.counted total rfl
    refine ⟨hfull hle, ?_⟩
    rw [World.verdictOn, htotal, shown hcur]
  | drop | queryFails | verdict | verdictFails => exact knows_idle

/-- The batch is still `PROCESSING`, or has the verdict on its records, which are all terminal. -/
def RightVerdict (w : World) (b : String) : Prop :=
  w.statusOf b = some .processing ∨ w.AllClosed b ∧ w.statusOf b = some (w.verdictOn b)

theorem CloseStage.Step.rightVerdict {batchOf : String → Option String} {fails current : Prop}
    {s s' : CloseStage} (h : CloseStage.Step batchOf w w' fails current s s') (hs : Knows w b s)
    (hw : RightVerdict w b) : RightVerdict w' b := by
  obtain ⟨htotal, _⟩ := h.batch b
  have hkeep : w'.statusOf b = w.statusOf b → RightVerdict w' b := by
    intro hst
    rcases hw with hp | ⟨hc, hv⟩
    · exact .inl (hst.trans hp)
    · have hf := h.frozen hc
      exact .inr ⟨hf.allClosed hc, by rw [hst, hv, hf.verdictOn htotal]⟩
  have hf := fun hc => h.frozen (b := b) hc
  cases h with
  | harmless records batches => exact hkeep (by rw [World.statusOf, batchRecord_congr batches]; rfl)
  | mark notYet closed batch world =>
    subst world
    exact hkeep rfl
  | @count b' r processing status total resolved world =>
    subst world
    refine hkeep ?_
    unfold World.statusOf
    rw [batchRecord_put]
    split
    next hb =>
      subst hb
      exact status.trans processing.symm
    · rfl
  | @verdict b' v r processing status total resolved world =>
    by_cases hb : b = b'
    · subst hb
      obtain ⟨hc, hv⟩ := hs.decided v rfl
      refine .inr ⟨(hf hc).allClosed hc, ?_⟩
      rw [(hf hc).verdictOn htotal, ← hv, ← status, world, World.statusOf, batchRecord_put, if_pos rfl]
    · refine hkeep ?_
      rw [world, World.statusOf, batchRecord_put, if_neg hb]
      rfl
  | drop why world | query world | queryFails why world | verdictFails why world =>
    subst world
    exact hkeep rfl

end

/-! ## Every run -/

section
variable {w₀ w' : World} {b : String} {c : Effect.Config (closingSystem (batchesOf w₀))} {i : Nat}
  {th : Effect.Thread (closingSystem (batchesOf w₀))} {op : Op} {k : sig.Ans op → Prog Unit}
  {ch : StaleChoice} {ans : sig.Ans op}

abbrev closeStage {batchOf : String → Option String} (th : Effect.Thread (closingSystem batchOf)) :
    CloseStage := (closeProtocol batchOf).loc (fun _ => .idle) th

structure CloseInv (w₀ : World) (b : String) (c : Effect.Config (closingSystem (batchesOf w₀))) :
    Prop where
  batch : ∀ k, truthy (c.world.record k).batchId = batchesOf w₀ k
  keys  : c.world.jobKeys b = w₀.jobKeys b
  total : c.world.totalOf b = w₀.totalOf b
  count : c.world.resolvedOf b + c.threads.countP (fun th => (closeStage th).owes b) + w₀.closed b ≤
    w₀.resolvedOf b + c.world.closed b

theorem countP_set_add {α : Type} {p : α → Bool} {xs : List α} {i : Nat} {x y : α} (hi : xs[i]? = some y) :
    (xs.set i x).countP p + (if p y then 1 else 0) = xs.countP p + if p x then 1 else 0 := by
  induction xs generalizing i with
  | nil => cases hi
  | cons z xs ih =>
    cases i with
    | zero =>
      obtain rfl := Option.some.inj hi
      simp only [List.set_cons_zero, List.countP_cons]
      omega
    | succ i =>
      have := ih hi
      simp only [List.set_cons_succ, List.countP_cons]
      omega

theorem CloseStage.Step.records {w w' : World} {batchOf : String → Option String} {fails current : Prop}
    {s s' : CloseStage} (h : CloseStage.Step batchOf w w' fails current s s') :
    (∀ k, (w'.record k).batchId = (w.record k).batchId) ∧ ∀ b, w'.jobKeys b = w.jobKeys b := by
  cases h with
  | harmless records batches => exact ⟨records.batch, records.keys⟩
  | @mark k r notYet closed batch world =>
    subst world
    refine ⟨fun j => ?_, fun b => jobKeys_setRecord batch⟩
    rw [record_setRecord_eq]
    split
    next h => rw [h, batch]
    · rfl
  | count processing status total resolved world =>
    subst world
    exact ⟨(SameRecords.put _ _).batch, (SameRecords.put _ _).keys⟩
  | verdict processing status total resolved world =>
    subst world
    exact ⟨(SameRecords.put _ _).batch, (SameRecords.put _ _).keys⟩
  | drop why world | query world | queryFails why world | verdictFails why world =>
    subst world
    exact ⟨fun _ => rfl, fun _ => rfl⟩

theorem closeInv_init : CloseInv w₀ b (Effect.Config.init w₀) where
  batch _ := rfl
  keys := rfl
  total := rfl
  count := Nat.le_refl _

theorem CloseInv.act (h : CloseInv w₀ b c) (hn : c.Next i th op k) {fails current : Prop}
    (hstep : CloseStage.Step (batchesOf w₀) c.world w' fails current (closeStage th)
      ((closeStage th).next (batchesOf w₀) op ans)) :
    CloseInv w₀ b { world := w', threads := c.threads.set i (th.resume k ans) } := by
  obtain ⟨hbatch, hkeys⟩ := hstep.records
  refine ⟨fun j => ?_, (hkeys b).trans h.keys, (hstep.batch b).1.trans h.total, ?_⟩
  · change truthy (w'.record j).batchId = _
    rw [hbatch, h.batch]
  · have hcount := hstep.count_le h.batch b
    have hset := countP_set_add (p := fun t => (closeStage t).owes b) (x := th.resume k ans) hn.1
    have hold := h.count
    change w'.resolvedOf b + (c.threads.set i (th.resume k ans)).countP _ + w₀.closed b ≤
      w₀.resolvedOf b + w'.closed b
    change _ + (if (closeStage th).owes b then 1 else 0) =
      _ + if ((closeStage th).next (batchesOf w₀) op ans).owes b then 1 else 0 at hset
    omega

theorem CloseInv.start (h : CloseInv w₀ b c) (e : CloseEntry (batchesOf w₀)) :
    CloseInv w₀ b { c with threads := c.threads ++ [Effect.Thread.init e] } := by
  refine ⟨h.batch, h.keys, h.total, ?_⟩
  have hold := h.count
  rw [List.countP_append, List.countP_singleton]
  exact hold

theorem CloseInv.crash (h : CloseInv w₀ b c) (hi : c.threads[i]? = some th) :
    CloseInv w₀ b { c with threads := c.threads.set i { th with crashed := true } } := by
  refine ⟨h.batch, h.keys, h.total, ?_⟩
  have hold := h.count
  rw [Effect.countP_set_of_eq (p := fun t => (closeStage t).owes b) (x := { th with crashed := true })
    hi rfl]
  exact hold

theorem possible_of_inv (h : CloseInv w₀ b c) (hn : c.Next i th op k)
    (hm : AnsweredAs ShowsBatches c (.act i ch))
    (hx : c.world.execStale Op.isIndexQuery op ch = some (ans, w')) :
    possibleClose (batchesOf w₀) op ans := by
  have hanswered := hm op ans w' (Effect.Config.nextOp_eq_some.2 ⟨th, k, hn⟩) hx
  cases op with
  | now =>
    cases ans with
    | ok t => trivial
    | error e => cases exec_local rfl (execStale_of_not rfl hx)
  | queryByStatusCreatedAt st cutoff =>
    cases ans with
    | error e => trivial
    | ok items =>
      intro it hit
      rw [← h.batch it.1]
      exact hanswered it hit
  | _ => cases ans <;> trivial

/-- The batch starts out `PROCESSING`, with no more counted than is terminal and no more records
than its total. -/
structure Opened (w : World) (b : String) : Prop where
  processing : w.statusOf b = some .processing
  counted    : w.resolvedOf b ≤ w.closed b
  few        : (w.jobKeys b).length ≤ w.totalOf b

structure VerdictInv (b : String) (c : Effect.Config (closingSystem (batchesOf w₀))) : Prop where
  knows : ∀ th ∈ c.threads, Knows c.world b (closeStage th)
  right : RightVerdict c.world b

/-- When the counter has reached the total, all records of the batch are terminal. -/
theorem CloseInv.full (h : CloseInv w₀ b c) (hw : Opened w₀ b)
    (hle : c.world.totalOf b ≤ c.world.resolvedOf b) : c.world.AllClosed b := by
  have hcount := h.count
  have hcounted := hw.counted
  have hfew := hw.few
  rw [← h.keys, ← h.total] at hfew
  have hlen : c.world.closed b ≤ (c.world.jobKeys b).length := List.countP_le_length
  exact List.countP_eq_length.1 (show c.world.closed b = _ by omega)

theorem VerdictInv.act (h : VerdictInv b c) (hinv : CloseInv w₀ b c) (hw : Opened w₀ b)
    (hn : c.Next i th op k) {fails current : Prop} (hcur : current)
    (hstep : CloseStage.Step (batchesOf w₀) c.world w' fails current (closeStage th)
      ((closeStage th).next (batchesOf w₀) op ans)) :
    VerdictInv b { world := w', threads := c.threads.set i (th.resume k ans) } := by
  have hknows := h.knows th (List.mem_of_getElem? hn.1)
  refine ⟨fun t ht => ?_, hstep.rightVerdict hknows h.right⟩
  rcases List.mem_or_eq_of_mem_set ht with ht | rfl
  · exact (h.knows t ht).step hstep
  · exact hstep.knows hcur hknows (hinv.full hw)

/-- `jobs` where the batch index is not to be trusted with more than it is. -/
theorem closeInv_play {ms : List (Effect.Move (closingSystem (batchesOf w₀)))} (b : String)
    {jobs : Prop} (hshown : Effect.Along
      (fun c m => AnsweredAs ShowsBatches c m ∧ (jobs → AnsweredAs ShowsJobs c m)) (Effect.Config.init w₀) ms)
    (h : Effect.play (Effect.Config.init w₀) ms = some c) :
    CloseInv w₀ b c ∧ (jobs → Opened w₀ b → VerdictInv b c) := by
  refine (Effect.Protocol.protocol_inv (R := closeProtocol (batchesOf w₀)) (fun _ => .idle)
    (J := fun c => CloseInv w₀ b c ∧ (jobs → Opened w₀ b → VerdictInv b c)) obeys_close ?_ ?_ ?_
    (fun _ ht => (by cases ht))
    ⟨closeInv_init, fun _ hw => ⟨fun _ ht => (by cases ht), .inl hw.processing⟩⟩ hshown h).2
  · rintro c e ⟨hinv, hv⟩ _
    refine ⟨hinv.start e, fun hj hw => ⟨fun t ht => ?_, (hv hj hw).right⟩⟩
    rcases List.mem_append.1 ht with ht | ht
    · exact (hv hj hw).knows t ht
    · rw [List.mem_singleton.1 ht]
      exact knows_idle
  · rintro c i ch th op k ans w' ⟨hinv, hv⟩ _ ⟨hb, hjobs⟩ hn ha hx
    have hstep := CloseStage.Step.of_allow (batchesOf w₀) ha hx
    refine ⟨possible_of_inv hinv hn hb hx, hinv.act hn hstep, fun hj hw => ?_⟩
    have hcur := hjobs hj op ans w' (Effect.Config.nextOp_eq_some.2 ⟨th, k, hn⟩) hx
    exact (hv hj hw).act hinv hw hn hcur hstep
  · rintro c i th ⟨hinv, hv⟩ _ hi
    refine ⟨hinv.crash hi, fun hj hw => ⟨fun t ht => ?_, (hv hj hw).right⟩⟩
    rcases List.mem_or_eq_of_mem_set ht with ht | rfl
    · exact (hv hj hw).knows t ht
    · exact (hv hj hw).knows th (List.mem_of_getElem? hi)

end

/-- The program has returned. -/
def Prog.returns : Prog Unit → Bool
  | .ret _ => true
  | _      => false

theorem returns_iff {p : Prog Unit} : Prog.returns p = true ↔ p = .ret () := by
  cases p with
  | ret u => exact ⟨fun _ => rfl, fun _ => rfl⟩
  | _ => exact ⟨fun h => (by cases h), fun h => (by cases h)⟩

/-- A batch of which all terminal records are counted, and some are not terminal yet. -/
structure Counting (w : World) (b : String) : Prop where
  named      : b ≠ ""
  processing : w.statusOf b = some .processing
  counted    : w.resolvedOf b = w.closed b
  all        : (w.jobKeys b).length = w.totalOf b
  left       : w.resolvedOf b < w.totalOf b

theorem Counting.opened {w : World} {b : String} (h : Counting w b) : Opened w b :=
  ⟨h.processing, h.counted.le, h.all.le⟩

def waitingJob : Record
  | .processStatus => some ProcessStatus.notStarted
  | .batchId       => some "acme/1"
  | .createdAt     => some (0 : Nat)
  | _              => none

def waitingBatch : BatchRecord
  | .batchStatus => some BatchStatus.processing
  | .totalFiles  => some (2 : Nat)
  | _            => none

/-- A batch with two records that nobody has processed. -/
def waitingWorld : World where
  docs    := (Dynamo.Table.empty.put "0-scan.pdf" waitingJob).put "1-scan.pdf" waitingJob
  batches := Dynamo.Table.empty.put "acme/1" waitingBatch

/-- The index shows both records as they were before any call. -/
def earlierRecords : (op : Op) → sig.Res op → sig.Res op
  | .queryByStatusCreatedAt .notStarted _, _ => [("0-scan.pdf", waitingJob), ("1-scan.pdf", waitingJob)]
  | _, res => res

def closerMove (i : Nat) : Effect.Move (closingSystem (batchesOf waitingWorld)) :=
  .act i { services := { now := 2 * staleThreshold }, shows := earlierRecords }

/-- The first record fails and the reaper, shown the first record as not started, closes the second. -/
def twoClosers : List (Effect.Move (closingSystem (batchesOf waitingWorld))) :=
  [.start (.classify sampleEnv "0-scan.pdf" (.failed "Unreadable" {} (some "acme/1") none) rfl),
    .start .reaper] ++
    [(4, 0), (12, 1), (7, 0)].flatMap fun e => List.replicate e.1 (closerMove e.2)

def showsEarlier : Effect.Move (closingSystem (batchesOf waitingWorld)) → Prop
  | .act _ ch => ch.shows = earlierRecords
  | _ => True

theorem showsEarlier_twoClosers : ∀ m ∈ twoClosers, showsEarlier m := by
  intro m hm
  rcases List.mem_append.1 hm with hm | hm
  · simp only [List.mem_cons, List.not_mem_nil, or_false] at hm
    rcases hm with rfl | rfl <;> trivial
  · obtain ⟨e, _, hm⟩ := List.mem_flatMap.1 hm
    rw [(List.mem_replicate.1 hm).2]
    exact rfl

theorem shownAs_jobs {c : Effect.Config (closingSystem (batchesOf waitingWorld))}
    {m : Effect.Move (closingSystem (batchesOf waitingWorld))} (h : showsEarlier m) :
    AnsweredAs ShowsJobs c m := by
  cases m with
  | act i ch =>
    obtain ⟨services, shows⟩ := ch
    cases h
    intro op ans w' _ hx
    obtain ⟨stored, hstored, rfl⟩ := execStale_cases hx
    cases op with
    | queryByBatchId b =>
      cases stored with
      | error e => trivial
      | ok jobs => exact shown_jobs hstored
    | _ => trivial
  | _ => trivial

def keepsBatches (c : Effect.Config (closingSystem (batchesOf waitingWorld))) : Bool :=
  (c.world.record "0-scan.pdf").batchId == some "acme/1" &&
    (c.world.record "1-scan.pdf").batchId == some "acme/1"

theorem shownAs_batches {c : Effect.Config (closingSystem (batchesOf waitingWorld))}
    {m : Effect.Move (closingSystem (batchesOf waitingWorld))} (h : showsEarlier m)
    (hc : keepsBatches c = true) : AnsweredAs ShowsBatches c m := by
  obtain ⟨hzero, hone⟩ := Bool.and_eq_true_iff.1 hc
  cases m with
  | act i ch =>
    obtain ⟨services, shows⟩ := ch
    cases h
    intro op ans w' _ hx
    obtain ⟨stored, hstored, rfl⟩ := execStale_cases hx
    cases op with
    | queryByStatusCreatedAt st cutoff =>
      have hcurrent := shown_batches hstored
      cases stored with
      | error e => trivial
      | ok items =>
        cases st with
        | notStarted =>
          intro it hit
          change it ∈ [("0-scan.pdf", waitingJob), ("1-scan.pdf", waitingJob)] at hit
          simp only [List.mem_cons, List.not_mem_nil, or_false] at hit
          rcases hit with rfl | rfl
          · exact congrArg truthy (eq_of_beq hzero).symm
          · exact congrArg truthy (eq_of_beq hone).symm
        | _ => exact hcurrent
    | _ => trivial
  | _ => trivial

theorem shownBatches_twoClosers :
    Effect.Along (AnsweredAs ShowsBatches) (Effect.Config.init waitingWorld) twoClosers :=
  (Effect.Along.and_of_mem showsEarlier_twoClosers
    (Effect.along_eq_true.1 (show Effect.along (fun c _ => keepsBatches c) _ _ = true by decide +kernel))).mono
    fun _ _ hm => shownAs_batches hm.1 hm.2

theorem shownJobs_twoClosers :
    Effect.Along (AnsweredAs ShowsJobs) (Effect.Config.init waitingWorld) twoClosers :=
  Effect.along_iff_split.2 fun _ m _ _ hsplit _ =>
    shownAs_jobs (showsEarlier_twoClosers m (hsplit ▸ List.mem_append_right _ List.mem_cons_self))

/-- The counter of a batch grows by at most one for each of its records that becomes terminal. -/
theorem counted_once {w : World} {ms : List (Effect.Move (closingSystem (batchesOf w)))}
    {c : Effect.Config (closingSystem (batchesOf w))} (b : String)
    (hshown : Effect.Along (AnsweredAs ShowsBatches) (Effect.Config.init w) ms)
    (h : Effect.play (Effect.Config.init w) ms = some c) :
    c.world.resolvedOf b + w.closed b ≤ w.resolvedOf b + c.world.closed b := by
  have hcount := (closeInv_play b (hshown.mono fun _ _ hm => ⟨hm, fun hf : False => hf.elim⟩) h).1.count
  omega

theorem counted_once_twoClosers :
    ∃ c, Effect.play (Effect.Config.init waitingWorld) twoClosers = some c ∧
      c.world.closed "acme/1" = 2 ∧
      c.world.resolvedOf "acme/1" + waitingWorld.closed "acme/1" ≤ waitingWorld.resolvedOf "acme/1" + 2 := by
  obtain ⟨c, hc, hclosed⟩ := Option.map_eq_some_iff.1
    (show (Effect.play (Effect.Config.init waitingWorld) twoClosers).map
      (fun c => c.world.closed "acme/1") = some 2 by decide +kernel)
  have hcount := counted_once "acme/1" shownBatches_twoClosers hc
  rw [hclosed] at hcount
  exact ⟨c, hc, hclosed, hcount⟩

/-- In every run the batch is `PROCESSING`, or all its records are terminal and its status is the
verdict on them. -/
theorem verdict_exact {w : World} {ms : List (Effect.Move (closingSystem (batchesOf w)))}
    {c : Effect.Config (closingSystem (batchesOf w))} {b : String} (hw : Opened w b)
    (hshown : Effect.Along (AnsweredAs ShowsBatches) (Effect.Config.init w) ms)
    (hjobs : Effect.Along (AnsweredAs ShowsJobs) (Effect.Config.init w) ms)
    (h : Effect.play (Effect.Config.init w) ms = some c) : RightVerdict c.world b :=
  ((closeInv_play b ((hshown.and hjobs).mono fun _ _ hm => ⟨hm.1, fun _ : True => hm.2⟩) h).2
    trivial hw).right

theorem counting_waitingWorld : Counting waitingWorld "acme/1" := by
  refine ⟨by decide, rfl, ?_, ?_, ?_⟩ <;> decide +kernel

theorem verdict_exact_twoClosers :
    ∃ c, Effect.play (Effect.Config.init waitingWorld) twoClosers = some c ∧
      c.world.statusOf "acme/1" = some .failed ∧ RightVerdict c.world "acme/1" := by
  obtain ⟨c, hc, hstatus⟩ := Option.map_eq_some_iff.1
    (show (Effect.play (Effect.Config.init waitingWorld) twoClosers).map
      (fun c => c.world.statusOf "acme/1") = some (some .failed) by decide +kernel)
  exact ⟨c, hc, hstatus, verdict_exact counting_waitingWorld.opened shownBatches_twoClosers
    shownJobs_twoClosers hc⟩

/-! ## When no request on the batch fails -/

namespace CloseStage

/-- The call is going to give the batch its verdict. -/
def judges (b : String) : CloseStage → Bool
  | counted b' _ | decided b' _ => b' == b
  | _ => false

variable {batchOf : String → Option String} {w w' : World} {fails current : Prop} {s s' : CloseStage}
  {b : String}

/-- While the batch is `PROCESSING` a call that does not fail counts all that is owed. -/
theorem Step.count_eq (h : Step batchOf w w' fails current s s') (hok : ¬ fails)
    (hb : ∀ k, truthy (w.record k).batchId = batchOf k) (hne : b ≠ "")
    (hp : w.statusOf b = some .processing) :
    w'.resolvedOf b + (if s'.owes b then 1 else 0) + w.closed b =
      w.resolvedOf b + (if s.owes b then 1 else 0) + w'.closed b := by
  cases h with
  | harmless records batches =>
    rw [World.resolvedOf, batchRecord_congr batches, records.closed, ← World.resolvedOf]
  | @mark k r notYet closed batch world =>
    subst world
    rw [closed_mark notYet closed batch, owes_owed, ← hb k]
    change w.resolvedOf b + _ + _ = w.resolvedOf b + 0 + _
    have hiff : truthy (w.record k).batchId = some b ↔ (w.record k).batchId = some b :=
      ⟨fun h => (truthy_eq_some.1 h).1, fun h => truthy_eq_some.2 ⟨h, hne⟩⟩
    simp only [decide_eq_true_eq, hiff]
    omega
  | @count b' r processing status total resolved world =>
    subst world
    have hclosed := (SameRecords.put (w := w) b' r).closed b
    rw [owes_afterIncrement, hclosed, World.resolvedOf, batchRecord_put]
    by_cases hbb : b = b'
    · subst hbb
      rw [if_pos rfl, resolved]
      simp [owes, World.resolvedOf]
    · rw [if_neg hbb, ← World.resolvedOf]
      simp [owes, Ne.symm hbb]
  | @drop b' why world =>
    subst world
    have hbb : b' ≠ b := by
      rintro rfl
      exact why.elim hok fun hn => hn hp
    simp [owes, hbb]
  | query world =>
    subst world
    rfl
  | queryFails why world => exact absurd why hok
  | @verdict b' v r processing status total resolved world =>
    subst world
    have hclosed := (SameRecords.put (w := w) b' r).closed b
    rw [hclosed, World.resolvedOf, batchRecord_put]
    by_cases hbb : b = b'
    · subst hbb
      rw [if_pos rfl, resolved]
      rfl
    · rw [if_neg hbb]
      rfl
  | verdictFails why world =>
    subst world
    rfl

/-- No call makes a batch `PROCESSING`. -/
theorem Step.wasProcessing (h : Step batchOf w w' fails current s s') (hp : w'.statusOf b = some .processing) :
    w.statusOf b = some .processing := by
  cases h with
  | harmless records batches => rwa [World.statusOf, batchRecord_congr batches] at hp
  | mark notYet closed batch world =>
    subst world
    exact hp
  | @count b' r processing status total resolved world =>
    subst world
    rw [World.statusOf, batchRecord_put] at hp
    split at hp
    next hb =>
      subst hb
      exact processing
    · exact hp
  | @verdict b' v r processing status total resolved world =>
    subst world
    rw [World.statusOf, batchRecord_put] at hp
    split at hp
    next hb =>
      subst hb
      exact processing
    · exact hp
  | drop why world | query world | queryFails why world | verdictFails why world =>
    subst world
    exact hp

theorem batchVerdict_ne (total : Nat) (jobs : List (String × Record)) :
    batchVerdict total jobs ≠ .processing := by
  unfold batchVerdict
  dsimp only
  split
  · decide
  · split <;> decide

/-- Who is going to give the verdict goes on to, as long as the batch is `PROCESSING`. -/
theorem Step.judges (h : Step batchOf w w' fails current s s') (hok : ¬ fails) (hs : Knows w b s)
    (hp : w'.statusOf b = some .processing) (hj : s.judges b = true) : s'.judges b = true := by
  have hwas := h.wasProcessing hp
  cases h with
  | harmless => exact hj
  | query world => exact hj
  | queryFails why world => exact absurd why hok
  | @verdict b' v r processing status total resolved world =>
    have hbb : b' = b := by simpa [CloseStage.judges] using hj
    subst hbb
    rw [world, World.statusOf, batchRecord_put, if_pos rfl, status] at hp
    obtain ⟨_, hv⟩ := hs.decided v rfl
    rw [hv] at hp
    exact absurd (Option.some.inj hp) (batchVerdict_ne _ _)
  | @verdictFails b' v why world =>
    have hbb : b' = b := by simpa [CloseStage.judges] using hj
    subst hbb
    exact (why.elim hok fun hn => hn hwas).elim
  | mark | count | drop => cases hj

/-- The call that brings the counter to the total is going to give the verdict. -/
theorem Step.reaches (h : Step batchOf w w' fails current s s') (hlt : w.resolvedOf b < w.totalOf b)
    (hle : w'.totalOf b ≤ w'.resolvedOf b) : s'.judges b = true := by
  cases h with
  | harmless records batches =>
    unfold World.totalOf World.resolvedOf at *
    rw [batchRecord_congr batches] at hle
    omega
  | @count b' r processing status total resolved world =>
    subst world
    unfold World.totalOf World.resolvedOf at *
    rw [batchRecord_put] at hle
    split at hle
    next hb =>
      subst hb
      change (if BatchRecord.resolved r < BatchRecord.total r then idle
        else counted b (BatchRecord.total r)).judges b = true
      rw [if_neg (by omega)]
      simp [CloseStage.judges]
    · omega
  | @verdict b' v r processing status total resolved world =>
    subst world
    unfold World.totalOf World.resolvedOf at *
    rw [batchRecord_put] at hle
    split at hle
    next hb =>
      subst hb
      omega
    · omega
  | mark notYet closed batch world =>
    subst world
    change w.totalOf b ≤ w.resolvedOf b at hle
    omega
  | drop why world | query world | queryFails why world | verdictFails why world =>
    subst world
    omega

end CloseStage

section
variable {w₀ w' : World} {b : String} {c : Effect.Config (closingSystem (batchesOf w₀))} {i : Nat}
  {th : Effect.Thread (closingSystem (batchesOf w₀))} {op : Op} {k : sig.Ans op → Prog Unit}
  {ans : sig.Ans op}

/-- The move fails no request on the batch and kills no call. -/
def lands {batchOf : String → Option String} (c : Effect.Config (closingSystem batchOf)) :
    Effect.Move (closingSystem batchOf) → Bool
  | .start _  => true
  | .crash _  => false
  | .act i ch => (c.nextOp i).all fun op => !Op.isBatchCall op || ch.services.fail.isNone

/-- All that is terminal is counted or owed, and who has reached the total gives the verdict. -/
structure Exact (w₀ : World) (b : String) (c : Effect.Config (closingSystem (batchesOf w₀))) : Prop where
  equal   : c.world.statusOf b = some .processing →
    c.world.resolvedOf b + c.threads.countP (fun th => (closeStage th).owes b) + w₀.closed b =
      w₀.resolvedOf b + c.world.closed b
  pending : c.world.statusOf b = some .processing → c.world.totalOf b ≤ c.world.resolvedOf b →
    ∃ th ∈ c.threads, (closeStage th).judges b = true

theorem Exact.act (h : Exact w₀ b c) (hinv : CloseInv w₀ b c) (hv : VerdictInv b c) (hne : b ≠ "")
    (hn : c.Next i th op k) {fails current : Prop} (hok : ¬ fails)
    (hstep : CloseStage.Step (batchesOf w₀) c.world w' fails current (closeStage th)
      ((closeStage th).next (batchesOf w₀) op ans)) :
    Exact w₀ b { world := w', threads := c.threads.set i (th.resume k ans) } := by
  have hknows := hv.knows th (List.mem_of_getElem? hn.1)
  have hself : (c.threads.set i (th.resume k ans))[i]? = some (th.resume k ans) :=
    List.getElem?_set_self (List.getElem?_eq_some_iff.1 hn.1).1
  refine ⟨fun hp => ?_, fun hp hle => ?_⟩
  · have hwas := hstep.wasProcessing hp
    have heq := hstep.count_eq hok hinv.batch hne hwas
    have hold := h.equal hwas
    have hset := countP_set_add (p := fun t => (closeStage t).owes b) (x := th.resume k ans) hn.1
    change w'.resolvedOf b + (c.threads.set i (th.resume k ans)).countP _ + w₀.closed b =
      w₀.resolvedOf b + w'.closed b
    change _ + (if (closeStage th).owes b then 1 else 0) =
      _ + if ((closeStage th).next (batchesOf w₀) op ans).owes b then 1 else 0 at hset
    omega
  · have hwas := hstep.wasProcessing hp
    by_cases hlt : c.world.resolvedOf b < c.world.totalOf b
    · exact ⟨_, List.mem_of_getElem? hself, hstep.reaches hlt hle⟩
    · obtain ⟨t, ht, hj⟩ := h.pending hwas (Nat.le_of_not_lt hlt)
      obtain ⟨j, hget⟩ := List.mem_iff_getElem?.1 ht
      by_cases hij : i = j
      · subst hij
        obtain rfl : th = t := Option.some.inj (hn.1.symm.trans hget)
        exact ⟨_, List.mem_of_getElem? hself, hstep.judges hok hknows hp hj⟩
      · refine ⟨t, List.mem_of_getElem? (i := j) ?_, hj⟩
        rw [List.getElem?_set_ne hij]
        exact hget

theorem Exact.start (h : Exact w₀ b c) (e : CloseEntry (batchesOf w₀)) :
    Exact w₀ b { c with threads := c.threads ++ [Effect.Thread.init e] } := by
  refine ⟨fun hp => ?_, fun hp hle => ?_⟩
  · rw [List.countP_append, List.countP_singleton]
    exact h.equal hp
  · obtain ⟨t, ht, hj⟩ := h.pending hp hle
    exact ⟨t, List.mem_append_left _ ht, hj⟩

theorem exact_play {ms : List (Effect.Move (closingSystem (batchesOf w₀)))} (hw : Counting w₀ b)
    (hlands : Effect.Along
      (fun c m => (AnsweredAs ShowsBatches c m ∧ AnsweredAs ShowsJobs c m) ∧ lands c m = true)
      (Effect.Config.init w₀) ms)
    (h : Effect.play (Effect.Config.init w₀) ms = some c) :
    (closeProtocol (batchesOf w₀)).Coupled (fun _ => .idle) (fun s _ => s = .idle) (fun _ _ => True) c ∧
      CloseInv w₀ b c ∧ VerdictInv b c ∧ Exact w₀ b c := by
  refine Effect.Protocol.protocol_inv (R := closeProtocol (batchesOf w₀)) (fun _ => .idle)
    (J := fun c => CloseInv w₀ b c ∧ VerdictInv b c ∧ Exact w₀ b c) obeys_close ?_ ?_ ?_
    (fun _ ht => (by cases ht)) ⟨closeInv_init, ⟨fun _ ht => (by cases ht), .inl hw.processing⟩,
      fun _ => rfl, fun _ hle => absurd hw.left (Nat.not_lt.2 hle)⟩ hlands h
  · rintro c e ⟨hinv, hv, hexact⟩ _
    refine ⟨hinv.start e, ⟨fun t ht => ?_, hv.right⟩, hexact.start e⟩
    rcases List.mem_append.1 ht with ht | ht
    · exact hv.knows t ht
    · rw [List.mem_singleton.1 ht]
      exact knows_idle
  · rintro c i ch th op k ans w' ⟨hinv, hv, hexact⟩ _ ⟨⟨hbatches, hjobs⟩, hl⟩ hn ha hx
    have hstep := CloseStage.Step.of_allow (batchesOf w₀) ha hx
    have hop : c.nextOp i = some op := Effect.Config.nextOp_eq_some.2 ⟨th, k, hn⟩
    have hok : ¬ (op.isBatchCall = true ∧ ch.services.fail.isSome = true) := by
      rintro ⟨hbatch, hfail⟩
      rw [lands, hop, Option.all_some, hbatch] at hl
      cases hf : ch.services.fail with
      | none => rw [hf] at hfail; cases hfail
      | some e => rw [hf] at hl; cases hl
    exact ⟨possible_of_inv hinv hn hbatches hx, hinv.act hn hstep,
      hv.act hinv hw.opened hn (hjobs op ans w' hop hx) hstep, hexact.act hinv hv hw.named hn hok hstep⟩
  · rintro c i th _ ⟨_, hl⟩ _
    cases hl

end

end DocumentAi
