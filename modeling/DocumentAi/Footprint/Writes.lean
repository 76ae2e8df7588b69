import DocumentAi.Footprint.Basic

/-!
# Footprints of the writers: metadata updates, responses, classification, batches

| here | meaning |
| --- | --- |
| `IsUpdateOf`   | the request `update_ddb` sends for a record |
| `IsUpsertOf`   | the request `upsert_ddb` sends for a record |
| `IsResponse`   | the response write of `finalize_v1_response` for a status |
| `IsAside`      | a request that leaves every tracked attribute alone |
| `IsWriteOn`    | a request that touches the given attributes only |
| `IsTerminal`   | the three kinds of requests a classification makes |
| `IsBatchWrite` | a request on the batches table |
| `IsIncrement`  | one that applies while the batch is `PROCESSING` only |
-/

namespace DocumentAi

open Effect.Prog (Spec All spec_bind spec_tryCatch spec_perform spec_ite all_bind all_perform
  all_forEach)

def updateRequest (env : EnvConfig) (now : Timestamp) (data : UpdateDdbRecord)
    (timing : List Action) (cond : Option Cond) : DocUpdate :=
  { actions := buildUpdateExpression env now data ++ timing, cond }

def upsertRequest (now : Timestamp) (d : InitialDdbRecord) : DocUpdate :=
  { actions := upsertActions now d }

def responseRequest (r : V1ApiResponse) : DocUpdate :=
  { actions := .set .v1ApiResponseJson r :: setOpt .responseCode r.responseCode }

def IsUpdateOf (env : EnvConfig) (data : UpdateDdbRecord) (cond : Option Cond) (op : Op) : Prop :=
  ∃ now timing, TimingActions timing ∧
    op = .updateItem data.objectKey (updateRequest env now data timing cond)

def IsUpsertOf (d : InitialDdbRecord) (op : Op) : Prop :=
  ∃ now, op = .updateItem d.objectKey (upsertRequest now d)

/-- The response stored for `s`: a final one exactly when `s` has a terminal answer. -/
def IsResponse (k : String) (s : ProcessStatus) (op : Op) : Prop :=
  ∃ r : V1ApiResponse, (r.jobStatus ≠ .processing ↔ s.hasTerminalAnswer = true) ∧
    op = .updateItem k (responseRequest r)

def IsAside (k : String) (op : Op) : Prop :=
  ∃ u : DocUpdate, Untracked u.actions ∧ op = .updateItem k u

/-- A request on the record `k` that touches the attributes `as` only. -/
def IsWriteOn (as : List DocumentMetadata) (k : String) (op : Op) : Prop :=
  ∃ u : DocUpdate, Dynamo.Targets (T := DocumentMetadata.schema) (· ∈ as) u.actions ∧
    op = .updateItem k u

/-- The answers and durations kept for each extraction method. -/
def methodAttrs : List DocumentMetadata := [.apiResponsesByMethod, .durationsByMethod]

def IsBatchWrite : Op → Prop
  | .putBatch .. | .updateBatch .. => True
  | _ => False

/-- The requests of `increment_resolved_count`. -/
def IsIncrement (op : Op) : Prop :=
  ∃ b u, op = .updateBatch b u ∧ u.cond = some (batchStatusIs .processing)

theorem IsIncrement.isBatchWrite {op : Op} (h : IsIncrement op) : IsBatchWrite op := by
  obtain ⟨b, u, rfl, _⟩ := h
  exact trivial

theorem IsWriteOn.aside {as : List DocumentMetadata} {k : String} {op : Op}
    (h : IsWriteOn as k op) (ha : ∀ a ∈ as, a ∉ tracked) : IsAside k op := by
  obtain ⟨u, hu, rfl⟩ := h
  exact ⟨u, hu.mono ha, rfl⟩

/-! ## `update_ddb` and `upsert_ddb` -/

theorem quiet_sendRecordToMetricsQueue (env : EnvConfig) (k : String) :
    Quiet (sendRecordToMetricsQueue env k) := by
  unfold sendRecordToMetricsQueue
  refine spec_tryCatch ?_ fun e => trivial
  split
  · refine all_bind (reads_getDdbRecord k).quiet fun r => ?_
    cases r with
    | none => trivial
    | some r => exact spec_ite trivial (quiet_call rfl)
  · trivial

theorem does_executeDdbUpdate {φ : Op → Prop} {k : String} {xs : List Action} {c : Option Cond}
    (h : φ (.updateItem k { actions := xs, cond := c })) : Does φ (executeDdbUpdate k xs c) :=
  does_call h

theorem does_updateDdb (env : EnvConfig) (data : UpdateDdbRecord) (c : Option Cond) :
    Does (IsUpdateOf env data c) (updateDdb env data c) := by
  unfold updateDdb
  refine all_bind (quiet_call rfl).does fun now => ?_
  refine spec_bind (Effect.Prog.Spec.mono (fun _ h => .inl (isQuiet_of_isRead h)) (fun _ h => h)
    (spec_buildTimingUpdates data.objectKey data.status _)) fun timing ht => ?_
  refine all_bind (does_executeDdbUpdate ⟨now, timing, ht, rfl⟩) fun _ => ?_
  split
  · exact (quiet_sendRecordToMetricsQueue env _).does
  · trivial

theorem does_setExtractMethod (k : String) (m : ExtractMethod) (t : Timestamp) :
    Does (IsAside k) (setExtractMethod k m t) :=
  does_executeDdbUpdate ⟨_, by simp [Dynamo.Action.target, tracked, identityAttrs], rfl⟩

theorem makes_writeTokensByModel (k m : String) (r : LlmUsageReason) (i o : Nat) :
    Makes (IsWriteOn [.tokensByModel] k) (writeTokensByModel k m r i o) :=
  makes_call ⟨_, by simp [Dynamo.Action.target], rfl⟩

theorem makes_writeInitialTokens (k : String) (p : Option PreClassificationDdbFields) :
    Makes (IsWriteOn [.tokensByModel] k) (writeInitialTokens k p) := by
  have hone : ∀ m r i o, Makes (IsWriteOn [.tokensByModel] k) (writeTokensIfUsed k m r i o) :=
    fun m r i o => spec_ite (makes_writeTokensByModel ..) trivial
  unfold writeInitialTokens
  split
  · unfold writePreclassificationTokens
    split
    · trivial
    · exact all_bind (hone ..) fun _ => hone ..
  · trivial

theorem does_upsertDdb (env : EnvConfig) (d : InitialDdbRecord) :
    Does (fun op => IsUpsertOf d op ∨ IsAside d.objectKey op) (upsertDdb env d) := by
  unfold upsertDdb
  refine all_bind (quiet_call rfl).does fun now => ?_
  refine all_bind (does_executeDdbUpdate (.inl ⟨now, rfl⟩)) fun _ => ?_
  refine all_bind ((makes_writeInitialTokens ..).does.mono fun _ h => .inr (h.aside (by decide)))
    fun _ => ?_
  split
  · exact (quiet_sendRecordToMetricsQueue env _).does
  · trivial

/-! ## Responses -/

theorem reads_resolveCategory (k : String) (g : Option String) : Reads (resolveCategory k g) := by
  unfold resolveCategory
  split
  · trivial
  · unfold getUserProvidedDocumentCategory
    refine all_bind (reads_getDdbRecord k) fun r => ?_
    cases r <;> trivial

theorem reads_getInternalApiResponse (k : String) (c : ResponseCode) (m g : Option String) :
    Reads (getInternalApiResponse k c m g) :=
  all_bind (reads_resolveCategory k g) fun _ => trivial

theorem reads_getBdaResultJson (env : EnvConfig) (uri : String) :
    Reads (getBdaResultJson env uri) := by
  unfold getBdaResultJson
  split
  · trivial
  · refine spec_tryCatch ?_ fun e => trivial
    refine all_bind (all_liftExcept _) fun expected => spec_ite ?_ trivial
    refine all_bind (reads_call rfl) fun o => ?_
    split <;> trivial

theorem reads_readOutput (env : EnvConfig) (r : Record) (b : Bool) (uri : Option String)
    (m : Option ExtractMethod) : Reads (readOutput env r b uri m) := by
  unfold readOutput
  split
  · trivial
  · split
    · trivial
    · exact all_bind (reads_getBdaResultJson env _) fun _ => trivial

theorem reads_extractFieldValues (env : EnvConfig) (r : Record) (b g : Bool)
    (d : Option String) : Reads (extractFieldValues env r b g d) :=
  all_bind (reads_readOutput ..) fun _ => trivial

theorem reads_applyExtractionRules (env : EnvConfig) (t d : String)
    (fs : List (String × FieldEntry)) (ms : List String) :
    Reads (applyExtractionRules env t d fs ms) := by
  unfold applyExtractionRules
  refine all_bind (reads_call rfl) fun r => ?_
  cases r <;> trivial

theorem reads_applyRulesOrKeep (env : EnvConfig) (r : Record) (fs : List (String × FieldEntry)) :
    Reads (applyRulesOrKeep env r fs) := by
  unfold applyRulesOrKeep
  split
  · split
    · trivial
    · exact spec_tryCatch (all_bind (reads_applyExtractionRules ..) fun _ => trivial)
        fun _ => trivial
  · trivial

/-- The response built for a status is final exactly when the status has a terminal answer. -/
theorem spec_buildV1ApiResponse (env : EnvConfig) (k : String) (s : ProcessStatus)
    (d : Option ClassificationData) (e : Option String) (x g : Bool) :
    Spec (fun (op : Op) => op.isRead = true)
      (fun r => r.jobStatus ≠ .processing ↔ s.hasTerminalAnswer = true)
      (buildV1ApiResponse env k s d e x g) := by
  unfold buildV1ApiResponse
  refine all_bind (reads_getDdbRecord k) fun r => ?_
  cases r with
  | none => trivial
  | some r =>
    dsimp only
    split
    next hs =>
      refine all_bind (reads_extractFieldValues ..) fun fields => ?_
      refine all_bind (reads_applyRulesOrKeep ..) fun res => ?_
      subst hs
      exact ⟨fun _ => rfl, fun _ => by simp [successResponse]⟩
    next hs =>
      split
      next t ht =>
        have hj := terminalStatusResponses_jobStatus ht
        simp [ProcessStatus.hasTerminalAnswer, ht, terminalResponse, hj]
      next ht => simp [ProcessStatus.hasTerminalAnswer, ht, hs, baseResponse]

theorem reads_buildV1ApiResponse (env : EnvConfig) (k : String) (s : ProcessStatus)
    (d : Option ClassificationData) (e : Option String) (x g : Bool) :
    Reads (buildV1ApiResponse env k s d e x g) := (spec_buildV1ApiResponse ..).all

theorem does_finalizeV1Response (env : EnvConfig) (k : String) (s : ProcessStatus)
    (d : Option ClassificationData) (e : Option String) :
    Does (IsResponse k s) (finalizeV1Response env k s d e) := by
  unfold finalizeV1Response
  refine spec_bind (Effect.Prog.Spec.mono (fun _ h => .inl (isQuiet_of_isRead h)) (fun _ h => h)
    (spec_buildV1ApiResponse env k s d e false false)) fun r hr => ?_
  exact does_executeDdbUpdate ⟨r, hr, rfl⟩

theorem reads_storedFields (env : EnvConfig) (k : String) (s : ProcessStatus) (m : ExtractMethod)
    (r : Option ExtractionResult) (d : Option ClassificationData) :
    Reads (storedFields env k s m r d) := by
  unfold storedFields
  split
  · exact all_bind (reads_getDdbRecord k) fun _ => all_bind (reads_readOutput ..) fun _ => trivial
  · trivial

theorem makes_writeExtractMethodResponse (env : EnvConfig) (k : String) (s : ProcessStatus)
    (m : ExtractMethod) (r : Option ExtractionResult) (d : Option ClassificationData)
    (e : Option String) :
    Makes (IsWriteOn methodAttrs k) (writeExtractMethodResponse env k s m r d e) := by
  unfold writeExtractMethodResponse
  refine all_bind (reads_buildV1ApiResponse ..).makes fun v1 => ?_
  refine all_bind (reads_storedFields ..).makes fun fields => ?_
  refine all_bind (makes_call
    ⟨_, by simp [Dynamo.Action.target, methodAttrs], rfl⟩) fun _ => ?_
  split
  · trivial
  · split
    · trivial
    · exact makes_call ⟨_, by simp [Dynamo.Action.target, methodAttrs], rfl⟩

/-! ## Batches -/

theorem does_updateBatchStatus (b : String) (s : BatchStatus) (m : Option String)
    (c : Option BatchCond) : Does IsBatchWrite (updateBatchStatus b s m c) := by
  unfold updateBatchStatus
  exact all_bind (quiet_call rfl).does fun _ => all_bind (does_call trivial) fun _ => trivial

theorem does_createBatch (b : String) (n : Nat) (c t a : Option String) :
    Does IsBatchWrite (createBatch b n c t a) := by
  unfold createBatch
  refine all_bind (quiet_call rfl).does fun now => all_bind ?_ fun _ => trivial
  refine spec_tryCatch (does_call trivial) fun e => ?_
  split <;> trivial

theorem makes_incrementResolvedCount (b : String) :
    Makes IsIncrement (incrementResolvedCount b) := by
  unfold incrementResolvedCount
  refine spec_tryCatch ?_ fun e => trivial
  refine all_bind (reads_call rfl).makes fun now => ?_
  refine all_bind (makes_call ⟨b, _, rfl, rfl⟩) fun updated => ?_
  split
  · trivial
  · refine all_bind (reads_call rfl).makes fun jobs => ?_
    unfold updateBatchStatus
    exact all_bind (reads_call rfl).makes fun now =>
      all_bind (makes_call ⟨b, _, rfl, rfl⟩) fun _ => trivial

/-! ## Classification -/

/-- The requests of one classification of `k` as `s`. -/
def IsTerminal (k : String) (s : ProcessStatus) (op : Op) : Prop :=
  (∃ env data, data.objectKey = k ∧ data.status = s ∧
    IsUpdateOf env data (some nonTerminalCondition) op) ∨ IsResponse k s op ∨ IsAside k op

theorem makes_incrementIfBatch (b : Option String) : Makes IsIncrement (incrementIfBatch b) := by
  unfold incrementIfBatch
  split
  · exact makes_incrementResolvedCount _
  · trivial

theorem does_writeTerminalStatus {env : EnvConfig} {record : UpdateDdbRecord}
    {b : Option String} {r : Option ExtractionResult} {m : Option ExtractMethod} {k : String}
    {s : ProcessStatus} (hk : record.objectKey = k) (hs : record.status = s) :
    Does (fun op => IsTerminal k s op ∨ IsIncrement op)
      (writeTerminalStatus env record b r m) := by
  subst hk hs
  have hm : Does (fun op => IsTerminal record.objectKey record.status op ∨ IsIncrement op)
      (writeMethodResponse env record r m) := by
    unfold writeMethodResponse
    split
    · trivial
    · exact (makes_writeExtractMethodResponse ..).does.mono fun _ h =>
        .inl (.inr (.inr (h.aside (by decide))))
  unfold writeTerminalStatus
  split
  · exact hm
  · refine all_bind ?_ fun applied => ?_
    · unfold writeStatusUnlessTerminal
      refine spec_tryCatch (all_bind ((does_updateDdb ..).mono fun op h =>
        .inl (.inl ⟨env, record, rfl, rfl, h⟩)) fun _ => trivial) fun e => ?_
      split <;> trivial
    · split
      · refine all_bind ((does_finalizeV1Response ..).mono fun _ h => .inl (.inr (.inl h)))
          fun _ => ?_
        exact all_bind ((makes_incrementIfBatch b).does.mono fun _ => .inr) fun _ => hm
      · trivial

theorem does_classifyWith (env : EnvConfig) (v : Verdict) (k : String)
    (d : Option ClassificationData) (b e : Option String) (t : Option Timestamp) :
    Does (fun op => IsTerminal k v.status op ∨ IsIncrement op)
      (classifyWith env v k d b e t) := by
  unfold classifyWith
  exact all_bind (reads_getInternalApiResponse ..).does fun _ => does_writeTerminalStatus rfl rfl

theorem reads_getExtractionConfidenceFloor (t : Option String) :
    Reads (getExtractionConfidenceFloor t) := by
  unfold getExtractionConfidenceFloor
  split
  · trivial
  · exact all_bind (reads_call rfl) fun _ => trivial

theorem reads_tenantHasConfidenceFloor (t : Option String) :
    Reads (tenantHasConfidenceFloor t) := by
  unfold tenantHasConfidenceFloor
  split
  · trivial
  · exact all_bind (reads_call rfl) fun _ => trivial

theorem reads_getMissingRequiredFields (env : EnvConfig) (t d : Option String)
    (xs ys : List String) : Reads (getMissingRequiredFields env t d xs ys) := by
  unfold getMissingRequiredFields
  split
  · refine all_bind (reads_call rfl) fun r => ?_
    cases r <;> trivial
  · trivial

theorem does_classifyExtractionResult (env : EnvConfig) (k : String) (r : ExtractionResult)
    (uri t b : Option String) (started : Option Timestamp) (m : ExtractMethod) :
    Does (fun op => IsTerminal k .success op ∨ IsIncrement op)
      (classifyExtractionResult env k r uri t b started m) := by
  unfold classifyExtractionResult
  split
  · trivial
  · refine all_bind (reads_getExtractionConfidenceFloor t).does fun floor => ?_
    refine all_bind (reads_tenantHasConfidenceFloor t).does fun hasFloor => ?_
    refine all_bind (reads_getMissingRequiredFields ..).does fun rules => ?_
    unfold classifyAsSuccess
    exact all_bind (reads_getInternalApiResponse ..).does fun _ => does_writeTerminalStatus rfl rfl

end DocumentAi
