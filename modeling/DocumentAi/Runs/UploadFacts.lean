import DocumentAi.Footprint.Exec
import Mathlib.Logic.Relation

/-!
# What an upload records survives the processor's upsert

`insert_minimal_ddb_record` writes the facts of an upload, and `upsert_initial_ddb_record` writes
the same record again once the document is processed. All facts but one are then either left out
of the second request or written with `if_not_exists`. The file name is written again, from the
object's metadata.

| here | there |
| --- | --- |
| `minimalRecord`  | the record `insert_minimal_ddb_record` builds (`pipeline/document_lifecycle.py:161-184`) |
| `uploadFacts`    | the attributes that only the upload knows |
| `Leads w w'`     | any calls of any handlers lead from `w` to `w'` |
| `upsert_keeps_upload_facts` | when the processor's upsert keeps them all |
-/

namespace DocumentAi

open Effect.Prog (Spec All spec_bind spec_tryCatch spec_ite all_bind)
open Dynamo (Targets targets_append targets_nil)

def minimalRecord (record : DocumentRecord) : InitialDdbRecord :=
  { objectKey := record.ddbKey
    originalFileName := record.originalFileName
    userProvidedDocumentCategory := record.category
    processStatus := record.processStatus
    fileSizeBytes := record.fileSizeBytes
    contentType := record.contentType
    jobId := some record.jobId
    systemDocumentId := some record.systemDocumentId
    traceId := record.traceId
    batchId := record.batchId
    externalDocumentId := record.externalDocumentId
    externalSystemId := record.externalSystemId
    aiConsentFlag := record.aiConsentFlag.getD true
    uploadMethod := some record.uploadMethod
    uploadSource := record.uploadSource
    tenantId := some record.tenantId
    apiKeyName := some record.apiKeyName
    isDemo := some record.isDemo
    isTestRun := some record.isTestRun
    isCompare := some record.isCompare
    ttlDays := record.ttlDays }

theorem insertMinimalDdbRecord_eq (env : EnvConfig) (record : DocumentRecord) :
    insertMinimalDdbRecord env record = upsertDdb env (minimalRecord record) := rfl

def uploadFacts : List DocumentMetadata := .originalFileName :: onceAttrs ++ routeAttrs

/-! ## The worlds after the upload -/

def Leads : World → World → Prop :=
  Relation.ReflTransGen fun w w' => ∃ op ch, ∃ ans : sig.Ans op, w.exec op ch = some (ans, w')

section
variable {w w' : World} {k : String} {a : DocumentMetadata}

/-- No call removes an attribute of a record. -/
theorem exec_record_isSome {op : Op} {ch : Choice} {ans : sig.Ans op}
    (hx : w.exec op ch = some (ans, w')) (h : (w.record k a).isSome = true) :
    (w'.record k a).isSome = true := by
  by_cases hop : op.isElsewhere = true
  · rw [record_congr ((exec_frame hx).docs hop)]
    exact h
  · cases op with
    | updateItem j u =>
      rcases exec_updateItem hx with ⟨e, _, rfl⟩ | ⟨new, _, _, hu, rfl⟩
      · exact h
      · by_cases hj : k = j
        · subst hj
          rw [record_setRecord_self]
          exact Dynamo.Update.apply_isSome hu h
        · rw [record_setRecord_ne _ _ hj]
          exact h
    | _ => exact absurd rfl hop

theorem Leads.record_isSome (hl : Leads w w') (h : (w.record k a).isSome = true) :
    (w'.record k a).isSome = true := by
  induction hl with
  | refl => exact h
  | tail _ hx ih =>
    obtain ⟨op, ch, ans, hx⟩ := hx
    exact exec_record_isSome hx ih

end

/-! ## The processor's request -/

/-- The document processor's upsert of the record `k`. -/
def IsProcessorUpsert (env : EnvConfig) (k : String) (op : Op) : Prop :=
  ∃ (doc : FetchedDocument) (selection : Selection) (pre : PreExtraction)
    (response : Option InternalApiResponse) (now : Timestamp), doc.ddbKey = k ∧
      op = .updateItem k (upsertRequest now (initialRecord env doc selection pre response))

/-- A call that writes nothing of the record's identity, or the processor's upsert. -/
def IsProcessorCall (env : EnvConfig) (k : String) (op : Op) : Prop :=
  OnDocsOf False k op ∨ IsProcessorUpsert env k op

section
variable {α : Type} {p : Prog α} {env : EnvConfig} {k : String}

theorem processorCall_of_onDocs (hp : All (OnDocsOf False k) p) : All (IsProcessorCall env k) p :=
  Effect.Prog.All.mono (fun _ => .inl) hp

theorem processorCall_upsertInitialDdbRecord (doc : FetchedDocument) (t : Option String)
    (d : Option Day) (hk : doc.ddbKey = k) :
    All (IsProcessorCall env k) (upsertInitialDdbRecord env doc t d) := by
  unfold upsertInitialDdbRecord
  refine all_bind (processorCall_of_onDocs (reads_selectDocument doc t).quiet.onDocs)
    fun selection => ?_
  refine spec_bind (Q := fun pre => Checked pre.processStatus pre.isIdentityDocument) ?_
    fun pre hpre => ?_
  · exact Effect.Prog.Spec.mono (fun _ h => .inl (.inl h.1)) (fun _ h => h)
      (apart_checkBeforeExtraction ..)
  refine all_bind (processorCall_of_onDocs (reads_initialResponse doc pre).quiet.onDocs)
    fun response => ?_
  refine all_bind ?_ fun _ => ?_
  · refine Effect.Prog.All.mono (fun op h => ?_) (does_upsertDdb env _)
    rcases h with h | ⟨now, h⟩ | h
    · exact .inl (.inl (elsewhere_of_isQuiet h))
    · exact .inr ⟨doc, selection, pre, response, now, hk, hk ▸ h⟩
    · exact .inl (.inr (.aside (hk ▸ h)))
  · split
    · trivial
    next hc =>
      subst hk
      exact all_bind (processorCall_of_onDocs (onDocs_finalizeV1Response
        (isClassified_of_not_continues hpre.initial hc))) fun _ => trivial

theorem processorCall_preclassify (doc : FetchedDocument) (r : Option Record)
    (hk : doc.ddbKey = k) : All (IsProcessorCall env k) (preclassify env doc r) := by
  unfold preclassify
  split
  · trivial
  · refine all_bind (processorCall_upsertInitialDdbRecord doc _ _ hk) fun pre => ?_
    refine all_bind (processorCall_of_onDocs (reads_getDdbRecord _).quiet.onDocs) fun r => ?_
    cases r <;> trivial

/-- Every write of the document processor is one of these. -/
theorem processorCall_processorHandler (key : S3Key) (cold : Bool) :
    All (IsProcessorCall env (basename key.2)) (processorHandler env key cold) := by
  refine spec_tryCatch ?_ fun e => all_bind ?_ fun _ => trivial
  · unfold processorMain
    refine all_bind (processorCall_of_onDocs (onDocs_elsewhere rfl id)) fun t => ?_
    refine spec_bind (Q := fun doc => doc.ddbKey = basename key.2) ?_ fun doc hdoc => ?_
    · exact all_bind (processorCall_of_onDocs (onDocs_elsewhere rfl id)) fun _ => rfl
    · refine all_bind (processorCall_of_onDocs (reads_getDdbRecord _).quiet.onDocs) fun r => ?_
      refine all_bind (processorCall_preclassify doc r hdoc) fun p => ?_
      exact processorCall_of_onDocs (onDocs_dispatchDocumentProcessor env doc p hdoc)
  · refine processorCall_of_onDocs (spec_tryCatch ?_ fun _ => trivial)
    exact all_bind (reads_getDdbRecord _).quiet.onDocs fun _ => onDocs_classifyWith rfl

end

section
variable {env : EnvConfig} {doc : FetchedDocument} {selection : Selection} {pre : PreExtraction}
  {response : Option InternalApiResponse} {a : DocumentMetadata} {now : Timestamp}
  {old new : Record}

theorem ne_initialRecord_fields (ha : a ∈ routeAttrs) :
    Targets (T := DocumentMetadata.schema) (· ≠ a)
      (initialFieldActions (initialRecord env doc selection pre response)) := by
  unfold initialFieldActions
  simp only [routeAttrs, List.mem_cons, List.not_mem_nil, or_false] at ha
  rcases ha with rfl | rfl | rfl | rfl | rfl | rfl
  all_goals
    repeat refine targets_append.2 ⟨?_, ?_⟩
    all_goals first
      | exact targets_ne_setOpt (by decide) _
      | exact targets_nil

/-- The processor's upsert leaves alone what the route alone gives. -/
theorem initialRecord_frame (ha : a ∈ routeAttrs)
    (h : (upsertRequest now (initialRecord env doc selection pre response)).apply old = .ok new) :
    new a = old a := by
  have hne : ∀ {b : DocumentMetadata}, b ∉ routeAttrs → b ≠ a := fun hb e => hb (e ▸ ha)
  refine Dynamo.Update.apply_frame h ?_
  change Targets (T := DocumentMetadata.schema) (· ≠ a) (upsertActions now _)
  rw [upsertActions_eq]
  refine targets_append.2 ⟨targets_append.2 ⟨targets_append.2 ⟨?_, ?_⟩,
    ne_initialRecord_fields ha⟩, ?_⟩
  · rw [Dynamo.targets_ne_iff, map_target_upsertHead]
    intro hm
    have hdisjoint : ∀ b ∈ headTargets, b ∉ routeAttrs := by decide
    exact hdisjoint a hm ha
  · refine targets_append.2 ⟨targets_append.2 ⟨targets_ne_setOpt (hne (by decide)) _, ?_⟩, ?_⟩
    · refine targets_ite (targets_setIfNotExists ?_ (targets_setIfNotExists ?_ targets_nil))
        targets_nil <;> exact hne (by decide)
    · refine targets_setIfNotExists ?_ targets_nil
      exact hne (by decide)
  · exact (targets_upsertEnd _).mono fun b hb e => hb (e ▸ List.mem_append_right _ ha)

/-- After the upsert every fact is what it was exactly when the file name is. -/
theorem initialRecord_facts_iff (hs : ∀ a ∈ onceAttrs, (old a).isSome = true)
    (h : (upsertRequest now (initialRecord env doc selection pre response)).apply old = .ok new) :
    (∀ a ∈ uploadFacts, new a = old a) ↔ old .originalFileName = some doc.originalFileName := by
  have hname : new .originalFileName = some doc.originalFileName :=
    upsertRequest_originalFileName h
  constructor
  · intro hall
    rw [← hall .originalFileName (by decide), hname]
  · intro ho a ha
    rcases List.mem_cons.1 ha with rfl | ha
    · rw [hname, ho]
    rcases List.mem_append.1 ha with ha | ha
    · obtain ⟨v, hv⟩ := Option.isSome_iff_exists.1 (hs a ha)
      rw [hv, upsertRequest_once ha h hv]
    · exact initialRecord_frame ha h

end

/-! ## Run by run -/

section
variable {env : EnvConfig} {record : DocumentRecord} {doc : FetchedDocument}
  {selection : Selection} {pre : PreExtraction} {response : Option InternalApiResponse}
  {now now' : Timestamp} {ch ch' : Choice} {w w₀ w₁ w' : World}

/-- However long after the upload, whatever was called in between and whatever the checks have
decided: the processor's upsert keeps the facts of the upload exactly when the object carries the
recorded file name. -/
theorem upsert_keeps_upload_facts (hk : doc.ddbKey = record.ddbKey)
    (hupload : w.exec (.updateItem record.ddbKey (upsertRequest now (minimalRecord record))) ch =
      some (.ok (), w₀))
    (hl : Leads w₀ w₁)
    (hupsert : w₁.exec (.updateItem doc.ddbKey
      (upsertRequest now' (initialRecord env doc selection pre response))) ch' =
        some (.ok (), w')) :
    (∀ a ∈ uploadFacts, w'.record record.ddbKey a = w₁.record record.ddbKey a) ↔
      w₁.record record.ddbKey .originalFileName = some doc.originalFileName := by
  rcases exec_updateItem hupload with ⟨e, he, _⟩ | ⟨r₀, _, _, hr₀, rfl⟩
  · cases he
  rcases exec_updateItem hupsert with ⟨e, he, _⟩ | ⟨r', _, _, hr', rfl⟩
  · cases he
  rw [hk] at hr' ⊢
  rw [record_setRecord_self]
  refine initialRecord_facts_iff (fun a ha => hl.record_isSome ?_) hr'
  rw [record_setRecord_self]
  exact upsertRequest_isSome ha hr₀

end

/-! ## Two uploads -/

def leaseRecord (filename : String) : DocumentRecord :=
  { ddbKey := "lease-7.pdf"
    originalFileName := filename
    jobId := "7"
    systemDocumentId := "7"
    processStatus := .pendingUpload
    uploadMethod := .presigned
    tenantId := "acme"
    apiKeyName := "intake"
    contentType := some "application/pdf" }

/-- The document of the presigned form for `filename`, as the processor fetches it. -/
def leaseDocument (filename : String) : FetchedDocument :=
  { bucketName := "in"
    objectKey := "acme/lease-7.pdf"
    ddbKey := "lease-7.pdf"
    originalFileName := (truthy (presignedMetadata
      { filename, contentType := "application/pdf" } "7" "t").originalFileName).getD ""
    contentType := "application/pdf"
    fileBytes := ascii "%PDF-1.7"
    category := none
    jobId := some "7"
    traceId := some "t"
    batchId := none
    processorStartedAt := 9
    isColdStart := false }

def leaseEnv : EnvConfig := { documentaiInputLocation := some "s3://in" }

def leaseUpsert (filename : String) : InitialDdbRecord :=
  initialRecord leaseEnv (leaseDocument filename) {} ⟨.notStarted, .success, none, none, false, none⟩ none

theorem leaseUpsert_originalFileName (filename : String) :
    (leaseUpsert filename).originalFileName = sanitizeForS3Metadata filename := by
  simp only [leaseUpsert, initialRecord, leaseDocument, presignedMetadata, truthy_getD,
    Option.getD_some]

/-- The upload's `SET`, then the processor's. -/
theorem exec_lease (filename : String) :
    ∃ w₀ w', (World.exec {} (.updateItem "lease-7.pdf"
        (upsertRequest 5 (minimalRecord (leaseRecord filename)))) {} = some (.ok (), w₀)) ∧
      w₀.exec (.updateItem "lease-7.pdf" (upsertRequest 9 (leaseUpsert filename))) {} =
        some (.ok (), w') ∧
      w₀.record "lease-7.pdf" .originalFileName = some filename ∧
      w'.record "lease-7.pdf" .originalFileName =
        some (sanitizeForS3Metadata filename) := by
  obtain ⟨r₀, h₀⟩ := apply_of_noPath (u := upsertRequest 5 (minimalRecord (leaseRecord filename)))
    (noPath_upsertActions 5 _) (World.record {} "lease-7.pdf") rfl
  have hx₀ : World.exec {} (.updateItem "lease-7.pdf" _) {} = _ := exec_updateItem_ok rfl h₀
  obtain ⟨r', h'⟩ := apply_of_noPath (u := upsertRequest 9 (leaseUpsert filename))
    (noPath_upsertActions 9 _) ((World.setRecord {} "lease-7.pdf" r₀).record "lease-7.pdf") rfl
  have hx' : World.exec _ (.updateItem "lease-7.pdf" _) {} = _ := exec_updateItem_ok rfl h'
  refine ⟨_, _, hx₀, hx', ?_, ?_⟩
  · rw [record_setRecord_self]
    exact upsertRequest_originalFileName h₀
  · have hname : r' .originalFileName = some (leaseUpsert filename).originalFileName :=
      upsertRequest_originalFileName h'
    rw [record_setRecord_self, hname, leaseUpsert_originalFileName]

theorem upsert_keeps_upload_facts_lease :
    ∃ w₀ w', (World.exec {} (.updateItem "lease-7.pdf"
        (upsertRequest 5 (minimalRecord (leaseRecord "lease.pdf")))) {} = some (.ok (), w₀)) ∧
      w₀.exec (.updateItem "lease-7.pdf" (upsertRequest 9 (leaseUpsert "lease.pdf"))) {} =
        some (.ok (), w') ∧
      ∀ a ∈ uploadFacts, w'.record "lease-7.pdf" a = w₀.record "lease-7.pdf" a := by
  obtain ⟨w₀, w', h₀, h', hname, _⟩ := exec_lease "lease.pdf"
  refine ⟨w₀, w', h₀, h', ?_⟩
  have hk : (leaseDocument "lease.pdf").ddbKey = (leaseRecord "lease.pdf").ddbKey := rfl
  refine (upsert_keeps_upload_facts hk h₀ .refl h').2 ?_
  exact hname.trans (congrArg some (by decide))

/-- A blank in the name: the presigned form has encoded it, and nothing decodes it. -/
theorem upsert_loses_file_name :
    ∃ w₀ w', (World.exec {} (.updateItem "lease-7.pdf"
        (upsertRequest 5 (minimalRecord (leaseRecord "my lease.pdf")))) {} = some (.ok (), w₀)) ∧
      w₀.exec (.updateItem "lease-7.pdf" (upsertRequest 9 (leaseUpsert "my lease.pdf"))) {} =
        some (.ok (), w') ∧
      w₀.record "lease-7.pdf" .originalFileName = some "my lease.pdf" ∧
      w'.record "lease-7.pdf" .originalFileName = some "my%20lease.pdf" := by
  obtain ⟨w₀, w', h₀, h', hname, hname'⟩ := exec_lease "my lease.pdf"
  exact ⟨w₀, w', h₀, h', hname, hname'.trans (congrArg some (by decide))⟩

end DocumentAi
