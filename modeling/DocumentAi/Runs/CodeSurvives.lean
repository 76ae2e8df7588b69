import DocumentAi.Footprint.Requests
import DocumentAi.Lib.Sequential
import DocumentAi.Runs.TerminalStatus

/-!
# The classification's code and the stored response

Each classification puts a code into its internal response and stores a v1 response that is built
from the status alone. The two agree through the table of terminal statuses; two classifications
write a status for which the table has another answer or none.

| here | meaning |
| --- | --- |
| `Classification` | one call of a `classify_*` function (`classifiers/document_classification.py`); `classify_as_success` with the code its only caller passes |
| `Refines c o`    | `o` is the code `c` or a refinement of it |
| `Stores op resp` | the request stores `resp` as `v1ApiResponseJson` |
| `Built s resp`   | `resp` is an answer that `build_v1_api_response` gives for the status `s` |
-/

namespace DocumentAi

open Effect.Prog (Spec All spec_bind spec_tryCatch all_bind)

/-! ## Classifications -/

inductive Classification where
  | success (data : ClassificationData) (method : ExtractMethod) (d : SuccessDetails)
      (batchId : Option String) (result : ExtractionResult)
  | extractionResult (result : ExtractionResult) (outputUri tenantId batchId : Option String)
      (startedAt : Option Timestamp) (method : ExtractMethod)
  | failed (errorMessage : String) (data : ClassificationData) (batchId : Option String)
      (startedAt : Option Timestamp)
  | notImplemented (data : ClassificationData) (batchId : Option String)
  | noDocumentDetected (data : ClassificationData) (batchId : Option String)
      (startedAt : Option Timestamp) (method : ExtractMethod)
  | aiConsentDeclined (batchId : Option String)
  | conversionFailed (errorMessage : String) (batchId : Option String)
  | noCustomBlueprintMatched (data : ClassificationData) (batchId : Option String)
      (startedAt : Option Timestamp) (method : ExtractMethod)
  | extractionNotConfigured (data : ClassificationData) (batchId : Option String)
  | multipleDocumentsOnPage (data : ClassificationData) (batchId : Option String)
  | multipleDocumentsInMultipage (data : ClassificationData) (batchId : Option String)

namespace Classification

def body (env : EnvConfig) (key : String) : Classification → Prog Unit
  | success data m d b result             => classifyAsSuccess env key .success data m d b result
  | extractionResult result uri t b s m   => classifyExtractionResult env key result uri t b s m
  | failed message data b s               => classifyAsFailed env key message data b s
  | notImplemented data b                 => classifyAsNotImplemented env key data b
  | noDocumentDetected data b s m         => classifyAsNoDocumentDetected env key data b s m
  | aiConsentDeclined b                   => classifyAsAiConsentDeclined env key b
  | conversionFailed message b            => classifyAsConversionFailed env key message b
  | noCustomBlueprintMatched data b s m   => classifyAsNoCustomBlueprintMatched env key data b s m
  | extractionNotConfigured data b        => classifyAsExtractionNotConfigured env key data b
  | multipleDocumentsOnPage data b        => classifyAsMultipleDocumentsOnPage env key data b
  | multipleDocumentsInMultipage data b   => classifyAsMultipleDocumentsInMultipage env key data b

/-- The status written and the code of the internal response. -/
def verdict : Classification → ProcessStatus × ResponseCode
  | success .. | extractionResult .. => (.success, .success)
  | failed ..                        => (.failed, .internalProcessingError)
  | notImplemented ..                => (.success, .noBlueprintMatched)
  | noDocumentDetected ..            => (.noDocumentDetected, .noDocumentDetected)
  | aiConsentDeclined ..             => (.aiConsentDeclined, .aiConsentDeclined)
  | conversionFailed ..              => (.conversionFailed, .internalProcessingError)
  | noCustomBlueprintMatched ..      => (.noCustomBlueprintMatched, .noBlueprintMatched)
  | extractionNotConfigured ..       => (.excludedPerPreclassification, .skippedPerPreclassification)
  | multipleDocumentsOnPage ..       => (.multipleDocumentsOnSinglePage, .multipleDocumentsOnSinglePage)
  | multipleDocumentsInMultipage ..  => (.multipleDocumentsInMultipage, .multipleDocumentsInMultipage)

/-- The document was extracted. -/
def isExtracted : Classification → Bool
  | success .. | extractionResult .. => true
  | _ => false

/-- Too large or unreadable for the extraction, or left out of it after preclassification. -/
def isLeftOut : Classification → Bool
  | notImplemented .. | extractionNotConfigured .. => true
  | _ => false

end Classification

/-! ## What the client should be told -/

/-- The code survives, or is refined as the rules, the category and the floor say. -/
def Refines (c : ResponseCode) (o : Option ResponseCode) : Prop :=
  o = some c ∨
    (c = .success ∧ (o = some .missingFields ∨ o = some .miscategorized ∨
      o = some .lowExtractionConfidence)) ∨
    (c = .noBlueprintMatched ∧ o = some .miscategorized)

/-- The code and the message of a successful extraction. -/
def V1ApiResponse.AsExtracted (resp : V1ApiResponse) : Prop :=
  Refines .success resp.responseCode ∧ resp.message = some "Document processed successfully"

def CodeSurvives (c : Classification) (resp : V1ApiResponse) : Prop :=
  Refines c.verdict.2 resp.responseCode ∧ (c.isExtracted = false → ¬ resp.AsExtracted)

def Stores (op : Op) (resp : V1ApiResponse) : Prop :=
  ∃ key u, op = .updateItem key u ∧ responseWrite u = some resp

/-! ## The answers to a status -/

/-- The answer to a status, whatever the record, the rules and the details are. -/
inductive Built : ProcessStatus → V1ApiResponse → Prop where
  | success (r : Record) (fields : List (String × FieldEntry)) (missing : List String) :
      Built .success (successResponse r fields missing)
  | terminal {s : ProcessStatus} {t : TerminalResponse} (r : Record) (info error : Option String)
      (hs : s ≠ .success) (ht : terminalStatusResponses s = some t) :
      Built s (terminalResponse r s t info error)
  | processing {s : ProcessStatus} (r : Record) (hs : s ≠ .success)
      (ht : terminalStatusResponses s = none) :
      Built s { baseResponse r with message := some "Document processing in progress" }

theorem built_buildV1ApiResponse (env : EnvConfig) (k : String) (s : ProcessStatus)
    (d : Option ClassificationData) (e : Option String) (x g : Bool) :
    Spec (fun (op : Op) => op.isQuiet = true) (Built s) (buildV1ApiResponse env k s d e x g) := by
  unfold buildV1ApiResponse
  refine all_bind (reads_getDdbRecord k).quiet fun r => ?_
  cases r with
  | none => trivial
  | some r =>
    dsimp only
    split
    next hs =>
      refine all_bind (reads_extractFieldValues ..).quiet fun fields => ?_
      refine all_bind (reads_applyRulesOrKeep ..).quiet fun res => ?_
      subst hs
      exact .success r res.1 res.2
    next hs =>
      split
      next t ht => exact .terminal r _ e hs ht
      next ht => exact .processing r hs ht

theorem refines_successResponse (r : Record) (fields : List (String × FieldEntry))
    (missing : List String) : Refines .success (successResponse r fields missing).responseCode := by
  simp only [successResponse, resolveResponseCode, if_true]
  split
  · exact .inr (.inl ⟨rfl, .inl rfl⟩)
  · split
    · exact .inr (.inl ⟨rfl, .inr (.inl rfl)⟩)
    · split
      · exact .inr (.inl ⟨rfl, .inr (.inr rfl)⟩)
      · exact .inl rfl

/-- A successful extraction is answered as one. -/
theorem asExtracted_successResponse (r : Record) (fields : List (String × FieldEntry))
    (missing : List String) : (successResponse r fields missing).AsExtracted :=
  ⟨refines_successResponse r fields missing, rfl⟩

theorem terminal_message_ne {s : ProcessStatus} {t : TerminalResponse}
    (h : terminalStatusResponses s = some t) : t.message ≠ "Document processed successfully" := by
  cases s <;> simp only [terminalStatusResponses, Option.some.injEq, reduceCtorEq] at h <;>
    subst h <;> decide

theorem not_asExtracted_terminal {s : ProcessStatus} {t : TerminalResponse}
    (h : terminalStatusResponses s = some t) (r : Record) (info error : Option String) :
    ¬ (terminalResponse r s t info error).AsExtracted := fun hx =>
  terminal_message_ne h (Option.some.inj hx.2)

/-- The code of the table, unless a document without a blueprint was miscategorized. -/
theorem responseCode_terminal {s : ProcessStatus} {t : TerminalResponse} (hs : s ≠ .success)
    (h : terminalStatusResponses s = some t) (r : Record) (info error : Option String) :
    (terminalResponse r s t info error).responseCode = t.responseCode ∨
      (s = .noCustomBlueprintMatched ∧
        (terminalResponse r s t info error).responseCode = some .miscategorized) := by
  simp only [terminalResponse, resolveResponseCode, if_neg hs]
  split
  next hc => exact .inr ⟨hc.1, rfl⟩
  next =>
    refine .inl ?_
    rw [h, Option.bind_some]
    cases t.responseCode <;> rfl

/-- The codes of the statuses that the table answers are those the classifications use. -/
theorem table_code {c : Classification} (hc : c.isLeftOut = false) (hx : c.isExtracted = false) :
    ∃ t, terminalStatusResponses c.verdict.1 = some t ∧ t.responseCode = some c.verdict.2 := by
  cases c with
  | success => cases hx
  | extractionResult => cases hx
  | notImplemented => cases hc
  | extractionNotConfigured => cases hc
  | _ => exact ⟨_, rfl, rfl⟩

/-- **An answer to the classification's status keeps its code exactly when** the classification is
neither of the two that leave a document out of the extraction. -/
theorem codeSurvives_built {c : Classification} {resp : V1ApiResponse} (h : Built c.verdict.1 resp) :
    CodeSurvives c resp ↔ c.isLeftOut = false := by
  cases hx : c.isExtracted with
  | true =>
    cases c with
    | success =>
      cases h with
      | success r fields missing =>
        exact iff_of_true ⟨refines_successResponse r fields missing, fun hf => by cases hf⟩ rfl
      | terminal _ _ _ hs => exact absurd rfl hs
      | processing _ hs => exact absurd rfl hs
    | extractionResult =>
      cases h with
      | success r fields missing =>
        exact iff_of_true ⟨refines_successResponse r fields missing, fun hf => by cases hf⟩ rfl
      | terminal _ _ _ hs => exact absurd rfl hs
      | processing _ hs => exact absurd rfl hs
    | _ => cases hx
  | false =>
    cases hc : c.isLeftOut with
    | false =>
      refine iff_of_true ?_ rfl
      obtain ⟨t, ht, hcode⟩ := table_code hc hx
      generalize c.verdict.1 = s at h ht
      cases h with
      | success => cases ht
      | terminal r info error hs ht' =>
        obtain rfl := Option.some.inj (ht.symm.trans ht')
        refine ⟨?_, fun _ => not_asExtracted_terminal ht r info error⟩
        rcases responseCode_terminal hs ht r info error with heq | ⟨hnone, heq⟩
        · exact .inl (heq.trans hcode)
        · have hnb : c.verdict.2 = .noBlueprintMatched := by
            rw [hnone] at ht
            cases ht
            exact (Option.some.inj hcode).symm
          exact .inr (.inr ⟨hnb, heq⟩)
      | processing _ _ ht' =>
        rw [ht] at ht'
        cases ht'
    | true =>
      refine iff_of_false (fun hs => ?_) (by decide)
      cases c with
      | notImplemented =>
        cases h with
        | success r fields missing => exact hs.2 rfl (asExtracted_successResponse r fields missing)
        | terminal _ _ _ hne => exact absurd rfl hne
        | processing _ hne => exact absurd rfl hne
      | extractionNotConfigured =>
        cases h with
        | terminal _ _ _ _ ht => cases ht
        | processing r =>
          rcases hs.1 with hcode | ⟨hcode, -⟩ | ⟨hcode, -⟩
          · cases hcode
          · cases hcode
          · cases hcode
      | _ => cases hc

/-! ## What a classification stores -/

/-- Every stored response is an answer to the status `s`. -/
def StoresAnswersTo (s : ProcessStatus) (op : Op) : Prop := ∀ resp, Stores op resp → Built s resp

section
variable {s : ProcessStatus} {op : Op}

theorem storesAnswers_of_none (h : ∀ key u, op = .updateItem key u → responseWrite u = none) :
    StoresAnswersTo s op := by
  rintro resp ⟨key, u, rfl, hu⟩
  rw [h key u rfl] at hu
  cases hu

theorem storesAnswers_of_quiet (h : op.isQuiet = true) : StoresAnswersTo s op :=
  storesAnswers_of_none fun key u hop => by
    subst hop
    cases h

theorem storesAnswers_of_batchWrite (h : IsBatchWrite op) : StoresAnswersTo s op :=
  storesAnswers_of_none fun key u hop => by
    subst hop
    cases h

theorem storesAnswers_of_update {env : EnvConfig} {data : UpdateDdbRecord} {c : Option Cond}
    (h : IsUpdateOf env data c op) : StoresAnswersTo s op := by
  obtain ⟨now, timing, ht, rfl⟩ := h
  refine storesAnswers_of_none fun key u hop => ?_
  cases hop
  exact (writes_updateRequest ht).response

theorem storesAnswers_of_aside {k : String} (h : IsAside k op) : StoresAnswersTo s op := by
  obtain ⟨u, hu, rfl⟩ := h
  refine storesAnswers_of_none fun key u' hop => ?_
  cases hop
  exact Dynamo.lastSet_eq_none fun x hx hv => hu x hx (hv ▸ by decide)

theorem storesAnswers_of_response {key : String} {resp : V1ApiResponse} (h : Built s resp) :
    StoresAnswersTo s (.updateItem key (responseRequest resp)) := by
  rintro resp' ⟨key', u, hop, hu⟩
  cases hop
  rw [(writes_responseRequest resp).response] at hu
  cases hu
  exact h

end

section
variable {env : EnvConfig} {s : ProcessStatus}

theorem stores_call {op : Op} (h : StoresAnswersTo s op) : All (StoresAnswersTo s) (call op) :=
  Effect.Prog.all_perform h

theorem stores_of_quiet {α : Type} {p : Prog α} (h : Quiet p) : All (StoresAnswersTo s) p :=
  Effect.Prog.All.mono (fun _ => storesAnswers_of_quiet) h

theorem stores_finalizeV1Response (k : String) (d : Option ClassificationData) (e : Option String) :
    All (StoresAnswersTo s) (finalizeV1Response env k s d e) := by
  unfold finalizeV1Response
  refine spec_bind (Effect.Prog.Spec.mono (fun _ => storesAnswers_of_quiet) (fun _ h => h)
    (built_buildV1ApiResponse env k s d e false false)) fun resp hresp => ?_
  exact stores_call (storesAnswers_of_response hresp)

theorem stores_of_does {α : Type} {φ : Op → Prop} {p : Prog α} (h : Does φ p)
    (hφ : ∀ op, φ op → StoresAnswersTo s op) : All (StoresAnswersTo s) p :=
  Effect.Prog.All.mono (fun op ho => ho.elim storesAnswers_of_quiet (hφ op)) h

theorem stores_writeMethodResponse (record : UpdateDdbRecord) (result : Option ExtractionResult)
    (m : Option ExtractMethod) : All (StoresAnswersTo s) (writeMethodResponse env record result m) := by
  unfold writeMethodResponse
  split
  · trivial
  · exact stores_of_does (makes_writeExtractMethodResponse ..).does fun _ h =>
      storesAnswers_of_aside (h.aside (by decide))

theorem stores_writeTerminalStatus {record : UpdateDdbRecord} (hs : record.status = s)
    (b : Option String) (result : Option ExtractionResult) (m : Option ExtractMethod) :
    All (StoresAnswersTo s) (writeTerminalStatus env record b result m) := by
  subst hs
  unfold writeTerminalStatus
  split
  · exact stores_writeMethodResponse record result m
  · refine all_bind ?_ fun applied => ?_
    · unfold writeStatusUnlessTerminal
      refine spec_tryCatch (all_bind (stores_of_does (does_updateDdb ..)
        fun _ => storesAnswers_of_update) fun _ => trivial) fun e => ?_
      split <;> trivial
    · split
      · refine all_bind (stores_finalizeV1Response ..) fun _ => ?_
        refine all_bind (stores_of_does (makes_incrementIfBatch b).does fun op h =>
          storesAnswers_of_batchWrite h.isBatchWrite) fun _ => ?_
        exact stores_writeMethodResponse record result m
      · trivial

theorem stores_classifyWith (v : Verdict) (k : String) (d : Option ClassificationData)
    (b e : Option String) (t : Option Timestamp) :
    All (StoresAnswersTo v.status) (classifyWith env v k d b e t) := by
  unfold classifyWith
  refine all_bind (stores_of_quiet (reads_getInternalApiResponse ..).quiet) fun response => ?_
  refine stores_writeTerminalStatus ?_ b none v.method
  rfl

theorem stores_classifyAsSuccess (k : String) (c : ResponseCode) (data : ClassificationData)
    (m : ExtractMethod) (d : SuccessDetails) (b : Option String) (result : ExtractionResult) :
    All (StoresAnswersTo .success) (classifyAsSuccess env k c data m d b result) := by
  unfold classifyAsSuccess
  refine all_bind (stores_of_quiet (reads_getInternalApiResponse ..).quiet) fun response => ?_
  refine stores_writeTerminalStatus ?_ b (some result) (some m)
  rfl

theorem stores_classifyExtractionResult (k : String) (result : ExtractionResult)
    (uri t b : Option String) (started : Option Timestamp) (m : ExtractMethod) :
    All (StoresAnswersTo .success) (classifyExtractionResult env k result uri t b started m) := by
  unfold classifyExtractionResult
  split
  · trivial
  · refine all_bind (stores_of_quiet (reads_getExtractionConfidenceFloor t).quiet) fun floor => ?_
    refine all_bind (stores_of_quiet (reads_tenantHasConfidenceFloor t).quiet) fun hasFloor => ?_
    refine all_bind (stores_of_quiet (reads_getMissingRequiredFields ..).quiet) fun rules => ?_
    exact stores_classifyAsSuccess ..

variable (env) in
theorem stores_body (k : String) (c : Classification) :
    All (StoresAnswersTo c.verdict.1) (c.body env k) := by
  cases c with
  | success => exact stores_classifyAsSuccess ..
  | extractionResult => exact stores_classifyExtractionResult ..
  | failed => exact stores_classifyWith ⟨.failed, .internalProcessingError, none⟩ ..
  | notImplemented => exact stores_classifyWith ⟨.success, .noBlueprintMatched, none⟩ ..
  | noDocumentDetected => exact stores_classifyWith ⟨.noDocumentDetected, .noDocumentDetected, some _⟩ ..
  | aiConsentDeclined => exact stores_classifyWith ⟨.aiConsentDeclined, .aiConsentDeclined, none⟩ ..
  | conversionFailed => exact stores_classifyWith ⟨.conversionFailed, .internalProcessingError, none⟩ ..
  | noCustomBlueprintMatched => exact stores_classifyWith ⟨.noCustomBlueprintMatched, .noBlueprintMatched, some _⟩ ..
  | extractionNotConfigured => exact stores_classifyWith ⟨.excludedPerPreclassification, .skippedPerPreclassification, none⟩ ..
  | multipleDocumentsOnPage => exact stores_classifyWith ⟨.multipleDocumentsOnSinglePage, .multipleDocumentsOnSinglePage, none⟩ ..
  | multipleDocumentsInMultipage => exact stores_classifyWith ⟨.multipleDocumentsInMultipage, .multipleDocumentsInMultipage, none⟩ ..

end

/-- **The classification's code survives to the client** in every response that the call stores,
whatever its calls are answered, exactly when the document is not left out of the extraction. -/
theorem codeSurvives_iff (env : EnvConfig) (key : String) (c : Classification) :
    All (fun op => ∀ resp, Stores op resp → (CodeSurvives c resp ↔ c.isLeftOut = false))
      (c.body env key) :=
  Effect.Prog.All.mono (fun _ h resp hs => codeSurvives_built (h resp hs)) (stores_body env key c)

/-! ## A file that is too large after its conversion -/

def tooLarge : Classification :=
  .notImplemented { additionalInfo := some "File too large after conversion" } none

def storedAnswer (w : World) (k : String) : Option (Option ResponseCode × Option String) :=
  (w.record k).v1ApiResponseJson.map fun resp => (resp.responseCode, resp.message)

set_option maxRecDepth 10000 in
/-- It is answered as a successful extraction. -/
theorem codeSurvives_fails : ∃ tr w' resp,
    Effect.Ends system sampleWorld (tooLarge.body sampleEnv "scan-1.pdf") tr (.ok ()) w' ∧
    (w'.record "scan-1.pdf").v1ApiResponseJson = some resp ∧ resp.responseCode = some .success ∧
    ¬ CodeSurvives tooLarge resp := by
  have hrun : (Effect.follow system sampleWorld (tooLarge.body sampleEnv "scan-1.pdf")
      (List.replicate 6 {})).map (fun x => (x.2.1.result, storedAnswer x.2.2 "scan-1.pdf")) =
      some (some (.ok ()), some (some .success, some "Document processed successfully")) := by
    decide +kernel
  obtain ⟨⟨tr, q, w'⟩, hfollow, hx⟩ := Option.map_eq_some_iff.1 hrun
  obtain ⟨hresult, hstored⟩ := Prod.mk.inj hx
  obtain ⟨resp, hresp, hanswer⟩ := Option.map_eq_some_iff.1 hstored
  obtain ⟨hcode, hmessage⟩ := Prod.mk.inj hanswer
  obtain rfl : q = .ofExcept (.ok ()) := Effect.Prog.eq_ofExcept hresult
  have hends := Effect.steps_of_follow hfollow
  exact ⟨tr, w', resp, hends, hresp, hcode, fun hs => hs.2 rfl ⟨.inl hcode, hmessage⟩⟩

end DocumentAi
