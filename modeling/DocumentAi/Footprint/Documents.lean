import DocumentAi.Footprint.Writes
import DocumentAi.System

/-!
# Footprints of the handlers on the document-metadata table

Every request any handler makes on the table is one of the kinds of `IsDocWrite`.

| here | meaning |
| --- | --- |
| `IsDocWrite k`  | the kinds of requests on the record `k` |
| `OnDocs k`      | a call that leaves the table alone, or one of these requests |
| `body_onSomeDoc` | every entry point makes only such calls |
| `body_routine`   | and all but a batch request write to a batch as an increment only |
-/

namespace DocumentAi

open Effect.Prog (Spec All spec_bind spec_tryCatch spec_perform spec_ite all_bind all_perform
  all_forEach)

/-- The statuses `upsert_initial_ddb_record` and `insert_minimal_ddb_record` write. -/
def ProcessStatus.isInitial (s : ProcessStatus) : Bool :=
  [notStarted, pendingUpload, pendingImageOptimization, passwordProtected, processingExcluded,
    noDocumentDetected, blurryDocumentDetected, multipleDocumentsOnSinglePage,
    multipleDocumentsInMultipage, blueprintDisabled].contains s

def deleteRequest (now : Timestamp) (t : DeletionType) : DocUpdate :=
  { actions := [.set .processStatus ProcessStatus.deleted, .set .deletionType t,
      .set .updatedAt now] }

/-- The statuses the document processor's upsert writes. -/
def ProcessStatus.isPreExtraction (s : ProcessStatus) : Bool := s.isInitial && s != pendingUpload

theorem ProcessStatus.isPreExtraction_cases {s : ProcessStatus} (h : s.isPreExtraction = true) :
    s.isPendingExtraction = true ∨ s.isClassified = true := by
  revert h
  cases s <;> decide

/-- The kinds of requests on the record `k`, upserts among them when `upserts` holds. -/
inductive IsDocWriteOf (upserts : Prop) (k : String) (op : Op) : Prop where
  | upsert (d : InitialDdbRecord) (hk : d.objectKey = k) (hs : d.processStatus.isInitial = true)
      (h : IsUpsertOf d op) (hu : upserts)
  | bdaStart (env : EnvConfig) (data : UpdateDdbRecord) (hk : data.objectKey = k)
      (hs : data.status = .started) (h : IsUpdateOf env data none op)
  | terminal (s : ProcessStatus) (hs : s.isClassified = true) (h : IsTerminal k s op)
  | claim (e : ProcessStatus) (he : e.isClassified = false ∧ e ≠ .started)
      (h : op = .updateItem k (claimRequest e))
  | reap (now : Timestamp) (s : ProcessStatus) (reason : Option String)
      (hs : s = .timedOut ∨ s = .failed) (h : op = .updateItem k (markTerminalRequest now s reason))
  | delete (now : Timestamp) (t : DeletionType) (h : op = .updateItem k (deleteRequest now t))
  | aside (h : IsAside k op)

abbrev IsDocWrite (k : String) (op : Op) : Prop := IsDocWriteOf True k op

/-- A request is an upsert, or of another kind. -/
theorem IsDocWriteOf.upsert_or {ups : Prop} {k : String} {op : Op} (h : IsDocWriteOf ups k op) :
    (∃ d : InitialDdbRecord, d.objectKey = k ∧ IsUpsertOf d op) ∨ IsDocWriteOf False k op := by
  cases h with
  | upsert d hk _ h => exact .inl ⟨d, hk, h⟩
  | bdaStart env data hk hs h => exact .inr (.bdaStart env data hk hs h)
  | terminal s hs h => exact .inr (.terminal s hs h)
  | claim e he h => exact .inr (.claim e he h)
  | reap now s reason hs h => exact .inr (.reap now s reason hs h)
  | delete now t h => exact .inr (.delete now t h)
  | aside h => exact .inr (.aside h)

def Op.isElsewhere : Op → Bool
  | .updateItem .. => false
  | _ => true

/-- A call that leaves the table alone, and writes to a batch as an increment only. -/
def Elsewhere (op : Op) : Prop := op.isElsewhere = true ∧ (IsBatchWrite op → IsIncrement op)

/-- And puts no record on the metrics queue. -/
def Apart (op : Op) : Prop := Elsewhere op ∧ ∀ m, op ≠ .sendMetrics m

def OnDocsOf (upserts : Prop) (k : String) (op : Op) : Prop :=
  Elsewhere op ∨ IsDocWriteOf upserts k op

abbrev OnDocs (k : String) (op : Op) : Prop := OnDocsOf True k op

theorem elsewhere_of_isQuiet {op : Op} (h : op.isQuiet = true) : Elsewhere op := by
  cases op <;> first | exact ⟨rfl, fun h => h.elim⟩ | exact absurd h (by simp [Op.isQuiet])

theorem isElsewhere_of_isBatchWrite {op : Op} (h : IsBatchWrite op) : op.isElsewhere = true := by
  cases op <;> first | rfl | exact h.elim

theorem elsewhere_of_isIncrement {op : Op} (h : IsIncrement op) : Elsewhere op := by
  obtain ⟨b, u, rfl, hu⟩ := h
  exact ⟨rfl, fun _ => ⟨b, u, rfl, hu⟩⟩

theorem apart_of_isRead {op : Op} (h : op.isRead = true) : Apart op := by
  refine ⟨elsewhere_of_isQuiet (isQuiet_of_isRead h), fun m hm => ?_⟩
  subst hm
  cases h

theorem apart_of_isIncrement {op : Op} (h : IsIncrement op) : Apart op := by
  refine ⟨elsewhere_of_isIncrement h, fun m hm => ?_⟩
  subst hm
  exact h.isBatchWrite

variable {ups : Prop}

section
variable {α : Type} {p : Prog α} {k : String} {φ : Op → Prop}

theorem Reads.apart (hp : Reads p) : All Apart p :=
  Effect.Prog.All.mono (fun _ => apart_of_isRead) hp

theorem apart_onDocs {Q : α → Prop} (hp : Spec Apart Q p) : Spec (OnDocsOf ups k) Q p :=
  Effect.Prog.Spec.mono (fun _ h => .inl h.1) (fun _ h => h) hp

theorem Does.onDocs (hp : Does φ p) (h : ∀ op, φ op → OnDocsOf ups k op) : All (OnDocsOf ups k) p :=
  Effect.Prog.Spec.mono (fun op => Or.rec (fun hq => .inl (elsewhere_of_isQuiet hq)) (h op))
    (fun _ ha => ha) hp

theorem Quiet.onDocs (hp : Quiet p) : All (OnDocsOf ups k) p :=
  Effect.Prog.Spec.mono (fun _ hq => .inl (elsewhere_of_isQuiet hq)) (fun _ ha => ha) hp

theorem onDocs_elsewhere {op : Op} (h : op.isElsewhere = true) (hb : ¬ IsBatchWrite op) :
    All (OnDocsOf ups k) (call op) :=
  all_perform (.inl ⟨h, fun h => absurd h hb⟩)

end

theorem onDocs_classifyWith {env : EnvConfig} {v : Verdict} {k : String}
    {d : Option ClassificationData} {b e : Option String} {t : Option Timestamp}
    (hv : v.status.isClassified = true) : All (OnDocsOf ups k) (classifyWith env v k d b e t) :=
  (does_classifyWith ..).onDocs fun _ h => h.elim (fun h => .inr (.terminal _ hv h))
    fun h => .inl (elsewhere_of_isIncrement h)

theorem onDocs_classifyExtractionResult {env : EnvConfig} {k : String} {r : ExtractionResult}
    {uri t b : Option String} {started : Option Timestamp} {m : ExtractMethod} :
    All (OnDocsOf ups k) (classifyExtractionResult env k r uri t b started m) :=
  (does_classifyExtractionResult ..).onDocs fun _ h =>
    h.elim (fun h => .inr (.terminal .success rfl h)) fun h => .inl (elsewhere_of_isIncrement h)

/-! ## Pre-extraction checks -/

/-- An AI request, or one on the counters. -/
theorem apart_call {op : Op} (h : op.isElsewhere = true) (hb : ¬ IsBatchWrite op)
    (hm : ∀ m, op ≠ .sendMetrics m) : All Apart (call op) :=
  all_perform ⟨⟨h, fun h => absurd h hb⟩, hm⟩

theorem apart_ai (c : AiCall) : All Apart (call (.ai c)) :=
  apart_call rfl id fun m h => by cases h

theorem apart_detectBlur (b : Bytes) (c : String) : All Apart (detectBlur b c) := by
  have hq : ∀ qs, All Apart (checkEmptyQuadrants b qs) := by
    intro qs
    induction qs with
    | nil => trivial
    | cons q qs ih =>
      unfold checkEmptyQuadrants
      refine all_bind ?_ fun _ => all_bind ih fun _ => trivial
      exact spec_tryCatch (all_bind (apart_ai _) fun _ => trivial) fun _ => trivial
  unfold detectBlur
  refine spec_ite trivial (spec_tryCatch ?_ fun _ => trivial)
  refine all_bind (apart_ai _) fun words => ?_
  exact spec_ite trivial (all_bind (hq _) fun _ => trivial)

theorem apart_preclassifyDocument (env : EnvConfig) (b : Bytes) (c : String)
    (u : Option String) : All Apart (preclassifyDocument env b c u) := by
  unfold preclassifyDocument
  refine spec_ite trivial (spec_tryCatch (all_bind (apart_ai _) fun r => ?_)
    fun _ => trivial)
  split <;> trivial

theorem apart_findMatchingBlueprint (env : EnvConfig) (b : Bytes) (c : String) :
    All Apart (findMatchingBlueprint env b c) := by
  unfold findMatchingBlueprint
  refine spec_ite trivial (spec_tryCatch (all_bind (apart_ai _) fun r => ?_)
    fun _ => trivial)
  split <;> trivial

theorem apart_getBboxIfEnabled (env : EnvConfig) (b : Bytes) (c : String) :
    All Apart (getBboxIfEnabled env b c) := by
  unfold getBboxIfEnabled
  refine spec_ite (all_bind ?_ fun _ => trivial) trivial
  exact spec_tryCatch (all_bind (apart_ai _) fun _ => trivial) fun _ => trivial

theorem isPreExtraction_extractableStatus (c : String) : (extractableStatus c).isPreExtraction = true := by
  unfold extractableStatus
  split <;> rfl

theorem reads_isBlueprintDisabled (t d : Option String) : Reads (isBlueprintDisabled t d) := by
  unfold isBlueprintDisabled
  split
  · exact all_bind (reads_call rfl) fun _ => trivial
  · trivial

/-- The checks end in a status of theirs, and find an identity document in a pending one only. -/
structure Checked (s : ProcessStatus) (isIdentityDocument : Bool) : Prop where
  initial  : s.isPreExtraction = true
  identity : isIdentityDocument = true → s.isPendingExtraction = true

theorem checked_extractableStatus (c : String) (b : Bool) : Checked (extractableStatus c) b :=
  ⟨isPreExtraction_extractableStatus c, fun _ => isPendingExtraction_extractableStatus c⟩

theorem checked_done {s : ProcessStatus} (h : s.isPreExtraction = true) : Checked s false :=
  ⟨h, fun h => by cases h⟩

theorem apart_runPreclassification (env : EnvConfig) (b : Bytes) (c : String)
    (u : Option String) (n : Option Nat) (t : Option String) :
    Spec Apart (fun o => Checked o.processStatus o.isIdentityDocument)
      (runPreclassification env b c u n t) := by
  unfold runPreclassification
  refine all_bind (spec_tryCatch (apart_findMatchingBlueprint ..) fun _ => trivial) fun m => ?_
  refine all_bind (spec_tryCatch (all_bind (apart_preclassifyDocument ..) fun _ => trivial)
    fun _ => trivial) fun cls => ?_
  cases cls with
  | none => exact checked_extractableStatus c false
  | some cls =>
    refine spec_ite (checked_done rfl) (spec_ite (checked_done rfl)
      (all_bind (reads_isBlueprintDisabled t _).apart fun d => ?_))
    exact spec_ite (checked_done rfl) (checked_extractableStatus c _)

theorem spec_liftExcept {φ : Op → Prop} {α : Type} {Q : α → Prop} {x : Except Exc α}
    (h : ∀ a, x = .ok a → Q a) : Spec φ Q (liftExcept x) := by
  cases x with
  | ok a => exact h a rfl
  | error e => trivial

theorem spec_attempt {φ : Op → Prop} {α : Type} {Q : α → Prop} {p : Prog α}
    (hp : Spec φ Q p) : Spec φ (fun x => ∀ a, x = .ok a → Q a) (attempt p) := by
  refine spec_tryCatch (spec_bind hp fun a ha => ?_) fun e => ?_
  · rintro b ⟨⟩
    exact ha
  · rintro b ⟨⟩

theorem getBlurOutcome_status (env : EnvConfig) (b : Bytes) (c : String) :
    Spec Apart (fun o => ∀ s, o.processStatus = some s → s.isPreExtraction = true)
      (getBlurOutcome env b c) := by
  unfold getBlurOutcome
  refine spec_ite (by rintro s ⟨⟩) (all_bind (apart_detectBlur b c) fun r => ?_)
  refine spec_ite ?_ (spec_ite ?_ ?_)
  · rintro s ⟨⟩; rfl
  · rintro s ⟨⟩; rfl
  · rintro s ⟨⟩

theorem apart_runPreExtraction (env : EnvConfig) (b : Bytes) (c : String) (u : Option String)
    (n : Option Nat) (t : Option String) :
    Spec Apart (fun p => Checked p.processStatus p.isIdentityDocument)
      (runPreExtraction env b c u n t) := by
  unfold runPreExtraction
  refine spec_bind (spec_attempt (getBlurOutcome_status env b c)) fun bf hb => ?_
  refine spec_bind (spec_attempt (apart_runPreclassification env b c u n t)) fun pf hp => ?_
  refine all_bind (apart_getBboxIfEnabled env b c) fun bbox => ?_
  refine spec_bind (spec_liftExcept hb) fun blur hblur => ?_
  refine spec_bind (spec_liftExcept hp) fun pre hpre => ?_
  split
  next s hs => exact checked_done (hblur s hs)
  next => exact hpre

theorem apart_rollback (t : String) (d : Day) : All Apart (rollback t d) := by
  unfold rollback
  refine spec_tryCatch (all_bind (apart_call rfl id fun m h => by cases h) fun _ => trivial) fun e => ?_
  exact spec_ite trivial trivial

theorem apart_incrementIfBatch (b : Option String) : All Apart (incrementIfBatch b) :=
  Effect.Prog.All.mono (fun _ h => h.elim apart_of_isRead apart_of_isIncrement)
    (makes_incrementIfBatch b)

theorem apart_checkBeforeExtraction (env : EnvConfig) (doc : FetchedDocument)
    (t : Option String) (d : Option Day) (s : Selection) :
    Spec Apart (fun p => Checked p.processStatus p.isIdentityDocument)
      (checkBeforeExtraction env doc t d s) := by
  unfold checkBeforeExtraction
  refine spec_ite ?_ (spec_ite ?_ (apart_runPreExtraction ..))
  · exact all_bind (apart_incrementIfBatch _) fun _ => checked_done rfl
  · refine all_bind (apart_call rfl id fun m h => by cases h) fun _ => all_bind ?_ fun _ =>
      all_bind (apart_incrementIfBatch _) fun _ => checked_done rfl
    unfold decrementIfCharged
    split
    · exact apart_rollback ..
    · trivial

theorem reads_selectDocument (doc : FetchedDocument) (t : Option String) :
    Reads (selectDocument doc t) := by
  unfold selectDocument isSelectedForProcessing
  refine spec_ite trivial ?_
  split
  · refine all_bind (reads_call rfl) fun percent => spec_ite trivial ?_
    exact all_bind (reads_call rfl) fun _ => trivial
  · trivial

theorem reads_initialResponse (doc : FetchedDocument) (pre : PreExtraction) :
    Reads (initialResponse doc pre) := by
  unfold initialResponse
  exact spec_ite trivial (all_bind (reads_getInternalApiResponse ..) fun _ => trivial)

section
variable {k : String}

theorem onDocs_upsertDdb {env : EnvConfig} {d : InitialDdbRecord} (hk : d.objectKey = k)
    (hs : d.processStatus.isInitial = true) : All (OnDocs k) (upsertDdb env d) :=
  (does_upsertDdb env d).onDocs fun _ h =>
    .inr (h.elim (fun h => .upsert d hk hs h trivial) fun h => .aside (hk ▸ h))

theorem isClassified_of_not_continues {pre : PreExtraction}
    (hi : pre.processStatus.isPreExtraction = true) (hc : ¬ pre.continues = true) :
    pre.processStatus.isClassified = true := by
  refine (ProcessStatus.isPreExtraction_cases hi).resolve_left fun hp => hc ?_
  simp [PreExtraction.continues, hp]

theorem not_isClassified_of_continues {pre : PreExtraction}
    (hpre : Checked pre.processStatus pre.isIdentityDocument) (hc : pre.continues = true) :
    pre.processStatus.isClassified = false := by
  have hp : pre.processStatus.isPendingExtraction = true := by
    rcases Bool.or_eq_true_iff.1 hc with hp | hi
    · exact hp
    · exact hpre.identity hi
  revert hp
  cases pre.processStatus <;> decide

theorem onDocs_finalizeV1Response {env : EnvConfig} {s : ProcessStatus}
    {d : Option ClassificationData} {e : Option String} (hs : s.isClassified = true) :
    All (OnDocsOf ups k) (finalizeV1Response env k s d e) :=
  (does_finalizeV1Response env k s d e).onDocs fun _ h => .inr (.terminal s hs (.inr (.inl h)))

theorem onDocs_upsertInitialDdbRecord (env : EnvConfig) (doc : FetchedDocument)
    (t : Option String) (d : Option Day) (hk : doc.ddbKey = k) :
    All (OnDocs k) (upsertInitialDdbRecord env doc t d) := by
  unfold upsertInitialDdbRecord
  refine all_bind (reads_selectDocument doc t).quiet.onDocs fun sel => ?_
  refine spec_bind (apart_onDocs (apart_checkBeforeExtraction ..)) fun pre hpre => ?_
  refine all_bind (reads_initialResponse doc pre).quiet.onDocs fun response => ?_
  have hi : pre.processStatus.isInitial = true := (Bool.and_eq_true _ _ ▸ hpre.initial).1
  refine all_bind (onDocs_upsertDdb hk hi) fun _ => ?_
  split
  · trivial
  next hc =>
    subst hk
    exact all_bind (onDocs_finalizeV1Response (isClassified_of_not_continues hpre.initial hc))
      fun _ => trivial

/-! ## Document processor -/

theorem onDocs_preclassify (env : EnvConfig) (doc : FetchedDocument) (r : Option Record)
    (hk : doc.ddbKey = k) : All (OnDocs k) (preclassify env doc r) := by
  unfold preclassify
  split
  · trivial
  · refine all_bind (onDocs_upsertInitialDdbRecord env doc _ _ hk) fun pre => ?_
    refine all_bind (reads_getDdbRecord _).quiet.onDocs fun r => ?_
    cases r <;> trivial

theorem untracked_optimizationActions (c : CropResult) (g : Bool) (n : Option Nat) :
    Untracked (optimizationActions c g n) := by
  unfold optimizationActions
  refine Dynamo.targets_append.2 ⟨Dynamo.targets_append.2 ⟨?_, ?_⟩, targets_setOpt (by decide) _⟩
  · repeat refine Dynamo.targets_append.2 ⟨?_, targets_setOpt (by decide) _⟩
    exact targets_setOpt (by decide) _
  · simp [Dynamo.Action.target, tracked, identityAttrs]

theorem onDocs_persistOptimizationMetrics (c : CropResult) (g : Bool) (n : Option Nat) :
    All (OnDocsOf ups k) (persistOptimizationMetrics k c g n) := by
  unfold persistOptimizationMetrics
  refine all_bind ((does_executeDdbUpdate ⟨_, untracked_optimizationActions c g n, rfl⟩).onDocs
    fun _ h => .inr (.aside h)) fun _ => ?_
  split
  · exact (makes_writeTokensByModel ..).does.onDocs fun _ h => .inr (.aside (h.aside (by decide)))
  · trivial

theorem onDocs_invokeBedrockDataAutomation (env : EnvConfig) (b key t d : String)
    (c : Option String) : All (OnDocsOf ups k) (invokeBedrockDataAutomation env b key t d c) := by
  have hprep : All (OnDocsOf ups k) (prepareBdaInput env b key) := by
    unfold prepareBdaInput
    refine all_bind (onDocs_elsewhere rfl id) fun obj => ?_
    split
    · trivial
    · refine spec_ite ?_ trivial
      exact all_bind (all_liftExcept _) fun _ => all_bind (onDocs_elsewhere rfl id) fun _ => trivial
  unfold invokeBedrockDataAutomation
  refine all_bind (all_liftExcept _) fun arn => ?_
  dsimp only
  split
  · trivial
  · refine all_bind (all_liftExcept _) fun _ => all_bind (all_liftExcept _) fun _ => ?_
    refine all_bind (all_liftExcept _) fun _ => all_bind hprep fun _ => ?_
    exact all_bind (onDocs_elsewhere rfl id) fun _ => trivial

theorem onDocs_bdaAttempt (env : EnvConfig) (b key t : String) (c : Option String) (n : Nat) :
    All (OnDocsOf ups k) (bdaAttempt env b key k t c n) := by
  refine all_bind (onDocs_invokeBedrockDataAutomation ..) fun inv => ?_
  exact (does_updateDdb ..).onDocs fun _ h => .inr (.bdaStart env _ rfl rfl h)

theorem onDocs_bdaAttempts (env : EnvConfig) (b key t : String) (c : Option String) (m : Nat) :
    ∀ n, All (OnDocsOf ups k) (bdaAttempts env b key k t c m n) := by
  induction m with
  | zero =>
    intro n
    exact spec_tryCatch (onDocs_bdaAttempt ..) fun e => spec_ite trivial trivial
  | succ m ih =>
    intro n
    refine all_bind (spec_tryCatch (all_bind (onDocs_bdaAttempt ..) fun _ => trivial) fun e =>
      spec_ite trivial trivial) fun retry => spec_ite (ih _) trivial

theorem onDocs_invokeBda (env : EnvConfig) (b key t : String) (c batch : Option String) :
    All (OnDocsOf ups k) (invokeBda env b key k t c batch) := by
  refine spec_tryCatch (onDocs_bdaAttempts ..) fun e => ?_
  split
  · exact all_bind (onDocs_classifyWith rfl) fun _ => trivial
  · trivial

theorem onDocs_optimizeS3Image (env : EnvConfig) (key : S3Key) (g : Bool) (b : Bytes)
    (c : String) (box : Option BboxResult) :
    All (OnDocsOf ups k) (optimizeS3Image env key g b c box) := by
  unfold optimizeS3Image
  refine all_bind ?_ fun r => all_bind (spec_ite (onDocs_elsewhere rfl id) trivial) fun _ => trivial
  unfold bboxFor
  refine spec_ite ?_ trivial
  split
  · trivial
  · exact apart_onDocs (apart_getBboxIfEnabled ..)

theorem onDocs_invokeBdaPath (env : EnvConfig) (d : Dispatch) (hk : d.doc.ddbKey = k) :
    All (OnDocsOf ups k) (invokeBdaPath env d) := by
  subst hk
  unfold invokeBdaPath
  refine all_bind (onDocs_optimizeS3Image ..) fun opt => spec_ite ?_ ?_
  · exact all_bind (onDocs_persistOptimizationMetrics ..) fun _ => onDocs_classifyWith rfl
  · refine all_bind (onDocs_persistOptimizationMetrics ..) fun _ => ?_
    refine spec_ite (onDocs_classifyWith rfl) (all_bind (all_liftExcept _) fun arn => ?_)
    exact spec_ite (onDocs_classifyWith rfl) (onDocs_invokeBda ..)

theorem quiet_extractionStart (r : Option Record) : Quiet (extractionStart r) := by
  unfold extractionStart
  split
  · trivial
  · exact quiet_call rfl

theorem onDocs_writeExtractionOutput (env : EnvConfig) (t : String) (m : ExtractMethod)
    (n : String) (b : Body) (c : Option String) :
    All (OnDocsOf ups k) (writeExtractionOutput env t m n b c) := by
  unfold writeExtractionOutput
  refine spec_ite trivial (all_bind (all_liftExcept _) fun _ => ?_)
  exact all_bind (all_liftExcept _) fun _ => all_bind (onDocs_elsewhere rfl id) fun _ => trivial

theorem onDocs_runTextractPipeline (env : EnvConfig) (c : String) (bytes : Bytes) (t : String)
    (b : Option String) : All (OnDocsOf ups k) (runTextractPipeline env k c bytes t b) := by
  have hanalyze : All (OnDocsOf ups k) (analyzeIdentity bytes k) := by
    refine spec_tryCatch ?_ fun _ => trivial
    refine all_bind (reads_getDdbRecord k).quiet.onDocs fun r => all_bind (quiet_extractionStart r).onDocs fun _ => ?_
    exact all_bind (onDocs_elsewhere rfl id) fun _ => all_bind (onDocs_elsewhere rfl id) fun _ => trivial
  have hsupplement : ∀ r d f, All (OnDocsOf ups k) (supplementFields env r d bytes f) := by
    intro r d f
    unfold supplementFields
    split
    · trivial
    · refine spec_ite trivial (spec_tryCatch ?_ fun _ => trivial)
      exact all_bind (onDocs_elsewhere rfl id) fun _ => trivial
  have hextract : All (OnDocsOf ups k) (extractTextractIdentity env c bytes k) := by
    unfold extractTextractIdentity
    refine spec_ite trivial (all_bind hanalyze fun r => ?_)
    split
    · trivial
    · split
      · trivial
      · refine spec_ite trivial (all_bind (hsupplement ..) fun _ => all_bind ?_ fun _ => trivial)
        exact (does_setExtractMethod ..).onDocs fun _ h => .inr (.aside h)
  have hprocess : ∀ r, Spec (OnDocsOf ups k) (fun p => p.objectKey = k)
      (processTextractResult env k r (some t) b) := by
    intro r
    unfold processTextractResult resolveTenant
    refine all_bind ?_ fun tenant => ?_
    · split
      · trivial
      · exact all_bind (reads_getDdbRecord k).quiet.onDocs fun _ => trivial
    · split
      · trivial
      · exact all_bind (onDocs_writeExtractionOutput ..) fun _ => rfl
  unfold runTextractPipeline
  refine all_bind hextract fun r => ?_
  split
  · trivial
  · refine spec_bind (hprocess _) fun p hp => all_bind (spec_tryCatch ?_ fun _ => trivial)
      fun _ => trivial
    rw [hp]
    exact onDocs_classifyExtractionResult

theorem onDocs_invokeOcrMappingPath (env : EnvConfig) (d : Dispatch) :
    All (OnDocsOf ups k) (invokeOcrMappingPath env d) := by
  unfold invokeOcrMappingPath
  split
  · trivial
  · refine spec_ite trivial (spec_tryCatch ?_ fun _ => trivial)
    split
    · trivial
    · refine all_bind (all_liftExcept _) fun loc => all_bind (all_liftExcept _) fun _ => ?_
      refine all_bind (onDocs_elsewhere rfl id) fun _ => all_bind (onDocs_elsewhere rfl id) fun _ => ?_
      exact spec_ite (onDocs_elsewhere rfl id) trivial

theorem onDocs_extractClaimed (env : EnvConfig) (d : Dispatch) (hk : d.doc.ddbKey = k) :
    All (OnDocsOf ups k) (extractClaimed env d) := by
  refine all_bind (onDocs_invokeOcrMappingPath env d) fun _ => all_bind ?_ fun handled =>
    spec_ite trivial (onDocs_invokeBdaPath env d hk)
  refine spec_ite trivial (spec_tryCatch ?_ fun _ => trivial)
  rw [hk]
  exact onDocs_runTextractPipeline ..

theorem onDocs_rejectIfNotNative (env : EnvConfig) (doc : FetchedDocument)
    (hk : doc.ddbKey = k) : All (OnDocsOf ups k) (rejectIfNotNative env doc) := by
  have hvalidate : ∀ key, All (OnDocsOf ups k) (validateS3ObjectIsBdaNative env key) := by
    intro key
    unfold validateS3ObjectIsBdaNative detectionData
    refine all_bind (onDocs_elsewhere rfl id) fun header => all_bind (spec_ite ?_ trivial) fun _ =>
      spec_ite trivial trivial
    exact all_bind (onDocs_elsewhere rfl id) fun _ => trivial
  unfold rejectIfNotNative
  refine all_bind (spec_tryCatch (all_bind (hvalidate _) fun _ => trivial) fun e => ?_)
    fun rejection => ?_
  · split <;> trivial
  · subst hk
    split
    · trivial
    · exact all_bind (onDocs_classifyWith rfl) fun _ => trivial

theorem spec_setProcessingStatusStarted (k : String) (e : ProcessStatus) :
    Does (· = .updateItem k (claimRequest e)) (setProcessingStatusStarted k e) := by
  refine spec_tryCatch (all_bind (does_call rfl) fun _ => trivial) fun e => spec_ite trivial trivial

theorem dispatchGrayscale_eq_some {s : Option ProcessStatus} {g : Bool}
    (h : dispatchGrayscale s = some g) :
    ∃ e, s = some e ∧ e.isClassified = false ∧ e ≠ .started := by
  cases s with
  | none => simp [dispatchGrayscale] at h
  | some e =>
    refine ⟨e, rfl, ?_⟩
    revert h
    cases e <;> simp [dispatchGrayscale, ProcessStatus.isAwaitingProcessing,
      ProcessStatus.isClassified]

theorem onDocs_dispatchDocumentProcessor (env : EnvConfig) (doc : FetchedDocument)
    (p : PreclassifyResult) (hk : doc.ddbKey = k) :
    All (OnDocsOf ups k) (dispatchDocumentProcessor env doc p) := by
  unfold dispatchDocumentProcessor
  refine spec_ite (hk ▸ onDocs_classifyWith rfl) ?_
  split
  next e g hs hg =>
    obtain ⟨e', he', hc⟩ := dispatchGrayscale_eq_some hg
    obtain rfl : e = e' := Option.some.inj (hs.symm.trans he')
    refine all_bind (onDocs_rejectIfNotNative env doc hk) fun rejected => spec_ite trivial ?_
    subst hk
    split
    · exact onDocs_classifyWith rfl
    · refine all_bind ((spec_setProcessingStatusStarted ..).onDocs fun _ h =>
        .inr (.claim e hc h)) fun claimed => spec_ite (onDocs_extractClaimed env _ rfl) trivial
  · trivial

theorem onDocs_processorMain (env : EnvConfig) (key : S3Key) (cold : Bool) :
    All (OnDocs (basename key.2)) (processorMain env key cold) := by
  unfold processorMain
  refine all_bind (onDocs_elsewhere rfl id) fun t => ?_
  refine spec_bind (Q := fun doc => doc.ddbKey = basename key.2) ?_ fun doc hdoc => ?_
  · exact all_bind (onDocs_elsewhere rfl id) fun _ => rfl
  · refine all_bind (reads_getDdbRecord _).quiet.onDocs fun r => ?_
    refine all_bind (onDocs_preclassify env doc r hdoc) fun p => ?_
    exact onDocs_dispatchDocumentProcessor env doc p hdoc

theorem onDocs_processorHandler (env : EnvConfig) (key : S3Key) (cold : Bool) :
    All (OnDocs (basename key.2)) (processorHandler env key cold) := by
  refine spec_tryCatch (onDocs_processorMain env key cold) fun e => all_bind ?_ fun _ => trivial
  refine spec_tryCatch ?_ fun _ => trivial
  exact all_bind (reads_getDdbRecord _).quiet.onDocs fun _ => onDocs_classifyWith rfl

/-! ## Result processors and reaper -/

theorem quiet_getDdbRecordFromBdaOutput (key : S3Key) : Quiet (getDdbRecordFromBdaOutput key) := by
  unfold getDdbRecordFromBdaOutput
  split
  · trivial
  · exact all_bind (quiet_call rfl) fun _ => trivial

theorem quiet_processBdaResult (env : EnvConfig) (key : S3Key) (t : Option Timestamp) :
    Quiet (processBdaResult env key t) := by
  have huri : Quiet (extractBdaOutputS3Uri key) := by
    unfold extractBdaOutputS3Uri
    refine all_bind (quiet_call rfl) fun o => ?_
    split <;> trivial
  unfold processBdaResult
  refine all_bind huri fun uri => ?_
  split
  · trivial
  · refine all_bind (quiet_getDdbRecordFromBdaOutput key) fun r => ?_
    split
    · trivial
    · refine all_bind (reads_getBdaResultJson ..).quiet fun b => ?_
      split
      · split
        · trivial
        · refine all_bind ?_ fun _ => trivial
          unfold withTimings
          split
          · trivial
          · exact all_bind (quiet_call rfl) fun _ => trivial
      · trivial

theorem onDocs_classifyProcessed (env : EnvConfig) (p : ProcessorResult) :
    All (OnDocs p.objectKey) (classifyProcessed env p) := by
  unfold classifyProcessed
  split
  · exact spec_tryCatch onDocs_classifyExtractionResult fun _ => trivial
  · split
    · exact spec_ite (onDocs_classifyWith rfl) (onDocs_classifyWith rfl)
    · trivial

end

/-- A call that leaves the table alone, or a request of the kinds above on some record. -/
abbrev OnSomeDoc (op : Op) : Prop := ∃ k, op.isElsewhere = true ∨ IsDocWrite k op

/-- The same, and no request on a batch but an increment. -/
abbrev Routine (op : Op) : Prop := ∃ k, OnDocs k op

theorem Routine.onSomeDoc {op : Op} (h : Routine op) : OnSomeDoc op := by
  obtain ⟨k, h | h⟩ := h
  · exact ⟨k, .inl h.1⟩
  · exact ⟨k, .inr h⟩

section
variable {α : Type} {p : Prog α} {k : String}

theorem all_routine (hp : All (OnDocs k) p) : All Routine p :=
  Effect.Prog.All.mono (fun _ h => ⟨k, h⟩) hp

theorem Quiet.routine (hp : Quiet p) : All Routine p := all_routine (k := "") hp.onDocs

theorem routine_call {op : Op} (h : op.isElsewhere = true) (hb : ¬ IsBatchWrite op) :
    All Routine (call op) :=
  all_perform ⟨"", .inl ⟨h, fun h => absurd h hb⟩⟩

theorem all_onSomeDoc (hp : All (OnDocs k) p) : All OnSomeDoc p :=
  Effect.Prog.All.mono (fun _ => Routine.onSomeDoc) (all_routine hp)

theorem Quiet.onSomeDoc (hp : Quiet p) : All OnSomeDoc p := all_onSomeDoc (k := "") hp.onDocs

theorem onSomeDoc_call {op : Op} (h : op.isElsewhere = true) : All OnSomeDoc (call op) :=
  all_perform ⟨"", .inl h⟩

end

theorem routine_resultHandler (env : EnvConfig) (key : S3Key) :
    All Routine (resultHandler env key) := by
  unfold resultHandler
  refine all_bind (routine_call rfl id) fun t => spec_tryCatch ?_ fun e => all_bind ?_ fun _ => trivial
  · refine spec_ite ?_ trivial
    exact all_bind (quiet_processBdaResult ..).routine fun p =>
      all_routine (onDocs_classifyProcessed env p)
  · refine spec_tryCatch (all_bind (quiet_getDdbRecordFromBdaOutput key).routine fun r => ?_)
      fun _ => trivial
    split
    · trivial
    · exact all_bind (reads_getDdbRecord _).quiet.routine fun _ => all_routine (onDocs_classifyWith rfl)

theorem routine_ocrMappingHandler (env : EnvConfig) (msg : OcrMappingMessage) :
    All Routine (ocrMappingHandler env msg) := by
  have hblocks : Quiet (readOcrBlocks msg.ocrBlocksUri) := by
    refine all_bind (all_liftExcept _) fun key => all_bind (quiet_call rfl) fun obj => ?_
    split <;> trivial
  have hextract : ∀ blocks, All (OnDocs msg.ddbKey)
      (runOcrMappingExtraction env msg.ddbKey msg.documentType blocks) := by
    intro blocks
    refine all_bind (reads_getDdbRecord _).quiet.onDocs fun r => ?_
    refine all_bind (quiet_extractionStart r).onDocs fun t => ?_
    split
    · trivial
    · refine spec_ite trivial (all_bind (onDocs_elsewhere rfl id) fun response => ?_)
      split
      · trivial
      · refine all_bind (onDocs_elsewhere rfl id) fun _ => all_bind ?_ fun _ => trivial
        unfold writeOcrMappingTelemetry
        split
        · exact (makes_writeTokensByModel ..).does.onDocs fun _ h => .inr (.aside (h.aside (by decide)))
        · trivial
  refine all_bind ?_ fun p => ?_
  · unfold processOcrMappingResult
    split
    · trivial
    · refine all_bind hblocks.routine fun blocks => all_bind (all_routine (hextract blocks)) fun r => ?_
      exact all_bind (all_routine (onDocs_writeExtractionOutput (k := "") ..)) fun _ => trivial
  · split
    · trivial
    · exact all_routine onDocs_classifyExtractionResult

theorem onDocs_markTerminal {k : String} {s : ProcessStatus} {reason : Option String}
    (hs : s = .timedOut ∨ s = .failed) : All (OnDocs k) (markTerminal k s reason) := by
  refine all_bind (onDocs_elsewhere rfl id) fun now => spec_tryCatch (all_bind ?_ fun _ => trivial)
    fun e => spec_ite trivial trivial
  exact all_perform (.inr (.reap now s reason hs rfl))

theorem onDocs_markAndIncrement {k : String} {b : Option String} {s : ProcessStatus}
    {reason : Option String} (hs : s = .timedOut ∨ s = .failed) :
    All (OnDocs k) (markAndIncrement k b s reason) := by
  refine all_bind (onDocs_markTerminal hs) fun applied => ?_
  exact spec_ite (apart_onDocs (apart_incrementIfBatch b)) trivial

theorem onDocs_processStaleRecord (k : String) (r : Record) :
    All (OnDocs k) (processStaleRecord k r) := by
  unfold processStaleRecord
  split
  · exact onDocs_markAndIncrement (.inl rfl)
  · refine all_bind (spec_tryCatch (all_bind (onDocs_elsewhere rfl id) fun _ => trivial)
      fun _ => trivial) fun s => ?_
    split
    · exact onDocs_markAndIncrement (.inl rfl)
    · trivial
    · exact spec_ite (onDocs_markAndIncrement (.inr rfl))
        (spec_ite (onDocs_markAndIncrement (.inr rfl)) trivial)

theorem quiet_findStaleRecords : Quiet findStaleRecords := by
  have hq : ∀ t s, Quiet (queryStaleByStatus t s) := fun t s =>
    spec_tryCatch (quiet_call rfl) fun _ => trivial
  unfold findStaleRecords
  refine all_bind (quiet_call rfl) fun now => all_bind (hq ..) fun _ => all_bind (hq ..) fun _ => ?_
  exact all_bind (hq ..) fun _ => all_bind (hq ..) fun _ => trivial

theorem routine_reaperMain : All Routine reaperMain := by
  refine all_bind quiet_findStaleRecords.routine fun stale => ?_
  refine all_bind (routine_call rfl id) fun _ => all_forEach (fun item => ?_) stale
  exact spec_tryCatch (all_routine (onDocs_processStaleRecord ..)) fun _ => trivial

/-! ## Routes -/

theorem routine_incrementAndCheck (t : String) : All Routine (incrementAndCheck t) := by
  have hrollback : ∀ t d, All Routine (rollback t d) := fun t d =>
    all_routine (k := "") (apart_onDocs (apart_rollback t d))
  unfold incrementAndCheck
  refine all_bind (routine_call rfl id) fun tenant => ?_
  split
  · trivial
  · refine spec_ite trivial (all_bind (routine_call rfl id) fun _ => ?_)
    refine all_bind (routine_call rfl id) fun _ => all_bind (routine_call rfl id) fun _ => ?_
    refine spec_ite (all_bind (hrollback ..) fun _ => trivial) ?_
    split
    · trivial
    · refine all_bind (routine_call rfl id) fun _ => ?_
      exact spec_ite (all_bind (hrollback ..) fun _ => trivial) trivial

theorem routine_insertMinimalDdbRecord (env : EnvConfig) (r : DocumentRecord)
    (h : r.processStatus.isInitial = true) : All Routine (insertMinimalDdbRecord env r) :=
  all_routine (onDocs_upsertDdb rfl h)

theorem elsewhere_uploadDocumentForProcessing (env : EnvConfig) (req : UploadRequest) :
    All Elsewhere (uploadDocumentForProcessing env req) := by
  have hcall : ∀ {op : Op}, op.isElsewhere = true → ¬ IsBatchWrite op → All Elsewhere (call op) :=
    fun h hb => all_perform ⟨h, fun hw => absurd hw hb⟩
  have hbackup : ∀ key, All Elsewhere (backupOriginal env req key) := by
    intro key
    refine all_bind (all_liftExcept _) fun pre => spec_ite trivial ?_
    unfold saveOriginalToPreprocessing
    split
    · trivial
    · exact all_bind (all_liftExcept _) fun _ => hcall rfl id
  have hregister : All Elsewhere (registerCategory req.tenantId req.category) := by
    unfold registerCategory
    split
    · exact spec_tryCatch (hcall rfl id) fun _ => trivial
    · trivial
  unfold uploadDocumentForProcessing
  refine all_bind (all_liftExcept _) fun key => all_bind (hbackup key) fun _ => ?_
  refine all_bind hregister fun _ => all_bind (all_liftExcept _) fun conv => ?_
  exact spec_tryCatch (hcall rfl id) fun _ => trivial

theorem routine_uploadDocumentForProcessing (env : EnvConfig) (req : UploadRequest) :
    All Routine (uploadDocumentForProcessing env req) :=
  Effect.Prog.All.mono (fun _ h => ⟨"", .inl h⟩) (elsewhere_uploadDocumentForProcessing env req)

theorem routine_traceIdOrNew (t : Option String) : All Routine (traceIdOrNew t) := by
  unfold traceIdOrNew
  split
  · trivial
  · exact routine_call rfl id

theorem routine_dispatchUpload (env : EnvConfig) (k : String) (req : UploadRequest) :
    All Routine (dispatchUpload env k req) := by
  refine spec_tryCatch (routine_uploadDocumentForProcessing env req) fun e => ?_
  split
  · exact all_bind (all_routine (onDocs_classifyWith rfl)) fun _ => trivial
  · exact all_bind (all_routine (onDocs_classifyWith rfl)) fun _ => trivial
  · exact all_bind (all_routine (onDocs_classifyWith rfl)) fun _ => trivial

theorem routine_uploadDocument (env : EnvConfig) (auth : UserContext) (form : UploadForm) :
    All Routine (uploadDocument env auth form) := by
  unfold uploadDocument
  refine all_bind (routine_traceIdOrNew _) fun t => all_bind (all_liftExcept _) fun c => ?_
  refine all_bind (spec_ite (routine_incrementAndCheck _) trivial) fun _ => ?_
  refine all_bind (routine_call rfl id) fun j => all_bind (all_liftExcept _) fun k => ?_
  refine all_bind (spec_tryCatch (routine_insertMinimalDdbRecord _ _ rfl) fun _ => trivial)
    fun _ => spec_ite ?_ ?_
  · exact all_bind (all_routine (onDocs_classifyWith rfl)) fun _ => trivial
  · refine spec_tryCatch (all_bind (routine_dispatchUpload ..) fun _ => trivial) fun e => ?_
    split <;> trivial

theorem reads_finishedResponse (env : EnvConfig) (req : PollRequest) (k : String)
    (s : ProcessStatus) (v1 : V1ApiResponse) : Reads (finishedResponse env req k s v1) := by
  have hvalid : ∀ v1, Reads (validateV1 v1) := fun v1 => spec_ite trivial trivial
  exact spec_ite (all_bind (reads_buildV1ApiResponse ..) hvalid) (hvalid v1)

/-- The polling loop only reads. -/
theorem reads_pollLoop (env : EnvConfig) (jobId : String) (req : PollRequest) :
    ∀ (polls i : Nat) (o : Option String), Reads (pollLoop env jobId req polls i o)
  | 0, _, _         => trivial
  | polls + 1, i, _ => by
    unfold pollLoop
    refine spec_ite trivial (all_bind ?_ fun seen => ?_)
    · exact spec_tryCatch (reads_call rfl) fun _ => trivial
    · split
      · exact reads_pollLoop env jobId req polls (i + 1) _
      · split
        · exact reads_pollLoop env jobId req polls (i + 1) _
        · refine all_bind (spec_tryCatch (all_bind (reads_finishedResponse ..) fun _ => trivial)
            fun _ => trivial) fun answer => ?_
          split
          · trivial
          · exact reads_pollLoop env jobId req polls (i + 1) _

theorem routine_createDocumentWait (env : EnvConfig) (auth : UserContext) (form : UploadForm)
    (req : PollRequest) : All Routine (createDocumentWait env auth form req) := by
  have hpolls : ∀ j req, All Routine (pollForCompletion env j req) := by
    intro j req
    refine all_bind (reads_pollLoop ..).quiet.routine fun x => ?_
    split
    · trivial
    · trivial
    · exact all_bind (all_routine (onDocs_classifyWith rfl)) fun _ => trivial
  refine all_bind (routine_uploadDocument ..) fun r => spec_ite trivial ?_
  exact all_bind (hpolls ..) fun _ => trivial

theorem routine_createPresignedUploadUrl (env : EnvConfig) (auth : UserContext)
    (form : PresignedForm) : All Routine (createPresignedUploadUrl env auth form) := by
  unfold createPresignedUploadUrl
  refine spec_ite trivial (spec_ite trivial ?_)
  refine all_bind (routine_traceIdOrNew _) fun t => ?_
  refine all_bind (routine_incrementAndCheck _) fun _ => ?_
  split
  · trivial
  · split
    · trivial
    · refine all_bind (routine_call rfl id) fun j => all_bind (all_liftExcept _) fun k => ?_
      exact spec_tryCatch (routine_insertMinimalDdbRecord _ _ rfl) fun _ => trivial

theorem routine_submitBuild (env : EnvConfig) (auth : UserContext) (t : Option String)
    (b : BuildSubmission) : All Routine (submitBuild env auth t b) := by
  unfold submitBuild
  refine all_bind (routine_traceIdOrNew _) fun t => spec_ite ?_ ?_
  · refine all_bind (routine_call rfl id) fun j => ?_
    refine all_bind (routine_insertMinimalDdbRecord _ _ rfl) fun _ => ?_
    exact all_routine (onDocs_classifyWith rfl)
  · split
    · trivial
    · refine spec_tryCatch ?_ fun e => ?_
      · refine all_bind (routine_call rfl id) fun j => all_bind (routine_call rfl id) fun s => ?_
        refine all_bind (routine_insertMinimalDdbRecord _ _ rfl) fun _ => ?_
        exact routine_uploadDocumentForProcessing ..
      · split <;> trivial

theorem onDocs_markDocumentDeleted (k : String) (t : DeletionType) :
    All (OnDocs k) (markDocumentDeleted k t) := by
  refine all_bind (onDocs_elsewhere rfl id) fun now => ?_
  exact (does_executeDdbUpdate rfl).onDocs fun _ h => .inr (.delete now t h.symm)

theorem routine_deleteDocument (env : EnvConfig) (auth : UserContext) (j : String)
    (soft : Bool) : All Routine (deleteDocument env auth j soft) := by
  have hpurge : ∀ t pls, All Routine (purgeAll t pls) := by
    intro t pls
    induction pls with
    | nil => trivial
    | cons pl pls ih =>
      refine all_bind ?_ fun _ => all_bind ih fun _ => trivial
      unfold purgeLocation
      split
      · trivial
      · refine spec_tryCatch (all_bind (all_liftExcept _) fun key => ?_) fun _ => trivial
        exact all_bind (spec_ite (routine_call rfl id) (routine_call rfl id)) fun _ => trivial
  unfold deleteDocument
  refine all_bind (routine_call rfl id) fun items => ?_
  split
  · trivial
  · refine spec_ite trivial (spec_ite trivial (spec_ite trivial ?_))
    refine all_bind (spec_ite trivial (hpurge ..)) fun _ => spec_ite trivial ?_
    exact all_routine (onDocs_markDocumentDeleted ..)

theorem routine_processOne (env : EnvConfig) (loc : String) (t : BatchTask) :
    All Routine (processOne env loc t) := by
  unfold processOne
  split
  · trivial
  · refine all_bind (routine_incrementAndCheck _) fun _ => all_bind (all_liftExcept _) fun _ => ?_
    refine all_bind (routine_call rfl id) fun j => all_bind (all_liftExcept _) fun u => ?_
    refine all_bind (routine_insertMinimalDdbRecord _ _ rfl) fun _ => spec_ite ?_ ?_
    · exact all_routine (onDocs_classifyWith rfl)
    · refine spec_tryCatch (routine_uploadDocumentForProcessing ..) fun e => ?_
      split
      · exact all_routine (onDocs_classifyWith rfl)
      · exact all_bind (all_routine (onDocs_classifyWith rfl)) fun _ => trivial
      · trivial

theorem onSomeDoc_executeBatch (env : EnvConfig) (auth : UserContext) (form : BatchForm) :
    All OnSomeDoc (executeBatch env auth form) := by
  have hb : ∀ {α : Type} {p : Prog α}, Does IsBatchWrite p → All OnSomeDoc p := fun h =>
    Effect.Prog.Spec.mono (fun op hop => ⟨"", .inl (hop.elim
      (fun h => (elsewhere_of_isQuiet h).1) isElsewhere_of_isBatchWrite)⟩) (fun _ h => h) h
  refine all_bind (onSomeDoc_call rfl) fun id => spec_tryCatch ?_ fun e => ?_
  · refine all_bind (hb (does_createBatch ..)) fun _ => all_bind ?_ fun _ =>
      hb (does_updateBatchStatus ..)
    unfold processBatchFiles
    split
    · trivial
    · refine all_bind (onSomeDoc_call rfl) fun _ => all_bind (onSomeDoc_call rfl) fun errors => ?_
      split <;> trivial
  · split
    · trivial
    · refine all_bind (all_bind (onSomeDoc_call rfl) fun batch => ?_) fun _ => trivial
      exact spec_ite (hb (does_updateBatchStatus ..)) trivial

/-- Every call of every entry point but a batch request is routine. -/
theorem body_routine (e : Entry) (he : ∀ env auth form, e ≠ .batch env auth form) :
    All Routine e.body := by
  cases e with
  | processor env key cold => exact all_routine (onDocs_processorHandler env key cold)
  | bdaResult env key => exact routine_resultHandler env key
  | ocrMapping env msg => exact routine_ocrMappingHandler env msg
  | reaper => exact routine_reaperMain
  | upload env auth form => exact all_bind (routine_uploadDocument ..) fun _ => trivial
  | presigned env auth form => exact routine_createPresignedUploadUrl env auth form
  | build env auth t b => exact routine_submitBuild env auth t b
  | batch env auth form => exact absurd rfl (he env auth form)
  | batchFile env loc group idx =>
    refine all_bind (routine_call rfl id) fun t => all_bind ?_ fun _ => routine_call rfl id
    exact spec_tryCatch (all_bind (routine_processOne ..) fun _ => trivial) fun _ => trivial
  | uploadWait env auth form req => exact routine_createDocumentWait env auth form req
  | delete env auth j soft => exact routine_deleteDocument env auth j soft
  | s3Put key obj => exact routine_call rfl id

/-- Every metadata write of every entry point is one of the kinds of `IsDocWrite`. -/
theorem body_onSomeDoc (e : Entry) : All OnSomeDoc e.body := by
  by_cases he : ∃ env auth form, e = .batch env auth form
  · obtain ⟨env, auth, form, rfl⟩ := he
    exact all_bind (Effect.Prog.All.mono (fun _ => Routine.onSomeDoc) (routine_traceIdOrNew _))
      fun t => spec_ite trivial (spec_ite trivial (onSomeDoc_executeBatch ..))
  · refine Effect.Prog.All.mono (fun _ => Routine.onSomeDoc) (body_routine e ?_)
    rintro env auth form rfl
    exact he ⟨env, auth, form, rfl⟩

end DocumentAi
