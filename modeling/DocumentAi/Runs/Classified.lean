import DocumentAi.Runs.CodeSurvives
import DocumentAi.Runs.StoredAnswer

/-!
# The record that a classification leaves

| here | meaning |
| --- | --- |
| `overlaid env d r` | `r` with the attributes of the classification data `d` over its own |
| `dataAttrs`, `verdictAttrs` | what `update_ddb` writes for the classification data, and besides |
| `Describes w k c u` | `u` is the update that the classification `c` of `k` asks for |
| `settles_body`     | a classification leaves the table alone, or writes its status and stores its answer |
-/

namespace DocumentAi

open Effect (Event Ends ends_bind_iff ends_raise_iff)
open Effect.Prog (all_bind)
open Dynamo (Targets targets_append targets_nil lastSet lastSet_eq_none)

/-! ## What `update_ddb` leaves of a record -/

abbrev Record.responseCode (r : Record) : Option ResponseCode := r .responseCode

/-- The data's attributes over those of the record. -/
def overlaid (env : EnvConfig) (d : Option ClassificationData) (r : Record) : Record := fun a =>
  (d.bind fun d => lastSet (T := DocumentMetadata.schema) a (classificationActions env d)).or (r a)

def dataAttrs : List DocumentMetadata :=
  [.bdaOutputS3Uri, .matchedBlueprintName, .matchedBlueprintConfidence, .fieldConfidenceScores,
    .additionalInfo, .bdaMatchedDocumentClass, .matchedBlueprintFieldEmptyList,
    .matchedBlueprintFieldMissingGeometryList, .matchedBlueprintFieldBelowThresholdList,
    .matchedBlueprintFieldCount, .matchedBlueprintFieldCountNotEmpty,
    .matchedBlueprintFieldNotEmptyAvgConfidence]

def verdictAttrs : List DocumentMetadata :=
  [.processStatus, .updatedAt, .responseJson, .responseCode, .bdaInvocationArn, .bdaInvocationId,
    .bdaRegionUsed, .extractionMethod, .bdaProjectArn, .usedCategorySpecificProject, .errorMessage,
    .belowExtractionConfidenceFloor, .extractionRulesConfigured, .missingRequiredFieldList,
    .requiredFieldList, .extractionConfidenceThreshold, .usedDefaultExtractionConfidenceThreshold,
    .pagesSentToBda, .bdaInvokeRetryCount, .resultProcessorStartedAt, .extractionCompletedAt,
    .processedDate, .totalProcessingTimeSeconds, .extractionProcessingTimeSeconds,
    .extractionStartedAt, .extractionWaitTimeSeconds]

section
variable {env : EnvConfig} {now : Timestamp} {u : UpdateDdbRecord} {timing : List Action}
  {c : Option Cond} {old new : Record}

theorem targets_classificationActions (d : ClassificationData) :
    Targets (T := DocumentMetadata.schema) (· ∈ dataAttrs) (classificationActions env d) := by
  unfold classificationActions
  refine targets_append.2 ⟨targets_append.2 ⟨?_, ?_⟩, targets_setOpt (by decide) _⟩
  · repeat refine targets_append.2 ⟨?_, targets_setOpt (by decide) _⟩
    exact targets_setOpt (by decide) _
  · exact targets_set (by decide) (targets_set (by decide) targets_nil)

theorem targets_data {a : DocumentMetadata} (ha : a ∉ dataAttrs) (d : ClassificationData) :
    Targets (T := DocumentMetadata.schema) (· ≠ a) (classificationActions env d) :=
  (targets_classificationActions d).mono fun _ hb he => ha (he ▸ hb)

theorem overlaid_of_not_data {a : DocumentMetadata} (ha : a ∉ dataAttrs)
    (d : Option ClassificationData) (r : Record) : overlaid env d r a = r a := by
  cases d with
  | none => rfl
  | some d =>
    rw [overlaid, Option.bind_some, lastSet_eq_none (targets_data ha d), Option.none_or]

theorem timing_mem_verdictAttrs {a : DocumentMetadata} (h : isTimingAttr a) : a ∈ verdictAttrs := by
  simp only [isTimingAttr, List.mem_cons, List.not_mem_nil, or_false] at h
  rcases h with rfl | rfl | rfl | rfl | rfl | rfl <;> decide

/-- `xs` continues `ys` with attributes of the verdict. -/
def Continues (xs ys : List Action) : Prop :=
  ∃ rest, xs = ys ++ rest ∧ Targets (T := DocumentMetadata.schema) (· ∈ verdictAttrs) rest

theorem continues_append {xs ys zs : List Action} (h : Continues xs ys)
    (hz : Targets (T := DocumentMetadata.schema) (· ∈ verdictAttrs) zs) :
    Continues (xs ++ zs) ys := by
  obtain ⟨rest, rfl, hr⟩ := h
  exact ⟨rest ++ zs, List.append_assoc .., targets_append.2 ⟨hr, hz⟩⟩

theorem continues_buildUpdateExpression : Continues (buildUpdateExpression env now u)
    ([.set .processStatus u.status, .set .updatedAt now]
      ++ (u.data.map (classificationActions env)).getD []) := by
  unfold buildUpdateExpression
  repeat refine continues_append ?_ (targets_setOpt (by decide) _)
  refine continues_append (continues_append ?_ (targets_setOpt (by decide) _))
    (targets_ite (targets_set (by decide) targets_nil) targets_nil)
  refine continues_append (continues_append ?_ (targets_setOpt (by decide) _))
    (targets_ite (targets_set (by decide) targets_nil) targets_nil)
  refine continues_append (continues_append ⟨[], (List.append_nil _).symm, targets_nil⟩ ?_) ?_
  · split
    · exact targets_set (by decide) (targets_set (by decide) targets_nil)
    · exact targets_nil
  · split
    · exact targets_set (by decide) (targets_set (by decide) (targets_set (by decide)
        (targets_set (by decide) targets_nil)))
    · exact targets_nil

theorem lastSet_data {a : DocumentMetadata} (ha : a ∉ verdictAttrs) :
    lastSet (T := DocumentMetadata.schema) a (buildUpdateExpression env now u) =
      u.data.bind fun d => lastSet (T := DocumentMetadata.schema) a (classificationActions env d) := by
  have hne : ∀ b, b ∈ verdictAttrs → b ≠ a := fun b hb he => ha (he ▸ hb)
  have hcontinues : Continues (buildUpdateExpression env now u) _ := continues_buildUpdateExpression
  obtain ⟨rest, heq, hrest⟩ := hcontinues
  have hhead : lastSet (T := DocumentMetadata.schema) a
      [.set .processStatus u.status, .set .updatedAt now] = none :=
    lastSet_eq_none (targets_set (hne _ (by decide)) (targets_set (hne _ (by decide)) targets_nil))
  rw [heq, lastSet_peel (hrest.mono hne), Dynamo.lastSet_append (T := DocumentMetadata.schema),
    hhead, Option.or_none]
  cases u.data <;> rfl

/-- The first actions set the status, the time and the data. -/
theorem targets_dataActions {a : DocumentMetadata} (ha : a ∉ dataAttrs)
    (hs : a ∉ [DocumentMetadata.processStatus, .updatedAt]) :
    Targets (T := DocumentMetadata.schema) (· ≠ a)
      ([.set .processStatus u.status, .set .updatedAt now]
        ++ (u.data.map (classificationActions env)).getD []) := by
  refine targets_append.2 ⟨?_, ?_⟩
  · refine targets_set (fun he => hs ?_) (targets_set (fun he => hs ?_) targets_nil)
    · exact he ▸ by decide
    · exact he ▸ by decide
  · cases u.data with
    | none => exact targets_nil
    | some d => exact targets_data ha d

theorem lastSet_responseCode :
    lastSet (T := DocumentMetadata.schema) .responseCode (buildUpdateExpression env now u) =
      u.internalApiResponse.map (·.responseCode) := by
  unfold buildUpdateExpression
  repeat refine (lastSet_peel (targets_setOpt (by decide) _)).trans ?_
  refine (lastSet_peel (targets_ite (targets_set (by decide) targets_nil) targets_nil)).trans ?_
  refine (lastSet_peel (targets_setOpt (by decide) _)).trans ?_
  refine (lastSet_peel (targets_ite (targets_set (by decide) targets_nil) targets_nil)).trans ?_
  refine (lastSet_peel (targets_setOpt (by decide) _)).trans ((lastSet_peel ?_).trans ?_)
  · split
    · exact targets_set (by decide) (targets_set (by decide) (targets_set (by decide)
        (targets_set (by decide) targets_nil)))
    · exact targets_nil
  · rw [Dynamo.lastSet_append (T := DocumentMetadata.schema),
      lastSet_eq_none (targets_dataActions (by decide) (by decide)), Option.or_none]
    cases u.internalApiResponse <;> rfl

theorem lastSet_belowExtractionConfidenceFloor :
    lastSet (T := DocumentMetadata.schema) .belowExtractionConfidenceFloor
      (buildUpdateExpression env now u) =
      if u.belowExtractionConfidenceFloor then some true else none := by
  unfold buildUpdateExpression
  repeat refine (lastSet_peel (targets_setOpt (by decide) _)).trans ?_
  refine (Dynamo.lastSet_append (T := DocumentMetadata.schema)).trans ?_
  refine (congrArg (Option.or _) (lastSet_eq_none (T := DocumentMetadata.schema) ?_)).trans ?_
  swap
  · cases u.belowExtractionConfidenceFloor <;> rfl
  refine targets_append.2 ⟨targets_append.2 ⟨?_, targets_ite (targets_set (by decide) targets_nil)
    targets_nil⟩, targets_setOpt (by decide) _⟩
  refine targets_append.2 ⟨targets_append.2 ⟨targets_append.2
    ⟨targets_dataActions (by decide) (by decide), ?_⟩, ?_⟩, targets_setOpt (by decide) _⟩
  · split
    · exact targets_set (by decide) (targets_set (by decide) targets_nil)
    · exact targets_nil
  · split
    · exact targets_set (by decide) (targets_set (by decide) (targets_set (by decide)
        (targets_set (by decide) targets_nil)))
    · exact targets_nil

variable (ht : TimingActions timing) (h : (updateRequest env now u timing c).apply old = .ok new)
include ht h

theorem updateRequest_eq_lastSet {a : DocumentMetadata} (ha : ¬ isTimingAttr a) :
    new a = (lastSet (T := DocumentMetadata.schema) a (buildUpdateExpression env now u)).or (old a) := by
  have hset := Dynamo.Update.apply_setsOnly h ((sets_updateRequest ht).setsOnly (a := a))
  have hpeel : lastSet (T := DocumentMetadata.schema) a (buildUpdateExpression env now u ++ timing) =
      lastSet (T := DocumentMetadata.schema) a (buildUpdateExpression env now u) :=
    lastSet_peel (ht.targets.mono fun b hb he => ha (he ▸ hb))
  exact hset.trans (congrArg (Option.or · (old a)) hpeel)

/-- Besides the verdict, the data's attributes are over the old ones. -/
theorem updateRequest_overlaid {a : DocumentMetadata} (ha : a ∉ verdictAttrs) :
    new a = overlaid env u.data old a := by
  rw [updateRequest_eq_lastSet ht h fun hx => ha (timing_mem_verdictAttrs hx), lastSet_data ha]
  rfl

theorem updateRequest_status : new.status = some u.status :=
  (writes_updateRequest ht).status_eq h

theorem updateRequest_responseCode :
    new.responseCode = (u.internalApiResponse.map (·.responseCode)).or old.responseCode := by
  rw [Record.responseCode, updateRequest_eq_lastSet ht h (by simp [isTimingAttr]),
    lastSet_responseCode]
  rfl

theorem updateRequest_belowFloor : new.belowExtractionConfidenceFloor.getD false =
    (u.belowExtractionConfidenceFloor || old.belowExtractionConfidenceFloor.getD false) := by
  have hnew : new .belowExtractionConfidenceFloor = _ :=
    updateRequest_eq_lastSet ht h (by simp [isTimingAttr])
  rw [lastSet_belowExtractionConfidenceFloor] at hnew
  rw [Record.belowExtractionConfidenceFloor, hnew]
  cases u.belowExtractionConfidenceFloor <;> rfl

end

/-! ## What a classification asks for -/

/-- The confidence floor of a tenant (`utils/tenants.py:20-29`). -/
def World.confidenceFloor (w : World) (tenantId : Option String) : Rat :=
  (((truthy tenantId).bind w.tenants).bind (·.extractionConfidenceFloor)).getD (13 / 20)

namespace Classification

def data : Classification → Option ClassificationData
  | success data ..                       => some data
  | extractionResult result uri ..        => uri.map fun uri => .fromExtractionResult result (some uri)
  | failed _ data ..                      => some data
  | notImplemented data _                 => some data
  | noDocumentDetected data ..            => some data
  | aiConsentDeclined _                   => none
  | conversionFailed ..                   => none
  | noCustomBlueprintMatched data ..      => some data
  | extractionNotConfigured data _        => some data
  | multipleDocumentsOnPage data _        => some data
  | multipleDocumentsInMultipage data _   => some data

def errorMessage : Classification → Option String
  | failed message ..           => some message
  | conversionFailed message _  => some message
  | _                           => none

def method : Classification → Option ExtractMethod
  | success _ m ..                     => some m
  | extractionResult _ _ _ _ _ m       => some m
  | noDocumentDetected _ _ _ m         => some m
  | noCustomBlueprintMatched _ _ _ m   => some m
  | _                                  => none

/-- The average confidence is below the tenant's floor. -/
def belowFloor (w : World) : Classification → Bool
  | success _ _ d _ _                  => d.belowFloor
  | extractionResult result _ t _ _ _  =>
    (calculateAverageNonEmptyConfidence result.fieldConfidenceScores result.fieldEmptyList
      result.fieldMissingGeometryList).any fun a => decide (a < w.confidenceFloor t)
  | _                                  => false

/-- What the extraction rules found, of a plain success. -/
def details : Classification → Option SuccessDetails
  | success _ _ d _ _ => some d
  | _                 => none

end Classification

structure Describes (w : World) (key : String) (c : Classification) (u : UpdateDdbRecord) : Prop where
  key    : u.objectKey = key
  status : u.status = c.verdict.1
  code   : u.internalApiResponse.map (·.responseCode) = some c.verdict.2
  data   : u.data = c.data
  error  : u.errorMessage = c.errorMessage
  below  : u.belowExtractionConfidenceFloor = c.belowFloor w
  rules  : ∀ d, c.details = some d → u.extractionRulesConfigured = some d.rulesConfigured ∧
    u.missingRequiredFieldList = d.missingRequired

/-- The table is left alone, but for an answer by method; or the status is written, and the answer
to it stored. -/
def Outcome (env : EnvConfig) (key : String) (c : Classification) (w w' : World)
    (tr : List (Event sig)) : Prop :=
  (Mute tr ∧ ∀ a, a ∉ methodAttrs → w'.record key a = w.record key a) ∨
    ∃ u now timing new resp, Describes w key c u ∧ TimingActions timing ∧
      (updateRequest env now u timing (some nonTerminalCondition)).apply (w.record key) = .ok new ∧
      Settles env key c.verdict.1 (c.data.bind (·.additionalInfo)) c.errorMessage w w' tr new resp

section
variable {env : EnvConfig} {key : String} {c : Classification} {w w' : World}
  {tr tr₁ tr₂ : List (Event sig)} {r : Except Exc Unit}

theorem Outcome.after (hs : Mute tr₁) (h : Outcome env key c w w' tr₂) :
    Outcome env key c w w' (tr₁ ++ tr₂) := by
  rcases h with ⟨hs₂, hleft⟩ | ⟨u, now, timing, new, resp, hu, ht, hnew, hsettles⟩
  · exact .inl ⟨mute_append.2 ⟨hs, hs₂⟩, hleft⟩
  · refine .inr ⟨u, now, timing, new, resp, hu, ht, hnew, fun m hm => ?_, fun j x hx => ?_,
      fun x hx => ?_, hsettles.left⟩
    · exact hsettles.sent m (hs.sent_append.1 hm)
    · exact hsettles.stored j x (hs.stored_append.1 hx)
    · obtain ⟨rule, hresp, hrule⟩ := hsettles.answer x hx
      exact ⟨rule, hresp, hrule.mono fun _ => List.mem_append_right _⟩

theorem outcome_of_mute (hs : Mute tr) : Outcome env key c w w tr := .inl ⟨hs, fun _ _ => rfl⟩

theorem outcome_writeTerminalStatus {u : UpdateDdbRecord} (hu : Describes w key c u)
    {b : Option String} {result : Option ExtractionResult}
    (h : Ends system w (writeTerminalStatus env u b result c.method) tr r w') :
    Outcome env key c w w' tr := by
  obtain rfl := hu.key
  by_cases hm : c.method = some .ocrMapping
  · unfold writeTerminalStatus at h
    rw [if_pos hm, hm] at h
    have hwrites := makes_writeExtractMethodResponse env u.objectKey u.status .ocrMapping result u.data
      u.errorMessage
    refine .inl ⟨fun ev hev => ?_, fun a ha => steps_writesOn ?_ h ha⟩
    · exact (h.ops hwrites ev hev).elim isMute_of_isRead fun hw => isMute_of_writeOn hw (by decide)
    · exact Effect.Prog.All.mono (fun _ ho => ho.imp_left fun h => (apart_of_isRead h).1.1) hwrites
  · rcases settles_writeTerminalStatus hm h with ⟨hdocs, hs⟩ | ⟨now, timing, new, resp, ht, hnew, hsettles⟩
    · exact .inl ⟨hs, fun a _ => by rw [record_congr hdocs]⟩
    · rw [hu.status, hu.data, hu.error] at hsettles
      exact .inr ⟨u, now, timing, new, resp, hu, ht, hnew, hsettles⟩

theorem spec_getInternalApiResponse (k : String) (code : ResponseCode) (m g : Option String) :
    Effect.Prog.Spec (fun (op : Op) => op.isRead = true) (fun x => x.responseCode = code)
      (getInternalApiResponse k code m g) :=
  all_bind (reads_resolveCategory k g) fun _ => rfl

theorem outcome_classifyWith {v : Verdict} {d : Option ClassificationData} {b e : Option String}
    {t : Option Timestamp} (hverdict : (v.status, v.code) = c.verdict) (hm : v.method = c.method)
    (hd : d = c.data) (he : e = c.errorMessage) (hbelow : c.belowFloor w = false)
    (hdetails : c.details = none)
    (h : Ends system w (classifyWith env v key d b e t) tr r w') : Outcome env key c w w' tr := by
  unfold classifyWith at h
  have hspec := spec_getInternalApiResponse key v.code none none
  rcases ends_reads_bind hspec.all h with ⟨_, _, _, rfl, hs⟩ | ⟨x, tr₁, tr₂, h₁, h₂, rfl, hs⟩
  · exact outcome_of_mute hs
  have hcode := Effect.ends_of_spec hspec h₁
  rw [hm] at h₂
  refine (outcome_writeTerminalStatus ⟨rfl, ?_, ?_, hd, he, hbelow.symm, ?_⟩ h₂).after hs
  · exact congrArg Prod.fst hverdict
  · exact congrArg some (hcode.trans (congrArg Prod.snd hverdict))
  · intro d' hd'
    rw [hdetails] at hd'
    cases hd'

theorem outcome_classifyAsSuccess {data : ClassificationData} {m : ExtractMethod}
    {d : SuccessDetails} {b : Option String} {result : ExtractionResult}
    (hverdict : c.verdict = (.success, .success)) (hm : c.method = some m) (hd : c.data = some data)
    (he : c.errorMessage = none) (hbelow : c.belowFloor w = d.belowFloor)
    (hdetails : ∀ d', c.details = some d' → d' = d)
    (h : Ends system w (classifyAsSuccess env key .success data m d b result) tr r w') :
    Outcome env key c w w' tr := by
  unfold classifyAsSuccess at h
  have hspec := spec_getInternalApiResponse key .success data.matchedDocumentClass none
  rcases ends_reads_bind hspec.all h with ⟨_, _, _, rfl, hs⟩ | ⟨x, tr₁, tr₂, h₁, h₂, rfl, hs⟩
  · exact outcome_of_mute hs
  have hcode := Effect.ends_of_spec hspec h₁
  rw [← hm] at h₂
  refine (outcome_writeTerminalStatus ⟨rfl, ?_, ?_, hd.symm, he.symm, hbelow.symm, ?_⟩ h₂).after hs
  · rw [hverdict]
  · rw [hverdict]
    exact congrArg some hcode
  · intro d' hd'
    rw [hdetails d' hd']
    exact ⟨rfl, rfl⟩

theorem ends_getExtractionConfidenceFloor {t : Option String} {a : Rat}
    (h : Ends system w (getExtractionConfidenceFloor t) tr (.ok a) w') : a = w.confidenceFloor t := by
  unfold getExtractionConfidenceFloor at h
  unfold World.confidenceFloor
  split at h
  next hnone =>
    cases (Effect.ends_ret_iff.1 h).2.1
    rw [hnone]
    rfl
  next t' hsome =>
    rcases ends_bind_iff.1 h with ⟨e, he, _⟩ | ⟨tenant, w₁, tr₁, tr₂, h₁, h₂, rfl⟩
    · cases he
    obtain ⟨ch, hx, rfl⟩ := Effect.ends_perform_iff.1 h₁
    have hrun := exec_of_ok hx
    simp only [World.run, World.ok, Option.some.injEq, Prod.mk.injEq] at hrun
    obtain rfl := Except.ok.inj hrun.1
    cases (Effect.ends_ret_iff.1 h₂).2.1
    rw [hsome]
    rfl

theorem outcome_body (h : Ends system w (c.body env key) tr r w') : Outcome env key c w w' tr := by
  cases c with
  | success data m d b result =>
    exact outcome_classifyAsSuccess rfl rfl rfl rfl rfl (fun _ hd => (Option.some.inj hd).symm) h
  | extractionResult result uri t b s m =>
    cases uri with
    | none =>
      obtain ⟨rfl, _, rfl⟩ := ends_raise_iff.1 h
      exact outcome_of_mute fun _ hev => by cases hev
    | some uri =>
      rcases ends_reads_bind (reads_getExtractionConfidenceFloor t) h with
        ⟨_, _, _, rfl, hs⟩ | ⟨floor, tr₁, tr₂, h₁, h₂, rfl, hs₁⟩
      · exact outcome_of_mute hs
      rcases ends_reads_bind (reads_tenantHasConfidenceFloor t) h₂ with
        ⟨_, _, _, rfl, hs⟩ | ⟨hasFloor, tr₃, tr₄, _, h₄, rfl, hs₃⟩
      · exact outcome_of_mute (mute_append.2 ⟨hs₁, hs⟩)
      rcases ends_reads_bind (reads_getMissingRequiredFields ..) h₄ with
        ⟨_, _, _, rfl, hs⟩ | ⟨rules, tr₅, tr₆, _, h₆, rfl, hs₅⟩
      · exact outcome_of_mute (mute_append.2 ⟨hs₁, mute_append.2 ⟨hs₃, hs⟩⟩)
      obtain rfl := ends_getExtractionConfidenceFloor h₁
      exact ((((outcome_classifyAsSuccess rfl rfl rfl rfl rfl (fun _ hd => by cases hd) h₆).after hs₅).after hs₃).after hs₁)
  | failed message data b s => exact outcome_classifyWith rfl rfl rfl rfl rfl rfl h
  | notImplemented data b => exact outcome_classifyWith rfl rfl rfl rfl rfl rfl h
  | noDocumentDetected data b s m => exact outcome_classifyWith rfl rfl rfl rfl rfl rfl h
  | aiConsentDeclined b => exact outcome_classifyWith rfl rfl rfl rfl rfl rfl h
  | conversionFailed message b => exact outcome_classifyWith rfl rfl rfl rfl rfl rfl h
  | noCustomBlueprintMatched data b s m => exact outcome_classifyWith rfl rfl rfl rfl rfl rfl h
  | extractionNotConfigured data b => exact outcome_classifyWith rfl rfl rfl rfl rfl rfl h
  | multipleDocumentsOnPage data b => exact outcome_classifyWith rfl rfl rfl rfl rfl rfl h
  | multipleDocumentsInMultipage data b => exact outcome_classifyWith rfl rfl rfl rfl rfl rfl h

end

/-! ## The code of an answer -/

abbrev Record.categoryMatch (r : Record) : Option Bool := r .preclassificationCategoryMatch

/-- The recorded fields as the answer shows them. -/
def recordedEntries (env : EnvConfig) (r : Record) : List (String × FieldEntry) :=
  buildFieldMap env (recordedFields r) false false (r .bdaMatchedDocumentClass)

/-- The required fields that the record's rule finds missing. -/
def World.missingRequired (w : World) (env : EnvConfig) (r : Record) : List String :=
  (ruled env r (recordedEntries env r) (w.ruleFor r)).2

def tableCode (s : ProcessStatus) : Option ResponseCode :=
  (terminalStatusResponses s).bind (·.responseCode)

section
variable {env : EnvConfig} {w : World} {r r' : Record} {s : ProcessStatus}
  {info error : Option String} {rule : Option ExtractionRule}

theorem ruled_congr (h : ∀ a, a ∉ verdictAttrs → r' a = r a) (fields : List (String × FieldEntry)) :
    ruled env r' fields rule = ruled env r fields rule := by
  have hgeo : r'.fieldMissingGeometryList = r.fieldMissingGeometryList := h _ (by decide)
  have hempty : r'.fieldEmptyList = r.fieldEmptyList := h _ (by decide)
  cases rule with
  | none => rfl
  | some rule => simp only [ruled, withheldFields, hgeo, hempty]

theorem ruleFor_congr (h : ∀ a, a ∉ verdictAttrs → r' a = r a) : w.ruleFor r' = w.ruleFor r := by
  have ht : r'.tenantId = r.tenantId := h _ (by decide)
  simp only [World.ruleFor, ht, h .bdaMatchedDocumentClass (by decide)]

theorem recordedEntries_congr (h : ∀ a, a ∉ verdictAttrs → r' a = r a) :
    recordedEntries env r' = recordedEntries env r := by
  simp only [recordedEntries, recordedFields, h .fieldConfidenceScores (by decide),
    h .bdaMatchedDocumentClass (by decide)]

theorem missingRequired_congr (h : ∀ a, a ∉ verdictAttrs → r' a = r a) :
    w.missingRequired env r' = w.missingRequired env r := by
  simp only [World.missingRequired, ruleFor_congr h, recordedEntries_congr h, ruled_congr h]

/-- The code of a success, as missing fields, the category match and the floor refine it. -/
def successCode (missing : List String) (categoryMatch : Option Bool) (belowFloor : Bool) :
    ResponseCode :=
  if missing ≠ [] then .missingFields
  else if categoryMatch = some false then .miscategorized
  else if belowFloor then .lowExtractionConfidence
  else .success

theorem successCode_eq_success {missing : List String} {categoryMatch : Option Bool} {b : Bool} :
    successCode missing categoryMatch b = .success ↔
      missing = [] ∧ categoryMatch ≠ some false ∧ b = false := by
  unfold successCode
  by_cases hm : missing = []
  · rw [if_neg (not_not.2 hm)]
    by_cases hc : categoryMatch = some false
    · rw [if_pos hc]
      simp [hc]
    · rw [if_neg hc]
      cases b <;> simp [hm, hc]
  · rw [if_pos hm]
    simp [hm]

theorem successCode_ne {missing : List String} {categoryMatch : Option Bool} {b : Bool} :
    successCode missing categoryMatch b ≠ .noBlueprintMatched := by
  unfold successCode
  split
  · simp
  · split
    · simp
    · split <;> simp

theorem resolveResponseCode_success (missing : List String) :
    (resolveResponseCode .success r missing).1 = some (successCode missing
      r.categoryMatch (r.belowExtractionConfidenceFloor.getD false)) := by
  have key : ∀ (c : Option Bool) (b : Bool),
      (if missing ≠ [] then (some .missingFields, b)
        else if c = some false then (some .miscategorized, b)
        else if b then (some .lowExtractionConfidence, b)
        else (some .success, b) : Option ResponseCode × Bool).1 = some (successCode missing c b) := by
    intro c b
    unfold successCode
    split
    · rfl
    · split
      · rfl
      · split <;> rfl
  exact key _ _

theorem responseCode_success :
    (recordedAnswer env r .success info error rule).responseCode =
      some (successCode (ruled env r (recordedEntries env r) rule).2
        r.categoryMatch (r.belowExtractionConfidenceFloor.getD false)) :=
  resolveResponseCode_success _

theorem responseCode_answer (hs : s ≠ .success) :
    (recordedAnswer env r s info error rule).responseCode =
      if s = .noCustomBlueprintMatched ∧ r.categoryMatch = some false then some .miscategorized
      else tableCode s := by
  simp only [recordedAnswer, answerTo, if_neg hs]
  cases ht : terminalStatusResponses s with
  | none =>
    have hn : s ≠ .noCustomBlueprintMatched := by
      rintro rfl
      cases ht
    rw [if_neg fun h => hn h.1, tableCode, ht]
    rfl
  | some t =>
    have key : ∀ c : Option Bool, ((if s = .noCustomBlueprintMatched ∧ c = some false then
          (some .miscategorized, false) else (tableCode s, false) : Option ResponseCode × Bool).1).or
        t.responseCode =
        if s = .noCustomBlueprintMatched ∧ c = some false then some .miscategorized
        else tableCode s := by
      intro c
      split
      · rfl
      · rw [tableCode, ht, Option.bind_some]
        cases t.responseCode <;> rfl
    simp only [terminalResponse, resolveResponseCode, if_neg hs]
    exact key _

end

end DocumentAi
