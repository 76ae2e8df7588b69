import DocumentAi.Utils.UpdateText
import Mathlib.Data.List.Flatten

/-!
# No update expression is malformed

Whatever fields are given, the clauses of a request are some of one fixed list, in its order, and
the keys bound are the placeholders these clauses use (`Fits`). The fixed list is checked once:
its words are plain, no two of its paths overlap (`tidy_updateAssigns`, `tidy_upsertAssigns`).

A condition comes with the values of its placeholders (`Guard`).
-/

namespace DocumentAi.UpdateText

open Expression (Assign Request Tidy aliases isPlaceholder isValue setText)
open Effect.Prog (Spec spec_bind spec_ret spec_tryCatch all_true)

/-! ## Clauses of a fixed list, bound as they are used -/

/-- `b` makes some of the assignments `as`, and binds the placeholders of those it makes. -/
structure Fits (as : List Assign) (b : Built) : Prop where
  updates : b.updates.Sublist as
  bound   : ∀ v, v ∈ b.updates.map Assign.value ↔ v ∈ b.values.map Prod.fst

section
variable {as as' : List Assign} {b b' : Built}

theorem fits_empty (as : List Assign) : Fits as {} := ⟨List.nil_sublist as, fun _ => Iff.rfl⟩

theorem fits_self (h : ∀ v, v ∈ b.updates.map Assign.value ↔ v ∈ b.values.map Prod.fst) :
    Fits b.updates b :=
  ⟨List.Sublist.refl _, h⟩

theorem Fits.append (h : Fits as b) (h' : Fits as' b') : Fits (as ++ as') (b ++ b') := by
  refine ⟨h.updates.append h'.updates, fun v => ?_⟩
  change v ∈ (b.updates ++ b'.updates).map Assign.value ↔ v ∈ (b.values ++ b'.values).map Prod.fst
  rw [List.map_append, List.map_append, List.mem_append, List.mem_append, h.bound v, h'.bound v]

theorem Fits.mono (hs : as.Sublist as') (h : Fits as b) : Fits as' b :=
  ⟨h.updates.trans hs, h.bound⟩

/-- Without a clause nothing is bound. -/
theorem Fits.values_eq_nil (h : Fits as b) (hb : b.updates = []) : b.values = [] := by
  cases hv : b.values with
  | nil => rfl
  | cons e es =>
    have hmem : e.1 ∈ b.updates.map Assign.value :=
      (h.bound e.1).2 (hv ▸ List.mem_cons_self)
    rw [hb] at hmem
    cases hmem

theorem fits_setWith (attr placeholder : String) (v : Option BoundValue) :
    Fits [.set attr placeholder] (setWith attr placeholder placeholder v) := by
  cases v with
  | none => exact fits_empty _
  | some v => exact fits_self (b := setWith attr placeholder placeholder (some v)) fun _ => Iff.rfl

theorem Fits.andSet (h : Fits as b) (attr placeholder : String) (v : Option BoundValue) :
    Fits (as ++ [.set attr placeholder]) (b ++ setWith attr placeholder placeholder v) :=
  h.append (fits_setWith attr placeholder v)

theorem fits_getD {o : Option Built} (h : ∀ b, o = some b → Fits as b) : Fits as (o.getD {}) := by
  cases o with
  | none => exact fits_empty as
  | some b => exact h b rfl

end

def DdbField.assign (f : DdbField) : Assign := .set f.ddbAttr f.ddbParam

theorem fits_applyDdbFields : ∀ fs : List DdbField, Fits (fs.map DdbField.assign) (applyDdbFields fs)
  | []      => fits_empty _
  | f :: fs => (fits_setWith f.ddbAttr f.ddbParam f.value).append (fits_applyDdbFields fs)

/-! ## The clauses of `update_ddb` -/

def mappingAssigns : List Assign :=
  ["bdaOutputS3Uri", "matchedBlueprintName", "matchedBlueprintConfidence", "fieldConfidenceScores",
    "additionalInfo", "bdaMatchedDocumentClass", "matchedBlueprintFieldEmptyList",
    "matchedBlueprintFieldMissingGeometryList", "matchedBlueprintFieldBelowThresholdList",
    "matchedBlueprintFieldCount", "matchedBlueprintFieldCountNotEmpty",
    "matchedBlueprintFieldNotEmptyAvgConfidence"].map fun a => .set a (paramKey a)

def timingAssigns : List Assign :=
  [.set "extractionStartedAt" ":extractionStartedAt",
    .set "extractionWaitTimeSeconds" ":extractionWaitTimeSeconds",
    .set "extractionCompletedAt" ":extractionCompletedAt",
    .set "processedDate" ":processedDate",
    .set "totalProcessingTimeSeconds" ":totalProcessingTime",
    .set "extractionProcessingTimeSeconds" ":extractionProcessingTime"]

/-- The clauses of `_build_update_expression`. -/
def expressionAssigns : List Assign :=
  .set "processStatus" ":processStatus" :: .set "updatedAt" ":updatedAt" :: (mappingAssigns ++
    [.set "responseJson" ":responseJson",
      .set "responseCode" ":responseCode",
      .set "v1ApiResponseJson" ":v1ResponseJson",
      .set "bdaInvocationArn" ":bdaInvocationArn",
      .set "bdaInvocationId" ":bdaInvocationId",
      .set "bdaRegionUsed" ":bdaRegion",
      .set "extractionMethod" ":extractMethod",
      .set "bdaProjectArn" ":bdaProjectArn",
      .set "usedCategorySpecificProject" ":usedCategorySpecificProject",
      .set "errorMessage" ":errorMessage",
      .set "belowExtractionConfidenceFloor" ":belowFloor",
      .set "extractionRulesConfigured" ":extractionRulesConfigured",
      .set "missingRequiredFieldList" ":missingRequiredFieldList",
      .set "requiredFieldList" ":requiredFieldList",
      .set "extractionConfidenceThreshold" ":extractionConfidenceThreshold",
      .set "usedDefaultExtractionConfidenceThreshold" ":usedDefaultExtractionConfidenceThreshold"])

def updateAssigns : List Assign :=
  expressionAssigns ++
    (.set "pagesSentToBda" ":pagesSentToBda" ::
      .set "bdaInvokeDurationSeconds" ":bdaInvokeDs" ::
      .set "bdaInvokeRetryCount" ":bdaRetryCount" ::
      .set "resultProcessorStartedAt" ":rpStartedAt" :: timingAssigns)

theorem tidy_updateAssigns : Tidy [] updateAssigns := by decide +kernel

theorem attributes_updateAssigns :
    (updateAssigns.flatMap Assign.attributes).filter (isPlaceholder '#') = [] := by
  decide +kernel

theorem fits_classificationBuilt (env : EnvConfig) (data : ClassificationData) :
    Fits mappingAssigns (classificationBuilt env data) := by
  unfold classificationBuilt fieldMapping
  exact ((((((((((((fits_setWith _ _ _).andSet _ _ _).andSet _ _ _).andSet _ _ _).andSet _ _ _).andSet
    _ _ _).andSet _ _ _).andSet _ _ _).andSet _ _ _).andSet _ _ _).andSet _ _ _).andSet _ _ _)

theorem fits_responseBuilt (r : Option InternalApiResponse) :
    Fits [.set "responseJson" ":responseJson", .set "responseCode" ":responseCode"]
      (responseBuilt r) := by
  cases r with
  | none => exact fits_empty _
  | some r => exact fits_self (b := responseBuilt (some r)) fun _ => Iff.rfl

theorem fits_invocationBuilt (m : ExtractMethod) (arn : Option String) :
    Fits [.set "bdaInvocationArn" ":bdaInvocationArn", .set "bdaInvocationId" ":bdaInvocationId",
      .set "bdaRegionUsed" ":bdaRegion", .set "extractionMethod" ":extractMethod"]
      (invocationBuilt m arn) := by
  cases arn with
  | none => exact fits_empty _
  | some arn => exact fits_self (b := invocationBuilt m (some arn)) fun _ => Iff.rfl

theorem fits_updateBuilt (env : EnvConfig) (now : Timestamp) (v1 : Option String)
    (u : UpdateDdbRecord) : Fits expressionAssigns (updateBuilt env now v1 u) := by
  have hdata : Fits mappingAssigns ((u.data.map (classificationBuilt env)).getD {}) := by
    refine fits_getD fun b hb => ?_
    obtain ⟨data, -, rfl⟩ := Option.map_eq_some_iff.1 hb
    exact fits_classificationBuilt env data
  have hstatus : Fits [.set "processStatus" ":processStatus", .set "updatedAt" ":updatedAt"]
      ⟨[.set "processStatus" ":processStatus", .set "updatedAt" ":updatedAt"],
        [(":processStatus", .status u.status), (":updatedAt", .time now)]⟩ :=
    fits_self (b := ⟨_, [(":processStatus", .status u.status), (":updatedAt", .time now)]⟩)
      fun _ => Iff.rfl
  have h : Fits _ (updateBuilt env now v1 u) :=
    ((((((((((((hstatus.append hdata).append (fits_responseBuilt _)).andSet _ _ _).append
      (fits_invocationBuilt _ _)).andSet _ _ _).andSet _ _ _).andSet _ _ _).andSet _ _ _).andSet
      _ _ _).andSet _ _ _).andSet _ _ _).andSet _ _ _).andSet _ _ _
  exact h

theorem fits_timingBuilt (k : String) (s : ProcessStatus) (uri : Option String) :
    Spec (fun _ => True) (Fits timingAssigns) (timingBuilt k s uri) := by
  unfold timingBuilt
  split
  · refine spec_bind (all_true _) fun now _ => spec_bind (Q := Fits
      [.set "extractionWaitTimeSeconds" ":extractionWaitTimeSeconds"]) ?_ fun wait hw => ?_
    · refine spec_tryCatch (spec_bind (all_true _) fun w _ => ?_) fun _ => fits_empty _
      exact fits_setWith _ _ _
    · exact ((fits_setWith _ _ _).append hw).mono (by decide +kernel)
  · split
    · refine spec_bind (all_true _) fun r _ => ?_
      split
      · exact fits_empty _
      · split
        · exact fits_empty _
        · refine spec_bind (all_true _) fun now _ => spec_bind (all_true _) fun completed _ =>
            spec_bind (all_true _) fun timing _ => ?_
          have h := (((fits_setWith "extractionCompletedAt" ":extractionCompletedAt"
            (some (.time completed))).andSet "processedDate" ":processedDate"
            (some (.day (stripTime completed)))).andSet "totalProcessingTimeSeconds"
            ":totalProcessingTime" (when (timing.totalProcessingTimeSeconds ≠ 0)
              (.hundredths timing.totalProcessingTimeSeconds))).andSet
            "extractionProcessingTimeSeconds" ":extractionProcessingTime"
            (when (timing.bdaProcessingTimeSeconds ≠ 0)
              (.hundredths timing.bdaProcessingTimeSeconds))
          exact h.mono (by decide +kernel)
    · exact fits_empty _

/-! ## The text of a request -/

/-- `e` is the text and the assigned values of clauses that fit, at least one. -/
def Writes (as : List Assign) (e : String × Values) : Prop :=
  ∃ b, Fits as b ∧ b.updates ≠ [] ∧ e = (setText b.updates, b.values)

theorem writes_buildUpdateExpression (env : EnvConfig) (now : Timestamp) (v1 : Option String)
    (u : UpdateDdbRecord) : Writes expressionAssigns (buildUpdateExpression env now v1 u) := by
  refine ⟨updateBuilt env now v1 u, fits_updateBuilt env now v1 u, ?_, rfl⟩
  obtain ⟨rest, hrest⟩ : ∃ rest, (updateBuilt env now v1 u).updates =
      .set "processStatus" ":processStatus" :: rest := ⟨_, rfl⟩
  rw [hrest]
  exact List.cons_ne_nil _ _

theorem Writes.alsoSet {as : List Assign} {e : String × Values} (h : Writes as e)
    (attr placeholder : String) (v : Option BoundValue) :
    Writes (as ++ [.set attr placeholder]) (alsoSet attr placeholder placeholder v e) := by
  obtain ⟨b, hb, hne, rfl⟩ := h
  refine ⟨b ++ setWith attr placeholder placeholder v, hb.andSet attr placeholder v,
    List.append_ne_nil_of_left_ne_nil hne _, ?_⟩
  cases v with
  | none =>
    change _ = (setText (b.updates ++ []), b.values ++ [])
    rw [List.append_nil, List.append_nil]
    rfl
  | some v =>
    change (setText b.updates ++ ", " ++ (Assign.set attr placeholder).text,
      b.values ++ [(placeholder, v)]) = _
    rw [Expression.setText_concat hne]
    rfl

theorem text_ne_empty (a : Assign) : a.text ≠ "" := by
  intro h
  have hlist := congrArg String.toList h
  cases a <;> simp [Assign.text] at hlist

theorem intercalate_text_eq_empty {as : List Assign} :
    ", ".intercalate (as.map Assign.text) = "" ↔ as = [] := by
  constructor
  · intro h
    cases as with
    | nil => rfl
    | cons a as =>
      exfalso
      cases as with
      | nil =>
        rw [List.map_singleton, String.intercalate_singleton] at h
        exact text_ne_empty a h
      | cons b as =>
        have hlist := congrArg String.toList h
        rw [List.map_cons, List.map_cons, String.intercalate_cons_cons] at hlist
        simp at hlist
  · rintro rfl
    rfl

theorem Writes.alsoUpdates {as as' : List Assign} {e : String × Values} {t : Built}
    (h : Writes as e) (ht : Fits as' t) : Writes (as ++ as')
      (alsoUpdates e (", ".intercalate (t.updates.map Assign.text), t.values)) := by
  obtain ⟨b, hb, hne, rfl⟩ := h
  refine ⟨b ++ t, hb.append ht, List.append_ne_nil_of_left_ne_nil hne _, ?_⟩
  change _ = (setText (b.updates ++ t.updates), b.values ++ t.values)
  unfold UpdateText.alsoUpdates
  split
  next hempty =>
    have hupdates := intercalate_text_eq_empty.1 hempty
    rw [hupdates, ht.values_eq_nil hupdates, List.append_nil, List.append_nil]
  next hnonempty =>
    have hupdates : t.updates ≠ [] := fun hnil => hnonempty (intercalate_text_eq_empty.2 hnil)
    rw [← Expression.setText_append hne hupdates]

theorem mem_keys_dict {entries : Values} {v : String} :
    v ∈ (dict entries).map Prod.fst ↔ v ∈ entries.map Prod.fst := by
  rw [dict, Dict.mem_keys_assignAll, List.mem_map]

/-! ## Conditions -/

/-- A condition with the values of its placeholders. `update_ddb` takes no names of its own, so a
condition writes its attributes out. -/
structure Guard where
  expression : String
  values     : Values
  no_alias   : aliases (Expression.words expression) = []
  bound      : ∀ v, v ∈ (Expression.words expression).filter isValue ↔ v ∈ values.map Prod.fst

/-- The guard of `_write_terminal_status`. -/
def nonTerminalGuard : Guard where
  expression := buildDdbNonTerminalCondition.1
  values     := buildDdbNonTerminalCondition.2
  no_alias   := by decide +kernel
  bound      := fun v => by
    have hkeys : (Expression.words buildDdbNonTerminalCondition.1).filter isValue =
        buildDdbNonTerminalCondition.2.map Prod.fst := by decide +kernel
    rw [hkeys]

/-- The words of the condition that is sent. -/
def guardWords (g : Option Guard) : List String :=
  (g.map fun g => Expression.words g.expression).getD []

def guardValues (g : Option Guard) : Values := (g.map Guard.values).getD []

theorem conditionWords_updateItem (text : String) (values : Values)
    (names : Option (List (String × String))) (g : Option Guard) :
    (updateItem text values names (g.map Guard.expression)).conditionWords = guardWords g := by
  have hempty : Expression.words "" = [] := by decide +kernel
  cases g with
  | none => rfl
  | some g =>
    change ((truthy (some g.expression)).map Expression.words).getD [] = Expression.words g.expression
    by_cases h : g.expression = ""
    · rw [h, hempty]
      rfl
    · rw [truthy, Option.filter_some, if_pos (by simpa using h)]
      rfl

theorem no_alias_guardWords (g : Option Guard) : aliases (guardWords g) = [] := by
  cases g with
  | none => rfl
  | some g => exact g.no_alias

theorem bound_guardWords (g : Option Guard) (v : String) :
    v ∈ (guardWords g).filter isValue ↔ v ∈ (guardValues g).map Prod.fst := by
  cases g with
  | none => exact Iff.rfl
  | some g => exact g.bound v

/-! ## The two requests -/

/-- A request of clauses of the list, with their values and those of the condition. -/
theorem wellFormed_updateItem {e : String × Values} (he : Writes updateAssigns e)
    (g : Option Guard) :
    (updateItem e.1 (dict (e.2 ++ guardValues g)) none (g.map Guard.expression)).WellFormed := by
  obtain ⟨b, hb, hne, rfl⟩ := he
  have htidy : Tidy [] b.updates := tidy_updateAssigns.sublist hb.updates
  have hnames : (b.updates.flatMap Assign.attributes).filter (isPlaceholder '#') = [] := by
    have hsub := (hb.updates.flatMap Assign.attributes).filter (isPlaceholder '#')
    rw [attributes_updateAssigns] at hsub
    exact List.sublist_nil.1 hsub
  refine (htidy.wellFormed_iff rfl hne).2 ⟨fun v => ?_, fun n => ?_⟩
  · rw [conditionWords_updateItem, bound_guardWords, hb.bound]
    change _ ↔ v ∈ (dict (b.values ++ guardValues g)).map Prod.fst
    rw [mem_keys_dict, List.map_append, List.mem_append]
  · rw [conditionWords_updateItem, no_alias_guardWords, hnames]
    exact or_self_iff

theorem wellFormed_updateDdbRequest (env : EnvConfig) (data : UpdateFields) (g : Option Guard) :
    Spec (fun _ => True) Request.WellFormed (updateDdbRequest env data (g.map Guard.expression)
      (g.map Guard.values)) := by
  unfold updateDdbRequest buildTimingUpdates
  refine spec_bind (all_true _) fun now _ => spec_bind (spec_bind (fits_timingBuilt ..)
    (R := fun t => ∃ b, Fits timingAssigns b ∧
      t = (", ".intercalate (b.updates.map Assign.text), b.values)) fun b hb => ⟨b, hb, rfl⟩)
    fun t ht => ?_
  obtain ⟨timing, hfits, rfl⟩ := ht
  have he := ((((writes_buildUpdateExpression env now none data.toUpdateDdbRecord).alsoSet
    "pagesSentToBda" ":pagesSentToBda" (data.pagesSentToBda.map .count)).alsoSet
    "bdaInvokeDurationSeconds" ":bdaInvokeDs" (data.bdaInvokeDurationSeconds.map .number)).alsoSet
    "bdaInvokeRetryCount" ":bdaRetryCount" (data.bdaInvokeRetryCount.map .count)).alsoSet
    "resultProcessorStartedAt" ":rpStartedAt" (data.resultProcessorStartedAt.map .time)
  have hall := he.alsoUpdates hfits
  rw [List.append_assoc, List.append_assoc, List.append_assoc, List.append_assoc] at hall
  exact wellFormed_updateItem hall g

/-! ## The clauses of `upsert_ddb` -/

def initialAssigns : List Assign :=
  [.set "fileSizeBytes" ":fileSize", .set "contentType" ":contentType",
    .set "pagesDetected" ":pages", .set "jobId" ":jobId",
    .set "systemDocumentId" ":systemDocumentId", .set "traceId" ":traceId",
    .set "batchId" ":batchId", .set "ocrAvgWordConfidence" ":ocrConf",
    .set "documentWordCount" ":wordCount",
    .set "isDocumentBlurryReason" ":isDocumentBlurryReason",
    .set "documentWordQuadrantStats" ":wordQuadrantStats",
    .set "externalDocumentId" ":extDocId", .set "externalSystemId" ":extSysId",
    .set "uploadMethod" ":uploadMethod", .set "uploadSource" ":uploadSource",
    .set "tenantId" ":tenantId", .set "apiKeyName" ":clientName", .set "isDemo" ":isDemo",
    .set "isTestRun" ":isTestRun", .set "isCompare" ":isCompare",
    .set "documentProcessorStartedAt" ":dpStartedAt",
    .set "isDocumentProcessorColdStart" ":dpColdStart",
    .set "processingPercentage" ":procPct", .set "processingAssignedValue" ":procAssigned",
    .set "s3FetchDurationSeconds" ":s3FetchDs",
    .set "blurDetectionDurationSeconds" ":blurDetDs", .set "traceparent" ":traceparent",
    .set "imageOptCropBlockDurationSeconds" ":imgOptCropBlockDs",
    .set "imageOptWriteDurationSeconds" ":imgOptWriteDs"]

def preClassificationAssigns : List Assign :=
  [.set "preclassificationCategory" ":pcdt", .set "preclassificationConfidence" ":pcc",
    .set "preclassificationInputTokens" ":pcit", .set "preclassificationOutputTokens" ":pcot",
    .set "preclassificationDurationSeconds" ":pcds", .set "preclassificationModelId" ":pcmi",
    .set "preclassificationCategoryMatch" ":pccm",
    .set "preclassificationBlueprintMatchedType" ":pcbmt",
    .set "preclassificationBlueprintMatchConfidence" ":pcbmc",
    .set "preclassificationBlueprintMatchInputTokens" ":pcbmit",
    .set "preclassificationBlueprintMatchOutputTokens" ":pcbmot",
    .set "preclassificationBlueprintMatchDurationSeconds" ":pcbmds",
    .set "preclassificationBlueprintMatchCategory" ":pcbmcat",
    .set "preclassificationMaxDocumentCountOnPage" ":pcmdcop",
    .set "preclassificationMaxDocumentCountOnPageReason" ":pcmdcopr",
    .set "preclassificationHasMultipageInconsistency" ":pchmi",
    .set "preclassificationHasMultipageInconsistencyReason" ":pcpmir"]

/-- What `upsert_ddb` always sets. -/
def alwaysAssigns : List Assign :=
  [.set "originalFileName" ":originalFileName",
    .set "originalFileNameLower" ":originalFileNameLower",
    .set "processStatus" ":processStatus",
    .setIfNotExists "createdAt" "createdAt" ":now",
    .set "updatedAt" ":now",
    .set "isPasswordProtected" ":pwProt",
    .set "isDocumentBlurry" ":blurry",
    .set "blurAnalysisFailed" ":blurFailed",
    .set "wasBlurLlmInvoked" ":blurLlm",
    .setIfNotExists "aiConsentFlag" "aiConsentFlag" ":aiConsent",
    .setIfNotExists "#ttl" "#ttl" ":ttl"]

def compareAssigns : List Assign :=
  [.setIfNotExists "apiResponsesByMethod" "apiResponsesByMethod" ":emptyMap",
    .setIfNotExists "durationsByMethod" "durationsByMethod" ":emptyMap"]

def laterUpsertAssigns : List Assign :=
  .set "userProvidedDocumentCategory" ":category" :: (compareAssigns ++
    .setIfNotExists "tokensByModel" "tokensByModel" ":emptyTokenMap" :: (initialAssigns ++
      .set "responseJson" ":respJson" :: preClassificationAssigns))

def ttlNames : List (String × String) := [("#ttl", "ttl")]

theorem tidy_upsertAssigns : Tidy ttlNames (alwaysAssigns ++ laterUpsertAssigns) := by
  decide +kernel

/-- `:now` is bound once and used twice. -/
theorem fits_alwaysBuilt (now : Timestamp) (d : InitialDdbRecord) :
    Fits alwaysAssigns (alwaysBuilt now d) := by
  have hused : ∀ v ∈ alwaysAssigns.map Assign.value, v ∈ [":originalFileName",
      ":originalFileNameLower", ":processStatus", ":now", ":pwProt", ":blurry", ":blurFailed",
      ":blurLlm", ":aiConsent", ":ttl"] := by decide +kernel
  have hbound : ∀ v ∈ [":originalFileName", ":originalFileNameLower", ":processStatus", ":now",
      ":pwProt", ":blurry", ":blurFailed", ":blurLlm", ":aiConsent", ":ttl"],
      v ∈ alwaysAssigns.map Assign.value := by decide +kernel
  exact fits_self (b := alwaysBuilt now d) fun v => ⟨hused v, hbound v⟩

theorem fits_compareBuilt (isCompare : Option Bool) :
    Fits compareAssigns (compareBuilt isCompare) := by
  unfold compareBuilt
  split
  · refine ⟨List.Sublist.refl _, fun v => ?_⟩
    change v ∈ [":emptyMap", ":emptyMap"] ↔ v ∈ [":emptyMap"]
    rw [List.mem_cons, or_iff_right_of_imp]
    rintro rfl
    exact List.mem_cons_self
  · exact fits_empty _

theorem fits_upsertBuilt (now : Timestamp) (d : InitialFields) :
    Fits (alwaysAssigns ++ laterUpsertAssigns) (upsertBuilt now d) := by
  have htokens : Fits [.setIfNotExists "tokensByModel" "tokensByModel" ":emptyTokenMap"]
      ⟨[.setIfNotExists "tokensByModel" "tokensByModel" ":emptyTokenMap"],
        [(":emptyTokenMap", .emptyMap)]⟩ :=
    fits_self (b := ⟨_, [(":emptyTokenMap", .emptyMap)]⟩) fun _ => Iff.rfl
  have hinitial : Fits initialAssigns (applyDdbFields (initialFields d)) :=
    fits_applyDdbFields (initialFields d)
  have hpre : Fits preClassificationAssigns ((d.preClassification.map fun p =>
      applyDdbFields (preClassificationFields d.preClassificationDurations p)).getD {}) := by
    refine fits_getD fun b hb => ?_
    obtain ⟨p, -, rfl⟩ := Option.map_eq_some_iff.1 hb
    exact fits_applyDdbFields (preClassificationFields d.preClassificationDurations p)
  have h : Fits _ (upsertBuilt now d) :=
    ((((((fits_alwaysBuilt now d.toInitialDdbRecord).andSet _ _ _).append
      (fits_compareBuilt d.isCompare)).append htokens).append hinitial).andSet _ _ _).append hpre
  exact h

theorem updates_append (b b' : Built) : (b ++ b').updates = b.updates ++ b'.updates := rfl

theorem ttl_mem_upsertBuilt (now : Timestamp) (d : InitialFields) :
    .setIfNotExists "#ttl" "#ttl" ":ttl" ∈ (upsertBuilt now d).updates := by
  have halways : Assign.setIfNotExists "#ttl" "#ttl" ":ttl" ∈ alwaysAssigns := by decide +kernel
  simp only [upsertBuilt, updates_append, List.mem_append]
  exact .inl (.inl (.inl (.inl (.inl (.inl halways)))))

theorem wellFormed_upsertDdbRequest (now : Timestamp) (d : InitialFields) :
    (upsertDdbRequest now d).WellFormed := by
  have hb := fits_upsertBuilt now d
  have hne : (upsertBuilt now d).updates ≠ [] := List.ne_nil_of_mem (ttl_mem_upsertBuilt now d)
  have htidy : Tidy (upsertDdbRequest now d).names (upsertBuilt now d).updates :=
    tidy_upsertAssigns.sublist hb.updates
  have htext : (upsertDdbRequest now d).updateExpression = setText (upsertBuilt now d).updates := rfl
  have hnames : ∀ n, n ∈ ((upsertBuilt now d).updates.flatMap Assign.attributes).filter
      (isPlaceholder '#') ↔ n ∈ ["#ttl"] := by
    have hall : ∀ n ∈ ((alwaysAssigns ++ laterUpsertAssigns).flatMap Assign.attributes).filter
        (isPlaceholder '#'), n ∈ ["#ttl"] := by decide +kernel
    intro n
    constructor
    · exact fun h => hall n (((hb.updates.flatMap Assign.attributes).filter _).subset h)
    · intro h
      rw [List.mem_singleton.1 h, List.mem_filter, List.mem_flatMap]
      exact ⟨⟨_, ttl_mem_upsertBuilt now d, List.mem_cons_self⟩, by decide +kernel⟩
  have hcondition : (upsertDdbRequest now d).conditionWords = [] := rfl
  have hvalues : (upsertDdbRequest now d).values = dict (upsertBuilt now d).values := by
    simp only [upsertDdbRequest, updateItem]
  refine (htidy.wellFormed_iff htext hne).2 ⟨fun v => ?_, fun n => ?_⟩
  · rw [hcondition, hvalues, mem_keys_dict, ← hb.bound]
    exact or_iff_left List.not_mem_nil
  · rw [hcondition, hnames]
    exact or_iff_left List.not_mem_nil

/-- No request of `update_ddb`, whatever the record, the condition and the answers of the reads,
and no request of `upsert_ddb` is malformed. The condition the code passes is such a condition. -/
theorem updateExpressions_wellFormed :
    (∀ (env : EnvConfig) (data : UpdateFields) (condition : Option Guard),
      Spec (fun _ => True) Request.WellFormed (updateDdbRequest env data
        (condition.map Guard.expression) (condition.map Guard.values))) ∧
    (∃ g : Guard, (g.expression, g.values) = buildDdbNonTerminalCondition) ∧
    ∀ (now : Timestamp) (data : InitialFields), (upsertDdbRequest now data).WellFormed :=
  ⟨wellFormed_updateDdbRequest, ⟨nonTerminalGuard, rfl⟩, wellFormed_upsertDdbRequest⟩

end DocumentAi.UpdateText
