import DocumentAi.Runs.MetricsOutcome
import Mathlib.Data.List.Dedup

/-!
# The stored answer and the rebuilt one

A client that asks for the extracted data gets an answer rebuilt from the record and the stored
output (`routers/documents.py:325-341`), without the data and the error the classifier had in hand.

| here | meaning |
| --- | --- |
| `World.output w env r` | what `read_output` reads for the record `r` when no read fails |
| `confidenceIn l n`     | the rounded confidence of the field `n`, in a list of confidences |
| `Agrees x y`           | the same answer, but for field values and geometry |
| `SameFields`           | the record and its output give the same fields and the same missing ones |
| `Rebuilds`             | the answer to a status needs nothing that the record has not |
-/

namespace DocumentAi

open Effect (Event Ends ends_bind_iff ends_tryCatch_iff ends_perform_iff ends_ret_iff)

/-! ## Reading the output -/

/-- The JSON object in an S3 object. -/
def S3Object.json (o : S3Object) : Option Body :=
  match o.body with
  | .raw _ | .ocrBlocks _ => none
  | b                     => some b

/-- The stored result at a URI, if it is in the configured bucket and decodes. -/
def World.resultAt (w : World) (env : EnvConfig) (uri : String) : Option Body :=
  match expectedResultBucket env with
  | .error _     => none
  | .ok expected =>
    if expected.all (· == (resultLocation uri).1) then
      (w.object (resultLocation uri)).bind S3Object.json
    else none

def World.output (w : World) (env : EnvConfig) (r : Record) : ReaderResult :=
  (((truthy (r .bdaOutputS3Uri : Option String)).bind (w.resultAt env)).map
    (readers env ((r .extractionMethod : Option ExtractMethod).getD .bda))).getD {}

/-- No read of an object that is there has failed. -/
def ObjectsRead (w : World) (tr : List (Event sig)) : Prop :=
  ∀ k e, (⟨.getObject k, .error e⟩ : Event sig) ∈ tr → w.object k = none

section
variable {env : EnvConfig} {w w' : World} {tr : List (Event sig)}

theorem ObjectsRead.mono {tr₁ : List (Event sig)} (h : ObjectsRead w tr)
    (hsub : ∀ ev ∈ tr₁, ev ∈ tr) : ObjectsRead w tr₁ := fun k e hm => h k e (hsub _ hm)

theorem ends_getObject {k : S3Key} {r : Except Exc S3Object}
    (h : Ends system w (call (.getObject k)) tr r w') :
    tr = [⟨.getObject k, r⟩] ∧ (∀ o, r = .ok o → w.object k = some o) := by
  obtain ⟨ch, hx, rfl⟩ := ends_perform_iff.1 h
  refine ⟨rfl, fun o ho => ?_⟩
  subst ho
  have hrun := exec_of_ok hx
  simp only [World.run] at hrun
  cases hobj : w.object k with
  | none =>
    rw [hobj] at hrun
    cases hrun
  | some o' =>
    rw [hobj] at hrun
    simp only [World.ok, Option.some.injEq, Prod.mk.injEq] at hrun
    cases Except.ok.inj hrun.1
    rfl

theorem ends_json {o : S3Object} {out : Except Exc (Option Body)}
    (h : Ends system w (match o.body with
      | .raw _ | .ocrBlocks _ => pure none
      | b                     => pure (some b) : Prog (Option Body)) tr out w') :
    out = .ok o.json := by
  unfold S3Object.json
  cases hbody : o.body <;> rw [hbody] at h <;> cases (ends_ret_iff.1 h).2.1 <;> rfl

/-- `get_bda_result_json` gives what is there, or nothing when a read failed. -/
theorem ends_getBdaResultJson {uri : String} {out : Except Exc (Option Body)} (huri : uri ≠ "")
    (h : Ends system w (getBdaResultJson env uri) tr out w') (hread : ObjectsRead w tr) :
    out = .ok (w.resultAt env uri) := by
  unfold getBdaResultJson at h
  rw [if_neg huri] at h
  unfold World.resultAt
  cases hbucket : expectedResultBucket env with
  | error e =>
    rw [hbucket] at h
    rcases ends_tryCatch_iff.1 h with ⟨a, rfl, hok⟩ | ⟨e', w₁, tr₁, tr₂, herr, hret, rfl⟩
    · cases (Effect.ends_raise_iff.1 hok).2.1
    · obtain ⟨_, rfl, _⟩ := ends_ret_iff.1 hret
      rfl
  | ok expected =>
    rw [hbucket] at h
    dsimp only
    split
    next hall =>
      rcases ends_tryCatch_iff.1 h with ⟨a, rfl, hok⟩ | ⟨e', w₁, tr₁, tr₂, herr, hret, rfl⟩
      · change Ends system w (if expected.all (· == (resultLocation uri).1) then _ else _) tr _ w' at hok
        rw [if_pos hall] at hok
        rcases ends_bind_iff.1 hok with ⟨e, he, _⟩ | ⟨o, w₂, tr₃, tr₄, h₃, h₄, rfl⟩
        · cases he
        rw [(ends_getObject h₃).2 o rfl]
        exact ends_json h₄
      · obtain ⟨_, rfl, _⟩ := ends_ret_iff.1 hret
        change Ends system w (if expected.all (· == (resultLocation uri).1) then _ else _) tr₁ _ w₁
          at herr
        rw [if_pos hall] at herr
        rcases ends_bind_iff.1 herr with ⟨e, he, herr⟩ | ⟨o, w₂, tr₃, tr₄, h₃, h₄, rfl⟩
        · obtain ⟨rfl, _⟩ := ends_getObject herr
          rw [hread _ e (List.mem_append_left _ List.mem_cons_self)]
          rfl
        · cases ends_json h₄
    next hall =>
      rcases ends_tryCatch_iff.1 h with ⟨a, rfl, hok⟩ | ⟨e', w₁, tr₁, tr₂, herr, hret, rfl⟩
      · change Ends system w (if expected.all (· == (resultLocation uri).1) then _ else _) tr _ w' at hok
        rw [if_neg hall] at hok
        obtain ⟨_, ha, _⟩ := ends_ret_iff.1 hok
        cases ha
        rfl
      · obtain ⟨_, rfl, _⟩ := ends_ret_iff.1 hret
        rfl

theorem truthy_ne {o : Option String} {s : String} (h : truthy o = some s) : s ≠ "" := by
  obtain ⟨_, hs⟩ := Option.filter_eq_some_iff.1 h
  simpa using hs

/-- What is read at the given URI or at the record's, with the given reader or the record's. -/
theorem ends_readOutput_at {r : Record} {reader : ReaderResult} {outputUri : Option String}
    {method : Option ExtractMethod} {uri : String}
    (h : Ends system w (readOutput env r true outputUri method) tr (.ok reader) w')
    (huri : (truthy outputUri).or (truthy (r .bdaOutputS3Uri : Option String)) = some uri)
    (hread : ObjectsRead w tr) :
    reader = ((w.resultAt env uri).map (readers env
      ((method.or (r .extractionMethod : Option ExtractMethod)).getD .bda))).getD {} := by
  have hne : uri ≠ "" := by
    cases ht : truthy outputUri with
    | none =>
      rw [ht, Option.none_or] at huri
      exact truthy_ne huri
    | some u =>
      rw [ht, Option.some_or] at huri
      exact truthy_ne (ht.trans huri)
  unfold readOutput at h
  rw [if_neg (by simp), huri] at h
  rcases ends_bind_iff.1 h with ⟨e, he, _⟩ | ⟨raw, w₁, tr₁, tr₂, h₁, h₂, rfl⟩
  · cases he
  have hraw := ends_getBdaResultJson hne h₁ (hread.mono fun _ => List.mem_append_left _)
  cases Except.ok.inj hraw
  cases (ends_ret_iff.1 h₂).2.1
  rfl

theorem ends_readOutput {r : Record} {reader : ReaderResult}
    (h : Ends system w (readOutput env r true) tr (.ok reader) w') (hread : ObjectsRead w tr) :
    reader = w.output env r := by
  unfold World.output
  cases huri : truthy (r .bdaOutputS3Uri : Option String) with
  | none =>
    unfold readOutput at h
    rw [if_neg (by simp), huri] at h
    cases (ends_ret_iff.1 h).2.1
    rfl
  | some uri => exact ends_readOutput_at h huri hread

end

/-! ## The same answer but for values and geometry -/

def confidenceOf (fields : Option (List (String × FieldEntry))) (n : String) : Option Rat :=
  ((fields.getD []).lookup n).map (·.confidence)

/-- Of a name that comes twice, the last confidence. -/
def confidenceIn (l : FieldConfidences) (n : String) : Option Rat :=
  (l.reverse.find? fun f => f.1 = n).map fun f => round2 f.2

structure Agrees (x y : V1ApiResponse) : Prop where
  jobStatus      : x.jobStatus = y.jobStatus
  responseCode   : x.responseCode = y.responseCode
  message        : x.message = y.message
  error          : x.error = y.error
  additionalInfo : x.additionalInfo = y.additionalInfo
  missing        : x.missingRequiredFieldList = y.missingRequiredFieldList
  fields         : ∀ n, confidenceOf x.fields n = confidenceOf y.fields n

/-- The rule leaves the field in the answer. -/
def keeps (env : EnvConfig) (r : Record) : Option ExtractionRule → String → Bool
  | none, _      => true
  | some rule, n =>
    let required := rule.requiredFields.dedup
    ((required ++ rule.optionalFields).map env.libs.lower).contains (env.libs.lower n) &&
      !(((withheldFields env r).map env.libs.lower).filter (required.map env.libs.lower).contains).contains (env.libs.lower n)

section
variable {env : EnvConfig} {r : Record} {rule : Option ExtractionRule}
  {F F' : List (String × FieldEntry)}

theorem confidenceOf_buildFieldMap (reader : ReaderResult) (d b : Bool) (t : Option String)
    (n : String) : confidenceOf (some (buildFieldMap env reader d b t)) n =
      confidenceIn reader.fieldConfidenceMapList n := by
  have hlookup : (buildFieldMap env reader d b t).lookup n =
      (reader.fieldConfidenceMapList.reverse.find? fun f => f.1 = n).map fun f =>
        fieldEntry env reader d b t f.1 f.2 := Dict.lookup_assignAll _ n
  rw [confidenceOf, Option.getD_some, hlookup, Option.map_map]
  rfl

theorem buildFieldMap_eq_nil {reader : ReaderResult} {d b : Bool} {t : Option String} :
    buildFieldMap env reader d b t = [] ↔ reader.fieldConfidenceMapList = [] :=
  Dict.assignAll_eq_nil

theorem ruled_fields : (ruled env r F rule).1 = F.filter fun f => keeps env r rule f.1 := by
  cases rule with
  | none => exact (List.filter_eq_self.2 fun _ _ => rfl).symm
  | some rule =>
    by_cases hF : F = []
    · subst hF
      rfl
    · simp only [ruled, if_neg hF]
      rfl

theorem confidenceOf_ruled (n : String) : confidenceOf (some (ruled env r F rule).1) n =
    if keeps env r rule n then confidenceOf (some F) n else none := by
  rw [confidenceOf, Option.getD_some, ruled_fields,
    Dict.lookup_filter (keeps env r rule) F n]
  split <;> rfl

/-- The required fields that are not among the fields left. -/
theorem ruled_missing {rule : ExtractionRule} (hF : F ≠ []) :
    (ruled env r F (some rule)).2 = sortStrings (rule.requiredFields.dedup.filter fun f =>
      !((ruled env r F (some rule)).1.map fun f => env.libs.lower f.1).contains (env.libs.lower f)) := by
  simp only [ruled, if_neg hF]
  rfl

theorem sortStrings_eq_nil {l : List String} : sortStrings l = [] ↔ l = [] := by
  rw [← List.length_eq_zero_iff, sortStrings, List.length_mergeSort, List.length_eq_zero_iff]

theorem ruled_missing_of_no_required {rule : ExtractionRule} (h : rule.requiredFields = []) :
    (ruled env r F (some rule)).2 = [] := by
  by_cases hF : F = []
  · subst hF
    rfl
  · rw [ruled_missing hF, h, List.dedup_nil, List.filter_nil]
    exact sortStrings_eq_nil.2 rfl

theorem mem_names_iff {x : String} :
    x ∈ F.map Prod.fst ↔ (confidenceOf (some F) x).isSome = true := by
  rw [confidenceOf, Option.getD_some, Option.isSome_map, List.lookup_isSome_iff, List.mem_map]
  refine exists_congr fun f => and_congr_right fun _ => ?_
  rw [beq_iff_eq, eq_comm]

theorem lower_names_congr (h : ∀ n, confidenceOf (some F) n = confidenceOf (some F') n)
    (s : String) : (F.map fun f => env.libs.lower f.1).contains s = (F'.map fun f => env.libs.lower f.1).contains s := by
  have hmem : ∀ n, n ∈ F.map Prod.fst ↔ n ∈ F'.map Prod.fst := fun n => by
    rw [mem_names_iff, mem_names_iff, h n]
  have key : ∀ G : List (String × FieldEntry), (G.map fun f => env.libs.lower f.1).contains s = true ↔
      ∃ n, n ∈ G.map Prod.fst ∧ env.libs.lower n = s := by
    intro G
    rw [List.contains_iff_mem, List.mem_map]
    constructor
    · rintro ⟨f, hf, hs⟩
      exact ⟨f.1, List.mem_map_of_mem hf, hs⟩
    · rintro ⟨n, hn, hs⟩
      obtain ⟨f, hf, rfl⟩ := List.mem_map.1 hn
      exact ⟨f, hf, hs⟩
  rw [Bool.eq_iff_iff, key F, key F']
  simp only [hmem]

variable (h : ∀ n, confidenceOf (some (ruled env r F rule).1) n =
  confidenceOf (some (ruled env r F' rule).1) n)
include h

theorem ruled_missing_congr (hne : F = [] ↔ F' = []) :
    (ruled env r F rule).2 = (ruled env r F' rule).2 := by
  cases rule with
  | none => rfl
  | some rule =>
    by_cases hF : F = []
    · rw [hF, hne.1 hF]
    · rw [ruled_missing hF, ruled_missing fun hF' => hF (hne.2 hF')]
      simp only [lower_names_congr h]

/-- Without any field the answer says nothing of the required ones. -/
theorem ruled_missing_ne {rule' : ExtractionRule} (hrule : rule = some rule')
    (hr : rule'.requiredFields ≠ []) (hF : F = []) (hF' : F' ≠ []) :
    (ruled env r F rule).2 ≠ (ruled env r F' rule).2 := by
  subst hrule
  have hnone : ∀ s, ((ruled env r F' (some rule')).1.map fun f => env.libs.lower f.1).contains s = false :=
    fun s => by rw [← lower_names_congr h s, hF, ruled_nil]; rfl
  rw [ruled_missing hF', hF, ruled_nil]
  simp only [hnone, Bool.not_false, List.filter_true]
  intro hnil
  exact hr ((List.dedup_eq_nil _).1 (sortStrings_eq_nil.1 hnil.symm))

end

/-! ## When the two answers agree -/

/-- Of the fields that the rule leaves in, both lists have the same confidences; and if it requires
any, one list is empty only with the other. -/
structure SameFields (env : EnvConfig) (r : Record) (rule : Option ExtractionRule)
    (l l' : FieldConfidences) : Prop where
  kept  : ∀ n, keeps env r rule n = true → confidenceIn l n = confidenceIn l' n
  empty : ∀ rule', rule = some rule' → rule'.requiredFields ≠ [] → (l = [] ↔ l' = [])

theorem SameFields.refl {env : EnvConfig} {r : Record} {rule : Option ExtractionRule}
    {l : FieldConfidences} : SameFields env r rule l l := ⟨fun _ _ => rfl, fun _ _ _ => Iff.rfl⟩

/-- The record has all that the answer to `s` was made of. -/
def Rebuilds (env : EnvConfig) (w : World) (r : Record) (s : ProcessStatus)
    (info error : Option String) : Prop :=
  if s = .success then
    SameFields env r (w.ruleFor r) (recordedFields r).fieldConfidenceMapList
      (w.output env r).fieldConfidenceMapList
  else (terminalStatusResponses s).isSome = true → truthy info = none ∧
    (s = .failed → ∀ e, truthy error = some e → e = "Processing failed")

section
variable {env : EnvConfig} {r : Record} {rule : Option ExtractionRule} {d d' b b' : Bool}
  {info error : Option String} {reader reader' : ReaderResult} {s : ProcessStatus}

theorem agrees_successResponse {F F' : List (String × FieldEntry)} {m m' : List String} :
    Agrees (successResponse r F m) (successResponse r F' m') ↔
      (∀ n, confidenceOf (some F) n = confidenceOf (some F') n) ∧ m = m' := by
  constructor
  · intro h
    refine ⟨h.fields, ?_⟩
    have hm : (if m = [] then none else some m) = if m' = [] then none else some m' := h.missing
    by_cases hnil : m = []
    · rw [if_pos hnil] at hm
      by_cases hnil' : m' = []
      · rw [hnil, hnil']
      · rw [if_neg hnil'] at hm
        cases hm
    · rw [if_neg hnil] at hm
      by_cases hnil' : m' = []
      · rw [if_pos hnil'] at hm
        cases hm
      · rw [if_neg hnil'] at hm
        exact Option.some.inj hm
  · rintro ⟨hf, rfl⟩
    exact ⟨rfl, rfl, rfl, rfl, rfl, rfl, hf⟩

theorem agrees_ruled {t : Option String} :
    Agrees (successResponse r (ruled env r (buildFieldMap env reader d b t) rule).1
        (ruled env r (buildFieldMap env reader d b t) rule).2)
      (successResponse r (ruled env r (buildFieldMap env reader' d' b' t) rule).1
        (ruled env r (buildFieldMap env reader' d' b' t) rule).2) ↔
    SameFields env r rule reader.fieldConfidenceMapList reader'.fieldConfidenceMapList := by
  rw [agrees_successResponse]
  constructor
  · rintro ⟨hf, hm⟩
    refine ⟨fun n hn => ?_, fun rule' hrule hr => ⟨fun hl => ?_, fun hl' => ?_⟩⟩
    · have hn' := hf n
      rw [confidenceOf_ruled, confidenceOf_ruled, if_pos hn, if_pos hn, confidenceOf_buildFieldMap,
        confidenceOf_buildFieldMap] at hn'
      exact hn'
    · by_contra hl'
      exact ruled_missing_ne hf hrule hr (buildFieldMap_eq_nil.2 hl)
        (fun h => hl' (buildFieldMap_eq_nil.1 h)) hm
    · by_contra hl
      exact ruled_missing_ne (fun n => (hf n).symm) hrule hr (buildFieldMap_eq_nil.2 hl')
        (fun h => hl (buildFieldMap_eq_nil.1 h)) hm.symm
  · intro h
    have hf : ∀ n, confidenceOf (some (ruled env r (buildFieldMap env reader d b t) rule).1) n =
        confidenceOf (some (ruled env r (buildFieldMap env reader' d' b' t) rule).1) n := by
      intro n
      rw [confidenceOf_ruled, confidenceOf_ruled, confidenceOf_buildFieldMap,
        confidenceOf_buildFieldMap]
      split
      next hn => exact h.kept n hn
      next => rfl
    refine ⟨hf, ?_⟩
    cases rule with
    | none => rfl
    | some rule' =>
      by_cases hr : rule'.requiredFields = []
      · rw [ruled_missing_of_no_required hr, ruled_missing_of_no_required hr]
      · refine ruled_missing_congr hf ?_
        rw [buildFieldMap_eq_nil, buildFieldMap_eq_nil]
        exact h.empty rule' rfl hr

theorem agrees_success : Agrees (answerTo env r .success info error d b reader rule)
      (answerTo env r .success none none d' b' reader' rule) ↔
    SameFields env r rule reader.fieldConfidenceMapList reader'.fieldConfidenceMapList := by
  simp only [answerTo, if_true]
  exact agrees_ruled

theorem failed_error {t : TerminalResponse} (h : terminalStatusResponses .failed = some t) :
    t.error = some "Processing failed" := by
  cases h
  rfl

theorem agrees_terminal {rule' : Option ExtractionRule} (hs : s ≠ .success) :
    Agrees (answerTo env r s info error d b reader rule)
      (answerTo env r s none none d' b' reader' rule') ↔
    ((terminalStatusResponses s).isSome = true → truthy info = none ∧
      (s = .failed → ∀ e, truthy error = some e → e = "Processing failed")) := by
  simp only [answerTo, if_neg hs]
  cases ht : terminalStatusResponses s with
  | none => exact ⟨fun _ h => (by cases h), fun _ => ⟨rfl, rfl, rfl, rfl, rfl, rfl, fun _ => rfl⟩⟩
  | some t =>
    have herror : ((if s = .failed then (truthy error).or t.error else t.error) =
        if s = .failed then t.error else t.error) ↔
        (s = .failed → ∀ e, truthy error = some e → e = "Processing failed") := by
      by_cases hf : s = .failed
      · subst hf
        rw [if_pos rfl, if_pos rfl, failed_error ht]
        cases truthy error <;> simp
      · simp [hf]
    constructor
    · intro h _
      exact ⟨h.additionalInfo, herror.1 h.error⟩
    · intro h
      obtain ⟨hinfo, he⟩ := h rfl
      exact ⟨rfl, rfl, rfl, herror.2 he, hinfo, rfl, fun _ => rfl⟩

end

/-! ## The record at the rebuild -/

/-- What the stored answer itself and later answers by method write. -/
def asideAttrs : List DocumentMetadata := .v1ApiResponseJson :: .responseCode :: methodAttrs

/-- The code over the two attributes that it depends on. -/
theorem resolveResponseCode_eq {s : ProcessStatus} {r : Record} {m : List String} :
    resolveResponseCode s r m = (fun (c : Option Bool) (b : Bool) =>
      if s = .success then
        if m ≠ [] then (some .missingFields, b)
        else if c = some false then (some .miscategorized, b)
        else if b then (some .lowExtractionConfidence, b)
        else (some .success, b)
      else if s = .noCustomBlueprintMatched ∧ c = some false then (some .miscategorized, false)
      else ((terminalStatusResponses s).bind (·.responseCode), false))
    r.categoryMatch (r.belowExtractionConfidenceFloor.getD false) := rfl

section
variable {env : EnvConfig} {w : World} {r r' : Record} (h : ∀ a, a ∉ asideAttrs → r' a = r a)
include h

theorem answerTo_congr {s : ProcessStatus} {info error : Option String} {d b : Bool}
    {reader : ReaderResult} {rule : Option ExtractionRule} :
    answerTo env r' s info error d b reader rule = answerTo env r s info error d b reader rule := by
  have hjob : r'.jobId = r.jobId := h _ (by decide)
  have hcreated : r'.createdAt = r.createdAt := h _ (by decide)
  have hgeo : r'.fieldMissingGeometryList = r.fieldMissingGeometryList := h _ (by decide)
  have hempty : r'.fieldEmptyList = r.fieldEmptyList := h _ (by decide)
  have hfloor : r'.belowExtractionConfidenceFloor = r.belowExtractionConfidenceFloor :=
    h _ (by decide)
  have hruled : ∀ F, ruled env r' F rule = ruled env r F rule := fun F => by
    cases rule with
    | none => rfl
    | some rule => simp only [ruled, withheldFields, hgeo, hempty]
  have hbase : baseResponse r' = baseResponse r := by
    simp only [baseResponse, hjob, hcreated, h .extractionCompletedAt (by decide),
      h .bdaCompletedAt (by decide), h .totalProcessingTimeSeconds (by decide),
      h .bdaMatchedDocumentClass (by decide), h .userProvidedDocumentCategory (by decide)]
  have hmatch : r'.categoryMatch = r.categoryMatch := h _ (by decide)
  have hcode : ∀ m, resolveResponseCode s r' m = resolveResponseCode s r m := fun m => by
    rw [resolveResponseCode_eq, resolveResponseCode_eq, hfloor, hmatch]
  unfold answerTo
  split
  next hs =>
    subst hs
    simp only [hruled, successResponse, hcode, hbase, h .bdaMatchedDocumentClass (by decide),
      h .preclassificationCategory (by decide)]
  next =>
    split
    · simp only [terminalResponse, hcode, hbase]
    · rw [hbase]

theorem recordedFields_congr : recordedFields r' = recordedFields r := by
  simp only [recordedFields, h .fieldConfidenceScores (by decide)]

theorem ruleFor_congr_aside : w.ruleFor r' = w.ruleFor r := by
  have ht : r'.tenantId = r.tenantId := h _ (by decide)
  simp only [World.ruleFor, ht, h .bdaMatchedDocumentClass (by decide)]

end

/-! ## Every terminal write -/

namespace TerminalWrite

/-- The additional information and the error that the classifier has in hand. -/
def info : TerminalWrite → Option String
  | classification _ c => c.data.bind (·.additionalInfo)
  | preExtraction ..   => none

def error : TerminalWrite → Option String
  | classification _ c => c.errorMessage
  | preExtraction ..   => none

end TerminalWrite

section
variable {env : EnvConfig} {w w' : World} {tr : List (Event sig)}

theorem answered_aside {resp : Option V1ApiResponse} {new : Record} {a : DocumentMetadata}
    (ha : a ∉ asideAttrs) : answered resp new a = new a := by
  cases resp with
  | none => rfl
  | some x =>
    have htargets : Dynamo.Targets (T := DocumentMetadata.schema) (· ≠ a)
        (responseRequest x).actions := by
      refine targets_set (fun he => ha (he ▸ by decide)) (targets_setOpt (fun he => ha ?_) _)
      exact he ▸ by decide
    rw [answered, Dynamo.lastSet_eq_none htargets, Option.none_or]

/-- What a terminal write has stored was made of the record it left. -/
theorem stored_of_terminalWrite {p : TerminalWrite} {r : Except Exc Unit} {x : V1ApiResponse}
    (h : Ends system w (p.run env) tr r w') (hx : Stored p.key x tr) :
    ∃ s new rule, new.status = some s ∧ x = recordedAnswer env new s p.info p.error rule ∧
      RuleUsed w new tr rule ∧ ∀ a, a ∉ asideAttrs → w'.record p.key a = new a := by
  have hout : ∃ s new resp, new.status = some s ∧
      Settles env p.key s p.info p.error w w' tr new resp := by
    cases p with
    | classification key c =>
      rcases outcome_body h with ⟨hs, _⟩ | ⟨u, now, timing, new, resp, hu, ht, hnew, hsettles⟩
      · exact absurd hx hs.not_stored
      · refine ⟨c.verdict.1, new, resp, ?_, hsettles⟩
        rw [updateRequest_status ht hnew, hu.status]
    | preExtraction doc t day =>
      obtain ⟨out, hrun⟩ := ends_preExtraction h
      rcases settles_upsertInitialDdbRecord hrun with
        ⟨_, hs⟩ | ⟨now, data, mid, new, resp, hkey, hpre, _, hmid, hleft, hsettles⟩
      · exact absurd hx (hs _ _)
      · refine ⟨data.processStatus, new, resp, ?_, hsettles⟩
        rw [Record.status, hleft _ (by decide)]
        exact (writes_upsertRequest data now).status_eq hmid
  obtain ⟨s, new, resp, hstatus, hsettles⟩ := hout
  obtain ⟨rule, hanswer, hrule⟩ := hsettles.answer x (hsettles.stored _ x hx)
  refine ⟨s, new, rule, hstatus, hanswer, hrule, fun a ha => ?_⟩
  have hm : a ∉ methodAttrs := fun hm => ha (List.mem_cons_of_mem _ (List.mem_cons_of_mem _ hm))
  rw [hsettles.left a hm, answered_aside ha]

end

/-- **The rebuilt answer agrees with the stored one** exactly when the record has all that the
stored one was made of. -/
theorem rebuilt_agrees_iff (env : EnvConfig) (p : TerminalWrite) {w w' w₂ w₃ : World}
    {tr tr₂ : List (Event sig)} {r : Except Exc Unit} {x y : V1ApiResponse} {s : ProcessStatus}
    {box : Bool} (h : Ends system w (p.run env) tr r w') (hx : Stored p.key x tr)
    (hrecord : ∀ a, a ∉ methodAttrs → w₂.record p.key a = w'.record p.key a)
    (hrules : w₂.rules = w'.rules) (hs : (w₂.record p.key).status = some s)
    (h₂ : Ends system w₂ (buildV1ApiResponse env p.key s none none true box) tr₂ (.ok y) w₃)
    (hread : RulesRead tr) (hread₂ : RulesRead tr₂) (hobjects : ObjectsRead w₂ tr₂) :
    Agrees x y ↔ Rebuilds env w₂ (w₂.record p.key) s p.info p.error := by
  obtain ⟨s', new, rule, hstatus, rfl, hrule, hleft⟩ := stored_of_terminalWrite h hx
  have hsame : ∀ a, a ∉ asideAttrs → w₂.record p.key a = new a := fun a ha =>
    (hrecord a fun hm => ha (List.mem_cons_of_mem _ (List.mem_cons_of_mem _ hm))).trans (hleft a ha)
  obtain rfl : s' = s := by
    have hs' : (w₂.record p.key).status = new.status := hsame _ (by decide)
    rw [hs', hstatus] at hs
    exact Option.some.inj hs
  obtain ⟨r₂, reader, rule₂, hitem, rfl, hsuccess⟩ := ends_buildV1ApiResponse h₂
  obtain rfl : w₂.record p.key = r₂ := by rw [World.record, hitem, Option.getD_some]
  have hrule₁ : rule = w₂.ruleFor (w₂.record p.key) := by
    rw [ruleFor_congr_aside hsame, hrule.eq hread, World.ruleFor, World.ruleFor, hrules,
      steps_rules h]
  unfold Rebuilds
  rw [recordedAnswer, ← answerTo_congr hsame, ← recordedFields_congr hsame]
  by_cases hsucc : s' = .success
  · subst hsucc
    obtain ⟨hrule₂, tr₃, hsub, hreader⟩ := hsuccess rfl
    rw [if_pos rfl, hrule₁, hrule₂.eq hread₂, ends_readOutput hreader (hobjects.mono hsub)]
    exact agrees_success
  · rw [if_neg hsucc]
    exact agrees_terminal hsucc

/-! ## An extracted document and a failed one -/

/-- The answers that a run has stored for `k`. -/
def storedAnswers (k : String) (tr : List (Event sig)) : List V1ApiResponse :=
  tr.filterMap fun
    | ⟨.updateItem j u, .ok ()⟩ => if j = k then responseWrite u else none
    | _                         => none

theorem stored_of_mem {k : String} {tr : List (Event sig)} {x : V1ApiResponse}
    (h : x ∈ storedAnswers k tr) : Stored k x tr := by
  obtain ⟨ev, hev, hx⟩ := List.mem_filterMap.1 h
  split at hx
  next j u =>
    by_cases hk : j = k
    · subst hk
      rw [if_pos rfl] at hx
      exact ⟨u, hev, hx⟩
    · rw [if_neg hk] at hx
      cases hx
  next => cases hx

def readFails : Event sig → Bool
  | ⟨.getRule .., .error _⟩ | ⟨.getObject _, .error _⟩ => true
  | _                                                  => false

theorem reads_of_all {w : World} {tr : List (Event sig)}
    (h : (tr.all fun ev => !readFails ev) = true) : RulesRead tr ∧ ObjectsRead w tr := by
  rw [List.all_eq_true] at h
  refine ⟨fun t d e hm => ?_, fun k e hm => ?_⟩
  · cases h _ hm
  · cases h _ hm

/-- What the examples compare of two answers. -/
structure Summary where
  error          : Option String
  additionalInfo : Option String
  confidences    : List (String × Rat)
deriving DecidableEq

def V1ApiResponse.summary (x : V1ApiResponse) : Summary :=
  ⟨x.error, x.additionalInfo, (x.fields.getD []).map fun f => (f.1, f.2.confidence)⟩

def sameLists (w : World) (k : String) : Bool :=
  decide ((recordedFields (w.record k)).fieldConfidenceMapList =
    (w.output sampleEnv (w.record k)).fieldConfidenceMapList)

/-- The answers stored by a run from `w`, the one rebuilt after it, and whether the record and its
output then have the same fields. -/
def rebuiltAfter (w : World) (p : TerminalWrite) (s : ProcessStatus) (n m : Nat) :
    Option (List V1ApiResponse × V1ApiResponse × Bool) :=
  (Effect.follow system w (p.run sampleEnv) (List.replicate n {})).bind fun (tr, q, w') =>
  (Effect.follow system w' (buildV1ApiResponse sampleEnv p.key s none none true false)
    (List.replicate m {})).bind fun (tr₂, q₂, _) =>
  q.result.bind fun _ => q₂.result.bind fun y =>
    match y with
    | .ok y    =>
      if (tr.all fun ev => !readFails ev) && (tr₂.all fun ev => !readFails ev) &&
          decide ((w'.record p.key).status = some s) then
        some (storedAnswers p.key tr, y, sameLists w' p.key)
      else none
    | .error _ => none

theorem runs_of_rebuiltAfter {w : World} {p : TerminalWrite} {s : ProcessStatus} {n m : Nat}
    {x y : V1ApiResponse} {same : Bool} (h : rebuiltAfter w p s n m = some ([x], y, same)) :
    ∃ tr r w' tr₂ w₃, Ends system w (p.run sampleEnv) tr r w' ∧ Stored p.key x tr ∧
      (w'.record p.key).status = some s ∧
      Ends system w' (buildV1ApiResponse sampleEnv p.key s none none true false) tr₂ (.ok y) w₃ ∧
      RulesRead tr ∧ RulesRead tr₂ ∧ ObjectsRead w' tr₂ ∧ sameLists w' p.key = same := by
  obtain ⟨⟨tr, q, w'⟩, hfollow, h⟩ := Option.bind_eq_some_iff.1 h
  obtain ⟨⟨tr₂, q₂, w₃⟩, hfollow₂, h⟩ := Option.bind_eq_some_iff.1 h
  obtain ⟨r, hr, h⟩ := Option.bind_eq_some_iff.1 h
  obtain ⟨out, hout, h⟩ := Option.bind_eq_some_iff.1 h
  cases out with
  | error e => cases h
  | ok y' =>
    dsimp only at h
    split at h
    next hc =>
      simp only [Bool.and_eq_true, decide_eq_true_eq] at hc
      obtain ⟨⟨hread, hread₂⟩, hstatus⟩ := hc
      simp only [Option.some.injEq, Prod.mk.injEq] at h
      obtain ⟨hx, rfl, hsame⟩ := h
      obtain rfl : q = .ofExcept r := Effect.Prog.eq_ofExcept hr
      obtain rfl : q₂ = .ofExcept (.ok y') := Effect.Prog.eq_ofExcept hout
      have hmem : x ∈ storedAnswers p.key tr := by
        rw [hx]
        exact List.mem_singleton_self x
      exact ⟨tr, r, w', tr₂, w₃, Effect.steps_of_follow hfollow, stored_of_mem hmem, hstatus,
        Effect.steps_of_follow hfollow₂, (reads_of_all (w := w) hread).1,
        (reads_of_all (w := w) hread₂).1, (reads_of_all hread₂).2, hsame⟩
    next => cases h

/-- An extraction whose output is in the output bucket. -/
def extractedScan : TerminalWrite :=
  .classification "scan-1.pdf" (.success
    { bdaOutputS3Uri := some "s3://output/results/1.json"
      fieldConfidenceScores := some [("total", 9 / 10)] } .bda
    { belowFloor := false, rulesConfigured := false, missingRequired := none, required := none
      confidenceFloor := 13 / 20, usedDefaultFloor := true, resultProcessorStartedAt := none } none
    { documentType := none })

def scanOutput : S3Object :=
  { body := .bdaResult
      { matchedBlueprintName := some "Invoice"
        explainabilityInfo := some
          [.group (.cons "total" (.field { confidence := some (9 / 10) }) .nil)] } }

def outputWorld : World :=
  { sampleWorld with
    objects := (("output", "results/1.json"), scanOutput) :: sampleWorld.objects }

def failedScan : TerminalWrite :=
  .classification "scan-1.pdf" (.failed "No BDA output S3 URI found"
    { additionalInfo := some "Unhandled error in BDA result processor" } none none)

/-- The lists of stored answers and the rebuilt one, by their summaries. -/
def summaries (o : Option (List V1ApiResponse × V1ApiResponse × Bool)) :
    Option (List Summary × Summary × Bool) :=
  o.map fun t => (t.1.map V1ApiResponse.summary, t.2.1.summary, t.2.2)

theorem eq_of_summaries {o : Option (List V1ApiResponse × V1ApiResponse × Bool)}
    {sx sy : Summary} {same : Bool}
    (h : summaries o = some ([sx], sy, same)) :
    ∃ x y, o = some ([x], y, same) ∧ x.summary = sx ∧ y.summary = sy := by
  obtain ⟨⟨xs, y, same'⟩, rfl, ht⟩ := Option.map_eq_some_iff.1 h
  obtain ⟨hxs, ht⟩ := Prod.mk.inj ht
  obtain ⟨hy, hsame⟩ := Prod.mk.inj ht
  obtain ⟨x, rfl, hx⟩ := List.map_eq_singleton_iff.1 hxs
  cases hsame
  exact ⟨x, y, rfl, hx, hy⟩

set_option maxRecDepth 10000 in
/-- An extraction that can be rebuilt. -/
theorem rebuilt_agrees_extractedScan : ∃ tr r w' tr₂ w₃ x y,
    Ends system outputWorld (extractedScan.run sampleEnv) tr r w' ∧
    Stored extractedScan.key x tr ∧
    Ends system w' (buildV1ApiResponse sampleEnv extractedScan.key .success none none true false) tr₂
      (.ok y) w₃ ∧ Agrees x y := by
  have hrun : summaries (rebuiltAfter outputWorld extractedScan .success 10 2) =
      some ([⟨none, none, [("total", 9 / 10)]⟩], ⟨none, none, [("total", 9 / 10)]⟩, true) := by
    decide +kernel
  obtain ⟨x, y, hrun, _, _⟩ := eq_of_summaries hrun
  obtain ⟨tr, r, w', tr₂, w₃, hends, hx, hs, hends₂, hread, hread₂, hobjects, hsame⟩ :=
    runs_of_rebuiltAfter hrun
  have hlists := of_decide_eq_true hsame
  refine ⟨tr, r, w', tr₂, w₃, x, y, hends, hx, hends₂,
    (rebuilt_agrees_iff sampleEnv extractedScan hends hx (fun _ _ => rfl) rfl hs hends₂ hread hread₂
      hobjects).2 ?_⟩
  rw [Rebuilds, if_pos rfl]
  rw [show (recordedFields (w'.record extractedScan.key)).fieldConfidenceMapList = _ from hlists]
  exact SameFields.refl

set_option maxRecDepth 10000 in
/-- The error of a failed document is lost in the rebuilt answer. -/
theorem rebuilt_agrees_fails : ∃ tr r w' tr₂ w₃ x y,
    Ends system sampleWorld (failedScan.run sampleEnv) tr r w' ∧ Stored failedScan.key x tr ∧
    Ends system w' (buildV1ApiResponse sampleEnv failedScan.key .failed none none true false) tr₂
      (.ok y) w₃ ∧ x.error = some "No BDA output S3 URI found" ∧
    y.error = some "Processing failed" ∧ y.additionalInfo = none ∧ ¬ Agrees x y := by
  have hrun : summaries (rebuiltAfter sampleWorld failedScan .failed 6 1) =
      some ([⟨some "No BDA output S3 URI found",
        some "Unhandled error in BDA result processor", []⟩],
        ⟨some "Processing failed", none, []⟩, true) := by decide +kernel
  obtain ⟨x, y, hrun, hsx, hsy⟩ := eq_of_summaries hrun
  obtain ⟨tr, r, w', tr₂, w₃, hends, hx, hs, hends₂, _⟩ := runs_of_rebuiltAfter hrun
  have hxe : x.error = _ := congrArg Summary.error hsx
  have hye : y.error = _ := congrArg Summary.error hsy
  refine ⟨tr, r, w', tr₂, w₃, x, y, hends, hx, hends₂, hxe, hye,
    congrArg Summary.additionalInfo hsy, fun h => ?_⟩
  have herror := h.error
  rw [hxe, hye] at herror
  exact absurd (Option.some.inj herror) (by decide)

end DocumentAi
