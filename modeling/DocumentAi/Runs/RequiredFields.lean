import DocumentAi.Pipeline.Bda
import DocumentAi.Pipeline.Textract
import DocumentAi.Routers.Evaluation
import DocumentAi.Runs.RebuiltAnswer

/-!
# Missing required fields: what processing stores and what the answer says

Processing counts the required fields that the reader listed as empty or without geometry
(`utils/extraction_rules.py:87-104`), the answer those that are not among its fields
(`utils/extraction_rules.py:56-84`).

| here | meaning |
| --- | --- |
| `ExtractionResult.Flat`   | the lists of an extraction name fields of it |
| `Named env l f`           | `f` is in `l`, whatever the case of its letters |
| `listedRequired`          | the required fields that processing counts as missing |
| `storedMissing r`         | the missing fields that the evaluation of `r` shows |
| `MissingFieldsAgree r x`  | the evaluation of `r` and the answer `x` say the same |
-/

namespace DocumentAi

open Effect (Event Ends ends_bind_iff ends_ret_iff ends_raise_iff)
open Dynamo (Targets targets_append targets_nil lastSet lastSet_eq_none)

/-! ## The result of a reader -/

structure ExtractionResult.Flat (result : ExtractionResult) : Prop where
  empty    : ∀ n ∈ result.fieldEmptyList, n ∈ result.fieldConfidenceScores.map Prod.fst
  geometry : ∀ n ∈ result.fieldMissingGeometryList, n ∈ result.fieldConfidenceScores.map Prod.fst

theorem flat_extractBdaResult {env : EnvConfig} {b : BdaResult} {result : ExtractionResult}
    (h : extractBdaResult env b = some result) : result.Flat := by
  obtain ⟨name, _, rfl⟩ := Option.map_eq_some_iff.1 h
  have hflat := flat_readBdaOutput env (.bdaResult b)
  exact ⟨hflat.empty, hflat.geometry⟩

theorem flat_withTimings {w w' : World} {tr : List (Event sig)} {r : Record}
    {result out : ExtractionResult} (hflat : result.Flat)
    (h : Ends system w (withTimings r result) tr (.ok out) w') : out.Flat := by
  unfold withTimings at h
  split at h
  · cases (ends_ret_iff.1 h).2.1
    exact hflat
  · rcases ends_bind_iff.1 h with ⟨e, he, _⟩ | ⟨now, w₁, tr₁, tr₂, _, h₂, _⟩
    · cases he
    · cases (ends_ret_iff.1 h₂).2.1
      exact ⟨hflat.empty, hflat.geometry⟩

theorem flat_identityResult (c : String) (fields : StoredFields) (s e : Timestamp) :
    (identityResult c fields s e).Flat := by
  constructor
  · intro n hn
    obtain ⟨f, hf, rfl⟩ := List.mem_map.1 hn
    have hmem : (f.1, f.2.confidence) ∈ fields.map fun f => (f.1, f.2.confidence) :=
      List.mem_map_of_mem (List.mem_filter.1 hf).1
    exact List.mem_map_of_mem hmem
  · intro n hn
    cases hn

/-! ## Two filters of the required fields -/

theorem mem_sortStrings {l : List String} {s : String} : s ∈ sortStrings l ↔ s ∈ l :=
  List.mem_mergeSort

theorem sortStrings_filter_eq {l : List String} {p q : String → Bool} :
    sortStrings (l.filter p) = sortStrings (l.filter q) ↔ ∀ f ∈ l, p f = q f := by
  constructor
  · intro h f hf
    have hmem : f ∈ sortStrings (l.filter p) ↔ f ∈ sortStrings (l.filter q) := by rw [h]
    rw [mem_sortStrings, mem_sortStrings, List.mem_filter, List.mem_filter] at hmem
    rw [Bool.eq_iff_iff]
    exact ⟨fun hp => (hmem.1 ⟨hf, hp⟩).2, fun hq => (hmem.2 ⟨hf, hq⟩).2⟩
  · intro h
    rw [List.filter_congr h]

def Named (env : EnvConfig) (l : List String) (f : String) : Prop :=
  ∃ n ∈ l, env.libs.lower n = env.libs.lower f

section
variable {env : EnvConfig} {l l' : List String} {f : String}

theorem contains_lower_iff : (l.map env.libs.lower).contains (env.libs.lower f) = true ↔
    Named env l f := by
  rw [List.contains_iff_mem, List.mem_map]
  rfl

theorem Named.mono (h : ∀ n ∈ l, n ∈ l') (hf : Named env l f) : Named env l' f := by
  obtain ⟨n, hn, hlower⟩ := hf
  exact ⟨n, h n hn, hlower⟩

/-- A rule takes a field of its required ones out of the answer exactly when it is withheld. -/
theorem keeps_iff {r : Record} {rule : ExtractionRule} {n : String} (hf : f ∈ rule.requiredFields)
    (hn : env.libs.lower n = env.libs.lower f) :
    keeps env r (some rule) n = true ↔ ¬ Named env (withheldFields env r) f := by
  have hrequired : env.libs.lower f ∈ rule.requiredFields.dedup.map env.libs.lower :=
    List.mem_map_of_mem (List.mem_dedup.2 hf)
  have hallowed : ((rule.requiredFields.dedup ++ rule.optionalFields).map env.libs.lower).contains
      (env.libs.lower n) = true := by
    rw [hn, List.contains_iff_mem, List.map_append]
    exact List.mem_append_left _ hrequired
  have habsent : (((withheldFields env r).map env.libs.lower).filter
      (rule.requiredFields.dedup.map env.libs.lower).contains).contains (env.libs.lower n) = true ↔
      Named env (withheldFields env r) f := by
    rw [hn, List.contains_iff_mem, List.mem_filter, List.contains_iff_mem, List.mem_map]
    exact ⟨fun h => h.1, fun h => ⟨h, hrequired⟩⟩
  simp only [keeps, hallowed, Bool.true_and, Bool.not_eq_true', ← habsent, Bool.not_eq_true]

end

/-! ## What the answer says -/

section
variable {env : EnvConfig} {r : Record} {rule : ExtractionRule} {F : List (String × FieldEntry)}

/-- A required field is among the answer's fields when it was extracted and is not withheld. -/
theorem present_iff {f : String} (hf : f ∈ rule.requiredFields) :
    ((ruled env r F (some rule)).1.map fun e => env.libs.lower e.1).contains (env.libs.lower f) = true ↔
      Named env (F.map Prod.fst) f ∧ ¬ Named env (withheldFields env r) f := by
  rw [ruled_fields, List.contains_iff_mem, List.mem_map]
  constructor
  · rintro ⟨e, he, hlower⟩
    obtain ⟨he, hkeeps⟩ := List.mem_filter.1 he
    exact ⟨⟨e.1, List.mem_map_of_mem he, hlower⟩, (keeps_iff hf hlower).1 hkeeps⟩
  · rintro ⟨⟨n, hn, hlower⟩, hwithheld⟩
    obtain ⟨e, he, rfl⟩ := List.mem_map.1 hn
    exact ⟨e, List.mem_filter.2 ⟨he, (keeps_iff hf hlower).2 hwithheld⟩, hlower⟩

end

/-- The required fields that the lists of the extraction name. -/
def listedRequired (env : EnvConfig) (rule : ExtractionRule) (listed : List String) : List String :=
  sortStrings (rule.requiredFields.dedup.filter fun f =>
    (listed.map env.libs.lower).contains (env.libs.lower f))

/-- The two lists, of the same extraction, under the same rule. -/
theorem listedRequired_eq_iff {env : EnvConfig} {r : Record} {rule : ExtractionRule}
    {F : List (String × FieldEntry)} {listed : List String}
    (hlisted : ∀ n ∈ listed, n ∈ F.map Prod.fst)
    (hwithheld : ∀ f, Named env (withheldFields env r) f ↔
      env.flags.includeMissingGeoWithMissingFields = true ∧ Named env listed f) :
    (ruled env r F (some rule)).2 = listedRequired env rule listed ↔
      F = [] ∨ ∀ f ∈ rule.requiredFields, Named env (F.map Prod.fst) f ∧
        (Named env listed f → env.flags.includeMissingGeoWithMissingFields = true) := by
  by_cases hF : F = []
  · subst hF
    have hnone : listed = [] := List.eq_nil_iff_forall_not_mem.2 fun n hn => by cases hlisted n hn
    subst hnone
    refine ⟨fun _ => .inl rfl, fun _ => ?_⟩
    rw [ruled_nil, listedRequired]
    refine (sortStrings_eq_nil.2 (List.filter_eq_nil_iff.2 fun f _ hc => ?_)).symm
    obtain ⟨n, hn, _⟩ := contains_lower_iff.1 hc
    cases hn
  · rw [ruled_missing hF, listedRequired, sortStrings_filter_eq, or_iff_right hF]
    refine forall_congr' fun f => ?_
    rw [List.mem_dedup]
    refine forall_congr' fun hf => ?_
    rw [Bool.eq_iff_iff, Bool.not_eq_true', ← Bool.not_eq_true, present_iff hf, hwithheld,
      contains_lower_iff]
    have hsub : Named env listed f → Named env (F.map Prod.fst) f := Named.mono hlisted
    tauto

/-! ## What processing stores -/

/-- The rule of a tenant and a document type. -/
def World.ruleAt (w : World) (t d : Option String) : Option ExtractionRule :=
  (truthy t).bind fun t => (truthy d).bind fun d => w.rules t d

abbrev Record.documentClass (r : Record) : Option String := r .bdaMatchedDocumentClass

abbrev Record.rulesConfigured (r : Record) : Option Bool := r .extractionRulesConfigured

abbrev Record.missingRequired (r : Record) : Option (List String) := r .missingRequiredFieldList

def storedMissing (r : Record) : List String :=
  if r.rulesConfigured = some true then r.missingRequired.getD [] else []

section
variable {env : EnvConfig} {w w' : World} {tr : List (Event sig)}

theorem ends_getMissingRequiredFields {t d : Option String} {xs ys : List String}
    {out : Option (List String × List String)}
    (h : Ends system w (getMissingRequiredFields env t d xs ys) tr (.ok out) w') :
    out = (w.ruleAt t d).map fun rule =>
      (listedRequired env rule (xs ++ ys), sortStrings rule.requiredFields.dedup) := by
  unfold getMissingRequiredFields at h
  unfold World.ruleAt
  split at h
  next t d ht hd =>
    rw [ht, hd, Option.bind_some, Option.bind_some]
    rcases ends_bind_iff.1 h with ⟨e, he, _⟩ | ⟨rule, w₁, tr₁, tr₂, h₁, h₂, rfl⟩
    · cases he
    obtain ⟨rfl, hr | ⟨e, he⟩⟩ := ends_getRule h₁
    · cases hr
      cases hw : w.rules t d with
      | none =>
        rw [hw] at h₂
        cases (ends_ret_iff.1 h₂).2.1
        rfl
      | some rule =>
        rw [hw] at h₂
        cases (ends_ret_iff.1 h₂).2.1
        rfl
    · cases he
  next hguard =>
    cases (ends_ret_iff.1 h).2.1
    cases ht : truthy t with
    | none => rfl
    | some t =>
      cases hd : truthy d with
      | none => rfl
      | some d => exact absurd hd (hguard t d ht)

/-- The evaluation fails exactly when it has a list to show. -/
theorem evaluateMissingFields_fail {r : Record} :
    (evaluateMissingFields r).status = .fail ↔ storedMissing r ≠ [] := by
  have key : ∀ (c : Option Bool) (missing required : List String),
      ((match c with
        | none       => { status := .notEvaluated, reason := some NotEvaluated.legacyDocument }
        | some false => { status := .notEvaluated, reason := some "Extraction rules not configured." }
        | some true  =>
          if missing ≠ [] then
            { status := .fail
              reason := some ("One or more required fields were not extracted: "
                ++ ", ".intercalate missing ++ ".") }
          else
            { status := .pass
              reason := if required = [] then none
                else some ("All required fields were extracted: "
                  ++ ", ".intercalate required ++ ".") } : EvaluationEntry).status = .fail) ↔
      (if c = some true then missing else []) ≠ [] := by
    intro c missing required
    cases c with
    | none => simp
    | some c =>
      cases c with
      | false => simp
      | true =>
        by_cases hm : missing = []
        · simp [hm]
        · simp [hm]
  exact key _ _ _

end

/-! ## The record that an extraction leaves -/

section
variable {env : EnvConfig} {d : ClassificationData} {r : Record} {now : Timestamp}
  {u : UpdateDdbRecord}

theorem lastSet_documentClass :
    lastSet (T := DocumentMetadata.schema) .bdaMatchedDocumentClass (classificationActions env d) =
      d.matchedDocumentClass := by
  unfold classificationActions
  refine (lastSet_peel (targets_setOpt (by decide) _)).trans ?_
  refine (lastSet_peel (targets_set (by decide) (targets_set (by decide) targets_nil))).trans ?_
  repeat refine (lastSet_peel (targets_setOpt (by decide) _)).trans ?_
  refine lastSet_peel_setOpt ?_
  repeat refine targets_append.2 ⟨?_, targets_setOpt (by decide) _⟩
  exact targets_setOpt (by decide) _

theorem lastSet_fieldConfidenceScores :
    lastSet (T := DocumentMetadata.schema) .fieldConfidenceScores (classificationActions env d) =
      d.fieldConfidenceScores := by
  unfold classificationActions
  refine (lastSet_peel (targets_setOpt (by decide) _)).trans ?_
  refine (lastSet_peel (targets_set (by decide) (targets_set (by decide) targets_nil))).trans ?_
  repeat refine (lastSet_peel (targets_setOpt (by decide) _)).trans ?_
  refine lastSet_peel_setOpt ?_
  repeat refine targets_append.2 ⟨?_, targets_setOpt (by decide) _⟩
  exact targets_setOpt (by decide) _

theorem lastSet_fieldEmptyList :
    lastSet (T := DocumentMetadata.schema) .matchedBlueprintFieldEmptyList
      (classificationActions env d) = d.fieldEmptyList := by
  unfold classificationActions
  refine (lastSet_peel (targets_setOpt (by decide) _)).trans ?_
  refine (lastSet_peel (targets_set (by decide) (targets_set (by decide) targets_nil))).trans ?_
  repeat refine (lastSet_peel (targets_setOpt (by decide) _)).trans ?_
  refine lastSet_peel_setOpt ?_
  repeat refine targets_append.2 ⟨?_, targets_setOpt (by decide) _⟩
  exact targets_setOpt (by decide) _

theorem lastSet_fieldMissingGeometryList :
    lastSet (T := DocumentMetadata.schema) .matchedBlueprintFieldMissingGeometryList
      (classificationActions env d) = d.fieldMissingGeometryList := by
  unfold classificationActions
  refine (lastSet_peel (targets_setOpt (by decide) _)).trans ?_
  refine (lastSet_peel (targets_set (by decide) (targets_set (by decide) targets_nil))).trans ?_
  repeat refine (lastSet_peel (targets_setOpt (by decide) _)).trans ?_
  refine lastSet_peel_setOpt ?_
  repeat refine targets_append.2 ⟨?_, targets_setOpt (by decide) _⟩
  exact targets_setOpt (by decide) _

variable (env now u) in
/-- What an update sets before the attributes of the extraction rules. -/
theorem targets_beforeRules {a : DocumentMetadata} (ha : a ∉ dataAttrs)
    (hv : a ∈ [DocumentMetadata.extractionRulesConfigured, .missingRequiredFieldList]) :
    ∃ head, buildUpdateExpression env now u = head
        ++ setOpt .extractionRulesConfigured u.extractionRulesConfigured
        ++ setOpt .missingRequiredFieldList u.missingRequiredFieldList
        ++ setOpt .requiredFieldList u.requiredFieldList
        ++ setOpt .extractionConfidenceThreshold u.appliedExtractionConfidenceFloor
        ++ setOpt .usedDefaultExtractionConfidenceThreshold u.usedDefaultConfidenceFloor
        ++ setOpt .pagesSentToBda u.pagesSentToBda
        ++ setOpt .bdaInvokeRetryCount u.bdaInvokeRetryCount
        ++ setOpt .resultProcessorStartedAt u.resultProcessorStartedAt ∧
      Targets (T := DocumentMetadata.schema) (· ≠ a) head := by
  refine ⟨_, rfl, ?_⟩
  simp only [List.mem_cons, List.not_mem_nil, or_false] at hv
  have hs : a ∉ [DocumentMetadata.processStatus, .updatedAt] := by
    rcases hv with rfl | rfl <;> decide
  have hne : ∀ b, b ∈ [DocumentMetadata.belowExtractionConfidenceFloor, .errorMessage,
      .usedCategorySpecificProject, .bdaProjectArn, .bdaInvocationArn, .bdaInvocationId,
      .bdaRegionUsed, .extractionMethod, .responseJson, .responseCode] → b ≠ a := by
    rcases hv with rfl | rfl <;> decide
  refine targets_append.2 ⟨targets_append.2 ⟨?_, targets_setOpt (by exact hne .errorMessage (by decide)) _⟩,
    targets_ite (targets_set (by exact hne .belowExtractionConfidenceFloor (by decide)) targets_nil)
      targets_nil⟩
  refine targets_append.2 ⟨targets_append.2 ⟨?_, targets_setOpt (by exact hne .bdaProjectArn (by decide)) _⟩,
    targets_ite (targets_set (by exact hne .usedCategorySpecificProject (by decide)) targets_nil) targets_nil⟩
  refine targets_append.2 ⟨targets_append.2 ⟨targets_dataActions ha hs, ?_⟩, ?_⟩
  · split
    · exact targets_set (by exact hne .responseJson (by decide))
        (targets_set (by exact hne .responseCode (by decide)) targets_nil)
    · exact targets_nil
  · split
    · exact targets_set (by exact hne .bdaInvocationArn (by decide)) (targets_set
        (by exact hne .bdaInvocationId (by decide)) (targets_set (by exact hne .bdaRegionUsed (by decide))
        (targets_set (by exact hne .extractionMethod (by decide)) targets_nil)))
    · exact targets_nil

theorem lastSet_extractionRulesConfigured :
    lastSet (T := DocumentMetadata.schema) .extractionRulesConfigured
      (buildUpdateExpression env now u) = u.extractionRulesConfigured := by
  obtain ⟨head, heq, hhead⟩ := targets_beforeRules env now u
    (show DocumentMetadata.extractionRulesConfigured ∉ dataAttrs by decide) (by decide)
  rw [heq]
  repeat refine (lastSet_peel (targets_setOpt (by decide) _)).trans ?_
  exact lastSet_peel_setOpt hhead

theorem lastSet_missingRequiredFieldList :
    lastSet (T := DocumentMetadata.schema) .missingRequiredFieldList
      (buildUpdateExpression env now u) = u.missingRequiredFieldList := by
  obtain ⟨head, heq, hhead⟩ := targets_beforeRules env now u
    (show DocumentMetadata.missingRequiredFieldList ∉ dataAttrs by decide) (by decide)
  rw [heq]
  repeat refine (lastSet_peel (targets_setOpt (by decide) _)).trans ?_
  exact lastSet_peel_setOpt (targets_append.2 ⟨hhead, targets_setOpt (by decide) _⟩)

end

/-! ## Every extraction -/

/-- The evaluation of the record and the answer name the same missing fields, and the evaluation
fails exactly when the answer's code is that of missing fields. -/
structure MissingFieldsAgree (r : Record) (x : V1ApiResponse) : Prop where
  lists : x.missingRequiredFieldList.getD [] = storedMissing r
  codes : x.responseCode = some .missingFields ↔ (evaluateMissingFields r).status = .fail

section
variable {env : EnvConfig} {r : Record} {info error : Option String} {rule : Option ExtractionRule}

theorem recordedAnswer_missing (info : Option String) (error : Option String) :
    (recordedAnswer env r .success info error rule).missingRequiredFieldList.getD [] =
      (ruled env r (recordedEntries env r) rule).2 := by
  have key : ∀ m : List String, (if m = [] then none else some m : Option (List String)).getD [] = m := by
    intro m
    split
    next h => rw [h]; rfl
    next => rfl
  exact key _

theorem successCode_eq_missingFields {missing : List String} {c : Option Bool} {b : Bool} :
    successCode missing c b = .missingFields ↔ missing ≠ [] := by
  unfold successCode
  by_cases hm : missing = []
  · rw [if_neg (not_not.2 hm)]
    refine ⟨fun h => ?_, fun h => absurd hm h⟩
    split at h
    · cases h
    · split at h <;> cases h
  · simp [hm]

theorem missingFieldsAgree_iff {final : Record} :
    MissingFieldsAgree final (recordedAnswer env r .success info error rule) ↔
      (ruled env r (recordedEntries env r) rule).2 = storedMissing final := by
  refine ⟨fun h => ?_, fun h => ⟨?_, ?_⟩⟩
  · rw [← recordedAnswer_missing info error]
    exact h.lists
  · rw [recordedAnswer_missing, h]
  · rw [responseCode_success, Option.some.injEq, successCode_eq_missingFields,
      evaluateMissingFields_fail, h]

end

section
variable {env : EnvConfig} {key : String} {result : ExtractionResult} {uri t b : Option String}
  {started : Option Timestamp} {m : ExtractMethod} {w w' : World} {tr : List (Event sig)}
  {r : Except Exc Unit}

/-- An extraction that stores an answer is a success with what the rules found. -/
theorem ends_classifyExtractionResult {x : V1ApiResponse}
    (h : Ends system w (classifyExtractionResult env key result uri t b started m) tr r w')
    (hx : Stored key x tr) : ∃ uri' d tr₁ tr₂,
      Ends system w ((Classification.success (.fromExtractionResult result (some uri')) m d b
        result).body env key) tr₂ r w' ∧ tr = tr₁ ++ tr₂ ∧ Mute tr₁ ∧
      d.rulesConfigured = (w.ruleAt t result.documentType).isSome ∧
      d.missingRequired = (w.ruleAt t result.documentType).map fun rule =>
        listedRequired env rule (result.fieldEmptyList ++ result.fieldMissingGeometryList) := by
  unfold classifyExtractionResult at h
  split at h
  next =>
    obtain ⟨rfl, _⟩ := ends_raise_iff.1 h
    obtain ⟨u, hu, _⟩ := hx
    cases hu
  next uri' =>
    rcases ends_reads_bind (reads_getExtractionConfidenceFloor t) h with
      ⟨_, _, _, _, hs⟩ | ⟨floor, tr₁, tr₂, _, h₂, rfl, hs₁⟩
    · exact absurd hx hs.not_stored
    rcases ends_reads_bind (reads_tenantHasConfidenceFloor t) h₂ with
      ⟨_, _, _, _, hs⟩ | ⟨hasFloor, tr₃, tr₄, _, h₄, rfl, hs₃⟩
    · exact absurd hx (mute_append.2 ⟨hs₁, hs⟩).not_stored
    rcases ends_reads_bind (reads_getMissingRequiredFields ..) h₄ with
      ⟨_, _, _, _, hs⟩ | ⟨rules, tr₅, tr₆, h₅, h₆, rfl, hs₅⟩
    · exact absurd hx (mute_append.2 ⟨hs₁, mute_append.2 ⟨hs₃, hs⟩⟩).not_stored
    have hrules := ends_getMissingRequiredFields h₅
    refine ⟨uri', _, tr₁ ++ (tr₃ ++ tr₅), tr₆, h₆, by simp,
      mute_append.2 ⟨hs₁, mute_append.2 ⟨hs₃, hs₅⟩⟩, ?_, ?_⟩
    · rw [hrules, Option.isSome_map]
      rfl
    · rw [hrules, Option.map_map]
      rfl

theorem recordedFields_of_scores {r : Record} {scores : FieldConfidences}
    (hscores : (r .fieldConfidenceScores : Option FieldConfidences) = some scores) :
    (recordedFields r).fieldConfidenceMapList = scores := by
  change (r .fieldConfidenceScores : Option FieldConfidences).getD [] = scores
  rw [hscores]
  rfl

theorem keys_recordedEntries (env : EnvConfig) {r : Record} {scores : FieldConfidences}
    (n : String) (hscores : (r .fieldConfidenceScores : Option FieldConfidences) = some scores) :
    n ∈ (recordedEntries env r).map Prod.fst ↔ n ∈ scores.map Prod.fst := by
  have hlist := recordedFields_of_scores hscores
  have hconf : confidenceOf (some (recordedEntries env r)) n = confidenceIn scores n := by
    rw [← hlist]
    exact confidenceOf_buildFieldMap _ _ _ _ _
  rw [mem_names_iff, hconf, confidenceIn, Option.isSome_map, List.find?_isSome, List.mem_map]
  simp only [List.mem_reverse, decide_eq_true_eq]

theorem recordedEntries_eq_nil {r : Record} {scores : FieldConfidences}
    (hscores : (r .fieldConfidenceScores : Option FieldConfidences) = some scores) :
    recordedEntries env r = [] ↔ scores = [] := by
  have hnil : recordedEntries env r = [] ↔ _ := buildFieldMap_eq_nil
  rw [hnil, recordedFields_of_scores hscores]

theorem named_congr {l l' : List String} (h : ∀ n, n ∈ l ↔ n ∈ l') (f : String) :
    Named env l f ↔ Named env l' f :=
  ⟨Named.mono fun n => (h n).1, Named.mono fun n => (h n).2⟩

end

/-- **The evaluation and the answer agree on the missing fields** exactly when no field was
extracted, or every required one was and, with the flag off, none of them is listed. -/
theorem missingFields_agree_iff (env : EnvConfig) (key : String) (result : ExtractionResult)
    (uri t b : Option String) (started : Option Timestamp) (m : ExtractMethod) {w w' : World}
    {tr : List (Event sig)} {r : Except Exc Unit} {x : V1ApiResponse} (hflat : result.Flat)
    (htenant : truthy (w.record key).tenantId = truthy t)
    (hclass : result.documentType = none → (w.record key).documentClass = none)
    (h : Ends system w (classifyExtractionResult env key result uri t b started m) tr r w')
    (hx : Stored key x tr) (hread : RulesRead tr) :
    MissingFieldsAgree (w'.record key) x ↔
      ∀ rule, w.ruleAt t result.documentType = some rule → result.fieldConfidenceScores = [] ∨
        ∀ f ∈ rule.requiredFields, Named env (result.fieldConfidenceScores.map Prod.fst) f ∧
          (Named env (result.fieldEmptyList ++ result.fieldMissingGeometryList) f →
            env.flags.includeMissingGeoWithMissingFields = true) := by
  obtain ⟨uri', d, tr₁, tr₂, hrun, rfl, hmute, hconfigured, hmissing⟩ :=
    ends_classifyExtractionResult h hx
  have hx := hmute.stored_append.1 hx
  rcases outcome_body hrun with
    ⟨hs, _⟩ | ⟨u, now, timing, (new : Record), resp, hu, ht, hnew, hsettles⟩
  · exact absurd hx hs.not_stored
  -- the record that was written, as far as either list depends on it
  have hover : ∀ a, a ∉ verdictAttrs → new a =
      overlaid env (some (.fromExtractionResult result (some uri'))) (w.record key) a :=
    fun a ha => (updateRequest_overlaid ht hnew ha).trans (by rw [hu.data]; rfl)
  have hscores : (new .fieldConfidenceScores : Option FieldConfidences) =
      some result.fieldConfidenceScores := by
    rw [hover _ (by decide), overlaid, Option.bind_some, lastSet_fieldConfidenceScores]
    rfl
  have hempty : new.fieldEmptyList = some result.fieldEmptyList := by
    have hval := hover .matchedBlueprintFieldEmptyList (by decide)
    rw [overlaid, Option.bind_some, lastSet_fieldEmptyList] at hval
    exact hval
  have hgeometry : new.fieldMissingGeometryList = some result.fieldMissingGeometryList := by
    have hval := hover .matchedBlueprintFieldMissingGeometryList (by decide)
    rw [overlaid, Option.bind_some, lastSet_fieldMissingGeometryList] at hval
    exact hval
  have hdoc : new.documentClass = result.documentType := by
    have hval : new.documentClass = result.documentType.or (w.record key).documentClass := by
      have hval := hover .bdaMatchedDocumentClass (by decide)
      rw [overlaid, Option.bind_some, lastSet_documentClass] at hval
      exact hval
    rw [hval]
    cases hd : result.documentType with
    | none => rw [Option.none_or, hclass hd]
    | some d => rfl
  have hten : truthy new.tenantId = truthy t := by
    have hval : new.tenantId = (w.record key).tenantId :=
      (hover .tenantId (by decide)).trans (overlaid_of_not_data (by decide) _ _)
    rw [← htenant, hval]
  have hrule : w.ruleFor new = w.ruleAt t result.documentType := by
    rw [← hdoc, World.ruleAt, ← hten]
    rfl
  obtain ⟨hconf, hlist⟩ := hu.rules d rfl
  have hstored : storedMissing (w'.record key) = ((w.ruleAt t result.documentType).map fun rule =>
      listedRequired env rule
        (result.fieldEmptyList ++ result.fieldMissingGeometryList)).getD [] := by
    have hc : (w'.record key).rulesConfigured = some (w.ruleAt t result.documentType).isSome := by
      rw [Record.rulesConfigured, hsettles.left _ (by decide), answered_aside (by decide),
        updateRequest_eq_lastSet ht hnew (by simp [isTimingAttr]), lastSet_extractionRulesConfigured,
        hconf, hconfigured]
      rfl
    have hl : (w'.record key).missingRequired =
        d.missingRequired.or (w.record key).missingRequired := by
      rw [Record.missingRequired, hsettles.left _ (by decide), answered_aside (by decide),
        updateRequest_eq_lastSet ht hnew (by simp [isTimingAttr]), lastSet_missingRequiredFieldList,
        hlist]
      rfl
    rw [storedMissing, hc, hl, hmissing]
    cases w.ruleAt t result.documentType <;> rfl
  obtain ⟨rule, rfl, hused⟩ := hsettles.answer x (hsettles.stored key x hx)
  have hused := hused.eq fun t d e hm => hread t d e (List.mem_append_right _ hm)
  change MissingFieldsAgree _ (recordedAnswer env new .success _ _ rule) ↔ _
  rw [missingFieldsAgree_iff, hstored, hused, hrule]
  cases hcase : w.ruleAt t result.documentType with
  | none => exact ⟨fun _ rule hr => (by cases hr), fun _ => rfl⟩
  | some rule =>
    have hnames := fun n => keys_recordedEntries env n hscores
    have hlisted : ∀ n ∈ result.fieldEmptyList ++ result.fieldMissingGeometryList,
        n ∈ (recordedEntries env new).map Prod.fst := by
      intro n hn
      rw [hnames]
      exact (List.mem_append.1 hn).elim (hflat.empty n) (hflat.geometry n)
    have hwithheld : ∀ f, Named env (withheldFields env new) f ↔
        env.flags.includeMissingGeoWithMissingFields = true ∧
          Named env (result.fieldEmptyList ++ result.fieldMissingGeometryList) f := by
      intro f
      rw [withheldFields, hempty, hgeometry]
      by_cases hflag : env.flags.includeMissingGeoWithMissingFields = true
      · rw [if_pos hflag, Option.getD_some, Option.getD_some, named_congr fun n => ?_]
        · exact ⟨fun hf => ⟨hflag, hf⟩, fun hf => hf.2⟩
        · rw [List.mem_append, List.mem_append, or_comm]
      · rw [if_neg hflag]
        refine ⟨fun hf => ?_, fun hf => absurd hf.1 hflag⟩
        obtain ⟨n, hn, _⟩ := hf
        cases hn
    rw [Option.map_some, Option.getD_some, listedRequired_eq_iff hlisted hwithheld,
      recordedEntries_eq_nil hscores]
    simp only [named_congr hnames]
    exact ⟨fun hcond rule' hr => Option.some.inj hr ▸ hcond, fun hcond => hcond rule rfl⟩

/-! ## A required field that was not extracted -/

def invoiceWorld : World :=
  { outputWorld with rules := fun t d =>
      if t = "acme" ∧ d = "Invoice" then some ⟨["total"], ["date"]⟩ else none }

/-- An invoice with these fields, all of them filled. -/
def invoiceResult (scores : FieldConfidences) : ExtractionResult :=
  { documentType := some "Invoice", fieldConfidenceScores := scores }

def classifyInvoice (scores : FieldConfidences) : Prog Unit :=
  classifyExtractionResult sampleEnv "scan-1.pdf" (invoiceResult scores)
    (some "s3://output/results/1.json") (some "acme") none none .bda

/-- What the client and the reviewer see of the missing fields. -/
structure MissingView where
  answered  : List String
  code      : Option ResponseCode
  evaluated : List String
  failed    : Bool
deriving DecidableEq

def missingView (r : Record) (x : V1ApiResponse) : MissingView :=
  { answered := x.missingRequiredFieldList.getD []
    code := x.responseCode
    evaluated := storedMissing r
    failed := decide ((evaluateMissingFields r).status = .fail) }

def invoiceViews (scores : FieldConfidences) (n : Nat) : Option (List MissingView) :=
  (Effect.follow system invoiceWorld (classifyInvoice scores) (List.replicate n {})).bind
    fun (tr, q, w') =>
      if tr.all fun ev => !readFails ev then
        q.result.map fun _ =>
          (storedAnswers "scan-1.pdf" tr).map (missingView (w'.record "scan-1.pdf"))
      else none

theorem run_of_invoiceViews {scores : FieldConfidences} {n : Nat} {v : MissingView}
    (h : invoiceViews scores n = some [v]) : ∃ tr r w' x,
      Ends system invoiceWorld (classifyInvoice scores) tr r w' ∧ Stored "scan-1.pdf" x tr ∧
      RulesRead tr ∧ missingView (w'.record "scan-1.pdf") x = v := by
  obtain ⟨out, hout, h⟩ := Option.bind_eq_some_iff.1 h
  obtain ⟨tr, q, w'⟩ := out
  dsimp only at h
  split at h
  next hread =>
    obtain ⟨r, hr, hanswers⟩ := Option.map_eq_some_iff.1 h
    obtain rfl : q = .ofExcept r := Effect.Prog.eq_ofExcept hr
    obtain ⟨x, hx, hv⟩ := List.map_eq_singleton_iff.1 hanswers
    have hmem : x ∈ storedAnswers "scan-1.pdf" tr := by
      rw [hx]
      exact List.mem_singleton_self x
    exact ⟨tr, r, w', x, Effect.steps_of_follow hout, stored_of_mem hmem,
      (reads_of_all (w := invoiceWorld) hread).1, hv⟩
  next => cases h

set_option maxRecDepth 10000 in
/-- The required field is there under a name with a capital letter. -/
theorem missingFields_agree_capital : ∃ tr r w' x,
    Ends system invoiceWorld (classifyInvoice [("date", 9 / 10), ("Total", 4 / 5)]) tr r w' ∧
    Stored "scan-1.pdf" x tr ∧ MissingFieldsAgree (w'.record "scan-1.pdf") x := by
  have hrun : invoiceViews [("date", 9 / 10), ("Total", 4 / 5)] 15 =
      some [⟨[], some .success, [], false⟩] := by decide +kernel
  obtain ⟨tr, r, w', x, hends, hx, hread, _⟩ := run_of_invoiceViews hrun
  have hflat : (invoiceResult [("date", 9 / 10), ("Total", 4 / 5)]).Flat :=
    ⟨fun _ h => (by cases h), fun _ h => (by cases h)⟩
  refine ⟨tr, r, w', x, hends, hx, (missingFields_agree_iff sampleEnv "scan-1.pdf" _ _ _ _ _ _ hflat
    rfl (fun h => (by cases h)) hends hx hread).2 fun rule hrule => .inr fun f hf => ?_⟩
  cases (show some (⟨["total"], ["date"]⟩ : ExtractionRule) = some rule from hrule)
  obtain rfl := List.mem_singleton.1 hf
  exact ⟨⟨"Total", by decide, by decide +kernel⟩, fun _ => rfl⟩

set_option maxRecDepth 10000 in
/-- The evaluation of an invoice without its required field passes; the client is told of it. -/
theorem missingFields_agree_fails : ∃ tr r w' x,
    Ends system invoiceWorld (classifyInvoice [("date", 9 / 10)]) tr r w' ∧
    Stored "scan-1.pdf" x tr ∧ x.responseCode = some .missingFields ∧
    x.missingRequiredFieldList.getD [] = ["total"] ∧ storedMissing (w'.record "scan-1.pdf") = [] ∧
    (evaluateMissingFields (w'.record "scan-1.pdf")).status ≠ .fail ∧
    ¬ MissingFieldsAgree (w'.record "scan-1.pdf") x := by
  have hrun : invoiceViews [("date", 9 / 10)] 15 =
      some [⟨["total"], some .missingFields, [], false⟩] := by decide +kernel
  obtain ⟨tr, r, w', x, hends, hx, _, hv⟩ := run_of_invoiceViews hrun
  have hanswered : x.missingRequiredFieldList.getD [] = ["total"] := congrArg MissingView.answered hv
  have hevaluated : storedMissing (w'.record "scan-1.pdf") = [] := congrArg MissingView.evaluated hv
  have hfailed : decide ((evaluateMissingFields (w'.record "scan-1.pdf")).status = .fail) = false :=
    congrArg MissingView.failed hv
  refine ⟨tr, r, w', x, hends, hx, congrArg MissingView.code hv, hanswered, hevaluated,
    of_decide_eq_false hfailed, fun h => ?_⟩
  have hlists := h.lists
  rw [hanswered, hevaluated] at hlists
  cases hlists

end DocumentAi
