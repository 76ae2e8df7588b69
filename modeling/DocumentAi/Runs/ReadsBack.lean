import DocumentAi.Pipeline.OcrMapping
import DocumentAi.Pipeline.Textract
import DocumentAi.Runs.OriginalFileName
import DocumentAi.Runs.RebuiltAnswer

/-!
# A stored extraction reads back

The Textract and the OCR-mapping extractor each make a dictionary of fields, the body of the output
from it, and beside the body the lists that classification stores. The readers make the lists again
from the body.

| here | meaning |
| --- | --- |
| `Extracts env w m tr x w'` | the extractor of the method `m` returns the result `x` |
| `Extracted env m tr fields` | the dictionary that the extractor makes of the answers in `tr` |
| `fieldReader m`     | the reader that belongs to the extractor |
| `ReadsBack`         | what the reader finds is what the extractor had |
-/

namespace DocumentAi

open Effect (Event Ends ends_bind_ok ends_bind_iff ends_tryCatch_iff ends_perform_iff ends_ret_iff
  ends_raise_iff)

/-! ## What the extractors make -/

/-- The AnalyzeID fields of a response, updated by the supplemental ones. -/
def identityFields (env : EnvConfig) (response : List IdentityDocument) (documentClass : String)
    (items : List SupplementalItem) : StoredFields :=
  updateFields (extractFieldsFromAnalyzeId env.libs response (getBdaFieldMap documentClass))
    (matchNovaResultsToBlocks env.libs items (getWordBlocks (response.flatMap (·.blocks)))
      ((getSupplementalConfig documentClass).getD []))

inductive Extracts (env : EnvConfig) (w : World) : ExtractMethod → List (Event sig) →
    ExtractionResult → World → Prop
  | textract {contentType ddbKey : String} {fileBytes : Bytes} {tr : List (Event sig)}
      {result : ExtractionResult} {w' : World}
      (h : Ends system w (extractTextractIdentity env contentType fileBytes ddbKey) tr
        (.ok (some result)) w') : Extracts env w .textract tr result w'
  | ocrMapping {ddbKey documentType : String} {blocks : List Block} {tr : List (Event sig)}
      {result : ExtractionResult} {w' : World}
      (h : Ends system w (runOcrMappingExtraction env ddbKey documentType blocks) tr
        (.ok result) w') : Extracts env w .ocrMapping tr result w'

inductive Extracted (env : EnvConfig) (tr : List (Event sig)) : ExtractMethod → StoredFields → Prop
  /-- Without an answer on supplemental fields `items` is empty. -/
  | textract (fileBytes : Bytes) (response : List IdentityDocument) (documentClass : String)
      (items : List SupplementalItem)
      (hr : (⟨.ai (.analyzeId fileBytes), .ok response⟩ : Event sig) ∈ tr)
      (hi : items = [] ∨
        (⟨.ai (.supplementalExtraction fileBytes documentClass), .ok items⟩ : Event sig) ∈ tr) :
      Extracted env tr .textract (identityFields env response documentClass items)
  | ocrMapping (documentType : String) (schema : DocumentSchema) (blocks : List Block)
      (response : Converse (List (String × ExtractedField)))
      (answers : List (String × ExtractedField))
      (hs : env.schemas.lookup documentType = some schema)
      (hr : (⟨.ai (.ocrMappingExtraction (layoutOcrBlocksToText blocks) documentType),
        .ok response⟩ : Event sig) ∈ tr)
      (ha : response.parsed = some answers) :
      Extracted env tr .ocrMapping (extractOcrFields env.libs schema answers blocks).fieldsOutput

def fieldReader : ExtractMethod → Bool → Body → ReaderResult
  | .ocrMapping => readOcrMappingOutput
  | _           => readTextractOutput

/-- What a reader finds in the stored body, with and without geometry, is what the extractor had in
its dictionary and in its lists. -/
structure ReadsBack (fields : StoredFields) (result : ExtractionResult)
    (reader : Bool → ReaderResult) : Prop where
  confidences : ∀ g, (reader g).fieldConfidenceMapList = fields.map fun f => (f.1, f.2.confidence)
  scores      : ∀ g, (reader g).fieldConfidenceMapList = result.fieldConfidenceScores
  empty       : ∀ g, (reader g).emptyFields = result.fieldEmptyList
  values      : ∀ g, (reader g).fieldValues = fields.map fun f => (f.1, f.2.value)
  geometry    : (reader true).fieldGeometry =
    fields.filterMap fun f => f.2.geometry.map fun g => (f.1, g, f.2.fieldType)
  noGeometry  : (reader false).fieldGeometry = []

theorem storedGeometry_eq {fields : StoredFields} (h : WellFormed fields) :
    storedGeometry fields =
      fields.filterMap fun f => f.2.geometry.map fun g => (f.1, g, f.2.fieldType) := by
  refine List.filterMap_congr fun f hf => ?_
  obtain ⟨t, ht⟩ := Option.isSome_iff_exists.1 (h.full f hf).2
  rw [StoredField.typedGeometry, ht]
  cases f.2.geometry <;> rfl

theorem readsBack_storedResult {fields : StoredFields} {result : ExtractionResult}
    (h : WellFormed fields)
    (hscores : result.fieldConfidenceScores = fields.map fun f => (f.1, f.2.confidence))
    (hempty : result.fieldEmptyList = (fields.filter fun f => f.2.value.getD "" = "").map Prod.fst) :
    ReadsBack fields result fun g => storedResult g fields where
  confidences _ := rfl
  scores _ := hscores.symm
  empty _ := hempty.symm
  values _ := List.map_congr_left fun f hf => by
    obtain ⟨v, hv⟩ := Option.isSome_iff_exists.1 (h.full f hf).1
    rw [hv, Option.getD_some]
  geometry := storedGeometry_eq h
  noGeometry := rfl

/-! ## The extractors -/

section
variable {env : EnvConfig} {w w' : World} {tr : List (Event sig)} {result : ExtractionResult}

theorem wellFormed_identityFields (env : EnvConfig) (response : List IdentityDocument)
    (documentClass : String) (items : List SupplementalItem) :
    WellFormed (identityFields env response documentClass items) :=
  WellFormed.updateFields (wellFormed_extractFieldsFrom response wellFormed_nil)
    (wellFormed_matchNovaResultsToBlocks ..)

theorem mem_of_ends_ai {c : AiCall} {a : c.Res}
    (h : Ends system w (call (.ai c)) tr (.ok a) w') : (⟨.ai c, .ok a⟩ : Event sig) ∈ tr := by
  obtain ⟨_, _, rfl⟩ := ends_perform_iff.1 h
  exact List.mem_singleton_self _

theorem ends_analyzeIdentity {fileBytes : Bytes} {ddbKey : String}
    {x : List IdentityDocument × Timestamp × Timestamp}
    (h : Ends system w (analyzeIdentity fileBytes ddbKey) tr (.ok (some x)) w') :
    (⟨.ai (.analyzeId fileBytes), .ok x.1⟩ : Event sig) ∈ tr := by
  rcases ends_tryCatch_iff.1 h with ⟨_, hx, hok⟩ | ⟨e, w₁, tr₁, tr₂, _, hcatch, _⟩
  · obtain ⟨record, w₁, tr₁, tr₂, _, h₂, rfl⟩ := ends_bind_ok hok
    obtain ⟨startedAt, w₂, tr₃, tr₄, _, h₄, rfl⟩ := ends_bind_ok h₂
    obtain ⟨response, w₃, tr₅, tr₆, h₅, h₆, rfl⟩ := ends_bind_ok h₄
    obtain ⟨completedAt, w₄, tr₇, tr₈, _, h₈, rfl⟩ := ends_bind_ok h₆
    obtain ⟨_, hret, _⟩ := ends_ret_iff.1 h₈
    cases hx
    cases hret
    have hmem := mem_of_ends_ai h₅
    simp only [List.mem_append]
    exact .inr (.inr (.inl hmem))
  · obtain ⟨_, hret, _⟩ := ends_ret_iff.1 hcatch
    cases hret

/-- The supplemental call gives items, or it is not made or fails and there are none. -/
theorem ends_supplementFields {response : List IdentityDocument} {documentClass : String}
    {fileBytes : Bytes} {fields : StoredFields}
    (h : Ends system w (supplementFields env response documentClass fileBytes
      (extractFieldsFromAnalyzeId env.libs response (getBdaFieldMap documentClass))) tr (.ok fields)
      w') :
    ∃ items, fields = identityFields env response documentClass items ∧ (items = [] ∨
      (⟨.ai (.supplementalExtraction fileBytes documentClass), .ok items⟩ : Event sig) ∈ tr) := by
  unfold supplementFields at h
  split at h
  · obtain ⟨_, hret, _⟩ := ends_ret_iff.1 h
    cases hret
    exact ⟨[], rfl, .inl rfl⟩
  next names hnames =>
    dsimp only at h
    split at h
    · obtain ⟨_, hret, _⟩ := ends_ret_iff.1 h
      cases hret
      exact ⟨[], rfl, .inl rfl⟩
    · rcases ends_tryCatch_iff.1 h with ⟨_, hx, hok⟩ | ⟨e, w₁, tr₁, tr₂, _, hcatch, _⟩
      · obtain ⟨items, w₁, tr₁, tr₂, h₁, h₂, rfl⟩ := ends_bind_ok hok
        obtain ⟨_, hret, _⟩ := ends_ret_iff.1 h₂
        cases hx
        cases hret
        refine ⟨items, ?_, .inr (List.mem_append_left _ (mem_of_ends_ai h₁))⟩
        rw [identityFields, hnames]
        rfl
      · obtain ⟨_, hret, _⟩ := ends_ret_iff.1 hcatch
        cases hret
        exact ⟨[], rfl, .inl rfl⟩

theorem ends_extractTextractIdentity {contentType ddbKey : String} {fileBytes : Bytes}
    (h : Ends system w (extractTextractIdentity env contentType fileBytes ddbKey) tr
      (.ok (some result)) w') :
    ∃ documentClass fields startedAt completedAt, Extracted env tr .textract fields ∧
      WellFormed fields ∧ result = identityResult documentClass fields startedAt completedAt := by
  unfold extractTextractIdentity at h
  split at h
  · obtain ⟨_, hret, _⟩ := ends_ret_iff.1 h
    cases hret
  obtain ⟨x, w₁, tr₁, tr₂, h₁, h₂, rfl⟩ := ends_bind_ok h
  split at h₂
  · obtain ⟨_, hret, _⟩ := ends_ret_iff.1 h₂
    cases hret
  next response startedAt completedAt =>
    split at h₂
    · obtain ⟨_, hret, _⟩ := ends_ret_iff.1 h₂
      cases hret
    next documentClass _ =>
      dsimp only at h₂
      split at h₂
      · obtain ⟨_, hret, _⟩ := ends_ret_iff.1 h₂
        cases hret
      obtain ⟨fields, w₂, tr₃, tr₄, h₃, h₄, rfl⟩ := ends_bind_ok h₂
      obtain ⟨_, w₃, tr₅, tr₆, _, h₆, rfl⟩ := ends_bind_ok h₄
      obtain ⟨_, hret, _⟩ := ends_ret_iff.1 h₆
      cases hret
      obtain ⟨items, rfl, hitems⟩ := ends_supplementFields h₃
      refine ⟨documentClass, _, startedAt, completedAt, ?_, wellFormed_identityFields .., rfl⟩
      refine .textract fileBytes response documentClass items ?_ ?_
      · exact List.mem_append_left _ (ends_analyzeIdentity h₁)
      · refine hitems.imp id fun hm => ?_
        exact List.mem_append_right _ (List.mem_append_left _ hm)

theorem ends_runOcrMappingExtraction {ddbKey documentType : String} {blocks : List Block}
    (h : Ends system w (runOcrMappingExtraction env ddbKey documentType blocks) tr (.ok result) w') :
    ∃ extraction startedAt completedAt,
      Extracted env tr .ocrMapping extraction.fieldsOutput ∧ extraction.Consistent ∧
      result = ocrMappingResult env documentType extraction startedAt completedAt := by
  unfold runOcrMappingExtraction at h
  obtain ⟨record, w₁, tr₁, tr₂, _, h₂, rfl⟩ := ends_bind_ok h
  obtain ⟨startedAt, w₂, tr₃, tr₄, _, h₄, rfl⟩ := ends_bind_ok h₂
  split at h₄
  · exact absurd h₄ not_ends_throw
  next schema hschema =>
    dsimp only at h₄
    split at h₄
    · exact absurd h₄ not_ends_throw
    obtain ⟨response, w₃, tr₅, tr₆, h₅, h₆, rfl⟩ := ends_bind_ok h₄
    split at h₆
    · exact absurd h₆ not_ends_throw
    next answers hanswers =>
      obtain ⟨completedAt, w₄, tr₇, tr₈, _, h₈, rfl⟩ := ends_bind_ok h₆
      obtain ⟨_, w₅, tr₉, tr₁₀, _, h₁₀, rfl⟩ := ends_bind_ok h₈
      obtain ⟨_, hret, _⟩ := ends_ret_iff.1 h₁₀
      cases hret
      refine ⟨_, startedAt, completedAt, ?_, consistent_extractOcrFields .., rfl⟩
      refine .ocrMapping documentType schema blocks response answers hschema ?_ hanswers
      simp only [List.mem_append]
      exact .inr (.inr (.inl (mem_of_ends_ai h₅)))

theorem truthy_isNone_iff {s : Option String} : (truthy s).isNone = decide (s.getD "" = "") := by
  cases s with
  | none => rfl
  | some s =>
    by_cases h : s = ""
    · simp [truthy, h]
    · simp [truthy, h]

/-- **Each extractor's body reads back** as its dictionary and its lists. -/
theorem Extracts.readsBack {m : ExtractMethod} (h : Extracts env w m tr result w') :
    ∃ fields body, Extracted env tr m fields ∧ result.body = some body ∧
      ReadsBack fields result fun g => fieldReader m g body := by
  cases h with
  | textract h =>
    obtain ⟨documentClass, fields, startedAt, completedAt, hmade, hfields, rfl⟩ :=
      ends_extractTextractIdentity h
    refine ⟨fields, _, hmade, rfl, ?_⟩
    have hread := fun g => readStoredFields_eq g hfields.nodup
    simp only [fieldReader, readTextractOutput, hread]
    refine readsBack_storedResult hfields rfl ?_
    simp only [identityResult, truthy_isNone_iff]
  | ocrMapping h =>
    obtain ⟨extraction, startedAt, completedAt, hmade, hx, rfl⟩ := ends_runOcrMappingExtraction h
    refine ⟨extraction.fieldsOutput, _, hmade, rfl, ?_⟩
    have hread := fun g => readStoredFields_eq g hx.fields.nodup
    simp only [fieldReader, readOcrMappingOutput, hread]
    exact readsBack_storedResult hx.fields hx.scores hx.empty

/-- **Stored extraction reads back.** A record that carries the list of the extraction names the same
fields with the same confidences as the output does, whenever that is read with the method's reader. -/
theorem stored_extraction_reads_back {m : ExtractMethod} (h : Extracts env w m tr result w') :
    ∃ fields body, Extracted env tr m fields ∧ result.body = some body ∧
      ReadsBack fields result (fun g => fieldReader m g body) ∧
      ∀ (env₁ : EnvConfig) (w₁ w₂ : World) (tr₁ : List (Event sig)) (r : Record) (uri : String)
        (outputUri : Option String) (method : Option ExtractMethod) (reader : ReaderResult),
        (r .fieldConfidenceScores : Option FieldConfidences) =
          (ClassificationData.fromExtractionResult result uri).fieldConfidenceScores →
        (truthy outputUri).or (truthy (r .bdaOutputS3Uri : Option String)) = some uri →
        (method.or (r .extractionMethod : Option ExtractMethod)).getD .bda = m →
        w₁.resultAt env₁ uri = some body → ObjectsRead w₁ tr₁ →
        Ends system w₁ (readOutput env₁ r true outputUri method) tr₁ (.ok reader) w₂ →
        (recordedFields r).fieldConfidenceMapList = reader.fieldConfidenceMapList := by
  obtain ⟨fields, body, hmade, hbody, hread⟩ := h.readsBack
  refine ⟨fields, body, hmade, hbody, hread, ?_⟩
  intro env₁ w₁ w₂ tr₁ r uri outputUri method reader hscores huri hm hobj hok hend
  have hreader : readers env₁ m body = fieldReader m true body := by cases h <;> rfl
  rw [ends_readOutput_at hend huri hok, hm, hobj, Option.map_some, Option.getD_some, hreader]
  have hlist := hread.scores true
  rw [hlist, recordedFields, hscores]
  rfl

end

/-! ## A driver's license -/

def licenseDocument : IdentityDocument :=
  { blocks :=
      [{ blockType := "WORD", text := some "JANE", confidence := some 99
         geometry := { boundingBox := some ⟨1 / 10, 1 / 5, 1 / 10, 1 / 50⟩ } }]
    identityDocumentFields :=
      [{ type := some "ID_TYPE"
         valueDetection := { text := some "DRIVER LICENSE FRONT", confidence := some 98 } },
       { type := some "FIRST_NAME"
         valueDetection := { text := some "JANE", confidence := some (193 / 2) } },
       { type := some "SUFFIX", valueDetection := { text := some "", confidence := some 99 } }] }

def licenseAnswers : (c : AiCall) → c.Res
  | .analyzeId _ => [licenseDocument]
  | c            => c.plain ""

def licenseEnv : EnvConfig :=
  { documentaiInputLocation := none
    flags := { textractIdentityEnabled := true }
    libs := { lower := fun s => String.ofList (s.toList.map Char.toLower) } }

/-- The fields that are stored, the one without a value and the one with a geometry. -/
def licenseOutcome : Option (FieldConfidences × List String) :=
  (Effect.follow system {} (extractTextractIdentity licenseEnv "image/png" [] "k")
    (List.replicate 6 { ai := licenseAnswers })).bind fun (_, q, _) =>
      match q.result with
      | some (.ok (some result)) => some (result.fieldConfidenceScores, result.fieldEmptyList)
      | _                        => none

theorem extracts_license : ∃ tr result w', Extracts licenseEnv {} .textract tr result w' ∧
    result.fieldConfidenceScores =
      [("NAME_DETAILS.FIRST_NAME", 24 / 25), ("NAME_DETAILS.SUFFIX", 99 / 100)] ∧
    result.fieldEmptyList = ["NAME_DETAILS.SUFFIX"] := by
  have hrun : licenseOutcome = some ([("NAME_DETAILS.FIRST_NAME", 24 / 25),
    ("NAME_DETAILS.SUFFIX", 99 / 100)], ["NAME_DETAILS.SUFFIX"]) := by decide +kernel
  obtain ⟨⟨tr, q, w'⟩, hf, hq⟩ := Option.bind_eq_some_iff.1 hrun
  have hsteps := Effect.steps_of_follow hf
  dsimp only at hq
  split at hq
  next result hresult =>
    rw [Effect.Prog.eq_ofExcept hresult] at hsteps
    obtain ⟨hscores, hempty⟩ := Prod.mk.inj (Option.some.inj hq)
    exact ⟨tr, result, w', .textract hsteps, hscores, hempty⟩
  next => cases hq

theorem stored_extraction_reads_back_license :
    ∃ tr result fields body, Extracted licenseEnv tr .textract fields ∧ result.body = some body ∧
      ReadsBack fields result (fun g => fieldReader .textract g body) ∧
      (readTextractOutput true body).emptyFields = ["NAME_DETAILS.SUFFIX"] := by
  obtain ⟨tr, result, w', h, _, hempty⟩ := extracts_license
  obtain ⟨fields, body, hmade, hbody, hread, _⟩ := stored_extraction_reads_back h
  exact ⟨tr, result, fields, body, hmade, hbody, hread, (hread.empty true).trans hempty⟩

end DocumentAi
