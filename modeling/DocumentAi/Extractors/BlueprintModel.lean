import DocumentAi.Extractors.OcrMapping

/-!
# Response models of blueprint schemas (`utils/llm_blueprint_models.py`)

| here | there |
| --- | --- |
| `fieldDescription`    | `_DESCRIPTION_CLARIFICATIONS`, `_field_description` (`:16-32`) |
| `buildBlueprintModel` | `build_blueprint_model` (`:35-77`); `none` when the class is not created |
| `accepts`             | **pydantic boundary**: the name may be an attribute of a model; a name with a leading underscore may not |
| `outputEntry`         | what the field loop of `_extract` puts into the output for one field (`extractors/ocr_mapping.py:252-303`) |
| `OneToOne`            | every field has an attribute of its own, and the answer for it comes back under its name |

Names are told apart by their texts with every dot as an underscore, so `a.b` and `a_b` share an
attribute, and the map back knows the last of them.
-/

namespace DocumentAi

/-- `_DESCRIPTION_CLARIFICATIONS`. -/
def descriptionClarifications : List (String × String) :=
  let parts := ["Line1", "Line2", "City", "State", "ZipCode"]
  parts.map (fun part => ("CompanyAddress." ++ part,
    "This is the employer/company's business address (as shown in the letterhead), "
      ++ "not the employee's home address."))
  ++ parts.map fun part => ("EmployeeAddress." ++ part,
    "This is the employee's personal home address, "
      ++ "only if printed separately from the employer's address.")

def fieldDescription (f : SchemaField) : String :=
  match truthy (descriptionClarifications.lookup f.name) with
  | none               => f.description
  | some clarification =>
    String.ofList (Chars.trim (f.description ++ " " ++ clarification).toList)

structure BlueprintModel where
  name       : String
  /-- The attributes in order, with the descriptions of their values. -/
  attributes : List (String × String)

def buildBlueprintModel (accepts : String → Bool) (schema : DocumentSchema) :
    Option (BlueprintModel × List (String × String)) :=
  let attributes :=
    schema.fields.foldl (fun d f => Dict.assign (underscored f.name) (fieldDescription f) d) []
  let name := String.ofList (schema.documentType.toList.map fun c => if c = '-' then '_' else c)
  if attributes.all fun a => accepts a.1 then
    some ({ name := name ++ "Model", attributes }, fieldNameMap schema)
  else none

/-- The entry of a field with the answer `extracted`. -/
def outputEntry (libs : Libraries) (blocks : List Block) (fieldName fieldType : String)
    (extracted : ExtractedField) : StoredField :=
  let (conf, line) := computeConfidence libs extracted.textCitation blocks
  { value := some (normalizeValue libs fieldName fieldType (extracted.value.getD ""))
    confidence := conf
    textCitation := some extracted.textCitation
    fieldType := some fieldType
    geometry := fieldGeometry libs extracted.textCitation line blocks }

structure OneToOne (accepts : String → Bool) (schema : DocumentSchema) : Prop where
  /-- The model is made, and each field has an attribute of its own. -/
  attributes : ∃ model names, buildBlueprintModel accepts schema = some (model, names) ∧
    model.attributes.map Prod.fst = schema.fields.map (fun f => underscored f.name) ∧
    (model.attributes.map Prod.fst).Nodup
  /-- The attribute of a field stands for the field. -/
  back : ∀ f ∈ schema.fields, fieldNameOf schema (underscored f.name) = f.name
  /-- The output has the answers, each under the name of its field. -/
  answers : ∀ libs response blocks, (extractOcrFields libs schema response blocks).fieldsOutput =
    schema.fields.filterMap fun f => (response.lookup (underscored f.name)).map fun extracted =>
      (f.name, outputEntry libs blocks f.name f.type extracted)

/-! ## Attributes -/

section
variable {accepts : String → Bool} {schema : DocumentSchema}

theorem nodup_underscored (hnames : (schema.fields.map SchemaField.name).Nodup)
    (h : ∀ f ∈ schema.fields, ∀ g ∈ schema.fields,
      underscored f.name = underscored g.name → f.name = g.name) :
    (schema.fields.map fun f => underscored f.name).Nodup := by
  have hpairs : schema.fields.Pairwise fun f g => f.name ≠ g.name := List.pairwise_map.1 hnames
  refine List.pairwise_map.2 (hpairs.imp_of_mem fun hf hg hne heq => ?_)
  exact hne (h _ hf _ hg heq)

theorem modelFields_of_nodup (h : (schema.fields.map fun f => underscored f.name).Nodup) :
    modelFields schema = schema.fields.map fun f => underscored f.name := by
  rw [modelFields, Dict.assignAll_of_nodup h, List.map_map]
  rfl

theorem keys_attributes {model : BlueprintModel} {names : List (String × String)}
    (h : buildBlueprintModel accepts schema = some (model, names)) :
    model.attributes.map Prod.fst = modelFields schema ∧
      ∀ a ∈ modelFields schema, accepts a = true := by
  have hkeys := Dict.keys_assignAll (fun f : SchemaField => underscored f.name) fieldDescription
    (fun _ => ()) schema.fields
  rw [buildBlueprintModel] at h
  split at h
  next hall =>
    cases h
    refine ⟨hkeys, fun a ha => ?_⟩
    obtain ⟨e, he, rfl⟩ := List.mem_map.1 ((congrArg (a ∈ ·) hkeys).mpr ha)
    exact List.all_eq_true.1 hall e he
  next => cases h

theorem exists_buildBlueprintModel (h : ∀ a ∈ modelFields schema, accepts a = true) :
    ∃ model names, buildBlueprintModel accepts schema = some (model, names) := by
  have hkeys := Dict.keys_assignAll (fun f : SchemaField => underscored f.name) fieldDescription
    (fun _ => ()) schema.fields
  refine ⟨_, _, if_pos (List.all_eq_true.2 fun e he => h e.1 ?_)⟩
  exact (congrArg (e.1 ∈ ·) hkeys).mp (List.mem_map_of_mem he)

/-! ## Answers -/

theorem fieldNameOf_of_nodup (h : (schema.fields.map fun f => underscored f.name).Nodup)
    {f : SchemaField} (hf : f ∈ schema.fields) :
    fieldNameOf schema (underscored f.name) = f.name := by
  have hmem : (underscored f.name, f.name) ∈ fieldNameMap schema := by
    rw [fieldNameMap, Dict.assignAll_of_nodup h]
    exact List.mem_map.2 ⟨f, hf, rfl⟩
  have hlook := Dict.lookup_of_mem (d := fieldNameMap schema) (Dict.nodup_keys_assignAll _) hmem
  rw [fieldNameOf, hlook]
  rfl

theorem fieldTypeOf_of_nodup (h : (schema.fields.map SchemaField.name).Nodup) {f : SchemaField}
    (hf : f ∈ schema.fields) : (fieldTypeMap schema).lookup f.name = some f.type := by
  have hmem : (f.name, f.type) ∈ fieldTypeMap schema := by
    rw [fieldTypeMap, Dict.assignAll_of_nodup h]
    exact List.mem_map.2 ⟨f, hf, rfl⟩
  exact Dict.lookup_of_mem (d := fieldTypeMap schema) (Dict.nodup_keys_assignAll _) hmem

/-- One attribute of the loop. -/
def addAnswer (libs : Libraries) (blocks : List Block) (response : List (String × ExtractedField))
    (schema : DocumentSchema) (acc : OcrExtraction) (attr : String) : OcrExtraction :=
  match response.lookup attr with
  | none           => acc
  | some extracted =>
    let fieldName := fieldNameOf schema attr
    acc.addField libs blocks fieldName (((fieldTypeMap schema).lookup fieldName).getD "string")
      extracted

/-- The answer for one field, when there is one. -/
def answerFor (libs : Libraries) (blocks : List Block) (response : List (String × ExtractedField))
    (f : SchemaField) : Option (String × StoredField) :=
  (response.lookup (underscored f.name)).map fun extracted =>
    (f.name, outputEntry libs blocks f.name f.type extracted)

theorem fieldsOutput_loop (libs : Libraries) (blocks : List Block)
    (response : List (String × ExtractedField)) {fields : List SchemaField}
    (hname : ∀ f ∈ fields, fieldNameOf schema (underscored f.name) = f.name)
    (htype : ∀ f ∈ fields, (fieldTypeMap schema).lookup f.name = some f.type)
    (hnodup : (fields.map SchemaField.name).Nodup) :
    ((fields.map fun f => underscored f.name).foldl
        (addAnswer libs blocks response schema) {}).fieldsOutput =
      fields.filterMap (answerFor libs blocks response) := by
  induction fields using List.reverseRecOn with
  | nil => rfl
  | append_singleton fields f ih =>
    rw [List.map_append, List.nodup_append] at hnodup
    obtain ⟨hfields, -, hnew⟩ := hnodup
    have hrest := ih (fun g hg => hname g (List.mem_append_left _ hg))
      (fun g hg => htype g (List.mem_append_left _ hg)) hfields
    have hf : f ∈ fields ++ [f] := List.mem_append_right _ (List.mem_singleton_self f)
    have hnames : ∀ n ∈ (fields.filterMap (answerFor libs blocks response)).map Prod.fst,
        n ∈ fields.map SchemaField.name := by
      intro n hn
      obtain ⟨e, he, rfl⟩ := List.mem_map.1 hn
      obtain ⟨g, hg, hanswer⟩ := List.mem_filterMap.1 he
      obtain ⟨extracted, -, rfl⟩ := Option.map_eq_some_iff.1 hanswer
      exact List.mem_map_of_mem hg
    rw [List.map_append, List.foldl_append, List.map_singleton, List.foldl_cons, List.foldl_nil,
      List.filterMap_append, ← hrest]
    rw [← hrest] at hnames
    generalize (fields.map fun f => underscored f.name).foldl (addAnswer libs blocks response schema)
      {} = x at hnames
    unfold addAnswer
    cases hanswer : response.lookup (underscored f.name) with
    | none => simp [answerFor, hanswer]
    | some extracted =>
      have hone : [f].filterMap (answerFor libs blocks response) =
          [(f.name, outputEntry libs blocks f.name f.type extracted)] := by
        simp [answerFor, hanswer]
      dsimp only
      rw [hone, hname f hf, htype f hf]
      exact Dict.update_of_not_mem fun hmem =>
        hnew f.name (hnames f.name hmem) f.name (List.mem_singleton_self _) rfl

/-- **The fields of a schema and the attributes of its model go one to one exactly when no two names
become one with their dots as underscores, and pydantic takes each of them.** -/
theorem oneToOne_iff (accepts : String → Bool) {schema : DocumentSchema}
    (hnames : (schema.fields.map SchemaField.name).Nodup) :
    OneToOne accepts schema ↔
      (∀ f ∈ schema.fields, ∀ g ∈ schema.fields,
        underscored f.name = underscored g.name → f.name = g.name) ∧
      ∀ f ∈ schema.fields, accepts (underscored f.name) = true := by
  constructor
  · intro h
    obtain ⟨model, names, hbuild, hown, hnodup⟩ := h.attributes
    obtain ⟨hkeys, haccepted⟩ := keys_attributes hbuild
    constructor
    · intro f hf g hg heq
      rw [← h.back f hf, heq, h.back g hg]
    · intro f hf
      refine haccepted _ ?_
      rw [← hkeys, hown]
      exact List.mem_map.2 ⟨f, hf, rfl⟩
  · rintro ⟨hinj, haccepted⟩
    have hnodup := nodup_underscored hnames hinj
    have hfields := modelFields_of_nodup hnodup
    have hback : ∀ f ∈ schema.fields, fieldNameOf schema (underscored f.name) = f.name :=
      fun f hf => fieldNameOf_of_nodup hnodup hf
    refine ⟨?_, hback, fun libs response blocks => ?_⟩
    · have hall : ∀ a ∈ modelFields schema, accepts a = true := by
        rw [hfields]
        intro a ha
        obtain ⟨f, hf, rfl⟩ := List.mem_map.1 ha
        exact haccepted f hf
      obtain ⟨model, names, hbuild⟩ := exists_buildBlueprintModel hall
      have hkeys := (keys_attributes hbuild).1.trans hfields
      exact ⟨model, names, hbuild, hkeys, hkeys ▸ hnodup⟩
    · have hloop := fieldsOutput_loop libs blocks response hback
        (fun f hf => fieldTypeOf_of_nodup hnames hf) hnames
      rw [← hfields] at hloop
      exact hloop

end

/-- A name without a leading underscore. -/
def noLeadingUnderscore (name : String) : Bool := name.toList.head? != some '_'

def cityAndState : DocumentSchema :=
  { documentType := "Letter", fields := [{ name := "Address.City" }, { name := "Address.State" }] }

theorem oneToOne_cityAndState : OneToOne noLeadingUnderscore cityAndState :=
  (oneToOne_iff noLeadingUnderscore (by decide)).2 ⟨by decide +kernel, by decide +kernel⟩

/-- A field of a group and a field whose name has the underscore itself. -/
def cityTwice : DocumentSchema :=
  { documentType := "Letter", fields := [{ name := "Address.City" }, { name := "Address_City" }] }

/-- The answer for the first of them is given to the second. -/
theorem not_oneToOne_cityTwice : ¬ ∀ schema : DocumentSchema,
    (schema.fields.map SchemaField.name).Nodup → OneToOne noLeadingUnderscore schema := by
  intro h
  have hback := (h cityTwice (by decide)).back { name := "Address.City" } List.mem_cons_self
  have hother : fieldNameOf cityTwice (underscored "Address.City") = "Address_City" := by
    decide +kernel
  exact absurd (hother.symm.trans hback) (by decide)

end DocumentAi
