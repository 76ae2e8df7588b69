import DocumentAi.Readers.BdaFields
import Mathlib.Data.List.Perm.Basic

/-!
# What the BDA reader keeps of the fields

The explainability information is read as it is stored: an object with a member `confidence` or
`value` is a field, and the reader does not look inside it. So a group of fields that has one of the
name `value` is taken for a field. Lists are stepped over, and `field_values[full_field_name] = …`
keeps one value for each name.

| here | there |
| --- | --- |
| `JsonValue`              | what `json.loads` returns |
| `isField`                | the test of `readers/bda.py:56-59` |
| `processSingleField`     | `_process_single_field` (`readers/bda.py:23-33`) |
| `place`                  | the three branches of `readers/bda.py:63-68`; `none` where `<` raises |
| `ReaderResult.addField`  | one field (`readers/bda.py:60-78`) |
| `extractFieldsRecursive`, `readBdaOutput` | `_extract_fields_recursive`, `read_bda_output` |
| `leaves`                 | every field of the structure, wherever it lies |
-/

namespace DocumentAi.Explainability

/-- A JSON value; a number is a rational. -/
inductive JsonValue where
  | null
  | bool (b : Bool)
  | number (q : Rat)
  | text (s : String)
  | list (items : List JsonValue)
  | dict (members : List (String × JsonValue))

abbrev Members := List (String × JsonValue)

/-- `len(str(value)) == 0`: no other value has an empty text. -/
def JsonValue.isBlank : JsonValue → Bool
  | .text s => s == ""
  | _       => false

/-- What `<` compares with a number: numbers, and `False` and `True` as 0 and 1. -/
def JsonValue.toNumber : JsonValue → Option Rat
  | .bool b   => some (if b then 1 else 0)
  | .number q => some q
  | _         => none

def isField (m : Members) : Bool := (m.lookup "confidence").isSome || (m.lookup "value").isSome

structure BdaFieldProcessingResult where
  confidence  : JsonValue
  isEmpty     : Bool
  hasGeometry : Bool

def processSingleField (fieldData : Members) : BdaFieldProcessingResult :=
  { confidence := (fieldData.lookup "confidence").getD (.number 0)
    isEmpty := ((fieldData.lookup "value").getD (.text "")).isBlank
    hasGeometry := (fieldData.lookup "geometry").isSome }

structure ReaderResult where
  fieldConfidenceMapList : List (String × JsonValue) := []
  fieldValues            : List (String × JsonValue) := []
  fieldGeometry          : List (String × JsonValue × JsonValue) := []
  emptyFields            : List String := []
  fieldsMissingGeometry  : List String := []
  confidenceScores       : List JsonValue := []

/-- The list that a field goes to. -/
inductive Place where
  | empty
  | missingGeometry
  | scored
deriving DecidableEq

def place (threshold : Rat) (field : BdaFieldProcessingResult) : Option Place :=
  if field.isEmpty then some .empty
  else if field.hasGeometry then some .scored
  else field.confidence.toNumber.map fun c => if c < threshold then .missingGeometry else .scored

def ReaderResult.addField (includeGeometry : Bool) (name : String) (fieldData : Members)
    (p : Place) (acc : ReaderResult) : ReaderResult :=
  let confidence := (processSingleField fieldData).confidence
  { fieldConfidenceMapList := acc.fieldConfidenceMapList ++ [(name, confidence)]
    emptyFields := acc.emptyFields ++ if p = .empty then [name] else []
    fieldsMissingGeometry := acc.fieldsMissingGeometry ++ if p = .missingGeometry then [name] else []
    confidenceScores := acc.confidenceScores ++ if p = .scored then [confidence] else []
    fieldValues := Dict.assign name ((fieldData.lookup "value").getD .null) acc.fieldValues
    fieldGeometry := match includeGeometry, fieldData.lookup "geometry" with
      | true, some g =>
        Dict.assign name ((fieldData.lookup "type").getD .null, g) acc.fieldGeometry
      | _, _         => acc.fieldGeometry }

mutual

def extractFieldsRecursive (threshold : Rat) (includeGeometry : Bool) (parent : String) :
    List (String × JsonValue) → ReaderResult → Option ReaderResult
  | [], acc                        => some acc
  | (name, fieldData) :: rest, acc =>
    (extractField threshold includeGeometry (fullFieldName parent name) fieldData acc).bind
      fun acc => extractFieldsRecursive threshold includeGeometry parent rest acc

def extractField (threshold : Rat) (includeGeometry : Bool) (fullName : String) :
    JsonValue → ReaderResult → Option ReaderResult
  | .dict fieldData, acc =>
    if isField fieldData then
      (place threshold (processSingleField fieldData)).map fun p =>
        acc.addField includeGeometry fullName fieldData p
    else extractFieldsRecursive threshold includeGeometry fullName fieldData acc
  -- `if not isinstance(field_data, dict): continue`
  | _, acc               => some acc

end

/-- One item of the explainability information: the object itself is not tested. -/
def readItem (threshold : Rat) (includeGeometry : Bool) (acc : ReaderResult) :
    JsonValue → Option ReaderResult
  | .dict item => extractFieldsRecursive threshold includeGeometry "" item acc
  | _          => some acc

def readBdaOutput (env : EnvConfig) (includeGeometry : Bool) (info : Option (List JsonValue)) :
    Option ReaderResult :=
  (info.getD []).foldlM (readItem (missingGeometryThreshold env) includeGeometry) {}

/-! ## The fields of the structure -/

/-- An object with a confidence or a value, under its dotted path. -/
structure Leaf where
  path      : String
  fieldData : Members
  /-- It is reached through members alone of objects that are no fields. -/
  reached   : Bool

def Leaf.confidence (l : Leaf) : JsonValue := (processSingleField l.fieldData).confidence

def Leaf.value (l : Leaf) : JsonValue := (l.fieldData.lookup "value").getD .null

mutual

/-- The fields of a value. A field can lie inside another one, but what a field has under `geometry`
says where it was found. -/
def JsonValue.leaves (path : String) (reached : Bool) : JsonValue → List Leaf
  | .dict m      =>
    if isField m then ⟨path, m, reached⟩ :: membersLeaves path false true m
    else membersLeaves path reached false m
  | .list items  => itemsLeaves path items
  | _            => []

def membersLeaves (parent : String) (reached inField : Bool) :
    List (String × JsonValue) → List Leaf
  | []                   => []
  | (name, node) :: rest =>
    (if inField && name == "geometry" then [] else node.leaves (fullFieldName parent name) reached)
      ++ membersLeaves parent reached inField rest

/-- The elements of a list have the path of the list. -/
def itemsLeaves (path : String) : List JsonValue → List Leaf
  | []           => []
  | node :: rest => node.leaves path false ++ itemsLeaves path rest

end

/-- A confidence or a value that is no object and no list. -/
def holdsDatum (m : Members) : Bool :=
  [m.lookup "confidence", m.lookup "value"].any fun
    | none | some (.list _) | some (.dict _) => false
    | _                                      => true

/-- An item is the object of its fields, one of them may be called `value`. An item with a datum of
its own is a field without a name. -/
def JsonValue.itemLeaves : JsonValue → List Leaf
  | .dict m =>
    (if holdsDatum m then [⟨"", m, false⟩] else []) ++ membersLeaves "" true false m
  | node    => node.leaves "" false

def leaves (info : Option (List JsonValue)) : List Leaf := (info.getD []).flatMap JsonValue.itemLeaves

/-! ## The reader adds the leaves it comes to -/

def Leaf.place (threshold : Rat) (l : Leaf) : Option Place :=
  Explainability.place threshold (processSingleField l.fieldData)

def addLeaves (threshold : Rat) (includeGeometry : Bool) (ls : List Leaf) (acc : ReaderResult) :
    Option ReaderResult :=
  ls.foldlM (fun acc l => (l.place threshold).map fun p =>
    acc.addField includeGeometry l.path l.fieldData p) acc

section
variable (t : Rat) (ig : Bool)

theorem addLeaves_append (ls ms : List Leaf) (r : ReaderResult) :
    addLeaves t ig (ls ++ ms) r = (addLeaves t ig ls r).bind (addLeaves t ig ms) :=
  List.foldlM_append

mutual

theorem leaves_unreached : ∀ (node : JsonValue) (path : String),
    (node.leaves path false).filter Leaf.reached = []
  | .dict m, path     => by
    rw [JsonValue.leaves]
    split
    · exact membersLeaves_unreached m path true
    · exact membersLeaves_unreached m path false
  | .list items, path => by
    rw [JsonValue.leaves]
    exact itemsLeaves_unreached items path
  | .null, _ | .bool _, _ | .number _, _ | .text _, _ => rfl

theorem membersLeaves_unreached : ∀ (m : List (String × JsonValue)) (path : String) (b : Bool),
    (membersLeaves path false b m).filter Leaf.reached = []
  | [], _, _                     => rfl
  | (name, node) :: rest, path, b => by
    rw [membersLeaves, List.filter_append, membersLeaves_unreached rest, List.append_nil]
    split
    · rfl
    · exact leaves_unreached node _

theorem itemsLeaves_unreached : ∀ (items : List JsonValue) (path : String),
    (itemsLeaves path items).filter Leaf.reached = []
  | [], _              => rfl
  | node :: rest, path => by
    rw [itemsLeaves, List.filter_append, leaves_unreached node, itemsLeaves_unreached rest]
    rfl

end

mutual

theorem extractFieldsRecursive_eq : ∀ (m : List (String × JsonValue)) (parent : String)
    (r : ReaderResult), extractFieldsRecursive t ig parent m r =
      addLeaves t ig ((membersLeaves parent true false m).filter Leaf.reached) r
  | [], _, _                          => rfl
  | (name, node) :: rest, parent, r => by
    rw [extractFieldsRecursive, membersLeaves, List.filter_append, addLeaves_append,
      extractField_eq node]
    congr 1
    funext acc
    exact extractFieldsRecursive_eq rest parent acc

theorem extractField_eq : ∀ (node : JsonValue) (path : String) (r : ReaderResult),
    extractField t ig path node r =
      addLeaves t ig ((node.leaves path true).filter Leaf.reached) r
  | .dict m, path, r     => by
    rw [extractField, JsonValue.leaves]
    split
    · rw [List.filter_cons_of_pos rfl, membersLeaves_unreached]
      exact (Option.bind_fun_some _).symm
    · exact extractFieldsRecursive_eq m path r
  | .list items, path, _ => by
    rw [extractField, JsonValue.leaves, itemsLeaves_unreached]
    · rfl
    · exact fun m h => JsonValue.noConfusion h
  | .null, _, _ | .bool _, _, _ | .number _, _, _ | .text _, _, _ => rfl

end

theorem readItem_eq (item : JsonValue) (r : ReaderResult) :
    readItem t ig r item = addLeaves t ig (item.itemLeaves.filter Leaf.reached) r := by
  cases item with
  | dict m =>
    rw [JsonValue.itemLeaves, List.filter_append]
    have hself : (if holdsDatum m then [(⟨"", m, false⟩ : Leaf)] else []).filter Leaf.reached = [] := by
      split <;> rfl
    rw [hself]
    exact extractFieldsRecursive_eq t ig m "" r
  | list items =>
    change some r = addLeaves t ig ((itemsLeaves "" items).filter Leaf.reached) r
    rw [itemsLeaves_unreached]
    rfl
  | _ => rfl

end

theorem readBdaOutput_eq (env : EnvConfig) (ig : Bool) (info : Option (List JsonValue)) :
    readBdaOutput env ig info =
      addLeaves (missingGeometryThreshold env) ig ((leaves info).filter Leaf.reached) {} := by
  unfold readBdaOutput leaves
  generalize ({} : ReaderResult) = r
  induction info.getD [] generalizing r with
  | nil => rfl
  | cons item items ih =>
    rw [List.foldlM_cons, List.flatMap_cons, List.filter_append, addLeaves_append, readItem_eq]
    congr 1
    funext acc
    exact ih acc

/-! ## The lists of a result -/

/-- What reading the leaves has added to the lists. -/
structure Collected (t : Rat) (ls : List Leaf) (acc r : ReaderResult) : Prop where
  confidences : r.fieldConfidenceMapList =
    acc.fieldConfidenceMapList ++ ls.map fun l => (l.path, l.confidence)
  values      : r.fieldValues = ls.foldl (fun d l => Dict.assign l.path l.value d) acc.fieldValues
  empty       : r.emptyFields =
    acc.emptyFields ++ (ls.filter fun l => l.place t = some .empty).map Leaf.path
  missing     : r.fieldsMissingGeometry = acc.fieldsMissingGeometry ++
    (ls.filter fun l => l.place t = some .missingGeometry).map Leaf.path
  scored      : r.confidenceScores =
    acc.confidenceScores ++ (ls.filter fun l => l.place t = some .scored).map Leaf.confidence
  placed      : ∀ l ∈ ls, (l.place t).isSome = true

/-- A leaf that goes to the list adds one element to it. -/
theorem filter_place_cons {α : Type} {t : Rat} {l : Leaf} {p : Place} (hp : l.place t = some p)
    (q : Place) (f : Leaf → α) (ls : List Leaf) (acc : List α) :
    acc ++ (if p = q then [f l] else []) ++ (ls.filter fun l => l.place t = some q).map f =
      acc ++ ((l :: ls).filter fun l => l.place t = some q).map f := by
  rw [List.filter_cons, List.append_assoc, hp]
  by_cases hq : p = q
  · rw [if_pos hq, if_pos (by simp [hq])]
    rfl
  · rw [if_neg hq, if_neg (by simp [hq])]
    rfl

theorem collected_of_addLeaves {t : Rat} {ig : Bool} {ls : List Leaf} {acc r : ReaderResult}
    (h : addLeaves t ig ls acc = some r) : Collected t ls acc r := by
  induction ls generalizing acc with
  | nil =>
    obtain rfl := Option.some.inj h
    exact ⟨(List.append_nil _).symm, rfl, (List.append_nil _).symm, (List.append_nil _).symm,
      (List.append_nil _).symm, fun _ hl => (by cases hl)⟩
  | cons l ls ih =>
    obtain ⟨acc', hfirst, hrest⟩ := Option.bind_eq_some_iff.1 h
    obtain ⟨p, hp, rfl⟩ := Option.map_eq_some_iff.1 hfirst
    have hc := ih hrest
    refine ⟨?_, hc.values, ?_, ?_, ?_, ?_⟩
    · rw [hc.confidences]
      exact List.append_assoc ..
    · rw [hc.empty]
      exact filter_place_cons hp .empty Leaf.path ls acc.emptyFields
    · rw [hc.missing]
      exact filter_place_cons hp .missingGeometry Leaf.path ls acc.fieldsMissingGeometry
    · rw [hc.scored]
      exact filter_place_cons hp .scored Leaf.confidence ls acc.confidenceScores
    · intro l' hl'
      rcases List.mem_cons.1 hl' with rfl | hl'
      · rw [hp]
        rfl
      · exact hc.placed l' hl'

theorem exists_addLeaves {t : Rat} {ls : List Leaf} (h : ∀ l ∈ ls, (l.place t).isSome = true)
    (ig : Bool) (acc : ReaderResult) :
    ∃ r, addLeaves t ig ls acc = some r := by
  induction ls generalizing acc with
  | nil => exact ⟨acc, rfl⟩
  | cons l ls ih =>
    obtain ⟨p, hp⟩ := Option.isSome_iff_exists.1 (h l List.mem_cons_self)
    obtain ⟨r, hr⟩ := ih (fun l' hl' => h l' (List.mem_cons_of_mem _ hl'))
      (acc.addField ig l.path l.fieldData p)
    exact ⟨r, Option.bind_eq_some_iff.2 ⟨_, Option.map_eq_some_iff.2 ⟨p, hp, rfl⟩, hr⟩⟩

/-- Each leaf goes to one of the three lists. -/
theorem perm_places {t : Rat} {ls : List Leaf} (h : ∀ l ∈ ls, (l.place t).isSome = true) :
    ls.Perm ((ls.filter fun l => l.place t = some .empty) ++
      (ls.filter fun l => l.place t = some .missingGeometry) ++
      ls.filter fun l => l.place t = some .scored) := by
  induction ls with
  | nil => exact .refl _
  | cons l ls ih =>
    have hls := ih fun l' hl' => h l' (List.mem_cons_of_mem _ hl')
    obtain ⟨p, hp⟩ := Option.isSome_iff_exists.1 (h l List.mem_cons_self)
    simp only [List.filter_cons, hp]
    cases p with
    | empty => exact hls.cons l
    | missingGeometry => exact (hls.cons l).trans (List.perm_middle.symm.append_right _)
    | scored => exact (hls.cons l).trans List.perm_middle.symm

/-! ## No field is lost -/

/-- Each of the fields is once in the list of confidences and in the dictionary of values, and
counts in exactly one of the three lists. -/
structure NoFieldLost (leaves : List Leaf) (r : ReaderResult) : Prop where
  confidences : r.fieldConfidenceMapList.Perm (leaves.map fun l => (l.path, l.confidence))
  values      : r.fieldValues.Perm (leaves.map fun l => (l.path, l.value))
  split       : ∃ empty missing scored : List Leaf, leaves.Perm (empty ++ missing ++ scored) ∧
    r.emptyFields.Perm (empty.map Leaf.path) ∧
    r.fieldsMissingGeometry.Perm (missing.map Leaf.path) ∧
    r.confidenceScores.Perm (scored.map Leaf.confidence)

/-- The comparison with the threshold does not raise: the field is empty or has a geometry, or its
confidence, when it has one, is a number. -/
def Leaf.Compares (l : Leaf) : Prop :=
  (l.fieldData.lookup "value").getD (.text "") = .text "" ∨
    (l.fieldData.lookup "geometry").isSome = true ∨ l.confidence.toNumber.isSome = true

theorem isBlank_iff {v : JsonValue} : v.isBlank = true ↔ v = .text "" := by
  cases v with
  | text s => rw [JsonValue.isBlank, beq_iff_eq, JsonValue.text.injEq]
  | _ => exact ⟨fun h => (by cases h), fun h => (by cases h)⟩

theorem place_isSome_iff (t : Rat) (l : Leaf) : (l.place t).isSome = true ↔ l.Compares := by
  rw [Leaf.Compares, ← isBlank_iff, Leaf.place, place]
  change Option.isSome (if ((l.fieldData.lookup "value").getD (.text "")).isBlank = true then _
    else if (l.fieldData.lookup "geometry").isSome = true then _
    else l.confidence.toNumber.map _) = true ↔ _
  by_cases he : ((l.fieldData.lookup "value").getD (.text "")).isBlank = true
  · rw [if_pos he]
    exact iff_of_true rfl (.inl he)
  · by_cases hg : (l.fieldData.lookup "geometry").isSome = true
    · rw [if_neg he, if_pos hg]
      exact iff_of_true rfl (.inr (.inl hg))
    · rw [if_neg he, if_neg hg, Option.isSome_map, or_iff_right he, or_iff_right hg]

/-- The reader loses no field exactly when it comes to each of them, can compare each, and no two
have the same path. -/
theorem noFieldLost_iff (env : EnvConfig) (includeGeometry : Bool)
    (info : Option (List JsonValue)) :
    (∃ r, readBdaOutput env includeGeometry info = some r ∧ NoFieldLost (leaves info) r) ↔
      (∀ l ∈ leaves info, l.reached = true ∧ l.Compares) ∧ ((leaves info).map Leaf.path).Nodup := by
  rw [readBdaOutput_eq]
  constructor
  · rintro ⟨r, hr, h⟩
    have hc := collected_of_addLeaves hr
    have hread : ∀ l ∈ leaves info, l.reached = true := by
      -- one entry for each leaf read, and as many as there are leaves
      have hlength := h.confidences.length_eq
      rw [hc.confidences, List.nil_append, List.length_map, List.length_map] at hlength
      exact List.length_filter_eq_length_iff.1 hlength
    refine ⟨fun l hl => ⟨hread l hl, ?_⟩, ?_⟩
    · exact (place_isSome_iff _ l).1 (hc.placed l (List.mem_filter.2 ⟨hl, hread l hl⟩))
    · have hkeys := (h.values.map Prod.fst).nodup_iff.1
        (by rw [hc.values]; exact Dict.nodup_keys_assignAll _)
      rwa [List.map_map] at hkeys
  · rintro ⟨hleaves, hnodup⟩
    have hread : (leaves info).filter Leaf.reached = leaves info :=
      List.filter_eq_self.2 fun l hl => (hleaves l hl).1
    rw [hread]
    obtain ⟨r, hr⟩ := exists_addLeaves
      (fun l hl => (place_isSome_iff (missingGeometryThreshold env) l).2 (hleaves l hl).2)
      includeGeometry {}
    have hc := collected_of_addLeaves hr
    refine ⟨r, hr, .of_eq hc.confidences, ?_, _, _, _, perm_places hc.placed, .of_eq hc.empty,
      .of_eq hc.missing, .of_eq hc.scored⟩
    rw [hc.values]
    exact .of_eq (Dict.assignAll_of_nodup hnodup)

/-- A table of an invoice: its rows are in a list. -/
def servicesTable : List JsonValue :=
  [.dict [("SERVICES_TABLE", .list [.dict [("quantity",
    .dict [("confidence", .number (9 / 10)), ("value", .text "3")])]])]]

/-- A group of fields, one of them with the name `value`. -/
def insuredItem : List JsonValue :=
  [.dict [("INSURED_ITEM", .dict
    [("make", .dict [("confidence", .number (9 / 10)), ("value", .text "Acme")]),
      ("value", .dict [("confidence", .number (4 / 5)), ("value", .text "1200")])])]]

/-- The fields of a table are lost, and the group is read as one field. -/
theorem noFieldLost_fails :
    (leaves (some servicesTable)).map Leaf.path = ["SERVICES_TABLE.quantity"] ∧
    (¬ ∃ r, readBdaOutput { documentaiInputLocation := none } false (some servicesTable) = some r ∧
      NoFieldLost (leaves (some servicesTable)) r) ∧
    (readBdaOutput { documentaiInputLocation := none } false (some insuredItem)).map
      (fun r => r.fieldConfidenceMapList.map Prod.fst) = some ["INSURED_ITEM"] ∧
    ¬ ∃ r, readBdaOutput { documentaiInputLocation := none } false (some insuredItem) = some r ∧
      NoFieldLost (leaves (some insuredItem)) r := by
  refine ⟨by decide +kernel, ?_, by decide +kernel, ?_⟩
  · rintro ⟨r, hr, h⟩
    have hlength := h.confidences.length_eq
    obtain rfl := Option.some.inj hr
    exact absurd hlength (by decide +kernel)
  · rintro ⟨r, hr, h⟩
    have hlength := h.confidences.length_eq
    have hread := congrArg (Option.map fun r : ReaderResult => r.fieldConfidenceMapList.length) hr
    rw [Option.map_some, hlength] at hread
    exact absurd hread (by decide +kernel)

/-! ## The reader of the pipeline

`DocumentAi.readBdaOutput` reads a tree in which fields, groups and lists have been told apart, with
numbers for confidences and texts for values. On such information it is this reader. -/

section
variable (geometryOf : JsonValue → Geometry)

def JsonValue.toText : JsonValue → Option String
  | .text s => some s
  | _       => none

def toData (m : Members) : FieldData :=
  { confidence := (m.lookup "confidence").bind JsonValue.toNumber
    value := (m.lookup "value").map JsonValue.toText
    geometry := (m.lookup "geometry").map fun g =>
      (geometryOf g, (m.lookup "type").bind JsonValue.toText) }

mutual

def JsonValue.toNode : JsonValue → FieldNode
  | .dict m     => if isField m then .field (toData geometryOf m) else .group (toNodes m)
  | .list items => .list (toItems items)
  | _           => .other

def toNodes : List (String × JsonValue) → FieldNodes
  | []                   => .nil
  | (name, node) :: rest => .cons name node.toNode (toNodes rest)

def toItems : List JsonValue → FieldItems
  | []           => .nil
  | node :: rest => .cons node.toNode (toItems rest)

end

/-- An item is not tested. -/
def JsonValue.toItem : JsonValue → FieldNode
  | .dict m => .group (toNodes geometryOf m)
  | node    => node.toNode geometryOf

def toLeaf (l : Leaf) : DocumentAi.Leaf := ⟨l.path, toData geometryOf l.fieldData, l.reached⟩

mutual

theorem leaves_toNodes : ∀ (m : List (String × JsonValue)) (parent : String),
    ((toNodes geometryOf m).leaves parent true).filter (·.byMembers) =
      ((membersLeaves parent true false m).filter Leaf.reached).map (toLeaf geometryOf)
  | [], _                          => rfl
  | (name, node) :: rest, parent => by
    rw [toNodes, FieldNodes.leaves, membersLeaves, List.filter_append, List.filter_append,
      List.map_append, leaves_toNode node, leaves_toNodes rest]
    rfl

theorem leaves_toNode : ∀ (node : JsonValue) (path : String),
    ((node.toNode geometryOf).leaves path true).filter (·.byMembers) =
      ((node.leaves path true).filter Leaf.reached).map (toLeaf geometryOf)
  | .dict m, path     => by
    rw [JsonValue.toNode, JsonValue.leaves]
    split
    · rw [List.filter_cons_of_pos rfl, membersLeaves_unreached]
      rfl
    · rw [FieldNode.leaves]
      exact leaves_toNodes m path
  | .list items, path => by
    rw [JsonValue.toNode, JsonValue.leaves, FieldNode.leaves, itemsLeaves_outside,
      itemsLeaves_unreached]
    rfl
  | .null, _ | .bool _, _ | .number _, _ | .text _, _ => rfl

end

theorem leaves_toItem (item : JsonValue) :
    (item.toItem geometryOf).itemLeaves.filter (·.byMembers) =
      (item.itemLeaves.filter Leaf.reached).map (toLeaf geometryOf) := by
  cases item with
  | dict m =>
    have hself : (if holdsDatum m then [(⟨"", m, false⟩ : Leaf)] else []).filter Leaf.reached = [] := by
      split <;> rfl
    rw [JsonValue.itemLeaves, List.filter_append, hself]
    exact leaves_toNodes geometryOf m ""
  | list items =>
    change ((toItems geometryOf items).leaves "").filter (·.byMembers) =
      ((itemsLeaves "" items).filter Leaf.reached).map (toLeaf geometryOf)
    rw [itemsLeaves_outside, itemsLeaves_unreached]
    rfl
  | _ => rfl

end

/-- A number for a confidence, a text or nothing for a value. -/
structure Leaf.Plain (l : Leaf) : Prop where
  confidence : l.fieldData.lookup "confidence" = none ∨
    ∃ q, l.fieldData.lookup "confidence" = some (.number q)
  value      : l.fieldData.lookup "value" = none ∨ l.fieldData.lookup "value" = some .null ∨
    ∃ s, l.fieldData.lookup "value" = some (.text s)

def ofText : Option String → JsonValue
  | none   => .null
  | some s => .text s

/-- The lists of the two readers' results. -/
structure SameLists (r : DocumentAi.ReaderResult) (r' : ReaderResult) : Prop where
  confidences : r'.fieldConfidenceMapList = r.fieldConfidenceMapList.map fun f => (f.1, .number f.2)
  values      : r'.fieldValues = r.fieldValues.map fun f => (f.1, ofText f.2)
  empty       : r'.emptyFields = r.emptyFields
  missing     : r'.fieldsMissingGeometry = r.fieldsMissingGeometry
  scored      : r'.confidenceScores = r.confidenceScores.map .number

section
variable (geometryOf : JsonValue → Geometry) {l : Leaf}

theorem Leaf.Plain.confidence_eq (h : l.Plain) :
    l.confidence = .number (toLeaf geometryOf l).confidence := by
  change (l.fieldData.lookup "confidence").getD (.number 0) =
    .number (((l.fieldData.lookup "confidence").bind JsonValue.toNumber).getD 0)
  rcases h.confidence with hc | ⟨q, hc⟩
  · rw [hc]
    rfl
  · rw [hc]
    rfl

theorem Leaf.Plain.value_eq (h : l.Plain) : l.value = ofText (toLeaf geometryOf l).value := by
  change (l.fieldData.lookup "value").getD .null =
    ofText ((l.fieldData.lookup "value").map JsonValue.toText).join
  rcases h.value with hv | hv | ⟨s, hv⟩
  · rw [hv]
    rfl
  · rw [hv]
    rfl
  · rw [hv]
    rfl

theorem Leaf.Plain.isEmpty_eq (h : l.Plain) :
    (processSingleField l.fieldData).isEmpty = (toLeaf geometryOf l).isEmpty := by
  change ((l.fieldData.lookup "value").getD (.text "")).isBlank =
    (toData geometryOf l.fieldData).isEmpty
  rw [FieldData.isEmpty]
  dsimp only [toData]
  rcases h.value with hv | hv | ⟨s, hv⟩
  · rw [hv]
    rfl
  · rw [hv]
    rfl
  · rw [hv]
    rfl

theorem Leaf.Plain.place_eq (h : l.Plain) (t : Rat) : l.place t =
    some (if (toLeaf geometryOf l).isEmpty then .empty
      else if (toLeaf geometryOf l).missesGeometry t then .missingGeometry else .scored) := by
  have hconf : (processSingleField l.fieldData).confidence =
      .number (toLeaf geometryOf l).confidence := h.confidence_eq geometryOf
  have hgeo : (processSingleField l.fieldData).hasGeometry =
      !(toLeaf geometryOf l).data.geometry.isNone := by
    change (l.fieldData.lookup "geometry").isSome = !((l.fieldData.lookup "geometry").map _).isNone
    rw [Option.isNone_map, Option.not_isNone]
  rw [Leaf.place, Explainability.place, h.isEmpty_eq geometryOf, hconf, hgeo]
  have hmiss : (toLeaf geometryOf l).missesGeometry t = (!(toLeaf geometryOf l).isEmpty &&
      (toLeaf geometryOf l).data.geometry.isNone &&
      decide ((toLeaf geometryOf l).confidence < t)) := rfl
  rw [hmiss]
  cases (toLeaf geometryOf l).isEmpty with
  | true => rfl
  | false =>
    cases (toLeaf geometryOf l).data.geometry.isNone with
    | false => rfl
    | true => by_cases hlt : (toLeaf geometryOf l).confidence < t <;> simp [JsonValue.toNumber, hlt]

theorem readLeaves_toItem {items : List JsonValue} {b : BdaResult}
    (hb : b.explainabilityInfo.getD [] = items.map (·.toItem geometryOf)) : b.readLeaves =
      ((items.flatMap JsonValue.itemLeaves).filter Leaf.reached).map (toLeaf geometryOf) := by
  rw [BdaResult.readLeaves, BdaResult.leaves, hb, List.flatMap_map, List.filter_flatMap,
    List.filter_flatMap, List.map_flatMap]
  exact List.flatMap_congr fun item _ => leaves_toItem geometryOf item

theorem values_toLeaf {ls : List Leaf} (h : ∀ l ∈ ls, l.Plain) (d : List (String × Option String)) :
    ls.foldl (fun d l => Dict.assign l.path l.value d) (d.map fun f => (f.1, ofText f.2)) =
      ((ls.map (toLeaf geometryOf)).foldl (fun d l => Dict.assign l.path l.value d) d).map
        fun f => (f.1, ofText f.2) := by
  induction ls generalizing d with
  | nil => rfl
  | cons l ls ih =>
    rw [List.map_cons, List.foldl_cons, List.foldl_cons,
      (h l List.mem_cons_self).value_eq geometryOf]
    have hassign : Dict.assign l.path (ofText (toLeaf geometryOf l).value)
        (d.map fun f => (f.1, ofText f.2)) = _ := (Dict.map_assign ofText _ _ d).symm
    rw [hassign]
    exact ih (fun l' hl' => h l' (List.mem_cons_of_mem _ hl')) _

/-- A list of the one result is the list of the other. -/
theorem filter_toLeaf {α β : Type} {ls : List Leaf} {p : Leaf → Bool} {q : DocumentAi.Leaf → Bool}
    {f : Leaf → α} {g : DocumentAi.Leaf → β} {c : β → α}
    (hp : ∀ l ∈ ls, p l = q (toLeaf geometryOf l)) (hf : ∀ l ∈ ls, f l = c (g (toLeaf geometryOf l))) :
    (ls.filter p).map f = (((ls.map (toLeaf geometryOf)).filter q).map g).map c := by
  rw [List.filter_map, List.map_map, List.map_map, List.filter_congr hp]
  exact List.map_congr_left fun l hl => hf l (List.mem_of_mem_filter hl)

end

/-- **The reader of the pipeline is this reader on information with plain fields.** -/
theorem readBdaOutput_plain (env : EnvConfig) (includeGeometry : Bool)
    (geometryOf : JsonValue → Geometry) (info : Option (List JsonValue)) (b : BdaResult)
    (hb : b.explainabilityInfo = info.map fun items => items.map (·.toItem geometryOf))
    (h : ∀ l ∈ leaves info, l.reached = true → l.Plain) :
    ∃ r, readBdaOutput env includeGeometry info = some r ∧
      SameLists (DocumentAi.readBdaOutput env (.bdaResult b)) r := by
  have hleaves : b.readLeaves = ((leaves info).filter Leaf.reached).map (toLeaf geometryOf) := by
    refine readLeaves_toItem geometryOf ?_
    rw [hb]
    cases info <;> rfl
  have hplain : ∀ l ∈ (leaves info).filter Leaf.reached, l.Plain := fun l hl =>
    h l (List.mem_of_mem_filter hl) (List.mem_filter.1 hl).2
  have hplace : ∀ l ∈ (leaves info).filter Leaf.reached, l.place (missingGeometryThreshold env) = _ :=
    fun l hl => (hplain l hl).place_eq geometryOf _
  rw [readBdaOutput_eq, DocumentAi.readBdaOutput_eq, hleaves]
  generalize (leaves info).filter Leaf.reached = ls at hplain hplace
  generalize missingGeometryThreshold env = t at hplace
  obtain ⟨r, hr⟩ := exists_addLeaves
    (fun l hl => by rw [hplace l hl]; rfl) includeGeometry {}
  have hc := collected_of_addLeaves hr
  refine ⟨r, hr, ?_, ?_, ?_, ?_, ?_⟩
  · rw [hc.confidences, confidences_addLeaves, List.nil_append, List.nil_append, List.map_map,
      List.map_map]
    refine List.map_congr_left fun l hl => ?_
    rw [(hplain l hl).confidence_eq geometryOf]
    rfl
  · rw [hc.values, values_addLeaves]
    exact values_toLeaf geometryOf hplain []
  · rw [hc.empty, empty_addLeaves, List.nil_append, List.nil_append]
    refine (filter_toLeaf geometryOf (q := DocumentAi.Leaf.isEmpty) (g := DocumentAi.Leaf.path) (c := id)
      (fun l hl => ?_) fun _ _ => rfl).trans (List.map_id _)
    rw [hplace l hl]
    cases (toLeaf geometryOf l).isEmpty <;> cases (toLeaf geometryOf l).missesGeometry t <;> rfl
  · rw [hc.missing, missingGeometry_addLeaves, List.nil_append, List.nil_append]
    refine (filter_toLeaf geometryOf (q := DocumentAi.Leaf.missesGeometry t) (g := DocumentAi.Leaf.path)
      (c := id) (fun l hl => ?_) fun _ _ => rfl).trans (List.map_id _)
    rw [hplace l hl]
    cases he : (toLeaf geometryOf l).isEmpty with
    | true => rw [DocumentAi.Leaf.missesGeometry, show (toLeaf geometryOf l).data.isEmpty = true from he]; rfl
    | false => cases (toLeaf geometryOf l).missesGeometry t <;> rfl
  · rw [hc.scored, scores_addLeaves, List.nil_append, List.nil_append]
    refine filter_toLeaf geometryOf (fun l hl => ?_) fun l hl => (hplain l hl).confidence_eq geometryOf
    rw [hplace l hl, DocumentAi.Leaf.scores]
    cases (toLeaf geometryOf l).isEmpty <;> cases (toLeaf geometryOf l).missesGeometry t <;> rfl

end DocumentAi.Explainability
