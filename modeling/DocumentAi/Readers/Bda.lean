import DocumentAi.Lib.Dict
import DocumentAi.Config.Env

/-!
# The BDA reader: fields out of nested explainability information

| here | there |
| --- | --- |
| `missingGeometryThreshold` | `_get_missing_geometry_threshold` (`readers/bda.py:12-20`) |
| `addField`                 | one field of `_extract_fields_recursive` with `_process_single_field` (`readers/bda.py:23-33`, `:54-75`) |
| `extractFieldsRecursive`   | `_extract_fields_recursive` (`readers/bda.py:36-86`) |
| `readItem`, `readBdaOutput` | `read_bda_output` (`readers/bda.py:89-130`) |
| `BdaResult.leaves`         | every field of the structure, the ones in lists too |
-/

namespace DocumentAi

/-- `SystemDefaults.MISSING_GEOMETRY_CONFIDENCE_THRESHOLD`, when the flag is on. -/
def missingGeometryThreshold (env : EnvConfig) : Rat :=
  if env.flags.includeMissingGeoWithMissingFields then 1 / 4 else 0

/-- `len(str(value)) == 0`; a value that is null has the text `None`. -/
def FieldData.isEmpty (d : FieldData) : Bool :=
  match d.value with
  | none            => true
  | some none       => false
  | some (some text) => text == ""

def ReaderResult.addField (threshold : Rat) (name : String) (d : FieldData) (acc : ReaderResult) :
    ReaderResult :=
  let confidence := d.confidence.getD 0
  let missingGeometry := !d.isEmpty && d.geometry.isNone && decide (confidence < threshold)
  { fieldConfidenceMapList := acc.fieldConfidenceMapList ++ [(name, confidence)]
    fieldValues := Dict.assign name d.value.join acc.fieldValues
    fieldGeometry := match d.geometry with
      | some g => Dict.assign name g acc.fieldGeometry
      | none   => acc.fieldGeometry
    emptyFields := acc.emptyFields ++ if d.isEmpty then [name] else []
    fieldsMissingGeometry := acc.fieldsMissingGeometry ++ if missingGeometry then [name] else []
    confidenceScores := acc.confidenceScores ++
      if d.isEmpty || missingGeometry then [] else [confidence] }

/-- `f"{parent_key}.{field_name}" if parent_key else field_name`. -/
def fullFieldName (parent name : String) : String :=
  if parent = "" then name else parent ++ "." ++ name

mutual

def extractFieldsRecursive (threshold : Rat) (parent : String) :
    FieldNodes → ReaderResult → ReaderResult
  | .nil, acc                 => acc
  | .cons name node rest, acc =>
    extractFieldsRecursive threshold parent rest
      (extractNode threshold (fullFieldName parent name) node acc)

def extractNode (threshold : Rat) (fullName : String) : FieldNode → ReaderResult → ReaderResult
  | .field d, acc        => acc.addField threshold fullName d
  | .group members, acc  => extractFieldsRecursive threshold fullName members acc
  -- `if not isinstance(field_data, dict): continue`
  | .list _, acc         => acc
  | .other, acc          => acc

end

/-- One item of the explainability information. -/
def readItem (threshold : Rat) : FieldNode → ReaderResult → ReaderResult
  | .group members, acc => extractFieldsRecursive threshold "" members acc
  | _, acc              => acc

def readBdaOutput (env : EnvConfig) : Body → ReaderResult
  | .bdaResult b => (b.explainabilityInfo.getD []).foldl (fun acc item =>
      readItem (missingGeometryThreshold env) item acc) {}
  | _            => {}

/-! ## The leaves of the explainability information -/

/-- A field of the explainability information under its dotted path. -/
structure Leaf where
  path      : String
  data      : FieldData
  /-- Reached through members of objects alone. -/
  byMembers : Bool

mutual

def FieldNodes.leaves (parent : String) (byMembers : Bool) : FieldNodes → List Leaf
  | .nil                 => []
  | .cons name node rest =>
    node.leaves (fullFieldName parent name) byMembers ++ rest.leaves parent byMembers

def FieldNode.leaves (path : String) (byMembers : Bool) : FieldNode → List Leaf
  | .field d       => [⟨path, d, byMembers⟩]
  | .group members => members.leaves path byMembers
  | .list items    => items.leaves path
  | .other         => []

def FieldItems.leaves (path : String) : FieldItems → List Leaf
  | .nil            => []
  | .cons node rest => node.leaves path false ++ rest.leaves path

end

/-- An item is no member: only the members of its object are. -/
def FieldNode.itemLeaves : FieldNode → List Leaf
  | .group members => members.leaves "" true
  | node           => node.leaves "" false

def BdaResult.leaves (b : BdaResult) : List Leaf :=
  (b.explainabilityInfo.getD []).flatMap FieldNode.itemLeaves

/-- The leaves the reader comes to. -/
def BdaResult.readLeaves (b : BdaResult) : List Leaf := b.leaves.filter (·.byMembers)

def addLeaves (threshold : Rat) (leaves : List Leaf) (acc : ReaderResult) : ReaderResult :=
  leaves.foldl (fun acc l => acc.addField threshold l.path l.data) acc

theorem addLeaves_append (t : Rat) (ls ms : List Leaf) (r : ReaderResult) :
    addLeaves t (ls ++ ms) r = addLeaves t ms (addLeaves t ls r) := List.foldl_append

mutual

theorem leaves_outside : ∀ (fs : FieldNodes) (parent : String),
    (fs.leaves parent false).filter (·.byMembers) = []
  | .nil, _                 => rfl
  | .cons name node rest, p => by
    rw [FieldNodes.leaves, List.filter_append, nodeLeaves_outside node, leaves_outside rest]
    rfl

theorem nodeLeaves_outside : ∀ (node : FieldNode) (path : String),
    (node.leaves path false).filter (·.byMembers) = []
  | .field _, _       => rfl
  | .group members, p => by
    rw [FieldNode.leaves]
    exact leaves_outside members p
  | .list items, p    => by
    rw [FieldNode.leaves]
    exact itemsLeaves_outside items p
  | .other, _         => rfl

theorem itemsLeaves_outside : ∀ (items : FieldItems) (path : String),
    (items.leaves path).filter (·.byMembers) = []
  | .nil, _            => rfl
  | .cons node rest, p => by
    rw [FieldItems.leaves, List.filter_append, nodeLeaves_outside node, itemsLeaves_outside rest]
    rfl

end

mutual

theorem extractFieldsRecursive_eq (t : Rat) : ∀ (fs : FieldNodes) (parent : String)
    (r : ReaderResult), extractFieldsRecursive t parent fs r =
      addLeaves t ((fs.leaves parent true).filter (·.byMembers)) r
  | .nil, _, _                 => rfl
  | .cons name node rest, p, r => by
    rw [extractFieldsRecursive, FieldNodes.leaves, List.filter_append, addLeaves_append,
      extractNode_eq t node, extractFieldsRecursive_eq t rest]

theorem extractNode_eq (t : Rat) : ∀ (node : FieldNode) (path : String) (r : ReaderResult),
    extractNode t path node r = addLeaves t ((node.leaves path true).filter (·.byMembers)) r
  | .field _, _, _       => rfl
  | .group members, p, r => by
    rw [extractNode, FieldNode.leaves]
    exact extractFieldsRecursive_eq t members p r
  | .list items, p, _    => by
    rw [extractNode, FieldNode.leaves, itemsLeaves_outside items p]
    rfl
  | .other, _, _         => rfl

end

theorem readItem_eq (t : Rat) (node : FieldNode) (r : ReaderResult) :
    readItem t node r = addLeaves t (node.itemLeaves.filter (·.byMembers)) r := by
  cases node with
  | group members => exact extractFieldsRecursive_eq t members "" r
  | list items =>
    rw [FieldNode.itemLeaves, FieldNode.leaves, itemsLeaves_outside items ""]
    · rfl
    · exact fun members h => FieldNode.noConfusion h
  | _ => rfl

/-- The reader adds the leaves it comes to, one after the other. -/
theorem readBdaOutput_eq (env : EnvConfig) (b : BdaResult) : readBdaOutput env (.bdaResult b) =
    addLeaves (missingGeometryThreshold env) b.readLeaves {} := by
  have hfold : ∀ (items : List FieldNode) (r : ReaderResult),
      items.foldl (fun acc item => readItem (missingGeometryThreshold env) item acc) r =
        addLeaves (missingGeometryThreshold env)
          ((items.flatMap FieldNode.itemLeaves).filter (·.byMembers)) r := by
    intro items
    induction items with
    | nil => exact fun _ => rfl
    | cons item items ih =>
      intro r
      rw [List.foldl_cons, ih, readItem_eq, List.flatMap_cons, List.filter_append,
        addLeaves_append]
  exact hfold _ _

/-! ## The lists name fields that were found -/

/-- Empty fields and fields without geometry are among the fields. -/
structure ReaderResult.Flat (r : ReaderResult) : Prop where
  empty    : ∀ n ∈ r.emptyFields, n ∈ r.fieldConfidenceMapList.map Prod.fst
  geometry : ∀ n ∈ r.fieldsMissingGeometry, n ∈ r.fieldConfidenceMapList.map Prod.fst

theorem ReaderResult.Flat.addField {r : ReaderResult} (h : r.Flat) (t : Rat) (n : String)
    (d : FieldData) : (r.addField t n d).Flat := by
  have hold : ∀ m, m ∈ r.fieldConfidenceMapList.map Prod.fst →
      m ∈ (r.addField t n d).fieldConfidenceMapList.map Prod.fst := by
    intro m hm
    simp only [ReaderResult.addField, List.map_append]
    exact List.mem_append_left _ hm
  have hnew : n ∈ (r.addField t n d).fieldConfidenceMapList.map Prod.fst := by
    simp [ReaderResult.addField]
  have hlist : ∀ (b : Bool) (m : String), m ∈ (if b = true then [n] else []) →
      m ∈ (r.addField t n d).fieldConfidenceMapList.map Prod.fst := by
    intro b m hm
    cases b with
    | false => cases hm
    | true => exact List.mem_singleton.1 hm ▸ hnew
  constructor
  · intro m hm
    rcases List.mem_append.1 hm with hm | hm
    · exact hold m (h.empty m hm)
    · exact hlist _ m hm
  · intro m hm
    rcases List.mem_append.1 hm with hm | hm
    · exact hold m (h.geometry m hm)
    · exact hlist _ m hm

theorem flat_nil : ReaderResult.Flat {} := ⟨fun _ h => (by cases h), fun _ h => (by cases h)⟩

theorem ReaderResult.Flat.addLeaves {r : ReaderResult} (h : r.Flat) (t : Rat) (ls : List Leaf) :
    (addLeaves t ls r).Flat := by
  induction ls generalizing r with
  | nil => exact h
  | cons l ls ih => exact ih (h.addField t l.path l.data)

theorem flat_readBdaOutput (env : EnvConfig) (b : Body) : (readBdaOutput env b).Flat := by
  cases b with
  | bdaResult b =>
    rw [readBdaOutput_eq]
    exact flat_nil.addLeaves _ _
  | _ => exact flat_nil

end DocumentAi
