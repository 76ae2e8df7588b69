import DocumentAi.Lib.Chars
import DocumentAi.Lib.Nest
import DocumentAi.Classifiers.ApiResponse
import DocumentAi.Readers.Bda

/-!
# Nested fields (`utils/response_builder.py`)

| here | there |
| --- | --- |
| `nestFields`      | `nest_fields` (`:14-23`) |
| `fieldParts`      | `field_name.split(".")` |
| `FieldEntry.node` | the dictionary of one entry (`classifiers/api_response.py:105-115`) |
| `NestsLosslessly` | in every order one result, which holds each entry at its path and nothing else |

Each entry is a dictionary of its own, so an entry whose path goes on from the path of another is
put inside that one, or that one takes its place.
-/

namespace DocumentAi

inductive FieldValue where
  | null
  | number (q : Rat)
  | text (s : String)
  | geometry (g : Geometry)
deriving DecidableEq

abbrev Nested : Type := Nest.Node String FieldValue

/-- The members of an entry; no member is a dictionary. -/
def FieldEntry.member (e : FieldEntry) : String → Option FieldValue
  | "confidence"  => some (.number e.confidence)
  | "value"       => some ((e.value.map .text).getD .null)
  | "displayName" => e.displayName.map .text
  | "geometry"    => e.geometry.map .geometry
  | "fieldType"   => e.fieldType.map .text
  | _             => none

def FieldEntry.node (e : FieldEntry) : Nested := .dict fun k => (e.member k).map .atom

def fieldParts (name : String) : List String := (Chars.splitOn '.' name.toList).map String.ofList

def nestFields (flatFields : List (String × FieldEntry)) : Except Nest.Refused Nested :=
  flatFields.foldlM (fun nested f => Nest.insertAt f.2.node (fieldParts f.1) nested) .empty

/-- The entries under their paths. -/
def byPath (flatFields : List (String × FieldEntry)) : List (List String × Nested) :=
  flatFields.map fun f => (fieldParts f.1, f.2.node)

def NestsLosslessly (flatFields : List (String × FieldEntry)) : Prop :=
  ∃ nested, Nest.Holds (byPath flatFields) nested ∧
    ∀ order, order.Perm flatFields → nestFields order = .ok nested

/-- No name is a dotted prefix of another. -/
def NoDottedPrefix (names : List String) : Prop :=
  ∀ a ∈ names, ∀ b ∈ names, fieldParts a <+: fieldParts b → a = b

/-! ## Names and entries -/

theorem fieldParts_ne_nil (name : String) : fieldParts name ≠ [] := by
  intro h
  exact Chars.splitOn_ne_nil _ _ (List.map_eq_nil_iff.1 h)

theorem fieldParts_injective {a b : String} (h : fieldParts a = fieldParts b) : a = b := by
  have hsplit : Chars.splitOn '.' a.toList = Chars.splitOn '.' b.toList :=
    List.map_injective_iff.2 (fun _ _ => String.ofList_injective) h
  exact String.toList_injective (Chars.splitOn_injective '.' hsplit)

/-- No entry lies inside another. -/
theorem FieldEntry.get_node {e e' : FieldEntry} {q : List String} (hq : q ≠ []) :
    e.node.get q ≠ some e'.node := by
  cases q with
  | nil => exact absurd rfl hq
  | cons k q =>
    intro h
    rw [FieldEntry.node, Nest.Node.get_cons_dict] at h
    cases hk : e.member k with
    | none =>
      rw [hk] at h
      cases h
    | some v =>
      rw [hk] at h
      cases q with
      | nil => cases h
      | cons k' q => cases h

theorem insertAll_byPath (flatFields : List (String × FieldEntry)) :
    Nest.insertAll (byPath flatFields) .empty = nestFields flatFields := by
  rw [Nest.insertAll, byPath, List.foldlM_map]
  rfl

theorem prefixFree_byPath {flatFields : List (String × FieldEntry)}
    (hnodup : (flatFields.map Prod.fst).Nodup) (h : NoDottedPrefix (flatFields.map Prod.fst)) :
    Nest.PrefixFree (byPath flatFields) := by
  constructor
  · intro e he
    obtain ⟨f, -, rfl⟩ := List.mem_map.1 he
    exact fieldParts_ne_nil f.1
  · have hne : flatFields.Pairwise fun f g => f.1 ≠ g.1 := List.pairwise_map.1 hnodup
    rw [byPath, List.pairwise_map]
    refine hne.imp_of_mem fun hf hg hne => ⟨fun hpre => hne ?_, fun hpre => hne ?_⟩
    · exact h _ (List.mem_map_of_mem hf) _ (List.mem_map_of_mem hg) hpre
    · exact (h _ (List.mem_map_of_mem hg) _ (List.mem_map_of_mem hf) hpre).symm

theorem nestsLosslessly_of_noDottedPrefix {flatFields : List (String × FieldEntry)}
    (hnodup : (flatFields.map Prod.fst).Nodup) (h : NoDottedPrefix (flatFields.map Prod.fst)) :
    NestsLosslessly flatFields := by
  obtain ⟨nested, hholds, horder⟩ := Nest.lossless_of_prefixFree (prefixFree_byPath hnodup h)
  refine ⟨nested, hholds, fun order hp => ?_⟩
  rw [← insertAll_byPath]
  exact horder _ (hp.map _)

theorem NestsLosslessly.noDottedPrefix {flatFields : List (String × FieldEntry)}
    (h : NestsLosslessly flatFields) : NoDottedPrefix (flatFields.map Prod.fst) := by
  intro a ha b hb hpre
  obtain ⟨nested, hholds, -⟩ := h
  obtain ⟨f, hf, rfl⟩ := List.mem_map.1 ha
  obtain ⟨g, hg, rfl⟩ := List.mem_map.1 hb
  obtain ⟨q, hq⟩ := hpre
  have hinside : f.2.node.get q = some g.2.node :=
    hholds.inside (List.mem_map_of_mem hf) (List.mem_map_of_mem hg) hq.symm
  by_cases hnil : q = []
  · rw [hnil, List.append_nil] at hq
    exact fieldParts_injective hq
  · exact absurd hinside (FieldEntry.get_node hnil)

theorem nodup_buildFieldMap (env : EnvConfig) (result : ReaderResult)
    (includeExtractedData includeBoundingBox : Bool) (documentType : Option String) :
    ((buildFieldMap env result includeExtractedData includeBoundingBox documentType).map
      Prod.fst).Nodup :=
  Dict.nodup_keys_assignAll _

/-- **The fields of a reader are nested without loss exactly when no field name is a dotted prefix
of another.** -/
theorem nestFields_lossless_iff (env : EnvConfig) (result : ReaderResult)
    (includeExtractedData includeBoundingBox : Bool) (documentType : Option String) :
    let flatFields := buildFieldMap env result includeExtractedData includeBoundingBox documentType
    NestsLosslessly flatFields ↔ NoDottedPrefix (flatFields.map Prod.fst) :=
  ⟨NestsLosslessly.noDottedPrefix, nestsLosslessly_of_noDottedPrefix (nodup_buildFieldMap ..)⟩

/-! ## A field and a group of one name -/

/-- Two items of the explainability information: a field `name`, and a group `name` with a field
`first`. -/
def namedTwice : Body :=
  let field : FieldNode := .field { confidence := some (9 / 10), value := some (some "Ada") }
  let items : List FieldNode :=
    [.group (.cons "name" field .nil), .group (.cons "name" (.group (.cons "first" field .nil)) .nil)]
  .bdaResult { matchedBlueprintName := some "license", explainabilityInfo := some items }

theorem nestFields_loses : ¬ ∀ (env : EnvConfig) (body : Body)
    (includeExtractedData includeBoundingBox : Bool) (documentType : Option String),
    NestsLosslessly (buildFieldMap env (readBdaOutput env body) includeExtractedData
      includeBoundingBox documentType) := by
  intro hall
  have hnames : (buildFieldMap { documentaiInputLocation := none }
      (readBdaOutput { documentaiInputLocation := none } namedTwice) true false none).map Prod.fst =
        ["name", "name.first"] := by decide +kernel
  have hprefix := (hall { documentaiInputLocation := none } namedTwice true false none).noDottedPrefix
  rw [hnames] at hprefix
  have hname := hprefix "name" (by decide) "name.first" (by decide) (by decide +kernel)
  revert hname
  decide

end DocumentAi
