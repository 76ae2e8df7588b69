import DocumentAi.Utils.Textract

/-!
# The page of a geometry (`utils/textract.py:83-172`)

The index numbers a block's page from one (`Page`, absent or counted from zero, plus one); the
fallback leaves the default of `_build_geometry_entry`, page one.

| here | meaning |
| --- | --- |
| `Block.pageNumber` | the page of a block as the index has it |
| `exactBlock`       | the block whose entry stands under a text in the index |
| `fallbackBlock`    | the block that the cleaned text finds |
| `foundBlock`       | the block that the lookup answers with |
| `NamesPage`        | the answer is the box of that block on the page of that block |
-/

namespace DocumentAi

def Block.pageNumber (b : Block) : Nat := b.page.getD 0 + 1

/-- The block has a text and a box, and the text is `text`. -/
def Block.isIndexed (text : String) (b : Block) : Bool :=
  truthy b.text == some text && b.geometry.boundingBox.isSome

def exactBlock (blocks : List Block) (text : String) : Option Block :=
  ((blocks.filter Block.isLine).find? (Block.isIndexed text)).or
    ((blocks.filter Block.isWord).find? (Block.isIndexed text))

def fallbackBlock (libs : Libraries) (blocks : List Block) (text : String) : Option Block :=
  if text = "" ∨ cleanText libs text = [] then none
  else (shortestMatch libs (cleanText libs text) (blocks.filter Block.isWord)).filter
    fun b => b.geometry.boundingBox.isSome

def foundBlock (libs : Libraries) (blocks : List Block) (text : String) : Option Block :=
  (exactBlock blocks text).or (fallbackBlock libs blocks text)

/-- The lookup in the blocks of one document. -/
def lookupGeometry (libs : Libraries) (blocks : List Block) (text : String) : Option Geometry :=
  findGeometryWithFallback libs text (buildBlockGeometryIndex blocks) (blocks.filter Block.isWord)

def NamesPage (libs : Libraries) (blocks : List Block) (text : String) : Prop :=
  ∀ g, lookupGeometry libs blocks text = some g → ∃ b box, foundBlock libs blocks text = some b ∧
    b.geometry.boundingBox = some box ∧
    g = [buildGeometryEntry box b.geometry.polygon b.pageNumber]

/-! ## The index -/

/-- The entry of a block in the index. -/
def Block.indexEntry (b : Block) : Option Geometry :=
  b.geometry.boundingBox.map fun box => [buildGeometryEntry box b.geometry.polygon b.pageNumber]

theorem lookup_concat {index : List (String × Geometry)} {text t : String} {g : Geometry} :
    (index ++ [(text, g)]).lookup t = (index.lookup t).or (if t = text then some g else none) := by
  rw [List.lookup_append, List.lookup_cons, List.lookup_nil]
  by_cases ht : t = text
  · rw [if_pos ht, beq_iff_eq.2 ht]
  · rw [if_neg ht, beq_eq_false_iff_ne.2 ht]

/-- One block more: it counts when no block before it has the text. -/
theorem lookup_indexBlocks_singleton (index : List (String × Geometry)) (b : Block) (t : String) :
    (indexBlocks index [b]).lookup t =
      (index.lookup t).or (if b.isIndexed t then b.indexEntry else none) := by
  simp only [indexBlocks, List.foldl_cons, List.foldl_nil]
  cases htext : truthy b.text with
  | none =>
    have hnot : b.isIndexed t = false := by simp [Block.isIndexed, htext]
    simp [hnot]
  | some text =>
    cases hbox : b.geometry.boundingBox with
    | none =>
      have hnot : b.isIndexed t = false := by simp [Block.isIndexed, hbox]
      simp [hnot]
    | some box =>
      have hindexed : b.isIndexed t = true ↔ t = text := by
        rw [Block.isIndexed, htext, hbox, Option.isSome_some, Bool.and_true, beq_iff_eq,
          Option.some_inj]
        exact eq_comm
      have hentry : b.indexEntry =
          some [buildGeometryEntry box b.geometry.polygon (b.page.getD 0 + 1)] := by
        rw [Block.indexEntry, hbox]
        rfl
      simp only [hindexed, hentry]
      split
      next hknown =>
        by_cases ht : t = text
        · obtain ⟨g, hg⟩ := Option.isSome_iff_exists.1 hknown
          rw [ht, hg]
          rfl
        · rw [if_neg ht, Option.or_none]
      next => exact lookup_concat

theorem lookup_indexBlocks (index : List (String × Geometry)) (blocks : List Block) (t : String) :
    (indexBlocks index blocks).lookup t =
      (index.lookup t).or ((blocks.find? (Block.isIndexed t)).bind Block.indexEntry) := by
  induction blocks generalizing index with
  | nil => exact (Option.or_none).symm
  | cons b blocks ih =>
    have hstep : indexBlocks index (b :: blocks) = indexBlocks (indexBlocks index [b]) blocks := rfl
    rw [hstep, ih, lookup_indexBlocks_singleton, Option.or_assoc, List.find?_cons]
    cases hb : b.isIndexed t with
    | false => rfl
    | true =>
      have hbox : b.geometry.boundingBox.isSome = true := (Bool.and_eq_true_iff.1 hb).2
      obtain ⟨box, hbox⟩ := Option.isSome_iff_exists.1 hbox
      have hentry : b.indexEntry.isSome = true := by simp [Block.indexEntry, hbox]
      obtain ⟨g, hg⟩ := Option.isSome_iff_exists.1 hentry
      simp [hg]

theorem lookup_buildBlockGeometryIndex (blocks : List Block) (t : String) :
    (buildBlockGeometryIndex blocks).lookup t = (exactBlock blocks t).bind Block.indexEntry := by
  rw [buildBlockGeometryIndex, lookup_indexBlocks, lookup_indexBlocks, List.lookup_nil,
    Option.none_or, exactBlock]
  cases hline : (blocks.filter Block.isLine).find? (Block.isIndexed t) with
  | none => rfl
  | some b =>
    have hb := List.find?_some hline
    obtain ⟨box, hbox⟩ := Option.isSome_iff_exists.1 (Bool.and_eq_true_iff.1 hb).2
    simp [Block.indexEntry, hbox]

theorem isIndexed_exactBlock {blocks : List Block} {t : String} {b : Block}
    (h : exactBlock blocks t = some b) : b.isIndexed t = true := by
  rcases Option.or_eq_some_iff.1 h with hline | ⟨-, hword⟩
  · exact List.find?_some hline
  · exact List.find?_some hword

/-! ## The two paths -/

section
variable {libs : Libraries} {blocks : List Block} {text : String}

variable (libs) in
theorem lookupGeometry_of_exact {b : Block} (h : exactBlock blocks text = some b) :
    ∃ box, b.geometry.boundingBox = some box ∧
      lookupGeometry libs blocks text =
        some [buildGeometryEntry box b.geometry.polygon b.pageNumber] := by
  obtain ⟨box, hbox⟩ :=
    Option.isSome_iff_exists.1 (Bool.and_eq_true_iff.1 (isIndexed_exactBlock h)).2
  have hlook : (buildBlockGeometryIndex blocks).lookup text =
      some [buildGeometryEntry box b.geometry.polygon b.pageNumber] := by
    rw [lookup_buildBlockGeometryIndex, h, Option.bind_some, Block.indexEntry, hbox]
    rfl
  refine ⟨box, hbox, ?_⟩
  rw [lookupGeometry, findGeometryWithFallback, hlook]

variable (libs) in
theorem lookupGeometry_of_fallback (h : exactBlock blocks text = none) :
    lookupGeometry libs blocks text = (fallbackBlock libs blocks text).bind fun b =>
      b.geometry.boundingBox.map fun box => [buildGeometryEntry box b.geometry.polygon] := by
  have hlook : (buildBlockGeometryIndex blocks).lookup text = none := by
    rw [lookup_buildBlockGeometryIndex, h, Option.bind_none]
  rw [lookupGeometry, findGeometryWithFallback, hlook, fallbackBlock]
  dsimp only
  split
  · rfl
  · cases shortestMatch libs (cleanText libs text) (blocks.filter Block.isWord) with
    | none => rfl
    | some b =>
      rw [Option.bind_some, Option.filter_some]
      cases hbox : b.geometry.boundingBox with
      | none => simp
      | some box => simp [hbox]

theorem boundingBox_fallbackBlock {b : Block} (h : fallbackBlock libs blocks text = some b) :
    ∃ box, b.geometry.boundingBox = some box := by
  rw [fallbackBlock] at h
  split at h
  · cases h
  · exact Option.isSome_iff_exists.1 (Option.filter_eq_some_iff.1 h).2

/-- **The answer names the page of its block exactly when the text stands in the index, or the block
that the cleaned text finds is on the first page.** -/
theorem namesPage_iff (libs : Libraries) (blocks : List Block) (text : String) :
    NamesPage libs blocks text ↔ (exactBlock blocks text).isSome = true ∨
      ∀ b, fallbackBlock libs blocks text = some b → b.page.getD 0 = 0 := by
  cases hexact : exactBlock blocks text with
  | some b =>
    refine iff_of_true ?_ (.inl rfl)
    obtain ⟨box, hbox, hlook⟩ := lookupGeometry_of_exact libs hexact
    intro g hg
    rw [hlook] at hg
    cases hg
    exact ⟨b, box, by rw [foundBlock, hexact]; rfl, hbox, rfl⟩
  | none =>
    have hlook := lookupGeometry_of_fallback libs hexact
    have hfound : foundBlock libs blocks text = fallbackBlock libs blocks text := by
      rw [foundBlock, hexact]
      rfl
    rw [Option.isSome_none, NamesPage, hlook, hfound]
    constructor
    · intro h
      refine .inr fun b hb => ?_
      obtain ⟨box, hbox⟩ := boundingBox_fallbackBlock hb
      obtain ⟨b', box', hb', hbox', heq⟩ := h [buildGeometryEntry box b.geometry.polygon] (by
        rw [hb, Option.bind_some, hbox]
        rfl)
      rw [hb] at hb'
      cases hb'
      have hpage := congrArg (List.map GeometryEntry.page) heq
      simp only [buildGeometryEntry, Block.pageNumber, List.map_cons, List.map_nil] at hpage
      have hone : 1 = b.page.getD 0 + 1 := (List.cons.inj hpage).1
      omega
    · rintro (hfalse | hfirst) g hg
      · cases hfalse
      · obtain ⟨b, hb, hg⟩ := Option.bind_eq_some_iff.1 hg
        obtain ⟨box, hbox, rfl⟩ := Option.map_eq_some_iff.1 hg
        refine ⟨b, box, hb, hbox, ?_⟩
        rw [Block.pageNumber, hfirst b hb]

end

/-- The second page has the word `smith,`. -/
def smithOnSecondPage : List Block :=
  [{ blockType := "WORD"
     text := some "smith,"
     page := some 1
     geometry := { boundingBox := some ⟨0, 0, 10, 10⟩ } }]

/-- The answer for `smith` is the word's box on the first page. -/
theorem not_namesPage_smith : ¬ ∀ libs blocks text, NamesPage libs blocks text := by
  intro h
  have hlook : lookupGeometry { lower := id } smithOnSecondPage "smith" =
      some [{ boundingBox := ⟨0, 0, 10, 10⟩, page := 1 }] := by decide +kernel
  obtain ⟨b, box, hfound, -, heq⟩ := h { lower := id } smithOnSecondPage "smith" _ hlook
  have hblock : foundBlock { lower := id } smithOnSecondPage "smith" = smithOnSecondPage.head? := by
    decide +kernel
  cases hblock.symm.trans hfound
  have hpage : [1] = [2] := congrArg (List.map GeometryEntry.page) heq
  exact absurd hpage (by decide)

end DocumentAi
