import Mathlib.Data.List.Perm.Basic
import DocumentAi.Extractors.OcrMapping

/-!
# Does the layout text keep every line?

`layout_ocr_blocks_to_text` (`extractors/ocr_mapping.py:99-126`) walks the child ids of the LAYOUT
blocks, `ocr_blocks_to_text` the blocks themselves.

| here | meaning |
| --- | --- |
| `OcrBlocks`      | a list of Textract blocks: each has an id of its own |
| `layoutLines`    | the blocks whose text the source appends to `lines`, in that order |
| `KeepsEveryLine` | each LINE with text comes once, the lines of a layout in the order of its children |
-/

namespace DocumentAi

structure OcrBlocks where
  blocks : List Block
  named  : ∀ b ∈ blocks, (truthy b.id).isSome = true
  nodup  : (blocks.map Block.id).Nodup

def Block.hasLineText (b : Block) : Bool := b.lineText.isSome

def childIds (layout : Block) : List String :=
  (layout.relationships.filter fun rel => rel.type == "CHILD").flatMap (·.ids)

namespace OcrBlocks

variable (P : OcrBlocks)

def layouts : List Block := P.blocks.filter Block.isLayout

def lines : List Block := P.blocks.filter Block.hasLineText

/-- The line that a child id names. -/
def lineById (id : String) : Option Block := (blockById P.blocks id).filter Block.hasLineText

def linesOf (layout : Block) : List Block := (childIds layout).filterMap P.lineById

def layoutLines : List Block := if P.layouts = [] then P.lines else P.layouts.flatMap P.linesOf

/-- The ids that the layout blocks refer to. -/
def references : List String := P.layouts.flatMap childIds

structure KeepsEveryLine : Prop where
  text  : layoutOcrBlocksToText P.blocks =
    String.intercalate "\n" (P.layoutLines.filterMap Block.lineText)
  once  : P.layoutLines.Perm P.lines
  order : ∀ layout ∈ P.layouts, (P.linesOf layout).Sublist P.layoutLines

/-! ## What the text is made of -/

theorem filterMap_lineText (bs : List Block) :
    (bs.filter Block.hasLineText).filterMap Block.lineText = bs.filterMap Block.lineText := by
  rw [List.filterMap_filter]
  congr 1
  funext b
  unfold Block.hasLineText
  cases b.lineText with
  | none => rfl
  | some text => rfl

theorem bind_lineText (b : Option Block) :
    (b.filter Block.hasLineText).bind Block.lineText = b.bind Block.lineText := by
  cases b with
  | none => rfl
  | some b =>
    rw [Option.filter_some]
    split
    · rfl
    · next h =>
      have hnone : b.lineText = none := by simpa [Block.hasLineText] using h
      rw [Option.bind_none, Option.bind_some, hnone]

theorem filterMap_linesOf (layout : Block) :
    (P.linesOf layout).filterMap Block.lineText =
      (layout.relationships.filter fun rel => rel.type == "CHILD").flatMap fun rel =>
        rel.ids.filterMap fun id => (blockById P.blocks id).bind Block.lineText := by
  unfold linesOf childIds lineById
  rw [List.filterMap_filterMap, List.filterMap_flatMap]
  simp only [bind_lineText]

theorem layoutText_eq :
    layoutOcrBlocksToText P.blocks =
      String.intercalate "\n" (P.layoutLines.filterMap Block.lineText) := by
  by_cases hnil : P.layouts = []
  · rw [layoutLines, if_pos hnil, lines, filterMap_lineText, layoutOcrBlocksToText]
    exact if_pos hnil
  · rw [layoutLines, if_neg hnil, List.filterMap_flatMap, layoutOcrBlocksToText]
    simp only [filterMap_linesOf]
    exact if_neg hnil

theorem sublist_flatMap {α β : Type} (f : α → List β) :
    ∀ {xs : List α} {x : α}, x ∈ xs → (f x).Sublist (xs.flatMap f)
  | y :: ys, x, h => by
    rw [List.flatMap_cons]
    rcases List.mem_cons.1 h with rfl | h
    · exact List.sublist_append_left _ _
    · exact (sublist_flatMap f h).trans (List.sublist_append_right _ _)

theorem linesOf_sublist {layout : Block} (h : layout ∈ P.layouts) :
    (P.linesOf layout).Sublist P.layoutLines := by
  rw [layoutLines, if_neg (List.ne_nil_of_mem h)]
  exact sublist_flatMap P.linesOf h

/-! ## Which lines come, and how often -/

/-- Ids are distinct, so an id names the block that has it. -/
theorem blockById_eq_some {id : String} {b : Block} :
    blockById P.blocks id = some b ↔ b ∈ P.blocks ∧ truthy b.id = some id := by
  constructor
  · intro h
    have hid := List.find?_some h
    exact ⟨List.mem_reverse.1 (List.mem_of_find?_eq_some h), by simpa using hid⟩
  · rintro ⟨hb, hid⟩
    have htruthy : ∀ {o : Option String}, truthy o = some id → o = some id := by
      intro o ho
      exact (Option.filter_eq_some_iff.1 ho).1
    cases hfind : blockById P.blocks id with
    | none =>
      have hnone := List.find?_eq_none.1 hfind b (List.mem_reverse.2 hb)
      simp [hid] at hnone
    | some b' =>
      have hb' : b' ∈ P.blocks := List.mem_reverse.1 (List.mem_of_find?_eq_some hfind)
      have hid' : truthy b'.id = some id := by simpa using List.find?_some hfind
      have hsame : b'.id = b.id := (htruthy hid').trans (htruthy hid).symm
      rw [List.inj_on_of_nodup_map P.nodup hb' hb hsame]

theorem lineById_eq_some {id : String} {b : Block} :
    P.lineById id = some b ↔ b ∈ P.lines ∧ truthy b.id = some id := by
  rw [lineById, Option.filter_eq_some_iff, blockById_eq_some, lines, List.mem_filter]
  tauto

theorem nodup_lines : P.lines.Nodup := (List.Nodup.of_map _ P.nodup).filter _

/-- Values found by distinct elements of a list are that list up to order when each is found once. -/
theorem filterMap_perm_iff {α β : Type} [DecidableEq β] {f : α → Option β} {ys : List β}
    (hys : ys.Nodup) (hf : ∀ a b, f a = some b → b ∈ ys) (xs : List α) :
    (xs.filterMap f).Perm ys ↔ ∀ b ∈ ys, xs.countP (fun a => f a == some b) = 1 := by
  have hcount : ∀ b, (xs.filterMap f).count b = xs.countP fun a => f a == some b := fun b => by
    induction xs with
    | nil => rfl
    | cons a xs ih =>
      rw [List.countP_cons, List.filterMap_cons]
      cases hfa : f a with
      | none => simpa using ih
      | some b' =>
        rw [List.count_cons, ih]
        simp
  rw [List.perm_iff_count]
  constructor
  · intro h b hb
    rw [← hcount, h b, List.count_eq_one_of_mem hys hb]
  · intro h b
    rw [hcount]
    by_cases hb : b ∈ ys
    · rw [h b hb, List.count_eq_one_of_mem hys hb]
    · rw [List.count_eq_zero_of_not_mem hb, List.countP_eq_zero]
      intro a _ hab
      exact hb (hf a b (by simpa using hab))

theorem flatMap_linesOf : P.layouts.flatMap P.linesOf = P.references.filterMap P.lineById := by
  rw [references, List.filterMap_flatMap]
  rfl

theorem countP_lineById {b : Block} (hb : b ∈ P.lines) :
    P.references.countP (fun id => P.lineById id == some b) =
      P.references.countP fun id => truthy b.id == some id := by
  congr 1
  funext id
  rw [Bool.eq_iff_iff, beq_iff_eq, beq_iff_eq, lineById_eq_some]
  exact ⟨fun h => h.2, fun h => ⟨hb, h⟩⟩

/-- **The layout text keeps every line once exactly when there is no LAYOUT block, or the LAYOUT
blocks refer to each line once.** -/
theorem keepsEveryLine_iff : P.KeepsEveryLine ↔
    P.layouts = [] ∨ ∀ b ∈ P.lines, P.references.countP (fun id => truthy b.id == some id) = 1 := by
  have honce : P.layoutLines.Perm P.lines ↔
      P.layouts = [] ∨ ∀ b ∈ P.lines, P.references.countP (fun id => truthy b.id == some id) = 1 := by
    rw [layoutLines]
    split
    next hnil => exact ⟨fun _ => .inl hnil, fun _ => List.Perm.refl _⟩
    next hlayouts =>
      rw [flatMap_linesOf, filterMap_perm_iff P.nodup_lines
        fun id b h => (P.lineById_eq_some.1 h).1]
      constructor
      · intro h
        exact .inr fun b hb => (P.countP_lineById hb).symm.trans (h b hb)
      · rintro (hnil | h) b hb
        · exact absurd hnil hlayouts
        · exact (P.countP_lineById hb).trans (h b hb)
  exact ⟨fun h => honce.1 h.once, fun h => ⟨P.layoutText_eq, honce.2 h, fun _ => P.linesOf_sublist⟩⟩

/-! ## A line outside the layout -/

/-- A title that is in a layout block and an amount that is in none. -/
def receipt : OcrBlocks where
  blocks :=
    [{ blockType := "LAYOUT_TITLE", id := some "t", relationships := [⟨"CHILD", ["a"]⟩] },
     { blockType := "LINE", id := some "a", text := some "Receipt" },
     { blockType := "LINE", id := some "b", text := some "Total 12" }]
  named := by decide
  nodup := by decide

theorem layoutText_loses_line : ¬ ∀ P : OcrBlocks, P.KeepsEveryLine := by
  intro hall
  have hlen := (hall receipt).once.length_eq
  revert hlen
  decide

end OcrBlocks

end DocumentAi
