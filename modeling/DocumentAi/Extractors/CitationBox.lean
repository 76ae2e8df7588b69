import Mathlib.Algebra.Order.Field.Basic
import Mathlib.Data.Rat.Lemmas
import Mathlib.Algebra.Order.Ring.Rat
import Mathlib.Tactic.Linarith
import Mathlib.Tactic.Positivity
import DocumentAi.Extractors.OcrMapping

/-!
# Does the box of a citation cover its words?

The words of a line are compared without the punctuation at their ends, the words of the citation
with it. A word that ends in a comma is not found, and the box leaves it out when another word is.

| here | meaning |
| --- | --- |
| `LineRun`      | the citation is the text of consecutive words of a line on the page |
| `HasAllTokens` | a line of the page with every word of the citation; the first one is looked at |
| `IsMatched`    | a box that the function unites |
| `Reached`      | a box that the matched ones reach past on each side, or that the line holds when there are none |
| `LowerLaws`    | what is used of `str.lower` |

Main results: `confidence_mem_unit`, `bestLine_eq`, `citationBox_covers_iff`.
-/

namespace DocumentAi

/-! ## Confidences -/

theorem roundHalfEven_mem {n : Int} {d m : Nat} (hd : 0 < d) (h₀ : 0 ≤ n) (h₁ : n ≤ m * d) :
    0 ≤ roundHalfEven n d ∧ roundHalfEven n d ≤ m := by
  have hd' : (0 : Int) < d := by exact_mod_cast hd
  have hq : 0 ≤ n / d := Int.ediv_nonneg h₀ hd'.le
  have hr : 0 ≤ n % d := Int.emod_nonneg n hd'.ne'
  have hle : n / d ≤ m := Int.ediv_le_of_le_mul hd' h₁
  -- a quotient of `m` leaves no rest, so nothing is rounded up past it
  have hrest : n / d = m → n % d = 0 := by
    intro heq
    have hdiv := Int.mul_ediv_add_emod n d
    rw [heq, mul_comm] at hdiv
    omega
  have hlt : n % d ≠ 0 → n / d + 1 ≤ m := by
    intro hne
    have hne' : n / d ≠ m := fun heq => hne (hrest heq)
    omega
  unfold roundHalfEven
  dsimp only
  split
  · exact ⟨hq, hle⟩
  · split
    · exact ⟨by omega, hlt (by omega)⟩
    · split
      · exact ⟨hq, hle⟩
      · exact ⟨by omega, hlt (by omega)⟩

def Unit01 (x : Rat) : Prop := 0 ≤ x ∧ x ≤ 1

theorem unit01_roundTo {x : Rat} (digits : Nat) (h : Unit01 x) : Unit01 (roundTo digits x) := by
  have hden : (0 : Rat) < x.den := by exact_mod_cast x.den_pos
  have hnum : x.num ≤ x.den := by
    have hx := h.2
    rw [← Rat.num_div_den x, div_le_one hden] at hx
    exact_mod_cast hx
  have hpow : (0 : Int) < 10 ^ digits := by positivity
  obtain ⟨h₀, h₁⟩ := roundHalfEven_mem (n := x.num * 10 ^ digits) (m := 10 ^ digits) x.den_pos
    (mul_nonneg (Rat.num_nonneg.2 h.1) hpow.le) (by
      push_cast
      rw [mul_comm]
      exact mul_le_mul_of_nonneg_left hnum hpow.le)
  have hpos : (0 : Rat) < 10 ^ digits := by positivity
  unfold roundTo
  constructor
  · exact div_nonneg (by exact_mod_cast h₀) hpos.le
  · rw [div_le_one hpos]
    exact_mod_cast h₁

/-- The words' confidences are percentages. -/
def Percentages (blocks : List Block) : Prop :=
  ∀ b ∈ blocks, b.isWord = true → ∀ c, b.confidence = some c → 0 ≤ c ∧ c ≤ 100

theorem sum_mem {xs : List Rat} (h : ∀ x ∈ xs, 0 ≤ x ∧ x ≤ 100) :
    0 ≤ xs.sum ∧ xs.sum ≤ 100 * xs.length := by
  induction xs with
  | nil => simp
  | cons x xs ih =>
    obtain ⟨h₀, h₁⟩ := h x List.mem_cons_self
    obtain ⟨ih₀, ih₁⟩ := ih fun y hy => h y (List.mem_cons_of_mem _ hy)
    rw [List.sum_cons, List.length_cons]
    push_cast
    exact ⟨by linarith, by linarith⟩

theorem unit01_ratio (tokens found : List (List Char)) :
    Unit01 (((tokens.filter found.contains).length : Rat) / tokens.length) := by
  have hle : ((tokens.filter found.contains).length : Rat) ≤ tokens.length := by
    exact_mod_cast List.length_filter_le _ _
  constructor
  · positivity
  · rcases Nat.eq_zero_or_pos tokens.length with h0 | hpos
    · rw [h0, Nat.cast_zero, div_zero]
      exact zero_le_one
    · rw [div_le_one (by exact_mod_cast hpos)]
      exact hle

/-- One round of the loop of `bestLine`. -/
def betterLine (libs : Libraries) (tokens : List (List Char)) (best : Rat × Option Block)
    (b : Block) : Rat × Option Block :=
  match b.lineText with
  | none      => best
  | some text =>
    let matched := tokens.filter (tokenSet libs text).contains
    let ratio : Rat := matched.length / tokens.length
    if best.1 < ratio then (ratio, some b) else best

theorem bestLine_eq_foldl (libs : Libraries) (tokens : List (List Char)) (blocks : List Block) :
    bestLine libs tokens blocks = blocks.foldl (betterLine libs tokens) (0, none) := rfl

theorem unit01_betterLine {libs : Libraries} {tokens : List (List Char)} {best : Rat × Option Block}
    (b : Block) (h : Unit01 best.1) : Unit01 (betterLine libs tokens best b).1 := by
  unfold betterLine
  split
  · exact h
  · dsimp only
    split
    · exact unit01_ratio _ _
    · exact h

theorem unit01_bestLine (libs : Libraries) (tokens : List (List Char)) (blocks : List Block) :
    Unit01 (bestLine libs tokens blocks).1 := by
  have hloop : ∀ best : Rat × Option Block, Unit01 best.1 →
      Unit01 (blocks.foldl (betterLine libs tokens) best).1 := by
    induction blocks with
    | nil => exact fun _ h => h
    | cons b blocks ih =>
      intro best h
      rw [List.foldl_cons]
      exact ih _ (unit01_betterLine b h)
  rw [bestLine_eq_foldl]
  exact hloop (0, none) ⟨le_refl _, zero_le_one⟩

theorem mem_wordsIn {line : Sides} {blocks : List Block} {w : Block} {box : Sides} :
    (w, box) ∈ wordsIn line blocks ↔
      w ∈ blocks ∧ w.isWord = true ∧ w.geometry.boundingBox = some box ∧ line.holds box = true := by
  unfold wordsIn
  rw [List.mem_filterMap]
  constructor
  · rintro ⟨b, hb, heq⟩
    obtain ⟨x, hx, hpair⟩ := Option.map_eq_some_iff.1 heq
    obtain ⟨rfl, rfl⟩ := Prod.mk.inj hpair
    obtain ⟨hbox, hholds⟩ := Option.filter_eq_some_iff.1 hx
    obtain ⟨hmem, hword⟩ := List.mem_filter.1 hb
    exact ⟨hmem, hword, hbox, hholds⟩
  · rintro ⟨hmem, hword, hbox, hholds⟩
    refine ⟨w, List.mem_filter.2 ⟨hmem, hword⟩, ?_⟩
    rw [hbox, Option.filter_some, if_pos hholds]
    rfl

/-- **The confidence of a citation is a fraction.** -/
theorem confidence_mem_unit (libs : Libraries) (citation : Option String) {blocks : List Block}
    (h : Percentages blocks) : Unit01 (computeConfidence libs citation blocks).1 := by
  have hzero : Unit01 0 := ⟨le_refl _, zero_le_one⟩
  unfold computeConfidence
  split
  · exact hzero
  next c =>
    have hratio := unit01_bestLine libs (tokenSet libs c) blocks
    split
    · exact hzero
    · dsimp only
      split
      · exact hzero
      · split
        · exact hzero
        · split
          · exact unit01_roundTo 2 hratio
          next box _ =>
            split
            · exact unit01_roundTo 2 hratio
            next hne =>
              refine unit01_roundTo 4 ?_
              have hall : ∀ x ∈ (wordsIn box blocks).map fun w => w.1.confidence.getD 0,
                  0 ≤ x ∧ x ≤ 100 := by
                intro x hx
                obtain ⟨⟨w, wbox⟩, hw, rfl⟩ := List.mem_map.1 hx
                obtain ⟨hmem, hword, -, -⟩ := mem_wordsIn.1 hw
                dsimp only
                cases hc : w.confidence with
                | none => exact ⟨le_refl _, by norm_num⟩
                | some x => exact h w hmem hword x hc
              obtain ⟨h₀, h₁⟩ := sum_mem hall
              generalize (wordsIn box blocks).map (fun w => w.1.confidence.getD 0) = xs at *
              have hpos : (0 : Rat) < xs.length := by
                exact_mod_cast List.length_pos_iff.2 hne
              constructor
              · positivity
              · rw [div_div, div_le_one (by positivity)]
                linarith

/-! ## The best line -/

/-- A line of the page that has every token of the citation. -/
def HasAllTokens (libs : Libraries) (tokens : List (List Char)) (b : Block) : Bool :=
  b.lineText.any fun text => tokens.all (tokenSet libs text).contains

section
variable {libs : Libraries} {tokens : List (List Char)} {blocks : List Block}

/-- No part is larger than the whole. -/
theorem betterLine_full (best : Option Block) (b : Block) :
    betterLine libs tokens (1, best) b = (1, best) := by
  unfold betterLine
  split
  · rfl
  · exact if_neg (not_lt.2 (unit01_ratio _ _).2)

/-- Of the lines with the largest part of the tokens the first is taken. -/
theorem bestLine_eq (hne : tokens ≠ []) (h : ∃ b ∈ blocks, HasAllTokens libs tokens b = true) :
    bestLine libs tokens blocks = (1, blocks.find? (HasAllTokens libs tokens)) := by
  have hpos : (0 : Rat) < tokens.length := by
    exact_mod_cast List.length_pos_iff.2 hne
  have hpart : ∀ text, ((tokens.filter (tokenSet libs text).contains).length : Rat) / tokens.length = 1 ↔
      tokens.all (tokenSet libs text).contains = true := by
    intro text
    rw [div_eq_one_iff_eq hpos.ne', Nat.cast_inj, List.length_filter_eq_length_iff, List.all_eq_true]
  have hlast : ∀ (bs : List Block) (best : Option Block),
      bs.foldl (betterLine libs tokens) ((1 : Rat), best) = (1, best) := by
    intro bs best
    induction bs with
    | nil => rfl
    | cons b bs ih =>
      rw [List.foldl_cons, betterLine_full]
      exact ih
  have hfirst : ∀ (bs : List Block) (best : Rat × Option Block), best.1 < 1 →
      (∃ b ∈ bs, HasAllTokens libs tokens b = true) → bs.foldl (betterLine libs tokens) best =
        (1, bs.find? (HasAllTokens libs tokens)) := by
    intro bs
    induction bs with
    | nil =>
      rintro best _ ⟨b, hb, _⟩
      cases hb
    | cons b bs ih =>
      intro best hbest hex
      rw [List.foldl_cons, List.find?_cons, betterLine]
      cases htext : b.lineText with
      | none =>
        have hnot : HasAllTokens libs tokens b = false := by
          rw [HasAllTokens, htext]
          rfl
        rw [hnot]
        refine ih best hbest ?_
        obtain ⟨b', hb', hall⟩ := hex
        rcases List.mem_cons.1 hb' with rfl | hb'
        · rw [hnot] at hall
          cases hall
        · exact ⟨b', hb', hall⟩
      | some text =>
        have hhas : HasAllTokens libs tokens b = tokens.all (tokenSet libs text).contains := by
          rw [HasAllTokens, htext]
          rfl
        dsimp only
        by_cases hall : tokens.all (tokenSet libs text).contains = true
        · rw [(hpart text).2 hall, if_pos hbest, hhas, hall]
          exact hlast bs (some b)
        · have hlt : ((tokens.filter (tokenSet libs text).contains).length : Rat) /
              tokens.length < 1 :=
            lt_of_le_of_ne (unit01_ratio _ _).2 fun heq => hall ((hpart text).1 heq)
          rw [hhas, Bool.eq_false_iff.2 hall]
          refine ih _ ?_ ?_
          · split
            · exact hlt
            · exact hbest
          · obtain ⟨b', hb', hall'⟩ := hex
            rcases List.mem_cons.1 hb' with rfl | hb'
            · rw [hhas] at hall'
              exact absurd hall' hall
            · exact ⟨b', hb', hall'⟩
  rw [bestLine_eq_foldl]
  exact hfirst blocks (0, none) zero_lt_one h

end

/-! ## Unions of boxes -/

namespace Sides

def right (b : Sides) : Rat := b.left + b.width

def bottom (b : Sides) : Rat := b.top + b.height

/-- `b` contains `c`. -/
structure Contains (b c : Sides) : Prop where
  left   : b.left ≤ c.left
  top    : b.top ≤ c.top
  right  : c.right ≤ b.right
  bottom : c.bottom ≤ b.bottom

end Sides

theorem foldl_min_le_iff {α : Type} (f : α → Rat) (x : Rat) : ∀ (bs : List α) (m : Rat),
    bs.foldl (fun m b => min m (f b)) m ≤ x ↔ m ≤ x ∨ ∃ b ∈ bs, f b ≤ x
  | [], m      => by simp
  | b :: bs, m => by
    rw [List.foldl_cons, foldl_min_le_iff f x bs, min_le_iff, List.exists_mem_cons_iff, or_assoc]

theorem le_foldl_max_iff {α : Type} (f : α → Rat) (x : Rat) : ∀ (bs : List α) (m : Rat),
    x ≤ bs.foldl (fun m b => max m (f b)) m ↔ x ≤ m ∨ ∃ b ∈ bs, x ≤ f b
  | [], m      => by simp
  | b :: bs, m => by
    rw [List.foldl_cons, le_foldl_max_iff f x bs, le_max_iff, List.exists_mem_cons_iff, or_assoc]

/-- Boxes with `P` reach past `c` on each side. -/
structure Reach (P : Sides → Prop) (c : Sides) : Prop where
  left   : ∃ b, P b ∧ b.left ≤ c.left
  top    : ∃ b, P b ∧ b.top ≤ c.top
  right  : ∃ b, P b ∧ c.right ≤ b.right
  bottom : ∃ b, P b ∧ c.bottom ≤ b.bottom

theorem Reach.self {P : Sides → Prop} {c : Sides} (h : P c) : Reach P c :=
  ⟨⟨c, h, le_refl _⟩, ⟨c, h, le_refl _⟩, ⟨c, h, le_refl _⟩, ⟨c, h, le_refl _⟩⟩

theorem unionBox_contains_iff (box : Sides) (boxes : List Sides) (c : Sides) :
    (unionBox box boxes).Contains c ↔ Reach (· ∈ box :: boxes) c := by
  have hright : (unionBox box boxes).right =
      boxes.foldl (fun m b => max m (b.left + b.width)) (box.left + box.width) := by
    unfold Sides.right unionBox
    exact add_sub_cancel _ _
  have hbottom : (unionBox box boxes).bottom =
      boxes.foldl (fun m b => max m (b.top + b.height)) (box.top + box.height) := by
    unfold Sides.bottom unionBox
    exact add_sub_cancel _ _
  have hleft : (unionBox box boxes).left ≤ c.left ↔ ∃ b ∈ box :: boxes, b.left ≤ c.left := by
    rw [List.exists_mem_cons_iff]
    exact foldl_min_le_iff Sides.left c.left boxes box.left
  have htop : (unionBox box boxes).top ≤ c.top ↔ ∃ b ∈ box :: boxes, b.top ≤ c.top := by
    rw [List.exists_mem_cons_iff]
    exact foldl_min_le_iff Sides.top c.top boxes box.top
  have hright' : c.right ≤ (unionBox box boxes).right ↔ ∃ b ∈ box :: boxes, c.right ≤ b.right := by
    rw [hright, List.exists_mem_cons_iff]
    exact le_foldl_max_iff Sides.right c.right boxes box.right
  have hbottom' : c.bottom ≤ (unionBox box boxes).bottom ↔
      ∃ b ∈ box :: boxes, c.bottom ≤ b.bottom := by
    rw [hbottom, List.exists_mem_cons_iff]
    exact le_foldl_max_iff Sides.bottom c.bottom boxes box.bottom
  constructor
  · intro h
    exact ⟨hleft.1 h.left, htop.1 h.top, hright'.1 h.right, hbottom'.1 h.bottom⟩
  · intro h
    exact ⟨hleft.2 h.left, htop.2 h.top, hright'.2 h.right, hbottom'.2 h.bottom⟩

/-! ## Words of a text -/

theorem words_intercalate : ∀ xs : List (List Char),
    Chars.words ([' '].intercalate xs) = xs.flatMap Chars.words
  | []           => rfl
  | [x]          => by rw [List.intercalate_singleton, List.flatMap_singleton]
  | x :: y :: xs => by
    have ih := words_intercalate (y :: xs)
    unfold Chars.words at ih ⊢
    rw [List.intercalate_cons_cons, List.append_assoc, List.singleton_append,
      List.splitOnP_append_cons x _ (by decide), List.filter_append, ih]
    rfl

theorem words_of_trim {s : List Char} (h : Chars.trim s = []) : Chars.words s = [] := by
  unfold Chars.trim Chars.trimBy at h
  rw [List.reverse_eq_nil_iff, List.dropWhile_eq_nil_iff] at h
  have hall : ∀ c ∈ s, Chars.isSpace c = true := by
    refine List.dropWhile_eq_nil_iff.1 ?_
    cases hdrop : s.dropWhile Chars.isSpace with
    | nil => rfl
    | cons c rest =>
      have hc := h c (List.mem_reverse.2 (by rw [hdrop]; exact List.mem_cons_self))
      have hnot := List.head_dropWhile_not Chars.isSpace
        (show s.dropWhile Chars.isSpace ≠ [] by rw [hdrop]; exact List.cons_ne_nil _ _)
      simp only [hdrop, List.head_cons] at hnot
      rw [hc] at hnot
      cases hnot
  clear h
  induction s with
  | nil => rfl
  | cons c s ih =>
    have hrest := ih fun d hd => hall d (List.mem_cons_of_mem _ hd)
    unfold Chars.words at hrest ⊢
    rw [← List.nil_append (c :: s), List.splitOnP_append_cons [] s (hall c List.mem_cons_self),
      List.filter_append, hrest]
    rfl

/-- What is used of `str.lower`: it goes word by word and makes no word vanish. -/
structure LowerLaws (lower : String → String) : Prop where
  spaced  : ∀ parts : List String,
    lower (" ".intercalate parts) = " ".intercalate (parts.map lower)
  visible : ∀ s, Chars.words s.toList ≠ [] → Chars.words (lower s).toList ≠ []

/-- The text of consecutive words, as the OCR spells them. -/
def spelled (ws : List Block) : String := " ".intercalate (ws.map fun w => w.text.getD "")

theorem words_spelled (ws : List Block) :
    Chars.words (spelled ws).toList = ws.flatMap fun w => Chars.words (w.text.getD "").toList := by
  rw [spelled, String.toList_intercalate]
  change Chars.words ([' '].intercalate _) = _
  rw [words_intercalate, List.map_map, List.flatMap_map]
  rfl

theorem words_lower_spelled {lower : String → String} (hl : LowerLaws lower) (ws : List Block) :
    Chars.words (lower (spelled ws)).toList =
      ws.flatMap fun w => Chars.words (lower (w.text.getD "")).toList := by
  rw [spelled, hl.spaced, String.toList_intercalate]
  change Chars.words ([' '].intercalate _) = _
  rw [words_intercalate, List.map_map, List.map_map, List.flatMap_map]
  rfl

/-! ## A run of words -/

/-- `citation` is the text of the consecutive words `run` of a line on the page. -/
structure LineRun (blocks : List Block) (line : Block) (before run after : List Block)
    (citation : String) : Prop where
  mem      : line ∈ blocks
  isLine   : line.isLine = true
  text     : line.text = some (spelled (before ++ run ++ after))
  citation : citation = spelled run
  visible  : ∃ w ∈ run, Chars.words (w.text.getD "").toList ≠ []

section
variable {libs : Libraries} {blocks before run after : List Block} {line : Block} {citation : String}

theorem LineRun.words_ne_nil (h : LineRun blocks line before run after citation) :
    Chars.words citation.toList ≠ [] := by
  obtain ⟨w, hw, hvisible⟩ := h.visible
  rw [h.citation, words_spelled]
  intro hnil
  exact hvisible (List.flatMap_eq_nil_iff.1 hnil w hw)

theorem LineRun.tokens_ne_nil (hl : LowerLaws libs.lower)
    (h : LineRun blocks line before run after citation) : tokenSet libs citation ≠ [] := by
  unfold tokenSet
  rw [ne_eq, List.dedup_eq_nil]
  exact hl.visible citation h.words_ne_nil

/-- The line itself has every token of the citation. -/
theorem LineRun.hasAllTokens (hl : LowerLaws libs.lower)
    (h : LineRun blocks line before run after citation) :
    HasAllTokens libs (tokenSet libs citation) line = true := by
  have hwords := words_spelled (before ++ run ++ after)
  have hne : spelled (before ++ run ++ after) ≠ "" := by
    intro hempty
    rw [hempty] at hwords
    obtain ⟨w, hw, hvisible⟩ := h.visible
    exact hvisible (List.flatMap_eq_nil_iff.1 hwords.symm w (by simp [hw]))
  have htext : line.lineText = some (spelled (before ++ run ++ after)) := by
    unfold Block.lineText truthy
    rw [h.isLine, h.text, if_pos rfl, Option.filter_some, if_pos (by simpa using hne)]
  rw [HasAllTokens, htext, Option.any_some, List.all_eq_true]
  intro t ht
  rw [tokenSet, List.mem_dedup, h.citation, words_lower_spelled hl] at ht
  obtain ⟨w, hw, htw⟩ := List.mem_flatMap.1 ht
  rw [List.contains_iff_mem, tokenSet, List.mem_dedup, words_lower_spelled hl]
  exact List.mem_flatMap.2 ⟨w, by simp [hw], htw⟩

theorem LineRun.computeConfidence_line (hl : LowerLaws libs.lower)
    (h : LineRun blocks line before run after citation) :
    (computeConfidence libs (some citation) blocks).2 =
      blocks.find? (HasAllTokens libs (tokenSet libs citation)) := by
  have hbest := bestLine_eq (h.tokens_ne_nil hl) ⟨line, h.mem, h.hasAllTokens hl⟩
  have hsome : (blocks.find? (HasAllTokens libs (tokenSet libs citation))).isSome = true :=
    List.find?_isSome.2 ⟨line, h.mem, h.hasAllTokens hl⟩
  obtain ⟨b, hb⟩ := Option.isSome_iff_exists.1 hsome
  unfold computeConfidence
  dsimp only
  rw [if_neg fun htrim => h.words_ne_nil (words_of_trim htrim), hbest, hb]
  dsimp only
  rw [if_neg (by norm_num)]
  split
  · rfl
  · split <;> rfl

/-! ## What is covered -/

/-- The geometry that `_extract` stores for a citation. -/
def citationGeometry (libs : Libraries) (citation : String) (blocks : List Block) :
    Option Geometry :=
  fieldGeometry libs (some citation) (computeConfidence libs (some citation) blocks).2 blocks

structure CoversRun (libs : Libraries) (blocks run : List Block) (citation : String) : Prop where
  box        : ∃ entry, citationGeometry libs citation blocks = some [entry] ∧
    ∀ w ∈ run, ∀ c, w.geometry.boundingBox = some c → entry.boundingBox.Contains c
  confidence : Percentages blocks → Unit01 (computeConfidence libs (some citation) blocks).1

/-- The box of a word in the line whose bare spelling is a token of the citation. -/
def IsMatched (libs : Libraries) (citation : String) (line : Sides) (blocks : List Block)
    (box : Sides) : Prop :=
  ∃ w, (w, box) ∈ wordsIn line blocks ∧ bareToken libs (w.text.getD "") ∈ tokenSet libs citation

def Reached (libs : Libraries) (citation : String) (line : Sides) (blocks : List Block)
    (c : Sides) : Prop :=
  Reach (IsMatched libs citation line blocks) c ∨
    (∀ box, ¬ IsMatched libs citation line blocks box) ∧ line.Contains c

/-- The first line with all tokens has a box, and each word of the run is reached in it. -/
def FindsRun (libs : Libraries) (blocks run : List Block) (citation : String) : Prop :=
  ∃ b line, blocks.find? (HasAllTokens libs (tokenSet libs citation)) = some b ∧
    b.geometry.boundingBox = some line ∧
    ∀ w ∈ run, ∀ c, w.geometry.boundingBox = some c → Reached libs citation line blocks c

theorem citationBboxFromWords_contains_iff (hne : citation ≠ "") (box c : Sides) :
    (citationBboxFromWords libs citation box blocks).Contains c ↔
      Reached libs citation box blocks c := by
  unfold citationBboxFromWords
  rw [if_neg hne]
  dsimp only
  generalize hm : ((wordsIn box blocks).filter fun w =>
    (tokenSet libs citation).contains (bareToken libs (w.1.text.getD ""))).map (·.2) = matched
  have hmem : ∀ b, b ∈ matched ↔ IsMatched libs citation box blocks b := by
    intro b
    rw [← hm, List.mem_map]
    constructor
    · rintro ⟨⟨w, wbox⟩, hw, rfl⟩
      obtain ⟨hin, htoken⟩ := List.mem_filter.1 hw
      exact ⟨w, hin, List.contains_iff_mem.1 htoken⟩
    · rintro ⟨w, hin, htoken⟩
      exact ⟨(w, b), List.mem_filter.2 ⟨hin, List.contains_iff_mem.2 htoken⟩, rfl⟩
  cases matched with
  | nil =>
    have hnone : ∀ b, ¬ IsMatched libs citation box blocks b := fun b hb => by
      cases (hmem b).2 hb
    constructor
    · exact fun h => .inr ⟨hnone, h⟩
    · rintro (h | h)
      · obtain ⟨b, hb, _⟩ := h.left
        exact absurd hb (hnone b)
      · exact h.2
  | cons b bs =>
    dsimp only
    rw [unionBox_contains_iff]
    have hpred : (· ∈ b :: bs) = IsMatched libs citation box blocks := by
      funext x
      exact propext (hmem x)
    rw [hpred]
    constructor
    · exact fun h => .inl h
    · rintro (h | h)
      · exact h
      · exact absurd ((hmem b).1 List.mem_cons_self) (h.1 b)

/-- **The box covers the run exactly when each of its words is reached by words that match.** -/
theorem citationBox_covers_iff (hl : LowerLaws libs.lower)
    (h : LineRun blocks line before run after citation) :
    CoversRun libs blocks run citation ↔ FindsRun libs blocks run citation := by
  have hne : citation ≠ "" := by
    rintro rfl
    exact h.words_ne_nil rfl
  have hgeometry : citationGeometry libs citation blocks =
      ((blocks.find? (HasAllTokens libs (tokenSet libs citation))).bind fun b =>
        b.geometry.boundingBox).map fun box =>
          [buildGeometryEntry (citationBboxFromWords libs citation box blocks)] := by
    rw [citationGeometry, h.computeConfidence_line hl]
    rfl
  constructor
  · rintro ⟨⟨entry, hentry, hall⟩, _⟩
    rw [hgeometry] at hentry
    obtain ⟨box, hbox, heq⟩ := Option.map_eq_some_iff.1 hentry
    obtain ⟨b, hb, hbbox⟩ := Option.bind_eq_some_iff.1 hbox
    obtain rfl := List.head_eq_of_cons_eq heq
    exact ⟨b, box, hb, hbbox, fun w hw c hc =>
      (citationBboxFromWords_contains_iff hne box c).1 (hall w hw c hc)⟩
  · rintro ⟨b, box, hb, hbbox, hall⟩
    refine ⟨⟨buildGeometryEntry (citationBboxFromWords libs citation box blocks), ?_, fun w hw c hc =>
      (citationBboxFromWords_contains_iff hne box c).2 (hall w hw c hc)⟩,
      confidence_mem_unit libs _⟩
    rw [hgeometry, hb, Option.bind_some, hbbox]
    rfl

end

/-! ## A name and an amount -/

/-- The laws are those of lower-case texts. -/
def lowerCase : Libraries := { lower := id }

theorem lowerLaws_lowerCase : LowerLaws lowerCase.lower where
  spaced  := fun parts => by
    change " ".intercalate parts = " ".intercalate (parts.map id)
    rw [List.map_id]
  visible := fun _ h => h

def wordBlock (text : String) (left width : Rat) : Block :=
  { blockType := "WORD", text := some text
    geometry := { boundingBox := some { left, top := 0, width, height := 1 } } }

def lineBlock (text : String) (width : Rat) : Block :=
  { blockType := "LINE", text := some text
    geometry := { boundingBox := some { left := 0, top := 0, width, height := 1 } } }

def dueWords : List Block := [wordBlock "due" 0 3, wordBlock "42" 4 2]

def nameWords : List Block := [wordBlock "smith," 0 4, wordBlock "john" 5 5]

theorem citationBox_covers_due :
    CoversRun lowerCase (lineBlock "due 42" 6 :: dueWords) dueWords "due 42" := by
  have hrun : LineRun (lineBlock "due 42" 6 :: dueWords) (lineBlock "due 42" 6) [] dueWords []
      "due 42" :=
    ⟨List.mem_cons_self, by decide +kernel, by decide +kernel, by decide +kernel,
      ⟨wordBlock "due" 0 3, List.mem_cons_self, by decide +kernel⟩⟩
  refine (citationBox_covers_iff lowerLaws_lowerCase hrun).2
    ⟨lineBlock "due 42" 6, _, by decide +kernel, rfl, fun w hw c hc => .inl (.self ?_)⟩
  refine ⟨w, mem_wordsIn.2 ?_, ?_⟩
  · rcases List.mem_cons.1 hw with rfl | hw
    · cases hc
      decide +kernel
    · rw [List.mem_singleton.1 hw] at hc ⊢
      cases hc
      decide +kernel
  · rcases List.mem_cons.1 hw with rfl | hw
    · decide +kernel
    · rw [List.mem_singleton.1 hw]
      decide +kernel

/-- The box is that of `john` alone. -/
theorem citationBox_misses_smith : ¬ ∀ (libs : Libraries) (blocks : List Block) (line : Block)
    (before run after : List Block) (citation : String), LowerLaws libs.lower →
      LineRun blocks line before run after citation → CoversRun libs blocks run citation := by
  intro hall
  have hrun : LineRun (lineBlock "smith, john" 10 :: nameWords) (lineBlock "smith, john" 10) []
      nameWords [] "smith, john" :=
    ⟨List.mem_cons_self, by decide +kernel, by decide +kernel, by decide +kernel,
      ⟨wordBlock "smith," 0 4, List.mem_cons_self, by decide +kernel⟩⟩
  obtain ⟨entry, hentry, hcovers⟩ := (hall _ _ _ _ _ _ _ lowerLaws_lowerCase hrun).box
  have hjohn : citationGeometry lowerCase "smith, john" (lineBlock "smith, john" 10 :: nameWords) =
      some [{ boundingBox := { left := 5, top := 0, width := 5, height := 1 } }] := by
    decide +kernel
  rw [hjohn] at hentry
  obtain rfl := List.head_eq_of_cons_eq (Option.some.inj hentry)
  have hleft := (hcovers (wordBlock "smith," 0 4) List.mem_cons_self _ rfl).left
  revert hleft
  decide +kernel

end DocumentAi
