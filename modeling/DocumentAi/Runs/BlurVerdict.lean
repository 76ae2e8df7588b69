import Mathlib.Data.List.Forall2
import DocumentAi.Footprint.Exec
import DocumentAi.Lib.Sequential
import DocumentAi.System
import DocumentAi.Utils.BlurDetection

/-!
# What a page that is not blurry has, and that better words keep it

| here | meaning |
| --- | --- |
| `Meets`       | the words meet both confidence thresholds |
| `Sharp`       | why a page is not blurry: each populated quadrant meets them, no empty one hides text, and the page meets them when there is no populated quadrant |
| `Raised`      | the same words at the same places, with no lower confidences |
| `Answered`    | the answers of the OCR and of the vision model in a run |

Main results: `partition_perm`, each word is in one quadrant; `ends_detectBlur_iff`, a run on an image
judges by `Sharp`; `Sharp.mono`.
-/

namespace DocumentAi

open Effect (Ends Event ends_ret_iff ends_perform_iff ends_bind_iff ends_bind_ok ends_tryCatch_iff)

/-! ## Quadrants -/

theorem Quadrant.mem_all (q : Quadrant) : q ∈ Quadrant.all := by cases q <;> decide

/-- Each word is counted in exactly one quadrant. -/
theorem partition_perm (words : List Word) :
    (Quadrant.all.flatMap (partitionWordsIntoQuadrants words)).Perm words := by
  induction words with
  | nil => exact .refl _
  | cons w words ih =>
    have hcons : ∀ q, partitionWordsIntoQuadrants (w :: words) q =
        if quadrantOf w == q then w :: partitionWordsIntoQuadrants words q
        else partitionWordsIntoQuadrants words q := fun q => List.filter_cons
    have hall : ∀ {qs : List Quadrant}, qs.Nodup → quadrantOf w ∈ qs →
        (qs.flatMap (partitionWordsIntoQuadrants (w :: words))).Perm
          (w :: qs.flatMap (partitionWordsIntoQuadrants words)) := by
      intro qs hnodup hmem
      induction qs with
      | nil => cases hmem
      | cons q qs ihq =>
        rw [List.flatMap_cons, List.flatMap_cons, hcons]
        rw [List.nodup_cons] at hnodup
        by_cases hq : quadrantOf w = q
        · have hrest : qs.flatMap (partitionWordsIntoQuadrants (w :: words)) =
              qs.flatMap (partitionWordsIntoQuadrants words) := by
            refine List.flatMap_congr fun q' hq' => ?_
            rw [hcons, if_neg]
            rintro heq
            rw [hq, beq_iff_eq] at heq
            exact hnodup.1 (heq ▸ hq')
          rw [if_pos (beq_iff_eq.2 hq), hrest]
          exact .refl _
        · rw [if_neg (by rw [beq_iff_eq]; exact hq)]
          have hmem' := (List.mem_cons.1 hmem).resolve_left hq
          exact ((ihq hnodup.2 hmem').append_left _).trans List.perm_middle
    exact (hall (by decide) (Quadrant.mem_all _)).trans (ih.cons w)

theorem length_eq_quadrants (words : List Word) :
    words.length = (Quadrant.all.map fun q => (partitionWordsIntoQuadrants words q).length).sum := by
  rw [← (partition_perm words).length_eq, List.length_flatMap]

/-- A text-dense page has a populated quadrant. -/
theorem exists_populated {words : List Word} (h : textDenseMinWords ≤ words.length) :
    ∃ q, minWordCount ≤ (partitionWordsIntoQuadrants words q).length := by
  by_contra hnone
  have hfew : ∀ q, (partitionWordsIntoQuadrants words q).length < minWordCount := fun q =>
    Nat.lt_of_not_le fun hq => hnone ⟨q, hq⟩
  have hsum := length_eq_quadrants words
  simp only [Quadrant.all, List.map_cons, List.map_nil, List.sum_cons, List.sum_nil] at hsum
  have h₁ := hfew .topLeft
  have h₂ := hfew .topRight
  have h₃ := hfew .bottomLeft
  have h₄ := hfew .bottomRight
  simp only [minWordCount, textDenseMinWords] at *
  omega

/-! ## The verdict -/

structure Meets (words : List Word) : Prop where
  avg : minAvgConfidence ≤ avgConfidence words
  low : lowPercent words ≤ maxLowConfidencePercent

theorem checkQuadrant_eq_false_iff {words : List Word} : checkQuadrant words = false ↔ Meets words := by
  unfold checkQuadrant
  rw [Bool.or_eq_false_iff, decide_eq_false_iff_not, decide_eq_false_iff_not, not_lt, not_lt]
  exact ⟨fun h => ⟨h.1, h.2⟩, fun h => ⟨h.avg, h.low⟩⟩

theorem pageFallbackResult_eq_false_iff {words : List Word} :
    (pageFallbackResult words).1 = false ↔ Meets words := by
  unfold pageFallbackResult
  split
  next h => exact ⟨fun hf => (by cases hf), fun hm => absurd h (not_lt.2 hm.avg)⟩
  next h =>
    split
    next h' => exact ⟨fun hf => (by cases hf), fun hm => absurd h' (not_lt.2 hm.low)⟩
    next h' => exact ⟨fun _ => ⟨not_lt.1 h, not_lt.1 h'⟩, fun _ => rfl⟩

abbrev Populated (words : List Word) (q : Quadrant) : Prop :=
  minWordCount ≤ (partitionWordsIntoQuadrants words q).length

theorem evaluateQuadrants_failed_iff {words : List Word} : ∀ {qs : List Quadrant},
    (evaluateQuadrants words qs).failed = none ↔
      ∀ q ∈ qs, Populated words q → Meets (partitionWordsIntoQuadrants words q)
  | []      => by simp [evaluateQuadrants]
  | q :: qs => by
    have ih := @evaluateQuadrants_failed_iff words qs
    rw [List.forall_mem_cons, ← ih, ← checkQuadrant_eq_false_iff, evaluateQuadrants]
    dsimp only
    by_cases hq : minWordCount ≤ (partitionWordsIntoQuadrants words q).length
    · rw [if_pos hq]
      by_cases hc : checkQuadrant (partitionWordsIntoQuadrants words q) = true
      · rw [if_pos hc]
        refine ⟨fun h => (by cases h), fun h => ?_⟩
        rw [h.1 hq] at hc
        cases hc
      · rw [if_neg hc]
        exact ⟨fun h => ⟨fun _ => Bool.not_eq_true _ ▸ hc, h⟩, fun h => h.2⟩
    · rw [if_neg hq]
      exact ⟨fun h => ⟨fun hp => absurd hp hq, h⟩, fun h => h.2⟩

/-- Without a blurry quadrant each quadrant has its statistics, and the sparse ones are skipped. -/
theorem evaluateQuadrants_stats {words : List Word} : ∀ {qs : List Quadrant},
    (evaluateQuadrants words qs).failed = none →
      (evaluateQuadrants words qs).stats.map (fun s => (s.1, s.2.skipped)) =
        qs.map fun q => (q.name, decide (¬ Populated words q))
  | [], _      => rfl
  | q :: qs, h => by
    rw [evaluateQuadrants] at h ⊢
    dsimp only at h ⊢
    by_cases hq : minWordCount ≤ (partitionWordsIntoQuadrants words q).length
    · rw [if_pos hq] at h ⊢
      by_cases hc : checkQuadrant (partitionWordsIntoQuadrants words q) = true
      · rw [if_pos hc] at h
        cases h
      · rw [if_neg hc] at h ⊢
        rw [List.map_cons, List.map_cons, evaluateQuadrants_stats h,
          decide_eq_false (not_not.2 (show Populated words q from hq))]
    · rw [if_neg hq] at h ⊢
      rw [List.map_cons, List.map_cons, evaluateQuadrants_stats h,
        decide_eq_true (show ¬ Populated words q from hq)]

/-- The answers about the suspicious quadrants. -/
def askQuadrants (words : List Word) (answers : Quadrant → Bool) : List (Quadrant × Bool) :=
  (suspiciousQuadrants words).map fun q => (q, answers q)

structure Sharp (words : List Word) (answers : Quadrant → Bool) : Prop where
  populated : ∀ q, Populated words q → Meets (partitionWordsIntoQuadrants words q)
  empty     : textDenseMinWords ≤ words.length →
    ∀ q, partitionWordsIntoQuadrants words q = [] → answers q = false
  page      : (∀ q, ¬ Populated words q) → Meets words

/-- The statistics as the verdict reads them, with those of the suspicious quadrants replaced. -/
def verdictStats (words : List Word) (llm : List (Quadrant × Bool)) :
    List (String × QuadrantStats) :=
  (evaluateQuadrants words Quadrant.all).stats.map fun s =>
    (s.1, ((llm.map fun a => (a.1.name, llmQuadrantStats a.2)).lookup s.1).getD s.2)

theorem blurVerdict_isBlurry (words : List Word) (llm : List (Quadrant × Bool)) :
    (blurVerdict words llm).isBlurry =
      if (evaluateQuadrants words Quadrant.all).failed.isSome || !(llm.filter (·.2)).isEmpty then true
      else if (verdictStats words llm).all (·.2.skipped) then (pageFallbackResult words).1
      else false := by
  unfold blurVerdict verdictStats
  dsimp only
  split
  · rfl
  · split <;> rfl

theorem not_skipped_of_lookup {llm : List (Quadrant × Bool)} {name : String} {st : QuadrantStats}
    (h : (llm.map fun a => (a.1.name, llmQuadrantStats a.2)).lookup name = some st) :
    st.skipped = false := by
  induction llm with
  | nil => cases h
  | cons a llm ih =>
    rw [List.map_cons, List.lookup_cons] at h
    split at h
    · obtain rfl := Option.some.inj h
      rfl
    · exact ih h

/-- The page as a whole is looked at exactly when no quadrant is populated. -/
theorem verdictStats_all_skipped_iff {words : List Word} {llm : List (Quadrant × Bool)}
    (hfailed : (evaluateQuadrants words Quadrant.all).failed = none)
    (hllm : llm ≠ [] → textDenseMinWords ≤ words.length) :
    (verdictStats words llm).all (·.2.skipped) = true ↔ ∀ q, ¬ Populated words q := by
  have hstats := evaluateQuadrants_stats hfailed
  unfold verdictStats
  rw [List.all_map, List.all_eq_true]
  constructor
  · intro hall q
    have hmem : (q.name, decide (¬ Populated words q)) ∈
        (evaluateQuadrants words Quadrant.all).stats.map fun s => (s.1, s.2.skipped) := by
      rw [hstats]
      exact List.mem_map_of_mem (Quadrant.mem_all q)
    obtain ⟨s, hs, heq⟩ := List.mem_map.1 hmem
    have hskip := hall s hs
    change ((List.lookup s.1 _).getD s.2).skipped = true at hskip
    cases hlookup : (llm.map fun a => (a.1.name, llmQuadrantStats a.2)).lookup s.1 with
    | some st =>
      rw [hlookup, Option.getD_some, not_skipped_of_lookup hlookup] at hskip
      cases hskip
    | none =>
      rw [hlookup, Option.getD_none, (Prod.mk.inj heq).2] at hskip
      exact of_decide_eq_true hskip
  · intro hnone s hs
    obtain rfl : llm = [] := by
      by_contra hne
      obtain ⟨q, hq⟩ := exists_populated (hllm hne)
      exact hnone q hq
    have hmem := List.mem_map_of_mem (f := fun s : String × QuadrantStats => (s.1, s.2.skipped)) hs
    rw [hstats] at hmem
    obtain ⟨q, _, heq⟩ := List.mem_map.1 hmem
    rw [decide_eq_true (hnone q)] at heq
    exact (Prod.mk.inj heq).2.symm

theorem mem_suspiciousQuadrants {words : List Word}
    (hfailed : (evaluateQuadrants words Quadrant.all).failed = none) {q : Quadrant} :
    q ∈ suspiciousQuadrants words ↔
      partitionWordsIntoQuadrants words q = [] ∧ textDenseMinWords ≤ words.length := by
  unfold suspiciousQuadrants
  rw [hfailed, if_neg (by decide), List.mem_filter, Bool.and_eq_true, List.isEmpty_iff,
    decide_eq_true_eq]
  exact ⟨fun h => h.2, fun h => ⟨Quadrant.mem_all q, h⟩⟩

/-- **A page is judged not blurry exactly when it is sharp.** -/
theorem blurVerdict_eq_false_iff {words : List Word} {answers : Quadrant → Bool} :
    (blurVerdict words (askQuadrants words answers)).isBlurry = false ↔ Sharp words answers := by
  rw [blurVerdict_isBlurry]
  cases hfailed : (evaluateQuadrants words Quadrant.all).failed with
  | some q =>
    refine ⟨fun h => (by cases h), fun h => ?_⟩
    rw [evaluateQuadrants_failed_iff.2 fun q _ => h.populated q] at hfailed
    cases hfailed
  | none =>
    have hpop := evaluateQuadrants_failed_iff.1 hfailed
    have hllm : askQuadrants words answers ≠ [] → textDenseMinWords ≤ words.length := by
      intro hne
      obtain ⟨a, ha⟩ := List.exists_mem_of_ne_nil _ hne
      obtain ⟨q, hq, _⟩ := List.mem_map.1 ha
      exact ((mem_suspiciousQuadrants hfailed).1 hq).2
    have hfound : (askQuadrants words answers).filter (·.2) = [] ↔
        ∀ q ∈ suspiciousQuadrants words, answers q = false := by
      unfold askQuadrants
      rw [List.filter_eq_nil_iff, List.forall_mem_map]
      simp only [Bool.not_eq_true]
    simp only [Option.isSome_none, Bool.false_or, Bool.not_eq_true', List.isEmpty_eq_false_iff]
    by_cases hempty : (askQuadrants words answers).filter (·.2) = []
    · rw [if_neg (not_not.2 hempty)]
      have hsus := hfound.1 hempty
      have hskip := verdictStats_all_skipped_iff hfailed hllm
      constructor
      · intro h
        refine ⟨fun q => hpop q (Quadrant.mem_all q), fun hdense q hq => ?_, fun hnone => ?_⟩
        · exact hsus q ((mem_suspiciousQuadrants hfailed).2 ⟨hq, hdense⟩)
        · rw [if_pos (hskip.2 hnone)] at h
          exact pageFallbackResult_eq_false_iff.1 h
      · intro h
        split
        next hall => exact pageFallbackResult_eq_false_iff.2 (h.page (hskip.1 hall))
        next => rfl
    · rw [if_pos hempty]
      refine ⟨fun h => (by cases h), fun h => absurd (hfound.2 fun q hq => ?_) hempty⟩
      obtain ⟨hnil, hdense⟩ := (mem_suspiciousQuadrants hfailed).1 hq
      exact h.empty hdense q hnil

/-! ## Better words -/

structure RaisedWord (a b : Word) : Prop where
  left       : b.left = a.left
  top        : b.top = a.top
  confidence : a.confidence ≤ b.confidence

def Raised (words words' : List Word) : Prop := List.Forall₂ RaisedWord words words'

section
variable {words words' : List Word}

theorem Raised.partition (h : Raised words words') (q : Quadrant) :
    Raised (partitionWordsIntoQuadrants words q) (partitionWordsIntoQuadrants words' q) := by
  refine List.rel_filter (fun a b hab => ?_) h
  have hsame : quadrantOf b = quadrantOf a := by
    unfold quadrantOf
    rw [hab.left, hab.top]
  dsimp only
  rw [hsame]

theorem Raised.length_eq (h : Raised words words') : words'.length = words.length :=
  (List.Forall₂.length_eq h).symm

theorem foldl_add_le {xs ys : List Rat} (h : List.Forall₂ (· ≤ ·) xs ys) :
    ∀ {a b : Rat}, a ≤ b → xs.foldl (· + ·) a ≤ ys.foldl (· + ·) b := by
  induction h with
  | nil => exact fun hab => hab
  | cons hxy _ ih => exact fun hab => ih (add_le_add hab hxy)

theorem Raised.avgConfidence_le (h : Raised words words') :
    avgConfidence words ≤ avgConfidence words' := by
  have hconf : List.Forall₂ (fun x y : Rat => x ≤ y) (words.map (·.confidence))
      (words'.map (·.confidence)) := List.rel_map (fun a b hab => hab.confidence) h
  have hsum : (words.map (·.confidence)).foldl (· + ·) 0 ≤
      (words'.map (·.confidence)).foldl (· + ·) 0 :=
    foldl_add_le hconf (le_refl 0)
  unfold avgConfidence
  rw [h.length_eq]
  exact div_le_div_of_nonneg_right hsum (Nat.cast_nonneg _)

theorem Raised.countLow_le (h : Raised words words') :
    (words'.filter fun w => decide (w.confidence < confidenceFloor)).length ≤
      (words.filter fun w => decide (w.confidence < confidenceFloor)).length := by
  induction h with
  | nil => exact le_refl _
  | @cons a b as bs hab _ ih =>
    by_cases hb : b.confidence < confidenceFloor
    · have ha : a.confidence < confidenceFloor := lt_of_le_of_lt hab.confidence hb
      rw [List.filter_cons_of_pos (by simpa using hb), List.filter_cons_of_pos (by simpa using ha)]
      exact Nat.succ_le_succ ih
    · rw [List.filter_cons_of_neg (by simpa using hb)]
      exact ih.trans ((List.sublist_cons_self a as).filter _).length_le

theorem Raised.lowPercent_le (h : Raised words words') : lowPercent words' ≤ lowPercent words := by
  unfold lowPercent
  rw [h.length_eq]
  have hlow := h.countLow_le
  gcongr

theorem Meets.mono (hm : Meets words) (h : Raised words words') : Meets words' :=
  ⟨hm.avg.trans h.avgConfidence_le, h.lowPercent_le.trans hm.low⟩

theorem Raised.populated_iff (h : Raised words words') (q : Quadrant) :
    Populated words' q ↔ Populated words q := by
  rw [Populated, Populated, (h.partition q).length_eq]

theorem Sharp.mono {answers : Quadrant → Bool} (hs : Sharp words answers)
    (h : Raised words words') : Sharp words' answers := by
  refine ⟨fun q hq => ?_, fun hdense q hq => ?_, fun hnone => ?_⟩
  · exact (hs.populated q ((h.populated_iff q).1 hq)).mono (h.partition q)
  · refine hs.empty (by rw [← h.length_eq]; exact hdense) q ?_
    rw [← List.length_eq_zero_iff, ← (h.partition q).length_eq, hq]
    rfl
  · exact (hs.page fun q hq => hnone q ((h.populated_iff q).2 hq)).mono h

/-- One word with a higher confidence. -/
theorem raised_set {a : Word} {i : Nat} {c : Rat} (ha : words[i]? = some a)
    (hc : a.confidence ≤ c) : Raised words (words.set i { a with confidence := c }) := by
  have hrefl : ∀ w : Word, RaisedWord w w := fun w => ⟨rfl, rfl, le_refl _⟩
  induction words generalizing i with
  | nil => cases ha
  | cons w words ih =>
    cases i with
    | zero =>
      obtain rfl := Option.some.inj ha
      exact .cons ⟨rfl, rfl, hc⟩ (List.forall₂_same.2 fun w _ => hrefl w)
    | succ i => exact .cons (hrefl w) (ih ha)

end

/-! ## Runs -/

/-- An answer about an empty quadrant; an exception or an unclear answer counts as no. -/
def saysText : Except Exc (Option Bool) → Bool
  | .ok r    => r.getD false
  | .error _ => false

/-- The OCR finds these words whenever it is asked, and the vision model gives these answers. -/
structure Answered (tr : List (Event sig)) (words : List Word) (answers : Quadrant → Bool) :
    Prop where
  ocr    : ∀ bytes (ans : Except Exc (List Word)),
    (⟨.ai (.detectDocumentText bytes), ans⟩ : Event sig) ∈ tr → ans = .ok words
  vision : ∀ bytes q (ans : Except Exc (Option Bool)),
    (⟨.ai (.emptyQuadrant bytes (Quadrant.name q)), ans⟩ : Event sig) ∈ tr → saysText ans = answers q

section
variable {w w' : World} {tr : List (Event sig)} {words : List Word} {answers : Quadrant → Bool}
  {bytes : Bytes} {contentType : String}

theorem ends_checkEmptyQuadrants {qs : List Quadrant} {r : Except Exc (List (Quadrant × Bool))}
    (h : Ends system w (checkEmptyQuadrants bytes qs) tr r w')
    (hv : ∀ bytes q (ans : Except Exc (Option Bool)),
      (⟨.ai (.emptyQuadrant bytes (Quadrant.name q)), ans⟩ : Event sig) ∈ tr →
        saysText ans = answers q) :
    r = .ok (qs.map fun q => (q, answers q)) := by
  induction qs generalizing w w' tr r with
  | nil => exact (ends_ret_iff.1 h).2.1
  | cons q qs ih =>
    have hask : ∀ {tr : List (Event sig)} {r : Except Exc Bool} {w₁ : World},
        Ends system w (Effect.Prog.tryCatch
          ((call (.ai (.emptyQuadrant bytes q.name))).bind fun answer : Option Bool =>
            .ret (answer.getD false)) fun _ => .ret false) tr r w₁ →
        ∃ ans : Except Exc (Option Bool), (⟨.ai (.emptyQuadrant bytes q.name), ans⟩ : Event sig) ∈ tr ∧
          r = .ok (saysText ans) := by
      intro tr r w₁ hrun
      rcases ends_tryCatch_iff.1 hrun with ⟨a, rfl, hok⟩ | ⟨e, w₂, tr₁, tr₂, herr, hret, rfl⟩
      · obtain ⟨answer, w₂, tr₁, tr₂, hcall, hret, rfl⟩ := ends_bind_ok hok
        obtain ⟨ch, _, rfl⟩ := ends_perform_iff.1 hcall
        obtain ⟨rfl, ha, _⟩ := ends_ret_iff.1 hret
        exact ⟨.ok answer, List.mem_cons_self, ha⟩
      · obtain ⟨rfl, ha, _⟩ := ends_ret_iff.1 hret
        rcases ends_bind_iff.1 herr with ⟨e', _, hcall⟩ | ⟨_, _, _, _, _, hret', _⟩
        · obtain ⟨ch, _, rfl⟩ := ends_perform_iff.1 hcall
          exact ⟨.error e', List.mem_cons_self, ha⟩
        · obtain ⟨_, he, _⟩ := ends_ret_iff.1 hret'
          cases he
    rcases ends_bind_iff.1 h with ⟨e, _, hfirst⟩ | ⟨b, w₁, tr₁, tr₂, hfirst, hrest, rfl⟩
    · obtain ⟨_, _, he⟩ := hask hfirst
      cases he
    · obtain ⟨ans, hmem, hb⟩ := hask hfirst
      cases hb
      rw [hv bytes q ans (List.mem_append_left _ hmem)] at hrest
      have hv' := fun bytes q ans hmem => hv bytes q ans (List.mem_append_right _ hmem)
      rcases ends_bind_iff.1 hrest with ⟨e, _, hqs⟩ | ⟨llm, w₂, tr₃, tr₄, hqs, hret, rfl⟩
      · cases ih hqs hv'
      · obtain ⟨rfl, rfl, _⟩ := ends_ret_iff.1 hret
        rw [List.append_nil] at hv'
        cases ih hqs hv'
        rfl

/-- What a run on an image comes to: the OCR is asked, and the page is not blurry exactly when it has
too few words or is sharp. -/
theorem ends_detectBlur {r : Except Exc BlurResult}
    (h : Ends system w (detectBlur bytes contentType) tr r w')
    (himage : isImageType (if contentType = "" then "image/jpeg" else contentType) = true)
    (ha : Answered tr words answers) :
    ∃ res, r = .ok res ∧ (∃ ev ∈ tr, ev.op = .ai (.detectDocumentText bytes)) ∧
      (res.isBlurry = false ↔ words.length < minWordCount ∨ Sharp words answers) := by
  unfold detectBlur at h
  rw [himage, if_neg (by decide)] at h
  have hbody : ∀ {tr' : List (Event sig)} {r' : Except Exc BlurResult} {w₁ : World},
      (∀ ev ∈ tr', ev ∈ tr) → Ends system w (do
        let words : List Word ← call (.ai (.detectDocumentText bytes))
        if words.length < minWordCount then
          pure
            { isBlurry := false
              isNotDocument := true
              avgConfidence := some 0
              wordCount := some words.length
              blurReasonText := some "Insufficient text detected to identify a document." }
        else do
          let llm ← checkEmptyQuadrants bytes (suspiciousQuadrants words)
          pure (blurVerdict words llm)) tr' r' w₁ →
      ∃ res, r' = .ok res ∧ (∃ ev ∈ tr', ev.op = .ai (.detectDocumentText bytes)) ∧
        (res.isBlurry = false ↔ words.length < minWordCount ∨ Sharp words answers) := by
    intro tr' r' w₁ hsub hrun
    rcases ends_bind_iff.1 hrun with ⟨e, _, hcall⟩ | ⟨ws, w₂, tr₁, tr₂, hcall, hrest, rfl⟩
    · obtain ⟨ch, _, rfl⟩ := ends_perform_iff.1 hcall
      cases ha.ocr bytes _ (hsub _ List.mem_cons_self)
    · obtain ⟨ch, _, rfl⟩ := ends_perform_iff.1 hcall
      cases ha.ocr bytes _ (hsub _ List.mem_cons_self)
      split at hrest
      next hfew =>
        obtain ⟨_, rfl, _⟩ := ends_ret_iff.1 hrest
        exact ⟨_, rfl, ⟨_, List.mem_cons_self, rfl⟩, fun _ => .inl hfew, fun _ => rfl⟩
      next hfew =>
        have hv := fun bytes q ans hmem =>
          ha.vision bytes q ans (hsub _ (List.mem_cons_of_mem _ hmem))
        rcases ends_bind_iff.1 hrest with ⟨e, _, hqs⟩ | ⟨llm, w₃, tr₃, tr₄, hqs, hret, rfl⟩
        · cases ends_checkEmptyQuadrants hqs hv
        · obtain ⟨rfl, rfl, _⟩ := ends_ret_iff.1 hret
          rw [List.append_nil] at hv
          cases ends_checkEmptyQuadrants hqs hv
          refine ⟨_, rfl, ⟨_, List.mem_cons_self, rfl⟩, ?_⟩
          rw [or_iff_right hfew]
          exact blurVerdict_eq_false_iff
  rcases ends_tryCatch_iff.1 h with ⟨res, rfl, hok⟩ | ⟨e, w₁, tr₁, tr₂, herr, _, rfl⟩
  · exact hbody (fun _ hev => hev) hok
  · obtain ⟨_, he, _⟩ := hbody (fun _ hev => List.mem_append_left _ hev) herr
    cases he

end

/-- **Each word counts in one quadrant; a run on an image asks the OCR and ends with a verdict, and
a page that is not blurry meets the thresholds wherever they apply; and a word with a higher
confidence never makes it blurry.** -/
theorem blur_covers_and_is_monotone :
    (∀ words, (Quadrant.all.flatMap (partitionWordsIntoQuadrants words)).Perm words) ∧
    (∀ (bytes : Bytes) (contentType : String) (words : List Word) (answers : Quadrant → Bool)
      (w w' : World) (tr : List (Event sig)) (r : Except Exc BlurResult),
      isImageType (if contentType = "" then "image/jpeg" else contentType) = true →
      Ends system w (detectBlur bytes contentType) tr r w' → Answered tr words answers →
        ∃ res, r = .ok res ∧ (∃ ev ∈ tr, ev.op = .ai (.detectDocumentText bytes)) ∧
          (minWordCount ≤ words.length → res.isBlurry = false →
            (∀ q, Populated words q → Meets (partitionWordsIntoQuadrants words q)) ∧
              ((∀ q, ¬ Populated words q) → Meets words))) ∧
    (∀ (bytes bytes₂ : Bytes) (contentType contentType₂ : String) (words : List Word)
      (answers : Quadrant → Bool) (i : Nat) (a : Word) (c : Rat) (w w' w₂ w₂' : World)
      (tr tr₂ : List (Event sig)) (res res₂ : BlurResult),
      isImageType (if contentType = "" then "image/jpeg" else contentType) = true →
      isImageType (if contentType₂ = "" then "image/jpeg" else contentType₂) = true →
      words[i]? = some a → a.confidence ≤ c →
      Ends system w (detectBlur bytes contentType) tr (.ok res) w' → Answered tr words answers →
      Ends system w₂ (detectBlur bytes₂ contentType₂) tr₂ (.ok res₂) w₂' →
      Answered tr₂ (words.set i { a with confidence := c }) answers →
        res.isBlurry = false → res₂.isBlurry = false) := by
  refine ⟨partition_perm, ?_, ?_⟩
  · intro bytes contentType words answers w w' tr r himage hrun ha
    obtain ⟨res, rfl, hasked, hiff⟩ := ends_detectBlur hrun himage ha
    refine ⟨res, rfl, hasked, fun hmin hres => ?_⟩
    have hsharp := (hiff.1 hres).resolve_left (Nat.not_lt.2 hmin)
    exact ⟨hsharp.populated, hsharp.page⟩
  · intro bytes bytes₂ contentType contentType₂ words answers i a c w w' w₂ w₂' tr tr₂ res res₂
      himage himage₂ hi hc hrun ha hrun₂ ha₂ hres
    obtain ⟨_, he, _, hiff⟩ := ends_detectBlur hrun himage ha
    obtain ⟨_, he₂, _, hiff₂⟩ := ends_detectBlur hrun₂ himage₂ ha₂
    cases he
    cases he₂
    have hraised := raised_set hi hc
    refine hiff₂.2 ?_
    rw [hraised.length_eq]
    exact (hiff.1 hres).imp_right fun hs => hs.mono hraised

/-! ## A clear page with five words -/

def clearWords : List Word := List.replicate 5 { confidence := 90, left := 1 / 10, top := 1 / 10 }

/-- The first of the words is read better. -/
def clearerWords : List Word :=
  clearWords.set 0 { confidence := 95, left := 1 / 10, top := 1 / 10 }

def readsWords (words : List Word) : Choice where
  ai
    | .detectDocumentText _ => words
    | c                     => AiCall.plain "" c

theorem ends_words (words : List Word) (hmany : ¬ words.length < minWordCount)
    (hsus : suspiciousQuadrants words = []) : Ends system {} (detectBlur [] "image/png")
      [⟨.ai (.detectDocumentText []), .ok words⟩] (.ok (blurVerdict words [])) {} := by
  refine Effect.ends_call_iff.2 ⟨readsWords words, .ok words, {}, [], rfl, rfl, ?_⟩
  change Ends system {} (Effect.Prog.tryCatch (if words.length < minWordCount then _ else
    (checkEmptyQuadrants [] (suspiciousQuadrants words)).bind
      fun llm => .ret (blurVerdict words llm)) _) [] _ _
  rw [if_neg hmany, hsus]
  exact .refl

theorem answered_words (words : List Word) :
    Answered [⟨.ai (.detectDocumentText []), .ok words⟩] words fun _ => false := by
  refine ⟨fun bytes ans hmem => ?_, fun bytes q ans hmem => ?_⟩
  · cases List.mem_singleton.1 hmem
    rfl
  · cases List.mem_singleton.1 hmem

theorem blur_covers_clearWords :
    Meets (partitionWordsIntoQuadrants clearWords .topLeft) ∧
      (blurVerdict clearerWords []).isBlurry = false := by
  have hrun := ends_words clearWords (by decide) (by decide +kernel)
  have hrun' := ends_words clearerWords (by decide) (by decide +kernel)
  have himage : isImageType "image/png" = true := by decide +kernel
  have hclear : (blurVerdict clearWords []).isBlurry = false := by decide +kernel
  constructor
  · obtain ⟨res, hres, _, hcovers⟩ := blur_covers_and_is_monotone.2.1 [] "image/png" clearWords
      (fun _ => false) {} {} _ _ himage hrun (answered_words clearWords)
    cases hres
    exact (hcovers (by decide) hclear).1 .topLeft (by decide +kernel)
  · exact blur_covers_and_is_monotone.2.2 [] [] "image/png" "image/png" clearWords (fun _ => false) 0
      { confidence := 90, left := 1 / 10, top := 1 / 10 } 95 {} {} {} {} _ _ _ _ himage himage rfl
      (by decide +kernel) hrun (answered_words clearWords) hrun' (answered_words clearerWords) hclear

end DocumentAi
