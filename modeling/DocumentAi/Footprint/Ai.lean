import DocumentAi.Footprint.Documents

/-!
# Footprints: which AI services a document is sent to

| here | meaning |
| --- | --- |
| `AiOnly φ p`       | every AI call of `p` satisfies `φ`; `AiFree` when there is none |
| `ChecksDocument`   | the AI calls of the checks before extraction, each with the gate in front of it |
| `aiOnly_preclassify`, `aiFree_…` | one lemma for each function before the claim |
-/

namespace DocumentAi

open Effect.Prog (Spec All spec_bind spec_tryCatch spec_perform spec_ite all_bind all_perform
  all_forEach)

abbrev AiOnly {α : Type} (φ : AiCall → Prop) (p : Prog α) : Prop :=
  All (fun (op : Op) => ∀ c, op = .ai c → φ c) p

abbrev AiFree {α : Type} (p : Prog α) : Prop := AiOnly (fun _ => False) p

section
variable {α : Type} {φ ψ : AiCall → Prop} {p : Prog α}

theorem AiOnly.mono (h : ∀ c, φ c → ψ c) (hp : AiOnly φ p) : AiOnly ψ p :=
  Effect.Prog.All.mono (fun _ ho c hc => h c (ho c hc)) hp

theorem AiFree.only (hp : AiFree p) : AiOnly φ p := AiOnly.mono (fun _ h => h.elim) hp

theorem aiOnly_call {c : AiCall} (h : φ c) : AiOnly φ (call (.ai c)) :=
  all_perform fun _ e => by cases e; exact h

theorem aiFree_call {op : Op} (h : ∀ c, op ≠ .ai c) : AiOnly φ (call op) :=
  all_perform fun c e => absurd e (h c)

theorem Does.aiOnly {χ : Op → Prop} (hp : Does χ p) (h : ∀ c, ¬ χ (.ai c)) : AiOnly φ p :=
  Effect.Prog.All.mono (fun op ho c e => by
    subst e
    exact ho.elim (fun hq => by cases hq) fun hx => absurd hx (h c)) hp

theorem Quiet.aiOnly (hp : Quiet p) : AiOnly φ p :=
  Effect.Prog.All.mono (fun op ho c e => by subst e; cases ho) hp

end

theorem not_isTerminal_ai {k : String} {s : ProcessStatus} (c : AiCall) :
    ¬ IsTerminal k s (.ai c) := by
  rintro (⟨_, _, _, _, _, _, _, h⟩ | ⟨_, _, h⟩ | ⟨_, _, h⟩) <;> cases h

section
variable {φ : AiCall → Prop}

theorem aiFree_classifyWith (env : EnvConfig) (v : Verdict) (k : String)
    (d : Option ClassificationData) (b e : Option String) (t : Option Timestamp) :
    AiOnly φ (classifyWith env v k d b e t) :=
  (does_classifyWith ..).aiOnly fun c h => h.elim (not_isTerminal_ai c) fun h => h.isBatchWrite

theorem aiFree_upsertDdb (env : EnvConfig) (d : InitialDdbRecord) : AiOnly φ (upsertDdb env d) :=
  (does_upsertDdb env d).aiOnly fun c h => by
    rcases h with ⟨_, h⟩ | ⟨_, _, h⟩ <;> cases h

theorem aiFree_finalizeV1Response (env : EnvConfig) (k : String) (s : ProcessStatus)
    (d : Option ClassificationData) (e : Option String) :
    AiOnly φ (finalizeV1Response env k s d e) :=
  (does_finalizeV1Response env k s d e).aiOnly fun c h => by
    obtain ⟨_, _, h⟩ := h
    cases h

end

/-! ## The checks before extraction -/

/-- The AI calls of the checks before extraction. -/
inductive ChecksDocument (env : EnvConfig) (bytes : Bytes) (contentType : String) :
    AiCall → Prop where
  | words (hflag : env.flags.enableBlurDetection = true)
      (ht : isImageType (if contentType = "" then "image/jpeg" else contentType) = true) :
      ChecksDocument env bytes contentType (.detectDocumentText bytes)
  | quadrant (hflag : env.flags.enableBlurDetection = true)
      (ht : isImageType (if contentType = "" then "image/jpeg" else contentType) = true)
      (q : String) : ChecksDocument env bytes contentType (.emptyQuadrant bytes q)
  | preclassify (h : preclassifiable bytes contentType = true) (u : Option String) :
      ChecksDocument env bytes contentType (.preclassify bytes contentType u)
  | blueprint (hflag : env.flags.enablePreclassificationBlueprintMatching = true)
      (hs : env.schemas.isEmpty = false) :
      ChecksDocument env bytes contentType (.blueprintMatch bytes contentType)
  | bbox (hflag : env.flags.documentCrop = true) (ht : isImageType contentType = true) :
      ChecksDocument env bytes contentType (.detectBbox bytes contentType)

section
variable (env : EnvConfig) (bytes : Bytes) (contentType : String)

theorem aiOnly_detectBlur (hflag : env.flags.enableBlurDetection = true) :
    AiOnly (ChecksDocument env bytes contentType) (detectBlur bytes contentType) := by
  unfold detectBlur
  by_cases ht : isImageType (if contentType = "" then "image/jpeg" else contentType) = true
  · have hq : ∀ qs, AiOnly (ChecksDocument env bytes contentType)
        (checkEmptyQuadrants bytes qs) := by
      intro qs
      induction qs with
      | nil => trivial
      | cons q qs ih =>
        unfold checkEmptyQuadrants
        refine all_bind ?_ fun _ => all_bind ih fun _ => trivial
        exact spec_tryCatch (all_bind (aiOnly_call (.quadrant hflag ht _)) fun _ => trivial)
          fun _ => trivial
    refine spec_ite trivial (spec_tryCatch ?_ fun _ => trivial)
    refine all_bind (aiOnly_call (.words hflag ht)) fun words => ?_
    exact spec_ite trivial (all_bind (hq _) fun _ => trivial)
  · rw [if_pos (by simpa using ht)]
    trivial

theorem aiOnly_getBlurOutcome :
    AiOnly (ChecksDocument env bytes contentType) (getBlurOutcome env bytes contentType) := by
  unfold getBlurOutcome
  by_cases hflag : env.flags.enableBlurDetection = true
  · refine spec_ite trivial (all_bind (aiOnly_detectBlur env bytes contentType hflag) fun r => ?_)
    exact spec_ite trivial (spec_ite trivial trivial)
  · rw [if_pos (by simpa using hflag)]
    trivial

theorem aiOnly_preclassifyDocument (u : Option String) :
    AiOnly (ChecksDocument env bytes contentType)
      (preclassifyDocument env bytes contentType u) := by
  unfold preclassifyDocument
  split
  · trivial
  next h =>
    refine spec_tryCatch (all_bind (aiOnly_call (.preclassify (by simpa using h) u)) fun r => ?_)
      fun _ => trivial
    split <;> trivial

theorem aiOnly_findMatchingBlueprint :
    AiOnly (ChecksDocument env bytes contentType)
      (findMatchingBlueprint env bytes contentType) := by
  unfold findMatchingBlueprint
  split
  · trivial
  next h =>
    simp only [Bool.or_eq_true, Bool.not_eq_true', not_or, Bool.not_eq_false, Bool.not_eq_true] at h
    refine spec_tryCatch (all_bind (aiOnly_call (.blueprint h.1 h.2)) fun r => ?_)
      fun _ => trivial
    split <;> trivial

theorem aiOnly_getBboxIfEnabled :
    AiOnly (ChecksDocument env bytes contentType) (getBboxIfEnabled env bytes contentType) := by
  unfold getBboxIfEnabled
  split
  next h =>
    simp only [Bool.and_eq_true] at h
    refine all_bind ?_ fun _ => trivial
    exact spec_tryCatch (all_bind (aiOnly_call (.bbox h.1 h.2)) fun _ => trivial) fun _ => trivial
  · trivial

theorem aiOnly_runPreclassification (u : Option String) (n : Option Nat) (t : Option String) :
    AiOnly (ChecksDocument env bytes contentType)
      (runPreclassification env bytes contentType u n t) := by
  unfold runPreclassification
  refine all_bind (spec_tryCatch (aiOnly_findMatchingBlueprint ..) fun _ => trivial) fun m => ?_
  refine all_bind (spec_tryCatch (all_bind (aiOnly_preclassifyDocument ..) fun _ => trivial)
    fun _ => trivial) fun cls => ?_
  cases cls with
  | none => trivial
  | some cls =>
    refine spec_ite trivial (spec_ite trivial (all_bind (reads_isBlueprintDisabled t _).quiet.aiOnly
      fun d => ?_))
    exact spec_ite trivial trivial

theorem aiOnly_attempt {α : Type} {φ : AiCall → Prop} {p : Prog α} (hp : AiOnly φ p) :
    AiOnly φ (attempt p) :=
  spec_tryCatch (all_bind hp fun _ => trivial) fun _ => trivial

theorem aiOnly_runPreExtraction (u : Option String) (n : Option Nat) (t : Option String) :
    AiOnly (ChecksDocument env bytes contentType)
      (runPreExtraction env bytes contentType u n t) := by
  unfold runPreExtraction
  refine all_bind (aiOnly_attempt (aiOnly_getBlurOutcome ..)) fun bf => ?_
  refine all_bind (aiOnly_attempt (aiOnly_runPreclassification ..)) fun pf => ?_
  refine all_bind (aiOnly_getBboxIfEnabled ..) fun bbox => ?_
  refine all_bind (all_liftExcept _) fun blur => all_bind (all_liftExcept _) fun pre => ?_
  split <;> trivial

end

section
variable (env : EnvConfig) (doc : FetchedDocument)

theorem aiFree_incrementIfBatch {φ : AiCall → Prop} (b : Option String) :
    AiOnly φ (incrementIfBatch b) := (makes_incrementIfBatch b).does.aiOnly fun _ h => h.isBatchWrite

theorem aiFree_decrementIfCharged {φ : AiCall → Prop} (t : Option String) (d : Option Day) :
    AiOnly φ (decrementIfCharged t d) := by
  unfold decrementIfCharged
  split
  · refine spec_tryCatch (all_bind (aiFree_call fun _ e => by cases e) fun _ => trivial) fun e => ?_
    exact spec_ite trivial trivial
  · trivial

/-- Neither a password-protected nor an excluded document is checked. -/
theorem aiOnly_checkBeforeExtraction (t : Option String) (d : Option Day) (s : Selection) :
    AiOnly (fun c => isPasswordProtected doc.fileBytes = false ∧ s.selected = true ∧
      ChecksDocument env doc.fileBytes doc.contentType c)
      (checkBeforeExtraction env doc t d s) := by
  unfold checkBeforeExtraction
  split
  · exact all_bind (aiFree_incrementIfBatch _) fun _ => trivial
  next hp =>
    split
    · refine all_bind (aiFree_call fun _ e => by cases e) fun _ => ?_
      refine all_bind (aiFree_decrementIfCharged ..) fun _ => ?_
      exact all_bind (aiFree_incrementIfBatch _) fun _ => trivial
    next hs =>
      exact (aiOnly_runPreExtraction ..).mono fun c hc => ⟨by simpa using hp, by simpa using hs, hc⟩

theorem aiOnly_upsertInitialDdbRecord (t : Option String) (d : Option Day) :
    AiOnly (ChecksDocument env doc.fileBytes doc.contentType)
      (upsertInitialDdbRecord env doc t d) := by
  unfold upsertInitialDdbRecord
  refine all_bind (reads_selectDocument doc t).quiet.aiOnly fun sel => ?_
  refine all_bind ((aiOnly_checkBeforeExtraction ..).mono fun c h => h.2.2) fun pre => ?_
  refine all_bind (reads_initialResponse doc pre).quiet.aiOnly fun response => ?_
  refine all_bind (aiFree_upsertDdb ..) fun _ => ?_
  exact spec_ite trivial (all_bind (aiFree_finalizeV1Response ..) fun _ => trivial)

theorem aiOnly_preclassify (r : Option Record) :
    AiOnly (ChecksDocument env doc.fileBytes doc.contentType) (preclassify env doc r) := by
  unfold preclassify
  split
  · trivial
  · refine all_bind (aiOnly_upsertInitialDdbRecord env doc _ _) fun pre => ?_
    refine all_bind (reads_getDdbRecord _).quiet.aiOnly fun r => ?_
    cases r <;> trivial

theorem aiFree_rejectIfNotNative {φ : AiCall → Prop} : AiOnly φ (rejectIfNotNative env doc) := by
  have hget : ∀ key, AiOnly φ (call (.getObject key)) := fun _ => aiFree_call fun _ e => by cases e
  have hvalidate : ∀ key, AiOnly φ (validateS3ObjectIsBdaNative env key) := by
    intro key
    unfold validateS3ObjectIsBdaNative detectionData
    refine all_bind (hget _) fun header => all_bind (spec_ite ?_ trivial) fun _ =>
      spec_ite trivial trivial
    exact all_bind (hget _) fun _ => trivial
  unfold rejectIfNotNative
  refine all_bind (spec_tryCatch (all_bind (hvalidate _) fun _ => trivial) fun e => ?_)
    fun rejection => ?_
  · split <;> trivial
  · split
    · trivial
    · exact all_bind (aiFree_classifyWith ..) fun _ => trivial

end

end DocumentAi
