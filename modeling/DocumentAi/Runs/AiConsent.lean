import DocumentAi.Footprint.Ai
import DocumentAi.Lib.Sequential
import DocumentAi.Runs.TerminalStatus

/-!
# Does a declined document reach an AI service?

`_dispatch_document_processor` checks the consent flag before extraction, but the checks before
extraction run in `_preclassify`, ahead of it (`jobs/document_processor/main.py:81-146`).

| here | meaning |
| --- | --- |
| `anyCheck`       | some check before extraction applies to this content |
| `canBeSelected`  | sampling can select the document |
| `sendsDeclined`  | a processor run of a declined document can make an AI call |
| `aiSilent_iff`   | no run makes one iff `sendsDeclined` is false |
-/

namespace DocumentAi

open Effect (Steps Safe Reaches safe_bind safe_tryCatch safe_perform safe_of_spec reaches_after
  steps_perform reaches_after_call reaches_perform play play_alone)
open Effect.Prog (Spec spec_tryCatch spec_ite all_bind)

/-- Blur detection, preclassification, blueprint matching or crop detection applies. -/
def anyCheck (env : EnvConfig) (bytes : Bytes) (contentType : String) : Bool :=
  (env.flags.enableBlurDetection
      && isImageType (if contentType = "" then "image/jpeg" else contentType))
    || preclassifiable bytes contentType
    || (env.flags.enablePreclassificationBlueprintMatching && !env.schemas.isEmpty)
    || (env.flags.documentCrop && isImageType contentType)

/-- The tenant's percentage for the category is positive, or there is none to apply. -/
def canBeSelected (w : World) (tenantId category : Option String) : Bool :=
  match truthy tenantId, truthy category with
  | some t, some c => decide (0 < (w.categories t c).getD 1)
  | _, _           => true

def contentTypeOf (obj : S3Object) : String := obj.contentType.getD "application/octet-stream"

/-- The processor of `key` makes an AI call in some run from `w`, in which the record is `r`. -/
def sendsDeclined (env : EnvConfig) (w : World) (key : S3Key) (r : Record) : Bool :=
  match w.object key with
  | none     => false
  | some obj =>
    needsPreclassification (some r) && !isPasswordProtected obj.bytes
      && canBeSelected w r.tenantId obj.metadata.userProvidedDocumentCategory
      && anyCheck env obj.bytes (contentTypeOf obj)

theorem anyCheck_of_checks {env : EnvConfig} {bytes : Bytes} {contentType : String} {c : AiCall}
    (h : ChecksDocument env bytes contentType c) : anyCheck env bytes contentType = true := by
  unfold anyCheck
  cases h with
  | words hf ht => simp [hf, ht]
  | quadrant hf ht => simp [hf, ht]
  | preclassify h => simp [h]
  | blueprint hf hs => simp [hf, hs]
  | bbox hf ht => simp [hf, ht]

/-! ## No call without a check -/

/-- The record of `k` has the flag `False`. -/
def Declined (k : String) (w : World) : Prop :=
  ∃ r : Record, w.docs.item k = some r ∧ r.aiConsentFlag = some false

/-- A call that is no AI call, and on the table one of the kinds of `IsDocWrite`. -/
abbrev SilentCall (op : Op) : Prop := (∀ c, op = .ai c → False) ∧ OnSomeDoc op

theorem declined_step {k : String} {op : Op} {w : World} {ch : Choice} {ans : sig.Ans op}
    {w' : World} (hop : OnSomeDoc op) (hw : Declined k w)
    (hx : World.exec w op ch = some (ans, w')) : Declined k w' := by
  obtain ⟨r, hr, hflag⟩ := hw
  obtain ⟨j, hj | hj⟩ := hop
  · exact ⟨r, (exec_frame hx).docs hj ▸ hr, hflag⟩
  · obtain ⟨u, rfl⟩ := docWrite_updateItem hj
    rcases exec_updateItem hx with ⟨e, _, rfl⟩ | ⟨new, rfl, _, hnew, rfl⟩
    · exact ⟨r, hr, hflag⟩
    · by_cases hjk : k = j
      · subst hjk
        have hold : w.record k = r := by simp [World.record, hr]
        rw [hold] at hnew
        exact ⟨new, Dynamo.Table.put_item_self .., docWrite_aiConsentFlag hj hnew hflag⟩
      · exact ⟨r, by rw [World.setRecord, Dynamo.Table.put_item_ne _ _ hjk]; exact hr, hflag⟩

section
variable {α : Type} {k : String} {w : World}

/-- Every run of `p` from `w` makes no AI call and keeps the flag. -/
abbrev Silent (k : String) (Q : World → α → Prop) (w : World) (p : Prog α) : Prop :=
  Safe system (fun op => ∀ c, op ≠ .ai c) (fun w a => Declined k w ∧ Q w a)
    (fun w _ => Declined k w) w p

theorem silent_of_spec {p : Prog α} {Q : α → Prop} (ha : AiFree p) (hd : Spec OnSomeDoc Q p)
    (hw : Declined k w) : Silent k (fun _ a => Q a) w p :=
  (safe_of_spec (P := system) (I := Declined k) (Q := fun a => True ∧ Q a) (φ := SilentCall)
    (fun _ _ _ _ _ hop hI hx => declined_step hop.2 hI hx) (Spec.and ha hd) hw).mono
    (fun _ h c e => h.1 c e) (fun _ _ h => ⟨h.1, h.2.2⟩) fun _ _ h => h

theorem silent_of_all {p : Prog α} (ha : AiFree p) (hd : Effect.Prog.All OnSomeDoc p)
    (hw : Declined k w) : Silent k (fun _ _ => True) w p := silent_of_spec ha hd hw

theorem Silent.mono {Q Q' : World → α → Prop} {p : Prog α} (h : ∀ w a, Q w a → Q' w a)
    (hp : Silent k Q w p) : Silent k Q' w p :=
  Safe.mono (fun _ h => h) (fun w a ha => ⟨ha.1, h w a ha.2⟩) (fun _ _ h => h) hp

theorem silent_bind {β : Type} {Q : World → α → Prop} {R : World → β → Prop} {p : Prog α}
    {f : α → Prog β} (hp : Silent k Q w p)
    (hf : ∀ w a, Declined k w → Q w a → Silent k R w (f a)) : Silent k R w (p.bind f) :=
  safe_bind hp fun w a h => hf w a h.1 h.2

/-- A read leaves the world alone. -/
theorem silent_read {op : Op} {Q : World → op.Res → Prop} (hop : op.isRead = true)
    (hw : Declined k w) (hQ : ∀ ch r, w.run ch op = some (.ok r, w) → Q w r) :
    Silent k Q w (call op) := by
  refine safe_perform (fun c e => by subst e; cases hop) (fun ch r w' hx => ?_) fun ch e w' hx => ?_
  · obtain rfl := exec_read hop hx
    exact ⟨hw, hQ ch r (exec_of_ok hx)⟩
  · exact exec_read hop hx ▸ hw

variable (env : EnvConfig) (doc : FetchedDocument)

/-- A document that cannot be selected is not selected. -/
theorem silent_selectDocument (t : Option String) (hw : Declined k w) :
    Silent k (fun _ sel => isPasswordProtected doc.fileBytes = false →
      canBeSelected w t doc.category = false → sel.selected = false) w (selectDocument doc t) := by
  unfold selectDocument
  split
  next hp => exact ⟨hw, fun h => by rw [hp] at h; cases h⟩
  next =>
    unfold isSelectedForProcessing
    split
    next t' c ht hc =>
      refine silent_bind (Q := fun w' r => w' = w ∧ r = w.categories t' c)
        (silent_read rfl hw fun ch r h => by cases h; exact ⟨rfl, rfl⟩) ?_
      rintro _ percent hw ⟨rfl, rfl⟩
      dsimp only
      split
      next h1 =>
        refine ⟨hw, fun _ hs => ?_⟩
        simp only [canBeSelected, ht, hc, decide_eq_false_iff_not] at hs
        exact absurd (by grind) hs
      next =>
        refine silent_bind (Q := fun _ v => 0 ≤ v) (silent_read rfl hw fun ch v h => ?_) ?_
        · simp only [World.run] at h
          split at h
          next hr => cases h; exact hr.1
          next => cases h
        · intro w v hw hv
          refine ⟨hw, fun _ hs => ?_⟩
          simp only [canBeSelected, ht, hc, decide_eq_false_iff_not] at hs
          exact decide_eq_false fun h => hs (by grind)
    next ht =>
      refine ⟨hw, fun _ hs => ?_⟩
      unfold canBeSelected at hs
      split at hs
      next t' c h₁ h₂ => exact absurd h₂ (ht t' c h₁)
      next => cases hs

theorem silent_upsertInitialDdbRecord (t : Option String) (d : Option Day) (hw : Declined k w)
    (h : (!isPasswordProtected doc.fileBytes && canBeSelected w t doc.category
      && anyCheck env doc.fileBytes doc.contentType) = false) :
    Silent k (fun _ _ => True) w (upsertInitialDdbRecord env doc t d) := by
  unfold upsertInitialDdbRecord
  refine silent_bind (silent_selectDocument doc t hw) fun w₁ sel hw₁ hsel => ?_
  have hcheck : AiFree (checkBeforeExtraction env doc t d sel) := by
    refine (aiOnly_checkBeforeExtraction env doc t d sel).mono fun c hc => ?_
    obtain ⟨hp, hs, hc⟩ := hc
    rw [hp, anyCheck_of_checks hc] at h
    rw [hsel hp (by simpa using h)] at hs
    cases hs
  have hspec : Spec OnSomeDoc (fun p => Checked p.processStatus p.isIdentityDocument)
      (checkBeforeExtraction env doc t d sel) :=
    Spec.mono (fun _ h => Routine.onSomeDoc ⟨doc.ddbKey, h⟩) (fun _ h => h)
      (apart_onDocs (apart_checkBeforeExtraction ..))
  refine silent_bind (silent_of_spec hcheck hspec hw₁) fun w₂ pre hw₂ hpre => ?_
  refine silent_of_all ?_ ?_ hw₂
  · refine all_bind (reads_initialResponse doc pre).quiet.aiOnly fun response => ?_
    refine all_bind (aiFree_upsertDdb ..) fun _ => ?_
    exact spec_ite trivial (all_bind (aiFree_finalizeV1Response ..) fun _ => trivial)
  · refine all_bind (reads_initialResponse doc pre).quiet.onSomeDoc fun response => ?_
    refine all_bind (all_onSomeDoc (onDocs_upsertDdb rfl (Bool.and_eq_true _ _ ▸ hpre.initial).1)) fun _ => ?_
    split
    · trivial
    next hc =>
      exact all_bind (all_onSomeDoc (onDocs_finalizeV1Response (isClassified_of_not_continues hpre.initial hc)))
        fun _ => trivial

/-- A declined record goes no further than the dispatch. -/
theorem silent_dispatchDocumentProcessor (p : PreclassifyResult)
    (hp : p.existingRecord.aiConsentFlag = some false) (hw : Declined k w) :
    Silent k (fun _ _ => True) w (dispatchDocumentProcessor env doc p) := by
  unfold dispatchDocumentProcessor
  rw [if_pos hp]
  exact silent_of_all (aiFree_classifyWith ..) (all_onSomeDoc (onDocs_classifyWith rfl)) hw

theorem silent_preclassify {r : Record} (hr : r.aiConsentFlag = some false)
    (hk : doc.ddbKey = k) (hw : Declined k w)
    (h : (needsPreclassification (some r) && !isPasswordProtected doc.fileBytes
      && canBeSelected w r.tenantId doc.category
      && anyCheck env doc.fileBytes doc.contentType) = false) :
    Silent k (fun _ p => p.existingRecord.aiConsentFlag = some false) w
      (preclassify env doc (some r)) := by
  unfold preclassify
  split
  next r' _ he _ => cases he; exact ⟨hw, hr⟩
  next hneed =>
    have hneeds : needsPreclassification (some r) = true := by
      rw [← Bool.not_eq_false]
      exact fun hf => hneed r rfl hf
    rw [hneeds, Bool.true_and] at h
    refine silent_bind (silent_upsertInitialDdbRecord env doc _ _ hw h) fun w₁ pre hw₁ _ => ?_
    refine silent_bind (Q := fun w r => r = w.docs.item doc.ddbKey)
      (silent_read rfl hw₁ fun ch r h => by cases h; rfl) ?_
    rintro w₂ _ hw₂ rfl
    obtain ⟨r₂, hr₂, hf₂⟩ := hw₂
    rw [hk, hr₂]
    exact ⟨⟨r₂, hr₂, hf₂⟩, hf₂⟩

theorem silent_processorHandler {r : Record} (key : S3Key) (cold : Bool)
    (hr : w.docs.item (basename key.2) = some r) (hf : r.aiConsentFlag = some false)
    (h : sendsDeclined env w key r = false) :
    Silent (basename key.2) (fun _ _ => True) w (processorHandler env key cold) := by
  have hw : Declined (basename key.2) w := ⟨r, hr, hf⟩
  refine safe_tryCatch (F := fun w _ => Declined (basename key.2) w) ?_ fun w₁ e hw₁ => ?_
  · refine silent_bind (Q := fun w' _ => w = w') (silent_read rfl hw fun _ _ _ => rfl) ?_
    rintro _ t hw rfl
    refine silent_bind (Q := fun w' (doc : FetchedDocument) => w = w' ∧ doc.ddbKey = basename key.2 ∧
      ∃ obj, w.object key = some obj ∧ doc.fileBytes = obj.bytes ∧
        doc.contentType = contentTypeOf obj ∧
        doc.category = obj.metadata.userProvidedDocumentCategory) ?_ ?_
    · unfold fetchDocument
      refine silent_bind (Q := fun w' obj => w = w' ∧ w.object key = some obj)
        (silent_read rfl hw fun ch obj hx => ⟨rfl, ?_⟩) ?_
      · simp only [World.run] at hx
        split at hx
        next o ho => cases hx; exact ho
        next => cases hx
      · rintro _ obj hw ⟨rfl, hobj⟩
        exact ⟨hw, rfl, rfl, obj, hobj, rfl, rfl, rfl⟩
    · rintro _ doc hw ⟨rfl, hkey, obj, hobj, hbytes, htype, hcat⟩
      simp only [sendsDeclined, hobj, ← hbytes, ← htype, ← hcat] at h
      refine silent_bind (Q := fun w' found => w = w' ∧ found = some r)
        (silent_read rfl hw fun ch found hx => ?_) ?_
      · cases hx; exact ⟨rfl, hkey ▸ hr⟩
      · rintro _ _ hw ⟨rfl, rfl⟩
        refine silent_bind (silent_preclassify env doc hf hkey hw h) fun w₂ p hw₂ hp => ?_
        exact silent_dispatchDocumentProcessor env doc p hp hw₂
  · refine silent_of_all ?_ ?_ hw₁
    · refine all_bind (spec_tryCatch (all_bind (reads_getDdbRecord _).quiet.aiOnly fun r => ?_)
        fun _ => trivial) fun _ => trivial
      exact aiFree_classifyWith ..
    · refine all_bind (spec_tryCatch (all_bind (reads_getDdbRecord _).quiet.onSomeDoc fun _ => ?_)
        fun _ => trivial) fun _ => trivial
      exact all_onSomeDoc (onDocs_classifyWith rfl)

end

/-! ## A check that applies is made -/

def isAi : Op → Bool
  | .ai _ => true
  | _     => false

section
variable (env : EnvConfig) (bytes : Bytes) (contentType : String) (w : World)

/-- Some run of `p` from `w` comes to an AI call. -/
abbrev ReachesAi {α : Type} (w : World) (p : Prog α) : Prop :=
  Reaches system (fun op => isAi op = true) w p

theorem reaches_ai (c : AiCall) : ReachesAi w (call (.ai c)) := reaches_perform rfl

/-- The blur check makes a call, or answers without one. -/
theorem blur_reaches_or_ret :
    ReachesAi w (getBlurOutcome env bytes contentType) ∨
    (∃ b, getBlurOutcome env bytes contentType = .ret b) ∧
      (env.flags.enableBlurDetection
        && isImageType (if contentType = "" then "image/jpeg" else contentType)) = false := by
  unfold getBlurOutcome
  by_cases hf : env.flags.enableBlurDetection = true
  · rw [if_neg (by simp [hf]), hf, Bool.true_and]
    unfold detectBlur
    by_cases ht : isImageType (if contentType = "" then "image/jpeg" else contentType) = true
    · rw [if_neg (by simp [ht])]
      exact .inl (Reaches.bind (Reaches.tryCatch (Reaches.bind (reaches_ai w _))))
    · rw [if_pos (by simpa using ht)]
      exact .inr ⟨⟨_, rfl⟩, by simpa using ht⟩
  · rw [if_pos (by simpa using hf)]
    exact .inr ⟨⟨_, rfl⟩, by simp [hf]⟩

/-- The preclassification makes a call, or answers without one. -/
theorem preclassification_reaches_or_ret (u : Option String) (n : Option Nat) (t : Option String) :
    ReachesAi w (runPreclassification env bytes contentType u n t) ∨
    (∃ p, runPreclassification env bytes contentType u n t = .ret p) ∧
      (env.flags.enablePreclassificationBlueprintMatching && !env.schemas.isEmpty) = false ∧
      preclassifiable bytes contentType = false := by
  unfold runPreclassification findMatchingBlueprint
  by_cases hm : (!env.flags.enablePreclassificationBlueprintMatching || env.schemas.isEmpty) = true
  · rw [if_pos hm]
    unfold preclassifyDocument
    by_cases hp : preclassifiable bytes contentType = true
    · rw [if_neg (by simp [hp])]
      refine .inl (reaches_after .refl (Reaches.bind (Reaches.tryCatch (Reaches.bind ?_))))
      exact Reaches.tryCatch (Reaches.bind (reaches_ai w _))
    · rw [if_pos (by simpa using hp)]
      refine .inr ⟨⟨⟨extractableStatus contentType, .success,
        some (.fromResults otherDocument (some {})), false⟩, ?_⟩, ?_, by simpa using hp⟩
      · simp [otherDocument, isBlueprintDisabled, truthy, pure, bind, tryCatch, tryCatchThe,
          MonadExceptOf.tryCatch, Effect.Prog.tryCatch]
      · simp only [Bool.or_eq_true, Bool.not_eq_true'] at hm
        rcases hm with h | h <;> simp [h]
  · rw [if_neg hm]
    exact .inl (Reaches.bind (Reaches.tryCatch (Reaches.tryCatch (Reaches.bind (reaches_ai w _)))))

theorem reaches_runPreExtraction (u : Option String) (n : Option Nat) (t : Option String)
    (h : anyCheck env bytes contentType = true) :
    ReachesAi w (runPreExtraction env bytes contentType u n t) := by
  unfold runPreExtraction attempt
  rcases blur_reaches_or_ret env bytes contentType w with hr | ⟨⟨b, hb⟩, hblur⟩
  · exact Reaches.bind (Reaches.tryCatch (Reaches.bind hr))
  · rw [hb]
    refine reaches_after (a := Except.ok b) .refl ?_
    rcases preclassification_reaches_or_ret env bytes contentType w u n t with
      hr | ⟨⟨p, hp⟩, hmatch, hpre⟩
    · exact Reaches.bind (Reaches.tryCatch (Reaches.bind hr))
    · rw [hp]
      refine reaches_after (a := Except.ok p) .refl ?_
      simp only [anyCheck, hblur, hmatch, hpre, Bool.false_or] at h
      unfold getBboxIfEnabled detectDocumentBbox
      rw [if_pos h]
      exact Reaches.bind (Reaches.bind (Reaches.tryCatch (Reaches.bind (reaches_ai w _))))

/-- Some draw selects a document that can be selected. -/
theorem selectDocument_selects (doc : FetchedDocument) (t : Option String)
    (hp : isPasswordProtected doc.fileBytes = false)
    (hs : canBeSelected w t doc.category = true) :
    ∃ tr sel, Steps system w (selectDocument doc t) tr (.ret sel) w ∧ sel.selected = true := by
  unfold selectDocument
  rw [if_neg (by simp [hp])]
  unfold isSelectedForProcessing
  unfold canBeSelected at hs
  split
  next t' c ht hc =>
    rw [ht, hc] at hs
    have hpercent : Steps system w (call (.getCategory t' c))
        [⟨.getCategory t' c, .ok (w.categories t' c)⟩] (.ret (w.categories t' c)) w :=
      steps_perform (P := system) {} rfl
    have hdraw : Steps system w (call .random) [⟨.random, .ok (0 : Rat)⟩] (.ret (0 : Rat)) w :=
      steps_perform (P := system) {} (by rfl)
    by_cases h1 : 1 ≤ (w.categories t' c).getD 1
    · refine ⟨_ ++ [], { percentage := some ((w.categories t' c).getD 1) }, hpercent.bind ?_, rfl⟩
      dsimp only
      rw [if_pos h1]
      exact .refl
    · refine ⟨_ ++ ([⟨.random, .ok (0 : Rat)⟩] ++ []), ⟨_, some ((w.categories t' c).getD 1), some 0⟩,
        hpercent.bind ?_, hs⟩
      dsimp only
      rw [if_neg h1]
      exact hdraw.bind .refl
  next => exact ⟨[], {}, .refl, rfl⟩

end

theorem steps_fetchDocument {w : World} {key : S3Key} {obj : S3Object} (t : Timestamp) (cold : Bool)
    (hobj : w.object key = some obj) :
    ∃ tr doc, Steps system w (fetchDocument key t cold) tr (.ret doc) w ∧
      doc.ddbKey = basename key.2 ∧ doc.fileBytes = obj.bytes ∧
      doc.contentType = contentTypeOf obj ∧
      doc.category = obj.metadata.userProvidedDocumentCategory := by
  have hx : World.exec w (.getObject key) {} = some (.ok obj, w) := by
    simp [World.exec, World.run, hobj, World.ok]
  exact ⟨_, _, Steps.bind (steps_perform (P := system) {} hx) .refl, rfl, rfl, rfl, rfl⟩

theorem reaches_processorHandler (env : EnvConfig) {w : World} {key : S3Key} {r : Record}
    (cold : Bool) (hr : w.docs.item (basename key.2) = some r)
    (h : sendsDeclined env w key r = true) : ReachesAi w (processorHandler env key cold) := by
  unfold sendsDeclined at h
  split at h
  · cases h
  next obj hobj =>
    refine Reaches.tryCatch (reaches_after_call (P := system) {} (0 : Nat) rfl ?_)
    obtain ⟨tr, doc, hfetch, hkey, hbytes, htype, hcat⟩ := steps_fetchDocument 0 cold hobj
    simp only [← hbytes, ← htype, ← hcat, Bool.and_eq_true, Bool.not_eq_true'] at h
    obtain ⟨⟨⟨hneed, hpwd⟩, hsel⟩, hcheck⟩ := h
    have hget : World.exec w (.getItem doc.ddbKey) {} = some (.ok (some r), w) := by
      rw [hkey, ← hr]; rfl
    refine reaches_after hfetch (reaches_after_call (P := system) {} (some r) hget ?_)
    refine Reaches.bind ?_
    unfold preclassify
    split
    next r' _ he hdone => cases he; rw [hneed] at hdone; cases hdone
    next =>
      obtain ⟨tr, sel, hsteps, hselected⟩ := selectDocument_selects w doc _ hpwd hsel
      refine Reaches.bind (reaches_after hsteps (Reaches.bind ?_))
      unfold checkBeforeExtraction
      rw [if_neg (by simp [hpwd]), if_neg (by simp [hselected])]
      exact reaches_runPreExtraction env _ _ w _ _ _ hcheck

/-! ## Runs of the processor -/

/-- One invocation of the processor, answered by `chs`. -/
def processorRun (env : EnvConfig) (key : S3Key) (cold : Bool) (chs : List Choice) : List Move :=
  .start (.processor env key cold) :: chs.map (.act 0)

/-- The processor of `key`, started from `w` and answered in any way, makes no AI call. -/
def AiSilent (env : EnvConfig) (w : World) (key : S3Key) (cold : Bool) : Prop :=
  ∀ (chs : List Choice) (c : Config),
    play (.init w) (processorRun env key cold chs) = some c →
      ∀ t ∈ c.threads, ∀ ev ∈ t.trace, isAi ev.op = false

theorem aiSilent_iff_steps {env : EnvConfig} {w : World} {key : S3Key} {cold : Bool} :
    AiSilent env w key cold ↔
      ∀ tr q w', Steps system w (processorHandler env key cold) tr q w' →
        ∀ ev ∈ tr, isAi ev.op = false := by
  constructor
  · intro h tr q w' hs ev hev
    obtain ⟨chs, hplay⟩ := (play_alone (P := system) (e := Entry.processor env key cold)).2
      ⟨tr, q, w', hs, rfl⟩
    exact h chs _ hplay _ (List.mem_singleton.2 rfl) ev (List.mem_reverse.2 hev)
  · intro h chs c hplay t ht ev hev
    obtain ⟨tr, q, w', hs, rfl⟩ := (play_alone (P := system)).1 ⟨chs, hplay⟩
    rw [List.mem_singleton.1 ht] at hev
    exact h tr q w' hs ev (List.mem_reverse.1 hev)

def declinedRecord : Record
  | .aiConsentFlag => some false
  | a              => sampleRecord a

def declinedWorld : World :=
  { sampleWorld with docs := Dynamo.Table.empty.put "scan-1.pdf" declinedRecord }

/-- The same upload with protected content. -/
def protectedWorld : World :=
  { declinedWorld with
    objects := [(sampleKey, { samplePdf with body := .raw (ascii "%PDF-1.7 /Encrypt") })] }

end DocumentAi
