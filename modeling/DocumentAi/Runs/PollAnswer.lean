import DocumentAi.Lib.Among
import DocumentAi.Runs.Classified
import DocumentAi.Runs.RebuiltAnswer
import DocumentAi.Runs.TerminalStatus

/-!
# The synchronous answer and the record

A waiting client is answered by polling the record of its job, while others write it
(`pipeline/jobs.py:18-78`). The loop is left with a stored answer, at the deadline, or by a `break`
when the client is gone; the last two end in the same timeout verdict.

| here | meaning |
| --- | --- |
| `IsVerdictOn e k`     | `e` is the poll's own status write on the record `k` |
| `SettledOtherwise`    | a record of the job is terminal, with another status than `FAILED` |
| `told`                | status, response code and stored answer of a record |
| `LeftUnsettled`       | nobody gives the job another verdict unseen |
| `PollAgrees`          | what the client is told and what the poll writes agree with the record |
| `PollMeets`           | no defect is met: by the other handlers' calls, the classifier of the document and the client |
| `plainAnswer r s`     | the answer that the record alone gives for the status |
| `poll_agrees`         | in every run that meets no defect the answer agrees with the record |
-/

namespace DocumentAi

open Effect (Event Ends Logged Chain OwnOps ownEvents mem_ownEvents ownEvents_split ownEvents_cons
  chain_append ends_bind_iff ends_bind_ok ends_tryCatch_iff ends_perform_iff ends_ret_iff
  ends_raise_iff)
open Effect.Prog (All Blames all_bind spec_tryCatch spec_ite blames_bind blames_tryCatch
  blames_perform)

/-! ## What agreement means -/

namespace Record

def told (r : Record) : Option ProcessStatus × Option ResponseCode × Option V1ApiResponse :=
  (r.status, r.responseCode, r.v1ApiResponseJson)

/-- Terminal, and not with the status of a timeout. -/
def SettledOtherwise (r : Record) : Prop :=
  ∃ s, r.status = some s ∧ s.isClassified = true ∧ s ≠ .failed

end Record

def World.SettledOtherwise (w : World) (jobId : String) : Prop :=
  ∃ k, (w.record k).jobId = some jobId ∧ (w.record k).SettledOtherwise

/-- The poll sees the client gone before its deadline. -/
def PollRequest.leaves (req : PollRequest) : Bool := req.disconnect.any fun d => decide (d < req.polls)

/-- A call in the log of a run among others. -/
abbrev LogEntry : Type := Logged system

/-- The conditional status write of `classify_as_failed`. -/
def IsVerdictOn (e : LogEntry) (k : String) : Prop :=
  e.own = true ∧ ∃ u, e.event.op = .updateItem k u ∧ statusWrite u = some .failed

def IsVerdict (e : LogEntry) : Prop := ∃ k, IsVerdictOn e k

structure PollAgrees (jobId : String) (req : PollRequest) (l : List LogEntry)
    (r : Except Exc PollAnswer) (w' : World) : Prop where
  /-- The answer was stored on the record when the poll saw it. -/
  stored   : ∀ v1, r = .ok (.fromV1 v1) → ∃ e ∈ l, e.own = true ∧ e.event.op = .queryByJobId jobId ∧
    ∃ k, (e.before.record k).jobId = some jobId ∧ (e.before.record k).v1ApiResponseJson = some v1
  /-- No call of the poll touches the outcome of a record with another verdict. -/
  written  : ∀ e ∈ l, e.own = true → ∀ k, (e.before.record k).jobId = some jobId →
    (e.before.record k).SettledOtherwise → (e.after.record k).told = (e.before.record k).told
  reported : r = .ok .timeout → ¬ w'.SettledOtherwise jobId
  /-- A client that is gone changes no outcome at all. -/
  gone     : req.leaves = true → ∀ e ∈ l, e.own = true → ∀ k,
    (e.after.record k).told = (e.before.record k).told

/-! ## When it holds -/

/-- The event of a look that finds the record `r` under `k`. -/
def Sees (jobId k : String) (r : Record) (ev : Event sig) : Prop :=
  ∃ its, ev = ⟨.queryByJobId jobId, .ok ((k, r) :: its)⟩

/-- Since the job was last known to have no record, or since the start with none settled otherwise,
no call of others gives the job another verdict. -/
def LeftUnsettled (jobId : String) (w : World) (l : List LogEntry) : Prop :=
  ∃ l₁ l₂, l = l₁ ++ l₂ ∧
    (l₁ = [] ∧ ¬ w.SettledOtherwise jobId ∨
      ∃ l₀ e, l₁ = l₀ ++ [e] ∧ e.event = ⟨.queryByJobId jobId, .ok []⟩) ∧
    ∀ o ∈ l₂, o.own = false → ¬ o.before.SettledOtherwise jobId → ¬ o.after.SettledOtherwise jobId

/-- What the answer to a status without fields is made of. -/
def answerAttrs : List DocumentMetadata :=
  [.jobId, .createdAt, .extractionCompletedAt, .bdaCompletedAt, .totalProcessingTimeSeconds,
    .bdaMatchedDocumentClass, .userProvidedDocumentCategory, .preclassificationCategoryMatch]

structure PollMeets (env : EnvConfig) (jobId : String) (req : PollRequest) (w : World)
    (l : List LogEntry) : Prop where
  /-- A client that asks for the extracted data finds a document that has none, and whose classifier
  had nothing in hand for its answer that is not on the record. -/
  data      : req.includeExtractedData = true → ∀ e ∈ l, e.own = true → ∀ k r s stored,
    Sees jobId k r e.event → finishedJob r = some (s, stored) → s ≠ .success ∧
      ∃ info error rule, stored = recordedAnswer env r s info error rule ∧
        Rebuilds env e.before r s info error
  /-- Before the finished document is read again, no call of others changes what its answer is made
  of. -/
  steady    : req.includeExtractedData = true → ∀ l₁ e m e' l₂, l = l₁ ++ e :: (m ++ e' :: l₂) →
    ∀ k r, Sees jobId k r e.event → (finishedJob r).isSome = true → e'.event.op = .getItem k →
      ∀ o ∈ m, o.own = false → ∀ a ∈ answerAttrs, o.after.record k a = o.before.record k a
  /-- At the verdict no record of the job has another one. -/
  unsettled : ∀ e ∈ l, IsVerdict e → ¬ e.before.SettledOtherwise jobId
  /-- After the verdict nobody else gives the job another one. -/
  kept      : ∀ l₁ e l₂, l = l₁ ++ e :: l₂ → IsVerdict e → ∀ o ∈ l₂, o.own = false →
    ¬ o.before.SettledOtherwise jobId → ¬ o.after.SettledOtherwise jobId
  /-- While a poll never gets to see the record, nobody else gives it another verdict unseen. -/
  unseen    : (∀ its, ⟨.queryByJobId jobId, .ok its⟩ ∈ ownEvents l → its = []) →
    LeftUnsettled jobId w l
  /-- When the client is gone the record is terminal at the verdict already. -/
  late      : req.leaves = true → ∀ e ∈ l, ∀ k, IsVerdictOn e k → (e.before.record k).Classified

/-! ## An answer that the record alone gives -/

/-- The answer of a record for a status whose fields are not read from the output. -/
def plainAnswer (r : Record) (s : ProcessStatus) : Option V1ApiResponse :=
  if s = .success then none
  else
    match terminalStatusResponses s with
    | some t => some (terminalResponse r s t none none)
    | none   => some { baseResponse r with message := some "Document processing in progress" }

theorem plainAnswer_congr {r r' : Record} {s : ProcessStatus} (h : ∀ a ∈ answerAttrs, r' a = r a) :
    plainAnswer r' s = plainAnswer r s := by
  have hjob : r'.jobId = r.jobId := h _ (by decide)
  have hcreated : r'.createdAt = r.createdAt := h _ (by decide)
  have hmatch : r'.categoryMatch = r.categoryMatch := h .preclassificationCategoryMatch (by decide)
  have hbase : baseResponse r' = baseResponse r := by
    simp only [baseResponse, hjob, hcreated, h .extractionCompletedAt (by decide),
      h .bdaCompletedAt (by decide), h .totalProcessingTimeSeconds (by decide),
      h .bdaMatchedDocumentClass (by decide), h .userProvidedDocumentCategory (by decide)]
  unfold plainAnswer
  by_cases hs : s = .success
  · rw [if_pos hs, if_pos hs]
  · have hcode : resolveResponseCode s r' [] = resolveResponseCode s r [] := by
      rw [resolveResponseCode_eq, resolveResponseCode_eq, hmatch]
      dsimp only
      rw [if_neg hs, if_neg hs]
    rw [if_neg hs, if_neg hs]
    cases terminalStatusResponses s with
    | none => rw [hbase]
    | some t => simp only [terminalResponse, hcode, hbase]

/-- A classifier with nothing else in hand answers what the record alone gives. -/
theorem plainAnswer_of_rebuilds {env : EnvConfig} {w : World} {r : Record} {s : ProcessStatus}
    {info error : Option String} {rule : Option ExtractionRule} (hs : s ≠ .success)
    (h : Rebuilds env w r s info error) :
    plainAnswer r s = some (recordedAnswer env r s info error rule) := by
  unfold Rebuilds at h
  rw [if_neg hs] at h
  unfold plainAnswer recordedAnswer answerTo
  rw [if_neg hs, if_neg hs]
  cases ht : terminalStatusResponses s with
  | none => rfl
  | some t =>
    obtain ⟨hinfo, herror⟩ := h (by rw [ht]; rfl)
    have hdefault : (if s = .failed then (truthy error).or t.error else t.error) = t.error := by
      split
      next hf =>
        subst hf
        cases he : truthy error with
        | none => rfl
        | some e =>
          rw [herror rfl e he, failed_error ht]
          rfl
      next => rfl
    simp only [terminalResponse, hinfo, hdefault]
    cases s <;> rfl

/-! ## The loop -/

section
variable {P : Effect.Sys sig} {x x' : P.World} {env : EnvConfig} {jobId : String} {req : PollRequest}
  {tr : List (Event sig)}

/-- The answer to one look at the record: its event, or nothing when the query failed. -/
theorem ends_look {seen : List (String × Record)}
    (h : Ends P x (Effect.Prog.tryCatch (call (.queryByJobId jobId)) fun _ => .ret []) tr
      (.ok seen) x') :
    tr = [⟨.queryByJobId jobId, .ok seen⟩] ∨ seen = [] ∧ ∃ e, tr = [⟨.queryByJobId jobId, .error e⟩] := by
  rcases ends_tryCatch_iff.1 h with ⟨a, ha, h⟩ | ⟨e, w₁, tr₁, tr₂, h₁, h₂, rfl⟩
  · cases ha
    obtain ⟨ch, _, rfl⟩ := ends_perform_iff.1 h
    exact .inl rfl
  · obtain ⟨rfl, hseen, _⟩ := ends_ret_iff.1 h₂
    cases hseen
    obtain ⟨ch, _, rfl⟩ := ends_perform_iff.1 h₁
    exact .inr ⟨rfl, e, rfl⟩

/-- What the poll answers with after it has seen the finished record `r` under `k`. -/
def Answers (req : PollRequest) (k : String) (s : ProcessStatus)
    (stored v1 : V1ApiResponse) (tr : List (Event sig)) : Prop :=
  (req.includeExtractedData = false ∧ tr = [] ∧ v1 = stored) ∨
    req.includeExtractedData = true ∧ ∃ r' tr', tr = ⟨.getItem k, .ok (some r')⟩ :: tr' ∧
      ∀ a, plainAnswer r' s = some a → v1 = a

theorem ends_validateV1 {v v1 : V1ApiResponse} (h : Ends P x (validateV1 v) tr (.ok v1) x') :
    tr = [] ∧ v1 = v := by
  unfold validateV1 at h
  split at h
  · obtain ⟨rfl, hv, _⟩ := ends_ret_iff.1 h
    cases hv
    exact ⟨rfl, rfl⟩
  · cases h

theorem ends_finishedResponse {k : String} {s : ProcessStatus} {stored v1 : V1ApiResponse}
    (h : Ends P x (finishedResponse env req k s stored) tr (.ok v1) x') :
    Answers req k s stored v1 tr := by
  unfold finishedResponse at h
  cases hdata : req.includeExtractedData with
  | false =>
    rw [hdata, if_neg Bool.false_ne_true] at h
    obtain ⟨rfl, rfl⟩ := ends_validateV1 h
    exact .inl ⟨hdata, rfl, rfl⟩
  | true =>
    rw [hdata, if_pos rfl] at h
    obtain ⟨v, w₁, tr₁, tr₂, h₁, h₂, rfl⟩ := ends_bind_ok h
    obtain ⟨rfl, rfl⟩ := ends_validateV1 h₂
    unfold buildV1ApiResponse at h₁
    obtain ⟨o, w₂, tr₃, tr₄, h₃, h₄, rfl⟩ := ends_bind_ok h₁
    obtain ⟨ch, _, rfl⟩ := ends_perform_iff.1 h₃
    cases o with
    | none => cases h₄
    | some r' =>
      refine .inr ⟨hdata, r', _, by rw [List.append_nil]; rfl, fun a ha => ?_⟩
      unfold plainAnswer at ha
      dsimp only at h₄
      split at ha
      · cases ha
      next hs =>
        rw [if_neg hs] at h₄
        cases ht : terminalStatusResponses s with
        | none =>
          rw [ht] at ha h₄
          obtain ⟨_, hv, _⟩ := ends_ret_iff.1 h₄
          cases hv
          exact Option.some.inj ha
        | some t =>
          rw [ht] at ha h₄
          obtain ⟨_, hv, _⟩ := ends_ret_iff.1 h₄
          cases hv
          exact Option.some.inj ha

/-- **The loop**: it answers from the record it has just seen, or has seen none at all if it ends
without an object key. -/
theorem ends_pollLoop {n i : Nat} {k₀ : Option String} {out : Polled}
    (h : Ends P x (pollLoop env jobId req n i k₀) tr (.ok out) x') :
    (∀ v1, out = .answered v1 → ∃ pre k r its s stored post,
      tr = pre ++ ⟨.queryByJobId jobId, .ok ((k, r) :: its)⟩ :: post ∧
        finishedJob r = some (s, stored) ∧ Answers req k s stored v1 post) ∧
    (out = .gaveUp none → k₀ = none ∧
      ∀ its, (⟨.queryByJobId jobId, .ok its⟩ : Event sig) ∈ tr → its = []) := by
  induction n generalizing x tr i k₀ with
  | zero =>
    obtain ⟨rfl, ho, _⟩ := ends_ret_iff.1 h
    cases ho
    exact ⟨fun v1 hv => (by cases hv), fun hk => ⟨by cases hk; rfl, fun its hm => (by cases hm)⟩⟩
  | succ n ih =>
    unfold pollLoop at h
    split at h
    · obtain ⟨rfl, ho, _⟩ := ends_ret_iff.1 h
      cases ho
      exact ⟨fun v1 hv => (by cases hv), fun hk => ⟨by cases hk; rfl, fun its hm => (by cases hm)⟩⟩
    obtain ⟨seen, w₁, tr₁, tr₂, h₁, h₂, rfl⟩ := ends_bind_ok h
    have hlook := ends_look h₁
    -- a later round has seen what it says, after this one
    have hlater : ∀ {tr₃ k₁ w₂}, Ends P w₂ (pollLoop env jobId req n (i + 1) k₁) tr₃ (.ok out) x' →
        ∀ v1, out = .answered v1 → ∀ tr₀ : List (Event sig), ∃ pre k r its s stored post,
          tr₀ ++ tr₃ = pre ++ ⟨.queryByJobId jobId, .ok ((k, r) :: its)⟩ :: post ∧
            finishedJob r = some (s, stored) ∧ Answers req k s stored v1 post := by
      intro tr₃ k₁ w₂ h₃ v1 hv tr₀
      obtain ⟨pre, k, r, its, s, stored, post, rfl, hfin, hans⟩ := (ih h₃).1 v1 hv
      exact ⟨tr₀ ++ pre, k, r, its, s, stored, post, by rw [List.append_assoc], hfin, hans⟩
    cases seen with
    | nil =>
      refine ⟨fun v1 hv => hlater h₂ v1 hv tr₁, fun hk => ?_⟩
      obtain ⟨rfl, hnone⟩ := (ih h₂).2 hk
      refine ⟨rfl, fun its hm => ?_⟩
      rcases List.mem_append.1 hm with hm | hm
      · rcases hlook with rfl | ⟨_, e, rfl⟩
        · cases List.mem_singleton.1 hm
          rfl
        · cases List.mem_singleton.1 hm
      · exact hnone its hm
    | cons kr its =>
      obtain ⟨k, r⟩ := kr
      obtain rfl : tr₁ = [⟨.queryByJobId jobId, .ok ((k, r) :: its)⟩] :=
        hlook.resolve_right fun hno => by cases hno.1
      dsimp only at h₂
      cases hfin : finishedJob r with
      | none =>
        rw [hfin] at h₂
        refine ⟨fun v1 hv => hlater h₂ v1 hv _, fun hk => ?_⟩
        cases ((ih h₂).2 hk).1
      | some ss =>
        obtain ⟨s, stored⟩ := ss
        rw [hfin] at h₂
        obtain ⟨answer, w₃, tr₃, tr₄, h₃, h₄, rfl⟩ := ends_bind_ok h₂
        cases answer with
        | none =>
          dsimp only at h₄
          refine ⟨fun v1 hv => ?_, fun hk => ?_⟩
          · rw [← List.append_assoc]
            exact hlater h₄ v1 hv _
          · cases ((ih h₄).2 hk).1
        | some v =>
          obtain ⟨rfl, ho, _⟩ := ends_ret_iff.1 h₄
          cases ho
          refine ⟨fun v1 hv => ?_, fun hk => (by cases hk)⟩
          cases hv
          refine ⟨[], k, r, its, s, stored, tr₃, by rw [List.append_nil]; rfl, hfin, ?_⟩
          rcases ends_tryCatch_iff.1 h₃ with ⟨a, ha, hok⟩ | ⟨e, w₄, tr₅, tr₆, _, hret, _⟩
          · cases ha
            obtain ⟨b, w₅, tr₇, tr₈, h₅, h₆, rfl⟩ := ends_bind_ok hok
            obtain ⟨rfl, hb, _⟩ := ends_ret_iff.1 h₆
            cases hb
            rw [List.append_nil]
            exact ends_finishedResponse h₅
          · cases hret

end

/-! ## The verdict -/

section
variable {seen : Exc → Prop} {k : String}

theorem blames_getDdbRecord (k : String) : Blames seen (getDdbRecord k) := blames_perform _

theorem blames_calculateBdaProcessingTimes (k : String) (t : Timestamp) :
    Blames seen (calculateBdaProcessingTimes k t) := by
  unfold calculateBdaProcessingTimes
  refine blames_bind (blames_getDdbRecord k) fun r => ?_
  cases r <;> trivial

theorem blames_completionTime (now : Timestamp) (uri : Option String) :
    Blames seen (completionTime now uri) := by
  unfold completionTime
  split
  · trivial
  · exact blames_tryCatch fun _ => trivial

theorem blames_buildTimingUpdates (k : String) (s : ProcessStatus) (uri : Option String) :
    Blames seen (buildTimingUpdates k s uri) := by
  unfold buildTimingUpdates
  split
  · refine blames_bind (blames_perform _) fun now => blames_bind ?_ fun _ => trivial
    exact blames_tryCatch fun _ => trivial
  split
  · unfold buildCompletionTiming
    refine blames_bind (blames_getDdbRecord k) fun r => ?_
    cases r with
    | none => trivial
    | some r =>
      dsimp only
      split
      · trivial
      · refine blames_bind (blames_perform _) fun now => blames_bind (blames_completionTime ..) fun t => ?_
        exact blames_bind (blames_calculateBdaProcessingTimes ..) fun _ => trivial
  · trivial

theorem blames_updateDdb (env : EnvConfig) (u : UpdateDdbRecord) (c : Option Cond) :
    Blames seen (updateDdb env u c) := by
  unfold updateDdb
  refine blames_bind (blames_perform _) fun now => blames_bind (blames_buildTimingUpdates ..) fun t => ?_
  refine blames_bind (blames_perform _) fun _ => ?_
  split
  · exact blames_tryCatch fun _ => trivial
  · trivial

end

def Op.isConditional : Op → Bool
  | .updateItem _ u    => u.cond.isSome
  | .putBatch ..       => true
  | .updateBatch _ u   => u.cond.isSome
  | .updateCount _ _ u => u.cond.isSome
  | _                  => false

/-- DynamoDB fails the condition check of requests that have a condition only. -/
def ConditionsChecked (tr : List (Event sig)) : Prop :=
  ∀ op, (⟨op, .error (.clientError .conditionalCheckFailedException)⟩ : Event sig) ∈ tr →
    op.isConditional = true

theorem not_isConditional_of_isQuiet {op : Op} (h : op.isQuiet = true) : op.isConditional = false := by
  cases op <;> first | rfl | cases h

section
variable {P : Effect.Sys sig} {x x' : P.World} {env : EnvConfig} {u : UpdateDdbRecord}
  {tr : List (Event sig)}

/-- The status write went through. -/
theorem ends_landed (h : Ends P x (writeStatusUnlessTerminal env u) tr (.ok true) x') :
    ∃ now timing, TimingActions timing ∧
      (⟨.updateItem u.objectKey (updateRequest env now u timing (some nonTerminalCondition)), .ok ()⟩ :
        Event sig) ∈ tr := by
  rcases ends_tryCatch_iff.1 h with ⟨a, ha, h⟩ | ⟨e, w₁, tr₁, tr₂, _, h₂, _⟩
  · obtain ⟨_, w₂, tr₁, tr₂, h₁, h₂, rfl⟩ := ends_bind_ok h
    unfold updateDdb at h₁
    obtain ⟨now, w₃, tr₃, tr₄, _, h₄, rfl⟩ := ends_bind_ok h₁
    obtain ⟨timing, w₄, tr₅, tr₆, h₅, h₆, rfl⟩ := ends_bind_ok h₄
    obtain ⟨_, w₅, tr₇, tr₈, h₇, _, rfl⟩ := ends_bind_ok h₆
    obtain ⟨ch, _, rfl⟩ := ends_perform_iff.1 h₇
    refine ⟨now, timing, Effect.ends_of_spec (spec_buildTimingUpdates ..) h₅, ?_⟩
    exact List.mem_append_left _ (List.mem_append_right _ (List.mem_append_right _ List.mem_cons_self))
  · split at h₂
    · obtain ⟨_, hb, _⟩ := ends_ret_iff.1 h₂
      cases hb
    · cases h₂

/-- The record was terminal already: the status write was made all the same. -/
theorem ends_refused (h : Ends P x (writeStatusUnlessTerminal env u) tr (.ok false) x')
    (hchecked : ConditionsChecked tr) : ∃ ev ∈ tr, IsUpdateOf env u (some nonTerminalCondition) ev.op := by
  rcases ends_tryCatch_iff.1 h with ⟨a, ha, h⟩ | ⟨e, w₁, tr₁, tr₂, h₁, h₂, rfl⟩
  · obtain ⟨_, w₂, tr₁, tr₂, _, h₂, _⟩ := ends_bind_ok h
    obtain ⟨_, hb, _⟩ := ends_ret_iff.1 h₂
    cases hb
    cases ha
  · split at h₂
    next he =>
      subst he
      rcases ends_bind_iff.1 h₁ with ⟨e, he, h₁⟩ | ⟨a, w₃, tr₃, tr₄, _, h₄, _⟩
      · cases he
        have hblames : (updateDdb env u (some nonTerminalCondition)).Blames fun _ => False :=
          blames_updateDdb env u _
        obtain hs | ⟨op, hop⟩ := h₁.blamed hblames
        · exact hs.elim
        have hcond := hchecked op (List.mem_append_left _ hop)
        refine ⟨_, List.mem_append_left _ hop, ?_⟩
        rcases h₁.ops (does_updateDdb env u _) _ hop with hq | hu
        · rw [not_isConditional_of_isQuiet hq] at hcond
          cases hcond
        · exact hu
      · cases h₄
    · cases h₂

end

/-! ## The calls of the verdict, in the log -/

/-- Up to the status write. -/
def Leading (k : String) (op : Op) : Prop :=
  op.isElsewhere = true ∨ ∃ u : DocUpdate, op = .updateItem k u ∧ u.cond = some nonTerminalCondition ∧
    Writes u (some .failed) none none

/-- After it. -/
def Trailing (k : String) (op : Op) : Prop :=
  op.isElsewhere = true ∨ ∃ v1 : V1ApiResponse, op = .updateItem k (responseRequest v1)

theorem leading_of_updateOf {env : EnvConfig} {u : UpdateDdbRecord} {op : Op} (hs : u.status = .failed)
    (h : IsUpdateOf env u (some nonTerminalCondition) op) : Leading u.objectKey op := by
  obtain ⟨now, timing, ht, rfl⟩ := h
  exact .inr ⟨_, rfl, rfl, hs ▸ writes_updateRequest ht⟩

theorem jobId_responseRequest {v1 : V1ApiResponse} {old new : Record}
    (h : (responseRequest v1).apply old = .ok new) : new .jobId = old .jobId := by
  have htargets : Dynamo.Targets (T := DocumentMetadata.schema) (· ≠ .jobId)
      (responseRequest v1).actions := targets_set (by decide) (targets_setOpt (by decide) _)
  exact Dynamo.Update.apply_frame h htargets

theorem leading_writeStatusUnlessTerminal (env : EnvConfig) {u : UpdateDdbRecord}
    (hs : u.status = .failed) : All (Leading u.objectKey) (writeStatusUnlessTerminal env u) := by
  unfold writeStatusUnlessTerminal
  have hupdate : All (Leading u.objectKey) (updateDdb env u (some nonTerminalCondition)) :=
    Effect.Prog.All.mono (fun _ ho => ho.elim (fun hq => .inl (elsewhere_of_isQuiet hq).1)
      (leading_of_updateOf hs)) (does_updateDdb env u _)
  exact spec_tryCatch (all_bind hupdate fun _ => trivial) fun _ => spec_ite trivial trivial

section
variable {e : LogEntry} {k j : String}

theorem told_of_docs (h : e.after.docs = e.before.docs) :
    (e.after.record j).told = (e.before.record j).told := by
  rw [record_congr h]

theorem docs_of_elsewhere (hv : e.Valid) (h : e.event.op.isElsewhere = true) :
    e.after.docs = e.before.docs := by
  obtain ⟨ch, hx⟩ := hv
  exact (exec_frame hx).docs h

/-- An update in the log changed nothing, or its record alone. -/
theorem valid_update {u : DocUpdate} (hv : e.Valid) (hop : e.event.op = .updateItem k u) :
    e.after = e.before ∨
      ∃ new, u.apply (e.before.record k) = .ok new ∧ e.after = e.before.setRecord k new := by
  obtain ⟨own, before, ⟨op, ans⟩, after⟩ := e
  obtain ⟨ch, hx⟩ := hv
  dsimp only at hop hx
  subst hop
  rcases exec_updateItem hx with ⟨_, _, h⟩ | ⟨new, _, _, hnew, h⟩
  · exact .inl h
  · exact .inr ⟨new, hnew, h⟩

theorem landed_of_ok {u : DocUpdate} (hv : e.Valid) (hev : e.event = ⟨.updateItem k u, .ok ()⟩) :
    ∃ new, u.apply (e.before.record k) = .ok new := by
  obtain ⟨own, before, event, after⟩ := e
  obtain ⟨ch, hx⟩ := hv
  dsimp only at hev hx
  subst hev
  rcases exec_updateItem hx with ⟨_, he, _⟩ | ⟨new, _, _, hnew, _⟩
  · cases he
  · exact ⟨new, hnew⟩

theorem not_classified_of_landed {u : DocUpdate} {new : Record} {old : Record}
    (hc : u.cond = some nonTerminalCondition) (h : u.apply old = .ok new) : ¬ old.Classified := by
  have hcond := (Dynamo.Update.apply_eq_ok h).1
  rw [hc] at hcond
  exact (nonTerminalCondition_eval old).1 hcond

/-- The calls of the poll add no other verdict. -/
theorem unsettled_of_own {jobId : String} (hv : e.Valid)
    (hop : Leading k e.event.op ∨ Trailing k e.event.op) (h : ¬ e.before.SettledOtherwise jobId) :
    ¬ e.after.SettledOtherwise jobId := by
  rintro ⟨j, hj, s, hs, hclass, hne⟩
  have hsame : e.after.record j ≠ e.before.record j := fun heq =>
    h ⟨j, by rw [← heq]; exact hj, s, by rw [← heq]; exact hs, hclass, hne⟩
  -- only an update of the record itself is left
  have hupdate : ∀ u : DocUpdate, e.event.op = .updateItem k u → ∃ new,
      u.apply (e.before.record j) = .ok new ∧ e.after.record j = new := by
    intro u hu
    rcases valid_update hv hu with heq | ⟨new, hnew, heq⟩
    · rw [heq] at hsame
      exact absurd rfl hsame
    · by_cases hjk : j = k
      · subst hjk
        exact ⟨new, hnew, by rw [heq, record_setRecord_self]⟩
      · rw [heq, record_setRecord_ne _ _ hjk] at hsame
        exact absurd rfl hsame
  have helse : e.event.op.isElsewhere ≠ true := fun helse =>
    hsame (record_congr (docs_of_elsewhere hv helse) j)
  rcases hop with (hop | ⟨u, hu, _, hw⟩) | (hop | ⟨v1, hu⟩)
  · exact helse hop
  · obtain ⟨new, hnew, heq⟩ := hupdate u hu
    have hfailed := hw.status_eq hnew
    rw [← heq, hs] at hfailed
    exact hne (Option.some.inj hfailed)
  · exact helse hop
  · obtain ⟨new, hnew, heq⟩ := hupdate _ hu
    have hstatus := (writes_responseRequest v1).status_eq hnew
    have hjob := jobId_responseRequest hnew
    rw [← heq] at hstatus hjob
    refine h ⟨j, ?_, s, ?_, hclass, hne⟩
    · exact hjob.symm.trans hj
    · exact hstatus.symm.trans hs

end

section
variable {x x' : World × List LogEntry} {env : EnvConfig} {k msg : String} {data : ClassificationData}
  {tr : List (Event sig)} {r : Except Exc Unit}

/-- **The log of the verdict**: what follows the status write follows one that has landed. -/
theorem log_classifyAsFailed
    (h : Ends (Effect.Sys.among system) x (classifyAsFailed env k msg data none) tr r x') :
    ∃ l₁ l₂ w, x'.2 = x.2 ++ (l₁ ++ l₂) ∧ Chain x.1 l₁ w ∧ Chain w l₂ x'.1 ∧
      OwnOps (Leading k) l₁ ∧ OwnOps (Trailing k) l₂ ∧ ownEvents (l₁ ++ l₂) = tr ∧
      (l₂ = [] ∨ ∃ e ∈ l₁, IsVerdictOn e k ∧ ¬ (e.before.record k).Classified) ∧
      (r = .ok () → ConditionsChecked tr → ∃ e ∈ l₁, IsVerdictOn e k) := by
  let record (response : InternalApiResponse) : UpdateDdbRecord :=
    { objectKey := k, status := .failed, internalApiResponse := some response
      errorMessage := some msg, data := some data }
  let write := (getInternalApiResponse k .internalProcessingError none).bind fun response =>
    (writeStatusUnlessTerminal env (record response)).bind fun applied => .ret (response, applied)
  let rest (a : InternalApiResponse × Bool) : Prog Unit :=
    if a.2 then do
      finalizeV1Response env k .failed (some data) (some msg)
      incrementIfBatch none
      writeMethodResponse env (record a.1) none none
    else pure ()
  have hsplit : classifyAsFailed env k msg data none = write.bind rest := by
    simp only [write, Effect.Prog.bind_assoc]
    rfl
  have hwrite : All (Leading k) write := by
    have hreads : All (Leading k) (getInternalApiResponse k .internalProcessingError none) :=
      Effect.Prog.All.mono (fun _ ho => .inl (elsewhere_of_isQuiet (isQuiet_of_isRead ho)).1)
        (reads_getInternalApiResponse ..)
    exact all_bind hreads fun response =>
      all_bind (leading_writeStatusUnlessTerminal env (u := record response) rfl) fun _ => trivial
  have hrest : ∀ a, All (Trailing k) (rest a) := by
    intro a
    refine spec_ite (all_bind (Effect.Prog.All.mono (fun op ho => ?_)
      (does_finalizeV1Response ..)) fun _ => trivial) trivial
    rcases ho with hq | ⟨v1, _, rfl⟩
    · exact .inl (elsewhere_of_isQuiet hq).1
    · exact .inr ⟨v1, rfl⟩
  rw [hsplit] at h
  rcases ends_bind_iff.1 h with ⟨e, rfl, h₁⟩ | ⟨⟨response, applied⟩, w₁, tr₁, tr₂, h₁, h₂, rfl⟩
  · obtain ⟨l, hl, hchain, hown, hev⟩ := h₁.log hwrite
    refine ⟨l, [], x'.1, by rw [List.append_nil]; exact hl, hchain, rfl, hown, ?_, ?_, .inl rfl, ?_⟩
    · exact fun _ he => by cases he
    · rw [List.append_nil]
      exact hev
    · exact fun hr => by cases hr
  obtain ⟨l₁, hl₁, hchain₁, hown₁, rfl⟩ := h₁.log hwrite
  obtain ⟨l₂, hl₂, hchain₂, hown₂, rfl⟩ := h₂.log (hrest _)
  refine ⟨l₁, l₂, w₁.1, by rw [hl₂, hl₁, List.append_assoc], hchain₁, hchain₂, hown₁, hown₂,
    Effect.ownEvents_append, ?_, ?_⟩
  all_goals
    obtain ⟨resp', w₃, tr₃, tr₄, _, h₄, htr⟩ := ends_bind_ok h₁
    obtain ⟨applied', w₄, tr₅, tr₆, h₅, h₆, rfl⟩ := ends_bind_ok h₄
    obtain ⟨rfl, ha, _⟩ := ends_ret_iff.1 h₆
    cases ha
  · cases applied with
    | false =>
      obtain ⟨_, _, rfl⟩ := ends_ret_iff.1 h₂
      exact .inl (List.append_right_eq_self.1 hl₂.symm)
    | true =>
      obtain ⟨now, timing, ht, hm⟩ := ends_landed h₅
      have hm := List.mem_append_right tr₃ (List.mem_append_left [] hm)
      rw [← htr] at hm
      obtain ⟨e, he, hown, hev⟩ := mem_ownEvents.1 hm
      refine .inr ⟨e, he, ⟨hown, _, by rw [hev], (writes_updateRequest ht).status⟩, ?_⟩
      obtain ⟨new, hnew⟩ := landed_of_ok (hchain₁.valid e he) hev
      exact not_classified_of_landed rfl hnew
  · intro _ hchecked
    cases applied with
    | false =>
      have hchecked₅ : ConditionsChecked tr₅ := fun op hm => hchecked op (List.mem_append_left _ (by
        rw [htr]
        exact List.mem_append_right tr₃ (List.mem_append_left [] hm)))
      obtain ⟨ev, hm, now, timing, ht, hop⟩ := ends_refused h₅ hchecked₅
      have hm := List.mem_append_right tr₃ (List.mem_append_left [] hm)
      rw [← htr] at hm
      obtain ⟨e, he, hown, rfl⟩ := mem_ownEvents.1 hm
      exact ⟨e, he, hown, _, hop, (writes_updateRequest ht).status⟩
    | true =>
      obtain ⟨now, timing, ht, hm⟩ := ends_landed h₅
      have hm := List.mem_append_right tr₃ (List.mem_append_left [] hm)
      rw [← htr] at hm
      obtain ⟨e, he, hown, hev⟩ := mem_ownEvents.1 hm
      exact ⟨e, he, hown, _, by rw [hev], (writes_updateRequest ht).status⟩

end

section
variable {e : LogEntry} {jobId k : String}

/-- A look changes nothing, and finds the records of the job. -/
theorem look_of_valid {its : List (String × Record)} (hv : e.Valid)
    (hev : e.event = ⟨.queryByJobId jobId, .ok its⟩) :
    e.after = e.before ∧ (e.before.docs.query fun (it : Record) => it.jobId == some jobId) = its := by
  obtain ⟨own, before, event, after⟩ := e
  obtain ⟨ch, hx⟩ := hv
  dsimp only at hev hx ⊢
  subst hev
  obtain ⟨hquery, hafter⟩ := Prod.mk.inj (Option.some.inj (exec_of_ok hx))
  exact ⟨hafter.symm, Except.ok.inj hquery⟩

theorem seen_of_look {its : List (String × Record)} {r : Record} (hv : e.Valid)
    (hev : e.event = ⟨.queryByJobId jobId, .ok ((k, r) :: its)⟩) :
    e.before.record k = r ∧ r.jobId = some jobId := by
  obtain ⟨_, hquery⟩ := look_of_valid hv hev
  obtain ⟨hitem, hjob⟩ := Dynamo.Table.mem_query.1 (hquery ▸ List.mem_cons_self)
  exact ⟨by rw [World.record, hitem, Option.getD_some], by simpa using hjob⟩

theorem unsettled_of_emptyLook (hv : e.Valid) (hev : e.event = ⟨.queryByJobId jobId, .ok []⟩) :
    ¬ e.after.SettledOtherwise jobId := by
  obtain ⟨hafter, hquery⟩ := look_of_valid hv hev
  rw [hafter]
  rintro ⟨j, hj, _⟩
  cases hitem : e.before.docs.item j with
  | none =>
    rw [World.record, hitem] at hj
    cases hj
  | some r =>
    rw [World.record, hitem, Option.getD_some] at hj
    have hmem : (j, r) ∈ e.before.docs.query fun (it : Record) => it.jobId == some jobId :=
      Dynamo.Table.mem_query.2 ⟨hitem, by simpa using hj⟩
    rw [hquery] at hmem
    cases hmem

theorem read_of_valid {r : Record} (hv : e.Valid) (hev : e.event = ⟨.getItem k, .ok (some r)⟩) :
    e.before.record k = r := by
  obtain ⟨own, before, event, after⟩ := e
  obtain ⟨ch, hx⟩ := hv
  dsimp only at hev hx ⊢
  subst hev
  obtain ⟨hitem, _⟩ := Prod.mk.inj (Option.some.inj (exec_of_ok hx))
  rw [World.record, Except.ok.inj hitem, Option.getD_some]

end

theorem stored_of_finished {r : Record} {s : ProcessStatus} {stored : V1ApiResponse}
    (h : finishedJob r = some (s, stored)) : r.v1ApiResponseJson = some stored := by
  unfold finishedJob at h
  split at h
  next s' v1 hs hv1 =>
    split at h
    · cases h
      exact hv1
    · cases h
  next => cases h

/-! ## A whole poll -/

/-- The log of a poll: the loop, the verdict up to its status write, the rest of the verdict. -/
structure Phases (k : String) (w w' : World) (l₀ l₁ l₂ : List LogEntry) : Prop where
  chain   : Chain w (l₀ ++ (l₁ ++ l₂)) w'
  looks   : OwnOps (fun (op : Op) => op.isRead = true) l₀
  leads   : OwnOps (Leading k) l₁
  trails  : OwnOps (Trailing k) l₂
  landed  : l₂ = [] ∨ ∃ e ∈ l₁, IsVerdictOn e k ∧ ¬ (e.before.record k).Classified

section
variable {env : EnvConfig} {k jobId : String} {req : PollRequest} {w w' : World}
  {l₀ l₁ l₂ : List LogEntry} {r : Except Exc PollAnswer}

theorem Phases.ownOps (h : Phases k w w' l₀ l₁ l₂) :
    ∀ e ∈ l₀ ++ (l₁ ++ l₂), e.own = true → Leading k e.event.op ∨ Trailing k e.event.op := by
  intro e he ho
  rcases List.mem_append.1 he with he | he
  · exact .inl (.inl (elsewhere_of_isQuiet (isQuiet_of_isRead (h.looks e he ho))).1)
  rcases List.mem_append.1 he with he | he
  · exact .inl (h.leads e he ho)
  · exact .inr (h.trails e he ho)

/-- What the calls of others leave unsettled stays so: the poll's own ones add no other verdict. -/
theorem Phases.unsettled_of_others (h : Phases k w w' l₀ l₁ l₂) {b : List LogEntry} {w₁ w₂ : World}
    (hmem : ∀ e ∈ b, e ∈ l₀ ++ (l₁ ++ l₂)) (hb : Chain w₁ b w₂)
    (hothers : ∀ o ∈ b, o.own = false →
      ¬ o.before.SettledOtherwise jobId → ¬ o.after.SettledOtherwise jobId)
    (hw : ¬ w₁.SettledOtherwise jobId) : ¬ w₂.SettledOtherwise jobId := by
  refine hb.keeps (I := fun w : World => ¬ w.SettledOtherwise jobId) (fun e he hev hbefore => ?_) hw
  cases ho : e.own with
  | true => exact unsettled_of_own hev (h.ownOps e (hmem e he) ho) hbefore
  | false => exact hothers e he ho hbefore

/-- From a verdict on, no record of the job is settled otherwise. -/
theorem Phases.unsettled_after (h : Phases k w w' l₀ l₁ l₂)
    (hm : PollMeets env jobId req w (l₀ ++ (l₁ ++ l₂))) {a b c : List LogEntry} {v : LogEntry}
    {w₁ : World} (hl : l₀ ++ (l₁ ++ l₂) = a ++ v :: (b ++ c)) (hv : IsVerdict v)
    (hb : Chain v.after b w₁) : ¬ w₁.SettledOtherwise jobId := by
  have hvm : v ∈ l₀ ++ (l₁ ++ l₂) := hl ▸ List.mem_append_right _ List.mem_cons_self
  refine h.unsettled_of_others (fun e he => ?_) hb (fun o ho => ?_) ?_
  · rw [hl]
    exact List.mem_append_right _ (List.mem_cons_of_mem _ (List.mem_append_left _ he))
  · exact hm.kept a v (b ++ c) hl hv o (List.mem_append_left _ ho)
  · obtain ⟨j, hj⟩ := hv
    exact unsettled_of_own (h.chain.valid v hvm) (h.ownOps v hvm hj.1) (hm.unsettled v hvm ⟨j, hj⟩)

/-- A poll that is left unsettled ends so. -/
theorem Phases.unsettled_of_left (h : Phases k w w' l₀ l₁ l₂)
    (hleft : LeftUnsettled jobId w (l₀ ++ (l₁ ++ l₂))) : ¬ w'.SettledOtherwise jobId := by
  obtain ⟨a, b, hl, hstart, hothers⟩ := hleft
  have hchain := h.chain
  have hvalid := h.chain.valid
  rw [hl] at hchain hvalid
  obtain ⟨w₁, ha, hb⟩ := chain_append.1 hchain
  refine h.unsettled_of_others (fun e he => ?_) hb hothers ?_
  · rw [hl]
    exact List.mem_append_right _ he
  rcases hstart with ⟨rfl, hw⟩ | ⟨a', e, rfl, hev⟩
  · exact ha ▸ hw
  · obtain ⟨_, _, rfl, _, rfl⟩ := chain_append.1 ha
    exact unsettled_of_emptyLook
      (hvalid e (List.mem_append_left _ (List.mem_append_right _ List.mem_cons_self))) hev

/-- The answer of a finished document is still the stored one when the document is read again. -/
theorem Phases.plain (h : Phases k w w' l₀ l₁ l₂)
    (hm : PollMeets env jobId req w (l₀ ++ (l₁ ++ l₂))) (hdata : req.includeExtractedData = true)
    {a b : List LogEntry} {e : LogEntry} {j : String} {rec r' : Record}
    {its : List (String × Record)} {s : ProcessStatus} {stored : V1ApiResponse}
    {tr : List (Event sig)} (hl : l₀ ++ (l₁ ++ l₂) = a ++ e :: b) (ho : e.own = true)
    (hev : e.event = ⟨.queryByJobId jobId, .ok ((j, rec) :: its)⟩)
    (hfin : finishedJob rec = some (s, stored))
    (hread : ownEvents b = ⟨.getItem j, .ok (some r')⟩ :: tr) : plainAnswer r' s = some stored := by
  obtain ⟨m, e', c, rfl, hothers, _, hev', _⟩ := ownEvents_cons hread
  have hchain := h.chain
  rw [hl] at hchain
  have hvalid := hchain.valid
  have he' : e' ∈ a ++ e :: (m ++ e' :: c) :=
    List.mem_append_right _ (List.mem_cons_of_mem _ (List.mem_append_right _ List.mem_cons_self))
  obtain ⟨_, _, rfl, hev₁, hrest⟩ := chain_append.1 hchain
  obtain ⟨_, hbetween, rfl, _⟩ := chain_append.1 hrest
  obtain ⟨hafter, _⟩ := look_of_valid hev₁ hev
  obtain ⟨hrec, _⟩ := seen_of_look hev₁ hev
  have hr' : e'.before.record j = r' := read_of_valid (hvalid e' he') hev'
  have hsame : ∀ x ∈ answerAttrs, r' x = rec x := by
    intro x hx
    have hkept : e'.before.record j x = e.after.record j x := by
      refine hbetween.keeps (I := fun w : World => w.record j x = e.after.record j x)
        (fun o hmo _ hbefore => ?_) rfl
      exact (hm.steady hdata a e m e' c hl j rec ⟨its, hev⟩ (by rw [hfin]; rfl) (by rw [hev']) o hmo
        (hothers o hmo) x hx).trans hbefore
    rw [← hr', hkept, hafter, hrec]
  obtain ⟨hs, info, error, rule, rfl, hrebuilds⟩ := hm.data hdata e
    (hl ▸ List.mem_append_right _ List.mem_cons_self) ho j rec s stored ⟨its, hev⟩ hfin
  exact (plainAnswer_congr hsame).trans (plainAnswer_of_rebuilds hs hrebuilds)

theorem Phases.written (h : Phases k w w' l₀ l₁ l₂)
    (hm : PollMeets env jobId req w (l₀ ++ (l₁ ++ l₂))) :
    ∀ e ∈ l₀ ++ (l₁ ++ l₂), e.own = true → ∀ j, (e.before.record j).jobId = some jobId →
      (e.before.record j).SettledOtherwise →
        (e.after.record j).told = (e.before.record j).told := by
  intro e he ho j hj hsettled
  have hv := h.chain.valid e he
  have hself : e.event.op.isElsewhere = true →
      (e.after.record j).told = (e.before.record j).told :=
    fun hop => told_of_docs (docs_of_elsewhere hv hop)
  rcases List.mem_append.1 he with hl | hl
  · exact hself (elsewhere_of_isQuiet (isQuiet_of_isRead (h.looks e hl ho))).1
  rcases List.mem_append.1 hl with hl₁ | hl₂
  · rcases h.leads e hl₁ ho with hop | ⟨u, hu, _, hw⟩
    · exact hself hop
    · exact absurd ⟨j, hj, hsettled⟩ (hm.unsettled e he ⟨k, ho, u, hu, hw.status⟩)
  · rcases h.landed with rfl | ⟨v, hv₁, hverdict, _⟩
    · cases hl₂
    -- the answer is stored after a verdict
    obtain ⟨a, b, rfl⟩ := List.append_of_mem hv₁
    obtain ⟨c, d, rfl⟩ := List.append_of_mem hl₂
    have hlist : l₀ ++ ((a ++ v :: b) ++ (c ++ e :: d)) = (l₀ ++ a) ++ v :: ((b ++ c) ++ e :: d) := by
      simp only [List.append_assoc, List.cons_append]
    have hchain := h.chain
    rw [hlist] at hchain
    obtain ⟨w₁, _, rfl, _, hrest⟩ := chain_append.1 hchain
    obtain ⟨w₂, hbc, rfl, _⟩ := chain_append.1 hrest
    exact absurd ⟨j, hj, hsettled⟩ (h.unsettled_after hm hlist ⟨k, hverdict⟩ hbc)

theorem Phases.gone (h : Phases k w w' l₀ l₁ l₂)
    (hm : PollMeets env jobId req w (l₀ ++ (l₁ ++ l₂))) (hleaves : req.leaves = true) :
    ∀ e ∈ l₀ ++ (l₁ ++ l₂), e.own = true → ∀ j,
      (e.after.record j).told = (e.before.record j).told := by
  intro e he ho j
  have hv := h.chain.valid e he
  rcases List.mem_append.1 he with hl | hl
  · exact told_of_docs (docs_of_elsewhere hv
      (elsewhere_of_isQuiet (isQuiet_of_isRead (h.looks e hl ho))).1)
  rcases List.mem_append.1 hl with hl₁ | hl₂
  · rcases h.leads e hl₁ ho with hop | ⟨u, hu, hc, hw⟩
    · exact told_of_docs (docs_of_elsewhere hv hop)
    · rcases valid_update hv hu with heq | ⟨new, hnew, _⟩
      · rw [heq]
      · exact absurd (hm.late hleaves e he k ⟨ho, u, hu, hw.status⟩) (not_classified_of_landed hc hnew)
  · rcases h.landed with rfl | ⟨v, hv₁, hverdict, hnot⟩
    · cases hl₂
    · exact absurd (hm.late hleaves v (List.mem_append_right _ (List.mem_append_left _ hv₁)) k hverdict)
        hnot

theorem Phases.reported (h : Phases k w w' l₀ l₁ l₂)
    (hm : PollMeets env jobId req w (l₀ ++ (l₁ ++ l₂)))
    (hv : (∃ e ∈ l₁, IsVerdictOn e k) ∨
      ∀ its, (⟨.queryByJobId jobId, .ok its⟩ : Event sig) ∈ ownEvents (l₀ ++ (l₁ ++ l₂)) → its = []) :
    ¬ w'.SettledOtherwise jobId := by
  rcases hv with ⟨v, hv₁, hverdict⟩ | hnone
  · obtain ⟨a, b, rfl⟩ := List.append_of_mem hv₁
    have hlist : l₀ ++ ((a ++ v :: b) ++ l₂) = (l₀ ++ a) ++ v :: ((b ++ l₂) ++ []) := by
      simp only [List.append_assoc, List.cons_append, List.append_nil]
    have hchain := h.chain
    rw [hlist, List.append_nil] at hchain
    obtain ⟨w₁, _, rfl, _, hrest⟩ := chain_append.1 hchain
    exact h.unsettled_after hm hlist ⟨k, hverdict⟩ hrest
  · exact h.unsettled_of_left (hm.unseen hnone)

end

section
variable {env : EnvConfig} {jobId : String} {req : PollRequest} {w : World}
  {x' : World × List LogEntry} {tr : List (Event sig)} {r : Except Exc PollAnswer}

theorem phases_of_loop {k : String} {l : List LogEntry} {w' : World} (hchain : Chain w l w')
    (hown : OwnOps (fun (op : Op) => op.isRead = true) l) : Phases k w w' l [] [] where
  chain  := by
    rw [List.append_nil, List.append_nil]
    exact hchain
  looks  := hown
  leads  := fun _ he => by cases he
  trails := fun _ he => by cases he
  landed := .inl rfl

theorem phases_pollForCompletion
    (h : Ends (Effect.Sys.among system) (w, []) (pollForCompletion env jobId req) tr r x') :
    ∃ k l₀ l₁ l₂, x'.2 = l₀ ++ (l₁ ++ l₂) ∧ ownEvents x'.2 = tr ∧ Phases k w x'.1 l₀ l₁ l₂ ∧
      (∀ v1, r = .ok (.fromV1 v1) → ∃ pre k rec its s stored post,
        tr = pre ++ ⟨.queryByJobId jobId, .ok ((k, rec) :: its)⟩ :: post ∧
          finishedJob rec = some (s, stored) ∧ Answers req k s stored v1 post) ∧
      (r = .ok .timeout → ConditionsChecked tr → (∃ e ∈ l₁, IsVerdictOn e k) ∨
        ∀ its, (⟨.queryByJobId jobId, .ok its⟩ : Event sig) ∈ tr → its = []) := by
  rcases ends_bind_iff.1 h with ⟨e, rfl, h₁⟩ | ⟨out, y, tr₁, tr₂, h₁, h₂, rfl⟩
  · obtain ⟨l, hl, hchain, hown, hev⟩ := h₁.log (reads_pollLoop ..)
    rw [List.nil_append] at hl
    refine ⟨"", l, [], [], by rw [hl, List.append_nil, List.append_nil], by rw [hl, hev],
      phases_of_loop hchain hown, fun v1 hv => (by cases hv), fun hr => (by cases hr)⟩
  obtain ⟨l₀, hl₀, hchain₀, hown₀, rfl⟩ := h₁.log (reads_pollLoop ..)
  obtain ⟨hanswered, hgaveUp⟩ := ends_pollLoop h₁
  rw [List.nil_append] at hl₀
  cases out with
  | answered v =>
    obtain ⟨rfl, hr, rfl⟩ := ends_ret_iff.1 h₂
    subst hr
    refine ⟨"", l₀, [], [], by rw [hl₀, List.append_nil, List.append_nil],
      by rw [hl₀, List.append_nil], phases_of_loop hchain₀ hown₀, fun v1 hv => ?_,
      fun hr => (by cases hr)⟩
    cases hv
    rw [List.append_nil]
    exact hanswered v rfl
  | gaveUp o =>
    cases o with
    | none =>
      obtain ⟨rfl, hr, rfl⟩ := ends_ret_iff.1 h₂
      subst hr
      refine ⟨"", l₀, [], [], by rw [hl₀, List.append_nil, List.append_nil],
        by rw [hl₀, List.append_nil], phases_of_loop hchain₀ hown₀, fun v1 hv => (by cases hv),
        fun _ _ => .inr ?_⟩
      rw [List.append_nil]
      exact (hgaveUp rfl).2
    | some k =>
      -- the classification, then the timeout response
      obtain ⟨data, r', h₃, hok⟩ : ∃ data r', Ends (Effect.Sys.among system) y
          (classifyAsFailed env k "Processing timeout" data none) tr₂ r' x' ∧
          (r = .ok .timeout → r' = .ok ()) := by
        rcases ends_bind_iff.1 h₂ with ⟨e, rfl, h₃⟩ | ⟨_, x₁, tr₃, tr₄, h₃, h₄, rfl⟩
        · exact ⟨_, .error e, h₃, fun hr => (by cases hr)⟩
        · obtain ⟨rfl, _, rfl⟩ := ends_ret_iff.1 h₄
          rw [List.append_nil]
          exact ⟨_, .ok (), h₃, fun _ => rfl⟩
      obtain ⟨l₁, l₂, w₁, hl, hchain₁, hchain₂, hown₁, hown₂, hev, hlanded, hverdict⟩ :=
        log_classifyAsFailed h₃
      refine ⟨k, l₀, l₁, l₂, by rw [hl, hl₀], ?_, ⟨?_, hown₀, hown₁, hown₂, hlanded⟩, ?_, ?_⟩
      · rw [hl, hl₀, Effect.ownEvents_append, hev]
      · exact chain_append.2 ⟨_, hchain₀, chain_append.2 ⟨w₁, hchain₁, hchain₂⟩⟩
      · intro v1 hv
        rcases ends_bind_iff.1 h₂ with ⟨e, he, _⟩ | ⟨_, _, _, _, _, h₄, _⟩
        · rw [hv] at he
          cases he
        · obtain ⟨_, hr, _⟩ := ends_ret_iff.1 h₄
          rw [hv] at hr
          cases hr
      · intro hr hchecked
        exact .inl (hverdict (hok hr) fun op hm => hchecked op (List.mem_append_right _ hm))

/-- **The synchronous answer agrees with the record**: in every run among other handlers that meets
no defect, the client is told what is stored, no other verdict is overwritten or denied, and a client
that leaves changes nothing. -/
theorem poll_agrees
    (h : Ends (Effect.Sys.among system) (w, []) (pollForCompletion env jobId req) tr r x')
    (hchecked : ConditionsChecked tr) (hm : PollMeets env jobId req w x'.2) :
    PollAgrees jobId req x'.2 r x'.1 := by
  obtain ⟨k, l₀, l₁, l₂, hl, hev, hphases, hanswered, htimeout⟩ := phases_pollForCompletion h
  rw [hl] at hm hev ⊢
  refine ⟨fun v1 hv => ?_, hphases.written hm, fun hr => hphases.reported hm ?_, hphases.gone hm⟩
  · obtain ⟨pre, k, rec, its, s, stored, post, htr, hfin, hans⟩ := hanswered v1 hv
    obtain ⟨a, c, hac, _, hc⟩ := ownEvents_split (hev.trans htr)
    obtain ⟨m, e, b, rfl, _, ho, hevent, rfl⟩ := ownEvents_cons hc
    have hlog : l₀ ++ (l₁ ++ l₂) = (a ++ m) ++ e :: b := by rw [hac, List.append_assoc]
    have he : e ∈ l₀ ++ (l₁ ++ l₂) := hlog ▸ List.mem_append_right _ List.mem_cons_self
    obtain ⟨hseen, hjob⟩ := seen_of_look (hphases.chain.valid e he) hevent
    have hv1 : v1 = stored := by
      rcases hans with ⟨_, _, rfl⟩ | ⟨hdata, r', tr', hpost, ha⟩
      · rfl
      · exact ha stored (hphases.plain hm hdata hlog ho hevent hfin hpost)
    subst hv1
    refine ⟨e, he, ho, by rw [hevent], k, ?_, ?_⟩
    · rw [hseen]
      exact hjob
    · rw [hseen]
      exact stored_of_finished hfin
  · rw [hev]
    exact htimeout hr hchecked

end

/-! ## Two runs -/

def finishedAnswer : V1ApiResponse :=
  { jobId := some "1", jobStatus := .completed, message := some "Document processed successfully" }

/-- The classifier's write and its answer. -/
def finish : Op :=
  .updateItem "scan-1.pdf"
    { actions := [.set .processStatus ProcessStatus.success, .set .v1ApiResponseJson finishedAnswer] }

/-- Two looks, with the end of the processing between them. -/
def twoLooks : List (Effect.Sys.among system).Choice := [([], {}), ([(finish, {})], {})]

def polled (req : PollRequest) (chs : List (Effect.Sys.among system).Choice) :
    Option (List (Event sig) × Prog PollAnswer × World × List LogEntry) :=
  Effect.follow (Effect.Sys.among system) (sampleWorld, []) (pollForCompletion sampleEnv "1" req) chs

def succeeds : Event sig → Bool
  | ⟨_, .ok _⟩    => true
  | ⟨_, .error _⟩ => false

theorem checked_of_succeeds {tr : List (Event sig)} (h : tr.all succeeds = true) :
    ConditionsChecked tr := by
  intro op hm
  cases List.all_eq_true.1 h _ hm

/-- A look that finds a record. -/
def seesRecord : Event sig → Bool
  | ⟨.queryByJobId jobId, .ok (_ :: _)⟩ => jobId == "1"
  | _                                   => false

/-- All calls succeed, the poll's own ones are no updates, and one of its looks finds a record. -/
def watches (tr : List (Event sig)) (l : List LogEntry) : Bool :=
  tr.all succeeds && l.all (fun e => !e.own || e.event.op.isElsewhere) && (ownEvents l).any seesRecord

theorem meets_of_watches {req : PollRequest} {tr : List (Event sig)} {l : List LogEntry} {w : World}
    (hdata : req.includeExtractedData = false) (hstays : req.leaves = false)
    (h : watches tr l = true) : ConditionsChecked tr ∧ PollMeets sampleEnv "1" req w l := by
  simp only [watches, Bool.and_eq_true] at h
  obtain ⟨⟨hok, hown⟩, hfinds⟩ := h
  have hno : ∀ e ∈ l, ¬ IsVerdict e := by
    rintro e he ⟨k, ho, u, hu, _⟩
    have helse := List.all_eq_true.1 hown e he
    rw [ho, hu] at helse
    cases helse
  refine ⟨checked_of_succeeds hok,
    ⟨fun hd => ?_, fun hd => ?_, fun e he hv => absurd hv (hno e he), ?_, ?_, ?_⟩⟩
  · rw [hdata] at hd
    cases hd
  · rw [hdata] at hd
    cases hd
  · rintro l₁ e l₂ rfl hv
    exact absurd hv (hno e (List.mem_append_right _ List.mem_cons_self))
  · intro hnone
    obtain ⟨ev, hev, hf⟩ := List.any_eq_true.1 hfinds
    unfold seesRecord at hf
    split at hf
    next jobId r its =>
      obtain rfl : jobId = "1" := by simpa using hf
      cases hnone _ hev
    next => cases hf
  · intro hl
    rw [hstays] at hl
    cases hl

def patient : PollRequest := { timeout := 10 }

/-- The document is finished between two looks. -/
theorem poll_agrees_twoLooks : ∃ tr x', Ends (Effect.Sys.among system) (sampleWorld, [])
    (pollForCompletion sampleEnv "1" patient) tr (.ok (.fromV1 finishedAnswer)) x' ∧
    PollAgrees "1" patient x'.2 (.ok (.fromV1 finishedAnswer)) x'.1 := by
  obtain ⟨tr, x', hf⟩ : ∃ tr x', polled patient twoLooks =
    some (tr, .ret (.fromV1 finishedAnswer), x') := ⟨_, _, rfl⟩
  have hends := Effect.steps_of_follow hf
  have hwatches : (polled patient twoLooks).any (fun t => watches t.1 t.2.2.2) = true := by
    decide +kernel
  rw [hf] at hwatches
  have hmeets : ConditionsChecked tr ∧ PollMeets sampleEnv "1" patient sampleWorld x'.2 :=
    meets_of_watches rfl rfl hwatches
  exact ⟨tr, x', hends, poll_agrees hends hmeets.1 hmeets.2⟩

/-- The client leaves after the first look. -/
def leaving : PollRequest := { timeout := 10, disconnect := some 1 }

/-- An own call that changes the status of the record. -/
def restatuses (k : String) (e : LogEntry) : Bool :=
  e.own && decide ((e.after.record k).status ≠ (e.before.record k).status)

set_option maxRecDepth 10000 in
/-- The record of a document that is still processed is marked `FAILED` when its client leaves. -/
theorem poll_disagrees : ¬ ∀ env jobId req w tr r x',
    Ends (Effect.Sys.among system) (w, []) (pollForCompletion env jobId req) tr r x' →
      ConditionsChecked tr → PollAgrees jobId req x'.2 r x'.1 := by
  intro hall
  have hrun : (polled leaving (List.replicate 7 ([], {}))).any (fun t => t.2.1.result.isSome &&
      t.1.all succeeds && t.2.2.2.any (restatuses "scan-1.pdf")) = true := by decide +kernel
  obtain ⟨⟨tr, q, x'⟩, hf, hsome⟩ := (Option.any_eq_true ..).1 hrun
  simp only [Bool.and_eq_true] at hsome
  obtain ⟨⟨hresult, hok⟩, hany⟩ := hsome
  obtain ⟨r, hr⟩ := Option.isSome_iff_exists.1 hresult
  obtain rfl : q = .ofExcept r := Effect.Prog.eq_ofExcept hr
  have hagrees := hall _ _ _ _ _ _ _ (Effect.steps_of_follow hf) (checked_of_succeeds hok)
  obtain ⟨e, he, hrest⟩ := List.any_eq_true.1 hany
  simp only [restatuses, Bool.and_eq_true, decide_eq_true_eq] at hrest
  exact hrest.2 (congrArg Prod.fst (hagrees.gone rfl e he hrest.1 "scan-1.pdf"))

end DocumentAi
