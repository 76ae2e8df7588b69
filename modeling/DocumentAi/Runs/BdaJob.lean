import DocumentAi.Footprint.Exec
import DocumentAi.Lib.Sequential
import DocumentAi.Runs.TerminalStatus

/-!
# Is the started BDA job the one on the record?

`_invoke_bda` starts a job and records its id inside one retried block
(`jobs/document_processor/main.py:243-290`): a retryable failure of the second step runs the first
one again.

| here | meaning |
| --- | --- |
| `startedJobs tr`   | the BDA jobs that the calls `tr` have started |
| `jobIdWrite u`     | the job id a request records |
| `losesJob ev`      | the store refuses to record a job id |
| `JobFree op`       | the request neither starts a job nor records one |
| `JobOutcome k w tr w'` | what the block can have come to: no job, one recorded job, a lost job |
| `jobOnRecord_iff`  | one job, and on the record, iff no recording failed |
-/

namespace DocumentAi

open Dynamo (Targets targets_append targets_nil SetsOnly lastSet lastSet_eq_none)
open Effect (Event Ends Steps ends_bind_iff ends_tryCatch_iff ends_perform_iff ends_ret_iff ends_raise_iff)
open Effect.Prog (Spec All all_bind spec_ite spec_tryCatch)

def startedJob : Event sig → Option BdaJob
  | ⟨.ai (.invokeDataAutomationAsync _ _ i o), .ok arn⟩ => some ⟨arn, i, o⟩
  | _ => none

def startedJobs (tr : List (Event sig)) : List BdaJob := tr.filterMap startedJob

/-- The job id a request sets. -/
def jobIdWrite (u : DocUpdate) : Option String :=
  lastSet (T := DocumentMetadata.schema) .bdaInvocationId u.actions

/-- A store update that records a job id fails. -/
def losesJob : Event sig → Bool
  | ⟨.updateItem _ u, .error _⟩ => (jobIdWrite u).isSome
  | _ => false

def losesAnyJob (tr : List (Event sig)) : Bool := tr.any losesJob

@[simp] theorem startedJobs_nil : startedJobs [] = [] := rfl

@[simp] theorem startedJobs_append (xs ys : List (Event sig)) :
    startedJobs (xs ++ ys) = startedJobs xs ++ startedJobs ys := List.filterMap_append

@[simp] theorem losesAnyJob_nil : losesAnyJob [] = false := rfl

@[simp] theorem losesAnyJob_append (xs ys : List (Event sig)) :
    losesAnyJob (xs ++ ys) = (losesAnyJob xs || losesAnyJob ys) := List.any_append

/-! ## What a request writes as the job id -/

abbrev NoJobId (xs : List Action) : Prop :=
  Targets (T := DocumentMetadata.schema) (· ≠ .bdaInvocationId) xs

/-- The actions set the job id plainly, last to `v`. -/
structure WritesJobId (xs : List Action) (v : Option String) : Prop where
  plain : SetsOnly (T := DocumentMetadata.schema) .bdaInvocationId xs
  last  : lastSet (T := DocumentMetadata.schema) .bdaInvocationId xs = v

section
variable {xs ys : List Action} {v : Option String}

theorem NoJobId.writes (h : NoJobId xs) : WritesJobId xs none :=
  ⟨Dynamo.setsOnly_of_targets h, lastSet_eq_none h⟩

theorem WritesJobId.append (hx : WritesJobId xs v) (hy : NoJobId ys) :
    WritesJobId (xs ++ ys) v :=
  ⟨(Dynamo.setsOnly_append (T := DocumentMetadata.schema)).2
      ⟨hx.plain, Dynamo.setsOnly_of_targets hy⟩,
    (lastSet_peel hy).trans hx.last⟩

theorem WritesJobId.after (hx : NoJobId xs) (hy : WritesJobId ys v) :
    WritesJobId (xs ++ ys) v := by
  refine ⟨(Dynamo.setsOnly_append (T := DocumentMetadata.schema)).2
    ⟨Dynamo.setsOnly_of_targets hx, hy.plain⟩, ?_⟩
  rw [Dynamo.lastSet_append (T := DocumentMetadata.schema), hy.last, lastSet_eq_none hx]
  cases v <;> rfl

theorem WritesJobId.bdaInvocationId_eq {u : DocUpdate} {old new : Record}
    (hu : WritesJobId u.actions v) (h : u.apply old = .ok new) :
    new.bdaInvocationId = v.or old.bdaInvocationId := by
  have := Dynamo.Update.apply_setsOnly h hu.plain
  rwa [hu.last] at this

end

theorem noJobId_classificationActions (env : EnvConfig) (d : ClassificationData) :
    NoJobId (classificationActions env d) := by
  unfold classificationActions
  refine targets_append.2 ⟨targets_append.2 ⟨?_, ?_⟩, targets_setOpt (by decide) _⟩
  · repeat refine targets_append.2 ⟨?_, targets_setOpt (by decide) _⟩
    exact targets_setOpt (by decide) _
  · exact targets_set (by decide) (targets_set (by decide) targets_nil)

/-- `update_ddb` records the id of the ARN it is given, if any. -/
theorem writesJobId_buildUpdateExpression (env : EnvConfig) (now : Timestamp)
    (u : UpdateDdbRecord) :
    WritesJobId (buildUpdateExpression env now u)
      ((truthy u.bdaInvocationArn).map invocationId) := by
  unfold buildUpdateExpression
  repeat refine WritesJobId.append ?_ (targets_setOpt (by decide) _)
  refine WritesJobId.append (WritesJobId.append ?_ (targets_setOpt (by decide) _))
    (targets_ite (targets_set (by decide) targets_nil) targets_nil)
  refine WritesJobId.append (WritesJobId.append ?_ (targets_setOpt (by decide) _))
    (targets_ite (targets_set (by decide) targets_nil) targets_nil)
  refine WritesJobId.after (targets_append.2 ⟨targets_append.2 ⟨?_, ?_⟩, ?_⟩) ?_
  · exact targets_set (by decide) (targets_set (by decide) targets_nil)
  · cases u.data with
    | none => exact targets_nil
    | some d => exact noJobId_classificationActions env d
  · split
    · exact targets_set (by decide) (targets_set (by decide) targets_nil)
    · exact targets_nil
  · split
    next arn h =>
      rw [h]
      refine ⟨?_, ?_⟩
      · have hrest : SetsOnly (T := DocumentMetadata.schema) .bdaInvocationId
            [.set .bdaRegionUsed (bdaRegion arn), .set .extractionMethod u.extractionMethod] :=
          Dynamo.setsOnly_of_targets (targets_set (by decide) (targets_set (by decide) targets_nil))
        intro x hx
        rcases List.mem_cons.1 hx with rfl | hx
        · exact fun e => by cases e
        · rcases List.mem_cons.1 hx with rfl | hx
          · exact fun _ => rfl
          · exact hrest x hx
      · rfl
    next h => exact h ▸ NoJobId.writes targets_nil

theorem writesJobId_updateRequest (env : EnvConfig) (now : Timestamp) (data : UpdateDdbRecord)
    {timing : List Action} (c : Option Cond) (ht : TimingActions timing) :
    WritesJobId (updateRequest env now data timing c).actions
      ((truthy data.bdaInvocationArn).map invocationId) :=
  (writesJobId_buildUpdateExpression env now data).append
    (ht.targets.mono fun _ ha e => untracked_of_timing ha (e ▸ by decide))

/-! ## Requests that neither start nor record a job -/

def JobFree : Op → Prop
  | .ai (.invokeDataAutomationAsync ..) => False
  | .updateItem _ u => WritesJobId u.actions none
  | _ => True

def SameJobIds (w w' : World) : Prop :=
  ∀ k, (w'.record k).bdaInvocationId = (w.record k).bdaInvocationId

theorem SameJobIds.refl (w : World) : SameJobIds w w := fun _ => rfl

theorem SameJobIds.trans {w w₁ w' : World} (h : SameJobIds w w₁) (h' : SameJobIds w₁ w') :
    SameJobIds w w' := fun k => (h' k).trans (h k)

theorem SameJobIds.of_docs {w w' : World} (h : w'.docs = w.docs) : SameJobIds w w' :=
  fun k => by rw [record_congr h]

theorem exec_jobFree {w w' : World} {op : Op} {ch : Choice} {ans : sig.Ans op} (h : JobFree op)
    (hx : World.exec w op ch = some (ans, w')) :
    startedJob ⟨op, ans⟩ = none ∧ losesJob ⟨op, ans⟩ = false ∧ SameJobIds w w' := by
  by_cases hop : op.isElsewhere = true
  · refine ⟨?_, ?_, .of_docs ((exec_frame hx).docs hop)⟩
    · cases op with
      | ai c => cases c <;> first | rfl | exact h.elim
      | _ => rfl
    · cases op with
      | updateItem k u => cases hop
      | _ => rfl
  · cases op with
    | updateItem k u =>
      have hnone : WritesJobId u.actions none := h
      refine ⟨rfl, ?_, ?_⟩
      · cases ans with
        | ok _ => rfl
        | error e => simp [losesJob, jobIdWrite, hnone.last]
      · rcases exec_updateItem hx with ⟨e, _, rfl⟩ | ⟨new, rfl, _, hnew, rfl⟩
        · exact .refl _
        · intro j
          by_cases hj : j = k
          · subst hj
            rw [record_setRecord_self]
            exact hnone.bdaInvocationId_eq hnew
          · rw [record_setRecord_ne _ _ hj]
    | _ => exact absurd rfl hop

/-- A run without such requests. -/
structure Idle (w : World) (tr : List (Event sig)) (w' : World) : Prop where
  started : startedJobs tr = []
  lost    : losesAnyJob tr = false
  same    : SameJobIds w w'

theorem Idle.trans {w w₁ w' : World} {tr tr' : List (Event sig)} (h : Idle w tr w₁) (h' : Idle w₁ tr' w') :
    Idle w (tr ++ tr') w' :=
  ⟨by simp [h.started, h'.started], by simp [h.lost, h'.lost], h.same.trans h'.same⟩

theorem idle_of_jobFree {α : Type} {p q : Prog α} {w w' : World} {tr : List (Event sig)}
    (hp : All JobFree p) (h : Steps system w p tr q w') : Idle w tr w' := by
  refine h.relate (R := Idle) (fun w => ⟨rfl, rfl, .refl w⟩) ?_ hp
  intro w w₁ w' op ch ans tr hop hx h'
  obtain ⟨hs, hl, hsame⟩ := exec_jobFree hop hx
  refine ⟨?_, ?_, hsame.trans h'.same⟩
  · rw [startedJobs, List.filterMap_cons_none hs]
    exact h'.started
  · rw [losesAnyJob, List.any_cons, hl, Bool.false_or]
    exact h'.lost

/-! ## Functions of the BDA path -/

theorem jobFree_of_isQuiet {op : Op} (h : op.isQuiet = true) : JobFree op := by
  cases op with
  | ai c => cases h
  | updateItem k u => cases h
  | _ => trivial

theorem Quiet.jobFree {α : Type} {p : Prog α} (hp : Quiet p) : All JobFree p :=
  Effect.Prog.All.mono (fun _ => jobFree_of_isQuiet) hp

theorem Does.jobFree {α : Type} {φ : Op → Prop} {p : Prog α} (hp : Does φ p)
    (h : ∀ op, φ op → JobFree op) : All JobFree p :=
  Effect.Prog.All.mono (fun op ho => ho.elim jobFree_of_isQuiet (h op)) hp

theorem jobFree_isBatchWrite {op : Op} (h : IsBatchWrite op) : JobFree op := by
  cases op <;> trivial

theorem jobFree_isIncrement {op : Op} (h : IsIncrement op) : JobFree op :=
  jobFree_isBatchWrite h.isBatchWrite

theorem jobFree_isAside {k : String} {op : Op} (h : IsAside k op) : JobFree op := by
  obtain ⟨u, hu, rfl⟩ := h
  exact NoJobId.writes (hu.mono fun _ ha e => ha (e ▸ by decide))

theorem jobFree_isResponse {k : String} {s : ProcessStatus} {op : Op} (h : IsResponse k s op) :
    JobFree op := by
  obtain ⟨r, _, rfl⟩ := h
  exact NoJobId.writes (targets_set (by decide) (targets_setOpt (by decide) _))

theorem jobFree_isUpdateOf {env : EnvConfig} {data : UpdateDdbRecord} {c : Option Cond} {op : Op}
    (hd : data.bdaInvocationArn = none) (h : IsUpdateOf env data c op) : JobFree op := by
  obtain ⟨now, timing, ht, rfl⟩ := h
  have := writesJobId_updateRequest env now data c ht
  rwa [hd] at this

theorem jobFree_classifyWith (env : EnvConfig) (v : Verdict) (k : String)
    (d : Option ClassificationData) (b e : Option String) (t : Option Timestamp) :
    All JobFree (classifyWith env v k d b e t) := by
  have hmethod : ∀ record r m, All JobFree (writeMethodResponse env record r m) := fun record r m => by
    unfold writeMethodResponse
    split
    · trivial
    · exact (makes_writeExtractMethodResponse ..).does.jobFree fun _ h =>
        jobFree_isAside (h.aside (by decide))
  unfold classifyWith
  refine all_bind (reads_getInternalApiResponse ..).quiet.jobFree fun response => ?_
  unfold writeTerminalStatus
  refine spec_ite (hmethod _ _ _) (all_bind ?_ fun applied => spec_ite ?_ trivial)
  · unfold writeStatusUnlessTerminal
    refine spec_tryCatch (all_bind ((does_updateDdb ..).jobFree fun _ => jobFree_isUpdateOf rfl)
      fun _ => trivial) fun e => ?_
    exact spec_ite trivial trivial
  · refine all_bind ((does_finalizeV1Response ..).jobFree fun _ => jobFree_isResponse) fun _ => ?_
    refine all_bind ((makes_incrementIfBatch b).does.jobFree fun _ => jobFree_isIncrement) fun _ => ?_
    exact hmethod _ _ _

theorem jobFree_persistOptimizationMetrics (k : String) (c : CropResult) (g : Bool)
    (n : Option Nat) : All JobFree (persistOptimizationMetrics k c g n) := by
  unfold persistOptimizationMetrics
  have haside : Does (IsAside k) (executeDdbUpdate k (optimizationActions c g n)) :=
    does_executeDdbUpdate ⟨_, untracked_optimizationActions c g n, rfl⟩
  refine all_bind (haside.jobFree fun _ => jobFree_isAside) fun _ => ?_
  split
  · exact (makes_writeTokensByModel ..).does.jobFree fun _ h =>
      jobFree_isAside (h.aside (by decide))
  · trivial

theorem jobFree_optimizeS3Image (env : EnvConfig) (key : S3Key) (g : Bool) (b : Bytes)
    (c : String) (box : Option BboxResult) : All JobFree (optimizeS3Image env key g b c box) := by
  have hcall : ∀ op : Op, JobFree op → All JobFree (call op) := fun _ h => Effect.Prog.all_perform h
  unfold optimizeS3Image
  refine all_bind ?_ fun r => all_bind (spec_ite (hcall _ trivial) trivial) fun _ => trivial
  unfold bboxFor getBboxIfEnabled detectDocumentBbox
  refine spec_ite ?_ trivial
  split
  · trivial
  · refine spec_ite (all_bind (spec_tryCatch (all_bind (hcall _ trivial) fun _ => trivial)
      fun _ => trivial) fun _ => trivial) trivial

/-! ## The retried block -/

/-- Only the record of `k` gets a job id: that of `j`. -/
def RecordsJob (k : String) (j : BdaJob) (w w' : World) : Prop :=
  (w'.record k).bdaInvocationId = some (invocationId j.invocationArn) ∧
    ∀ i, i ≠ k → (w'.record i).bdaInvocationId = (w.record i).bdaInvocationId

/-- No job started, or one that is not on the record. -/
inductive Unrecorded (w : World) (tr : List (Event sig)) (w' : World) : Prop where
  | none (h : Idle w tr w')
  | lost (hl : losesAnyJob tr = true) (hs : startedJobs tr ≠ [])
      (h : SameJobIds w w' ∨ 2 ≤ (startedJobs tr).length)

/-- What a run of the block has done. -/
inductive JobOutcome (k : String) (w : World) (tr : List (Event sig)) (w' : World) : Prop where
  | unrecorded (h : Unrecorded w tr w')
  | recorded (j : BdaJob) (hs : startedJobs tr = [j]) (hl : losesAnyJob tr = false)
      (hr : RecordsJob k j w w')

section
variable {k : String} {w w₁ w' : World} {tr tr' : List (Event sig)}

/-- A job that follows a lost one is a second job. -/
theorem Unrecorded.trans (h : Unrecorded w tr w₁) (h' : JobOutcome k w₁ tr' w') :
    JobOutcome k w (tr ++ tr') w' := by
  cases h with
  | none h =>
    have hs : startedJobs (tr ++ tr') = startedJobs tr' := by simp [h.started]
    have hl : losesAnyJob (tr ++ tr') = losesAnyJob tr' := by simp [h.lost]
    rcases h' with ⟨h' | ⟨hl', hs', hw⟩⟩ | ⟨j, hs', hl', hr⟩
    · exact .unrecorded (.none (h.trans h'))
    · exact .unrecorded (.lost (hl.trans hl') (hs ▸ hs') (hs ▸ hw.imp_left h.same.trans))
    · exact .recorded j (hs.trans hs') (hl.trans hl')
        ⟨hr.1, fun i hi => (hr.2 i hi).trans (h.same i)⟩
  | lost hl hs h =>
    have hpos : 0 < (startedJobs tr).length := List.length_pos_iff.2 hs
    have hlost : losesAnyJob (tr ++ tr') = true := by simp [hl]
    have hne : startedJobs (tr ++ tr') ≠ [] := by simp [hs]
    have hlen : (startedJobs (tr ++ tr')).length =
        (startedJobs tr).length + (startedJobs tr').length := by simp
    refine .unrecorded (.lost hlost hne ?_)
    rcases h' with ⟨h' | ⟨_, hs', _⟩⟩ | ⟨j, hs', _, _⟩
    · exact h.imp (fun h => h.trans h'.same) fun h => by omega
    · have hpos' : 0 < (startedJobs tr').length := List.length_pos_iff.2 hs'
      exact .inr (by omega)
    · rw [hs', List.length_singleton] at hlen
      exact .inr (by omega)

theorem JobOutcome.idle (h : JobOutcome k w tr w₁) (h' : Idle w₁ tr' w') :
    JobOutcome k w (tr ++ tr') w' := by
  have hs : startedJobs (tr ++ tr') = startedJobs tr := by simp [h'.started]
  have hl : losesAnyJob (tr ++ tr') = losesAnyJob tr := by simp [h'.lost]
  rcases h with ⟨h | ⟨hl', hs', hw⟩⟩ | ⟨j, hs', hl', hr⟩
  · exact .unrecorded (.none (h.trans h'))
  · exact .unrecorded (.lost (hl.trans hl') (hs ▸ hs')
      (hs ▸ hw.imp_left fun h => h.trans h'.same))
  · exact .recorded j (hs.trans hs') (hl.trans hl')
      ⟨(h'.same k).trans hr.1, fun i hi => (h'.same i).trans (hr.2 i hi)⟩

end

/-! ## One attempt -/

section
variable {α β : Type} {k : String} {w w₁ w' : World} {tr tr' : List (Event sig)}

/-- A bind after a part without jobs. -/
theorem ends_idle_bind {p : Prog α} {f : α → Prog β} {r : Except Exc β} (hp : All JobFree p)
    (h : Ends system w (p.bind f) tr r w') :
    (∃ e, r = .error e ∧ Idle w tr w') ∨
      ∃ a w₁ tr₁ tr₂, Idle w tr₁ w₁ ∧ Ends system w p tr₁ (.ok a) w₁ ∧
        Ends system w₁ (f a) tr₂ r w' ∧ tr = tr₁ ++ tr₂ := by
  rcases ends_bind_iff.1 h with ⟨e, rfl, he⟩ | ⟨a, w₁, tr₁, tr₂, h₁, h₂, rfl⟩
  · exact .inl ⟨e, rfl, idle_of_jobFree hp he⟩
  · exact .inr ⟨a, w₁, tr₁, tr₂, idle_of_jobFree hp h₁, h₁, h₂, rfl⟩

/-- The first step: an exception, or a job of the returned ARN. -/
def Starts (w : World) (tr : List (Event sig)) (r : Except Exc BdaInvocation) (w' : World) : Prop :=
  (∃ e, r = .error e ∧ Idle w tr w') ∨
    ∃ inv j, r = .ok inv ∧ startedJobs tr = [j] ∧ losesAnyJob tr = false ∧ SameJobIds w w' ∧
      j.invocationArn = inv.arn

theorem Idle.starts {r : Except Exc BdaInvocation} (h : Idle w tr w₁) (h' : Starts w₁ tr' r w') :
    Starts w (tr ++ tr') r w' := by
  rcases h' with ⟨e, rfl, h'⟩ | ⟨inv, j, rfl, hs, hl, hw, hj⟩
  · exact .inl ⟨e, rfl, h.trans h'⟩
  · exact .inr ⟨inv, j, rfl, by simp [h.started, hs], by simp [h.lost, hl], h.same.trans hw, hj⟩

theorem starts_bind {p : Prog α} {f : α → Prog BdaInvocation} {r : Except Exc BdaInvocation}
    (hp : All JobFree p)
    (hf : ∀ a w₁ tr₁, Ends system w₁ (f a) tr₁ r w' → Starts w₁ tr₁ r w')
    (h : Ends system w (p.bind f) tr r w') : Starts w tr r w' := by
  rcases ends_idle_bind hp h with he | ⟨a, w₁, tr₁, tr₂, hi, _, h₂, rfl⟩
  · exact .inl he
  · exact hi.starts (hf a w₁ tr₂ h₂)

theorem jobFree_call {op : Op} (h : JobFree op) : All JobFree (call op) :=
  Effect.Prog.all_perform h

theorem jobFree_prepareBdaInput (env : EnvConfig) (bucket key : String) :
    All JobFree (prepareBdaInput env bucket key) := by
  unfold prepareBdaInput
  refine all_bind (jobFree_call trivial) fun obj => ?_
  split
  · trivial
  · refine spec_ite ?_ trivial
    exact all_bind (all_liftExcept _) fun _ => all_bind (jobFree_call trivial) fun _ => trivial

/-- The start call itself. -/
theorem starts_perform {p f i o : String} {g : String → BdaInvocation}
    {r : Except Exc BdaInvocation} (hg : ∀ arn, (g arn).arn = arn)
    (h : Ends system w ((call (.ai (.invokeDataAutomationAsync p f i o))).bind
      fun arn : String => .ret (g arn)) tr r w') : Starts w tr r w' := by
  rcases ends_bind_iff.1 h with ⟨e, rfl, he⟩ | ⟨arn, w₁, tr₁, tr₂, h₁, h₂, rfl⟩
  · obtain ⟨ch, hx, rfl⟩ := ends_perform_iff.1 he
    exact .inl ⟨e, rfl, rfl, rfl, .of_docs (by rw [exec_error hx])⟩
  · obtain ⟨ch, hx, rfl⟩ := ends_perform_iff.1 h₁
    obtain ⟨rfl, rfl, rfl⟩ := ends_ret_iff.1 h₂
    exact .inr ⟨g arn, ⟨arn, i, o⟩, rfl, rfl, rfl, .of_docs ((exec_frame hx).docs rfl),
      (hg arn).symm⟩

theorem starts_invokeBedrockDataAutomation {env : EnvConfig} {bucket key tenantId : String}
    {category : Option String} {r : Except Exc BdaInvocation}
    (h : Ends system w (invokeBedrockDataAutomation env bucket key tenantId k category) tr r w') :
    Starts w tr r w' := by
  refine starts_bind (all_liftExcept _) (fun arns w₁ tr₁ h₁ => ?_) h
  obtain ⟨projectArn, usedCategory⟩ := arns
  cases projectArn with
  | none =>
    obtain ⟨rfl, rfl, rfl⟩ := ends_raise_iff.1 h₁
    exact .inl ⟨_, rfl, rfl, rfl, .refl _⟩
  | some projectArn =>
    refine starts_bind (all_liftExcept _) (fun profileArn w₂ tr₂ h₂ => ?_) h₁
    refine starts_bind (all_liftExcept _) (fun location w₃ tr₃ h₃ => ?_) h₂
    refine starts_bind (all_liftExcept _) (fun outputUri w₄ tr₄ h₄ => ?_) h₃
    refine starts_bind (jobFree_prepareBdaInput ..) (fun input w₅ tr₅ h₅ => ?_) h₄
    exact starts_perform (g := fun arn => ⟨arn, projectArn, input.2, usedCategory⟩) (fun _ => rfl) h₅

theorem noRaise_now : Effect.NoRaise system (call .now) := by
  intro w tr e w' h
  obtain ⟨ch, hx, _⟩ := ends_perform_iff.1 h
  have hnow : World.exec w .now ch = w.run ch .now := by
    unfold World.exec
    split <;> rfl
  change World.exec w .now ch = _ at hx
  rw [hnow] at hx
  cases hx

theorem noRaise_buildTimingUpdates (k : String) (u : Option String) :
    Effect.NoRaise system (buildTimingUpdates k .started u) := by
  unfold buildTimingUpdates
  rw [if_pos rfl]
  refine Effect.noRaise_bind noRaise_now fun now => ?_
  refine Effect.noRaise_bind (Effect.noRaise_tryCatch fun _ => Effect.noRaise_ret _) fun wait => ?_
  exact Effect.noRaise_ret _

/-- The update records the id, or fails and loses it. -/
def Records (k id : String) (w : World) (tr : List (Event sig)) (r : Except Exc Unit) (w' : World) :
    Prop :=
  startedJobs tr = [] ∧
    ((r = .ok () ∧ losesAnyJob tr = false ∧ (w'.record k).bdaInvocationId = some id ∧
        ∀ i, i ≠ k → (w'.record i).bdaInvocationId = (w.record i).bdaInvocationId) ∨
      ∃ e, r = .error e ∧ losesAnyJob tr = true ∧ SameJobIds w w')

theorem Idle.records {id : String} {r : Except Exc Unit} (h : Idle w tr w₁)
    (h' : Records k id w₁ tr' r w') : Records k id w (tr ++ tr') r w' := by
  obtain ⟨hs, ⟨rfl, hl, hk, hi⟩ | ⟨e, rfl, hl, hw⟩⟩ := h'
  · exact ⟨by simp [h.started, hs], .inl ⟨rfl, by simp [h.lost, hl], hk,
      fun i hne => (hi i hne).trans (h.same i)⟩⟩
  · exact ⟨by simp [h.started, hs], .inr ⟨e, rfl, by simp [hl], h.same.trans hw⟩⟩

theorem records_perform {u : DocUpdate} {id : String} {r : Except Exc Unit}
    (hu : WritesJobId u.actions (some id)) (h : Ends system w (call (.updateItem k u)) tr r w') :
    Records k id w tr r w' := by
  obtain ⟨ch, hx, rfl⟩ := ends_perform_iff.1 h
  refine ⟨rfl, ?_⟩
  rcases exec_updateItem hx with ⟨e, rfl, rfl⟩ | ⟨new, rfl, _, hnew, rfl⟩
  · refine .inr ⟨e, rfl, ?_, .refl _⟩
    simp [losesAnyJob, losesJob, jobIdWrite, hu.last]
  · refine .inl ⟨rfl, rfl, ?_, fun i hi => by rw [record_setRecord_ne _ _ hi]⟩
    rw [record_setRecord_self]
    exact hu.bdaInvocationId_eq hnew

theorem records_setBdaProcessingStatusStarted {env : EnvConfig} {inv : BdaInvocation} {n : Nat}
    {r : Except Exc Unit} (harn : inv.arn ≠ "")
    (h : Ends system w (setBdaProcessingStatusStarted env k inv n) tr r w') :
    Records k (invocationId inv.arn) w tr r w' := by
  have hnow : All JobFree (call .now) := jobFree_call trivial
  rcases ends_bind_iff.1 h with ⟨e, _, he⟩ | ⟨now, w₁, tr₁, tr₂, h₁, h₂, rfl⟩
  · exact absurd he (noRaise_now _ _ _ _)
  refine (idle_of_jobFree hnow h₁).records ?_
  rcases ends_bind_iff.1 h₂ with ⟨e, _, he⟩ | ⟨timing, w₂, tr₃, tr₄, h₃, h₄, rfl⟩
  · exact absurd he (noRaise_buildTimingUpdates _ _ _ _ _ _)
  have ht : TimingActions timing := Effect.ends_of_spec (spec_buildTimingUpdates k .started none) h₃
  refine (idle_of_jobFree (Quiet.jobFree (Reads.quiet (spec_buildTimingUpdates k .started none).all)) h₃).records ?_
  have hwrites := writesJobId_updateRequest env now
    { objectKey := k
      status := .started
      bdaInvocationArn := some inv.arn
      bdaProjectArnUsed := some inv.projectArn
      usedCategorySpecificProject := inv.usedCategorySpecificProject
      pagesSentToBda := some inv.pagesSent
      bdaInvokeRetryCount := some n } none ht
  rw [show truthy (some inv.arn) = some inv.arn by simp [truthy, harn], Option.map_some] at hwrites
  -- `STARTED` is not classified: nothing follows the update
  rcases ends_bind_iff.1 h₄ with ⟨e, rfl, he⟩ | ⟨a, w₃, tr₅, tr₆, h₅, h₆, rfl⟩
  · exact records_perform hwrites he
  · rw [if_neg (by exact Bool.false_ne_true)] at h₆
    obtain ⟨rfl, rfl, rfl⟩ := ends_ret_iff.1 h₆
    rw [List.append_nil]
    exact records_perform hwrites h₅

/-- One attempt either records its job, or raises. -/
theorem ends_bdaAttempt {env : EnvConfig} {bucket key tenantId : String} {category : Option String}
    {n : Nat} {r : Except Exc Unit} (harn : ∀ j ∈ startedJobs tr, j.invocationArn ≠ "")
    (h : Ends system w (bdaAttempt env bucket key k tenantId category n) tr r w') :
    (r = .ok () ∧ JobOutcome k w tr w') ∨ ∃ e, r = .error e ∧ Unrecorded w tr w' := by
  rcases ends_bind_iff.1 h with ⟨e, rfl, he⟩ | ⟨inv, w₁, tr₁, tr₂, h₁, h₂, rfl⟩
  · rcases starts_invokeBedrockDataAutomation he with ⟨e', he', hi⟩ | ⟨inv, j, hr, _⟩
    · exact .inr ⟨e, rfl, .none hi⟩
    · cases hr
  · rcases starts_invokeBedrockDataAutomation h₁ with ⟨e', he', _⟩ | ⟨inv', j, hr, hs, hl, hw, hj⟩
    · cases he'
    · cases hr
      have hne : inv.arn ≠ "" := hj ▸ harn j (by simp [hs])
      obtain ⟨hs₂, ⟨rfl, hl₂, hrec, hother⟩ | ⟨e, rfl, hl₂, hw₂⟩⟩ :=
        records_setBdaProcessingStatusStarted hne h₂
      · refine .inl ⟨rfl, .recorded j (by simp [hs, hs₂]) (by simp [hl, hl₂]) ⟨hj ▸ hrec, ?_⟩⟩
        exact fun i hi => (hother i hi).trans (hw i)
      · exact .inr ⟨e, rfl, .lost (by simp [hl₂]) (by simp [hs]) (.inl (hw.trans hw₂))⟩

/-- An exception of an attempt leaves no job on the record. -/
theorem unrecorded_of_error {env : EnvConfig} {bucket key tenantId : String}
    {category : Option String} {n : Nat} {e : Exc} (harn : ∀ j ∈ startedJobs tr, j.invocationArn ≠ "")
    (h : Ends system w ((bdaAttempt env bucket key k tenantId category n).bind
      fun _ => .ret false) tr (.error e) w') : Unrecorded w tr w' := by
  rcases ends_bind_iff.1 h with ⟨_, _, he⟩ | ⟨a, w₁, tr₁, tr₂, _, h₂, _⟩
  · rcases ends_bdaAttempt harn he with ⟨hr, _⟩ | ⟨_, _, hu⟩
    · cases hr
    · exact hu
  · cases h₂

/-- The retry loop, by induction on the attempts that remain. -/
theorem jobOutcome_bdaAttempts {env : EnvConfig} {bucket key tenantId : String}
    {category : Option String} {m n : Nat} {r : Except Exc Unit}
    (harn : ∀ j ∈ startedJobs tr, j.invocationArn ≠ "")
    (h : Ends system w (bdaAttempts env bucket key k tenantId category m n) tr r w') :
    JobOutcome k w tr w' := by
  induction m generalizing w tr n with
  | zero =>
    rcases ends_tryCatch_iff.1 h with ⟨a, _, h₁⟩ | ⟨e, w₁, tr₁, tr₂, h₁, h₂, rfl⟩
    · rcases ends_bdaAttempt harn h₁ with ⟨_, ho⟩ | ⟨_, he, _⟩
      · exact ho
      · cases he
    · have harn₁ : ∀ j ∈ startedJobs tr₁, j.invocationArn ≠ "" := fun j hj =>
        harn j (by simp [hj])
      rcases ends_bdaAttempt harn₁ h₁ with ⟨he, _⟩ | ⟨_, _, hu⟩
      · cases he
      · refine (JobOutcome.unrecorded hu).idle (idle_of_jobFree ?_ h₂)
        exact spec_ite trivial trivial
  | succ m ih =>
    -- an exception that ends the loop, or the answer whether to go round again
    rcases ends_bind_iff.1 h with ⟨e, _, he⟩ | ⟨retry, w₁, tr₁, tr₂, h₁, h₂, rfl⟩
    · rcases ends_tryCatch_iff.1 he with ⟨_, hr, _⟩ | ⟨e', w₂, tr₃, tr₄, h₃, h₄, rfl⟩
      · cases hr
      · have harn₃ : ∀ j ∈ startedJobs tr₃, j.invocationArn ≠ "" := fun j hj => harn j (by simp [hj])
        refine (JobOutcome.unrecorded (unrecorded_of_error harn₃ h₃)).idle (idle_of_jobFree ?_ h₄)
        exact spec_ite trivial trivial
    · have harn₁ : ∀ j ∈ startedJobs tr₁, j.invocationArn ≠ "" := fun j hj => harn j (by simp [hj])
      have harn₂ : ∀ j ∈ startedJobs tr₂, j.invocationArn ≠ "" := fun j hj => harn j (by simp [hj])
      rcases ends_tryCatch_iff.1 h₁ with ⟨_, hr, h₃⟩ | ⟨e', w₂, tr₃, tr₄, h₃, h₄, rfl⟩
      · cases hr
        rcases ends_bind_iff.1 h₃ with ⟨_, hr, _⟩ | ⟨a, w₃, tr₅, tr₆, h₅, h₆, rfl⟩
        · cases hr
        · obtain ⟨rfl, hr, rfl⟩ := ends_ret_iff.1 h₆
          cases hr
          rw [List.append_nil] at harn₁ ⊢
          rcases ends_bdaAttempt harn₁ h₅ with ⟨_, ho⟩ | ⟨_, he, _⟩
          · exact ho.idle (idle_of_jobFree (p := .ret ()) trivial h₂)
          · cases he
      · have harn₃ : ∀ j ∈ startedJobs tr₃, j.invocationArn ≠ "" := fun j hj =>
          harn₁ j (by simp [hj])
        have hu := unrecorded_of_error harn₃ h₃
        have hidle : Idle w₂ tr₄ w₁ := by
          refine idle_of_jobFree ?_ h₄
          exact spec_ite trivial trivial
        rw [List.append_assoc]
        refine hu.trans (Unrecorded.trans (.none hidle) ?_)
        cases retry with
        | true => exact ih harn₂ h₂
        | false => exact .unrecorded (.none (idle_of_jobFree (p := .ret ()) trivial h₂))

theorem jobOutcome_invokeBda {env : EnvConfig} {bucket key tenantId : String}
    {category batchId : Option String} {r : Except Exc Unit}
    (harn : ∀ j ∈ startedJobs tr, j.invocationArn ≠ "")
    (h : Ends system w (invokeBda env bucket key k tenantId category batchId) tr r w') :
    JobOutcome k w tr w' := by
  rcases ends_tryCatch_iff.1 h with ⟨a, _, h₁⟩ | ⟨e, w₁, tr₁, tr₂, h₁, h₂, rfl⟩
  · exact jobOutcome_bdaAttempts harn h₁
  · have hout := jobOutcome_bdaAttempts (fun j hj => harn j (by simp [hj])) h₁
    refine hout.idle (idle_of_jobFree ?_ h₂)
    split
    · exact all_bind (jobFree_classifyWith ..) fun _ => trivial
    · trivial

/-- The image is prepared and the routing decided before; nothing else on the path has to do with
jobs. -/
theorem jobOutcome_invokeBdaPath {env : EnvConfig} {d : Dispatch} {r : Except Exc Unit}
    (harn : ∀ j ∈ startedJobs tr, j.invocationArn ≠ "")
    (h : Ends system w (invokeBdaPath env d) tr r w') : JobOutcome d.doc.ddbKey w tr w' := by
  have hclassify : ∀ v data b, All JobFree (classifyWith env v d.doc.ddbKey data b) := fun _ _ _ =>
    jobFree_classifyWith ..
  rcases ends_idle_bind (jobFree_optimizeS3Image ..) h with
    ⟨_, _, hi⟩ | ⟨opt, w₁, tr₁, tr₂, hi₁, _, h₁, rfl⟩
  · exact .unrecorded (.none hi)
  refine Unrecorded.trans (.none hi₁) ?_
  split at h₁
  · refine .unrecorded (.none (idle_of_jobFree ?_ h₁))
    exact all_bind (jobFree_persistOptimizationMetrics ..) fun _ => hclassify _ _ _
  rcases ends_idle_bind (jobFree_persistOptimizationMetrics ..) h₁ with
    ⟨_, _, hi⟩ | ⟨_, w₂, tr₃, tr₄, hi₂, _, h₂, rfl⟩
  · exact .unrecorded (.none hi)
  refine Unrecorded.trans (.none hi₂) ?_
  split at h₂
  · exact .unrecorded (.none (idle_of_jobFree (hclassify _ _ _) h₂))
  rcases ends_idle_bind (all_liftExcept _) h₂ with
    ⟨_, _, hi⟩ | ⟨arn, w₃, tr₅, tr₆, hi₃, _, h₃, rfl⟩
  · exact .unrecorded (.none hi)
  refine Unrecorded.trans (.none hi₃) ?_
  obtain ⟨projectArn, _⟩ := arn
  dsimp only at h₃
  split at h₃
  · exact .unrecorded (.none (idle_of_jobFree (hclassify _ _ _) h₃))
  · exact jobOutcome_invokeBda (fun j hj => harn j (by simp [hj])) h₃

end

/-! ## The job and its document -/

/-- The lookup of an output of the job `id`, wherever it is written, finds the record of `k`. -/
def FindsDocument (w : World) (id k : String) : Prop :=
  ∀ bucket pre rest, findUuids rest = [] →
    ∃ tr, Ends system w (getDdbRecordFromBdaOutput (bucket, pre ++ "/" ++ id ++ "/" ++ rest)) tr
      (.ok (some (k, w.record k))) w

/-- At most one job is started, it is the one on the record, and its output leads there. -/
def JobOnRecord (k : String) (tr : List (Event sig)) (w' : World) : Prop :=
  (startedJobs tr).length ≤ 1 ∧ ∀ j ∈ startedJobs tr,
    (w'.record k).bdaInvocationId = some (invocationId j.invocationArn) ∧
      FindsDocument w' (invocationId j.invocationArn) k

/-- The service names its jobs by fresh UUIDs: no record of `w` has one of them. -/
def FreshJobs (w : World) (tr : List (Event sig)) : Prop :=
  ∀ j ∈ startedJobs tr, IsUuid (invocationId j.invocationArn) ∧
    ∀ i, (w.record i).bdaInvocationId ≠ some (invocationId j.invocationArn)

theorem FreshJobs.arn_ne {w : World} {tr : List (Event sig)} (h : FreshJobs w tr) :
    ∀ j ∈ startedJobs tr, j.invocationArn ≠ "" := by
  intro j hj he
  have := (h j hj).1.1
  rw [he] at this
  exact absurd this (by decide)

/-- The only record with a job's id is the one the lookup finds. -/
theorem findsDocument_of_unique {w : World} {id k : String} (hid : IsUuid id)
    (hk : (w.record k).bdaInvocationId = some id)
    (hother : ∀ i, i ≠ k → (w.record i).bdaInvocationId ≠ some id) : FindsDocument w id k := by
  intro bucket pre rest hrest
  have hitem : w.docs.item k = some (w.record k) := by
    cases h : w.docs.item k with
    | some r => simp [World.record, h]
    | none => simp [World.record, h, Record.bdaInvocationId] at hk
  have huuids : (findUuids (s3Uri (bucket, pre ++ "/" ++ id ++ "/" ++ rest))).getLast? =
      some id := by
    have := findUuids_output ("s3://" ++ bucket ++ "/" ++ pre) hid hrest
    simpa only [s3Uri, String.append_assoc] using this
  have hmem : (k, w.record k) ∈ w.docs.query fun it : Record => it.bdaInvocationId == some id :=
    Dynamo.Table.mem_query.2 ⟨hitem, by simp [hk]⟩
  have honly : ∀ x ∈ w.docs.query fun it : Record => it.bdaInvocationId == some id,
      x = (k, w.record k) := by
    rintro ⟨i, it⟩ hx
    obtain ⟨hi, hit⟩ := Dynamo.Table.mem_query.1 hx
    have hrec : w.record i = it := by simp [World.record, hi]
    by_cases hik : i = k
    · subst hik; rw [hrec]
    · exact absurd (by rw [hrec]; exact eq_of_beq hit) (hother i hik)
  have hhead : (w.docs.query fun it : Record => it.bdaInvocationId == some id).head? =
      some (k, w.record k) := by
    cases hq : w.docs.query fun it : Record => it.bdaInvocationId == some id with
    | nil => rw [hq] at hmem; cases hmem
    | cons x xs => rw [hq] at honly; rw [List.head?_cons, honly x List.mem_cons_self]
  unfold getDdbRecordFromBdaOutput
  rw [huuids]
  have hquery : Ends system w (call (.queryByBdaInvocationId id)) _
      (.ok (w.docs.query fun it : Record => it.bdaInvocationId == some id)) w :=
    Effect.steps_perform (P := system) ({} : Choice) rfl
  refine ⟨_ ++ [], Steps.bind hquery ?_⟩
  rw [hhead]
  exact .refl

/-- **The path starts one job and keeps it on the record exactly when no update that records a job
id fails after the start.** -/
theorem jobOnRecord_iff (env : EnvConfig) (d : Dispatch) (w w' : World) (tr : List (Event sig))
    (r : Except Exc Unit) (h : Ends system w (invokeBdaPath env d) tr r w')
    (hfresh : FreshJobs w tr) :
    JobOnRecord d.doc.ddbKey tr w' ↔ losesAnyJob tr = false := by
  rcases jobOutcome_invokeBdaPath hfresh.arn_ne h with ⟨hi | ⟨hl, hs, hw⟩⟩ | ⟨j, hs, hl, hk, hother⟩
  · refine iff_of_true ⟨by simp [hi.started], fun j hj => ?_⟩ hi.lost
    rw [hi.started] at hj
    cases hj
  · refine iff_of_false (fun hjob => ?_) (by simp [hl])
    obtain ⟨j, hj⟩ := List.exists_mem_of_ne_nil _ hs
    rcases hw with hw | hw
    · exact (hfresh j hj).2 _ ((hw _).symm.trans (hjob.2 j hj).1)
    · exact absurd hjob.1 (by omega)
  · have hj : j ∈ startedJobs tr := by simp [hs]
    refine iff_of_true ⟨by simp [hs], fun j' hj' => ?_⟩ hl
    rw [hs, List.mem_singleton] at hj'
    subst hj'
    refine ⟨hk, findsDocument_of_unique (hfresh j' hj).1 hk fun i hi => ?_⟩
    rw [hother i hi]
    exact (hfresh j' hj).2 i

/-! ## A claimed document whose id the store refuses once -/

def claimedRecord : Record
  | .processStatus => some ProcessStatus.started
  | a              => sampleRecord a

def claimedWorld : World :=
  { sampleWorld with docs := Dynamo.Table.empty.put "scan-1.pdf" claimedRecord }

def sampleDispatch : Dispatch :=
  { doc :=
      { bucketName := "input"
        objectKey := "docs/acme/scan-1.pdf"
        ddbKey := "scan-1.pdf"
        originalFileName := "scan.pdf"
        contentType := "application/pdf"
        fileBytes := ascii "%PDF-1.7"
        category := none
        jobId := some "1"
        traceId := none
        batchId := none
        processorStartedAt := 0
        isColdStart := false }
    record := claimedRecord
    pre := none
    bbox := none
    tenantId := "acme"
    grayscale := false }

def firstJob : String := "de8464af-d53e-44dc-a9f7-ad5360530210"

def secondJob : String := "0b5c3f7e-2f0a-4b5e-9d0e-3f4c5d6e7f80"

/-- The service answers a start with an ARN of this job. -/
def starting (job : String) : Choice :=
  { ai := AiCall.plain ("arn:aws:bedrock:us-east-1:1:data-automation-invocation/" ++ job) }

theorem claimedWorld_bdaInvocationId (k : String) :
    (claimedWorld.record k).bdaInvocationId = none := by
  by_cases h : k = "scan-1.pdf"
  · subst h; rfl
  · simp only [World.record, claimedWorld, Dynamo.Table.put_item_ne _ _ h]
    rfl

theorem freshJobs_claimedWorld {tr : List (Event sig)} {ids : List String}
    (h : (startedJobs tr).map (fun j => invocationId j.invocationArn) = ids)
    (hids : ∀ id ∈ ids, IsUuid id) : FreshJobs claimedWorld tr := by
  intro j hj
  refine ⟨hids _ (h ▸ List.mem_map_of_mem hj), fun i => ?_⟩
  rw [claimedWorld_bdaInvocationId]
  exact Option.some_ne_none _ |>.symm

def jobIdsOf (tr : List (Event sig)) : List String :=
  (startedJobs tr).map fun j => invocationId j.invocationArn

/-- The calls of one attempt after the image metrics: the object, the start, the record update. -/
def recordedRun : List Choice := [{}, {}, starting firstJob, {}, {}, {}, {}, {}]

set_option maxRecDepth 10000 in
theorem jobOnRecord_recordedRun : ∃ tr r w',
    Ends system claimedWorld (invokeBdaPath sampleEnv sampleDispatch) tr r w' ∧
      JobOnRecord "scan-1.pdf" tr w' := by
  have hrun : (Effect.follow system claimedWorld (invokeBdaPath sampleEnv sampleDispatch)
      recordedRun).map (fun x => (x.2.1.result, jobIdsOf x.1, losesAnyJob x.1)) =
        some (some (.ok ()), [firstJob], false) := by decide +kernel
  obtain ⟨⟨tr, q, w'⟩, hf, hx⟩ := Option.map_eq_some_iff.1 hrun
  simp only [Prod.mk.injEq] at hx
  obtain ⟨hq, hids, hl⟩ := hx
  have hends := Effect.steps_of_follow hf
  rw [Effect.Prog.eq_ofExcept hq] at hends
  refine ⟨tr, .ok (), w', hends, (jobOnRecord_iff sampleEnv sampleDispatch claimedWorld w' tr _ hends
    (freshJobs_claimedWorld hids ?_)).2 hl⟩
  decide +kernel

/-- The update is throttled once: the second attempt starts a second job. -/
def throttledRun : List Choice :=
  [{}, {}, starting firstJob, {}, {}, {}, {}, { fail := some (.clientError .throttlingException) },
    {}, starting secondJob, {}, {}, {}, {}, {}]

set_option maxRecDepth 10000 in
/-- Two jobs run for one document, and the output of the first one leads to no record. -/
theorem jobOnRecord_fails : ¬ ∀ env d w w' tr r,
    Ends system w (invokeBdaPath env d) tr r w' → FreshJobs w tr →
      JobOnRecord d.doc.ddbKey tr w' := by
  intro hall
  have hrun : (Effect.follow system claimedWorld (invokeBdaPath sampleEnv sampleDispatch)
      throttledRun).map (fun x => (x.2.1.result, jobIdsOf x.1)) =
        some (some (.ok ()), [firstJob, secondJob]) := by decide +kernel
  obtain ⟨⟨tr, q, w'⟩, hf, hx⟩ := Option.map_eq_some_iff.1 hrun
  simp only [Prod.mk.injEq] at hx
  obtain ⟨hq, hids⟩ := hx
  have hends := Effect.steps_of_follow hf
  rw [Effect.Prog.eq_ofExcept hq] at hends
  have hone := (hall _ _ _ _ _ _ hends (freshJobs_claimedWorld hids (by decide +kernel))).1
  rw [← List.length_map (f := fun j => invocationId j.invocationArn)] at hone
  change (jobIdsOf tr).length ≤ 1 at hone
  rw [hids] at hone
  exact absurd hone (by decide)

end DocumentAi
