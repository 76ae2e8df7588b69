import DocumentAi.Classifiers.DocumentClassification

/-!
# Footprints: which calls a function can make

One lemma for each function says which calls it can make, whatever the answers are. Calls that
leave the shared stores alone are *quiet*; the others are named with their arguments.

| here | meaning |
| --- | --- |
| `Op.isQuiet`   | reads, clock, random draws, metrics: no store, object, queue or AI service is touched |
| `Op.isRead`    | a quiet call that leaves the whole world alone |
| `Quiet p`, `Reads p` | `p` makes quiet calls only, reads only |
| `Makes φ p`, `Does φ p` | every other call of `p` satisfies `φ` |
| `tracked`      | the attributes the invariants speak about |
| `DocUpdate`    | the requests a handler makes on the document-metadata table |
-/

namespace DocumentAi

open Effect.Prog (Spec All spec_bind spec_tryCatch spec_perform all_bind all_perform all_forEach)

abbrev DocUpdate : Type := Dynamo.Update DocumentMetadata.schema

def Op.isQuiet : Op → Bool
  | .getItem _ | .queryByJobId _ | .queryByBdaInvocationId _ | .queryByBatchId _
  | .queryByStatusCreatedAt .. | .getBatch _ | .queryMonth .. | .getTenant _ | .getCategory ..
  | .autoRegisterCategory .. | .getRule .. | .getObject _ | .getLastModifiedAt _ | .sendMetrics _
  | .putMetricData .. | .getDataAutomationStatus _ | .now | .random | .uuid4 => true
  | _ => false

/-- Calls that read one store and answer from it. -/
def Op.isRead : Op → Bool
  | .getItem _ | .queryByJobId _ | .queryByBdaInvocationId _ | .queryByBatchId _
  | .queryByStatusCreatedAt .. | .getBatch _ | .queryMonth .. | .getTenant _ | .getCategory ..
  | .getRule .. | .getObject _ | .getLastModifiedAt _ | .putMetricData ..
  | .getDataAutomationStatus _ | .now | .random => true
  | _ => false

abbrev Quiet {α : Type} (p : Prog α) : Prop := All (fun (op : Op) => op.isQuiet = true) p

abbrev Reads {α : Type} (p : Prog α) : Prop := All (fun (op : Op) => op.isRead = true) p

/-- Besides reads, `p` makes calls with `φ` only. -/
abbrev Makes {α : Type} (φ : Op → Prop) (p : Prog α) : Prop :=
  All (fun (op : Op) => op.isRead = true ∨ φ op) p

abbrev Does {α : Type} (φ : Op → Prop) (p : Prog α) : Prop :=
  All (fun (op : Op) => op.isQuiet = true ∨ φ op) p

section
variable {α β : Type} {φ ψ : Op → Prop} {p : Prog α}

theorem isQuiet_of_isRead {op : Op} (h : op.isRead = true) : op.isQuiet = true := by
  cases op <;> first | rfl | cases h

theorem Reads.quiet (h : Reads p) : Quiet p := Effect.Prog.All.mono (fun _ => isQuiet_of_isRead) h

theorem Quiet.does (h : Quiet p) : Does φ p := Effect.Prog.All.mono (fun _ h => .inl h) h

theorem Reads.does (h : Reads p) : Does φ p := h.quiet.does

theorem Reads.makes (h : Reads p) : Makes φ p := Effect.Prog.All.mono (fun _ h => .inl h) h

theorem Makes.does (h : Makes φ p) : Does φ p :=
  Effect.Prog.All.mono (fun _ h => h.imp_left isQuiet_of_isRead) h

theorem makes_call {op : Op} (h : φ op) : Makes φ (call op) := all_perform (.inr h)

theorem Does.mono (h : ∀ op, φ op → ψ op) (hp : Does φ p) : Does ψ p :=
  Effect.Prog.Spec.mono (fun op ho => ho.imp_right (h op)) (fun _ ha => ha) hp

theorem all_pure (a : α) : All ψ (pure a : Prog α) := trivial

theorem all_throw (e : Exc) : All ψ (throw e : Prog α) := trivial

theorem quiet_call {op : Op} (h : op.isQuiet = true) : Quiet (call op) := all_perform h

theorem reads_call {op : Op} (h : op.isRead = true) : Reads (call op) := all_perform h

theorem does_call {op : Op} (h : φ op) : Does φ (call op) := all_perform (.inr h)

theorem all_liftExcept (x : Except Exc α) : All ψ (liftExcept x) := by
  cases x <;> trivial

end

/-! ## Requests on the document-metadata table -/

/-- What only an upsert writes: batch, consent, compare flag and the identity of the record. -/
def identityAttrs : List DocumentMetadata :=
  [.batchId, .aiConsentFlag, .isCompare, .jobId, .tenantId, .createdAt, .originalFileName,
    .preclassificationCategory]

def tracked : List DocumentMetadata :=
  .processStatus :: .v1ApiResponseJson :: .bdaInvocationId :: identityAttrs

abbrev Untracked (xs : List Action) : Prop :=
  Dynamo.Targets (fun a : DocumentMetadata => a ∉ tracked) xs

@[simp] theorem targets_setOpt {P : DocumentMetadata → Prop} {a : DocumentMetadata} (h : P a) :
    ∀ v : Option a.Val, Dynamo.Targets (T := DocumentMetadata.schema) P (setOpt a v)
  | some _ => by simpa [setOpt, Dynamo.Action.target] using h
  | none   => Dynamo.targets_nil

theorem targets_ne_setOpt {a b : DocumentMetadata} (h : b ≠ a) (v : Option b.Val) :
    Dynamo.Targets (T := DocumentMetadata.schema) (· ≠ a) (setOpt b v) := by
  refine targets_setOpt ?_ v
  exact h

theorem targets_ite {P : DocumentMetadata → Prop} {c : Prop} [Decidable c] {xs ys : List Action}
    (hx : Dynamo.Targets P xs) (hy : Dynamo.Targets P ys) :
    Dynamo.Targets P (if c then xs else ys) := by
  split
  · exact hx
  · exact hy

/-- A completion or start timestamp, a duration or a processing date. -/
def isTimingAttr (a : DocumentMetadata) : Prop :=
  a ∈ [DocumentMetadata.extractionCompletedAt, .processedDate, .totalProcessingTimeSeconds,
    .extractionProcessingTimeSeconds, .extractionStartedAt, .extractionWaitTimeSeconds]

theorem untracked_of_timing {a : DocumentMetadata} (h : isTimingAttr a) : a ∉ tracked := by
  simp only [isTimingAttr, List.mem_cons, List.not_mem_nil, or_false] at h
  rcases h with rfl | rfl | rfl | rfl | rfl | rfl <;> decide

/-! ## Reads and timing -/

theorem reads_getDdbRecord (k : String) : Reads (getDdbRecord k) := reads_call rfl

theorem reads_calculateWaitTime (k : String) : Reads (calculateWaitTime k) := by
  unfold calculateWaitTime
  refine all_bind (reads_getDdbRecord k) fun r => ?_
  cases r with
  | none => trivial
  | some r =>
    dsimp only
    split
    · trivial
    · exact all_bind (reads_call rfl) fun _ => trivial

theorem reads_calculateBdaProcessingTimes (k : String) (t : Timestamp) :
    Reads (calculateBdaProcessingTimes k t) := by
  unfold calculateBdaProcessingTimes
  refine all_bind (reads_getDdbRecord k) fun r => ?_
  cases r <;> trivial

/-- Plain `SET`s of these attributes. -/
def TimingActions (xs : List Action) : Prop :=
  ∀ x ∈ xs, ∃ (a : DocumentMetadata) (v : a.Val), isTimingAttr a ∧ x = .set a v

section
variable {xs ys : List Action}

theorem timing_nil : TimingActions [] := fun x hx => by cases hx

theorem timing_set {a : DocumentMetadata} {v : a.Val} (ha : isTimingAttr a)
    (hx : TimingActions xs) : TimingActions (.set a v :: xs) :=
  List.forall_mem_cons.2 ⟨⟨a, v, ha, rfl⟩, hx⟩

theorem timing_append (hx : TimingActions xs) (hy : TimingActions ys) : TimingActions (xs ++ ys) :=
  fun x hm => (List.mem_append.1 hm).elim (hx x) (hy x)

theorem timing_ite {c : Prop} [Decidable c] (hx : TimingActions xs) (hy : TimingActions ys) :
    TimingActions (if c then xs else ys) := by
  split
  · exact hx
  · exact hy

theorem TimingActions.targets (h : TimingActions xs) :
    Dynamo.Targets (T := DocumentMetadata.schema) isTimingAttr xs := fun x hx => by
  obtain ⟨a, v, ha, rfl⟩ := h x hx
  exact ha

end

theorem reads_completionTime (now : Timestamp) (uri : Option String) :
    Reads (completionTime now uri) := by
  unfold completionTime
  split
  · trivial
  · exact spec_tryCatch (all_bind (all_liftExcept _) fun key => reads_call rfl) fun e => trivial

theorem spec_buildCompletionTiming (k : String) (uri : Option String) :
    Spec (fun (op : Op) => op.isRead = true) TimingActions (buildCompletionTiming k uri) := by
  unfold buildCompletionTiming
  refine all_bind (reads_getDdbRecord k) fun r => ?_
  cases r with
  | none => exact timing_nil
  | some r =>
    dsimp only
    split
    · exact timing_nil
    · refine all_bind (reads_call rfl) fun now => ?_
      refine all_bind (reads_completionTime now uri) fun t => ?_
      refine all_bind (reads_calculateBdaProcessingTimes k t) fun timing => ?_
      refine timing_append (timing_append ?_ ?_) ?_
      · exact timing_set (by simp [isTimingAttr]) (timing_set (by simp [isTimingAttr]) timing_nil)
      · exact timing_ite (timing_set (by simp [isTimingAttr]) timing_nil) timing_nil
      · exact timing_ite (timing_set (by simp [isTimingAttr]) timing_nil) timing_nil

theorem spec_buildTimingUpdates (k : String) (s : ProcessStatus) (uri : Option String) :
    Spec (fun (op : Op) => op.isRead = true) TimingActions (buildTimingUpdates k s uri) := by
  unfold buildTimingUpdates
  split
  · refine all_bind (reads_call rfl) fun now => ?_
    refine spec_bind (Q := TimingActions) ?_ fun wait hw => ?_
    · refine spec_tryCatch ?_ fun e => timing_nil
      refine all_bind (reads_calculateWaitTime k) fun w => ?_
      exact timing_set (by simp [isTimingAttr]) timing_nil
    · exact timing_set (by simp [isTimingAttr]) hw
  · split
    · exact spec_buildCompletionTiming k uri
    · exact timing_nil

end DocumentAi
