import DocumentAi.Lib.Chars
import DocumentAi.Lib.Protocol
import DocumentAi.Runs.TerminalStatus

/-!
# Does a failed batch upload show?

`_execute_batch` creates its batch as `UPLOADING`, uploads the files and sets `PROCESSING`. Its
handler for exceptions other than an `HTTPException` sets `FAILED`; an `HTTPException` is raised
again as it is (`routers/batch.py:236-237`).

| here | meaning |
| --- | --- |
| `batchProtocol`     | what a batch request may call, given what it has been answered |
| `BatchInv`          | each unfinished request owns its batch, and the batch is `UPLOADING` |
| `leavesUploading`   | the moves after which a request ends with its batch `UPLOADING` |
| `batchShown_iff`    | every request that ends shows its batch iff no move is one of these |
-/

namespace DocumentAi

open Effect (play move_cases Along along_iff_split along_append play_append
  getElem?_set_cases getElem?_concat_cases)
open Effect.Protocol (obeys_bind obeys_tryCatch obeys_perform obeys_ret obeys_raise
  obeys_of_stuck protocol_inv)

/-- The status a request on a batch sets. -/
def batchStatusWrite (u : Dynamo.Update DocumentBatches.schema) : Option BatchStatus :=
  Dynamo.lastSet (T := DocumentBatches.schema) .batchStatus u.actions

/-- The request of `update_batch_status`. -/
def statusRequest (now : Timestamp) (status : BatchStatus) (errorMessage : Option String)
    (cond : Option BatchCond) : Dynamo.Update DocumentBatches.schema :=
  { actions := [.set .batchStatus status, .set .updatedAt now]
      ++ (match truthy errorMessage with
          | some m => [.set .errorMessage m]
          | none   => [])
    cond }

theorem batchStatusWrite_statusRequest (now : Timestamp) (s : BatchStatus) (m : Option String)
    (c : Option BatchCond) : batchStatusWrite (statusRequest now s m c) = some s := by
  unfold batchStatusWrite statusRequest
  cases truthy m <;> rfl

/-- Without a condition the request of `update_batch_status` applies to every batch. -/
theorem statusRequest_apply (now : Timestamp) (s : BatchStatus) (m : Option String)
    (old : BatchRecord) : ∃ new : BatchRecord, (statusRequest now s m none).apply old = .ok new ∧
      BatchRecord.status new = some s := by
  unfold statusRequest
  cases truthy m <;> exact ⟨_, rfl, rfl⟩

/-- An increment applies to a batch that is `PROCESSING`. -/
theorem status_of_increment {u : Dynamo.Update DocumentBatches.schema} {old new : BatchRecord}
    (hc : u.cond = some (batchStatusIs .processing)) (h : u.apply old = .ok new) :
    BatchRecord.status old = some .processing := by
  have hcond := (Dynamo.Update.apply_eq_ok h).1
  rw [hc] at hcond
  change (old .batchStatus).any (fun (x : BatchStatus) => x == .processing) = true at hcond
  obtain ⟨s, hs, he⟩ := (Option.any_eq_true _ _).1 hcond
  rw [eq_of_beq he] at hs
  exact hs

/-! ## The protocol of a batch request -/

inductive BatchOutcome where
  | running | settled | lost
deriving DecidableEq, Repr

/-- What a request has done: the identifiers it has drawn, the batch it has created, and whether
it has set a last status or given up. `request` is `none` for the other handlers. -/
structure BatchState where
  request : Option (EnvConfig × String)
  drawn   : List String := []
  created : Option String := none
  outcome : BatchOutcome := .running

/-- There are errors, and all of them are HTTP errors. -/
def onlyHttp (errors : List Exc) : Bool := !errors.isEmpty && errors.all Exc.isHttp

def batchIdOf (tenantId uuid : String) : String := tenantId ++ "/" ++ uuid

namespace BatchState

def lose (s : BatchState) (b : Bool) : BatchState := if b then { s with outcome := .lost } else s

/-- The next state of a request. -/
def next (env : EnvConfig) (s : BatchState) : (op : Op) → sig.Ans op → BatchState
  | .uuid4, .ok u         => { s with drawn := u :: s.drawn }
  | .putBatch b _, .ok _  =>
    { s with created := some b }.lose (truthy env.documentaiInputLocation).isNone
  | .join _, .ok errors   => s.lose (onlyHttp errors)
  | .getBatch _, .error _ => s.lose s.created.isSome
  | .updateBatch .., .ok _ => { s with outcome := .settled }
  | .updateBatch _ u, .error e => s.lose (e.isHttp || batchStatusWrite u == some .failed)
  | _, _                  => s

end BatchState

/-- The call is allowed to the request of a tenant. -/
def allowsBatch (tenantId : String) (s : BatchState) : Op → Prop
  | .putBatch b it =>
    s.created = none ∧ (∃ u ∈ s.drawn, b = batchIdOf tenantId u) ∧
      BatchRecord.status it = some .uploading
  | .getBatch b =>
    s.created = some b ∨ s.created = none ∧ ∃ u ∈ s.drawn, b = batchIdOf tenantId u
  | .updateBatch b u =>
    s.created = some b ∧ ∃ now st m, (st = .processing ∨ st = .failed) ∧
      u = statusRequest now st m none
  | .join _ => s.created ≠ none
  | _ => True

/-- The batch is found exactly when it was created, and calls inside the process do not fail. -/
def possibleBatch (s : BatchState) : (op : Op) → sig.Ans op → Prop
  | .getBatch b, .ok r => (r : Option BatchRecord).isSome ↔ s.created = some b
  | op, .error _       => World.isLocal op = false
  | _, _               => True

abbrev batchProtocol : Effect.Protocol sig where
  State := BatchState
  allow s op := match s.request with
    | none        => IsBatchWrite op → IsIncrement op
    | some (_, t) => s.outcome = .running ∧ allowsBatch t s op
  possible s op ans := s.request ≠ none → possibleBatch s op ans
  next s op ans := match s.request with
    | none          => s
    | some (env, _) => s.next env op ans

/-- The state in which a handler starts. -/
def batchInit : Entry → BatchState
  | .batch env auth _ => { request := some (env, auth.tenantId) }
  | _                 => { request := none }

/-- Nothing was created, or the last status is set, or the request has given up. -/
def Over (s : BatchState) : Prop := s.created = none ∨ s.outcome ≠ .running

section
variable {env : EnvConfig} {tenantId b : String} {s : BatchState}

/-- A request that has neither created its batch nor given up. -/
structure Fresh (env : EnvConfig) (tenantId : String) (s : BatchState) : Prop where
  request : s.request = some (env, tenantId)
  created : s.created = none
  outcome : s.outcome = .running

/-- A request that has created the batch `b`. -/
structure Owns (env : EnvConfig) (tenantId b : String) (s : BatchState) : Prop where
  request : s.request = some (env, tenantId)
  created : s.created = some b

/-- The request has created its batch and goes on. -/
def Open (env : EnvConfig) (tenantId b : String) (s : BatchState) : Prop :=
  Owns env tenantId b s ∧ s.outcome = .running

/-- The request has created its batch, and gives up when there is nowhere to upload to. -/
def Begun (env : EnvConfig) (tenantId b : String) (s : BatchState) : Prop :=
  Owns env tenantId b s ∧
    s.outcome = if (truthy env.documentaiInputLocation).isNone then .lost else .running

/-- What holds when an exception reaches the handler of `_execute_batch`. -/
def Caught (env : EnvConfig) (tenantId b : String) (s : BatchState) (e : Exc) : Prop :=
  (Fresh env tenantId s ∧ ∃ u ∈ s.drawn, b = batchIdOf tenantId u) ∨
    Owns env tenantId b s ∧ s.outcome = if e.isHttp then .lost else .running

theorem Owns.lose (h : Owns env tenantId b s) (c : Bool) : Owns env tenantId b (s.lose c) := by
  unfold BatchState.lose
  split
  · exact ⟨h.request, h.created⟩
  · exact h

theorem lose_outcome (h : s.outcome = .running) (c : Bool) :
    (s.lose c).outcome = if c then .lost else .running := by
  cases c
  · exact h
  · rfl

theorem allow_of_fresh {op : Op} (h : Fresh env tenantId s) (hop : allowsBatch tenantId s op) :
    batchProtocol.allow s op := by
  simp only [h.request]
  exact ⟨h.outcome, hop⟩

theorem allow_of_open {op : Op} (h : Open env tenantId b s) (hop : allowsBatch tenantId s op) :
    batchProtocol.allow s op := by
  simp only [h.1.request]
  exact ⟨h.2, hop⟩

theorem next_eq (h : s.request = some (env, tenantId)) (op : Op) (ans : sig.Ans op) :
    batchProtocol.next s op ans = s.next env op ans := by
  simp only [batchProtocol, h]

theorem possible_eq {op : Op} {ans : sig.Ans op} (h : s.request = some (env, tenantId))
    (hp : batchProtocol.possible s op ans) : possibleBatch s op ans :=
  hp (by rw [h]; simp)

variable {α : Type} {Q : BatchState → α → Prop} {E : BatchState → Exc → Prop}

/-- A call inside the process that the protocol does not look at. -/
theorem obeys_local {op : Op} {f : op.Res → Prog α} (hs : s.request = some (env, tenantId))
    (ha : batchProtocol.allow s op) (hl : World.isLocal op = true)
    (hn : ∀ r, s.next env op (.ok r) = s) (hf : ∀ r, batchProtocol.Obeys Q E s (f r)) :
    batchProtocol.Obeys Q E s ((call op).bind f) := by
  refine obeys_bind (Q := fun s' _ => s' = s) (obeys_perform ha (fun r _ => ?_) fun e he => ?_)
    fun s' r h => h ▸ hf r
  · rw [next_eq hs, hn]
  · have hlocal := possible_eq hs he
    simp only [possibleBatch] at hlocal
    rw [hl] at hlocal
    cases hlocal

theorem obeys_createBatch {n : Nat} {c t a : Option String} (hs : Fresh env tenantId s)
    (hb : ∃ u ∈ s.drawn, b = batchIdOf tenantId u) :
    batchProtocol.Obeys (fun s' _ => Begun env tenantId b s') (Caught env tenantId b) s
      (createBatch b n c t a) := by
  refine obeys_local hs.request (allow_of_fresh hs trivial) rfl (fun _ => rfl) fun (now : Timestamp) => ?_
  have howns : Owns env tenantId b { s with created := some b } := ⟨hs.request, rfl⟩
  refine obeys_bind (Q := fun s' _ => Begun env tenantId b s')
    (obeys_tryCatch (F := fun s' _ => s' = s) (obeys_perform ?_ ?_ ?_) ?_) fun _ _ h => obeys_ret h
  · exact allow_of_fresh hs ⟨hs.created, hb, rfl⟩
  · intro _ _
    rw [next_eq hs.request]
    have hout : ({ s with created := some b } : BatchState).outcome = .running := hs.outcome
    exact ⟨howns.lose _, lose_outcome hout _⟩
  · intro e _
    rw [next_eq hs.request]
    rfl
  · intro s' e (hs' : s' = s)
    rw [hs']
    dsimp only
    by_cases he : e = .clientError .conditionalCheckFailedException
    · rw [if_pos he]
      exact obeys_raise (.inl ⟨hs, hb⟩)
    · rw [if_neg he]
      exact obeys_raise (.inl ⟨hs, hb⟩)

/-- The error that `_process_batch_files` raises is an HTTP error exactly when all errors are. -/
theorem groupError_isHttp {errors : List Exc} {e : Exc} (h : groupError errors = some e) :
    e.isHttp = onlyHttp errors := by
  unfold groupError at h
  split at h
  next hh hn =>
    cases h
    have hmem := List.mem_of_find?_eq_some hn
    have hnot := List.find?_some hn
    have hall : errors.all Exc.isHttp = false := by
      rw [← Bool.not_eq_true, List.all_eq_true]
      intro hall
      rw [hall _ hmem] at hnot
      cases hnot
    rw [onlyHttp, hall, Bool.and_false]
    rfl
  next hh hn =>
    cases h
    have hmem := List.mem_of_find?_eq_some hh
    have hall : errors.all Exc.isHttp = true := by
      rw [List.all_eq_true]
      intro x hx
      simpa using List.find?_eq_none.1 hn x hx
    rw [onlyHttp, hall, List.find?_some hh, Bool.and_true]
    cases errors with
    | nil => cases hmem
    | cons x xs => rfl
  next hh hn =>
    cases h
    have hmem := List.mem_of_find?_eq_some hn
    have hnot := List.find?_some hn
    have he : e.isHttp = false := by simpa using hnot
    have hall : errors.all Exc.isHttp = false := by
      rw [← Bool.not_eq_true, List.all_eq_true]
      intro hall
      rw [hall _ hmem] at he
      cases he
    rw [onlyHttp, hall, Bool.and_false, he]
  next => cases h

theorem onlyHttp_of_groupError {errors : List Exc} (h : groupError errors = none) :
    onlyHttp errors = false := by
  unfold groupError at h
  split at h
  · cases h
  · cases h
  · cases h
  next hh hn =>
    cases errors with
    | nil => rfl
    | cons x xs =>
      have h₁ := List.find?_eq_none.1 hh x List.mem_cons_self
      have h₂ := List.find?_eq_none.1 hn x List.mem_cons_self
      simp only [Bool.not_eq_true', Bool.not_eq_false] at h₂
      exact absurd h₂ h₁

theorem obeys_updateBatchStatus {st : BatchStatus} {m : Option String}
    (hst : st = .processing ∨ st = .failed) (hs : Open env tenantId b s) :
    batchProtocol.Obeys (fun (s' : BatchState) _ => s'.outcome = .settled) (fun s' e => Owns env tenantId b s' ∧
        s'.outcome = if e.isHttp || st == .failed then .lost else .running) s
      (updateBatchStatus b st m) := by
  refine obeys_local hs.1.request (allow_of_open hs trivial) rfl (fun _ => rfl) fun (now : Timestamp) => ?_
  refine obeys_bind (Q := fun (s' : BatchState) _ => s'.outcome = .settled) (obeys_perform ?_ ?_ ?_)
    fun _ _ h => h
  · exact allow_of_open hs ⟨hs.1.created, now, st, m, hst, rfl⟩
  · intro _ _
    rw [next_eq hs.1.request]
    rfl
  · intro e _
    have hnext : s.next env (.updateBatch b (statusRequest now st m none)) (.error e) =
        s.lose (e.isHttp || st == .failed) := by
      rw [BatchState.next, batchStatusWrite_statusRequest]
      rfl
    rw [next_eq hs.1.request]
    change Owns env tenantId b (s.next env (.updateBatch b (statusRequest now st m none)) (.error e))
      ∧ (s.next env (.updateBatch b (statusRequest now st m none)) (.error e)).outcome = _
    rw [hnext]
    exact ⟨hs.1.lose _, lose_outcome hs.2 _⟩

/-- A call of the file tasks: their errors end the request when all are HTTP errors. -/
theorem obeys_processBatchFiles {auth : UserContext} {form : BatchForm}
    (hs : Begun env tenantId b s) :
    batchProtocol.Obeys (fun s' _ => Open env tenantId b s') (Caught env tenantId b) s
      (processBatchFiles env auth form b) := by
  unfold processBatchFiles
  obtain ⟨howns, hout⟩ := hs
  cases hloc : truthy env.documentaiInputLocation with
  | none =>
    rw [hloc] at hout
    exact obeys_raise (.inr ⟨howns, hout⟩)
  | some loc =>
    rw [hloc] at hout
    have hopen : Open env tenantId b s := ⟨howns, hout⟩
    refine obeys_local howns.request (allow_of_open hopen trivial) rfl (fun _ => rfl) fun _ => ?_
    have hallow : batchProtocol.allow s (.join b) :=
      allow_of_open hopen (by rw [allowsBatch, howns.created]; simp)
    refine obeys_bind (Q := fun s' (errors : List Exc) => s' = s.lose (onlyHttp errors))
      (obeys_perform hallow (fun errors _ => ?_) fun e he => ?_) fun s' (errors : List Exc) h => ?_
    · rw [next_eq howns.request]
      rfl
    · have hlocal := possible_eq howns.request he
      cases hlocal
    · rw [h]
      cases he : groupError errors with
      | none =>
        rw [onlyHttp_of_groupError he]
        exact obeys_ret hopen
      | some e =>
        refine obeys_raise (.inr ⟨howns.lose _, ?_⟩)
        rw [lose_outcome hout, groupError_isHttp he]

/-- The recovery sets the status when the batch exists, or the request has lost it. -/
theorem obeys_failBatch {e : Exc} (hs : Caught env tenantId b s e) (he : e.isHttp = false) :
    batchProtocol.Obeys (fun s' _ => Over s') (fun s' _ => Over s') s (failBatch b) := by
  unfold failBatch
  have hrun : s.request = some (env, tenantId) ∧ batchProtocol.allow s (.getBatch b) := by
    rcases hs with ⟨hf, hb⟩ | ⟨ho, hout⟩
    · exact ⟨hf.request, allow_of_fresh hf (.inr ⟨hf.created, hb⟩)⟩
    · rw [he] at hout
      exact ⟨ho.request, allow_of_open ⟨ho, hout⟩ (.inl ho.created)⟩
  refine obeys_bind (Q := fun s' (r : Option BatchRecord) => s' = s ∧ (r.isSome ↔ s.created = some b))
    (obeys_perform hrun.2 (fun r hr => ?_) fun e' _ => ?_) fun s' (r : Option BatchRecord) h => ?_
  · rw [next_eq hrun.1]
    exact ⟨rfl, possible_eq hrun.1 hr⟩
  · rw [next_eq hrun.1]
    change Over (s.lose s.created.isSome)
    cases hc : s.created with
    | none => exact .inl hc
    | some b' => exact .inr (by rw [Option.isSome_some, BatchState.lose, if_pos rfl]; simp)
  · obtain ⟨rfl, hr⟩ := h
    dsimp only
    by_cases hsome : r.isSome = true
    · rw [if_pos hsome]
      have hcreated := hr.1 hsome
      rcases hs with ⟨hf, _⟩ | ⟨ho, hout⟩
      · rw [hf.created] at hcreated
        cases hcreated
      · rw [he] at hout
        refine (obeys_updateBatchStatus (.inr rfl) ⟨ho, hout⟩).mono (fun s' _ h => .inr ?_)
          fun s' e' h => .inr ?_
        · rw [h]
          decide
        · rw [h.2, beq_self_eq_true, Bool.or_true, if_pos rfl]
          decide
    · rw [if_neg hsome]
      rcases hs with ⟨hf, _⟩ | ⟨ho, _⟩
      · exact obeys_ret (.inl hf.created)
      · exact absurd (hr.2 ho.created) hsome

theorem obeys_executeBatch {auth : UserContext} {form : BatchForm}
    (hs : Fresh env auth.tenantId s) :
    batchProtocol.Obeys (fun s' _ => Over s') (fun s' _ => Over s') s
      (executeBatch env auth form) := by
  refine obeys_bind (Q := fun (s' : BatchState) (id : String) => Fresh env auth.tenantId s' ∧ id ∈ s'.drawn)
    (obeys_perform (allow_of_fresh hs trivial) (fun id _ => ?_) fun e he => ?_)
    fun s' (id : String) h => ?_
  · rw [next_eq hs.request]
    exact ⟨⟨hs.request, hs.created, hs.outcome⟩, List.mem_cons_self⟩
  · have hlocal := possible_eq hs.request he
    cases hlocal
  obtain ⟨hf, hid⟩ := h
  refine obeys_tryCatch (F := Caught env auth.tenantId (batchIdOf auth.tenantId id)) ?_ ?_
  · refine obeys_bind (obeys_createBatch hf ⟨id, hid, rfl⟩) fun s₁ _ h₁ => ?_
    refine obeys_bind (obeys_processBatchFiles h₁) fun s₂ _ h₂ => ?_
    refine (obeys_updateBatchStatus (.inl rfl) h₂).mono (fun s' _ h => .inr ?_) fun s' e h => ?_
    · rw [h]
      decide
    · refine .inr ⟨h.1, ?_⟩
      rw [h.2]
      cases e.isHttp <;> rfl
  · intro s₁ e he
    split
    next code detail =>
      refine obeys_raise ?_
      rcases he with ⟨hf, _⟩ | ⟨_, hout⟩
      · exact .inl hf.created
      · exact .inr (by rw [hout]; simp [Exc.isHttp])
    next hne =>
      have hhttp : e.isHttp = false := by
        cases e with
        | httpException code detail => exact absurd rfl (hne code detail)
        | _ => rfl
      exact obeys_bind (obeys_failBatch he hhttp) fun _ _ h => obeys_raise h

theorem obeys_body (e : Entry) :
    batchProtocol.Obeys (fun s' _ => Over s') (fun s' _ => Over s') (batchInit e) e.body := by
  by_cases hb : ∃ env auth form, e = .batch env auth form
  · obtain ⟨env, auth, form, rfl⟩ := hb
    have hinit : Fresh env auth.tenantId (batchInit (.batch env auth form)) := ⟨rfl, rfl, rfl⟩
    refine obeys_bind (Q := fun s' _ => Fresh env auth.tenantId s') ?_ fun s' t hs' => ?_
    · unfold traceIdOrNew
      split
      · exact hinit
      · refine obeys_perform (allow_of_fresh hinit trivial) (fun u _ => ⟨rfl, rfl, rfl⟩) fun e he => ?_
        have hlocal := possible_eq hinit.request he
        cases hlocal
    · dsimp only
      split
      · exact obeys_raise (.inl hs'.created)
      · split
        · exact obeys_raise (.inl hs'.created)
        · exact obeys_executeBatch hs'
  · have hother : batchInit e = { request := none } := by
      cases e with
      | batch env auth form => exact absurd ⟨env, auth, form, rfl⟩ hb
      | _ => rfl
    have hall := body_routine e fun env auth form h => hb ⟨env, auth, form, h⟩
    rw [hother]
    refine (obeys_of_stuck (R := batchProtocol) (fun op hop => ?_) hall).mono ?_ ?_
    · obtain ⟨k, h | h⟩ := hop
      · exact ⟨h.2, fun _ => rfl⟩
      · obtain ⟨u, rfl⟩ := docWrite_updateItem h
        exact ⟨fun h => h.elim, fun _ => rfl⟩
    · intro s' _ h
      exact .inl (by rw [h])
    · intro s' _ h
      exact .inl (by rw [h])

end

/-! ## Each request owns its batch -/

theorem batchIdOf_inj {t t' u u' : String} (hu : '/' ∉ u.toList) (hu' : '/' ∉ u'.toList)
    (h : batchIdOf t u = batchIdOf t' u') : u = u' := by
  have hsplit : ∀ t u : String, (batchIdOf t u).toList = t.toList ++ '/' :: u.toList := by
    intro t u
    simp [batchIdOf, String.toList_append]
  have hlast := congrArg (fun b : String => Chars.lastField '/' b.toList) h
  simp only [hsplit] at hlast
  rw [Chars.lastField_append_cons hu, Chars.lastField_append_cons hu'] at hlast
  exact String.toList_inj.1 hlast

def World.batchStatus (w : World) (b : String) : Option BatchStatus :=
  (w.batches.item b).bind BatchRecord.status

/-- Every stored batch has an identifier that was drawn. -/
def BatchesDrawn (w : World) : Prop :=
  ∀ b, w.batches.item b ≠ none → ∃ t u, b = batchIdOf t u ∧ '/' ∉ u.toList ∧ u ∈ w.uuids

/-- What the world holds of a request in the state `s`. -/
structure Sound (w : World) (s : BatchState) : Prop where
  drawn     : ∀ u ∈ s.drawn, u ∈ w.uuids ∧ '/' ∉ u.toList
  absent    : s.created = none → ∀ t, ∀ u ∈ s.drawn, w.batches.item (batchIdOf t u) = none
  owned     : ∀ b, s.created = some b → ∃ t, ∃ u ∈ s.drawn, b = batchIdOf t u
  uploading : ∀ b, s.created = some b → s.outcome ≠ .settled → w.batchStatus b = some .uploading
  lost      : s.outcome = .lost → s.created ≠ none

abbrev batchLoc (t : Thread) : BatchState := batchProtocol.loc batchInit t

structure BatchInv (c : Config) : Prop where
  stored : BatchesDrawn c.world
  sound  : ∀ t ∈ c.threads, Sound c.world (batchLoc t)
  apart  : ∀ (i j : Nat) (t t' : Thread), c.threads[i]? = some t → c.threads[j]? = some t' → i ≠ j →
    ∀ u ∈ (batchLoc t).drawn, u ∉ (batchLoc t').drawn

/-- A batch that is absent stays absent, and one that is `UPLOADING` stays so. -/
def KeepsBatch (w w' : World) (b : String) : Prop :=
  (w.batches.item b = none → w'.batches.item b = none) ∧
    (w.batchStatus b = some .uploading → w'.batchStatus b = some .uploading)

section
variable {w w' : World} {s : BatchState} {b : String}

theorem keepsBatch_of_item (h : w'.batches.item b = w.batches.item b) : KeepsBatch w w' b :=
  ⟨fun hb => h.trans hb, fun hb => by rw [World.batchStatus, h]; exact hb⟩

theorem Sound.keep (h : Sound w s) (hu : ∀ u ∈ w.uuids, u ∈ w'.uuids)
    (hk : ∀ t, ∀ u ∈ s.drawn, KeepsBatch w w' (batchIdOf t u)) : Sound w' s where
  drawn u hm := ⟨hu u (h.drawn u hm).1, (h.drawn u hm).2⟩
  absent hc t u hm := (hk t u hm).1 (h.absent hc t u hm)
  owned := h.owned
  uploading b hc ho := by
    obtain ⟨t, u, hm, rfl⟩ := h.owned b hc
    exact (hk t u hm).2 (h.uploading _ hc ho)
  lost := h.lost

theorem uuids_grow {op : Op} {ch : Choice} {ans : sig.Ans op}
    (h : w.exec op ch = some (ans, w')) : ∀ u ∈ w.uuids, u ∈ w'.uuids := by
  intro u hu
  by_cases hop : op = .uuid4
  · subst hop
    rw [(exec_uuid4 h).2.2]
    exact List.mem_cons_of_mem _ hu
  · rw [(exec_frame h).uuids hop]
    exact hu

/-- An increment keeps every batch: it applies to one that is `PROCESSING` only. -/
theorem keepsBatch_increment {op : Op} {ch : Choice} {ans : sig.Ans op} (hop : IsIncrement op)
    (h : w.exec op ch = some (ans, w')) : KeepsBatch w w' b := by
  obtain ⟨b', u, rfl, hc⟩ := hop
  rcases exec_updateBatch h with ⟨e, _, _, rfl⟩ | ⟨r, _, _, _, rfl⟩ | ⟨new, _, hnew, _, rfl⟩
  · exact keepsBatch_of_item rfl
  · exact keepsBatch_of_item rfl
  · have hstatus := status_of_increment hc hnew
    by_cases hb : b = b'
    · subst hb
      have hitem : w.batchStatus b = some .processing := by
        unfold World.batchStatus
        unfold World.batchRecord at hstatus
        cases hi : w.batches.item b with
        | none => rw [hi] at hstatus; cases hstatus
        | some it => rw [hi] at hstatus; exact hstatus
      refine ⟨fun hn => ?_, fun hu => ?_⟩
      · rw [World.batchStatus, hn] at hitem
        cases hitem
      · rw [hitem] at hu
        cases hu
    · exact keepsBatch_of_item (Dynamo.Table.put_item_ne _ _ hb)

/-- A handler keeps every batch whose identifier it has not drawn. -/
theorem keepsBatch_of_allow {op : Op} {ch : Choice} {ans : sig.Ans op}
    (hs : Sound w s) (ha : batchProtocol.allow s op) (h : w.exec op ch = some (ans, w'))
    (hb : ∀ t, ∀ u ∈ s.drawn, b ≠ batchIdOf t u) : KeepsBatch w w' b := by
  by_cases hop : IsBatchWrite op
  · cases hr : s.request with
    | none =>
      simp only [hr] at ha
      exact keepsBatch_increment (ha hop) h
    | some r =>
      simp only [hr] at ha
      cases op with
      | putBatch b' it =>
        obtain ⟨_, ⟨u, hu, rfl⟩, _⟩ := ha.2
        rcases exec_putBatch h with ⟨e, _, rfl, _⟩ | ⟨_, _, _, rfl⟩
        · exact keepsBatch_of_item rfl
        · exact keepsBatch_of_item (Dynamo.Table.put_item_ne _ _ (hb _ u hu))
      | updateBatch b' v =>
        obtain ⟨t, u, hu, rfl⟩ := hs.owned b' ha.2.1
        rcases exec_updateBatch h with ⟨e, _, _, rfl⟩ | ⟨r, _, _, _, rfl⟩ | ⟨new, _, _, _, rfl⟩
        · exact keepsBatch_of_item rfl
        · exact keepsBatch_of_item rfl
        · exact keepsBatch_of_item (Dynamo.Table.put_item_ne _ _ (hb _ u hu))
      | _ => exact hop.elim
  · exact keepsBatch_of_item (by rw [(exec_frame h).batches hop])

theorem keepsBatch_of_other {op : Op} {ch : Choice} {ans : sig.Ans op} (hr : s.request = none)
    (ha : batchProtocol.allow s op) (h : w.exec op ch = some (ans, w')) : KeepsBatch w w' b := by
  by_cases hop : IsBatchWrite op
  · simp only [hr] at ha
    exact keepsBatch_increment (ha hop) h
  · exact keepsBatch_of_item (by rw [(exec_frame h).batches hop])

@[simp] theorem lose_drawn (c : Bool) : (s.lose c).drawn = s.drawn := by cases c <;> rfl

@[simp] theorem lose_created (c : Bool) : (s.lose c).created = s.created := by cases c <;> rfl

theorem Sound.lose (h : Sound w s) (hr : s.outcome = .running) {c : Bool}
    (hc : c = true → s.created ≠ none) : Sound w (s.lose c) where
  drawn := by rw [lose_drawn]; exact h.drawn
  absent := by rw [lose_drawn, lose_created]; exact h.absent
  owned := by rw [lose_drawn, lose_created]; exact h.owned
  uploading b hb _ := by
    rw [lose_created] at hb
    exact h.uploading b hb (by rw [hr]; decide)
  lost ho := by
    rw [lose_created]
    cases c
    · exact h.lost ho
    · exact hc rfl

/-- What a request has drawn after a call, it had drawn before or is new to the world. -/
theorem drawn_next {op : Op} {ch : Choice} {ans : sig.Ans op} {u : String}
    (h : w.exec op ch = some (ans, w')) (hu : u ∈ (batchProtocol.next s op ans).drawn) :
    u ∈ s.drawn ∨ u ∉ w.uuids := by
  cases hr : s.request with
  | none =>
    simp only [hr] at hu
    exact .inl hu
  | some r =>
    simp only [hr] at hu
    cases op with
    | uuid4 =>
      obtain ⟨rfl, hnew, _⟩ := exec_uuid4 h
      rcases List.mem_cons.1 hu with rfl | hu
      · exact .inr hnew
      · exact .inl hu
    | putBatch | join | getBatch | updateBatch =>
      cases ans <;> exact .inl (by simpa [BatchState.next] using hu)
    | _ => exact .inl hu

/-- One call keeps what the world holds of the request that makes it. -/
theorem sound_next {op : Op} {ch : Choice} {ans : sig.Ans op} (hd : BatchesDrawn w)
    (hplain : '/' ∉ ch.uuid.toList) (hs : Sound w s) (ha : batchProtocol.allow s op)
    (h : w.exec op ch = some (ans, w')) : Sound w' (batchProtocol.next s op ans) := by
  cases hr : s.request with
  | none =>
    simp only [hr]
    exact hs.keep (uuids_grow h) fun t u _ => keepsBatch_of_other hr ha h
  | some r =>
    obtain ⟨env, tenantId⟩ := r
    have ha' := ha
    simp only [hr] at ha' ⊢
    cases op with
    | uuid4 =>
      obtain ⟨rfl, hnew, rfl⟩ := exec_uuid4 h
      refine ⟨fun u hu => ?_, fun hc t u hu => ?_, fun b hc => ?_, hs.uploading, hs.lost⟩
      · rcases List.mem_cons.1 hu with rfl | hu
        · exact ⟨List.mem_cons_self, hplain⟩
        · exact ⟨List.mem_cons_of_mem _ (hs.drawn u hu).1, (hs.drawn u hu).2⟩
      · rcases List.mem_cons.1 hu with rfl | hu
        · by_contra hsome
          obtain ⟨t', u', heq, hu', hmem⟩ := hd _ hsome
          exact hnew (batchIdOf_inj hplain hu' heq ▸ hmem)
        · exact hs.absent hc t u hu
      · obtain ⟨t, u, hu, rfl⟩ := hs.owned b hc
        exact ⟨t, u, List.mem_cons_of_mem _ hu, rfl⟩
    | putBatch b it =>
      rcases exec_putBatch h with ⟨e, rfl, rfl, _⟩ | ⟨rfl, _, _, rfl⟩
      · exact hs
      · obtain ⟨_, ⟨u, hu, rfl⟩, hit⟩ := ha'.2
        have hput : Sound { w with batches := w.batches.put (batchIdOf tenantId u) it }
            { s with created := some (batchIdOf tenantId u) } := by
          refine ⟨hs.drawn, fun hc => (by cases hc), fun b hc => ?_, fun b hc _ => ?_,
            fun _ hc => (by cases hc)⟩
          · cases hc
            exact ⟨tenantId, u, hu, rfl⟩
          · cases hc
            rw [World.batchStatus, Dynamo.Table.put_item_self]
            exact hit
        exact hput.lose ha'.1 fun _ hc => (by cases hc)
    | join g =>
      obtain ⟨rfl, rfl⟩ := exec_join h
      exact hs.lose ha'.1 fun _ => ha'.2
    | getBatch b =>
      obtain ⟨rfl, ⟨e, _, rfl⟩ | ⟨_, rfl⟩⟩ := exec_getBatch h
      · exact hs.lose ha'.1 fun hc => Option.isSome_iff_ne_none.1 hc
      · exact hs
    | updateBatch b v =>
      have hcreated : s.created ≠ none := by
        rw [ha'.2.1]
        simp
      rcases exec_updateBatch h with ⟨e, _, rfl, rfl⟩ | ⟨r, _, _, rfl, rfl⟩ | ⟨new, _, _, rfl, rfl⟩
      · exact hs.lose ha'.1 fun _ => hcreated
      · exact hs.lose ha'.1 fun _ => hcreated
      · refine ⟨hs.drawn, fun hc => ?_, hs.owned, fun _ _ ho => absurd rfl ho,
          fun _ => hcreated⟩
        have hc : s.created = none := hc
        rw [ha'.2.1] at hc
        cases hc
    | _ =>
      refine hs.keep (uuids_grow h) fun t u _ => keepsBatch_of_item ?_
      rw [(exec_frame h).batches fun h => h.elim]

theorem batchesDrawn_step {op : Op} {ch : Choice} {ans : sig.Ans op} (hd : BatchesDrawn w)
    (hs : Sound w s) (ha : batchProtocol.allow s op) (h : w.exec op ch = some (ans, w')) :
    BatchesDrawn w' := by
  intro b hb
  by_cases hown : ∃ t, ∃ u ∈ s.drawn, b = batchIdOf t u
  · obtain ⟨t, u, hu, rfl⟩ := hown
    exact ⟨t, u, rfl, (hs.drawn u hu).2, uuids_grow h u (hs.drawn u hu).1⟩
  · have hkeep := keepsBatch_of_allow (b := b) hs ha h fun t u hu he => hown ⟨t, u, hu, he⟩
    obtain ⟨t, u, rfl, hplain, hu⟩ := hd b fun hn => hb (hkeep.1 hn)
    exact ⟨t, u, rfl, hplain, uuids_grow h u hu⟩

theorem possible_of_exec {op : Op} {ch : Choice} {ans : sig.Ans op} (hs : Sound w s)
    (ha : batchProtocol.allow s op) (h : w.exec op ch = some (ans, w')) :
    batchProtocol.possible s op ans := by
  intro hr
  obtain ⟨⟨env, tenantId⟩, hr⟩ := Option.ne_none_iff_exists'.1 hr
  simp only [hr] at ha
  cases ans with
  | error e =>
    rcases exec_cases h with hrun | ⟨_, _, hl, _, _⟩
    · cases op with
      | now => cases hrun
      | random | uuid4 | join =>
        simp only [World.run, World.ok] at hrun
        split at hrun <;> cases hrun
      | spawn | endTask => cases hrun
      | takeTask =>
        simp only [World.run] at hrun
        split at hrun
        · obtain ⟨t, _, ht⟩ := Option.map_eq_some_iff.1 hrun
          cases ht
        · cases hrun
      | _ => exact rfl
    · cases op <;> exact hl
  | ok r =>
    cases op with
    | getBatch b =>
      obtain ⟨_, ⟨e, _, he⟩ | ⟨_, he⟩⟩ := exec_getBatch h
      · cases he
      · cases he
        change (w.batches.item b).isSome ↔ s.created = some b
        rcases ha.2 with hc | ⟨hc, u, hu, rfl⟩
        · have hstatus := hs.uploading b hc (by rw [ha.1]; decide)
          rw [hc]
          refine ⟨fun _ => rfl, fun _ => ?_⟩
          cases hi : w.batches.item b with
          | none => rw [World.batchStatus, hi] at hstatus; cases hstatus
          | some it => rfl
        · rw [hs.absent hc _ u hu, hc]
          exact ⟨fun h => (by cases h), fun h => (by cases h)⟩
    | _ => trivial

end

/-- Every identifier the environment gives is without a slash, as `uuid4` makes them. -/
def PlainUuids (_ : Config) : Move → Prop
  | .act _ ch => '/' ∉ ch.uuid.toList
  | _         => True

instance (c : Config) (m : Move) : Decidable (PlainUuids c m) :=
  match m with
  | .act _ ch => inferInstanceAs (Decidable ('/' ∉ ch.uuid.toList))
  | .start _  => inferInstanceAs (Decidable True)
  | .crash _  => inferInstanceAs (Decidable True)

/-- **Ownership.** In every run each request that has not ended owns its batch. -/
theorem batchInv_run {w : World} (hd : BatchesDrawn w) {ms : List Move} {c : Config}
    (hp : Along PlainUuids (.init w) ms) (h : play (.init w) ms = some c) :
    batchProtocol.Coupled batchInit (fun s _ => Over s) (fun s _ => Over s) c ∧ BatchInv c := by
  refine protocol_inv (R := batchProtocol) batchInit (J := BatchInv) obeys_body ?_ ?_ ?_
    (fun _ ht => by cases ht)
    ⟨hd, fun _ ht => (by cases ht), fun i j t t' ht => (by cases ht)⟩ hp h
  · intro c e hJ _
    have hnew : batchLoc (Effect.Thread.init e) = batchInit e := rfl
    have hdrawn : (batchInit e).drawn = [] := by cases e <;> rfl
    refine ⟨hJ.stored, fun t ht => ?_, fun i j t t' ht ht' hij u hu hu' => ?_⟩
    · rcases List.mem_append.1 ht with ht | ht
      · exact hJ.sound t ht
      · have hcreated : (batchInit e).created = none := by cases e <;> rfl
        have hrun : (batchInit e).outcome = .running := by cases e <;> rfl
        rw [List.mem_singleton.1 ht, hnew]
        refine ⟨fun u hu => ?_, fun _ _ u hu => ?_, fun b hc => ?_, fun b hc => ?_, fun ho => ?_⟩
        · rw [hdrawn] at hu
          cases hu
        · rw [hdrawn] at hu
          cases hu
        · rw [hcreated] at hc
          cases hc
        · rw [hcreated] at hc
          cases hc
        · rw [hrun] at ho
          cases ho
    · rcases getElem?_concat_cases ht with ht | rfl
      · rcases getElem?_concat_cases ht' with ht' | rfl
        · exact hJ.apart i j t t' ht ht' hij u hu hu'
        · rw [hnew, hdrawn] at hu'
          cases hu'
      · rw [hnew, hdrawn] at hu
        cases hu
  · intro c i ch t op k ans w' hJ hc hplain hn ha hx
    have hs := hJ.sound t (List.mem_of_getElem? hn.1)
    refine ⟨possible_of_exec hs ha hx, batchesDrawn_step hJ.stored hs ha hx, fun s hs' => ?_, ?_⟩
    · obtain ⟨j, hj⟩ := List.mem_iff_getElem?.1 hs'
      rcases getElem?_set_cases hj with ⟨rfl, rfl⟩ | ⟨hij, hj⟩
      · exact sound_next hJ.stored hplain hs ha hx
      · have hother := hJ.sound s (List.mem_of_getElem? hj)
        refine hother.keep (uuids_grow hx) fun t' u hu =>
          keepsBatch_of_allow hs ha hx fun t'' u' hu' he => ?_
        have heq := batchIdOf_inj (hother.drawn u hu).2 (hs.drawn u' hu').2 he
        exact hJ.apart j i s t hj hn.1 hij u hu (heq ▸ hu')
    · intro j l s s' hj hl hjl u hu hu'
      rcases getElem?_set_cases hj with ⟨rfl, rfl⟩ | ⟨_, hj'⟩
      · rcases getElem?_set_cases hl with ⟨rfl, _⟩ | ⟨_, hl⟩
        · exact hjl rfl
        · rcases drawn_next hx hu with hu | hnew
          · exact hJ.apart j l t s' hn.1 hl hjl u hu hu'
          · exact hnew ((hJ.sound s' (List.mem_of_getElem? hl)).drawn u hu').1
      · rcases getElem?_set_cases hl with ⟨rfl, rfl⟩ | ⟨_, hl⟩
        · rcases drawn_next hx hu' with hu' | hnew
          · exact hJ.apart j l s t hj' hn.1 hjl u hu hu'
          · exact hnew ((hJ.sound s (List.mem_of_getElem? hj')).drawn u hu).1
        · exact hJ.apart j l s s' hj' hl hjl u hu hu'
  · intro c i t hJ _ ht
    refine ⟨hJ.stored, fun s hs => ?_, fun j l s s' hj hl hjl => ?_⟩
    · rcases List.mem_or_eq_of_mem_set hs with hs | rfl
      · exact hJ.sound s hs
      · exact hJ.sound t (List.mem_of_getElem? ht)
    · rcases getElem?_set_cases hj with ⟨rfl, rfl⟩ | ⟨_, hj'⟩
      · rcases getElem?_set_cases hl with ⟨rfl, _⟩ | ⟨_, hl⟩
        · exact absurd rfl hjl
        · exact hJ.apart j l t s' ht hl hjl
      · rcases getElem?_set_cases hl with ⟨rfl, rfl⟩ | ⟨_, hl⟩
        · exact hJ.apart j l s t hj' ht hjl
        · exact hJ.apart j l s s' hj' hl hjl

/-! ## Requests that end -/

def Entry.isBatchRequest : Entry → Bool
  | .batch .. => true
  | _         => false

def createdBy : Effect.Event sig → Option String
  | ⟨.putBatch b _, .ok _⟩ => some b
  | _                      => none

/-- The batch a thread has created. -/
def createdBatch (t : Thread) : Option String := t.trace.findSome? createdBy

/-- After the move its thread, if it is a batch request that is over and has created a batch, shows
it as `PROCESSING` or `FAILED`. -/
def ShowsEnd (c : Config) (m : Move) : Prop :=
  ∀ c' i ch (t : Thread) b, m = .act i ch → Effect.move c m = some c' → c'.threads[i]? = some t →
    t.entry.isBatchRequest = true → t.prog.result.isSome = true → createdBatch t = some b →
      c'.world.batchStatus b = some .processing ∨ c'.world.batchStatus b = some .failed

/-- A batch request overwrites no status but `UPLOADING`. -/
def KeepsFinal (c : Config) (m : Move) : Prop :=
  ∀ c' i ch (t : Thread) b s, m = .act i ch → Effect.move c m = some c' →
    c.threads[i]? = some t → t.entry.isBatchRequest = true → c.world.batchStatus b = some s →
      s ≠ .uploading → c'.world.batchStatus b = some s

/-- The call ends a batch request with its batch `UPLOADING`: there is no input location, all
errors of its files are HTTP errors, or a call of the recovery fails. -/
def givesUp (w : World) (ch : Choice) : Entry → Op → Bool
  | .batch env .., .putBatch b _ =>
    (truthy env.documentaiInputLocation).isNone && ch.fail.isNone && (w.batches.item b).isNone
  | .batch .., .join g          => onlyHttp (w.group g).errors
  | .batch .., .getBatch b      => ch.fail.isSome && (w.batches.item b).isSome
  | .batch .., .updateBatch _ u =>
    ch.fail.any fun e => e.isHttp || batchStatusWrite u == some .failed
  | _, _ => false

def leavesUploading (c : Config) : Move → Bool
  | .act i ch =>
    match c.threads[i]?, c.nextOp i with
    | some t, some op => givesUp c.world ch t.entry op
    | _, _            => false
  | _ => false

@[simp] theorem lose_request (s : BatchState) (c : Bool) : (s.lose c).request = s.request := by
  cases c <;> rfl

/-- A request changes its batch by creating it only. -/
theorem next_created (env : EnvConfig) (s : BatchState) (op : Op) (ans : sig.Ans op) :
    (s.next env op ans).created = (createdBy ⟨op, ans⟩).or s.created ∧
      (s.next env op ans).request = s.request := by
  cases op with
  | putBatch b it =>
    cases ans with
    | ok r => exact ⟨lose_created _, lose_request _ _⟩
    | error e => exact ⟨rfl, rfl⟩
  | join g =>
    cases ans with
    | ok r => exact ⟨lose_created _, lose_request _ _⟩
    | error e => exact ⟨rfl, rfl⟩
  | getBatch b =>
    cases ans with
    | ok r => exact ⟨rfl, rfl⟩
    | error e => exact ⟨lose_created _, lose_request _ _⟩
  | updateBatch b u =>
    cases ans with
    | ok r => exact ⟨rfl, rfl⟩
    | error e => exact ⟨lose_created _, lose_request _ _⟩
  | uuid4 => cases ans <;> exact ⟨rfl, rfl⟩
  | _ => exact ⟨rfl, rfl⟩

theorem created_foldr {env : EnvConfig} {tenantId : String} {s₀ : BatchState}
    (hr : s₀.request = some (env, tenantId)) (hc : s₀.created = none) :
    ∀ tr : List (Effect.Event sig),
      (tr.foldr (fun ev s => batchProtocol.next s ev.op ev.ans) s₀).request = some (env, tenantId) ∧
      (tr.foldr (fun ev s => batchProtocol.next s ev.op ev.ans) s₀).created = tr.findSome? createdBy
  | []       => ⟨hr, hc⟩
  | ev :: tr => by
    obtain ⟨ih, ihc⟩ := created_foldr hr hc tr
    have hnext := fun s => next_created env s ev.op ev.ans
    rw [List.foldr_cons, next_eq ih, (hnext _).1, (hnext _).2, ihc, List.findSome?_cons]
    refine ⟨ih, ?_⟩
    cases createdBy ⟨ev.op, ev.ans⟩ <;> rfl

theorem batchLoc_eq {t : Thread} {env : EnvConfig} {auth : UserContext} {form : BatchForm}
    (h : t.entry = .batch env auth form) : (batchLoc t).request = some (env, auth.tenantId) ∧
      (batchLoc t).created = createdBatch t := by
  obtain ⟨entry, prog, trace, crashed⟩ := t
  cases h
  exact created_foldr rfl rfl trace

/-- The request gives up exactly at the calls that leave its batch `UPLOADING`. -/
theorem lost_iff {w w' : World} {s : BatchState} {op : Op} {ch : Choice} {ans : sig.Ans op}
    {env : EnvConfig} {auth : UserContext} {form : BatchForm}
    (hr : s.request = some (env, auth.tenantId)) (hs : Sound w s)
    (ha : batchProtocol.allow s op) (hx : w.exec op ch = some (ans, w')) :
    (batchProtocol.next s op ans).outcome = .lost ↔
      givesUp w ch (.batch env auth form) op = true := by
  have ha' := ha
  simp only [hr] at ha' ⊢
  have hlose : ∀ c, (s.lose c).outcome = .lost ↔ c = true := by
    intro c
    rw [lose_outcome ha'.1]
    cases c <;> simp
  have hrun : s.outcome = .lost ↔ false = true := by
    rw [ha'.1]
    simp
  cases op with
  | putBatch b it =>
    rcases exec_putBatch hx with ⟨e, rfl, _, hno⟩ | ⟨rfl, hf, hb, _⟩
    · have hfalse : givesUp w ch (.batch env auth form) (.putBatch b it) = false := by
        rw [← Bool.not_eq_true]
        intro hg
        simp only [givesUp, Bool.and_eq_true, Option.isNone_iff_eq_none] at hg
        exact hno ⟨hg.1.2, hg.2⟩
      rw [hfalse]
      exact hrun
    · have hcreated : ({ s with created := some b } : BatchState).outcome = .running := ha'.1
      simp only [givesUp, hf, hb, Option.isNone_none, Bool.and_true]
      change (BatchState.lose _ _).outcome = _ ↔ _
      rw [lose_outcome hcreated]
      cases (truthy env.documentaiInputLocation).isNone <;> simp
  | join g =>
    obtain ⟨rfl, _⟩ := exec_join hx
    exact hlose _
  | getBatch b =>
    obtain ⟨_, ⟨e, hf, rfl⟩ | ⟨hf, rfl⟩⟩ := exec_getBatch hx
    · have hfound : s.created.isSome = (w.batches.item b).isSome := by
        rcases ha'.2 with hc | ⟨hc, u, hu, rfl⟩
        · have hstatus := hs.uploading b hc (by rw [ha'.1]; decide)
          rw [hc]
          cases hi : w.batches.item b with
          | none => rw [World.batchStatus, hi] at hstatus; cases hstatus
          | some it => rfl
        · rw [hs.absent hc _ u hu, hc]
          rfl
      rw [givesUp, hf, Option.isSome_some, Bool.true_and, ← hfound]
      exact hlose _
    · rw [givesUp, hf]
      exact hrun
  | updateBatch b u =>
    obtain ⟨_, now, st, m, _, rfl⟩ := ha'.2
    obtain ⟨new, hnew, _⟩ := statusRequest_apply now st m (w.batchRecord b)
    rcases exec_updateBatch hx with ⟨e, hf, rfl, _⟩ | ⟨r, _, hrej, _⟩ | ⟨_, hf, _, rfl, _⟩
    · rw [givesUp, hf]
      exact hlose _
    · rw [hnew] at hrej
      cases hrej
    · rw [givesUp, hf]
      exact ⟨fun h => (by cases h), fun h => (by cases h)⟩
  | uuid4 =>
    obtain ⟨rfl, _⟩ := exec_uuid4 hx
    exact hrun
  | _ => exact hrun

/-! ## Runs -/

theorem leavesUploading_eq {c : Config} {i : Nat} {t : Thread} {op : Op}
    {k : sig.Ans op → Prog Unit} {ch : Choice} (hn : c.Next i t op k) :
    leavesUploading c (.act i ch) = givesUp c.world ch t.entry op := by
  have hop : c.nextOp i = some op := Effect.Config.nextOp_eq_some.2 ⟨t, k, hn⟩
  simp only [leavesUploading, hn.1, hop]

theorem isBatchRequest_eq {e : Entry} (h : e.isBatchRequest = true) :
    ∃ env auth form, e = .batch env auth form := by
  cases e with
  | batch env auth form => exact ⟨env, auth, form, rfl⟩
  | _ => cases h

abbrev BatchCoupled (c : Config) : Prop :=
  batchProtocol.Coupled batchInit (fun s _ => Over s) (fun s _ => Over s) c

/-- A request that has given up or set its last status makes no more calls. -/
theorem isSome_result {s : BatchState} {p : Prog Unit} {env : EnvConfig} {t : String}
    (hr : s.request = some (env, t)) (ho : s.outcome ≠ .running)
    (h : batchProtocol.Obeys (fun s _ => Over s) (fun s _ => Over s) s p) :
    p.result.isSome = true := by
  cases p with
  | ret a => rfl
  | raise e => rfl
  | call op k =>
    have ha := h.1
    simp only [hr] at ha
    exact absurd ha.1 ho

/-- A request sets `PROCESSING` or `FAILED` as its last status. -/
theorem settled_status {w w' : World} {s : BatchState} {op : Op} {ch : Choice} {ans : sig.Ans op}
    {env : EnvConfig} {t b : String} (hr : s.request = some (env, t))
    (ha : batchProtocol.allow s op) (hx : w.exec op ch = some (ans, w'))
    (hsettled : (batchProtocol.next s op ans).outcome = .settled)
    (hb : (batchProtocol.next s op ans).created = some b) :
    w'.batchStatus b = some .processing ∨ w'.batchStatus b = some .failed := by
  simp only [hr] at ha hsettled hb
  have hlose : ∀ s' : BatchState, s'.outcome = .running → ∀ c, (s'.lose c).outcome ≠ .settled := by
    intro s' hs' c
    rw [lose_outcome hs']
    cases c <;> decide
  have hrun : s.outcome ≠ .settled := by
    rw [ha.1]
    decide
  cases op with
  | putBatch b' it =>
    cases ans with
    | ok r => exact absurd hsettled (hlose { s with created := some b' } ha.1 _)
    | error e => exact absurd hsettled hrun
  | join g =>
    cases ans with
    | ok r => exact absurd hsettled (hlose _ ha.1 _)
    | error e => exact absurd hsettled hrun
  | getBatch b' =>
    cases ans with
    | ok r => exact absurd hsettled hrun
    | error e => exact absurd hsettled (hlose _ ha.1 _)
  | updateBatch b' u =>
    obtain ⟨hcreated, now, st, m, hst, rfl⟩ := ha.2
    rcases exec_updateBatch hx with ⟨e, _, rfl, _⟩ | ⟨r, _, _, rfl, _⟩ | ⟨new, _, hnew, rfl, rfl⟩
    · exact absurd hsettled (hlose _ ha.1 _)
    · exact absurd hsettled (hlose _ ha.1 _)
    · obtain ⟨new', hnew', hstatus⟩ := statusRequest_apply now st m (w.batchRecord b')
      rw [hnew] at hnew'
      cases hnew'
      have hbb : b' = b := Option.some.inj (hcreated.symm.trans hb)
      rw [World.batchStatus, hbb, Dynamo.Table.put_item_self, Option.bind_some, hstatus]
      rcases hst with rfl | rfl
      · exact .inl rfl
      · exact .inr rfl
  | uuid4 =>
    cases ans <;> exact absurd hsettled hrun
  | _ => exact absurd hsettled hrun

/-- A request shows its batch at its end exactly if it does not give up. -/
theorem showsEnd_iff {c c' : Config} {m : Move} (hc : BatchCoupled c) (hI : BatchInv c)
    (h : Effect.move c m = some c') (hc' : BatchCoupled c') (hI' : BatchInv c') :
    ShowsEnd c m ↔ leavesUploading c m = false := by
  rcases move_cases h with ⟨e, rfl, _⟩ | ⟨i, ch, t, op, k, ans, w', rfl, hn, hx, rfl⟩ |
    ⟨i, t, rfl, _⟩
  · exact ⟨fun _ => rfl, fun _ _ _ _ _ _ hm => (by cases hm)⟩
  · have ha := hc.allow hn
    have hs := hI.sound t (List.mem_of_getElem? hn.1)
    have hget : (c.threads.set i (t.resume k ans))[i]? = some (t.resume k ans) := by
      rw [List.getElem?_set_self', hn.1]
      rfl
    have hmem := List.mem_of_getElem? hget
    have hloc : batchLoc (t.resume k ans) = batchProtocol.next (batchLoc t) op ans := rfl
    rw [leavesUploading_eq hn]
    constructor
    · intro hshow
      rw [← Bool.not_eq_true]
      intro hg
      cases he : t.entry with
      | batch env auth form =>
        obtain ⟨hr, _⟩ := batchLoc_eq he
        rw [he] at hg
        have hlost := (lost_iff hr hs ha hx).2 hg
        have hs' := hI'.sound _ hmem
        obtain ⟨b, hb⟩ := Option.ne_none_iff_exists'.1 (hs'.lost hlost)
        obtain ⟨hr', hb'⟩ := batchLoc_eq (t := t.resume k ans) he
        have hne : (batchLoc (t.resume k ans)).outcome ≠ .running := by
          rw [hloc, hlost]
          decide
        have hstatus := hs'.uploading b hb (by rw [hloc, hlost]; decide)
        have hres := isSome_result hr' hne (hc' _ hmem)
        have hentry : (t.resume k ans).entry.isBatchRequest = true := by
          rw [show (t.resume k ans).entry = _ from he]
          rfl
        have := hshow _ i ch _ b rfl h hget hentry hres (hb'.symm.trans hb)
        rw [hstatus] at this
        rcases this with h | h <;> cases h
      | _ =>
        rw [he] at hg
        cases hg
    · intro hg c'' i' ch' t' b hm hmove ht' hbr hres hb
      cases hm
      rw [h] at hmove
      cases hmove
      rw [hget] at ht'
      cases ht'
      obtain ⟨env, auth, form, he⟩ := isBatchRequest_eq hbr
      have he' : t.entry = .batch env auth form := he
      obtain ⟨hr, _⟩ := batchLoc_eq he'
      have hcreated := (batchLoc_eq he).2.trans hb
      have hover : Over (batchLoc (t.resume k ans)) := by
        have ho := hc' _ hmem
        cases hp : (t.resume k ans).prog with
        | ret a => rw [hp] at ho; exact ho
        | raise e => rw [hp] at ho; exact ho
        | call op' k' => rw [hp] at hres; cases hres
      rw [he'] at hg
      have hnotlost : (batchLoc (t.resume k ans)).outcome ≠ .lost := by
        intro hl
        rw [(lost_iff hr hs ha hx).1 hl] at hg
        cases hg
      have hsettled : (batchLoc (t.resume k ans)).outcome = .settled := by
        rcases hover with hnone | hne
        · rw [hcreated] at hnone
          cases hnone
        · cases ho : (batchLoc (t.resume k ans)).outcome with
          | running => exact absurd ho hne
          | settled => rfl
          | lost => exact absurd ho hnotlost
      exact settled_status hr ha hx hsettled hcreated
  · exact ⟨fun _ => rfl, fun _ _ _ _ _ _ hm => (by cases hm)⟩

theorem keepsFinal_of_inv {c : Config} (hc : BatchCoupled c) (hI : BatchInv c) (m : Move) :
    KeepsFinal c m := by
  intro c' i ch t b s hm h ht hbr hb hne
  subst hm
  obtain ⟨t', op, k, ans, w', hn, hx, rfl⟩ := Effect.move_act h
  have heq : t' = t := Option.some.inj (hn.1.symm.trans ht)
  subst heq
  have hs := hI.sound t' (List.mem_of_getElem? hn.1)
  have ha := hc.allow hn
  obtain ⟨env, auth, form, he⟩ := isBatchRequest_eq hbr
  obtain ⟨hr, _⟩ := batchLoc_eq he
  simp only [hr] at ha
  have hsame : ∀ {b' : String} {it : BatchRecord}, b ≠ b' →
      ({ c.world with batches := c.world.batches.put b' it } : World).batchStatus b = some s := by
    intro b' it hbb
    rw [World.batchStatus, Dynamo.Table.put_item_ne _ _ hbb]
    exact hb
  by_cases hop : IsBatchWrite op
  · cases op with
    | putBatch b' it =>
      rcases exec_putBatch hx with ⟨e, _, rfl, _⟩ | ⟨_, _, hnone, rfl⟩
      · exact hb
      · refine hsame fun hbb => ?_
        rw [World.batchStatus, hbb, hnone] at hb
        cases hb
    | updateBatch b' u =>
      rcases exec_updateBatch hx with ⟨e, _, _, rfl⟩ | ⟨r, _, _, _, rfl⟩ | ⟨new, _, _, _, rfl⟩
      · exact hb
      · exact hb
      · refine hsame fun hbb => ?_
        have hstatus := hs.uploading b' ha.2.1 (by rw [ha.1]; decide)
        rw [hbb, hstatus] at hb
        cases hb
        exact hne rfl
    | _ => exact hop.elim
  · rw [World.batchStatus, show w'.batches = c.world.batches from (exec_frame hx).batches hop]
    exact hb

/-- Every batch request that ends shows its batch, and none overwrites a final status. -/
def BatchShown (w : World) (ms : List Move) : Prop :=
  Along (fun c m => ShowsEnd c m ∧ KeepsFinal c m) (.init w) ms

/-- **A batch request that ends shows its batch as `PROCESSING` or `FAILED`, and overwrites no final
status, exactly in the runs without a call that gives up.** -/
theorem batchShown_iff {w : World} (hd : BatchesDrawn w) {ms : List Move} {c : Config}
    (hp : Along PlainUuids (.init w) ms) (h : play (.init w) ms = some c) :
    BatchShown w ms ↔ Along (fun c m => leavesUploading c m = false) (.init w) ms := by
  have hiff : ∀ ns m ns' c₁, ms = ns ++ m :: ns' → play (.init w) ns = some c₁ →
      (ShowsEnd c₁ m ∧ KeepsFinal c₁ m ↔ leavesUploading c₁ m = false) := by
    rintro ns m ns' c₁ rfl hns
    obtain ⟨hc, hI⟩ := batchInv_run hd (along_append hns hp).1 hns
    rw [play_append hns] at h
    obtain ⟨c₂, hm, _⟩ := Option.bind_eq_some_iff.1 h
    have hlast : play (.init w) (ns ++ [m]) = some c₂ := by
      rw [play_append hns]
      simp only [play, hm, Option.bind_some]
    have hp₂ : Along PlainUuids (.init w) ((ns ++ [m]) ++ ns') := by
      rw [List.append_assoc]
      exact hp
    obtain ⟨hc', hI'⟩ := batchInv_run hd (along_append hlast hp₂).1 hlast
    rw [showsEnd_iff hc hI hm hc' hI']
    exact ⟨And.left, fun hl => ⟨hl, keepsFinal_of_inv hc hI m⟩⟩
  rw [BatchShown, along_iff_split, along_iff_split]
  constructor
  · intro hshown ns m ns' c₁ he hns
    exact (hiff ns m ns' c₁ he hns).1 (hshown ns m ns' c₁ he hns)
  · intro hleaves ns m ns' c₁ he hns
    exact (hiff ns m ns' c₁ he hns).2 (hleaves ns m ns' c₁ he hns)

/-! ## Two batches whose only file fails -/

def sampleUser : UserContext := { tenantId := "acme", apiKeyName := "key" }

def oneFile (filename : Option String) : BatchForm := { files := [{ filename, bytes := [] }] }

/-- The request creates its batch and spawns the task of its file. -/
def batchStart (form : BatchForm) : List Move :=
  .start (.batch sampleEnv sampleUser form) :: .act 0 { uuid := "trace" } :: .act 0 { uuid := "1" }
    :: acts 3 0 ++ [.start (.batchFile sampleEnv "s3://input/docs" "acme/1" 0)]

/-- The read of the tenant fails, and the request sets `FAILED`. -/
def failedRun : List Move :=
  batchStart (oneFile (some "scan.pdf")) ++ acts 1 1
    ++ .act 1 { fail := some (.exception "timeout") } :: acts 1 1 ++ acts 4 0

set_option maxRecDepth 10000 in
theorem batchShown_failedRun : BatchShown ({} : World) failedRun := by
  have hplay : (play (.init ({} : World)) failedRun).isSome = true := by decide +kernel
  obtain ⟨c, hc⟩ := Option.isSome_iff_exists.1 hplay
  have hplain : Along PlainUuids (.init ({} : World)) failedRun := by
    decide +kernel
  refine (batchShown_iff (fun b hb => absurd rfl hb) hplain hc).2 ?_
  decide +kernel

/-- The task of a file without a name raises a 400, and the request raises it again. -/
def namelessRun : List Move := batchStart (oneFile none) ++ acts 2 1

/-- What a configuration shows of the request, the first thread. -/
def requestShown (c : Config) : Option BatchStatus × Option (Bool × Bool × Option String) :=
  (c.world.batchStatus "acme/1", (c.threads[0]?).map fun t =>
    (t.entry.isBatchRequest, t.prog.result.isSome, createdBatch t))

set_option maxRecDepth 10000 in
/-- The request ends with its batch `UPLOADING`. -/
theorem batchShown_fails : ¬ ∀ w ms c, BatchesDrawn w → Along PlainUuids (.init w) ms →
    play (.init w) ms = some c → BatchShown w ms := by
  intro hall
  have hlast : (play (.init ({} : World)) (namelessRun ++ acts 1 0)).map requestShown =
      some (some .uploading, some (true, true, some "acme/1")) := by decide +kernel
  obtain ⟨c, hc, hshown⟩ := Option.map_eq_some_iff.1 hlast
  have hplain : Along PlainUuids (.init ({} : World)) (namelessRun ++ acts 1 0) := by
    decide +kernel
  have h := hall {} (namelessRun ++ acts 1 0) c (fun b hb => absurd rfl hb) hplain hc
  have hplay : (play (.init ({} : World)) namelessRun).isSome = true := by decide +kernel
  obtain ⟨c₁, hc₁⟩ := Option.isSome_iff_exists.1 hplay
  have hends := (along_iff_split.1 h namelessRun (.act 0 {}) [] c₁ rfl hc₁).1
  rw [play_append hc₁] at hc
  obtain ⟨c₂, hm, hc⟩ := Option.bind_eq_some_iff.1 hc
  cases hc
  simp only [requestShown, Prod.mk.injEq, Option.map_eq_some_iff] at hshown
  obtain ⟨hstatus, t, ht, hbatch, hover, hcreated⟩ := hshown
  have := hends c 0 {} t "acme/1" rfl hm ht hbatch hover hcreated
  rw [hstatus] at this
  rcases this with h | h <;> cases h

end DocumentAi
