import DocumentAi.Lib.Protocol
import DocumentAi.Routers.DocumentReads
import DocumentAi.Runs.TerminalStatus

/-!
# Is a deleted document unreadable?

Deletion is a status. The document get tests it (`routers/documents.py:325-328`), the search and the
evaluation do not, and a late upsert or write of a started BDA job replaces it.

| here | meaning |
| --- | --- |
| `deletes`, `undeletes`  | a request goes through that makes the record `DELETED`, or no longer `DELETED` |
| `deleted_iff`         | a deleted record is still `DELETED` iff nothing has undeleted it |
| `reading`             | the runs of a read: its lookup is answered in one world, its other calls in any |
| `Hidden`              | the read answers not-found for the job |
| `deletedHidden_iff`   | when a read after the last deletion of a record hides it |
-/

namespace DocumentAi

open Effect (play play_append move_cases Along Ends Steps)
open Effect.Protocol (obeys_bind obeys_tryCatch obeys_perform obeys_ret obeys_raise)
open Effect.Prog (spec_ite spec_tryCatch all_bind)

/-! ## The status after a deletion -/

/-- The status that the move sets on the record `k`. -/
def statusSet (k : String) (c : Config) (m : Move) : Option ProcessStatus :=
  match passes c m with
  | some (.updateItem j u) =>
    if j = k ∧ (u.apply (c.world.record k)).isOk = true then statusWrite u else none
  | _ => none

/-- `mark_document_deleted` goes through for the record `k`. -/
def deletes (k : String) (c : Config) (m : Move) : Bool := statusSet k c m == some .deleted

/-- A request goes through that sets another status on the record `k`. -/
def undeletes (k : String) (c : Config) (m : Move) : Bool := (statusSet k c m).any (· != .deleted)

theorem statusSet_failed {k : String} {c : Config} {i : Nat} {ch : Choice} {e : Exc}
    (hf : ch.fail = some e) : statusSet k c (.act i ch) = none := by
  simp [statusSet, passes, hf]

theorem statusSet_elsewhere {k : String} {c : Config} {i : Nat} {ch : Choice} {op : Op}
    (hn : c.nextOp i = some op) (hop : op.isElsewhere = true) :
    statusSet k c (.act i ch) = none := by
  cases hf : ch.fail with
  | some e => exact statusSet_failed hf
  | none =>
    have hpass : passes c (.act i ch) = some op := by simp [passes, hf, hn]
    rw [statusSet, hpass]
    cases op with
    | updateItem => cases hop
    | _ => rfl

theorem statusSet_updateItem {j k : String} {c : Config} {i : Nat} {ch : Choice} {u : DocUpdate}
    (hn : c.nextOp i = some (.updateItem j u)) (hf : ch.fail = none) :
    statusSet k c (.act i ch) =
      if j = k ∧ (u.apply (c.world.record k)).isOk = true then statusWrite u else none := by
  have hpass : passes c (.act i ch) = some (.updateItem j u) := by simp [passes, hf, hn]
  rw [statusSet, hpass]

theorem status_move {k : String} {c c' : Config} {m : Move} (hc : c.All OnSomeDoc)
    (h : Effect.move c m = some c') :
    (c'.world.record k).status = (statusSet k c m).or (c.world.record k).status := by
  rcases move_cases h with ⟨e, rfl, rfl⟩ | ⟨i, ch, t, op, κ, ans, w', rfl, hn, hx, rfl⟩ |
    ⟨i, t, rfl, ht, rfl⟩
  · rfl
  · have hop : c.nextOp i = some op := Effect.Config.nextOp_eq_some.2 ⟨t, κ, hn⟩
    obtain ⟨j, hj | hj⟩ := hc.next hn
    · rw [statusSet_elsewhere hop hj, Option.none_or, record_congr ((exec_frame hx).docs hj)]
    · obtain ⟨u, rfl⟩ := docWrite_updateItem hj
      cases hf : ch.fail with
      | some e =>
        rw [statusSet_failed hf, Option.none_or]
        rcases exec_updateItem hx with ⟨_, _, rfl⟩ | ⟨_, _, hf', _⟩
        · rfl
        · rw [hf] at hf'
          cases hf'
      | none =>
        rw [statusSet_updateItem hop hf]
        by_cases hjk : j = k
        · subst hjk
          cases ha : u.apply (c.world.record j) with
          | error e =>
            rcases exec_updateItem hx with ⟨_, _, rfl⟩ | ⟨new, _, _, hnew, _⟩
            · simp [Except.isOk, Except.toBool]
            · rw [ha] at hnew
              cases hnew
          | ok new =>
            have hx' := (exec_updateItem_ok hf ha).symm.trans hx
            cases hx'
            rw [record_setRecord_self, docWrite_status hj ha, if_pos ⟨rfl, rfl⟩]
        · rw [if_neg fun h => hjk h.1, Option.none_or]
          rcases exec_updateItem hx with ⟨_, _, rfl⟩ | ⟨new, _, _, _, rfl⟩
          · rfl
          · rw [record_setRecord_ne _ _ (Ne.symm hjk)]
  · rfl

/-- Without a deletion, a record that is not `DELETED` does not become so. -/
theorem notDeleted_run {k : String} {c c' : Config} {ns : List Move} (hc : c.All OnSomeDoc)
    (hs : (c.world.record k).status ≠ some .deleted)
    (ha : Along (fun c m => deletes k c m = false) c ns) (h : play c ns = some c') :
    (c'.world.record k).status ≠ some .deleted := by
  induction ns generalizing c with
  | nil => cases h; exact hs
  | cons m ns ih =>
    obtain ⟨c₁, hm, h⟩ := Option.bind_eq_some_iff.1 h
    refine ih (hc.move body_onSomeDoc hm) ?_ (ha.2 c₁ hm) h
    rw [status_move hc hm]
    cases hset : statusSet k c m with
    | none => exact hs
    | some s =>
      have hd : deletes k c m = false := ha.1
      simpa [deletes, hset] using hd

/-- After its last deletion a record is `DELETED` exactly while nothing has undeleted it. -/
theorem deleted_iff {k : String} {c c' : Config} {ns : List Move} (hc : c.All OnSomeDoc)
    (hs : (c.world.record k).status = some .deleted)
    (ha : Along (fun c m => deletes k c m = false) c ns) (h : play c ns = some c') :
    (c'.world.record k).status = some .deleted ↔
      Along (fun c m => undeletes k c m = false) c ns := by
  induction ns generalizing c with
  | nil => cases h; exact ⟨fun _ => trivial, fun _ => hs⟩
  | cons m ns ih =>
    obtain ⟨c₁, hm, h⟩ := Option.bind_eq_some_iff.1 h
    have hc₁ := hc.move body_onSomeDoc hm
    have hstatus := status_move (k := k) hc hm
    cases hset : statusSet k c m with
    | none =>
      rw [hset, Option.none_or, hs] at hstatus
      rw [ih hc₁ hstatus (ha.2 c₁ hm) h, Along]
      constructor
      · intro hrest
        refine ⟨by simp [undeletes, hset], fun c₂ h₂ => ?_⟩
        rw [hm] at h₂
        cases h₂
        exact hrest
      · exact fun hall => hall.2 c₁ hm
    | some s =>
      rw [hset, Option.some_or] at hstatus
      have hd : deletes k c m = false := ha.1
      have hds : s ≠ .deleted := by simpa [deletes, hset] using hd
      have hne : (c₁.world.record k).status ≠ some .deleted := by
        rw [hstatus]
        simpa using hds
      constructor
      · exact fun hdel => absurd hdel (notDeleted_run hc₁ hne (ha.2 c₁ hm) h)
      · intro hall
        have hr : undeletes k c m = false := hall.1
        simp [undeletes, hset, hds] at hr

/-! ## Runs of a read -/

/-- The job the index finds for `jobId`. -/
def World.jobStatus (w : World) (jobId : String) : JobStatus :=
  (w.docs.query fun (it : Record) => it.jobId == some jobId).head?

/-- The lookup of the job. -/
def Op.looksUp (jobId : String) : Op → Bool
  | .queryByJobId i => i == jobId
  | _               => false

/-- A read that runs among other handlers: its lookup of `jobId` is answered in `w`, every other
call in any world. -/
abbrev reading (w : World) (jobId : String) : Effect.Sys sig where
  World  := Unit
  Choice := World × Choice
  exec   := fun _ op ch =>
    if op.looksUp jobId then (w.run {} op).map fun r => (r.1, ())
    else (World.exec ch.1 op ch.2).map fun r => (r.1, ())
  Entry  := DocumentRead
  body   := fun _ => .ret ()

/-- The read asks for the job, within the limit of a search. -/
def DocumentRead.Asks (jobId : String) : DocumentRead → Prop
  | get i ..     => i = jobId
  | search ids _ => jobId ∈ ids ∧ ids.length ≤ maxSearchJobIds
  | evaluation i => i = jobId

def DocumentRead.isGet : DocumentRead → Bool
  | get .. => true
  | _      => false

/-- The answer is not-found for the job: a 404, or entries of a search that say so. -/
def Hidden (jobId : String) : DocumentRead → Except Exc ReadAnswer → Prop
  | .search ids _, .ok (.found entries) =>
    ∀ p ∈ ids.zip entries, p.1 = jobId → p.2 = .notFound jobId
  | .search .., _ => False
  | _, answer     => answer = .error (notFound jobId)

/-- Every answer to the read, its lookup made in `w`, is not-found. -/
def HidesJob (env : EnvConfig) (auth : UserContext) (w : World) (jobId : String)
    (rd : DocumentRead) : Prop :=
  ∀ tr answer, Ends (reading w jobId) () (rd.body env auth) tr answer () → Hidden jobId rd answer

/-! ## What a read is answered -/

/-- The lookup of the job finds `found`. -/
def finds (jobId : String) (found : JobStatus) : (op : Op) → sig.Ans op → Prop
  | .queryByJobId i, .ok items => i = jobId → (items : List (String × Record)).head? = found
  | .queryByJobId i, .error _  => i ≠ jobId
  | _, _ => True

/-- Answers that a read can get: the lookup finds `found`, and only with `calm` the other calls
raise no HTTP error. -/
abbrev readProtocol (jobId : String) (found : JobStatus) (calm : Bool) : Effect.Protocol sig where
  State := Unit
  allow _ _ := True
  possible _ op ans :=
    (∀ e, ans = .error e → calm = true → e.isHttp = false) ∧ finds jobId found op ans
  next _ _ _ := ()

section
variable {jobId : String} {found : JobStatus} {calm : Bool} {env : EnvConfig} {auth : UserContext}
  {k : String} {r : Record} {α : Type}

/-- From now on every program of the section is run with the answers of `readProtocol`. -/
abbrev Gives (jobId : String) (found : JobStatus) (calm : Bool) (Q : α → Prop) (E : Exc → Prop)
    (p : Prog α) : Prop :=
  (readProtocol jobId found calm).Obeys (fun _ a => Q a) (fun _ e => E e) () p

theorem gives_any (p : Prog α) : Gives jobId found calm (fun _ => True) (fun _ => True) p :=
  Effect.Protocol.obeys_of_free (I := fun _ => True) (fun _ _ _ => ⟨trivial, fun _ => trivial⟩)
    trivial p

theorem gives_getJobStatus :
    Gives jobId found calm (· = found) (fun _ => False) (getJobStatus jobId) := by
  refine obeys_bind (Q := fun _ (items : List (String × Record)) => items.head? = found)
    (obeys_perform trivial (fun items h => h.2 rfl) fun e h => h.2 rfl) fun _ items h => ?_
  exact obeys_ret h

/-! ### The document get and the evaluation -/

theorem gives_getDocumentResults_hidden {d b : Bool}
    (h : ∀ k r, found = some (k, r) → r.tenantId ≠ some auth.tenantId ∨ r.status = some .deleted) :
    Gives jobId found calm (fun _ => False) (· = notFound jobId)
      (getDocumentResults env auth jobId d b) := by
  unfold getDocumentResults
  refine obeys_tryCatch (F := fun _ e => e = notFound jobId) ?_ fun _ e he => ?_
  · refine obeys_bind (gives_getJobStatus.mono (fun _ _ h => h) fun _ _ h => h.elim) fun _ st hst => ?_
    rw [hst]
    cases hf : found with
    | none => exact obeys_raise rfl
    | some kr =>
      obtain ⟨k, r⟩ := kr
      dsimp only [documentResults]
      by_cases ht : r.tenantId = some auth.tenantId
      · rw [if_neg (not_not_intro ht)]
        have hs := (h k r hf).resolve_left (not_not_intro ht)
        rw [if_pos hs]
        exact obeys_raise rfl
      · rw [if_pos ht]
        exact obeys_raise rfl
  · subst he
    exact obeys_raise rfl

/-- Building a response raises no HTTP error of its own. -/
theorem gives_buildV1ApiResponse {status : ProcessStatus} {d b : Bool} :
    Gives jobId found true (fun _ => True) (fun e => e.isHttp = false)
      (buildV1ApiResponse env k status none none d b) := by
  have hread : ∀ r : Record, Gives jobId found true (fun _ => True) (fun e => e.isHttp = false)
      (readOutput env r d) := by
    intro r
    unfold readOutput
    split
    · trivial
    · split
      · trivial
      · refine obeys_bind (Q := fun _ _ => True) ?_ fun _ _ _ => trivial
        unfold getBdaResultJson
        split
        · trivial
        · exact obeys_tryCatch (gives_any _) fun _ _ _ => trivial
  have hrules : ∀ (r : Record) fields, Gives jobId found true (fun _ => True)
      (fun e => e.isHttp = false) (applyRulesOrKeep env r fields) := by
    intro r fields
    unfold applyRulesOrKeep
    split
    · split
      · trivial
      · exact obeys_tryCatch (gives_any _) fun _ _ _ => trivial
    · trivial
  unfold buildV1ApiResponse
  refine obeys_bind (Q := fun _ _ => True)
    (obeys_perform trivial (fun _ _ => trivial) fun e h => h.1 e rfl rfl) fun _ r _ => ?_
  cases r with
  | none => rfl
  | some r =>
    dsimp only
    split
    · refine obeys_bind (Q := fun _ _ => True) ?_ fun _ fields _ => ?_
      · exact obeys_bind (hread r) fun _ _ _ => trivial
      · exact obeys_bind (hrules r fields) fun _ _ _ => trivial
    · split <;> trivial

theorem gives_getDocumentResults_shown {d b : Bool} (ht : r.tenantId = some auth.tenantId)
    (hs : r.status ≠ some .deleted) :
    Gives jobId (some (k, r)) true (fun _ => True) (· ≠ notFound jobId)
      (getDocumentResults env auth jobId d b) := by
  unfold getDocumentResults
  refine obeys_tryCatch (F := fun _ e => e ≠ notFound jobId) ?_ fun _ e he => ?_
  · refine obeys_bind (gives_getJobStatus.mono (fun _ _ h => h) fun _ _ h => h.elim) fun _ st hst => ?_
    rw [hst]
    dsimp only [documentResults]
    rw [if_neg (not_not_intro ht), if_neg hs]
    cases r.v1ApiResponseJson with
    | none => trivial
    | some stored =>
      dsimp only
      unfold classifiedResults
      split
      · split
        · exact obeys_raise (by simp [notFound])
        · refine obeys_bind (gives_buildV1ApiResponse.mono (fun _ _ h => h) fun _ e he => ?_)
            fun _ _ _ => trivial
          rintro rfl
          cases he
      · trivial
  · split
    · exact he
    · exact obeys_raise (by simp [notFound])

theorem gives_getDocumentEvaluation_hidden
    (h : ∀ k r, found = some (k, r) → r.tenantId ≠ some auth.tenantId) :
    Gives jobId found calm (fun _ => False) (· = notFound jobId)
      (getDocumentEvaluation auth jobId) := by
  refine obeys_bind (gives_getJobStatus.mono (fun _ _ h => h) fun _ _ h => h.elim) fun _ st hst => ?_
  rw [hst]
  cases hf : found with
  | none => exact obeys_raise rfl
  | some kr =>
    dsimp only
    rw [if_pos (h kr.1 kr.2 hf)]
    exact obeys_raise rfl

theorem gives_getDocumentEvaluation_shown (ht : r.tenantId = some auth.tenantId) :
    Gives jobId (some (k, r)) calm (fun _ => True) (· ≠ notFound jobId)
      (getDocumentEvaluation auth jobId) := by
  refine obeys_bind (gives_getJobStatus.mono (fun _ _ h => h) fun _ _ h => h.elim) fun _ st hst => ?_
  rw [hst]
  dsimp only
  rw [if_neg (not_not_intro ht)]
  split
  · exact obeys_raise (by simp [notFound])
  · trivial

/-! ### The search -/

theorem gives_searchEntry_any (d : Bool) (i : String) (st : Except Exc JobStatus) :
    Gives jobId found calm (fun _ => True) (fun _ => False) (searchEntry env auth d i st) :=
  obeys_tryCatch (gives_any _) fun _ _ _ => trivial

theorem gives_searchEntry_hidden {d : Bool}
    (h : ∀ k r, found = some (k, r) → r.tenantId ≠ some auth.tenantId) :
    Gives jobId found calm (· = .notFound jobId) (fun _ => False)
      (searchEntry env auth d jobId (.ok found)) := by
  refine obeys_tryCatch (F := fun _ _ => False) ?_ fun _ _ h => h.elim
  change Gives jobId found calm _ _ (searchResult env auth d jobId found)
  cases hf : found with
  | none => exact obeys_ret rfl
  | some kr =>
    dsimp only [searchResult]
    rw [if_pos (h kr.1 kr.2 hf)]
    exact obeys_ret rfl

theorem gives_searchEntry_shown {d : Bool} (ht : r.tenantId = some auth.tenantId) :
    Gives jobId (some (k, r)) calm (· ≠ .notFound jobId) (fun _ => False)
      (searchEntry env auth d jobId (.ok (some (k, r)))) := by
  refine obeys_tryCatch (F := fun _ _ => True) ?_ fun _ _ _ => ?_
  · change Gives jobId (some (k, r)) calm _ _ (searchResult env auth d jobId (some (k, r)))
    dsimp only [searchResult]
    rw [if_neg (not_not_intro ht)]
    cases r.v1ApiResponseJson with
    | none => exact obeys_ret (by simp [pendingResponse])
    | some stored =>
      dsimp only
      unfold classifiedResults
      split
      · split
        · exact obeys_ret (by simp)
        · exact obeys_bind (gives_any _) fun _ _ _ => obeys_ret (by simp)
      · exact obeys_ret (by simp)
  · exact obeys_ret (by simp)

/-- The lookups answer each id once, and the job with what is found. -/
theorem gives_searchLookups (ids : List String) :
    Gives jobId found calm (fun statuses => statuses.length = ids.length ∧
      ∀ p ∈ ids.zip statuses, p.1 = jobId → p.2 = .ok found) (fun _ => False)
      (searchLookups ids) := by
  induction ids with
  | nil => exact ⟨rfl, fun _ h => (by cases h)⟩
  | cons i ids ih =>
    refine obeys_bind (Q := fun _ st => i = jobId → st = .ok found) ?_ fun _ st hst => ?_
    · by_cases hi : i = jobId
      · subst hi
        refine obeys_tryCatch (F := fun _ _ => False) ?_ fun _ _ h => h.elim
        exact obeys_bind gives_getJobStatus fun _ st hst => obeys_ret fun _ => by rw [hst]
      · refine obeys_tryCatch (F := fun _ _ => True) ?_ fun _ _ _ => obeys_ret fun h => absurd h hi
        exact obeys_bind (gives_any _) fun _ st _ => obeys_ret fun h => absurd h hi
    · refine obeys_bind ih fun _ statuses hs => obeys_ret ⟨by simp [hs.1], fun p hp => ?_⟩
      rcases List.mem_cons.1 hp with rfl | hp
      · exact hst
      · exact hs.2 p hp

theorem gives_searchEntries {d : Bool} {C : JobStatusResponse → Prop}
    (hentry : Gives jobId found calm C (fun _ => False)
      (searchEntry env auth d jobId (.ok found))) :
    ∀ (ids : List String) (statuses : List (Except Exc JobStatus)),
      statuses.length = ids.length → (∀ p ∈ ids.zip statuses, p.1 = jobId → p.2 = .ok found) →
      Gives jobId found calm (fun entries => entries.length = ids.length ∧
        ∀ p ∈ ids.zip entries, p.1 = jobId → C p.2) (fun _ => False)
        (searchEntries env auth d ids statuses)
  | [], [], _, _ => ⟨rfl, fun _ h => (by cases h)⟩
  | i :: ids, st :: statuses, hlen, hst => by
    obtain ⟨hhead, hrest⟩ := List.forall_mem_cons.1 hst
    refine obeys_bind (Q := fun _ entry => i = jobId → C entry) ?_ fun _ entry he => ?_
    · by_cases hi : i = jobId
      · subst hi
        rw [show st = .ok found from hhead rfl]
        exact hentry.mono (fun _ _ h _ => h) fun _ _ h => h
      · exact (gives_searchEntry_any d i st).mono (fun _ _ _ h => absurd h hi) fun _ _ h => h
    · refine obeys_bind (gives_searchEntries hentry ids statuses (by simpa using hlen) hrest)
        fun _ entries hs => obeys_ret ⟨by simp [hs.1], fun p hp => ?_⟩
      rcases List.mem_cons.1 hp with rfl | hp
      · exact he
      · exact hs.2 p hp

theorem gives_searchDocuments {d : Bool} {C : JobStatusResponse → Prop} {ids : List String}
    (hids : jobId ∈ ids ∧ ids.length ≤ maxSearchJobIds)
    (hentry : Gives jobId found calm C (fun _ => False)
      (searchEntry env auth d jobId (.ok found))) :
    Gives jobId found calm (fun entries => entries.length = ids.length ∧
      ∀ p ∈ ids.zip entries, p.1 = jobId → C p.2) (fun _ => False)
      (searchDocuments env auth ids d) := by
  unfold searchDocuments
  rw [if_neg (List.ne_nil_of_mem hids.1), if_neg (Nat.not_lt.2 hids.2)]
  exact obeys_bind (gives_searchLookups ids) fun _ statuses h =>
    gives_searchEntries hentry ids statuses h.1 h.2

/-! ### Any read -/

/-- A job of another tenant, or one that is gone and asked for by its own get, is not found. -/
theorem gives_body_hidden {rd : DocumentRead} (hrd : rd.Asks jobId)
    (h : ∀ k r, found = some (k, r) →
      r.tenantId ≠ some auth.tenantId ∨ (rd.isGet = true ∧ r.status = some .deleted)) :
    Gives jobId found calm (fun a => Hidden jobId rd (.ok a)) (fun e => Hidden jobId rd (.error e))
      (rd.body env auth) := by
  cases rd with
  | get i d b =>
    obtain rfl : i = jobId := hrd
    have hgone : ∀ k r, found = some (k, r) →
        r.tenantId ≠ some auth.tenantId ∨ r.status = some .deleted :=
      fun k r hf => (h k r hf).imp_right And.right
    exact obeys_bind ((gives_getDocumentResults_hidden hgone).mono (fun _ _ h => h)
      fun _ e he => congrArg Except.error he) fun _ _ h => h.elim
  | search ids d =>
    have hforeign : ∀ k r, found = some (k, r) → r.tenantId ≠ some auth.tenantId :=
      fun k r hf => (h k r hf).resolve_right fun hg => by cases hg.1
    refine obeys_bind ((gives_searchDocuments hrd (gives_searchEntry_hidden hforeign)).mono
      (fun _ _ h => h) fun _ _ h => h.elim) fun _ entries hs => obeys_ret ?_
    exact hs.2
  | evaluation i =>
    obtain rfl : i = jobId := hrd
    have hforeign : ∀ k r, found = some (k, r) → r.tenantId ≠ some auth.tenantId :=
      fun k r hf => (h k r hf).resolve_right fun hg => by cases hg.1
    exact obeys_bind ((gives_getDocumentEvaluation_hidden hforeign).mono (fun _ _ h => h)
      fun _ e he => congrArg Except.error he) fun _ _ h => h.elim

/-- A job of the tenant that is not deleted, or not asked for by a get, is answered. -/
theorem gives_body_shown {rd : DocumentRead} (hrd : rd.Asks jobId)
    (ht : r.tenantId = some auth.tenantId)
    (hs : rd.isGet = true → r.status ≠ some .deleted) :
    Gives jobId (some (k, r)) true (fun a => ¬ Hidden jobId rd (.ok a))
      (fun e => ¬ Hidden jobId rd (.error e)) (rd.body env auth) := by
  cases rd with
  | get i d b =>
    obtain rfl : i = jobId := hrd
    refine obeys_bind ((gives_getDocumentResults_shown ht (hs rfl)).mono (fun _ _ h => h)
      fun _ e he h => he (Except.error.inj h)) fun _ a _ => obeys_ret fun h => ?_
    cases h
  | search ids d =>
    refine obeys_bind ((gives_searchDocuments hrd (gives_searchEntry_shown ht)).mono
      (fun _ _ h => h) fun _ _ h => h.elim) fun _ entries hall => obeys_ret fun hh => ?_
    obtain ⟨n, hn, hget⟩ := List.mem_iff_getElem.1 hrd.1
    obtain ⟨hlen, hall⟩ := hall
    have hn' : n < entries.length := by rw [hlen]; exact hn
    have hmem : (ids[n], entries[n]) ∈ ids.zip entries :=
      List.mem_iff_getElem.2
        ⟨n, by rw [List.length_zip]; exact lt_min hn hn', List.getElem_zip⟩
    exact hall _ hmem hget (hh _ hmem hget)
  | evaluation i =>
    obtain rfl : i = jobId := hrd
    refine obeys_bind ((gives_getDocumentEvaluation_shown ht).mono (fun _ _ h => h)
      fun _ e he h => he (Except.error.inj h)) fun _ a _ => obeys_ret fun h => ?_
    cases h

end

/-! ## The answers of a world -/

theorem jobStatus_record {w : World} {jobId k : String} {r : Record}
    (h : w.jobStatus jobId = some (k, r)) : w.record k = r := by
  have hmem := List.mem_of_head? h
  rw [World.record, (Dynamo.Table.mem_query.1 hmem).1, Option.getD_some]

theorem reading_finds {w : World} {jobId : String} {op : Op} {ch : World × Choice}
    {ans : sig.Ans op} {u : Unit} (h : (reading w jobId).exec () op ch = some (ans, u)) :
    finds jobId (w.jobStatus jobId) op ans := by
  cases op with
  | queryByJobId i =>
    by_cases hi : i = jobId
    · subst hi
      have hrun : (World.run w {} (.queryByJobId i)).map (fun r => (r.1, ())) = some (ans, u) :=
        (if_pos (beq_self_eq_true i)).symm.trans h
      cases hrun
      exact fun _ => rfl
    · cases ans with
      | ok items => exact fun h => absurd h hi
      | error e => exact hi
  | _ => cases ans <;> trivial

theorem quiet_getJobStatus (jobId : String) : Quiet (getJobStatus jobId) :=
  all_bind (quiet_call rfl) fun _ => trivial

theorem quiet_classifiedResults {env : EnvConfig} {d b : Bool} {incomplete : Prog JobStatusResponse}
    (hi : Quiet incomplete) (k : String) (r : Record) (stored : V1ApiResponse) :
    Quiet (classifiedResults env d b incomplete k r stored) := by
  unfold classifiedResults
  refine spec_ite ?_ trivial
  split
  · exact hi
  · exact all_bind (reads_buildV1ApiResponse ..).quiet fun _ => trivial

theorem quiet_getDocumentResults (env : EnvConfig) (auth : UserContext) (jobId : String)
    (d b : Bool) : Quiet (getDocumentResults env auth jobId d b) := by
  refine spec_tryCatch (all_bind (quiet_getJobStatus jobId) fun status => ?_) fun e => ?_
  · unfold documentResults
    split
    · trivial
    · refine spec_ite trivial (spec_ite trivial ?_)
      split
      · trivial
      · exact quiet_classifiedResults (all_throw _) ..
  · split <;> trivial

theorem quiet_searchEntry (env : EnvConfig) (auth : UserContext) (d : Bool) (jobId : String)
    (status : Except Exc JobStatus) : Quiet (searchEntry env auth d jobId status) := by
  refine spec_tryCatch (all_bind (all_liftExcept status) fun found => ?_) fun _ => trivial
  unfold searchResult
  split
  · trivial
  · refine spec_ite trivial ?_
    split
    · trivial
    · exact quiet_classifiedResults (all_pure _) ..

theorem quiet_searchLookups : ∀ jobIds, Quiet (searchLookups jobIds)
  | []              => trivial
  | jobId :: jobIds =>
    all_bind (spec_tryCatch (all_bind (quiet_getJobStatus jobId) fun _ => trivial) fun _ => trivial)
      fun _ => all_bind (quiet_searchLookups jobIds) fun _ => trivial

theorem quiet_searchEntries (env : EnvConfig) (auth : UserContext) (d : Bool) :
    ∀ jobIds statuses, Quiet (searchEntries env auth d jobIds statuses)
  | jobId :: jobIds, status :: statuses =>
    all_bind (quiet_searchEntry env auth d jobId status) fun _ =>
      all_bind (quiet_searchEntries env auth d jobIds statuses) fun _ => trivial
  | [], _     => trivial
  | _ :: _, [] => trivial

theorem quiet_searchDocuments (env : EnvConfig) (auth : UserContext) (jobIds : List String)
    (d : Bool) : Quiet (searchDocuments env auth jobIds d) :=
  spec_ite trivial (spec_ite trivial (all_bind (quiet_searchLookups jobIds) fun _ =>
    quiet_searchEntries ..))

theorem quiet_getDocumentEvaluation (auth : UserContext) (jobId : String) :
    Quiet (getDocumentEvaluation auth jobId) := by
  refine all_bind (quiet_getJobStatus jobId) fun status => ?_
  split
  · trivial
  · exact spec_ite trivial (spec_ite trivial trivial)

theorem quiet_body (env : EnvConfig) (auth : UserContext) (rd : DocumentRead) :
    Quiet (rd.body env auth) := by
  cases rd with
  | get => exact all_bind (quiet_getDocumentResults ..) fun _ => trivial
  | search => exact all_bind (quiet_searchDocuments ..) fun _ => trivial
  | evaluation => exact all_bind (quiet_getDocumentEvaluation ..) fun _ => trivial

/-- A quiet call can be answered without an HTTP error. -/
theorem exec_calm (w : World) {op : Op} (hop : op.isQuiet = true) :
    ∃ ans w', World.exec { w with uuids := [] } op {} = some (ans, w') ∧
      ∀ e, ans = .error e → e.isHttp = false := by
  cases op with
  | getObject key =>
    cases hobj : World.object { w with uuids := [] } key with
    | none =>
      refine ⟨_, _, by simp [World.exec, World.run, hobj]; rfl, ?_⟩
      rintro e ⟨⟩
      rfl
    | some o => exact ⟨_, _, by simp [World.exec, World.run, hobj]; rfl, fun _ h => by cases h⟩
  | getLastModifiedAt key =>
    cases hobj : World.object { w with uuids := [] } key with
    | none =>
      refine ⟨_, _, by simp [World.exec, World.run, hobj]; rfl, ?_⟩
      rintro e ⟨⟩
      rfl
    | some o => exact ⟨_, _, by simp [World.exec, World.run, hobj]; rfl, fun _ h => by cases h⟩
  | random =>
    have hx : World.exec { w with uuids := [] } .random {} =
        some (.ok (0 : Rat), { w with uuids := [] }) := by
      have hone : (0 : Rat) < 1 := by decide
      simp [World.exec, World.run, World.ok, hone]
    exact ⟨_, _, hx, fun _ h => by cases h⟩
  | uuid4 =>
    have hx : World.exec { w with uuids := [] } .uuid4 {} =
        some (.ok "", { w with uuids := [""] }) := by
      simp [World.exec, World.run]
    exact ⟨_, _, hx, fun _ h => by cases h⟩
  | getItem | queryByJobId | queryByBdaInvocationId | queryByBatchId | queryByStatusCreatedAt
  | getBatch | queryMonth | getTenant | getCategory | autoRegisterCategory | getRule | sendMetrics
  | putMetricData | getDataAutomationStatus | now =>
    exact ⟨_, _, rfl, fun _ h => by cases h⟩
  | _ => cases hop

theorem reading_calm (w : World) (jobId : String) {α : Type} {p : Prog α} (hp : Quiet p) :
    ∃ tr answer, Ends (reading w jobId) () p tr answer () ∧
      ∀ ev ∈ tr, ∀ s, (readProtocol jobId (w.jobStatus jobId) true).possible s ev.op ev.ans := by
  induction p with
  | ret a => exact ⟨[], .ok a, .refl, fun _ h => by cases h⟩
  | raise e => exact ⟨[], .error e, .refl, fun _ h => by cases h⟩
  | call op κ ih =>
    have hans : ∃ ch ans, (reading w jobId).exec () op ch = some (ans, ()) ∧
        ∀ e, ans = .error e → e.isHttp = false := by
      by_cases hl : op.looksUp jobId = true
      · cases op with
        | queryByJobId i =>
          exact ⟨(w, {}), _, if_pos hl, fun _ h => by cases h⟩
        | _ => cases hl
      · obtain ⟨ans, w', hx, hcalm⟩ := exec_calm w hp.1
        refine ⟨({ w with uuids := [] }, {}), ans, ?_, hcalm⟩
        exact (if_neg hl).trans (congrArg (Option.map fun r => (r.1, ())) hx)
    obtain ⟨ch, ans, hx, hcalm⟩ := hans
    obtain ⟨tr, answer, hend, hpos⟩ := ih ans (hp.2 ans)
    refine ⟨⟨op, ans⟩ :: tr, answer, .call hx hend, ?_⟩
    rintro ev (_ | ⟨_, hev⟩) s
    · exact ⟨fun e he _ => hcalm e he, reading_finds hx⟩
    · exact hpos ev hev s

/-! ## When a read hides the job -/

section
variable {w : World} {env : EnvConfig} {auth : UserContext} {jobId k : String} {r : Record}
  {rd : DocumentRead}

theorem hidesJob_iff (hjob : w.jobStatus jobId = some (k, r)) (hrd : rd.Asks jobId) :
    HidesJob env auth w jobId rd ↔ r.tenantId ≠ some auth.tenantId ∨
      (rd.isGet = true ∧ r.status = some .deleted) := by
  constructor
  · intro hall
    by_contra hcon
    obtain ⟨ht, hs⟩ := not_or.1 hcon
    obtain ⟨tr, answer, hend, hpos⟩ := reading_calm w jobId (quiet_body env auth rd)
    have hbody : Gives jobId (some (k, r)) true (fun a => ¬ Hidden jobId rd (.ok a))
        (fun e => ¬ Hidden jobId rd (.error e)) (rd.body env auth) :=
      gives_body_shown hrd (not_not.1 ht) fun hg hd => hs ⟨hg, hd⟩
    rw [hjob] at hpos
    have hobeys := hbody.trace hend hpos
    cases answer with
    | ok a => exact hobeys (hall _ _ hend)
    | error e => exact hobeys (hall _ _ hend)
  · intro hcond tr answer hend
    have hgone : ∀ k' r', w.jobStatus jobId = some (k', r') →
        r'.tenantId ≠ some auth.tenantId ∨ (rd.isGet = true ∧ r'.status = some .deleted) := by
      intro k' r' hf
      rw [hjob] at hf
      cases hf
      exact hcond
    have hbody : Gives jobId (w.jobStatus jobId) false (fun a => Hidden jobId rd (.ok a))
        (fun e => Hidden jobId rd (.error e)) (rd.body env auth) := gives_body_hidden hrd hgone
    have hpos : ∀ s u op ch ans u', (reading w jobId).exec u op ch = some (ans, u') →
        (readProtocol jobId (w.jobStatus jobId) false).possible s op ans :=
      fun _ _ _ _ _ _ hx => ⟨fun _ _ h => (by cases h), reading_finds hx⟩
    have hobeys := hbody.steps hpos hend
    cases answer with
    | ok a => exact hobeys
    | error e => exact hobeys

end

/-- **After the last deletion of a record, a read of its job by the tenant answers not-found exactly
when it is a document get and nothing has written another status since.** -/
theorem deletedHidden_iff {w : World} {ms ns : List Move} {c₁ c₂ c : Config} {m : Move}
    {k jobId : String} {r : Record} (env : EnvConfig) (auth : UserContext) {rd : DocumentRead}
    (h₁ : play (.init w) ms = some c₁) (hm : Effect.move c₁ m = some c₂)
    (hdel : deletes k c₁ m = true) (h : play c₂ ns = some c)
    (hlast : Along (fun c m => deletes k c m = false) c₂ ns)
    (hjob : c.world.jobStatus jobId = some (k, r)) (hrd : rd.Asks jobId) :
    HidesJob env auth c.world jobId rd ↔ r.tenantId ≠ some auth.tenantId ∨
      (rd.isGet = true ∧ Along (fun c m => undeletes k c m = false) c₂ ns) := by
  have hc₁ : c₁.All OnSomeDoc :=
    Effect.Config.All.play body_onSomeDoc (Effect.Config.all_init _ w) h₁
  have hc₂ := hc₁.move body_onSomeDoc hm
  have hdeleted : (c₂.world.record k).status = some .deleted := by
    rw [status_move hc₁ hm, eq_of_beq hdel, Option.some_or]
  have hrecord : c.world.record k = r := jobStatus_record hjob
  rw [hidesJob_iff hjob hrd, ← deleted_iff hc₂ hdeleted hlast h, hrecord]

/-! ## A soft deletion, and a search after it -/

def sampleReader : UserContext := { tenantId := "acme", apiKeyName := "key" }

/-- An extracted document whose response is stored. -/
def extractedRecord : Record
  | .processStatus     => some ProcessStatus.success
  | .v1ApiResponseJson => some ({ jobId := some "1", jobStatus := .completed } : V1ApiResponse)
  | f                  => sampleRecord f

def extractedWorld : World := { docs := Dynamo.Table.empty.put "scan-1.pdf" extractedRecord }

/-- Up to the write of the deletion. -/
def softDelete : List Move := .start (.delete sampleEnv sampleReader "1" true) :: acts 2 0

/-- What the job leads to: its object key and tenant. -/
def jobSeen (c : Config) : Option (String × Option String) :=
  (c.world.jobStatus "1").map fun kr => (kr.1, kr.2.tenantId)

set_option maxRecDepth 10000 in
theorem softDelete_seen : ∃ c₁ c₂ r, play (.init extractedWorld) softDelete = some c₁ ∧
    deletes "scan-1.pdf" c₁ (.act 0 {}) = true ∧ Effect.move c₁ (.act 0 {}) = some c₂ ∧
    c₂.world.jobStatus "1" = some ("scan-1.pdf", r) ∧ r.tenantId = some "acme" := by
  have hplay : (play (.init extractedWorld) softDelete).map (fun c =>
      (deletes "scan-1.pdf" c (.act 0 {}), (Effect.move c (.act 0 {})).map jobSeen)) =
      some (true, some (some ("scan-1.pdf", some "acme"))) := by decide +kernel
  obtain ⟨c₁, h₁, hseen⟩ := Option.map_eq_some_iff.1 hplay
  obtain ⟨hdel, hmove⟩ := Prod.mk.inj hseen
  obtain ⟨c₂, hm, hjob⟩ := Option.map_eq_some_iff.1 hmove
  obtain ⟨⟨k, r⟩, hfound, hkr⟩ := Option.map_eq_some_iff.1 hjob
  obtain ⟨rfl, ht⟩ := Prod.mk.inj hkr
  exact ⟨c₁, c₂, r, h₁, hdel, hm, hfound, ht⟩

/-- The get of the deleted document answers 404. -/
theorem deletedHidden_get : ∃ c, play (.init extractedWorld) (softDelete ++ acts 1 0) = some c ∧
    HidesJob sampleEnv sampleReader c.world "1" (.get "1" true true) := by
  obtain ⟨c₁, c₂, r, h₁, hdel, hm, hjob, -⟩ := softDelete_seen
  refine ⟨c₂, ?_, ?_⟩
  · rw [play_append h₁]
    exact Option.bind_eq_some_iff.2 ⟨c₂, hm, rfl⟩
  · have hend : play c₂ [] = some c₂ := rfl
    have hasks : (DocumentRead.get "1" true true).Asks "1" := rfl
    exact (deletedHidden_iff sampleEnv sampleReader h₁ hm hdel hend trivial hjob hasks).2
      (.inr ⟨rfl, trivial⟩)

/-- A search of the tenant answers the deleted document. -/
theorem deletedHidden_fails : ¬ ∀ env auth w ms c₁ m c₂ ns c k jobId r rd,
    play (.init w) ms = some c₁ → Effect.move c₁ m = some c₂ → deletes k c₁ m = true →
    play c₂ ns = some c → c.world.jobStatus jobId = some (k, r) → rd.Asks jobId →
    HidesJob env auth c.world jobId rd := by
  intro hall
  obtain ⟨c₁, c₂, r, h₁, hdel, hm, hjob, ht⟩ := softDelete_seen
  have hasks : (DocumentRead.search ["1"] true).Asks "1" := ⟨List.mem_cons_self, by decide⟩
  have hidden := hall sampleEnv sampleReader extractedWorld softDelete c₁ (.act 0 {}) c₂ [] c₂
    "scan-1.pdf" "1" r _ h₁ hm hdel rfl hjob hasks
  rcases (hidesJob_iff hjob hasks).1 hidden with hforeign | ⟨hget, -⟩
  · exact hforeign ht
  · cases hget

end DocumentAi
