import DocumentAi.Runs.BuildSubmit

/-!
# What keeps a submitted build from being deleted

A deletion queries the rows of the build first and refuses when one of them is stamped. So a stamped
row protects the whole build from every request that begins after the stamp, until an upload replaces
that row or a rollback takes its stamp. A rollback takes the stamp of the metadata row only: the pages
of a build that was rolled back go on protecting it.

| here | meaning |
| --- | --- |
| `overwrites key`    | a request that puts the row anew, or takes its stamp |
| `DeleteStage`       | whether a deletion of the build has been shown the build without a stamp |
| `deletionProtocol`  | before that, a deletion only reads; other requests delete no row of the build |
| `Protected`         | a stamped row, and nothing of the build deleted |
| `Undeletable b n x` | in every run from `x`, until the row `n` of the build is overwritten |
-/

namespace DocumentAi.Builds

open Effect (Ends Event Protocol ends_bind_iff)
open Effect.Prog (All all_bind all_forEach spec_tryCatch)
open Effect.Protocol (Obeys obeys_bind obeys_tryCatch obeys_perform obeys_ret obeys_raise obeys_of_stuck)

namespace TableOp

def overwrites (key : PageKey) : TableOp → Bool
  | putItem k .. | removeSubmittedAt k => k == key
  | _ => false

def isDeletion (b : String) : TableOp → Bool
  | deleteItem key => key.1 == b
  | _ => false

end TableOp

def Request.deletes (b : String) : Request → Bool
  | deletePage _ _ buildId _ | deleteBuild _ _ buildId => buildId == b
  | _ => false

variable {Page : Type} {pdf : PdfLibrary Page} {b b' : String} {α : Type}

/-! ## Requests that delete no row of the build -/

/-- The updates of this code set stamps. -/
def LeavesBuild (b : String) : tableSig.Op → Prop
  | .inr (.deleteItem key)  => key.1 ≠ b
  | .inr (.updateItem _ u)  => ∃ now, u = lockRequest now ∨ u = stampRequest now
  | _ => True

theorem leaves_of_keepsTable {p : BProg α} (h : p.All KeepsTable) : p.All (LeavesBuild b) := by
  refine All.mono (fun op hop => ?_) h
  cases op with
  | inl op => trivial
  | inr op => cases op <;> trivial

theorem leaves_of_isQuiet {p : BProg α} (h : p.All IsQuiet) : p.All (LeavesBuild b) :=
  leaves_of_keepsTable (All.mono (fun _ => keepsTable_of_isQuiet) h)

theorem leaves_base (p : Prog α) : (base p).All (LeavesBuild b) :=
  leaves_of_keepsTable (all_base (Effect.Prog.all_true p))

theorem leaves_validateBuildTenantAccess (auth : UserContext) :
    (validateBuildTenantAccess auth b').All (LeavesBuild b) := by
  unfold validateBuildTenantAccess
  refine all_bind (all_tableCall trivial) fun row => ?_
  split <;> trivial

theorem leaves_createBuild (auth : UserContext) (form : BuildForm) (traceId : Option String) :
    (createBuild auth form traceId).All (LeavesBuild b) := by
  unfold createBuild createDocumentBuild
  refine all_bind (leaves_base _) fun _ => all_bind (leaves_base _) fun buildId => ?_
  exact all_bind (leaves_base _) fun now => all_tableCall trivial

theorem leaves_upsertDocumentBuildPage (n : Nat) (path : String) (name category : Option String)
    (overwrite : Bool) : (upsertDocumentBuildPage b' n path name category overwrite).All (LeavesBuild b) := by
  unfold upsertDocumentBuildPage
  refine all_bind (leaves_base _) fun now => ?_
  cases overwrite with
  | false =>
    refine spec_tryCatch (all_tableCall trivial) fun e => ?_
    dsimp only
    split <;> trivial
  | true => exact all_tableCall trivial

theorem leaves_addPageToBuild (env : EnvConfig) (up : PageUpload) (overwrite : Bool) :
    (addPageToBuild env up overwrite).All (LeavesBuild b) := by
  unfold addPageToBuild
  split
  · trivial
  · refine all_bind (leaves_base _) fun _ => all_bind (leaves_base _) fun loc => ?_
    exact leaves_upsertDocumentBuildPage ..

theorem leaves_uploadErrors (detail : String) {p : BProg Unit} (hp : p.All (LeavesBuild b)) :
    (uploadErrors detail p).All (LeavesBuild b) := by
  refine spec_tryCatch hp fun e => ?_
  cases e <;> trivial

theorem leaves_uploadDocumentBuildPage (env : EnvConfig) (auth : UserContext) (file : UploadFile)
    (form : PageForm) : (uploadDocumentBuildPage env auth file form).All (LeavesBuild b) := by
  unfold uploadDocumentBuildPage
  refine all_bind (leaves_validateBuildTenantAccess auth) fun _ => leaves_uploadErrors _ ?_
  refine all_bind (leaves_base _) fun traceId => all_bind (leaves_base _) fun contentType => ?_
  split
  · trivial
  · refine all_bind (leaves_of_isQuiet (isQuiet_getDocumentBuildPages ..)) fun pages => ?_
    split
    · trivial
    · exact leaves_addPageToBuild ..

theorem leaves_pageOfBatch (env : EnvConfig) (auth : UserContext) (files : List UploadFile) (idx : Nat)
    (form : PageForm) : (pageOfBatch env auth files idx form).All (LeavesBuild b) := by
  unfold pageOfBatch
  refine all_bind (leaves_validateBuildTenantAccess auth) fun _ => leaves_uploadErrors _ ?_
  refine all_bind (leaves_base _) fun traceId => ?_
  split
  · trivial
  · refine all_bind (leaves_base _) fun contentTypes => ?_
    refine all_bind (leaves_of_isQuiet (isQuiet_getDocumentBuildPages ..)) fun existing => ?_
    split
    · trivial
    · split
      · exact leaves_addPageToBuild ..
      · trivial

theorem leaves_markDocumentBuildSubmitted : (markDocumentBuildSubmitted b').All (LeavesBuild b) := by
  unfold markDocumentBuildSubmitted takeLock stampPages
  refine all_bind (leaves_base _) fun now => all_bind ?_ fun _ => ?_
  · refine spec_tryCatch (all_tableCall ⟨now, .inl rfl⟩) fun e => ?_
    dsimp only
    split <;> trivial
  · refine all_bind (all_tableCall trivial) fun rows => ?_
    exact all_forEach (fun e => all_tableCall ⟨now, .inr rfl⟩) _

theorem leaves_rollBackOnError {p : BProg SubmitResult} (hp : p.All (LeavesBuild b)) :
    (rollBackOnError b' p).All (LeavesBuild b) := by
  refine spec_tryCatch hp fun e => ?_
  cases e with
  | httpException => trivial
  | _ => exact all_bind (spec_tryCatch (all_tableCall trivial) fun _ => trivial) fun _ => trivial

theorem leaves_submitDocumentBuild (env : EnvConfig) (auth : UserContext) (traceId : Option String) :
    (submitDocumentBuild env pdf auth b' traceId).All (LeavesBuild b) := by
  unfold submitDocumentBuild submitBuild
  refine all_bind (leaves_validateBuildTenantAccess auth) fun _ => all_bind ?_ fun _ => trivial
  refine all_bind (leaves_base _) fun trace => all_bind (all_tableCall trivial) fun metadata => ?_
  split
  · exact leaves_of_keepsTable ((spec_declineBuild ..).mono (fun _ h => h) fun _ _ => trivial)
  · unfold submitPages
    refine all_bind (leaves_of_isQuiet (isQuiet_getDocumentBuildPages ..)) fun pages => ?_
    split
    · trivial
    · split
      · trivial
      · refine all_bind (leaves_base _) fun _ => all_bind leaves_markDocumentBuildSubmitted fun _ => ?_
        exact leaves_rollBackOnError (leaves_of_keepsTable (keepsTable_uploadMerged ..))

theorem leaves_deleteErrors (detail : String) {p : BProg Unit} (hp : p.All (LeavesBuild b)) :
    (deleteErrors detail p).All (LeavesBuild b) := by
  refine spec_tryCatch hp fun e => ?_
  cases e <;> trivial

theorem isQuiet_isDocumentBuildSubmitted (b : String) : (isDocumentBuildSubmitted b).All IsQuiet :=
  all_bind (all_tableCall rfl) fun _ => trivial

theorem leaves_deleteDocumentBuildPage (env : EnvConfig) (hb : b' ≠ b) (n : Nat) :
    (deleteDocumentBuildPage env b' n).All (LeavesBuild b) := by
  unfold deleteDocumentBuildPage
  refine all_bind (leaves_of_isQuiet (isQuiet_isDocumentBuildSubmitted b')) fun submitted => ?_
  split
  · trivial
  · refine all_bind (leaves_base _) fun loc => all_bind (all_tableCall trivial) fun item => ?_
    split
    · trivial
    · refine all_bind ?_ fun _ => all_bind (all_tableCall hb) fun _ => trivial
      unfold deletePageObject
      split
      · exact leaves_base _
      · trivial

theorem leaves_deleteDocumentBuild (env : EnvConfig) (hb : b' ≠ b) :
    (deleteDocumentBuild env b').All (LeavesBuild b) := by
  unfold deleteDocumentBuild deletePages
  refine all_bind (leaves_of_isQuiet (isQuiet_isDocumentBuildSubmitted b')) fun submitted => ?_
  split
  · trivial
  · refine all_bind (leaves_of_isQuiet (isQuiet_getDocumentBuildPages ..)) fun pages => ?_
    refine all_bind ?_ fun found => ?_
    · split
      · exact all_bind (all_tableCall trivial) fun _ => trivial
      · trivial
    · split
      · trivial
      · refine all_bind (all_forEach (fun page => ?_) _) fun _ => all_bind (all_tableCall hb) fun _ => trivial
        exact all_bind (leaves_deleteDocumentBuildPage env hb _) fun _ => trivial

theorem leaves_body {e : Request} (h : e.deletes b = false) : (e.body pdf).All (LeavesBuild b) := by
  have hne : ∀ {b'}, (b' == b) = false → b' ≠ b := fun h => by simpa using h
  cases e with
  | create auth form traceId => exact leaves_createBuild auth form traceId
  | uploadPage env auth file form => exact leaves_uploadDocumentBuildPage env auth file form
  | batchPage env auth files idx form => exact leaves_pageOfBatch env auth files idx form
  | deletePage env auth buildId n =>
    refine all_bind (leaves_validateBuildTenantAccess auth) fun _ => leaves_deleteErrors _ ?_
    refine all_bind (leaves_deleteDocumentBuildPage env (hne h) n) fun deleted => ?_
    split <;> trivial
  | deleteBuild env auth buildId =>
    refine all_bind (leaves_validateBuildTenantAccess auth) fun _ => leaves_deleteErrors _ ?_
    refine all_bind (leaves_deleteDocumentBuild env (hne h)) fun deleted => ?_
    split <;> trivial
  | submit env auth buildId traceId => exact leaves_submitDocumentBuild env auth traceId
  | other e => exact leaves_base _

/-! ## Deletions of the build -/

inductive DeleteStage where
  | aside
  | unseen
  | seen

namespace DeleteStage

def allow (b : String) : DeleteStage → tableSig.Op → Prop
  | aside, op  => LeavesBuild b op
  | unseen, op => IsQuiet op
  | seen, _    => True

/-- The rows of the build without a stamp. -/
def shows (b : String) : (op : tableSig.Op) → tableSig.Ans op → Bool
  | .inr (.queryByPk buildId), .ok rows => buildId == b && !anySubmitted rows
  | _, _ => false

def next (b : String) : DeleteStage → (op : tableSig.Op) → tableSig.Ans op → DeleteStage
  | unseen, op, ans => if shows b op ans then seen else unseen
  | s, _, _         => s

end DeleteStage

/-- Of the requests on the build `b`. -/
abbrev deletionProtocol (b : String) : Protocol tableSig where
  State := DeleteStage
  allow := DeleteStage.allow b
  possible _ _ _ := True
  next := DeleteStage.next b

def Request.deleteStage (b : String) (e : Request) : DeleteStage := if e.deletes b then .unseen else .aside

namespace DeleteStage

variable {E : DeleteStage → Exc → Prop}

theorem obeys_aside {p : BProg α} (h : p.All (LeavesBuild b)) :
    (deletionProtocol b).Obeys (fun s _ => s = aside) (fun s _ => s = aside) aside p :=
  obeys_of_stuck (fun _ hop => ⟨hop, fun _ => rfl⟩) h

theorem obeys_seen (p : BProg α) :
    (deletionProtocol b).Obeys (fun s _ => s = seen) (fun _ _ => True) seen p :=
  (obeys_of_stuck (fun _ _ => ⟨trivial, fun _ => rfl⟩) (Effect.Prog.all_true p)).mono (fun _ _ h => h)
    fun _ _ _ => trivial

theorem obeys_validateBuildTenantAccess (auth : UserContext) :
    (deletionProtocol b).Obeys (fun s _ => s = unseen) (fun _ _ => True) unseen
      (validateBuildTenantAccess auth b) := by
  unfold validateBuildTenantAccess
  refine obeys_bind (Q := fun s _ => s = unseen) (obeys_perform rfl (fun _ _ => rfl) fun _ _ => trivial) ?_
  rintro _ row rfl
  split
  · exact obeys_ret rfl
  · exact obeys_raise trivial

/-- Who goes on after the check has been shown the build without a stamp. -/
theorem obeys_isDocumentBuildSubmitted :
    (deletionProtocol b).Obeys (fun s submitted => submitted = false → s = seen) (fun _ _ => True) unseen
      (isDocumentBuildSubmitted b) := by
  unfold isDocumentBuildSubmitted
  refine obeys_bind (Q := fun s rows => anySubmitted rows = false → s = seen)
    (obeys_perform rfl (fun rows _ hrows => ?_) fun _ _ => trivial) fun s rows hs => obeys_ret hs
  change (if (b == b && !anySubmitted rows) then seen else unseen) = seen
  rw [hrows, beq_self_eq_true]
  rfl

theorem obeys_afterCheck {f : Bool → BProg α} (h : ∃ e, f true = .raise e) :
    (deletionProtocol b).Obeys (fun s _ => s = seen) (fun _ _ => True) unseen
      ((isDocumentBuildSubmitted b).bind f) := by
  refine obeys_bind obeys_isDocumentBuildSubmitted fun s submitted hs => ?_
  cases submitted with
  | true =>
    obtain ⟨e, he⟩ := h
    rw [he]
    exact obeys_raise trivial
  | false =>
    rw [hs rfl]
    exact obeys_seen _

theorem obeys_deleteErrors (detail : String) {p : BProg Unit} {s : DeleteStage}
    (hp : (deletionProtocol b).Obeys (fun s _ => s = seen) (fun _ _ => True) s p) :
    (deletionProtocol b).Obeys (fun s _ => s = seen) (fun _ _ => True) s (deleteErrors detail p) := by
  refine obeys_tryCatch hp fun s e _ => ?_
  cases e <;> exact obeys_raise trivial

theorem obeys_deletion (e : Request) :
    (deletionProtocol b).Obeys (fun s _ => s ≠ unseen) (fun _ _ => True) (e.deleteStage b)
      ((buildPool pdf).body e) := by
  unfold Request.deleteStage
  split
  next h =>
    suffices hseen : (deletionProtocol b).Obeys (fun s _ => s = seen) (fun _ _ => True) unseen (e.body pdf) by
      refine hseen.mono ?_ fun _ _ h => h
      rintro _ _ rfl
      exact DeleteStage.noConfusion
    cases e with
    | deletePage env auth buildId n =>
      obtain rfl := eq_of_beq h
      refine obeys_bind (obeys_validateBuildTenantAccess auth) ?_
      rintro _ _ rfl
      refine obeys_deleteErrors _ (obeys_bind (obeys_afterCheck ⟨_, rfl⟩) ?_)
      rintro _ deleted rfl
      exact obeys_seen _
    | deleteBuild env auth buildId =>
      obtain rfl := eq_of_beq h
      refine obeys_bind (obeys_validateBuildTenantAccess auth) ?_
      rintro _ _ rfl
      refine obeys_deleteErrors _ (obeys_bind (obeys_afterCheck ⟨_, rfl⟩) ?_)
      rintro _ deleted rfl
      exact obeys_seen _
    | _ => cases h
  next h =>
    refine (obeys_aside (leaves_body (by simpa using h))).mono ?_ fun _ _ _ => trivial
    rintro _ _ rfl
    exact DeleteStage.noConfusion

end DeleteStage

/-! ## A stamped row -/

def StampedRow (t : Table) (key : PageKey) : Prop := (rowAt t key).submittedAt.isSome = true

theorem anySubmitted_of_stampedRow {t : Table} {n : Nat} (h : StampedRow t (b, n)) :
    anySubmitted (rowsOf t b) = true := by
  unfold StampedRow rowAt at h
  cases hrow : t.item (b, n) with
  | none =>
    rw [hrow] at h
    cases h
  | some row =>
    rw [hrow] at h
    have hmem : (n, row) ∈ rowsOf t b := mem_rowsOf.2 hrow
    unfold anySubmitted
    rw [Bool.and_eq_true, List.any_eq_true]
    refine ⟨?_, _, hmem, h⟩
    cases hrows : rowsOf t b with
    | nil => rw [hrows] at hmem; cases hmem
    | cons => rfl

theorem stampedRow_put {t : Table} {key k : PageKey} {row : Row} (h : StampedRow t key)
    (hrow : k = key → row.submittedAt.isSome = true) : StampedRow (t.put k row) key := by
  unfold StampedRow
  rw [rowAt_put]
  split
  next hk => exact hrow hk.symm
  next => exact h

/-- The requests that are not deletions keep the stamp, unless they overwrite the row. -/
theorem runTable_stamped {t t' : Table} {n : Nat} {op : TableOp} {ans : Except Exc op.Res}
    (hop : LeavesBuild b (.inr op)) (hkeep : onTable (TableOp.overwrites (b, n)) ⟨.inr op, ans⟩ = false)
    (h : StampedRow t (b, n)) (hx : runTable t op = (ans, t')) : StampedRow t' (b, n) := by
  cases op with
  | getItem key =>
    obtain ⟨_, rfl⟩ := Prod.mk.inj hx
    exact h
  | queryByPk buildId =>
    obtain ⟨_, rfl⟩ := Prod.mk.inj hx
    exact h
  | putItem key row ifAbsent =>
    simp only [runTable] at hx
    split at hx
    · obtain ⟨_, rfl⟩ := Prod.mk.inj hx
      exact h
    · obtain ⟨rfl, rfl⟩ := Prod.mk.inj hx
      refine stampedRow_put h fun hkey => ?_
      rw [hkey] at hkeep
      simp [onTable, landed, TableOp.overwrites] at hkeep
  | updateItem key u =>
    obtain ⟨now, hu⟩ := hop
    rcases runTable_update hx with ⟨_, _, rfl⟩ | ⟨row, _, hrow, rfl⟩
    · exact h
    · refine stampedRow_put h fun _ => ?_
      rcases hu with rfl | rfl
      · rw [(apply_lockRequest hrow).2]
        rfl
      · rw [apply_stampRequest hrow]
        rfl
  | removeSubmittedAt key =>
    obtain ⟨rfl, rfl⟩ := Prod.mk.inj hx
    refine stampedRow_put h fun hkey => ?_
    rw [hkey] at hkeep
    simp [onTable, landed, TableOp.overwrites] at hkeep
  | deleteItem key =>
    obtain ⟨_, rfl⟩ := Prod.mk.inj hx
    unfold StampedRow rowAt at *
    rwa [Dynamo.Table.delete_item_ne _ fun hkey => hop (congrArg Prod.fst hkey).symm]

/-! ## Every run -/

section
variable {n i : Nat} {c : Effect.Config (buildPool pdf)} {th : Effect.Thread (buildPool pdf)}
  {op : tableSig.Op} {k : tableSig.Ans op → BProg Unit} {ch : Choice} {ans : tableSig.Ans op}
  {x w w' : World × Table}

abbrev deleteStageOf (b : String) (th : Effect.Thread (buildPool pdf)) : DeleteStage :=
  (deletionProtocol b).loc (Request.deleteStage b) th

/-- A deletion stays one of the build. -/
theorem deleteStageOf_ne_aside (h : th.entry.deletes b = true) : deleteStageOf b th ≠ .aside := by
  have hfold : ∀ tr : List (Event tableSig),
      tr.foldr (fun ev s => DeleteStage.next b s ev.op ev.ans) DeleteStage.unseen ≠ .aside := by
    intro tr
    induction tr with
    | nil => exact DeleteStage.noConfusion
    | cons ev tr ih =>
      rw [List.foldr_cons]
      generalize List.foldr (fun ev s => DeleteStage.next b s ev.op ev.ans) DeleteStage.unseen tr = s at ih
      cases s with
      | aside => exact absurd rfl ih
      | unseen =>
        change (if DeleteStage.shows b ev.op ev.ans then DeleteStage.seen else .unseen) ≠ .aside
        split <;> exact DeleteStage.noConfusion
      | seen => exact DeleteStage.noConfusion
  have hstage : th.entry.deleteStage b = .unseen := if_pos h
  unfold deleteStageOf Effect.Protocol.loc
  rw [hstage]
  exact hfold th.trace

/-- The row `n` of the build is stamped; no deletion has seen the build without a stamp. -/
structure Protected (b : String) (n : Nat) (c : Effect.Config (buildPool pdf)) : Prop where
  stamped : StampedRow c.world.2 (b, n)
  unseen  : ∀ th ∈ c.threads, deleteStageOf b th ≠ .seen
  kept    : c.calls (onTable (TableOp.isDeletion b)) = 0

theorem shows_of_stampedRow {t : Table} {op : TableOp} {ans : Except Exc op.Res}
    (h : StampedRow t (b, n)) (hx : (∃ e, ans = .error e) ∨ ∃ t', runTable t op = (ans, t')) :
    DeleteStage.shows b (.inr op) ans = false := by
  rcases hx with ⟨e, rfl⟩ | ⟨t', hx⟩
  · cases op <;> rfl
  · cases op with
    | queryByPk buildId =>
      obtain ⟨rfl, _⟩ := Prod.mk.inj hx
      change (buildId == b && !anySubmitted (rowsOf t buildId)) = false
      by_cases hb : buildId = b
      · subst hb
        rw [anySubmitted_of_stampedRow h, Bool.not_true, Bool.and_false]
      · rw [beq_eq_false_iff_ne.2 hb, Bool.false_and]
    | _ => rfl

/-- What one call of a request that has not seen the build without a stamp leaves. -/
theorem exec_stamped {s : DeleteStage} (hs : s ≠ .seen) (ha : s.allow b op)
    (hkeep : onTable (TableOp.overwrites (b, n)) ⟨op, ans⟩ = false) (h : StampedRow w.2 (b, n))
    (hx : (buildPool pdf).exec w op ch = some (ans, w')) :
    StampedRow w'.2 (b, n) ∧ s.next b op ans ≠ .seen ∧ onTable (TableOp.isDeletion b) ⟨op, ans⟩ = false := by
  have hleaves : LeavesBuild b op := by
    cases s with
    | aside => exact ha
    | unseen =>
      cases op with
      | inl op => trivial
      | inr op => cases op <;> trivial
    | seen => exact absurd rfl hs
  have hnext : DeleteStage.shows b op ans = false → s.next b op ans ≠ .seen := by
    intro hshows
    cases s with
    | aside => exact DeleteStage.noConfusion
    | unseen =>
      change (if DeleteStage.shows b op ans then DeleteStage.seen else .unseen) ≠ .seen
      rw [hshows]
      exact DeleteStage.noConfusion
    | seen => exact absurd rfl hs
  cases op with
  | inl op =>
    change (system.extend Table tableStore).exec w (.inl op) ch = some (ans, w') at hx
    obtain ⟨_, ht⟩ := Effect.Sys.extend_inl.1 hx
    rw [ht]
    exact ⟨h, hnext rfl, onTable_base _ ans⟩
  | inr op =>
    obtain ⟨hcall, _⟩ := Effect.Sys.extend_inr.1 hx
    have hdel : onTable (TableOp.isDeletion b) ⟨.inr op, ans⟩ = false := by
      cases op with
      | deleteItem key => exact Bool.and_eq_false_iff.2 (.inr (beq_eq_false_iff_ne.2 hleaves))
      | _ => exact Bool.and_false _
    unfold tableStore at hcall
    split at hcall
    next e _ =>
      obtain ⟨rfl, ht⟩ := Prod.mk.inj (Option.some.inj hcall)
      rw [← ht]
      exact ⟨h, hnext (shows_of_stampedRow h (.inl ⟨e, rfl⟩)), hdel⟩
    next =>
      have hrun := Option.some.inj hcall
      exact ⟨runTable_stamped hleaves hkeep h hrun, hnext (shows_of_stampedRow h (.inr ⟨_, hrun⟩)), hdel⟩

theorem protected_init (h : StampedRow x.2 (b, n)) :
    Protected b n (Effect.Config.init x : Effect.Config (buildPool pdf)) :=
  ⟨h, fun _ ht => (by cases ht), rfl⟩

theorem Protected.start (h : Protected b n c) (e : Request) :
    Protected b n { c with threads := c.threads ++ [Effect.Thread.init e] } := by
  refine ⟨h.stamped, fun t ht => ?_, (Effect.calls_start e).trans h.kept⟩
  rcases List.mem_append.1 ht with ht | ht
  · exact h.unseen t ht
  · rw [List.mem_singleton.1 ht]
    change e.deleteStage b ≠ .seen
    unfold Request.deleteStage
    split <;> exact DeleteStage.noConfusion

theorem Protected.crash (h : Protected b n c) (hi : c.threads[i]? = some th) :
    Protected b n { c with threads := c.threads.set i { th with crashed := true } } := by
  refine ⟨h.stamped, fun t ht => ?_, (Effect.calls_crash hi).trans h.kept⟩
  rcases List.mem_or_eq_of_mem_set ht with ht | rfl
  · exact h.unseen t ht
  · exact h.unseen th (List.mem_of_getElem? hi)

theorem Protected.act (h : Protected b n c) (hn : c.Next i th op k) (ha : (deleteStageOf b th).allow b op)
    (hkeep : onTable (TableOp.overwrites (b, n)) ⟨op, ans⟩ = false)
    (hx : (buildPool pdf).exec c.world op ch = some (ans, w')) :
    Protected b n { world := w', threads := c.threads.set i (th.resume k ans) } := by
  obtain ⟨hstamped, hnext, hdel⟩ :=
    exec_stamped (h.unseen th (List.mem_of_getElem? hn.1)) ha hkeep h.stamped hx
  refine ⟨hstamped, fun t ht => ?_, ?_⟩
  · rcases List.mem_or_eq_of_mem_set ht with ht | rfl
    · exact h.unseen t ht
    · exact hnext
  · rw [Effect.calls_resume hn.1, h.kept, hdel]
    rfl

theorem protected_play {ms : List (Effect.Move (buildPool pdf))} (hx : StampedRow x.2 (b, n))
    (h : Effect.play (Effect.Config.init x) ms = some c) :
    (deletionProtocol b).Coupled (Request.deleteStage b) (fun s _ => s ≠ .unseen) (fun _ _ => True) c ∧
      (c.calls (onTable (TableOp.overwrites (b, n))) = 0 → Protected b n c) := by
  refine Effect.Protocol.protocol_inv (R := deletionProtocol b) (φ := fun _ _ => True) (Request.deleteStage b)
    (J := fun c => c.calls (onTable (TableOp.overwrites (b, n))) = 0 → Protected b n c)
    DeleteStage.obeys_deletion ?_ ?_ ?_ (fun _ ht => (by cases ht)) (fun _ => protected_init hx)
    (Effect.along_iff_split.2 fun _ _ _ _ _ _ => trivial) h
  · intro c e hinv _ hcalls
    exact (hinv ((Effect.calls_start e).symm.trans hcalls)).start e
  · intro c i ch th op k ans w' hinv _ _ hn ha hexec
    refine ⟨trivial, fun hcalls => ?_⟩
    rw [Effect.calls_resume hn.1] at hcalls
    cases hover : onTable (TableOp.overwrites (b, n)) ⟨op, ans⟩ with
    | true => rw [hover, if_pos rfl] at hcalls; omega
    | false =>
      rw [hover] at hcalls
      exact (hinv hcalls).act hn ha hover hexec
  · intro c i th hinv _ hi hcalls
    exact (hinv ((Effect.calls_crash hi).symm.trans hcalls)).crash hi

end

/-- In every run from `x` no row of the build is deleted and no deletion of it is answered, until the row
`n` is overwritten. -/
def Undeletable (b : String) (n : Nat) (x : World × Table) : Prop :=
  StampedRow x.2 (b, n) ∧
    ∀ {Page : Type} (pdf : PdfLibrary Page) (ms : List (Effect.Move (buildPool pdf)))
      (c : Effect.Config (buildPool pdf)), Effect.play (Effect.Config.init x) ms = some c →
      c.calls (onTable (TableOp.overwrites (b, n))) = 0 →
        c.calls (onTable (TableOp.isDeletion b)) = 0 ∧
          ∀ th ∈ c.threads, th.entry.deletes b = true → hasAnswered th = false

theorem undeletable_of_stampedRow {x : World × Table} {n : Nat} (h : StampedRow x.2 (b, n)) :
    Undeletable b n x := by
  refine ⟨h, fun pdf ms c hplay hcalls => ?_⟩
  obtain ⟨hc, hinv⟩ := protected_play h hplay
  have hprot := hinv hcalls
  refine ⟨hprot.kept, fun th hth hdel => ?_⟩
  cases hprog : th.prog with
  | ret u =>
    have hne : deleteStageOf b th ≠ .unseen := by
      have hobeys := hc th hth
      rw [hprog] at hobeys
      exact hobeys
    cases hs : deleteStageOf b th with
    | aside => exact absurd hs (deleteStageOf_ne_aside hdel)
    | unseen => exact absurd hs hne
    | seen => exact absurd hs (hprot.unseen th hth)
  | raise e => rw [hasAnswered, hprog]
  | call op k => rw [hasAnswered, hprog]

/-! ## After a submission -/

section
variable {env : EnvConfig} {auth : UserContext} {x x' : World × Table} {tr : List (Event tableSig)}

theorem stampedRow_of_isSubmitted (h : isSubmitted b x = true) : StampedRow x.2 (metadataKey b) := by
  unfold isSubmitted at h
  unfold StampedRow rowAt
  cases hrow : x.2.item (metadataKey b) with
  | none => rw [hrow] at h; cases h
  | some row =>
    rw [hrow] at h
    exact h

/-- However a submission ends that has taken the lock, a row it has stamped protects the build from every
later deletion: the metadata row, or after a rollback, which lets the build be submitted again, a page. -/
theorem submission_outlives_rollback {traceId : Option String} {r : Except Exc SubmitResult}
    (hmeta : (rowAt x.2 (metadataKey b)).isBuildMetadata = some true)
    (h : Ends tableSystem x (submitBuild env pdf auth b traceId) tr r x')
    (hlock : tr.any (onTable (TableOp.isLock b)) = true) :
    (isSubmitted b x' = false ↔ tr.any (onTable (TableOp.isRollback b)) = true) ∧
      ∃ n, (n = 0 ↔ tr.any (onTable (TableOp.isRollback b)) = false) ∧ Undeletable b n x' := by
  rcases ends_submitBuild h with ⟨_, hnone⟩ | ⟨bucketName, location, x₁, tr₁, hcomes⟩
  · rw [hnone _ (countsWrites_isLock b)] at hlock
    cases hlock
  obtain ⟨_, _, hpages, _, _, htable, ⟨trace, source, hrest⟩, hwrites⟩ := hcomes
  rw [hwrites _ (countsWrites_isLock b)] at hlock
  rw [hwrites _ (countsWrites_isRollback b)]
  rcases ends_bind_iff.1 hrest with ⟨e, rfl, hmark⟩ | ⟨_, x₂, tr₂, tr₃, hmark, hback, rfl⟩
  · -- a stamp has failed: the lock stays
    obtain ⟨_, _, hno⟩ | ⟨_, _, hsubmitted, hroll, _⟩ := ends_mark hmark
    · rw [hno] at hlock
      cases hlock
    · rw [hsubmitted, hroll]
      exact ⟨by simp, 0, by simp, undeletable_of_stampedRow (stampedRow_of_isSubmitted hsubmitted)⟩
  · obtain ⟨_, he, _⟩ | ⟨_, _, hsubmitted, hroll, hstamped⟩ := ends_mark hmark
    · cases he
    obtain ⟨now, hstamped⟩ := hstamped rfl
    rw [List.any_append, hroll, Bool.false_or]
    obtain ⟨hno, ht', _⟩ | ⟨_, hyes, ht'⟩ :=
      ends_rollBackOnError (keepsTable_uploadMerged env auth location trace source _) hback
    · have hsame : isSubmitted b x' = true := (isSubmitted_congr (by rw [ht'])).trans hsubmitted
      rw [hsame, hno]
      exact ⟨by simp, 0, by simp, undeletable_of_stampedRow (stampedRow_of_isSubmitted hsame)⟩
    · -- the stamp of some page is left
      have hare := arePages_pagesOf bucketName x.2 b
      obtain ⟨page, hpage⟩ := List.exists_mem_of_ne_nil _ hpages
      obtain ⟨n, row, hrow, hkind, _⟩ := (hare.each page).1 hpage
      have hn : (b, n) ≠ metadataKey b := by
        intro hn
        refine hkind ?_
        rw [← hmeta, ← hn, rowAt, hrow]
        rfl
      have hleft : x'.2.item (b, n) = some (row.submitted now) := by
        rw [ht', Dynamo.Table.put_item_ne _ _ hn, hstamped.others _ hn, if_pos rfl, htable, hrow]
        rfl
      refine ⟨?_, n, ?_, undeletable_of_stampedRow ?_⟩
      · rw [isSubmitted_put ht', hyes]
        exact iff_of_true rfl rfl
      · rw [hyes]
        exact iff_of_false (fun h0 => hn (h0 ▸ rfl)) Bool.noConfusion
      · unfold StampedRow rowAt
        rw [hleft]
        rfl

end

/-- A submission of the one-page build. -/
def onePageRun (chs : List Choice) :=
  Effect.follow tableSystem onePageWorld
    (submitBuild onePageEnv onePagePdf ⟨"t", "k"⟩ "b" (some "x")) chs

/-- The file of the page cannot be read: the submission fails and is rolled back. -/
theorem submission_outlives_rollback_onePage :
    ∃ (tr : List (Event tableSig)) (x' : World × Table),
      tr.any (onTable (TableOp.isRollback "b")) = true ∧
        (isSubmitted "b" x' = false ↔ tr.any (onTable (TableOp.isRollback "b")) = true) ∧
          ∃ n, (n = 0 ↔ tr.any (onTable (TableOp.isRollback "b")) = false) ∧ Undeletable "b" n x' := by
  obtain ⟨⟨tr, q, x'⟩, hf, he⟩ := Option.map_eq_some_iff.1
    (show (onePageRun (List.replicate 6 {} ++ [{ fail := some (.exception "timeout") }, {}])).map
      (fun run => (run.2.1.result.isSome, run.1.any (onTable (TableOp.isLock "b")),
        run.1.any (onTable (TableOp.isRollback "b")))) = some (true, true, true) by decide +kernel)
  obtain ⟨hq, he⟩ := Prod.mk.inj he
  obtain ⟨hlock, hroll⟩ := Prod.mk.inj he
  obtain ⟨res, hres⟩ := Option.isSome_iff_exists.1 hq
  obtain rfl : q = .ofExcept res := Effect.Prog.eq_ofExcept hres
  have hsteps := Effect.steps_of_follow hf
  exact ⟨tr, x', hroll, submission_outlives_rollback (by decide +kernel) hsteps hlock⟩

end DocumentAi.Builds
