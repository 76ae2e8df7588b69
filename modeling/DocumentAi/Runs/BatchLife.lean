import DocumentAi.Runs.BatchUpload

/-!
# The life of a batch

A batch is created by a request as `UPLOADING`, its request sets `PROCESSING` or `FAILED`, the
closers of its documents count while it is `PROCESSING`. Any other status is final.

| here | meaning |
| --- | --- |
| `Onward old new` | what one call may make of a batch record |
| `onward_move`    | every move of a run takes every batch record onward |
| `batch_frozen`   | a batch that is neither `UPLOADING` nor `PROCESSING` never changes again |
-/

namespace DocumentAi

open Effect (play move_cases Along along_append play_append)

/-- What one call may make of a batch record: create it as `UPLOADING`, end the upload, or change
it while it is `PROCESSING`. -/
inductive Onward : Option BatchRecord → Option BatchRecord → Prop
  | same (r : Option BatchRecord) : Onward r r
  | created {new : BatchRecord} (status : BatchRecord.status new = some .uploading) :
      Onward none (some new)
  | uploaded {old new : BatchRecord} (before : BatchRecord.status old = some .uploading)
      (after : BatchRecord.status new = some .processing ∨ BatchRecord.status new = some .failed)
      (total : BatchRecord.totalFiles new = BatchRecord.totalFiles old)
      (resolved : BatchRecord.resolvedCount new = BatchRecord.resolvedCount old) :
      Onward (some old) (some new)
  | counting {old new : BatchRecord} (before : BatchRecord.status old = some .processing) :
      Onward (some old) (some new)

section
variable {w w' : World} {s : BatchState} {b : String} {op : Op} {ch : Choice} {ans : sig.Ans op}

theorem batchRecord_of_status {st : BatchStatus} (h : BatchRecord.status (w.batchRecord b) = some st) :
    w.batches.item b = some (w.batchRecord b) := by
  unfold World.batchRecord at h ⊢
  cases hi : w.batches.item b with
  | none => rw [hi] at h; cases h
  | some it => rfl

theorem batchRecord_of_batchStatus {st : BatchStatus} (h : w.batchStatus b = some st) :
    BatchRecord.status (w.batchRecord b) = some st := by
  unfold World.batchStatus at h
  unfold World.batchRecord
  cases hi : w.batches.item b with
  | none => rw [hi] at h; cases h
  | some it => rw [hi] at h; exact h

theorem statusRequest_keeps {now : Timestamp} {st : BatchStatus} {m : Option String}
    {old new : BatchRecord} (h : (statusRequest now st m none).apply old = .ok new) :
    BatchRecord.status new = some st ∧ BatchRecord.totalFiles new = BatchRecord.totalFiles old ∧
      BatchRecord.resolvedCount new = BatchRecord.resolvedCount old := by
  obtain ⟨_, _, rfl⟩ := Dynamo.Update.apply_eq_ok h
  unfold statusRequest
  cases truthy m <;> exact ⟨rfl, rfl, rfl⟩

/-- An increment changes a batch that is `PROCESSING`. -/
theorem onward_increment (hop : IsIncrement op) (h : w.exec op ch = some (ans, w')) :
    Onward (w.batches.item b) (w'.batches.item b) := by
  obtain ⟨b', u, rfl, hc⟩ := hop
  rcases exec_updateBatch h with ⟨e, _, _, rfl⟩ | ⟨r, _, _, _, rfl⟩ | ⟨new, _, hnew, _, rfl⟩
  · exact .same _
  · exact .same _
  · by_cases hb : b = b'
    · subst hb
      have hstatus := status_of_increment hc hnew
      rw [batchRecord_of_status hstatus, Dynamo.Table.put_item_self]
      exact .counting hstatus
    · rw [Dynamo.Table.put_item_ne _ _ hb]
      exact .same _

theorem onward_step (hs : Sound w s) (ha : batchProtocol.allow s op)
    (h : w.exec op ch = some (ans, w')) : Onward (w.batches.item b) (w'.batches.item b) := by
  by_cases hop : IsBatchWrite op
  · cases hr : s.request with
    | none =>
      simp only [hr] at ha
      exact onward_increment (ha hop) h
    | some r =>
      simp only [hr] at ha
      cases op with
      | putBatch b' it =>
        obtain ⟨_, _, hit⟩ := ha.2
        rcases exec_putBatch h with ⟨e, _, rfl, _⟩ | ⟨_, _, hnone, rfl⟩
        · exact .same _
        · by_cases hb : b = b'
          · subst hb
            rw [hnone, Dynamo.Table.put_item_self]
            exact .created hit
          · rw [Dynamo.Table.put_item_ne _ _ hb]
            exact .same _
      | updateBatch b' u =>
        obtain ⟨hcreated, now, st, m, hst, rfl⟩ := ha.2
        rcases exec_updateBatch h with ⟨e, _, _, rfl⟩ | ⟨r, _, _, _, rfl⟩ | ⟨new, _, hnew, _, rfl⟩
        · exact .same _
        · exact .same _
        · by_cases hb : b = b'
          · subst hb
            have hup := hs.uploading b hcreated (by rw [ha.1]; decide)
            have hstatus := batchRecord_of_batchStatus hup
            obtain ⟨hnewStatus, htotal, hresolved⟩ := statusRequest_keeps hnew
            rw [batchRecord_of_status hstatus, Dynamo.Table.put_item_self]
            refine .uploaded hstatus ?_ htotal hresolved
            rcases hst with rfl | rfl
            · exact .inl hnewStatus
            · exact .inr hnewStatus
          · rw [Dynamo.Table.put_item_ne _ _ hb]
            exact .same _
      | _ => exact hop.elim
  · rw [show w'.batches = w.batches from (exec_frame h).batches hop]
    exact .same _

end

theorem onward_move {c c' : Config} {m : Move} (hc : BatchCoupled c) (hI : BatchInv c)
    (h : Effect.move c m = some c') (b : String) :
    Onward (c.world.batches.item b) (c'.world.batches.item b) := by
  rcases move_cases h with ⟨e, rfl, rfl⟩ | ⟨i, ch, t, op, k, ans, w', rfl, hn, hx, rfl⟩ | ⟨i, t, rfl, _, rfl⟩
  · exact .same _
  · exact onward_step (hI.sound t (List.mem_of_getElem? hn.1)) (hc.allow hn) hx
  · exact .same _

section
variable {w : World} {ms : List Move} {c : Config}

theorem Onward.final {old : BatchRecord} {new : Option BatchRecord} (h : Onward (some old) new)
    (hup : BatchRecord.status old ≠ some .uploading) (hproc : BatchRecord.status old ≠ some .processing) :
    new = some old := by
  cases h with
  | same => rfl
  | uploaded before => exact absurd before hup
  | counting before => exact absurd before hproc

/-- A batch that is neither `UPLOADING` nor `PROCESSING` never changes again. -/
theorem batch_frozen {ns : List Move} {c' : Config} {b : String} {r : BatchRecord}
    (hd : BatchesDrawn w) (hp : Along PlainUuids (.init w) (ms ++ ns))
    (h : play (.init w) ms = some c) (h' : play c ns = some c')
    (hr : c.world.batches.item b = some r) (hup : BatchRecord.status r ≠ some .uploading)
    (hproc : BatchRecord.status r ≠ some .processing) : c'.world.batches.item b = some r := by
  induction ns generalizing c ms with
  | nil =>
    cases h'
    exact hr
  | cons m ns ih =>
    obtain ⟨c₁, hm, h'⟩ := Option.bind_eq_some_iff.1 h'
    obtain ⟨hc, hI⟩ := batchInv_run hd (along_append h hp).1 h
    have honward := onward_move hc hI hm b
    rw [hr] at honward
    have hlast : play (.init w) (ms ++ [m]) = some c₁ := by
      rw [play_append h]
      simp only [play, hm, Option.bind_some]
    refine ih ?_ hlast h' (honward.final hup hproc)
    rw [List.append_assoc]
    exact hp

end

/-- Two runs of the reaper after the batch has failed. -/
def reapersAfter : List Move := [.start .reaper, .start .reaper] ++ acts 6 2 ++ acts 6 3

set_option maxRecDepth 10000 in
theorem batch_frozen_failedRun : ∃ c c' : Config, ∃ r,
    play (.init ({} : World)) failedRun = some c ∧ play c reapersAfter = some c' ∧
      BatchRecord.status r = some .failed ∧ c'.world.batches.item "acme/1" = some r := by
  have hrun : (play (.init ({} : World)) failedRun).map (fun c => c.world.batchStatus "acme/1") =
      some (some .failed) := by decide +kernel
  have hboth : (play (.init ({} : World)) (failedRun ++ reapersAfter)).isSome = true := by decide +kernel
  have hplain : Along PlainUuids (.init ({} : World)) (failedRun ++ reapersAfter) := by decide +kernel
  obtain ⟨c, hc, hstatus⟩ := Option.map_eq_some_iff.1 hrun
  obtain ⟨c', hc'⟩ := Option.isSome_iff_exists.1 hboth
  rw [play_append hc] at hc'
  have hrecord := batchRecord_of_batchStatus hstatus
  refine ⟨c, c', _, hc, hc', hrecord, batch_frozen (fun b hb => absurd rfl hb) hplain hc hc'
    (batchRecord_of_status hrecord) ?_ ?_⟩
  · rw [hrecord]
    decide
  · rw [hrecord]
    decide

end DocumentAi
