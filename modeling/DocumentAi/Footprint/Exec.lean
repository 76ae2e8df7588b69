import DocumentAi.Footprint.Requests

/-!
# What one call does to the world

| here | meaning |
| --- | --- |
| `exec_error`       | a failed call changes nothing |
| `exec_frame`       | each table changes by its own requests only |
| `exec_updateItem`  | what an update request does to the document-metadata table |
| `docWrite_writes`  | what the requests of the handlers set |
-/

namespace DocumentAi

def Op.isCountWrite : Op → Bool
  | .updateCount .. => true
  | _ => false

section
variable {w w' : World} {op : Op} {ch : Choice} {ans : sig.Ans op}

theorem run_error {e : Exc} (h : w.run ch op = some (.error e, w')) : w' = w := by
  cases op with
  | ai c =>
    cases c <;> simp only [World.run, World.ok] at h
    all_goals first | cases h | (split at h <;> cases h)
  | takeTask g i =>
    simp only [World.run] at h
    split at h
    · obtain ⟨t, _, ht⟩ := Option.map_eq_some_iff.1 h
      cases ht
    · cases h
  | _ =>
    simp only [World.run, World.ok, World.raise] at h
    first | cases h | (split at h <;> cases h <;> rfl)

/-- The tables of two worlds that a call leaves alone. -/
structure Frame (op : Op) (w w' : World) : Prop where
  docs    : op.isElsewhere = true → w'.docs = w.docs
  batches : ¬ IsBatchWrite op → w'.batches = w.batches
  counts  : op.isCountWrite = false → w'.counts = w.counts
  tenants : w'.tenants = w.tenants
  uuids   : op ≠ .uuid4 → w'.uuids = w.uuids

theorem Frame.refl (op : Op) (w : World) : Frame op w w :=
  ⟨fun _ => rfl, fun _ => rfl, fun _ => rfl, rfl, fun _ => rfl⟩

theorem run_frame (h : w.run ch op = some (ans, w')) : Frame op w w' := by
  cases op with
  | updateItem k u =>
    simp only [World.run, World.raise] at h
    split at h <;> cases h
    · exact ⟨fun h => (by cases h), fun _ => rfl, fun _ => rfl, rfl, fun _ => rfl⟩
    · exact .refl _ _
  | putBatch b it =>
    simp only [World.run, World.raise] at h
    split at h <;> cases h
    · exact ⟨fun _ => rfl, fun h => absurd trivial h, fun _ => rfl, rfl, fun _ => rfl⟩
    · exact .refl _ _
  | updateBatch b u =>
    simp only [World.run, World.raise] at h
    split at h <;> cases h
    · exact ⟨fun _ => rfl, fun h => absurd trivial h, fun _ => rfl, rfl, fun _ => rfl⟩
    · exact .refl _ _
  | updateCount t d u =>
    simp only [World.run, World.raise] at h
    split at h <;> cases h
    · exact ⟨fun _ => rfl, fun _ => rfl, fun h => (by cases h), rfl, fun _ => rfl⟩
    · exact .refl _ _
  | uuid4 =>
    simp only [World.run] at h
    split at h <;> cases h
    exact ⟨fun _ => rfl, fun _ => rfl, fun _ => rfl, rfl, fun h => absurd rfl h⟩
  | ai c =>
    cases c <;> simp only [World.run, World.ok] at h
    all_goals first
      | (split at h <;> cases h; exact ⟨fun _ => rfl, fun _ => rfl, fun _ => rfl, rfl, fun _ => rfl⟩)
      | (cases h; exact .refl _ _)
  | takeTask g i =>
    simp only [World.run] at h
    split at h
    · obtain ⟨t, _, ht⟩ := Option.map_eq_some_iff.1 h
      cases ht
      exact ⟨fun _ => rfl, fun _ => rfl, fun _ => rfl, rfl, fun _ => rfl⟩
    · cases h
  | _ =>
    simp only [World.run, World.ok, World.raise] at h
    first
      | (cases h; exact ⟨fun _ => rfl, fun _ => rfl, fun _ => rfl, rfl, fun _ => rfl⟩)
      | (split at h <;> cases h <;> exact ⟨fun _ => rfl, fun _ => rfl, fun _ => rfl, rfl, fun _ => rfl⟩)

/-- A call either runs, or fails by the environment's choice. -/
theorem exec_cases (h : w.exec op ch = some (ans, w')) :
    w.run ch op = some (ans, w') ∨
      ∃ e, ch.fail = some e ∧ World.isLocal op = false ∧ ans = .error e ∧ w' = w := by
  unfold World.exec at h
  split at h
  next e he =>
    split at h
    · exact .inl h
    next hl =>
      obtain ⟨rfl, rfl⟩ : Except.error e = ans ∧ w = w' := by simpa [World.raise] using h
      exact .inr ⟨e, he, by simpa using hl, rfl, rfl⟩
  next => exact .inl h

theorem exec_error {e : Exc} (h : w.exec op ch = some (.error e, w')) : w' = w := by
  rcases exec_cases h with h | ⟨_, _, _, _, rfl⟩
  · exact run_error h
  · rfl

theorem exec_frame (h : w.exec op ch = some (ans, w')) : Frame op w w' := by
  rcases exec_cases h with h | ⟨_, _, _, _, rfl⟩
  · exact run_frame h
  · exact .refl _ _

end

/-- Nothing but an administrator changes the extraction rules. -/
theorem exec_rules {w w' : World} {op : Op} {ch : Choice} {ans : sig.Ans op}
    (h : w.exec op ch = some (ans, w')) : w'.rules = w.rules := by
  rcases exec_cases h with h | ⟨_, _, _, _, rfl⟩
  · cases op with
    | ai c =>
      cases c <;> simp only [World.run, World.ok] at h
      all_goals first | (cases h; rfl) | (split at h <;> cases h; rfl)
    | takeTask g i =>
      simp only [World.run] at h
      split at h
      · obtain ⟨t, _, ht⟩ := Option.map_eq_some_iff.1 h
        cases ht
        rfl
      · cases h
    | _ =>
      simp only [World.run, World.ok, World.raise] at h
      first | (cases h; rfl) | (split at h <;> cases h <;> rfl)
  · rfl

/-- The record of `k`, or the empty item an update starts from. -/
def World.record (w : World) (k : String) : Record := (w.docs.item k).getD fun _ => none

theorem exec_read {w w' : World} {op : Op} {ch : Choice} {ans : sig.Ans op}
    (hop : op.isRead = true) (h : w.exec op ch = some (ans, w')) : w' = w := by
  rcases exec_cases h with h | ⟨_, _, _, _, rfl⟩
  · cases op with
    | getItem | queryByJobId | queryByBdaInvocationId | queryByBatchId | queryByStatusCreatedAt
    | getBatch | queryMonth | getTenant | getCategory | getRule | putMetricData
    | getDataAutomationStatus | now =>
      cases h
      rfl
    | getObject | getLastModifiedAt | random =>
      simp only [World.run, World.ok, World.raise] at h
      split at h <;> cases h
      all_goals rfl
    | _ => cases hop
  · rfl

/-- A call that the environment does not fail is run. -/
theorem exec_of_ok {w w' : World} {op : Op} {ch : Choice} {r : op.Res}
    (h : w.exec op ch = some (.ok r, w')) : w.run ch op = some (.ok r, w') := by
  rcases exec_cases h with h | ⟨_, _, _, h, _⟩
  · exact h
  · cases h

/-- The world in which the record of `k` is `r`. -/
def World.setRecord (w : World) (k : String) (r : Record) : World :=
  { w with docs := w.docs.put k r }

theorem record_setRecord_self (w : World) (k : String) (r : Record) :
    (w.setRecord k r).record k = r := by
  simp [World.record, World.setRecord]

theorem record_setRecord_ne (w : World) {j k : String} (r : Record) (h : j ≠ k) :
    (w.setRecord k r).record j = w.record j := by
  simp [World.record, World.setRecord, Dynamo.Table.put_item_ne _ _ h]

theorem record_congr {w w' : World} (h : w'.docs = w.docs) (k : String) :
    w'.record k = w.record k := by
  simp [World.record, h]

/-- An update request fails and changes nothing, or applies to its record. -/
theorem exec_updateItem {w w' : World} {k : String} {u : DocUpdate} {ch : Choice}
    {ans : sig.Ans (.updateItem k u)} (h : w.exec (.updateItem k u) ch = some (ans, w')) :
    (∃ e, ans = .error e ∧ w' = w) ∨
      ∃ new, ans = .ok () ∧ ch.fail = none ∧ u.apply (w.record k) = .ok new ∧
        w' = w.setRecord k new := by
  rcases hf : ch.fail with _ | e <;> simp only [World.exec, hf] at h
  · simp only [World.run, World.raise] at h
    split at h
    next docs hd =>
      obtain ⟨new, hnew, rfl⟩ := Dynamo.Table.update_eq_ok hd
      cases h
      exact .inr ⟨new, rfl, rfl, hnew, rfl⟩
    next => cases h; exact .inl ⟨_, rfl, rfl⟩
  · cases h; exact .inl ⟨e, rfl, rfl⟩

theorem exec_updateItem_ok {w : World} {k : String} {u : DocUpdate} {ch : Choice} {new : Record}
    (hf : ch.fail = none) (h : u.apply (w.record k) = .ok new) :
    w.exec (.updateItem k u) ch = some (.ok (), w.setRecord k new) := by
  have hu : w.docs.update k u = .ok (w.docs.put k new) := by
    simp only [Dynamo.Table.update]
    exact congrArg (Except.map (w.docs.put k)) h
  simp only [World.exec, hf, World.run, hu, World.setRecord]

/-! ## Batches, task groups and fresh identifiers -/

/-- The record of the batch `b`, or the empty item an update starts from. -/
def World.batchRecord (w : World) (b : String) : BatchRecord :=
  (w.batches.item b).getD fun _ => none

section
variable {w w' : World} {b : String} {ch : Choice}

theorem exec_putBatch {it : BatchRecord} {ans : sig.Ans (.putBatch b it)}
    (h : w.exec (.putBatch b it) ch = some (ans, w')) :
    (∃ e, ans = .error e ∧ w' = w ∧ ¬ (ch.fail = none ∧ w.batches.item b = none)) ∨
      ans = .ok () ∧ ch.fail = none ∧ w.batches.item b = none ∧
        w' = { w with batches := w.batches.put b it } := by
  rcases hf : ch.fail with _ | e <;> simp only [World.exec, hf] at h
  · simp only [World.run, World.raise] at h
    split at h <;> cases h
    next hb => exact .inr ⟨rfl, rfl, hb, rfl⟩
    next hb => exact .inl ⟨_, rfl, rfl, fun hn => by rw [hn.2] at hb; cases hb⟩
  · cases h
    exact .inl ⟨e, rfl, rfl, fun hn => by cases hn.1⟩

theorem exec_getBatch {ans : sig.Ans (.getBatch b)}
    (h : w.exec (.getBatch b) ch = some (ans, w')) :
    w' = w ∧ ((∃ e, ch.fail = some e ∧ ans = .error e) ∨
      ch.fail = none ∧ ans = .ok (w.batches.item b)) := by
  rcases hf : ch.fail with _ | e <;> simp only [World.exec, hf] at h
  · cases h
    exact ⟨rfl, .inr ⟨rfl, rfl⟩⟩
  · cases h
    exact ⟨rfl, .inl ⟨e, rfl, rfl⟩⟩

/-- A request on a batch fails by choice, is rejected, or applies. -/
theorem exec_updateBatch {u : Dynamo.Update DocumentBatches.schema}
    {ans : sig.Ans (.updateBatch b u)} (h : w.exec (.updateBatch b u) ch = some (ans, w')) :
    (∃ e, ch.fail = some e ∧ ans = .error e ∧ w' = w) ∨
    (∃ r, ch.fail = none ∧ u.apply (w.batchRecord b) = .error r ∧ ans = .error (.ofRejection r) ∧
      w' = w) ∨
    ∃ new, ch.fail = none ∧ u.apply (w.batchRecord b) = .ok new ∧ ans = .ok new ∧
      w' = { w with batches := w.batches.put b new } := by
  rcases hf : ch.fail with _ | e <;> simp only [World.exec, hf] at h
  · simp only [World.run, World.raise] at h
    split at h
    next batches hb =>
      obtain ⟨new, hnew, rfl⟩ := Dynamo.Table.update_eq_ok hb
      cases h
      exact .inr (.inr ⟨new, rfl, hnew, by rw [Dynamo.Table.put_item_self]; rfl, rfl⟩)
    next r hb =>
      cases h
      refine .inr (.inl ⟨r, rfl, ?_, rfl, rfl⟩)
      unfold Dynamo.Table.update at hb
      change (u.apply (w.batchRecord b)).map _ = _ at hb
      cases ha : u.apply (w.batchRecord b) with
      | ok it => rw [ha] at hb; cases hb
      | error r' => rw [ha] at hb; cases hb; rfl
  · cases h
    exact .inl ⟨e, rfl, rfl, rfl⟩

/-- A call that stays inside the process is run. -/
theorem exec_local {op : Op} {ans : sig.Ans op} (hl : World.isLocal op = true)
    (h : w.exec op ch = some (ans, w')) : w.run ch op = some (ans, w') := by
  rcases exec_cases h with h | ⟨_, _, hn, _, _⟩
  · exact h
  · rw [hl] at hn
    cases hn

theorem exec_join {g : String} {ans : sig.Ans (.join g)}
    (h : w.exec (.join g) ch = some (ans, w')) : ans = .ok (w.group g).errors ∧ w' = w := by
  have h := exec_local rfl h
  simp only [World.run, World.ok] at h
  split at h <;> cases h
  exact ⟨rfl, rfl⟩

theorem exec_uuid4 {ans : sig.Ans .uuid4} (h : w.exec .uuid4 ch = some (ans, w')) :
    ans = .ok ch.uuid ∧ ch.uuid ∉ w.uuids ∧ w' = { w with uuids := ch.uuid :: w.uuids } := by
  have h := exec_local rfl h
  simp only [World.run] at h
  split at h <;> cases h
  next hu => exact ⟨rfl, hu, rfl⟩

end

/-- The kinds of `IsDocWrite` are update requests on their record. -/
theorem docWrite_updateItem {ups : Prop} {k : String} {op : Op} (h : IsDocWriteOf ups k op) :
    ∃ u, op = .updateItem k u := by
  cases h with
  | upsert d hk _ h => subst hk; obtain ⟨now, rfl⟩ := h; exact ⟨_, rfl⟩
  | bdaStart env data hk _ h => subst hk; obtain ⟨now, timing, _, rfl⟩ := h; exact ⟨_, rfl⟩
  | terminal t _ h =>
    rcases h with ⟨env, data, hk, _, now, timing, _, rfl⟩ | ⟨r, _, rfl⟩ | ⟨v, _, rfl⟩
    · subst hk; exact ⟨_, rfl⟩
    · exact ⟨_, rfl⟩
    · exact ⟨_, rfl⟩
  | claim e _ h => exact ⟨_, h⟩
  | reap now s m _ h => exact ⟨_, h⟩
  | delete now t h => exact ⟨_, h⟩
  | aside h => obtain ⟨u, _, rfl⟩ := h; exact ⟨u, rfl⟩

theorem docWrite_of_updateItem {k : String} {u : DocUpdate} (h : OnSomeDoc (.updateItem k u)) :
    IsDocWrite k (.updateItem k u) := by
  obtain ⟨j, hj | hj⟩ := h
  · cases hj
  · obtain ⟨v, hv⟩ := docWrite_updateItem hj
    cases hv
    exact hj

theorem terminal_plain {k : String} {s : ProcessStatus} {u : DocUpdate}
    (h : IsTerminal k s (.updateItem k u)) : PlainWrite u := by
  rcases h with ⟨env, data, _, _, now, timing, ht, h⟩ | ⟨r, _, h⟩ | ⟨v, hv, h⟩
  · cases h; exact (writes_updateRequest ht).plain
  · cases h; exact (writes_responseRequest r).plain
  · cases h; exact hv.beside.plain

theorem docWrite_plain {k : String} {u : DocUpdate} (h : IsDocWrite k (.updateItem k u)) :
    PlainWrite u := by
  cases h with
  | upsert d _ _ h => obtain ⟨now, h⟩ := h; cases h; exact (writes_upsertRequest d now).plain
  | bdaStart env data _ _ h =>
    obtain ⟨now, timing, ht, h⟩ := h
    cases h
    exact (writes_updateRequest ht).plain
  | terminal s _ h => exact terminal_plain h
  | claim e _ h => cases h; exact (writes_claimRequest e).plain
  | reap now s m _ h => cases h; exact (writes_markTerminalRequest now s m).plain
  | delete now t h => cases h; exact (writes_deleteRequest now t).plain
  | aside h => obtain ⟨v, hv, h⟩ := h; cases h; exact hv.beside.plain

/-- The status after a request of a handler. -/
theorem docWrite_status {k : String} {u : DocUpdate} {old new : Record}
    (h : IsDocWrite k (.updateItem k u)) (hu : u.apply old = .ok new) :
    new.status = (statusWrite u).or old.status :=
  Writes.status_eq ⟨docWrite_plain h, rfl, rfl, rfl⟩ hu

/-- A handler's request that writes a status of a document awaiting extraction is unconditional. -/
theorem docWrite_reopens {k : String} {u : DocUpdate} {s : ProcessStatus}
    (h : IsDocWrite k (.updateItem k u)) (hs : statusWrite u = some s)
    (hc : s.isClassified = false) (hne : s ≠ .started) : u.cond = none := by
  cases h with
  | upsert d _ _ h => obtain ⟨now, h⟩ := h; cases h; rfl
  | bdaStart env data _ _ h => obtain ⟨now, timing, _, h⟩ := h; cases h; rfl
  | terminal t ht h =>
    rcases h with ⟨env, data, _, hd, now, timing, htm, h⟩ | ⟨r, _, h⟩ | ⟨v, hv, h⟩
    · cases h
      rw [(writes_updateRequest htm).status, hd] at hs
      cases hs
      rw [ht] at hc
      cases hc
    · cases h; rw [(writes_responseRequest r).status] at hs; cases hs
    · cases h; rw [(writes_of_beside hv.beside).status] at hs; cases hs
  | claim e _ h => cases h; cases hs; exact absurd rfl hne
  | reap now t m ht h =>
    cases h
    rw [(writes_markTerminalRequest now t m).status] at hs
    cases hs
    rcases ht with rfl | rfl <;> cases hc
  | delete now t h => cases h; rfl
  | aside h =>
    obtain ⟨v, hv, h⟩ := h
    cases h; rw [(writes_of_beside hv.beside).status] at hs; cases hs

/-- The only conditional write of `STARTED` is the claim. -/
theorem docWrite_claim {k : String} {u : DocUpdate} (h : IsDocWrite k (.updateItem k u))
    (hs : statusWrite u = some .started) (hc : u.cond ≠ none) :
    ∃ e, e.isClassified = false ∧ e ≠ .started ∧ u = claimRequest e := by
  cases h with
  | upsert d _ _ h => obtain ⟨now, h⟩ := h; cases h; exact absurd rfl hc
  | bdaStart env data _ _ h => obtain ⟨now, timing, _, h⟩ := h; cases h; exact absurd rfl hc
  | terminal t ht h =>
    rcases h with ⟨env, data, _, hd, now, timing, htm, h⟩ | ⟨r, _, h⟩ | ⟨v, hv, h⟩
    · cases h
      rw [(writes_updateRequest htm).status, hd] at hs
      cases hs
      cases ht
    · cases h; exact absurd rfl hc
    · cases h; rw [(writes_of_beside hv.beside).status] at hs; cases hs
  | claim e he h => cases h; exact ⟨e, he.1, he.2, rfl⟩
  | reap now t m ht h =>
    cases h
    rw [(writes_markTerminalRequest now t m).status] at hs
    cases hs
    rcases ht with h | h <;> cases h
  | delete now t h => cases h; exact absurd rfl hc
  | aside h =>
    obtain ⟨v, hv, h⟩ := h
    cases h; rw [(writes_of_beside hv.beside).status] at hs; cases hs

/-- Only an upsert writes what belongs to the identity of a record. -/
theorem docWrite_targets {k : String} {u : DocUpdate} {a : DocumentMetadata}
    (ha : a ∈ identityAttrs) (h : IsDocWriteOf False k (.updateItem k u)) :
    Dynamo.Targets (T := DocumentMetadata.schema) (· ≠ a) u.actions := by
  have hkept : a ∈ keptAttrs := List.mem_cons_of_mem _ (List.mem_cons_of_mem _
    (List.mem_cons_of_mem _ ha))
  have hne : ∀ {b : DocumentMetadata}, b ∉ identityAttrs → b ≠ a := fun hb e => hb (e ▸ ha)
  have haside : ∀ {v : DocUpdate}, Untracked v.actions →
      Dynamo.Targets (T := DocumentMetadata.schema) (· ≠ a) v.actions := fun hv =>
    hv.mono fun b hb => hne fun hi => hb (by simp only [tracked, List.mem_cons, hi, or_true])
  cases h with
  | upsert _ _ _ _ hu => exact hu.elim
  | bdaStart env data _ _ h =>
    obtain ⟨now, timing, ht, h⟩ := h
    cases h
    exact targets_updateRequest ht hkept
  | terminal s _ h =>
    rcases h with ⟨env, data, _, _, now, timing, ht, h⟩ | ⟨r, _, h⟩ | ⟨v, hv, h⟩
    · cases h
      exact targets_updateRequest ht hkept
    · cases h
      refine targets_set (hne ?_) (targets_ne_setOpt (hne ?_) _) <;> decide
    · cases h
      exact haside hv
  | claim e _ h =>
    cases h
    refine targets_set (hne ?_) Dynamo.targets_nil
    decide
  | reap now s m _ h =>
    cases h
    refine targets_set (hne ?_) (targets_set (hne ?_) (targets_ne_setOpt (hne ?_) _)) <;> decide
  | delete now t h =>
    cases h
    refine targets_set (hne ?_) (targets_set (hne ?_) (targets_set (hne ?_) Dynamo.targets_nil))
      <;> decide
  | aside h =>
    obtain ⟨v, hv, h⟩ := h
    cases h
    exact haside hv

/-- No request changes the consent flag of a record. -/
theorem docWrite_aiConsentFlag {k : String} {u : DocUpdate} {old new : Record} {b : Bool}
    (h : IsDocWrite k (.updateItem k u)) (hu : u.apply old = .ok new)
    (hb : old.aiConsentFlag = some b) : new.aiConsentFlag = some b := by
  rcases h.upsert_or with ⟨d, _, now, h⟩ | h
  · cases h
    exact upsertRequest_once (by decide) hu hb
  · exact (Dynamo.Update.apply_frame hu (docWrite_targets (by decide) h)).trans hb

/-! ## Status writes -/

theorem nonTerminalCondition_eval (r : Record) :
    nonTerminalCondition.eval r = true ↔ ¬ r.Classified := by
  change (r.status.isNone || r.status.any fun s => ProcessStatus.nonTerminal.contains s) = true ↔
    ¬ ∃ s, r.status = some s ∧ s.isClassified = true
  cases r.status with
  | none => simp
  | some s => simp [ProcessStatus.mem_nonTerminal]

end DocumentAi
