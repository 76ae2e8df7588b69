import DocumentAi.Footprint.Exec

/-!
# Is a classified status final?

Only two requests write a status without a condition and are not a delete: `upsert_ddb`
(`utils/ddb.py:558-673`) and the write of a started BDA job
(`pipeline/document_lifecycle.py:89-110`). A classified status is final in exactly the runs in
which neither of them reaches a record that is classified with another status.

| here | meaning |
| --- | --- |
| `docWrite_step`   | what one request does to the status of a classified record |
| `overwrites c m`  | the move `m` puts such a request on a classified record |
| `StatusFinal`     | once classified, a record keeps its status or becomes `DELETED` |
| `statusFinal_iff` | `StatusFinal` holds of a run iff no move of it overwrites |
-/

namespace DocumentAi

open Effect (play move_cases Along along_iff_split play_append)

/-! ## Requests on a classified record -/

/-- The only requests that write a status unconditionally. -/
theorem unconditional_status_write {k : String} {u : DocUpdate} {s : ProcessStatus}
    (h : IsDocWrite k (.updateItem k u)) (hc : u.cond = none) (hs : statusWrite u = some s) :
    s = .deleted ∨ (∃ d, IsUpsertOf d (.updateItem k u)) ∨
      ∃ env data, data.status = .started ∧ IsUpdateOf env data none (.updateItem k u) := by
  cases h with
  | upsert d _ _ h => exact .inr (.inl ⟨d, h⟩)
  | bdaStart env data _ hd h => exact .inr (.inr ⟨env, data, hd, h⟩)
  | terminal t _ h =>
    rcases h with ⟨env, data, _, _, now, timing, _, h⟩ | ⟨r, _, h⟩ | ⟨v, hv, h⟩
    · cases h; cases hc
    · cases h; rw [(writes_responseRequest r).status] at hs; cases hs
    · cases h; rw [(writes_of_beside hv.beside).status] at hs; cases hs
  | claim e _ h => cases h; cases hc
  | reap now t m _ h => cases h; cases hc
  | delete now t h => cases h; rw [(writes_deleteRequest now t).status] at hs; cases hs; exact .inl rfl
  | aside h =>
    obtain ⟨v, hv, h⟩ := h
    cases h; rw [(writes_of_beside hv.beside).status] at hs; cases hs

/-- An applied request keeps the status of a classified record, deletes the record, or is
unconditional. -/
theorem docWrite_step {k : String} {u : DocUpdate} {old new : Record} {s : ProcessStatus}
    (h : IsDocWrite k (.updateItem k u)) (hu : u.apply old = .ok new) (hs : old.status = some s)
    (hc : s.isClassified = true) :
    new.status = some s ∨ new.status = some .deleted ∨ u.cond = none := by
  have hcond := (Dynamo.Update.apply_eq_ok hu).1
  have hclassified : old.Classified := ⟨s, hs, hc⟩
  cases h with
  | upsert d _ _ h => obtain ⟨now, h⟩ := h; cases h; exact .inr (.inr rfl)
  | bdaStart env data _ _ h => obtain ⟨now, timing, _, h⟩ := h; cases h; exact .inr (.inr rfl)
  | terminal t _ h =>
    rcases h with ⟨env, data, _, _, now, timing, _, h⟩ | ⟨r, _, h⟩ | ⟨v, hv, h⟩
    · cases h
      exact absurd hclassified ((nonTerminalCondition_eval old).1 hcond)
    · cases h
      exact .inl ((writes_responseRequest r).status_eq hu ▸ hs)
    · cases h
      exact .inl ((writes_of_beside hv.beside).status_eq hu ▸ hs)
  | claim e he h =>
    cases h
    have hne : (s == e) = true := by
      change (old.status.any fun t => t == e) = true at hcond
      rwa [hs] at hcond
    rw [eq_of_beq hne, he.1] at hc
    cases hc
  | reap now t m _ h =>
    cases h
    exact absurd hclassified ((nonTerminalCondition_eval old).1 hcond)
  | delete now t h =>
    cases h
    exact .inr (.inl ((writes_deleteRequest now t).status_eq hu))
  | aside h =>
    obtain ⟨v, hv, h⟩ := h
    cases h
    exact .inl ((writes_of_beside hv.beside).status_eq hu ▸ hs)

/-! ## Runs -/

/-- The move sends an unconditional write of a status other than `DELETED` to a record that is
classified with another status. -/
def overwrites (c : Config) (m : Move) : Bool :=
  match (passes c m).bind unconditionalWrite with
  | some (k, s') =>
    (c.world.record k).status.any fun s => s.isClassified && s' != s && s' != .deleted
  | none         => false

theorem overwrites_iff {c : Config} {m : Move} : overwrites c m = true ↔
    ∃ i ch t k u κ s s', m = .act i ch ∧ c.Next i t (.updateItem k u) κ ∧ ch.fail = none ∧
      u.cond = none ∧ (c.world.record k).status = some s ∧ s.isClassified = true ∧
      statusWrite u = some s' ∧ s' ≠ s ∧ s' ≠ .deleted := by
  constructor
  · intro h
    unfold overwrites at h
    split at h
    next k s' hb =>
      obtain ⟨op, hop, hwrite⟩ := Option.bind_eq_some_iff.1 hb
      obtain ⟨u, rfl, hu, hw⟩ := unconditionalWrite_eq_some.1 hwrite
      obtain ⟨i, ch, t, κ, rfl, hf, hn⟩ := passes_eq_some.1 hop
      obtain ⟨s, hs, h⟩ := (Option.any_eq_true _ _).1 h
      simp only [Bool.and_eq_true, bne_iff_ne] at h
      exact ⟨i, ch, t, k, u, κ, s, s', rfl, hn, hf, hu, hs, h.1.1, hw, h.1.2, h.2⟩
    next => cases h
  · rintro ⟨i, ch, t, k, u, κ, s, s', rfl, hn, hf, hu, hs, hc, hw, hne, hd⟩
    have hop : passes c (.act i ch) = some (.updateItem k u) :=
      passes_eq_some.2 ⟨i, ch, t, κ, rfl, hf, hn⟩
    have hwrite : unconditionalWrite (.updateItem k u) = some (k, s') :=
      unconditionalWrite_eq_some.2 ⟨u, rfl, hu, hw⟩
    simp [overwrites, hop, hwrite, hs, hc, hne, hd]

/-- Every record that is classified before the move has its status after it, or is `DELETED`. -/
def KeepsStatus (c : Config) (m : Move) : Prop :=
  ∀ c', Effect.move c m = some c' → ∀ k s, (c.world.record k).status = some s →
    s.isClassified = true →
      (c'.world.record k).status = some s ∨ (c'.world.record k).status = some .deleted

theorem noPath_of_unconditional {k : String} {u : DocUpdate} {s : ProcessStatus}
    (h : IsDocWrite k (.updateItem k u)) (hc : u.cond = none) (hs : statusWrite u = some s)
    (hd : s ≠ .deleted) : NoPath u.actions := by
  rcases unconditional_status_write h hc hs with h | ⟨d, now, h⟩ | ⟨env, data, _, now, timing, ht, h⟩
  · exact absurd h hd
  · cases h; exact noPath_upsertActions now d
  · cases h; exact (sets_updateRequest ht).noPath


/-- Every request of the pool is of a kind of `IsDocWrite`, so a move keeps every classified status
exactly when it does not overwrite one. -/
theorem keepsStatus_iff {c : Config} (hc : c.All OnSomeDoc) (m : Move) :
    KeepsStatus c m ↔ overwrites c m = false := by
  rw [← Bool.not_eq_true, overwrites_iff]
  constructor
  · rintro hk ⟨i, ch, t, k, u, κ, s, s', rfl, hn, hf, hu, hs, hcl, hw, hne, hd⟩
    have hdoc := docWrite_of_updateItem (hc.next hn)
    obtain ⟨new, hnew⟩ := apply_of_noPath (noPath_of_unconditional hdoc hu hw hd)
      (c.world.record k) (by rw [hu]; rfl)
    have hlast := hk _ (hn.move (exec_updateItem_ok hf hnew)) k s hs hcl
    rw [record_setRecord_self] at hlast
    rw [docWrite_status hdoc hnew, hw] at hlast
    exact hlast.elim (fun h => hne (Option.some.inj h)) fun h => hd (Option.some.inj h)
  · intro ho c' hm k s hs hcl
    rcases move_cases hm with ⟨e, rfl, rfl⟩ | ⟨i, ch, t, op, κ, ans, w', rfl, hn, hx, rfl⟩ |
      ⟨i, t, rfl, ht, rfl⟩
    · exact .inl hs
    · obtain ⟨j, hj | hj⟩ := hc.next hn
      · exact .inl ((record_congr ((exec_frame hx).docs hj) k).symm ▸ hs)
      · obtain ⟨u, rfl⟩ := docWrite_updateItem hj
        rcases exec_updateItem hx with ⟨e, _, rfl⟩ | ⟨new, rfl, hf, hnew, rfl⟩
        · exact .inl hs
        · by_cases hjk : k = j
          · subst hjk
            rw [record_setRecord_self]
            rcases docWrite_step hj hnew hs hcl with h | h | hu
            · exact .inl h
            · exact .inr h
            · have hstatus := docWrite_status hj hnew
              cases hw : statusWrite u with
              | none => exact .inl (by rw [hstatus, hw]; exact hs)
              | some s' =>
                rw [hw] at hstatus
                by_contra hcon
                rw [hstatus] at hcon
                exact ho ⟨i, ch, t, k, u, κ, s, s', rfl, hn, hf, hu, hs, hcl, hw,
                  fun e => hcon (.inl (congrArg some e)), fun e => hcon (.inr (congrArg some e))⟩
          · rw [record_setRecord_ne _ _ hjk]
            exact .inl hs
    · exact .inl hs

/-- A status that every move keeps is final. -/
theorem keepsStatus_run {c c' : Config} {ms : List Move} (ha : Along KeepsStatus c ms)
    (h : play c ms = some c') {k : String} {s : ProcessStatus}
    (hs : (c.world.record k).status = some s) (hc : s.isClassified = true) :
    (c'.world.record k).status = some s ∨ (c'.world.record k).status = some .deleted := by
  induction ms generalizing c s with
  | nil => cases h; exact .inl hs
  | cons m ms ih =>
    obtain ⟨c₁, hm, h⟩ := Option.bind_eq_some_iff.1 h
    rcases ha.1 c₁ hm k s hs hc with h₁ | h₁
    · exact ih (ha.2 c₁ hm) h h₁ hc
    · exact .inr ((ih (ha.2 c₁ hm) h h₁ rfl).elim id id)

/-- Between any two points of the run, a classified status stays as it is or becomes `DELETED`. -/
def StatusFinal (w : World) (ms : List Move) : Prop :=
  ∀ ns ns' rest c c', ms = ns ++ ns' ++ rest → play (.init w) ns = some c →
    play c ns' = some c' → ∀ k s, (c.world.record k).status = some s → s.isClassified = true →
      (c'.world.record k).status = some s ∨ (c'.world.record k).status = some .deleted

/-- **A classified status is final exactly in the runs in which no upsert and no write of a started
BDA job reaches a record classified with another status.** -/
theorem statusFinal_iff (w : World) (ms : List Move) :
    StatusFinal w ms ↔ Along (fun c m => overwrites c m = false) (.init w) ms := by
  have hall : ∀ {ns : List Move} {c : Config}, play (.init w) ns = some c → c.All OnSomeDoc :=
    fun h => Effect.Config.All.play body_onSomeDoc (Effect.Config.all_init _ w) h
  rw [along_iff_split]
  constructor
  · rintro hf ns m ns' c rfl hns
    refine (keepsStatus_iff (hall hns) m).1 fun c' hm k s hs hc => ?_
    refine hf ns [m] ns' c c' (by simp) hns ?_ k s hs hc
    simp only [play, hm, Option.bind_some]
  · rintro ha ns ns' rest c c' rfl hns hns' k s hs hc
    refine keepsStatus_run (along_iff_split.2 fun xs m ys c₁ e hxs => ?_) hns' hs hc
    have hsplit : play (.init w) (ns ++ xs) = some c₁ := (play_append hns).trans hxs
    refine (keepsStatus_iff (hall hsplit) m).2 (ha (ns ++ xs) m (ys ++ rest) c₁ ?_ hsplit)
    rw [e]
    simp

/-! ## A run that reopens a timed-out document

A PDF has been uploaded long ago. The processor reads its record as `NOT_STARTED` and asks for the
preclassification; meanwhile the reaper marks the record `TIMED_OUT`; then the processor's upsert
lands. -/

/-- `n` calls of the thread `i`. -/
def acts (n i : Nat) (ch : Choice := {}) : List Move := List.replicate n (.act i ch)

def sampleEnv : EnvConfig :=
  { documentaiInputLocation := some "s3://input/docs"
    documentaiOutputLocation := some "s3://output/results"
    bdaProjectArn := some "arn:aws:bedrock:us-east-1:1:project/p"
    bdaProfileArn := some "arn:aws:bedrock:us-east-1:1:profile/q"
    flags := { enableBlurDetection := false }
    libs := { guessMime := fun _ => some "application/pdf" } }

def sampleKey : S3Key := ("input", "docs/acme/scan-1.pdf")

/-- An uploaded document of tenant `acme` that nobody has processed yet. -/
def sampleRecord : Record
  | .processStatus => some ProcessStatus.notStarted
  | .tenantId      => some "acme"
  | .jobId         => some "1"
  | .createdAt     => some (0 : Nat)
  | .tokensByModel => some []
  | _              => none

def samplePdf : S3Object :=
  { body := .raw (ascii "%PDF-1.7"), contentType := some "application/pdf" }

def sampleWorld : World :=
  { docs := Dynamo.Table.empty.put "scan-1.pdf" sampleRecord
    objects := [(sampleKey, samplePdf)] }

def statusOf (k : String) (c : Config) : Option ProcessStatus := (c.world.record k).status

/-- Up to the reaper's write. -/
def timeoutRun : List Move :=
  .start (.processor sampleEnv sampleKey false) :: acts 5 0
    ++ .start .reaper :: acts 8 1 { now := 2 * staleThreshold }

set_option maxRecDepth 10000 in
/-- The upsert puts a timed-out document back to `NOT_STARTED`. -/
theorem statusFinal_fails : ¬ ∀ w ms, StatusFinal w ms := by
  intro hall
  have hreap : (play (.init sampleWorld) timeoutRun).map (statusOf "scan-1.pdf") =
      some (some .timedOut) := by decide +kernel
  have hupsert : (play (.init sampleWorld) (timeoutRun ++ acts 1 0)).map (statusOf "scan-1.pdf") =
      some (some .notStarted) := by decide +kernel
  obtain ⟨c, hc, hs⟩ := Option.map_eq_some_iff.1 hreap
  rw [play_append hc] at hupsert
  obtain ⟨c', hc', hs'⟩ := Option.map_eq_some_iff.1 hupsert
  have := hall sampleWorld (timeoutRun ++ acts 1 0 ++ []) timeoutRun (acts 1 0) [] c c' rfl hc hc'
    "scan-1.pdf" .timedOut hs rfl
  rw [show (c'.world.record "scan-1.pdf").status = some .notStarted from hs'] at this
  simp at this

end DocumentAi
