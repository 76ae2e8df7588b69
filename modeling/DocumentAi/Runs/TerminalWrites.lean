import DocumentAi.Runs.ReadsBack
import DocumentAi.Runs.StoredAnswer
import DocumentAi.Runs.UploadFacts

/-!
# Does every request of a terminal write apply?

A request that sets `m.k` is rejected on a record without the map `m`. `upsert_ddb` creates
`apiResponsesByMethod` and `durationsByMethod` for a compare run only (`utils/ddb.py:603-609`), and
`tokensByModel` for every record (`:611-614`).

| here | meaning |
| --- | --- |
| `steady`     | the system in which no call fails but by its own request |
| `Rejected`   | some request of the run was rejected as invalid |
| `Made c r`   | `r` is a record of the upload route, of a compare run when `c` |
| `MapsAre c`  | the maps by method are there, or neither is |
| `Applicable` | a request that is never rejected as invalid |
-/

namespace DocumentAi

open Effect (Event Ends Steps ends_bind_iff ends_tryCatch_iff ends_perform_iff ends_ret_iff
  ends_raise_iff limit_exec)
open Effect.Prog (All Spec spec_bind spec_tryCatch spec_ite all_bind)
open Dynamo (Targets targets_append targets_nil)

/-- The system in which the environment fails no call. -/
abbrev steady : Effect.Sys sig := system.limit fun ch => ch.fail.isNone

/-- A request on the document-metadata table was rejected as invalid. -/
def Rejected (tr : List (Event sig)) : Prop :=
  ∃ k u, (⟨.updateItem k u, .error (.clientError .validationException)⟩ : Event sig) ∈ tr

/-! ## The records of an upload -/

/-- The record that `insert_minimal_ddb_record` makes, `c` telling a compare run, after the
processor's upserts and any requests that do not touch the maps. -/
inductive Made : Bool → Record → Prop where
  | insert {record : DocumentRecord} {now : Timestamp} {new : Record}
      (h : (upsertRequest now (minimalRecord record)).apply (fun _ => none) = .ok new) :
      Made record.isCompare new
  | upsert {c : Bool} {env : EnvConfig} {doc : FetchedDocument} {selection : Selection}
      {pre : PreExtraction} {response : Option InternalApiResponse} {now : Timestamp}
      {old new : Record} (hold : Made c old)
      (h : (upsertRequest now (initialRecord env doc selection pre response)).apply old = .ok new) :
      Made c new
  | other {c : Bool} {u : DocUpdate} {old new : Record} (hold : Made c old)
      (hu : Targets (T := DocumentMetadata.schema) (· ∉ methodAttrs) u.actions)
      (h : u.apply old = .ok new) : Made c new

/-- The maps by method are there when `c` holds, and neither is when it does not. -/
def MapsAre (c : Bool) (r : Record) : Prop := ∀ a ∈ methodAttrs, (r a).isSome = c

theorem targets_upsertActions {d : InitialDdbRecord} {now : Timestamp} {a : DocumentMetadata}
    (ha : a ∈ methodAttrs) (hd : d.isCompare ≠ some true) :
    Targets (T := DocumentMetadata.schema) (· ≠ a) (upsertActions now d) := by
  have hhead : a ∉ headTargets := by
    revert ha
    revert a
    decide
  have hne : ∀ {b : DocumentMetadata}, b ∉ methodAttrs → b ≠ a := fun hb e => hb (e ▸ ha)
  rw [upsertActions_eq]
  refine targets_append.2 ⟨targets_append.2 ⟨targets_append.2 ⟨?_, ?_⟩, ?_⟩, ?_⟩
  · rw [Dynamo.targets_ne_iff, map_target_upsertHead]
    exact hhead
  · unfold upsertMaps
    rw [if_neg hd]
    refine targets_append.2 ⟨targets_append.2 ⟨targets_ne_setOpt (hne ?_) _, targets_nil⟩,
      targets_setIfNotExists (hne ?_) targets_nil⟩ <;> decide
  · unfold initialFieldActions
    repeat refine targets_append.2 ⟨?_, targets_ne_setOpt (hne (by decide)) _⟩
    exact targets_ne_setOpt (hne (by decide)) _
  · unfold upsertEnd
    refine targets_append.2 ⟨targets_ne_setOpt (hne (by decide)) _, ?_⟩
    cases d.preClassification with
    | none => exact targets_nil
    | some p =>
      change Targets _ (preClassificationActions p)
      unfold preClassificationActions
      repeat refine targets_append.2 ⟨?_, targets_ne_setOpt (hne (by decide)) _⟩
      exact targets_ne_setOpt (hne (by decide)) _

/-- A compare run's upsert creates the maps. -/
theorem mem_upsertActions {d : InitialDdbRecord} (now : Timestamp) {a : DocumentMetadata}
    (ha : a ∈ methodAttrs) (hd : d.isCompare = some true) :
    ∃ x ∈ upsertActions now d, x.target = a := by
  have hmaps : ∃ x ∈ upsertMaps d, x.target = a := by
    unfold upsertMaps
    rw [if_pos hd]
    simp only [methodAttrs, List.mem_cons, List.not_mem_nil, or_false] at ha
    rcases ha with rfl | rfl
    · exact ⟨.setIfNotExists .apiResponsesByMethod [], by simp, rfl⟩
    · exact ⟨.setIfNotExists .durationsByMethod [], by simp, rfl⟩
  obtain ⟨x, hx, hxa⟩ := hmaps
  refine ⟨x, ?_, hxa⟩
  rw [upsertActions_eq]
  simp only [List.mem_append]
  exact .inl (.inl (.inr hx))

/-- A record has the maps exactly when it is one of a compare run. -/
theorem Made.maps {c : Bool} {r : Record} (h : Made c r) : MapsAre c r := by
  induction h with
  | @insert record now new h =>
    intro a ha
    cases hc : record.isCompare with
    | true =>
      have hcompare : (minimalRecord record).isCompare = some true := congrArg some hc
      obtain ⟨x, hx, rfl⟩ := mem_upsertActions now ha hcompare
      exact Dynamo.Update.apply_target_isSome h hx
    | false =>
      have hne : (minimalRecord record).isCompare ≠ some true := fun e => by
        cases hc.symm.trans (Option.some.inj e)
      rw [Dynamo.Update.apply_frame h (targets_upsertActions ha hne)]
      rfl
  | upsert _ h ih =>
    intro a ha
    rw [Dynamo.Update.apply_frame h (targets_upsertActions ha fun e => by cases e), ih a ha]
  | other _ hu h ih =>
    intro a ha
    rw [Dynamo.Update.apply_frame h fun x hx e => hu x hx (e ▸ ha), ih a ha]

/-! ## Requests that apply -/

/-- A request on `k` that is valid on every record; when `c` holds, on every one with the maps. -/
def Applicable (c : Bool) (k : String) (op : Op) : Prop :=
  op.isElsewhere = true ∨ ∃ u : DocUpdate, op = .updateItem k u ∧
    ∀ r : Record, (c = true → MapsAre true r) →
      u.actions.all (Dynamo.Action.legal (T := DocumentMetadata.schema) r) = true

section
variable {c : Bool} {k : String} {w w' : World} {tr : List (Event sig)} {op : Op} {ch : Choice}

/-- Without failures of the environment a request is rejected by the table or applies. -/
theorem steady_updateItem {u : DocUpdate} {ans : sig.Ans (.updateItem k u)}
    (h : steady.exec w (.updateItem k u) ch = some (ans, w')) :
    (∃ e, u.apply (w.record k) = .error e ∧ ans = .error (.ofRejection e) ∧ w' = w) ∨
      ∃ new, u.apply (w.record k) = .ok new ∧ ans = .ok () ∧ w' = w.setRecord k new := by
  obtain ⟨hf, hx⟩ := limit_exec.1 h
  cases hu : u.apply (w.record k) with
  | ok new =>
    rw [show system.exec w (.updateItem k u) ch = _ from
      exec_updateItem_ok (Option.isNone_iff_eq_none.1 hf) hu] at hx
    cases hx
    exact .inr ⟨new, rfl, rfl, rfl⟩
  | error e =>
    have hd : w.docs.update k u = .error e := by
      simp only [Dynamo.Table.update]
      exact congrArg (Except.map (w.docs.put k)) hu
    simp only [World.exec, Option.isNone_iff_eq_none.1 hf, World.run, hd, World.raise] at hx
    cases hx
    exact .inl ⟨e, rfl, rfl, rfl⟩

theorem apply_ne_validation {u : DocUpdate} {r : Record}
    (h : u.actions.all (Dynamo.Action.legal (T := DocumentMetadata.schema) r) = true) :
    u.apply r ≠ .error .validation := by
  unfold Dynamo.Update.apply
  rw [if_pos h]
  split
  · intro e
    cases e
  · intro e
    cases e

theorem steps_applicable {α : Type} {p q : Prog α} (hp : All (Applicable c k) p)
    (h : Steps steady w p tr q w') (hc : c = true → MapsAre true (w.record k)) : ¬ Rejected tr := by
  refine (h.relate (P := steady) (R := fun (w : World) tr _ =>
    (c = true → MapsAre true (w.record k)) → ¬ Rejected tr) ?_ ?_ hp) hc
  · rintro w _ ⟨_, _, hev⟩
    cases hev
  · rintro w w₁ w' op ch ans tr hop hx ih hw ⟨j, u, hev⟩
    have hsys : system.exec w op ch = some (ans, w₁) := (limit_exec.1 hx).2
    rcases hop with hop | ⟨v, rfl, hv⟩
    · have hrest : ¬ Rejected tr := ih fun hc => by
        rw [record_congr ((exec_frame hsys).docs hop)]
        exact hw hc
      rcases List.mem_cons.1 hev with hev | hev
      · cases hev
        cases hop
      · exact hrest ⟨j, u, hev⟩
    · rcases steady_updateItem hx with ⟨e, he, rfl, rfl⟩ | ⟨new, hnew, rfl, rfl⟩
      · rcases List.mem_cons.1 hev with hev | hev
        · cases e with
          | conditionalCheckFailed => cases hev
          | validation => exact apply_ne_validation (hv _ hw) he
        · exact ih hw ⟨j, u, hev⟩
      · rcases List.mem_cons.1 hev with hev | hev
        · cases hev
        · refine ih (fun hc a ha => ?_) ⟨j, u, hev⟩
          rw [record_setRecord_self]
          exact Dynamo.Update.apply_isSome hnew (hw hc a ha)

theorem applicable_of_isElsewhere {α : Type} {p : Prog α}
    (hp : All (fun (op : Op) => op.isElsewhere = true) p) : All (Applicable c k) p :=
  Effect.Prog.All.mono (fun _ => .inl) hp

theorem applicable_of_quiet {α : Type} {p : Prog α} (hp : Quiet p) : All (Applicable c k) p :=
  Effect.Prog.All.mono (fun _ h => .inl (elsewhere_of_isQuiet h).1) hp

theorem applicable_of_noPath {u : DocUpdate} (h : NoPath u.actions) :
    Applicable c k (.updateItem k u) := .inr ⟨u, rfl, fun r _ => h r⟩

theorem applicable_updateDdb (env : EnvConfig) (data : UpdateDdbRecord) (cond : Option Cond) :
    All (Applicable c data.objectKey) (updateDdb env data cond) := by
  refine Effect.Prog.All.mono ?_ (does_updateDdb env data cond)
  rintro op (h | ⟨now, timing, ht, rfl⟩)
  · exact .inl (elsewhere_of_isQuiet h).1
  · exact applicable_of_noPath (sets_updateRequest ht).noPath

theorem applicable_finalizeV1Response (env : EnvConfig) (s : ProcessStatus)
    (d : Option ClassificationData) (e : Option String) :
    All (Applicable c k) (finalizeV1Response env k s d e) := by
  refine Effect.Prog.All.mono ?_ (does_finalizeV1Response env k s d e)
  rintro op (h | ⟨r, _, rfl⟩)
  · exact .inl (elsewhere_of_isQuiet h).1
  · exact applicable_of_noPath (sets_set (sets_setOpt _)).noPath

/-- The requests of the method's answer need the maps, and nothing else. -/
theorem applicable_writeMethodResponse (env : EnvConfig) (u : UpdateDdbRecord)
    (result : Option ExtractionResult) (m : Option ExtractMethod) (hm : c = true ∨ m = none) :
    All (Applicable c u.objectKey) (writeMethodResponse env u result m) := by
  cases m with
  | none => trivial
  | some m =>
    obtain rfl : c = true := hm.resolve_right fun h => by cases h
    refine Effect.Prog.All.mono ?_ (makes_writeExtractMethodResponse ..)
    rintro op (h | ⟨v, hv, rfl⟩)
    · exact .inl (elsewhere_of_isQuiet (isQuiet_of_isRead h)).1
    · refine .inr ⟨v, rfl, fun r hr => List.all_eq_true.2 fun x hx => ?_⟩
      cases x with
      | setPath a f => exact hr rfl a (hv _ hx)
      | _ => rfl

theorem applicable_writeStatusUnlessTerminal (env : EnvConfig) (u : UpdateDdbRecord) :
    All (Applicable c u.objectKey) (writeStatusUnlessTerminal env u) := by
  refine spec_tryCatch (all_bind (applicable_updateDdb ..) fun _ => trivial) fun e => ?_
  split <;> trivial

theorem applicable_writeTerminalStatus {env : EnvConfig} {u : UpdateDdbRecord}
    {b : Option String} {result : Option ExtractionResult} {m : Option ExtractMethod}
    (hk : u.objectKey = k) (hm : c = true ∨ m = none) :
    All (Applicable c k) (writeTerminalStatus env u b result m) := by
  subst hk
  have hresponse := applicable_writeMethodResponse env u result m hm
  refine spec_ite hresponse (all_bind (applicable_writeStatusUnlessTerminal env u) fun applied => ?_)
  refine spec_ite (all_bind (applicable_finalizeV1Response ..) fun _ => all_bind ?_ fun _ =>
    hresponse) trivial
  exact applicable_of_isElsewhere
    (Effect.Prog.All.mono (fun _ h => h.1.1) (apart_incrementIfBatch b))

end

/-! ## The status write -/

section
variable {α : Type} {w w' : World} {tr : List (Event sig)}

theorem steady_getDdbRecord (k : String) : Effect.NoRaise steady (getDdbRecord k) := by
  intro w tr e w' h
  obtain ⟨ch, hx, rfl⟩ := ends_perform_iff.1 h
  obtain ⟨hf, hx⟩ := limit_exec.1 hx
  simp only [World.exec, Option.isNone_iff_eq_none.1 hf, World.run, World.ok] at hx
  cases hx

theorem steady_now : Effect.NoRaise steady (call .now) := by
  intro w tr e w' h
  obtain ⟨ch, hx, rfl⟩ := ends_perform_iff.1 h
  obtain ⟨hf, hx⟩ := limit_exec.1 hx
  simp only [World.exec, Option.isNone_iff_eq_none.1 hf, World.run, World.ok] at hx
  cases hx

open Effect (noRaise_bind noRaise_tryCatch noRaise_ret) in
theorem steady_buildCompletionTiming (k : String) (uri : Option String) :
    Effect.NoRaise steady (buildCompletionTiming k uri) := by
  refine noRaise_bind (steady_getDdbRecord k) fun r => ?_
  cases r with
  | none => exact noRaise_ret _
  | some r =>
    dsimp only
    split
    · exact noRaise_ret _
    · refine noRaise_bind steady_now fun now => noRaise_bind ?_ fun t => noRaise_bind ?_ fun _ =>
        noRaise_ret _
      · unfold completionTime
        split
        · exact noRaise_ret _
        · exact noRaise_tryCatch fun _ => noRaise_ret _
      · refine noRaise_bind (steady_getDdbRecord k) fun r => ?_
        cases r <;> exact noRaise_ret _

open Effect (noRaise_bind noRaise_tryCatch noRaise_ret) in
theorem steady_buildTimingUpdates (k : String) (s : ProcessStatus) (uri : Option String) :
    Effect.NoRaise steady (buildTimingUpdates k s uri) := by
  unfold buildTimingUpdates
  split
  · exact noRaise_bind steady_now fun _ => noRaise_bind (noRaise_tryCatch fun _ => noRaise_ret _)
      fun _ => noRaise_ret _
  · split
    · exact steady_buildCompletionTiming k uri
    · exact noRaise_ret _

/-- The conditional write fails on a classified record only. -/
theorem classified_of_updateDdb_error {env : EnvConfig} {u : UpdateDdbRecord} {e : Exc}
    (h : Ends steady w (updateDdb env u (some nonTerminalCondition)) tr (.error e) w') :
    (w.record u.objectKey).Classified := by
  by_contra hnot
  unfold updateDdb at h
  rcases ends_bind_iff.1 h with ⟨e', _, he⟩ | ⟨now, w₁, tr₁, tr₂, h₁, h₂, rfl⟩
  · exact steady_now _ _ _ _ he
  obtain rfl := steps_reads (reads_call rfl) h₁.of_limit
  have htiming := spec_buildTimingUpdates u.objectKey u.status (u.data.bind (·.bdaOutputS3Uri))
  rcases ends_bind_iff.1 h₂ with ⟨e', _, he⟩ | ⟨timing, w₂, tr₃, tr₄, h₃, h₄, rfl⟩
  · exact steady_buildTimingUpdates _ _ _ _ _ _ _ he
  obtain rfl := steps_reads htiming.all h₃.of_limit
  have ht : TimingActions timing := Effect.ends_of_spec htiming h₃
  rcases ends_bind_iff.1 h₄ with ⟨e', _, he⟩ | ⟨_, w₃, tr₅, tr₆, _, h₆, rfl⟩
  · obtain ⟨ch, hx, rfl⟩ := ends_perform_iff.1 he
    rcases steady_updateItem hx with ⟨rej, hrej, _, _⟩ | ⟨new, _, hr, _⟩
    · have hsets : Sets (updateRequest env now u timing (some nonTerminalCondition)).actions :=
        sets_updateRequest ht
      obtain ⟨new, hnew⟩ := apply_of_noPath hsets.noPath _ ((nonTerminalCondition_eval _).2 hnot)
      cases hnew.symm.trans hrej
    · cases hr
  · cases (ends_sendIfClassified h₆.of_limit).1

/-- The status write is skipped on a classified record only, and always is on one. -/
theorem classified_of_skipped {env : EnvConfig} {u : UpdateDdbRecord}
    (h : Ends steady w (writeStatusUnlessTerminal env u) tr (.ok false) w') :
    (w.record u.objectKey).Classified := by
  rcases ends_tryCatch_iff.1 h with ⟨a, hr, hok⟩ | ⟨e, w₁, tr₁, tr₂, herr, _, rfl⟩
  · obtain ⟨x, w₁, tr₁, tr₂, _, h₂, rfl⟩ := Effect.ends_bind_ok hok
    cases hr
    cases (ends_ret_iff.1 h₂).2.1
  · rcases ends_bind_iff.1 herr with ⟨e', he, herr⟩ | ⟨x, w₂, tr₃, tr₄, _, h₂, _⟩
    · exact classified_of_updateDdb_error herr
    · cases (ends_ret_iff.1 h₂).2.1

theorem not_classified_of_written {env : EnvConfig} {u : UpdateDdbRecord}
    (h : Ends system w (writeStatusUnlessTerminal env u) tr (.ok true) w') :
    ¬ (w.record u.objectKey).Classified := by
  rcases ends_writeStatusUnlessTerminal h with ⟨hr, _⟩ | ⟨now, timing, new, _, _, hnew, _⟩
  · exact absurd rfl hr
  · exact (nonTerminalCondition_eval _).1 (Dynamo.Update.apply_eq_ok hnew).1

end

/-! ## The whole terminal write -/

section
variable {env : EnvConfig} {w w' : World} {tr : List (Event sig)} {u : UpdateDdbRecord}
  {b : Option String} {result : Option ExtractionResult} {m : Option ExtractMethod}

/-- Without the maps the answer of a method is not stored. -/
theorem not_ends_writeMethodResponse (hw : MapsAre false (w.record u.objectKey)) (hm : m ≠ none) :
    ¬ Ends system w (writeMethodResponse env u result m) tr (.ok ()) w' := by
  intro h
  cases m with
  | none => exact hm rfl
  | some m =>
    obtain ⟨v1, w₁, tr₁, tr₂, h₁, h₂, rfl⟩ := Effect.ends_bind_ok h
    obtain rfl := steps_reads (reads_buildV1ApiResponse ..) h₁
    obtain ⟨fields, w₂, tr₃, tr₄, h₃, h₄, rfl⟩ := Effect.ends_bind_ok h₂
    obtain rfl := steps_reads (reads_storedFields ..) h₃
    obtain ⟨_, w₃, tr₅, tr₆, h₅, _, rfl⟩ := Effect.ends_bind_ok h₄
    obtain ⟨_, ⟨_, hr, _⟩ | ⟨new, _, hnew, _⟩⟩ := ends_executeDdbUpdate h₅
    · cases hr
    · have hlegal := (Dynamo.Update.apply_eq_ok hnew).2.1
      simp only [List.all_cons, List.all_nil, Bool.and_true, Dynamo.Action.legal] at hlegal
      rw [hw .apiResponsesByMethod (by decide)] at hlegal
      cases hlegal

/-- The status write, the answer and the counter leave the maps alone. -/
theorem maps_of_written {c : Bool} {w₁ w₂ w₃ : World} {tr₁ tr₂ tr₃ : List (Event sig)}
    (h₁ : Ends system w (writeStatusUnlessTerminal env u) tr₁ (.ok true) w₁)
    (h₂ : Ends system w₁ (finalizeV1Response env u.objectKey u.status u.data u.errorMessage) tr₂
      (.ok ()) w₂)
    (h₃ : Ends system w₂ (incrementIfBatch b) tr₃ (.ok ()) w₃)
    (hw : MapsAre c (w.record u.objectKey)) : MapsAre c (w₃.record u.objectKey) := by
  intro a ha
  rcases ends_writeStatusUnlessTerminal h₁ with ⟨hr, _⟩ | ⟨now, timing, new, _, ht, hnew, hdocs, _⟩
  · exact absurd rfl hr
  obtain ⟨_, ⟨_, hr, _⟩ | ⟨resp, rule, new', _, _, _, hnew', rfl, _⟩⟩ := ends_finalizeV1Response h₂
  · cases hr
  have hkept : ∀ a ∈ methodAttrs, a ∈ keptAttrs := by decide
  have hne : ∀ {x : DocumentMetadata}, x ∉ methodAttrs → x ≠ a := fun hx e => hx (e ▸ ha)
  have hresp : Targets (T := DocumentMetadata.schema) (· ≠ a) (responseRequest resp).actions :=
    targets_set (hne (by decide)) (targets_ne_setOpt (hne (by decide)) _)
  have hrec : w₁.record u.objectKey = new := by
    rw [World.record, hdocs, Dynamo.Table.put_item_self, Option.getD_some]
  have hdocs₃ := steps_docs (Effect.Prog.All.mono (fun _ h => h.1.1) (apart_incrementIfBatch b)) h₃
  rw [record_congr hdocs₃, record_setRecord_self, Dynamo.Update.apply_frame hnew' hresp, hrec,
    updateRequest_frame ht (hkept a ha) hnew, hw a ha]

/-- Without the maps a terminal write that names a method succeeds only where it skips it. -/
theorem skipped_of_noMaps {k : String} (hk : u.objectKey = k) (hw : MapsAre false (w.record k))
    (hm : m ≠ none) (h : Ends steady w (writeTerminalStatus env u b result m) tr (.ok ()) w') :
    m ≠ some .ocrMapping ∧ (w.record k).Classified := by
  subst hk
  unfold writeTerminalStatus at h
  split at h
  next => exact absurd h.of_limit (not_ends_writeMethodResponse hw hm)
  next hocr =>
    refine ⟨hocr, ?_⟩
    obtain ⟨applied, w₁, tr₁, tr₂, h₁, h₂, rfl⟩ := Effect.ends_bind_ok h
    cases applied with
    | false => exact classified_of_skipped h₁
    | true =>
      obtain ⟨_, w₂, tr₃, tr₄, h₃, h₄, rfl⟩ := Effect.ends_bind_ok h₂
      obtain ⟨_, w₃, tr₅, tr₆, h₅, h₆, rfl⟩ := Effect.ends_bind_ok h₄
      exact absurd h₆.of_limit (not_ends_writeMethodResponse
        (maps_of_written h₁.of_limit h₃.of_limit h₅.of_limit hw) hm)

/-- Which terminal writes of a record succeed: `c` tells whether it has the maps by method. -/
def WritesApply (c : Bool) (m : Option ExtractMethod) (r : Record) : Prop :=
  c = true ∨ m = none ∨ m ≠ some .ocrMapping ∧ r.Classified

theorem not_rejected {c : Bool} (hw : MapsAre c (w.record u.objectKey))
    (hc : WritesApply c m (w.record u.objectKey)) {r : Except Exc Unit}
    (h : Ends steady w (writeTerminalStatus env u b result m) tr r w') :
    ¬ Rejected tr ∨ r = .ok () := by
  rcases hc with rfl | rfl | ⟨hocr, hclassified⟩
  · exact .inl (steps_applicable (applicable_writeTerminalStatus rfl (.inl rfl)) h
      fun _ => hw)
  · exact .inl (steps_applicable (c := false) (applicable_writeTerminalStatus rfl (.inr rfl)) h fun hf => by cases hf)
  · have hstatus := applicable_writeStatusUnlessTerminal (c := false) env u
    unfold writeTerminalStatus at h
    rw [if_neg hocr] at h
    rcases ends_bind_iff.1 h with ⟨e, _, he⟩ | ⟨applied, w₁, tr₁, tr₂, h₁, h₂, rfl⟩
    · exact .inl (steps_applicable hstatus he fun hf => by cases hf)
    · cases applied with
      | false => exact .inr (ends_ret_iff.1 h₂).2.1
      | true => exact absurd hclassified (not_classified_of_written h₁.of_limit)

/-- **The whole of a terminal write** that nothing but a rejected request stops. -/
theorem ends_writeTerminalStatus_ok_iff {c : Bool} {r : Except Exc Unit}
    (hw : MapsAre c (w.record u.objectKey))
    (h : Ends steady w (writeTerminalStatus env u b result m) tr r w')
    (hstop : ∀ e, r = .error e → Rejected tr) :
    r = .ok () ↔ WritesApply c m (w.record u.objectKey) := by
  constructor
  · rintro rfl
    by_cases hm : m = none
    · exact .inr (.inl hm)
    cases c with
    | true => exact .inl rfl
    | false => exact .inr (.inr (skipped_of_noMaps rfl hw hm h))
  · intro hc
    cases r with
    | ok _ => rfl
    | error e =>
      rcases not_rejected hw hc h with hnot | hr
      · exact absurd (hstop e rfl) hnot
      · cases hr

end

/-! ## The Textract step of the processor -/

/-- A call beside the table, or the request that records Textract as the method. -/
def MarksMethod (k : String) (op : Op) : Prop :=
  op.isElsewhere = true ∨ ∃ (m : ExtractMethod) (t : Timestamp),
    op = .updateItem k { actions := [.set .extractionStartedAt t, .set .extractionMethod m] }

section
variable {env : EnvConfig} {k c t : String} {bytes : Bytes} {b : Option String}

theorem marks_extractTextractIdentity :
    All (MarksMethod k) (extractTextractIdentity env c bytes k) := by
  have helse : ∀ {α : Type} {p : Prog α}, Quiet p → All (MarksMethod k) p := fun hp =>
    Effect.Prog.All.mono (fun _ h => .inl (elsewhere_of_isQuiet h).1) hp
  have hai : ∀ a : AiCall, All (MarksMethod k) (call (.ai a)) := fun a =>
    Effect.Prog.all_perform (.inl rfl)
  have hanalyze : All (MarksMethod k) (analyzeIdentity bytes k) := by
    refine spec_tryCatch ?_ fun _ => trivial
    refine all_bind (helse (reads_getDdbRecord k).quiet) fun r => ?_
    refine all_bind (helse (quiet_extractionStart r)) fun _ => ?_
    exact all_bind (hai _) fun _ => all_bind (helse (quiet_call rfl)) fun _ => trivial
  have hsupplement : ∀ r d f, All (MarksMethod k) (supplementFields env r d bytes f) := by
    intro r d f
    unfold supplementFields
    split
    · trivial
    · exact spec_ite trivial (spec_tryCatch (all_bind (hai _) fun _ => trivial) fun _ => trivial)
  unfold extractTextractIdentity
  refine spec_ite trivial (all_bind hanalyze fun r => ?_)
  split
  · trivial
  · split
    · trivial
    · refine spec_ite trivial (all_bind (hsupplement ..) fun _ => all_bind ?_ fun _ => trivial)
      exact Effect.Prog.all_perform (.inr ⟨_, _, rfl⟩)

theorem elsewhere_processTextractResult (result : ExtractionResult) :
    Spec (fun (op : Op) => op.isElsewhere = true) (fun p => p.objectKey = k)
      (processTextractResult env k result (some t) b) := by
  unfold processTextractResult
  refine all_bind ?_ fun tenant => ?_
  · unfold resolveTenant
    split
    · trivial
    · exact all_bind (Effect.Prog.all_perform rfl) fun _ => trivial
  · split
    · trivial
    · refine all_bind ?_ fun _ => rfl
      unfold writeExtractionOutput
      refine spec_ite trivial (all_bind (all_liftExcept _) fun _ => ?_)
      exact all_bind (all_liftExcept _) fun _ => all_bind (Effect.Prog.all_perform rfl) fun _ =>
        trivial

theorem applicable_of_marks {m : Bool} {op : Op} (h : MarksMethod k op) : Applicable m k op := by
  rcases h with h | ⟨_, _, rfl⟩
  · exact .inl h
  · exact applicable_of_noPath (noPath_set (noPath_set noPath_nil))

theorem applicable_classifyExtractionResult (result : ExtractionResult)
    (uri tenant : Option String) (started : Option Timestamp) (m : ExtractMethod) :
    All (Applicable true k) (classifyExtractionResult env k result uri tenant b started m) := by
  unfold classifyExtractionResult
  split
  · trivial
  · refine all_bind (applicable_of_quiet (reads_getExtractionConfidenceFloor _).quiet) fun _ => ?_
    refine all_bind (applicable_of_quiet (reads_tenantHasConfidenceFloor _).quiet) fun _ => ?_
    refine all_bind (applicable_of_quiet (reads_getMissingRequiredFields ..).quiet) fun _ => ?_
    refine all_bind (applicable_of_quiet (reads_getInternalApiResponse ..).quiet) fun _ => ?_
    exact applicable_writeTerminalStatus rfl (.inl rfl)

/-- On a record with the maps no request of the step is rejected. -/
theorem applicable_invokeTextractIfIdentityPath (d : Dispatch) :
    All (Applicable true d.doc.ddbKey) (invokeTextractIfIdentityPath env d) := by
  refine spec_ite trivial (spec_tryCatch ?_ fun _ => trivial)
  unfold runTextractPipeline
  refine all_bind (Effect.Prog.All.mono (fun _ => applicable_of_marks)
    marks_extractTextractIdentity) fun r => ?_
  split
  · trivial
  · refine spec_bind (Effect.Prog.Spec.mono (fun _ => .inl) (fun _ h => h)
      (elsewhere_processTextractResult _)) fun p hp => ?_
    refine all_bind (spec_tryCatch ?_ fun _ => trivial) fun _ => trivial
    rw [hp]
    exact applicable_classifyExtractionResult ..

end

section
variable {env : EnvConfig} {w w' : World} {tr : List (Event sig)} {k : String}

/-- Recording the method leaves the maps and the status alone. -/
theorem steps_marks {α : Type} {p q : Prog α} (hp : All (MarksMethod k) p)
    (h : Steps system w p tr q w') {a : DocumentMetadata}
    (ha : a ∉ [DocumentMetadata.extractionStartedAt, .extractionMethod]) :
    w'.record k a = w.record k a := by
  refine steps_writesOn (Effect.Prog.All.mono ?_ hp) h ha
  rintro op (h | ⟨m, t, rfl⟩)
  · exact .inl h
  · refine .inr ⟨_, ?_, rfl⟩
    refine targets_set ?_ (targets_set ?_ targets_nil) <;> decide

/-- Without the maps the classification of a pending document as extracted does not succeed. -/
theorem not_ends_classifyExtractionResult {result : ExtractionResult}
    {uri tenant b : Option String} {started : Option Timestamp} {m : ExtractMethod}
    (hw : MapsAre false (w.record k)) (hpending : ¬ (w.record k).Classified) :
    ¬ Ends steady w (classifyExtractionResult env k result uri tenant b started m) tr (.ok ()) w' := by
  intro h
  unfold classifyExtractionResult at h
  split at h
  next => cases (ends_raise_iff.1 h).2.1
  next uri =>
    obtain ⟨_, w₁, tr₁, tr₂, h₁, h₂, rfl⟩ := Effect.ends_bind_ok h
    obtain rfl := steps_reads (reads_getExtractionConfidenceFloor _) h₁.of_limit
    obtain ⟨_, w₂, tr₃, tr₄, h₃, h₄, rfl⟩ := Effect.ends_bind_ok h₂
    obtain rfl := steps_reads (reads_tenantHasConfidenceFloor _) h₃.of_limit
    obtain ⟨_, w₃, tr₅, tr₆, h₅, h₆, rfl⟩ := Effect.ends_bind_ok h₄
    obtain rfl := steps_reads (reads_getMissingRequiredFields ..) h₅.of_limit
    obtain ⟨_, w₄, tr₇, tr₈, h₇, h₈, rfl⟩ := Effect.ends_bind_ok h₆
    obtain rfl := steps_reads (reads_getInternalApiResponse ..) h₇.of_limit
    exact hpending (skipped_of_noMaps rfl hw (fun hm => by cases hm) h₈).2

/-- Without the maps the step hands every pending document on to BDA. -/
theorem not_ends_runTextractPipeline {c t : String} {bytes : Bytes} {b : Option String}
    (hw : MapsAre false (w.record k)) (hpending : ¬ (w.record k).Classified) :
    ¬ Ends steady w (runTextractPipeline env k c bytes t b) tr (.ok true) w' := by
  intro h
  obtain ⟨extracted, w₁, tr₁, tr₂, h₁, h₂, rfl⟩ := Effect.ends_bind_ok h
  cases extracted with
  | none => cases (ends_ret_iff.1 h₂).2.1
  | some result =>
    obtain ⟨p, w₂, tr₃, tr₄, h₃, h₄, rfl⟩ := Effect.ends_bind_ok h₂
    obtain ⟨_, w₃, tr₅, tr₆, h₅, _, rfl⟩ := Effect.ends_bind_ok h₄
    have hmarks : ∀ a, a ∉ [DocumentMetadata.extractionStartedAt, .extractionMethod] →
        w₁.record k a = w.record k a := fun _ ha =>
      steps_marks marks_extractTextractIdentity h₁.of_limit ha
    have hspec : Spec (fun (op : Op) => op.isElsewhere = true) (fun p => p.objectKey = k)
        (processTextractResult env k result (some t) b) := elsewhere_processTextractResult result
    have hrec := record_congr (steps_docs hspec.all h₃.of_limit) k
    have hw₂ : MapsAre false (w₂.record k) := fun a ha => by
      have hne : ∀ a ∈ methodAttrs,
        a ∉ [DocumentMetadata.extractionStartedAt, .extractionMethod] := by decide
      rw [hrec, hmarks a (hne a ha), hw a ha]
    have hpending₂ : ¬ (w₂.record k).Classified := by
      have hstatus : (w₂.record k).status = (w.record k).status := by
        rw [Record.status, hrec, hmarks _ (by decide)]
      rw [Record.Classified, hstatus]
      exact hpending
    have hkey := Effect.ends_of_spec hspec h₃
    rw [hkey] at h₅
    rcases ends_tryCatch_iff.1 h₅ with ⟨_, _, hok⟩ | ⟨e, w₄, tr₇, tr₈, _, hraise, _⟩
    · exact not_ends_classifyExtractionResult hw₂ hpending₂ hok
    · cases (ends_raise_iff.1 hraise).2.1

/-- A pending document is kept from BDA exactly when its record has the maps. -/
theorem ends_invokeTextractIfIdentityPath_iff {c handled : Bool} {d : Dispatch}
    (hw : MapsAre c (w.record d.doc.ddbKey)) (hpending : ¬ (w.record d.doc.ddbKey).Classified)
    (h : Ends steady w (invokeTextractIfIdentityPath env d) tr (.ok handled) w')
    (hstop : handled = false → Rejected tr) : handled = true ↔ c = true := by
  constructor
  · rintro rfl
    cases c with
    | true => rfl
    | false =>
      unfold invokeTextractIfIdentityPath at h
      split at h
      · cases (ends_ret_iff.1 h).2.1
      · rcases ends_tryCatch_iff.1 h with ⟨_, hr, hok⟩ | ⟨e, w₁, tr₁, tr₂, _, hret, _⟩
        · cases hr
          exact absurd hok (not_ends_runTextractPipeline hw hpending)
        · cases (ends_ret_iff.1 hret).2.1
  · rintro rfl
    cases handled with
    | true => rfl
    | false =>
      exact absurd (hstop rfl) (steps_applicable (applicable_invokeTextractIfIdentityPath d) h
        fun _ => hw)

end

/-- **Terminal writes and the records of an upload.** When nothing but a rejected request stops it,
the whole write succeeds exactly when the record is one of a compare run, the write names no
method, or it is skipped because the record is classified; and a pending document that Textract
has taken is kept from BDA exactly in a compare run. -/
theorem terminal_write_applies_iff {c : Bool} {record : Record} (hmade : Made c record) :
    (∀ (env : EnvConfig) (w w' : World) (u : UpdateDdbRecord) (b : Option String)
      (result : Option ExtractionResult) (m : Option ExtractMethod) (tr : List (Event sig))
      (r : Except Exc Unit), w.record u.objectKey = record →
        Ends steady w (writeTerminalStatus env u b result m) tr r w' →
        (∀ e, r = .error e → Rejected tr) → (r = .ok () ↔ WritesApply c m record)) ∧
    ∀ (env : EnvConfig) (w w' : World) (d : Dispatch) (tr : List (Event sig)) (handled : Bool),
      w.record d.doc.ddbKey = record → ¬ record.Classified →
        Ends steady w (invokeTextractIfIdentityPath env d) tr (.ok handled) w' →
        (handled = false → Rejected tr) → (handled = true ↔ c = true) := by
  constructor
  · rintro env w w' u b result m tr r rfl h hstop
    exact ends_writeTerminalStatus_ok_iff hmade.maps h hstop
  · rintro env w w' d tr handled rfl hpending h hstop
    exact ends_invokeTextractIfIdentityPath_iff hmade.maps hpending h hstop

/-! ## A driver's license, uploaded and compared -/

def licenseUpload (compare : Bool) : DocumentRecord :=
  { ddbKey := "license.png"
    originalFileName := "license.png"
    jobId := "9"
    systemDocumentId := "9"
    uploadMethod := .direct
    tenantId := "acme"
    apiKeyName := "intake"
    contentType := some "image/png"
    isCompare := compare }

def licenseRecord (compare : Bool) : Record :=
  (upsertActions 5 (minimalRecord (licenseUpload compare))).foldl
    (Dynamo.Action.write (T := DocumentMetadata.schema) fun _ => none) fun _ => none

theorem made_license (compare : Bool) : Made compare (licenseRecord compare) := by
  obtain ⟨new, h⟩ := apply_of_noPath
    (u := upsertRequest 5 (minimalRecord (licenseUpload compare))) (noPath_upsertActions 5 _)
    (fun _ => none) rfl
  have hnew : new = licenseRecord compare := (Dynamo.Update.apply_eq_ok h).2.2
  exact hnew ▸ Made.insert h

def licenseWorld (compare : Bool) : World :=
  World.setRecord {} "license.png" (licenseRecord compare)

theorem record_licenseWorld (compare : Bool) :
    (licenseWorld compare).record "license.png" = licenseRecord compare := record_setRecord_self ..

def licenseDispatch : Dispatch :=
  { doc :=
      { bucketName := "in"
        objectKey := "acme/license.png"
        ddbKey := "license.png"
        originalFileName := "license.png"
        contentType := "image/png"
        fileBytes := ascii "x"
        category := none
        jobId := some "9"
        traceId := none
        batchId := none
        processorStartedAt := 8
        isColdStart := false }
    record := licenseRecord false
    pre := some { bboxFuture := none, isIdentityDocument := true }
    bbox := none
    tenantId := "acme"
    grayscale := false }

def storeEnv : EnvConfig := { licenseEnv with documentaiOutputLocation := some "s3://out" }

def noDocument : UpdateDdbRecord := { objectKey := "license.png", status := .noDocumentDetected }

def isRejection : Event sig → Bool
  | ⟨.updateItem .., .error e⟩ => e == .clientError .validationException
  | _ => false

theorem rejected_of_any {tr : List (Event sig)} (h : tr.any isRejection = true) :
    Rejected tr := by
  obtain ⟨ev, hev, hr⟩ := List.any_eq_true.1 h
  unfold isRejection at hr
  split at hr
  next k u e =>
    obtain rfl := eq_of_beq hr
    exact ⟨k, u, hev⟩
  next => cases hr

/-- How a run ends, whether a request was rejected, and the status it leaves. -/
def outcome {α : Type} (p : Prog α) (w : World) (n : Nat) :
    Option (Option (Except Exc α) × Bool × Option ProcessStatus) :=
  (Effect.follow steady w p (List.replicate n { ai := licenseAnswers, now := 10 })).map
    fun (tr, q, w') => (q.result, tr.any isRejection, (w'.record "license.png").status)

theorem ends_of_outcome {α : Type} {p : Prog α} {w : World} {n : Nat} {r : Except Exc α}
    {rejected : Bool} {s : Option ProcessStatus} (h : outcome p w n = some (some r, rejected, s)) :
    ∃ tr w', Ends steady w p tr r w' ∧ tr.any isRejection = rejected ∧
      (w'.record "license.png").status = s := by
  obtain ⟨⟨tr, q, w'⟩, hf, he⟩ := Option.map_eq_some_iff.1 h
  obtain ⟨hq, hr, hs⟩ : q.result = some r ∧ tr.any isRejection = rejected ∧
      (w'.record "license.png").status = s := by simpa using he
  have hsteps := Effect.steps_of_follow hf
  rw [Effect.Prog.eq_ofExcept hq] at hsteps
  exact ⟨tr, w', hsteps, hr, hs⟩

theorem pending_license (compare : Bool) : ¬ (licenseRecord compare).Classified := by
  cases compare <;> decide +kernel

theorem terminal_write_applies_iff_license :
    (∃ tr r w', Ends steady (licenseWorld false)
        (writeTerminalStatus storeEnv noDocument none none (some .bda)) tr r w' ∧ r ≠ .ok ()) ∧
    ∃ tr handled w', Ends steady (licenseWorld true)
        (invokeTextractIfIdentityPath storeEnv licenseDispatch) tr (.ok handled) w' ∧
      handled = true := by
  constructor
  · have hrun : outcome (writeTerminalStatus storeEnv noDocument none none (some .bda))
        (licenseWorld false) 7 = some (some (.error (.clientError .validationException)), true,
          some .noDocumentDetected) := by decide +kernel
    obtain ⟨tr, w', h, hr, _⟩ := ends_of_outcome hrun
    have hiff := (terminal_write_applies_iff (made_license false)).1 _ _ _ _ _ _ _ _ _
      (record_licenseWorld false) h fun _ _ => rejected_of_any hr
    refine ⟨tr, _, w', h, fun hok => ?_⟩
    rcases hiff.1 hok with hc | hm | ⟨_, hclassified⟩
    · cases hc
    · cases hm
    · exact pending_license false hclassified
  · have hrun : outcome (invokeTextractIfIdentityPath storeEnv licenseDispatch) (licenseWorld true)
        26 = some (some (.ok true), false, some .success) := by decide +kernel
    obtain ⟨tr, w', h, _, _⟩ := ends_of_outcome hrun
    have hiff := (terminal_write_applies_iff (made_license true)).2 _ _ _ _ _ _
      (record_licenseWorld true) (pending_license true) h fun he => by cases he
    exact ⟨tr, true, w', h, hiff.2 rfl⟩

/-- An ordinary upload: the license is `SUCCESS`, and goes on to BDA. -/
theorem license_goes_on_to_bda :
    ¬ ∀ (c : Bool) (record : Record), Made c record →
      (∀ (env : EnvConfig) (w w' : World) (u : UpdateDdbRecord) (b : Option String)
        (result : Option ExtractionResult) (m : Option ExtractMethod) (tr : List (Event sig))
        (r : Except Exc Unit), w.record u.objectKey = record →
          Ends steady w (writeTerminalStatus env u b result m) tr r w' →
          (∀ e, r = .error e → Rejected tr) → r = .ok ()) ∧
      ∀ (env : EnvConfig) (w w' : World) (d : Dispatch) (tr : List (Event sig)) (handled : Bool),
        w.record d.doc.ddbKey = record → ¬ record.Classified →
          Ends steady w (invokeTextractIfIdentityPath env d) tr (.ok handled) w' →
          (w'.record d.doc.ddbKey).status = some .success → ¬ (handled = false ∧ Rejected tr) := by
  intro hall
  have hrun : outcome (invokeTextractIfIdentityPath storeEnv licenseDispatch) (licenseWorld false)
      25 = some (some (.ok false), true, some .success) := by decide +kernel
  obtain ⟨tr, w', h, hr, hs⟩ := ends_of_outcome hrun
  exact (hall false _ (made_license false)).2 _ _ _ _ _ _ (record_licenseWorld false)
    (pending_license false) h hs ⟨rfl, rejected_of_any hr⟩

end DocumentAi
