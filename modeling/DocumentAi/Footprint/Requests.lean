import DocumentAi.Footprint.Documents

/-!
# What the requests on the table write

The status, the batch and the response that each kind of request writes, and the attributes it
leaves alone.

| here | meaning |
| --- | --- |
| `statusWrite u`, `batchWrite u`, `responseWrite u` | the value `u` sets, if any |
| `PlainWrite u` | `u` touches these three attributes by plain `SET`s only |
| `Writes u s b r` | `u` is plain and sets exactly these values |
| `writes_…`     | one lemma for each kind of request |
-/

namespace DocumentAi

open Dynamo (Targets targets_append targets_cons targets_nil SetsOnly lastSet lastSet_eq_none)

/-- The status a request sets. -/
def statusWrite (u : DocUpdate) : Option ProcessStatus :=
  lastSet (T := DocumentMetadata.schema) .processStatus u.actions

/-- The batch id a request sets. -/
def batchWrite (u : DocUpdate) : Option String :=
  lastSet (T := DocumentMetadata.schema) .batchId u.actions

/-- The stored response a request sets. -/
def responseWrite (u : DocUpdate) : Option V1ApiResponse :=
  lastSet (T := DocumentMetadata.schema) .v1ApiResponseJson u.actions

/-- The record and the status of a request that writes a status without a condition. -/
def unconditionalWrite : Op → Option (String × ProcessStatus)
  | .updateItem k u => if u.cond.isNone then (statusWrite u).map fun s => (k, s) else none
  | _ => none

theorem unconditionalWrite_eq_some {op : Op} {k : String} {s : ProcessStatus} :
    unconditionalWrite op = some (k, s) ↔
      ∃ u, op = .updateItem k u ∧ u.cond = none ∧ statusWrite u = some s := by
  cases op with
  | updateItem j u =>
    simp only [unconditionalWrite, Option.ite_none_right_eq_some, Option.isNone_iff_eq_none,
      Option.map_eq_some_iff, Prod.mk.injEq, Op.updateItem.injEq]
    constructor
    · rintro ⟨hc, s', hs, rfl, rfl⟩; exact ⟨u, ⟨rfl, rfl⟩, hc, hs⟩
    · rintro ⟨v, ⟨rfl, rfl⟩, hc, hs⟩; exact ⟨hc, s, hs, rfl, rfl⟩
  | _ => simp [unconditionalWrite]

/-- Not the status, the batch or the stored response. -/
abbrev Beside (a : DocumentMetadata) : Prop :=
  a ∉ [DocumentMetadata.processStatus, .batchId, .v1ApiResponseJson]

abbrev TargetsBeside (xs : List Action) : Prop := Targets (T := DocumentMetadata.schema) Beside xs

/-- Every action is a plain `SET` or on another attribute. -/
def PlainActions (xs : List Action) : Prop :=
  ∀ x ∈ xs, (∃ (a : DocumentMetadata) (v : a.Val), x = .set a v) ∨ Beside x.target

abbrev PlainWrite (u : DocUpdate) : Prop := PlainActions u.actions

structure Writes (u : DocUpdate) (s : Option ProcessStatus) (b : Option String)
    (r : Option V1ApiResponse) : Prop where
  plain    : PlainWrite u
  status   : statusWrite u = s
  batch    : batchWrite u = b
  response : responseWrite u = r

section
variable {xs ys : List Action} {a b : DocumentMetadata}

theorem PlainActions.setsOnly (h : PlainActions xs) (ha : ¬ Beside a) :
    SetsOnly (T := DocumentMetadata.schema) a xs := by
  intro x hx e
  rcases h x hx with ⟨b, v, rfl⟩ | hb
  · change b = a at e
    subst e
    simp
  · exact absurd (e ▸ hb) ha

theorem plain_append (hx : PlainActions xs) (hy : PlainActions ys) : PlainActions (xs ++ ys) :=
  fun x hm => (List.mem_append.1 hm).elim (hx x) (hy x)

theorem plain_set {v : a.Val} (h : PlainActions xs) : PlainActions (.set a v :: xs) :=
  List.forall_mem_cons.2 ⟨.inl ⟨a, v, rfl⟩, h⟩

theorem plain_setOpt (v : Option a.Val) : PlainActions (setOpt a v) := by
  cases v with
  | none => intro x hx; cases hx
  | some v => exact plain_set fun x hx => by cases hx

theorem TargetsBeside.plain (h : TargetsBeside xs) : PlainActions xs := fun x hx => .inr (h x hx)

theorem TargetsBeside.ne (h : TargetsBeside xs) (ha : ¬ Beside a) :
    Targets (T := DocumentMetadata.schema) (· ≠ a) xs := h.mono fun _ hb e => ha (e ▸ hb)

theorem targets_set {P : DocumentMetadata → Prop} {v : a.Val} (ha : P a)
    (hx : Targets (T := DocumentMetadata.schema) P xs) :
    Targets (T := DocumentMetadata.schema) P (.set a v :: xs) := targets_cons.2 ⟨ha, hx⟩

theorem targets_setIfNotExists {P : DocumentMetadata → Prop} {v : a.Val} (ha : P a)
    (hx : Targets (T := DocumentMetadata.schema) P xs) :
    Targets (T := DocumentMetadata.schema) P (.setIfNotExists a v :: xs) := targets_cons.2 ⟨ha, hx⟩

theorem lastSet_peel (h : Targets (T := DocumentMetadata.schema) (· ≠ a) ys) :
    lastSet (T := DocumentMetadata.schema) a (xs ++ ys) =
      lastSet (T := DocumentMetadata.schema) a xs := by
  rw [Dynamo.lastSet_append (T := DocumentMetadata.schema), lastSet_eq_none h, Option.none_or]

theorem lastSet_peel_setOpt {v : Option a.Val}
    (h : Targets (T := DocumentMetadata.schema) (· ≠ a) xs) :
    lastSet (T := DocumentMetadata.schema) a (xs ++ setOpt a v) = v := by
  rw [Dynamo.lastSet_append (T := DocumentMetadata.schema), lastSet_eq_none h]
  cases v <;> simp [setOpt, lastSet]

end

/-! ## What a plain request does to a record -/

section
variable {u : DocUpdate} {old new : Record} {s : Option ProcessStatus} {b : Option String}
  {r : Option V1ApiResponse} (hu : Writes u s b r) (h : u.apply old = .ok new)
include hu h

theorem Writes.status_eq : new.status = s.or old.status :=
  hu.status ▸ Dynamo.Update.apply_setsOnly h (hu.plain.setsOnly (by decide))

theorem Writes.batch_eq : new.batchId = b.or old.batchId :=
  hu.batch ▸ Dynamo.Update.apply_setsOnly h (hu.plain.setsOnly (by decide))

end

theorem writes_of_beside {u : DocUpdate} (h : TargetsBeside u.actions) :
    Writes u none none none :=
  ⟨h.plain, lastSet_eq_none (h.ne (by decide)), lastSet_eq_none (h.ne (by decide)),
    lastSet_eq_none (h.ne (by decide))⟩

/-- A request that sets the status first and touches none of the three attributes after it. -/
theorem writes_of_status {u : DocUpdate} {s : ProcessStatus} {rest : List Action}
    (hu : u.actions = .set .processStatus s :: rest) (h : TargetsBeside rest) :
    Writes u (some s) none none := by
  refine ⟨?_, ?_, lastSet_eq_none ?_, lastSet_eq_none ?_⟩
  · show PlainActions u.actions
    exact hu ▸ plain_set h.plain
  · rw [statusWrite, hu]
    exact Dynamo.lastSet_cons_set (h.ne (by decide))
  all_goals exact hu ▸ targets_set (by decide) (h.ne (by decide))

/-! ## `update_ddb` -/

/-- What only an upsert or a response writes. -/
def keptAttrs : List DocumentMetadata :=
  .v1ApiResponseJson :: .apiResponsesByMethod :: .durationsByMethod :: identityAttrs

/-- What `update_ddb` writes besides the status. -/
abbrev BesideKept (a : DocumentMetadata) : Prop := a ∉ .processStatus :: keptAttrs

theorem beside_of_kept {a : DocumentMetadata} (h : BesideKept a) : Beside a := by
  intro hb
  refine h ?_
  simp only [List.mem_cons, List.not_mem_nil, or_false] at hb
  rcases hb with rfl | rfl | rfl <;> decide

abbrev TargetsKept (xs : List Action) : Prop := Targets (T := DocumentMetadata.schema) BesideKept xs

theorem kept_classificationActions (env : EnvConfig) (d : ClassificationData) :
    TargetsKept (classificationActions env d) := by
  unfold classificationActions
  refine targets_append.2 ⟨targets_append.2 ⟨?_, ?_⟩, targets_setOpt (by decide) _⟩
  · repeat refine targets_append.2 ⟨?_, targets_setOpt (by decide) _⟩
    exact targets_setOpt (by decide) _
  · exact targets_set (by decide) (targets_set (by decide) targets_nil)

/-- The status comes first; nothing after it is kept for upserts and responses. -/
theorem buildUpdateExpression_eq (env : EnvConfig) (now : Timestamp) (u : UpdateDdbRecord) :
    ∃ rest, buildUpdateExpression env now u = .set .processStatus u.status :: rest ∧
      TargetsKept rest := by
  refine ⟨_, rfl, targets_set (by decide) ?_⟩
  change Targets _ (_ ++ _)
  repeat refine targets_append.2 ⟨?_, targets_setOpt (by decide) _⟩
  refine targets_append.2 ⟨targets_append.2 ⟨?_, targets_setOpt (by decide) _⟩,
    targets_ite (targets_set (by decide) targets_nil) targets_nil⟩
  refine targets_append.2 ⟨targets_append.2 ⟨?_, targets_setOpt (by decide) _⟩,
    targets_ite (targets_set (by decide) targets_nil) targets_nil⟩
  refine targets_append.2 ⟨targets_append.2 ⟨?_, ?_⟩, ?_⟩
  · cases u.data with
    | none => exact targets_nil
    | some d => exact kept_classificationActions env d
  · split
    · exact targets_set (by decide) (targets_set (by decide) targets_nil)
    · exact targets_nil
  · split
    · exact targets_set (by decide) (targets_set (by decide) (targets_set (by decide)
        (targets_set (by decide) targets_nil)))
    · exact targets_nil

theorem kept_of_timing {a : DocumentMetadata} (h : isTimingAttr a) : BesideKept a := by
  simp only [isTimingAttr, List.mem_cons, List.not_mem_nil, or_false] at h
  rcases h with rfl | rfl | rfl | rfl | rfl | rfl <;> decide

section
variable {env : EnvConfig} {now : Timestamp} {data : UpdateDdbRecord} {timing : List Action}
  {c : Option Cond} (ht : TimingActions timing)
include ht

variable (env now data c) in
theorem updateRequest_eq : ∃ rest, (updateRequest env now data timing c).actions =
    .set .processStatus data.status :: rest ∧ TargetsKept rest := by
  obtain ⟨rest, hrest, hr⟩ := buildUpdateExpression_eq env now data
  refine ⟨rest ++ timing, ?_, targets_append.2 ⟨hr, ht.targets.mono fun _ => kept_of_timing⟩⟩
  simp only [updateRequest, hrest, List.cons_append]

theorem writes_updateRequest :
    Writes (updateRequest env now data timing c) (some data.status) none none := by
  obtain ⟨rest, hrest, hr⟩ := updateRequest_eq env now data c ht
  exact writes_of_status hrest (hr.mono fun _ => beside_of_kept)

/-- `update_ddb` keeps what only upserts and responses write. -/
theorem targets_updateRequest {a : DocumentMetadata} (ha : a ∈ keptAttrs) :
    Targets (T := DocumentMetadata.schema) (· ≠ a) (updateRequest env now data timing c).actions := by
  obtain ⟨rest, hrest, hr⟩ := updateRequest_eq env now data c ht
  rw [hrest]
  refine targets_set ?_ (hr.mono fun b hb e => hb (e ▸ List.mem_cons_of_mem _ ha))
  rintro rfl
  revert ha
  decide

theorem updateRequest_frame {old new : Record} {a : DocumentMetadata} (ha : a ∈ keptAttrs)
    (h : (updateRequest env now data timing c).apply old = .ok new) : new a = old a :=
  Dynamo.Update.apply_frame h (targets_updateRequest ht ha)

end

/-! ## `upsert_ddb` -/

/-- What the head of an upsert sets, or nothing of it does. -/
def headAttrs : List DocumentMetadata :=
  [.processStatus, .v1ApiResponseJson, .responseCode, .aiConsentFlag, .createdAt, .ttl,
    .originalFileName]

/-- What an upsert writes for an upload route only. -/
def routeAttrs : List DocumentMetadata :=
  [.tenantId, .apiKeyName, .uploadMethod, .isDemo, .isTestRun, .isCompare]

abbrev BesideHead (a : DocumentMetadata) : Prop := a ∉ headAttrs

/-- Neither of these, nor the batch. -/
abbrev BesideFields (a : DocumentMetadata) : Prop := a ∉ .batchId :: headAttrs

theorem beside_of_fields {a : DocumentMetadata} (h : BesideFields a) : Beside a := by
  intro hb
  refine h ?_
  simp only [List.mem_cons, List.not_mem_nil, or_false] at hb
  rcases hb with rfl | rfl | rfl <;> decide

abbrev TargetsFields (xs : List Action) : Prop :=
  Targets (T := DocumentMetadata.schema) BesideFields xs

theorem TargetsFields.beside {xs : List Action} (h : TargetsFields xs) : TargetsBeside xs :=
  h.mono fun _ => beside_of_fields

theorem TargetsFields.head {xs : List Action} (h : TargetsFields xs) :
    Targets (T := DocumentMetadata.schema) BesideHead xs :=
  h.mono fun _ hf hh => hf (List.mem_cons_of_mem _ hh)

/-- Every action on `a` is an `if_not_exists`. -/
def SetsOnce (a : DocumentMetadata) (xs : List Action) : Prop :=
  ∀ x ∈ xs, x.target = a → ∃ v : a.Val, x = .setIfNotExists a v

section
variable {a b : DocumentMetadata} {xs ys : List Action}

theorem setsOnce_append (hx : SetsOnce a xs) (hy : SetsOnce a ys) : SetsOnce a (xs ++ ys) :=
  fun x hm => (List.mem_append.1 hm).elim (hx x) (hy x)

theorem setsOnce_of_targets (h : Targets (T := DocumentMetadata.schema) (· ≠ a) xs) :
    SetsOnce a xs := fun x hx e => absurd e (h x hx)

theorem setsOnce_set {v : b.Val} (hb : b ≠ a) (h : SetsOnce a xs) : SetsOnce a (.set b v :: xs) :=
  List.forall_mem_cons.2 ⟨fun e => absurd e hb, h⟩

theorem setsOnce_setIfNotExists {v : b.Val} (h : SetsOnce a xs) :
    SetsOnce a (.setIfNotExists b v :: xs) := by
  refine List.forall_mem_cons.2 ⟨fun e => ?_, h⟩
  change b = a at e
  subst e
  exact ⟨v, rfl⟩

end

section
variable (d : InitialDdbRecord)

theorem plain_initialFieldActions : PlainActions (initialFieldActions d) := by
  unfold initialFieldActions
  repeat refine plain_append ?_ (plain_setOpt _)
  exact plain_setOpt _

theorem targets_initialFieldActions :
    Targets (T := DocumentMetadata.schema) (· ∉ .tokensByModel :: headAttrs)
      (initialFieldActions d) := by
  unfold initialFieldActions
  repeat refine targets_append.2 ⟨?_, targets_setOpt (by decide) _⟩
  exact targets_setOpt (by decide) _

theorem ne_initialFieldActions {a : DocumentMetadata} (h : a ∈ .tokensByModel :: headAttrs) :
    Targets (T := DocumentMetadata.schema) (· ≠ a) (initialFieldActions d) :=
  (targets_initialFieldActions d).mono fun _ hb e => hb (e ▸ h)

theorem lastSet_initialFieldActions :
    lastSet (T := DocumentMetadata.schema) .batchId (initialFieldActions d) = d.batchId := by
  unfold initialFieldActions
  repeat refine (lastSet_peel (targets_setOpt (by decide) _)).trans ?_
  refine lastSet_peel_setOpt ?_
  repeat refine targets_append.2 ⟨?_, targets_setOpt (by decide) _⟩
  exact targets_setOpt (by decide) _

theorem targets_preClassificationActions (p : Option PreClassificationDdbFields) :
    Targets (T := DocumentMetadata.schema)
      (· ∉ .batchId :: .tokensByModel :: headAttrs ++ routeAttrs)
      ((p.map preClassificationActions).getD []) := by
  cases p with
  | none => exact targets_nil
  | some p =>
    change Targets _ (preClassificationActions p)
    unfold preClassificationActions
    repeat refine targets_append.2 ⟨?_, targets_setOpt (by decide) _⟩
    exact targets_setOpt (by decide) _

/-- The fields an upsert sets before the annotated ones. -/
def upsertHead (now : Timestamp) : List Action :=
  [.set .originalFileName d.originalFileName,
    .set .originalFileNameLower d.originalFileName.toLower,
    .set .processStatus d.processStatus,
    .setIfNotExists .createdAt now,
    .set .updatedAt now,
    .set .isPasswordProtected d.isPasswordProtected,
    .set .isDocumentBlurry d.isDocumentBlurry,
    .set .blurAnalysisFailed d.blurAnalysisFailed,
    .set .wasBlurLlmInvoked d.blurLlmChecked,
    .setIfNotExists .aiConsentFlag d.aiConsentFlag,
    .setIfNotExists .ttl (getTtlEpochInDays now ((d.ttlDays.filter (· ≠ 0)).getD 180))]

def headTargets : List DocumentMetadata :=
  [.originalFileName, .originalFileNameLower, .processStatus, .createdAt, .updatedAt,
    .isPasswordProtected, .isDocumentBlurry, .blurAnalysisFailed, .wasBlurLlmInvoked,
    .aiConsentFlag, .ttl]

theorem map_target_upsertHead (now : Timestamp) :
    (upsertHead d now).map Dynamo.Action.target = headTargets := rfl

/-- Its optional fields between the head and the annotated ones. -/
def upsertMaps : List Action :=
  setOpt .userProvidedDocumentCategory (truthy d.userProvidedDocumentCategory)
    ++ (if d.isCompare = some true then
          [.setIfNotExists .apiResponsesByMethod [], .setIfNotExists .durationsByMethod []]
        else [])
    ++ [.setIfNotExists .tokensByModel []]

/-- Its fields after the annotated ones. -/
def upsertEnd : List Action :=
  setOpt .responseJson d.internalApiResponse
    ++ (d.preClassification.map preClassificationActions).getD []

theorem fields_upsertMaps : TargetsFields (upsertMaps d) :=
  targets_append.2 ⟨targets_append.2 ⟨targets_setOpt (by decide) _, targets_ite
    (targets_setIfNotExists (by decide) (targets_setIfNotExists (by decide) targets_nil))
    targets_nil⟩, targets_setIfNotExists (by decide) targets_nil⟩

theorem targets_upsertEnd : Targets (T := DocumentMetadata.schema)
    (· ∉ .batchId :: .tokensByModel :: headAttrs ++ routeAttrs) (upsertEnd d) :=
  targets_append.2 ⟨targets_setOpt (by decide) _, targets_preClassificationActions _⟩

theorem fields_upsertEnd : TargetsFields (upsertEnd d) :=
  (targets_upsertEnd d).mono fun _ h hm => h (by
    rcases List.mem_cons.1 hm with rfl | hm
    · exact List.mem_cons_self
    · exact List.mem_append_left _ (List.mem_cons_of_mem _ (List.mem_cons_of_mem _ hm)))

theorem plain_upsertHead (now : Timestamp) : PlainActions (upsertHead d now) := by
  unfold upsertHead
  refine plain_set (plain_set (plain_set (List.forall_mem_cons.2 ⟨.inr ?_, ?_⟩)))
  · show Beside .createdAt
    decide
  · refine plain_set (plain_set (plain_set (plain_set (plain_set (TargetsBeside.plain ?_)))))
    exact targets_setIfNotExists (by decide) (targets_setIfNotExists (by decide) targets_nil)

variable (now : Timestamp)

theorem upsertActions_eq : upsertActions now d =
    upsertHead d now ++ upsertMaps d ++ initialFieldActions d ++ upsertEnd d := by
  simp only [upsertActions, upsertMaps, upsertEnd, List.append_assoc]
  rfl

theorem upsertActions_split : upsertActions now d =
    upsertHead d now ++ (upsertMaps d ++ initialFieldActions d ++ upsertEnd d) := by
  simp only [upsertActions_eq, List.append_assoc]

/-- What follows the head touches nothing that belongs to it. -/
theorem ne_upsertRest {a : DocumentMetadata} (h : ¬ BesideHead a) :
    Targets (T := DocumentMetadata.schema) (· ≠ a)
      (upsertMaps d ++ initialFieldActions d ++ upsertEnd d) :=
  targets_append.2 ⟨targets_append.2 ⟨(fields_upsertMaps d).head.mono fun _ hb e => h (e ▸ hb),
    ne_initialFieldActions d (List.mem_cons_of_mem _ (not_not.1 h))⟩,
    (fields_upsertEnd d).head.mono fun _ hb e => h (e ▸ hb)⟩

theorem lastSet_upsertActions {a : DocumentMetadata} (h : ¬ Beside a) :
    lastSet (T := DocumentMetadata.schema) a (upsertActions now d) =
      (lastSet (T := DocumentMetadata.schema) a (initialFieldActions d)).or
        (lastSet (T := DocumentMetadata.schema) a (upsertHead d now)) := by
  rw [upsertActions_eq, lastSet_peel ((fields_upsertEnd d).beside.ne h),
    Dynamo.lastSet_append (T := DocumentMetadata.schema),
    lastSet_peel ((fields_upsertMaps d).beside.ne h)]

theorem writes_upsertRequest :
    Writes (upsertRequest now d) (some d.processStatus) d.batchId none := by
  refine ⟨?_, ?_, ?_, ?_⟩
  · show PlainActions (upsertActions now d)
    rw [upsertActions_eq]
    exact plain_append (plain_append (plain_append (plain_upsertHead d now)
      (fields_upsertMaps d).beside.plain) (plain_initialFieldActions d))
      (fields_upsertEnd d).beside.plain
  · refine (lastSet_upsertActions d now (by decide)).trans ?_
    rw [lastSet_eq_none (ne_initialFieldActions d (by decide))]
    rfl
  · refine (lastSet_upsertActions d now (by decide)).trans ?_
    rw [lastSet_initialFieldActions]
    exact Option.or_none
  · refine (lastSet_upsertActions d now (by decide)).trans ?_
    rw [lastSet_eq_none (ne_initialFieldActions d (by decide))]
    rfl

end

/-- What the first upsert writes once and for all. -/
def onceAttrs : List DocumentMetadata := [.createdAt, .ttl, .aiConsentFlag, .tokensByModel]

section
variable {now : Timestamp} {d : InitialDdbRecord} {old new : Record} {a : DocumentMetadata}

theorem setsOnce_upsertHead (ha : a ∈ onceAttrs) : SetsOnce a (upsertHead d now) := by
  unfold upsertHead
  simp only [onceAttrs, List.mem_cons, List.not_mem_nil, or_false] at ha
  rcases ha with rfl | rfl | rfl | rfl <;>
    refine setsOnce_set (by decide) (setsOnce_set (by decide) (setsOnce_set (by decide)
      (setsOnce_setIfNotExists (setsOnce_set (by decide) (setsOnce_set (by decide)
        (setsOnce_set (by decide) (setsOnce_set (by decide) (setsOnce_set (by decide)
          (setsOnce_setIfNotExists (setsOnce_setIfNotExists ?_)))))))))) <;>
    exact setsOnce_of_targets targets_nil

theorem setsOnce_upsertMaps (ha : a ≠ .userProvidedDocumentCategory) :
    SetsOnce a (upsertMaps d) := by
  have hnil : SetsOnce a [] := setsOnce_of_targets targets_nil
  refine setsOnce_append (setsOnce_append (setsOnce_of_targets (targets_ne_setOpt ha.symm _)) ?_)
    (setsOnce_setIfNotExists hnil)
  split
  · exact setsOnce_setIfNotExists (setsOnce_setIfNotExists hnil)
  · exact hnil

theorem setsOnce_upsertActions (ha : a ∈ onceAttrs) : SetsOnce a (upsertActions now d) := by
  have hmem : a ∈ .tokensByModel :: headAttrs := by
    revert ha
    revert a
    decide
  rw [upsertActions_eq]
  refine setsOnce_append (setsOnce_append (setsOnce_append (setsOnce_upsertHead ha)
    (setsOnce_upsertMaps ?_)) ?_) ?_
  · rintro rfl
    revert ha
    decide
  · exact setsOnce_of_targets (ne_initialFieldActions d hmem)
  · exact setsOnce_of_targets ((targets_upsertEnd d).mono
      fun _ hb e => hb (e ▸ List.mem_append_left _ (List.mem_cons_of_mem _ hmem)))

/-- These attributes are written by the first upsert only. -/
theorem upsertRequest_once {v : a.Val} (ha : a ∈ onceAttrs)
    (h : (upsertRequest now d).apply old = .ok new) (ho : old a = some v) : new a = some v :=
  Dynamo.Update.apply_once h ho (setsOnce_upsertActions ha)

/-- And are present after every upsert. -/
theorem upsertRequest_isSome (ha : a ∈ onceAttrs)
    (h : (upsertRequest now d).apply old = .ok new) : (new a).isSome = true := by
  have hx : a ∈ (upsertActions now d).map Dynamo.Action.target := by
    have hmem : a ∈ headTargets ∨ a = .tokensByModel := by
      revert ha
      revert a
      decide
    rw [upsertActions_eq]
    simp only [List.map_append, List.mem_append]
    rcases hmem with hmem | rfl
    · exact .inl (.inl (.inl hmem))
    · refine .inl (.inl (.inr ?_))
      simp [upsertMaps, Dynamo.Action.target]
  obtain ⟨x, hm, hx⟩ := List.mem_map.1 hx
  exact hx ▸ Dynamo.Update.apply_target_isSome h hm

/-- An upsert sets no response code. -/
theorem upsertRequest_responseCode (h : (upsertRequest now d).apply old = .ok new) :
    new .responseCode = old .responseCode := by
  refine Dynamo.Update.apply_frame h ?_
  change Targets (T := DocumentMetadata.schema) (· ≠ .responseCode) (upsertActions now d)
  rw [upsertActions_split]
  refine targets_append.2 ⟨Dynamo.targets_ne_iff.2 ?_, ne_upsertRest d (by decide)⟩
  rw [map_target_upsertHead]
  decide

/-- An upsert writes its own file name. -/
theorem upsertRequest_originalFileName (h : (upsertRequest now d).apply old = .ok new) :
    new .originalFileName = some d.originalFileName := by
  have hact : upsertActions now d = .set .originalFileName d.originalFileName ::
      ((upsertHead d now).tail ++ (upsertMaps d ++ initialFieldActions d ++ upsertEnd d)) :=
    upsertActions_split d now
  refine Dynamo.Update.apply_set h ?_ ?_
  · show _ ∈ upsertActions now d
    rw [hact]
    exact List.mem_cons_self
  · change ∀ y ∈ upsertActions now d, _
    rw [hact]
    refine List.forall_mem_cons.2 ⟨fun _ => rfl, fun y hy e => absurd e ?_⟩
    refine targets_append.2 ⟨Dynamo.targets_ne_iff.2 ?_, ne_upsertRest d (by decide)⟩ y hy
    rw [List.map_tail, map_target_upsertHead]
    decide

end

/-! ## The other requests -/

theorem writes_claimRequest (e : ProcessStatus) :
    Writes (claimRequest e) (some .started) none none := writes_of_status rfl targets_nil

theorem writes_markTerminalRequest (now : Timestamp) (s : ProcessStatus) (m : Option String) :
    Writes (markTerminalRequest now s m) (some s) none none :=
  writes_of_status rfl (targets_set (by decide) (targets_setOpt (by decide) _))

theorem writes_deleteRequest (now : Timestamp) (t : DeletionType) :
    Writes (deleteRequest now t) (some .deleted) none none :=
  writes_of_status rfl (targets_set (by decide) (targets_set (by decide) targets_nil))

theorem writes_responseRequest (r : V1ApiResponse) :
    Writes (responseRequest r) none none (some r) := by
  have h : TargetsBeside (setOpt .responseCode r.responseCode) := targets_setOpt (by decide) _
  refine ⟨plain_set h.plain, lastSet_eq_none (targets_set (by decide) (h.ne (by decide))),
    lastSet_eq_none (targets_set (by decide) (h.ne (by decide))), ?_⟩
  exact Dynamo.lastSet_cons_set (h.ne (by decide))

theorem Untracked.beside {xs : List Action} (h : Untracked xs) : TargetsBeside xs := by
  refine h.mono fun a ha hb => ha ?_
  simp only [List.mem_cons, List.not_mem_nil, or_false] at hb
  rcases hb with rfl | rfl | rfl <;> decide

/-! ## Requests that are always legal -/

/-- No action needs a parent map: the request is never a validation error. -/
def NoPath (xs : List Action) : Prop :=
  ∀ old : Record, xs.all (Dynamo.Action.legal (T := DocumentMetadata.schema) old) = true

section
variable {xs ys : List Action} {a : DocumentMetadata}

theorem noPath_nil : NoPath [] := fun _ => rfl

theorem noPath_append (hx : NoPath xs) (hy : NoPath ys) : NoPath (xs ++ ys) := fun old => by
  rw [List.all_append, hx old, hy old]
  rfl

theorem noPath_set {v : a.Val} (h : NoPath xs) : NoPath (.set a v :: xs) := h

theorem noPath_setIfNotExists {v : a.Val} (h : NoPath xs) : NoPath (.setIfNotExists a v :: xs) := h

theorem noPath_setOpt (v : Option a.Val) : NoPath (setOpt a v) := by
  cases v with
  | none => exact noPath_nil
  | some v => exact noPath_set noPath_nil

theorem noPath_ite {c : Prop} [Decidable c] (hx : NoPath xs) (hy : NoPath ys) :
    NoPath (if c then xs else ys) := by
  split
  · exact hx
  · exact hy

/-- The request applies exactly when its condition holds. -/
theorem apply_of_noPath {u : DocUpdate} (h : NoPath u.actions) (old : Record)
    (hc : u.cond.all (Dynamo.Cond.eval (T := DocumentMetadata.schema) old) = true) :
    ∃ new, u.apply old = .ok new := by
  unfold Dynamo.Update.apply
  rw [if_pos hc, if_pos (h old)]
  exact ⟨_, rfl⟩

end

/-! ## Requests of plain `SET`s -/

def Sets (xs : List Action) : Prop :=
  ∀ x ∈ xs, ∃ (a : DocumentMetadata) (v : a.Val), x = .set a v

section
variable {xs ys : List Action} {a : DocumentMetadata}

theorem sets_nil : Sets [] := fun x hx => by cases hx

theorem sets_append (hx : Sets xs) (hy : Sets ys) : Sets (xs ++ ys) :=
  fun x hm => (List.mem_append.1 hm).elim (hx x) (hy x)

theorem sets_set {v : a.Val} (h : Sets xs) : Sets (.set a v :: xs) :=
  List.forall_mem_cons.2 ⟨⟨a, v, rfl⟩, h⟩

theorem sets_setOpt (v : Option a.Val) : Sets (setOpt a v) := by
  cases v with
  | none => exact sets_nil
  | some v => exact sets_set sets_nil

theorem sets_ite {c : Prop} [Decidable c] (hx : Sets xs) (hy : Sets ys) :
    Sets (if c then xs else ys) := by
  split
  · exact hx
  · exact hy

theorem Sets.noPath (h : Sets xs) : NoPath xs := fun old => by
  refine List.all_eq_true.2 fun x hx => ?_
  obtain ⟨b, v, rfl⟩ := h x hx
  rfl

theorem Sets.setsOnly (h : Sets xs) : SetsOnly (T := DocumentMetadata.schema) a xs := by
  intro x hx e
  obtain ⟨b, v, rfl⟩ := h x hx
  change b = a at e
  subst e
  simp

end

theorem sets_classificationActions (env : EnvConfig) (d : ClassificationData) :
    Sets (classificationActions env d) := by
  unfold classificationActions
  refine sets_append (sets_append ?_ (sets_set (sets_set sets_nil))) (sets_setOpt _)
  repeat refine sets_append ?_ (sets_setOpt _)
  exact sets_setOpt _

theorem sets_buildUpdateExpression (env : EnvConfig) (now : Timestamp) (u : UpdateDdbRecord) :
    Sets (buildUpdateExpression env now u) := by
  unfold buildUpdateExpression
  repeat refine sets_append ?_ (sets_setOpt _)
  refine sets_append (sets_append ?_ (sets_setOpt _)) (sets_ite (sets_set sets_nil) sets_nil)
  refine sets_append (sets_append ?_ (sets_setOpt _)) (sets_ite (sets_set sets_nil) sets_nil)
  refine sets_append (sets_append (sets_append (sets_set (sets_set sets_nil)) ?_) ?_) ?_
  · cases u.data with
    | none => exact sets_nil
    | some d => exact sets_classificationActions env d
  · split
    · exact sets_set (sets_set sets_nil)
    · exact sets_nil
  · split
    · exact sets_set (sets_set (sets_set (sets_set sets_nil)))
    · exact sets_nil

theorem sets_updateRequest {env : EnvConfig} {now : Timestamp} {data : UpdateDdbRecord}
    {timing : List Action} {c : Option Cond} (ht : TimingActions timing) :
    Sets (updateRequest env now data timing c).actions := by
  refine sets_append (sets_buildUpdateExpression env now data) fun x hx => ?_
  obtain ⟨a, v, _, rfl⟩ := ht x hx
  exact ⟨a, v, rfl⟩

theorem noPath_upsertActions (now : Timestamp) (d : InitialDdbRecord) :
    NoPath (upsertActions now d) := by
  rw [upsertActions_eq]
  refine noPath_append (noPath_append (noPath_append ?_ ?_) ?_)
    (noPath_append (noPath_setOpt _) ?_)
  · exact fun old => rfl
  · unfold upsertMaps
    exact noPath_append (noPath_append (noPath_setOpt _) (noPath_ite
      (noPath_setIfNotExists (noPath_setIfNotExists noPath_nil)) noPath_nil))
      (noPath_setIfNotExists noPath_nil)
  · unfold initialFieldActions
    repeat refine noPath_append ?_ (noPath_setOpt _)
    exact noPath_setOpt _
  · cases d.preClassification with
    | none => exact noPath_nil
    | some p =>
      change NoPath (preClassificationActions p)
      unfold preClassificationActions
      repeat refine noPath_append ?_ (noPath_setOpt _)
      exact noPath_setOpt _

end DocumentAi
