import Mathlib.Data.List.Dedup
import DocumentAi.Lib.Dict
import DocumentAi.Runs.StoredAnswer

/-!
# Token accounts of a document

`write_tokens_by_model` sets the entry of a model and a reason, whatever it was, and
`sum_token_usage_by_model` takes the text before the first `#` of a composite key for the model.

| here | there |
| --- | --- |
| `recordCalls`          | `write_tokens_by_model` for each of several LLM calls (`utils/ddb.py:489-506`) |
| `sumTokens`, `sumTokenUsageByModel` | `sum_token_usage_by_model` (`:458-473`) |
| `stored`               | the map after some calls |
| `Conserves`            | the total of every model is the sum over its calls |
| `Kept`                 | a call that has tokens names a model without `#`, and no later call has its key |

The map holds the newest call of each key (`stored_eq`), so the totals are sums over these.
-/

namespace DocumentAi

open Effect (Event Ends ends_bind_ok ends_perform_iff ends_ret_iff)

structure LlmCall where
  modelId      : String
  reason       : LlmUsageReason
  inputTokens  : Nat
  outputTokens : Nat

namespace TokenAccount

def recordCalls (objectKey : String) : List LlmCall → Prog Unit
  | []            => pure ()
  | call :: calls => do
    writeTokensByModel objectKey call.modelId call.reason call.inputTokens call.outputTokens
    recordCalls objectKey calls

/-- `composite_key.partition("#")[0]`. -/
def modelOf (compositeKey : String) : String :=
  String.ofList (Chars.partition '#' compositeKey.toList).1

def addEntry (bucket entry : TokenEntry) : TokenEntry :=
  ⟨bucket.inputTokens + entry.inputTokens, bucket.outputTokens + entry.outputTokens⟩

def sumTokens (tokensByModel : List (String × TokenEntry)) : List (String × TokenEntry) :=
  Dict.groupFold (fun e => modelOf e.1) ⟨0, 0⟩ (fun bucket e => addEntry bucket e.2) tokensByModel

def sumTokenUsageByModel (objectKey : String) : Prog (List (String × TokenEntry)) := do
  match ← getDdbRecord objectKey with
  | some record => pure (sumTokens ((record .tokensByModel : Option _).getD []))
  | none        => pure []

/-! ## What should come out -/

def totalOf (totals : List (String × TokenEntry)) (modelId : String) : TokenEntry :=
  (totals.lookup modelId).getD ⟨0, 0⟩

def Conserves (calls : List LlmCall) (totals : List (String × TokenEntry)) : Prop :=
  ∀ modelId, totalOf totals modelId =
    ⟨((calls.filter fun c => c.modelId = modelId).map LlmCall.inputTokens).sum,
      ((calls.filter fun c => c.modelId = modelId).map LlmCall.outputTokens).sum⟩

def Empty (c : LlmCall) : Prop := c.inputTokens = 0 ∧ c.outputTokens = 0

structure Kept (calls : List LlmCall) : Prop where
  /-- A call with tokens is not followed by one of the same model and reason. -/
  once : calls.Pairwise fun c later => c.modelId = later.modelId ∧ c.reason = later.reason → Empty c
  /-- The model of a call with tokens has no separator in its name. -/
  name : ∀ c ∈ calls, '#' ∈ c.modelId.toList → Empty c

/-! ## Keys -/

def keyOf (c : LlmCall) : String := c.modelId ++ "#" ++ c.reason.value

theorem toList_keyOf (c : LlmCall) :
    (keyOf c).toList = c.modelId.toList ++ '#' :: c.reason.value.toList := by
  simp [keyOf]

theorem separator_not_mem_value (reason : LlmUsageReason) : '#' ∉ reason.value.toList := by
  cases reason <;> decide

theorem value_injective {r r' : LlmUsageReason} (h : r.value = r'.value) : r = r' := by
  revert h
  cases r <;> cases r' <;> decide

/-- The reason stands after the last separator, so a key names its model and its reason. -/
theorem keyOf_eq_iff {c d : LlmCall} :
    keyOf c = keyOf d ↔ c.modelId = d.modelId ∧ c.reason = d.reason := by
  constructor
  · intro h
    have hlist := congrArg String.toList h
    rw [toList_keyOf, toList_keyOf] at hlist
    have hreason := congrArg (Chars.lastField '#') hlist
    rw [Chars.lastField_append_cons (separator_not_mem_value _),
      Chars.lastField_append_cons (separator_not_mem_value _)] at hreason
    rw [hreason] at hlist
    exact ⟨String.toList_injective (List.append_cancel_right hlist),
      value_injective (String.toList_injective hreason)⟩
  · rintro ⟨hmodel, hreason⟩
    rw [keyOf, keyOf, hmodel, hreason]

theorem separator_not_mem_modelOf (key : String) : '#' ∉ (modelOf key).toList := by
  rw [modelOf, String.toList_ofList]
  intro hmem
  have h := List.mem_takeWhile_imp hmem
  simp at h

theorem modelOf_keyOf {c : LlmCall} (h : '#' ∉ c.modelId.toList) : modelOf (keyOf c) = c.modelId := by
  have htake : (Chars.partition '#' (keyOf c).toList).1 = c.modelId.toList := by
    rw [toList_keyOf, Chars.partition, List.takeWhile_append_of_pos]
    · simp
    · intro x hx
      exact decide_eq_true fun heq => h (heq ▸ hx)
  rw [modelOf, htake, String.ofList_toList]

/-! ## The map after some calls -/

def entryOf (c : LlmCall) : TokenEntry := ⟨c.inputTokens, c.outputTokens⟩

def stored (calls : List LlmCall) : List (String × TokenEntry) :=
  calls.foldl (fun m c => setEntry (keyOf c) (entryOf c) m) []

theorem stored_eq (calls : List LlmCall) :
    stored calls = (Dict.newest keyOf calls.reverse).map fun c => (keyOf c, entryOf c) := by
  induction calls using List.reverseRecOn with
  | nil => rfl
  | append_singleton calls c ih =>
    have hstep : stored (calls ++ [c]) = setEntry (keyOf c) (entryOf c) (stored calls) :=
      List.foldl_append ..
    rw [hstep, ih, setEntry, List.reverse_append, List.reverse_singleton, List.singleton_append,
      Dict.newest, List.map_cons, List.filter_map]
    refine congrArg (fun l => (keyOf c, entryOf c) :: List.map _ l) (List.filter_congr fun d _ => ?_)
    simp [bne, Bool.beq_eq_decide_eq]

/-- The tokens counted for a model, under the keys that start with its name. -/
theorem totalOf_sumTokens (calls : List LlmCall) (modelId : String) :
    totalOf (sumTokens (stored calls)) modelId =
      let group := (Dict.newest keyOf calls.reverse).filter fun c => modelOf (keyOf c) = modelId
      ⟨(group.map LlmCall.inputTokens).sum, (group.map LlmCall.outputTokens).sum⟩ := by
  have hfold : ∀ (group : List LlmCall) (bucket : TokenEntry),
      (group.map fun c => (keyOf c, entryOf c)).foldl (fun b e => addEntry b e.2) bucket =
        ⟨bucket.inputTokens + (group.map LlmCall.inputTokens).sum,
          bucket.outputTokens + (group.map LlmCall.outputTokens).sum⟩ := by
    intro group
    induction group with
    | nil => exact fun bucket => rfl
    | cons c group ih =>
      intro bucket
      rw [List.map_cons, List.foldl_cons, ih]
      simp only [addEntry, entryOf, List.map_cons, List.sum_cons, Nat.add_assoc]
  rw [totalOf, sumTokens, Dict.lookup_groupFold, stored_eq, List.filter_map]
  have hzero := hfold
    ((Dict.newest keyOf calls.reverse).filter fun c => modelOf (keyOf c) = modelId) ⟨0, 0⟩
  simp only [Nat.zero_add] at hzero
  split
  next hnil =>
    have hgroup : (Dict.newest keyOf calls.reverse).filter (fun c => modelOf (keyOf c) = modelId) = [] :=
      List.map_eq_nil_iff.1 hnil
    simp only [hgroup]
    rfl
  next => exact hzero

/-! ## When the totals are right -/

section
variable {calls : List LlmCall} {g : LlmCall → Nat}

theorem sum_reverse (calls : List LlmCall) : (calls.reverse.map g).sum = (calls.map g).sum :=
  (calls.reverse_perm.map g).sum_eq

/-- The totals by the models of the keys are the sums by the models of the calls. -/
def Balanced (g : LlmCall → Nat) (calls : List LlmCall) : Prop :=
  ∀ modelId, (((Dict.newest keyOf calls.reverse).filter fun c =>
      modelOf (keyOf c) = modelId).map g).sum =
    ((calls.filter fun c => c.modelId = modelId).map g).sum

/-- Over all models, what is stored is what was called. -/
theorem Balanced.sum_newest (h : Balanced g calls) :
    ((Dict.newest keyOf calls.reverse).map g).sum = (calls.reverse.map g).sum := by
  let models := (calls.map LlmCall.modelId ++ calls.map fun c => modelOf (keyOf c)).dedup
  have hstored := @Dict.sum_by_key _ _ _ _ _ (fun c : LlmCall => modelOf (keyOf c)) g models
    (List.nodup_dedup _) (Dict.newest keyOf calls.reverse)
  have hcalled := @Dict.sum_by_key _ _ _ _ _ LlmCall.modelId g models
    (List.nodup_dedup _) calls
  have hall : (Dict.newest keyOf calls.reverse).filter (fun c => modelOf (keyOf c) ∈ models) =
      Dict.newest keyOf calls.reverse := by
    refine List.filter_eq_self.2 fun c hc => decide_eq_true (List.mem_dedup.2 ?_)
    have hc := List.mem_reverse.1 (Dict.mem_of_mem_newest hc)
    exact List.mem_append_right _ (List.mem_map.2 ⟨c, hc, rfl⟩)
  have hall' : calls.filter (fun c => c.modelId ∈ models) = calls := by
    refine List.filter_eq_self.2 fun c hc => decide_eq_true (List.mem_dedup.2 ?_)
    exact List.mem_append_left _ (List.mem_map.2 ⟨c, hc, rfl⟩)
  rw [hall] at hstored
  rw [hall'] at hcalled
  rw [← hstored, sum_reverse, ← hcalled]
  exact congrArg List.sum (List.map_congr_left fun modelId _ => h modelId)

/-- A call whose model has a separator in its name counts for no model of that name. -/
theorem Balanced.eq_zero (h : Balanced g calls) {c : LlmCall} (hc : c ∈ calls)
    (hname : '#' ∈ c.modelId.toList) : g c = 0 := by
  have hnone : (Dict.newest keyOf calls.reverse).filter
      (fun d => modelOf (keyOf d) = c.modelId) = [] := by
    refine List.filter_eq_nil_iff.2 fun d _ => ?_
    rw [decide_eq_true_eq]
    intro heq
    exact separator_not_mem_modelOf (keyOf d) (heq ▸ hname)
  have hsum := h c.modelId
  rw [hnone, List.map_nil, List.sum_nil, eq_comm, List.sum_eq_zero_iff_forall_eq_nat] at hsum
  exact hsum (g c) (List.mem_map.2 ⟨c, List.mem_filter.2 ⟨hc, decide_eq_true rfl⟩, rfl⟩)

theorem Balanced.pairwise (h : Balanced g calls) :
    calls.Pairwise fun c later => c.modelId = later.modelId ∧ c.reason = later.reason → g c = 0 := by
  have hnewest := (Dict.sum_newest_eq_iff calls.reverse).1 h.sum_newest
  refine (List.pairwise_reverse.1 hnewest).imp fun hkey hsame => ?_
  exact hkey (keyOf_eq_iff.2 hsame)

theorem Kept.balanced (h : Kept calls) (hg : ∀ c, Empty c → g c = 0) : Balanced g calls := by
  intro modelId
  -- what the key says instead of the name makes no difference where there are tokens
  have hname : ∀ c ∈ Dict.newest keyOf calls.reverse,
      (if modelOf (keyOf c) = modelId then g c else 0) = if c.modelId = modelId then g c else 0 := by
    intro c hc
    have hc := List.mem_reverse.1 (Dict.mem_of_mem_newest hc)
    by_cases hmem : '#' ∈ c.modelId.toList
    · rw [hg c (h.name c hc hmem), ite_self, ite_self]
    · rw [modelOf_keyOf hmem]
  have hnewest : calls.reverse.Pairwise fun c d =>
      keyOf d = keyOf c → (if d.modelId = modelId then g d else 0) = 0 := by
    rw [List.pairwise_reverse]
    refine h.once.imp fun hsame hkey => ?_
    rw [hg _ (hsame (keyOf_eq_iff.1 hkey)), ite_self]
  rw [Dict.sum_filter, List.map_congr_left hname, (Dict.sum_newest_eq_iff calls.reverse).2 hnewest,
    sum_reverse, ← Dict.sum_filter]

end

theorem conserves_stored_iff (calls : List LlmCall) :
    Conserves calls (sumTokens (stored calls)) ↔
      Balanced LlmCall.inputTokens calls ∧ Balanced LlmCall.outputTokens calls := by
  unfold Conserves Balanced
  rw [← forall_and]
  refine forall_congr' fun modelId => ?_
  rw [totalOf_sumTokens, TokenEntry.mk.injEq]

theorem conserves_iff_kept (calls : List LlmCall) :
    Conserves calls (sumTokens (stored calls)) ↔ Kept calls := by
  rw [conserves_stored_iff]
  constructor
  · rintro ⟨hin, hout⟩
    constructor
    · exact (hin.pairwise.and hout.pairwise).imp fun h hsame => ⟨h.1 hsame, h.2 hsame⟩
    · exact fun c hc hname => ⟨hin.eq_zero hc hname, hout.eq_zero hc hname⟩
  · intro h
    exact ⟨h.balanced fun c hc => hc.1, h.balanced fun c hc => hc.2⟩

/-! ## Runs -/

section
variable {w w' : World} {tr : List (Event sig)} {k : String}

/-- One call more is one entry set. -/
theorem ends_writeTokensByModel {modelId : String} {reason : LlmUsageReason} {i o : Nat}
    {m : List (String × TokenEntry)} (hm : w.record k .tokensByModel = some m)
    (h : Ends system w (writeTokensByModel k modelId reason i o) tr (.ok ()) w') :
    w'.record k .tokensByModel = some (setEntry (modelId ++ "#" ++ reason.value) ⟨i, o⟩ m) := by
  rcases (ends_executeDdbUpdate h).2 with ⟨e, he, -⟩ | ⟨new, -, hnew, rfl⟩
  · cases he
  · have hwritten : new = Function.update (w.record k) .tokensByModel
        ((w.record k .tokensByModel).map (setEntry (modelId ++ "#" ++ reason.value) ⟨i, o⟩)) :=
      (Dynamo.Update.apply_eq_ok hnew).2.2
    rw [record_setRecord_self, hwritten, Function.update_self, hm]
    rfl

theorem ends_recordCalls {calls : List LlmCall} {m : List (String × TokenEntry)}
    (hm : w.record k .tokensByModel = some m)
    (h : Ends system w (recordCalls k calls) tr (.ok ()) w') :
    w'.record k .tokensByModel =
      some (calls.foldl (fun m c => setEntry (keyOf c) (entryOf c) m) m) := by
  induction calls generalizing w m tr with
  | nil =>
    obtain ⟨-, -, rfl⟩ := ends_ret_iff.1 h
    exact hm
  | cons c calls ih =>
    obtain ⟨⟨⟩, w₁, tr₁, tr₂, h₁, h₂, -⟩ := ends_bind_ok h
    exact ih (ends_writeTokensByModel hm h₁) h₂

theorem ends_sumTokenUsageByModel {m totals : List (String × TokenEntry)}
    (hm : w.record k .tokensByModel = some m)
    (h : Ends system w (sumTokenUsageByModel k) tr (.ok totals) w') : totals = sumTokens m := by
  obtain ⟨a, w₁, tr₁, tr₂, h₁, h₂, -⟩ := ends_bind_ok h
  have hitem := ends_getDdbRecord h₁
  have hdocs : w.docs.item k = some (w.record k) := by
    unfold World.record at hm ⊢
    cases hi : w.docs.item k with
    | none =>
      rw [hi] at hm
      cases hm
    | some record => rfl
  rw [hdocs] at hitem
  subst hitem
  obtain ⟨-, htotals, -⟩ := ends_ret_iff.1 h₂
  cases htotals
  rw [hm]
  rfl

/-- **The totals by model are the sums over the calls exactly when every call with tokens names a model
without `#` and is the last of its model and reason.** -/
theorem tokens_conserved_iff {calls : List LlmCall} {totals : List (String × TokenEntry)}
    (hnew : w.record k .tokensByModel = some [])
    (h : Ends system w ((recordCalls k calls).bind fun _ => sumTokenUsageByModel k) tr (.ok totals) w') :
    Conserves calls totals ↔ Kept calls := by
  obtain ⟨⟨⟩, w₁, tr₁, tr₂, h₁, h₂, -⟩ := ends_bind_ok h
  cases ends_sumTokenUsageByModel (ends_recordCalls hnew h₁) h₂
  exact conserves_iff_kept calls

end

/-! ## One call twice -/

/-- A document whose tokens nobody has recorded yet. -/
def newRecord : Record
  | .tokensByModel => some []
  | _              => none

def newWorld : World := { docs := Dynamo.Table.empty.put "scan-1.pdf" newRecord }

def returned {α : Type} : Prog α → Bool
  | .ret _ => true
  | _      => false

theorem ends_of_follow {α : Type} {w : World} {p : Prog α} {chs : List Choice}
    (h : (Effect.follow system w p chs).any (fun run => returned run.2.1) = true) :
    ∃ tr a w', Ends system w p tr (.ok a) w' := by
  obtain ⟨⟨tr, q, w'⟩, hrun, hq⟩ := (Option.any_eq_true _ _).1 h
  cases q with
  | ret a => exact ⟨tr, a, w', Effect.steps_of_follow hrun⟩
  | raise e => cases hq
  | call op k => cases hq

def recordAndSum (calls : List LlmCall) : Prog (List (String × TokenEntry)) :=
  (recordCalls "scan-1.pdf" calls).bind fun _ => sumTokenUsageByModel "scan-1.pdf"

def classified : LlmCall := ⟨"us.amazon.nova-pro-v1:0", .preclassification, 10, 5⟩

def mapped : LlmCall := ⟨"us.amazon.nova-pro-v1:0", .ocrMapping, 20, 7⟩

theorem tokens_conserved_classified_mapped : ∃ tr totals w',
    Ends system newWorld ((recordCalls "scan-1.pdf" [classified, mapped]).bind fun _ =>
      sumTokenUsageByModel "scan-1.pdf") tr (.ok totals) w' ∧
    Conserves [classified, mapped] totals := by
  have hfollow : (Effect.follow system newWorld (recordAndSum [classified, mapped])
      [{}, {}, {}]).any (fun run => returned run.2.1) = true := by decide +kernel
  obtain ⟨tr, totals, w', h⟩ := ends_of_follow hfollow
  have hkept : Kept [classified, mapped] := by
    refine ⟨?_, fun c hc hname => ?_⟩
    · exact List.pairwise_pair.2 fun hsame => absurd hsame.2 (by decide)
    · simp only [List.mem_cons, List.not_mem_nil, or_false] at hc
      rcases hc with rfl | rfl <;> exact absurd hname (by decide +kernel)
  exact ⟨tr, totals, w', h, (tokens_conserved_iff rfl h).2 hkept⟩

/-- The second of two equal calls takes the place of the first. -/
theorem tokens_lost : ¬ ∀ (w w' : World) tr k calls totals,
    w.record k .tokensByModel = some [] →
    Ends system w ((recordCalls k calls).bind fun _ => sumTokenUsageByModel k) tr (.ok totals) w' →
    Conserves calls totals := by
  intro hall
  have hfollow : (Effect.follow system newWorld (recordAndSum [classified, classified])
      [{}, {}, {}]).any (fun run => returned run.2.1) = true := by decide +kernel
  obtain ⟨tr, totals, w', h⟩ := ends_of_follow hfollow
  have hconserves := hall newWorld w' tr "scan-1.pdf" [classified, classified] totals rfl h
  obtain ⟨⟨⟩, w₁, tr₁, tr₂, h₁, h₂, -⟩ := ends_bind_ok h
  cases ends_sumTokenUsageByModel (ends_recordCalls (m := []) rfl h₁) h₂
  have hkept := (conserves_iff_kept _).1 hconserves
  exact absurd (List.rel_of_pairwise_cons hkept.once List.mem_cons_self ⟨rfl, rfl⟩).1 (by decide)

end TokenAccount
end DocumentAi
