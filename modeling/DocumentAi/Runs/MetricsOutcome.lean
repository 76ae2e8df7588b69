import DocumentAi.Runs.Classified

/-!
# Metrics and the final outcome

The record is put on the metrics queue inside the status write (`utils/ddb.py:430`, `:669`); the
response code is refined afterwards, with the answer (`classifiers/api_response.py:282-298`). The two
agree when nothing refines the code.

| here | meaning |
| --- | --- |
| `TerminalWrite`      | the two ways to a terminal status: a classification (`update_ddb`) and the checks before extraction (`upsert_ddb`) |
| `CarriesOutcome m r` | `m` has the status and the response code of `r` |
| `KeepsCode`          | the answer's code is the one the record has already |
-/

namespace DocumentAi

open Effect (Event Ends ends_bind_iff ends_ret_iff)
open Dynamo (Targets targets_append targets_nil lastSet lastSet_eq_none)

inductive TerminalWrite where
  | classification (key : String) (c : Classification)
  | preExtraction (doc : FetchedDocument) (tenantId : Option String) (uploadDate : Option Day)

namespace TerminalWrite

def key : TerminalWrite → String
  | classification key _   => key
  | preExtraction doc _ _  => doc.ddbKey

def run (env : EnvConfig) : TerminalWrite → Prog Unit
  | classification key c       => c.body env key
  | preExtraction doc t day    => do
    let _ ← upsertInitialDdbRecord env doc t day
    pure ()

end TerminalWrite

theorem ends_preExtraction {env : EnvConfig} {doc : FetchedDocument} {t : Option String}
    {day : Option Day} {w w' : World} {tr : List (Event sig)} {r : Except Exc Unit}
    (h : Ends system w ((TerminalWrite.preExtraction doc t day).run env) tr r w') :
    ∃ out, Ends system w (upsertInitialDdbRecord env doc t day) tr out w' := by
  rcases ends_bind_iff.1 h with ⟨e, rfl, he⟩ | ⟨a, w₁, tr₁, tr₂, h₁, h₂, rfl⟩
  · exact ⟨.error e, he⟩
  · obtain ⟨rfl, _, rfl⟩ := ends_ret_iff.1 h₂
    rw [List.append_nil]
    exact ⟨.ok a, h₁⟩

def CarriesOutcome (m final : Record) : Prop :=
  m.status = final.status ∧ m.responseCode = final.responseCode

/-! ## When the code is kept -/

/-- No rule, category or floor refines the code of a success. -/
def Unrefined (env : EnvConfig) (w : World) (key : String) (c : Classification) : Prop :=
  w.missingRequired env (overlaid env c.data (w.record key)) = [] ∧
    (w.record key).categoryMatch ≠ some false ∧
    (c.belowFloor w || (w.record key).belowExtractionConfidenceFloor.getD false) = false

def Classification.KeepsCode (env : EnvConfig) (w : World) (key : String) (c : Classification) :
    Prop :=
  match c with
  | success .. | extractionResult .. => Unrefined env w key c
  | notImplemented ..                => False
  | noCustomBlueprintMatched ..      => (w.record key).categoryMatch ≠ some false
  | _                                => True

/-- An upsert writes no code: the record had the one of the answer before, or there is none. -/
def TerminalWrite.KeepsCode (env : EnvConfig) (w : World) (m : Record) : TerminalWrite → Prop
  | classification key c  => c.KeepsCode env w key
  | preExtraction doc _ _ =>
    ∀ code, m.status.bind tableCode = some code → (w.record doc.ddbKey).responseCode = some code

/-! ## One write -/

section
variable {env : EnvConfig} {key : String} {c : Classification} {w w' : World}
  {tr : List (Event sig)} {r : Except Exc Unit} {m new : Record} {info error : Option String}
  {rule : Option ExtractionRule}

/-- What the answer's code is next to the code of the status write. -/
def SameCode (x : V1ApiResponse) (code : Option ResponseCode) : Prop :=
  x.responseCode = none ∨ x.responseCode = code

theorem lastSet_responseRequest (x : V1ApiResponse) :
    lastSet (T := DocumentMetadata.schema) .responseCode (responseRequest x).actions =
      x.responseCode := by
  unfold responseRequest
  cases x.responseCode <;> rfl

theorem carriesOutcome_answered {resp : Option V1ApiResponse} :
    CarriesOutcome new (answered resp new) ↔ ∀ x, resp = some x → SameCode x new.responseCode := by
  cases resp with
  | none => exact ⟨fun _ x hx => (by cases hx), fun _ => ⟨rfl, rfl⟩⟩
  | some x =>
    have hstatus : (answered (some x) new).status = new.status := by
      have hnone := (writes_responseRequest x).status
      change (statusWrite (responseRequest x)).or new.status = new.status
      rw [hnone, Option.none_or]
    have hcode : (answered (some x) new).responseCode = x.responseCode.or new.responseCode := by
      rw [← lastSet_responseRequest x]
      rfl
    constructor
    · rintro ⟨_, h⟩ y hy
      cases hy
      rw [hcode] at h
      cases hx : x.responseCode with
      | none => exact .inl hx
      | some code =>
        rw [hx, Option.some_or] at h
        exact .inr (hx.trans h.symm)
    · intro h
      refine ⟨hstatus.symm, ?_⟩
      rw [hcode]
      rcases h x rfl with hn | hs
      · rw [hn, Option.none_or]
      · rw [hs, Option.or_self]

/-- What a classification leaves of the record, as far as the answer's code depends on it. -/
structure Leaves (env : EnvConfig) (w : World) (key : String) (c : Classification) (new : Record) :
    Prop where
  below : new.belowExtractionConfidenceFloor.getD false =
    (c.belowFloor w || (w.record key).belowExtractionConfidenceFloor.getD false)
  rest  : ∀ a, a ∉ verdictAttrs → new a = overlaid env c.data (w.record key) a

theorem Leaves.categoryMatch (h : Leaves env w key c new) :
    new.categoryMatch = (w.record key).categoryMatch :=
  (h.rest _ (by decide)).trans (overlaid_of_not_data (by decide) _ _)

/-- The answer to a success keeps the code exactly when nothing refines it. -/
theorem sameCode_success (h : Leaves env w key c new) (hrule : RuleUsed w new tr rule) :
    (Unrefined env w key c →
      SameCode (recordedAnswer env new .success info error rule) (some .success)) ∧
    (RulesRead tr → SameCode (recordedAnswer env new .success info error rule) (some .success) →
      Unrefined env w key c) := by
  unfold SameCode Unrefined
  rw [responseCode_success, h.categoryMatch, ← h.below, ← missingRequired_congr h.rest]
  refine ⟨fun hu => .inr ?_, fun hread hs => ?_⟩
  · rw [successCode_eq_success.2]
    refine ⟨?_, hu.2⟩
    rcases hrule with rfl | ⟨rfl, _⟩
    · exact hu.1
    · rfl
  · obtain rfl := hrule.eq hread
    exact successCode_eq_success.1 (Option.some.inj (hs.resolve_left (by simp)))

theorem sameCode_classification (h : Leaves env w key c new) (hrule : RuleUsed w new tr rule) :
    (c.KeepsCode env w key →
      SameCode (recordedAnswer env new c.verdict.1 info error rule) (some c.verdict.2)) ∧
    (RulesRead tr →
      SameCode (recordedAnswer env new c.verdict.1 info error rule) (some c.verdict.2) →
      c.KeepsCode env w key) := by
  cases c with
  | success | extractionResult => exact sameCode_success h hrule
  | notImplemented =>
    refine ⟨fun hf => hf.elim, fun _ hs => ?_⟩
    change SameCode (recordedAnswer env new .success info error rule) (some .noBlueprintMatched) at hs
    rw [SameCode, responseCode_success] at hs
    exact successCode_ne (Option.some.inj (hs.resolve_left (by simp)))
  | noCustomBlueprintMatched =>
    unfold SameCode Classification.KeepsCode
    rw [responseCode_answer (by simp [Classification.verdict]), ← h.categoryMatch]
    by_cases hc : new.categoryMatch = some false
    · rw [if_pos ⟨rfl, hc⟩]
      exact ⟨fun hn => absurd hc hn, fun _ hs => by simp [Classification.verdict] at hs⟩
    · rw [if_neg fun hx => hc hx.2]
      exact ⟨fun _ => .inr rfl, fun _ _ => hc⟩
  | extractionNotConfigured =>
    refine ⟨fun _ => .inl ?_, fun _ _ => trivial⟩
    rw [responseCode_answer (by simp [Classification.verdict])]
    rfl
  | _ =>
    refine ⟨fun _ => .inr ?_, fun _ _ => trivial⟩
    rw [responseCode_answer (by simp [Classification.verdict]),
      if_neg (by simp [Classification.verdict])]
    rfl

theorem sameCode_preExtraction {s : ProcessStatus} {code : Option ResponseCode}
    (hpre : s.isPreExtraction = true) :
    SameCode (recordedAnswer env new s info error rule) code ↔
      ∀ x, tableCode s = some x → code = some x := by
  have hsuccess : s ≠ .success := by rintro rfl; cases hpre
  have hcustom : s ≠ .noCustomBlueprintMatched := by rintro rfl; cases hpre
  rw [SameCode, responseCode_answer hsuccess, if_neg fun h => hcustom h.1]
  cases tableCode s with
  | none => simp
  | some x => simp [eq_comm]

theorem leaves_of_describes {u : UpdateDdbRecord} {now : Timestamp} {timing : List Action}
    (hu : Describes w key c u) (ht : TimingActions timing)
    (h : (updateRequest env now u timing (some nonTerminalCondition)).apply (w.record key) = .ok new) :
    Leaves env w key c new where
  below := by rw [updateRequest_belowFloor ht h, hu.below]
  rest a ha := by rw [updateRequest_overlaid ht h ha, hu.data]

/-- The record that was sent has the outcome exactly when the answer keeps its code. -/
theorem settles_carriesOutcome {s : ProcessStatus} {resp : Option V1ApiResponse}
    (h : Settles env key s info error w w' tr new resp) (hm : Sent m tr) :
    CarriesOutcome m (w'.record key) ↔ ∀ x, resp = some x → SameCode x m.responseCode := by
  obtain rfl := h.sent m hm
  have hstatus : (w'.record key).status = (answered resp m).status := h.left _ (by decide)
  have hcode : (w'.record key).responseCode = (answered resp m).responseCode :=
    h.left .responseCode (by decide)
  have hanswered : CarriesOutcome m (answered resp m) ↔ _ := carriesOutcome_answered
  rw [← hanswered, CarriesOutcome, hstatus, hcode]
  rfl

theorem carriesOutcome_classification (h : Ends system w (c.body env key) tr r w')
    (hm : Sent m tr) :
    (c.KeepsCode env w key → CarriesOutcome m (w'.record key)) ∧
    ((∃ x, Stored key x tr) → RulesRead tr → CarriesOutcome m (w'.record key) →
      c.KeepsCode env w key) := by
  rcases outcome_body h with ⟨hs, _⟩ | ⟨u, now, timing, new, resp, hu, ht, hnew, hsettles⟩
  · exact absurd hm hs.not_sent
  have hleaves := leaves_of_describes hu ht hnew
  have hcode : m.responseCode = some c.verdict.2 := by
    rw [hsettles.sent m hm, updateRequest_responseCode ht hnew, hu.code]
    rfl
  rw [settles_carriesOutcome hsettles hm, hcode]
  refine ⟨fun hkeeps x hx => ?_, fun ⟨x, hstored⟩ hread hsame => ?_⟩
  · obtain ⟨rule, rfl, hrule⟩ := hsettles.answer x hx
    exact (sameCode_classification hleaves hrule).1 hkeeps
  · have hx := hsettles.stored key x hstored
    have hcodes := hsame x hx
    obtain ⟨rule, rfl, hrule⟩ := hsettles.answer x hx
    exact (sameCode_classification hleaves hrule).2 hread hcodes

theorem carriesOutcome_preExtraction {doc : FetchedDocument} {t : Option String} {day : Option Day}
    {out : Except Exc (Option PreExtractionResult)}
    (h : Ends system w (upsertInitialDdbRecord env doc t day) tr out w') (hm : Sent m tr) :
    ((TerminalWrite.preExtraction doc t day).KeepsCode env w m →
      CarriesOutcome m (w'.record doc.ddbKey)) ∧
    ((∃ x, Stored doc.ddbKey x tr) → CarriesOutcome m (w'.record doc.ddbKey) →
      (TerminalWrite.preExtraction doc t day).KeepsCode env w m) := by
  rcases settles_upsertInitialDdbRecord h with
    ⟨hs, _⟩ | ⟨now, data, mid, new, resp, hkey, hpre, _, hmid, hleft, hsettles⟩
  · exact absurd hm (hs m)
  obtain rfl := hsettles.sent m hm
  have hstatus : m.status = some data.processStatus := by
    rw [Record.status, hleft _ (by decide)]
    exact (writes_upsertRequest data now).status_eq hmid
  have hcode : m.responseCode = (w.record doc.ddbKey).responseCode := by
    rw [Record.responseCode, hleft _ (by decide), upsertRequest_responseCode hmid]
  have hkeeps : (TerminalWrite.preExtraction doc t day).KeepsCode env w m ↔
      ∀ x, tableCode data.processStatus = some x → m.responseCode = some x := by
    rw [TerminalWrite.KeepsCode, hstatus, hcode, Option.bind_some]
  rw [settles_carriesOutcome hsettles hm, hkeeps]
  constructor
  · intro hkeeps x hx
    obtain ⟨rule, rfl, _⟩ := hsettles.answer x hx
    exact (sameCode_preExtraction hpre).2 hkeeps
  · rintro ⟨x, hstored⟩ hsame
    have hx := hsettles.stored doc.ddbKey x hstored
    have hcodes := hsame x hx
    obtain ⟨rule, rfl, _⟩ := hsettles.answer x hx
    exact (sameCode_preExtraction hpre).1 hcodes

end

/-! ## Every terminal write -/

/-- **Metrics carry the final outcome** when the answer keeps the code, and, if the answer was
stored and its rule read, only then. -/
theorem carriesOutcome_iff (env : EnvConfig) (p : TerminalWrite) {w w' : World}
    {tr : List (Event sig)} {r : Except Exc Unit} {m : Record}
    (h : Ends system w (p.run env) tr r w') (hm : Sent m tr) :
    (p.KeepsCode env w m → CarriesOutcome m (w'.record p.key)) ∧
    ((∃ x, Stored p.key x tr) → RulesRead tr → CarriesOutcome m (w'.record p.key) →
      p.KeepsCode env w m) := by
  cases p with
  | classification key c => exact carriesOutcome_classification h hm
  | preExtraction doc t day =>
    obtain ⟨out, hrun⟩ := ends_preExtraction h
    obtain ⟨henough, honly⟩ := carriesOutcome_preExtraction hrun hm
    exact ⟨henough, fun hstored _ => honly hstored⟩

/-! ## A success of the wrong category -/

/-- The records that were put on the metrics queue. -/
def sentRecords (tr : List (Event sig)) : List Record :=
  tr.filterMap fun
    | ⟨.sendMetrics m, .ok ()⟩ => some m
    | _                        => none

theorem mem_sentRecords {tr : List (Event sig)} {m : Record} (h : m ∈ sentRecords tr) : Sent m tr := by
  obtain ⟨⟨op, ans⟩, hev, hm⟩ := List.mem_filterMap.1 h
  cases op <;> try cases hm
  cases ans with
  | error e => cases hm
  | ok u =>
    cases hm
    exact hev

def Record.outcome (r : Record) : Option ProcessStatus × Option ResponseCode :=
  (r.status, r.responseCode)

theorem carriesOutcome_iff_outcome {m r : Record} : CarriesOutcome m r ↔ m.outcome = r.outcome := by
  rw [Record.outcome, Record.outcome, Prod.mk.injEq]
  rfl

def metricsEnv : EnvConfig := { sampleEnv with ddbMetricsInputQueueUrl := some "metrics" }

def plainSuccess : TerminalWrite :=
  .classification "scan-1.pdf" (.success {} .bda
    { belowFloor := false, rulesConfigured := false, missingRequired := none, required := none
      confidenceFloor := 13 / 20, usedDefaultFloor := true, resultProcessorStartedAt := none } none { documentType := none })

/-- The pre-classification found another category than the one the user gave. -/
def otherCategory : World :=
  { sampleWorld with docs := Dynamo.Table.empty.put "scan-1.pdf" fun
      | .preclassificationCategoryMatch => some false
      | a                               => sampleRecord a }

/-- The outcomes sent and the outcome of the record, once a run from `w` has ended. -/
def outcomes (w : World) : Option (List (Option ProcessStatus × Option ResponseCode) ×
    (Option ProcessStatus × Option ResponseCode)) :=
  (Effect.follow system w (plainSuccess.run metricsEnv) (List.replicate 11 {})).bind fun (tr, q, w') =>
    q.result.map fun _ => ((sentRecords tr).map Record.outcome, (w'.record plainSuccess.key).outcome)

theorem ends_of_outcomes {w : World} {sent final : Option ProcessStatus × Option ResponseCode}
    (h : outcomes w = some ([sent], final)) :
    ∃ tr r w' m, Ends system w (plainSuccess.run metricsEnv) tr r w' ∧ Sent m tr ∧ m.outcome = sent ∧
      (w'.record plainSuccess.key).outcome = final := by
  obtain ⟨⟨tr, q, w'⟩, hfollow, hx⟩ := Option.bind_eq_some_iff.1 h
  obtain ⟨r, hresult, hx⟩ := Option.map_eq_some_iff.1 hx
  obtain ⟨hsent, hfinal⟩ := Prod.mk.inj hx
  obtain rfl : q = .ofExcept r := Effect.Prog.eq_ofExcept hresult
  have hmem : sent ∈ (sentRecords tr).map Record.outcome := by
    rw [hsent]
    exact List.mem_singleton_self _
  obtain ⟨m, hm, hout⟩ := List.mem_map.1 hmem
  exact ⟨tr, r, w', m, Effect.steps_of_follow hfollow, mem_sentRecords hm, hout, hfinal⟩

set_option maxRecDepth 10000 in
/-- A success that nothing refines. -/
theorem carriesOutcome_extracted : ∃ tr r w' m,
    Ends system sampleWorld (plainSuccess.run metricsEnv) tr r w' ∧ Sent m tr ∧
    CarriesOutcome m (w'.record plainSuccess.key) := by
  have hrun : outcomes sampleWorld = some ([(some .success, some .success)],
      (some .success, some .success)) := by decide +kernel
  obtain ⟨tr, r, w', m, hends, hm, _, _⟩ := ends_of_outcomes hrun
  have hkeeps : plainSuccess.KeepsCode metricsEnv sampleWorld m :=
    ⟨by decide +kernel, by decide +kernel, by decide +kernel⟩
  exact ⟨tr, r, w', m, hends, hm, (carriesOutcome_iff metricsEnv plainSuccess hends hm).1 hkeeps⟩

set_option maxRecDepth 10000 in
/-- A document of another category is counted as a success and answered as miscategorized. -/
theorem carriesOutcome_fails : ∃ tr r w' m,
    Ends system otherCategory (plainSuccess.run metricsEnv) tr r w' ∧ Sent m tr ∧
    m.responseCode = some .success ∧
    (w'.record plainSuccess.key).responseCode = some .miscategorized ∧
    ¬ CarriesOutcome m (w'.record plainSuccess.key) := by
  have hrun : outcomes otherCategory = some ([(some .success, some .success)],
      (some .success, some .miscategorized)) := by decide +kernel
  obtain ⟨tr, r, w', m, hends, hm, hsent, hfinal⟩ := ends_of_outcomes hrun
  refine ⟨tr, r, w', m, hends, hm, (Prod.mk.inj hsent).2, (Prod.mk.inj hfinal).2, fun hc => ?_⟩
  rw [carriesOutcome_iff_outcome, hsent, hfinal] at hc
  cases hc

end DocumentAi
