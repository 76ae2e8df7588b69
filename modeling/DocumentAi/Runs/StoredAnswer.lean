import DocumentAi.Footprint.Exec
import DocumentAi.Lib.Sequential

/-!
# A terminal status written alone: the record sent and the answer stored

The status write, the copy of the record for the metrics and the stored answer are three steps of
one handler. This file says what each of them leaves when the handler runs alone.

| here | meaning |
| --- | --- |
| `ruled env r fields rule` | the fields and the missing required fields under `rule` (`classifiers/api_response.py:145-170`) |
| `answerTo …`       | the answer `build_v1_api_response` gives for a record, a rule and a reader's fields |
| `Sent m tr`        | the run has put `m` on the metrics queue |
| `Stored k resp tr` | the run has stored `resp` as the answer of `k` |
| `RulesRead tr`     | no read of an extraction rule has failed |
-/

namespace DocumentAi

open Effect (Event Ends Steps ends_bind_iff ends_tryCatch_iff ends_perform_iff ends_ret_iff
  ends_raise_iff)
open Effect.Prog (All all_bind)

/-! ## Runs that only read -/

section
variable {α : Type} {w w' : World} {tr : List (Event sig)} {p : Prog α} {q : Prog α}

theorem steps_reads (hp : Reads p) (h : Steps system w p tr q w') : w' = w := by
  refine h.relate (R := fun w _ w' => w' = w) (fun _ => rfl) ?_ hp
  intro w w₁ w' op ch ans tr hop hx hr
  rw [hr, exec_read hop hx]

theorem steps_rules (h : Steps system w p tr q w') : w'.rules = w.rules := by
  refine h.relate (R := fun (w : World) _ (w' : World) => w'.rules = w.rules) (fun _ => rfl) ?_
    (Effect.Prog.all_true p)
  intro w w₁ w' op ch ans tr _ hx hr
  rw [hr, exec_rules hx]

/-- Only updates of the documents table change it. -/
theorem steps_docs (hp : All (fun (op : Op) => op.isElsewhere = true) p)
    (h : Steps system w p tr q w') : w'.docs = w.docs := by
  refine h.relate (R := fun (w : World) _ (w' : World) => w'.docs = w.docs) (fun _ => rfl) ?_ hp
  intro w w₁ w' op ch ans tr hop hx hr
  rw [hr, (exec_frame hx).docs hop]

end

/-! ## What is sent and what is stored -/

def Sent (m : Record) (tr : List (Event sig)) : Prop := (⟨.sendMetrics m, .ok ()⟩ : Event sig) ∈ tr

def Stored (k : String) (resp : V1ApiResponse) (tr : List (Event sig)) : Prop :=
  ∃ u, (⟨.updateItem k u, .ok ()⟩ : Event sig) ∈ tr ∧ responseWrite u = some resp

/-- Neither puts a record on the metrics queue nor stores an answer. -/
def Op.isMute : Op → Prop
  | .sendMetrics _   => False
  | .updateItem _ u  => responseWrite u = none
  | _                => True

def Mute (tr : List (Event sig)) : Prop := ∀ ev ∈ tr, Op.isMute ev.op

section
variable {w w' : World} {tr tr₁ tr₂ : List (Event sig)} {k : String} {resp : V1ApiResponse}
  {m : Record}

theorem Mute.not_sent (h : Mute tr) : ¬ Sent m tr := fun hs => h _ hs

theorem Mute.not_stored (h : Mute tr) : ¬ Stored k resp tr := by
  rintro ⟨u, hu, hw⟩
  have hnone : responseWrite u = none := h _ hu
  rw [hw] at hnone
  cases hnone

theorem mute_append : Mute (tr₁ ++ tr₂) ↔ Mute tr₁ ∧ Mute tr₂ := List.forall_mem_append

theorem stored_append_iff :
    Stored k resp (tr₁ ++ tr₂) ↔ Stored k resp tr₁ ∨ Stored k resp tr₂ := by
  simp only [Stored, List.mem_append, or_and_right, exists_or]

theorem Mute.sent_append (h : Mute tr₁) : Sent m (tr₁ ++ tr₂) ↔ Sent m tr₂ := by
  rw [Sent, List.mem_append]
  exact or_iff_right h.not_sent

theorem Mute.stored_append (h : Mute tr₁) : Stored k resp (tr₁ ++ tr₂) ↔ Stored k resp tr₂ := by
  rw [stored_append_iff]
  exact or_iff_right h.not_stored

theorem isMute_of_isRead {op : Op} (h : op.isRead = true) : op.isMute := by
  cases op <;> trivial

theorem isMute_of_apart {op : Op} (h : Apart op) : op.isMute := by
  cases op with
  | sendMetrics m => exact absurd rfl (h.2 m)
  | updateItem k u => cases h.1.1
  | _ => trivial

theorem mute_of_reads {α : Type} {p q : Prog α} (hp : Reads p) (h : Steps system w p tr q w') :
    Mute tr := fun ev hev => isMute_of_isRead (h.ops hp ev hev)

/-- A bind after a part that only reads. -/
theorem ends_reads_bind {α β : Type} {p : Prog α} {f : α → Prog β} {r : Except Exc β}
    (hp : Reads p) (h : Ends system w (p.bind f) tr r w') :
    (∃ e, r = .error e ∧ Ends system w p tr (.error e) w' ∧ w' = w ∧ Mute tr) ∨
      ∃ a tr₁ tr₂, Ends system w p tr₁ (.ok a) w ∧ Ends system w (f a) tr₂ r w' ∧
        tr = tr₁ ++ tr₂ ∧ Mute tr₁ := by
  rcases ends_bind_iff.1 h with ⟨e, rfl, he⟩ | ⟨a, w₁, tr₁, tr₂, h₁, h₂, rfl⟩
  · exact .inl ⟨e, rfl, he, steps_reads hp he, mute_of_reads hp he⟩
  · obtain rfl := steps_reads hp h₁
    exact .inr ⟨a, tr₁, tr₂, h₁, h₂, rfl, mute_of_reads hp h₁⟩

end

/-! ## Extraction rules -/

/-- The rule of the tenant and the document class of a record. -/
def World.ruleFor (w : World) (r : Record) : Option ExtractionRule :=
  (truthy r.tenantId).bind fun t =>
    (truthy (r .bdaMatchedDocumentClass : Option String)).bind fun d => w.rules t d

/-- The fields that count as missing although they were extracted, when the flag is on. -/
def withheldFields (env : EnvConfig) (r : Record) : List String :=
  if env.flags.includeMissingGeoWithMissingFields then
    r.fieldMissingGeometryList.getD [] ++ r.fieldEmptyList.getD []
  else []

def ruled (env : EnvConfig) (r : Record) (fields : List (String × FieldEntry)) :
    Option ExtractionRule → List (String × FieldEntry) × List String
  | none      => (fields, [])
  | some rule =>
    if fields = [] then (fields, [])
    else
      let out := rule.apply env fields (withheldFields env r)
      (out.fields, out.missingRequiredFieldList)

theorem ruled_nil (env : EnvConfig) (r : Record) (rule : Option ExtractionRule) :
    ruled env r [] rule = ([], []) := by
  cases rule <;> rfl

def RulesRead (tr : List (Event sig)) : Prop :=
  ∀ t d e, (⟨.getRule t d, .error e⟩ : Event sig) ∉ tr

/-- The rule that was applied: that of the record, or none after a failed read. -/
def RuleUsed (w : World) (r : Record) (tr : List (Event sig)) (rule : Option ExtractionRule) :
    Prop := rule = w.ruleFor r ∨ (rule = none ∧ ¬ RulesRead tr)

section
variable {w w' : World} {r : Record} {tr tr₁ tr₂ : List (Event sig)} {rule : Option ExtractionRule}

theorem RuleUsed.mono (h : RuleUsed w r tr₁ rule) (hsub : ∀ ev ∈ tr₁, ev ∈ tr) :
    RuleUsed w r tr rule := by
  refine h.imp_right fun hn => ⟨hn.1, fun hread => hn.2 fun t d e hm => ?_⟩
  exact hread t d e (hsub _ hm)

theorem RuleUsed.of_rules (h : RuleUsed w' r tr rule) (hw : w'.rules = w.rules) :
    RuleUsed w r tr rule := by
  rw [RuleUsed, World.ruleFor, hw] at h
  exact h

theorem RuleUsed.eq (h : RuleUsed w r tr rule) (hread : RulesRead tr) : rule = w.ruleFor r :=
  h.resolve_right fun hn => hn.2 hread

theorem ends_getRule {t d : String} {r : Except Exc (Option ExtractionRule)}
    (h : Ends system w (call (.getRule t d)) tr r w') :
    tr = [⟨.getRule t d, r⟩] ∧ (r = .ok (w.rules t d) ∨ ∃ e, r = .error e) := by
  obtain ⟨ch, hx, rfl⟩ := ends_perform_iff.1 h
  refine ⟨rfl, ?_⟩
  cases r with
  | error e => exact .inr ⟨e, rfl⟩
  | ok rule =>
    have hrun := exec_of_ok hx
    simp only [World.run, World.ok, Option.some.injEq, Prod.mk.injEq] at hrun
    exact .inl hrun.1.symm

theorem ends_applyRulesOrKeep {env : EnvConfig} {r : Record} {fields : List (String × FieldEntry)}
    {out : Except Exc (List (String × FieldEntry) × List String)}
    (h : Ends system w (applyRulesOrKeep env r fields) tr out w') :
    ∃ rule, out = .ok (ruled env r fields rule) ∧ RuleUsed w r tr rule := by
  unfold applyRulesOrKeep at h
  split at h
  next t d ht hd =>
    have hrule : w.ruleFor r = w.rules t d := by
      simp only [World.ruleFor, ht, hd, Option.bind_some]
    split at h
    next hnil =>
      obtain ⟨rfl, rfl, rfl⟩ := ends_ret_iff.1 h
      subst hnil
      exact ⟨w'.ruleFor r, by rw [ruled_nil], .inl rfl⟩
    next hne =>
      rcases ends_tryCatch_iff.1 h with ⟨a, rfl, hok⟩ | ⟨e, w₁, tr₁, tr₂, herr, hret, rfl⟩
      · rcases ends_bind_iff.1 hok with ⟨e, he, _⟩ | ⟨out, w₁, tr₁, tr₂, h₁, h₂, rfl⟩
        · cases he
        · obtain ⟨rfl, hout, rfl⟩ := ends_ret_iff.1 h₂
          cases hout
          rcases ends_bind_iff.1 h₁ with ⟨e, he, _⟩ | ⟨rule, w₂, tr₃, tr₄, h₃, h₄, rfl⟩
          · cases he
          · obtain ⟨rfl, hr | ⟨e, he⟩⟩ := ends_getRule h₃
            · cases hr
              refine ⟨w.rules t d, ?_, .inl hrule.symm⟩
              cases hw : w.rules t d with
              | none =>
                rw [hw] at h₄
                obtain ⟨rfl, hout, rfl⟩ := ends_ret_iff.1 h₄
                cases hout
                rfl
              | some rule =>
                rw [hw] at h₄
                obtain ⟨rfl, hout, rfl⟩ := ends_ret_iff.1 h₄
                cases hout
                simp only [ruled, if_neg hne, withheldFields]
            · cases he
      · obtain ⟨rfl, rfl, rfl⟩ := ends_ret_iff.1 hret
        refine ⟨none, rfl, .inr ⟨rfl, fun hread => ?_⟩⟩
        -- the read of the rule is the only call that can fail
        rcases ends_bind_iff.1 herr with ⟨e', he, herr⟩ | ⟨out, w₁, tr₃, tr₄, _, h₂, rfl⟩
        · rcases ends_bind_iff.1 herr with ⟨e', he, herr⟩ | ⟨rule, w₁, tr₃, tr₄, _, h₂, rfl⟩
          · obtain ⟨rfl, _⟩ := ends_getRule herr
            exact absurd (List.mem_append_left _ List.mem_cons_self) (hread t d e')
          · cases rule <;> cases (ends_ret_iff.1 h₂).2.1
        · cases (ends_ret_iff.1 h₂).2.1
  next hguard =>
    obtain ⟨rfl, rfl, rfl⟩ := ends_ret_iff.1 h
    refine ⟨none, rfl, .inl ?_⟩
    unfold World.ruleFor
    cases ht : truthy r.tenantId with
    | none => rfl
    | some t =>
      cases hd : truthy (r .bdaMatchedDocumentClass) with
      | none => rfl
      | some d => exact absurd hd (hguard t d ht)

end

/-! ## The answer that is built -/

def answerTo (env : EnvConfig) (r : Record) (s : ProcessStatus) (info error : Option String)
    (includeExtractedData includeBoundingBox : Bool) (reader : ReaderResult)
    (rule : Option ExtractionRule) : V1ApiResponse :=
  if s = .success then
    let out := ruled env r (buildFieldMap env reader includeExtractedData includeBoundingBox
      (r .bdaMatchedDocumentClass)) rule
    successResponse r out.1 out.2
  else
    match terminalStatusResponses s with
    | some t => terminalResponse r s t info error
    | none   => { baseResponse r with message := some "Document processing in progress" }

/-- The fields of the record, without their values. -/
def recordedFields (r : Record) : ReaderResult :=
  { fieldConfidenceMapList := (r .fieldConfidenceScores : Option FieldConfidences).getD [] }

section
variable {env : EnvConfig} {w w' : World} {tr : List (Event sig)}

theorem ends_getDdbRecord {k : String} {a : Option Record}
    (h : Ends system w (getDdbRecord k) tr (.ok a) w') : a = w.docs.item k := by
  obtain ⟨ch, hx, rfl⟩ := ends_perform_iff.1 h
  have hrun := exec_of_ok hx
  simp only [World.run, World.ok, Option.some.injEq, Prod.mk.injEq] at hrun
  exact (Except.ok.inj hrun.1).symm

/-- A run that builds an answer reads the record, for a success the fields and the rule, and builds
it from these. -/
theorem ends_buildV1ApiResponse {k : String} {s : ProcessStatus} {d : Option ClassificationData}
    {e : Option String} {x g : Bool} {resp : V1ApiResponse}
    (h : Ends system w (buildV1ApiResponse env k s d e x g) tr (.ok resp) w') :
    ∃ r reader rule, w.docs.item k = some r ∧
      resp = answerTo env r s (d.bind (·.additionalInfo)) e x g reader rule ∧
      (s = .success → RuleUsed w r tr rule ∧
        ∃ tr₁, (∀ ev ∈ tr₁, ev ∈ tr) ∧ Ends system w (readOutput env r x) tr₁ (.ok reader) w) := by
  unfold buildV1ApiResponse at h
  rcases ends_reads_bind (reads_getDdbRecord k) h with ⟨_, he, _⟩ | ⟨a, tr₁, tr₂, h₁, h₂, rfl, _⟩
  · cases he
  have hitem := ends_getDdbRecord h₁
  cases a with
  | none => cases (ends_raise_iff.1 h₂).2.1
  | some r =>
    dsimp only at h₂
    split at h₂
    next hs =>
      rcases ends_reads_bind (reads_extractFieldValues ..) h₂ with
        ⟨_, he, _⟩ | ⟨fields, tr₃, tr₄, h₃, h₄, rfl, _⟩
      · cases he
      rcases ends_reads_bind (reads_applyRulesOrKeep ..) h₄ with
        ⟨_, he, _⟩ | ⟨out, tr₅, tr₆, h₅, h₆, rfl, _⟩
      · cases he
      rcases ends_reads_bind (reads_readOutput ..) h₃ with
        ⟨_, he, _⟩ | ⟨reader, tr₇, tr₈, h₇, h₈, rfl, _⟩
      · cases he
      obtain ⟨rfl, hfields, _⟩ := ends_ret_iff.1 h₈
      obtain ⟨rule, hout, hrule⟩ := ends_applyRulesOrKeep h₅
      obtain ⟨rfl, hresp, _⟩ := ends_ret_iff.1 h₆
      cases hfields
      cases hout
      cases hresp
      refine ⟨r, reader, rule, hitem.symm, ?_, fun _ => ⟨hrule.mono ?_, tr₇, ?_, h₇⟩⟩
      · simp only [answerTo, if_pos hs]
      · intro ev hev
        exact List.mem_append_right _ (List.mem_append_right _ (List.mem_append_left _ hev))
      · intro ev hev
        exact List.mem_append_right _ (List.mem_append_left _ (List.mem_append_left _ hev))
    next hs =>
      refine ⟨r, {}, none, hitem.symm, ?_, fun h => absurd h hs⟩
      split at h₂
      next t ht =>
        cases (ends_ret_iff.1 h₂).2.1
        simp only [answerTo, if_neg hs, ht]
      next ht =>
        cases (ends_ret_iff.1 h₂).2.1
        simp only [answerTo, if_neg hs, ht]

/-- Without the extracted data the fields are those of the record. -/
theorem ends_readOutput_recorded {r : Record} {reader : ReaderResult}
    (h : Ends system w (readOutput env r false) tr (.ok reader) w') : reader = recordedFields r := by
  cases (ends_ret_iff.1 h).2.1
  rfl

end

/-! ## Writing a record -/

section
variable {env : EnvConfig} {w w' : World} {tr : List (Event sig)} {k : String}
  {r : Except Exc Unit}

theorem ends_executeDdbUpdate {xs : List Action} {c : Option Cond}
    (h : Ends system w (executeDdbUpdate k xs c) tr r w') :
    tr = [⟨.updateItem k { actions := xs, cond := c }, r⟩] ∧
      ((∃ e, r = .error e ∧ w' = w) ∨ ∃ new, r = .ok () ∧
        (⟨xs, c⟩ : DocUpdate).apply (w.record k) = .ok new ∧ w' = w.setRecord k new) := by
  obtain ⟨ch, hx, rfl⟩ := ends_perform_iff.1 h
  refine ⟨rfl, ?_⟩
  rcases exec_updateItem hx with ⟨e, rfl, rfl⟩ | ⟨new, rfl, _, hnew, rfl⟩
  · exact .inl ⟨e, rfl, rfl⟩
  · exact .inr ⟨new, rfl, hnew, rfl⟩

theorem mute_update {u : DocUpdate} {ans : sig.Ans (.updateItem k u)}
    (hu : responseWrite u = none) : Mute [⟨.updateItem k u, ans⟩] := by
  intro ev hev
  rw [List.mem_singleton.1 hev]
  exact hu

theorem ends_sendOrSkip {x m : Record} {p : Prog Unit}
    (hp : p = .ret () ∨ p = call (.sendMetrics x)) (h : Ends system w p tr r w') (hm : Sent m tr) :
    m = x := by
  rcases hp with rfl | rfl
  · obtain ⟨rfl, _⟩ := ends_ret_iff.1 h
    cases hm
  · obtain ⟨ch, _, rfl⟩ := ends_perform_iff.1 h
    cases List.mem_singleton.1 hm
    rfl

/-- What is sent after the record has been looked up is the record. -/
theorem sent_of_lookup {f : Option Record → Prog Unit} {m : Record} (hnone : f none = .ret ())
    (hsome : ∀ x, f (some x) = .ret () ∨ f (some x) = call (.sendMetrics x))
    (h : Ends system w ((getDdbRecord k).bind f) tr r w') (hm : Sent m tr) : m = w.record k := by
  rcases ends_reads_bind (reads_getDdbRecord k) h with
    ⟨e, rfl, _, _, hs⟩ | ⟨a, tr₂, tr₃, h₂, h₃, rfl, hs⟩
  · exact absurd hm hs.not_sent
  have hitem := ends_getDdbRecord h₂
  have hm := hs.sent_append.1 hm
  cases a with
  | none =>
    rw [hnone] at h₃
    obtain ⟨rfl, _⟩ := ends_ret_iff.1 h₃
    cases hm
  | some x => rw [ends_sendOrSkip (hsome x) h₃ hm, World.record, ← hitem, Option.getD_some]

/-- The queue gets the record as it is, and the caller no exception. -/
theorem ends_sendRecordToMetricsQueue (h : Ends system w (sendRecordToMetricsQueue env k) tr r w') :
    r = .ok () ∧ w'.docs = w.docs ∧ (∀ m, Sent m tr → m = w.record k) ∧
      ∀ j resp, ¬ Stored j resp tr := by
  have hquiet := quiet_sendRecordToMetricsQueue env k
  have hdocs : w'.docs = w.docs :=
    steps_docs (Effect.Prog.All.mono (fun _ hq => (elsewhere_of_isQuiet hq).1) hquiet) h
  have hstored : ∀ j resp, ¬ Stored j resp tr := by
    rintro j resp ⟨u, hu, _⟩
    cases h.ops hquiet _ hu
  unfold sendRecordToMetricsQueue at h
  rcases ends_tryCatch_iff.1 h with ⟨a, rfl, hok⟩ | ⟨e, w₁, tr₁, tr₂, herr, hret, rfl⟩
  · refine ⟨rfl, hdocs, fun m hm => ?_, hstored⟩
    split at hok
    · exact sent_of_lookup rfl (fun x => ite_eq_or_eq ..) hok hm
    · obtain ⟨rfl, _⟩ := ends_ret_iff.1 hok
      cases hm
  · obtain ⟨rfl, rfl, rfl⟩ := ends_ret_iff.1 hret
    rw [List.append_nil] at hstored ⊢
    refine ⟨rfl, hdocs, fun m hm => ?_, hstored⟩
    split at herr
    · exact sent_of_lookup rfl (fun x => ite_eq_or_eq ..) herr hm
    · obtain ⟨rfl, _⟩ := ends_ret_iff.1 herr
      cases hm

/-- The optional copy for the metrics after a write. -/
theorem ends_sendIfClassified {c : Prop} [Decidable c]
    (h : Ends system w (if c then sendRecordToMetricsQueue env k else .ret ()) tr r w') :
    r = .ok () ∧ w'.docs = w.docs ∧ (∀ m, Sent m tr → c ∧ m = w.record k) ∧
      ∀ j resp, ¬ Stored j resp tr := by
  by_cases hc : c
  · rw [if_pos hc] at h
    obtain ⟨hr, hdocs, hsent, hstored⟩ := ends_sendRecordToMetricsQueue h
    exact ⟨hr, hdocs, fun m hm => ⟨hc, hsent m hm⟩, hstored⟩
  · rw [if_neg hc] at h
    obtain ⟨rfl, rfl, rfl⟩ := ends_ret_iff.1 h
    have hmute : Mute ([] : List (Event sig)) := fun _ hev => by cases hev
    exact ⟨rfl, rfl, fun _ hm => absurd hm hmute.not_sent, fun _ _ => hmute.not_stored⟩

/-- `update_ddb` leaves the table alone, or makes its request and sends the record it leaves. -/
theorem ends_updateDdb {data : UpdateDdbRecord} {c : Option Cond}
    (h : Ends system w (updateDdb env data c) tr r w') :
    (∃ e, r = .error e ∧ w'.docs = w.docs ∧ Mute tr) ∨
      ∃ now timing new, r = .ok () ∧ TimingActions timing ∧
        (updateRequest env now data timing c).apply (w.record data.objectKey) = .ok new ∧
        w'.docs = w.docs.put data.objectKey new ∧ (∀ m, Sent m tr → m = new) ∧
        ∀ j resp, ¬ Stored j resp tr := by
  unfold updateDdb at h
  rcases ends_reads_bind (reads_call rfl) h with
    ⟨e, rfl, _, rfl, hs⟩ | ⟨now, tr₁, tr₂, _, h₂, rfl, hs₁⟩
  · exact .inl ⟨e, rfl, rfl, hs⟩
  have htiming := spec_buildTimingUpdates data.objectKey data.status (data.data.bind (·.bdaOutputS3Uri))
  rcases ends_reads_bind htiming.all h₂ with
    ⟨e, rfl, _, rfl, hs⟩ | ⟨timing, tr₃, tr₄, h₃, h₄, rfl, hs₃⟩
  · exact .inl ⟨e, rfl, rfl, mute_append.2 ⟨hs₁, hs⟩⟩
  have ht : TimingActions timing := Effect.ends_of_spec htiming h₃
  have hu : responseWrite (updateRequest env now data timing c) = none :=
    (writes_updateRequest ht).response
  rcases ends_bind_iff.1 h₄ with ⟨e, rfl, he⟩ | ⟨u, w₁, tr₅, tr₆, h₅, h₆, rfl⟩
  · obtain ⟨rfl, ⟨_, _, rfl⟩ | ⟨_, hr, _⟩⟩ := ends_executeDdbUpdate he
    · exact .inl ⟨e, rfl, rfl, mute_append.2 ⟨hs₁, mute_append.2 ⟨hs₃, mute_update hu⟩⟩⟩
    · cases hr
  obtain ⟨rfl, ⟨_, hr, _⟩ | ⟨new, _, hnew, rfl⟩⟩ := ends_executeDdbUpdate h₅
  · cases hr
  obtain ⟨rfl, hdocs, hsent, hstored⟩ := ends_sendIfClassified h₆
  refine .inr ⟨now, timing, new, rfl, ht, hnew, hdocs, fun m hm => ?_, fun j resp hm => ?_⟩
  · have hm₆ := (mute_update hu).sent_append.1 (hs₃.sent_append.1 (hs₁.sent_append.1 hm))
    rw [(hsent m hm₆).2, record_setRecord_self]
  · exact hstored j resp
      ((mute_update hu).stored_append.1 (hs₃.stored_append.1 (hs₁.stored_append.1 hm)))

/-- A run whose requests on the table touch the attributes `as` of `k` only. -/
theorem steps_writesOn {α : Type} {p q : Prog α} {as : List DocumentMetadata}
    (hp : All (fun (op : Op) => op.isElsewhere = true ∨ IsWriteOn as k op) p)
    (h : Steps system w p tr q w') {a : DocumentMetadata} (ha : a ∉ as) :
    w'.record k a = w.record k a := by
  refine h.relate (R := fun (w : World) _ (w' : World) => w'.record k a = w.record k a)
    (fun _ => rfl) ?_ hp
  rintro w w₁ w' op ch ans tr (hop | ⟨u, hu, rfl⟩) hx hr
  · rw [hr, record_congr ((exec_frame hx).docs hop)]
  · rw [hr]
    rcases exec_updateItem hx with ⟨e, _, rfl⟩ | ⟨new, _, _, hnew, rfl⟩
    · rfl
    · rw [record_setRecord_self]
      exact Dynamo.Update.apply_frame hnew fun x hxu he => ha (he ▸ hu x hxu)

end

/-! ## Storing the answer -/

/-- The answer that is built without reading any extracted data. -/
def recordedAnswer (env : EnvConfig) (r : Record) (s : ProcessStatus) (info error : Option String)
    (rule : Option ExtractionRule) : V1ApiResponse :=
  answerTo env r s info error false false (recordedFields r) rule

section
variable {env : EnvConfig} {w w' : World} {tr : List (Event sig)} {k : String} {s : ProcessStatus}
  {d : Option ClassificationData} {error : Option String}

theorem ends_recordedAnswer {resp : V1ApiResponse}
    (h : Ends system w (buildV1ApiResponse env k s d error) tr (.ok resp) w') :
    ∃ rule, resp = recordedAnswer env (w.record k) s (d.bind (·.additionalInfo)) error rule ∧
      RuleUsed w (w.record k) tr rule := by
  obtain ⟨r, reader, rule, hitem, rfl, hsuccess⟩ := ends_buildV1ApiResponse h
  have hrec : w.record k = r := by rw [World.record, hitem, Option.getD_some]
  rw [hrec]
  by_cases hs : s = .success
  · obtain ⟨hrule, tr₁, _, hreader⟩ := hsuccess hs
    obtain rfl := ends_readOutput_recorded hreader
    exact ⟨rule, rfl, hrule⟩
  · refine ⟨w.ruleFor r, ?_, .inl rfl⟩
    simp only [recordedAnswer, answerTo, if_neg hs]

/-- The answer is built and stored, or the exception leaves the record as it was. -/
theorem ends_finalizeV1Response {r : Except Exc Unit}
    (h : Ends system w (finalizeV1Response env k s d error) tr r w') :
    (∀ m, ¬ Sent m tr) ∧
      ((∃ e, r = .error e ∧ w' = w ∧ ∀ j x, ¬ Stored j x tr) ∨
        ∃ resp rule new, r = .ok () ∧
          resp = recordedAnswer env (w.record k) s (d.bind (·.additionalInfo)) error rule ∧
          RuleUsed w (w.record k) tr rule ∧
          (responseRequest resp).apply (w.record k) = .ok new ∧ w' = w.setRecord k new ∧
          ∀ j x, Stored j x tr → x = resp) := by
  unfold finalizeV1Response at h
  rcases ends_reads_bind (reads_buildV1ApiResponse ..) h with
    ⟨e, rfl, _, rfl, hs⟩ | ⟨resp, tr₁, tr₂, h₁, h₂, rfl, hs₁⟩
  · exact ⟨fun m => hs.not_sent, .inl ⟨e, rfl, rfl, fun j x => hs.not_stored⟩⟩
  obtain ⟨rule, hresp, hrule⟩ := ends_recordedAnswer h₁
  obtain ⟨rfl, hx⟩ := ends_executeDdbUpdate h₂
  refine ⟨fun m hm => ?_, ?_⟩
  · cases List.mem_singleton.1 (hs₁.sent_append.1 hm)
  rcases hx with ⟨e, rfl, rfl⟩ | ⟨new, rfl, hnew, rfl⟩
  · refine .inl ⟨e, rfl, rfl, fun j x hm => ?_⟩
    obtain ⟨u, hu, _⟩ := hs₁.stored_append.1 hm
    cases List.mem_singleton.1 hu
  · refine .inr ⟨resp, rule, new, rfl, hresp, hrule.mono fun _ => List.mem_append_left _, hnew, rfl,
      fun j x hm => ?_⟩
    obtain ⟨u, hu, hw⟩ := hs₁.stored_append.1 hm
    cases List.mem_singleton.1 hu
    exact Option.some.inj (hw.symm.trans (writes_responseRequest resp).response)

end

/-! ## A terminal status and its answer -/

/-- A record once the answer, if any, has been stored. -/
def answered (resp : Option V1ApiResponse) (r : Record) : Record := fun a =>
  match resp with
  | none   => r a
  | some x => (Dynamo.lastSet (T := DocumentMetadata.schema) a (responseRequest x).actions).or (r a)

/-- A run has written the status `s` to the record of `k`, which was then `new`; it has sent at
most `new`, and stored at most the answer `resp`. -/
structure Settles (env : EnvConfig) (k : String) (s : ProcessStatus) (info error : Option String)
    (w w' : World) (tr : List (Event sig)) (new : Record) (resp : Option V1ApiResponse) : Prop where
  sent   : ∀ m, Sent m tr → m = new
  stored : ∀ j x, Stored j x tr → resp = some x
  answer : ∀ x, resp = some x → ∃ rule, x = recordedAnswer env new s info error rule ∧
    RuleUsed w new tr rule
  left   : ∀ a, a ∉ methodAttrs → w'.record k a = answered resp new a

theorem answered_of_apply {resp : V1ApiResponse} {old new : Record}
    (h : (responseRequest resp).apply old = .ok new) : new = answered (some resp) old := by
  have hsets : Sets (responseRequest resp).actions := sets_set (sets_setOpt _)
  funext a
  exact Dynamo.Update.apply_setsOnly h hsets.setsOnly

section
variable {env : EnvConfig} {w w₁ w' : World} {tr : List (Event sig)} {k : String}

theorem isMute_of_writeOn {as : List DocumentMetadata} {op : Op} (h : IsWriteOn as k op)
    (has : DocumentMetadata.v1ApiResponseJson ∉ as) : op.isMute := by
  obtain ⟨u, hu, rfl⟩ := h
  exact Dynamo.lastSet_eq_none (hu.mono fun a ha he => has (he ▸ ha))

/-- The counters and the answers by method come after the answer. -/
theorem settles_rest {s : ProcessStatus} {d : Option ClassificationData} {error : Option String}
    {α : Type} {rest : Prog α} {r : Except Exc α} {new : Record}
    (hrest : All (fun (op : Op) => Apart op ∨ IsWriteOn methodAttrs k op) rest)
    (h : Ends system w₁ ((finalizeV1Response env k s d error).bind fun _ => rest) tr r w')
    (hnew : w₁.record k = new) :
    (∀ m, ¬ Sent m tr) ∧ ∃ resp, Settles env k s (d.bind (·.additionalInfo)) error w₁ w' tr new resp := by
  subst hnew
  rcases ends_bind_iff.1 h with ⟨e, rfl, he⟩ | ⟨u, w₂, tr₁, tr₂, h₁, h₂, rfl⟩
  · obtain ⟨hsent, ⟨_, _, rfl, hstored⟩ | ⟨_, _, _, hr, _⟩⟩ := ends_finalizeV1Response he
    · refine ⟨hsent, none, fun m hm => absurd hm (hsent m), fun j x hx => absurd hx (hstored j x),
        fun x hx => (by cases hx), fun a _ => rfl⟩
    · cases hr
  obtain ⟨hsent, ⟨_, hr, _⟩ | ⟨resp, rule, new, _, hresp, hrule, hnew, rfl, hstored⟩⟩ :=
    ends_finalizeV1Response h₁
  · cases hr
  have hmute : Mute tr₂ := fun ev hev => (h₂.ops hrest ev hev).elim isMute_of_apart
    fun hw => isMute_of_writeOn hw (by decide)
  have hns : ∀ m, ¬ Sent m (tr₁ ++ tr₂) := fun m hm =>
    (List.mem_append.1 hm).elim (hsent m) hmute.not_sent
  refine ⟨hns, some resp, fun m hm => absurd hm (hns m), fun j x hx => ?_, fun x hx => ?_,
    fun a ha => ?_⟩
  · rcases stored_append_iff.1 hx with hx | hx
    · rw [hstored j x hx]
    · exact absurd hx hmute.not_stored
  · cases hx
    exact ⟨rule, hresp, hrule.mono fun _ => List.mem_append_left _⟩
  · have hframe : All (fun (op : Op) => op.isElsewhere = true ∨ IsWriteOn methodAttrs k op) rest :=
      Effect.Prog.All.mono (fun _ ho => ho.imp_left fun h => h.1.1) hrest
    rw [steps_writesOn hframe h₂ ha, record_setRecord_self, answered_of_apply hnew]

theorem rest_writeMethodResponse (u : UpdateDdbRecord) (b : Option String)
    (result : Option ExtractionResult) (m : Option ExtractMethod) :
    All (fun (op : Op) => Apart op ∨ IsWriteOn methodAttrs u.objectKey op)
      ((incrementIfBatch b).bind fun _ => writeMethodResponse env u result m) := by
  refine all_bind (Effect.Prog.All.mono (fun _ => .inl) (apart_incrementIfBatch b)) fun _ => ?_
  cases m with
  | none => trivial
  | some m =>
    exact Effect.Prog.All.mono (fun _ h => h.imp_left apart_of_isRead)
      (makes_writeExtractMethodResponse ..)

theorem ends_writeStatusUnlessTerminal {u : UpdateDdbRecord} {r : Except Exc Bool}
    (h : Ends system w (writeStatusUnlessTerminal env u) tr r w') :
    (r ≠ .ok true ∧ w'.docs = w.docs ∧ Mute tr) ∨
      ∃ now timing new, r = .ok true ∧ TimingActions timing ∧
        (updateRequest env now u timing (some nonTerminalCondition)).apply (w.record u.objectKey)
          = .ok new ∧
        w'.docs = w.docs.put u.objectKey new ∧ (∀ m, Sent m tr → m = new) ∧
        ∀ j resp, ¬ Stored j resp tr := by
  unfold writeStatusUnlessTerminal at h
  rcases ends_tryCatch_iff.1 h with ⟨a, rfl, hok⟩ | ⟨e, w₁, tr₁, tr₂, herr, hret, rfl⟩
  · rcases ends_bind_iff.1 hok with ⟨e, he, _⟩ | ⟨x, w₁, tr₁, tr₂, h₁, h₂, rfl⟩
    · cases he
    obtain ⟨rfl, hr, rfl⟩ := ends_ret_iff.1 h₂
    cases hr
    rw [List.append_nil]
    rcases ends_updateDdb h₁ with ⟨e, he, _⟩ | ⟨now, timing, new, _, ht, hnew, hdocs, hsent, hstored⟩
    · cases he
    · exact .inr ⟨now, timing, new, rfl, ht, hnew, hdocs, hsent, hstored⟩
  · rcases ends_bind_iff.1 herr with ⟨e', he, herr⟩ | ⟨x, w₂, tr₃, tr₄, _, h₂, _⟩
    · cases he
      rcases ends_updateDdb herr with ⟨_, _, hdocs, hs⟩ | ⟨_, _, _, hr, _⟩
      · by_cases hc : e = .clientError .conditionalCheckFailedException
        · rw [if_pos hc] at hret
          obtain ⟨rfl, rfl, rfl⟩ := ends_ret_iff.1 hret
          rw [List.append_nil]
          exact .inl ⟨by simp, hdocs, hs⟩
        · rw [if_neg hc] at hret
          obtain ⟨rfl, rfl, rfl⟩ := ends_raise_iff.1 hret
          rw [List.append_nil]
          exact .inl ⟨by simp, hdocs, hs⟩
      · cases hr
    · cases (ends_ret_iff.1 h₂).2.1

/-- **A terminal write** leaves the table alone, or writes the status and stores the answer to it. -/
theorem settles_writeTerminalStatus {u : UpdateDdbRecord} {b : Option String}
    {result : Option ExtractionResult} {m : Option ExtractMethod} {r : Except Exc Unit}
    (hm : m ≠ some .ocrMapping) (h : Ends system w (writeTerminalStatus env u b result m) tr r w') :
    (w'.docs = w.docs ∧ Mute tr) ∨
      ∃ now timing new resp, TimingActions timing ∧
        (updateRequest env now u timing (some nonTerminalCondition)).apply (w.record u.objectKey)
          = .ok new ∧
        Settles env u.objectKey u.status (u.data.bind (·.additionalInfo)) u.errorMessage w w' tr new
          resp := by
  unfold writeTerminalStatus at h
  rw [if_neg hm] at h
  rcases ends_bind_iff.1 h with ⟨e, rfl, he⟩ | ⟨applied, w₁, tr₁, tr₂, h₁, h₂, rfl⟩
  · rcases ends_writeStatusUnlessTerminal he with ⟨_, hdocs, hs⟩ | ⟨_, _, _, hr, _⟩
    · exact .inl ⟨hdocs, hs⟩
    · cases hr
  rcases ends_writeStatusUnlessTerminal h₁ with
    ⟨hr, hdocs, hs⟩ | ⟨now, timing, new, hr, ht, hnew, hdocs, hsent, hstored⟩
  · have hf : applied = false := by
      cases applied with
      | false => rfl
      | true => exact absurd rfl hr
    subst hf
    obtain ⟨rfl, rfl, rfl⟩ := ends_ret_iff.1 h₂
    rw [List.append_nil]
    exact .inl ⟨hdocs, hs⟩
  · cases hr
    have hrec : w₁.record u.objectKey = new := by
      rw [World.record, hdocs, Dynamo.Table.put_item_self, Option.getD_some]
    obtain ⟨hns, resp, hsettles⟩ := settles_rest (rest_writeMethodResponse u b result m) h₂ hrec
    refine .inr ⟨now, timing, new, resp, ht, hnew, fun m hm => ?_, fun j x hx => ?_, fun x hx => ?_,
      hsettles.left⟩
    · rcases List.mem_append.1 hm with hm | hm
      · exact hsent m hm
      · exact absurd hm (hns m)
    · rcases stored_append_iff.1 hx with hx | hx
      · exact absurd hx (hstored j x)
      · exact hsettles.stored j x hx
    · obtain ⟨rule, hresp, hrule⟩ := hsettles.answer x hx
      exact ⟨rule, hresp, (hrule.of_rules (steps_rules h₁)).mono fun _ => List.mem_append_right _⟩

/-- `upsert_ddb` sends the record it leaves, when its status is classified. -/
theorem ends_upsertDdb {data : InitialDdbRecord} {r : Except Exc Unit}
    (h : Ends system w (upsertDdb env data) tr r w') :
    (∀ j x, ¬ Stored j x tr) ∧
      (∀ m, Sent m tr → r = .ok () ∧ data.processStatus.isClassified = true ∧
        m = w'.record data.objectKey) ∧
      (r = .ok () → ∃ now mid, (upsertRequest now data).apply (w.record data.objectKey) = .ok mid ∧
        ∀ a, a ∉ [DocumentMetadata.tokensByModel] → w'.record data.objectKey a = mid a) := by
  unfold upsertDdb at h
  rcases ends_reads_bind (reads_call rfl) h with
    ⟨e, rfl, _, rfl, hs⟩ | ⟨now, tr₁, tr₂, _, h₂, rfl, hs₁⟩
  · exact ⟨fun _ _ => hs.not_stored, fun m hm => absurd hm hs.not_sent, fun hr => by cases hr⟩
  have hu := (writes_upsertRequest data now).response
  rcases ends_bind_iff.1 h₂ with ⟨e, rfl, he⟩ | ⟨u, w₁, tr₃, tr₄, h₃, h₄, rfl⟩
  · obtain ⟨rfl, _⟩ := ends_executeDdbUpdate he
    have hs : Mute (tr₁ ++ [⟨.updateItem data.objectKey (upsertRequest now data), .error e⟩]) :=
      mute_append.2 ⟨hs₁, mute_update hu⟩
    exact ⟨fun _ _ => hs.not_stored, fun m hm => absurd hm hs.not_sent, fun hr => by cases hr⟩
  obtain ⟨rfl, ⟨_, hr, _⟩ | ⟨mid, _, hmid, rfl⟩⟩ := ends_executeDdbUpdate h₃
  · cases hr
  have hs₃ : Mute (tr₁ ++ [⟨.updateItem data.objectKey (upsertRequest now data), .ok u⟩]) :=
    mute_append.2 ⟨hs₁, mute_update hu⟩
  have htokens := makes_writeInitialTokens data.objectKey data.preClassification
  have hmute : ∀ {q : Prog Unit} {tr₅ : List (Event sig)} {w₂ : World},
      Steps system (w.setRecord data.objectKey mid)
        (writeInitialTokens data.objectKey data.preClassification) tr₅ q w₂ → Mute tr₅ :=
    fun hx ev hev => (hx.ops htokens ev hev).elim isMute_of_isRead
      fun hw => isMute_of_writeOn hw (by decide)
  rw [← List.append_assoc]
  rcases ends_bind_iff.1 h₄ with ⟨e, rfl, he⟩ | ⟨x, w₂, tr₅, tr₆, h₅, h₆, rfl⟩
  · have hs := mute_append.2 ⟨hs₃, hmute he⟩
    exact ⟨fun _ _ => hs.not_stored, fun m hm => absurd hm hs.not_sent, fun hr => by cases hr⟩
  obtain ⟨rfl, hdocs, hsent, hstored⟩ := ends_sendIfClassified h₆
  refine ⟨fun j x hx => ?_, fun m hm => ?_, fun _ => ⟨now, mid, hmid, fun a ha => ?_⟩⟩
  · exact hstored j x ((hmute h₅).stored_append.1 (hs₃.stored_append.1 hx))
  · obtain ⟨hc, rfl⟩ := hsent m ((hmute h₅).sent_append.1 (hs₃.sent_append.1 hm))
    exact ⟨rfl, hc, (record_congr hdocs _).symm⟩
  · have hframe : All (fun (op : Op) => op.isElsewhere = true ∨
        IsWriteOn [.tokensByModel] data.objectKey op)
        (writeInitialTokens data.objectKey data.preClassification) :=
      Effect.Prog.All.mono (fun _ ho => ho.imp_left fun h => (apart_of_isRead h).1.1) htokens
    rw [record_congr hdocs, steps_writesOn hframe h₅ ha, record_setRecord_self]

/-- **The checks before extraction** end without a terminal status, or write it and store the
answer to it. -/
theorem settles_upsertInitialDdbRecord {doc : FetchedDocument} {t : Option String} {day : Option Day}
    {r : Except Exc (Option PreExtractionResult)}
    (h : Ends system w (upsertInitialDdbRecord env doc t day) tr r w') :
    (∀ m, ¬ Sent m tr) ∧ (∀ j x, ¬ Stored j x tr) ∨
      ∃ now data mid new resp, data.objectKey = doc.ddbKey ∧
        data.processStatus.isPreExtraction = true ∧ data.processStatus.isClassified = true ∧
        (upsertRequest now data).apply (w.record doc.ddbKey) = .ok mid ∧
        (∀ a, a ∉ [DocumentMetadata.tokensByModel] → new a = mid a) ∧
        Settles env doc.ddbKey data.processStatus none none w w' tr new resp := by
  unfold upsertInitialDdbRecord at h
  rcases ends_reads_bind (reads_selectDocument doc t) h with
    ⟨_, rfl, _, rfl, hs⟩ | ⟨selection, tr₁, tr₂, _, h₂, rfl, hs₁⟩
  · exact .inl ⟨fun _ => hs.not_sent, fun _ _ => hs.not_stored⟩
  have hcheck := apart_checkBeforeExtraction env doc t day selection
  have hapart : ∀ {q : Prog PreExtraction} {tr₃ : List (Event sig)} {w₁ : World},
      Steps system w (checkBeforeExtraction env doc t day selection) tr₃ q w₁ → Mute tr₃ :=
    fun hx ev hev => isMute_of_apart (hx.ops hcheck.all ev hev)
  rcases ends_bind_iff.1 h₂ with ⟨e, rfl, he⟩ | ⟨pre, w₁, tr₃, tr₄, h₃, h₄, rfl⟩
  · have hs := mute_append.2 ⟨hs₁, hapart he⟩
    exact .inl ⟨fun _ => hs.not_sent, fun _ _ => hs.not_stored⟩
  have hpre := Effect.ends_of_spec hcheck h₃
  have hdocs : w₁.docs = w.docs :=
    steps_docs (Effect.Prog.All.mono (fun _ h => h.1.1) hcheck.all) h₃
  rcases ends_reads_bind (reads_initialResponse doc pre) h₄ with
    ⟨_, rfl, _, rfl, hs⟩ | ⟨response, tr₅, tr₆, _, h₆, rfl, hs₅⟩
  · have hs := mute_append.2 ⟨hs₁, mute_append.2 ⟨hapart h₃, hs⟩⟩
    exact .inl ⟨fun _ => hs.not_sent, fun _ _ => hs.not_stored⟩
  have hmute : Mute (tr₁ ++ (tr₃ ++ tr₅)) :=
    mute_append.2 ⟨hs₁, mute_append.2 ⟨hapart h₃, hs₅⟩⟩
  rw [show tr₁ ++ (tr₃ ++ (tr₅ ++ tr₆)) = (tr₁ ++ (tr₃ ++ tr₅)) ++ tr₆ by simp]
  rcases ends_bind_iff.1 h₆ with ⟨e, rfl, he⟩ | ⟨x, w₂, tr₇, tr₈, h₇, h₈, rfl⟩
  · obtain ⟨hstored, hsent, _⟩ := ends_upsertDdb he
    refine .inl ⟨fun m hm => ?_, fun j x hx => hstored j x (hmute.stored_append.1 hx)⟩
    cases (hsent m (hmute.sent_append.1 hm)).1
  obtain ⟨hstored, hsent, hmid⟩ := ends_upsertDdb h₇
  obtain ⟨now, mid, hmid, hleft⟩ := hmid rfl
  by_cases hc : pre.continues = true
  · rw [if_pos hc] at h₈
    obtain ⟨rfl, _, _⟩ := ends_ret_iff.1 h₈
    rw [List.append_nil]
    refine .inl ⟨fun m hm => ?_, fun j x hx => hstored j x (hmute.stored_append.1 hx)⟩
    have hclass := (hsent m (hmute.sent_append.1 hm)).2.1
    exact absurd ((not_isClassified_of_continues hpre hc).symm.trans hclass) Bool.false_ne_true
  · rw [if_neg hc] at h₈
    have hrest : All (fun (op : Op) => Apart op ∨ IsWriteOn methodAttrs doc.ddbKey op)
        (.ret none : Prog (Option PreExtractionResult)) := trivial
    obtain ⟨hns, resp, hsettles⟩ := settles_rest hrest h₈ rfl
    refine .inr ⟨now, initialRecord env doc selection pre response, mid, _, resp, rfl, hpre.initial,
      isClassified_of_not_continues hpre.initial hc, ?_, hleft,
      fun m hm => ?_, fun j x hx => ?_, fun x hx => ?_, hsettles.left⟩
    · rw [← record_congr hdocs]
      exact hmid
    · rcases List.mem_append.1 (hmute.sent_append.1 hm) with hm | hm
      · exact (hsent m hm).2.2
      · exact absurd hm (hns m)
    · rcases stored_append_iff.1 (hmute.stored_append.1 hx) with hx | hx
      · exact absurd hx (hstored j x)
      · exact hsettles.stored j x hx
    · obtain ⟨rule, hresp, hrule⟩ := hsettles.answer x hx
      refine ⟨rule, hresp, (hrule.of_rules ((steps_rules h₇).trans (steps_rules h₃))).mono fun ev hev => ?_⟩
      exact List.mem_append_right _ (List.mem_append_right _ hev)

end

end DocumentAi
