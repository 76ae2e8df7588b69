import DocumentAi.Footprint.Ai
import DocumentAi.Lib.Protocol
import DocumentAi.Runs.TerminalStatus
import Mathlib.Tactic.IntervalCases

/-!
# Is the claim a lock?

`set_processing_status_started` moves a record from the status it was read in to `STARTED` in one
conditional update, and only its winner goes on to extraction. It excludes others as long as
nothing puts the record back to a status that can be claimed; the processor's own upsert does.

| here | meaning |
| --- | --- |
| `isClaim k`       | the event of a successful claim of `k` |
| `reopens k c m`   | `m` unconditionally writes a claimable status to `k` after a claim |
| `ClaimedOnce k c` | at most one invocation has claimed `k`, and only it has called an extractor |
| `claimProtocol k` | extraction calls of a processor of `k` come after its claim |
-/

namespace DocumentAi

open Effect (play Along Event Protocol getElem?_set_cases getElem?_concat_cases)
open Effect.Prog (spec_bind spec_tryCatch spec_ite all_bind)

/-- The AI calls that extract a document: Textract, its supplement, the OCR layout, and BDA. -/
def AiCall.isExtraction : AiCall → Bool
  | .analyzeDocumentLayout _ | .analyzeId _ | .supplementalExtraction ..
  | .invokeDataAutomationAsync .. => true
  | _ => false

/-- A successful conditional write of `STARTED`: by `docWrite_claim` this is a claim. -/
def isClaim (k : String) : Event sig → Bool
  | ⟨.updateItem j u, .ok _⟩ => j == k && u.cond.isSome && statusWrite u == some .started
  | _ => false

def isExtractionEvent (ev : Event sig) : Bool :=
  match ev.op with
  | .ai c => c.isExtraction
  | _     => false

def claimed (k : String) (t : Thread) : Bool := t.trace.any (isClaim k)

def extracted (t : Thread) : Bool := t.trace.any isExtractionEvent

/-- The document processor on an object whose record is `k`. -/
def Entry.processes (k : String) : Entry → Bool
  | .processor _ key _ => basename key.2 == k
  | _                  => false

/-- At most one invocation has claimed `k`, and no processor of `k` has called an extractor without
having claimed `k`. -/
structure ClaimedOnce (k : String) (c : Config) : Prop where
  unique  : ∀ (i j : Nat) (s t : Thread), c.threads[i]? = some s → c.threads[j]? = some t →
    claimed k s = true → claimed k t = true → i = j
  extract : ∀ t ∈ c.threads, t.entry.processes k = true → extracted t = true → claimed k t = true

/-- A claimable status is written to `k` without a condition after `k` has been claimed. -/
def reopens (k : String) (c : Config) (m : Move) : Bool :=
  match (passes c m).bind unconditionalWrite with
  | some (j, s) =>
    j == k && !s.isClassified && s != .started && c.threads.any (claimed k)
  | none        => false

/-! ## Extraction comes after the claim -/

/-- The local state says whether extraction is allowed. -/
def claimProtocol (k : String) : Protocol sig where
  State          := Bool
  allow s op     := ∀ c : AiCall, op = .ai c → c.isExtraction = true → s = true
  possible _ _ _ := True
  next s op ans  := s || isClaim k ⟨op, ans⟩

section
variable {k : String} {α : Type}

abbrev Claims (k : String) (s : Bool) (p : Prog α) : Prop :=
  (claimProtocol k).Obeys (fun _ _ => True) (fun _ _ => True) s p

theorem claims_of_claimed (p : Prog α) : Claims k true p :=
  (Protocol.obeys_of_free (R := claimProtocol k) (I := fun s => s = true)
    (fun s op hs => ⟨fun _ _ _ => hs, fun r => by simp [claimProtocol, hs]⟩) rfl p).mono
    (fun _ _ _ => trivial) fun _ _ _ => trivial

/-- Neither of the two is an extraction call. -/
abbrev Extractionless (p : Prog α) : Prop := AiOnly (fun c => c.isExtraction = false) p

theorem claims_of_extractionless {p : Prog α} (h : Extractionless p) (s : Bool) :
    Claims k s p :=
  (Protocol.obeys_of_spec (R := claimProtocol k) (fun s op ho c hc hx => by
    rw [ho c hc] at hx
    cases hx) h s).mono (fun _ _ _ => trivial) fun _ _ _ => trivial

theorem claims_bind {β : Type} {s : Bool} {p : Prog α} {f : α → Prog β} (hp : Extractionless p)
    (hf : ∀ s a, Claims k s (f a)) : Claims k s (p.bind f) :=
  Protocol.obeys_bind (claims_of_extractionless hp s) fun s a _ => hf s a

theorem claims_setProcessingStatusStarted (e : ProcessStatus) (s : Bool) :
    (claimProtocol k).Obeys (fun s b => b = true → s = true) (fun _ _ => True) s
      (setProcessingStatusStarted k e) := by
  refine Protocol.obeys_tryCatch (F := fun _ _ => True) ?_ fun s e _ => ?_
  · refine Protocol.obeys_bind (Q := fun s _ => s = true) ?_ fun s _ hs => fun _ => hs
    refine Protocol.obeys_perform (fun c h => by cases h) (fun r _ => ?_) fun _ _ => trivial
    have hclaim : isClaim k ⟨.updateItem k (claimRequest e), .ok r⟩ = true := by
      change (k == k && true && statusWrite (claimRequest e) == some .started) = true
      rw [(writes_claimRequest e).status, beq_self_eq_true]
      rfl
    simp [claimProtocol, hclaim]
  · split
    · exact fun h => by cases h
    · trivial

theorem checksDocument_not_extraction {env : EnvConfig} {b : Bytes} {t : String} {c : AiCall}
    (h : ChecksDocument env b t c) : c.isExtraction = false := by cases h <;> rfl

theorem claims_dispatchDocumentProcessor (env : EnvConfig) (doc : FetchedDocument)
    (p : PreclassifyResult) (s : Bool) :
    Claims doc.ddbKey s (dispatchDocumentProcessor env doc p) := by
  unfold dispatchDocumentProcessor
  split
  · exact claims_of_extractionless (aiFree_classifyWith ..) s
  · split
    next e g _ _ =>
      refine claims_bind (aiFree_rejectIfNotNative env doc) fun s rejected => ?_
      split
      · trivial
      · split
        · exact claims_of_extractionless (aiFree_classifyWith ..) s
        · refine Protocol.obeys_bind (claims_setProcessingStatusStarted e s) fun s b hb => ?_
          cases b with
          | true => rw [hb rfl]; exact claims_of_claimed _
          | false => trivial
    next => trivial

theorem claims_processorHandler (env : EnvConfig) (key : S3Key) (cold : Bool) (s : Bool) :
    Claims (basename key.2) s (processorHandler env key cold) := by
  refine Protocol.obeys_tryCatch (F := fun _ _ => True) ?_ fun s e _ => ?_
  · refine claims_bind (aiFree_call fun _ h => by cases h) fun s t => ?_
    refine Protocol.obeys_bind (Q := fun _ doc => doc.ddbKey = basename key.2) ?_ fun s doc hdoc => ?_
    · refine Protocol.obeys_bind (Q := fun _ _ => True) ?_ fun s o _ => ?_
      · exact claims_of_extractionless (aiFree_call fun _ h => by cases h) s
      · rfl
    · refine claims_bind (reads_getDdbRecord _).quiet.aiOnly fun s r => ?_
      refine claims_bind ((aiOnly_preclassify env doc r).mono fun _ => checksDocument_not_extraction)
        fun s p => hdoc ▸ claims_dispatchDocumentProcessor env doc p s
  · refine claims_bind ?_ fun s _ => trivial
    refine spec_tryCatch (all_bind (reads_getDdbRecord _).quiet.aiOnly fun r => ?_) fun _ => trivial
    exact aiFree_classifyWith ..

end

/-! ## The lock -/

section
variable {k : String}

/-- Every call is allowed to the other handlers: they call no extractor. -/
abbrev claimLoc (k : String) (t : Thread) : Bool :=
  (claimProtocol k).loc (fun e => !Entry.processes k e) t

theorem claimLoc_eq (t : Thread) : claimLoc k t = (!t.entry.processes k || claimed k t) := by
  obtain ⟨e, p, trace, crashed⟩ := t
  induction trace with
  | nil => exact (Bool.or_false _).symm
  | cons ev trace ih =>
    have hstep : claimLoc k ⟨e, p, ev :: trace, crashed⟩ =
        (claimLoc k ⟨e, p, trace, crashed⟩ || isClaim k ev) := rfl
    rw [hstep, ih]
    simp only [claimed, List.any_cons]
    cases isClaim k ev <;> simp

theorem claims_body (k : String) (e : Entry) :
    Claims k (!e.processes k) e.body := by
  by_cases h : e.processes k = true
  · cases e with
    | processor env key cold =>
      obtain rfl : basename key.2 = k := by simpa [Entry.processes] using h
      exact claims_processorHandler env key cold _
    | _ => cases h
  · rw [Bool.not_eq_true] at h
    rw [h]
    exact claims_of_claimed _

/-- What holds in every state of a run that never reopens `k`. -/
structure ClaimInv (k : String) (c : Config) : Prop extends ClaimedOnce k c where
  requests : c.All OnSomeDoc
  locked   : c.threads.any (claimed k) = true → ∃ s, (c.world.record k).status = some s ∧
    (s = .started ∨ s.isClassified = true)

theorem claimed_resume (t : Thread) {op : Op} (κ : sig.Ans op → Prog Unit) (ans : sig.Ans op) :
    claimed k (t.resume κ ans) = (isClaim k ⟨op, ans⟩ || claimed k t) := rfl

theorem isClaim_eq_true {op : Op} {ans : sig.Ans op} (h : isClaim k ⟨op, ans⟩ = true) :
    ∃ u, op = .updateItem k u ∧ HEq ans (.ok () : sig.Ans (.updateItem k u)) ∧ u.cond ≠ none ∧
      statusWrite u = some .started := by
  unfold isClaim at h
  split at h
  next j u r he =>
    cases he
    simp only [Bool.and_eq_true, beq_iff_eq, Option.isSome_iff_ne_none] at h
    obtain ⟨⟨rfl, hc⟩, hs⟩ := h
    exact ⟨u, rfl, HEq.rfl, hc, hs⟩
  next => cases h

/-- A claim lands only on a record whose status can be claimed, so only before any other claim. -/
theorem claim_unclaimed {c : Config} (hI : ClaimInv k c) {i : Nat} {t : Thread} {op : Op}
    {κ : sig.Ans op → Prog Unit} {ch : Choice} {ans : sig.Ans op} {w' : World}
    (hn : c.Next i t op κ) (hx : World.exec c.world op ch = some (ans, w'))
    (hc : isClaim k ⟨op, ans⟩ = true) :
    c.threads.any (claimed k) = false ∧ (w'.record k).status = some .started := by
  obtain ⟨u, rfl, _, hcond, hs⟩ := isClaim_eq_true hc
  have hdoc := docWrite_of_updateItem (hI.requests.next hn)
  obtain ⟨e, he, hne, rfl⟩ := docWrite_claim hdoc hs hcond
  rcases exec_updateItem hx with ⟨e, rfl, _⟩ | ⟨new, rfl, _, hnew, rfl⟩
  · cases hc
  · have hstatus : (c.world.record k).status = some e := by
      have := (Dynamo.Update.apply_eq_ok hnew).1
      change ((c.world.record k).status.any fun s => s == e) = true at this
      obtain ⟨s, hs, hse⟩ := (Option.any_eq_true _ _).1 this
      rw [hs, eq_of_beq hse]
    refine ⟨?_, ?_⟩
    · rw [← Bool.not_eq_true]
      intro h
      obtain ⟨s, hs, hlock⟩ := hI.locked h
      rw [hstatus] at hs
      cases hs
      rcases hlock with h | h
      · exact hne h
      · rw [he] at h; cases h
    · rw [record_setRecord_self]
      exact (writes_claimRequest e).status_eq hnew

/-- Once claimed, the record stays `STARTED` or classified unless it is reopened. -/
theorem locked_step {c : Config} (hI : ClaimInv k c) {i : Nat} {t : Thread} {op : Op}
    {κ : sig.Ans op → Prog Unit} {ch : Choice} {ans : sig.Ans op} {w' : World}
    (hn : c.Next i t op κ) (hx : World.exec c.world op ch = some (ans, w'))
    (hr : reopens k c (.act i ch) = false) (hc : c.threads.any (claimed k) = true) :
    ∃ s, (w'.record k).status = some s ∧ (s = .started ∨ s.isClassified = true) := by
  obtain ⟨s, hs, hlock⟩ := hI.locked hc
  obtain ⟨j, hj | hj⟩ := hI.requests.next hn
  · exact ⟨s, (record_congr ((exec_frame hx).docs hj) k).symm ▸ hs, hlock⟩
  · obtain ⟨u, rfl⟩ := docWrite_updateItem hj
    rcases exec_updateItem hx with ⟨e, _, rfl⟩ | ⟨new, rfl, hf, hnew, rfl⟩
    · exact ⟨s, hs, hlock⟩
    · by_cases hjk : k = j
      · subst hjk
        rw [record_setRecord_self, docWrite_status hj hnew]
        cases hw : statusWrite u with
        | none => exact ⟨s, hs, hlock⟩
        | some s' =>
          refine ⟨s', rfl, ?_⟩
          by_contra hcon
          rw [not_or, Bool.not_eq_true] at hcon
          have hu := docWrite_reopens hj hw hcon.2 hcon.1
          have hpass : passes c (.act i ch) = some (.updateItem k u) :=
            passes_eq_some.2 ⟨i, ch, t, κ, rfl, hf, hn⟩
          have hwrite : unconditionalWrite (.updateItem k u) = some (k, s') :=
            unconditionalWrite_eq_some.2 ⟨u, rfl, hu, hw⟩
          simp [reopens, hpass, hwrite, hcon, hc] at hr
      · rw [record_setRecord_ne _ _ hjk]
        exact ⟨s, hs, hlock⟩

theorem claimInv_start {c : Config} (hI : ClaimInv k c) (e : Entry) :
    ClaimInv k { c with threads := c.threads ++ [Effect.Thread.init e] } := by
  have hold : ∀ {j : Nat} {s : Thread}, (c.threads ++ [Effect.Thread.init e])[j]? = some s →
      claimed k s = true → c.threads[j]? = some s := by
    intro j s hs hc
    rcases getElem?_concat_cases hs with hs | rfl
    · exact hs
    · cases hc
  refine ⟨⟨?_, ?_⟩, ?_, ?_⟩
  · intro i j s t hs ht hcs hct
    exact hI.unique i j s t (hold hs hcs) (hold ht hct) hcs hct
  · intro t ht hp hx
    rcases List.mem_append.1 ht with ht | ht
    · exact hI.extract t ht hp hx
    · rw [List.mem_singleton.1 ht] at hx
      cases hx
  · exact hI.requests.move body_onSomeDoc (m := .start e) rfl
  · intro hany
    have hnew : [Effect.Thread.init (P := system) e].any (claimed k) = false := rfl
    rw [List.any_append, hnew, Bool.or_false] at hany
    exact hI.locked hany

theorem claimInv_crash {c : Config} (hI : ClaimInv k c) {i : Nat} {t : Thread}
    (ht : c.threads[i]? = some t) :
    ClaimInv k { c with threads := c.threads.set i { t with crashed := true } } := by
  have hold : ∀ {j : Nat} {s : Thread}, (c.threads.set i { t with crashed := true })[j]? = some s →
      ∃ s', c.threads[j]? = some s' ∧ s.entry = s'.entry ∧ s.trace = s'.trace := by
    intro j s hs
    rcases getElem?_set_cases hs with ⟨rfl, rfl⟩ | ⟨_, hs⟩
    · exact ⟨t, ht, rfl, rfl⟩
    · exact ⟨s, hs, rfl, rfl⟩
  refine ⟨⟨?_, ?_⟩, ?_, ?_⟩
  · intro j₁ j₂ s₁ s₂ h₁ h₂ hc₁ hc₂
    obtain ⟨t₁, ht₁, _, e₁⟩ := hold h₁
    obtain ⟨t₂, ht₂, _, e₂⟩ := hold h₂
    exact hI.unique j₁ j₂ t₁ t₂ ht₁ ht₂ (by rwa [claimed, ← e₁]) (by rwa [claimed, ← e₂])
  · intro s hs hp hx
    obtain ⟨j, hj⟩ := List.mem_iff_getElem?.1 hs
    obtain ⟨s', hs', he, htr⟩ := hold hj
    rw [claimed, htr]
    exact hI.extract s' (List.mem_of_getElem? hs') (he ▸ hp) (by rwa [extracted, ← htr])
  · refine hI.requests.move body_onSomeDoc (m := .crash i) ?_
    simp only [Effect.move, ht, Option.map_some]
  · intro hany
    obtain ⟨s, hs, hc⟩ := List.any_eq_true.1 hany
    obtain ⟨j, hj⟩ := List.mem_iff_getElem?.1 hs
    obtain ⟨s', hs', _, htr⟩ := hold hj
    exact hI.locked (List.any_eq_true.2 ⟨s', List.mem_of_getElem? hs', by rwa [claimed, ← htr]⟩)

theorem extracted_resume (t : Thread) {op : Op} (κ : sig.Ans op → Prog Unit) (ans : sig.Ans op) :
    extracted (t.resume κ ans) = (isExtractionEvent ⟨op, ans⟩ || extracted t) := rfl

theorem claimInv_act {c : Config} (hI : ClaimInv k c) {i : Nat} {t : Thread} {op : Op}
    {κ : sig.Ans op → Prog Unit} {ch : Choice} {ans : sig.Ans op} {w' : World}
    (hn : c.Next i t op κ) (hx : World.exec c.world op ch = some (ans, w'))
    (hallow : (claimProtocol k).allow (claimLoc k t) op)
    (hr : reopens k c (.act i ch) = false) :
    ClaimInv k { world := w', threads := c.threads.set i (t.resume κ ans) } := by
  have ht : c.threads[i]? = some t := hn.1
  have hpass : (t.resume κ ans).entry = t.entry := rfl
  refine ⟨⟨?_, ?_⟩, hI.requests.move body_onSomeDoc (hn.move hx), ?_⟩
  · intro j₁ j₂ s₁ s₂ h₁ h₂ hc₁ hc₂
    by_cases hclaim : isClaim k ⟨op, ans⟩ = true
    · have hnone := (claim_unclaimed hI hn hx hclaim).1
      have hi : ∀ {j : Nat} {s : Thread}, (c.threads.set i (t.resume κ ans))[j]? = some s →
          claimed k s = true → j = i := by
        intro j s hs hc
        rcases getElem?_set_cases hs with ⟨rfl, _⟩ | ⟨_, hs⟩
        · rfl
        · exact absurd (List.any_eq_true.2 ⟨s, List.mem_of_getElem? hs, hc⟩) (by simp [hnone])
      rw [hi h₁ hc₁, hi h₂ hc₂]
    · have hold : ∀ {j : Nat} {s : Thread}, (c.threads.set i (t.resume κ ans))[j]? = some s →
          claimed k s = true → ∃ s' : Thread, c.threads[j]? = some s' ∧ claimed k s' = true := by
        intro j s hs hc
        rcases getElem?_set_cases hs with ⟨rfl, rfl⟩ | ⟨_, hs⟩
        · rw [claimed_resume, Bool.eq_false_iff.2 hclaim, Bool.false_or] at hc
          exact ⟨t, ht, hc⟩
        · exact ⟨s, hs, hc⟩
      obtain ⟨t₁, ht₁, hc₁⟩ := hold h₁ hc₁
      obtain ⟨t₂, ht₂, hc₂⟩ := hold h₂ hc₂
      exact hI.unique j₁ j₂ t₁ t₂ ht₁ ht₂ hc₁ hc₂
  · intro s hs hp he
    rcases List.mem_or_eq_of_mem_set hs with hs | rfl
    · exact hI.extract s hs hp he
    · rw [claimed_resume]
      rw [extracted_resume, Bool.or_eq_true] at he
      rcases he with he | he
      · have hloc : claimLoc k t = true := by
          unfold isExtractionEvent at he
          split at he
          next c hop => exact hallow c hop he
          next => cases he
        rw [claimLoc_eq, show t.entry.processes k = true from hp] at hloc
        rw [show claimed k t = true by simpa using hloc, Bool.or_true]
      · rw [hI.extract t (List.mem_of_getElem? ht) hp he, Bool.or_true]
  · intro hany
    by_cases hclaim : isClaim k ⟨op, ans⟩ = true
    · exact ⟨.started, (claim_unclaimed hI hn hx hclaim).2, .inl rfl⟩
    · refine locked_step hI hn hx hr ?_
      obtain ⟨s, hs, hc⟩ := List.any_eq_true.1 hany
      rcases List.mem_or_eq_of_mem_set hs with hs | rfl
      · exact List.any_eq_true.2 ⟨s, hs, hc⟩
      · rw [claimed_resume, Bool.eq_false_iff.2 hclaim, Bool.false_or] at hc
        exact List.any_eq_true.2 ⟨t, List.mem_of_getElem? ht, hc⟩

/-- **The claim is a lock in every run that never reopens the record**: at most one invocation
claims it, and only that one calls an extractor. -/
theorem claimedOnce_of_not_reopened {w : World} {ms : List Move} {c : Config}
    (h : play (.init w) ms = some c) (hr : Along (fun c m => reopens k c m = false) (.init w) ms) :
    ClaimedOnce k c := by
  have hstart : ClaimInv k (.init w) :=
    ⟨⟨fun _ _ _ _ h => (by cases h), fun _ h => (by cases h)⟩, Effect.Config.all_init _ w,
      fun h => (by cases h)⟩
  refine (Protocol.protocol_inv (R := claimProtocol k) (fun e => !Entry.processes k e)
    (J := ClaimInv k) (claims_body k) (fun c e hI _ => claimInv_start hI e) ?_
    (fun c i t hI _ ht => claimInv_crash hI ht) (fun _ h => by cases h) hstart hr h).2.toClaimedOnce
  intro c i ch t op κ ans w' hI _ hφ hn hallow hx
  exact ⟨trivial, claimInv_act hI hn hx hallow hφ⟩

end

/-! ## One event delivered twice -/

/-- The two deliveries of the sample document's event, one after the other. -/
def repeatedRun : List Move :=
  .start (.processor sampleEnv sampleKey false) :: acts 17 0
    ++ .start (.processor sampleEnv sampleKey false) :: acts 3 1

set_option maxRecDepth 10000 in
/-- The second delivery finds `STARTED` and stops. -/
theorem claimedOnce_repeatedRun : ∃ c, play (.init sampleWorld) repeatedRun = some c ∧
    ClaimedOnce "scan-1.pdf" c ∧ c.threads.map (claimed "scan-1.pdf") = [true, false] := by
  have hrun : (play (.init sampleWorld) repeatedRun).map
      (fun c => c.threads.map (claimed "scan-1.pdf")) = some [true, false] := by decide +kernel
  obtain ⟨c, hc, hclaims⟩ := Option.map_eq_some_iff.1 hrun
  exact ⟨c, hc, claimedOnce_of_not_reopened hc (by decide +kernel), hclaims⟩

/-- The second delivery reads the record before the first one's claim and upserts it after. -/
def overlappingRun : List Move :=
  .start (.processor sampleEnv sampleKey false) :: .start (.processor sampleEnv sampleKey false)
    :: acts 3 1 ++ acts 12 0 ++ acts 9 1 { ai := AiCall.plain "second" }

set_option maxRecDepth 10000 in
/-- Both claim the document, and both start a BDA job for it. -/
theorem claimedOnce_fails :
    ¬ ∀ k w ms c, play (.init w) ms = some c → ClaimedOnce k c := by
  intro hall
  have hrun : (play (.init sampleWorld) overlappingRun).map (fun c =>
      c.threads.map fun t => (claimed "scan-1.pdf" t, extracted t)) =
        some [(true, true), (true, true)] := by decide +kernel
  obtain ⟨c, hc, hclaims⟩ := Option.map_eq_some_iff.1 hrun
  have hthread : ∀ i < 2, ∃ t, c.threads[i]? = some t ∧ claimed "scan-1.pdf" t = true := by
    intro i hi
    have hi : (c.threads.map fun t => (claimed "scan-1.pdf" t, extracted t))[i]? =
        some (true, true) := by
      rw [hclaims]
      interval_cases i <;> rfl
    rw [List.getElem?_map] at hi
    obtain ⟨t, ht, hct⟩ := Option.map_eq_some_iff.1 hi
    exact ⟨t, ht, (Prod.mk.inj hct).1⟩
  obtain ⟨s, hs, hcs⟩ := hthread 0 (by decide)
  obtain ⟨t, ht, hct⟩ := hthread 1 (by decide)
  exact absurd ((hall _ _ _ c hc).unique 0 1 s t hs ht hcs hct) (by decide)

end DocumentAi
