import DocumentAi.Runs.StoredAnswer
import DocumentAi.Runs.UploadFacts

/-!
# The file name of an upload after the document processor

The upload route records the file name and gives it to S3 as metadata of the object; the processor
writes the name it finds there. A direct upload hands the name over as it is. A presigned form
percent-encodes it, and the processor does not decode it.

| here | meaning |
| --- | --- |
| `Uploaded w key m name` | the object at `key` and its record, as the route with method `m` leaves them |
| `ends_processorHandler_name` | the name on the record after the processor |
| `original_file_name_survives` | when it is the name the client gave |
-/

namespace DocumentAi

open Effect (Event Ends Steps ends_bind_ok ends_tryCatch_iff ends_perform_iff ends_ret_iff
  ends_raise_iff)
open Effect.Prog (All all_bind)

section
variable {α : Type} {p : Prog α} {k : String} {a : DocumentMetadata} {w w' : World}
  {tr : List (Event sig)} {r : Except Exc α}

/-- What belongs to the identity of a record changes by upserts only. -/
theorem exec_identity {op : Op} {ch : Choice} {ans : sig.Ans op} (ha : a ∈ identityAttrs)
    (hop : OnDocsOf False k op) (hx : w.exec op ch = some (ans, w')) :
    w'.record k a = w.record k a := by
  rcases hop with hop | hop
  · rw [record_congr ((exec_frame hx).docs hop.1)]
  · obtain ⟨u, rfl⟩ := docWrite_updateItem hop
    rcases exec_updateItem hx with ⟨e, _, rfl⟩ | ⟨new, _, _, hu, rfl⟩
    · rfl
    · rw [record_setRecord_self]
      exact Dynamo.Update.apply_frame hu (docWrite_targets ha hop)

theorem ends_identity (ha : a ∈ identityAttrs) (hp : All (OnDocsOf False k) p)
    (h : Ends system w p tr r w') : w'.record k a = w.record k a := by
  refine Steps.relate (P := system) (R := fun w _ w' => w'.record k a = w.record k a) (fun _ => rfl) ?_ hp h
  intro w w₁ w' op ch ans tr hop hx hrest
  rw [hrest, exec_identity ha hop hx]

end

/-! ## The processor -/

section
variable {env : EnvConfig} {doc : FetchedDocument} {key : S3Key} {cold : Bool} {w w' : World}
  {tr : List (Event sig)}

/-- The document that the processor fetches: its name is that of the object's metadata. -/
theorem ends_fetchDocument {startedAt : Timestamp}
    (h : Ends system w (fetchDocument key startedAt cold) tr (.ok doc) w') :
    ∃ obj, w.object key = some obj ∧ doc.ddbKey = basename key.2 ∧
      doc.originalFileName = obj.metadata.originalFileName.getD "" ∧ w' = w := by
  obtain ⟨obj, w₁, tr₁, tr₂, h₁, h₂, rfl⟩ := ends_bind_ok h
  obtain ⟨ch, hx, _⟩ := ends_perform_iff.1 h₁
  have hrun := exec_of_ok hx
  obtain ⟨_, hdoc, rfl⟩ := ends_ret_iff.1 h₂
  simp only [World.run, World.ok, World.raise] at hrun
  split at hrun
  next o ho =>
    cases hrun
    cases hdoc
    exact ⟨obj, ho, rfl, truthy_getD _, rfl⟩
  next => cases hrun

theorem ends_upsertInitialDdbRecord_name {t : Option String} {day : Option Day}
    {r : Option PreExtractionResult}
    (h : Ends system w (upsertInitialDdbRecord env doc t day) tr (.ok r) w') :
    (w'.record doc.ddbKey).originalFileName = some doc.originalFileName := by
  unfold upsertInitialDdbRecord at h
  obtain ⟨selection, w₁, tr₁, tr₂, _, h₂, rfl⟩ := ends_bind_ok h
  obtain ⟨pre, w₂, tr₃, tr₄, h₃, h₄, rfl⟩ := ends_bind_ok h₂
  have hpre := Effect.ends_of_spec (apart_checkBeforeExtraction env doc t day selection) h₃
  obtain ⟨response, w₃, tr₅, tr₆, _, h₆, rfl⟩ := ends_bind_ok h₄
  obtain ⟨u, w₄, tr₇, tr₈, h₇, h₈, rfl⟩ := ends_bind_ok h₆
  have hname : (w₄.record doc.ddbKey).originalFileName = some doc.originalFileName := by
    obtain ⟨now, mid, hmid, hleft⟩ := (ends_upsertDdb h₇).2.2 rfl
    exact (hleft .originalFileName (by decide)).trans (upsertRequest_originalFileName hmid)
  rw [← hname]
  refine ends_identity (by decide) ?_ h₈
  split
  · trivial
  next hc =>
    exact all_bind (onDocs_finalizeV1Response (isClassified_of_not_continues hpre.initial hc))
      fun _ => trivial

theorem ends_preclassify_name {existing : Option Record} {p : PreclassifyResult}
    (h : Ends system w (preclassify env doc existing) tr (.ok p) w') :
    (w'.record doc.ddbKey).originalFileName =
      if needsPreclassification existing then some doc.originalFileName
      else (w.record doc.ddbKey).originalFileName := by
  have hfresh : ∀ {t : Option String} {day : Option Day}
      {f : Option PreExtractionResult → Option Record → Prog PreclassifyResult},
      (∀ pre, ∃ e, f pre none = .raise e) → (∀ pre r, ∃ p, f pre (some r) = .ret p) →
      Ends system w ((upsertInitialDdbRecord env doc t day).bind fun pre =>
        (getDdbRecord doc.ddbKey).bind (f pre)) tr (.ok p) w' →
      (w'.record doc.ddbKey).originalFileName = some doc.originalFileName := by
    intro t day f hnone hsome h
    obtain ⟨pre, w₁, tr₁, tr₂, h₁, h₂, rfl⟩ := ends_bind_ok h
    obtain ⟨r, w₂, tr₃, tr₄, h₃, h₄, rfl⟩ := ends_bind_ok h₂
    obtain rfl : w₂ = w₁ := steps_reads (reads_getDdbRecord _) h₃
    rw [← ends_upsertInitialDdbRecord_name h₁]
    cases r with
    | none =>
      obtain ⟨e, he⟩ := hnone pre
      rw [he] at h₄
      cases h₄
    | some r =>
      obtain ⟨q, hq⟩ := hsome pre r
      rw [hq] at h₄
      obtain ⟨_, _, rfl⟩ := ends_ret_iff.1 h₄
      rfl
  cases existing with
  | none => exact hfresh (fun _ => ⟨_, rfl⟩) (fun _ _ => ⟨_, rfl⟩) h
  | some r =>
    unfold preclassify at h
    cases hn : needsPreclassification (some r) with
    | true =>
      rw [hn] at h
      exact hfresh (fun _ => ⟨_, rfl⟩) (fun _ _ => ⟨_, rfl⟩) h
    | false =>
      rw [hn] at h
      obtain ⟨_, _, rfl⟩ := ends_ret_iff.1 h
      rfl

/-- The name on the record after the processor: that of the object when the record still needs
preclassification, and otherwise the one it had. -/
theorem ends_processorHandler_name
    (h : Ends system w (processorHandler env key cold) tr (.ok ()) w') :
    ∃ obj, w.object key = some obj ∧ (w'.record (basename key.2)).originalFileName =
      if needsPreclassification (w.docs.item (basename key.2)) then
        some (obj.metadata.originalFileName.getD "")
      else (w.record (basename key.2)).originalFileName := by
  rcases ends_tryCatch_iff.1 h with ⟨_, _, hmain⟩ | ⟨e, w₁, tr₁, tr₂, _, hcatch, _⟩
  · unfold processorMain at hmain
    obtain ⟨t, w₁, tr₁, tr₂, h₁, h₂, rfl⟩ := ends_bind_ok hmain
    obtain rfl : w₁ = w := steps_reads (reads_call rfl) h₁
    obtain ⟨doc, w₂, tr₃, tr₄, h₃, h₄, rfl⟩ := ends_bind_ok h₂
    obtain ⟨obj, hobj, hkey, hname, rfl⟩ := ends_fetchDocument h₃
    obtain ⟨existing, w₃, tr₅, tr₆, h₅, h₆, rfl⟩ := ends_bind_ok h₄
    obtain rfl := ends_getDdbRecord h₅
    obtain rfl : w₃ = w₂ := steps_reads (reads_getDdbRecord _) h₅
    obtain ⟨p, w₄, tr₇, tr₈, h₇, h₈, rfl⟩ := ends_bind_ok h₆
    refine ⟨obj, hobj, ?_⟩
    rw [← hname, ← hkey, ← ends_preclassify_name h₇]
    exact ends_identity (by decide) (onDocs_dispatchDocumentProcessor env doc p rfl) h₈
  · -- what the handler catches it raises again
    obtain ⟨_, _, _, _, _, hraise, _⟩ := ends_bind_ok hcatch
    cases hraise

end

/-! ## The routes -/

/-- The object at `key` and its record, as the upload of `name` by the method `m` leaves them. -/
inductive Uploaded (w : World) (key : S3Key) : UploadMethod → String → Prop
  | direct (req : UploadRequest) (obj : S3Object) (ho : w.object key = some obj)
      (hm : obj.metadata = uploadMetadata req)
      (hr : (w.record (basename key.2)).originalFileName = some req.originalFileName) :
      Uploaded w key .direct req.originalFileName
  | presigned (form : PresignedForm) (hl : form.filename.length ≤ maxFilenameLength)
      (jobId traceId : String) (obj : S3Object) (ho : w.object key = some obj)
      (hm : obj.metadata = presignedMetadata form jobId traceId)
      (hr : (w.record (basename key.2)).originalFileName = some form.filename) :
      Uploaded w key .presigned form.filename

section
variable {env : EnvConfig} {auth : UserContext} {w w' : World} {tr : List (Event sig)}

theorem not_ends_throw {α : Type} {e : Exc} {a : α} :
    ¬ Ends system w (throw e : Prog α) tr (.ok a) w' := fun h => by
  obtain ⟨_, he, _⟩ := ends_raise_iff.1 h
  cases he

theorem ends_liftExcept_ok {α : Type} {x : Except Exc α} {a : α}
    (h : Ends system w (liftExcept x) tr (.ok a) w') : x = .ok a ∧ w' = w := by
  cases x with
  | ok b =>
    obtain ⟨_, hb, rfl⟩ := ends_ret_iff.1 h
    cases hb
    exact ⟨rfl, rfl⟩
  | error e => exact absurd h not_ends_throw

theorem ends_insertMinimalDdbRecord_name {record : DocumentRecord}
    (h : Ends system w (insertMinimalDdbRecord env record) tr (.ok ()) w') :
    (w'.record record.ddbKey).originalFileName = some record.originalFileName := by
  rw [insertMinimalDdbRecord_eq] at h
  obtain ⟨now, mid, hmid, hleft⟩ := (ends_upsertDdb h).2.2 rfl
  exact (hleft .originalFileName (by decide)).trans (upsertRequest_originalFileName hmid)

theorem ends_uploadDocumentForProcessing {req : UploadRequest}
    (h : Ends system w (uploadDocumentForProcessing env req) tr (.ok ()) w') :
    ∃ key obj, parseS3Uri req.destPath = .ok key ∧ w'.object key = some obj ∧
      obj.metadata = uploadMetadata req ∧ w'.docs = w.docs := by
  have hdocs : w'.docs = w.docs := steps_docs
    (Effect.Prog.All.mono (fun _ h => h.1) (elsewhere_uploadDocumentForProcessing env req)) h
  unfold uploadDocumentForProcessing at h
  obtain ⟨key, w₁, tr₁, tr₂, h₁, h₂, rfl⟩ := ends_bind_ok h
  obtain ⟨hkey, rfl⟩ := ends_liftExcept_ok h₁
  obtain ⟨_, w₂, tr₃, tr₄, _, h₄, rfl⟩ := ends_bind_ok h₂
  obtain ⟨_, w₃, tr₅, tr₆, _, h₆, rfl⟩ := ends_bind_ok h₄
  obtain ⟨converted, w₄, tr₇, tr₈, _, h₈, rfl⟩ := ends_bind_ok h₆
  rcases ends_tryCatch_iff.1 h₈ with ⟨_, _, hput⟩ | ⟨e, w₅, tr₉, tr₁₀, _, hraise, _⟩
  · obtain ⟨ch, hx, _⟩ := ends_perform_iff.1 hput
    have hrun := exec_of_ok hx
    simp only [World.run, Option.some.injEq, Prod.mk.injEq] at hrun
    refine ⟨key, ⟨.raw converted.1, some converted.2, uploadMetadata req⟩, hkey, ?_, rfl, hdocs⟩
    rw [← hrun.2]
    simp only [World.object, World.putObject, List.lookup_cons, beq_self_eq_true]
  · cases hraise

theorem ends_dispatchUpload {k : String} {req : UploadRequest}
    (h : Ends system w (dispatchUpload env k req) tr (.ok ()) w') :
    ∃ tr', Ends system w (uploadDocumentForProcessing env req) tr' (.ok ()) w' := by
  rcases ends_tryCatch_iff.1 h with ⟨_, _, hok⟩ | ⟨e, w₁, tr₁, tr₂, _, hcatch, _⟩
  · exact ⟨_, hok⟩
  · -- every branch of the handler raises
    cases e <;> obtain ⟨_, _, _, _, _, hraise, _⟩ := ends_bind_ok hcatch <;> cases hraise

/-- A direct upload that goes on to the processor leaves its object and its record so. -/
theorem uploaded_uploadDocument {form : UploadForm} {jobId : String}
    (h : Ends system w (uploadDocument env auth form) tr (.ok ⟨jobId, .notStarted⟩) w') :
    ∃ ddbKey key, generateUniqueFilename (form.file.filename.getD "") jobId = .ok ddbKey ∧
      parseS3Uri (destPath (uploadLocation env form.isDemo) auth.tenantId ddbKey) = .ok key ∧
      (basename key.2 = ddbKey → Uploaded w' key .direct (form.file.filename.getD "")) := by
  unfold uploadDocument at h
  obtain ⟨traceId, w₁, tr₁, tr₂, _, h₂, rfl⟩ := ends_bind_ok h
  obtain ⟨contentType, w₂, tr₃, tr₄, _, h₄, rfl⟩ := ends_bind_ok h₂
  obtain ⟨_, w₃, tr₅, tr₆, _, h₆, rfl⟩ := ends_bind_ok h₄
  obtain ⟨id, w₄, tr₇, tr₈, _, h₈, rfl⟩ := ends_bind_ok h₆
  obtain ⟨ddbKey, w₅, tr₉, tr₁₀, h₉, h₁₀, rfl⟩ := ends_bind_ok h₈
  obtain ⟨hkey, rfl⟩ := ends_liftExcept_ok h₉
  obtain ⟨_, w₆, tr₁₁, tr₁₂, h₁₁, h₁₂, rfl⟩ := ends_bind_ok h₁₀
  have hname : (w₆.record ddbKey).originalFileName = some (form.file.filename.getD "") := by
    rcases ends_tryCatch_iff.1 h₁₁ with ⟨_, _, hinsert⟩ | ⟨_, _, _, _, _, hraise, _⟩
    · exact ends_insertMinimalDdbRecord_name hinsert
    · cases hraise
  split at h₁₂
  · obtain ⟨_, _, _, _, _, hret, _⟩ := ends_bind_ok h₁₂
    obtain ⟨_, he, _⟩ := ends_ret_iff.1 hret
    cases he
  · rcases ends_tryCatch_iff.1 h₁₂ with ⟨_, hr, hok⟩ | ⟨e, _, _, _, _, hcatch, _⟩
    · obtain ⟨_, w₇, tr₁₃, tr₁₄, h₁₃, h₁₄, rfl⟩ := ends_bind_ok hok
      obtain ⟨_, he, rfl⟩ := ends_ret_iff.1 h₁₄
      cases hr
      cases he
      obtain ⟨_, hupload⟩ := ends_dispatchUpload h₁₃
      obtain ⟨key, obj, hdest, hobj, hmeta, hdocs⟩ := ends_uploadDocumentForProcessing hupload
      refine ⟨ddbKey, key, hkey, hdest, fun hb => ?_⟩
      refine .direct _ obj hobj hmeta ?_
      rw [hb, record_congr hdocs]
      exact hname
    · cases e with
      | imageConversionError m =>
        obtain ⟨_, he, _⟩ := ends_ret_iff.1 hcatch
        cases he
      | _ => cases hcatch

/-- A presigned form leaves the record so; its object comes later, with the form's metadata. -/
theorem record_createPresignedUploadUrl {form : PresignedForm}
    (h : Ends system w (createPresignedUploadUrl env auth form) tr (.ok ()) w') :
    ∃ jobId ddbKey, generateUniqueFilename form.filename jobId = .ok ddbKey ∧
      (w'.record ddbKey).originalFileName = some form.filename := by
  unfold createPresignedUploadUrl at h
  split at h
  · exact absurd h not_ends_throw
  split at h
  · exact absurd h not_ends_throw
  obtain ⟨traceId, w₁, tr₁, tr₂, _, h₂, rfl⟩ := ends_bind_ok h
  obtain ⟨_, w₂, tr₃, tr₄, _, h₄, rfl⟩ := ends_bind_ok h₂
  split at h₄
  · cases h₄
  split at h₄
  · cases h₄
  obtain ⟨jobId, w₃, tr₅, tr₆, _, h₆, rfl⟩ := ends_bind_ok h₄
  obtain ⟨ddbKey, w₄, tr₇, tr₈, h₇, h₈, rfl⟩ := ends_bind_ok h₆
  obtain ⟨hkey, rfl⟩ := ends_liftExcept_ok h₇
  refine ⟨jobId, ddbKey, hkey, ?_⟩
  rcases ends_tryCatch_iff.1 h₈ with ⟨_, _, hinsert⟩ | ⟨_, _, _, _, _, hraise, _⟩
  · exact ends_insertMinimalDdbRecord_name hinsert
  · cases hraise

end

/-! ## Upload and processor -/

theorem sanitizeForS3Metadata_eq_self_iff {name : String} (h : name.length ≤ maxFilenameLength) :
    sanitizeForS3Metadata name = name ↔ ∀ c ∈ name.toList, Quote.unreserved c = true := by
  have hlen : name.toList.length ≤ 512 := by
    rw [String.length_toList]
    exact h.trans (by decide)
  rw [sanitizeForS3Metadata, List.take_of_length_le hlen, String.ofList_toList,
    Quote.quote_eq_self_iff]

/-- After the processor has handled an upload, its record carries the name the client gave exactly
when the route was the direct one, or the name needs no encoding, or the processor found the
document past preclassification. -/
theorem original_file_name_survives {env : EnvConfig} {key : S3Key} {cold : Bool}
    {m : UploadMethod} {name : String} {w w' : World} {tr : List (Event sig)}
    (hu : Uploaded w key m name)
    (h : Ends system w (processorHandler env key cold) tr (.ok ()) w') :
    (w'.record (basename key.2)).originalFileName = some name ↔
      m = .direct ∨ (∀ c ∈ name.toList, Quote.unreserved c = true) ∨
        needsPreclassification (w.docs.item (basename key.2)) = false := by
  obtain ⟨obj, hobj, hname⟩ := ends_processorHandler_name h
  rw [hname]
  cases hu with
  | direct req o ho hm hr =>
    obtain rfl := Option.some.inj (hobj.symm.trans ho)
    refine iff_of_true ?_ (.inl rfl)
    split
    · rw [hm]
      rfl
    · exact hr
  | presigned form hl jobId traceId o ho hm hr =>
    obtain rfl := Option.some.inj (hobj.symm.trans ho)
    rw [← sanitizeForS3Metadata_eq_self_iff hl]
    have hmeta : obj.metadata.originalFileName.getD "" = sanitizeForS3Metadata form.filename := by
      rw [hm]
      rfl
    cases hn : needsPreclassification (w.docs.item (basename key.2)) with
    | true =>
      rw [if_pos rfl, hmeta, Option.some_inj]
      simp only [reduceCtorEq, false_or, or_false]
    | false =>
      exact iff_of_true hr (.inr (.inr rfl))

/-! ## Two presigned uploads

An encrypted PDF, so that the processor is done after its upsert. -/

def leaseKey : S3Key := ("in", "acme/lease-7.pdf")

def leaseUploaded (filename : String) : Record
  | .processStatus    => some ProcessStatus.pendingUpload
  | .originalFileName => some filename
  | .tenantId         => some "acme"
  | .jobId            => some "7"
  | .createdAt        => some (0 : Nat)
  | .tokensByModel    => some []
  | _                 => none

def leaseForm (filename : String) : PresignedForm := { filename, contentType := "application/pdf" }

def leaseObject (filename : String) : S3Object :=
  { body := .raw (ascii "%PDF-1.7 /Encrypt")
    contentType := some "application/pdf"
    metadata := presignedMetadata (leaseForm filename) "7" "t" }

def leaseWorld (filename : String) : World :=
  { docs := Dynamo.Table.empty.put "lease-7.pdf" (leaseUploaded filename)
    objects := [(leaseKey, leaseObject filename)] }

theorem uploaded_lease {filename : String} (h : filename.length ≤ maxFilenameLength) :
    Uploaded (leaseWorld filename) leaseKey .presigned filename :=
  .presigned (leaseForm filename) h "7" "t" (leaseObject filename) rfl rfl rfl

/-- Whether the processor has returned, and the name it leaves. -/
def leaseOutcome (filename : String) : Option (Bool × Option String) :=
  (Effect.follow system (leaseWorld filename) (processorHandler leaseEnv leaseKey false)
    (List.replicate 9 {})).map fun (_, q, w') =>
      (q.result.any (·.isOk), (w'.record "lease-7.pdf").originalFileName)

theorem ends_lease {filename name : String} (h : leaseOutcome filename = some (true, some name)) :
    ∃ tr w', Ends system (leaseWorld filename) (processorHandler leaseEnv leaseKey false) tr
      (.ok ()) w' ∧ (w'.record "lease-7.pdf").originalFileName = some name := by
  obtain ⟨⟨tr, q, w'⟩, hf, he⟩ := Option.map_eq_some_iff.1 h
  obtain ⟨hq, hname⟩ := Prod.mk.inj he
  obtain ⟨r, hr, hok⟩ := (Option.any_eq_true _ _).1 hq
  refine ⟨tr, w', ?_, hname⟩
  have hsteps := Effect.steps_of_follow hf
  rw [Effect.Prog.eq_ofExcept hr] at hsteps
  cases r with
  | ok _ => exact hsteps
  | error e => cases hok

theorem original_file_name_survives_lease :
    ∃ tr w', Ends system (leaseWorld "lease.pdf") (processorHandler leaseEnv leaseKey false) tr
      (.ok ()) w' ∧ (w'.record "lease-7.pdf").originalFileName = some "lease.pdf" := by
  obtain ⟨tr, w', hrun, _⟩ := ends_lease
    (show leaseOutcome "lease.pdf" = some (true, some "lease.pdf") by decide +kernel)
  have hname : "lease.pdf".toList.all Quote.unreserved = true := by decide +kernel
  refine ⟨tr, w', hrun, ?_⟩
  exact (original_file_name_survives (uploaded_lease (by decide +kernel)) hrun).2
    (.inr (.inl (List.all_eq_true.1 hname)))

/-- A blank in the name comes back as `%20`. -/
theorem original_file_name_encoded : ¬ ∀ (env : EnvConfig) (key : S3Key) (cold : Bool)
    (m : UploadMethod) (name : String) (w w' : World) (tr : List (Event sig)),
    Uploaded w key m name → Ends system w (processorHandler env key cold) tr (.ok ()) w' →
      (w'.record (basename key.2)).originalFileName = some name := by
  intro hall
  obtain ⟨tr, w', hrun, hname⟩ := ends_lease
    (show leaseOutcome "my lease.pdf" = some (true, some "my%20lease.pdf") by decide +kernel)
  have hsame := hall _ _ _ _ _ _ _ _ (uploaded_lease (by decide +kernel)) hrun
  rw [show basename leaseKey.2 = "lease-7.pdf" by decide +kernel, hname] at hsame
  revert hsame
  decide

end DocumentAi
