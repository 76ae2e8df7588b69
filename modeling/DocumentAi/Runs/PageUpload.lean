import DocumentAi.Runs.OriginalFileName
import DocumentAi.Utils.DocumentBuild

/-!
# Does a refused page upload leave the page alone?

`add_page_to_build` puts the bytes first and writes the page's record, under its condition, second.
The key of the bytes is made of tenant, build, page and extension.

| here | meaning |
| --- | --- |
| `PageUpload.write` | the bytes that the upload puts at a key |
| `recordedKey`      | the key that the record of a page points to |
| `Refused`          | the store has answered the conditional put with a conflict |
| `Intact`           | record and bytes of the page are as before |
| `KeepsBytes`       | at the recorded key the upload puts no other bytes |
-/

namespace DocumentAi

open Effect (Ends Event ends_ret_iff ends_raise_iff ends_perform_iff ends_bind_iff ends_bind_ok
  ends_tryCatch_iff ends_embed_iff)

/-- The content stored at `key`. -/
def World.body (w : World) (key : S3Key) : Option Body := (w.object key).map (·.body)

/-! ## What an upload puts where -/

/-- The key of the backup, if there is one beside `dest`. -/
def UploadRequest.backupKey (env : EnvConfig) (req : UploadRequest) (dest : S3Key) :
    Option S3Key :=
  match env.preprocessing with
  | .error _ => none
  | .ok pre  =>
    if pre.any fun pre => isUnder pre dest then none
    else (truthy env.documentaiPreprocessingLocation).bind fun location =>
      (getBucketAndKey location (some req.tenantId) (basename dest.2)).toOption

def UploadRequest.write (env : EnvConfig) (req : UploadRequest) (key : S3Key) : Option Bytes :=
  match parseS3Uri req.destPath with
  | .error _ => none
  | .ok dest =>
    if key = dest then (convertUpload env req.file.bytes req.contentType).toOption.map (·.1)
    else if req.backupKey env dest = some key then some req.file.bytes
    else none

section
variable {env : EnvConfig} {w w' : World} {tr : List (Event sig)}

theorem body_putObject (w : World) (k key : S3Key) (obj : S3Object) :
    (w.putObject k obj).body key = if key = k then some obj.body else w.body key := by
  unfold World.body World.object World.putObject
  by_cases hk : key = k
  · rw [if_pos hk, hk, List.lookup_cons_self]
    rfl
  · rw [if_neg hk, List.lookup_cons, beq_false_of_ne hk]
    dsimp only
    congr 1
    induction w.objects with
    | nil => rfl
    | cons e es ih =>
      obtain ⟨j, o⟩ := e
      by_cases hj : j = k
      · subst hj
        rw [List.filter_cons_of_neg (by simp), ih, List.lookup_cons, beq_false_of_ne hk]
      · rw [List.filter_cons_of_pos (by simpa using hj), List.lookup_cons, List.lookup_cons, ih]

theorem ends_putObject {key : S3Key} {obj : S3Object}
    (h : Ends system w (call (.putObject key obj)) tr (.ok ()) w') : w' = w.putObject key obj := by
  obtain ⟨ch, hx, _⟩ := ends_perform_iff.1 h
  have hrun := exec_of_ok hx
  simp only [World.run, Option.some.injEq, Prod.mk.injEq] at hrun
  exact hrun.2.symm

theorem ends_backupOriginal {req : UploadRequest} {dest : S3Key}
    (h : Ends system w (backupOriginal env req dest) tr (.ok ()) w') (key : S3Key) :
    w'.body key = if req.backupKey env dest = some key then some (.raw req.file.bytes)
      else w.body key := by
  unfold backupOriginal at h
  obtain ⟨pre, w₁, tr₁, tr₂, h₁, h₂, rfl⟩ := ends_bind_ok h
  obtain ⟨hpre, rfl⟩ := ends_liftExcept_ok h₁
  split at h₂
  next hunder =>
    obtain ⟨_, _, rfl⟩ := ends_ret_iff.1 h₂
    have hnone : req.backupKey env dest = none := by
      unfold UploadRequest.backupKey
      rw [hpre]
      exact if_pos hunder
    rw [if_neg (by rw [hnone]; simp)]
  next hunder =>
    unfold saveOriginalToPreprocessing at h₂
    split at h₂
    next => exact absurd h₂ not_ends_throw
    next location hloc =>
      obtain ⟨backup, w₂, tr₃, tr₄, h₃, h₄, rfl⟩ := ends_bind_ok h₂
      obtain ⟨hbackup, rfl⟩ := ends_liftExcept_ok h₃
      have hsome : req.backupKey env dest = some backup := by
        unfold UploadRequest.backupKey
        rw [hpre]
        dsimp only
        rw [if_neg hunder, hloc, Option.bind_some, hbackup]
        rfl
      rw [ends_putObject h₄, body_putObject]
      by_cases hkey : key = backup
      · rw [if_pos hkey, if_pos (by rw [hsome, hkey])]
      · rw [if_neg hkey, if_neg (by rw [hsome]; exact fun h => hkey (Option.some.inj h).symm)]

theorem ends_registerCategory {tenantId : String} {category : Option String}
    (h : Ends system w (registerCategory tenantId category) tr (.ok ()) w') :
    w'.objects = w.objects := by
  unfold registerCategory at h
  split at h
  next c t _ _ =>
    rcases ends_tryCatch_iff.1 h with ⟨_, _, hok⟩ | ⟨e, w₁, tr₁, tr₂, hcall, hret, _⟩
    · obtain ⟨ch, hx, _⟩ := ends_perform_iff.1 hok
      have hrun := exec_of_ok hx
      simp only [World.run, Option.some.injEq, Prod.mk.injEq] at hrun
      rw [← hrun.2]
    · obtain ⟨_, _, rfl⟩ := ends_ret_iff.1 hret
      obtain ⟨ch, hx, _⟩ := ends_perform_iff.1 hcall
      rw [exec_error hx]
  next =>
    obtain ⟨_, _, rfl⟩ := ends_ret_iff.1 h
    rfl

/-- The contents of the buckets after an upload. -/
theorem ends_upload_body {req : UploadRequest}
    (h : Ends system w (uploadDocumentForProcessing env req) tr (.ok ()) w') (key : S3Key) :
    w'.body key = match req.write env key with
      | some bytes => some (.raw bytes)
      | none       => w.body key := by
  unfold uploadDocumentForProcessing at h
  obtain ⟨dest, w₁, tr₁, tr₂, h₁, h₂, rfl⟩ := ends_bind_ok h
  obtain ⟨hdest, rfl⟩ := ends_liftExcept_ok h₁
  obtain ⟨_, w₂, tr₃, tr₄, h₃, h₄, rfl⟩ := ends_bind_ok h₂
  obtain ⟨_, w₃, tr₅, tr₆, h₅, h₆, rfl⟩ := ends_bind_ok h₄
  obtain ⟨converted, w₄, tr₇, tr₈, h₇, h₈, rfl⟩ := ends_bind_ok h₆
  obtain ⟨hconvert, rfl⟩ := ends_liftExcept_ok h₇
  have hkeep : w₄.body key = w₂.body key := by
    unfold World.body World.object
    rw [ends_registerCategory h₅]
  rcases ends_tryCatch_iff.1 h₈ with ⟨_, _, hput⟩ | ⟨_, _, _, _, _, hraise, _⟩
  · rw [ends_putObject hput, body_putObject, hkeep, ends_backupOriginal h₃ key]
    unfold UploadRequest.write
    rw [hdest, hconvert]
    dsimp only
    by_cases hkey : key = dest
    · rw [if_pos hkey, if_pos hkey]
      rfl
    · rw [if_neg hkey, if_neg hkey]
      split <;> rfl
  · cases hraise

end

/-! ## A refused page -/

def isConflict : Event buildSig → Bool
  | ⟨.inr (.putItem _ _ true), ans⟩ =>
    match (ans : Except Exc Unit) with
    | .error e => decide (e = .clientError .conditionalCheckFailedException)
    | .ok _    => false
  | _ => false

def Refused (tr : List (Event buildSig)) : Prop := tr.any isConflict = true

/-- What the request leaves of the bytes and records when it is refused. -/
structure LeftBy (env : EnvConfig) (req : UploadRequest) (x x' : World × BuildTable) : Prop where
  records : x'.2 = x.2
  bytes   : ∀ key, x'.1.body key = match req.write env key with
    | some bytes => some (.raw bytes)
    | none       => x.1.body key

section
variable {α β : Type} {env : EnvConfig} {x x' : World × BuildTable} {tr : List (Event buildSig)}

theorem any_isConflict_embed (tr : List (Event sig)) :
    (tr.map (Event.embed BuildOp.Res)).any isConflict = false := by
  rw [List.any_map, List.any_eq_false]
  exact fun _ _ => Bool.false_ne_true

/-- A conflict comes behind what a request asks of the shared services. -/
theorem ends_shared_bind {p : Prog α} {f : α → BuildProg β} {r : Except Exc β}
    (h : Ends buildSystem x ((shared p).bind f) tr r x') (hr : Refused tr) :
    ∃ a w₁ tr₀ tr₁, Ends system x.1 p tr₀ (.ok a) w₁ ∧
      Ends buildSystem (w₁, x.2) (f a) tr₁ r x' ∧ Refused tr₁ := by
  obtain ⟨w, t⟩ := x
  rcases ends_bind_iff.1 h with ⟨e, _, hp⟩ | ⟨a, ⟨w₁, t₁⟩, tr₁, tr₂, h₁, h₂, rfl⟩
  · obtain ⟨tr₀, rfl, _, _⟩ := ends_embed_iff.1 hp
    rw [Refused, any_isConflict_embed] at hr
    cases hr
  · obtain ⟨tr₀, rfl, hrun, ht⟩ := ends_embed_iff.1 h₁
    change t₁ = t at ht
    subst ht
    rw [Refused, List.any_append, any_isConflict_embed, Bool.false_or] at hr
    exact ⟨a, w₁, tr₀, tr₂, hrun, h₂, hr⟩

theorem runBuildOp_putItem (t : BuildTable) (key : PageKey) (item : BuildItem) (ifAbsent : Bool) :
    runBuildOp t (.putItem key item ifAbsent) = if ifAbsent ∧ (t.item key).isSome
      then (.error (.ofRejection .conditionalCheckFailed), t) else (.ok (), t.put key item) := rfl

theorem ends_conditionalPut {key : PageKey} {item : BuildItem} {r : Except Exc Unit}
    (h : Ends buildSystem x (buildCall (.putItem key item true)) tr r x') (hr : Refused tr) :
    x' = x := by
  obtain ⟨w, t⟩ := x
  obtain ⟨ch, hx, rfl⟩ := ends_perform_iff.1 h
  obtain ⟨w', t'⟩ := x'
  obtain ⟨hrun, hw⟩ := Effect.Sys.extend_inr.1 hx
  change w' = w at hw
  subst hw
  cases r with
  | ok a =>
    rw [Refused, List.any_cons, List.any_nil, Bool.or_false] at hr
    cases hr
  | error e =>
    unfold buildStore at hrun
    split at hrun
    · cases hrun
      rfl
    · have hput := Option.some.inj hrun
      rw [runBuildOp_putItem] at hput
      split at hput
      · obtain ⟨_, rfl⟩ := Prod.mk.inj hput
        rfl
      · cases (Prod.mk.inj hput).1

theorem ends_upsert_refused {buildId s3Path : String} {pageNumber : Nat}
    {originalFileName category : Option String} {r : Except Exc Unit}
    (h : Ends buildSystem x (upsertDocumentBuildPage buildId pageNumber s3Path originalFileName
      category false) tr r x') (hr : Refused tr) : x' = x := by
  unfold upsertDocumentBuildPage at h
  obtain ⟨now, w₁, tr₀, tr₁, hnow, h, hr⟩ := ends_shared_bind h hr
  obtain ⟨ch, hx, _⟩ := ends_perform_iff.1 hnow
  obtain rfl := exec_read rfl hx
  change Ends buildSystem (x.1, x.2)
    ((buildCall (.putItem (buildId, pageNumber) _ true)).tryCatch _) tr₁ r x' at h
  rcases ends_tryCatch_iff.1 h with ⟨_, rfl, hok⟩ | ⟨e, x₁, tr₂, tr₃, hput, hcatch, rfl⟩
  · exact ends_conditionalPut hok hr
  · have hraise : tr₃ = [] ∧ x' = x₁ := by
      split at hcatch
      · obtain ⟨htr, _, hx'⟩ := ends_raise_iff.1 hcatch
        exact ⟨htr, hx'⟩
      · obtain ⟨htr, _, hx'⟩ := ends_raise_iff.1 hcatch
        exact ⟨htr, hx'⟩
    obtain ⟨rfl, rfl⟩ := hraise
    rw [List.append_nil] at hr
    exact ends_conditionalPut hput hr

theorem ends_addPage_refused {up : PageUpload} {r : Except Exc (Nat × String)}
    (h : Ends buildSystem x (addPageToBuild env up false) tr r x') (hr : Refused tr) :
    ∃ filename, up.file.filename = some filename ∧ LeftBy env (up.request env filename) x x' := by
  unfold addPageToBuild at h
  split at h
  next =>
    obtain ⟨rfl, _, _⟩ := ends_raise_iff.1 h
    cases hr
  next filename hname =>
    obtain ⟨_, w₁, tr₁, tr₂, hupload, h, hr⟩ := ends_shared_bind h hr
    obtain ⟨⟨bucket, pre⟩, w₂, tr₃, tr₄, hparse, h, hr⟩ := ends_shared_bind h hr
    obtain ⟨_, rfl⟩ := ends_liftExcept_ok hparse
    have hsame : x' = (w₂, x.2) := by
      rcases ends_bind_iff.1 h with ⟨e, _, hput⟩ | ⟨_, x₁, tr₅, tr₆, hput, hret, rfl⟩
      · exact ends_upsert_refused hput hr
      · obtain ⟨rfl, _, rfl⟩ := ends_ret_iff.1 hret
        rw [List.append_nil] at hr
        exact ends_upsert_refused hput hr
    rw [hsame]
    exact ⟨filename, (Option.filter_eq_some_iff.1 hname).1, rfl, ends_upload_body hupload⟩

end

/-! ## Record and bytes -/

/-- `s3_path` is a key of the preprocessing bucket (`get_document_build_pages`). -/
def recordedKey (env : EnvConfig) (t : BuildTable) (key : PageKey) : Option S3Key :=
  (t.item key).bind fun item => (BuildItem.s3Path item).bind fun path =>
    (parseS3Uri (env.documentaiPreprocessingLocation.getD "")).toOption.map fun loc => (loc.1, path)

def PageUpload.key (up : PageUpload) : PageKey := (up.buildId, up.pageNumber)

structure Intact (env : EnvConfig) (key : PageKey) (x x' : World × BuildTable) : Prop where
  record : x'.2.item key = x.2.item key
  bytes  : ∀ k, recordedKey env x.2 key = some k → x'.1.body k = x.1.body k

def PageUpload.write (env : EnvConfig) (up : PageUpload) (key : S3Key) : Option Bytes :=
  (up.request env (up.file.filename.getD "")).write env key

def KeepsBytes (env : EnvConfig) (up : PageUpload) (x : World × BuildTable) : Prop :=
  ∀ k bytes, recordedKey env x.2 up.key = some k → up.write env k = some bytes →
    x.1.body k = some (.raw bytes)

/-- **A refused upload leaves the page as it is exactly when the key of its bytes is not the
recorded one, or the bytes are the same.** -/
theorem refused_intact_iff {env : EnvConfig} {up : PageUpload} {x x' : World × BuildTable}
    {tr : List (Event buildSig)} {r : Except Exc (Nat × String)}
    (h : Ends buildSystem x (addPageToBuild env up false) tr r x') (hr : Refused tr) :
    Intact env up.key x x' ↔ KeepsBytes env up x := by
  obtain ⟨filename, hname, hleft⟩ := ends_addPage_refused h hr
  have hbytes : ∀ k, x'.1.body k = match up.write env k with
      | some bytes => some (.raw bytes)
      | none       => x.1.body k := by
    unfold PageUpload.write
    rw [hname]
    exact hleft.bytes
  constructor
  · intro hin k bytes hk hwrite
    have hafter := hbytes k
    rw [hwrite] at hafter
    rw [← hin.bytes k hk]
    exact hafter
  · intro hkeep
    refine ⟨by rw [hleft.records], fun k hk => ?_⟩
    rw [hbytes k]
    cases hwrite : up.write env k with
    | none => rfl
    | some bytes => exact (hkeep k bytes hk hwrite).symm

/-! ## A page uploaded twice -/

def pageEnv : EnvConfig :=
  { documentaiInputLocation := none
    documentaiPreprocessingLocation := some "s3://docs/preprocessing" }

def pageUpload (contentType : String) (bytes : Bytes) : PageUpload :=
  { file := { filename := some "page", bytes }
    buildId := "b1"
    pageNumber := 1
    contentType
    tenantId := "acme" }

def pageKey : S3Key := ("docs", "preprocessing/acme/b1-page-1.pdf")

/-- Page 1 has been uploaded as a PDF of one byte. -/
def pageStored : World × BuildTable :=
  ({ objects := [(pageKey, { body := .raw [1], contentType := some "application/pdf" })] },
    Dynamo.Table.empty.put ("b1", 1) (pageItem 0 pageKey.2 (some "page") none))

/-- Whether a second upload ends with a conflict, and the bytes at the key of the page. -/
def secondOutcome (up : PageUpload) : Option (Bool × Bool × Option Bytes) :=
  (Effect.follow buildSystem pageStored (addPageToBuild pageEnv up false) [{}, {}, {}]).map
    fun (tr, q, x') => (q.result.isSome, tr.any isConflict, (x'.1.object pageKey).map (·.bytes))

theorem ends_second {up : PageUpload} {bytes : Option Bytes}
    (h : secondOutcome up = some (true, true, bytes)) :
    ∃ tr r x', Ends buildSystem pageStored (addPageToBuild pageEnv up false) tr r x' ∧
      Refused tr ∧ (x'.1.object pageKey).map (·.bytes) = bytes := by
  obtain ⟨⟨tr, q, x'⟩, hf, he⟩ := Option.map_eq_some_iff.1 h
  obtain ⟨hq, hrest⟩ := Prod.mk.inj he
  obtain ⟨hr, hbytes⟩ := Prod.mk.inj hrest
  obtain ⟨r, hres⟩ := Option.isSome_iff_exists.1 hq
  have hsteps := Effect.steps_of_follow hf
  rw [Effect.Prog.eq_ofExcept hres] at hsteps
  exact ⟨tr, r, x', hsteps, hr, hbytes⟩

theorem recordedKey_pageStored : recordedKey pageEnv pageStored.2 ("b1", 1) = some pageKey := by
  decide +kernel

/-- A PNG has another key. -/
theorem refused_intact_png : ∃ tr r x',
    Ends buildSystem pageStored (addPageToBuild pageEnv (pageUpload "image/png" [2]) false) tr r x' ∧
      Intact pageEnv ("b1", 1) pageStored x' := by
  obtain ⟨tr, r, x', hrun, hr, _⟩ := ends_second
    (show secondOutcome (pageUpload "image/png" [2]) = some (true, true, some [1]) by decide +kernel)
  refine ⟨tr, r, x', hrun, (refused_intact_iff hrun hr).2 fun k bytes hk hwrite => ?_⟩
  obtain rfl := Option.some.inj (recordedKey_pageStored.symm.trans hk)
  rw [show (pageUpload "image/png" [2]).write pageEnv pageKey = none by decide +kernel] at hwrite
  cases hwrite

theorem refused_overwrites : ¬ ∀ (env : EnvConfig) (up : PageUpload) (x x' : World × BuildTable)
    (tr : List (Event buildSig)) (r : Except Exc (Nat × String)),
    Ends buildSystem x (addPageToBuild env up false) tr r x' → Refused tr →
      Intact env up.key x x' := by
  intro hall
  obtain ⟨tr, r, x', hrun, hr, hbytes⟩ := ends_second
    (show secondOutcome (pageUpload "application/pdf" [2]) = some (true, true, some [2]) by
      decide +kernel)
  have hin := hall _ _ _ _ _ _ hrun hr
  have hsame := hin.bytes pageKey recordedKey_pageStored
  unfold World.body at hsame
  have hbody : pageStored.1.object pageKey =
      some { body := .raw [1], contentType := some "application/pdf" } := rfl
  rw [hbody] at hsame
  obtain ⟨obj, hobj, hraw⟩ := Option.map_eq_some_iff.1 hsame
  rw [hobj] at hbytes
  change some obj.bytes = some [2] at hbytes
  unfold S3Object.bytes at hbytes
  rw [hraw] at hbytes
  revert hbytes
  decide

end DocumentAi
