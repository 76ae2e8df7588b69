import DocumentAi.Footprint.Exec
import DocumentAi.Lib.Latch
import DocumentAi.Routers.Build

/-!
# How far a request on a build has come

What a request may do to the document-builds table depends on what it has been answered: it changes
a build after it has seen the tenant in the metadata row, and a submission puts nothing into a
bucket before it has the lock.

| here | meaning |
| --- | --- |
| `onTable f`       | a landed request on the table with `f` |
| `accepted`        | submissions that have answered after putting a document |
| `removals`        | landed deletions of the metadata row |
| `BuildStage`      | how far a request has come: tenant checked, lock taken, lock rolled back |
| `buildProtocol`   | what a request may call in a stage |
| `obeys_request`   | every request keeps to it |
| `Step`, `step_of` | what one call does to the table and to the stage |
-/

namespace DocumentAi.Builds

open Effect (Event Protocol)
open Effect.Prog (All all_bind)
open Effect.Protocol (Obeys obeys_bind obeys_tryCatch obeys_perform obeys_ret obeys_raise)

/-! ## Landed requests -/

def landed (ev : Event tableSig) : Bool :=
  match ev.ans with
  | .ok _    => true
  | .error _ => false

/-- A landed upload to S3. -/
def isUpload (ev : Event tableSig) : Bool :=
  landed ev && match ev.op with
    | .inl (.putObject ..) => true
    | _ => false

/-- A landed request on the table with `f`. -/
def onTable (f : TableOp → Bool) (ev : Event tableSig) : Bool :=
  landed ev && match ev.op with
    | .inr op => f op
    | .inl _  => false

namespace TableOp

def isRead : TableOp → Bool
  | getItem _ | queryByPk _ => true
  | _ => false

def isChange (b : String) : TableOp → Bool
  | putItem key .. | updateItem key _ | removeSubmittedAt key | deleteItem key => key.1 == b
  | _ => false

/-- The conditional write of the lock; the stamps have no condition. -/
def isLock (b : String) : TableOp → Bool
  | updateItem key u => key == metadataKey b && u.cond.isSome
  | _ => false

def isRollback (b : String) : TableOp → Bool
  | removeSubmittedAt key => key == metadataKey b
  | _ => false

def isRemoval (b : String) : TableOp → Bool
  | deleteItem key => key == metadataKey b
  | _ => false

end TableOp

def Request.tenantId : Request → Option String
  | create auth .. | uploadPage _ auth .. | batchPage _ auth .. | deletePage _ auth ..
  | deleteBuild _ auth _ | submit _ auth .. => some auth.tenantId
  | other _ => none

def Request.submits (b : String) : Request → Bool
  | submit _ _ buildId _ => buildId == b
  | _ => false

variable {Page : Type} {pdf : PdfLibrary Page}

section
variable (b : String) (c : Effect.Config (buildPool pdf))

def hasAnswered (th : Effect.Thread (buildPool pdf)) : Bool :=
  match th.prog with
  | .ret _ => true
  | _      => false

/-- Submissions of `b` that have answered and have put a document: a declined one puts none. -/
def accepted : Nat :=
  c.threads.countP fun th => th.entry.submits b && hasAnswered th && th.trace.any isUpload

/-- Landed deletions of the metadata row. -/
def removals : Nat := c.calls (onTable (TableOp.isRemoval b))

def changes (th : Effect.Thread (buildPool pdf)) : Bool :=
  th.trace.any (onTable (TableOp.isChange b))

end

/-! ## How far a request has come -/

inductive BuildStage where
  | other
  | creating (tenantId : String)
  | drawn (tenantId buildId : String)
  | made (tenantId buildId : String)
  | outside (tenantId buildId : String) (submits : Bool)
  | inside (tenantId buildId : String) (submits : Bool)
  | locked (tenantId buildId : String)
  | rolledBack (tenantId buildId : String)

def Op.isPut : DocumentAi.Op → Bool
  | .putObject .. => true
  | _ => false

/-- The row of a page has no tenant and is not submitted. -/
def PlainRow (row : Row) : Prop := row.tenantId = none ∧ row.submittedAt = none

namespace BuildStage

/-- Before its lock, a submission puts nothing into a bucket. -/
def putsNothing : BuildStage → Bool
  | outside _ _ true | inside _ _ true => true
  | _ => false

def allowTable : BuildStage → TableOp → Prop
  | drawn t b, op        =>
    ∃ row : Row, row.tenantId = some t ∧ row.submittedAt = none ∧ op = .putItem (metadataKey b) row false
  | outside _ b _, op    => op = .getItem (metadataKey b)
  | inside _ b true, op  => op.isRead = true ∨ ∃ now, op = .updateItem (metadataKey b) (lockRequest now)
  | inside _ b false, op =>
    op.isRead = true ∨ (∃ n row ifAbsent, n ≠ 0 ∧ PlainRow row ∧ op = .putItem (b, n) row ifAbsent) ∨
      ∃ n, op = .deleteItem (b, n)
  | locked _ b, op       =>
    op.isRead = true ∨ (∃ n now, n ≠ 0 ∧ op = .updateItem (b, n) (stampRequest now)) ∨
      op = .removeSubmittedAt (metadataKey b)
  | _, _                 => False

def allow (s : BuildStage) : tableSig.Op → Prop
  | .inl op => s.putsNothing = true → Op.isPut op = false
  | .inr op => s.allowTable op

def afterUuid (t : String) (s : BuildStage) : Except Exc String → BuildStage
  | .ok u    => drawn t u
  | .error _ => s

def afterCheck (t b : String) (submits : Bool) : Except Exc (Option Row) → BuildStage
  | .ok row  => if row.bind Row.tenantId = some t then inside t b submits else outside t b submits
  | .error _ => outside t b submits

def afterWrite (done failed : BuildStage) : Except Exc Unit → BuildStage
  | .ok _    => done
  | .error _ => failed

def next : BuildStage → (op : tableSig.Op) → tableSig.Ans op → BuildStage
  | creating t, .inl .uuid4, ans                     => afterUuid t (creating t) ans
  | drawn t b, .inl .uuid4, ans                      => afterUuid t (drawn t b) ans
  | drawn t b, .inr (.putItem ..), ans               => afterWrite (made t b) (drawn t b) ans
  | outside t b sub, .inr (.getItem _), ans          => afterCheck t b sub ans
  | inside t b sub, .inr (.updateItem ..), ans       => afterWrite (locked t b) (inside t b sub) ans
  | locked t b, .inr (.removeSubmittedAt _), ans     => afterWrite (rolledBack t b) (locked t b) ans
  | s, _, _                                          => s

/-- A request does not answer after its rollback. -/
def Settled : BuildStage → Prop
  | rolledBack .. => False
  | _ => True

end BuildStage

abbrev buildProtocol : Protocol tableSig where
  State        := BuildStage
  allow        := BuildStage.allow
  possible _ _ _ := True
  next         := BuildStage.next

def Request.stage : Request → BuildStage
  | create auth ..              => .creating auth.tenantId
  | uploadPage _ auth _ form    => .outside auth.tenantId form.buildId false
  | batchPage _ auth _ _ form   => .outside auth.tenantId form.buildId false
  | deletePage _ auth buildId _ => .outside auth.tenantId buildId false
  | deleteBuild _ auth buildId  => .outside auth.tenantId buildId false
  | submit _ auth buildId _     => .outside auth.tenantId buildId true
  | other _                     => .other

/-! ## The requests keep to it -/

section
open BuildStage

variable {α : Type} {s : BuildStage}

/-- A stage in which a base call changes nothing. -/
def BuildStage.Steady (s : BuildStage) : Prop := ∀ op ans, s.next (.inl op) ans = s

theorem obeys_base_of {φ : DocumentAi.Op → Prop} (hs : s.Steady) (h : ∀ op, φ op → s.allow (.inl op))
    {p : Prog α} (hp : p.All φ) :
    buildProtocol.Obeys (fun s' _ => s' = s) (fun s' _ => s' = s) s (base p) := by
  refine Effect.obeys_embed (R := buildProtocol) (φ := φ) (I := fun s' => s' = s) ?_ hp rfl
  rintro _ op hop rfl
  exact ⟨h op hop, fun r => hs op r⟩

theorem obeys_baseCall {op : DocumentAi.Op} {Q : BuildStage → op.Res → Prop}
    {E : BuildStage → Exc → Prop} (ha : s.allow (.inl op))
    (hok : ∀ r, Q (s.next (.inl op) (.ok r)) r) (herr : ∀ e, E (s.next (.inl op) (.error e)) e) :
    buildProtocol.Obeys Q E s (base (call op)) := by
  refine ⟨ha, fun r _ => ?_⟩
  cases r with
  | ok r => exact hok r
  | error e => exact herr e

/-- A request that may put objects makes any base calls. -/
theorem obeys_base (hs : s.Steady) (hput : s.putsNothing = false) (p : Prog α) :
    buildProtocol.Obeys (fun s' _ => s' = s) (fun s' _ => s' = s) s (base p) := by
  refine obeys_base_of (φ := fun _ => True) hs (fun op _ h => ?_) (Effect.Prog.all_true p)
  rw [hput] at h
  cases h

theorem obeys_putless (hs : s.Steady) {p : Prog α} (hp : p.All fun op => Op.isPut op = false) :
    buildProtocol.Obeys (fun s' _ => s' = s) (fun s' _ => s' = s) s (base p) :=
  obeys_base_of hs (fun _ hop _ => hop) hp

variable {t b : String} {sub : Bool}

theorem steady_inside : (inside t b sub).Steady := fun _ _ => rfl
theorem steady_locked : (locked t b).Steady := fun _ _ => rfl

/-- A stage in which the table can be read. -/
def BuildStage.Reading (s : BuildStage) : Prop :=
  s.Steady ∧ ∀ op : TableOp, op.isRead = true → s.allowTable op ∧ ∀ ans, s.next (.inr op) ans = s

theorem reading_inside : (inside t b sub).Reading := by
  refine ⟨steady_inside, fun op hop => ⟨?_, fun ans => ?_⟩⟩
  · cases sub <;> exact .inl hop
  · cases op <;> first | rfl | cases hop

theorem reading_locked : (locked t b).Reading := by
  refine ⟨steady_locked, fun op hop => ⟨.inl hop, fun ans => ?_⟩⟩
  cases op <;> first | rfl | cases hop

/-- A call on the table that leaves the stage alone. -/
theorem obeys_table {op : TableOp} (ha : s.allowTable op) (hn : ∀ ans, s.next (.inr op) ans = s) :
    buildProtocol.Obeys (fun s' _ => s' = s) (fun s' _ => s' = s) s (tableCall op) :=
  obeys_perform ha (fun r _ => hn (.ok r)) fun e _ => hn (.error e)

theorem obeys_read {op : TableOp} (hs : s.Reading) (hop : op.isRead = true) :
    buildProtocol.Obeys (fun s' _ => s' = s) (fun s' _ => s' = s) s (tableCall op) :=
  obeys_table (hs.2 op hop).1 (hs.2 op hop).2

theorem obeys_liftExcept (hs : s.Steady) (x : Except Exc α) :
    buildProtocol.Obeys (fun s' _ => s' = s) (fun s' _ => s' = s) s (base (liftExcept x)) :=
  obeys_putless hs (all_liftExcept x)

theorem obeys_getDocumentBuildPages (hs : s.Reading) (env : EnvConfig) (b : String) :
    buildProtocol.Obeys (fun s' _ => s' = s) (fun s' _ => s' = s) s (getDocumentBuildPages env b) := by
  unfold getDocumentBuildPages
  refine obeys_bind (obeys_liftExcept hs.1 _) ?_
  rintro _ ⟨bucketName, _⟩ rfl
  refine obeys_bind (obeys_read hs rfl) ?_
  rintro _ rows rfl
  exact obeys_ret rfl

theorem obeys_isDocumentBuildSubmitted (hs : s.Reading) (b : String) :
    buildProtocol.Obeys (fun s' _ => s' = s) (fun s' _ => s' = s) s (isDocumentBuildSubmitted b) := by
  unfold isDocumentBuildSubmitted
  refine obeys_bind (obeys_read hs rfl) ?_
  rintro _ rows rfl
  exact obeys_ret rfl

theorem settled_of_eq {E : BuildStage → Exc → Prop} (hs : s.Settled) {p : BProg α}
    (h : buildProtocol.Obeys (fun s' _ => s' = s) E s p) :
    buildProtocol.Obeys (fun s' _ => s'.Settled) E s p := by
  refine h.mono ?_ fun _ _ h => h
  rintro _ _ rfl
  exact hs

/-! ### Creation and pages -/

theorem obeys_validateBuildTenantAccess (auth : UserContext) (b : String) (sub : Bool) :
    buildProtocol.Obeys (fun s _ => s = inside auth.tenantId b sub) (fun _ _ => True)
      (outside auth.tenantId b sub) (validateBuildTenantAccess auth b) := by
  unfold validateBuildTenantAccess
  refine obeys_bind (obeys_perform
    (Q := fun s (row : Option Row) => s = afterCheck auth.tenantId b sub (.ok row)) rfl
    (fun _ _ => rfl) fun _ _ => trivial) ?_
  rintro _ row rfl
  split
  next h => exact obeys_ret (if_pos h)
  next => exact obeys_raise trivial

theorem obeys_uploadErrors (detail : String) {p : BProg Unit}
    (hp : buildProtocol.Obeys (fun s' _ => s' = s) (fun s' _ => s' = s) s p) :
    buildProtocol.Obeys (fun s' _ => s' = s) (fun _ _ => True) s (uploadErrors detail p) := by
  refine obeys_tryCatch hp ?_
  rintro _ e rfl
  cases e <;> exact obeys_raise trivial

theorem obeys_deleteErrors (detail : String) {p : BProg Unit}
    (hp : buildProtocol.Obeys (fun s' _ => s' = s) (fun s' _ => s' = s) s p) :
    buildProtocol.Obeys (fun s' _ => s' = s) (fun _ _ => True) s (deleteErrors detail p) := by
  refine obeys_tryCatch hp ?_
  rintro _ e rfl
  cases e <;> exact obeys_raise trivial

theorem plainRow_pageRow (item : BuildItem) : PlainRow (pageRow item) := ⟨rfl, rfl⟩

theorem obeys_putPage {n : Nat} (hn : n ≠ 0) (item : BuildItem) (ifAbsent : Bool) :
    buildProtocol.Obeys (fun s' _ => s' = inside t b false) (fun s' _ => s' = inside t b false)
      (inside t b false) (tableCall (.putItem (b, n) (pageRow item) ifAbsent)) :=
  obeys_table (.inr (.inl ⟨n, _, ifAbsent, hn, plainRow_pageRow item, rfl⟩)) fun _ => rfl

theorem obeys_upsertDocumentBuildPage {n : Nat} (hn : n ≠ 0) (path : String)
    (name category : Option String) (overwrite : Bool) :
    buildProtocol.Obeys (fun s' _ => s' = inside t b false) (fun s' _ => s' = inside t b false)
      (inside t b false) (upsertDocumentBuildPage b n path name category overwrite) := by
  unfold upsertDocumentBuildPage
  refine obeys_bind (obeys_base steady_inside rfl _) ?_
  rintro _ now rfl
  cases overwrite with
  | false =>
    refine obeys_tryCatch (obeys_putPage hn _ true) ?_
    rintro _ e rfl
    dsimp only
    split <;> exact obeys_raise rfl
  | true => exact obeys_putPage hn _ false

theorem obeys_addPageToBuild (env : EnvConfig) {up : PageUpload} (hb : up.buildId = b)
    (hn : up.pageNumber ≠ 0) (overwrite : Bool) :
    buildProtocol.Obeys (fun s' _ => s' = inside t b false) (fun s' _ => s' = inside t b false)
      (inside t b false) (addPageToBuild env up overwrite) := by
  subst hb
  unfold addPageToBuild
  split
  next => exact obeys_raise rfl
  next filename _ =>
    refine obeys_bind (obeys_base steady_inside rfl _) ?_
    rintro _ _ rfl
    refine obeys_bind (obeys_liftExcept steady_inside _) ?_
    rintro _ ⟨_, pre⟩ rfl
    exact obeys_upsertDocumentBuildPage hn ..

theorem nextPageNumber_ne_zero (pages : List PageMetadata) : nextPageNumber pages ≠ 0 :=
  Nat.succ_ne_zero _

theorem obeys_uploadDocumentBuildPage (env : EnvConfig) (auth : UserContext) (file : UploadFile)
    (form : PageForm) :
    buildProtocol.Obeys (fun s _ => s.Settled) (fun _ _ => True)
      (outside auth.tenantId form.buildId false) (uploadDocumentBuildPage env auth file form) := by
  unfold uploadDocumentBuildPage
  refine obeys_bind (obeys_validateBuildTenantAccess ..) ?_
  rintro _ _ rfl
  refine settled_of_eq (s := inside auth.tenantId form.buildId false) trivial (obeys_uploadErrors _ ?_)
  refine obeys_bind (obeys_base steady_inside rfl _) ?_
  rintro _ traceId rfl
  refine obeys_bind (obeys_liftExcept steady_inside _) ?_
  rintro _ contentType rfl
  dsimp only
  split
  · exact obeys_raise rfl
  · refine obeys_bind (obeys_getDocumentBuildPages reading_inside ..) ?_
    rintro _ pages rfl
    split
    · exact obeys_raise rfl
    · refine obeys_addPageToBuild (b := form.buildId) env rfl ?_ form.overwrite
      change (form.pageNumber.map PNat.val).getD (nextPageNumber pages) ≠ 0
      cases form.pageNumber with
      | none => exact nextPageNumber_ne_zero pages
      | some n => exact n.ne_zero

theorem obeys_pageOfBatch (env : EnvConfig) (auth : UserContext) (files : List UploadFile) (idx : Nat)
    (form : PageForm) :
    buildProtocol.Obeys (fun s _ => s.Settled) (fun _ _ => True)
      (outside auth.tenantId form.buildId false) (pageOfBatch env auth files idx form) := by
  unfold pageOfBatch
  refine obeys_bind (obeys_validateBuildTenantAccess ..) ?_
  rintro _ _ rfl
  refine settled_of_eq (s := inside auth.tenantId form.buildId false) trivial (obeys_uploadErrors _ ?_)
  refine obeys_bind (obeys_base steady_inside rfl _) ?_
  rintro _ traceId rfl
  dsimp only
  split
  · exact obeys_raise rfl
  · refine obeys_bind (obeys_liftExcept steady_inside _) ?_
    rintro _ contentTypes rfl
    refine obeys_bind (obeys_getDocumentBuildPages reading_inside ..) ?_
    rintro _ existing rfl
    split
    · exact obeys_raise rfl
    · split
      next file contentType _ _ =>
        refine obeys_addPageToBuild (b := form.buildId) env ?_ ?_ false
        · rfl
        change nextPageNumber existing + idx ≠ 0
        have := nextPageNumber_ne_zero existing
        omega
      next => exact obeys_ret rfl

theorem obeys_createBuild (auth : UserContext) (form : BuildForm) (traceId : Option String) :
    buildProtocol.Obeys (fun s _ => s.Settled) (fun _ _ => True) (creating auth.tenantId)
      (createBuild auth form traceId) := by
  unfold createBuild
  -- the trace id is drawn like the build id
  refine obeys_bind (Q := fun s _ => s = creating auth.tenantId ∨ ∃ u, s = drawn auth.tenantId u) ?_ ?_
  · unfold traceIdOrNew
    split
    · exact obeys_ret (.inl rfl)
    · refine obeys_baseCall (fun h => ?_) (fun u => .inr ⟨u, rfl⟩) fun _ => trivial
      cases h
  rintro s₁ _ hs₁
  refine obeys_bind (Q := fun s buildId => s = drawn auth.tenantId buildId) ?_ ?_
  · rcases hs₁ with rfl | ⟨u, rfl⟩
    · refine obeys_baseCall (fun h => ?_) (fun _ => rfl) fun _ => trivial
      cases h
    · refine obeys_baseCall (fun h => ?_) (fun _ => rfl) fun _ => trivial
      cases h
  rintro _ buildId rfl
  unfold createDocumentBuild
  refine obeys_bind (Q := fun s _ => s = drawn auth.tenantId buildId) ?_ ?_
  · refine obeys_baseCall (fun h => ?_) (fun _ => rfl) fun _ => trivial
    cases h
  rintro _ now rfl
  exact obeys_perform ⟨_, rfl, rfl, rfl⟩ (fun _ _ => trivial) fun _ _ => trivial

/-! ### Deletion -/

theorem obeys_deleteItem (n : Nat) :
    buildProtocol.Obeys (fun s' _ => s' = inside t b false) (fun s' _ => s' = inside t b false)
      (inside t b false) (tableCall (.deleteItem (b, n))) :=
  obeys_table (.inr (.inr ⟨n, rfl⟩)) fun _ => rfl

theorem obeys_deleteDocumentBuildPage (env : EnvConfig) (n : Nat) :
    buildProtocol.Obeys (fun s' _ => s' = inside t b false) (fun s' _ => s' = inside t b false)
      (inside t b false) (deleteDocumentBuildPage env b n) := by
  unfold deleteDocumentBuildPage
  refine obeys_bind (obeys_isDocumentBuildSubmitted reading_inside b) ?_
  rintro _ submitted rfl
  dsimp only
  split
  · exact obeys_raise rfl
  · refine obeys_bind (obeys_liftExcept steady_inside _) ?_
    rintro _ ⟨bucketName, _⟩ rfl
    refine obeys_bind (obeys_read reading_inside rfl) ?_
    rintro _ item rfl
    dsimp only
    split
    next => exact obeys_ret rfl
    next row =>
      refine obeys_bind (Q := fun s' _ => s' = inside t b false) ?_ ?_
      · unfold deletePageObject
        split
        · exact obeys_base steady_inside rfl _
        · exact obeys_ret rfl
      rintro _ _ rfl
      refine obeys_bind (obeys_deleteItem n) ?_
      rintro _ _ rfl
      exact obeys_ret rfl

theorem obeys_deletePages (env : EnvConfig) (pages : List PageMetadata) :
    buildProtocol.Obeys (fun s' _ => s' = inside t b false) (fun s' _ => s' = inside t b false)
      (inside t b false) (deletePages env b pages) := by
  have hpage : ∀ (s : BuildStage) (page : PageMetadata), s = inside t b false →
      buildProtocol.Obeys (fun s' _ => s' = inside t b false) (fun s' _ => s' = inside t b false) s
        ((deleteDocumentBuildPage env b page.pageNumber).bind fun _ => .ret ()) := by
    rintro _ page rfl
    refine obeys_bind (obeys_deleteDocumentBuildPage env page.pageNumber) ?_
    rintro _ _ rfl
    exact obeys_ret rfl
  exact Effect.Protocol.obeys_forEach hpage pages _ rfl

theorem obeys_deleteDocumentBuild (env : EnvConfig) :
    buildProtocol.Obeys (fun s' _ => s' = inside t b false) (fun s' _ => s' = inside t b false)
      (inside t b false) (deleteDocumentBuild env b) := by
  unfold deleteDocumentBuild
  refine obeys_bind (obeys_isDocumentBuildSubmitted reading_inside b) ?_
  rintro _ submitted rfl
  dsimp only
  split
  · exact obeys_raise rfl
  · refine obeys_bind (obeys_getDocumentBuildPages reading_inside ..) ?_
    rintro _ pages rfl
    refine obeys_bind (Q := fun (s' : BuildStage) _ => s' = inside t b false) ?_ ?_
    · split
      · refine obeys_bind (obeys_read reading_inside rfl) ?_
        rintro _ row rfl
        exact obeys_ret rfl
      · exact obeys_ret rfl
    rintro _ found rfl
    split
    · exact obeys_ret rfl
    · refine obeys_bind (obeys_deletePages env pages) ?_
      rintro _ _ rfl
      refine obeys_bind (obeys_deleteItem 0) ?_
      rintro _ _ rfl
      exact obeys_ret rfl

theorem obeys_deletePageEndpoint (env : EnvConfig) (auth : UserContext) (b : String) (n : Nat) :
    buildProtocol.Obeys (fun s _ => s.Settled) (fun _ _ => True) (outside auth.tenantId b false)
      (deletePageEndpoint env auth b n) := by
  unfold deletePageEndpoint
  refine obeys_bind (obeys_validateBuildTenantAccess ..) ?_
  rintro _ _ rfl
  refine settled_of_eq (s := inside auth.tenantId b false) trivial (obeys_deleteErrors _ ?_)
  refine obeys_bind (obeys_deleteDocumentBuildPage env n) ?_
  rintro _ deleted rfl
  split
  · exact obeys_raise rfl
  · exact obeys_ret rfl

theorem obeys_deleteBuildEndpoint (env : EnvConfig) (auth : UserContext) (b : String) :
    buildProtocol.Obeys (fun s _ => s.Settled) (fun _ _ => True) (outside auth.tenantId b false)
      (deleteBuildEndpoint env auth b) := by
  unfold deleteBuildEndpoint
  refine obeys_bind (obeys_validateBuildTenantAccess ..) ?_
  rintro _ _ rfl
  refine settled_of_eq (s := inside auth.tenantId b false) trivial (obeys_deleteErrors _ ?_)
  refine obeys_bind (obeys_deleteDocumentBuild env) ?_
  rintro _ deleted rfl
  split
  · exact obeys_raise rfl
  · exact obeys_ret rfl

/-! ### Submission -/

theorem putless_of_does {φ : DocumentAi.Op → Prop} (h : ∀ op, φ op → Op.isPut op = false) {p : Prog α}
    (hp : Does φ p) : p.All fun op => Op.isPut op = false := by
  refine Effect.Prog.All.mono (fun op hop => ?_) hp
  rcases hop with hq | hop
  · cases op <;> first | rfl | cases hq
  · exact h op hop

theorem putless_insertMinimalDdbRecord (env : EnvConfig) (record : DocumentRecord) :
    (insertMinimalDdbRecord env record).All fun op => Op.isPut op = false := by
  refine putless_of_does (fun op hop => ?_) (does_upsertDdb env _)
  rcases hop with ⟨_, rfl⟩ | ⟨_, _, rfl⟩ <;> rfl

theorem putless_classifyAsAiConsentDeclined (env : EnvConfig) (k : String) (batchId : Option String) :
    (classifyAsAiConsentDeclined env k batchId).All fun op => Op.isPut op = false := by
  refine putless_of_does (fun op hop => ?_) (does_classifyWith ..)
  rcases hop with (⟨_, _, _, _, _, _, _, rfl⟩ | ⟨_, _, rfl⟩ | ⟨_, _, rfl⟩) | ⟨_, _, rfl, _⟩ <;> rfl

theorem putless_traceIdOrNew (traceId : Option String) :
    (traceIdOrNew traceId).All fun op => Op.isPut op = false := by
  unfold traceIdOrNew
  split
  · trivial
  · exact Effect.Prog.all_perform rfl

theorem obeys_declineBuild (env : EnvConfig) (b' traceId : String) (metadata : Row) :
    buildProtocol.Obeys (fun s' _ => s' = inside t b true) (fun _ _ => True) (inside t b true)
      (declineBuild env b' traceId metadata) := by
  unfold declineBuild
  have hE : ∀ (s' : BuildStage) (e : Exc), s' = inside t b true → True := fun _ _ _ => trivial
  refine obeys_bind ((obeys_putless steady_inside (Effect.Prog.all_perform rfl)).mono
    (fun _ _ h => h) hE) ?_
  rintro _ jobId rfl
  dsimp only
  split
  next tenantId apiKeyName _ _ =>
    refine obeys_bind ((obeys_putless steady_inside (putless_insertMinimalDdbRecord ..)).mono
      (fun _ _ h => h) hE) ?_
    rintro _ _ rfl
    refine obeys_bind ((obeys_putless steady_inside (putless_classifyAsAiConsentDeclined ..)).mono
      (fun _ _ h => h) hE) ?_
    rintro _ _ rfl
    refine obeys_bind ((obeys_getDocumentBuildPages reading_inside ..).mono (fun _ _ h => h) hE) ?_
    rintro _ pages rfl
    exact obeys_ret rfl
  · exact obeys_raise trivial
  · exact obeys_raise trivial

theorem obeys_takeLock (now : Timestamp) :
    buildProtocol.Obeys (fun s' _ => s' = locked t b) (fun _ _ => True) (inside t b true)
      (takeLock b now) := by
  unfold takeLock
  refine obeys_tryCatch (F := fun _ _ => True)
    (obeys_perform (.inr ⟨now, rfl⟩) (fun _ _ => rfl) fun _ _ => trivial) fun _ e _ => ?_
  dsimp only
  split <;> exact obeys_raise trivial

theorem obeys_stampPages (now : Timestamp) (rows : List (Nat × Row)) :
    buildProtocol.Obeys (fun s' _ => s' = locked t b) (fun s' _ => s' = locked t b) (locked t b)
      (stampPages b now rows) := by
  unfold stampPages
  generalize hpages : rows.filter (fun e => e.1 != 0) = pages
  have hne : ∀ e ∈ pages, e.1 ≠ 0 := by
    intro e he
    rw [← hpages] at he
    simpa using (List.mem_filter.1 he).2
  clear hpages
  induction pages with
  | nil => exact obeys_ret rfl
  | cons e pages ih =>
    refine obeys_bind (obeys_table (.inr (.inl ⟨e.1, now, hne e List.mem_cons_self, rfl⟩)) fun _ => rfl) ?_
    rintro _ _ rfl
    exact ih fun e' he' => hne e' (List.mem_cons_of_mem _ he')

theorem obeys_markDocumentBuildSubmitted :
    buildProtocol.Obeys (fun s' _ => s' = locked t b) (fun _ _ => True) (inside t b true)
      (markDocumentBuildSubmitted b) := by
  unfold markDocumentBuildSubmitted
  refine obeys_bind ((obeys_putless steady_inside (Effect.Prog.all_perform rfl)).mono
    (fun _ _ h => h) fun _ _ _ => trivial) ?_
  rintro _ submittedAt rfl
  refine obeys_bind (obeys_takeLock submittedAt) ?_
  rintro _ _ rfl
  refine obeys_bind ((obeys_read reading_locked rfl).mono (fun _ _ h => h) fun _ _ _ => trivial) ?_
  rintro _ rows rfl
  exact (obeys_stampPages ..).mono (fun _ _ h => h) fun _ _ _ => trivial

theorem obeys_addPages (env : EnvConfig) (pages : List PageMetadata) (writer : List Page) :
    buildProtocol.Obeys (fun s' _ => s' = locked t b) (fun s' _ => s' = locked t b) (locked t b)
      (addPages env pdf pages writer) := by
  induction pages generalizing writer with
  | nil => exact obeys_ret rfl
  | cons page pages ih =>
    refine obeys_bind (obeys_base steady_locked rfl _) ?_
    rintro _ obj rfl
    refine obeys_bind (obeys_liftExcept steady_locked _) ?_
    rintro _ added rfl
    exact ih _

theorem obeys_uploadMerged (env : EnvConfig) (auth : UserContext) (location b' traceId : String)
    (uploadSource : Option String) (pages : List PageMetadata) :
    buildProtocol.Obeys (fun s' _ => s' = locked t b) (fun s' _ => s' = locked t b) (locked t b)
      (uploadMerged env pdf auth location b' traceId uploadSource pages) := by
  unfold uploadMerged mergePagesToPdf
  refine obeys_bind (Q := fun (s' : BuildStage) _ => s' = locked t b)
    (obeys_bind (obeys_addPages env _ _) fun s _ hs => obeys_ret hs) ?_
  rintro _ mergedPdf rfl
  refine obeys_bind (obeys_base steady_locked rfl _) ?_
  rintro _ jobId rfl
  refine obeys_bind (obeys_base steady_locked rfl _) ?_
  rintro _ suffix rfl
  refine obeys_bind (obeys_base steady_locked rfl _) ?_
  rintro _ _ rfl
  refine obeys_bind (obeys_base steady_locked rfl _) ?_
  rintro _ _ rfl
  exact obeys_ret rfl

theorem obeys_rollBackOnError {p : BProg SubmitResult}
    (hp : buildProtocol.Obeys (fun s' _ => s' = locked t b) (fun s' _ => s' = locked t b) (locked t b) p) :
    buildProtocol.Obeys (fun s' _ => s' = locked t b) (fun _ _ => True) (locked t b)
      (rollBackOnError b p) := by
  refine obeys_tryCatch hp ?_
  have hclear : buildProtocol.Obeys (fun _ (_ : SubmitResult) => False) (fun _ _ => True) (locked t b)
      ((clearSubmittedAt b).tryCatch (fun _ => .ret ()) |>.bind fun _ =>
        .raise (.httpException 500 "Failed to submit document build")) := by
    refine obeys_bind (Q := fun _ _ => True) ?_ fun _ _ _ => obeys_raise trivial
    exact obeys_tryCatch (F := fun _ _ => True)
      (obeys_perform (.inr (.inr rfl)) (fun _ _ => trivial) fun _ _ => trivial) fun _ _ _ => trivial
  rintro _ e rfl
  cases e with
  | httpException status detail => exact obeys_raise trivial
  | _ => exact hclear.mono (fun _ _ h => h.elim) fun _ _ h => h

theorem obeys_submitPages (env : EnvConfig) (auth : UserContext) (traceId : String)
    (uploadSource : Option String) :
    buildProtocol.Obeys (fun s' _ => s' = locked t b) (fun _ _ => True) (inside t b true)
      (submitPages env pdf auth b traceId uploadSource) := by
  unfold submitPages
  refine obeys_bind ((obeys_getDocumentBuildPages reading_inside ..).mono (fun _ _ h => h)
    fun _ _ _ => trivial) ?_
  rintro _ pages rfl
  dsimp only
  split
  · exact obeys_raise trivial
  · split
    next => exact obeys_raise trivial
    next location _ =>
      refine obeys_bind ((obeys_liftExcept steady_inside _).mono (fun _ _ h => h)
        fun _ _ _ => trivial) ?_
      rintro _ _ rfl
      refine obeys_bind obeys_markDocumentBuildSubmitted ?_
      rintro _ _ rfl
      exact obeys_rollBackOnError (obeys_uploadMerged ..)

theorem obeys_submitDocumentBuild (env : EnvConfig) (auth : UserContext) (traceId : Option String) :
    buildProtocol.Obeys (fun s _ => s.Settled) (fun _ _ => True) (outside auth.tenantId b true)
      (submitDocumentBuild env pdf auth b traceId) := by
  unfold submitDocumentBuild submitBuild
  refine obeys_bind (obeys_validateBuildTenantAccess ..) ?_
  rintro _ _ rfl
  refine obeys_bind (Q := fun (s : BuildStage) _ => s.Settled) ?_ fun s _ hs => obeys_ret hs
  refine obeys_bind ((obeys_putless steady_inside (putless_traceIdOrNew traceId)).mono
    (fun _ _ h => h) fun _ _ _ => trivial) ?_
  rintro _ trace rfl
  refine obeys_bind ((obeys_read reading_inside rfl).mono (fun _ _ h => h) fun _ _ _ => trivial) ?_
  rintro _ metadata rfl
  dsimp only
  split
  next row _ => exact settled_of_eq (s := inside auth.tenantId b true) trivial (obeys_declineBuild ..)
  next =>
    refine (obeys_submitPages ..).mono ?_ fun _ _ h => h
    rintro _ _ rfl
    exact trivial

theorem obeys_request (e : Request) :
    buildProtocol.Obeys (fun s _ => s.Settled) (fun _ _ => True) e.stage ((buildPool pdf).body e) := by
  cases e with
  | create auth form traceId => exact obeys_createBuild auth form traceId
  | uploadPage env auth file form => exact obeys_uploadDocumentBuildPage env auth file form
  | batchPage env auth files idx form => exact obeys_pageOfBatch env auth files idx form
  | deletePage env auth buildId n => exact obeys_deletePageEndpoint env auth buildId n
  | deleteBuild env auth buildId => exact obeys_deleteBuildEndpoint env auth buildId
  | submit env auth buildId traceId => exact obeys_submitDocumentBuild env auth traceId
  | other e =>
    exact settled_of_eq (s := .other) trivial
      ((obeys_base (fun _ _ => rfl) rfl _).mono (fun _ _ h => h) fun _ _ _ => trivial)

end

/-! ## One call -/

/-- The row of `key`, an empty one when there is none. -/
def rowAt (t : Table) (key : PageKey) : Row := (t.item key).getD fun _ => none

open BuildStage in
/-- What a call does to the table and to the stage of its request. -/
inductive Step (w w' : World × Table) :
    (op : tableSig.Op) → tableSig.Ans op → BuildStage → BuildStage → Prop where
  | aside {op : tableSig.Op} {ans : tableSig.Ans op} (s : BuildStage) (table : w'.2 = w.2)
      (change : ∀ b, onTable (TableOp.isChange b) ⟨op, ans⟩ = false)
      (upload : s.putsNothing = true → isUpload ⟨op, ans⟩ = false) : Step w w' op ans s s
  | draw {s : BuildStage} {t u : String} (hs : s = creating t ∨ ∃ b, s = drawn t b)
      (fresh : u ∉ w.1.uuids) (known : u ∈ w'.1.uuids) (table : w'.2 = w.2) :
      Step w w' (.inl .uuid4) (.ok u) s (drawn t u)
  | create {t b : String} {row : Row} (tenant : row.tenantId = some t) (free : row.submittedAt = none)
      (table : w'.2 = w.2.put (metadataKey b) row) :
      Step w w' (.inr (.putItem (metadataKey b) row false)) (.ok ()) (drawn t b) (made t b)
  | enter {t b : String} {sub : Bool} {row : Row} (item : w.2.item (metadataKey b) = some row)
      (tenant : row.tenantId = some t) (table : w'.2 = w.2) :
      Step w w' (.inr (.getItem (metadataKey b))) (.ok (some row)) (outside t b sub) (inside t b sub)
  | putPage {t b : String} {n : Nat} {row : Row} {ifAbsent : Bool} (hn : n ≠ 0)
      (table : w'.2 = w.2.put (b, n) row) :
      Step w w' (.inr (.putItem (b, n) row ifAbsent)) (.ok ()) (inside t b false) (inside t b false)
  | delete {t b : String} {n : Nat} (table : w'.2 = w.2.delete (b, n)) :
      Step w w' (.inr (.deleteItem (b, n))) (.ok ()) (inside t b false) (inside t b false)
  | lock {t b : String} {now : Timestamp} {row : Row}
      (free : (rowAt w.2 (metadataKey b)).submittedAt = none) (set : row.submittedAt = some now)
      (tenant : row.tenantId = (rowAt w.2 (metadataKey b)).tenantId)
      (table : w'.2 = w.2.put (metadataKey b) row) :
      Step w w' (.inr (.updateItem (metadataKey b) (lockRequest now))) (.ok ()) (inside t b true)
        (locked t b)
  | stamp {t b : String} {n : Nat} {now : Timestamp} {row : Row} (hn : n ≠ 0)
      (table : w'.2 = w.2.put (b, n) row) :
      Step w w' (.inr (.updateItem (b, n) (stampRequest now))) (.ok ()) (locked t b) (locked t b)
  | rollBack {t b : String} {row : Row} (tenant : row.tenantId = (rowAt w.2 (metadataKey b)).tenantId)
      (table : w'.2 = w.2.put (metadataKey b) row) :
      Step w w' (.inr (.removeSubmittedAt (metadataKey b))) (.ok ()) (locked t b) (rolledBack t b)

section
open BuildStage

variable {w w' : World × Table} {s : BuildStage}

theorem next_base {op : DocumentAi.Op} (ans : sig.Ans op) :
    s.next (.inl op) ans = s ∨ op = .uuid4 ∧ ∃ t, s = creating t ∨ ∃ b, s = drawn t b := by
  cases s with
  | creating t =>
    cases op with
    | uuid4 => exact .inr ⟨rfl, t, .inl rfl⟩
    | _ => exact .inl rfl
  | drawn t b =>
    cases op with
    | uuid4 => exact .inr ⟨rfl, t, .inr ⟨b, rfl⟩⟩
    | _ => exact .inl rfl
  | _ => exact .inl rfl

theorem step_next {op : tableSig.Op} {ans : tableSig.Ans op} {s' : BuildStage} (h : s.next op ans = s')
    (hstep : Step w w' op ans s s') : Step w w' op ans s (s.next op ans) := by
  rw [h]
  exact hstep

theorem next_uuid4 {t u : String} (hs : s = creating t ∨ ∃ b, s = drawn t b) :
    s.next (.inl .uuid4) (.ok u) = drawn t u := by
  rcases hs with rfl | ⟨b, rfl⟩ <;> rfl

theorem isUpload_of_isPut {op : DocumentAi.Op} (h : Op.isPut op = false) (ans : sig.Ans op) :
    isUpload ⟨.inl op, ans⟩ = false := by
  unfold isUpload
  cases op <;> first | exact Bool.and_false _ | cases h

theorem onTable_base (f : TableOp → Bool) {op : DocumentAi.Op} (ans : sig.Ans op) :
    onTable f ⟨.inl op, ans⟩ = false := Bool.and_false _

theorem isUpload_table {op : TableOp} (ans : Except Exc op.Res) : isUpload ⟨.inr op, ans⟩ = false :=
  Bool.and_false _

theorem step_base {op : DocumentAi.Op} {ch : Choice} {ans : sig.Ans op} (ha : s.allow (.inl op))
    (hx : w.1.exec op ch = some (ans, w'.1)) (ht : w'.2 = w.2) :
    Step w w' (.inl op) ans s (s.next (.inl op) ans) := by
  rcases next_base (s := s) ans with hnext | ⟨rfl, t, hs⟩
  · exact step_next hnext (.aside s ht (fun b => onTable_base _ ans) fun h => isUpload_of_isPut (ha h) ans)
  · obtain ⟨rfl, hfresh, hw⟩ := exec_uuid4 hx
    refine step_next (next_uuid4 hs) (.draw hs hfresh ?_ ht)
    rw [hw]
    exact List.mem_cons_self

/-- A failed request on the table, and one that reads. -/
theorem step_unchanged {op : TableOp} {ans : Except Exc op.Res} (ht : w'.2 = w.2)
    (h : (∃ e, ans = .error e) ∨ op.isRead = true) : Step w w' (.inr op) ans s s := by
  refine .aside s ht (fun b => ?_) fun _ => isUpload_table ans
  rcases h with ⟨e, rfl⟩ | hread
  · rfl
  · unfold onTable
    cases op <;> first | exact Bool.and_false _ | cases hread

theorem step_read {op : TableOp} {ans : Except Exc op.Res} (hs : s.Reading) (hread : op.isRead = true)
    (hx : runTable w.2 op = (ans, w'.2)) : Step w w' (.inr op) ans s (s.next (.inr op) ans) := by
  refine step_next ((hs.2 op hread).2 ans) (step_unchanged ?_ (.inr hread))
  cases op <;> first | exact (Prod.mk.inj hx).2.symm | cases hread

theorem runTable_update {t t' : Table} {key : PageKey} {u : Dynamo.Update schema} {ans : Except Exc Unit}
    (h : runTable t (.updateItem key u) = (ans, t')) :
    (∃ e, ans = .error e ∧ t' = t) ∨
      ∃ row, ans = .ok () ∧ u.apply (rowAt t key) = .ok row ∧ t' = t.put key row := by
  simp only [runTable] at h
  split at h
  next t₁ hu =>
    obtain ⟨row, hrow, rfl⟩ := Dynamo.Table.update_eq_ok hu
    cases h
    exact .inr ⟨row, rfl, hrow, rfl⟩
  next e hu =>
    cases h
    exact .inl ⟨_, rfl, rfl⟩

theorem next_error (op : TableOp) (e : Exc) : s.next (.inr op) (.error e) = s := by
  cases s <;> cases op <;> rfl

theorem step_table {op : TableOp} {ans : Except Exc op.Res} (ha : s.allowTable op)
    (hx : runTable w.2 op = (ans, w'.2)) : Step w w' (.inr op) ans s (s.next (.inr op) ans) := by
  cases s with
  | drawn t b =>
    obtain ⟨row, htenant, hfree, rfl⟩ := ha
    simp only [runTable, Bool.false_eq_true, false_and, if_false, Prod.mk.injEq] at hx
    obtain ⟨rfl, ht⟩ := hx
    exact .create htenant hfree ht.symm
  | outside t b sub =>
    obtain rfl := ha
    simp only [runTable, Prod.mk.injEq] at hx
    obtain ⟨rfl, ht⟩ := hx
    change Step w w' _ _ _ (afterCheck t b sub (.ok (w.2.item (metadataKey b))))
    unfold afterCheck
    dsimp only
    split
    next htenant =>
      obtain ⟨row, hrow, htenant⟩ := Option.bind_eq_some_iff.1 htenant
      rw [hrow]
      exact .enter hrow htenant ht.symm
    next => exact step_unchanged ht.symm (.inr rfl)
  | inside t b sub =>
    cases sub with
    | true =>
      rcases ha with hread | ⟨now, rfl⟩
      · exact step_read reading_inside hread hx
      · rcases runTable_update hx with ⟨e, rfl, ht⟩ | ⟨row, rfl, hrow, ht⟩
        · exact step_unchanged ht (.inl ⟨e, rfl⟩)
        · obtain ⟨hcond, _, rfl⟩ := Dynamo.Update.apply_eq_ok hrow
          refine .lock (Option.isNone_iff_eq_none.1 hcond) ?_ ?_ ht <;> rfl
    | false =>
      rcases ha with hread | ⟨n, row, ifAbsent, hn, _, rfl⟩ | ⟨n, rfl⟩
      · exact step_read reading_inside hread hx
      · simp only [runTable] at hx
        split at hx
        · obtain ⟨rfl, ht⟩ := Prod.mk.inj hx
          exact step_unchanged ht.symm (.inl ⟨_, rfl⟩)
        · obtain ⟨rfl, ht⟩ := Prod.mk.inj hx
          exact .putPage hn ht.symm
      · simp only [runTable, Prod.mk.injEq] at hx
        obtain ⟨rfl, ht⟩ := hx
        exact .delete ht.symm
  | locked t b =>
    rcases ha with hread | ⟨n, now, hn, rfl⟩ | rfl
    · exact step_read reading_locked hread hx
    · rcases runTable_update hx with ⟨e, rfl, ht⟩ | ⟨row, rfl, _, ht⟩
      · exact step_unchanged ht (.inl ⟨e, rfl⟩)
      · exact .stamp hn ht
    · simp only [runTable, Prod.mk.injEq] at hx
      obtain ⟨rfl, ht⟩ := hx
      refine .rollBack ?_ ht.symm
      rfl
  | _ => exact ha.elim

/-- Every allowed call is one of these steps. -/
theorem step_of {op : tableSig.Op} {ch : Choice} {ans : tableSig.Ans op} (ha : s.allow op)
    (hx : (buildPool pdf).exec w op ch = some (ans, w')) : Step w w' op ans s (s.next op ans) := by
  cases op with
  | inl op =>
    change (system.extend Table tableStore).exec w (.inl op) ch = some (ans, w') at hx
    obtain ⟨hcall, ht⟩ := Effect.Sys.extend_inl.1 hx
    exact step_base ha hcall ht
  | inr op =>
    obtain ⟨hcall, _⟩ := Effect.Sys.extend_inr.1 hx
    unfold tableStore at hcall
    split at hcall
    next e _ =>
      obtain ⟨rfl, ht⟩ := Prod.mk.inj (Option.some.inj hcall)
      exact step_next (next_error op e) (step_unchanged ht.symm (.inl ⟨e, rfl⟩))
    next => exact step_table ha (Option.some.inj hcall)

theorem uuids_grow {op : tableSig.Op} {ch : Choice} {ans : tableSig.Ans op}
    (hx : (buildPool pdf).exec w op ch = some (ans, w')) : ∀ u ∈ w.1.uuids, u ∈ w'.1.uuids := by
  intro u hu
  cases op with
  | inl op =>
    change (system.extend Table tableStore).exec w (.inl op) ch = some (ans, w') at hx
    have hcall : w.1.exec op ch = some (ans, w'.1) := (Effect.Sys.extend_inl.1 hx).1
    by_cases hop : op = Op.uuid4
    · subst hop
      rw [(exec_uuid4 hcall).2.2]
      exact List.mem_cons_of_mem _ hu
    · rw [(exec_frame hcall).uuids hop]
      exact hu
  | inr op =>
    obtain ⟨_, hw⟩ := Effect.Sys.extend_inr.1 hx
    rw [hw]
    exact hu

end

end DocumentAi.Builds
