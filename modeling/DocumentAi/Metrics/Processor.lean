import Mathlib.Data.List.Infix
import DocumentAi.Lib.Json
import DocumentAi.Lib.Sequential
import DocumentAi.Services

/-!
# From the metrics queue to the metrics store (`jobs/metrics_processor`)

| here | there |
| --- | --- |
| `camelToSnake`    | `camel_to_snake` (`utils/strings.py:12-15`); the two substitutions are `splitWords` and `splitHumps`, and `lower()` is that of ASCII, as the names of the record are |
| `writeToS3`       | `write_to_s3` (`main.py:28-49`) |
| `processMessage`   | the body of the handler's loop (`handler.py:42-54`); spans are left out |
| `handler`         | `handler` (`handler.py:22-58`) |
| `IsoFormat`       | **datetime boundary**: `isoformat` of an aware time, and `fromisoformat` |
| `acknowledged`    | **SQS boundary**: the event source deletes the whole batch when the handler returns and nothing when it raises; no partial batch response is configured |
-/

namespace DocumentAi.Metrics

open Effect

/-! ## Keys -/

def isLower (c : Char) : Bool := decide ('a' ≤ c ∧ c ≤ 'z')
def isUpper (c : Char) : Bool := decide ('A' ≤ c ∧ c ≤ 'Z')

/-- `re.sub("(.)([A-Z][a-z]+)", r"\1_\2", name)`. `avail` says that the previous character is not
part of a match, `word` that a match is still being read. -/
def splitWords : (avail word : Bool) → List Char → List Char
  | _, _, []              => []
  | avail, word, c :: cs =>
    if word && isLower c then c :: splitWords false true cs
    else if avail && isUpper c && cs.head?.any isLower then '_' :: c :: splitWords false true cs
    else c :: splitWords (c != '\n') false cs

/-- `re.sub("([a-z0-9])([A-Z])", r"\1_\2", name)`, after the character `prev`. -/
def splitHumps : (prev : Char) → List Char → List Char
  | _, []         => []
  | prev, c :: cs =>
    if (isLower prev || prev.isDigit) && isUpper c then '_' :: c :: splitHumps c cs
    else c :: splitHumps c cs

def camelToSnake (name : List Char) : List Char :=
  (splitHumps '_' (splitWords false false name)).map Char.toLower

example : camelToSnake "bdaMatchedS3Uri".toList = "bda_matched_s3_uri".toList := by decide +kernel

/-! ## Calls -/

inductive Op where
  | now
  | uuid4
  | putObject (bucket : String) (key body : List Char) (contentType : String)

def Op.Res : Op → Type
  | now           => Timestamp
  | uuid4         => List Char
  | putObject ..  => Unit

abbrev sig : Sig := ⟨Op, Op.Res, Exc⟩

abbrev Prog (α : Type) : Type := Effect.Prog sig α

def call (op : Op) : Prog op.Res := Prog.perform (S := sig) op

structure DateTime where
  year  : Nat
  month : Nat
  day   : Nat
  hour  : Nat

structure IsoFormat where
  isoformat     : Timestamp → List Char
  fromisoformat : List Char → Option DateTime
  parses        : ∀ t, (fromisoformat (isoformat t)).isSome = true

/-! ## The handler -/

def convertKeysToSnakeCase : Json → Except Exc Json
  | .obj fields =>
    .ok (.obj (fields.foldl (fun d e => Json.setField d (camelToSnake e.1) e.2) []))
  | _           => .error (.exception "object has no attribute 'items'")

/-- `record.get("createdAt", default)`. -/
def createdAt (record : Json) (default : List Char) : Json :=
  match record with
  | .obj fields =>
    match fields.find? (·.1 == "createdAt".toList) with
    | some e => e.2
    | none   => .str default
  | _           => .str default

def fromisoformat (iso : IsoFormat) : Json → Except Exc DateTime
  | .str s =>
    match iso.fromisoformat s with
    | some dt => .ok dt
    | none    => .error (.valueError "Invalid isoformat string")
  | _      => .error (.exception "fromisoformat: argument must be str")

def twoDigits (n : Nat) : List Char := if n < 10 then '0' :: (toString n).toList else (toString n).toList

/-- `{METRICS_RAW_DDB_DATA_S3_PREFIX}={date}/hour={hour}`. -/
def partitionPath (dt : DateTime) : List Char :=
  "raw/utc/date=".toList ++ ((toString dt.year).toList ++ '-' :: twoDigits dt.month
    ++ '-' :: twoDigits dt.day) ++ "/hour=".toList ++ twoDigits dt.hour

def objectKey (dt : DateTime) (fileId : List Char) : List Char :=
  partitionPath dt ++ '/' :: fileId ++ ".json".toList

def writeToS3 (iso : IsoFormat) (bucketName : String) (record : Json) : Prog Unit := do
  let recordAsSnakeCase ← Prog.ofExcept (S := sig) (convertKeysToSnakeCase record)
  let now ← call .now
  let dt ← Prog.ofExcept (S := sig) (fromisoformat iso (createdAt record (iso.isoformat now)))
  let fileId ← call .uuid4
  call (.putObject bucketName (objectKey dt fileId) recordAsSnakeCase.dump "application/json")

/-- One record of the SQS event. -/
structure SqsRecord where
  messageId : String
  body      : Option (List Char)

def loadBody (record : SqsRecord) : Except Exc Json :=
  match record.body with
  | none      => .error (.exception "'body'")
  | some text =>
    match Json.loads text with
    | some body => .ok body
    | none      => .error (.valueError "JSONDecodeError")

/-- Whether the record was processed; an exception is logged and swallowed. -/
def processMessage (iso : IsoFormat) (bucketName : String) (record : SqsRecord) : Prog Bool := do
  try
    let body ← Prog.ofExcept (S := sig) (loadBody record)
    writeToS3 iso bucketName body
    pure true
  catch _ => pure false

def processMessages (iso : IsoFormat) (bucketName : String) : (processed : Nat) → List SqsRecord →
    Prog Nat
  | processed, []                => pure processed
  | processed, record :: records => do
    let ok ← processMessage iso bucketName record
    processMessages iso bucketName (if ok then processed + 1 else processed) records

structure Response where
  statusCode : Nat
  processed  : Nat

def handler (iso : IsoFormat) (ddbExportBucketName : Option String) (records : List SqsRecord) :
    Prog Response :=
  match ddbExportBucketName.filter (· ≠ "") with
  | none            => throw (.exception "DDB_EXPORT_BUCKET_NAME")
  | some bucketName => do
    let processed ← processMessages iso bucketName 0 records
    pure { statusCode := 200, processed }

/-! ## The store -/

structure StoredObject where
  bucket : String
  key    : List Char
  body   : List Char

structure World where
  objects : List StoredObject := []

structure Choice where
  error : Option Exc := none
  clock : Timestamp := 0
  fresh : List Char := []

/-- A failed call changes nothing. An identifier that is drawn is part of no key in the store. -/
def exec (w : World) (op : Op) (ch : Choice) : Option (sig.Ans op × World) :=
  match op with
  | .now                        => some (.ok ch.clock, w)
  | .uuid4                      =>
    if ∃ o ∈ w.objects, ch.fresh <:+: o.key then none else some (.ok ch.fresh, w)
  | .putObject bucket key body _ =>
    match ch.error with
    | some e => some (.error e, w)
    | none   =>
      some (.ok (), { objects := w.objects.filter (fun o => ¬ (o.bucket = bucket ∧ o.key = key))
        ++ [⟨bucket, key, body⟩] })

/-- One invocation of the handler. -/
structure Invocation where
  iso        : IsoFormat
  bucketName : Option String
  records    : List SqsRecord

def sys : Sys sig where
  World  := World
  Choice := Choice
  exec   := exec
  Entry  := Invocation
  body   := fun i => (handler i.iso i.bucketName i.records).bind fun _ => .ret ()

/-- The messages that the queue will not deliver again. -/
def acknowledged (records : List SqsRecord) : Except Exc Response → List SqsRecord
  | .ok _    => records
  | .error _ => []

/-- The object holds the message's record, under its date. -/
def Holds (iso : IsoFormat) (record : SqsRecord) (o : StoredObject) : Prop :=
  ∃ body snake now dt fileId, loadBody record = .ok body ∧ convertKeysToSnakeCase body = .ok snake ∧
    fromisoformat iso (createdAt body (iso.isoformat now)) = .ok dt ∧
    o.key = objectKey dt fileId ∧ o.body = snake.dump

/-- Each of the messages has an object of its own among those that were added. -/
def StoredAll (iso : IsoFormat) (w w' : World) (records : List SqsRecord) : Prop :=
  ∃ added, w'.objects = w.objects ++ added ∧ List.Forall₂ (Holds iso) records added

/-! ## Which messages can be stored -/

/-- The body is a JSON object whose `createdAt` is absent or a date. -/
def Storable (iso : IsoFormat) (record : SqsRecord) : Prop :=
  ∃ fields, loadBody record = .ok (.obj fields) ∧
    ∀ e, fields.find? (·.1 == "createdAt".toList) = some e →
      ∃ s, e.2 = .str s ∧ (iso.fromisoformat s).isSome = true

/-- No call of the run failed. -/
def AllAnswered (tr : List (Event sig)) : Prop := ∀ ev ∈ tr, ∃ a, ev.ans = .ok a

section
variable {iso : IsoFormat} {w w' : World} {tr : List (Event sig)}

theorem ends_ofExcept_iff {α : Type} {x r : Except Exc α} :
    Ends sys w (Prog.ofExcept (S := sig) x) tr r w' ↔ tr = [] ∧ r = x ∧ w' = w := by
  cases x with
  | ok a => exact ends_ret_iff
  | error e => exact ends_raise_iff

/-- A drawn identifier gives a key that is not in the store. -/
theorem key_fresh {fileId : List Char} (h : ¬ ∃ o ∈ w.objects, fileId <:+: o.key) (bucket : String)
    (dt : DateTime) : w.objects.filter
      (fun o => ¬ (o.bucket = bucket ∧ o.key = objectKey dt fileId)) = w.objects := by
  refine List.filter_eq_self.2 fun o ho => ?_
  simp only [decide_eq_true_eq]
  rintro ⟨-, hkey⟩
  refine h ⟨o, ho, partitionPath dt ++ ['/'], ".json".toList, ?_⟩
  rw [hkey, objectKey, List.append_assoc (partitionPath dt), List.singleton_append]

variable (iso) in
/-- `createdAt` of a record parses exactly when the record is storable. -/
theorem createdAt_parses_iff {fields : List (List Char × Json)} (now : Timestamp) :
    (∃ dt, fromisoformat iso (createdAt (.obj fields) (iso.isoformat now)) = .ok dt) ↔
      ∀ e, fields.find? (·.1 == "createdAt".toList) = some e →
        ∃ s, e.2 = .str s ∧ (iso.fromisoformat s).isSome = true := by
  cases hfind : fields.find? (·.1 == "createdAt".toList) with
  | none =>
    simp only [createdAt, hfind, reduceCtorEq, false_implies, implies_true, iff_true]
    obtain ⟨dt, hdt⟩ := Option.isSome_iff_exists.1 (iso.parses now)
    exact ⟨dt, by rw [fromisoformat, hdt]⟩
  | some e =>
    simp only [createdAt, hfind, Option.some.injEq, forall_eq']
    cases hv : e.2 with
    | str s =>
      simp only [fromisoformat, Json.str.injEq, exists_eq_left', Option.isSome_iff_exists]
      cases iso.fromisoformat s with
      | none => simp
      | some dt => simp
    | _ => simp [fromisoformat]

/-- The three ways a write ends: the record is not storable, a call has failed, or one object has
been added. -/
theorem ends_writeToS3 {bucketName : String} {body : Json} {r : Except Exc Unit}
    (h : Ends sys w (writeToS3 iso bucketName body) tr r w') :
    (∃ e, r = .error e ∧ w' = w ∧ (AllAnswered tr → ¬ ∃ fields, body = .obj fields ∧
      ∀ e, fields.find? (·.1 == "createdAt".toList) = some e →
        ∃ s, e.2 = .str s ∧ (iso.fromisoformat s).isSome = true)) ∨
    (r = .ok () ∧ AllAnswered tr ∧ ∃ o snake now dt fileId, w'.objects = w.objects ++ [o] ∧
      convertKeysToSnakeCase body = .ok snake ∧
      fromisoformat iso (createdAt body (iso.isoformat now)) = .ok dt ∧
      o.key = objectKey dt fileId ∧ o.body = snake.dump) := by
  simp only [writeToS3, call, Prog.bind_eq] at h
  rcases ends_bind_iff.1 h with ⟨e, hr, hc⟩ | ⟨snake, w₁, tr₁, tr₂, hc, h₂, htr⟩
  · obtain ⟨-, hconv, rfl⟩ := ends_ofExcept_iff.1 hc
    refine .inl ⟨e, hr, rfl, fun _ => ?_⟩
    rintro ⟨fields, rfl, -⟩
    cases hconv
  obtain ⟨rfl, hconv, rfl⟩ := ends_ofExcept_iff.1 hc
  rcases ends_bind_iff.1 h₂ with ⟨e, hr, hc⟩ | ⟨now, w₂, tr₃, tr₄, hc, h₃, rfl⟩
  · obtain ⟨ch, hx, -⟩ := ends_perform_iff.1 hc
    cases hx
  obtain ⟨ch, hx, rfl⟩ := ends_perform_iff.1 hc
  cases hx
  rcases ends_bind_iff.1 h₃ with ⟨e, hr, hc⟩ | ⟨dt, w₃, tr₅, tr₆, hc, h₄, rfl⟩
  · obtain ⟨-, hparse, rfl⟩ := ends_ofExcept_iff.1 hc
    refine .inl ⟨e, hr, rfl, fun _ => ?_⟩
    rintro ⟨fields, rfl, hcreated⟩
    obtain ⟨dt, hdt⟩ := (createdAt_parses_iff iso ch.clock).2 hcreated
    rw [hdt] at hparse
    cases hparse
  obtain ⟨rfl, hparse, rfl⟩ := ends_ofExcept_iff.1 hc
  rcases ends_bind_iff.1 h₄ with ⟨e, hr, hc⟩ | ⟨fileId, w₄, tr₇, tr₈, hc, h₅, rfl⟩
  · obtain ⟨ch', hx, -⟩ := ends_perform_iff.1 hc
    simp only [sys, exec] at hx
    split at hx <;> cases hx
  obtain ⟨ch', hx, rfl⟩ := ends_perform_iff.1 hc
  simp only [sys, exec] at hx
  split at hx
  · cases hx
  next hfresh =>
  cases hx
  obtain ⟨ch'', hput, rfl⟩ := ends_perform_iff.1 h₅
  simp only [sys, exec] at hput
  split at hput
  next e he =>
    cases hput
    refine .inl ⟨e, rfl, rfl, fun hall => ?_⟩
    have hmem : (⟨.putObject bucketName (objectKey dt ch'.fresh) snake.dump "application/json",
        .error e⟩ : Event sig) ∈ tr := by simp [htr]
    obtain ⟨a, ha⟩ := hall _ hmem
    cases ha
  next he =>
    cases hput
    refine .inr ⟨rfl, ?_, ⟨bucketName, objectKey dt ch'.fresh, snake.dump⟩, snake, ch.clock, dt,
      ch'.fresh, ?_, hconv.symm, hparse.symm, rfl, rfl⟩
    · intro ev hev
      simp only [htr, List.nil_append, List.cons_append, List.mem_cons, List.not_mem_nil, or_false] at hev
      rcases hev with rfl | rfl | rfl
      · exact ⟨_, rfl⟩
      · exact ⟨_, rfl⟩
      · exact ⟨_, rfl⟩
    · rw [key_fresh hfresh]

theorem AllAnswered.left {tr₁ tr₂ : List (Event sig)} (h : AllAnswered (tr₁ ++ tr₂)) :
    AllAnswered tr₁ := fun ev hev => h ev (List.mem_append_left _ hev)

theorem AllAnswered.right {tr₁ tr₂ : List (Event sig)} (h : AllAnswered (tr₁ ++ tr₂)) :
    AllAnswered tr₂ := fun ev hev => h ev (List.mem_append_right _ hev)

theorem AllAnswered.append {tr₁ tr₂ : List (Event sig)} (h₁ : AllAnswered tr₁)
    (h₂ : AllAnswered tr₂) : AllAnswered (tr₁ ++ tr₂) := by
  intro ev hev
  rcases List.mem_append.1 hev with hev | hev
  · exact h₁ ev hev
  · exact h₂ ev hev

/-- One record: the loop goes on, and either one object holds it or it is lost. -/
theorem ends_processMessage {bucketName : String} {record : SqsRecord} {r : Except Exc Bool}
    (h : Ends sys w (processMessage iso bucketName record) tr r w') :
    (r = .ok false ∧ w' = w ∧ ¬ (Storable iso record ∧ AllAnswered tr)) ∨
    (r = .ok true ∧ AllAnswered tr ∧ Storable iso record ∧
      ∃ o, w'.objects = w.objects ++ [o] ∧ Holds iso record o) := by
  simp only [processMessage, Prog.bind_eq, Prog.pure_eq] at h
  rcases ends_tryCatch_iff.1 h with ⟨a, hr, hp⟩ | ⟨e, w₁, tr₁, tr₂, hp, hcatch, htr⟩
  · rcases ends_bind_iff.1 hp with ⟨e, he, -⟩ | ⟨body, w₁, tr₁, tr₂, hload, h₂, htr⟩
    · cases he
    obtain ⟨rfl, hbody, rfl⟩ := ends_ofExcept_iff.1 hload
    rcases ends_bind_iff.1 h₂ with ⟨e, he, -⟩ | ⟨u, w₂, tr₃, tr₄, hwrite, h₃, htr₂⟩
    · cases he
    obtain ⟨rfl, ha, rfl⟩ := ends_ret_iff.1 h₃
    rcases ends_writeToS3 hwrite with ⟨e, he, -⟩ | ⟨-, hall, o, snake, now, dt, fileId, hobj, hconv,
      hparse, hkey, hdump⟩
    · cases he
    have htr' : tr = tr₃ := by rw [htr, htr₂, List.append_nil, List.nil_append]
    refine .inr ⟨by rw [hr, ha], htr' ▸ hall, ?_, o, hobj, body, snake, now, dt, fileId, hbody.symm,
      hconv, hparse, hkey, hdump⟩
    cases body with
    | obj fields =>
      exact ⟨fields, hbody.symm, (createdAt_parses_iff iso now).1 ⟨dt, hparse⟩⟩
    | _ => cases hconv
  · obtain ⟨rfl, rfl, rfl⟩ := ends_ret_iff.1 hcatch
    rcases ends_bind_iff.1 hp with ⟨e', -, hload⟩ | ⟨body, w₂, tr₃, tr₄, hload, h₂, htr₁⟩
    · obtain ⟨-, hbody, rfl⟩ := ends_ofExcept_iff.1 hload
      refine .inl ⟨rfl, rfl, ?_⟩
      rintro ⟨⟨fields, hfields, -⟩, -⟩
      rw [hfields] at hbody
      cases hbody
    obtain ⟨rfl, hbody, rfl⟩ := ends_ofExcept_iff.1 hload
    rcases ends_bind_iff.1 h₂ with ⟨e', -, hwrite⟩ | ⟨u, w₃, tr₅, tr₆, -, h₃, -⟩
    · rcases ends_writeToS3 hwrite with ⟨e'', -, rfl, hno⟩ | ⟨hr, -⟩
      · refine .inl ⟨rfl, rfl, ?_⟩
        rintro ⟨⟨fields, hfields, hcreated⟩, hall⟩
        rw [hfields] at hbody
        have htr' : tr = tr₄ := by rw [htr, htr₁, List.append_nil, List.nil_append]
        exact hno (htr' ▸ hall) ⟨fields, Except.ok.inj hbody, hcreated⟩
      · cases hr
    · cases h₃

/-- The loop, by induction on the records: it returns, and what it has added are objects for some
of the records, for all of them exactly when each is storable and no call failed. -/
theorem ends_processMessages {bucketName : String} {records : List SqsRecord} {n : Nat}
    {r : Except Exc Nat} (h : Ends sys w (processMessages iso bucketName n records) tr r w') :
    (∃ m, r = .ok m) ∧ ∃ added, w'.objects = w.objects ++ added ∧ added.length ≤ records.length ∧
      ((List.Forall₂ (Holds iso) records added ∧ (∀ record ∈ records, Storable iso record) ∧
          AllAnswered tr) ∨
        (added.length < records.length ∧
          ¬ ((∀ record ∈ records, Storable iso record) ∧ AllAnswered tr))) := by
  induction records generalizing w tr n with
  | nil =>
    obtain ⟨rfl, rfl, rfl⟩ := ends_ret_iff.1 h
    exact ⟨⟨n, rfl⟩, [], (List.append_nil _).symm, le_refl _,
      .inl ⟨.nil, fun _ hm => (by cases hm), fun _ hm => (by cases hm)⟩⟩
  | cons record records ih =>
    simp only [processMessages, Prog.bind_eq] at h
    rcases ends_bind_iff.1 h with ⟨e, -, hc⟩ | ⟨ok, w₁, tr₁, tr₂, hc, hrest, rfl⟩
    · rcases ends_processMessage hc with ⟨he, -⟩ | ⟨he, -⟩ <;> cases he
    obtain ⟨hret, added, hobj, hlen, hcase⟩ := ih hrest
    refine ⟨hret, ?_⟩
    rcases ends_processMessage hc with ⟨-, rfl, hlost⟩ | ⟨-, hall, hstorable, o, hadd, hholds⟩
    · refine ⟨added, hobj, Nat.le_succ_of_le hlen, .inr ⟨Nat.lt_succ_of_le hlen, ?_⟩⟩
      rintro ⟨hs, ha⟩
      exact hlost ⟨hs record List.mem_cons_self, ha.left⟩
    · refine ⟨o :: added, by rw [hobj, hadd, List.append_assoc]; rfl, Nat.succ_le_succ hlen, ?_⟩
      rcases hcase with ⟨hfor, hs, ha⟩ | ⟨hlt, hno⟩
      · exact .inl ⟨.cons hholds hfor, List.forall_mem_cons.2 ⟨hstorable, hs⟩, hall.append ha⟩
      · refine .inr ⟨Nat.succ_lt_succ hlt, ?_⟩
        rintro ⟨hs, ha⟩
        exact hno ⟨(List.forall_mem_cons.1 hs).2, ha.right⟩

/-- **No message is acknowledged without its record in the store if and only if the bucket is not
configured, so that the handler raises, or every message can be stored and no write fails.** -/
theorem acknowledged_stored_iff {bucketName : Option String} {records : List SqsRecord}
    {r : Except Exc Response} (h : Ends sys w (handler iso bucketName records) tr r w') :
    StoredAll iso w w' (acknowledged records r) ↔ bucketName.filter (· ≠ "") = none ∨
      ((∀ record ∈ records, Storable iso record) ∧ AllAnswered tr) := by
  cases hname : bucketName.filter (· ≠ "") with
  | none =>
    simp only [handler, hname] at h
    obtain ⟨rfl, rfl, rfl⟩ := ends_raise_iff.1 h
    simp only [true_or, iff_true]
    exact ⟨[], (List.append_nil _).symm, .nil⟩
  | some name =>
    simp only [handler, hname, Prog.bind_eq, Prog.pure_eq] at h
    simp only [reduceCtorEq, false_or]
    rcases ends_bind_iff.1 h with ⟨e, -, hc⟩ | ⟨m, w₁, tr₁, tr₂, hc, hret, rfl⟩
    · obtain ⟨⟨m, hm⟩, -⟩ := ends_processMessages hc
      cases hm
    obtain ⟨rfl, rfl, rfl⟩ := ends_ret_iff.1 hret
    obtain ⟨-, added, hobj, -, hcase⟩ := ends_processMessages hc
    rw [List.append_nil]
    constructor
    · rintro ⟨added', hobj', hfor⟩
      have heq : added' = added := List.append_cancel_left (hobj'.symm.trans hobj)
      rcases hcase with ⟨-, hs, ha⟩ | ⟨hlt, -⟩
      · exact ⟨hs, ha⟩
      · have hlen : records.length = added'.length := hfor.length_eq
        rw [heq] at hlen
        omega
    · intro hcond
      rcases hcase with ⟨hfor, -, -⟩ | ⟨-, hno⟩
      · exact ⟨added, hobj, hfor⟩
      · exact absurd hcond hno

end

/-! ## A batch of two messages -/

/-- Every text is a date, of one and the same day. -/
def sampleIso : IsoFormat where
  isoformat     := fun _ => []
  fromisoformat := fun _ => some ⟨2026, 1, 31, 9⟩
  parses        := fun _ => rfl

def sampleMessage (id : String) : SqsRecord := ⟨id, some "\x7b\"jobId\": \"1\"\x7d".toList⟩

def sampleBatch : List SqsRecord := [sampleMessage "a", sampleMessage "b"]

/-- The batch, with the answer to its first write. -/
def sampleRun (error : Option Exc) : Option (List (Event sig) × Prog Response × World) :=
  follow sys {} (handler sampleIso (some "metrics") sampleBatch)
    [{}, { fresh := "u1".toList }, { error }, {}, { fresh := "u2".toList }, {}]

theorem ends_sampleRun {error : Option Exc} {tr : List (Event sig)} {q : Prog Response} {w' : World}
    (h : sampleRun error = some (tr, q, w')) {r : Except Exc Response} (hr : q.result = some r) :
    Ends sys {} (handler sampleIso (some "metrics") sampleBatch) tr r w' := by
  have hsteps := steps_of_follow h
  rw [Prog.eq_ofExcept hr] at hsteps
  exact hsteps

theorem acknowledged_stored_sample : ∃ tr r w',
    Ends sys {} (handler sampleIso (some "metrics") sampleBatch) tr r w' ∧
      (StoredAll sampleIso {} w' (acknowledged sampleBatch r) ↔
        (some "metrics").filter (· ≠ "") = none ∨
          ((∀ record ∈ sampleBatch, Storable sampleIso record) ∧ AllAnswered tr)) := by
  have hrun : ((sampleRun none).bind fun x => x.2.1.result).isSome = true := by decide +kernel
  obtain ⟨r, hr⟩ := Option.isSome_iff_exists.1 hrun
  obtain ⟨⟨tr, q, w'⟩, hsome, hq⟩ := Option.bind_eq_some_iff.1 hr
  exact ⟨tr, r, w', ends_sampleRun hsome hq, acknowledged_stored_iff (ends_sampleRun hsome hq)⟩

/-- The first write of the batch fails; the handler returns and the message is gone. -/
theorem acknowledged_stored_fails : ¬ ∀ (iso : IsoFormat) (bucketName : Option String)
    (records : List SqsRecord) (w w' : World) (tr : List (Event sig)) (r : Except Exc Response),
    Ends sys w (handler iso bucketName records) tr r w' →
      StoredAll iso w w' (acknowledged records r) := by
  intro hall
  have hrun : ((sampleRun (some (.clientError .serviceUnavailableException))).bind fun x =>
      if x.1.all (fun ev => ev.ans.isOk) then none else x.2.1.result).isSome = true := by
    decide +kernel
  obtain ⟨r, hr⟩ := Option.isSome_iff_exists.1 hrun
  obtain ⟨⟨tr, q, w'⟩, hsome, hq⟩ := Option.bind_eq_some_iff.1 hr
  split at hq
  · cases hq
  next hfailed =>
    have hends := ends_sampleRun hsome hq
    rcases (acknowledged_stored_iff hends).1 (hall _ _ _ _ _ _ _ hends) with hnone | ⟨-, hans⟩
    · cases hnone
    · refine hfailed (List.all_eq_true.2 fun ev hev => ?_)
      obtain ⟨a, ha⟩ := hans ev hev
      rw [ha]
      rfl

end DocumentAi.Metrics
