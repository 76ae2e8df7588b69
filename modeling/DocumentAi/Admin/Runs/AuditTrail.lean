import DocumentAi.Admin.AuditLog
import DocumentAi.Lib.Protocol
import Mathlib.Data.List.Perm.Basic

/-!
# What the audit log holds, and what its listings show

Each call of `log_event` draws an id of its own, so that no row is ever replaced. It writes the row
of the tenant first and the global row after it; either write can fail, and the caller never hears
of it.

| here | meaning |
| --- | --- |
| `auditSystem`   | calls of `log_event`, at any time and any number of times |
| `Stamped`       | an event with the id and the times that its call has drawn |
| `Stage`         | how far a call has come, read off its answers |
| `landed t`      | the rows that a call has put, in the order it put them |
| `landed_in_order`    | the table is what the calls have put, each the row of the tenant first |
| `listing_of_tenant`  | between two days: each event of the tenant once, newest first |
| `listing_of_request` | each way of asking: the rows that were put and asked for |
| `listing_of_actor`   | a search without a tenant: an event as often as it was put |
-/

namespace DocumentAi.AuditLog

open Effect (Event Protocol)
open Effect.Protocol (Obeys obeys_bind obeys_tryCatch obeys_perform obeys_ret obeys_ite)
open DocumentAi.Admin (Claims GLOBAL_TENANT nonEmpty nonEmpty_eq_none tenantScope)
open Iso (UtcTime isoformat)

/-! ## The table -/

/-- `ids` are the ids that `ULID()` has drawn. -/
structure Store where
  rows : List AuditEventRecord := []
  ids  : List (List Char) := []

/-- The environment's part in one call. -/
structure Choice where
  fail    : Option Exc := none
  eventId : List Char := []
  now     : UtcTime := ⟨⟨2026, 1, 1, by decide, by decide, by decide⟩, 0, 0, 0, 0, by decide, by decide,
    by decide, by decide⟩
  seconds : Nat := 0

def IsUlid (s : List Char) : Prop :=
  s.length = 26 ∧ ∀ c ∈ s, c ∈ "0123456789ABCDEFGHJKMNPQRSTVWXYZ".toList

instance (s : List Char) : Decidable (IsUlid s) :=
  @instDecidableAnd _ _ _ (List.decidableBAll _ _)

def sameKey (r r' : AuditEventRecord) : Bool :=
  r.tenantId == r'.tenantId && r.timestampEventId == r'.timestampEventId

namespace Store

def put (s : Store) (item : AuditEventRecord) : Store :=
  { s with rows := item :: s.rows.filter fun r => !sameKey r item }

def exec (s : Store) (op : Op) (ch : Choice) : Option (sig.Ans op × Store) :=
  match op with
  | .ulid         =>
    if ch.eventId ∈ s.ids ∨ ¬ IsUlid ch.eventId then none
    else some (.ok ch.eventId, { s with ids := ch.eventId :: s.ids })
  | .now          => some (.ok ch.now, s)
  | .time         => some (.ok ch.seconds, s)
  | .putItem item =>
    match ch.fail with
    | some e => some (.error e, s)
    | none   => some (.ok (), s.put item)

end Store

abbrev auditSystem (auditEventsTableName : Option String) : Effect.Sys sig where
  World  := Store
  Choice := Choice
  exec   := Store.exec
  Entry  := Logged
  body   := logEvent auditEventsTableName

/-! ## How far a call has come -/

structure Stamped where
  logged  : Logged
  eventId : List Char
  now     : UtcTime
  seconds : Nat

namespace Stamped

def item (s : Stamped) (tenant : String) : AuditEventRecord :=
  s.logged.item s.eventId s.now s.seconds tenant

/-- The rows of an event, in the order they are put. -/
def items (s : Stamped) : List AuditEventRecord :=
  s.item s.logged.partition ::
    if s.logged.partition ≠ GLOBAL_TENANT then [s.item GLOBAL_TENANT] else []

end Stamped

/-- `putting s n stopped`: the first `n` rows are put; `stopped` when a put has failed. -/
inductive Stage where
  | called (e : Logged)
  | drawn (e : Logged) (eventId : List Char)
  | timed (e : Logged) (eventId : List Char) (now : UtcTime)
  | putting (s : Stamped) (n : Nat) (stopped : Bool)

namespace Stage

def logged : Stage → Logged
  | called e       => e
  | drawn e _      => e
  | timed e _ _    => e
  | putting s _ _  => s.logged

def eventId : Stage → Option (List Char)
  | called _       => none
  | drawn _ id     => some id
  | timed _ id _   => some id
  | putting s _ _  => some s.eventId

def stamped : Stage → Option Stamped
  | putting s _ _ => some s
  | _             => none

def rows : Stage → List AuditEventRecord
  | putting s n _ => s.items.take n
  | _             => []

def failed : Stage → Bool
  | putting _ _ stopped => stopped
  | _                => false

def allow : Stage → Op → Prop
  | called _, op         => op = .ulid
  | drawn .., op         => op = .now
  | timed .., op         => op = .time
  | putting s n stopped, op => stopped = false ∧ ∃ r, s.items[n]? = some r ∧ op = .putItem r

def next : Stage → (op : Op) → sig.Ans op → Stage
  | called e, .ulid, .ok id            => drawn e id
  | drawn e id, .now, .ok now          => timed e id now
  | timed e id now, .time, .ok seconds => putting ⟨e, id, now, seconds⟩ 0 false
  | putting s n _, .putItem _, .ok _   => putting s (n + 1) false
  | putting s n _, .putItem _, .error _ => putting s n true
  | s, _, _                            => s

/-- Only a put can fail. -/
def possible (_ : Stage) : (op : Op) → sig.Ans op → Prop
  | .putItem _, _ => True
  | _, .ok _      => True
  | _, .error _   => False

/-- A call that has come to its end has put all its rows, unless a put failed. -/
def Ended (auditEventsTableName : Option String) : Stage → Prop
  | putting s n stopped =>
    stopped = false → nonEmpty auditEventsTableName ≠ none → s.items.length ≤ n
  | _ => False

end Stage

abbrev auditProtocol : Protocol sig where
  State    := Stage
  allow    := Stage.allow
  possible := Stage.possible
  next     := Stage.next

variable {auditEventsTableName : Option String}

theorem allow_putItem {s : Stamped} {n : Nat} {r : AuditEventRecord} (h : s.items[n]? = some r) :
    auditProtocol.allow (.putting s n false) (.putItem r) :=
  ⟨rfl, r, h, rfl⟩

/-- `log_event` draws an id, reads the clocks and puts its rows in order; it never raises. -/
theorem logEvent_obeys (e : Logged) :
    auditProtocol.Obeys (fun (s : Stage) (_ : Unit) => s.Ended auditEventsTableName) (fun _ _ => False)
      (.called e) (logEvent auditEventsTableName e) := by
  refine obeys_bind (Q := fun (s : Stage) id => s = .drawn e id) (obeys_perform rfl (fun id _ => rfl)
    (fun _ h => h)) fun s id hs => ?_
  subst hs
  refine obeys_bind (Q := fun (s : Stage) now => s = .timed e id now) (obeys_perform rfl (fun now _ => rfl)
    (fun _ h => h)) fun s now hs => ?_
  subst hs
  refine obeys_bind (Q := fun (s : Stage) seconds => s = .putting ⟨e, id, now, seconds⟩ 0 false)
    (obeys_perform rfl (fun seconds _ => rfl) (fun _ h => h)) fun s seconds hs => ?_
  subst hs
  refine obeys_tryCatch (F := fun (s : Stage) _ => s.Ended auditEventsTableName) ?_ fun s _ hs => hs
  cases hname : getTableName auditEventsTableName with
  | error ex =>
    have hnone : nonEmpty auditEventsTableName = none := by
      unfold getTableName at hname
      cases hn : nonEmpty auditEventsTableName with
      | none => rfl
      | some name =>
        rw [hn] at hname
        cases hname
    exact fun _ hne => absurd hnone hne
  | ok name =>
    refine obeys_bind (Q := fun (s : Stage) _ => s = .putting ⟨e, id, now, seconds⟩ 0 false)
      (obeys_ret rfl) fun s _ hs => ?_
    subst hs
    -- the tenant's row
    refine obeys_bind (Q := fun (s : Stage) _ => s = .putting ⟨e, id, now, seconds⟩ 1 false)
      (obeys_perform (allow_putItem rfl) (fun _ _ => rfl) fun _ _ => ?_)
      fun s _ hs => ?_
    · exact fun hover => (by cases hover)
    subst hs
    refine obeys_ite (fun hglobal => ?_) fun hglobal => ?_
    · -- the global row
      have hitems : Stamped.items ⟨e, id, now, seconds⟩ =
          [e.item id now seconds e.partition, e.item id now seconds GLOBAL_TENANT] := by
        simp only [Stamped.items, if_pos hglobal]
        rfl
      refine obeys_perform (allow_putItem (by rw [hitems]; rfl)) (fun _ _ => ?_) fun _ _ => ?_
      · refine fun _ _ => ?_
        rw [hitems]
        exact Nat.le_refl 2
      · exact fun hover => (by cases hover)
    · refine fun _ _ => ?_
      simp [Stamped.items, not_not.1 hglobal]

/-! ## What a call has put -/

/-- The row of a put that was answered without an error. -/
def landedPut (ev : Event sig) : Option AuditEventRecord :=
  match ev with
  | ⟨.putItem item, ans⟩ =>
    match (ans : Except Exc Unit) with
    | .ok _    => some item
    | .error _ => none
  | _ => none

def isFailedPut (ev : Event sig) : Bool :=
  match ev with
  | ⟨.putItem _, ans⟩ =>
    match (ans : Except Exc Unit) with
    | .ok _    => false
    | .error _ => true
  | _ => false

section
variable (t : Effect.Thread (auditSystem auditEventsTableName))

def landed : List AuditEventRecord := (t.trace.filterMap landedPut).reverse

def hasFailedPut : Bool := t.trace.any isFailedPut

abbrev stageOf : Stage := auditProtocol.loc .called t

/-- The event of a call, once it has drawn its id and its times. -/
def stampedOf : Option Stamped := (stageOf t).stamped

/-- The stage of a call says what its answers are. -/
structure Reads : Prop where
  logged : (stageOf t).logged = t.entry
  rows   : landed t = (stageOf t).rows
  failed : hasFailedPut t = (stageOf t).failed

end

section
variable {t : Effect.Thread (auditSystem auditEventsTableName)} {op : Op}
  {k : sig.Ans op → Prog Unit} {ans : sig.Ans op}

theorem landed_resume : landed (t.resume k ans) = landed t ++ (landedPut ⟨op, ans⟩).toList := by
  unfold landed
  rw [Effect.Thread.resume]
  cases h : landedPut ⟨op, ans⟩ <;> simp [h]

theorem hasFailedPut_resume :
    hasFailedPut (t.resume k ans) = (isFailedPut ⟨op, ans⟩ || hasFailedPut t) := rfl

/-- What an allowed request does to the stage: one draws the id, only a put changes the rows. -/
theorem next_cases {s : Stage} (ha : s.allow op) (hp : s.possible op ans) :
    ((s.next op ans).logged = s.logged ∧ (s.next op ans).rows = s.rows ∧
      landedPut ⟨op, ans⟩ = none ∧
      (s.next op ans).failed = (isFailedPut ⟨op, ans⟩ || s.failed)) ∨
    ∃ e n r, s = .putting e n false ∧ e.items[n]? = some r ∧ op = .putItem r ∧
      landedPut ⟨op, ans⟩ = some r ∧ isFailedPut ⟨op, ans⟩ = false ∧
      s.next op ans = .putting e (n + 1) false := by
  cases s with
  | called e =>
    obtain rfl : op = .ulid := ha
    cases ans with
    | ok id => exact .inl ⟨rfl, rfl, rfl, rfl⟩
    | error _ => exact hp.elim
  | drawn e id =>
    obtain rfl : op = .now := ha
    cases ans with
    | ok now => exact .inl ⟨rfl, rfl, rfl, rfl⟩
    | error _ => exact hp.elim
  | timed e id now =>
    obtain rfl : op = .time := ha
    cases ans with
    | ok seconds => exact .inl ⟨rfl, rfl, rfl, rfl⟩
    | error _ => exact hp.elim
  | putting e n stopped =>
    obtain ⟨rfl, r, hr, rfl⟩ := ha
    cases ans with
    | ok _ => exact .inr ⟨e, n, r, rfl, hr, rfl, rfl, rfl, rfl⟩
    | error _ => exact .inl ⟨rfl, rfl, rfl, rfl⟩

theorem Reads.resume (h : Reads t) (ha : (stageOf t).allow op) (hp : (stageOf t).possible op ans) :
    Reads (t.resume k ans) := by
  have hstage : stageOf (t.resume k ans) = (stageOf t).next op ans := rfl
  rcases next_cases ha hp with ⟨hlogged, hrows, hput, hfailed⟩ |
    ⟨e, n, r, hs, hr, rfl, hput, hno, hnext⟩
  · constructor
    · rw [hstage, hlogged, h.logged]
      rfl
    · rw [landed_resume, hput, hstage, hrows, h.rows]
      simp
    · rw [hasFailedPut_resume, hstage, hfailed, h.failed]
  · constructor
    · have hentry := h.logged
      rw [hs] at hentry
      rw [hstage, hnext]
      exact hentry
    · rw [landed_resume, hput, hstage, hnext, h.rows, hs]
      simp only [Stage.rows, Option.toList_some]
      rw [List.take_add_one, hr, Option.toList_some]
    · rw [hasFailedPut_resume, hstage, hnext, h.failed, hs, hno]
      rfl

end

/-! ## Keys of rows -/

/-- The text before the `#` is the time. -/
theorem takeWhile_sortKey (now : UtcTime) (id : List Char) :
    (sortKey now id).takeWhile (· ≠ '#') = isoformat now := by
  have hno : ∀ c ∈ isoformat now, decide (c ≠ '#') = true := by
    refine Iso.forall_mem_isoformat (fun c hlow _ => ?_) (List.all_iff_forall_prop.1 (by decide)) now
    refine decide_eq_true fun hc => ?_
    rw [hc] at hlow
    exact absurd hlow (by decide)
  rw [sortKey, List.takeWhile_append_of_pos hno, List.takeWhile_cons_of_neg (by decide),
    List.append_nil]

theorem sortKey_inj {t u : UtcTime} {id id' : List Char} (h : sortKey t id = sortKey u id') :
    id = id' := by
  have htime : isoformat t = isoformat u := by
    rw [← takeWhile_sortKey t id, ← takeWhile_sortKey u id', h]
  rw [sortKey, sortKey, htime] at h
  exact (List.cons.inj (List.append_cancel_left h)).2

theorem mem_items {s : Stamped} {r : AuditEventRecord} (h : r ∈ s.items) :
    r = s.item r.tenantId := by
  rcases List.mem_cons.1 h with rfl | h
  · rfl
  · split at h
    · obtain rfl := List.mem_singleton.1 h
      rfl
    · cases h

/-- The rows of one event are in different partitions. -/
theorem items_tenants_ne {s : Stamped} {n : Nat} {r r' : AuditEventRecord}
    (hr : r ∈ s.items.take n) (hr' : s.items[n]? = some r') : r.tenantId ≠ r'.tenantId := by
  obtain ⟨m, hm, hget⟩ := List.mem_take_iff_getElem.1 hr
  have hlt : n < s.items.length := (List.getElem?_eq_some_iff.1 hr').1
  by_cases hglobal : s.logged.partition = GLOBAL_TENANT
  · have hlen : s.items.length = 1 := by simp [Stamped.items, hglobal]
    omega
  · have hitems : s.items = [s.item s.logged.partition, s.item GLOBAL_TENANT] := by
      simp [Stamped.items, hglobal]
    have hlen : s.items.length = 2 := by rw [hitems]; rfl
    obtain rfl : n = 1 := by omega
    obtain rfl : m = 0 := by omega
    simp only [hitems, List.getElem_cons_zero] at hget
    simp only [hitems, List.getElem?_cons_succ, List.getElem?_cons_zero, Option.some.injEq] at hr'
    rw [← hget, ← hr']
    exact hglobal

theorem IsUlid.plain {id : List Char} (h : IsUlid id) : ∀ c ∈ id, c < '~' := by
  have hall : ∀ c ∈ "0123456789ABCDEFGHJKMNPQRSTVWXYZ".toList, c < '~' :=
    List.all_iff_forall_prop.1 (by decide)
  exact fun c hc => hall c (h.2 c hc)

theorem plain_sortKey {now : UtcTime} {id : List Char} (h : IsUlid id) :
    ∀ c ∈ sortKey now id, c < '~' := by
  unfold sortKey
  rw [List.forall_mem_append, List.forall_mem_cons]
  refine ⟨?_, by decide, h.plain⟩
  exact Iso.forall_mem_isoformat (fun c _ hhigh => lt_of_le_of_lt hhigh (by decide))
    (List.all_iff_forall_prop.1 (by decide)) now

/-! ## The table is what the calls have put -/

/-- Each call has an id of its own, and the rows are what the calls have put. -/
structure Consistent (c : Effect.Config (auditSystem auditEventsTableName)) : Prop where
  reads : ∀ t ∈ c.threads, Reads t
  drawn : ∀ t ∈ c.threads, ∀ id, (stageOf t).eventId = some id → id ∈ c.world.ids ∧ IsUlid id
  apart : ∀ (i j : Nat) t u id, c.threads[i]? = some t → c.threads[j]? = some u →
    (stageOf t).eventId = some id → (stageOf u).eventId = some id → i = j
  rows  : c.world.rows.Perm (c.threads.flatMap landed)

theorem perm_flatMap_set {α β : Type} {f : α → List β} {new : List β} {x y : α} :
    ∀ {xs : List α} {i : Nat}, xs[i]? = some x → (f y).Perm (new ++ f x) →
      ((xs.set i y).flatMap f).Perm (new ++ xs.flatMap f)
  | z :: xs, 0, hi, h => by
    obtain rfl := Option.some.inj hi
    rw [List.set_cons_zero, List.flatMap_cons, List.flatMap_cons, ← List.append_assoc]
    exact h.append_right _
  | z :: xs, i + 1, hi, h => by
    rw [List.set_cons_succ, List.flatMap_cons, List.flatMap_cons]
    have hrest : ((xs.set i y).flatMap f).Perm (new ++ xs.flatMap f) := perm_flatMap_set hi h
    refine (hrest.append_left (f z)).trans ?_
    rw [← List.append_assoc, ← List.append_assoc]
    exact List.perm_append_comm.append_right _

section
variable {c : Effect.Config (auditSystem auditEventsTableName)} {i : Nat}
  {t t' : Effect.Thread (auditSystem auditEventsTableName)} {w' : Store}

/-- One thread moves on: it may draw an unused id, and what it puts is added to the rows. -/
theorem Consistent.set (hc : Consistent c) (new : List AuditEventRecord)
    (ht : c.threads[i]? = some t) (hreads : Reads t')
    (hids : ∀ id ∈ c.world.ids, id ∈ w'.ids)
    (hid : (stageOf t').eventId = (stageOf t).eventId ∨
      ∃ id, id ∉ c.world.ids ∧ id ∈ w'.ids ∧ IsUlid id ∧ (stageOf t').eventId = some id)
    (hnew : (landed t').Perm (new ++ landed t))
    (hrows : w'.rows.Perm (new ++ c.world.rows)) :
    Consistent { world := w', threads := c.threads.set i t' } := by
  have hold : ∀ j u id, c.threads[j]? = some u → (stageOf u).eventId = some id →
      id ∈ c.world.ids ∧ IsUlid id :=
    fun j u id hu h => hc.drawn u (List.mem_of_getElem? hu) id h
  -- against a thread that stays, the id is an old one of the same thread or a new one
  have hother : ∀ j u id, j ≠ i → c.threads[j]? = some u → (stageOf u).eventId = some id →
      (stageOf t').eventId ≠ some id := by
    intro j u id hji hu huid htid
    rcases hid with hsame | ⟨fresh, hfresh, _, _, hsome⟩
    · rw [hsame] at htid
      exact hji (hc.apart j i u t id hu ht huid htid)
    · rw [hsome] at htid
      obtain rfl := Option.some.inj htid
      exact hfresh (hold j u _ hu huid).1
  constructor
  · intro u hu
    rcases List.mem_or_eq_of_mem_set hu with hu | rfl
    · exact hc.reads u hu
    · exact hreads
  · intro u hu id hsome
    rcases List.mem_or_eq_of_mem_set hu with hu | rfl
    · exact ⟨hids id (hc.drawn u hu id hsome).1, (hc.drawn u hu id hsome).2⟩
    · rcases hid with hsame | ⟨fresh, _, hused, hulid, hfresh⟩
      · rw [hsame] at hsome
        exact ⟨hids id (hold i t id ht hsome).1, (hold i t id ht hsome).2⟩
      · rw [hfresh] at hsome
        obtain rfl := Option.some.inj hsome
        exact ⟨hused, hulid⟩
  · intro j j' u u' id hj hj' hu hu'
    rcases Effect.getElem?_set_cases hj with ⟨rfl, rfl⟩ | ⟨hji, hold'⟩ <;>
      rcases Effect.getElem?_set_cases hj' with ⟨rfl, rfl⟩ | ⟨hji', hold''⟩
    · rfl
    · exact absurd hu (hother j' u' id hji' hold'' hu')
    · exact absurd hu' (hother j u id hji hold' hu)
    · exact hc.apart j j' u u' id hold' hold'' hu hu'
  · exact hrows.trans ((hc.rows.append_left new).trans (perm_flatMap_set ht hnew).symm)

/-- No row has the key of a row that is still to be put. -/
theorem Consistent.unused (hc : Consistent c) (ht : c.threads[i]? = some t) {e : Stamped} {n : Nat}
    {r : AuditEventRecord} (hs : stageOf t = .putting e n false) (hr : e.items[n]? = some r) :
    (c.world.put r).rows = r :: c.world.rows := by
  refine congrArg (r :: ·) (List.filter_eq_self.2 fun r' hr' => ?_)
  rw [Bool.not_eq_true']
  by_contra hkey
  rw [Bool.not_eq_false, sameKey, Bool.and_eq_true, beq_iff_eq, beq_iff_eq] at hkey
  obtain ⟨u, hu, hmem⟩ := List.mem_flatMap.1 (hc.rows.mem_iff.1 hr')
  obtain ⟨j, hj⟩ := List.getElem?_of_mem hu
  rw [(hc.reads u hu).rows] at hmem
  cases hus : stageOf u with
  | called _ | drawn _ _ | timed _ _ _ =>
    rw [hus] at hmem
    cases hmem
  | putting e' n' stopped =>
    rw [hus] at hmem
    have hitem := mem_items (List.mem_of_mem_take hmem)
    have hitem' := mem_items (List.mem_of_getElem? hr)
    have hids : e'.eventId = e.eventId := by
      have hkeys := hkey.2
      rw [hitem, hitem'] at hkeys
      exact sortKey_inj hkeys
    have hsame : j = i := hc.apart j i u t e.eventId hj ht (by rw [hus, ← hids]; rfl) (by rw [hs]; rfl)
    rw [hsame, ht] at hj
    obtain rfl := Option.some.inj hj
    rw [hs] at hus
    obtain ⟨rfl, rfl, rfl⟩ := Stage.putting.inj hus
    exact items_tenants_ne hmem hr hkey.1

/-- One request of a call, by the four stages. -/
theorem Consistent.act (hc : Consistent c) {op : Op} {k : sig.Ans op → Prog Unit} {ch : Choice}
    {ans : sig.Ans op} (hn : c.Next i t op k) (ha : (stageOf t).allow op)
    (hx : c.world.exec op ch = some (ans, w')) :
    (stageOf t).possible op ans ∧
      Consistent { world := w', threads := c.threads.set i (t.resume k ans) } := by
  have ht := hn.1
  have hmem := List.mem_of_getElem? ht
  have hstage : stageOf (t.resume k ans) = (stageOf t).next op ans := rfl
  have hland : landed (t.resume k ans) = landed t ++ (landedPut ⟨op, ans⟩).toList := landed_resume
  -- a request that puts nothing and draws no id
  have hquiet : (stageOf t).possible op ans → w' = c.world →
      ((stageOf t).next op ans).eventId = (stageOf t).eventId → landedPut ⟨op, ans⟩ = none →
      Consistent { world := w', threads := c.threads.set i (t.resume k ans) } := by
    intro hpos hw hid hput
    subst hw
    refine hc.set [] ht ((hc.reads t hmem).resume ha hpos) (fun _ h => h)
      (.inl (by rw [hstage, hid])) ?_ (.refl _)
    rw [hland, hput, Option.toList_none, List.append_nil]
    exact .refl _
  cases hs : stageOf t with
  | called e =>
    rw [hs] at ha hstage hquiet
    obtain rfl : op = .ulid := ha
    simp only [Store.exec] at hx
    split at hx
    · cases hx
    · rename_i hfresh
      obtain ⟨rfl, rfl⟩ := Prod.mk.inj (Option.some.inj hx)
      obtain ⟨hunused, hulid⟩ := not_or.1 hfresh
      have hreads : Reads (t.resume k (.ok ch.eventId)) :=
        (hc.reads t hmem).resume (by rw [hs]; rfl) (by rw [hs]; trivial)
      refine ⟨trivial, hc.set [] ht hreads (fun _ h => List.mem_cons_of_mem _ h)
        (.inr ⟨ch.eventId, hunused, List.mem_cons_self, not_not.1 hulid, by rw [hstage]; rfl⟩) ?_
        (.refl _)⟩
      rw [hland]
      exact .of_eq (List.append_nil _)
  | drawn e id =>
    rw [hs] at ha hquiet
    obtain rfl : op = .now := ha
    obtain ⟨rfl, rfl⟩ := Prod.mk.inj (Option.some.inj hx)
    exact ⟨trivial, hquiet trivial rfl rfl rfl⟩
  | timed e id now =>
    rw [hs] at ha hquiet
    obtain rfl : op = .time := ha
    obtain ⟨rfl, rfl⟩ := Prod.mk.inj (Option.some.inj hx)
    exact ⟨trivial, hquiet trivial rfl rfl rfl⟩
  | putting e n stopped =>
    rw [hs] at ha hquiet hstage
    obtain ⟨rfl, r, hr, rfl⟩ := ha
    cases hf : ch.fail with
    | some ex =>
      simp only [Store.exec, hf] at hx
      obtain ⟨rfl, rfl⟩ := Prod.mk.inj (Option.some.inj hx)
      exact ⟨trivial, hquiet trivial rfl rfl rfl⟩
    | none =>
      simp only [Store.exec, hf] at hx
      obtain ⟨rfl, rfl⟩ := Prod.mk.inj (Option.some.inj hx)
      have hreads : Reads (t.resume k (.ok ())) :=
        (hc.reads t hmem).resume (by rw [hs]; exact ⟨rfl, r, hr, rfl⟩) (by rw [hs]; trivial)
      refine ⟨trivial, hc.set [r] ht hreads (fun _ h => h)
        (.inl (by rw [hstage, hs]; rfl)) ?_ (.of_eq (hc.unused ht hs hr))⟩
      rw [hland]
      exact List.perm_append_comm

end

/-- In every run the rows are what the calls have put. -/
theorem consistent_run {ms : List (Effect.Move (auditSystem auditEventsTableName))}
    {c : Effect.Config (auditSystem auditEventsTableName)}
    (h : Effect.play (.init ({} : Store)) ms = some c) :
    auditProtocol.Coupled .called (fun s _ => s.Ended auditEventsTableName) (fun _ _ => False) c ∧
      Consistent c := by
  have halong : Effect.Along (fun _ _ => True) (.init ({} : Store)) ms :=
    Effect.along_iff_split.2 fun _ _ _ _ _ _ => trivial
  refine Effect.Protocol.protocol_inv (R := auditProtocol) .called (J := Consistent) logEvent_obeys
    ?_ ?_ ?_ (fun t ht => by cases ht) ?_ halong h
  · intro c e hc _
    constructor
    · intro t ht
      rcases List.mem_append.1 ht with ht | ht
      · exact hc.reads t ht
      · obtain rfl := List.mem_singleton.1 ht
        exact ⟨rfl, rfl, rfl⟩
    · intro t ht id hid
      rcases List.mem_append.1 ht with ht | ht
      · exact hc.drawn t ht id hid
      · obtain rfl := List.mem_singleton.1 ht
        cases hid
    · intro i j t u id ht hu hid hid'
      rcases Effect.getElem?_concat_cases ht with ht | rfl
      · rcases Effect.getElem?_concat_cases hu with hu | rfl
        · exact hc.apart i j t u id ht hu hid hid'
        · cases hid'
      · cases hid
    · rw [List.flatMap_append]
      exact hc.rows.trans (.of_eq (List.append_nil _).symm)
  · intro c i ch t op k ans w' hc _ _ hn ha hx
    exact hc.act hn ha hx
  · intro c i t hc _ ht
    have hmem := List.mem_of_getElem? ht
    have hreads := hc.reads t hmem
    exact hc.set [] ht ⟨hreads.logged, hreads.rows, hreads.failed⟩ (fun _ h => h)
      (.inl rfl) (.refl _) (.refl _)
  · exact ⟨fun t ht => (by cases ht), fun t ht => (by cases ht), fun i j t u id ht => (by cases ht),
      .refl _⟩

/-! ## Two events of one tenant, the second one with both rows -/

def sampleTime (day : Nat) (h : day < 100 := by decide) : UtcTime :=
  ⟨⟨2026, 1, day, by decide, by decide, h⟩, 7, 30, 0, 0, by decide, by decide, by decide, by decide⟩

def keyCreated : Logged where
  claims     := { sub := some "ann", email := some "ann@example.gov" }
  action     := "key.create"
  targetType := "key"
  targetId   := "upload"
  tenantId   := some "acme"

def keyRevoked : Logged := { keyCreated with action := "key.revoke" }

def sampleId (c : Char) : List Char := List.replicate 26 c

/-- The second put of the first call fails. -/
def sampleMoves : List (Effect.Move (auditSystem (some "audit-events"))) :=
  [.start keyCreated, .start keyRevoked,
    .act 0 { eventId := sampleId '1' }, .act 1 { eventId := sampleId '2' },
    .act 1 { now := sampleTime 3 }, .act 0 { now := sampleTime 2 },
    .act 0 {}, .act 1 {}, .act 1 {}, .act 0 {},
    .act 0 { fail := some (.exception "timeout") }, .act 1 {}]

def createdRow : AuditEventRecord := keyCreated.item (sampleId '1') (sampleTime 2) 0 "acme"

def revokedRow (tenant : String) : AuditEventRecord :=
  keyRevoked.item (sampleId '2') (sampleTime 3) 0 tenant

theorem play_sampleMoves : ∃ c, Effect.play (.init ({} : Store)) sampleMoves = some c ∧
    c.world.rows = [revokedRow GLOBAL_TENANT, createdRow, revokedRow "acme"] :=
  Option.map_eq_some_iff.1 (show (Effect.play (.init ({} : Store)) sampleMoves).map
    (fun c => c.world.rows) = some [revokedRow GLOBAL_TENANT, createdRow, revokedRow "acme"] from rfl)

/-! ## Runs -/

section
variable {ms : List (Effect.Move (auditSystem auditEventsTableName))}
  {c : Effect.Config (auditSystem auditEventsTableName)}

/-- **In every run the audit table holds what the calls have put, and each call puts the row of the
tenant before the global row.** A call that ends has put both unless a put failed, and none raises. -/
theorem landed_in_order (h : Effect.play (.init ({} : Store)) ms = some c) :
    c.world.rows.Perm (c.threads.flatMap landed) ∧
      ∀ t ∈ c.threads,
        (landed t = [] ∨ ∃ s, stampedOf t = some s ∧ s.logged = t.entry ∧ landed t <+: s.items) ∧
        (∀ e, t.prog ≠ .raise e) ∧
        (t.prog = .ret () → nonEmpty auditEventsTableName ≠ none → hasFailedPut t = false →
          ∃ s, stampedOf t = some s ∧ landed t = s.items) := by
  obtain ⟨hobeys, hc⟩ := consistent_run h
  refine ⟨hc.rows, fun t ht => ⟨?_, fun e he => ?_, fun hret hname hno => ?_⟩⟩
  · have hrows := (hc.reads t ht).rows
    have hlogged := (hc.reads t ht).logged
    unfold stampedOf
    cases hs : stageOf t with
    | called _ | drawn _ _ | timed _ _ _ =>
      rw [hs] at hrows
      exact .inl hrows
    | putting s n stopped =>
      rw [hs] at hrows hlogged
      exact .inr ⟨s, rfl, hlogged, hrows ▸ List.take_prefix n s.items⟩
  · have hall := hobeys t ht
    rw [he] at hall
    exact hall
  · have hall := hobeys t ht
    rw [hret] at hall
    have hrows := (hc.reads t ht).rows
    have hfailed := (hc.reads t ht).failed
    unfold stampedOf
    cases hs : stageOf t with
    | called _ | drawn _ _ | timed _ _ _ =>
      change Stage.Ended auditEventsTableName (stageOf t) at hall
      rw [hs] at hall
      exact hall.elim
    | putting s n stopped =>
      change Stage.Ended auditEventsTableName (stageOf t) at hall
      rw [hs] at hall hrows hfailed
      rw [hno] at hfailed
      refine ⟨s, rfl, ?_⟩
      rw [hrows]
      exact List.take_of_length_le (hall hfailed.symm hname)

theorem landed_in_order_sample : ∃ c, Effect.play (.init ({} : Store)) sampleMoves = some c ∧
    c.world.rows = [revokedRow GLOBAL_TENANT, createdRow, revokedRow "acme"] ∧
    c.world.rows.Perm (c.threads.flatMap landed) ∧
      ∀ t ∈ c.threads,
        (landed t = [] ∨ ∃ s, stampedOf t = some s ∧ s.logged = t.entry ∧ landed t <+: s.items) ∧
        (∀ e, t.prog ≠ .raise e) ∧
        (t.prog = .ret () → nonEmpty (some "audit-events") ≠ none → hasFailedPut t = false →
          ∃ s, stampedOf t = some s ∧ landed t = s.items) := by
  obtain ⟨c, hplay, hrows⟩ := play_sampleMoves
  exact ⟨c, hplay, hrows, landed_in_order hplay⟩

theorem Consistent.plain (hc : Consistent c) : ∀ r ∈ c.world.rows, Plain r := by
  intro r hr
  obtain ⟨t, ht, hmem⟩ := List.mem_flatMap.1 (hc.rows.mem_iff.1 hr)
  rw [(hc.reads t ht).rows] at hmem
  cases hs : stageOf t with
  | called _ | drawn _ _ | timed _ _ _ =>
    rw [hs] at hmem
    cases hmem
  | putting s n stopped =>
    rw [hs] at hmem
    rw [mem_items (List.mem_of_mem_take hmem)]
    exact plain_sortKey (hc.drawn t ht s.eventId (by rw [hs]; rfl)).2

end

/-! ## Listings -/

/-- The key of a row in the index of the actors. -/
def actorIndexKey (r : AuditEventRecord) : ResumeKey where
  attributes := [("tenantId".toList, r.tenantId.toList),
    ("timestamp#eventId".toList, r.timestampEventId), ("actorEmail".toList, r.actorEmail.toList)]
  nodup := by
    change ["tenantId".toList, "timestamp#eventId".toList, "actorEmail".toList].Nodup
    decide
  nonempty := List.cons_ne_nil _ _

def tableKey (r : AuditEventRecord) : ResumeKey where
  attributes := [("tenantId".toList, r.tenantId.toList),
    ("timestamp#eventId".toList, r.timestampEventId)]
  nodup := by
    change ["tenantId".toList, "timestamp#eventId".toList].Nodup
    decide
  nonempty := List.cons_ne_nil _ _

def tenantPartition : Partition AuditEventRecord where
  items := [createdRow, revokedRow "acme"]
  key := tableKey
  nodup := List.Nodup.of_map Json.dump (by decide +kernel)

def actorPartition : Partition AuditEventRecord where
  items := [createdRow, revokedRow GLOBAL_TENANT, revokedRow "acme"]
  key := actorIndexKey
  nodup := List.Nodup.of_map Json.dump (by decide +kernel)

/-- One row a page. -/
def sampleTable (P : Partition AuditEventRecord) : ReadOnlyTable KeyCondition AuditEventRecord :=
  ⟨some "audit-events", P.service fun _ => 0⟩

def twoDays : AuditRequest where
  startDate := some (sampleTime 2).date.text
  endDate   := some (sampleTime 3).date.text

def acmeAdmin : Claims := { groups := .single "tenant-admin", tenantId := some "acme" }

theorem stores_tenantPartition :
    Stores tenantPartition [revokedRow GLOBAL_TENANT, createdRow, revokedRow "acme"]
      (auditQuery (some "acme") twoDays).keyCondition where
  selected := .of_eq (by rfl)
  sorted   := by decide +kernel

/-- The text of a day is the head of its times. -/
theorem inRange_sortKey {req : AuditRequest} {first last : Iso.Day}
    (hstart : req.startDate = some first.text) (hend : req.endDate = some last.text) (now : UtcTime)
    (id : List Char) : inRange req (sortKey now id) =
      (decide (first.number ≤ now.date.number) && decide (now.date.number ≤ last.number)) := by
  have hne : ∀ d : Iso.Day, d.text ≠ [] := fun d hnil => by
    have hlen := d.length_text
    rw [hnil] at hlen
    cases hlen
  have hkey : ∃ rest, sortKey now id = now.date.text ++ rest :=
    ⟨_, by simp only [sortKey, isoformat, List.append_assoc]; rfl⟩
  obtain ⟨rest, hrest⟩ := hkey
  unfold inRange
  rw [hstart, hend, hrest]
  simp only [truthyText, Option.filter_some, decide_eq_true (hne _), if_true, Option.all_some]
  rw [Bool.eq_iff_iff]
  simp only [Bool.and_eq_true, Bool.or_eq_true, decide_eq_true_iff, List.isPrefixOf_iff_prefix]
  rw [TextRange.le_append_iff (by simp only [Iso.Day.length_text]),
    TextRange.lt_or_prefix_iff (by simp only [Iso.Day.length_text]), Iso.Day.text_le_iff,
    Iso.Day.text_le_iff]

/-- Keys are in the order of the times they begin with. -/
theorem number_le_of_sortKey_le {t u : UtcTime} {id id' : List Char}
    (h : sortKey u id' ≤ sortKey t id) : u.number ≤ t.number := by
  by_contra hlt
  exact absurd h (not_le.2 (Iso.isoformat_append_lt (Nat.lt_of_not_le hlt) ('#' :: id) ('#' :: id')))

/-- What the request asks of an event beside its tenant. -/
def Stamped.fits (s : Stamped) (req : AuditRequest) : Bool :=
  (nonEmpty req.actorEmail).all (s.logged.claims.email.getD "unknown" == ·) &&
    (nonEmpty req.action).all (s.logged.action == ·)

/-- The event of a call that has put a row for the tenant, on one of the days. -/
def loggedFor (tenant : String) (first last : Iso.Day) (req : AuditRequest)
    (t : Effect.Thread (auditSystem auditEventsTableName)) : Option Stamped :=
  (stampedOf t).filter fun s => !(landed t).isEmpty && s.logged.partition == tenant && s.fits req &&
    (decide (first.number ≤ s.now.date.number) && decide (s.now.date.number ≤ last.number))

section
variable {ms : List (Effect.Move (auditSystem auditEventsTableName))}
  {c : Effect.Config (auditSystem auditEventsTableName)}
  {table : ReadOnlyTable KeyCondition AuditEventRecord} {claims : Claims} {req : AuditRequest}
  {P : Partition AuditEventRecord} (maskEmail maskTenant : String → String)

/-- The global row is not a row of the tenant. -/
theorem filter_landed {t : Effect.Thread (auditSystem auditEventsTableName)} (ht : Reads t)
    {tenant : String} (hne : tenant ≠ GLOBAL_TENANT) {first last : Iso.Day}
    (hstart : req.startDate = some first.text) (hend : req.endDate = some last.text) :
    (landed t).filter (asked (some tenant) req) =
      (loggedFor tenant first last req t).toList.map fun s => s.item tenant := by
  have hrows := ht.rows
  unfold loggedFor stampedOf
  rw [hrows]
  cases hs : stageOf t with
  | called _ | drawn _ _ | timed _ _ _ => rfl
  | putting s n stopped =>
    have hglobal : ∀ r ∈ (if s.logged.partition ≠ GLOBAL_TENANT then [s.item GLOBAL_TENANT] else []),
        asked (some tenant) req r = false := by
      intro r hr
      split at hr
      · obtain rfl := List.mem_singleton.1 hr
        have hno : (GLOBAL_TENANT == tenant) = false := beq_false_of_ne (Ne.symm hne)
        simp [asked, ofTenant, Stamped.item, Logged.item, hno]
      · cases hr
    cases n with
    | zero => simp [Stage.rows, Stage.stamped, Option.filter]
    | succ n =>
      have hrest : ((if s.logged.partition ≠ GLOBAL_TENANT then [s.item GLOBAL_TENANT]
          else []).take n).filter (asked (some tenant) req) = [] := by
        refine List.filter_eq_nil_iff.2 fun r hr => ?_
        rw [hglobal r (List.mem_of_mem_take hr)]
        exact Bool.false_ne_true
      have hasked : asked (some tenant) req (s.item s.logged.partition) =
          (s.logged.partition == tenant && s.fits req && (decide (first.number ≤ s.now.date.number) &&
            decide (s.now.date.number ≤ last.number))) := by
        rw [← inRange_sortKey hstart hend s.now s.eventId]
        simp only [asked, ofTenant, Stamped.fits, Bool.and_assoc]
        rfl
      simp only [Stage.rows, Stage.stamped, Stamped.items, List.take_succ_cons, List.filter_cons,
        hrest, hasked, Option.filter_some, List.isEmpty_cons, Bool.not_false, Bool.true_and]
      split
      · rename_i hfits
        simp only [Bool.and_eq_true, beq_iff_eq] at hfits
        rw [hfits.1.1]
        rfl
      · rfl

/-- **Between two days the listing of a tenant shows each event that was put for it then, once, and
the newest first.** -/
theorem listing_of_tenant (h : Effect.play (.init ({} : Store)) ms = some c)
    (hname : table.tableName.filter (· ≠ "") ≠ none) {tenant : String}
    (htenant : (tenantScope claims).bind (auditTenant · req) = .ok (some tenant))
    (hne : tenant ≠ GLOBAL_TENANT) {first last : Iso.Day}
    (hstart : req.startDate = some first.text) (hend : req.endDate = some last.text)
    (hstores : Stores P c.world.rows (auditQuery (some tenant) req).keyCondition)
    (hpages : AnswersPages table P (auditQuery (some tenant) req)) (call : Nat) {fuel : Nat}
    (hfuel : P.items.length + 2 ≤ fuel) :
    ∃ events : List Stamped, events.Perm (c.threads.filterMap (loggedFor tenant first last req)) ∧
      events.Pairwise (fun s s' => s'.now.number ≤ s.now.number) ∧
      followCursors (getAuditLog table maskEmail maskTenant claims req fuel) fuel call none =
        some (.ok (events.map fun s =>
          shown maskEmail maskTenant req.isPresentationMode (s.item tenant))) := by
  have hc := (consistent_run h).2
  obtain ⟨records, hperm, hsorted, hanswer⟩ := getAuditLog_pages maskEmail maskTenant hname htenant
    hc.plain hstores hpages call hfuel
  have hrows : (c.threads.flatMap landed).filter (asked (some tenant) req) =
      (c.threads.filterMap (loggedFor tenant first last req)).map fun s => s.item tenant := by
    rw [List.filter_flatMap, List.map_filterMap, List.filterMap_eq_flatMap_toList]
    refine List.flatMap_congr fun t ht => ?_
    rw [filter_landed (hc.reads t ht) hne hstart hend, Option.toList_map]
  have hmap : records.Perm
      ((c.threads.filterMap (loggedFor tenant first last req)).map fun s => s.item tenant) :=
    hrows ▸ hperm.trans (hc.rows.filter _)
  obtain ⟨events, hevents, rfl⟩ :
      ∃ events : List Stamped, events.Perm (c.threads.filterMap (loggedFor tenant first last req)) ∧
        records = events.map fun s => s.item tenant := by
    have hcomp := congrFun (congrFun (List.eq_map_comp_perm fun s : Stamped => s.item tenant) records)
      (c.threads.filterMap (loggedFor tenant first last req))
    obtain ⟨events, heq, hp⟩ := hcomp.mpr hmap
    exact ⟨events, hp, heq⟩
  refine ⟨events, hevents, ?_, ?_⟩
  · exact (List.pairwise_map.1 hsorted).imp fun hle => number_le_of_sortKey_le hle
  · rw [hanswer, List.map_map]
    rfl

theorem listing_of_tenant_sample : ∃ c, Effect.play (.init ({} : Store)) sampleMoves = some c ∧
    ∃ events : List Stamped,
      events.Perm (c.threads.filterMap
        (loggedFor "acme" (sampleTime 2).date (sampleTime 3).date twoDays)) ∧
      events.Pairwise (fun s s' => s'.now.number ≤ s.now.number) ∧
      followCursors (getAuditLog (sampleTable tenantPartition) id id acmeAdmin twoDays 4) 4 0 none =
        some (.ok (events.map fun s => shown id id false (s.item "acme"))) := by
  obtain ⟨c, hplay, hrows⟩ := play_sampleMoves
  refine ⟨c, hplay, listing_of_tenant id id hplay (by decide) (by decide) (by decide) rfl rfl ?_
    (answersPages_service tenantPartition (fun _ => 0) "audit-events" _) 0 (by decide)⟩
  rw [hrows]
  exact stores_tenantPartition

/-- **The pages of a request show the rows that were put and asked for, the newest key first**: from
the tenant's partition, by actor or by action. -/
theorem listing_of_request (h : Effect.play (.init ({} : Store)) ms = some c)
    (hname : table.tableName.filter (· ≠ "") ≠ none) {tenant : Option String}
    (htenant : (tenantScope claims).bind (auditTenant · req) = .ok tenant)
    (hstores : Stores P c.world.rows (auditQuery tenant req).keyCondition)
    (hpages : AnswersPages table P (auditQuery tenant req)) (call : Nat) {fuel : Nat}
    (hfuel : P.items.length + 2 ≤ fuel) :
    ∃ records : List AuditEventRecord,
      records.Perm ((c.threads.flatMap landed).filter (asked tenant req)) ∧
      records.Pairwise (fun r r' => r'.timestampEventId ≤ r.timestampEventId) ∧
      followCursors (getAuditLog table maskEmail maskTenant claims req fuel) fuel call none =
        some (.ok (records.map (shown maskEmail maskTenant req.isPresentationMode))) := by
  have hc := (consistent_run h).2
  obtain ⟨records, hperm, hsorted, hanswer⟩ := getAuditLog_pages maskEmail maskTenant hname htenant
    hc.plain hstores hpages call hfuel
  exact ⟨records, hperm.trans (hc.rows.filter _), hsorted, hanswer⟩

def byAnn : AuditRequest := { actorEmail := some "ann@example.gov" }

def superAdmin : Claims := { groups := .single "super-admin" }

theorem stores_actorPartition :
    Stores actorPartition [revokedRow GLOBAL_TENANT, createdRow, revokedRow "acme"]
      (auditQuery none byAnn).keyCondition where
  selected := List.Perm.swap ..
  sorted   := by decide +kernel

theorem listing_of_request_sample : ∃ c, Effect.play (.init ({} : Store)) sampleMoves = some c ∧
    ∃ records : List AuditEventRecord,
      records.Perm ((c.threads.flatMap landed).filter (asked none byAnn)) ∧
      records.Pairwise (fun r r' => r'.timestampEventId ≤ r.timestampEventId) ∧
      followCursors (getAuditLog (sampleTable actorPartition) id id superAdmin byAnn 5) 5 0 none =
        some (.ok (records.map (shown id id false))) := by
  obtain ⟨c, hplay, hrows⟩ := play_sampleMoves
  refine ⟨c, hplay, listing_of_request id id hplay (by decide) (by decide) ?_
    (answersPages_service actorPartition (fun _ => 0) "audit-events" _) 0 (by decide)⟩
  rw [hrows]
  exact stores_actorPartition

/-- The rows of another call have other ids. -/
theorem countP_landed {t : Effect.Thread (auditSystem auditEventsTableName)} (ht : Reads t)
    {id : List Char} (hid : (stageOf t).eventId ≠ some id) (q : AuditEventRecord → Bool) :
    (landed t).countP (fun r => r.eventId == id && q r) = 0 := by
  rw [ht.rows]
  cases hs : stageOf t with
  | called _ | drawn _ _ | timed _ _ _ => rfl
  | putting s n stopped =>
    rw [hs] at hid
    refine List.countP_eq_zero.2 fun r hr => ?_
    have hitem := mem_items (List.mem_of_mem_take hr)
    have hne : (r.eventId == id) = false := by
      rw [hitem]
      exact beq_false_of_ne fun heq => hid (congrArg some heq)
    rw [hne, Bool.false_and]
    exact Bool.false_ne_true

/-- The ids of the calls are apart, so that the rows with one id are those of its call. -/
theorem Consistent.countP_rows (hc : Consistent c)
    {t : Effect.Thread (auditSystem auditEventsTableName)} (ht : t ∈ c.threads) {s : Stamped}
    (hs : stampedOf t = some s) (q : AuditEventRecord → Bool) :
    c.world.rows.countP (fun r => r.eventId == s.eventId && q r) =
      (landed t).countP fun r => r.eventId == s.eventId && q r := by
  have hid : (stageOf t).eventId = some s.eventId := by
    unfold stampedOf at hs
    cases hstage : stageOf t with
    | called _ | drawn _ _ | timed _ _ _ =>
      rw [hstage] at hs
      cases hs
    | putting s' n stopped =>
      rw [hstage] at hs
      obtain rfl := Option.some.inj hs
      rfl
  have hpair : c.threads.Pairwise fun u u' => ∀ id, (stageOf u).eventId = some id →
      (stageOf u').eventId ≠ some id := by
    refine List.pairwise_iff_getElem.2 fun i j hi hj hij id hu hu' => ?_
    have := hc.apart i j _ _ id (List.getElem?_eq_getElem hi) (List.getElem?_eq_getElem hj) hu hu'
    omega
  obtain ⟨before, after, hsplit⟩ := List.append_of_mem ht
  have hreads := hc.reads
  rw [hsplit] at hpair hreads
  obtain ⟨_, hafter, hbefore⟩ := List.pairwise_append.1 hpair
  have hzero : ∀ us : List (Effect.Thread (auditSystem auditEventsTableName)),
      (∀ u ∈ us, Reads u ∧ (stageOf u).eventId ≠ some s.eventId) →
      (us.flatMap landed).countP (fun r => r.eventId == s.eventId && q r) = 0 := by
    intro us hus
    refine List.countP_eq_zero.2 fun r hr => ?_
    obtain ⟨u, hu, hmem⟩ := List.mem_flatMap.1 hr
    exact List.countP_eq_zero.1 (countP_landed (hus u hu).1 (hus u hu).2 q) r hmem
  rw [hc.rows.countP_eq, hsplit, List.flatMap_append, List.flatMap_cons, List.countP_append,
    List.countP_append, hzero before, hzero after, Nat.zero_add, Nat.add_zero]
  · intro u hu
    refine ⟨hreads u (List.mem_append_right _ (List.mem_cons_of_mem _ hu)), ?_⟩
    exact (List.pairwise_cons.1 hafter).1 u hu s.eventId hid
  · intro u hu
    refine ⟨hreads u (List.mem_append_left _ hu), fun hsome => ?_⟩
    exact hbefore u hu t List.mem_cons_self s.eventId hsome hid

/-- **A search without a tenant shows an event as often as it was put: an event of a tenant twice.** -/
theorem listing_of_actor (h : Effect.play (.init ({} : Store)) ms = some c)
    (hname : table.tableName.filter (· ≠ "") ≠ none)
    (htenant : (tenantScope claims).bind (auditTenant · req) = .ok none)
    (hby : (nonEmpty req.actorEmail).isSome = true ∨ (nonEmpty req.action).isSome = true)
    (hstores : Stores P c.world.rows (auditQuery none req).keyCondition)
    (hpages : AnswersPages table P (auditQuery none req)) (call : Nat) {fuel : Nat}
    (hfuel : P.items.length + 2 ≤ fuel) :
    ∃ items, followCursors (getAuditLog table maskEmail maskTenant claims req fuel) fuel call none =
        some (.ok items) ∧
      ∀ t ∈ c.threads, ∀ s, stampedOf t = some s →
        items.countP (fun it => it.eventId == s.eventId) =
          if s.fits req && inRange req (sortKey s.now s.eventId) then (landed t).length else 0 := by
  have hc := (consistent_run h).2
  obtain ⟨records, hperm, _, hanswer⟩ := getAuditLog_pages maskEmail maskTenant hname htenant
    hc.plain hstores hpages call hfuel
  refine ⟨_, hanswer, fun t ht s hs => ?_⟩
  have hid : ∀ r, (shown maskEmail maskTenant req.isPresentationMode r).eventId = r.eventId := by
    intro r
    unfold shown
    split <;> rfl
  have hcount : (records.map (shown maskEmail maskTenant req.isPresentationMode)).countP
      (fun it => it.eventId == s.eventId) =
      (landed t).countP fun r => r.eventId == s.eventId && asked none req r := by
    rw [List.countP_map, ← hc.countP_rows ht hs, ← List.countP_filter, ← hperm.countP_eq]
    exact List.countP_congr fun r _ => by rw [Function.comp_apply, hid]
  -- every row of the event has its id, its actor, its action and its key
  have hrow : ∀ r ∈ landed t, (r.eventId == s.eventId && asked none req r) =
      (s.fits req && inRange req (sortKey s.now s.eventId)) := by
    intro r hr
    rw [(hc.reads t ht).rows] at hr
    unfold stampedOf at hs
    cases hstage : stageOf t with
    | called _ | drawn _ _ | timed _ _ _ =>
      rw [hstage] at hs
      cases hs
    | putting s' n stopped =>
      rw [hstage] at hs hr
      obtain rfl := Option.some.inj hs
      have hof : ofTenant none req r = true := by
        rcases hby with hby | hby <;> simp [ofTenant, hby]
      simp only [asked, hof, Bool.true_and, Stamped.fits]
      rw [mem_items (List.mem_of_mem_take hr)]
      simp [Stamped.item, Logged.item]
  rw [hcount]
  by_cases hfits : (s.fits req && inRange req (sortKey s.now s.eventId)) = true
  · rw [if_pos hfits]
    exact List.countP_eq_length.2 fun r hr => (hrow r hr).trans hfits
  · rw [if_neg hfits]
    exact List.countP_eq_zero.2 fun r hr hall => hfits ((hrow r hr).symm.trans hall)

theorem listing_of_actor_sample : ∃ c, Effect.play (.init ({} : Store)) sampleMoves = some c ∧
    ∃ items, followCursors (getAuditLog (sampleTable actorPartition) id id superAdmin byAnn 5) 5 0
        none = some (.ok items) ∧
      ∀ t ∈ c.threads, ∀ s, stampedOf t = some s →
        items.countP (fun it => it.eventId == s.eventId) =
          if s.fits byAnn && inRange byAnn (sortKey s.now s.eventId) then (landed t).length else 0 := by
  obtain ⟨c, hplay, hrows⟩ := play_sampleMoves
  refine ⟨c, hplay, listing_of_actor id id hplay (by decide) (by decide) (.inl (by decide)) ?_
    (answersPages_service actorPartition (fun _ => 0) "audit-events" _) 0 (by decide)⟩
  rw [hrows]
  exact stores_actorPartition

end

end DocumentAi.AuditLog
