import DocumentAi.Footprint.StaleReads
import DocumentAi.Lib.Protocol
import DocumentAi.Lib.Quota
import DocumentAi.Utils.WriteLimit

/-!
# The write quota under every interleaving

`increment_and_check` adds one to today's counter of the tenant, compares what it got back with the
limits, and takes the unit back when one is exceeded. The processor lowers the counter of the upload
day when it excludes a document. All of these are requests of their own (`utils/write_limit.py`).

| here | meaning |
| --- | --- |
| `quotaSystem`       | calls of `increment_and_check` and `decrement`, at any time and any number of times; the query of a month is no consistent read |
| `Timely`            | a query shows the item of the day just added to, in any version, and the other days as they stand |
| `CheckStage`        | how far a call has come, read off its answers |
| `charged a`, `lowered a` | a call has added to the counter of the day, has taken from it |
| `accepted c a`      | how many calls have let their caller go on, with a unit of that day |
| `Simulates c s`     | the pool is the quota machine in the state `s` |
| `daily_limit_kept`, `monthly_limit_kept` | what is accepted stays within the limits |
| `counts_exact`      | the counter is what was added less what was taken, and never negative |
-/

namespace DocumentAi

open Effect (Event Protocol)
open Effect.Protocol (obeys_bind obeys_tryCatch obeys_perform obeys_ret obeys_raise)

/-! ## The calls -/

inductive QuotaEntry where
  | check (tenantId : String)
  | lower (tenantId : String) (date : Day)

def Op.isMonthQuery : Op → Bool
  | .queryMonth .. => true
  | _ => false

abbrev quotaSystem : Effect.Sys sig where
  World  := World
  Choice := StaleChoice
  exec   := World.execStale Op.isMonthQuery
  Entry  := QuotaEntry
  body
    | .check t   => incrementAndCheck t
    | .lower t d => decrement t d

/-- Tenant and day: the key of a counter. -/
abbrev CountKey : Type := String × Day

/-- The query of the month of a counter (`_query_month_items`). -/
abbrev monthQuery (a : CountKey) : Op := .queryMonth a.1 fun d => monthPrefix d == monthPrefix a.2

def World.quota (w : World) (a : CountKey) : Int := ((w.counts.item a).map CountRecord.count).getD 0

/-- A landed increment of a counter with `p`. -/
def isCharge (p : CountKey → Bool) : Event sig → Bool
  | ⟨.updateCount t d u, ans⟩ =>
    match (ans : Except Exc CountRecord) with
    | .ok _    => p (t, d) && u.cond.isNone
    | .error _ => false
  | _ => false

/-- A landed decrement. -/
def isLowering (p : CountKey → Bool) : Event sig → Bool
  | ⟨.updateCount t d u, ans⟩ =>
    match (ans : Except Exc CountRecord) with
    | .ok _    => p (t, d) && u.cond.isSome
    | .error _ => false
  | _ => false

section
variable (p : CountKey → Bool) (th : Effect.Thread quotaSystem)

def charged : Bool := th.trace.any (isCharge p)

def lowered : Bool := th.trace.any (isLowering p)

def hasReturned : Bool :=
  match th.prog with
  | .ret _ => true
  | _      => false

end

/-- The checks on counters with `p` that have let their caller go on. -/
def accepted (c : Effect.Config quotaSystem) (p : CountKey → Bool) : Nat :=
  c.threads.countP fun th => hasReturned th && charged p th

/-- The decrements of excluded documents on counters with `p`. -/
def lowerings (c : Effect.Config quotaSystem) (p : CountKey → Bool) : Nat :=
  c.threads.countP fun th => lowered p th && !charged (fun _ => true) th

/-- The items of the month of a counter. -/
def monthItems (w : World) (a : CountKey) : List (Day × CountRecord) :=
  w.counts.keys.filterMap fun k =>
    if k.1 = a.1 ∧ (monthPrefix k.2 == monthPrefix a.2) = true then
      (w.counts.item k).map fun it => (k.2, it) else none

/-- The same items, but for the version of today's. -/
def SameButToday (today : Day) : List (Day × CountRecord) → List (Day × CountRecord) → Prop :=
  List.Forall₂ fun e e' => e'.1 = e.1 ∧ (e.1 ≠ today → e'.2 = e.2)

/-- The query of a month that follows an increment shows today's item, in whatever version, and the
other days as they stand. -/
def Timely (c : Effect.Config quotaSystem) : Effect.Move quotaSystem → Prop
  | .act i ch => ∀ th a, c.threads[i]? = some th → charged (Quota.only a) th = true →
      SameButToday a.2 (monthItems c.world a) (ch.shows (monthQuery a) (monthItems c.world a))
  | _         => True

def inMonth (tenantId : String) (month : Nat × Nat) : CountKey → Bool :=
  fun a => a.1 == tenantId && monthPrefix a.2 == month

/-! ## How far a call has come -/

inductive CheckStage where
  | asking (tenantId : String)
  | free
  | metered (tenantId : String) (tenant : TenantRecord)
  | held (a : CountKey) (n : Int) (maxWritesPerMonth : Nat)
  | excess (a : CountKey) (n : Int)
  | taken (a : CountKey)
  | returned (a : CountKey)
  | lost (a : CountKey) (n : Int)
  | lowering (a : CountKey)
  | lowered (a : CountKey)

namespace CheckStage

/-- The check after it has got the count `n` on `a`. -/
def judge (tenant : TenantRecord) (a : CountKey) (n : Int) : CheckStage :=
  if tenant.maxWritesPerDay.any fun m => decide ((m : Int) < n) then excess a n
  else
    match tenant.maxWritesPerMonth with
    | none   => taken a
    | some m => held a n m

def quota : CheckStage → Quota.Stage CountKey
  | held a n _ | excess a n | lost a n => .held a n
  | taken a    => .taken a
  | returned _ => .returned
  | _          => .idle

/-- What the calls so far have added to. -/
def chargedOn (p : CountKey → Bool) : CheckStage → Bool
  | held a _ _ | excess a _ | lost a _ | taken a | returned a => p a
  | _ => false

def loweredOn (p : CountKey → Bool) : CheckStage → Bool
  | returned a | lowered a => p a
  | _ => false

/-- An excluded document has lowered the counter. -/
def lowersOn (p : CountKey → Bool) : CheckStage → Bool
  | lowered a => p a
  | _ => false

def allow : CheckStage → Op → Prop
  | asking t, op             => op = .getTenant t
  | metered t _, op          => op = .now ∨ ∃ d now, op = .updateCount t d (chargeRequest now)
  | held a _ _, op           => op = monthQuery a
  | excess a _, op             => op = .updateCount a.1 a.2 rollbackRequest
  | lowering a, op           => op = .updateCount a.1 a.2 rollbackRequest
  | _, _                     => False

/-- The answer to the charge, the query or the rollback moves a check on. -/
def afterTenant (t : String) : Except Exc (Option TenantRecord) → CheckStage
  | .ok (some tenant) =>
    if tenant.maxWritesPerDay.isNone && tenant.maxWritesPerMonth.isNone then free
    else metered t tenant
  | _ => free

def afterCharge (tenant : TenantRecord) (a : CountKey) : Except Exc CountRecord → CheckStage
  | .ok r    => judge tenant a (CountRecord.count r)
  | .error _ => free

def afterQuery (a : CountKey) (n : Int) (m : Nat) : Except Exc (List (Day × CountRecord)) → CheckStage
  | .ok items => if (m : Int) < monthlyTotal a.2 n items then excess a n else taken a
  | .error _  => lost a n

def afterRollback (done failed : CheckStage) : Except Exc CountRecord → CheckStage
  | .ok _    => done
  | .error _ => failed

def next : CheckStage → (op : Op) → sig.Ans op → CheckStage
  | asking t, .getTenant _, ans          => afterTenant t ans
  | metered _ tenant, .updateCount t d _, ans => afterCharge tenant (t, d) ans
  | held a n m, .queryMonth .., ans      => afterQuery a n m ans
  | excess a n, .updateCount .., ans       => afterRollback (returned a) (lost a n) ans
  | lowering a, .updateCount .., ans     => afterRollback (lowered a) free ans
  | s, _, _                              => s

/-- The call may return here. -/
def Settled : CheckStage → Prop
  | free | taken _ | lowered _ => True
  | _ => False

end CheckStage

abbrev checkProtocol : Protocol sig where
  State        := CheckStage
  allow        := CheckStage.allow
  possible _ _ _ := True
  next         := CheckStage.next

def QuotaEntry.stage : QuotaEntry → CheckStage
  | check t   => .asking t
  | lower t d => .lowering (t, d)

section
open CheckStage

theorem obeys_rollback {s : CheckStage} {t : String} {d : Day} {Q : CheckStage → Unit → Prop}
    (hs : s.allow (.updateCount t d rollbackRequest))
    (hQ : ∀ ans, Q (s.next (.updateCount t d rollbackRequest) ans) ()) :
    checkProtocol.Obeys Q (fun _ _ => True) s (rollback t d) := by
  unfold rollback
  refine obeys_tryCatch (F := fun s' _ => ∃ ans, s' = s.next (.updateCount t d rollbackRequest) ans) ?_ ?_
  · refine obeys_bind (Q := fun s' _ => ∃ ans, s' = s.next (.updateCount t d rollbackRequest) ans)
      (obeys_perform hs (fun r _ => ⟨_, rfl⟩) fun e _ => ⟨_, rfl⟩) ?_
    rintro s' _ ⟨ans, rfl⟩
    exact hQ ans
  · rintro s' e ⟨ans, rfl⟩
    split
    · exact hQ ans
    · trivial

theorem obeys_incrementAndCheck (t : String) :
    checkProtocol.Obeys (fun s _ => s.Settled) (fun _ _ => True) (.asking t) (incrementAndCheck t) := by
  unfold incrementAndCheck
  refine obeys_bind (obeys_perform (Q := fun s r => s = afterTenant t (.ok r)) rfl (fun _ _ => rfl)
    fun _ _ => trivial) ?_
  rintro _ tenant rfl
  cases tenant with
  | none => exact trivial
  | some tenant =>
    dsimp only
    split
    next hnone =>
      refine obeys_ret ?_
      rw [afterTenant, if_pos hnone]
      exact trivial
    next hsome =>
      rw [afterTenant, if_neg hsome]
      refine obeys_bind (obeys_perform (Q := fun s _ => s = metered t tenant) (.inl rfl)
        (fun _ _ => rfl) fun _ _ => trivial) ?_
      rintro _ today rfl
      refine obeys_bind (obeys_perform (Q := fun s _ => s = metered t tenant) (.inl rfl)
        (fun _ _ => rfl) fun _ _ => trivial) ?_
      rintro _ now rfl
      refine obeys_bind (obeys_perform
        (Q := fun s r => s = judge tenant (t, stripTime today) (CountRecord.count r))
        (.inr ⟨_, _, rfl⟩) (fun _ _ => rfl) fun _ _ => trivial) ?_
      rintro _ result rfl
      rw [judge]
      split
      next hday =>
        refine obeys_bind (Q := fun _ _ => True) (obeys_rollback rfl fun _ => trivial) fun _ _ _ => ?_
        exact obeys_raise trivial
      next hday =>
        cases tenant.maxWritesPerMonth with
        | none => exact trivial
        | some m =>
          let a := (t, stripTime today)
          let n := CountRecord.count result
          refine obeys_bind (obeys_perform
            (Q := fun s items => s = if (m : Int) < monthlyTotal a.2 n items then excess a n else taken a)
            rfl (fun _ _ => rfl) fun _ _ => trivial) ?_
          rintro _ items rfl
          by_cases hover : (m : Int) < monthlyTotal (stripTime today) (CountRecord.count result) items
          · rw [if_pos hover, if_pos hover]
            refine obeys_bind (Q := fun _ _ => True) (obeys_rollback rfl fun _ => trivial) fun _ _ _ => ?_
            exact obeys_raise trivial
          · rw [if_neg hover, if_neg hover]
            exact obeys_ret trivial

theorem obeys_quotaEntry (e : QuotaEntry) :
    checkProtocol.Obeys (fun s _ => s.Settled) (fun _ _ => True) e.stage (quotaSystem.body e) := by
  cases e with
  | check t => exact obeys_incrementAndCheck t
  | lower t d =>
    refine obeys_rollback rfl fun ans => ?_
    change (afterRollback (.lowered (t, d)) free ans).Settled
    cases ans <;> trivial

end

/-! ## One call -/

theorem quota_put {w w' : World} {a : CountKey} {r : CountRecord} (h : w'.counts = w.counts.put a r)
    (b : CountKey) : w'.quota b = Function.update w.quota a (CountRecord.count r) b := by
  unfold World.quota
  rw [h]
  by_cases hab : b = a
  · subst hab
    rw [Function.update_self, Dynamo.Table.put_item_self]
    rfl
  · rw [Function.update_of_ne hab, Dynamo.Table.put_item_ne _ _ hab]

theorem quota_congr {w w' : World} (h : w'.counts = w.counts) (a : CountKey) : w'.quota a = w.quota a := by
  unfold World.quota
  rw [h]

/-- A request on a counter fails and changes nothing, or applies. -/
theorem exec_updateCount {w w' : World} {t : String} {d : Day} {ch : StaleChoice}
    {u : Dynamo.Update TenantRequestCountRecord.schema} {ans : sig.Ans (.updateCount t d u)}
    (h : w.execStale Op.isMonthQuery (.updateCount t d u) ch = some (ans, w')) :
    (∃ e, ans = .error e ∧ w' = w) ∨
      ∃ r, ans = .ok r ∧ u.apply ((w.counts.item (t, d)).getD fun _ => none) = .ok r ∧
        w' = { w with counts := w.counts.put (t, d) r } := by
  rcases exec_cases (execStale_of_not rfl h) with h | ⟨e, _, _, rfl, rfl⟩
  · simp only [World.run, World.raise] at h
    split at h
    next counts hc =>
      obtain ⟨r, hr, rfl⟩ := Dynamo.Table.update_eq_ok hc
      cases h
      refine .inr ⟨r, ?_, hr, rfl⟩
      rw [Dynamo.Table.put_item_self]
      rfl
    next e hc =>
      cases h
      exact .inl ⟨_, rfl, rfl⟩
  · exact .inl ⟨e, rfl, rfl⟩

theorem count_getD (w : World) (a : CountKey) :
    CountRecord.count ((w.counts.item a).getD fun _ => none) = w.quota a := by
  rw [World.quota]
  cases w.counts.item a <;> rfl

theorem apply_charge {now : Timestamp} {old r : CountRecord}
    (h : (chargeRequest now).apply old = .ok r) : CountRecord.count r = CountRecord.count old + 1 := by
  cases h
  rfl

theorem apply_rollback {old r : CountRecord} (h : rollbackRequest.apply old = .ok r) :
    CountRecord.count r = CountRecord.count old - 1 ∧ 0 < CountRecord.count old := by
  obtain ⟨hcond, _, rfl⟩ := Dynamo.Update.apply_eq_ok h
  refine ⟨rfl, ?_⟩
  change (old .count).any (fun n : Int => decide (0 < n)) = true at hcond
  unfold CountRecord.count CountRecord.count?
  cases hn : old .count with
  | none => rw [hn] at hcond; cases hcond
  | some n =>
    rw [hn] at hcond
    exact of_decide_eq_true hcond

namespace CheckStage

/-- What a check remembers of the tenant is right. -/
def Honest (tenants : String → Option TenantRecord) : CheckStage → Prop
  | metered t tenant => tenants t = some tenant
  | held a n m => ∃ tenant, tenants a.1 = some tenant ∧ tenant.maxWritesPerMonth = some m ∧
      ∀ m', tenant.maxWritesPerDay = some m' → n ≤ m'
  | _ => True

/-- One allowed call of a check, by what it does to the counters. -/
inductive Step (w w' : World) (ch : StaleChoice) : CheckStage → CheckStage → Prop
  | quiet {s s' : CheckStage} (quota : s'.quota = s.quota) (charged : s'.chargedOn = s.chargedOn)
      (lowered : s'.loweredOn = s.loweredOn) (lowers : ∀ p, s'.lowersOn p = false)
      (honest : s.Honest w.tenants → s'.Honest w.tenants) (counts : w'.counts = w.counts) :
      Step w w' ch s s'
  | charge {tenant : TenantRecord} {a : CountKey} {r : CountRecord}
      (count : CountRecord.count r = w.quota a + 1) (counts : w'.counts = w.counts.put a r) :
      Step w w' ch (metered a.1 tenant) (judge tenant a (CountRecord.count r))
  | keep {a : CountKey} {n : Int} {m : Nat}
      (total : monthlyTotal a.2 n (ch.shows (monthQuery a) (monthItems w a)) ≤ m)
      (counts : w'.counts = w.counts) :
      Step w w' ch (held a n m) (taken a)
  | refund {a : CountKey} {n : Int} {r : CountRecord} (count : CountRecord.count r = w.quota a - 1)
      (pos : 0 < w.quota a) (counts : w'.counts = w.counts.put a r) :
      Step w w' ch (excess a n) (returned a)
  | lower {a : CountKey} {r : CountRecord} (count : CountRecord.count r = w.quota a - 1)
      (pos : 0 < w.quota a) (counts : w'.counts = w.counts.put a r) :
      Step w w' ch (lowering a) (lowered a)

theorem exec_monthQuery {w w' : World} {a : CountKey} {ch : Choice} {items : List (Day × CountRecord)}
    (h : w.exec (monthQuery a) ch = some (.ok items, w')) : items = monthItems w a := by
  rcases exec_cases h with h | ⟨e, _, _, h, _⟩
  · cases h
    rfl
  · cases h

theorem execStale_monthQuery {w w' : World} {a : CountKey} {ch : StaleChoice} {items : List (Day × CountRecord)}
    (h : w.execStale Op.isMonthQuery (monthQuery a) ch = some (.ok items, w')) :
    items = ch.shows (monthQuery a) (monthItems w a) := by
  obtain ⟨stored, hstored, hans⟩ := execStale_cases h
  cases stored with
  | error e => cases hans
  | ok current =>
    cases hans
    rw [exec_monthQuery hstored]

theorem exec_getTenant {w w' : World} {t : String} {ch : StaleChoice} {tenant : Option TenantRecord}
    (h : w.execStale Op.isMonthQuery (.getTenant t) ch = some (.ok tenant, w')) :
    tenant = w.tenants t := by
  rcases exec_cases (execStale_of_not rfl h) with h | ⟨e, _, _, h, _⟩
  · cases h
    rfl
  · cases h

theorem Step.of_allow {w w' : World} {s : CheckStage} {op : Op} {ch : StaleChoice} {ans : sig.Ans op}
    (ha : s.allow op) (h : w.execStale Op.isMonthQuery op ch = some (ans, w')) :
    Step w w' ch s (s.next op ans) := by
  have hsame : op.isCountWrite = false → w'.counts = w.counts := (execStale_frame h).counts
  cases s with
  | asking t =>
    obtain rfl : op = .getTenant t := ha
    change Step w w' ch (asking t) (afterTenant t ans)
    have hw := hsame rfl
    rcases ans with e | tenant
    · exact .quiet rfl rfl rfl (fun _ => rfl) (fun _ => trivial) hw
    · cases tenant with
      | none => exact .quiet rfl rfl rfl (fun _ => rfl) (fun _ => trivial) hw
      | some tenant =>
        change Step w w' ch (asking t) (if tenant.maxWritesPerDay.isNone && tenant.maxWritesPerMonth.isNone
          then free else metered t tenant)
        by_cases hlim : (tenant.maxWritesPerDay.isNone && tenant.maxWritesPerMonth.isNone) = true
        · rw [if_pos hlim]
          exact .quiet rfl rfl rfl (fun _ => rfl) (fun _ => trivial) hw
        · rw [if_neg hlim]
          exact .quiet rfl rfl rfl (fun _ => rfl) (fun _ => (exec_getTenant h).symm) hw
  | metered t tenant =>
    rcases ha with rfl | ⟨d, now, rfl⟩
    · exact .quiet rfl rfl rfl (fun _ => rfl) (fun hh => hh) (hsame rfl)
    · change Step w w' ch (metered t tenant) (afterCharge tenant (t, d) ans)
      rcases exec_updateCount h with ⟨e, rfl, rfl⟩ | ⟨r, rfl, hr, rfl⟩
      · exact .quiet rfl rfl rfl (fun _ => rfl) (fun _ => trivial) rfl
      · refine .charge (a := (t, d)) ?_ rfl
        rw [apply_charge hr, count_getD]
  | held a n m =>
    obtain rfl : op = _ := ha
    change Step w w' ch (held a n m) (afterQuery a n m ans)
    have hw := hsame rfl
    rcases ans with e | items
    · exact .quiet rfl rfl rfl (fun _ => rfl) (fun _ => trivial) hw
    · change Step w w' ch (held a n m) (if (m : Int) < monthlyTotal a.2 n items then excess a n else taken a)
      by_cases hover : (m : Int) < monthlyTotal a.2 n items
      · rw [if_pos hover]
        exact .quiet rfl rfl rfl (fun _ => rfl) (fun _ => trivial) hw
      · rw [if_neg hover]
        refine .keep ?_ hw
        rw [← execStale_monthQuery h]
        omega
  | excess a n =>
    obtain rfl : op = _ := ha
    change Step w w' ch (excess a n) (afterRollback (returned a) (lost a n) ans)
    rcases exec_updateCount h with ⟨e, rfl, rfl⟩ | ⟨r, rfl, hr, rfl⟩
    · exact .quiet rfl rfl rfl (fun _ => rfl) (fun _ => trivial) rfl
    · obtain ⟨hcount, hpos⟩ := apply_rollback hr
      rw [count_getD] at hcount hpos
      exact .refund hcount hpos rfl
  | lowering a =>
    obtain rfl : op = _ := ha
    change Step w w' ch (lowering a) (afterRollback (lowered a) free ans)
    rcases exec_updateCount h with ⟨e, rfl, rfl⟩ | ⟨r, rfl, hr, rfl⟩
    · exact .quiet rfl rfl rfl (fun _ => rfl) (fun _ => trivial) rfl
    · obtain ⟨hcount, hpos⟩ := apply_rollback hr
      rw [count_getD] at hcount hpos
      exact .lower hcount hpos rfl
  | _ => cases ha

end CheckStage

/-! ## The pool is a quota machine -/

def stageOf (th : Effect.Thread quotaSystem) : CheckStage := checkProtocol.loc QuotaEntry.stage th

/-- What the trace of a call shows is in its stage. -/
structure Shown (th : Effect.Thread quotaSystem) : Prop where
  charged : ∀ p, charged p th = (stageOf th).chargedOn p
  lowered : ∀ p, lowered p th = (stageOf th).loweredOn p

structure Simulates (w₀ : World) (c : Effect.Config quotaSystem) (s : Quota.State CountKey) : Prop where
  stage   : ∀ i, s.stage i = ((c.threads[i]?).map fun th => (stageOf th).quota).getD .idle
  count   : ∀ a, c.world.quota a = s.count a
  nonneg  : ∀ a, 0 ≤ c.world.quota a
  known   : ∀ i a, (s.stage i).on (Quota.only a) = true → a ∈ c.world.counts.keys
  lowers  : ∀ p, s.lowerings p = c.threads.countP fun th => (stageOf th).lowersOn p
  tenants : c.world.tenants = w₀.tenants
  honest  : ∀ th ∈ c.threads, (stageOf th).Honest w₀.tenants
  shown   : ∀ th ∈ c.threads, Shown th

section
open CheckStage

theorem judge_flags (tenant : TenantRecord) (a : CountKey) (n : Int) (p : CountKey → Bool) :
    (judge tenant a n).chargedOn p = p a ∧ (judge tenant a n).loweredOn p = false := by
  unfold judge
  split
  · exact ⟨rfl, rfl⟩
  · split <;> exact ⟨rfl, rfl⟩

theorem afterTenant_flags (t : String) (ans : Except Exc (Option TenantRecord)) (p : CountKey → Bool) :
    (afterTenant t ans).chargedOn p = false ∧ (afterTenant t ans).loweredOn p = false := by
  unfold afterTenant
  split
  · split <;> exact ⟨rfl, rfl⟩
  · exact ⟨rfl, rfl⟩

theorem afterQuery_flags (a : CountKey) (n : Int) (m : Nat) (ans : Except Exc (List (Day × CountRecord)))
    (p : CountKey → Bool) :
    (afterQuery a n m ans).chargedOn p = p a ∧ (afterQuery a n m ans).loweredOn p = false := by
  unfold afterQuery
  split
  · split <;> exact ⟨rfl, rfl⟩
  · exact ⟨rfl, rfl⟩

/-- What a call adds to a counter, and what it takes, its stage remembers. -/
theorem flags_next {s : CheckStage} {op : Op} {ans : sig.Ans op} (h : s.allow op)
    (p : CountKey → Bool) :
    (s.next op ans).chargedOn p = (isCharge p ⟨op, ans⟩ || s.chargedOn p) ∧
      (s.next op ans).loweredOn p = (isLowering p ⟨op, ans⟩ || s.loweredOn p) := by
  cases s with
  | asking t =>
    obtain rfl : op = .getTenant t := h
    exact afterTenant_flags t ans p
  | metered t tenant =>
    rcases h with rfl | ⟨d, now, rfl⟩
    · exact ⟨rfl, rfl⟩
    · cases ans with
      | error e => exact ⟨rfl, rfl⟩
      | ok r =>
        have hj := judge_flags tenant (t, d) (CountRecord.count r) p
        refine ⟨hj.1.trans ?_, hj.2.trans ?_⟩
        · change p (t, d) = ((p (t, d) && true) || false)
          simp
        · change false = ((p (t, d) && false) || false)
          simp
  | held a n m =>
    obtain rfl : op = _ := h
    exact afterQuery_flags a n m ans p
  | excess a n =>
    obtain rfl : op = _ := h
    cases ans with
    | error e => exact ⟨rfl, rfl⟩
    | ok r =>
      change p a = ((p a && false) || p a) ∧ p a = ((p a && true) || false)
      simp
  | lowering a =>
    obtain rfl : op = _ := h
    cases ans with
    | error e => exact ⟨rfl, rfl⟩
    | ok r =>
      change false = ((p a && false) || false) ∧ p a = ((p a && true) || false)
      simp
  | _ => cases h

end

section
variable {w₀ w' : World} {c : Effect.Config quotaSystem} {s s' : Quota.State CountKey} {i : Nat}
  {th : Effect.Thread quotaSystem} {op : Op} {k : sig.Ans op → Prog Unit} {ch : StaleChoice}
  {ans : sig.Ans op} {months : Prop}

theorem stageOf_resume : stageOf (th.resume k ans) = (stageOf th).next op ans := rfl

theorem Shown.resume (h : Shown th) (ha : (stageOf th).allow op) : Shown (th.resume k ans) where
  charged p := by
    rw [stageOf_resume, (flags_next ha p).1, ← h.charged p]
    rfl
  lowered p := by
    rw [stageOf_resume, (flags_next ha p).2, ← h.lowered p]
    rfl

theorem lowersOn_of_allow {st : CheckStage} (h : st.allow op) (p : CountKey → Bool) :
    st.lowersOn p = false := by
  cases st with
  | lowered a => cases h
  | _ => rfl

/-- One call: the quota machine has moved to `s'`. -/
theorem Simulates.resume (h : Simulates w₀ c s) (hn : c.Next i th op k)
    (ha : (stageOf th).allow op) (hx : c.world.execStale Op.isMonthQuery op ch = some (ans, w'))
    (hstage : s'.stage = Function.update s.stage i ((stageOf th).next op ans).quota)
    (hcount : ∀ a, w'.quota a = s'.count a) (hnonneg : ∀ a, 0 ≤ w'.quota a)
    (hkeys : ∀ a, a ∈ c.world.counts.keys → a ∈ w'.counts.keys)
    (hon : ∀ a, ((stageOf th).next op ans).quota.on (Quota.only a) = true → a ∈ w'.counts.keys)
    (hlow : ∀ p, s'.lowerings p = s.lowerings p + if ((stageOf th).next op ans).lowersOn p then 1 else 0)
    (hhonest : ((stageOf th).next op ans).Honest w₀.tenants) :
    Simulates w₀ { world := w', threads := c.threads.set i (th.resume k ans) } s' := by
  have hi : c.threads[i]? = some th := hn.1
  have hmem : th ∈ c.threads := List.mem_of_getElem? hi
  refine ⟨fun j => ?_, hcount, hnonneg, fun j a hj => ?_, fun p => ?_, ?_, fun t ht => ?_, fun t ht => ?_⟩
  · rw [hstage]
    by_cases hj : j = i
    · subst hj
      rw [Function.update_self, List.getElem?_set_self (List.getElem?_eq_some_iff.1 hi).1]
      rfl
    · rw [Function.update_of_ne hj, List.getElem?_set_ne (Ne.symm hj)]
      exact h.stage j
  · rw [hstage] at hj
    by_cases hji : j = i
    · subst hji
      rw [Function.update_self] at hj
      exact hon a hj
    · rw [Function.update_of_ne hji] at hj
      exact hkeys a (h.known j a hj)
  · rw [hlow p, h.lowers p]
    exact (Effect.countP_set_of_not (x := th.resume k ans) (p := fun t => (stageOf t).lowersOn p) hi
      (lowersOn_of_allow ha p)).symm
  · exact (execStale_frame hx).tenants.trans h.tenants
  · rcases List.mem_or_eq_of_mem_set ht with ht | rfl
    · exact h.honest t ht
    · exact hhonest
  · rcases List.mem_or_eq_of_mem_set ht with ht | rfl
    · exact h.shown t ht
    · exact (h.shown th hmem).resume ha

/-! ## What a check sees -/

/-- The counters with a limit: a day's, and all days' of a month where the months are looked at too. -/
inductive Limits (w : World) (months : Prop) : (CountKey → Bool) → Nat → Prop
  | day {t : String} {tenant : TenantRecord} {m : Nat} (d : Day) (found : w.tenants t = some tenant)
      (limit : tenant.maxWritesPerDay = some m) : Limits w months (Quota.only (t, d)) m
  | month {t : String} {tenant : TenantRecord} {m : Nat} (month : Nat × Nat) (looked : months)
      (found : w.tenants t = some tenant) (limit : tenant.maxWritesPerMonth = some m) :
      Limits w months (inMonth t month) m

theorem inMonth_iff {t : String} {month : Nat × Nat} {a : CountKey} :
    inMonth t month a = true ↔ a.1 = t ∧ monthPrefix a.2 = month := by
  rw [inMonth, Bool.and_eq_true_iff, beq_iff_eq, beq_iff_eq]

theorem sum_filterMap {ks : List CountKey} {p : CountKey → Bool} {g : CountKey → Option (Day × CountRecord)}
    {f : Day × CountRecord → Int} {q : CountKey → Int}
    (hsome : ∀ b ∈ ks, p b = true → ∃ it, g b = some it ∧ f it = q b)
    (hnone : ∀ b ∈ ks, p b = false → g b = none) :
    ((ks.filterMap g).map f).sum = ((ks.filter p).map q).sum := by
  induction ks with
  | nil => rfl
  | cons b ks ih =>
    have ih := ih (fun x hx => hsome x (List.mem_cons_of_mem _ hx)) fun x hx =>
      hnone x (List.mem_cons_of_mem _ hx)
    rcases hp : p b with - | -
    · rw [List.filterMap_cons_none (hnone b List.mem_cons_self hp),
        List.filter_cons_of_neg (by simp [hp]), ih]
    · obtain ⟨it, hit, hf⟩ := hsome b List.mem_cons_self hp
      rw [List.filterMap_cons_some hit, List.filter_cons_of_pos hp, List.map_cons, List.map_cons,
        List.sum_cons, List.sum_cons, ih, hf]

/-- The answer to the query of a month, with the check's own count for today. -/
theorem monthlyTotal_eq {w : World} {a : CountKey} {n : Int} (ha : a ∈ w.counts.keys) :
    monthlyTotal a.2 n (monthItems w a) = n + (((w.counts.keys.filter fun b =>
      inMonth a.1 (monthPrefix a.2) b && decide (b ≠ a)).map w.quota).sum) := by
  have hmonth : ∀ b : CountKey, inMonth a.1 (monthPrefix a.2) b = true ↔
      b.1 = a.1 ∧ (monthPrefix b.2 == monthPrefix a.2) = true := by
    intro b
    rw [inMonth_iff, beq_iff_eq]
  have hday : ∀ b : CountKey, b.1 = a.1 → (b.2 = a.2 ↔ b = a) := by
    intro b hb
    rw [Prod.ext_iff]
    exact ⟨fun h => ⟨hb, h⟩, fun h => h.2⟩
  have hsum : monthlyTotal a.2 n (monthItems w a) =
      ((w.counts.keys.filter (inMonth a.1 (monthPrefix a.2))).map fun b =>
        if b = a then n else w.quota b).sum := by
    rw [monthlyTotal, monthItems]
    refine sum_filterMap (fun b hb hp => ?_) fun b _ hp => ?_
    · obtain ⟨it, hit⟩ := Option.isSome_iff_exists.1 ((w.counts.mem b).1 hb)
      refine ⟨(b.2, it), ?_, ?_⟩
      · rw [if_pos ((hmonth b).1 hp), hit]
        rfl
      · simp only [hday b ((hmonth b).1 hp).1, World.quota, hit]
        rfl
    · rw [if_neg fun hb => by rw [(hmonth b).2 hb] at hp; cases hp]
  have hperm : (w.counts.keys.filter (inMonth a.1 (monthPrefix a.2))).Perm
      (a :: w.counts.keys.filter fun b => inMonth a.1 (monthPrefix a.2) b && decide (b ≠ a)) := by
    refine (List.perm_ext_iff_of_nodup (w.counts.nodup.filter _)
      (List.nodup_cons.2 ⟨by simp, w.counts.nodup.filter _⟩)).2 fun b => ?_
    by_cases hb : b = a
    · subst hb
      simp [ha, hmonth]
    · simp [hb]
  rw [hsum, (hperm.map _).sum_eq, List.map_cons, List.sum_cons, if_pos rfl]
  congr 2
  refine List.map_congr_left fun b hb => if_neg ?_
  simpa using (Bool.and_eq_true_iff.1 (List.mem_filter.1 hb).2).2

/-- Today's own item does not matter for the total. -/
theorem monthlyTotal_of_same {today : Day} {n : Int} {current items : List (Day × CountRecord)}
    (h : SameButToday today current items) : monthlyTotal today n items = monthlyTotal today n current := by
  unfold monthlyTotal
  induction h with
  | nil => rfl
  | @cons e e' es es' he _ ih =>
    rw [List.map_cons, List.map_cons, List.sum_cons, List.sum_cons, ih, he.1]
    by_cases htoday : e.1 = today
    · rw [if_pos htoday, if_pos htoday]
    · rw [if_neg htoday, if_neg htoday, he.2 htoday]

theorem Simulates.sees (h : Simulates w₀ c s) {a : CountKey} {n : Int}
    (ha : a ∈ c.world.counts.keys) : Quota.Sees (inMonth a.1 (monthPrefix a.2)) s a n
      (monthlyTotal a.2 n (monthItems c.world a)) := by
  refine ⟨c.world.counts.keys.filter fun b => inMonth a.1 (monthPrefix a.2) b && decide (b ≠ a),
    c.world.counts.nodup.filter _, by simp, fun b hb => ?_, fun j b hj hb hne => ?_, ?_⟩
  · exact (Bool.and_eq_true_iff.1 (List.mem_filter.1 hb).2).1
  · exact List.mem_filter.2 ⟨h.known j b hj, Bool.and_eq_true_iff.2 ⟨hb, decide_eq_true hne⟩⟩
  · rw [monthlyTotal_eq ha]
    congr 2
    exact List.map_congr_left fun b _ => h.count b

/-- The ledger is right and no limit has been passed. -/
structure Bounded (w₀ : World) (months : Prop) (s : Quota.State CountKey) : Prop where
  inv    : Quota.Inv s
  within : ∀ p m, Limits w₀ months p m → Quota.Within p m s

theorem sees_only (a : CountKey) (n : Int) : Quota.Sees (Quota.only a) s a n n := by
  refine ⟨[], List.nodup_nil, by simp, by simp, fun j b _ hb hne => absurd (Quota.only_iff.1 hb) hne, ?_⟩
  simp

theorem stage_eq (h : Simulates w₀ c s) (hn : c.Next i th op k) : s.stage i = (stageOf th).quota := by
  rw [h.stage i, hn.1]
  rfl

/-- A quiet call leaves the quota machine where it is. -/
theorem Simulates.step_quiet (h : Simulates w₀ c s) (hn : c.Next i th op k)
    (ha : (stageOf th).allow op) (hx : c.world.execStale Op.isMonthQuery op ch = some (ans, w'))
    (hquota : ((stageOf th).next op ans).quota = (stageOf th).quota)
    (hlow : ∀ p, ((stageOf th).next op ans).lowersOn p = false)
    (hhonest : ((stageOf th).next op ans).Honest w₀.tenants) (hcounts : w'.counts = c.world.counts) :
    Simulates w₀ { world := w', threads := c.threads.set i (th.resume k ans) } s := by
  have hst := stage_eq h hn
  refine h.resume hn ha hx ?_ (fun a => ?_) (fun a => ?_) (fun a hm => hcounts ▸ hm) (fun a hon => ?_)
    (fun p => ?_) hhonest
  · rw [hquota, ← hst, Function.update_eq_self]
  · rw [quota_congr hcounts, h.count]
  · rw [quota_congr hcounts]
    exact h.nonneg a
  · rw [hquota, ← hst] at hon
    rw [hcounts]
    exact h.known i a hon
  · rw [hlow p]
    rfl

theorem mem_keys_put {w w' : World} {a b : CountKey} {r : CountRecord}
    (h : w'.counts = w.counts.put a r) : b ∈ w'.counts.keys ↔ b = a ∨ b ∈ w.counts.keys := by
  rw [h, Dynamo.Table.mem]
  by_cases hab : b = a
  · subst hab
    simp
  · rw [Dynamo.Table.put_item_ne _ _ hab, ← Dynamo.Table.mem]
    simp [hab]

/-- A call that writes the counter `a`. -/
theorem Simulates.step_put (h : Simulates w₀ c s) (hn : c.Next i th op k)
    (ha : (stageOf th).allow op) (hx : c.world.execStale Op.isMonthQuery op ch = some (ans, w')) {a : CountKey}
    {r : CountRecord} (hput : w'.counts = c.world.counts.put a r) (hr : 0 ≤ CountRecord.count r)
    (hcount : s'.count = Function.update s.count a (CountRecord.count r))
    (hstage : s'.stage = Function.update s.stage i ((stageOf th).next op ans).quota)
    (hon : ∀ b, ((stageOf th).next op ans).quota.on (Quota.only b) = true → b = a)
    (hlow : ∀ p, s'.lowerings p = s.lowerings p + if ((stageOf th).next op ans).lowersOn p then 1 else 0)
    (hhonest : ((stageOf th).next op ans).Honest w₀.tenants) :
    Simulates w₀ { world := w', threads := c.threads.set i (th.resume k ans) } s' := by
  refine h.resume hn ha hx hstage (fun b => ?_) (fun b => ?_) (fun b hb => (mem_keys_put hput).2 (.inr hb))
    (fun b hb => (mem_keys_put hput).2 (.inl (hon b hb))) hlow hhonest
  · rw [quota_put hput, hcount]
    by_cases hab : b = a
    · subst hab
      rw [Function.update_self, Function.update_self]
    · rw [Function.update_of_ne hab, Function.update_of_ne hab, h.count]
  · rw [quota_put hput]
    by_cases hab : b = a
    · subst hab
      rw [Function.update_self]
      exact hr
    · rw [Function.update_of_ne hab]
      exact h.nonneg b

theorem honest_judge {w : World} {tenant : TenantRecord} {a : CountKey} (n : Int)
    (h : w.tenants a.1 = some tenant) : (CheckStage.judge tenant a n).Honest w.tenants := by
  unfold CheckStage.judge
  split
  · trivial
  next hday =>
    split
    · trivial
    next m hm =>
      refine ⟨tenant, h, hm, fun m' hm' => ?_⟩
      rw [hm'] at hday
      simpa using hday

/-- A check that is let go without a look at the month has passed every limit there is. -/
theorem within_charge {tenant : TenantRecord} {a : CountKey} {n : Int} {p : CountKey → Bool} {m : Nat}
    (htenant : w₀.tenants a.1 = some tenant) (htaken : CheckStage.judge tenant a n = .taken a)
    (hp : Limits w₀ months p m) (ha : p a = true) : Quota.Sees p s a n n ∧ n ≤ m := by
  unfold CheckStage.judge at htaken
  split at htaken
  · cases htaken
  next hday =>
    split at htaken
    next hmonth =>
      cases hp with
      | day d found limit =>
        have hat := Quota.only_iff.1 ha
        subst hat
        refine ⟨sees_only _ n, ?_⟩
        rw [htenant] at found
        cases found
        rw [limit] at hday
        simpa using hday
      | month month looked found limit =>
        have hat := (inMonth_iff.1 ha).1
        rw [hat, found] at htenant
        cases htenant
        rw [limit] at hmonth
        cases hmonth
    · cases htaken

theorem within_query (h : Simulates w₀ c s) {a : CountKey} {n : Int} {m' : Nat}
    {items : List (Day × CountRecord)} (hhonest : (CheckStage.held a n m').Honest w₀.tenants)
    (hitems : months → SameButToday a.2 (monthItems c.world a) items)
    (hmem : a ∈ c.world.counts.keys) (htotal : monthlyTotal a.2 n items ≤ m')
    {p : CountKey → Bool} {m : Nat} (hp : Limits w₀ months p m) (ha : p a = true) :
    ∃ total : Int, Quota.Sees p s a n total ∧ total ≤ m := by
  obtain ⟨tenant, htenant, hmonth, hday⟩ := hhonest
  cases hp with
  | day d found limit =>
    have hat := Quota.only_iff.1 ha
    subst hat
    rw [found] at htenant
    cases htenant
    exact ⟨n, sees_only _ n, hday m limit⟩
  | month month looked found limit =>
    obtain ⟨hat, hmo⟩ := inMonth_iff.1 ha
    rw [hat, found] at htenant
    cases htenant
    rw [limit] at hmonth
    cases hmonth
    rw [monthlyTotal_of_same (hitems looked)] at htotal
    refine ⟨_, ?_, htotal⟩
    have hsees := h.sees (n := n) hmem
    rwa [hat, hmo] at hsees

/-- The pool stays a quota machine within its limits. -/
theorem Simulates.step (h : Simulates w₀ c s) (hb : Bounded w₀ months s) (hn : c.Next i th op k)
    (ha : (stageOf th).allow op) (htimely : months → Timely c (.act i ch))
    (hx : c.world.execStale Op.isMonthQuery op ch = some (ans, w')) :
    ∃ s', Simulates w₀ { world := w', threads := c.threads.set i (th.resume k ans) } s' ∧
      Bounded w₀ months s' := by
  have hhonest := h.honest th (List.mem_of_getElem? hn.1)
  have hst := stage_eq h hn
  have hstep := CheckStage.Step.of_allow ha hx
  generalize hnext : (stageOf th).next op ans = next at hstep
  generalize hcur : stageOf th = cur at hstep
  rw [hcur] at hst hhonest
  cases hstep with
  | quiet quota charged lowered lowers honest counts =>
    rw [h.tenants] at honest
    refine ⟨s, h.step_quiet hn ha hx ?_ ?_ ?_ counts, hb⟩
    · rw [hnext, hcur, quota]
    · rw [hnext]
      exact lowers
    · rw [hnext]
      exact honest hhonest
  | @charge tenant a r count counts =>
    have htenant : w₀.tenants a.1 = some tenant := hhonest
    have hidle : s.stage i = .idle := hst
    have hn' : CountRecord.count r = s.count a + 1 := by rw [count, h.count]
    have hr : 0 ≤ CountRecord.count r := by
      have := h.nonneg a
      omega
    have hheld : (s.reserve i a).stage i = .held a (CountRecord.count r) := by
      rw [hn']
      exact Function.update_self ..
    have hbres : Bounded w₀ months (s.reserve i a) :=
      ⟨hb.inv.reserve hidle, fun p m hp => (hb.within p m hp).reserve hb.inv hidle⟩
    by_cases htaken : CheckStage.judge tenant a (CountRecord.count r) = .taken a
    · refine ⟨(s.reserve i a).keep i a, ?_, hbres.inv.keep hheld, fun p m hp =>
        (hbres.within p m hp).keep _ hbres.inv hheld (within_charge htenant htaken hp)⟩
      refine h.step_put hn ha hx counts hr ?_ ?_ ?_ ?_ ?_
      · rw [hn']
        rfl
      · rw [hnext, htaken]
        exact Function.update_idem ..
      · rw [hnext, htaken]
        exact fun b hb => (Quota.only_iff.1 hb).symm
      · rw [hnext, htaken]
        exact fun p => rfl
      · rw [hnext]
        exact honest_judge _ htenant
    · have hquota : (CheckStage.judge tenant a (CountRecord.count r)).quota = .held a (s.count a + 1) ∧
          ∀ p, (CheckStage.judge tenant a (CountRecord.count r)).lowersOn p = false := by
        rw [← hn']
        unfold CheckStage.judge at htaken ⊢
        split
        · exact ⟨rfl, fun _ => rfl⟩
        next hday =>
          rw [if_neg hday] at htaken
          split
          next hnone =>
            rw [hnone] at htaken
            exact absurd rfl htaken
          · exact ⟨rfl, fun _ => rfl⟩
      refine ⟨s.reserve i a, ?_, hbres⟩
      refine h.step_put hn ha hx counts hr ?_ ?_ ?_ ?_ ?_
      · rw [hn']
        rfl
      · rw [hnext, hquota.1]
        rfl
      · rw [hnext, hquota.1]
        exact fun b hb => (Quota.only_iff.1 hb).symm
      · intro p
        rw [hnext, hquota.2 p]
        rfl
      · rw [hnext]
        exact honest_judge _ htenant
  | @keep a n m total counts =>
    have hheld : s.stage i = .held a n := hst
    have hitems : months → SameButToday a.2 (monthItems c.world a)
        (ch.shows (monthQuery a) (monthItems c.world a)) := by
      intro hm
      refine htimely hm th a hn.1 ?_
      rw [(h.shown th (List.mem_of_getElem? hn.1)).charged, hcur]
      exact Quota.only_iff.2 rfl
    have hmem : a ∈ c.world.counts.keys := h.known i a (by rw [hheld]; exact Quota.only_iff.2 rfl)
    refine ⟨s.keep i a, ?_, hb.inv.keep hheld, fun p m hp => ?_⟩
    · refine h.resume hn ha hx ?_ (fun b => ?_) (fun b => ?_) (fun b hm => counts ▸ hm) ?_ ?_ ?_
      · rw [hnext]
        rfl
      · rw [quota_congr counts, h.count]
        rfl
      · rw [quota_congr counts]
        exact h.nonneg b
      · rw [hnext]
        intro b hb
        have hab : a = b := Quota.only_iff.1 hb
        rw [counts, ← hab]
        exact hmem
      · rw [hnext]
        exact fun p => rfl
      · rw [hnext]
        trivial
    · by_cases hpa : p a = true
      · obtain ⟨total', hsees⟩ := within_query h hhonest hitems hmem total hp hpa
        exact (hb.within p m hp).keep total' hb.inv hheld fun _ => hsees
      · exact (hb.within p m hp).keep 0 hb.inv hheld fun h => absurd h hpa
  | @refund a n r count pos counts =>
    have hheld : s.stage i = .held a n := hst
    refine ⟨s.refund i a, ?_, hb.inv.refund hheld, fun p m hp => (hb.within p m hp).refund⟩
    refine h.step_put hn ha hx counts (by omega) ?_ ?_ ?_ ?_ ?_
    · rw [count, h.count]
      rfl
    · rw [hnext]
      rfl
    · rw [hnext]
      exact fun b hb => by cases hb
    · rw [hnext]
      exact fun p => rfl
    · rw [hnext]
      trivial
  | @lower a r count pos counts =>
    refine ⟨s.lower a, ?_, hb.inv.lower, fun p m hp => (hb.within p m hp).lower⟩
    refine h.step_put hn ha hx counts (by omega) ?_ ?_ ?_ ?_ ?_
    · rw [count, h.count]
      rfl
    · rw [hnext]
      change s.stage = _
      rw [← (show s.stage i = (CheckStage.lowered a).quota from hst), Function.update_eq_self]
    · rw [hnext]
      exact fun b hb => by cases hb
    · rw [hnext]
      exact fun p => Quota.lowerings_lower
    · rw [hnext]
      trivial

theorem simulates_init (hw : w₀.counts = .empty) :
    Simulates w₀ (Effect.Config.init w₀) Quota.State.init := by
  have hzero : ∀ a, w₀.quota a = 0 := by
    intro a
    unfold World.quota
    rw [hw]
    rfl
  exact ⟨fun i => rfl, hzero, fun a => (hzero a).ge, fun i a hi => (by cases hi), fun p => rfl, rfl,
    fun t ht => (by cases ht), fun t ht => (by cases ht)⟩

theorem stage_start (e : QuotaEntry) : e.stage.quota = .idle ∧ (∀ p, e.stage.lowersOn p = false) ∧
    (∀ p, e.stage.chargedOn p = false) ∧ (∀ p, e.stage.loweredOn p = false) ∧
    ∀ tenants, e.stage.Honest tenants := by
  cases e <;> exact ⟨rfl, fun _ => rfl, fun _ => rfl, fun _ => rfl, fun _ => trivial⟩

theorem Simulates.start (h : Simulates w₀ c s) (e : QuotaEntry) :
    Simulates w₀ { c with threads := c.threads ++ [Effect.Thread.init e] } s := by
  obtain ⟨hidle, hlowers, hcharged, hlowered, hhonest⟩ := stage_start e
  refine ⟨fun i => ?_, h.count, h.nonneg, h.known, fun p => ?_, h.tenants, fun t ht => ?_, fun t ht => ?_⟩
  · rw [h.stage i]
    by_cases hi : i < c.threads.length
    · rw [List.getElem?_append_left hi]
    · rw [List.getElem?_eq_none (Nat.le_of_not_lt hi), List.getElem?_append_right (Nat.le_of_not_lt hi)]
      cases i - c.threads.length with
      | zero => exact hidle.symm
      | succ n => rfl
  · rw [h.lowers p, List.countP_append, List.countP_singleton]
    change _ = _ + if e.stage.lowersOn p = true then 1 else 0
    rw [hlowers p]
    rfl
  · rcases List.mem_append.1 ht with ht | ht
    · exact h.honest t ht
    · obtain rfl := List.mem_singleton.1 ht
      exact hhonest _
  · rcases List.mem_append.1 ht with ht | ht
    · exact h.shown t ht
    · obtain rfl := List.mem_singleton.1 ht
      exact ⟨fun p => (hcharged p).symm, fun p => (hlowered p).symm⟩

theorem Simulates.crash (h : Simulates w₀ c s) (hi : c.threads[i]? = some th) :
    Simulates w₀ { c with threads := c.threads.set i { th with crashed := true } } s := by
  have hmem := List.mem_of_getElem? hi
  refine ⟨fun j => ?_, h.count, h.nonneg, h.known, fun p => ?_, h.tenants, fun t ht => ?_, fun t ht => ?_⟩
  · rw [h.stage j]
    by_cases hj : j = i
    · subst hj
      rw [List.getElem?_set_self (List.getElem?_eq_some_iff.1 hi).1, hi]
      rfl
    · rw [List.getElem?_set_ne (Ne.symm hj)]
  · rw [h.lowers p]
    exact (Effect.countP_set_of_eq (x := { th with crashed := true })
      (p := fun t => (stageOf t).lowersOn p) hi rfl).symm
  · rcases List.mem_or_eq_of_mem_set ht with ht | rfl
    · exact h.honest t ht
    · exact h.honest th hmem
  · rcases List.mem_or_eq_of_mem_set ht with ht | rfl
    · exact h.shown t ht
    · exact ⟨(h.shown th hmem).charged, (h.shown th hmem).lowered⟩

end

/-! ## Every run -/

section
variable {w : World} {ms : List (Effect.Move quotaSystem)} {c : Effect.Config quotaSystem}

theorem simulates_play (months : Prop) (hw : w.counts = .empty)
    (htimely : Effect.Along (fun c m => months → Timely c m) (Effect.Config.init w) ms)
    (h : Effect.play (Effect.Config.init w) ms = some c) :
    checkProtocol.Coupled QuotaEntry.stage (fun s _ => s.Settled) (fun _ _ => True) c ∧
      ∃ s, Simulates w c s ∧ Bounded w months s := by
  refine Effect.Protocol.protocol_inv (R := checkProtocol) (P := quotaSystem) QuotaEntry.stage
    (J := fun c => ∃ s, Simulates w c s ∧ Bounded w months s) obeys_quotaEntry ?_ ?_ ?_
    (fun _ ht => (by cases ht))
    ⟨_, simulates_init hw, Quota.inv_init, fun _ _ _ => Quota.within_init⟩ htimely h
  · rintro c e ⟨s, hs, hb⟩ _
    exact ⟨s, hs.start e, hb⟩
  · rintro c i ch th op k ans w' ⟨s, hs, hb⟩ _ ht hn ha hx
    exact ⟨trivial, hs.step hb hn ha ht hx⟩
  · rintro c i th ⟨s, hs, hb⟩ _ hi
    exact ⟨s, hs.crash hi, hb⟩

variable {s : Quota.State CountKey}

/-- The places of the order count the calls. -/
theorem Simulates.countP_order {f : Quota.Stage CountKey → Bool} (h : Simulates w c s)
    (hinv : Quota.Inv s) (hf : f .idle = false) :
    s.order.countP (fun i => f (s.stage i)) = c.threads.countP fun th => f (stageOf th).quota := by
  rw [← Quota.countP_places (f := fun th => f (stageOf th).quota) hinv.nodup]
  · refine List.countP_congr fun i _ => ?_
    rw [h.stage i]
    cases c.threads[i]? with
    | none =>
      change f .idle = true ↔ _
      rw [hf]
      rfl
    | some th => rfl
  · intro i th hi hth
    refine (hinv.clients i).2 fun hidle => ?_
    rw [h.stage i, hi] at hidle
    change (stageOf th).quota = .idle at hidle
    rw [hidle, hf] at hth
    cases hth

theorem lowersOn_eq (st : CheckStage) (p : CountKey → Bool) :
    (st.loweredOn p && !st.chargedOn fun _ => true) = st.lowersOn p := by
  cases st <;> simp [CheckStage.loweredOn, CheckStage.chargedOn, CheckStage.lowersOn]

theorem lowerings_eq (h : Simulates w c s) (p : CountKey → Bool) : lowerings c p = s.lowerings p := by
  rw [h.lowers p]
  refine List.countP_congr fun th hth => ?_
  rw [(h.shown th hth).lowered, (h.shown th hth).charged, lowersOn_eq]

/-- What is accepted is kept for good. -/
theorem accepted_le (hc : checkProtocol.Coupled QuotaEntry.stage (fun s _ => s.Settled) (fun _ _ => True) c)
    (h : Simulates w c s) (hinv : Quota.Inv s) (p : CountKey → Bool) : accepted c p ≤ s.taken p := by
  have htaken := h.countP_order (f := fun st => st.takenOn p) hinv rfl
  refine le_trans (List.countP_mono_left fun th hth hacc => ?_) htaken.ge
  obtain ⟨hret, hch⟩ := Bool.and_eq_true_iff.1 hacc
  rw [(h.shown th hth).charged] at hch
  have hobeys := hc th hth
  unfold hasReturned at hret
  cases hprog : th.prog with
  | ret u =>
    rw [hprog] at hobeys
    change (stageOf th).Settled at hobeys
    cases hst : stageOf th <;> rw [hst] at hch hobeys
    case taken a => exact hch
    all_goals first | cases hch | cases hobeys
  | _ =>
    rw [hprog] at hret
    cases hret

theorem limit_kept {months : Prop} (hw : w.counts = .empty)
    (htimely : Effect.Along (fun c m => months → Timely c m) (Effect.Config.init w) ms)
    (h : Effect.play (Effect.Config.init w) ms = some c) {p : CountKey → Bool} {m : Nat}
    (hp : Limits w months p m) : accepted c p ≤ m + lowerings c p := by
  obtain ⟨hc, s, hs, hb⟩ := simulates_play months hw htimely h
  have htaken := Quota.taken_le (hb.within p m hp) (by omega)
  have hacc := accepted_le hc hs hb.inv p
  rw [lowerings_eq hs]
  omega

/-- Where the months are not looked at, the queries may show anything. -/
theorem along_unlooked (ms : List (Effect.Move quotaSystem)) (c : Effect.Config quotaSystem) :
    Effect.Along (fun c m => False → Timely c m) c ms :=
  Effect.along_iff_split.2 fun _ _ _ _ _ _ hf => hf.elim

/-- A tenant with one write a day and one a month. -/
def quotaWorld : World where
  tenants t := if t = "t" then some { maxWritesPerDay := some 1, maxWritesPerMonth := some 1 } else none

/-- The query shows the item of the day 0 as it was before. -/
def olderItem : (op : Op) → sig.Res op → sig.Res op
  | .queryMonth .., items => items.map fun e : Day × CountRecord => if e.1 = 0 then (e.1, fun _ => none) else e
  | _, res                => res

/-- Two checks in step up to the first one's query. -/
def firstMoves : List (Effect.Move quotaSystem) :=
  [.start (.check "t"), .start (.check "t")] ++ (List.replicate 4 [.act 0 {}, .act 1 {}]).flatten

/-- The first is let go on an older item; the second gives its unit back. -/
def quotaMoves : List (Effect.Move quotaSystem) :=
  firstMoves ++ [.act 0 { shows := olderItem }, .act 1 {}]

/-- The checks that let their caller go on for a day are at most the limit of the day, one more for
each document excluded. -/
theorem daily_limit_kept {t : String} {tenant : TenantRecord} {m : Nat} (d : Day)
    (hw : w.counts = .empty) (htenant : w.tenants t = some tenant)
    (hm : tenant.maxWritesPerDay = some m) (h : Effect.play (Effect.Config.init w) ms = some c) :
    accepted c (Quota.only (t, d)) ≤ m + lowerings c (Quota.only (t, d)) :=
  limit_kept hw (along_unlooked ms _) h (.day d htenant hm)

theorem daily_limit_kept_quotaWorld :
    ∃ c, Effect.play (Effect.Config.init quotaWorld) quotaMoves = some c ∧
      c.threads.countP (charged (Quota.only ("t", 0))) = 2 ∧
      accepted c (Quota.only ("t", 0)) ≤ 1 + lowerings c (Quota.only ("t", 0)) := by
  obtain ⟨c, hc, hcharged⟩ := Option.map_eq_some_iff.1
    (show (Effect.play (Effect.Config.init quotaWorld) quotaMoves).map
      (fun c => c.threads.countP (charged (Quota.only ("t", 0)))) = some 2 by decide +kernel)
  exact ⟨c, hc, hcharged, daily_limit_kept 0 rfl rfl rfl hc⟩

theorem monthly_limit_kept {t : String} {tenant : TenantRecord} {m : Nat} (month : Nat × Nat)
    (hw : w.counts = .empty) (htenant : w.tenants t = some tenant)
    (hm : tenant.maxWritesPerMonth = some m)
    (htimely : Effect.Along Timely (Effect.Config.init w) ms)
    (h : Effect.play (Effect.Config.init w) ms = some c) :
    accepted c (inMonth t month) ≤ m + lowerings c (inMonth t month) :=
  limit_kept hw (htimely.mono fun _ _ ht (_ : True) => ht) h (.month month trivial htenant hm)

theorem timely_act (c : Effect.Config quotaSystem) (i : Nat) : Timely c (.act i {}) :=
  fun _ _ _ _ => List.forall₂_same.2 fun _ _ => ⟨rfl, fun _ => rfl⟩

/-- Every counter that the calls have added to is the one of day 0. -/
def chargesDayZero (th : Effect.Thread quotaSystem) : Bool :=
  th.trace.all fun ev => !isCharge (fun a => decide (a.2 ≠ 0)) ev

theorem eq_zero_of_charged {th : Effect.Thread quotaSystem} {a : CountKey} (h : chargesDayZero th = true)
    (ha : charged (Quota.only a) th = true) : a.2 = 0 := by
  obtain ⟨ev, hev, hcharge⟩ := List.any_eq_true.1 ha
  by_contra hne
  have hno := List.all_eq_true.1 h ev hev
  have hyes : isCharge (fun b => decide (b.2 ≠ 0)) ev = true := by
    obtain ⟨op, ans⟩ := ev
    cases op with
    | updateCount t d u =>
      cases ans with
      | ok r =>
        obtain ⟨honly, hcond⟩ := Bool.and_eq_true_iff.1
          (show (Quota.only a (t, d) && u.cond.isNone) = true from hcharge)
        obtain rfl := Quota.only_iff.1 honly
        exact Bool.and_eq_true_iff.2 ⟨decide_eq_true hne, hcond⟩
      | error e => cases hcharge
    | _ => cases hcharge
  rw [hyes] at hno
  cases hno

theorem timely_quotaMoves : Effect.Along Timely (Effect.Config.init quotaWorld) quotaMoves := by
  have hfirst : Effect.Along Timely (Effect.Config.init quotaWorld) firstMoves := by
    refine Effect.along_iff_split.2 fun ns m ns' c₁ hsplit _ => ?_
    have hm : m ∈ firstMoves := hsplit ▸ List.mem_append_right _ List.mem_cons_self
    rcases List.mem_append.1 hm with hm | hm
    · simp only [List.mem_cons, List.not_mem_nil, or_false] at hm
      rcases hm with rfl | rfl <;> trivial
    · obtain ⟨l, hl, hm⟩ := List.mem_flatten.1 hm
      obtain rfl := (List.mem_replicate.1 hl).2
      simp only [List.mem_cons, List.not_mem_nil, or_false] at hm
      rcases hm with rfl | rfl <;> exact timely_act c₁ _
  refine hfirst.append fun c₁ hplay => ⟨?_, fun c₂ _ => ⟨timely_act c₂ 1, fun _ _ => trivial⟩⟩
  have hzero : c₁.threads.all chargesDayZero = true := by
    have hall : (Effect.play (Effect.Config.init quotaWorld) firstMoves).map
        (fun c => c.threads.all chargesDayZero) = some true := by decide +kernel
    rw [hplay] at hall
    exact Option.some.inj hall
  intro th a hth hcharged
  have ha := eq_zero_of_charged (List.all_eq_true.1 hzero th (List.mem_of_getElem? hth)) hcharged
  refine List.forall₂_map_right_iff.2 (List.forall₂_same.2 fun e _ => ?_)
  by_cases he : e.1 = 0
  · rw [if_pos he]
    exact ⟨rfl, fun hne => absurd (he.trans ha.symm) hne⟩
  · rw [if_neg he]
    exact ⟨rfl, fun _ => rfl⟩

theorem monthly_limit_kept_quotaWorld :
    ∃ c, Effect.play (Effect.Config.init quotaWorld) quotaMoves = some c ∧
      c.threads.countP (charged (inMonth "t" (1970, 1))) = 2 ∧
      accepted c (inMonth "t" (1970, 1)) ≤ 1 + lowerings c (inMonth "t" (1970, 1)) := by
  obtain ⟨c, hc, hcharged⟩ := Option.map_eq_some_iff.1
    (show (Effect.play (Effect.Config.init quotaWorld) quotaMoves).map
      (fun c => c.threads.countP (charged (inMonth "t" (1970, 1)))) = some 2 by decide +kernel)
  exact ⟨c, hc, hcharged, monthly_limit_kept (1970, 1) rfl rfl rfl timely_quotaMoves hc⟩

/-- A stage holds a unit of the counter or has given it back, when it was charged. -/
theorem charged_balance (st : CheckStage) (p : CountKey → Bool) :
    (if st.chargedOn p then 1 else 0) + (if st.lowersOn p then 1 else 0) =
      (if st.quota.on p then 1 else 0) + if st.loweredOn p then 1 else 0 := by
  cases st with
  | returned a =>
    change (if p a then 1 else 0) + 0 = 0 + if p a then 1 else 0
    omega
  | _ => rfl

theorem countP_balance {α : Type} {f g f' g' : α → Bool} {xs : List α}
    (h : ∀ x ∈ xs, (if f x then 1 else 0) + (if g x then 1 else 0) =
      (if f' x then 1 else 0) + if g' x then 1 else 0) :
    xs.countP f + xs.countP g = xs.countP f' + xs.countP g' := by
  induction xs with
  | nil => rfl
  | cons x xs ih =>
    have hx := h x List.mem_cons_self
    have hxs := ih fun y hy => h y (List.mem_cons_of_mem _ hy)
    simp only [List.countP_cons]
    omega

/-- At any moment, a counter is what the calls have added less what they have taken, and it is never
negative. -/
theorem counts_exact (hw : w.counts = .empty) (h : Effect.play (Effect.Config.init w) ms = some c)
    (a : CountKey) :
    0 ≤ c.world.quota a ∧
      c.world.quota a + c.threads.countP (lowered (Quota.only a)) =
        c.threads.countP (charged (Quota.only a)) := by
  obtain ⟨_, s, hs, hb⟩ := simulates_play False hw (along_unlooked ms _) h
  refine ⟨hs.nonneg a, ?_⟩
  have hledger := hb.inv.ledger a
  have hlive := hs.countP_order (f := fun st => st.on (Quota.only a)) hb.inv rfl
  change s.live (Quota.only a) s.order = _ at hlive
  have hbal : c.threads.countP (fun th => (stageOf th).chargedOn (Quota.only a)) +
      c.threads.countP (fun th => (stageOf th).lowersOn (Quota.only a)) =
      c.threads.countP (fun th => (stageOf th).quota.on (Quota.only a)) +
      c.threads.countP fun th => (stageOf th).loweredOn (Quota.only a) :=
    countP_balance fun th _ => charged_balance (stageOf th) (Quota.only a)
  have hcharged : c.threads.countP (charged (Quota.only a)) =
      c.threads.countP fun th => (stageOf th).chargedOn (Quota.only a) :=
    List.countP_congr fun th hth => by rw [(hs.shown th hth).charged]
  have hlowered : c.threads.countP (lowered (Quota.only a)) =
      c.threads.countP fun th => (stageOf th).loweredOn (Quota.only a) :=
    List.countP_congr fun th hth => by rw [(hs.shown th hth).lowered]
  have hlowers := hs.lowers (Quota.only a)
  rw [hs.count a, hcharged, hlowered]
  omega

theorem counts_exact_quotaWorld :
    ∃ c, Effect.play (Effect.Config.init quotaWorld) quotaMoves = some c ∧
      c.threads.countP (charged (Quota.only ("t", 0))) = 2 ∧ 0 ≤ c.world.quota ("t", 0) ∧
      c.world.quota ("t", 0) + c.threads.countP (lowered (Quota.only ("t", 0))) = 2 := by
  obtain ⟨c, hc, hcharged⟩ := Option.map_eq_some_iff.1
    (show (Effect.play (Effect.Config.init quotaWorld) quotaMoves).map
      (fun c => c.threads.countP (charged (Quota.only ("t", 0)))) = some 2 by decide +kernel)
  obtain ⟨hnonneg, hexact⟩ := counts_exact rfl hc ("t", 0)
  rw [hcharged] at hexact
  exact ⟨c, hc, hcharged, hnonneg, hexact⟩

end

end DocumentAi
