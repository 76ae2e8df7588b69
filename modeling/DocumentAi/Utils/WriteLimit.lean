import Mathlib.Algebra.Ring.Int.Defs
import DocumentAi.Utils.Ddb

/-!
# Write quota: `increment_and_check` and `decrement`

| here | there |
| --- | --- |
| `monthPrefix`       | `get_month_prefix` (`utils/dates.py:83-85`): year and month of a day |
| `incrementAndCheck` | `increment_and_check` (`utils/write_limit.py:39-92`) |
| `rollback`          | `_rollback` (`utils/write_limit.py:95-111`) |
| `decrement`         | `decrement` (`utils/write_limit.py:114-120`) |
| `monthlyTotal`      | `_get_monthly_total` (`utils/write_limit.py:123-131`) |
-/

namespace DocumentAi

/-- Year and month of a day since 1970-01-01, in the proleptic Gregorian calendar. Days are
counted from 0000-03-01 in eras of 400 years, so that a leap day ends a year. -/
def monthPrefix (d : Day) : Nat × Nat :=
  let z := d + 719468
  let era := z / 146097
  let doe := z % 146097
  let yoe := (doe - doe / 1460 + doe / 36524 - doe / 146096) / 365
  let doy := doe - (365 * yoe + yoe / 4 - yoe / 100)
  let mp := (5 * doy + 2) / 153
  let month := if mp < 10 then mp + 3 else mp - 9
  (yoe + era * 400 + (if month ≤ 2 then 1 else 0), month)

example : monthPrefix 0 = (1970, 1) ∧ monthPrefix 19782 = (2024, 2) ∧
    monthPrefix 19783 = (2024, 3) := by decide

abbrev CountRecord.count? (c : CountRecord) : Option Int := c .count
def CountRecord.count (c : CountRecord) : Int := (CountRecord.count? c).getD 0

/-- `ADD #count :one SET #ttl = if_not_exists(#ttl, :ttl)`. -/
def chargeRequest (now : Timestamp) : Dynamo.Update TenantRequestCountRecord.schema :=
  { actions := [.add .count fun (n : Option Int) => n.getD 0 + 1,
      .setIfNotExists .ttl (getTtlEpochInDays now (365 * 5))] }

/-- `ADD #count :neg_one`, while `#count > :zero`. -/
def rollbackRequest : Dynamo.Update TenantRequestCountRecord.schema :=
  { actions := [.add .count fun (n : Option Int) => n.getD 0 - 1]
    cond := some (.holds .count fun (n : Int) => decide (0 < n)) }

def rollback (tenantId : String) (today : Day) : Prog Unit := do
  try
    let _ ← call (.updateCount tenantId today rollbackRequest)
  catch e =>
    if e = .clientError .conditionalCheckFailedException then pure () else throw e

def decrement (tenantId : String) (date : Day) : Prog Unit := rollback tenantId date

/-- The month's total; today's count is the one the increment returned. -/
def monthlyTotal (today : Day) (todayCount : Int) (items : List (Day × CountRecord)) : Int :=
  (items.map fun it => if it.1 = today then todayCount else CountRecord.count it.2).sum

def incrementAndCheck (tenantId : String) : Prog Unit := do
  match ← call (.getTenant tenantId) with
  | none => pure ()
  | some tenant =>
    if tenant.maxWritesPerDay.isNone && tenant.maxWritesPerMonth.isNone then pure ()
    else do
      let today := stripTime (← call .now)
      let now ← call .now
      let result ← call (.updateCount tenantId today (chargeRequest now))
      let newCount := CountRecord.count result
      if tenant.maxWritesPerDay.any fun m => decide ((m : Int) < newCount) then do
        rollback tenantId today
        throw (.httpException 429 ("Daily write limit of "
          ++ toString (tenant.maxWritesPerDay.getD 0) ++ " requests exceeded"))
      else
        match tenant.maxWritesPerMonth with
        | none   => pure ()
        | some m => do
          let items ← call (.queryMonth tenantId fun d => monthPrefix d == monthPrefix today)
          if (m : Int) < monthlyTotal today newCount items then do
            rollback tenantId today
            throw (.httpException 429 ("Monthly write limit of " ++ toString m
              ++ " requests exceeded"))
          else pure ()

end DocumentAi
