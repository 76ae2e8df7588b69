import DocumentAi.Lib.Protocol
import DocumentAi.Admin.Exec

/-!
# Does a tenant's daily write limit stay below its monthly one?

`create_tenant` validates the limits of its body. `update_tenant` validates the limits the tenant
would have after the request, taking those the body leaves alone from a record read before, and then
writes only the fields of the body.

| here | meaning |
| --- | --- |
| `LimitsOrdered`  | no tenant has a daily limit above its monthly limit |
| `limits_after`   | the limits of the item that `update_item` leaves |
| `Patch`          | how far a PATCH request has come, with the record its check has read |
| `stale`          | the move writes one limit beside another one than the check has read |
| `limits_ordered` | when no move of a run is stale, the limits stay ordered |
-/

namespace DocumentAi.Admin

open Effect (Event play move_cases Along)
open Effect.Prog (All all_bind all_forEach all_perform spec_tryCatch spec_ite)
open Effect.Protocol (obeys_bind obeys_tryCatch obeys_perform obeys_ret obeys_raise obeys_of_stuck protocol_inv)
open Dynamo (SetsOnly setsOnly_append setsOnly_cons setsOnly_of_targets lastSet lastSet_append
  lastSet_eq_none Targets)

def TenantItem.limitsOk (it : TenantItem) : Bool :=
  validateWriteLimits it.maxWritesPerDay it.maxWritesPerMonth

def LimitsOrdered (w : World) : Prop :=
  ∀ t (it : TenantItem), w.tenants.item t = some it → it.limitsOk = true

def limitsExceeded : Exc := .httpException 422 "Daily write limit cannot exceed monthly write limit"

/-- The limits that `update_tenant` validates. -/
def effectiveOk (body : UpdateTenantRequest) (record : TenantItem) : Bool :=
  validateWriteLimits (effectiveLimit body.maxWritesPerDay record.maxWritesPerDay)
    (effectiveLimit body.maxWritesPerMonth record.maxWritesPerMonth)

def patchUpdate (body : UpdateTenantRequest) (now : Timestamp) :
    Dynamo.Update TenantRecord.schema :=
  { actions := setFields body ++ [.set .updatedAt now] }

/-! ## The limits after an update -/

/-- The request leaves both limits of the item alone. -/
def KeepsLimits (u : Dynamo.Update TenantRecord.schema) (clear : List TenantRecord) : Prop :=
  ∀ a ∈ [TenantRecord.maxWritesPerDay, .maxWritesPerMonth],
    Targets (T := TenantRecord.schema) (· ≠ a) u.actions ∧ a ∉ clear

section
variable {a b : TenantRecord}

theorem targets_setField (hb : b ≠ a) (v : Option (Option (TenantRecord.Val b))) :
    Targets (T := TenantRecord.schema) (· ≠ a) (setField b v) := by
  intro x hx
  unfold setField at hx
  split at hx
  · rw [List.mem_singleton.1 hx]
    exact hb
  · cases hx

/-- A list that sets `a` in one place only, by a field of the body. -/
theorem sets_field {pre post xs : List (Dynamo.Action TenantRecord.schema)}
    {v : Option (Option (TenantRecord.Val a))} (hxs : xs = pre ++ (setField a v ++ post))
    (hpre : Targets (T := TenantRecord.schema) (· ≠ a) pre)
    (hpost : Targets (T := TenantRecord.schema) (· ≠ a) post) :
    SetsOnly (T := TenantRecord.schema) a xs ∧
      lastSet (T := TenantRecord.schema) a xs = v.join := by
  have hfield : SetsOnly (T := TenantRecord.schema) a (setField a v) ∧
      lastSet (T := TenantRecord.schema) a (setField a v) = v.join := by
    rcases v with _ | _ | v
    · exact ⟨fun _ h => (by cases h), rfl⟩
    · exact ⟨fun _ h => (by cases h), rfl⟩
    · refine ⟨fun x hx _ => ?_, Dynamo.lastSet_cons_set (T := TenantRecord.schema) (by simp)⟩
      rw [List.mem_singleton.1 hx, Dynamo.setValue_set_self (T := TenantRecord.schema)]
      rfl
  rw [hxs]
  constructor
  · exact (setsOnly_append (T := TenantRecord.schema)).2 ⟨setsOnly_of_targets hpre,
      (setsOnly_append (T := TenantRecord.schema)).2 ⟨hfield.1, setsOnly_of_targets hpost⟩⟩
  · rw [lastSet_append (T := TenantRecord.schema), lastSet_append (T := TenantRecord.schema),
      lastSet_eq_none (T := TenantRecord.schema) hpost,
      lastSet_eq_none (T := TenantRecord.schema) hpre, hfield.2, Option.none_or, Option.or_none]

theorem targets_rest (hlist : TenantRecord.disabledBlueprintList ≠ a)
    (hnow : TenantRecord.updatedAt ≠ a) (body : UpdateTenantRequest) (now : Timestamp) :
    Targets (T := TenantRecord.schema) (· ≠ a) ((match disabledBlueprints body with
      | some (b :: bs) => [.set .disabledBlueprintList (b :: bs)]
      | _              => []) ++ [.set .updatedAt now]) := by
  rw [Dynamo.targets_append]
  constructor
  · intro x hx
    split at hx
    · rw [List.mem_singleton.1 hx]
      exact hlist
    · cases hx
  · intro x hx
    rw [List.mem_singleton.1 hx]
    exact hnow

end

/-- Each limit is set by its own field of the body. -/
theorem patchUpdate_sets (body : UpdateTenantRequest) (now : Timestamp) :
    (SetsOnly (T := TenantRecord.schema) .maxWritesPerDay (patchUpdate body now).actions ∧
      lastSet (T := TenantRecord.schema) .maxWritesPerDay (patchUpdate body now).actions =
        body.maxWritesPerDay.join) ∧
    SetsOnly (T := TenantRecord.schema) .maxWritesPerMonth (patchUpdate body now).actions ∧
      lastSet (T := TenantRecord.schema) .maxWritesPerMonth (patchUpdate body now).actions =
        body.maxWritesPerMonth.join := by
  have hassoc : ∀ xs day month list now : List (Dynamo.Action TenantRecord.schema),
      xs ++ day ++ month ++ list ++ now = xs ++ (day ++ (month ++ (list ++ now))) ∧
        xs ++ day ++ month ++ list ++ now = (xs ++ day) ++ (month ++ (list ++ now)) := by
    simp
  have hpre : ∀ {a : TenantRecord}, .displayName ≠ a → .primaryContact ≠ a → .isActive ≠ a →
      .extractionConfidenceFloor ≠ a → Targets (T := TenantRecord.schema) (· ≠ a)
        (setField .displayName body.displayName ++ setField .primaryContact body.primaryContact ++
          setField .isActive body.isActive ++
          setField .extractionConfidenceFloor body.extractionConfidenceFloor) := by
    intro a hn hp hi hf
    simp only [Dynamo.targets_append]
    exact ⟨⟨⟨targets_setField hn _, targets_setField hp _⟩, targets_setField hi _⟩,
      targets_setField hf _⟩
  have hpost : Targets (T := TenantRecord.schema) (· ≠ TenantRecord.maxWritesPerDay)
      (setField .maxWritesPerMonth body.maxWritesPerMonth ++ (_ ++ [.set .updatedAt now])) :=
    Dynamo.targets_append.2 ⟨targets_setField (by decide) _,
      targets_rest (by decide) (by decide) body now⟩
  have hpre' : Targets (T := TenantRecord.schema) (· ≠ TenantRecord.maxWritesPerMonth)
      (_ ++ setField .maxWritesPerDay body.maxWritesPerDay) :=
    Dynamo.targets_append.2 ⟨hpre (by decide) (by decide) (by decide) (by decide),
      targets_setField (by decide) _⟩
  exact ⟨sets_field (hassoc ..).1 (hpre (by decide) (by decide) (by decide) (by decide)) hpost,
    sets_field (hassoc ..).2 hpre' (targets_rest (by decide) (by decide) body now)⟩

theorem mem_clearField {α : Type} {a b : TenantRecord} {v : Option (Option α)} :
    a ∈ clearField b v ↔ a = b ∧ v = some none := by
  rcases v with _ | _ | v <;> simp [clearField]

theorem mem_clearFields (body : UpdateTenantRequest) :
    (TenantRecord.maxWritesPerDay ∈ clearFields body ↔ body.maxWritesPerDay = some none) ∧
      (TenantRecord.maxWritesPerMonth ∈ clearFields body ↔ body.maxWritesPerMonth = some none) := by
  unfold clearFields
  simp only [List.mem_append, mem_clearField]
  split <;> simp

/-- A value, `null`, or the stored limit. -/
theorem effectiveLimit_eq (field : Option (Option Nat)) (stored : Option Nat) :
    (if field = some none then none else field.join.or stored) = effectiveLimit field stored := by
  rcases field with _ | _ | v <;> rfl

/-- **The limits of the item that a PATCH leaves.** -/
theorem limits_after {body : UpdateTenantRequest} {now : Timestamp} {old it : TenantItem}
    (h : (patchUpdate body now).apply old = .ok it) :
    TenantItem.maxWritesPerDay (it.without (clearFields body)) =
        effectiveLimit body.maxWritesPerDay old.maxWritesPerDay ∧
      TenantItem.maxWritesPerMonth (it.without (clearFields body)) =
        effectiveLimit body.maxWritesPerMonth old.maxWritesPerMonth := by
  obtain ⟨⟨hday, hlastDay⟩, hmonth, hlastMonth⟩ := patchUpdate_sets body now
  have hday := Dynamo.Update.apply_setsOnly h hday
  have hmonth := Dynamo.Update.apply_setsOnly h hmonth
  rw [hlastDay] at hday
  rw [hlastMonth] at hmonth
  obtain ⟨hclearDay, hclearMonth⟩ := mem_clearFields body
  rw [← effectiveLimit_eq, ← effectiveLimit_eq]
  constructor
  · change (if TenantRecord.maxWritesPerDay ∈ clearFields body then none else it .maxWritesPerDay) = _
    simp only [hclearDay, hday]
    rfl
  · change (if TenantRecord.maxWritesPerMonth ∈ clearFields body then none
      else it .maxWritesPerMonth) = _
    simp only [hclearMonth, hmonth]
    rfl

theorem limits_kept {u : Dynamo.Update TenantRecord.schema} {clear : List TenantRecord}
    {old it : TenantItem} (hu : KeepsLimits u clear) (h : u.apply old = .ok it) :
    TenantItem.limitsOk (it.without clear) = old.limitsOk := by
  have hkept : ∀ a ∈ [TenantRecord.maxWritesPerDay, .maxWritesPerMonth],
      it.without clear a = old a := fun a ha =>
    (if_neg (hu a ha).2).trans (Dynamo.Update.apply_frame h (hu a ha).1)
  unfold TenantItem.limitsOk TenantItem.maxWritesPerDay TenantItem.maxWritesPerMonth
  rw [hkept .maxWritesPerDay (by simp), hkept .maxWritesPerMonth (by simp)]

/-! ## How far a PATCH has come -/

inductive Patch where
  /-- Another request than those on tenants. -/
  | outside
  /-- A creation or a deactivation. -/
  | other
  | patching (tenantId : String) (body : UpdateTenantRequest)
  /-- `update_tenant` has read the record and called nothing since. -/
  | checked (tenantId : String) (body : UpdateTenantRequest) (record : TenantItem)
  | writing (tenantId : String) (body : UpdateTenantRequest) (record : TenantItem)

namespace Patch

def next (s : Patch) (op : Op) (ans : sig.Ans op) : Patch :=
  match s with
  | patching t body =>
    match op, ans with
    | .getTenant _, .ok r => (r : Option TenantItem).elim s (checked t body)
    | _, _                => s
  | checked t body r => writing t body r
  | s                => s

def allows : Patch → Op → Prop
  | outside, _ => True
  | other, op =>
    (∀ t it, op = .putTenant t it → it.limitsOk = true) ∧
      ∀ t u clear, op = .updateTenant t u clear → KeepsLimits u clear
  | patching .., op => op.isTenantWrite = false
  | checked _ body r, op => effectiveOk body r = true ∧ op.isTenantWrite = false
  | writing t body r, op =>
    effectiveOk body r = true ∧
      (op.isTenantWrite = true → ∃ now, op = .updateTenant t (patchUpdate body now) (clearFields body))

/-- A PATCH that its check refuses has found the limits out of order. -/
def Ends : Patch → Exc → Prop
  | checked _ body r, e => e = limitsExceeded → effectiveOk body r = false
  | _, _                => True

end Patch

abbrev patchProtocol : Effect.Protocol sig where
  State := Patch
  allow s op := s.allows op
  possible _ _ _ := True
  next s op ans := s.next op ans

def patchInit : Entry → Patch
  | .updateTenant _ _ t body          => .patching t body
  | .createTenant .. | .deleteTenant .. => .other
  | _                                 => .outside

/-! ## Every route obeys -/

namespace Patch

section
variable {env : KeyEnv} {pid : Nat} {creds : Option String} {t : String} {α : Type}
  {body : UpdateTenantRequest} {r : TenantItem}

/-- Calls that do not touch the tenants. -/
def Apart : Op → Prop
  | .getTenant _ | .putTenant .. | .updateTenant .. => False
  | _ => True

theorem apart_call {op : Op} (h : Apart op) : All Apart (call op) := all_perform h

theorem apart_ofExcept (x : Except Exc α) : All Apart (Effect.Prog.ofExcept (S := sig) x) := by
  cases x <;> trivial

theorem apart_verifyJwt (creds : Option String) : All Apart (verifyJwt creds) := by
  unfold verifyJwt
  split
  · trivial
  · refine spec_tryCatch (apart_call trivial) fun e => ?_
    split <;> trivial

theorem apart_verifyJwtWithRole (creds : Option String) : All Apart (verifyJwtWithRole creds) :=
  all_bind (apart_verifyJwt creds) fun _ => all_bind (apart_ofExcept _) fun _ => trivial

theorem apart_logEvent (claims : Claims) (action targetType targetId : String)
    (t : Option String) : All Apart (logEvent claims action targetType targetId t) := by
  refine spec_tryCatch (all_bind (apart_call trivial) fun _ => ?_) fun _ => trivial
  exact spec_ite (apart_call trivial) trivial

theorem apart_deactivateKeys (t : String) : All Apart (deactivateKeysForTenant pid t) := by
  refine all_bind (apart_call trivial) fun items => all_forEach (fun h => ?_) _
  refine spec_tryCatch (all_bind (all_bind (apart_call trivial) fun r => ?_) fun _ => trivial)
    fun _ => trivial
  cases r with
  | none => trivial
  | some record =>
    exact all_bind (apart_call trivial) fun _ => all_bind (apart_call trivial) fun _ => trivial

theorem noWrite_of_apart {op : Op} (h : Apart op) : op.isTenantWrite = false := by
  cases op <;> first | rfl | exact h.elim

/-- Only a read that finds the tenant ends the wait for the record. -/
theorem next_patching (t : String) (body : UpdateTenantRequest) (op : Op) (ans : sig.Ans op) :
    Patch.next (.patching t body) op ans = .patching t body ∨
      ∃ t' record, (⟨op, ans⟩ : Effect.Event sig) = ⟨.getTenant t', .ok (some record)⟩ ∧
        Patch.next (.patching t body) op ans = .checked t body record := by
  cases op with
  | getTenant t' =>
    cases ans with
    | error e => exact .inl rfl
    | ok found =>
      cases found with
      | none => exact .inl rfl
      | some record => exact .inr ⟨t', record, rfl, rfl⟩
  | _ => exact .inl (by cases ans <;> rfl)

/-! ### Creation and deactivation -/

theorem other_of_apart {op : Op} (h : Apart op) : Patch.other.allows op := by
  constructor
  · rintro t it rfl
    exact h.elim
  · rintro t u clear rfl
    exact h.elim

theorem other_getTenant : Patch.other.allows (.getTenant t) :=
  ⟨fun _ _ h => (by cases h), fun _ _ _ h => (by cases h)⟩

theorem other_verifyJwtWithSuperAdmin (creds : Option String) :
    All Patch.other.allows (verifyJwtWithSuperAdmin creds) :=
  all_bind ((apart_verifyJwt creds).mono fun _ => other_of_apart) fun _ =>
    all_bind ((apart_ofExcept _).mono fun _ => other_of_apart) fun _ => trivial

theorem other_createTenant (creds : Option String) (body : CreateTenantRequest) :
    All Patch.other.allows (createTenant creds body) := by
  refine all_bind (other_verifyJwtWithSuperAdmin creds) fun claims => all_bind ?_ fun _ =>
    (apart_logEvent ..).mono fun _ => other_of_apart
  refine spec_tryCatch (all_bind (all_perform other_getTenant) fun r => ?_) fun e => ?_
  · cases r with
    | some _ => trivial
    | none =>
      refine all_bind (all_perform (other_of_apart trivial)) fun now => ?_
      refine all_perform (S := sig) ?_
      refine ⟨fun t it h => ?_, fun _ _ _ h => (by cases h)⟩
      cases h
      exact body.limits
  · cases e <;> trivial

theorem other_deleteTenant (creds : Option String) (t : String) :
    All Patch.other.allows (deleteTenant pid creds t) := by
  refine all_bind (other_verifyJwtWithSuperAdmin creds) fun claims =>
    all_bind ((apart_deactivateKeys t).mono fun _ => other_of_apart) fun _ => all_bind ?_
    fun found => ?_
  · refine all_bind (all_perform other_getTenant) fun r => ?_
    cases r with
    | none => trivial
    | some record =>
      refine all_bind (all_perform (other_of_apart trivial)) fun now =>
        all_bind (all_perform ?_) fun _ => trivial
      refine ⟨fun _ _ h => (by cases h), fun t u clear h => ?_⟩
      cases h
      simp [KeepsLimits, Dynamo.Action.target]
  · cases found with
    | false => trivial
    | true => exact (apart_logEvent ..).mono fun _ => other_of_apart

theorem obeys_other {p : Prog Unit} (hp : All Patch.other.allows p) :
    patchProtocol.Obeys (fun _ _ => True) Patch.Ends .other p :=
  (obeys_of_stuck (fun _ hop => ⟨hop, fun _ => rfl⟩) hp).mono (fun _ _ _ => trivial)
    fun s _ (h : s = .other) => by rw [h]; trivial

/-! ### PATCH -/

theorem writing_of_apart (hok : effectiveOk body r = true) {op : Op}
    (h : op.isTenantWrite = false) : Patch.allows (.writing t body r) op :=
  ⟨hok, fun hw => by rw [h] at hw; cases hw⟩

theorem obeys_writing {p : Prog α} (hp : All (Patch.writing t body r).allows p) :
    patchProtocol.Obeys (fun s _ => s = .writing t body r) (fun s _ => s = .writing t body r)
      (.writing t body r) p :=
  obeys_of_stuck (fun _ hop => ⟨hop, fun _ => rfl⟩) hp

/-- The first call after the check starts the writing. -/
theorem obeys_updateTenantRecord (hok : effectiveOk body r = true) :
    patchProtocol.Obeys (fun s _ => s = .writing t body r)
      (fun s e => s = .writing t body r ∨ s = .checked t body r ∧ ∃ msg, e = .valueError msg)
      (.checked t body r) (updateTenantRecord t body) := by
  have hread := writing_of_apart (t := t) hok (show (Op.getTenant t).isTenantWrite = false from rfl)
  unfold updateTenantRecord
  split
  · exact obeys_raise (.inr ⟨rfl, _, rfl⟩)
  refine obeys_bind (Q := fun (s : Patch) _ => s = .writing t body r)
    (obeys_perform ⟨hok, rfl⟩ (fun _ _ => rfl) fun _ _ => .inl rfl) fun s found hs => ?_
  rw [hs]
  refine (obeys_writing ?_).mono (fun _ _ h => h) fun _ _ h => .inl h
  cases found with
  | none => trivial
  | some record =>
    refine all_bind (all_perform (writing_of_apart hok rfl)) fun now =>
      all_bind (all_perform ⟨hok, fun _ => ⟨now, rfl⟩⟩) fun _ => all_bind (all_perform hread)
      fun again => ?_
    cases again <;> trivial

theorem obeys_updateTenant (pid : Nat) (creds : Option String) (t : String)
    (body : UpdateTenantRequest) :
    patchProtocol.Obeys (fun _ _ => True) Patch.Ends (.patching t body)
      (updateTenant pid creds t body) := by
  have hpatching : ∀ op, Apart op → Patch.allows (.patching t body) op ∧
      ∀ ans, Patch.next (.patching t body) op ans = .patching t body := by
    intro op hop
    refine ⟨noWrite_of_apart hop, fun ans => ?_⟩
    cases op <;> first | rfl | exact hop.elim
  refine obeys_bind (Q := fun (s : Patch) _ => s = .patching t body) ?_ fun s claims hs => ?_
  · refine (obeys_of_stuck hpatching (apart_verifyJwtWithRole creds)).mono (fun _ _ h => h)
      fun s _ h => ?_
    rw [show s = .patching t body from h]
    trivial
  rw [hs]
  cases enforceScope claims t with
  | error e => exact obeys_raise trivial
  | ok _ =>
  refine obeys_bind (Q := fun (s : Patch) (found : Option TenantItem) =>
    s = found.elim (.patching t body) (.checked t body))
    (obeys_perform rfl (fun _ _ => rfl) fun _ _ => trivial) fun s found hs => ?_
  rw [hs]
  cases found with
  | none => exact obeys_raise trivial
  | some record =>
    change patchProtocol.Obeys _ _ _ (ite _ _ _)
    split
    · exact obeys_raise fun h => (by cases h)
    change patchProtocol.Obeys _ _ _ (ite _ _ _)
    split
    next hrefused => exact obeys_raise fun _ => by simpa [effectiveOk] using hrefused
    next hok =>
    have hok : effectiveOk body record = true := by simpa [effectiveOk] using hok
    refine obeys_bind (Q := fun (s : Patch) _ => s = .writing t body record)
      (obeys_tryCatch (obeys_updateTenantRecord hok) fun s e he => ?_) fun s _ hs => ?_
    · rcases he with rfl | ⟨rfl, msg, rfl⟩
      · cases e <;> exact obeys_raise trivial
      · exact obeys_raise fun h => (by cases h)
    · rw [hs]
      have happ : ∀ {op}, Apart op → (Patch.writing t body record).allows op := fun h =>
        writing_of_apart hok (noWrite_of_apart h)
      have hlog : All (Patch.writing t body record).allows
          (logEvent claims "tenant.update" "tenant" t (some t)) :=
        (apart_logEvent ..).mono fun _ => happ
      refine (obeys_writing (spec_ite (all_bind ((apart_deactivateKeys t).mono fun _ => happ)
        fun _ => hlog) hlog)).mono (fun _ _ _ => trivial) fun s _ h => ?_
      rw [show s = .writing t body record from h]
      trivial

theorem obeys_body (e : Entry) :
    patchProtocol.Obeys (fun _ _ => True) Patch.Ends (patchInit e) (e.body env) := by
  have houtside : ∀ p : Prog Unit, patchProtocol.Obeys (fun _ _ => True) Patch.Ends .outside p :=
    fun p => (obeys_of_stuck (fun _ _ => ⟨trivial, fun _ => rfl⟩) (Effect.Prog.all_true p)).mono
      (fun _ _ _ => trivial) fun s _ h => by rw [show s = .outside from h]; trivial
  cases e with
  | updateTenant pid creds t body => exact obeys_updateTenant pid creds t body
  | createTenant creds body => exact obeys_other (other_createTenant creds body)
  | deleteTenant pid creds t => exact obeys_other (other_deleteTenant creds t)
  | _ => exact houtside _

end

end Patch

/-! ## Stale checks -/

section
variable {env : KeyEnv}

abbrev patch (th : Thread env) : Patch := patchProtocol.loc patchInit th

/-- The body has a value for the one limit and leaves the other alone. -/
def setsAlone (field other : Option (Option Nat)) : Bool := field.join.isSome && other.isNone

/-- One limit is set, and the other is no longer the one the check has read. -/
def staleLimits (body : UpdateTenantRequest) (record now : TenantItem) : Bool :=
  (setsAlone body.maxWritesPerDay body.maxWritesPerMonth &&
      now.maxWritesPerMonth != record.maxWritesPerMonth) ||
    (setsAlone body.maxWritesPerMonth body.maxWritesPerDay &&
      now.maxWritesPerDay != record.maxWritesPerDay)

/-- The move writes one limit of a PATCH whose check has read another value of the other. -/
def stale (c : Config env) : Move env → Bool
  | .act i ch =>
    ch.fail.isNone && (c.threads[i]?).any fun th =>
      match c.nextOp i, patch th with
      | some (.updateTenant t _ _), .writing _ body record =>
        staleLimits body record (c.world.tenantItem t)
      | _, _ => false
  | _ => false

/-- What the check found in order stays in order beside the limits stored now. -/
theorem effective_of_not_stale {body : UpdateTenantRequest} {record old : TenantItem}
    (hold : old.limitsOk = true) (hok : effectiveOk body record = true)
    (hstale : staleLimits body record old = false) : effectiveOk body old = true := by
  obtain ⟨hday, hmonth⟩ := Bool.or_eq_false_iff.1 hstale
  unfold effectiveOk at hok ⊢
  rcases hd : body.maxWritesPerDay with _ | _ | d <;>
    rcases hm : body.maxWritesPerMonth with _ | _ | m <;>
    rw [hd, hm] at hok hday hmonth
  · exact hold
  · simp [effectiveLimit, validateWriteLimits]
  · have hsame : old.maxWritesPerDay = record.maxWritesPerDay := by
      simpa [setsAlone] using hmonth
    rw [hsame]
    exact hok
  · rfl
  · rfl
  · rfl
  · have hsame : old.maxWritesPerMonth = record.maxWritesPerMonth := by
      simpa [setsAlone] using hday
    rw [hsame]
    exact hok
  · rfl
  · exact hok

/-! ## The invariant -/

/-- The check of a PATCH has read limits that are in order. -/
def Patch.ReadOrdered : Patch → Prop
  | .checked _ _ record => record.limitsOk = true
  | _                   => True

structure LimitsInv (c : Config env) : Prop where
  ordered : LimitsOrdered c.world
  scope   : ∀ th ∈ c.threads, patch th ≠ .outside
  read    : ∀ th ∈ c.threads, (patch th).ReadOrdered

variable {c : Config env} {i : Nat} {ch : Choice} {th : Thread env} {op : Op}
  {k : sig.Ans op → Prog Unit} {ans : sig.Ans op} {w' : World}

theorem LimitsOrdered.tenantItem {w : World} (hw : LimitsOrdered w) (t : String) :
    (w.tenantItem t).limitsOk = true := by
  unfold World.tenantItem
  cases h : w.tenants.item t with
  | none => rfl
  | some it => exact hw t it h

theorem LimitsOrdered.put {w : World} (hw : LimitsOrdered w) {t : String} {it : TenantItem}
    (hit : it.limitsOk = true) : LimitsOrdered { w with tenants := w.tenants.put t it } := by
  intro t' it' h
  by_cases ht : t' = t
  · subst ht
    rw [show (w.tenants.put t' it).item t' = some it from Dynamo.Table.put_item_self ..] at h
    exact Option.some.inj h ▸ hit
  · rw [show (w.tenants.put t it).item t' = w.tenants.item t' from
      Dynamo.Table.put_item_ne _ _ ht] at h
    exact hw t' it' h

/-- A tenant write keeps the limits in order. -/
theorem LimitsInv.write (hJ : LimitsInv c) (hφ : stale c (.act i ch) = false)
    (hn : c.Next i th op k) (ha : (patch th).allows op)
    (hx : c.world.exec op ch = some (ans, w')) : LimitsOrdered w' := by
  have hscope := hJ.scope th (List.mem_of_getElem? hn.1)
  cases op with
  | putTenant t it =>
    rcases exec_putTenant hx with ⟨_, rfl⟩ | ⟨_, _, _, rfl⟩
    · refine hJ.ordered.put ?_
      cases hs : patch th with
      | outside => exact absurd hs hscope
      | other =>
        rw [hs] at ha
        exact ha.1 t it rfl
      | patching =>
        rw [hs] at ha
        cases ha
      | checked =>
        rw [hs] at ha
        cases ha.2
      | writing =>
        rw [hs] at ha
        obtain ⟨_, he⟩ := ha.2 rfl
        cases he
    · exact hJ.ordered
  | updateTenant t u clear =>
    rcases exec_updateTenant hx with ⟨it, rfl, hit, rfl⟩ | ⟨_, _, rfl⟩
    · refine hJ.ordered.put ?_
      have hold := hJ.ordered.tenantItem t
      cases hs : patch th with
      | outside => exact absurd hs hscope
      | other =>
        rw [hs] at ha
        rw [limits_kept (ha.2 t u clear rfl) hit]
        exact hold
      | patching =>
        rw [hs] at ha
        cases ha
      | checked =>
        rw [hs] at ha
        cases ha.2
      | writing t' body record =>
        rw [hs] at ha
        obtain ⟨now, he⟩ := ha.2 rfl
        cases he
        have hstale : staleLimits body record (c.world.tenantItem t) = false := by
          cases hf : ch.fail with
          | some e =>
            rw [World.exec, hf] at hx
            cases hx
          | none =>
            have hop := Effect.Config.nextOp_eq_some.2 ⟨th, k, hn⟩
            simpa only [stale, hf, hn.1, hop, hs, Option.isNone_none, Bool.true_and,
              Option.any_some] using hφ
        have hafter := limits_after hit
        unfold TenantItem.limitsOk
        rw [hafter.1, hafter.2]
        exact effective_of_not_stale hold ha.1 hstale
    · exact hJ.ordered
  | _ =>
    have hsame : w'.tenants = c.world.tenants := (exec_frame hx).tenants rfl
    intro t it h
    rw [hsame] at h
    exact hJ.ordered t it h

/-- **Step lemma.** A call that is not stale keeps the invariant. -/
theorem LimitsInv.act (hJ : LimitsInv c) (hφ : stale c (.act i ch) = false)
    (hn : c.Next i th op k) (ha : (patch th).allows op)
    (hx : c.world.exec op ch = some (ans, w')) :
    LimitsInv { world := w', threads := c.threads.set i (th.resume k ans) } := by
  have hmem := List.mem_of_getElem? hn.1
  refine ⟨hJ.write hφ hn ha hx, fun u hu => ?_, fun u hu => ?_⟩
  · rcases List.mem_or_eq_of_mem_set hu with hu | rfl
    · exact hJ.scope u hu
    · have hscope := hJ.scope th hmem
      change (patch th).next op ans ≠ .outside
      cases hs : patch th with
      | outside => exact absurd hs hscope
      | patching t body =>
        rcases Patch.next_patching t body op ans with he | ⟨_, _, _, he⟩
        · rw [he]
          exact fun h => by cases h
        · rw [he]
          exact fun h => by cases h
      | _ => exact fun h => by cases h
  · rcases List.mem_or_eq_of_mem_set hu with hu | rfl
    · exact hJ.read u hu
    · change ((patch th).next op ans).ReadOrdered
      cases hs : patch th with
      | patching t body =>
        rcases Patch.next_patching t body op ans with he | ⟨t', record, hev, he⟩
        · rw [he]
          trivial
        · cases hev
          rw [he]
          rcases exec_getTenant hx with ⟨_, hans | ⟨_, _, hans⟩⟩
          · exact hJ.ordered t' record (Except.ok.inj hans).symm
          · cases hans
      | _ => trivial

/-! ## Runs of creations and PATCH requests -/

def Entry.isTenantTraffic : Entry → Bool
  | .createTenant .. | .updateTenant .. | .deleteTenant .. => true
  | _ => false

/-- The PATCH `body` has read `record` and was refused for its limits. -/
structure RefusedForLimits (th : Thread env) (body : UpdateTenantRequest) (record : TenantItem) : Prop where
  entry  : ∃ pid creds t, th.entry = .updateTenant pid creds t body
  read   : ∃ t rest, th.trace = ⟨.getTenant t, .ok (some record)⟩ :: rest ∧
    ∀ ev ∈ rest, ∀ t', ev.op ≠ .getTenant t'
  raised : th.prog = .raise limitsExceeded

/-- The body touches other fields only, or lowers the daily limit. -/
def Harmless (body : UpdateTenantRequest) (record : TenantItem) : Prop :=
  body.maxWritesPerMonth = none ∧ (body.maxWritesPerDay = none ∨
    ∃ d d₀, body.maxWritesPerDay = some (some d) ∧ record.maxWritesPerDay = some d₀ ∧ d ≤ d₀)

theorem effective_of_harmless {body : UpdateTenantRequest} {record : TenantItem}
    (hrecord : record.limitsOk = true) (h : Harmless body record) :
    effectiveOk body record = true := by
  obtain ⟨hmonth, hday⟩ := h
  unfold effectiveOk
  rw [hmonth]
  rcases hday with hday | ⟨d, d₀, hday, hstored, hle⟩
  · rw [hday]
    exact hrecord
  · unfold TenantItem.limitsOk at hrecord
    rw [hstored] at hrecord
    rw [hday]
    cases hm : record.maxWritesPerMonth with
    | none => rfl
    | some m =>
      rw [hm] at hrecord
      have hlimits : d₀ ≤ m := of_decide_eq_true hrecord
      exact decide_eq_true (Nat.le_trans hle hlimits)

theorem RefusedForLimits.checked {body : UpdateTenantRequest} {record : TenantItem}
    (h : RefusedForLimits th body record) : ∃ t, patch th = .checked t body record := by
  obtain ⟨⟨pid, creds, t, hentry⟩, ⟨t', rest, htrace, hrest⟩, _⟩ := h
  have hwait : ∀ tr : List (Effect.Event sig), (∀ ev ∈ tr, ∀ t', ev.op ≠ .getTenant t') →
      tr.foldr (fun ev s => Patch.next s ev.op ev.ans) (.patching t body) = .patching t body := by
    intro tr
    induction tr with
    | nil => exact fun _ => rfl
    | cons ev tr ih =>
      intro hev
      obtain ⟨hhead, htail⟩ := List.forall_mem_cons.1 hev
      rw [List.foldr_cons, ih htail]
      rcases Patch.next_patching t body ev.op ev.ans with he | ⟨t', _, he, _⟩
      · exact he
      · exact absurd (congrArg Effect.Event.op he) (hhead t')
  refine ⟨t, ?_⟩
  have hloc : patch th = th.trace.foldr (fun ev s => Patch.next s ev.op ev.ans)
      (patchInit th.entry) := rfl
  rw [hloc, hentry, htrace, List.foldr_cons]
  change Patch.next (rest.foldr (fun ev s => Patch.next s ev.op ev.ans) (.patching t body)) _ _ = _
  rw [hwait rest hrest]
  rfl

theorem LimitsInv.start (hJ : LimitsInv c) {e : Entry} (he : e.isTenantTraffic = true) :
    LimitsInv { c with threads := c.threads ++ [Effect.Thread.init e] } := by
  have hinit : patchInit e ≠ .outside ∧ (patchInit e).ReadOrdered := by
    cases e with
    | createTenant | updateTenant | deleteTenant => exact ⟨fun h => (by cases h), trivial⟩
    | _ => cases he
  refine ⟨hJ.ordered, fun th hth => ?_, fun th hth => ?_⟩
  · rcases List.mem_append.1 hth with hth | hth
    · exact hJ.scope th hth
    · rw [List.mem_singleton.1 hth]
      exact hinit.1
  · rcases List.mem_append.1 hth with hth | hth
    · exact hJ.read th hth
    · rw [List.mem_singleton.1 hth]
      exact hinit.2

theorem LimitsInv.crash (hJ : LimitsInv c) (hi : c.threads[i]? = some th) :
    LimitsInv { c with threads := c.threads.set i { th with crashed := true } } := by
  have hmem := List.mem_of_getElem? hi
  refine ⟨hJ.ordered, fun u hu => ?_, fun u hu => ?_⟩
  · rcases List.mem_or_eq_of_mem_set hu with hu | rfl
    · exact hJ.scope u hu
    · exact hJ.scope th hmem
  · rcases List.mem_or_eq_of_mem_set hu with hu | rfl
    · exact hJ.read u hu
    · exact hJ.read th hmem

/-- **Along a run without a stale write the limits stay in order, and no PATCH that leaves them alone
or lowers the daily one is refused for them.** -/
theorem limits_ordered {w : World} (hw : LimitsOrdered w) {ms : List (Move env)}
    (htenants : ∀ e, .start e ∈ ms → e.isTenantTraffic = true)
    (hsteps : Along (fun c m => stale c m = false) (.init w) ms)
    (h : play (.init w) ms = some c) :
    LimitsOrdered c.world ∧
      ∀ th ∈ c.threads, ∀ body record, RefusedForLimits th body record → ¬ Harmless body record := by
  have hstart : ∀ m ∈ ms, ∀ e, m = .start e → e.isTenantTraffic = true := by
    rintro m hm e rfl
    exact htenants e hm
  obtain ⟨hcoupled, hJ⟩ := protocol_inv (R := patchProtocol) patchInit (J := LimitsInv)
    Patch.obeys_body (fun c e hJ hφ => hJ.start (hφ.1 e rfl))
    (fun c i ch th op k ans w' hJ _ hφ hn ha hx => ⟨trivial, hJ.act hφ.2 hn ha hx⟩)
    (fun c i th hJ _ hi => hJ.crash hi) (fun _ ht => (by cases ht))
    ⟨hw, fun _ ht => (by cases ht), fun _ ht => (by cases ht)⟩ (hsteps.and_of_mem hstart) h
  refine ⟨hJ.ordered, fun th hth body record hrefused hharmless => ?_⟩
  obtain ⟨t, hchecked⟩ := hrefused.checked
  have hread := hJ.read th hth
  have hobeys := hcoupled th hth
  rw [hrefused.raised] at hobeys
  have hends : (patch th).Ends limitsExceeded := hobeys
  rw [hchecked] at hread hends
  have hrefusal : effectiveOk body record = false := hends rfl
  rw [effective_of_harmless hread hharmless] at hrefusal
  cases hrefusal

end

/-! ## Two requests, one after the other and at once -/

def limitedTenant : TenantItem
  | .isActive          => some true
  | .maxWritesPerDay   => some (5 : Nat)
  | .maxWritesPerMonth => some (10 : Nat)
  | _                  => none

def limitedWorld : World where
  tenants := Dynamo.Table.empty.put "acme" limitedTenant
  tokens  := [("root", { groups := .many [SUPER_ADMIN_GROUP] })]

theorem limitedWorld_ordered : LimitsOrdered limitedWorld :=
  LimitsOrdered.put (w := { tokens := limitedWorld.tokens }) (fun _ _ h => (by cases h)) rfl

/-- One request raises the daily limit, the other lowers the monthly one. -/
def raiseDay : Move sampleKeyEnv :=
  .start (.updateTenant 0 (some "root") "acme" { maxWritesPerDay := some (some 8) })

def lowerMonth : Move sampleKeyEnv :=
  .start (.updateTenant 0 (some "root") "acme" { maxWritesPerMonth := some (some 6) })

/-- The second request reads what the first has written, and is refused. -/
def raiseThenLower : List (Move sampleKeyEnv) :=
  raiseDay :: List.replicate 8 (.act 0 {}) ++ lowerMonth :: List.replicate 2 (.act 1 {})

set_option maxRecDepth 10000 in
theorem limits_ordered_raiseThenLower :
    ∃ c, play (.init limitedWorld) raiseThenLower = some c ∧ LimitsOrdered c.world := by
  have hplay : (play (.init limitedWorld) raiseThenLower).isSome = true := by decide +kernel
  obtain ⟨c, hc⟩ := Option.isSome_iff_exists.1 hplay
  refine ⟨c, hc, (limits_ordered limitedWorld_ordered ?_ ?_ hc).1⟩
  · simp [raiseThenLower, raiseDay, lowerMonth, Entry.isTenantTraffic]
  · decide +kernel

/-- Both requests check the stored limits before either writes. -/
def raiseWhileLower : List (Move sampleKeyEnv) :=
  [raiseDay, lowerMonth] ++ List.replicate 2 (.act 0 {}) ++ List.replicate 2 (.act 1 {}) ++
    List.replicate 6 (.act 0 {}) ++ List.replicate 6 (.act 1 {})

set_option maxRecDepth 10000 in
theorem limits_fail : ¬ ∀ (env : KeyEnv) (w : World) (ms : List (Move env)) (c : Config env),
    LimitsOrdered w → (∀ e, .start e ∈ ms → e.isTenantTraffic = true) →
    play (.init w) ms = some c → LimitsOrdered c.world ∧
      ∀ th ∈ c.threads, ∀ body record, RefusedForLimits th body record → ¬ Harmless body record := by
  intro hall
  have hplay : (play (.init limitedWorld) raiseWhileLower).map (fun c =>
      (c.world.tenants.item "acme").map TenantItem.limitsOk) = some (some false) := by
    decide +kernel
  obtain ⟨c, hc, hdata⟩ := Option.map_eq_some_iff.1 hplay
  obtain ⟨it, hit, hlimits⟩ := Option.map_eq_some_iff.1 hdata
  have hordered := (hall sampleKeyEnv limitedWorld raiseWhileLower c limitedWorld_ordered
    (by simp [raiseWhileLower, raiseDay, lowerMonth, Entry.isTenantTraffic]) hc).1 "acme" it hit
  rw [hordered] at hlimits
  cases hlimits

end DocumentAi.Admin
