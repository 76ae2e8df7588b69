import DocumentAi.Lib.TtlCache
import DocumentAi.Services

/-!
# The processing percentage of a category behind the cache (`utils/document_categories.py`)

| here | there |
| --- | --- |
| `getProcessingPercentage` | `get_processing_percentage` (`:21-35`) |
| `updateCategory`          | `update_category` (`:112-143`) with `BaseCrudTable.update` (`utils/base_crud_table.py:90-134`) |
| `createCategory`          | `create_category` (`:93-109`) with `BaseCrudTable.create` (`:66-88`) |
| `categorySystem`          | requests for a percentage and changes of categories, in any process |

What is read is the `processingPercentage` of the item, or 1 when there is none. `auto_register_category`
and `delete_category` leave it as it is. An update invalidates the cache of its own process, a
creation invalidates none.

Main theorem `percentage_after_update`: in the process that has made it, an update is seen at once.
-/

namespace DocumentAi.Categories

open TtlCache (Stage NoneInFlight NoWrite Replied)
open Effect.Protocol (Obeys obeys_bind obeys_tryCatch obeys_perform obeys_ret obeys_raise obeys_ite)

/-- Tenant and category name. A tenant id has no colon (`TenantIdStr`, `demo-` with a user id). -/
structure Category where
  tenantId    : String
  name        : String
  tenantId_ok : ':' ∉ tenantId.toList
deriving DecidableEq

abbrev sig : Effect.Sig := TtlCache.sig Category String Rat Rat Exc

abbrev Prog (α : Type) : Type := Effect.Prog sig α

def call (op : TtlCache.Op Category String Rat Rat) : Prog op.Res := TtlCache.call op

/-- `PROCESSING_PERCENTAGE_CACHE_TTL_MINUTES` in microseconds. -/
def PROCESSING_PERCENTAGE_CACHE_TTL : Nat := 5 * 60 * 1000000

def cacheKey (c : Category) : String := "processing_percentage:" ++ c.tenantId ++ ":" ++ c.name

def getProcessingPercentage (pid : Nat) (c : Category) : Prog Rat := do
  let cached ← TtlCache.get pid (cacheKey c)
  match cached with
  | some value => return value
  | none       =>
    let value ← call (.read pid c)
    TtlCache.add pid (cacheKey c) value PROCESSING_PERCENTAGE_CACHE_TTL
    return value

/-- The fields of an update that may be given. -/
structure CategoryUpdate where
  displayName          : Option String := none
  description          : Option String := none
  isActive             : Option Bool := none
  processingPercentage : Option Rat := none

def CategoryUpdate.isEmpty (u : CategoryUpdate) : Bool :=
  u.displayName.isNone && u.description.isNone && u.isActive.isNone && u.processingPercentage.isNone

/-- `_table.update`: the item is looked up, changed and looked up again. -/
def updateItem (c : Category) (u : CategoryUpdate) : Prog Unit := do
  let existing : Bool ← call .other
  if existing then
    match u.processingPercentage with
    | some value => call (.write c value)
    | none       => (do let _ : Bool ← call .other)
    let updated : Bool ← call .other
    if updated then return () else throw (.valueError "Update failed")
  else throw (.valueError "Item not found")

def updateCategory (pid : Nat) (c : Category) (u : CategoryUpdate) : Prog Unit := do
  if u.isEmpty then throw (.valueError "No fields to update")
  else
    updateItem c u
    match u.processingPercentage with
    | some _ => TtlCache.invalidate pid (cacheKey c)
    | none   => return ()

def createCategory (c : Category) (processingPercentage : Rat) : Prog Unit := do
  let existing : Bool ← call .other
  if existing then throw (.valueError ("Item already exists: " ++ c.tenantId ++ "/" ++ c.name))
  else call (.write c processingPercentage)

/-! ## Requests in several processes -/

inductive Request where
  | percentage (pid : Nat) (c : Category)
  | update (pid : Nat) (c : Category) (u : CategoryUpdate)
  | create (c : Category) (processingPercentage : Rat)

def Request.body : Request → Prog Unit
  | percentage pid c => do
    let value ← getProcessingPercentage pid c
    call (.reply pid c value)
  | update pid c u   => updateCategory pid c u
  | create c value   => createCategory c value

abbrev categorySystem : Effect.Sys sig := TtlCache.system (.exception "KeyError") Request.body

/-- A text is split at its first colon in one way. -/
theorem split_colon {s t u v : List Char} (hs : ':' ∉ s) (ht : ':' ∉ t)
    (h : s ++ ':' :: u = t ++ ':' :: v) : s = t ∧ u = v := by
  induction s generalizing t with
  | nil =>
    cases t with
    | nil => exact ⟨rfl, (List.cons.inj h).2⟩
    | cons y t => exact absurd ((List.cons.inj h).1 ▸ List.mem_cons_self) ht
  | cons x s ih =>
    cases t with
    | nil => exact absurd ((List.cons.inj h).1 ▸ List.mem_cons_self) hs
    | cons y t =>
      obtain ⟨hxy, hrest⟩ := List.cons.inj h
      obtain ⟨hst, huv⟩ := ih (fun hm => hs (List.mem_cons_of_mem _ hm))
        (fun hm => ht (List.mem_cons_of_mem _ hm)) hrest
      exact ⟨by rw [hxy, hst], huv⟩

theorem toList_joined (pre tenantId name : String) : (pre ++ tenantId ++ ":" ++ name).toList =
    pre.toList ++ (tenantId.toList ++ ':' :: name.toList) := by
  have hcolon : ":".toList = [':'] := by decide
  rw [String.toList_append, String.toList_append, String.toList_append, hcolon, List.append_assoc,
    List.append_assoc, List.singleton_append]

theorem joined_inj {pre tenantId name tenantId' name' : String} (h : ':' ∉ tenantId.toList)
    (h' : ':' ∉ tenantId'.toList)
    (heq : pre ++ tenantId ++ ":" ++ name = pre ++ tenantId' ++ ":" ++ name') :
    tenantId = tenantId' ∧ name = name' := by
  have hlists := congrArg String.toList heq
  rw [toList_joined, toList_joined, List.append_right_inj] at hlists
  obtain ⟨htenant, hname⟩ := split_colon h h' hlists
  exact ⟨String.toList_inj.1 htenant, String.toList_inj.1 hname⟩

theorem cacheKey_injective : Function.Injective cacheKey := by
  intro c d h
  obtain ⟨htenant, hname⟩ := joined_inj c.tenantId_ok d.tenantId_ok h
  cases c
  cases d
  rw [Category.mk.injEq]
  exact ⟨htenant, hname⟩

def policy : TtlCache.Policy Category String Rat Rat where
  key           := cacheKey
  life          := fun _ => PROCESSING_PERCENTAGE_CACHE_TTL
  answers       := fun _ value a => a = value
  fallback      := fun _ _ => False
  key_injective := cacheKey_injective

abbrev categoryProtocol : Effect.Protocol sig := TtlCache.protocol Exc policy

theorem getProcessingPercentage_obeys (pid : Nat) (c : Category) (s : Stage Category String Rat) :
    categoryProtocol.Obeys
      (fun (s' : Stage Category String Rat) value =>
        s' = .valid pid (cacheKey c) value ∨ s' = .stored pid c value) (fun _ _ => True) s
      (getProcessingPercentage pid c) := by
  refine obeys_bind (TtlCache.get_obeys (cacheKey c)) fun s cached hs => ?_
  cases cached with
  | some value => exact obeys_ret (.inl (hs value rfl))
  | none =>
    refine obeys_bind (TtlCache.read_obeys.mono (fun _ _ h => h) fun _ _ _ => trivial)
      fun s value hs => ?_
    subst hs
    refine obeys_bind (Effect.Protocol.Obeys.mono (fun _ _ h => h) (fun _ _ h => h.elim)
      TtlCache.add_obeys) fun s _ hs => ?_
    exact obeys_ret (.inr hs)

theorem updateItem_obeys (c : Category) (u : CategoryUpdate) (s : Stage Category String Rat) :
    categoryProtocol.Obeys (fun _ _ => True) (fun _ _ => True) s (updateItem c u) := by
  have hother : ∀ s : Stage Category String Rat, categoryProtocol.Obeys (fun _ _ => True)
      (fun _ _ => True) s (call .other) :=
    fun s => obeys_perform trivial (fun _ _ => trivial) fun _ _ => trivial
  refine obeys_bind (hother s) fun s existing _ => obeys_ite (fun _ => ?_) fun _ => obeys_raise trivial
  have hlast : ∀ s : Stage Category String Rat, categoryProtocol.Obeys (fun _ _ => True)
      (fun _ _ => True) s (do
        let updated : Bool ← call .other
        if updated then return () else throw (.valueError "Update failed")) :=
    fun s => obeys_bind (hother s) fun s updated _ =>
      obeys_ite (fun _ => obeys_ret trivial) fun _ => obeys_raise trivial
  cases u.processingPercentage with
  | some value =>
    exact obeys_bind (Q := fun _ _ => True) (obeys_perform trivial (fun _ _ => trivial)
      fun _ _ => trivial) fun s _ _ => hlast s
  | none =>
    exact obeys_bind (Q := fun _ _ => True) (obeys_bind (hother s) fun s _ _ => obeys_ret trivial)
      fun s _ _ => hlast s

theorem request_obeys (r : Request) : categoryProtocol.Obeys (fun _ _ => True) (fun _ _ => True)
    .idle r.body := by
  cases r with
  | percentage pid c =>
    refine obeys_bind (getProcessingPercentage_obeys pid c _) fun s value hs => ?_
    refine obeys_perform ?_ (fun _ _ => trivial) fun _ _ => trivial
    exact .inl ⟨value, hs, rfl⟩
  | update pid c u =>
    refine obeys_ite (fun _ => obeys_raise trivial) fun _ => ?_
    refine obeys_bind (updateItem_obeys c u _) fun s _ _ => ?_
    cases u.processingPercentage with
    | some value => exact TtlCache.invalidate_obeys (cacheKey c)
    | none => exact obeys_ret trivial
  | create c value =>
    refine obeys_bind (Q := fun _ _ => True) (obeys_perform trivial (fun _ _ => trivial)
      fun _ _ => trivial) fun s existing _ => ?_
    exact obeys_ite (fun _ => obeys_raise trivial)
      fun _ => obeys_perform trivial (fun _ _ => trivial) fun _ _ => trivial

/-! ## The last thing an update does -/

/-- The entry that a request has to leave out of its dictionary. -/
def Request.target : Request → Option (Nat × String)
  | update pid c u => u.processingPercentage.map fun _ => (pid, cacheKey c)
  | _              => none

/-- Whether the last answer was that the entry is gone. -/
abbrev lastProtocol : Effect.Protocol sig where
  State    := Option (Nat × String) × Bool
  allow    := fun _ _ => True
  possible := fun _ _ _ => True
  next     := fun s op ans => (s.1, s.1.any fun target => TtlCache.clears target.1 target.2 op ans)

abbrev Target : Type := Option (Nat × String) × Bool

theorem invalidate_last (pid : Nat) (key : String) (b : Bool) :
    lastProtocol.Obeys (fun (s : Target) _ => s = (some (pid, key), true)) (fun _ _ => True)
      ((some (pid, key), b) : Target) (TtlCache.invalidate pid key) := by
  have hcontains : lastProtocol.Obeys
      (fun (s : Target) found => s.1 = some (pid, key) ∧ (found = false → s.2 = true))
      (fun _ _ => True) ((some (pid, key), b) : Target) (TtlCache.call (.contains pid key)) := by
    refine obeys_perform trivial (fun found _ => ⟨rfl, ?_⟩) fun _ _ => trivial
    rintro rfl
    exact decide_eq_true ⟨rfl, rfl⟩
  refine obeys_bind hcontains ?_
  rintro ⟨target, cleared⟩ found ⟨rfl, hcleared⟩
  refine obeys_ite (fun _ => ?_) fun hnot => ?_
  · refine obeys_perform trivial (fun _ _ => ?_) fun _ _ => trivial
    exact congrArg (Prod.mk _) (decide_eq_true ⟨rfl, rfl⟩)
  · exact obeys_ret (congrArg (Prod.mk _) (hcleared (eq_false_of_ne_true hnot)))

theorem request_last (r : Request) : lastProtocol.Obeys
    (fun (s : Target) _ => s.1 = r.target ∧ (s.1 ≠ none → s.2 = true)) (fun _ _ => True)
    ((r.target, false) : Target) r.body := by
  have hfree : ∀ (s : Target) {α : Type} (p : Prog α), s.1 = r.target → lastProtocol.Obeys
      (fun (s' : Target) _ => s'.1 = r.target) (fun _ _ => True) s p := fun s α p hs =>
    (Effect.Protocol.obeys_of_free (R := lastProtocol) (I := fun s' : Target => s'.1 = r.target)
      (fun s op hs => ⟨trivial, fun _ => hs⟩) hs p).mono (fun _ _ h => h) fun _ _ _ => trivial
  cases r with
  | percentage pid c =>
    exact (hfree _ _ rfl).mono (fun s _ hs => ⟨hs, fun hne => absurd hs hne⟩) fun _ _ h => h
  | create c value =>
    exact (hfree _ _ rfl).mono (fun s _ hs => ⟨hs, fun hne => absurd hs hne⟩) fun _ _ h => h
  | update pid c u =>
    refine obeys_ite (fun _ => obeys_raise trivial) fun _ => ?_
    refine obeys_bind (hfree _ _ rfl) fun s _ hs => ?_
    obtain ⟨target, cleared⟩ := s
    obtain rfl : target = (Request.update pid c u).target := hs
    have htarget : (Request.update pid c u).target =
        u.processingPercentage.map fun _ => (pid, cacheKey c) := rfl
    rw [htarget]
    cases u.processingPercentage with
    | some value =>
      refine (invalidate_last pid (cacheKey c) cleared).mono (fun (s : Target) _ hs => ?_)
        fun _ _ h => h
      exact ⟨congrArg Prod.fst hs, fun _ => congrArg Prod.snd hs⟩
    | none => exact obeys_ret ⟨rfl, fun hne => (hne rfl).elim⟩

/-! ## Runs -/

abbrev lastOf (t : Effect.Thread categorySystem) : Target :=
  lastProtocol.loc (fun r : Request => ((r.target, false) : Target)) t

theorem lastOf_target (t : Effect.Thread categorySystem) : (lastOf t).1 = t.entry.target := by
  unfold lastOf Effect.Protocol.loc
  generalize t.trace = events
  induction events with
  | nil => rfl
  | cons ev events ih => exact ih

/-- No process has asked for a percentage. -/
def fresh (source : Category → Rat) : TtlCache.World Category String Rat Exc where
  dict   := fun _ _ => none
  source := fun c => .ok (source c)
  clock  := 0

/-! A process caches the percentage of a category, the category is changed there, and it is asked for
again. -/

def sampleCategory : Category := ⟨"acme", "invoice", by decide⟩

def movesBefore : List (Effect.Move categorySystem) :=
  .start (.percentage 1 sampleCategory) :: List.replicate 5 (.act 0 {}) ++
    .start (.update 1 sampleCategory { processingPercentage := some (1 / 2) }) ::
      List.replicate 4 (.act 1 {})

def movesAfter : List (Effect.Move categorySystem) :=
  .start (.percentage 1 sampleCategory) :: List.replicate 5 (.act 2 {})

section
variable {source : Category → Rat} {ms ys : List (Effect.Move categorySystem)}
  {c c₀ c₂ : Effect.Config categorySystem}

theorem last_run (h : Effect.play (.init (fresh source)) ms = some c) :
    lastProtocol.Coupled (fun r : Request => ((r.target, false) : Target))
      (fun (s : Target) _ => s.1 ≠ none → s.2 = true) (fun _ _ => True) c :=
  (Effect.Protocol.protocol_inv (R := lastProtocol) _ (J := fun _ => True)
    (fun r => (request_last r).mono (fun _ _ hs => hs.2) fun _ _ h => h)
    (fun _ _ _ _ => trivial) (fun _ _ _ _ _ _ _ _ _ _ _ _ _ _ => ⟨trivial, trivial⟩)
    (fun _ _ _ _ _ _ => trivial) (fun t ht => (by cases ht)) trivial
    (Effect.along_iff_split.2 fun _ _ _ _ _ _ => trivial) h).1

/-- When an update returns that gave a percentage, its process has none in the dictionary. -/
theorem update_returns (h : Effect.play (.init (fresh source)) ms = some c) {i : Nat}
    {ch : TtlCache.Choice Exc} (hmove : Effect.move c (.act i ch) = some c₀)
    {t : Effect.Thread categorySystem} (ht : c₀.threads[i]? = some t) (hret : t.prog = .ret ())
    {pid : Nat} {cat : Category} {u : CategoryUpdate} (hentry : t.entry = .update pid cat u)
    (hgiven : u.processingPercentage ≠ none) : c₀.world.dict pid (cacheKey cat) = none := by
  have hplay : Effect.play (.init (fresh source)) (ms ++ [.act i ch]) = some c₀ := by
    rw [Effect.play_append h, Effect.play, hmove]
    rfl
  have htarget : (lastOf t).1 = some (pid, cacheKey cat) := by
    obtain ⟨value, hvalue⟩ := Option.ne_none_iff_exists'.1 hgiven
    rw [lastOf_target, hentry, Request.target, hvalue, Option.map_some]
  have hlast := last_run hplay t (List.mem_of_getElem? ht)
  rw [hret] at hlast
  have hcleared : (lastOf t).2 = true := hlast (by rw [htarget]; exact Option.some_ne_none _)
  obtain ⟨t', op, k, ans, w', hn, hx, rfl⟩ := Effect.move_act hmove
  rcases Effect.getElem?_set_cases ht with ⟨_, rfl⟩ | ⟨hne, _⟩
  · have hsame : (lastOf t').1 = some (pid, cacheKey cat) := htarget
    have hclears : ((lastOf t').1.any fun target =>
        TtlCache.clears target.1 target.2 op ans) = true := hcleared
    rw [hsame] at hclears
    exact TtlCache.exec_clears hx hclears
  · exact absurd rfl hne

/-- **In the process that has made it, an update of the percentage is seen at once**: requests that
begin after it has returned get what the table holds, if no request of that process was about to
cache another value and the category is not changed again. -/
theorem percentage_after_update (h : Effect.play (.init (fresh source)) ms = some c) {i : Nat}
    {ch : TtlCache.Choice Exc} (hmove : Effect.move c (.act i ch) = some c₀)
    {t : Effect.Thread categorySystem} (ht : c₀.threads[i]? = some t) (hret : t.prog = .ret ())
    {pid : Nat} {cat : Category} {u : CategoryUpdate} (hentry : t.entry = .update pid cat u)
    (hgiven : u.processingPercentage ≠ none) {new : Rat} (hnew : c₀.world.source cat = .ok new)
    (hflight : NoneInFlight policy (fun pid' => pid' = pid) cat new c₀)
    (h₂ : Effect.play c₀ ys = some c₂) (hys : Effect.Along (NoWrite cat) c₀ ys) {j : Nat}
    {t' : Effect.Thread categorySystem} (hj : c₀.threads.length ≤ j) (ht' : c₂.threads[j]? = some t')
    {answer : Rat} (hreply : Replied t' pid cat answer) : answer = new := by
  have hplay : Effect.play (.init (fresh source)) (ms ++ [.act i ch]) = some c₀ := by
    rw [Effect.play_append h, Effect.play, hmove]
    rfl
  have hgone : ∀ pid', pid' = pid → c₀.world.dict pid' (policy.key cat) = none := by
    rintro _ rfl
    exact update_returns h hmove ht hret hentry hgiven
  rcases TtlCache.renewed_after_invalidation request_obeys hplay hnew hflight hgone h₂ hys hj ht' rfl
    hreply with hanswer | ⟨hfall, _⟩
  · exact hanswer
  · exact hfall.elim

theorem percentage_after_update_sample : ∃ c c₀ c₂ t t',
    Effect.play (.init (fresh fun _ => 1)) movesBefore = some c ∧
    Effect.move c (.act 1 {}) = some c₀ ∧ c₀.threads[1]? = some t ∧ t.prog = .ret () ∧
    Effect.play c₀ movesAfter = some c₂ ∧ c₂.threads[2]? = some t' ∧
    ∃ answer, Replied t' 1 sampleCategory answer ∧ answer = 1 / 2 := by
  obtain ⟨c, c₀, c₂, t, t', h, hmove, ht, hret, h₂, ht', hentry, ⟨answer, hreply⟩, hnew, hstages, hj, hys⟩ :
      ∃ c c₀ c₂ t t', Effect.play (.init (fresh fun _ => 1)) movesBefore = some c ∧
        Effect.move c (.act 1 {}) = some c₀ ∧ c₀.threads[1]? = some t ∧ t.prog = .ret () ∧
        Effect.play c₀ movesAfter = some c₂ ∧ c₂.threads[2]? = some t' ∧
        t.entry = .update 1 sampleCategory { processingPercentage := some (1 / 2) } ∧
        (∃ answer, Replied t' 1 sampleCategory answer) ∧ c₀.world.source sampleCategory = .ok (1 / 2) ∧
        (c₀.threads.map fun t => TtlCache.stageOf (π := policy) t) =
          [.stored 1 sampleCategory 1, .idle] ∧
        c₀.threads.length ≤ 2 ∧ Effect.Along (NoWrite sampleCategory) c₀ movesAfter :=
    ⟨_, _, _, _, _, rfl, rfl, rfl, rfl, rfl, rfl, rfl, ⟨_, _, List.mem_cons_self⟩, rfl, rfl,
      by decide +kernel, by decide +kernel⟩
  exact ⟨c, c₀, c₂, t, t', h, hmove, ht, hret, h₂, ht', answer, hreply,
    percentage_after_update h hmove ht hret hentry (Option.some_ne_none _) hnew
      (TtlCache.noneInFlight_of_stages hstages (by simp [Stage.Carries])) h₂ hys hj ht' hreply⟩

end

end DocumentAi.Categories
