import DocumentAi.Runs.BuildStages

/-!
# Who changes a build, and how often it is submitted

A submission takes the lock of the build, a conditional write on its metadata row, before it merges
anything. A failed one removes the attribute again. The row itself can be deleted by a request that
looked at it before the lock was taken.

| here | meaning |
| --- | --- |
| `Shown`           | what the calls of a request show of its stage |
| `Owned`           | the tenants of the builds, and who has drawn which id |
| `submissionLock`  | the lock of a build as a latch |
| `submitted_once`  | a build is accepted at most once more than its metadata row is deleted |
| `changed_by_one_tenant` | all requests that ever changed a build have the same tenant |
-/

namespace DocumentAi.Builds

open Effect (Event)

variable {Page : Type} {pdf : PdfLibrary Page}

/-! ## What the calls of a request show of its stage -/

namespace BuildStage

def tenantId : BuildStage → Option String
  | other => none
  | creating t | drawn t _ | made t _ | outside t _ _ | inside t _ _ | locked t _ | rolledBack t _ => some t

/-- Tenant and build of a request that has made a build, or that may change one. -/
def owns : BuildStage → Option (String × String)
  | made t b | inside t b _ | locked t b | rolledBack t b => some (t, b)
  | _ => none

def locks (b : String) : BuildStage → Nat
  | locked _ b' | rolledBack _ b' => if b' = b then 1 else 0
  | _ => 0

def rollbacks (b : String) : BuildStage → Nat
  | rolledBack _ b' => if b' = b then 1 else 0
  | _ => 0

def submitsTo (b : String) : BuildStage → Bool
  | outside _ b' true | inside _ b' true | locked _ b' | rolledBack _ b' => b' == b
  | _ => false

end BuildStage

section
open BuildStage

variable {w w' : World × Table} {s s' : BuildStage} {op : tableSig.Op} {ans : tableSig.Ans op}

theorem isChange_of_isLock {b : String} {op : TableOp} (h : op.isLock b = true) :
    op.isChange b = true := by
  cases op <;> simp_all [TableOp.isLock, TableOp.isChange, metadataKey]

theorem isChange_of_isRollback {b : String} {op : TableOp} (h : op.isRollback b = true) :
    op.isChange b = true := by
  cases op <;> simp_all [TableOp.isRollback, TableOp.isChange, metadataKey]

theorem onTable_mono {f g : TableOp → Bool} (h : ∀ op, f op = true → g op = true) {ev : Event tableSig}
    (hg : onTable g ev = false) : onTable f ev = false := by
  rw [Bool.eq_false_iff] at hg ⊢
  intro hf
  refine hg ?_
  unfold onTable at hf ⊢
  obtain ⟨hland, hop⟩ := Bool.and_eq_true_iff.1 hf
  rw [hland, Bool.true_and]
  cases hev : ev.op with
  | inl op => rw [hev] at hop; cases hop
  | inr op => rw [hev] at hop; exact h op hop

theorem Step.tenantId (h : Step w w' op ans s s') : s'.tenantId = s.tenantId := by
  cases h with
  | draw hs _ _ _ => rcases hs with rfl | ⟨b, rfl⟩ <;> rfl
  | _ => rfl

theorem Step.owns (h : Step w w' op ans s s') {x : String × String} (hs : s.owns = some x) :
    s'.owns = some x := by
  cases h with
  | draw hs' _ _ _ => rcases hs' with rfl | ⟨b, rfl⟩ <;> cases hs
  | create => cases hs
  | enter => cases hs
  | _ => exact hs

theorem Step.changes (h : Step w w' op ans s s') {b : String}
    (hb : onTable (TableOp.isChange b) ⟨op, ans⟩ = true) : ∃ t, s'.owns = some (t, b) := by
  cases h with
  | aside s _ change _ =>
    rw [change b] at hb
    cases hb
  | draw => cases hb
  | enter => cases hb
  | @create t b' row _ _ _ =>
    obtain rfl : b' = b := by simpa [onTable, landed, TableOp.isChange, metadataKey] using hb
    exact ⟨t, rfl⟩
  | @putPage t b' n row ifAbsent _ _ =>
    obtain rfl : b' = b := by simpa [onTable, landed, TableOp.isChange] using hb
    exact ⟨t, rfl⟩
  | @delete t b' n _ =>
    obtain rfl : b' = b := by simpa [onTable, landed, TableOp.isChange] using hb
    exact ⟨t, rfl⟩
  | @lock t b' now row _ _ _ _ =>
    obtain rfl : b' = b := by simpa [onTable, landed, TableOp.isChange, metadataKey] using hb
    exact ⟨t, rfl⟩
  | @stamp t b' n now row _ _ =>
    obtain rfl : b' = b := by simpa [onTable, landed, TableOp.isChange] using hb
    exact ⟨t, rfl⟩
  | @rollBack t b' row _ _ =>
    obtain rfl : b' = b := by simpa [onTable, landed, TableOp.isChange, metadataKey] using hb
    exact ⟨t, rfl⟩

theorem Step.locks (h : Step w w' op ans s s') (b : String) :
    s.locks b + (if onTable (TableOp.isLock b) ⟨op, ans⟩ then 1 else 0) = s'.locks b := by
  cases h with
  | aside s _ change _ =>
    simp [onTable_mono (fun _ => isChange_of_isLock) (change b)]
  | draw hs _ _ _ => rcases hs with rfl | ⟨b', rfl⟩ <;> rfl
  | lock => simp [onTable, landed, TableOp.isLock, metadataKey, lockRequest, BuildStage.locks]
  | stamp => simp [onTable, landed, TableOp.isLock, metadataKey, stampRequest, BuildStage.locks]
  | _ => rfl

theorem Step.rollbacks (h : Step w w' op ans s s') (b : String) :
    s.rollbacks b + (if onTable (TableOp.isRollback b) ⟨op, ans⟩ then 1 else 0) = s'.rollbacks b := by
  cases h with
  | aside s _ change _ =>
    simp [onTable_mono (fun _ => isChange_of_isRollback) (change b)]
  | draw hs _ _ _ => rcases hs with rfl | ⟨b', rfl⟩ <;> rfl
  | rollBack => simp [onTable, landed, TableOp.isRollback, metadataKey, BuildStage.rollbacks]
  | _ => rfl

theorem Step.putsNothing (h : Step w w' op ans s s') (hs : s'.putsNothing = true) :
    s.putsNothing = true ∧ isUpload ⟨op, ans⟩ = false := by
  cases h with
  | aside s _ _ upload => exact ⟨hs, upload hs⟩
  | draw => cases hs
  | create => cases hs
  | @enter t b sub row _ _ _ =>
    cases sub with
    | true => exact ⟨rfl, rfl⟩
    | false => cases hs
  | putPage => cases hs
  | delete => cases hs
  | lock => cases hs
  | stamp => cases hs
  | rollBack => cases hs

theorem Step.submitsTo (h : Step w w' op ans s s') {b : String} (hs : s.submitsTo b = true) :
    s'.submitsTo b = true := by
  cases h with
  | draw hs' _ _ _ => rcases hs' with rfl | ⟨b', rfl⟩ <;> cases hs
  | create => cases hs
  | @enter t b' sub row _ _ _ =>
    cases sub with
    | true => exact hs
    | false => cases hs
  | _ => exact hs

end

def stageOf (th : Effect.Thread (buildPool pdf)) : BuildStage := buildProtocol.loc Request.stage th

/-- The calls of a request as its stage has them. -/
structure Shown (th : Effect.Thread (buildPool pdf)) : Prop where
  tenant    : (stageOf th).tenantId = th.entry.tenantId
  owns      : ∀ b, changes b th = true → ∃ t, (stageOf th).owns = some (t, b)
  locks     : ∀ b, th.trace.countP (onTable (TableOp.isLock b)) = (stageOf th).locks b
  rollbacks : ∀ b, th.trace.countP (onTable (TableOp.isRollback b)) = (stageOf th).rollbacks b
  uploads   : (stageOf th).putsNothing = true → th.trace.any isUpload = false
  submits   : ∀ b, th.entry.submits b = true → (stageOf th).submitsTo b = true

section
open BuildStage

variable {c : Effect.Config (buildPool pdf)} {th : Effect.Thread (buildPool pdf)}

theorem shown_init (e : Request) : Shown (Effect.Thread.init e : Effect.Thread (buildPool pdf)) where
  tenant := by cases e <;> rfl
  owns b h := by cases h
  locks b := by cases e <;> rfl
  rollbacks b := by cases e <;> rfl
  uploads _ := rfl
  submits b h := by
    cases e with
    | submit env auth buildId traceId => exact h
    | _ => cases h

theorem Shown.step (h : Shown th) {w w' : World × Table} {op : tableSig.Op} {ans : tableSig.Ans op}
    {k : tableSig.Ans op → BProg Unit} (hstep : Step w w' op ans (stageOf th) (stageOf (th.resume k ans))) :
    Shown (th.resume k ans) where
  tenant := hstep.tenantId.trans h.tenant
  owns b hb := by
    rcases Bool.or_eq_true_iff.1 hb with hnow | hbefore
    · exact hstep.changes hnow
    · obtain ⟨t, ht⟩ := h.owns b hbefore
      exact ⟨t, hstep.owns ht⟩
  locks b := by
    rw [← hstep.locks b, ← h.locks b]
    exact List.countP_cons
  rollbacks b := by
    rw [← hstep.rollbacks b, ← h.rollbacks b]
    exact List.countP_cons
  uploads hs := by
    obtain ⟨hbefore, hnow⟩ := hstep.putsNothing hs
    change (isUpload ⟨op, ans⟩ || th.trace.any isUpload) = false
    rw [hnow, h.uploads hbefore]
    rfl
  submits b hb := hstep.submitsTo (h.submits b hb)

end

/-! ## The tenant of a build -/

/-- `owner b` is the tenant of the build `b`, `drawer b` the request that drew the id `b`. -/
structure Owned (owner : String → Option String) (drawer : String → Option Nat)
    (c : Effect.Config (buildPool pdf)) : Prop where
  rows    : ∀ k, (c.world.2.item k).isSome = true →
    k.1 ∈ c.world.1.uuids ∧ ∀ th ∈ c.threads, ∀ t, stageOf th ≠ .drawn t k.1
  tenants : ∀ b t, (c.world.2.item (metadataKey b)).bind Row.tenantId = some t → owner b = some t
  known   : ∀ b, (owner b).isSome = true → b ∈ c.world.1.uuids
  stages  : ∀ th ∈ c.threads, ∀ t b, (stageOf th).owns = some (t, b) → owner b = some t
  drawn   : ∀ i th t b, c.threads[i]? = some th → stageOf th = .drawn t b →
    b ∈ c.world.1.uuids ∧ owner b = none ∧ drawer b = some i

section
open BuildStage

variable {owner : String → Option String} {drawer : String → Option Nat}
  {c : Effect.Config (buildPool pdf)} {th : Effect.Thread (buildPool pdf)} {i : Nat}

/-- The ids of the builds there are have been drawn. -/
def IdsDrawn (w : World × Table) : Prop := ∀ k, (w.2.item k).isSome = true → k.1 ∈ w.1.uuids

theorem owned_init {w : World × Table} (hw : IdsDrawn w) :
    Owned (fun b => (w.2.item (metadataKey b)).bind Row.tenantId) (fun _ => none)
      (Effect.Config.init w : Effect.Config (buildPool pdf)) where
  rows k hk := ⟨hw k hk, fun th hth => by cases hth⟩
  tenants _ _ h := h
  known b hb := by
    obtain ⟨t, ht⟩ := Option.isSome_iff_exists.1 hb
    obtain ⟨row, hrow, _⟩ := Option.bind_eq_some_iff.1 ht
    exact hw (metadataKey b) (by rw [hrow]; rfl)
  stages th hth := by cases hth
  drawn i th t b hth := by cases hth

theorem stage_start (e : Request) : e.stage.owns = none ∧ ∀ t b, e.stage ≠ .drawn t b := by
  cases e <;> exact ⟨rfl, fun t b h => by cases h⟩

theorem Owned.start (h : Owned owner drawer c) (e : Request) :
    Owned owner drawer { c with threads := c.threads ++ [Effect.Thread.init e] } where
  rows k hk := by
    refine ⟨(h.rows k hk).1, fun th hth t => ?_⟩
    rcases List.mem_append.1 hth with hth | hth
    · exact (h.rows k hk).2 th hth t
    · obtain rfl := List.mem_singleton.1 hth
      exact (stage_start e).2 t k.1
  tenants := h.tenants
  known := h.known
  stages th hth t b ht := by
    rcases List.mem_append.1 hth with hth | hth
    · exact h.stages th hth t b ht
    · obtain rfl := List.mem_singleton.1 hth
      have hnone : (stageOf (Effect.Thread.init e : Effect.Thread (buildPool pdf))).owns = none :=
        (stage_start e).1
      rw [hnone] at ht
      cases ht
  drawn i th t b hth ht := by
    rcases Effect.getElem?_concat_cases hth with hth | rfl
    · exact h.drawn i th t b hth ht
    · exact absurd ht ((stage_start e).2 t b)

theorem Owned.crash (h : Owned owner drawer c) (hi : c.threads[i]? = some th) :
    Owned owner drawer { c with threads := c.threads.set i { th with crashed := true } } where
  rows k hk := by
    refine ⟨(h.rows k hk).1, fun th' hth t => ?_⟩
    rcases List.mem_or_eq_of_mem_set hth with hth | rfl
    · exact (h.rows k hk).2 th' hth t
    · exact (h.rows k hk).2 th (List.mem_of_getElem? hi) t
  tenants := h.tenants
  known := h.known
  stages th' hth t b ht := by
    rcases List.mem_or_eq_of_mem_set hth with hth | rfl
    · exact h.stages th' hth t b ht
    · exact h.stages th (List.mem_of_getElem? hi) t b ht
  drawn j th' t b hth ht := by
    rcases Effect.getElem?_set_cases hth with ⟨rfl, rfl⟩ | ⟨_, hth⟩
    · exact h.drawn j th t b hi ht
    · exact h.drawn j th' t b hth ht

variable {w : World × Table} {op : tableSig.Op} {ans : tableSig.Ans op} {k : tableSig.Ans op → BProg Unit}

/-- A call that makes no build and draws no id: the owners stay. -/
theorem Owned.act (h : Owned owner drawer c) (hi : c.threads[i]? = some th)
    (hgrow : ∀ u ∈ c.world.1.uuids, u ∈ w.1.uuids)
    (rows : ∀ k, (w.2.item k).isSome = true → (c.world.2.item k).isSome = true ∨
      ∃ t, (stageOf th).owns = some (t, k.1))
    (tenants : ∀ b t, (w.2.item (metadataKey b)).bind Row.tenantId = some t →
      (c.world.2.item (metadataKey b)).bind Row.tenantId = some t)
    (stages : ∀ t b, (stageOf (th.resume k ans)).owns = some (t, b) → owner b = some t)
    (drawn : ∀ t b, stageOf (th.resume k ans) = .drawn t b → stageOf th = .drawn t b) :
    Owned owner drawer { world := w, threads := c.threads.set i (th.resume k ans) } where
  rows key hkey := by
    have hnow : key.1 ∈ c.world.1.uuids ∧ ∀ th ∈ c.threads, ∀ t, stageOf th ≠ .drawn t key.1 := by
      rcases rows key hkey with hrow | ⟨t, ht⟩
      · exact h.rows key hrow
      · have howner := h.stages th (List.mem_of_getElem? hi) t key.1 ht
        refine ⟨h.known key.1 (by rw [howner]; rfl), fun th' hth t' ht' => ?_⟩
        obtain ⟨j, hj⟩ := List.mem_iff_getElem?.1 hth
        rw [(h.drawn j th' t' key.1 hj ht').2.1] at howner
        cases howner
    refine ⟨hgrow _ hnow.1, fun th' hth t ht => ?_⟩
    rcases List.mem_or_eq_of_mem_set hth with hth | rfl
    · exact hnow.2 th' hth t ht
    · exact hnow.2 th (List.mem_of_getElem? hi) t (drawn t key.1 ht)
  tenants b t ht := h.tenants b t (tenants b t ht)
  known b hb := hgrow b (h.known b hb)
  stages th' hth t b ht := by
    rcases List.mem_or_eq_of_mem_set hth with hth | rfl
    · exact h.stages th' hth t b ht
    · exact stages t b ht
  drawn j th' t b hth ht := by
    have hold : ∃ th'', c.threads[j]? = some th'' ∧ stageOf th'' = .drawn t b := by
      rcases Effect.getElem?_set_cases hth with ⟨rfl, rfl⟩ | ⟨_, hth⟩
      · exact ⟨th, hi, drawn t b ht⟩
      · exact ⟨th', hth, ht⟩
    obtain ⟨th'', hth'', ht''⟩ := hold
    obtain ⟨hknown, hnone, hdrawer⟩ := h.drawn j th'' t b hth'' ht''
    exact ⟨hgrow b hknown, hnone, hdrawer⟩

theorem put_item_cases {t : Table} {key key' : PageKey} {row : Row}
    (h : ((t.put key row).item key').isSome = true) : (t.item key').isSome = true ∨ key' = key := by
  by_cases hk : key' = key
  · exact .inr hk
  · rw [Dynamo.Table.put_item_ne _ _ hk] at h
    exact .inl h

/-- A row that is put in the place of one with the same tenant. -/
theorem put_tenants {t : Table} {key : PageKey} {row : Row} (b : String)
    (hrow : key = metadataKey b → row.tenantId = (rowAt t key).tenantId) :
    ((t.put key row).item (metadataKey b)).bind Row.tenantId =
      (t.item (metadataKey b)).bind Row.tenantId := by
  by_cases hk : metadataKey b = key
  · subst hk
    rw [Dynamo.Table.put_item_self, Option.bind_some]
    refine (hrow rfl).trans ?_
    unfold rowAt
    cases t.item (metadataKey b) <;> rfl
  · rw [Dynamo.Table.put_item_ne _ _ hk]

theorem page_ne_metadata {b b' : String} {n : Nat} (hn : n ≠ 0) : (b', n) ≠ metadataKey b := by
  intro h
  exact hn (Prod.mk.inj h).2

/-- The id a request has just drawn is new. -/
theorem Owned.draw {t u : String} (h : Owned owner drawer c) (hi : c.threads[i]? = some th)
    (hgrow : ∀ u ∈ c.world.1.uuids, u ∈ w.1.uuids) (fresh : u ∉ c.world.1.uuids)
    (known : u ∈ w.1.uuids) (table : w.2 = c.world.2)
    (hs : stageOf (th.resume k ans) = .drawn t u) :
    Owned owner (Function.update drawer u (some i))
      { world := w, threads := c.threads.set i (th.resume k ans) } where
  rows key hkey := by
    change (w.2.item key).isSome = true at hkey
    rw [table] at hkey
    obtain ⟨hknown, hnot⟩ := h.rows key hkey
    refine ⟨hgrow _ hknown, fun th' hth t' ht => ?_⟩
    rcases List.mem_or_eq_of_mem_set hth with hth | rfl
    · exact hnot th' hth t' ht
    · rw [hs] at ht
      cases ht
      exact fresh hknown
  tenants b t' ht := by
    change (w.2.item (metadataKey b)).bind Row.tenantId = some t' at ht
    rw [table] at ht
    exact h.tenants b t' ht
  known b hb := hgrow b (h.known b hb)
  stages th' hth t' b ht := by
    rcases List.mem_or_eq_of_mem_set hth with hth | rfl
    · exact h.stages th' hth t' b ht
    · rw [hs] at ht
      cases ht
  drawn j th' t' b hth ht := by
    rcases Effect.getElem?_set_cases hth with ⟨rfl, rfl⟩ | ⟨_, hth⟩
    · rw [hs] at ht
      cases ht
      refine ⟨known, ?_, Function.update_self ..⟩
      cases howner : owner u with
      | none => rfl
      | some t'' => exact absurd (h.known u (by rw [howner]; rfl)) fresh
    · obtain ⟨hknown, hnone, hdrawer⟩ := h.drawn j th' t' b hth ht
      refine ⟨hgrow b hknown, hnone, ?_⟩
      rw [Function.update_of_ne (fun hbu : b = u => fresh (hbu ▸ hknown))]
      exact hdrawer

/-- The build that a request has just made has its tenant. -/
theorem Owned.create {t b : String} {row : Row} (h : Owned owner drawer c) (hi : c.threads[i]? = some th)
    (hgrow : ∀ u ∈ c.world.1.uuids, u ∈ w.1.uuids) (hbefore : stageOf th = .drawn t b)
    (hs : stageOf (th.resume k ans) = .made t b) (tenant : row.tenantId = some t)
    (table : w.2 = c.world.2.put (metadataKey b) row) :
    Owned (Function.update owner b (some t)) drawer
      { world := w, threads := c.threads.set i (th.resume k ans) } := by
  obtain ⟨hknown, hnone, hdrawer⟩ := h.drawn i th t b hi hbefore
  have hother : ∀ b' t', owner b' = some t' → b' ≠ b := by
    rintro b' t' howner rfl
    rw [hnone] at howner
    cases howner
  -- no other request has drawn this id
  have honly : ∀ (j : Nat) (th' : Effect.Thread (buildPool pdf)) (t' : String),
      (c.threads.set i (th.resume k ans))[j]? = some th' → stageOf th' ≠ .drawn t' b := by
    intro j th' t' hth ht
    rcases Effect.getElem?_set_cases hth with ⟨rfl, rfl⟩ | ⟨hj, hth⟩
    · rw [hs] at ht
      cases ht
    · have := (h.drawn j th' t' b hth ht).2.2
      rw [hdrawer] at this
      exact hj (Option.some.inj this).symm
  refine ⟨fun key hkey => ?_, fun b' t' ht => ?_, fun b' hb' => ?_, fun th' hth t' b' ht => ?_,
    fun j th' t' b' hth ht => ?_⟩
  · change (w.2.item key).isSome = true at hkey
    rw [table] at hkey
    by_cases hb : key.1 = b
    · rw [hb]
      refine ⟨hgrow b hknown, fun th' hth t' => ?_⟩
      obtain ⟨j, hj⟩ := List.mem_iff_getElem?.1 hth
      exact honly j th' t' hj
    · rcases put_item_cases hkey with hkey | rfl
      · obtain ⟨hk, hnot⟩ := h.rows key hkey
        refine ⟨hgrow _ hk, fun th' hth t' ht => ?_⟩
        rcases List.mem_or_eq_of_mem_set hth with hth | rfl
        · exact hnot th' hth t' ht
        · rw [hs] at ht
          cases ht
      · exact absurd rfl hb
  · change (w.2.item (metadataKey b')).bind Row.tenantId = some t' at ht
    rw [table] at ht
    by_cases hb : b' = b
    · subst hb
      rw [Dynamo.Table.put_item_self, Option.bind_some, tenant] at ht
      rw [Function.update_self]
      exact ht
    · have hne : metadataKey b' ≠ metadataKey b := fun hk => hb (Prod.mk.inj hk).1
      rw [Dynamo.Table.put_item_ne _ _ hne] at ht
      rw [Function.update_of_ne hb]
      exact h.tenants b' t' ht
  · by_cases hb : b' = b
    · subst hb
      exact hgrow b' hknown
    · rw [Function.update_of_ne hb] at hb'
      exact hgrow b' (h.known b' hb')
  · rcases List.mem_or_eq_of_mem_set hth with hth | rfl
    · have howner := h.stages th' hth t' b' ht
      rw [Function.update_of_ne (hother b' t' howner)]
      exact howner
    · rw [hs] at ht
      cases ht
      exact Function.update_self ..
  · by_cases hb : b' = b
    · subst hb
      exact absurd ht (honly j th' t' hth)
    · rw [Function.update_of_ne hb]
      rcases Effect.getElem?_set_cases hth with ⟨rfl, rfl⟩ | ⟨_, hth⟩
      · rw [hs] at ht
        cases ht
      · obtain ⟨hk, hn, hd⟩ := h.drawn j th' t' b' hth ht
        exact ⟨hgrow b' hk, hn, hd⟩

theorem Owned.step (h : Owned owner drawer c) (hi : c.threads[i]? = some th)
    (hgrow : ∀ u ∈ c.world.1.uuids, u ∈ w.1.uuids)
    (hstep : Step c.world w op ans (stageOf th) (stageOf (th.resume k ans))) :
    ∃ owner' drawer', Owned owner' drawer'
      { world := w, threads := c.threads.set i (th.resume k ans) } := by
  have hmem := List.mem_of_getElem? hi
  generalize hs : stageOf th = s at hstep
  generalize hs' : stageOf (th.resume k ans) = s' at hstep
  -- what a request owns it owned before
  have howns : ∀ t b, s.owns = some (t, b) → owner b = some t := fun t b ht =>
    h.stages th hmem t b (hs ▸ ht)
  cases hstep with
  | draw _ fresh known table => exact ⟨_, _, h.draw hi hgrow fresh known table hs'⟩
  | create tenant _ table => exact ⟨_, _, h.create hi hgrow hs hs' tenant table⟩
  | aside s table _ _ =>
    refine ⟨owner, drawer, h.act hi hgrow (fun key hkey => ?_) (fun b t ht => ?_) ?_ ?_⟩
    · exact .inl (table ▸ hkey)
    · exact table ▸ ht
    · exact fun t b ht => howns t b (hs' ▸ ht)
    · exact fun t b ht => hs.trans (hs'.symm.trans ht)
  | @enter t b sub row item tenant table =>
    refine ⟨owner, drawer, h.act hi hgrow (fun key hkey => ?_) (fun b t ht => ?_) ?_ ?_⟩
    · exact .inl (table ▸ hkey)
    · exact table ▸ ht
    · intro t' b' ht
      rw [hs'] at ht
      cases ht
      refine h.tenants b t ?_
      rw [item]
      exact tenant
    · intro t' b' ht
      rw [hs'] at ht
      cases ht
  | @putPage t b n row ifAbsent hn table =>
    refine ⟨owner, drawer, h.act hi hgrow (fun key hkey => ?_) (fun b' t' ht => ?_) ?_ ?_⟩
    · rw [table] at hkey
      refine (put_item_cases hkey).imp_right ?_
      rintro rfl
      exact ⟨t, by rw [hs]; rfl⟩
    · rwa [table, put_tenants b' fun hk => absurd hk (page_ne_metadata hn)] at ht
    · exact fun t' b' ht => howns t' b' (hs' ▸ ht)
    · exact fun t' b' ht => hs.trans (hs'.symm.trans ht)
  | @delete t b n table =>
    refine ⟨owner, drawer, h.act hi hgrow (fun key hkey => ?_) (fun b' t' ht => ?_) ?_ ?_⟩
    · rw [table] at hkey
      obtain ⟨row, hrow⟩ := Option.isSome_iff_exists.1 hkey
      rw [(Dynamo.Table.delete_item_eq_some.1 hrow).2]
      exact .inl rfl
    · rw [table] at ht
      obtain ⟨row, hrow, htenant⟩ := Option.bind_eq_some_iff.1 ht
      rw [(Dynamo.Table.delete_item_eq_some.1 hrow).2]
      exact htenant
    · exact fun t' b' ht => howns t' b' (hs' ▸ ht)
    · exact fun t' b' ht => hs.trans (hs'.symm.trans ht)
  | @lock t b now row _ _ tenant table =>
    refine ⟨owner, drawer, h.act hi hgrow (fun key hkey => ?_) (fun b' t' ht => ?_) ?_ ?_⟩
    · rw [table] at hkey
      refine (put_item_cases hkey).imp_right ?_
      rintro rfl
      exact ⟨t, by rw [hs]; rfl⟩
    · rwa [table, put_tenants b' fun _ => tenant] at ht
    · intro t' b' ht
      rw [hs'] at ht
      cases ht
      exact howns t b rfl
    · intro t' b' ht
      rw [hs'] at ht
      cases ht
  | @stamp t b n now row hn table =>
    refine ⟨owner, drawer, h.act hi hgrow (fun key hkey => ?_) (fun b' t' ht => ?_) ?_ ?_⟩
    · rw [table] at hkey
      refine (put_item_cases hkey).imp_right ?_
      rintro rfl
      exact ⟨t, by rw [hs]; rfl⟩
    · rwa [table, put_tenants b' fun hk => absurd hk (page_ne_metadata hn)] at ht
    · exact fun t' b' ht => howns t' b' (hs' ▸ ht)
    · exact fun t' b' ht => hs.trans (hs'.symm.trans ht)
  | @rollBack t b row tenant table =>
    refine ⟨owner, drawer, h.act hi hgrow (fun key hkey => ?_) (fun b' t' ht => ?_) ?_ ?_⟩
    · rw [table] at hkey
      refine (put_item_cases hkey).imp_right ?_
      rintro rfl
      exact ⟨t, by rw [hs]; rfl⟩
    · rwa [table, put_tenants b' fun _ => tenant] at ht
    · intro t' b' ht
      rw [hs'] at ht
      cases ht
      exact howns t b rfl
    · intro t' b' ht
      rw [hs'] at ht
      cases ht

end

/-! ## The lock -/

def isSubmitted (b : String) (w : World × Table) : Bool :=
  ((w.2.item (metadataKey b)).bind Row.submittedAt).isSome

/-- A rollback frees the lock, and so does a deletion of the row. -/
def submissionLock (pdf : PdfLibrary Page) (b : String) : Effect.Latch (buildPool pdf) where
  closed := isSubmitted b
  takes  := onTable (TableOp.isLock b)
  frees ev := onTable (TableOp.isRollback b) ev || onTable (TableOp.isRemoval b) ev

section
open BuildStage

variable {w w' : World × Table} {s s' : BuildStage} {op : tableSig.Op} {ans : tableSig.Ans op} {b : String}

theorem isSubmitted_congr (h : w'.2.item (metadataKey b) = w.2.item (metadataKey b)) :
    isSubmitted b w' = isSubmitted b w := by
  unfold isSubmitted
  rw [h]

theorem isSubmitted_rowAt : isSubmitted b w = (rowAt w.2 (metadataKey b)).submittedAt.isSome := by
  unfold isSubmitted rowAt
  cases w.2.item (metadataKey b) <;> rfl

theorem isSubmitted_put {row : Row} (h : w'.2 = w.2.put (metadataKey b) row) :
    isSubmitted b w' = row.submittedAt.isSome := by
  unfold isSubmitted
  rw [h, Dynamo.Table.put_item_self, Option.bind_some]

theorem isSubmitted_put_ne {key : PageKey} {row : Row} (h : w'.2 = w.2.put key row)
    (hk : metadataKey b ≠ key) : isSubmitted b w' = isSubmitted b w :=
  isSubmitted_congr (by rw [h, Dynamo.Table.put_item_ne _ _ hk])

theorem metadataKey_ne {b' : String} (h : b' ≠ b) : metadataKey b ≠ metadataKey b' :=
  fun hk => h (Prod.mk.inj hk).1.symm

/-- A call that does not take the lock and leaves `submittedAt` alone. -/
theorem respects_of_eq (htakes : onTable (TableOp.isLock b) ⟨op, ans⟩ = false)
    (hsame : isSubmitted b w' = isSubmitted b w) : (submissionLock pdf b).Respects w ⟨op, ans⟩ w' where
  takes h := by
    change onTable (TableOp.isLock b) ⟨op, ans⟩ = true at h
    rw [htakes] at h
    cases h
  stays _ h := hsame.trans h

theorem Step.respects (h : Step w w' op ans s s')
    (hnew : ∀ t, s = .drawn t b → w.2.item (metadataKey b) = none) :
    (submissionLock pdf b).Respects w ⟨op, ans⟩ w' := by
  cases h with
  | aside s table change _ =>
    exact respects_of_eq (onTable_mono (fun _ => isChange_of_isLock) (change b))
      (isSubmitted_congr (by rw [table]))
  | draw _ _ _ table => exact respects_of_eq rfl (isSubmitted_congr (by rw [table]))
  | enter _ _ table => exact respects_of_eq rfl (isSubmitted_congr (by rw [table]))
  | @create t b' row _ _ table =>
    by_cases hb : b' = b
    · subst hb
      refine ⟨fun h => (by cases h), fun _ h => ?_⟩
      change isSubmitted b' w = true at h
      unfold isSubmitted at h
      rw [hnew t rfl] at h
      cases h
    · exact respects_of_eq rfl (isSubmitted_put_ne table (metadataKey_ne hb))
  | putPage hn table => exact respects_of_eq rfl (isSubmitted_put_ne table (page_ne_metadata hn).symm)
  | @delete t b' n table =>
    by_cases hk : metadataKey b = (b', n)
    · refine ⟨fun h => (by cases h), fun h => ?_⟩
      simp [submissionLock, onTable, landed, TableOp.isRemoval, TableOp.isRollback, hk] at h
    · exact respects_of_eq rfl (isSubmitted_congr (by rw [table, Dynamo.Table.delete_item_ne _ hk]))
  | @lock t b' now row free set _ table =>
    by_cases hb : b' = b
    · subst hb
      refine ⟨fun _ => ⟨?_, ?_⟩, fun _ h => ?_⟩
      · change isSubmitted b' w = false
        rw [isSubmitted_rowAt, free]
        rfl
      · change isSubmitted b' w' = true
        rw [isSubmitted_put table, set]
        rfl
      · change isSubmitted b' w = true at h
        rw [isSubmitted_rowAt, free] at h
        cases h
    · refine respects_of_eq ?_ (isSubmitted_put_ne table (metadataKey_ne hb))
      simp [onTable, landed, TableOp.isLock, metadataKey, hb]
  | @stamp t b' n now row hn table =>
    refine respects_of_eq ?_ (isSubmitted_put_ne table (page_ne_metadata hn).symm)
    simp [onTable, landed, TableOp.isLock, stampRequest]
  | @rollBack t b' row _ table =>
    by_cases hb : b' = b
    · subst hb
      refine ⟨fun h => (by cases h), fun h => ?_⟩
      simp [submissionLock, onTable, landed, TableOp.isRollback] at h
    · exact respects_of_eq rfl (isSubmitted_put_ne table (metadataKey_ne hb))

end

/-! ## Every run -/

structure BuildInv (c : Effect.Config (buildPool pdf)) : Prop where
  shown    : ∀ th ∈ c.threads, Shown th
  owned    : ∃ owner drawer, Owned owner drawer c
  balanced : ∀ b, (submissionLock pdf b).Balanced c

section
variable {w : World × Table} {ms : List (Effect.Move (buildPool pdf))} {c : Effect.Config (buildPool pdf)}

theorem buildInv_act {i : Nat} {ch : Choice} {th : Effect.Thread (buildPool pdf)} {op : tableSig.Op}
    {k : tableSig.Ans op → BProg Unit} {ans : tableSig.Ans op} {w' : World × Table} (h : BuildInv c)
    (hn : c.Next i th op k) (ha : (stageOf th).allow op)
    (hx : (buildPool pdf).exec c.world op ch = some (ans, w')) :
    BuildInv ({ world := w', threads := c.threads.set i (th.resume k ans) } :
      Effect.Config (buildPool pdf)) := by
  have hmem := List.mem_of_getElem? hn.1
  have hstep : Step c.world w' op ans (stageOf th) (stageOf (th.resume k ans)) := step_of ha hx
  obtain ⟨owner, drawer, howned⟩ := h.owned
  refine ⟨fun th' hth' => ?_, howned.step hn.1 (uuids_grow hx) hstep, fun b => ?_⟩
  · rcases List.mem_or_eq_of_mem_set hth' with hth' | rfl
    · exact h.shown th' hth'
    · exact (h.shown th hmem).step hstep
  · refine (h.balanced b).act hn.1 (hstep.respects fun t ht => ?_)
    cases hrow : c.world.2.item (metadataKey b) with
    | none => rfl
    | some row =>
      exact absurd ht ((howned.rows (metadataKey b) (by rw [hrow]; rfl)).2 th hmem t)

theorem buildInv_play (hw : IdsDrawn w) (h : Effect.play (Effect.Config.init w) ms = some c) :
    buildProtocol.Coupled Request.stage (fun s _ => s.Settled) (fun _ _ => True) c ∧ BuildInv c := by
  have halong : Effect.Along (fun _ _ => True) (Effect.Config.init (P := buildPool pdf) w) ms :=
    Effect.along_iff_split.2 fun _ _ _ _ _ _ => trivial
  refine Effect.Protocol.protocol_inv (R := buildProtocol) (P := buildPool pdf) Request.stage
    (J := BuildInv) obeys_request ?_ ?_ ?_ (fun _ ht => (by cases ht)) ?_ halong h
  · rintro c e hinv _
    obtain ⟨owner, drawer, howned⟩ := hinv.owned
    refine ⟨fun th hth => ?_, ⟨owner, drawer, howned.start e⟩, fun b => (hinv.balanced b).start e⟩
    rcases List.mem_append.1 hth with hth | hth
    · exact hinv.shown th hth
    · obtain rfl := List.mem_singleton.1 hth
      exact shown_init e
  · rintro c i ch th op k ans w' hinv _ _ hn ha hx
    exact ⟨trivial, buildInv_act hinv hn ha hx⟩
  · rintro c i th hinv _ hi
    obtain ⟨owner, drawer, howned⟩ := hinv.owned
    refine ⟨fun th' hth => ?_, ⟨owner, drawer, howned.crash hi⟩, fun b => (hinv.balanced b).crash hi⟩
    rcases List.mem_or_eq_of_mem_set hth with hth | rfl
    · exact hinv.shown th' hth
    · obtain ⟨h₁, h₂, h₃, h₄, h₅, h₆⟩ := hinv.shown th (List.mem_of_getElem? hi)
      exact ⟨h₁, h₂, h₃, h₄, h₅, h₆⟩
  · exact ⟨fun th hth => (by cases hth), ⟨_, _, owned_init hw⟩,
      fun b => Effect.Latch.balanced_init (P := buildPool pdf) w⟩

/-- A submission that has answered after a landed upload still has its lock to its name. -/
theorem locks_of_accepted {b : String} {th : Effect.Thread (buildPool pdf)} (hshown : Shown th)
    (hobeys : buildProtocol.Obeys (fun s _ => s.Settled) (fun _ _ => True) (stageOf th) th.prog)
    (hsubmits : th.entry.submits b = true) (hanswered : hasAnswered th = true)
    (hput : th.trace.any isUpload = true) :
    (stageOf th).locks b = 1 ∧ (stageOf th).rollbacks b = 0 := by
  have hsettled : (stageOf th).Settled := by
    unfold hasAnswered at hanswered
    cases hprog : th.prog with
    | ret u =>
      rw [hprog] at hobeys
      exact hobeys
    | _ =>
      rw [hprog] at hanswered
      cases hanswered
  have hto := hshown.submits b hsubmits
  have hnothing := hshown.uploads
  rw [hput] at hnothing
  cases hs : stageOf th with
  | locked t b' =>
    rw [hs] at hto
    obtain rfl : b' = b := by simpa [BuildStage.submitsTo] using hto
    simp [BuildStage.locks, BuildStage.rollbacks]
  | rolledBack t b' =>
    rw [hs] at hsettled
    exact hsettled.elim
  | outside t b' sub =>
    rw [hs] at hto hnothing
    cases sub with
    | true => cases hnothing rfl
    | false => cases hto
  | inside t b' sub =>
    rw [hs] at hto hnothing
    cases sub with
    | true => cases hnothing rfl
    | false => cases hto
  | _ =>
    rw [hs] at hto
    cases hto

/-- A request has taken the lock at least as often as it has rolled it back. -/
theorem rollbacks_le_locks (s : BuildStage) (b : String) : s.rollbacks b ≤ s.locks b := by
  cases s <;> simp [BuildStage.rollbacks, BuildStage.locks]

theorem accepted_add_rollbacks_le {b : String}
    (hc : buildProtocol.Coupled Request.stage (fun s _ => s.Settled) (fun _ _ => True) c)
    (hinv : BuildInv c) :
    accepted b c + c.calls (onTable (TableOp.isRollback b)) ≤ c.calls (onTable (TableOp.isLock b)) := by
  refine Effect.countP_add_calls_le fun th hth => ?_
  have hshown := hinv.shown th hth
  rw [hshown.locks b, hshown.rollbacks b]
  split
  next hacc =>
    obtain ⟨hacc, hput⟩ := Bool.and_eq_true_iff.1 hacc
    obtain ⟨hsubmits, hanswered⟩ := Bool.and_eq_true_iff.1 hacc
    obtain ⟨hlock, hroll⟩ := locks_of_accepted hshown (hc th hth) hsubmits hanswered hput
    omega
  next =>
    have := rollbacks_le_locks (stageOf th) b
    omega

/-- One page of the build `b` of the tenant `t` has been uploaded. -/
def onePageWorld : World × Table :=
  ({ objects := [(("pre", "t/b-page-1.pdf"), { body := .raw (ascii "%PDF") })], uuids := ["b"] },
    (Dynamo.Table.empty.put ("b", 0) (metadataRow 0 ⟨"t", "k"⟩ {})).put ("b", 1)
      (pageRow (pageItem 0 "t/b-page-1.pdf" (some "scan.pdf") none)))

theorem idsDrawn_onePageWorld : IdsDrawn onePageWorld := by
  intro k hk
  rcases put_item_cases hk with hk | rfl
  · rcases put_item_cases hk with hk | rfl
    · cases hk
    · exact List.mem_cons_self
  · exact List.mem_cons_self

def onePagePdf : PdfLibrary Bytes where
  pages b := some [b]
  imagePages _ := none
  write := List.flatten

def onePageEnv : EnvConfig :=
  { documentaiInputLocation := some "s3://in", documentaiPreprocessingLocation := some "s3://pre" }

/-- Calls of the request `i` that draw the id `u`, if any. -/
def actsOf (i n : Nat) (u : String) : List (Effect.Move (buildPool onePagePdf)) :=
  List.replicate n (.act i { uuid := u })

/-- The metadata row is deleted by a request that found the build not submitted: two submissions
are accepted, one before the deletion and one after it. -/
def raceMoves : List (Effect.Move (buildPool onePagePdf)) :=
  [.start (.deletePage onePageEnv ⟨"t", "k"⟩ "b" 0),
    .start (.submit onePageEnv ⟨"t", "k"⟩ "b" (some "x")),
    .start (.submit onePageEnv ⟨"t", "k"⟩ "b" (some "x"))] ++
  actsOf 0 3 "" ++ actsOf 1 8 "" ++ actsOf 1 1 "u1" ++ actsOf 1 1 "u2" ++ actsOf 1 4 "" ++
  actsOf 2 3 "" ++ actsOf 0 1 "" ++ actsOf 2 5 "" ++ actsOf 2 1 "u3" ++ actsOf 2 1 "u4" ++ actsOf 2 4 ""

/-- In every run a build is accepted at most once more than its metadata row is deleted: failed
submissions, rollbacks and races between submissions never let it be processed twice. -/
theorem submitted_once (hw : IdsDrawn w) (h : Effect.play (Effect.Config.init w) ms = some c)
    (b : String) : accepted b c ≤ removals b c + 1 := by
  obtain ⟨hc, hinv⟩ := buildInv_play hw h
  have hacc := accepted_add_rollbacks_le (b := b) hc hinv
  have htakes := (hinv.balanced b).takes_le
  have hfrees : c.calls (submissionLock pdf b).frees ≤
      c.calls (onTable (TableOp.isRollback b)) + c.calls (onTable (TableOp.isRemoval b)) :=
    Effect.calls_or_le c
  change c.calls (onTable (TableOp.isLock b)) ≤ _ at htakes
  unfold removals
  omega

theorem submitted_once_race :
    ∃ c, Effect.play (Effect.Config.init onePageWorld) raceMoves = some c ∧ accepted "b" c = 2 ∧
      accepted "b" c ≤ removals "b" c + 1 := by
  obtain ⟨c, hc, haccepted⟩ := Option.map_eq_some_iff.1
    (show (Effect.play (Effect.Config.init onePageWorld) raceMoves).map (accepted "b") = some 2 by
      decide +kernel)
  exact ⟨c, hc, haccepted, submitted_once idsDrawn_onePageWorld hc "b"⟩

/-- In every run all requests that have ever changed a row of a build are of one tenant. -/
theorem changed_by_one_tenant (hw : IdsDrawn w) (h : Effect.play (Effect.Config.init w) ms = some c)
    {b : String} {th th' : Effect.Thread (buildPool pdf)} (hth : th ∈ c.threads) (hth' : th' ∈ c.threads)
    (hb : changes b th = true) (hb' : changes b th' = true) :
    th.entry.tenantId = th'.entry.tenantId := by
  obtain ⟨_, hinv⟩ := buildInv_play hw h
  obtain ⟨owner, drawer, howned⟩ := hinv.owned
  have htenant : ∀ th ∈ c.threads, changes b th = true → th.entry.tenantId = owner b := by
    intro th hth hb
    obtain ⟨t, ht⟩ := (hinv.shown th hth).owns b hb
    rw [howned.stages th hth t b ht, ← (hinv.shown th hth).tenant]
    cases hs : stageOf th <;> rw [hs] at ht <;> cases ht <;> rfl
  rw [htenant th hth hb, htenant th' hth' hb']

theorem changed_by_one_tenant_race :
    ∃ c th th', Effect.play (Effect.Config.init onePageWorld) raceMoves = some c ∧
      c.threads[0]? = some th ∧ c.threads[1]? = some th' ∧
      th.entry.tenantId = th'.entry.tenantId := by
  obtain ⟨c, hc, hchanges⟩ := Option.map_eq_some_iff.1
    (show (Effect.play (Effect.Config.init onePageWorld) raceMoves).map
      (fun c => c.threads.map (changes "b")) = some [true, true, true] by decide +kernel)
  obtain ⟨th, ts, hthreads, hth, hrest⟩ := List.map_eq_cons_iff.1 hchanges
  obtain ⟨th', ts', rfl, hth', _⟩ := List.map_eq_cons_iff.1 hrest
  refine ⟨c, th, th', hc, by rw [hthreads]; rfl, by rw [hthreads]; rfl, ?_⟩
  exact changed_by_one_tenant idsDrawn_onePageWorld hc (by rw [hthreads]; simp) (by rw [hthreads]; simp)
    hth hth'

end

end DocumentAi.Builds
