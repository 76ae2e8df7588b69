import DocumentAi.Lib.Protocol
import Mathlib.Logic.Function.Basic

/-!
# Caches with an expiry, one dictionary operation at a time

Processes keep values of one source, each in a dictionary of its own. A thread can be interrupted
between two operations on the dictionary, between its read of the source and its write to the
dictionary, and anywhere else. An entry that is found expired is deleted by whoever finds it.

| here | meaning |
| --- | --- |
| `get`, `add`, `invalidate` | the cache, by the operations of its dictionary |
| `system`        | a pool of threads over the dictionaries, the source and a clock that never goes back |
| `Policy`        | the key and the life of an entry, and what may be answered for a value |
| `Stage`         | what a thread holds, read off its answers |
| `replies_sourced` | an answer is read from the source, or was put no longer ago than an entry lives |
| `Settled`       | the source has a value that no thread will put another one beside |
| `renewed_after_life`, `renewed_after_invalidation` | from when on threads answer with that value |
-/

namespace TtlCache

open Effect (Sig Sys Prog Protocol Config Thread Event Move)
open Effect.Protocol (Obeys obeys_bind obeys_perform obeys_ret obeys_raise obeys_ite)

variable {K T V A E : Type}

structure Item (V : Type) where
  value     : V
  expiresAt : Nat

/-- `key` is a key of a dictionary, `k` one of the source; `other` is a request about anything else. -/
inductive Op (K T V A : Type) where
  | contains (pid : Nat) (key : T)
  | getItem (pid : Nat) (key : T)
  | setItem (pid : Nat) (key : T) (item : Item V)
  | delItem (pid : Nat) (key : T)
  | now
  | read (pid : Nat) (k : K)
  | write (k : K) (v : V)
  | other
  | reply (pid : Nat) (k : K) (a : A)

def Op.Res : Op K T V A → Type
  | contains .. => Bool
  | getItem ..  => Item V
  | now         => Nat
  | read ..     => V
  | other       => Bool
  | _           => Unit

abbrev sig (K T V A E : Type) : Sig := ⟨Op K T V A, Op.Res, E⟩

def call (op : Op K T V A) : Prog (sig K T V A E) op.Res := Prog.perform (S := sig K T V A E) op

/-! ## The cache -/

/-- An expired entry is deleted. -/
def get (pid : Nat) (key : T) : Prog (sig K T V A E) (Option V) := do
  let found : Bool ← call (.contains pid key)
  if found then
    let item : Item V ← call (.getItem pid key)
    let now : Nat ← call .now
    if item.expiresAt < now then
      let _ : Unit ← call (.delItem pid key)
      return none
    else return some item.value
  else return none

def add (pid : Nat) (key : T) (value : V) (life : Nat) : Prog (sig K T V A E) Unit := do
  let now : Nat ← call .now
  call (.setItem pid key ⟨value, now + life⟩)

def invalidate (pid : Nat) (key : T) : Prog (sig K T V A E) Unit := do
  let found : Bool ← call (.contains pid key)
  if found then call (.delItem pid key)
  else return ()

/-! ## The world -/

structure World (K T V E : Type) where
  dict   : Nat → T → Option (Item V)
  source : K → Except E V
  clock  : Nat

/-- The environment's part in one operation. -/
structure Choice (E : Type) where
  fail  : Option E := none
  tick  : Nat := 0
  found : Bool := true

namespace World

variable [DecidableEq K] [DecidableEq T]

def set (w : World K T V E) (pid : Nat) (key : T) (item : Option (Item V)) : World K T V E :=
  { w with dict := Function.update w.dict pid (Function.update (w.dict pid) key item) }

/-- `keyError` is raised for a key that is not in the dictionary. -/
def exec (keyError : E) (w : World K T V E) (op : Op K T V A) (ch : Choice E) :
    Option ((sig K T V A E).Ans op × World K T V E) :=
  match op with
  | .contains pid key     => some (.ok (w.dict pid key).isSome, w)
  | .getItem pid key      =>
    match w.dict pid key with
    | some item => some (.ok item, w)
    | none      => some (.error keyError, w)
  | .setItem pid key item => some (.ok (), w.set pid key (some item))
  | .delItem pid key      =>
    match w.dict pid key with
    | some _ => some (.ok (), w.set pid key none)
    | none   => some (.error keyError, w)
  | .now                  => some (.ok (w.clock + ch.tick), { w with clock := w.clock + ch.tick })
  | .read _ k             =>
    match ch.fail with
    | some e => some (.error e, w)
    | none   => some (w.source k, w)
  | .write k v            =>
    match ch.fail with
    | some e => some (.error e, w)
    | none   => some (.ok (), { w with source := Function.update w.source k (.ok v) })
  | .other                =>
    match ch.fail with
    | some e => some (.error e, w)
    | none   => some (.ok ch.found, w)
  | .reply ..             => some (.ok (), w)

end World

section
variable [DecidableEq K] [DecidableEq T]

abbrev system (keyError : E) {Entry : Type} (body : Entry → Prog (sig K T V A E) Unit) :
    Sys (sig K T V A E) where
  World  := World K T V E
  Choice := Choice E
  exec   := World.exec keyError
  Entry  := Entry
  body   := body

end

/-- A dictionary can lack a key, the source can fail, and nothing else can go wrong. -/
def Possible : (op : Op K T V A) → (sig K T V A E).Ans op → Prop
  | .getItem .., _ | .delItem .., _ | .read .., _ | .write .., _ | .other, _ => True
  | _, .ok _    => True
  | _, .error _ => False

/-- The answer says that the entry is not in the dictionary. -/
def clears [DecidableEq T] (pid : Nat) (key : T) : (op : Op K T V A) → (sig K T V A E).Ans op → Bool
  | .contains pid' key', .ok false => decide (pid' = pid ∧ key' = key)
  | .delItem pid' key', .ok _      => decide (pid' = pid ∧ key' = key)
  | _, _                           => false

/-- Operations that only look. -/
def Op.isLook : Op K T V A → Bool
  | contains .. | getItem .. | read .. | other | reply .. => true
  | _ => false

section
variable [DecidableEq K] [DecidableEq T] {keyError : E} {w w' : World K T V E} {op : Op K T V A}
  {ch : Choice E} {ans : (sig K T V A E).Ans op}

theorem exec_look (h : w.exec keyError op ch = some (ans, w')) (hop : op.isLook = true) : w' = w := by
  cases op with
  | contains pid key => exact (Prod.mk.inj (Option.some.inj h)).2.symm
  | reply pid k a => exact (Prod.mk.inj (Option.some.inj h)).2.symm
  | getItem pid key =>
    simp only [World.exec] at h
    split at h <;> exact (Prod.mk.inj (Option.some.inj h)).2.symm
  | read pid k =>
    simp only [World.exec] at h
    split at h <;> exact (Prod.mk.inj (Option.some.inj h)).2.symm
  | other =>
    simp only [World.exec] at h
    split at h <;> exact (Prod.mk.inj (Option.some.inj h)).2.symm
  | setItem | delItem | now | write => cases hop

omit [DecidableEq K] in
theorem set_dict (w : World K T V E) (pid : Nat) (key : T) (item : Option (Item V)) (pid' : Nat)
    (key' : T) : (w.set pid key item).dict pid' key' =
      if pid' = pid ∧ key' = key then item else w.dict pid' key' := by
  unfold World.set
  by_cases hpid : pid' = pid
  · subst hpid
    by_cases hkey : key' = key
    · simp [hkey]
    · simp [hkey]
  · simp [hpid]

/-- What is in a dictionary was there, or is what the operation sets. -/
theorem exec_dict (h : w.exec keyError op ch = some (ans, w')) {pid : Nat} {key : T} {item : Item V}
    (hitem : w'.dict pid key = some item) :
    w.dict pid key = some item ∨ op = .setItem pid key item := by
  cases op with
  | contains | read | getItem | other | reply =>
    rw [exec_look h rfl] at hitem
    exact .inl hitem
  | now =>
    obtain ⟨_, rfl⟩ := Prod.mk.inj (Option.some.inj h)
    exact .inl hitem
  | write k v =>
    simp only [World.exec] at h
    split at h <;> (obtain ⟨_, rfl⟩ := Prod.mk.inj (Option.some.inj h); exact .inl hitem)
  | setItem pid' key' item' =>
    obtain ⟨_, rfl⟩ := Prod.mk.inj (Option.some.inj h)
    rw [set_dict] at hitem
    split at hitem
    · rename_i hsame
      obtain rfl := Option.some.inj hitem
      exact .inr (by rw [hsame.1, hsame.2])
    · exact .inl hitem
  | delItem pid' key' =>
    refine .inl ?_
    simp only [World.exec] at h
    split at h
    · obtain ⟨_, rfl⟩ := Prod.mk.inj (Option.some.inj h)
      rw [set_dict] at hitem
      split at hitem
      · cases hitem
      · exact hitem
    · obtain ⟨_, rfl⟩ := Prod.mk.inj (Option.some.inj h)
      exact hitem

/-- The source changes by a write of the key only. -/
theorem exec_source (h : w.exec keyError op ch = some (ans, w')) {k : K} (hop : ∀ v, op ≠ .write k v) :
    w'.source k = w.source k := by
  cases op with
  | contains | read | getItem | other | reply => rw [exec_look h rfl]
  | now | setItem =>
    obtain ⟨_, rfl⟩ := Prod.mk.inj (Option.some.inj h)
    rfl
  | delItem =>
    simp only [World.exec] at h
    split at h <;> (obtain ⟨_, rfl⟩ := Prod.mk.inj (Option.some.inj h); rfl)
  | write k' v =>
    simp only [World.exec] at h
    split at h
    · obtain ⟨_, rfl⟩ := Prod.mk.inj (Option.some.inj h)
      rfl
    · obtain ⟨_, rfl⟩ := Prod.mk.inj (Option.some.inj h)
      exact Function.update_of_ne (fun hk => hop v (by rw [hk])) _ _

theorem exec_clears {pid : Nat} {key : T} (h : w.exec keyError op ch = some (ans, w'))
    (hclears : clears pid key op ans = true) : w'.dict pid key = none := by
  unfold clears at hclears
  split at hclears
  · obtain ⟨rfl, rfl⟩ := of_decide_eq_true hclears
    obtain ⟨hans, rfl⟩ := Prod.mk.inj (Option.some.inj h)
    exact Option.not_isSome_iff_eq_none.1 fun hsome => by
      rw [hsome] at hans
      cases hans
  · obtain ⟨rfl, rfl⟩ := of_decide_eq_true hclears
    simp only [World.exec] at h
    split at h
    · obtain ⟨_, rfl⟩ := Prod.mk.inj (Option.some.inj h)
      rw [set_dict, if_pos ⟨rfl, rfl⟩]
    · cases (Prod.mk.inj (Option.some.inj h)).1
  · cases hclears

theorem exec_clock (h : w.exec keyError op ch = some (ans, w')) : w.clock ≤ w'.clock := by
  cases op with
  | contains | read | getItem | other | reply =>
    exact Nat.le_of_eq (congrArg World.clock (exec_look h rfl).symm)
  | now =>
    obtain ⟨_, rfl⟩ := Prod.mk.inj (Option.some.inj h)
    exact Nat.le_add_right ..
  | setItem =>
    obtain ⟨_, rfl⟩ := Prod.mk.inj (Option.some.inj h)
    exact Nat.le_refl _
  | delItem | write =>
    simp only [World.exec] at h
    split at h <;> (obtain ⟨_, rfl⟩ := Prod.mk.inj (Option.some.inj h); exact Nat.le_refl _)

theorem exec_possible (h : w.exec keyError op ch = some (ans, w')) : Possible op ans := by
  cases op with
  | getItem | delItem | read | write | other => trivial
  | contains | setItem | now | reply =>
    obtain ⟨rfl, _⟩ := Prod.mk.inj (Option.some.inj h)
    trivial

theorem exec_now {t : Nat}
    (h : w.exec (A := A) keyError .now ch = some ((.ok t : Except E Nat), w')) : t = w'.clock := by
  obtain ⟨hans, rfl⟩ := Prod.mk.inj (Option.some.inj h)
  exact (Except.ok.inj hans).symm

theorem exec_getItem {pid : Nat} {key : T} {item : Item V}
    (h : w.exec (A := A) keyError (.getItem pid key) ch = some ((.ok item : Except E (Item V)), w')) :
    w.dict pid key = some item := by
  simp only [World.exec] at h
  split at h
  · rename_i found hfound
    obtain ⟨hans, _⟩ := Prod.mk.inj (Option.some.inj h)
    obtain rfl := Except.ok.inj hans
    exact hfound
  · cases (Prod.mk.inj (Option.some.inj h)).1

theorem exec_read {pid : Nat} {k : K} {v : V}
    (h : w.exec (A := A) keyError (.read pid k) ch = some ((.ok v : Except E V), w')) :
    w.source k = .ok v := by
  simp only [World.exec] at h
  split at h
  · cases (Prod.mk.inj (Option.some.inj h)).1
  · exact (Prod.mk.inj (Option.some.inj h)).1

end

/-! ## What a thread holds -/

/-- How the cache is used: the dictionary key and the life of what is read under `k`, the answers
that may be given for a value, and those that may be given when the source could not be read. -/
structure Policy (K T V A : Type) where
  key           : K → T
  life          : K → Nat
  answers       : K → V → A → Prop
  fallback      : K → A → Prop
  key_injective : Function.Injective key

/-- `held`: an entry taken from the dictionary; `valid`: one that had not expired; `carrying`: a
value read from the source that is still to be put; `timed`: with the time of the put. -/
inductive Stage (K T V : Type) where
  | idle
  | held (pid : Nat) (key : T) (item : Item V)
  | valid (pid : Nat) (key : T) (v : V)
  | carrying (pid : Nat) (k : K) (v : V)
  | timed (pid : Nat) (k : K) (v : V) (t : Nat)
  | stored (pid : Nat) (k : K) (v : V)
  | missed (pid : Nat) (k : K)

namespace Stage

def timer (t : Nat) : Stage K T V → Stage K T V
  | held pid key item  => if item.expiresAt < t then idle else valid pid key item.value
  | carrying pid k v   => timed pid k v t
  | s                  => s

def put : Stage K T V → Stage K T V
  | timed pid k v _ => stored pid k v
  | s               => s

def next (s : Stage K T V) : (op : Op K T V A) → (sig K T V A E).Ans op → Stage K T V
  | .getItem pid key, .ok item => held pid key item
  | .now, .ok t                => s.timer t
  | .read pid k, .ok v         => carrying pid k v
  | .read pid k, .error _      => missed pid k
  | .setItem .., .ok _         => s.put
  | _, _                       => s

/-- Only what was read from the source is put, and only what is held is answered. -/
def allow (π : Policy K T V A) (s : Stage K T V) : Op K T V A → Prop
  | .setItem pid key item => ∃ k v t, s = timed pid k v t ∧ key = π.key k ∧ item = ⟨v, t + π.life k⟩
  | .reply pid k a        =>
    (∃ v, (s = valid pid (π.key k) v ∨ s = stored pid k v) ∧ π.answers k v a) ∨
      s = missed pid k ∧ π.fallback k a
  | _                     => True

end Stage

abbrev protocol (E : Type) (π : Policy K T V A) : Protocol (sig K T V A E) where
  State    := Stage K T V
  allow    := Stage.allow π
  possible := fun _ => Possible
  next     := Stage.next

/-- What an answer can do to a stage. -/
inductive Stage.Step : Stage K T V → Event (sig K T V A E) → Stage K T V → Prop where
  | stay {s ev} : Step s ev s
  | take {s pid key item} : Step s ⟨.getItem pid key, (.ok item : Except E (Item V))⟩ (.held pid key item)
  | fetch {s pid k v} : Step s ⟨.read pid k, (.ok v : Except E V)⟩ (.carrying pid k v)
  | miss {s pid k e} : Step s ⟨.read pid k, (.error e : Except E V)⟩ (.missed pid k)
  | expire {pid key item now} : Step (.held pid key item) ⟨.now, (.ok now : Except E Nat)⟩ .idle
  | pass {pid key item now} (h : now ≤ item.expiresAt) :
    Step (.held pid key item) ⟨.now, (.ok now : Except E Nat)⟩ (.valid pid key item.value)
  | date {pid k v now} :
    Step (.carrying pid k v) ⟨.now, (.ok now : Except E Nat)⟩ (.timed pid k v now)
  | put {pid k v now ev} : Step (.timed pid k v now) ev (.stored pid k v)

theorem Stage.next_step (s : Stage K T V) (op : Op K T V A) (ans : (sig K T V A E).Ans op) :
    s.Step ⟨op, ans⟩ (s.next op ans) := by
  cases op with
  | contains | delItem | write | other | reply => exact .stay
  | getItem pid key =>
    cases ans with
    | ok item => exact .take
    | error e => exact .stay
  | read pid k =>
    cases ans with
    | ok v => exact .fetch
    | error e => exact .miss
  | setItem pid key item =>
    cases ans with
    | error e => exact .stay
    | ok u =>
      cases s with
      | timed => exact .put
      | idle | held | valid | carrying | stored | missed => exact .stay
  | now =>
    cases ans with
    | error e => exact .stay
    | ok now =>
      cases s with
      | held pid key item =>
        change Step (.held pid key item) ⟨.now, .ok now⟩ ((held pid key item).timer now)
        simp only [Stage.timer]
        split
        · exact .expire
        · exact .pass (Nat.le_of_not_lt ‹_›)
      | carrying => exact .date
      | idle | valid | timed | stored | missed => exact .stay

/-- The thread has read `v` under `k` and has still to put it. -/
def Stage.Carries (s : Stage K T V) (pid : Nat) (k : K) (v : V) : Prop :=
  s = .carrying pid k v ∨ ∃ now, s = .timed pid k v now

theorem carries_step {s s' : Stage K T V} {ev : Event (sig K T V A E)} (hs : s.Step ev s')
    {pid : Nat} {k : K} {v : V} (h : s'.Carries pid k v) :
    s.Carries pid k v ∨ ev = ⟨.read pid k, (.ok v : Except E V)⟩ := by
  rcases h with rfl | ⟨now, rfl⟩
  · cases hs with
    | stay => exact .inl (.inl rfl)
    | fetch => exact .inr rfl
  · cases hs with
    | stay => exact .inl (.inr ⟨now, rfl⟩)
    | date => exact .inl (.inl rfl)

/-! ## The programs of the cache obey -/

section
variable {π : Policy K T V A} {s : Stage K T V} {pid : Nat} {k : K}

theorem get_obeys (key : T) : (protocol E π).Obeys
    (fun (s' : Stage K T V) r => ∀ v, r = some v → s' = .valid pid key v) (fun _ _ => True) s
    (get pid key) := by
  refine obeys_bind (Q := fun _ _ => True) (obeys_perform trivial (fun _ _ => trivial)
    fun _ _ => trivial) fun s found _ => ?_
  refine obeys_ite (fun _ => ?_) fun _ => obeys_ret fun v hv => (by cases hv)
  refine obeys_bind (Q := fun (s' : Stage K T V) item => s' = .held pid key item)
    (obeys_perform trivial (fun _ _ => rfl) fun _ _ => trivial) fun s item hs => ?_
  subst hs
  refine obeys_bind (Q := fun (s' : Stage K T V) now => s' = (Stage.held pid key item).timer now)
    (obeys_perform trivial (fun _ _ => rfl) fun _ _ => trivial) fun s now hs => ?_
  refine obeys_ite (fun _ => ?_) fun hnot => obeys_ret fun v hv => ?_
  · exact obeys_bind (Q := fun _ _ => True) (obeys_perform trivial (fun _ _ => trivial)
      fun _ _ => trivial) fun s _ _ => obeys_ret fun v hv => (by cases hv)
  · obtain rfl := Option.some.inj hv
    rw [hs, Stage.timer, if_neg hnot]

/-- What has been read is put, and that cannot fail. -/
theorem add_obeys {v : V} : (protocol E π).Obeys
    (fun (s' : Stage K T V) (_ : Unit) => s' = .stored pid k v) (fun _ _ => False)
    (.carrying pid k v) (add pid (π.key k) v (π.life k)) := by
  refine obeys_bind (Q := fun (s' : Stage K T V) now => s' = .timed pid k v now)
    (obeys_perform trivial (fun _ _ => rfl) fun _ h => h) fun s now hs => ?_
  subst hs
  exact obeys_perform (R := protocol E π) (s := Stage.timed pid k v now)
    ⟨k, v, now, rfl, rfl, rfl⟩ (fun _ _ => rfl) fun _ h => h

theorem read_obeys : (protocol E π).Obeys (fun (s' : Stage K T V) v => s' = .carrying pid k v)
    (fun s' _ => s' = .missed pid k) s (call (.read pid k)) :=
  obeys_perform trivial (fun _ _ => rfl) fun _ _ => rfl

theorem invalidate_obeys (key : T) : (protocol E π).Obeys (fun _ _ => True) (fun _ _ => True) s
    (invalidate pid key) := by
  refine obeys_bind (Q := fun _ _ => True) (obeys_perform trivial (fun _ _ => trivial)
    fun _ _ => trivial) fun s found _ => ?_
  exact obeys_ite (fun _ => obeys_perform trivial (fun _ _ => trivial) fun _ _ => trivial)
    fun _ => obeys_ret trivial

end

/-! ## What a thread was told -/

section
variable [DecidableEq K] [DecidableEq T] {keyError : E} {Entry : Type}
  {body : Entry → Prog (sig K T V A E) Unit} {π : Policy K T V A}

abbrev stageOf (t : Thread (system keyError body)) : Stage K T V :=
  (protocol E π).loc (fun _ => .idle) t

section
variable (π) (t : Thread (system keyError body))

def Got (pid : Nat) (key : T) (item : Item V) : Prop :=
  (⟨.getItem pid key, (.ok item : Except E (Item V))⟩ : Event (sig K T V A E)) ∈ t.trace

def Saw (now : Nat) : Prop :=
  (⟨.now, (.ok now : Except E Nat)⟩ : Event (sig K T V A E)) ∈ t.trace

def DidRead (pid : Nat) (k : K) (v : V) : Prop :=
  (⟨.read pid k, (.ok v : Except E V)⟩ : Event (sig K T V A E)) ∈ t.trace

def Missed (pid : Nat) (k : K) : Prop :=
  ∃ e, (⟨.read pid k, (.error e : Except E V)⟩ : Event (sig K T V A E)) ∈ t.trace

def Replied (pid : Nat) (k : K) (a : A) : Prop :=
  ∃ ans, (⟨.reply pid k a, ans⟩ : Event (sig K T V A E)) ∈ t.trace

/-- The thread has put what it read, with a life from its own time. -/
def HasPut (pid : Nat) (k : K) (v : V) (now : Nat) : Prop :=
  DidRead t pid k v ∧ Saw t now ∧
    ∃ ans, (⟨.setItem pid (π.key k) ⟨v, now + π.life k⟩, ans⟩ : Event (sig K T V A E)) ∈ t.trace

/-- Where an answer comes from: the thread's own read, an entry that it found unexpired, or the
default after a read that failed. -/
def Sourced (pid : Nat) (k : K) (a : A) : Prop :=
  (∃ v, π.answers k v a ∧ (DidRead t pid k v ∨
    ∃ item now, item.value = v ∧ Got t pid (π.key k) item ∧ Saw t now ∧ now ≤ item.expiresAt)) ∨
  π.fallback k a ∧ Missed t pid k

/-- What the stage of a thread says of its answers. -/
def Backed : Stage K T V → Prop
  | .idle               => True
  | .held pid key item  => Got t pid key item
  | .valid pid key v    => ∃ item now, item.value = v ∧ Got t pid key item ∧ Saw t now ∧
    now ≤ item.expiresAt
  | .carrying pid k v   => DidRead t pid k v
  | .timed pid k v now  => DidRead t pid k v ∧ Saw t now
  | .stored pid k v     => DidRead t pid k v
  | .missed pid k       => Missed t pid k

end

section
variable {t : Thread (system keyError body)} {op : Op K T V A}
  {k : (sig K T V A E).Ans op → Prog (sig K T V A E) Unit} {ans : (sig K T V A E).Ans op}

/-- Answers are kept. -/
theorem mem_resume {ev : Event (sig K T V A E)} (h : ev ∈ t.trace) : ev ∈ (t.resume k ans).trace :=
  List.mem_cons_of_mem _ h

theorem mem_resume_self : (⟨op, ans⟩ : Event (sig K T V A E)) ∈ (t.resume k ans).trace :=
  List.mem_cons_self

theorem Backed.resume {s : Stage K T V} (h : Backed t s) : Backed (t.resume k ans) s := by
  cases s with
  | idle => trivial
  | held pid key item => exact mem_resume h
  | valid pid key v =>
    obtain ⟨item, now, hv, hgot, hsaw, hle⟩ := h
    exact ⟨item, now, hv, mem_resume hgot, mem_resume hsaw, hle⟩
  | carrying pid k v => exact mem_resume h
  | timed pid k v now => exact ⟨mem_resume h.1, mem_resume h.2⟩
  | stored pid k v => exact mem_resume h
  | missed pid k =>
    obtain ⟨e, he⟩ := h
    exact ⟨e, mem_resume he⟩

/-- An answer moves a thread to a stage that its answers back. -/
theorem Backed.next {s : Stage K T V} (h : Backed t s) : Backed (t.resume k ans) (s.next op ans) := by
  have hold : Backed (t.resume k ans) s := h.resume
  have hev : (⟨op, ans⟩ : Event (sig K T V A E)) ∈ (t.resume k ans).trace := mem_resume_self
  have hstep := s.next_step op ans
  generalize s.next op ans = s' at hstep
  generalize (⟨op, ans⟩ : Event (sig K T V A E)) = ev at hev hstep
  cases hstep with
  | stay => exact hold
  | take => exact hev
  | fetch => exact hev
  | miss => exact ⟨_, hev⟩
  | expire => trivial
  | pass hle => exact ⟨_, _, rfl, hold, hev, hle⟩
  | date => exact ⟨hold, hev⟩
  | put => exact hold.1

/-- The stage of a thread and its replies are backed by what it was told. -/
structure Told (π : Policy K T V A) (t : Thread (system keyError body)) : Prop where
  stage   : Backed t (stageOf (π := π) t)
  replies : ∀ pid k a, Replied t pid k a → Sourced π t pid k a

theorem Sourced.resume {pid : Nat} {k' : K} {a : A} (h : Sourced π t pid k' a) :
    Sourced π (t.resume k ans) pid k' a := by
  rcases h with ⟨v, hv, hread | ⟨item, now, hi, hgot, hsaw, hle⟩⟩ | ⟨hfall, e, he⟩
  · exact .inl ⟨v, hv, .inl (mem_resume hread)⟩
  · exact .inl ⟨v, hv, .inr ⟨item, now, hi, mem_resume hgot, mem_resume hsaw, hle⟩⟩
  · exact .inr ⟨hfall, e, mem_resume he⟩

theorem Told.resume (h : Told π t) (ha : (stageOf (π := π) t).allow π op) :
    Told π (t.resume k ans) := by
  constructor
  · exact h.stage.next
  · rintro pid k' a ⟨ans', hans⟩
    rcases List.mem_cons.1 hans with heq | hold
    · -- the reply that was just given
      obtain rfl : Op.reply pid k' a = op := (Event.mk.inj heq).1
      have hstage := h.stage
      rcases ha with ⟨v, hs | hs, hv⟩ | ⟨hs, hfall⟩
      · rw [hs] at hstage
        obtain ⟨item, now, hi, hgot, hsaw, hle⟩ := hstage
        exact .inl ⟨v, hv, .inr ⟨item, now, hi, mem_resume hgot, mem_resume hsaw, hle⟩⟩
      · rw [hs] at hstage
        exact .inl ⟨v, hv, .inl (mem_resume hstage)⟩
      · rw [hs] at hstage
        obtain ⟨e, he⟩ := hstage
        exact .inr ⟨hfall, e, mem_resume he⟩
    · exact (h.replies pid k' a ⟨ans', hold⟩).resume

end

/-! ## Where the entries of a dictionary come from -/

/-- Every entry was put by some thread, which had read its value from the source. -/
structure Stocked (π : Policy K T V A) (c : Config (system keyError body)) : Prop where
  told    : ∀ t ∈ c.threads, Told π t
  entries : ∀ pid key item, c.world.dict pid key = some item →
    ∃ t ∈ c.threads, ∃ k now, key = π.key k ∧ item.expiresAt = now + π.life k ∧
      HasPut π t pid k item.value now
  got     : ∀ t ∈ c.threads, ∀ pid key item, Got t pid key item →
    ∃ u ∈ c.threads, ∃ k now, key = π.key k ∧ item.expiresAt = now + π.life k ∧
      HasPut π u pid k item.value now
  within  : ∀ t ∈ c.threads, ∀ now, Saw t now → now ≤ c.world.clock

section
variable {c : Config (system keyError body)} {i : Nat} {t t' : Thread (system keyError body)}

/-- A put that was made stays made when a thread goes on. -/
theorem putter_set {pid : Nat} {k : K} {v : V} {now : Nat} (ht : c.threads[i]? = some t)
    (hkeep : ∀ ev ∈ t.trace, ev ∈ t'.trace) (h : ∃ u ∈ c.threads, HasPut π u pid k v now) :
    ∃ u ∈ c.threads.set i t', HasPut π u pid k v now := by
  obtain ⟨u, hu, hput⟩ := h
  obtain ⟨j, hj⟩ := List.getElem?_of_mem hu
  by_cases hji : i = j
  · subst hji
    obtain rfl := Option.some.inj (ht.symm.trans hj)
    have hlt := (List.getElem?_eq_some_iff.1 ht).1
    obtain ⟨hread, hsaw, ans, hans⟩ := hput
    exact ⟨t', List.mem_of_getElem? (List.getElem?_set_self hlt), hkeep _ hread, hkeep _ hsaw, ans,
      hkeep _ hans⟩
  · exact ⟨u, List.mem_of_getElem? ((List.getElem?_set_ne hji).trans hj), hput⟩

theorem Stocked.act {op : Op K T V A} {k : (sig K T V A E).Ans op → Prog (sig K T V A E) Unit}
    {ch : Choice E} {ans : (sig K T V A E).Ans op} {w' : World K T V E} (hc : Stocked π c)
    (hn : c.Next i t op k) (ha : (stageOf (π := π) t).allow π op)
    (hx : c.world.exec keyError op ch = some (ans, w')) :
    Stocked π { world := w', threads := c.threads.set i (t.resume k ans) } := by
  have ht := hn.1
  have hmem := List.mem_of_getElem? ht
  have hlt := (List.getElem?_eq_some_iff.1 ht).1
  have hself : t.resume k ans ∈ c.threads.set i (t.resume k ans) :=
    List.mem_of_getElem? (List.getElem?_set_self hlt)
  have hkeep : ∀ {pid key} {item : Item V}, (∃ u ∈ c.threads, ∃ k' now, key = π.key k' ∧
      item.expiresAt = now + π.life k' ∧ HasPut π u pid k' item.value now) →
      ∃ u ∈ c.threads.set i (t.resume k ans), ∃ k' now, key = π.key k' ∧
        item.expiresAt = now + π.life k' ∧ HasPut π u pid k' item.value now := by
    rintro pid key item ⟨u, hu, k', now, hkey, hlife, hput⟩
    obtain ⟨u', hu', hput'⟩ := putter_set ht (fun _ h => mem_resume h) ⟨u, hu, hput⟩
    exact ⟨u', hu', k', now, hkey, hlife, hput'⟩
  constructor
  · intro u hu
    rcases List.mem_or_eq_of_mem_set hu with hu | rfl
    · exact hc.told u hu
    · exact (hc.told t hmem).resume ha
  · intro pid key item hitem
    rcases exec_dict hx hitem with hold | rfl
    · exact hkeep (hc.entries pid key item hold)
    · -- the entry that was just put
      obtain ⟨k', v, now, hs, rfl, rfl⟩ := ha
      have hstage := (hc.told t hmem).stage
      rw [hs] at hstage
      exact ⟨_, hself, k', now, rfl, rfl, mem_resume hstage.1, mem_resume hstage.2, ans,
        mem_resume_self⟩
  · intro u hu pid key item hgot
    rcases List.mem_or_eq_of_mem_set hu with hu | rfl
    · exact hkeep (hc.got u hu pid key item hgot)
    · rcases List.mem_cons.1 hgot with heq | hold
      · obtain ⟨rfl, hans⟩ := Event.mk.inj heq
        obtain rfl := eq_of_heq hans
        exact hkeep (hc.entries pid key item (exec_getItem hx))
      · exact hkeep (hc.got t hmem pid key item hold)
  · intro u hu now hsaw
    have hclock := exec_clock hx
    rcases List.mem_or_eq_of_mem_set hu with hu | rfl
    · exact Nat.le_trans (hc.within u hu now hsaw) hclock
    · rcases List.mem_cons.1 hsaw with heq | hold
      · obtain ⟨rfl, hans⟩ := Event.mk.inj heq
        obtain rfl := eq_of_heq hans
        exact Nat.le_of_eq (exec_now hx)
      · exact Nat.le_trans (hc.within t hmem now hold) hclock

/-- Entries do not live longer than their life. -/
theorem Stocked.expiresAt_le (hc : Stocked π c) {pid : Nat} {k : K} {item : Item V}
    (h : c.world.dict pid (π.key k) = some item) : item.expiresAt ≤ c.world.clock + π.life k := by
  obtain ⟨t, ht, k', now, hkey, hlife, _, hsaw, _⟩ := hc.entries pid _ item h
  obtain rfl := π.key_injective hkey
  have := hc.within t ht now hsaw
  omega

end

/-! ## Runs -/

section
variable {w : World K T V E} {ms : List (Move (system keyError body))}
  {c : Config (system keyError body)}

theorem coupled_run (hbody : ∀ e, (protocol E π).Obeys (fun _ _ => True) (fun _ _ => True) .idle
    (body e)) (h : Effect.play (.init w) ms = some c) :
    (protocol E π).Coupled (fun _ => .idle) (fun _ _ => True) (fun _ _ => True) c := by
  have halong : Effect.Along (fun _ _ => True) (.init w) ms :=
    Effect.along_iff_split.2 fun _ _ _ _ _ _ => trivial
  exact (Effect.Protocol.protocol_inv (R := protocol E π) (fun _ => .idle) (J := fun _ => True) hbody
    (fun _ _ _ _ => trivial) (fun _ _ _ _ _ _ _ _ _ _ _ _ _ hx => ⟨exec_possible hx, trivial⟩)
    (fun _ _ _ _ _ _ => trivial) (fun t ht => (by cases ht)) trivial halong h).1

/-- **From empty dictionaries on, every entry was put by a thread that had read its value.** -/
theorem stocked_run (hbody : ∀ e, (protocol E π).Obeys (fun _ _ => True) (fun _ _ => True) .idle
    (body e)) (hempty : ∀ pid key, w.dict pid key = none) (h : Effect.play (.init w) ms = some c) :
    Stocked π c := by
  have halong : Effect.Along (fun _ _ => True) (.init w) ms :=
    Effect.along_iff_split.2 fun _ _ _ _ _ _ => trivial
  refine (Effect.Protocol.protocol_inv (R := protocol E π) (fun _ => .idle) (J := Stocked π) hbody
    ?_ ?_ ?_ (fun t ht => (by cases ht)) ?_ halong h).2
  · intro c e hc _
    have hnone : ∀ {ev : Event (sig K T V A E)},
        ev ∈ (Thread.init e : Thread (system keyError body)).trace → False := fun hev => (by cases hev)
    constructor
    · intro t ht
      rcases List.mem_append.1 ht with ht | ht
      · exact hc.told t ht
      · obtain rfl := List.mem_singleton.1 ht
        exact ⟨trivial, fun pid k a ⟨ans, hans⟩ => (hnone hans).elim⟩
    · intro pid key item hitem
      obtain ⟨t, ht, hrest⟩ := hc.entries pid key item hitem
      exact ⟨t, List.mem_append_left _ ht, hrest⟩
    · intro t ht pid key item hgot
      rcases List.mem_append.1 ht with ht | ht
      · obtain ⟨u, hu, hrest⟩ := hc.got t ht pid key item hgot
        exact ⟨u, List.mem_append_left _ hu, hrest⟩
      · obtain rfl := List.mem_singleton.1 ht
        exact (hnone hgot).elim
    · intro t ht now hsaw
      rcases List.mem_append.1 ht with ht | ht
      · exact hc.within t ht now hsaw
      · obtain rfl := List.mem_singleton.1 ht
        exact (hnone hsaw).elim
  · intro c i ch t op k ans w' hc _ _ hn ha hx
    exact ⟨exec_possible hx, hc.act hn ha hx⟩
  · intro c i t hc _ ht
    have hmem := List.mem_of_getElem? ht
    have hlt := (List.getElem?_eq_some_iff.1 ht).1
    have hset : ∀ {u}, u ∈ c.threads.set i { t with crashed := true } →
        u ∈ c.threads ∨ u = { t with crashed := true } := fun hu => List.mem_or_eq_of_mem_set hu
    have hput : ∀ {pid k v now}, (∃ u ∈ c.threads, HasPut π u pid k v now) →
        ∃ u ∈ c.threads.set i { t with crashed := true }, HasPut π u pid k v now :=
      fun hex => putter_set ht (fun _ hev => hev) hex
    constructor
    · intro u hu
      rcases hset hu with hu | rfl
      · exact hc.told u hu
      · exact ⟨(hc.told t hmem).stage, (hc.told t hmem).replies⟩
    · intro pid key item hitem
      obtain ⟨u, hu, k, now, hkey, hlife, hhas⟩ := hc.entries pid key item hitem
      obtain ⟨u', hu', hhas'⟩ := hput ⟨u, hu, hhas⟩
      exact ⟨u', hu', k, now, hkey, hlife, hhas'⟩
    · intro u hu pid key item hgot
      have hold : ∃ u ∈ c.threads, Got u pid key item := by
        rcases hset hu with hu | rfl
        · exact ⟨u, hu, hgot⟩
        · exact ⟨t, hmem, hgot⟩
      obtain ⟨u, hu, hgot⟩ := hold
      obtain ⟨u, hu, k, now, hkey, hlife, hhas⟩ := hc.got u hu pid key item hgot
      obtain ⟨u', hu', hhas'⟩ := hput ⟨u, hu, hhas⟩
      exact ⟨u', hu', k, now, hkey, hlife, hhas'⟩
    · intro u hu now hsaw
      rcases hset hu with hu | rfl
      · exact hc.within u hu now hsaw
      · exact hc.within t hmem now hsaw
  · exact ⟨fun t ht => (by cases ht),
      fun pid key item hitem => (by cases (hempty pid key).symm.trans hitem), fun t ht => (by cases ht), fun t ht => (by cases ht)⟩

/-- **Where an answer comes from.** A thread answers what it read itself, or what a thread of its
process had read and put no longer ago than an entry lives, or the default after a failed read. -/
theorem replies_sourced (hbody : ∀ e, (protocol E π).Obeys (fun _ _ => True) (fun _ _ => True) .idle
    (body e)) (hempty : ∀ pid key, w.dict pid key = none) (h : Effect.play (.init w) ms = some c)
    {t : Thread (system keyError body)} (ht : t ∈ c.threads) {pid : Nat} {k : K} {a : A}
    (hreply : Replied t pid k a) :
    (∃ v, π.answers k v a ∧ (DidRead t pid k v ∨
      ∃ u ∈ c.threads, ∃ put now, HasPut π u pid k v put ∧ Saw t now ∧ now ≤ put + π.life k)) ∨
    π.fallback k a ∧ Missed t pid k := by
  have hc := stocked_run hbody hempty h
  rcases (hc.told t ht).replies pid k a hreply with ⟨v, hv, hread | hgot⟩ | hmiss
  · exact .inl ⟨v, hv, .inl hread⟩
  · obtain ⟨item, now, rfl, hgot, hsaw, hle⟩ := hgot
    obtain ⟨u, hu, k', put, hkey, hlife, hput⟩ := hc.got t ht pid _ item hgot
    obtain rfl := π.key_injective hkey
    exact .inl ⟨item.value, hv, .inr ⟨u, hu, put, now, hput, hsaw, hlife ▸ hle⟩⟩
  · exact .inr hmiss

end

/-! ## A value that has come to stay -/

def Op.writes (k : K) : Op K T V A → Bool
  | .write k' _ => decide (k' = k)
  | _           => false

/-- The move is not a write of the key. -/
def NoWrite (k : K) (c : Config (system keyError body)) (m : Move (system keyError body)) : Prop :=
  match m with
  | .act i _ => (c.nextOp i).any (Op.writes k) = false
  | _        => True

instance (k : K) (c : Config (system keyError body)) (m : Move (system keyError body)) :
    Decidable (NoWrite k c m) := by
  unfold NoWrite
  split <;> infer_instance

theorem NoWrite.ne {k : K} {c : Config (system keyError body)} {i : Nat}
    {t : Thread (system keyError body)} {op : Op K T V A}
    {rest : (sig K T V A E).Ans op → Prog (sig K T V A E) Unit} {ch : Choice E}
    (h : NoWrite k c (.act i ch)) (hn : c.Next i t op rest) (v : V) : op ≠ .write k v := by
  rintro rfl
  have hno : (c.nextOp i).any (Op.writes k) = false := h
  rw [Config.nextOp_eq_some.2 ⟨t, rest, hn⟩] at hno
  simp [Op.writes] at hno

/-- The source has `new` under `k`; the processes with `p` hold it or an entry that expires before
`bound`, and no thread of theirs is about to put anything else. -/
structure Settled (π : Policy K T V A) (p : Nat → Prop) (k : K) (new : V) (bound : Nat)
    (c : Config (system keyError body)) : Prop where
  source  : c.world.source k = .ok new
  entries : ∀ pid item, p pid → c.world.dict pid (π.key k) = some item →
    item.value = new ∨ item.expiresAt < bound
  carried : ∀ t ∈ c.threads, t.crashed = false → ∀ pid v, p pid →
    (stageOf (π := π) t).Carries pid k v → v = new

/-- A thread that has begun late. -/
structure Renewed (π : Policy K T V A) (p : Nat → Prop) (k : K) (new : V) (bound : Nat)
    (t : Thread (system keyError body)) : Prop where
  told    : Told π t
  held    : ∀ pid item, p pid → stageOf (π := π) t = .held pid (π.key k) item →
    item.value = new ∨ item.expiresAt < bound
  valid   : ∀ pid v, p pid → stageOf (π := π) t = .valid pid (π.key k) v → v = new
  stored  : ∀ pid v, p pid → stageOf (π := π) t = .stored pid k v → v = new
  replies : ∀ pid a, p pid → Replied t pid k a →
    π.answers k new a ∨ π.fallback k a ∧ Missed t pid k

section
variable {p : Nat → Prop} {key : K} {new : V} {bound : Nat} {c : Config (system keyError body)} {i : Nat}
  {t : Thread (system keyError body)} {op : Op K T V A}
  {k : (sig K T V A E).Ans op → Prog (sig K T V A E) Unit} {ch : Choice E}
  {ans : (sig K T V A E).Ans op} {w' : World K T V E}

theorem Settled.act (hc : Settled π p key new bound c) (hn : c.Next i t op k)
    (ha : (stageOf (π := π) t).allow π op) (hop : ∀ v, op ≠ .write key v)
    (hx : c.world.exec keyError op ch = some (ans, w')) :
    Settled π p key new bound { world := w', threads := c.threads.set i (t.resume k ans) } := by
  have hmem := List.mem_of_getElem? hn.1
  constructor
  · exact (exec_source hx hop).trans hc.source
  · intro pid item hp hitem
    rcases exec_dict hx hitem with hold | rfl
    · exact hc.entries pid item hp hold
    · -- what is put was carried
      obtain ⟨k', v, now, hs, hkey, rfl⟩ := ha
      obtain rfl := π.key_injective hkey
      exact .inl (hc.carried t hmem hn.2.1 pid v hp (.inr ⟨now, hs⟩))
  · intro u hu hlive pid v hp hcarries
    rcases List.mem_or_eq_of_mem_set hu with hu | rfl
    · exact hc.carried u hu hlive pid v hp hcarries
    · rcases carries_step ((stageOf (π := π) t).next_step op ans) hcarries with hold | heq
      · exact hc.carried t hmem hn.2.1 pid v hp hold
      · -- what is read now is the value that has come to stay
        obtain ⟨rfl, hans⟩ := Event.mk.inj heq
        obtain rfl := eq_of_heq hans
        have hsource := exec_read hx
        rw [hc.source] at hsource
        exact (Except.ok.inj hsource).symm

theorem Renewed.act (ht : Renewed π p key new bound t) (hc : Settled π p key new bound c)
    (hn : c.Next i t op k) (ha : (stageOf (π := π) t).allow π op) (hlate : bound ≤ c.world.clock)
    (hx : c.world.exec keyError op ch = some (ans, w')) :
    Renewed π p key new bound (t.resume k ans) := by
  have hmem := List.mem_of_getElem? hn.1
  have hstep := (stageOf (π := π) t).next_step op ans
  have hstage : stageOf (π := π) (t.resume k ans) = (stageOf (π := π) t).next op ans := rfl
  refine ⟨ht.told.resume ha, ?_, ?_, ?_, ?_⟩
  · intro pid item hp hheld
    rw [hstage] at hheld
    rw [hheld] at hstep
    generalize hs : stageOf (π := π) t = s at hstep
    generalize hev : (⟨op, ans⟩ : Event (sig K T V A E)) = ev at hstep
    cases hstep with
    | stay => exact ht.held pid item hp hs
    | take =>
      obtain ⟨rfl, hans⟩ := Event.mk.inj hev
      obtain rfl := eq_of_heq hans
      exact hc.entries pid item hp (exec_getItem hx)
  · intro pid v hp hvalid
    rw [hstage] at hvalid
    rw [hvalid] at hstep
    generalize hs : stageOf (π := π) t = s at hstep
    generalize hev : (⟨op, ans⟩ : Event (sig K T V A E)) = ev at hstep
    cases hstep with
    | stay => exact ht.valid pid v hp hs
    | pass hle =>
      -- an old entry would have expired by now
      obtain ⟨rfl, hans⟩ := Event.mk.inj hev
      obtain rfl := eq_of_heq hans
      rcases ht.held pid _ hp hs with hnew | hold
      · exact hnew
      · have hclock := exec_clock hx
        have hnow := exec_now hx
        omega
  · intro pid v hp hstored
    rw [hstage] at hstored
    rw [hstored] at hstep
    generalize hs : stageOf (π := π) t = s at hstep
    generalize (⟨op, ans⟩ : Event (sig K T V A E)) = ev at hstep
    cases hstep with
    | stay => exact ht.stored pid v hp hs
    | put => exact hc.carried t hmem hn.2.1 pid v hp (.inr ⟨_, hs⟩)
  · rintro pid a hp ⟨ans', hans⟩
    rcases List.mem_cons.1 hans with heq | hold
    · obtain rfl : Op.reply pid key a = op := (Event.mk.inj heq).1
      rcases ha with ⟨v, hs | hs, hv⟩ | ⟨hs, hfall⟩
      · obtain rfl := ht.valid pid v hp hs
        exact .inl hv
      · obtain rfl := ht.stored pid v hp hs
        exact .inl hv
      · have hbacked := ht.told.stage
        rw [hs] at hbacked
        obtain ⟨e, he⟩ := hbacked
        exact .inr ⟨hfall, e, mem_resume he⟩
    · rcases ht.replies pid a hp ⟨ans', hold⟩ with hnew | ⟨hfall, e, he⟩
      · exact .inl hnew
      · exact .inr ⟨hfall, e, mem_resume he⟩

end

section
variable {p : Nat → Prop} {key : K} {new : V} {bound : Nat} {c c' : Config (system keyError body)}
  {ms : List (Move (system keyError body))}

/-- Without a write of the key the value stays, the clock goes on, and late threads hold it. -/
theorem settled_run (hbody : ∀ e, (protocol E π).Obeys (fun _ _ => True) (fun _ _ => True) .idle
    (body e)) (hobeys : (protocol E π).Coupled (fun _ => .idle) (fun _ _ => True) (fun _ _ => True) c)
    (hc : Settled π p key new bound c) (hquiet : Effect.Along (NoWrite key) c ms)
    (h : Effect.play c ms = some c') :
    (protocol E π).Coupled (fun _ => .idle) (fun _ _ => True) (fun _ _ => True) c' ∧
      Settled π p key new bound c' ∧ c.world.clock ≤ c'.world.clock ∧
      (bound ≤ c.world.clock → ∀ (i : Nat) t, c.threads.length ≤ i → c'.threads[i]? = some t →
        Renewed π p key new bound t) := by
  refine Effect.Protocol.protocol_inv (R := protocol E π) (fun _ => .idle) (J := fun x =>
    Settled π p key new bound x ∧ c.world.clock ≤ x.world.clock ∧ (bound ≤ c.world.clock →
      ∀ (i : Nat) t, c.threads.length ≤ i → x.threads[i]? = some t → Renewed π p key new bound t))
    hbody ?_ ?_ ?_ hobeys ⟨hc, Nat.le_refl _, ?_⟩ hquiet h
  · rintro x e ⟨hx, hclock, hlate⟩ _
    refine ⟨⟨hx.source, hx.entries, ?_⟩, hclock, ?_⟩
    · intro t ht hlive pid v hp hcarries
      rcases List.mem_append.1 ht with ht | ht
      · exact hx.carried t ht hlive pid v hp hcarries
      · obtain rfl := List.mem_singleton.1 ht
        rcases hcarries with h | ⟨now, h⟩ <;> cases h
    · intro hb i t hi ht
      rcases Effect.getElem?_concat_cases ht with ht | rfl
      · exact hlate hb i t hi ht
      · exact ⟨⟨trivial, fun pid k a ⟨ans, hans⟩ => (by cases hans)⟩, fun pid item hp h => (by cases h),
          fun pid v hp h => (by cases h), fun pid v hp h => (by cases h),
          fun pid a hp ⟨ans, hans⟩ => (by cases hans)⟩
  · rintro x i ch t op k ans w' ⟨hx, hclock, hlate⟩ _ hno hn ha hexec
    refine ⟨exec_possible hexec, hx.act hn ha (hno.ne hn) hexec, Nat.le_trans hclock (exec_clock hexec), ?_⟩
    intro hb j u hj hu
    rcases Effect.getElem?_set_cases hu with ⟨rfl, rfl⟩ | ⟨_, hu⟩
    · exact (hlate hb j t hj hn.1).act hx hn ha (Nat.le_trans hb hclock) hexec
    · exact hlate hb j u hj hu
  · rintro x i t ⟨hx, hclock, hlate⟩ _ ht
    refine ⟨⟨hx.source, hx.entries, ?_⟩, hclock, ?_⟩
    · intro u hu hlive pid v hp hcarries
      rcases List.mem_or_eq_of_mem_set hu with hu | rfl
      · exact hx.carried u hu hlive pid v hp hcarries
      · cases hlive
    · intro hb j u hj hu
      rcases Effect.getElem?_set_cases hu with ⟨rfl, rfl⟩ | ⟨_, hu⟩
      · have hold := hlate hb j t hj ht
        exact ⟨⟨hold.told.stage, hold.told.replies⟩, hold.held, hold.valid, hold.stored, hold.replies⟩
      · exact hlate hb j u hj hu
  · intro _ i t hi ht
    rw [List.getElem?_eq_none hi] at ht
    cases ht

end

section
variable {p : Nat → Prop} {key : K} {new : V} {w : World K T V E}
  {c₀ c₁ c₂ : Config (system keyError body)} {ms xs ys : List (Move (system keyError body))}

/-- No thread of the processes is about to put a value other than `new`. -/
def NoneInFlight (π : Policy K T V A) (p : Nat → Prop) (k : K) (new : V)
    (c : Config (system keyError body)) : Prop :=
  ∀ t ∈ c.threads, t.crashed = false → ∀ pid v, p pid → (stageOf (π := π) t).Carries pid k v → v = new

theorem noneInFlight_of_stages {stages : List (Stage K T V)}
    (h : (c₀.threads.map fun t => stageOf (π := π) t) = stages)
    (hs : ∀ s ∈ stages, ∀ pid v, ¬ s.Carries pid key v) : NoneInFlight π p key new c₀ := by
  intro t ht _ pid v _ hcarries
  have hmem := List.mem_map_of_mem (f := fun t => stageOf (π := π) t) ht
  rw [h] at hmem
  exact absurd hcarries (hs _ hmem pid v)

/-- **A value that has come to stay is what threads answer that begin after its forerunners have
expired.** -/
theorem renewed_after_life (hbody : ∀ e, (protocol E π).Obeys (fun _ _ => True) (fun _ _ => True)
    .idle (body e)) (hempty : ∀ pid key, w.dict pid key = none)
    (h₀ : Effect.play (.init w) ms = some c₀) (hsource : c₀.world.source key = .ok new)
    (hflight : NoneInFlight π p key new c₀) (h₁ : Effect.play c₀ xs = some c₁)
    (hxs : Effect.Along (NoWrite key) c₀ xs)
    (hlate : c₀.world.clock + π.life key < c₁.world.clock) (h₂ : Effect.play c₁ ys = some c₂)
    (hys : Effect.Along (NoWrite key) c₁ ys) {i : Nat} {t : Thread (system keyError body)}
    (hi : c₁.threads.length ≤ i) (ht : c₂.threads[i]? = some t) {pid : Nat} (hp : p pid) {a : A}
    (hreply : Replied t pid key a) :
    π.answers key new a ∨ π.fallback key a ∧ Missed t pid key := by
  have hstocked := stocked_run (π := π) hbody hempty h₀
  have hsettled : Settled π p key new (c₀.world.clock + π.life key + 1) c₀ :=
    ⟨hsource, fun pid item _ hitem => .inr (Nat.lt_succ_of_le (hstocked.expiresAt_le hitem)), hflight⟩
  obtain ⟨hobeys, hsettled₁, _, _⟩ := settled_run hbody (coupled_run hbody h₀) hsettled hxs h₁
  obtain ⟨_, _, _, hrenewed⟩ := settled_run hbody hobeys hsettled₁ hys h₂
  exact (hrenewed hlate i t hi ht).replies pid a hp hreply

/-- **Where the dictionary has no entry, the next threads answer it at once.** -/
theorem renewed_after_invalidation (hbody : ∀ e, (protocol E π).Obeys (fun _ _ => True)
    (fun _ _ => True) .idle (body e)) (h₀ : Effect.play (.init w) ms = some c₀)
    (hsource : c₀.world.source key = .ok new) (hflight : NoneInFlight π p key new c₀)
    (hgone : ∀ pid, p pid → c₀.world.dict pid (π.key key) = none) (h₂ : Effect.play c₀ ys = some c₂)
    (hys : Effect.Along (NoWrite key) c₀ ys) {i : Nat} {t : Thread (system keyError body)}
    (hi : c₀.threads.length ≤ i) (ht : c₂.threads[i]? = some t) {pid : Nat} (hp : p pid) {a : A}
    (hreply : Replied t pid key a) :
    π.answers key new a ∨ π.fallback key a ∧ Missed t pid key := by
  have hsettled : Settled π p key new 0 c₀ :=
    ⟨hsource, fun pid item hp hitem => (by rw [hgone pid hp] at hitem; cases hitem), hflight⟩
  obtain ⟨_, _, _, hrenewed⟩ := settled_run hbody (coupled_run hbody h₀) hsettled hys h₂
  exact (hrenewed (Nat.zero_le _) i t hi ht).replies pid a hp hreply

end

end

end TtlCache
