import DocumentAi.Lib.Prog

/-!
# Pools of handlers: interleaved runs of effect programs over one shared world

A pool is a shared world and a list of handler invocations, each at some point of its program.
One move starts a new invocation, lets one invocation perform its next call atomically, or kills
an invocation between two calls. What the world answers may depend on a `Choice`, so that one
move list fixes one run and every behaviour of the environment is some move list.

| here | meaning |
| --- | --- |
| `Sys`       | the world, how it executes a call, the entry points and their programs |
| `Thread`    | one invocation: entry, remaining program, calls so far (newest first) |
| `move`      | one move; `none` when the move is not possible |
| `play`      | a whole run |
| `Along φ`   | every move of the run satisfies `φ` in the configuration it is made in |
| `play_inv`  | the invariant rule for runs |
-/

namespace Effect

/-- A call together with the answer it got. -/
structure Event (S : Sig) where
  op  : S.Op
  ans : S.Ans op

structure Sys (S : Sig) where
  World  : Type
  Choice : Type
  /-- Execute a call atomically; `none` when it cannot be executed now. -/
  exec   : World → (op : S.Op) → Choice → Option (S.Ans op × World)
  Entry  : Type
  body   : Entry → Prog S Unit

/-! ## Places of a list -/

section Places
variable {α : Type} {xs : List α} {i j : Nat} {x y : α}

/-- The places of a list after one of them has changed. -/
theorem getElem?_set_cases (h : (xs.set i x)[j]? = some y) :
    (j = i ∧ y = x) ∨ (j ≠ i ∧ xs[j]? = some y) := by
  by_cases hij : i = j
  · subst hij
    rw [List.getElem?_set_self'] at h
    obtain ⟨_, _, rfl⟩ := Option.map_eq_some_iff.1 h
    exact .inl ⟨rfl, rfl⟩
  · rw [List.getElem?_set_ne hij] at h
    exact .inr ⟨Ne.symm hij, h⟩

/-- The places of a list with one more element. -/
theorem getElem?_concat_cases (h : (xs ++ [x])[j]? = some y) : xs[j]? = some y ∨ y = x := by
  rw [List.getElem?_append] at h
  split at h
  · exact .inl h
  · exact .inr (List.mem_singleton.1 (List.mem_of_getElem? h))

theorem countP_set_of_not {p : α → Bool} (hi : xs[i]? = some y) (hy : p y = false) :
    (xs.set i x).countP p = xs.countP p + if p x then 1 else 0 := by
  obtain ⟨hlt, rfl⟩ := List.getElem?_eq_some_iff.1 hi
  rw [List.countP_set hlt, hy]
  rfl

theorem countP_set_of_eq {p : α → Bool} (hi : xs[i]? = some y) (hp : p x = p y) :
    (xs.set i x).countP p = xs.countP p := by
  induction xs generalizing i with
  | nil => rfl
  | cons z xs ih =>
    cases i with
    | zero =>
      obtain rfl := Option.some.inj hi
      simp only [List.set_cons_zero, List.countP_cons, hp]
    | succ i => simp only [List.set_cons_succ, List.countP_cons, ih hi]

end Places

section Pool
variable {S : Sig} (P : Sys S)

structure Thread where
  entry   : P.Entry
  prog    : Prog S Unit
  trace   : List (Event S)
  crashed : Bool

structure Config where
  world   : P.World
  threads : List (Thread P)

inductive Move where
  | start (e : P.Entry)
  | act (i : Nat) (ch : P.Choice)
  | crash (i : Nat)

variable {P}

def Thread.init (e : P.Entry) : Thread P :=
  { entry := e, prog := P.body e, trace := [], crashed := false }

def Config.init (w : P.World) : Config P := { world := w, threads := [] }

/-- The thread after the answer `ans` to the call `op` it waits on with continuation `k`. -/
def Thread.resume (t : Thread P) {op : S.Op} (k : S.Ans op → Prog S Unit) (ans : S.Ans op) :
    Thread P :=
  { t with prog := k ans, trace := ⟨op, ans⟩ :: t.trace }

/-- No handler is running: every invocation has returned, has raised, or was killed. -/
def Thread.Done (t : Thread P) : Prop :=
  t.crashed = true ∨ t.prog = .ret () ∨ ∃ e, t.prog = .raise e

def Thread.act (w : P.World) (t : Thread P) (ch : P.Choice) : Option (P.World × Thread P) :=
  match t.crashed, t.prog with
  | false, .call op k => (P.exec w op ch).map fun r => (r.2, t.resume k r.1)
  | _, _ => none

def move (c : Config P) : Move P → Option (Config P)
  | .start e => some { c with threads := c.threads ++ [Thread.init e] }
  | .act i ch =>
    (c.threads[i]?).bind fun t =>
      (t.act c.world ch).map fun r => { world := r.1, threads := c.threads.set i r.2 }
  | .crash i =>
    (c.threads[i]?).map fun t => { c with threads := c.threads.set i { t with crashed := true } }

def play (c : Config P) : List (Move P) → Option (Config P)
  | []      => some c
  | m :: ms => (move c m).bind fun c' => play c' ms

def Along (φ : Config P → Move P → Prop) (c : Config P) : List (Move P) → Prop
  | []      => True
  | m :: ms => φ c m ∧ ∀ c', move c m = some c' → Along φ c' ms

/-! ## What one move can do -/

/-- The call `op` is the next one of thread `i`, which is `t`, and continues with `k`. -/
def Config.Next (c : Config P) (i : Nat) (t : Thread P) (op : S.Op)
    (k : S.Ans op → Prog S Unit) : Prop :=
  c.threads[i]? = some t ∧ t.crashed = false ∧ t.prog = .call op k

/-- The next call of thread `i`. -/
def Config.nextOp (c : Config P) (i : Nat) : Option S.Op :=
  (c.threads[i]?).bind fun t =>
    match t.crashed, t.prog with
    | false, .call op _ => some op
    | _, _ => none

theorem Config.nextOp_eq_some {c : Config P} {i : Nat} {op : S.Op} :
    c.nextOp i = some op ↔ ∃ t k, c.Next i t op k := by
  constructor
  · intro h
    obtain ⟨t, ht, h⟩ := Option.bind_eq_some_iff.1 h
    split at h
    next op' k hc hp =>
      cases h
      exact ⟨t, k, ht, hc, hp⟩
    next => cases h
  · rintro ⟨t, k, ht, hc, hp⟩
    simp only [Config.nextOp, ht, Option.bind_some, hc, hp]

theorem Thread.act_eq_some {w : P.World} {t : Thread P} {ch : P.Choice} {r : P.World × Thread P}
    (h : t.act w ch = some r) :
    t.crashed = false ∧ ∃ op k ans, t.prog = .call op k ∧ P.exec w op ch = some (ans, r.1) ∧
      r.2 = t.resume k ans := by
  unfold Thread.act at h
  split at h
  next op k hc hp =>
    obtain ⟨⟨ans, w'⟩, hx, rfl⟩ := Option.map_eq_some_iff.1 h
    exact ⟨hc, op, k, ans, hp, hx, rfl⟩
  next => simp at h

theorem move_act {c c' : Config P} {i : Nat} {ch : P.Choice} (h : move c (.act i ch) = some c') :
    ∃ t op k ans w', c.Next i t op k ∧ P.exec c.world op ch = some (ans, w') ∧
      c' = { world := w', threads := c.threads.set i (t.resume k ans) } := by
  obtain ⟨t, ht, h⟩ := Option.bind_eq_some_iff.1 h
  obtain ⟨r, hr, rfl⟩ := Option.map_eq_some_iff.1 h
  obtain ⟨hc, op, k, ans, hp, hx, hres⟩ := Thread.act_eq_some hr
  exact ⟨t, op, k, ans, r.1, ⟨ht, hc, hp⟩, hx, by rw [hres]⟩

/-- The three things a move can do, with everything they leave unchanged. -/
theorem move_cases {c c' : Config P} {m : Move P} (h : move c m = some c') :
    (∃ e, m = .start e ∧ c' = { c with threads := c.threads ++ [Thread.init e] }) ∨
    (∃ i ch t op k ans w', m = .act i ch ∧ c.Next i t op k ∧
      P.exec c.world op ch = some (ans, w') ∧
      c' = { world := w', threads := c.threads.set i (t.resume k ans) }) ∨
    (∃ i t, m = .crash i ∧ c.threads[i]? = some t ∧
      c' = { c with threads := c.threads.set i { t with crashed := true } }) := by
  cases m with
  | start e => exact .inl ⟨e, rfl, by simpa [move] using h.symm⟩
  | act i ch =>
    obtain ⟨t, op, k, ans, w', hn, hx, rfl⟩ := move_act h
    exact .inr (.inl ⟨i, ch, t, op, k, ans, w', rfl, hn, hx, rfl⟩)
  | crash i =>
    obtain ⟨t, ht, rfl⟩ := Option.map_eq_some_iff.1 h
    exact .inr (.inr ⟨i, t, rfl, ht, rfl⟩)

theorem Config.Next.move {c : Config P} {i : Nat} {t : Thread P} {op : S.Op}
    {k : S.Ans op → Prog S Unit} (hn : c.Next i t op k) {ch : P.Choice} {ans : S.Ans op}
    {w' : P.World} (hx : P.exec c.world op ch = some (ans, w')) :
    Effect.move c (.act i ch) =
      some { world := w', threads := c.threads.set i (t.resume k ans) } := by
  obtain ⟨ht, hcr, hp⟩ := hn
  simp only [Effect.move, ht, Option.bind_some, Thread.act, hcr, hp, hx, Option.map_some]

theorem play_append {c c' : Config P} {ms ns : List (Move P)} (h : play c ms = some c') :
    play c (ms ++ ns) = play c' ns := by
  induction ms generalizing c with
  | nil => simp only [play, Option.some.injEq] at h; subst h; rfl
  | cons m ms ih =>
    obtain ⟨c₁, hm, h⟩ := Option.bind_eq_some_iff.1 h
    simp only [List.cons_append, play, hm, Option.bind_some]
    exact ih h

theorem along_append {φ : Config P → Move P → Prop} {c c' : Config P} {ms ns : List (Move P)}
    (h : play c ms = some c') (ha : Along φ c (ms ++ ns)) : Along φ c ms ∧ Along φ c' ns := by
  induction ms generalizing c with
  | nil => simp only [play, Option.some.injEq] at h; subst h; exact ⟨trivial, ha⟩
  | cons m ms ih =>
    obtain ⟨c₁, hm, h⟩ := Option.bind_eq_some_iff.1 h
    have := ih h (ha.2 c₁ hm)
    refine ⟨⟨ha.1, fun c₂ h₂ => ?_⟩, this.2⟩
    rw [hm, Option.some.injEq] at h₂
    exact h₂ ▸ this.1

theorem Along.append {φ : Config P → Move P → Prop} {c : Config P} {ms ns : List (Move P)}
    (hms : Along φ c ms) (hns : ∀ c', play c ms = some c' → Along φ c' ns) :
    Along φ c (ms ++ ns) := by
  induction ms generalizing c with
  | nil => exact hns c rfl
  | cons m ms ih =>
    refine ⟨hms.1, fun c₁ hm => ih (hms.2 c₁ hm) fun c' h => hns c' ?_⟩
    simp only [play, hm, Option.bind_some]
    exact h

theorem Along.mono {φ ψ : Config P → Move P → Prop} (h : ∀ c m, φ c m → ψ c m) {c : Config P}
    {ms : List (Move P)} (ha : Along φ c ms) : Along ψ c ms := by
  induction ms generalizing c with
  | nil => trivial
  | cons m ms ih => exact ⟨h _ _ ha.1, fun c' hc => ih (ha.2 c' hc)⟩

/-- **Invariant rule.** What holds at the start and is kept by every move that meets `φ` holds
after every run whose moves all meet `φ`. -/
theorem play_inv {φ : Config P → Move P → Prop} {I : Config P → Prop}
    (hstep : ∀ c m c', I c → φ c m → move c m = some c' → I c')
    {c c' : Config P} {ms : List (Move P)} (h0 : I c) (ha : Along φ c ms)
    (h : play c ms = some c') : I c' := by
  induction ms generalizing c with
  | nil => simp only [play, Option.some.injEq] at h; exact h ▸ h0
  | cons m ms ih =>
    obtain ⟨c₁, hm, h⟩ := Option.bind_eq_some_iff.1 h
    exact ih (hstep c m c₁ h0 ha.1 hm) (ha.2 c₁ hm) h

/-- `Along`, read at every split of the run. -/
theorem along_iff_split {φ : Config P → Move P → Prop} {c : Config P} {ms : List (Move P)} :
    Along φ c ms ↔ ∀ ns m ns' c₁, ms = ns ++ m :: ns' → play c ns = some c₁ → φ c₁ m := by
  constructor
  · rintro ha ns m ns' c₁ rfl hns
    exact (along_append hns ha).2.1
  · intro ha
    induction ms generalizing c with
    | nil => trivial
    | cons m ms ih =>
      refine ⟨ha [] m ms c rfl rfl, fun c₁ hm => ih fun ns m' ns' c₂ e h => ?_⟩
      refine ha (m :: ns) m' ns' c₂ (by rw [e]; rfl) ?_
      simpa only [play, hm, Option.bind_some] using h

/-- `Along` of a decidable condition, computed. -/
def along (f : Config P → Move P → Bool) (c : Config P) : List (Move P) → Bool
  | []      => true
  | m :: ms => f c m && ((move c m).map fun c' => along f c' ms).getD true

theorem along_eq_true {f : Config P → Move P → Bool} {c : Config P} {ms : List (Move P)} :
    along f c ms = true ↔ Along (fun c m => f c m = true) c ms := by
  induction ms generalizing c with
  | nil => simp [along, Along]
  | cons m ms ih => cases hm : move c m <;> simp [along, Along, hm, ih]

instance {φ : Config P → Move P → Prop} [∀ c m, Decidable (φ c m)] (c : Config P)
    (ms : List (Move P)) : Decidable (Along φ c ms) :=
  decidable_of_iff (along (fun c m => decide (φ c m)) c ms = true) <| by
    rw [along_eq_true]
    exact ⟨Along.mono fun _ _ => of_decide_eq_true, Along.mono fun _ _ => decide_eq_true⟩

theorem Along.and {φ ψ : Config P → Move P → Prop} {c : Config P} {ms : List (Move P)}
    (hφ : Along φ c ms) (hψ : Along ψ c ms) : Along (fun c m => φ c m ∧ ψ c m) c ms := by
  induction ms generalizing c with
  | nil => trivial
  | cons m ms ih => exact ⟨⟨hφ.1, hψ.1⟩, fun c' h => ih (hφ.2 c' h) (hψ.2 c' h)⟩

/-- A condition on the moves of the list, added to one on their order. -/
theorem Along.and_of_mem {φ : Config P → Move P → Prop} {ψ : Move P → Prop} {c : Config P}
    {ms : List (Move P)} (hm : ∀ m ∈ ms, ψ m) (ha : Along φ c ms) :
    Along (fun c m => ψ m ∧ φ c m) c ms := by
  induction ms generalizing c with
  | nil => trivial
  | cons m ms ih =>
    obtain ⟨hψ, hrest⟩ := List.forall_mem_cons.1 hm
    exact ⟨⟨hψ, ha.1⟩, fun c' h => ih hrest (ha.2 c' h)⟩

/-- What an invariant and the condition say about each move holds along the run. -/
theorem Along.of_inv {φ ψ : Config P → Move P → Prop} {I : Config P → Prop}
    (hstep : ∀ c m c', I c → φ c m → move c m = some c' → I c')
    (h : ∀ c m, I c → φ c m → ψ c m) {c : Config P} {ms : List (Move P)} (h0 : I c)
    (ha : Along φ c ms) : Along ψ c ms := by
  induction ms generalizing c with
  | nil => trivial
  | cons m ms ih =>
    exact ⟨h c m h0 ha.1, fun c' hm => ih (hstep c m c' h0 ha.1 hm) (ha.2 c' hm)⟩

/-! ## The calls a pool can make -/

/-- Every call that some thread can still make satisfies `φ`. -/
def Config.All (φ : S.Op → Prop) (c : Config P) : Prop := ∀ t ∈ c.threads, t.prog.All φ

theorem Config.all_init (φ : S.Op → Prop) (w : P.World) : (Config.init (P := P) w).All φ :=
  fun _ h => by cases h

theorem Config.All.next {φ : S.Op → Prop} {c : Config P} (hc : c.All φ) {i : Nat} {t : Thread P}
    {op : S.Op} {k : S.Ans op → Prog S Unit} (hn : c.Next i t op k) : φ op := by
  have := hc t (List.mem_of_getElem? hn.1)
  rw [hn.2.2] at this
  exact this.1

theorem Config.All.move {φ : S.Op → Prop} (hbody : ∀ e, (P.body e).All φ) {c c' : Config P}
    {m : Move P} (hc : c.All φ) (h : Effect.move c m = some c') : c'.All φ := by
  intro s hs
  rcases move_cases h with ⟨e, rfl, rfl⟩ | ⟨i, ch, t, op, k, ans, w', rfl, hn, _, rfl⟩ |
    ⟨i, t, rfl, ht, rfl⟩
  · rcases List.mem_append.1 hs with hs | hs
    · exact hc s hs
    · rw [List.mem_singleton.1 hs]; exact hbody e
  · rcases List.mem_or_eq_of_mem_set hs with hs | rfl
    · exact hc s hs
    · have ho := hc t (List.mem_of_getElem? hn.1)
      rw [hn.2.2] at ho
      exact ho.2 ans
  · rcases List.mem_or_eq_of_mem_set hs with hs | rfl
    · exact hc s hs
    · exact hc t (List.mem_of_getElem? ht)

theorem Config.All.play {φ : S.Op → Prop} (hbody : ∀ e, (P.body e).All φ) {c c' : Config P}
    {ms : List (Move P)} (hc : c.All φ) (h : Effect.play c ms = some c') : c'.All φ := by
  induction ms generalizing c with
  | nil => cases h; exact hc
  | cons m ms ih =>
    obtain ⟨c₁, hm, h⟩ := Option.bind_eq_some_iff.1 h
    exact ih (hc.move hbody hm) h

end Pool

end Effect
