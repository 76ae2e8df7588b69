import DocumentAi.Lib.Sequential

/-!
# Protocols: what a program may call next, given what it has been answered so far

A protocol gives each invocation a local state computed from its past calls. It says which calls
are allowed in a local state, which answers can come back, and the next local state. A program
*obeys* the protocol when every call it can reach is allowed. `protocol_inv` lifts this to pools:
in every run, each thread's next call is allowed in the local state of its own trace, so that an
invariant of the whole system needs one argument for each allowed call and never looks into a
program again.

| here | meaning |
| --- | --- |
| `Protocol`      | local states, allowed calls, possible answers, the next local state |
| `Obeys Q E s p` | from local state `s` every reachable call of `p` is allowed; a return satisfies `Q`, an exception `E` |
| `Thread.loc`    | the local state of a thread, folded over its trace |
| `Coupled`       | every thread's remaining program obeys from its local state |
-/

namespace Effect

structure Protocol (S : Sig) where
  State    : Type
  allow    : State → S.Op → Prop
  possible : State → (op : S.Op) → S.Ans op → Prop
  next     : State → (op : S.Op) → S.Ans op → State

namespace Protocol

variable {S : Sig} {R : Protocol S} {α β : Type}

def Obeys (R : Protocol S) (Q : R.State → α → Prop) (E : R.State → S.Exc → Prop) :
    R.State → Prog S α → Prop
  | s, .ret a     => Q s a
  | s, .raise e   => E s e
  | s, .call op k => R.allow s op ∧ ∀ r, R.possible s op r → Obeys R Q E (R.next s op r) (k r)

section
variable {Q Q' : R.State → α → Prop} {Q₂ : R.State → β → Prop} {E F : R.State → S.Exc → Prop}

theorem Obeys.mono {s : R.State} {p : Prog S α} (hQ : ∀ s a, Q s a → Q' s a)
    (hE : ∀ s e, E s e → F s e) (h : R.Obeys Q E s p) : R.Obeys Q' F s p := by
  induction p generalizing s with
  | ret a => exact hQ s a h
  | raise e => exact hE s e h
  | call op k ih => exact ⟨h.1, fun r hr => ih r (h.2 r hr)⟩

theorem obeys_ret {s : R.State} {a : α} (h : Q s a) : R.Obeys Q E s (.ret a) := h

theorem obeys_raise {s : R.State} {e : S.Exc} (h : E s e) : R.Obeys Q E s (.raise e) := h

theorem obeys_bind {s : R.State} {p : Prog S α} {f : α → Prog S β} (hp : R.Obeys Q E s p)
    (hf : ∀ s a, Q s a → R.Obeys Q₂ E s (f a)) : R.Obeys Q₂ E s (p.bind f) := by
  induction p generalizing s with
  | ret a => exact hf s a hp
  | raise e => exact hp
  | call op k ih => exact ⟨hp.1, fun r hr => ih r (hp.2 r hr)⟩

theorem obeys_tryCatch {s : R.State} {p : Prog S α} {h : S.Exc → Prog S α}
    (hp : R.Obeys Q F s p) (hh : ∀ s e, F s e → R.Obeys Q E s (h e)) :
    R.Obeys Q E s (p.tryCatch h) := by
  induction p generalizing s with
  | ret a => exact hp
  | raise e => exact hh s e hp
  | call op k ih => exact ⟨hp.1, fun r hr => ih r (hp.2 r hr)⟩

theorem obeys_perform {s : R.State} {op : S.Op} {Q : R.State → S.Res op → Prop}
    (ha : R.allow s op) (hok : ∀ r, R.possible s op (.ok r) → Q (R.next s op (.ok r)) r)
    (herr : ∀ e, R.possible s op (.error e) → E (R.next s op (.error e)) e) :
    R.Obeys Q E s (.perform op) := by
  refine ⟨ha, fun r hr => ?_⟩
  cases r with
  | ok r => exact hok r hr
  | error e => exact herr e hr

theorem obeys_ite {s : R.State} {c : Prop} [Decidable c] {p q : Prog S α}
    (hp : c → R.Obeys Q E s p) (hq : ¬ c → R.Obeys Q E s q) :
    R.Obeys Q E s (if c then p else q) := by
  split
  · exact hp ‹c›
  · exact hq ‹¬ c›

theorem obeys_forEach {ι : Type} {p : ι → Prog S Unit} {I : R.State → Prop}
    (hp : ∀ s x, I s → R.Obeys (fun s _ => I s) E s (p x)) :
    ∀ (xs : List ι) (s : R.State), I s → R.Obeys (fun s _ => I s) E s (Prog.forEach p xs)
  | [], _, h => h
  | x :: xs, s, h => obeys_bind (hp s x h) fun s' _ h' => obeys_forEach hp xs s' h'

/-- A program whose calls are allowed in every local state obeys, whatever the local state is. -/
theorem obeys_of_spec {φ : S.Op → Prop} {Q : α → Prop} (hφ : ∀ s op, φ op → R.allow s op)
    {p : Prog S α} (h : p.Spec φ Q) (s : R.State) :
    R.Obeys (fun _ a => Q a) (fun _ _ => True) s p := by
  induction p generalizing s with
  | ret a => exact h
  | raise e => trivial
  | call op k ih => exact ⟨hφ s op h.1, fun r _ => ih r (h.2 r) _⟩

/-- A program whose calls are allowed in a set of local states and never leave it obeys there. -/
theorem obeys_of_inv {φ : S.Op → Prop} {I : R.State → Prop} (hI : ∀ s op, φ op → I s →
    R.allow s op ∧ ∀ r, I (R.next s op r)) {p : Prog S α} (hp : p.All φ) {s : R.State} (hs : I s) :
    R.Obeys (fun s _ => I s) (fun s _ => I s) s p := by
  induction p generalizing s with
  | ret a => exact hs
  | raise e => exact hs
  | call op k ih =>
    obtain ⟨ha, hn⟩ := hI s op hp.1 hs
    exact ⟨ha, fun r _ => ih r (hp.2 r) (hn r)⟩

/-- In a set of local states that allows every call and is never left, every program obeys. -/
theorem obeys_of_free {I : R.State → Prop} (hI : ∀ s op, I s → R.allow s op ∧
    ∀ r, I (R.next s op r)) {s : R.State} (hs : I s) (p : Prog S α) :
    R.Obeys (fun s _ => I s) (fun s _ => I s) s p :=
  obeys_of_inv (fun s op _ => hI s op) (Prog.all_true p) hs

/-- Calls that are allowed in every local state and leave it alone. -/
def Quiet (R : Protocol S) (op : S.Op) : Prop := ∀ s, R.allow s op ∧ ∀ r, R.next s op r = s

/-- A program whose calls are allowed in `s` and leave it alone obeys from `s` and ends there. -/
theorem obeys_of_stuck {φ : S.Op → Prop} {s : R.State}
    (hs : ∀ op, φ op → R.allow s op ∧ ∀ r, R.next s op r = s) {p : Prog S α} (h : p.All φ) :
    R.Obeys (fun s' _ => s' = s) (fun s' _ => s' = s) s p := by
  induction p with
  | ret a => exact rfl
  | raise e => exact rfl
  | call op k ih =>
    obtain ⟨ha, hn⟩ := hs op h.1
    exact ⟨ha, fun r _ => by rw [hn r]; exact ih r (h.2 r)⟩

/-- A program of quiet calls obeys from any local state and ends in the same one. -/
theorem obeys_of_quiet {p : Prog S α} (h : p.All R.Quiet) (s : R.State) :
    R.Obeys (fun s' _ => s' = s) (fun s' _ => s' = s) s p :=
  obeys_of_stuck (fun _ hop => hop s) h

/-- Put a program of quiet calls in front: the rest starts in the local state it started in. -/
theorem obeys_quiet_bind {s : R.State} {p : Prog S α} {f : α → Prog S β} (hp : p.All R.Quiet)
    (hE : ∀ e, E s e) (hf : ∀ a, R.Obeys Q₂ E s (f a)) : R.Obeys Q₂ E s (p.bind f) := by
  have hq : R.Obeys (fun s' _ => s' = s) E s p :=
    (obeys_of_quiet hp s).mono (fun _ _ h => h) fun s' e (h : s' = s) => h ▸ hE e
  exact obeys_bind hq fun s' a (h : s' = s) => h ▸ hf a

end

/-- Along a run of an obeying program with possible answers the rest still obeys. -/
theorem Obeys.trace {P : Sys S} {Q : R.State → α → Prop} {E : R.State → S.Exc → Prop}
    {s : R.State} {w w' : P.World} {p q : Prog S α} {tr : List (Event S)} (h : R.Obeys Q E s p)
    (hs : Steps P w p tr q w') (hpos : ∀ ev ∈ tr, ∀ s, R.possible s ev.op ev.ans) :
    R.Obeys Q E (tr.foldl (fun s ev => R.next s ev.op ev.ans) s) q := by
  induction hs generalizing s with
  | refl => exact h
  | call hx _ ih =>
    obtain ⟨hev, hrest⟩ := List.forall_mem_cons.1 hpos
    exact ih (h.2 _ (hev s)) hrest

/-- Along any run of an obeying program whose answers are possible, the rest still obeys. -/
theorem Obeys.steps {P : Sys S} {Q : R.State → α → Prop} {E : R.State → S.Exc → Prop}
    (hpos : ∀ s w op ch ans w', P.exec w op ch = some (ans, w') → R.possible s op ans)
    {s : R.State} {w w' : P.World} {p q : Prog S α} {tr : List (Event S)} (h : R.Obeys Q E s p)
    (hs : Steps P w p tr q w') :
    R.Obeys Q E (tr.foldl (fun s ev => R.next s ev.op ev.ans) s) q := by
  induction hs generalizing s with
  | refl => exact h
  | call hx _ ih => exact ih (h.2 _ (hpos _ _ _ _ _ _ hx))

/-! ## Pools of obeying programs -/

section
variable {P : Sys S}

/-- The local state of a thread: its entry's first state, moved along its trace. -/
def loc (R : Protocol S) (init : P.Entry → R.State) (t : Thread P) : R.State :=
  t.trace.foldr (fun ev s => R.next s ev.op ev.ans) (init t.entry)

variable {init : P.Entry → R.State} {Q : R.State → Unit → Prop} {E : R.State → S.Exc → Prop}

@[simp] theorem loc_init (e : P.Entry) : R.loc init (Thread.init e) = init e := rfl

@[simp] theorem loc_resume (t : Thread P) {op : S.Op} (k : S.Ans op → Prog S Unit)
    (ans : S.Ans op) : R.loc init (t.resume k ans) = R.next (R.loc init t) op ans := rfl

@[simp] theorem loc_crash (t : Thread P) :
    R.loc init { t with crashed := true } = R.loc init t := rfl

def Coupled (R : Protocol S) (init : P.Entry → R.State) (Q : R.State → Unit → Prop)
    (E : R.State → S.Exc → Prop) (c : Config P) : Prop :=
  ∀ t ∈ c.threads, R.Obeys Q E (R.loc init t) t.prog

theorem Coupled.allow {c : Config P} (hc : R.Coupled init Q E c) {i : Nat} {t : Thread P}
    {op : S.Op} {k : S.Ans op → Prog S Unit} (hn : c.Next i t op k) :
    R.allow (R.loc init t) op := by
  have := hc t (List.mem_of_getElem? hn.1)
  rw [hn.2.2] at this
  exact this.1

theorem Coupled.move {c c' : Config P} {m : Move P} (hc : R.Coupled init Q E c)
    (hbody : ∀ e, R.Obeys Q E (init e) (P.body e)) (h : Effect.move c m = some c')
    (hpos : ∀ i ch t op k ans w', m = .act i ch → c.Next i t op k →
      P.exec c.world op ch = some (ans, w') → R.possible (R.loc init t) op ans) :
    R.Coupled init Q E c' := by
  intro s hs
  rcases move_cases h with ⟨e, rfl, rfl⟩ | ⟨i, ch, t, op, k, ans, w', hm, hn, hx, rfl⟩ |
    ⟨i, t, rfl, ht, rfl⟩
  · rcases List.mem_append.1 hs with hs | hs
    · exact hc s hs
    · rw [List.mem_singleton.1 hs]; exact hbody e
  · rcases List.mem_or_eq_of_mem_set hs with hs | rfl
    · exact hc s hs
    · have ho := hc t (List.mem_of_getElem? hn.1)
      rw [hn.2.2] at ho
      exact ho.2 ans (hpos i ch t op k ans w' hm hn hx)
  · rcases List.mem_or_eq_of_mem_set hs with hs | rfl
    · exact hc s hs
    · exact hc t (List.mem_of_getElem? ht)

variable (init) in
/-- **Protocol rule.** When every entry's program obeys the protocol, an invariant of the pool is
kept by a whole run as soon as it is kept by a start, by a crash, and by every *allowed* call. -/
theorem protocol_inv {φ : Config P → Move P → Prop} {J : Config P → Prop}
    (hbody : ∀ e, R.Obeys Q E (init e) (P.body e))
    (hstart : ∀ c e, J c → φ c (.start e) →
      J { c with threads := c.threads ++ [Thread.init e] })
    (hact : ∀ c i ch t op k ans w', J c → R.Coupled init Q E c → φ c (.act i ch) →
      c.Next i t op k → R.allow (R.loc init t) op → P.exec c.world op ch = some (ans, w') →
      R.possible (R.loc init t) op ans ∧
        J { world := w', threads := c.threads.set i (t.resume k ans) })
    (hcrash : ∀ c i t, J c → φ c (.crash i) → c.threads[i]? = some t →
      J { c with threads := c.threads.set i { t with crashed := true } })
    {c c' : Config P} {ms : List (Move P)} (hc : R.Coupled init Q E c) (hJ : J c)
    (ha : Along φ c ms) (h : play c ms = some c') : R.Coupled init Q E c' ∧ J c' := by
  suffices hstep : ∀ c m c', R.Coupled init Q E c ∧ J c → φ c m → move c m = some c' →
      R.Coupled init Q E c' ∧ J c' from play_inv hstep ⟨hc, hJ⟩ ha h
  intro c m c' ⟨hc, hJ⟩ hφ hm
  have hact' : ∀ i ch t op k ans w', m = .act i ch → c.Next i t op k →
      P.exec c.world op ch = some (ans, w') → R.possible (R.loc init t) op ans ∧
        J { world := w', threads := c.threads.set i (t.resume k ans) } := by
    rintro i ch t op k ans w' rfl hn hx
    exact hact c i ch t op k ans w' hJ hc hφ hn (hc.allow hn) hx
  refine ⟨hc.move hbody hm fun i ch t op k ans w' h₁ h₂ h₃ =>
    (hact' i ch t op k ans w' h₁ h₂ h₃).1, ?_⟩
  rcases move_cases hm with ⟨e, rfl, rfl⟩ | ⟨i, ch, t, op, k, ans, w', h₁, h₂, h₃, rfl⟩ |
    ⟨i, t, rfl, ht, rfl⟩
  · exact hstart c e hJ hφ
  · exact (hact' i ch t op k ans w' h₁ h₂ h₃).2
  · exact hcrash c i t hJ hφ ht

end

end Protocol

end Effect
