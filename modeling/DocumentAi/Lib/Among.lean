import DocumentAi.Lib.Sequential

/-!
# One handler among others, with a log

Between two calls of a handler others make calls of their own. The log keeps them all, in order,
each with the world it was made in.

| here | meaning |
| --- | --- |
| `Logged`       | a call in the log: the handler's own or another's |
| `interfere`    | calls of others, one after the other |
| `Sys.among`    | the system in which a handler runs among others; its world carries the log |
| `Chain w l w'` | the calls of `l` lead from `w` to `w'` |
| `OwnOps φ l`   | the handler's own calls in `l` satisfy `φ` |
| `ownEvents l`  | these calls with their answers: the handler's trace |
| `among_of_play` | every thread of a pool has run among the others |
-/

namespace Effect

variable {S : Sig} {P : Sys S} {α : Type}

structure Logged (P : Sys S) where
  own    : Bool
  before : P.World
  event  : Event S
  after  : P.World

def interfere (P : Sys S) : P.World → List (S.Op × P.Choice) →
    Option (P.World × List (Logged P))
  | w, []               => some (w, [])
  | w, (op, ch) :: rest =>
    (P.exec w op ch).bind fun r =>
      (interfere P r.2 rest).map fun x => (x.1, ⟨false, w, ⟨op, r.1⟩, r.2⟩ :: x.2)

/-- A call of the handler, after the calls of others that the choice lists. -/
def Sys.among (P : Sys S) : Sys S where
  World  := P.World × List (Logged P)
  Choice := List (S.Op × P.Choice) × P.Choice
  exec   := fun x op ch =>
    (interfere P x.1 ch.1).bind fun y =>
      (P.exec y.1 op ch.2).map fun r =>
        (r.1, (r.2, x.2 ++ (y.2 ++ [⟨true, y.1, ⟨op, r.1⟩, r.2⟩])))
  Entry  := P.Entry
  body   := P.body

def Logged.Valid (e : Logged P) : Prop :=
  ∃ ch, P.exec e.before e.event.op ch = some (e.event.ans, e.after)

def Chain : P.World → List (Logged P) → P.World → Prop
  | w, [], w'     => w' = w
  | w, e :: l, w' => e.before = w ∧ e.Valid ∧ Chain e.after l w'

def OwnOps (φ : S.Op → Prop) (l : List (Logged P)) : Prop :=
  ∀ e ∈ l, e.own = true → φ e.event.op

/-- The handler's own calls, as it sees them. -/
def ownEvents (l : List (Logged P)) : List (Event S) := (l.filter (·.own)).map (·.event)

section
variable {w w₁ w' : P.World} {l l' : List (Logged P)} {e : Logged P}

theorem chain_append : Chain w (l ++ l') w' ↔ ∃ w₁, Chain w l w₁ ∧ Chain w₁ l' w' := by
  induction l generalizing w with
  | nil =>
    constructor
    · intro h
      exact ⟨w, rfl, h⟩
    · rintro ⟨_, rfl, h⟩
      exact h
  | cons e l ih =>
    constructor
    · rintro ⟨hb, hv, h⟩
      obtain ⟨w₁, h₁, h₂⟩ := ih.1 h
      exact ⟨w₁, ⟨hb, hv, h₁⟩, h₂⟩
    · rintro ⟨w₁, ⟨hb, hv, h₁⟩, h₂⟩
      exact ⟨hb, hv, ih.2 ⟨w₁, h₁, h₂⟩⟩

/-- What every call of a chain keeps, the chain keeps. -/
theorem Chain.keeps {I : P.World → Prop} (h : Chain w l w')
    (hI : ∀ e ∈ l, e.Valid → I e.before → I e.after) (hw : I w) : I w' := by
  induction l generalizing w with
  | nil =>
    obtain rfl := h
    exact hw
  | cons e l ih =>
    obtain ⟨rfl, hv, h⟩ := h
    obtain ⟨he, hl⟩ := List.forall_mem_cons.1 hI
    exact ih h hl (he hv hw)

theorem chain_interfere {os : List (S.Op × P.Choice)} {x : P.World × List (Logged P)}
    (h : interfere P w os = some x) : Chain w x.2 x.1 ∧ ∀ e ∈ x.2, e.own = false := by
  induction os generalizing w x with
  | nil =>
    obtain rfl := Option.some.inj h
    exact ⟨rfl, fun _ he => by cases he⟩
  | cons o os ih =>
    obtain ⟨r, hx, h⟩ := Option.bind_eq_some_iff.1 h
    obtain ⟨y, hy, rfl⟩ := Option.map_eq_some_iff.1 h
    obtain ⟨hchain, hown⟩ := ih hy
    exact ⟨⟨rfl, ⟨o.2, hx⟩, hchain⟩, List.forall_mem_cons.2 ⟨rfl, hown⟩⟩

/-- One call of the handler: others' calls, then its own. -/
theorem among_exec {x x' : P.World × List (Logged P)} {op : S.Op} {ans : S.Ans op}
    {ch : P.among.Choice} (h : P.among.exec x op ch = some (ans, x')) :
    ∃ l w, x'.2 = x.2 ++ (l ++ [⟨true, w, ⟨op, ans⟩, x'.1⟩]) ∧ Chain x.1 l w ∧
      (∀ e ∈ l, e.own = false) ∧ ∃ ch', P.exec w op ch' = some (ans, x'.1) := by
  obtain ⟨y, hy, h⟩ := Option.bind_eq_some_iff.1 h
  obtain ⟨r, hr, he⟩ := Option.map_eq_some_iff.1 h
  cases he
  obtain ⟨hchain, hown⟩ := chain_interfere hy
  exact ⟨y.2, y.1, rfl, hchain, hown, ch.2, hr⟩

theorem ownEvents_append : ownEvents (l ++ l') = ownEvents l ++ ownEvents l' := by
  rw [ownEvents, List.filter_append, List.map_append]
  rfl

theorem mem_ownEvents {ev : Event S} : ev ∈ ownEvents l ↔ ∃ e ∈ l, e.own = true ∧ e.event = ev := by
  simp only [ownEvents, List.mem_map, List.mem_filter, and_assoc]

theorem ownEvents_others (h : ∀ e ∈ l, e.own = false) : ownEvents l = [] := by
  have hnone : l.filter (·.own) = [] := by
    refine List.filter_eq_nil_iff.2 fun e he ho => ?_
    rw [h e he] at ho
    cases ho
  rw [ownEvents, hnone]
  rfl

/-- The handler's own calls, one after the other, are found in this order in the log. -/
theorem ownEvents_split {pre post : List (Event S)} (h : ownEvents l = pre ++ post) :
    ∃ l₁ l₂, l = l₁ ++ l₂ ∧ ownEvents l₁ = pre ∧ ownEvents l₂ = post := by
  obtain ⟨f₁, f₂, hf, hpre, hpost⟩ := List.map_eq_append_iff.1 h
  obtain ⟨l₁, l₂, hl, h₁, h₂⟩ := List.filter_eq_append_iff.1 hf
  subst h₁ h₂
  exact ⟨l₁, l₂, hl, hpre, hpost⟩

/-- Before the first of them come calls of others alone. -/
theorem ownEvents_cons {ev : Event S} {post : List (Event S)} (h : ownEvents l = ev :: post) :
    ∃ l₁ e l₂, l = l₁ ++ e :: l₂ ∧ (∀ o ∈ l₁, o.own = false) ∧ e.own = true ∧ e.event = ev ∧
      ownEvents l₂ = post := by
  obtain ⟨e, f, hf, hev, hpost⟩ := List.map_eq_cons_iff.1 h
  obtain ⟨l₁, l₂, hl, hothers, hown, h₂⟩ := List.filter_eq_cons_iff.1 hf
  subst h₂
  exact ⟨l₁, e, l₂, hl, fun o ho => Bool.eq_false_iff.2 (hothers o ho), hown, hev, hpost⟩

theorem Chain.valid (h : Chain w l w') : ∀ e ∈ l, e.Valid := by
  induction l generalizing w with
  | nil => exact fun _ he => by cases he
  | cons e l ih =>
    obtain ⟨_, hv, h⟩ := h
    exact List.forall_mem_cons.2 ⟨hv, ih h⟩

/-- A run only adds to the log: what it adds leads from its first world to its last, and its own
calls there are those of its trace. -/
theorem Steps.log {φ : S.Op → Prop} {x x' : P.World × List (Logged P)} {p q : Prog S α}
    {tr : List (Event S)} (hp : p.All φ) (h : Steps P.among x p tr q x') :
    ∃ l, x'.2 = x.2 ++ l ∧ Chain x.1 l x'.1 ∧ OwnOps φ l ∧ ownEvents l = tr := by
  refine Steps.relate (P := P.among)
    (R := fun x tr x' => ∃ l, x'.2 = x.2 ++ l ∧ Chain x.1 l x'.1 ∧ OwnOps φ l ∧ ownEvents l = tr)
    ?_ ?_ hp h
  · intro x
    exact ⟨[], (List.append_nil _).symm, rfl, fun _ he => (by cases he), rfl⟩
  · rintro x x₁ x' op ch ans tr hop hx ⟨l', hl', hchain', hown', rfl⟩
    obtain ⟨l, w, hl, hchain, hother, hexec⟩ := among_exec hx
    refine ⟨l ++ [⟨true, w, ⟨op, ans⟩, x₁.1⟩] ++ l', ?_, ?_, ?_, ?_⟩
    · rw [hl', hl, List.append_assoc]
    · exact chain_append.2 ⟨x₁.1, chain_append.2 ⟨w, hchain, rfl, hexec, rfl⟩, hchain'⟩
    · intro e he ho
      rcases List.mem_append.1 he with he | he
      · rcases List.mem_append.1 he with he | he
        · rw [hother e he] at ho
          cases ho
        · cases List.mem_singleton.1 he
          exact hop
      · exact hown' e he ho
    · rw [ownEvents_append, ownEvents_append, ownEvents_others hother]
      rfl

end

/-! ## Threads of a pool -/

theorem interfere_append {w w₁ w₂ : P.World} {os os' : List (S.Op × P.Choice)}
    {l l' : List (Logged P)} (h : interfere P w os = some (w₁, l))
    (h' : interfere P w₁ os' = some (w₂, l')) :
    interfere P w (os ++ os') = some (w₂, l ++ l') := by
  induction os generalizing w l with
  | nil =>
    cases h
    exact h'
  | cons o os ih =>
    obtain ⟨r, hx, h⟩ := Option.bind_eq_some_iff.1 h
    obtain ⟨y, hy, he⟩ := Option.map_eq_some_iff.1 h
    cases he
    rw [List.cons_append, interfere, hx, Option.bind_some, ih hy]
    rfl

/-- A thread has run among others, who since have led on to the world `w`. -/
def Thread.Among (t : Thread P) (w : P.World) : Prop :=
  ∃ w₀ x os l, Steps P.among (w₀, []) (P.body t.entry) t.trace.reverse t.prog x ∧
    interfere P x.1 os = some (w, l)

/-- A move of a pool: the thread's own call, or one more call of others. -/
theorem among_move {c c' : Config P} {m : Move P} (hc : ∀ t ∈ c.threads, t.Among c.world)
    (hm : move c m = some c') : ∀ t ∈ c'.threads, t.Among c'.world := by
  intro s hs
  rcases move_cases hm with ⟨e, rfl, rfl⟩ | ⟨i, ch, t, op, k, ans, w', rfl, hn, hx, rfl⟩ |
    ⟨i, t, rfl, ht, rfl⟩
  · rcases List.mem_append.1 hs with hs | hs
    · exact hc s hs
    · rw [List.mem_singleton.1 hs]
      exact ⟨c.world, (c.world, []), [], [], .refl, rfl⟩
  · rcases List.mem_or_eq_of_mem_set hs with hs | rfl
    · obtain ⟨w₀, x, os, l, hsteps, hos⟩ := hc s hs
      refine ⟨w₀, x, os ++ [(op, ch)], l ++ [⟨false, c.world, ⟨op, ans⟩, w'⟩], hsteps, ?_⟩
      refine interfere_append hos ?_
      simp only [interfere, hx, Option.bind_some, Option.map_some]
    · obtain ⟨w₀, x, os, l, hsteps, hos⟩ := hc t (List.mem_of_getElem? hn.1)
      rw [hn.2.2] at hsteps
      refine ⟨w₀, (w', x.2 ++ (l ++ [⟨true, c.world, ⟨op, ans⟩, w'⟩])), [], [], ?_, rfl⟩
      have hexec : P.among.exec x op (os, ch) =
          some (ans, (w', x.2 ++ (l ++ [⟨true, c.world, ⟨op, ans⟩, w'⟩]))) := by
        simp only [Sys.among, hos, hx, Option.bind_some, Option.map_some]
      have hlast : Steps P.among x (.call op k) [⟨op, ans⟩] (k ans) _ := .call hexec .refl
      simpa [Thread.resume] using hsteps.trans hlast
  · rcases List.mem_or_eq_of_mem_set hs with hs | rfl
    · exact hc s hs
    · exact hc t (List.mem_of_getElem? ht)

/-- **Every thread of a pool has run among the others.** -/
theorem among_of_play {c c' : Config P} {ms : List (Move P)} (h : play c ms = some c')
    (h0 : ∀ t ∈ c.threads, t.Among c.world) : ∀ t ∈ c'.threads, t.Among c'.world := by
  induction ms generalizing c with
  | nil =>
    obtain rfl := Option.some.inj h
    exact h0
  | cons m ms ih =>
    obtain ⟨c₁, hm, h⟩ := Option.bind_eq_some_iff.1 h
    exact ih h (among_move h0 hm)

end Effect
