import DocumentAi.Lib.Pool

/-!
# One handler alone: sequential runs of a program

| here | meaning |
| --- | --- |
| `Steps w p tr q w'` | `p`, run alone from `w`, makes the calls `tr` and is at `q` in `w'` |
| `Ends w p tr r w'`  | the run is over, with the result or exception `r` |
| `steps_bind_iff`, `ends_bind_iff`, … | how runs compose |
| `Safe φ Q E w p`    | from `w` every call of `p` satisfies `φ`, every return `Q`, every exception `E` |
| `Reaches ψ w p`     | some run of `p` from `w` comes to a call that satisfies `ψ` |
| `follow`            | the run that given choices lead to |
| `Serves`            | requests run one after the other; `serve` runs them on given choices |
| `Sys.amid`          | the runs of one handler while others change the world between its calls |
| `Sys.limit`         | the runs in which the environment makes some choices only |
| `play_alone`        | `Steps` is a pool with one thread |
-/

namespace Effect

variable {S : Sig} {P : Sys S} {α β : Type}

/-- A run of `p` alone, up to any point; the oldest call comes first. -/
inductive Steps (P : Sys S) {α : Type} :
    P.World → Prog S α → List (Event S) → Prog S α → P.World → Prop where
  | refl {w : P.World} {p : Prog S α} : Steps P w p [] p w
  | call {w w₁ w' : P.World} {op : S.Op} {k : S.Ans op → Prog S α} {ch : P.Choice}
      {ans : S.Ans op} {tr : List (Event S)} {q : Prog S α}
      (hx : P.exec w op ch = some (ans, w₁)) (h : Steps P w₁ (k ans) tr q w') :
      Steps P w (.call op k) (⟨op, ans⟩ :: tr) q w'

/-- A finished program. -/
def Prog.ofExcept : Except S.Exc α → Prog S α
  | .ok a    => .ret a
  | .error e => .raise e

/-- How a finished program has ended. -/
def Prog.result : Prog S α → Option (Except S.Exc α)
  | .ret a   => some (.ok a)
  | .raise e => some (.error e)
  | .call .. => none

theorem Prog.eq_ofExcept {p : Prog S α} {r : Except S.Exc α} (h : p.result = some r) :
    p = .ofExcept r := by
  cases p <;> cases h <;> rfl

theorem Thread.done_of_result {P : Sys S} {t : Thread P} (h : t.prog.result.isSome = true) :
    t.Done := by
  obtain ⟨r, hr⟩ := Option.isSome_iff_exists.1 h
  cases r with
  | ok a => exact .inr (.inl (Prog.eq_ofExcept hr))
  | error e => exact .inr (.inr ⟨e, Prog.eq_ofExcept hr⟩)

abbrev Ends (P : Sys S) (w : P.World) (p : Prog S α) (tr : List (Event S)) (r : Except S.Exc α)
    (w' : P.World) : Prop := Steps P w p tr (.ofExcept r) w'

section
variable {w w₁ w' : P.World} {p q : Prog S α} {tr tr₁ tr₂ : List (Event S)} {f : α → Prog S β}

theorem Steps.trans {p₁ : Prog S α} (h₁ : Steps P w p tr₁ p₁ w₁) (h₂ : Steps P w₁ p₁ tr₂ q w') :
    Steps P w p (tr₁ ++ tr₂) q w' := by
  induction h₁ with
  | refl => exact h₂
  | call hx _ ih => exact .call hx (ih h₂)

theorem Steps.bind_left (h : Steps P w p tr q w') : Steps P w (p.bind f) tr (q.bind f) w' := by
  induction h with
  | refl => exact .refl
  | call hx _ ih => exact .call hx ih

theorem Steps.bind {a : α} {q : Prog S β} (h₁ : Steps P w p tr₁ (.ret a) w₁)
    (h₂ : Steps P w₁ (f a) tr₂ q w') : Steps P w (p.bind f) (tr₁ ++ tr₂) q w' :=
  Steps.trans (h₁.bind_left (f := f)) h₂

theorem Steps.tryCatch_left {h : S.Exc → Prog S α} (hs : Steps P w p tr q w') :
    Steps P w (p.tryCatch h) tr (q.tryCatch h) w' := by
  induction hs with
  | refl => exact .refl
  | call hx _ ih => exact .call hx ih

theorem steps_perform {op : S.Op} (ch : P.Choice) {r : S.Res op}
    (hx : P.exec w op ch = some (.ok r, w')) :
    Steps P w (.perform op) [⟨op, .ok r⟩] (.ret r) w' := .call hx .refl

theorem steps_after_call {op : S.Op} {f : S.Res op → Prog S α} (ch : P.Choice) (r : S.Res op)
    (hx : P.exec w op ch = some (.ok r, w₁)) (h : Steps P w₁ (f r) tr q w') :
    Steps P w ((Prog.perform op).bind f) (⟨op, .ok r⟩ :: tr) q w' := .call hx h

/-- The run that the choices `chs` give, when they fit. -/
def follow (P : Sys S) (w : P.World) : Prog S α → List P.Choice →
    Option (List (Event S) × Prog S α × P.World)
  | p, []                => some ([], p, w)
  | .call op k, ch :: chs =>
    match P.exec w op ch with
    | some (ans, w₁) =>
      (follow P w₁ (k ans) chs).map fun (tr, q, w') => (⟨op, ans⟩ :: tr, q, w')
    | none           => none
  | _, _ :: _            => none

theorem steps_of_follow {chs : List P.Choice} (h : follow P w p chs = some (tr, q, w')) :
    Steps P w p tr q w' := by
  induction chs generalizing w p tr with
  | nil =>
    cases p <;> (simp only [follow, Option.some.injEq, Prod.mk.injEq] at h; obtain ⟨rfl, rfl, rfl⟩ := h)
    all_goals exact .refl
  | cons ch chs ih =>
    cases p with
    | ret a => cases h
    | raise e => cases h
    | call op k =>
      simp only [follow] at h
      split at h
      next ans w₁ hx =>
        obtain ⟨⟨tr', q', w''⟩, hf, he⟩ := Option.map_eq_some_iff.1 h
        simp only [Prod.mk.injEq] at he
        obtain ⟨rfl, rfl, rfl⟩ := he
        exact .call hx (ih hf)
      next => cases h

/-! ## Inversion of finished runs -/

theorem ends_ret_iff {a : α} {r : Except S.Exc α} :
    Ends P w (.ret a) tr r w' ↔ tr = [] ∧ r = .ok a ∧ w' = w := by
  constructor
  · intro h
    cases r with
    | ok b => cases h; exact ⟨rfl, rfl, rfl⟩
    | error e => cases h
  · rintro ⟨rfl, rfl, rfl⟩
    exact .refl

theorem ends_raise_iff {e : S.Exc} {r : Except S.Exc α} :
    Ends P w (.raise e) tr r w' ↔ tr = [] ∧ r = .error e ∧ w' = w := by
  constructor
  · intro h
    cases r with
    | ok b => cases h
    | error e => cases h; exact ⟨rfl, rfl, rfl⟩
  · rintro ⟨rfl, rfl, rfl⟩
    exact .refl

theorem ends_call_iff {op : S.Op} {k : S.Ans op → Prog S α} {r : Except S.Exc α} :
    Ends P w (.call op k) tr r w' ↔ ∃ ch ans w₁ tr₁, P.exec w op ch = some (ans, w₁) ∧
      tr = ⟨op, ans⟩ :: tr₁ ∧ Ends P w₁ (k ans) tr₁ r w' := by
  constructor
  · intro h
    have h : Steps P w (.call op k) tr (Prog.ofExcept r) w' := h
    generalize hq : Prog.ofExcept r = q at h
    cases h with
    | refl => cases r <;> cases hq
    | call hx h => exact ⟨_, _, _, _, hx, rfl, by rw [Ends, hq]; exact h⟩
  · rintro ⟨ch, ans, w₁, tr₁, hx, rfl, h⟩
    exact .call hx h

theorem ends_perform_iff {op : S.Op} {r : Except S.Exc (S.Res op)} :
    Ends P w (.perform op) tr r w' ↔ ∃ ch, P.exec w op ch = some (r, w') ∧ tr = [⟨op, r⟩] := by
  rw [Prog.perform, ends_call_iff]
  constructor
  · rintro ⟨ch, ans, w₁, tr₁, hx, rfl, h⟩
    cases ans with
    | ok a =>
      obtain ⟨rfl, rfl, rfl⟩ := ends_ret_iff.1 h
      exact ⟨ch, hx, rfl⟩
    | error e =>
      obtain ⟨rfl, rfl, rfl⟩ := ends_raise_iff.1 h
      exact ⟨ch, hx, rfl⟩
  · rintro ⟨ch, hx, rfl⟩
    refine ⟨ch, r, w', [], hx, rfl, ?_⟩
    cases r <;> exact .refl

theorem ends_bind_iff {r : Except S.Exc β} : Ends P w (p.bind f) tr r w' ↔
    (∃ e, r = .error e ∧ Ends P w p tr (.error e) w') ∨
    ∃ a w₁ tr₁ tr₂, Ends P w p tr₁ (.ok a) w₁ ∧ Ends P w₁ (f a) tr₂ r w' ∧ tr = tr₁ ++ tr₂ := by
  constructor
  · intro h
    induction p generalizing w tr with
    | ret a => exact .inr ⟨a, w, [], tr, .refl, h, rfl⟩
    | raise e =>
      obtain ⟨rfl, rfl, rfl⟩ := ends_raise_iff.1 h
      exact .inl ⟨e, rfl, .refl⟩
    | call op k ih =>
      obtain ⟨ch, ans, w₁, tr₁, hx, rfl, hk⟩ := ends_call_iff.1 h
      rcases ih ans hk with ⟨e, rfl, hp⟩ | ⟨a, w₂, tr₂, tr₃, h₁, h₂, rfl⟩
      · exact .inl ⟨e, rfl, .call hx hp⟩
      · exact .inr ⟨a, w₂, _, tr₃, .call hx h₁, h₂, rfl⟩
  · rintro (⟨e, rfl, h⟩ | ⟨a, w₁, tr₁, tr₂, h₁, h₂, rfl⟩)
    · exact h.bind_left
    · exact h₁.bind h₂

/-- A bind that returns has run both its parts. -/
theorem ends_bind_ok {b : β} (h : Ends P w (p.bind f) tr (.ok b) w') :
    ∃ a w₁ tr₁ tr₂, Ends P w p tr₁ (.ok a) w₁ ∧ Ends P w₁ (f a) tr₂ (.ok b) w' ∧
      tr = tr₁ ++ tr₂ :=
  (ends_bind_iff.1 h).resolve_left fun ⟨_, he, _⟩ => by cases he

theorem ends_tryCatch_iff {h : S.Exc → Prog S α} {r : Except S.Exc α} :
    Ends P w (p.tryCatch h) tr r w' ↔ (∃ a, r = .ok a ∧ Ends P w p tr (.ok a) w') ∨
    ∃ e w₁ tr₁ tr₂, Ends P w p tr₁ (.error e) w₁ ∧ Ends P w₁ (h e) tr₂ r w' ∧ tr = tr₁ ++ tr₂ := by
  constructor
  · intro hr
    induction p generalizing w tr with
    | ret a =>
      obtain ⟨rfl, rfl, rfl⟩ := ends_ret_iff.1 hr
      exact .inl ⟨a, rfl, .refl⟩
    | raise e => exact .inr ⟨e, w, [], tr, .refl, hr, rfl⟩
    | call op k ih =>
      obtain ⟨ch, ans, w₁, tr₁, hx, rfl, hk⟩ := ends_call_iff.1 hr
      rcases ih ans hk with ⟨a, rfl, hp⟩ | ⟨e, w₂, tr₂, tr₃, h₁, h₂, rfl⟩
      · exact .inl ⟨a, rfl, .call hx hp⟩
      · exact .inr ⟨e, w₂, _, tr₃, .call hx h₁, h₂, rfl⟩
  · rintro (⟨a, rfl, hr⟩ | ⟨e, w₁, tr₁, tr₂, h₁, h₂, rfl⟩)
    · exact hr.tryCatch_left
    · exact (h₁.tryCatch_left (h := h)).trans h₂

end

/-! ## Programs that never raise -/

def NoRaise (P : Sys S) (p : Prog S α) : Prop :=
  ∀ w tr e w', ¬ Ends P w p tr (.error e) w'

section
variable {p : Prog S α} {f : α → Prog S β}

theorem noRaise_ret (a : α) : NoRaise P (.ret a : Prog S α) := fun _ _ _ _ h => by cases h

theorem noRaise_bind (hp : NoRaise P p) (hf : ∀ a, NoRaise P (f a)) : NoRaise P (p.bind f) := by
  intro w tr e w' h
  rcases ends_bind_iff.1 h with ⟨e', _, he⟩ | ⟨a, w₁, tr₁, tr₂, _, h₂, _⟩
  · exact hp _ _ _ _ he
  · exact hf a _ _ _ _ h₂

theorem noRaise_tryCatch {h : S.Exc → Prog S α} (hh : ∀ e, NoRaise P (h e)) :
    NoRaise P (p.tryCatch h) := by
  intro w tr e w' hr
  rcases ends_tryCatch_iff.1 hr with ⟨a, he, _⟩ | ⟨e', w₁, tr₁, tr₂, _, h₂, _⟩
  · cases he
  · exact hh e' _ _ _ _ h₂

theorem NoRaise.ok {w w' : P.World} {tr : List (Event S)} {r : Except S.Exc α} (hp : NoRaise P p)
    (h : Ends P w p tr r w') : ∃ a, r = .ok a := by
  cases r with
  | ok a => exact ⟨a, rfl⟩
  | error e => exact absurd h (hp _ _ _ _)

end

/-! ## Safety of every run -/

/-- Whatever the environment chooses, every call made from `w` satisfies `φ`, every return `Q` and
every exception `E`. -/
def Safe (P : Sys S) (φ : S.Op → Prop) (Q : P.World → α → Prop) (E : P.World → S.Exc → Prop) :
    P.World → Prog S α → Prop
  | w, .ret a     => Q w a
  | w, .raise e   => E w e
  | w, .call op k => φ op ∧ ∀ ch ans w', P.exec w op ch = some (ans, w') → Safe P φ Q E w' (k ans)

section
variable {φ ψ : S.Op → Prop} {Q Q' : P.World → α → Prop} {R : P.World → β → Prop}
  {E F : P.World → S.Exc → Prop} {w w' : P.World} {p q : Prog S α}

theorem Safe.mono (hφ : ∀ op, φ op → ψ op) (hQ : ∀ w a, Q w a → Q' w a)
    (hE : ∀ w e, E w e → F w e) (h : Safe P φ Q E w p) : Safe P ψ Q' F w p := by
  induction p generalizing w with
  | ret a => exact hQ w a h
  | raise e => exact hE w e h
  | call op k ih => exact ⟨hφ op h.1, fun ch ans w' hx => ih ans (h.2 ch ans w' hx)⟩

theorem safe_bind {f : α → Prog S β} (hp : Safe P φ Q E w p)
    (hf : ∀ w a, Q w a → Safe P φ R E w (f a)) : Safe P φ R E w (p.bind f) := by
  induction p generalizing w with
  | ret a => exact hf w a hp
  | raise e => exact hp
  | call op k ih => exact ⟨hp.1, fun ch ans w' hx => ih ans (hp.2 ch ans w' hx)⟩

theorem safe_tryCatch {h : S.Exc → Prog S α} (hp : Safe P φ Q F w p)
    (hh : ∀ w e, F w e → Safe P φ Q E w (h e)) : Safe P φ Q E w (p.tryCatch h) := by
  induction p generalizing w with
  | ret a => exact hp
  | raise e => exact hh w e hp
  | call op k ih => exact ⟨hp.1, fun ch ans w' hx => ih ans (hp.2 ch ans w' hx)⟩

theorem safe_perform {op : S.Op} {Q : P.World → S.Res op → Prop} (hφ : φ op)
    (hok : ∀ ch r w', P.exec w op ch = some (.ok r, w') → Q w' r)
    (herr : ∀ ch e w', P.exec w op ch = some (.error e, w') → E w' e) :
    Safe P φ Q E w (.perform op) := by
  refine ⟨hφ, fun ch ans w' hx => ?_⟩
  cases ans with
  | ok r => exact hok ch r w' hx
  | error e => exact herr ch e w' hx

/-- A program whose calls all satisfy `φ` keeps every invariant that such calls keep. -/
theorem safe_of_spec {I : P.World → Prop} {Q : α → Prop}
    (hI : ∀ op w ch ans w', φ op → I w → P.exec w op ch = some (ans, w') → I w')
    (h : p.Spec φ Q) (hw : I w) : Safe P φ (fun w a => I w ∧ Q a) (fun w _ => I w) w p := by
  induction p generalizing w with
  | ret a => exact ⟨hw, h⟩
  | raise e => exact hw
  | call op k ih => exact ⟨h.1, fun ch ans w' hx => ih ans (h.2 ans) (hI op w ch ans w' h.1 hw hx)⟩

theorem Safe.steps {tr : List (Event S)} (h : Safe P φ Q E w p) (hs : Steps P w p tr q w') :
    (∀ ev ∈ tr, φ ev.op) ∧ Safe P φ Q E w' q := by
  induction hs with
  | refl => exact ⟨fun _ h => (by cases h), h⟩
  | call hx _ ih =>
    have := ih (h.2 _ _ _ hx)
    exact ⟨List.forall_mem_cons.2 ⟨h.1, this.1⟩, this.2⟩

/-- The calls of a run have what `All` says of calls. -/
theorem Steps.ops {tr : List (Event S)} (hp : p.All φ) (h : Steps P w p tr q w') :
    ∀ ev ∈ tr, φ ev.op := by
  induction h with
  | refl => exact fun _ hev => by cases hev
  | call _ _ ih => exact List.forall_mem_cons.2 ⟨hp.1, ih (hp.2 _)⟩

/-- The result of a run has what `Spec` says of returns. -/
theorem ends_of_spec {Q : α → Prop} {tr : List (Event S)} {a : α} (h : p.Spec φ Q)
    (hs : Ends P w p tr (.ok a) w') : Q a := by
  have hsafe := safe_of_spec (P := P) (I := fun _ => True) (fun _ _ _ _ _ _ _ _ => trivial) h
    (w := w) trivial
  exact (hsafe.steps hs).2.2

/-- What every call with `φ` adds to, every run of such calls has. -/
theorem Steps.relate {R : P.World → List (Event S) → P.World → Prop} {tr : List (Event S)}
    (hrefl : ∀ w, R w [] w)
    (hcall : ∀ w w₁ w' op ch ans tr, φ op → P.exec w op ch = some (ans, w₁) → R w₁ tr w' →
      R w (⟨op, ans⟩ :: tr) w')
    (hp : p.All φ) (h : Steps P w p tr q w') : R w tr w' := by
  induction h with
  | refl => exact hrefl _
  | call hx _ ih => exact hcall _ _ _ _ _ _ _ hp.1 hx (ih (hp.2 _))

end

/-- An exception that leaves a run is the answer of one of its calls. -/
theorem Steps.blamed {seen : S.Exc → Prop} {e : S.Exc} {tr : List (Event S)} (hp : p.Blames seen)
    (h : Ends P w p tr (.error e) w') : seen e ∨ ∃ op, (⟨op, .error e⟩ : Event S) ∈ tr := by
  induction p generalizing w tr seen with
  | ret a => cases h
  | raise e' =>
    obtain ⟨_, he, _⟩ := ends_raise_iff.1 h
    cases he
    exact .inl hp
  | call op k ih =>
    obtain ⟨ch, ans, w₁, tr₁, hx, rfl, hk⟩ := ends_call_iff.1 h
    cases ans with
    | ok r =>
      refine (ih _ (hp.1 r) hk).imp_right ?_
      rintro ⟨op', hm⟩
      exact ⟨op', List.mem_cons_of_mem _ hm⟩
    | error e' =>
      rcases ih _ (hp.2 e') hk with (hs | rfl) | ⟨op', hm⟩
      · exact .inl hs
      · exact .inr ⟨op, List.mem_cons_self⟩
      · exact .inr ⟨op', List.mem_cons_of_mem _ hm⟩

/-! ## Calls that some run reaches -/

/-- Some choices of the environment lead `p` to a call that satisfies `ψ`. -/
def Reaches (P : Sys S) (ψ : S.Op → Prop) (w : P.World) (p : Prog S α) : Prop :=
  ∃ tr op k w', Steps P w p tr (.call op k) w' ∧ ψ op

section
variable {ψ : S.Op → Prop} {w w₁ : P.World} {p : Prog S α} {tr : List (Event S)}

theorem reaches_perform {op : S.Op} (h : ψ op) : Reaches P ψ w (.perform op) :=
  ⟨[], op, Prog.answer, w, .refl, h⟩

theorem Reaches.bind {f : α → Prog S β} (h : Reaches P ψ w p) : Reaches P ψ w (p.bind f) := by
  obtain ⟨tr, op, k, w', hs, hop⟩ := h
  exact ⟨tr, op, _, w', hs.bind_left, hop⟩

theorem Reaches.tryCatch {g : S.Exc → Prog S α} (h : Reaches P ψ w p) :
    Reaches P ψ w (p.tryCatch g) := by
  obtain ⟨tr, op, k, w', hs, hop⟩ := h
  exact ⟨tr, op, _, w', hs.tryCatch_left, hop⟩

theorem reaches_after_call {op : S.Op} {f : S.Res op → Prog S α} (ch : P.Choice) (r : S.Res op)
    (hx : P.exec w op ch = some (.ok r, w₁)) (h : Reaches P ψ w₁ (f r)) :
    Reaches P ψ w ((Prog.perform op).bind f) := by
  obtain ⟨tr, op', k, w', hs, hop⟩ := h
  exact ⟨_, op', k, w', steps_after_call ch r hx hs, hop⟩

theorem reaches_after {f : α → Prog S β} {a : α} (h₁ : Steps P w p tr (.ret a) w₁)
    (h₂ : Reaches P ψ w₁ (f a)) : Reaches P ψ w (p.bind f) := by
  obtain ⟨tr', op, k, w', hs, hop⟩ := h₂
  exact ⟨_, op, k, w', h₁.bind hs, hop⟩

end

/-! ## One handler amid others -/

/-- The system as one handler sees it while others run between its calls: each of its calls is
executed in some world that satisfies `R`. -/
def Sys.amid (P : Sys S) (R : P.World → Prop) : Sys S where
  World  := Unit
  Choice := { w : P.World // R w } × P.Choice
  exec   := fun _ op ch => (P.exec ch.1.1 op ch.2).map fun r => (r.1, ())
  Entry  := P.Entry
  body   := P.body

section
variable {R : P.World → Prop}

theorem amid_exec {op : S.Op} {ch : (P.amid R).Choice} {ans : S.Ans op} {w' : Unit}
    (h : (P.amid R).exec () op ch = some (ans, w')) :
    ∃ w ch' w₁, R w ∧ P.exec w op ch' = some (ans, w₁) := by
  obtain ⟨⟨ans', w₁⟩, hx, he⟩ := Option.map_eq_some_iff.1 h
  cases he
  exact ⟨ch.1.1, ch.2, w₁, ch.1.2, hx⟩

theorem exec_amid {w w₁ : P.World} {op : S.Op} {ch : P.Choice} {ans : S.Ans op} (hw : R w)
    (h : P.exec w op ch = some (ans, w₁)) :
    (P.amid R).exec () op (⟨w, hw⟩, ch) = some (ans, ()) := by
  simp only [Sys.amid, h, Option.map_some]

/-- What each thread of a pool has done, it has done amid the worlds of the run. -/
theorem amid_of_play {c c' : Config P} {ms : List (Move P)}
    (hR : ∀ ns ns' c₁, ms = ns ++ ns' → play c ns = some c₁ → R c₁.world)
    (h : play c ms = some c')
    (h0 : ∀ t ∈ c.threads, Steps (P.amid R) () (P.body t.entry) t.trace.reverse t.prog ()) :
    ∀ t ∈ c'.threads, Steps (P.amid R) () (P.body t.entry) t.trace.reverse t.prog () := by
  induction ms generalizing c with
  | nil => cases h; exact h0
  | cons m ms ih =>
    obtain ⟨c₁, hm, h⟩ := Option.bind_eq_some_iff.1 h
    refine ih (fun ns ns' c₂ he hns => hR (m :: ns) ns' c₂ (by rw [he]; rfl) ?_) h ?_
    · simpa only [play, hm, Option.bind_some] using hns
    intro s hs
    rcases move_cases hm with ⟨e, rfl, rfl⟩ | ⟨i, ch, t, op, k, ans, w', rfl, hn, hx, rfl⟩ |
      ⟨i, t, rfl, ht, rfl⟩
    · rcases List.mem_append.1 hs with hs | hs
      · exact h0 s hs
      · rw [List.mem_singleton.1 hs]
        exact .refl
    · rcases List.mem_or_eq_of_mem_set hs with hs | rfl
      · exact h0 s hs
      · have ht := h0 t (List.mem_of_getElem? hn.1)
        rw [hn.2.2] at ht
        have hx' := exec_amid (R := R) (hR [] _ c rfl rfl) hx
        have hlast : Steps (P.amid R) () (.call op k) [⟨op, ans⟩] (k ans) () := .call hx' .refl
        simpa [Thread.resume] using ht.trans hlast
    · rcases List.mem_or_eq_of_mem_set hs with hs | rfl
      · exact h0 s hs
      · exact h0 t (List.mem_of_getElem? ht)

end

/-! ## Choices that are ruled out -/

/-- The system whose environment makes no choices but those with `ok`. -/
abbrev Sys.limit (P : Sys S) (ok : P.Choice → Bool) : Sys S :=
  { P with exec := fun w op ch => if ok ch then P.exec w op ch else none }

section
variable {ok : P.Choice → Bool}

theorem limit_exec {w w' : P.World} {op : S.Op} {ch : P.Choice} {ans : S.Ans op} :
    (P.limit ok).exec w op ch = some (ans, w') ↔
      ok ch = true ∧ P.exec w op ch = some (ans, w') := by
  change (if ok ch then P.exec w op ch else none) = _ ↔ _
  rw [Option.ite_none_right_eq_some]

/-- Its runs are runs. -/
theorem Steps.of_limit {w w' : (P.limit ok).World} {p q : Prog S α} {tr : List (Event S)}
    (h : Steps (P.limit ok) w p tr q w') : Steps P w p tr q w' := by
  induction h with
  | refl => exact .refl
  | call hx _ ih => exact .call (limit_exec.1 hx).2 ih

end

/-! ## Requests one after the other -/

/-- One served request: its calls and the world it leaves. -/
structure Served (P : Sys S) where
  entry : P.Entry
  trace : List (Event S)
  world : P.World

/-- The requests run one after the other, each alone and to its end. -/
def Serves (P : Sys S) : P.World → List (Served P) → Prop
  | _, []      => True
  | w, s :: ss => (∃ r, Ends P w (P.body s.entry) s.trace r s.world) ∧ Serves P s.world ss

/-- The requests that given choices serve, when every choice fits and every request ends. -/
def serve (P : Sys S) : P.World → List (P.Entry × List P.Choice) → Option (List (Served P))
  | _, []             => some []
  | w, (e, chs) :: es =>
    match follow P w (P.body e) chs with
    | none             => none
    | some (tr, q, w') =>
      match q.result with
      | none   => none
      | some _ => (serve P w' es).map (⟨e, tr, w'⟩ :: ·)

theorem serves_of_serve {es : List (P.Entry × List P.Choice)} {w : P.World}
    {ss : List (Served P)} (h : serve P w es = some ss) :
    Serves P w ss ∧ ss.map (·.entry) = es.map (·.1) := by
  induction es generalizing w ss with
  | nil =>
    cases h
    exact ⟨trivial, rfl⟩
  | cons x es ih =>
    obtain ⟨e, chs⟩ := x
    simp only [serve] at h
    split at h
    · cases h
    next tr q w' hf =>
      split at h
      · cases h
      next r hr =>
        obtain ⟨rest, hrest, rfl⟩ := Option.map_eq_some_iff.1 h
        obtain ⟨hserves, hentries⟩ := ih hrest
        refine ⟨⟨⟨r, ?_⟩, hserves⟩, by simp only [List.map_cons, hentries]⟩
        have hsteps := steps_of_follow hf
        rw [Prog.eq_ofExcept hr] at hsteps
        exact hsteps

/-- Every request satisfies `φ` in the world it starts in. -/
def EachServed (φ : P.World → P.Entry → List (Event S) → Prop) : P.World → List (Served P) → Prop
  | _, []      => True
  | w, s :: ss => φ w s.entry s.trace ∧ EachServed φ s.world ss

instance {φ : P.World → P.Entry → List (Event S) → Prop} [∀ w e tr, Decidable (φ w e tr)] :
    ∀ (w : P.World) (ss : List (Served P)), Decidable (EachServed φ w ss)
  | _, []      => inferInstanceAs (Decidable True)
  | w, s :: ss =>
    have := instDecidableEachServed (φ := φ) s.world ss
    inferInstanceAs (Decidable (φ w s.entry s.trace ∧ EachServed φ s.world ss))

/-- When a request keeps `I` exactly if it satisfies `φ`, every world of a run satisfies `I` exactly
if every request satisfies `φ`. -/
theorem serves_inv_iff {I : P.World → Prop} {φ : P.World → P.Entry → List (Event S) → Prop}
    {A : P.Entry → Prop}
    (hstep : ∀ w e tr r w', A e → I w → Ends P w (P.body e) tr r w' → (I w' ↔ φ w e tr))
    {w : P.World} {ss : List (Served P)} (h0 : I w) (hA : ∀ s ∈ ss, A s.entry)
    (h : Serves P w ss) : (∀ s ∈ ss, I s.world) ↔ EachServed φ w ss := by
  induction ss generalizing w with
  | nil => exact ⟨fun _ => trivial, fun _ _ h => (by cases h)⟩
  | cons s ss ih =>
    obtain ⟨⟨r, hs⟩, hss⟩ := h
    obtain ⟨hAs, hAss⟩ := List.forall_mem_cons.1 hA
    have hiff := hstep w s.entry s.trace r s.world hAs h0 hs
    rw [List.forall_mem_cons, EachServed]
    constructor
    · rintro ⟨hI, hrest⟩
      exact ⟨hiff.1 hI, (ih hI hAss hss).1 hrest⟩
    · rintro ⟨hφ, hrest⟩
      have hI := hiff.2 hφ
      exact ⟨hI, (ih hI hAss hss).2 hrest⟩

/-! ## A pool with one thread -/

/-- The pool in which the only thread, of entry `e`, has made the calls `tr` and is at `p`. -/
def Config.alone (e : P.Entry) (w : P.World) (tr : List (Event S)) (p : Prog S Unit) : Config P :=
  { world := w, threads := [{ entry := e, prog := p, trace := tr.reverse, crashed := false }] }

theorem alone_resume (e : P.Entry) (w w₁ : P.World) (tr : List (Event S)) {op : S.Op}
    (k : S.Ans op → Prog S Unit) (ans : S.Ans op) :
    { world := w₁
      threads := (Config.alone e w tr (.call op k)).threads.set 0
        (Thread.resume ⟨e, .call op k, tr.reverse, false⟩ k ans) } =
      Config.alone e w₁ (tr ++ [⟨op, ans⟩]) (k ans) := by
  simp [Config.alone, Thread.resume]

theorem play_alone_aux {e : P.Entry} {c : Config P} : ∀ {chs : List P.Choice} {w : P.World}
    {p : Prog S Unit} {tr : List (Event S)},
    play (Config.alone e w tr p) (chs.map (.act 0)) = some c →
      ∃ tr' q w', Steps P w p tr' q w' ∧ c = Config.alone e w' (tr ++ tr') q
  | [], w, p, tr, h => by
    cases h
    exact ⟨[], p, w, .refl, by rw [List.append_nil]⟩
  | ch :: chs, w, p, tr, h => by
    obtain ⟨c₁, hm, h⟩ := Option.bind_eq_some_iff.1 h
    obtain ⟨t, op, k, ans, w₁, hn, hx, rfl⟩ := move_act hm
    obtain ⟨ht, _, hp⟩ := hn
    cases ht
    change p = .call op k at hp
    subst hp
    rw [alone_resume] at h
    obtain ⟨tr', q, w', hs, rfl⟩ := play_alone_aux h
    exact ⟨⟨op, ans⟩ :: tr', q, w', .call hx hs, by rw [List.append_assoc]; rfl⟩

theorem play_alone_of_steps {e : P.Entry} {w w' : P.World} {p q : Prog S Unit}
    {tr' : List (Event S)} (tr : List (Event S)) (h : Steps P w p tr' q w') :
    ∃ chs : List P.Choice, play (Config.alone e w tr p) (chs.map (.act 0)) =
      some (Config.alone e w' (tr ++ tr') q) := by
  induction h generalizing tr with
  | refl => exact ⟨[], by rw [List.append_nil]; rfl⟩
  | @call w w₁ w' op k ch ans tr' q hx h ih =>
    obtain ⟨chs, hplay⟩ := ih (tr ++ [⟨op, ans⟩])
    refine ⟨ch :: chs, ?_⟩
    have hn : (Config.alone e w tr (.call op k)).Next 0 ⟨e, .call op k, tr.reverse, false⟩ op k :=
      ⟨rfl, rfl, rfl⟩
    rw [List.map_cons, play, hn.move hx, Option.bind_some, alone_resume, hplay, List.append_assoc]
    rfl

/-- The runs of an entry as the only thread of a pool are the runs of its program. -/
theorem play_alone {e : P.Entry} {w : P.World} {c : Config P} :
    (∃ chs : List P.Choice, play (.init w) (.start e :: chs.map (.act 0)) = some c) ↔
      ∃ tr q w', Steps P w (P.body e) tr q w' ∧ c = Config.alone e w' tr q := by
  have hstart : ∀ chs : List P.Choice, play (.init w) (.start e :: chs.map (.act 0)) =
      play (Config.alone e w [] (P.body e)) (chs.map (.act 0)) := fun _ => rfl
  constructor
  · rintro ⟨chs, h⟩
    rw [hstart] at h
    simpa using play_alone_aux h
  · rintro ⟨tr, q, w', hs, rfl⟩
    obtain ⟨chs, h⟩ := play_alone_of_steps (e := e) [] hs
    exact ⟨chs, by rw [hstart]; simpa using h⟩

end Effect
