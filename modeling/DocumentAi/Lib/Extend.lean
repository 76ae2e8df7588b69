import DocumentAi.Lib.Protocol

/-!
# Further calls: programs of an interface inside a larger one

| here | meaning |
| --- | --- |
| `Sig.extend`   | an interface with further calls |
| `Sys.extend`   | its world: the old one beside a store that only the further calls read and change |
| `Prog.embed`   | a program of the old interface as one of the new |
| `ends_embed_iff` | such a program runs as before, and the store stays as it is |
| `obeys_embed`     | it obeys a protocol that lets its calls through |
-/

namespace Effect

variable {S : Sig} {Op : Type} {Res : Op → Type} {α β : Type}

abbrev Sig.extend (S : Sig) (Op : Type) (Res : Op → Type) : Sig := ⟨S.Op ⊕ Op, Sum.elim S.Res Res, S.Exc⟩

def Prog.embed (Res : Op → Type) : Prog S α → Prog (S.extend Op Res) α
  | .ret a     => .ret a
  | .raise e   => .raise e
  | .call op k => .call (.inl op) fun r => (k r).embed Res

/-- The further calls; the environment's part in one of them is that of the old world. -/
abbrev Store (S : Sig) (Op : Type) (Res : Op → Type) (Choice V : Type) : Type :=
  V → (op : Op) → Choice → Option (Except S.Exc (Res op) × V)

abbrev Sys.extend (P : Sys S) (V : Type) (run : Store S Op Res P.Choice V) :
    Sys (S.extend Op Res) where
  World  := P.World × V
  Choice := P.Choice
  exec
    | (w, v), .inl op, ch => (P.exec w op ch).map fun r => (r.1, (r.2, v))
    | (w, v), .inr op, ch => (run v op ch).map fun r => (r.1, (w, r.2))
  Entry  := P.Entry
  body e := (P.body e).embed Res

variable {P : Sys S} {V : Type} {run : Store S Op Res P.Choice V}

theorem Sys.extend_inl {w : P.World} {v : V} {op : S.Op} {ch : P.Choice} {ans : S.Ans op}
    {x : P.World × V} : (P.extend V run).exec (w, v) (.inl op) ch = some (ans, x) ↔
      P.exec w op ch = some (ans, x.1) ∧ x.2 = v := by
  change (P.exec w op ch).map (fun r => (r.1, (r.2, v))) = some (ans, x) ↔ _
  rw [Option.map_eq_some_iff]
  constructor
  · rintro ⟨⟨ans', w'⟩, hx, heq⟩
    obtain ⟨rfl, rfl⟩ := Prod.mk.inj heq
    exact ⟨hx, rfl⟩
  · rintro ⟨hx, rfl⟩
    exact ⟨(ans, x.1), hx, rfl⟩

theorem Sys.extend_inr {w : P.World} {v : V} {op : Op} {ch : P.Choice} {ans : Except S.Exc (Res op)}
    {x : P.World × V} : (P.extend V run).exec (w, v) (.inr op) ch = some (ans, x) ↔
      run v op ch = some (ans, x.2) ∧ x.1 = w := by
  change (run v op ch).map (fun r => (r.1, (w, r.2))) = some (ans, x) ↔ _
  rw [Option.map_eq_some_iff]
  constructor
  · rintro ⟨⟨ans', v'⟩, hx, heq⟩
    obtain ⟨rfl, rfl⟩ := Prod.mk.inj heq
    exact ⟨hx, rfl⟩
  · rintro ⟨hx, rfl⟩
    exact ⟨(ans, x.2), hx, rfl⟩

/-- An event of the old interface as one of the new. -/
def Event.embed (Res : Op → Type) (ev : Event S) : Event (S.extend Op Res) :=
  ⟨.inl ev.op, ev.ans⟩

theorem ends_embed_iff {p : Prog S α} {tr : List (Event (S.extend Op Res))} {r : Except S.Exc α}
    {w : P.World} {v : V} {x : P.World × V} :
    Ends (P.extend V run) (w, v) (p.embed Res) tr r x ↔
      ∃ tr₀, tr = tr₀.map (Event.embed Res) ∧ Ends P w p tr₀ r x.1 ∧ x.2 = v := by
  induction p generalizing w tr with
  | ret a =>
    rw [Prog.embed, ends_ret_iff]
    constructor
    · rintro ⟨rfl, rfl, rfl⟩
      exact ⟨[], rfl, .refl, rfl⟩
    · rintro ⟨tr₀, rfl, h, rfl⟩
      obtain ⟨rfl, rfl, hw⟩ := ends_ret_iff.1 h
      exact ⟨rfl, rfl, by rw [← hw]⟩
  | raise e =>
    rw [Prog.embed, ends_raise_iff]
    constructor
    · rintro ⟨rfl, rfl, rfl⟩
      exact ⟨[], rfl, .refl, rfl⟩
    · rintro ⟨tr₀, rfl, h, rfl⟩
      obtain ⟨rfl, rfl, hw⟩ := ends_raise_iff.1 h
      exact ⟨rfl, rfl, by rw [← hw]⟩
  | call op k ih =>
    rw [Prog.embed, ends_call_iff]
    constructor
    · rintro ⟨ch, ans, ⟨w₁, v₁⟩, tr₁, hx, rfl, h⟩
      obtain ⟨hcall, hv₁⟩ := Sys.extend_inl.1 hx
      change v₁ = v at hv₁
      subst hv₁
      obtain ⟨tr₀, rfl, hrest, hv⟩ := (ih ans).1 h
      exact ⟨⟨op, ans⟩ :: tr₀, rfl, .call hcall hrest, hv⟩
    · rintro ⟨tr₀, rfl, hrun, hv⟩
      obtain ⟨ch, ans, w₁, tr₁, hx, rfl, h⟩ := ends_call_iff.1 hrun
      exact ⟨ch, ans, (w₁, v), tr₁.map (Event.embed Res), Sys.extend_inl.2 ⟨hx, rfl⟩, rfl,
        (ih ans).2 ⟨tr₁, rfl, h, hv⟩⟩

/-- A program of the old interface obeys in a set of local states that allows its calls and is not
left by them. -/
theorem obeys_embed {R : Protocol (S.extend Op Res)} {φ : S.Op → Prop} {I : R.State → Prop}
    (hI : ∀ s op, φ op → I s → R.allow s (.inl op) ∧ ∀ r, I (R.next s (.inl op) r))
    {p : Prog S α} (hp : p.All φ) {s : R.State} (hs : I s) :
    R.Obeys (fun s _ => I s) (fun s _ => I s) s (p.embed Res) := by
  induction p generalizing s with
  | ret a => exact hs
  | raise e => exact hs
  | call op k ih =>
    obtain ⟨hallow, hnext⟩ := hI s op hp.1 hs
    exact ⟨hallow, fun r _ => ih r (hp.2 r) (hnext r)⟩

end Effect
