/-!
# Effect programs: a handler as the tree of its external calls

A handler that talks to stores, queues and services is a tree. A node is one external call
together with what the handler does for each possible answer; a leaf is a normal return or an
uncaught exception. Nothing is said here about what a call does: that belongs to whoever runs the
tree.

| here | meaning |
| --- | --- |
| `Sig`        | the calls, the type of each call's answer, the exceptions |
| `Prog`       | the tree; `call op k` sends `op` and continues with `k` on the answer or the exception |
| `perform`    | one call whose exception is the caller's exception |
| `tryCatch`   | `try: … except: …` |
| `Spec φ Q`   | every call satisfies `φ`, every return value `Q`; `All φ` when only the calls matter |
| `Blames seen` | every exception is one of `seen` or the answer of a call |
-/

namespace Effect

/-- The interface of a program: calls, their answers, and the exceptions they may end in. -/
structure Sig where
  Op  : Type
  Res : Op → Type
  Exc : Type

/-- The answer of a call: an exception or a result. -/
abbrev Sig.Ans (S : Sig) (op : S.Op) : Type := Except S.Exc (S.Res op)

inductive Prog (S : Sig) (α : Type) : Type where
  | ret   : α → Prog S α
  | raise : S.Exc → Prog S α
  | call  : (op : S.Op) → (S.Ans op → Prog S α) → Prog S α

namespace Prog

variable {S : Sig} {α β γ : Type}

def bind : Prog S α → (α → Prog S β) → Prog S β
  | ret a, f     => f a
  | raise e, _   => raise e
  | call op k, f => call op fun r => bind (k r) f

/-- `try: p except e: h e`. The handler's own exceptions are not caught again. -/
def tryCatch : Prog S α → (S.Exc → Prog S α) → Prog S α
  | ret a, _     => ret a
  | raise e, h   => h e
  | call op k, h => call op fun r => tryCatch (k r) h

/-- Continue with `k` on the answer of a call, or raise its exception. -/
def answer {S : Sig} {op : S.Op} : S.Ans op → Prog S (S.Res op)
  | .ok r    => ret r
  | .error e => raise e

def perform (op : S.Op) : Prog S (S.Res op) := call op answer

instance : Monad (Prog S) where
  pure := ret
  bind := bind

instance : MonadExceptOf S.Exc (Prog S) where
  throw    := raise
  tryCatch := tryCatch

/-- Run `p` for every element in order, as a `for` loop without early exit. -/
def forEach {ι : Type} (p : ι → Prog S Unit) : List ι → Prog S Unit
  | []      => ret ()
  | x :: xs => bind (p x) fun _ => forEach p xs

@[simp] theorem pure_eq (a : α) : (pure a : Prog S α) = ret a := rfl
@[simp] theorem bind_eq (p : Prog S α) (f : α → Prog S β) : p >>= f = bind p f := rfl
@[simp] theorem throw_eq (e : S.Exc) : (throw e : Prog S α) = raise e := rfl
@[simp] theorem tryCatch_eq (p : Prog S α) (h : S.Exc → Prog S α) :
    MonadExcept.tryCatch p h = tryCatch p h := rfl

@[simp] theorem ret_bind (a : α) (f : α → Prog S β) : bind (ret a) f = f a := rfl
@[simp] theorem raise_bind (e : S.Exc) (f : α → Prog S β) : bind (raise e) f = raise e := rfl

theorem bind_assoc (p : Prog S α) (f : α → Prog S β) (g : β → Prog S γ) :
    bind (bind p f) g = bind p fun a => bind (f a) g := by
  induction p with
  | ret a => rfl
  | raise e => rfl
  | call op k ih => exact congrArg (call op) (funext ih)

/-! ## Calls and returns of a program -/

/-- Whatever the answers are, every call satisfies `φ` and every return value satisfies `Q`. -/
def Spec (φ : S.Op → Prop) (Q : α → Prop) : Prog S α → Prop
  | ret a     => Q a
  | raise _   => True
  | call op k => φ op ∧ ∀ r, Spec φ Q (k r)

/-- Every call that some answers lead to satisfies `φ`. -/
abbrev All (φ : S.Op → Prop) (p : Prog S α) : Prop := Spec φ (fun _ => True) p

section
variable {φ ψ : S.Op → Prop} {Q Q' : α → Prop} {R : β → Prop}

@[simp] theorem spec_ret (a : α) : Spec φ Q (ret a : Prog S α) ↔ Q a := Iff.rfl
@[simp] theorem spec_raise (e : S.Exc) : Spec φ Q (raise e : Prog S α) := trivial

theorem spec_bind {p : Prog S α} {f : α → Prog S β} (hp : Spec φ Q p)
    (hf : ∀ a, Q a → Spec φ R (f a)) : Spec φ R (bind p f) := by
  induction p with
  | ret a => exact hf a hp
  | raise e => trivial
  | call op k ih => exact ⟨hp.1, fun r => ih r (hp.2 r)⟩

theorem spec_tryCatch {p : Prog S α} {h : S.Exc → Prog S α} (hp : Spec φ Q p)
    (hh : ∀ e, Spec φ Q (h e)) : Spec φ Q (tryCatch p h) := by
  induction p with
  | ret a => exact hp
  | raise e => exact hh e
  | call op k ih => exact ⟨hp.1, fun r => ih r (hp.2 r)⟩

theorem spec_perform {op : S.Op} {Q : S.Res op → Prop} (h : φ op) (hQ : ∀ r, Q r) :
    Spec φ Q (perform op) := by
  refine ⟨h, fun r => ?_⟩
  cases r with
  | ok r => exact hQ r
  | error e => trivial

theorem spec_ite {c : Prop} [Decidable c] {p q : Prog S α} (hp : Spec φ Q p) (hq : Spec φ Q q) :
    Spec φ Q (if c then p else q) := by
  split
  · exact hp
  · exact hq

theorem Spec.mono (hφ : ∀ op, φ op → ψ op) (hQ : ∀ a, Q a → Q' a) {p : Prog S α}
    (hp : Spec φ Q p) : Spec ψ Q' p := by
  induction p with
  | ret a => exact hQ a hp
  | raise e => trivial
  | call op k ih => exact ⟨hφ op hp.1, fun r => ih r (hp.2 r)⟩

theorem Spec.all {p : Prog S α} (hp : Spec φ Q p) : All φ p :=
  hp.mono (fun _ h => h) fun _ _ => trivial

theorem all_bind {p : Prog S α} {f : α → Prog S β} (hp : All φ p) (hf : ∀ a, Spec φ R (f a)) :
    Spec φ R (bind p f) :=
  spec_bind hp fun a _ => hf a

theorem all_perform {op : S.Op} (h : φ op) : All φ (perform op) :=
  spec_perform h fun _ => trivial

theorem all_forEach {ι : Type} {p : ι → Prog S Unit} (hp : ∀ x, All φ (p x)) :
    ∀ xs, All φ (forEach p xs)
  | []      => trivial
  | x :: xs => all_bind (hp x) fun _ => all_forEach hp xs

theorem all_true : ∀ p : Prog S α, All (fun _ => True) p
  | .ret _    => trivial
  | .raise _  => trivial
  | .call _ k => ⟨trivial, fun r => all_true (k r)⟩

theorem All.mono (h : ∀ op, φ op → ψ op) {p : Prog S α} (hp : All φ p) : All ψ p :=
  Spec.mono h (fun _ h => h) hp

theorem Spec.and {p : Prog S α} (h₁ : Spec φ Q p) (h₂ : Spec ψ Q' p) :
    Spec (fun op => φ op ∧ ψ op) (fun a => Q a ∧ Q' a) p := by
  induction p with
  | ret a => exact ⟨h₁, h₂⟩
  | raise e => trivial
  | call op k ih => exact ⟨⟨h₁.1, h₂.1⟩, fun r => ih r (h₁.2 r) (h₂.2 r)⟩

theorem All.and {p : Prog S α} (h₁ : All φ p) (h₂ : All ψ p) : All (fun op => φ op ∧ ψ op) p :=
  Spec.mono (fun _ h => h) (fun _ _ => trivial) (Spec.and h₁ h₂)

end

/-! ## Where exceptions come from -/

/-- Every exception that leaves the program was `seen` before, or is the answer of a call. -/
def Blames : (S.Exc → Prop) → Prog S α → Prop
  | _, ret _       => True
  | seen, raise e  => seen e
  | seen, call _ k =>
    (∀ r, Blames seen (k (.ok r))) ∧ ∀ e, Blames (fun e' => seen e' ∨ e' = e) (k (.error e))

section
variable {seen seen' : S.Exc → Prop} {p : Prog S α}

theorem Blames.mono (h : ∀ e, seen e → seen' e) (hp : Blames seen p) : Blames seen' p := by
  induction p generalizing seen seen' with
  | ret a => trivial
  | raise e => exact h e hp
  | call op k ih =>
    exact ⟨fun r => ih _ h (hp.1 r), fun e => ih _ (fun e' => Or.imp_left (h e')) (hp.2 e)⟩

theorem blames_bind {f : α → Prog S β} (hp : Blames seen p) (hf : ∀ a, Blames seen (f a)) :
    Blames seen (bind p f) := by
  induction p generalizing seen with
  | ret a => exact hf a
  | raise e => exact hp
  | call op k ih =>
    exact ⟨fun r => ih _ (hp.1 r) hf,
      fun e => ih _ (hp.2 e) fun a => (hf a).mono fun _ => Or.inl⟩

/-- What the handler raises is blamed on the handler. -/
theorem blames_tryCatch {h : S.Exc → Prog S α} (hh : ∀ e, Blames seen (h e)) :
    Blames seen (tryCatch p h) := by
  induction p generalizing seen with
  | ret a => trivial
  | raise e => exact hh e
  | call op k ih =>
    exact ⟨fun r => ih _ hh, fun e => ih _ fun e' => (hh e').mono fun _ => Or.inl⟩

theorem blames_perform (op : S.Op) : Blames seen (perform op) :=
  ⟨fun _ => trivial, fun _ => Or.inr rfl⟩

end

end Prog

end Effect
