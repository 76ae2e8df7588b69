import Mathlib.Algebra.GroupWithZero.Nat
import DocumentAi.Lib.Pool

/-!
# Latches: a cell of the world that calls close and open

A call *takes* the latch when it closes it, which works on an open latch only. A call that *frees* it
may open it. Whatever the order of the calls of a pool, the latch has been taken at most once more
than it has been freed; no argument about who holds it is needed.

| here | meaning |
| --- | --- |
| `Config.calls f`   | how many calls of the pool satisfy `f` |
| `Latch`            | when the cell is closed, which calls take it, which free it |
| `Latch.Respects`   | a call closes and opens the cell as its kind says |
| `Latch.Balanced`   | taken at most as often as freed, one more while closed |
| `countP_add_calls_le` | counts of threads from counts of their calls |
-/

namespace Effect

variable {S : Sig} {P : Sys S}

def Config.calls (f : Event S → Bool) (c : Config P) : Nat :=
  (c.threads.map fun t => t.trace.countP f).sum

section Calls
variable {f g : Event S → Bool} {c : Config P} {i : Nat} {t : Thread P}

theorem calls_init (w : P.World) : (Config.init w).calls f = 0 := rfl

theorem calls_start (e : P.Entry) :
    Config.calls f { c with threads := c.threads ++ [Thread.init e] } = c.calls f := by
  simp [Config.calls, Thread.init]

theorem sum_map_set {α : Type} (h : α → Nat) {xs : List α} {i : Nat} {x y : α}
    (hi : xs[i]? = some y) : ((xs.set i x).map h).sum + h y = (xs.map h).sum + h x := by
  induction xs generalizing i with
  | nil => cases hi
  | cons z xs ih =>
    cases i with
    | zero =>
      obtain rfl := Option.some.inj hi
      simp only [List.set_cons_zero, List.map_cons, List.sum_cons]
      omega
    | succ i =>
      have := ih hi
      simp only [List.set_cons_succ, List.map_cons, List.sum_cons]
      omega

theorem calls_crash (hi : c.threads[i]? = some t) :
    Config.calls f { c with threads := c.threads.set i { t with crashed := true } } = c.calls f := by
  have h := sum_map_set (fun t : Thread P => t.trace.countP f) (x := { t with crashed := true }) hi
  simp only [Config.calls] at h ⊢
  omega

theorem calls_resume {w : P.World} {op : S.Op} {k : S.Ans op → Prog S Unit} {ans : S.Ans op}
    (hi : c.threads[i]? = some t) :
    Config.calls f { world := w, threads := c.threads.set i (t.resume k ans) } =
      c.calls f + if f ⟨op, ans⟩ then 1 else 0 := by
  have h := sum_map_set (fun t : Thread P => t.trace.countP f) (x := t.resume k ans) hi
  have hone : (t.resume k ans).trace.countP f = t.trace.countP f + if f ⟨op, ans⟩ then 1 else 0 :=
    List.countP_cons
  simp only [Config.calls] at h ⊢
  omega

theorem calls_or_le (c : Config P) : c.calls (fun ev => f ev || g ev) ≤ c.calls f + c.calls g := by
  simp only [Config.calls]
  induction c.threads with
  | nil => simp
  | cons t ts ih =>
    have hor : t.trace.countP (fun ev => f ev || g ev) ≤ t.trace.countP f + t.trace.countP g := by
      induction t.trace with
      | nil => simp
      | cons ev tr ih =>
        simp only [List.countP_cons]
        cases f ev <;> cases g ev <;> simp <;> omega
    simp only [List.map_cons, List.sum_cons]
    omega

/-- Each thread that `p` counts makes one call with `f` more than calls with `g`. -/
theorem countP_add_calls_le {p : Thread P → Bool}
    (h : ∀ t ∈ c.threads, (if p t then 1 else 0) + t.trace.countP g ≤ t.trace.countP f) :
    c.threads.countP p + c.calls g ≤ c.calls f := by
  simp only [Config.calls]
  revert h
  induction c.threads with
  | nil => simp
  | cons t ts ih =>
    intro h
    have ht := h t List.mem_cons_self
    have hts := ih fun s hs => h s (List.mem_cons_of_mem _ hs)
    simp only [List.countP_cons, List.map_cons, List.sum_cons]
    omega

end Calls

structure Latch (P : Sys S) where
  closed : P.World → Bool
  takes  : Event S → Bool
  frees  : Event S → Bool

namespace Latch

variable (L : Latch P)

structure Respects (w : P.World) (ev : Event S) (w' : P.World) : Prop where
  takes : L.takes ev = true → L.closed w = false ∧ L.closed w' = true
  stays : L.frees ev = false → L.closed w = true → L.closed w' = true

def Balanced (c : Config P) : Prop :=
  c.calls L.takes ≤ c.calls L.frees + if L.closed c.world then 1 else 0

variable {L} {c : Config P} {i : Nat} {t : Thread P}

theorem balanced_init (w : P.World) : L.Balanced (Config.init w) := by
  simp [Balanced, calls_init]

theorem Balanced.start (h : L.Balanced c) (e : P.Entry) :
    L.Balanced { c with threads := c.threads ++ [Thread.init e] } := by
  simpa only [Balanced, calls_start] using h

theorem Balanced.crash (h : L.Balanced c) (hi : c.threads[i]? = some t) :
    L.Balanced { c with threads := c.threads.set i { t with crashed := true } } := by
  simpa only [Balanced, calls_crash hi] using h

theorem Balanced.act (h : L.Balanced c) {w : P.World} {op : S.Op} {k : S.Ans op → Prog S Unit}
    {ans : S.Ans op} (hi : c.threads[i]? = some t) (hr : L.Respects c.world ⟨op, ans⟩ w) :
    L.Balanced { world := w, threads := c.threads.set i (t.resume k ans) } := by
  simp only [Balanced, calls_resume hi] at h ⊢
  cases htakes : L.takes ⟨op, ans⟩ with
  | true =>
    obtain ⟨hopen, hclosed⟩ := hr.takes htakes
    simp only [hopen, hclosed, if_true, Bool.false_eq_true, if_false] at h ⊢
    omega
  | false =>
    cases hfrees : L.frees ⟨op, ans⟩ with
    | true =>
      simp only [if_true, Bool.false_eq_true, if_false]
      split at h <;> omega
    | false =>
      cases hclosed : L.closed c.world with
      | true =>
        simp only [hclosed, hr.stays hfrees hclosed, if_true, Bool.false_eq_true, if_false] at h ⊢
        omega
      | false =>
        simp only [hclosed, Bool.false_eq_true, if_false] at h ⊢
        omega

theorem Balanced.takes_le (h : L.Balanced c) : c.calls L.takes ≤ c.calls L.frees + 1 := by
  unfold Balanced at h
  split at h <;> omega

end Latch

end Effect
