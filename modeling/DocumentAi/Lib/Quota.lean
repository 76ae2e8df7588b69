import Mathlib.Algebra.BigOperators.Group.List.Basic
import Mathlib.Algebra.Ring.Int.Defs
import Mathlib.Logic.Function.Basic
import Mathlib.Algebra.Order.BigOperators.Group.List
import Mathlib.Data.List.Induction
import Mathlib.Data.List.Perm.Basic

/-!
# Quotas that are reserved first and checked afterwards

Clients share one counter for each account. A client adds one to the counter of an account and
remembers the count it got back; later it compares what it has seen with a limit and either keeps
the unit or gives it back. Counters are also lowered from outside. A limit may be on the sum over a
group of accounts, whose other counters the client reads at the moment of the check.

| here | meaning |
| --- | --- |
| `Stage`        | what a client holds: nothing yet, a unit not yet judged, a unit for good, a unit given back |
| `State`        | the counters, the clients, the order in which they reserved (newest first), the lowerings |
| `reserve`, `keep`, `refund`, `lower` | the four steps |
| `live p l`     | the units on accounts with `p` that clients of `l` hold |
| `Inv`          | counters are units held less lowerings; a client has seen all units older than its own |
| `Sees p`       | the total over the accounts with `p` that a client compares with the limit |
| `Within p m`   | no unit on `p` was kept while `m` or more older ones were held |
| `taken_le`     | the units kept on `p` are at most the limit and the lowerings |
-/

namespace Quota

variable {A : Type}

inductive Stage (A : Type) where
  | idle
  | held (a : A) (seen : Int)
  | taken (a : A)
  | returned

structure State (A : Type) where
  count   : A → Int
  stage   : Nat → Stage A
  order   : List Nat
  lowered : List A

/-- The client holds a unit on an account with `p`. -/
def Stage.on (p : A → Bool) : Stage A → Bool
  | held a _ | taken a => p a
  | _                  => false

/-- And holds it for good. -/
def Stage.takenOn (p : A → Bool) : Stage A → Bool
  | taken a => p a
  | _       => false

section
variable {p q r : A → Bool} {st : Stage A}

theorem Stage.on_iff : st.on p = true ↔ ∃ a, ((∃ n, st = .held a n) ∨ st = .taken a) ∧ p a = true := by
  cases st <;> simp [Stage.on]

theorem Stage.on_mono (h : ∀ a, p a = true → q a = true) (hp : st.on p = true) : st.on q = true := by
  obtain ⟨a, ha, hpa⟩ := on_iff.1 hp
  exact on_iff.2 ⟨a, ha, h a hpa⟩

theorem Stage.on_or (h : ∀ a, p a = true → q a = true ∨ r a = true) (hp : st.on p = true) :
    st.on q = true ∨ st.on r = true := by
  obtain ⟨a, ha, hpa⟩ := on_iff.1 hp
  exact (h a hpa).imp (fun hq => on_iff.2 ⟨a, ha, hq⟩) fun hr => on_iff.2 ⟨a, ha, hr⟩

theorem Stage.on_apart (h : ∀ a, p a = true → q a = false) (hp : st.on p = true) : st.on q = false := by
  cases st with
  | held a n => exact h a hp
  | taken a => exact h a hp
  | _ => rfl

theorem Stage.on_false : st.on (fun _ : A => false) = false := by
  cases st <;> rfl

end

def State.init : State A := { count := fun _ => 0, stage := fun _ => .idle, order := [], lowered := [] }

def State.live (s : State A) (p : A → Bool) (l : List Nat) : Nat := l.countP fun i => (s.stage i).on p

def State.taken (s : State A) (p : A → Bool) : Nat := s.order.countP fun i => (s.stage i).takenOn p

def State.lowerings (s : State A) (p : A → Bool) : Nat := s.lowered.countP p

/-! ## Counting the units held -/

section
variable {α : Type} {f g p : α → Bool}

theorem countP_le_add {xs : List α} (h : ∀ x, p x = true → f x = true ∨ g x = true) :
    xs.countP p ≤ xs.countP f + xs.countP g := by
  induction xs with
  | nil => simp
  | cons x xs ih =>
    simp only [List.countP_cons]
    rcases hp : p x with - | -
    · simp only [Bool.false_eq_true, if_false]
      omega
    · rcases h x hp with hx | hx
      · simp only [hx, if_true]
        omega
      · simp only [hx, if_true]
        omega

theorem add_le_countP {xs : List α} (hf : ∀ x, f x = true → p x = true)
    (hg : ∀ x, g x = true → p x = true) (hd : ∀ x, f x = true → g x = false) :
    xs.countP f + xs.countP g ≤ xs.countP p := by
  induction xs with
  | nil => simp
  | cons x xs ih =>
    simp only [List.countP_cons]
    rcases hx : f x with - | -
    · rcases hy : g x with - | -
      · simp only [Bool.false_eq_true, if_false]
        omega
      · simp only [hg x hy, Bool.false_eq_true, if_false, if_true]
        omega
    · simp only [hf x hx, hd x hx, Bool.false_eq_true, if_false, if_true]
      omega

/-- Counting over the places of a list, listed once each. -/
theorem countP_places {xs : List α} {l : List Nat} (hl : l.Nodup)
    (hmem : ∀ i x, xs[i]? = some x → f x = true → i ∈ l) :
    l.countP (fun i => (xs[i]?).any f) = xs.countP f := by
  have hrange : ∀ ys : List α, (List.range ys.length).countP (fun i => (ys[i]?).any f) = ys.countP f := by
    intro ys
    induction ys using List.reverseRecOn with
    | nil => rfl
    | append_singleton ys y ih =>
      rw [List.length_append, List.length_singleton, List.range_succ, List.countP_append, List.countP_append,
        ← ih]
      congr 1
      · refine List.countP_congr fun i hi => ?_
        rw [List.getElem?_append_left (List.mem_range.1 hi)]
      · simp
  rw [← hrange, List.countP_eq_length_filter, List.countP_eq_length_filter]
  refine List.Perm.length_eq ((List.perm_ext_iff_of_nodup (hl.filter _) (List.nodup_range.filter _)).2
    fun i => ?_)
  simp only [List.mem_filter, List.mem_range]
  constructor
  · rintro ⟨_, hi⟩
    refine ⟨?_, hi⟩
    by_contra hlt
    rw [List.getElem?_eq_none (Nat.le_of_not_lt hlt)] at hi
    cases hi
  · rintro ⟨_, hi⟩
    refine ⟨?_, hi⟩
    obtain ⟨x, hx, hf⟩ := (Option.any_eq_true _ _).1 hi
    exact hmem i x hx hf

end

def State.keep (s : State A) (i : Nat) (a : A) : State A :=
  { s with stage := Function.update s.stage i (.taken a) }

section
variable {s : State A} {p : A → Bool} {m : Int} {i : Nat} {l l' : List Nat}

theorem live_cons : s.live p (i :: l) = s.live p l + if (s.stage i).on p then 1 else 0 := by
  rw [State.live, State.live, List.countP_cons]

theorem live_suffix (h : l <:+ l') : s.live p l ≤ s.live p l' := h.sublist.countP_le

/-- A change of one client that is not in the list. -/
theorem live_update_of_notMem {st : Stage A} (h : i ∉ l) :
    l.countP (fun j => (Function.update s.stage i st j).on p) = s.live p l := by
  refine List.countP_congr fun j hj => ?_
  rw [Function.update_of_ne (fun he : j = i => h (he ▸ hj))]

theorem live_update_of_on {st : Stage A} (h : st.on p = (s.stage i).on p) :
    l.countP (fun j => (Function.update s.stage i st j).on p) = s.live p l := by
  refine List.countP_congr fun j _ => ?_
  by_cases hj : j = i
  · subst hj
    rw [Function.update_self, h]
  · rw [Function.update_of_ne hj]

theorem live_keep {q : A → Bool} {a : A} {n : Int} (hi : s.stage i = .held a n) :
    (s.keep i a).live q l = s.live q l :=
  live_update_of_on (by rw [hi]; rfl)

theorem live_update_le {st : Stage A} (h : st.on p = true → (s.stage i).on p = true) :
    l.countP (fun j => (Function.update s.stage i st j).on p) ≤ s.live p l := by
  refine List.countP_mono_left fun j _ hj => ?_
  by_cases hji : j = i
  · subst hji
    rw [Function.update_self] at hj
    exact h hj
  · rwa [Function.update_of_ne hji] at hj

/-- A client of the list gives its unit up. -/
theorem live_update_drop {st : Stage A} (hl : l.Nodup) (hi : i ∈ l) (h : st.on p = false) :
    l.countP (fun j => (Function.update s.stage i st j).on p) +
      (if (s.stage i).on p then 1 else 0) = s.live p l := by
  induction l with
  | nil => cases hi
  | cons j l ih =>
    obtain ⟨hj, hl⟩ := List.nodup_cons.1 hl
    rw [live_cons, List.countP_cons]
    by_cases hji : j = i
    · subst hji
      rw [live_update_of_notMem hj, Function.update_self, h]
      simp
    · rw [Function.update_of_ne hji, ← ih hl ((List.mem_cons.1 hi).resolve_left (Ne.symm hji))]
      omega

/-- A suffix of the order with one more client: it is all of it, or a suffix of the old one. -/
theorem suffix_cons_cases {j : Nat} (h : i :: l <:+ j :: l') : (i = j ∧ l = l') ∨ i :: l <:+ l' := by
  rcases List.suffix_cons_iff.1 h with heq | hs
  · obtain ⟨hi, hl⟩ := List.cons.inj heq
    exact .inl ⟨hi, hl⟩
  · exact .inr hs

theorem mem_of_suffix (h : i :: l <:+ l') : i ∈ l' := h.subset List.mem_cons_self

/-- Every unit kept on `p` was kept within the limit `m`. -/
def Within (p : A → Bool) (m : Int) (s : State A) : Prop :=
  ∀ i a l, i :: l <:+ s.order → s.stage i = .taken a → p a = true →
    (s.live p (i :: l) : Int) ≤ m + s.lowerings p

theorem within_init : Within p m (State.init : State A) := by
  intro i a l h
  simp [State.init] at h

/-- The newest unit that was kept bounds all of them. -/
theorem taken_le (h : Within p m s) (hm : 0 ≤ m) : (s.taken p : Int) ≤ m + s.lowerings p := by
  suffices hs : ∀ l, l <:+ s.order →
      (l.countP (fun i => (s.stage i).takenOn p) : Int) ≤ m + s.lowerings p from
    hs s.order (List.suffix_refl _)
  intro l hl
  induction l with
  | nil =>
    rw [List.countP_nil]
    omega
  | cons i l ih =>
    rw [List.countP_cons]
    rcases ht : (s.stage i).takenOn p with - | -
    · simpa using ih ((List.suffix_cons i l).trans hl)
    · obtain ⟨a, hi, ha⟩ : ∃ a, s.stage i = .taken a ∧ p a = true := by
        cases hi : s.stage i with
        | taken a => exact ⟨a, rfl, by rwa [hi] at ht⟩
        | _ =>
          rw [hi] at ht
          cases ht
      refine le_trans ?_ (h i a l hl hi ha)
      rw [live_cons, hi, Stage.on, ha]
      have hle : l.countP (fun j => (s.stage j).takenOn p) ≤ s.live p l := by
        refine List.countP_mono_left fun j _ hj => ?_
        cases hj' : s.stage j <;> rw [hj'] at hj <;> first | exact hj | cases hj
      simp only [if_true]
      omega

end

variable [DecidableEq A]

/-- The account `a` alone. -/
def only (a : A) : A → Bool := fun b => decide (b = a)

namespace State

def reserve (s : State A) (i : Nat) (a : A) : State A :=
  { s with
    count := Function.update s.count a (s.count a + 1)
    stage := Function.update s.stage i (.held a (s.count a + 1))
    order := i :: s.order }

def refund (s : State A) (i : Nat) (a : A) : State A :=
  { s with
    count := Function.update s.count a (s.count a - 1)
    stage := Function.update s.stage i .returned }

def lower (s : State A) (a : A) : State A :=
  { s with
    count := Function.update s.count a (s.count a - 1)
    lowered := a :: s.lowered }

end State

/-! ## The ledger -/

structure Inv (s : State A) : Prop where
  ledger  : ∀ a, s.count a + s.lowerings (only a) = s.live (only a) s.order
  nodup   : s.order.Nodup
  clients : ∀ i, i ∈ s.order ↔ s.stage i ≠ .idle
  seen    : ∀ i a n l, i :: l <:+ s.order → s.stage i = .held a n →
    (s.live (only a) (i :: l) : Int) ≤ n + s.lowerings (only a)

/-- `total` is what a client that got the count `n` on the account `a` sees on the accounts with `p`:
its own count and the present counts of the other accounts that have been reserved on. -/
def Sees (p : A → Bool) (s : State A) (a : A) (n total : Int) : Prop :=
  ∃ bs : List A, bs.Nodup ∧ a ∉ bs ∧ (∀ b ∈ bs, p b = true) ∧
    (∀ i b, (s.stage i).on (only b) = true → p b = true → b ≠ a → b ∈ bs) ∧
    total = n + (bs.map s.count).sum

section
variable {s : State A} {p : A → Bool} {m : Int} {i : Nat} {a : A} {n : Int} {l l' : List Nat}

theorem only_iff {a b : A} : only a b = true ↔ b = a := decide_eq_true_iff

theorem inv_init : Inv (State.init : State A) where
  ledger _ := rfl
  nodup := List.nodup_nil
  clients i := by simp [State.init]
  seen i a n l h := by simp [State.init] at h

/-! ## The steps -/

theorem Inv.reserve (h : Inv s) (hi : s.stage i = .idle) : Inv (s.reserve i a) := by
  have hnew : i ∉ s.order := fun hm => (h.clients i).1 hm hi
  have hne : ∀ {j l}, j :: l <:+ s.order → j ≠ i := fun hs hj => hnew (hj ▸ mem_of_suffix hs)
  have hold : ∀ {q : A → Bool} {l}, l <:+ s.order → (s.reserve i a).live q l = s.live q l :=
    fun hs => live_update_of_notMem fun hm => hnew (hs.subset hm)
  have hself : (s.reserve i a).stage i = .held a (s.count a + 1) := Function.update_self ..
  have hlive : ∀ q : A → Bool, (s.reserve i a).live q (i :: s.order) =
      s.live q s.order + if q a then 1 else 0 := by
    intro q
    rw [live_cons, hold (List.suffix_refl _), hself]
    rfl
  refine ⟨fun b => ?_, List.nodup_cons.2 ⟨hnew, h.nodup⟩, fun j => ?_, fun j b n l hs hj => ?_⟩
  · have hb := h.ledger b
    change Function.update s.count a (s.count a + 1) b + _ =
      ((s.reserve i a).live (only b) (i :: s.order) : Int)
    rw [hlive]
    by_cases hab : b = a
    · subst hab
      rw [Function.update_self, if_pos (only_iff.2 rfl)]
      push_cast
      change s.count b + 1 + (s.lowerings (only b) : Int) = _
      omega
    · rw [Function.update_of_ne hab, if_neg (fun he => hab (only_iff.1 he).symm)]
      exact_mod_cast hb
  · change j ∈ i :: s.order ↔ Function.update s.stage i _ j ≠ .idle
    by_cases hji : j = i
    · subst hji
      simp
    · rw [Function.update_of_ne hji, List.mem_cons, ← h.clients j]
      simp [hji]
  · change j :: l <:+ i :: s.order at hs
    change Function.update s.stage i _ j = _ at hj
    rcases suffix_cons_cases hs with ⟨rfl, rfl⟩ | hs
    · rw [Function.update_self] at hj
      cases hj
      rw [hlive, if_pos (only_iff.2 rfl)]
      have := h.ledger a
      change _ ≤ s.count a + 1 + (s.lowerings (only a) : Int)
      omega
    · rw [hold hs]
      rw [Function.update_of_ne (hne hs)] at hj
      exact h.seen j b n l hs hj

theorem Within.reserve (h : Within p m s) (hinv : Inv s) (hi : s.stage i = .idle) :
    Within p m (s.reserve i a) := by
  have hnew : i ∉ s.order := fun hm => (hinv.clients i).1 hm hi
  have hne : ∀ {j l}, j :: l <:+ s.order → j ≠ i := fun hs hj => hnew (hj ▸ mem_of_suffix hs)
  intro j b l hs hj hb
  change j :: l <:+ i :: s.order at hs
  change Function.update s.stage i _ j = _ at hj
  rcases suffix_cons_cases hs with ⟨rfl, rfl⟩ | hs
  · rw [Function.update_self] at hj
    cases hj
  · rw [Function.update_of_ne (hne hs)] at hj
    have hold : (s.reserve i a).live p (j :: l) = s.live p (j :: l) :=
      live_update_of_notMem fun hm => hnew (hs.subset hm)
    rw [hold]
    exact h j b l hs hj hb

theorem Inv.keep (h : Inv s) (hi : s.stage i = .held a n) : Inv (s.keep i a) := by
  refine ⟨fun b => ?_, h.nodup, fun j => ?_, fun j b n' l hs hj => ?_⟩
  · rw [live_keep hi]
    exact h.ledger b
  · change j ∈ s.order ↔ Function.update s.stage i _ j ≠ .idle
    by_cases hji : j = i
    · subst hji
      simp [h.clients j, hi]
    · rw [Function.update_of_ne hji]
      exact h.clients j
  · change Function.update s.stage i _ j = _ at hj
    by_cases hji : j = i
    · subst hji
      rw [Function.update_self] at hj
      cases hj
    · rw [Function.update_of_ne hji] at hj
      rw [live_keep hi]
      exact h.seen j b n' l hs hj

/-- The sum of the counters of accounts, by the ledger. -/
theorem sum_count (h : Inv s) {bs : List A} (hbs : bs.Nodup) :
    (s.live (fun b => decide (b ∈ bs)) s.order : Int) =
      (bs.map s.count).sum + s.lowerings fun b => decide (b ∈ bs) := by
  induction bs with
  | nil => simp [State.live, State.lowerings, Stage.on_false]
  | cons b bs ih =>
    obtain ⟨hb, hbs⟩ := List.nodup_cons.1 hbs
    have hb' := h.ledger b
    have hbs' := ih hbs
    have hor : ∀ c : A, decide (c ∈ b :: bs) = true → only b c = true ∨ decide (c ∈ bs) = true := by
      intro c hc
      simpa [only] using hc
    have hleft : ∀ c : A, only b c = true → decide (c ∈ b :: bs) = true := by
      intro c hc
      simpa [only] using Or.inl (only_iff.1 hc)
    have hright : ∀ c : A, decide (c ∈ bs) = true → decide (c ∈ b :: bs) = true := by
      intro c hc
      simpa using Or.inr (of_decide_eq_true hc)
    have hapart : ∀ c : A, only b c = true → decide (c ∈ bs) = false := by
      intro c hc
      rw [only_iff.1 hc]
      exact decide_eq_false hb
    have h₁ : s.live (fun c => decide (c ∈ b :: bs)) s.order ≤ _ :=
      countP_le_add fun i hi => Stage.on_or hor hi
    have h₂ : _ ≤ s.live (fun c => decide (c ∈ b :: bs)) s.order :=
      add_le_countP (fun i hi => Stage.on_mono hleft hi) (fun i hi => Stage.on_mono hright hi)
        fun i hi => Stage.on_apart hapart hi
    have h₃ : s.lowerings (fun c => decide (c ∈ b :: bs)) ≤ _ := countP_le_add hor
    have h₄ : _ ≤ s.lowerings (fun c => decide (c ∈ b :: bs)) := add_le_countP hleft hright hapart
    change _ ≤ s.live _ s.order + s.live _ s.order at h₁
    change s.live _ s.order + s.live _ s.order ≤ _ at h₂
    change _ ≤ s.lowerings _ + s.lowerings _ at h₃
    change s.lowerings _ + s.lowerings _ ≤ _ at h₄
    rw [List.map_cons, List.sum_cons]
    omega

/-- A client that keeps its unit has seen no more than the limit. -/
theorem Within.keep (total : Int) (h : Within p m s) (hinv : Inv s) (hi : s.stage i = .held a n)
    (hsees : p a = true → Sees p s a n total ∧ total ≤ m) : Within p m (s.keep i a) := by
  intro j b l hs hj hb
  rw [live_keep hi]
  change Function.update s.stage i _ j = _ at hj
  change j :: l <:+ s.order at hs
  by_cases hji : j = i
  · subst hji
    rw [Function.update_self] at hj
    cases hj
    obtain ⟨⟨bs, hbs, hab, hp, hall, rfl⟩, hle⟩ := hsees hb
    have hseen := hinv.seen j a n l hs hi
    have hsum := sum_count hinv hbs
    have hcover : s.live p (j :: l) ≤
        s.live (only a) (j :: l) + s.live (fun b => decide (b ∈ bs)) (j :: l) := by
      refine countP_le_add fun k hk => ?_
      obtain ⟨b, hkb, hpb⟩ := Stage.on_iff.1 hk
      by_cases hba : b = a
      · exact .inl (Stage.on_iff.2 ⟨b, hkb, only_iff.2 hba⟩)
      · exact .inr (Stage.on_iff.2 ⟨b, hkb, decide_eq_true (hall k b
          (Stage.on_iff.2 ⟨b, hkb, only_iff.2 rfl⟩) hpb hba)⟩)
    have hmono : s.live (fun b => decide (b ∈ bs)) (j :: l) ≤ s.live (fun b => decide (b ∈ bs)) s.order :=
      live_suffix hs
    have hlow : s.lowerings (only a) + s.lowerings (fun b => decide (b ∈ bs)) ≤ s.lowerings p := by
      refine add_le_countP (fun b hb' => only_iff.1 hb' ▸ hb) (fun b hb' => hp b (of_decide_eq_true hb'))
        fun b hb' => ?_
      rw [only_iff.1 hb']
      exact decide_eq_false hab
    change _ ≤ m + (s.lowerings p : Int)
    omega
  · rw [Function.update_of_ne hji] at hj
    exact h j b l hs hj hb

theorem Inv.refund (h : Inv s) (hi : s.stage i = .held a n) : Inv (s.refund i a) := by
  have hmem : i ∈ s.order := (h.clients i).2 (by rw [hi]; simp)
  refine ⟨fun b => ?_, h.nodup, fun j => ?_, fun j b n' l hs hj => ?_⟩
  · have hdrop : (s.refund i a).live (only b) s.order + (if (s.stage i).on (only b) then 1 else 0) = _ :=
      live_update_drop h.nodup hmem rfl
    have hb := h.ledger b
    change Function.update s.count a (s.count a - 1) b + (s.lowerings (only b) : Int) =
      (s.refund i a).live (only b) s.order
    rw [hi, Stage.on] at hdrop
    by_cases hab : b = a
    · subst hab
      rw [if_pos (only_iff.2 rfl)] at hdrop
      rw [Function.update_self]
      omega
    · rw [if_neg (fun he => hab (only_iff.1 he).symm)] at hdrop
      rw [Function.update_of_ne hab]
      omega
  · change j ∈ s.order ↔ Function.update s.stage i _ j ≠ .idle
    by_cases hji : j = i
    · subst hji
      simp [hmem]
    · rw [Function.update_of_ne hji]
      exact h.clients j
  · change Function.update s.stage i _ j = _ at hj
    change j :: l <:+ s.order at hs
    by_cases hji : j = i
    · subst hji
      rw [Function.update_self] at hj
      cases hj
    · rw [Function.update_of_ne hji] at hj
      have hle : (s.refund i a).live (only b) (j :: l) ≤ s.live (only b) (j :: l) :=
        live_update_le fun he => by cases he
      have := h.seen j b n' l hs hj
      change _ ≤ n' + (s.lowerings (only b) : Int)
      omega

theorem Within.refund (h : Within p m s) : Within p m (s.refund i a) := by
  intro j b l hs hj hb
  change Function.update s.stage i _ j = _ at hj
  change j :: l <:+ s.order at hs
  have hle : (s.refund i a).live p (j :: l) ≤ s.live p (j :: l) :=
    live_update_le fun he => by cases he
  by_cases hji : j = i
  · subst hji
    rw [Function.update_self] at hj
    cases hj
  · rw [Function.update_of_ne hji] at hj
    have := h j b l hs hj hb
    change _ ≤ m + (s.lowerings p : Int)
    omega

theorem lowerings_lower : (s.lower a).lowerings p = s.lowerings p + if p a then 1 else 0 := by
  rw [State.lowerings, State.lowerings, State.lower, List.countP_cons]

theorem Inv.lower (h : Inv s) : Inv (s.lower a) := by
  refine ⟨fun b => ?_, h.nodup, h.clients, fun j b n' l hs hj => ?_⟩
  · have hb := h.ledger b
    rw [lowerings_lower]
    change Function.update s.count a (s.count a - 1) b + _ = (s.live (only b) s.order : Int)
    by_cases hab : b = a
    · subst hab
      rw [Function.update_self, if_pos (only_iff.2 rfl)]
      push_cast
      omega
    · rw [Function.update_of_ne hab, if_neg (fun he => hab (only_iff.1 he).symm)]
      exact hb
  · have := h.seen j b n' l hs hj
    rw [lowerings_lower]
    push_cast
    change (s.live (only b) (j :: l) : Int) ≤ _
    split <;> omega

theorem Within.lower (h : Within p m s) : Within p m (s.lower a) := by
  intro j b l hs hj hb
  have := h j b l hs hj hb
  rw [lowerings_lower]
  push_cast
  change (s.live p (j :: l) : Int) ≤ _
  split <;> omega

end

end Quota
