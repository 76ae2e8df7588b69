import Mathlib.Data.List.Nodup

/-!
# A list that is read page by page

A store answers with one page of what a request matches. A page that is not the last carries the
key of its last item, and the next request resumes from that key.

| here | meaning |
| --- | --- |
| `cut`    | the pages, by their sizes; only the last one can be empty |
| `after`  | the pages that are left when a request resumes from a key |
| `answer` | the page that the store answers with |
| `drain`  | a reader that resumes until a page carries no key, on fuel |

Main results: `drain_cut`, a reader that resumes gets the whole list whatever the pages are;
`answer_cut_eq_iff`, one that asks once gets it when the first page takes it all.
-/

namespace Paging

variable {Item Key E : Type}

structure Page (Item Key : Type) where
  items   : List Item
  lastKey : Option Key

/-- A page of size `n` takes `n + 1` items. -/
def cut : List Nat → List Item → List (List Item)
  | [], its            => [its]
  | _ :: _, []         => [[]]
  | n :: ns, it :: its => (it :: its.take n) :: cut ns (its.drop n)

/-- The first page takes all the items. -/
def FitsFirst : List Nat → List Item → Prop
  | [], _       => True
  | n :: _, its => its.length ≤ n + 1

def resumeKey (key : Item → Key) (page : List Item) : Option Key := page.getLast?.map key

def first (key : Item → Key) : List (List Item) → Page Item Key
  | []        => ⟨[], none⟩
  | [page]    => ⟨page, none⟩
  | page :: _ => ⟨page, resumeKey key page⟩

section
variable [DecidableEq Key]

def after (key : Item → Key) : Option Key → List (List Item) → List (List Item)
  | none, pages           => pages
  | some _, []            => []
  | some k, page :: pages => if resumeKey key page = some k then pages else after key (some k) pages

def answer (key : Item → Key) (pages : List (List Item)) (startKey : Option Key) : Page Item Key :=
  first key (after key startKey pages)

end

def drain (ask : Option Key → Except E (Page Item Key)) : (fuel : Nat) → List Item → Option Key →
    Option (Except E (List Item))
  | 0, _, _                   => none
  | fuel + 1, items, startKey =>
    match ask startKey with
    | .error e => some (.error e)
    | .ok page =>
      match page.lastKey with
      | none   => some (.ok (items ++ page.items))
      | some k => drain ask fuel (items ++ page.items) (some k)

/-! ## The pages of a list -/

theorem cut_ne_nil (sizes : List Nat) (its : List Item) : cut sizes its ≠ [] := by
  cases sizes with
  | nil => exact List.cons_ne_nil _ _
  | cons n ns =>
    cases its with
    | nil => exact List.cons_ne_nil _ _
    | cons it its => exact List.cons_ne_nil _ _

theorem flatten_cut (sizes : List Nat) : ∀ its : List Item, (cut sizes its).flatten = its := by
  induction sizes with
  | nil => intro its; simp [cut]
  | cons n ns ih =>
    intro its
    cases its with
    | nil => rfl
    | cons it its => rw [cut, List.flatten_cons, ih, List.cons_append, List.take_append_drop]

theorem length_cut (sizes : List Nat) : ∀ its : List Item, (cut sizes its).length ≤ its.length + 1 := by
  induction sizes with
  | nil => intro its; simp [cut]
  | cons n ns ih =>
    intro its
    cases its with
    | nil => simp [cut]
    | cons it its =>
      have hrest := ih (its.drop n)
      have hdrop : (its.drop n).length ≤ its.length := by
        rw [List.length_drop]
        omega
      rw [cut, List.length_cons, List.length_cons]
      omega

/-- No page but the last is empty. -/
theorem ne_nil_of_cut (sizes : List Nat) :
    ∀ (its : List Item) (done : List (List Item)) (page : List Item) (rest : List (List Item)),
      cut sizes its = done ++ page :: rest → rest ≠ [] → page ≠ [] := by
  induction sizes with
  | nil =>
    intro its done page rest h hrest
    cases done with
    | nil =>
      rw [cut, List.nil_append] at h
      cases h
      exact absurd rfl hrest
    | cons p ps =>
      have hlen := congrArg List.length h
      simp [cut] at hlen
  | cons n ns ih =>
    intro its done page rest h hrest
    cases its with
    | nil =>
      cases done with
      | nil =>
        cases h
        exact absurd rfl hrest
      | cons p ps =>
        have hlen := congrArg List.length h
        simp [cut] at hlen
    | cons it its =>
      cases done with
      | nil =>
        rw [cut, List.nil_append] at h
        cases h
        exact List.cons_ne_nil _ _
      | cons p ps =>
        rw [cut, List.cons_append] at h
        exact ih _ ps page rest (List.cons.inj h).2 hrest

theorem resumeKey_isSome (key : Item → Key) {page : List Item} (h : page ≠ []) :
    ∃ it ∈ page, resumeKey key page = some (key it) :=
  ⟨page.getLast h, List.getLast_mem h, by rw [resumeKey, List.getLast?_eq_some_getLast h, Option.map_some]⟩

/-- The key of a page names one of its items. -/
theorem mem_of_resumeKey {key : Item → Key} {page : List Item} {k : Key}
    (h : resumeKey key page = some k) : k ∈ page.map key := by
  obtain ⟨it, hit, rfl⟩ := Option.map_eq_some_iff.1 h
  exact List.mem_map_of_mem (List.mem_of_getLast? hit)

/-! ## A reader that resumes -/

section
variable [DecidableEq Key] {key : Item → Key}

theorem after_none (pages : List (List Item)) : after key none pages = pages := by
  cases pages <;> rfl

theorem after_append {k : Key} {page : List Item} {rest : List (List Item)}
    (hpage : resumeKey key page = some k) :
    ∀ {done : List (List Item)}, (∀ p ∈ done, k ∉ p.map key) →
      after key (some k) (done ++ page :: rest) = rest
  | [], _ => by rw [List.nil_append, after, if_pos hpage]
  | p :: done, h => by
    have hp : resumeKey key p ≠ some k := fun hk => h p List.mem_cons_self (mem_of_resumeKey hk)
    rw [List.cons_append, after, if_neg hp,
      after_append hpage fun q hq => h q (List.mem_cons_of_mem _ hq)]

theorem after_resumeKey {done : List (List Item)} {page : List Item} {rest : List (List Item)} {k : Key}
    (hnodup : ((done ++ page :: rest).flatten.map key).Nodup) (hpage : resumeKey key page = some k) :
    after key (some k) (done ++ page :: rest) = rest := by
  refine after_append hpage fun p hp hmem => ?_
  rw [List.flatten_append, List.map_append] at hnodup
  have hdone : k ∈ done.flatten.map key := by
    obtain ⟨it, hit, rfl⟩ := List.mem_map.1 hmem
    exact List.mem_map_of_mem (List.mem_flatten_of_mem hp hit)
  have hrest : k ∈ (page :: rest).flatten.map key := by
    rw [List.flatten_cons, List.map_append]
    exact List.mem_append_left _ (mem_of_resumeKey hpage)
  exact List.disjoint_of_nodup_append hnodup hdone hrest

/-- The reader has the pages `done` and resumes after them; by induction on the pages left. -/
theorem drain_rest {pages : List (List Item)} (hnodup : (pages.flatten.map key).Nodup)
    (hfull : ∀ done page rest, pages = done ++ page :: rest → rest ≠ [] → page ≠ []) :
    ∀ (rest done : List (List Item)) (startKey : Option Key) (fuel : Nat), pages = done ++ rest →
      rest ≠ [] → after key startKey pages = rest → rest.length ≤ fuel →
      drain (E := E) (fun k => .ok (answer key pages k)) fuel done.flatten startKey =
        some (.ok pages.flatten) := by
  intro rest
  induction rest with
  | nil => intro done startKey fuel _ hne; exact absurd rfl hne
  | cons page rest ih =>
    intro done startKey fuel hpages _ hafter hfuel
    cases fuel with
    | zero => simp at hfuel
    | succ fuel =>
      rw [drain, answer, hafter]
      cases rest with
      | nil =>
        rw [hpages]
        simp [first]
      | cons next rest =>
        obtain ⟨it, -, hkey⟩ :=
          resumeKey_isSome key (hfull done page _ hpages (List.cons_ne_nil _ _))
        have hnext : after key (some (key it)) pages = next :: rest := by
          rw [hpages] at hnodup ⊢
          exact after_resumeKey hnodup hkey
        have hdone : done.flatten ++ page = (done ++ [page]).flatten := by simp
        simp only [first, hkey, hdone]
        refine ih (done ++ [page]) _ fuel ?_ (List.cons_ne_nil _ _) hnext ?_
        · rw [hpages, List.append_assoc]
          rfl
        · rw [List.length_cons] at hfuel
          omega

/-- **A reader that resumes gets every item once and in order, whatever the pages are.** -/
theorem drain_cut {its : List Item} (hnodup : (its.map key).Nodup) (sizes : List Nat) {fuel : Nat}
    (hfuel : its.length < fuel) :
    drain (E := E) (fun k => .ok (answer key (cut sizes its) k)) fuel [] none = some (.ok its) := by
  have hlen := length_cut sizes its
  have hpages : ((cut sizes its).flatten.map key).Nodup := by rwa [flatten_cut]
  have hdrain := drain_rest (E := E) hpages (ne_nil_of_cut sizes its) (cut sizes its) [] none fuel
    rfl (cut_ne_nil sizes its) (after_none _) (by omega)
  rwa [flatten_cut] at hdrain

variable (key) in
/-- **A reader that asks once gets every item exactly when the first page takes them all.** -/
theorem answer_cut_eq_iff {its : List Item} {sizes : List Nat} :
    (answer key (cut sizes its) none).items = its ↔ FitsFirst sizes its := by
  cases sizes with
  | nil => exact ⟨fun _ => trivial, fun _ => rfl⟩
  | cons n ns =>
    cases its with
    | nil => exact ⟨fun _ => Nat.zero_le _, fun _ => rfl⟩
    | cons it its =>
      have hfirst : (answer key (cut (n :: ns) (it :: its)) none).items = it :: its.take n := by
        unfold answer after
        rw [cut]
        cases hrest : cut ns (its.drop n) with
        | nil => rfl
        | cons page rest => rfl
      rw [hfirst]
      constructor
      · intro h
        have htake := (List.cons.inj h).2
        have hlen := congrArg List.length htake
        rw [List.length_take] at hlen
        change its.length + 1 ≤ n + 1
        omega
      · intro h
        have hle : its.length + 1 ≤ n + 1 := h
        rw [List.take_of_length_le (by omega)]

end

end Paging
