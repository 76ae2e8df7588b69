import Mathlib.Data.List.Dedup
import DocumentAi.Runs.BuildLock
import DocumentAi.Runs.PageUpload
import DocumentAi.Runs.UploadFacts

/-!
# One submission: the merged document, the stamped rows, the rollback

A submission stamps every row of the build under the lock. A rollback takes the stamp of the metadata
row only: the pages stay stamped.

| here | meaning |
| --- | --- |
| `documentOf`   | the pages of the stored files, one file after the other |
| `ArePages`     | the pages of a build: each of its page rows once, by page number |
| `Stamped`      | the rows of a build after a submission |
| `Accepted`     | what an accepted submission leaves |
-/

namespace DocumentAi.Builds

open Effect (Ends Event Steps ends_ret_iff ends_raise_iff ends_perform_iff ends_bind_iff ends_bind_ok
  ends_tryCatch_iff ends_embed_iff)
open Effect.Prog (All all_bind all_perform)
open Dynamo (Targets targets_append targets_nil targets_ne_iff)

abbrev tableSystem : Effect.Sys tableSig := system.extend Table tableStore

variable {Page : Type} {env : EnvConfig} {pdf : PdfLibrary Page} {auth : UserContext} {b : String}
  {x x' : World × Table} {tr : List (Event tableSig)}

/-! ## Single calls and quiet programs -/

theorem ends_base {α : Type} {p : Prog α} {r : Except Exc α}
    (h : Ends tableSystem x (base p) tr r x') :
    ∃ tr₀, tr = tr₀.map (Event.embed TableOp.Res) ∧ Ends system x.1 p tr₀ r x'.1 ∧ x'.2 = x.2 := by
  obtain ⟨w, t⟩ := x
  exact ends_embed_iff.1 h

theorem ends_table {op : TableOp} {r : Except Exc op.Res}
    (h : Ends tableSystem x (tableCall op) tr r x') : tr = [⟨.inr op, r⟩] ∧ x'.1 = x.1 ∧
      ((∃ e, r = .error e ∧ x'.2 = x.2) ∨ runTable x.2 op = (r, x'.2)) := by
  obtain ⟨ch, hx, rfl⟩ := ends_perform_iff.1 h
  obtain ⟨hrun, hw⟩ := Effect.Sys.extend_inr.1 hx
  refine ⟨rfl, hw, ?_⟩
  unfold tableStore at hrun
  split at hrun
  next e _ =>
    obtain ⟨rfl, ht⟩ := Prod.mk.inj (Option.some.inj hrun)
    exact .inl ⟨e, rfl, ht.symm⟩
  next => exact .inr (Option.some.inj hrun)

theorem ends_table_ok {op : TableOp} {a : op.Res}
    (h : Ends tableSystem x (tableCall op) tr (.ok a) x') :
    x'.1 = x.1 ∧ runTable x.2 op = (.ok a, x'.2) := by
  obtain ⟨_, hw, ⟨_, he, _⟩ | hrun⟩ := ends_table h
  · cases he
  · exact ⟨hw, hrun⟩

/-- Calls that leave the table and the buckets as they are. -/
def IsQuiet : tableSig.Op → Prop
  | .inl op => op.isQuiet = true
  | .inr op => op.isRead = true

/-- Calls that leave the table as it is. -/
def KeepsTable : tableSig.Op → Prop
  | .inl _  => True
  | .inr op => op.isRead = true

theorem keepsTable_of_isQuiet {op : tableSig.Op} (h : IsQuiet op) : KeepsTable op := by
  cases op with
  | inl op => trivial
  | inr op => exact h

theorem exec_keepsTable {op : tableSig.Op} {ch : Choice} {ans : tableSig.Ans op} (hop : KeepsTable op)
    (hx : tableSystem.exec x op ch = some (ans, x')) : x'.2 = x.2 := by
  cases op with
  | inl op => exact (Effect.Sys.extend_inl.1 hx).2
  | inr op =>
    obtain ⟨hrun, _⟩ := Effect.Sys.extend_inr.1 hx
    unfold tableStore at hrun
    split at hrun
    · exact (Prod.mk.inj (Option.some.inj hrun)).2.symm
    · cases op with
      | getItem => exact (Prod.mk.inj (Option.some.inj hrun)).2.symm
      | queryByPk => exact (Prod.mk.inj (Option.some.inj hrun)).2.symm
      | _ => cases hop

theorem steps_keepsTable {α : Type} {p q : BProg α} (hp : p.All KeepsTable)
    (h : Steps tableSystem x p tr q x') : x'.2 = x.2 := by
  refine Steps.relate (R := fun (x : World × Table) _ (x' : World × Table) => x'.2 = x.2)
    (fun _ => rfl) ?_ hp h
  intro x x₁ x' op ch ans tr hop hx hrest
  exact hrest.trans (exec_keepsTable hop hx)

/-- No quiet call touches an object. -/
theorem exec_objects {w w' : World} {op : DocumentAi.Op} {ch : Choice} {ans : sig.Ans op}
    (hop : op.isQuiet = true) (hx : w.exec op ch = some (ans, w')) : w'.objects = w.objects := by
  rcases exec_cases hx with hx | ⟨_, _, _, _, rfl⟩
  · cases op with
    | getObject | getLastModifiedAt | random | uuid4 =>
      simp only [World.run, World.ok, World.raise] at hx
      split at hx <;> cases hx <;> rfl
    | _ =>
      first
        | (cases hop; done)
        | (simp only [World.run, World.ok] at hx; cases hx; rfl)
  · rfl

theorem exec_isQuiet {op : tableSig.Op} {ch : Choice} {ans : tableSig.Ans op} (hop : IsQuiet op)
    (hx : tableSystem.exec x op ch = some (ans, x')) : x'.1.objects = x.1.objects := by
  cases op with
  | inl op => exact exec_objects hop (Effect.Sys.extend_inl.1 hx).1
  | inr op => rw [(Effect.Sys.extend_inr.1 hx).2]

theorem steps_isQuiet {α : Type} {p q : BProg α} (hp : p.All IsQuiet)
    (h : Steps tableSystem x p tr q x') : x'.1.objects = x.1.objects ∧ x'.2 = x.2 := by
  refine ⟨?_, steps_keepsTable (All.mono (fun _ => keepsTable_of_isQuiet) hp) h⟩
  refine Steps.relate (R := fun (x : World × Table) _ (x' : World × Table) =>
    x'.1.objects = x.1.objects) (fun _ => rfl) ?_ hp h
  intro x x₁ x' op ch ans tr hop hx hrest
  exact hrest.trans (exec_isQuiet hop hx)

theorem all_base {α : Type} {φ : tableSig.Op → Prop} {p : Prog α} (hp : p.All fun op => φ (.inl op)) :
    (base p).All φ := by
  unfold base
  induction p with
  | ret a => trivial
  | raise e => trivial
  | call op k ih => exact ⟨hp.1, fun r => ih r (hp.2 r)⟩

theorem all_tableCall {φ : tableSig.Op → Prop} {op : TableOp} (h : φ (.inr op)) : (tableCall op).All φ :=
  all_perform h

theorem isQuiet_liftExcept {α : Type} (e : Except Exc α) : (base (liftExcept e)).All IsQuiet :=
  all_base (all_liftExcept e)

theorem isQuiet_traceIdOrNew (traceId : Option String) : (base (traceIdOrNew traceId)).All IsQuiet := by
  refine all_base ?_
  unfold traceIdOrNew
  split
  · trivial
  · exact quiet_call rfl

theorem isQuiet_getDocumentBuildPages (env : EnvConfig) (b : String) :
    (getDocumentBuildPages env b).All IsQuiet := by
  unfold getDocumentBuildPages
  refine all_bind (isQuiet_liftExcept _) fun r => ?_
  exact all_bind (all_tableCall rfl) fun _ => trivial

/-! ## The rows of a build -/

theorem mem_rowsOf {t : Table} {e : Nat × Row} : e ∈ rowsOf t b ↔ t.item (b, e.1) = some e.2 := by
  unfold rowsOf
  rw [List.mem_insertionSort, List.mem_filterMap]
  constructor
  · rintro ⟨⟨b', n⟩, _, he⟩
    split at he
    next hb =>
      obtain ⟨row, hrow, rfl⟩ := Option.map_eq_some_iff.1 he
      rw [← hb]
      exact hrow
    next => cases he
  · intro he
    refine ⟨(b, e.1), (t.mem _).2 (by rw [he]; rfl), ?_⟩
    rw [if_pos rfl, he]
    rfl

/-- Each row once, and by page number. -/
theorem pairwise_rowsOf (t : Table) (b : String) : (rowsOf t b).Pairwise fun e e' => e.1 < e'.1 := by
  have hle : (rowsOf t b).Pairwise fun e e' => e.1 ≤ e'.1 :=
    List.pairwise_insertionSort (fun (e e' : Nat × Row) => e.1 ≤ e'.1) _
  have hne : (rowsOf t b).Pairwise fun e e' => e.1 ≠ e'.1 := by
    refine ((List.perm_insertionSort _ _).pairwise_iff fun h => Ne.symm h).2 ?_
    refine List.pairwise_filterMap.2 (t.nodup.imp ?_)
    intro k k' hk e he e' he'
    split at he
    next hb =>
      split at he'
      next hb' =>
        obtain ⟨row, _, rfl⟩ := Option.map_eq_some_iff.1 he
        obtain ⟨row', _, rfl⟩ := Option.map_eq_some_iff.1 he'
        exact fun hn => hk (Prod.ext (hb.trans hb'.symm) hn)
      next => cases he'
    next => cases he
  exact hle.imp₂ (fun _ _ h₁ h₂ => by omega) hne

/-- `pages` are the pages of `b`: one for each row that is not marked as metadata. -/
structure ArePages (bucketName : String) (t : Table) (b : String) (pages : List PageMetadata) : Prop where
  ordered : pages.Pairwise fun p q => p.pageNumber < q.pageNumber
  each    : ∀ page, page ∈ pages ↔ ∃ (n : Nat) (row : Row), t.item (b, n) = some row ∧
    row.isBuildMetadata ≠ some true ∧ page = pageMetadata bucketName (n, row)

theorem sortPages_eq_self {pages : List PageMetadata}
    (h : pages.Pairwise fun p q => p.pageNumber < q.pageNumber) : sortPages pages = pages :=
  List.Pairwise.insertionSort_eq (h.imp fun hlt => Nat.le_of_lt hlt)

theorem arePages_pagesOf (bucketName : String) (t : Table) (b : String) :
    ArePages bucketName t b (pagesOf bucketName (rowsOf t b)) := by
  have hsorted : (((rowsOf t b).filter isPage).map (pageMetadata bucketName)).Pairwise
      fun p q => p.pageNumber < q.pageNumber :=
    List.pairwise_map.2 ((pairwise_rowsOf t b).filter _)
  unfold pagesOf
  rw [sortPages_eq_self hsorted]
  refine ⟨hsorted, fun page => ?_⟩
  rw [List.mem_map]
  constructor
  · rintro ⟨⟨n, row⟩, he, rfl⟩
    obtain ⟨hmem, hpage⟩ := List.mem_filter.1 he
    exact ⟨n, row, mem_rowsOf.1 hmem, by simpa [isPage] using hpage, rfl⟩
  · rintro ⟨n, row, hrow, hpage, rfl⟩
    exact ⟨(n, row), List.mem_filter.2 ⟨mem_rowsOf.2 hrow, by simpa [isPage] using hpage⟩, rfl⟩

/-! ## The lock and the stamps -/

def Row.submitted (now : Timestamp) (row : Row) : Row := Function.update row .submittedAt (some now)

theorem apply_lockRequest {now : Timestamp} {row new : Row}
    (h : (lockRequest now).apply row = .ok new) : row.submittedAt = none ∧ new = row.submitted now := by
  obtain ⟨hcond, _, rfl⟩ := Dynamo.Update.apply_eq_ok h
  exact ⟨Option.isNone_iff_eq_none.1 hcond, rfl⟩

theorem apply_stampRequest {now : Timestamp} {row new : Row}
    (h : (stampRequest now).apply row = .ok new) : new = row.submitted now := by
  obtain ⟨_, _, rfl⟩ := Dynamo.Update.apply_eq_ok h
  rfl

/-- The rows with a number in `ns` are stamped. -/
def StampedAt (b : String) (now : Timestamp) (ns : List Nat) (t t' : Table) : Prop :=
  ∀ k, t'.item k = if k.1 = b ∧ k.2 ∈ ns then some ((rowAt t k).submitted now) else t.item k

theorem submitted_submitted (now : Timestamp) (row : Row) :
    (row.submitted now).submitted now = row.submitted now := Function.update_idem ..

theorem rowAt_put {t : Table} {key k : PageKey} {row : Row} :
    rowAt (t.put key row) k = if k = key then row else rowAt t k := by
  unfold rowAt
  by_cases hk : k = key
  · rw [if_pos hk, hk, Dynamo.Table.put_item_self]
    rfl
  · rw [if_neg hk, Dynamo.Table.put_item_ne _ _ hk]

theorem stampedAt_cons {now : Timestamp} {n : Nat} {ns : List Nat} {t t' : Table}
    (h : StampedAt b now ns (t.put (b, n) ((rowAt t (b, n)).submitted now)) t') :
    StampedAt b now (n :: ns) t t' := by
  intro k
  rw [h k, rowAt_put]
  by_cases hk : k = (b, n)
  · subst hk
    rw [if_pos rfl, Dynamo.Table.put_item_self, submitted_submitted]
    simp
  · rw [if_neg hk, Dynamo.Table.put_item_ne _ _ hk]
    have hiff : (k.1 = b ∧ k.2 ∈ n :: ns) ↔ k.1 = b ∧ k.2 ∈ ns := by
      refine and_congr_right fun hb => ?_
      rw [List.mem_cons, or_iff_right]
      exact fun hn => hk (Prod.ext hb hn)
    simp only [hiff]

/-- The stamps up to a failing one, all of them when none fails. -/
theorem ends_stampPages {now : Timestamp} {rows : List (Nat × Row)} {r : Except Exc Unit}
    (h : Ends tableSystem x (stampPages b now rows) tr r x') :
    ∃ ns ⊆ (rows.map (·.1)).filter (· != 0), StampedAt b now ns x.2 x'.2 ∧ x'.1 = x.1 ∧
      (r = .ok () → ns = (rows.map (·.1)).filter (· != 0)) := by
  have hns : (rows.map (·.1)).filter (· != 0) = (rows.filter fun e => e.1 != 0).map (·.1) :=
    List.filter_map
  rw [hns]
  unfold stampPages at h
  generalize rows.filter (fun e => e.1 != 0) = es at h
  have hnil : ∀ t : Table, StampedAt b now [] t t := fun t k => (if_neg (by simp)).symm
  induction es generalizing x tr with
  | nil =>
    obtain ⟨_, _, rfl⟩ := ends_ret_iff.1 h
    exact ⟨[], by simp, hnil _, rfl, fun _ => rfl⟩
  | cons e es ih =>
    rcases ends_bind_iff.1 h with ⟨err, rfl, hfail⟩ | ⟨_, x₁, tr₁, tr₂, h₁, h₂, rfl⟩
    · obtain ⟨_, hw, ⟨_, _, ht⟩ | hrun⟩ := ends_table hfail
      · exact ⟨[], by simp, by rw [ht]; exact hnil _, hw, fun hr => (by cases hr)⟩
      · rcases runTable_update hrun with ⟨_, _, ht⟩ | ⟨_, hr, _⟩
        · exact ⟨[], by simp, by rw [ht]; exact hnil _, hw, fun hr => (by cases hr)⟩
        · cases hr
    · obtain ⟨hw, hrun⟩ := ends_table_ok h₁
      rcases runTable_update hrun with ⟨_, hr, _⟩ | ⟨row, _, happly, ht⟩
      · cases hr
      obtain rfl := apply_stampRequest happly
      obtain ⟨ns, hsub, hstamped, hw', hall⟩ := ih h₂
      rw [ht] at hstamped
      refine ⟨e.1 :: ns, ?_, stampedAt_cons hstamped, hw'.trans hw, fun hr => ?_⟩
      · exact List.cons_subset_cons _ hsub
      · rw [hall hr]
        rfl

/-- All rows of a build that was submitted at `now`. -/
structure Stamped (b : String) (now : Timestamp) (t t' : Table) : Prop where
  metadata : t'.item (metadataKey b) = some ((rowAt t (metadataKey b)).submitted now)
  others   : ∀ k, k ≠ metadataKey b →
    t'.item k = if k.1 = b then (t.item k).map (Row.submitted now) else t.item k

/-- What the lock and the stamps do to the rows. -/
theorem stamped_of_lock {now : Timestamp} {t t₁ t' : Table} {ns : List Nat}
    (hlock : t₁ = t.put (metadataKey b) ((rowAt t (metadataKey b)).submitted now))
    (hns : ns = ((rowsOf t₁ b).map (·.1)).filter (· != 0)) (h : StampedAt b now ns t₁ t') :
    Stamped b now t t' := by
  have hmem : ∀ n, n ∈ ns ↔ n ≠ 0 ∧ (t₁.item (b, n)).isSome = true := by
    intro n
    rw [hns, List.mem_filter, List.mem_map, and_comm]
    refine and_congr (by simp) ⟨?_, fun hrow => ?_⟩
    · rintro ⟨⟨m, row⟩, he, rfl⟩
      rw [mem_rowsOf.1 he]
      rfl
    · obtain ⟨row, hrow⟩ := Option.isSome_iff_exists.1 hrow
      exact ⟨(n, row), mem_rowsOf.2 hrow, rfl⟩
  constructor
  · rw [h, if_neg, hlock, Dynamo.Table.put_item_self]
    exact fun hk => ((hmem 0).1 hk.2).1 rfl
  · rintro ⟨b', n⟩ hk
    have hsame : t₁.item (b', n) = t.item (b', n) := by
      rw [hlock, Dynamo.Table.put_item_ne _ _ hk]
    rw [h, hsame]
    by_cases hb : b' = b
    · subst hb
      have hn : n ≠ 0 := fun hn => hk (Prod.ext rfl hn)
      simp only [hmem n, hsame, rowAt]
      cases t.item (b', n) with
      | none => simp
      | some row => simp [hn]
    · simp [hb]

theorem any_onTable_of_keepsTable {α : Type} {f : TableOp → Bool} {p q : BProg α}
    (hf : ∀ op, op.isRead = true → f op = false) (hp : p.All KeepsTable)
    (h : Steps tableSystem x p tr q x') : tr.any (onTable f) = false := by
  rw [List.any_eq_false]
  intro ev hev
  have hop := h.ops hp ev hev
  obtain ⟨op | op, ans⟩ := ev
  · simp [onTable_base f ans]
  · simp [onTable, hf op hop]

theorem not_lock_of_isRead (op : TableOp) (h : op.isRead = true) : op.isLock b = false := by
  cases op <;> first | rfl | cases h

theorem not_rollback_of_isRead (op : TableOp) (h : op.isRead = true) : op.isRollback b = false := by
  cases op <;> first | rfl | cases h

theorem not_rollback_of_stamps {now : Timestamp} {rows : List (Nat × Row)} {r : Except Exc Unit}
    (h : Ends tableSystem x (stampPages b now rows) tr r x') :
    tr.any (onTable (TableOp.isRollback b)) = false := by
  have hall : (stampPages b now rows).All fun op =>
      ∃ key, op = (.inr (.updateItem key (stampRequest now)) : tableSig.Op) :=
    Effect.Prog.all_forEach (fun e => all_perform ⟨(b, e.1), rfl⟩) _
  rw [List.any_eq_false]
  intro ev hev
  obtain ⟨key, hop⟩ := h.ops hall ev hev
  obtain ⟨op, ans⟩ := ev
  subst hop
  simp [onTable, TableOp.isRollback]

theorem ends_takeLock {now : Timestamp} {r : Except Exc Unit}
    (h : Ends tableSystem x (takeLock b now) tr r x') :
    (∃ e, r = .error e ∧ x' = x ∧ tr.any (onTable (TableOp.isLock b)) = false) ∨
      r = .ok () ∧ x'.1 = x.1 ∧ (rowAt x.2 (metadataKey b)).submittedAt = none ∧
        x'.2 = x.2.put (metadataKey b) ((rowAt x.2 (metadataKey b)).submitted now) ∧
        tr.any (onTable (TableOp.isRollback b)) = false := by
  rcases ends_tryCatch_iff.1 h with ⟨_, rfl, hok⟩ | ⟨e, x₁, tr₁, tr₂, h₁, h₂, rfl⟩
  · obtain ⟨hw, hrun⟩ := ends_table_ok hok
    rcases runTable_update hrun with ⟨_, hr, _⟩ | ⟨row, _, happly, ht⟩
    · cases hr
    · obtain ⟨hfree, rfl⟩ := apply_lockRequest happly
      refine .inr ⟨rfl, hw, hfree, ht, ?_⟩
      rw [(ends_table hok).1]
      simp [onTable, TableOp.isRollback]
  · have hsame : x₁ = x := by
      obtain ⟨_, hw, ⟨_, _, ht⟩ | hrun⟩ := ends_table h₁
      · exact Prod.ext hw ht
      · rcases runTable_update hrun with ⟨_, _, ht⟩ | ⟨_, hr, _⟩
        · exact Prod.ext hw ht
        · cases hr
    have hfail : ∃ e', r = .error e' ∧ x' = x₁ ∧ tr₂ = [] := by
      split at h₂
      · obtain ⟨rfl, rfl, rfl⟩ := ends_raise_iff.1 h₂
        exact ⟨_, rfl, rfl, rfl⟩
      · obtain ⟨rfl, rfl, rfl⟩ := ends_raise_iff.1 h₂
        exact ⟨_, rfl, rfl, rfl⟩
    obtain ⟨e', rfl, rfl, rfl⟩ := hfail
    refine .inl ⟨e', rfl, hsame, ?_⟩
    rw [(ends_table h₁).1]
    simp [onTable, landed]

theorem isSubmitted_stampedAt {now : Timestamp} {ns : List Nat} (hns : 0 ∉ ns)
    (h : StampedAt b now ns x.2 x'.2) : isSubmitted b x' = isSubmitted b x := by
  refine isSubmitted_congr ?_
  rw [h, if_neg]
  exact fun hk => hns hk.2

/-- Either the lock is not taken, or it is, and all rows are stamped when nothing fails. -/
theorem ends_mark {r : Except Exc Unit}
    (h : Ends tableSystem x (markDocumentBuildSubmitted b) tr r x') :
    (∃ e, r = .error e ∧ tr.any (onTable (TableOp.isLock b)) = false) ∨
      x'.1 = x.1 ∧ isSubmitted b x = false ∧ isSubmitted b x' = true ∧
        tr.any (onTable (TableOp.isRollback b)) = false ∧
        (r = .ok () → ∃ now, Stamped b now x.2 x'.2) := by
  have hnow : (base (call .now)).All IsQuiet := all_base (all_perform rfl)
  have hread : (tableCall (.queryByPk b)).All KeepsTable := all_tableCall rfl
  rcases ends_bind_iff.1 h with ⟨e, rfl, h₀⟩ | ⟨now, x₀, tr₀, tr₁, h₀, h₁, rfl⟩
  · exact .inl ⟨e, rfl, any_onTable_of_keepsTable not_lock_of_isRead
      (All.mono (fun _ => keepsTable_of_isQuiet) hnow) h₀⟩
  obtain ⟨tr₀, rfl, h₀, ht₀⟩ := ends_base h₀
  have hx₀ : x₀ = x := Prod.ext (steps_reads (reads_call rfl) h₀) ht₀
  subst hx₀
  have hbase : ∀ f, (tr₀.map (Event.embed TableOp.Res)).any (onTable f) = false := by
    intro f
    rw [List.any_eq_false]
    intro ev hev
    obtain ⟨ev₀, _, rfl⟩ := List.mem_map.1 hev
    simp [Event.embed, onTable]
  simp only [List.any_append, hbase, Bool.false_or]
  rcases ends_bind_iff.1 h₁ with ⟨e, rfl, h₂⟩ | ⟨_, x₂, tr₂, tr₃, h₂, h₃, rfl⟩
  · rcases ends_takeLock h₂ with ⟨_, _, _, hno⟩ | ⟨hr, _⟩
    · exact .inl ⟨e, rfl, hno⟩
    · cases hr
  obtain ⟨_, hr, _⟩ | ⟨_, hw₂, hfree, ht₂, hroll₂⟩ := ends_takeLock h₂
  · cases hr
  have hbefore : isSubmitted b x₀ = false := by
    rw [isSubmitted_rowAt, hfree]
    rfl
  have hlocked : isSubmitted b x₂ = true := isSubmitted_put ht₂
  simp only [List.any_append, hroll₂, Bool.false_or]
  rcases ends_bind_iff.1 h₃ with ⟨e, rfl, h₄⟩ | ⟨rows, x₄, tr₄, tr₅, h₄, h₅, rfl⟩
  · have hsame := steps_keepsTable hread h₄
    exact .inr ⟨(ends_table h₄).2.1.trans hw₂, hbefore,
      (isSubmitted_congr (by rw [hsame])).trans hlocked,
      any_onTable_of_keepsTable not_rollback_of_isRead hread h₄, fun hr => (by cases hr)⟩
  · obtain ⟨hw₄, hrun⟩ := ends_table_ok h₄
    obtain ⟨hrows, ht₄⟩ := Prod.mk.inj hrun
    obtain rfl : rowsOf x₂.2 b = rows := Except.ok.inj hrows
    obtain ⟨ns, hsub, hstamped, hw', hall⟩ := ends_stampPages h₅
    rw [← ht₄] at hstamped
    have hns : 0 ∉ ns := fun hn => (by simpa using hsub hn)
    refine .inr ⟨hw'.trans (hw₄.trans hw₂), hbefore, ?_, ?_, fun hr => ⟨now, ?_⟩⟩
    · exact (isSubmitted_stampedAt hns hstamped).trans hlocked
    · rw [List.any_append, any_onTable_of_keepsTable not_rollback_of_isRead hread h₄,
        not_rollback_of_stamps h₅, Bool.false_or]
    · exact stamped_of_lock ht₂ (hall hr) hstamped

/-! ## The merged document -/

/-- The pages of the file that is stored for a page of the build. -/
def pagesStored (env : EnvConfig) (pdf : PdfLibrary Page) (w : World) (page : PageMetadata) :
    Option (List Page) :=
  (w.object (page.s3BucketName, page.s3Key)).bind fun obj =>
    (pagesOfFile env pdf page.pageNumber obj.bytes).toOption

def documentOf (env : EnvConfig) (pdf : PdfLibrary Page) (w : World) (pages : List PageMetadata) :
    Option (List Page) :=
  (pages.mapM (pagesStored env pdf w)).map List.flatten

theorem ends_liftExcept_base {α : Type} {e : Except Exc α} {a : α}
    (h : Ends tableSystem x (base (liftExcept e)) tr (.ok a) x') : e = .ok a ∧ x' = x := by
  obtain ⟨tr₀, _, h₀, ht⟩ := ends_base h
  obtain ⟨he, hw⟩ := ends_liftExcept_ok h₀
  exact ⟨he, Prod.ext hw ht⟩

theorem ends_getObject {key : S3Key} {obj : S3Object}
    (h : Ends tableSystem x (base (call (.getObject key))) tr (.ok obj) x') :
    x.1.object key = some obj ∧ x' = x := by
  obtain ⟨tr₀, _, h₀, ht⟩ := ends_base h
  obtain ⟨ch, hx, _⟩ := ends_perform_iff.1 h₀
  refine ⟨?_, Prod.ext (steps_reads (reads_call rfl) h₀) ht⟩
  have hrun := exec_of_ok hx
  simp only [World.run, World.ok, World.raise] at hrun
  split at hrun
  next o ho =>
    obtain rfl : o = obj := Except.ok.inj (Prod.mk.inj (Option.some.inj hrun)).1
    exact ho
  next => cases hrun

/-- The writer holds the pages of the files read so far. -/
theorem ends_addPages {pages : List PageMetadata} {writer doc : List Page}
    (h : Ends tableSystem x (addPages env pdf pages writer) tr (.ok doc) x') :
    x' = x ∧ ∃ rest, documentOf env pdf x.1 pages = some rest ∧ doc = writer ++ rest := by
  induction pages generalizing writer tr x with
  | nil =>
    obtain ⟨_, hr, hx⟩ := ends_ret_iff.1 h
    cases hr
    exact ⟨hx, [], rfl, (List.append_nil _).symm⟩
  | cons page pages ih =>
    obtain ⟨obj, x₁, tr₁, tr₂, h₁, h₂, rfl⟩ := ends_bind_ok h
    obtain ⟨hobj, rfl⟩ := ends_getObject h₁
    obtain ⟨added, x₂, tr₃, tr₄, h₃, h₄, rfl⟩ := ends_bind_ok h₂
    obtain ⟨hadded, rfl⟩ := ends_liftExcept_base h₃
    obtain ⟨hx, rest, hrest, rfl⟩ := ih h₄
    have hstored : pagesStored env pdf x₂.1 page = some added := by
      unfold pagesStored
      rw [hobj, Option.bind_some, hadded]
      rfl
    unfold documentOf at hrest
    obtain ⟨files, hfiles, rfl⟩ := Option.map_eq_some_iff.1 hrest
    refine ⟨hx, added ++ files.flatten, ?_, List.append_assoc ..⟩
    unfold documentOf
    rw [List.mapM_cons, hstored, hfiles]
    rfl

theorem ends_mergePagesToPdf {pages : List PageMetadata} {bytes : Bytes}
    (hpages : pages.Pairwise fun p q => p.pageNumber < q.pageNumber)
    (h : Ends tableSystem x (mergePagesToPdf env pdf pages) tr (.ok bytes) x') :
    x' = x ∧ ∃ doc, documentOf env pdf x.1 pages = some doc ∧ bytes = pdf.write doc := by
  obtain ⟨writer, x₁, tr₁, tr₂, h₁, h₂, rfl⟩ := ends_bind_ok h
  rw [sortPages_eq_self hpages] at h₁
  obtain ⟨rfl, doc, hdoc, hwriter⟩ := ends_addPages h₁
  obtain ⟨_, hr, hx⟩ := ends_ret_iff.1 h₂
  exact ⟨hx, doc, hdoc, by rw [Except.ok.inj hr, hwriter, List.nil_append]⟩

/-! ## The record and the object -/

/-- Every action on `a` sets it to `v`. -/
def SetsTo {a : DocumentMetadata} (v : a.Val) (xs : List Action) : Prop :=
  ∀ y ∈ xs, y.target = a → y = .set a v

theorem setsTo_append {a : DocumentMetadata} {v : a.Val} {xs ys : List Action} (hx : SetsTo v xs)
    (hy : SetsTo v ys) : SetsTo v (xs ++ ys) :=
  List.forall_mem_append.2 ⟨hx, hy⟩

theorem setsTo_of_targets {a : DocumentMetadata} {v : a.Val} {xs : List Action}
    (h : Targets (T := DocumentMetadata.schema) (· ≠ a) xs) : SetsTo v xs :=
  fun y hy e => absurd e (h y hy)

theorem setsTo_setOpt (a : DocumentMetadata) (v : a.Val) : SetsTo v (setOpt a (some v)) := by
  intro y hy _
  exact List.mem_singleton.1 hy

theorem setsTo_initialFieldActions {d : InitialDdbRecord} {j t : String} (hj : d.jobId = some j)
    (ht : d.tenantId = some t) :
    SetsTo (a := .jobId) j (initialFieldActions d) ∧ SetsTo (a := .tenantId) t (initialFieldActions d) := by
  unfold initialFieldActions
  rw [hj, ht]
  constructor
  all_goals
    repeat refine setsTo_append ?_ ?_
    all_goals first
      | exact setsTo_setOpt _ _
      | exact setsTo_of_targets (targets_setOpt (by decide) _)

theorem mem_setOpt (a : DocumentMetadata) (v : a.Val) : .set a v ∈ setOpt a (some v) :=
  List.mem_singleton.2 rfl

theorem mem_initialFieldActions {d : InitialDdbRecord} {j t : String} (hj : d.jobId = some j)
    (ht : d.tenantId = some t) :
    .set .jobId j ∈ initialFieldActions d ∧ .set .tenantId t ∈ initialFieldActions d := by
  unfold initialFieldActions
  rw [hj, ht]
  constructor
  all_goals repeat first
    | exact List.mem_append_right _ (mem_setOpt _ _)
    | refine List.mem_append_left _ ?_

theorem setsTo_upsertActions {a : DocumentMetadata} {v : a.Val} {d : InitialDdbRecord} (now : Timestamp)
    (hhead : a ∉ headTargets)
    (hmaps : ∀ c ∈ [DocumentMetadata.userProvidedDocumentCategory, .apiResponsesByMethod,
      .durationsByMethod, .tokensByModel], c ≠ a)
    (hfields : SetsTo v (initialFieldActions d)) (hend : upsertEnd d = []) :
    SetsTo v (upsertActions now d) := by
  rw [upsertActions_eq, hend, List.append_nil]
  refine setsTo_append (setsTo_append (setsTo_of_targets ?_) (setsTo_of_targets ?_)) hfields
  · refine targets_ne_iff.2 ?_
    rw [map_target_upsertHead]
    exact hhead
  · have hnil : Targets (T := DocumentMetadata.schema) (· ≠ a) [] := targets_nil
    unfold upsertMaps
    simp only [List.forall_mem_cons] at hmaps
    obtain ⟨hcategory, hresponses, hdurations, htokens, _⟩ := hmaps
    refine targets_append.2 ⟨targets_append.2 ⟨targets_ne_setOpt hcategory _, ?_⟩,
      targets_setIfNotExists htokens hnil⟩
    exact targets_ite (targets_setIfNotExists hresponses (targets_setIfNotExists hdurations hnil)) hnil

/-- An upsert of a record writes its job and its tenant. -/
theorem upsertRequest_owner {now : Timestamp} {record : DocumentRecord} {old new : Record}
    (h : (upsertRequest now (minimalRecord record)).apply old = .ok new) :
    new .jobId = some record.jobId ∧ new .tenantId = some record.tenantId := by
  obtain ⟨hjob, htenant⟩ := setsTo_initialFieldActions (d := minimalRecord record) rfl rfl
  have hjob' : SetsTo (a := .jobId) record.jobId (upsertActions now (minimalRecord record)) :=
    setsTo_upsertActions now (by decide) (by decide) hjob rfl
  have htenant' : SetsTo (a := .tenantId) record.tenantId (upsertActions now (minimalRecord record)) :=
    setsTo_upsertActions now (by decide) (by decide) htenant rfl
  have hmem : ∀ y ∈ initialFieldActions (minimalRecord record),
      y ∈ upsertActions now (minimalRecord record) := by
    intro y hy
    rw [upsertActions_eq]
    exact List.mem_append_left _ (List.mem_append_right _ hy)
  constructor
  · refine Dynamo.Update.apply_set h ?_ ?_
    · show _ ∈ upsertActions now (minimalRecord record)
      refine hmem _ ?_
      exact (mem_initialFieldActions rfl rfl).1
    · exact hjob'
  · refine Dynamo.Update.apply_set h ?_ ?_
    · show _ ∈ upsertActions now (minimalRecord record)
      refine hmem _ ?_
      exact (mem_initialFieldActions rfl rfl).2
    · exact htenant'

theorem ends_insertMinimalDdbRecord_owner {record : DocumentRecord} {w w' : World}
    {tr : List (Event sig)} (h : Ends system w (insertMinimalDdbRecord env record) tr (.ok ()) w') :
    (w'.record record.ddbKey).jobId = some record.jobId ∧
      (w'.record record.ddbKey).tenantId = some record.tenantId := by
  rw [insertMinimalDdbRecord_eq] at h
  obtain ⟨now, mid, hmid, hleft⟩ := (ends_upsertDdb h).2.2 rfl
  obtain ⟨hjob, htenant⟩ := upsertRequest_owner hmid
  exact ⟨(hleft .jobId (by decide)).trans hjob, (hleft .tenantId (by decide)).trans htenant⟩

theorem write_mergedUpload {location traceId fileName jobId : String} {pages : List PageMetadata}
    {bytes : Bytes} {key : S3Key}
    (hkey : parseS3Uri (destPath (some location) auth.tenantId fileName) = .ok key) :
    (mergedUpload auth location b traceId pages fileName jobId bytes).write env key = some bytes := by
  have hdest : parseS3Uri
      (mergedUpload auth location b traceId pages fileName jobId bytes).destPath = .ok key := hkey
  rw [UploadRequest.write, hdest]
  exact if_pos rfl

/-- What an accepted submission leaves. -/
structure Accepted (env : EnvConfig) (pdf : PdfLibrary Page) (auth : UserContext) (b : String)
    (r : SubmitResult) (x x' : World × Table) (pages : List PageMetadata) (doc : List Page)
    (fileName : String) (key : S3Key) : Prop where
  count    : r.pageCount = pages.length
  document : documentOf env pdf x.1 pages = some doc
  dest     : parseS3Uri (destPath env.documentaiInputLocation auth.tenantId fileName) = .ok key
  stored   : x'.1.body key = some (.raw (pdf.write doc))
  jobId    : (x'.1.record fileName).jobId = some r.jobId
  tenantId : (x'.1.record fileName).tenantId = some auth.tenantId

theorem ends_uploadMerged {location traceId : String} {uploadSource : Option String}
    {pages : List PageMetadata} {r : SubmitResult}
    (hlocation : env.documentaiInputLocation = some location)
    (hpages : pages.Pairwise fun p q => p.pageNumber < q.pageNumber)
    (h : Ends tableSystem x (uploadMerged env pdf auth location b traceId uploadSource pages) tr
      (.ok r) x') :
    ∃ doc fileName key, Accepted env pdf auth b r x x' pages doc fileName key := by
  obtain ⟨mergedPdf, x₁, tr₁, tr₂, h₁, h₂, rfl⟩ := ends_bind_ok h
  obtain ⟨rfl, doc, hdoc, rfl⟩ := ends_mergePagesToPdf hpages h₁
  obtain ⟨jobId, x₂, tr₃, tr₄, h₃, h₄, rfl⟩ := ends_bind_ok h₂
  obtain ⟨suffix, x₃, tr₅, tr₆, h₅, h₆, rfl⟩ := ends_bind_ok h₄
  obtain ⟨_, x₄, tr₇, tr₈, h₇, h₈, rfl⟩ := ends_bind_ok h₆
  obtain ⟨_, x₅, tr₉, tr₁₀, h₉, h₁₀, rfl⟩ := ends_bind_ok h₈
  obtain ⟨_, hr, hx⟩ := ends_ret_iff.1 h₁₀
  obtain rfl := Except.ok.inj hr
  obtain rfl : x' = x₅ := hx
  obtain ⟨_, _, hinsert, _⟩ := ends_base h₇
  obtain ⟨_, _, hupload, _⟩ := ends_base h₉
  obtain ⟨hjob, htenant⟩ := ends_insertMinimalDdbRecord_owner hinsert
  obtain ⟨key, _, hkey, _, _, hdocs⟩ := ends_uploadDocumentForProcessing hupload
  refine ⟨doc, _, key, rfl, hdoc, by rw [hlocation]; exact hkey, ?_, ?_, ?_⟩
  · rw [ends_upload_body hupload key, write_mergedUpload hkey]
  · rw [record_congr hdocs]
    exact hjob
  · rw [record_congr hdocs]
    exact htenant

/-! ## The run of a submission -/

/-- The requests on the table that `f` counts, all of them writes. -/
def CountsWrites (f : TableOp → Bool) : Prop := ∀ op, op.isRead = true → f op = false

/-- A quiet start of a program changes no row and no object, and makes no write. -/
theorem after_quiet {α β : Type} {p : BProg α} {f : α → BProg β} {r : Except Exc β} (hp : p.All IsQuiet)
    (h : Ends tableSystem x (p.bind f) tr r x') :
    (∃ e, r = .error e ∧ ∀ g, CountsWrites g → tr.any (onTable g) = false) ∨
      ∃ a x₁ tr₁ tr₂, Ends tableSystem x p tr₁ (.ok a) x₁ ∧ x₁.1.objects = x.1.objects ∧ x₁.2 = x.2 ∧
        Ends tableSystem x₁ (f a) tr₂ r x' ∧
        ∀ g, CountsWrites g → tr.any (onTable g) = tr₂.any (onTable g) := by
  have hkeeps : p.All KeepsTable := All.mono (fun _ => keepsTable_of_isQuiet) hp
  rcases ends_bind_iff.1 h with ⟨e, rfl, he⟩ | ⟨a, x₁, tr₁, tr₂, h₁, h₂, rfl⟩
  · exact .inl ⟨e, rfl, fun g hg => any_onTable_of_keepsTable hg hkeeps he⟩
  · obtain ⟨hobjects, htable⟩ := steps_isQuiet hp h₁
    refine .inr ⟨a, x₁, tr₁, tr₂, h₁, hobjects, htable, h₂, fun g hg => ?_⟩
    rw [List.any_append, any_onTable_of_keepsTable hg hkeeps h₁, Bool.false_or]

theorem keepsTable_uploadMerged (env : EnvConfig) (auth : UserContext) (location traceId : String)
    (uploadSource : Option String) (pages : List PageMetadata) :
    (uploadMerged env pdf auth location b traceId uploadSource pages).All KeepsTable := by
  have hbase : ∀ {α : Type} (p : Prog α), (base p).All KeepsTable :=
    fun p => all_base (Effect.Prog.all_true p)
  have hadd : ∀ (pages : List PageMetadata) (writer : List Page),
      (addPages env pdf pages writer).All KeepsTable := by
    intro pages
    induction pages with
    | nil => exact fun _ => trivial
    | cons page pages ih =>
      intro writer
      refine all_bind (hbase _) fun obj => all_bind (hbase _) fun added => ?_
      exact ih _
  refine all_bind (all_bind (hadd _ _) fun _ => trivial) fun bytes => ?_
  refine all_bind (hbase _) fun jobId => all_bind (hbase _) fun suffix => ?_
  exact all_bind (hbase _) fun _ => all_bind (hbase _) fun _ => trivial

theorem spec_declineBuild (env : EnvConfig) (traceId : String) (metadata : Row) :
    (declineBuild env b traceId metadata).Spec KeepsTable fun r => r.jobStatus = .aiConsentDeclined := by
  have hbase : ∀ {α : Type} (p : Prog α), (base p).All KeepsTable :=
    fun p => all_base (Effect.Prog.all_true p)
  unfold declineBuild
  refine all_bind (hbase _) fun jobId => ?_
  dsimp only
  split
  · refine all_bind (hbase _) fun _ => all_bind (hbase _) fun _ => ?_
    exact all_bind (All.mono (fun _ => keepsTable_of_isQuiet) (isQuiet_getDocumentBuildPages ..))
      fun pages => rfl
  · trivial
  · trivial

/-- A rollback clears the metadata row and nothing else. -/
theorem ends_rollBackOnError {p : BProg SubmitResult} {r : Except Exc SubmitResult} (hp : p.All KeepsTable)
    (h : Ends tableSystem x (rollBackOnError b p) tr r x') :
    (tr.any (onTable (TableOp.isRollback b)) = false ∧ x'.2 = x.2 ∧
      ∀ a, r = .ok a → Ends tableSystem x p tr (.ok a) x') ∨
    (∃ e, r = .error e) ∧ tr.any (onTable (TableOp.isRollback b)) = true ∧
      x'.2 = x.2.put (metadataKey b) ((rowAt x.2 (metadataKey b)).without [.submittedAt]) := by
  rcases ends_tryCatch_iff.1 h with ⟨a, rfl, hok⟩ | ⟨e, x₁, tr₁, tr₂, h₁, h₂, rfl⟩
  · refine .inl ⟨any_onTable_of_keepsTable not_rollback_of_isRead hp hok, steps_keepsTable hp hok, ?_⟩
    intro a' ha
    rw [← ha]
    exact hok
  have htable := steps_keepsTable hp h₁
  have hnone : tr₁.any (onTable (TableOp.isRollback b)) = false :=
    any_onTable_of_keepsTable not_rollback_of_isRead hp h₁
  rw [List.any_append, hnone, Bool.false_or, ← htable]
  cases e with
  | httpException status detail =>
    obtain ⟨rfl, rfl, rfl⟩ := ends_raise_iff.1 h₂
    exact .inl ⟨rfl, rfl, fun a ha => (by cases ha)⟩
  | _ =>
    rcases ends_bind_iff.1 h₂ with ⟨_, _, hfail⟩ | ⟨_, x₂, tr₃, tr₄, h₃, h₄, rfl⟩
    · -- a failed rollback is swallowed
      rcases ends_tryCatch_iff.1 hfail with ⟨_, hr, _⟩ | ⟨_, _, _, _, _, hret, _⟩
      · cases hr
      · obtain ⟨_, hr, _⟩ := ends_ret_iff.1 hret
        cases hr
    · obtain ⟨rfl, rfl, rfl⟩ := ends_raise_iff.1 h₄
      rw [List.append_nil]
      rcases ends_tryCatch_iff.1 h₃ with ⟨_, _, hclear⟩ | ⟨_, x₃, tr₅, tr₆, hclear, hret, rfl⟩
      · obtain ⟨_, hrun⟩ := ends_table_ok hclear
        refine .inr ⟨⟨_, rfl⟩, ?_, (Prod.mk.inj hrun).2.symm⟩
        rw [(ends_table hclear).1]
        simp [onTable, landed, TableOp.isRollback]
      · obtain ⟨rfl, _, rfl⟩ := ends_ret_iff.1 hret
        obtain ⟨htr, _, ⟨_, _, ht⟩ | hrun⟩ := ends_table hclear
        · refine .inl ⟨?_, ht, fun a ha => (by cases ha)⟩
          rw [htr]
          simp [onTable, landed]
        · cases (Prod.mk.inj hrun).1

/-- A submission that has come to its lock, in the world `x₁`. -/
structure ComesToLock (env : EnvConfig) (pdf : PdfLibrary Page) (auth : UserContext) (b : String)
    (x : World × Table) (tr : List (Event tableSig)) (r : Except Exc SubmitResult) (x' : World × Table)
    (bucketName location : String) (x₁ : World × Table) (tr₁ : List (Event tableSig)) : Prop where
  bucket   : ∃ pre, parseS3Uri (env.documentaiPreprocessingLocation.getD "") = .ok (bucketName, pre)
  input    : env.documentaiInputLocation = some location
  pages    : pagesOf bucketName (rowsOf x.2 b) ≠ []
  category : checkCategories (pagesOf bucketName (rowsOf x.2 b)) = .ok ()
  objects  : x₁.1.objects = x.1.objects
  table    : x₁.2 = x.2
  rest     : ∃ traceId uploadSource, Ends tableSystem x₁ ((markDocumentBuildSubmitted b).bind fun _ =>
    rollBackOnError b (uploadMerged env pdf auth location b traceId uploadSource
      (pagesOf bucketName (rowsOf x.2 b)))) tr₁ r x'
  writes   : ∀ g, CountsWrites g → tr.any (onTable g) = tr₁.any (onTable g)

theorem countsWrites_isLock (b : String) : CountsWrites (TableOp.isLock b) := not_lock_of_isRead

theorem countsWrites_isRollback (b : String) : CountsWrites (TableOp.isRollback b) := not_rollback_of_isRead

theorem ends_getDocumentBuildPages {pages : List PageMetadata}
    (h : Ends tableSystem x (getDocumentBuildPages env b) tr (.ok pages) x') :
    ∃ bucketName pre, parseS3Uri (env.documentaiPreprocessingLocation.getD "") = .ok (bucketName, pre) ∧
      pages = pagesOf bucketName (rowsOf x.2 b) := by
  obtain ⟨⟨bucketName, pre⟩, x₁, tr₁, tr₂, h₁, h₂, rfl⟩ := ends_bind_ok h
  obtain ⟨hparse, rfl⟩ := ends_liftExcept_base h₁
  obtain ⟨rows, x₂, tr₃, tr₄, h₃, h₄, rfl⟩ := ends_bind_ok h₂
  obtain ⟨_, hrun⟩ := ends_table_ok h₃
  obtain rfl : rowsOf x₁.2 b = rows := Except.ok.inj (Prod.mk.inj hrun).1
  obtain ⟨_, hr, _⟩ := ends_ret_iff.1 h₄
  exact ⟨bucketName, pre, hparse, Except.ok.inj hr⟩

theorem ends_submitPages {traceId : String} {uploadSource : Option String} {r : Except Exc SubmitResult}
    (h : Ends tableSystem x (submitPages env pdf auth b traceId uploadSource) tr r x') :
    ((∃ e, r = .error e) ∧ ∀ g, CountsWrites g → tr.any (onTable g) = false) ∨
      ∃ bucketName location x₁ tr₁, ComesToLock env pdf auth b x tr r x' bucketName location x₁ tr₁ := by
  have hraise : ∀ {x₀ : World × Table} {tr₀ : List (Event tableSig)} {e : Exc},
      Ends tableSystem x₀ (throw e : BProg SubmitResult) tr₀ r x' →
        (∃ e, r = .error e) ∧ ∀ g, CountsWrites g → tr₀.any (onTable g) = false := by
    intro x₀ tr₀ e h
    obtain ⟨rfl, rfl, _⟩ := ends_raise_iff.1 h
    exact ⟨⟨_, rfl⟩, fun _ _ => rfl⟩
  rcases after_quiet (isQuiet_getDocumentBuildPages env b) h with
    ⟨e, he, hnone⟩ | ⟨pages, x₁, tr₁, tr₂, h₁, hobjects₁, htable₁, h₂, hwrites₁⟩
  · exact .inl ⟨⟨e, he⟩, hnone⟩
  obtain ⟨bucketName, pre, hparse, rfl⟩ := ends_getDocumentBuildPages h₁
  have hleft : ((∃ e, r = .error e) ∧ ∀ g, CountsWrites g → tr₂.any (onTable g) = false) →
      (∃ e, r = .error e) ∧ ∀ g, CountsWrites g → tr.any (onTable g) = false :=
    fun h => ⟨h.1, fun g hg => (hwrites₁ g hg).trans (h.2 g hg)⟩
  dsimp only at h₂
  split at h₂
  · exact .inl (hleft (hraise h₂))
  next hne =>
    split at h₂
    · exact .inl (hleft (hraise h₂))
    next location hloc =>
      rcases after_quiet (isQuiet_liftExcept _) h₂ with
        ⟨e, he, hnone⟩ | ⟨_, x₂, tr₃, tr₄, h₃, hobjects₂, htable₂, h₄, hwrites₂⟩
      · exact .inl (hleft ⟨⟨e, he⟩, hnone⟩)
      · obtain ⟨hcategory, rfl⟩ := ends_liftExcept_base h₃
        refine .inr ⟨bucketName, location, x₂, tr₄, ⟨pre, hparse⟩, ?_, ?_, hcategory,
          hobjects₂.trans hobjects₁, htable₂.trans htable₁, ⟨_, _, h₄⟩,
          fun g hg => (hwrites₁ g hg).trans (hwrites₂ g hg)⟩
        · exact (Option.filter_eq_some_iff.1 hloc).1
        · simpa using hne

/-- A submission is refused, or answered as declined, or comes to its lock. -/
theorem ends_submitBuild {traceId : Option String} {r : Except Exc SubmitResult}
    (h : Ends tableSystem x (submitBuild env pdf auth b traceId) tr r x') :
    ((∀ a, r = .ok a → a.jobStatus = .aiConsentDeclined) ∧
        ∀ g, CountsWrites g → tr.any (onTable g) = false) ∨
      ∃ bucketName location x₁ tr₁, ComesToLock env pdf auth b x tr r x' bucketName location x₁ tr₁ := by
  have hread : (getBuildMetadata b).All IsQuiet := all_tableCall rfl
  rcases after_quiet (isQuiet_traceIdOrNew traceId) h with
    ⟨e, rfl, hnone⟩ | ⟨trace, x₁, tr₁, tr₂, _, hobjects₁, htable₁, h₂, hwrites₁⟩
  · exact .inl ⟨fun a ha => (by cases ha), hnone⟩
  rcases after_quiet hread h₂ with
    ⟨e, rfl, hnone⟩ | ⟨metadata, x₂, tr₃, tr₄, _, hobjects₂, htable₂, h₃, hwrites₂⟩
  · exact .inl ⟨fun a ha => (by cases ha), fun g hg => (hwrites₁ g hg).trans (hnone g hg)⟩
  have hwrites : ∀ g, CountsWrites g → tr.any (onTable g) = tr₄.any (onTable g) :=
    fun g hg => (hwrites₁ g hg).trans (hwrites₂ g hg)
  split at h₃
  next row _ =>
    have hspec := spec_declineBuild (b := b) env trace row
    refine .inl ⟨fun a ha => ?_, fun g hg => (hwrites g hg).trans
      (any_onTable_of_keepsTable hg hspec.all h₃)⟩
    subst ha
    have hstatus := Effect.ends_of_spec hspec h₃
    exact hstatus
  next =>
    rcases ends_submitPages h₃ with ⟨⟨e, rfl⟩, hnone⟩ | ⟨bucketName, location, x₃, tr₅, hcomes⟩
    · exact .inl ⟨fun a ha => (by cases ha), fun g hg => (hwrites g hg).trans (hnone g hg)⟩
    · obtain ⟨hbucket, hinput, hpages, hcategory, hobjects, htable, hrest, hwrites₃⟩ := hcomes
      rw [htable₂, htable₁] at hpages hcategory hrest
      exact .inr ⟨bucketName, location, x₃, tr₅, hbucket, hinput, hpages, hcategory,
        hobjects.trans (hobjects₂.trans hobjects₁), htable.trans (htable₂.trans htable₁), hrest,
        fun g hg => (hwrites g hg).trans (hwrites₃ g hg)⟩

/-! ## What a submission leaves -/

theorem documentOf_congr {w w' : World} (h : w'.objects = w.objects) (pages : List PageMetadata) :
    documentOf env pdf w' pages = documentOf env pdf w pages := by
  have hstored : pagesStored env pdf w' = pagesStored env pdf w := by
    funext page
    unfold pagesStored World.object
    rw [h]
  unfold documentOf
  rw [hstored]

theorem one_category {pages : List PageMetadata} (h : checkCategories pages = .ok ())
    {p q : PageMetadata} (hp : p ∈ pages) (hq : q ∈ pages) {c d : String} (hc : p.category = some c)
    (hd : q.category = some d) : c = d := by
  have hlen : ¬ 1 < (pages.filterMap (·.category)).dedup.length := by
    intro hlt
    unfold checkCategories at h
    rw [if_pos hlt] at h
    cases h
  have hmem : ∀ {p : PageMetadata} {c : String}, p ∈ pages → p.category = some c →
      c ∈ (pages.filterMap (·.category)).dedup :=
    fun hp hc => List.mem_dedup.2 (List.mem_filterMap.2 ⟨_, hp, hc⟩)
  have hc := hmem hp hc
  have hd := hmem hq hd
  generalize (pages.filterMap (·.category)).dedup = cs at hlen hc hd
  match cs with
  | [] => cases hc
  | [e] => rw [List.mem_singleton.1 hc, List.mem_singleton.1 hd]
  | _ :: _ :: _ => simp at hlen

/-- A submission that is accepted stores, in the order of the page numbers and each once, the pages of
the files of the build, under a record of its tenant; the build was not submitted, all its rows now are. -/
theorem submit_merges_pages {traceId : Option String} {r : SubmitResult}
    (h : Ends tableSystem x (submitBuild env pdf auth b traceId) tr (.ok r) x')
    (hr : r.jobStatus ≠ .aiConsentDeclined) :
    isSubmitted b x = false ∧ ∃ bucketName pages doc fileName key now,
      (∃ pre, parseS3Uri (env.documentaiPreprocessingLocation.getD "") = .ok (bucketName, pre)) ∧
      ArePages bucketName x.2 b pages ∧ pages ≠ [] ∧
      (∀ p ∈ pages, ∀ q ∈ pages, ∀ c d, p.category = some c → q.category = some d → c = d) ∧
      Accepted env pdf auth b r x x' pages doc fileName key ∧ Stamped b now x.2 x'.2 := by
  rcases ends_submitBuild h with ⟨hdeclined, _⟩ | ⟨bucketName, location, x₁, tr₁, hcomes⟩
  · exact absurd (hdeclined r rfl) hr
  obtain ⟨hbucket, hinput, hpages, hcategory, hobjects, htable, ⟨trace, source, hrest⟩, _⟩ := hcomes
  have hare := arePages_pagesOf bucketName x.2 b
  obtain ⟨_, x₂, tr₂, tr₃, hmark, hback, rfl⟩ := ends_bind_ok hrest
  obtain ⟨_, he, _⟩ | ⟨hw₂, hfree, _, _, hstamped⟩ := ends_mark hmark
  · cases he
  obtain ⟨now, hstamped⟩ := hstamped rfl
  obtain ⟨_, ht', hmerged⟩ | ⟨⟨_, he⟩, _⟩ :=
    ends_rollBackOnError (keepsTable_uploadMerged env auth location trace source _) hback
  · obtain ⟨doc, fileName, key, haccepted⟩ := ends_uploadMerged hinput hare.ordered (hmerged r rfl)
    refine ⟨?_, bucketName, _, doc, fileName, key, now, hbucket, hare, hpages,
      fun p hp q hq c d => one_category hcategory hp hq, ?_, ?_⟩
    · rw [← hfree]
      exact (isSubmitted_congr (by rw [htable])).symm
    · refine { haccepted with document := ?_ }
      rw [← haccepted.document]
      exact (documentOf_congr (by rw [hw₂, hobjects]) _).symm
    · rw [← htable, ht']
      exact hstamped
  · cases he

def asciiDigits (n : Nat) : Bytes := (Nat.toDigits 10 n).map fun c => UInt8.ofNat c.toNat

def tenDigits (n : Nat) : Bytes :=
  List.replicate (10 - (asciiDigits n).length) 48 ++ asciiDigits n

/-- The catalog, the page tree and the pages of a PDF document. -/
def pdfObjects (sizes : List (Nat × Nat)) : List Bytes :=
  let kids := (List.range' 3 sizes.length).flatMap fun n => asciiDigits n ++ ascii " 0 R "
  [ascii "<</Type/Catalog/Pages 2 0 R>>",
    ascii "<</Type/Pages/Kids[" ++ kids ++ ascii "]/Count " ++ asciiDigits sizes.length ++ ascii ">>"] ++
  sizes.map fun s =>
    ascii "<</Type/Page/Parent 2 0 R/MediaBox[0 0 " ++ asciiDigits s.1 ++ ascii " " ++ asciiDigits s.2 ++
      ascii "]>>"

/-- A document of blank pages, given their widths and heights. -/
def blankPdf (sizes : List (Nat × Nat)) : Bytes :=
  let objects := (pdfObjects sizes).zipIdx.map fun (o, i) =>
    asciiDigits (i + 1) ++ ascii " 0 obj" ++ o ++ ascii "endobj\n"
  let (body, offsets) := objects.foldl
    (fun (acc : Bytes × List Nat) o => (acc.1 ++ o, acc.2 ++ [acc.1.length])) (ascii "%PDF-1.4\n", [])
  let size := asciiDigits (objects.length + 1)
  body ++ ascii "xref\n0 " ++ size ++ ascii "\n0000000000 65535 f \n" ++
    offsets.flatMap (fun o => tenDigits o ++ ascii " 00000 n \n") ++
    ascii "trailer<</Size " ++ size ++ ascii "/Root 1 0 R>>\nstartxref\n" ++ asciiDigits body.length ++
    ascii "\n%%EOF\n"

def leasePages : List (Nat × Nat) := [(612, 792), (595, 842)]

/-- An image of one pixel. -/
def dotPng : Bytes :=
  [137, 80, 78, 71, 13, 10, 26, 10, 0, 0, 0, 13, 73, 72, 68, 82, 0, 0, 0, 1, 0, 0, 0, 1, 8, 0, 0, 0, 0,
    58, 126, 155, 85, 0, 0, 0, 10, 73, 68, 65, 84, 120, 156, 99, 248, 15, 0, 1, 1, 1, 0, 177, 56, 246,
    20, 0, 0, 0, 0, 73, 69, 78, 68, 174, 66, 96, 130]

def blankLibrary : PdfLibrary (Nat × Nat) where
  pages data      := if data = blankPdf leasePages then some leasePages else none
  imagePages data := if data = dotPng then some [(1, 1)] else none
  write           := blankPdf

def leaseMime (data : Bytes) : Option String :=
  if isPdf data then some "application/pdf"
  else if data.take 4 = dotPng.take 4 then some "image/png"
  else none

def leaseEnv : EnvConfig := { onePageEnv with libs := { guessMime := leaseMime } }

/-- The second page has been uploaded first; only the first has a category. Another tenant has a build. -/
def leaseWorld (category : Option String) : World × Table :=
  ({ objects := [(("pre", "t/b-page-2.png"), { body := .raw dotPng }),
      (("pre", "t/b-page-1.pdf"), { body := .raw (blankPdf leasePages) })] },
    (((Dynamo.Table.empty.put ("b", 0) (metadataRow 0 ⟨"t", "k"⟩ {})).put ("b", 2)
      (pageRow (pageItem 0 "t/b-page-2.png" (some "dot.png") category))).put ("b", 1)
      (pageRow (pageItem 0 "t/b-page-1.pdf" (some "lease.pdf") (some "lease")))).put ("c", 0)
      (metadataRow 0 ⟨"u", "k"⟩ {}))

/-- A submission of it, with the environment's part in each of its calls. -/
def leaseRun (category : Option String) (chs : List Choice) :=
  Effect.follow tableSystem (leaseWorld category)
    (submitBuild leaseEnv blankLibrary ⟨"t", "k"⟩ "b" (some "x")) chs

/-- The answer, and what has been stored for the processor. -/
def leaseOutcome (r : SubmitResult) (x : World × Table) : Bool :=
  r.jobStatus == .notStarted && r.pageCount == 2 &&
    match x.1.body ("in", "t/document-build-b-u2.pdf") with
    | some (.raw data) => data == blankPdf (leasePages ++ [(1, 1)])
    | _ => false

theorem ends_leaseRun {category : Option String} {chs : List Choice}
    (h : (leaseRun category chs).map (fun run => run.2.1.result.bind fun r =>
      r.toOption.map fun r => leaseOutcome r run.2.2) = some (some true)) :
    ∃ r tr x', leaseOutcome r x' = true ∧ Ends tableSystem (leaseWorld category)
      (submitBuild leaseEnv blankLibrary ⟨"t", "k"⟩ "b" (some "x")) tr (.ok r) x' := by
  obtain ⟨⟨tr, q, x'⟩, hf, he⟩ := Option.map_eq_some_iff.1 h
  obtain ⟨res, hres, hok⟩ := Option.bind_eq_some_iff.1 he
  obtain ⟨r, hr, houtcome⟩ := Option.map_eq_some_iff.1 hok
  obtain rfl : q = .ofExcept res := Effect.Prog.eq_ofExcept hres
  have hsteps := Effect.steps_of_follow hf
  cases res with
  | error e => cases hr
  | ok a =>
    obtain rfl : a = r := Option.some.inj hr
    exact ⟨a, tr, x', houtcome, hsteps⟩

set_option maxRecDepth 10000 in
theorem leaseRun_none : (leaseRun none (List.replicate 9 { uuid := "" } ++
    [{ uuid := "u1" }, { uuid := "u2" }] ++ List.replicate 5 { uuid := "" })).map (fun run =>
      run.2.1.result.bind fun r => r.toOption.map fun r => leaseOutcome r run.2.2) =
        some (some true) := by
  decide +kernel

theorem submit_merges_pages_lease :
    ∃ (r : SubmitResult) (x' : World × Table), leaseOutcome r x' = true ∧
      isSubmitted "b" (leaseWorld none) = false ∧ ∃ bucketName pages doc fileName key now,
        (∃ pre, parseS3Uri (leaseEnv.documentaiPreprocessingLocation.getD "") = .ok (bucketName, pre)) ∧
        ArePages bucketName (leaseWorld none).2 "b" pages ∧ pages ≠ [] ∧
        (∀ p ∈ pages, ∀ q ∈ pages, ∀ c d, p.category = some c → q.category = some d → c = d) ∧
        Accepted leaseEnv blankLibrary ⟨"t", "k"⟩ "b" r (leaseWorld none) x' pages doc fileName key ∧
        Stamped "b" now (leaseWorld none).2 x'.2 := by
  obtain ⟨r, tr, x', houtcome, hends⟩ := ends_leaseRun leaseRun_none
  have hstatus : r.jobStatus = .notStarted :=
    eq_of_beq (Bool.and_eq_true_iff.1 (Bool.and_eq_true_iff.1 houtcome).1).1
  exact ⟨r, x', houtcome, submit_merges_pages hends (by rw [hstatus]; decide)⟩

example : (leaseRun (some "paystub") [{}, {}]).map (fun run => run.2.1.result.bind fun r =>
    match r with | .ok _ => none | .error e => some e.str) =
    some (some "Mixed categories in build: lease, paystub. All pages must use the same category.") := by
  decide +kernel

end DocumentAi.Builds
