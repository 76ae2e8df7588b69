import DocumentAi.Lib.Paging
import DocumentAi.Utils.BaseCrudTable

/-!
# The readers that list items (`services/ddb.py`, `utils/base_readonly_table.py`)

| here | there |
| --- | --- |
| `queryByPk`  | `query_by_pk` (`services/ddb.py:67-75`): one request |
| `scan`       | `scan` (`:78-92`), on fuel |
| `queryByKey` | `query_by_key` (`:95-132`), on fuel |
| `listByPk`, `listAll` | `list_by_pk`, `list_all` (`utils/base_readonly_table.py:55-65`) |
| `Store`      | **DynamoDB boundary**: a table with its indexes, and the page sizes of each request |
-/

namespace DocumentAi.StoreLists

open BaseCrudTable (Item AttrValue CrudTable)
open Paging (Page cut answer drain FitsFirst drain_cut answer_cut_eq_iff)

/-! ## Requests and answers -/

/-- `KeyConditionExpression`: the named attributes have these values. -/
abbrev KeyCondition : Type := List (String × String)

inductive Request where
  | scan
  | query (indexName : Option String) (keyCondition : KeyCondition)
deriving DecidableEq

/-- The list that a request reads: the table, or an index. -/
def Request.source : Request → Option String
  | scan              => none
  | query indexName _ => indexName

/-- The value of a key attribute, of type `S` or `N`. -/
inductive KeyValue where
  | s (x : String)
  | n (x : Int)
deriving DecidableEq

/-- A resume key holds the partition key at least, so it is true as a condition of Python. -/
structure LastKey where
  attributes : List (String × KeyValue)
  nonempty   : attributes ≠ []
deriving DecidableEq

abbrev Service : Type := Request → Option LastKey → Except Exc (Page Item LastKey)

def hasValue (it : Item) (c : String × String) : Bool :=
  match it c.1 with
  | some (.string v) => v == c.2
  | _                => false

/-! ## Readers -/

def queryByPk (service : Service) (pkName pkValue : String) : Except Exc (List Item) :=
  (service (.query none [(pkName, pkValue)]) none).map (·.items)

def scan (service : Service) (fuel : Nat) : Option (Except Exc (List Item)) :=
  drain (service .scan) fuel [] none

/-- The condition on the sort key, when its name and its value are given. -/
def sortCondition (skName skValue : Option String) : KeyCondition :=
  match skName.filter (· ≠ ""), skValue.filter (· ≠ "") with
  | some name, some value => [(name, value)]
  | _, _                  => []

def queryByKey (service : Service) (indexName pkName pkValue : String)
    (skName skValue : Option String) (fuel : Nat) : Option (Except Exc (List Item)) :=
  drain (service (.query (some indexName) ((pkName, pkValue) :: sortCondition skName skValue)))
    fuel [] none

/-- A subclass of `ReadOnlyTable`. -/
structure TableClass extends CrudTable where
  name : String

def listByPk (T : TableClass) (service : Service) (pkValue : String) : Except Exc (List Item) :=
  if T.hasSortKey then
    match T.tableName.filter (· ≠ "") with
    | none   => .error BaseCrudTable.notConfigured
    | some _ => queryByPk service T.pkField pkValue
  else
    .error (.exception
      (T.name ++ ".list_by_pk requires sk_field; use list_all() or query() instead"))

def listAll (T : TableClass) (service : Service) (fuel : Nat) : Option (Except Exc (List Item)) :=
  match T.tableName.filter (· ≠ "") with
  | none   => some (.error BaseCrudTable.notConfigured)
  | some _ => scan service fuel

/-! ## The store -/

/-- What the store holds, in its order, and where it ends the pages of each request. -/
structure Store where
  listing : Option String → List Item
  key     : Option String → Item → LastKey
  nodup   : ∀ source, ((listing source).map (key source)).Nodup
  sizes   : Request → List Nat

namespace Store

/-- The items that match a request, in store order. -/
def matching (S : Store) : Request → List Item
  | .scan                         => S.listing none
  | .query indexName keyCondition =>
    (S.listing indexName).filter fun it => keyCondition.all (hasValue it)

def service (S : Store) : Service := fun r startKey =>
  .ok (answer (S.key r.source) (cut (S.sizes r) (S.matching r)) startKey)

/-- The matching items fit in the first page of the answer. -/
def FitsFirstPage (S : Store) (r : Request) : Prop := FitsFirst (S.sizes r) (S.matching r)

theorem nodup_matching (S : Store) (r : Request) :
    ((S.matching r).map (S.key r.source)).Nodup := by
  cases r with
  | scan => exact S.nodup none
  | query indexName keyCondition =>
    exact (S.nodup indexName).sublist (List.filter_sublist.map _)

theorem drain_service (S : Store) (r : Request) {fuel : Nat} (h : (S.matching r).length < fuel) :
    drain (S.service r) fuel [] none = some (.ok (S.matching r)) :=
  drain_cut (S.nodup_matching r) (S.sizes r) h

theorem queryByPk_service (S : Store) (pkName pkValue : String) :
    queryByPk S.service pkName pkValue = .ok (S.matching (.query none [(pkName, pkValue)])) ↔
      S.FitsFirstPage (.query none [(pkName, pkValue)]) := by
  rw [FitsFirstPage, ← answer_cut_eq_iff (S.key none), queryByPk, service, Except.map]
  exact ⟨fun h => Except.ok.inj h, fun h => congrArg _ h⟩

end Store

/-! ## Listing a partition and listing the table -/

/-- Every item that matches, each once, is what the reader returns. -/
def Returns (S : Store) (r : Request) (read : Nat → Option (Except Exc (List Item))) : Prop :=
  ((S.matching r).map (S.key r.source)).Nodup ∧
    ∃ fuel₀, ∀ fuel, fuel₀ ≤ fuel → read fuel = some (.ok (S.matching r))

theorem returns_drain (S : Store) (r : Request) : Returns S r fun fuel => drain (S.service r) fuel [] none :=
  ⟨S.nodup_matching r, _, fun _ h => S.drain_service r (Nat.lt_of_succ_le h)⟩

/-- The table is configured and `list_by_pk` may be called on it. -/
structure TableClass.Lists (T : TableClass) (pkName : String) : Prop where
  pkField    : T.pkField = pkName
  configured : (T.tableName.filter (· ≠ "")).isSome = true
  sortKey    : T.hasSortKey = true

/-- Every reader drains every page, `query_by_pk` for one value of the partition key. -/
structure DrainsEveryPage (S : Store) (pkName pkValue : String) : Prop where
  queryByPk  : Returns S (.query none [(pkName, pkValue)]) fun _ =>
    some (queryByPk S.service pkName pkValue)
  queryByKey : ∀ indexName pk value skName skValue,
    Returns S (.query (some indexName) ((pk, value) :: sortCondition skName skValue))
      (queryByKey S.service indexName pk value skName skValue)
  scan       : Returns S .scan (scan S.service)
  lists      : ∀ T : TableClass, T.Lists pkName → ∃ fuel₀, ∀ fuel, fuel₀ ≤ fuel →
    ∃ all, listAll T S.service fuel = some (.ok all) ∧
      listByPk T S.service pkValue = .ok (all.filter fun it => hasValue it (pkName, pkValue))

theorem listAll_eq {T : TableClass} {pkName : String} (h : T.Lists pkName) (service : Service) (fuel : Nat) :
    listAll T service fuel = scan service fuel := by
  obtain ⟨name, hname⟩ := Option.isSome_iff_exists.1 h.configured
  rw [listAll, hname]

theorem listByPk_eq {T : TableClass} {pkName : String} (h : T.Lists pkName) (service : Service)
    (pkValue : String) : listByPk T service pkValue = queryByPk service pkName pkValue := by
  obtain ⟨name, hname⟩ := Option.isSome_iff_exists.1 h.configured
  rw [listByPk, if_pos h.sortKey, hname, ← h.pkField]

theorem matching_partition (S : Store) (pkName pkValue : String) :
    S.matching (.query none [(pkName, pkValue)]) =
      (S.matching .scan).filter fun it => hasValue it (pkName, pkValue) := by
  simp [Store.matching]

/-- **The readers drain every page exactly when the items of the partition fit in the first page
that answers `query_by_pk`.** -/
theorem drainsEveryPage_iff (S : Store) (pkName pkValue : String) :
    DrainsEveryPage S pkName pkValue ↔ S.FitsFirstPage (.query none [(pkName, pkValue)]) := by
  rw [← S.queryByPk_service]
  constructor
  · intro h
    obtain ⟨-, fuel₀, hread⟩ := h.queryByPk
    exact Option.some.inj (hread fuel₀ (Nat.le_refl _))
  · intro h
    refine ⟨⟨S.nodup_matching _, 0, fun _ _ => congrArg some h⟩, fun _ _ _ _ _ => returns_drain S _,
      returns_drain S _, fun T hT => ?_⟩
    obtain ⟨-, fuel₀, hread⟩ := returns_drain S .scan
    refine ⟨fuel₀, fun fuel hfuel => ⟨S.matching .scan, ?_, ?_⟩⟩
    · rw [listAll_eq hT]
      exact hread fuel hfuel
    · rw [listByPk_eq hT, h, matching_partition]

/-! ## A partition of two pages -/

def category (name : String) : Item := fun a =>
  if a = "tenantId" then some (.string "acme")
  else if a = "categoryName" then some (.string name)
  else none

/-- The pages end after each item. -/
def categoryTable : Store where
  listing source := if source = none then [category "invoice", category "receipt"] else []
  key _ it :=
    ⟨[("tenantId", .s "acme"), ("categoryName", .s (match it "categoryName" with
      | some (.string v) => v
      | _                => ""))], List.cons_ne_nil _ _⟩
  nodup source := by
    cases source with
    | none => decide
    | some _ => exact List.nodup_nil
  sizes _ := [0]

theorem not_drainsEveryPage : ¬ ∀ (S : Store) (pkName pkValue : String),
    DrainsEveryPage S pkName pkValue := by
  intro hall
  obtain ⟨-, fuel₀, hread⟩ := (hall categoryTable "tenantId" "acme").queryByPk
  have hone : (queryByPk categoryTable.service "tenantId" "acme").toOption.map List.length = some 1 := by
    decide
  rw [Option.some.inj (hread fuel₀ (Nat.le_refl _))] at hone
  revert hone
  decide

end DocumentAi.StoreLists
