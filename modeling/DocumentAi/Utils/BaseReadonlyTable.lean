import DocumentAi.Utils.Pagination

/-!
# Reading a table page by page (`utils/base_readonly_table.py`)

| here | there |
| --- | --- |
| `ReadOnlyTable.query` | `query` (`:67-122`) |
| `collectPages`        | its `while` loop (`:104-117`), on fuel |
| `listPage`            | the cursor lines of a list endpoint (`routers/admin_documents.py:180,196-204`) |
| `followCursors`       | a client that repeats the request with `next_cursor`, on fuel |
| `Partition`           | the items that a key condition selects, in key order |
| `AnswersPages`        | **DynamoDB boundary**: pages of the partition, a resume key names the last item examined |

Main theorem `pages_deliver_once`: the pages that a client gets are the matching items in order.
-/

namespace DocumentAi

variable {C Item : Type}

structure QueryArgs (C Item : Type) where
  keyConditionExpression : C
  scanIndexForward       : Bool
  filterExpression       : Option (Item → Bool)
  indexName              : Option String
  limit                  : Option Nat
  exclusiveStartKey      : Option Json

structure QueryPage (Item : Type) where
  items            : List Item
  lastEvaluatedKey : Option Json

/-- A table that is read. `service` answers the `n`-th request. -/
structure ReadOnlyTable (C Item : Type) where
  tableName : Option String
  service   : Nat → QueryArgs C Item → Except Exc (QueryPage Item)

/-- `if key:`. -/
def truthyKey (key : Option Json) : Option Json := key.filter Json.truthy

def collectPages (service : Nat → QueryArgs C Item → Except Exc (QueryPage Item))
    (kwargs : QueryArgs C Item) (limit : Nat) : (fuel : Nat) → (call : Nat) → List Item →
    Option Json → Option (Except Exc (List Item × Option Json × Nat))
  | 0, _, _, _                          => none
  | n + 1, call, collected, lastKey =>
    if collected.length < limit then
      match service call
          { kwargs with limit := some limit, exclusiveStartKey := truthyKey lastKey } with
      | .error e => some (.error e)
      | .ok resp =>
        match truthyKey resp.lastEvaluatedKey with
        | none   => some (.ok (collected ++ resp.items, resp.lastEvaluatedKey, call + 1))
        | some _ =>
          collectPages service kwargs limit n (call + 1) (collected ++ resp.items)
            resp.lastEvaluatedKey
    else some (.ok (collected, lastKey, call))

/-- What is asked of a query. -/
structure QuerySpec (C Item : Type) where
  keyCondition     : C
  filterExpression : Option (Item → Bool) := none
  indexName        : Option String := none
  limit            : Option Nat := none
  scanForward      : Bool := true

def QuerySpec.kwargs (spec : QuerySpec C Item) (startKey : Option Json) : QueryArgs C Item where
  keyConditionExpression := spec.keyCondition
  scanIndexForward       := spec.scanForward
  filterExpression       := spec.filterExpression
  indexName              := spec.indexName.filter (· ≠ "")
  limit                  := spec.limit.filter (0 < ·)
  exclusiveStartKey      := truthyKey startKey

/-- The items, the last evaluated key, and the number of the next request. -/
def ReadOnlyTable.query (t : ReadOnlyTable C Item) (spec : QuerySpec C Item) (fuel call : Nat)
    (startKey : Option Json) : Option (Except Exc (List Item × Option Json × Nat)) :=
  match t.tableName.filter (· ≠ "") with
  | none   => some (.error (.httpException 503 "Storage not configured"))
  | some _ =>
    match spec.filterExpression, spec.limit.filter (0 < ·) with
    | some _, some limit =>
      collectPages t.service (spec.kwargs startKey) limit fuel call [] startKey
    | _, _ =>
      match t.service call (spec.kwargs startKey) with
      | .error e     => some (.error e)
      | .ok response => some (.ok (response.items, response.lastEvaluatedKey, call + 1))

/-- `decode_cursor(cursor) if cursor else None`. -/
def startKeyOf : Option (List Char) → Except Exc (Option Json)
  | none | some [] => .ok none
  | some cursor    => (decodeCursor cursor).map some

def listPage (t : ReadOnlyTable C Item) (spec : QuerySpec C Item) (fuel call : Nat)
    (cursor : Option (List Char)) : Option (Except Exc (List Item × Option (List Char) × Nat)) :=
  match startKeyOf cursor with
  | .error e     => some (.error e)
  | .ok startKey =>
    (t.query spec fuel call startKey).map fun r =>
      r.map fun p => (p.1, (truthyKey p.2.1).map encodeCursor, p.2.2)

/-- The items of all the pages, from the cursor on. -/
def followCursors
    (page : Nat → Option (List Char) → Option (Except Exc (List Item × Option (List Char) × Nat))) :
    (fuel : Nat) → (call : Nat) → Option (List Char) → Option (Except Exc (List Item))
  | 0, _, _              => none
  | n + 1, call, cursor =>
    match page call cursor with
    | none                              => none
    | some (.error e)                   => some (.error e)
    | some (.ok (items, none, _))       => some (.ok items)
    | some (.ok (items, some next, c)) =>
      (followCursors page n c (some next)).map fun r => r.map (items ++ ·)

/-! ## What the store answers -/

structure Partition (Item : Type) where
  items : List Item
  key   : Item → ResumeKey
  nodup : (items.map fun it => (key it).toJson).Nodup

def Partition.order (P : Partition Item) (scanForward : Bool) : List Item :=
  if scanForward then P.items else P.items.reverse

/-- The resume key after the items that have been examined. -/
def Partition.resume (P : Partition Item) (examined : List Item) : Option Json :=
  examined.getLast?.map fun it => (P.key it).toJson

def matchesFilter (filterExpression : Option (Item → Bool)) (it : Item) : Bool :=
  match filterExpression with
  | none   => true
  | some f => f it

/-- One page: the items examined, those left, and the resume key. -/
structure IsPage (P : Partition Item) (limit : Option Nat) (rest examined left : List Item)
    (lastKey : Option Json) : Prop where
  split    : rest = examined ++ left
  within   : ∀ l, limit = some l → examined.length ≤ l
  progress : examined = [] → rest = []
  last     : lastKey = none → left = []
  resumes  : ∀ j, lastKey = some j → P.resume examined = some j

/-- **DynamoDB boundary.** The limit counts the items examined, before the filter. -/
def AnswersPages (t : ReadOnlyTable C Item) (P : Partition Item) (spec : QuerySpec C Item) : Prop :=
  ∀ (call : Nat) (limit : Option Nat) (startKey : Option Json) (before rest : List Item),
    limit ≠ some 0 → before ++ rest = P.order spec.scanForward → startKey = P.resume before →
    ∃ examined left lastKey, IsPage P limit rest examined left lastKey ∧
      t.service call { spec.kwargs startKey with limit } =
        .ok ⟨examined.filter (matchesFilter spec.filterExpression), lastKey⟩

/-! ## The loop over pages -/

theorem truthyKey_toJson (k : ResumeKey) : truthyKey (some k.toJson) = some k.toJson := by
  cases hk : k.attributes with
  | nil => exact absurd hk k.nonempty
  | cons a rest =>
    rw [ResumeKey.toJson, hk]
    rfl

theorem truthyKey_resume (P : Partition Item) (examined : List Item) :
    truthyKey (P.resume examined) = P.resume examined := by
  unfold Partition.resume
  cases examined.getLast? with
  | none => rfl
  | some it => exact truthyKey_toJson _

section
variable {t : ReadOnlyTable C Item} {P : Partition Item} {spec : QuerySpec C Item}

/-- What `query` returns when it starts after `before`. -/
structure Delivers (P : Partition Item) (spec : QuerySpec C Item) (before rest examined left : List Item)
    (lastKey : Option Json) : Prop where
  split   : rest = examined ++ left
  last    : lastKey = none → left = []
  resumes : ∀ j, lastKey = some j → P.resume (before ++ examined) = some j

theorem resume_append {before examined : List Item} {j : Json} (h : P.resume examined = some j) :
    P.resume (before ++ examined) = some j := by
  unfold Partition.resume at h ⊢
  cases hlast : examined.getLast? with
  | none =>
    rw [hlast] at h
    cases h
  | some it =>
    rw [List.getLast?_append, hlast]
    rw [hlast] at h
    exact h

theorem truthyKey_eq {before examined : List Item} {lastKey : Option Json}
    (h : ∀ j, lastKey = some j → P.resume (before ++ examined) = some j) :
    truthyKey lastKey = lastKey := by
  cases lastKey with
  | none => rfl
  | some j =>
    rw [← h j rfl]
    exact truthyKey_resume P _

/-- The loop, by induction on the fuel: from the items after `before` it returns what passes the
filter in the part it has examined. Before the first page the limit is not reached. -/
theorem collectPages_eq (h : AnswersPages t P spec) {limit : Nat} (hl : 0 < limit) (fuel : Nat) :
    ∀ (before rest collected : List Item) (lastKey : Option Json) (call : Nat) (startKey : Option Json),
      before ++ rest = P.order spec.scanForward → lastKey = P.resume before →
      (lastKey = none → collected.length < limit) → rest.length + 2 ≤ fuel →
      ∃ examined left lastKey' call', Delivers P spec before rest examined left lastKey' ∧
        (collected.length < limit → lastKey' ≠ none → examined ≠ []) ∧
        collectPages t.service (spec.kwargs startKey) limit fuel call collected lastKey =
          some (.ok (collected ++ examined.filter (matchesFilter spec.filterExpression), lastKey', call')) := by
  induction fuel with
  | zero => intro before rest collected lastKey call startKey _ _ _ hfuel; omega
  | succ n ih =>
    intro before rest collected lastKey call startKey horder hlast hfirst hfuel
    by_cases hlt : collected.length < limit
    · have hkey : truthyKey lastKey = P.resume before := by rw [hlast, truthyKey_resume]
      obtain ⟨examined, left, lastKey', hpage, hresp⟩ :=
        h call (some limit) (P.resume before) before rest (by simpa using hl.ne') horder rfl
      have hargs : ({ spec.kwargs startKey with
            limit := some limit, exclusiveStartKey := truthyKey lastKey } : QueryArgs C Item) =
          { spec.kwargs (P.resume before) with limit := some limit } := by
        rw [hkey]
        simp only [QuerySpec.kwargs, truthyKey_resume]
      have hresumes : ∀ j, lastKey' = some j → P.resume (before ++ examined) = some j :=
        fun j hj => resume_append (hpage.resumes j hj)
      have htruthy : truthyKey lastKey' = lastKey' := truthyKey_eq hresumes
      rw [collectPages, if_pos hlt, hargs, hresp]
      simp only [htruthy]
      cases hk : lastKey' with
      | none =>
        refine ⟨examined, left, none, call + 1, ⟨hpage.split, fun _ => hpage.last hk, ?_⟩, ?_, rfl⟩
        · exact fun j hj => by cases hj
        · exact fun _ hne => absurd rfl hne
      | some j =>
        have hne : examined ≠ [] := by
          intro hnil
          have hj := hpage.resumes j hk
          rw [hnil] at hj
          cases hj
        have hshort : left.length + 2 ≤ n := by
          have hpos : 0 < examined.length := List.length_pos_iff.2 hne
          have hsum : rest.length = examined.length + left.length := by
            rw [hpage.split, List.length_append]
          omega
        obtain ⟨more, left', lastKey'', call', hmore, -, heq⟩ :=
          ih (before ++ examined) left
            (collected ++ examined.filter (matchesFilter spec.filterExpression)) (some j) (call + 1) startKey
            (by rw [List.append_assoc, ← hpage.split, horder]) (hresumes j hk).symm
            (fun hnone => by cases hnone) hshort
        refine ⟨examined ++ more, left', lastKey'', call', ⟨?_, hmore.last, ?_⟩, ?_, ?_⟩
        · rw [hpage.split, hmore.split, List.append_assoc]
        · rw [← List.append_assoc]
          exact hmore.resumes
        · exact fun _ _ hnil => hne (List.append_eq_nil_iff.1 hnil).1
        · rw [heq, List.filter_append, List.append_assoc]
    · cases hk : lastKey with
      | none => exact absurd (hfirst hk) hlt
      | some j =>
        refine ⟨[], rest, some j, call, ⟨rfl, fun hnone => (by cases hnone), ?_⟩,
          fun hlt' => absurd hlt' hlt, ?_⟩
        · intro j' hj'
          rw [List.append_nil, ← hlast, hk, hj']
        · rw [collectPages, if_neg hlt, List.filter_nil, List.append_nil]

/-- One request of the client, filtered or not. -/
theorem query_eq (h : AnswersPages t P spec) (hname : t.tableName.filter (· ≠ "") ≠ none)
    {limit : Nat} (hl : 0 < limit) (hlimit : spec.limit = some limit) {before rest : List Item}
    (horder : before ++ rest = P.order spec.scanForward) {fuel : Nat} (hfuel : rest.length + 2 ≤ fuel)
    (call : Nat) :
    ∃ examined left lastKey call', Delivers P spec before rest examined left lastKey ∧
      (lastKey ≠ none → examined ≠ []) ∧
      t.query spec fuel call (P.resume before) =
        some (.ok (examined.filter (matchesFilter spec.filterExpression), lastKey, call')) := by
  obtain ⟨name, hn⟩ := Option.ne_none_iff_exists'.1 hname
  have hlim : spec.limit.filter (0 < ·) = some limit := by simp [hlimit, hl]
  rw [ReadOnlyTable.query, hn, hlim]
  cases hf : spec.filterExpression with
  | some f =>
    obtain ⟨examined, left, lastKey, call', hdel, hne, heq⟩ :=
      collectPages_eq h hl fuel before rest [] _ call (P.resume before) horder rfl (fun _ => hl) hfuel
    rw [List.nil_append, hf] at heq
    exact ⟨examined, left, lastKey, call', hdel, hne hl, heq⟩
  | none =>
    obtain ⟨examined, left, lastKey, hpage, hresp⟩ :=
      h call (some limit) (P.resume before) before rest (by simpa using hl.ne') horder rfl
    have hargs : ({ spec.kwargs (P.resume before) with limit := some limit } : QueryArgs C Item) =
        spec.kwargs (P.resume before) := by
      simp only [QuerySpec.kwargs, hlim]
    rw [hargs] at hresp
    refine ⟨examined, left, lastKey, call + 1,
      ⟨hpage.split, hpage.last, fun j hj => resume_append (hpage.resumes j hj)⟩, ?_, ?_⟩
    · intro hsome hnil
      obtain ⟨j, hj⟩ := Option.ne_none_iff_exists'.1 hsome
      have hres := hpage.resumes j hj
      rw [hnil] at hres
      cases hres
    · simp only [hresp, hf]

/-- A cursor that was issued is decoded to its resume key. -/
theorem startKeyOf_resume (P : Partition Item) (before : List Item) :
    startKeyOf ((P.resume before).map encodeCursor) = .ok (P.resume before) := by
  unfold Partition.resume
  cases before.getLast? with
  | none => rfl
  | some it =>
    have hdecode := (P.key it).decode_encode
    cases hc : encodeCursor (P.key it).toJson with
    | nil => exact absurd hc (encodeCursor_ne_nil _)
    | cons c cs =>
      rw [hc] at hdecode
      simp only [Option.map_some, hc, startKeyOf, hdecode]
      rfl

/-- The run of requests, by induction on the fuel: after `before` come the matching items of
`rest`. -/
theorem followCursors_eq (h : AnswersPages t P spec) (hname : t.tableName.filter (· ≠ "") ≠ none)
    {limit : Nat} (hl : 0 < limit) (hlimit : spec.limit = some limit) (inner fuel : Nat) :
    ∀ (before rest : List Item) (call : Nat), before ++ rest = P.order spec.scanForward →
      rest.length + 2 ≤ inner → rest.length + 1 ≤ fuel →
      followCursors (listPage t spec inner) fuel call ((P.resume before).map encodeCursor) =
        some (.ok (rest.filter (matchesFilter spec.filterExpression))) := by
  induction fuel with
  | zero => intro before rest call _ _ hfuel; omega
  | succ n ih =>
    intro before rest call horder hinner hfuel
    obtain ⟨examined, left, lastKey, call', hdel, hne, hquery⟩ :=
      query_eq h hname hl hlimit horder hinner call
    have hpage : listPage t spec inner call ((P.resume before).map encodeCursor) =
        some (.ok (examined.filter (matchesFilter spec.filterExpression), lastKey.map encodeCursor, call')) := by
      rw [listPage, startKeyOf_resume]
      simp only [hquery, Option.map_some, Except.map, truthyKey_eq hdel.resumes]
    rw [followCursors, hpage]
    cases hk : lastKey with
    | none =>
      have hleft : left = [] := hdel.last hk
      rw [hdel.split, hleft, List.append_nil]
      rfl
    | some j =>
      have hpos : 0 < examined.length :=
        List.length_pos_iff.2 (hne (by rw [hk]; exact Option.some_ne_none j))
      have hsum : rest.length = examined.length + left.length := by
        rw [hdel.split, List.length_append]
      have hnext : some (encodeCursor j) = (P.resume (before ++ examined)).map encodeCursor := by
        rw [hdel.resumes j hk]
        rfl
      have hrest := ih (before ++ examined) left call'
        (by rw [List.append_assoc, ← hdel.split, horder]) (by omega) (by omega)
      rw [Option.map_some, hnext]
      cases hc : (P.resume (before ++ examined)).map encodeCursor with
      | none =>
        rw [hc] at hnext
        cases hnext
      | some next =>
        rw [hc] at hrest
        simp only [hrest, Option.map_some, Except.map]
        rw [hdel.split, List.filter_append]

/-- **Cursor pagination returns each matching item once.** With fuel for one request more than there
are items, and for as many pages in each, the client has all the matching items in order; and a
cursor is decoded to the resume key it was made of. -/
theorem pages_deliver_once (h : AnswersPages t P spec)
    (hname : t.tableName.filter (· ≠ "") ≠ none) {limit : Nat} (hl : 0 < limit)
    (hlimit : spec.limit = some limit) (call : Nat) {fuel : Nat} (hfuel : P.items.length + 2 ≤ fuel) :
    followCursors (listPage t spec fuel) fuel call none =
        some (.ok ((P.order spec.scanForward).filter (matchesFilter spec.filterExpression))) ∧
      ∀ k : ResumeKey, decodeCursor (encodeCursor k.toJson) = .ok k.toJson := by
  have hlen : (P.order spec.scanForward).length = P.items.length := by
    unfold Partition.order
    split
    · rfl
    · exact List.length_reverse
  constructor
  · exact followCursors_eq h hname hl hlimit fuel fuel [] _ call rfl (by omega) (by omega)
  · exact ResumeKey.decode_encode

end

/-! ## A store that answers so -/

/-- The items after a resume key. -/
def Partition.restAfter (P : Partition Item) (scanForward : Bool) : Option Json → List Item
  | none   => P.order scanForward
  | some j =>
    ((P.order scanForward).dropWhile fun it => (P.key it).toJson.dump ≠ j.dump).drop 1

/-- How many items the `n`-th request examines, at most `cut n + 1`. -/
def pageSize (cut : Nat → Nat) (call : Nat) (limit : Option Nat) (rest : List Item) : Nat :=
  min (cut call + 1) (limit.getD rest.length)

def Partition.lastKey (P : Partition Item) (examined rest : List Item) : Option Json :=
  if examined.length = rest.length then none else P.resume examined

/-- The pages of a partition. -/
def Partition.service (P : Partition Item) (cut : Nat → Nat) (call : Nat) (args : QueryArgs C Item) :
    Except Exc (QueryPage Item) :=
  let rest := P.restAfter args.scanIndexForward args.exclusiveStartKey
  let examined := rest.take (pageSize cut call args.limit rest)
  .ok ⟨examined.filter (matchesFilter args.filterExpression), P.lastKey examined rest⟩

theorem toJson_dump_injective {k k' : ResumeKey} (h : k.toJson.dump = k'.toJson.dump) :
    k.toJson = k'.toJson := by
  have hk := Json.loads_dump k.valid
  rw [h, Json.loads_dump k'.valid] at hk
  exact (Option.some.inj hk).symm

theorem Partition.nodup_order (P : Partition Item) (scanForward : Bool) :
    ((P.order scanForward).map fun it => (P.key it).toJson).Nodup := by
  unfold Partition.order
  split
  · exact P.nodup
  · rw [List.map_reverse]
    exact List.nodup_reverse.2 P.nodup

theorem restAfter_resume {P : Partition Item} {scanForward : Bool} {before rest : List Item}
    (h : before ++ rest = P.order scanForward) :
    P.restAfter scanForward (P.resume before) = rest := by
  rcases List.eq_nil_or_concat' before with rfl | ⟨init, it, rfl⟩
  · exact h.symm
  · have hsome : P.resume (init ++ [it]) = some (P.key it).toJson := by
      rw [Partition.resume, List.getLast?_concat]
      rfl
    have hnodup := P.nodup_order scanForward
    rw [← h, List.append_assoc, List.map_append, List.nodup_append] at hnodup
    have hinit : ∀ x ∈ init, decide ((P.key x).toJson.dump ≠ (P.key it).toJson.dump) = true := by
      refine fun x hx => decide_eq_true fun heq => ?_
      exact hnodup.2.2 _ (List.mem_map_of_mem hx) _ (List.mem_map_of_mem List.mem_cons_self)
        (toJson_dump_injective heq)
    rw [hsome, Partition.restAfter, ← h, List.append_assoc, List.dropWhile_append_of_pos hinit,
      List.singleton_append, List.dropWhile_cons_of_neg (by simp), List.drop_succ_cons,
      List.drop_zero]

theorem pageSize_pos {limit : Option Nat} (hlimit : limit ≠ some 0) (cut : Nat → Nat) (call : Nat)
    {rest : List Item} (hrest : rest ≠ []) : 0 < pageSize cut call limit rest := by
  have hpos : 0 < rest.length := List.length_pos_iff.2 hrest
  unfold pageSize
  cases limit with
  | none =>
    rw [Option.getD_none]
    omega
  | some l =>
    have hl : l ≠ 0 := fun h0 => hlimit (by rw [h0])
    rw [Option.getD_some]
    omega

theorem isPage_take (P : Partition Item) {limit : Option Nat} (hlimit : limit ≠ some 0)
    (cut : Nat → Nat) (call : Nat) (rest : List Item) :
    IsPage P limit rest (rest.take (pageSize cut call limit rest))
      (rest.drop (pageSize cut call limit rest))
      (P.lastKey (rest.take (pageSize cut call limit rest)) rest) where
  split := (List.take_append_drop ..).symm
  within l hl := by
    have hle : pageSize cut call limit rest ≤ l := by
      rw [pageSize, hl, Option.getD_some]
      exact Nat.min_le_right ..
    exact (List.length_take_le ..).trans hle
  progress hnil := by
    by_contra hrest
    have hpos := pageSize_pos hlimit cut call hrest
    rcases List.take_eq_nil_iff.1 hnil with hzero | hnone
    · omega
    · exact hrest hnone
  last hnone := by
    by_contra hleft
    have hrest : rest ≠ [] := fun hnil => hleft (by rw [hnil, List.drop_nil])
    have hlt : pageSize cut call limit rest < rest.length := by
      by_contra hge
      exact hleft (List.drop_eq_nil_of_le (Nat.le_of_not_lt hge))
    have hpos := pageSize_pos hlimit cut call hrest
    have hne : (rest.take (pageSize cut call limit rest)).length ≠ rest.length := by
      rw [List.length_take]
      omega
    rw [Partition.lastKey, if_neg hne, Partition.resume, Option.map_eq_none_iff,
      List.getLast?_eq_none_iff] at hnone
    rcases List.take_eq_nil_iff.1 hnone with hzero | hnil
    · omega
    · exact hrest hnil
  resumes j hj := by
    unfold Partition.lastKey at hj
    split at hj
    · cases hj
    · exact hj

/-- **The boundary is met by a store that cuts its pages in any way.** -/
theorem answersPages_service (P : Partition Item) (cut : Nat → Nat) (name : String)
    (spec : QuerySpec C Item) : AnswersPages ⟨some name, P.service cut⟩ P spec := by
  intro call limit startKey before rest hlimit horder hstart
  have hrest : P.restAfter spec.scanForward (truthyKey startKey) = rest := by
    rw [hstart, truthyKey_resume, restAfter_resume horder]
  refine ⟨_, _, _, isPage_take P hlimit cut call rest, ?_⟩
  change P.service cut call { spec.kwargs startKey with limit } = _
  simp only [Partition.service, QuerySpec.kwargs, hrest]

/-! ## Two documents, one a page -/

/-- The key of a document in the tenant index. -/
def sampleResumeKey (fileName : String) : ResumeKey where
  attributes := [("fileName".toList, fileName.toList), ("tenantId".toList, "acme".toList)]
  nodup := by
    change ["fileName".toList, "tenantId".toList].Nodup
    decide
  nonempty := List.cons_ne_nil _ _

def samplePartition : Partition String where
  items := ["input/a.pdf", "input/b.pdf", "input/c.pdf"]
  key := sampleResumeKey
  nodup := by
    refine List.Nodup.of_map Json.dump ?_
    decide +kernel

def sampleQuery : QuerySpec Unit String where
  keyCondition := ()
  filterExpression := some (· ≠ "input/b.pdf")
  limit := some 1
  scanForward := false

theorem pages_deliver_once_sample :
    followCursors (listPage ⟨some "documents", samplePartition.service fun _ => 0⟩ sampleQuery 5) 5 0
        none = some (.ok ["input/c.pdf", "input/a.pdf"]) ∧
      ∀ k : ResumeKey, decodeCursor (encodeCursor k.toJson) = .ok k.toJson :=
  pages_deliver_once (answersPages_service samplePartition (fun _ => 0) "documents" sampleQuery)
    (by decide) Nat.one_pos rfl 0 (by decide)

end DocumentAi
