import Mathlib.Algebra.BigOperators.Ring.Finset
import Mathlib.Data.Nat.Digits.Lemmas
import DocumentAi.Metrics.Usage

/-!
# Usage counts each record once

Every total is the sum of the shares of some records: field by field, the SQL rows and the
aggregator's stats are compared with the sums over the records behind them. The month's total is the
one over the archived and the live part, the days' total the one over the archived part and today.

| here | meaning |
| --- | --- |
| `UsageField`  | one column of `UsageStats` |
| `shareOf f r` | what the record adds to the column |
| `shares f rs` | what the records add to the column |
-/

namespace DocumentAi.Metrics

inductive UsageField where
  | records | bdaInvocations | fileSizeBytes | bdaPages | inputTokens | outputTokens

def UsageTotals.field (t : UsageTotals) : UsageField → Int
  | .records        => t.totalRecords
  | .bdaInvocations => t.totalBdaInvocations
  | .fileSizeBytes  => t.totalFileSizeBytes
  | .bdaPages       => t.totalBdaPages
  | .inputTokens    => t.totalBedrockInputTokens
  | .outputTokens   => t.totalBedrockOutputTokens

def shareOf : UsageField → RawRecord → Int
  | .records, _        => 1
  | .bdaInvocations, r => if r.bdaInvocationArn.isSome then 1 else 0
  | .fileSizeBytes, r  => (r.fileSizeBytes.getD 0 : Nat)
  | .bdaPages, r       => (r.pagesSentToBda.getD 0 : Nat)
  | .inputTokens, r    =>
    (r.preclassificationInputTokens.getD 0 : Nat) + (r.cropInputTokens.getD 0 : Nat)
  | .outputTokens, r   =>
    (r.preclassificationOutputTokens.getD 0 : Nat) + (r.cropOutputTokens.getD 0 : Nat)

def shares (f : UsageField) (rs : List RawRecord) : Int := (rs.map (shareOf f)).sum

theorem UsageTotals.ext_field {t u : UsageTotals} (h : ∀ f, t.field f = u.field f) : t = u := by
  obtain ⟨a, b, c, d, e, g⟩ := t
  obtain ⟨a', b', c', d', e', g'⟩ := u
  obtain rfl : a = a' := h .records
  obtain rfl : b = b' := h .bdaInvocations
  obtain rfl : c = c' := h .fileSizeBytes
  obtain rfl : d = d' := h .bdaPages
  obtain rfl : e = e' := h .inputTokens
  obtain rfl : g = g' := h .outputTokens
  rfl

@[simp] theorem UsageTotals.field_add (t u : UsageTotals) (f : UsageField) :
    (t.add u).field f = t.field f + u.field f := by
  cases f <;> rfl

@[simp] theorem UsageTotals.field_zero (f : UsageField) : ({} : UsageTotals).field f = 0 := by
  cases f <;> rfl

theorem UsageTotals.field_sum (ts : List UsageTotals) (f : UsageField) :
    (UsageTotals.sum ts).field f = (ts.map (·.field f)).sum := by
  have hfold : ∀ t : UsageTotals,
      (ts.foldl UsageTotals.add t).field f = t.field f + (ts.map (·.field f)).sum := by
    induction ts with
    | nil => intro t; exact (add_zero _).symm
    | cons u ts ih => intro t; rw [List.foldl_cons, ih, field_add, List.map_cons, List.sum_cons, add_assoc]
  rw [UsageTotals.sum, hfold, field_zero, zero_add]

theorem field_totalsOver {κ : Type} (d : List (κ × UsageTotals)) (f : UsageField) :
    (totalsOver d).field f = (d.map fun e => e.2.field f).sum := by
  rw [totalsOver, UsageTotals.field_sum, List.map_map]
  rfl

theorem shares_append (f : UsageField) (rs rs' : List RawRecord) :
    shares f (rs ++ rs') = shares f rs + shares f rs' := by
  unfold shares
  rw [List.map_append, List.sum_append]

theorem shares_perm {rs rs' : List RawRecord} (h : rs.Perm rs') (f : UsageField) :
    shares f rs = shares f rs' := (h.map _).sum_eq

/-! ## The aggregator's share of a record -/

/-- The aggregator's name for the field. -/
def UsageField.inStats : UsageField → Measure
  | records        => .records
  | bdaInvocations => .bdaInvocations
  | fileSizeBytes  => .fileSizeBytes
  | bdaPages       => .bdaPages
  | inputTokens    => .bedrockInputTokens
  | outputTokens   => .bedrockOutputTokens

theorem cast_fromAggregator (s : Stats) (f : UsageField) :
    (((UsageTotals.fromAggregator s).field f : Int) : Rat) = s.measure f.inStats := by
  cases f with
  | records => exact Int.cast_natCast _
  | bdaInvocations => exact Int.cast_natCast _
  | _ => rfl

section
variable {num : Numbers}

theorem columnInt_columnText (hint : ∀ n : Nat, num.int (toString n) = some (n : Int)) (v : Option Nat) :
    columnInt num (some (columnText v)) = (v.getD 0 : Nat) := by
  cases v with
  | none => rfl
  | some n =>
    have hne : toString n ≠ "" := Nat.repr_ne_empty
    have hread : truthy (some (toString n)) = some (toString n) :=
      (Option.filter_some_pos (decide_eq_true hne))
    rw [columnInt, columnText, hread, Option.bind_some, hint]
    rfl

theorem hasBdaInvocation_toRow (r : RawRecord) : hasBdaInvocation r.toRow = r.bdaInvocationArn.isSome := by
  obtain ⟨name, updated, date, tenant, arn, size, pages, input, crop, output, cropOut, others⟩ := r
  cases arn with
  | none => rfl
  | some arn =>
    have hread : truthy (some arn.1) = some arn.1 := Option.filter_some_pos (decide_eq_true arn.2)
    exact congrArg Option.isSome hread

theorem tenantKey_toRow (r : RawRecord) : tenantKey r.toRow = tenantLabel r := by
  obtain ⟨name, updated, date, tenant, arn, size, pages, input, crop, output, cropOut, others⟩ := r
  cases tenant with
  | none => rfl
  | some t =>
    have hne : t.1 ≠ "" := by
      intro hempty
      exact absurd (hempty ▸ t.2) (by decide)
    have hread : truthy (some t.1) = some t.1 := Option.filter_some_pos (decide_eq_true hne)
    exact congrArg (fun o => o.getD "__unknown__") hread

theorem share_toRow (hint : ∀ n : Nat, num.int (toString n) = some (n : Int)) (r : RawRecord) (f : UsageField) :
    f.inStats.share num r.toRow = (shareOf f r : Int) := by
  cases f with
  | records => exact Int.cast_one.symm
  | bdaInvocations =>
    simp only [UsageField.inStats, Measure.share, shareOf, hasBdaInvocation_toRow]
    split
    · exact Int.cast_one.symm
    · exact Int.cast_zero.symm
  | fileSizeBytes => exact congrArg Int.cast (columnInt_columnText hint r.fileSizeBytes)
  | bdaPages => exact congrArg Int.cast (columnInt_columnText hint r.pagesSentToBda)
  | inputTokens =>
    rw [shareOf, Int.cast_add]
    exact congrArg₂ (· + ·) (congrArg Int.cast (columnInt_columnText hint r.preclassificationInputTokens))
      (congrArg Int.cast (columnInt_columnText hint r.cropInputTokens))
  | outputTokens =>
    rw [shareOf, Int.cast_add]
    exact congrArg₂ (· + ·) (congrArg Int.cast (columnInt_columnText hint r.preclassificationOutputTokens))
      (congrArg Int.cast (columnInt_columnText hint r.cropOutputTokens))

/-- The aggregator counts every record's share. -/
theorem field_fromAggregator (hint : ∀ n : Nat, num.int (toString n) = some (n : Int)) (rs : List RawRecord)
    (f : UsageField) :
    (UsageTotals.fromAggregator (statsOf num (rs.map RawRecord.toRow))).field f = shares f rs := by
  have hcast := cast_fromAggregator (statsOf num (rs.map RawRecord.toRow)) f
  rw [measure_statsOf, List.map_map] at hcast
  have hshare : rs.map (f.inStats.share num ∘ RawRecord.toRow) = (rs.map (shareOf f)).map Int.cast := by
    rw [List.map_map]
    exact List.map_congr_left fun r _ => share_toRow hint r f
  rw [hshare, ← Int.cast_list_sum] at hcast
  exact Int.cast_injective hcast

end

/-! ## The report's share of a record -/

theorem sqlSum_eq_none {xs : List (Option Nat)} : sqlSum xs = none ↔ ∀ x ∈ xs, x = none := by
  unfold sqlSum
  split
  next hall => simpa using hall
  next hall => simpa using hall

theorem getD_sqlSum (xs : List (Option Nat)) : (sqlSum xs).getD 0 = (xs.map (·.getD 0)).sum := by
  unfold sqlSum
  split
  next hall =>
    rw [Option.getD_none, eq_comm, List.sum_eq_zero_iff_forall_eq_nat]
    intro n hn
    obtain ⟨x, hx, rfl⟩ := List.mem_map.1 hn
    rw [Option.isNone_iff_eq_none.1 (List.all_eq_true.1 hall x hx)]
    rfl
  next => rfl

section
variable {a b : RawRecord → Option Nat} {g : List RawRecord}

theorem getD_sqlSum_eq_zero : (sqlSum (g.map a)).getD 0 = 0 ↔ ∀ r ∈ g, (a r).getD 0 = 0 := by
  rw [getD_sqlSum, List.sum_eq_zero_iff_forall_eq_nat, List.map_map, List.forall_mem_map]
  rfl

/-- The sum of two token columns is at most that of the two sums, and it is that when no null takes
a count away. -/
theorem getD_sqlAdd (x y : Option Nat) :
    (sqlAdd x y).getD 0 ≤ x.getD 0 + y.getD 0 ∧
      ((sqlAdd x y).getD 0 = x.getD 0 + y.getD 0 ↔
        (x = none ∨ y = none → x.getD 0 = 0 ∧ y.getD 0 = 0)) := by
  cases x with
  | none =>
    cases y with
    | none => simp [sqlAdd]
    | some n => simp [sqlAdd, eq_comm]
  | some m =>
    cases y with
    | none => simp [sqlAdd, eq_comm]
    | some n => simp [sqlAdd]

theorem tokensCounted_iff : TokensCounted a b g ↔
    (sqlSum (g.map a) = none ∨ sqlSum (g.map b) = none →
      (sqlSum (g.map a)).getD 0 = 0 ∧ (sqlSum (g.map b)).getD 0 = 0) := by
  rw [sqlSum_eq_none, sqlSum_eq_none, List.forall_mem_map, List.forall_mem_map, getD_sqlSum_eq_zero,
    getD_sqlSum_eq_zero, ← forall₂_and]
  rfl

theorem sum_cast_getD (a : RawRecord → Option Nat) (g : List RawRecord) :
    (g.map fun r => (((a r).getD 0 : Nat) : Int)).sum = ((sqlSum (g.map a)).getD 0 : Nat) := by
  rw [getD_sqlSum, Nat.cast_list_sum, List.map_map, List.map_map]
  rfl

end

/-- No null takes away what the group counts in the column. -/
def UsageField.Counted : UsageField → List RawRecord → Prop
  | inputTokens, g  => TokensCounted (·.preclassificationInputTokens) (·.cropInputTokens) g
  | outputTokens, g => TokensCounted (·.preclassificationOutputTokens) (·.cropOutputTokens) g
  | _, _            => True

theorem shares_tokens {a b : RawRecord → Option Nat} {f : UsageField} {g : List RawRecord}
    (hf : ∀ r, shareOf f r = ((a r).getD 0 : Nat) + ((b r).getD 0 : Nat)) :
    shares f g = ((sqlSum (g.map a)).getD 0 + (sqlSum (g.map b)).getD 0 : Nat) := by
  rw [shares, funext hf, List.sum_map_add, sum_cast_getD, sum_cast_getD, Nat.cast_add]

/-- A SQL row has at most the group's shares, and exactly these when the group is counted. -/
theorem field_usageRow (f : UsageField) (g : List RawRecord) :
    (usageRow g).field f ≤ shares f g ∧ ((usageRow g).field f = shares f g ↔ f.Counted g) := by
  have hexact : (usageRow g).field f = shares f g → f.Counted g →
      (usageRow g).field f ≤ shares f g ∧ ((usageRow g).field f = shares f g ↔ f.Counted g) :=
    fun heq hc => ⟨heq.le, iff_of_true heq hc⟩
  have htokens : ∀ {a b : RawRecord → Option Nat},
      (∀ r, shareOf f r = ((a r).getD 0 : Nat) + ((b r).getD 0 : Nat)) →
      (usageRow g).field f = ((sqlAdd (sqlSum (g.map a)) (sqlSum (g.map b))).getD 0 : Nat) →
      (usageRow g).field f ≤ shares f g ∧
        ((usageRow g).field f = shares f g ↔ TokensCounted a b g) := by
    intro a b hf hrow
    obtain ⟨hle, heq⟩ := getD_sqlAdd (sqlSum (g.map a)) (sqlSum (g.map b))
    rw [hrow, shares_tokens hf, tokensCounted_iff, ← heq]
    exact ⟨Int.ofNat_le.2 hle, Int.ofNat_inj⟩
  cases f with
  | records =>
    refine hexact ?_ trivial
    have hones : g.map (shareOf .records) = List.replicate g.length 1 := List.map_const'
    rw [shares, hones, List.sum_replicate, nsmul_eq_mul, mul_one]
    rfl
  | bdaInvocations =>
    refine hexact ?_ trivial
    have hsum := Dict.sum_filter (g := fun _ : RawRecord => (1 : Int))
      (fun r : RawRecord => r.bdaInvocationArn.isSome = true) g
    rw [List.map_const', List.sum_replicate, nsmul_eq_mul, mul_one] at hsum
    simp only [Bool.decide_eq_true] at hsum
    exact hsum
  | fileSizeBytes => exact hexact (sum_cast_getD _ g).symm trivial
  | bdaPages => exact hexact (sum_cast_getD _ g).symm trivial
  | inputTokens => exact htokens (fun _ => rfl) rfl
  | outputTokens => exact htokens (fun _ => rfl) rfl

theorem sum_eq_iff_of_le {ι : Type} {F G : ι → Int} {l : List ι} (h : ∀ e ∈ l, F e ≤ G e) :
    (l.map F).sum ≤ (l.map G).sum ∧ ((l.map F).sum = (l.map G).sum ↔ ∀ e ∈ l, F e = G e) := by
  induction l with
  | nil => simp
  | cons e l ih =>
    obtain ⟨he, hl⟩ := List.forall_mem_cons.1 h
    obtain ⟨hle, heq⟩ := ih hl
    rw [List.map_cons, List.map_cons, List.sum_cons, List.sum_cons, List.forall_mem_cons, ← heq]
    exact ⟨Int.add_le_add he hle, by omega⟩

theorem sum_shares (f : UsageField) {κ : Type} (groups : List (κ × List RawRecord)) :
    (groups.map fun e => shares f e.2).sum = shares f (groups.flatMap Prod.snd) := by
  induction groups with
  | nil => rfl
  | cons e groups ih =>
    rw [List.map_cons, List.sum_cons, ih, List.flatMap_cons, shares_append]

theorem perm_usageGroups (rs : List RawRecord) : ((usageGroups rs).flatMap Prod.snd).Perm rs := by
  have hperm : ((usageGroups rs).flatMap Prod.snd).Perm (rs.map fun r => r) := Dict.perm_groupFold rs
  rw [List.map_id'] at hperm
  exact hperm

theorem mem_keys_usageGroups {rs : List RawRecord} {k : Date × String} :
    k ∈ (usageGroups rs).map Prod.fst ↔ ∃ r ∈ rs, (r.date, tenantLabel r) = k :=
  Dict.mem_keys_groupFold

theorem eq_of_mem_usageGroups {rs : List RawRecord} {e : (Date × String) × List RawRecord}
    (he : e ∈ usageGroups rs) : e.2 = rs.filter fun r => (r.date, tenantLabel r) = e.1 := by
  have hfold := Dict.eq_of_mem_groupFold he
  rw [Dict.foldl_concat (f := fun r : RawRecord => r), List.map_id', List.nil_append] at hfold
  exact hfold

/-- The SQL rows of a set of records count every share if and only if every group is counted. -/
theorem sum_usageGroups (f : UsageField) (rs : List RawRecord) :
    ((usageGroups rs).map fun e => (usageRow e.2).field f).sum = shares f rs ↔
      ∀ d t, f.Counted (rs.filter fun r => (r.date, tenantLabel r) = (d, t)) := by
  have hle := sum_eq_iff_of_le (l := usageGroups rs) (F := fun e => (usageRow e.2).field f)
    (G := fun e => shares f e.2) fun e _ => (field_usageRow f e.2).1
  rw [sum_shares, shares_perm (perm_usageGroups rs)] at hle
  rw [hle.2]
  constructor
  · intro h d t
    by_cases hne : rs.filter (fun r => (r.date, tenantLabel r) = (d, t)) = []
    · rw [hne]
      cases f with
      | inputTokens => exact fun _ r hr => absurd hr List.not_mem_nil
      | outputTokens => exact fun _ r hr => absurd hr List.not_mem_nil
      | _ => trivial
    · obtain ⟨r, hr⟩ := List.exists_mem_of_ne_nil _ hne
      obtain ⟨hr, hkey⟩ := List.mem_filter.1 hr
      obtain ⟨e, he, hfst⟩ :=
        List.mem_map.1 (mem_keys_usageGroups.2 ⟨r, hr, of_decide_eq_true hkey⟩)
      have hgroup := eq_of_mem_usageGroups he
      rw [hfst] at hgroup
      rw [← hgroup]
      exact (field_usageRow f e.2).2.1 (h e he)
  · intro h e he
    rw [(field_usageRow f e.2).2, eq_of_mem_usageGroups he]
    exact h e.1.1 e.1.2

/-! ## The two parts -/

theorem insertLatest_of_not_mem {r : RawRecord} {kept : List RawRecord}
    (h : r.fileName ∉ kept.map RawRecord.fileName) : insertLatest r kept = kept ++ [r] := by
  induction kept with
  | nil => rfl
  | cons e kept ih =>
    rw [List.map_cons, List.mem_cons, not_or] at h
    rw [insertLatest, if_neg (Ne.symm h.1), ih h.2, List.cons_append]

/-- With one record for each document there is nothing to drop. -/
theorem deduped_of_nodup {rs : List RawRecord} (h : (rs.map RawRecord.fileName).Nodup) :
    deduped rs = rs := by
  induction rs using List.reverseRecOn with
  | nil => rfl
  | append_singleton rs r ih =>
    rw [List.map_append, List.nodup_append] at h
    obtain ⟨hrs, -, hnew⟩ := h
    have hfold : deduped (rs ++ [r]) = insertLatest r (deduped rs) := List.foldl_append ..
    rw [hfold, ih hrs]
    exact insertLatest_of_not_mem fun hmem => hnew _ hmem _ (List.mem_singleton.2 rfl) rfl

theorem Date.ext_month {d e : Date} (hm : d.inMonth = e.inMonth) (hd : d.day = e.day) : d = e := by
  obtain ⟨m, n, hp, hl⟩ := d
  obtain ⟨m', n', hp', hl'⟩ := e
  obtain rfl : m = m' := hm
  obtain rfl : n = n' := hd
  rfl

theorem Date.day_le_of_le {d e : Date} (hm : d.inMonth = e.inMonth) (h : d.le e) : d.day ≤ e.day := by
  rw [Date.le, hm] at h
  omega

section
variable {today : Date} {month : Month} {r : RawRecord}

theorem inRange_iff : inRange today month r = true ↔
    r.date.inMonth = month ∧ r.date.day ≤ endDay today month := decide_eq_true_iff

/-- The report's range has every earlier day of the month. -/
theorem inRange_of_ne (hm : r.date.inMonth = month) (hle : r.date.le today) (hne : r.date ≠ today) :
    inRange today month r = true := by
  refine inRange_iff.2 ⟨hm, ?_⟩
  unfold endDay
  split
  next hcur =>
    have hsame : r.date.inMonth = today.inMonth := hm.trans hcur.1.symm
    have hday : r.date.day ≠ today.day := fun h => hne (Date.ext_month hsame h)
    have hdle : r.date.day ≤ today.day := Date.day_le_of_le hsame hle
    omega
  next => exact hm ▸ r.date.day_le

/-- The current day is in the range on the first of the month only. -/
theorem inRange_today (hm : r.date.inMonth = month) (hr : r.date = today) :
    inRange today month r = true ↔ today.day = 1 := by
  have hcur : today.inMonth = month := hr ▸ hm
  have hpos : 1 ≤ today.day := today.day_pos
  have hend : today.day ≤ daysInMonth month := hcur ▸ today.day_le
  rw [inRange_iff, endDay, hr]
  split
  next h =>
    constructor
    · intro hin
      omega
    · intro hone
      omega
  next h =>
    have hnot : ¬ 1 < today.day := fun hlt => h ⟨hcur, hlt⟩
    exact iff_of_true ⟨hcur, hend⟩ (by omega)

end

section
variable {s : UsageRead} {r : RawRecord}

theorem nodup_filter (s : UsageRead) (p : RawRecord → Bool) :
    ((s.records.filter p).map RawRecord.fileName).Nodup :=
  s.nodup.sublist (List.filter_sublist.map _)

theorem todayRecords_eq (s : UsageRead) : s.todayRecords = s.records.filter fun r => r.date = s.today :=
  deduped_of_nodup (nodup_filter s _)

theorem archived_eq (s : UsageRead) : s.archived =
    s.records.filter fun r => s.inReport r = true ∧ inRange s.today s.month r = true := by
  have hboth : (s.records.filter s.inReport).filter (inRange s.today s.month) =
      s.records.filter fun r => s.inReport r = true ∧ inRange s.today s.month r = true := by
    rw [List.filter_filter]
    refine List.filter_congr fun r _ => ?_
    rw [Bool.decide_and, Bool.decide_eq_true, Bool.decide_eq_true, Bool.and_comm]
  rw [UsageRead.archived, archivedPart, hboth]
  exact deduped_of_nodup (nodup_filter s _)

theorem live_eq (s : UsageRead) : s.live = s.records.filter fun r =>
    s.month = s.today.inMonth ∧ r.date = s.today ∧ tenantLabel r ∈ s.tenantIds := by
  unfold UsageRead.live
  split
  next hm =>
    rw [todayRecords_eq, List.filter_filter]
    refine List.filter_congr fun r _ => ?_
    rw [← Bool.decide_and]
    exact decide_eq_decide.2 ⟨fun h => ⟨hm, h.2, h.1⟩, fun h => ⟨h.2.2, h.2.1⟩⟩
  next hm =>
    refine (List.filter_eq_nil_iff.2 fun r _ hr => ?_).symm
    exact hm (of_decide_eq_true hr).1

theorem mem_archived : r ∈ s.archived ↔
    r ∈ s.records ∧ s.inReport r = true ∧ inRange s.today s.month r = true := by
  rw [archived_eq, List.mem_filter, decide_eq_true_iff]

theorem mem_live : r ∈ s.live ↔ r ∈ s.records ∧
    s.month = s.today.inMonth ∧ r.date = s.today ∧ tenantLabel r ∈ s.tenantIds := by
  rw [live_eq, List.mem_filter, decide_eq_true_iff]

theorem mem_monthRecords : r ∈ s.monthRecords ↔ r ∈ s.records ∧ r.date.inMonth = s.month := by
  rw [UsageRead.monthRecords, List.mem_filter, decide_eq_true_iff]

/-! ## The report -/

theorem perm_dailyRows (rows : List UsageRow) :
    ((generateDailyUsage rows).flatMap Prod.snd).Perm (rows.map fun row => (row.tenantId, row.totals)) :=
  Dict.perm_groupFold rows

theorem perm_report (daily : List (Date × List (String × UsageTotals))) :
    (generateUsageReport daily).Perm (Dict.groupFold Prod.fst {}
      (fun current row => UsageTotals.sum [current, row.2]) (daily.flatMap Prod.snd)) :=
  List.mergeSort_perm ..

theorem UsageTotals.field_sum_pair (t u : UsageTotals) (f : UsageField) :
    (UsageTotals.sum [t, u]).field f = t.field f + u.field f := by
  rw [field_sum, List.map_cons, List.map_cons, List.map_nil, List.sum_cons, List.sum_singleton]

/-- The report's tenants together have what the SQL rows have. -/
theorem field_report (s : UsageRead) (f : UsageField) : (s.report.map fun e => e.2.field f).sum =
    ((usageGroups s.archived).map fun e => (usageRow e.2).field f).sum := by
  have hsum : ((Dict.groupFold Prod.fst {} (fun current row => UsageTotals.sum [current, row.2])
      (s.dailyUsage.flatMap Prod.snd)).map fun e => e.2.field f).sum =
        ((s.dailyUsage.flatMap Prod.snd).map fun row => row.2.field f).sum :=
    Dict.sum_groupFold (g := fun t : UsageTotals => t.field f)
      (fun t row => UsageTotals.field_sum_pair t row.2 f) (UsageTotals.field_zero f) _
  rw [UsageRead.report, ((perm_report _).map _).sum_eq, hsum, UsageRead.dailyUsage,
    ((perm_dailyRows _).map _).sum_eq, usageRows, List.map_map, List.map_map]
  rfl

theorem mem_report {tid : String} :
    tid ∈ s.report.map Prod.fst ↔ ∃ r ∈ s.archived, tenantLabel r = tid := by
  rw [UsageRead.report, ((perm_report _).map Prod.fst).mem_iff, Dict.mem_keys_groupFold]
  constructor
  · rintro ⟨row, hrow, hfst⟩
    obtain ⟨row', hrow', rfl⟩ := List.mem_map.1 ((perm_dailyRows _).mem_iff.1 hrow)
    obtain ⟨e, he, rfl⟩ := List.mem_map.1 hrow'
    obtain ⟨r, hr, hkey⟩ := mem_keys_usageGroups.1 (List.mem_map_of_mem (f := Prod.fst) he)
    exact ⟨r, hr, (congrArg Prod.snd hkey).trans hfst⟩
  · rintro ⟨r, hr, rfl⟩
    obtain ⟨e, he, hkey⟩ := List.mem_map.1 (mem_keys_usageGroups.2 ⟨r, hr, rfl⟩)
    refine ⟨(e.1.2, usageRow e.2), (perm_dailyRows _).mem_iff.2 ?_, congrArg Prod.snd hkey⟩
    exact List.mem_map.2 ⟨⟨e.1.1, e.1.2, usageRow e.2⟩, List.mem_map.2 ⟨e, he, rfl⟩, rfl⟩

theorem mem_tenantIds {tid : String} : tid ∈ s.tenantIds ↔
    (∃ r ∈ s.archived, tenantLabel r = tid) ∨ ∃ t ∈ s.registry.getD [], t.1 = tid := by
  rw [UsageRead.tenantIds, List.mem_dedup, List.mem_append, mem_report, List.mem_map]

/-- Each record of the month is in one part exactly under the conditions on the records. -/
theorem once_iff (s : UsageRead) : (∀ r ∈ s.monthRecords, r ∈ s.archived ↔ r ∉ s.live) ↔
    (∀ r ∈ s.monthRecords, r.date ≠ s.today → s.inReport r = true) ∧
    (s.today.day = 1 → ∀ r ∈ s.monthRecords, r.date = s.today → s.inReport r = false) ∧
    (∀ r ∈ s.monthRecords, r.date = s.today →
      (∃ t ∈ s.registry.getD [], t.1 = tenantLabel r) ∨
        ∃ r' ∈ s.archived, tenantLabel r' = tenantLabel r) := by
  constructor
  · intro h
    refine ⟨fun r hr hne => ?_, fun hone r hr htoday => ?_, fun r hr htoday => ?_⟩
    · have hlive : r ∉ s.live := fun hl => hne (mem_live.1 hl).2.2.1
      exact (mem_archived.1 ((h r hr).2 hlive)).2.1
    · obtain ⟨hrec, hm⟩ := mem_monthRecords.1 hr
      by_contra hin
      rw [Bool.not_eq_false] at hin
      have harch : r ∈ s.archived := mem_archived.2 ⟨hrec, hin, (inRange_today hm htoday).2 hone⟩
      have hlive : r ∈ s.live := mem_live.2
        ⟨hrec, htoday ▸ hm.symm, htoday, mem_tenantIds.2 (.inl ⟨r, harch, rfl⟩)⟩
      exact (h r hr).1 harch hlive
    · by_cases harch : r ∈ s.archived
      · exact .inr ⟨r, harch, rfl⟩
      · have hlive : r ∈ s.live := by
          by_contra hl
          exact harch ((h r hr).2 hl)
        exact (mem_tenantIds.1 (mem_live.1 hlive).2.2.2).symm
  · rintro ⟨hearly, hfirst, hlisted⟩ r hr
    obtain ⟨hrec, hm⟩ := mem_monthRecords.1 hr
    by_cases htoday : r.date = s.today
    · have hlive : r ∈ s.live := mem_live.2
        ⟨hrec, htoday ▸ hm.symm, htoday, mem_tenantIds.2 (hlisted r hr htoday).symm⟩
      have harch : r ∉ s.archived := by
        intro harch
        obtain ⟨-, hin, hrange⟩ := mem_archived.1 harch
        have hout := hfirst ((inRange_today hm htoday).1 hrange) r hr htoday
        rw [hin] at hout
        cases hout
      exact iff_of_false harch (not_not_intro hlive)
    · have hlive : r ∉ s.live := fun hl => htoday (mem_live.1 hl).2.2.1
      exact iff_of_true (mem_archived.2
        ⟨hrec, hearly r hr htoday, inRange_of_ne hm (s.past r hrec) htoday⟩) hlive

/-- Records that are in one part each have their shares in the two parts together. -/
theorem shares_parts (h : ∀ r ∈ s.monthRecords, r ∈ s.archived ↔ r ∉ s.live) (f : UsageField) :
    shares f s.archived + shares f s.live = shares f s.monthRecords := by
  unfold shares UsageRead.monthRecords
  rw [archived_eq, live_eq, Dict.sum_filter, Dict.sum_filter, Dict.sum_filter, ← List.sum_map_add]
  refine congrArg List.sum (List.map_congr_left fun r hr => ?_)
  by_cases hm : r.date.inMonth = s.month
  · have hone := h r (mem_monthRecords.2 ⟨hr, hm⟩)
    by_cases hlive : r ∈ s.live
    · have harch : r ∉ s.archived := fun ha => hone.1 ha hlive
      rw [mem_archived, and_iff_right hr] at harch
      rw [if_neg harch, if_pos (mem_live.1 hlive).2, if_pos hm, zero_add]
    · have harch := hone.2 hlive
      rw [mem_live, and_iff_right hr] at hlive
      rw [if_pos (mem_archived.1 harch).2, if_neg hlive, if_pos hm, add_zero]
  · have harch : ¬ (s.inReport r = true ∧ inRange s.today s.month r = true) :=
      fun ha => hm (inRange_iff.1 ha.2).1
    have hlive : ¬ (s.month = s.today.inMonth ∧ r.date = s.today ∧ tenantLabel r ∈ s.tenantIds) :=
      fun hl => hm (hl.2.1 ▸ hl.1.symm)
    rw [if_neg harch, if_neg hlive, if_neg hm, add_zero]

end

/-! ## The month's totals -/

section
variable {num : Numbers} (hint : ∀ n : Nat, num.int (toString n) = some (n : Int)) {s : UsageRead}

theorem tenantId_ne_global {t : Admin.TenantIdStr} : t.1 ≠ "__global__" := fun h =>
  absurd (h ▸ t.2) (by decide)

theorem tenantLabel_ne_global (r : RawRecord) : tenantLabel r ≠ "__global__" := by
  unfold tenantLabel
  cases r.tenantId with
  | none => decide
  | some t => exact tenantId_ne_global

theorem tenantIds_ne_global {tid : String} (h : tid ∈ s.tenantIds) : tid ≠ "__global__" := by
  rcases mem_tenantIds.1 h with ⟨r, -, rfl⟩ | ⟨t, -, rfl⟩
  · exact tenantLabel_ne_global r
  · exact tenantId_ne_global

theorem recordsOf_toRow {tid : String} (h : tid ≠ "__global__") (rs : List RawRecord) :
    recordsOf tid (rs.map RawRecord.toRow) =
      (rs.filter fun r => tenantLabel r = tid).map RawRecord.toRow := by
  rw [recordsOf, if_neg h, List.filter_map]
  refine congrArg _ (List.filter_congr fun r _ => ?_)
  simp only [Function.comp_apply, tenantKey_toRow]

include hint in
/-- What today's stats of a tenant add. -/
theorem field_todayStats {tid : String} (h : tid ≠ "__global__") (f : UsageField) :
    ((s.todayStats num (some tid)).map fun st =>
      (UsageTotals.fromAggregator st.toStats).field f).getD 0 =
        shares f (s.todayRecords.filter fun r => tenantLabel r = tid) := by
  unfold UsageRead.todayStats
  split
  next hnil =>
    rw [hnil]
    rfl
  next =>
    rw [Option.getD_some, lookup_aggregateRecords, recordsOf_toRow h]
    split
    next hnone =>
      rw [List.map_eq_nil_iff.1 hnone.2]
      rfl
    next => exact field_fromAggregator hint _ f

include hint in
theorem field_todayGlobal (f : UsageField) :
    ((s.todayStats num none).map fun st => (UsageTotals.fromAggregator st.toStats).field f).getD 0 =
      shares f s.todayRecords := by
  unfold UsageRead.todayStats
  split
  next hnil =>
    rw [hnil]
    rfl
  next =>
    rw [Option.getD_none, lookup_aggregateRecords, if_neg (fun h => h.1 rfl)]
    exact field_fromAggregator hint _ f

include hint in
/-- **Step.** Adding today for one tenant adds the shares of its records of today. -/
theorem field_addToday {tid : String} (h : tid ≠ "__global__") (raw : List (String × UsageTotals))
    (f : UsageField) : ((addToday num s raw tid).map fun e => e.2.field f).sum =
      (raw.map fun e => e.2.field f).sum +
        shares f (s.todayRecords.filter fun r => tenantLabel r = tid) := by
  rw [← field_todayStats hint h f, addToday]
  cases s.todayStats num (some tid) with
  | none => exact (add_zero _).symm
  | some st =>
    exact Dict.sum_update (g := fun t : UsageTotals => t.field f)
      (fun t => UsageTotals.field_add t _ f) (UsageTotals.field_zero f) raw

include hint in
theorem field_foldl_addToday {tids : List String} (h : ∀ tid ∈ tids, tid ≠ "__global__")
    (raw : List (String × UsageTotals)) (f : UsageField) :
    ((tids.foldl (addToday num s) raw).map fun e => e.2.field f).sum =
      (raw.map fun e => e.2.field f).sum +
        (tids.map fun tid => shares f (s.todayRecords.filter fun r => tenantLabel r = tid)).sum := by
  induction tids generalizing raw with
  | nil => exact (add_zero _).symm
  | cons tid tids ih =>
    obtain ⟨htid, htids⟩ := List.forall_mem_cons.1 h
    rw [List.foldl_cons, ih htids, field_addToday hint htid, List.map_cons, List.sum_cons, add_assoc]

include hint in
/-- The month's totals: the SQL rows of the archived part and the shares of the live one. -/
theorem field_getUsage (s : UsageRead) (f : UsageField) : (totalsOver (s.getUsage num)).field f =
    ((usageGroups s.archived).map fun e => (usageRow e.2).field f).sum + shares f s.live := by
  rw [field_totalsOver, ← field_report, UsageRead.getUsage, UsageRead.live]
  split
  next =>
    have hnodup : s.tenantIds.Nodup := List.nodup_dedup _
    rw [field_foldl_addToday hint fun tid htid => tenantIds_ne_global htid]
    exact congrArg _ (Dict.sum_by_key hnodup s.todayRecords)
  next => exact (add_zero _).symm

/-! ## The days' totals -/

theorem mem_dayOf {m : Month} {d : Date} {n : Nat} : dayOf m n = some d ↔ d.inMonth = m ∧ d.day = n := by
  unfold dayOf
  split
  next h =>
    rw [Option.some.injEq]
    constructor
    · rintro rfl
      exact ⟨rfl, rfl⟩
    · rintro ⟨hm, hn⟩
      exact Date.ext_month hm.symm hn.symm
  next h =>
    refine iff_of_false (fun hc => by cases hc) ?_
    rintro ⟨rfl, rfl⟩
    exact h ⟨d.day_pos, d.day_le⟩

def daysOf (m : Month) : List Date := (List.range' 1 (daysInMonth m)).filterMap (dayOf m)

theorem mem_daysOf {m : Month} {d : Date} : d ∈ daysOf m ↔ d.inMonth = m := by
  rw [daysOf, List.mem_filterMap]
  constructor
  · rintro ⟨n, -, hn⟩
    exact (mem_dayOf.1 hn).1
  · intro hm
    have hpos := d.day_pos
    have hle := d.day_le
    exact ⟨d.day, List.mem_range'_1.2 (by subst hm; omega), mem_dayOf.2 ⟨hm, rfl⟩⟩

theorem nodup_daysOf (m : Month) : (daysOf m).Nodup := by
  refine List.Nodup.filterMap ?_ List.nodup_range'
  intro n n' d hn hn'
  exact (mem_dayOf.1 hn).2.symm.trans (mem_dayOf.1 hn').2

/-- The global file of a day. -/
theorem lookup_writeDailyFiles (daily : List (Date × List (String × UsageTotals))) (d : Date) :
    (writeDailyFiles daily).lookup (d, none) = (daily.lookup d).map fun rows => totalsOver rows := by
  induction daily with
  | nil => rfl
  | cons e daily ih =>
    have htenants : (e.2.map fun row => ((e.1, some row.1), row.2)).lookup (d, none) = none := by
      rw [List.lookup_eq_none_iff]
      intro file hfile
      obtain ⟨row, -, rfl⟩ := List.mem_map.1 hfile
      exact bne_iff_ne.2 fun h => by cases h
    have hcons : writeDailyFiles (e :: daily) = (e.2.map fun row => ((e.1, some row.1), row.2)) ++
        ((e.1, none), totalsOver e.2) :: writeDailyFiles daily := by
      rw [writeDailyFiles, List.flatMap_cons, List.append_assoc]
      rfl
    rw [hcons, List.lookup_append, htenants, Option.none_or, List.lookup_cons, List.lookup_cons, ih]
    by_cases hd : d = e.1
    · rw [beq_iff_eq.2 hd, beq_iff_eq.2 (show (d, none) = (e.1, none) from hd ▸ rfl)]
      rfl
    · have hpair : ((d, (none : Option String)) == (e.1, none)) = false :=
        beq_eq_false_iff_ne.2 fun h => hd (congrArg Prod.fst h)
      rw [beq_eq_false_iff_ne.2 hd, hpair]

theorem field_dayFile (rows : List UsageRow) (d : Date) (f : UsageField) :
    (((writeDailyFiles (generateDailyUsage rows)).lookup (d, none)).map fun t => t.field f).getD 0 =
      ((rows.filter fun row => row.date = d).map fun row => row.totals.field f).sum := by
  rw [lookup_writeDailyFiles, generateDailyUsage, Dict.lookup_groupFold]
  split
  next hnil =>
    rw [hnil]
    rfl
  next =>
    rw [Dict.foldl_concat (f := fun row : UsageRow => (row.tenantId, row.totals)), List.nil_append,
      Option.map_some, Option.map_some, Option.getD_some, field_totalsOver, List.map_map]
    rfl

theorem date_usageRows {row : UsageRow} (h : row ∈ usageRows (s.records.filter s.inReport) s.today s.month) :
    ∃ r ∈ s.archived, r.date = row.date := by
  obtain ⟨e, he, rfl⟩ := List.mem_map.1 h
  obtain ⟨r, hr, hkey⟩ := mem_keys_usageGroups.1 (List.mem_map_of_mem (f := Prod.fst) he)
  exact ⟨r, hr, congrArg Prod.fst hkey⟩

theorem date_todayRecords {r : RawRecord} (h : r ∈ s.todayRecords) : r.date = s.today := by
  rw [todayRecords_eq, List.mem_filter, decide_eq_true_iff] at h
  exact h.2

include hint in
/-- A day of the daily view, when the report has nothing of today. -/
theorem field_fetchDay (hday : ∀ r ∈ s.archived, r.date ≠ s.today) (d : Date) (f : UsageField) :
    ((s.fetchDay num none d).map fun t => t.field f).getD 0 =
      (((usageRows (s.records.filter s.inReport) s.today s.month).filter fun row =>
        row.date = d).map fun row => row.totals.field f).sum +
      shares f (s.todayRecords.filter fun r => r.date = d) := by
  unfold UsageRead.fetchDay
  split
  next hd =>
    have hrows : (usageRows (s.records.filter s.inReport) s.today s.month).filter
        (fun row => row.date = d) = [] := by
      refine List.filter_eq_nil_iff.2 fun row hrow hdate => ?_
      obtain ⟨r, hr, hrdate⟩ := date_usageRows hrow
      exact hday r hr (hrdate.trans ((of_decide_eq_true hdate).trans hd))
    have htoday : s.todayRecords.filter (fun r => r.date = d) = s.todayRecords :=
      List.filter_eq_self.2 fun r hr => decide_eq_true ((date_todayRecords hr).trans hd.symm)
    rw [hrows, htoday, List.map_nil, List.sum_nil, zero_add, ← field_todayGlobal hint, Option.map_map]
    rfl
  next hd =>
    have htoday : s.todayRecords.filter (fun r => r.date = d) = [] :=
      List.filter_eq_nil_iff.2 fun r hr hdate =>
        hd ((of_decide_eq_true hdate).symm.trans (date_todayRecords hr))
    rw [htoday, UsageRead.dailyUsage, field_dayFile]
    exact (add_zero _).symm

theorem sum_filterMap {ι α : Type} (F : ι → Option α) (G : α → Int) (l : List ι) :
    ((l.filterMap fun d => (F d).map fun t => (d, t)).map fun e => G e.2).sum =
      (l.map fun d => ((F d).map G).getD 0).sum := by
  induction l with
  | nil => rfl
  | cons d l ih =>
    rw [List.filterMap_cons, List.map_cons, List.sum_cons, ← ih]
    cases F d with
    | none => exact (zero_add _).symm
    | some t => rfl

include hint in
/-- The days' totals, when the report has nothing of today. -/
theorem field_readDailyUsage (hday : ∀ r ∈ s.archived, r.date ≠ s.today) (f : UsageField) :
    (totalsOver (s.readDailyUsage num none)).field f =
      ((usageGroups s.archived).map fun e => (usageRow e.2).field f).sum +
        shares f (s.todayRecords.filter fun r => r.date ∈ daysOf s.month) := by
  have hfetch : (daysOf s.month).map (fun d => ((s.fetchDay num none d).map fun t => t.field f).getD 0) =
      (daysOf s.month).map fun d =>
        (((usageRows (s.records.filter s.inReport) s.today s.month).filter fun row =>
          row.date = d).map fun row => row.totals.field f).sum +
        shares f (s.todayRecords.filter fun r => r.date = d) :=
    List.map_congr_left fun d _ => field_fetchDay hint hday d f
  have hrows : (usageRows (s.records.filter s.inReport) s.today s.month).filter
      (fun row => row.date ∈ daysOf s.month) = usageRows (s.records.filter s.inReport) s.today s.month := by
    refine List.filter_eq_self.2 fun row hrow => decide_eq_true ?_
    obtain ⟨r, hr, hdate⟩ := date_usageRows hrow
    exact mem_daysOf.2 (hdate ▸ (inRange_iff.1 (mem_archived.1 hr).2.2).1)
  rw [field_totalsOver, UsageRead.readDailyUsage, sum_filterMap _ fun t : UsageTotals => t.field f]
  change ((daysOf s.month).map _).sum = _
  rw [hfetch, List.sum_map_add, Dict.sum_by_key (nodup_daysOf _), hrows]
  refine congrArg₂ (· + ·) ?_ (Dict.sum_by_key (nodup_daysOf _) s.todayRecords)
  rw [usageRows, List.map_map]
  rfl

/-- When today's tenants are listed, the live part is today's part of the month. -/
theorem live_eq_today (h : ∀ r ∈ s.monthRecords, r.date = s.today →
      (∃ t ∈ s.registry.getD [], t.1 = tenantLabel r) ∨
        ∃ r' ∈ s.archived, tenantLabel r' = tenantLabel r) :
    s.live = s.todayRecords.filter fun r => r.date ∈ daysOf s.month := by
  unfold UsageRead.live
  split
  next hm =>
    refine List.filter_congr fun r hr => decide_eq_decide.2 ?_
    have hdate := date_todayRecords hr
    have hmonth : r.date.inMonth = s.month := hdate ▸ hm.symm
    rw [todayRecords_eq, List.mem_filter] at hr
    exact iff_of_true (mem_tenantIds.2 (h r (mem_monthRecords.2 ⟨hr.1, hmonth⟩) hdate).symm)
      (mem_daysOf.2 hmonth)
  next hm =>
    refine (List.filter_eq_nil_iff.2 fun r hr hmem => hm ?_).symm
    rw [← date_todayRecords hr]
    exact (mem_daysOf.1 (of_decide_eq_true hmem)).symm

/-! ## Each record once -/

theorem counted_iff (rs : List RawRecord) :
    (∀ f : UsageField, ∀ d t, f.Counted (rs.filter fun r => (r.date, tenantLabel r) = (d, t))) ↔
      (∀ d t, TokensCounted (·.preclassificationInputTokens) (·.cropInputTokens)
        (rs.filter fun r => (r.date, tenantLabel r) = (d, t))) ∧
      ∀ d t, TokensCounted (·.preclassificationOutputTokens) (·.cropOutputTokens)
        (rs.filter fun r => (r.date, tenantLabel r) = (d, t)) := by
  constructor
  · intro h
    exact ⟨h .inputTokens, h .outputTokens⟩
  · rintro ⟨hin, hout⟩ f d t
    cases f with
    | inputTokens => exact hin d t
    | outputTokens => exact hout d t
    | _ => trivial

/-- **Usage counts each record once exactly when** earlier records were archived before the report,
the report of the first of a month found nothing of the day, today's tenants are listed, and no null
token column takes the other one away. -/
theorem countedOnce_iff (num : Numbers) (hint : ∀ n : Nat, num.int (toString n) = some (n : Int))
    (s : UsageRead) : CountedOnce num s ↔ Countable s := by
  have hexact : ∀ f, (UsageTotals.fromAggregator (statsOf num (s.monthRecords.map RawRecord.toRow))).field f =
      shares f s.monthRecords := fun f => field_fromAggregator hint _ f
  constructor
  · rintro ⟨-, heq, honce⟩
    obtain ⟨hearly, hfirst, hlisted⟩ := (once_iff s).1 honce
    have hcounted : ∀ f : UsageField, ∀ d t,
        f.Counted (s.archived.filter fun r => (r.date, tenantLabel r) = (d, t)) := by
      intro f
      have hfield := congrArg (UsageTotals.field · f) heq
      simp only [field_getUsage hint, hexact, ← shares_parts honce] at hfield
      exact (sum_usageGroups f s.archived).1 (by omega)
    obtain ⟨hinput, houtput⟩ := (counted_iff s.archived).1 hcounted
    exact ⟨hearly, hfirst, hlisted, hinput, houtput⟩
  · rintro ⟨hearly, hfirst, hlisted, hinput, houtput⟩
    have honce := (once_iff s).2 ⟨hearly, hfirst, hlisted⟩
    have hcounted := (counted_iff s.archived).2 ⟨hinput, houtput⟩
    have hday : ∀ r ∈ s.archived, r.date ≠ s.today := by
      intro r hr htoday
      obtain ⟨hrec, -, hrange⟩ := mem_archived.1 hr
      have hm := (inRange_iff.1 hrange).1
      have hmonth := mem_monthRecords.2 ⟨hrec, hm⟩
      exact (honce r hmonth).1 hr (mem_live.2
        ⟨hrec, htoday ▸ hm.symm, htoday, mem_tenantIds.2 (hlisted r hmonth htoday).symm⟩)
    refine ⟨UsageTotals.ext_field fun f => ?_, UsageTotals.ext_field fun f => ?_, honce⟩
    · rw [field_getUsage hint, field_readDailyUsage hint hday, live_eq_today hlisted]
    · rw [field_getUsage hint, hexact, (sum_usageGroups f s.archived).2 (hcounted f),
        shares_parts honce]

end

/-! ## The second and the first of a month -/

/-- `int` on texts of digits. -/
def readInt (s : String) : Option Int :=
  if s.toList ≠ [] ∧ s.toList.all Char.isDigit then some (Nat.ofDigitChars 10 s.toList 0 : Nat) else none

theorem readInt_toString (n : Nat) : readInt (toString n) = some (n : Int) := by
  have hlist : (toString n).toList = Nat.toDigits 10 n := Nat.toList_repr
  have hne : Nat.toDigits 10 n ≠ [] := Nat.toDigits_ne_nil
  have hall : (Nat.toDigits 10 n).all Char.isDigit = true :=
    List.all_eq_true.2 fun c hc => Nat.isDigit_of_mem_toDigits (by decide) (by decide) hc
  rw [readInt, hlist, if_pos ⟨hne, hall⟩, Nat.ofDigitChars_ten_toDigits]

def usageNumbers : Numbers := { sampleNumbers with int := readInt }

def sampleMonth : Month := ⟨2026, 1⟩

def dayOfSample (n : Nat) (h : 1 ≤ n ∧ n ≤ 31) : Date := ⟨sampleMonth, n, h.1, h.2⟩

def sampleRecord (name : String) (date : Date) : RawRecord where
  fileName                      := name
  updatedAt                     := 0
  date                          := date
  tenantId                      := some ⟨"acme", by decide⟩
  bdaInvocationArn              := none
  fileSizeBytes                 := some 7
  pagesSentToBda                := none
  preclassificationInputTokens  := some 5
  cropInputTokens               := some 2
  preclassificationOutputTokens := some 1
  cropOutputTokens              := some 0
  others                        := []

/-- A record of the first in the report, one of the second live. -/
def secondOfMonth : UsageRead where
  records  := [sampleRecord "a" (dayOfSample 1 (by decide)), sampleRecord "b" (dayOfSample 2 (by decide))]
  inReport := fun _ => true
  today    := dayOfSample 2 (by decide)
  month    := sampleMonth
  registry := some [⟨"acme", by decide⟩]
  nodup    := by decide
  past     := by
    intro r hr
    simp only [List.mem_cons, List.not_mem_nil, or_false] at hr
    rcases hr with rfl | rfl
    · exact .inr ⟨rfl, .inr ⟨rfl, by decide⟩⟩
    · exact .inr ⟨rfl, .inr ⟨rfl, by decide⟩⟩

theorem tokensCounted_of_isSome {a b : RawRecord → Option Nat} {g : List RawRecord}
    (h : ∀ r ∈ g, (a r).isSome ∧ (b r).isSome) : TokensCounted a b g := by
  rintro (hnone | hnone) r hr
  · have hsome := (h r hr).1
    rw [hnone r hr] at hsome
    cases hsome
  · have hsome := (h r hr).2
    rw [hnone r hr] at hsome
    cases hsome

theorem countedOnce_secondOfMonth : CountedOnce usageNumbers secondOfMonth := by
  have hmem : ∀ r ∈ secondOfMonth.records, r = sampleRecord "a" (dayOfSample 1 (by decide)) ∨
      r = sampleRecord "b" (dayOfSample 2 (by decide)) := by
    intro r hr
    simpa [secondOfMonth] using hr
  have hpresent : ∀ r ∈ secondOfMonth.archived, ∃ name date, r = sampleRecord name date := by
    intro r hr
    rcases hmem r (mem_archived.1 hr).1 with rfl | rfl
    · exact ⟨_, _, rfl⟩
    · exact ⟨_, _, rfl⟩
  refine (countedOnce_iff usageNumbers readInt_toString secondOfMonth).2
    ⟨fun _ _ _ => rfl, fun hone => absurd hone (by decide), fun r hr _ => ?_, fun d t => ?_, fun d t => ?_⟩
  · rcases hmem r (mem_monthRecords.1 hr).1 with rfl | rfl
    · exact .inl ⟨_, List.mem_singleton.2 rfl, rfl⟩
    · exact .inl ⟨_, List.mem_singleton.2 rfl, rfl⟩
  · refine tokensCounted_of_isSome fun r hr => ?_
    obtain ⟨name, date, rfl⟩ := hpresent r (List.mem_of_mem_filter hr)
    exact ⟨rfl, rfl⟩
  · refine tokensCounted_of_isSome fun r hr => ?_
    obtain ⟨name, date, rfl⟩ := hpresent r (List.mem_of_mem_filter hr)
    exact ⟨rfl, rfl⟩

/-- One record of today, archived before the report was generated. -/
def firstOfMonth : UsageRead where
  records  := [sampleRecord "a" (dayOfSample 1 (by decide))]
  inReport := fun _ => true
  today    := dayOfSample 1 (by decide)
  month    := sampleMonth
  registry := some [⟨"acme", by decide⟩]
  nodup    := List.nodup_singleton _
  past     := fun r hr => by
    rw [List.mem_singleton.1 hr]
    exact .inr ⟨rfl, .inr ⟨rfl, by decide⟩⟩

set_option maxRecDepth 10000 in
/-- The month's totals count the one record of the month twice, the days' totals once. -/
theorem countedOnce_fails :
    (totalsOver (firstOfMonth.getUsage usageNumbers)).totalRecords = 2 ∧
    (totalsOver (firstOfMonth.readDailyUsage usageNumbers none)).totalRecords = 1 ∧
    ¬ CountedOnce usageNumbers firstOfMonth := by
  have hmonth : (totalsOver (firstOfMonth.getUsage usageNumbers)).totalRecords = 2 := by decide +kernel
  have hdays : (totalsOver (firstOfMonth.readDailyUsage usageNumbers none)).totalRecords = 1 := by
    decide +kernel
  refine ⟨hmonth, hdays, fun h => ?_⟩
  have heq := congrArg UsageTotals.totalRecords h.daily
  rw [hmonth, hdays] at heq
  exact absurd heq (by decide)

end DocumentAi.Metrics
