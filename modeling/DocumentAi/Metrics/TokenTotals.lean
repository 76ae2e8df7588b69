import DocumentAi.Metrics.UsageCount

/-!
# Token totals of a group

`_build_daily_usage_query` adds the sums of two columns (`jobs/usage_report/main.py:63-72`), and a sum
over null values only is null. `_process_record` adds every value by itself
(`jobs/metrics_aggregator/main.py:278-288`).

| here | meaning |
| --- | --- |
| `nonNullTotal a b g` | the sum of the values of two columns that are not null |
| `TokensAgree`        | the query's totals of a group are these sums, and those of the aggregator |
| `TokensCounted`      | (from `Metrics.Usage`) no column that is null throughout takes the other away |
-/

namespace DocumentAi.Metrics

def nonNullTotal (a b : RawRecord → Option Nat) (g : List RawRecord) : Nat :=
  (g.flatMap fun r => (a r).toList ++ (b r).toList).sum

structure TokensAgree (num : Numbers) (g : List RawRecord) : Prop where
  input       : (usageRow g).totalBedrockInputTokens =
    nonNullTotal (·.preclassificationInputTokens) (·.cropInputTokens) g
  output      : (usageRow g).totalBedrockOutputTokens =
    nonNullTotal (·.preclassificationOutputTokens) (·.cropOutputTokens) g
  inputStats  : (usageRow g).totalBedrockInputTokens =
    (statsOf num (g.map RawRecord.toRow)).usageStats.totalBedrockInputTokens
  outputStats : (usageRow g).totalBedrockOutputTokens =
    (statsOf num (g.map RawRecord.toRow)).usageStats.totalBedrockOutputTokens

theorem sum_toList (v : Option Nat) : v.toList.sum = v.getD 0 := by
  cases v <;> rfl

/-- What a column counts is what its values add up to. -/
theorem shares_eq_nonNullTotal {a b : RawRecord → Option Nat} {f : UsageField}
    (hf : ∀ r, shareOf f r = ((a r).getD 0 : Nat) + ((b r).getD 0 : Nat)) (g : List RawRecord) :
    shares f g = nonNullTotal a b g := by
  induction g with
  | nil => rfl
  | cons r g ih =>
    have hhead : nonNullTotal a b (r :: g) = (a r).getD 0 + (b r).getD 0 + nonNullTotal a b g := by
      rw [nonNullTotal, List.flatMap_cons, List.sum_append, List.sum_append, sum_toList, sum_toList]
      rfl
    have hshare : shares f (r :: g) = shareOf f r + shares f g := by
      rw [shares, List.map_cons, List.sum_cons]
      rfl
    rw [hshare, ih, hf, hhead, Nat.cast_add, Nat.cast_add]

/-- **The query's totals are the sums of the values, and the aggregator's, exactly when no column
that is null throughout stands beside one that counts.** -/
theorem tokensAgree_iff (num : Numbers) (hint : ∀ n : Nat, num.int (toString n) = some (n : Int))
    (g : List RawRecord) :
    TokensAgree num g ↔
      TokensCounted (·.preclassificationInputTokens) (·.cropInputTokens) g ∧
      TokensCounted (·.preclassificationOutputTokens) (·.cropOutputTokens) g := by
  have hin := (field_usageRow .inputTokens g).2
  have hout := (field_usageRow .outputTokens g).2
  have hinTotal := shares_eq_nonNullTotal (f := .inputTokens) (fun _ => rfl) g
  have houtTotal := shares_eq_nonNullTotal (f := .outputTokens) (fun _ => rfl) g
  have hinStats := field_fromAggregator hint g .inputTokens
  have houtStats := field_fromAggregator hint g .outputTokens
  constructor
  · intro h
    exact ⟨hin.1 (h.input.trans hinTotal.symm), hout.1 (h.output.trans houtTotal.symm)⟩
  · rintro ⟨hci, hco⟩
    exact ⟨(hin.2 hci).trans hinTotal, (hout.2 hco).trans houtTotal, (hin.2 hci).trans hinStats.symm,
      (hout.2 hco).trans houtStats.symm⟩

/-- A document that was classified and not cropped. -/
def notCropped : RawRecord :=
  { sampleRecord "a" (dayOfSample 3 (by decide)) with cropInputTokens := none, cropOutputTokens := none }

def notClassified : RawRecord :=
  { sampleRecord "b" (dayOfSample 3 (by decide)) with
    preclassificationInputTokens := none, preclassificationOutputTokens := none }

/-- Each column is null in a record and counts in another. -/
theorem tokensAgree_mixedNulls : TokensAgree usageNumbers [notCropped, notClassified] ∧
    nonNullTotal (·.preclassificationInputTokens) (·.cropInputTokens) [notCropped, notClassified] = 7 := by
  refine ⟨(tokensAgree_iff usageNumbers readInt_toString _).2 ⟨?_, ?_⟩, rfl⟩ <;>
    rintro (hnull | hnull)
  · exact absurd (hnull notCropped List.mem_cons_self) (by decide)
  · exact absurd (hnull notClassified (List.mem_cons_of_mem _ List.mem_cons_self)) (by decide)
  · exact absurd (hnull notCropped List.mem_cons_self) (by decide)
  · exact absurd (hnull notClassified (List.mem_cons_of_mem _ List.mem_cons_self)) (by decide)

/-- The crop columns are null in the group, and the query counts none of the classification's tokens. -/
theorem not_tokensAgree_notCropped : ¬ ∀ g, TokensAgree usageNumbers g := by
  intro h
  have hrow : (usageRow [notCropped]).totalBedrockInputTokens = 0 := rfl
  have htotal := (h [notCropped]).input
  rw [hrow] at htotal
  exact absurd htotal (by decide)

end DocumentAi.Metrics
