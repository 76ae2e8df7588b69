import Mathlib.Algebra.GroupWithZero.Nat
import DocumentAi.Utils.Documents

/-!
# BDA jobs: routing, starting, and finding the document a result belongs to

| here | there |
| --- | --- |
| `resolveProjectArn`           | `resolve_project_arn` (`utils/bda_invoker.py:39-66`) |
| `invokeBedrockDataAutomation` | `invoke_bedrock_data_automation` (`utils/bda_invoker.py:69-144`) |
| `findUuids`                   | `re.findall(UUID_PATTERN, s)` (`constants/defaults.py:17`) |
| `getDdbRecordFromBdaOutput`   | `get_ddb_record_from_bda_output` (`utils/bda.py:84-111`) |
| `extractBdaOutputS3Uri`       | `extract_bda_output_s3_uri` (`utils/bda.py:161-185`) |
-/

namespace DocumentAi

/-- `MAX_PAGES_PER_DOCUMENT`. -/
def maxPagesPerDocument : Nat := 5

/-- The project ARN and whether it is a category's own. -/
def resolveProjectArn (env : EnvConfig) (category : Option String) :
    Except Exc (Option String × Bool) :=
  match truthy category with
  | some c =>
    match env.bdaProjectArns.lookup c with
    | some arn => .ok (some arn, true)
    | none     =>
      .error (.valueError ("No BDA project configured for preclassification category: '" ++ c ++ "'"))
  | none   => .ok (env.bdaProjectArn, false)

structure BdaInvocation where
  arn                         : String
  projectArn                  : String
  pagesSent                   : Nat
  usedCategorySpecificProject : Bool

/-- A long document is sent as a copy of its first pages; the key of what is sent, and its pages. -/
def prepareBdaInput (env : EnvConfig) (bucket key : String) : Prog (String × Nat) := do
  let obj : S3Object ← call (.getObject (bucket, key))
  match getPageCount env obj.bytes with
  | none       => pure (key, 1)
  | some pages =>
    if maxPagesPerDocument < pages then do
      let truncated ← liftExcept (truncateToPages env obj.bytes maxPagesPerDocument)
      call (.putObject (bucket, getTruncatedObjectKey key) { body := .raw truncated })
      pure (getTruncatedObjectKey key, maxPagesPerDocument)
    else pure (key, if pages = 0 then 1 else pages)

def invokeBedrockDataAutomation (env : EnvConfig) (bucket key tenantId ddbKey : String)
    (category : Option String) : Prog BdaInvocation := do
  let (projectArn, usedCategory) ← liftExcept (resolveProjectArn env category)
  match projectArn with
  | none            =>
    throw (.valueError ("No preclassification category matched and no default BDA project "
      ++ "(BDA_PROJECT_ARN) is configured"))
  | some projectArn => do
    let profileArn ← liftExcept (EnvConfig.require env.bdaProfileArn "BDA_PROFILE_ARN")
    let outputLocation ← liftExcept env.outputLocation
    let outputUri ← liftExcept (generateS3Uri outputLocation tenantId ddbKey .bda)
    let (inputKey, pagesSent) ← prepareBdaInput env bucket key
    let arn : String ← call (.ai (.invokeDataAutomationAsync projectArn profileArn
      (s3Uri (bucket, inputKey)) outputUri))
    pure ⟨arn, projectArn, pagesSent, usedCategory⟩

/-! ## From a job's output to its document -/

def isLowerHex (c : Char) : Bool := ('0' ≤ c && c ≤ '9') || ('a' ≤ c && c ≤ 'f')

/-- The lengths of the hex groups of a UUID. -/
def uuidGroups : List Nat := [8, 4, 4, 4, 12]

/-- A match of the groups, joined by dashes, at the start of the text. -/
def matchGroups : List Nat → List Char → Bool
  | [], _      => true
  | [n], s     => (s.take n).length == n && (s.take n).all isLowerHex
  | n :: ns, s =>
    (s.take n).length == n && (s.take n).all isLowerHex && (s.drop n).head? == some '-'
      && matchGroups ns (s.drop (n + 1))

/-- Non-overlapping matches from the left; `skip` characters belong to the last match. -/
def findUuidsFrom : Nat → List Char → List (List Char)
  | _, []             => []
  | skip + 1, _ :: cs => findUuidsFrom skip cs
  | 0, c :: cs        =>
    if matchGroups uuidGroups (c :: cs) then (c :: cs).take 36 :: findUuidsFrom 35 cs
    else findUuidsFrom 0 cs

def findUuids (s : String) : List String := (findUuidsFrom 0 s.toList).map String.ofList

def IsUuid (s : String) : Prop := s.toList.length = 36 ∧ matchGroups uuidGroups s.toList = true

instance : DecidablePred IsUuid := fun s =>
  inferInstanceAs (Decidable (s.toList.length = 36 ∧ matchGroups uuidGroups s.toList = true))

section
variable {gs : List Nat} {a b s : List Char} {c : Char} {n : Nat}

theorem take_append_cons (c : Char) (b : List Char) (h : n ≤ a.length) :
    (a ++ c :: b).take n = a.take n := List.take_append_of_le_length h

/-- A group does not go past a character that is not hexadecimal. -/
theorem hexGroup_append_cons (hc : isLowerHex c = false) :
    (((a ++ c :: b).take n).length == n && ((a ++ c :: b).take n).all isLowerHex) =
      ((a.take n).length == n && (a.take n).all isLowerHex) := by
  by_cases h : n ≤ a.length
  · rw [take_append_cons c b h]
  · have hr : ((a.take n).length == n) = false := by simp; omega
    have hl : ((a ++ c :: b).take n).all isLowerHex = false := by
      obtain ⟨m, rfl⟩ : ∃ m, n = a.length + (m + 1) := ⟨n - a.length - 1, by omega⟩
      simp [List.take_append, hc]
    rw [hr, hl, Bool.and_false, Bool.false_and]

/-- Nor does a match go past one that is no dash either. -/
theorem matchGroups_append_cons (hc : isLowerHex c = false) (hd : c ≠ '-') :
    matchGroups gs (a ++ c :: b) = matchGroups gs a := by
  induction gs generalizing a with
  | nil => rfl
  | cons n ns ih =>
    cases ns with
    | nil => exact hexGroup_append_cons hc
    | cons m ms =>
      simp only [matchGroups, hexGroup_append_cons hc]
      by_cases h : n < a.length
      · rw [List.drop_append_of_le_length (by omega), List.drop_append_of_le_length (by omega), ih,
          List.head?_append_of_ne_nil _ (by simpa using h)]
      · by_cases he : n = a.length
        · subst he
          simp [hd]
        · have hr : ((a.take n).length == n) = false := by simp; omega
          simp only [hr, Bool.false_and]

theorem length_of_matchGroups (hne : gs ≠ []) (h : matchGroups gs s = true) :
    gs.sum + gs.length ≤ s.length + 1 := by
  induction gs generalizing s with
  | nil => exact absurd rfl hne
  | cons n ns ih =>
    cases ns with
    | nil =>
      simp only [matchGroups, Bool.and_eq_true, beq_iff_eq, List.length_take] at h
      simp only [List.sum_cons, List.sum_nil, List.length_cons, List.length_nil]
      omega
    | cons m ms =>
      simp only [matchGroups, Bool.and_eq_true, beq_iff_eq, List.length_take] at h
      have hrest := ih (by simp) h.2
      have hdash : n < s.length := by
        by_contra hcon
        rw [List.drop_eq_nil_of_le (by omega)] at h
        simp at h
      simp only [List.length_drop, List.sum_cons, List.length_cons] at hrest ⊢
      omega

theorem findUuidsFrom_of_le (h : s.length ≤ n) : findUuidsFrom n s = [] := by
  induction s generalizing n with
  | nil => rw [findUuidsFrom]
  | cons x s ih =>
    obtain ⟨m, rfl⟩ : ∃ m, n = m + 1 := ⟨n - 1, by simp at h; omega⟩
    rw [findUuidsFrom]
    exact ih (by simpa using h)

/-- A character that no match contains splits the scan. -/
theorem findUuidsFrom_append_cons (hc : isLowerHex c = false) (hd : c ≠ '-') (h : n ≤ a.length) :
    findUuidsFrom n (a ++ c :: b) = findUuidsFrom n a ++ findUuidsFrom 0 b := by
  induction a generalizing n with
  | nil =>
    obtain rfl : n = 0 := by simpa using h
    have : matchGroups uuidGroups (c :: b) = false :=
      (matchGroups_append_cons (a := []) hc hd).trans (by decide)
    simp [findUuidsFrom, this]
  | cons x a ih =>
    cases n with
    | succ n =>
      simp only [List.cons_append, findUuidsFrom]
      exact ih (by simpa using h)
    | zero =>
      have hmatch : matchGroups uuidGroups ((x :: a) ++ c :: b) = matchGroups uuidGroups (x :: a) :=
        matchGroups_append_cons hc hd
      rw [List.cons_append] at hmatch
      simp only [List.cons_append, findUuidsFrom, hmatch]
      split
      next hm =>
        have hlen := length_of_matchGroups (by decide) hm
        rw [show uuidGroups.sum + uuidGroups.length = 37 from rfl] at hlen
        have hlen : 35 ≤ a.length := by simpa using hlen
        have htake := take_append_cons (a := x :: a) c b (show 36 ≤ (x :: a).length by simpa using hlen)
        rw [List.cons_append] at htake
        rw [ih hlen, htake]
        rfl
      next => exact ih (Nat.zero_le _)

theorem findUuidsFrom_of_isUuid (hl : s.length = 36) (hm : matchGroups uuidGroups s = true) :
    findUuidsFrom 0 s = [s] := by
  cases s with
  | nil => cases hl
  | cons x s =>
    rw [findUuidsFrom, if_pos hm, findUuidsFrom_of_le (by simp at hl; omega),
      List.take_of_length_le hl.le]

end

/-- The job id is the last UUID of an output path. -/
theorem findUuids_output (pre : String) {id rest : String} (hid : IsUuid id)
    (hrest : findUuids rest = []) :
    (findUuids (pre ++ "/" ++ id ++ "/" ++ rest)).getLast? = some id := by
  have hslash : isLowerHex '/' = false := by decide
  have hscan : findUuidsFrom 0 (pre ++ "/" ++ id ++ "/" ++ rest).toList =
      findUuidsFrom 0 pre.toList ++ [id.toList] := by
    have hnil : findUuidsFrom 0 rest.toList = [] := List.map_eq_nil_iff.1 hrest
    simp only [String.toList_append, List.append_assoc]
    change findUuidsFrom 0 (pre.toList ++ '/' :: (id.toList ++ '/' :: rest.toList)) = _
    rw [findUuidsFrom_append_cons hslash (by decide) (Nat.zero_le _),
      findUuidsFrom_append_cons hslash (by decide) (Nat.zero_le _),
      findUuidsFrom_of_isUuid hid.1 hid.2, hnil, List.append_nil]
  rw [findUuids, hscan, List.map_append, List.getLast?_append]
  simp

def getDdbRecordFromBdaOutput (key : S3Key) : Prog (Option (String × Record)) :=
  match (findUuids (s3Uri key)).getLast? with
  | none    => pure none
  | some id => do
    let items ← call (.queryByBdaInvocationId id)
    pure items.head?

def extractBdaOutputS3Uri (key : S3Key) : Prog (Option String) := do
  let obj : S3Object ← call (.getObject key)
  match obj.body with
  | .jobMetadata path => pure path
  | _                 => pure none

end DocumentAi
