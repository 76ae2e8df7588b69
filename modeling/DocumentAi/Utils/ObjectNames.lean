import DocumentAi.Utils.S3

/-!
# Names of stored documents (`utils/s3.py`, `utils/uploads.py`)

The writer of a truncated copy takes the key of the document apart (`utils/bda_invoker.py:109`), the
purge the name (`utils/uploads.py:118-122`).

| here | meaning |
| --- | --- |
| `isUuid`       | the text of a `uuid.uuid4()` |
| `uploadName`   | the name of an upload: `generate_unique_filename`, in a batch behind the position of the file (`routers/batch.py:107`) |
| `splitext_of_dot`, `splitext_of_noDot`, `splitext_of_dots` | the three ways `os.path.splitext` takes a name |
| `splitext_append` | a directory stays with the root |
| `Carries J x`  | how a name with the job id `J` can look, truncated or not |
| `jobOf x`      | the job id that a name gives away |

A name that starts with a dot has no extension, but behind the position of a batch file it has one, so
the mark of a truncated copy can stand before the job id (`Carries.hidden`). What stands before the last
dot ends with the job id, then, or with no hexadecimal digit at all.
-/

namespace DocumentAi
namespace ObjectNames

def isHexDigit (c : Char) : Bool := ('0' ≤ c && c ≤ '9') || ('a' ≤ c && c ≤ 'f')

def isUuid (s : List Char) : Bool :=
  s.length == 36 &&
    s.zipIdx.all fun (c, i) => if [8, 13, 18, 23].contains i then c == '-' else isHexDigit c

def uploadName (position : Option Nat) (filename jobId : String) : Except Exc String :=
  match position with
  | none     => generateUniqueFilename filename jobId
  | some idx => (generateUniqueFilename filename jobId).map fun name => toString idx ++ "-" ++ name

/-! ## Job ids -/

section
variable {J : List Char}

theorem length_of_isUuid (h : isUuid J = true) : J.length = 36 :=
  beq_iff_eq.1 (Bool.and_eq_true_iff.1 h).1

theorem isHexDigit_or_dash (h : isUuid J = true) {c : Char} (hc : c ∈ J) :
    isHexDigit c = true ∨ c = '-' := by
  obtain ⟨i, hi⟩ := List.mem_iff_getElem?.1 hc
  have hat := List.all_eq_true.1 (Bool.and_eq_true_iff.1 h).2 (c, i) (List.mem_zipIdx_iff_getElem?.2 hi)
  dsimp only at hat
  split at hat
  · exact .inr (beq_iff_eq.1 hat)
  · exact .inl hat

theorem not_mem_of_isUuid (h : isUuid J = true) {c : Char} (hc : isHexDigit c = false)
    (hdash : c ≠ '-') : c ∉ J := by
  intro hmem
  rcases isHexDigit_or_dash h hmem with hhex | hd
  · rw [hc] at hhex
    cases hhex
  · exact hdash hd

theorem isUuid_last (h : isUuid J = true) : ∃ s c, J = s ++ [c] ∧ isHexDigit c = true := by
  have hlen := length_of_isUuid h
  rcases List.eq_nil_or_concat J with rfl | ⟨s, c, rfl⟩
  · cases hlen
  rw [List.concat_eq_append] at h hlen ⊢
  rw [List.length_append, List.length_singleton] at hlen
  have hlast : (s ++ [c])[35]? = some c := by
    rw [List.getElem?_append_right (by omega)]
    have hzero : 35 - s.length = 0 := by omega
    rw [hzero]
    rfl
  have hat := List.all_eq_true.1 (Bool.and_eq_true_iff.1 h).2 (c, 35)
    (List.mem_zipIdx_iff_getElem?.2 hlast)
  exact ⟨s, c, rfl, hat⟩

end

/-! ## Root and extension -/

section
variable {s b e : List Char}

theorem takeWhile_ne_append {sep : Char} (h : sep ∉ s) (t : List Char) :
    (s ++ t).takeWhile (· ≠ sep) = s ++ t.takeWhile (· ≠ sep) := by
  refine List.takeWhile_append_of_pos fun c hc => decide_eq_true ?_
  rintro rfl
  exact h hc

theorem takeWhile_ne_append_cons {sep : Char} (h : sep ∉ s) (t : List Char) :
    (s ++ sep :: t).takeWhile (· ≠ sep) = s := by
  rw [takeWhile_ne_append h]
  simp

/-- What comes after the directory of a path. -/
theorem lastField_directory {dir name : List Char} (hdir : dir = [] ∨ ∃ d, dir = d ++ ['/'])
    (hname : '/' ∉ name) : Chars.lastField '/' (dir ++ name) = name := by
  rcases hdir with rfl | ⟨d, rfl⟩
  · exact Chars.lastField_of_not_mem hname
  · rw [List.append_assoc]
    exact Chars.lastField_append_cons hname

/-- A last dot with something else than dots before it. -/
theorem splitext_of_dot (dir : List Char) (hdir : dir = [] ∨ ∃ d, dir = d ++ ['/'])
    (hb : '/' ∉ b) (he : '/' ∉ e) (hdot : '.' ∉ e) (hstem : ∃ c ∈ b, c ≠ '.') :
    splitext (String.ofList (dir ++ (b ++ '.' :: e))) =
      (String.ofList (dir ++ b), String.ofList ('.' :: e)) := by
  have hslash : '/' ∉ b ++ '.' :: e := by simp [hb, he]
  have hext : (b ++ '.' :: e).reverse.takeWhile (· ≠ '.') = e.reverse := by
    rw [List.reverse_append, List.reverse_cons, List.append_assoc, List.singleton_append]
    exact takeWhile_ne_append_cons (fun h => hdot (List.mem_reverse.1 h)) _
  have hroot : ((b ++ '.' :: e).reverse.drop (e.reverse.length + 1)).reverse = b := by
    rw [List.drop_reverse, List.reverse_reverse]
    simp
  have hany : b.any (· ≠ '.') = true := by
    obtain ⟨c, hc, hne⟩ := hstem
    exact List.any_eq_true.2 ⟨c, hc, decide_eq_true hne⟩
  have htake : (dir ++ (b ++ '.' :: e)).take
      ((dir ++ (b ++ '.' :: e)).length - (e.reverse.length + 1)) = dir ++ b := by
    rw [← List.append_assoc]
    refine List.take_left' ?_
    simp only [List.length_append, List.length_cons, List.length_reverse]
    omega
  simp only [splitext, String.toList_ofList, lastField_directory hdir hslash, hext, hroot, hany,
    if_true, htake, List.reverse_reverse]

/-- No dot, or only dots before the last one. -/
theorem splitext_of_dots (dir : List Char) (hdir : dir = [] ∨ ∃ d, dir = d ++ ['/'])
    (hb : ∀ c ∈ b, c = '.') (he : '/' ∉ e) (hdot : '.' ∉ e) :
    splitext (String.ofList (dir ++ (b ++ e))) = (String.ofList (dir ++ (b ++ e)), "") := by
  have hslash : '/' ∉ b ++ e := by
    intro h
    rcases List.mem_append.1 h with h | h
    · exact absurd (hb _ h) (by decide)
    · exact he h
  have hstem : ((b ++ e).reverse.drop (((b ++ e).reverse.takeWhile (· ≠ '.')).length + 1)).reverse.any
      (· ≠ '.') = false := by
    have hext : (b ++ e).reverse.takeWhile (· ≠ '.') =
        e.reverse ++ b.reverse.takeWhile (· ≠ '.') := by
      rw [List.reverse_append]
      exact takeWhile_ne_append (fun h => hdot (List.mem_reverse.1 h)) _
    rw [hext, List.drop_reverse, List.reverse_reverse, List.any_eq_false]
    intro c hc
    rw [decide_eq_true_eq, not_not]
    rw [List.take_append_of_le_length (by
      simp only [List.length_append, List.length_reverse]
      omega)] at hc
    exact hb c (List.mem_of_mem_take hc)
  simp only [splitext, String.toList_ofList, lastField_directory hdir hslash, hstem,
    Bool.false_eq_true, if_false]

/-- A directory part of a key: empty, or with a slash at its end. -/
def IsDirectory (dir : List Char) : Prop := dir = [] ∨ ∃ d, dir = d ++ ['/']

/-- How a name is taken apart, in whatever directory it stands. -/
inductive Parts (name : List Char) : Prop
  | extension (b e : List Char) (hname : name = b ++ '.' :: e) (hdot : '.' ∉ e)
      (hstem : ∃ c ∈ b, c ≠ '.')
      (hsplit : ∀ dir, IsDirectory dir → splitext (String.ofList (dir ++ name)) =
        (String.ofList (dir ++ b), String.ofList ('.' :: e)))
  | whole (b e : List Char) (hname : name = b ++ e) (hdots : ∀ c ∈ b, c = '.') (hdot : '.' ∉ e)
      (hsplit : ∀ dir, IsDirectory dir → splitext (String.ofList (dir ++ name)) =
        (String.ofList (dir ++ name), ""))

theorem parts {name : List Char} (hslash : '/' ∉ name) : Parts name := by
  by_cases hdot : '.' ∈ name
  · obtain ⟨e, b, hrev, he⟩ := List.eq_append_cons_of_mem (List.mem_reverse.2 hdot)
    have hname : name = b.reverse ++ '.' :: e.reverse := by
      rw [← List.reverse_reverse name, hrev]
      simp
    have hb : '/' ∉ b.reverse := fun h => hslash (hname ▸ List.mem_append_left _ h)
    have he' : '/' ∉ e.reverse := fun h =>
      hslash (hname ▸ List.mem_append_right _ (List.mem_cons_of_mem _ h))
    have hlast : '.' ∉ e.reverse := fun h => he (List.mem_reverse.1 h)
    by_cases hstem : ∃ c ∈ b.reverse, c ≠ '.'
    · exact .extension b.reverse e.reverse hname hlast hstem fun dir hdir =>
        hname ▸ splitext_of_dot dir hdir hb he' hlast hstem
    · have hdots : ∀ c ∈ b.reverse ++ ['.'], c = '.' := by
        intro c hc
        rcases List.mem_append.1 hc with hc | hc
        · by_contra hne
          exact hstem ⟨c, hc, hne⟩
        · exact List.mem_singleton.1 hc
      have hname' : name = (b.reverse ++ ['.']) ++ e.reverse := by
        rw [hname, List.append_assoc]
        rfl
      exact .whole _ _ hname' hdots hlast fun dir hdir =>
        hname' ▸ splitext_of_dots dir hdir hdots he' hlast
  · exact .whole [] name rfl (fun c hc => absurd hc List.not_mem_nil) hdot fun dir hdir =>
      @splitext_of_dots [] _ dir hdir (fun c hc => absurd hc List.not_mem_nil) hslash hdot

def truncatedMark : List Char := ['_', 't', 'r', 'u', 'n', 'c', 'a', 't', 'e', 'd']

theorem getTruncatedObjectKey_of_splitext {key root ext : List Char}
    (h : splitext (String.ofList key) = (String.ofList root, String.ofList ext)) :
    getTruncatedObjectKey (String.ofList key) = String.ofList (root ++ truncatedMark ++ ext) := by
  have hmark : ("_truncated" : String) = String.ofList truncatedMark := by decide
  rw [getTruncatedObjectKey, h, hmark, String.ofList_append, String.ofList_append]

theorem getTruncatedObjectKey_of_bare {key root : List Char}
    (h : splitext (String.ofList key) = (String.ofList root, "")) :
    getTruncatedObjectKey (String.ofList key) = String.ofList (root ++ truncatedMark ++ []) :=
  getTruncatedObjectKey_of_splitext h

/-- The truncated copy lies in the directory of the document. -/
theorem getTruncatedObjectKey_directory {name : List Char} (hslash : '/' ∉ name) :
    ∃ copy, '/' ∉ copy ∧ copy ≠ [] ∧ ∀ dir, IsDirectory dir →
      getTruncatedObjectKey (String.ofList (dir ++ name)) = String.ofList (dir ++ copy) := by
  have hmark : '/' ∉ truncatedMark := by decide
  have hne : truncatedMark ≠ [] := by decide
  cases parts hslash with
  | extension b e hname hdot hstem hsplit =>
    refine ⟨b ++ truncatedMark ++ '.' :: e, ?_, ?_, fun dir hdir => ?_⟩
    · rw [hname] at hslash
      simp only [List.mem_append, List.mem_cons, not_or] at hslash ⊢
      exact ⟨⟨hslash.1, hmark⟩, hslash.2⟩
    · exact List.append_ne_nil_of_right_ne_nil _ (List.cons_ne_nil _ _)
    · rw [getTruncatedObjectKey_of_splitext (hsplit dir hdir), List.append_assoc, List.append_assoc,
        List.append_assoc]
  | whole b e hname hdots hdot hsplit =>
    refine ⟨name ++ truncatedMark, ?_, ?_, fun dir hdir => ?_⟩
    · rw [List.mem_append, not_or]
      exact ⟨hslash, hmark⟩
    · exact List.append_ne_nil_of_right_ne_nil _ hne
    · have hsplit' := hsplit dir hdir
      rw [getTruncatedObjectKey_of_bare hsplit', List.append_nil, List.append_assoc]

/-! ## Keys -/

theorem strip_of_not_mem {s : List Char} (h : '/' ∉ s) : Chars.strip '/' s = s := by
  have hleft : ∀ t : List Char, '/' ∉ t → Chars.stripLeft '/' t = t := by
    intro t ht
    cases t with
    | nil => rfl
    | cons c t =>
      have hc : c ≠ '/' := fun heq => ht (heq ▸ List.mem_cons_self)
      rw [Chars.stripLeft, List.dropWhile_cons, if_neg (by simpa using hc)]
  rw [Chars.strip, hleft s h, Chars.stripRight, hleft s.reverse fun hr => h (List.mem_reverse.1 hr),
    List.reverse_reverse]

theorem joinSlash_concat (ps : List (List Char)) :
    ∃ dir, IsDirectory dir ∧ ∀ p, joinSlash (ps ++ [p]) = dir ++ p := by
  induction ps with
  | nil => exact ⟨[], .inl rfl, fun p => rfl⟩
  | cons q ps ih =>
    obtain ⟨dir, hdir, hjoin⟩ := ih
    refine ⟨q ++ '/' :: dir, ?_, fun p => ?_⟩
    · rcases hdir with rfl | ⟨d, rfl⟩
      · exact .inr ⟨q, rfl⟩
      · exact .inr ⟨q ++ '/' :: d, by simp⟩
    · have hne : ps ++ [p] ≠ [] := by simp
      obtain ⟨r, rs, hrs⟩ := List.exists_cons_of_ne_nil hne
      rw [List.cons_append, hrs, joinSlash, ← hrs, hjoin]
      · simp
      · exact fun h => List.cons_ne_nil _ _ h

/-- Every name lies in one directory of the prefix and the tenant. -/
theorem buildS3Key_directory (pre tenant : String) : ∃ dir, IsDirectory dir ∧
    ∀ name : List Char, '/' ∉ name → name ≠ [] →
      buildS3Key [pre, tenant, String.ofList name] = String.ofList (dir ++ name) := by
  obtain ⟨dir, hdir, hjoin⟩ := joinSlash_concat
    (([pre, tenant].filter (· ≠ "")).map fun p => Chars.strip '/' p.toList)
  refine ⟨dir, hdir, fun name hslash hne => ?_⟩
  have hname : String.ofList name ≠ "" := by
    intro h
    have hlist := congrArg String.toList h
    rw [String.toList_ofList] at hlist
    exact hne hlist
  have hparts : [pre, tenant, String.ofList name].filter (· ≠ "") =
      [pre, tenant].filter (· ≠ "") ++ [String.ofList name] := by
    have happ : [pre, tenant, String.ofList name] = [pre, tenant] ++ [String.ofList name] := rfl
    rw [happ, List.filter_append, List.filter_singleton]
    simp [hname]
  rw [buildS3Key, hparts, List.map_append, List.map_singleton, String.toList_ofList,
    strip_of_not_mem hslash, hjoin]

/-- The truncated key of the full key is the full key of the truncated name. -/
theorem getTruncatedObjectKey_buildS3Key (pre tenant : String) {name : String}
    (hslash : '/' ∉ name.toList) (hne : name ≠ "") :
    getTruncatedObjectKey (buildS3Key [pre, tenant, name]) =
      buildS3Key [pre, tenant, getTruncatedObjectKey name] := by
  obtain ⟨dir, hdir, hkey⟩ := buildS3Key_directory pre tenant
  obtain ⟨copy, hcopy, hcopyne, htrunc⟩ := getTruncatedObjectKey_directory hslash
  have hne' : name.toList ≠ [] := fun h => hne (String.toList_inj.1 h)
  have hplain := htrunc [] (.inl rfl)
  rw [List.nil_append, List.nil_append, String.ofList_toList] at hplain
  have hfull := hkey name.toList hslash hne'
  rw [String.ofList_toList] at hfull
  rw [hfull, htrunc dir hdir, hplain, hkey copy hcopy hcopyne]

end

/-! ## The job id in a name -/

def Marked (t : List Char) : Prop := t = [] ∨ t = truncatedMark

inductive Carries (J : List Char) : List Char → Prop
  | extension (a t e : List Char) (ht : Marked t) (he : '.' ∉ e) :
      Carries J (a ++ J ++ t ++ '.' :: e)
  | hidden (b t c t' : List Char) (hb : ∀ s d, b = s ++ [d] → isHexDigit d = false) (ht : Marked t)
      (hc : '.' ∉ c) (ht' : Marked t') : Carries J (b ++ t ++ '.' :: (c ++ J ++ t'))
  | plain (c t : List Char) (hc : '.' ∉ c) (ht : Marked t) : Carries J (c ++ J ++ t)

def beforeLastDot (x : List Char) : List Char := ((x.reverse.dropWhile (· ≠ '.')).drop 1).reverse

def unmarked (x : List Char) : List Char :=
  if truncatedMark <:+ x then x.take (x.length - truncatedMark.length) else x

def last36 (x : List Char) : List Char := x.drop (x.length - 36)

def jobOf (x : List Char) : List Char :=
  let job := last36 (unmarked (beforeLastDot x))
  if isUuid job then job else last36 (unmarked x)

section
variable {J a b t e x : List Char}

theorem beforeLastDot_of_dot (he : '.' ∉ e) : beforeLastDot (b ++ '.' :: e) = b := by
  have hdrop : (b ++ '.' :: e).reverse.dropWhile (· ≠ '.') = '.' :: b.reverse := by
    rw [List.reverse_append, List.reverse_cons, List.append_assoc, List.singleton_append,
      List.dropWhile_append_of_pos]
    · simp
    · intro c hc
      refine decide_eq_true ?_
      rintro rfl
      exact he (List.mem_reverse.1 hc)
  rw [beforeLastDot, hdrop, List.drop_succ_cons, List.drop_zero, List.reverse_reverse]

theorem beforeLastDot_of_noDot (hx : '.' ∉ x) : beforeLastDot x = [] := by
  have hdrop : x.reverse.dropWhile (· ≠ '.') = [] := by
    rw [List.dropWhile_eq_nil_iff]
    intro c hc
    refine decide_eq_true ?_
    rintro rfl
    exact hx (List.mem_reverse.1 hc)
  rw [beforeLastDot, hdrop]
  rfl

theorem not_mem_marked {c : Char} (ht : Marked t) (hc : c ∉ truncatedMark) : c ∉ t := by
  rcases ht with rfl | rfl
  · exact List.not_mem_nil
  · exact hc

theorem last36_job (hJ : isUuid J = true) : last36 (a ++ J) = J := by
  have hlen := length_of_isUuid hJ
  have hzero : (a ++ J).length - 36 = a.length := by
    rw [List.length_append]
    omega
  rw [last36, hzero, List.drop_left]

theorem unmarked_mark (x : List Char) : unmarked (x ++ truncatedMark) = x := by
  rw [unmarked, if_pos (List.suffix_append _ _), List.length_append, Nat.add_sub_cancel,
    List.take_left]

/-- A job id does not end like the name of a truncated copy. -/
theorem unmarked_job (hJ : isUuid J = true) (ht : Marked t) : unmarked (a ++ J ++ t) = a ++ J := by
  rcases ht with rfl | rfl
  · rw [List.append_nil, unmarked, if_neg]
    intro hsuffix
    have hlen := length_of_isUuid hJ
    have hin : truncatedMark <:+ J :=
      List.suffix_of_suffix_length_le hsuffix (List.suffix_append a J) (by rw [hlen]; decide)
    exact not_mem_of_isUuid hJ (c := '_') (by decide) (by decide) (hin.subset (by decide))
  · exact unmarked_mark _

theorem unmarked_hidden (hb : ∀ s d, b = s ++ [d] → isHexDigit d = false) (ht : Marked t) :
    unmarked (b ++ t) = b := by
  rcases ht with rfl | rfl
  · rw [List.append_nil, unmarked, if_neg]
    rintro ⟨s, rfl⟩
    have hlast := hb (s ++ ['_', 't', 'r', 'u', 'n', 'c', 'a', 't', 'e']) 'd' (by simp [truncatedMark])
    exact absurd hlast (by decide)
  · exact unmarked_mark _

theorem not_isUuid_last36 (hb : ∀ s d, b = s ++ [d] → isHexDigit d = false) :
    isUuid (last36 b) = false := by
  rw [Bool.eq_false_iff]
  intro h
  obtain ⟨s, c, hs, hc⟩ := isUuid_last h
  have hsplit : b = b.take (b.length - 36) ++ s ++ [c] := by
    rw [List.append_assoc, ← hs, last36, List.take_append_drop]
  rw [hb _ c hsplit] at hc
  cases hc

/-- **A name gives away its job id.** -/
theorem jobOf_of_carries (hJ : isUuid J = true) (h : Carries J x) : jobOf x = J := by
  have hdot : '.' ∉ J := not_mem_of_isUuid hJ (by decide) (by decide)
  cases h with
  | extension a t e ht he =>
    have hjob : last36 (unmarked (beforeLastDot (a ++ J ++ t ++ '.' :: e))) = J := by
      rw [beforeLastDot_of_dot he, unmarked_job hJ ht, last36_job hJ]
    rw [jobOf, hjob]
    exact if_pos hJ
  | hidden b t c t' hb ht hc ht' =>
    have htail : '.' ∉ c ++ J ++ t' := by
      simp only [List.mem_append, not_or]
      exact ⟨⟨hc, hdot⟩, not_mem_marked ht' (by decide)⟩
    have hno : isUuid (last36 (unmarked (beforeLastDot (b ++ t ++ '.' :: (c ++ J ++ t'))))) = false := by
      rw [beforeLastDot_of_dot htail, unmarked_hidden hb ht, not_isUuid_last36 hb]
    have hassoc : b ++ t ++ '.' :: (c ++ J ++ t') = (b ++ t ++ '.' :: c) ++ J ++ t' := by simp
    rw [jobOf, hno, hassoc, unmarked_job hJ ht', last36_job hJ]
    exact if_neg Bool.false_ne_true
  | plain c t hc ht =>
    have hnone : '.' ∉ c ++ J ++ t := by
      simp only [List.mem_append, not_or]
      exact ⟨⟨hc, hdot⟩, not_mem_marked ht (by decide)⟩
    rw [jobOf, beforeLastDot_of_noDot hnone, unmarked_job hJ ht, last36_job hJ]
    exact if_neg (by decide)

end

/-! ## Names of uploads and of their copies -/

/-- What stands before the name of a file in a batch. -/
def lead : Option Nat → List Char
  | none     => []
  | some idx => (toString idx).toList ++ ['-']

theorem not_mem_lead (position : Option Nat) {c : Char} (hc : c.isDigit = false) (hdash : c ≠ '-') :
    c ∉ lead position := by
  cases position with
  | none => exact List.not_mem_nil
  | some idx =>
    have hlist : (toString idx).toList = Nat.toDigits 10 idx := Nat.toList_repr
    rw [lead, hlist, List.mem_append, not_or]
    refine ⟨fun h => ?_, fun h => hdash (List.mem_singleton.1 h)⟩
    rw [Nat.isDigit_of_mem_toDigits (by decide) (by decide) h] at hc
    cases hc

theorem lead_last (position : Option Nat) : lead position = [] ∨ ∃ s, lead position = s ++ ['-'] := by
  cases position with
  | none => exact .inl rfl
  | some idx => exact .inr ⟨_, rfl⟩

theorem not_mem_lastField (sep : Char) (s : List Char) : sep ∉ Chars.lastField sep s := by
  rw [Chars.lastField, List.mem_reverse]
  intro h
  simpa using List.mem_takeWhile_imp h

theorem generateUniqueFilename_eq {filename : String} (h : filename ≠ "") (jobId : String) :
    generateUniqueFilename filename jobId =
      .ok ((splitext (basename (sanitizeForS3Key filename))).1 ++ "-" ++ jobId
        ++ (splitext (basename (sanitizeForS3Key filename))).2) := by
  rw [generateUniqueFilename, if_neg h]

theorem uploadName_eq_ok {position : Option Nat} {filename jobId name : String}
    (h : uploadName position filename jobId = .ok name) :
    ∃ base : List Char, '/' ∉ base ∧ name.toList = lead position
      ++ (splitext (String.ofList base)).1.toList ++ '-' :: jobId.toList
      ++ (splitext (String.ofList base)).2.toList := by
  refine ⟨Chars.lastField '/' (sanitizeForS3Key filename).toList, not_mem_lastField _ _, ?_⟩
  have hne : filename ≠ "" := by
    rintro rfl
    cases position <;> cases h
  have hgen := generateUniqueFilename_eq hne jobId
  rw [basename] at hgen
  generalize splitext (String.ofList (Chars.lastField '/' (sanitizeForS3Key filename).toList)) = split
    at hgen ⊢
  cases position with
  | none =>
    rw [← Except.ok.inj (hgen.symm.trans h)]
    simp [lead]
  | some idx =>
    rw [uploadName, hgen] at h
    have heq : toString idx ++ "-" ++ (split.1 ++ "-" ++ jobId ++ split.2) = name :=
      Except.ok.inj h
    rw [← heq]
    simp [lead]

section
variable {p J b e : List Char}

/-- A name with an extension, and its copy. -/
theorem carries_extension (hp : '/' ∉ p) (hJ : isUuid J = true) (hb : '/' ∉ b) (he : '/' ∉ e)
    (hdot : '.' ∉ e) : let name := p ++ b ++ '-' :: J ++ '.' :: e
    '/' ∉ name ∧ Carries J name ∧ Carries J (getTruncatedObjectKey (String.ofList name)).toList := by
  intro name
  have hJslash : '/' ∉ J := not_mem_of_isUuid hJ (by decide) (by decide)
  have hroot : '/' ∉ p ++ b ++ '-' :: J := by simp [hp, hb, hJslash]
  have hsplit := splitext_of_dot [] (.inl rfl) hroot he hdot
    ⟨'-', by simp, by decide⟩
  refine ⟨by simp [name, hp, hb, he, hJslash], ?_, ?_⟩
  · have hname : name = (p ++ b ++ ['-']) ++ J ++ [] ++ '.' :: e := by simp [name]
    exact hname ▸ .extension _ [] e (.inl rfl) hdot
  · have hcopy : (getTruncatedObjectKey (String.ofList name)).toList =
        (p ++ b ++ ['-']) ++ J ++ truncatedMark ++ '.' :: e := by
      rw [List.nil_append] at hsplit
      rw [getTruncatedObjectKey_of_splitext hsplit, String.toList_ofList]
      simp
    exact hcopy ▸ .extension _ truncatedMark e (.inr rfl) hdot

/-- A name without a dot, and its copy. -/
theorem carries_plain (hp : '/' ∉ p) (hpdot : '.' ∉ p) (hJ : isUuid J = true) (he : '/' ∉ e)
    (hdot : '.' ∉ e) : let name := p ++ e ++ '-' :: J
    '/' ∉ name ∧ Carries J name ∧ Carries J (getTruncatedObjectKey (String.ofList name)).toList := by
  intro name
  have hJslash : '/' ∉ J := not_mem_of_isUuid hJ (by decide) (by decide)
  have hJdot : '.' ∉ J := not_mem_of_isUuid hJ (by decide) (by decide)
  have hslash : '/' ∉ name := by simp [name, hp, he, hJslash]
  have hnodot : '.' ∉ name := by simp [name, hpdot, hdot, hJdot]
  have hdot' : '.' ∉ p ++ e ++ ['-'] := by simp [hpdot, hdot]
  have hsplit := splitext_of_dots [] (.inl rfl) (List.forall_mem_nil _) hslash hnodot
  refine ⟨hslash, ?_, ?_⟩
  · have hname : name = (p ++ e ++ ['-']) ++ J ++ [] := by simp [name]
    exact hname ▸ .plain _ [] hdot' (.inl rfl)
  · have hcopy : (getTruncatedObjectKey (String.ofList name)).toList =
        (p ++ e ++ ['-']) ++ J ++ truncatedMark := by
      rw [List.nil_append, List.nil_append] at hsplit
      rw [getTruncatedObjectKey_of_bare hsplit, String.toList_ofList]
      simp [name]
    exact hcopy ▸ .plain _ truncatedMark hdot' (.inr rfl)

/-- A name that starts with dots, behind what stands before it, and its copy. -/
theorem carries_hidden (hp : '/' ∉ p) (hlast : p = [] ∨ ∃ s, p = s ++ ['-'])
    (hJ : isUuid J = true) (hb : ∀ c ∈ b, c = '.') (he : '/' ∉ e) (hdot : '.' ∉ e) :
    let name := p ++ (b ++ ['.'] ++ e) ++ '-' :: J
    '/' ∉ name ∧ Carries J name ∧ Carries J (getTruncatedObjectKey (String.ofList name)).toList := by
  intro name
  have hJslash : '/' ∉ J := not_mem_of_isUuid hJ (by decide) (by decide)
  have hJdot : '.' ∉ J := not_mem_of_isUuid hJ (by decide) (by decide)
  have hbslash : '/' ∉ b := fun h => absurd (hb _ h) (by decide)
  have hdot' : '.' ∉ e ++ ['-'] := by simp [hdot]
  have htail : '.' ∉ e ++ '-' :: J := by simp [hdot, hJdot]
  have htailSlash : '/' ∉ e ++ '-' :: J := by simp [he, hJslash]
  have hbefore : ∀ s d, p ++ b = s ++ [d] → isHexDigit d = false := by
    intro s d heq
    rcases List.eq_nil_or_concat b with rfl | ⟨b', c, rfl⟩
    · rcases hlast with rfl | ⟨s', rfl⟩
      · simp at heq
      · rw [List.append_nil] at heq
        rw [← (List.append_inj' heq rfl).2 |> List.singleton_inj.1]
        decide
    · rw [List.concat_eq_append, ← List.append_assoc] at heq
      have hc : c = d := List.singleton_inj.1 (List.append_inj' heq rfl).2
      rw [← hc, hb c (by simp)]
      decide
  have hname : name = (p ++ b) ++ [] ++ '.' :: ((e ++ ['-']) ++ J ++ []) := by simp [name]
  refine ⟨by simp [name, hp, hbslash, he, hJslash],
    hname ▸ .hidden _ [] _ [] hbefore (.inl rfl) hdot' (.inl rfl), ?_⟩
  rcases hlast with rfl | ⟨s, rfl⟩
  · -- only dots stand before the last one
    have hdots : ∀ c ∈ b ++ ['.'], c = '.' := by
      intro c hc
      rcases List.mem_append.1 hc with hc | hc
      · exact hb c hc
      · exact List.mem_singleton.1 hc
    have hsplit := splitext_of_dots [] (.inl rfl) hdots htailSlash htail
    have hcopy : (getTruncatedObjectKey (String.ofList name)).toList =
        ([] ++ b) ++ [] ++ '.' :: ((e ++ ['-']) ++ J ++ truncatedMark) := by
      have hsame : name = [] ++ (b ++ ['.'] ++ (e ++ '-' :: J)) := by simp [name]
      rw [← hsame] at hsplit
      rw [getTruncatedObjectKey_of_bare hsplit, String.toList_ofList]
      simp [name]
    exact hcopy ▸ .hidden _ [] _ truncatedMark hbefore (.inl rfl) hdot' (.inr rfl)
  · have hroot : '/' ∉ s ++ ['-'] ++ b := by
      rw [List.mem_append, not_or]
      exact ⟨hp, hbslash⟩
    have hsplit := splitext_of_dot [] (.inl rfl) hroot htailSlash htail
      ⟨'-', by simp, by decide⟩
    have hcopy : (getTruncatedObjectKey (String.ofList name)).toList =
        (s ++ ['-'] ++ b) ++ truncatedMark ++ '.' :: ((e ++ ['-']) ++ J ++ []) := by
      have hsame : name = [] ++ (s ++ ['-'] ++ b ++ '.' :: (e ++ '-' :: J)) := by simp [name]
      rw [← hsame] at hsplit
      rw [getTruncatedObjectKey_of_splitext hsplit, String.toList_ofList]
      simp
    exact hcopy ▸ .hidden _ truncatedMark _ [] hbefore (.inr rfl) hdot' (.inl rfl)

end

section
variable {position : Option Nat} {filename jobId name : String}

/-- **The name of an upload and that of its truncated copy carry the job id.** -/
theorem carries_uploadName (hJ : isUuid jobId.toList = true)
    (h : uploadName position filename jobId = .ok name) :
    '/' ∉ name.toList ∧ Carries jobId.toList name.toList ∧
      Carries jobId.toList (getTruncatedObjectKey name).toList := by
  obtain ⟨base, hbase, hname⟩ := uploadName_eq_ok h
  have hlead : '/' ∉ lead position := not_mem_lead position (by decide) (by decide)
  have hleadDot : '.' ∉ lead position := not_mem_lead position (by decide) (by decide)
  rw [← String.ofList_toList (s := name), String.toList_ofList]
  cases parts hbase with
  | extension b e hb hdot hstem hsplit =>
    have hroot := hsplit [] (.inl rfl)
    rw [List.nil_append, List.nil_append] at hroot
    rw [hroot, String.toList_ofList, String.toList_ofList] at hname
    rw [hb, List.mem_append, List.mem_cons, not_or, not_or] at hbase
    rw [hname]
    exact carries_extension hlead hJ hbase.1 hbase.2.2 hdot
  | whole b e hb hdots hdot hsplit =>
    have hroot := hsplit [] (.inl rfl)
    rw [List.nil_append] at hroot
    rw [hroot, String.toList_ofList, String.toList_empty, List.append_nil] at hname
    rw [hb, List.mem_append, not_or] at hbase
    rw [hname, hb]
    rcases List.eq_nil_or_concat b with rfl | ⟨b', c, rfl⟩
    · rw [List.nil_append]
      exact carries_plain hlead hleadDot hJ hbase.2 hdot
    · rw [List.concat_eq_append] at hdots ⊢
      cases hdots c (by simp)
      exact carries_hidden hlead (lead_last position) hJ
        (fun d hd => hdots d (List.mem_append_left _ hd)) hbase.2 hdot

/-- A copy has another name. -/
theorem getTruncatedObjectKey_ne {name : String} (hslash : '/' ∉ name.toList) :
    getTruncatedObjectKey name ≠ name := by
  intro heq
  have hlen := congrArg (fun s => s.toList.length) heq
  rw [← String.ofList_toList (s := name)] at hlen
  have hmark : truncatedMark.length = 10 := rfl
  cases parts hslash with
  | extension b e hb hdot hstem hsplit =>
    have hroot := hsplit [] (.inl rfl)
    rw [List.nil_append, List.nil_append] at hroot
    simp only [getTruncatedObjectKey_of_splitext hroot, String.toList_ofList] at hlen
    rw [hb] at hlen
    simp only [List.length_append, List.length_cons, hmark] at hlen
    omega
  | whole b e hb hdots hdot hsplit =>
    have hroot := hsplit [] (.inl rfl)
    rw [List.nil_append] at hroot
    simp only [getTruncatedObjectKey_of_bare hroot, String.toList_ofList] at hlen
    simp only [List.length_append, List.length_nil, hmark] at hlen
    omega

/-- **Names of uploads with different job ids and of their truncated copies are four different names,
and the truncated key of a full key is the full key of the truncated name.** -/
theorem names_apart_and_copies_placed {position' : Option Nat} {filename' jobId' name' : String}
    (hJ : isUuid jobId.toList = true) (hJ' : isUuid jobId'.toList = true) (hne : jobId ≠ jobId')
    (h : uploadName position filename jobId = .ok name)
    (h' : uploadName position' filename' jobId' = .ok name') :
    [name, getTruncatedObjectKey name, name', getTruncatedObjectKey name'].Nodup ∧
      ∀ pre tenant, getTruncatedObjectKey (buildS3Key [pre, tenant, name]) =
        buildS3Key [pre, tenant, getTruncatedObjectKey name] := by
  obtain ⟨hslash, hname, hcopy⟩ := carries_uploadName hJ h
  obtain ⟨hslash', hname', hcopy'⟩ := carries_uploadName hJ' h'
  have happart : ∀ {x x' : String}, Carries jobId.toList x.toList → Carries jobId'.toList x'.toList →
      x ≠ x' := by
    rintro x _ hx hx' rfl
    exact hne (String.toList_injective
      ((jobOf_of_carries hJ hx).symm.trans (jobOf_of_carries hJ' hx')))
  constructor
  · simp only [List.nodup_cons, List.mem_cons, List.not_mem_nil, or_false, not_or, not_false_eq_true,
      List.nodup_nil, and_true]
    exact ⟨⟨(getTruncatedObjectKey_ne hslash).symm, happart hname hname', happart hname hcopy'⟩,
      ⟨happart hcopy hname', happart hcopy hcopy'⟩, (getTruncatedObjectKey_ne hslash').symm⟩
  · intro pre tenant
    refine getTruncatedObjectKey_buildS3Key pre tenant hslash ?_
    rintro rfl
    exact absurd (jobOf_of_carries hJ hname) (by
      intro hjob
      have hlen := length_of_isUuid hJ
      rw [← hjob] at hlen
      exact absurd hlen (by decide))

end

/-- A file of its own, and the first file of a batch, whose name starts with a dot. -/
theorem names_apart_scan_hidden :
    let jobId := "7c9e6679-7425-40de-944b-e07fc1f90ae7"
    let jobId' := "16fd2706-8baf-433b-82eb-8c7fada847da"
    ∃ name name', uploadName none "scan.pdf" jobId = .ok name ∧
      uploadName (some 0) ".scan" jobId' = .ok name' ∧
      [name, getTruncatedObjectKey name, name', getTruncatedObjectKey name'].Nodup ∧
      ∀ pre tenant, getTruncatedObjectKey (buildS3Key [pre, tenant, name]) =
        buildS3Key [pre, tenant, getTruncatedObjectKey name] := by
  intro jobId jobId'
  have h : uploadName none "scan.pdf" jobId = .ok _ := generateUniqueFilename_eq (by decide) jobId
  obtain ⟨name', h'⟩ : ∃ name', uploadName (some 0) ".scan" jobId' = .ok name' := by
    rw [uploadName, generateUniqueFilename_eq (by decide) jobId']
    exact ⟨_, rfl⟩
  exact ⟨_, name', h, h',
    names_apart_and_copies_placed (by decide) (by decide) (by decide) h h'⟩

end ObjectNames
end DocumentAi
