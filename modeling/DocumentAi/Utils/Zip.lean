import Mathlib.Algebra.GroupWithZero.Nat
import Mathlib.Data.List.Induction
import DocumentAi.Utils.S3

/-!
# ZIP uploads (`utils/zip.py`)

| here | there |
| --- | --- |
| `ZipInfo`, `ZipUpload` | an entry of the central directory with what reading it gives, and the uploaded bytes by their number |
| `readMember`     | `zf.read(name)`: of several entries with one name, the last (`NameToInfo`) |
| `checkLimits`    | the two limits on a total (`:45-57`, `:62-73`); the ratio is compared as integers |
| `extractMember`  | the body of the loop (`:30-78`) |
| `extractFilesFromZip` | `extract_files_from_zip` (`:13-92`) |
| `Accepted`       | the limits and the entries let every member through |

The loop goes over entries but reads by name, so entries that share a name come out with the bytes
of the last of them.
-/

namespace DocumentAi

inductive ZipError where
  | badZipFile
  | exception (msg : String)
deriving DecidableEq

/-- `content` is what opening and decompressing this entry gives. -/
structure ZipInfo where
  filename : String
  fileSize : Nat
  content  : Except ZipError Bytes

structure ZipUpload where
  size     : Nat
  infolist : Except ZipError (List ZipInfo)

def ZipInfo.isDir (info : ZipInfo) : Bool := info.filename.toList.getLast? == some '/'

/-! ## Constants (`constants/defaults.py:6-13`) -/

def maxBatchSize : Nat := 25

def maxZipDecompressionRatio : Nat := 100

def maxZipExtractedBytes : Nat := 500 * 1024 * 1024

/-! ## Extraction -/

def ZipError.toExc : ZipError → Exc
  | badZipFile  => .httpException 400 "Invalid zip file"
  | exception _ => .httpException 500 "Failed to extract zip file"

def getInfo (infolist : List ZipInfo) (name : String) : Option ZipInfo :=
  infolist.reverse.find? fun info => info.filename == name

def readMember (infolist : List ZipInfo) (name : String) : Except ZipError Bytes :=
  match getInfo infolist name with
  | some info => info.content
  | none      => .error (.exception ("There is no item named " ++ name ++ " in the archive"))

def checkLimits (zipSize total : Nat) : Except Exc Unit :=
  if maxZipExtractedBytes < total then
    .error (.httpException 400 "ZIP extracted size exceeds limit")
  else if 0 < zipSize ∧ maxZipDecompressionRatio * zipSize < total then
    .error (.httpException 400 "ZIP decompression ratio exceeds limit")
  else .ok ()

/-- The files so far and `total_extracted`. -/
abbrev Extraction : Type := List UploadFile × Nat

def extractMember (infolist : List ZipInfo) (zipSize maxFiles : Nat) (acc : Extraction)
    (info : ZipInfo) : Except Exc Extraction :=
  if info.isDir then .ok acc
  else if maxFiles ≤ acc.1.length then
    .error (.httpException 400 ("ZIP contains more than " ++ toString maxFiles ++ " files"))
  else do
    checkLimits zipSize (acc.2 + info.fileSize)
    let content ← (readMember infolist info.filename).mapError ZipError.toExc
    let total := acc.2 + content.length
    checkLimits zipSize total
    let file : UploadFile := { filename := some (basename info.filename), bytes := content }
    pure (acc.1 ++ [file], total)

def extractFilesFromZip (zip : ZipUpload) (maxFiles : Nat := maxBatchSize) :
    Except Exc (List UploadFile) := do
  let infolist ← zip.infolist.mapError ZipError.toExc
  let acc ← infolist.foldlM (extractMember infolist zip.size maxFiles) ([], 0)
  pure acc.1

/-! ## Which archives are accepted -/

def WithinLimits (zipSize total : Nat) : Prop :=
  total ≤ maxZipExtractedBytes ∧ (0 < zipSize → total ≤ maxZipDecompressionRatio * zipSize)

def zipMembers (infolist : List ZipInfo) : List ZipInfo := infolist.filter fun info => !info.isDir

section
variable (infolist : List ZipInfo) (zipSize maxFiles : Nat)

/-- The file that comes out for a member. -/
def memberFile (info : ZipInfo) : UploadFile where
  filename := some (basename info.filename)
  bytes    := (readMember infolist info.filename).toOption.getD []

def extractedSize (members : List ZipInfo) : Nat :=
  (members.map fun info => (memberFile infolist info).bytes.length).sum

/-- A member that comes after the members `before` passes. -/
structure Admits (before : List ZipInfo) (info : ZipInfo) : Prop where
  count    : before.length < maxFiles
  declared : WithinLimits zipSize (extractedSize infolist before + info.fileSize)
  readable : ∃ content, readMember infolist info.filename = .ok content
  actual   : WithinLimits zipSize (extractedSize infolist (before ++ [info]))

def AdmitsAll (members : List ZipInfo) : Prop :=
  ∀ before info after, members = before ++ info :: after →
    Admits infolist zipSize maxFiles before info

def Accepted : Prop := AdmitsAll infolist zipSize maxFiles (zipMembers infolist)

end

theorem checkLimits_eq_ok {zipSize total : Nat} :
    checkLimits zipSize total = .ok () ↔ WithinLimits zipSize total := by
  unfold checkLimits WithinLimits
  split
  next h => exact ⟨fun h' => (by cases h'), fun h' => absurd h'.1 (Nat.not_le.2 h)⟩
  next h =>
    split
    next h' =>
      exact ⟨fun h'' => (by cases h''), fun h'' => absurd (h''.2 h'.1) (Nat.not_le.2 h'.2)⟩
    next h' =>
      refine ⟨fun _ => ⟨Nat.not_lt.1 h, fun hpos => Nat.not_lt.1 fun hlt => h' ⟨hpos, hlt⟩⟩, fun _ => rfl⟩

theorem checkLimits_isHttp {zipSize total : Nat} {e : Exc} (h : checkLimits zipSize total = .error e) :
    e.isHttp = true := by
  unfold checkLimits at h
  split at h
  · cases h
    rfl
  · split at h
    · cases h
      rfl
    · cases h

theorem toExc_isHttp (e : ZipError) : e.toExc.isHttp = true := by cases e <;> rfl

section
variable {infolist : List ZipInfo} {zipSize maxFiles : Nat}

theorem extractedSize_concat (members : List ZipInfo) (info : ZipInfo) :
    extractedSize infolist (members ++ [info]) =
      extractedSize infolist members + (memberFile infolist info).bytes.length := by
  simp [extractedSize]

/-- **Step lemma.** A member after the members `before`. -/
theorem extractMember_eq_ok {before : List ZipInfo} {info : ZipInfo} {acc : Extraction}
    (hdir : info.isDir = false) :
    extractMember infolist zipSize maxFiles
        (before.map (memberFile infolist), extractedSize infolist before) info = .ok acc ↔
      Admits infolist zipSize maxFiles before info ∧
        acc = ((before ++ [info]).map (memberFile infolist), extractedSize infolist (before ++ [info])) := by
  have hsize : extractedSize infolist (before ++ [info]) =
      extractedSize infolist before + (memberFile infolist info).bytes.length :=
    extractedSize_concat before info
  unfold extractMember
  rw [hdir, if_neg (by decide), List.length_map]
  by_cases hcount : maxFiles ≤ before.length
  · rw [if_pos hcount]
    exact ⟨fun h => (by cases h), fun h => absurd h.1.count (Nat.not_lt.2 hcount)⟩
  rw [if_neg hcount]
  cases hdeclared : checkLimits zipSize (extractedSize infolist before + info.fileSize) with
  | error e =>
    refine ⟨fun h => (by cases h), fun h => ?_⟩
    rw [checkLimits_eq_ok.2 h.1.declared] at hdeclared
    cases hdeclared
  | ok _ =>
    cases hread : readMember infolist info.filename with
    | error e =>
      refine ⟨fun h => (by cases h), fun h => ?_⟩
      obtain ⟨content, hcontent⟩ := h.1.readable
      rw [hread] at hcontent
      cases hcontent
    | ok content =>
      have hfile : memberFile infolist info =
          { filename := some (basename info.filename), bytes := content } := by
        rw [memberFile, hread]
        rfl
      have hbytes : (memberFile infolist info).bytes.length = content.length := by rw [hfile]
      rw [hbytes] at hsize
      change (checkLimits zipSize (extractedSize infolist before + content.length)).bind _ = _ ↔ _
      rw [← hsize]
      cases hactual : checkLimits zipSize (extractedSize infolist (before ++ [info])) with
      | error e =>
        refine ⟨fun h => (by cases h), fun h => ?_⟩
        rw [checkLimits_eq_ok.2 h.1.actual] at hactual
        cases hactual
      | ok _ =>
        rw [List.map_append, List.map_singleton, hfile]
        constructor
        · intro h
          cases h
          exact ⟨⟨Nat.not_le.1 hcount, checkLimits_eq_ok.1 hdeclared, ⟨content, hread⟩,
            checkLimits_eq_ok.1 hactual⟩, rfl⟩
        · rintro ⟨-, rfl⟩
          rfl

theorem admitsAll_concat {members : List ZipInfo} {info : ZipInfo} :
    AdmitsAll infolist zipSize maxFiles (members ++ [info]) ↔
      AdmitsAll infolist zipSize maxFiles members ∧ Admits infolist zipSize maxFiles members info := by
  constructor
  · intro h
    refine ⟨fun before i after hsplit => h before i (after ++ [info]) ?_, h members info [] rfl⟩
    rw [hsplit, List.append_assoc]
    rfl
  · rintro ⟨hall, hlast⟩ before i after hsplit
    rcases List.eq_nil_or_concat after with rfl | ⟨after', last, rfl⟩
    · obtain ⟨rfl, hlast'⟩ := List.append_inj' hsplit rfl
      cases hlast'
      exact hlast
    · have hsplit' : members ++ [info] = (before ++ i :: after') ++ [last] := by
        rw [hsplit, List.concat_eq_append, List.append_assoc]
        rfl
      obtain ⟨rfl, -⟩ := List.append_inj' hsplit' rfl
      exact hall before i after' rfl

/-- **Run lemma**, by induction on the last member. -/
theorem foldlM_members {members : List ZipInfo} (hdirs : ∀ info ∈ members, info.isDir = false)
    {acc : Extraction} :
    members.foldlM (extractMember infolist zipSize maxFiles) ([], 0) = .ok acc ↔
      AdmitsAll infolist zipSize maxFiles members ∧
        acc = (members.map (memberFile infolist), extractedSize infolist members) := by
  induction members using List.reverseRecOn generalizing acc with
  | nil =>
    constructor
    · intro h
      cases h
      refine ⟨fun before info after hsplit => ?_, rfl⟩
      cases before <;> cases hsplit
    · rintro ⟨-, rfl⟩
      rfl
  | append_singleton members info ih =>
    have hinfo : info.isDir = false := hdirs info (by simp)
    have hmembers : ∀ i ∈ members, i.isDir = false := fun i hi => hdirs i (List.mem_append_left _ hi)
    have ih := fun acc => @ih hmembers acc
    rw [List.foldlM_append, admitsAll_concat]
    cases hrun : members.foldlM (extractMember infolist zipSize maxFiles) ([], 0) with
    | error e =>
      refine ⟨fun h => (by cases h), fun h => ?_⟩
      rw [(ih _).2 ⟨h.1.1, rfl⟩] at hrun
      cases hrun
    | ok acc' =>
      obtain ⟨hall, rfl⟩ := (ih _).1 hrun
      change ([info] : List ZipInfo).foldlM (extractMember infolist zipSize maxFiles)
        (members.map (memberFile infolist), extractedSize infolist members) = _ ↔ _
      simp only [List.foldlM_cons, List.foldlM_nil, bind_pure]
      rw [extractMember_eq_ok hinfo]
      exact ⟨fun h => ⟨⟨hall, h.1⟩, h.2⟩, fun h => ⟨h.1.2, h.2⟩⟩

/-- Directories are passed over. -/
theorem foldlM_zipMembers (all : List ZipInfo) (infos : List ZipInfo) (acc : Extraction) :
    infos.foldlM (extractMember all zipSize maxFiles) acc =
      (zipMembers infos).foldlM (extractMember all zipSize maxFiles) acc := by
  induction infos generalizing acc with
  | nil => rfl
  | cons info infos ih =>
    rw [List.foldlM_cons, zipMembers, List.filter_cons]
    cases hdir : info.isDir with
    | true =>
      have hskip : extractMember all zipSize maxFiles acc info = .ok acc := if_pos hdir
      rw [hskip]
      exact ih acc
    | false =>
      rw [Bool.not_false, if_pos rfl, List.foldlM_cons]
      exact congrArg _ (funext ih)

/-! ## Is an accepted archive extracted as it is? -/

/-- Members with one name have one content. -/
def NoClash (infolist : List ZipInfo) : Prop :=
  ∀ info ∈ zipMembers infolist, ∀ info' ∈ zipMembers infolist, info.filename = info'.filename →
    info.content = info'.content

structure Faithful (infolist : List ZipInfo) (zipSize maxFiles : Nat) (files : List UploadFile) : Prop where
  bytes : List.Forall₂ (fun info file => info.content = .ok file.bytes) (zipMembers infolist) files
  count : files.length ≤ maxFiles
  total : WithinLimits zipSize (files.map fun file => file.bytes.length).sum

/-- The files are faithful and within the limits, or the archive is refused as a whole. -/
def ExtractsFaithfully (zip : ZipUpload) (maxFiles : Nat) : Prop :=
  match extractFilesFromZip zip maxFiles with
  | .ok files => ∃ infolist, zip.infolist = .ok infolist ∧ Faithful infolist zip.size maxFiles files
  | .error e  => e.isHttp = true

/-- The last entry of a name is one of the entries. -/
theorem mem_of_getInfo {name : String} {info : ZipInfo} (h : getInfo infolist name = some info) :
    info ∈ infolist ∧ info.filename = name :=
  ⟨List.mem_reverse.1 (List.mem_of_find?_eq_some h), by simpa using List.find?_some h⟩

theorem getInfo_isSome {info : ZipInfo} (h : info ∈ infolist) :
    ∃ last ∈ infolist, getInfo infolist info.filename = some last ∧ last.filename = info.filename := by
  cases hget : getInfo infolist info.filename with
  | none =>
    have hnone := List.find?_eq_none.1 hget info (List.mem_reverse.2 h)
    simp at hnone
  | some last => exact ⟨last, (mem_of_getInfo hget).1, rfl, (mem_of_getInfo hget).2⟩

theorem mem_zipMembers {info : ZipInfo} :
    info ∈ zipMembers infolist ↔ info ∈ infolist ∧ info.isDir = false := by
  simp [zipMembers]

/-- Reading by name gives each member its own content exactly when no two members clash. -/
theorem readMember_eq_content :
    (∀ info ∈ zipMembers infolist, readMember infolist info.filename = info.content) ↔
      NoClash infolist := by
  constructor
  · intro h info hinfo info' hinfo' hname
    rw [← h info hinfo, ← h info' hinfo', hname]
  · intro h info hinfo
    obtain ⟨hmem, hdir⟩ := mem_zipMembers.1 hinfo
    obtain ⟨last, hlast, hget, hname⟩ := getInfo_isSome hmem
    have hlastDir : last.isDir = false := by rw [ZipInfo.isDir, hname, ← ZipInfo.isDir, hdir]
    rw [readMember, hget]
    exact h last (mem_zipMembers.2 ⟨hlast, hlastDir⟩) info hinfo hname

theorem Accepted.readable (h : Accepted infolist zipSize maxFiles) :
    ∀ info ∈ zipMembers infolist, ∃ content, readMember infolist info.filename = .ok content := by
  intro info hinfo
  obtain ⟨before, after, hsplit⟩ := List.append_of_mem hinfo
  exact (h before info after hsplit).readable

/-- What comes out of an accepted archive. -/
theorem Accepted.faithful_iff (h : Accepted infolist zipSize maxFiles) :
    Faithful infolist zipSize maxFiles ((zipMembers infolist).map (memberFile infolist)) ↔
      NoClash infolist := by
  have hbytes : ∀ info ∈ zipMembers infolist,
      (info.content = .ok (memberFile infolist info).bytes ↔
        readMember infolist info.filename = info.content) := by
    intro info hinfo
    obtain ⟨content, hcontent⟩ := h.readable info hinfo
    rw [memberFile, hcontent]
    exact eq_comm
  rw [← readMember_eq_content]
  constructor
  · intro hf info hinfo
    have hall := List.forall₂_map_right_iff.1 hf.bytes
    exact (hbytes info hinfo).1 (List.forall₂_same.1 hall info hinfo)
  · intro hread
    have hcount : (zipMembers infolist).length ≤ maxFiles ∧
        WithinLimits zipSize (extractedSize infolist (zipMembers infolist)) := by
      rcases List.eq_nil_or_concat (zipMembers infolist) with hnil | ⟨before, last, hsplit⟩
      · rw [hnil]
        exact ⟨Nat.zero_le _, Nat.zero_le _, fun _ => Nat.zero_le _⟩
      · rw [List.concat_eq_append] at hsplit
        have hlast := h before last [] hsplit
        rw [hsplit]
        refine ⟨?_, hlast.actual⟩
        rw [List.length_append]
        exact hlast.count
    refine ⟨?_, ?_, ?_⟩
    · exact List.forall₂_map_right_iff.2 (List.forall₂_same.2 fun info hinfo =>
        (hbytes info hinfo).2 (hread info hinfo))
    · rw [List.length_map]
      exact hcount.1
    · rw [List.map_map]
      exact hcount.2

theorem extractMember_isHttp {acc : Extraction} {info : ZipInfo} {e : Exc}
    (h : extractMember infolist zipSize maxFiles acc info = .error e) : e.isHttp = true := by
  unfold extractMember at h
  split at h
  · cases h
  split at h
  · cases h
    rfl
  cases hdeclared : checkLimits zipSize (acc.2 + info.fileSize) with
  | error e' =>
    rw [hdeclared] at h
    cases h
    exact checkLimits_isHttp hdeclared
  | ok _ =>
    cases hread : readMember infolist info.filename with
    | error e' =>
      rw [hdeclared, hread] at h
      cases h
      exact toExc_isHttp e'
    | ok content =>
      rw [hdeclared, hread] at h
      change (checkLimits zipSize (acc.2 + content.length)).bind _ = _ at h
      cases hactual : checkLimits zipSize (acc.2 + content.length) with
      | error e' =>
        rw [hactual] at h
        cases h
        exact checkLimits_isHttp hactual
      | ok _ =>
        rw [hactual] at h
        cases h

theorem foldlM_isHttp : ∀ {infos : List ZipInfo} {acc : Extraction} {e : Exc},
    infos.foldlM (extractMember infolist zipSize maxFiles) acc = .error e → e.isHttp = true
  | [], acc, e, h            => by cases h
  | info :: infos, acc, e, h => by
    rw [List.foldlM_cons] at h
    cases hstep : extractMember infolist zipSize maxFiles acc info with
    | error e' =>
      rw [hstep] at h
      cases h
      exact extractMember_isHttp hstep
    | ok acc' =>
      rw [hstep] at h
      exact foldlM_isHttp h

/-- An archive is extracted exactly when it is accepted. -/
theorem extractFilesFromZip_eq_ok {zip : ZipUpload} (hzip : zip.infolist = .ok infolist)
    {files : List UploadFile} : extractFilesFromZip zip maxFiles = .ok files ↔
      Accepted infolist zip.size maxFiles ∧
        files = (zipMembers infolist).map (memberFile infolist) := by
  have hdirs : ∀ info ∈ zipMembers infolist, info.isDir = false :=
    fun info hinfo => (mem_zipMembers.1 hinfo).2
  have hrun : extractFilesFromZip zip maxFiles =
      (infolist.foldlM (extractMember infolist zip.size maxFiles) ([], 0)).map Prod.fst := by
    rw [extractFilesFromZip, hzip]
    rfl
  rw [hrun, foldlM_zipMembers]
  cases hfold : (zipMembers infolist).foldlM (extractMember infolist zip.size maxFiles) ([], 0) with
  | error e =>
    refine ⟨fun h => (by cases h), fun h => ?_⟩
    rw [(foldlM_members hdirs).2 ⟨h.1, rfl⟩] at hfold
    cases hfold
  | ok acc =>
    obtain ⟨hall, rfl⟩ := (foldlM_members hdirs).1 hfold
    constructor
    · intro h
      exact ⟨hall, (Except.ok.inj h).symm⟩
    · rintro ⟨-, rfl⟩
      rfl

theorem extractFilesFromZip_isHttp {zip : ZipUpload} {e : Exc}
    (h : extractFilesFromZip zip maxFiles = .error e) : e.isHttp = true := by
  rw [extractFilesFromZip] at h
  cases hzip : zip.infolist with
  | error e' =>
    rw [hzip] at h
    cases h
    exact toExc_isHttp e'
  | ok infolist =>
    rw [hzip] at h
    change (infolist.foldlM (extractMember infolist zip.size maxFiles) ([], 0)).bind _ = _ at h
    cases hfold : infolist.foldlM (extractMember infolist zip.size maxFiles) ([], 0) with
    | error e' =>
      rw [hfold] at h
      cases h
      exact foldlM_isHttp hfold
    | ok acc =>
      rw [hfold] at h
      cases h

/-- **Extraction is faithful exactly when the archive is refused by the limits or by an entry that
cannot be read, or no two members with one name differ in their bytes.** -/
theorem extractsFaithfully_iff (zip : ZipUpload) (maxFiles : Nat) :
    ExtractsFaithfully zip maxFiles ↔ ∀ infolist, zip.infolist = .ok infolist →
      Accepted infolist zip.size maxFiles → NoClash infolist := by
  unfold ExtractsFaithfully
  cases hrun : extractFilesFromZip zip maxFiles with
  | error e =>
    refine ⟨fun _ infolist hzip haccepted => ?_, fun _ => extractFilesFromZip_isHttp hrun⟩
    rw [(extractFilesFromZip_eq_ok hzip).2 ⟨haccepted, rfl⟩] at hrun
    cases hrun
  | ok files =>
    constructor
    · rintro ⟨infolist, hzip, hfaithful⟩ infolist' hzip' haccepted
      obtain rfl := Except.ok.inj (hzip.symm.trans hzip')
      obtain ⟨-, rfl⟩ := (extractFilesFromZip_eq_ok hzip).1 hrun
      exact haccepted.faithful_iff.1 hfaithful
    · intro h
      cases hzip : zip.infolist with
      | error e =>
        rw [extractFilesFromZip, hzip] at hrun
        cases hrun
      | ok infolist =>
        obtain ⟨haccepted, rfl⟩ := (extractFilesFromZip_eq_ok hzip).1 hrun
        exact ⟨infolist, rfl, haccepted.faithful_iff.2 (h infolist hzip haccepted)⟩

end

/-! ## Two members of one name -/

/-- `a.txt` twice, with different bytes. -/
def twoDrafts : ZipUpload where
  size     := 200
  infolist := .ok [⟨"a.txt", 1, .ok [1]⟩, ⟨"a.txt", 1, .ok [2]⟩]

theorem zip_loses_member : ¬ ∀ (zip : ZipUpload) (maxFiles : Nat), ExtractsFaithfully zip maxFiles := by
  intro hall
  have hfiles : (extractFilesFromZip twoDrafts maxBatchSize).toOption.map (·.map (·.bytes)) =
      some [[2], [2]] := by decide +kernel
  have hfaithful := hall twoDrafts maxBatchSize
  unfold ExtractsFaithfully at hfaithful
  cases hrun : extractFilesFromZip twoDrafts maxBatchSize with
  | error e =>
    rw [hrun] at hfiles
    cases hfiles
  | ok files =>
    rw [hrun] at hfiles hfaithful
    obtain ⟨infolist, hzip, hbytes, -, -⟩ := hfaithful
    cases hzip
    have hfirst : files.map (·.bytes) = [[2], [2]] := Option.some.inj hfiles
    cases hbytes with
    | cons hhead _ =>
      rw [List.map_cons] at hfirst
      rw [(List.cons.inj hfirst).1] at hhead
      cases hhead

end DocumentAi
