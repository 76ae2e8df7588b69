import Mathlib.Data.List.Basic

/-!
# CSV after RFC 4180

| here | there |
| --- | --- |
| `read`      | `file = record *(CRLF record) [CRLF]`, `record = field *(COMMA field)` |
| `field s`   | `escaped = DQUOTE *(TEXTDATA / COMMA / CR / LF / 2DQUOTE) DQUOTE` |
| `file`      | records one after the other, every field escaped, no line end after the last |

The reader goes through the text once. What a character adds is put before what the rest of the text
gives, so `read` at a place inside a field answers with the rest of that field first.

`read_file`: a file of escaped fields is read back. A record has a field at least, so no text is
read as a record without fields (`ne_nil_of_read`).
-/

namespace Csv

abbrev Record : Type := List (List Char)

/-- Where the reader stands: before a field, in a bare one, in an escaped one, after a quote in an
escaped one, after a CR, after a CRLF. -/
inductive Place where
  | start | bare | escaped | quote | carriage | line
deriving DecidableEq

/-- What a character does: nothing, belong to the field, end the field, end the record. -/
inductive Mark where
  | skip | text | endField | endRecord

def Mark.apply (c : Char) : Mark → List Record → List Record
  | .skip, rs                     => rs
  | .text, (field :: r) :: rs     => ((c :: field) :: r) :: rs
  | .text, rs                     => rs
  | .endField, r :: rs            => ([] :: r) :: rs
  | .endField, []                 => []
  | .endRecord, rs                => [[]] :: rs

/-- A character outside quotes that is no quote. -/
def unquoted (c : Char) : Option (Place × Mark) :=
  if c = ',' then some (.start, .endField)
  else if c = '\r' then some (.carriage, .skip)
  else if c = '\n' then none
  else some (.bare, .text)

def afterQuote (c : Char) : Option (Place × Mark) :=
  if c = ',' then some (.start, .endField)
  else if c = '\r' then some (.carriage, .skip)
  else none

def step (c : Char) : Place → Option (Place × Mark)
  | .start | .line => if c = '"' then some (.escaped, .skip) else unquoted c
  | .bare          => if c = '"' then none else unquoted c
  | .escaped       => if c = '"' then some (.quote, .skip) else some (.escaped, .text)
  | .quote         => if c = '"' then some (.escaped, .text) else afterQuote c
  | .carriage      => if c = '\n' then some (.line, .endRecord) else none

/-- The end of the text. -/
def finish : Place → Option (List Record)
  | .start | .bare | .quote => some [[[]]]
  | .line                   => some []
  | .escaped | .carriage    => none

def read : Place → List Char → Option (List Record)
  | p, []      => finish p
  | p, c :: cs => (step c p).bind fun (q, m) => (read q cs).map (m.apply c)

def parse (text : List Char) : Option (List Record) := read .start text

/-! ## Writing -/

def doubled (s : List Char) : List Char := s.flatMap fun c => if c = '"' then ['"', '"'] else [c]

def field (s : List Char) : List Char := '"' :: (doubled s ++ ['"'])

def record (r : Record) : List Char := [','].intercalate (r.map field)

def file (rs : List Record) : List Char := ['\r', '\n'].intercalate (rs.map record)

/-! ## Reading what was written -/

/-- `s` stands before what is read, in the field that is open. -/
def onto (s : List Char) : List Record → List Record
  | (f :: r) :: rs => ((s ++ f) :: r) :: rs
  | rs             => rs

theorem onto_nil (rs : List Record) : onto [] rs = rs := by
  cases rs with
  | nil => rfl
  | cons r rs => cases r <;> rfl

theorem apply_text_onto (c : Char) (s : List Char) (rs : List Record) :
    Mark.text.apply c (onto s rs) = onto (c :: s) rs := by
  cases rs with
  | nil => rfl
  | cons r rs => cases r <;> rfl

theorem read_cons {c : Char} {p q : Place} {m : Mark} (h : step c p = some (q, m))
    (cs : List Char) : read p (c :: cs) = (read q cs).map (m.apply c) := by
  rw [read, h, Option.bind_some]

theorem read_cons_skip {c : Char} {p q : Place} (h : step c p = some (q, .skip))
    (cs : List Char) : read p (c :: cs) = read q cs := by
  rw [read_cons h]
  exact Option.map_id'

theorem read_escaped (s cs : List Char) :
    read .escaped (doubled s ++ '"' :: cs) = (read .quote cs).map (onto s) := by
  induction s with
  | nil =>
    rw [doubled, List.flatMap_nil, List.nil_append, read_cons_skip rfl, funext onto_nil]
    exact Option.map_id'.symm
  | cons c s ih =>
    have hrest : (read .escaped (doubled s ++ '"' :: cs)).map (Mark.text.apply c)
        = (read .quote cs).map (onto (c :: s)) := by
      rw [ih, Option.map_map]
      congr 1
      funext rs
      exact apply_text_onto c s rs
    by_cases hc : c = '"'
    · have hd : doubled (c :: s) ++ '"' :: cs = '"' :: '"' :: (doubled s ++ '"' :: cs) := by
        simp [doubled, hc]
      rw [hd, read_cons_skip (q := .quote) rfl, read_cons (q := .escaped) (m := .text) rfl, ← hrest, hc]
    · have hd : doubled (c :: s) ++ '"' :: cs = c :: (doubled s ++ '"' :: cs) := by
        simp [doubled, hc]
      have hstep : step c .escaped = some (.escaped, .text) := if_neg hc
      rw [hd, read_cons hstep, hrest]

theorem read_field {p : Place} (hp : p = .start ∨ p = .line) (s cs : List Char) :
    read p (field s ++ cs) = (read .quote cs).map (onto s) := by
  have hstep : step '"' p = some (.escaped, .skip) := by rcases hp with rfl | rfl <;> rfl
  have happ : field s ++ cs = '"' :: (doubled s ++ '"' :: cs) := by simp [field]
  rw [happ, read_cons_skip hstep, read_escaped]

theorem read_quote_comma (cs : List Char) :
    read .quote (',' :: cs) = (read .start cs).map (Mark.endField.apply ',') :=
  read_cons (m := .endField) rfl cs

theorem read_quote_crlf (cs : List Char) :
    read .quote ('\r' :: '\n' :: cs) = (read .line cs).map ([[]] :: ·) := by
  rw [read_cons_skip (q := .carriage) rfl]
  exact read_cons (m := .endRecord) rfl cs

/-- A record of escaped fields, with the end of the text or a line end after it. -/
theorem read_record {p : Place} (hp : p = .start ∨ p = .line) {r : Record} (hr : r ≠ [])
    {cs : List Char} {rs : List Record} (hcs : read .quote cs = some ([[]] :: rs)) :
    read p (record r ++ cs) = some (r :: rs) := by
  induction r generalizing p with
  | nil => exact absurd rfl hr
  | cons s r ih =>
    cases r with
    | nil =>
      rw [record, List.map_singleton, List.intercalate_singleton, read_field hp, hcs, Option.map_some,
        onto, List.append_nil]
    | cons s' r =>
      have hsplit : record (s :: s' :: r) ++ cs = field s ++ ',' :: (record (s' :: r) ++ cs) := by
        simp [record, List.intercalate_cons_cons]
      rw [hsplit, read_field hp, read_quote_comma, ih (.inl rfl) (List.cons_ne_nil _ _)]
      simp only [Option.map_some, Mark.apply, onto, List.append_nil]

theorem read_records {p : Place} (hp : p = .start ∨ p = .line) {rs : List Record} (hrs : rs ≠ [])
    (hr : ∀ r ∈ rs, r ≠ []) : read p (file rs) = some rs := by
  induction rs generalizing p with
  | nil => exact absurd rfl hrs
  | cons r rs ih =>
    have hhead := hr r List.mem_cons_self
    cases rs with
    | nil =>
      have hone : read p (record r ++ []) = some [r] := read_record hp hhead rfl
      rw [List.append_nil] at hone
      rw [file, List.map_singleton, List.intercalate_singleton]
      exact hone
    | cons r' rs =>
      have hsplit : file (r :: r' :: rs) = record r ++ '\r' :: '\n' :: file (r' :: rs) := by
        simp [file, List.intercalate_cons_cons]
      rw [hsplit]
      refine read_record hp hhead ?_
      rw [read_quote_crlf, ih (.inr rfl) (List.cons_ne_nil _ _)
        fun q hq => hr q (List.mem_cons_of_mem _ hq)]
      rfl

/-- **A file of escaped fields is read back.** -/
theorem parse_file {rs : List Record} (hrs : rs ≠ []) (hr : ∀ r ∈ rs, r ≠ []) :
    parse (file rs) = some rs :=
  read_records (.inl rfl) hrs hr

/-! ## Records have fields -/

theorem ne_nil_of_read {cs : List Char} {p : Place} {rs : List Record} (h : read p cs = some rs) :
    ∀ r ∈ rs, r ≠ [] := by
  induction cs generalizing p rs with
  | nil =>
    intro r hr
    have hrs : rs = [[[]]] ∨ rs = [] := by
      cases p <;> cases h <;> simp
    rcases hrs with rfl | rfl
    · cases List.mem_singleton.1 hr
      exact List.cons_ne_nil _ _
    · exact absurd hr List.not_mem_nil
  | cons c cs ih =>
    rw [read, Option.bind_eq_some_iff] at h
    obtain ⟨⟨q, m⟩, -, hrest⟩ := h
    obtain ⟨rest, hread, rfl⟩ := Option.map_eq_some_iff.1 hrest
    have hne := ih hread
    intro r hr
    cases m with
    | skip => exact hne r hr
    | text =>
      cases rest with
      | nil => exact absurd hr List.not_mem_nil
      | cons r' rest =>
        cases r' with
        | nil => exact absurd rfl (hne [] List.mem_cons_self)
        | cons f r' =>
          rcases List.mem_cons.1 hr with rfl | hr
          · exact List.cons_ne_nil _ _
          · exact hne r (List.mem_cons_of_mem _ hr)
    | endField =>
      cases rest with
      | nil => exact absurd hr List.not_mem_nil
      | cons r' rest =>
        rcases List.mem_cons.1 hr with rfl | hr
        · exact List.cons_ne_nil _ _
        · exact hne r (List.mem_cons_of_mem _ hr)
    | endRecord =>
      rcases List.mem_cons.1 hr with rfl | hr
      · exact List.cons_ne_nil _ _
      · exact hne r hr

end Csv
