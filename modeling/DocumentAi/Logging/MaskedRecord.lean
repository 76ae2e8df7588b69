import DocumentAi.Lib.Dict
import DocumentAi.Lib.Percent
import DocumentAi.Logging.PiiMasking

/-!
# A masked log record and its message (`logging/pii.py:36-53`, `:113-132`)

| here | there |
| --- | --- |
| `maskPiiForKey` | `_mask_pii_for_key`, with `ALLOW_NO_MASK` and `_PII_FIELD_DENY_LIST` |
| `masked`        | `_mask_pii`; the masked text is a `str` |
| `maskRecord`    | `mask_pii`; iterating over a mapping gives its keys |
| `getMessage`    | `LogRecord.getMessage`: the template alone when `args` is empty |
| `Formatter`, `formatRecord` | `logging.Formatter.format` with its default layout, the message alone: the traceback of `exc_info` is made once and kept in `exc_text`, then comes `stack_info` |
| `expected`      | the message with the template and each argument masked, a mapping by its values |

Both formatters (`logging/formatters.py:74-107`) begin with `Formatter.format`; what they do then
takes a text for any attribute.

`unbroken_iff` says which records survive. Three kinds do not: an argument whose masked text meets a
conversion that needs a number, a mapping, of which the filter leaves a tuple of keys, and an
exception whose text is masked, of which `formatException` needs the three parts.
-/

namespace DocumentAi.Pii

open Percent (Values Args Mapping Item Conversion Fits Replaces parse conversions format texts weave
  showOne)
open Subst (Piece Scan orig shown sub)

/-! ## The filter -/

def allowNoMask : List String :=
  ["account_key", "count", "created", "hostname", "process", "thread"]

def piiFieldDenyList : List String :=
  ["first_name", "last_name", "full_name", "name", "given_name", "surname", "middle_name",
   "ssn", "tin", "license_number", "dl_number", "driver_license_number", "passport_number",
   "document_number", "id_number",
   "address", "street_address", "date_of_birth", "dob"]

/-- `str.lower`, as far as it can lead into the deny list. -/
def lowered (key : String) : String := String.ofList (key.toList.map Char.toLower)

/-- `args` is kept apart from the other attributes. -/
structure LogRecord (V : Type) where
  attrs : List (String × V)
  args  : Args V

section
variable {V : Type} (U : UnicodeClasses) (F : Values V)

def masked (value : V) : V := Sum.elim id F.ofStr (maskPii U F.str value)

def maskPiiForKey (key : String) (value : V) : V :=
  if key ∈ allowNoMask then value
  else if lowered key ∈ piiFieldDenyList then F.ofStr "*********"
  else masked U F value

/-- `tuple(map(_mask_pii, args))`. -/
def maskArgs : Args V → Args V
  | .tuple vs  => .tuple (vs.map (masked U F))
  | .mapping m => .tuple (m.keys.map (masked U F))

def maskRecord (record : LogRecord V) : LogRecord V where
  attrs := record.attrs.map fun e => (e.1, maskPiiForKey U F e.1 e.2)
  args  := maskArgs U F record.args

def getMessage (record : LogRecord V) : Option (List Char) :=
  (record.attrs.lookup "msg").bind fun msg =>
    if record.args.isEmpty then some (F.str msg).toList
    else format F (F.str msg).toList record.args

/-! ## The formatter -/

/-- What `Formatter.format` asks of a value: `bool(v)`, the text that `+` puts behind a text, and
`formatException`, which raises when a part of the exception is missing or of another type. -/
structure Formatter (F : Values V) where
  truthy          : V → Bool
  text            : V → Option String
  formatException : V → Option String
  truthy_ofStr          : ∀ s, truthy (F.ofStr s) = decide (s ≠ "")
  text_ofStr            : ∀ s, text (F.ofStr s) = some s
  formatException_ofStr : ∀ s, formatException (F.ofStr s) = none

variable {F} (P : Formatter F)

def appendLine (s : List Char) (text : String) : List Char :=
  (if s.getLast? = some '\n' then s else s ++ ['\n']) ++ text.toList

def formatTraceback (exc excText : V) (s : List Char) : Option (List Char) :=
  if P.truthy excText then (P.text excText).map (appendLine s)
  else if P.truthy exc then
    (P.formatException exc).map fun t => if t = "" then s else appendLine s t
  else some s

def formatStack (stack : V) (s : List Char) : Option (List Char) :=
  if P.truthy stack then (P.text stack).map (appendLine s) else some s

def formatRecord (record : LogRecord V) : Option (List Char) := do
  let s ← getMessage F record
  let exc ← record.attrs.lookup "exc_info"
  let excText ← record.attrs.lookup "exc_text"
  let stack ← record.attrs.lookup "stack_info"
  let s ← formatTraceback P exc excText s
  formatStack P stack s

variable (F)

/-! ## What the message should be -/

def expected (record : LogRecord V) : Option (List Char) :=
  getMessage F ⟨(maskRecord U F record).attrs, record.args.map (masked U F)⟩

/-- A record that has a message has the expected one after the filter. -/
def MessageKept (record : LogRecord V) : Prop :=
  getMessage F record ≠ none →
    ∃ message, getMessage F (maskRecord U F record) = some message ∧
      expected U F record = some message

/-- And it is still formatted. -/
def Unbroken (P : Formatter F) (record : LogRecord V) : Prop :=
  MessageKept U F record ∧
    (formatRecord P record ≠ none → formatRecord P (maskRecord U F record) ≠ none)

/-- The conversions of a template for a tuple. -/
def conversionsOf (template : List Char) : Option (List Conversion) :=
  (parse false template).map conversions

/-- The masks stay clear of the conversions of the template, and
- of a tuple, only `%s`, `%r` and `%a` take values that are masked;
- of a mapping, there is one key, and the one conversion shows it as it shows the mapping. -/
def Spared (template : List Char) : Args V → Prop
  | .tuple vs  => vs = [] ∨ ∃ cs, conversionsOf template = some cs ∧
      conversionsOf (maskText U template) = some cs ∧ Fits (masked U F) cs vs
  | .mapping m => m.keys = [] ∨ ∃ c k text, m.keys = [k] ∧ c.spec.key = none ∧
      conversionsOf template = some [c] ∧ conversionsOf (maskText U template) = some [c] ∧
        showOne F c (masked U F k) = some text ∧ showOne F c (masked U F m.whole) = some text

/-- The mask finds nothing in the text of `exc_info`, or the traceback has been made before. -/
def TracebackSpared (P : Formatter F) (record : LogRecord V) : Prop :=
  ∀ exc excText, record.attrs.lookup "exc_info" = some exc →
    record.attrs.lookup "exc_text" = some excText →
      maskText U (F.str exc).toList = (F.str exc).toList ∨ P.truthy (masked U F excText) = true

end

/-! ## The texts -/

section
variable {V : Type} {U : UnicodeClasses} {F : Values V}

theorem percent_not_mem_tin {n : Nat} {m : List Char} (h : TinShape n m) : '%' ∉ m := by
  intro hm
  rcases h.mem '%' hm with hd | hd
  · cases hd
  · cases hd

theorem percent_not_mem_passport {m : List Char} (h : PassportShape U m) : '%' ∉ m := by
  intro hm
  rcases h.mem '%' hm with hd | hd
  · cases hd
  · rw [U.digit_ascii '%' (by decide)] at hd
    cases hd

/-- The two substitutions as pieces. -/
theorem exists_pieces (U : UnicodeClasses) (s : List Char) :
    ∃ P₁ P₂, Scan TinMatch [] s P₁ ∧ Scan (PassportMatch U) [] (shown stars P₁) P₂ ∧
      maskText U s = shown stars P₂ := by
  obtain ⟨P₁, h₁, hsub₁⟩ := Subst.scan_sub implements_findTin stars s.length [] s le_rfl
  obtain ⟨P₂, h₂, hsub₂⟩ := Subst.scan_sub (implements_findPassport U) stars
    (shown stars P₁).length [] (shown stars P₁) le_rfl
  refine ⟨P₁, P₂, h₁, h₂, ?_⟩
  rw [maskText, hsub₁, hsub₂]

/-- Masked templates that can be read have the conversions they had before. -/
theorem exists_parse_template {template : List Char} {items : List Item}
    (h : parse false (maskText U template) = some items) :
    ∃ items', parse false template = some items' ∧ conversions items' = conversions items := by
  obtain ⟨P₁, P₂, h₁, h₂, hmask⟩ := exists_pieces U template
  have hno : '%' ∉ stars := by decide
  rw [hmask] at h
  obtain ⟨items₂, hitems₂, heq₂⟩ := Percent.exists_parse_orig stars_eq hno
    (fun m hm => by
      obtain ⟨l, b, hmatch⟩ := h₂.mem_mask m hm
      exact percent_not_mem_passport hmatch.shape) h
  rw [h₂.orig_eq] at hitems₂
  obtain ⟨items₁, hitems₁, heq₁⟩ := Percent.exists_parse_orig stars_eq hno
    (fun m hm => by
      obtain ⟨l, b, hmatch⟩ := h₁.mem_mask m hm
      exact percent_not_mem_tin hmatch.shape) hitems₂
  rw [h₁.orig_eq] at hitems₁
  exact ⟨items₁, hitems₁, heq₁.trans heq₂⟩

theorem shown_eq_or_length (P : List Piece) : shown stars P = orig P ∨ 9 ≤ (shown stars P).length := by
  induction P with
  | nil => exact .inl rfl
  | cons p P ih =>
    cases p with
    | keep c =>
      rw [Subst.shown_keep, Subst.orig_keep, List.length_cons]
      exact ih.imp (fun h => by rw [h]) (fun h => by omega)
    | mask m =>
      right
      rw [Subst.shown_mask, List.length_append]
      exact Nat.le_add_right_of_le (by decide)

/-- A masked text has the nine stars of a mask. -/
theorem length_maskText {s : List Char} (h : maskText U s ≠ s) : 9 ≤ (maskText U s).length := by
  obtain ⟨P₁, P₂, h₁, h₂, hmask⟩ := exists_pieces U s
  rw [hmask] at h ⊢
  rcases shown_eq_or_length P₂ with hsame | hlong
  · rw [hsame, h₂.orig_eq] at h ⊢
    rcases shown_eq_or_length P₁ with hsame₁ | hlong
    · rw [hsame₁, h₁.orig_eq] at h
      exact absurd rfl h
    · exact hlong
  · exact hlong

/-- A value is left alone, or it becomes a text with the stars of a mask. -/
theorem masked_cases (U : UnicodeClasses) (F : Values V) (v : V) :
    (maskText U (F.str v).toList = (F.str v).toList ∧ masked U F v = v) ∨
      (maskText U (F.str v).toList ≠ (F.str v).toList ∧
        ∃ s, masked U F v = F.ofStr s ∧ 9 ≤ s.length) := by
  unfold masked maskPii
  dsimp only
  split
  next h =>
    have hne : maskText U (F.str v).toList ≠ (F.str v).toList := by
      intro heq
      rw [heq, String.ofList_toList] at h
      exact h rfl
    refine .inr ⟨hne, _, rfl, ?_⟩
    rw [String.length_ofList]
    exact length_maskText hne
  next h =>
    refine .inl ⟨?_, rfl⟩
    rw [← String.toList_ofList (l := maskText U (F.str v).toList), not_not.1 h]

theorem replaces_masked : Replaces F (masked U F) := by
  intro v
  rcases masked_cases U F v with ⟨-, hv⟩ | ⟨-, s, hv, hlong⟩
  · exact .inl hv
  · exact .inr ⟨s, hv, by omega⟩

theorem str_masked (v : V) : (F.str (masked U F v)).toList = maskText U (F.str v).toList := by
  rw [← strOf_maskPii U F.str v, masked]
  cases maskPii U F.str v with
  | inl v' => rfl
  | inr s => exact congrArg String.toList (F.str_ofStr s)

/-- An attribute that is on neither list. -/
theorem lookup_masked {key : String} (h : key ∉ allowNoMask) (h' : lowered key ∉ piiFieldDenyList)
    (record : LogRecord V) : (maskRecord U F record).attrs.lookup key =
      (record.attrs.lookup key).map (masked U F) := by
  have hkey : maskPiiForKey U F key = masked U F := by
    funext v
    rw [maskPiiForKey, if_neg h, if_neg h']
  rw [maskRecord, Dict.lookup_map_key, hkey]

theorem lookup_msg (record : LogRecord V) : (maskRecord U F record).attrs.lookup "msg" =
    (record.attrs.lookup "msg").map (masked U F) :=
  lookup_masked (by decide) (by decide +kernel) record

theorem getMessage_masked {record : LogRecord V} {msg : V} (h : record.attrs.lookup "msg" = some msg)
    (args : Args V) : getMessage F ⟨(maskRecord U F record).attrs, args⟩ =
      if args.isEmpty then some (maskText U (F.str msg).toList)
      else format F (maskText U (F.str msg).toList) args := by
  rw [getMessage, lookup_msg, h, Option.map_some, Option.bind_some, str_masked]

/-! ## Tuples -/

theorem format_tuple {template : List Char} {vs : List V} {message : List Char} :
    format F template (.tuple vs) = some message ↔
      ∃ items ts feed, parse false template = some items ∧
        texts F none (conversions items) (.tuple vs) = some (ts, feed) ∧ feed.used = true ∧
          message = weave items ts := by
  constructor
  · intro h
    obtain ⟨items, hitems, h⟩ := Option.bind_eq_some_iff.1 h
    obtain ⟨⟨ts, feed⟩, hts, h⟩ := Option.bind_eq_some_iff.1 h
    dsimp only at h
    split at h
    next hused => exact ⟨items, ts, feed, hitems, hts, hused, (Option.some.inj h).symm⟩
    next => cases h
  · rintro ⟨items, ts, feed, hitems, hts, hused, rfl⟩
    refine Option.bind_eq_some_iff.2 ⟨items, hitems, Option.bind_eq_some_iff.2 ⟨(ts, feed), hts, ?_⟩⟩
    exact if_pos hused

theorem format_mapping {template : List Char} {m : Mapping V} {message : List Char} :
    format F template (.mapping m) = some message ↔
      ∃ items ts feed, parse true template = some items ∧
        texts F (some m) (conversions items) (.one (some m.whole)) = some (ts, feed) ∧
          message = weave items ts := by
  constructor
  · intro h
    obtain ⟨items, hitems, h⟩ := Option.bind_eq_some_iff.1 h
    obtain ⟨⟨ts, feed⟩, hts, heq⟩ := Option.bind_eq_some_iff.1 h
    exact ⟨items, ts, feed, hitems, hts, (Option.some.inj heq).symm⟩
  · rintro ⟨items, ts, feed, hitems, hts, rfl⟩
    exact Option.bind_eq_some_iff.2 ⟨items, hitems, Option.bind_eq_some_iff.2 ⟨(ts, feed), hts, rfl⟩⟩

theorem used_map {vs : List V} (f : V → V) (h : (Percent.Feed.tuple vs).used = true) :
    (Percent.Feed.tuple (vs.map f)).used = true := by
  cases vs with
  | nil => rfl
  | cons v vs => cases h

theorem conversionsOf_eq {template : List Char} {items : List Item}
    (h : parse false template = some items) : conversionsOf template = some (conversions items) := by
  rw [conversionsOf, h]
  rfl

/-- A masked tuple still fits the masked template exactly when it is spared. -/
theorem format_masked_tuple {template : List Char} {vs : List V} (hne : vs ≠ [])
    (h : format F template (.tuple vs) ≠ none) :
    format F (maskText U template) (.tuple (vs.map (masked U F))) ≠ none ↔
      Spared U F template (.tuple vs) := by
  obtain ⟨message, hmessage⟩ := Option.ne_none_iff_exists'.1 h
  obtain ⟨items, ts, feed, hitems, hts, hused, -⟩ := format_tuple.1 hmessage
  constructor
  · intro h'
    obtain ⟨message', hmessage'⟩ := Option.ne_none_iff_exists'.1 h'
    obtain ⟨items', ts', feed', hitems', hts', -, -⟩ := format_tuple.1 hmessage'
    obtain ⟨items₀, hitems₀, hsame⟩ := exists_parse_template hitems'
    rw [hitems] at hitems₀
    cases hitems₀
    rw [← hsame] at hts'
    refine .inr ⟨conversions items, conversionsOf_eq hitems, ?_, ?_⟩
    · rw [conversionsOf_eq hitems', hsame]
    · exact Percent.fits_of_texts_map replaces_masked (Percent.isType_of_parse hitems) hts hts'
  · rintro (hnil | ⟨cs, hcs, hcs', hfits⟩)
    · exact absurd hnil hne
    rw [conversionsOf_eq hitems] at hcs
    cases hcs
    obtain ⟨items', hitems', hsame⟩ := Option.map_eq_some_iff.1 hcs'
    obtain ⟨rest, ts', rfl, hts'⟩ := Percent.exists_texts_map hts hfits
    have hused' := used_map (masked U F) hused
    rw [← hsame] at hts'
    exact Option.ne_none_iff_exists'.2
      ⟨weave items' ts', format_tuple.2 ⟨items', ts', _, hitems', hts', hused', rfl⟩⟩

/-! ## Mappings -/

/-- The tuple of the masked keys shows what the masked mapping should show, exactly when it is
spared. -/
theorem format_masked_mapping {template : List Char} {m : Mapping V} (hne : m.keys ≠ [])
    (h : format F template (.mapping m) ≠ none) :
    (∃ message, format F (maskText U template) (.tuple (m.keys.map (masked U F))) = some message ∧
      format F (maskText U template) ((Args.mapping m).map (masked U F)) = some message) ↔
        Spared U F template (.mapping m) := by
  obtain ⟨message, hmessage⟩ := Option.ne_none_iff_exists'.1 h
  obtain ⟨items₀, ts₀, feed₀, hitems₀, hts₀, -⟩ := format_mapping.1 hmessage
  constructor
  · rintro ⟨message', htuple, hmapping⟩
    obtain ⟨items', ts', feed', hitems', hts', hused', hweave'⟩ := format_tuple.1 htuple
    obtain ⟨items'', ts'', feed'', hitems'', hts'', hweave''⟩ := format_mapping.1 hmapping
    obtain ⟨items, hitems, hsame⟩ := exists_parse_template hitems'
    have hkeyless := Percent.keyless_of_texts_tuple hts'
    rw [Percent.parse_mono hitems'] at hitems''
    cases hitems''
    rw [Percent.parse_mono hitems] at hitems₀
    cases hitems₀
    rw [hsame] at hts₀
    rcases Percent.texts_one hkeyless hts₀ with hnil | ⟨c, text, hone, -, hshow⟩
    · rw [hnil] at hts'
      cases hts'
      obtain ⟨k, keys, hkeys⟩ := List.exists_cons_of_ne_nil hne
      rw [hkeys] at hused'
      cases hused'
    rw [hone] at hts' hts'' hkeyless
    obtain ⟨v, text', hkeys, rfl, hshow'⟩ := Percent.texts_tuple_one hshow hts' hused'
    obtain ⟨k, hk, rfl⟩ := List.map_eq_singleton_iff.1 hkeys
    rcases Percent.texts_one hkeyless hts'' with hnil | ⟨c', text'', hone', rfl, hshow''⟩
    · cases hnil
    cases hone'
    have htext : text' = text'' := Percent.weave_injective hone (hweave'.symm.trans hweave'')
    subst htext
    refine .inr ⟨c, k, text', hk, hkeyless c List.mem_cons_self, ?_, ?_, hshow', hshow''⟩
    · rw [conversionsOf_eq hitems, hsame, hone]
    · rw [conversionsOf_eq hitems', hone]
  · rintro (hnil | ⟨c, k, text, hk, hkey, -, hcs', hshow, hshow'⟩)
    · exact absurd hnil hne
    obtain ⟨items', hitems', hone⟩ := Option.map_eq_some_iff.1 hcs'
    refine ⟨weave items' [text], format_tuple.2 ⟨items', [text], .tuple [], hitems', ?_, rfl, rfl⟩,
      format_mapping.2 ⟨items', [text], .one none, Percent.parse_mono hitems', ?_, rfl⟩⟩
    · rw [hone, hk]
      exact Percent.texts_cons.2
        ⟨text, .tuple [], [], Percent.textOf_showOne hkey rfl hshow, rfl, rfl⟩
    · rw [hone]
      exact Percent.texts_cons.2
        ⟨text, .one none, [], Percent.textOf_showOne hkey rfl hshow', rfl, rfl⟩

/-! ## Records -/

theorem isEmpty_maskArgs (args : Args V) : (maskArgs U F args).isEmpty = args.isEmpty := by
  cases args with
  | tuple vs => exact List.isEmpty_map
  | mapping m => exact List.isEmpty_map

theorem isEmpty_map (f : V → V) (args : Args V) : (args.map f).isEmpty = args.isEmpty := by
  cases args with
  | tuple vs => exact List.isEmpty_map
  | mapping m => rfl

theorem spared_of_isEmpty {template : List Char} {args : Args V} (h : args.isEmpty = true) :
    Spared U F template args := by
  cases args with
  | tuple vs => exact .inl (List.isEmpty_iff.1 h)
  | mapping m => exact .inl (List.isEmpty_iff.1 h)

/-- The records whose message survives the filter. -/
theorem messageKept_iff (U : UnicodeClasses) (F : Values V) (record : LogRecord V) :
    MessageKept U F record ↔
      ∀ msg, record.attrs.lookup "msg" = some msg → getMessage F record ≠ none →
        Spared U F (F.str msg).toList record.args := by
  cases hmsg : record.attrs.lookup "msg" with
  | none =>
    have hnone : getMessage F record = none := by
      rw [getMessage, hmsg]
      rfl
    exact ⟨fun _ msg h => (by cases h), fun _ h => absurd hnone h⟩
  | some msg =>
    have hbefore : getMessage F record = if record.args.isEmpty then some (F.str msg).toList
        else format F (F.str msg).toList record.args := by
      rw [getMessage, hmsg, Option.bind_some]
    have hafter : getMessage F (maskRecord U F record) = _ :=
      getMessage_masked hmsg (maskArgs U F record.args)
    have hexpected : expected U F record = _ :=
      getMessage_masked hmsg (record.args.map (masked U F))
    rw [isEmpty_maskArgs] at hafter
    rw [isEmpty_map] at hexpected
    have hone : (∀ msg', some msg = some msg' → getMessage F record ≠ none →
        Spared U F (F.str msg').toList record.args) ↔
          (getMessage F record ≠ none → Spared U F (F.str msg).toList record.args) :=
      ⟨fun h => h msg rfl, fun h msg' heq => by cases heq; exact h⟩
    rw [hone, MessageKept, hafter, hexpected]
    by_cases hempty : record.args.isEmpty = true
    · rw [if_pos hempty, if_pos hempty]
      exact ⟨fun _ _ => spared_of_isEmpty hempty, fun _ _ => ⟨_, rfl, rfl⟩⟩
    · rw [hbefore, if_neg hempty, if_neg hempty, if_neg hempty]
      refine forall_congr' fun hshown => ?_
      cases hargs : record.args with
      | tuple vs =>
        rw [hargs] at hempty hshown
        rw [← format_masked_tuple (fun hnil => hempty (List.isEmpty_iff.2 hnil)) hshown]
        rw [Option.ne_none_iff_exists']
        exact ⟨fun ⟨message, h, _⟩ => ⟨message, h⟩, fun ⟨message, h⟩ => ⟨message, h, h⟩⟩
      | mapping m =>
        rw [hargs] at hempty hshown
        exact format_masked_mapping (fun hnil => hempty (List.isEmpty_iff.2 hnil)) hshown

/-! ## Tracebacks -/

section
variable {P : Formatter F} {record : LogRecord V}

/-- What is put behind the message is a text. -/
def Appends (P : Formatter F) (v : V) : Prop := P.truthy v = true → (P.text v).isSome = true

/-- `exc_info` has the parts of an exception. -/
def Traceable (P : Formatter F) (exc excText : V) : Prop :=
  P.truthy excText = false → P.truthy exc = true → (P.formatException exc).isSome = true

theorem truthy_ofStr_of_length (P : Formatter F) {s : String} (h : 9 ≤ s.length) :
    P.truthy (F.ofStr s) = true := by
  rw [P.truthy_ofStr, decide_eq_true_eq]
  rintro rfl
  exact absurd h (by decide)

theorem Appends.masked {v : V} (h : Appends P v) : Appends P (Pii.masked U F v) := by
  rcases masked_cases U F v with ⟨-, hv⟩ | ⟨-, s, hv, -⟩
  · rw [hv]
    exact h
  · intro _
    rw [hv, P.text_ofStr]
    rfl

/-- An exception keeps its parts when its text is not masked; else they must not be needed. -/
theorem traceable_masked_iff {exc excText : V} (h : Traceable P exc excText) :
    Traceable P (Pii.masked U F exc) (Pii.masked U F excText) ↔
      maskText U (F.str exc).toList = (F.str exc).toList ∨
        P.truthy (Pii.masked U F excText) = true := by
  rcases masked_cases U F exc with ⟨hsame, hexc⟩ | ⟨hne, s, hexc, hlong⟩
  · refine iff_of_true ?_ (.inl hsame)
    rw [hexc]
    intro htext
    refine h ?_
    rcases masked_cases U F excText with ⟨-, hkept⟩ | ⟨-, s, htaken, hlong⟩
    · rwa [hkept] at htext
    · rw [htaken, truthy_ofStr_of_length P hlong] at htext
      cases htext
  · rw [or_iff_right hne, hexc]
    constructor
    · intro htrace
      by_contra htext
      have hparts := htrace (Bool.eq_false_iff.2 htext) (truthy_ofStr_of_length P hlong)
      rw [P.formatException_ofStr] at hparts
      cases hparts
    · intro htext hfalse
      rw [htext] at hfalse
      cases hfalse

theorem formatTraceback_isSome_iff {exc excText : V} {s : List Char} :
    (formatTraceback P exc excText s).isSome = true ↔
      Traceable P exc excText ∧ Appends P excText := by
  unfold formatTraceback Traceable Appends
  cases P.truthy excText with
  | true => simp
  | false => cases P.truthy exc <;> simp

theorem formatStack_isSome_iff {stack : V} {s : List Char} :
    (formatStack P stack s).isSome = true ↔ Appends P stack := by
  unfold formatStack Appends
  cases P.truthy stack <;> simp

theorem formatRecord_ne_none_iff : formatRecord P record ≠ none ↔ getMessage F record ≠ none ∧
    ∃ exc excText stack, record.attrs.lookup "exc_info" = some exc ∧
      record.attrs.lookup "exc_text" = some excText ∧
      record.attrs.lookup "stack_info" = some stack ∧
      Traceable P exc excText ∧ Appends P excText ∧ Appends P stack := by
  rw [Option.ne_none_iff_isSome, Option.ne_none_iff_exists']
  constructor
  · intro h
    obtain ⟨text, htext⟩ := Option.isSome_iff_exists.1 h
    obtain ⟨message, hmessage, h₁⟩ := Option.bind_eq_some_iff.1 htext
    obtain ⟨exc, hexc, h₂⟩ := Option.bind_eq_some_iff.1 h₁
    obtain ⟨excText, hexcText, h₃⟩ := Option.bind_eq_some_iff.1 h₂
    obtain ⟨stack, hstack, h₄⟩ := Option.bind_eq_some_iff.1 h₃
    obtain ⟨s, htrace, hlast⟩ := Option.bind_eq_some_iff.1 h₄
    obtain ⟨htraceable, happends⟩ := formatTraceback_isSome_iff.1 (Option.isSome_of_eq_some htrace)
    exact ⟨⟨message, hmessage⟩, exc, excText, stack, hexc, hexcText, hstack, htraceable, happends,
      formatStack_isSome_iff.1 (Option.isSome_of_eq_some hlast)⟩
  · rintro ⟨⟨message, hmessage⟩, exc, excText, stack, hexc, hexcText, hstack, htraceable, happends,
      hlast⟩
    obtain ⟨s, htrace⟩ := Option.isSome_iff_exists.1
      (formatTraceback_isSome_iff (s := message).2 ⟨htraceable, happends⟩)
    rw [formatRecord, hmessage, hexc, hexcText, hstack]
    dsimp only [bind, Option.bind]
    rw [htrace]
    exact formatStack_isSome_iff.2 hlast

/-- Of a record with its message kept, the traceback decides. -/
theorem formatRecord_masked_iff (h : formatRecord P record ≠ none)
    (hmessage : getMessage F (maskRecord U F record) ≠ none) :
    formatRecord P (maskRecord U F record) ≠ none ↔ TracebackSpared U F P record := by
  obtain ⟨-, exc, excText, stack, hexc, hexcText, hstack, htrace, happends, hlast⟩ :=
    formatRecord_ne_none_iff.1 h
  have hexc' : (maskRecord U F record).attrs.lookup "exc_info" = _ :=
    lookup_masked (by decide) (by decide +kernel) record
  have hexcText' : (maskRecord U F record).attrs.lookup "exc_text" = _ :=
    lookup_masked (by decide) (by decide +kernel) record
  have hstack' : (maskRecord U F record).attrs.lookup "stack_info" = _ :=
    lookup_masked (by decide) (by decide +kernel) record
  rw [hexc, Option.map_some] at hexc'
  rw [hexcText, Option.map_some] at hexcText'
  rw [hstack, Option.map_some] at hstack'
  have hspared : TracebackSpared U F P record ↔
      Traceable P (masked U F exc) (masked U F excText) := by
    rw [traceable_masked_iff htrace, TracebackSpared]
    constructor
    · exact fun hall => hall exc excText hexc hexcText
    · intro hone exc' excText' hexc' hexcText'
      rw [hexc] at hexc'
      rw [hexcText] at hexcText'
      cases hexc'
      cases hexcText'
      exact hone
  rw [hspared, formatRecord_ne_none_iff]
  constructor
  · rintro ⟨-, _, _, _, h₁, h₂, -, htraceable, -⟩
    rw [hexc'] at h₁
    rw [hexcText'] at h₂
    cases h₁
    cases h₂
    exact htraceable
  · exact fun htraceable => ⟨hmessage, _, _, _, hexc', hexcText', hstack', htraceable,
      happends.masked, hlast.masked⟩

end

/-- **The records that survive the filter.** -/
theorem unbroken_iff (U : UnicodeClasses) (F : Values V) (P : Formatter F) (record : LogRecord V) :
    Unbroken U F P record ↔
      (∀ msg, record.attrs.lookup "msg" = some msg → getMessage F record ≠ none →
        Spared U F (F.str msg).toList record.args) ∧
      (formatRecord P record ≠ none → TracebackSpared U F P record) := by
  rw [Unbroken, ← messageKept_iff]
  refine and_congr_right fun hkept => forall_congr' fun h => ?_
  obtain ⟨message, hmessage, -⟩ := hkept (formatRecord_ne_none_iff.1 h).1
  exact formatRecord_masked_iff h (by rw [hmessage]; exact Option.some_ne_none _)

end

/-! ## A number that looks like an identifier, and an exception about one -/

/-- Integers by their decimal text, strings, `None`, and exceptions as `sys.exc_info` gives them. -/
inductive Sample where
  | int (decimal : String)
  | text (s : String)
  | missing
  | exception (shown traceback : String)

def Sample.str : Sample → String
  | .int decimal       => decimal
  | .text s            => s
  | .missing           => "None"
  | .exception shown _ => shown

def Sample.isInt : Sample → Bool
  | .int _ => true
  | _      => false

def sampleConvert (shape : Percent.Shape) (v : Sample) : Option (List Char) :=
  if Percent.isText shape.type || v.isInt then some v.str.toList else none

def sampleValues : Values Sample where
  str     := Sample.str
  ofStr   := .text
  integer := fun _ => none
  convert := sampleConvert
  str_ofStr := fun _ => rfl
  integer_ofStr := fun _ => rfl
  convert_text := by
    intro shape v h
    rw [sampleConvert, h]
    rfl
  convert_number := by
    intro shape s h
    have hno : Percent.isText shape.type = false := by
      by_contra htext
      have htext : Percent.isText shape.type = true := by simpa using htext
      simp only [Percent.isText, Bool.or_eq_true, beq_iff_eq] at htext
      rcases htext with (ht | ht) | ht
      · rw [ht] at h
        cases h
      · rw [ht] at h
        cases h
      · rw [ht] at h
        cases h
    rw [sampleConvert, hno]
    rfl
  convert_char := by
    intro shape s h _
    rw [sampleConvert, h]
    rfl

def Sample.truthy : Sample → Bool
  | .int decimal   => decide (decimal ≠ "0")
  | .text s        => decide (s ≠ "")
  | .missing       => false
  | .exception _ _ => true

def sampleFormatter : Formatter sampleValues where
  truthy          := Sample.truthy
  text
    | .text s => some s
    | _       => none
  formatException
    | .exception _ traceback => some traceback
    | _                      => none
  truthy_ofStr          := fun _ => rfl
  text_ofStr            := fun _ => rfl
  formatException_ofStr := fun _ => rfl

/-- `logger.info("%d", 123456789)`. -/
def numberRecord : LogRecord Sample where
  attrs := [("msg", .text "%d"), ("exc_info", .missing), ("exc_text", .missing),
    ("stack_info", .missing)]
  args  := .tuple [.int "123456789"]

/-- `logger.error("failed", exc_info=True)` where `KeyError("123456789")` is handled. -/
def exceptionRecord : LogRecord Sample where
  attrs := [("msg", .text "failed"),
    ("exc_info", .exception "(KeyError('123456789'), <traceback object>)" "KeyError: '123456789'"),
    ("exc_text", .missing), ("stack_info", .missing)]
  args  := .tuple []

theorem not_unbroken_number :
    ¬ Unbroken asciiClasses sampleValues sampleFormatter numberRecord ∧
    ¬ Unbroken asciiClasses sampleValues sampleFormatter exceptionRecord := by
  constructor
  · rintro ⟨hkept, -⟩
    have hbefore : getMessage sampleValues numberRecord = some "123456789".toList := by
      decide +kernel
    have hafter : getMessage sampleValues (maskRecord asciiClasses sampleValues numberRecord) =
        none := by
      decide +kernel
    obtain ⟨message, hmessage, -⟩ := hkept (by rw [hbefore]; exact Option.some_ne_none _)
    rw [hafter] at hmessage
    cases hmessage
  · rintro ⟨-, hformats⟩
    have hbefore : formatRecord sampleFormatter exceptionRecord =
        some "failed\nKeyError: '123456789'".toList := by
      decide +kernel
    have hafter : formatRecord sampleFormatter
        (maskRecord asciiClasses sampleValues exceptionRecord) = none := by
      decide +kernel
    exact hformats (by rw [hbefore]; exact Option.some_ne_none _) hafter

end DocumentAi.Pii
