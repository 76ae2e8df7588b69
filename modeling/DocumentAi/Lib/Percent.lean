import Mathlib.Algebra.Group.Nat.Defs
import Mathlib.Data.List.Basic
import DocumentAi.Lib.Substitution

/-!
# `%` templates

A template is read character by character. What it says is a list of items, each a character of
the text or a conversion; the arguments are a tuple or one mapping.

| here | there |
| --- | --- |
| `advance`     | one character of a template: flags, `*` or digits, `.`, length letter, type |
| `parse keyed` | the items of a template; without a mapping a key is an error |
| `Values`      | the values that can be shown; `convert` is one conversion |
| `texts`       | the texts of the conversions, each with the arguments that it takes |
| `format`      | `template % args` |

Main results: `exists_parse_orig`, a template into whose text stars have been put has the conversions
it had before, or it is an error; `exists_texts_map`, `fits_of_texts_map`, when a tuple can still be
shown after some of its values have been replaced by strings.
-/

namespace Percent

open Subst (Piece orig shown)

/-! ## Reading a template -/

/-- A width or a precision; `*` takes it from the arguments. -/
inductive Amount where
  | given (n : Nat)
  | taken

structure Spec where
  key       : Option (List Char) := none
  flags     : List Char := []
  width     : Option Amount := none
  precision : Option Amount := none

structure Conversion where
  spec : Spec
  type : Char

inductive Item where
  | text (c : Char)
  | conversion (c : Conversion)

def isText (t : Char) : Bool := t == 's' || t == 'r' || t == 'a'

def isNumber (t : Char) : Bool :=
  ['d', 'i', 'o', 'u', 'x', 'X', 'e', 'E', 'f', 'F', 'g', 'G'].elem t

def isType (t : Char) : Bool := isText t || isNumber t || t == 'c'

def isFlag (c : Char) : Bool := ['-', '+', ' ', '#', '0'].elem c

def atMost (bound : Nat) : Option Amount → Bool
  | some (.given n) => decide (n ≤ bound)
  | _               => true

/-- The greatest width is that of an index, the greatest precision that of a C `int`. -/
def Spec.inRange (s : Spec) : Bool :=
  atMost (2 ^ 63 - 1) s.width && atMost (2 ^ 31 - 1) s.precision

inductive Place where
  | text
  | percent
  | key (depth : Nat)
  | flags
  | width (n : Nat)
  | widthTaken
  | dot
  | precision (n : Nat)
  | precisionTaken
  | length
deriving DecidableEq

/-- The place behind a character, the conversion in progress, and the item that is complete. -/
abbrev Move : Type := Place × Spec × Option Item

def digit (c : Char) : Nat := c.toNat - '0'.toNat

def atType (s : Spec) (c : Char) : Option Move :=
  if isType c && s.inRange then some (.text, {}, some (.conversion ⟨s, c⟩)) else none

def atLength (s : Spec) (c : Char) : Option Move :=
  if c == 'h' || c == 'l' || c == 'L' then some (.length, s, none) else atType s c

def atPrecision (s : Spec) (c : Char) : Option Move :=
  if c == '*' then some (.precisionTaken, { s with precision := some .taken }, none)
  else if c.isDigit then
    some (.precision (digit c), { s with precision := some (.given (digit c)) }, none)
  else atLength s c

def atDot (s : Spec) (c : Char) : Option Move :=
  if c == '.' then some (.dot, { s with precision := some (.given 0) }, none) else atLength s c

def atFlags (s : Spec) (c : Char) : Option Move :=
  if isFlag c then some (.flags, { s with flags := s.flags ++ [c] }, none)
  else if c == '*' then some (.widthTaken, { s with width := some .taken }, none)
  else if c.isDigit then
    some (.width (digit c), { s with width := some (.given (digit c)) }, none)
  else atDot s c

def atKey (depth : Nat) (s : Spec) (c : Char) : Option Move :=
  if c == ')' && depth == 1 then some (.flags, s, none)
  else
    some (.key (if c == ')' then depth - 1 else if c == '(' then depth + 1 else depth),
      { s with key := s.key.map (· ++ [c]) }, none)

def advance (keyed : Bool) : Place → Spec → Char → Option Move
  | .text, s, c           =>
    if c == '%' then some (.percent, s, none) else some (.text, s, some (.text c))
  | .percent, s, c        =>
    if c == '%' then some (.text, s, some (.text '%'))
    else if c == '(' then if keyed then some (.key 1, { s with key := some [] }, none) else none
    else atFlags s c
  | .key depth, s, c      => atKey depth s c
  | .flags, s, c          => atFlags s c
  | .width n, s, c        =>
    if c.isDigit then
      some (.width (10 * n + digit c), { s with width := some (.given (10 * n + digit c)) }, none)
    else atDot s c
  | .widthTaken, s, c     => atDot s c
  | .dot, s, c            => atPrecision s c
  | .precision n, s, c    =>
    if c.isDigit then
      some (.precision (10 * n + digit c),
        { s with precision := some (.given (10 * n + digit c)) }, none)
    else atLength s c
  | .precisionTaken, s, c => atLength s c
  | .length, s, c         => atType s c

/-- `items` has the latest first. -/
structure Reader where
  place : Place := .text
  spec  : Spec := {}
  items : List Item := []

def step (keyed : Bool) (r : Reader) (c : Char) : Option Reader :=
  (advance keyed r.place r.spec c).map fun m => ⟨m.1, m.2.1, m.2.2.toList ++ r.items⟩

def read (keyed : Bool) (r : Reader) (template : List Char) : Option Reader :=
  template.foldlM (step keyed) r

def parse (keyed : Bool) (template : List Char) : Option (List Item) :=
  (read keyed {} template).bind fun r => if r.place = .text then some r.items.reverse else none

def Item.conversion? : Item → Option Conversion
  | .text _       => none
  | .conversion c => some c

def conversions (items : List Item) : List Conversion := items.filterMap Item.conversion?

/-! ## Values -/

/-- A conversion with the amounts it has taken. -/
structure Shape where
  flags     : List Char
  width     : Option Int
  precision : Option Int
  type      : Char

structure Values (V : Type) where
  str     : V → String
  ofStr   : String → V
  integer : V → Option Int
  convert : Shape → V → Option (List Char)
  str_ofStr      : ∀ s, str (ofStr s) = s
  integer_ofStr  : ∀ s, integer (ofStr s) = none
  convert_text   : ∀ shape v, isText shape.type = true → (convert shape v).isSome = true
  convert_number : ∀ shape s, isNumber shape.type = true → convert shape (ofStr s) = none
  convert_char   : ∀ shape s, shape.type = 'c' → s.length ≠ 1 → convert shape (ofStr s) = none

/-- `whole` is the mapping itself, `keys` what iterating over it gives. -/
structure Mapping (V : Type) where
  whole : V
  keys  : List V
  get   : List Char → Option V

inductive Args (V : Type) where
  | tuple (vs : List V)
  | mapping (m : Mapping V)

/-- The arguments that are left: those of a tuple, or one value that can be taken once. -/
inductive Feed (V : Type) where
  | tuple (vs : List V)
  | one (v : Option V)

section
variable {V : Type}

def Feed.next : Feed V → Option (V × Feed V)
  | .tuple (v :: vs) => some (v, .tuple vs)
  | .tuple []        => none
  | .one (some v)    => some (v, .one none)
  | .one none        => none

/-- `not args`. -/
def Args.isEmpty : Args V → Bool
  | .tuple vs  => vs.isEmpty
  | .mapping m => m.keys.isEmpty

/-- What the conversions take, with `f` applied. -/
def Args.map (f : V → V) : Args V → Args V
  | .tuple vs  => .tuple (vs.map f)
  | .mapping m => .mapping { m with whole := f m.whole, get := fun k => (m.get k).map f }

/-! ## Formatting -/

def takeAmount (F : Values V) : Option Amount → Feed V → Option (Option Int × Feed V)
  | none, feed            => some (none, feed)
  | some (.given n), feed => some (some (n : Int), feed)
  | some .taken, feed     => do
    let (v, feed) ← feed.next
    let i ← F.integer v
    some (some i, feed)

/-- A key puts its value in the place of the arguments. -/
def takeKey (mapping : Option (Mapping V)) : Option (List Char) → Feed V → Option (Feed V)
  | none, feed   => some feed
  | some k, _    => do
    let m ← mapping
    let v ← m.get k
    some (.one (some v))

def textOf (F : Values V) (mapping : Option (Mapping V)) (c : Conversion) (feed : Feed V) :
    Option (List Char × Feed V) := do
  let feed ← takeKey mapping c.spec.key feed
  let (width, feed) ← takeAmount F c.spec.width feed
  let (precision, feed) ← takeAmount F c.spec.precision feed
  let (v, feed) ← feed.next
  let text ← F.convert ⟨c.spec.flags, width, precision, c.type⟩ v
  some (text, feed)

def texts (F : Values V) (mapping : Option (Mapping V)) :
    List Conversion → Feed V → Option (List (List Char) × Feed V)
  | [], feed      => some ([], feed)
  | c :: cs, feed => do
    let (text, feed) ← textOf F mapping c feed
    let (more, feed) ← texts F mapping cs feed
    some (text :: more, feed)

/-- Each conversion replaced by its text. -/
def weave : List Item → List (List Char) → List Char
  | [], _                             => []
  | .text c :: items, ts              => c :: weave items ts
  | .conversion _ :: items, text :: ts => text ++ weave items ts
  | .conversion _ :: items, []        => weave items []

def Feed.used : Feed V → Bool
  | .tuple (_ :: _) => false
  | _               => true

def format (F : Values V) (template : List Char) : Args V → Option (List Char)
  | .tuple vs  => do
    let items ← parse false template
    let (ts, feed) ← texts F none (conversions items) (.tuple vs)
    if feed.used then some (weave items ts) else none
  | .mapping m => do
    let items ← parse true template
    let (ts, _) ← texts F (some m) (conversions items) (.one (some m.whole))
    some (weave items ts)

end

/-! ## Stars in a template -/

/-- No key is being read. -/
def Place.keyless : Place → Bool
  | .key _ => false
  | _      => true

/-- No key is being read, and a conversion that is complete has a type. -/
structure Sound (m : Move) : Prop where
  keyless : m.1.keyless = true
  type    : ∀ c, m.2.2 = some (.conversion c) → isType c.type = true

theorem Sound.of_eq {m m' : Move} (h : some m' = some m) (hkeyless : m'.1.keyless = true)
    (hitem : ∀ c, m'.2.2 ≠ some (.conversion c)) : Sound m := by
  rw [← Option.some.inj h]
  exact ⟨hkeyless, fun c hc => absurd hc (hitem c)⟩

theorem sound_atType {s : Spec} {c : Char} {m : Move} (h : atType s c = some m) : Sound m := by
  unfold atType at h
  split at h
  next hc =>
    rw [← Option.some.inj h]
    refine ⟨rfl, fun c' hc' => ?_⟩
    cases hc'
    exact (Bool.and_eq_true_iff.1 hc).1
  next => cases h

theorem sound_atLength {s : Spec} {c : Char} {m : Move} (h : atLength s c = some m) : Sound m := by
  unfold atLength at h
  split at h
  · exact .of_eq h rfl (fun _ => nofun)
  · exact sound_atType h

theorem sound_atPrecision {s : Spec} {c : Char} {m : Move} (h : atPrecision s c = some m) :
    Sound m := by
  unfold atPrecision at h
  split at h
  · exact .of_eq h rfl (fun _ => nofun)
  split at h
  · exact .of_eq h rfl (fun _ => nofun)
  · exact sound_atLength h

theorem sound_atDot {s : Spec} {c : Char} {m : Move} (h : atDot s c = some m) : Sound m := by
  unfold atDot at h
  split at h
  · exact .of_eq h rfl (fun _ => nofun)
  · exact sound_atLength h

theorem sound_atFlags {s : Spec} {c : Char} {m : Move} (h : atFlags s c = some m) : Sound m := by
  unfold atFlags at h
  split at h
  · exact .of_eq h rfl (fun _ => nofun)
  split at h
  · exact .of_eq h rfl (fun _ => nofun)
  split at h
  · exact .of_eq h rfl (fun _ => nofun)
  · exact sound_atDot h

/-- Without a mapping no key is read. -/
theorem sound_advance {p : Place} {s : Spec} {c : Char} {m : Move} (hp : p.keyless = true)
    (h : advance false p s c = some m) : Sound m := by
  cases p with
  | text =>
    rw [advance] at h
    split at h
    · exact .of_eq h rfl (fun _ => nofun)
    · exact .of_eq h rfl (fun _ => nofun)
  | percent =>
    rw [advance] at h
    split at h
    · exact .of_eq h rfl (fun _ => nofun)
    split at h
    · cases h
    · exact sound_atFlags h
  | key depth => cases hp
  | flags => exact sound_atFlags h
  | width n =>
    rw [advance] at h
    split at h
    · exact .of_eq h rfl (fun _ => nofun)
    · exact sound_atDot h
  | widthTaken => exact sound_atDot h
  | dot => exact sound_atPrecision h
  | precision n =>
    rw [advance] at h
    split at h
    · exact .of_eq h rfl (fun _ => nofun)
    · exact sound_atLength h
  | precisionTaken => exact sound_atLength h
  | length => exact sound_atType h

theorem advance_mono {p : Place} {s : Spec} {c : Char} {m : Move}
    (h : advance false p s c = some m) : advance true p s c = some m := by
  cases p with
  | percent =>
    rw [advance] at h ⊢
    split at h
    next hc => rw [if_pos hc]; exact h
    next hc =>
      rw [if_neg hc]
      split at h
      · cases h
      next hc' => rw [if_neg hc']; exact h
  | text => exact h
  | key depth => exact h
  | flags => exact h
  | width n => exact h
  | widthTaken => exact h
  | dot => exact h
  | precision n => exact h
  | precisionTaken => exact h
  | length => exact h

theorem step_mono {r r' : Reader} {c : Char} (h : step false r c = some r') :
    step true r c = some r' := by
  obtain ⟨m, hm, hr⟩ := Option.map_eq_some_iff.1 h
  exact Option.map_eq_some_iff.2 ⟨m, advance_mono hm, hr⟩

theorem read_cons {keyed : Bool} {r r' : Reader} {c : Char} {t : List Char} :
    read keyed r (c :: t) = some r' ↔
      ∃ q, step keyed r c = some q ∧ read keyed q t = some r' := by
  rw [read, List.foldlM_cons]
  exact Option.bind_eq_some_iff

theorem read_append {keyed : Bool} {r r' : Reader} {t u : List Char} :
    read keyed r (t ++ u) = some r' ↔
      ∃ q, read keyed r t = some q ∧ read keyed q u = some r' := by
  rw [read, List.foldlM_append]
  exact Option.bind_eq_some_iff

theorem read_mono : ∀ {t : List Char} {r r' : Reader}, read false r t = some r' →
    read true r t = some r'
  | [], _, _, h     => h
  | c :: t, r, r', h => by
    obtain ⟨q, hq, hrest⟩ := read_cons.1 h
    exact read_cons.2 ⟨q, step_mono hq, read_mono hrest⟩

/-- A mapping takes nothing from the templates that have no key. -/
theorem parse_mono {t : List Char} {items : List Item} (h : parse false t = some items) :
    parse true t = some items := by
  obtain ⟨r, hr, hitems⟩ := Option.bind_eq_some_iff.1 h
  exact Option.bind_eq_some_iff.2 ⟨r, read_mono hr, hitems⟩

/-- The readers differ only in the text behind them. -/
structure Alike (r q : Reader) : Prop where
  place       : r.place = q.place
  spec        : r.spec = q.spec
  conversions : conversions r.items = conversions q.items
  keyless     : r.place.keyless = true

theorem Alike.step {r q r' : Reader} {c : Char} (h : Alike r q) (hr : step false r c = some r') :
    ∃ q', Percent.step false q c = some q' ∧ Alike r' q' := by
  obtain ⟨m, hm, rfl⟩ := Option.map_eq_some_iff.1 hr
  have hm' := hm
  rw [h.place, h.spec] at hm'
  refine ⟨_, Option.map_eq_some_iff.2 ⟨m, hm', rfl⟩, rfl, rfl, ?_, (sound_advance h.keyless hm).keyless⟩
  have htail := h.conversions
  simp only [Percent.conversions, List.filterMap_append] at htail ⊢
  rw [htail]

/-- A star where a conversion is read is an amount, and only one star can be. -/
theorem advance_star {p : Place} {s : Spec} {m : Move} (hp : p.keyless = true) (hne : p ≠ .text)
    (h : advance false p s '*' = some m) : m.1 = .widthTaken ∨ m.1 = .precisionTaken := by
  have htype : ∀ s, atType s '*' = none := fun s => rfl
  have hlength : ∀ s, atLength s '*' = none := fun s => rfl
  have hdot : ∀ s, atDot s '*' = none := fun s => rfl
  cases p with
  | text => exact absurd rfl hne
  | key depth => cases hp
  | percent =>
    left
    rw [← Option.some.inj h]
  | flags =>
    left
    rw [← Option.some.inj h]
  | width n => rw [advance, if_neg (by decide), hdot] at h; cases h
  | widthTaken => rw [advance, hdot] at h; cases h
  | dot =>
    right
    rw [← Option.some.inj h]
  | precision n => rw [advance, if_neg (by decide), hlength] at h; cases h
  | precisionTaken => rw [advance, hlength] at h; cases h
  | length => rw [advance, htype] at h; cases h

theorem not_read_stars {r r' : Reader} {more : List Char} (hp : r.place.keyless = true)
    (h : read false r ('*' :: '*' :: more) = some r') : r.place = .text := by
  by_contra hne
  obtain ⟨q, hq, hrest⟩ := read_cons.1 h
  obtain ⟨q', hq', -⟩ := read_cons.1 hrest
  obtain ⟨m, hm, rfl⟩ := Option.map_eq_some_iff.1 hq
  obtain ⟨m', hm', -⟩ := Option.map_eq_some_iff.1 hq'
  dsimp only at hm'
  rcases advance_star hp hne hm with hplace | hplace
  · rw [hplace] at hm'
    cases hm'
  · rw [hplace] at hm'
    cases hm'

/-- Text without `%` stays text. -/
theorem read_text {r : Reader} (hr : r.place = .text) : ∀ {t : List Char}, '%' ∉ t →
    ∃ q, read false r t = some q ∧ Alike r q
  | [], _      => ⟨r, rfl, rfl, rfl, rfl, by rw [hr]; rfl⟩
  | c :: t, ht => by
    rw [List.mem_cons, not_or] at ht
    have hc : (c == '%') = false := beq_eq_false_iff_ne.2 fun heq => ht.1 heq.symm
    have hstep : step false r c = some ⟨.text, r.spec, .text c :: r.items⟩ := by
      rw [step, hr, advance, hc]
      rfl
    obtain ⟨q, hq, halike⟩ := read_text (r := ⟨.text, r.spec, .text c :: r.items⟩) rfl ht.2
    exact ⟨q, read_cons.2 ⟨_, hstep, hq⟩, hr.trans halike.place, halike.spec, halike.conversions,
      by rw [hr]; rfl⟩

theorem Alike.symm {r q : Reader} (h : Alike r q) : Alike q r :=
  ⟨h.place.symm, h.spec.symm, h.conversions.symm, h.place ▸ h.keyless⟩

theorem Alike.trans {r q p : Reader} (h : Alike r q) (h' : Alike q p) : Alike r p :=
  ⟨h.place.trans h'.place, h.spec.trans h'.spec, h.conversions.trans h'.conversions, h.keyless⟩

/-- What a reader makes of the text that is shown, one makes of the text before. -/
theorem exists_read_orig {mask more : List Char} (hmask : mask = '*' :: '*' :: more)
    (hno : '%' ∉ mask) : ∀ {P : List Piece} {r q r' : Reader}, (∀ m, Piece.mask m ∈ P → '%' ∉ m) →
      Alike r q → read false r (shown mask P) = some r' →
        ∃ q', read false q (orig P) = some q' ∧ Alike r' q'
  | [], r, q, r', _, halike, h           => by
    cases h
    exact ⟨q, rfl, halike⟩
  | .keep c :: P, r, q, r', hP, halike, h => by
    rw [Subst.shown_keep] at h
    obtain ⟨r₁, hr₁, hrest⟩ := read_cons.1 h
    obtain ⟨q₁, hq₁, halike₁⟩ := halike.step hr₁
    obtain ⟨q', hq', halike'⟩ :=
      exists_read_orig hmask hno (fun m hm => hP m (List.mem_cons_of_mem _ hm)) halike₁ hrest
    exact ⟨q', read_cons.2 ⟨q₁, hq₁, hq'⟩, halike'⟩
  | .mask m :: P, r, q, r', hP, halike, h => by
    rw [Subst.shown_mask] at h
    obtain ⟨r₁, hr₁, hrest⟩ := read_append.1 h
    -- the stars stand in the text, and so does what they replace
    have htext : r.place = .text := by
      rw [hmask] at hr₁
      exact not_read_stars halike.keyless hr₁
    obtain ⟨r₂, hr₂, hbehind⟩ := read_text htext hno
    rw [hr₁] at hr₂
    cases hr₂
    obtain ⟨q₁, hq₁, hbefore⟩ := read_text (halike.place.symm.trans htext) (hP m List.mem_cons_self)
    obtain ⟨q', hq', halike'⟩ :=
      exists_read_orig hmask hno (fun m hm => hP m (List.mem_cons_of_mem _ hm))
        (hbehind.symm.trans (halike.trans hbefore)) hrest
    exact ⟨q', read_append.2 ⟨q₁, hq₁, hq'⟩, halike'⟩

/-- **Stars put into a template leave its conversions, or make it an error.** -/
theorem exists_parse_orig {mask more : List Char} (hmask : mask = '*' :: '*' :: more)
    (hno : '%' ∉ mask) {P : List Piece} (hP : ∀ m, Piece.mask m ∈ P → '%' ∉ m) {items : List Item}
    (h : parse false (shown mask P) = some items) :
    ∃ items', parse false (orig P) = some items' ∧ conversions items' = conversions items := by
  obtain ⟨r, hr, hitems⟩ := Option.bind_eq_some_iff.1 h
  split at hitems
  next hplace =>
    obtain ⟨q, hq, halike⟩ := exists_read_orig hmask hno hP ⟨rfl, rfl, rfl, rfl⟩ hr
    refine ⟨q.items.reverse, Option.bind_eq_some_iff.2 ⟨q, hq, ?_⟩, ?_⟩
    · rw [if_pos (halike.place.symm.trans hplace)]
    · have heq := halike.conversions
      rw [← Option.some.inj hitems, conversions, conversions, List.filterMap_reverse,
        List.filterMap_reverse]
      exact congrArg List.reverse heq.symm
  next => cases hitems

theorem isType_read : ∀ {t : List Char} {r r' : Reader}, r.place.keyless = true →
    (∀ c, .conversion c ∈ r.items → isType c.type = true) → read false r t = some r' →
      ∀ c, .conversion c ∈ r'.items → isType c.type = true
  | [], r, r', _, hitems, h         => by
    cases h
    exact hitems
  | c :: t, r, r', hkeyless, hitems, h => by
    obtain ⟨q, hq, hrest⟩ := read_cons.1 h
    obtain ⟨m, hm, rfl⟩ := Option.map_eq_some_iff.1 hq
    have hsound := sound_advance hkeyless hm
    refine isType_read hsound.keyless (fun c' hc' => ?_) hrest
    rcases List.mem_append.1 hc' with hnew | hold
    · exact hsound.type c' (Option.mem_toList.1 hnew)
    · exact hitems c' hold

/-- Every conversion of a template has one of the types that there are. -/
theorem isType_of_parse {t : List Char} {items : List Item} (h : parse false t = some items) :
    ∀ c ∈ conversions items, isType c.type = true := by
  obtain ⟨r, hr, hitems⟩ := Option.bind_eq_some_iff.1 h
  intro c hc
  split at hitems
  next =>
    obtain ⟨item, hitem, heq⟩ := List.mem_filterMap.1 hc
    cases item with
    | text _ => cases heq
    | conversion c' =>
      cases heq
      rw [← Option.some.inj hitems, List.mem_reverse] at hitem
      exact isType_read rfl (fun _ hno => absurd hno List.not_mem_nil) hr c hitem
  next => cases hitems

/-! ## Replaced values -/

section
variable {V : Type} {F : Values V}

/-- The values from which an amount is taken. -/
inductive Takes (F : Values V) : Option Amount → List V → Option Int → Prop
  | none : Takes F none [] none
  | given {n : Nat} : Takes F (some (.given n)) [] (some (n : Int))
  | taken {v : V} {i : Int} : F.integer v = some i → Takes F (some .taken) [v] (some i)

theorem takeAmount_tuple {a : Option Amount} {vs : List V} {i : Option Int} {feed : Feed V} :
    takeAmount F a (.tuple vs) = some (i, feed) ↔
      ∃ us rest, vs = us ++ rest ∧ feed = .tuple rest ∧ Takes F a us i := by
  constructor
  · intro h
    match a with
    | none =>
      cases h
      exact ⟨[], vs, rfl, rfl, .none⟩
    | some (.given n) =>
      cases h
      exact ⟨[], vs, rfl, rfl, .given⟩
    | some .taken =>
      cases vs with
      | nil => cases h
      | cons v vs =>
        obtain ⟨j, hj, heq⟩ := Option.bind_eq_some_iff.1 h
        cases heq
        exact ⟨[v], vs, rfl, rfl, .taken hj⟩
  · rintro ⟨us, rest, rfl, rfl, htakes⟩
    cases htakes with
    | none => rfl
    | given => rfl
    | @taken v j hj =>
      change (F.integer v).bind _ = _
      rw [hj]
      rfl

/-- The values that a conversion takes, and what it shows. -/
structure Shows (F : Values V) (c : Conversion) (us ws : List V) (v : V) (text : List Char) :
    Prop where
  keyless : c.spec.key = none
  shown   : ∃ width precision, Takes F c.spec.width us width ∧
    Takes F c.spec.precision ws precision ∧
      F.convert ⟨c.spec.flags, width, precision, c.type⟩ v = some text

theorem textOf_tuple {c : Conversion} {vs : List V} {text : List Char} {feed : Feed V} :
    textOf F none c (.tuple vs) = some (text, feed) ↔
      ∃ us ws v rest, vs = us ++ (ws ++ v :: rest) ∧ feed = .tuple rest ∧ Shows F c us ws v text := by
  constructor
  · intro h
    obtain ⟨feed₀, hkey, h⟩ := Option.bind_eq_some_iff.1 h
    obtain ⟨⟨width, feed₁⟩, hwidth, h⟩ := Option.bind_eq_some_iff.1 h
    obtain ⟨⟨precision, feed₂⟩, hprecision, h⟩ := Option.bind_eq_some_iff.1 h
    obtain ⟨⟨v, feed₃⟩, hv, h⟩ := Option.bind_eq_some_iff.1 h
    obtain ⟨text', htext, heq⟩ := Option.bind_eq_some_iff.1 h
    cases heq
    cases hk : c.spec.key with
    | some k =>
      rw [hk] at hkey
      cases hkey
    | none =>
      rw [hk] at hkey
      cases hkey
      obtain ⟨us, vs₁, rfl, rfl, hus⟩ := takeAmount_tuple.1 hwidth
      obtain ⟨ws, vs₂, rfl, rfl, hws⟩ := takeAmount_tuple.1 hprecision
      cases vs₂ with
      | nil => cases hv
      | cons v' rest =>
        cases hv
        exact ⟨us, ws, v, rest, rfl, rfl, hk, width, precision, hus, hws, htext⟩
  · rintro ⟨us, ws, v, rest, rfl, rfl, hkey, width, precision, hus, hws, htext⟩
    refine Option.bind_eq_some_iff.2 ⟨.tuple (us ++ (ws ++ v :: rest)), by rw [hkey]; rfl, ?_⟩
    refine Option.bind_eq_some_iff.2 ⟨(width, .tuple (ws ++ v :: rest)),
      takeAmount_tuple.2 ⟨us, _, rfl, rfl, hus⟩, ?_⟩
    refine Option.bind_eq_some_iff.2 ⟨(precision, .tuple (v :: rest)),
      takeAmount_tuple.2 ⟨ws, _, rfl, rfl, hws⟩, ?_⟩
    exact Option.bind_eq_some_iff.2 ⟨(v, .tuple rest), rfl,
      Option.bind_eq_some_iff.2 ⟨text, htext, rfl⟩⟩

theorem texts_cons {mapping : Option (Mapping V)} {c : Conversion} {cs : List Conversion}
    {feed feed' : Feed V} {ts : List (List Char)} :
    texts F mapping (c :: cs) feed = some (ts, feed') ↔
      ∃ text feed₁ more, textOf F mapping c feed = some (text, feed₁) ∧
        texts F mapping cs feed₁ = some (more, feed') ∧ ts = text :: more := by
  constructor
  · intro h
    obtain ⟨⟨text, feed₁⟩, htext, h⟩ := Option.bind_eq_some_iff.1 h
    obtain ⟨⟨more, feed₂⟩, hmore, heq⟩ := Option.bind_eq_some_iff.1 h
    cases heq
    exact ⟨text, feed₁, more, htext, hmore, rfl⟩
  · rintro ⟨text, feed₁, more, htext, hmore, rfl⟩
    exact Option.bind_eq_some_iff.2 ⟨(text, feed₁), htext,
      Option.bind_eq_some_iff.2 ⟨(more, feed'), hmore, rfl⟩⟩

def amountAccepts : Option Amount → List Bool
  | some .taken => [false]
  | _           => []

/-- What a conversion takes of a tuple, place by place: does it accept every value? -/
def Conversion.accepts (c : Conversion) : List Bool :=
  amountAccepts c.spec.width ++ (amountAccepts c.spec.precision ++ [isText c.type])

/-- Every value that `f` replaces is taken by a conversion that accepts every value. -/
def Fits (f : V → V) (cs : List Conversion) (vs : List V) : Prop :=
  ∀ p ∈ (cs.flatMap Conversion.accepts).zip vs, f p.2 ≠ p.2 → p.1 = true

/-- Values are left alone or replaced by strings that are no single character. -/
def Replaces (F : Values V) (f : V → V) : Prop :=
  ∀ v, f v = v ∨ ∃ s, f v = F.ofStr s ∧ s.length ≠ 1

variable {f : V → V}

theorem Takes.length_eq {a : Option Amount} {us : List V} {i : Option Int} (h : Takes F a us i) :
    (amountAccepts a).length = us.length := by
  cases h with
  | none => rfl
  | given => rfl
  | taken _ => rfl

theorem Takes.fits_iff {a : Option Amount} {us : List V} {i : Option Int} (h : Takes F a us i) :
    (∀ p ∈ (amountAccepts a).zip us, f p.2 ≠ p.2 → p.1 = true) ↔ ∀ u ∈ us, f u = u := by
  cases h with
  | none => simp [amountAccepts]
  | given => simp [amountAccepts]
  | taken _ => simp [amountAccepts]

/-- No string is an amount. -/
theorem Takes.fixed (hf : Replaces F f) {a : Option Amount} {us : List V} {i : Option Int}
    (h : Takes F a (us.map f) i) : ∀ u ∈ us, f u = u := by
  generalize hmap : us.map f = us' at h
  cases h with
  | none =>
    rw [List.map_eq_nil_iff.1 hmap]
    exact fun u hu => absurd hu List.not_mem_nil
  | given =>
    rw [List.map_eq_nil_iff.1 hmap]
    exact fun u hu => absurd hu List.not_mem_nil
  | @taken v i hi =>
    obtain ⟨u, rfl, rfl⟩ := List.map_eq_singleton_iff.1 hmap
    intro u' hu'
    rw [List.mem_singleton.1 hu']
    rcases hf u with heq | ⟨s, heq, -⟩
    · exact heq
    · rw [heq, F.integer_ofStr] at hi
      cases hi

theorem fits_cons {c : Conversion} {cs : List Conversion} {us ws rest : List V} {v : V}
    {text : List Char} (h : Shows F c us ws v text) :
    Fits f (c :: cs) (us ++ (ws ++ v :: rest)) ↔
      (∀ u ∈ us, f u = u) ∧ (∀ w ∈ ws, f w = w) ∧ (f v ≠ v → isText c.type = true) ∧
        Fits f cs rest := by
  obtain ⟨width, precision, hus, hws, -⟩ := h.shown
  unfold Fits
  rw [List.flatMap_cons, Conversion.accepts, List.append_assoc, List.append_assoc,
    List.zip_append hus.length_eq, List.zip_append hws.length_eq, List.singleton_append,
    List.zip_cons_cons]
  simp only [List.forall_mem_append, List.forall_mem_cons]
  rw [hus.fits_iff, hws.fits_iff]

/-- **Replacing values that only text conversions take leaves the tuple showable.** -/
theorem exists_texts_map : ∀ {cs : List Conversion} {vs : List V} {ts : List (List Char)}
    {feed : Feed V}, texts F none cs (.tuple vs) = some (ts, feed) → Fits f cs vs →
      ∃ rest ts', feed = .tuple rest ∧
        texts F none cs (.tuple (vs.map f)) = some (ts', .tuple (rest.map f))
  | [], vs, ts, feed, h, _         => by
    cases h
    exact ⟨vs, [], rfl, rfl⟩
  | c :: cs, vs, ts, feed, h, hfit => by
    obtain ⟨text, feed₁, more, htext, hmore, rfl⟩ := texts_cons.1 h
    obtain ⟨us, ws, v, rest₁, rfl, rfl, hshows⟩ := textOf_tuple.1 htext
    obtain ⟨hus, hws, hv, hfit⟩ := (fits_cons hshows).1 hfit
    obtain ⟨rest, ts', rfl, hts'⟩ := exists_texts_map hmore hfit
    obtain ⟨width, precision, husTakes, hwsTakes, hconvert⟩ := hshows.shown
    have hconvert' : ∃ text', F.convert ⟨c.spec.flags, width, precision, c.type⟩ (f v) = some text' := by
      by_cases hsame : f v = v
      · exact ⟨text, by rw [hsame, hconvert]⟩
      · exact Option.isSome_iff_exists.1 (F.convert_text _ _ (hv hsame))
    obtain ⟨text', htext'⟩ := hconvert'
    refine ⟨rest, text' :: ts', rfl, texts_cons.2 ⟨text', .tuple (rest₁.map f), ts', ?_, hts', rfl⟩⟩
    refine textOf_tuple.2 ⟨us, ws, f v, rest₁.map f, ?_, rfl, hshows.keyless, width, precision,
      husTakes, hwsTakes, htext'⟩
    rw [List.map_append, List.map_append, List.map_cons, List.map_congr_left hus,
      List.map_congr_left hws, List.map_id', List.map_id']

theorem isText_of_convert (hf : Replaces F f) {shape : Shape} {v : V} {text : List Char}
    (htype : isType shape.type = true) (h : F.convert shape (f v) = some text) (hne : f v ≠ v) :
    isText shape.type = true := by
  rcases hf v with heq | ⟨s, heq, hlen⟩
  · exact absurd heq hne
  rw [heq] at h
  rw [isType, Bool.or_eq_true, Bool.or_eq_true, beq_iff_eq] at htype
  rcases htype with (htext | hnumber) | hchar
  · exact htext
  · rw [F.convert_number _ _ hnumber] at h
    cases h
  · rw [F.convert_char _ _ hchar hlen] at h
    cases h

/-- **Where a tuple is shown before and after, only text conversions take the replaced values.** -/
theorem fits_of_texts_map (hf : Replaces F f) : ∀ {cs : List Conversion} {vs : List V}
    {ts ts' : List (List Char)} {feed feed' : Feed V}, (∀ c ∈ cs, isType c.type = true) →
      texts F none cs (.tuple vs) = some (ts, feed) →
        texts F none cs (.tuple (vs.map f)) = some (ts', feed') → Fits f cs vs
  | [], vs, _, _, _, _, _, _, _            => fun p hp => by cases hp
  | c :: cs, vs, ts, ts', feed, feed', htype, h, h' => by
    obtain ⟨text, feed₁, more, htext, hmore, rfl⟩ := texts_cons.1 h
    obtain ⟨text', feed₁', more', htext', hmore', rfl⟩ := texts_cons.1 h'
    obtain ⟨us, ws, v, rest, rfl, rfl, hshows⟩ := textOf_tuple.1 htext
    obtain ⟨us', ws', v', rest', hvs, rfl, hshows'⟩ := textOf_tuple.1 htext'
    obtain ⟨width, precision, hus, hws, hconvert⟩ := hshows.shown
    obtain ⟨width', precision', hus', hws', hconvert'⟩ := hshows'.shown
    rw [List.map_append, List.map_append, List.map_cons] at hvs
    -- both runs cut the tuple at the same places
    have huslen : (us.map f).length = us'.length := by
      rw [List.length_map, ← hus.length_eq, hus'.length_eq]
    have hwslen : (ws.map f).length = ws'.length := by
      rw [List.length_map, ← hws.length_eq, hws'.length_eq]
    obtain ⟨rfl, hbehind⟩ := List.append_inj hvs huslen
    obtain ⟨rfl, hlast⟩ := List.append_inj hbehind hwslen
    obtain ⟨rfl, rfl⟩ := List.cons.inj hlast
    refine (fits_cons hshows).2 ⟨hus'.fixed hf, hws'.fixed hf, ?_, ?_⟩
    · exact isText_of_convert hf (htype c List.mem_cons_self) hconvert'
    · exact fits_of_texts_map hf (fun c hc => htype c (List.mem_cons_of_mem _ hc)) hmore hmore'

/-! ## One value -/

def plainAmount : Option Amount → Option (Option Int)
  | none            => some none
  | some (.given n) => some (some (n : Int))
  | some .taken     => none

/-- The text of a value in a conversion that takes nothing else. -/
def showOne (F : Values V) (c : Conversion) (v : V) : Option (List Char) := do
  let width ← plainAmount c.spec.width
  let precision ← plainAmount c.spec.precision
  F.convert ⟨c.spec.flags, width, precision, c.type⟩ v

theorem takeAmount_plain {a : Option Amount} {i : Option Int} (h : plainAmount a = some i)
    (feed : Feed V) : takeAmount F a feed = some (i, feed) := by
  match a with
  | none =>
    cases h
    rfl
  | some (.given n) =>
    cases h
    rfl
  | some .taken => cases h

theorem takeAmount_one {a : Option Amount} {v : Option V} {i : Option Int} {feed : Feed V}
    (h : takeAmount F a (.one v) = some (i, feed)) :
    (plainAmount a = some i ∧ feed = .one v) ∨ feed = .one none := by
  match a with
  | none =>
    cases h
    exact .inl ⟨rfl, rfl⟩
  | some (.given n) =>
    cases h
    exact .inl ⟨rfl, rfl⟩
  | some .taken =>
    cases v with
    | none => cases h
    | some v =>
      obtain ⟨j, hj, heq⟩ := Option.bind_eq_some_iff.1 h
      cases heq
      exact .inr rfl

theorem textOf_showOne {mapping : Option (Mapping V)} {c : Conversion} {feed feed' : Feed V} {v : V}
    {text : List Char} (hkey : c.spec.key = none) (hnext : feed.next = some (v, feed'))
    (h : showOne F c v = some text) : textOf F mapping c feed = some (text, feed') := by
  obtain ⟨width, hwidth, h⟩ := Option.bind_eq_some_iff.1 h
  obtain ⟨precision, hprecision, htext⟩ := Option.bind_eq_some_iff.1 h
  refine Option.bind_eq_some_iff.2 ⟨feed, by rw [hkey]; rfl, ?_⟩
  refine Option.bind_eq_some_iff.2 ⟨(width, feed), takeAmount_plain hwidth feed, ?_⟩
  refine Option.bind_eq_some_iff.2 ⟨(precision, feed), takeAmount_plain hprecision feed, ?_⟩
  exact Option.bind_eq_some_iff.2 ⟨(v, feed'), hnext, Option.bind_eq_some_iff.2 ⟨text, htext, rfl⟩⟩

/-- Without a key a conversion takes the one value there is, and there is none behind it. -/
theorem textOf_one {mapping : Option (Mapping V)} {c : Conversion} {o : Option V} {text : List Char}
    {feed : Feed V} (hkey : c.spec.key = none)
    (h : textOf F mapping c (.one o) = some (text, feed)) :
    ∃ v, o = some v ∧ feed = .one none ∧ showOne F c v = some text := by
  obtain ⟨feed₀, hfeed₀, h⟩ := Option.bind_eq_some_iff.1 h
  obtain ⟨⟨width, feed₁⟩, hwidth, h⟩ := Option.bind_eq_some_iff.1 h
  obtain ⟨⟨precision, feed₂⟩, hprecision, h⟩ := Option.bind_eq_some_iff.1 h
  obtain ⟨⟨v, feed₃⟩, hv, h⟩ := Option.bind_eq_some_iff.1 h
  obtain ⟨text', htext, heq⟩ := Option.bind_eq_some_iff.1 h
  rw [hkey] at hfeed₀
  cases hfeed₀
  cases heq
  have hempty : ∀ {a : Option Amount} {i : Option Int} {feed : Feed V},
      takeAmount F a (.one none) = some (i, feed) → feed = .one none := fun h =>
    (takeAmount_one h).elim (fun hplain => hplain.2) id
  rcases takeAmount_one hwidth with ⟨hw, rfl⟩ | rfl
  · rcases takeAmount_one hprecision with ⟨hp, rfl⟩ | rfl
    · cases o with
      | none => cases hv
      | some v' =>
        cases hv
        refine ⟨v, rfl, rfl, ?_⟩
        exact Option.bind_eq_some_iff.2 ⟨width, hw, Option.bind_eq_some_iff.2 ⟨precision, hp, htext⟩⟩
    · cases hv
  · rw [hempty hprecision] at hv
    cases hv

theorem keyless_of_texts_tuple : ∀ {cs : List Conversion} {vs : List V} {ts : List (List Char)}
    {feed : Feed V}, texts F none cs (.tuple vs) = some (ts, feed) → ∀ c ∈ cs, c.spec.key = none
  | [], _, _, _, _         => fun c hc => absurd hc List.not_mem_nil
  | c :: cs, vs, ts, feed, h => by
    obtain ⟨text, feed₁, more, htext, hmore, rfl⟩ := texts_cons.1 h
    obtain ⟨us, ws, v, rest, rfl, rfl, hshows⟩ := textOf_tuple.1 htext
    intro c' hc'
    rcases List.mem_cons.1 hc' with rfl | hc'
    · exact hshows.keyless
    · exact keyless_of_texts_tuple hmore c' hc'

/-- A mapping is enough for one conversion without a key. -/
theorem texts_one {mapping : Option (Mapping V)} {cs : List Conversion} {v : V}
    {ts : List (List Char)} {feed : Feed V} (hkey : ∀ c ∈ cs, c.spec.key = none)
    (h : texts F mapping cs (.one (some v)) = some (ts, feed)) :
    cs = [] ∨ ∃ c text, cs = [c] ∧ ts = [text] ∧ showOne F c v = some text := by
  cases cs with
  | nil => exact .inl rfl
  | cons c cs =>
    obtain ⟨text, feed₁, more, htext, hmore, rfl⟩ := texts_cons.1 h
    obtain ⟨v', hv', rfl, hshow⟩ := textOf_one (hkey c List.mem_cons_self) htext
    cases hv'
    cases cs with
    | nil =>
      cases hmore
      exact .inr ⟨c, text, rfl, rfl, hshow⟩
    | cons c' cs =>
      obtain ⟨text', feed₂, more', htext', -, -⟩ := texts_cons.1 hmore
      obtain ⟨v', hv', -, -⟩ := textOf_one (hkey c' (by simp)) htext'
      cases hv'

/-- A tuple of which one plain conversion leaves nothing has one value. -/
theorem texts_tuple_one {c : Conversion} {vs : List V} {ts : List (List Char)} {feed : Feed V}
    {w : V} {text : List Char} (hplain : showOne F c w = some text)
    (h : texts F none [c] (.tuple vs) = some (ts, feed)) (hused : feed.used = true) :
    ∃ v text', vs = [v] ∧ ts = [text'] ∧ showOne F c v = some text' := by
  obtain ⟨text', feed₁, more, htext, hmore, rfl⟩ := texts_cons.1 h
  cases hmore
  obtain ⟨width, hwidth, hplain⟩ := Option.bind_eq_some_iff.1 hplain
  obtain ⟨precision, hprecision, -⟩ := Option.bind_eq_some_iff.1 hplain
  obtain ⟨us, ws, v, rest, rfl, rfl, -, width', precision', hus, hws, hconvert⟩ :=
    textOf_tuple.1 htext
  have hnone : ∀ {a : Option Amount} {i i' : Option Int} {us : List V}, plainAmount a = some i →
      Takes F a us i' → us = [] ∧ plainAmount a = some i' := by
    intro a i i' us ha htakes
    cases htakes with
    | none => exact ⟨rfl, rfl⟩
    | given => exact ⟨rfl, rfl⟩
    | taken _ => cases ha
  obtain ⟨rfl, hwidth'⟩ := hnone hwidth hus
  obtain ⟨rfl, hprecision'⟩ := hnone hprecision hws
  cases rest with
  | cons r rest => cases hused
  | nil =>
    refine ⟨v, text', rfl, rfl, ?_⟩
    exact Option.bind_eq_some_iff.2
      ⟨width', hwidth', Option.bind_eq_some_iff.2 ⟨precision', hprecision', hconvert⟩⟩

/-- One conversion: the template shows what it shows. -/
theorem weave_injective : ∀ {items : List Item} {c : Conversion} {x y : List Char},
    conversions items = [c] → weave items [x] = weave items [y] → x = y
  | [], _, _, _, h, _                      => by cases h
  | .text d :: items, c, x, y, h, heq       => by
    have hrest : conversions items = [c] := h
    exact weave_injective hrest (List.cons.inj heq).2
  | .conversion d :: items, c, x, y, h, heq => List.append_cancel_right heq

end

end Percent
