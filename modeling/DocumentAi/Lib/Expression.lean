import DocumentAi.Lib.Chars
import Mathlib.Data.List.Nodup
import Mathlib.Data.List.Infix

/-!
# Update and condition expressions as text

The store reads the text of a request: it splits it into words and signs, takes the words that
start with `:` for placeholders of values and the path segments that start with `#` for
placeholders of names, and parses an update as `SET` and a list of assignments.

| here | DynamoDB |
| --- | --- |
| `Assign`      | `path = :v` and `path = if_not_exists(source, :v)` |
| `tokens`, `parse` | the words and signs of an expression; a `SET` update as its assignments |
| `Request`     | `UpdateExpression`, `ExpressionAttributeValues`, `ExpressionAttributeNames`, `ConditionExpression` |
| `WellFormed`  | what a `ValidationException` is the answer to when it fails: the update parses, no two paths overlap, the placeholders used are the placeholders bound |

`ADD`, `REMOVE`, `DELETE` and arithmetic are not parsed.
-/

namespace Expression

/-! ## Words and signs -/

inductive Token where
  | word (w : String)
  | equals | comma | lparen | rparen
  | other (c : Char)
deriving DecidableEq

/-- A letter, a digit or an underscore, by its code. -/
def isNameChar (c : Char) : Bool :=
  let n := c.toNat
  (97 ≤ n && n ≤ 122) || (65 ≤ n && n ≤ 90) || (48 ≤ n && n ≤ 57) || n = 95

/-- The characters of names, of `#` and `:` placeholders and of dotted paths. -/
def isWordChar (c : Char) : Bool := isNameChar c || c = '#' || c = ':' || c = '.'

def sign (c : Char) : List Token :=
  if c = '=' then [.equals]
  else if c = ',' then [.comma]
  else if c = '(' then [.lparen]
  else if c = ')' then [.rparen]
  else if Chars.isSpace c then []
  else [.other c]

def flush : List Char → List Token
  | [] => []
  | w  => [.word (String.ofList w)]

/-- `cur` is the part of a word already read. -/
def lex (cur : List Char) : List Char → List Token
  | []      => flush cur
  | c :: cs =>
    if isWordChar c then lex (cur ++ [c]) cs else flush cur ++ sign c ++ lex [] cs

def tokens (s : String) : List Token := lex [] s.toList

def Token.word? : Token → Option String
  | .word w => some w
  | _       => none

def words (s : String) : List String := (tokens s).filterMap Token.word?

/-- A sign ends the word before it. -/
theorem lex_append_sign {c : Char} (hc : isWordChar c = false) (ys : List Char) :
    ∀ cur xs : List Char, lex cur (xs ++ c :: ys) = lex cur xs ++ sign c ++ lex [] ys
  | cur, [] => by
    rw [List.nil_append, lex, lex, hc, if_neg Bool.false_ne_true]
  | cur, x :: xs => by
    rw [List.cons_append, lex, lex]
    split
    · exact lex_append_sign hc ys _ xs
    · rw [lex_append_sign hc ys [] xs]
      simp only [List.append_assoc]

theorem lex_of_word : ∀ {w : List Char} (cur : List Char), w.all isWordChar = true →
    lex cur w = flush (cur ++ w)
  | [], cur, _ => by rw [List.append_nil, lex]
  | c :: w, cur, h => by
    rw [List.all_cons, Bool.and_eq_true] at h
    rw [lex, if_pos h.1, lex_of_word _ h.2, List.append_assoc, List.singleton_append]

def IsWord (w : String) : Prop := w ≠ "" ∧ (Chars.chars w).all isWordChar = true

instance (w : String) : Decidable (IsWord w) := inferInstanceAs (Decidable (_ ∧ _))

theorem lex_word {w : String} (h : IsWord w) : lex [] w.toList = [.word w] := by
  rw [lex_of_word [] (Chars.chars_eq w ▸ h.2), List.nil_append]
  cases hw : w.toList with
  | nil => exact absurd (String.toList_eq_nil_iff.1 hw) h.1
  | cons c cs =>
    change [Token.word (String.ofList (c :: cs))] = _
    rw [← hw, String.ofList_toList]

/-! ## Assignments -/

inductive Assign where
  | set (path value : String)
  | setIfNotExists (path source value : String)
deriving DecidableEq

namespace Assign

def path : Assign → String
  | set p _ | setIfNotExists p _ _ => p

def value : Assign → String
  | set _ v | setIfNotExists _ _ v => v

def text : Assign → String
  | set p v              => p ++ " = " ++ v
  | setIfNotExists p q v => p ++ " = if_not_exists(" ++ q ++ ", " ++ v ++ ")"

def tokens : Assign → List Token
  | set p v              => [.word p, .equals, .word v]
  | setIfNotExists p q v =>
    [.word p, .equals, .word "if_not_exists", .lparen, .word q, .comma, .word v, .rparen]

def words : Assign → List String
  | set p v              => [p, v]
  | setIfNotExists p q v => [p, "if_not_exists", q, v]

/-- Every name and placeholder is one word. -/
def Plain : Assign → Prop
  | set p v              => IsWord p ∧ IsWord v
  | setIfNotExists p q v => IsWord p ∧ IsWord q ∧ IsWord v

instance : DecidablePred Plain
  | set _ _              => inferInstanceAs (Decidable (_ ∧ _))
  | setIfNotExists _ _ _ => inferInstanceAs (Decidable (_ ∧ _ ∧ _))

end Assign

def parse : List Token → Option (List Assign)
  | [.word p, .equals, .word v] => some [.set p v]
  | .word p :: .equals :: .word v :: .comma :: rest => (parse rest).map (.set p v :: ·)
  | [.word p, .equals, .word f, .lparen, .word q, .comma, .word v, .rparen] =>
    if f = "if_not_exists" then some [.setIfNotExists p q v] else none
  | .word p :: .equals :: .word f :: .lparen :: .word q :: .comma :: .word v :: .rparen :: .comma
      :: rest =>
    if f = "if_not_exists" then (parse rest).map (.setIfNotExists p q v :: ·) else none
  | _ => none

def parseSet : List Token → Option (List Assign)
  | .word w :: rest => if w = "SET" then parse rest else none
  | _               => none

/-! ## An update that was written is read back -/

theorem sign_space : sign ' ' = [] := by decide +kernel

/-- Words apart from one another by signs and spaces. -/
theorem lex_cons_sign {c : Char} (hc : isWordChar c = false) (ys : List Char) :
    lex [] (c :: ys) = sign c ++ lex [] ys :=
  lex_append_sign hc ys [] []

theorem lex_word_sign {w : String} (h : IsWord w) {c : Char} (hc : isWordChar c = false)
    (ys : List Char) : lex [] (w.toList ++ c :: ys) = .word w :: (sign c ++ lex [] ys) := by
  rw [lex_append_sign hc, lex_word h, List.singleton_append, List.cons_append]

theorem isWord_ifNotExists : IsWord "if_not_exists" := by decide +kernel

theorem Assign.tokens_text {a : Assign} (h : a.Plain) : Expression.tokens a.text = a.tokens := by
  have hspace : isWordChar ' ' = false := by decide
  have hequals : isWordChar '=' = false := by decide
  cases a with
  | set p v =>
    have htext : (Assign.set p v).text.toList = p.toList ++ ' ' :: '=' :: ' ' :: v.toList := by
      simp [Assign.text]
    rw [Expression.tokens, htext, lex_word_sign h.1 hspace, lex_cons_sign hequals,
      lex_cons_sign hspace, lex_word h.2]
    rfl
  | setIfNotExists p q v =>
    have hlparen : isWordChar '(' = false := by decide
    have hrparen : isWordChar ')' = false := by decide
    have hcomma : isWordChar ',' = false := by decide
    have htext : (Assign.setIfNotExists p q v).text.toList = p.toList ++ ' ' :: '=' :: ' ' ::
        ("if_not_exists".toList ++ '(' :: (q.toList ++ ',' :: ' ' :: (v.toList ++ [')']))) := by
      simp [Assign.text]
    rw [Expression.tokens, htext, lex_word_sign h.1 hspace, lex_cons_sign hequals,
      lex_cons_sign hspace, lex_word_sign isWord_ifNotExists hlparen, lex_word_sign h.2.1 hcomma,
      lex_cons_sign hspace, lex_word_sign h.2.2 hrparen]
    rfl

/-- `"SET " + ", ".join(…)`. -/
def setText (as : List Assign) : String := "SET " ++ ", ".intercalate (as.map Assign.text)

def listTokens : List Assign → List Token
  | []           => []
  | [a]          => a.tokens
  | a :: b :: as => a.tokens ++ .comma :: listTokens (b :: as)

theorem tokens_append_comma (s t : String) :
    tokens (s ++ ", " ++ t) = tokens s ++ .comma :: tokens t := by
  have hcomma : isWordChar ',' = false := by decide
  have hspace : isWordChar ' ' = false := by decide
  have htext : (s ++ ", " ++ t).toList = s.toList ++ ',' :: ' ' :: t.toList := by simp
  rw [tokens, htext, lex_append_sign hcomma, lex_cons_sign hspace, sign_space, List.nil_append,
    List.append_assoc]
  rfl

theorem tokens_intercalate : ∀ {as : List Assign}, (∀ a ∈ as, a.Plain) →
    tokens (", ".intercalate (as.map Assign.text)) = listTokens as
  | [], _ => by
    rw [List.map_nil, String.intercalate_nil]
    decide +kernel
  | [a], h => by
    rw [List.map_singleton, String.intercalate_singleton]
    exact Assign.tokens_text (h a List.mem_cons_self)
  | a :: b :: as, h => by
    rw [List.map_cons, List.map_cons, String.intercalate_cons_cons, tokens_append_comma,
      ← List.map_cons, tokens_intercalate fun x hx => h x (List.mem_cons_of_mem _ hx),
      Assign.tokens_text (h a List.mem_cons_self), listTokens]

theorem tokens_setText {as : List Assign} (h : ∀ a ∈ as, a.Plain) :
    tokens (setText as) = .word "SET" :: listTokens as := by
  have hspace : isWordChar ' ' = false := by decide
  have hword : IsWord "SET" := by decide +kernel
  have htext : (setText as).toList =
      "SET".toList ++ ' ' :: (", ".intercalate (as.map Assign.text)).toList := by
    rw [setText, String.toList_append]
    rfl
  rw [tokens, htext, lex_word_sign hword hspace, sign_space, List.nil_append]
  exact congrArg _ (tokens_intercalate h)

theorem parse_tokens (a : Assign) : parse a.tokens = some [a] := by
  cases a <;> rfl

theorem parse_tokens_comma (a : Assign) (rest : List Token) :
    parse (a.tokens ++ .comma :: rest) = (parse rest).map (a :: ·) := by
  cases a <;> rfl

theorem parse_listTokens : ∀ {as : List Assign}, as ≠ [] → parse (listTokens as) = some as
  | [], h => absurd rfl h
  | [a], _ => parse_tokens a
  | a :: b :: as, _ => by
    rw [listTokens, parse_tokens_comma, parse_listTokens (List.cons_ne_nil b as), Option.map_some]

theorem parseSet_setText {as : List Assign} (hne : as ≠ []) (h : ∀ a ∈ as, a.Plain) :
    parseSet (tokens (setText as)) = some as := by
  rw [tokens_setText h, parseSet, if_pos rfl, parse_listTokens hne]

theorem words_listTokens : ∀ as : List Assign,
    (listTokens as).filterMap Token.word? = as.flatMap Assign.words
  | [] => rfl
  | [a] => by
    cases a <;> rfl
  | a :: b :: as => by
    rw [listTokens, List.filterMap_append, List.flatMap_cons, ← words_listTokens (b :: as)]
    cases a <;> rfl

theorem words_setText {as : List Assign} (h : ∀ a ∈ as, a.Plain) :
    words (setText as) = "SET" :: as.flatMap Assign.words := by
  rw [words, tokens_setText h, List.filterMap_cons, words_listTokens]
  rfl

/-- More assignments at the end of the text. -/
theorem setText_append {as bs : List Assign} (ha : as ≠ []) (hb : bs ≠ []) :
    setText as ++ ", " ++ ", ".intercalate (bs.map Assign.text) = setText (as ++ bs) := by
  have ha' : as.map Assign.text ≠ [] := mt List.map_eq_nil_iff.1 ha
  have hb' : bs.map Assign.text ≠ [] := mt List.map_eq_nil_iff.1 hb
  rw [setText, setText, List.map_append, String.intercalate_append_of_ne_nil ha' hb']
  simp only [String.append_assoc]

theorem setText_concat {as : List Assign} (h : as ≠ []) (a : Assign) :
    setText as ++ ", " ++ a.text = setText (as ++ [a]) := by
  rw [← setText_append h (List.cons_ne_nil a []), List.map_singleton, String.intercalate_singleton]

/-! ## Requests -/

structure Request (V : Type) where
  updateExpression : String
  values           : List (String × V)
  names            : List (String × String) := []
  condition        : Option String := none

def isValue (w : String) : Bool := (Chars.chars w).head? = some ':'

def isAlias (w : String) : Bool := (Chars.chars w).head? = some '#'

/-- The segments of a dotted path. -/
def segments (w : String) : List String := (Chars.splitOn '.' (Chars.chars w)).map String.ofList

/-- The attributes a path goes through, its aliases replaced. -/
def resolve (names : List (String × String)) (w : String) : List String :=
  (segments w).map fun s => (names.lookup s).getD s

/-- Neither path is the other or leads to it. -/
def Apart (p q : List String) : Prop := ¬ p <+: q ∧ ¬ q <+: p

instance : DecidableRel Apart := fun _ _ => inferInstanceAs (Decidable (_ ∧ _))

/-- The aliases in a list of words. -/
def aliases (ws : List String) : List String := (ws.flatMap segments).filter isAlias

namespace Request

variable {V : Type} (r : Request V)

def conditionWords : List String := (r.condition.map Expression.words).getD []

def words : List String := Expression.words r.updateExpression ++ r.conditionWords

def usedValues : List String := r.words.filter isValue

def usedNames : List String := aliases r.words

/-- The store does not reject the request as malformed. -/
structure WellFormed : Prop where
  paths_apart  : ∃ as, parseSet (tokens r.updateExpression) = some as ∧
    (as.map fun a => resolve r.names a.path).Pairwise Apart
  values_bound : ∀ v ∈ r.usedValues, v ∈ r.values.map Prod.fst
  values_used  : ∀ v ∈ r.values.map Prod.fst, v ∈ r.usedValues
  names_bound  : ∀ n ∈ r.usedNames, n ∈ r.names.map Prod.fst
  names_used   : ∀ n ∈ r.names.map Prod.fst, n ∈ r.usedNames

end Request

/-! ## Assignments that fit together -/

def isName (w : String) : Bool := w ≠ "" && (Chars.chars w).all isNameChar

/-- `:name`, `#name`. -/
def isPlaceholder (c : Char) (w : String) : Bool :=
  match Chars.chars w with
  | d :: cs => d = c && cs ≠ [] && cs.all isNameChar
  | []      => false

/-- One attribute, by its name or by an alias. -/
def isAttribute (w : String) : Bool := isName w || isPlaceholder '#' w

theorem isWordChar_of_isNameChar {c : Char} (h : isNameChar c = true) : isWordChar c = true := by
  rw [isWordChar, h]
  rfl

theorem head_of_isPlaceholder {c : Char} {w : String} (h : isPlaceholder c w = true) :
    ∃ cs, Chars.chars w = c :: cs ∧ cs.all isNameChar = true := by
  unfold isPlaceholder at h
  split at h
  next d cs hw =>
    rw [Bool.and_eq_true, Bool.and_eq_true, decide_eq_true_eq] at h
    obtain ⟨⟨rfl, -⟩, hcs⟩ := h
    exact ⟨cs, hw, hcs⟩
  next => cases h

theorem isWord_of_isName {w : String} (h : isName w = true) : IsWord w := by
  rw [isName, Bool.and_eq_true, decide_eq_true_eq] at h
  refine ⟨h.1, List.all_eq_true.2 fun c hc => ?_⟩
  exact isWordChar_of_isNameChar (List.all_eq_true.1 h.2 c hc)

theorem isWord_of_isPlaceholder {c : Char} (hc : isWordChar c = true) {w : String}
    (h : isPlaceholder c w = true) : IsWord w := by
  obtain ⟨cs, hw, hcs⟩ := head_of_isPlaceholder h
  refine ⟨?_, ?_⟩
  · rintro rfl
    rw [Chars.chars_eq] at hw
    cases hw
  · rw [hw, List.all_cons, hc, Bool.true_and]
    exact List.all_eq_true.2 fun d hd => isWordChar_of_isNameChar (List.all_eq_true.1 hcs d hd)

theorem segments_of_not_mem {w : String} (h : '.' ∉ Chars.chars w) : segments w = [w] := by
  rw [segments, Chars.splitOn_of_not_mem h, List.map_singleton, Chars.chars_eq, String.ofList_toList]

/-- What the lexer makes of a word of one attribute or one placeholder. -/
structure Reads (w : String) (ofValue ofName : Bool) : Prop where
  word     : IsWord w
  segments : segments w = [w]
  value    : isValue w = ofValue
  name     : isAlias w = ofName

theorem ne_of_isNameChar {c d : Char} (hd : isNameChar d = false) (h : isNameChar c = true) :
    c ≠ d := by
  rintro rfl
  rw [hd] at h
  cases h

theorem reads_of_isName {w : String} (h : isName w = true) : Reads w false false := by
  have hword := isWord_of_isName h
  have hchars : ∀ c ∈ Chars.chars w, isNameChar c = true := by
    rw [isName, Bool.and_eq_true] at h
    exact List.all_eq_true.1 h.2
  have hhead : ∀ d, isNameChar d = false → (Chars.chars w).head? ≠ some d := fun d hd hw =>
    ne_of_isNameChar hd (hchars d (List.mem_of_mem_head? hw)) rfl
  refine ⟨hword, segments_of_not_mem fun hdot => ?_, ?_, ?_⟩
  · exact ne_of_isNameChar (d := '.') (by decide) (hchars _ hdot) rfl
  · exact decide_eq_false (hhead ':' (by decide))
  · exact decide_eq_false (hhead '#' (by decide))

theorem reads_of_isPlaceholder {c : Char} (hc : isWordChar c = true) (hdot : c ≠ '.') {w : String}
    (h : isPlaceholder c w = true) : Reads w (c = ':') (c = '#') := by
  obtain ⟨cs, hw, hcs⟩ := head_of_isPlaceholder h
  refine ⟨isWord_of_isPlaceholder hc h, segments_of_not_mem fun hmem => ?_, ?_, ?_⟩
  · rw [hw] at hmem
    rcases List.mem_cons.1 hmem with h' | h'
    · exact hdot h'.symm
    · exact ne_of_isNameChar (d := '.') (by decide) (List.all_eq_true.1 hcs _ h') rfl
  · rw [isValue, hw, List.head?_cons]
    simp only [Option.some.injEq]
  · rw [isAlias, hw, List.head?_cons]
    simp only [Option.some.injEq]

theorem reads_value {w : String} (h : isPlaceholder ':' w = true) : Reads w true false :=
  reads_of_isPlaceholder (by decide) (by decide) h

theorem reads_attribute {w : String} (h : isAttribute w = true) :
    Reads w false (isPlaceholder '#' w) := by
  rw [isAttribute, Bool.or_eq_true] at h
  cases hp : isPlaceholder '#' w with
  | true => exact reads_of_isPlaceholder (by decide) (by decide) hp
  | false =>
    rw [hp] at h
    exact reads_of_isName (h.resolve_right Bool.false_ne_true)

namespace Assign

/-- One attribute is set, from one value. -/
def shaped : Assign → Bool
  | set p v              => isAttribute p && isPlaceholder ':' v
  | setIfNotExists p q v => isAttribute p && isAttribute q && isPlaceholder ':' v

/-- The attributes an assignment names. -/
def attributes : Assign → List String
  | set p _              => [p]
  | setIfNotExists p q _ => [p, q]

variable {a : Assign} (h : a.shaped = true)
include h

theorem plain_of_shaped : a.Plain := by
  cases a with
  | set p v =>
    rw [shaped, Bool.and_eq_true] at h
    exact ⟨(reads_attribute h.1).word, (reads_value h.2).word⟩
  | setIfNotExists p q v =>
    rw [shaped, Bool.and_eq_true, Bool.and_eq_true] at h
    exact ⟨(reads_attribute h.1.1).word, (reads_attribute h.1.2).word, (reads_value h.2).word⟩

theorem values_of_shaped : a.words.filter isValue = [a.value] := by
  cases a with
  | set p v =>
    rw [shaped, Bool.and_eq_true] at h
    simp only [words, List.filter_cons, (reads_attribute h.1).value, (reads_value h.2).value]
    rfl
  | setIfNotExists p q v =>
    have hf : isValue "if_not_exists" = false := by decide +kernel
    rw [shaped, Bool.and_eq_true, Bool.and_eq_true] at h
    simp only [words, List.filter_cons, (reads_attribute h.1.1).value, hf,
      (reads_attribute h.1.2).value, (reads_value h.2).value]
    rfl

theorem aliases_of_shaped : aliases a.words = a.attributes.filter (isPlaceholder '#') := by
  cases a with
  | set p v =>
    rw [shaped, Bool.and_eq_true] at h
    have hp := reads_attribute h.1
    have hv := reads_value h.2
    simp only [aliases, words, List.flatMap_cons, List.flatMap_nil, hp.segments, hv.segments,
      List.append_nil, List.singleton_append, List.filter_cons, hp.name, hv.name, attributes]
    rfl
  | setIfNotExists p q v =>
    have hf : Reads "if_not_exists" false false := reads_of_isName (by decide +kernel)
    rw [shaped, Bool.and_eq_true, Bool.and_eq_true] at h
    have hp := reads_attribute h.1.1
    have hq := reads_attribute h.1.2
    have hv := reads_value h.2
    simp only [aliases, words, List.flatMap_cons, List.flatMap_nil, hp.segments, hf.segments,
      hq.segments, hv.segments, List.append_nil, List.singleton_append, List.filter_cons, hp.name,
      hf.name, hq.name, hv.name, attributes]
    rfl

theorem segments_of_shaped : segments a.path = [a.path] := by
  cases a with
  | set p v =>
    rw [shaped, Bool.and_eq_true] at h
    exact (reads_attribute h.1).segments
  | setIfNotExists p q v =>
    rw [shaped, Bool.and_eq_true, Bool.and_eq_true] at h
    exact (reads_attribute h.1.1).segments

end Assign

/-- Assignments of the same shape to different attributes. -/
structure Tidy (names : List (String × String)) (as : List Assign) : Prop where
  shaped   : ∀ a ∈ as, a.shaped = true
  distinct : (as.map fun a => (names.lookup a.path).getD a.path).Nodup

instance (names : List (String × String)) (as : List Assign) : Decidable (Tidy names as) :=
  decidable_of_iff
    ((∀ a ∈ as, a.shaped = true) ∧ (as.map fun a => (names.lookup a.path).getD a.path).Nodup)
    ⟨fun ⟨hs, hd⟩ => ⟨hs, hd⟩, fun h => ⟨h.shaped, h.distinct⟩⟩

section
variable {names : List (String × String)} {as bs : List Assign}

/-- Leaving assignments out keeps a list tidy. -/
theorem Tidy.sublist (h : Tidy names bs) (hs : as.Sublist bs) : Tidy names as :=
  ⟨fun a ha => h.shaped a (hs.subset ha), h.distinct.sublist (hs.map _)⟩

theorem Tidy.plain (h : Tidy names as) (a : Assign) (ha : a ∈ as) : a.Plain :=
  Assign.plain_of_shaped (h.shaped a ha)

theorem apart_singleton {p q : String} (h : p ≠ q) : Apart [p] [q] := by
  constructor
  · rintro ⟨t, ht⟩
    exact h (List.cons.inj ht).1
  · rintro ⟨t, ht⟩
    exact h (List.cons.inj ht).1.symm

theorem Tidy.apart (h : Tidy names as) : (as.map fun a => resolve names a.path).Pairwise Apart := by
  rw [List.pairwise_map]
  refine (List.pairwise_map.1 h.distinct).imp_of_mem fun {a b} ha hb hab => ?_
  rw [resolve, resolve, Assign.segments_of_shaped (h.shaped a ha),
    Assign.segments_of_shaped (h.shaped b hb)]
  exact apart_singleton hab

theorem Tidy.values_setText (h : Tidy names as) :
    (words (setText as)).filter isValue = as.map Assign.value := by
  have hset : isValue "SET" = false := by decide +kernel
  rw [words_setText h.plain, List.filter_cons, hset, if_neg Bool.false_ne_true]
  have hval := fun a ha => Assign.values_of_shaped (h.shaped a ha)
  clear h hset
  induction as with
  | nil => rfl
  | cons a as ih =>
    rw [List.flatMap_cons, List.filter_append, hval a List.mem_cons_self,
      ih fun b hb => hval b (List.mem_cons_of_mem _ hb)]
    rfl

theorem aliases_append (xs ys : List String) : aliases (xs ++ ys) = aliases xs ++ aliases ys := by
  rw [aliases, List.flatMap_append, List.filter_append]
  rfl

theorem Tidy.aliases_setText (h : Tidy names as) : aliases (words (setText as)) =
    (as.flatMap Assign.attributes).filter (isPlaceholder '#') := by
  have hset : aliases ["SET"] = [] := by decide +kernel
  rw [words_setText h.plain, ← List.singleton_append, aliases_append, hset, List.nil_append]
  have halias := fun a ha => Assign.aliases_of_shaped (h.shaped a ha)
  clear h hset
  induction as with
  | nil => rfl
  | cons a as ih =>
    rw [List.flatMap_cons, aliases_append, halias a List.mem_cons_self,
      ih fun b hb => halias b (List.mem_cons_of_mem _ hb), List.flatMap_cons, List.filter_append]

/-! ## A request whose update is written from tidy assignments -/

section
variable {V : Type} {r : Request V} (hr : r.updateExpression = setText as) (h : Tidy r.names as)
include hr h

theorem Tidy.mem_usedValues {v : String} : v ∈ r.usedValues ↔
    v ∈ as.map Assign.value ∨ v ∈ r.conditionWords.filter isValue := by
  rw [Request.usedValues, Request.words, List.filter_append, hr, h.values_setText, List.mem_append]

theorem Tidy.mem_usedNames {n : String} : n ∈ r.usedNames ↔
    n ∈ (as.flatMap Assign.attributes).filter (isPlaceholder '#') ∨ n ∈ aliases r.conditionWords := by
  rw [Request.usedNames, Request.words, aliases_append, hr, h.aliases_setText, List.mem_append]

/-- What is left to check is that the placeholders used and bound are the same. -/
theorem Tidy.wellFormed_iff (hne : as ≠ []) : r.WellFormed ↔
    (∀ v, (v ∈ as.map Assign.value ∨ v ∈ r.conditionWords.filter isValue) ↔
      v ∈ r.values.map Prod.fst) ∧
    ∀ n, (n ∈ (as.flatMap Assign.attributes).filter (isPlaceholder '#') ∨ n ∈ aliases r.conditionWords) ↔
      n ∈ r.names.map Prod.fst := by
  simp only [← h.mem_usedValues hr, ← h.mem_usedNames hr]
  constructor
  · intro hw
    exact ⟨fun v => ⟨hw.values_bound v, hw.values_used v⟩, fun n => ⟨hw.names_bound n, hw.names_used n⟩⟩
  · rintro ⟨hv, hn⟩
    refine ⟨⟨as, ?_, h.apart⟩, fun v => (hv v).1, fun v => (hv v).2, fun n => (hn n).1,
      fun n => (hn n).2⟩
    rw [hr, parseSet_setText hne h.plain]

end

end

end Expression
