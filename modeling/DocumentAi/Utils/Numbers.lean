import DocumentAi.Config.Env
import DocumentAi.Lib.Chars

/-!
# Numeric strings

| here | there |
| --- | --- |
| `stripCurrency` | `re.sub(r"[\$,]", "", value)` |
| `numberPrefix`  | the match of `-?\d+(?:\.\d+)?` at the start of a text |
| `cleanNumber`   | `clean_number` (`utils/numbers.py:6-10`) |
-/

namespace DocumentAi

def stripCurrency (value : List Char) : List Char := value.filter fun c => c ≠ '$' && c ≠ ','

def signAndRest : List Char → List Char × List Char
  | '-' :: rest => (['-'], rest)
  | cs          => ([], cs)

def numberPrefix (isDigit : Char → Bool) (cs : List Char) : Option (List Char) :=
  let (sign, rest) := signAndRest cs
  let whole := rest.takeWhile isDigit
  if whole = [] then none
  else
    match rest.dropWhile isDigit with
    | '.' :: frac =>
      let digits := frac.takeWhile isDigit
      some (sign ++ whole ++ if digits = [] then [] else '.' :: digits)
    | _           => some (sign ++ whole)

def cleanNumber (isDigit : Char → Bool) (value : List Char) : List Char :=
  let value := Chars.trim (stripCurrency value)
  (numberPrefix isDigit value).getD value

end DocumentAi
