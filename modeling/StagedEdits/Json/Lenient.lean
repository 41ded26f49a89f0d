import StagedEdits.Json
import StagedEdits.Number.Reading

set_option autoImplicit false

/-! # Lenient readings

Numbers and truth values from JSON, read leniently: a whole number may be written with a point, as a
truth value or as a text; a truth value may be written as a number or a word.

Main definitions: `lenientWhole?`, `lenientTruth?`. -/

namespace StagedEdits

/-! ## Whole numbers -/

/-- The value of a binary number that is whole. -/
def Binary64.whole? : Binary64 → Option Int
  | .finite negative mantissa exponent =>
    let sign (n : Nat) : Int := if negative then -(n : Int) else n
    if 0 ≤ exponent then some (sign (mantissa * Nat.pow 2 exponent.toNat))
    else if mantissa % Nat.pow 2 (-exponent).toNat == 0 then
      some (sign (mantissa / Nat.pow 2 (-exponent).toNat))
    else none
  | _ => none

/-- Binary numbers are read as whole ones only below this bound, on both sides of zero. -/
def wholeBound : Int := Int.pow 2 63

/-- The value of a binary number that is whole and not too large. -/
def Binary64.smallWhole? (x : Binary64) : Option Int :=
  match x.whole? with
  | some n => if -wholeBound < n && n < wholeBound then some n else none
  | none => none

/-- Drops the zeros and underscores that a number goes on with behind its first zero. The zero before
    a point stays, and so does the last character. A minus sign ends them as a digit does. -/
def dropZeros (last : Char) : List Char → Option (List Char)
  | [] => some [last]
  | c :: cs =>
    if c == '0' || c == '_' then dropZeros c cs
    else if c == '.' then some (last :: c :: cs)
    else if c == '-' || isAsciiDigit c then some (c :: cs)
    else none

/-- The text of a number without the zeros that it starts with; nothing for a text that does not
    start with a digit. -/
def dropLeadingZeros : List Char → Option (List Char)
  | [] => none
  | c :: cs =>
    if c == '0' then dropZeros '0' cs
    else if isAsciiDigit c then some (c :: cs)
    else none

/-- A text without a point that only zeros stand behind. -/
def dropPointZeros (cs : List Char) : List Char :=
  let front := cs.takeWhile (· != '.')
  match cs.drop front.length with
  | _ :: z :: zeros => if (z :: zeros).all (· == '0') then front else cs
  | _ => cs

/-- Whether two underscores stand next to each other. -/
def hasDoubleUnderscore : List Char → Bool
  | '_' :: '_' :: _ => true
  | _ :: cs => hasDoubleUnderscore cs
  | [] => false

/-- A text without its underscores, if they all stand alone and inside of it. -/
def dropInnerUnderscores (cs : List Char) : List Char :=
  if cs.head? == some '_' || cs.getLast? == some '_' || hasDoubleUnderscore cs then cs
  else cs.filter (· != '_')

/-- Whether a text is a numeral: ASCII digits, of which the first is no zero unless it is the only
    one. -/
def isNumeral : List Char → Bool
  | [] => false
  | [d] => isAsciiDigit d
  | d :: ds => d != '0' && (d :: ds).all isAsciiDigit

/-- Reads a minus sign, if there is one, and a numeral; the sign counts to its length. -/
def readSigned? (cs : List Char) : Option Int :=
  if maxDigits < cs.length then none
  else
    match cs with
    | '-' :: ds => if isNumeral ds then some (-Int.ofNat (decimalValue ds)) else none
    | ds => if isNumeral ds then some (Int.ofNat (decimalValue ds)) else none

/-- Reads a whole number that was written as a text. The zeros behind its sign are dropped, and a
    minus sign that stands behind them counts if there was none before. -/
def readLenientWhole? (s : String) : Option Int := do
  let (negative, cs) := takeSign (dropEndWhile isNumberBlank (s.toList.dropWhile isNumberBlank))
  let ds ← dropLeadingZeros cs
  readSigned? (dropInnerUnderscores (dropPointZeros (if negative then '-' :: ds else ds)))

/-- Reads a whole number leniently. -/
def lenientWhole? : Json → Option Int
  | .int n => some n
  | .real x => x.smallWhole?
  | .bool b => some (if b then 1 else 0)
  | .str s => readLenientWhole? s
  | _ => none

/-! ## Truth values -/

/-- The words for yes. -/
def yesWords : List String := ["1", "on", "t", "true", "y", "yes"]

/-- The words for no. -/
def noWords : List String := ["0", "off", "f", "false", "n", "no"]

/-- Reads a word as a truth value, in any case. -/
def readTruth? (s : String) : Option Bool :=
  let word := String.ofList (s.toList.map Char.toLower)
  if yesWords.contains word then some true
  else if noWords.contains word then some false
  else none

/-- Reads a truth value leniently. -/
def lenientTruth? : Json → Option Bool
  | .bool b => some b
  | .str s => readTruth? s
  | .int n => if n == 0 then some false else if n == 1 then some true else none
  | .real x =>
    match x.whole? with
    | some 0 => some false
    | some 1 => some true
    | _ => none
  | _ => none

end StagedEdits
