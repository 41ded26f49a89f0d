import StagedEdits.Number.Binary64
import StagedEdits.Text.Ascii
import StagedEdits.Text.Blank
import StagedEdits.Text.Digit
import StagedEdits.Text.Quoted

set_option autoImplicit false

/-! # Reading and writing numbers

Whole and binary numbers as a person writes them into a setting: blanks around them, a sign,
digits of any script and single underscores between digits are allowed. A whole number of more than
`maxDigits` digits is neither read nor written.

Main definitions: `readWhole`, `readReal`, `writeWhole`. -/

namespace StagedEdits

/-- Why a text is no number, or a number has no text. -/
inductive NumberFault where
  /-- It is not written like a whole number. -/
  | notWhole (text : String)
  /-- It has more digits than are read. -/
  | tooLong (digits : Nat)
  /-- It is not written like a number. -/
  | notReal (text : String)
  /-- It has more digits than are written. -/
  | unwritable
  deriving DecidableEq

/-- The most digits of a whole number that are read or written. -/
def maxDigits : Nat := 4300

/-- The most characters that a fault shows of a text that is no whole number. -/
def maxShown : Nat := 200

/-- The wording of a fault. -/
def NumberFault.message : NumberFault → String
  | .notWhole s =>
    "invalid literal for int() with base 10: " ++ String.ofList ((quoted s).toList.take maxShown)
  | .tooLong n =>
    "Exceeds the limit (" ++ toString maxDigits ++
      " digits) for integer string conversion: value has " ++ toString n ++
      " digits; use sys.set_int_max_str_digits() to increase the limit"
  | .notReal s => "could not convert string to float: " ++ quoted s
  | .unwritable =>
    "Exceeds the limit (" ++ toString maxDigits ++
      " digits) for integer string conversion; use sys.set_int_max_str_digits() to increase the limit"

/-! ## Pieces -/

/-- The text with every decimal digit written in ASCII. -/
def asciiDigits (cs : List Char) : List Char :=
  cs.map (fun c =>
    match digitValue? c with
    | some v => Char.ofNat (0x30 + v)
    | none => c)

/-- The text without its underscores; nothing if one of them does not stand between two digits.
    The flag tells whether a digit stands before. -/
def dropUnderscores : (before : Bool) → List Char → Option (List Char)
  | _, [] => some []
  | before, '_' :: cs =>
    match cs with
    | d :: _ => if before && isAsciiDigit d then dropUnderscores false cs else none
    | [] => none
  | _, c :: cs => (dropUnderscores (isAsciiDigit c) cs).map (c :: ·)

/-- A sign, if there is one, and the rest. -/
def takeSign : List Char → Bool × List Char
  | '-' :: cs => (true, cs)
  | '+' :: cs => (false, cs)
  | cs => (false, cs)

/-- Whether a character is a blank around a number: any blank but the four separators of ASCII. -/
def isNumberBlank (c : Char) : Bool :=
  if c.toNat < 0x80 then isAsciiBlank c else isBlank c

/-- The text of a number without the blanks around it, with its digits written in ASCII. -/
def numberText (s : String) : List Char :=
  asciiDigits (dropEndWhile isNumberBlank (s.toList.dropWhile isNumberBlank))

/-! ## Whole numbers -/

/-- Reads a whole number that was written in decimal digits. -/
def readDigits (cs : List Char) : Except NumberFault Nat :=
  if maxDigits < cs.length then .error (.tooLong cs.length) else .ok (decimalValue cs)

/-- Reads a whole number. The digits that stand first are read before what stands behind them is
    looked at. -/
def readWhole (s : String) : Except NumberFault Int :=
  let (negative, cs) := takeSign (numberText s)
  let run := cs.takeWhile (fun c => isAsciiDigit c || c == '_')
  match dropUnderscores false run with
  | none => .error (.notWhole s)
  | some ds =>
    if ds.isEmpty then .error (.notWhole s)
    else do
      let n ← readDigits ds
      if run.length < cs.length then .error (.notWhole s)
      else return if negative then -Int.ofNat n else Int.ofNat n

/-- Writes a whole number in decimal digits; its sign is not one of them. -/
def writeWhole (n : Int) : Except NumberFault String :=
  if maxDigits < (toString n.natAbs).length then .error .unwritable else .ok (toString n)

/-! ## Binary numbers -/

/-- The value that is no decimal and goes by the name `cs`. -/
def namedReal? (negative : Bool) (cs : List Char) : Option Binary64 :=
  let name := String.ofList (cs.map Char.toLower)
  if name == "inf" || name == "infinity" then some (.infinite negative)
  else if name == "nan" then some .nan
  else none

/-- Reads an exponent, or nothing. -/
def readExponent? : List Char → Option Int
  | [] => some 0
  | c :: cs =>
    if c == 'e' || c == 'E' then
      let (negative, ds) := takeSign cs
      if ds.isEmpty || !ds.all isAsciiDigit then none
      else
        let n := Int.ofNat (decimalValue ds)
        some (if negative then -n else n)
    else none

/-- Reads `cs` as a decimal with an optional point and an optional exponent. -/
def readDecimal? (negative : Bool) (cs : List Char) : Option Binary64 :=
  let whole := cs.takeWhile isAsciiDigit
  let rest := cs.dropWhile isAsciiDigit
  let (frac, rest) :=
    match rest with
    | '.' :: rest => (rest.takeWhile isAsciiDigit, rest.dropWhile isAsciiDigit)
    | _ => ([], rest)
  if whole.isEmpty && frac.isEmpty then none
  else
    (readExponent? rest).map (fun e =>
      Binary64.ofDecimal negative (decimalValue (whole ++ frac)) (e - Int.ofNat frac.length))

/-- Reads a binary number. -/
def readReal (s : String) : Except NumberFault Binary64 :=
  match dropUnderscores false (numberText s) with
  | none => .error (.notReal s)
  | some cs =>
    let (negative, cs) := takeSign cs
    match namedReal? negative cs with
    | some x => .ok x
    | none =>
      match readDecimal? negative cs with
      | some x => .ok x
      | none => .error (.notReal s)

end StagedEdits
