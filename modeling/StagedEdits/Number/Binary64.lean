set_option autoImplicit false

/-! # Binary floating point numbers

The 64-bit binary numbers as exact values `± mantissa · 2 ^ exponent`, the number nearest to a
fraction, and the shortest decimal text that reads back as the number: of all decimals with the
fewest digits inside the interval that rounds to it, the one nearest to it.

Main definitions: `Binary64.ofFraction`, `Binary64.ofDecimal`, `Binary64.shortest`,
`Binary64.text`, `Binary64.wireText`. -/

namespace StagedEdits

/-- A 64-bit binary number. A finite one has a mantissa below `2 ^ 53` and an exponent between
    `-1074` and `971`. -/
inductive Binary64 where
  /-- The number `mantissa · 2 ^ exponent`, or its negative. -/
  | finite (negative : Bool) (mantissa : Nat) (exponent : Int)
  | infinite (negative : Bool)
  /-- The value that is no number. -/
  | nan
  deriving DecidableEq, Inhabited

namespace Binary64

/-! ## Rounding -/

/-- The natural number nearest to `num / den`; a half goes to the even neighbour. -/
def roundDiv (num den : Nat) : Nat :=
  let q := num / den
  let r := num % den
  if 2 * r < den || (2 * r == den && q % 2 == 0) then q else q + 1

/-- A fraction times `base ^ e`, as a fraction. -/
def scale (base : Nat) (num den : Nat) (e : Int) : Nat × Nat :=
  if 0 ≤ e then (num * Nat.pow base e.toNat, den) else (num, den * Nat.pow base (-e).toNat)

/-- The number nearest to `num / den`, below zero if `negative`; a tie goes to the even mantissa,
    and what is too large becomes an infinity. -/
def ofFraction (negative : Bool) (num den : Nat) : Binary64 :=
  if num == 0 then .finite negative 0 (-1074)
  else
    let k : Int := Int.ofNat num.log2 - Int.ofNat den.log2
    let (n0, d0) := scale 2 num den (52 - k)
    let e : Int := max (if n0 < Nat.pow 2 52 * d0 then k - 53 else k - 52) (-1074)
    let (n, d) := scale 2 num den (-e)
    let m := roundDiv n d
    let (m, e) := if m == Nat.pow 2 53 then (Nat.pow 2 52, e + 1) else (m, e)
    if 971 < e then .infinite negative else .finite negative m e

/-- The number of decimal digits of a natural number. -/
def digitCount (n : Nat) : Nat :=
  (Nat.toDigits 10 n).length

/-- The number nearest to `digits · 10 ^ exponent`. -/
def ofDecimal (negative : Bool) (digits : Nat) (exponent : Int) : Binary64 :=
  if digits == 0 then .finite negative 0 (-1074)
  else
    let size := Int.ofNat (digitCount digits) + exponent
    if 310 < size then .infinite negative
    else if size < -330 then .finite negative 0 (-1074)
    else
      let (n, d) := scale 10 digits 1 exponent
      ofFraction negative n d

/-- Whether a number is zero, of either sign. -/
def isZero : Binary64 → Bool
  | .finite _ m _ => m == 0
  | _ => false

/-- Whether a number is less than zero. -/
def isNegative : Binary64 → Bool
  | .finite neg m _ => neg && m != 0
  | .infinite neg => neg
  | .nan => false

/-! ## The shortest decimal -/

/-- The open or closed interval of fractions around `mid` that round to one number. All three
    bounds have the denominator `den`. -/
structure Interval where
  mid : Nat
  low : Nat
  high : Nat
  den : Nat
  /-- Whether the ends belong to it. -/
  closed : Bool

/-- The interval of what rounds to `mantissa · 2 ^ exponent`. Below a power of two the numbers
    lie twice as close. -/
def interval (mantissa : Nat) (exponent : Int) : Interval :=
  let down := if mantissa == Nat.pow 2 52 && exponent != -1074 then 1 else 2
  let (unit, den) := scale 2 1 1 (exponent - 2)
  { mid := 4 * mantissa * unit
    low := (4 * mantissa - down) * unit
    high := (4 * mantissa + 2) * unit
    den := den
    closed := mantissa % 2 == 0 }

/-- Whether `d · 10 ^ k` lies in the interval. -/
def Interval.holds (i : Interval) (d : Nat) (k : Int) : Bool :=
  let (n, m) := scale 10 d 1 k
  if i.closed then i.low * m ≤ n * i.den && n * i.den ≤ i.high * m
  else i.low * m < n * i.den && n * i.den < i.high * m

/-- The one of the two neighbours of the number on the grid of the multiples of `10 ^ k` that lies
    in the interval; of two, the nearer one, and at a tie the even one. -/
def Interval.onGrid (i : Interval) (k : Int) : Option Nat :=
  let (n, m) := scale 10 i.mid i.den (-k)
  let d := n / m
  let near := roundDiv n m
  let far := if near == d then d + 1 else d
  if i.holds near k then some near
  else if i.holds far k then some far
  else none

/-- The least `p` with the number below `10 ^ p`. -/
def Interval.point (i : Interval) : Int :=
  let p := Int.ofNat (digitCount i.mid) - Int.ofNat (digitCount i.den)
  let (n, m) := scale 10 i.den 1 p
  if i.mid * m < n then p else p + 1

/-- Looks for a decimal with as few digits as possible, trying `17 - left` digits next. -/
def Interval.search (i : Interval) (p : Int) : (left : Nat) → Nat × Int
  | 0 => ((i.onGrid (p - 17)).getD 0, p - 17)
  | left + 1 =>
    let k := p - Int.ofNat (17 - (left + 1) + 1)
    match i.onGrid k with
    | some d => (d, k)
    | none => i.search p left

/-- The shortest decimal of `mantissa · 2 ^ exponent`: its digits, and the power of ten of the last.
    A number just below a power of ten may find that power itself, as a ten on the grid below it. -/
def shortest (mantissa : Nat) (exponent : Int) : Nat × Int :=
  let i := interval mantissa exponent
  let (d, k) := i.search i.point 17
  if d == 10 then (1, k + 1) else (d, k)

/-! ## Its text -/

/-- The text of `n` zeros. -/
def zeros (n : Nat) : List Char :=
  List.replicate n '0'

/-- How the decimals of numbers are written. -/
structure DecimalStyle where
  /-- A number of less than `10 ^ tiny` is written with an exponent. -/
  tiny : Int
  /-- The least number of digits of an exponent. -/
  exponentDigits : Nat

/-- The style of messages: positional from `10 ^ -4` on, exponents of two digits or more. -/
def messageStyle : DecimalStyle := ⟨-4, 2⟩

/-- The style of the wire: positional from `10 ^ -5` on, exponents as short as they are. -/
def wireStyle : DecimalStyle := ⟨-5, 1⟩

/-- The exponent of ten `e` in `style`: a sign and its digits. -/
def exponentText (style : DecimalStyle) (e : Int) : List Char :=
  let ds := Nat.toDigits 10 e.natAbs
  (if e < 0 then '-' else '+') :: zeros (style.exponentDigits - ds.length) ++ ds

/-- The text of `d · 10 ^ k`: positional unless it is tiny or not below `10 ^ 16`, else with an
    exponent; whole numbers keep one zero behind the point. -/
def decimalText (style : DecimalStyle) (d : Nat) (k : Int) : List Char :=
  let ds := Nat.toDigits 10 d
  let p : Int := Int.ofNat ds.length + k
  if p ≤ style.tiny || 16 < p then
    match ds with
    | [] => []
    | [c] => c :: 'e' :: exponentText style (p - 1)
    | c :: cs => c :: '.' :: cs ++ 'e' :: exponentText style (p - 1)
  else if p ≤ 0 then '0' :: '.' :: zeros (-p).toNat ++ ds
  else if ds.length ≤ p.toNat then ds ++ zeros (p.toNat - ds.length) ++ ['.', '0']
  else ds.take p.toNat ++ '.' :: ds.drop p.toNat

/-- The shortest text of `mantissa · 2 ^ exponent`, in `style`, that reads back as it. -/
def finiteText (style : DecimalStyle) (negative : Bool) (mantissa : Nat) (exponent : Int) : String :=
  let body :=
    if mantissa == 0 then ['0', '.', '0']
    else
      let (d, k) := shortest mantissa exponent
      decimalText style d k
  String.ofList (if negative then '-' :: body else body)

/-- The text of a number in a message. -/
def text : Binary64 → String
  | .nan => "nan"
  | .infinite neg => if neg then "-inf" else "inf"
  | .finite neg m e => finiteText messageStyle neg m e

/-- The text of a number on the wire, which has no other numbers than finite ones. -/
def wireText : Binary64 → String
  | .finite neg m e => finiteText wireStyle neg m e
  | _ => "null"

/-- Whether a number is finite. -/
def isFinite : Binary64 → Bool
  | .finite .. => true
  | _ => false

/-- The number nearest to a whole one. -/
def ofInt (n : Int) : Binary64 := ofDecimal (n < 0) n.natAbs 0

end Binary64

/-! ## Spans of time -/

/-- A number of seconds, whole or not; the two are written differently. -/
inductive Seconds where
  | whole (n : Int)
  | real (x : Binary64)
  deriving DecidableEq, Inhabited

namespace Seconds

/-- The text of a span. -/
def text : Seconds → String
  | .whole n => toString n
  | .real x => x.text

/-- Whether a span is zero. -/
def isZero : Seconds → Bool
  | .whole n => n == 0
  | .real x => x.isZero

/-- Whether a span lies in the past. -/
def isNegative : Seconds → Bool
  | .whole n => n < 0
  | .real x => x.isNegative

/-- Whether a whole number of seconds is too large for a clock, which counts in binary numbers. -/
def isEndless : Seconds → Bool
  | .whole n => !(Binary64.ofInt n).isFinite
  | .real _ => false

end Seconds

end StagedEdits
