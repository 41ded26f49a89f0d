import StagedEdits.Text.Ascii

set_option autoImplicit false

/-! # Texts of code units

A text that is put together from characters and from code units of 16 bits, as they are written
behind a backslash or lie in bytes. A high and a low surrogate next to each other give one
character; a surrogate on its own gives `U+FFFD`.

Main definitions: `UnitText`, `ofUnits`. -/

namespace StagedEdits

/-- A text as far as it is there, the last character first. -/
structure UnitText where
  written : List Char
  /-- A high surrogate behind them, which may still find its low one. -/
  high : Option Nat

/-- Whether a code unit is the first half of a character. -/
def isHighSurrogate (u : Nat) : Bool := 0xD800 ≤ u && u ≤ 0xDBFF

/-- Whether a code unit is the second half of a character. -/
def isLowSurrogate (u : Nat) : Bool := 0xDC00 ≤ u && u ≤ 0xDFFF

namespace UnitText

/-- A text without characters. -/
def empty : UnitText := ⟨[], none⟩

/-- The characters once nothing more comes for the high surrogate. -/
def settled (t : UnitText) : List Char :=
  match t.high with
  | none => t.written
  | some _ => '\uFFFD' :: t.written

/-- The text `t` with the character `c` behind it. -/
def push (t : UnitText) (c : Char) : UnitText := ⟨c :: t.settled, none⟩

/-- The character of the surrogates `high` and `low`. -/
def paired (high low : Nat) : Char :=
  Char.ofNat (0x10000 + (high - 0xD800) * 0x400 + (low - 0xDC00))

/-- The text `t` with the code unit `u` behind it. -/
def pushUnit (t : UnitText) (u : Nat) : UnitText :=
  if isHighSurrogate u then ⟨t.settled, some u⟩
  else if isLowSurrogate u then
    match t.high with
    | some h => ⟨paired h u :: t.written, none⟩
    | none => t.push '\uFFFD'
  else t.push (Char.ofNat u)

/-- The characters of the text. -/
def chars (t : UnitText) : List Char := t.settled.reverse

end UnitText

/-- The characters of code units. -/
def ofUnits (us : List Nat) : List Char := (us.foldl UnitText.pushUnit .empty).chars

end StagedEdits
