import StagedEdits.Text.Units

set_option autoImplicit false

/-! # Wide encodings

A text that starts with two ASCII characters tells by the zeros among its first bytes whether its
characters take one byte, two or four, and which byte of a unit comes first.

Main definitions: `Encoding.ofBytes`, `decodeBytes?`. -/

namespace StagedEdits

/-- How characters lie in bytes. -/
inductive Encoding where
  | utf8
  /-- In units of two bytes, the high or the low one first. -/
  | utf16 (highFirst : Bool)
  /-- In units of four bytes, the highest or the lowest one first. -/
  | utf32 (highFirst : Bool)
  deriving DecidableEq

namespace Encoding

/-- The encoding that the first bytes of a text show. -/
def ofBytes : List UInt8 → Encoding
  | [a, b] => if a == 0 then .utf16 true else if b == 0 then .utf16 false else .utf8
  | a :: b :: c :: d :: _ =>
    if a == 0 then (if b == 0 then .utf32 true else .utf16 true)
    else if b == 0 then (if c == 0 && d == 0 then .utf32 false else .utf16 false)
    else .utf8
  | _ => .utf8

end Encoding

/-- The number that bytes write, the highest one first. -/
def bytesValue (bytes : List UInt8) : Nat := bytes.foldl (fun n b => 256 * n + b.toNat) 0

/-- The number of a unit of `bytes`, the highest byte standing first if `highFirst`. -/
def unitValue (highFirst : Bool) (bytes : List UInt8) : Nat :=
  bytesValue (if highFirst then bytes else bytes.reverse)

/-- The units of two bytes; none if a byte is left over. -/
def pairs? (highFirst : Bool) : List UInt8 → Option (List Nat)
  | [] => some []
  | a :: b :: rest => (pairs? highFirst rest).map (unitValue highFirst [a, b] :: ·)
  | _ => none

/-- The units of four bytes; none if bytes are left over. -/
def quads? (highFirst : Bool) : List UInt8 → Option (List Nat)
  | [] => some []
  | a :: b :: c :: d :: rest => (quads? highFirst rest).map (unitValue highFirst [a, b, c, d] :: ·)
  | _ => none

/-- The character of a code point; none beyond Unicode. A surrogate gives `U+FFFD`. -/
def codePoint? (n : Nat) : Option Char :=
  if 0x10FFFF < n then none
  else if isHighSurrogate n || isLowSurrogate n then some '\uFFFD'
  else some (Char.ofNat n)

/-- The characters of bytes in the encoding that they show. -/
def decodeBytes? (bytes : ByteArray) : Option (List Char) :=
  match Encoding.ofBytes bytes.toList with
  | .utf8 => (String.fromUTF8? bytes).map String.toList
  | .utf16 highFirst => (pairs? highFirst bytes.toList).map ofUnits
  | .utf32 highFirst => do (← quads? highFirst bytes.toList).mapM codePoint?

end StagedEdits
