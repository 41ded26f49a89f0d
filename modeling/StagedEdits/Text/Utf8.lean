import StagedEdits.Text.Quoted

set_option autoImplicit false

/-! # UTF-8

Reading bytes as UTF-8. The core library encodes, and decodes what is valid; this module adds what
it leaves open: which bytes are at fault when they are not valid, and a reading of any bytes in
which each longest stretch that could still have begun a character becomes one `U+FFFD`.

Main definitions: `Utf8.decodeLossy`, `Utf8.defect?`. -/

namespace StagedEdits

namespace Utf8

/-! ## The grammar -/

/-- What a lead byte asks for: how many bytes follow, the range of the first of them, and the bits
    that the lead byte itself gives. -/
structure Lead where
  /-- The number of bytes that follow. -/
  more : Nat
  /-- The least value of the byte after the lead byte. -/
  low : Nat
  /-- The greatest value of the byte after the lead byte. -/
  high : Nat
  /-- The bits of the character that the lead byte holds. -/
  bits : Nat

/-- What a byte asks for as the first byte of a character. -/
def lead? (b : Nat) : Option Lead :=
  if b < 0x80 then some ⟨0, 0, 0, b⟩
  else if 0xC2 ≤ b && b ≤ 0xDF then some ⟨1, 0x80, 0xBF, b - 0xC0⟩
  else if b == 0xE0 then some ⟨2, 0xA0, 0xBF, b - 0xE0⟩
  else if b == 0xED then some ⟨2, 0x80, 0x9F, b - 0xE0⟩
  else if 0xE1 ≤ b && b ≤ 0xEF then some ⟨2, 0x80, 0xBF, b - 0xE0⟩
  else if b == 0xF0 then some ⟨3, 0x90, 0xBF, b - 0xF0⟩
  else if 0xF1 ≤ b && b ≤ 0xF3 then some ⟨3, 0x80, 0xBF, b - 0xF0⟩
  else if b == 0xF4 then some ⟨3, 0x80, 0x8F, b - 0xF0⟩
  else none

/-- What stands at the front of some bytes. -/
inductive Front where
  /-- A character, and the number of its bytes after the first. -/
  | char (c : Char) (more : Nat)
  /-- The first byte starts no character. -/
  | badStart
  /-- A character breaks off before a byte that cannot continue it, after `good` bytes behind the
      first. -/
  | badMiddle (good : Nat)
  /-- The bytes end inside a character, after `good` bytes behind the first. -/
  | cutOff (good : Nat)

/-- Reads the `more` bytes that continue a character, of which `good` are behind it. -/
def tails : (more low high acc good : Nat) → List UInt8 → Front
  | 0, _, _, acc, good, _ => .char (Char.ofNat acc) good
  | _ + 1, _, _, _, good, [] => .cutOff good
  | more + 1, low, high, acc, good, b :: bs =>
    let n := b.toNat
    if low ≤ n && n ≤ high then tails more 0x80 0xBF (acc * 64 + (n - 0x80)) (good + 1) bs
    else .badMiddle good

/-- Reads what the byte `b` and the bytes after it start with. -/
def front (b : UInt8) (bs : List UInt8) : Front :=
  match lead? b.toNat with
  | none => .badStart
  | some l => tails l.more l.low l.high l.bits 0 bs

/-! ## Reading any bytes -/

/-- The text of some bytes; each longest stretch that could have begun a character, and each other
    byte that is no part of one, becomes one `U+FFFD`. -/
def decodeLossy : List UInt8 → List Char
  | [] => []
  | b :: bs =>
    match front b bs with
    | .char c more => c :: decodeLossy (bs.drop more)
    | .badStart => '\uFFFD' :: decodeLossy bs
    | .badMiddle good => '\uFFFD' :: decodeLossy (bs.drop good)
    | .cutOff _ => ['\uFFFD']
termination_by bs => bs.length
decreasing_by all_goals simp only [List.length_cons, List.length_drop]; omega

/-! ## Defects -/

/-- Why bytes are not UTF-8. -/
inductive Defect where
  /-- The byte at an offset starts no character. -/
  | start (byte : UInt8) (offset : Nat)
  /-- The bytes from `first` to `last` begin a character that what follows does not continue. -/
  | middle (byte : UInt8) (first last : Nat)
  /-- The bytes end inside the character that the bytes from `first` to `last` begin. -/
  | ending (byte : UInt8) (first last : Nat)

/-- The first defect in some bytes, of which `offset` bytes have gone before. -/
def defect? (offset : Nat) : List UInt8 → Option Defect
  | [] => none
  | b :: bs =>
    match front b bs with
    | .char _ more => defect? (offset + 1 + more) (bs.drop more)
    | .badStart => some (.start b offset)
    | .badMiddle good => some (.middle b offset (offset + good))
    | .cutOff good => some (.ending b offset (offset + good))
termination_by bs => bs.length
decreasing_by simp only [List.length_cons, List.length_drop]; omega

/-- The bytes from `first` to `last` that a defect is about, the first one being `byte`, as its
    message names them. -/
def Defect.place (byte : UInt8) (first last : Nat) : String :=
  if first == last then
    "byte 0x" ++ String.ofList (hexDigits 2 byte.toNat) ++ " in position " ++ toString first
  else "bytes in position " ++ toString first ++ "-" ++ toString last

/-- The wording of a defect. -/
def Defect.message : Defect → String
  | .start b i => "'utf-8' codec can't decode " ++ place b i i ++ ": invalid start byte"
  | .middle b i j => "'utf-8' codec can't decode " ++ place b i j ++ ": invalid continuation byte"
  | .ending b i j => "'utf-8' codec can't decode " ++ place b i j ++ ": unexpected end of data"

end Utf8

end StagedEdits
