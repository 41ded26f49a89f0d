import StagedEdits.Number.Reading
import StagedEdits.Text.CharName

set_option autoImplicit false

/-! # Character references

The references `&name;`, `&#10;` and `&#x2f;` of a markup attribute, and the text they stand for.
A number names its code point, except that the C1 controls stand for the Windows-1252 characters,
that NUL, surrogates and numbers beyond Unicode give `U+FFFD`, and that the code points which are
no characters give nothing. A decimal number of too many digits is not read at all, and with it
the whole text. The names are those of `characterNames`; where one of `bareNames` stands without its
semicolon, the longest of them that the text starts with wins.

Main definitions: `readRef`, `expandRefs`. -/

namespace StagedEdits

/-! ## Numbers -/

/-- What the numbers 128 to 159 stand for. -/
def c1Replacements : List Nat := [
  0x20AC, 0x81, 0x201A, 0x0192, 0x201E, 0x2026, 0x2020, 0x2021, 0x02C6, 0x2030, 0x0160, 0x2039,
  0x0152, 0x8D, 0x017D, 0x8F, 0x90, 0x2018, 0x2019, 0x201C, 0x201D, 0x2022, 0x2013, 0x2014,
  0x02DC, 0x2122, 0x0161, 0x203A, 0x0153, 0x9D, 0x017E, 0x0178]

/-- Whether a code point is one that no reference may name: a control other than the usual white
    space, or a noncharacter. -/
def isForbiddenRef (n : Nat) : Bool :=
  (0x01 ≤ n && n ≤ 0x08) || n == 0x0B || (0x0E ≤ n && n ≤ 0x1F) || (0x7F ≤ n && n ≤ 0x9F) ||
    (0xFDD0 ≤ n && n ≤ 0xFDEF) || (0xFFFE ≤ n && n % 0x10000 ≥ 0xFFFE)

/-- The text that a numeric reference stands for. -/
def expandNumber (n : Nat) : List Char :=
  if n = 0 then ['\uFFFD']
  else if 0x80 ≤ n && n ≤ 0x9F then [Char.ofNat (c1Replacements.getD (n - 0x80) n)]
  else if (0xD800 ≤ n && n ≤ 0xDFFF) || 0x10FFFF < n then ['\uFFFD']
  else if isForbiddenRef n then []
  else [Char.ofNat n]

/-! ## Names -/

/-- The text of a name that is closed by a semicolon. -/
def closedName? (name : List Char) : Option (List Char) :=
  (characterNames.lookup (String.ofList name)).map (·.map Char.ofNat)

/-- The text of a name that stands without a semicolon. -/
def bareName? (name : List Char) : Option (List Char) :=
  if String.ofList name ∈ bareNames then closedName? name else none

/-- The longest of the first `n` beginnings of `name`, of two characters or more, that may stand
    without a semicolon: its text and its length. -/
def longestBare (name : List Char) : Nat → Option (List Char × Nat)
  | 0 => none
  | n + 1 =>
    if n + 1 < 2 then none
    else
      match bareName? (name.take (n + 1)) with
      | some t => some (t, n + 1)
      | none => longestBare name n

/-- The text of `name`, which was read with or without a closing semicolon. A name that is not
    known may still start with one that is; the rest of it then stays as it is. -/
def expandName (name : List Char) (closed : Bool) : List Char :=
  let written := if closed then name ++ [';'] else name
  let exact := if closed then closedName? name else bareName? name
  match exact with
  | some t => t
  | none =>
    match longestBare name (written.length - 1) with
    | some (t, n) => t ++ written.drop n
    | none => '&' :: written

/-! ## Reading a reference -/

/-- The number that hexadecimal digits write. -/
def hexDigitsValue (ds : List Char) : Nat :=
  ds.foldl (fun n c => 16 * n + (hexValue? c).getD 0) 0

/-- Whether a character may stand in the name of a reference. -/
def isRefNameChar (c : Char) : Bool :=
  !(c == '\t' || c == '\n' || c == '\u000C' || c == ' ' || c == '<' || c == '&' || c == '#' ||
    c == ';')

/-- How many characters a closing semicolon takes. -/
def semicolon (rest : List Char) : Nat :=
  match rest with
  | ';' :: _ => 1
  | _ => 0

/-- The reference that the text after an ampersand starts with: what it stands for and how many
    characters it takes. -/
def readRef (cs : List Char) : Except NumberFault (Option (List Char × Nat)) :=
  match cs with
  | '#' :: rest =>
    let ds := rest.takeWhile isAsciiDigit
    if !ds.isEmpty then
      (readDigits ds).map (fun n =>
        some (expandNumber n, 1 + ds.length + semicolon (rest.drop ds.length)))
    else
      match rest with
      | x :: rest =>
        let hs := rest.takeWhile (fun c => (hexValue? c).isSome)
        if (x == 'x' || x == 'X') && !hs.isEmpty then
          .ok (some (expandNumber (hexDigitsValue hs),
            2 + hs.length + semicolon (rest.drop hs.length)))
        else .ok none
      | [] => .ok none
  | _ =>
    let name := (cs.takeWhile isRefNameChar).take 32
    if name.isEmpty then .ok none
    else
      let k := semicolon (cs.drop name.length)
      .ok (some (expandName name (k == 1), name.length + k))

/-- The text with every character reference replaced by what it stands for; the first one that cannot
    be read is the fault. -/
def expandRefs : List Char → Except NumberFault (List Char)
  | [] => .ok []
  | '&' :: cs =>
    match readRef cs with
    | .error f => .error f
    | .ok (some (t, n)) => (expandRefs (cs.drop n)).map (t ++ ·)
    | .ok none => (expandRefs cs).map ('&' :: ·)
  | c :: cs => (expandRefs cs).map (c :: ·)
termination_by cs => cs.length
decreasing_by all_goals simp only [List.length_cons, List.length_drop]; omega

/-- A text without an ampersand holds no reference. -/
theorem expandRefs_of_not_mem {cs : List Char} (h : '&' ∉ cs) : expandRefs cs = .ok cs := by
  induction cs with
  | nil => simp [expandRefs]
  | cons c cs ih =>
    have hc : c ≠ '&' := fun e => h (by simp [e])
    have hcs : '&' ∉ cs := fun e => h (by simp [e])
    rw [expandRefs, ih hcs]
    · rfl
    · exact fun e => hc e

end StagedEdits
