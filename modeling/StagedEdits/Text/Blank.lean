set_option autoImplicit false

/-! # Blank characters

Which characters count as blank, and the cuts that follow from it: trimming a text at its ends and
splitting it into its words. The class is the Unicode one (property `White_Space`, without the
zero-width characters) together with the four information separators `U+001C` to `U+001F`.

Main definitions: `isBlank`, `trim`, `words`. -/

namespace StagedEdits

/-! ## The class -/

/-- Whether a character is blank. -/
def isBlank (c : Char) : Bool :=
  let n := c.toNat
  (0x09 ≤ n && n ≤ 0x0D) || (0x1C ≤ n && n ≤ 0x20) || n == 0x85 || n == 0xA0 || n == 0x1680 ||
    (0x2000 ≤ n && n ≤ 0x200A) || n == 0x2028 || n == 0x2029 || n == 0x202F || n == 0x205F ||
    n == 0x3000

/-! ## Trimming -/

/-- The list without the items at its end that satisfy `p`. -/
def dropEndWhile {α : Type} (p : α → Bool) (xs : List α) : List α :=
  (xs.reverse.dropWhile p).reverse

/-- The text without the blanks at its start. -/
def trimStart (cs : List Char) : List Char :=
  cs.dropWhile isBlank

/-- The text without the blanks at its end. -/
def trimEnd (cs : List Char) : List Char :=
  dropEndWhile isBlank cs

/-- The text without the blanks at both ends. -/
def trim (cs : List Char) : List Char :=
  trimEnd (trimStart cs)

/-- Whether a text holds nothing but blanks. -/
def allBlank (cs : List Char) : Bool :=
  cs.all isBlank

/-! ## Words -/

/-- The pieces between the characters that satisfy `p`; always at least one, and one more than
    there are such characters. -/
def splitWhere (p : Char → Bool) : List Char → List (List Char)
  | [] => [[]]
  | c :: cs =>
    if p c then [] :: splitWhere p cs
    else
      match splitWhere p cs with
      | [] => [[c]]
      | w :: ws => (c :: w) :: ws

/-- The pieces of `cs` between the occurrences of `sep`. -/
def splitOnChar (sep : Char) (cs : List Char) : List (List Char) :=
  splitWhere (· == sep) cs

/-- The pieces joined by one character. -/
def joinWith (sep : Char) : List (List Char) → List Char
  | [] => []
  | [w] => w
  | w :: v :: ws => w ++ sep :: joinWith sep (v :: ws)

/-- The maximal runs of characters that are not blank. -/
def words (cs : List Char) : List (List Char) :=
  (splitWhere isBlank cs).filter (fun w => !w.isEmpty)

theorem splitWhere_ne_nil (p : Char → Bool) (cs : List Char) : splitWhere p cs ≠ [] := by
  induction cs with
  | nil => simp [splitWhere]
  | cons c cs ih =>
    simp only [splitWhere]
    split
    · simp
    · split <;> simp

/-- Joining the pieces with the character they were cut at gives the text back. -/
theorem joinWith_splitOnChar (sep : Char) (cs : List Char) :
    joinWith sep (splitOnChar sep cs) = cs := by
  unfold splitOnChar
  induction cs with
  | nil => rfl
  | cons c cs ih =>
    simp only [splitWhere]
    have hne := splitWhere_ne_nil (fun x => x == sep) cs
    by_cases hc : c = sep
    · subst hc
      simp only [beq_self_eq_true, if_true]
      cases hs : splitWhere (fun x => x == c) cs with
      | nil => exact absurd hs hne
      | cons w ws => rw [hs] at ih; simp [joinWith, ih]
    · have : (c == sep) = false := by simpa using hc
      simp only [this]
      cases hs : splitWhere (fun x => x == sep) cs with
      | nil => exact absurd hs hne
      | cons w ws =>
        rw [hs] at ih
        cases ws with
        | nil => simpa [joinWith] using ih
        | cons v vs => simpa [joinWith] using ih

end StagedEdits
