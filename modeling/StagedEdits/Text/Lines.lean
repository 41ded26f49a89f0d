import StagedEdits.Text.Blank

set_option autoImplicit false

/-! # Lines

Two notions of a line end. `splitLines` cuts at every character that ends a line, as a reader of
tool output wants it; `unifyNewlines` only turns the carriage returns of a file into line feeds.

Main definitions: `splitLines`, `unifyNewlines`. -/

namespace StagedEdits

/-- Whether a character ends a line. A carriage return and the line feed right after it end one
    line together. -/
def isLineEnd (c : Char) : Bool :=
  let n := c.toNat
  (0x0A ≤ n && n ≤ 0x0D) || (0x1C ≤ n && n ≤ 0x1E) || n == 0x85 || n == 0x2028 || n == 0x2029

/-- The lines of a text, without their ends. A last line that is empty is no line, so the empty
    text has none and a final line end adds none. -/
def splitLines : List Char → List (List Char)
  | [] => []
  | '\r' :: '\n' :: cs => [] :: splitLines cs
  | c :: cs =>
    if isLineEnd c then [] :: splitLines cs
    else
      match splitLines cs with
      | [] => [[c]]
      | l :: ls => (c :: l) :: ls

/-- A file's text as it is read: a carriage return, alone or before a line feed, becomes one line
    feed. -/
def unifyNewlines : List Char → List Char
  | [] => []
  | '\r' :: '\n' :: cs => '\n' :: unifyNewlines cs
  | '\r' :: cs => '\n' :: unifyNewlines cs
  | c :: cs => c :: unifyNewlines cs

/-- A text that was read holds no carriage return. -/
theorem carriageReturn_not_mem_unifyNewlines (cs : List Char) : '\r' ∉ unifyNewlines cs := by
  fun_induction unifyNewlines cs with
  | case1 => simp
  | case2 cs ih => simpa using ih
  | case3 cs _ ih => simpa using ih
  | case4 c cs _ hc ih =>
    intro h
    rcases List.mem_cons.1 h with h | h
    · exact hc h.symm
    · exact ih h

/-- A text without carriage returns is read as it is. -/
theorem unifyNewlines_of_not_mem {cs : List Char} (h : '\r' ∉ cs) : unifyNewlines cs = cs := by
  fun_induction unifyNewlines cs with
  | case1 => rfl
  | case2 cs ih => simp at h
  | case3 cs _ ih => simp at h
  | case4 c cs _ hc ih => rw [ih fun hmem => h (List.mem_cons_of_mem c hmem)]

end StagedEdits
