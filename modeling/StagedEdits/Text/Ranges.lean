set_option autoImplicit false

/-! # Ranges of characters

Membership in a class of characters that is given as a table of closed ranges of code points, in
increasing order, with no two ranges touching. -/

namespace StagedEdits

/-- A table of closed ranges of code points. -/
abbrev CharRanges := Array (Nat × Nat)

namespace CharRanges

/-- Whether a code point lies in the rows `lo ≤ i < hi` of a sorted table: by halving. -/
def search (t : CharRanges) (n : Nat) (lo hi : Nat) : Bool :=
  if lo < hi then
    let mid := (lo + hi) / 2
    match t[mid]? with
    | none => false
    | some (a, b) =>
      if n < a then search t n lo mid
      else if b < n then search t n (mid + 1) hi
      else true
  else false
termination_by hi - lo

/-- Whether `c` lies in one of the ranges of the sorted table `t`. -/
def contains (t : CharRanges) (c : Char) : Bool :=
  t.search c.toNat 0 t.size

end CharRanges

end StagedEdits
