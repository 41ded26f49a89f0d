import StagedEdits.Proofs.StableOrder
import StagedEdits.Repair.Digest

set_option autoImplicit false

/-! # The text of a repair digest

A digest tells how many problems there are, then the first of them in stable order of their places,
numbered from one on, and how many are left out, if any. It goes by the problems at each place and
by the order at each place alone, so it does not matter whether the problems were sorted before.
There is a digest unless one of the problems that it would show has a number which `writeWhole`
refuses.

Main definitions: `Problem.Writable`, `numberedText`, `shownCount`. Main statements:
`SortsStably.repairDigest_eq`, `KeepsTies.repairDigest_eq`. -/

namespace StagedEdits

/-! ## One problem -/

/-- That each number of a problem has no more than `maxDigits` digits. -/
def Problem.Writable (p : Problem) : Prop :=
  ∀ n ∈ [p.line, p.column, p.code], (toString n.natAbs).length ≤ maxDigits

instance (p : Problem) : Decidable p.Writable :=
  inferInstanceAs (Decidable (∀ n ∈ [p.line, p.column, p.code], _))

/-- The problem `p` as a digest shows it: its place, message and code behind `number`, and below
    them the source line if it has one. -/
def numberedText (number : Nat) (p : Problem) : String :=
  "\n".intercalate ((toString number ++ ". " ++ (p.file ++ ":" ++ toString p.line ++ ":" ++
    toString p.column ++ " - " ++ p.message ++ " (" ++ toString p.code ++ ")")) ::
      snippetLines p.snippet)

theorem writeWhole_eq (n : Int) : writeWhole n =
    if (toString n.natAbs).length ≤ maxDigits then .ok (toString n) else .error .unwritable := by
  unfold writeWhole
  by_cases h : (toString n.natAbs).length ≤ maxDigits
  · rw [if_pos h, if_neg (Nat.not_lt.2 h)]
  · rw [if_neg h, if_pos (Nat.lt_of_not_le h)]

theorem renderNumbered_eq (number : Nat) (p : Problem) : renderNumbered number p =
    if p.Writable then .ok (numberedText number p) else .error .unwritable := by
  have hwritable : p.Writable ↔ (toString p.line.natAbs).length ≤ maxDigits ∧
      (toString p.column.natAbs).length ≤ maxDigits ∧
      (toString p.code.natAbs).length ≤ maxDigits := by
    simp [Problem.Writable]
  rw [renderNumbered, Problem.render, writeWhole_eq, writeWhole_eq, writeWhole_eq]
  by_cases hline : (toString p.line.natAbs).length ≤ maxDigits
  · by_cases hcolumn : (toString p.column.natAbs).length ≤ maxDigits
    · by_cases hcode : (toString p.code.natAbs).length ≤ maxDigits
      · rw [if_pos (hwritable.2 ⟨hline, hcolumn, hcode⟩), if_pos hline, if_pos hcolumn, if_pos hcode]
        rfl
      · rw [if_neg fun h => hcode (hwritable.1 h).2.2, if_pos hline, if_pos hcolumn, if_neg hcode]
        rfl
    · rw [if_neg fun h => hcolumn (hwritable.1 h).2.1, if_pos hline, if_neg hcolumn]
      rfl
  · rw [if_neg fun h => hline (hwritable.1 h).1, if_neg hline]
    rfl

/-! ## The whole digest -/

/-- How many of `count` problems a digest shows: no more than `limit`, but all if that is not
    positive. -/
def shownCount (limit : Int) (count : Nat) : Nat :=
  if limit ≤ 0 then count else min count limit.toNat

/-- The problems with their numbers, one by one. -/
theorem numberedParts_eq (number : Nat) (ps : List Problem) : numberedParts number ps =
    if ∀ p ∈ ps, p.Writable then
      .ok ((ps.zipIdx number).flatMap (fun (p, i) => [numberedText i p, ""]))
    else .error .unwritable := by
  induction ps generalizing number with
  | nil => rfl
  | cons p ps ih =>
    rw [numberedParts, renderNumbered_eq]
    by_cases hp : p.Writable
    · rw [if_pos hp, ih]
      by_cases hps : ∀ q ∈ ps, q.Writable
      · rw [if_pos hps, if_pos (List.forall_mem_cons.2 ⟨hp, hps⟩)]
        rfl
      · rw [if_neg hps, if_neg fun h => hps (List.forall_mem_cons.1 h).2]
        rfl
    · rw [if_neg hp, if_neg fun h => hp (List.forall_mem_cons.1 h).1]
      rfl

/-- The problems that a digest shows are the first ones in order of their places. -/
theorem shownProblems_eq (limit : Int) (ps : List Problem) :
    shownProblems limit ps = (sortProblems ps).take (shownCount limit ps.length) := by
  have hlength : (sortProblems ps).length = ps.length := (sortProblems_perm ps).length_eq
  unfold shownProblems shownCount
  by_cases hlimit : 0 < limit
  · rw [if_pos hlimit, if_neg (by omega), Nat.min_comm, ← hlength, ← List.take_eq_take_min]
  · rw [if_neg hlimit, if_pos (by omega), ← hlength, List.take_length]

/-- All other problems are left out. -/
theorem hiddenCount_eq (limit : Int) (ps : List Problem) :
    hiddenCount limit ps = ps.length - shownCount limit ps.length := by
  have hlength : (sortProblems ps).length = ps.length := (sortProblems_perm ps).length_eq
  have hle : shownCount limit ps.length ≤ ps.length := by
    unfold shownCount
    split <;> omega
  rw [hiddenCount, shownProblems_eq, List.length_take, hlength, Nat.min_eq_left hle]

/-- That problems were left out is told just if some were. -/
theorem hiddenParts_eq {shown count : Nat} :
    hiddenParts (count - shown) =
      if shown < count then ["...and " ++ toString (count - shown) ++ " more not shown.", ""]
      else [] := by
  unfold hiddenParts
  by_cases h : shown < count
  · rw [if_pos h, if_neg (by rw [beq_iff_eq]; omega)]
  · rw [if_neg h, if_pos (by rw [beq_iff_eq]; omega)]

/-- **The text of a digest**, from any list `qs` that sorts its problems `ps` stably: its head, the
    problems that are shown, and how many more there are, unless one of those shown has a number
    that is not written. -/
theorem SortsStably.repairDigest_eq {ps qs : List Problem} (h : SortsStably qs ps) (limit : Int) :
    let count := ps.length
    let shown := shownCount limit count
    repairDigest limit ps =
      if ∀ p ∈ qs.take shown, p.Writable then
        .ok ("\n".intercalate
          (["Fix these " ++ toString count ++ " TypeScript compile-time " ++
              (if count = 1 then "error" else "errors") ++ ":", ""] ++
            ((qs.take shown).zipIdx 1).flatMap (fun (p, i) => [numberedText i p, ""]) ++
            (if shown < count then
              ["...and " ++ toString (count - shown) ++ " more not shown.", ""] else []) ++
            [digestRequest]))
      else .error .unwritable := by
  intro count shown
  rw [repairDigest, hiddenCount_eq, hiddenParts_eq, shownProblems_eq, numberedParts_eq,
    h.eq_sortProblems, digestHeading]
  simp only [beq_iff_eq]
  by_cases hall : ∀ p ∈ (sortProblems ps).take shown, p.Writable
  · rw [if_pos hall, if_pos hall]
    rfl
  · rw [if_neg hall, if_neg hall]
    rfl

/-- **Lists with the same problems at each place, in the same order, have one digest** at each
    `limit`. -/
theorem KeepsTies.repairDigest_eq {ps qs : List Problem} (h : KeepsTies qs ps) (limit : Int) :
    repairDigest limit qs = repairDigest limit ps := by
  have hlength : qs.length = ps.length := h.perm.length_eq
  rw [repairDigest, repairDigest, hiddenCount_eq, hiddenCount_eq, shownProblems_eq,
    shownProblems_eq, h.sortProblems_eq, hlength]

/-- The limit may fall between problems at one place, of which the first ones are then shown. -/
example :
    repairDigest 1 [⟨"b", 1, 1, "x", 7, none⟩, ⟨"a", 2, 3, "y", 8, none⟩,
        ⟨"a", 2, 3, "z", 9, none⟩] =
      .ok ("Fix these 3 TypeScript compile-time errors:\n\n1. a:2:3 - y (8)\n\n" ++
        "...and 2 more not shown.\n\n" ++ digestRequest) := by
  cbv

/-- Sorting problems does not change their digest. -/
theorem repairDigest_sortProblems (limit : Int) (ps : List Problem) :
    repairDigest limit (sortProblems ps) = repairDigest limit ps :=
  (sortProblems_sortsStably ps).toKeepsTies.repairDigest_eq limit

end StagedEdits
