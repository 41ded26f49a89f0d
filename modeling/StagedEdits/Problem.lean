import StagedEdits.Json.Lenient
import StagedEdits.Number.Reading

set_option autoImplicit false

/-! # Problems

What a type checker finds: a place in a file, a message and a code. Problems are ordered by their
place; problems at one place keep the order they were found in.

Main definitions: `Problem`, `sortProblems`. -/

namespace StagedEdits

/-- One finding of a type checker. -/
structure Problem where
  file : String
  line : Int
  column : Int
  message : String
  /-- The number of the kind of problem. -/
  code : Int
  /-- The source line, if it is known. -/
  snippet : Option String
  deriving DecidableEq, Inhabited

namespace Problem

/-- Whether the place of `a` comes no later than that of `b`: by file, then line, then column. -/
def le (a b : Problem) : Bool :=
  if a.file = b.file then
    if a.line = b.line then decide (a.column ≤ b.column) else decide (a.line < b.line)
  else decide (a.file < b.file)

/-- Any two problems are in order one way or the other. -/
theorem le_total (a b : Problem) : (a.le b || b.le a) = true := by
  unfold le
  simp only [Bool.or_eq_true]
  by_cases hf : a.file = b.file
  · rw [if_pos hf, if_pos hf.symm]
    by_cases hl : a.line = b.line
    · rw [if_pos hl, if_pos hl.symm]
      simp only [decide_eq_true_eq]
      omega
    · rw [if_neg hl, if_neg (Ne.symm hl)]
      simp only [decide_eq_true_eq]
      omega
  · rw [if_neg hf, if_neg (Ne.symm hf)]
    simp only [decide_eq_true_eq]
    rcases Decidable.em (a.file < b.file) with h | h
    · exact Or.inl h
    · rcases Decidable.em (b.file < a.file) with h' | h'
      · exact Or.inr h'
      · exact absurd (String.le_antisymm h' h) hf

/-- The order of places is transitive. -/
theorem le_trans (a b c : Problem) (hab : a.le b = true) (hbc : b.le c = true) :
    a.le c = true := by
  unfold le at *
  by_cases h1 : a.file = b.file <;> by_cases h2 : b.file = c.file
  · rw [if_pos h1] at hab
    rw [if_pos h2] at hbc
    rw [if_pos (h1.trans h2)]
    by_cases l1 : a.line = b.line <;> by_cases l2 : b.line = c.line
    · simp only [l1, l2, if_true, decide_eq_true_eq] at *
      omega
    · simp only [l1, l2, if_true, if_false, decide_eq_true_eq] at *
      exact hbc
    · simp only [← l2, l1, if_true, if_false, decide_eq_true_eq] at *
      exact hab
    · simp only [l1, l2, if_false, decide_eq_true_eq] at *
      rw [if_neg (by omega)]
      simp only [decide_eq_true_eq]
      omega
  · rw [if_neg h2] at hbc
    rw [h1, if_neg h2]
    exact hbc
  · rw [if_neg h1] at hab
    rw [← h2, if_neg h1]
    exact hab
  · rw [if_neg h1] at hab
    rw [if_neg h2] at hbc
    simp only [decide_eq_true_eq] at hab hbc
    have hac : a.file < c.file := String.lt_trans hab hbc
    have hne : a.file ≠ c.file := fun e => String.lt_irrefl _ (e ▸ hac)
    rw [if_neg hne]
    simpa using hac

/-- The line that a person reads. There is none if one of the numbers cannot be written. -/
def render (p : Problem) : Except NumberFault String := do
  let line ← writeWhole p.line
  let column ← writeWhole p.column
  let code ← writeWhole p.code
  return p.file ++ ":" ++ line ++ ":" ++ column ++ " - " ++ p.message ++ " (" ++ code ++ ")"

/-- A problem as a JSON object. -/
def toJson (p : Problem) : Json :=
  .obj [("file", .str p.file), ("line", .int p.line), ("column", .int p.column),
    ("message", .str p.message), ("code", .int p.code), ("snippet", .ofText? p.snippet)]

/-- The text that `v` has under `name`. -/
def textOf? (v : Json) (name : String) : Option String :=
  match v.field? name with
  | some (.str s) => some s
  | _ => none

/-- The whole number that `v` has under `name`, read leniently. -/
def wholeOf? (v : Json) (name : String) : Option Int := (v.field? name).bind lenientWhole?

/-- Reads a problem from JSON. -/
def ofJson? (v : Json) : Option Problem := do
  let file ← textOf? v "file"
  let line ← wholeOf? v "line"
  let column ← wholeOf? v "column"
  let message ← textOf? v "message"
  let code ← wholeOf? v "code"
  let snippet ←
    match v.field? "snippet" with
    | none => some none
    | some .null => some none
    | some (.str s) => some (some s)
    | some _ => none
  return ⟨file, line, column, message, code, snippet⟩

end Problem

/-- The problems by place; at one place in the order given. -/
def sortProblems (ps : List Problem) : List Problem :=
  ps.mergeSort Problem.le

/-- Sorting keeps exactly the problems given. -/
theorem sortProblems_perm (ps : List Problem) : (sortProblems ps).Perm ps :=
  List.mergeSort_perm ps Problem.le

/-- Sorted problems are in order. -/
theorem sortProblems_pairwise (ps : List Problem) :
    (sortProblems ps).Pairwise (fun a b => a.le b = true) :=
  List.pairwise_mergeSort Problem.le_trans Problem.le_total ps

end StagedEdits
