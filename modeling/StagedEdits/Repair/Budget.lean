import StagedEdits.Journal

set_option autoImplicit false

/-! # The repair budget

How often a turn may still be repaired and checked. A turn that may be repaired `n` times may be
checked `n + 1` times: once at first, and once after each repair.

Main definitions: `Budget`, `Budget.useRepair`, `Budget.useCheck`. -/

namespace StagedEdits

/-- One use of a budget. -/
inductive BudgetUse where
  /-- A repair of so many problems. -/
  | repair (problems : Int)
  | check
  deriving DecidableEq

/-- The budget of one turn. -/
structure Budget where
  /-- How often the turn may be repaired. -/
  maxAttempts : Nat
  attemptsUsed : Nat
  checksUsed : Nat
  uses : List BudgetUse
  deriving DecidableEq, Inhabited

namespace Budget

/-- What is said about a negative number of repairs. -/
def negativeMessage : String := "max_attempts must be >= 0"

/-- A budget of which nothing is used; none for a negative number of repairs. -/
def new? (maxAttempts : Int) : Option Budget :=
  if maxAttempts < 0 then none else some ⟨maxAttempts.toNat, 0, 0, []⟩

/-- How often the turn may be checked. -/
def maxChecks (b : Budget) : Nat := b.maxAttempts + 1

/-- How often the turn may still be repaired. -/
def attemptsLeft (b : Budget) : Nat := b.maxAttempts - b.attemptsUsed

/-- How often the turn may still be checked. -/
def checksLeft (b : Budget) : Nat := b.maxChecks - b.checksUsed

/-- Whether the turn may be repaired once more. -/
def canRepair (b : Budget) : Bool := 0 < b.attemptsLeft

/-- Uses one repair for so many `problems`, if there is one left. -/
def useRepair (b : Budget) (problems : Int) : Budget × Bool :=
  if b.maxAttempts ≤ b.attemptsUsed then (b, false)
  else ({ b with attemptsUsed := b.attemptsUsed + 1, uses := b.uses ++ [.repair problems] }, true)

/-- Uses one check, if there is one left. -/
def useCheck (b : Budget) : Budget × Bool :=
  if b.maxChecks ≤ b.checksUsed then (b, false)
  else ({ b with checksUsed := b.checksUsed + 1, uses := b.uses ++ [.check] }, true)

/-! ## What a budget says -/

/-- The number `used` and the number `max` that there is. -/
def ratio (used max : Nat) : String := toString used ++ "/" ++ toString max

/-- What using one repair for so many `problems` says. -/
def repairEntry (b : Budget) (problems : Int) : Entry :=
  if b.maxAttempts ≤ b.attemptsUsed then
    .note "REPAIR" ("🛑 Repair cycle DENIED - budget exhausted (" ++
      ratio b.attemptsUsed b.maxAttempts ++ ")")
  else
    .note "REPAIR" ("🔧 Repair cycle " ++ ratio (b.attemptsUsed + 1) b.maxAttempts ++ " (" ++
      toString problems ++ " problems)")

/-- What using one check says: nothing unless there is none left. -/
def checkEntries (b : Budget) : List Entry :=
  if b.maxChecks ≤ b.checksUsed then
    [.note "REPAIR" ("🛑 Typecheck DENIED - " ++ ratio b.checksUsed b.maxChecks ++ " already run")]
  else []

/-- The use of a budget as a JSON object. -/
def status (b : Budget) : Json :=
  let counts (used max left : Nat) : Json :=
    .obj [("used", .nat used), ("max", .nat max), ("remaining", .nat left)]
  .obj [("attempts", counts b.attemptsUsed b.maxAttempts b.attemptsLeft),
    ("checks", counts b.checksUsed b.maxChecks b.checksLeft),
    ("exhausted", .bool !b.canRepair), ("total_operations", .nat b.uses.length)]

/-- The heavy rule around a report. -/
def heavyRule : String := String.ofList (List.replicate 55 '═')

/-- The report on a budget that is used up with so many problems `unresolved`. -/
def exhaustionReport (b : Budget) (unresolved : Int) : String :=
  "\n".intercalate [heavyRule, "🛑 REPAIR BUDGET EXHAUSTED", heavyRule,
    "Repair cycles: " ++ ratio b.attemptsUsed b.maxAttempts,
    "Typechecks:    " ++ ratio b.checksUsed b.maxChecks,
    "Unresolved problems: " ++ toString unresolved,
    "Overlay kept uncommitted for manual follow-up.", heavyRule]

end Budget

namespace BudgetUse

/-- A use as a JSON object. -/
def toJson : BudgetUse → Json
  | .repair problems => .obj [("type", .str "repair"), ("problems", .int problems)]
  | .check => .obj [("type", .str "check")]

end BudgetUse

end StagedEdits
