import StagedEdits.Fault
import StagedEdits.Problem
import StagedEdits.Directive

set_option autoImplicit false

/-! # The status of a turn

A turn streams, is checked, and is either clean, failed, or repaired and streamed again; until it
ends it can be cancelled. What a turn did is kept in its record, and a caller gets the record's
summary as the result.

Main definitions: `TurnStatus`, `TurnStatus.allows`, `TurnRecord`, `TurnResult`. -/

namespace StagedEdits

/-- Where a turn stands. -/
inductive TurnStatus where
  | streaming
  | checking
  /-- The agent is about to be asked for a repair. -/
  | repairing
  | clean
  | failed
  | cancelled
  deriving DecidableEq, Inhabited, Repr

namespace TurnStatus

/-- The word for a status. -/
def text : TurnStatus → String
  | .streaming => "streaming"
  | .checking => "checking"
  | .repairing => "repairing"
  | .clean => "clean"
  | .failed => "failed"
  | .cancelled => "cancelled"

/-- All statuses. -/
def all : List TurnStatus := [.streaming, .checking, .repairing, .clean, .failed, .cancelled]

/-- The status of a word. -/
def ofText? (s : String) : Option TurnStatus := all.find? (fun t => t.text == s)

/-- Whether a turn has ended. -/
def isTerminal : TurnStatus → Bool
  | .clean | .failed | .cancelled => true
  | _ => false

/-- Whether a turn may move from one status to another. -/
def allows : TurnStatus → TurnStatus → Bool
  | .streaming, .checking | .streaming, .failed | .streaming, .cancelled => true
  | .checking, .clean | .checking, .repairing | .checking, .failed | .checking, .cancelled => true
  | .repairing, .streaming | .repairing, .cancelled => true
  | _, _ => false

end TurnStatus

/-- Why a turn failed. -/
inductive FailureReason where
  /-- Problems were left and no repair. -/
  | budgetExhausted
  /-- The type checker could not be used. -/
  | checkerUnavailable
  | generationFailed
  deriving DecidableEq, Inhabited

namespace FailureReason

/-- The word for a reason. -/
def text : FailureReason → String
  | .budgetExhausted => "repair_budget_exhausted"
  | .checkerUnavailable => "typecheck_unavailable"
  | .generationFailed => "generation_failed"

/-- All reasons. -/
def all : List FailureReason := [.budgetExhausted, .checkerUnavailable, .generationFailed]

/-- The reason of a word. -/
def ofText? (s : String) : Option FailureReason := all.find? (fun r => r.text == s)

end FailureReason

/-! ## The result -/

/-- What a caller gets when a turn has ended: a summary of its `TurnRecord`. -/
structure TurnResult where
  turnId : String
  status : TurnStatus
  /-- The directives that changed something, in order. -/
  applied : List Directive
  /-- The problems of the last check. -/
  diagnostics : List Problem
  attempts : Nat
  /-- How often the type checker was called. -/
  checkCalls : Int
  reason : Option FailureReason
  /-- The faults of single directives and of the turn. -/
  errors : List Fault
  warnings : List Fault
  dependencies : List String
  deriving Inhabited, BEq

namespace TurnResult

/-- Whether the turn ended without problems. -/
def isClean (r : TurnResult) : Bool := r.status == .clean

/-- A result as a JSON object. -/
def toJson (r : TurnResult) : Json :=
  .obj [("turn_id", .str r.turnId), ("status", .str r.status.text),
    ("failure_reason", .ofText? (r.reason.map FailureReason.text)),
    ("applied_directives", .arr (r.applied.map Directive.toJson)),
    ("diagnostics", .arr (r.diagnostics.map Problem.toJson)),
    ("attempts", .nat r.attempts), ("typecheck_calls", .int r.checkCalls),
    ("errors", .arr (r.errors.map Fault.toJson)),
    ("warnings", .arr (r.warnings.map Fault.toJson)),
    ("dependencies", .texts r.dependencies)]

end TurnResult

/-! ## The record -/

/-- What a turn has done so far. -/
structure TurnRecord where
  turnId : String
  status : TurnStatus
  attempt : Nat
  /-- The directives that changed something, in order. -/
  applied : List Directive
  /-- The problems of the last check. -/
  diagnostics : List Problem
  history : List (List Problem)
  errors : List Fault
  /-- The warnings about tags so far. -/
  warnings : List Fault
  dependencies : List String
  reason : Option FailureReason
  deriving Inhabited

namespace TurnRecord

/-- The record of a turn that has not begun. -/
def new (turnId : String) : TurnRecord :=
  { turnId, status := .streaming, attempt := 0, applied := [], diagnostics := [], history := [],
    errors := [], warnings := [], dependencies := [], reason := none }

/-- Moves to `s`, if the status so far allows it. -/
def moveTo (r : TurnRecord) (s : TurnStatus) : Except Fault TurnRecord :=
  if r.status.allows s then .ok { r with status := s }
  else .error (.invalidTransition r.status.text s.text)

/-- Keeps `ps`, the problems of a check. -/
def recordDiagnostics (r : TurnRecord) (ps : List Problem) : TurnRecord :=
  { r with diagnostics := ps, history := r.history ++ [ps] }

/-- The summary of `r`, with `checkCalls` as the number of calls of the type checker. -/
def toResult (r : TurnRecord) (checkCalls : Int) : TurnResult :=
  { turnId := r.turnId, status := r.status, applied := r.applied, diagnostics := r.diagnostics,
    attempts := r.attempt, checkCalls, reason := r.reason, errors := r.errors,
    warnings := r.warnings, dependencies := r.dependencies }

end TurnRecord

end StagedEdits
