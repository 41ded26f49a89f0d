import StagedEdits.Fault
import StagedEdits.Journal
import StagedEdits.Number.Binary64
import StagedEdits.Problem

set_option autoImplicit false

/-! # Retrying a check

A type check that fails for a reason of its own is tried again, a bounded number of times. Problems
are an answer and are never retried; a cancellation goes through at once.

Main definitions: `RetryPolicy`, `RetryPolicy.after`, `RetryPolicy.run`. -/

namespace StagedEdits

/-- How often a check is tried again and how long one try may take. -/
structure RetryPolicy where
  /-- How often a failed check is tried again. -/
  maxRetries : Int
  /-- The time limit of one try; zero is none. -/
  timeout : Seconds
  delay : Seconds := .whole 0
  deriving Inhabited

/-- What one try of a check comes to. -/
inductive CheckReply where
  | problems (ps : List Problem)
  | failed (f : Failure)
  deriving BEq, Inhabited

/-- What follows on a `CheckReply`. -/
inductive CheckStep where
  | answered (ps : List Problem)
  | cancelled
  /-- The check is tried again, or given up, for that reason. -/
  | failed (reason : String)
  deriving DecidableEq

namespace RetryPolicy

/-- Whether there is another try after `failed` ones. -/
def allows (p : RetryPolicy) (failed : Nat) : Bool := decide ((failed : Int) < p.maxRetries + 1)

/-- The failure of a try before the type checker is called: the time limit lies in the past, or is
    too large for a clock. -/
def earlyFailure? (p : RetryPolicy) : Option Failure :=
  if p.timeout.isNegative then some .timedOut
  else if p.timeout.isEndless then some .clockOverflow
  else none

/-- Whether there can be no pause before another try, as it is too large for a clock. -/
def cannotPause (p : RetryPolicy) : Bool := p.delay.isEndless && !p.delay.isNegative

/-- What is said about a try that took too long. -/
def timeoutReason (p : RetryPolicy) : String := "timed out after " ++ p.timeout.text ++ "s"

/-- The reason that a failure gives for giving up. -/
def reason (p : RetryPolicy) : Failure → String
  | .timedOut => p.timeoutReason
  | .fault (.checkerUnavailable reason _) => reason
  | f => f.kind ++ ": " ++ f.text

/-- What follows on a try. -/
def after (p : RetryPolicy) : CheckReply → CheckStep
  | .problems ps => .answered ps
  | .failed .cancelled => .cancelled
  | .failed f => .failed (p.reason f)

/-- The fault after the last try, which failed for `reason`. -/
def givenUp (p : RetryPolicy) (reason : String) : Fault :=
  .checkerUnavailable reason (p.maxRetries + 1)

/-! ## What is said -/

/-- What the start of a try of the check `label` says, after `failed` ones. -/
def tryEntries (p : RetryPolicy) (label : String) (failed : Nat) : List Entry :=
  if failed == 0 then []
  else [.note "RETRY" ("🔄 Retry " ++ toString failed ++ "/" ++ toString p.maxRetries ++ " for " ++
    label)]

/-- What a try of the check `label` says that failed for `reason`, after `failed` ones before it. -/
def failedEntry (label : String) (failed : Nat) (reason : String) : Entry :=
  .note "TYPECHECK" ("⚠️ " ++ label ++ " collaborator failed (attempt " ++ toString (failed + 1) ++
    "): " ++ reason)

/-- What giving up says. -/
def givenUpEntry (label : String) : Entry :=
  .note "RETRY" ("🔒 Max retries reached for " ++ label ++ " - collaborator unavailable")

/-! ## A whole check -/

/-- How a check ended. -/
structure CheckRun where
  /-- The problems, or what was thrown. -/
  outcome : Except Failure (List Problem)
  /-- How often the type checker was called. -/
  calls : Nat
  entries : List Entry

/-- Tries up to `left` more times, with `answer` for the answers of the type checker by the number
    of its call. -/
def runFrom (p : RetryPolicy) (label : String) (answer : Nat → CheckReply) :
    (left : Nat) → (failed calls : Nat) → (lastReason : String) → (said : List Entry) → CheckRun
  | 0, _, calls, lastReason, said =>
    { outcome := .error (.fault (p.givenUp lastReason)), calls,
      entries := said ++ [givenUpEntry label] }
  | left + 1, failed, calls, _, said =>
    let said := said ++ p.tryEntries label failed
    if 0 < failed && p.cannotPause then
      { outcome := .error .clockOverflow, calls, entries := said }
    else
      let (reply, calls) :=
        match p.earlyFailure? with
        | some f => (CheckReply.failed f, calls)
        | none => (answer calls, calls + 1)
      match p.after reply with
      | .answered ps => { outcome := .ok ps, calls, entries := said }
      | .cancelled => { outcome := .error .cancelled, calls, entries := said }
      | .failed reason =>
        runFrom p label answer left (failed + 1) calls reason
          (said ++ [failedEntry label failed reason])

/-- A whole check: tried until `answer`, the type checker, gives problems or is cancelled, or no try
    is left. -/
def run (p : RetryPolicy) (label : String) (answer : Nat → CheckReply) : CheckRun :=
  p.runFrom label answer (p.maxRetries + 1).toNat 0 0 "" []

end RetryPolicy

end StagedEdits
