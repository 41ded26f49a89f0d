import StagedEdits.Commit.Commit
import StagedEdits.Turn.Machine

set_option autoImplicit false

/-! # Committing a turn

A turn hands its overlay over to be committed when it ended clean, or when it failed and the caller
insists. Handing over and taking the outcome are two steps, as a commit takes time; only an outcome
that went through clears the overlay and marks the turn as committed.

Main definitions: `Turn.refusal?`, `Turn.beginCommit`, `Turn.endCommit`, `Turn.commit`. -/

namespace StagedEdits

/-- Why a turn is not committed. -/
inductive CommitRefusal where
  | alreadyCommitted
  | cancelled
  | inProgress
  /-- It failed and the caller does not insist. -/
  | notForced
  deriving DecidableEq

/-- The wording of a refusal. -/
def CommitRefusal.reason : CommitRefusal → String
  | .alreadyCommitted => "overlay already committed"
  | .cancelled => "cancelled turns are discarded"
  | .inProgress => "turn still in progress"
  | .notForced => "failed turns are only committed when forced"

namespace Turn

/-- Why `t` is not committed now, if it is not; `force` lets a turn through that is not clean. -/
def refusal? (t : Turn) (force : Bool) : Option CommitRefusal :=
  if t.committed then some .alreadyCommitted
  else if t.status == .cancelled then some .cancelled
  else if !t.status.isTerminal then some .inProgress
  else if t.status == .failed && !force then some .notForced
  else none

/-- A commit that was handed over: the `snapshot` to commit, and the status of the turn then. -/
structure Handover where
  snapshot : Snapshot
  status : TurnStatus

/-- Hands the overlay over, or refuses to for `t.refusal? force`. -/
def beginCommit (t : Turn) (force : Bool) : Except Fault Handover :=
  match t.refusal? force with
  | some r => .error (.commitRefused t.status.text r.reason)
  | none => .ok ⟨t.overlay.snapshot, t.status⟩

/-- Takes the `outcome` of the commit `h`: one that went through clears the overlay. -/
def endCommit (t : Turn) (h : Handover) (outcome : Except Failure CommitReport) : Turn :=
  match outcome with
  | .error _ => t
  | .ok report =>
    { t.clearOverlay with committed := true }.sayLine "COMMIT" ("💾 Committed " ++
      toString report.written.length ++ " writes, " ++ toString report.deleted.length ++
      " deletes" ++ (if h.status == TurnStatus.failed then " (forced)" else ""))

/-- Commits a turn into the directory `root` of the disk `d` in one go. -/
def commit (t : Turn) (sabotage : Sabotage) (d : Disk) (root : FilePath) (force : Bool) :
    Turn × Disk × Except Failure CommitReport :=
  match t.beginCommit force with
  | .error f => (t, d, .error (.fault f))
  | .ok h =>
    let step := commitSnapshot sabotage d root h.snapshot
    ((t.say step.entries).endCommit h step.outcome, step.drive.disk, step.outcome)

end Turn

end StagedEdits
