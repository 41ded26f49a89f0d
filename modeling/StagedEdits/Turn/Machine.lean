import StagedEdits.Check.Retry
import StagedEdits.Overlay.Applier
import StagedEdits.Repair.Budget
import StagedEdits.Repair.Digest
import StagedEdits.Tag.Parser
import StagedEdits.Turn.Event

set_option autoImplicit false

/-! # The turn machine

One turn of the agent, as a machine that stands at a point where it waits for the world (the next
text of the agent, the answer of the type checker, the listeners taking an event) and moves on with
each reply. Closed tags are applied as the text arrives. When the agent has ended, the overlay is
checked; problems go back to the agent as a digest, as often as the budget allows.

A cancellation is either a request, which the machine honours before it would wait for the agent
again and after a check, or a failure of the reply that is waited for. Either way the overlay is
dropped and the listeners are told the end.

The stream of the agent is closed whenever the turn leaves it: when the agent has ended, when the
turn ended while it was reading, and when a failure goes through. What closing it fails with goes
through in place of what was on its way.

Main definitions: `Turn`, `Point`, `Reply`, `Turn.start`, `Turn.advance`. -/

namespace StagedEdits

/-- What is fixed for a turn. -/
structure TurnConfig where
  session : String
  turnId : String
  /-- The mark of the settings. -/
  fallbackMark : String
  /-- The mark that the turn was given, if any. -/
  askedMark : Option String
  policy : RetryPolicy
  /-- The most problems that a digest shows. -/
  digestLimit : Int
  deriving Inhabited

/-- The mark that the agent's tags are read with. -/
def TurnConfig.mark (c : TurnConfig) : String := Parser.markInUse c.fallbackMark c.askedMark

/-- How running a turn ended; `returned` carries what it gives back. -/
inductive Ending where
  /-- With the result that the turn has by then. -/
  | returned (result : Option TurnResult)
  | raised (f : Failure)
  deriving Inhabited

/-- From where a turn comes to `finish`. -/
inductive Frame where
  /-- From within a stream of the agent, which is still to be closed. -/
  | stream
  /-- From the loop around the streams and the checks. -/
  | loop
  /-- From taking a cancellation of the task, which goes on afterwards. -/
  | handler
  deriving DecidableEq, Inhabited

/-- Why a turn leaves a stream; what it does once the stream is closed. -/
inductive Leave where
  | ended (parser : Parser)
  | settled
  | raising (f : Failure)
  deriving Inhabited

/-- Where a turn waits for a `Reply`. -/
inductive Point where
  | idle
  /-- The agent was asked for a stream. -/
  | opening
  /-- The next text of the agent is awaited. -/
  | reading (parser : Parser)
  /-- The listeners are told a text. -/
  | tellingChunk (parser : Parser) (text : String)
  /-- The listeners are told what was applied. -/
  | tellingPatch (parser : Parser)
  | closing (why : Leave)
  /-- The type checker was asked, after so many tries that failed. -/
  | checking (request : Snapshot) (failed : Nat)
  /-- Another try is put off for a while, after so many tries that failed. -/
  | pausing (request : Snapshot) (failed : Nat)
  /-- A try is over before the type checker is called, and its task is being dismissed. -/
  | dismissing (request : Snapshot) (failed : Nat) (f : Failure)
  /-- The listeners are told the problems of a check. -/
  | tellingDiagnostics (problems : List Problem)
  /-- The listeners are told the end. -/
  | tellingDone (frame : Frame)
  | over (ending : Ending)
  deriving Inhabited

/-- What the world replies at a `Point`. -/
inductive Reply where
  | opened
  | chunk (text : String)
  | ended
  | closed
  | checked (problems : List Problem)
  | rested
  | told
  /-- What was waited for failed, or the task was cancelled while waiting. -/
  | failed (f : Failure)
  deriving Inhabited

/-- One turn: what is fixed for it, what it has done, and the `point` where it waits. -/
structure Turn where
  config : TurnConfig
  /-- The overlay with what was applied to it. -/
  applier : Applier
  record : TurnRecord
  budget : Budget
  /-- How often the type checker was called. -/
  checkCalls : Nat
  /-- The result, once the turn has ended. -/
  result : Option TurnResult
  cancelRequested : Bool
  committed : Bool
  point : Point
  events : List Event
  prompts : List String
  /-- What the type checker was asked. -/
  requests : List Snapshot
  journal : List Entry
  deriving Inhabited

namespace Turn

/-- A turn that has not begun, with a budget of `maxAttempts` repairs; none if that is negative. -/
def new? (config : TurnConfig) (maxAttempts : Int) : Option Turn :=
  (Budget.new? maxAttempts).map (fun budget =>
    { config, applier := Applier.empty, record := TurnRecord.new config.turnId, budget,
      checkCalls := 0, result := none, cancelRequested := false, committed := false,
      point := .idle, events := [], prompts := [], requests := [], journal := [] })

/-- The status of a turn. -/
def status (t : Turn) : TurnStatus := t.record.status

/-- The overlay of a turn. -/
def overlay (t : Turn) : Overlay := t.applier.overlay

/-- The turn's short name. -/
def shortId (t : Turn) : String := String.ofList (t.config.turnId.toList.take 8)

/-- How the checks of a turn are named. -/
def checkLabel (t : Turn) : String := "turn " ++ t.shortId

/-- Puts `entries` into the journal of the turn. -/
def say (t : Turn) (entries : List Entry) : Turn := { t with journal := t.journal ++ entries }

/-- Says `message` under `scope`, with the mark of the session. -/
def sayLine (t : Turn) (scope message : String) : Turn :=
  t.say [.noteFor t.config.session scope message]

/-- Adds an event with `payload`, numbered on from the ones before. -/
def emit (t : Turn) (payload : Payload) : Turn :=
  { t with events := t.events ++ [⟨t.config.turnId, t.events.length, payload⟩] }

/-- Waits at `p`. -/
def waitAt (t : Turn) (p : Point) : Turn := { t with point := p }

/-! ## The end -/

/-- Ends running with the failure `f`. -/
def raise (t : Turn) (f : Failure) : Turn := t.waitAt (.over (.raised f))

/-- Moves to the status `s` and goes on with `next`; a move that is not allowed ends running. -/
def moveTo (t : Turn) (s : TurnStatus) (next : Turn → Turn) : Turn :=
  match t.record.moveTo s with
  | .error f => t.raise (.fault f)
  | .ok r => next { t with record := r }

/-- Ends running with the result. -/
def giveBack (t : Turn) : Turn := t.waitAt (.over (.returned t.result))

/-- Keeps the result and tells the listeners the end; `frame` is what follows when they were
    told. -/
def finish (t : Turn) (frame : Frame) : Turn :=
  let result := t.record.toResult t.checkCalls
  (({ t with result := some result }.sayLine "TURN" ("🏁 Turn " ++ t.status.text ++ " after " ++
    toString t.record.attempt ++ " repairs, " ++ toString t.record.applied.length ++
    " directives applied")).emit (.done result)).waitAt (.tellingDone frame)

/-- Drops the pending changes. -/
def clearOverlay (t : Turn) : Turn := { t with applier := t.applier.clear }

/-- Ends as cancelled, with nothing pending. -/
def finishCancelled (t : Turn) (frame : Frame) : Turn :=
  t.moveTo .cancelled (fun t => t.clearOverlay.finish frame)

/-- Ends as failed for `reason`. -/
def fail (t : Turn) (reason : FailureReason) (frame : Frame) : Turn :=
  { t with record := { t.record with reason := some reason } }.moveTo .failed (·.finish frame)

/-- What the failure `f` does if nothing has caught it: a cancellation of the task ends the turn
    first, if it has not ended; all else just goes through. -/
def abort (t : Turn) (f : Failure) : Turn :=
  if f == .cancelled && !t.status.isTerminal then t.finishCancelled .handler else t.raise f

/-- Leaves the stream, which is closed first; `why` says what follows. -/
def leave (t : Turn) (why : Leave) : Turn := t.waitAt (.closing why)

/-- Keeps `faults` in the record. -/
def addErrors (t : Turn) (faults : List Fault) : Turn :=
  { t with record := { t.record with errors := t.record.errors ++ faults } }

/-! ## Checking -/

/-- Gives a check up, the last try of which failed for `reason`. -/
def giveUpCheck (t : Turn) (reason : String) : Turn :=
  ((t.say [RetryPolicy.givenUpEntry t.checkLabel]).addErrors
    [t.config.policy.givenUp reason]).fail .checkerUnavailable .loop

/-- Calls the type checker on `request` after `failed` tries, unless the try is over before it
    begins. -/
def callCheck (t : Turn) (request : Snapshot) (failed : Nat) : Turn :=
  match t.config.policy.earlyFailure? with
  | some f => t.waitAt (.dismissing request failed f)
  | none =>
    { t with checkCalls := t.checkCalls + 1, requests := t.requests ++ [request] }.waitAt
      (.checking request failed)

/-- Tries the check of `request` once more after `failed` tries, the last one failed for `reason`;
    or gives it up. -/
def tryCheck (t : Turn) (request : Snapshot) (failed : Nat) (reason : String) : Turn :=
  let policy := t.config.policy
  if policy.allows failed then
    let t := t.say (policy.tryEntries t.checkLabel failed)
    if failed == 0 || policy.delay.isZero then t.callCheck request failed
    else if policy.cannotPause then t.abort .clockOverflow
    else t.waitAt (.pausing request failed)
  else t.giveUpCheck reason

/-- Begins to check. -/
def beginCheck (t : Turn) : Turn :=
  let said := t.budget.checkEntries
  match t.budget.useCheck with
  | (_, false) => (t.say said).fail .budgetExhausted .loop
  | (budget, true) =>
    (({ t with budget }.say said).sayLine "TYPECHECK" ("🔍 Check " ++
      Budget.ratio budget.checksUsed budget.maxChecks)).tryCheck t.overlay.snapshot 0 ""

/-- Goes on with the problems `ps` of a check: unless a cancellation was requested, the listeners
    are told them. -/
def takeProblems (t : Turn) (ps : List Problem) : Turn :=
  let problems := sortProblems ps
  if t.cancelRequested then t.finishCancelled .loop
  else
    ({ t with record := t.record.recordDiagnostics problems }.emit
      (.diagnostics t.record.attempt problems)).waitAt (.tellingDiagnostics problems)

/-- Goes on with `reply`, what the try after `failed` others of the check of `request` came to. -/
def takeReply (t : Turn) (request : Snapshot) (failed : Nat) (reply : CheckReply) : Turn :=
  match t.config.policy.after reply with
  | .answered ps => t.takeProblems ps
  | .cancelled => t.abort .cancelled
  | .failed reason =>
    (t.say [RetryPolicy.failedEntry t.checkLabel failed reason]).tryCheck request (failed + 1)
      reason

/-! ## Streaming -/

/-- Asks the agent with `prompt`. -/
def ask (t : Turn) (prompt : String) : Turn :=
  { t with prompts := t.prompts ++ [prompt] }.waitAt .opening

/-- Waits for the next text, which goes to `p`, unless a cancellation was requested. -/
def readOn (t : Turn) (p : Parser) : Turn :=
  if t.cancelRequested then t.finishCancelled .stream else t.waitAt (.reading p)

/-- Keeps what `p` warns of at the end of its stream. -/
def closeParser (t : Turn) (p : Parser) : Turn :=
  let t := t.say p.finishEntries
  { t with record :=
    { t.record with warnings := t.record.warnings ++ p.finish.warnings.map Warning.toFault } }

/-- Goes on when the agent has ended and its stream is closed: the end of `p`, then a check. -/
def endStream (t : Turn) (p : Parser) : Turn :=
  let t := t.closeParser p
  if t.cancelRequested then t.finishCancelled .loop else t.moveTo .checking beginCheck

/-- The fault of an agent that broke off. -/
def generationFault (f : Failure) : Fault :=
  .general ("Generation stream failed: " ++ f.text) [("stage", .str "streaming")]

/-- Goes on when the agent broke off with `f`: the turn fails. -/
def breakStream (t : Turn) (p : Parser) (f : Failure) : Turn :=
  let fault := generationFault f
  (((t.closeParser p).addErrors [fault]).sayLine "TURN" ("❌ " ++ fault.message)).fail
    .generationFailed .stream

/-- Keeps `a`, the applier after a batch, and in the record what `b` says of the batch. -/
def recordBatch (t : Turn) (a : Applier) (b : Batch) : Turn :=
  { t with
    applier := a
    record := { t.record with
      applied := t.record.applied ++ b.applied
      errors := t.record.errors ++ b.errors
      dependencies := a.dependencies.toList } }

/-- Applies the directives `ds` of a text as one batch and tells what changed. -/
def applyParsed (base : BaseTree) (t : Turn) (p : Parser) (ds : List Parsed) : Turn :=
  let (a, b) := t.applier.applyBatch base t.config.session (ds.map .parsed)
  let t := t.say b.entries
  match b.stopped with
  | some f => { t with applier := a }.leave (.raising f)
  | none =>
    let t := t.recordBatch a b
    if b.isNews then (t.emit (.patch b.applied b.errors)).waitAt (.tellingPatch p)
    else t.readOn p

/-- Goes on with `text`, which the listeners were told: `p` is fed it, and what it gives is
    applied. -/
def takeText (base : BaseTree) (t : Turn) (p : Parser) (text : String) : Turn :=
  let fed := p.feed text.toList
  let t := t.say (fed.outcomes.map p.outcomeEntry)
  match fed.stopped with
  | some f => t.leave (.raising (.other "ValueError" f.message))
  | none =>
    let (p, refusals) := fed.parser.drain
    let t := t.addErrors (refusals.map Fault.ofRefusal)
    match fed.outcomes.filterMap Outcome.directive? with
    | [] => t.readOn p
    | ds => t.applyParsed base p ds

/-! ## Repairing -/

/-- The failure of a number that cannot be read or written. -/
def numberFailure (f : NumberFault) : Failure := .other "ValueError" f.message

/-- Uses one repair of the budget, for `problems`. -/
def countRepair (t : Turn) (problems : List Problem) : Turn :=
  let t := t.say [t.budget.repairEntry problems.length]
  { t with
    budget := (t.budget.useRepair problems.length).1
    record := { t.record with attempt := t.record.attempt + 1 } }

/-- Asks the agent to repair `problems`. If there is no digest of them, running ends. -/
def repair (t : Turn) (problems : List Problem) : Turn :=
  t.moveTo .repairing (fun t =>
    let t := t.countRepair problems
    match repairDigest t.config.digestLimit problems with
    | .error f => t.raise (numberFailure f)
    | .ok digest => t.moveTo .streaming (·.ask digest))

/-- Goes on with `problems`, which a check found and the listeners were told: the turn is clean,
    exhausted, or goes on with a repair. -/
def judged (t : Turn) (problems : List Problem) : Turn :=
  if problems.isEmpty then t.moveTo .clean (·.finish .loop)
  else if t.budget.canRepair then t.repair problems
  else
    (t.sayLine "REPAIR" (t.budget.exhaustionReport problems.length)).fail .budgetExhausted .loop

/-! ## Running -/

/-- The failure of running a turn twice. -/
def startedTwice : Failure := .other "RuntimeError" "a controller runs exactly one turn"

/-- Begins a turn with `prompt`; a turn that has begun is not begun again. -/
def start (t : Turn) (prompt : String) : Except Failure Turn :=
  match t.point with
  | .idle =>
    .ok ((t.say [.heading "TURN" ("Turn " ++ t.shortId ++ " started (max " ++
      toString t.budget.maxAttempts ++ " repairs)") t.config.session]).ask prompt)
  | _ => .error startedTwice

/-- The turn after the reply `r`. A reply that `t.point` does not wait for changes nothing. -/
def advance (base : BaseTree) (t : Turn) (r : Reply) : Turn :=
  match t.point, r with
  | .opening, .opened => t.readOn (Parser.new t.config.fallbackMark t.config.askedMark)
  | .opening, .failed f => t.abort f
  | .reading p, .chunk text => (t.emit (.chunk text)).waitAt (.tellingChunk p text)
  | .reading p, .ended => t.leave (.ended p)
  | .reading p, .failed f => if f == .cancelled then t.leave (.raising f) else t.breakStream p f
  | .tellingChunk p text, .told => t.takeText base p text
  | .tellingChunk _ _, .failed f => t.leave (.raising f)
  | .tellingPatch p, .told => t.readOn p
  | .tellingPatch _, .failed f => t.leave (.raising f)
  | .closing (.ended p), .closed => t.endStream p
  | .closing .settled, .closed => t.giveBack
  | .closing (.raising f), .closed => t.abort f
  | .closing _, .failed f => t.abort f
  | .checking request failed, .checked ps => t.takeReply request failed (.problems ps)
  | .checking request failed, .failed f => t.takeReply request failed (.failed f)
  | .pausing request failed, .rested => t.callCheck request failed
  | .pausing _ _, .failed f => t.abort f
  | .dismissing request failed f, .rested => t.takeReply request failed (.failed f)
  | .dismissing request failed _, .failed f => t.takeReply request failed (.failed f)
  | .tellingDiagnostics ps, .told => t.judged ps
  | .tellingDiagnostics _, .failed f => t.abort f
  | .tellingDone .stream, .told => t.leave .settled
  | .tellingDone .stream, .failed f => t.leave (.raising f)
  | .tellingDone .loop, .told => t.giveBack
  | .tellingDone .handler, .told => t.raise .cancelled
  | .tellingDone _, .failed f => t.raise f
  | _, _ => t

/-- Requests a cancellation, unless the turn has ended. -/
def cancel (t : Turn) : Turn :=
  if t.status.isTerminal then t
  else { t with cancelRequested := true }.sayLine "TURN" "🛑 Cancellation requested"

/-- Whether running has ended. -/
def isOver (t : Turn) : Bool :=
  match t.point with
  | .over _ => true
  | _ => false

/-! ## Outside of running -/

/-- Replays `log` into a turn that has not ended. -/
def replay (base : BaseTree) (t : Turn) (log : List Item) : Turn × Except Failure Batch :=
  if t.status.isTerminal then
    (t, .error (.other "RuntimeError" ("cannot replay into a " ++ t.status.text ++ " turn")))
  else
    let (a, b) := t.applier.replay base t.config.session log
    let t := t.say b.entries
    match b.stopped with
    | some f => ({ t with applier := a }, .error f)
    | none => (t.recordBatch a b, .ok b)

/-- Drops the pending changes. -/
def discard (t : Turn) : Turn := t.clearOverlay.sayLine "TURN" "🧹 Overlay discarded"

end Turn

end StagedEdits
