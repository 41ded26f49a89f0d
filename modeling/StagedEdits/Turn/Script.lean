import StagedEdits.Turn.Machine

set_option autoImplicit false

/-! # Scripted collaborators

An agent and a type checker whose answers are written down in advance, so that a turn can be run
without either of them. The agent plays one script for each stream it is asked for and the type
checker gives one verdict for each call; the last of them is repeated. A part that holds is played
only once the hold is released.

Main definitions: `Cue`, `Script`, `Verdict`, `Cast`, `Cast.prompt`. -/

namespace StagedEdits

/-- One step of a script. -/
inductive Cue where
  | text (s : String)
  | breakOff (f : Failure)
  | hold
  deriving Inhabited

/-- What the agent does with one stream: a list of `Cue`, or not even that. -/
inductive Script where
  | cues (l : List Cue)
  /-- It refuses to open the stream. -/
  | refuse (f : Failure)
  deriving Inhabited

/-- What the type checker does with one call. -/
structure Verdict where
  reply : CheckReply
  held : Bool
  deriving Inhabited

/-- A scripted agent and a scripted type checker, with how often each was asked. -/
structure Cast where
  scripts : List Script
  /-- The verdicts of the type checker. -/
  verdicts : List Verdict
  /-- How many streams the agent was asked for. -/
  streams : Nat
  /-- How often the type checker was called. -/
  checks : Nat
  deriving Inhabited

/-- What a turn gets at the point where it waits: a `Reply`, now or after a hold. -/
inductive Prompted where
  | reply (r : Reply)
  /-- A hold; once it is released a reply follows, or what the script has next. -/
  | hold (next : Option Reply)
  /-- Nothing: the listeners are to be told the last event. -/
  | tell
  /-- Nothing: the turn does not wait. -/
  | stop

/-- The item `l[i]`; past the end of `l` the last one is repeated; `default` if `l` is empty. -/
def repeatLast {α : Type} (default : α) (l : List α) (i : Nat) : α :=
  (l[i]?).getD (l.getLast?.getD default)

/-- What the type checker answers, as a reply. -/
def CheckReply.toReply : CheckReply → Reply
  | .problems ps => .checked ps
  | .failed f => .failed f

namespace Cast

/-- Collaborators that play `scripts` and `verdicts` and were not asked yet. -/
def new (scripts : List Script) (verdicts : List Verdict) : Cast := ⟨scripts, verdicts, 0, 0⟩

/-- The script of the next stream. -/
def nextScript (c : Cast) : Script := repeatLast (.cues []) c.scripts c.streams

/-- The verdict of the next call. -/
def nextVerdict (c : Cast) : Verdict := repeatLast ⟨.problems [], false⟩ c.verdicts c.checks

/-- The next step of a stream. -/
def nextCue : List Cue → List Cue × Prompted
  | [] => ([], .reply .ended)
  | .text s :: rest => (rest, .reply (.chunk s))
  | .breakOff f :: _ => ([], .reply (.failed f))
  | .hold :: rest => (rest, .hold none)

/-- What a turn gets at a point whose stream still has `cues`, with what is left of them. -/
def prompt (c : Cast) (cues : List Cue) : Point → Cast × List Cue × Prompted
  | .idle | .over _ => (c, cues, .stop)
  | .opening =>
    let c' := { c with streams := c.streams + 1 }
    match c.nextScript with
    | .cues l => (c', l, .reply .opened)
    | .refuse f => (c', [], .reply (.failed f))
  | .reading _ =>
    let (rest, p) := nextCue cues
    (c, rest, p)
  | .checking .. =>
    let v := c.nextVerdict
    let r := v.reply.toReply
    ({ c with checks := c.checks + 1 }, cues, if v.held then .hold (some r) else .reply r)
  | .closing _ => (c, cues, .reply .closed)
  | .pausing .. | .dismissing .. => (c, cues, .reply .rested)
  | .tellingChunk .. | .tellingPatch _ | .tellingDiagnostics _ | .tellingDone _ => (c, cues, .tell)

end Cast

end StagedEdits
