import StagedEdits.Proofs.BatchCuts
import StagedEdits.Proofs.TurnGauge
import StagedEdits.Turn.Rehearsal

set_option autoImplicit false

/-! # What a rehearsed turn comes to

A turn whose agent only sends texts, and whose listeners neither fail nor ask for a cancellation,
comes to an end that can be told in advance: each stream is applied to the overlay chunk by chunk,
each check takes the answers of the type checker in turn, and as long as there are problems and
repairs the next stream follows. `Upshot.ofTurn` says so by recursion on the repairs that are left,
and the rehearsal of the turn, step by step, ends just so.

Main definitions: `Parser.batches`, `Rehearsal.staged`, `Upshot.ofTurn`. Main statements:
`Turn.tryCheck_reaches` (a check), `Turn.reading_reaches` (a stream), `Turn.opening_settles` (a
turn). -/

namespace StagedEdits

/-! ## Chunks -/

namespace Parser

/-- The directives that close in each chunk of a stream which `p` reads. -/
def batches (p : Parser) : List String → List (List Directive)
  | [] => []
  | text :: texts =>
    let fed := p.feed text.toList
    (fed.outcomes.filterMap Outcome.directive?).map (·.directive) ::
      fed.parser.drain.1.batches texts

/-- That no chunk of a stream stops `p`. -/
def Reads (p : Parser) : List String → Prop
  | [] => True
  | text :: texts =>
    (p.feed text.toList).stopped = none ∧ (p.feed text.toList).parser.drain.1.Reads texts

end Parser

/-! ## The outline of a turn -/

namespace Turn

/-- What of a `Turn` decides how it goes on, besides the point where it waits. -/
structure Outline where
  config : TurnConfig
  overlay : Overlay
  status : TurnStatus
  budget : Budget
  cancelRequested : Bool

/-- The `Outline` of `t`. -/
def outline (t : Turn) : Outline := ⟨t.config, t.overlay, t.status, t.budget, t.cancelRequested⟩

end Turn

/-! ## Rehearsals -/

namespace Rehearsal

section Stage

variable (cuts : List (List String)) (verdicts : List Verdict)

/-- The chunks of a stream. -/
def textsOf (n : Nat) : List String := repeatLast [] cuts n

/-- What the type checker answers to a call. -/
def answerOf (m : Nat) : CheckReply := (repeatLast ⟨.problems [], false⟩ verdicts m).reply

/-- The turn `t` with an agent that sends texts, of which `cues` are still to come, and a listener
    that takes what it is told, after so many `streams` and `checks`. -/
def staged (t : Turn) (streams checks : Nat) (cues : List Cue) : Rehearsal where
  turn := t
  cast := ⟨cuts.map fun texts => .cues (texts.map .text), verdicts, streams, checks⟩
  cues := cues
  listener := ⟨[], none, []⟩
  plan := []

end Stage

/-- The next step of `x`, at what its turn gets. -/
def follow (base : BaseTree) (x : Rehearsal) : Prompted → Option Rehearsal
  | .stop => none
  | .reply r => some (x.reply base r)
  | .hold next => some (x.hold base next)
  | .tell => some (x.tell base)

/-- That steps over `base` lead from a rehearsal to another one. -/
def Reaches (base : BaseTree) : Rehearsal → Rehearsal → Prop :=
  Relation.ReflTransGen fun x y => x.step? base = some y

/-- That a rehearsal goes on until running the turn has ended, as `y`. -/
structure Ends (base : BaseTree) (x y : Rehearsal) : Prop where
  steps : Reaches base x y
  isOver : y.turn.isOver = true

/-- A rehearsal ends in one way only. -/
theorem Ends.unique {base : BaseTree} {x y z : Rehearsal} (hy : x.Ends base y)
    (hz : x.Ends base z) : y = z := by
  have hstay {a b : Rehearsal} (ha : a.turn.isOver = true) (h : Reaches base a b) : a = b := by
    rcases h.cases_head with he | ⟨c, hc, -⟩
    · exact he
    · -- a turn that is over waits for nothing
      unfold Turn.isOver at ha
      unfold step? at hc
      cases hp : a.turn.point with
      | «over» e =>
        rw [hp] at hc
        cases hc
      | _ => exact absurd ha (by rw [hp]; exact nofun)
  have hunique : Relator.RightUnique fun a b : Rehearsal => a.step? base = some b :=
    fun a b c hb hc => Option.some.inj (hb.symm.trans hc)
  rcases Relation.ReflTransGen.total_of_right_unique hunique hy.steps hz.steps with h | h
  · exact hstay hy.isOver h
  · exact (hstay hz.isOver h).symm

section Steps

variable {base : BaseTree} {cuts : List (List String)} {verdicts : List Verdict} {t : Turn}
  {n m : Nat} {cues : List Cue}

theorem step_of_prompt {x : Rehearsal} {c : Cast} {p : Prompted}
    (h : x.cast.prompt x.cues x.turn.point = (c, cues, p)) :
    x.step? base = { x with cast := c, cues }.follow base p := by
  unfold step?
  rw [h]
  cases p <;> rfl

theorem reaches_of_tell (h : ∀ c : Cast, c.prompt cues t.point = (c, cues, .tell)) :
    Reaches base (staged cuts verdicts t n m cues)
      (staged cuts verdicts (t.advance base .told) n m cues) :=
  .single ((step_of_prompt (h (staged cuts verdicts t n m cues).cast)).trans rfl)

theorem reaches_of_reply {r : Reply} (h : ∀ c : Cast, c.prompt cues t.point = (c, cues, .reply r)) :
    Reaches base (staged cuts verdicts t n m cues)
      (staged cuts verdicts (t.advance base r) n m cues) :=
  .single ((step_of_prompt (h (staged cuts verdicts t n m cues).cast)).trans rfl)

theorem reaches_of_checking {request : Snapshot} {failed : Nat}
    (hp : t.point = .checking request failed) :
    Reaches base (staged cuts verdicts t n m cues)
      (staged cuts verdicts (t.advance base (answerOf verdicts m).toReply) n (m + 1) cues) := by
  refine .single ?_
  -- a held answer is released at once
  have hprompt (c : Cast) : ∃ p, (p = .hold (some c.nextVerdict.reply.toReply) ∨
      p = .reply c.nextVerdict.reply.toReply) ∧
        c.prompt cues t.point = ({ c with checks := c.checks + 1 }, cues, p) := by
    rw [hp]
    cases hheld : c.nextVerdict.held with
    | true => exact ⟨_, .inl rfl, by simp only [Cast.prompt, hheld, if_true]⟩
    | false => exact ⟨_, .inr rfl, by simp only [Cast.prompt, hheld, Bool.false_eq_true, if_false]⟩
  obtain ⟨p, rfl | rfl, h⟩ := hprompt (staged cuts verdicts t n m cues).cast
  · exact step_of_prompt h
  · exact step_of_prompt h

theorem repeatLast_map {α β : Type} (g : α → β) (default : α) (l : List α) (i : Nat) :
    repeatLast (g default) (l.map g) i = g (repeatLast default l i) := by
  simp only [repeatLast, List.getElem?_map, List.getLast?_map, Option.getD_map]

theorem reaches_of_opening (hp : t.point = .opening) :
    Reaches base (staged cuts verdicts t n m cues)
      (staged cuts verdicts (t.advance base .opened) (n + 1) m ((textsOf cuts n).map .text)) := by
  have hscript : (staged cuts verdicts t n m cues).cast.nextScript =
      .cues ((textsOf cuts n).map .text) :=
    repeatLast_map (fun texts : List String => Script.cues (texts.map .text)) [] cuts n
  refine .single (step_of_prompt (p := .reply .opened) ?_)
  show Cast.prompt _ cues t.point = _
  rw [hp, Cast.prompt, hscript]
  rfl

theorem reaches_of_text {p : Parser} (hp : t.point = .reading p) (text : String) :
    Reaches base (staged cuts verdicts t n m (.text text :: cues))
      (staged cuts verdicts (t.advance base (.chunk text)) n m cues) := by
  refine .single (step_of_prompt (p := .reply (.chunk text)) ?_)
  show Cast.prompt _ (.text text :: cues) t.point = _
  rw [hp]
  rfl

theorem reaches_of_end {p : Parser} (hp : t.point = .reading p) :
    Reaches base (staged cuts verdicts t n m [])
      (staged cuts verdicts (t.advance base .ended) n m []) := by
  refine .single (step_of_prompt (p := .reply .ended) ?_)
  show Cast.prompt _ [] t.point = _
  rw [hp]
  rfl

end Steps

end Rehearsal

/-! ## A check -/

namespace RetryPolicy

variable (p : RetryPolicy) (label : String) (answer : Nat → CheckReply)

/-- What one try comes to, after so many `calls` of the type checker, and the calls behind it. -/
def oneTry (calls : Nat) : CheckReply × Nat :=
  match p.earlyFailure? with
  | some f => (.failed f, calls)
  | none => (answer calls, calls + 1)

theorem runFrom_succ (left failed calls : Nat) (reason : String) (said : List Entry) :
    p.runFrom label answer (left + 1) failed calls reason said =
      let said := said ++ p.tryEntries label failed
      if 0 < failed && p.cannotPause then ⟨.error .clockOverflow, calls, said⟩
      else
        match p.after (p.oneTry answer calls).1 with
        | .answered ps => ⟨.ok ps, (p.oneTry answer calls).2, said⟩
        | .cancelled => ⟨.error .cancelled, (p.oneTry answer calls).2, said⟩
        | .failed reason =>
          p.runFrom label answer left (failed + 1) (p.oneTry answer calls).2 reason
            (said ++ [failedEntry label failed reason]) := rfl

end RetryPolicy

namespace Turn

open Rehearsal

/-- What `t` makes of what a whole check came to. -/
def concludeCheck (t : Turn) : Except Failure (List Problem) → Turn
  | .ok ps => t.takeProblems ps
  | .error (.fault _) => t.fail .checkerUnavailable .loop
  | .error f => t.abort f

section Check

variable (base : BaseTree) (cuts : List (List String)) (verdicts : List Verdict) (n : Nat)
  (cues : List Cue)

/-- One try of a check: the type checker is called unless the try is over before. -/
theorem callCheck_reaches {policy : RetryPolicy} {t : Turn} (hpolicy : t.config.policy = policy)
    (request : Snapshot) (failed m : Nat) :
    ∃ u : Turn, u.outline = t.outline ∧
      Reaches base (staged cuts verdicts (t.callCheck request failed) n m cues)
        (staged cuts verdicts
          (u.takeReply request failed (policy.oneTry (answerOf verdicts) m).1) n
          (policy.oneTry (answerOf verdicts) m).2 cues) := by
  unfold callCheck RetryPolicy.oneTry
  rw [hpolicy]
  cases policy.earlyFailure? with
  | some f =>
    exact ⟨t.waitAt (.dismissing request failed f), rfl,
      reaches_of_reply (r := .rested) fun c => rfl⟩
  | none =>
    let u := { t with checkCalls := t.checkCalls + 1, requests := t.requests ++ [request] }.waitAt
      (.checking request failed)
    have hadvance : u.advance base (answerOf verdicts m).toReply =
        u.takeReply request failed (answerOf verdicts m) := by
      cases answerOf verdicts m <;> rfl
    refine ⟨u, rfl, ?_⟩
    rw [← hadvance]
    exact reaches_of_checking rfl

/-- Another try comes to a call of the type checker, at once or after a pause, or there can be no
    pause. -/
theorem tryCheck_allowed {policy : RetryPolicy} {t : Turn} (hpolicy : t.config.policy = policy)
    {failed : Nat} (hallows : policy.allows failed = true) (request : Snapshot) (m : Nat)
    (reason : String) :
    ∃ u : Turn, u.outline = t.outline ∧
      if 0 < failed && policy.cannotPause then
        t.tryCheck request failed reason = u.abort .clockOverflow
      else
        Reaches base (staged cuts verdicts (t.tryCheck request failed reason) n m cues)
          (staged cuts verdicts (u.callCheck request failed) n m cues) := by
  let u := t.say (policy.tryEntries t.checkLabel failed)
  have htry : t.tryCheck request failed reason =
      if failed == 0 || policy.delay.isZero then u.callCheck request failed
      else if policy.cannotPause then u.abort .clockOverflow
      else u.waitAt (.pausing request failed) := by
    unfold tryCheck
    dsimp only
    rw [hpolicy, if_pos hallows]
  rw [htry]
  by_cases hnow : (failed == 0 || policy.delay.isZero) = true
  · have hcan : ¬(0 < failed && policy.cannotPause) = true := by
      rw [Bool.or_eq_true, beq_iff_eq] at hnow
      rcases hnow with rfl | hzero
      · exact nofun
      · simp [cannotPause_of_isZero hzero]
    refine ⟨u, rfl, ?_⟩
    rw [if_neg hcan, if_pos hnow]
    exact .refl
  · have hlater : 0 < failed := by
      rcases Nat.eq_zero_or_pos failed with rfl | hpos
      · exact absurd rfl hnow
      · exact hpos
    simp only [hlater, decide_true, Bool.true_and, if_neg hnow]
    by_cases hcannot : policy.cannotPause = true
    · refine ⟨u, rfl, ?_⟩
      rw [if_pos hcannot, if_pos hcannot]
    · refine ⟨u.waitAt (.pausing request failed), rfl, ?_⟩
      rw [if_neg hcannot, if_neg hcannot]
      exact reaches_of_reply (r := .rested) fun c => rfl

/-- **A check takes the answers of the type checker in turn until it is concluded.** -/
theorem tryCheck_reaches {policy : RetryPolicy} (label : String) (request : Snapshot)
    {left failed : Nat} (hleft : left = (policy.maxRetries + 1).toNat - failed) (m : Nat) {t : Turn}
    (hpolicy : t.config.policy = policy) (reason : String) (said : List Entry) :
    let run := policy.runFrom label (answerOf verdicts) left failed m reason said
    ∃ u : Turn, u.outline = t.outline ∧
      Reaches base (staged cuts verdicts (t.tryCheck request failed reason) n m cues)
        (staged cuts verdicts (u.concludeCheck run.outcome) n run.calls cues) := by
  -- on the tries that are left
  induction left generalizing failed m t reason said with
  | zero =>
    have hallows : ¬policy.allows failed = true := by
      simp only [RetryPolicy.allows, decide_eq_true_eq]
      omega
    refine ⟨(t.say [RetryPolicy.givenUpEntry t.checkLabel]).addErrors [policy.givenUp reason], rfl,
      ?_⟩
    unfold tryCheck
    dsimp only
    rw [hpolicy, if_neg hallows, giveUpCheck, hpolicy]
    exact .refl
  | succ left ih =>
    have hallows : policy.allows failed = true := by
      simp only [RetryPolicy.allows, decide_eq_true_eq]
      omega
    obtain ⟨u, hu, htry⟩ :=
      tryCheck_allowed base cuts verdicts n cues hpolicy hallows request m reason
    rw [RetryPolicy.runFrom_succ]
    dsimp only
    by_cases hcannot : (0 < failed && policy.cannotPause) = true
    · rw [if_pos hcannot] at htry ⊢
      rw [htry]
      exact ⟨u, hu, .refl⟩
    rw [if_neg hcannot] at htry ⊢
    have hpolicy' : u.config.policy = policy :=
      (congrArg (fun o => o.config.policy) hu).trans hpolicy
    obtain ⟨v, hv, hcall⟩ := callCheck_reaches base cuts verdicts n cues hpolicy' request failed m
    have hv' := hv.trans hu
    have hpolicy'' : v.config.policy = policy :=
      (congrArg (fun o => o.config.policy) hv').trans hpolicy
    have hcalled := htry.trans hcall
    generalize policy.oneTry (answerOf verdicts) m = got at hcalled ⊢
    unfold takeReply at hcalled
    rw [hpolicy''] at hcalled
    cases hafter : policy.after got.1 with
    | answered ps =>
      rw [hafter] at hcalled
      exact ⟨v, hv', hcalled⟩
    | cancelled =>
      rw [hafter] at hcalled
      exact ⟨v, hv', hcalled⟩
    | failed reason' =>
      rw [hafter] at hcalled
      obtain ⟨w, hw, hrest⟩ := ih (t := v.say [RetryPolicy.failedEntry v.checkLabel failed reason'])
        (show left = _ - (failed + 1) by omega) got.2 hpolicy'' reason' (said ++
          policy.tryEntries label failed ++ [RetryPolicy.failedEntry label failed reason'])
      exact ⟨w, hw.trans hv', hcalled.trans hrest⟩

end Check

/-! ## A stream -/

section Stream

variable {base : BaseTree} (cuts : List (List String)) (verdicts : List Verdict) (n m : Nat)
  (cues : List Cue)

theorem applyParsed_reaches {t : Turn} (hc : t.cancelRequested = false) (p : Parser)
    {ds : List Parsed} (hds : ∀ d ∈ ds.map (·.directive), base.Shows d) :
    ∃ u : Turn, u.point = .reading p ∧ u.outline = { t.outline with overlay := u.overlay } ∧
      u.overlay.shape = (Applier.batchOrder (ds.map (·.directive))).foldl (Shape.apply base)
        t.overlay.shape ∧
      Reaches base (staged cuts verdicts (t.applyParsed base p ds) n m cues)
        (staged cuts verdicts u n m cues) := by
  obtain ⟨hshape, hstopped⟩ := Applier.applyBatch_shape hds t.config.session t.applier
  unfold applyParsed
  generalize t.applier.applyBatch base t.config.session (ds.map .parsed) = done at hshape hstopped ⊢
  obtain ⟨a, b⟩ := done
  dsimp only at hstopped ⊢
  rw [hstopped]
  dsimp only
  let v := (t.say b.entries).recordBatch a b
  have hv : v.cancelRequested = false := hc
  split
  · let w := (v.emit (.patch b.applied b.errors)).waitAt (.tellingPatch p)
    have hadvance : w.advance base .told = w.waitAt (.reading p) := by
      show w.readOn p = _
      rw [readOn, if_neg (by rw [show w.cancelRequested = false from hc]; exact nofun)]
    refine ⟨w.waitAt (.reading p), rfl, rfl, hshape, ?_⟩
    rw [← hadvance]
    exact reaches_of_tell fun c => rfl
  · refine ⟨v.waitAt (.reading p), rfl, rfl, hshape, ?_⟩
    rw [readOn, if_neg (by rw [hv]; exact nofun)]
    exact .refl

/-- A chunk is applied as one batch. -/
theorem takeText_reaches {t : Turn} (hc : t.cancelRequested = false) {p : Parser} {text : String}
    (hread : (p.feed text.toList).stopped = none) {ds : List Parsed}
    (hparsed : (p.feed text.toList).outcomes.filterMap Outcome.directive? = ds)
    (hds : ∀ d ∈ ds.map (·.directive), base.Shows d) :
    ∃ u : Turn, u.point = .reading (p.feed text.toList).parser.drain.1 ∧
      u.outline = { t.outline with overlay := u.overlay } ∧
      u.overlay.shape = (Applier.batchOrder (ds.map (·.directive))).foldl (Shape.apply base)
        t.overlay.shape ∧
      Reaches base (staged cuts verdicts (t.takeText base p text) n m cues)
        (staged cuts verdicts u n m cues) := by
  unfold takeText
  dsimp only
  rw [hread, hparsed]
  dsimp only
  let v := (t.say ((p.feed text.toList).outcomes.map p.outcomeEntry)).addErrors
    ((p.feed text.toList).parser.drain.2.map Fault.ofRefusal)
  have hv : v.cancelRequested = false := hc
  cases ds with
  | nil =>
    refine ⟨v.waitAt (.reading (p.feed text.toList).parser.drain.1), rfl, rfl, rfl, ?_⟩
    dsimp only
    rw [readOn, if_neg (by rw [show Turn.cancelRequested _ = false from hv]; exact nofun)]
    exact .refl
  | cons d ds =>
    exact applyParsed_reaches cuts verdicts n m cues hv (p.feed text.toList).parser.drain.1 hds

/-- **A stream is applied chunk by chunk**: behind `texts` the turn has applied their batches. -/
theorem reading_reaches {texts : List String} {t : Turn} {p : Parser} (hp : t.point = .reading p)
    (hc : t.cancelRequested = false) (hread : p.Reads texts)
    (hds : ∀ d ∈ (p.batches texts).flatten, base.Shows d) :
    ∃ (u : Turn) (q : Parser), u.point = .reading q ∧
      u.outline = { t.outline with overlay := u.overlay } ∧
      u.overlay.shape = ((p.batches texts).flatMap Applier.batchOrder).foldl (Shape.apply base)
        t.overlay.shape ∧
      Reaches base (staged cuts verdicts t n m (texts.map .text))
        (staged cuts verdicts u n m []) := by
  induction texts generalizing t p with
  | nil => exact ⟨t, p, hp, rfl, rfl, .refl⟩
  | cons text texts ih =>
    obtain ⟨hfirst, hrest⟩ := hread
    rw [Parser.batches, List.flatten_cons] at hds
    let v := (t.emit (.chunk text)).waitAt (.tellingChunk p text)
    have hchunk : t.advance base (.chunk text) = v := by
      unfold advance
      rw [hp]
    have htold : v.advance base .told = v.takeText base p text := rfl
    obtain ⟨u, hu, houtline, hshape, htaken⟩ := takeText_reaches cuts verdicts n m
      (texts.map .text) (show v.cancelRequested = false from hc) hfirst rfl
      fun d hd => hds d (List.mem_append_left _ hd)
    obtain ⟨w, q, hw, houtline', hshape', hreached⟩ := ih hu
      ((congrArg (·.cancelRequested) houtline).trans hc) hrest
      fun d hd => hds d (List.mem_append_right _ hd)
    refine ⟨w, q, hw, ?_, ?_, ?_⟩
    · rw [houtline', houtline]
      rfl
    · rw [hshape', hshape, Parser.batches, List.flatMap_cons, List.foldl_append]
      rfl
    · have htext : Reaches base (staged cuts verdicts t n m (.text text :: texts.map .text))
          (staged cuts verdicts (t.advance base (.chunk text)) n m (texts.map .text)) :=
        reaches_of_text hp text
      have htell : Reaches base (staged cuts verdicts v n m (texts.map .text))
          (staged cuts verdicts (v.advance base .told) n m (texts.map .text)) :=
        reaches_of_tell fun c => rfl
      rw [hchunk] at htext
      rw [htold] at htell
      exact ((htext.trans htell).trans htaken).trans hreached

end Stream

end Turn

/-! ## The end -/

/-- How a turn stands when it has ended. -/
structure Upshot where
  status : TurnStatus
  /-- What its overlay holds. -/
  shape : Shape

namespace Upshot

/-- How a turn ends that asks for a repair, `next` if the agent is asked; if there is no digest of
    the problems, it is never asked. -/
def ofRepair (limit : Int) (s : Shape) (problems : List Problem) (next : Upshot) : Upshot :=
  match repairDigest limit problems with
  | .error _ => ⟨.repairing, s⟩
  | .ok _ => next

/-- How a turn ends by what a check came to; `next` is how it ends after a repair, if there is one
    left. -/
def ofCheck (limit : Int) (s : Shape) (next : Option Upshot) :
    Except Failure (List Problem) → Upshot
  | .ok [] => ⟨.clean, s⟩
  | .ok (p :: ps) => (next.map (ofRepair limit s (sortProblems (p :: ps)))).getD ⟨.failed, s⟩
  | .error (.fault _) => ⟨.failed, s⟩
  | .error .cancelled => ⟨.cancelled, Overlay.empty.shape⟩
  | .error _ => ⟨.checking, s⟩

/-- How a turn ends that is about to ask for a stream, with so many `repairs` left, after so many
    `streams` and `calls` of the type checker; `batches` are the directives of each stream, chunk by
    chunk. -/
def ofTurn (base : BaseTree) (config : TurnConfig) (verdicts : List Verdict)
    (batches : Nat → List (List Directive)) : (repairs streams calls : Nat) → Shape → Upshot
  | repairs, streams, calls, s =>
    let s := ((batches streams).flatMap Applier.batchOrder).foldl (Shape.apply base) s
    let run := config.policy.runFrom "" (Rehearsal.answerOf verdicts)
      (config.policy.maxRetries + 1).toNat 0 calls "" []
    let next :=
      match repairs with
      | 0 => none
      | repairs + 1 => some (ofTurn base config verdicts batches repairs (streams + 1) run.calls s)
    ofCheck config.digestLimit s next run.outcome

end Upshot

/-- That the rehearsal `x` ends as `u` says. -/
def Rehearsal.Settles (base : BaseTree) (x : Rehearsal) (u : Upshot) : Prop :=
  ∃ y, x.Ends base y ∧ y.turn.status = u.status ∧ y.turn.overlay.shape = u.shape

theorem Rehearsal.Reaches.settles {base : BaseTree} {x y : Rehearsal} {u : Upshot}
    (h : Reaches base x y) (hy : y.Settles base u) : x.Settles base u := by
  obtain ⟨z, hz, hend⟩ := hy
  exact ⟨z, ⟨h.trans hz.steps, hz.isOver⟩, hend⟩

namespace Turn

open Rehearsal

section Ending

variable {base : BaseTree} {cuts : List (List String)} {verdicts : List Verdict} {n m : Nat}
  {cues : List Cue} {t : Turn}

theorem finish_settles (t : Turn) (frame : Frame) :
    (staged cuts verdicts (t.finish frame) n m cues).Settles base ⟨t.status, t.overlay.shape⟩ := by
  have htold : Reaches base (staged cuts verdicts (t.finish frame) n m cues)
      (staged cuts verdicts ((t.finish frame).advance base .told) n m cues) :=
    reaches_of_tell fun c => rfl
  refine htold.settles ?_
  cases frame with
  | loop => exact ⟨_, ⟨.refl, rfl⟩, rfl, rfl⟩
  | handler => exact ⟨_, ⟨.refl, rfl⟩, rfl, rfl⟩
  | stream =>
    -- the stream is still to be closed
    exact ⟨_, ⟨reaches_of_reply (r := .closed) fun c => rfl, rfl⟩, rfl, rfl⟩

theorem fail_settles (h : t.Active) (reason : FailureReason) (frame : Frame) :
    (staged cuts verdicts (t.fail reason frame) n m cues).Settles base
      ⟨.failed, t.overlay.shape⟩ := by
  rw [h.fail_eq]
  exact finish_settles _ frame

theorem abort_settles (h : t.Active) :
    (staged cuts verdicts (t.abort .cancelled) n m cues).Settles base
      ⟨.cancelled, Overlay.empty.shape⟩ := by
  rw [abort_cancelled h, h.finishCancelled_eq]
  exact finish_settles _ .handler

theorem abort_settles_of_ne {f : Failure} (hf : f ≠ .cancelled) :
    (staged cuts verdicts (t.abort f) n m cues).Settles base ⟨t.status, t.overlay.shape⟩ := by
  rw [abort_of_ne hf]
  exact ⟨_, ⟨.refl, rfl⟩, rfl, rfl⟩

end Ending

/-! ## A turn -/

/-- That `t` asks for a stream, with so many `repairs` left. -/
structure Opens (config : TurnConfig) (repairs : Nat) (t : Turn) : Prop where
  config : t.config = config
  point : t.point = .opening
  status : t.status = .streaming
  calm : t.cancelRequested = false
  repairs : t.budget.attemptsUsed + repairs = t.budget.maxAttempts
  checks : t.budget.checksUsed = t.budget.attemptsUsed

/-- That `t` is checked, with so many `repairs` left. -/
structure Checks (config : TurnConfig) (repairs : Nat) (t : Turn) : Prop where
  config : t.config = config
  status : t.status = .checking
  calm : t.cancelRequested = false
  repairs : t.budget.attemptsUsed + repairs = t.budget.maxAttempts
  checks : t.budget.checksUsed = t.budget.attemptsUsed + 1

section Whole

variable {base : BaseTree} {cuts : List (List String)} {verdicts : List Verdict} {n m : Nat}
  {cues : List Cue} {config : TurnConfig} {repairs : Nat} {t : Turn}

theorem Checks.active (h : t.Checks config repairs) : t.Active := .inr h.status

theorem Checks.of_outline {u : Turn} (h : t.Checks config repairs) (hu : u.outline = t.outline) :
    u.Checks config repairs where
  config := (congrArg Outline.config hu).trans h.config
  status := (congrArg Outline.status hu).trans h.status
  calm := (congrArg Outline.cancelRequested hu).trans h.calm
  repairs := by rw [show u.budget = t.budget from congrArg Outline.budget hu]; exact h.repairs
  checks := by rw [show u.budget = t.budget from congrArg Outline.budget hu]; exact h.checks

/-- Behind a stream a check begins. -/
theorem endStream_checks (hs : t.status = .streaming) (hc : t.cancelRequested = false)
    (hrepairs : t.budget.attemptsUsed + repairs = t.budget.maxAttempts)
    (hchecks : t.budget.checksUsed = t.budget.attemptsUsed) (p : Parser) :
    ∃ u : Turn, u.Checks t.config repairs ∧ u.overlay = t.overlay ∧
      t.endStream p = u.tryCheck u.overlay.snapshot 0 "" := by
  have hcalm : ¬(t.closeParser p).cancelRequested = true := by
    rw [show (t.closeParser p).cancelRequested = false from hc]
    exact nofun
  have hcheck : t.budget.useCheck = ({ t.budget with
      checksUsed := t.budget.checksUsed + 1, uses := t.budget.uses ++ [.check] }, true) := by
    rw [Budget.useCheck, if_neg]
    rw [Budget.maxChecks]
    omega
  let b : Budget := { t.budget with
    checksUsed := t.budget.checksUsed + 1, uses := t.budget.uses ++ [.check] }
  let v := { t.closeParser p with record := { (t.closeParser p).record with status := .checking } }
  let u := ({ v with budget := b }.say v.budget.checkEntries).sayLine "TYPECHECK"
    ("🔍 Check " ++ Budget.ratio b.checksUsed b.maxChecks)
  have hbegin : v.beginCheck = u.tryCheck u.overlay.snapshot 0 "" := by
    unfold beginCheck
    rw [show v.budget.useCheck = (b, true) from hcheck]
    rfl
  unfold endStream
  dsimp only
  rw [if_neg hcalm, moveTo_of_status (by exact hs) rfl]
  exact ⟨u, ⟨rfl, rfl, hc, hrepairs, congrArg (· + 1) hchecks⟩, rfl, hbegin⟩

/-- A stream that is opened is read. -/
theorem Opens.opened (h : t.Opens config repairs) (base : BaseTree) :
    t.advance base .opened = t.waitAt (.reading (Parser.ofMark config.mark)) := by
  unfold advance
  rw [h.point, ← h.config]
  show t.readOn _ = _
  rw [readOn, if_neg (by rw [h.calm]; exact nofun)]
  rfl

/-- A stream is read to its end, and a check begins. -/
theorem Opens.reaches (h : t.Opens config repairs)
    (hread : (Parser.ofMark config.mark).Reads (textsOf cuts n))
    (hds : ∀ d ∈ ((Parser.ofMark config.mark).batches (textsOf cuts n)).flatten, base.Shows d) :
    ∃ u : Turn, u.Checks config repairs ∧
      u.overlay.shape = (((Parser.ofMark config.mark).batches (textsOf cuts n)).flatMap
        Applier.batchOrder).foldl (Shape.apply base) t.overlay.shape ∧
      Reaches base (staged cuts verdicts t n m cues)
        (staged cuts verdicts (u.tryCheck u.overlay.snapshot 0 "") (n + 1) m []) := by
  have hopened := h.opened base
  obtain ⟨rfl, hp, hs, hc, hrepairs, hchecks⟩ := h
  let v := t.waitAt (.reading (Parser.ofMark t.config.mark))
  obtain ⟨w, q, hw, houtline, hshape, hreached⟩ := reading_reaches cuts verdicts (n + 1) m
    (show v.point = _ from rfl) hc hread hds
  have hended : w.advance base .ended = w.leave (.ended q) := by
    unfold advance
    rw [hw]
  have hbudget : w.budget = t.budget := congrArg Outline.budget houtline
  obtain ⟨u, hu, hoverlay, hchecked⟩ := endStream_checks (t := w.leave (.ended q))
    ((congrArg Outline.status houtline).trans hs)
    ((congrArg Outline.cancelRequested houtline).trans hc)
    (show w.budget.attemptsUsed + repairs = w.budget.maxAttempts from hbudget ▸ hrepairs)
    (show w.budget.checksUsed = w.budget.attemptsUsed from hbudget ▸ hchecks) q
  have hconfig : (w.leave (.ended q)).config = t.config := congrArg Outline.config houtline
  refine ⟨u, hconfig ▸ hu, by rw [hoverlay]; exact hshape, ?_⟩
  have hopening : Reaches base (staged cuts verdicts t n m cues) (staged cuts verdicts v (n + 1) m
      ((textsOf cuts n).map .text)) := by
    rw [← show t.advance base .opened = v from hopened]
    exact reaches_of_opening hp
  have hend : Reaches base (staged cuts verdicts w (n + 1) m [])
      (staged cuts verdicts (w.leave (.ended q)) (n + 1) m []) := by
    rw [← hended]
    exact reaches_of_end hw
  have hclose : Reaches base (staged cuts verdicts (w.leave (.ended q)) (n + 1) m [])
      (staged cuts verdicts (u.tryCheck u.overlay.snapshot 0 "") (n + 1) m []) := by
    rw [← hchecked]
    exact reaches_of_reply (r := .closed) fun c => rfl
  exact ((hopening.trans hreached).trans hend).trans hclose

/-- The problems of a check are told, unless a cancellation was requested. -/
theorem Checks.takeProblems (h : t.Checks config repairs) (ps : List Problem) :
    (t.takeProblems ps).Checks config repairs ∧ (t.takeProblems ps).overlay = t.overlay ∧
      (t.takeProblems ps).point = .tellingDiagnostics (sortProblems ps) := by
  unfold Turn.takeProblems
  dsimp only
  rw [if_neg (by rw [h.calm]; exact nofun)]
  exact ⟨h.of_outline rfl, rfl, rfl⟩

/-- The type checker is called at once in a first try that may reach it. -/
theorem Checks.asks (h : t.Checks config repairs) (hallows : config.policy.allows 0 = true)
    (hearly : config.policy.earlyFailure? = none) (request : Snapshot) (reason : String) :
    (t.tryCheck request 0 reason).Checks config repairs ∧
      (t.tryCheck request 0 reason).overlay = t.overlay ∧
      (t.tryCheck request 0 reason).point = .checking request 0 := by
  rw [← h.config] at hallows hearly
  unfold tryCheck
  dsimp only
  rw [if_pos hallows, if_pos (by rfl), callCheck]
  dsimp only [say]
  rw [hearly]
  exact ⟨h.of_outline rfl, rfl, rfl⟩

/-- **A generation without a text** comes to a check of the overlay as it is, and its problems are
    told. -/
theorem Opens.silence (h : t.Opens config repairs) (hallows : config.policy.allows 0 = true)
    (hearly : config.policy.earlyFailure? = none) (base : BaseTree) (ps : List Problem) :
    let u := (((t.advance base .opened).advance base .ended).advance base .closed).advance base
      (.checked ps)
    u.Checks config repairs ∧ u.overlay = t.overlay ∧
      u.point = .tellingDiagnostics (sortProblems ps) := by
  rw [h.opened base]
  let p := Parser.ofMark config.mark
  let left := (t.waitAt (.reading p)).leave (.ended p)
  obtain ⟨u, hu, hoverlay, hchecked⟩ := endStream_checks (t := left) h.status h.calm h.repairs
    h.checks p
  obtain ⟨hasks, hsame, hpoint⟩ :=
    (h.config ▸ hu : u.Checks config repairs).asks hallows hearly u.overlay.snapshot ""
  obtain ⟨htold, hkept, hp⟩ := hasks.takeProblems ps
  show let v := (left.endStream p).advance base (.checked ps)
    v.Checks config repairs ∧ v.overlay = t.overlay ∧ v.point = _
  rw [hchecked, advance_checked base hpoint]
  exact ⟨htold, (hkept.trans hsame).trans hoverlay, hp⟩

/-- A repair with a digest asks for the next stream. -/
theorem Checks.repair_opens (h : t.Checks config (repairs + 1)) {problems : List Problem}
    {digest : String} (hdigest : repairDigest config.digestLimit problems = .ok digest) :
    (t.repair problems).Opens config repairs ∧ (t.repair problems).overlay = t.overlay := by
  obtain ⟨rfl, hs, hc, hrepairs, hchecks⟩ := h
  have huse : (t.budget.useRepair problems.length).1 = { t.budget with
      attemptsUsed := t.budget.attemptsUsed + 1,
      uses := t.budget.uses ++ [.repair problems.length] } := by
    rw [Budget.useRepair, if_neg (by omega)]
  rw [repair_eq hs, hdigest]
  refine ⟨⟨rfl, rfl, rfl, hc, ?_, ?_⟩, rfl⟩
  · show (t.budget.useRepair problems.length).1.attemptsUsed + repairs =
      (t.budget.useRepair problems.length).1.maxAttempts
    rw [huse]
    dsimp only
    omega
  · show (t.budget.useRepair problems.length).1.checksUsed =
      (t.budget.useRepair problems.length).1.attemptsUsed
    rw [huse]
    exact hchecks

/-- A repair is asked for as its upshot says, if a turn that asks for the next stream ends as
    `next` says. -/
theorem Checks.repair_settles (h : t.Checks config (repairs + 1)) (problems : List Problem)
    {next : Upshot} (hnext : ∀ u : Turn, u.Opens config repairs → u.overlay = t.overlay →
      (staged cuts verdicts u n m cues).Settles base next) :
    (staged cuts verdicts (t.repair problems) n m cues).Settles base
      (Upshot.ofRepair config.digestLimit t.overlay.shape problems next) := by
  unfold Upshot.ofRepair
  cases hdigest : repairDigest config.digestLimit problems with
  | ok digest =>
    obtain ⟨hopens, hoverlay⟩ := h.repair_opens hdigest
    exact hnext _ hopens hoverlay
  | error f =>
    rw [← h.config] at hdigest
    rw [repair_eq h.status, hdigest]
    exact ⟨_, ⟨.refl, rfl⟩, rfl, rfl⟩

theorem judged_settles_of_nil (h : t.Checks config repairs) :
    (staged cuts verdicts (t.judged []) n m cues).Settles base ⟨.clean, t.overlay.shape⟩ := by
  unfold judged
  rw [List.isEmpty_nil, if_pos rfl, moveTo_of_status h.status rfl]
  exact finish_settles _ .loop

theorem judged_settles_of_last (h : t.Checks config 0) {problems : List Problem}
    (hsome : problems ≠ []) :
    (staged cuts verdicts (t.judged problems) n m cues).Settles base
      ⟨.failed, t.overlay.shape⟩ := by
  have hno : ¬t.budget.canRepair = true := by
    intro hcan
    have hpos : 0 < t.budget.maxAttempts - t.budget.attemptsUsed := of_decide_eq_true hcan
    have hrepairs := h.repairs
    omega
  unfold judged
  rw [if_neg (mt List.isEmpty_iff.1 hsome), if_neg hno]
  have hactive : (t.sayLine "REPAIR" (t.budget.exhaustionReport problems.length)).Active := h.active
  exact fail_settles hactive .budgetExhausted .loop

theorem judged_of_repairs (h : t.Checks config (repairs + 1)) {problems : List Problem}
    (hsome : problems ≠ []) : t.judged problems = t.repair problems := by
  have hrepairs := h.repairs
  have hcan : t.budget.canRepair = true :=
    decide_eq_true (show 0 < t.budget.maxAttempts - t.budget.attemptsUsed by omega)
  unfold judged
  rw [if_neg (mt List.isEmpty_iff.1 hsome), if_pos hcan]

/-- A turn that is checked ends by what the check came to, if it ends after a repair as `next`
    says. -/
theorem Checks.settles (h : t.Checks config repairs) {next : Option Upshot}
    (hlast : repairs = 0 → next = none)
    (hnext : ∀ k, repairs = k + 1 → ∃ upshot, next = some upshot ∧
      ∀ u : Turn, u.Opens config k → u.overlay = t.overlay →
        (staged cuts verdicts u n m cues).Settles base upshot)
    (outcome : Except Failure (List Problem)) :
    (staged cuts verdicts (t.concludeCheck outcome) n m cues).Settles base
      (Upshot.ofCheck config.digestLimit t.overlay.shape next outcome) := by
  have hraise (f : Failure) (hf : f ≠ .cancelled) :
      (staged cuts verdicts (t.abort f) n m cues).Settles base ⟨.checking, t.overlay.shape⟩ := by
    rw [← h.status]
    exact abort_settles_of_ne hf
  cases outcome with
  | error f =>
    cases f with
    | fault e => exact fail_settles h.active .checkerUnavailable .loop
    | cancelled => exact abort_settles h.active
    | timedOut => exact hraise .timedOut nofun
    | other kind text => exact hraise (.other kind text) nofun
  | ok ps =>
    let problems := sortProblems ps
    obtain ⟨hw, hsame, hp⟩ := h.takeProblems ps
    rw [show t.concludeCheck (.ok ps) = t.takeProblems ps from rfl, ← hsame]
    rw [← hsame] at hnext
    generalize t.takeProblems ps = w at hw hp hnext
    have htold : Reaches base (staged cuts verdicts w n m cues)
        (staged cuts verdicts (w.judged problems) n m cues) := by
      rw [← advance_problems base hp]
      exact reaches_of_tell fun c => by rw [hp]; rfl
    refine htold.settles ?_
    cases ps with
    | nil =>
      rw [show problems = [] from (sortProblems_perm []).eq_nil]
      exact judged_settles_of_nil hw
    | cons p ps =>
      have hsome : problems ≠ [] := fun he =>
        List.cons_ne_nil p ps ((sortProblems_perm (p :: ps)).symm.trans (.of_eq he)).eq_nil
      cases repairs with
      | zero =>
        rw [hlast rfl]
        exact judged_settles_of_last hw hsome
      | succ k =>
        obtain ⟨upshot, rfl, hsettles⟩ := hnext k rfl
        rw [judged_of_repairs hw hsome]
        exact hw.repair_settles problems hsettles

/-- A turn that asks for a stream ends by what the check behind it comes to, if it ends after a
    repair as `next` says. -/
theorem Opens.settles (h : t.Opens config repairs)
    (hread : (Parser.ofMark config.mark).Reads (textsOf cuts n))
    (hds : ∀ d ∈ ((Parser.ofMark config.mark).batches (textsOf cuts n)).flatten, base.Shows d)
    {s : Shape} (hs : s = (((Parser.ofMark config.mark).batches (textsOf cuts n)).flatMap
      Applier.batchOrder).foldl (Shape.apply base) t.overlay.shape) {run : RetryPolicy.CheckRun}
    (hrun : run = config.policy.runFrom "" (answerOf verdicts) (config.policy.maxRetries + 1).toNat
      0 m "" []) {next : Option Upshot} (hlast : repairs = 0 → next = none)
    (hnext : ∀ k, repairs = k + 1 → ∃ upshot, next = some upshot ∧
      ∀ u : Turn, u.Opens config k → u.overlay.shape = s →
        (staged cuts verdicts u (n + 1) run.calls []).Settles base upshot) :
    (staged cuts verdicts t n m cues).Settles base
      (Upshot.ofCheck config.digestLimit s next run.outcome) := by
  subst hs hrun
  obtain ⟨u, hu, hshape, hreached⟩ := h.reaches hread hds
  obtain ⟨v, hv, hchecked⟩ := tryCheck_reaches base cuts verdicts (n + 1) [] "" u.overlay.snapshot
    (Nat.sub_zero _).symm m (congrArg TurnConfig.policy hu.config) "" []
  have hoverlay : v.overlay = u.overlay := congrArg Outline.overlay hv
  refine Reaches.settles (hreached.trans hchecked) ?_
  rw [← hshape, ← hoverlay]
  refine (hu.of_outline hv).settles hlast (fun k hk => ?_) _
  obtain ⟨upshot, hsome, hsettles⟩ := hnext k hk
  exact ⟨upshot, hsome, fun w hw hsame => hsettles w hw (by rw [hsame, hoverlay, hshape])⟩

/-- **A rehearsed turn ends as its upshot says.** -/
theorem opening_settles (hread : ∀ k, (Parser.ofMark config.mark).Reads (textsOf cuts k))
    (hds : ∀ k, ∀ d ∈ ((Parser.ofMark config.mark).batches (textsOf cuts k)).flatten, base.Shows d)
    (h : t.Opens config repairs) :
    (staged cuts verdicts t n m cues).Settles base
      (Upshot.ofTurn base config verdicts
        (fun k => (Parser.ofMark config.mark).batches (textsOf cuts k)) repairs n m
        t.overlay.shape) := by
  -- on the repairs that are left
  induction repairs generalizing t n m cues with
  | zero =>
    rw [Upshot.ofTurn]
    exact h.settles (hread n) (hds n) rfl rfl (fun _ => rfl) fun k hk => absurd hk nofun
  | succ repairs ih =>
    rw [Upshot.ofTurn]
    refine h.settles (hread n) (hds n) rfl rfl (fun h => absurd h nofun) fun k hk => ?_
    cases hk
    refine ⟨_, rfl, fun u hu hs => ?_⟩
    rw [← hs]
    exact ih hu

end Whole

end Turn

end StagedEdits
