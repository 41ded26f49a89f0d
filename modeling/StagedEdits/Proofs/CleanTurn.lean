import StagedEdits.Proofs.Pieces
import StagedEdits.Proofs.TurnRun

set_option autoImplicit false

/-! # Clean turns are certified

A turn that has ended clean was checked as it stands: the type checker was last asked about just
the changes that its overlay holds, and found no problem in them. What is handed over to be
committed without force is what the type checker accepted.

Main definition: `Certificate`. Main statements: `Certificate.next` (one reply),
`Run.Certified.step` (one move), `Run.clean_is_certified`. -/

namespace StagedEdits

/-- That the last of `answers` was that there is no problem in `s`, that the type checker was not
    asked again, and that `s` is what the overlay still holds unless it was committed, and what was
    handed over. -/
structure Accepted (c : Course) (answers : List Answer) (handovers : List Turn.Handover)
    (s : Snapshot) : Prop where
  /-- The last answer. -/
  answered : answers.getLast? = some (s, .problems [])
  /-- The last question. -/
  asked : c.requests.getLast? = some s
  /-- The problems on record. -/
  diagnostics : c.diagnostics = []
  /-- The overlay. -/
  pending : c.committed = false → c.applier.overlay.snapshot = s
  /-- What was handed over. -/
  handedOver : ∀ h ∈ handovers, h.snapshot = s

/-- What holds along a run, at the point `p`, on which nothing is replayed and nothing discarded. -/
structure Certificate (c : Course) (p : Point) (answers : List Answer)
    (handovers : List Turn.Handover) : Prop where
  /-- Status and point go together. -/
  admits : Turn.Admits c.status p
  /-- Nothing is committed before the end. -/
  uncommitted : c.status.isTerminal = false → c.committed = false ∧ handovers = []
  /-- The open question is about the overlay. -/
  question : ∀ request, p.request? = some request → request = c.applier.overlay.snapshot
  /-- The type checker was asked the open question. -/
  asked : ∀ request failed, p = .checking request failed → c.requests.getLast? = some request
  /-- The problems that are told are those of the last check. -/
  judged : ∀ ps, p = .tellingDiagnostics ps → c.diagnostics = ps ∧
    (ps = [] → answers.getLast? = some (c.applier.overlay.snapshot, .problems []) ∧
      c.requests.getLast? = some c.applier.overlay.snapshot)
  /-- A clean turn was accepted. -/
  clean : c.status = .clean → ∃ s, Accepted c answers handovers s

namespace Certificate

/-- No question is open and no problem is told after the end. -/
theorem silent_of_terminal {s : TurnStatus} {p : Point} (h : Turn.Admits s p)
    (ht : s.isTerminal = true) : p.request? = none ∧ ∀ ps, p ≠ .tellingDiagnostics ps := by
  cases p with
  | checking | pausing | dismissing | tellingDiagnostics =>
    rw [show s = .checking from h] at ht
    cases ht
  | _ => exact ⟨rfl, nofun⟩

section Silent

variable {c : Course} {p : Point} {answers : List Answer} {handovers : List Turn.Handover}

/-- Where no question is open and no problem is told, only a clean end has something to show. -/
theorem of_silent (hadmits : Turn.Admits c.status p)
    (hp : p.request? = none ∧ ∀ ps, p ≠ .tellingDiagnostics ps)
    (hu : c.status.isTerminal = false → c.committed = false ∧ handovers = [])
    (hc : c.status = .clean → ∃ s, Accepted c answers handovers s) :
    Certificate c p answers handovers where
  admits := hadmits
  uncommitted := hu
  question request h := by
    rw [hp.1] at h
    cases h
  asked request failed h := by
    rw [h] at hp
    cases hp.1
  judged ps h := absurd h (hp.2 ps)
  clean := hc

/-- While the agent writes, nothing has to be shown. -/
theorem of_streaming (hs : c.status = .streaming) (hadmits : Turn.Admits c.status p)
    (hp : p.request? = none ∧ ∀ ps, p ≠ .tellingDiagnostics ps)
    (hu : c.committed = false ∧ handovers = []) : Certificate c p answers handovers :=
  of_silent hadmits hp (fun _ => hu) fun hc => absurd (hs.symm.trans hc) nofun

end Silent

section Replies

variable {t : Turn} {answers : List Answer} {handovers : List Turn.Handover}

/-- Nothing of an active turn is committed or handed over. -/
theorem fresh (h : Certificate t.course t.point answers handovers) (ha : t.Active) :
    t.committed = false ∧ handovers = [] := h.uncommitted ha.not_terminal

/-- What an active turn asks is what its overlay holds. -/
theorem eq_of_asks {request : Snapshot} (h : Certificate t.course t.point answers handovers)
    (hq : t.Asks request) : request = t.course.applier.overlay.snapshot := by
  rcases hq with ⟨-, hr⟩ | ⟨-, hp⟩
  · exact hr
  · exact h.question request hp

/-- The type checker is called. -/
theorem ask {request : Snapshot} (h : Certificate t.course t.point answers handovers)
    (hq : t.Asks request) (answers' : List Answer) (failed : Nat) :
    Certificate
      { t.course with
        status := .checking
        checkCalls := t.course.checkCalls + 1
        requests := t.course.requests ++ [request] }
      (.checking request failed) answers' handovers where
  admits := rfl
  uncommitted _ := h.fresh hq.active
  question _ hr := Option.some.inj hr ▸ h.eq_of_asks hq
  asked _ _ hp := by
    cases hp
    exact List.getLast?_concat
  judged := nofun
  clean := nofun

/-- Calling the type checker is put off or dismissed. -/
theorem delay {request : Snapshot} (h : Certificate t.course t.point answers handovers)
    (hq : t.Asks request) (answers' : List Answer) {p : Point}
    (hp : (∃ failed, p = .pausing request failed) ∨ ∃ failed f, p = .dismissing request failed f) :
    Certificate { t.course with status := .checking } p answers' handovers where
  admits := by rcases hp with ⟨_, rfl⟩ | ⟨_, _, rfl⟩ <;> rfl
  uncommitted _ := h.fresh hq.active
  question request' hr := by
    rcases hp with ⟨_, rfl⟩ | ⟨_, _, rfl⟩ <;> exact Option.some.inj hr ▸ h.eq_of_asks hq
  asked _ _ he := by rcases hp with ⟨_, rfl⟩ | ⟨_, _, rfl⟩ <;> cases he
  judged _ he := by rcases hp with ⟨_, rfl⟩ | ⟨_, _, rfl⟩ <;> cases he
  clean := nofun

/-- The type checker answers with problems, or with none. -/
theorem answer {c : Course} {request : Snapshot} {failed : Nat}
    (h : Certificate c (.checking request failed) answers handovers) (ps : List Problem) :
    Certificate
      ({ c with diagnostics := sortProblems ps }.emit (.diagnostics c.attempt (sortProblems ps)))
      (.tellingDiagnostics (sortProblems ps)) (answers ++ [(request, .problems ps)]) handovers := by
  have hs : c.status = .checking := h.admits
  -- the answer is to the last question, and that was about the overlay as it still is
  have hr := h.question request rfl
  have ha := h.asked request failed rfl
  exact {
    admits := hs
    uncommitted := fun hn => h.uncommitted hn
    question := nofun
    asked := nofun
    judged := fun qs he => by
      cases he
      refine ⟨rfl, fun hnil => ?_⟩
      -- sorting makes no list empty that is not
      have hps : ps = [] := (hnil ▸ sortProblems_perm ps).nil_eq.symm
      subst hps hr
      exact ⟨List.getLast?_concat, ha⟩
    clean := fun hc => absurd (hs.symm.trans hc) nofun }

/-- **A reply keeps the certificate.** -/
theorem next {ok : Failure → Prop} {ans : Option Answer} {c : Course} {p : Point}
    (hn : t.Next ok ans c p) (h : Certificate t.course t.point answers handovers) :
    Certificate c p (answers ++ ans.toList) handovers := by
  have hadmits := hn.admits h.admits
  have hplaced : t.Placed := h.admits
  cases hn with
  | same =>
    rw [Option.toList_none, List.append_nil]
    exact h
  | reads hs | leaves hs => exact of_streaming hs hadmits ⟨rfl, nofun⟩ (h.fresh (.inl hs))
  | hears hp | patches hp =>
    have hs : t.status = .streaming := hplaced.admits hp
    exact of_streaming hs hadmits ⟨rfl, nofun⟩ (h.fresh (.inl hs))
  | settles hs =>
    rw [Option.toList_none, List.append_nil]
    exact of_silent hadmits (silent_of_terminal hadmits hs) h.uncommitted h.clean
  | raises hs hs' =>
    refine of_silent hadmits ⟨rfl, nofun⟩ (fun _ => h.fresh hs) fun hc => ?_
    rcases hs' with hs' | hs'
    · rcases hs with hs | hs
      · exact absurd (hs.symm.trans (hs'.symm.trans hc)) nofun
      · exact absurd (hs.symm.trans (hs'.symm.trans hc)) nofun
    · exact absurd (hs'.symm.trans hc) nofun
  | ends _ hs' =>
    rcases hs' with rfl | rfl
    · exact of_silent hadmits ⟨rfl, nofun⟩ nofun nofun
    · exact of_silent hadmits ⟨rfl, nofun⟩ nofun nofun
  | calls hq failed => exact h.ask hq _ failed
  | delays hq hp => exact h.delay hq _ hp
  | diagnoses hp ps =>
    rw [hp] at h
    exact h.answer ps
  | repairs hp =>
    have hs : t.status = .checking := hplaced.admits hp
    exact of_streaming rfl hadmits ⟨rfl, nofun⟩ (h.fresh (.inr hs))
  | undigested hp =>
    have hs : t.status = .checking := hplaced.admits hp
    exact of_silent hadmits ⟨rfl, nofun⟩ (fun _ => h.fresh (.inr hs)) nofun
  | cleans hp hr =>
    have hs : t.status = .checking := hplaced.admits hp
    obtain ⟨hdiag, hempty⟩ := h.judged [] hp
    obtain ⟨hans, hasked⟩ := hempty rfl
    rw [Option.toList_none, List.append_nil]
    -- nothing was handed over yet, so there is nothing more to compare
    refine of_silent hadmits ⟨rfl, nofun⟩ nofun fun _ => ⟨_, hans, hasked, hdiag, fun _ => rfl, ?_⟩
    rw [(h.fresh (.inr hs)).2]
    exact nofun

end Replies

end Certificate

/-- A turn that is not cancelled ends clean, as it was checked, once the type checker finds no
    problem. -/
theorem Turn.clean_of_no_problems {t : Turn} {request : Snapshot} {failed : Nat}
    (hp : t.point = .checking request failed) (hs : t.status = .checking)
    (hc : t.cancelRequested = false) (base base' : BaseTree) :
    ((t.advance base (.checked [])).advance base' .told).status = .clean ∧
      ((t.advance base (.checked [])).advance base' .told).overlay = t.overlay := by
  rw [advance_checked_nil hp hs hc]
  exact ⟨rfl, rfl⟩

/-! ## Runs -/

/-- Whether a move changes the overlay past the agent and the type checker. -/
def Move.isOutside : Move → Bool
  | .replay .. => true
  | .discard => true
  | _ => false

namespace Run

/-- That the `Certificate` holds of the run `w`. -/
def Certified (w : Run) : Prop := Certificate w.turn.course w.turn.point w.answers w.handovers

section Moves

variable {w : Run}

theorem Certified.start (h : w.Certified) (prompt : String) :
    (w.step (.start prompt)).Certified := by
  rcases w.step_start prompt with ⟨u, hu, hidle, hc, hp⟩ | hu
  · have hs : w.turn.status = .streaming := Turn.Placed.admits h.admits hidle
    rw [hu, Certified, hc, hp]
    exact .of_silent hs ⟨rfl, nofun⟩ h.uncommitted h.clean
  · rw [hu]
    exact h

theorem Certified.cancel (h : w.Certified) : (w.step .cancel).Certified := by
  show Certificate w.turn.cancel.course w.turn.cancel.point w.answers w.handovers
  rw [w.turn.cancel_course, w.turn.cancel_point]
  exact h

/-- What is handed over from a clean turn is what was accepted. -/
theorem Certified.handOver (h : w.Certified) (force : Bool) :
    (w.step (.handOver force)).Certified := by
  rcases w.step_handOver force with ⟨o, hb, hw⟩ | hw
  · obtain ⟨hsnapshot, hcommitted, hterminal, -⟩ := Turn.beginCommit_ok hb
    rw [hw]
    refine .of_silent h.admits (Certificate.silent_of_terminal h.admits hterminal)
      (fun hn => absurd (hterminal.symm.trans hn) nofun) fun hc => ?_
    obtain ⟨s, hs⟩ := h.clean hc
    refine ⟨s, { hs with handedOver := fun o' ho => ?_ }⟩
    rcases List.mem_append.1 ho with ho | ho
    · exact hs.handedOver o' ho
    · rw [List.mem_singleton.1 ho, hsnapshot]
      exact hs.pending hcommitted
  · rw [hw]
    exact h

theorem Certified.committed (h : w.Certified) (index : Nat)
    (outcome : Except Failure CommitReport) : (w.step (.committed index outcome)).Certified := by
  rcases w.step_committed index outcome with ⟨u, hw, hne, hc, hp⟩ | hw
  · -- only a turn that has ended was handed over
    have hterminal : w.turn.status.isTerminal = true := by
      cases ht : w.turn.status.isTerminal with
      | true => rfl
      | false => exact absurd (h.uncommitted ht).2 hne
    rw [hw, Certified, hc, hp]
    refine .of_silent h.admits (Certificate.silent_of_terminal h.admits hterminal)
      (fun hn => absurd (hterminal.symm.trans hn) nofun) fun hclean => ?_
    obtain ⟨s, hs⟩ := h.clean hclean
    exact ⟨s, hs.answered, hs.asked, hs.diagnostics, nofun, hs.handedOver⟩
  · rw [hw]
    exact h

/-- **A move that does not come from outside keeps the certificate.** -/
theorem Certified.step (h : w.Certified) {m : Move} (hm : m.isOutside = false) :
    (w.step m).Certified := by
  cases m with
  | start prompt => exact h.start prompt
  | reply base r => exact Certificate.next (Turn.advance_next h.admits base r) h
  | cancel => exact h.cancel
  | replay => cases hm
  | discard => cases hm
  | handOver force => exact h.handOver force
  | committed index outcome => exact h.committed index outcome

/-- Only the end of a commit commits. -/
theorem Certified.step_committed (h : w.Certified) {m : Move} (hm : m.isOutside = false)
    (hne : ∀ index outcome, m ≠ .committed index outcome) :
    (w.step m).turn.committed = w.turn.committed := by
  cases m with
  | start prompt =>
    rcases w.step_start prompt with ⟨u, hu, -, hc, -⟩ | hu
    · rw [hu]
      exact congrArg Course.committed hc
    · rw [hu]
  | reply base r => exact (Turn.advance_next h.admits base r).committed
  | cancel => exact congrArg Course.committed w.turn.cancel_course
  | replay => cases hm
  | discard => cases hm
  | handOver force => rcases w.step_handOver force with ⟨o, -, hw⟩ | hw <;> rw [hw]
  | committed index outcome => exact absurd rfl (hne index outcome)

theorem Waits.certified (h : w.Waits) : w.Certified := by
  rw [Certified, h.idle]
  refine .of_silent h.status ⟨rfl, nofun⟩ (fun _ => ⟨h.uncommitted, h.kept⟩) fun hc => ?_
  exact absurd (h.status.symm.trans hc) nofun

end Moves

/-- **A clean turn is certified.** Whatever was done to a turn `before` it is started, and however
    then the agent writes, the type checker answers, checks are tried again and cancellations come
    in, once the status is `.clean` the last of `answers` was that the type checker found no
    problem, no problem is on record, and the overlay holds just what the type checker was asked
    about, unless it was committed since. Without force `Turn.beginCommit` hands over only a clean
    turn, and what is handed over is what the type checker accepted. -/
theorem clean_is_certified {config : TurnConfig} {maxAttempts : Int} {t : Turn}
    (ht : Turn.new? config maxAttempts = some t) {before moves : List Move}
    (hbefore : ∀ prompt, .start prompt ∉ before) (hmoves : ∀ m ∈ moves, m.isOutside = false) :
    let w := ((new t).after before).after moves
    (w.turn.status = .clean →
      ∃ s, w.answers.getLast? = some (s, .problems []) ∧ w.turn.requests.getLast? = some s ∧
        w.turn.record.diagnostics = [] ∧
        (w.turn.committed = false → w.turn.overlay.snapshot = s)) ∧
    ((∀ index outcome, .committed index outcome ∉ moves) → w.turn.committed = false) ∧
    ∀ h, w.turn.beginCommit false = .ok h →
      w.turn.status = .clean ∧ w.answers.getLast? = some (h.snapshot, .problems []) ∧
        w.turn.requests.getLast? = some h.snapshot := by
  intro w
  have hu : ((new t).after before).Waits := (new_waits ht).after hbefore
  have hw : w.Certified := after_invariant (fun _ m hm h => h.step (hmoves m hm)) hu.certified
  refine ⟨fun hc => ?_, fun hne => ?_, fun h hb => ?_⟩
  · obtain ⟨s, hs⟩ := hw.clean hc
    exact ⟨s, hs.answered, hs.asked, hs.diagnostics, hs.pending⟩
  · have hboth : w.Certified ∧ w.turn.committed = false :=
      after_invariant (P := fun w => w.Certified ∧ w.turn.committed = false)
        (fun _ m hm h => ⟨h.1.step (hmoves m hm),
          (h.1.step_committed (hmoves m hm) fun i o he => hne i o (he ▸ hm)).trans h.2⟩)
        ⟨hu.certified, hu.uncommitted⟩
    exact hboth.2
  · obtain ⟨hsnapshot, hcommitted, -, hclean⟩ := Turn.beginCommit_ok hb
    obtain ⟨s, hs⟩ := hw.clean (hclean rfl)
    have hpending : h.snapshot = s := hsnapshot.trans (hs.pending hcommitted)
    rw [hpending]
    exact ⟨hclean rfl, hs.answered, hs.asked⟩

/-- The turn of an agent that deletes a path ends clean once the type checker finds nothing. -/
theorem deleting_agent_is_certified :
    let policy : RetryPolicy := ⟨1, .real (.finite false 120 0), .whole 0⟩
    let config : TurnConfig := ⟨"session", "turn", "pl", none, policy, 50⟩
    let text := String.ofList (Parser.deleteTag ['a'])
    let before : List Move := [.replay default []]
    let moves : List Move := [.start "go", .reply default .opened, .reply default (.chunk text),
      .reply default .told, .reply default .told, .reply default .ended, .reply default .closed,
      .reply default (.checked []), .reply default .told]
    ∃ t, Turn.new? config 2 = some t ∧ (∀ prompt, .start prompt ∉ before) ∧
      (∀ m ∈ moves, m.isOutside = false) ∧
      (((new t).after before).after moves).turn.status = .clean ∧
      ∃ s, (((new t).after before).after moves).answers.getLast? = some (s, .problems []) ∧
        (((new t).after before).after moves).turn.overlay.snapshot = s ∧ s.deletes = ["a"] := by
  intro policy config text before moves
  obtain ⟨t, hnew⟩ : ∃ t, Turn.new? config 2 = some t := ⟨_, rfl⟩
  have hbefore : ∀ prompt, .start prompt ∉ before := by simp [before]
  have hmoves : ∀ m ∈ moves, m.isOutside = false := by simp [moves, Move.isOutside]
  have hfed : (Parser.ofMark "pl").feed text.toList = _ := Parser.feed_deleteText
  clear_value text
  -- the run up to the question
  let u := (((new t).after before).after (moves.take 7)).turn
  have hread : u.point = .checking u.overlay.snapshot 0 ∧ u.status = .checking ∧
      u.cancelRequested = false ∧ u.overlay.snapshot.deletes = ["a"] := by
    cases hnew
    have htaken : u = ((((Turn.takeText default _ (Parser.ofMark "pl") text).advance default
      .told).advance default .ended).advance default .closed) := rfl
    rw [htaken, Turn.takeText_of_read hfed]
    refine ⟨?_, ?_, ?_, ?_⟩
    all_goals rfl
  obtain ⟨hp, hs, hc, hdeletes⟩ := hread
  obtain ⟨hclean, hoverlay⟩ := Turn.clean_of_no_problems hp hs hc default default
  obtain ⟨hchecked, hcommitted, -⟩ := clean_is_certified hnew hbefore hmoves
  obtain ⟨s, hanswered, -, -, hpending⟩ := hchecked hclean
  have hsame : (((new t).after before).after moves).turn.overlay.snapshot = s :=
    hpending (hcommitted (by simp [moves]))
  refine ⟨t, hnew, hbefore, hmoves, hclean, s, hanswered, hsame, ?_⟩
  rw [← hsame, show ((new t).after before |>.after moves).turn.overlay = u.overlay from hoverlay]
  exact hdeletes

end Run

end StagedEdits
