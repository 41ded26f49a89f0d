import StagedEdits.Proofs.TurnRun

set_option autoImplicit false

/-! # Requests for a cancellation

What becomes of a cancellation that is requested while a turn is running. The turn looks at the
request before it waits for the agent, when the agent has ended and when a check has found its
answer. It overlooks the request where it leaves on another way: when the agent breaks off, when a
check is given up, when the problems of the last check were told or there is no digest of those that
were told, and when a failure goes through that nothing catches. A turn that was asked to be cancelled ends as cancelled, with nothing pending
and the end told, exactly if it overlooks the request nowhere.

Main definitions: `Turn.Requested`, `Turn.CalledOff`, `Turn.Overlooks`. Main statements:
`Turn.Requested.takes` (one reply), `Run.called_off_iff_not_overlooked`. -/

namespace StagedEdits

namespace Turn

/-- That `t` is running and was asked to be cancelled. -/
structure Requested (t : Turn) : Prop where
  placed : t.Placed
  requested : t.cancelRequested = true
  active : t.Active
  running : t.isOver = false

/-- That `t` has ended as cancelled: nothing is pending, and the end was told. -/
structure CalledOff (t : Turn) : Prop where
  status : t.status = .cancelled
  pending : t.overlay = Overlay.empty
  told : ∃ r, t.events.getLast?.map (·.payload) = some (.done r) ∧ r.status = .cancelled ∧
    t.result = some r

/-- That `t` has ended as clean or failed, or that running it has ended before the turn. -/
def Missed (t : Turn) : Prop :=
  t.status.isTerminal = true ∧ t.status ≠ .cancelled ∨
    t.status.isTerminal = false ∧ t.isOver = true

/-- Whether a check is not tried again when one more try fails after `failed` ones. -/
def triesNoMore (t : Turn) (failed : Nat) : Prop :=
  t.config.policy.allows (failed + 1) = false ∨
    t.config.policy.delay.isZero = false ∧ t.config.policy.cannotPause = true

/-- That there is no digest of `ps`. -/
def LacksDigest (t : Turn) (ps : List Problem) : Prop :=
  ∃ f, repairDigest t.config.digestLimit ps = .error f

/-- That `t`, at the reply `r`, does not look at a request for its cancellation and ends. -/
def Overlooks (t : Turn) (r : Reply) : Prop :=
  t.status.isTerminal = false ∧
    match t.point, r with
    -- the agent breaks off
    | .reading _, .failed f => f ≠ .cancelled
    -- the last try of a check fails
    | .checking _ failed, .failed f => f ≠ .cancelled ∧ t.triesNoMore failed
    | .dismissing _ failed f, .rested => f ≠ .cancelled ∧ t.triesNoMore failed
    | .dismissing _ failed _, .failed f => f ≠ .cancelled ∧ t.triesNoMore failed
    -- the problems of the last check were told, or there is no digest of those that were told
    | .tellingDiagnostics ps, .told =>
      ps = [] ∨ t.budget.canRepair = false ∨ t.LacksDigest ps
    -- a failure goes through
    | .opening, .failed f => f ≠ .cancelled
    | .closing (.raising f), .closed => f ≠ .cancelled
    | .closing _, .failed f => f ≠ .cancelled
    | .pausing _ _, .failed f => f ≠ .cancelled
    | .tellingDiagnostics _, .failed f => f ≠ .cancelled
    | _, _ => False

/-- What the reply `r` makes of `t`, a turn that was asked to be cancelled: `u` is still asked to
    be, or has been called off, unless `t` overlooks the request. -/
def Follows (t : Turn) (r : Reply) (u : Turn) : Prop :=
  ¬t.Overlooks r ∧ (u.Requested ∨ u.CalledOff) ∨ t.Overlooks r ∧ u.Missed

/-! ## The end -/

section Ending

variable {t u : Turn}

theorem CalledOff.not_missed (h : t.CalledOff) : ¬t.Missed := by
  rintro (⟨-, hs⟩ | ⟨hs, -⟩)
  · exact hs h.status
  · rw [h.status] at hs
    cases hs

theorem finishCancelled_calledOff (h : t.Active) (frame : Frame) :
    (t.finishCancelled frame).CalledOff := by
  rw [h.finishCancelled_eq]
  refine ⟨rfl, rfl, _, ?_, rfl, rfl⟩
  simp [finish, emit, waitAt]

theorem fail_missed (h : t.Active) (reason : FailureReason) (frame : Frame) :
    (t.fail reason frame).Missed := by
  rw [h.fail_eq]
  exact .inl ⟨rfl, by simp [finish, emit, waitAt, status, sayLine, say]⟩

/-- A failure that nothing has caught calls an active turn off if it is a cancellation. -/
theorem abort_calledOff (h : t.Active) : (t.abort .cancelled).CalledOff := by
  rw [abort_cancelled h]
  exact finishCancelled_calledOff h .handler

theorem abort_missed (h : t.Active) {f : Failure} (hf : f ≠ .cancelled) : (t.abort f).Missed := by
  rw [abort_of_ne hf]
  exact .inr ⟨h.not_terminal, rfl⟩

end Ending

/-! ## One reply -/

section Reply

variable {t : Turn} {base : BaseTree} {r : Reply}

/-- An active turn goes on with the request where it waits at a point of its status. -/
theorem requested_of (h : t.Active) (hc : t.cancelRequested = true) (hp : Admits t.status t.point)
    (ho : t.isOver = false) : t.Requested := ⟨hp, hc, h, ho⟩

theorem readOn_calledOff (h : t.Active) (hc : t.cancelRequested = true) (p : Parser) :
    (t.readOn p).CalledOff := by
  rw [readOn, if_pos hc]
  exact finishCancelled_calledOff h .stream

theorem endStream_calledOff (h : t.Active) (hc : t.cancelRequested = true) (p : Parser) :
    (t.endStream p).CalledOff := by
  have h' : (t.closeParser p).Active := h
  have hc' : (t.closeParser p).cancelRequested = true := hc
  unfold endStream
  dsimp only
  rw [if_pos hc']
  exact finishCancelled_calledOff h' .loop

theorem takeProblems_calledOff (h : t.Active) (hc : t.cancelRequested = true) (ps : List Problem) :
    (t.takeProblems ps).CalledOff := by
  unfold takeProblems
  dsimp only
  rw [if_pos hc]
  exact finishCancelled_calledOff h .loop

theorem applyParsed_requested (hs : t.status = .streaming) (hc : t.cancelRequested = true)
    (p : Parser) (ds : List Parsed) :
    (t.applyParsed base p ds).Requested ∨ (t.applyParsed base p ds).CalledOff := by
  unfold applyParsed
  obtain ⟨a, b⟩ := t.applier.applyBatch base t.config.session (ds.map .parsed)
  dsimp only
  cases b.stopped with
  | some f => exact .inl (requested_of (.inl hs) hc (.inl hs) rfl)
  | none =>
    dsimp only
    split
    · exact .inl (requested_of (.inl hs) hc hs rfl)
    · refine .inr (readOn_calledOff ?_ ?_ p)
      · exact .inl hs
      · exact hc

theorem takeText_requested (hs : t.status = .streaming) (hc : t.cancelRequested = true)
    (p : Parser) (text : String) :
    (t.takeText base p text).Requested ∨ (t.takeText base p text).CalledOff := by
  unfold takeText
  dsimp only
  split
  · exact .inl (requested_of (.inl hs) hc (.inl hs) rfl)
  · split
    · refine .inr (readOn_calledOff ?_ ?_ _)
      · exact .inl hs
      · exact hc
    · refine applyParsed_requested ?_ ?_ _ _
      · exact hs
      · exact hc

theorem callCheck_requested (hs : t.status = .checking) (hc : t.cancelRequested = true)
    (request : Snapshot) (failed : Nat) : (t.callCheck request failed).Requested := by
  unfold callCheck
  split
  · exact requested_of (.inr hs) hc hs rfl
  · exact requested_of (.inr hs) hc hs rfl

/-- After a failed try the type checker is asked again, now or later. -/
theorem tryCheck_requested (hs : t.status = .checking) (hc : t.cancelRequested = true)
    {failed : Nat} (hn : ¬t.triesNoMore failed) (request : Snapshot) (reason : String) :
    (t.tryCheck request (failed + 1) reason).Requested := by
  obtain ⟨hallows, hpause⟩ := not_or.1 hn
  have hallows' : t.config.policy.allows (failed + 1) = true := by simpa using hallows
  unfold tryCheck
  dsimp only
  rw [if_pos hallows']
  split
  · exact callCheck_requested (by exact hs) (by exact hc) request (failed + 1)
  · rename_i hzero
    have hzero' : t.config.policy.delay.isZero = false := by simpa using hzero
    split
    · rename_i hcannot
      exact absurd ⟨hzero', hcannot⟩ hpause
    · exact requested_of (.inr hs) hc hs rfl

theorem tryCheck_missed (hs : t.status = .checking) {failed : Nat} (hn : t.triesNoMore failed)
    (request : Snapshot) (reason : String) :
    (t.tryCheck request (failed + 1) reason).Missed := by
  unfold tryCheck
  dsimp only
  by_cases hallows : t.config.policy.allows (failed + 1) = true
  · obtain hno | ⟨hzero, hcannot⟩ := hn
    · exact absurd (hallows.symm.trans hno) nofun
    have hlater : ¬(((failed + 1 == 0) || t.config.policy.delay.isZero) = true) := by
      rw [hzero]
      simp
    rw [if_pos hallows, if_neg hlater]
    refine (if_pos hcannot).symm ▸ abort_missed (f := .clockOverflow) ?_ nofun
    exact .inr hs
  · rw [if_neg hallows]
    refine fail_missed ?_ .checkerUnavailable .loop
    exact .inr hs

/-- A try of a check fails. -/
theorem takeFailure_follows (h : t.Requested) (hs : t.status = .checking) {failed : Nat}
    {f : Failure} (ho : t.Overlooks r ↔ f ≠ .cancelled ∧ t.triesNoMore failed)
    (request : Snapshot) : t.Follows r (t.takeReply request failed (.failed f)) := by
  unfold takeReply
  by_cases hf : f = .cancelled
  · subst hf
    refine .inl ⟨fun hr => (ho.1 hr).1 rfl, .inr ?_⟩
    exact abort_calledOff h.active
  · have hafter : t.config.policy.after (.failed f) = .failed (t.config.policy.reason f) := by
      cases f <;> first | rfl | exact absurd rfl hf
    rw [hafter]
    dsimp only
    by_cases hn : t.triesNoMore failed
    · refine .inr ⟨ho.2 ⟨hf, hn⟩, tryCheck_missed ?_ ?_ request _⟩
      · exact hs
      · exact hn
    · refine .inl ⟨fun hr => hn (ho.1 hr).2, .inl (tryCheck_requested ?_ ?_ ?_ request _)⟩
      · exact hs
      · exact h.requested
      · exact hn

/-- A failure comes in that nothing catches. -/
theorem abort_follows (h : t.Requested) {f : Failure} (ho : t.Overlooks r ↔ f ≠ .cancelled) :
    t.Follows r (t.abort f) := by
  by_cases hf : f = .cancelled
  · subst hf
    exact .inl ⟨fun hr => ho.1 hr rfl, .inr (abort_calledOff h.active)⟩
  · exact .inr ⟨ho.2 hf, abort_missed h.active hf⟩

theorem judged_follows (h : t.Requested) (hs : t.status = .checking) {ps : List Problem}
    (ho : t.Overlooks r ↔ ps = [] ∨ t.budget.canRepair = false ∨ t.LacksDigest ps) :
    t.Follows r (t.judged ps) := by
  unfold judged
  split
  · rename_i hempty
    refine .inr ⟨ho.2 (.inl (List.isEmpty_iff.1 hempty)), ?_⟩
    rw [moveTo_of_status hs rfl]
    exact .inl ⟨rfl, by simp [finish, emit, waitAt, status, sayLine, say]⟩
  · rename_i hsome
    split
    · rename_i hrepair
      rw [repair_eq hs]
      cases hdigest : repairDigest t.config.digestLimit ps with
      | ok digest =>
        refine .inl ⟨fun hr => ?_, .inl (requested_of (.inl rfl) h.requested rfl rfl)⟩
        rcases ho.1 hr with hnil | hno | ⟨f, hf⟩
        · exact hsome (List.isEmpty_iff.2 hnil)
        · cases hrepair.symm.trans hno
        · cases hdigest.symm.trans hf
      | error f => exact .inr ⟨ho.2 (.inr (.inr ⟨f, hdigest⟩)), .inr ⟨rfl, rfl⟩⟩
    · rename_i hrepair
      refine .inr ⟨ho.2 (.inr (.inl (by simpa using hrepair))), fail_missed ?_ .budgetExhausted .loop⟩
      exact .inr hs

/-- What is overlooked depends on the point only through its kind. -/
theorem overlooks_at {q : Point} (hp : t.point = q) :
    t.Overlooks r ↔ ({ t with point := q } : Turn).Overlooks r := by
  subst hp
  rfl

/-- A reply that is not awaited overlooks nothing. -/
theorem not_overlooks_of_not_awaited (h : t.point.awaits r = false) : ¬t.Overlooks r := by
  unfold Overlooks
  rintro ⟨-, ho⟩
  split at ho <;> try exact ho
  all_goals
    rw [‹t.point = _›] at h
    cases h

/-- The turn goes on with the request where it takes a text. -/
theorem Requested.streams {u : Turn} (h : t.Requested) (hs : t.status = .streaming)
    (ho : ¬t.Overlooks r) (hu : u.status = t.status) (hc : u.cancelRequested = t.cancelRequested)
    (hp : Admits .streaming u.point) (hover : u.isOver = false) : t.Follows r u := by
  have hus : u.status = .streaming := hu.trans hs
  exact .inl ⟨ho, .inl (requested_of (.inl hus) (hc.trans h.requested) (hus ▸ hp) hover)⟩

/-- A turn that has told that a check found nothing ends clean, whatever was requested. -/
theorem clean_of_told (hp : t.point = .tellingDiagnostics []) (hs : t.status = .checking)
    (base base' : BaseTree) :
    let u := (t.advance base .told).advance base' .told
    u.status = .clean ∧ ∃ r, u.point = .over (.returned (some r)) ∧ r.status = .clean := by
  intro u
  have hu : u = ((({ t with record := { t.record with status := .clean } } : Turn).finish
      .loop).advance base' .told) := by
    rw [← advance_problems_nil hp hs base]
  rw [hu]
  exact ⟨rfl, _, rfl, rfl⟩

/-- **What a reply makes of a turn that was asked to be cancelled.** Behind a reply `r` that it
    takes, it goes on with the request or is called off, `Follows`, unless it overlooks the request
    and ends in another way. -/
theorem Requested.takes {u : Turn} (h : t.Requested) (hu : t.Takes base r u) : t.Follows r u := by
  have ht := h.active.not_terminal
  cases hu with
  | unawaited hr => exact .inl ⟨not_overlooks_of_not_awaited hr, .inl h⟩
  | opened hp | patchTold hp =>
    refine .inl ⟨fun ho => ((overlooks_at hp).1 ho).2, .inr ?_⟩
    exact readOn_calledOff h.active h.requested _
  | heard hp | ended hp =>
    have hs : t.status = .streaming := h.placed.admits hp
    exact h.streams hs (fun ho => ((overlooks_at hp).1 ho).2) rfl rfl rfl rfl
  | interrupted hp =>
    have hs : t.status = .streaming := h.placed.admits hp
    exact h.streams hs (fun ho => ((overlooks_at hp).1 ho).2 rfl) rfl rfl (.inl rfl) rfl
  | textUntold hp | patchUntold hp =>
    have hs : t.status = .streaming := h.placed.admits hp
    exact h.streams hs (fun ho => ((overlooks_at hp).1 ho).2) rfl rfl (.inl rfl) rfl
  | broken hp hf =>
    refine .inr ⟨(overlooks_at hp).2 ⟨ht, hf⟩, fail_missed ?_ .generationFailed .stream⟩
    exact h.active
  | textTold hp =>
    have hs : t.status = .streaming := h.placed.admits hp
    refine .inl ⟨fun ho => ((overlooks_at hp).1 ho).2, ?_⟩
    exact takeText_requested hs h.requested _ _
  | closed hp =>
    refine .inl ⟨fun ho => ((overlooks_at hp).1 ho).2, .inr ?_⟩
    exact endStream_calledOff h.active h.requested _
  | checked hp ps =>
    refine .inl ⟨fun ho => ((overlooks_at hp).1 ho).2, .inr ?_⟩
    exact takeProblems_calledOff h.active h.requested ps
  | unchecked hp | dismissed hp | undismissed hp =>
    have hs : t.status = .checking := h.placed.admits hp
    refine takeFailure_follows h hs ?_ _
    rw [overlooks_at hp]
    exact and_iff_right ht
  | rested hp =>
    have hs : t.status = .checking := h.placed.admits hp
    refine .inl ⟨fun ho => ((overlooks_at hp).1 ho).2, .inl ?_⟩
    exact callCheck_requested hs h.requested _ _
  | problemsTold hp =>
    have hs : t.status = .checking := h.placed.admits hp
    exact judged_follows h hs ((overlooks_at hp).trans (and_iff_right ht))
  -- a failure goes through
  | unopened hp | raised hp | unrested hp | problemsUntold hp =>
    exact abort_follows h ((overlooks_at hp).trans (and_iff_right ht))
  | @unclosed why hp f =>
    cases why <;> exact abort_follows h ((overlooks_at hp).trans (and_iff_right ht))
  -- the turn would have ended
  | settled hp | endTold hp | endUntold hp =>
    have hs : t.status.isTerminal = true := h.placed.admits hp
    exact absurd (ht.symm.trans hs) nofun

end Reply

/-! ## After the end -/

/-- After the end a reply changes nothing that counts. -/
theorem Next.course_of_terminal {t : Turn} {ok : Failure → Prop} {ans : Option Answer} {c : Course}
    {p : Point} (hn : t.Next ok ans c p) (h : t.Placed) (ht : t.status.isTerminal = true) :
    c = t.course := by
  have hactive : ¬t.Active := fun ha => absurd (ha.not_terminal.symm.trans ht) nofun
  have hat : ∀ {q : Point} {s : TurnStatus}, (Admits t.status q → t.status = s) →
      t.point = q → s.isTerminal = false → False := by
    intro q s hs hq hf
    rw [hs (h.admits hq)] at ht
    exact absurd (hf.symm.trans ht) nofun
  cases hn with
  | same => rfl
  | settles => rfl
  | reads hs => exact absurd (.inl hs) hactive
  | leaves hs => exact absurd (.inl hs) hactive
  | raises hs => exact absurd hs hactive
  | ends hs => exact absurd hs hactive
  | calls hq => exact absurd hq.active hactive
  | delays hq => exact absurd hq.active hactive
  | hears hp => exact (hat id hp rfl).elim
  | patches hp => exact (hat id hp rfl).elim
  | diagnoses hp => exact (hat id hp rfl).elim
  | repairs hp => exact (hat id hp rfl).elim
  | undigested hp => exact (hat id hp rfl).elim
  | cleans hp => exact (hat id hp rfl).elim

end Turn

/-! ## Runs -/

namespace Run

section Moves

variable {w : Run} {m : Move}

/-- A move of the owner starts a turn or leaves it where it stands. -/
theorem step_of_owner (hm : ∀ base r, m ≠ .reply base r) :
    (w.step m).turn.status = w.turn.status ∧
      ((w.step m).turn.point = w.turn.point ∨
        w.turn.point = .idle ∧ (w.step m).turn.point = .opening) := by
  cases m with
  | start prompt =>
    rcases w.step_start prompt with ⟨u, hu, hidle, hc, hp⟩ | hu
    · rw [hu]
      exact ⟨congrArg Course.status hc, .inr ⟨hidle, hp⟩⟩
    · rw [hu]
      exact ⟨rfl, .inl rfl⟩
  | reply base r => exact absurd rfl (hm base r)
  | cancel => exact ⟨congrArg Course.status w.turn.cancel_course, .inl w.turn.cancel_point⟩
  | replay base log =>
    obtain ⟨a, ds, hc, hp⟩ := w.turn.replay_course base log
    exact ⟨congrArg Course.status hc, .inl hp⟩
  | discard => exact ⟨rfl, .inl rfl⟩
  | handOver force =>
    rcases w.step_handOver force with ⟨o, -, hw⟩ | hw <;> rw [hw] <;> exact ⟨rfl, .inl rfl⟩
  | committed index outcome =>
    rcases w.step_committed index outcome with ⟨u, hw, -, hc, hp⟩ | hw
    · rw [hw]
      exact ⟨congrArg Course.status hc, .inl hp⟩
    · rw [hw]
      exact ⟨rfl, .inl rfl⟩

/-- No move of the owner takes a request for a cancellation back. -/
theorem step_cancelRequested (hm : ∀ base r, m ≠ .reply base r)
    (h : w.turn.cancelRequested = true) : (w.step m).turn.cancelRequested = true := by
  cases m with
  | start prompt =>
    simp only [step, Turn.start]
    cases w.turn.point <;> exact h
  | reply base r => exact absurd rfl (hm base r)
  | cancel =>
    simp only [step, Turn.cancel]
    split
    · exact h
    · rfl
  | replay base log =>
    simp only [step, Turn.replay]
    split
    · exact h
    · split <;> exact h
  | discard => exact h
  | handOver force =>
    rcases w.step_handOver force with ⟨o, -, hw⟩ | hw <;> rw [hw] <;> exact h
  | committed index outcome =>
    simp only [step]
    split
    · cases outcome <;> exact h
    · exact h

theorem placed_step (h : w.turn.Placed) (m : Move) : (w.step m).turn.Placed := by
  by_cases hm : ∃ base r, m = .reply base r
  · obtain ⟨base, r, rfl⟩ := hm
    exact (Turn.advance_next h base r).admits h
  · obtain ⟨hs, hp | ⟨hidle, hp⟩⟩ := step_of_owner (w := w) (m := m)
      fun base r he => hm ⟨base, r, he⟩
    · rw [Turn.Placed, hs, hp]
      exact h
    · have hstreaming : w.turn.status = .streaming := h.admits hidle
      rw [Turn.Placed, hs, hp]
      exact hstreaming

theorem Waits.placed (h : w.Waits) : w.turn.Placed := by
  have hs : w.turn.status = .streaming := h.status
  rw [Turn.Placed, h.idle]
  exact hs

theorem requested_step (h : w.turn.Requested) (hm : ∀ base r, m ≠ .reply base r) :
    (w.step m).turn.Requested := by
  obtain ⟨hs, hp⟩ := step_of_owner (w := w) hm
  refine ⟨placed_step h.placed m, step_cancelRequested hm h.requested, ?_, ?_⟩
  · exact h.active.imp hs.trans hs.trans
  · have hrunning := h.running
    unfold Turn.isOver at hrunning ⊢
    rcases hp with hp | ⟨-, hp⟩ <;> rw [hp]
    exact hrunning

theorem calledOff_step (hplaced : w.turn.Placed) (h : w.turn.CalledOff) (m : Move) :
    (w.step m).turn.CalledOff := by
  have hterminal : w.turn.status.isTerminal = true := by rw [h.status]; rfl
  obtain ⟨r, htold, hr, hresult⟩ := h.told
  have hsame : ∀ u : Turn, u.course = w.turn.course → u.CalledOff := fun u hu =>
    ⟨(congrArg Course.status hu).trans h.status,
      (congrArg (fun c => c.applier.overlay) hu).trans h.pending, r,
      (congrArg (fun c => c.events.getLast?.map (·.payload)) hu).trans htold, hr,
      (congrArg Course.result hu).trans hresult⟩
  cases m with
  | start prompt =>
    rcases w.step_start prompt with ⟨u, hu, -, hc, -⟩ | hu
    · rw [hu]
      exact hsame u hc
    · rw [hu]
      exact h
  | reply base r' =>
    exact hsame _ ((Turn.advance_next hplaced base r').course_of_terminal hplaced hterminal)
  | cancel => exact hsame _ w.turn.cancel_course
  | replay base log =>
    have hstay : (w.turn.replay base log).1 = w.turn := by
      unfold Turn.replay
      rw [if_pos hterminal]
    show (w.turn.replay base log).1.CalledOff
    rw [hstay]
    exact h
  | discard => exact ⟨h.status, rfl, r, htold, hr, hresult⟩
  | handOver force =>
    rcases w.step_handOver force with ⟨o, -, hw⟩ | hw <;> rw [hw] <;> exact h
  | committed index outcome =>
    rcases w.step_committed index outcome with ⟨u, hw, -, hc, -⟩ | hw
    · rw [hw]
      exact ⟨(congrArg Course.status hc).trans h.status,
        congrArg (fun c => c.applier.overlay) hc, r,
        (congrArg (fun c => c.events.getLast?.map (·.payload)) hc).trans htold, hr,
        (congrArg Course.result hc).trans hresult⟩
    · rw [hw]
      exact h

theorem missed_step (hplaced : w.turn.Placed) (h : w.turn.Missed) (m : Move) :
    (w.step m).turn.Missed := by
  by_cases hm : ∃ base r, m = .reply base r
  · obtain ⟨base, r, rfl⟩ := hm
    rcases h with ⟨hterminal, hs⟩ | ⟨hs, hover⟩
    · have hc := (Turn.advance_next hplaced base r).course_of_terminal hplaced hterminal
      have hstatus : (w.turn.advance base r).status = w.turn.status := congrArg Course.status hc
      exact .inl ⟨hstatus ▸ hterminal, hstatus ▸ hs⟩
    · -- running has ended, and no reply is waited for
      have hidle : w.turn.point.awaits r = false := by
        unfold Turn.isOver at hover
        split at hover
        · rw [‹w.turn.point = _›]
          rfl
        · cases hover
      show (w.turn.advance base r).Missed
      rw [Turn.advance_of_not_awaited hidle]
      exact .inr ⟨hs, hover⟩
  · obtain ⟨hstatus, hp⟩ := step_of_owner (w := w) (m := m) fun base r he => hm ⟨base, r, he⟩
    rcases h with ⟨hterminal, hs⟩ | ⟨hs, hover⟩
    · exact .inl ⟨hstatus ▸ hterminal, hstatus ▸ hs⟩
    · refine .inr ⟨hstatus ▸ hs, ?_⟩
      unfold Turn.isOver at hover ⊢
      rcases hp with hp | ⟨hidle, -⟩
      · rw [hp]
        exact hover
      · rw [hidle] at hover
        cases hover

end Moves

/-- That the turn of `w` `Overlooks` a request for its cancellation at a move. -/
def OverlooksAt (w : Run) : Move → Prop
  | .reply _ r => w.turn.Overlooks r
  | _ => False

/-- That the turn of a run from `w` on overlooks a request for its cancellation at one of some
    moves. -/
def Overlooked (w : Run) : List Move → Prop
  | [] => False
  | m :: moves => w.OverlooksAt m ∨ (w.step m).Overlooked moves

theorem cancel_requested {w : Run} (hplaced : w.turn.Placed)
    (hactive : w.turn.status.isTerminal = false) (hrunning : w.turn.isOver = false) :
    (w.step .cancel).turn.Requested := by
  have hs : w.turn.Active := by
    unfold Turn.isOver at hrunning
    cases hp : w.turn.point with
    | «over» e =>
      rw [hp] at hrunning
      cases hrunning
    | checking | pausing | dismissing | tellingDiagnostics => exact .inr (hplaced.admits hp)
    | idle | opening | reading | tellingChunk | tellingPatch => exact .inl (hplaced.admits hp)
    | tellingDone =>
      have hterminal : w.turn.status.isTerminal = true := hplaced.admits hp
      exact absurd (hactive.symm.trans hterminal) nofun
    | closing => exact (hplaced.of_closing hp).resolve_right (by rw [hactive]; nofun)
  have hcancel : (w.step .cancel).turn.cancelRequested = true := by
    simp only [step, Turn.cancel]
    rw [if_neg (by rw [hactive]; nofun)]
    rfl
  refine ⟨placed_step hplaced .cancel, hcancel, ?_, ?_⟩
  · have hc : w.turn.cancel.status = w.turn.status := congrArg Course.status w.turn.cancel_course
    exact hs.imp hc.trans hc.trans
  · show w.turn.cancel.isOver = false
    unfold Turn.isOver at hrunning ⊢
    rw [w.turn.cancel_point]
    exact hrunning

theorem not_overlooked_of_terminal {w : Run} (hplaced : w.turn.Placed)
    (h : w.turn.CalledOff) (moves : List Move) :
    ¬w.Overlooked moves ∧ (w.after moves).turn.CalledOff := by
  induction moves generalizing w with
  | nil => exact ⟨id, h⟩
  | cons m moves ih =>
    obtain ⟨hlater, hlast⟩ := ih (placed_step hplaced m) (calledOff_step hplaced h m)
    refine ⟨?_, hlast⟩
    rintro (hnow | hthen)
    · cases m with
      | reply base r =>
        have hactive := hnow.1
        rw [h.status] at hactive
        cases hactive
      | _ => exact hnow
    · exact hlater hthen

theorem missed_after {w : Run} (hplaced : w.turn.Placed) (h : w.turn.Missed) (moves : List Move) :
    (w.after moves).turn.Missed := by
  induction moves generalizing w with
  | nil => exact h
  | cons m moves ih => exact ih (placed_step hplaced m) (missed_step hplaced h m)

/-- What some moves make of a turn that was asked to be cancelled. -/
theorem requested_after {w : Run} (h : w.turn.Requested) (moves : List Move) :
    ¬w.Overlooked moves ∧
        ((w.after moves).turn.Requested ∨ (w.after moves).turn.CalledOff) ∨
      w.Overlooked moves ∧ (w.after moves).turn.Missed := by
  induction moves generalizing w with
  | nil => exact .inl ⟨id, .inl h⟩
  | cons m moves ih =>
    -- what a move makes of the turn without overlooking the request
    have hgo : ¬w.OverlooksAt m → (w.step m).turn.Requested ∨ (w.step m).turn.CalledOff →
        ¬w.Overlooked (m :: moves) ∧
            ((w.after (m :: moves)).turn.Requested ∨ (w.after (m :: moves)).turn.CalledOff) ∨
          w.Overlooked (m :: moves) ∧ (w.after (m :: moves)).turn.Missed := by
      rintro hnow (hr | hoff)
      · rcases ih hr with ⟨hnot, hend⟩ | ⟨hthen, hend⟩
        · exact .inl ⟨not_or.2 ⟨hnow, hnot⟩, hend⟩
        · exact .inr ⟨.inr hthen, hend⟩
      · obtain ⟨hnot, hend⟩ :=
          not_overlooked_of_terminal (placed_step h.placed m) hoff moves
        exact .inl ⟨not_or.2 ⟨hnow, hnot⟩, .inr hend⟩
    by_cases hm : ∃ base r, m = .reply base r
    · obtain ⟨base, r, rfl⟩ := hm
      rcases h.takes (Turn.takes_advance base w.turn r) with ⟨hnot, hend⟩ | ⟨hnow, hend⟩
      · exact hgo hnot hend
      · have hplaced := placed_step h.placed (.reply base r)
        exact .inr ⟨.inl hnow, missed_after hplaced hend moves⟩
    · have hm' : ∀ base r, m ≠ .reply base r := fun base r he => hm ⟨base, r, he⟩
      refine hgo ?_ (.inl (requested_step h hm'))
      cases m with
      | reply base r => exact absurd rfl (hm' base r)
      | _ => exact id

/-- **A requested cancellation is honoured exactly if it is overlooked nowhere.** Let a turn be
    asked to be cancelled anywhere `before` it has ended, and let running end some `moves` later.
    Then the turn is `CalledOff`, ended as cancelled with nothing pending and the end told, if and
    only if the request was not `Overlooked`: the turn did not leave in the meantime on one of the
    ways where it does not look at it. On these the agent broke off, a check was given up, the
    problems of the last check had been told or there was no digest of them, or a failure went
    through. -/
theorem called_off_iff_not_overlooked {config : TurnConfig} {maxAttempts : Int} {t : Turn}
    (ht : Turn.new? config maxAttempts = some t) {before moves : List Move}
    (hactive : ((new t).after before).turn.status.isTerminal = false)
    (hrunning : ((new t).after before).turn.isOver = false)
    (hover : ((((new t).after before).step .cancel).after moves).turn.isOver = true) :
    (((((new t).after before).step .cancel).after moves).turn.CalledOff ↔
      ¬(((new t).after before).step .cancel).Overlooked moves) := by
  have hplaced : ((new t).after before).turn.Placed :=
    after_invariant (P := fun w => w.turn.Placed) (fun w m _ h => placed_step h m)
      (new_waits ht).placed
  have hrequested := cancel_requested hplaced hactive hrunning
  constructor
  · intro hoff hlost
    rcases requested_after hrequested moves with ⟨hnot, -⟩ | ⟨-, hmissed⟩
    · exact hnot hlost
    · exact hoff.not_missed hmissed
  · intro hnot
    rcases requested_after hrequested moves with ⟨-, hr | hoff⟩ | ⟨hlost, -⟩
    · exact absurd (hr.running.symm.trans hover) nofun
    · exact hoff
    · exact absurd hlost hnot

/-- The agent ends after the request, and the turn is called off. -/
theorem ended_agent_called_off :
    let policy : RetryPolicy := ⟨1, .real (.finite false 120 0), .whole 0⟩
    let config : TurnConfig := ⟨"session", "turn", "pl", none, policy, 50⟩
    let before : List Move := [.start "go", .reply default .opened]
    let moves : List Move := [.reply default .ended, .reply default .closed, .reply default .told]
    ∃ t, Turn.new? config 2 = some t ∧
      ((new t).after before).turn.status.isTerminal = false ∧
      ((new t).after before).turn.isOver = false ∧
      ((((new t).after before).step .cancel).after moves).turn.isOver = true ∧
      ((((new t).after before).step .cancel).after moves).turn.CalledOff := by
  intro policy config before moves
  have hnew : Turn.new? config 2 = some _ := rfl
  refine ⟨_, hnew, rfl, rfl, rfl, ?_⟩
  refine (called_off_iff_not_overlooked hnew rfl rfl rfl).2 ?_
  rintro (h | h | h | h)
  · exact h.2
  · exact h.2
  · exact h.2
  · exact h

/-- The request comes in while the listeners are told that the check has found nothing: the turn
    ends clean. -/
theorem verdict_overlooks_request :
    let policy : RetryPolicy := ⟨1, .real (.finite false 120 0), .whole 0⟩
    let config : TurnConfig := ⟨"session", "turn", "pl", none, policy, 50⟩
    let before : List Move := [.start "go", .reply default .opened, .reply default .ended,
      .reply default .closed, .reply default (.checked [])]
    let moves : List Move := [.reply default .told, .reply default .told]
    ∃ t, Turn.new? config 2 = some t ∧
      ((new t).after before).turn.status = .checking ∧
      let u := ((((new t).after before).step .cancel).after moves).turn
      u.status = .clean ∧ ∃ r, u.point = .over (.returned (some r)) ∧ r.status = .clean := by
  intro policy config before moves
  obtain ⟨t, hnew⟩ : ∃ t, Turn.new? config 2 = some t := ⟨_, rfl⟩
  have hp : (((new t).after before).step .cancel).turn.point =
      .tellingDiagnostics (sortProblems []) := by
    cases hnew
    rfl
  have hs : (((new t).after before).step .cancel).turn.status = .checking := by
    cases hnew
    rfl
  have hs' : ((new t).after before).turn.status = .checking := by
    cases hnew
    rfl
  rw [(sortProblems_perm []).eq_nil] at hp
  exact ⟨t, hnew, hs', Turn.clean_of_told hp hs default default⟩

end Run

end StagedEdits
