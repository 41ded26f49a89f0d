import StagedEdits.Proofs.Pieces
import StagedEdits.Proofs.TurnRun

set_option autoImplicit false

/-! # The protocol of a turn

Whatever the agent, the type checker and the listeners do and whenever a cancellation comes in, the
listeners are told a well-formed story: texts, each with what was applied of it if anything was,
closed by the problems of a check, over and over, and at the very end, once, the result. The events
are numbered without gaps, and a turn whose running has ended with its result or by a cancellation
has ended itself. Running may also end by a failure that nothing catches, as that of a text with a
number of too many digits in it: then the turn has not ended, and its listeners are never told.

Main definitions: `Stretch`, `Rounds`, `Underway` (the grammar of the story), `Sound`. Main
statements: `Sound.next` (one reply), `Run.WellTold.step` (one move), `Run.follows_protocol`,
`Run.unreadable_text_ends_untold` (a turn that its listeners hear no end of). -/

namespace StagedEdits

/-! ## The grammar -/

/-- The directives that an event tells of as applied. -/
def Payload.directives : Payload → List Directive
  | .patch ds _ => ds
  | _ => []

/-- Texts of the agent, each of them maybe with what was applied of it. -/
inductive Stretch : List Payload → Prop
  /-- No text. -/
  | nil : Stretch []
  /-- A text of which nothing is told. -/
  | text {l : List Payload} (h : Stretch l) (text : String) : Stretch (l ++ [.chunk text])
  /-- A text and what was applied of it. -/
  | patch {l : List Payload} (h : Stretch l) (text : String) (ds : List Directive)
    (es : List Fault) : Stretch (l ++ [.chunk text] ++ [.patch ds es])

/-- So many `Stretch`es, each closed by the problems of a check; the checks are counted from
    zero. -/
inductive Rounds : Nat → List Payload → Prop
  /-- No round. -/
  | nil : Rounds 0 []
  /-- One more round. -/
  | check {n : Nat} {l s : List Payload} (h : Rounds n l) (hs : Stretch s) (ps : List Problem) :
    Rounds (n + 1) (l ++ s ++ [.diagnostics n ps])

/-- That `l` are `n` rounds and a stretch that may go on. -/
def Underway (n : Nat) (l : List Payload) : Prop :=
  ∃ rounds stretch, l = rounds ++ stretch ∧ Rounds n rounds ∧ Stretch stretch

section Grammar

variable {n : Nat} {l : List Payload}

theorem Rounds.underway (h : Rounds n l) : Underway n l :=
  ⟨l, [], (List.append_nil l).symm, h, .nil⟩

theorem Underway.text (h : Underway n l) (text : String) : Underway n (l ++ [.chunk text]) := by
  obtain ⟨a, b, rfl, ha, hb⟩ := h
  exact ⟨a, b ++ [.chunk text], List.append_assoc .., ha, hb.text text⟩

theorem Underway.patch (h : Underway n l) (text : String) (ds : List Directive)
    (es : List Fault) : Underway n (l ++ [.chunk text] ++ [.patch ds es]) := by
  obtain ⟨a, b, rfl, ha, hb⟩ := h
  exact ⟨a, b ++ [.chunk text] ++ [.patch ds es], by simp only [List.append_assoc], ha,
    hb.patch text ds es⟩

theorem Underway.check (h : Underway n l) (ps : List Problem) :
    Rounds (n + 1) (l ++ [.diagnostics n ps]) := by
  obtain ⟨a, b, rfl, ha, hb⟩ := h
  exact ha.check hb ps

theorem Stretch.not_done (h : Stretch l) (r : TurnResult) : .done r ∉ l := by
  induction h with
  | nil => exact List.not_mem_nil
  | text _ text ih => simpa using ih
  | patch _ text ds es ih => simpa using ih

theorem Rounds.not_done (h : Rounds n l) (r : TurnResult) : .done r ∉ l := by
  induction h with
  | nil => exact List.not_mem_nil
  | check _ hs ps ih => simpa using ⟨ih, hs.not_done r⟩

/-- The result is not told underway. -/
theorem Underway.not_done (h : Underway n l) (r : TurnResult) : .done r ∉ l := by
  obtain ⟨a, b, rfl, ha, hb⟩ := h
  rw [List.mem_append]
  exact fun hm => hm.elim (ha.not_done r) (hb.not_done r)

end Grammar

/-! ## The invariant -/

namespace Course

/-- What the events of `c` carry. -/
def payloads (c : Course) : List Payload := c.events.map (·.payload)

theorem payloads_emit (c : Course) (payload : Payload) :
    (c.emit payload).payloads = c.payloads ++ [payload] := by
  simp only [payloads, emit, List.map_append, List.map_cons, List.map_nil]

/-- That the events of `c` carry the numbers from zero on and the name of the turn. -/
def Numbered (c : Course) : Prop :=
  ∀ (i : Nat) (e : Event), c.events[i]? = some e → e.seq = i ∧ e.turnId = c.turnId

theorem Numbered.emit {c : Course} (h : c.Numbered) (payload : Payload) :
    (c.emit payload).Numbered := by
  intro i e he
  simp only [Course.emit] at he
  by_cases hi : i < c.events.length
  · rw [List.getElem?_append_left hi] at he
    exact h i e he
  · rw [List.getElem?_append_right (Nat.le_of_not_lt hi)] at he
    have hlen : i - c.events.length < 1 := (List.getElem?_eq_some_iff.1 he).1
    have hi' : i = c.events.length := by omega
    subst hi'
    rw [Nat.sub_self, List.getElem?_cons_zero] at he
    cases he
    exact ⟨rfl, rfl⟩

/-- That the listeners were told of all directives that were applied since the `earlier` ones. -/
def Patched (c : Course) (earlier : List Directive) : Prop :=
  c.applied = earlier ++ c.payloads.flatMap Payload.directives

theorem Patched.emit {c : Course} {earlier : List Directive} (h : c.Patched earlier)
    {payload : Payload} (hp : payload.directives = []) : (c.emit payload).Patched earlier := by
  rw [Patched, payloads_emit, List.flatMap_append, List.flatMap_singleton, hp, List.append_nil]
  exact h

theorem Patched.tell {c : Course} {earlier : List Directive} (h : c.Patched earlier) (a : Applier)
    (ds : List Directive) (es : List Fault) :
    ({ c with applier := a, applied := c.applied ++ ds }.emit (.patch ds es)).Patched earlier := by
  have happlied : c.applied = earlier ++ c.payloads.flatMap Payload.directives := h
  rw [Patched, payloads_emit, List.flatMap_append, List.flatMap_singleton, ← List.append_assoc]
  show c.applied ++ ds = earlier ++ c.payloads.flatMap Payload.directives ++ ds
  rw [← happlied]

/-- That the listeners were told the end, with a result that tells of `c`. -/
def Finished (c : Course) : Prop :=
  ∃ n lead r, c.payloads = lead ++ [.done r] ∧ Underway n lead ∧ c.result = some r ∧ c.Reports r

theorem finish_finished {c : Course} {r : TurnResult} {n : Nat} (h : Underway n c.payloads)
    (hr : c.Reports r) : (c.finish r).Finished :=
  ⟨n, c.payloads, r, payloads_emit .., h, rfl, hr.status, hr.applied, hr.diagnostics, hr.attempts,
    hr.checkCalls⟩

end Course

/-- What holds along a run in which nothing is replayed any more, beyond the `earlier`
    directives. -/
structure Sound (earlier : List Directive) (c : Course) (p : Point) : Prop where
  /-- Status and point go together. -/
  admits : Turn.Admits c.status p
  /-- The events are numbered. -/
  numbered : c.Numbered
  /-- The listeners were told what was applied. -/
  patched : c.Patched earlier
  /-- While the agent writes, as many checks were told as there were repairs. -/
  streaming : c.status = .streaming → Underway c.attempt c.payloads
  /-- While the type checker judges, the story is underway. -/
  checking : c.status = .checking → ∃ n, Underway n c.payloads
  /-- In a repair that running ends in, the story is underway. -/
  repairing : c.status = .repairing → ∃ n, Underway n c.payloads
  /-- While a question is open, its check is not told yet. -/
  asking : ∀ request, p.request? = some request → Underway c.attempt c.payloads
  /-- While a text is told, nothing of it is applied yet. -/
  hearing : ∀ q text, p = .tellingChunk q text →
    ∃ lead, c.payloads = lead ++ [.chunk text] ∧ Underway c.attempt lead
  /-- While problems are told, their check closes a round. -/
  judging : ∀ ps, p = .tellingDiagnostics ps → Rounds (c.attempt + 1) c.payloads
  /-- A turn that has ended was told to have ended. -/
  ended : c.status.isTerminal = true → c.Finished
  /-- What running gives back is the result. -/
  returned : ∀ r, p = .over (.returned r) → r = c.result

namespace Sound

variable {earlier : List Directive}

/-- The story of a turn that has not ended is underway. -/
theorem underway {c : Course} {p : Point} (h : Sound earlier c p)
    (hs : c.status.isTerminal = false) : ∃ n, Underway n c.payloads := by
  cases hc : c.status with
  | streaming => exact ⟨_, h.streaming hc⟩
  | checking => exact h.checking hc
  | repairing => exact h.repairing hc
  | clean | failed | cancelled =>
    rw [hc] at hs
    cases hs

/-- Running gives nothing back before the end. -/
theorem returned_of_open {c : Course} {p : Point} (hs : c.status.isTerminal = false)
    (hadmits : Turn.Admits c.status p) (r : Option TurnResult) (h : p = .over (.returned r)) :
    r = c.result := by
  subst h
  exact absurd (hs.symm.trans hadmits) nofun

/-- While the agent writes and no text is told, the story is all there is. -/
theorem of_streaming {c : Course} {p : Point} (hs : c.status = .streaming)
    (hadmits : Turn.Admits c.status p) (hnumbered : c.Numbered) (hpatched : c.Patched earlier)
    (hstory : Underway c.attempt c.payloads)
    (hp : p.request? = none ∧ (∀ q text, p ≠ .tellingChunk q text) ∧
      ∀ ps, p ≠ .tellingDiagnostics ps) : Sound earlier c p where
  admits := hadmits
  numbered := hnumbered
  patched := hpatched
  streaming _ := hstory
  checking h := absurd (hs.symm.trans h) nofun
  repairing h := absurd (hs.symm.trans h) nofun
  asking request h := by
    rw [hp.1] at h
    cases h
  hearing q text h := absurd h (hp.2.1 q text)
  judging ps h := absurd h (hp.2.2 ps)
  ended h := by
    rw [hs] at h
    cases h
  returned := returned_of_open (by rw [hs]; rfl) hadmits

/-- While the type checker judges, no text is told, and the story is underway. -/
theorem of_checking {c : Course} {p : Point} {n : Nat} (hs : c.status = .checking)
    (hadmits : Turn.Admits c.status p) (hnumbered : c.Numbered) (hpatched : c.Patched earlier)
    (hstory : Underway n c.payloads)
    (hasked : ∀ request, p.request? = some request → Underway c.attempt c.payloads)
    (hjudged : ∀ ps, p = .tellingDiagnostics ps → Rounds (c.attempt + 1) c.payloads) :
    Sound earlier c p where
  admits := hadmits
  numbered := hnumbered
  patched := hpatched
  streaming h := absurd (hs.symm.trans h) nofun
  checking _ := ⟨n, hstory⟩
  repairing h := absurd (hs.symm.trans h) nofun
  asking := hasked
  hearing q text h := by
    subst h
    exact absurd (hs.symm.trans hadmits) nofun
  judging := hjudged
  ended h := by
    rw [hs] at h
    cases h
  returned := returned_of_open (by rw [hs]; rfl) hadmits

/-- What a turn that has ended was told is all that counts. -/
theorem of_terminal {c : Course} {p : Point} (hs : c.status.isTerminal = true)
    (hadmits : Turn.Admits c.status p) (hnumbered : c.Numbered) (hpatched : c.Patched earlier)
    (hfinished : c.Finished) (hreturned : ∀ r, p = .over (.returned r) → r = c.result) :
    Sound earlier c p where
  admits := hadmits
  numbered := hnumbered
  patched := hpatched
  streaming h := by
    rw [h] at hs
    cases hs
  checking h := by
    rw [h] at hs
    cases hs
  repairing h := by
    rw [h] at hs
    cases hs
  asking request h := by
    have hc : c.status = .checking := by
      cases p with
      | checking | pausing | dismissing => exact hadmits
      | _ => cases h
    rw [hc] at hs
    cases hs
  hearing q text h := by
    subst h
    rw [show c.status = .streaming from hadmits] at hs
    cases hs
  judging ps h := by
    subst h
    rw [show c.status = .checking from hadmits] at hs
    cases hs
  ended _ := hfinished
  returned := hreturned

/-- What is asked about is not told yet. -/
theorem underway_of_asks {t : Turn} {request : Snapshot} (h : Sound earlier t.course t.point)
    (hq : t.Asks request) : Underway t.course.attempt t.course.payloads := by
  rcases hq with ⟨hs, -⟩ | ⟨-, hp⟩
  · exact h.streaming hs
  · exact h.asking request hp

/-- A text is told. -/
theorem text {c : Course} {p : Point} (h : Sound earlier c p) (hs : c.status = .streaming)
    (q : Parser) (text : String) : Sound earlier (c.emit (.chunk text)) (.tellingChunk q text) where
  admits := hs
  numbered := h.numbered.emit _
  patched := h.patched.emit rfl
  streaming _ := by
    rw [Course.payloads_emit]
    exact (h.streaming hs).text text
  checking hc := absurd (hs.symm.trans hc) nofun
  repairing hc := absurd (hs.symm.trans hc) nofun
  asking := nofun
  hearing q' text' he := by
    cases he
    exact ⟨_, Course.payloads_emit .., h.streaming hs⟩
  judging := nofun
  ended ht := by
    rw [show (c.emit _).status = .streaming from hs] at ht
    cases ht
  returned := nofun

/-- What was applied of a text is told. -/
theorem patch {c : Course} {q : Parser} {text : String}
    (h : Sound earlier c (.tellingChunk q text)) (a : Applier) (ds : List Directive)
    (es : List Fault) (q' : Parser) :
    Sound earlier
      ({ c with applier := a, applied := c.applied ++ ds }.emit (.patch ds es))
      (.tellingPatch q') := by
  have hs : c.status = .streaming := h.admits
  -- the story ends with the text, which what was applied of it may follow
  obtain ⟨lead, hlead, hstory⟩ := h.hearing q text rfl
  refine of_streaming hs hs (h.numbered.emit _) (h.patched.tell a ds es) ?_ ⟨rfl, nofun, nofun⟩
  rw [Course.payloads_emit]
  show Underway c.attempt (c.payloads ++ [.patch ds es])
  rw [hlead]
  exact hstory.patch text ds es

/-- The problems of a check are told. -/
theorem check {c : Course} {request : Snapshot} {failed : Nat}
    (h : Sound earlier c (.checking request failed)) (ps : List Problem) :
    Sound earlier
      ({ c with diagnostics := ps }.emit (.diagnostics c.attempt ps))
      (.tellingDiagnostics ps) := by
  have hs : c.status = .checking := h.admits
  -- the check is the one that the repairs so far count
  have hround : Rounds (c.attempt + 1) (c.payloads ++ [.diagnostics c.attempt ps]) :=
    (h.asking request rfl).check ps
  rw [← Course.payloads_emit] at hround
  exact of_checking hs hs (h.numbered.emit _) (h.patched.emit rfl) hround.underway nofun
    fun _ _ => hround

/-- A failure that is no cancellation leaves a turn that has not ended. -/
theorem raise {t : Turn} (h : Sound earlier t.course t.point) (hs : t.Active) {s : TurnStatus}
    (hs' : s = t.status ∨ s = .checking) {f : Failure} (hf : f ≠ .cancelled) :
    Sound earlier { t.course with status := s } (.over (.raised f)) := by
  have hadmits : Turn.Admits s (.over (.raised f)) := fun he => absurd he hf
  obtain ⟨n, hstory⟩ := h.underway hs.not_terminal
  rcases hs' with rfl | rfl
  · exact {
      admits := hadmits
      numbered := h.numbered
      patched := h.patched
      streaming := h.streaming
      checking := h.checking
      repairing := h.repairing
      asking := nofun
      hearing := nofun
      judging := nofun
      ended := fun ht => absurd (hs.not_terminal.symm.trans ht) nofun
      returned := nofun }
  · exact of_checking rfl hadmits h.numbered h.patched hstory nofun nofun

/-- **A reply keeps the story well-formed.** -/
theorem next {t : Turn} {ok : Failure → Prop} {ans : Option Answer} {c : Course} {p : Point}
    (hn : t.Next ok ans c p) (h : Sound earlier t.course t.point) : Sound earlier c p := by
  have hadmits := hn.admits h.admits
  have hplaced : t.Placed := h.admits
  cases hn with
  | same => exact h
  | reads hs | leaves hs =>
    exact of_streaming hs hadmits h.numbered h.patched (h.streaming hs) ⟨rfl, nofun, nofun⟩
  | hears hp => exact h.text (hplaced.admits hp) _ _
  | patches hp =>
    rw [hp] at h
    exact h.patch _ _ _ _
  | settles hs hp =>
    refine of_terminal hs hadmits h.numbered h.patched (h.ended hs) fun r he => ?_
    rcases hp with rfl | ⟨f, rfl⟩ | rfl | ⟨f, rfl⟩ <;> cases he
    rfl
  | raises hs hs' hf => exact h.raise hs hs' hf
  | @ends _ hs s hs' a r hr frame =>
    obtain ⟨n, hstory⟩ := h.underway hs.not_terminal
    have hterminal : s.isTerminal = true := by rcases hs' with rfl | rfl <;> rfl
    exact of_terminal hterminal hadmits (h.numbered.emit _) (h.patched.emit rfl)
      (Course.finish_finished hstory hr) nofun
  | calls hq failed =>
    exact of_checking rfl hadmits h.numbered h.patched (h.underway_of_asks hq)
      (fun _ _ => h.underway_of_asks hq) nofun
  | delays hq hp =>
    refine of_checking rfl hadmits h.numbered h.patched (h.underway_of_asks hq)
      (fun _ _ => h.underway_of_asks hq) ?_
    rcases hp with ⟨_, rfl⟩ | ⟨_, _, rfl⟩ <;> exact nofun
  | diagnoses hp ps =>
    rw [hp] at h
    exact h.check (sortProblems ps)
  | repairs hp =>
    have hround := h.judging _ hp
    exact of_streaming rfl hadmits h.numbered h.patched hround.underway ⟨rfl, nofun, nofun⟩
  | undigested hp =>
    have hround := h.judging _ hp
    exact {
      admits := hadmits
      numbered := h.numbered
      patched := h.patched
      streaming := nofun
      checking := nofun
      repairing := fun _ => ⟨_, hround.underway⟩
      asking := nofun
      hearing := nofun
      judging := nofun
      ended := nofun
      returned := nofun }
  | cleans hp hr =>
    exact of_terminal rfl hadmits (h.numbered.emit _) (h.patched.emit rfl)
      (Course.finish_finished (h.judging _ hp).underway hr) nofun

/-- The overlay and a commit are no part of the story. -/
theorem overlaid {c : Course} {p : Point} (h : Sound earlier c p) (a : Applier) (committed : Bool) :
    Sound earlier { c with applier := a, committed } p :=
  { h with
    ended := fun ht => by
      obtain ⟨n, lead, r, hlead, hstory, hresult, hr⟩ := h.ended ht
      exact ⟨n, lead, r, hlead, hstory, hresult, hr.status, hr.applied, hr.diagnostics, hr.attempts,
        hr.checkCalls⟩ }

end Sound

/-! ## Runs -/

namespace Run

section Moves

variable {w : Run}

/-- That the story of the turn of `w` has been sound since the `earlier` directives were applied. -/
def WellTold (w : Run) (earlier : List Directive) : Prop :=
  Sound earlier w.turn.course w.turn.point

theorem Waits.wellTold (h : w.Waits) : w.WellTold w.turn.record.applied := by
  have hpayloads : w.turn.course.payloads = [] := by rw [Course.payloads, h.events, List.map_nil]
  rw [WellTold, h.idle]
  refine .of_streaming h.status h.status ?_ ?_ ?_ ⟨rfl, nofun, nofun⟩
  · intro i e he
    rw [h.events] at he
    cases he
  · rw [Course.Patched, hpayloads, List.flatMap_nil, List.append_nil]
    rfl
  · rw [hpayloads, h.attempt]
    exact Rounds.nil.underway

/-- **A move `m` that is no replay keeps the story well-formed.** -/
theorem WellTold.step {earlier : List Directive} (h : w.WellTold earlier) {m : Move}
    (hm : ∀ base log, m ≠ .replay base log) : (w.step m).WellTold earlier := by
  cases m with
  | start prompt =>
    rcases w.step_start prompt with ⟨u, hu, hidle, hc, hp⟩ | hu
    · have hs : w.turn.course.status = .streaming := Turn.Placed.admits h.admits hidle
      rw [hu, WellTold, hc, hp]
      exact .of_streaming hs hs h.numbered h.patched (h.streaming hs) ⟨rfl, nofun, nofun⟩
    · rw [hu]
      exact h
  | reply base r => exact Sound.next (Turn.advance_next h.admits base r) h
  | cancel =>
    show Sound earlier w.turn.cancel.course w.turn.cancel.point
    rw [w.turn.cancel_course, w.turn.cancel_point]
    exact h
  | replay base log => exact absurd rfl (hm base log)
  | discard => exact Sound.overlaid h w.turn.applier.clear w.turn.committed
  | handOver force =>
    rcases w.step_handOver force with ⟨o, -, hw⟩ | hw <;> rw [hw] <;> exact h
  | committed index outcome =>
    rcases w.step_committed index outcome with ⟨u, hw, -, hc, hp⟩ | hw
    · rw [hw, WellTold, hc, hp]
      exact Sound.overlaid h _ _
    · rw [hw]
      exact h

/-- That the failure `f` has come into the turn of `w`: the turn raised it by itself, or the world
    did where nothing catches it, or the base of one of `moves` did. -/
def CameIn (w : Run) (moves : List Move) (f : Failure) : Prop :=
  f.Escapes ∨ f ∈ w.uncaught ∨
    ∃ base r path, .reply base r ∈ moves ∧ base.trouble path = some f

/-- That the failure that goes through the turn of `w`, if one does, has come in. -/
def Explained (w : Run) (moves : List Move) : Prop :=
  ∀ f, w.turn.point.raised? = some f → w.CameIn moves f

theorem Explained.reply {moves : List Move} (h : w.Explained moves) (hplaced : w.turn.Placed)
    {base : BaseTree} {r : Reply} (hm : .reply base r ∈ moves) :
    (w.step (.reply base r)).Explained moves := by
  intro f hf
  have hearlier : w.CameIn moves f → (w.step (.reply base r)).CameIn moves f :=
    Or.imp_right (Or.imp_left (List.mem_append_left _))
  rcases (Turn.advance_next hplaced base r).raised hf with hf' | hown | hf' | hin | ⟨path, hpath⟩
  · exact hearlier (h f hf')
  · exact .inl hown
  · exact hearlier (h f hf')
  · exact .inr (.inl (List.mem_append_right _ (Option.mem_toList.2 hin)))
  · exact .inr (.inr ⟨base, r, path, hm, hpath⟩)

/-- The owner of a turn brings no failure into it. -/
theorem Explained.step {moves : List Move} (h : w.Explained moves) (hplaced : w.turn.Placed)
    {m : Move} (hm : m ∈ moves) : (w.step m).Explained moves := by
  cases m with
  | start prompt =>
    rcases w.step_start prompt with ⟨u, hu, -, -, hp⟩ | hu <;> rw [hu]
    · intro f hf
      rw [hp] at hf
      cases hf
    · exact h
  | reply base r => exact h.reply hplaced hm
  | cancel =>
    intro f hf
    exact h f (w.turn.cancel_point ▸ hf)
  | replay base log =>
    obtain ⟨a, ds, -, hp⟩ := w.turn.replay_course base log
    intro f hf
    exact h f (hp ▸ hf)
  | discard => exact h
  | handOver force =>
    rcases w.step_handOver force with ⟨o, -, hw⟩ | hw <;> rw [hw] <;> exact h
  | committed index outcome =>
    rcases w.step_committed index outcome with ⟨u, hw, -, -, hp⟩ | hw <;> rw [hw]
    · intro f hf
      exact h f (hp ▸ hf)
    · exact h

end Moves

/-- **Turns follow their protocol.** Whatever was replayed into a turn `before` it is started, and
    however then the agent writes and breaks off, the type checker answers, checks are tried again,
    listeners fail and cancellations come in: the events are numbered without gaps, what they tell
    of as applied is what was applied since, and no move between statuses is refused. Where running
    has ended, either the turn has, and the listeners were told rounds of texts closed by their
    checks, then maybe more texts, and at last the result `r`, once, which is also what running
    gives back; or it was left by a failure `f` that is no cancellation, its listeners were told no
    end, and `f` is one that `CameIn`, as a turn does not catch it: of a text or a digest with a
    number of too many digits, of a pause that no clock takes, of the base, or of the world where it
    is not to fail. -/
theorem follows_protocol {config : TurnConfig} {maxAttempts : Int} {t : Turn}
    (ht : Turn.new? config maxAttempts = some t) {before moves : List Move}
    (hbefore : ∀ prompt, .start prompt ∉ before) (hmoves : ∀ base log, .replay base log ∉ moves) :
    let u := (new t).after before
    let w := u.after moves
    (∀ (i : Nat) (e : Event), w.turn.events[i]? = some e →
      e.seq = i ∧ e.turnId = w.turn.config.turnId) ∧
    w.turn.record.applied =
      u.turn.record.applied ++ w.turn.course.payloads.flatMap Payload.directives ∧
    (∀ f, w.turn.point = .over (.raised f) → f.isInvalidTransition = true →
      f ∈ w.uncaught ∨ ∃ base r path, .reply base r ∈ moves ∧ base.trouble path = some f) ∧
    ∀ e, w.turn.point = .over e →
      (w.turn.status.isTerminal = true ∧
        ∃ n lead r, w.turn.course.payloads = lead ++ [.done r] ∧ Underway n lead ∧
          (∀ r', .done r' ∉ lead) ∧ w.turn.result = some r ∧ w.turn.course.Reports r ∧
          ∀ r', e = .returned r' → r' = some r) ∨
      (w.turn.status.isTerminal = false ∧ (∀ r, .done r ∉ w.turn.course.payloads) ∧
        ∃ f, e = .raised f ∧ f ≠ .cancelled ∧ w.CameIn moves f) := by
  intro u w
  have hu : u.Waits := (new_waits ht).after hbefore
  have hexplained : u.Explained moves := fun f hf => by
    rw [hu.idle] at hf
    cases hf
  obtain ⟨hw, hw'⟩ : w.WellTold u.turn.record.applied ∧ w.Explained moves :=
    after_invariant (P := fun w => w.WellTold u.turn.record.applied ∧ w.Explained moves)
      (fun _ m hm h => ⟨h.1.step fun base log he => hmoves base log (he ▸ hm),
        h.2.step h.1.admits hm⟩)
      ⟨hu.wellTold, hexplained⟩
  refine ⟨hw.numbered, hw.patched, fun f hf hinvalid => ?_, fun e he => ?_⟩
  · refine (hw' f (by rw [hf]; rfl)).resolve_left fun hown => ?_
    exact absurd (hinvalid.symm.trans hown.isInvalidTransition) nofun
  have hplaced : w.turn.Placed := hw.admits
  have hadmits : Turn.Admits w.turn.status (.over e) := hplaced.admits he
  cases hs : w.turn.status.isTerminal with
  | true =>
    obtain ⟨n, lead, r, hlead, hstory, hresult, hr⟩ := hw.ended hs
    refine .inl ⟨rfl, n, lead, r, hlead, hstory, hstory.not_done, hresult, hr, fun r' hr' => ?_⟩
    exact (hw.returned r' (hr' ▸ he)).trans hresult
  | false =>
    obtain ⟨n, hstory⟩ := hw.underway hs
    refine .inr ⟨rfl, hstory.not_done, ?_⟩
    cases e with
    | returned r => cases hs.symm.trans hadmits
    | raised f =>
      refine ⟨f, rfl, fun hf => ?_, hw' f (by rw [he]; rfl)⟩
      cases hs.symm.trans (hadmits hf)

/-- The task is cancelled while the listeners are told the first text of the agent. -/
theorem cancelled_listener_follows_protocol :
    let policy : RetryPolicy := ⟨1, .real (.finite false 120 0), .whole 0⟩
    let config : TurnConfig := ⟨"session", "turn", "pl", none, policy, 50⟩
    let before : List Move := [.replay default []]
    let moves : List Move := [.start "go", .reply default .opened, .reply default (.chunk "text"),
      .reply default (.failed .cancelled), .reply default .closed, .reply default .told]
    ∃ t, Turn.new? config 2 = some t ∧ (∀ prompt, .start prompt ∉ before) ∧
      (∀ base log, .replay base log ∉ moves) ∧
      (((new t).after before).after moves).turn.point = .over (.raised .cancelled) ∧
      ∃ n lead r, (((new t).after before).after moves).turn.course.payloads = lead ++ [.done r] ∧
        Underway n lead ∧ (((new t).after before).after moves).turn.result = some r := by
  intro policy config before moves
  have hbefore : ∀ prompt, .start prompt ∉ before := by simp [before]
  have hmoves : ∀ base log, .replay base log ∉ moves := by simp [moves]
  have hnew : Turn.new? config 2 = some _ := rfl
  refine ⟨_, hnew, hbefore, hmoves, rfl, ?_⟩
  rcases (follows_protocol hnew hbefore hmoves).2.2.2 _ rfl with
    ⟨-, n, lead, r, hlead, hstory, -, hresult, -⟩ | ⟨-, -, f, hf, hne, -⟩
  · exact ⟨n, lead, r, hlead, hstory, hresult⟩
  · cases hf
    exact absurd rfl hne

/-- A text that cannot be read is left by a failure, which closing the stream lets through. -/
theorem after_unreadable {w : Run} {p : Parser} {text : String} {f : FeedFault}
    (hp : w.turn.point = .tellingChunk p text) (hf : (p.feed text.toList).stopped = some f)
    (base : BaseTree) :
    let u := (w.after [.reply base .told, .reply base .closed]).turn
    u.point = .over (.raised (.other "ValueError" f.message)) ∧ u.status = w.turn.status ∧
      u.events = w.turn.events := by
  have htold : w.turn.advance base .told = w.turn.takeText base p text := by
    simp only [Turn.advance, hp]
  show let u := (w.turn.advance base .told).advance base .closed
    u.point = _ ∧ u.status = _ ∧ u.events = _
  rw [htold, Turn.takeText]
  simp only [hf]
  exact ⟨rfl, rfl, rfl⟩

/-- **A turn that its listeners hear no end of.** The first text of the agent is a tag whose path
    has a number of too many digits: running ends by the failure to read it, the agent's stream is
    closed, and the turn has not ended. -/
theorem unreadable_text_ends_untold :
    let policy : RetryPolicy := ⟨1, .real (.finite false 120 0), .whole 0⟩
    let config : TurnConfig := ⟨"session", "turn", "pl", none, policy, 50⟩
    let text := String.ofList (Parser.deleteTag (Parser.zeroReference (maxDigits + 1)))
    let moves : List Move := [.start "go", .reply default .opened, .reply default (.chunk text),
      .reply default .told, .reply default .closed]
    ∃ t, Turn.new? config 2 = some t ∧
      let w := (new t).after moves
      (∃ f, w.turn.point = .over (.raised f) ∧ f ≠ .cancelled) ∧
        w.turn.status = .streaming ∧ ∀ r, .done r ∉ w.turn.course.payloads := by
  intro policy config text moves
  have hstop : ((Parser.ofMark "pl").feed text.toList).stopped =
      some (.unreadable (.tooLong (maxDigits + 1))) := by
    rw [String.toList_ofList]
    exact Parser.feed_unreadable (Parser.quote_notMem_zeroReference _)
      (Parser.expandRefs_zeroReference (Nat.lt_succ_self maxDigits))
  obtain ⟨t, hnew⟩ : ∃ t, Turn.new? config 2 = some t := ⟨_, rfl⟩
  -- the text is looked at when the listeners have been told it
  let told : List Move := [.start "go", .reply default .opened, .reply default (.chunk text)]
  have hevents : ((new t).after told).turn.events = [⟨"turn", 0, .chunk text⟩] := by
    cases hnew
    rfl
  have hpoint : ((new t).after told).turn.point = .tellingChunk (Parser.ofMark "pl") text := by
    cases hnew
    rfl
  have hstatus : ((new t).after told).turn.status = .streaming := by
    cases hnew
    rfl
  obtain ⟨hover, hopen, hsilent⟩ := after_unreadable hpoint hstop default
  refine ⟨t, hnew, ⟨_, hover, nofun⟩, hopen.trans hstatus, fun r => ?_⟩
  rw [Course.payloads, show ((new t).after moves).turn.course.events = _ from hsilent.trans hevents]
  simp

end Run

end StagedEdits
