import Mathlib.Data.List.ModifyLast
import StagedEdits.Proofs.BatchOutcome
import StagedEdits.Proofs.CompleteRecord
import StagedEdits.Proofs.StreamCuts
import StagedEdits.Proofs.TagPlaces

set_option autoImplicit false

/-! # What a turn reports

A turn reports what went wrong with single directives along its way: the refusals of tags are taken
from the parser behind each text, the renames that lack their source come with the batch of the
text, and the warnings of a stream are put on record where the stream ends or breaks off. Beside the
turn its chronicle keeps the texts of each stream with the overlay that they met. The result of a
turn that ends clean or fails reports all that is told by the chronicle, once and in order, and
behind it what made the turn fail.

Main definitions: `Hearing`, `Chronicle`, `Turn.note`, `Run.chronicle`, `Reported`. Main statements:
`Parser.Drained.feed` (one text), `Turn.advance_reports` (one reply), `Run.step_reports` (one move),
`Run.result_reports_all`. -/

namespace StagedEdits

/-! ## What a stream closes -/

namespace Parser

/-- What the tags of `mark` come to that `text` closes. -/
def closed (mark : String) (text : List Char) : List Outcome := ((ofMark mark).feed text).outcomes

/-- What the tags of `mark` come to that `chunk` closes behind `text`. -/
def closedBehind (mark : String) (text chunk : List Char) : List Outcome :=
  (closed mark (text ++ chunk)).drop (closed mark text).length

/-- What a stream of `text` is warned about: tags that have closed, and the one that is open at its
    end. -/
def warned (mark : String) (text : List Char) : List Warning :=
  (closed mark text).filterMap Outcome.warning? ++
    ((ofMark mark).feed text).parser.unterminated?.toList

/-- That `p` has read `text` and its refusals were taken. -/
def Drained (p : Parser) (mark : String) (text : List Char) : Prop :=
  ∃ q : Parser, q.HasRead mark text ∧ p = q.drain.1

theorem closed_append (mark : String) (text chunk : List Char) :
    closed mark (text ++ chunk) = closed mark text ++ closedBehind mark text chunk := by
  have hread : ((ofMark mark).feed text).parser.HasRead mark text := rfl
  have hout : closed mark (text ++ chunk) = closed mark text ++ _ := (hread.take (.alone chunk)).2
  rw [closedBehind, hout, List.drop_left]

theorem closedBehind_nil (mark : String) (text : List Char) : closedBehind mark text [] = [] := by
  rw [closedBehind, List.append_nil, List.drop_length]

/-- Before any text no tag has closed. -/
theorem closedBehind_empty (mark : String) (text : List Char) :
    closedBehind mark [] text = closed mark text := by
  have hempty : closed mark [] = [] := congrArg Fed.outcomes (feed_nil rfl)
  rw [closedBehind, hempty]
  rfl

theorem closedBehind_append (mark : String) (text chunk rest : List Char) :
    closedBehind mark text (chunk ++ rest) =
      closedBehind mark text chunk ++ closedBehind mark (text ++ chunk) rest := by
  refine (List.append_right_inj (closed mark text)).1 ?_
  rw [← closed_append, ← List.append_assoc, closed_append, closed_append, List.append_assoc]

theorem drained_ofMark (mark : String) : (ofMark mark).Drained mark [] :=
  ⟨ofMark mark, hasRead_ofMark mark, rfl⟩

section Draining

variable {p : Parser} {mark : String} {text : List Char}

/-- **A text closes what its tags come to behind the text before, and all their refusals are there
    to be taken**: `closedBehind` is what `chunk` closes. -/
theorem Drained.feed (h : p.Drained mark text) (chunk : List Char) :
    (p.feed chunk).outcomes = closedBehind mark text chunk ∧
      (p.feed chunk).parser.drain.2 =
        (closedBehind mark text chunk).filterMap Outcome.refusal? ∧
      (p.feed chunk).parser.drain.1.Drained mark (text ++ chunk) := by
  obtain ⟨q, hq, rfl⟩ := h
  obtain ⟨hout, -, hparser⟩ := q.feed_drain chunk
  obtain ⟨hread, hclosed⟩ := hq.take (.alone chunk)
  have houtcomes : (q.feed chunk).outcomes = closedBehind mark text chunk :=
    List.append_cancel_left (hclosed.symm.trans (closed_append mark text chunk))
  have hrefusals := (q.drain.1.feed_collected chunk).1
  refine ⟨hout.trans houtcomes, ?_, _, hread, hparser⟩
  show (q.drain.1.feed chunk).parser.refusals = _
  rw [hrefusals, hout, houtcomes]
  rfl

/-- A stream that ends is warned of all its warnings. -/
theorem Drained.finish_warned (h : p.Drained mark text) :
    p.finish.warnings = warned mark text := by
  obtain ⟨q, hq, rfl⟩ := h
  have hopen : q.drain.1.finished = false := hq.finished
  have hwhole : ((ofMark mark).feed text).parser.finished = false :=
    congrArg (fun s => s.2.2) (stream_feed_ofMark mark text)
  calc q.drain.1.finish.warnings
      = q.warnings ++ q.unterminated?.toList := finish_warnings hopen
    _ = q.finish.warnings := (finish_warnings hq.finished).symm
    _ = ((ofMark mark).feed text).parser.finish.warnings := by
        rw [← settle_finish_warnings, hq, settle_finish_warnings]
    _ = warned mark text := by
        rw [finish_warnings hwhole, ((ofMark mark).feed_collected text).2]
        rfl

end Draining

end Parser

/-! ## The chronicle of a turn -/

/-- A text that a turn takes: over which base, and behind which pending changes. -/
structure Hearing where
  base : BaseTree
  applier : Applier
  text : String

namespace Hearing

variable (mark : String) (before : List Char) (h : Hearing)

/-- What the tags come to that close in a text behind the text before. -/
def closed : List Outcome := Parser.closedBehind mark before h.text.toList

/-- The renames of a text that lack their source, by what each directive came to in the order of
    the batch. -/
def lost : List (String × String) :=
  let ds := ((h.closed mark before).filterMap Outcome.directive?).map (·.directive)
  lostOf (h.applier.effects h.base (Applier.batchOrder ds))

/-- The faults of a text: its refusals, then the renames that lack their source. -/
def reports : List Fault :=
  ((h.closed mark before).filterMap Outcome.refusal?).map Fault.ofRefusal ++
    (h.lost mark before).map lostFault

variable {mark before h}

/-- A text without directives has no renames. -/
theorem lost_eq_nil (hnone : (h.closed mark before).filterMap Outcome.directive? = []) :
    h.lost mark before = [] := by
  rw [lost, hnone]
  rfl

variable (mark before h)

/-- The refusals of a text are those of its tags. -/
theorem reports_escapes :
    (h.reports mark before).filter (·.name == "PathEscape") =
      ((h.closed mark before).filterMap Outcome.refusal?).map Fault.ofRefusal := by
  have hrefusals (rs : List PathRefusal) :
      (rs.map Fault.ofRefusal).filter (·.name == "PathEscape") = rs.map Fault.ofRefusal := by
    refine List.filter_eq_self.2 fun f hf => ?_
    obtain ⟨r, -, rfl⟩ := List.mem_map.1 hf
    rfl
  have hlost (ps : List (String × String)) :
      (ps.map lostFault).filter (·.name == "PathEscape") = [] := by
    refine List.filter_eq_nil_iff.2 fun f hf => ?_
    obtain ⟨p, -, rfl⟩ := List.mem_map.1 hf
    exact nofun
  rw [reports, List.filter_append, hrefusals, hlost, List.append_nil]

end Hearing

/-- The texts that a turn takes from one stream of the agent, each a `Hearing`. -/
abbrev Generation := List Hearing

namespace Generation

variable (mark : String)

/-- All texts of `g` in one. -/
def text (g : Generation) : List Char := g.flatMap (·.text.toList)

/-- The faults of texts behind the text `before`. -/
def reportsFrom (before : List Char) : Generation → List Fault
  | [] => []
  | h :: g => h.reports mark before ++ reportsFrom (before ++ h.text.toList) g

/-- The faults of a generation. -/
def reports (g : Generation) : List Fault := reportsFrom mark [] g

/-- The warnings of a generation. -/
def warnings (g : Generation) : List Fault := (Parser.warned mark g.text).map Warning.toFault

end Generation

/-- What a turn was told, as far as it has to report of it. -/
structure Chronicle where
  generations : List Generation
  /-- What a stream broke off with. -/
  broken : Option Failure
  /-- Why the last try of the check that is on failed; nothing before its first try. -/
  complaint : String

namespace Chronicle

/-- A chronicle before anything was told. -/
def new : Chronicle := ⟨[], none, ""⟩

variable (k : Chronicle)

/-- The chronicle with one more text `h` of the stream that was opened last. -/
def hear (h : Hearing) : Chronicle :=
  { k with generations := k.generations.modifyLast (· ++ [h]) }

/-- The texts of all generations. -/
def heard : List String := k.generations.flatMap fun g => g.map (·.text)

/-- The faults of all generations. -/
def reports (mark : String) : List Fault := k.generations.flatMap (Generation.reports mark)

/-- The warnings of all generations. -/
def warnings (mark : String) : List Fault := k.generations.flatMap (Generation.warnings mark)

/-- The fault of what made a turn fail under `policy`, if it is one. -/
def closing (policy : RetryPolicy) : Option FailureReason → List Fault
  | some .generationFailed => k.broken.toList.map Turn.generationFault
  | some .checkerUnavailable => [policy.givenUp k.complaint]
  | _ => []

end Chronicle

/-- The chronicle `k` after one more reply `r` to `t`. -/
def Turn.note (base : BaseTree) (t : Turn) (r : Reply) (k : Chronicle) : Chronicle :=
  match t.point, r with
  | .opening, .opened => { k with generations := k.generations ++ [[]] }
  | .tellingChunk _ text, .told => k.hear ⟨base, t.applier, text⟩
  | .reading _, .failed f => { k with broken := some f }
  | .closing (.ended _), .closed => { k with complaint := "" }
  | .checking .., .failed f | .dismissing _ _ f, .rested | .dismissing .., .failed f =>
    { k with complaint := t.config.policy.reason f }
  | _, _ => k

namespace Run

/-- The chronicle `k` after one more move. -/
def note (w : Run) (k : Chronicle) : Move → Chronicle
  | .reply base r => w.turn.note base r k
  | _ => k

/-- The chronicle of the run from `w` on, behind `k`. -/
def chronicleFrom (w : Run) (k : Chronicle) : List Move → Chronicle
  | [] => k
  | m :: moves => (w.step m).chronicleFrom (w.note k m) moves

/-- The chronicle of the run of `moves` from `w` on. -/
def chronicle (w : Run) (moves : List Move) : Chronicle := w.chronicleFrom .new moves

end Run

/-! ## Whole generations -/

namespace Generation

variable (mark : String) (before : List Char)

theorem text_cons (h : Hearing) (g : Generation) : text (h :: g) = h.text.toList ++ text g :=
  List.flatMap_cons

theorem text_concat (g : Generation) (h : Hearing) :
    text (g ++ [h]) = text g ++ h.text.toList := by
  rw [text, List.flatMap_append, List.flatMap_singleton]
  rfl

theorem reportsFrom_concat (g : Generation) (h : Hearing) :
    reportsFrom mark before (g ++ [h]) =
      reportsFrom mark before g ++ h.reports mark (before ++ text g) := by
  induction g generalizing before with
  | nil => simp [reportsFrom, text]
  | cons x g ih =>
    rw [List.cons_append, reportsFrom, ih, reportsFrom, List.append_assoc, List.append_assoc]
    rfl

/-- The refusals of a generation are those of its text, read at once. -/
theorem reportsFrom_escapes (g : Generation) :
    (reportsFrom mark before g).filter (·.name == "PathEscape") =
      ((Parser.closedBehind mark before (text g)).filterMap Outcome.refusal?).map
        Fault.ofRefusal := by
  induction g generalizing before with
  | nil =>
    rw [text, List.flatMap_nil, Parser.closedBehind_nil]
    rfl
  | cons h g ih =>
    rw [reportsFrom, List.filter_append, h.reports_escapes, ih, text_cons,
      Parser.closedBehind_append, List.filterMap_append, List.map_append]
    rfl

end Generation

/-- What made a turn fail is no refusal. -/
theorem Chronicle.closing_escapes (k : Chronicle) (policy : RetryPolicy)
    (reason : Option FailureReason) :
    (k.closing policy reason).filter (·.name == "PathEscape") = [] := by
  refine List.filter_eq_nil_iff.2 fun f hf => ?_
  unfold closing at hf
  split at hf
  · obtain ⟨g, -, rfl⟩ := List.mem_map.1 hf
    exact nofun
  · rw [List.mem_singleton.1 hf]
    exact nofun
  · cases hf

/-- The refusals of all generations are those of their texts, read at once. -/
theorem Chronicle.reports_escapes (k : Chronicle) (mark : String) :
    (k.reports mark).filter (·.name == "PathEscape") = k.generations.flatMap fun g =>
      ((Parser.closed mark (Generation.text g)).filterMap Outcome.refusal?).map
        Fault.ofRefusal := by
  rw [reports, List.filter_flatMap]
  refine congrArg (k.generations.flatMap ·) (funext fun g => ?_)
  rw [Generation.reports, Generation.reportsFrom_escapes, Parser.closedBehind_empty]

/-! ## Minutes -/

/-- The text that an event tells. -/
def Payload.text? : Payload → Option String
  | .chunk text => some text
  | _ => none

/-- What a turn has on record for its report, and the texts that its listeners were told. -/
structure Minutes where
  config : TurnConfig
  errors : List Fault
  warnings : List Fault
  reason : Option FailureReason
  heard : List String

/-- The `Minutes` of `t`. -/
def Turn.minutes (t : Turn) : Minutes :=
  { config := t.config, errors := t.record.errors, warnings := t.record.warnings,
    reason := t.record.reason, heard := t.events.filterMap (·.payload.text?) }

namespace Minutes

variable (m : Minutes) (config : TurnConfig) (k : Chronicle)

/-- That between two streams the minutes tell all of a chronicle. -/
structure Shut : Prop where
  fixed : m.config = config
  errors : m.errors = k.reports config.mark
  warnings : m.warnings = k.warnings config.mark
  reason : m.reason = none
  unbroken : k.broken = none
  heard : m.heard = k.heard

/-- That while a stream is read by `p` the minutes tell all of a chronicle but the warnings of that
    stream, and that `more` texts were told. -/
structure Open (p : Parser) (more : List String) : Prop where
  fixed : m.config = config
  errors : m.errors = k.reports config.mark
  reading : ∃ past g, k.generations = past ++ [g] ∧ p.Drained config.mark (Generation.text g) ∧
    m.warnings = past.flatMap (Generation.warnings config.mark)
  reason : m.reason = none
  unbroken : k.broken = none
  heard : m.heard = k.heard ++ more

/-- That minutes tell all of a chronicle and what made the turn fail, if it did. -/
structure Whole : Prop where
  errors : m.errors = k.reports config.mark ++ k.closing config.policy m.reason
  warnings : m.warnings = k.warnings config.mark
  broken : m.reason = some .generationFailed ↔ k.broken.isSome = true
  heard : m.heard = k.heard

/-- What the minutes of a turn that has not ended tell of a chronicle at a point: nothing where it
    cannot end clean any more, nor fail. -/
def Tell : Point → Prop
  | .idle | .opening | .checking .. | .pausing .. | .dismissing .. | .tellingDiagnostics _ =>
    m.Shut config k
  | .reading p | .tellingPatch p | .closing (.ended p) => m.Open config k p []
  | .tellingChunk p text => m.Open config k p [text]
  | .closing (.raising _) | .over (.raised _) => True
  | _ => False

end Minutes

section Minutes

variable {m : Minutes} {config : TurnConfig} {k : Chronicle} {p : Parser}

/-- Between two streams all is told of a turn that ends for no fault. -/
theorem Minutes.Shut.whole (h : m.Shut config k) {reason : Option FailureReason}
    (hreason : reason ≠ some .generationFailed) (hclosing : k.closing config.policy reason = []) :
    Minutes.Whole { m with reason } config k where
  errors := by
    show m.errors = _ ++ k.closing config.policy reason
    rw [hclosing, List.append_nil, h.errors]
  warnings := h.warnings
  broken := by
    rw [h.unbroken]
    exact ⟨fun he => absurd he hreason, nofun⟩
  heard := h.heard

/-- Between two streams all is told of a turn that gives a check up, with its complaint on
    record. -/
theorem Minutes.Shut.gives_up (h : m.Shut config k) :
    Minutes.Whole
      { m with
        errors := m.errors ++ [config.policy.givenUp k.complaint]
        reason := some .checkerUnavailable } config k where
  errors := by
    show m.errors ++ _ = _ ++ k.closing config.policy (some .checkerUnavailable)
    rw [h.errors]
    rfl
  warnings := h.warnings
  broken := by
    rw [h.unbroken]
    exact ⟨nofun, nofun⟩
  heard := h.heard

/-- A stream is opened. -/
theorem Minutes.Shut.opens (h : m.Shut config k) :
    m.Open config { k with generations := k.generations ++ [[]] } (Parser.ofMark config.mark) [] where
  fixed := h.fixed
  errors := by
    rw [h.errors, Chronicle.reports, Chronicle.reports, List.flatMap_append]
    exact (List.append_nil _).symm
  reading := ⟨k.generations, [], rfl, Parser.drained_ofMark config.mark, h.warnings⟩
  reason := h.reason
  unbroken := h.unbroken
  heard := by
    rw [h.heard, Chronicle.heard, Chronicle.heard, List.flatMap_append]
    simp

/-- A text is told. -/
theorem Minutes.Open.tells (h : m.Open config k p []) (text : String) :
    Minutes.Open { m with heard := m.heard ++ [text] } config k p [text] where
  fixed := h.fixed
  errors := h.errors
  reading := h.reading
  reason := h.reason
  unbroken := h.unbroken
  heard := by
    show m.heard ++ [text] = _
    rw [h.heard, List.append_nil]

/-- **A text is taken**: with its faults on record the minutes tell it, too. -/
theorem Minutes.Open.hears {h : Hearing} (hm : m.Open config k p [h.text]) :
    ∃ before, p.Drained config.mark before ∧
      Minutes.Open { m with errors := m.errors ++ h.reports config.mark before } config (k.hear h)
        (p.feed h.text.toList).parser.drain.1 [] := by
  obtain ⟨past, g, hk, hp, hwarnings⟩ := hm.reading
  have hhear : (k.hear h).generations = past ++ [g ++ [h]] := by
    rw [Chronicle.hear, hk]
    exact List.modifyLast_concat ..
  obtain ⟨-, -, hp'⟩ := hp.feed h.text.toList
  refine ⟨Generation.text g, hp, hm.fixed, ?_, ⟨past, g ++ [h], hhear, ?_, hwarnings⟩, hm.reason,
    hm.unbroken, ?_⟩
  · show m.errors ++ _ = _
    have hreports : Generation.reports config.mark (g ++ [h]) =
        Generation.reports config.mark g ++ h.reports config.mark (Generation.text g) :=
      Generation.reportsFrom_concat config.mark [] g h
    rw [hm.errors, Chronicle.reports, Chronicle.reports, hk, hhear]
    simp only [List.flatMap_append, List.flatMap_singleton, hreports, List.append_assoc]
  · rw [Generation.text_concat]
    exact hp'
  · show m.heard = _
    rw [hm.heard, Chronicle.heard, Chronicle.heard, hk, hhear]
    simp

/-- A stream is left, with its warnings on record. -/
theorem Minutes.Open.closes (h : m.Open config k p []) :
    Minutes.Shut { m with warnings := m.warnings ++ p.finish.warnings.map Warning.toFault }
      config k where
  fixed := h.fixed
  errors := h.errors
  warnings := by
    obtain ⟨past, g, hk, hp, hwarnings⟩ := h.reading
    show m.warnings ++ _ = _
    rw [hwarnings, hp.finish_warned, Chronicle.warnings, hk, List.flatMap_append,
      List.flatMap_singleton]
    rfl
  reason := h.reason
  unbroken := h.unbroken
  heard := by
    show m.heard = _
    rw [h.heard, List.append_nil]

/-- All is told of a turn whose stream broke off, with its warnings and what it broke off with on
    record. -/
theorem Minutes.Open.breaks (h : m.Open config k p []) (f : Failure) :
    Minutes.Whole
      { m with
        errors := m.errors ++ [Turn.generationFault f]
        warnings := m.warnings ++ p.finish.warnings.map Warning.toFault
        reason := some .generationFailed } config { k with broken := some f } where
  errors := by
    show m.errors ++ _ = _
    rw [h.errors]
    rfl
  warnings := h.closes.warnings
  broken := ⟨fun _ => rfl, fun _ => rfl⟩
  heard := h.closes.heard

end Minutes

/-! ## How far a turn is -/

/-- That `r` tells all of the chronicle `k` and what made the turn fail, if it did. -/
structure TurnResult.Covers (r : TurnResult) (config : TurnConfig) (k : Chronicle) : Prop where
  errors : r.errors = k.reports config.mark ++ k.closing config.policy r.reason
  warnings : r.warnings = k.warnings config.mark
  broken : r.reason = some .generationFailed ↔ k.broken.isSome = true
  reason : r.status = .clean → r.reason = none

/-- How far `t` is with its report of `k`: it is underway, was cancelled, or has ended. -/
inductive Reported (config : TurnConfig) (k : Chronicle) (t : Turn) : Prop
  | underway (hs : t.status.isTerminal = false) (h : t.minutes.Tell config k t.point)
  | cancelled (hs : t.status = .cancelled)
  | ended (hs : t.status.isTerminal = true) {r : TurnResult} (hr : t.result = some r)
    (hstatus : r.status = t.status) (heard : t.minutes.heard = k.heard) (h : r.Covers config k)

namespace Turn

theorem minutes_emit (t : Turn) (payload : Payload) :
    (t.emit payload).minutes =
      { t.minutes with heard := t.minutes.heard ++ payload.text?.toList } := by
  simp only [minutes, emit, List.filterMap_append]
  cases payload <;> rfl

/-- What is told and is not a text of the agent leaves the minutes alone. -/
theorem minutes_emit_of_no_text (t : Turn) {payload : Payload} (h : payload.text? = none)
    (p : Point) : ((t.emit payload).waitAt p).minutes = t.minutes := by
  show (t.emit payload).minutes = t.minutes
  rw [minutes_emit, h, Option.toList_none, List.append_nil]

section Steps

variable {config : TurnConfig} {k : Chronicle} {t : Turn}

/-! ## The end -/

theorem finish_reports (ht : t.status.isTerminal = true) (h : t.minutes.Whole config k)
    (hreason : t.status = .clean → t.record.reason = none) (frame : Frame) :
    Reported config k (t.finish frame) := by
  refine .ended ht rfl rfl ?_ ⟨h.errors, h.warnings, h.broken, hreason⟩
  have hminutes : (t.finish frame).minutes = t.minutes := minutes_emit_of_no_text _ (by rfl) _
  rw [hminutes, h.heard]

theorem fail_reports (ha : t.Active) {reason : FailureReason}
    (h : Minutes.Whole { t.minutes with reason := some reason } config k) (frame : Frame) :
    Reported config k (t.fail reason frame) := by
  rw [ha.fail_eq]
  exact finish_reports rfl (by exact h) (by nofun) frame

theorem finishCancelled_reports (ha : t.Active) (frame : Frame) :
    Reported config k (t.finishCancelled frame) := by
  rw [ha.finishCancelled_eq]
  exact .cancelled rfl

/-- A failure that nothing has caught ends an active turn as cancelled, or running without an end
    of the turn. -/
theorem abort_reports (ha : t.Active) (f : Failure) : Reported config k (t.abort f) := by
  by_cases hf : f = .cancelled
  · rw [hf, abort_cancelled ha]
    exact finishCancelled_reports ha .handler
  · rw [abort_of_ne hf]
    exact .underway ha.not_terminal trivial

/-! ## Checking -/

theorem callCheck_reports (ha : t.Active) (h : t.minutes.Shut config k) (request : Snapshot)
    (failed : Nat) : Reported config k (t.callCheck request failed) := by
  unfold callCheck
  split <;> exact .underway ha.not_terminal h

theorem giveUpCheck_reports (ha : t.Active) (h : t.minutes.Shut config k) :
    Reported config k (t.giveUpCheck k.complaint) := by
  refine fail_reports (by exact ha) ?_ .loop
  have hpolicy : t.config.policy = config.policy := congrArg TurnConfig.policy h.fixed
  show Minutes.Whole { t.minutes with
    errors := t.minutes.errors ++ [t.config.policy.givenUp k.complaint]
    reason := some .checkerUnavailable } config k
  rw [hpolicy]
  exact h.gives_up

theorem tryCheck_reports (ha : t.Active) (h : t.minutes.Shut config k) (request : Snapshot)
    (failed : Nat) : Reported config k (t.tryCheck request failed k.complaint) := by
  unfold tryCheck
  dsimp only
  split
  · split
    · exact callCheck_reports (by exact ha) (by exact h) request failed
    · split
      · exact abort_reports (by exact ha) _
      · exact .underway ha.not_terminal h
  · exact giveUpCheck_reports ha h

theorem beginCheck_reports (ha : t.Active) (h : t.minutes.Shut config k) (hk : k.complaint = "") :
    Reported config k t.beginCheck := by
  unfold beginCheck
  dsimp only
  split
  · refine fail_reports (by exact ha) ?_ .loop
    exact h.whole (by nofun) rfl
  · rw [← hk]
    exact tryCheck_reports (by exact ha) (by exact h) _ 0

theorem takeProblems_reports (ha : t.Active) (h : t.minutes.Shut config k) (ps : List Problem) :
    Reported config k (t.takeProblems ps) := by
  unfold takeProblems
  dsimp only
  split
  · exact finishCancelled_reports ha .loop
  · refine .underway ha.not_terminal ?_
    rw [minutes_emit_of_no_text _ rfl]
    exact h

/-- A try of a check that fails is what the turn complains of. -/
theorem takeFailure_reports (ha : t.Active) (h : t.minutes.Shut config k) (request : Snapshot)
    (failed : Nat) (f : Failure) :
    Reported config { k with complaint := t.config.policy.reason f }
      (t.takeReply request failed (.failed f)) := by
  have h' : t.minutes.Shut config { k with complaint := t.config.policy.reason f } :=
    ⟨h.fixed, h.errors, h.warnings, h.reason, h.unbroken, h.heard⟩
  by_cases hf : f = .cancelled
  · rw [hf]
    exact abort_reports ha .cancelled
  · have hafter : t.config.policy.after (.failed f) = .failed (t.config.policy.reason f) := by
      cases f with
      | cancelled => exact absurd rfl hf
      | _ => rfl
    rw [takeReply, hafter]
    exact tryCheck_reports (by exact ha) (by exact h') request (failed + 1)

/-! ## Streaming -/

theorem readOn_reports (ha : t.Active) {p : Parser} (h : t.minutes.Open config k p []) :
    Reported config k (t.readOn p) := by
  unfold readOn
  split
  · exact finishCancelled_reports ha .stream
  · exact .underway ha.not_terminal h

/-- The agent has ended, and what its parser warns about goes on record. -/
theorem endStream_reports (hs : t.status = .streaming) {p : Parser}
    (h : t.minutes.Open config k p []) :
    Reported config { k with complaint := "" } (t.endStream p) := by
  obtain ⟨hfixed, herrors, hwarnings, hreason, hunbroken, hheard⟩ := h.closes
  unfold endStream
  dsimp only
  split
  · exact finishCancelled_reports (.inl (by exact hs)) .loop
  · rw [moveTo_of_status (by exact hs) rfl]
    exact beginCheck_reports (.inr rfl)
      ⟨hfixed, herrors, hwarnings, hreason, hunbroken, hheard⟩ rfl

/-- The agent broke off: what its parser warns about goes on record all the same. -/
theorem breakStream_reports (ha : t.Active) {p : Parser} (h : t.minutes.Open config k p [])
    (f : Failure) :
    Reported config { k with broken := some f } (t.breakStream p f) := by
  refine fail_reports (by exact ha) ?_ .stream
  exact h.breaks f

/-- The directives of a text, if there are any, are applied, and their faults go on record. -/
theorem applyParsed_reports (ha : t.Active) {base : BaseTree} {p : Parser} {ds : List Parsed}
    (h : Minutes.Open
      { t.minutes with
        errors := t.minutes.errors ++ (lostOf (t.applier.effects base
          (Applier.batchOrder (ds.map (·.directive))))).map lostFault } config k p []) :
    Reported config k (t.applyParsed base p ds) := by
  have htells := (Applier.applyBatch_tells base t.config.session t.applier (ds.map .parsed)).1
  rw [Applier.given, Item.filterMap_parsed] at htells
  have herrors := htells.errors
  unfold applyParsed
  generalize t.applier.applyBatch base t.config.session (ds.map .parsed) = r at herrors ⊢
  obtain ⟨a, b⟩ := r
  dsimp only at herrors ⊢
  cases b.stopped with
  | some f => exact .underway ha.not_terminal trivial
  | none =>
    rw [← herrors] at h
    dsimp only
    split
    · refine .underway ha.not_terminal ?_
      rw [minutes_emit_of_no_text _ rfl]
      exact h
    · exact readOn_reports (by exact ha) (by exact h)

/-- **A text that was told is taken with all its faults**: behind `takeText` the turn is `Reported`
    with it. -/
theorem takeText_reports (ha : t.Active) {base : BaseTree} {p : Parser} {text : String}
    (h : t.minutes.Open config k p [text]) :
    Reported config (k.hear ⟨base, t.applier, text⟩) (t.takeText base p text) := by
  obtain ⟨before, hp, hhears⟩ := @Minutes.Open.hears _ _ _ _ ⟨base, t.applier, text⟩ h
  obtain ⟨hout, hrefusals, -⟩ := hp.feed text.toList
  unfold takeText
  dsimp only at hhears ⊢
  generalize p.feed text.toList = fed at hout hrefusals hhears ⊢
  split
  · exact .underway ha.not_terminal trivial
  · split
    · rename_i hnone
      rw [hout] at hnone
      have hlost : Hearing.lost config.mark before ⟨base, t.applier, text⟩ = [] :=
        Hearing.lost_eq_nil hnone
      rw [Hearing.reports, hlost, Hearing.closed, ← hrefusals, List.map_nil,
        List.append_nil] at hhears
      exact readOn_reports (by exact ha) (by exact hhears)
    · rw [Hearing.reports, Hearing.lost, Hearing.closed, ← hrefusals, ← hout,
        ← List.append_assoc] at hhears
      exact applyParsed_reports (by exact ha) (by exact hhears)

/-! ## Judging -/

theorem repair_reports (hs : t.status = .checking) (h : t.minutes.Shut config k)
    (problems : List Problem) : Reported config k (t.repair problems) := by
  rw [repair_eq hs]
  cases repairDigest t.config.digestLimit problems with
  | ok digest => exact .underway rfl h
  | error f => exact .underway rfl trivial

theorem judged_reports (hs : t.status = .checking) (h : t.minutes.Shut config k)
    (problems : List Problem) : Reported config k (t.judged problems) := by
  unfold judged
  split
  · rw [moveTo_of_status hs rfl]
    refine finish_reports (by rfl) ?_ (fun _ => by exact h.reason) .loop
    have hnone : t.record.reason = none := h.reason
    refine h.whole ?_ (congrArg (k.closing config.policy) hnone)
    exact hnone ▸ nofun
  · split
    · exact repair_reports hs h problems
    · refine fail_reports (.inr (by exact hs)) ?_ .loop
      exact h.whole (by nofun) rfl

/-! ## One reply -/

/-- After the end nothing more is noted. -/
theorem note_of_terminal (hplaced : t.Placed) (ht : t.status.isTerminal = true) (base : BaseTree)
    (r : Reply) : t.note base r k = k := by
  have hactive : ¬t.Active := fun ha => absurd (ha.not_terminal.symm.trans ht) nofun
  unfold note
  cases hp : t.point with
  | opening | reading | tellingChunk => exact absurd (.inl (hplaced.admits hp)) hactive
  | checking | dismissing => exact absurd (.inr (hplaced.admits hp)) hactive
  | closing why =>
    cases why with
    | ended => exact absurd (.inl (hplaced.admits hp)) hactive
    | _ => rfl
  | _ => rfl

/-- What is not awaited is not noted. -/
theorem note_of_not_awaited {r : Reply} (h : t.point.awaits r = false) (base : BaseTree) :
    t.note base r k = k := by
  unfold note
  split <;> try rfl
  all_goals
    rw [‹t.point = _›] at h
    cases h

/-- A reply to a turn that has not ended. -/
theorem Takes.reports {u : Turn} {base : BaseTree} {r : Reply} (hu : t.Takes base r u)
    (hs : t.status.isTerminal = false) (h : t.minutes.Tell config k t.point)
    (hplaced : t.Placed) : Reported config (t.note base r k) u := by
  have hidle (hr : t.point.awaits r = false) : t.note base r k = k := note_of_not_awaited hr base
  unfold note at hidle ⊢
  cases hu with
  | unawaited hr =>
    rw [hidle hr]
    exact .underway hs h
  | opened hp =>
    rw [hp] at h ⊢
    have hmark : t.config.mark = config.mark := congrArg TurnConfig.mark h.fixed
    show Reported config _ (t.readOn (Parser.ofMark t.config.mark))
    rw [hmark]
    exact readOn_reports (.inl (hplaced.admits hp)) h.opens
  | heard hp text =>
    rw [hp] at h ⊢
    refine .underway hs ?_
    show ((t.emit (.chunk text)).minutes).Open config k _ [text]
    rw [minutes_emit]
    exact h.tells text
  | ended hp =>
    rw [hp] at h ⊢
    exact .underway hs h
  | broken hp =>
    rw [hp] at h ⊢
    exact breakStream_reports (.inl (hplaced.admits hp)) h _
  | interrupted hp | textUntold hp | patchUntold hp =>
    -- from here on the turn can only be cancelled or be left by a failure
    rw [hp]
    exact .underway hs trivial
  | textTold hp =>
    rw [hp] at h ⊢
    exact takeText_reports (.inl (hplaced.admits hp)) h
  | patchTold hp =>
    rw [hp] at h ⊢
    exact readOn_reports (.inl (hplaced.admits hp)) h
  | closed hp =>
    rw [hp] at h ⊢
    exact endStream_reports (hplaced.admits hp) h
  | checked hp ps =>
    rw [hp] at h ⊢
    exact takeProblems_reports (.inr (hplaced.admits hp)) h ps
  | unchecked hp | dismissed hp | undismissed hp =>
    rw [hp] at h ⊢
    exact takeFailure_reports (.inr (hplaced.admits hp)) h _ _ _
  | rested hp =>
    rw [hp] at h ⊢
    exact callCheck_reports (.inr (hplaced.admits hp)) h _ _
  | problemsTold hp =>
    rw [hp] at h ⊢
    exact judged_reports (hplaced.admits hp) h _
  -- a failure goes through
  | unopened hp f =>
    rw [hp]
    exact abort_reports (.inl (hplaced.admits hp)) f
  | unrested hp f | problemsUntold hp f =>
    rw [hp]
    exact abort_reports (.inr (hplaced.admits hp)) f
  | raised hp | unclosed hp =>
    have ha : t.Active := (hplaced.of_closing hp).resolve_right (by rw [hs]; nofun)
    rw [hp]
    exact abort_reports ha _
  -- the turn would have ended
  | settled hp | endTold hp | endUntold hp =>
    have ht : t.status.isTerminal = true := hplaced.admits hp
    exact absurd (hs.symm.trans ht) nofun

/-- **A reply `r` keeps a turn with its report**: what it adds to the chronicle `k` goes on
    record. -/
theorem advance_reports (h : Reported config k t) (hplaced : t.Placed) (base : BaseTree)
    (r : Reply) : Reported config (t.note base r k) (t.advance base r) := by
  have hcourse (ht : t.status.isTerminal = true) : (t.advance base r).course = t.course :=
    (advance_next hplaced base r).course_of_terminal hplaced ht
  cases h with
  | underway hs h => exact (takes_advance base t r).reports hs h hplaced
  | cancelled hs =>
    have ht : t.status.isTerminal = true := by rw [hs]; rfl
    exact .cancelled ((congrArg Course.status (hcourse ht)).trans hs)
  | ended ht hr hstatus hheard h =>
    have hc := hcourse ht
    have hs : (t.advance base r).status = t.status := congrArg Course.status hc
    have hevents : (t.advance base r).events = t.events := congrArg Course.events hc
    rw [note_of_terminal hplaced ht]
    refine .ended (hs ▸ ht) ((congrArg Course.result hc).trans hr) (hstatus.trans hs.symm) ?_ h
    rw [← hheard, minutes, hevents]
    rfl

end Steps

end Turn

/-! ## Runs -/

namespace Run

variable {config : TurnConfig} {k : Chronicle} {w : Run} {m : Move}

/-- The owner of a turn adds nothing to its report, unless something is replayed. -/
theorem step_minutes (hreply : ∀ base r, m ≠ .reply base r)
    (hreplay : ∀ base log, m ≠ .replay base log) :
    (w.step m).turn.minutes = w.turn.minutes ∧ (w.step m).turn.result = w.turn.result := by
  cases m with
  | start prompt =>
    simp only [step, Turn.start]
    cases w.turn.point <;> exact ⟨rfl, rfl⟩
  | reply base r => exact absurd rfl (hreply base r)
  | cancel =>
    simp only [step, Turn.cancel]
    split <;> exact ⟨rfl, rfl⟩
  | replay base log => exact absurd rfl (hreplay base log)
  | discard => exact ⟨rfl, rfl⟩
  | handOver force =>
    rcases w.step_handOver force with ⟨o, -, hw⟩ | hw <;> rw [hw] <;> exact ⟨rfl, rfl⟩
  | committed index outcome =>
    simp only [step]
    split
    · cases outcome <;> exact ⟨rfl, rfl⟩
    · exact ⟨rfl, rfl⟩

/-- **A move `m` keeps a turn with its report**, unless something is replayed. -/
theorem step_reports (h : Reported config k w.turn) (hplaced : w.turn.Placed)
    (hm : ∀ base log, m ≠ .replay base log) :
    Reported config (w.note k m) (w.step m).turn := by
  by_cases hreply : ∃ base r, m = .reply base r
  · obtain ⟨base, r, rfl⟩ := hreply
    exact Turn.advance_reports h hplaced base r
  · have howner : ∀ base r, m ≠ .reply base r := fun base r he => hreply ⟨base, r, he⟩
    have hnote : w.note k m = k := by
      cases m with
      | reply base r => exact absurd rfl (howner base r)
      | _ => rfl
    obtain ⟨hminutes, hresult⟩ := step_minutes (w := w) howner hm
    obtain ⟨hstatus, hpoint⟩ := step_of_owner (w := w) howner
    rw [hnote]
    cases h with
    | underway hs h =>
      refine .underway (hstatus ▸ hs) ?_
      rw [hminutes]
      rcases hpoint with hp | ⟨hidle, hp⟩ <;> rw [hp]
      · exact h
      · rw [hidle] at h
        exact h
    | cancelled hs => exact .cancelled (hstatus.trans hs)
    | ended ht hr hs hheard h =>
      exact .ended (hstatus ▸ ht) (hresult.trans hr) (hs.trans hstatus.symm)
        ((congrArg Minutes.heard hminutes).trans hheard) h

theorem after_reports {moves : List Move} (hmoves : ∀ base log, .replay base log ∉ moves)
    (h : Reported config k w.turn) (hplaced : w.turn.Placed) :
    Reported config (w.chronicleFrom k moves) (w.after moves).turn := by
  -- on the moves from the front; the chronicle grows by what each of them adds
  induction moves generalizing w k with
  | nil => exact h
  | cons m moves ih =>
    have hm := step_reports h hplaced fun base log he => hmoves base log (he ▸ List.mem_cons_self)
    exact ih (fun base log he => hmoves base log (List.mem_cons_of_mem m he)) hm
      (placed_step hplaced m)

/-- **A turn reports everything.** Whatever the agent writes and however its streams are cut and
    break off, whatever the type checker answers, listeners fail and the owner does but to replay:
    the result `r` of a turn that ends clean or fails has on its list of errors, in the order in
    which they came up, the refusals and the renames without a source of every text of every
    generation in the chronicle `k` and nothing else but, at the end, the fault of the stream or of
    the type checker that made the turn fail. The refusals of a generation are those of its text,
    read at once. The warnings are those of the generations one behind the other, with that of the
    tag which was open at the end of each. The texts are all that the listeners were told. -/
theorem result_reports_all {maxAttempts : Int} {t : Turn}
    (ht : Turn.new? config maxAttempts = some t) {moves : List Move}
    (hmoves : ∀ base log, .replay base log ∉ moves)
    (hend : ((new t).after moves).turn.status = .clean ∨
      ((new t).after moves).turn.status = .failed) :
    let u := ((new t).after moves).turn
    let k := (new t).chronicle moves
    ∃ r, u.result = some r ∧ r.status = u.status ∧
      r.errors = k.generations.flatMap (Generation.reports config.mark) ++
        k.closing config.policy r.reason ∧
      (r.reason = some .generationFailed ↔ k.broken.isSome = true) ∧
      (r.status = .clean → r.reason = none) ∧
      r.errors.filter (·.name == "PathEscape") = k.generations.flatMap (fun g =>
        ((Parser.closed config.mark (Generation.text g)).filterMap Outcome.refusal?).map
          Fault.ofRefusal) ∧
      r.warnings = k.generations.flatMap (Generation.warnings config.mark) ∧
      u.events.filterMap (·.payload.text?) = k.heard := by
  intro u k
  have hplaced : (new t).turn.Placed := (new_waits ht).placed
  have hnew : Reported config .new (new t).turn := by
    obtain ⟨budget, -, rfl⟩ := Option.map_eq_some_iff.1 ht
    exact .underway rfl ⟨rfl, rfl, rfl, rfl, rfl, rfl⟩
  have hreported : Reported config k u := after_reports hmoves hnew hplaced
  have hterminal : u.status.isTerminal = true := by
    rcases hend with hs | hs <;> rw [show u.status = _ from hs] <;> rfl
  cases hreported with
  | underway hs => exact absurd (hs.symm.trans hterminal) nofun
  | cancelled hs =>
    have hs' : u.status = .clean ∨ u.status = .failed := hend
    rw [hs] at hs'
    rcases hs' with hs' | hs' <;> cases hs'
  | ended _ hr hstatus hheard h =>
    refine ⟨_, hr, hstatus, h.errors, h.broken, h.reason, ?_, h.warnings, hheard⟩
    rw [h.errors, List.filter_append, k.closing_escapes, List.append_nil, k.reports_escapes]

end Run

/-! ## A stream that breaks off -/

/-- A delete tag whose path climbs out of the project, and the beginning of a write tag. -/
def Parser.escapeText : String := "<pl-delete path=\"../x\"/><pl-wr"

/-- What the delete tag is refused for. -/
def Parser.escape : PathRefusal := ⟨"../x", .climbsOut⟩

/-- A parser that has read the tags. -/
def Parser.behindEscape : Parser :=
  { behindTags escapeText 24 with mode := .naming 24, refusals := [escape] }

theorem Parser.feed_escapeText : (ofMark "pl").feed escapeText.toList =
    ⟨behindEscape, [.refused .delete 0 24 escape], none⟩ := by
  have hdelete : ((ofMark "pl").grow escapeText.toList).pass =
      .again (behindTags escapeText 24) (some (.refused .delete 0 24 escape)) := by
    cbv
  have hwait : (behindTags escapeText 24).pass =
      .wait { behindTags escapeText 24 with mode := .naming 24 } := by
    cbv
  rw [feed_ofMark, advance_of_again hdelete, advance_of_wait hwait]
  rfl

theorem Parser.unterminated?_behindEscape :
    behindEscape.unterminated? = some ⟨"pl-wr", .unterminated, 24, 30⟩ := by
  cbv

section EscapeText

variable (base : BaseTree) (a : Applier)

theorem Generation.reports_escapeText :
    Generation.reports "pl" [⟨base, a, Parser.escapeText⟩] =
      [.pathEscape "../x" PathFlaw.climbsOut.reason] := by
  have hclosed : Hearing.closed "pl" [] ⟨base, a, Parser.escapeText⟩ =
      [.refused .delete 0 24 Parser.escape] :=
    (Parser.closedBehind_empty "pl" _).trans (congrArg Fed.outcomes Parser.feed_escapeText)
  have hlost : Hearing.lost "pl" [] ⟨base, a, Parser.escapeText⟩ = [] :=
    Hearing.lost_eq_nil (by rw [hclosed]; rfl)
  rw [reports, reportsFrom, reportsFrom, Hearing.reports, hclosed, hlost]
  rfl

theorem Generation.warnings_escapeText :
    Generation.warnings "pl" [⟨base, a, Parser.escapeText⟩] =
      [.malformed "pl-wr" TagFlaw.unterminated.reason 24 30] := by
  have htext : Generation.text [⟨base, a, Parser.escapeText⟩] = Parser.escapeText.toList :=
    List.append_nil _
  rw [warnings, htext, Parser.warned, Parser.closed, Parser.feed_escapeText,
    Parser.unterminated?_behindEscape]
  rfl

end EscapeText

namespace Run

/-- The stream breaks off behind a text that closes a tag with a path out of the project and leaves
    another one open. -/
theorem broken_stream_reports :
    let policy : RetryPolicy := ⟨1, .real (.finite false 120 0), .whole 0⟩
    let config : TurnConfig := ⟨"session", "turn", "pl", none, policy, 50⟩
    let moves : List Move := [.start "go", .reply default .opened,
      .reply default (.chunk Parser.escapeText), .reply default .told,
      .reply default (.failed (.other "RuntimeError" "lost"))]
    ∃ t, Turn.new? config 2 = some t ∧ (∀ base log, .replay base log ∉ moves) ∧
      ((new t).after moves).turn.status = .failed ∧
      ∃ r, ((new t).after moves).turn.result = some r ∧
        r.errors = [.pathEscape "../x" PathFlaw.climbsOut.reason,
          Turn.generationFault (.other "RuntimeError" "lost")] ∧
        r.warnings = [.malformed "pl-wr" TagFlaw.unterminated.reason 24 30] := by
  intro policy config moves
  obtain ⟨t, hnew⟩ : ∃ t, Turn.new? config 2 = some t := ⟨_, rfl⟩
  have hmoves : ∀ base log, .replay base log ∉ moves := by simp [moves]
  let hearing : Hearing := ⟨default, Applier.empty, Parser.escapeText⟩
  have hrun : ((new t).after moves).turn.status = .failed ∧
      (new t).chronicle moves = ⟨[[hearing]], some (.other "RuntimeError" "lost"), ""⟩ := by
    cases hnew
    -- all but what the text comes to is evaluated
    show (Turn.advance default (Turn.takeText default _ (Parser.ofMark "pl") Parser.escapeText)
        (.failed (.other "RuntimeError" "lost"))).status = _ ∧
      Turn.note default (Turn.takeText default _ (Parser.ofMark "pl") Parser.escapeText)
        (.failed (.other "RuntimeError" "lost")) ⟨[[hearing]], none, ""⟩ = _
    rw [Turn.takeText_of_read Parser.feed_escapeText]
    exact ⟨rfl, rfl⟩
  obtain ⟨hfailed, hchronicle⟩ := hrun
  obtain ⟨r, hr, -, herrors, hbroken, -, -, hwarnings, -⟩ :=
    result_reports_all hnew hmoves (.inr hfailed)
  rw [hchronicle] at herrors hbroken hwarnings
  rw [hbroken.2 rfl] at herrors
  refine ⟨t, hnew, hmoves, hfailed, r, hr, herrors.trans ?_, hwarnings.trans ?_⟩
  · show Generation.reports "pl" [hearing] ++ [] ++ _ = _
    rw [Generation.reports_escapeText]
    rfl
  · show Generation.warnings "pl" [hearing] ++ [] = _
    rw [Generation.warnings_escapeText]
    rfl

end Run

end StagedEdits
