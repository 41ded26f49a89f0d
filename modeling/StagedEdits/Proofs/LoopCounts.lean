import StagedEdits.Proofs.CancelRequest
import StagedEdits.Proofs.TurnGauge

set_option autoImplicit false

/-! # The counts of a turn agree

A turn counts its repairs twice, in its record and in its budget, its checks in the budget and its
calls of the type checker beside; each check counts the tries that failed. These numbers agree
wherever the turn waits, and none is above what the budget and the retry policy allow. What a turn
has to say in the end goes by the last answer of the type checker.

Main definitions: `Gauge.Adds`, `Counted` (the numbers), `Judged` (what the turn ends on). Main
statements: `Counted.tick`, `Judged.tick` (one reply). -/

namespace StagedEdits

/-! ## Budgets and tries -/

namespace Budget

variable {b : Budget}

theorem canRepair_iff : b.canRepair = true ↔ b.attemptsUsed < b.maxAttempts := by
  rw [canRepair, attemptsLeft, decide_eq_true_iff]
  omega

theorem useCheck_of_lt (h : b.checksUsed < b.maxChecks) : b.useCheck =
    ({ b with checksUsed := b.checksUsed + 1, uses := b.uses ++ [.check] }, true) := by
  rw [useCheck, if_neg (by omega)]

/-- **A repair that there is room for is not refused**: by `canRepair`, `useRepair` takes one
    attempt and enters it. -/
theorem useRepair_of_canRepair (h : b.canRepair = true) (problems : Int) : b.useRepair problems =
    ({ b with
      attemptsUsed := b.attemptsUsed + 1
      uses := b.uses ++ [.repair problems] }, true) := by
  have hlt := canRepair_iff.1 h
  rw [useRepair, if_neg (by omega)]

end Budget

theorem RetryPolicy.allows_iff {p : RetryPolicy} {failed : Nat} :
    p.allows failed = true ↔ failed < (p.maxRetries + 1).toNat := by
  rw [allows, decide_eq_true_iff]
  omega

/-! ## Points -/

namespace Point

/-- What the type checker was asked at a point and has not answered yet. -/
def asked : Point → List Snapshot
  | .checking request _ => [request]
  | _ => []

/-- How many tries of the check that is on have failed. -/
def failed? : Point → Option Nat
  | .checking _ failed | .pausing _ failed | .dismissing _ failed _ => some failed
  | _ => none

/-- How many streams a turn at a point has asked for beyond those of its repairs. -/
def streams : Point → Nat
  | .idle => 0
  | _ => 1

theorem streams_le (p : Point) : p.streams ≤ 1 := by
  cases p with
  | idle => exact Nat.zero_le _
  | _ => exact Nat.le_refl _

theorem streams_of_awaits {p : Point} {r : Reply} (h : p.awaits r = true) : p.streams = 1 := by
  cases p with
  | idle => cases h
  | _ => rfl

theorem of_isQuiet {p : Point} (h : p.isQuiet = true) :
    p.asked = [] ∧ p.failed? = none ∧ p.streams = 1 ∧ ∀ ps, p ≠ .tellingDiagnostics ps := by
  cases p with
  | reading | tellingChunk | tellingPatch | closing => exact ⟨rfl, rfl, rfl, nofun⟩
  | «over» => exact ⟨rfl, rfl, rfl, nofun⟩
  | _ => cases h

end Point

namespace Turn

/-- Where no question is open nothing is answered. -/
theorem answer?_of_no_question {t : Turn} {r : Reply} (h : t.point.request? = none) :
    t.answer? r = none := by
  unfold answer?
  cases hp : t.point with
  | checking =>
    rw [hp] at h
    cases h
  | _ => rfl

/-- Only while it is checked is anything answered to a turn. -/
theorem answer?_of_not_checking {t : Turn} (h : t.Placed) (hs : t.status ≠ .checking) (r : Reply) :
    t.answer? r = none := by
  unfold answer?
  cases hp : t.point with
  | checking => exact absurd (h.admits hp) hs
  | _ => rfl

/-- A reply that is awaited answers the open question, if there is one. -/
theorem answered {t : Turn} {r : Reply} (h : t.point.awaits r = true) :
    (t.answer? r).toList.map Prod.fst = t.point.asked := by
  unfold answer?
  cases hp : t.point with
  | checking request failed =>
    rw [hp] at h
    cases r <;> first | rfl | cases h
  | _ => rfl

end Turn

/-! ## The numbers -/

/-- That the numbers of `k` agree and are within their bounds. -/
structure Gauge.Adds (k : Gauge) : Prop where
  /-- The repairs, in the record and in the budget. -/
  repairs : k.attempt = k.budget.attemptsUsed
  bounded : k.attempt ≤ k.budget.maxAttempts
  /-- Before its check a generation is one check behind. -/
  streaming : k.status = .streaming → k.budget.checksUsed = k.attempt
  checking : k.status = .checking → k.budget.checksUsed = k.attempt + 1
  checks : k.attempt ≤ k.budget.checksUsed ∧ k.budget.checksUsed ≤ k.attempt + 1
  calls : k.checkCalls = k.requests.length
  /-- Each check calls the type checker as often as it is tried at most. -/
  tried : k.checkCalls ≤ k.budget.checksUsed * k.tries
  result : ∀ r, k.result = some r → k.status.isTerminal = true ∧ k.Reports r

/-- That the check that is on at `p` can be tried as often as the tries that failed leave. -/
def Gauge.Room (k : Gauge) (p : Point) : Prop :=
  ∀ n, p.failed? = some n →
    n < k.tries ∧ k.checkCalls + k.tries ≤ k.budget.checksUsed * k.tries + n + p.asked.length

/-- That the numbers of `k` agree with one another, with the point `p` where the turn waits and with
    `answers`, what the type checker answered. -/
structure Counted (k : Gauge) (p : Point) (answers : List Answer) : Prop extends k.Adds where
  /-- A generation was asked for at first, and one by each repair that has a digest. -/
  streams : k.prompts.length ≤ k.attempt + p.streams
  room : k.Room p
  asked : k.requests = answers.map Prod.fst ++ p.asked

namespace Gauge

variable {k k' : Gauge} {request : Snapshot} {failed : Nat} {p : Point}

/-- A turn that ends counts nothing more. -/
theorem Adds.ends {s : TurnStatus} {reason : Option FailureReason} (h : k.Adds)
    (hs : s.isTerminal = true) (he : k.Ends s reason k') : k'.Adds := by
  obtain ⟨hr⟩ := he
  refine ⟨h.repairs, h.bounded, fun hs' => ?_, fun hs' => ?_, h.checks, h.calls, h.tried,
    fun r h' => ?_⟩
  · rw [show s = .streaming from hs'] at hs
    cases hs
  · rw [show s = .checking from hs'] at hs
    cases hs
  · cases h'
    exact ⟨hs, hr.status, hr.reason, hr.diagnostics, hr.attempts, hr.checkCalls⟩

theorem Ends.same {s : TurnStatus} {reason : Option FailureReason} (he : k.Ends s reason k') :
    k'.attempt = k.attempt ∧ k'.prompts = k.prompts ∧ k'.requests = k.requests := by
  obtain ⟨-⟩ := he
  exact ⟨rfl, rfl, rfl⟩

/-- A call is one more, and there is one try less to come. -/
theorem Adds.calls_room (h : k.Adds) (hs : k.status = .checking) (hn : failed < k.tries)
    (hroom : k.checkCalls + k.tries ≤ k.budget.checksUsed * k.tries + failed)
    (hc : k.Calls request failed k' p) : k'.Adds ∧ k'.Room p := by
  cases hc with
  | dismisses =>
    refine ⟨h, fun n hn' => ?_⟩
    cases hn'
    exact ⟨hn, hroom⟩
  | asks =>
    refine ⟨⟨h.repairs, h.bounded, h.streaming, h.checking, h.checks, ?_, ?_, fun r hr => ?_⟩,
      fun n hn' => ?_⟩
    · simp [h.calls]
    · show k.checkCalls + 1 ≤ k.budget.checksUsed * k.tries
      omega
    · have hterminal := (h.result r hr).1
      rw [hs] at hterminal
      cases hterminal
    · cases hn'
      refine ⟨hn, ?_⟩
      show k.checkCalls + 1 + k.tries ≤ k.budget.checksUsed * k.tries + failed + 1
      omega

theorem Calls.same (hc : k.Calls request failed k' p) :
    k'.attempt = k.attempt ∧ k'.prompts = k.prompts ∧ k'.requests = k.requests ++ p.asked ∧
      p.streams = 1 := by
  cases hc with
  | asks => exact ⟨rfl, rfl, rfl, rfl⟩
  | dismisses => exact ⟨rfl, rfl, (List.append_nil _).symm, rfl⟩

theorem Adds.tries_room (h : k.Adds) (hs : k.status = .checking)
    (hroom : failed < k.tries → k.checkCalls + k.tries ≤ k.budget.checksUsed * k.tries + failed)
    (ht : k.Tries request failed k' p) : k'.Adds ∧ k'.Room p := by
  cases ht with
  | calls ha hc =>
    have hn : failed < k.tries := RetryPolicy.allows_iff.1 ha
    exact h.calls_room hs hn (hroom hn) hc
  | pauses ha =>
    have hn : failed < k.tries := RetryPolicy.allows_iff.1 ha
    refine ⟨h, fun n hn' => ?_⟩
    cases hn'
    exact ⟨hn, hroom hn⟩
  | overflows => exact ⟨h, nofun⟩
  | givesUp _ he => exact ⟨h.ends rfl he, nofun⟩

theorem Tries.same (ht : k.Tries request failed k' p) :
    k'.attempt = k.attempt ∧ k'.prompts = k.prompts ∧ k'.requests = k.requests ++ p.asked ∧
      p.streams = 1 := by
  cases ht with
  | calls _ hc => exact hc.same
  | pauses | overflows => exact ⟨rfl, rfl, (List.append_nil _).symm, rfl⟩
  | givesUp _ he =>
    obtain ⟨hattempt, hprompts, hrequests⟩ := he.same
    exact ⟨hattempt, hprompts, hrequests.trans (List.append_nil _).symm, rfl⟩

end Gauge

/-! ## One reply -/

/-- That the numbers of `k` agree, the turn having asked for streams and having no question open. -/
structure Tallied (k : Gauge) (answers : List Answer) : Prop extends k.Adds where
  streams : k.prompts.length ≤ k.attempt + 1
  asked : k.requests = answers.map Prod.fst

/-- A reply that is awaited settles the open question. -/
theorem Counted.settled {t : Turn} {r : Reply} {answers : List Answer}
    (h : Counted t.gauge t.point answers) (ha : t.point.awaits r = true) :
    Tallied t.gauge (answers ++ (t.answer? r).toList) := by
  refine ⟨h.toAdds, ?_, ?_⟩
  · exact Point.streams_of_awaits ha ▸ h.streams
  · rw [List.map_append, Turn.answered ha]
    exact h.asked

namespace Tallied

variable {t : Turn} {k k' : Gauge} {p : Point} {answers : List Answer} {request : Snapshot}
  {failed : Nat}

/-- No result is kept while a turn is on. -/
theorem no_result (h : Tallied k answers) (hs : k.status.isTerminal = false) (r : TurnResult) :
    k.result ≠ some r := by
  intro hr
  exact absurd (hs.symm.trans (h.result r hr).1) nofun

theorem calm (h : Tallied k answers) (hp : p.asked = []) (hf : p.failed? = none)
    (hone : p.streams = 1) : Counted k p answers := by
  refine ⟨h.toAdds, hone ▸ h.streams, fun n hn => ?_, by rw [hp, h.asked, List.append_nil]⟩
  rw [hf] at hn
  cases hn

theorem ended (h : Tallied k answers) {s : TurnStatus} {reason : Option FailureReason}
    (hs : s.isTerminal = true) (he : k.Ends s reason k') (frame : Frame) :
    Counted k' (.tellingDone frame) answers := by
  obtain ⟨hattempt, hprompts, hrequests⟩ := he.same
  have h' : Tallied k' answers :=
    ⟨h.toAdds.ends hs he, by rw [hprompts, hattempt]; exact h.streams, hrequests.trans h.asked⟩
  exact h'.calm rfl rfl rfl

theorem called (h : Tallied k answers) (hs : k.status = .checking) (hn : failed < k.tries)
    (hroom : k.checkCalls + k.tries ≤ k.budget.checksUsed * k.tries + failed)
    (hc : k.Calls request failed k' p) : Counted k' p answers := by
  obtain ⟨hadds, hroom'⟩ := h.toAdds.calls_room hs hn hroom hc
  obtain ⟨hattempt, hprompts, hrequests, hone⟩ := hc.same
  exact ⟨hadds, by rw [hprompts, hattempt, hone]; exact h.streams, hroom',
    by rw [hrequests, h.asked]⟩

theorem try_counted (h : Tallied k answers) (hs : k.status = .checking)
    (hroom : failed < k.tries → k.checkCalls + k.tries ≤ k.budget.checksUsed * k.tries + failed)
    (ht : k.Tries request failed k' p) : Counted k' p answers := by
  obtain ⟨hadds, hroom'⟩ := h.toAdds.tries_room hs hroom ht
  obtain ⟨hattempt, hprompts, hrequests, hone⟩ := ht.same
  exact ⟨hadds, by rw [hprompts, hattempt, hone]; exact h.streams, hroom',
    by rw [hrequests, h.asked]⟩

/-- **At the end of a stream there is a check left**: fewer than `maxChecks` were used. -/
theorem check_left (h : t.gauge.Adds) (hs : t.status = .streaming) :
    t.budget.checksUsed < t.budget.maxChecks := by
  have hused : t.budget.checksUsed = t.record.attempt := h.streaming hs
  have hbounded : t.record.attempt ≤ t.budget.maxAttempts := h.bounded
  rw [Budget.maxChecks]
  omega

theorem check_granted (h : t.gauge.Adds) (hs : t.status = .streaming) :
    t.budget.useCheck.2 = true := by
  rw [Budget.useCheck_of_lt (check_left h hs)]

/-- A check that begins is counted, and all its tries are to come. -/
theorem check_begun (h : Tallied t.gauge answers) (hs : t.status = .streaming)
    (ht : { t.gauge with status := .checking, budget := t.budget.useCheck.1 }.Tries request 0 k p) :
    Counted k p answers := by
  have hused : t.budget.checksUsed = t.record.attempt := h.streaming hs
  have hopen : t.gauge.status.isTerminal = false := by
    show t.status.isTerminal = false
    rw [hs]
    rfl
  have hcalls : t.checkCalls ≤ t.budget.checksUsed * t.gauge.tries := h.tried
  rw [Budget.useCheck_of_lt (check_left h.toAdds hs)] at ht
  have hbegun : Tallied { t.gauge with
      status := .checking
      budget := { t.budget with
        checksUsed := t.budget.checksUsed + 1
        uses := t.budget.uses ++ [.check] } } answers := by
    refine ⟨⟨h.repairs, h.bounded, nofun, fun _ => congrArg (· + 1) hused, ?_, h.calls, ?_,
      fun r hr => absurd hr (h.no_result hopen r)⟩, h.streams, h.asked⟩
    · show t.record.attempt ≤ t.budget.checksUsed + 1 ∧
        t.budget.checksUsed + 1 ≤ t.record.attempt + 1
      omega
    · show t.checkCalls ≤ (t.budget.checksUsed + 1) * t.gauge.tries
      rw [Nat.succ_mul]
      omega
  refine hbegun.try_counted rfl (fun _ => ?_) ht
  show t.checkCalls + t.gauge.tries ≤ (t.budget.checksUsed + 1) * t.gauge.tries + 0
  rw [Nat.succ_mul]
  omega

/-- A repair is counted, whether the turn is through it or running ends in it. -/
theorem repaired (h : Tallied t.gauge answers) (hs : t.status = .checking)
    (hc : t.budget.canRepair = true) (problems : Int) {s : TurnStatus}
    (hopen : s = .streaming ∨ s = .repairing) :
    Tallied (t.gauge.countRepair problems s) answers := by
  have hlt : t.budget.attemptsUsed < t.budget.maxAttempts := Budget.canRepair_iff.1 hc
  have hattempt : t.record.attempt = t.budget.attemptsUsed := h.repairs
  have hused : t.budget.checksUsed = t.record.attempt + 1 := h.checking hs
  have hactive : t.gauge.status.isTerminal = false := Turn.Active.not_terminal (.inr hs)
  rw [Gauge.countRepair, show t.gauge.budget = t.budget from rfl, Budget.useRepair_of_canRepair hc]
  refine ⟨⟨congrArg (· + 1) hattempt, ?_, fun _ => hused, fun hs' => ?_, ?_, h.calls, h.tried,
    fun r hr => absurd hr (h.no_result hactive r)⟩, Nat.le_succ_of_le h.streams, h.asked⟩
  · show t.record.attempt + 1 ≤ t.budget.maxAttempts
    omega
  · rcases hopen with rfl | rfl <;> cases hs'
  · show t.record.attempt + 1 ≤ t.budget.checksUsed ∧
      t.budget.checksUsed ≤ t.record.attempt + 1 + 1
    omega

/-- The stream that a repair asks for is the one that it makes room for. -/
theorem asked_again (h : Tallied t.gauge answers) (hs : t.status = .checking)
    (hc : t.budget.canRepair = true) (problems : Int) (prompt : String) :
    Counted { t.gauge.countRepair problems .streaming with
      prompts := t.gauge.prompts ++ [prompt] } .opening answers := by
  have h' := h.repaired hs hc problems (.inl rfl)
  refine Tallied.calm ⟨⟨h'.repairs, h'.bounded, h'.streaming, h'.checking, h'.checks, h'.calls,
    h'.tried, fun r hr => ?_⟩, ?_, h'.asked⟩ rfl rfl rfl
  · obtain ⟨hterminal, -⟩ := h'.result r hr
    cases hterminal
  · have hstreams : t.gauge.prompts.length ≤ t.gauge.attempt + 1 := h.streams
    show (t.gauge.prompts ++ [prompt]).length ≤ t.gauge.attempt + 1 + 1
    rw [List.length_append]
    exact Nat.succ_le_succ hstreams

end Tallied

/-- **An awaited reply keeps the numbers.** -/
theorem Counted.tick {t : Turn} {r : Reply} {k : Gauge} {p : Point} {answers : List Answer}
    (h : Counted t.gauge t.point answers) (hplaced : t.Placed) (ha : t.point.awaits r = true)
    (hk : t.Tick r k p) : Counted k p (answers ++ (t.answer? r).toList) := by
  have h' : Tallied t.gauge (answers ++ (t.answer? r).toList) := h.settled ha
  cases hk with
  | hears => exact h'.calm rfl rfl rfl
  | glides hq =>
    obtain ⟨hp, hf, hone, -⟩ := Point.of_isQuiet hq
    exact h'.calm hp hf hone
  | cancels _ he | breaks _ he | exhausts _ _ _ he | cleans _ he => exact h'.ended rfl he _
  | begins hp _ _ ht => exact h'.check_begun (hplaced.admits hp) ht
  | denied hp hu => cases hu.symm.trans (Tallied.check_granted h.toAdds (hplaced.admits hp))
  | @retries request failed hp k q ht =>
    refine h'.try_counted (hplaced.of_tryFails hp) (fun _ => ?_) ht
    rcases hp with ⟨hp, -⟩ | ⟨f, hp⟩
    · have hroom := (h.room failed (by rw [hp]; rfl)).2
      rw [hp] at hroom
      exact hroom
    · have hroom := (h.room failed (by rw [hp]; rfl)).2
      rw [hp] at hroom
      exact Nat.le_succ_of_le hroom
  | @resumes request failed hp k q hc =>
    obtain ⟨hlt, hroom⟩ := h.room failed (by rw [hp]; rfl)
    rw [hp] at hroom
    exact h'.called (hplaced.admits hp) hlt hroom hc
  | diagnoses hp =>
    have hs : t.gauge.status = .checking := hplaced.admits hp
    refine Tallied.calm ⟨⟨h.repairs, h.bounded, h.streaming, h.checking, h.checks, h.calls,
      h.tried, fun r hr => ?_⟩, h'.streams, h'.asked⟩ rfl rfl rfl
    exact absurd hr (h'.no_result (by rw [hs]; rfl) r)
  | repairs hp hc prompt => exact h'.asked_again (hplaced.admits hp) hc _ prompt
  | undigested hp hc => exact (h'.repaired (hplaced.admits hp) hc _ (.inr rfl)).calm rfl rfl rfl

/-! ## The grounds of an end -/

/-- That the type checker found `ps` when it answered last. -/
def LastFound (answers : List Answer) (ps : List Problem) : Prop :=
  ∃ request, answers.getLast? = some (request, .problems ps)

/-- That `found` are on record as the problems that the type checker found last. -/
structure Gauge.Records (k : Gauge) (answers : List Answer) (found : List Problem) : Prop where
  last : LastFound answers found
  diagnostics : k.diagnostics = sortProblems found
  history : k.history.getLast? = some (sortProblems found)

/-- That the turn has used its repairs up and the check behind the last one found problems. -/
structure Gauge.Exhausted (k : Gauge) (answers : List Answer) : Prop where
  repairs : k.attempt = k.budget.maxAttempts
  checks : k.budget.checksUsed = k.attempt + 1
  found : ∃ ps, ps ≠ [] ∧ k.Records answers ps

/-- That the end of a turn, if it has ended, goes by the last of `answers`. -/
structure Grounds (k : Gauge) (answers : List Answer) : Prop where
  reason : k.reason ≠ none ↔ k.status = .failed
  clean : k.status = .clean → LastFound answers []
  broken : k.reason = some .generationFailed → k.budget.checksUsed = k.attempt
  unavailable : k.reason = some .checkerUnavailable → ∀ ps, ¬LastFound answers ps
  exhausted : k.reason = some .budgetExhausted → k.Exhausted answers

/-- What a turn goes by in the end, at whichever point `p` it waits. -/
structure Judged (k : Gauge) (p : Point) (answers : List Answer) : Prop where
  /-- A type checker that cannot be called was not called. -/
  uncalled : ∀ f, k.policy.earlyFailure? = some f → k.requests = []
  dismissed : ∀ request failed f, p = .dismissing request failed f →
    k.policy.earlyFailure? = some f
  told : ∀ ps, p = .tellingDiagnostics ps →
    ∃ found, k.Records answers found ∧ ps = sortProblems found
  grounds : Grounds k answers

theorem sortProblems_eq_nil {ps : List Problem} : sortProblems ps = [] ↔ ps = [] := by
  rw [← List.length_eq_zero_iff, (sortProblems_perm ps).length_eq, List.length_eq_zero_iff]

namespace Grounds

variable {k k' : Gauge} {answers : List Answer}

theorem no_reason (h : Grounds k answers) (hs : k.status ≠ .failed) : k.reason = none := by
  cases hr : k.reason with
  | none => rfl
  | some r => exact absurd (h.reason.1 (by rw [hr]; nofun)) hs

/-- A turn without a reason to have failed, which is not clean, goes by nothing. -/
theorem of_no_reason (hr : k.reason = none) (hf : k.status ≠ .failed) (hc : k.status ≠ .clean) :
    Grounds k answers := by
  refine ⟨⟨fun h => absurd hr h, fun h => absurd h hf⟩, fun h => absurd h hc, ?_, ?_, ?_⟩ <;>
    rw [hr] <;> exact nofun

theorem of_cancelled (hr : k.reason = none) (he : k.Ends .cancelled k.reason k') :
    Grounds k' answers := by
  obtain ⟨-⟩ := he
  exact of_no_reason hr nofun nofun

theorem of_clean (hr : k.reason = none) (hfound : LastFound answers [])
    (he : k.Ends .clean k.reason k') : Grounds k' answers := by
  obtain ⟨-⟩ := he
  rw [hr]
  exact ⟨⟨nofun, nofun⟩, fun _ => hfound, nofun, nofun, nofun⟩

theorem of_broken (hused : k.budget.checksUsed = k.attempt)
    (he : k.Ends .failed (some .generationFailed) k') : Grounds k' answers := by
  obtain ⟨-⟩ := he
  exact ⟨⟨fun _ => rfl, fun _ => nofun⟩, nofun, fun _ => hused, nofun, nofun⟩

theorem of_unavailable (hno : ∀ ps, ¬LastFound answers ps)
    (he : k.Ends .failed (some .checkerUnavailable) k') : Grounds k' answers := by
  obtain ⟨-⟩ := he
  exact ⟨⟨fun _ => rfl, fun _ => nofun⟩, nofun, nofun, fun _ => hno, nofun⟩

theorem of_exhausted (hex : k.Exhausted answers)
    (he : k.Ends .failed (some .budgetExhausted) k') : Grounds k' answers := by
  obtain ⟨-⟩ := he
  refine ⟨⟨fun _ => rfl, fun _ => nofun⟩, nofun, nofun, nofun, fun _ => ?_⟩
  obtain ⟨hrepairs, hchecks, ps, hne, hlast, hdiagnostics, hhistory⟩ := hex
  exact ⟨hrepairs, hchecks, ps, hne, hlast, hdiagnostics, hhistory⟩

end Grounds

namespace Judged

variable {t : Turn} {r : Reply} {k k' : Gauge} {p : Point} {answers : List Answer}
  {request : Snapshot} {failed : Nat}

theorem ended (h : ∀ f, k.policy.earlyFailure? = some f → k.requests = [])
    {s : TurnStatus} {reason : Option FailureReason} (he : k.Ends s reason k')
    (hv : Grounds k' answers) (frame : Frame) : Judged k' (.tellingDone frame) answers := by
  refine ⟨fun f hf => ?_, nofun, nofun, hv⟩
  obtain ⟨-⟩ := he
  exact h f hf

/-- Calling the type checker judges nothing. -/
theorem called (h : ∀ f, k.policy.earlyFailure? = some f → k.requests = [])
    (hs : k.status = .checking) (hr : k.reason = none) (hc : k.Calls request failed k' p) :
    Judged k' p answers := by
  have hv : ∀ k' : Gauge, k'.status = .checking → k'.reason = none → Grounds k' answers :=
    fun k' hs hr => .of_no_reason hr (by rw [hs]; nofun) (by rw [hs]; nofun)
  cases hc with
  | asks hearly => exact ⟨fun f hf => (by cases hearly.symm.trans hf), nofun, nofun, hv _ hs hr⟩
  | dismisses hearly =>
    refine ⟨h, fun request failed f hp => ?_, nofun, hv _ hs hr⟩
    cases hp
    exact hearly

/-- A check is given up only where the type checker found nothing when it answered last. -/
theorem try_judged (h : ∀ f, k.policy.earlyFailure? = some f → k.requests = [])
    (hs : k.status = .checking) (hr : k.reason = none)
    (hno : k.policy.allows failed = false → ∀ ps, ¬LastFound answers ps)
    (ht : k.Tries request failed k' p) : Judged k' p answers := by
  have hv : Grounds k answers := .of_no_reason hr (by rw [hs]; nofun) (by rw [hs]; nofun)
  cases ht with
  | calls _ hc => exact called h hs hr hc
  | pauses => exact ⟨h, nofun, nofun, hv⟩
  | overflows => exact ⟨h, nofun, nofun, hv⟩
  | givesUp ha he => exact ended h he (.of_unavailable (hno ha) he) .loop

/-- No answer is behind a type checker that was not called. -/
theorem not_lastFound (hasked : k.requests = answers.map Prod.fst) (hnone : k.requests = [])
    (ps : List Problem) : ¬LastFound answers ps := by
  rintro ⟨request, hlast⟩
  rw [List.map_eq_nil_iff.1 (hasked.symm.trans hnone)] at hlast
  cases hlast

/-- No answer is behind a type checker whose checks are not tried. -/
theorem not_lastFound_of_not_allowed (h : Tallied k answers) (hnone : k.policy.allows 0 = false)
    (ps : List Problem) : ¬LastFound answers ps := by
  refine not_lastFound h.asked ?_ ps
  have htries : k.tries = 0 := by
    refine Nat.eq_zero_of_not_pos fun hpos => ?_
    cases (RetryPolicy.allows_iff.2 hpos).symm.trans hnone
  have htried := h.tried
  rw [htries, Nat.mul_zero, h.calls] at htried
  exact List.length_eq_zero_iff.1 (Nat.le_zero.1 htried)

/-- A try that fails leaves no problems as what the type checker answered last. -/
theorem not_lastFound_of_tryFails (h : Judged t.gauge t.point answers)
    (hasked : t.gauge.requests = (answers ++ (t.answer? r).toList).map Prod.fst)
    (hp : t.point.TryFails request failed r) (ps : List Problem) :
    ¬LastFound (answers ++ (t.answer? r).toList) ps := by
  rcases hp with ⟨hp, f, rfl⟩ | ⟨f, hp⟩
  · have ha : t.answer? (.failed f) = some (request, .failed f) := by
      unfold Turn.answer?
      rw [hp]
    rintro ⟨q, hlast⟩
    rw [ha, Option.toList_some, List.getLast?_concat] at hlast
    cases hlast
  · exact not_lastFound hasked (h.uncalled f (h.dismissed _ _ _ hp)) ps

theorem lastFound_of_checked (hp : t.point = .checking request failed) (ps : List Problem) :
    LastFound (answers ++ (t.answer? (.checked ps)).toList) ps := by
  have ha : t.answer? (.checked ps) = some (request, .problems ps) := by
    unfold Turn.answer?
    rw [hp]
  rw [ha, Option.toList_some]
  exact ⟨request, List.getLast?_concat⟩

/-- A turn that is told problems and cannot be repaired has used its repairs up. -/
theorem exhausted (h : Judged t.gauge t.point answers) (hadds : t.gauge.Adds)
    (hs : t.status = .checking) {ps : List Problem} (hp : t.point = .tellingDiagnostics ps)
    (hne : ps ≠ []) (hc : t.budget.canRepair = false) : t.gauge.Exhausted answers := by
  obtain ⟨found, hrecords, rfl⟩ := h.told ps hp
  have hleft : ¬t.budget.attemptsUsed < t.budget.maxAttempts :=
    fun hlt => by cases (Budget.canRepair_iff.2 hlt).symm.trans hc
  have hattempt : t.record.attempt = t.budget.attemptsUsed := hadds.repairs
  have hbounded : t.record.attempt ≤ t.budget.maxAttempts := hadds.bounded
  have hall : t.record.attempt = t.budget.maxAttempts := by omega
  exact ⟨hall, hadds.checking hs, found, fun hnil => hne (sortProblems_eq_nil.2 hnil), hrecords⟩

/-- **An awaited reply keeps what a turn goes by.** -/
theorem tick (h : Judged t.gauge t.point answers) (hcounted : Counted t.gauge t.point answers)
    (hplaced : t.Placed) (ha : t.point.awaits r = true) (hk : t.Tick r k p) :
    Judged k p (answers ++ (t.answer? r).toList) := by
  have hsettled := hcounted.settled ha
  have hreason : t.Active → t.gauge.reason = none := fun hs =>
    h.grounds.no_reason fun hf => by
      have hopen := hs.not_terminal
      rw [show t.status = .failed from hf] at hopen
      cases hopen
  -- while nothing else happens, what the turn ended on stands, or it has not ended
  have hv : Grounds t.gauge (answers ++ (t.answer? r).toList) := by
    by_cases hs : t.status = .checking
    · exact .of_no_reason (hreason (.inr hs)) (fun hf => by cases hs.symm.trans hf)
        (fun hc => by cases hs.symm.trans hc)
    · rw [Turn.answer?_of_not_checking hplaced hs, Option.toList_none, List.append_nil]
      exact h.grounds
  cases hk with
  | hears => exact ⟨h.uncalled, nofun, nofun, hv⟩
  | glides hq =>
    obtain ⟨-, hf, -, hp⟩ := Point.of_isQuiet hq
    refine ⟨h.uncalled, fun request failed f hp => ?_, fun ps hps => absurd hps (hp ps), hv⟩
    rw [hp] at hf
    cases hf
  | cancels hs he => exact ended h.uncalled he (.of_cancelled (hreason hs) he) _
  | breaks hp he =>
    have hs : t.gauge.status = .streaming := hplaced.admits hp
    exact ended h.uncalled he (.of_broken (hcounted.streaming hs) he) _
  | begins hp hu _ ht =>
    have hs : t.status = .streaming := hplaced.admits hp
    -- a check that is never tried was never tried before
    exact try_judged (k := { t.gauge with
      status := .checking
      budget := t.budget.useCheck.1 }) h.uncalled rfl (hreason (.inl hs))
      (fun hnone => not_lastFound_of_not_allowed hsettled hnone) ht
  | denied hp hu =>
    cases hu.symm.trans (Tallied.check_granted hcounted.toAdds (hplaced.admits hp))
  | retries hp ht =>
    have hs : t.status = .checking := hplaced.of_tryFails hp
    exact try_judged h.uncalled hs (hreason (.inr hs))
      (fun _ => h.not_lastFound_of_tryFails hsettled.asked hp) ht
  | resumes hp hc =>
    have hs : t.status = .checking := hplaced.admits hp
    exact called h.uncalled hs (hreason (.inr hs)) hc
  | @diagnoses request failed hp found hr =>
    have hs : t.status = .checking := hplaced.admits hp
    have hlast : LastFound (answers ++ (t.answer? r).toList) found :=
      hr ▸ lastFound_of_checked hp found
    refine ⟨h.uncalled, nofun, fun ps hps => ?_, .of_no_reason (hreason (.inr hs))
      (fun hf => by cases hs.symm.trans hf) (fun hc => by cases hs.symm.trans hc)⟩
    cases hps
    exact ⟨found, ⟨hlast, rfl, List.getLast?_concat⟩, rfl⟩
  | repairs hp | undigested hp =>
    have hs : t.status = .checking := hplaced.admits hp
    exact ⟨h.uncalled, nofun, nofun, .of_no_reason (hreason (.inr hs)) nofun nofun⟩
  | @exhausts ps hp hne hc k he =>
    have hs : t.status = .checking := hplaced.admits hp
    rw [Turn.answer?_of_no_question (by rw [hp]; rfl), Option.toList_none, List.append_nil]
    exact ended h.uncalled he (.of_exhausted (h.exhausted hcounted.toAdds hs hp hne hc) he) _
  | cleans hp he =>
    have hs : t.status = .checking := hplaced.admits hp
    obtain ⟨found, hrecords, hnil⟩ := h.told [] hp
    rw [Turn.answer?_of_no_question (by rw [hp]; rfl), Option.toList_none, List.append_nil]
    refine ended h.uncalled he (.of_clean (hreason (.inr hs)) ?_ he) _
    rw [← sortProblems_eq_nil.1 hnil.symm]
    exact hrecords.last

end Judged

end StagedEdits
