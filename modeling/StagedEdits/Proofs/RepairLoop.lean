import Mathlib.Algebra.BigOperators.Group.Finset.Basic
import Mathlib.Algebra.Order.BigOperators.Group.Finset
import StagedEdits.Proofs.DigestText
import StagedEdits.Proofs.LoopCounts
import StagedEdits.Proofs.Pieces
import StagedEdits.Proofs.TurnOutcome

set_option autoImplicit false

/-! # The repair loop is bounded

A turn asks for one stream at first and one by each repair, and checks behind each of them. It has
an end: each reply that it waits for brings it nearer to it, but a text, which takes three replies
more. So a turn whose agent writes finitely many texts in each generation is over after finitely
many replies, however the type checker answers.

Main definitions: `Gauge.rank`, `Run.count`, `Run.takes`, `Run.repairs`, `Run.hearsIn`. Main
statements: `Turn.Tick.rank_lt` (one reply), `Run.takes_le` (a run), `Run.repair_loop_bounded`. -/

namespace StagedEdits

/-- Whether a turn that was being checked has gone into a repair if it has this status now: it is
    through the repair, or running has ended in it. -/
def TurnStatus.isRepaired : TurnStatus → Bool
  | .streaming | .repairing => true
  | _ => false

/-! ## The rank -/

namespace Gauge

/-- How many replies a turn can take from `p` on before it is over, if no text comes any more. -/
def rank (k : Gauge) (p : Point) : Nat :=
  (k.budget.maxAttempts - k.attempt) * (2 * k.tries + 4) + p.rest k.tries

variable {k k' : Gauge} {request : Snapshot} {failed : Nat} {p : Point}

/-- That the gauge `k'` goes on from `k` without a repair. -/
structure Alike (k k' : Gauge) : Prop where
  policy : k'.policy = k.policy
  limit : k'.budget.maxAttempts = k.budget.maxAttempts
  attempt : k'.attempt = k.attempt

theorem Alike.rank_lt (h : k.Alike k') {q : Point} (hrest : p.rest k.tries < q.rest k.tries) :
    k'.rank p < k.rank q := by
  rw [rank, rank, tries, h.policy, h.limit, h.attempt]
  exact Nat.add_lt_add_left hrest _

/-- That the gauge `k'` goes on from `k`, and counts a repair if it has gone into one. -/
structure Passes (k k' : Gauge) : Prop where
  policy : k'.policy = k.policy
  limit : k'.budget.maxAttempts = k.budget.maxAttempts
  attempt : k'.attempt =
    k.attempt + (decide (k.status = .checking ∧ k'.status.isRepaired = true)).toNat

theorem Alike.passes (h : k.Alike k') (hs : k.status = .checking → k'.status.isRepaired = false) :
    k.Passes k' := by
  refine ⟨h.policy, h.limit, ?_⟩
  rw [decide_eq_false fun he => by cases (hs he.1).symm.trans he.2]
  exact h.attempt

theorem Ends.status {s : TurnStatus} {reason : Option FailureReason} (he : k.Ends s reason k') :
    k'.status = s := by
  obtain ⟨-⟩ := he
  rfl

theorem Ends.reason {s : TurnStatus} {reason : Option FailureReason} (he : k.Ends s reason k') :
    k'.reason = reason := by
  obtain ⟨-⟩ := he
  rfl

theorem Ends.alike {s : TurnStatus} {reason : Option FailureReason} (he : k.Ends s reason k') :
    k.Alike k' := by
  obtain ⟨-⟩ := he
  exact ⟨rfl, rfl, rfl⟩

theorem Calls.alike (hc : k.Calls request failed k' p) : k.Alike k' := by
  cases hc <;> exact ⟨rfl, rfl, rfl⟩

theorem Calls.status (hc : k.Calls request failed k' p) : k'.status = k.status := by
  cases hc <;> rfl

theorem Calls.rest (hc : k.Calls request failed k' p) :
    p.rest k.tries = 2 * (k.tries - 1 - failed) + 3 := by
  cases hc <;> rfl

theorem Tries.alike (ht : k.Tries request failed k' p) : k.Alike k' := by
  cases ht with
  | calls _ hc => exact hc.alike
  | pauses | overflows => exact ⟨rfl, rfl, rfl⟩
  | givesUp _ he => exact he.alike

theorem Tries.status (ht : k.Tries request failed k' p) :
    k'.status = k.status ∨ k'.status = .failed := by
  cases ht with
  | calls _ hc => exact .inl hc.status
  | pauses | overflows => exact .inl rfl
  | givesUp _ he => exact .inr he.status

/-- One more try takes two replies at most besides what comes behind it. -/
theorem Tries.rest_le (ht : k.Tries request failed k' p) :
    p.rest k.tries ≤ 1 ∨
      failed < k.tries ∧ p.rest k.tries ≤ 2 * (k.tries - 1 - failed) + 4 := by
  cases ht with
  | calls ha hc => exact .inr ⟨RetryPolicy.allows_iff.1 ha, hc.rest ▸ Nat.le_succ _⟩
  | pauses ha => exact .inr ⟨RetryPolicy.allows_iff.1 ha, Nat.le_refl _⟩
  | overflows => exact .inl (Nat.zero_le _)
  | givesUp => exact .inl (Nat.le_refl _)

end Gauge

namespace Turn

/-- Whether `r` is a text that `t` takes. -/
def hears (t : Turn) (r : Reply) : Bool :=
  match t.point, r with
  | .reading _, .chunk _ => true
  | _, _ => false

theorem check_alike {t : Turn} {request : Snapshot} {failed : Nat} {k : Gauge} {p : Point}
    (ht : { t.gauge with status := .checking, budget := t.budget.useCheck.1 }.Tries request failed
      k p) : t.gauge.Alike k := by
  have hlimit : t.budget.useCheck.1.maxAttempts = t.budget.maxAttempts := by
    rw [Budget.useCheck]
    split <;> rfl
  have halike := ht.alike
  exact ⟨halike.policy, halike.limit.trans hlimit, halike.attempt⟩

/-- A reply that is awaited makes a turn go on, and is counted if it makes a repair. -/
theorem Tick.passes {t : Turn} {r : Reply} {k : Gauge} {p : Point} (hplaced : t.Placed)
    (hk : t.Tick r k p) : t.gauge.Passes k := by
  have hsame : ∀ {k : Gauge}, t.gauge.Alike k → k.status = t.status → t.gauge.Passes k :=
    fun halike hs => halike.passes fun hc => by rw [hs.trans hc]; rfl
  cases hk with
  | hears | glides => exact hsame ⟨rfl, rfl, rfl⟩ rfl
  | cancels _ he | breaks _ he | exhausts _ _ _ he | cleans _ he =>
    exact he.alike.passes fun _ => by rw [he.status]; rfl
  | begins hp _ _ ht =>
    have hs : t.gauge.status = .streaming := hplaced.admits hp
    exact (check_alike ht).passes fun hc => by cases hs.symm.trans hc
  | denied hp _ he =>
    have hs : t.gauge.status = .streaming := hplaced.admits hp
    have halike := he.alike
    exact Gauge.Alike.passes ⟨halike.policy, halike.limit, halike.attempt⟩
      fun hc => by cases hs.symm.trans hc
  | retries _ ht =>
    refine ht.alike.passes fun hc => ?_
    rcases ht.status with hs | hs
    · rw [hs.trans hc]
      rfl
    · rw [hs]
      rfl
  | resumes _ hc => exact hsame hc.alike hc.status
  | diagnoses => exact hsame ⟨rfl, rfl, rfl⟩ rfl
  | repairs hp hc | undigested hp hc =>
    have hs : t.gauge.status = .checking := hplaced.admits hp
    rw [Gauge.countRepair, show t.gauge.budget = t.budget from rfl,
      Budget.useRepair_of_canRepair hc]
    refine ⟨rfl, rfl, ?_⟩
    rw [hs]
    rfl

/-- The repair that is used pays for the generation that it asks for. -/
theorem repair_rank_lt {t : Turn} (h : t.gauge.Adds) (hc : t.budget.canRepair = true)
    (problems : Int) (s : TurnStatus) (ps : List Problem) {p : Point}
    (hp : p.rest t.gauge.tries ≤ 2 * t.gauge.tries + 5) :
    (t.gauge.countRepair problems s).rank p < t.gauge.rank (.tellingDiagnostics ps) := by
  have hlt : t.budget.attemptsUsed < t.budget.maxAttempts := Budget.canRepair_iff.1 hc
  have hattempt : t.gauge.attempt = t.budget.attemptsUsed := h.repairs
  have hleft : t.gauge.budget.maxAttempts - t.gauge.attempt =
      t.gauge.budget.maxAttempts - (t.gauge.attempt + 1) + 1 := by
    show t.budget.maxAttempts - t.gauge.attempt = t.budget.maxAttempts - (t.gauge.attempt + 1) + 1
    omega
  rw [Gauge.countRepair, show t.gauge.budget = t.budget from rfl, Budget.useRepair_of_canRepair hc,
    Gauge.rank, Gauge.rank, hleft, Nat.add_mul, Nat.one_mul]
  show (t.gauge.budget.maxAttempts - (t.gauge.attempt + 1)) * (2 * t.gauge.tries + 4) +
    p.rest t.gauge.tries < _ + 2
  omega

/-- **Each reply that is awaited brings a turn nearer to its end**, but a text, which takes three
    replies more. -/
theorem Tick.rank_lt {t : Turn} {r : Reply} {k : Gauge} {p : Point} {answers : List Answer}
    (h : Counted t.gauge t.point answers) (hk : t.Tick r k p) :
    k.rank p < t.gauge.rank t.point + 3 * (t.hears r).toNat := by
  have hnearer : ∀ {k : Gauge} {p : Point}, t.gauge.Alike k →
      p.rest t.gauge.tries < t.point.rest t.gauge.tries →
      k.rank p < t.gauge.rank t.point + 3 * (t.hears r).toNat :=
    fun halike hrest => Nat.lt_add_right _ (halike.rank_lt hrest)
  cases hk with
  | hears hp hr =>
    have hheard : t.hears r = true := by
      unfold Turn.hears
      rw [hp, hr]
    rw [hheard, Gauge.rank, Gauge.rank, hp]
    simp only [Point.rest, Bool.toNat_true]
    omega
  | glides _ hrest => exact hnearer ⟨rfl, rfl, rfl⟩ hrest
  | cancels _ he hrest => exact hnearer he.alike hrest
  | breaks hp he => exact hnearer he.alike (by simp [hp, Point.rest])
  | begins hp _ _ ht =>
    refine hnearer (check_alike ht) ?_
    have hrest : p.rest t.gauge.tries ≤ 1 ∨ 0 < t.gauge.tries ∧
        p.rest t.gauge.tries ≤ 2 * (t.gauge.tries - 1 - 0) + 4 := ht.rest_le
    rw [hp]
    show p.rest t.gauge.tries < 2 * t.gauge.tries + 3
    omega
  | denied hp _ he =>
    have halike := he.alike
    exact hnearer ⟨halike.policy, halike.limit, halike.attempt⟩ (by simp [hp, Point.rest])
  | @retries request failed hp k q ht =>
    refine hnearer ht.alike ?_
    have hat : t.point.rest t.gauge.tries = 2 * (t.gauge.tries - 1 - failed) + 3 := by
      rcases hp with ⟨hp, -⟩ | ⟨f, hp⟩ <;> rw [hp] <;> rfl
    have hrest := ht.rest_le
    omega
  | resumes hp hc =>
    refine hnearer hc.alike ?_
    rw [hc.rest, hp]
    exact Nat.lt_succ_self _
  | diagnoses hp =>
    refine hnearer ⟨rfl, rfl, rfl⟩ ?_
    rw [hp]
    simp only [Point.rest]
    omega
  | @repairs ps hp hc prompt =>
    exact Nat.lt_add_right _ (hp ▸ repair_rank_lt h.toAdds hc _ .streaming ps (Nat.le_refl _))
  | @undigested ps hp hc =>
    exact Nat.lt_add_right _ (hp ▸ repair_rank_lt h.toAdds hc _ .repairing ps (Nat.zero_le _))
  | exhausts hp _ _ he => exact hnearer he.alike (by simp [hp, Point.rest])
  | cleans hp he => exact hnearer he.alike (by simp [hp, Point.rest])

end Turn

/-! ## Runs -/

namespace Run

/-- How often a move of the kind `f` is made in a run from `w` on. -/
def count (f : Run → Move → Bool) (w : Run) : List Move → Nat
  | [] => 0
  | m :: moves => (f w m).toNat + count f (w.step m) moves

/-- Whether a move starts the turn of `w`, or is a reply that it waits for. -/
def takes (w : Run) : Move → Bool
  | .start _ =>
    match w.turn.point with
    | .idle => true
    | _ => false
  | .reply _ r => w.turn.point.awaits r
  | _ => false

/-- Whether the turn of `w` goes into a repair with `m`: no other way leads from a check back to a
    stream, or to a repair that running ends in. -/
def repairs (w : Run) (m : Move) : Bool :=
  decide (w.turn.status = .checking ∧ (w.step m).turn.status.isRepaired = true)

/-- Whether a move is a text that the turn takes. -/
def hears (w : Run) : Move → Bool
  | .reply _ r => w.turn.hears r
  | _ => false

/-- Whether `m` is a text of the generation with the number `i`. -/
def hearsIn (i : Nat) (w : Run) (m : Move) : Bool :=
  w.hears m && w.turn.prompts.length == i

/-- The `Gauge.rank` of the turn of `w` at the point where it waits. -/
def rank (w : Run) : Nat := w.turn.gauge.rank w.turn.point

/-- That the numbers of `w` agree, under `policy` and with `limit` repairs at most. -/
structure InOrder (policy : RetryPolicy) (limit : Nat) (w : Run) : Prop where
  placed : w.turn.Placed
  counted : Counted w.turn.gauge w.turn.point w.answers
  judged : Judged w.turn.gauge w.turn.point w.answers
  policy : w.turn.gauge.policy = policy
  limit : w.turn.budget.maxAttempts = limit

section Moves

variable {w : Run} {m : Move} {policy : RetryPolicy} {limit : Nat}

/-- A move of the owner counts nothing but the stream that starting a turn asks for. -/
theorem step_gauge (hm : ∀ base r, m ≠ .reply base r) :
    (w.step m).answers = w.answers ∧ w.hears m = false ∧
      (w.takes m = false ∧ (w.step m).turn.gauge = w.turn.gauge ∧
          (w.step m).turn.point = w.turn.point ∨
        w.turn.point = .idle ∧ (w.step m).turn.point = .opening ∧
          ∃ prompt, (w.step m).turn.gauge =
            { w.turn.gauge with prompts := w.turn.gauge.prompts ++ [prompt] }) := by
  cases m with
  | start prompt =>
    unfold step takes Turn.start
    cases hp : w.turn.point with
    | idle => exact ⟨rfl, rfl, .inr ⟨rfl, rfl, prompt, rfl⟩⟩
    | _ => exact ⟨rfl, rfl, .inl ⟨rfl, rfl, hp⟩⟩
  | reply base r => exact absurd rfl (hm base r)
  | cancel =>
    refine ⟨rfl, rfl, .inl ⟨rfl, ?_, w.turn.cancel_point⟩⟩
    simp only [step, Turn.cancel]
    split <;> rfl
  | replay base log =>
    unfold step Turn.replay
    dsimp only
    split
    · exact ⟨rfl, rfl, .inl ⟨rfl, rfl, rfl⟩⟩
    · split <;> exact ⟨rfl, rfl, .inl ⟨rfl, rfl, rfl⟩⟩
  | discard => exact ⟨rfl, rfl, .inl ⟨rfl, rfl, rfl⟩⟩
  | handOver force =>
    simp only [step]
    split <;> exact ⟨rfl, rfl, .inl ⟨rfl, rfl, rfl⟩⟩
  | committed index outcome =>
    simp only [step]
    split
    · cases outcome <;> exact ⟨rfl, rfl, .inl ⟨rfl, rfl, rfl⟩⟩
    · exact ⟨rfl, rfl, .inl ⟨rfl, rfl, rfl⟩⟩

/-- A reply that the turn does not wait for changes nothing. -/
theorem step_of_not_awaited {base : BaseTree} {r : Reply} (h : w.turn.point.awaits r = false) :
    w.step (.reply base r) = w := by
  simp only [step, Turn.advance_of_not_awaited h, Turn.answer?_of_not_awaited h,
    Turn.uncaught?_of_not_awaited h, Option.toList_none, List.append_nil]

theorem new_inOrder {config : TurnConfig} {maxAttempts : Int} {t : Turn}
    (ht : Turn.new? config maxAttempts = some t) :
    (new t).InOrder config.policy maxAttempts.toNat ∧ 0 ≤ maxAttempts := by
  obtain ⟨budget, hbudget, rfl⟩ := Option.map_eq_some_iff.1 ht
  unfold Budget.new? at hbudget
  split at hbudget
  · cases hbudget
  · cases hbudget
    refine ⟨⟨rfl, ?_, ?_, rfl, rfl⟩, by omega⟩
    · exact ⟨⟨rfl, Nat.zero_le _, fun _ => rfl, nofun, ⟨Nat.le_refl _, Nat.zero_le _⟩, rfl,
        Nat.zero_le _, nofun⟩, Nat.le_refl _, nofun, rfl⟩
    · exact ⟨fun _ _ => rfl, nofun, nofun, .of_no_reason rfl nofun nofun⟩

/-- Asking for the first stream keeps the numbers. -/
theorem InOrder.start {w' : Run} (h : w.InOrder policy limit) (hidle : w.turn.point = .idle)
    (hanswers : w'.answers = w.answers) (hp : w'.turn.point = .opening) {prompt : String}
    (hg : w'.turn.gauge =
      { w.turn.gauge with prompts := w.turn.gauge.prompts ++ [prompt] }) :
    w'.InOrder policy limit := by
  obtain ⟨hplaced, hcounted, hjudged, hpolicy, hlimit⟩ := h
  have hs : w.turn.status = .streaming := hplaced.admits hidle
  have hs' : w'.turn.status = .streaming := (congrArg Gauge.status hg).trans hs
  have hreason : w.turn.gauge.reason = none :=
    hjudged.grounds.no_reason fun hf => by cases hs.symm.trans hf
  refine ⟨?_, ?_, ?_, ?_, ?_⟩
  · rw [Turn.Placed, hp]
    exact hs'
  · rw [hg, hp, hanswers]
    have hstreams := hcounted.streams
    have hasked := hcounted.asked
    rw [hidle] at hstreams hasked
    refine Tallied.calm ⟨⟨hcounted.repairs, hcounted.bounded, hcounted.streaming,
      hcounted.checking, hcounted.checks, hcounted.calls, hcounted.tried, fun r hr => ?_⟩, ?_, ?_⟩
      rfl rfl rfl
    · obtain ⟨hterminal, hr'⟩ := hcounted.result r hr
      exact ⟨hterminal, hr'.status, hr'.reason, hr'.diagnostics, hr'.attempts, hr'.checkCalls⟩
    · rw [List.length_append]
      exact Nat.succ_le_succ hstreams
    · exact hasked.trans (List.append_nil _)
  · rw [hg, hp, hanswers]
    exact ⟨hjudged.uncalled, fun _ _ _ he => (by cases he), fun _ he => (by cases he),
      .of_no_reason hreason (fun hf => by cases hs.symm.trans hf)
      fun hc => by cases hs.symm.trans hc⟩
  · rw [hg]
    exact hpolicy
  · exact (congrArg (fun k => k.budget.maxAttempts) hg).trans hlimit

/-- **Every move `m` keeps the numbers in order.** -/
theorem InOrder.step (h : w.InOrder policy limit) (m : Move) :
    (w.step m).InOrder policy limit := by
  by_cases hm : ∃ base r, m = .reply base r
  · obtain ⟨base, r, rfl⟩ := hm
    by_cases ha : w.turn.point.awaits r = true
    · have hk := Turn.advance_ticks h.placed ha base
      have hpasses := hk.passes h.placed
      exact ⟨placed_step h.placed _, h.counted.tick h.placed ha hk,
        h.judged.tick h.counted h.placed ha hk, hpasses.policy.trans h.policy,
        hpasses.limit.trans h.limit⟩
    · rw [step_of_not_awaited (Bool.eq_false_iff.2 ha)]
      exact h
  · obtain ⟨hanswers, -, hcase⟩ := step_gauge (w := w) (m := m) fun base r he => hm ⟨base, r, he⟩
    rcases hcase with ⟨-, hg, hp⟩ | ⟨hidle, hp, prompt, hg⟩
    · refine ⟨placed_step h.placed m, ?_, ?_, ?_, ?_⟩
      · rw [hg, hp, hanswers]
        exact h.counted
      · rw [hg, hp, hanswers]
        exact h.judged
      · rw [hg]
        exact h.policy
      · exact (congrArg (fun k => k.budget.maxAttempts) hg).trans h.limit
    · exact h.start hidle hanswers hp hg

theorem InOrder.after (h : w.InOrder policy limit) (moves : List Move) :
    (w.after moves).InOrder policy limit :=
  after_invariant (fun _ m _ h => h.step m) h

/-! ### Repairs -/

/-- The record counts the repairs of a move. -/
theorem InOrder.attempt_step (h : w.InOrder policy limit) (m : Move) :
    (w.step m).turn.record.attempt = w.turn.record.attempt + (w.repairs m).toNat := by
  have hstay : ∀ {w' : Run}, w'.turn.record.attempt = w.turn.record.attempt →
      w'.turn.status = w.turn.status → w'.turn.record.attempt = w.turn.record.attempt +
        (decide (w.turn.status = .checking ∧ w'.turn.status.isRepaired = true)).toNat := by
    intro w' hattempt hs
    have hnot : ¬(w.turn.status = .checking ∧ w'.turn.status.isRepaired = true) := by
      rintro ⟨hc, hrepaired⟩
      rw [hs.trans hc] at hrepaired
      cases hrepaired
    rw [decide_eq_false hnot]
    exact hattempt
  by_cases hm : ∃ base r, m = .reply base r
  · obtain ⟨base, r, rfl⟩ := hm
    by_cases ha : w.turn.point.awaits r = true
    · exact ((Turn.advance_ticks h.placed ha base).passes h.placed).attempt
    · rw [repairs, step_of_not_awaited (Bool.eq_false_iff.2 ha)]
      exact hstay rfl rfl
  · obtain ⟨-, -, hcase⟩ := step_gauge (w := w) (m := m) fun base r he => hm ⟨base, r, he⟩
    have hg : (w.step m).turn.record.attempt = w.turn.record.attempt ∧
        (w.step m).turn.status = w.turn.status := by
      rcases hcase with ⟨-, hg, -⟩ | ⟨-, -, prompt, hg⟩
      · exact ⟨congrArg Gauge.attempt hg, congrArg Gauge.status hg⟩
      · exact ⟨congrArg Gauge.attempt hg, congrArg Gauge.status hg⟩
    exact hstay hg.1 hg.2

/-- **The record counts the repairs of a run**: `attempt` grows by one at each of them. -/
theorem InOrder.attempt_after (h : w.InOrder policy limit) (moves : List Move) :
    (w.after moves).turn.record.attempt = w.turn.record.attempt + w.count repairs moves := by
  induction moves generalizing w with
  | nil => rfl
  | cons m moves ih =>
    have hrest := ih (h.step m)
    rw [h.attempt_step m, Nat.add_assoc] at hrest
    exact hrest

/-! ### Replies -/

/-- A move that is taken brings the turn nearer to its end, but a text. -/
theorem InOrder.rank_step (h : w.InOrder policy limit) (m : Move) :
    (w.step m).rank + (w.takes m).toNat ≤ w.rank + 3 * (w.hears m).toNat := by
  by_cases hm : ∃ base r, m = .reply base r
  · obtain ⟨base, r, rfl⟩ := hm
    by_cases ha : w.turn.point.awaits r = true
    · have hlt := (Turn.advance_ticks h.placed ha base).rank_lt h.counted
      rw [show w.takes (.reply base r) = true from ha]
      exact hlt
    · rw [step_of_not_awaited (Bool.eq_false_iff.2 ha),
        show w.takes (.reply base r) = false from Bool.eq_false_iff.2 ha]
      exact Nat.le_add_right _ _
  · obtain ⟨-, hheard, hcase⟩ := step_gauge (w := w) (m := m) fun base r he => hm ⟨base, r, he⟩
    rw [hheard, rank, rank]
    rcases hcase with ⟨htakes, hg, hp⟩ | ⟨hidle, hp, prompt, hg⟩
    · rw [htakes, hg, hp]
      exact Nat.le_refl _
    · rw [hg, hp, hidle]
      have hone := Bool.toNat_le (w.takes m)
      simp only [Gauge.rank, Gauge.tries, Point.rest]
      omega

/-- **A run takes so many replies at most**, three more for each text: the `rank` of the run goes
    down at each of them. -/
theorem InOrder.takes_le (h : w.InOrder policy limit) (moves : List Move) :
    w.count takes moves + (w.after moves).rank ≤ w.rank + 3 * w.count hears moves := by
  induction moves generalizing w with
  | nil => exact Nat.le_of_eq (Nat.zero_add _)
  | cons m moves ih =>
    have hstep := h.rank_step m
    have hrest : (w.step m).count takes moves + (w.after (m :: moves)).rank ≤
        (w.step m).rank + 3 * (w.step m).count hears moves := ih (h.step m)
    simp only [count]
    omega

/-- A text belongs to one of the generations. -/
theorem InOrder.hears_le (h : w.InOrder policy limit) (moves : List Move) :
    w.count hears moves ≤ ∑ i ∈ Finset.range (limit + 2), w.count (hearsIn i) moves := by
  induction moves generalizing w with
  | nil => exact Nat.zero_le _
  | cons m moves ih =>
    have hrest := ih (h.step m)
    have hone : (w.hears m).toNat ≤ ∑ i ∈ Finset.range (limit + 2), (hearsIn i w m).toNat := by
      have hlen : w.turn.prompts.length ∈ Finset.range (limit + 2) := by
        have hstreams : w.turn.prompts.length ≤ w.turn.record.attempt + w.turn.point.streams :=
          h.counted.streams
        have hbounded : w.turn.record.attempt ≤ w.turn.budget.maxAttempts := h.counted.bounded
        have hlimit := h.limit
        have hpoint := w.turn.point.streams_le
        rw [Finset.mem_range]
        omega
      have hin : hearsIn w.turn.prompts.length w m = w.hears m := by
        rw [hearsIn, beq_self_eq_true, Bool.and_true]
      rw [← hin]
      exact Finset.single_le_sum (f := fun i => (hearsIn i w m).toNat)
        (fun i _ => Nat.zero_le _) hlen
    simp only [count, Finset.sum_add_distrib]
    omega

/-! ### Endless worlds -/

/-- The first `n` of the endless sequence `moves`. -/
def first (moves : Nat → Move) (n : Nat) : List Move := (List.range n).map moves

theorem first_succ (moves : Nat → Move) (n : Nat) :
    first moves (n + 1) = first moves n ++ [moves n] := by
  rw [first, List.range_succ, List.map_append]
  rfl

theorem count_concat (f : Run → Move → Bool) (w : Run) (moves : List Move) (m : Move) :
    w.count f (moves ++ [m]) = w.count f moves + (f (w.after moves) m).toNat := by
  induction moves generalizing w with
  | nil => exact (Nat.add_zero _).trans (Nat.zero_add _).symm
  | cons m' moves ih =>
    show (f w m').toNat + (w.step m').count f (moves ++ [m]) = _
    rw [ih, ← Nat.add_assoc]
    rfl

theorem count_mono (f : Run → Move → Bool) (w : Run) (moves : Nat → Move) {n n' : Nat}
    (h : n ≤ n') : w.count f (first moves n) ≤ w.count f (first moves n') := by
  induction h with
  | refl => exact Nat.le_refl _
  | step _ ih =>
    rw [first_succ, count_concat]
    exact Nat.le_add_right_of_le ih

/-- A world that always goes on replying makes any number of replies. -/
theorem exists_takes {moves : Nat → Move}
    (hgoes : ∀ n, ∃ j, n ≤ j ∧ (w.after (first moves j)).takes (moves j) = true) (c : Nat) :
    ∃ n, c ≤ w.count takes (first moves n) := by
  induction c with
  | zero => exact ⟨0, Nat.zero_le _⟩
  | succ c ih =>
    obtain ⟨n, hn⟩ := ih
    obtain ⟨j, hj, htakes⟩ := hgoes n
    have hle := count_mono takes w moves hj
    refine ⟨j + 1, ?_⟩
    rw [first_succ, count_concat, htakes, Bool.toNat_true]
    omega

/-- **A turn ends in every world that goes on replying** and writes finitely many texts in each
    generation, at most `lengths i` in the one with the number `i`. -/
theorem InOrder.exists_isOver (h : w.InOrder policy limit) {moves : Nat → Move}
    {lengths : Nat → Nat} (hlengths : ∀ n i, w.count (hearsIn i) (first moves n) ≤ lengths i)
    (hgoes : ∀ n, (w.after (first moves n)).turn.isOver = false →
      ∃ j, n ≤ j ∧ (w.after (first moves j)).takes (moves j) = true) :
    ∃ n, (w.after (first moves n)).turn.isOver = true := by
  by_contra hnever
  have hopen : ∀ n, (w.after (first moves n)).turn.isOver = false :=
    fun n => Bool.eq_false_iff.2 fun hover => hnever ⟨n, hover⟩
  let bound := w.rank + 3 * ∑ i ∈ Finset.range (limit + 2), lengths i
  obtain ⟨n, hn⟩ := exists_takes (fun n => hgoes n (hopen n)) (bound + 1)
  have htaken := h.takes_le (first moves n)
  have htexts : w.count hears (first moves n) ≤ ∑ i ∈ Finset.range (limit + 2), lengths i :=
    (h.hears_le _).trans (Finset.sum_le_sum fun i _ => hlengths n i)
  omega

/-- Until it is over, a turn waits to be started or for a reply. -/
theorem exists_taken (h : w.turn.isOver = false) : ∃ m, w.takes m = true := by
  unfold Turn.isOver at h
  unfold takes
  cases hp : w.turn.point with
  | idle => exact ⟨.start "", rfl⟩
  | «over» e =>
    rw [hp] at h
    cases h
  | _ => exact ⟨.reply default (.failed .cancelled), rfl⟩

/-! ## The whole -/

/-- A turn has failed for want of repairs exactly if it has ended, not by a cancellation, with all
    its repairs used and problems found by the check behind the last one. -/
theorem InOrder.exhausted_iff (h : w.InOrder policy limit) :
    w.turn.status = .failed ∧ w.turn.record.reason = some .budgetExhausted ↔
      w.turn.status.isTerminal = true ∧ w.turn.status ≠ .cancelled ∧
        w.turn.record.attempt = limit ∧ w.turn.budget.checksUsed = w.turn.record.attempt + 1 ∧
        ∃ ps, ps ≠ [] ∧ LastFound w.answers ps := by
  have hv := h.judged.grounds
  constructor
  · rintro ⟨hs, hr⟩
    obtain ⟨hrepairs, hchecks, ps, hne, hrecords⟩ := hv.exhausted hr
    rw [hs]
    exact ⟨rfl, nofun, hrepairs.trans h.limit, hchecks, ps, hne, hrecords.last⟩
  · rintro ⟨hterminal, hkept, -, hchecks, ps, hne, request, hlast⟩
    have hclean : w.turn.status ≠ .clean := fun hc => by
      obtain ⟨q, hq⟩ := hv.clean hc
      cases hlast.symm.trans hq
      exact hne rfl
    have hs : w.turn.status = .failed := by
      revert hterminal hkept hclean
      cases w.turn.status <;> decide
    refine ⟨hs, ?_⟩
    cases hr : w.turn.record.reason with
    | none => exact absurd hr (hv.reason.2 hs)
    | some reason =>
      cases reason with
      | budgetExhausted => rfl
      | checkerUnavailable => exact absurd ⟨request, hlast⟩ (hv.unavailable hr ps)
      | generationFailed =>
        have hused : w.turn.budget.checksUsed = w.turn.record.attempt := hv.broken hr
        omega

/-- A turn that is told of problems fails if there is no repair left. -/
theorem InOrder.fails_exhausted (h : w.InOrder policy limit) {ps : List Problem}
    (hp : w.turn.point = .tellingDiagnostics ps) (hne : ps ≠ [])
    (hattempt : w.turn.record.attempt = limit) (base : BaseTree) :
    (w.turn.advance base .told).status = .failed ∧
      (w.turn.advance base .told).record.reason = some .budgetExhausted := by
  have hs : w.turn.status = .checking := h.placed.admits hp
  have hno : ¬w.turn.budget.canRepair = true := fun hc => by
    have hlt := Budget.canRepair_iff.1 hc
    have hrepairs : w.turn.record.attempt = w.turn.budget.attemptsUsed := h.counted.repairs
    have hlimit := h.limit
    omega
  rw [Turn.advance_problems base hp, Turn.judged, if_neg (mt List.isEmpty_iff.1 hne), if_neg hno]
  obtain ⟨he, -⟩ := Turn.fail_ends
    (t := w.turn.sayLine "REPAIR" (w.turn.budget.exhaustionReport ps.length)) (.inr hs)
    .budgetExhausted .loop
  exact ⟨he.status, he.reason⟩

end Moves

/-- **The repair loop is bounded and its counters agree.** However an agent writes, the type checker
    answers, listeners fail and cancellations come in: wherever a turn waits behind `moves`, its
    record and its `budget` count the repairs that it went into, it was checked once for each
    generation but maybe the last, and it asked for one generation more than it was repaired at
    most. No use of the budget is refused. Each call of the type checker is counted, and each check
    calls it as often as the retry policy has it tried at most, `tries`. A turn fails for want of
    repairs exactly if all `limit` are used and the check behind the last one found problems, which
    are then on record, sorted. And a turn is over at some time in every world that goes on
    replying, if each generation is finite. -/
theorem repair_loop_bounded {config : TurnConfig} {maxAttempts : Int} {t : Turn}
    (ht : Turn.new? config maxAttempts = some t) :
    let limit := maxAttempts.toNat
    let tries := (config.policy.maxRetries + 1).toNat
    (∀ moves : List Move,
      let w := (new t).after moves
      let budget := w.turn.budget
      let attempt := w.turn.record.attempt
      -- the counters
      (attempt = budget.attemptsUsed ∧ attempt = (new t).count repairs moves ∧ attempt ≤ limit ∧
        attempt ≤ budget.checksUsed ∧ budget.checksUsed ≤ attempt + 1 ∧
        w.turn.prompts.length ≤ attempt + 1) ∧
      -- the uses of the budget
      ((∀ p, w.turn.point = .closing (.ended p) → budget.useCheck.2 = true) ∧
        ∀ ps, w.turn.point = .tellingDiagnostics ps → budget.canRepair = true →
          (budget.useRepair ps.length).2 = true) ∧
      -- the calls of the type checker
      (w.turn.requests = w.answers.map Prod.fst ++ w.turn.point.asked ∧
        w.turn.checkCalls = w.turn.requests.length ∧
        w.turn.checkCalls ≤ (limit + 1) * tries ∧
        ∀ r, w.turn.result = some r → r.checkCalls = w.turn.requests.length) ∧
      -- failing for want of repairs
      ((w.turn.status = .failed ∧ w.turn.record.reason = some .budgetExhausted ↔
          w.turn.status.isTerminal = true ∧ w.turn.status ≠ .cancelled ∧ attempt = limit ∧
            budget.checksUsed = attempt + 1 ∧ ∃ ps, ps ≠ [] ∧ LastFound w.answers ps) ∧
        (∀ ps, w.turn.point = .tellingDiagnostics ps → ps ≠ [] → attempt = limit → ∀ base,
          (w.turn.advance base .told).status = .failed ∧
            (w.turn.advance base .told).record.reason = some .budgetExhausted) ∧
        (w.turn.record.reason = some .budgetExhausted → ∀ ps, LastFound w.answers ps →
          w.turn.record.diagnostics = sortProblems ps ∧
            w.turn.record.history.getLast? = some (sortProblems ps))) ∧
      -- the replies
      ((w.turn.isOver = false → ∃ m, w.takes m = true) ∧
        (new t).count takes moves ≤
          limit * (2 * tries + 4) + (2 * tries + 6) + 3 * (new t).count hears moves)) ∧
    ∀ (moves : Nat → Move) (lengths : Nat → Nat),
      (∀ n i, (new t).count (hearsIn i) (first moves n) ≤ lengths i) →
      (∀ n, ((new t).after (first moves n)).turn.isOver = false →
        ∃ j, n ≤ j ∧ ((new t).after (first moves j)).takes (moves j) = true) →
      ∃ n, ((new t).after (first moves n)).turn.isOver = true := by
  intro limit tries
  obtain ⟨hnew, -⟩ := new_inOrder ht
  refine ⟨fun moves => ?_, fun moves lengths => hnew.exists_isOver⟩
  intro w budget attempt
  have h : w.InOrder config.policy limit := hnew.after moves
  have hcounted := h.counted
  have hlimit : attempt ≤ limit := h.limit ▸ hcounted.bounded
  have htries : w.turn.gauge.tries = tries := by rw [Gauge.tries, h.policy]
  have hattempt : attempt = (new t).count repairs moves := by
    have hzero : (new t).turn.record.attempt = 0 := by
      obtain ⟨b, -, rfl⟩ := Option.map_eq_some_iff.1 ht
      rfl
    have hafter := hnew.attempt_after moves
    rw [hzero, Nat.zero_add] at hafter
    exact hafter
  refine ⟨⟨hcounted.repairs, hattempt, hlimit, hcounted.checks.1, hcounted.checks.2, ?_⟩,
    ⟨fun p hp => ?_, fun ps hp hc => ?_⟩, ⟨hcounted.asked, hcounted.calls, ?_, fun r hr => ?_⟩,
    ⟨h.exhausted_iff, fun ps hp hne ha base => h.fails_exhausted hp hne ha base,
      fun hr ps hlast => ?_⟩, exists_taken, ?_⟩
  · have hstreams : w.turn.prompts.length ≤ attempt + w.turn.point.streams := hcounted.streams
    have hpoint := w.turn.point.streams_le
    omega
  · rw [Budget.useCheck_of_lt (Tallied.check_left hcounted.toAdds (h.placed.admits hp))]
  · rw [Budget.useRepair_of_canRepair hc]
  · have htried : w.turn.checkCalls ≤ budget.checksUsed * tries := htries ▸ hcounted.tried
    have hchecks : budget.checksUsed ≤ limit + 1 :=
      hcounted.checks.2.trans (Nat.succ_le_succ hlimit)
    exact htried.trans (Nat.mul_le_mul_right _ hchecks)
  · rw [(hcounted.result r hr).2.checkCalls, hcounted.calls]
    rfl
  · obtain ⟨-, -, qs, -, ⟨request, hfound⟩, hdiagnostics, hhistory⟩ := h.judged.grounds.exhausted hr
    obtain ⟨request', hlast⟩ := hlast
    cases hlast.symm.trans hfound
    exact ⟨hdiagnostics, hhistory⟩
  · have hrank : (new t).rank = limit * (2 * tries + 4) + (2 * tries + 6) := by
      obtain ⟨b, hb, rfl⟩ := Option.map_eq_some_iff.1 ht
      unfold Budget.new? at hb
      split at hb <;> cases hb
      rfl
    have htaken := hnew.takes_le moves
    rw [hrank] at htaken
    exact (Nat.le_add_right _ _).trans htaken

/-- The agent deletes a path and is told of a problem; it writes nothing more, the problem stays,
    and the turn fails for want of another repair. -/
theorem repaired_turn_exhausts :
    let policy : RetryPolicy := ⟨1, .real (.finite false 120 0), .whole 0⟩
    let config : TurnConfig := ⟨"session", "turn", "pl", none, policy, 50⟩
    let text := String.ofList (Parser.deleteTag ['a'])
    let found : List Problem := [⟨"b", 1, 1, "wrong", 7, none⟩]
    let judged : List Move := [.start "go", .reply default .opened, .reply default (.chunk text),
      .reply default .told, .reply default .told, .reply default .ended, .reply default .closed,
      .reply default (.checked found)]
    let moves := judged ++ [.reply default .told, .reply default .opened, .reply default .ended,
      .reply default .closed, .reply default (.checked found)]
    ∃ t, Turn.new? config 1 = some t ∧
      let w := (new t).after moves
      let u := w.turn.advance default .told
      w.turn.record.attempt = 1 ∧ (new t).count repairs moves = 1 ∧
        w.turn.overlay.snapshot.deletes = ["a"] ∧ w.turn.prompts.length ≤ 2 ∧
        w.turn.checkCalls ≤ 4 ∧ u.status = .failed ∧ u.record.reason = some .budgetExhausted := by
  intro policy config text found judged moves
  obtain ⟨t, hnew⟩ : ∃ t, Turn.new? config 1 = some t := ⟨_, rfl⟩
  have hfed : (Parser.ofMark "pl").feed text.toList = _ := Parser.feed_deleteText
  clear_value text
  obtain ⟨digest, hdigest⟩ : ∃ digest, repairDigest 50 (sortProblems found) = .ok digest := by
    rw [repairDigest_sortProblems]
    exact ⟨_, by cbv⟩
  have hne : sortProblems found ≠ [] := fun hnil =>
    absurd (sortProblems_eq_nil.1 hnil) (List.cons_ne_nil _ _)
  obtain ⟨hall, -⟩ := repair_loop_bounded hnew
  obtain ⟨⟨-, hcount, -, -, -, hprompts⟩, -, ⟨-, -, hcalls, -⟩, ⟨-, hfails, -⟩, -⟩ := hall moves
  -- the turn at its first verdict
  let v := ((new t).after judged).turn
  have hfirst : v.Checks config 1 ∧ v.point = .tellingDiagnostics (sortProblems found) ∧
      v.overlay.snapshot.deletes = ["a"] := by
    cases hnew
    have htaken : v = (((((Turn.takeText default _ (Parser.ofMark "pl") text).advance default
      .told).advance default .ended).advance default .closed).advance default (.checked found)) :=
        rfl
    rw [htaken, Turn.takeText_of_read hfed]
    refine ⟨⟨?_, ?_, ?_, ?_, ?_⟩, ?_, ?_⟩
    all_goals rfl
  obtain ⟨hchecks, hpoint, hdeletes⟩ := hfirst
  have hrepair : v.advance default .told = v.repair (sortProblems found) := by
    rw [Turn.advance_problems default hpoint, Turn.judged_of_repairs hchecks hne]
  obtain ⟨hopens, hsame⟩ := hchecks.repair_opens hdigest
  rw [← hrepair] at hopens hsame
  -- the agent is silent, and the turn is at its last verdict
  obtain ⟨hlast, hkept, hp⟩ := hopens.silence rfl rfl default found
  change Turn.Checks config 0 ((new t).after moves).turn at hlast
  have hattempt : ((new t).after moves).turn.record.attempt = 1 := by
    have hin := (new_inOrder hnew).1.after moves
    have hused : ((new t).after moves).turn.record.attempt = _ := hin.counted.repairs
    exact (hused.trans hlast.repairs).trans hin.limit
  obtain ⟨hs, hr⟩ := hfails _ hp hne hattempt default
  rw [hattempt] at hcount hprompts
  refine ⟨t, hnew, hattempt, hcount.symm, ?_, hprompts, hcalls, hs, hr⟩
  rw [show ((new t).after moves).turn.overlay = v.overlay from hkept.trans hsame, hdeletes]

end Run

end StagedEdits
