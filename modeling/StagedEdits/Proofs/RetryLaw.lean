import Mathlib.Data.Nat.Find
import StagedEdits.Proofs.TurnOutcome

set_option autoImplicit false

/-! # How often a check is tried

A check is tried until the type checker finds problems or none, or is cancelled, and given up when
no try is left. Problems are never tried again, and a failure is never taken for problems. Two
settings stand out: with a time limit that no try can meet the type checker is not called at all,
and without a pause that a clock can take there is no second try.

Main definitions: `CheckReply.Concludes`, `RetryPolicy.tryOf`, `RetryPolicy.possible`. Main
statements: `RetryPolicy.runFrom_failed` (one try), `RetryPolicy.run_reaches` (some tries),
`RetryPolicy.run_cases` (a whole check). -/

namespace StagedEdits

namespace CheckReply

/-- That a reply ends a check: problems do, and a cancellation. -/
def Concludes : CheckReply → Prop
  | .problems _ => True
  | .failed f => f = .cancelled

/-- What a check comes to by a reply that `Concludes` it. -/
def outcome : CheckReply → Except Failure (List Problem)
  | .problems ps => .ok ps
  | .failed f => .error f

end CheckReply

namespace RetryPolicy

variable (p : RetryPolicy) (label : String) (answer : Nat → CheckReply)

/-- How often a check is tried at most. -/
def tries : Nat := (p.maxRetries + 1).toNat

/-- How many tries of a check there can be: no second one without a pause before it. -/
def possible : Nat := if p.cannotPause then min 1 p.tries else p.tries

/-- How often the type checker is called in `n` tries: never, if each of them is over before. -/
def callsIn (n : Nat) : Nat := if p.earlyFailure?.isSome then 0 else n

/-- What a try comes to behind `n` ones that failed. -/
def tryOf (n : Nat) : CheckReply :=
  match p.earlyFailure? with
  | some f => .failed f
  | none => answer n

/-- The reason for which the last try failed. -/
def lastReason : String :=
  match p.tries with
  | 0 => ""
  | n + 1 =>
    match p.tryOf answer n with
    | .problems _ => ""
    | .failed f => p.reason f

theorem possible_le_tries : p.possible ≤ p.tries := by
  unfold possible
  split
  · exact Nat.min_le_right _ _
  · exact Nat.le_refl _

variable {p answer}

theorem lt_possible_iff {n : Nat} :
    n < p.possible ↔ n < p.tries ∧ (n = 0 ∨ p.cannotPause = false) := by
  unfold possible
  cases p.cannotPause with
  | true =>
    rw [if_pos rfl, Nat.lt_min, Nat.lt_one_iff, and_comm, or_iff_left nofun]
  | false => rw [if_neg nofun, and_iff_left (.inr rfl)]

@[simp] theorem callsIn_zero : p.callsIn 0 = 0 := by
  unfold callsIn
  split <;> rfl

theorem oneTry_callsIn (n : Nat) :
    p.oneTry answer (p.callsIn n) = (p.tryOf answer n, p.callsIn (n + 1)) := by
  unfold oneTry callsIn tryOf
  cases p.earlyFailure? with
  | some f => rfl
  | none => rfl

theorem after_failed {f : Failure} (hf : f ≠ .cancelled) :
    p.after (.failed f) = .failed (p.reason f) := by
  cases f <;> first | rfl | exact absurd rfl hf

theorem tryOf_of_called (h : p.earlyFailure? = none) : p.tryOf answer = answer := by
  funext n
  rw [tryOf, h]

theorem callsIn_of_called (h : p.earlyFailure? = none) (n : Nat) : p.callsIn n = n := by
  rw [callsIn, h]
  rfl

/-- A try that is over before the type checker is called fails. -/
theorem tryOf_of_early {f : Failure} (h : p.earlyFailure? = some f) (n : Nat) :
    p.tryOf answer n = .failed f ∧ ¬(p.tryOf answer n).Concludes := by
  have htry : p.tryOf answer n = .failed f := by rw [tryOf, h]
  refine ⟨htry, ?_⟩
  rw [htry]
  rintro rfl
  unfold earlyFailure? at h
  split at h
  · cases h
  · split at h <;> cases h

/-! ## One try -/

variable {failed : Nat} {reason : String} {said : List Entry}

/-- A try that is possible is made. -/
theorem runFrom_possible (h : failed < p.possible) (reason : String) (said : List Entry) :
    p.runFrom label answer (p.tries - failed) failed (p.callsIn failed) reason said =
      let said := said ++ p.tryEntries label failed
      match p.after (p.tryOf answer failed) with
      | .answered ps => ⟨.ok ps, p.callsIn (failed + 1), said⟩
      | .cancelled => ⟨.error .cancelled, p.callsIn (failed + 1), said⟩
      | .failed reason =>
        p.runFrom label answer (p.tries - (failed + 1)) (failed + 1) (p.callsIn (failed + 1)) reason
          (said ++ [failedEntry label failed reason]) := by
  obtain ⟨htries, hpause⟩ := lt_possible_iff.1 h
  have hleft : p.tries - failed = p.tries - (failed + 1) + 1 := by omega
  have hgoes : ¬(0 < failed && p.cannotPause) = true := by
    rcases hpause with rfl | hpause
    · exact nofun
    · rw [hpause, Bool.and_false]
      exact nofun
  rw [hleft, runFrom_succ, oneTry_callsIn]
  exact if_neg hgoes

/-- A reply that ends a check is what the check comes to. -/
theorem runFrom_concluded (h : failed < p.possible) (hc : (p.tryOf answer failed).Concludes)
    (reason : String) (said : List Entry) :
    let run := p.runFrom label answer (p.tries - failed) failed (p.callsIn failed) reason said
    run.outcome = (p.tryOf answer failed).outcome ∧ run.calls = p.callsIn (failed + 1) := by
  intro run
  have hrun : run = _ := runFrom_possible label h reason said
  rw [hrun]
  cases htry : p.tryOf answer failed with
  | problems ps => exact ⟨rfl, rfl⟩
  | failed f =>
    rw [htry] at hc
    cases hc
    exact ⟨rfl, rfl⟩

/-- Behind a try that fails the check goes on with the next one, for the reason of the failure. -/
theorem runFrom_failed (h : failed < p.possible) (hc : ¬(p.tryOf answer failed).Concludes)
    (reason : String) (said : List Entry) :
    ∃ f said', p.tryOf answer failed = .failed f ∧
      p.runFrom label answer (p.tries - failed) failed (p.callsIn failed) reason said =
        p.runFrom label answer (p.tries - (failed + 1)) (failed + 1) (p.callsIn (failed + 1))
          (p.reason f) said' := by
  rw [runFrom_possible label h]
  cases htry : p.tryOf answer failed with
  | problems ps =>
    rw [htry] at hc
    exact absurd trivial hc
  | failed f =>
    rw [htry] at hc
    rw [after_failed hc]
    exact ⟨f, _, rfl, rfl⟩

/-! ## Some tries -/

/-- The type checker is not called less often in the whole. -/
theorem calls_le_runFrom (left failed calls : Nat) (reason : String) (said : List Entry) :
    calls ≤ (p.runFrom label answer left failed calls reason said).calls := by
  induction left generalizing failed calls reason said with
  | zero => exact Nat.le_refl _
  | succ left ih =>
    have hmore : calls ≤ (p.oneTry answer calls).2 := by
      unfold oneTry
      cases p.earlyFailure? with
      | some f => exact Nat.le_refl _
      | none => exact Nat.le_succ _
    rw [runFrom_succ]
    dsimp only
    split
    · exact Nat.le_refl _
    · split
      · exact hmore
      · exact hmore
      · exact Nat.le_trans hmore (ih ..)

/-- **As long as the tries fail, the check goes on**: behind `n` of them it goes on by `runFrom`. -/
theorem run_reaches {n : Nat} (hn : n ≤ p.possible)
    (h : ∀ j < n, ¬(p.tryOf answer j).Concludes) :
    ∃ reason said, p.run label answer =
        p.runFrom label answer (p.tries - n) n (p.callsIn n) reason said ∧
      (n = p.tries → reason = p.lastReason answer) := by
  induction n with
  | zero =>
    refine ⟨"", [], by rw [callsIn_zero]; rfl, fun htries => ?_⟩
    rw [lastReason, ← htries]
  | succ n ih =>
    obtain ⟨reason, said, hrun, -⟩ := ih (by omega) fun j hj => h j (by omega)
    obtain ⟨f, said', hf, hnext⟩ := runFrom_failed label (by omega) (h n (by omega)) reason said
    refine ⟨_, _, hrun.trans hnext, fun htries => ?_⟩
    rw [lastReason, ← htries]
    dsimp only
    rw [hf]

/-- Each try that is reached and possible counts. -/
theorem callsIn_le_run {n : Nat} (hn : n < p.possible)
    (h : ∀ j < n, ¬(p.tryOf answer j).Concludes) :
    p.callsIn (n + 1) ≤ (p.run label answer).calls := by
  obtain ⟨reason, said, hrun, -⟩ := run_reaches label (Nat.le_of_lt hn) h
  rw [hrun]
  by_cases hc : (p.tryOf answer n).Concludes
  · exact Nat.le_of_eq (runFrom_concluded label hn hc reason said).2.symm
  · obtain ⟨f, said', -, hnext⟩ := runFrom_failed label hn hc reason said
    rw [hnext]
    exact calls_le_runFrom label ..

/-! ## A whole check -/

/-- The first reply that ends a check is what it comes to. -/
theorem run_of_concludes {n : Nat} (hn : n < p.possible)
    (h : ∀ j < n, ¬(p.tryOf answer j).Concludes) (hc : (p.tryOf answer n).Concludes) :
    (p.run label answer).outcome = (p.tryOf answer n).outcome ∧
      (p.run label answer).calls = p.callsIn (n + 1) := by
  obtain ⟨reason, said, hrun, -⟩ := run_reaches label (Nat.le_of_lt hn) h
  rw [hrun]
  exact runFrom_concluded label hn hc reason said

/-- A check of which each try fails is given up, or ends where there can be no pause. -/
theorem run_of_fails (h : ∀ j < p.possible, ¬(p.tryOf answer j).Concludes) :
    (p.run label answer).outcome = .error (if p.possible < p.tries then .clockOverflow
      else .fault (p.givenUp (p.lastReason answer))) ∧
    (p.run label answer).calls = p.callsIn p.possible := by
  obtain ⟨reason, said, hrun, hreason⟩ := run_reaches label (Nat.le_refl _) h
  rw [hrun]
  by_cases hlt : p.possible < p.tries
  · have hpause : ¬(p.possible = 0 ∨ p.cannotPause = false) :=
      fun hp => Nat.lt_irrefl _ (lt_possible_iff.2 ⟨hlt, hp⟩)
    obtain ⟨hpos, hcannot⟩ := not_or.1 hpause
    have hstops : (0 < p.possible && p.cannotPause) = true := by
      rw [Bool.not_eq_false] at hcannot
      rw [hcannot, Bool.and_true, decide_eq_true_iff]
      omega
    have hleft : p.tries - p.possible = p.tries - p.possible - 1 + 1 := by omega
    rw [hleft, runFrom_succ]
    dsimp only
    rw [if_pos hstops, if_pos hlt]
    exact ⟨rfl, rfl⟩
  · have hall : p.possible = p.tries := Nat.le_antisymm p.possible_le_tries (Nat.le_of_not_lt hlt)
    rw [if_neg hlt, hreason hall, hall, Nat.sub_self]
    exact ⟨rfl, rfl⟩

variable (answer)

/-- With a time limit that no try can meet the type checker is never called. -/
theorem calls_of_early {f : Failure} (h : p.earlyFailure? = some f) :
    (p.run label answer).calls = 0 := by
  have hfails : ∀ j < p.possible, ¬(p.tryOf answer j).Concludes :=
    fun j _ => (tryOf_of_early h j).2
  rw [(run_of_fails label hfails).2, callsIn, h]
  rfl

end RetryPolicy

end StagedEdits
