import StagedEdits.Proofs.DigestText
import StagedEdits.Proofs.RepairLoop

set_option autoImplicit false

/-! # What an agent is asked to repair

A turn asks its agent once by the prompt that it was started with, and from then on by digests. The
problems of a digest are those that the type checker found, and though they are sorted on the way,
the digest is the one of the list as the type checker gave it.

Main definitions: `Turn.asked`, `Run.AsksFor`. Main statements: `Turn.Takes.asked` (one reply),
`Run.AsksFor.step` (one move), `digest_shows_first`. -/

namespace StagedEdits

namespace Turn

/-- What is fixed for `t`, and what it has asked its agent for. -/
def asked (t : Turn) : TurnConfig × List String := (t.config, t.prompts)

section Asked

variable (t : Turn)

theorem moveTo_asked {s : TurnStatus} {next : Turn → Turn}
    (hnext : ∀ u : Turn, u.asked = t.asked → (next u).asked = t.asked) :
    (t.moveTo s next).asked = t.asked := by
  unfold moveTo
  split
  · rfl
  · exact hnext _ rfl

theorem finishCancelled_asked (frame : Frame) : (t.finishCancelled frame).asked = t.asked :=
  t.moveTo_asked fun _ hu => hu

theorem fail_asked (reason : FailureReason) (frame : Frame) :
    (t.fail reason frame).asked = t.asked :=
  moveTo_asked _ fun _ hu => hu

theorem abort_asked (f : Failure) : (t.abort f).asked = t.asked := by
  unfold abort
  split
  · exact t.finishCancelled_asked .handler
  · rfl

theorem callCheck_asked (request : Snapshot) (failed : Nat) :
    (t.callCheck request failed).asked = t.asked := by
  unfold callCheck
  split <;> rfl

theorem tryCheck_asked (request : Snapshot) (failed : Nat) (reason : String) :
    (t.tryCheck request failed reason).asked = t.asked := by
  unfold tryCheck
  dsimp only
  split
  · split
    · exact callCheck_asked _ request failed
    · split
      · exact abort_asked _ .clockOverflow
      · rfl
  · exact fail_asked _ .checkerUnavailable .loop

theorem beginCheck_asked : t.beginCheck.asked = t.asked := by
  unfold beginCheck
  dsimp only
  split
  · exact fail_asked _ .budgetExhausted .loop
  · exact tryCheck_asked _ _ 0 ""

theorem takeProblems_asked (ps : List Problem) : (t.takeProblems ps).asked = t.asked := by
  unfold takeProblems
  dsimp only
  split
  · exact t.finishCancelled_asked .loop
  · rfl

theorem takeReply_asked (request : Snapshot) (failed : Nat) (reply : CheckReply) :
    (t.takeReply request failed reply).asked = t.asked := by
  unfold takeReply
  split
  · exact t.takeProblems_asked _
  · exact t.abort_asked .cancelled
  · exact tryCheck_asked _ request (failed + 1) _

theorem readOn_asked (p : Parser) : (t.readOn p).asked = t.asked := by
  unfold readOn
  split
  · exact t.finishCancelled_asked .stream
  · rfl

theorem endStream_asked (p : Parser) : (t.endStream p).asked = t.asked := by
  unfold endStream
  dsimp only
  split
  · exact finishCancelled_asked _ .loop
  · exact moveTo_asked _ fun u hu => u.beginCheck_asked.trans hu

theorem applyParsed_asked (base : BaseTree) (p : Parser) (ds : List Parsed) :
    (t.applyParsed base p ds).asked = t.asked := by
  unfold applyParsed
  generalize t.applier.applyBatch base t.config.session (ds.map .parsed) = r
  obtain ⟨a, b⟩ := r
  dsimp only
  split
  · rfl
  · split
    · rfl
    · exact readOn_asked _ p

theorem takeText_asked (base : BaseTree) (p : Parser) (text : String) :
    (t.takeText base p text).asked = t.asked := by
  unfold takeText
  dsimp only
  split
  · rfl
  · split
    · exact readOn_asked _ _
    · exact applyParsed_asked _ base _ _

/-- Problems that were told lead to a digest of them, or to no further prompt. -/
theorem judged_asked (ps : List Problem) :
    (t.judged ps).asked = t.asked ∨
      ps ≠ [] ∧ ∃ digest, repairDigest t.config.digestLimit ps = .ok digest ∧
        (t.judged ps).asked = (t.config, t.prompts ++ [digest]) := by
  unfold judged
  split
  · exact .inl (t.moveTo_asked fun _ hu => hu)
  · rename_i hne
    split
    · -- a repair passes through two statuses, and running ends at one that is not allowed
      unfold repair moveTo
      split
      · exact .inl rfl
      · dsimp only
        split
        · exact .inl rfl
        · rename_i digest hdigest
          split
          · exact .inl rfl
          · exact .inr ⟨fun hnil => hne (List.isEmpty_iff.2 hnil), digest, hdigest, rfl⟩
    · exact .inl (fail_asked _ .budgetExhausted .loop)

/-- **A reply asks the agent for nothing, unless it is that problems were told, which may lead to a
    digest of them.** -/
theorem Takes.asked {t u : Turn} {base : BaseTree} {r : Reply} (hu : t.Takes base r u) :
    u.asked = t.asked ∨ ∃ ps, t.point = .tellingDiagnostics ps ∧ ps ≠ [] ∧
      ∃ digest, repairDigest t.config.digestLimit ps = .ok digest ∧
        u.asked = (t.config, t.prompts ++ [digest]) := by
  cases hu with
  | problemsTold hp => exact (t.judged_asked _).imp_right fun h => ⟨_, hp, h⟩
  | opened | patchTold => exact .inl (t.readOn_asked _)
  | broken => exact .inl (fail_asked _ .generationFailed .stream)
  | textTold => exact .inl (t.takeText_asked base _ _)
  | closed => exact .inl (t.endStream_asked _)
  | checked => exact .inl (t.takeProblems_asked _)
  | unchecked | dismissed | undismissed => exact .inl (t.takeReply_asked _ _ _)
  | rested => exact .inl (t.callCheck_asked _ _)
  | unopened | raised | unclosed | unrested | problemsUntold => exact .inl (t.abort_asked _)
  | _ => exact .inl rfl

end Asked

/-- A turn that takes a reply has been started. -/
theorem Tick.ne_idle {t : Turn} {r : Reply} {k : Gauge} {p : Point} (hk : t.Tick r k p) :
    p ≠ .idle := by
  have hcalls {k k' : Gauge} {request : Snapshot} {failed : Nat}
      (hc : k.Calls request failed k' p) : p ≠ .idle := by
    cases hc <;> nofun
  have htries {k k' : Gauge} {request : Snapshot} {failed : Nat}
      (ht : k.Tries request failed k' p) : p ≠ .idle := by
    cases ht with
    | calls _ hc => exact hcalls hc
    | _ => nofun
  cases hk with
  | glides hq =>
    rintro rfl
    cases hq
  | begins _ _ _ ht => exact htries ht
  | retries _ ht => exact htries ht
  | resumes _ hc => exact hcalls hc
  | _ => nofun

end Turn

/-! ## Runs -/

/-- What is behind the first element of a list with one more at its end. -/
theorem mem_tail_concat {α : Type} {l : List α} {x y : α} (h : y ∈ (l ++ [x]).tail) :
    y ∈ l.tail ∨ y = x := by
  cases l with
  | nil => cases h
  | cons a l => exact (List.mem_append.1 h).imp_right List.mem_singleton.1

namespace Run

/-- That behind its first prompt the turn of `w` has asked for repairs of what its type checker
    found. -/
structure AsksFor (config : TurnConfig) (w : Run) : Prop where
  fixed : w.turn.config = config
  idle : w.turn.point = .idle → w.turn.prompts = []
  digests : ∀ prompt ∈ w.turn.prompts.tail, ∃ request found,
    (request, .problems found) ∈ w.answers ∧ found ≠ [] ∧
      repairDigest config.digestLimit found = .ok prompt

section Moves

variable {w w' : Run} {config : TurnConfig} {policy : RetryPolicy} {limit : Nat}

theorem AsksFor.of_asked (h : w.AsksFor config) (hasked : w'.turn.asked = w.turn.asked)
    (hidle : w'.turn.point = .idle → w.turn.point = .idle)
    (hanswers : ∀ answer ∈ w.answers, answer ∈ w'.answers) : w'.AsksFor config := by
  have hprompts : w'.turn.prompts = w.turn.prompts := congrArg Prod.snd hasked
  refine ⟨(congrArg Prod.fst hasked).trans h.fixed, fun hp => ?_, fun prompt hmem => ?_⟩
  · rw [hprompts, h.idle (hidle hp)]
  · rw [hprompts] at hmem
    obtain ⟨request, found, hfound, hrest⟩ := h.digests prompt hmem
    exact ⟨request, found, hanswers _ hfound, hrest⟩

/-- **A reply `r` asks for repairs only of what the type checker found.** -/
theorem AsksFor.reply (h : w.AsksFor config) (horder : w.InOrder policy limit) (base : BaseTree)
    (r : Reply) : (w.step (.reply base r)).AsksFor config := by
  cases hr : w.turn.point.awaits r with
  | false =>
    rw [step_of_not_awaited hr]
    exact h
  | true =>
    have hne := (Turn.advance_ticks horder.placed hr base).ne_idle
    have hanswers : ∀ answer ∈ w.answers, answer ∈ (w.step (.reply base r)).answers :=
      fun answer hmem => List.mem_append_left _ hmem
    rcases (Turn.takes_advance base w.turn r).asked with
      hasked | ⟨ps, hp, hps, digest, hdigest, hasked⟩
    · exact h.of_asked hasked (fun he => absurd he hne) hanswers
    · obtain ⟨found, ⟨⟨request, hlast⟩, -, -⟩, rfl⟩ := horder.judged.told ps hp
      obtain ⟨hconfig, hprompts⟩ := Prod.mk.inj hasked
      refine ⟨hconfig.trans h.fixed, fun he => absurd he hne, fun prompt hmem => ?_⟩
      rw [h.fixed, repairDigest_sortProblems] at hdigest
      rw [show (w.step (.reply base r)).turn.prompts = _ from hprompts] at hmem
      rcases mem_tail_concat hmem with hmem | rfl
      · obtain ⟨request, found, hfound, hrest⟩ := h.digests prompt hmem
        exact ⟨request, found, hanswers _ hfound, hrest⟩
      · exact ⟨request, found, hanswers _ (List.mem_of_getLast? hlast),
          fun hnil => hps (sortProblems_eq_nil.2 hnil), hdigest⟩

/-- **A move `m` asks for repairs only of what the type checker found.** -/
theorem AsksFor.step (h : w.AsksFor config) (horder : w.InOrder policy limit) (m : Move) :
    (w.step m).AsksFor config := by
  have hsame : ∀ answer ∈ w.answers, answer ∈ w.answers := fun _ => id
  cases m with
  | start prompt =>
    simp only [Run.step, Turn.start]
    cases hp : w.turn.point with
    | idle =>
      refine ⟨h.fixed, fun he => absurd he Point.noConfusion, fun again hmem => ?_⟩
      -- before the start there were no prompts
      have hprompts : again ∈ (w.turn.prompts ++ [prompt]).tail := hmem
      rw [h.idle hp] at hprompts
      cases hprompts
    | _ => exact h
  | reply base r => exact h.reply horder base r
  | cancel =>
    refine h.of_asked ?_ (fun hp => w.turn.cancel_point ▸ hp) hsame
    show w.turn.cancel.asked = w.turn.asked
    unfold Turn.cancel
    split <;> rfl
  | replay base log =>
    obtain ⟨-, -, -, hpoint⟩ := w.turn.replay_course base log
    refine h.of_asked ?_ (fun hp => hpoint ▸ hp) hsame
    show (w.turn.replay base log).1.asked = w.turn.asked
    unfold Turn.replay
    dsimp only
    split
    · rfl
    · split <;> rfl
  | discard => exact h.of_asked rfl id hsame
  | handOver force =>
    rcases w.step_handOver force with ⟨o, -, hw⟩ | hw
    · rw [hw]
      exact h.of_asked rfl id hsame
    · rw [hw]
      exact h
  | committed index outcome =>
    simp only [Run.step]
    cases w.handovers[index]? with
    | none => exact h
    | some _ => cases outcome <;> exact h.of_asked rfl id hsame

theorem new_asksFor {maxAttempts : Int} {t : Turn} (ht : Turn.new? config maxAttempts = some t) :
    (new t).AsksFor config := by
  obtain ⟨budget, -, rfl⟩ := Option.map_eq_some_iff.1 ht
  exact ⟨rfl, fun _ => rfl, nofun⟩

/-- **However a turn runs, it asks for repairs only of what its type checker found**, whatever
    `moves` are made of it. -/
theorem after_asksFor {maxAttempts : Int} {t : Turn} (ht : Turn.new? config maxAttempts = some t)
    (moves : List Move) : ((new t).after moves).AsksFor config := by
  obtain ⟨hnew, -⟩ := new_inOrder ht
  have hboth : ((new t).after moves).InOrder config.policy maxAttempts.toNat ∧
      ((new t).after moves).AsksFor config :=
    after_invariant (P := fun w => w.InOrder config.policy maxAttempts.toNat ∧ w.AsksFor config)
      (fun _ m _ h => ⟨h.1.step m, h.2.step h.1 m⟩) ⟨hnew, new_asksFor ht⟩
  exact hboth.2

end Moves

end Run

/-! ## The law of the digest -/

/-- **A repair digest shows the first problems in stable order of their places.** It announces how
    many problems `ps` there are, shows as many of them as `limit` allows, or all if that is not
    positive, numbered from one on, and tells how many are left out just if some are. There is none
    just if one of the problems that it would show is not `Writable`, as a number of it has too many
    digits to be written. So a list may be sorted before, as it is on the way from the report of the
    type checker to the agent, or be reordered in any way that keeps the problems at each place in
    their order. -/
theorem digest_shows_first (limit : Int) (ps : List Problem) :
    let count := ps.length
    let shown := if limit ≤ 0 then count else min count limit.toNat
    -- the text, for whichever list is the given one stably sorted; there is just one
    (∃! qs, SortsStably qs ps) ∧
    (∀ qs, SortsStably qs ps →
      repairDigest limit ps =
        if ∀ p ∈ qs.take shown, p.Writable then
          .ok ("\n".intercalate
            (["Fix these " ++ toString count ++ " TypeScript compile-time " ++
                (if count = 1 then "error" else "errors") ++ ":", ""] ++
              ((qs.take shown).zipIdx 1).flatMap (fun (p, i) => [numberedText i p, ""]) ++
              (if shown < count then
                ["...and " ++ toString (count - shown) ++ " more not shown.", ""] else []) ++
              [digestRequest]))
        else .error .unwritable) ∧
    -- reordered lists
    (∀ qs, KeepsTies qs ps → repairDigest limit qs = repairDigest limit ps) ∧
    repairDigest limit (sortProblems ps) = repairDigest limit ps ∧
    -- the problems of a report, which are sorted when they are read
    (∀ files report, readLines files none (splitLines report) = .ok ps →
      readReport files report = .ok (sortProblems ps)) ∧
    -- what is asked for in a turn, where they are sorted again
    (∀ (config : TurnConfig) (maxAttempts : Int) (t : Turn) (moves : List Move),
      Turn.new? config maxAttempts = some t →
      let w := (Run.new t).after moves
      ∀ prompt ∈ w.turn.prompts.tail, ∃ request found,
        (request, .problems found) ∈ w.answers ∧ found ≠ [] ∧
          repairDigest config.digestLimit found = .ok prompt) := by
  intro count shown
  refine ⟨⟨sortProblems ps, sortProblems_sortsStably ps, fun qs h => h.eq_sortProblems⟩,
    fun qs h => h.repairDigest_eq limit, fun qs h => h.repairDigest_eq limit,
    repairDigest_sortProblems limit ps, fun files report h => ?_, ?_⟩
  · show (readLines files none (splitLines report)).bind (fun ps => .ok (sortProblems ps)) = _
    rw [h]
    rfl
  · exact fun config maxAttempts t moves ht => (Run.after_asksFor ht moves).digests

end StagedEdits
