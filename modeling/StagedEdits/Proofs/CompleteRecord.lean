import Mathlib.Data.List.Induction
import StagedEdits.Proofs.CommitRollBack
import StagedEdits.Proofs.TurnLedger

set_option autoImplicit false

/-! # Complete records

The record of an applier stands for it. The record of a turn is that of its applier, with the
packages of the directives on it listed in order, wherever the turn waits, exactly if nothing that a
stopped batch or replay applied was lost to it. The result that the listeners of a clean or failed
turn are told then carries a record that stands for the turn's applier.

Main statements: `Run.balanced_iff_nothing_lost`, `Run.told_step`, `Run.record_is_complete`,
`Run.stopped_replay_is_lost` (a replay that a path of the base stops). -/

namespace StagedEdits

/-! ## Balanced books -/

/-- That the books `k` are balanced: the record is the one of the applier, with the packages on it
    listed in order. -/
structure Books.Balanced (k : Books) : Prop where
  applied : k.applied = k.applier.history
  listed : k.listed = (packagesOf k.applier.history).toList

section Balancing

variable {base : BaseTree} {k : Books} {r : Applier × Batch} {t : Turn}

theorem Books.take_applier (k : Books) (r : Applier × Batch) : (k.take r).applier = r.1 := by
  unfold Books.take
  split <;> rfl

theorem Books.take_events (k : Books) (r : Applier × Batch) : (k.take r).events = k.events := by
  unfold Books.take
  split <;> rfl

theorem Turn.Keeps.history (h : t.Keeps k) : t.applier.history = k.applier.history := by
  rcases h.applier with he | ⟨he, -⟩ <;> rw [he]
  rfl

theorem Turn.Keeps.balanced (h : t.Keeps k) : t.books.Balanced ↔ k.Balanced := by
  have happlied : t.books.applied = t.books.applier.history ↔ k.applied = k.applier.history := by
    show t.record.applied = t.applier.history ↔ _
    rw [h.history, h.applied]
  have hlisted : t.books.listed = (packagesOf t.books.applier.history).toList ↔
      k.listed = (packagesOf k.applier.history).toList := by
    show t.record.dependencies = (packagesOf t.applier.history).toList ↔ _
    rw [h.history, h.listed]
  exact ⟨fun hb => ⟨happlied.1 hb.applied, hlisted.1 hb.listed⟩,
    fun hb => ⟨happlied.2 hb.applied, hlisted.2 hb.listed⟩⟩

/-- A batch that loses nothing keeps the books balanced. -/
theorem Books.Balanced.take (h : k.Balanced) (ht : k.applier.Tallied)
    (hleads : Applier.Leads base k.applier r.2.applied r.1)
    (hlost : r.2.stopped.isSome = true → r.2.applied = []) : (k.take r).Balanced := by
  obtain ⟨a, b⟩ := r
  cases hs : b.stopped with
  | some f =>
    have hnil : b.applied = [] := hlost (by rw [hs]; rfl)
    dsimp only at hleads
    rw [hnil] at hleads
    simp only [Books.take, hs, hleads.eq_of_nil]
    exact h
  | none =>
    have htally : a.dependencies = packagesOf a.history := hleads.tallied ht
    simp only [Books.take, hs]
    refine ⟨?_, congrArg Names.toList htally⟩
    show k.applied ++ b.applied = a.history
    rw [h.applied, hleads.history]

/-- Books that are balanced behind a batch that was stopped have lost nothing. -/
theorem Books.Balanced.nothing_lost (h : k.Balanced)
    (hleads : Applier.Leads base k.applier r.2.applied r.1) (h' : (k.take r).Balanced)
    (hs : r.2.stopped.isSome = true) : r.2.applied = [] := by
  obtain ⟨f, hf⟩ := Option.isSome_iff_exists.1 hs
  have happlied := h'.applied
  simp only [Books.take, hf] at happlied
  rw [h.applied, hleads.history] at happlied
  exact List.self_eq_append_right.1 happlied

end Balancing

namespace Run

variable {w : Run} {m : Move}

/-! ## Steps -/

/-- A move leads from the applier before to the one after it, unless it drops what is pending. -/
theorem step_leads (w : Run) (m : Move) :
    ∃ ds a, (ds = [] ∧ a = w.turn.applier ∨
        ∃ base ∈ m.base?, Applier.Leads base w.turn.applier ds a) ∧
      ((w.step m).turn.applier = a ∨
        (w.step m).turn.applier = a.clear ∧
          (m.clears = true ∨ (w.step m).turn.status = .cancelled)) := by
  cases hm : m.clears with
  | true =>
    obtain ⟨-, hb⟩ := w.step_clears hm
    refine ⟨[], w.turn.applier, .inl ⟨rfl, rfl⟩, ?_⟩
    rcases hb with hb | hb
    · exact .inl (congrArg Books.applier hb)
    · exact .inr ⟨congrArg Books.applier hb, .inl rfl⟩
  | false =>
    have hkeeps := w.step_keeps hm
    cases hr : w.batch? m with
    | none =>
      rw [hr] at hkeeps
      exact ⟨[], w.turn.applier, .inl ⟨rfl, rfl⟩, hkeeps.applier.imp_right fun h => ⟨h.1, .inr h.2⟩⟩
    | some r =>
      rw [hr] at hkeeps
      have happlier := hkeeps.applier
      simp only [Option.map_some, Option.getD_some, Books.take_applier] at happlier
      exact ⟨r.2.applied, r.1, .inr (batch?_leads hr),
        happlier.imp_right fun h => ⟨h.1, .inr h.2⟩⟩

/-- Every move keeps the tally of the packages. -/
theorem tallied_step (h : w.turn.applier.Tallied) (m : Move) : (w.step m).turn.applier.Tallied := by
  obtain ⟨ds, a, hleads, hafter⟩ := w.step_leads m
  have ha : a.Tallied := by
    rcases hleads with ⟨-, rfl⟩ | ⟨base, -, hleads⟩
    · exact h
    · exact hleads.tallied h
  rcases hafter with he | ⟨he, -⟩ <;> rw [he]
  · exact ha
  · exact ha

/-- **A move that loses nothing keeps the books balanced, and no other does**: they are `Balanced`
    behind `m` just if `w.lost m` is empty. -/
theorem balanced_step (h : w.turn.books.Balanced) (ht : w.turn.applier.Tallied) :
    (w.step m).turn.books.Balanced ↔ w.lost m = [] := by
  cases hm : m.clears with
  | true =>
    obtain ⟨hnone, hb⟩ := w.step_clears hm
    have hlost : w.lost m = [] := by rw [lost, hnone]
    refine ⟨fun _ => hlost, fun _ => ?_⟩
    rcases hb with hb | hb <;> rw [hb]
    · exact h
    · exact ⟨h.applied, h.listed⟩
  | false =>
    rw [(w.step_keeps hm).balanced, lost]
    cases hr : w.batch? m with
    | none => exact ⟨fun _ => rfl, fun _ => h⟩
    | some r =>
      obtain ⟨base, -, hleads⟩ := batch?_leads hr
      show (w.turn.books.take r).Balanced ↔ (if r.2.stopped.isSome then r.2.applied else []) = []
      by_cases hs : r.2.stopped.isSome = true
      · rw [if_pos hs]
        exact ⟨fun h' => h.nothing_lost hleads h' hs, fun hnil => h.take ht hleads fun _ => hnil⟩
      · rw [if_neg hs]
        exact ⟨fun _ => rfl, fun _ => h.take ht hleads fun hs' => absurd hs' hs⟩

/-! ## Runs -/

/-- That none of `moves` loses anything to the record. -/
def LosesNothing (w : Run) (moves : List Move) : Prop :=
  ∀ lead m, lead ++ [m] <+: moves → (w.after lead).lost m = []

/-- **Nothing is lost over bases that can be looked at everywhere**, those whose `trouble` is always
    `none`, if only directives are replayed. -/
theorem losesNothing_of_untroubled {w : Run} {moves : List Move}
    (h : ∀ m ∈ moves, (∀ b ∈ m.base?, ∀ path, b.trouble path = none) ∧ m.isReadable = true) :
    w.LosesNothing moves := by
  intro lead m hm
  obtain ⟨hbase, hreadable⟩ := h m (hm.subset (by simp))
  exact lost_eq_nil hbase hreadable

/-- What holds of a run before any move. -/
theorem new_balanced {config : TurnConfig} {maxAttempts : Int} {t : Turn}
    (ht : Turn.new? config maxAttempts = some t) :
    (new t).turn.books.Balanced ∧ (new t).turn.applier.Tallied ∧ (new t).turn.events = [] ∧
      (new t).turn.applier = Applier.empty := by
  obtain ⟨budget, -, rfl⟩ := Option.map_eq_some_iff.1 ht
  exact ⟨⟨rfl, rfl⟩, rfl, rfl, rfl⟩

theorem after_concat (w : Run) (lead : List Move) (m : Move) :
    w.after (lead ++ [m]) = (w.after lead).step m := by
  rw [after, List.foldl_append]
  rfl

theorem tallied_after (h : w.turn.applier.Tallied) (moves : List Move) :
    (w.after moves).turn.applier.Tallied :=
  after_invariant (P := fun w => w.turn.applier.Tallied) (fun _ m _ h => tallied_step h m) h

/-- **The books are balanced all along a run exactly if nothing is lost in it**, `LosesNothing`. -/
theorem balanced_iff_nothing_lost (h : w.turn.books.Balanced) (ht : w.turn.applier.Tallied)
    (moves : List Move) :
    (∀ lead, lead <+: moves → (w.after lead).turn.books.Balanced) ↔
      w.LosesNothing moves := by
  constructor
  · intro hall lead m hm
    have hlead := hall lead ((List.prefix_append lead [m]).trans hm)
    refine (balanced_step hlead (tallied_after ht lead)).1 ?_
    rw [← after_concat]
    exact hall (lead ++ [m]) hm
  · intro hlost lead
    -- on the moves from the end, as each step is taken behind the ones before
    induction lead using List.reverseRecOn with
    | nil => exact fun _ => h
    | append_singleton lead m ih =>
      intro hm
      have hlead := ih ((List.prefix_append lead [m]).trans hm)
      rw [after_concat]
      exact (balanced_step hlead (tallied_after ht lead)).2 (hlost lead m hm)

/-! ## The end -/

/-- A turn that has ended keeps its status. -/
theorem status_step_of_terminal (hplaced : w.turn.Placed) (ht : w.turn.status.isTerminal = true)
    (m : Move) : (w.step m).turn.status = w.turn.status := by
  by_cases hm : ∃ base r, m = .reply base r
  · obtain ⟨base, r, rfl⟩ := hm
    exact congrArg Course.status
      ((Turn.advance_next hplaced base r).course_of_terminal hplaced ht)
  · exact (step_of_owner fun base r he => hm ⟨base, r, he⟩).1

/-- Nothing is applied once the turn has ended. -/
theorem batch?_of_terminal (hplaced : w.turn.Placed) (ht : w.turn.status.isTerminal = true)
    (m : Move) : w.batch? m = none := by
  cases m with
  | reply base r =>
    simp only [batch?, Turn.batch?]
    split
    · rename_i p text hp
      have hs : w.turn.status = .streaming := hplaced.admits hp
      rw [hs] at ht
      cases ht
    · rfl
  | replay base log => exact if_pos ht
  | _ => rfl

end Run

/-- That the end, if `t` has told it, was told of the record as it still is. -/
def Turn.Told (t : Turn) : Prop :=
  ∀ e ∈ t.events, ∀ r, e.payload = .done r → t.status.isTerminal = true ∧ r.status = t.status ∧
    r.applied = t.record.applied ∧ r.dependencies = t.record.dependencies

namespace Run

variable {w : Run}

/-- **The end is told of the record, and no move `m` changes what was told.** -/
theorem told_step (hplaced : w.turn.Placed) (h : w.turn.Told) (m : Move) :
    (w.step m).turn.Told := by
  intro e he r hr
  cases hm : m.clears with
  | true =>
    obtain ⟨-, hb⟩ := w.step_clears hm
    have hsame : (w.step m).turn.events = w.turn.events ∧
        (w.step m).turn.record.applied = w.turn.record.applied ∧
        (w.step m).turn.record.dependencies = w.turn.record.dependencies := by
      rcases hb with hb | hb <;>
        exact ⟨congrArg Books.events hb, congrArg Books.applied hb, congrArg Books.listed hb⟩
    obtain ⟨hevents, happlied, hlisted⟩ := hsame
    obtain ⟨ht, hs, ha, hl⟩ := h e (hevents ▸ he) r hr
    have hkept := status_step_of_terminal hplaced ht m
    exact ⟨hkept ▸ ht, hkept ▸ hs, happlied ▸ ha, hlisted ▸ hl⟩
  | false =>
    have hkeeps := w.step_keeps hm
    have hbefore : (((w.batch? m).map w.turn.books.take).getD w.turn.books).events =
        w.turn.events := by
      cases w.batch? m with
      | none => rfl
      | some b => exact w.turn.books.take_events b
    -- what was told before was told at the end, and nothing is applied since
    have hold : e ∈ w.turn.events → (w.step m).turn.status.isTerminal = true ∧
        r.status = (w.step m).turn.status ∧ r.applied = (w.step m).turn.record.applied ∧
        r.dependencies = (w.step m).turn.record.dependencies := by
      intro hmem
      obtain ⟨ht, hs, ha, hl⟩ := h e hmem r hr
      have hkept := status_step_of_terminal hplaced ht m
      rw [batch?_of_terminal hplaced ht m] at hkeeps
      exact ⟨hkept ▸ ht, hkept ▸ hs, hkeeps.applied ▸ ha, hkeeps.listed ▸ hl⟩
    rcases hkeeps.events with hevents | ⟨e', hevents, hdone⟩
    · rw [hevents, hbefore] at he
      exact hold he
    · rw [hevents, hbefore, List.mem_append, List.mem_singleton] at he
      rcases he with he | rfl
      · exact hold he
      · obtain ⟨rfl, ht⟩ := hdone r hr
        exact ⟨ht, rfl, rfl, rfl⟩

/-- What a base stands for is kept along the moves that look at no other base and drop nothing,
    until the turn is cancelled. -/
theorem complete_step {base : BaseTree} {m : Move} (hplaced : w.turn.Placed)
    (hm : m.clears = false) (hbase : ∀ b ∈ m.base?, b = base)
    (h : w.turn.status ≠ .cancelled → w.turn.applier.Complete base) :
    (w.step m).turn.status ≠ .cancelled → (w.step m).turn.applier.Complete base := by
  intro hne
  have hne' : w.turn.status ≠ .cancelled := fun hs => by
    have ht : w.turn.status.isTerminal = true := by rw [hs]; rfl
    exact hne ((status_step_of_terminal hplaced ht m).trans hs)
  obtain ⟨ds, a, hleads, hafter⟩ := w.step_leads m
  have ha : a.Complete base := by
    rcases hleads with ⟨-, rfl⟩ | ⟨b, hb, hleads⟩
    · exact h hne'
    · rw [hbase b hb] at hleads
      exact (h hne').leads hleads
  rcases hafter with he | ⟨-, hclears | hs⟩
  · rw [he]
    exact ha
  · rw [hm] at hclears
    cases hclears
  · exact absurd hs hne

end Run

/-! ## Idle agents -/

/-- Deleting a path is a change to a fresh applier. -/
theorem Applier.empty_apply_delete (base : BaseTree) (p : String) :
    Applier.empty.apply base (.delete p) =
      ({ Applier.empty with overlay := Overlay.empty.delete p }, .changed) := by
  simp only [Applier.apply, Applier.delete]
  rw [if_neg]
  · rfl
  · exact Names.not_mem_empty p

/-- A turn that nothing has happened to. -/
theorem Turn.new?_fresh {config : TurnConfig} {maxAttempts : Int} {t : Turn}
    (ht : Turn.new? config maxAttempts = some t) :
    t.status.isTerminal = false ∧ t.applier = Applier.empty ∧ t.config = config ∧
      t.record.applied = [] := by
  obtain ⟨budget, -, rfl⟩ := Option.map_eq_some_iff.1 ht
  exact ⟨rfl, rfl, rfl, rfl⟩

/-- A replay that is stopped is not put on record. -/
theorem Turn.replay_of_stopped {t : Turn} {base : BaseTree} {log : List Item} {f : Failure}
    (ht : t.status.isTerminal = false)
    (h : (t.applier.replay base t.config.session log).2.stopped = some f) :
    (t.replay base log).1 =
      { t.say (t.applier.replay base t.config.session log).2.entries with
        applier := (t.applier.replay base t.config.session log).1 } := by
  rw [Turn.replay, if_neg (by rw [ht]; exact Bool.false_ne_true)]
  generalize t.applier.replay base t.config.session log = r at h ⊢
  obtain ⟨a, b⟩ := r
  dsimp only at h ⊢
  rw [h]

/-- A replay that goes through is put on record. -/
theorem Turn.replay_of_goes {t : Turn} {base : BaseTree} {log : List Item}
    (ht : t.status.isTerminal = false)
    (h : (t.applier.replay base t.config.session log).2.stopped = none) :
    (t.replay base log).1 =
      (t.say (t.applier.replay base t.config.session log).2.entries).recordBatch
        (t.applier.replay base t.config.session log).1
        (t.applier.replay base t.config.session log).2 := by
  rw [Turn.replay, if_neg (by rw [ht]; exact Bool.false_ne_true)]
  generalize t.applier.replay base t.config.session log = r at h ⊢
  obtain ⟨a, b⟩ := r
  dsimp only at h ⊢
  rw [h]

/-- A turn that is not cancelled tells its record when the type checker has found no problem. -/
theorem Turn.tells_clean {t : Turn} {request : Snapshot} {failed : Nat}
    (hp : t.point = .checking request failed) (hs : t.status = .checking)
    (hc : t.cancelRequested = false) (base : BaseTree) :
    let u := (t.advance base (.checked [])).advance base .told
    u.status = .clean ∧ u.applier = t.applier ∧ ∃ e ∈ u.events, ∃ r, e.payload = .done r ∧
      r.status = .clean ∧ r.applied = t.record.applied := by
  intro u
  have hu : u = _ := advance_checked_nil hp hs hc base base
  rw [hu]
  exact ⟨rfl, rfl, _, List.mem_append_right _ (List.mem_singleton.2 rfl), _, rfl, rfl, rfl⟩

namespace Run

/-- The replies over `base` of an agent that writes nothing and of a type checker that finds
    nothing. -/
def idleReplies (base : BaseTree) : List Move :=
  [.reply base .opened, .reply base .ended, .reply base .closed, .reply base (.checked []),
    .reply base .told]

/-- A turn of an idle agent ends clean, and tells what was on its record at the start. -/
theorem idle_end {t : Turn}
    (hnew : Turn.new? ⟨"session", "turn", "pl", none, ⟨1, .real (.finite false 120 0), .whole 0⟩, 50⟩ 2 =
      some t)
    (a : Applier) (es : List Entry) (ds : List Directive) (fs : List Fault) (ls : List String)
    (base : BaseTree) :
    let v := { t.say es with
      applier := a
      record := { t.record with applied := ds, errors := fs, dependencies := ls } }
    let u := ((new v).after (.start "go" :: idleReplies base)).turn
    u.status = .clean ∧ u.applier = a ∧
      ∃ e ∈ u.events, ∃ r, e.payload = .done r ∧ r.status = .clean ∧ r.applied = ds := by
  intro v u
  let v' := ((new v).after (.start "go" :: (idleReplies base).take 3)).turn
  have hv : v'.point = .checking a.overlay.snapshot 0 ∧ v'.status = .checking ∧
      v'.cancelRequested = false ∧ v'.record.applied = ds ∧ v'.applier = a := by
    cases hnew
    exact ⟨rfl, rfl, rfl, rfl, rfl⟩
  obtain ⟨hp, hs, hc, happlied, happlier⟩ := hv
  obtain ⟨hclean, hsame, e, he, r, hdone, hr, htold⟩ := Turn.tells_clean hp hs hc base
  exact ⟨hclean, hsame.trans happlier, e, he, r, hdone, hr, htold.trans happlied⟩

/-! ## Whole runs -/

/-- **What an applier keeps on record stands for it, and so does what a turn tells at its end,
    exactly if nothing is lost to the record.** Whatever batches and replays a fresh applier takes,
    it `Stands` by its record: replayed, that leads to it again. Whatever `moves` are made with a
    turn, the books are `Balanced` wherever it waits, with the record of the applier and its
    packages listed, if and only if the run `LosesNothing`: no batch or replay was stopped after it
    had applied something. Over one base, with nothing dropped in between, the record then stands
    for the applier as long as the turn is not cancelled, and it is what the listeners are told at
    the end of a turn that ends clean or fails. -/
theorem record_is_complete (base : BaseTree) :
    (∀ (session : String) (cs : List Applier.Call), (∀ c ∈ cs, c.isRecorded = true) →
      (Applier.empty.calls base session cs).Stands base) ∧
    ∀ (config : TurnConfig) (maxAttempts : Int) (t : Turn),
      Turn.new? config maxAttempts = some t → ∀ moves : List Move,
      ((∀ lead, lead <+: moves → ((new t).after lead).turn.books.Balanced) ↔
        (new t).LosesNothing moves) ∧
      ((new t).LosesNothing moves →
        (∀ m ∈ moves, m.clears = false ∧ ∀ b ∈ m.base?, b = base) →
        let u := ((new t).after moves).turn
        (u.status ≠ .cancelled → u.applier.Stands base) ∧
        ∀ e ∈ u.events, ∀ r, e.payload = .done r → r.status ≠ .cancelled →
          r.applied = u.applier.history ∧ r.dependencies = (packagesOf r.applied).toList ∧
            u.applier.Stands base) := by
  refine ⟨fun session cs hcs =>
    (Applier.calls_complete base session (Applier.empty_complete base) hcs).stands, ?_⟩
  intro config maxAttempts t ht moves
  obtain ⟨hbalanced, htallied, hevents, hempty⟩ := new_balanced ht
  have hiff := balanced_iff_nothing_lost hbalanced htallied moves
  refine ⟨hiff, fun hnothing hmoves => ?_⟩
  intro u
  have hbooks : u.books.Balanced := hiff.2 hnothing moves List.prefix_rfl
  -- what holds all along the run
  have hall : u.Placed ∧ u.Told ∧ (u.status ≠ .cancelled → u.applier.Complete base) := by
    refine after_invariant (P := fun w => w.turn.Placed ∧ w.turn.Told ∧
        (w.turn.status ≠ .cancelled → w.turn.applier.Complete base))
      (fun w m hm h => ⟨placed_step h.1 m, told_step h.1 h.2.1 m,
        complete_step h.1 (hmoves m hm).1 (hmoves m hm).2 h.2.2⟩) ⟨(new_waits ht).placed, ?_, ?_⟩
    · intro e he
      rw [hevents] at he
      cases he
    · intro _
      rw [hempty]
      exact Applier.empty_complete base
  obtain ⟨-, htold, hcomplete⟩ := hall
  refine ⟨fun hne => (hcomplete hne).stands, fun e he r hr hne => ?_⟩
  obtain ⟨-, hs, happlied, hlisted⟩ := htold e he r hr
  have hhistory : r.applied = u.applier.history := happlied.trans hbooks.applied
  refine ⟨hhistory, ?_, (hcomplete (hs ▸ hne)).stands⟩
  rw [hlisted, hhistory]
  exact hbooks.listed

/-- A file is deleted by a replay before the start, and the clean turn of an idle agent tells of it;
    an applier takes a rename that fails, and one of its directives again. -/
theorem deleting_record_is_complete :
    let base : BaseTree := .ofFiles (Table.empty.set "a" "x")
    let cs : List Applier.Call :=
      [.batch [.directive (.rename "c" "d"), .directive (.rename "a" "b")],
        .replay [.directive (.rename "a" "b"), .directive (.delete "b"), .directive (.delete "b")]]
    let policy : RetryPolicy := ⟨1, .real (.finite false 120 0), .whole 0⟩
    let config : TurnConfig := ⟨"session", "turn", "pl", none, policy, 50⟩
    let moves := .replay base [.directive (.delete "a")] :: .start "go" :: idleReplies base
    (∀ c ∈ cs, c.isRecorded = true) ∧ (Applier.empty.calls base "session" cs).Stands base ∧
    ∃ t, Turn.new? config 2 = some t ∧ (new t).LosesNothing moves ∧
      (∀ m ∈ moves, m.clears = false ∧ ∀ b ∈ m.base?, b = base) ∧
      ∃ e ∈ ((new t).after moves).turn.events, ∃ r, e.payload = .done r ∧ r.status = .clean ∧
        r.applied = [.delete "a"] ∧ ((new t).after moves).turn.applier.history = [.delete "a"] ∧
        ((new t).after moves).turn.applier.Stands base := by
  intro base cs policy config moves
  have hcs : ∀ c ∈ cs, c.isRecorded = true := by decide
  obtain ⟨happlier, hrun⟩ := record_is_complete base
  obtain ⟨t, hnew⟩ : ∃ t, Turn.new? config 2 = some t := ⟨_, rfl⟩
  have hmoves : ∀ m ∈ moves, m.clears = false ∧ ∀ b ∈ m.base?, b = base := by
    simp [moves, idleReplies, Move.clears, Move.base?]
  have hreadable : ∀ m ∈ moves, m.isReadable = true := by
    simp [moves, idleReplies, Move.isReadable, Item.directive?]
  have hnothing : (new t).LosesNothing moves := losesNothing_of_untroubled fun m hm =>
    ⟨fun b hb path => by rw [(hmoves m hm).2 b hb]; rfl, hreadable m hm⟩
  obtain ⟨-, hdone⟩ := (hrun config 2 t hnew moves).2 hnothing hmoves
  have hend : ∃ e ∈ ((new t).after moves).turn.events, ∃ r, e.payload = .done r ∧
      r.status = .clean ∧ r.applied = [.delete "a"] := by
    have hleads : Applier.Leads base Applier.empty [.delete "a"]
        (Applier.empty.keep base (.delete "a")) :=
      .cons (congrArg Prod.snd (Applier.empty_apply_delete base "a")) (.nil _)
    obtain ⟨-, happlied, -, -, hstopped⟩ := hleads.replay "session"
    obtain ⟨hopen, hempty, hconfig, hrecord⟩ := Turn.new?_fresh hnew
    have hreplay := @Turn.replay_of_goes t base [.directive (.delete "a")] hopen
      (by rw [hempty, hconfig]; exact hstopped)
    have hafter : (new t).after moves =
        (new (t.replay base [.directive (.delete "a")]).1).after
          (.start "go" :: idleReplies base) := rfl
    rw [hafter, hreplay, hempty, hconfig]
    obtain ⟨-, -, e, he, r, hr, hclean, htold⟩ := idle_end hnew _ _ _ _ _ base
    refine ⟨e, he, r, hr, hclean, htold.trans ?_⟩
    show t.record.applied ++ _ = _
    rw [hrecord]
    exact happlied
  obtain ⟨e, he, r, hr, hclean, happlied⟩ := hend
  obtain ⟨hhistory, -, hstands⟩ := hdone e he r hr (by rw [hclean]; nofun)
  exact ⟨hcs, happlier "session" cs hcs, t, hnew, hnothing, hmoves, e, he, r, hr, hclean,
    happlied, hhistory.symm.trans happlied, hstands⟩

end Run

/-! ## A replay that is stopped -/

namespace Applier

/-- A replay that a rename stops behind a delete. -/
theorem replay_stopped {base : BaseTree} {p source target : String} {f : Failure}
    (hf : base.trouble source = some f) (hp : source ≠ p) (hne : source ≠ target)
    (session : String) :
    let r := empty.replay base session [.directive (.delete p), .directive (.rename source target)]
    r.1 = empty.keep base (.delete p) ∧ r.2.applied = [.delete p] ∧ r.2.stopped = some f := by
  have hdelete := empty_apply_delete base p
  have hreaches : (Overlay.empty.delete p).reachesBase source = true := by
    simp [Overlay.reachesBase, Overlay.delete, Overlay.forgetRenames, Overlay.empty,
      Names.mem_insert, Table.has, Table.get?_erase, Table.get?_empty, Names.not_mem_empty, hp]
  have hrename : (empty.keep base (.delete p)).apply base (.rename source target) =
      (empty.keep base (.delete p), .failed f) := by
    rw [keep, hdelete]
    exact apply_rename_of_trouble hreaches hf hne
  rw [empty_replay, applyItems_of_changed base session (congrArg Prod.snd hdelete) rfl,
    applyItems_of_failed base session hrename]
  exact ⟨rfl, conclude_applied .., conclude_stopped ..⟩

end Applier

namespace Run

/-- A rename that a base cannot look at stops a replay behind a delete: the delete is on the
    applier's record, and an idle turn ends clean without telling of it. -/
theorem idle_end_of_stopped {base : BaseTree} {p source target : String} {f : Failure}
    (hf : base.trouble source = some f) (hp : source ≠ p) (hne : source ≠ target) {t : Turn}
    (hnew : Turn.new? ⟨"session", "turn", "pl", none, ⟨1, .real (.finite false 120 0), .whole 0⟩, 50⟩ 2 =
      some t) :
    let log : List Item := [.directive (.delete p), .directive (.rename source target)]
    let u := ((new t).after (.replay base log :: .start "go" :: idleReplies base)).turn
    u.status = .clean ∧ u.applier.history = [.delete p] ∧
      ∃ e ∈ u.events, ∃ r, e.payload = .done r ∧ r.status = .clean ∧ r.applied = [] := by
  intro log
  obtain ⟨happlier, -, hstopped⟩ := Applier.replay_stopped hf hp hne "session"
  obtain ⟨hopen, hempty, hconfig, -⟩ := Turn.new?_fresh hnew
  have hsession : t.config.session = "session" := by rw [hconfig]
  have hreplay : (t.replay base log).1 =
      { t.say (Applier.empty.replay base "session" log).2.entries with
        applier := Applier.empty.keep base (.delete p) } := by
    rw [← happlier, ← hempty, ← hsession]
    rw [← hempty, ← hsession] at hstopped
    exact Turn.replay_of_stopped hopen hstopped
  -- the turn starts with nothing on its record, as the replay has left nothing there
  have hrecord : ({ t.say (Applier.empty.replay base "session" log).2.entries with
      applier := Applier.empty.keep base (.delete p) } : Turn) =
      { t.say (Applier.empty.replay base "session" log).2.entries with
        applier := Applier.empty.keep base (.delete p)
        record := { t.record with applied := [], errors := [], dependencies := [] } } := by
    cases hnew
    rfl
  have hafter : (new t).after (.replay base log :: .start "go" :: idleReplies base) =
      (new (t.replay base log).1).after (.start "go" :: idleReplies base) := rfl
  rw [hafter, hreplay, hrecord]
  obtain ⟨hclean, hsame, htold⟩ := idle_end hnew (Applier.empty.keep base (.delete p))
    (Applier.empty.replay base "session" log).2.entries [] [] [] base
  exact ⟨hclean, congrArg Applier.history hsame, htold⟩

/-- **What a stopped replay applied is not told.** A path that is too long for the disk stops a
    replay behind a delete, and the turn ends clean without telling of it. -/
theorem stopped_replay_is_lost :
    let root : FilePath := ⟨1, ["proj"]⟩
    let d : Disk := ⟨[(["proj"], .dir), (["proj", "a"], .file "x".toUTF8)]⟩
    let base : BaseTree := d.project root [] .passesLinks
    let policy : RetryPolicy := ⟨1, .real (.finite false 120 0), .whole 0⟩
    let config : TurnConfig := ⟨"session", "turn", "pl", none, policy, 50⟩
    let log : List Item := [.directive (.delete "a"), .directive (.rename overlongName "c")]
    ∃ t, Turn.new? config 2 = some t ∧
      let u := ((new t).after (.replay base log :: .start "go" :: idleReplies base)).turn
      u.status = .clean ∧ u.applier.history = [.delete "a"] ∧
        ∃ e ∈ u.events, ∃ r, e.payload = .done r ∧ r.status = .clean ∧ r.applied = [] := by
  intro root d base policy config log
  obtain ⟨f, hf⟩ : ∃ f, base.trouble overlongName = some f :=
    Option.isSome_iff_exists.1 (overlongName_trouble _)
  obtain ⟨t, hnew⟩ : ∃ t, Turn.new? config 2 = some t := ⟨_, rfl⟩
  exact ⟨t, hnew, idle_end_of_stopped hf (overlongName_ne rfl) (overlongName_ne rfl) hnew⟩

end Run

end StagedEdits
