import StagedEdits.Proofs.FileMap

set_option autoImplicit false

/-! # The log of an applier

What was applied is kept as a log, in which only the directives stand that changed something. A
directive that is left out changed nothing, so the log leads where the calls led: it leads from a
fresh applier to the applier it was taken from, each directive in it changing something. A replay
skips what it has in common with the log of the applier it goes to, and so resumes where that one
was cut.

Main definitions: `Applier.Leads`, `Applier.Complete`, `packagesOf`. Main statements:
`Applier.applyItems_leads`, `Applier.calls_complete`, `Applier.Leads.replay`. -/

namespace StagedEdits

/-- The packages that a directive adds. -/
def Directive.packages : Directive → List String
  | .addDependency packages => packages.toList
  | _ => []

/-- The packages that `ds` add. -/
def packagesOf (ds : List Directive) : Names := Names.ofList (ds.flatMap Directive.packages)

theorem mem_packagesOf {ds : List Directive} {x : String} :
    x ∈ packagesOf ds ↔ ∃ d ∈ ds, x ∈ d.packages := by
  simp only [packagesOf, Names.mem_ofList, List.mem_flatMap]

namespace Applier

/-! ## Directives that change something -/

/-- Applies `d` over `base` and keeps it on record. -/
def keep (base : BaseTree) (a : Applier) (d : Directive) : Applier :=
  { (a.apply base d).1 with history := a.history ++ [d] }

/-- That directives lead from one applier to another over `base`, each of them changing
    something. -/
inductive Leads (base : BaseTree) : Applier → List Directive → Applier → Prop
  | nil (a : Applier) : Leads base a [] a
  | cons {a c : Applier} {d : Directive} {ds : List Directive}
    (hchanged : (a.apply base d).2 = .changed) (h : Leads base (a.keep base d) ds c) :
    Leads base a (d :: ds) c

namespace Leads

variable {base : BaseTree} {a b c : Applier} {ds es : List Directive}

theorem history (h : Leads base a ds c) : c.history = a.history ++ ds := by
  induction h with
  | nil a => exact (List.append_nil _).symm
  | cons _ _ ih => rw [ih, keep, List.append_assoc, List.singleton_append]

theorem trans (h : Leads base a ds b) (h' : Leads base b es c) : Leads base a (ds ++ es) c := by
  induction h with
  | nil => exact h'
  | cons hchanged _ ih => exact .cons hchanged (ih h')

/-- Directives that lead somewhere may be cut anywhere. -/
theorem split (h : Leads base a (ds ++ es) c) : ∃ b, Leads base a ds b ∧ Leads base b es c := by
  induction ds generalizing a with
  | nil => exact ⟨a, .nil a, h⟩
  | cons d ds ih =>
    cases h with
    | cons hchanged h =>
      obtain ⟨b, hd, he⟩ := ih h
      exact ⟨b, .cons hchanged hd, he⟩

theorem eq_of_nil (h : Leads base a [] c) : c = a := by
  cases h
  rfl

end Leads

/-- The packages of an applier behind a directive. -/
theorem mem_dependencies_apply (base : BaseTree) (a : Applier) (d : Directive) {x : String} :
    x ∈ (a.apply base d).1.dependencies ↔ x ∈ a.dependencies ∨ x ∈ d.packages := by
  cases d with
  | delete path =>
    simp only [apply, delete, Directive.packages]
    split <;> simp
  | rename source target =>
    simp only [apply, rename_eq, Directive.packages]
    split
    · simp
    · cases a.overlay.files base source with
      | error f => simp
      | ok found => cases found <;> simp
  | write path content description =>
    simp only [apply, write, Directive.packages]
    split <;> simp
  | addDependency packages =>
    simp only [apply, addPackages, Directive.packages, Names.mem_toList]
    split
    · -- packages that are all there already add nothing
      rename_i hempty
      have hnone : x ∉ packages.diff a.dependencies := by
        rw [Names.isEmpty, List.isEmpty_iff] at hempty
        rw [← Names.mem_toList, hempty]
        exact List.not_mem_nil
      rw [Names.mem_diff] at hnone
      exact ⟨.inl, fun h => h.elim id fun hx =>
        Decidable.byContradiction fun hn => hnone ⟨hx, hn⟩⟩
    · exact Names.mem_union

/-- That the packages of `a` are those of the directives on its record. -/
def Tallied (a : Applier) : Prop := a.dependencies = packagesOf a.history

theorem Leads.tallied {base : BaseTree} {a c : Applier} {ds : List Directive}
    (h : Leads base a ds c) (ha : a.Tallied) : c.Tallied := by
  induction h with
  | nil => exact ha
  | @cons a c d ds hchanged h ih =>
    refine ih (Names.ext_mem fun x => ?_)
    show x ∈ (a.apply base d).1.dependencies ↔ x ∈ packagesOf (a.history ++ [d])
    rw [mem_dependencies_apply, ha, mem_packagesOf, mem_packagesOf]
    simp only [List.mem_append, List.mem_singleton, or_and_right, exists_or, exists_eq_left]

/-! ## What calls put on record -/

section Recording

variable (base : BaseTree) (session : String)

/-- A directive that changes something is kept. -/
theorem applyInto_of_changed {a : Applier} {d : Directive} (h : (a.apply base d).2 = .changed)
    (b : Batch) :
    a.applyInto base session b d =
      (a.keep base d,
        { b with
          applied := b.applied ++ [d]
          entries := b.entries ++ a.applyEntries base session d }) := by
  obtain ⟨o, packages, -, he⟩ := (apply_cases base a d).resolve_left fun hn => hn.2 h
  simp only [applyInto, keep, he]

/-- A directive that changes nothing is not kept. -/
theorem applyInto_applied_of_not_changed {a : Applier} {d : Directive}
    (h : (a.apply base d).2 ≠ .changed) (b : Batch) :
    (a.applyInto base session b d).2.applied = b.applied := by
  unfold applyInto
  revert h
  obtain ⟨a', e⟩ := a.apply base d
  intro h
  cases e with
  | changed => exact absurd rfl h
  | _ => rfl

theorem applyInto_leads (a : Applier) (b : Batch) (d : Directive) :
    ∃ ds, Leads base a ds (a.applyInto base session b d).1 ∧
      (a.applyInto base session b d).2.applied = b.applied ++ ds := by
  by_cases h : (a.apply base d).2 = .changed
  · rw [applyInto_of_changed base session h]
    exact ⟨[d], .cons h (.nil _), rfl⟩
  · rw [applyInto_of_not_changed base session h, applyInto_applied_of_not_changed base session h]
    exact ⟨[], .nil a, (List.append_nil _).symm⟩

/-- **What items put on record leads to where they led, also if they are stopped**: the directives
    that `applyItems` adds to `applied` lead from `a` to the applier behind them. -/
theorem applyItems_leads (a : Applier) (b : Batch) (is : List Item) :
    ∃ ds, Leads base a ds (a.applyItems base session b is).1 ∧
      (a.applyItems base session b is).2.applied = b.applied ++ ds := by
  induction is generalizing a b with
  | nil => exact ⟨[], .nil a, (List.append_nil _).symm⟩
  | cons i is ih =>
    rw [applyItems_cons]
    cases i.work with
    | error f => exact ⟨[], .nil a, (List.append_nil _).symm⟩
    | ok d =>
      obtain ⟨ds, hleads, happlied⟩ := applyInto_leads base session a b d
      dsimp only
      split
      · exact ⟨ds, hleads, happlied⟩
      · obtain ⟨es, hleads', happlied'⟩ := ih (a.applyInto base session b d).1
          (a.applyInto base session b d).2
        exact ⟨ds ++ es, hleads.trans hleads', by rw [happlied', happlied, List.append_assoc]⟩

section Items

variable {a : Applier} {d : Directive} {b : Batch}

/-- Items go on behind a directive that changes something. -/
theorem applyItems_of_changed (h : (a.apply base d).2 = .changed) (hb : b.stopped = none)
    (is : List Item) :
    a.applyItems base session b (.directive d :: is) =
      (a.keep base d).applyItems base session
        { b with
          applied := b.applied ++ [d]
          entries := b.entries ++ a.applyEntries base session d } is := by
  rw [applyItems_cons]
  simp only [Item.work, applyInto_of_changed base session h, hb, Option.isSome_none,
    Bool.false_eq_true, if_false]

/-- Items stop at a directive that fails. -/
theorem applyItems_of_failed {f : Failure} (h : a.apply base d = (a, .failed f))
    (is : List Item) :
    a.applyItems base session b (.directive d :: is) =
      (a, { b with
        stopped := some f
        entries := b.entries ++ a.applyEntries base session d }) := by
  rw [applyItems_cons]
  simp only [Item.work, applyInto, h, Option.isSome_some, if_true]

end Items

theorem conclude_applied (what : String) (b : Batch) :
    (conclude session what b).applied = b.applied := by
  unfold conclude
  split <;> rfl

theorem conclude_skipped (what : String) (b : Batch) :
    (conclude session what b).skipped = b.skipped := by
  unfold conclude
  split <;> rfl

theorem applyBatch_leads (a : Applier) (items : List Item) :
    Leads base a (a.applyBatch base session items).2.applied
      (a.applyBatch base session items).1 := by
  simp only [applyBatch, applyAll_eq_applyItems, conclude_applied]
  obtain ⟨ds, hleads, happlied⟩ := applyItems_leads base session a Batch.empty
    ((batchOrder (items.filterMap Item.directive?)).map .directive)
  rw [happlied]
  exact hleads

theorem replay_leads (a : Applier) (log : List Item) :
    Leads base a (a.replay base session log).2.applied (a.replay base session log).1 := by
  simp only [replay, conclude_applied]
  obtain ⟨ds, hleads, happlied⟩ := applyItems_leads base session a
    { Batch.empty with
      skipped := (log.take (commonLead log a.history)).filterMap Item.directive? }
    (log.drop (commonLead log a.history))
  rw [happlied]
  exact hleads

/-- A fresh applier skips nothing of a log. -/
theorem empty_replay (log : List Item) :
    empty.replay base session log =
      ((empty.applyItems base session Batch.empty log).1,
        conclude session "🔁 Replay" (empty.applyItems base session Batch.empty log).2) := by
  have hlead : commonLead log empty.history = 0 := by cases log <;> rfl
  rw [replay, hlead]
  rfl

/-- That the record of `a` leads to it from `Applier.empty`. -/
def Complete (a : Applier) : Prop := Leads base empty a.history a

theorem empty_complete : empty.Complete base := .nil empty

/-- Whether a call puts on record what it changes, and drops nothing. -/
def Call.isRecorded : Call → Bool
  | .batch _ | .replay _ => true
  | _ => false

variable {base} in
theorem Complete.leads {a c : Applier} {ds : List Directive} (h : a.Complete base)
    (hleads : Leads base a ds c) : c.Complete base := by
  rw [Complete, hleads.history]
  exact Leads.trans h hleads

/-- **The record is complete behind any batches and replays** `cs`, if it was complete in front of
    them. -/
theorem calls_complete {a : Applier} (h : a.Complete base) {cs : List Call}
    (hcs : ∀ c ∈ cs, c.isRecorded = true) : (a.calls base session cs).Complete base := by
  induction cs generalizing a with
  | nil => exact h
  | cons c cs ih =>
    have hc := hcs c List.mem_cons_self
    have hcall : (a.call base session c).Complete base := by
      cases c with
      | batch items => exact h.leads (applyBatch_leads base session a items)
      | replay log => exact h.leads (replay_leads base session a log)
      | _ => cases hc
    exact ih hcall fun c' hc => hcs c' (List.mem_cons_of_mem c hc)

end Recording

/-! ## Replaying a record -/

/-- The record `ds` as a log to replay. -/
def asLog (ds : List Directive) : List Item := ds.map .directive

theorem commonLead_append (ds es : List Directive) :
    commonLead (asLog (ds ++ es)) ds = ds.length := by
  induction ds with
  | nil => cases es <;> rfl
  | cons d ds ih =>
    show (if some d = some d then commonLead (asLog (ds ++ es)) ds + 1 else 0) = _
    rw [if_pos rfl, ih, List.length_cons]

theorem filterMap_asLog (ds : List Directive) : (asLog ds).filterMap Item.directive? = ds := by
  rw [asLog, List.filterMap_map]
  exact List.filterMap_some

section Replaying

variable {base : BaseTree} {a c : Applier} {ds : List Directive}

/-- Directives that change something are applied in a row, and nothing else comes of them. -/
theorem Leads.applyItems (h : Leads base a ds c) (session : String) {b : Batch}
    (hb : b.stopped = none) :
    let r := a.applyItems base session b (asLog ds)
    r.1 = c ∧ r.2.applied = b.applied ++ ds ∧ r.2.skipped = b.skipped ∧
      r.2.errors = b.errors ∧ r.2.stopped = none := by
  induction h generalizing b with
  | nil => exact ⟨rfl, (List.append_nil _).symm, rfl, rfl, hb⟩
  | @cons a c d ds hchanged h ih =>
    rw [asLog, List.map_cons, applyItems_of_changed base session hchanged hb]
    obtain ⟨hto, happlied, hskipped, herrors, hstopped⟩ :=
      @ih { b with
            applied := b.applied ++ [d]
            entries := b.entries ++ a.applyEntries base session d } hb
    refine ⟨hto, ?_, hskipped, herrors, hstopped⟩
    exact happlied.trans (by rw [List.append_assoc, List.singleton_append])

/-- **A log that starts with the record of an applier is replayed into it from the end of the
    record**: the directives of `a.history` are skipped, those of `ds` are applied, and nothing
    fails. -/
theorem Leads.replay (h : Leads base a ds c) (session : String) :
    let r := a.replay base session (asLog (a.history ++ ds))
    r.1 = c ∧ r.2.applied = ds ∧ r.2.skipped = a.history ∧ r.2.errors = [] ∧
      r.2.stopped = none := by
  have hlead : commonLead (asLog (a.history ++ ds)) a.history = (asLog a.history).length := by
    rw [commonLead_append, asLog, List.length_map]
  have hsplit : asLog (a.history ++ ds) = asLog a.history ++ asLog ds := List.map_append
  have hall := h.applyItems session
    (show ({ Batch.empty with skipped := a.history } : Batch).stopped = none from rfl)
  simp only [Applier.replay, conclude_applied, conclude_skipped, conclude_errors,
    conclude_stopped, hlead]
  rw [hsplit, List.take_left, List.drop_left, filterMap_asLog]
  exact hall

end Replaying

/-- That the record of `a` stands for it: replayed into a fresh applier, at once or from any cut on,
    it leads to `a`; replayed into `a` itself it changes nothing; and it is read back from JSON as
    it was. -/
structure Stands (base : BaseTree) (a : Applier) : Prop where
  whole : ∀ session, let r := empty.replay base session (asLog a.history)
    r.1 = a ∧ r.2.applied = a.history ∧ r.2.skipped = [] ∧ r.2.errors = [] ∧ r.2.stopped = none
  resumed : ∀ session k,
    let first := (empty.replay base session (asLog (a.history.take k))).1
    let r := first.replay base session (asLog a.history)
    r.1 = a ∧ r.2.applied = a.history.drop k ∧ r.2.skipped = a.history.take k ∧
      r.2.errors = [] ∧ r.2.stopped = none
  again : ∀ session, let r := a.replay base session (asLog a.history)
    r.1 = a ∧ r.2.applied = [] ∧ r.2.skipped = a.history ∧ r.2.errors = [] ∧ r.2.stopped = none
  readBack : (a.history.map Directive.toJson).mapM Directive.ofJson? = some a.history

/-- Directives that were written as JSON are read back as they were. -/
theorem mapM_ofJson?_toJson (ds : List Directive) :
    (ds.map Directive.toJson).mapM Directive.ofJson? = some ds := by
  induction ds with
  | nil => rfl
  | cons d ds ih => rw [List.map_cons, List.mapM_cons, Directive.ofJson?_toJson, ih]; rfl

/-- **A complete record stands for its applier.** -/
theorem Complete.stands {base : BaseTree} {a : Applier} (h : a.Complete base) :
    a.Stands base where
  whole session := Leads.replay h session
  resumed session k := by
    intro first r
    have hcut : a.history.take k ++ a.history.drop k = a.history := List.take_append_drop ..
    have hwhole : Leads base empty (a.history.take k ++ a.history.drop k) a := by
      rw [hcut]
      exact h
    obtain ⟨b, hlead, hrest⟩ := hwhole.split
    have hfirst : first = b := (hlead.replay session).1
    have hhistory : b.history = a.history.take k := hlead.history
    have hreplay := hrest.replay session
    rw [hhistory, hcut] at hreplay
    rw [← hfirst] at hreplay
    exact hreplay
  again session := by
    have hreplay := (Leads.nil a : Leads base a [] a).replay session
    rwa [List.append_nil] at hreplay
  readBack := mapM_ofJson?_toJson a.history

end Applier

end StagedEdits
