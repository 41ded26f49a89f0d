import StagedEdits.Proofs.AppliedLog
import StagedEdits.Proofs.BatchCuts
import StagedEdits.Proofs.CommitRollBack
import StagedEdits.Proofs.PathCells
import StagedEdits.Proofs.TurnCourse

set_option autoImplicit false

/-! # What a batch comes to

A batch is its directives one behind the other, in the order of their classes, and what it tells is
what each of them came to: how the classes are interleaved does not count. Each directive is told of
once, a written path reads as its last write, and all packages are added, unless a rename from a
path that cannot so much as be looked at stops the batch. Such a rename is told of nowhere, and what
stands behind it is not applied.

Main definitions: `Applier.step`, `Applier.effects`, `Batch.Tells`, `Batch.Accounts`. Main
statements: `Applier.applyBatch_tells`, `Applier.effects_account`, `Applier.batch_order_law`. -/

namespace StagedEdits

namespace Effect

/-- Whether something was changed. -/
def isChanged : Effect → Bool
  | .changed => true
  | _ => false

/-- Whether there was nothing to change. -/
def isUnchanged : Effect → Bool
  | .unchanged => true
  | _ => false

/-- Whether a directive failed. -/
def isFailed : Effect → Bool
  | .failed _ => true
  | _ => false

theorem failure?_isSome (e : Effect) : e.verdict.failure?.isSome = e.isFailed := by
  cases e <;> rfl

/-- The rename that lacked its source, as its two paths, if that is the effect. -/
def lost? : Effect → Option (String × String)
  | .missing source target => some (source, target)
  | _ => none

end Effect

/-- Those directives among `es` whose effect is of the kind `p`. -/
def directivesWith (p : Effect → Bool) (es : List (Directive × Effect)) : List Directive :=
  (es.filter fun x => p x.2).map Prod.fst

/-- The renames among `es` that lacked their source, as their two paths. -/
def lostOf (es : List (Directive × Effect)) : List (String × String) :=
  es.filterMap fun x => x.2.lost?

/-- The failure that stopped the directives of `es`. -/
def failureOf (es : List (Directive × Effect)) : Option Failure :=
  es.findSome? fun x => x.2.verdict.failure?

section Effects

variable (p : Effect → Bool) (es fs : List (Directive × Effect))

theorem directivesWith_append :
    directivesWith p (es ++ fs) = directivesWith p es ++ directivesWith p fs := by
  simp only [directivesWith, List.filter_append, List.map_append]

theorem lostOf_append : lostOf (es ++ fs) = lostOf es ++ lostOf fs := List.filterMap_append

theorem failureOf_append : failureOf (es ++ fs) = (failureOf es).or (failureOf fs) :=
  List.findSome?_append

end Effects

namespace Applier

variable (base : BaseTree)

/-- Applies `d` and keeps it on record if it changes something. -/
def step (a : Applier) (d : Directive) : Applier :=
  match (a.apply base d).2 with
  | .changed => a.keep base d
  | _ => a

/-- What directives come to one behind the other, each from what the ones before left of `a`, up to
    the first that fails. -/
def effects (a : Applier) : List Directive → List (Directive × Effect)
  | [] => []
  | d :: ds =>
    (d, (a.apply base d).2) ::
      if (a.apply base d).2.verdict.failure?.isSome then [] else effects (a.step base d) ds

variable {base} {a : Applier} {d : Directive}

theorem step_overlay : (a.step base d).overlay = (a.apply base d).1.overlay := by
  have hsame := @apply_of_not_changed base a d
  unfold step
  cases he : (a.apply base d).2 with
  | changed => rfl
  | _ => simp [hsame, he]

theorem step_dependencies : (a.step base d).dependencies = (a.apply base d).1.dependencies := by
  have hsame := @apply_of_not_changed base a d
  unfold step
  cases he : (a.apply base d).2 with
  | changed => rfl
  | _ => simp [hsame, he]

/-- What is told of a directive is what it did. -/
theorem exists_apply_of_mem_effects {ds : List Directive} {x : Directive × Effect}
    (hx : x ∈ a.effects base ds) : x.1 ∈ ds ∧ ∃ c : Applier, (c.apply base x.1).2 = x.2 := by
  induction ds generalizing a with
  | nil => cases hx
  | cons d ds ih =>
    rw [effects] at hx
    rcases List.mem_cons.1 hx with rfl | hx
    · exact ⟨List.mem_cons_self, a, rfl⟩
    · split at hx
      · cases hx
      · exact (ih hx).imp_left (List.mem_cons_of_mem d)

theorem length_effects_le (a : Applier) (ds : List Directive) :
    (a.effects base ds).length ≤ ds.length := by
  induction ds generalizing a with
  | nil => exact Nat.le_refl 0
  | cons d ds ih =>
    rw [effects, List.length_cons, List.length_cons]
    split
    · exact Nat.succ_le_succ (Nat.zero_le _)
    · exact Nat.succ_le_succ (ih _)

/-- Directives of which none fails are all told of. -/
theorem effects_map_fst {ds : List Directive}
    (h : failureOf (a.effects base ds) = none) :
    (a.effects base ds).map Prod.fst = ds := by
  induction ds generalizing a with
  | nil => rfl
  | cons d ds ih =>
    rw [effects] at h ⊢
    rw [failureOf, List.findSome?_cons] at h
    cases hv : (a.apply base d).2.verdict.failure? with
    | some f =>
      rw [hv] at h
      cases h
    | none =>
      simp only [hv, Option.isSome_none, Bool.false_eq_true, if_false] at h ⊢
      rw [List.map_cons, ih h]

/-- A rename lacks its source only if it is asked for. -/
theorem eq_rename_of_lost {p : String × String} (h : (a.apply base d).2.lost? = some p) :
    d = .rename p.1 p.2 := by
  cases d with
  | delete path =>
    simp only [apply, delete] at h
    split at h <;> cases h
  | rename source target =>
    simp only [apply, rename_eq] at h
    split at h
    · cases h
    · cases hs : a.overlay.files base source with
      | error f =>
        rw [hs] at h
        cases h
      | ok found =>
        rw [hs] at h
        cases found with
        | none =>
          cases h
          rfl
        | some content => cases h
  | write path content description =>
    simp only [apply, write] at h
    split at h <;> cases h
  | addDependency packages =>
    simp only [apply, addPackages] at h
    split at h <;> cases h

end Applier

/-! ## What a batch tells -/

/-- The fault of a rename that lacks its source, from the one path of `p` to the other. -/
def lostFault (p : String × String) : Fault := .sourceNotFound p.1 p.2

/-- The directive of a rename from the one path of `p` to the other. -/
def lostRename (p : String × String) : Directive := .rename p.1 p.2

/-- What directives came to, sorted by kind. -/
theorem sorted_effects_perm {es : List (Directive × Effect)}
    (hlost : ∀ x ∈ es, ∀ p, x.2.lost? = some p → x.1 = lostRename p) :
    ((directivesWith Effect.isChanged es).map (fun d => (d, Effect.changed)) ++
      (directivesWith Effect.isUnchanged es).map (fun d => (d, Effect.unchanged)) ++
      (lostOf es).map (fun p => (lostRename p, Effect.missing p.1 p.2)) ++
      es.filter fun x : Directive × Effect => x.2.isFailed).Perm es := by
  induction es with
  | nil => exact .nil
  | cons x es ih =>
    obtain ⟨d, e⟩ := x
    obtain ⟨hx, hlost⟩ := List.forall_mem_cons.1 hlost
    have hrest := (ih hlost).cons (d, e)
    -- the directive goes to the front from where it is sorted in
    have hfront (before behind : List (Directive × Effect)) :
        (before ++ (d, e) :: behind).Perm ((d, e) :: (before ++ behind)) := List.perm_middle
    let changed := (directivesWith Effect.isChanged es).map fun d => (d, Effect.changed)
    let unchanged := (directivesWith Effect.isUnchanged es).map fun d => (d, Effect.unchanged)
    let lost := (lostOf es).map fun p => (lostRename p, Effect.missing p.1 p.2)
    let failed := es.filter fun x => x.2.isFailed
    refine .trans ?_ hrest
    cases e with
    | changed => exact .rfl
    | unchanged =>
      show (changed ++ (d, .unchanged) :: unchanged ++ lost ++ failed).Perm _
      simpa only [List.append_assoc, List.cons_append] using
        hfront changed (unchanged ++ lost ++ failed)
    | missing source target =>
      have hd : d = lostRename (source, target) := hx (source, target) rfl
      subst hd
      show (changed ++ unchanged ++ (lostRename (source, target), .missing source target) :: lost ++
        failed).Perm _
      simpa only [List.append_assoc, List.cons_append] using
        hfront (changed ++ unchanged) (lost ++ failed)
    | failed f => exact hfront (changed ++ unchanged ++ lost) failed

/-- A failure is there just if a directive failed. -/
theorem failureOf_eq_none_iff {es : List (Directive × Effect)} :
    failureOf es = none ↔ es.filter (fun x => x.2.isFailed) = [] := by
  induction es with
  | nil => exact ⟨fun _ => rfl, fun _ => rfl⟩
  | cons x es ih =>
    obtain ⟨d, e⟩ := x
    cases e with
    | failed f => exact ⟨nofun, nofun⟩
    | _ => exact ih

namespace Batch

/-- That the batch `b` tells what the directives of `es` came to. -/
structure Tells (b : Batch) (es : List (Directive × Effect)) : Prop where
  applied : b.applied = directivesWith Effect.isChanged es
  skipped : b.skipped = directivesWith Effect.isUnchanged es
  errors : b.errors = (lostOf es).map lostFault
  stopped : b.stopped = failureOf es

theorem empty_tells : empty.Tells [] := ⟨rfl, rfl, rfl, rfl⟩

/-- That the batch `b` tells of each of `ds` exactly once, and of nothing else: as applied, as
    skipped, or as a rename that lacks its source. -/
def Accounts (b : Batch) (ds : List Directive) : Prop :=
  ∃ lost : List (String × String), b.errors = lost.map lostFault ∧
    (b.applied ++ b.skipped ++ lost.map lostRename).Perm ds

end Batch

namespace Applier

section Telling

variable {base : BaseTree}

/-- What is told of as lacking its source is a rename. -/
theorem lost_of_mem_effects (base : BaseTree) (a : Applier) (ds : List Directive) :
    ∀ x ∈ a.effects base ds, ∀ p, x.2.lost? = some p → x.1 = lostRename p := by
  intro x hx p hp
  obtain ⟨-, c, hc⟩ := exists_apply_of_mem_effects hx
  exact eq_rename_of_lost (hc ▸ hp)

/-- **A batch tells of each directive exactly once just if none fails**, that is if `b.stopped` is
    `none`. -/
theorem effects_account {a : Applier} {ds : List Directive} {b : Batch}
    (h : b.Tells (a.effects base ds)) : b.stopped = none ↔ b.Accounts ds := by
  have hperm := (sorted_effects_perm (lost_of_mem_effects base a ds)).map Prod.fst
  simp only [List.map_append, List.map_map, Function.comp_def, List.map_id', ← h.applied,
    ← h.skipped] at hperm
  rw [h.stopped, failureOf_eq_none_iff]
  constructor
  · intro hnone
    rw [hnone, List.map_nil, List.append_nil,
      effects_map_fst (failureOf_eq_none_iff.2 hnone)] at hperm
    exact ⟨_, h.errors, hperm⟩
  · -- the one that failed is missing from the count
    rintro ⟨lost, herrors, hall⟩
    have hsame : lost.length = (lostOf (a.effects base ds)).length := by
      have hlength := congrArg List.length (herrors.symm.trans h.errors)
      simpa using hlength
    have hcount := hperm.length_eq
    have htotal := hall.length_eq
    have hle : (a.effects base ds).length ≤ ds.length := length_effects_le a ds
    simp only [List.length_append, List.length_map] at hcount htotal
    exact List.length_eq_zero_iff.1 (by omega)

variable (base) (session : String)

theorem applyInto_step (a : Applier) (b : Batch) (d : Directive) :
    (a.applyInto base session b d).1 = a.step base d := by
  unfold step
  cases he : (a.apply base d).2 with
  | changed => rw [applyInto_of_changed base session he]
  | _ => exact applyInto_of_not_changed base session (by simp [he]) b

theorem applyInto_tells {b : Batch} {es : List (Directive × Effect)} (hb : b.Tells es)
    (hstopped : b.stopped = none) (a : Applier) (d : Directive) :
    (a.applyInto base session b d).2.Tells (es ++ [(d, (a.apply base d).2)]) := by
  have hnone := hb.stopped.symm.trans hstopped
  unfold applyInto
  obtain ⟨a', e⟩ := a.apply base d
  refine ⟨?_, ?_, ?_, ?_⟩
  · rw [directivesWith_append, ← hb.applied]
    cases e <;> simp [directivesWith, Effect.isChanged]
  · rw [directivesWith_append, ← hb.skipped]
    cases e <;> simp [directivesWith, Effect.isUnchanged]
  · rw [lostOf_append, List.map_append, ← hb.errors]
    cases e <;> simp [lostOf, Effect.lost?, lostFault]
  · rw [failureOf_append, hnone, Option.none_or]
    cases e <;> simp [failureOf, hstopped, Effect.verdict, FileMap.Verdict.failure?]

/-- **Directives in a row tell what each of them came to**: behind what `b` told already, by `es`,
    come the `effects` of `ds`. -/
theorem applyAll_tells {b : Batch} {es : List (Directive × Effect)} (hb : b.Tells es)
    (hstopped : b.stopped = none) (a : Applier) (ds : List Directive) :
    (a.applyAll base session b ds).2.Tells (es ++ a.effects base ds) ∧
      (a.applyAll base session b ds).1 =
        ((a.effects base ds).map Prod.fst).foldl (step base) a := by
  induction ds generalizing a b es with
  | nil => exact ⟨by rwa [effects, List.append_nil], rfl⟩
  | cons d ds ih =>
    have hto := applyInto_step base session a b d
    have htells := applyInto_tells base session hb hstopped a d
    have hstop := (applyInto_eq base session a b d).2.2
    rw [hstopped, Option.or_none] at hstop
    simp only [applyAll, effects]
    cases hv : (a.apply base d).2.verdict.failure? with
    | some f =>
      simp only [hstop, hv, Option.isSome_some, if_true]
      exact ⟨htells, hto⟩
    | none =>
      rw [hv] at hstop
      simp only [hstop, Option.isSome_none, Bool.false_eq_true, if_false]
      rw [List.append_cons, List.map_cons, List.foldl_cons, ← hto]
      exact ih htells hstop _

/-- The directives among `items`, which a batch was given. -/
def given (items : List Item) : List Directive := items.filterMap Item.directive?

/-- **A batch tells what its directives came to in the order of their classes**, `batchOrder`, and
    leads where they led. -/
theorem applyBatch_tells (a : Applier) (items : List Item) :
    let es := a.effects base (batchOrder (given items))
    (a.applyBatch base session items).2.Tells es ∧
      (a.applyBatch base session items).1 = (es.map Prod.fst).foldl (step base) a := by
  intro es
  obtain ⟨htells, hto⟩ := applyAll_tells base session Batch.empty_tells rfl a
    (batchOrder (given items))
  refine ⟨⟨?_, ?_, ?_, ?_⟩, hto⟩
  · exact (conclude_applied ..).trans htells.applied
  · exact (conclude_skipped ..).trans htells.skipped
  · exact (conclude_errors ..).trans htells.errors
  · exact (conclude_stopped ..).trans htells.stopped

end Telling

/-! ## The order of a batch -/

/-- That the batches `items` and `items'` have the directives of each kind in the same order. -/
def SameClasses (items items' : List Item) : Prop :=
  ∀ n, (given items).filter (fun d => rank d == n) = (given items').filter (fun d => rank d == n)

theorem SameClasses.batchOrder_eq {items items' : List Item} (h : SameClasses items items') :
    batchOrder (given items) = batchOrder (given items') := by
  simp only [batchOrder, List.flatMap_cons, List.flatMap_nil, h 0, h 1, h 2, h 3]

theorem batchOrder_perm (ds : List Directive) : (batchOrder ds).Perm ds := by
  have hperm := (classSort_perm ds.zipIdx).map Prod.fst
  rwa [classSort_map_fst, List.zipIdx_map_fst] at hperm

/-- A batch accounts for directives in any order if it does so in one. -/
theorem accounts_congr {b : Batch} {ds es : List Directive} (h : ds.Perm es) :
    b.Accounts ds ↔ b.Accounts es := by
  constructor
  · rintro ⟨lost, herrors, hperm⟩
    exact ⟨lost, herrors, hperm.trans h⟩
  · rintro ⟨lost, herrors, hperm⟩
    exact ⟨lost, herrors, hperm.trans h.symm⟩

section Steps

variable {base : BaseTree}

/-- **Directives in a row leave the paths that none of them touches.** -/
theorem cell_foldl_step {p : String} {ds : List Directive} (h : ∀ d ∈ ds, p ∉ d.touched)
    (a : Applier) : (ds.foldl (step base) a).overlay.cell p = a.overlay.cell p := by
  induction ds generalizing a with
  | nil => rfl
  | cons d ds ih =>
    obtain ⟨hd, hds⟩ := List.forall_mem_cons.1 h
    rw [List.foldl_cons, ih hds, step_overlay, cell_apply_of_notMem hd]

theorem mem_dependencies_foldl_step {x : String} (ds : List Directive) (a : Applier) :
    x ∈ (ds.foldl (step base) a).dependencies ↔ x ∈ a.dependencies ∨ ∃ d ∈ ds, x ∈ d.packages := by
  induction ds generalizing a with
  | nil => simp
  | cons d ds ih =>
    rw [List.foldl_cons, ih, step_dependencies, mem_dependencies_apply, or_assoc]
    simp only [List.mem_cons, exists_eq_or_imp]

/-- A written path holds what was written, also if it did so before. -/
theorem content_step_write (a : Applier) (path content : String) (description : Option String) :
    ((a.step base (.write path content description)).overlay.cell path).content = some content := by
  rw [step_overlay]
  simp only [apply, write]
  split
  · rename_i hw
    exact hw.2
  · rw [Overlay.cell_write, if_pos rfl]

/-- Behind the last write to a path a batch touches the path no more. -/
theorem batchOrder_split {ds before behind : List Directive} {path content : String}
    {description : Option String} (hds : ds = before ++ .write path content description :: behind)
    (hlast : ∀ c e, .write path c e ∉ behind) :
    ∃ lead tail, batchOrder ds = lead ++ .write path content description :: tail ∧
      ∀ d ∈ tail, path ∉ d.touched := by
  let ofKind (n : Nat) (l : List Directive) := l.filter fun d => rank d == n
  have hwrites : ofKind 2 ds =
      ofKind 2 before ++ .write path content description :: ofKind 2 behind := by
    rw [hds]
    exact List.filter_append ..
  refine ⟨ofKind 0 ds ++ ofKind 1 ds ++ ofKind 2 before, ofKind 2 behind ++ ofKind 3 ds, ?_, ?_⟩
  · show ofKind 0 ds ++ (ofKind 1 ds ++ (ofKind 2 ds ++ (ofKind 3 ds ++ []))) = _
    rw [hwrites]
    simp only [List.append_assoc, List.cons_append, List.append_nil]
  · intro d hd hpath
    rcases List.mem_append.1 hd with hd | hd
    · -- a write behind the last one of the path goes to another path
      obtain ⟨hmem, hrank⟩ := List.mem_filter.1 hd
      cases d with
      | write p c e =>
        cases List.mem_singleton.1 hpath
        exact hlast c e hmem
      | _ => cases hrank
    · obtain ⟨-, hrank⟩ := List.mem_filter.1 hd
      cases d with
      | addDependency packages => exact List.not_mem_nil hpath
      | _ => cases hrank

end Steps

section Law

variable (base : BaseTree) (session : String)

/-- A batch that is not stopped leads where all its directives lead. -/
theorem applyBatch_of_not_stopped {a : Applier} {items : List Item}
    (h : (a.applyBatch base session items).2.stopped = none) :
    (a.applyBatch base session items).1 = (batchOrder (given items)).foldl (step base) a := by
  obtain ⟨htells, hto⟩ := applyBatch_tells base session a items
  rw [hto, effects_map_fst (htells.stopped.symm.trans h)]

/-- **What stops a batch is a rename from a path that cannot be looked at**: the failure of the
    batch is the `trouble` of the base with `source`. -/
theorem rename_of_stopped {a : Applier} {items : List Item} {f : Failure}
    (h : (a.applyBatch base session items).2.stopped = some f) :
    ∃ source target, .rename source target ∈ given items ∧ source ≠ target ∧
      base.trouble source = some f := by
  obtain ⟨htells, -⟩ := applyBatch_tells base session a items
  rw [htells.stopped] at h
  obtain ⟨⟨d, e⟩, hx, hf⟩ := List.exists_of_findSome?_eq_some h
  obtain ⟨hmem, c, hc⟩ := exists_apply_of_mem_effects hx
  have hfailed : e = .failed f := by
    cases e with
    | failed g =>
      cases hf
      rfl
    | _ => cases hf
  obtain ⟨source, target, rfl, hne, htrouble⟩ := apply_failed (hc.trans hfailed)
  exact ⟨source, target, mem_of_mem_batchOrder hmem, hne, htrouble⟩

/-- **The order of a batch is the order of its classes.** Batches in the `SameClasses`, with the
    same directives of each kind in the same order, are one and the same: they lead to the same
    state and tell the same. What they apply is kept on record. If nothing stops them, the batch
    `Accounts` for each directive exactly once, a written path reads as its last write and all
    packages are added. What stops a batch is a rename from a path that `base` cannot look at, and
    then not every directive is told of. -/
theorem batch_order_law (a : Applier) (items : List Item) :
    let ds := given items
    let r := a.applyBatch base session items
    (∀ items', SameClasses items items' → a.applyBatch base session items' = r) ∧
    r.1.history = a.history ++ r.2.applied ∧
    (r.2.stopped = none ↔ r.2.Accounts ds) ∧
    (r.2.stopped = none →
      (∀ before behind path content description,
        ds = before ++ .write path content description :: behind →
        (∀ c e, .write path c e ∉ behind) → r.1.overlay.view base path = some content) ∧
      r.1.dependencies = a.dependencies.union (packagesOf ds)) ∧
    ∀ f, r.2.stopped = some f → ∃ source target, .rename source target ∈ ds ∧
      source ≠ target ∧ base.trouble source = some f := by
  intro ds r
  refine ⟨?_, ?_, ?_, ?_, ?_⟩
  · intro items' h
    have horder : batchOrder (items'.filterMap Item.directive?) =
        batchOrder (items.filterMap Item.directive?) := h.batchOrder_eq.symm
    show a.applyBatch base session items' = a.applyBatch base session items
    simp only [applyBatch, horder]
  · exact (applyBatch_leads base session a items).history
  · obtain ⟨htells, -⟩ := applyBatch_tells base session a items
    exact (effects_account htells).trans (accounts_congr (batchOrder_perm ds))
  · intro hstopped
    have hto : r.1 = _ := applyBatch_of_not_stopped base session hstopped
    refine ⟨?_, ?_⟩
    · intro before behind path content description hds hlast
      obtain ⟨lead, tail, hsplit, htail⟩ := batchOrder_split hds hlast
      rw [hsplit, List.foldl_append, List.foldl_cons] at hto
      have hcontent : r.1.overlay.writes.get? path = some content := by
        rw [hto]
        refine Eq.trans (congrArg Cell.content (cell_foldl_step htail _)) ?_
        exact content_step_write _ path content description
      rw [Overlay.view, hcontent]
    · refine Names.ext_mem fun x => ?_
      rw [hto, mem_dependencies_foldl_step, Names.mem_union, mem_packagesOf]
      simp only [(batchOrder_perm ds).mem_iff, ds]
  · exact fun f hf => rename_of_stopped base session hf

end Law

/-! ## A batch that is stopped -/

/-- A rename that cannot be looked at keeps the write behind it from being applied. -/
theorem applyBatch_of_trouble {base : BaseTree} {source target path content : String} {f : Failure}
    (hf : base.trouble source = some f) (hne : source ≠ target) (session : String) :
    let items := [.directive (.rename source target), .directive (.write path content none)]
    let r := empty.applyBatch base session items
    r.1 = empty ∧ ¬r.2.Accounts (given items) ∧ r.1.overlay.view base path = base.read path := by
  intro items r
  have hrename := apply_rename_of_trouble (a := empty) rfl hf hne
  have heffects : empty.effects base (batchOrder (given items)) =
      [(.rename source target, .failed f)] := by
    show empty.effects base [.rename source target, .write path content none] = _
    rw [effects, hrename]
    rfl
  obtain ⟨htells, hto⟩ := applyBatch_tells base session empty items
  have hstopped : r.2.stopped = some f := by
    rw [htells.stopped, heffects]
    rfl
  have hsame : r.1 = empty := by
    rw [hto, heffects]
    show empty.step base (.rename source target) = empty
    rw [step, hrename]
  refine ⟨hsame, ?_, ?_⟩
  · intro haccounts
    have hnone := (effects_account htells).2 haccounts
    rw [hstopped] at hnone
    cases hnone
  · rw [hsame]
    rfl

/-- Nothing is at the path on the disk. -/
theorem read_absent (walk : Disk.TreeWalk) :
    (Disk.project ⟨[(["proj"], .dir), (["proj", "a"], .file "x".toUTF8)]⟩ ⟨1, ["proj"]⟩ []
      walk).read "w" = none := by
  have hread : ∀ d : Disk, (d.project ⟨1, ["proj"]⟩ [] walk).read "w" =
      d.readText (FilePath.joinText ⟨1, ["proj"]⟩ "w") := fun _ => rfl
  have hjoin : FilePath.joinText ⟨1, ["proj"]⟩ "w" = ⟨1, ["proj", "w"]⟩ := by decide
  have hshort : isLongName "proj" = false ∧ isLongName "w" = false ∧
      (⟨1, ["proj", "w"]⟩ : FilePath).isLong = false := by decide +kernel
  obtain ⟨hproj, hw, hfit⟩ := hshort
  simp [hread, hjoin, hproj, hw, hfit, Disk.readText, Disk.bytes?, Disk.look, Disk.locate,
    Disk.walk, Disk.isDirNode, Disk.node?, Disk.lookup, Disk.isSlashes]

/-- **A rename that cannot be looked at takes its batch along.** The name of its source is too long
    for the disk: neither the rename nor the write behind it is told of, and the written path reads
    as absent. -/
theorem overlong_rename_stops_batch :
    let d : Disk := ⟨[(["proj"], .dir), (["proj", "a"], .file "x".toUTF8)]⟩
    let base : BaseTree := d.project ⟨1, ["proj"]⟩ [] .passesLinks
    let items := [.directive (.rename overlongName "c"), .directive (.write "w" "1" none)]
    let r := empty.applyBatch base "session" items
    r.1 = empty ∧ ¬r.2.Accounts (given items) ∧ r.1.overlay.view base "w" = none := by
  obtain ⟨f, hf⟩ := Option.isSome_iff_exists.1 (overlongName_trouble .passesLinks)
  obtain ⟨hsame, hunaccounted, hview⟩ :=
    @applyBatch_of_trouble _ overlongName "c" "w" "1" f hf (overlongName_ne rfl) "session"
  exact ⟨hsame, hunaccounted, hview.trans (read_absent _)⟩

end Applier

end StagedEdits
