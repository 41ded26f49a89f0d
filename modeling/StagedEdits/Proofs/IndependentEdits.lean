import StagedEdits.Proofs.BatchOutcome

set_option autoImplicit false

/-! # Edits of different files

Edits of which no two touch the same path may come in any order, and in any batches: what each of
them comes to, and what it leaves at the paths it touches, is settled by what was held there before
all of them. The renames that are remembered are the same too, unless files were moved from or to
these paths before. An edit that fails is the exception, as it stops the batch that it is in.

Main definitions: `Independent`, `Applier.Settled`, `Applier.Splits`. Main statements:
`Applier.Settled.call` (one call), `Applier.independent_edits_commute`. -/

namespace StagedEdits

/-- That the directives `ds` edit files, and no two of them touch the same path. -/
structure Independent (ds : List Directive) : Prop where
  edits : ∀ d ∈ ds, d.isEdit = true
  apart : ds.Pairwise fun d e => ∀ p ∈ d.touched, p ∉ e.touched

namespace Independent

variable {ds es : List Directive} {d : Directive}

theorem perm (h : Independent ds) (hperm : ds.Perm es) : Independent es where
  edits d hd := h.edits d (hperm.mem_iff.2 hd)
  apart := by
    refine (hperm.pairwise_iff ?_).1 h.apart
    intro d e hde p hp hp'
    exact hde p hp' hp

theorem left (h : Independent (ds ++ es)) : Independent ds where
  edits d hd := h.edits d (List.mem_append_left es hd)
  apart := (List.pairwise_append.1 h.apart).1

/-- The paths of a directive are touched by none in front of it. -/
theorem last (h : Independent (ds ++ [d])) {p : String} (hp : p ∈ d.touched) :
    ∀ e ∈ ds, p ∉ e.touched := by
  intro e he hp'
  have hacross := (List.pairwise_append.1 h.apart).2.2
  exact hacross e he d (List.mem_singleton.2 rfl) p hp' hp

end Independent

/-! ## Renames -/

/-- That `o` remembers no rename from or to `path`. -/
def Overlay.Unmoved (o : Overlay) (path : String) : Prop :=
  ∀ p, o.renames.get? path ≠ some p ∧ o.renames.get? p ≠ some path

theorem Overlay.empty_unmoved (path : String) : Overlay.empty.Unmoved path :=
  fun _ => ⟨nofun, nofun⟩

/-- A file that was moved neither on nor here is its own origin, so behind a move it is remembered
    as the source. -/
theorem Overlay.moved_move_of_unmoved {o : Overlay} {source target : String}
    (hsource : o.Unmoved source) (htarget : o.Unmoved target) (hne : source ≠ target)
    (content p q : String) : (o.move source target content).shape.moved p q ↔
      o.shape.moved p q ∨ source = p ∧ target = q := by
  have horigin : o.shape.Origin source p ↔ p = source := by
    constructor
    · exact fun ho => ho.elim (fun hm => absurd hm (hsource p).2) And.left
    · exact fun hp => .inr ⟨hp, fun r hr => (hsource r).2 hr⟩
  rw [Overlay.shape_move]
  show p ≠ target ∧ (o.shape.Origin source p ∧ q = target ∨
    ¬o.shape.Origin source p ∧ o.shape.moved p q) ↔ _
  rw [horigin]
  constructor
  · rintro ⟨-, ⟨rfl, rfl⟩ | ⟨-, hm⟩⟩
    · exact .inr ⟨rfl, rfl⟩
    · exact .inl hm
  · rintro (hm | ⟨rfl, rfl⟩)
    · have hp : p ≠ target := by
        rintro rfl
        exact (htarget q).1 hm
      have hp' : p ≠ source := by
        rintro rfl
        exact (hsource q).1 hm
      exact ⟨hp, .inr ⟨hp', hm⟩⟩
    · exact ⟨hne, .inl ⟨rfl, rfl⟩⟩

namespace Applier

variable {base : BaseTree} {a b : Applier} {d : Directive} {ds es : List Directive}

/-- **What is remembered behind a directive `d`,** if no file was moved from or to its paths before:
    it itself, if it is a rename that changes something, and what was remembered. -/
theorem renames_apply_of_unmoved (h : ∀ p ∈ d.touched, a.overlay.Unmoved p) (p q : String) :
    (a.apply base d).1.overlay.renames.get? p = some q ↔
      a.overlay.renames.get? p = some q ∨
        d = .rename p q ∧ (a.apply base d).2.isChanged = true := by
  cases d with
  | delete path =>
    have hq : a.overlay.shape.moved p q → q ≠ path := by
      rintro hm rfl
      exact (h q List.mem_cons_self p).2 hm
    simp only [apply, delete, reduceCtorEq, false_and, or_false]
    split
    · exact Iff.rfl
    · show (a.overlay.delete path).shape.moved p q ↔ _
      rw [Overlay.shape_delete]
      exact and_iff_left_of_imp hq
  | rename source target =>
    simp only [apply, rename_eq, Directive.rename.injEq]
    split
    · simp [Effect.isChanged]
    · rename_i hne
      cases a.overlay.files base source with
      | error f => simp [Effect.isChanged]
      | ok found =>
        cases found with
        | none => simp [Effect.isChanged]
        | some content =>
          have hsource := h source List.mem_cons_self
          have htarget := h target (List.mem_cons_of_mem _ (List.mem_singleton.2 rfl))
          refine (Overlay.moved_move_of_unmoved hsource htarget hne content p q).trans ?_
          simp [Effect.isChanged, Overlay.shape]
  | write path content description =>
    have hp : a.overlay.shape.moved p q → p ≠ path := by
      rintro hm rfl
      exact (h p List.mem_cons_self q).1 hm
    simp only [apply, write, reduceCtorEq, false_and, or_false]
    split
    · exact Iff.rfl
    · show (a.overlay.write path content).shape.moved p q ↔ _
      rw [Overlay.shape_write]
      exact and_iff_left_of_imp hp
  | addDependency packages =>
    simp only [apply, addPackages, reduceCtorEq, false_and, or_false]
    split <;> exact Iff.rfl

/-! ## Directives in a row -/

/-- That `ds` are settled: `b` holds, at the paths each of them touches, what that one alone leaves
    there from `a`, and elsewhere what `a` holds. -/
structure Settled (base : BaseTree) (a : Applier) (ds : List Directive) (b : Applier) : Prop where
  touched : ∀ d ∈ ds, ∀ p ∈ d.touched, b.overlay.cell p = (a.apply base d).1.overlay.cell p
  other : ∀ p, (∀ d ∈ ds, p ∉ d.touched) → b.overlay.cell p = a.overlay.cell p
  renames : (∀ d ∈ ds, ∀ p ∈ d.touched, a.overlay.Unmoved p) → ∀ p q,
    b.overlay.renames.get? p = some q ↔ a.overlay.renames.get? p = some q ∨
      .rename p q ∈ ds ∧ (a.apply base (.rename p q)).2.isChanged = true

namespace Settled

theorem nil (base : BaseTree) (a : Applier) : Settled base a [] a where
  touched d hd := absurd hd List.not_mem_nil
  other _ _ := rfl
  renames _ p q := by simp

theorem perm (h : Settled base a ds b) (hperm : ds.Perm es) : Settled base a es b where
  touched d hd := h.touched d (hperm.mem_iff.2 hd)
  other p hp := h.other p fun d hd => hp d (hperm.mem_iff.1 hd)
  renames hun p q := by
    rw [h.renames (fun d hd => hun d (hperm.mem_iff.1 hd)) p q, hperm.mem_iff]

/-- **One more directive is settled by what was held before all of them.** -/
theorem apply (h : Settled base a ds b) (hind : Independent (ds ++ [d])) :
    (b.apply base d).2 = (a.apply base d).2 ∧
      ∀ c : Applier, c.overlay = (b.apply base d).1.overlay → Settled base a (ds ++ [d]) c := by
  have hedit : d.isEdit = true := hind.edits d (List.mem_append_right ds (List.mem_singleton.2 rfl))
  have hsame : ∀ p ∈ d.touched, b.overlay.cell p = a.overlay.cell p := by
    intro p hp
    exact h.other p (hind.last hp)
  obtain ⟨heffect, hcells⟩ := apply_congr hedit hsame
  refine ⟨heffect, ?_⟩
  intro c hc
  refine ⟨?_, ?_, ?_⟩
  · intro e he p hp
    rw [hc]
    rcases List.mem_append.1 he with he | he
    · -- the paths of the ones before are left alone
      have hp' : p ∉ d.touched := fun hd => hind.last hd e he hp
      rw [cell_apply_of_notMem hp', h.touched e he p hp]
    · rw [List.mem_singleton.1 he] at hp ⊢
      exact hcells p hp
  · intro p hp
    have hd : p ∉ d.touched := hp d (List.mem_append_right ds (List.mem_singleton.2 rfl))
    rw [hc, cell_apply_of_notMem hd]
    exact h.other p fun e he => hp e (List.mem_append_left _ he)
  · intro hun p q
    have hunds : ∀ e ∈ ds, ∀ p ∈ e.touched, a.overlay.Unmoved p := by
      intro e he
      exact hun e (List.mem_append_left _ he)
    have hren := h.renames hunds
    -- none of the ones before moved a file from or to the paths of this one
    have hunb : ∀ r ∈ d.touched, b.overlay.Unmoved r := by
      intro r hr s
      have hra := hun d (List.mem_append_right ds (List.mem_singleton.2 rfl)) r hr s
      refine ⟨?_, ?_⟩
      · intro hrs
        rcases (hren r s).1 hrs with hrs | ⟨hmem, -⟩
        · exact hra.1 hrs
        · exact hind.last hr _ hmem List.mem_cons_self
      · intro hsr
        rcases (hren s r).1 hsr with hsr | ⟨hmem, -⟩
        · exact hra.2 hsr
        · exact hind.last hr _ hmem (List.mem_cons_of_mem _ (List.mem_singleton.2 rfl))
    rw [hc, renames_apply_of_unmoved hunb, hren, heffect, or_assoc, List.mem_append,
      List.mem_singleton, or_and_right]
    refine or_congr_right (or_congr_right ?_)
    constructor
    · rintro ⟨rfl, hchanged⟩
      exact ⟨rfl, hchanged⟩
    · rintro ⟨rfl, hchanged⟩
      exact ⟨rfl, hchanged⟩

/-- Directives of which none fails alone are all applied, each as it would be alone. -/
theorem effects (h : Settled base a ds b) (hind : Independent (ds ++ es))
    (hlook : ∀ d ∈ es, (a.apply base d).2.isFailed = false) :
    b.effects base es = es.map (fun d => (d, (a.apply base d).2)) ∧
      Settled base a (ds ++ es) (es.foldl (step base) b) := by
  induction es generalizing ds b with
  | nil => exact ⟨rfl, by rwa [List.append_nil]⟩
  | cons d es ih =>
    obtain ⟨hd, hlook⟩ := List.forall_mem_cons.1 hlook
    rw [List.append_cons] at hind ⊢
    obtain ⟨heffect, hsettled⟩ := h.apply hind.left
    obtain ⟨htail, hend⟩ := ih (hsettled (b.step base d) step_overlay) hind hlook
    refine ⟨?_, hend⟩
    rw [Applier.effects, heffect, Effect.failure?_isSome, hd, List.map_cons, ← htail]
    rfl

end Settled

end Applier

/-! ## What calls tell -/

/-- The paths of the rename that a fault tells of. -/
def Fault.lost? : Fault → Option (String × String)
  | .sourceNotFound source target => some (source, target)
  | _ => none

/-- What `b` tells of its directives. -/
def Batch.told (b : Batch) : List (Directive × Effect) :=
  b.applied.map (fun d => (d, Effect.changed)) ++ b.skipped.map (fun d => (d, Effect.unchanged)) ++
    (b.errors.filterMap Fault.lost?).map fun p => (lostRename p, Effect.missing p.1 p.2)

namespace Applier

/-- The directives that a call is given. -/
def Call.given : Call → List Directive
  | .apply d => [d]
  | .batch items => Applier.given items
  | _ => []

/-- Whether a call applies just the directives that it is given. -/
def Call.isPlain : Call → Bool
  | .apply _ | .batch _ => true
  | _ => false

/-- That the calls `cs` cut `ds`, in any order, into batches and single directives. -/
structure Splits (cs : List Call) (ds : List Directive) : Prop where
  plain : ∀ c ∈ cs, c.isPlain = true
  given : (cs.flatMap Call.given).Perm ds

section Telling

variable (base : BaseTree) (session : String)

/-- What a call to `a` tells of its directives. -/
def answer (a : Applier) : Call → List (Directive × Effect)
  | .apply d => [(d, (a.apply base d).2)]
  | .batch items => (a.applyBatch base session items).2.told
  | _ => []

/-- What calls in a row tell of their directives. -/
def answers : Applier → List Call → List (Directive × Effect)
  | _, [] => []
  | a, c :: cs => a.answer base session c ++ answers (a.call base session c) cs

variable {base} {a b : Applier} {d : Directive} {ds : List Directive}

/-- A batch in which nothing fails tells what its directives came to. -/
theorem told_perm {r : Batch} (h : r.Tells (a.effects base ds))
    (hnone : ∀ x ∈ a.effects base ds, x.2.isFailed = false) :
    r.told.Perm (a.effects base ds) := by
  have hfailed : (a.effects base ds).filter (fun x => x.2.isFailed) = [] := by
    rw [List.filter_eq_nil_iff]
    intro x hx
    rw [hnone x hx]
    exact Bool.false_ne_true
  have hlost : (r.errors.filterMap Fault.lost?) = lostOf (a.effects base ds) := by
    rw [h.errors, List.filterMap_map]
    exact List.filterMap_some
  have hperm := sorted_effects_perm (lost_of_mem_effects base a ds)
  rw [hfailed, List.append_nil, ← h.applied, ← h.skipped, ← hlost] at hperm
  exact hperm

/-- **A call `c` tells of each directive what it comes to alone**, if it is plain and its directives
    are independent of those before, `ds`. -/
theorem Settled.call (h : Settled base a ds b) {c : Call} (hplain : c.isPlain = true)
    (hind : Independent (ds ++ c.given))
    (hlook : ∀ d ∈ c.given, (a.apply base d).2.isFailed = false) :
    (b.answer base session c).Perm (c.given.map fun d => (d, (a.apply base d).2)) ∧
      Settled base a (ds ++ c.given) (b.call base session c) := by
  cases c with
  | apply d =>
    obtain ⟨heffect, hsettled⟩ := h.apply hind
    refine ⟨?_, hsettled _ rfl⟩
    rw [answer, heffect]
    exact .rfl
  | batch items =>
    have horder : (batchOrder (Applier.given items)).Perm (Applier.given items) :=
      batchOrder_perm _
    have hlook' : ∀ d ∈ batchOrder (Applier.given items), (a.apply base d).2.isFailed = false := by
      intro d hd
      exact hlook d (horder.mem_iff.1 hd)
    obtain ⟨heffects, hsettled⟩ := h.effects (hind.perm (horder.symm.append_left ds)) hlook'
    obtain ⟨htells, hto⟩ := applyBatch_tells base session b items
    have hnone : ∀ x ∈ b.effects base (batchOrder (Applier.given items)), x.2.isFailed = false := by
      rw [heffects]
      intro x hx
      obtain ⟨d, hd, rfl⟩ := List.mem_map.1 hx
      exact hlook' d hd
    refine ⟨?_, ?_⟩
    · refine (told_perm htells hnone).trans ?_
      rw [heffects]
      exact horder.map _
    · have hfst : (b.effects base (batchOrder (Applier.given items))).map Prod.fst =
          batchOrder (Applier.given items) := by
        rw [heffects, List.map_map]
        exact List.map_id _
      show Settled base a _ (b.applyBatch base session items).1
      rw [hto, hfst]
      exact hsettled.perm (horder.append_left ds)
  | _ => cases hplain

/-- **Calls in a row tell of each directive what it comes to alone**, if all of `cs` are plain and
    all directives are independent. -/
theorem Settled.calls (h : Settled base a ds b) {cs : List Call}
    (hplain : ∀ c ∈ cs, c.isPlain = true) (hind : Independent (ds ++ cs.flatMap Call.given))
    (hlook : ∀ d ∈ cs.flatMap Call.given, (a.apply base d).2.isFailed = false) :
    (b.answers base session cs).Perm
        ((cs.flatMap Call.given).map fun d => (d, (a.apply base d).2)) ∧
      Settled base a (ds ++ cs.flatMap Call.given) (b.calls base session cs) := by
  induction cs generalizing ds b with
  | nil => exact ⟨.nil, by rwa [List.flatMap_nil, List.append_nil]⟩
  | cons c cs ih =>
    obtain ⟨hc, hplain⟩ := List.forall_mem_cons.1 hplain
    rw [List.flatMap_cons] at hind hlook ⊢
    rw [← List.append_assoc] at hind ⊢
    obtain ⟨htold, hsettled⟩ := h.call session hc hind.left
      fun d hd => hlook d (List.mem_append_left _ hd)
    obtain ⟨hrest, hend⟩ := ih hsettled hplain hind fun d hd => hlook d (List.mem_append_right _ hd)
    refine ⟨?_, hend⟩
    rw [answers, List.map_append]
    exact htold.append hrest

/-- Two appliers at which the same directives are settled hold the same. -/
theorem Settled.cell_eq {c : Applier} (hb : Settled base a ds b) (hc : Settled base a ds c)
    (p : String) : b.overlay.cell p = c.overlay.cell p := by
  by_cases hp : ∃ d ∈ ds, p ∈ d.touched
  · obtain ⟨d, hd, hp⟩ := hp
    rw [hb.touched d hd p hp, hc.touched d hd p hp]
  · have hp : ∀ d ∈ ds, p ∉ d.touched := fun d hd hpd => hp ⟨d, hd, hpd⟩
    rw [hb.other p hp, hc.other p hp]

/-- **Edits of different files come to the same in any order and in any batches,** if none of them
    fails alone. Let `cs` and `cs'` split the `Independent` directives `ds`: each of these comes to
    what it would alone, and the same is written, deleted and written as a whole behind all of them.
    The same renames are remembered as well, if their paths are `Unmoved` before. -/
theorem independent_edits_commute (a : Applier) {ds : List Directive} (hds : Independent ds)
    (hlook : ∀ d ∈ ds, (a.apply base d).2.isFailed = false) {cs cs' : List Call}
    (hcs : Splits cs ds) (hcs' : Splits cs' ds) :
    let outcomes := ds.map fun d => (d, (a.apply base d).2)
    let o := (a.calls base session cs).overlay
    let o' := (a.calls base session cs').overlay
    (a.answers base session cs).Perm outcomes ∧ (a.answers base session cs').Perm outcomes ∧
    (∀ p, o.writes.get? p = o'.writes.get? p) ∧ o.deletes = o'.deletes ∧ o.closed = o'.closed ∧
    ((∀ d ∈ ds, ∀ p ∈ d.touched, a.overlay.Unmoved p) →
      ∀ p, o.renames.get? p = o'.renames.get? p) := by
  intro outcomes o o'
  have hrun : ∀ {es : List Call}, Splits es ds →
      (a.answers base session es).Perm outcomes ∧
        Settled base a ds (a.calls base session es) := by
    intro es hes
    have hind : Independent ([] ++ es.flatMap Call.given) := hds.perm hes.given.symm
    have hlook' : ∀ d ∈ es.flatMap Call.given, (a.apply base d).2.isFailed = false := by
      intro d hd
      exact hlook d (hes.given.mem_iff.1 hd)
    obtain ⟨htold, hsettled⟩ := (Settled.nil base a).calls session hes.plain hind hlook'
    exact ⟨htold.trans (hes.given.map _), hsettled.perm hes.given⟩
  obtain ⟨htold, hsettled⟩ := hrun hcs
  obtain ⟨htold', hsettled'⟩ := hrun hcs'
  have hcell := fun p => Overlay.cell_eq_iff.1 (hsettled.cell_eq hsettled' p)
  refine ⟨htold, htold', ?_, ?_, ?_, ?_⟩
  · intro p
    exact (hcell p).1
  · exact Names.ext_mem fun p => (hcell p).2.1
  · exact Names.ext_mem fun p => (hcell p).2.2
  · intro hun p
    refine Option.ext fun q => ?_
    rw [hsettled.renames hun p q, hsettled'.renames hun p q]

/-- A rename, a write and a delete of different files, as one batch and one by one. -/
theorem rename_write_delete_commute :
    let base := BaseTree.ofFiles (Table.ofList [("a", "x")])
    let ds : List Directive := [.rename "a" "b", .write "c" "1" none, .delete "d"]
    let cs : List Call :=
      [.batch [.directive (.write "c" "1" none), .directive (.rename "a" "b"),
        .directive (.delete "d")]]
    let cs' : List Call :=
      [.apply (.delete "d"), .apply (.rename "a" "b"), .batch [.directive (.write "c" "1" none)]]
    let o := (empty.calls base "session" cs).overlay
    let o' := (empty.calls base "session" cs').overlay
    Independent ds ∧ (∀ d ∈ ds, (empty.apply base d).2.isFailed = false) ∧ Splits cs ds ∧
    Splits cs' ds ∧ (empty.answers base "session" cs).Perm (ds.map fun d => (d, .changed)) ∧
    (empty.answers base "session" cs').Perm (ds.map fun d => (d, .changed)) ∧
    (∀ p, o.writes.get? p = o'.writes.get? p) ∧ o.deletes = o'.deletes ∧ o.closed = o'.closed ∧
    ∀ p, o.renames.get? p = o'.renames.get? p := by
  intro base ds cs cs' o o'
  have hds : Independent ds := ⟨by decide, by decide⟩
  have hlook : ∀ d ∈ ds, (empty.apply base d).2.isFailed = false := by decide
  have hcs : Splits cs ds := ⟨by decide, by decide⟩
  have hcs' : Splits cs' ds := ⟨by decide, by decide⟩
  obtain ⟨htold, htold', hwrites, hdeletes, hclosed, hrenames⟩ :=
    independent_edits_commute "session" empty hds hlook hcs hcs'
  refine ⟨hds, hlook, hcs, hcs', htold, htold', hwrites, hdeletes, hclosed, ?_⟩
  exact hrenames fun _ _ p _ => Overlay.empty_unmoved p

/-- A rename that cannot be looked at keeps a write from being applied in one batch with it, and
    only there. -/
theorem calls_of_trouble {base : BaseTree} {source target path content : String} {f : Failure}
    (hf : base.trouble source = some f) (hne : source ≠ target) (session : String) :
    let batch : List Item :=
      [.directive (.rename source target), .directive (.write path content none)]
    let single : List Call := [.apply (.rename source target), .apply (.write path content none)]
    (empty.calls base session [.batch batch]).overlay.writes.get? path = none ∧
      (empty.calls base session single).overlay.writes.get? path = some content := by
  intro batch single
  obtain ⟨hsame, -, -⟩ := @applyBatch_of_trouble base source target path content f hf hne session
  have hrename := apply_rename_of_trouble (a := empty) rfl hf hne
  refine ⟨?_, ?_⟩
  · show (empty.applyBatch base session batch).1.overlay.writes.get? path = none
    rw [hsame]
    rfl
  · show ((empty.apply base (.rename source target)).1.apply base
      (.write path content none)).1.overlay.writes.get? path = some content
    rw [hrename, ← step_overlay]
    exact @content_step_write base empty path content none

/-- **A rename that cannot be looked at tells one batch from two calls.** The name of its source is
    too long for the disk: a write of another file is lost behind it in a batch, and not behind it
    alone. -/
theorem overlong_rename_tells_batch_from_calls :
    let d : Disk := ⟨[(["proj"], .dir), (["proj", "a"], .file "x".toUTF8)]⟩
    let base : BaseTree := d.project ⟨1, ["proj"]⟩ [] .passesLinks
    let ds : List Directive := [.rename overlongName "c", .write "w" "1" none]
    let batch : List Item :=
      [.directive (.rename overlongName "c"), .directive (.write "w" "1" none)]
    let single : List Call := [.apply (.rename overlongName "c"), .apply (.write "w" "1" none)]
    Independent ds ∧ Splits [.batch batch] ds ∧ Splits single ds ∧
      (empty.calls base "session" [.batch batch]).overlay.writes.get? "w" = none ∧
      (empty.calls base "session" single).overlay.writes.get? "w" = some "1" := by
  obtain ⟨f, hf⟩ := Option.isSome_iff_exists.1 (overlongName_trouble .passesLinks)
  have hcalls := @calls_of_trouble _ overlongName "c" "w" "1" f hf (overlongName_ne rfl) "session"
  refine ⟨⟨?_, ?_⟩, ⟨?_, .rfl⟩, ⟨?_, .rfl⟩, hcalls⟩
  · simp [Directive.isEdit]
  · have hw : overlongName ≠ "w" := overlongName_ne rfl
    simp [Directive.touched, hw]
  · simp [Call.isPlain]
  · simp [Call.isPlain]

end Telling

end Applier

end StagedEdits
