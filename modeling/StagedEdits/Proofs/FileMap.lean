import StagedEdits.Overlay.Applier

set_option autoImplicit false

/-! # The overlay as a file map

Read through an overlay, the files of a base tree are a plain map from paths to contents. Directives
are plain file operations on it, a batch is such operations in the order of its classes, and a
replay is such operations over the tail of a log.

Main definitions: `FileMap`, `FileMap.step`, `FileMap.run`, `Overlay.files`. Main statements:
`Applier.apply_files` (one directive), `Applier.applyItems_files` (many),
`Applier.calls_refine_file_map`. -/

namespace StagedEdits

/-! ## File maps -/

/-- What each path reads as: a content, or nothing, or the failure of looking at it. -/
abbrev FileMap := String → Except Failure (Option String)

/-- The directive of an item, or the failure of applying a value of another type. -/
def Item.work : Item → Except Failure Directive
  | .directive d => .ok d
  | .parsed p => .ok p.directive
  | .foreign name => .error (unknownType name)

namespace FileMap

/-- What an operation on a `FileMap` comes to. -/
inductive Verdict where
  /-- It is done. -/
  | done
  /-- The file to move is absent. -/
  | missing (source target : String)
  /-- The file to move cannot be looked at. -/
  | failed (f : Failure)

/-- The faults of an operation. -/
def Verdict.errors : Verdict → List Fault
  | .missing source target => [.sourceNotFound source target]
  | _ => []

/-- The failure of an operation. -/
def Verdict.failure? : Verdict → Option Failure
  | .failed f => some f
  | _ => none

theorem Verdict.errors_of_failure {v : Verdict} {f : Failure} (h : v.failure? = some f) :
    v.errors = [] := by
  cases v with
  | failed => rfl
  | _ => cases h

/-- The map `m` without `path`. -/
def remove (m : FileMap) (path : String) : FileMap :=
  fun p => if p = path then .ok none else m p

/-- The map `m` with `content` at `path`. -/
def put (m : FileMap) (path content : String) : FileMap :=
  fun p => if p = path then .ok (some content) else m p

/-- A directive as a plain operation on the files of `m`. -/
def step (m : FileMap) : Directive → FileMap × Verdict
  | .delete path => (m.remove path, .done)
  | .write path content _ => (m.put path content, .done)
  | .rename source target =>
    if source = target then (m, .done)
    else
      match m source with
      | .error f => (m, .failed f)
      | .ok none => (m, .missing source target)
      | .ok (some content) => ((m.put target content).remove source, .done)
  | .addDependency _ => (m, .done)

/-- What some operations come to: the map behind them, the faults and the failure that stopped
    them. -/
structure Run where
  /-- The map behind the operations. -/
  files : FileMap
  /-- The faults. -/
  errors : List Fault
  /-- The failure that stopped the operations. -/
  stopped : Option Failure

/-- Operations on `m` in order, each a `step`, until one fails. -/
def run (m : FileMap) : List Item → Run
  | [] => ⟨m, [], none⟩
  | i :: is =>
    match i.work with
    | .error f => ⟨m, [], some f⟩
    | .ok d =>
      match (m.step d).2.failure? with
      | some f => ⟨(m.step d).1, [], some f⟩
      | none =>
        let r := run (m.step d).1 is
        { r with errors := (m.step d).2.errors ++ r.errors }

end FileMap

/-! ## Reading through an overlay -/

namespace Overlay

/-- What each path reads as through `o` over `base`. -/
def files (base : BaseTree) (o : Overlay) : FileMap := fun path =>
  match if o.reachesBase path then base.trouble path else none with
  | some f => .error f
  | none => .ok (o.view base path)

/-- That no path is both written and deleted in `o`. -/
def Disjoint (o : Overlay) : Prop := ∀ path, path ∈ o.deletes → o.writes.get? path = none

/-- What a directive can make of the overlay `o`. -/
inductive Change (o : Overlay) : Overlay → Prop
  /-- Nothing. -/
  | same : Change o o
  /-- The path is deleted. -/
  | delete (path : String) : Change o (o.delete path)
  /-- The path is written. -/
  | write (path content : String) : Change o (o.write path content)
  /-- The file is moved to another path. -/
  | move {source target : String} (content : String) (hne : source ≠ target) :
    Change o (o.move source target content)

section Layers

variable {base : BaseTree} {o : Overlay} {path content : String}

theorem files_of_written (h : o.writes.get? path = some content) :
    o.files base path = .ok (some content) := by
  simp [files, reachesBase, Table.has, view, h]

theorem files_of_deleted (hw : o.writes.get? path = none) (hd : path ∈ o.deletes) :
    o.files base path = .ok none := by
  simp [files, reachesBase, view, hw, hd]

/-- Paths that an overlay holds alike read alike. -/
theorem files_congr {o' : Overlay} (hw : o'.writes.get? path = o.writes.get? path)
    (hd : path ∈ o'.deletes ↔ path ∈ o.deletes) : o'.files base path = o.files base path := by
  by_cases h : path ∈ o.deletes
  · simp [files, reachesBase, view, hw, h, hd.2 h]
  · have h' : path ∉ o'.deletes := fun e => h (hd.1 e)
    simp [files, reachesBase, Table.has, view, hw, h, h']

end Layers

section Changes

variable (base : BaseTree) (o : Overlay)

theorem files_delete (path : String) :
    (o.delete path).files base = (o.files base).remove path := by
  funext p
  have hw : (o.delete path).writes.get? p = if p = path then none else o.writes.get? p :=
    Table.get?_erase ..
  have hd : p ∈ (o.delete path).deletes ↔ p = path ∨ p ∈ o.deletes := Names.mem_insert
  by_cases hp : p = path
  · rw [FileMap.remove, if_pos hp]
    exact files_of_deleted (by rw [hw, if_pos hp]) (hd.2 (.inl hp))
  · rw [FileMap.remove, if_neg hp]
    exact files_congr (by rw [hw, if_neg hp]) (by rw [hd]; exact or_iff_right hp)

theorem files_write (path content : String) :
    (o.write path content).files base = (o.files base).put path content := by
  funext p
  have hw : (o.write path content).writes.get? p =
      if p = path then some content else o.writes.get? p := Table.get?_set ..
  have hd : p ∈ (o.write path content).deletes ↔ p ≠ path ∧ p ∈ o.deletes := Names.mem_erase
  by_cases hp : p = path
  · rw [FileMap.put, if_pos hp]
    exact files_of_written (by rw [hw, if_pos hp])
  · rw [FileMap.put, if_neg hp]
    exact files_congr (by rw [hw, if_neg hp]) (by rw [hd]; exact and_iff_right hp)

theorem move_writes (source target content p : String) :
    (o.move source target content).writes.get? p =
      if p = target then some content else if p = source then none else o.writes.get? p := by
  show ((o.writes.erase source).set target content).get? p = _
  rw [Table.get?_set, Table.get?_erase]

theorem move_deletes (source target content p : String) :
    p ∈ (o.move source target content).deletes ↔ p = source ∨ p ≠ target ∧ p ∈ o.deletes := by
  show p ∈ (o.deletes.erase target).insert source ↔ _
  rw [Names.mem_insert, Names.mem_erase]

theorem files_move {source target : String} (content : String) (hne : source ≠ target) :
    (o.move source target content).files base =
      ((o.files base).put target content).remove source := by
  funext p
  have hw := o.move_writes source target content p
  have hd := o.move_deletes source target content p
  by_cases hs : p = source
  · -- the source is gone behind the move, as it is not the target
    have ht : p ≠ target := fun e => hne (hs.symm.trans e)
    rw [FileMap.remove, if_pos hs]
    exact files_of_deleted (by rw [hw, if_neg ht, if_pos hs]) (hd.2 (.inl hs))
  · rw [FileMap.remove, if_neg hs, FileMap.put]
    by_cases ht : p = target
    · rw [if_pos ht]
      exact files_of_written (by rw [hw, if_pos ht])
    · rw [if_neg ht]
      exact files_congr (by rw [hw, if_neg ht, if_neg hs])
        (by rw [hd]; exact (or_iff_right hs).trans (and_iff_right ht))

end Changes

/-! ## Written and deleted paths stay apart -/

section Disjoint

variable {o : Overlay}

theorem empty_disjoint : empty.Disjoint := fun _ _ => rfl

theorem Change.disjoint {o' : Overlay} (hc : o.Change o') (h : o.Disjoint) : o'.Disjoint := by
  intro p hp
  cases hc with
  | same => exact h p hp
  | delete path =>
    show (o.writes.erase path).get? p = none
    rw [Table.get?_erase]
    split
    · rfl
    · rename_i hne
      exact h p ((Names.mem_insert.1 hp).resolve_left hne)
  | write path content =>
    obtain ⟨hne, hd⟩ := Names.mem_erase.1 hp
    show (o.writes.set path content).get? p = none
    rw [Table.get?_set, if_neg hne]
    exact h p hd
  | move content hne =>
    rw [move_writes]
    rcases (o.move_deletes ..).1 hp with rfl | ⟨ht, hd⟩
    · rw [if_neg hne, if_pos rfl]
    · rw [if_neg ht, h p hd, ite_self]

/-- Deleting what is deleted changes nothing. -/
theorem Disjoint.remove_files (h : o.Disjoint) (base : BaseTree) {path : String}
    (hd : path ∈ o.deletes) : (o.files base).remove path = o.files base := by
  funext p
  by_cases hp : p = path
  · subst hp
    rw [FileMap.remove, if_pos rfl, files_of_deleted (h p hd) hd]
  · rw [FileMap.remove, if_neg hp]

end Disjoint

/-- Writing what is written changes nothing. -/
theorem put_files (base : BaseTree) {o : Overlay} {path content : String}
    (h : o.writes.get? path = some content) :
    (o.files base).put path content = o.files base := by
  funext p
  by_cases hp : p = path
  · subst hp
    rw [FileMap.put, if_pos rfl, files_of_written h]
  · rw [FileMap.put, if_neg hp]

end Overlay

/-! ## One directive -/

/-- What an `Effect` says of a file operation. -/
def Effect.verdict : Effect → FileMap.Verdict
  | .changed => .done
  | .unchanged => .done
  | .missing source target => .missing source target
  | .failed f => .failed f

namespace Applier

section Directive

variable {base : BaseTree} {a : Applier}

/-- A rename as the overlay is read. -/
theorem rename_eq (source target : String) :
    a.rename base source target =
      if source = target then (a, .unchanged)
      else
        match a.overlay.files base source with
        | .error f => (a, .failed f)
        | .ok none => (a, .missing source target)
        | .ok (some content) =>
          ({ a with overlay := a.overlay.move source target content }, .changed) := by
  unfold rename Overlay.files
  split
  · rfl
  · cases if a.overlay.reachesBase source then base.trouble source else none with
    | some f => rfl
    | none => cases a.overlay.view base source <;> rfl

/-- **A directive is a file operation**: what `apply` makes of the files that are seen, and its
    verdict, is `step` of the files seen before. -/
theorem apply_files (base : BaseTree) (h : a.overlay.Disjoint) (d : Directive) :
    ((a.apply base d).1.overlay.files base, (a.apply base d).2.verdict) =
      (a.overlay.files base).step d := by
  cases d with
  | delete path =>
    simp only [apply, delete, FileMap.step]
    split
    · rename_i hd
      rw [h.remove_files base hd]
      rfl
    · rw [Overlay.files_delete]
      rfl
  | rename source target =>
    simp only [apply, rename_eq, FileMap.step]
    split
    · rfl
    · rename_i hne
      cases hs : a.overlay.files base source with
      | error f => rfl
      | ok found =>
        cases found with
        | none => rfl
        | some content =>
          simp only
          rw [Overlay.files_move base _ content hne]
          rfl
  | write path content description =>
    simp only [apply, write, FileMap.step]
    split
    · rename_i hw
      rw [Overlay.put_files base hw.2]
      rfl
    · rw [Overlay.files_write]
      rfl
  | addDependency packages =>
    simp only [apply, addPackages, FileMap.step]
    split <;> rfl

/-- **All that a directive can do:** nothing, or one `Change` of the overlay or the packages. -/
theorem apply_cases (base : BaseTree) (a : Applier) (d : Directive) :
    (a.apply base d).1 = a ∧ (a.apply base d).2 ≠ .changed ∨
      ∃ o packages, a.overlay.Change o ∧ a.apply base d = (⟨o, packages, a.history⟩, .changed) := by
  cases d with
  | delete path =>
    simp only [apply, delete]
    split
    · exact .inl ⟨rfl, nofun⟩
    · exact .inr ⟨_, _, .delete path, rfl⟩
  | rename source target =>
    simp only [apply, rename_eq]
    split
    · exact .inl ⟨rfl, nofun⟩
    · rename_i hne
      cases a.overlay.files base source with
      | error f => exact .inl ⟨rfl, nofun⟩
      | ok found =>
        cases found with
        | none => exact .inl ⟨rfl, nofun⟩
        | some content => exact .inr ⟨_, _, .move content hne, rfl⟩
  | write path content description =>
    simp only [apply, write]
    split
    · exact .inl ⟨rfl, nofun⟩
    · exact .inr ⟨_, _, .write path content, rfl⟩
  | addDependency packages =>
    simp only [apply, addPackages]
    split
    · exact .inl ⟨rfl, nofun⟩
    · exact .inr ⟨_, _, .same, rfl⟩

/-- A directive that does not count as a change changes nothing at all. -/
theorem apply_of_not_changed {d : Directive} (h : (a.apply base d).2 ≠ .changed) :
    (a.apply base d).1 = a := by
  rcases apply_cases base a d with ⟨hsame, -⟩ | ⟨o, packages, -, he⟩
  · exact hsame
  · exact absurd (by rw [he]) h

theorem apply_disjoint (base : BaseTree) (h : a.overlay.Disjoint) (d : Directive) :
    (a.apply base d).1.overlay.Disjoint := by
  rcases apply_cases base a d with ⟨hsame, -⟩ | ⟨o, packages, hc, he⟩
  · rw [hsame]
    exact h
  · rw [he]
    exact hc.disjoint h

end Directive

/-! ## Many directives -/

/-- The items that change files, in the order of their classes: deletes, renames, writes. -/
def classOrder (items : List Item) : List Item :=
  let ds := items.filterMap Item.directive?
  (ds.filter (rank · == 0) ++ ds.filter (rank · == 1) ++ ds.filter (rank · == 2)).map .directive

/-- Packages are no files. -/
theorem run_append_packages (m : FileMap) (is : List Item) {ds : List Directive}
    (hds : ∀ d ∈ ds, rank d = 3) : m.run (is ++ ds.map .directive) = m.run is := by
  induction is generalizing m with
  | nil =>
    induction ds with
    | nil => rfl
    | cons d ds ih =>
      have hd := hds d List.mem_cons_self
      have hrest := ih fun d h => hds d (List.mem_cons_of_mem _ h)
      cases d with
      | addDependency packages =>
        rw [List.nil_append] at hrest ⊢
        simp only [List.map_cons, FileMap.run, Item.work, FileMap.step, FileMap.Verdict.failure?,
          hrest]
        rfl
      | _ => cases hd
  | cons i is ih => simp only [List.cons_append, FileMap.run, ih]

theorem run_batchOrder (m : FileMap) (items : List Item) :
    m.run ((batchOrder (items.filterMap Item.directive?)).map .directive) =
      m.run (classOrder items) := by
  have hpackages : ∀ d ∈ (items.filterMap Item.directive?).filter (rank · == 3), rank d = 3 :=
    fun d hd => by simpa using (List.mem_filter.1 hd).2
  -- the batch has a fourth class, the packages, behind those that count for files
  rw [← run_append_packages m (classOrder items) hpackages]
  simp only [batchOrder, classOrder, List.flatMap_cons, List.flatMap_nil, List.append_nil,
    List.map_append, List.append_assoc]

theorem conclude_errors (session what : String) (b : Batch) :
    (conclude session what b).errors = b.errors := by
  unfold conclude
  split <;> rfl

theorem conclude_stopped (session what : String) (b : Batch) :
    (conclude session what b).stopped = b.stopped := by
  unfold conclude
  split <;> rfl

section Many

variable (base : BaseTree) (session : String)

/-- What keeping the effect of a directive adds to a batch. -/
theorem applyInto_eq (a : Applier) (b : Batch) (d : Directive) :
    (a.applyInto base session b d).1.overlay = (a.apply base d).1.overlay ∧
      (a.applyInto base session b d).2.errors = b.errors ++ (a.apply base d).2.verdict.errors ∧
      (a.applyInto base session b d).2.stopped =
        (a.apply base d).2.verdict.failure?.or b.stopped := by
  unfold applyInto
  obtain ⟨a', e⟩ := a.apply base d
  cases e with
  | missing source target => exact ⟨rfl, rfl, rfl⟩
  | _ => exact ⟨rfl, (List.append_nil _).symm, rfl⟩

/-- In a batch, too, a directive that does not count as a change changes nothing. -/
theorem applyInto_of_not_changed {a : Applier} {d : Directive}
    (h : (a.apply base d).2 ≠ .changed) (b : Batch) : (a.applyInto base session b d).1 = a := by
  have hsame := apply_of_not_changed h
  unfold applyInto
  revert h hsame
  obtain ⟨a', e⟩ := a.apply base d
  intro h hsame
  cases e with
  | changed => exact absurd rfl h
  | _ => exact hsame

theorem applyItems_cons (a : Applier) (b : Batch) (i : Item) (is : List Item) :
    a.applyItems base session b (i :: is) =
      match i.work with
      | .error f => (a, { b with stopped := some f })
      | .ok d =>
        let r := a.applyInto base session b d
        if r.2.stopped.isSome then r else r.1.applyItems base session r.2 is := by
  cases i <;> rfl

theorem applyAll_eq_applyItems (a : Applier) (b : Batch) (ds : List Directive) :
    a.applyAll base session b ds = a.applyItems base session b (ds.map .directive) := by
  induction ds generalizing a b with
  | nil => rfl
  | cons d ds ih =>
    rw [List.map_cons, applyItems_cons]
    simp only [applyAll, Item.work, ih]

/-- **Directives in a row are file operations in a row**: the files seen behind `applyItems` and its
    errors are those of `run`. -/
theorem applyItems_files {a : Applier} (h : a.overlay.Disjoint) {b : Batch} (hb : b.stopped = none)
    (is : List Item) :
    let r := a.applyItems base session b is
    let run := (a.overlay.files base).run is
    r.1.overlay.files base = run.files ∧ r.2.errors = b.errors ++ run.errors ∧
      r.2.stopped = run.stopped ∧ r.1.overlay.Disjoint := by
  -- written and deleted paths staying apart carries the induction, as each step needs it
  induction is generalizing a b with
  | nil => exact ⟨rfl, (List.append_nil _).symm, hb, h⟩
  | cons i is ih =>
    intro r run
    have hr : r = _ := applyItems_cons base session a b i is
    have hrun : run = FileMap.run _ (i :: is) := rfl
    rw [FileMap.run] at hrun
    cases hw : i.work with
    | error f =>
      rw [hw] at hr hrun
      rw [hr, hrun]
      exact ⟨rfl, (List.append_nil _).symm, rfl, h⟩
    | ok d =>
      rw [hw] at hr hrun
      obtain ⟨hover, herrors, hstopped⟩ := applyInto_eq base session a b d
      have hstep := apply_files base h d
      have hdis := apply_disjoint base h d
      rw [← hover] at hstep hdis
      simp only [← hstep] at hrun
      rw [hb, Option.or_none] at hstopped
      simp only [hstopped] at hr
      cases hv : (a.apply base d).2.verdict.failure? with
      | some f =>
        rw [hv] at hstopped
        simp only [hv, Option.isSome_some, if_true] at hr hrun
        rw [FileMap.Verdict.errors_of_failure hv, List.append_nil] at herrors
        rw [hr, hrun]
        exact ⟨rfl, by rw [herrors, List.append_nil], hstopped, hdis⟩
      | none =>
        rw [hv] at hstopped
        simp only [hv, Option.isSome_none, Bool.false_eq_true, if_false] at hr hrun
        obtain ⟨hfiles, herrs, hstop, hd⟩ := ih hdis hstopped
        rw [hr, hrun]
        exact ⟨hfiles, by rw [herrs, herrors, List.append_assoc], hstop, hd⟩

theorem applyBatch_files {a : Applier} (h : a.overlay.Disjoint) (items : List Item) :
    let r := a.applyBatch base session items
    let run := (a.overlay.files base).run (classOrder items)
    r.1.overlay.files base = run.files ∧ r.2.errors = run.errors ∧ r.2.stopped = run.stopped ∧
      r.1.overlay.Disjoint := by
  have hitems := applyItems_files base session h (b := Batch.empty) rfl
    ((batchOrder (items.filterMap Item.directive?)).map .directive)
  rw [run_batchOrder] at hitems
  simp only [applyBatch, applyAll_eq_applyItems, conclude_errors, conclude_stopped]
  exact hitems

theorem replay_files {a : Applier} (h : a.overlay.Disjoint) (log : List Item) :
    let r := a.replay base session log
    let run := (a.overlay.files base).run (log.drop (commonLead log a.history))
    r.1.overlay.files base = run.files ∧ r.2.errors = run.errors ∧ r.2.stopped = run.stopped ∧
      r.1.overlay.Disjoint := by
  simp only [replay, conclude_errors, conclude_stopped]
  exact applyItems_files base session h rfl _

end Many

/-! ## Calls in a row -/

/-- A call of `Applier` that changes an overlay. -/
inductive Call where
  /-- One directive, which is not kept. -/
  | apply (d : Directive)
  /-- A batch. -/
  | batch (items : List Item)
  /-- A log. -/
  | replay (log : List Item)
  /-- The pending changes are dropped. -/
  | clear

/-- What a call makes of the applier `a`. -/
def call (base : BaseTree) (session : String) (a : Applier) : Call → Applier
  | .apply d => (a.apply base d).1
  | .batch items => (a.applyBatch base session items).1
  | .replay log => (a.replay base session log).1
  | .clear => a.clear

/-- What a call makes of the files `m`; `history` is the record of what was applied before it. -/
def callFiles (base : BaseTree) (history : List Directive) (m : FileMap) : Call → FileMap
  | .apply d => (m.step d).1
  | .batch items => (m.run (classOrder items)).files
  | .replay log => (m.run (log.drop (commonLead log history))).files
  | .clear => Overlay.empty.files base

/-- What the calls `cs` in a row make of the applier `a`. -/
def calls (base : BaseTree) (session : String) (a : Applier) (cs : List Call) : Applier :=
  cs.foldl (call base session) a

/-- What calls in a row make of the files; the applier tells the record before each of them. -/
def callsFiles (base : BaseTree) (session : String) : Applier → FileMap → List Call → FileMap
  | _, m, [] => m
  | a, m, c :: cs =>
    callsFiles base session (a.call base session c) (callFiles base a.history m c) cs

section Calls

variable (base : BaseTree) (session : String)

theorem call_files {a : Applier} (h : a.overlay.Disjoint) (c : Call) :
    (a.call base session c).overlay.files base =
        callFiles base a.history (a.overlay.files base) c ∧
      (a.call base session c).overlay.Disjoint := by
  cases c with
  | apply d => exact ⟨congrArg Prod.fst (apply_files base h d), apply_disjoint base h d⟩
  | batch items =>
    obtain ⟨hfiles, -, -, hd⟩ := applyBatch_files base session h items
    exact ⟨hfiles, hd⟩
  | replay log =>
    obtain ⟨hfiles, -, -, hd⟩ := replay_files base session h log
    exact ⟨hfiles, hd⟩
  | clear => exact ⟨rfl, Overlay.empty_disjoint⟩

theorem calls_files {a : Applier} (h : a.overlay.Disjoint) (cs : List Call) :
    (a.calls base session cs).overlay.files base =
        callsFiles base session a (a.overlay.files base) cs ∧
      (a.calls base session cs).overlay.Disjoint := by
  induction cs generalizing a with
  | nil => exact ⟨rfl, h⟩
  | cons c cs ih =>
    obtain ⟨hfiles, hd⟩ := call_files base session h c
    rw [callsFiles, ← hfiles]
    exact ih hd

/-- **An overlay is a plain file map.** Behind any calls `before`, `Applier.apply` is `FileMap.step`
    on what the paths read as, and a directive that does not count as a change changes nothing; a
    rename lacks its source just if the source reads as absent; a batch is such steps in the order
    of its classes, a replay is such steps over the tail of the log that is not applied yet; and so
    on through any calls `cs` that follow. -/
theorem calls_refine_file_map (before : List Call) :
    let a := empty.calls base session before
    let m := a.overlay.files base
    (∀ d, (a.apply base d).1.overlay.files base = (m.step d).1 ∧
      (a.apply base d).2.verdict = (m.step d).2 ∧
      ((a.apply base d).2 ≠ .changed →
        (m.step d).1 = m ∧ (a.apply base d).1 = a ∧
          ∀ b, (a.applyInto base session b d).1 = a)) ∧
    (∀ source target, source ≠ target →
      ((a.apply base (.rename source target)).2 = .missing source target ↔ m source = .ok none)) ∧
    (∀ items, let r := a.applyBatch base session items
      let run := m.run (classOrder items)
      r.1.overlay.files base = run.files ∧ r.2.errors = run.errors ∧ r.2.stopped = run.stopped) ∧
    (∀ log, let r := a.replay base session log
      let run := m.run (log.drop (commonLead log a.history))
      r.1.overlay.files base = run.files ∧ r.2.errors = run.errors ∧ r.2.stopped = run.stopped) ∧
    ∀ cs, (a.calls base session cs).overlay.files base = callsFiles base session a m cs := by
  intro a m
  have h : a.overlay.Disjoint := (calls_files base session Overlay.empty_disjoint before).2
  refine ⟨fun d => ?_, fun source target hne => ?_, fun items => ?_, fun log => ?_, fun cs => ?_⟩
  · have hstep := apply_files base h d
    have hfiles := congrArg Prod.fst hstep
    refine ⟨hfiles, congrArg Prod.snd hstep, fun hn => ⟨?_, apply_of_not_changed hn, fun b => ?_⟩⟩
    · rw [← hfiles, apply_of_not_changed hn]
    · exact applyInto_of_not_changed base session hn b
  · show (a.rename base source target).2 = _ ↔ a.overlay.files base source = _
    rw [rename_eq, if_neg hne]
    cases a.overlay.files base source with
    | error f => exact ⟨nofun, nofun⟩
    | ok found =>
      cases found with
      | none => exact ⟨fun _ => rfl, fun _ => rfl⟩
      | some content => exact ⟨nofun, nofun⟩
  · obtain ⟨hfiles, herrors, hstopped, -⟩ := applyBatch_files base session h items
    exact ⟨hfiles, herrors, hstopped⟩
  · obtain ⟨hfiles, herrors, hstopped, -⟩ := replay_files base session h log
    exact ⟨hfiles, herrors, hstopped⟩
  · exact (calls_files base session h cs).1

end Calls

end Applier

end StagedEdits
