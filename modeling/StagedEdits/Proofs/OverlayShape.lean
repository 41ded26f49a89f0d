import Mathlib.Logic.Relation
import StagedEdits.Proofs.FileMap

set_option autoImplicit false

/-! # What an overlay holds

What an overlay holds, whatever the order its entries came in. Directives act on it as functions, so
that directives in a row are a fold, and two directives that do not clash come to the same in either
order. A write clashes with a rename also where renames may have led from the written path to the
source: the write forgets where that file came from.

Main definitions: `Shape`, `Shape.apply`, `Directive.Clashes`. Main statements:
`Applier.apply_shape` (one directive), `Applier.applyBatch_shape` (a batch), `Shape.apply_comm` (two
directives that do not clash). -/

namespace StagedEdits

/-! ## Rows of a table -/

namespace Table

variable {α : Type}

theorem mem_rows_iff {t : Table α} {k : String} {v : α} : (k, v) ∈ t.rows ↔ t.get? k = some v := by
  refine ⟨get?_of_mem, fun h => ?_⟩
  have hkey : k ∈ t.rows.map Prod.fst := mem_keys_iff.2 (Option.isSome_of_eq_some h)
  obtain ⟨⟨j, w⟩, hrow, rfl⟩ := List.mem_map.1 hkey
  have hw : t.get? j = some w := get?_of_mem hrow
  cases hw.symm.trans h
  exact hrow

theorem get?_filter {t : Table α} {p : String → α → Bool} {k : String} {v : α} :
    (t.filter p).get? k = some v ↔ t.get? k = some v ∧ p k v = true := by
  rw [← mem_rows_iff, ← mem_rows_iff]
  exact List.mem_filter

end Table

/-! ## Shapes -/

/-- What an `Overlay` holds, whatever the order its entries came in. -/
@[ext]
structure Shape where
  /-- The pending contents. -/
  writes : String → Option String
  /-- The paths that will be gone. -/
  deletes : Names
  /-- Which files were moved where. -/
  moved : String → String → Prop
  /-- The paths whose pending content was written as a whole. -/
  closed : Names

/-- The `Shape` of `o`. -/
def Overlay.shape (o : Overlay) : Shape :=
  ⟨o.writes.get?, o.deletes, fun p q => o.renames.get? p = some q, o.closed⟩

namespace Shape

/-- What `path` reads as over `base`. -/
def view (base : BaseTree) (s : Shape) (path : String) : Option String :=
  match s.writes path with
  | some content => some content
  | none => if path ∈ s.deletes then none else base.read path

/-- Deletes `path`, as `Overlay.delete` does. -/
def delete (s : Shape) (path : String) : Shape where
  writes p := if p = path then none else s.writes p
  deletes := s.deletes.insert path
  moved p q := s.moved p q ∧ q ≠ path
  closed := s.closed.erase path

/-- Writes `content` at `path`, as `Overlay.write` does. -/
def write (s : Shape) (path content : String) : Shape where
  writes p := if p = path then some content else s.writes p
  deletes := s.deletes.erase path
  moved p q := s.moved p q ∧ p ≠ path
  closed := s.closed.insert path

/-- Whether the file at a path came from `p`: it was moved there, or it always was there. -/
def Origin (s : Shape) (path p : String) : Prop := s.moved p path ∨ p = path ∧ ∀ q, ¬s.moved q path

/-- Moves the file at `source`, which has `content`, to `target`, as `Overlay.move` does. -/
def move (s : Shape) (source target content : String) : Shape where
  writes p := if p = target then some content else if p = source then none else s.writes p
  deletes := (s.deletes.erase target).insert source
  moved p q := p ≠ target ∧ (s.Origin source p ∧ q = target ∨ ¬s.Origin source p ∧ s.moved p q)
  closed := s.closed.erase source

/-- Applies a directive, as `Applier.apply` does. -/
def apply (base : BaseTree) (s : Shape) : Directive → Shape
  | .delete path => if path ∈ s.deletes then s else s.delete path
  | .rename source target =>
    if source = target then s
    else
      match s.view base source with
      | none => s
      | some content => s.move source target content
  | .write path content _ =>
    if path ∈ s.closed ∧ s.writes path = some content then s else s.write path content
  | .addDependency _ => s

end Shape

/-! ## Overlays and their shapes -/

namespace Overlay

variable (o : Overlay)

theorem shape_delete (path : String) : (o.delete path).shape = o.shape.delete path := by
  refine Shape.ext (funext fun p => Table.get?_erase ..) rfl (funext₂ fun p q => propext ?_) rfl
  refine Table.get?_filter.trans (and_congr_right fun _ => ?_)
  simp

theorem shape_write (path content : String) :
    (o.write path content).shape = o.shape.write path content := by
  refine Shape.ext (funext fun p => Table.get?_set ..) rfl (funext₂ fun p q => propext ?_) rfl
  refine Table.get?_filter.trans (and_congr_right fun _ => ?_)
  simp

theorem mem_origins {path p : String} : p ∈ o.origins path ↔ o.shape.Origin path p := by
  have hrows : ∀ q, q ∈ (o.renames.rows.filter (fun r => r.2 == path)).map Prod.fst ↔
      o.shape.moved q path := by
    intro q
    simp only [List.mem_map, List.mem_filter, beq_iff_eq, Prod.exists, exists_and_right,
      exists_eq_right]
    exact Table.mem_rows_iff
  unfold origins
  split
  · rename_i hnil
    have hnone : ∀ q, ¬o.shape.moved q path := by
      intro q hq
      have := (hrows q).2 hq
      rw [hnil] at this
      exact absurd this List.not_mem_nil
    rw [List.mem_singleton, Shape.Origin]
    exact ⟨fun h => .inr ⟨h, hnone⟩, fun h => (h.resolve_left (hnone p)).1⟩
  · rename_i l hl
    rw [hrows, Shape.Origin, or_iff_left]
    rintro ⟨-, hnone⟩
    refine hl (List.eq_nil_iff_forall_not_mem.2 fun q hq => ?_)
    exact hnone q ((hrows q).1 hq)

theorem get?_foldl_set (target : String) (l : List String) (t : Table String) (p : String) :
    (l.foldl (fun t s => if s == target then t else t.set s target) t).get? p =
      if p ∈ l ∧ p ≠ target then some target else t.get? p := by
  induction l generalizing t with
  | nil => simp
  | cons s l ih =>
    rw [List.foldl_cons, ih]
    by_cases hs : s = target
    · simp only [hs, beq_self_eq_true, if_true, List.mem_cons]
      grind
    · simp only [beq_eq_false_iff_ne.2 hs, Bool.false_eq_true, if_false, List.mem_cons,
        Table.get?_set]
      grind

theorem shape_move (source target content : String) :
    (o.move source target content).shape = o.shape.move source target content := by
  refine Shape.ext (funext fun p => o.move_writes ..) rfl (funext₂ fun p q => propext ?_) rfl
  show ((o.origins source).foldl (fun table s => if s == target then table else table.set s target)
    (o.renames.filter (fun s t => !(s == target || t == source)))).get? p = some q ↔
      p ≠ target ∧
        (o.shape.Origin source p ∧ q = target ∨ ¬o.shape.Origin source p ∧ o.shape.moved p q)
  rw [get?_foldl_set]
  by_cases hp : p = target
  · simp [hp, Table.get?_filter]
  · have horigin : p ∈ o.origins source ↔ o.shape.Origin source p := o.mem_origins
    by_cases ho : o.shape.Origin source p
    · simp [hp, ho, horigin.2 ho, eq_comm]
    · have hnot : p ∉ o.origins source := fun h => ho (horigin.1 h)
      have hq : o.shape.moved p q → q ≠ source := fun hm hq => ho (.inl (hq ▸ hm))
      have hmoved : o.shape.moved p q ↔ o.renames.get? p = some q := Iff.rfl
      simp only [ho, hp, hnot, false_and, if_false, Table.get?_filter, not_false_eq_true, true_and,
        ne_eq, false_or, Bool.not_eq_true', Bool.or_eq_false_iff, beq_eq_false_iff_ne, ← hmoved]
      exact ⟨fun h => h.1, fun h => ⟨h, hq h⟩⟩

end Overlay

/-! ## Directives on shapes -/

/-- That `d` moves no file that `base` cannot be looked at for. -/
def BaseTree.Shows (base : BaseTree) (d : Directive) : Prop :=
  ∀ source target, d = .rename source target → base.trouble source = none

/-- What a parser emits are directives. -/
theorem Item.filterMap_parsed (ds : List Parsed) :
    (ds.map Item.parsed).filterMap Item.directive? = ds.map (·.directive) := by
  rw [List.filterMap_map]
  exact congrFun List.filterMap_eq_map ds

namespace Applier

variable {base : BaseTree}

/-- **What a directive makes of an overlay is a matter of its shape**, over a base that shows the
    paths of `d`; it is then no failure. -/
theorem apply_shape {d : Directive} (hd : base.Shows d) (a : Applier) :
    (a.apply base d).1.overlay.shape = a.overlay.shape.apply base d ∧
      ∀ f, (a.apply base d).2 ≠ .failed f := by
  cases d with
  | delete path =>
    simp only [apply, delete, Shape.apply]
    by_cases h : path ∈ a.overlay.deletes
    · rw [if_pos h, if_pos (show path ∈ a.overlay.shape.deletes from h)]
      exact ⟨rfl, by simp⟩
    · rw [if_neg h, if_neg (show path ∉ a.overlay.shape.deletes from h)]
      exact ⟨a.overlay.shape_delete path, by simp⟩
  | rename source target =>
    simp only [apply, rename, Shape.apply, hd source target rfl, ite_self]
    by_cases h : source = target
    · rw [if_pos h, if_pos h]
      exact ⟨rfl, by simp⟩
    · rw [if_neg h, if_neg h]
      have hview : a.overlay.shape.view base source = a.overlay.view base source := rfl
      rw [hview]
      cases a.overlay.view base source with
      | none => exact ⟨rfl, by simp⟩
      | some content => exact ⟨a.overlay.shape_move source target content, by simp⟩
  | write path content description =>
    simp only [apply, write, Shape.apply]
    by_cases h : path ∈ a.overlay.closed ∧ a.overlay.writes.get? path = some content
    · rw [if_pos h, if_pos (show path ∈ a.overlay.shape.closed ∧
        a.overlay.shape.writes path = some content from h)]
      exact ⟨rfl, by simp⟩
    · rw [if_neg h, if_neg (show ¬(path ∈ a.overlay.shape.closed ∧
        a.overlay.shape.writes path = some content) from h)]
      exact ⟨a.overlay.shape_write path content, by simp⟩
  | addDependency packages =>
    simp only [apply, addPackages, Shape.apply]
    split <;> exact ⟨rfl, by simp⟩

theorem applyInto_shape {d : Directive} (hd : base.Shows d) (session : String) (a : Applier)
    (b : Batch) :
    (a.applyInto base session b d).1.overlay.shape = a.overlay.shape.apply base d ∧
      (a.applyInto base session b d).2.stopped = b.stopped := by
  obtain ⟨hshape, hfailed⟩ := apply_shape hd a
  unfold applyInto
  generalize a.apply base d = outcome at hshape hfailed
  obtain ⟨a', effect⟩ := outcome
  cases effect with
  | failed f => exact absurd rfl (hfailed f)
  | changed => exact ⟨hshape, rfl⟩
  | unchanged => exact ⟨hshape, rfl⟩
  | missing source target => exact ⟨hshape, rfl⟩

theorem applyAll_shape {ds : List Directive} (hds : ∀ d ∈ ds, base.Shows d) (session : String)
    (a : Applier) {b : Batch} (hb : b.stopped = none) :
    (a.applyAll base session b ds).1.overlay.shape = ds.foldl (Shape.apply base) a.overlay.shape ∧
      (a.applyAll base session b ds).2.stopped = none := by
  induction ds generalizing a b with
  | nil => exact ⟨rfl, hb⟩
  | cons d ds ih =>
    obtain ⟨hd, hds⟩ := List.forall_mem_cons.1 hds
    obtain ⟨hshape, hstopped⟩ := applyInto_shape hd session a b
    have hgo : (a.applyInto base session b d).2.stopped = none := hstopped.trans hb
    simp only [applyAll, hgo, Option.isSome_none, Bool.false_eq_true, if_false, List.foldl_cons]
    rw [← hshape]
    exact ih hds _ hgo

theorem mem_of_mem_batchOrder {d : Directive} {ds : List Directive} (hd : d ∈ batchOrder ds) :
    d ∈ ds := by
  obtain ⟨r, -, hr⟩ := List.mem_flatMap.1 hd
  exact (List.mem_filter.1 hr).1

/-- **A batch is its directives in the order of their classes**, `batchOrder`. -/
theorem applyBatch_shape {ds : List Parsed} (hds : ∀ d ∈ ds.map (·.directive), base.Shows d)
    (session : String) (a : Applier) :
    (a.applyBatch base session (ds.map .parsed)).1.overlay.shape =
        (batchOrder (ds.map (·.directive))).foldl (Shape.apply base) a.overlay.shape ∧
      (a.applyBatch base session (ds.map .parsed)).2.stopped = none := by
  obtain ⟨hshape, hstopped⟩ :=
    applyAll_shape (fun d hd => hds d (mem_of_mem_batchOrder hd)) session a (b := Batch.empty) rfl
  unfold applyBatch
  rw [Item.filterMap_parsed]
  refine ⟨hshape, ?_⟩
  rw [conclude_stopped]
  exact hstopped

end Applier

/-! ## Directives that do not clash -/

/-- Whether it may count which of two directives comes first, where the second one's class comes
    before the first one's: both name a path, or the first one writes what may have been moved to
    the source of the second one. By `r` files were moved from path to path. -/
def Directive.Clashes (r : String → String → Prop) : Directive → Directive → Prop
  | .write path _ _, .delete other => path = other
  | .write path _ _, .rename source target => path = target ∨ Relation.ReflTransGen r path source
  | .rename source target, .delete path => path = source ∨ path = target
  | _, _ => False

namespace Shape

variable {base : BaseTree} {s : Shape} {r : String → String → Prop}

/-- That files were moved only where `r` leads. -/
def MovedAlong (s : Shape) (r : String → String → Prop) : Prop :=
  ∀ p q, s.moved p q → Relation.TransGen r p q

theorem MovedAlong.apply (hs : s.MovedAlong r) {d : Directive}
    (hd : ∀ source target, d = .rename source target → r source target) :
    (s.apply base d).MovedAlong r := by
  cases d with
  | delete path =>
    simp only [Shape.apply]
    split
    · exact hs
    · exact fun p q h => hs p q h.1
  | rename source target =>
    have hr := hd source target rfl
    simp only [Shape.apply]
    split
    · exact hs
    · split
      · exact hs
      · rintro p q ⟨-, ⟨hp | ⟨rfl, -⟩, rfl⟩ | ⟨-, h⟩⟩
        · exact (hs p source hp).tail hr
        · exact .single hr
        · exact hs p q h
  | write path content description =>
    simp only [Shape.apply]
    split
    · exact hs
    · exact fun p q h => hs p q h.1
  | addDependency packages => exact hs

theorem delete_write_comm {path other : String} (content : String) (hne : other ≠ path) :
    (s.write other content).delete path = (s.delete path).write other content := by
  refine Shape.ext (funext fun p => ?_) (Names.ext_mem fun p => ?_) (funext₂ fun p q => ?_)
    (Names.ext_mem fun p => ?_)
  · simp only [write, delete]
    grind
  · simp only [write, delete, Names.mem_insert, Names.mem_erase]
    grind
  · simp only [write, delete, and_right_comm]
  · simp only [write, delete, Names.mem_insert, Names.mem_erase]
    grind

theorem move_write_comm {source target path : String} (content written : String)
    (hsource : path ≠ source) (htarget : path ≠ target) (hmoved : ¬s.moved path source) :
    (s.write path written).move source target content =
      (s.move source target content).write path written := by
  have horigin : ∀ p, (s.write path written).Origin source p ↔ s.Origin source p := by
    intro p
    have hsame : ∀ q, (s.write path written).moved q source ↔ s.moved q source := fun q =>
      and_iff_left_of_imp fun hq he => hmoved (he ▸ hq)
    simp only [Origin, hsame]
  have hpath : ¬s.Origin source path := fun h => h.elim hmoved fun h => hsource h.1
  refine Shape.ext (funext fun p => ?_) (Names.ext_mem fun p => ?_)
    (funext₂ fun p q => propext ?_) (Names.ext_mem fun p => ?_)
  · simp only [write, move]
    grind
  · simp only [write, move, Names.mem_insert, Names.mem_erase]
    grind
  · show p ≠ target ∧ ((s.write path written).Origin source p ∧ q = target ∨
      ¬(s.write path written).Origin source p ∧ s.moved p q ∧ p ≠ path) ↔
        (p ≠ target ∧ (s.Origin source p ∧ q = target ∨ ¬s.Origin source p ∧ s.moved p q)) ∧
          p ≠ path
    rw [horigin]
    grind
  · simp only [write, move, Names.mem_insert, Names.mem_erase]
    grind

theorem move_delete_comm {source target path : String} (content : String)
    (hsource : path ≠ source) (htarget : path ≠ target) :
    (s.delete path).move source target content = (s.move source target content).delete path := by
  have horigin : ∀ p, (s.delete path).Origin source p ↔ s.Origin source p := by
    intro p
    have hsame : ∀ q, (s.delete path).moved q source ↔ s.moved q source := fun q =>
      and_iff_left_of_imp fun _ => hsource.symm
    simp only [Origin, hsame]
  refine Shape.ext (funext fun p => ?_) (Names.ext_mem fun p => ?_)
    (funext₂ fun p q => propext ?_) (Names.ext_mem fun p => ?_)
  · simp only [delete, move]
    grind
  · simp only [delete, move, Names.mem_insert, Names.mem_erase]
    grind
  · show p ≠ target ∧ ((s.delete path).Origin source p ∧ q = target ∨
      ¬(s.delete path).Origin source p ∧ s.moved p q ∧ q ≠ path) ↔
        (p ≠ target ∧ (s.Origin source p ∧ q = target ∨ ¬s.Origin source p ∧ s.moved p q)) ∧
          q ≠ path
    rw [horigin]
    grind
  · simp only [delete, move, Names.mem_erase]
    grind

section Outcomes

variable {path source target content : String} {description : Option String}

theorem apply_delete (h : path ∉ s.deletes) : s.apply base (.delete path) = s.delete path :=
  if_neg h

theorem apply_delete_same (h : path ∈ s.deletes) : s.apply base (.delete path) = s := if_pos h

theorem apply_write (h : ¬(path ∈ s.closed ∧ s.writes path = some content)) :
    s.apply base (.write path content description) = s.write path content := if_neg h

theorem apply_write_same (h : path ∈ s.closed ∧ s.writes path = some content) :
    s.apply base (.write path content description) = s := if_pos h

theorem apply_rename (hne : source ≠ target) (h : s.view base source = some content) :
    s.apply base (.rename source target) = s.move source target content := by
  simp only [apply, if_neg hne, h]

theorem apply_rename_same (h : source = target ∨ s.view base source = none) :
    s.apply base (.rename source target) = s := by
  rcases h with rfl | h
  · exact if_pos rfl
  · simp only [apply, h, ite_self]

end Outcomes

theorem apply_write_delete_comm {path other : String} (content : String)
    (description : Option String) (hne : path ≠ other) :
    (s.apply base (.write path content description)).apply base (.delete other) =
      (s.apply base (.delete other)).apply base (.write path content description) := by
  have hdeleted : other ∈ (s.write path content).deletes ↔ other ∈ s.deletes := by
    simp only [write, Names.mem_erase, ne_eq, hne.symm, not_false_eq_true, true_and]
  have hwritten : (path ∈ (s.delete other).closed ∧ (s.delete other).writes path = some content) ↔
      path ∈ s.closed ∧ s.writes path = some content := by
    simp only [delete, Names.mem_erase, ne_eq, hne, not_false_eq_true, true_and, if_false]
  by_cases h : other ∈ s.deletes
  · rw [apply_delete_same h]
    by_cases h' : path ∈ s.closed ∧ s.writes path = some content
    · rw [apply_write_same h', apply_delete_same h]
    · rw [apply_write h', apply_delete_same (hdeleted.2 h)]
  · rw [apply_delete h]
    by_cases h' : path ∈ s.closed ∧ s.writes path = some content
    · rw [apply_write_same h', apply_delete h, apply_write_same (hwritten.2 h')]
    · rw [apply_write h', apply_delete (mt hdeleted.1 h), apply_write (mt hwritten.1 h')]
      exact delete_write_comm content hne

theorem apply_write_rename_comm {path source target : String} (content : String)
    (description : Option String) (hsource : path ≠ source) (htarget : path ≠ target)
    (hmoved : ¬s.moved path source) :
    (s.apply base (.write path content description)).apply base (.rename source target) =
      (s.apply base (.rename source target)).apply base (.write path content description) := by
  have hview : (s.write path content).view base source = s.view base source := by
    simp only [view, write, Names.mem_erase, ne_eq, hsource.symm, not_false_eq_true, true_and,
      if_false]
  have hwritten (found : String) : (path ∈ (s.move source target found).closed ∧
      (s.move source target found).writes path = some content) ↔
        path ∈ s.closed ∧ s.writes path = some content := by
    simp only [move, Names.mem_erase, ne_eq, hsource, not_false_eq_true, true_and, if_neg htarget,
      if_false]
  by_cases hsame : source = target ∨ s.view base source = none
  · rw [apply_rename_same hsame]
    by_cases h : path ∈ s.closed ∧ s.writes path = some content
    · rw [apply_write_same h, apply_rename_same hsame]
    · rw [apply_write h, apply_rename_same (by rwa [hview])]
  · obtain ⟨hne, hfound⟩ := not_or.1 hsame
    obtain ⟨found, hfound⟩ := Option.ne_none_iff_exists'.1 hfound
    rw [apply_rename hne hfound]
    by_cases h : path ∈ s.closed ∧ s.writes path = some content
    · rw [apply_write_same h, apply_rename hne hfound, apply_write_same ((hwritten found).2 h)]
    · rw [apply_write h, apply_rename hne (hview.trans hfound),
        apply_write (mt (hwritten found).1 h)]
      exact move_write_comm found content hsource htarget hmoved

theorem apply_rename_delete_comm {source target path : String} (hsource : path ≠ source)
    (htarget : path ≠ target) :
    (s.apply base (.rename source target)).apply base (.delete path) =
      (s.apply base (.delete path)).apply base (.rename source target) := by
  have hview : (s.delete path).view base source = s.view base source := by
    simp only [view, delete, Names.mem_insert, hsource.symm, false_or, if_false]
  have hdeleted (found : String) :
      path ∈ (s.move source target found).deletes ↔ path ∈ s.deletes := by
    simp only [move, Names.mem_insert, Names.mem_erase, ne_eq, hsource, htarget,
      not_false_eq_true, true_and, false_or]
  by_cases hsame : source = target ∨ s.view base source = none
  · rw [apply_rename_same hsame]
    by_cases h : path ∈ s.deletes
    · rw [apply_delete_same h, apply_rename_same hsame]
    · rw [apply_delete h, apply_rename_same (by rwa [hview])]
  · obtain ⟨hne, hfound⟩ := not_or.1 hsame
    obtain ⟨found, hfound⟩ := Option.ne_none_iff_exists'.1 hfound
    rw [apply_rename hne hfound]
    by_cases h : path ∈ s.deletes
    · rw [apply_delete_same h, apply_rename hne hfound, apply_delete_same ((hdeleted found).2 h)]
    · rw [apply_delete h, apply_rename hne (hview.trans hfound),
        apply_delete (mt (hdeleted found).1 h)]
      exact (move_delete_comm found hsource htarget).symm

/-- **Directives that do not clash come to the same in either order**, if `e` is of an earlier class
    than `d`. -/
theorem apply_comm (hs : s.MovedAlong r) {d e : Directive}
    (hrank : Applier.rank e < Applier.rank d) (hclash : ¬d.Clashes r e) :
    (s.apply base d).apply base e = (s.apply base e).apply base d := by
  cases d with
  | delete path => exact absurd hrank (Nat.not_lt_zero _)
  | addDependency packages => cases e <;> rfl
  | write path content description =>
    cases e with
    | delete other => exact apply_write_delete_comm content description hclash
    | rename source target =>
      obtain ⟨htarget, hleads⟩ := not_or.1 hclash
      refine apply_write_rename_comm content description ?_ htarget ?_
      · exact fun he => hleads (he ▸ .refl)
      · exact fun h => hleads (hs path source h).to_reflTransGen
    | write => exact absurd hrank (Nat.lt_irrefl 2)
    | addDependency => exact absurd hrank (by simp [Applier.rank])
  | rename source target =>
    cases e with
    | delete path =>
      obtain ⟨hsource, htarget⟩ := not_or.1 hclash
      exact apply_rename_delete_comm hsource htarget
    | rename => exact absurd hrank (Nat.lt_irrefl 1)
    | write => exact absurd hrank (by simp [Applier.rank])
    | addDependency => exact absurd hrank (by simp [Applier.rank])

end Shape

end StagedEdits
