import StagedEdits.Proofs.FileMap

set_option autoImplicit false

/-! # What an overlay holds of one path

Apart from the renames it remembers, an overlay is what it holds of each path. A directive that
edits files looks only at the paths it touches, and changes only those: what it comes to, and what
it leaves there, is settled by what was held of them.

Main definitions: `Directive.touched`, `Overlay.cell`. Main statements:
`Applier.cell_apply_of_notMem` (the other paths stay), `Applier.apply_congr` (the touched paths
settle the rest). -/

namespace StagedEdits

/-- The paths that a directive touches. -/
def Directive.touched : Directive → List String
  | .write path _ _ => [path]
  | .rename source target => [source, target]
  | .delete path => [path]
  | .addDependency _ => []

/-- Whether a directive edits files. -/
def Directive.isEdit : Directive → Bool
  | .addDependency _ => false
  | _ => true

/-- What an `Overlay` holds of one path. -/
structure Cell where
  /-- The pending content. -/
  content : Option String
  /-- Whether the path will be gone. -/
  gone : Bool
  /-- Whether the pending content was written as a whole. -/
  whole : Bool
  deriving DecidableEq

namespace Overlay

/-- What `o` holds of `path`. -/
def cell (o : Overlay) (path : String) : Cell :=
  ⟨o.writes.get? path, decide (path ∈ o.deletes), decide (path ∈ o.closed)⟩

theorem cell_eq_iff {o o' : Overlay} {p : String} :
    o.cell p = o'.cell p ↔ o.writes.get? p = o'.writes.get? p ∧
      (p ∈ o.deletes ↔ p ∈ o'.deletes) ∧ (p ∈ o.closed ↔ p ∈ o'.closed) := by
  simp only [cell, Cell.mk.injEq, decide_eq_decide]

variable (o : Overlay)

theorem cell_delete (path p : String) :
    (o.delete path).cell p = if p = path then ⟨none, true, false⟩ else o.cell p := by
  have hw : (o.delete path).writes.get? p = if p = path then none else o.writes.get? p :=
    Table.get?_erase ..
  have hd : p ∈ (o.delete path).deletes ↔ p = path ∨ p ∈ o.deletes := Names.mem_insert
  have hc : p ∈ (o.delete path).closed ↔ p ≠ path ∧ p ∈ o.closed := Names.mem_erase
  split
  · rename_i hp
    subst hp
    simp [cell, hw, hd, hc]
  · rename_i hp
    simp [cell, hw, hd, hc, hp]

theorem cell_write (path content p : String) :
    (o.write path content).cell p =
      if p = path then ⟨some content, false, true⟩ else o.cell p := by
  have hw : (o.write path content).writes.get? p =
      if p = path then some content else o.writes.get? p := Table.get?_set ..
  have hd : p ∈ (o.write path content).deletes ↔ p ≠ path ∧ p ∈ o.deletes := Names.mem_erase
  have hc : p ∈ (o.write path content).closed ↔ p = path ∨ p ∈ o.closed := Names.mem_insert
  split
  · rename_i hp
    subst hp
    simp [cell, hw, hd, hc]
  · rename_i hp
    simp [cell, hw, hd, hc, hp]

/-- A moved file counts as written as a whole if what was pending at the target did. -/
theorem cell_move {source target : String} (content : String) (hne : source ≠ target)
    (p : String) :
    (o.move source target content).cell p =
      if p = source then ⟨none, true, false⟩
      else if p = target then ⟨some content, false, (o.cell target).whole⟩ else o.cell p := by
  have hw := o.move_writes source target content p
  have hd := o.move_deletes source target content p
  have hc : p ∈ (o.move source target content).closed ↔ p ≠ source ∧ p ∈ o.closed :=
    Names.mem_erase
  split
  · rename_i hs
    subst hs
    simp [cell, hw, hd, hc, hne]
  · rename_i hs
    split
    · rename_i ht
      subst ht
      simp [cell, hw, hd, hc, hs]
    · rename_i ht
      simp [cell, hw, hd, hc, hs, ht]

end Overlay

namespace Applier

variable {base : BaseTree} {a b : Applier} {d : Directive}

/-- **A directive leaves the paths that it does not touch**: the cell of `p` is as it was. -/
theorem cell_apply_of_notMem {p : String} (hp : p ∉ d.touched) :
    (a.apply base d).1.overlay.cell p = a.overlay.cell p := by
  cases d with
  | delete path =>
    have hne : p ≠ path := fun e => hp (List.mem_singleton.2 e)
    simp only [apply, delete]
    split
    · rfl
    · rw [Overlay.cell_delete, if_neg hne]
  | rename source target =>
    have hs : p ≠ source := fun e => hp (e ▸ List.mem_cons_self)
    have ht : p ≠ target := fun e => hp (List.mem_cons_of_mem _ (List.mem_singleton.2 e))
    simp only [apply, rename_eq]
    split
    · rfl
    · rename_i hne
      cases a.overlay.files base source with
      | error f => rfl
      | ok found =>
        cases found with
        | none => rfl
        | some content => rw [Overlay.cell_move _ content hne, if_neg hs, if_neg ht]
  | write path content description =>
    have hne : p ≠ path := fun e => hp (List.mem_singleton.2 e)
    simp only [apply, write]
    split
    · rfl
    · rw [Overlay.cell_write, if_neg hne]
  | addDependency packages =>
    simp only [apply, addPackages]
    split <;> rfl

/-- **What a directive comes to, and what it leaves at the paths it touches, is settled by what was
    held of these paths**: appliers `a` and `b` with the same cells there are not told apart. -/
theorem apply_congr (hedit : d.isEdit = true)
    (h : ∀ p ∈ d.touched, a.overlay.cell p = b.overlay.cell p) :
    (a.apply base d).2 = (b.apply base d).2 ∧
      ∀ p ∈ d.touched, (a.apply base d).1.overlay.cell p = (b.apply base d).1.overlay.cell p := by
  cases d with
  | delete path =>
    obtain ⟨-, hd, -⟩ := Overlay.cell_eq_iff.1 (h path List.mem_cons_self)
    simp only [apply, delete, hd]
    split
    · exact ⟨rfl, h⟩
    · refine ⟨rfl, fun p hp => ?_⟩
      rw [Overlay.cell_delete, Overlay.cell_delete, h p hp]
  | rename source target =>
    obtain ⟨hw, hd, -⟩ := Overlay.cell_eq_iff.1 (h source List.mem_cons_self)
    have hfiles : a.overlay.files base source = b.overlay.files base source :=
      Overlay.files_congr hw hd
    simp only [apply, rename_eq, hfiles]
    split
    · exact ⟨rfl, h⟩
    · rename_i hne
      cases b.overlay.files base source with
      | error f => exact ⟨rfl, h⟩
      | ok found =>
        cases found with
        | none => exact ⟨rfl, h⟩
        | some content =>
          have htarget := h target (List.mem_cons_of_mem _ (List.mem_singleton.2 rfl))
          refine ⟨rfl, fun p hp => ?_⟩
          rw [Overlay.cell_move _ content hne, Overlay.cell_move _ content hne, h p hp, htarget]
  | write path content description =>
    obtain ⟨hw, -, hc⟩ := Overlay.cell_eq_iff.1 (h path List.mem_cons_self)
    simp only [apply, write, hw, hc]
    split
    · exact ⟨rfl, h⟩
    · refine ⟨rfl, fun p hp => ?_⟩
      rw [Overlay.cell_write, Overlay.cell_write, h p hp]
  | addDependency packages => cases hedit

end Applier

end StagedEdits
