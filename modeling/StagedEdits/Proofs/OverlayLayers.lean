import StagedEdits.Proofs.OverlayShape

set_option autoImplicit false

/-! # The layers of an overlay fit together

An overlay keeps its writes, deletes, renames and whole writes apart, and each directive changes
some of them. They fit together all the same: what is deleted is not written, what was written as a
whole is written, and a remembered rename leads from a deleted path to a written one. So no rename
leads on from where another one led to. None of this is kept by itself: a rename stays true because
deleted and written paths stay apart.

Main definitions: `Overlay.Coherent`, `Applier.callsOver`. Main statements:
`Overlay.Change.coherent` (one change), `Applier.call_keeps` (what changes keep, calls keep),
`Applier.layers_fit`. -/

namespace StagedEdits

namespace Overlay

/-- That the layers of `o` fit together. -/
structure Coherent (o : Overlay) : Prop where
  /-- What is deleted is not written. -/
  apart : o.Disjoint
  /-- What was written as a whole is written. -/
  closed : ∀ path ∈ o.closed, o.writes.get? path ≠ none
  /-- Renames lead away from deleted paths. -/
  source : ∀ p q, o.renames.get? p = some q → p ∈ o.deletes
  /-- Renames lead to written paths. -/
  target : ∀ p q, o.renames.get? p = some q → o.writes.get? q ≠ none

section Changes

variable {o : Overlay}

theorem empty_coherent : empty.Coherent :=
  ⟨empty_disjoint, fun path hpath => absurd hpath (Names.not_mem_empty path), nofun, nofun⟩

/-- No rename leads on from where another one led to. -/
theorem Coherent.no_chain (h : o.Coherent) {p q : String} (hpq : o.renames.get? p = some q) :
    o.renames.get? q = none := by
  cases hq : o.renames.get? q with
  | none => rfl
  | some r => exact absurd (h.apart q (h.source q r hq)) (h.target p q hpq)

theorem Coherent.source_ne_target (h : o.Coherent) {p q : String}
    (hpq : o.renames.get? p = some q) : p ≠ q := by
  rintro rfl
  exact h.target p p hpq (h.apart p (h.source p p hpq))

theorem Coherent.delete (h : o.Coherent) (path : String) : (o.delete path).Coherent where
  apart := (Change.delete path).disjoint h.apart
  closed p hp := by
    obtain ⟨hne, hp⟩ := Names.mem_erase.1 hp
    show (o.writes.erase path).get? p ≠ none
    rw [Table.get?_erase, if_neg hne]
    exact h.closed p hp
  source p q hpq := by
    obtain ⟨hpq, -⟩ := Table.get?_filter.1 hpq
    exact Names.mem_insert.2 (.inr (h.source p q hpq))
  target p q hpq := by
    -- a rename to the path is forgotten with the file
    obtain ⟨hpq, hq⟩ := Table.get?_filter.1 hpq
    show (o.writes.erase path).get? q ≠ none
    rw [Table.get?_erase, if_neg (by simpa using hq)]
    exact h.target p q hpq

theorem Coherent.write (h : o.Coherent) (path content : String) :
    (o.write path content).Coherent where
  apart := (Change.write path content).disjoint h.apart
  closed p hp := by
    show (o.writes.set path content).get? p ≠ none
    rw [Table.get?_set]
    split
    · nofun
    · rename_i hne
      exact h.closed p ((Names.mem_insert.1 hp).resolve_left hne)
  source p q hpq := by
    -- a rename away from the path is forgotten, as the path is deleted no longer
    obtain ⟨hpq, hp⟩ := Table.get?_filter.1 hpq
    exact Names.mem_erase.2 ⟨by simpa using hp, h.source p q hpq⟩
  target p q hpq := by
    obtain ⟨hpq, -⟩ := Table.get?_filter.1 hpq
    show (o.writes.set path content).get? q ≠ none
    rw [Table.get?_set]
    split
    · nofun
    · exact h.target p q hpq

/-- The renames behind a move: those from where the file first was, and the old ones that neither
    come from the target nor lead to the source. -/
theorem Coherent.renames_move (h : o.Coherent) {source target : String} (content : String)
    {p q : String} (hpq : (o.move source target content).renames.get? p = some q) :
    p ≠ target ∧ ((p ∈ o.deletes ∨ p = source) ∧ q = target ∨
      o.renames.get? p = some q ∧ q ≠ source) := by
  have hmoved : (o.shape.move source target content).moved p q := by
    rw [← o.shape_move]
    exact hpq
  obtain ⟨hp, ⟨ho, hq⟩ | ⟨ho, hold⟩⟩ := hmoved
  · refine ⟨hp, .inl ⟨?_, hq⟩⟩
    exact ho.imp (h.source p source) And.left
  · exact ⟨hp, .inr ⟨hold, fun hq => ho (.inl (hq ▸ hold))⟩⟩

theorem Coherent.move (h : o.Coherent) {source target : String} (content : String)
    (hne : source ≠ target) : (o.move source target content).Coherent where
  apart := (Change.move content hne).disjoint h.apart
  closed p hp := by
    obtain ⟨hsource, hp⟩ := Names.mem_erase.1 hp
    rw [o.move_writes, if_neg hsource]
    split
    · nofun
    · exact h.closed p hp
  source p q hpq := by
    obtain ⟨hp, ⟨ho, -⟩ | ⟨hold, -⟩⟩ := h.renames_move content hpq
    · exact (o.move_deletes ..).2 (ho.symm.imp_right fun hd => ⟨hp, hd⟩)
    · exact (o.move_deletes ..).2 (.inr ⟨hp, h.source p q hold⟩)
  target p q hpq := by
    rw [o.move_writes]
    obtain ⟨-, ⟨-, hq⟩ | ⟨hold, hq⟩⟩ := h.renames_move content hpq
    · rw [if_pos hq]
      nofun
    · rw [if_neg hq]
      split
      · nofun
      · exact h.target p q hold

/-- **Every change keeps the layers together.** -/
theorem Change.coherent {o' : Overlay} (hc : o.Change o') (h : o.Coherent) : o'.Coherent := by
  cases hc with
  | same => exact h
  | delete path => exact h.delete path
  | write path content => exact h.write path content
  | move content hne => exact h.move content hne

end Changes

end Overlay

/-! ## Calls -/

namespace Applier

section Keeping

variable {P : Overlay → Prop} (hchange : ∀ o o', o.Change o' → P o → P o') (base : BaseTree)
  (session : String)

include hchange

theorem apply_keeps {a : Applier} (h : P a.overlay) (d : Directive) :
    P (a.apply base d).1.overlay := by
  rcases apply_cases base a d with ⟨hsame, -⟩ | ⟨o, packages, hc, he⟩
  · rw [hsame]
    exact h
  · rw [he]
    exact hchange _ _ hc h

/-- What every change keeps is kept by items in a row, also if they are stopped. -/
theorem applyItems_keeps {a : Applier} (h : P a.overlay) (b : Batch) (is : List Item) :
    P (a.applyItems base session b is).1.overlay := by
  induction is generalizing a b with
  | nil => exact h
  | cons i is ih =>
    rw [applyItems_cons]
    cases i.work with
    | error f => exact h
    | ok d =>
      have hstep : P (a.applyInto base session b d).1.overlay := by
        rw [(applyInto_eq base session a b d).1]
        exact apply_keeps hchange base h d
      dsimp only
      split
      · exact hstep
      · exact ih hstep _

/-- **What every change keeps, and an empty overlay has, is kept by every call**, for any property
    `P` of overlays. -/
theorem call_keeps (hempty : P Overlay.empty) {a : Applier} (h : P a.overlay) (c : Call) :
    P (a.call base session c).overlay := by
  cases c with
  | apply d => exact apply_keeps hchange base h d
  | batch items =>
    simp only [call, applyBatch, applyAll_eq_applyItems]
    exact applyItems_keeps hchange base session h _ _
  | replay log =>
    simp only [call, replay]
    exact applyItems_keeps hchange base session h _ _
  | clear => exact hempty

end Keeping

/-- What the calls in `cs` make of `a` in a row, each with the base as it reads just then. -/
def callsOver (session : String) (a : Applier) (cs : List (BaseTree × Call)) : Applier :=
  cs.foldl (fun a c => a.call c.1 session c.2) a

theorem callsOver_coherent {session : String} {a : Applier} (h : a.overlay.Coherent)
    (cs : List (BaseTree × Call)) : (a.callsOver session cs).overlay.Coherent := by
  induction cs generalizing a with
  | nil => exact h
  | cons c cs ih =>
    exact ih (call_keeps (fun _ _ hc => hc.coherent) c.1 session Overlay.empty_coherent h c.2)

/-- **The layers of an overlay fit together, whatever is done to an empty one.** Behind any calls
    `cs`, directives, batches and replays, with those that fail, and any clearing in between: no
    path is both in `o.writes` and in `o.deletes`, what is in `o.closed` is written, and a rename
    leads from a deleted path to a written one. So none leads back to its source or on from the
    target of another one. -/
theorem layers_fit (session : String) (dependencies : Names) (history : List Directive)
    (cs : List (BaseTree × Call)) :
    let o := ((⟨Overlay.empty, dependencies, history⟩ : Applier).callsOver session cs).overlay
    (∀ path, ¬(o.writes.has path = true ∧ path ∈ o.deletes)) ∧
    (∀ path ∈ o.closed, o.writes.has path = true) ∧
    (∀ p q, o.renames.get? p = some q → p ∈ o.deletes ∧ o.writes.has q = true) ∧
    (∀ p q, o.renames.get? p = some q → p ≠ q ∧ o.renames.has q = false) := by
  intro o
  have h : o.Coherent := callsOver_coherent Overlay.empty_coherent cs
  have hwritten : ∀ path, o.writes.has path = true ↔ o.writes.get? path ≠ none := fun path =>
    Option.isSome_iff_ne_none
  refine ⟨fun path hboth => ?_, fun path hp => ?_, fun p q hpq => ?_, fun p q hpq => ?_⟩
  · exact (hwritten path).1 hboth.1 (h.apart path hboth.2)
  · exact (hwritten path).2 (h.closed path hp)
  · exact ⟨h.source p q hpq, (hwritten q).2 (h.target p q hpq)⟩
  · exact ⟨h.source_ne_target hpq, Option.isSome_eq_false_iff.2 (by rw [h.no_chain hpq]; rfl)⟩

end Applier

end StagedEdits
