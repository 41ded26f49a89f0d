import StagedEdits.Proofs.ReportedProblems

set_option autoImplicit false

/-! # The stable order of problems

Sorting problems by place leaves those at one place in the order they came in. Nothing else is left
open by that: a list that is in order of places is known from the problems at each place. So lists
that differ only in how the places are mixed are sorted alike, and sorting twice is sorting once.

Main definitions: `Problem.NoLater`, `KeepsTies`, `SortsStably`. Main statements:
`sortProblems_sortsStably`, `SortsStably.eq_sortProblems`, `KeepsTies.sortProblems_eq`. -/

namespace StagedEdits

/-! ## Places -/

namespace Problem

/-- Where `p` is: its file, line and column. -/
def place (p : Problem) : String × Int × Int := (p.file, p.line, p.column)

/-- That `a` is placed no later than `b`: by file, then line, then column. -/
def NoLater (a b : Problem) : Prop :=
  a.file < b.file ∨
    a.file = b.file ∧ (a.line < b.line ∨ a.line = b.line ∧ a.column ≤ b.column)

variable {a b : Problem}

theorem le_iff_noLater : a.le b = true ↔ a.NoLater b := by
  unfold le NoLater
  by_cases hfile : a.file = b.file
  · have hirrefl : ¬a.file < b.file := hfile ▸ String.lt_irrefl _
    rw [if_pos hfile, or_iff_right hirrefl, and_iff_right hfile]
    by_cases hline : a.line = b.line
    · rw [if_pos hline, decide_eq_true_iff]
      omega
    · rw [if_neg hline, decide_eq_true_iff]
      omega
  · rw [if_neg hfile, decide_eq_true_iff]
    exact ⟨.inl, fun h => h.resolve_right fun h => hfile h.1⟩

/-- Problems that are placed no later than one another are at one place. -/
theorem NoLater.place_eq (hab : a.NoLater b) (hba : b.NoLater a) : a.place = b.place := by
  have hfile : a.file = b.file := by
    rcases hab with hab | ⟨hab, -⟩
    · rcases hba with hba | ⟨hba, -⟩
      · exact absurd (String.lt_trans hab hba) (String.lt_irrefl _)
      · exact hba.symm
    · exact hab
  have hirrefl : ¬a.file < b.file := hfile ▸ String.lt_irrefl _
  have hirrefl' : ¬b.file < a.file := hfile ▸ String.lt_irrefl _
  obtain ⟨-, hab⟩ := hab.resolve_left hirrefl
  obtain ⟨-, hba⟩ := hba.resolve_left hirrefl'
  have hline : a.line = b.line := by omega
  have hcolumn : a.column = b.column := by omega
  rw [place, place, hfile, hline, hcolumn]

end Problem

/-! ## Reorderings -/

/-- That `qs` and `ps` have the same problems at each place, in the same order. -/
def SameTies (qs ps : List Problem) : Prop :=
  ∀ place, qs.filter (fun p => p.place = place) = ps.filter (fun p => p.place = place)

/-- That `qs` are `ps` reordered, with the problems at each place in the same order. -/
structure KeepsTies (qs ps : List Problem) : Prop where
  perm : qs.Perm ps
  ties : SameTies qs ps

/-- That `qs` are `ps`, stably sorted by place. -/
structure SortsStably (qs ps : List Problem) : Prop extends KeepsTies qs ps where
  sorted : qs.Pairwise Problem.NoLater

section Lists

variable {ps qs rs : List Problem} {a b : Problem}

theorem SameTies.symm (h : SameTies qs ps) : SameTies ps qs := fun place => (h place).symm

theorem SameTies.trans (h : SameTies rs qs) (h' : SameTies qs ps) : SameTies rs ps :=
  fun place => (h place).trans (h' place)

theorem SameTies.mem (h : SameTies qs ps) (ha : a ∈ qs) : a ∈ ps := by
  have hat : a ∈ qs.filter (fun p => p.place = a.place) := List.mem_filter.2 ⟨ha, by simp⟩
  rw [h a.place] at hat
  exact (List.mem_filter.1 hat).1

/-- If the heads are at one place they are the same, and the tails have the same problems at each
    place. -/
theorem SameTies.of_cons (h : SameTies (a :: qs) (b :: ps)) (hplace : a.place = b.place) :
    a = b ∧ SameTies qs ps := by
  have hheads := h a.place
  rw [List.filter_cons_of_pos (by simp), List.filter_cons_of_pos (by simp [hplace])] at hheads
  obtain ⟨rfl, -⟩ := List.cons.inj hheads
  refine ⟨rfl, fun place => ?_⟩
  have hrest := h place
  by_cases hat : a.place = place
  · rw [List.filter_cons_of_pos (by simpa using hat),
      List.filter_cons_of_pos (by simpa using hat)] at hrest
    exact (List.cons.inj hrest).2
  · rwa [List.filter_cons_of_neg (by simpa using hat),
      List.filter_cons_of_neg (by simpa using hat)] at hrest

/-- **A list in order of places is known from the problems at each place**: `qs` and `ps`, both in
    order, are one list. -/
theorem SameTies.eq_of_sorted (h : SameTies qs ps) (hqs : qs.Pairwise Problem.NoLater)
    (hps : ps.Pairwise Problem.NoLater) : qs = ps := by
  induction qs generalizing ps with
  | nil =>
    cases ps with
    | nil => rfl
    | cons b ps => exact absurd (h.symm.mem List.mem_cons_self) List.not_mem_nil
  | cons a qs ih =>
    cases ps with
    | nil => exact absurd (h.mem List.mem_cons_self) List.not_mem_nil
    | cons b ps =>
      obtain ⟨haq, hqs'⟩ := List.pairwise_cons.1 hqs
      obtain ⟨hbp, hps'⟩ := List.pairwise_cons.1 hps
      -- each head is in the other list, and so placed no later than the other head
      have hplace : a.place = b.place := by
        rcases List.mem_cons.1 (h.mem List.mem_cons_self) with hab | ha
        · rw [hab]
        · rcases List.mem_cons.1 (h.symm.mem List.mem_cons_self) with hba | hb
          · rw [hba]
          · exact (haq b hb).place_eq (hbp a ha)
      obtain ⟨rfl, hrest⟩ := h.of_cons hplace
      rw [ih hrest hqs' hps']

theorem KeepsTies.trans (h : KeepsTies rs qs) (h' : KeepsTies qs ps) : KeepsTies rs ps where
  perm := h.perm.trans h'.perm
  ties := h.ties.trans h'.ties

/-- Sorting problems sorts them stably. -/
theorem sortProblems_sortsStably (ps : List Problem) : SortsStably (sortProblems ps) ps where
  perm := sortProblems_perm ps
  ties place := by
    obtain ⟨file, line, column⟩ := place
    simpa only [Problem.place, Prod.mk.injEq] using sortProblems_stable ps file line column
  sorted := (sortProblems_pairwise ps).imp Problem.le_iff_noLater.1

/-- Only one list is another one, stably sorted. -/
theorem SortsStably.eq_sortProblems (h : SortsStably qs ps) : qs = sortProblems ps :=
  have hsorted := sortProblems_sortsStably ps
  (h.ties.trans hsorted.ties.symm).eq_of_sorted h.sorted hsorted.sorted

/-- **Lists with the same problems at each place, in the same order, are sorted alike** by
    `sortProblems`. -/
theorem KeepsTies.sortProblems_eq (h : KeepsTies qs ps) : sortProblems qs = sortProblems ps :=
  have hsorted := sortProblems_sortsStably qs
  SortsStably.eq_sortProblems ⟨hsorted.toKeepsTies.trans h, hsorted.sorted⟩

end Lists

end StagedEdits
