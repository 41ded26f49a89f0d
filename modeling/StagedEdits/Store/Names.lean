set_option autoImplicit false

/-! # Sets of names

A finite set of texts, kept as the increasing list of its members. Two sets with the same members
are therefore equal, and the list is the set's sorted listing.

Main definitions: `Names`, `Names.insert`, `Names.erase`, `Names.ofList`. Main statements:
`Names.mem_insert`, `Names.mem_erase`, `Names.ext_mem`. -/

namespace StagedEdits

/-! ## Sorted lists -/

/-- Puts a text at its place in an increasing list. -/
def insertSorted (x : String) : List String → List String
  | [] => [x]
  | y :: ys => if x < y then x :: y :: ys else if x = y then y :: ys else y :: insertSorted x ys

theorem mem_insertSorted {x y : String} {l : List String} :
    y ∈ insertSorted x l ↔ y = x ∨ y ∈ l := by
  induction l with
  | nil => simp [insertSorted]
  | cons a l ih =>
    simp only [insertSorted]
    split
    · simp
    · split
      · rename_i _ h; subst h; simp
      · simp only [List.mem_cons, ih]; grind

/-- Inserting keeps a list increasing. -/
theorem sorted_insertSorted {x : String} {l : List String} (h : l.Pairwise (· < ·)) :
    (insertSorted x l).Pairwise (· < ·) := by
  induction l with
  | nil => simp [insertSorted]
  | cons a l ih =>
    obtain ⟨ha, hl⟩ := List.pairwise_cons.1 h
    simp only [insertSorted]
    split
    · rename_i hx
      refine List.pairwise_cons.2 ⟨fun b hb => ?_, h⟩
      rcases List.mem_cons.1 hb with rfl | hb
      · exact hx
      · exact String.lt_trans hx (ha b hb)
    · split
      · exact h
      · rename_i h1 h2
        refine List.pairwise_cons.2 ⟨fun b hb => ?_, ih hl⟩
        rcases mem_insertSorted.1 hb with rfl | hb
        · rcases Decidable.em (a < b) with h3 | h3
          · exact h3
          · exact absurd (String.le_antisymm h3 h1) h2
        · exact ha b hb

/-- Two increasing lists with the same members are equal. -/
theorem eq_of_sorted_of_mem {l m : List String} (hl : l.Pairwise (· < ·)) (hm : m.Pairwise (· < ·))
    (h : ∀ x, x ∈ l ↔ x ∈ m) : l = m := by
  induction l generalizing m with
  | nil =>
    cases m with
    | nil => rfl
    | cons b m => exact absurd ((h b).2 (by simp)) (by simp)
  | cons a l ih =>
    obtain ⟨ha, hl'⟩ := List.pairwise_cons.1 hl
    cases m with
    | nil => exact absurd ((h a).1 (by simp)) (by simp)
    | cons b m =>
      obtain ⟨hb, hm'⟩ := List.pairwise_cons.1 hm
      have hab : a = b := by
        rcases List.mem_cons.1 ((h a).1 (by simp)) with e | e
        · exact e
        · rcases List.mem_cons.1 ((h b).2 (by simp)) with e' | e'
          · exact e'.symm
          · exact absurd (String.lt_trans (ha b e') (hb a e)) (String.lt_irrefl a)
      subst hab
      congr 1
      refine ih hl' hm' fun x => ?_
      have hx := h x
      simp only [List.mem_cons] at hx
      constructor
      · intro e
        rcases hx.1 (Or.inr e) with rfl | e'
        · exact absurd (ha _ e) (String.lt_irrefl _)
        · exact e'
      · intro e
        rcases hx.2 (Or.inr e) with rfl | e'
        · exact absurd (hb _ e) (String.lt_irrefl _)
        · exact e'

/-! ## The type -/

/-- A finite set of texts, as its members in order. -/
structure Names where
  toList : List String
  sorted : toList.Pairwise (· < ·)
  deriving DecidableEq

namespace Names

/-- The set without members. -/
def empty : Names := ⟨[], List.Pairwise.nil⟩

instance : Inhabited Names := ⟨empty⟩

instance : Membership String Names := ⟨fun s x => x ∈ s.toList⟩

instance (x : String) (s : Names) : Decidable (x ∈ s) :=
  inferInstanceAs (Decidable (x ∈ s.toList))

/-- The set `s` with the member `x` more. -/
def insert (s : Names) (x : String) : Names :=
  ⟨insertSorted x s.toList, sorted_insertSorted s.sorted⟩

/-- The set `s` without the member `x`. -/
def erase (s : Names) (x : String) : Names :=
  ⟨s.toList.filter (fun y => y ≠ x), s.sorted.filter _⟩

/-- The set of the members of a list. -/
def ofList (l : List String) : Names :=
  l.foldl insert empty

/-- The members of `s` or of `t`. -/
def union (s t : Names) : Names :=
  t.toList.foldl insert s

/-- The members of `s` that `t` lacks. -/
def diff (s t : Names) : Names :=
  ⟨s.toList.filter (fun y => decide (y ∉ t)), s.sorted.filter _⟩

/-- Whether a set has no members. -/
def isEmpty (s : Names) : Bool := s.toList.isEmpty

/-- The number of members. -/
def size (s : Names) : Nat := s.toList.length

@[simp] theorem mem_toList {s : Names} {x : String} : x ∈ s.toList ↔ x ∈ s := Iff.rfl

@[simp] theorem not_mem_empty (x : String) : x ∉ empty := by
  show x ∉ ([] : List String); simp

@[simp] theorem mem_insert {s : Names} {x y : String} : y ∈ s.insert x ↔ y = x ∨ y ∈ s :=
  mem_insertSorted

@[simp] theorem mem_erase {s : Names} {x y : String} : y ∈ s.erase x ↔ y ≠ x ∧ y ∈ s := by
  show y ∈ s.toList.filter (fun y => y ≠ x) ↔ _
  simp [List.mem_filter, and_comm]

@[simp] theorem mem_diff {s t : Names} {x : String} : x ∈ s.diff t ↔ x ∈ s ∧ x ∉ t := by
  show x ∈ s.toList.filter (fun y => decide (y ∉ t)) ↔ _
  simp [List.mem_filter]

theorem mem_foldl_insert {l : List String} {s : Names} {x : String} :
    x ∈ l.foldl insert s ↔ x ∈ s ∨ x ∈ l := by
  induction l generalizing s with
  | nil => simp
  | cons a l ih => simp only [List.foldl_cons, ih, mem_insert, List.mem_cons]; grind

@[simp] theorem mem_ofList {l : List String} {x : String} : x ∈ ofList l ↔ x ∈ l := by
  simp [ofList, mem_foldl_insert]

@[simp] theorem mem_union {s t : Names} {x : String} : x ∈ s.union t ↔ x ∈ s ∨ x ∈ t := by
  simp [union, mem_foldl_insert]

/-- **Two sets `s` and `t` with the same members are equal.** -/
theorem ext_mem {s t : Names} (h : ∀ x, x ∈ s ↔ x ∈ t) : s = t := by
  cases s; cases t
  congr
  rename_i hl _ hm
  exact eq_of_sorted_of_mem hl hm h

end Names

end StagedEdits
