import Mathlib.Logic.Relation
import StagedEdits.Proofs.NormalPath

set_option autoImplicit false

/-! # Segments that cancel

What walking along the segments of a path comes to, said without walking. A segment that names
nothing may be dropped, and a `..` cancels the ordinary segment right before it; what is left in the
end is the same in whatever order this is done. The walk reaches the end just if no beginning of the
segments holds more `..` than ordinary segments.

Main definitions: `Cancel`, `CancelsTo`. Main statements: `resolveSegments_eq_some_iff`,
`CancelsTo.unique`, `isSome_resolveSegments_iff`. -/

namespace StagedEdits

/-! ## Kinds of segments -/

/-- How many of `segments` name something. -/
def ordinaryCount (segments : List (List Char)) : Nat := segments.countP isOrdinarySegment

/-- How many segments are `..`. -/
def upCount (segments : List (List Char)) : Nat := segments.countP isUpSegment

section Kinds

variable {s : List Char}

/-- A segment is of one kind only. -/
theorem segment_cases (s : List Char) :
    (isIdleSegment s = true ∧ isUpSegment s = false ∧ isOrdinarySegment s = false) ∨
      (isIdleSegment s = false ∧ isUpSegment s = true ∧ isOrdinarySegment s = false) ∨
        (isIdleSegment s = false ∧ isUpSegment s = false ∧ isOrdinarySegment s = true) := by
  cases hidle : isIdleSegment s with
  | false => cases hup : isUpSegment s <;> simp [isOrdinarySegment, hidle, hup]
  | true =>
    have hup : isUpSegment s = false := by
      simp only [isIdleSegment, Bool.or_eq_true, beq_iff_eq] at hidle
      rcases hidle with rfl | rfl <;> rfl
    simp [isOrdinarySegment, hidle, hup]

theorem kinds_of_up (h : isUpSegment s = true) :
    isIdleSegment s = false ∧ isOrdinarySegment s = false := by
  rcases segment_cases s with hs | hs | hs <;> simp_all

theorem kinds_of_ordinary (h : isOrdinarySegment s = true) :
    isIdleSegment s = false ∧ isUpSegment s = false := by
  rcases segment_cases s with hs | hs | hs <;> simp_all

end Kinds

/-! ## One step of the walk -/

section Walk

variable {s : List Char} {kept rest : List (List Char)}

theorem resolveSegments_of_idle (h : isIdleSegment s = true) :
    resolveSegments kept (s :: rest) = resolveSegments kept rest := by
  cases kept <;> rw [resolveSegments, if_pos h]

theorem resolveSegments_of_up (h : isUpSegment s = true) (k : List Char) :
    resolveSegments (k :: kept) (s :: rest) = resolveSegments kept rest := by
  rw [resolveSegments, if_neg (by simp [kinds_of_up h]), if_pos h]

theorem resolveSegments_nil_of_up (h : isUpSegment s = true) :
    resolveSegments [] (s :: rest) = none := by
  rw [resolveSegments, if_neg (by simp [kinds_of_up h]), if_pos h]

theorem resolveSegments_of_ordinary (h : isOrdinarySegment s = true) :
    resolveSegments kept (s :: rest) = resolveSegments (s :: kept) rest := by
  obtain ⟨hidle, hup⟩ := kinds_of_ordinary h
  cases kept <;> rw [resolveSegments, if_neg (by simp [hidle]), if_neg (by simp [hup])]

end Walk

/-! ## Cancelling -/

/-- One step of cancelling. -/
inductive Cancel : List (List Char) → List (List Char) → Prop
  /-- A segment that names nothing is dropped. -/
  | idle (lead rest : List (List Char)) {s : List Char} (hs : isIdleSegment s = true) :
      Cancel (lead ++ s :: rest) (lead ++ rest)
  /-- A `..` cancels the ordinary segment right before it. -/
  | pair (lead rest : List (List Char)) {s up : List Char} (hs : isOrdinarySegment s = true)
      (hup : isUpSegment up = true) : Cancel (lead ++ s :: up :: rest) (lead ++ rest)

/-- That `segments` come down to `left` by cancelling, and only ordinary ones are left. -/
structure CancelsTo (segments left : List (List Char)) : Prop where
  steps : Relation.ReflTransGen Cancel segments left
  ordinary : ∀ s ∈ left, isOrdinarySegment s = true

section Cancelling

variable {segments left kept : List (List Char)}

/-- Behind the same lead the walk goes on alike if it does without the lead. -/
theorem resolveSegments_append {a b : List (List Char)}
    (h : ∀ kept, resolveSegments kept a = resolveSegments kept b) (lead kept : List (List Char)) :
    resolveSegments kept (lead ++ a) = resolveSegments kept (lead ++ b) := by
  induction lead generalizing kept with
  | nil => exact h kept
  | cons s lead ih =>
    rw [List.cons_append, List.cons_append]
    rcases segment_cases s with hs | hs | hs
    · rw [resolveSegments_of_idle hs.1, resolveSegments_of_idle hs.1, ih]
    · cases kept with
      | nil => rw [resolveSegments_nil_of_up hs.2.1, resolveSegments_nil_of_up hs.2.1]
      | cons k kept => rw [resolveSegments_of_up hs.2.1, resolveSegments_of_up hs.2.1, ih]
    · rw [resolveSegments_of_ordinary hs.2.2, resolveSegments_of_ordinary hs.2.2, ih]

/-- Cancelling does not change what the walk comes to. -/
theorem Cancel.resolveSegments_eq (h : Cancel segments left) (kept : List (List Char)) :
    resolveSegments kept segments = resolveSegments kept left := by
  cases h with
  | idle lead rest hs =>
    exact resolveSegments_append (fun _ => resolveSegments_of_idle hs) lead kept
  | pair lead rest hs hup =>
    refine resolveSegments_append (fun kept => ?_) lead kept
    rw [resolveSegments_of_ordinary hs, resolveSegments_of_up hup]

/-- The walk keeps ordinary segments. -/
theorem resolveSegments_of_all (h : ∀ s ∈ segments, isOrdinarySegment s = true)
    (kept : List (List Char)) :
    resolveSegments kept segments = some (kept.reverse ++ segments) := by
  induction segments generalizing kept with
  | nil => rw [resolveSegments, List.append_nil]
  | cons s segments ih =>
    rw [resolveSegments_of_ordinary (h s List.mem_cons_self),
      ih fun x hx => h x (List.mem_cons_of_mem s hx), List.reverse_cons, List.append_assoc]
    rfl

/-- What the walk keeps is what is left when the segments cancel behind those that were kept. -/
theorem cancelsTo_of_resolveSegments (hkept : ∀ s ∈ kept, isOrdinarySegment s = true)
    (h : resolveSegments kept segments = some left) :
    CancelsTo (kept.reverse ++ segments) left := by
  induction segments generalizing kept with
  | nil =>
    rw [resolveSegments, Option.some.injEq] at h
    subst h
    rw [List.append_nil]
    exact ⟨.refl, fun s hs => hkept s (List.mem_reverse.1 hs)⟩
  | cons s segments ih =>
    rcases segment_cases s with hs | hs | hs
    · rw [resolveSegments_of_idle hs.1] at h
      obtain ⟨hsteps, hleft⟩ := ih hkept h
      exact ⟨.head (.idle _ _ hs.1) hsteps, hleft⟩
    · cases kept with
      | nil =>
        rw [resolveSegments_nil_of_up hs.2.1] at h
        cases h
      | cons k kept =>
        rw [resolveSegments_of_up hs.2.1] at h
        obtain ⟨hsteps, hleft⟩ := ih (fun x hx => hkept x (List.mem_cons_of_mem k hx)) h
        rw [List.reverse_cons, List.append_assoc]
        exact ⟨.head (.pair _ _ (hkept k List.mem_cons_self) hs.2.1) hsteps, hleft⟩
    · rw [resolveSegments_of_ordinary hs.2.2] at h
      have hmore : ∀ x ∈ s :: kept, isOrdinarySegment x = true := by
        intro x hx
        rcases List.mem_cons.1 hx with rfl | hx
        · exact hs.2.2
        · exact hkept x hx
      have hrest := ih hmore h
      rwa [List.reverse_cons, List.append_assoc] at hrest

/-- **The walk comes to the segments that are left when `..` cancel what stands before them.** -/
theorem resolveSegments_eq_some_iff :
    resolveSegments [] segments = some left ↔ CancelsTo segments left := by
  refine ⟨fun h => cancelsTo_of_resolveSegments (fun s hs => absurd hs List.not_mem_nil) h, ?_⟩
  rintro ⟨hsteps, hleft⟩
  induction hsteps using Relation.ReflTransGen.head_induction_on with
  | refl => exact resolveSegments_of_all hleft []
  | head hstep _ ih => rw [hstep.resolveSegments_eq, ih]

/-- **What is left does not depend on the order of cancelling**: `left'` is `left`. -/
theorem CancelsTo.unique {left' : List (List Char)} (h : CancelsTo segments left)
    (h' : CancelsTo segments left') : left' = left := by
  rw [← resolveSegments_eq_some_iff] at h h'
  rw [h] at h'
  exact (Option.some.inj h').symm

/-- What the walk keeps are some of the segments, in their order. -/
theorem resolveSegments_sublist (h : resolveSegments kept segments = some left) :
    left.Sublist (kept.reverse ++ segments) := by
  induction segments generalizing kept with
  | nil =>
    rw [resolveSegments, Option.some.injEq] at h
    rw [← h]
    exact List.sublist_append_left _ _
  | cons s segments ih =>
    rcases segment_cases s with hs | hs | hs
    · rw [resolveSegments_of_idle hs.1] at h
      exact (ih h).trans ((List.sublist_cons_self s segments).append_left _)
    · cases kept with
      | nil =>
        rw [resolveSegments_nil_of_up hs.2.1] at h
        cases h
      | cons k kept =>
        rw [resolveSegments_of_up hs.2.1] at h
        refine (ih h).trans ?_
        rw [List.reverse_cons, List.append_assoc]
        exact ((List.sublist_append_right [s] segments).trans
          (List.sublist_append_right [k] _)).append_left _
    · rw [resolveSegments_of_ordinary hs.2.2] at h
      have hrest := ih h
      rwa [List.reverse_cons, List.append_assoc] at hrest

end Cancelling

/-! ## Counting -/

section Counting

variable {segments left kept : List (List Char)}

/-- A statement about all beginnings of a list is one about the empty one and those that start with
    the first item. -/
theorem forall_prefix_cons {α : Type} {x : α} {xs : List α} {P : List α → Prop} :
    (∀ lead, lead <+: x :: xs → P lead) ↔ P [] ∧ ∀ lead, lead <+: xs → P (x :: lead) := by
  constructor
  · exact fun h => ⟨h [] (List.nil_prefix), fun lead hl => h _ (List.prefix_cons_inj x |>.2 hl)⟩
  · rintro ⟨hnil, hcons⟩ lead hl
    rcases List.prefix_cons_iff.1 hl with rfl | ⟨lead, rfl, hrest⟩
    · exact hnil
    · exact hcons lead hrest

/-- **The walk reaches the end just if no beginning of the segments holds more `..` than there are
    ordinary segments in it and kept before.** -/
theorem isSome_resolveSegments_iff :
    (resolveSegments kept segments).isSome = true ↔
      ∀ lead, lead <+: segments → upCount lead ≤ kept.length + ordinaryCount lead := by
  induction segments generalizing kept with
  | nil => simp [resolveSegments, upCount, ordinaryCount]
  | cons s segments ih =>
    rw [forall_prefix_cons]
    simp only [upCount, ordinaryCount, List.countP_nil, List.countP_cons] at ih ⊢
    rcases segment_cases s with ⟨hs, hup, hord⟩ | ⟨hs, hup, hord⟩ | ⟨hs, hup, hord⟩
    · rw [resolveSegments_of_idle hs, ih]
      simp [hup, hord]
    · cases kept with
      | nil =>
        rw [resolveSegments_nil_of_up hup]
        -- the beginning that is this `..` alone has nothing to take back
        have halone : ¬ ∀ lead, lead <+: segments →
            lead.countP isUpSegment + 1 ≤ 0 + (lead.countP isOrdinarySegment + 0) :=
          fun h => absurd (h [] List.nil_prefix) (by simp)
        simpa [hup, hord] using halone
      | cons k kept =>
        rw [resolveSegments_of_up hup, ih]
        simp only [hup, hord, List.length_cons, if_true, Bool.false_eq_true, if_false]
        constructor
        · exact fun h => ⟨Nat.zero_le _, fun lead hl => by have := h lead hl; omega⟩
        · exact fun h lead hl => by have := h.2 lead hl; omega
    · rw [resolveSegments_of_ordinary hord, ih]
      simp only [hup, hord, List.length_cons, if_true, Bool.false_eq_true, if_false]
      constructor
      · exact fun h => ⟨Nat.zero_le _, fun lead hl => by have := h lead hl; omega⟩
      · exact fun h lead hl => by have := h.2 lead hl; omega

/-- Each `..` takes one segment with it. -/
theorem length_of_resolveSegments (h : resolveSegments kept segments = some left) :
    left.length + upCount segments = kept.length + ordinaryCount segments := by
  induction segments generalizing kept with
  | nil =>
    rw [resolveSegments, Option.some.injEq] at h
    simp [← h, upCount, ordinaryCount]
  | cons s segments ih =>
    simp only [upCount, ordinaryCount, List.countP_cons] at ih ⊢
    rcases segment_cases s with ⟨hs, hup, hord⟩ | ⟨hs, hup, hord⟩ | ⟨hs, hup, hord⟩
    · rw [resolveSegments_of_idle hs] at h
      simpa [hup, hord] using ih h
    · cases kept with
      | nil =>
        rw [resolveSegments_nil_of_up hup] at h
        cases h
      | cons k kept =>
        rw [resolveSegments_of_up hup] at h
        have hrest := ih h
        simp only [hup, hord, List.length_cons, if_true, Bool.false_eq_true, if_false]
        omega
    · rw [resolveSegments_of_ordinary hord] at h
      have hrest := ih h
      simp only [hup, hord, List.length_cons, if_true, Bool.false_eq_true, if_false] at hrest ⊢
      omega

end Counting

end StagedEdits
