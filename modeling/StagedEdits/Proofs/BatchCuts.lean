import StagedEdits.Proofs.OverlayShape

set_option autoImplicit false

/-! # Cuts of a log into batches

A log of directives that is cut into batches is applied batch by batch, and each batch in the order
of its classes. Where the cuts fall counts only for directives that one batch has out of the order
of their classes and that clash: two cuts come to the same if each such pair is in one batch in both
of them or in neither.

Main definitions: `batchOf`, `CutAlike`, `cutOrder`. Main statements: `foldl_eq_of_pairwise` (two
orders that agree where it counts), `Shape.cuts_alike`. -/

namespace StagedEdits

/-! ## Two orders of the same steps -/

section Orders

variable {σ α : Type} {f : σ → α → σ} {P : α → α → Prop} {G : σ → Prop}

/-- A step that may stand before the ones in front of it may be taken first. -/
theorem foldl_append_cons {lead rest : List α} {x : α}
    (hgood : ∀ a ∈ lead, ∀ s, G s → G (f s a))
    (hswap : ∀ a ∈ lead, ∀ s, G s → f (f s a) x = f (f s x) a) {s : σ} (hs : G s) :
    (lead ++ x :: rest).foldl f s = (x :: (lead ++ rest)).foldl f s := by
  induction lead generalizing s with
  | nil => rfl
  | cons a lead ih =>
    have hrest := ih (fun b hb => hgood b (List.mem_cons_of_mem _ hb))
      (fun b hb => hswap b (List.mem_cons_of_mem _ hb)) (hgood a List.mem_cons_self s hs)
    rw [List.cons_append, List.foldl_cons, hrest, List.foldl_cons,
      hswap a List.mem_cons_self s hs]
    rfl

/-- **Two orders of the same steps come to the same** if any two steps that may stand either way
    round by `P` can be swapped from every state that is good by `G`. -/
theorem foldl_eq_of_pairwise {xs ys : List α} (hperm : xs.Perm ys) (hx : xs.Pairwise P)
    (hy : ys.Pairwise P) (hgood : ∀ a ∈ xs, ∀ s, G s → G (f s a))
    (hswap : ∀ a ∈ xs, ∀ b ∈ xs, P a b → P b a → ∀ s, G s → f (f s a) b = f (f s b) a) {s : σ}
    (hs : G s) : xs.foldl f s = ys.foldl f s := by
  -- on the first order; its first step is brought to the front of the second order
  induction xs generalizing ys s with
  | nil => rw [hperm.nil_eq]
  | cons x xs ih =>
    obtain ⟨lead, rest, rfl⟩ := List.append_of_mem (hperm.mem_iff.1 List.mem_cons_self)
    have hrest : xs.Perm (lead ++ rest) := (hperm.trans List.perm_middle).cons_inv
    obtain ⟨hfirst, hx⟩ := List.pairwise_cons.1 hx
    obtain ⟨hlead, htail, hacross⟩ := List.pairwise_append.1 hy
    obtain ⟨-, htail⟩ := List.pairwise_cons.1 htail
    have hmem : ∀ a ∈ lead, a ∈ xs := fun a ha => hrest.mem_iff.2 (List.mem_append_left _ ha)
    rw [foldl_append_cons (G := G) ?_ ?_ hs, List.foldl_cons, List.foldl_cons]
    · refine ih hrest hx ?_ ?_ ?_ (hgood x List.mem_cons_self s hs)
      · refine List.pairwise_append.2 ⟨hlead, htail, fun a ha b hb => ?_⟩
        exact hacross a ha b (List.mem_cons_of_mem _ hb)
      · exact fun a ha => hgood a (List.mem_cons_of_mem _ ha)
      · exact fun a ha b hb => hswap a (List.mem_cons_of_mem _ ha) b (List.mem_cons_of_mem _ hb)
    · exact fun a ha => hgood a (List.mem_cons_of_mem _ (hmem a ha))
    · intro a ha
      refine hswap a (List.mem_cons_of_mem _ (hmem a ha)) x List.mem_cons_self ?_ ?_
      · exact hacross a ha x List.mem_cons_self
      · exact hfirst a (hmem a ha)

end Orders

/-! ## Batches -/

/-- The number of the batch that holds the item at a place of the log. -/
def batchOf {α : Type} : List (List α) → Nat → Nat
  | [], _ => 0
  | b :: bs, i => if i < b.length then 0 else batchOf bs (i - b.length) + 1

/-- That the cuts `bs` and `bs'` of a log agree where it counts: two directives that clash under the
    renames `r`, the later one of the earlier class, are in one batch in both cuts or in neither. -/
def CutAlike (r : String → String → Prop) (bs bs' : List (List Directive)) : Prop :=
  ∀ i j d e, i < j → bs.flatten[i]? = some d → bs.flatten[j]? = some e →
    Applier.rank e < Applier.rank d → d.Clashes r e →
      (batchOf bs i = batchOf bs j ↔ batchOf bs' i = batchOf bs' j)

/-- A `Directive` with its place in the log. -/
abbrev Placing := Directive × Nat

/-- The directives of a batch in the order they are applied, as in `Applier.batchOrder`. -/
def classSort (xs : List Placing) : List Placing :=
  [0, 1, 2, 3].flatMap (fun n => xs.filter (fun x => Applier.rank x.1 == n))

/-- The directives of a log in the order they are applied, each batch by `classSort`, from the place
    `n` on. -/
def cutOrder (n : Nat) : List (List Directive) → List Placing
  | [] => []
  | b :: bs => classSort (b.zipIdx n) ++ cutOrder (n + b.length) bs

theorem classSort_map_fst (xs : List Placing) :
    (classSort xs).map Prod.fst = Applier.batchOrder (xs.map Prod.fst) := by
  simp only [classSort, Applier.batchOrder, List.map_flatMap, List.filter_map]
  rfl

theorem classSort_perm (xs : List Placing) : (classSort xs).Perm xs := by
  induction xs with
  | nil => exact .nil
  | cons x xs ih =>
    refine .trans ?_ (ih.cons x)
    have hrank : Applier.rank x.1 = 0 ∨ Applier.rank x.1 = 1 ∨ Applier.rank x.1 = 2 ∨
        Applier.rank x.1 = 3 := by
      cases x.1 <;> simp [Applier.rank]
    let ofClass (n : Nat) := xs.filter (fun y => Applier.rank y.1 == n)
    -- the directive goes to the front of its class, behind the classes before
    have hfront (before behind : List Placing) :
        (before ++ x :: behind).Perm (x :: (before ++ behind)) := List.perm_middle
    simp only [classSort, List.flatMap_cons, List.flatMap_nil, List.append_nil]
    rcases hrank with h | h | h | h
    · simp [h]
    · simp [h, hfront]
    · simpa [List.filter_cons, h] using hfront (ofClass 0 ++ ofClass 1) (ofClass 2 ++ ofClass 3)
    · simpa [List.filter_cons, h] using hfront (ofClass 0 ++ (ofClass 1 ++ ofClass 2)) (ofClass 3)

theorem cutOrder_map_fst (n : Nat) (bs : List (List Directive)) :
    (cutOrder n bs).map Prod.fst = bs.flatMap Applier.batchOrder := by
  induction bs generalizing n with
  | nil => rfl
  | cons b bs ih =>
    rw [cutOrder, List.map_append, ih, classSort_map_fst, List.zipIdx_map_fst]
    rfl

theorem cutOrder_perm (n : Nat) (bs : List (List Directive)) :
    (cutOrder n bs).Perm (bs.flatten.zipIdx n) := by
  induction bs generalizing n with
  | nil => exact .nil
  | cons b bs ih =>
    rw [cutOrder, List.flatten_cons, List.zipIdx_append]
    exact (classSort_perm _).append (ih _)

theorem place_of_mem_cutOrder {n : Nat} {bs : List (List Directive)} {x : Placing}
    (hx : x ∈ cutOrder n bs) : n ≤ x.2 ∧ bs.flatten[x.2 - n]? = some x.1 := by
  have hx' := (cutOrder_perm n bs).mem_iff.1 hx
  obtain ⟨hn, hlt, hd⟩ := List.mem_zipIdx hx'
  exact ⟨hn, List.getElem?_eq_some_iff.2 ⟨by omega, hd.symm⟩⟩

/-- The order in which the directives at `x` and `y` of a log are applied, `batch` being the
    batch of each place: one batch has its classes in a row, and all else stays in the order of
    the log. -/
def Applied (batch : Nat → Nat) (x y : Placing) : Prop :=
  batch x.2 = batch y.2 ∧ Applier.rank x.1 < Applier.rank y.1 ∨
    x.2 < y.2 ∧ (batch x.2 = batch y.2 → Applier.rank x.1 = Applier.rank y.1)

theorem classSort_zipIdx_pairwise (batch : Nat → Nat) {n k : Nat} {b : List Directive}
    (hb : ∀ x ∈ b.zipIdx n, batch x.2 = k) :
    (classSort (b.zipIdx n)).Pairwise (Applied batch) := by
  have hplaces : (b.zipIdx n).Pairwise (fun x y => x.2 < y.2) := by
    have h := List.pairwise_lt_range' (s := n) (n := b.length)
    rw [← List.zipIdx_map_snd, List.pairwise_map] at h
    exact h
  refine List.pairwise_flatMap.2 ⟨fun m _ => ?_, ?_⟩
  · refine List.pairwise_filter.2 (hplaces.imp fun hlt hx hy => .inr ⟨hlt, fun _ => ?_⟩)
    rw [beq_iff_eq.1 hx, beq_iff_eq.1 hy]
  · have hclasses : [0, 1, 2, 3].Pairwise (· < ·) := by decide
    refine hclasses.imp fun {m m'} hlt x hx y hy => .inl ⟨?_, ?_⟩
    · rw [hb x (List.mem_filter.1 hx).1, hb y (List.mem_filter.1 hy).1]
    · rw [beq_iff_eq.1 (List.mem_filter.1 hx).2, beq_iff_eq.1 (List.mem_filter.1 hy).2]
      exact hlt

theorem cutOrder_pairwise (n : Nat) (bs : List (List Directive)) :
    (cutOrder n bs).Pairwise (Applied fun i => batchOf bs (i - n)) := by
  induction bs generalizing n with
  | nil => exact .nil
  | cons b bs ih =>
    have hfirst : ∀ x ∈ b.zipIdx n, batchOf (b :: bs) (x.2 - n) = 0 := by
      intro x hx
      obtain ⟨hn, hlt, -⟩ := List.mem_zipIdx hx
      exact if_pos (by omega)
    have hlater : ∀ x ∈ cutOrder (n + b.length) bs,
        n + b.length ≤ x.2 ∧
          batchOf (b :: bs) (x.2 - n) = batchOf bs (x.2 - (n + b.length)) + 1 := by
      intro x hx
      have hn := (place_of_mem_cutOrder hx).1
      refine ⟨hn, ?_⟩
      rw [batchOf, if_neg (by omega), Nat.sub_add_eq]
    refine List.pairwise_append.2 ⟨?_, ?_, fun x hx y hy => ?_⟩
    · exact classSort_zipIdx_pairwise _ hfirst
    · refine (ih (n + b.length)).imp_of_mem fun {x y} hx hy h => ?_
      unfold Applied at h ⊢
      dsimp only at h ⊢
      rw [(hlater x hx).2, (hlater y hy).2, Nat.add_right_cancel_iff]
      exact h
    · have hx' := (classSort_perm _).mem_iff.1 hx
      obtain ⟨-, hlt, -⟩ := List.mem_zipIdx hx'
      obtain ⟨hn, hbatch⟩ := hlater y hy
      refine .inr ⟨by omega, fun he => ?_⟩
      dsimp only at he
      rw [hfirst x hx', hbatch] at he
      exact absurd he.symm (Nat.succ_ne_zero _)

/-! ## Cuts that agree where it counts -/

theorem Applied.asymm {batch : Nat → Nat} {x y : Placing} (h : Applied batch x y) :
    ¬Applied batch y x := by
  unfold Applied at h ⊢
  omega

/-- Directives that one cut has the other way round do not clash. -/
theorem CutAlike.not_clashes {r : String → String → Prop} {bs bs' : List (List Directive)}
    (hcut : CutAlike r bs bs') {x y : Placing} (hx : bs.flatten[x.2]? = some x.1)
    (hy : bs.flatten[y.2]? = some y.1) (h : Applied (batchOf bs) x y)
    (h' : Applied (batchOf bs') y x) :
    Applier.rank y.1 < Applier.rank x.1 ∧ ¬x.1.Clashes r y.1 ∨
      Applier.rank x.1 < Applier.rank y.1 ∧ ¬y.1.Clashes r x.1 := by
  unfold Applied at h h'
  rcases Nat.lt_trichotomy x.2 y.2 with hlt | he | hlt
  · have hrank : Applier.rank y.1 < Applier.rank x.1 := by omega
    refine .inl ⟨hrank, fun hclash => ?_⟩
    have hsame := hcut x.2 y.2 x.1 y.1 hlt hx hy hrank hclash
    omega
  · -- one place holds one directive
    have hd : x.1 = y.1 := Option.some.inj (hx.symm.trans (he ▸ hy))
    rw [hd] at h h'
    omega
  · have hrank : Applier.rank x.1 < Applier.rank y.1 := by omega
    refine .inr ⟨hrank, fun hclash => ?_⟩
    have hsame := hcut y.2 x.2 y.1 x.1 hlt hy hx hrank hclash
    omega

namespace Shape

variable {base : BaseTree} {s : Shape} {r : String → String → Prop}

/-- **Cuts that agree where it counts come to the same**: from a shape that was moved along `r`
    only, batches of `bs` and of `bs'` leave one shape if they are `CutAlike`. -/
theorem cuts_alike (hs : s.MovedAlong r) {bs bs' : List (List Directive)}
    (hlog : bs.flatten = bs'.flatten) (hcut : CutAlike r bs bs')
    (hmoves : ∀ source target, .rename source target ∈ bs.flatten → r source target) :
    (bs.flatMap Applier.batchOrder).foldl (apply base) s =
      (bs'.flatMap Applier.batchOrder).foldl (apply base) s := by
  have hplace : ∀ x ∈ cutOrder 0 bs, bs.flatten[x.2]? = some x.1 := fun x hx =>
    (place_of_mem_cutOrder hx).2
  have hperm : (cutOrder 0 bs).Perm (cutOrder 0 bs') :=
    (cutOrder_perm 0 bs).trans (hlog ▸ (cutOrder_perm 0 bs').symm)
  -- two directives can be swapped if one cut has them the other way round
  have hswap : ∀ x ∈ cutOrder 0 bs, ∀ y ∈ cutOrder 0 bs, Applied (batchOf bs) x y →
      Applied (batchOf bs') y x → ∀ s : Shape, s.MovedAlong r →
        (s.apply base x.1).apply base y.1 = (s.apply base y.1).apply base x.1 := by
    intro x hx y hy h h' s hs
    rcases hcut.not_clashes (hplace x hx) (hplace y hy) h h' with
      ⟨hrank, hclash⟩ | ⟨hrank, hclash⟩
    · exact apply_comm hs hrank hclash
    · exact (apply_comm hs hrank hclash).symm
  rw [← cutOrder_map_fst 0 bs, ← cutOrder_map_fst 0 bs', List.foldl_map, List.foldl_map]
  refine foldl_eq_of_pairwise (G := fun s => s.MovedAlong r)
    (P := fun x y => Applied (batchOf bs) x y ∨ Applied (batchOf bs') x y) hperm
    ((cutOrder_pairwise 0 bs).imp .inl) ((cutOrder_pairwise 0 bs').imp .inr) ?_ ?_ hs
  · intro x hx s hs
    refine hs.apply fun source target he => hmoves source target ?_
    exact List.mem_of_getElem? (he ▸ hplace x hx)
  · rintro x hx y hy (h | h) (h' | h') s hs
    · exact absurd h' h.asymm
    · exact hswap x hx y hy h h' s hs
    · exact (hswap y hy x hx h' h s hs).symm
    · exact absurd h' h.asymm

end Shape

end StagedEdits
