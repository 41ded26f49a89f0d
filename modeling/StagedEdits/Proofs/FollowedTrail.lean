import Mathlib.Data.List.Perm.Subperm
import StagedEdits.Commit.Commit
import StagedEdits.Proofs.NamedPlaces

set_option autoImplicit false

/-! # Followed trails

Resolving a path comes to the end of its trail, if the path has one and no link on the disk is too
deep down to be looked up. A link that is entered while others are open has a shorter trail than
each of them, so it is none of them, and there are not more of them open than there are entries.

Main definitions: `Disk.LinksInReach`, `Disk.OpenAround`, `Disk.LeadsBelow`. Main statements:
`Disk.follow_of_trail`, `Disk.prefix_of_isWithin`, `Disk.LeadsBelow.beside`. -/

namespace StagedEdits

namespace Disk

variable {d d' : Disk}

/-- That each link of `d` is in a directory, and that the path of its own place is not too long. -/
def LinksInReach (d : Disk) : Prop := ∀ q n target, d.node? (q ++ [n]) = some (.link target) →
  d.node? q = some .dir ∧ FilePath.isLong ⟨1, q ++ [n]⟩ = false

theorem LinksInReach.grow (h : d.LinksInReach) (hgrown : d.Grown d') : d'.LinksInReach := by
  intro q n target hnode
  obtain ⟨hdir, hfit⟩ := h q n target (hgrown.link_iff.1 hnode)
  exact ⟨hgrown.keepsWays.dir q hdir, hfit⟩

/-- That each of `openLinks`, the links that are open, has a trail of its own, with at least `k`
    links. -/
structure OpenAround (d : Disk) (k : Nat) (openLinks : List Place) : Prop where
  nodup : openLinks.Nodup
  trail : ∀ q ∈ openLinks, ∃ here n target i mid, q = here ++ [n] ∧
    d.node? (here ++ [n]) = some (.link target) ∧
    d.Trail AnyPlace i (linkStart here target) (piecesOf target) mid ∧ k ≤ i

namespace OpenAround

variable {k : Nat} {openLinks : List Place}

theorem less (h : d.OpenAround k openLinks) {j : Nat} (hj : j ≤ k) : d.OpenAround j openLinks := by
  refine ⟨h.nodup, fun q hq => ?_⟩
  obtain ⟨here, n, target, i, mid, rfl, hnode, htrail, hk⟩ := h.trail q hq
  exact ⟨here, n, target, i, mid, rfl, hnode, htrail, by omega⟩

/-- There are not more links open than there are entries. -/
theorem length_le (h : d.OpenAround k openLinks) : openLinks.length ≤ d.entries.length := by
  have hsub : openLinks ⊆ d.entries.map Prod.fst := by
    intro q hq
    obtain ⟨here, n, target, -, -, rfl, hnode, -⟩ := h.trail q hq
    rw [node?, if_neg (by simp)] at hnode
    exact List.mem_map_of_mem (f := Prod.fst) (lookup_mem hnode)
  simpa using (List.subperm_of_subset h.nodup hsub).length_le

/-- A link with a shorter trail is not open yet. -/
theorem not_mem (h : d.OpenAround k openLinks) {here mid : Place} {n target : String} {i : Nat}
    (hnode : d.node? (here ++ [n]) = some (.link target))
    (htrail : d.Trail AnyPlace i (linkStart here target) (piecesOf target) mid) (hi : i < k) :
    here ++ [n] ∉ openLinks := by
  intro hmem
  obtain ⟨here', n', target', j, mid', heq, hnode', htrail', hj⟩ := h.trail _ hmem
  obtain ⟨rfl, hn⟩ := List.append_inj' heq rfl
  cases hn
  rw [hnode] at hnode'
  cases hnode'
  have hcount := (htrail.unique htrail').1
  omega

/-- A link with a shorter trail may be opened. -/
theorem cons (h : d.OpenAround k openLinks) {here mid : Place} {n target : String} {i : Nat}
    (hnode : d.node? (here ++ [n]) = some (.link target))
    (htrail : d.Trail AnyPlace i (linkStart here target) (piecesOf target) mid) (hi : i < k) :
    d.OpenAround i ((here ++ [n]) :: openLinks) := by
  refine ⟨List.nodup_cons.2 ⟨h.not_mem hnode htrail hi, h.nodup⟩, fun q hq => ?_⟩
  rcases List.mem_cons.1 hq with rfl | hq
  · exact ⟨here, n, target, i, mid, rfl, hnode, htrail, le_rfl⟩
  · exact (h.less hi.le).trail q hq

end OpenAround

/-- What is found of a link on a trail. -/
theorem linkAt?_of_link (hreach : d.LinksInReach) {here : Place} {n target : String}
    (hn : IsStep n) (hnode : d.node? (here ++ [n]) = some (.link target)) :
    d.linkAt? here n = some target := by
  obtain ⟨hdir, hfit⟩ := hreach _ _ _ hnode
  have hno : (isLongName n || FilePath.isLong ⟨1, here ++ [n]⟩ || !isDirNode (d.node? here)) =
      false := by
    rw [hn.2.2.2, hfit, isDirNode_iff.2 hdir]
    rfl
  rw [linkAt?, hno, if_neg (by nofun), hnode]

theorem linkAt?_of_not_link {here : Place} {n : String}
    (hnode : ∀ target, d.node? (here ++ [n]) ≠ some (.link target)) : d.linkAt? here n = none := by
  unfold linkAt?
  split
  · rfl
  · split
    · rename_i target hlink
      exact absurd hlink (hnode target)
    · rfl

/-- **Following links comes to the end of the trail**, if `depth` is greater than the number of
    entries of the disk. -/
theorem follow_of_trail (hreach : d.LinksInReach) {k : Nat} {here place : Place}
    {pieces : List String} (h : d.Trail AnyPlace k here pieces place)
    {openLinks : List Place} (hopen : d.OpenAround k openLinks) {depth : Nat}
    (hdepth : d.entries.length < depth + openLinks.length) :
    d.follow depth openLinks here pieces = .place place := by
  induction h generalizing openLinks depth with
  | nil => rw [follow]
  | stay _ hn _ ih =>
    rw [follow, if_pos (by simpa using hn)]
    exact ih hopen hdepth
  | up _ _ ih =>
    rw [follow, if_neg (by decide), if_pos (by decide)]
    exact ih hopen hdepth
  | down _ hn hnode _ ih =>
    obtain ⟨hempty, hdot, hup, -⟩ := hn
    rw [follow, if_neg (by simp [hempty, hdot]), if_neg (by simpa using hup),
      linkAt?_of_not_link hnode]
    exact ih hopen hdepth
  | @link i j here mid place n target rest _ hn hnode ht _ iht ih =>
    obtain ⟨hempty, hdot, hup, -⟩ := id hn
    have hfresh : openLinks.contains (here ++ [n]) = false := by
      simpa using hopen.not_mem hnode ht (by omega)
    have hlength := hopen.length_le
    obtain ⟨depth, rfl⟩ : ∃ m, depth = m + 1 := ⟨depth - 1, by omega⟩
    have htarget : d.follow depth ((here ++ [n]) :: openLinks) (linkStart here target)
        (piecesOf target) = .place mid :=
      iht (hopen.cons hnode ht (by omega)) (by rw [List.length_cons]; omega)
    rw [follow, if_neg (by simp [hempty, hdot]), if_neg (by simpa using hup),
      linkAt?_of_link hreach hn hnode]
    dsimp only
    rw [hfresh, if_neg Bool.false_ne_true]
    have htarget' : d.follow depth ((here ++ [n]) :: openLinks)
        (if (FilePath.ofText target).isAbsolute then [] else here) (piecesOf target) =
        .place mid := htarget
    rw [htarget']
    exact ih (hopen.less (by omega)) hdepth

theorem resolve_of_trail (hreach : d.LinksInReach) {p : FilePath} {k : Nat} {place : Place}
    (h : d.Trail AnyPlace k [] p.names place) : d.resolve p = .ok ⟨1, place⟩ := by
  have hfollow : d.follow (d.entries.length + 1) [] [] p.names = .place place :=
    follow_of_trail hreach h ⟨List.nodup_nil, nofun⟩ (by simp)
  rw [resolve, hfollow]

/-- What is within a root is below it. -/
theorem prefix_of_isWithin (hreach : d.LinksInReach) {root p : FilePath} {j k : Nat}
    {top place : Place} (hroot : d.Trail AnyPlace j [] root.names top)
    (hp : d.Trail AnyPlace k [] p.names place) (h : d.isWithin root p = .ok true) :
    top <+: place := by
  unfold isWithin at h
  split at h
  · cases h
  · rw [resolve_of_trail hreach hp] at h
    simp only [bind, Except.bind] at h
    split at h
    · cases h
    · rw [resolve_of_trail hreach hroot] at h
      exact List.isPrefixOf_iff_prefix.1 (Bool.and_eq_true_iff.1 (Except.ok.inj h)).2

theorem isWithin_of_prefix (hreach : d.LinksInReach) {root p : FilePath} {j k : Nat}
    {top place : Place} (hroot : d.Trail AnyPlace j [] root.names top)
    (hp : d.Trail AnyPlace k [] p.names place) (hnul : root.hasNul = false)
    (hnul' : p.hasNul = false) (h : top <+: place) : d.isWithin root p = .ok true := by
  rw [isWithin, hnul, hnul', resolve_of_trail hreach hp, resolve_of_trail hreach hroot]
  simp [bind, Except.bind, pure, Except.pure, List.isPrefixOf_iff_prefix.2 h]

/-! ## Places below the root -/

/-- That `p` leads below `top`: where its trail ends if it has one, and where a link that it names
    stands. The place `top` itself is not named. -/
structure LeadsBelow (d : Disk) (top : Place) (p : FilePath) : Prop where
  trail : ∀ k q, d.Trail AnyPlace k [] p.names q → top <+: q
  link : ∀ q target, d.Names p q → d.node? q = some (.link target) → top <+: q
  ne : ∀ q, d.Names p q → q ≠ top

namespace LeadsBelow

variable {top q : Place} {p : FilePath}

theorem named (h : d.LeadsBelow top p) (hq : d.Names p q) : top <+: q := by
  by_cases hlink : ∃ target, d.node? q = some (.link target)
  · obtain ⟨target, hlink⟩ := hlink
    exact h.link q target hq hlink
  · obtain ⟨pre, n, k, dir, hcat, hstep, htrail, rfl⟩ := hq
    refine h.trail (k + 0) (dir ++ [n]) (hcat ▸ htrail.append ?_)
    exact .down trivial hstep (fun target hl => hlink ⟨target, hl⟩) (.nil trivial)

/-- What stands beside a place below another one is below it too. -/
theorem beside {ending : String} (h : d.LeadsBelow top p) (hq : d.Names (p.addSuffix ending) q) :
    top <+: q := by
  rcases List.eq_nil_or_concat p.names with hnil | ⟨pre, n, hcat⟩
  · have htop := h.trail 0 [] (by rw [hnil]; exact .nil trivial)
    rw [List.prefix_nil.1 htop]
    exact List.nil_prefix
  · rw [List.concat_eq_append] at hcat
    obtain ⟨pre', m, k, dir, hcat', hstep, htrail, rfl⟩ := hq
    rw [FilePath.addSuffix_names hcat] at hcat'
    obtain ⟨rfl, hm⟩ := List.append_inj' hcat' rfl
    obtain rfl : n ++ ending = m := (List.cons.inj hm).1
    suffices hdir : top <+: dir from hdir.trans (List.prefix_append dir _)
    by_cases hstay : n = "" ∨ n = "."
    · exact h.trail (k + 0) dir (hcat ▸ htrail.append (.stay trivial hstay (.nil trivial)))
    · by_cases hup : n = ".."
      · subst hup
        have htop := h.trail (k + 0) dir.dropLast
          (hcat ▸ htrail.append (.up trivial (.nil trivial)))
        exact htop.trans (List.dropLast_prefix dir)
      · obtain ⟨hempty, hdot⟩ := not_or.1 hstay
        have hshort : isLongName n = false := by
          have hlong := hstep.2.2.2
          unfold isLongName at hlong ⊢
          rw [String.utf8ByteSize_append] at hlong
          simp only [decide_eq_false_iff_not] at hlong ⊢
          omega
        have hnamed : d.Names p (dir ++ [n]) :=
          ⟨pre, n, k, dir, hcat, ⟨hempty, hdot, hup, hshort⟩, htrail, rfl⟩
        rcases List.prefix_concat_iff.1 (h.named hnamed) with heq | hpre
        · exact absurd heq.symm (h.ne _ hnamed)
        · exact hpre

end LeadsBelow

end Disk

end StagedEdits
