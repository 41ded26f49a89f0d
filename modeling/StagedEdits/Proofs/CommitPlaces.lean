import StagedEdits.Commit.Commit
import StagedEdits.Proofs.NormalPath
import StagedEdits.Proofs.PlainDisk

set_option autoImplicit false

/-! # Where a commit works

A commit works below the root of a project: at the paths of its snapshot, beside them where it
stages new contents, and beside them where it moves files aside. If no link is below the root nor on
the way to it, each of these paths leads to the place of its own names, so two of them lead to one
place only if they are the same.

Main definitions: `FilePath.Below`, `Disk.Clear`. Main statements: `FilePath.Below.addSuffix`,
`Normalized.below`, `Normalized.eq_append`, `targetOf_below`. -/

namespace StagedEdits

/-! ## Paths below a root -/

namespace FilePath

/-- That `p` is a plain path which goes on where `root` ends. -/
structure Below (root p : FilePath) : Prop where
  slashes : p.slashes = root.slashes
  plain : p.Plain
  top : root.names <+: p.names
  ne : p.names ≠ root.names

variable {root p q : FilePath} {ending : String}

namespace Below

theorem names_ne_nil (hp : root.Below p) : p.names ≠ [] := by
  intro h
  have htop := hp.top
  rw [h, List.prefix_nil] at htop
  exact hp.ne (h.trans htop.symm)

theorem eq_of_names (hp : root.Below p) (hq : root.Below q) (h : p.names = q.names) : p = q := by
  have hs : p.slashes = q.slashes := hp.slashes.trans hq.slashes.symm
  cases p
  cases q
  cases hs
  cases h
  rfl

/-- The directory that a path below a root is in is the root or below it. -/
theorem top_dropLast (hp : root.Below p) : root.names <+: p.names.dropLast := by
  obtain ⟨pre, n, hcat⟩ := List.eq_nil_or_concat p.names |>.resolve_left hp.names_ne_nil
  rw [List.concat_eq_append] at hcat
  have htop := hp.top
  rw [hcat] at htop ⊢
  rw [List.dropLast_concat]
  rcases List.prefix_concat_iff.1 htop with h | h
  · exact absurd (hcat.trans h.symm) hp.ne
  · exact h

/-- An ending of three characters or more keeps a path below its root. -/
theorem addSuffix (hp : root.Below p) (hlong : 2 < ending.toList.length)
    (hnul : '\x00' ∉ ending.toList) : root.Below (p.addSuffix ending) := by
  have hlast : p.name ∈ p.names := by
    obtain ⟨pre, n, hcat⟩ := List.eq_nil_or_concat p.names |>.resolve_left hp.names_ne_nil
    rw [List.concat_eq_append] at hcat
    simp [name, hcat]
  have hnuls : ∀ n ∈ p.names, '\x00' ∉ n.toList := fun n hn hc => by
    have hany := hp.plain.nul
    rw [hasNul, List.any_eq_false] at hany
    exact hany n hn (List.contains_iff_mem.2 hc)
  have hshort : ∀ n : String, n.toList.length ≤ 2 → p.name ++ ending ≠ n := by
    rintro n hn rfl
    rw [String.toList_append, List.length_append] at hn
    omega
  refine ⟨hp.slashes, ⟨?_, ?_⟩, ?_, ?_⟩
  · intro n hn
    rcases List.mem_append.1 hn with hn | hn
    · exact hp.plain.names n ((List.dropLast_prefix _).subset hn)
    · rw [List.mem_singleton.1 hn]
      exact ⟨hshort "" (by decide), hshort "." (by decide), hshort ".." (by decide)⟩
  · rw [hasNul, List.any_eq_false]
    intro n hn hc
    rcases List.mem_append.1 hn with hn | hn
    · exact hnuls n ((List.dropLast_prefix _).subset hn) (List.contains_iff_mem.1 hc)
    · rw [List.mem_singleton.1 hn, List.contains_iff_mem, String.toList_append,
        List.mem_append] at hc
      exact hc.elim (hnuls _ hlast) hnul
  · exact hp.top_dropLast.trans (List.prefix_append _ _)
  · intro h
    have hlen := hp.top_dropLast.length_le
    rw [← h, FilePath.addSuffix, List.length_append] at hlen
    simp only [List.length_cons, List.length_nil] at hlen
    omega

end Below

theorem addSuffix_inj (hp : p.names ≠ []) (hq : q.names ≠ [])
    (h : p.addSuffix ending = q.addSuffix ending) : p = q := by
  obtain ⟨pre, n, hcat⟩ := List.eq_nil_or_concat p.names |>.resolve_left hp
  obtain ⟨pre', n', hcat'⟩ := List.eq_nil_or_concat q.names |>.resolve_left hq
  rw [List.concat_eq_append] at hcat hcat'
  obtain ⟨hslashes, hnames⟩ := FilePath.mk.inj h
  rw [name, name, hcat, hcat', List.dropLast_concat, List.dropLast_concat, List.getLast?_concat,
    List.getLast?_concat] at hnames
  obtain ⟨hpre, hlast⟩ := List.append_inj' hnames rfl
  have hn : n = n' := by
    have hchars := congrArg String.toList (List.cons.inj hlast).1
    rw [Option.getD_some, Option.getD_some, String.toList_append, String.toList_append,
      List.append_cancel_right_eq] at hchars
    exact String.toList_injective hchars
  cases p
  cases q
  simp_all

end FilePath

open FilePath

variable {root p q : FilePath}

theorem FilePath.Below.staging (hp : root.Below p) : root.Below (stagingPath p) :=
  hp.addSuffix (by decide) (by decide)

theorem FilePath.Below.backup (hp : root.Below p) : root.Below (backupPath p) :=
  hp.addSuffix (by decide) (by decide)

/-- No staged file is where a file is moved aside to. -/
theorem stagingPath_ne_backupPath : stagingPath p ≠ backupPath q := by
  intro h
  obtain ⟨-, hnames⟩ := FilePath.mk.inj h
  have hlast := (List.append_inj' hnames rfl).2
  have hchars := congrArg (fun s => s.toList.getLast?) (List.cons.inj hlast).1
  simp [stagingEnding, backupEnding] at hchars

/-! ## Disks without links there -/

namespace Disk

variable {d d' : Disk}

/-- That no link is at `top`, on the way to it or below it. -/
def Clear (d : Disk) (top : Place) : Prop :=
  ∀ q target, d.node? q = some (.link target) → ¬q <+: top ∧ ¬top <+: q

theorem Clear.unlinked (h : d.Clear root.names) (hp : root.Below p) : d.Unlinked p.names := by
  intro r target hr hlink
  obtain ⟨habove, hbelow⟩ := h r target hlink
  rcases List.prefix_or_prefix_of_prefix hr hp.top with hpre | hpre
  · exact habove hpre
  · exact hbelow hpre

theorem Clear.unlinked_top (h : d.Clear root.names) : d.Unlinked root.names :=
  fun r target hr hlink => (h r target hlink).1 hr

theorem KeepsWays.clear {top : Place} (hways : d.KeepsWays d') (h : d.Clear top) : d'.Clear top :=
  fun q target hq => h q target (hways.link q target hq)

/-! ## Targets -/

/-- Resolving pieces that name something finds no link to follow, if there is none. -/
theorem follow_plain {depth : Nat} {openLinks : List Place} (here : Place) {names : List String}
    (hplain : ∀ n ∈ names, n ≠ "" ∧ n ≠ "." ∧ n ≠ "..")
    (hlinks : ∀ r target, r <+: names → d.node? (here ++ r) ≠ some (.link target)) :
    d.follow depth openLinks here names = .place (here ++ names) := by
  induction names generalizing here with
  | nil => rw [follow, List.append_nil]
  | cons n rest ih =>
    obtain ⟨hempty, hdot, hup⟩ := hplain n List.mem_cons_self
    have hidle : (n == "" || n == ".") = false := by simp [hempty, hdot]
    have hclimbs : (n == "..") = false := by simp [hup]
    have hnone : d.linkAt? here n = none := by
      unfold linkAt?
      split
      · rfl
      · split
        · rename_i target hlink
          exact absurd hlink (hlinks [n] target ⟨rest, rfl⟩)
        · rfl
    rw [follow, hidle, hclimbs, hnone]
    have hrest := ih (here ++ [n]) (fun m hm => hplain m (List.mem_cons_of_mem n hm))
      fun r target hr => by
        rw [List.append_assoc]
        exact hlinks (n :: r) target ((List.prefix_cons_inj n).2 hr)
    rw [List.append_assoc] at hrest
    exact hrest

theorem resolve_plain (hp : p.Plain) (hun : d.Unlinked p.names) : d.resolve p = .ok ⟨1, p.names⟩ := by
  have hfollow : d.follow (d.entries.length + 1) [] [] p.names = .place ([] ++ p.names) :=
    follow_plain [] hp.names hun
  rw [resolve, hfollow, List.nil_append]

end Disk

/-- Each path below a root that no link is near leads to itself. -/
theorem targetOf_below {d : Disk} {path : String} (hroot : root.Plain) (h : d.Clear root.names)
    (hp : root.Below (root.joinText path)) : targetOf d root path = .ok ⟨path, root.joinText path⟩ := by
  have hwithin : d.isWithin root (root.joinText path) = .ok true := by
    have htop : root.names.isPrefixOf (root.joinText path).names = true :=
      List.isPrefixOf_iff_prefix.2 hp.top
    rw [Disk.isWithin, hp.plain.nul, hroot.nul, Disk.resolve_plain hp.plain (h.unlinked hp),
      Disk.resolve_plain hroot h.unlinked_top]
    simp [bind, Except.bind, pure, Except.pure, htop]
  rw [targetOf, hwithin]

/-! ## Paths of a project -/

theorem joinWith_append_last {sep : Char} {ws : List (List Char)} {w : List Char}
    (e : List Char) : joinWith sep (ws ++ [w ++ e]) = joinWith sep (ws ++ [w]) ++ e := by
  induction ws with
  | nil => rfl
  | cons v ws ih => cases ws <;> simp_all [joinWith]

namespace Normalized

variable {a b : String} {ending : String}

theorem joinText_names (ha : Normalized a) :
    (root.joinText a).names = root.names ++ (FilePath.ofText a).names :=
  FilePath.join_names ha.names.1

theorem joinText_slashes (ha : Normalized a) : (root.joinText a).slashes = root.slashes := by
  rw [joinText, join, ha.names.1]
  rfl

/-- A path that passed the guard leads below every plain root. -/
theorem below (ha : Normalized a) (hroot : root.Plain) : root.Below (root.joinText a) := by
  obtain ⟨-, hne, hnames⟩ := ha.names
  refine ⟨ha.joinText_slashes, ⟨?_, ?_⟩, ?_, ?_⟩
  · rw [ha.joinText_names]
    intro n hn
    rcases List.mem_append.1 hn with hn | hn
    · exact hroot.names n hn
    · obtain ⟨hempty, hdot, hup, -⟩ := hnames n hn
      exact ⟨hempty, hdot, hup⟩
  · rw [hasNul, ha.joinText_names, List.any_append, Bool.or_eq_false_iff]
    refine ⟨hroot.nul, List.any_eq_false.2 fun n hn hc => ?_⟩
    exact (hnames n hn).2.2.2 (List.contains_iff_mem.1 hc)
  · rw [ha.joinText_names]
    exact List.prefix_append _ _
  · rw [ha.joinText_names]
    exact fun h => hne (List.append_right_eq_self.1 h)

theorem joinText_inj (ha : Normalized a) (hb : Normalized b)
    (h : root.joinText a = root.joinText b) : a = b := by
  have hnames := congrArg FilePath.names h
  rw [ha.joinText_names, hb.joinText_names] at hnames
  exact ha.eq_of_names hb (List.append_cancel_left hnames)

/-- Two paths lead to a file and to the same file with an ending only if the ending is on the path
    as well. -/
theorem eq_append (ha : Normalized a) (hb : Normalized b)
    (h : root.joinText b = (root.joinText a).addSuffix ending) : b = a ++ ending := by
  obtain ⟨segments, hne, -, rfl, hsegments⟩ := ha.ofText
  obtain ⟨segments', -, -, rfl, hsegments'⟩ := hb.ofText
  obtain ⟨pre, s, rfl⟩ := List.eq_nil_or_concat segments |>.resolve_left hne
  have hnames := congrArg FilePath.names h
  rw [hb.joinText_names, addSuffix, name, ha.joinText_names, hsegments, hsegments'] at hnames
  rw [List.concat_eq_append] at hnames ⊢
  have hlist : segments'.map String.ofList = (pre ++ [s ++ ending.toList]).map String.ofList := by
    have hcut : segments'.map String.ofList =
        pre.map String.ofList ++ [String.ofList s ++ ending] := by
      have hcut : root.names ++ segments'.map String.ofList =
          root.names ++ (pre.map String.ofList ++ [String.ofList s ++ ending]) := by
        simpa [← List.append_assoc, List.dropLast_concat] using hnames
      exact List.append_cancel_left hcut
    rw [hcut, List.map_append, List.map_singleton, String.ofList_append, String.ofList_toList]
  have hinj : ∀ x y : List Char, String.ofList x = String.ofList y → x = y := fun x y hxy => by
    simpa using congrArg String.toList hxy
  rw [(List.map_inj_right hinj).1 hlist, joinWith_append_last, String.ofList_append,
    String.ofList_toList]

end Normalized

end StagedEdits
