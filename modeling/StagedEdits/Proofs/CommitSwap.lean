import StagedEdits.Proofs.CommitStaging

set_option autoImplicit false

/-! # What the second phase leaves on the disk

At every moment of the second phase each file of the disk that it started from is where it was or
where it was moved aside to, and each staged file is beside its target or at it. Whatever moment it
is taken back at, every file that was moved aside is restored and nothing else is left.

Main definition: `Swapped`. Main statements: `restoreAll_node`, `moveAside_goes`, `swapAll_sound`,
`rollBack_grown`. -/

namespace StagedEdits

open FilePath

variable {sabotage : Sabotage} {root p : FilePath}

/-! ## Moved files -/

theorem node?_move {d : Disk} {a b q : Place} {n : Node} (ha : a ≠ []) (hb : b ≠ []) :
    ((d.drop a).put b n).node? q = if q = b then some n else if q = a then none else d.node? q := by
  rw [Disk.node?_put _ hb, Disk.node?_drop _ ha]

theorem keepsWays_move {d : Disk} {a b : Place} {bytes : ByteArray} (ha : a ≠ []) (hb : b ≠ [])
    (hfile : d.node? a = some (.file bytes)) (hdir : d.node? b ≠ some .dir) :
    d.KeepsWays ((d.drop a).put b (.file bytes)) := by
  have hdrop : d.KeepsWays (d.drop a) := Disk.keepsWays_drop ha (by simp [hfile])
  refine hdrop.trans (Disk.keepsWays_put hb ?_ bytes)
  rw [Disk.node?_drop d ha]
  split
  · nofun
  · exact hdir

/-- A file whose backup is there is moved back to its place, if that is free. -/
theorem restore_disk {v v' : Drive} {f : Option DiskFault} {bytes : ByteArray} (hp : root.Below p)
    (hclear : v.disk.Clear root.names) (hne : backupPath p ≠ p)
    (hspared : sabotage v.performed.length (.move (backupPath p) p) = none)
    (hreach : v.disk.Reaches p) (hreach' : v.disk.Reaches (backupPath p))
    (hnone : v.disk.node? p.names = none)
    (hfile : v.disk.node? (backupPath p).names = some (.file bytes))
    (h : v.perform sabotage (.move (backupPath p) p) = (v', f)) :
    v'.disk = (v.disk.drop (backupPath p).names).put p.names (.file bytes) := by
  rcases Drive.perform_move hp.backup hclear hp hne h with
    ⟨-, -, -, -, bytes', hfile', hdisk⟩ | ⟨-, -, hnot⟩
  · rw [hfile] at hfile'
    cases hfile'
    exact hdisk
  · exact absurd ⟨hreach', hreach, by simp [hnone], bytes, hfile⟩ (hnot hspared)

/-- Two files, neither the backup of the other, have no place in common with their backups. -/
theorem places_apart {q : FilePath} (hp : root.Below p) (hq : root.Below q) (hne : p ≠ q)
    (hpq : backupPath p ≠ q) (hqp : backupPath q ≠ p) :
    (p.names ≠ q.names ∧ p.names ≠ (backupPath q).names) ∧
      (backupPath p).names ≠ q.names ∧ (backupPath p).names ≠ (backupPath q).names := by
  refine ⟨⟨fun h => hne (hp.eq_of_names hq h), fun h => ?_⟩, fun h => ?_, fun h => ?_⟩
  · exact hqp (hp.eq_of_names hq.backup h).symm
  · exact hpq (hp.backup.eq_of_names hq h)
  · exact hne (addSuffix_inj hp.names_ne_nil hq.names_ne_nil
      (hp.backup.eq_of_names hq.backup h))

/-- Files that are moved back are where they were before they were moved aside. -/
theorem restoreAll_node (hspared : ∀ n p, sabotage n (.move (backupPath p) p) = none) {v : Drive}
    (ms : List FilePath) (hbelow : ∀ m ∈ ms, root.Below m) (hclear : v.disk.Clear root.names)
    (hdistinct : ms.Nodup) (hapart : ∀ m ∈ ms, ∀ m' ∈ ms, backupPath m ≠ m')
    (hready : ∀ m ∈ ms, v.disk.Reaches m ∧ v.disk.Reaches (backupPath m) ∧
      v.disk.node? m.names = none ∧
      ∃ bytes, v.disk.node? (backupPath m).names = some (.file bytes)) :
    (∀ m ∈ ms, (restoreAll sabotage v ms).1.disk.node? m.names =
        v.disk.node? (backupPath m).names ∧
      (restoreAll sabotage v ms).1.disk.node? (backupPath m).names = none) ∧
    ∀ q, (∀ m ∈ ms, q ≠ m.names ∧ q ≠ (backupPath m).names) →
      (restoreAll sabotage v ms).1.disk.node? q = v.disk.node? q := by
  induction ms generalizing v with
  | nil => exact ⟨nofun, fun q _ => rfl⟩
  | cons m ms ih =>
    obtain ⟨hm, hdistinct⟩ := List.nodup_cons.1 hdistinct
    have hbm := hbelow m List.mem_cons_self
    obtain ⟨hreach, hreach', hnone, bytes, hfile⟩ := hready m List.mem_cons_self
    rw [restoreAll]
    dsimp only
    generalize hperform : v.perform sabotage (.move (backupPath m) m) = r
    obtain ⟨v', f⟩ := r
    have hne : backupPath m ≠ m := hapart m List.mem_cons_self m List.mem_cons_self
    have hdisk : v'.disk = (v.disk.drop (backupPath m).names).put m.names (.file bytes) :=
      restore_disk hbm hclear hne (hspared _ _) hreach hreach' hnone hfile hperform
    have hways : v.disk.KeepsWays v'.disk := hdisk ▸ keepsWays_move hbm.backup.names_ne_nil
      hbm.names_ne_nil hfile (by simp [hnone])
    have hnode : ∀ q, v'.disk.node? q = if q = m.names then some (.file bytes)
        else if q = (backupPath m).names then none else v.disk.node? q := fun q => by
      rw [hdisk, node?_move hbm.backup.names_ne_nil hbm.names_ne_nil]
    -- what the other files are moved from and to is none of the places of this one
    have hother : ∀ x ∈ ms, (x.names ≠ m.names ∧ x.names ≠ (backupPath m).names) ∧
        (backupPath x).names ≠ m.names ∧ (backupPath x).names ≠ (backupPath m).names := by
      intro x hx
      have hmem := List.mem_cons_of_mem m hx
      exact places_apart (hbelow x hmem) hbm (fun h => hm (h ▸ hx))
        (hapart x hmem m List.mem_cons_self) (hapart m List.mem_cons_self x hmem)
    obtain ⟨hback, hrest⟩ := ih (fun x hx => hbelow x (List.mem_cons_of_mem m hx))
      (hways.clear hclear) hdistinct
      (fun x hx y hy => hapart x (List.mem_cons_of_mem m hx) y (List.mem_cons_of_mem m hy))
      (fun x hx => by
        obtain ⟨hr, hr', hxnone, hxfile⟩ := hready x (List.mem_cons_of_mem m hx)
        obtain ⟨⟨h1, h2⟩, h3, h4⟩ := hother x hx
        rw [hnode, hnode, if_neg h1, if_neg h2, if_neg h3, if_neg h4]
        exact ⟨hways.reaches hr, hways.reaches hr', hxnone, hxfile⟩)
    have hnames : (backupPath m).names ≠ m.names := fun h => hne (hbm.backup.eq_of_names hbm h)
    constructor
    · intro x hx
      rcases List.mem_cons.1 hx with rfl | hx
      · rw [hrest x.names fun y hy => ⟨(hother y hy).1.1.symm, (hother y hy).2.1.symm⟩,
          hrest (backupPath x).names fun y hy => ⟨(hother y hy).1.2.symm, (hother y hy).2.2.symm⟩,
          hnode, hnode, if_pos rfl, if_neg hnames, if_pos rfl, hfile]
        exact ⟨rfl, rfl⟩
      · obtain ⟨hx1, hx2⟩ := hback x hx
        obtain ⟨-, h3, h4⟩ := hother x hx
        rw [hnode, if_neg h3, if_neg h4] at hx1
        exact ⟨hx1, hx2⟩
    · intro q hq
      obtain ⟨h1, h2⟩ := hq m List.mem_cons_self
      rw [hrest q fun x hx => hq x (List.mem_cons_of_mem m hx), hnode, if_neg h1, if_neg h2]

/-! ## Between two disks -/

/-- That `d` is the disk `e` on which the files `moved` were moved aside and the staged files of
    `placed` were moved in. -/
structure Swapped (e d : Disk) (moved placed : List FilePath) : Prop where
  aside : ∀ m ∈ moved, e.Reaches m ∧ e.Reaches (backupPath m) ∧
    (∃ bytes, e.node? m.names = some (.file bytes)) ∧ e.node? (backupPath m).names = none
  backup : ∀ m ∈ moved, d.node? (backupPath m).names = e.node? m.names
  gone : ∀ m ∈ moved, m ∉ placed → d.node? m.names = none
  target : ∀ p ∈ placed, e.Reaches p ∧ (p ∈ moved ∨ e.node? p.names = none)
  place : ∀ p ∈ placed, d.node? p.names = e.node? (stagingPath p).names ∧
    d.node? (stagingPath p).names = none
  other : ∀ q, (∀ m ∈ moved, q ≠ m.names ∧ q ≠ (backupPath m).names) →
    (∀ p ∈ placed, q ≠ p.names ∧ q ≠ (stagingPath p).names) → d.node? q = e.node? q
  distinct : moved.Nodup

/-- The files `moved` and `placed`, which a second phase has moved, are those that are to be deleted
    or written. -/
structure Moves (deletes writes moved placed : List FilePath) : Prop where
  moved : ∀ m ∈ moved, m ∈ deletes ++ writes
  placed : ∀ p ∈ placed, p ∈ writes

theorem Swapped.refl (e : Disk) : Swapped e e [] [] :=
  ⟨nofun, nofun, nofun, nofun, nofun, fun _ _ _ => rfl, List.nodup_nil⟩

section Swapping

variable {d₀ e d : Disk} {deletes writes moved placed : List FilePath} {all : List Pending}
  (hl : Layout d₀ root deletes writes) (hst : Staged d₀ e all)
  (hall : all.map (·.target.file) = writes)

include hst hall in
theorem staged_file (hp : p ∈ writes) : e.Reaches (stagingPath p) ∧
    ∃ w ∈ all, w.target.file = p ∧
      e.node? (stagingPath p).names = some (.file w.content.toUTF8) := by
  rw [← hall] at hp
  obtain ⟨w, hw, rfl⟩ := List.mem_map.1 hp
  obtain ⟨hreach, hfile⟩ := hst.file w hw
  exact ⟨hreach, w, hw, rfl, hfile⟩

namespace Swapped

variable (h : Swapped e d moved placed) (hmoves : Moves deletes writes moved placed)

include hst hall h hmoves in
/-- Where a disk that files were moved on differs from before, there was no directory and is none,
    nor a link. -/
theorem same_or (q : Place) : d.node? q = e.node? q ∨ e.node? q ≠ some .dir ∧
    (d.node? q = none ∨ ∃ bytes, d.node? q = some (.file bytes)) := by
  have hstaged : ∀ p ∈ placed, ∃ bytes, e.node? (stagingPath p).names = some (.file bytes) := by
    intro p hp
    obtain ⟨-, w, -, -, hfile⟩ := staged_file hst hall (hmoves.placed p hp)
    exact ⟨_, hfile⟩
  by_cases hplaced : ∃ p ∈ placed, q = p.names ∨ q = (stagingPath p).names
  · obtain ⟨p, hp, rfl | rfl⟩ := hplaced
    · obtain ⟨bytes, hfile⟩ := hstaged p hp
      refine .inr ⟨?_, .inr ⟨bytes, (h.place p hp).1.trans hfile⟩⟩
      rcases (h.target p hp).2 with hm | hnone
      · obtain ⟨bytes', hfile'⟩ := (h.aside p hm).2.2.1
        simp [hfile']
      · simp [hnone]
    · obtain ⟨bytes, hfile⟩ := hstaged p hp
      exact .inr ⟨by simp [hfile], .inl (h.place p hp).2⟩
  · by_cases hmoved : ∃ m ∈ moved, q = m.names ∨ q = (backupPath m).names
    · obtain ⟨m, hm, rfl | rfl⟩ := hmoved
      · obtain ⟨-, -, ⟨bytes, hfile⟩, -⟩ := h.aside m hm
        refine .inr ⟨by simp [hfile], .inl (h.gone m hm fun hp => hplaced ⟨m, hp, .inl rfl⟩)⟩
      · obtain ⟨-, -, ⟨bytes, hfile⟩, hnone⟩ := h.aside m hm
        exact .inr ⟨by simp [hnone], .inr ⟨bytes, (h.backup m hm).trans hfile⟩⟩
    · refine .inl (h.other q (fun m hm => ?_) fun p hp => ?_)
      · exact not_or.1 fun hq => hmoved ⟨m, hm, hq⟩
      · exact not_or.1 fun hq => hplaced ⟨p, hp, hq⟩

include hst hall h hmoves in
theorem keepsWays : e.KeepsWays d := by
  constructor
  · intro q hq
    rcases h.same_or hst hall hmoves q with hsame | ⟨hdir, -⟩
    · rw [hsame, hq]
    · exact absurd hq hdir
  · intro q target hq
    rcases h.same_or hst hall hmoves q with hsame | ⟨-, hnone | ⟨bytes, hfile⟩⟩
    · rw [← hsame, hq]
    · rw [hnone] at hq
      cases hq
    · rw [hfile] at hq
      cases hq

include hst hall h hmoves in
theorem reaches_iff : d.Reaches p ↔ e.Reaches p := by
  constructor
  · rintro ⟨hfits, hdirs⟩
    refine ⟨hfits, fun r hr hne => ?_⟩
    have hdir := hdirs r hr hne
    rcases h.same_or hst hall hmoves r with hsame | ⟨-, hnone | ⟨bytes, hfile⟩⟩
    · rw [← hsame, hdir]
    · rw [hnone] at hdir
      cases hdir
    · rw [hfile] at hdir
      cases hdir
  · exact (h.keepsWays hst hall hmoves).reaches

include hl h hmoves in
/-- A path of the commit where nothing was moved to yet is as it was, unless it was moved aside. -/
theorem untouched (hp : p ∈ deletes ++ writes) (hnew : p ∉ placed) (hm : p ∉ moved) :
    d.node? p.names = e.node? p.names := by
  refine h.other p.names (fun m hmem => ⟨fun hn => hm ?_, fun hn => ?_⟩)
    fun x hx => ⟨fun hn => hnew ?_, fun hn => ?_⟩
  · exact (hl.below p hp).eq_of_names (hl.below m (hmoves.moved m hmem)) hn ▸ hmem
  · exact hl.backup_ne (hmoves.moved m hmem) hp hn.symm
  · exact (hl.below p hp).eq_of_names (hl.below_write (hmoves.placed x hx)) hn ▸ hx
  · exact hl.staging_ne (hmoves.placed x hx) hp hn.symm

include hl hst hall in
/-- Beside a file that was not moved aside there is room for its backup: nothing was moved there,
    and nothing staged. -/
theorem room_for_backup (h : Swapped e d moved []) (hmoves : Moves deletes writes moved [])
    (hp : p ∈ deletes ++ writes) (hm : p ∉ moved)
    (hdir : d.node? (backupPath p).names ≠ some .dir) : e.node? (backupPath p).names = none := by
  have hsame : d.node? (backupPath p).names = e.node? (backupPath p).names := by
    refine h.other _ (fun m hmem => ⟨fun hn => ?_, fun hn => hm ?_⟩) nofun
    · exact hl.backup_ne hp (hmoves.moved m hmem) hn
    · exact hl.backup_inj hp (hmoves.moved m hmem) hn ▸ hmem
  have hstaged : ∀ w ∈ all, (backupPath p).names ≠ w.place := fun w hw hn =>
    hl.staging_ne_backup (hall ▸ List.mem_map_of_mem hw) hp hn.symm
  rcases hst.other _ hstaged with hq | ⟨-, hq⟩
  · rw [hq, (hl.backup p hp).1]
  · exact absurd (hsame.trans hq) hdir

include hl in
/-- Neither the place of another file nor that of its backup is one of a file's. -/
theorem apart (hmoves : Moves deletes writes moved placed) (hp : p ∈ deletes ++ writes)
    (hnew : p ∉ moved) {m : FilePath} (hm : m ∈ moved) :
    (m.names ≠ (backupPath p).names ∧ m.names ≠ p.names) ∧
      (backupPath m).names ≠ (backupPath p).names ∧ (backupPath m).names ≠ p.names := by
  have hmd := hmoves.moved m hm
  refine ⟨⟨(hl.backup_ne hp hmd).symm, fun hn => hnew ?_⟩, fun hn => hnew ?_, hl.backup_ne hmd hp⟩
  · exact (hl.below m hmd).eq_of_names (hl.below p hp) hn ▸ hm
  · exact hl.backup_inj hmd hp hn ▸ hm

include hl hst hall in
theorem afterAside (h : Swapped e d moved []) (hmoves : Moves deletes writes moved [])
    (hp : p ∈ deletes ++ writes) (hreach : d.Reaches p) (hreach' : d.Reaches (backupPath p))
    (hdir : d.node? (backupPath p).names ≠ some .dir) {bytes : ByteArray}
    (hfile : d.node? p.names = some (.file bytes)) :
    Swapped e ((d.drop p.names).put (backupPath p).names (.file bytes)) (moved ++ [p]) [] ∧
      Moves deletes writes (moved ++ [p]) [] := by
  have hbelow := hl.below p hp
  have hnames : p.names ≠ [] := hbelow.names_ne_nil
  have hbnames : (backupPath p).names ≠ [] := hbelow.backup.names_ne_nil
  have hm : p ∉ moved := fun hm => by
    rw [h.gone p hm (List.not_mem_nil)] at hfile
    cases hfile
  have hold : e.node? p.names = some (.file bytes) := by
    rw [← h.untouched hl hmoves hp List.not_mem_nil hm, hfile]
  have hroom := h.room_for_backup hl hst hall hmoves hp hm hdir
  have hnode : ∀ q, ((d.drop p.names).put (backupPath p).names (.file bytes)).node? q =
      if q = (backupPath p).names then some (.file bytes)
      else if q = p.names then none else d.node? q := fun q => node?_move hnames hbnames
  refine ⟨⟨?_, ?_, ?_, nofun, nofun, ?_, ?_⟩, ⟨?_, nofun⟩⟩
  · intro m hmem
    rcases List.mem_append.1 hmem with hmem | hmem
    · exact h.aside m hmem
    · rw [List.mem_singleton.1 hmem]
      exact ⟨(h.reaches_iff hst hall hmoves).1 hreach, (h.reaches_iff hst hall hmoves).1 hreach',
        ⟨bytes, hold⟩, hroom⟩
  · intro m hmem
    rw [hnode]
    rcases List.mem_append.1 hmem with hmem | hmem
    · obtain ⟨-, h1, h2⟩ := apart hl hmoves hp hm hmem
      rw [if_neg h1, if_neg h2, h.backup m hmem]
    · rw [List.mem_singleton.1 hmem, if_pos rfl, hold]
  · intro m hmem hplaced
    rw [hnode]
    rcases List.mem_append.1 hmem with hmem | hmem
    · obtain ⟨⟨h1, h2⟩, -⟩ := apart hl hmoves hp hm hmem
      rw [if_neg h1, if_neg h2, h.gone m hmem hplaced]
    · rw [List.mem_singleton.1 hmem, if_neg (hl.backup_ne hp hp).symm, if_pos rfl]
  · intro q hq _
    obtain ⟨h1, h2⟩ := hq p (by simp)
    rw [hnode, if_neg h2, if_neg h1]
    exact h.other q (fun m hmem => hq m (List.mem_append_left _ hmem)) nofun
  · rw [List.nodup_append]
    refine ⟨h.distinct, List.pairwise_singleton _ p, fun m hmem x hx hmx => hm ?_⟩
    rw [List.mem_singleton.1 hx] at hmx
    exact hmx ▸ hmem
  · intro m hmem
    rcases List.mem_append.1 hmem with hmem | hmem
    · exact hmoves.moved m hmem
    · exact List.mem_singleton.1 hmem ▸ hp

include hl h hmoves in
/-- What is staged for a path where nothing was moved to yet is still staged. -/
theorem still_staged (hp : p ∈ writes) (hnew : p ∉ placed) :
    d.node? (stagingPath p).names = e.node? (stagingPath p).names := by
  refine h.other _ (fun m hmem => ⟨?_, ?_⟩) fun x hx => ⟨?_, fun hn => hnew ?_⟩
  · exact hl.staging_ne hp (hmoves.moved m hmem)
  · exact hl.staging_ne_backup hp (hmoves.moved m hmem)
  · exact hl.staging_ne hp (List.mem_append_right _ (hmoves.placed x hx))
  · exact hl.staging_inj hp (hmoves.placed x hx) hn ▸ hx

include hl hst hall h hmoves in
/-- A path where a staged file can be moved to was moved aside, or nothing was there. -/
theorem moved_or_free (hp : p ∈ writes) (hnew : p ∉ placed)
    (hfree : ∀ bytes, e.node? p.names = some (.file bytes) → p ∈ moved)
    (hdir : d.node? p.names ≠ some .dir) : p ∈ moved ∨ e.node? p.names = none := by
  by_cases hm : p ∈ moved
  · exact .inl hm
  · rw [h.untouched hl hmoves (List.mem_append_right _ hp) hnew hm] at hdir
    cases hn : e.node? p.names with
    | none => exact .inr rfl
    | some node =>
      cases node with
      | file b => exact .inl (hfree b hn)
      | dir => exact absurd hn hdir
      | link target =>
        have hclear := hst.clear hl fun w hw => hall ▸ List.mem_map_of_mem hw
        exact absurd hn (hclear.unlinked (hl.below_write hp) _ _ List.prefix_rfl)

include hl hst hall h hmoves in
theorem afterIn (hp : p ∈ writes) (hnew : p ∉ placed)
    (hfree : e.Reaches p → ∀ bytes, e.node? p.names = some (.file bytes) → p ∈ moved)
    (hreach : d.Reaches p) (hdir : d.node? p.names ≠ some .dir) {bytes : ByteArray}
    (hfile : d.node? (stagingPath p).names = some (.file bytes)) :
    Swapped e ((d.drop (stagingPath p).names).put p.names (.file bytes)) moved (placed ++ [p]) ∧
      Moves deletes writes moved (placed ++ [p]) := by
  have hpd : p ∈ deletes ++ writes := List.mem_append_right _ hp
  have hbelow := hl.below_write hp
  have hnames : p.names ≠ [] := hbelow.names_ne_nil
  have hsnames : (stagingPath p).names ≠ [] := hbelow.staging.names_ne_nil
  have hreach₀ : e.Reaches p := (h.reaches_iff hst hall hmoves).1 hreach
  have hstaged := h.still_staged hl hmoves hp hnew
  have hgone := h.moved_or_free hl hst hall hmoves hp hnew (hfree hreach₀) hdir
  have hnode : ∀ q, ((d.drop (stagingPath p).names).put p.names (.file bytes)).node? q =
      if q = p.names then some (.file bytes)
      else if q = (stagingPath p).names then none else d.node? q := fun q => node?_move hsnames hnames
  refine ⟨⟨h.aside, ?_, ?_, ?_, ?_, ?_, h.distinct⟩, ⟨hmoves.moved, ?_⟩⟩
  · intro m hmem
    have hmd := hmoves.moved m hmem
    rw [hnode, if_neg (hl.backup_ne hmd hpd), if_neg (hl.staging_ne_backup hp hmd).symm,
      h.backup m hmem]
  · intro m hmem hplaced
    have hmd := hmoves.moved m hmem
    have hmp : m.names ≠ p.names := fun hn => hplaced (by
      rw [(hl.below m hmd).eq_of_names hbelow hn]
      simp)
    rw [hnode, if_neg hmp, if_neg (hl.staging_ne hp hmd).symm]
    exact h.gone m hmem fun hx => hplaced (List.mem_append_left _ hx)
  · intro x hx
    rcases List.mem_append.1 hx with hx | hx
    · exact h.target x hx
    · rw [List.mem_singleton.1 hx]
      exact ⟨hreach₀, hgone⟩
  · intro x hx
    rw [hnode, hnode]
    rcases List.mem_append.1 hx with hx | hx
    · have hxw := hmoves.placed x hx
      have hxp : x.names ≠ p.names := fun hn =>
        hnew ((hl.below_write hxw).eq_of_names hbelow hn ▸ hx)
      have hsx : (stagingPath x).names ≠ (stagingPath p).names := fun hn =>
        hnew (hl.staging_inj hxw hp hn ▸ hx)
      rw [if_neg hxp, if_neg (hl.staging_ne hp (List.mem_append_right _ hxw)).symm,
        if_neg (hl.staging_ne hxw hpd), if_neg hsx]
      exact h.place x hx
    · rw [List.mem_singleton.1 hx, if_pos rfl, if_neg (hl.staging_ne hp hpd), if_pos rfl, ← hstaged,
        hfile]
      exact ⟨rfl, rfl⟩
  · intro q hm hp'
    obtain ⟨h1, h2⟩ := hp' p (by simp)
    rw [hnode, if_neg h1, if_neg h2]
    exact h.other q hm fun x hx => hp' x (List.mem_append_left _ hx)
  · intro x hx
    rcases List.mem_append.1 hx with hx | hx
    · exact hmoves.placed x hx
    · exact List.mem_singleton.1 hx ▸ hp

end Swapped

/-! ## The loops of the second phase -/

/-- That the second phase `s` has done nothing to `e` but move files aside and in that are to be
    deleted or written. -/
structure Swap.Sound (s : Swap) (e : Disk) (deletes writes : List FilePath) : Prop where
  swapped : Swapped e s.drive.disk s.moved s.placed
  moves : Moves deletes writes s.moved s.placed

variable (sabotage) in
/-- A file that is there is moved aside, unless that fails; where no file is, nothing happens. -/
theorem moveAside_cases {s : Swap} (hp : root.Below p) (hclear : s.drive.disk.Clear root.names)
    (hne : p ≠ backupPath p) :
    (∃ v f, moveAside sabotage s p = ({ s with drive := v }, .error f) ∧
      v.disk = s.drive.disk) ∨
    (moveAside sabotage s p = (s, .ok false) ∧ s.drive.disk.isFile p = .ok false) ∨
    ∃ v bytes, moveAside sabotage s p =
        ({ s with drive := v, moved := s.moved ++ [p] }, .ok true) ∧
      s.drive.disk.Reaches p ∧ s.drive.disk.Reaches (backupPath p) ∧
      s.drive.disk.node? (backupPath p).names ≠ some .dir ∧
      s.drive.disk.node? p.names = some (.file bytes) ∧
      v.disk = (s.drive.disk.drop p.names).put (backupPath p).names (.file bytes) := by
  unfold moveAside
  cases hfile : s.drive.disk.isFile p with
  | error f => exact .inl ⟨s.drive, f, rfl, rfl⟩
  | ok isThere =>
    cases isThere with
    | false => exact .inr (.inl ⟨rfl, rfl⟩)
    | true =>
      dsimp only
      generalize hperform : s.drive.perform sabotage (.move p (backupPath p)) = r
      obtain ⟨v, f⟩ := r
      rcases Drive.perform_move hp hclear hp.backup hne hperform with
        ⟨rfl, hreach, hreach', hdir, bytes, hbytes, hdisk⟩ | ⟨hf, hdisk, -⟩
      · exact .inr (.inr ⟨v, bytes, rfl, hreach, hreach', hdir, hbytes, hdisk⟩)
      · obtain ⟨g, rfl⟩ := Option.ne_none_iff_exists'.1 hf
        exact .inl ⟨v, g, rfl, hdisk⟩

/-- A file is moved aside if that is not made to fail and no directory stands where it goes. -/
theorem moveAside_goes {s : Swap} {bytes : ByteArray}
    (hspared : ∀ n, sabotage n (.move p (backupPath p)) = none) (hp : root.Below p)
    (hclear : s.drive.disk.Clear root.names) (hne : (backupPath p).names ≠ p.names)
    (hreach : s.drive.disk.Reaches p) (hreach' : s.drive.disk.Reaches (backupPath p))
    (hfile : s.drive.disk.node? p.names = some (.file bytes))
    (hdir : s.drive.disk.node? (backupPath p).names ≠ some .dir) :
    moveAside sabotage s p =
      ({ s with
          drive := s.drive.record
            ((s.drive.disk.drop p.names).put (backupPath p).names (.file bytes))
            (.move p (backupPath p)) none
          moved := s.moved ++ [p] }, .ok true) := by
  have hisFile : s.drive.disk.isFile p = .ok true :=
    Disk.looksLike_there hp.plain (hclear.unlinked hp) hreach hfile
  have hmove : s.drive.disk.moveFile p (backupPath p) = .ok _ :=
    (Disk.moveFile_plain hp.plain hp.backup.plain hp.names_ne_nil hp.backup.names_ne_nil
      (hclear.unlinked hp) (hclear.unlinked hp.backup) hne.symm).2
      ⟨hreach, hreach', hdir, bytes, hfile, rfl⟩
  simp only [moveAside, hisFile, Drive.perform, hspared, Disk.run, hmove]

/-- That a file of `e` that can be reached by `p` is among those that were moved aside. -/
def Covered (e : Disk) (moved : List FilePath) (p : FilePath) : Prop :=
  e.Reaches p → ∀ bytes, e.node? p.names = some (.file bytes) → p ∈ moved

include hl hst hall

theorem Swap.Sound.clear {s : Swap} (h : s.Sound e deletes writes) :
    s.drive.disk.Clear root.names :=
  (h.swapped.keepsWays hst hall h.moves).clear
    (hst.clear hl fun _ hw => hall ▸ List.mem_map_of_mem hw)

theorem moveAside_sound {s s' : Swap} {out : Except DiskFault Bool} (h : s.Sound e deletes writes)
    (hplaced : s.placed = []) (hp : p ∈ deletes ++ writes)
    (hr : moveAside sabotage s p = (s', out)) :
    s'.Sound e deletes writes ∧ s'.placed = [] ∧ (∃ more, s'.moved = s.moved ++ more) ∧
      ∀ b, out = .ok b → Covered e s'.moved p := by
  have hbelow := hl.below p hp
  have hclear := h.clear hl hst hall
  have hne : p ≠ backupPath p := fun hn => (hl.backup p hp).2 (hn ▸ hp)
  rcases moveAside_cases sabotage hbelow hclear hne with
    ⟨v, f, hout, hdisk⟩ | ⟨hout, hfile⟩ | ⟨v, bytes, hout, hreach, hreach', hdir, hbytes, hdisk⟩
  · rw [hr] at hout
    cases hout
    exact ⟨⟨hdisk ▸ h.swapped, h.moves⟩, hplaced, ⟨[], by simp⟩, nofun⟩
  · rw [hr] at hout
    cases hout
    refine ⟨h, hplaced, ⟨[], by simp⟩, fun _ _ hreach bytes hbytes => ?_⟩
    by_cases hm : p ∈ s.moved
    · exact hm
    · have hnode := h.swapped.untouched hl h.moves hp (by simp [hplaced]) hm
      have hreach' := (h.swapped.reaches_iff hst hall h.moves).2 hreach
      have htrue := (Disk.isFile_plain hbelow.plain (hclear.unlinked hbelow)).2
        ⟨hreach', bytes, hnode.trans hbytes⟩
      rw [hfile] at htrue
      cases htrue
  · rw [hr] at hout
    cases hout
    have hsw := h.swapped
    have hmv := h.moves
    rw [hplaced] at hsw hmv
    obtain ⟨hsw', hmv'⟩ := hsw.afterAside hl hst hall hmv hp hreach hreach' hdir hbytes
    refine ⟨⟨?_, ?_⟩, hplaced, ⟨[p], rfl⟩, fun _ _ _ _ _ => by simp⟩
    · dsimp only
      rwa [hdisk, hplaced]
    · dsimp only
      rwa [hplaced]

variable (sabotage) in
theorem moveDeleted_sound {s : Swap} {ts : List Target} (h : s.Sound e deletes writes)
    (hplaced : s.placed = []) (hts : ∀ t ∈ ts, t.file ∈ deletes ++ writes) :
    (moveDeleted sabotage s ts).1.Sound e deletes writes ∧
      (moveDeleted sabotage s ts).1.placed = [] := by
  induction ts generalizing s with
  | nil => exact ⟨h, hplaced⟩
  | cons t ts ih =>
    have hrest : ∀ x ∈ ts, x.file ∈ deletes ++ writes := fun x hx => hts x (List.mem_cons_of_mem t hx)
    unfold moveDeleted
    generalize hr : moveAside sabotage s t.file = r
    obtain ⟨s', out⟩ := r
    obtain ⟨hs', hplaced', -, -⟩ :=
      moveAside_sound hl hst hall h hplaced (hts t List.mem_cons_self) hr
    cases out with
    | error f => exact ⟨hs', hplaced'⟩
    | ok isThere =>
      cases isThere with
      | false => exact ih hs' hplaced' hrest
      | true => exact ih ⟨hs'.swapped, hs'.moves⟩ hplaced' hrest

variable (sabotage) in
theorem moveReplaced_sound {s : Swap} {ts : List Target} (h : s.Sound e deletes writes)
    (hplaced : s.placed = []) (hts : ∀ t ∈ ts, t.file ∈ deletes ++ writes) :
    (moveReplaced sabotage s ts).1.Sound e deletes writes ∧
      (moveReplaced sabotage s ts).1.placed = [] ∧
      (∃ more, (moveReplaced sabotage s ts).1.moved = s.moved ++ more) ∧
      ((moveReplaced sabotage s ts).2 = none →
        ∀ t ∈ ts, Covered e (moveReplaced sabotage s ts).1.moved t.file) := by
  induction ts generalizing s with
  | nil => exact ⟨h, hplaced, ⟨[], by simp [moveReplaced]⟩, nofun⟩
  | cons t ts ih =>
    unfold moveReplaced
    generalize hr : moveAside sabotage s t.file = r
    obtain ⟨s', out⟩ := r
    obtain ⟨hs', hplaced', ⟨more, hmore⟩, hcovered⟩ :=
      moveAside_sound hl hst hall h hplaced (hts t List.mem_cons_self) hr
    cases out with
    | error f => exact ⟨hs', hplaced', ⟨more, hmore⟩, nofun⟩
    | ok isThere =>
      obtain ⟨hsound, hnone, ⟨more', hmore'⟩, hall'⟩ :=
        ih hs' hplaced' fun x hx => hts x (List.mem_cons_of_mem t hx)
      refine ⟨hsound, hnone, ⟨more ++ more', ?_⟩, fun hdone x hx => ?_⟩
      · rw [← List.append_assoc, ← hmore, hmore']
      · rcases List.mem_cons.1 hx with rfl | hx
        · intro hreach bytes hbytes
          rw [hmore']
          exact List.mem_append_left _ (hcovered isThere rfl hreach bytes hbytes)
        · exact hall' hdone x hx

variable (sabotage) in
theorem moveIn_sound {s : Swap} {ts : List Target} (h : s.Sound e deletes writes)
    (hts : ∀ t ∈ ts, t.file ∈ writes) (hdistinct : (s.placed ++ ts.map (·.file)).Nodup)
    (hcovered : ∀ t ∈ ts, Covered e s.moved t.file) :
    (moveIn sabotage s ts).1.Sound e deletes writes ∧
      (moveIn sabotage s ts).1.moved = s.moved ∧
      ((moveIn sabotage s ts).2 = none →
        (moveIn sabotage s ts).1.placed = s.placed ++ ts.map (·.file)) := by
  induction ts generalizing s with
  | nil => exact ⟨h, rfl, fun _ => by simp [moveIn]⟩
  | cons t ts ih =>
    have hp : t.file ∈ writes := hts t List.mem_cons_self
    have hbelow := hl.below_write hp
    have hnew : t.file ∉ s.placed := fun hmem =>
      (List.nodup_append.1 hdistinct).2.2 _ hmem _ (by simp) rfl
    have hne : stagingPath t.file ≠ t.file := fun hn =>
      hl.staging_ne hp (List.mem_append_right _ hp) (congrArg FilePath.names hn)
    unfold moveIn
    generalize hperform : s.drive.perform sabotage (.move (stagingPath t.file) t.file) = r
    obtain ⟨v, f⟩ := r
    rcases Drive.perform_move hbelow.staging (h.clear hl hst hall) hbelow hne hperform with
      ⟨rfl, -, hreach, hdir, bytes, hbytes, hdisk⟩ | ⟨hf, hdisk, -⟩
    · obtain ⟨hsw, hmv⟩ := h.swapped.afterIn hl hst hall h.moves hp hnew
        (hcovered t List.mem_cons_self) hreach hdir hbytes
      rw [← hdisk] at hsw
      have hcat : s.placed ++ (t :: ts).map (·.file) =
          s.placed ++ [t.file] ++ ts.map (·.file) := by simp
      rw [hcat] at hdistinct ⊢
      dsimp only
      exact ih ⟨hsw, hmv⟩ (fun x hx => hts x (List.mem_cons_of_mem t hx)) hdistinct
        fun x hx => hcovered x (List.mem_cons_of_mem t hx)
    · obtain ⟨g, rfl⟩ := Option.ne_none_iff_exists'.1 hf
      exact ⟨⟨hdisk ▸ h.swapped, h.moves⟩, rfl, nofun⟩

variable (sabotage) in
/-- The second phase does nothing but move files aside and in, and it ends with all staged files
    moved in unless it fails. -/
theorem swapAll_sound {v : Drive} {ts us : List Target} (hdisk : v.disk = e)
    (hts : ∀ t ∈ ts, t.file ∈ deletes ++ writes) (hus : us.map (·.file) = writes) :
    (swapAll sabotage v ts us).1.Sound e deletes writes ∧
      ((swapAll sabotage v ts us).2 = none →
        (swapAll sabotage v ts us).1.placed = writes) := by
  have hstart : Swap.Sound ⟨v, [], [], ⟨[], []⟩⟩ e deletes writes :=
    ⟨hdisk ▸ Swapped.refl v.disk, ⟨nofun, nofun⟩⟩
  have husw : ∀ t ∈ us, t.file ∈ writes := fun t ht => hus ▸ List.mem_map_of_mem ht
  unfold swapAll
  obtain ⟨h₁, hplaced₁⟩ := moveDeleted_sound sabotage hl hst hall hstart rfl hts
  generalize moveDeleted sabotage ⟨v, [], [], ⟨[], []⟩⟩ ts = r₁ at h₁ hplaced₁
  obtain ⟨s₁, f₁⟩ := r₁
  cases f₁ with
  | some f => exact ⟨h₁, nofun⟩
  | none =>
    dsimp only at h₁ hplaced₁ ⊢
    obtain ⟨h₂, hplaced₂, -, hcovered⟩ := moveReplaced_sound sabotage hl hst hall h₁
      hplaced₁ fun t ht => List.mem_append_right _ (husw t ht)
    generalize moveReplaced sabotage s₁ us = r₂ at h₂ hplaced₂ hcovered
    obtain ⟨s₂, f₂⟩ := r₂
    cases f₂ with
    | some f => exact ⟨h₂, nofun⟩
    | none =>
      dsimp only at h₂ hplaced₂ hcovered ⊢
      have hdistinct : (s₂.placed ++ us.map (·.file)).Nodup := by
        rw [hplaced₂, hus]
        exact hl.distinct
      obtain ⟨h₃, -, hdone⟩ :=
        moveIn_sound sabotage hl hst hall h₂ husw hdistinct (hcovered rfl)
      refine ⟨h₃, fun hnone => ?_⟩
      rw [hdone hnone, hplaced₂, hus]
      rfl

omit hl in
/-- Where staged files are and were moved to there is no directory. -/
theorem Swap.Sound.not_dir {s : Swap} (h : s.Sound e deletes writes) {q : Place}
    (hq : q ∈ s.placed.map (·.names) ∨ q ∈ writes.map fun p => (stagingPath p).names) :
    s.drive.disk.node? q ≠ some .dir := by
  intro hdir
  have hold : e.node? q = some .dir := by
    rcases h.swapped.same_or hst hall h.moves q with hsame | ⟨-, hnone | ⟨bytes, hfile⟩⟩
    · rw [← hsame, hdir]
    · rw [hdir] at hnone
      cases hnone
    · rw [hdir] at hfile
      cases hfile
  rcases hq with hq | hq
  · obtain ⟨p, hp, rfl⟩ := List.mem_map.1 hq
    rcases (h.swapped.target p hp).2 with hm | hnone
    · obtain ⟨bytes, hfile⟩ := (h.swapped.aside p hm).2.2.1
      rw [hold] at hfile
      cases hfile
    · rw [hold] at hnone
      cases hnone
  · obtain ⟨p, hp, rfl⟩ := List.mem_map.1 hq
    obtain ⟨-, w, -, -, hfile⟩ := staged_file hst hall hp
    rw [hold] at hfile
    cases hfile

/-- That `v` is the disk of `s` without what was moved in and what is staged. -/
structure Swap.Cleared (s : Swap) (writes : List FilePath) (v : Disk) : Prop where
  keepsWays : s.drive.disk.KeepsWays v
  node : ∀ q, v.node? q =
    if q ∈ s.placed.map (·.names) ∨ q ∈ writes.map (fun p => (stagingPath p).names) then none
    else s.drive.disk.node? q

/-- Taking the second phase back starts with removing what was moved in and what is still staged. -/
theorem removals_cleared (hspared : SparesUndo sabotage) {s : Swap} (h : s.Sound e deletes writes) :
    s.Cleared writes (removeAllQuietly sabotage
      (removeAllQuietly sabotage s.drive s.placed).1 (writes.map stagingPath)).1.disk := by
  have hreach : ∀ {p}, e.Reaches p → s.drive.disk.Reaches p :=
    (h.swapped.reaches_iff hst hall h.moves).2
  have hclear := h.clear hl hst hall
  have hnode := removeAllQuietly_node hspared.remove s.placed
    (fun p hp => hl.below_write (h.moves.placed p hp)) hclear
    fun p hp _ _ => hreach (h.swapped.target p hp).1
  have hways := keepsWays_of_removed hnode
  have hnode' := removeAllQuietly_node hspared.remove (writes.map stagingPath)
    (fun p hp => by
      obtain ⟨x, hx, rfl⟩ := List.mem_map.1 hp
      exact (hl.below_write hx).staging)
    (hways.clear hclear) fun p hp _ _ => by
      obtain ⟨x, hx, rfl⟩ := List.mem_map.1 hp
      exact hways.reaches (hreach (staged_file hst hall hx).1)
  refine ⟨hways.trans (keepsWays_of_removed hnode'), fun q => ?_⟩
  have hmap : (writes.map stagingPath).map (·.names) = writes.map fun p => (stagingPath p).names := by
    simp
  have hdir := fun hq => h.not_dir hst hall (q := q) hq
  rw [hnode', hmap]
  by_cases hp : q ∈ s.placed.map (·.names)
  · simp [hnode, hp, hdir (.inl hp)]
  · by_cases hw : q ∈ writes.map fun p => (stagingPath p).names
    · simp [hnode, hp, hw, hdir (.inr hw)]
    · simp [hnode, hp, hw]

namespace Swap.Cleared

variable {s : Swap} {v : Drive}

omit hst hall in
/-- A file that was moved aside is still aside, and nothing is where it was. -/
theorem aside (hc : s.Cleared writes v.disk) (h : s.Sound e deletes writes) {m : FilePath}
    (hm : m ∈ s.moved) :
    v.disk.node? m.names = none ∧ v.disk.node? (backupPath m).names = e.node? m.names := by
  have hmd := h.moves.moved m hm
  rw [hc.node, hc.node]
  constructor
  · split
    · rfl
    · rename_i hq
      exact h.swapped.gone m hm fun hp => hq (.inl (List.mem_map_of_mem hp))
  · rw [if_neg, h.swapped.backup m hm]
    rintro (hq | hq)
    · obtain ⟨p, hp, hn⟩ := List.mem_map.1 hq
      exact hl.backup_ne hmd (List.mem_append_right _ (h.moves.placed p hp)) hn.symm
    · obtain ⟨p, hp, hn⟩ := List.mem_map.1 hq
      exact hl.staging_ne_backup hp hmd hn

/-- All files that were moved aside are moved back, and nothing else happens. -/
theorem restored (hspared : SparesUndo sabotage) (hc : s.Cleared writes v.disk)
    (h : s.Sound e deletes writes) :
    (∀ m ∈ s.moved,
      (restoreAll sabotage v s.moved.reverse).1.disk.node? m.names = e.node? m.names ∧
      (restoreAll sabotage v s.moved.reverse).1.disk.node? (backupPath m).names = none) ∧
    ∀ q, (∀ m ∈ s.moved, q ≠ m.names ∧ q ≠ (backupPath m).names) →
      (restoreAll sabotage v s.moved.reverse).1.disk.node? q = v.disk.node? q := by
  have hmoved : ∀ m ∈ s.moved.reverse, m ∈ deletes ++ writes := fun m hm =>
    h.moves.moved m (List.mem_reverse.1 hm)
  have hdistinct : s.moved.reverse.Nodup :=
    List.pairwise_reverse.2 (h.swapped.distinct.imp Ne.symm)
  have hapart : ∀ m ∈ s.moved.reverse, ∀ m' ∈ s.moved.reverse, backupPath m ≠ m' :=
    fun m hm m' hm' hn => (hl.backup m (hmoved m hm)).2 (hn ▸ hmoved m' hm')
  have hready : ∀ m ∈ s.moved.reverse, v.disk.Reaches m ∧ v.disk.Reaches (backupPath m) ∧
      v.disk.node? m.names = none ∧
      ∃ bytes, v.disk.node? (backupPath m).names = some (.file bytes) := by
    intro m hm
    have hm' := List.mem_reverse.1 hm
    obtain ⟨hnone, hfile⟩ := hc.aside hl h hm'
    obtain ⟨hr, hr', ⟨bytes, hbytes⟩, -⟩ := h.swapped.aside m hm'
    have hreach : ∀ {p}, e.Reaches p → v.disk.Reaches p := fun hp =>
      hc.keepsWays.reaches ((h.swapped.reaches_iff hst hall h.moves).2 hp)
    exact ⟨hreach hr, hreach hr', hnone, bytes, hfile.trans hbytes⟩
  obtain ⟨hback, hrest⟩ := restoreAll_node hspared.restore s.moved.reverse
    (fun m hm => hl.below m (hmoved m hm)) (hc.keepsWays.clear (h.clear hl hst hall)) hdistinct
    hapart hready
  refine ⟨fun m hm => ?_, fun q hq => hrest q fun m hm => hq m (List.mem_reverse.1 hm)⟩
  obtain ⟨hplace, hnone⟩ := hback m (List.mem_reverse.2 hm)
  exact ⟨hplace.trans (hc.aside hl h hm).2, hnone⟩

/-- Beside the staged files everything is as it was before the second phase. -/
theorem restored_same (hspared : SparesUndo sabotage) (hc : s.Cleared writes v.disk)
    (h : s.Sound e deletes writes) {q : Place}
    (hq : q ∉ writes.map fun p => (stagingPath p).names) :
    (restoreAll sabotage v s.moved.reverse).1.disk.node? q = e.node? q := by
  have hsw := h.swapped
  obtain ⟨hback, hrest⟩ := hc.restored hl hst hall hspared h
  by_cases hmoved : ∃ m ∈ s.moved, q = m.names ∨ q = (backupPath m).names
  · obtain ⟨m, hm, rfl | rfl⟩ := hmoved
    · exact (hback m hm).1
    · rw [(hback m hm).2, (hsw.aside m hm).2.2.2]
  · have hne : ∀ m ∈ s.moved, q ≠ m.names ∧ q ≠ (backupPath m).names := fun m hm =>
      not_or.1 fun hn => hmoved ⟨m, hm, hn⟩
    rw [hrest q hne, hc.node]
    by_cases hp : q ∈ s.placed.map (·.names)
    · rw [if_pos (.inl hp)]
      obtain ⟨p, hpl, rfl⟩ := List.mem_map.1 hp
      rcases (hsw.target p hpl).2 with hm | hnone
      · exact absurd rfl (hne p hm).1
      · exact hnone.symm
    · rw [if_neg (not_or.2 ⟨hp, hq⟩)]
      refine hsw.other q hne fun p hpl => ⟨?_, ?_⟩
      · rintro rfl
        exact hp (List.mem_map_of_mem hpl)
      · rintro rfl
        exact hq (List.mem_map.2 ⟨p, h.moves.placed p hpl, rfl⟩)

end Swap.Cleared

/-- Whatever moment the second phase is taken back at, no more than new directories is left. -/
theorem rollBack_grown (hspared : SparesUndo sabotage) {s : Swap} (h : s.Sound e deletes writes)
    {us : List Target} (hus : us.map (·.file) = writes) :
    d₀.Grown (rollBack sabotage s us).1.disk := by
  have hc := removals_cleared hl hst hall hspared h
  have hpaths : us.map (fun t => stagingPath t.file) = writes.map stagingPath := by
    simp [← hus]
  unfold rollBack
  dsimp only
  rw [hpaths]
  intro q
  by_cases hq : q ∈ writes.map fun p => (stagingPath p).names
  · -- beside a staged file nothing was moved
    left
    have hnone : d₀.node? q = none := by
      obtain ⟨p, hp, rfl⟩ := List.mem_map.1 hq
      exact (hl.staging p hp).1
    rw [(hc.restored hl hst hall hspared h).2 q fun m hm => ?_, hc.node, if_pos (.inr hq), hnone]
    obtain ⟨p, hp, rfl⟩ := List.mem_map.1 hq
    have hmd := h.moves.moved m hm
    exact ⟨hl.staging_ne hp hmd, hl.staging_ne_backup hp hmd⟩
  · rw [hc.restored_same hl hst hall hspared h hq]
    refine hst.other q fun w hw => ?_
    rintro rfl
    exact hq (List.mem_map.2 ⟨w.target.file, hall ▸ List.mem_map_of_mem hw, rfl⟩)

end Swapping

end StagedEdits
