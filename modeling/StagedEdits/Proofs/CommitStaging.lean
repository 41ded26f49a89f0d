import StagedEdits.Proofs.CommitPlaces

set_option autoImplicit false

/-! # What staging leaves on the disk

The first phase of a commit adds new directories and one staged file for each write, and nothing
else. If it fails, what was staged is removed again and no more than new directories are left.

Main definitions: `Layout`, `Staged`, `Staging.Stages`. Main statements: `removeAllQuietly_node`,
`stageFile_disk`, `stageAll_stages`, `stageFile_goes`. -/

namespace StagedEdits

open FilePath

variable {sabotage : Sabotage} {root p : FilePath}

/-! ## Operations that break off -/

namespace Disk

variable {d : Disk} {progress : Option Nat}

/-- Of an operation that is done in one step nothing is left when it breaks off. -/
theorem breakOff_of_atomic {op : DiskOp} (hop : ∀ n, op.cutShort n = none) :
    d.breakOff op progress = d := by
  cases progress with
  | none => rfl
  | some n => simp [breakOff, hop]

theorem breakOff_makeDirs_grown : d.Grown (d.breakOff (.makeDirs p) progress) := by
  cases progress with
  | none => exact .refl d
  | some n => exact makeDirs_grown

/-- A file whose writing breaks off is as it was, or one with other bytes is written. -/
theorem breakOff_write {bytes : ByteArray} : d.breakOff (.write p bytes) progress = d ∨
    ∃ begun, d.writeFile p begun = .ok (d.breakOff (.write p bytes) progress) := by
  cases progress with
  | none => exact .inl rfl
  | some n =>
    have hpart : d.breakOff (.write p bytes) (some n) =
        (d.run (.write p (bytes.extract 0 n))).1 := rfl
    rw [hpart, run]
    cases hwrite : d.writeFile p (bytes.extract 0 n) with
    | error f => exact .inl rfl
    | ok d' => exact .inr ⟨_, hwrite⟩

/-- That the writing of a file was begun on a disk `d` and has led to `d'`: either nothing has
    happened, or there is a file with some bytes now. -/
def Begun (d d' : Disk) (p : FilePath) : Prop :=
  d' = d ∨ d.Reaches p ∧ d.node? p.names ≠ some .dir ∧
    ∃ begun, d' = d.put p.names (.file begun)

end Disk

/-! ## Single operations -/

namespace Drive

variable {v v' : Drive} {f : Option DiskFault}

/-- An operation is made to fail, and breaks off, or it is done. -/
theorem perform_cases {op : DiskOp} (h : v.perform sabotage op = (v', f)) :
    (∃ b, sabotage v.performed.length op = some b ∧ f = some (.told b.message) ∧
      v'.disk = v.disk.breakOff op b.progress) ∨
    sabotage v.performed.length op = none ∧ v.disk.run op = (v'.disk, f) := by
  unfold perform at h
  split at h
  · rename_i b hb
    cases h
    exact .inl ⟨b, hb, rfl, rfl⟩
  · rename_i hnone
    cases h
    exact .inr ⟨hnone, rfl⟩

theorem perform_makeDirs (hnul : p.hasNul = false)
    (h : v.perform sabotage (.makeDirs p) = (v', f)) : v.disk.Grown v'.disk ∧ f ≠ some .nul := by
  rcases perform_cases h with ⟨b, -, rfl, hdisk⟩ | ⟨-, hrun⟩
  · rw [hdisk]
    exact ⟨Disk.breakOff_makeDirs_grown, nofun⟩
  · have hgrown : v.disk.Grown (v.disk.makeDirs p).1 := Disk.makeDirs_grown
    have hne := Disk.makeDirs_ne_nul (d := v.disk) hnul
    rw [Disk.run] at hrun
    rw [hrun] at hgrown hne
    exact ⟨hgrown, hne⟩

/-- Directories that are there are not made again. -/
theorem perform_makeDirs_there (hspared : ∀ n, sabotage n (.makeDirs p) = none)
    (h : v.disk.makeDirs p = (v.disk, none)) :
    v.perform sabotage (.makeDirs p) = (v.record v.disk (.makeDirs p) none, none) := by
  simp only [perform, hspared, Disk.run, h]

/-- A file that cannot be written is as it was, or one with other bytes was written. -/
theorem perform_write_failed {bytes : ByteArray} {g : DiskFault}
    (h : v.perform sabotage (.write p bytes) = (v', some g)) :
    v'.disk = v.disk ∨ ∃ begun, v.disk.writeFile p begun = .ok v'.disk := by
  rcases perform_cases h with ⟨b, -, -, hdisk⟩ | ⟨-, hrun⟩
  · rw [hdisk]
    exact Disk.breakOff_write
  · rw [Disk.run] at hrun
    split at hrun
    · cases (Prod.mk.inj hrun).2
    · exact .inl (Prod.mk.inj hrun).1.symm

variable (hp : root.Below p) (hclear : v.disk.Clear root.names)

include hp hclear

theorem perform_write {bytes : ByteArray} (h : v.perform sabotage (.write p bytes) = (v', f)) :
    (f = none ∧ v.disk.Reaches p ∧ v.disk.node? p.names ≠ some .dir ∧
      v'.disk = v.disk.put p.names (.file bytes)) ∨
    (∃ g, f = some g ∧ g ≠ .nul) ∧ v.disk.Begun v'.disk p := by
  have hiff : ∀ bytes d, v.disk.writeFile p bytes = .ok d ↔ _ := fun bytes d =>
    Disk.writeFile_plain hp.plain (hclear.unlinked hp)
  cases f with
  | none =>
    rcases perform_cases h with ⟨b, -, hnone, -⟩ | ⟨-, hrun⟩
    · cases hnone
    · rw [Disk.run] at hrun
      split at hrun
      · rename_i hwrite
        cases hrun
        exact .inl ⟨rfl, (hiff _ _).1 hwrite⟩
      · cases (Prod.mk.inj hrun).2
  | some g =>
    refine .inr ⟨⟨g, rfl, ?_⟩, (perform_write_failed h).imp_right fun ⟨begun, hwrite⟩ => ?_⟩
    · rintro rfl
      rcases perform_cases h with ⟨b, -, hnul, -⟩ | ⟨-, hrun⟩
      · cases hnul
      · rw [Disk.run, Disk.writeFile, hp.plain.nul] at hrun
        grind
    · obtain ⟨hreach, hdir, hdisk⟩ := (hiff _ _).1 hwrite
      exact ⟨hreach, hdir, begun, hdisk⟩

theorem perform_remove (h : v.perform sabotage (.remove p) = (v', f)) :
    (f = none ∧ v.disk.Reaches p ∧ (∃ bytes, v.disk.node? p.names = some (.file bytes)) ∧
      v'.disk = v.disk.drop p.names) ∨
    f ≠ none ∧ v'.disk = v.disk ∧ (sabotage v.performed.length (.remove p) = none →
      ¬(v.disk.Reaches p ∧ ∃ bytes, v.disk.node? p.names = some (.file bytes))) := by
  rcases perform_cases h with ⟨b, hb, rfl, hdisk⟩ | ⟨-, hrun⟩
  · refine .inr ⟨nofun, hdisk.trans (Disk.breakOff_of_atomic fun _ => rfl), fun hnone => ?_⟩
    rw [hb] at hnone
    cases hnone
  · have hiff : ∀ d, v.disk.removeFile p = .ok d ↔ _ := fun d =>
      Disk.removeFile_plain hp.plain (hclear.unlinked hp) hp.names_ne_nil
    rw [Disk.run] at hrun
    split at hrun
    · rename_i hremove
      cases hrun
      exact .inl ⟨rfl, (hiff _).1 hremove⟩
    · rename_i g hremove
      obtain ⟨hdisk, rfl⟩ := Prod.mk.inj hrun
      refine .inr ⟨nofun, hdisk.symm, ?_⟩
      rintro - ⟨hreach, hfile⟩
      rw [(hiff _).2 ⟨hreach, hfile, rfl⟩] at hremove
      cases hremove

theorem perform_move {q : FilePath} (hq : root.Below q) (hne : p ≠ q)
    (h : v.perform sabotage (.move p q) = (v', f)) :
    (f = none ∧ v.disk.Reaches p ∧ v.disk.Reaches q ∧ v.disk.node? q.names ≠ some .dir ∧
      ∃ bytes, v.disk.node? p.names = some (.file bytes) ∧
        v'.disk = (v.disk.drop p.names).put q.names (.file bytes)) ∨
    f ≠ none ∧ v'.disk = v.disk ∧ (sabotage v.performed.length (.move p q) = none →
      ¬(v.disk.Reaches p ∧ v.disk.Reaches q ∧ v.disk.node? q.names ≠ some .dir ∧
        ∃ bytes, v.disk.node? p.names = some (.file bytes))) := by
  rcases perform_cases h with ⟨b, hb, rfl, hdisk⟩ | ⟨-, hrun⟩
  · refine .inr ⟨nofun, hdisk.trans (Disk.breakOff_of_atomic fun _ => rfl), fun hnone => ?_⟩
    rw [hb] at hnone
    cases hnone
  · have hiff : ∀ d, v.disk.moveFile p q = .ok d ↔ _ := fun d =>
      Disk.moveFile_plain hp.plain hq.plain hp.names_ne_nil hq.names_ne_nil (hclear.unlinked hp)
        (hclear.unlinked hq) fun hnames => hne (hp.eq_of_names hq hnames)
    rw [Disk.run] at hrun
    split at hrun
    · rename_i hmove
      cases hrun
      exact .inl ⟨rfl, (hiff _).1 hmove⟩
    · rename_i g hmove
      obtain ⟨hdisk, rfl⟩ := Prod.mk.inj hrun
      refine .inr ⟨nofun, hdisk.symm, ?_⟩
      rintro - ⟨hreach, hreach', hdir, bytes, hfile⟩
      rw [(hiff _).2 ⟨hreach, hreach', hdir, bytes, hfile, rfl⟩] at hmove
      cases hmove

end Drive

/-! ## Taking back -/

/-- Whether an operation takes another one back: it removes a file, or moves one back from its
    `backupPath`. -/
def DiskOp.isUndo : DiskOp → Bool
  | .remove _ => true
  | .move source target => decide (source = backupPath target)
  | .makeDirs _ => false
  | .write .. => false

/-- That `sabotage` makes no operation fail which takes another one back. -/
def SparesUndo (sabotage : Sabotage) : Prop := ∀ n op, op.isUndo = true → sabotage n op = none

theorem SparesUndo.remove (h : SparesUndo sabotage) (n : Nat) (p : FilePath) :
    sabotage n (.remove p) = none := h n _ rfl

theorem SparesUndo.restore (h : SparesUndo sabotage) (n : Nat) (p : FilePath) :
    sabotage n (.move (backupPath p) p) = none := h n _ (by simp [DiskOp.isUndo])

theorem keepsWays_of_removed {d d' : Disk} {gone : Place → Prop} [DecidablePred gone]
    (h : ∀ q, d'.node? q = if gone q ∧ d.node? q ≠ some .dir then none else d.node? q) :
    d.KeepsWays d' := by
  constructor
  · intro q hq
    rw [h q, if_neg fun hgone => hgone.2 hq, hq]
  · intro q target hq
    rw [h q] at hq
    split at hq
    · cases hq
    · exact hq

theorem removeQuietly_drive {v : Drive} :
    (removeQuietly sabotage v p).1 = (v.perform sabotage (.remove p)).1 := by
  unfold removeQuietly
  split <;> simp_all

theorem removeQuietly_node (hspared : ∀ n p, sabotage n (.remove p) = none) {v : Drive}
    (hp : root.Below p) (hclear : v.disk.Clear root.names)
    (hreach : ∀ bytes, v.disk.node? p.names = some (.file bytes) → v.disk.Reaches p) (q : Place) :
    (removeQuietly sabotage v p).1.disk.node? q =
      if q = p.names ∧ v.disk.node? q ≠ some .dir then none else v.disk.node? q := by
  rw [removeQuietly_drive]
  generalize hperform : v.perform sabotage (.remove p) = r
  obtain ⟨v', f⟩ := r
  rcases Drive.perform_remove hp hclear hperform with ⟨-, -, ⟨bytes, hfile⟩, hdisk⟩ | ⟨-, hdisk, hnot⟩
  · rw [hdisk, Disk.node?_drop _ hp.names_ne_nil]
    by_cases hq : q = p.names
    · simp [hq, hfile]
    · simp [hq]
  · rw [hdisk]
    split
    · rename_i h
      obtain ⟨rfl, hdir⟩ := h
      cases hn : v.disk.node? p.names with
      | none => rfl
      | some node =>
        cases node with
        | file bytes => exact absurd ⟨hreach bytes hn, bytes, hn⟩ (hnot (hspared _ _))
        | dir => exact absurd hn hdir
        | link target => exact absurd hn (hclear.unlinked hp _ _ List.prefix_rfl)
    · rfl

/-- Files that are removed without more ado are gone, and nothing else is. -/
theorem removeAllQuietly_node (hspared : ∀ n p, sabotage n (.remove p) = none) {v : Drive}
    (ps : List FilePath) (hbelow : ∀ p ∈ ps, root.Below p) (hclear : v.disk.Clear root.names)
    (hreach : ∀ p ∈ ps, ∀ bytes, v.disk.node? p.names = some (.file bytes) → v.disk.Reaches p)
    (q : Place) : (removeAllQuietly sabotage v ps).1.disk.node? q =
      if q ∈ ps.map (·.names) ∧ v.disk.node? q ≠ some .dir then none else v.disk.node? q := by
  induction ps generalizing v with
  | nil => simp [removeAllQuietly]
  | cons p ps ih =>
    have hfirst := removeQuietly_node hspared (hbelow p List.mem_cons_self) hclear
      (hreach p List.mem_cons_self)
    have hways := keepsWays_of_removed hfirst
    have hrest := ih (fun x hx => hbelow x (List.mem_cons_of_mem p hx)) (hways.clear hclear)
      (fun x hx bytes hfile => by
        rw [hfirst] at hfile
        split at hfile
        · cases hfile
        · exact hways.reaches (hreach x (List.mem_cons_of_mem p hx) bytes hfile))
    rw [removeAllQuietly]
    dsimp only
    simp only [hrest, hfirst, List.map_cons, List.mem_cons]
    by_cases hq : q = p.names
    · by_cases hdir : v.disk.node? q = some .dir <;> simp_all
    · simp [hq]

/-! ## The layout of a commit -/

/-- What the files that a commit deletes and writes are to `d`: all are below `root`, where no link
    is, each is written once, and beside them there is room to stage and to move aside. -/
structure Layout (d : Disk) (root : FilePath) (deletes writes : List FilePath) : Prop where
  clear : d.Clear root.names
  below : ∀ p ∈ deletes ++ writes, root.Below p
  distinct : writes.Nodup
  staging : ∀ p ∈ writes, d.node? (stagingPath p).names = none ∧ stagingPath p ∉ deletes ++ writes
  backup : ∀ p ∈ deletes ++ writes,
    d.node? (backupPath p).names = none ∧ backupPath p ∉ deletes ++ writes

namespace Layout

variable {d : Disk} {deletes writes : List FilePath} (h : Layout d root deletes writes)
  {q : FilePath}

include h

theorem below_write (hp : p ∈ writes) : root.Below p := h.below p (List.mem_append_right _ hp)

theorem staging_ne (hp : p ∈ writes) (hq : q ∈ deletes ++ writes) :
    (stagingPath p).names ≠ q.names := fun hnames =>
  (h.staging p hp).2 ((h.below_write hp).staging.eq_of_names (h.below q hq) hnames ▸ hq)

theorem backup_ne (hp : p ∈ deletes ++ writes) (hq : q ∈ deletes ++ writes) :
    (backupPath p).names ≠ q.names := fun hnames =>
  (h.backup p hp).2 ((h.below p hp).backup.eq_of_names (h.below q hq) hnames ▸ hq)

theorem staging_ne_backup (hp : p ∈ writes) (hq : q ∈ deletes ++ writes) :
    (stagingPath p).names ≠ (backupPath q).names := fun hnames =>
  stagingPath_ne_backupPath ((h.below_write hp).staging.eq_of_names (h.below q hq).backup hnames)

theorem staging_inj (hp : p ∈ writes) (hq : q ∈ writes)
    (hnames : (stagingPath p).names = (stagingPath q).names) : p = q :=
  addSuffix_inj (h.below_write hp).names_ne_nil (h.below_write hq).names_ne_nil
    ((h.below_write hp).staging.eq_of_names (h.below_write hq).staging hnames)

theorem backup_inj (hp : p ∈ deletes ++ writes) (hq : q ∈ deletes ++ writes)
    (hnames : (backupPath p).names = (backupPath q).names) : p = q :=
  addSuffix_inj (h.below p hp).names_ne_nil (h.below q hq).names_ne_nil
    ((h.below p hp).backup.eq_of_names (h.below q hq).backup hnames)

end Layout

/-! ## Staging -/

/-- Where the content of `w` is staged. -/
def Pending.place (w : Pending) : Place := (stagingPath w.target.file).names

/-- That `d` has a staged file for each of `done` more than `d₀`, and new directories. -/
structure Staged (d₀ d : Disk) (done : List Pending) : Prop where
  file : ∀ w ∈ done, d.Reaches (stagingPath w.target.file) ∧
    d.node? w.place = some (.file w.content.toUTF8)
  other : ∀ q, (∀ w ∈ done, q ≠ w.place) →
    d.node? q = d₀.node? q ∨ d₀.node? q = none ∧ d.node? q = some .dir

namespace Staged

variable {d₀ d d' : Disk} {done : List Pending}

theorem grow (h : Staged d₀ d done) (hgrown : d.Grown d') : Staged d₀ d' done := by
  constructor
  · intro w hw
    obtain ⟨hreach, hfile⟩ := h.file w hw
    refine ⟨hgrown.keepsWays.reaches hreach, ?_⟩
    rcases hgrown w.place with hsame | ⟨hnone, -⟩
    · rw [hsame, hfile]
    · rw [hfile] at hnone
      cases hnone
  · intro q hq
    rcases hgrown q with hsame | ⟨hnone, hdir⟩
    · rw [hsame]
      exact h.other q hq
    · rcases h.other q hq with hold | ⟨-, hold⟩
      · exact .inr ⟨hold ▸ hnone, hdir⟩
      · rw [hnone] at hold
        cases hold

variable {deletes writes : List FilePath} (hl : Layout d₀ root deletes writes)
  (hwrites : ∀ w ∈ done, w.target.file ∈ writes)

include hl hwrites

theorem keepsWays (h : Staged d₀ d done) : d₀.KeepsWays d := by
  constructor
  · intro q hq
    rcases h.other q (by
      rintro w hw rfl
      rw [Pending.place, (hl.staging _ (hwrites w hw)).1] at hq
      cases hq) with hsame | ⟨hnone, -⟩
    · rw [hsame, hq]
    · rw [hq] at hnone
      cases hnone
  · intro q target hq
    rcases h.other q (by
      rintro w hw rfl
      rw [(h.file w hw).2] at hq
      cases hq) with hsame | ⟨-, hdir⟩
    · rw [← hsame, hq]
    · rw [hq] at hdir
      cases hdir

theorem clear (h : Staged d₀ d done) : d.Clear root.names :=
  (h.keepsWays hl hwrites).clear hl.clear

/-- No file is staged yet where one is about to be. -/
theorem free (h : Staged d₀ d done) (hp : p ∈ writes) (hnew : ∀ w ∈ done, w.target.file ≠ p)
    (bytes : ByteArray) : d.node? (stagingPath p).names ≠ some (.file bytes) := by
  have hplace : ∀ w ∈ done, (stagingPath p).names ≠ w.place := fun w hw hnames =>
    hnew w hw (hl.staging_inj hp (hwrites w hw) hnames).symm
  intro hfile
  rcases h.other _ hplace with hsame | ⟨-, hdir⟩
  · rw [hsame, (hl.staging p hp).1] at hfile
    cases hfile
  · rw [hdir] at hfile
    cases hfile

theorem stage (h : Staged d₀ d done) {w : Pending} (hw : w.target.file ∈ writes)
    (hnew : ∀ w' ∈ done, w'.target.file ≠ w.target.file)
    (hreach : d.Reaches (stagingPath w.target.file)) (hdir : d.node? w.place ≠ some .dir) :
    Staged d₀ (d.put w.place (.file w.content.toUTF8)) (done ++ [w]) := by
  have hne : w.place ≠ [] := (hl.below_write hw).staging.names_ne_nil
  have hways := Disk.keepsWays_put hne hdir w.content.toUTF8
  constructor
  · intro x hx
    rw [Disk.node?_put d hne]
    rcases List.mem_append.1 hx with hx | hx
    · obtain ⟨hreach', hfile⟩ := h.file x hx
      have hplace : x.place ≠ w.place := fun hplace =>
        hnew x hx (hl.staging_inj (hwrites x hx) hw hplace)
      rw [if_neg hplace]
      exact ⟨hways.reaches hreach', hfile⟩
    · rw [List.mem_singleton.1 hx, if_pos rfl]
      exact ⟨hways.reaches hreach, rfl⟩
  · intro q hq
    rw [Disk.node?_put d hne, if_neg (hq w (by simp))]
    exact h.other q fun x hx => hq x (List.mem_append_left _ hx)

end Staged

/-- Staging that is given up fails for a reason of writing. -/
theorem abandonStaging_outcome (sabotage : Sabotage) {v : Drive} {f : DiskFault} (hp : root.Below p)
    (hf : f ≠ .nul) :
    (abandonStaging sabotage v p f).outcome = .error (.fault (.persistence p.text f.text)) := by
  rw [abandonStaging, hp.staging.plain.nul]
  cases f <;> first | rfl | exact absurd rfl hf

/-- Staging that is given up leaves nothing of what was begun. -/
theorem abandonStaging_node (hspared : SparesUndo sabotage) {v : Drive} {d : Disk} {f : DiskFault}
    (hp : root.Below p) (hclear : d.Clear root.names)
    (hfree : ∀ bytes, d.node? (stagingPath p).names ≠ some (.file bytes))
    (hbegun : d.Begun v.disk (stagingPath p)) (q : Place) :
    (abandonStaging sabotage v p f).drive.disk.node? q = d.node? q := by
  have hne : (stagingPath p).names ≠ [] := hp.staging.names_ne_nil
  -- at the place of staging there was nothing, or a directory
  have hplace : d.node? (stagingPath p).names = none ∨
      d.node? (stagingPath p).names = some .dir := by
    cases hn : d.node? (stagingPath p).names with
    | none => exact .inl rfl
    | some node =>
      cases node with
      | file bytes => exact absurd hn (hfree bytes)
      | dir => exact .inr rfl
      | link target => exact absurd hn (hclear.unlinked hp.staging _ _ List.prefix_rfl)
  have hways : d.KeepsWays v.disk := by
    rcases hbegun with hsame | ⟨-, hdir, begun, hput⟩
    · rw [hsame]
      exact (Disk.Grown.refl d).keepsWays
    · exact hput ▸ Disk.keepsWays_put hne hdir begun
  have hreach : ∀ bytes, v.disk.node? (stagingPath p).names = some (.file bytes) →
      v.disk.Reaches (stagingPath p) := by
    intro bytes hfile
    rcases hbegun with hsame | ⟨hreach, -⟩
    · exact absurd (hsame ▸ hfile) (hfree bytes)
    · exact hways.reaches hreach
  rw [abandonStaging, hp.staging.plain.nul, if_neg Bool.false_ne_true]
  dsimp only
  rw [removeQuietly_node hspared.remove hp.staging (hways.clear hclear) hreach]
  rcases hbegun with hsame | ⟨-, hdir, begun, hput⟩
  · rw [hsame]
    by_cases hq : q = (stagingPath p).names
    · rcases hplace with hnone | hdir
      · simp [hq, hnone]
      · simp [hq, hdir]
    · simp [hq]
  · rw [hput, Disk.node?_put _ hne]
    by_cases hq : q = (stagingPath p).names
    · simp [hq, hplace.resolve_right hdir]
    · simp [hq]

theorem hasNul_parent (hnul : p.hasNul = false) : p.parent.hasNul = false := by
  rw [hasNul, List.any_eq_false] at hnul ⊢
  exact fun n hn => hnul n ((List.dropLast_prefix _).subset hn)

/-- What staging one content does: with a fault, no more than new directories if taking back is not
    made to fail. -/
theorem stageFile_disk {v : Drive} (sabotage : Sabotage) (content : String) (hp : root.Below p)
    (hclear : v.disk.Clear root.names)
    (hfree : ∀ bytes, v.disk.node? (stagingPath p).names ≠ some (.file bytes)) :
    (∃ d : Disk, v.disk.Grown d ∧ d.Reaches (stagingPath p) ∧
      d.node? (stagingPath p).names ≠ some .dir ∧
      (stageFile sabotage v p content).drive.disk =
        d.put (stagingPath p).names (.file content.toUTF8) ∧
      (stageFile sabotage v p content).outcome = .ok (stagingPath p)) ∨
    ∃ f : Failure, f.isPersistence = true ∧
      (stageFile sabotage v p content).outcome = .error f ∧
      (SparesUndo sabotage → v.disk.Grown (stageFile sabotage v p content).drive.disk) := by
  have habandon : ∀ {d : Disk} {v' : Drive} {f : DiskFault}, v.disk.Grown d →
      d.Begun v'.disk (stagingPath p) → SparesUndo sabotage →
      v.disk.Grown (abandonStaging sabotage v' p f).drive.disk := by
    intro d v' f hgrown hbegun hspared q
    have hfree' : ∀ bytes, d.node? (stagingPath p).names ≠ some (.file bytes) := by
      intro bytes hfile
      rcases hgrown (stagingPath p).names with hsame | ⟨-, hdir⟩
      · exact hfree bytes (hsame ▸ hfile)
      · rw [hdir] at hfile
        cases hfile
    rw [abandonStaging_node hspared hp (hgrown.keepsWays.clear hclear) hfree' hbegun]
    exact hgrown q
  have hnames : p.names.isEmpty = false := by
    rw [List.isEmpty_eq_false_iff]
    exact hp.names_ne_nil
  unfold stageFile
  rw [hnames]
  generalize hdirs : v.perform sabotage (.makeDirs p.parent) = r
  obtain ⟨v₁, f⟩ := r
  obtain ⟨hgrown, hne⟩ := Drive.perform_makeDirs (hasNul_parent hp.plain.nul) hdirs
  cases f with
  | some f =>
    exact .inr ⟨_, rfl, abandonStaging_outcome sabotage hp fun h => hne (h ▸ rfl),
      habandon hgrown (.inl rfl)⟩
  | none =>
    dsimp only
    generalize hwrite : v₁.perform sabotage (.write (stagingPath p) content.toUTF8) = r
    obtain ⟨v₂, g⟩ := r
    rcases Drive.perform_write hp.staging (hgrown.keepsWays.clear hclear) hwrite with
      ⟨rfl, hreach, hdir, hdisk⟩ | ⟨⟨g, rfl, hg⟩, hbegun⟩
    · exact .inl ⟨v₁.disk, hgrown, hreach, hdir, hdisk, rfl⟩
    · exact .inr ⟨_, rfl, abandonStaging_outcome sabotage hp hg, habandon hgrown hbegun⟩

/-- The operations that stage a content beside `p`. -/
inductive DiskOp.IsStaging (p : FilePath) : DiskOp → Prop
  | makeDirs : IsStaging p (.makeDirs p.parent)
  | write (bytes : ByteArray) : IsStaging p (.write (stagingPath p) bytes)

/-- The drive `v` after `content` was staged for `p` on `d`, where its directory was there. -/
def Drive.staged (v : Drive) (d : Disk) (p : FilePath) (content : String) : Drive :=
  (v.record v.disk (.makeDirs p.parent) none).record d
    (.write (stagingPath p) content.toUTF8) none

@[simp] theorem Drive.staged_disk (v : Drive) (d : Disk) (p : FilePath) (content : String) :
    (v.staged d p content).disk = d := rfl

/-- A content is staged if its directory is there and it can be written beside its target. -/
theorem stageFile_of_write {v : Drive} {d' : Disk} {content : String}
    (hspared : ∀ n op, op.IsStaging p → sabotage n op = none) (hne : p.names ≠ [])
    (hparent : v.disk.makeDirs p.parent = (v.disk, none))
    (hwrite : v.disk.writeFile (stagingPath p) content.toUTF8 = .ok d') :
    stageFile sabotage v p content =
      ⟨v.staged d' p content, .ok (stagingPath p), []⟩ := by
  have hput : (v.record v.disk (.makeDirs p.parent) none).perform sabotage
      (.write (stagingPath p) content.toUTF8) = (v.staged d' p content, none) := by
    simp only [Drive.perform, hspared _ _ (.write content.toUTF8), Disk.run, Drive.record,
      Drive.staged, hwrite]
  rw [stageFile, if_neg (by simpa using hne),
    Drive.perform_makeDirs_there (fun n => hspared n _ .makeDirs) hparent]
  dsimp only
  rw [hput]

/-- A content is staged if its directory is there and no directory stands where it is staged. -/
theorem stageFile_goes {v : Drive} (content : String)
    (hspared : ∀ n op, op.IsStaging p → sabotage n op = none) (hp : root.Below p)
    (hclear : v.disk.Clear root.names) (hparent : v.disk.makeDirs p.parent = (v.disk, none))
    (hreach : v.disk.Reaches (stagingPath p))
    (hdir : v.disk.node? (stagingPath p).names ≠ some .dir) :
    stageFile sabotage v p content =
      ⟨v.staged (v.disk.put (stagingPath p).names (.file content.toUTF8)) p content,
        .ok (stagingPath p), []⟩ :=
  stageFile_of_write hspared hp.names_ne_nil hparent
    ((Disk.writeFile_plain hp.staging.plain (hclear.unlinked hp.staging)).2 ⟨hreach, hdir, rfl⟩)

/-- One write is staged if its content is and its target is no directory. -/
theorem stageAll_single {v v' : Drive} {w : Pending} {q : FilePath}
    (hdir : v.disk.isDir w.target.file = .ok false)
    (hstage : stageFile sabotage v w.target.file w.content = ⟨v', .ok q, []⟩) :
    stageAll sabotage v [] [] [w] = ⟨v', [w.target], none, []⟩ := by
  rw [stageAll, hdir]
  dsimp only
  rw [hstage]
  rfl

/-- What the first phase comes to on a disk `d₀`: of the writes `all` those of `done` are staged, and
    new directories are made. Only if it fails, and taking back is made to fail as well, may more be
    left. It goes through if all are staged, none at a directory; and it fails for a reason of
    writing unless the path of a write does not fit. -/
structure Staging.Stages (s : Staging) (sabotage : Sabotage) (d₀ : Disk) (all done : List Pending) :
    Prop where
  isPrefix : done <+: all
  staged : s.staged = done.map (·.target)
  disk : SparesUndo sabotage ∨ s.fault = none → Staged d₀ s.drive.disk done
  whole : s.fault = none → done = all
  refuses : s.fault = none → ∀ w ∈ all, d₀.isDir w.target.file ≠ .ok true
  reason : ∀ f, s.fault = some f → f.isPersistence = true ∨
    ∃ w ∈ all, ¬w.target.file.Fits ∧ f = (DiskFault.at .nameTooLong w.target.file).toFailure

variable (sabotage) in
/-- **The first phase**, from where the writes `done` are staged and those of `todo` are not: it
    stages these in turn, as far as it comes. -/
theorem stageAll_stages {d₀ : Disk} {deletes writes : List FilePath}
    (hl : Layout d₀ root deletes writes) {v : Drive} {done todo : List Pending} (said : List Entry)
    (hall : (done ++ todo).map (·.target.file) = writes) (hst : Staged d₀ v.disk done)
    (hdirs : ∀ w ∈ done, d₀.isDir w.target.file ≠ .ok true) :
    ∃ done', (stageAll sabotage v (done.map (·.target)) said todo).Stages sabotage d₀
      (done ++ todo) done' := by
  induction todo generalizing v done said with
  | nil =>
    rw [List.append_nil]
    exact ⟨done, List.prefix_rfl, rfl, fun _ => hst, fun _ => rfl, fun _ => hdirs, nofun⟩
  | cons w todo ih =>
    have hsub : ∀ x ∈ done ++ w :: todo, x.target.file ∈ writes := fun x hx =>
      hall ▸ List.mem_map_of_mem hx
    have hw : w.target.file ∈ writes := hsub w (by simp)
    have hdone : ∀ x ∈ done, x.target.file ∈ writes := fun x hx => hsub x (by simp [hx])
    have hbelow := hl.below_write hw
    have hclear := hst.clear hl hdone
    have hnew : ∀ x ∈ done, x.target.file ≠ w.target.file := by
      intro x hx
      have hdistinct := hl.distinct
      rw [← hall, List.map_append, List.map_cons] at hdistinct
      exact (List.nodup_append.1 hdistinct).2.2 _ (List.mem_map_of_mem hx) _ List.mem_cons_self
    -- a write that cannot be staged ends the phase, with what was staged before
    have hstop : ∀ (v' : Drive) (f : Failure) (said' : List Entry),
        (SparesUndo sabotage → Staged d₀ v'.disk done) →
        (f.isPersistence = true ∨ ¬w.target.file.Fits ∧
          f = (DiskFault.at .nameTooLong w.target.file).toFailure) →
        Staging.Stages ⟨v', done.map (·.target), some f, said'⟩ sabotage d₀ (done ++ w :: todo)
          done := by
      intro v' f said' hdisk hreason
      refine ⟨List.prefix_append _ _, rfl, fun hgood => hdisk (hgood.resolve_right nofun), nofun,
        nofun, ?_⟩
      rintro f ⟨⟩
      exact hreason.imp_right fun hlong => ⟨w, by simp, hlong⟩
    unfold stageAll
    cases hdir : v.disk.isDir w.target.file with
    | error f =>
      obtain ⟨rfl, hlong⟩ :=
        Disk.looksLike_plain_error hbelow.plain (hclear.unlinked hbelow) hdir
      exact ⟨done, hstop v _ said (fun _ => hst) (.inr ⟨hlong, rfl⟩)⟩
    | ok isThere =>
      cases isThere with
      | true => exact ⟨done, hstop v _ said (fun _ => hst) (.inl rfl)⟩
      | false =>
        dsimp only
        have hfree := hst.free hl hdone hw hnew
        generalize hstep : stageFile sabotage v w.target.file w.content = step
        have hdisk := stageFile_disk sabotage w.content hbelow hclear hfree
        rw [hstep] at hdisk
        obtain ⟨v', outcome, more⟩ := step
        rcases hdisk with ⟨d, hgrown, hreach, hnot, hput, hok⟩ | ⟨f, hpers, herror, hgrown⟩
        · cases hok
          have hnext := (hst.grow hgrown).stage hl hdone hw hnew hreach hnot
          rw [show d.put w.place _ = v'.disk from hput.symm] at hnext
          have hrefused : d₀.isDir w.target.file ≠ .ok true := by
            intro hthere
            rw [(hst.keepsWays hl hdone).isDir hbelow.plain (hl.clear.unlinked hbelow) hthere]
              at hdir
            cases hdir
          have hcat : done ++ [w] ++ todo = done ++ w :: todo := by simp
          have hrest := @ih v' (done ++ [w]) (said ++ more) (hcat ▸ hall) hnext (fun x hx => by
            rcases List.mem_append.1 hx with hx | hx
            · exact hdirs x hx
            · exact List.mem_singleton.1 hx ▸ hrefused)
          rwa [hcat, List.map_append, List.map_singleton] at hrest
        · cases herror
          exact ⟨done, hstop v' f _ (fun hgood => hst.grow (hgrown hgood)) (.inl hpers)⟩

variable (sabotage) in
theorem stageAll_start {d₀ : Disk} {deletes : List FilePath} {ws : List Pending} {v : Drive}
    (hl : Layout d₀ root deletes (ws.map (·.target.file))) (hgrown : d₀.Grown v.disk) :
    ∃ done, (stageAll sabotage v [] [] ws).Stages sabotage d₀ ws done :=
  stageAll_stages sabotage hl [] rfl (show Staged d₀ v.disk [] from ⟨nofun, fun q _ => hgrown q⟩)
    nofun

end StagedEdits
