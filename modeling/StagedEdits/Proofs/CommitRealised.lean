import Mathlib.Data.List.Infix
import StagedEdits.Disk.Listing
import StagedEdits.Proofs.CommitSnapshot

set_option autoImplicit false

/-! # A commit that goes through realises the overlay

After a commit that goes through, the files below the root are those written, with the contents that
were pending, and those there were before that are neither written nor deleted. So each path reads
from the disk as it read through the overlay, up to its newlines.

Main definitions: `Disk.hasFile`, `Disk.Grounded`. Main statements: `Committable.files_of_commit`,
`commit_realises_overlay`. -/

namespace StagedEdits

open FilePath

variable {sabotage : Sabotage} {root p : FilePath}

/-! ## Files on a disk -/

namespace Disk

variable {d : Disk}

/-- Whether there is a file at `q`. -/
def hasFile (d : Disk) (q : Place) : Bool :=
  match d.node? q with
  | some (.file _) => true
  | _ => false

theorem hasFile_iff {q : Place} : d.hasFile q = true ↔ ∃ bytes, d.node? q = some (.file bytes) := by
  unfold hasFile
  split <;> simp_all

/-- That everything on `d` is in directories that are there. -/
def Grounded (d : Disk) : Prop := ∀ q n, d.node? q = some n → d.Holds q

/-- On a disk everything is in a directory if all its entries are. -/
theorem grounded_of_entries
    (h : ∀ e ∈ d.entries, ∀ r ∈ e.1.inits, r ≠ e.1 → d.node? r = some .dir) : d.Grounded := by
  intro q node hq r hr hne
  rw [node?] at hq
  split at hq
  · rename_i hroot
    rw [hroot] at hr hne
    exact absurd (List.prefix_nil.1 hr) hne
  · exact h _ (lookup_mem hq) r ((List.mem_inits r q).2 hr) hne

end Disk

/-! ## What a commit reports -/

section Reporting

variable {d₀ e : Disk} {deletes writes : List FilePath} {all : List Pending}
  (hl : Layout d₀ root deletes writes) (hst : Staged d₀ e all)
  (hall : all.map (·.target.file) = writes)

include hl hst hall in
/-- The files to delete that are there are moved aside and reported, in their order. -/
theorem moveDeleted_report (sabotage : Sabotage) {s : Swap} {ts : List Target}
    (h : s.Sound e deletes writes) (hplaced : s.placed = []) (hts : ∀ t ∈ ts, t.file ∈ deletes ++ writes)
    (hdistinct : (s.moved ++ ts.map (·.file)).Nodup)
    (hheld : ∀ t ∈ ts, e.hasFile t.file.names = true → e.Holds t.file.names)
    (hnone : (moveDeleted sabotage s ts).2 = none) :
    (moveDeleted sabotage s ts).1.report =
        ⟨s.report.written, s.report.deleted ++
          (ts.filter fun t => e.hasFile t.file.names).map (·.path)⟩ ∧
      (moveDeleted sabotage s ts).1.moved =
        s.moved ++ (ts.filter fun t => e.hasFile t.file.names).map (·.file) := by
  induction ts generalizing s with
  | nil => simp [moveDeleted]
  | cons t ts ih =>
    have ht := hts t List.mem_cons_self
    have hbelow := hl.below t.file ht
    have hclear := h.clear hl hst hall
    have hnew : t.file ∉ s.moved := fun hmem =>
      (List.nodup_append.1 hdistinct).2.2 _ hmem _ (by simp) rfl
    have hnode := h.swapped.untouched hl h.moves ht (by simp [hplaced]) hnew
    have hrest : ∀ x ∈ ts, x.file ∈ deletes ++ writes := fun x hx =>
      hts x (List.mem_cons_of_mem t hx)
    have hheld' : ∀ x ∈ ts, e.hasFile x.file.names = true → e.Holds x.file.names := fun x hx =>
      hheld x (List.mem_cons_of_mem t hx)
    have hcons : ∀ b, e.hasFile t.file.names = b →
        (t :: ts).filter (fun t => e.hasFile t.file.names) =
          if b then t :: ts.filter (fun t => e.hasFile t.file.names)
          else ts.filter fun t => e.hasFile t.file.names := fun b hb => by
      rw [List.filter_cons, hb]
    have hne : t.file ≠ backupPath t.file := fun hn => (hl.backup t.file ht).2 (hn ▸ ht)
    unfold moveDeleted at hnone ⊢
    rcases moveAside_cases sabotage hbelow hclear hne with
      ⟨v, f, hout, -⟩ | ⟨hout, hfile⟩ | ⟨v, bytes, hout, -, -, -, hbytes, -⟩
    · rw [hout] at hnone
      cases hnone
    · have hno : e.hasFile t.file.names = false := by
        cases hyes : e.hasFile t.file.names with
        | false => rfl
        | true =>
          obtain ⟨bytes, hbytes⟩ := Disk.hasFile_iff.1 hyes
          have hholds := (h.swapped.keepsWays hst hall h.moves).holds
            (hheld t List.mem_cons_self hyes)
          exact absurd hfile (Disk.isFile_held hbelow.plain (hclear.unlinked hbelow) hholds
            (hnode.trans hbytes))
      rw [hout] at hnone ⊢
      rw [hcons false hno]
      refine ih h hplaced hrest ?_ hheld' hnone
      rw [List.map_cons] at hdistinct
      exact hdistinct.sublist ((List.sublist_cons_self _ _).append_left _)
    · have hyes : e.hasFile t.file.names = true :=
        Disk.hasFile_iff.2 ⟨bytes, hnode.symm.trans hbytes⟩
      obtain ⟨hsound, -⟩ := moveAside_sound hl hst hall h hplaced ht hout
      rw [hout] at hnone ⊢
      rw [hcons true hyes]
      have hcat : s.moved ++ (t :: ts).map (·.file) = s.moved ++ [t.file] ++ ts.map (·.file) := by
        simp
      rw [hcat] at hdistinct
      obtain ⟨hreport, hmoved⟩ := ih (s := ⟨v, s.moved ++ [t.file], s.placed,
        { s.report with deleted := s.report.deleted ++ [t.path] }⟩) ⟨hsound.swapped, hsound.moves⟩
        hplaced hrest hdistinct hheld' hnone
      refine ⟨hreport.trans ?_, hmoved.trans ?_⟩
      · simp
      · simp

/-- Moving files aside to replace them reports nothing. -/
theorem moveReplaced_report {s : Swap} {ts : List Target} :
    (moveReplaced sabotage s ts).1.report = s.report := by
  induction ts generalizing s with
  | nil => rfl
  | cons t ts ih =>
    have haside : (moveAside sabotage s t.file).1.report = s.report := by
      unfold moveAside
      split
      · rfl
      · rfl
      · split <;> rfl
    unfold moveReplaced
    generalize moveAside sabotage s t.file = r at haside
    obtain ⟨s', out⟩ := r
    cases out with
    | error f => exact haside
    | ok isThere => exact ih.trans haside

/-- The files that are moved in are reported in their order. -/
theorem moveIn_report {s : Swap} {ts : List Target} (hnone : (moveIn sabotage s ts).2 = none) :
    (moveIn sabotage s ts).1.report =
      ⟨s.report.written ++ ts.map (·.path), s.report.deleted⟩ := by
  induction ts generalizing s with
  | nil => simp [moveIn]
  | cons t ts ih =>
    unfold moveIn at hnone ⊢
    split at hnone
    · cases hnone
    · rename_i v hperform
      rw [ih hnone]
      simp

include hl hst hall in
/-- A second phase that goes through moves aside every file to delete that is there, and reports
    these and all that was staged. -/
theorem swapAll_report (sabotage : Sabotage) {v : Drive} {ts us : List Target} (hdisk : v.disk = e)
    (hts : ∀ t ∈ ts, t.file ∈ deletes ++ writes) (hus : us.map (·.file) = writes)
    (hdistinct : (ts.map (·.file)).Nodup)
    (hheld : ∀ t ∈ ts, e.hasFile t.file.names = true → e.Holds t.file.names)
    (hnone : (swapAll sabotage v ts us).2 = none) :
    (swapAll sabotage v ts us).1.report =
        ⟨us.map (·.path), (ts.filter fun t => e.hasFile t.file.names).map (·.path)⟩ ∧
      ∀ t ∈ ts, e.hasFile t.file.names = true → t.file ∈ (swapAll sabotage v ts us).1.moved := by
  have hstart : Swap.Sound ⟨v, [], [], ⟨[], []⟩⟩ e deletes writes :=
    ⟨hdisk ▸ Swapped.refl v.disk, ⟨nofun, nofun⟩⟩
  have husw : ∀ t ∈ us, t.file ∈ writes := fun t ht => hus ▸ List.mem_map_of_mem ht
  have hdeleted := moveDeleted_report hl hst hall sabotage hstart rfl hts
    (by simpa using hdistinct) hheld
  obtain ⟨h₁, hplaced₁⟩ := moveDeleted_sound sabotage hl hst hall hstart rfl hts
  unfold swapAll at hnone ⊢
  generalize moveDeleted sabotage ⟨v, [], [], ⟨[], []⟩⟩ ts = r₁ at h₁ hplaced₁ hdeleted hnone ⊢
  obtain ⟨s₁, f₁⟩ := r₁
  cases f₁ with
  | some f => cases hnone
  | none =>
    dsimp only at h₁ hplaced₁ hdeleted hnone ⊢
    obtain ⟨hreport₁, hmoved₁⟩ := hdeleted rfl
    have hreport₂ : (moveReplaced sabotage s₁ us).1.report = s₁.report := moveReplaced_report
    obtain ⟨h₂, hplaced₂, ⟨more, hmore⟩, hcovered⟩ := moveReplaced_sound sabotage hl hst hall h₁
      hplaced₁ fun t ht => List.mem_append_right _ (husw t ht)
    generalize moveReplaced sabotage s₁ us = r₂ at h₂ hplaced₂ hmore hcovered hreport₂ hnone ⊢
    obtain ⟨s₂, f₂⟩ := r₂
    cases f₂ with
    | some f => cases hnone
    | none =>
      dsimp only at h₂ hplaced₂ hmore hcovered hreport₂ hnone ⊢
      have hdistinct' : (s₂.placed ++ us.map (·.file)).Nodup := by
        rw [hplaced₂, hus]
        exact hl.distinct
      obtain ⟨-, hmoved₃, -⟩ :=
        moveIn_sound sabotage hl hst hall h₂ husw hdistinct' (hcovered rfl)
      constructor
      · rw [moveIn_report hnone, hreport₂, hreport₁]
        simp
      · intro t ht hfile
        rw [hmoved₃, hmore, hmoved₁]
        refine List.mem_append_left _ (List.mem_append_right _ (List.mem_map_of_mem ?_))
        exact List.mem_filter.2 ⟨ht, hfile⟩

include hl hst hall in
/-- Once the backups are removed, nothing else is gone. -/
theorem cleanup_node (hspared : ∀ n p, sabotage n (.remove p) = none) {s : Swap}
    (h : s.Sound e deletes writes) :
    let v := (removeAllQuietly sabotage s.drive (s.moved.map backupPath)).1
    s.drive.disk.KeepsWays v.disk ∧ ∀ q, v.disk.node? q =
      if q ∈ (s.moved.map backupPath).map (·.names) then none else s.drive.disk.node? q := by
  have hplace : ∀ {x}, x ∈ s.moved.map backupPath → ∃ m ∈ s.moved, backupPath m = x :=
    fun hx => List.mem_map.1 hx
  have hnode := removeAllQuietly_node hspared (s.moved.map backupPath) (fun x hx => by
      obtain ⟨m, hm, rfl⟩ := hplace hx
      exact (hl.below m (h.moves.moved m hm)).backup)
    (h.clear hl hst hall) fun x hx _ _ => by
      obtain ⟨m, hm, rfl⟩ := hplace hx
      exact (h.swapped.reaches_iff hst hall h.moves).2 (h.swapped.aside m hm).2.1
  refine ⟨keepsWays_of_removed hnode, fun q => ?_⟩
  rw [hnode]
  by_cases hq : q ∈ (s.moved.map backupPath).map (·.names)
  · have hfile : s.drive.disk.node? q ≠ some .dir := by
      obtain ⟨x, hx, rfl⟩ := List.mem_map.1 hq
      obtain ⟨m, hm, rfl⟩ := hplace hx
      obtain ⟨bytes, hbytes⟩ := (h.swapped.aside m hm).2.2.1
      rw [h.swapped.backup m hm, hbytes]
      nofun
    rw [if_pos ⟨hq, hfile⟩, if_pos hq]
  · rw [if_neg fun hn => hq hn.1, if_neg hq]

theorem mem_backup_names {s : Swap} {q : Place} :
    q ∈ (s.moved.map backupPath).map (·.names) ↔ ∃ m ∈ s.moved, (backupPath m).names = q := by
  rw [List.map_map]
  exact List.mem_map

section WentThrough

variable {s : Swap} {q : Place} {bytes : ByteArray}

include hst hall in
/-- Each staged file is at its target. -/
theorem staged_at_target (h : s.Sound e deletes writes) (hplaced : s.placed = writes) {w : Pending}
    (hw : w ∈ all) :
    s.drive.disk.node? w.target.file.names = some (.file w.content.toUTF8) := by
  have hwrite : w.target.file ∈ writes := hall ▸ List.mem_map_of_mem hw
  rw [(h.swapped.place _ (hplaced ▸ hwrite)).1]
  exact (hst.file w hw).2

include hst hall in
/-- A file that is neither a target nor a backup was there before, and is none of the commit's. -/
theorem there_before (h : s.Sound e deletes writes) (hplaced : s.placed = writes)
    (hcovered : ∀ p ∈ deletes, e.hasFile p.names = true → p ∈ s.moved)
    (hfile : s.drive.disk.node? q = some (.file bytes))
    (hbackup : ∀ m ∈ s.moved, q ≠ (backupPath m).names) (hwrite : ∀ p ∈ writes, q ≠ p.names) :
    d₀.node? q = some (.file bytes) ∧ ∀ p ∈ deletes ++ writes, q ≠ p.names := by
  have hsw := h.swapped
  have hstaging : ∀ p ∈ writes, q ≠ (stagingPath p).names := by
    rintro p hp rfl
    rw [(hsw.place p (hplaced ▸ hp)).2] at hfile
    cases hfile
  have hmoved : ∀ m ∈ s.moved, q ≠ m.names := by
    rintro m hm rfl
    rw [hsw.gone m hm fun hp => hwrite m (hplaced ▸ hp) rfl] at hfile
    cases hfile
  have hold : e.node? q = some (.file bytes) := by
    rw [← hfile, hsw.other q (fun m hm => ⟨hmoved m hm, hbackup m hm⟩) fun p hp => ?_]
    rw [hplaced] at hp
    exact ⟨hwrite p hp, hstaging p hp⟩
  constructor
  · have hplace : ∀ w ∈ all, q ≠ w.place := fun w hw =>
      hstaging _ (hall ▸ List.mem_map_of_mem hw)
    rcases hst.other q hplace with hsame | ⟨-, hdir⟩
    · rw [← hsame, hold]
    · rw [hold] at hdir
      cases hdir
  · intro p hp
    rcases List.mem_append.1 hp with hp | hp
    · rintro rfl
      exact hmoved p (hcovered p hp (Disk.hasFile_iff.2 ⟨bytes, hold⟩)) rfl
    · exact hwrite p hp

include hl hst hall in
/-- A file from before that is none of the commit's is still there, and is no backup. -/
theorem still_there (h : s.Sound e deletes writes) (hfile : d₀.node? q = some (.file bytes))
    (hnot : ∀ p ∈ deletes ++ writes, q ≠ p.names) :
    s.drive.disk.node? q = some (.file bytes) ∧ ∀ m ∈ s.moved, q ≠ (backupPath m).names := by
  have hstaging : ∀ p ∈ writes, q ≠ (stagingPath p).names := by
    rintro p hp rfl
    rw [(hl.staging p hp).1] at hfile
    cases hfile
  have hbackup : ∀ m ∈ s.moved, q ≠ (backupPath m).names := by
    rintro m hm rfl
    rw [(hl.backup m (h.moves.moved m hm)).1] at hfile
    cases hfile
  have hplace : ∀ w ∈ all, q ≠ w.place := fun w hw =>
    hstaging _ (hall ▸ List.mem_map_of_mem hw)
  have hold : e.node? q = some (.file bytes) := by
    rcases hst.other q hplace with hsame | ⟨hnone, -⟩
    · rw [hsame, hfile]
    · rw [hfile] at hnone
      cases hnone
  refine ⟨?_, hbackup⟩
  rw [h.swapped.other q (fun m hm => ⟨hnot m (h.moves.moved m hm), hbackup m hm⟩) fun p hp => ?_,
    hold]
  have hwrite := h.moves.placed p hp
  exact ⟨hnot p (List.mem_append_right _ hwrite), hstaging p hwrite⟩

end WentThrough

include hl hst hall in
/-- What is left of a second phase that went through are the files that were staged, at their
    targets, and the files from before that are none of the commit's. -/
theorem cleanup_files (hspared : ∀ n p, sabotage n (.remove p) = none) {s : Swap}
    (h : s.Sound e deletes writes) (hplaced : s.placed = writes)
    (hcovered : ∀ p ∈ deletes, e.hasFile p.names = true → p ∈ s.moved) (q : Place)
    (bytes : ByteArray) :
    (removeAllQuietly sabotage s.drive (s.moved.map backupPath)).1.disk.node? q =
        some (.file bytes) ↔
      (∃ w ∈ all, q = w.target.file.names ∧ bytes = w.content.toUTF8) ∨
      d₀.node? q = some (.file bytes) ∧ ∀ p ∈ deletes ++ writes, q ≠ p.names := by
  rw [(cleanup_node hl hst hall hspared h).2]
  simp only [mem_backup_names]
  constructor
  · intro hfile
    split at hfile
    · cases hfile
    · rename_i hq
      by_cases hw : ∃ w ∈ all, q = w.target.file.names
      · obtain ⟨w, hw, rfl⟩ := hw
        rw [staged_at_target hst hall h hplaced hw] at hfile
        cases hfile
        exact .inl ⟨w, hw, rfl, rfl⟩
      · have hwrite : ∀ p ∈ writes, q ≠ p.names := by
          rw [← hall]
          rintro p hp hn
          obtain ⟨w, hw', rfl⟩ := List.mem_map.1 hp
          exact hw ⟨w, hw', hn⟩
        have hbackup : ∀ m ∈ s.moved, q ≠ (backupPath m).names := fun m hm hn =>
          hq ⟨m, hm, hn.symm⟩
        exact .inr (there_before hst hall h hplaced hcovered hfile hbackup hwrite)
  · rintro (⟨w, hw, rfl, rfl⟩ | ⟨hfile, hnot⟩)
    · rw [if_neg, staged_at_target hst hall h hplaced hw]
      rintro ⟨m, hm, hn⟩
      have hwrite : w.target.file ∈ writes := hall ▸ List.mem_map_of_mem hw
      exact hl.backup_ne (h.moves.moved m hm) (List.mem_append_right _ hwrite) hn
    · obtain ⟨hstill, hbackup⟩ := still_there hl hst hall h hfile hnot
      rw [if_neg, hstill]
      rintro ⟨m, hm, hn⟩
      exact hbackup m hm hn.symm

end Reporting

/-! ## What a commit leaves -/

/-- At the paths of a commit staging changes no file. -/
theorem Staged.hasFile {d₀ d : Disk} {done : List Pending} {deletes writes : List FilePath}
    (hl : Layout d₀ root deletes writes) (hwrites : ∀ w ∈ done, w.target.file ∈ writes)
    (h : Staged d₀ d done) (hp : p ∈ deletes ++ writes) : d.hasFile p.names = d₀.hasFile p.names := by
  have hplace : ∀ w ∈ done, p.names ≠ w.place := fun w hw hn =>
    hl.staging_ne (hwrites w hw) hp hn.symm
  unfold Disk.hasFile
  rcases h.other p.names hplace with hsame | ⟨hnone, hdir⟩
  · rw [hsame]
  · rw [hnone, hdir]

/-- The two phases, if they go through, leave the files that were staged and those that the commit
    is not about, and report what they did. -/
theorem commitTargets_files (hspared : ∀ n p, sabotage n (.remove p) = none) {d : Disk} {v : Drive}
    {ts : List Target} {ws : List Pending}
    (hl : Layout d root (ts.map (·.file)) (ws.map (·.target.file))) (hgrown : d.Grown v.disk)
    (hgrounded : d.Grounded) (hdistinct : (ts.map (·.file)).Nodup)
    (hdisjoint : ∀ p ∈ ts.map (·.file), p ∉ ws.map (·.target.file)) {report : CommitReport}
    (hok : (commitTargets sabotage v root ts ws).outcome = .ok report) :
    report = ⟨ws.map (·.target.path), (ts.filter fun t => d.hasFile t.file.names).map (·.path)⟩ ∧
    d.KeepsWays (commitTargets sabotage v root ts ws).drive.disk ∧
    (∀ w ∈ ws, (commitTargets sabotage v root ts ws).drive.disk.Reaches w.target.file) ∧
    ∀ q bytes, (commitTargets sabotage v root ts ws).drive.disk.node? q = some (.file bytes) ↔
      (∃ w ∈ ws, q = w.target.file.names ∧ bytes = w.content.toUTF8) ∨
      d.node? q = some (.file bytes) ∧
        ∀ p ∈ ts.map (·.file) ++ ws.map (·.target.file), q ≠ p.names := by
  obtain ⟨done, -, hstaged, hst, hdone, -, -⟩ := stageAll_start sabotage hl hgrown
  have hwritten :
      (stageAll sabotage v [] [] ws).staged.map (·.path) = done.map (·.target.path) := by
    rw [hstaged, List.map_map]
    rfl
  unfold commitTargets at hok ⊢
  dsimp only at hok ⊢
  cases hf : (stageAll sabotage v [] [] ws).fault with
  | some g =>
    rw [hf] at hok
    dsimp only at hok
    unfold discardStaged at hok
    split at hok <;> cases hok
  | none =>
    rw [hf] at hok
    dsimp only at hok ⊢
    have hall := hdone hf
    subst hall
    replace hst := hst (.inr hf)
    have hus : (stageAll sabotage v [] [] done).staged.map (·.file) =
        done.map (·.target.file) := by
      rw [hstaged, List.map_map]
      rfl
    have hts : ∀ t ∈ ts, t.file ∈ ts.map (·.file) ++ done.map (·.target.file) := fun t ht =>
      List.mem_append_left _ (List.mem_map_of_mem ht)
    have hdw : ∀ w ∈ done, w.target.file ∈ done.map (·.target.file) := fun w hw =>
      List.mem_map_of_mem hw
    have hsame : ∀ t ∈ ts, (stageAll sabotage v [] [] done).drive.disk.hasFile t.file.names =
        d.hasFile t.file.names := fun t ht => hst.hasFile hl hdw (hts t ht)
    have hways := hst.keepsWays hl hdw
    have hheld : ∀ t ∈ ts, (stageAll sabotage v [] [] done).drive.disk.hasFile t.file.names = true →
        (stageAll sabotage v [] [] done).drive.disk.Holds t.file.names := by
      intro t ht hfile
      rw [hsame t ht] at hfile
      obtain ⟨bytes, hbytes⟩ := Disk.hasFile_iff.1 hfile
      exact hways.holds (hgrounded _ _ hbytes)
    obtain ⟨hsound, hplaced⟩ := swapAll_sound sabotage hl hst rfl rfl hts hus
    have hreport := swapAll_report hl hst rfl sabotage rfl hts hus hdistinct hheld
    generalize swapAll sabotage (stageAll sabotage v [] [] done).drive ts
      (stageAll sabotage v [] [] done).staged = r at hsound hplaced hreport hok ⊢
    obtain ⟨s, g⟩ := r
    cases g with
    | some g => cases hok
    | none =>
      obtain ⟨hreport, hcovered⟩ := hreport rfl
      obtain ⟨hclean, -⟩ := cleanup_node hl hst rfl hspared hsound
      have hswap := hsound.swapped.keepsWays hst rfl hsound.moves
      refine ⟨?_, hways.trans (hswap.trans hclean), fun w hw => ?_, fun q bytes => ?_⟩
      · cases hok
        rw [hreport, hwritten]
        congr 2
        exact List.filter_congr hsame
      · have hreach := (hsound.swapped.target _ (hplaced rfl ▸ hdw w hw)).1
        exact hclean.reaches (hswap.reaches hreach)
      · refine cleanup_files hl hst rfl hspared hsound (hplaced rfl) (fun p hp hfile => ?_) q bytes
        obtain ⟨t, ht, rfl⟩ := List.mem_map.1 hp
        exact hcovered t ht hfile

/-! ## Reading -/

section Reading

variable {d : Disk}

/-- What `text` is when it is read from a disk, its newlines unified. -/
def asRead (text : String) : String := String.ofList (unifyNewlines text.toList)

theorem asRead_asRead (text : String) : asRead (asRead text) = asRead text := by
  rw [asRead, asRead, String.toList_ofList,
    unifyNewlines_of_not_mem (carriageReturn_not_mem_unifyNewlines _)]

theorem textOf?_toUTF8 (text : String) : Disk.textOf? text.toUTF8 = some (asRead text) := by
  have hvalid : String.fromUTF8? text.toUTF8 = some text := dif_pos text.isValidUTF8
  rw [Disk.textOf?, hvalid]
  rfl

theorem textOf?_map_asRead (bytes : ByteArray) :
    (Disk.textOf? bytes).map asRead = Disk.textOf? bytes := by
  rw [Disk.textOf?, Option.map_map]
  refine congrArg (Option.map · _) (funext fun text => ?_)
  exact asRead_asRead text

/-- A plain path reads as the file at the place of its names. -/
theorem bytes?_plain (hp : p.Plain) (hun : d.Unlinked p.names) {bytes : ByteArray} :
    d.bytes? p = some bytes ↔ d.Reaches p ∧ d.node? p.names = some (.file bytes) := by
  have hlook : ∀ n, d.look p = .ok n ↔ d.Reaches p ∧ d.node? p.names = some n := fun n =>
    Disk.look_plain hp hun
  rw [Disk.bytes?, hp.nul, ← hlook]
  cases hl : d.look p with
  | error c => simp
  | ok n => cases n <;> simp

theorem readText_congr {d' : Disk} (h : ∀ bytes, d'.bytes? p = some bytes ↔ d.bytes? p = some bytes) :
    d'.readText p = d.readText p := by
  rw [Disk.readText, Disk.readText, Option.ext h]

end Reading

/-! ## The whole commit -/

theorem mem_paths {o : Overlay} {a : String} :
    a ∈ o.snapshot.paths ↔ a ∈ o.deletes ∨ (o.writes.get? a).isSome := by
  rw [Snapshot.paths, List.mem_append, Table.mem_keys]
  exact Iff.rfl

namespace Committable

variable {d : Disk} {o : Overlay} (h : Committable d root o.snapshot)

include h

/-- Deletes of an overlay are all different, and so are the files they are of. -/
theorem deletes_distinct : ((o.snapshot.targets root).map (·.file)).Nodup := by
  rw [Snapshot.targets, List.map_map, List.nodup_iff_pairwise_ne, List.pairwise_map]
  refine o.deletes.sorted.imp_of_mem fun {a b} ha hb hlt heq => ?_
  have hnormalized : ∀ x ∈ o.deletes.toList, Normalized x := fun x hx =>
    h.normalized x (List.mem_append_left _ hx)
  exact String.lt_irrefl _ ((hnormalized a ha).joinText_inj (hnormalized b hb) heq ▸ hlt)

theorem deletes_disjoint : ∀ p ∈ (o.snapshot.targets root).map (·.file),
    p ∉ (o.snapshot.pendings root).map (·.target.file) := by
  intro p hp hw
  rw [Snapshot.targets, List.map_map] at hp
  rw [Snapshot.pendings, List.map_map] at hw
  obtain ⟨a, ha, rfl⟩ := List.mem_map.1 hp
  obtain ⟨⟨b, content⟩, hb, heq⟩ := List.mem_map.1 hw
  have hsame := (h.normalized_write hb).joinText_inj
    (h.normalized a (List.mem_append_left _ ha)) heq
  have hsome := mem_sortedWrites.1 hb
  rw [show b = a from hsame, h.disjoint a ha] at hsome
  cases hsome

/-- What a commit that goes through reports, and what it leaves. -/
theorem files_of_commit (hspared : ∀ n p, sabotage n (.remove p) = none) (hgrounded : d.Grounded)
    {report : CommitReport}
    (hok : (commitSnapshot sabotage d root o.snapshot).outcome = .ok report) :
    let d' := (commitSnapshot sabotage d root o.snapshot).drive.disk
    report = ⟨(sortedWrites o.snapshot).map Prod.fst,
      o.deletes.toList.filter fun p => d.hasFile (root.joinText p).names⟩ ∧
    d.KeepsWays d' ∧ (∀ p content, o.writes.get? p = some content → d'.Reaches (root.joinText p)) ∧
    ∀ q bytes, d'.node? q = some (.file bytes) ↔
      (∃ p content, o.writes.get? p = some content ∧ q = (root.joinText p).names ∧
        bytes = content.toUTF8) ∨
      d.node? q = some (.file bytes) ∧
        ∀ p, p ∈ o.deletes ∨ (o.writes.get? p).isSome → q ≠ (root.joinText p).names := by
  rcases h.commit_cases sabotage with ⟨v, f, -, heq⟩ | ⟨v, hperform, heq⟩
  · rw [heq] at hok
    cases hok
  · rw [heq] at hok ⊢
    obtain ⟨hgrown, -⟩ := Drive.perform_makeDirs h.plain.nul hperform
    obtain ⟨hreport, hways, hreach, hfiles⟩ := commitTargets_files hspared h.layout hgrown hgrounded
      h.deletes_distinct h.deletes_disjoint hok
    have hpending : ∀ {a content}, o.writes.get? a = some content →
        (⟨⟨a, root.joinText a⟩, content⟩ : Pending) ∈ o.snapshot.pendings root := fun ha =>
      List.mem_map_of_mem (f := fun w => (⟨⟨w.1, root.joinText w.1⟩, w.2⟩ : Pending))
        (mem_sortedWrites.2 ha)
    have hreach' : ∀ a content, o.writes.get? a = some content →
        (commitTargets sabotage v root (o.snapshot.targets root)
          (o.snapshot.pendings root)).drive.disk.Reaches (root.joinText a) :=
      fun a content ha => hreach ⟨⟨a, root.joinText a⟩, content⟩ (hpending ha)
    refine ⟨?_, hways, hreach', fun q bytes => ?_⟩
    · rw [hreport, Snapshot.pendings, Snapshot.targets, List.map_map, List.filter_map, List.map_map]
      congr 1
      exact List.map_id _
    · rw [hfiles]
      refine or_congr ⟨?_, ?_⟩ (and_congr_right fun _ => ⟨?_, ?_⟩)
      · rintro ⟨w, hw, rfl, rfl⟩
        obtain ⟨⟨a, content⟩, ha, rfl⟩ := List.mem_map.1 hw
        exact ⟨a, content, mem_sortedWrites.1 ha, rfl, rfl⟩
      · rintro ⟨a, content, ha, rfl, rfl⟩
        exact ⟨_, hpending ha, rfl, rfl⟩
      · intro hnot a ha
        refine hnot (root.joinText a) ?_
        rcases ha with ha | ha
        · refine List.mem_append_left _ (List.mem_map.2 ⟨⟨a, root.joinText a⟩, ?_, rfl⟩)
          exact List.mem_map_of_mem (f := fun p => (⟨p, root.joinText p⟩ : Target)) ha
        · obtain ⟨content, hcontent⟩ := Option.isSome_iff_exists.1 ha
          exact List.mem_append_right _ (List.mem_map_of_mem (hpending hcontent))
      · intro hnot p hp
        obtain ⟨a, ha, rfl⟩ := mem_files hp
        exact hnot a (mem_paths.1 ha)

end Committable

/-- **A commit that goes through realises the overlay.** If the snapshot of `o` is `Committable` to
    `d`, the files afterwards are those written, with the bytes of their contents, and those there
    were that are neither written nor deleted. All writes are reported, in order, and of the deletes
    those that were files. Each path then reads as it read through `o`, with its newlines unified;
    looking at it fails only if it does not fit. -/
theorem commit_realises_overlay (hspared : ∀ n p, sabotage n (.remove p) = none) {d : Disk}
    {o : Overlay} (h : Committable d root o.snapshot) (hgrounded : d.Grounded)
    {report : CommitReport} (hok : (commitSnapshot sabotage d root o.snapshot).outcome = .ok report)
    (ignored : List String) (walk : Disk.TreeWalk) :
    let d' := (commitSnapshot sabotage d root o.snapshot).drive.disk
    (∀ q bytes, d'.node? q = some (.file bytes) ↔
      (∃ p content, o.writes.get? p = some content ∧ q = (root.joinText p).names ∧
        bytes = content.toUTF8) ∨
      d.node? q = some (.file bytes) ∧
        ∀ p, p ∈ o.deletes ∨ (o.writes.get? p).isSome → q ≠ (root.joinText p).names) ∧
    report.written.Pairwise (· < ·) ∧ (∀ p, p ∈ report.written ↔ (o.writes.get? p).isSome) ∧
    report.deleted = o.deletes.toList.filter (fun p => d.hasFile (root.joinText p).names) ∧
    ∀ p, Normalized p →
      (d'.project root ignored walk).read p =
        (o.view (d.project root ignored walk) p).map asRead ∧
      ∀ f, (d'.project root ignored walk).trouble p = some f → ¬(root.joinText p).Fits := by
  intro d'
  obtain ⟨hreport, hways, hreach, hfiles⟩ := h.files_of_commit hspared hgrounded hok
  refine ⟨hfiles, ?_, fun p => ?_, ?_, fun p hp => ?_⟩
  · rw [hreport]
    exact sortedWrites_sorted
  · rw [hreport]
    dsimp only
    rw [sortedWrites_keys, Names.mem_toList, Names.mem_ofList, Table.mem_keys]
    rfl
  · rw [hreport]
  · have hbelow := hp.below h.plain
    have hun := h.clear.unlinked hbelow
    have hun' : d'.Unlinked (root.joinText p).names := (hways.clear h.clear).unlinked hbelow
    have hbytes : ∀ bytes, d.bytes? (root.joinText p) = some bytes ↔ _ := fun bytes =>
      bytes?_plain hbelow.plain hun
    have hbytes' : ∀ bytes, d'.bytes? (root.joinText p) = some bytes ↔ _ := fun bytes =>
      bytes?_plain hbelow.plain hun'
    -- another path of the snapshot leads to another place
    have hapart : ∀ a, a ∈ o.deletes ∨ (o.writes.get? a).isSome → a ≠ p →
        (root.joinText p).names ≠ (root.joinText a).names := by
      intro a ha hne hn
      have hna := h.normalized a (mem_paths.2 ha)
      exact hne (hna.joinText_inj hp ((hna.below h.plain).eq_of_names hbelow hn.symm))
    constructor
    · show d'.readText (root.joinText p) = _
      rw [Overlay.view]
      cases hw : o.writes.get? p with
      | some content =>
        have hfile := (hfiles (root.joinText p).names content.toUTF8).2
          (.inl ⟨p, content, hw, rfl, rfl⟩)
        rw [Disk.readText, (hbytes' _).2 ⟨hreach p content hw, hfile⟩]
        exact textOf?_toUTF8 content
      | none =>
        have hne : ∀ a, (o.writes.get? a).isSome → a ≠ p := by
          rintro a ha rfl
          rw [hw] at ha
          cases ha
        dsimp only
        by_cases hd : p ∈ o.deletes
        · rw [if_pos hd]
          have hnone : d'.bytes? (root.joinText p) = none := by
            cases hb : d'.bytes? (root.joinText p) with
            | none => rfl
            | some bytes =>
              rcases (hfiles _ bytes).1 ((hbytes' bytes).1 hb).2 with
                ⟨a, content, ha, hn, -⟩ | ⟨-, hnot⟩
              · have hsome : (o.writes.get? a).isSome := by simp [ha]
                exact absurd hn (hapart a (.inr hsome) (hne a hsome))
              · exact absurd rfl (hnot p (.inl hd))
          rw [Disk.readText, hnone]
          rfl
        · rw [if_neg hd]
          show _ = (d.readText (root.joinText p)).map asRead
          have hsame : ∀ bytes, d'.bytes? (root.joinText p) = some bytes ↔
              d.bytes? (root.joinText p) = some bytes := by
            intro bytes
            rw [hbytes, hbytes', hfiles]
            have hother : ∀ a, a ∈ o.deletes ∨ (o.writes.get? a).isSome →
                (root.joinText p).names ≠ (root.joinText a).names := by
              intro a ha
              refine hapart a ha ?_
              rintro rfl
              exact ha.elim hd fun hsome => hne a hsome rfl
            constructor
            · rintro ⟨hr, ⟨a, content, ha, hn, -⟩ | ⟨hfile, -⟩⟩
              · exact absurd hn (hother a (.inr (by simp [ha])))
              · exact ⟨⟨hr.1, hgrounded _ _ hfile⟩, hfile⟩
            · rintro ⟨hr, hfile⟩
              exact ⟨hways.reaches hr, .inr ⟨hfile, hother⟩⟩
          rw [readText_congr hsame, Disk.readText]
          cases d.bytes? (root.joinText p) with
          | none => rfl
          | some bytes => exact (textOf?_map_asRead bytes).symm
    · intro f htrouble
      have hlook : d'.lookFailure (root.joinText p) = some f := htrouble
      unfold Disk.lookFailure at hlook
      split at hlook
      · cases hlook
      · rename_i g hg
        exact (Disk.looksLike_plain_error hbelow.plain hun' hg).2

/-- One file is written and another deleted. -/
theorem write_and_delete_realised :
    let root : FilePath := ⟨1, ["proj"]⟩
    let d : Disk := ⟨[(["proj"], .dir), (["proj", "b"], .file "old".toUTF8)]⟩
    let o : Overlay := (Overlay.empty.delete "b").write "a" "x"
    let d' := (commitSnapshot noSabotage d root o.snapshot).drive.disk
    Committable d root o.snapshot ∧ d.Grounded ∧
      (commitSnapshot noSabotage d root o.snapshot).outcome = .ok ⟨["a"], ["b"]⟩ ∧
      ∀ p, Normalized p →
        (d'.project root [] .passesLinks).read p =
          (o.view (d.project root [] .passesLinks) p).map asRead := by
  intro root d o d'
  have hcommittable : Committable d root o.snapshot := by
    have hlinks := @Disk.no_link_of_entries d (by simp [d])
    refine ⟨⟨by decide, by decide⟩, fun q target hq => absurd hq (hlinks q target), fun p hp => ?_,
      by decide, by decide, by decide⟩
    rcases List.mem_cons.1 (show p ∈ ["b", "a"] from hp) with rfl | hp
    · exact ⟨"b", rfl⟩
    · rw [List.mem_singleton.1 hp]
      exact ⟨"a", rfl⟩
  have hgrounded : d.Grounded := by
    refine Disk.grounded_of_entries fun e he => ?_
    rcases List.mem_cons.1 he with rfl | he
    · simp
    · rw [List.mem_singleton.1 he]
      simp [Disk.node?, Disk.lookup, d]
  have hok : (commitSnapshot noSabotage d root o.snapshot).outcome = .ok ⟨["a"], ["b"]⟩ := by
    have htargets : o.snapshot.targets root = [⟨"b", ⟨1, ["proj", "b"]⟩⟩] := by decide +kernel
    have hpendings : o.snapshot.pendings root = [⟨⟨"a", ⟨1, ["proj", "a"]⟩⟩, "x"⟩] := by
      decide +kernel
    have htop : d.Reaches root := Disk.reaches_top (by decide +kernel)
    have hroot : d.makeDirs root = (d, none) :=
      Disk.makeDirs_there hcommittable.plain hcommittable.clear.unlinked_top (by simp [root]) htop
        rfl
    have hl := hcommittable.layout
    rw [htargets, hpendings] at hl
    rw [hcommittable.commit_there (fun _ => rfl) hroot, htargets, hpendings]
    exact commitTargets_of_pair (fun _ _ _ => rfl) (fun _ => rfl) hl hroot
      (htop.child rfl (by decide +kernel)) (by decide +kernel)
      (htop.child rfl (by decide +kernel)) (by decide +kernel) rfl rfl
  refine ⟨hcommittable, hgrounded, hok, fun p hp => ?_⟩
  exact ((commit_realises_overlay (fun _ _ => rfl) hcommittable hgrounded hok []
    .passesLinks).2.2.2.2 p hp).1

end StagedEdits
