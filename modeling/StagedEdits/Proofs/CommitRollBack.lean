import StagedEdits.Disk.Listing
import StagedEdits.Proofs.CommitSnapshot

set_option autoImplicit false

/-! # A commit that fails leaves nothing behind

Whatever operation of a commit fails, also by being made to, the commit fails. It then reports that
the project could not be written, and the disk differs from before by new directories at most, as
long as what takes a step back is not made to fail. The one exception is a path to write that is too
long: asking whether a directory is there is then a failure of its own kind, which is not dealt with,
and what was staged before it stays.

Main definition: `Drive.Smooth`. Main statements: `Committable.smooth`, `commit_rolls_back`. -/

namespace StagedEdits

open FilePath

variable {sabotage : Sabotage} {root p : FilePath}

/-! ## The operations of a run -/

/-- That all operations that `v` has performed went well, but for those that take another one
    back. -/
def Drive.Smooth (v : Drive) : Prop := ∀ x ∈ v.performed, x.1.isUndo = false → x.2 = none

namespace Drive.Smooth

variable {v v' : Drive}

theorem perform (h : v.Smooth) {op : DiskOp} {f : Option DiskFault}
    (hperform : v.perform sabotage op = (v', f)) (hop : op.isUndo = false → f = none) :
    v'.Smooth := by
  have hperformed : v'.performed = v.performed ++ [(op, f)] := by
    unfold Drive.perform at hperform
    split at hperform <;> (cases hperform; rfl)
  intro x hx
  rw [hperformed] at hx
  rcases List.mem_append.1 hx with hx | hx
  · exact h x hx
  · rw [List.mem_singleton.1 hx]
    exact hop

theorem removeQuietly (h : v.Smooth) : (removeQuietly sabotage v p).1.Smooth := by
  rw [removeQuietly_drive]
  exact h.perform rfl nofun

theorem removeAllQuietly (h : v.Smooth) (ps : List FilePath) :
    (removeAllQuietly sabotage v ps).1.Smooth := by
  induction ps generalizing v with
  | nil => exact h
  | cons p ps ih => exact ih h.removeQuietly

/-! ## The steps of a commit -/

theorem stageFile (h : v.Smooth) {content : String} {q : FilePath}
    (hok : (stageFile sabotage v p content).outcome = .ok q) :
    (stageFile sabotage v p content).drive.Smooth := by
  have hfail : ∀ (v : Drive) f, (abandonStaging sabotage v p f).outcome ≠ .ok q := by
    intro v f
    unfold abandonStaging
    split <;> nofun
  unfold StagedEdits.stageFile at hok ⊢
  split at hok
  · cases hok
  · rename_i hne
    rw [if_neg hne]
    split at hok
    · exact absurd hok (hfail _ _)
    · rename_i v₁ hdirs
      split at hok
      · exact absurd hok (hfail _ _)
      · rename_i v₂ hwrite
        exact (h.perform hdirs fun _ => rfl).perform hwrite fun _ => rfl

theorem stageAll (h : v.Smooth) {staged : List Target} {said : List Entry} {ws : List Pending}
    (hnone : (stageAll sabotage v staged said ws).fault = none) :
    (stageAll sabotage v staged said ws).drive.Smooth := by
  induction ws generalizing v staged said with
  | nil => exact h
  | cons w ws ih =>
    unfold StagedEdits.stageAll at hnone ⊢
    split at hnone
    · cases hnone
    · cases hnone
    · split at hnone
      · cases hnone
      · rename_i v' q _ heq
        have hok : (StagedEdits.stageFile sabotage v w.target.file w.content).outcome = .ok q := by
          rw [heq]
        have hstep := h.stageFile hok
        rw [heq] at hstep
        exact ih hstep hnone

end Drive.Smooth

namespace Swap

variable {s s' : Swap}

theorem moveAside_smooth (h : s.drive.Smooth) {isThere : Bool}
    (haside : moveAside sabotage s p = (s', .ok isThere)) : s'.drive.Smooth := by
  unfold moveAside at haside
  split at haside
  · cases haside
  · cases haside
    exact h
  · split at haside
    · cases haside
    · rename_i hperform
      cases haside
      exact h.perform hperform fun _ => rfl

theorem moveDeleted_smooth (h : s.drive.Smooth) {ts : List Target}
    (hnone : (moveDeleted sabotage s ts).2 = none) :
    (moveDeleted sabotage s ts).1.drive.Smooth := by
  induction ts generalizing s with
  | nil => exact h
  | cons t ts ih =>
    unfold moveDeleted at hnone ⊢
    generalize hr : moveAside sabotage s t.file = r at hnone
    obtain ⟨s', out⟩ := r
    cases out with
    | error f => cases hnone
    | ok isThere =>
      have hstep := moveAside_smooth h hr
      cases isThere with
      | false => exact ih hstep hnone
      | true => exact ih (s := ⟨s'.drive, s'.moved, s'.placed, _⟩) hstep hnone

theorem moveReplaced_smooth (h : s.drive.Smooth) {ts : List Target}
    (hnone : (moveReplaced sabotage s ts).2 = none) :
    (moveReplaced sabotage s ts).1.drive.Smooth := by
  induction ts generalizing s with
  | nil => exact h
  | cons t ts ih =>
    unfold moveReplaced at hnone ⊢
    generalize hr : moveAside sabotage s t.file = r at hnone
    obtain ⟨s', out⟩ := r
    cases out with
    | error f => cases hnone
    | ok isThere => exact ih (moveAside_smooth h hr) hnone

theorem moveIn_smooth (h : s.drive.Smooth) {ts : List Target}
    (hnone : (moveIn sabotage s ts).2 = none) : (moveIn sabotage s ts).1.drive.Smooth := by
  induction ts generalizing s with
  | nil => exact h
  | cons t ts ih =>
    unfold moveIn at hnone ⊢
    split at hnone
    · cases hnone
    · rename_i v hperform
      exact ih (s := ⟨v, s.moved, s.placed ++ [t.file], _⟩) (h.perform hperform fun _ => rfl) hnone

theorem swapAll_smooth {v : Drive} (h : v.Smooth) {ts us : List Target}
    (hnone : (swapAll sabotage v ts us).2 = none) : (swapAll sabotage v ts us).1.drive.Smooth := by
  unfold swapAll at hnone ⊢
  generalize hd : moveDeleted sabotage ⟨v, [], [], ⟨[], []⟩⟩ ts = r₁ at hnone ⊢
  obtain ⟨s₁, f⟩ := r₁
  cases f with
  | some f => cases hnone
  | none =>
    dsimp only at hnone ⊢
    have hdeleted : s₁.drive.Smooth := by
      have hnone : (moveDeleted sabotage ⟨v, [], [], ⟨[], []⟩⟩ ts).2 = none := by rw [hd]
      have hsmooth := moveDeleted_smooth h hnone
      rwa [hd] at hsmooth
    generalize hr : moveReplaced sabotage s₁ us = r₂ at hnone ⊢
    obtain ⟨s₂, f⟩ := r₂
    cases f with
    | some f => cases hnone
    | none =>
      dsimp only at hnone ⊢
      refine moveIn_smooth ?_ hnone
      have hnone : (moveReplaced sabotage s₁ us).2 = none := by rw [hr]
      have hsmooth := moveReplaced_smooth hdeleted hnone
      rwa [hr] at hsmooth

end Swap

theorem commitTargets_smooth {v : Drive} (h : v.Smooth) {ts : List Target} {ws : List Pending}
    {report : CommitReport} (hok : (commitTargets sabotage v root ts ws).outcome = .ok report) :
    (commitTargets sabotage v root ts ws).drive.Smooth := by
  unfold commitTargets at hok ⊢
  dsimp only at hok ⊢
  cases hfault : (stageAll sabotage v [] [] ws).fault with
  | some f =>
    rw [hfault] at hok
    dsimp only at hok
    unfold discardStaged at hok
    split at hok <;> cases hok
  | none =>
    have hstaged := h.stageAll hfault
    rw [hfault] at hok
    dsimp only at hok ⊢
    generalize hswap : swapAll sabotage (stageAll sabotage v [] [] ws).drive ts
      (stageAll sabotage v [] [] ws).staged = r at hok ⊢
    obtain ⟨s, g⟩ := r
    cases g with
    | some g => cases hok
    | none =>
      have hnone : (swapAll sabotage (stageAll sabotage v [] [] ws).drive ts
          (stageAll sabotage v [] [] ws).staged).2 = none := by
        rw [hswap]
      have hsmooth := Swap.swapAll_smooth hstaged hnone
      rw [hswap] at hsmooth
      exact hsmooth.removeAllQuietly _

/-- **The operations of a commit that goes through went well**, but for those that only tidy up: its
    drive is `Smooth`. -/
theorem Committable.smooth {d : Disk} {s : Snapshot} (h : Committable d root s)
    {report : CommitReport} (hok : (commitSnapshot sabotage d root s).outcome = .ok report) :
    (commitSnapshot sabotage d root s).drive.Smooth := by
  have hstart : (Drive.start d).Smooth := fun x hx => absurd hx List.not_mem_nil
  rcases h.commit_cases sabotage with ⟨v, f, -, heq⟩ | ⟨v, hperform, heq⟩
  · rw [heq] at hok
    cases hok
  · rw [heq] at hok ⊢
    exact commitTargets_smooth (hstart.perform hperform fun _ => rfl) hok

/-! ## What a commit that fails leaves -/

/-- Once what was staged is removed again, no more than new directories is left. -/
theorem Staged.discard_grown (hspared : SparesUndo sabotage) {d₀ : Disk} {v : Drive}
    {done : List Pending} {deletes writes : List FilePath} (hl : Layout d₀ root deletes writes)
    (hwrites : ∀ w ∈ done, w.target.file ∈ writes) (h : Staged d₀ v.disk done) :
    d₀.Grown (removeAllQuietly sabotage v
      ((done.map (·.target)).map fun t => stagingPath t.file)).1.disk := by
  have hplace : ∀ {p}, p ∈ (done.map (·.target)).map (fun t => stagingPath t.file) →
      ∃ w ∈ done, p = stagingPath w.target.file := by
    intro p hp
    rw [List.map_map] at hp
    obtain ⟨w, hw, rfl⟩ := List.mem_map.1 hp
    exact ⟨w, hw, rfl⟩
  have hnode := removeAllQuietly_node hspared.remove (v := v)
    ((done.map (·.target)).map fun t => stagingPath t.file) (fun p hp => by
      obtain ⟨w, hw, rfl⟩ := hplace hp
      exact (hl.below_write (hwrites w hw)).staging)
    (h.clear hl hwrites) fun p hp _ _ => by
      obtain ⟨w, hw, rfl⟩ := hplace hp
      exact (h.file w hw).1
  intro q
  rw [hnode]
  by_cases hq : ∃ w ∈ done, q = w.place
  · obtain ⟨w, hw, rfl⟩ := hq
    left
    rw [if_pos, Pending.place, (hl.staging _ (hwrites w hw)).1]
    refine ⟨List.mem_map.2 ⟨stagingPath w.target.file, ?_, rfl⟩, by simp [(h.file w hw).2]⟩
    rw [List.map_map]
    exact List.mem_map_of_mem (f := (fun t => stagingPath t.file) ∘ (·.target)) hw
  · rw [if_neg]
    · exact h.other q fun w hw hn => hq ⟨w, hw, hn⟩
    · rintro ⟨hmem, -⟩
      obtain ⟨p, hp, rfl⟩ := List.mem_map.1 hmem
      obtain ⟨w, hw, rfl⟩ := hplace hp
      exact hq ⟨w, hw, rfl⟩

/-- The two phases either leave no more than new directories, or a path to write is too long and
    staged files are left as well. -/
theorem commitTargets_error (hspared : SparesUndo sabotage) {d : Disk} {v : Drive}
    {ts : List Target} {ws : List Pending}
    (hl : Layout d root (ts.map (·.file)) (ws.map (·.target.file))) (hgrown : d.Grown v.disk)
    {f : Failure} (herror : (commitTargets sabotage v root ts ws).outcome = .error f) :
    (f.isPersistence = true ∧ d.Grown (commitTargets sabotage v root ts ws).drive.disk) ∨
    (∃ w ∈ ws, ¬w.target.file.Fits ∧
      f = (DiskFault.at .nameTooLong w.target.file).toFailure) ∧
    ∃ done, done <+: ws ∧ Staged d (commitTargets sabotage v root ts ws).drive.disk done := by
  obtain ⟨done, hpre, hstaged, hst, hdone, -, hfault⟩ := stageAll_start sabotage hl hgrown
  replace hst := hst (.inl hspared)
  have hwrites : ∀ w ∈ done, w.target.file ∈ ws.map (·.target.file) := fun w hw =>
    List.mem_map_of_mem (hpre.subset hw)
  unfold commitTargets at herror ⊢
  dsimp only at herror ⊢
  cases hf : (stageAll sabotage v [] [] ws).fault with
  | some g =>
    rw [hf] at herror
    dsimp only at herror ⊢
    have hg : g = f := by
      unfold discardStaged at herror
      split at herror <;> exact Except.error.inj herror
    subst hg
    unfold discardStaged
    by_cases hpers : g.isPersistence = true
    · left
      rw [if_pos hpers, hstaged]
      exact ⟨hpers, hst.discard_grown hspared hl hwrites⟩
    · right
      rw [if_neg hpers]
      exact ⟨(hfault g hf).resolve_left hpers, done, hpre, hst⟩
  | none =>
    rw [hf] at herror
    dsimp only at herror ⊢
    have hall := hdone hf
    subst hall
    left
    have hus : (stageAll sabotage v [] [] done).staged.map (·.file) =
        done.map (·.target.file) := by
      rw [hstaged, List.map_map]
      rfl
    have hts : ∀ t ∈ ts, t.file ∈ ts.map (·.file) ++ done.map (·.target.file) := fun t ht =>
      List.mem_append_left _ (List.mem_map_of_mem ht)
    obtain ⟨hsound, -⟩ := swapAll_sound sabotage hl hst rfl rfl hts hus
    generalize swapAll sabotage (stageAll sabotage v [] [] done).drive ts
      (stageAll sabotage v [] [] done).staged = r at hsound herror ⊢
    obtain ⟨s, g⟩ := r
    cases g with
    | none => cases herror
    | some g =>
      cases herror
      exact ⟨rfl, rollBack_grown hl hst rfl hspared hsound hus⟩

theorem notWritten_isPersistence {f : DiskFault} (hf : f ≠ .nul) :
    (notWritten p f).isPersistence = true := by
  cases f <;> first | rfl | exact absurd rfl hf

/-- That `d'` has no more than new directories and staged files for writes of `s` besides what `d`
    has. -/
def Disk.OnlyStaged (d d' : Disk) (root : FilePath) (s : Snapshot) : Prop :=
  ∀ q, d'.node? q = d.node? q ∨ d.node? q = none ∧ (d'.node? q = some .dir ∨
    ∃ p content, s.writes.get? p = some content ∧ q = (stagingPath (root.joinText p)).names ∧
      d'.node? q = some (.file content.toUTF8))

/-- A commit with a write that leads to a directory fails. -/
theorem Committable.refused {d : Disk} {s : Snapshot} (h : Committable d root s) {a content : String}
    (ha : s.writes.get? a = some content) (hdir : d.isDir (root.joinText a) = .ok true)
    (report : CommitReport) : (commitSnapshot sabotage d root s).outcome ≠ .ok report := by
  intro hok
  rcases h.commit_cases sabotage with ⟨v, f, -, heq⟩ | ⟨v, hperform, heq⟩
  · rw [heq] at hok
    cases hok
  · obtain ⟨hgrown, -⟩ := Drive.perform_makeDirs h.plain.nul hperform
    obtain ⟨done, hstages⟩ := stageAll_start sabotage h.layout hgrown
    have hmem : (⟨⟨a, root.joinText a⟩, content⟩ : Pending) ∈ s.pendings root :=
      List.mem_map_of_mem (f := fun w : String × String => (⟨⟨w.1, root.joinText w.1⟩, w.2⟩ : Pending))
        (mem_sortedWrites.2 ha)
    rw [heq] at hok
    unfold commitTargets at hok
    dsimp only at hok
    cases hfault : (stageAll sabotage v [] [] (s.pendings root)).fault with
    | none => exact hstages.refuses hfault _ hmem hdir
    | some f =>
      rw [hfault] at hok
      dsimp only [discardStaged] at hok
      split at hok <;> cases hok

/-- **A commit that fails takes back what it did.** If one of the operations that a commit of `s`
    has `performed` failed, other than one that takes another one back, or the path of a write leads
    to a directory, the commit fails. A commit that fails reports a failure to write and leaves no
    more than new directories, or else the path of a write is too long, the failure is that of
    asking for a directory there, and staged files may be left as well: then there are `OnlyStaged`
    files more. -/
theorem commit_rolls_back (hspared : SparesUndo sabotage) {d : Disk} {s : Snapshot}
    (h : Committable d root s) :
    let step := commitSnapshot sabotage d root s
    ((∃ op f, (op, some f) ∈ step.drive.performed ∧ op.isUndo = false) →
      ∃ f, step.outcome = .error f) ∧
    ((∃ p content, s.writes.get? p = some content ∧ d.isDir (root.joinText p) = .ok true) →
      ∃ f, step.outcome = .error f) ∧
    ∀ f, step.outcome = .error f →
      (f.isPersistence = true ∧ d.Grown step.drive.disk) ∨
      (∃ p content, s.writes.get? p = some content ∧ ¬(root.joinText p).Fits ∧
        f = (DiskFault.at .nameTooLong (root.joinText p)).toFailure) ∧
      d.OnlyStaged step.drive.disk root s := by
  intro step
  have hfails : (∀ report, step.outcome ≠ .ok report) → ∃ f, step.outcome = .error f := by
    intro hnot
    cases hout : step.outcome with
    | error f => exact ⟨f, rfl⟩
    | ok report => exact absurd hout (hnot report)
  refine ⟨fun ⟨op, f, hmem, hundo⟩ => hfails fun report hok => ?_,
    fun ⟨p, content, hp, hdir⟩ => hfails (h.refused hp hdir), fun f herror => ?_⟩
  · cases h.smooth hok _ hmem hundo
  rcases h.commit_cases sabotage with ⟨v, g, hperform, heq⟩ | ⟨v, hperform, heq⟩
  · rw [show step = _ from heq] at herror ⊢
    cases herror
    obtain ⟨hgrown, hne⟩ := Drive.perform_makeDirs h.plain.nul hperform
    exact .inl ⟨notWritten_isPersistence fun hg => hne (hg ▸ rfl), hgrown⟩
  · rw [show step = _ from heq] at herror ⊢
    obtain ⟨hgrown, -⟩ := Drive.perform_makeDirs h.plain.nul hperform
    rcases commitTargets_error hspared h.layout hgrown herror with
      hback | ⟨⟨w, hw, hlong, hf⟩, done, hpre, hst⟩
    · exact .inl hback
    · obtain ⟨⟨a, content⟩, ha, rfl⟩ := List.mem_map.1 hw
      refine .inr ⟨⟨a, content, mem_sortedWrites.1 ha, hlong, hf⟩, fun q => ?_⟩
      by_cases hq : ∃ w ∈ done, q = w.place
      · obtain ⟨x, hx, rfl⟩ := hq
        have hx' := hpre.subset hx
        refine .inr ⟨(h.layout.staging _ (List.mem_map_of_mem hx')).1, .inr ?_⟩
        obtain ⟨⟨b, content'⟩, hb, rfl⟩ := List.mem_map.1 hx'
        exact ⟨b, content', mem_sortedWrites.1 hb, rfl, (hst.file _ hx).2⟩
      · rcases hst.other q fun x hx hn => hq ⟨x, hx, hn⟩ with hsame | ⟨hnone, hdir⟩
        · exact .inl hsame
        · exact .inr ⟨hnone, .inl hdir⟩

/-- Moving in is made to fail: the commit fails, and the file that was moved aside is restored. -/
theorem stuck_commit_rolls_back :
    let root : FilePath := ⟨1, ["proj"]⟩
    let d : Disk := ⟨[(["proj"], .dir), (["proj", "b"], .file "old".toUTF8)]⟩
    let s : Snapshot := ⟨Table.empty.set "a" "x", ["b"], Table.empty⟩
    let stuck : Sabotage := fun _ op => if op = .move (stagingPath (root.joinText "a"))
      (root.joinText "a") then some ⟨"disk full", none⟩ else none
    SparesUndo stuck ∧ Committable d root s ∧
      ∃ f, (commitSnapshot stuck d root s).outcome = .error f ∧ f.isPersistence = true ∧
        d.Grown (commitSnapshot stuck d root s).drive.disk := by
  intro root d s stuck
  have hspared : SparesUndo stuck := by
    intro n op hundo
    refine if_neg ?_
    rintro rfl
    exact absurd hundo (by decide)
  have hcommittable : Committable d root s := by
    have hlinks := @Disk.no_link_of_entries d (by simp [d])
    refine ⟨⟨by decide, by decide⟩, fun q target hq => absurd hq (hlinks q target), fun p hp => ?_,
      by decide, by decide, by decide⟩
    rcases List.mem_cons.1 (show p ∈ ["b", "a"] from hp) with rfl | hp
    · exact ⟨"b", rfl⟩
    · rw [List.mem_singleton.1 hp]
      exact ⟨"a", rfl⟩
  have htargets : s.targets root = [⟨"b", ⟨1, ["proj", "b"]⟩⟩] := by decide +kernel
  have hpendings : s.pendings root = [⟨⟨"a", ⟨1, ["proj", "a"]⟩⟩, "x"⟩] := by decide +kernel
  have htop : d.Reaches root := Disk.reaches_top (by decide +kernel)
  have hroot : d.makeDirs root = (d, none) :=
    Disk.makeDirs_there hcommittable.plain hcommittable.clear.unlinked_top (by simp [root]) htop rfl
  have hjoin : root.joinText "a" = ⟨1, ["proj", "a"]⟩ := by decide
  have hl := hcommittable.layout
  rw [htargets, hpendings] at hl
  have hfails : (commitSnapshot stuck d root s).outcome =
      .error (.fault (.persistence root.text ("commit rolled back: " ++ "disk full"))) := by
    rw [hcommittable.commit_there (fun _ => if_neg nofun) hroot, htargets, hpendings]
    exact commitTargets_of_pair (fun _ _ hop => if_neg (hjoin ▸ hop)) (fun _ => if_pos (by rw [hjoin]))
      hl hroot (htop.child rfl (by decide +kernel)) (by decide +kernel)
      (htop.child rfl (by decide +kernel)) (by decide +kernel) rfl rfl
  refine ⟨hspared, hcommittable, _, hfails, rfl, ?_⟩
  rcases (commit_rolls_back hspared hcommittable).2.2 _ hfails with
    ⟨-, hback⟩ | ⟨⟨p, content, -, -, hf⟩, -⟩
  · exact hback
  · cases hf

/-- A name that is longer than any a file can have. -/
def overlongName : String := String.ofList (List.replicate 256 'b')

theorem overlongName_proper : ProperSegment (List.replicate 256 'b') := by
  refine ⟨rfl, fun h => ?_, fun h => ?_⟩
  · exact absurd (List.eq_of_mem_replicate h) (by decide)
  · exact absurd (List.eq_of_mem_replicate h) (by decide)

theorem overlongName_normalized : Normalized overlongName := by
  refine .of_segment overlongName_proper fun c hc => ?_
  rw [List.eq_of_mem_replicate hc]
  decide

theorem ofText_overlongName : FilePath.ofText overlongName = ⟨0, [overlongName]⟩ := by
  have hproper : ∀ s ∈ [List.replicate 256 'b'], ProperSegment s := fun s hs =>
    List.mem_singleton.1 hs ▸ overlongName_proper
  have hnames := ofText_joinWith (List.cons_ne_nil _ _) hproper
  rwa [joinWith, List.map_singleton] at hnames

/-- It is no name of one letter. -/
theorem overlongName_ne {s : String} (hs : s.length = 1) : overlongName ≠ s := by
  rintro rfl
  have hlength : overlongName.length = 256 := String.length_ofList.trans List.length_replicate
  rw [hlength] at hs
  cases hs

theorem joinText_overlongName :
    FilePath.joinText ⟨1, ["proj"]⟩ overlongName = ⟨1, ["proj", overlongName]⟩ := by
  rw [joinText, ofText_overlongName]
  rfl

/-- Nothing can be looked at below the directory `proj` under a name that is too long, whatever is
    asked of it. -/
theorem Disk.looksLike_overlongName {d : Disk} (hdir : d.node? ["proj"] = some .dir)
    (test : Node → Bool) : d.looksLike test ⟨1, ["proj", overlongName]⟩ =
      .error (.at .nameTooLong ⟨1, ["proj", overlongName]⟩) := by
  have hlong : isLongName "proj" = false ∧ isLongName overlongName = true ∧
      (⟨1, ["proj", overlongName]⟩ : FilePath).isLong = false := by decide +kernel
  obtain ⟨hproj, hover, hfit⟩ := hlong
  have hproper := overlongName_normalized.names
  rw [ofText_overlongName] at hproper
  obtain ⟨hempty, hdot, hup, hnul⟩ := hproper.2.2 overlongName (List.mem_singleton.2 rfl)
  have hnul' : (⟨1, ["proj", overlongName]⟩ : FilePath).hasNul = false := by simp [hasNul, hnul]
  have hwalk : d.walk .content maxLinks [] ["proj", overlongName] = .error .nameTooLong := by
    simp [walk, isDirNode, hdir, hproj, hover, hempty, hdot, hup]
  have hlook : d.look ⟨1, ["proj", overlongName]⟩ = .error .nameTooLong := by
    rw [look, locate, hfit, if_neg Bool.false_ne_true, hwalk]
  rw [looksLike, hnul', if_neg Bool.false_ne_true, hlook]
  rfl

/-- The files of a project cannot be looked at under a name that is too long. -/
theorem overlongName_trouble (walk : Disk.TreeWalk) :
    ((Disk.project ⟨[(["proj"], .dir), (["proj", "a"], .file "x".toUTF8)]⟩ ⟨1, ["proj"]⟩
      [] walk).trouble overlongName).isSome = true := by
  have htrouble : ∀ (d : Disk) (root : FilePath) (p : String),
      (d.project root [] walk).trouble p = d.lookFailure (root.joinText p) := fun _ _ _ => rfl
  rw [htrouble, joinText_overlongName, Disk.lookFailure, Disk.isFile,
    Disk.looksLike_overlongName rfl]
  rfl

theorem stageAll_of_second {v v' : Drive} {w w' : Pending} {q : FilePath} {f : DiskFault}
    (hfirst : v.disk.isDir w.target.file = .ok false)
    (hstage : stageFile sabotage v w.target.file w.content = ⟨v', .ok q, []⟩)
    (hsecond : v'.disk.isDir w'.target.file = .error f) :
    stageAll sabotage v [] [] [w, w'] = ⟨v', [w.target], some f.toFailure, []⟩ := by
  rw [stageAll, hfirst]
  dsimp only
  rw [hstage]
  dsimp only
  rw [stageAll, hsecond]
  rfl

/-- A write of `a` and one under a name that is too long can be committed to an empty project, as far
    as their paths go. -/
theorem overlong_committable : Committable ⟨[(["proj"], .dir)]⟩ ⟨1, ["proj"]⟩
    ⟨(Table.empty.set "a" "x").set overlongName "y", [], Table.empty⟩ := by
  generalize hd : (⟨[(["proj"], .dir)]⟩ : Disk) = d
  generalize hs : (⟨(Table.empty.set "a" "x").set overlongName "y", [], Table.empty⟩ : Snapshot) = s
  have hlinks := @Disk.no_link_of_entries d (by simp [← hd])
  have hnone : ∀ q, q ≠ [] → q ≠ ["proj"] → d.node? q = none := by
    intro q h1 h2
    simp [Disk.node?, Disk.lookup, ← hd, h1, Ne.symm h2]
  have hplain : (⟨1, ["proj"]⟩ : FilePath).Plain := ⟨by decide, by decide⟩
  have hkeys : s.writes.keys = ["a", overlongName] := by
    rw [← hs]
    decide +kernel
  have hpaths : s.paths = ["a", overlongName] := by
    rw [Snapshot.paths, hkeys, ← hs]
    rfl
  have hnormalized : ∀ p ∈ s.paths, Normalized p := by
    rw [hpaths]
    intro p hp
    rcases List.mem_cons.1 hp with rfl | hp
    · exact ⟨"a", rfl⟩
    · exact List.mem_singleton.1 hp ▸ overlongName_normalized
  have hfree : ∀ p ∈ s.paths, d.node? (stagingPath (joinText ⟨1, ["proj"]⟩ p)).names = none ∧
      d.node? (backupPath (joinText ⟨1, ["proj"]⟩ p)).names = none := by
    intro p hp
    have hbelow := (hnormalized p hp).below hplain
    exact ⟨hnone _ hbelow.staging.names_ne_nil hbelow.staging.ne,
      hnone _ hbelow.backup.names_ne_nil hbelow.backup.ne⟩
  have hapart : ∀ p ∈ s.paths, p ++ stagingEnding ∉ s.paths ∧ p ++ backupEnding ∉ s.paths := by
    rw [hpaths]
    decide +kernel
  have hwritten : ∀ p ∈ s.writes.keys, p ∈ s.paths := fun _ hp => List.mem_append_right _ hp
  refine ⟨hplain, fun q target hq => absurd hq (hlinks q target), hnormalized, ?_,
    fun p hp => ⟨(hfree p (hwritten p hp)).1, (hapart p (hwritten p hp)).1⟩,
    fun p hp => ⟨(hfree p hp).2, (hapart p hp).2⟩⟩
  rw [← hs]
  exact fun p hp => absurd hp List.not_mem_nil

theorem overlong_pendings :
    Snapshot.pendings ⟨1, ["proj"]⟩
      ⟨(Table.empty.set "a" "x").set overlongName "y", [], Table.empty⟩ =
    [⟨⟨"a", ⟨1, ["proj", "a"]⟩⟩, "x"⟩, ⟨⟨overlongName, ⟨1, ["proj", overlongName]⟩⟩, "y"⟩] := by
  have hlt : "a" < overlongName := by
    have hchars : overlongName.toList = 'b' :: List.replicate 255 'b' :=
      String.toList_ofList.trans List.replicate_succ
    rw [String.lt_iff, hchars]
    exact .rel (by decide)
  have hjoin : FilePath.joinText ⟨1, ["proj"]⟩ "a" = ⟨1, ["proj", "a"]⟩ := by decide
  generalize hs : (⟨(Table.empty.set "a" "x").set overlongName "y", [], Table.empty⟩ : Snapshot) = s
  have hset : s.writes = (Table.empty.set "a" "x").set overlongName "y" := by rw [← hs]
  rw [Snapshot.pendings, sortedWrites_pair hlt hset, List.map_cons, List.map_singleton,
    joinText_overlongName, hjoin]

/-- The second of two writes has a name that is too long: the commit fails in a way that it does not
    deal with, and leaves the first write staged. -/
theorem overlong_name_leaves_staged_file :
    let root : FilePath := ⟨1, ["proj"]⟩
    let d : Disk := ⟨[(["proj"], .dir)]⟩
    let s : Snapshot := ⟨(Table.empty.set "a" "x").set overlongName "y", [], Table.empty⟩
    Committable d root s ∧ ∃ f, (commitSnapshot noSabotage d root s).outcome = .error f ∧
      f.isPersistence = false ∧ d.node? ["proj", "a.tmp"] = none ∧
      (commitSnapshot noSabotage d root s).drive.disk.node? ["proj", "a.tmp"] =
        some (.file "x".toUTF8) := by
  intro root d s
  have hcommittable : Committable d root s := overlong_committable
  have htop : d.Reaches root := Disk.reaches_top (by decide +kernel)
  have hroot : d.makeDirs root = (d, none) :=
    Disk.makeDirs_there hcommittable.plain hcommittable.clear.unlinked_top (by simp [root]) htop rfl
  have hbelow : root.Below ⟨1, ["proj", "a"]⟩ := by
    have hnormalized : Normalized "a" := ⟨"a", rfl⟩
    have hb := hnormalized.below hcommittable.plain
    rwa [show root.joinText "a" = ⟨1, ["proj", "a"]⟩ by decide] at hb
  have hreach : d.Reaches ⟨1, ["proj", "a"]⟩ := htop.child rfl (by decide +kernel)
  have hplace : stagingPath ⟨1, ["proj", "a"]⟩ = ⟨1, ["proj", "a.tmp"]⟩ := by decide +kernel
  have hfree : d.node? ["proj", "a.tmp"] = none := by decide
  -- the first write is staged
  have hfirst : (Drive.rooted d root).disk.isDir ⟨1, ["proj", "a"]⟩ = .ok false :=
    Disk.looksLike_free hbelow.plain (hcommittable.clear.unlinked hbelow) hreach rfl
  have hstage := @stageFile_goes noSabotage root ⟨1, ["proj", "a"]⟩ (Drive.rooted d root) "x"
    (fun _ _ _ => rfl) hbelow hcommittable.clear hroot
    (hreach.addSuffix (List.cons_ne_nil _ _) (by decide +kernel)) (by simp [hplace, hfree])
  rw [hplace, Drive.rooted_disk] at hstage
  -- and the second one cannot be looked at, which is not dealt with
  have hsecond : (d.put ["proj", "a.tmp"] (.file "x".toUTF8)).isDir
      (⟨⟨overlongName, ⟨1, ["proj", overlongName]⟩⟩, "y"⟩ : Pending).target.file =
      .error (.at .nameTooLong ⟨1, ["proj", overlongName]⟩) :=
    Disk.looksLike_overlongName
      ((Disk.node?_put _ (List.cons_ne_nil _ _) _ ["proj"]).trans (if_neg (by decide))) _
  have hdiscard : ∀ g : Staging, discardStaged noSabotage g
      (DiskFault.at .nameTooLong ⟨1, ["proj", overlongName]⟩).toFailure =
      ⟨g.drive, .error (DiskFault.at .nameTooLong ⟨1, ["proj", overlongName]⟩).toFailure,
        g.entries⟩ := fun g => if_neg Bool.false_ne_true
  have hstaging := stageAll_of_second (w := ⟨⟨"a", ⟨1, ["proj", "a"]⟩⟩, "x"⟩) hfirst hstage hsecond
  rw [hcommittable.commit_there (fun _ => rfl) hroot, overlong_pendings, commitTargets, hstaging]
  dsimp only
  rw [hdiscard]
  refine ⟨hcommittable, _, rfl, rfl, hfree, ?_⟩
  rw [Drive.staged_disk, Disk.node?_put _ (List.cons_ne_nil _ _), if_pos rfl]

end StagedEdits
