import StagedEdits.Overlay.Applier
import StagedEdits.Proofs.NamedPlaces

set_option autoImplicit false

/-! # A file that is renamed

What a rename of a file comes to on the disk, links or not, once it is committed: nothing is left at
the old path, and at the new one are the bytes of the file with its newlines unified.

Main statements: `commitTargets_moves`, `rename_moves_file`. -/

namespace StagedEdits

open FilePath

variable {sabotage : Sabotage} {root : FilePath}

/-! ## One file staged -/

theorem stageFile_done {v v' : Drive} {p q : FilePath} {content : String} {said : List Entry}
    (h : stageFile sabotage v p content = ⟨v', .ok q, said⟩) : p.names ≠ [] ∧ ∃ v₁,
      v.perform sabotage (.makeDirs p.parent) = (v₁, none) ∧
      v₁.perform sabotage (.write (stagingPath p) content.toUTF8) = (v', none) := by
  have hfail : ∀ v f, abandonStaging sabotage v p f ≠ ⟨v', .ok q, said⟩ := by
    intro v f
    unfold abandonStaging
    split <;> nofun
  unfold stageFile at h
  split at h
  · cases h
  · rename_i hne
    refine ⟨by simpa using hne, ?_⟩
    split at h
    · exact absurd h (hfail _ _)
    · rename_i v₁ hmake
      split at h
      · exact absurd h (hfail _ _)
      · rename_i v₂ hwrite
        cases h
        exact ⟨v₁, hmake, hwrite⟩

/-- That `d'` has, beside new directories, a staged file with `content` for the path `p`, the name
    `n` in `dir`. -/
structure StagedAt (d d' : Disk) (p : FilePath) (dir : Place) (n : String) (content : String) :
    Prop where
  finds : d'.Finds (stagingPath p) dir (n ++ stagingEnding)
  file : d'.node? (dir ++ [n ++ stagingEnding]) = some (.file content.toUTF8)
  other : ∀ q, q ≠ dir ++ [n ++ stagingEnding] →
    d'.node? q = d.node? q ∨ d.node? q = none ∧ d'.node? q = some .dir
  old : d.node? (dir ++ [n ++ stagingEnding]) = none ∨
    ∃ bytes, d.node? (dir ++ [n ++ stagingEnding]) = some (.file bytes)

theorem stageFile_stages {d : Disk} {v v' : Drive} {p q : FilePath} {content : String}
    {said : List Entry} (hgrown : d.Grown v.disk)
    (hlink : ∀ q target, d.Names (stagingPath p) q → d.node? q ≠ some (.link target))
    (h : stageFile sabotage v p content = ⟨v', .ok q, said⟩) :
    ∃ dir n, StagedAt d v'.disk p dir n content := by
  obtain ⟨hne, v₁, hmake, hwrite⟩ := stageFile_done h
  have hgrown₁ : d.Grown v₁.disk := hgrown.trans (Drive.makeDirs_grown hmake)
  obtain ⟨dir, n, hfinds, hput⟩ := Disk.writeFile_finds hne (by decide) (Drive.write_done hwrite)
  have hnolink : ∀ target, v₁.disk.node? (dir ++ [n ++ stagingEnding]) ≠ some (.link target) :=
    fun target hl =>
      hlink _ target (hfinds.names fun _ _ => hgrown₁.link_iff) (hgrown₁.link_iff.1 hl)
  obtain ⟨hdir, hdisk⟩ := hput hnolink
  have hretain : v₁.disk.Retains v'.disk := by
    rw [hdisk]
    exact (Disk.Retains.refl _).put hdir hnolink
  refine ⟨dir, n, hretain.finds hfinds, ?_, fun q hq => ?_, ?_⟩
  · rw [hdisk, Disk.node?_put _ (by simp), if_pos rfl]
  · rw [hdisk, Disk.node?_put _ (by simp), if_neg hq]
    exact hgrown₁ q
  · rcases hgrown₁ (dir ++ [n ++ stagingEnding]) with hsame | ⟨hnone, -⟩
    · rw [← hsame]
      cases hnode : v₁.disk.node? (dir ++ [n ++ stagingEnding]) with
      | none => exact .inl rfl
      | some node =>
        cases node with
        | dir => exact absurd hnode hdir
        | link target => exact absurd hnode (hnolink target)
        | file bytes => exact .inr ⟨bytes, rfl⟩
    · exact .inl hnone

namespace StagedAt

variable {d d' : Disk} {p : FilePath} {dir : Place} {n content : String}
  (h : StagedAt d d' p dir n content)

include h

/-- Staging makes no link and takes none away. -/
theorem link_iff (q : Place) (target : String) :
    d'.node? q = some (.link target) ↔ d.node? q = some (.link target) := by
  by_cases hq : q = dir ++ [n ++ stagingEnding]
  · subst hq
    rw [h.file]
    rcases h.old with hnone | ⟨bytes, hfile⟩
    · rw [hnone]
      exact ⟨nofun, nofun⟩
    · rw [hfile]
      exact ⟨nofun, nofun⟩
  · rcases h.other q hq with hsame | ⟨hnone, hdir⟩
    · rw [hsame]
    · rw [hnone, hdir]
      exact ⟨nofun, nofun⟩

/-- What was a file is still one. -/
theorem look_file {a : FilePath} {bytes : ByteArray} (hlook : d.look a = .ok (.file bytes)) :
    ∃ bytes', d'.look a = .ok (.file bytes') := by
  have hkept : ∀ q node, d.node? q = some node → d'.node? q = some node ∨
      ∃ bytes bytes', node = .file bytes ∧ d'.node? q = some (.file bytes') := by
    intro q node hnode
    by_cases hq : q = dir ++ [n ++ stagingEnding]
    · subst hq
      rcases h.old with hnone | ⟨old, hfile⟩
      · rw [hnone] at hnode
        cases hnode
      · rw [hfile] at hnode
        cases hnode
        exact .inr ⟨old, _, rfl, h.file⟩
    · rcases h.other q hq with hsame | ⟨hnone, -⟩
      · exact .inl (hsame.trans hnode)
      · rw [hnone] at hnode
        cases hnode
  unfold Disk.look at hlook ⊢
  cases hplace : d.locate .content a with
  | error c =>
    rw [hplace] at hlook
    cases hlook
  | ok place =>
    rw [hplace] at hlook
    dsimp only at hlook
    have hnode : d.node? place = some (.file bytes) := by
      split at hlook
      · cases hlook
      · rename_i hnode
        rw [hnode, Except.ok.inj hlook]
    have hplace' : d'.locate .content a = .ok place := by
      unfold Disk.locate at hplace ⊢
      split
      · rename_i hlong
        rw [if_pos hlong] at hplace
        cases hplace
      · rename_i hlong
        rw [if_neg hlong] at hplace
        exact Disk.walk_kept hkept hplace (by rw [hnode]; nofun)
    rw [hplace']
    dsimp only
    rcases hkept place _ hnode with hsame | ⟨-, bytes', -, hfile⟩
    · exact ⟨bytes, by rw [hsame]⟩
    · exact ⟨bytes', by rw [hfile]⟩

end StagedAt

/-! ## One delete and one write -/

/-- That the file at `p` was moved aside if `isThere`. -/
structure AsideTo (sabotage : Sabotage) (v v' : Drive) (p : FilePath) (isThere : Bool) : Prop where
  look : v.disk.isFile p = .ok isThere
  move : isThere = true → v.perform sabotage (.move p (backupPath p)) = (v', none)
  stay : isThere = false → v' = v

theorem moveAside_done {s s' : Swap} {p : FilePath} {b : Bool}
    (h : moveAside sabotage s p = (s', .ok b)) : AsideTo sabotage s.drive s'.drive p b ∧
      s'.moved = s.moved ++ (if b then [p] else []) := by
  unfold moveAside at h
  split at h
  · cases h
  · rename_i hno
    cases h
    exact ⟨⟨hno, nofun, fun _ => rfl⟩, (List.append_nil _).symm⟩
  · rename_i hyes
    split at h
    · cases h
    · rename_i v' hmove
      cases h
      exact ⟨⟨hyes, fun _ => hmove, nofun⟩, rfl⟩

theorem stageAll_done {v : Drive} {w : Pending}
    (hnone : (stageAll sabotage v [] [] [w]).fault = none) : ∃ v₁ q said,
      stageFile sabotage v w.target.file w.content = ⟨v₁, .ok q, said⟩ ∧
      stageAll sabotage v [] [] [w] = ⟨v₁, [w.target], none, said⟩ := by
  unfold stageAll at hnone ⊢
  split at hnone
  · cases hnone
  · cases hnone
  · split at hnone
    · cases hnone
    · rename_i v₁ q said hstage
      exact ⟨v₁, q, said, hstage, rfl⟩

theorem moveDeleted_done {s s' : Swap} {t : Target}
    (h : moveDeleted sabotage s [t] = (s', none)) : ∃ b,
      AsideTo sabotage s.drive s'.drive t.file b ∧
      s'.moved = s.moved ++ (if b then [t.file] else []) := by
  unfold moveDeleted at h
  split at h
  · cases (Prod.mk.inj h).2
  · rename_i haside
    cases h
    exact ⟨false, moveAside_done haside⟩
  · rename_i haside
    cases h
    obtain ⟨hto, hmoved⟩ := moveAside_done haside
    exact ⟨true, hto, hmoved⟩

theorem moveReplaced_done {s s' : Swap} {t : Target}
    (h : moveReplaced sabotage s [t] = (s', none)) : ∃ b,
      AsideTo sabotage s.drive s'.drive t.file b ∧
      s'.moved = s.moved ++ (if b then [t.file] else []) := by
  unfold moveReplaced at h
  split at h
  · cases (Prod.mk.inj h).2
  · rename_i s₁ b haside
    cases h
    exact ⟨b, moveAside_done haside⟩

theorem moveIn_done {s s' : Swap} {t : Target} (h : moveIn sabotage s [t] = (s', none)) :
    s.drive.perform sabotage (.move (stagingPath t.file) t.file) = (s'.drive, none) ∧
      s'.moved = s.moved := by
  unfold moveIn at h
  split at h
  · cases (Prod.mk.inj h).2
  · rename_i v hmove
    cases h
    exact ⟨hmove, rfl⟩

/-- The steps of a second phase of one delete and one write that goes through. -/
theorem swapAll_done {v : Drive} {t u : Target} {s : Swap}
    (h : swapAll sabotage v [t] [u] = (s, none)) : ∃ v₂ v₃ b b',
      AsideTo sabotage v v₂ t.file b ∧ AsideTo sabotage v₂ v₃ u.file b' ∧
      v₃.perform sabotage (.move (stagingPath u.file) u.file) = (s.drive, none) ∧
      s.moved = (if b then [t.file] else []) ++ (if b' then [u.file] else []) := by
  unfold swapAll at h
  split at h
  · cases (Prod.mk.inj h).2
  · rename_i s₁ hdeleted
    split at h
    · cases (Prod.mk.inj h).2
    · rename_i s₂ hreplaced
      obtain ⟨b, haside, hmoved₁⟩ := moveDeleted_done hdeleted
      obtain ⟨b', haside', hmoved₂⟩ := moveReplaced_done hreplaced
      obtain ⟨hin, hmoved₃⟩ := moveIn_done h
      exact ⟨_, _, b, b', haside, haside', hin, by rw [hmoved₃, hmoved₂, hmoved₁]; rfl⟩

/-- The steps of a commit of one delete and one write that goes through. -/
theorem commitTargets_done {v : Drive} {t : Target} {w : Pending} {report : CommitReport}
    (hok : (commitTargets sabotage v root [t] [w]).outcome = .ok report) :
    ∃ v₁ v₂ v₃ v₄ q said b b', stageFile sabotage v w.target.file w.content = ⟨v₁, .ok q, said⟩ ∧
      AsideTo sabotage v₁ v₂ t.file b ∧ AsideTo sabotage v₂ v₃ w.target.file b' ∧
      v₃.perform sabotage (.move (stagingPath w.target.file) w.target.file) = (v₄, none) ∧
      (commitTargets sabotage v root [t] [w]).drive = (removeAllQuietly sabotage v₄
        (((if b then [t.file] else []) ++
          (if b' then [w.target.file] else [])).map backupPath)).1 := by
  unfold commitTargets at hok ⊢
  dsimp only at hok ⊢
  cases hfault : (stageAll sabotage v [] [] [w]).fault with
  | some f =>
    rw [hfault] at hok
    dsimp only at hok
    unfold discardStaged at hok
    split at hok <;> cases hok
  | none =>
    obtain ⟨v₁, q, said, hstaged, hstaging⟩ := stageAll_done hfault
    rw [hstaging] at hok ⊢
    dsimp only at hok ⊢
    cases hswap : swapAll sabotage v₁ [t] [w.target] with
    | mk s fault =>
      cases fault with
      | some f =>
        rw [hswap] at hok
        cases hok
      | none =>
        obtain ⟨v₂, v₃, b, b', haside, haside', hmove, hmoved⟩ := swapAll_done hswap
        refine ⟨v₁, v₂, v₃, s.drive, q, said, b, b', hstaged, haside, haside', hmove, ?_⟩
        rw [← hmoved]

/-- No staged name is one that a file is moved aside under. -/
theorem stagingName_ne_backupName (n m : String) : n ++ stagingEnding ≠ m ++ backupEnding := by
  intro h
  have hchars := congrArg (fun s => s.toList.getLast?) h
  simp [stagingEnding, backupEnding] at hchars

section OneForOne

variable {d d₁ d₂ : Disk} {a b : FilePath} {dirA dirB : Place} {nA nB content : String}
  {nodeA : Node}
  (hst : StagedAt d d₁ b dirB nB content) (haside : d₁.MovesAside d₂ a dirA nA nodeA)
  (hfree : ∀ q, d.Names b q → d.node? q = none)
  (hbackup : ∀ q, d.Names b q → ¬d.Names (backupPath a) q)

include hst haside hfree hbackup

/-- Nothing came to the place of the write but a directory that was made. -/
theorem still_free {dir : Place} {n : String} (hfinds : d₁.Finds b dir n) :
    (d₂.node? (dir ++ [n]) = none ∨ d₂.node? (dir ++ [n]) = some .dir) ∧
      dir ++ [n] ≠ dirA ++ [nA] ∧ dir ++ [n] ≠ dirA ++ [nA ++ backupEnding] := by
  have hnamed := hfinds.names hst.link_iff
  have hnode : d₁.node? (dir ++ [n]) = none ∨ d₁.node? (dir ++ [n]) = some .dir := by
    obtain ⟨rfl, hn⟩ := hfinds.beside hst.finds
    have hne : dirB ++ [n] ≠ dirB ++ [nB ++ stagingEnding] := by
      rw [hn]
      simpa using (append_ending_ne (by decide) n).symm
    rcases hst.other _ hne with hsame | ⟨-, hdir⟩
    · exact .inl (hsame.trans (hfree _ hnamed))
    · exact .inr hdir
  have hne : dir ++ [n] ≠ dirA ++ [nA] := by
    intro heq
    rw [heq, haside.there] at hnode
    rcases hnode with hnone | hdir
    · cases hnone
    · exact haside.notDir (Option.some.inj hdir)
  have hneAside : dir ++ [n] ≠ dirA ++ [nA ++ backupEnding] := fun heq =>
    hbackup _ hnamed (heq ▸ haside.findsAside.names hst.link_iff)
  refine ⟨?_, hne, hneAside⟩
  rwa [haside.node_of_ne hneAside, if_neg hne]

/-- The content is moved in, and what was moved aside stays there. -/
theorem moved_in (hb : b.Proper) {d₃ : Disk} (h : d₂.moveFile (stagingPath b) b = .ok d₃) :
    ∃ dir n, d₂.Finds b dir n ∧ d₁.Narrows d₃ ∧ d₂.Retains d₃ ∧
      dir ++ [n] ≠ dirA ++ [nA ++ backupEnding] ∧
      d₃.node? (dir ++ [n]) = some (.file content.toUTF8) ∧ d₃.node? (dirA ++ [nA]) = none ∧
      d₃.node? (dirA ++ [nA ++ backupEnding]) = some nodeA := by
  have hnarrow := haside.narrows (.refl d₁) (.refl d₁)
  obtain ⟨dir, n, node, hfinds, hfinds', hnode, -, hdir, rfl⟩ := Disk.moveFile_back hb (by decide) h
  obtain ⟨hnew, hneA, hneAside⟩ := still_free hst haside hfree hbackup (hnarrow.finds hfinds)
  -- what is moved in was staged, for it is neither the file moved aside nor at its old place
  obtain ⟨rfl, hsame⟩ := hst.finds.unique (hnarrow.finds hfinds')
  have hstaged := hst.file
  rw [hsame] at hstaged
  have hneAside' : dirB ++ [n ++ stagingEnding] ≠ dirA ++ [nA ++ backupEnding] := fun heq =>
    stagingName_ne_backupName n nA (List.cons.inj (List.append_inj' heq rfl).2).1
  have hneA' : dirB ++ [n ++ stagingEnding] ≠ dirA ++ [nA] := by
    intro heq
    rw [haside.node_of_ne hneAside', if_pos heq] at hnode
    cases hnode
  have hfile : node = .file content.toUTF8 := by
    rw [haside.node_of_ne hneAside', if_neg hneA', hstaged] at hnode
    exact (Option.some.inj hnode).symm
  subst hfile
  have hneS : dirB ++ [n] ≠ dirB ++ [n ++ stagingEnding] := by
    simpa using (append_ending_ne (by decide) n).symm
  refine ⟨dirB, n, hfinds, (hnarrow.drop (by simp)).put nofun nofun, ?_, hneAside, ?_, ?_, ?_⟩
  · refine ((Disk.Retains.refl d₂).drop (by rw [hnode]; nofun) (by rw [hnode]; nofun)).put ?_ ?_
    · rwa [Disk.node?_drop _ (by simp), if_neg hneS]
    · intro target hl
      rw [hl] at hnew
      rcases hnew with hnone | hdir'
      · cases hnone
      · cases hdir'
  · rw [Disk.node?_put _ (by simp), if_pos rfl]
  · have hne : dirA ++ [nA] ≠ dirA ++ [nA ++ backupEnding] := by
      simpa using (append_ending_ne (by decide) nA).symm
    rw [Disk.node?_put _ (by simp), if_neg hneA.symm, Disk.node?_drop _ (by simp),
      if_neg hneA'.symm, haside.node_of_ne hne, if_pos rfl]
  · rw [Disk.node?_put _ (by simp), if_neg hneAside.symm, Disk.node?_drop _ (by simp),
      if_neg hneAside'.symm, haside.node_aside]

/-- There is no file for the write to replace. -/
theorem not_replaced (hb : b.Proper) {v v' : Drive} (hv : v.disk = d₂) {isThere : Bool}
    (h : AsideTo sabotage v v' b isThere) : isThere = false := by
  subst hv
  cases isThere with
  | false => rfl
  | true =>
    exfalso
    obtain ⟨dir, n, node, hreplaced⟩ := Disk.movesAside hb h.look (Drive.move_done (h.move rfl))
    obtain ⟨hnew, -⟩ := still_free hst haside hfree hbackup
      ((haside.narrows (.refl _) (.refl _)).finds hreplaced.finds)
    rcases hnew with hnone | hdir
    · rw [hreplaced.there] at hnone
      cases hnone
    · rw [hreplaced.there] at hdir
      exact hreplaced.notDir (Option.some.inj hdir)

end OneForOne

/-- When the backup of a file is removed, at most that goes. -/
theorem backup_removed (sabotage : Sabotage) {d₁ d₂ : Disk} {v : Drive} {a : FilePath}
    {dir : Place} {n : String} {node : Node} (ha : a.Proper) (haside : d₁.MovesAside d₂ a dir n node)
    (hretain : d₂.Retains v.disk) (hnarrow : d₁.Narrows v.disk)
    (hcopy : v.disk.node? (dir ++ [n ++ backupEnding]) = some node) :
    let d' := (removeQuietly sabotage v (backupPath a)).1.disk
    d₂.Retains d' ∧ d₁.Narrows d' ∧
      ∀ q, q ≠ dir ++ [n ++ backupEnding] → d'.node? q = v.disk.node? q := by
  have hbak : (backupPath a).Proper := ha.addSuffix (by decide)
  dsimp only
  rcases Drive.removeQuietly_finds hbak with hsame | ⟨dir', m, gone, hfinds, hnode, hdir, hdrop⟩
  · rw [hsame]
    exact ⟨hretain, hnarrow, fun _ _ => rfl⟩
  · obtain ⟨rfl, rfl⟩ := haside.findsAside.unique (hnarrow.finds hfinds)
    rw [hdrop]
    refine ⟨hretain.drop (by rw [hnode]; simpa using hdir) fun target hl => ?_,
      hnarrow.drop (by simp), fun q hq => by rw [Disk.node?_drop _ (by simp), if_neg hq]⟩
    rw [hcopy] at hl
    exact (haside.narrows (.refl _) (.refl _)).shut (haside.shut target (Option.some.inj hl))

/-- **A commit of one delete and one write leaves the content at the one path and nothing at the
    other**, if the delete is of a file, the place of the write is free and not the one where the
    file is moved aside to, and no link is where the content is staged. -/
theorem commitTargets_moves {d : Disk} {v : Drive} {t : Target} {w : Pending} {bytes : ByteArray}
    {report : CommitReport} (hgrown : d.Grown v.disk) (ht : t.file.Proper)
    (hw : w.target.file.Proper) (hbytes : d.bytes? t.file = some bytes)
    (hfree : ∀ q, d.Names w.target.file q → d.node? q = none)
    (hstaging : ∀ q target, d.Names (stagingPath w.target.file) q → d.node? q ≠ some (.link target))
    (hbackup : ∀ q, d.Names w.target.file q → ¬d.Names (backupPath t.file) q)
    (hok : (commitTargets sabotage v root [t] [w]).outcome = .ok report) :
    let d' := (commitTargets sabotage v root [t] [w]).drive.disk
    d'.bytes? w.target.file = some w.content.toUTF8 ∧ d'.bytes? t.file = none ∧
      ∀ q, d.Names t.file q → d'.node? q = none := by
  intro d'
  obtain ⟨v₁, v₂, v₃, v₄, q, said, b, b', hstage, haside, haside', hin, hdrive⟩ :=
    commitTargets_done hok
  obtain ⟨dirB, nB, hst⟩ := stageFile_stages hgrown hstaging hstage
  -- the file to delete is still there, so it is moved aside
  obtain ⟨hnul, hlook⟩ := Disk.bytes?_iff.1 hbytes
  obtain ⟨bytes', hlook'⟩ := hst.look_file hlook
  have hisFile := Disk.isFile_iff.2 ⟨hnul, bytes', hlook'⟩
  obtain rfl : b = true := by
    rw [haside.look] at hisFile
    exact Except.ok.inj hisFile
  obtain ⟨dirA, nA, nodeA, hmoved⟩ := Disk.movesAside ht hisFile (Drive.move_done (haside.move rfl))
  obtain rfl : b' = false := not_replaced hst hmoved hfree hbackup hw rfl haside'
  obtain rfl := haside'.stay rfl
  obtain ⟨dir, n, hfinds, hnarrow, hretain, hne, hfile, hgone, hcopy⟩ :=
    moved_in hst hmoved hfree hbackup hw (Drive.move_done hin)
  have hbeside : dirA ++ [nA] ≠ dirA ++ [nA ++ backupEnding] := by
    simpa using (append_ending_ne (by decide) nA).symm
  have hclean := backup_removed sabotage ht hmoved hretain hnarrow hcopy
  have hd' : d' = (removeQuietly sabotage v₄ (backupPath t.file)).1.disk :=
    congrArg Drive.disk hdrive
  rw [← hd'] at hclean
  obtain ⟨hretain', hnarrow', hnode'⟩ := hclean
  have hgone' := (hnode' _ hbeside).trans hgone
  refine ⟨Disk.bytes?_iff.2 ⟨Disk.moveFile_hasNul (Drive.move_done hin), ?_⟩,
    hnarrow'.bytes?_eq_none hmoved.finds hgone', fun q hq => ?_⟩
  · exact (hretain'.finds hfinds).look_file ((hnode' _ hne).trans hfile)
  · rw [hq.unique (hmoved.finds.names hst.link_iff)]
    exact hgone'

/-! ## A rename -/

/-- What there is to commit after a rename alone. -/
theorem sortedWrites_move {a b content : String} :
    sortedWrites (Overlay.empty.move a b content).snapshot = [(b, content)] := by
  have hwrites : (Overlay.empty.move a b content).snapshot.writes =
      (Table.empty.erase a).set b content := rfl
  have hkeys : (Names.ofList (Overlay.empty.move a b content).snapshot.writes.keys).toList = [b] :=
    rfl
  rw [sortedWrites, hkeys, hwrites]
  simp

theorem pendings_move {a b content : String} :
    (Overlay.empty.move a b content).snapshot.pendings root =
      [⟨⟨b, root.joinText b⟩, content⟩] := by
  rw [Snapshot.pendings, sortedWrites_move]
  rfl

theorem targets_move {a b content : String} :
    (Overlay.empty.move a b content).snapshot.targets root = [⟨a, root.joinText a⟩] := rfl

theorem commitSnapshot_moves {d : Disk} (hroot : root.Proper) {a b content : String}
    {bytes : ByteArray} {report : CommitReport} (hbytes : d.bytes? (root.joinText a) = some bytes)
    (hfree : ∀ q, d.Names (root.joinText b) q → d.node? q = none)
    (hstaging : ∀ q target, d.Names (stagingPath (root.joinText b)) q →
      d.node? q ≠ some (.link target))
    (hbackup : ∀ q, d.Names (root.joinText b) q → ¬d.Names (backupPath (root.joinText a)) q)
    (hok : (commitSnapshot sabotage d root (Overlay.empty.move a b content).snapshot).outcome =
      .ok report) :
    let d' := (commitSnapshot sabotage d root (Overlay.empty.move a b content).snapshot).drive.disk
    d'.bytes? (root.joinText b) = some content.toUTF8 ∧ d'.bytes? (root.joinText a) = none ∧
      ∀ q, d.Names (root.joinText a) q → d'.node? q = none := by
  rcases commitSnapshot_phases sabotage d root (Overlay.empty.move a b content).snapshot with
    ⟨-, f, herror⟩ | ⟨v, hgrown, -, heq⟩
  · rw [herror] at hok
    cases hok
  · rw [heq, targets_move, pendings_move] at hok ⊢
    exact commitTargets_moves hgrown (hroot.joinText a) (hroot.joinText b) hbytes hfree hstaging
      hbackup hok

/-- The bytes of a text are those of the file it was read from if no carriage return is in it. -/
theorem toUTF8_asRead_iff {bytes : ByteArray} {text : String}
    (htext : String.fromUTF8? bytes = some text) :
    (asRead text).toUTF8 = bytes ↔ '\r' ∉ text.toList := by
  have hbytes : text.toUTF8 = bytes := by
    unfold String.fromUTF8? at htext
    split at htext
    · cases htext
      rfl
    · cases htext
  rw [← hbytes]
  constructor
  · intro h
    have hsame : asRead text = text := String.toByteArray_inj.1 h
    rw [← hsame, asRead, String.toList_ofList]
    exact carriageReturn_not_mem_unifyNewlines _
  · intro h
    rw [asRead, unifyNewlines_of_not_mem h, String.ofList_toList]

/-- A rename of a text file over a disk is one of its content as it is read. -/
theorem apply_rename {d : Disk} {a b : String} {ignored : List String} {walk : Disk.TreeWalk}
    {bytes : ByteArray} {text : String} {applier : Applier} (hab : a ≠ b) (hempty : applier.overlay = .empty)
    (hbytes : d.bytes? (root.joinText a) = some bytes)
    (htext : String.fromUTF8? bytes = some text) :
    applier.apply (d.project root ignored walk) (.rename a b) =
      ({ applier with overlay := Overlay.empty.move a b (asRead text) }, .changed) := by
  have hlook : d.lookFailure (root.joinText a) = none := by
    obtain ⟨hnul, hlook⟩ := Disk.bytes?_iff.1 hbytes
    rw [Disk.lookFailure, Disk.isFile_iff.2 ⟨hnul, bytes, hlook⟩]
  have hread : d.readText (root.joinText a) = some (asRead text) := by
    rw [Disk.readText, hbytes, Option.bind_some, Disk.textOf?, htext]
    rfl
  have hview : Overlay.empty.view (d.project root ignored walk) a = some (asRead text) := hread
  have htrouble : (if Overlay.empty.reachesBase a then (d.project root ignored walk).trouble a
      else none) = none := hlook
  rw [Applier.apply, Applier.rename, if_neg hab, hempty, htrouble]
  dsimp only
  rw [hview]

/-! ## A project with one file -/

/-- A project with one file of `bytes`. -/
def oneFile (bytes : ByteArray) : Disk := ⟨[(["proj"], .dir), (["proj", "a"], .file bytes)]⟩

theorem oneFile_links (bytes : ByteArray) (q : Place) (target : String) :
    (oneFile bytes).node? q ≠ some (.link target) :=
  Disk.no_link_of_entries (by simp [oneFile]) q target

theorem oneFile_grounded (bytes : ByteArray) : (oneFile bytes).Grounded := by
  refine Disk.grounded_of_entries fun e he => ?_
  rcases List.mem_cons.1 he with rfl | he
  · simp
  · rw [List.mem_singleton.1 he]
    simp [Disk.node?, Disk.lookup, oneFile]

/-- An entry right below the root is reached if it fits. -/
theorem oneFile_reaches (bytes : ByteArray) {n : String} (hfit : Fits ⟨1, ["proj", n]⟩) :
    (oneFile bytes).Reaches ⟨1, ["proj", n]⟩ :=
  (Disk.reaches_top (by decide +kernel)).child (q := ["proj"]) rfl hfit

theorem oneFile_bytes? (bytes : ByteArray) :
    (oneFile bytes).bytes? ⟨1, ["proj", "a"]⟩ = some bytes :=
  (bytes?_plain ⟨by decide, by decide⟩ fun q target _ => oneFile_links bytes q target).2
    ⟨oneFile_reaches bytes (by decide +kernel), rfl⟩

/-- The place of the other path is free, and nothing is in the way of a rename to it. -/
theorem oneFile_free (bytes : ByteArray) {q : Place} :
    ((oneFile bytes).Names ⟨1, ["proj", "b"]⟩ q → (oneFile bytes).node? q = none) ∧
      (∀ target, (oneFile bytes).Names (stagingPath ⟨1, ["proj", "b"]⟩) q →
        (oneFile bytes).node? q ≠ some (.link target)) ∧
      ((oneFile bytes).Names ⟨1, ["proj", "b"]⟩ q →
        ¬(oneFile bytes).Names (backupPath ⟨1, ["proj", "a"]⟩) q) := by
  have hbackupA : backupPath ⟨1, ["proj", "a"]⟩ = ⟨1, ["proj", "a.patchloop.bak"]⟩ := by
    decide +kernel
  have hlinks := oneFile_links bytes
  have hplainB : Plain ⟨1, ["proj", "b"]⟩ := ⟨by decide, by decide⟩
  have hplainBak : Plain ⟨1, ["proj", "a.patchloop.bak"]⟩ := ⟨by decide, by decide⟩
  rw [hbackupA]
  refine ⟨fun hq => ?_, fun target _ => hlinks q target, fun hq hq' => ?_⟩
  · rw [hq.eq_of_plain hlinks hplainB]
    rfl
  · have hsame := (hq.eq_of_plain hlinks hplainB).symm.trans (hq'.eq_of_plain hlinks hplainBak)
    revert hsame
    decide

theorem oneFile_committable (bytes : ByteArray) (content : String) :
    Committable (oneFile bytes) ⟨1, ["proj"]⟩ (Overlay.empty.move "a" "b" content).snapshot := by
  have hpaths : (Overlay.empty.move "a" "b" content).snapshot.paths = ["a", "b"] := rfl
  have hkeys : (Overlay.empty.move "a" "b" content).snapshot.writes.keys = ["b"] := rfl
  refine ⟨⟨by decide, by decide⟩, fun q target hq => absurd hq (oneFile_links bytes q target),
    fun p hp => ?_, fun p hp => ?_, fun p hp => ?_, fun p hp => ?_⟩
  · rw [hpaths] at hp
    rcases List.mem_cons.1 hp with rfl | hp
    · exact ⟨"a", rfl⟩
    · exact List.mem_singleton.1 hp ▸ ⟨"b", rfl⟩
  · rw [List.mem_singleton.1 hp]
    rfl
  · rw [hkeys] at hp
    rw [hpaths, List.mem_singleton.1 hp]
    exact ⟨rfl, by decide⟩
  · rw [hpaths] at hp ⊢
    rcases List.mem_cons.1 hp with rfl | hp
    · exact ⟨rfl, by decide⟩
    · rw [List.mem_singleton.1 hp]
      exact ⟨rfl, by decide⟩

/-- The file of the project can be renamed. -/
theorem oneFile_renamed (bytes : ByteArray) (content : String) :
    (commitSnapshot noSabotage (oneFile bytes) ⟨1, ["proj"]⟩
      (Overlay.empty.move "a" "b" content).snapshot).outcome = .ok ⟨["b"], ["a"]⟩ := by
  have hcommittable := oneFile_committable bytes content
  have hpathA : joinText ⟨1, ["proj"]⟩ "a" = ⟨1, ["proj", "a"]⟩ := by decide +kernel
  have hpathB : joinText ⟨1, ["proj"]⟩ "b" = ⟨1, ["proj", "b"]⟩ := by decide +kernel
  have hroot : (oneFile bytes).makeDirs ⟨1, ["proj"]⟩ = (oneFile bytes, none) :=
    Disk.makeDirs_there hcommittable.plain hcommittable.clear.unlinked_top (List.cons_ne_nil _ _)
      (Disk.reaches_top (by decide +kernel)) rfl
  have hl := hcommittable.layout
  rw [targets_move, pendings_move, hpathA, hpathB] at hl
  rw [hcommittable.commit_there (fun _ => rfl) hroot, targets_move, pendings_move, hpathA, hpathB]
  exact commitTargets_of_pair (fun _ _ _ => rfl) (fun _ => rfl) hl hroot
    (oneFile_reaches bytes (by decide +kernel)) (by decide +kernel)
    (oneFile_reaches bytes (by decide +kernel))
    (show (stagingPath ⟨1, ["proj", "b"]⟩).Fits by decide +kernel) rfl rfl

/-! ## The whole rename -/

/-- **A rename moves a file with its newlines unified.** Over the disk `d` a rename of the text file
    `a` to `b`, where nothing is, changes the overlay, and if the commit of it goes through then
    nothing is left at `a` and the bytes of the text are at `b`. They are `bytes`, those of the
    file, if and only if no carriage return was among them. This is so if no link is where the
    content is staged and `b` is not the path where `a` is moved aside to. -/
theorem rename_moves_file {d : Disk} (hgrounded : d.Grounded) (hroot : root.Proper) {a b : String}
    {bytes : ByteArray} {text : String} (hbytes : d.bytes? (root.joinText a) = some bytes)
    (htext : String.fromUTF8? bytes = some text)
    (hfree : ∀ q, d.Names (root.joinText b) q → d.node? q = none)
    (hstaging : ∀ q target, d.Names (stagingPath (root.joinText b)) q →
      d.node? q ≠ some (.link target))
    (hbackup : ∀ q, d.Names (root.joinText b) q → ¬d.Names (backupPath (root.joinText a)) q)
    (sabotage : Sabotage) (ignored : List String) (walk : Disk.TreeWalk) (applier : Applier)
    (hempty : applier.overlay = .empty) :
    let renamed := applier.apply (d.project root ignored walk) (.rename a b)
    let step := commitSnapshot sabotage d root renamed.1.overlay.snapshot
    renamed.2 = .changed ∧ ∀ report, step.outcome = .ok report →
      step.drive.disk.bytes? (root.joinText b) = some (asRead text).toUTF8 ∧
      (step.drive.disk.bytes? (root.joinText b) = some bytes ↔ '\r' ∉ text.toList) ∧
      step.drive.disk.bytes? (root.joinText a) = none ∧
      ∀ q, d.Names (root.joinText a) q → step.drive.disk.node? q = none := by
  intro renamed step
  have hab : a ≠ b := by
    rintro rfl
    obtain ⟨-, hlook⟩ := Disk.bytes?_iff.1 hbytes
    obtain ⟨q, hq, hnode⟩ := Disk.exists_named hgrounded (hroot.joinText a) hlook
    exact hnode (hfree q hq)
  have hrenamed : renamed = _ := apply_rename hab hempty hbytes htext
  refine ⟨by rw [hrenamed], fun report hok => ?_⟩
  have hstep : step = commitSnapshot sabotage d root
      (Overlay.empty.move a b (asRead text)).snapshot := by
    rw [show step = commitSnapshot sabotage d root renamed.1.overlay.snapshot from rfl, hrenamed]
  rw [hstep] at hok ⊢
  obtain ⟨hcontent, hgone, hnone⟩ := commitSnapshot_moves hroot hbytes hfree hstaging hbackup hok
  refine ⟨hcontent, ?_, hgone, hnone⟩
  rw [← toUTF8_asRead_iff htext]
  exact ⟨fun h => Option.some.inj (hcontent.symm.trans h),
    fun h => hcontent.trans (congrArg some h)⟩

/-- A file of one line that ends in a line feed is moved as it is. -/
theorem line_feed_renamed :
    let root : FilePath := ⟨1, ["proj"]⟩
    let bytes := "x\n".toUTF8
    let d := oneFile bytes
    let renamed := Applier.empty.apply (d.project root [] .passesLinks) (.rename "a" "b")
    let step := commitSnapshot noSabotage d root renamed.1.overlay.snapshot
    (d.Grounded ∧ root.Proper ∧ d.bytes? (root.joinText "a") = some bytes ∧
      String.fromUTF8? bytes = some "x\n" ∧
      (∀ q, d.Names (root.joinText "b") q → d.node? q = none) ∧
      (∀ q target, d.Names (stagingPath (root.joinText "b")) q → d.node? q ≠ some (.link target)) ∧
      (∀ q, d.Names (root.joinText "b") q → ¬d.Names (backupPath (root.joinText "a")) q)) ∧
    step.outcome = .ok ⟨["b"], ["a"]⟩ ∧ step.drive.disk.bytes? (root.joinText "b") = some bytes ∧
      step.drive.disk.bytes? (root.joinText "a") = none := by
  intro root bytes d renamed step
  have hpathA : root.joinText "a" = ⟨1, ["proj", "a"]⟩ := by decide +kernel
  have hpathB : root.joinText "b" = ⟨1, ["proj", "b"]⟩ := by decide +kernel
  have hproper : root.Proper := by
    intro n hn
    rw [List.mem_singleton.1 hn]
    decide
  have hbytes : d.bytes? (root.joinText "a") = some bytes := hpathA ▸ oneFile_bytes? bytes
  have htext : String.fromUTF8? bytes = some "x\n" := dif_pos (String.isValidUTF8 _)
  have hfree : ∀ q, d.Names (root.joinText "b") q → d.node? q = none := fun q =>
    hpathB ▸ (oneFile_free bytes).1
  have hstaging : ∀ q target, d.Names (stagingPath (root.joinText "b")) q →
      d.node? q ≠ some (.link target) := fun q => hpathB ▸ (oneFile_free bytes).2.1
  have hbackup : ∀ q, d.Names (root.joinText "b") q →
      ¬d.Names (backupPath (root.joinText "a")) q := fun q =>
    hpathA ▸ hpathB ▸ (oneFile_free bytes).2.2
  have hok : step.outcome = .ok ⟨["b"], ["a"]⟩ := by
    have hrenamed : renamed = _ := apply_rename (by decide) rfl hbytes htext
    have hstep : step = commitSnapshot noSabotage d root renamed.1.overlay.snapshot := rfl
    rw [hstep, hrenamed]
    exact oneFile_renamed bytes _
  obtain ⟨-, hmoved⟩ := rename_moves_file (oneFile_grounded bytes) hproper hbytes htext hfree
    hstaging hbackup noSabotage [] .passesLinks Applier.empty rfl
  obtain ⟨-, hsame, hgone, -⟩ := hmoved _ hok
  exact ⟨⟨oneFile_grounded bytes, hproper, hbytes, htext, hfree, hstaging, hbackup⟩, hok,
    hsame.2 (by decide), hgone⟩

/-- A file of one line that ends in a carriage return and a line feed is not. -/
theorem carriage_return_not_renamed :
    let root : FilePath := ⟨1, ["proj"]⟩
    let bytes := "x\r\n".toUTF8
    let d := oneFile bytes
    let renamed := Applier.empty.apply (d.project root [] .passesLinks) (.rename "a" "b")
    let step := commitSnapshot noSabotage d root renamed.1.overlay.snapshot
    d.Grounded ∧ d.bytes? (root.joinText "a") = some bytes ∧
      String.fromUTF8? bytes = some "x\r\n" ∧
      (∀ q, d.Names (root.joinText "b") q → d.node? q = none) ∧ renamed.2 = .changed ∧
      step.outcome = .ok ⟨["b"], ["a"]⟩ ∧
      step.drive.disk.bytes? (root.joinText "b") = some "x\n".toUTF8 ∧ "x\n".toUTF8 ≠ bytes := by
  intro root bytes d renamed step
  have hpathA : root.joinText "a" = ⟨1, ["proj", "a"]⟩ := by decide +kernel
  have hpathB : root.joinText "b" = ⟨1, ["proj", "b"]⟩ := by decide +kernel
  have hproper : root.Proper := by
    intro n hn
    rw [List.mem_singleton.1 hn]
    decide
  have hbytes : d.bytes? (root.joinText "a") = some bytes := hpathA ▸ oneFile_bytes? bytes
  have htext : String.fromUTF8? bytes = some "x\r\n" := dif_pos (String.isValidUTF8 _)
  have hread : asRead "x\r\n" = "x\n" := by decide +kernel
  have hrenamed : renamed = _ := apply_rename (by decide) rfl hbytes htext
  have hstep : step = commitSnapshot noSabotage d root
      (Overlay.empty.move "a" "b" (asRead "x\r\n")).snapshot := by
    rw [show step = commitSnapshot noSabotage d root renamed.1.overlay.snapshot from rfl, hrenamed]
  have hok : step.outcome = .ok ⟨["b"], ["a"]⟩ := hstep ▸ oneFile_renamed bytes _
  have hfree : ∀ q, d.Names (root.joinText "b") q → d.node? q = none := fun q =>
    hpathB ▸ (oneFile_free bytes).1
  obtain ⟨hcontent, -⟩ := commitSnapshot_moves hproper hbytes hfree
    (fun q => hpathB ▸ (oneFile_free bytes).2.1)
    (fun q => hpathA ▸ hpathB ▸ (oneFile_free bytes).2.2) (hstep ▸ hok)
  refine ⟨oneFile_grounded bytes, hbytes, htext, hfree, by rw [hrenamed], hok, ?_, ?_⟩
  · rw [hstep, hcontent, hread]
  · intro hsame
    have htexts := String.toByteArray_inj.1 hsame
    revert htexts
    decide

end StagedEdits
