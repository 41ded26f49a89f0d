import StagedEdits.Proofs.CommitSwap

set_option autoImplicit false

/-! # Committing a snapshot

A snapshot that can be committed: its paths have passed the guard, and neither it nor the disk has
anything at the places that the commit works at. Each of its paths leads to itself, so a commit of it
is the two phases over its files, once the root is there.

Main definition: `Committable`. Main statements: `Committable.layout`, `Committable.commit_cases`,
`commitTargets_of_pair` (a commit of one delete and one write). -/

namespace StagedEdits

open FilePath

variable {sabotage : Sabotage} {d : Disk} {root : FilePath} {s : Snapshot}

/-! ## What is asked for -/

/-- The paths that `s` writes or deletes. -/
def Snapshot.paths (s : Snapshot) : List String := s.deletes ++ s.writes.keys

/-- That `s` can be committed below `root`: neither link nor guarded path leads elsewhere, no path
    is to be both written and deleted, and nothing is yet where new contents are staged or where
    files are moved aside. -/
structure Committable (d : Disk) (root : FilePath) (s : Snapshot) : Prop where
  plain : root.Plain
  clear : d.Clear root.names
  normalized : ∀ p ∈ s.paths, Normalized p
  disjoint : ∀ p ∈ s.deletes, s.writes.get? p = none
  staging : ∀ p ∈ s.writes.keys, d.node? (stagingPath (root.joinText p)).names = none ∧
    p ++ stagingEnding ∉ s.paths
  backup : ∀ p ∈ s.paths, d.node? (backupPath (root.joinText p)).names = none ∧
    p ++ backupEnding ∉ s.paths

/-- Where the deletes of `s` lead. -/
def Snapshot.targets (root : FilePath) (s : Snapshot) : List Target :=
  s.deletes.map fun p => ⟨p, root.joinText p⟩

/-- What is to be written of `s`, and where. -/
def Snapshot.pendings (root : FilePath) (s : Snapshot) : List Pending :=
  (sortedWrites s).map fun w => ⟨⟨w.1, root.joinText w.1⟩, w.2⟩

/-- The drive of a commit to the project at `root`, a directory of `d`, before the first phase. -/
def Drive.rooted (d : Disk) (root : FilePath) : Drive :=
  (Drive.start d).record d (.makeDirs root) none

@[simp] theorem Drive.rooted_disk (d : Disk) (root : FilePath) : (Drive.rooted d root).disk = d :=
  rfl

/-! ## The writes in order -/

theorem mem_sortedWrites {p content : String} :
    (p, content) ∈ sortedWrites s ↔ s.writes.get? p = some content := by
  unfold sortedWrites
  rw [List.mem_filterMap]
  constructor
  · rintro ⟨x, -, hx⟩
    obtain ⟨c, hc, heq⟩ := Option.map_eq_some_iff.1 hx
    cases heq
    exact hc
  · intro h
    refine ⟨p, ?_, by rw [h]; rfl⟩
    rw [Names.mem_toList, Names.mem_ofList, Table.mem_keys, h]
    rfl

/-- The writes are in order of their paths, and there is one for each. -/
theorem sortedWrites_keys : (sortedWrites s).map Prod.fst = (Names.ofList s.writes.keys).toList := by
  have hall : ∀ l : List String, (∀ p ∈ l, p ∈ s.writes.keys) →
      (l.filterMap fun p => (s.writes.get? p).map fun c => (p, c)).map Prod.fst = l := by
    intro l
    induction l with
    | nil => exact fun _ => rfl
    | cons p l ih =>
      intro h
      obtain ⟨c, hc⟩ := Option.isSome_iff_exists.1 (Table.mem_keys.1 (h p List.mem_cons_self))
      rw [List.filterMap_cons, hc]
      simpa using ih fun x hx => h x (List.mem_cons_of_mem p hx)
  exact hall _ fun p hp => Names.mem_ofList.1 hp

theorem sortedWrites_sorted : ((sortedWrites s).map Prod.fst).Pairwise (· < ·) := by
  rw [sortedWrites_keys]
  exact (Names.ofList s.writes.keys).sorted

theorem mem_keys_of_mem_sortedWrites {w : String × String} (hw : w ∈ sortedWrites s) :
    w.1 ∈ s.writes.keys := by
  rw [Table.mem_keys, mem_sortedWrites.1 hw]
  rfl

/-- Two writes are done in the order of their paths. -/
theorem sortedWrites_pair {p q x y : String} (hlt : p < q)
    (hs : s.writes = (Table.empty.set p x).set q y) :
    sortedWrites s = [(p, x), (q, y)] := by
  have hne : p ≠ q := fun h => String.lt_irrefl q (h ▸ hlt)
  have hnames : (Names.ofList s.writes.keys).toList = [p, q] := by
    refine eq_of_sorted_of_mem (Names.ofList _).sorted (List.pairwise_pair.2 hlt) fun r => ?_
    rw [Names.mem_toList, Names.mem_ofList, Table.mem_keys, hs, Table.get?_set, Table.get?_set]
    by_cases hq : r = q <;> by_cases hp : r = p <;> simp [hq, hp, hne]
  have hp : s.writes.get? p = some x := by
    rw [hs, Table.get?_set, if_neg hne, Table.get?_set, if_pos rfl]
  have hq : s.writes.get? q = some y := by rw [hs, Table.get?_set, if_pos rfl]
  simp only [sortedWrites, hnames, List.filterMap_cons, hp, hq, Option.map_some, List.filterMap_nil]

/-! ## Layout -/

namespace Committable

variable (h : Committable d root s)

include h

theorem normalized_write {w : String × String} (hw : w ∈ sortedWrites s) : Normalized w.1 :=
  h.normalized w.1 (List.mem_append_right _ (mem_keys_of_mem_sortedWrites hw))

omit h in
/-- The files of a snapshot are those of its paths. -/
theorem mem_files {p : FilePath} (hp : p ∈ (s.targets root).map (·.file) ++
    (s.pendings root).map (·.target.file)) : ∃ a ∈ s.paths, p = root.joinText a := by
  rw [Snapshot.targets, Snapshot.pendings, List.map_map, List.map_map] at hp
  rcases List.mem_append.1 hp with hp | hp
  · obtain ⟨a, ha, rfl⟩ := List.mem_map.1 hp
    exact ⟨a, List.mem_append_left _ ha, rfl⟩
  · obtain ⟨w, hw, rfl⟩ := List.mem_map.1 hp
    exact ⟨w.1, List.mem_append_right _ (mem_keys_of_mem_sortedWrites hw), rfl⟩

theorem layout : Layout d root ((s.targets root).map (·.file))
    ((s.pendings root).map (·.target.file)) := by
  -- a file with an ending is none of the snapshot's files, as its path is none of the paths
  have hending : ∀ {a ending : String}, a ∈ s.paths → a ++ ending ∉ s.paths →
      (root.joinText a).addSuffix ending ∉
        (s.targets root).map (·.file) ++ (s.pendings root).map (·.target.file) := by
    intro a ending ha hnot hmem
    obtain ⟨b, hb, heq⟩ := mem_files hmem
    exact hnot ((h.normalized a ha).eq_append (h.normalized b hb) heq.symm ▸ hb)
  refine ⟨h.clear, fun p hp => ?_, ?_, fun p hp => ?_, fun p hp => ?_⟩
  · obtain ⟨a, ha, rfl⟩ := mem_files hp
    exact (h.normalized a ha).below h.plain
  · have hdistinct := sortedWrites_sorted (s := s)
    rw [List.pairwise_map] at hdistinct
    rw [Snapshot.pendings, List.map_map, List.nodup_iff_pairwise_ne, List.pairwise_map]
    refine hdistinct.imp_of_mem fun {v w} hv hw hlt heq => ?_
    have hsame := (h.normalized_write hv).joinText_inj (h.normalized_write hw) heq
    exact String.lt_irrefl _ (hsame ▸ hlt)
  · rw [Snapshot.pendings, List.map_map] at hp
    obtain ⟨w, hw, rfl⟩ := List.mem_map.1 hp
    have hkey := mem_keys_of_mem_sortedWrites hw
    obtain ⟨hnode, hnot⟩ := h.staging w.1 hkey
    exact ⟨hnode, hending (List.mem_append_right _ hkey) hnot⟩
  · obtain ⟨a, ha, rfl⟩ := mem_files hp
    obtain ⟨hnode, hnot⟩ := h.backup a ha
    exact ⟨hnode, hending ha hnot⟩

/-! ## The phases -/

theorem target {d' : Disk} (hways : d.KeepsWays d') {p : String} (hp : p ∈ s.paths) :
    targetOf d' root p = .ok ⟨p, root.joinText p⟩ :=
  targetOf_below h.plain (hways.clear h.clear) ((h.normalized p hp).below h.plain)

omit h in
theorem mapM_eq_ok {α β : Type} {f : α → Except Failure β} {g : α → β} {l : List α}
    (hf : ∀ a ∈ l, f a = .ok (g a)) : l.mapM f = .ok (l.map g) := by
  induction l with
  | nil => rfl
  | cons a l ih =>
    rw [List.mapM_cons, hf a List.mem_cons_self, ih fun x hx => hf x (List.mem_cons_of_mem a hx)]
    rfl

variable (sabotage) in
/-- A commit fails because the root cannot be made, or it is the two phases. -/
theorem commit_cases :
    (∃ v f, (Drive.start d).perform sabotage (.makeDirs root) = (v, some f) ∧
      commitSnapshot sabotage d root s = ⟨v, .error (notWritten root f), []⟩) ∨
    ∃ v, (Drive.start d).perform sabotage (.makeDirs root) = (v, none) ∧
      commitSnapshot sabotage d root s =
        commitTargets sabotage v root (s.targets root) (s.pendings root) := by
  unfold commitSnapshot
  generalize hperform : (Drive.start d).perform sabotage (.makeDirs root) = r
  obtain ⟨v, f⟩ := r
  cases f with
  | some f => exact .inl ⟨v, f, rfl, rfl⟩
  | none =>
    refine .inr ⟨v, rfl, ?_⟩
    have hways := (Drive.perform_makeDirs h.plain.nul hperform).1.keepsWays
    have hdeletes : deleteTargets v.disk root s.deletes = .ok (s.targets root) :=
      mapM_eq_ok fun p hp => h.target hways (List.mem_append_left _ hp)
    have hwrites : writeTargets v.disk root (sortedWrites s) = .ok (s.pendings root) := by
      refine mapM_eq_ok fun w hw => ?_
      rw [h.target hways (List.mem_append_right _ (mem_keys_of_mem_sortedWrites hw))]
      rfl
    dsimp only
    rw [hdeletes]
    dsimp only
    rw [hwrites]

/-- Where the root is there, a commit is the two phases. -/
theorem commit_there (hspared : ∀ n, sabotage n (.makeDirs root) = none)
    (hroot : d.makeDirs root = (d, none)) : commitSnapshot sabotage d root s =
    commitTargets sabotage (Drive.rooted d root) root (s.targets root) (s.pendings root) := by
  have hmake : (Drive.start d).perform sabotage (.makeDirs root) = (Drive.rooted d root, none) :=
    Drive.perform_makeDirs_there hspared hroot
  rcases h.commit_cases sabotage with ⟨v, f, hfail, -⟩ | ⟨v, hdone, heq⟩
  · rw [hmake] at hfail
    cases hfail
  · rw [hmake] at hdone
    cases hdone
    exact heq

end Committable

/-! ## One delete and one write -/

/-- One file is deleted and another written, if both are reached, what the commit works at beside
    them fits, and nothing is made to fail. If moving the written file in is made to fail, that is
    what the commit fails with. -/
theorem commitTargets_of_pair {v : Drive} {t : Target} {w : Pending} {bytes : ByteArray}
    {stuck : Option Breakdown}
    (hspared : ∀ n op, op ≠ .move (stagingPath w.target.file) w.target.file → sabotage n op = none)
    (hstuck : ∀ n, sabotage n (.move (stagingPath w.target.file) w.target.file) = stuck)
    (hl : Layout v.disk root [t.file] [w.target.file])
    (hparent : v.disk.makeDirs w.target.file.parent = (v.disk, none))
    (hreachT : v.disk.Reaches t.file) (hfitB : (backupPath t.file).Fits)
    (hreachW : v.disk.Reaches w.target.file) (hfitS : (stagingPath w.target.file).Fits)
    (hold : v.disk.node? t.file.names = some (.file bytes))
    (hnew : v.disk.node? w.target.file.names = none) :
    (commitTargets sabotage v root [t] [w]).outcome =
      match stuck with
      | none => .ok ⟨[w.target.path], [t.path]⟩
      | some b => .error (.fault (.persistence root.text ("commit rolled back: " ++ b.message))) := by
  have ht : root.Below t.file := hl.below t.file (by simp)
  have hw : root.Below w.target.file := hl.below w.target.file (by simp)
  have hreachB : v.disk.Reaches (backupPath t.file) := hreachT.addSuffix ht.names_ne_nil hfitB
  have hreachS : v.disk.Reaches (stagingPath w.target.file) :=
    hreachW.addSuffix hw.names_ne_nil hfitS
  have hfreeS := (hl.staging w.target.file (by simp)).1
  have hfreeB := (hl.backup t.file (by simp)).1
  have hneS : (stagingPath w.target.file).names ≠ [] := hw.staging.names_ne_nil
  have hneB : (backupPath t.file).names ≠ [] := ht.backup.names_ne_nil
  have hsb := hl.staging_ne_backup (p := w.target.file) (q := t.file) (by simp) (by simp)
  have hst := hl.staging_ne (p := w.target.file) (q := t.file) (by simp) (by simp)
  have hsw := hl.staging_ne (p := w.target.file) (q := w.target.file) (by simp) (by simp)
  have hbt := hl.backup_ne (p := t.file) (q := t.file) (by simp) (by simp)
  have hbw := hl.backup_ne (p := t.file) (q := w.target.file) (by simp) (by simp)
  have htw : t.file.names ≠ w.target.file.names := fun h => by
    rw [h, hnew] at hold
    cases hold
  -- the content is staged
  have hdir : v.disk.isDir w.target.file = .ok false :=
    Disk.looksLike_free hw.plain (hl.clear.unlinked hw) hreachW hnew
  have hstage := stageFile_goes w.content (fun n op hop => hspared n op (by cases hop <;> nofun))
    hw hl.clear hparent hreachS (by rw [hfreeS]; simp)
  generalize hd₁ : v.disk.put (stagingPath w.target.file).names (.file w.content.toUTF8) = d₁
    at hstage
  have hways₁ : v.disk.KeepsWays d₁ := hd₁ ▸ Disk.keepsWays_put hneS (by rw [hfreeS]; simp) _
  have hnode₁ : ∀ q, d₁.node? q = if q = (stagingPath w.target.file).names then
      some (.file w.content.toUTF8) else v.disk.node? q := hd₁ ▸ Disk.node?_put _ hneS _
  have hclear₁ := hways₁.clear hl.clear
  have hfileT : d₁.node? t.file.names = some (.file bytes) := by
    rw [hnode₁, if_neg hst.symm, hold]
  have hfreeB₁ : d₁.node? (backupPath t.file).names ≠ some .dir := by
    rw [hnode₁, if_neg hsb.symm, hfreeB]
    simp
  -- the file to delete is moved aside
  have haside := moveAside_goes
    (s := ⟨v.staged d₁ w.target.file w.content, [], [], ⟨[], []⟩⟩)
    (fun n => hspared n _ fun hop => hst (by rw [(DiskOp.move.inj hop).1])) ht hclear₁ hbt
    (hways₁.reaches hreachT) (hways₁.reaches hreachB) hfileT hfreeB₁
  simp only [Drive.staged_disk] at haside
  generalize hd₂ : (d₁.drop t.file.names).put (backupPath t.file).names (.file bytes) = d₂
    at haside
  have hways₂ : v.disk.KeepsWays d₂ :=
    hways₁.trans (hd₂ ▸ keepsWays_move ht.names_ne_nil hneB hfileT hfreeB₁)
  have hnode₂ : ∀ q, q ≠ (backupPath t.file).names → q ≠ t.file.names →
      d₂.node? q = d₁.node? q := fun q hb ht' => by
    rw [← hd₂, node?_move ht.names_ne_nil hneB, if_neg hb, if_neg ht']
  have hclear₂ := hways₂.clear hl.clear
  have hnew₂ : d₂.node? w.target.file.names = none := by
    rw [hnode₂ _ hbw.symm htw.symm, hnode₁, if_neg hsw.symm, hnew]
  have hstaged₂ : d₂.node? (stagingPath w.target.file).names = some (.file w.content.toUTF8) := by
    rw [hnode₂ _ hsb hst, hnode₁, if_pos rfl]
  -- nothing is to be replaced, and the staged file is moved in
  have hisNone : d₂.isFile w.target.file = .ok false :=
    Disk.looksLike_free hw.plain (hclear₂.unlinked hw) (hways₂.reaches hreachW) hnew₂
  have hin : d₂.moveFile (stagingPath w.target.file) w.target.file = .ok _ :=
    (Disk.moveFile_plain hw.staging.plain hw.plain hneS hw.names_ne_nil
      (hclear₂.unlinked hw.staging) (hclear₂.unlinked hw) hsw).2
      ⟨hways₂.reaches hreachS, hways₂.reaches hreachW, by rw [hnew₂]; simp, _, hstaged₂, rfl⟩
  have hkept : ∀ (v : Drive) op f moved placed report,
      moveAside sabotage ⟨v.record d₂ op f, moved, placed, report⟩ w.target.file =
        (⟨v.record d₂ op f, moved, placed, report⟩, .ok false) := fun v op f _ _ _ => by
    simp only [moveAside, Drive.record_disk, hisNone]
  cases stuck <;>
    simp [commitTargets, stageAll_single hdir hstage, swapAll, moveDeleted, moveReplaced, moveIn,
      haside, hkept, hin, Drive.perform, hstuck, Disk.run, DiskFault.text]

end StagedEdits
