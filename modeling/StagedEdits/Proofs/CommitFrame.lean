import StagedEdits.Proofs.FollowedTrail

set_option autoImplicit false

/-! # What a commit leaves alone

A commit works at the places that its paths name and at those beside them, and makes directories.
Everything else stays as it is, whatever links there are and whichever operations fail: the first
phase keeps all links, and the second takes no way that was not there before it.

Main definitions: `Plan`, `Disk.Within`, `Disk.Shifted`, `Disk.Meant`. Main statements:
`commitTargets_spares`, `commit_keeps_other_files`. -/

namespace StagedEdits

open FilePath

variable {sabotage : Sabotage} {root : FilePath} {W : Place → Prop}

/-! ## Where a commit works -/

/-- That all the work of a commit of `deletes` and `writes` on `d` is at places that pass `W`, and
    that no link is where contents are staged or where files are moved aside to. -/
structure Plan (d : Disk) (W : Place → Prop) (deletes writes : List FilePath) : Prop where
  proper : ∀ p ∈ deletes ++ writes, p.Proper
  named : ∀ p ∈ deletes ++ writes, ∀ q, d.Names p q → W q
  staging : ∀ p ∈ writes, ∀ q, d.Names (stagingPath p) q →
    W q ∧ ∀ target, d.node? q ≠ some (.link target)
  backup : ∀ p ∈ deletes ++ writes, ∀ q, d.Names (backupPath p) q →
    W q ∧ ∀ target, d.node? q ≠ some (.link target)

namespace Disk

/-- That `v` has the links of the earlier disk `d`, and is as that was but for places that pass `W`
    and new directories. -/
structure Within (d v : Disk) (W : Place → Prop) : Prop where
  link_iff : ∀ q target, v.node? q = some (.link target) ↔ d.node? q = some (.link target)
  other : ∀ q, ¬W q → v.node? q = d.node? q ∨ d.node? q = none ∧ v.node? q = some .dir

namespace Within

variable {d v v' : Disk} {p : FilePath} {dir place : Place} {n : String}

theorem refl (d : Disk) : d.Within d W := ⟨fun _ _ => Iff.rfl, fun _ _ => .inl rfl⟩

theorem grow (h : d.Within v W) (hgrown : v.Grown v') : d.Within v' W := by
  refine ⟨fun q target => hgrown.link_iff.trans (h.link_iff q target), fun q hq => ?_⟩
  rcases hgrown q with hsame | ⟨hnone, hdir⟩
  · rw [hsame]
    exact h.other q hq
  · rcases h.other q hq with hold | ⟨-, hdir'⟩
    · exact .inr ⟨hold.symm.trans hnone, hdir⟩
    · rw [hnone] at hdir'
      cases hdir'

theorem put_file (h : d.Within v W) (hne : place ≠ []) (hw : W place)
    (hlink : ∀ target, d.node? place ≠ some (.link target)) (bytes : ByteArray) :
    d.Within (v.put place (.file bytes)) W := by
  refine ⟨fun q target => ?_, fun q hq => ?_⟩
  · rw [node?_put v hne]
    split
    · rename_i heq
      rw [heq]
      exact ⟨nofun, fun hl => absurd hl (hlink target)⟩
    · exact h.link_iff q target
  · have hq' : q ≠ place := fun heq => hq (heq ▸ hw)
    rw [node?_put v hne, if_neg hq']
    exact h.other q hq

theorem drop (h : d.Within v W) (hne : place ≠ []) (hw : W place)
    (hlink : ∀ target, d.node? place ≠ some (.link target)) : d.Within (v.drop place) W := by
  refine ⟨fun q target => ?_, fun q hq => ?_⟩
  · rw [node?_drop v hne]
    split
    · rename_i heq
      rw [heq]
      exact ⟨nofun, fun hl => absurd hl (hlink target)⟩
    · exact h.link_iff q target
  · have hq' : q ≠ place := fun heq => hq (heq ▸ hw)
    rw [node?_drop v hne, if_neg hq']
    exact h.other q hq

theorem names (h : d.Within v W) (hfinds : v.Finds p dir n) : d.Names p (dir ++ [n]) :=
  hfinds.names h.link_iff

end Within

/-- That `v` takes no way that the earlier disk `e` did not have, and is as that was but for places
    that pass `W`. -/
structure Shifted (e v : Disk) (W : Place → Prop) : Prop where
  narrows : e.Narrows v
  other : ∀ q, ¬W q → v.node? q = e.node? q

namespace Shifted

variable {e v : Disk} {dir : Place} {n m : String}

theorem refl (e : Disk) : e.Shifted e W := ⟨.refl e, fun _ _ => rfl⟩

theorem drop (h : e.Shifted v W) (hw : W (dir ++ [n])) : e.Shifted (v.drop (dir ++ [n])) W := by
  refine ⟨h.narrows.drop (by simp), fun q hq => ?_⟩
  have hq' : q ≠ dir ++ [n] := fun heq => hq (heq ▸ hw)
  rw [node?_drop v (by simp), if_neg hq']
  exact h.other q hq

/-- What is moved within a directory leads to no directory if it is a link. -/
theorem move (h : e.Shifted v W) {node : Node} (hw : W (dir ++ [n])) (hw' : W (dir ++ [m]))
    (hdir : node ≠ .dir) (hshut : ∀ target, node = .link target → e.Shut dir target) :
    e.Shifted ((v.drop (dir ++ [n])).put (dir ++ [m]) node) W := by
  refine ⟨(h.narrows.drop (by simp)).put hdir fun target hl => .inr (hshut target hl),
    fun q hq => ?_⟩
  have hq' : q ≠ dir ++ [m] := fun heq => hq (heq ▸ hw')
  rw [node?_put _ (by simp), if_neg hq']
  exact (h.drop hw).other q hq

end Shifted

end Disk

/-! ## The first phase -/

section Staging

variable {d v' : Disk} {v : Drive} {p : FilePath}

variable (hproper : p.Proper) (hstaging : ∀ q, d.Names (stagingPath p) q →
  W q ∧ ∀ target, d.node? q ≠ some (.link target))

include hproper hstaging

theorem removeStaged_within (h : d.Within v.disk W) :
    d.Within (removeQuietly sabotage v (stagingPath p)).1.disk W := by
  have hproper' : (stagingPath p).Proper := hproper.addSuffix (by decide)
  rcases Drive.removeQuietly_finds hproper' with hsame | ⟨dir, n, node, hfinds, -, -, hdrop⟩
  · rwa [hsame]
  · obtain ⟨hw, hlink⟩ := hstaging _ (h.names hfinds)
    rw [hdrop]
    exact h.drop (by simp) hw hlink

omit hproper in
/-- Whatever bytes are written beside a path, all else stays. -/
theorem writeStaged_within (h : d.Within v.disk W) (hne : p.names ≠ []) {bytes : ByteArray}
    (hwrite : v.disk.writeFile (stagingPath p) bytes = .ok v') : d.Within v' W := by
  obtain ⟨dir, n, hfinds, hput⟩ := Disk.writeFile_finds hne (by decide) hwrite
  obtain ⟨hw, hlink⟩ := hstaging _ (h.names hfinds)
  have hlink' : ∀ target,
      v.disk.node? (dir ++ [n ++ stagingEnding]) ≠ some (.link target) := fun target hl =>
    hlink target ((h.link_iff _ target).1 hl)
  rw [(hput hlink').2]
  exact h.put_file (by simp) hw hlink _

variable (sabotage) in
theorem stageFile_within (h : d.Within v.disk W) (content : String) :
    d.Within (stageFile sabotage v p content).drive.disk W := by
  have habandon : ∀ {v : Drive} {f}, d.Within v.disk W →
      d.Within (abandonStaging sabotage v p f).drive.disk W := by
    intro v f h
    unfold abandonStaging
    split
    · exact h
    · exact removeStaged_within hproper hstaging h
  have hmake : d.Within (v.perform sabotage (.makeDirs p.parent)).1.disk W :=
    h.grow (Drive.makeDirs_grown rfl)
  unfold stageFile
  split
  · exact h
  · rename_i hne
    have hne' : p.names ≠ [] := by simpa using hne
    split
    · rename_i hfault
      rw [hfault] at hmake
      exact habandon hmake
    · rename_i v₁ hdone
      rw [hdone] at hmake
      split
      · rename_i hfault
        refine habandon ?_
        -- a write that failed may have left a file with some of the bytes
        rcases Drive.perform_write_failed hfault with hsame | ⟨begun, hwrite⟩
        · rwa [hsame]
        · exact writeStaged_within hstaging hmake hne' hwrite
      · rename_i hdone'
        exact writeStaged_within hstaging hmake hne' (Drive.write_done hdone')

end Staging

section Phases

variable {d : Disk} {deletes writes : List FilePath} (hplan : Plan d W deletes writes)

include hplan

variable (sabotage) in
theorem stageAll_within {v : Drive} {staged : List Target} {said : List Entry} {ws : List Pending}
    (hws : ∀ w ∈ ws, w.target.file ∈ writes) (hstaged : ∀ t ∈ staged, t.file ∈ writes)
    (h : d.Within v.disk W) :
    d.Within (stageAll sabotage v staged said ws).drive.disk W ∧
      ∀ t ∈ (stageAll sabotage v staged said ws).staged, t.file ∈ writes := by
  induction ws generalizing v staged said with
  | nil => exact ⟨h, hstaged⟩
  | cons w ws ih =>
    have hw := hws w List.mem_cons_self
    have hstep := stageFile_within sabotage (hplan.proper _ (List.mem_append_right _ hw))
      (hplan.staging _ hw) h w.content
    unfold stageAll
    split
    · exact ⟨h, hstaged⟩
    · exact ⟨h, hstaged⟩
    · split
      · rename_i heq
        rw [heq] at hstep
        exact ⟨hstep, hstaged⟩
      · rename_i heq
        rw [heq] at hstep
        refine ih (fun x hx => hws x (List.mem_cons_of_mem w hx)) (fun t ht => ?_) hstep
        rcases List.mem_append.1 ht with ht | ht
        · exact hstaged t ht
        · rw [List.mem_singleton.1 ht]
          exact hw

variable (sabotage) in
theorem removeAllStaged_within {v : Drive} {ps : List FilePath} (hps : ∀ p ∈ ps, p ∈ writes)
    (h : d.Within v.disk W) :
    d.Within (removeAllQuietly sabotage v (ps.map stagingPath)).1.disk W := by
  induction ps generalizing v with
  | nil => exact h
  | cons p ps ih =>
    have hp := hps p List.mem_cons_self
    exact ih (fun x hx => hps x (List.mem_cons_of_mem p hx))
      (removeStaged_within (hplan.proper p (List.mem_append_right _ hp)) (hplan.staging p hp) h)

/-- A plan holds on as long as the links are kept, for they tell what is named. -/
theorem Plan.within {e : Disk} (h : d.Within e W) : Plan e W deletes writes := by
  have hnames : ∀ {p q}, e.Names p q → d.Names p q := by
    rintro p _ ⟨pre, n, k, dir, hcat, hstep, htrail, rfl⟩
    exact ⟨pre, n, k, dir, hcat, hstep, htrail.imp (fun _ => id) h.link_iff, rfl⟩
  refine ⟨hplan.proper, fun p hp q hq => hplan.named p hp q (hnames hq), fun p hp q hq => ?_,
    fun p hp q hq => ?_⟩
  · obtain ⟨hw, hlink⟩ := hplan.staging p hp q (hnames hq)
    exact ⟨hw, fun target hl => hlink target ((h.link_iff q target).1 hl)⟩
  · obtain ⟨hw, hlink⟩ := hplan.backup p hp q (hnames hq)
    exact ⟨hw, fun target hl => hlink target ((h.link_iff q target).1 hl)⟩

end Phases

/-! ## The second phase -/

namespace Disk.Shifted

variable {e : Disk} {v : Drive} {p : FilePath}

theorem names (h : e.Shifted v.disk W) {dir : Place} {n : String} (hfinds : v.disk.Finds p dir n) :
    e.Names p (dir ++ [n]) := (h.narrows.finds hfinds).names fun _ _ => Iff.rfl

theorem remove (h : e.Shifted v.disk W) (hp : p.Proper) (hw : ∀ q, e.Names p q → W q) :
    e.Shifted (removeQuietly sabotage v p).1.disk W := by
  rcases Drive.removeQuietly_finds hp with hsame | ⟨dir, n, node, hfinds, -, -, hdrop⟩
  · rwa [hsame]
  · rw [hdrop]
    exact h.drop (hw _ (h.names hfinds))

theorem removeAll (h : e.Shifted v.disk W) {ps : List FilePath}
    (hps : ∀ p ∈ ps, p.Proper ∧ ∀ q, e.Names p q → W q) :
    e.Shifted (removeAllQuietly sabotage v ps).1.disk W := by
  induction ps generalizing v with
  | nil => exact h
  | cons p ps ih =>
    obtain ⟨hp, hw⟩ := hps p List.mem_cons_self
    exact ih (h.remove hp hw) fun x hx => hps x (List.mem_cons_of_mem p hx)

/-- A file that is moved back from beside its path was no link before, or one that is shut. -/
theorem moveBack (h : e.Shifted v.disk W) {ending : String} (hlong : 2 < ending.toList.length)
    (hp : p.Proper) (hw : ∀ q, e.Names p q → W q)
    (hbeside : ∀ q, e.Names (p.addSuffix ending) q →
      W q ∧ ∀ target, e.node? q ≠ some (.link target)) :
    e.Shifted (v.perform sabotage (.move (p.addSuffix ending) p)).1.disk W := by
  generalize hperform : v.perform sabotage (.move (p.addSuffix ending) p) = r
  obtain ⟨v', fault⟩ := r
  cases fault with
  | some f => rwa [Drive.perform_still (fun _ => rfl) hperform]
  | none =>
    obtain ⟨dir, n, node, hfinds, hfinds', hnode, hdir, -, hmoved⟩ :=
      Disk.moveFile_back hp hlong (Drive.move_done hperform)
    obtain ⟨hw', hlink⟩ := hbeside _ (h.names hfinds')
    rw [hmoved]
    refine h.move hw' (hw _ (h.names hfinds)) hdir fun target hl => ?_
    exact (h.narrows.link _ _ _ (hl ▸ hnode)).resolve_left (hlink target)

end Disk.Shifted

/-- That the disk of the second phase `s` took no way that `e` did not have, and that it moved no
    files but those it is about. -/
structure Swap.Keeps (s : Swap) (e : Disk) (W : Place → Prop) (deletes writes : List FilePath) :
    Prop where
  shifted : e.Shifted s.drive.disk W
  moved : ∀ p ∈ s.moved, p ∈ deletes ++ writes
  placed : ∀ p ∈ s.placed, p ∈ writes

section Swapping

variable {e : Disk} {deletes writes : List FilePath} (hplan : Plan e W deletes writes)

include hplan

theorem moveAside_keeps {s s' : Swap} {p : FilePath} {out : Except DiskFault Bool}
    (h : s.Keeps e W deletes writes) (hretain : e.Retains s.drive.disk) (hp : p ∈ deletes ++ writes)
    (heq : moveAside sabotage s p = (s', out)) :
    s'.Keeps e W deletes writes ∧ e.Retains s'.drive.disk := by
  unfold moveAside at heq
  split at heq
  · cases heq
    exact ⟨h, hretain⟩
  · cases heq
    exact ⟨h, hretain⟩
  · rename_i hfile
    split at heq
    · rename_i v f hfault
      cases heq
      have hsame := Drive.perform_still (fun _ => rfl) hfault
      exact ⟨⟨hsame ▸ h.shifted, h.moved, h.placed⟩, hsame ▸ hretain⟩
    · rename_i v hdone
      cases heq
      obtain ⟨dir, n, node, hmove⟩ :=
        Disk.movesAside (hplan.proper p hp) hfile (Drive.move_done hdone)
      have hw := hplan.named p hp _ (h.shifted.names hmove.finds)
      obtain ⟨hw', hlink⟩ := hplan.backup p hp _ (h.shifted.names hmove.findsAside)
      have hshut : ∀ target, node = .link target → e.Shut dir target := fun target hl =>
        hretain.shut (hmove.shut target hl)
      have hmoved : ∀ x ∈ s.moved ++ [p], x ∈ deletes ++ writes := by
        intro x hx
        rcases List.mem_append.1 hx with hx | hx
        · exact h.moved x hx
        · rw [List.mem_singleton.1 hx]
          exact hp
      refine ⟨⟨hmove.moved ▸ h.shifted.move hw hw' hmove.notDir hshut, hmoved, h.placed⟩, ?_⟩
      show e.Retains v.disk
      rw [hmove.moved]
      refine (hretain.drop ?_ fun target hl => hshut target ?_).put ?_ hlink
      · rw [hmove.there]
        simpa using hmove.notDir
      · rw [hmove.there] at hl
        exact Option.some.inj hl
      · rw [Disk.node?_drop _ (by simp)]
        split
        · nofun
        · exact hmove.free

variable (sabotage) in
theorem moveDeleted_keeps {s : Swap} {ts : List Target} (h : s.Keeps e W deletes writes)
    (hretain : e.Retains s.drive.disk) (hts : ∀ t ∈ ts, t.file ∈ deletes ++ writes) :
    (moveDeleted sabotage s ts).1.Keeps e W deletes writes ∧
      e.Retains (moveDeleted sabotage s ts).1.drive.disk := by
  induction ts generalizing s with
  | nil => exact ⟨h, hretain⟩
  | cons t ts ih =>
    have hrest : ∀ x ∈ ts, x.file ∈ deletes ++ writes := fun x hx =>
      hts x (List.mem_cons_of_mem t hx)
    generalize haside : moveAside sabotage s t.file = r
    obtain ⟨s', out⟩ := r
    obtain ⟨hkeeps, hretain'⟩ := moveAside_keeps hplan h hretain (hts t List.mem_cons_self) haside
    unfold moveDeleted
    rw [haside]
    cases out with
    | error f => exact ⟨hkeeps, hretain'⟩
    | ok isThere =>
      cases isThere with
      | false => exact ih hkeeps hretain' hrest
      | true => exact ih ⟨hkeeps.shifted, hkeeps.moved, hkeeps.placed⟩ hretain' hrest

variable (sabotage) in
theorem moveReplaced_keeps {s : Swap} {ts : List Target} (h : s.Keeps e W deletes writes)
    (hretain : e.Retains s.drive.disk) (hts : ∀ t ∈ ts, t.file ∈ writes) :
    (moveReplaced sabotage s ts).1.Keeps e W deletes writes := by
  induction ts generalizing s with
  | nil => exact h
  | cons t ts ih =>
    generalize haside : moveAside sabotage s t.file = r
    obtain ⟨s', out⟩ := r
    obtain ⟨hkeeps, hretain'⟩ := moveAside_keeps hplan h hretain
      (List.mem_append_right _ (hts t List.mem_cons_self)) haside
    unfold moveReplaced
    rw [haside]
    cases out with
    | error f => exact hkeeps
    | ok isThere => exact ih hkeeps hretain' fun x hx => hts x (List.mem_cons_of_mem t hx)

theorem moveIn_keeps {s : Swap} {ts : List Target} (h : s.Keeps e W deletes writes)
    (hts : ∀ t ∈ ts, t.file ∈ writes) : (moveIn sabotage s ts).1.Keeps e W deletes writes := by
  induction ts generalizing s with
  | nil => exact h
  | cons t ts ih =>
    have ht := hts t List.mem_cons_self
    have ht' : t.file ∈ deletes ++ writes := List.mem_append_right _ ht
    have hshifted : e.Shifted
        (s.drive.perform sabotage (.move (stagingPath t.file) t.file)).1.disk W :=
      h.shifted.moveBack (by decide) (hplan.proper _ ht') (hplan.named _ ht') (hplan.staging _ ht)
    unfold moveIn
    split
    · rename_i hfault
      rw [hfault] at hshifted
      exact ⟨hshifted, h.moved, h.placed⟩
    · rename_i hdone
      rw [hdone] at hshifted
      refine ih ⟨hshifted, h.moved, fun p hp => ?_⟩ fun x hx => hts x (List.mem_cons_of_mem t hx)
      rcases List.mem_append.1 hp with hp | hp
      · exact h.placed p hp
      · rw [List.mem_singleton.1 hp]
        exact ht

variable (sabotage) in
theorem swapAll_keeps {v : Drive} {ts us : List Target} (hv : v.disk = e)
    (hts : ∀ t ∈ ts, t.file ∈ deletes ++ writes) (hus : ∀ t ∈ us, t.file ∈ writes) :
    (swapAll sabotage v ts us).1.Keeps e W deletes writes := by
  have hstart : Swap.Keeps ⟨v, [], [], ⟨[], []⟩⟩ e W deletes writes :=
    ⟨hv ▸ .refl v.disk, nofun, nofun⟩
  obtain ⟨hdeleted, hretain⟩ := moveDeleted_keeps sabotage hplan hstart
    (hv ▸ .refl v.disk) hts
  unfold swapAll
  split
  · rename_i heq
    rwa [heq] at hdeleted
  · rename_i heq
    rw [heq] at hdeleted hretain
    have hreplaced := moveReplaced_keeps sabotage hplan hdeleted hretain hus
    split
    · rename_i heq'
      rwa [heq'] at hreplaced
    · rename_i heq'
      rw [heq'] at hreplaced
      exact moveIn_keeps hplan hreplaced hus

theorem restoreAll_shifted {v : Drive} {ps : List FilePath} (h : e.Shifted v.disk W)
    (hps : ∀ p ∈ ps, p ∈ deletes ++ writes) : e.Shifted (restoreAll sabotage v ps).1.disk W := by
  induction ps generalizing v with
  | nil => exact h
  | cons p ps ih =>
    have hp := hps p List.mem_cons_self
    exact ih (h.moveBack (by decide) (hplan.proper p hp) (hplan.named p hp) (hplan.backup p hp))
      fun x hx => hps x (List.mem_cons_of_mem p hx)

theorem backups_named {ps : List FilePath} (hps : ∀ p ∈ ps, p ∈ deletes ++ writes) :
    ∀ p ∈ ps.map backupPath, p.Proper ∧ ∀ q, e.Names p q → W q := by
  intro p hp
  obtain ⟨x, hx, rfl⟩ := List.mem_map.1 hp
  exact ⟨(hplan.proper x (hps x hx)).addSuffix (by decide),
    fun q hq => (hplan.backup x (hps x hx) q hq).1⟩

theorem rollBack_shifted {s : Swap} {us : List Target} (h : s.Keeps e W deletes writes)
    (hus : ∀ t ∈ us, t.file ∈ writes) : e.Shifted (rollBack sabotage s us).1.disk W := by
  have hplaced : ∀ p ∈ s.placed, p.Proper ∧ ∀ q, e.Names p q → W q := fun p hp =>
    have hp' : p ∈ deletes ++ writes := List.mem_append_right _ (h.placed p hp)
    ⟨hplan.proper p hp', hplan.named p hp'⟩
  have hstaged : ∀ p ∈ us.map (fun t => stagingPath t.file), p.Proper ∧ ∀ q, e.Names p q → W q := by
    intro p hp
    obtain ⟨t, ht, rfl⟩ := List.mem_map.1 hp
    have ht' := hus t ht
    exact ⟨(hplan.proper _ (List.mem_append_right _ ht')).addSuffix (by decide),
      fun q hq => (hplan.staging _ ht' q hq).1⟩
  exact restoreAll_shifted hplan ((h.shifted.removeAll hplaced).removeAll hstaged)
    fun p hp => h.moved p (List.mem_reverse.1 hp)

end Swapping

/-! ## Both phases -/

/-- That `v` is as the earlier disk `d` was but for places that pass `W` and new directories. -/
def Disk.Spares (d v : Disk) (W : Place → Prop) : Prop :=
  ∀ q, ¬W q → v.node? q = d.node? q ∨ d.node? q = none ∧ v.node? q = some .dir

theorem Disk.Shifted.spares {d e v : Disk} (hwithin : d.Within e W) (h : e.Shifted v W) :
    d.Spares v W := by
  intro q hq
  rw [h.other q hq]
  exact hwithin.other q hq

/-- **Both phases spare all places but those of the plan** `W`, also where they fail. -/
theorem commitTargets_spares {d : Disk} {v : Drive} {ts : List Target} {ws : List Pending}
    (hplan : Plan d W (ts.map (·.file)) (ws.map (·.target.file))) (h : d.Grown v.disk) :
    d.Spares (commitTargets sabotage v root ts ws).drive.disk W := by
  obtain ⟨hwithin, hstaged⟩ := @stageAll_within sabotage W d _ _ hplan v [] [] ws
    (fun w hw => List.mem_map_of_mem hw) nofun ((Disk.Within.refl d).grow h)
  unfold commitTargets
  dsimp only
  split
  · unfold discardStaged
    split
    · have hfiles : ∀ p ∈ (stageAll sabotage v [] [] ws).staged.map (·.file),
          p ∈ ws.map (·.target.file) := fun p hp => by
        obtain ⟨t, ht, rfl⟩ := List.mem_map.1 hp
        exact hstaged t ht
      have hremoved := removeAllStaged_within sabotage hplan hfiles hwithin
      rw [List.map_map] at hremoved
      exact hremoved.other
    · exact hwithin.other
  · have hplan' := hplan.within hwithin
    have hkeeps := swapAll_keeps sabotage hplan' rfl
      (fun t ht => List.mem_append_left _ (List.mem_map_of_mem ht)) hstaged
    split
    · rename_i heq
      rw [heq] at hkeeps
      exact (rollBack_shifted hplan' hkeeps hstaged).spares hwithin
    · rename_i heq
      rw [heq] at hkeeps
      exact (hkeeps.shifted.removeAll (backups_named hplan' hkeeps.moved)).spares hwithin

/-! ## The whole commit -/

section Frame

variable {d : Disk} {s : Snapshot} {q : Place}

/-- That a path of `s` names `q`. -/
def Disk.Named (d : Disk) (root : FilePath) (s : Snapshot) (q : Place) : Prop :=
  ∃ p ∈ s.paths, d.Names (root.joinText p) q

/-- That `q` is beside a place that is named: where a content is staged or a file moved aside to. -/
def Disk.Beside (d : Disk) (root : FilePath) (s : Snapshot) (q : Place) : Prop :=
  (∃ p ∈ s.writes.keys, d.Names (stagingPath (root.joinText p)) q) ∨
    ∃ p ∈ s.paths, d.Names (backupPath (root.joinText p)) q

/-- That a path of `s` names `q` or leads there through links. -/
def Disk.Meant (d : Disk) (root : FilePath) (s : Snapshot) (q : Place) : Prop :=
  ∃ p ∈ s.paths, d.Names (root.joinText p) q ∨
    ∃ k, d.Trail Disk.AnyPlace k [] (root.joinText p).names q

/-- The plan of a commit. -/
theorem snapshot_plan (hroot : root.Proper)
    (hclear : ∀ q, d.Beside root s q → ∀ target, d.node? q ≠ some (.link target)) :
    Plan d (fun q => d.Named root s q ∨ d.Beside root s q) ((s.targets root).map (·.file))
      ((s.pendings root).map (·.target.file)) := by
  refine ⟨fun p hp => ?_, fun p hp q hq => ?_, fun p hp q hq => ?_, fun p hp q hq => ?_⟩
  · obtain ⟨a, -, rfl⟩ := Committable.mem_files hp
    exact hroot.joinText a
  · obtain ⟨a, ha, rfl⟩ := Committable.mem_files hp
    exact .inl ⟨a, ha, hq⟩
  · rw [Snapshot.pendings, List.map_map] at hp
    obtain ⟨w, hw, rfl⟩ := List.mem_map.1 hp
    have hbeside : d.Beside root s q := .inl ⟨w.1, mem_keys_of_mem_sortedWrites hw, hq⟩
    exact ⟨.inr hbeside, hclear q hbeside⟩
  · obtain ⟨a, ha, rfl⟩ := Committable.mem_files hp
    have hbeside : d.Beside root s q := .inr ⟨a, ha, hq⟩
    exact ⟨.inr hbeside, hclear q hbeside⟩

/-- All that a commit works at is below the root, if each path that is a link stands there and none
    names the root itself. -/
theorem below_of_planned {d' : Disk} {k : Nat} {top : Place} (hgrown : d.Grown d')
    (hwithin : ∀ p ∈ s.paths, d'.isWithin root (root.joinText p) = .ok true)
    (hreach : d.LinksInReach) (htop : d.Trail Disk.AnyPlace k [] root.names top)
    (hlinks : ∀ p ∈ s.paths, ∀ q, d.Names (root.joinText p) q →
      q ≠ top ∧ ∀ target, d.node? q = some (.link target) → top <+: q)
    (hq : d.Named root s q ∨ d.Beside root s q) : top <+: q := by
  have hsame : ∀ q target, d.node? q = some (.link target) ↔ d'.node? q = some (.link target) :=
    fun _ _ => hgrown.link_iff.symm
  have hleads : ∀ p ∈ s.paths, d.LeadsBelow top (root.joinText p) := by
    intro p hp
    refine ⟨fun j q htrail => ?_, fun q target hn hl => (hlinks p hp q hn).2 target hl,
      fun q hn => (hlinks p hp q hn).1⟩
    exact Disk.prefix_of_isWithin (hreach.grow hgrown) (htop.imp (fun _ => id) hsame)
      (htrail.imp (fun _ => id) hsame) (hwithin p hp)
  rcases hq with ⟨p, hp, hq⟩ | ⟨p, hp, hq⟩ | ⟨p, hp, hq⟩
  · exact (hleads p hp).named hq
  · exact (hleads p (List.mem_append_right _ hp)).beside hq
  · exact (hleads p hp).beside hq

end Frame

/-- **A commit keeps every file that its paths do not mean.** Whatever links there are and whichever
    operations `sabotage` makes fail, a file that is not `Meant`, as no path of `s` names or leads
    to it, stays as it is, and outside `root` nothing changes but that directories may be made. This
    is so if `Beside` what is named, where a content is staged or a file is moved aside to, stands
    no link and no file that is not meant; for the root also if every path that names a link has it
    there, none names the root itself, and the links are `LinksInReach`. -/
theorem commit_keeps_other_files (sabotage : Sabotage) {d : Disk} {s : Snapshot}
    (hroot : root.Proper)
    (hclear : ∀ q, d.Beside root s q → (∀ target, d.node? q ≠ some (.link target)) ∧
      ∀ bytes, d.node? q = some (.file bytes) → d.Meant root s q) :
    let d' := (commitSnapshot sabotage d root s).drive.disk
    (∀ q bytes, d.node? q = some (.file bytes) → ¬d.Meant root s q →
      d'.node? q = some (.file bytes)) ∧
    ∀ k top, d.LinksInReach → d.Trail Disk.AnyPlace k [] root.names top →
      (∀ p ∈ s.paths, ∀ q, d.Names (root.joinText p) q →
        q ≠ top ∧ ∀ target, d.node? q = some (.link target) → top <+: q) →
      ∀ q, ¬top <+: q → d'.node? q = d.node? q ∨ d.node? q = none ∧ d'.node? q = some .dir := by
  intro d'
  have hkept : ∀ {q bytes}, d.node? q = some (.file bytes) →
      d'.node? q = d.node? q ∨ d.node? q = none ∧ d'.node? q = some .dir →
      d'.node? q = some (.file bytes) := by
    rintro q bytes hfile (hsame | ⟨hnone, -⟩)
    · exact hsame.trans hfile
    · rw [hnone] at hfile
      cases hfile
  rcases commitSnapshot_phases sabotage d root s with ⟨hgrown, -⟩ | ⟨v, hgrown, hwithin, heq⟩
  · exact ⟨fun q bytes hfile _ => hkept hfile (hgrown q), fun _ _ _ _ _ q _ => hgrown q⟩
  · have hspares : d.Spares d' fun q => d.Named root s q ∨ d.Beside root s q := by
      rw [show d' = (commitSnapshot sabotage d root s).drive.disk from rfl, heq]
      exact commitTargets_spares (snapshot_plan hroot fun q hq => (hclear q hq).1) hgrown
    refine ⟨fun q bytes hfile hnot => hkept hfile (hspares q ?_),
      fun k top hreach htop hlinks q hout => hspares q fun hq =>
        hout (below_of_planned hgrown hwithin hreach htop hlinks hq)⟩
    rintro (⟨p, hp, hnamed⟩ | hbeside)
    · exact hnot ⟨p, hp, .inl hnamed⟩
    · exact hnot ((hclear q hbeside).2 bytes hfile)

/-- A file outside the root and one inside it stay beside the file that is written. -/
theorem neighbours_kept :
    let root : FilePath := ⟨1, ["proj"]⟩
    let s := (Overlay.empty.write "a" "x").snapshot
    let d : Disk := ⟨[(["proj"], .dir), (["proj", "c"], .file "kept".toUTF8), (["out"], .dir),
      (["out", "f"], .file "kept".toUTF8)]⟩
    let d' := (commitSnapshot noSabotage d root s).drive.disk
    (root.Proper ∧ (∀ q, d.Beside root s q → (∀ target, d.node? q ≠ some (.link target)) ∧
        ∀ bytes, d.node? q = some (.file bytes) → d.Meant root s q) ∧
      d.LinksInReach ∧ d.Trail Disk.AnyPlace 0 [] root.names ["proj"] ∧
      ∀ p ∈ s.paths, ∀ q, d.Names (root.joinText p) q →
        q ≠ ["proj"] ∧ ∀ target, d.node? q = some (.link target) → ["proj"] <+: q) ∧
    d'.node? ["proj", "c"] = some (.file "kept".toUTF8) ∧
    d'.node? ["out", "f"] = some (.file "kept".toUTF8) := by
  intro root s d d'
  have hpath : root.joinText "a" = ⟨1, ["proj", "a"]⟩ := by decide +kernel
  have hstaging : stagingPath ⟨1, ["proj", "a"]⟩ = ⟨1, ["proj", "a.tmp"]⟩ := by decide +kernel
  have hbackup : backupPath ⟨1, ["proj", "a"]⟩ = ⟨1, ["proj", "a.patchloop.bak"]⟩ := by
    decide +kernel
  have hpaths : ∀ p ∈ s.paths, p = "a" := fun p hp => List.mem_singleton.1 hp
  have hproper : root.Proper := by
    intro n hn
    rw [List.mem_singleton.1 hn]
    decide
  have hlinks : ∀ q target, d.node? q ≠ some (.link target) :=
    Disk.no_link_of_entries (by simp [d])
  have hnames : ∀ {m q}, d.Names ⟨1, ["proj", m]⟩ q → Plain ⟨1, ["proj", m]⟩ → q = ["proj", m] :=
    fun hq hplain => hq.eq_of_plain hlinks hplain
  have hnamed : ∀ p ∈ s.paths, ∀ q, d.Names (root.joinText p) q → q = ["proj", "a"] := by
    intro p hp q hq
    rw [hpaths p hp, hpath] at hq
    exact hnames hq ⟨by decide, by decide⟩
  have hbeside : ∀ q, d.Beside root s q → d.node? q = none := by
    rintro q (⟨p, hp, hq⟩ | ⟨p, hp, hq⟩)
    · rw [hpaths p hp, hpath, hstaging] at hq
      rw [hnames hq ⟨by decide, by decide⟩]
      rfl
    · rw [hpaths p hp, hpath, hbackup] at hq
      rw [hnames hq ⟨by decide, by decide⟩]
      rfl
  have hmeant : ∀ q, d.Meant root s q → q = ["proj", "a"] := by
    rintro q ⟨p, hp, hq | ⟨k, htrail⟩⟩
    · exact hnamed p hp q hq
    · rw [hpaths p hp, hpath] at htrail
      exact htrail.eq_of_plain hlinks (by decide)
  have hclear : ∀ q, d.Beside root s q → (∀ target, d.node? q ≠ some (.link target)) ∧
      ∀ bytes, d.node? q = some (.file bytes) → d.Meant root s q := by
    intro q hq
    rw [hbeside q hq]
    simp
  have hreach : d.LinksInReach := fun q n target hl => absurd hl (hlinks _ target)
  have htop : d.Trail Disk.AnyPlace 0 [] root.names ["proj"] :=
    .down trivial ⟨by decide, by decide, by decide, by decide +kernel⟩ (hlinks _) (.nil trivial)
  have hbelow : ∀ p ∈ s.paths, ∀ q, d.Names (root.joinText p) q →
      q ≠ ["proj"] ∧ ∀ target, d.node? q = some (.link target) → ["proj"] <+: q := by
    intro p hp q hq
    refine ⟨?_, fun target hl => absurd hl (hlinks q target)⟩
    rw [hnamed p hp q hq]
    decide
  obtain ⟨hfiles, houtside⟩ := commit_keeps_other_files noSabotage hproper hclear
  refine ⟨⟨hproper, hclear, hreach, htop, hbelow⟩, ?_, ?_⟩
  · refine hfiles ["proj", "c"] _ rfl fun hq => ?_
    have hsame := hmeant _ hq
    revert hsame
    decide
  · rcases houtside 0 ["proj"] hreach htop hbelow ["out", "f"] (by decide) with hsame | ⟨hnone, -⟩
    · exact hsame
    · cases hnone

/-- A commit of one write where nothing is goes through if each of its steps does. -/
theorem commitTargets_of_write {v v₁ v₂ : Drive} {w : Pending} {q : FilePath}
    (hdir : v.disk.isDir w.target.file = .ok false)
    (hstage : stageFile sabotage v w.target.file w.content = ⟨v₁, .ok q, []⟩)
    (hnew : v₁.disk.isFile w.target.file = .ok false)
    (hin : v₁.perform sabotage (.move (stagingPath w.target.file) w.target.file) = (v₂, none)) :
    (commitTargets sabotage v root [] [w]).outcome = .ok ⟨[w.target.path], []⟩ ∧
      (commitTargets sabotage v root [] [w]).drive = v₂ := by
  constructor <;>
    simp [commitTargets, stageAll_single hdir hstage, swapAll, moveDeleted, moveReplaced, moveIn,
      moveAside, hnew, hin, removeAllQuietly]

/-- A project with a link out of it at the place where the file `a` is staged. -/
def stagingLink : Disk :=
  ⟨[(["proj"], .dir), (["out"], .dir), (["out", "f"], .file "kept".toUTF8),
    (["proj", "a.tmp"], .link "/out/f")]⟩

theorem stagingLink_link {q : Place} {target : String}
    (hl : stagingLink.node? q = some (.link target)) : q = ["proj", "a.tmp"] := by
  simp only [Disk.node?, Disk.lookup, stagingLink] at hl
  grind

theorem stagingLink_inReach : stagingLink.LinksInReach := by
  intro q n target hl
  have hplace : q ++ [n] = ["proj"] ++ ["a.tmp"] := stagingLink_link hl
  obtain ⟨rfl, hn⟩ := List.append_inj' hplace rfl
  cases hn
  exact ⟨rfl, by decide +kernel⟩

/-- The link is not on the way to where `a` is to be. -/
theorem stagingLink_unlinked : stagingLink.Unlinked ["proj", "a"] := by
  intro q target hq hl
  rw [stagingLink_link hl] at hq
  revert hq
  decide

theorem stagingLink_top : stagingLink.Trail Disk.AnyPlace 0 [] ["proj"] ["proj"] :=
  .down trivial ⟨by decide, by decide, by decide, by decide +kernel⟩ nofun (.nil trivial)

theorem stagingLink_trail : stagingLink.Trail Disk.AnyPlace 0 [] ["proj", "a"] ["proj", "a"] :=
  .down trivial ⟨by decide, by decide, by decide, by decide +kernel⟩ nofun
    (.down trivial ⟨by decide, by decide, by decide, by decide +kernel⟩ nofun (.nil trivial))

/-- The content of `a` is written through the link, and the link becomes `a`. -/
theorem stagingLink_committed :
    let step := commitSnapshot noSabotage stagingLink ⟨1, ["proj"]⟩
      (Overlay.empty.write "a" "x").snapshot
    step.outcome = .ok ⟨["a"], []⟩ ∧
      step.drive.disk.node? ["out", "f"] = some (.file "x".toUTF8) := by
  have hshort : isLongName "proj" = false ∧ isLongName "a" = false ∧ isLongName "a.tmp" = false ∧
      isLongName "out" = false ∧ isLongName "f" = false := by decide +kernel
  obtain ⟨hproj, ha, htmp, hout, hf⟩ := hshort
  have hfit : isLong ⟨1, ["proj", "a"]⟩ = false ∧ isLong ⟨1, ["proj", "a.tmp"]⟩ = false := by
    decide +kernel
  obtain ⟨hfit, hfit'⟩ := hfit
  have hpath : joinText ⟨1, ["proj"]⟩ "a" = ⟨1, ["proj", "a"]⟩ := by decide +kernel
  have hstaging : stagingPath ⟨1, ["proj", "a"]⟩ = ⟨1, ["proj", "a.tmp"]⟩ := by decide +kernel
  have hpieces : Disk.piecesOf "/out/f" = ["", "out", "f"] := by decide +kernel
  have habsolute : (FilePath.ofText "/out/f").isAbsolute = true := by decide +kernel
  have htop : stagingLink.Reaches ⟨1, ["proj"]⟩ := Disk.reaches_top (by decide +kernel)
  have hroot : stagingLink.makeDirs ⟨1, ["proj"]⟩ = (stagingLink, none) :=
    Disk.makeDirs_there ⟨by decide, by decide⟩ (fun q target hq =>
      stagingLink_unlinked q target (hq.trans (List.prefix_append ["proj"] ["a"])))
      (List.cons_ne_nil _ _) htop rfl
  have hmake : (Drive.start stagingLink).perform noSabotage (.makeDirs ⟨1, ["proj"]⟩) =
      (Drive.rooted stagingLink ⟨1, ["proj"]⟩, none) :=
    Drive.perform_makeDirs_there (fun _ => rfl) hroot
  have hwithin : stagingLink.isWithin ⟨1, ["proj"]⟩ (joinText ⟨1, ["proj"]⟩ "a") = .ok true := by
    rw [hpath]
    exact Disk.isWithin_of_prefix stagingLink_inReach stagingLink_top stagingLink_trail (by decide)
      (by decide) (by decide)
  have hwrites : writeTargets stagingLink ⟨1, ["proj"]⟩ [("a", "x")] =
      .ok [⟨⟨"a", ⟨1, ["proj", "a"]⟩⟩, "x"⟩] := by
    rw [writeTargets, List.mapM_cons, targetOf, hwithin, hpath]
    rfl
  let staged : Disk := ⟨[(["proj"], .dir), (["out"], .dir), (["proj", "a.tmp"], .link "/out/f"),
    (["out", "f"], .file "x".toUTF8)]⟩
  let placed : Disk := ⟨[(["proj"], .dir), (["out"], .dir), (["out", "f"], .file "x".toUTF8),
    (["proj", "a"], .link "/out/f")]⟩
  let rooted : Drive := Drive.rooted stagingLink ⟨1, ["proj"]⟩
  let begun : Drive := rooted.staged staged ⟨1, ["proj", "a"]⟩ "x"
  have hdir : rooted.disk.isDir ⟨1, ["proj", "a"]⟩ = .ok false :=
    Disk.looksLike_free ⟨by decide, by decide⟩ stagingLink_unlinked
      (htop.child rfl (by decide +kernel)) rfl
  have hwrite : stagingLink.writeFile (stagingPath ⟨1, ["proj", "a"]⟩) "x".toUTF8 =
      .ok staged := by
    simp [hstaging, Disk.locate, Disk.walk, Disk.isDirNode, Disk.node?, Disk.lookup,
      Disk.writeFile, Disk.isSlashes, Disk.put, Disk.drop, hasNul, hproj, htmp, hout, hf, hfit',
      hpieces, habsolute, maxLinks, staged, stagingLink]
  have hstage : stageFile noSabotage rooted ⟨1, ["proj", "a"]⟩ "x" =
      ⟨begun, .ok (stagingPath ⟨1, ["proj", "a"]⟩), []⟩ :=
    stageFile_of_write (fun _ _ _ => rfl) (List.cons_ne_nil _ _) hroot hwrite
  have hnew : begun.disk.isFile ⟨1, ["proj", "a"]⟩ = .ok false := by
    simp [Disk.isFile, Disk.looksLike, Disk.look, Disk.locate, Disk.walk, Disk.isDirNode,
      Disk.node?, Disk.lookup, Disk.isSlashes, DiskCause.isAbsence, hasNul, hproj, ha, hfit,
      staged, begun]
  have hmove : staged.moveFile (stagingPath ⟨1, ["proj", "a"]⟩) ⟨1, ["proj", "a"]⟩ =
      .ok placed := by
    simp [Disk.moveFile, Disk.locateParent, Disk.entryPlace, Disk.moveEntry, Disk.walk,
      Disk.isDirNode, Disk.node?, Disk.lookup, Disk.put, Disk.drop, bind, Except.bind, hstaging,
      hasNul, hproj, ha, htmp, hfit, hfit', staged, placed]
  have hin : begun.perform noSabotage (.move (stagingPath ⟨1, ["proj", "a"]⟩) ⟨1, ["proj", "a"]⟩) =
      (begun.record placed (.move (stagingPath ⟨1, ["proj", "a"]⟩) ⟨1, ["proj", "a"]⟩) none,
        none) := by
    simp only [Drive.perform, noSabotage, Disk.run, begun, Drive.staged_disk, hmove]
  obtain ⟨hok, hdrive⟩ := @commitTargets_of_write noSabotage ⟨1, ["proj"]⟩ rooted _ _
    ⟨⟨"a", ⟨1, ["proj", "a"]⟩⟩, "x"⟩ _ hdir hstage hnew hin
  intro step
  have hstep : step = commitTargets noSabotage rooted ⟨1, ["proj"]⟩ []
      [⟨⟨"a", ⟨1, ["proj", "a"]⟩⟩, "x"⟩] := by
    show commitSnapshot noSabotage stagingLink _ _ = _
    unfold commitSnapshot
    rw [hmake]
    dsimp only [Drive.rooted_disk]
    rw [show deleteTargets stagingLink _ (Overlay.empty.write "a" "x").snapshot.deletes = .ok []
      from rfl]
    dsimp only
    rw [show sortedWrites (Overlay.empty.write "a" "x").snapshot = [("a", "x")]
      from by decide +kernel, hwrites]
  rw [hstep, hdrive]
  exact ⟨hok, rfl⟩

/-- A file outside the root is overwritten through a link at the place where a content is staged. -/
theorem staging_link_written_through :
    let root : FilePath := ⟨1, ["proj"]⟩
    let s := (Overlay.empty.write "a" "x").snapshot
    let d := stagingLink
    let step := commitSnapshot noSabotage d root s
    ¬d.Meant root s ["out", "f"] ∧ d.node? ["out", "f"] = some (.file "kept".toUTF8) ∧
      step.outcome = .ok ⟨["a"], []⟩ ∧
      step.drive.disk.node? ["out", "f"] = some (.file "x".toUTF8) ∧
      "x".toUTF8 ≠ "kept".toUTF8 := by
  intro root s d step
  have hpath : root.joinText "a" = ⟨1, ["proj", "a"]⟩ := by decide +kernel
  have hnot : ¬d.Meant root s ["out", "f"] := by
    rintro ⟨p, hp, hq | ⟨k, hq⟩⟩
    · rw [show p = "a" from List.mem_singleton.1 hp, hpath] at hq
      have hnamed : d.Names ⟨1, ["proj", "a"]⟩ ["proj", "a"] :=
        ⟨["proj"], "a", 0, ["proj"], rfl, ⟨by decide, by decide, by decide, by decide +kernel⟩,
          stagingLink_top, rfl⟩
      have hsame := hq.unique hnamed
      revert hsame
      decide
    · rw [show p = "a" from List.mem_singleton.1 hp, hpath] at hq
      have hsame := (hq.unique stagingLink_trail).2
      revert hsame
      decide
  obtain ⟨hok, hwritten⟩ := stagingLink_committed
  refine ⟨hnot, rfl, hok, hwritten, fun hsame => ?_⟩
  have htexts := String.toByteArray_inj.1 hsame
  revert htexts
  decide

end StagedEdits
