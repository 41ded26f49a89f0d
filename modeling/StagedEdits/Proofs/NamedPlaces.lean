import StagedEdits.Disk.Listing
import StagedEdits.Proofs.CommitRealised
import StagedEdits.Proofs.LinkTrail

set_option autoImplicit false

/-! # Named places

Which place an operation works at on a disk with links. A path names a place whether or not anything
is there; an operation that goes through finds the directory of the place first. A path with an
ending names the place beside the one that the path names.

Main definitions: `FilePath.Proper`, `Disk.Finds`, `Disk.Names`. Main statements:
`Disk.Narrows.finds`, `Disk.Finds.names`, `Disk.writeFile_finds`, `Disk.moveFile_aside`,
`Disk.moveFile_back`. -/

namespace StagedEdits

/-! ## Proper names -/

/-- An ending of more than two characters makes a name of everything. -/
theorem isName_ending {ending : String} (hlong : 2 < ending.toList.length) (n : String) :
    n ++ ending ≠ "" ∧ n ++ ending ≠ "." ∧ n ++ ending ≠ ".." := by
  have hne : ∀ m : String, m.toList.length ≤ 2 → n ++ ending ≠ m := by
    intro m hm heq
    have hlength := congrArg (fun s => s.toList.length) heq
    simp only [String.toList_append, List.length_append] at hlength
    omega
  exact ⟨hne "" (by decide), hne "." (by decide), hne ".." (by decide)⟩

theorem append_ending_ne {ending : String} (hlong : 2 < ending.toList.length) (n : String) :
    n ++ ending ≠ n := by
  intro heq
  have hlength := congrArg (fun s => s.toList.length) heq
  simp only [String.toList_append, List.length_append] at hlength
  omega

namespace FilePath

variable {p root : FilePath}

/-- That no name of `p` is empty or a dot. -/
def Proper (p : FilePath) : Prop := ∀ n ∈ p.names, n ≠ "" ∧ n ≠ "."

theorem proper_ofText (s : String) : (ofText s).Proper := by
  intro n hn
  have hfilter := (List.mem_filter.1 hn).2
  simpa using hfilter

theorem Proper.joinText (h : root.Proper) (s : String) : (root.joinText s).Proper := by
  unfold FilePath.joinText join
  split
  · exact proper_ofText s
  · intro n hn
    exact (List.mem_append.1 hn).elim (h n) (proper_ofText s n)

theorem addSuffix_names {pre : List String} {n ending : String} (h : p.names = pre ++ [n]) :
    (p.addSuffix ending).names = pre ++ [n ++ ending] := by
  simp [addSuffix, name, h]

theorem Proper.addSuffix (h : p.Proper) {ending : String} (hlong : 2 < ending.toList.length) :
    (p.addSuffix ending).Proper := by
  intro n hn
  rcases List.mem_append.1 hn with hn | hn
  · exact h n (List.dropLast_subset _ hn)
  · rw [List.mem_singleton.1 hn]
    exact ⟨(isName_ending hlong _).1, (isName_ending hlong _).2.1⟩

end FilePath

namespace Disk

/-! ## What a path names -/

/-- That `p` leads to the name `n` in the directory `dir`, over directories that are there. -/
def Finds (d : Disk) (p : FilePath) (dir : Place) (n : String) : Prop :=
  ∃ pre k, p.names = pre ++ [n] ∧ IsStep n ∧ k ≤ maxLinks ∧ p.isLong = false ∧
    d.Trail d.IsDirAt k [] pre dir

/-- That `p` names `q`: its last name stands in the directory where the others lead, or would lead
    once the missing directories were made. -/
def Names (d : Disk) (p : FilePath) (q : Place) : Prop :=
  ∃ pre n k dir, p.names = pre ++ [n] ∧ IsStep n ∧ d.Trail AnyPlace k [] pre dir ∧
    q = dir ++ [n]

section Finding

variable {d e v : Disk} {p : FilePath} {dir dir' : Place} {n n' : String}

theorem Names.unique {q q' : Place} (h : d.Names p q) (h' : d.Names p q') : q = q' := by
  obtain ⟨pre, n, k, dir, hcat, -, htrail, rfl⟩ := h
  obtain ⟨pre', n', k', dir', hcat', -, htrail', rfl⟩ := h'
  obtain ⟨rfl, hn⟩ := List.append_inj' (hcat.symm.trans hcat') rfl
  cases hn
  rw [(htrail.unique htrail').2]

/-- Where no link is a path names the place of its names. -/
theorem Names.eq_of_plain (hlinks : ∀ q target, d.node? q ≠ some (.link target)) (hp : p.Plain)
    {q : Place} (h : d.Names p q) : q = p.names := by
  obtain ⟨pre, n, k, dir, hcat, -, htrail, rfl⟩ := h
  rw [htrail.eq_of_plain hlinks fun m hm => hp.names m (by simp [hcat, hm]), hcat, List.nil_append]

theorem Finds.unique (h : d.Finds p dir n) (h' : d.Finds p dir' n') : dir = dir' ∧ n = n' := by
  obtain ⟨pre, k, hcat, -, -, -, htrail⟩ := h
  obtain ⟨pre', k', hcat', -, -, -, htrail'⟩ := h'
  obtain ⟨rfl, hn⟩ := List.append_inj' (hcat.symm.trans hcat') rfl
  cases hn
  exact ⟨(htrail.unique htrail').2, rfl⟩

theorem Finds.isStep (h : d.Finds p dir n) : IsStep n := by
  obtain ⟨-, -, -, hstep, -⟩ := h
  exact hstep

/-- What a narrower disk finds was found before. -/
theorem Narrows.finds (hnarrow : e.Narrows v) (h : v.Finds p dir n) : e.Finds p dir n := by
  obtain ⟨pre, k, hcat, hstep, hlinks, hfit, htrail⟩ := h
  exact ⟨pre, k, hcat, hstep, hlinks, hfit, hnarrow.trail htrail⟩

theorem Retains.finds (hretain : e.Retains v) (h : e.Finds p dir n) : v.Finds p dir n := by
  obtain ⟨pre, k, hcat, hstep, hlinks, hfit, htrail⟩ := h
  exact ⟨pre, k, hcat, hstep, hlinks, hfit, hretain.trail htrail⟩

/-- What is found is named, also on any disk with the same links. -/
theorem Finds.names (h : e.Finds p dir n)
    (hlinks : ∀ q target, e.node? q = some (.link target) ↔ d.node? q = some (.link target)) :
    d.Names p (dir ++ [n]) := by
  obtain ⟨pre, k, hcat, hstep, -, -, htrail⟩ := h
  exact ⟨pre, n, k, dir, hcat, hstep, htrail.imp (fun _ _ => trivial) hlinks, rfl⟩

/-- A path with an ending is found beside the path. -/
theorem Finds.beside {ending : String} (h : d.Finds p dir n)
    (h' : d.Finds (p.addSuffix ending) dir' n') : dir' = dir ∧ n' = n ++ ending := by
  obtain ⟨pre, k, hcat, -, -, -, htrail⟩ := h
  obtain ⟨pre', k', hcat', -, -, -, htrail'⟩ := h'
  rw [FilePath.addSuffix_names hcat] at hcat'
  obtain ⟨rfl, hn⟩ := List.append_inj' hcat' rfl
  cases hn
  exact ⟨(htrail'.unique htrail).2, rfl⟩

/-- A look at a path that ends in a name goes from the directory that the other names lead to. -/
theorem look_split {pre : List String} {node : Node} (hcat : p.names = pre ++ [n]) (hempty : n ≠ "")
    (h : d.look p = .ok node) : ∃ k left mid place, maxLinks = k + left ∧ p.isLong = false ∧
      d.Trail d.IsDirAt k [] pre mid ∧ d.walk .content left mid [n] = .ok place ∧
      d.node? place = some node := by
  unfold look locate at h
  cases hlong : p.isLong with
  | true =>
    rw [hlong] at h
    cases h
  | false =>
    rw [hlong, if_neg (by nofun), hcat] at h
    cases hw : d.walk .content maxLinks [] (pre ++ [n]) with
    | error c =>
      rw [hw] at h
      cases h
    | ok place =>
      rw [hw] at h
      dsimp only at h
      obtain ⟨k, left, mid, hlinks, htrail, hlast, -⟩ :=
        walk_split hw (.inl (by simpa [isSlashes] using hempty))
      refine ⟨k, left, mid, place, hlinks, rfl, htrail, hlast, ?_⟩
      split at h
      · cases h
      · rename_i hnode
        rw [hnode, Except.ok.inj h]

/-- A look at a path that is found goes on from the directory. -/
theorem Finds.look {node : Node} (h : d.Finds p dir n) (hlook : d.look p = .ok node) :
    ∃ left place, d.walk .content left dir [n] = .ok place ∧ d.node? place = some node := by
  obtain ⟨pre, k, hcat, hstep, -, -, htrail⟩ := h
  obtain ⟨k', left, mid, place, -, -, htrail', hwalk, hnode⟩ := look_split hcat hstep.1 hlook
  rw [(htrail'.unique htrail).2] at hwalk
  exact ⟨left, place, hwalk, hnode⟩

/-- A link is shut through which a file is seen. -/
theorem Finds.shut {bytes : ByteArray} {target : String} (h : d.Finds p dir n)
    (hlook : d.look p = .ok (.file bytes)) (hnode : d.node? (dir ++ [n]) = some (.link target)) :
    d.Shut dir target := by
  obtain ⟨left, place, hwalk, hplace⟩ := h.look hlook
  rcases walk_last h.isStep (by nofun) hwalk with ⟨-, hlink⟩ | ⟨target', left', hnode', hwalk'⟩
  · exact absurd hnode (hlink target)
  · rw [hnode] at hnode'
    cases hnode'
    exact shut_of_walk hwalk' (by rw [hplace]; nofun)

theorem isFile_iff :
    d.isFile p = .ok true ↔ p.hasNul = false ∧ ∃ bytes, d.look p = .ok (.file bytes) := by
  unfold isFile looksLike
  cases hnul : p.hasNul with
  | true => simp
  | false =>
    cases hl : d.look p with
    | ok node => cases node <;> simp
    | error c => by_cases habsent : c.isAbsence = true <;> simp [habsent]

theorem bytes?_iff {bytes : ByteArray} :
    d.bytes? p = some bytes ↔ p.hasNul = false ∧ d.look p = .ok (.file bytes) := by
  unfold bytes?
  cases hnul : p.hasNul with
  | true => simp
  | false =>
    cases hl : d.look p with
    | ok node => cases node <;> simp
    | error c => simp

/-- A file is seen at the place where a path is found. -/
theorem Finds.look_file {bytes : ByteArray} (h : d.Finds p dir n)
    (hnode : d.node? (dir ++ [n]) = some (.file bytes)) : d.look p = .ok (.file bytes) := by
  obtain ⟨pre, k, hcat, ⟨hempty, hdot, hup, hlong⟩, hlinks, hfit, htrail⟩ := h
  have hlast : d.walk .content (maxLinks - k) dir [n] = .ok (dir ++ [n]) := by
    rw [walk, isDirNode_iff.2 htrail.finish, if_neg (by simp), if_neg (by simp [hempty, hdot]),
      if_neg (by simpa using hup), if_neg (by simp), if_neg (by simp [hlong]), hnode]
    exact walk_nil
  have hwalk := htrail.walk (maxLinks - k) [n]
  rw [Nat.add_sub_cancel' hlinks, hlast, ← hcat] at hwalk
  rw [Disk.look, locate, if_neg (by rw [hfit]; exact Bool.false_ne_true), hwalk]
  dsimp only
  rw [hnode]

/-- A path leads nowhere on a narrower disk if nothing is left at its place. -/
theorem Narrows.bytes?_eq_none (hnarrow : e.Narrows v) (h : e.Finds p dir n)
    (hnone : v.node? (dir ++ [n]) = none) : v.bytes? p = none := by
  cases hbytes : v.bytes? p with
  | none => rfl
  | some bytes =>
    exfalso
    obtain ⟨pre, k, hcat, hstep, -, -, htrail⟩ := h
    obtain ⟨-, hlook⟩ := bytes?_iff.1 hbytes
    obtain ⟨k', left, mid, place, -, -, htrail', hwalk, hplace⟩ := look_split hcat hstep.1 hlook
    rw [((hnarrow.trail htrail').unique htrail).2] at hwalk
    rcases walk_last hstep (by nofun) hwalk with ⟨rfl, -⟩ | ⟨target, -, hlink, -⟩
    · rw [hnone] at hplace
      cases hplace
    · rw [hnone] at hlink
      cases hlink

/-- On a disk where everything is in a directory, a path to a file names something. -/
theorem exists_named (hgrounded : d.Grounded) (hp : p.Proper) {bytes : ByteArray}
    (hlook : d.look p = .ok (.file bytes)) : ∃ q, d.Names p q ∧ d.node? q ≠ none := by
  rcases List.eq_nil_or_concat p.names with hnil | ⟨pre, n, hcat⟩
  · exfalso
    unfold Disk.look locate at hlook
    rw [hnil, walk_nil] at hlook
    split at hlook
    · cases hlook
    · rename_i place hroot
      split at hroot
      · cases hroot
      · cases hroot
        rw [node?_nil] at hlook
        cases hlook
  · rw [List.concat_eq_append] at hcat
    obtain ⟨hempty, hdot⟩ := hp n (by simp [hcat])
    obtain ⟨k, left, mid, place, -, -, htrail, hwalk, hplace⟩ := look_split hcat hempty hlook
    by_cases hup : n = ".."
    · -- above a directory is a directory, so no file
      exfalso
      subst hup
      have hmid : d.node? mid = some .dir := htrail.finish
      have hdir : d.node? mid.dropLast = some .dir := by
        rcases List.eq_nil_or_concat mid with rfl | ⟨up, m, rfl⟩
        · exact node?_nil d
        · rw [List.concat_eq_append] at hmid ⊢
          rw [List.dropLast_concat]
          exact hgrounded _ _ hmid up (List.prefix_append up [m]) (by simp)
      rw [walk, isDirNode_iff.2 hmid, if_neg (by simp), if_neg (by decide), if_pos (by decide),
        walk_nil] at hwalk
      cases hwalk
      rw [hdir] at hplace
      cases hplace
    · have hstep := isStep_of_walk ⟨hempty, hdot, hup⟩ hwalk
      refine ⟨mid ++ [n], ⟨pre, n, k, mid, hcat, hstep,
        htrail.imp (fun _ _ => trivial) fun _ _ => Iff.rfl, rfl⟩, ?_⟩
      rcases walk_last hstep (by simp) hwalk with ⟨rfl, -⟩ | ⟨target, -, hlink, -⟩
      · rw [hplace]
        exact Option.some_ne_none _
      · rw [hlink]
        exact Option.some_ne_none _

end Finding

/-- New directories are no links. -/
theorem Grown.link_iff {d d' : Disk} (h : d.Grown d') {q : Place} {target : String} :
    d'.node? q = some (.link target) ↔ d.node? q = some (.link target) := by
  rcases h q with hsame | ⟨hnone, hdir⟩
  · rw [hsame]
  · rw [hnone, hdir]
    exact ⟨nofun, nofun⟩

/-! ## Operations -/

section Operations

variable {d d' : Disk} {p : FilePath} {dir : Place} {n : String}

/-- The parent of a path is found with all directories on the way. -/
theorem locateParent_finds (hp : p.Proper) (h : d.locateParent p = .ok (some (dir, n)))
    (hlong : isLongName n = false) : d.Finds p dir n := by
  unfold locateParent at h
  cases hlast : p.names.getLast? with
  | none =>
    rw [hlast] at h
    cases h
  | some m =>
    rw [hlast] at h
    dsimp only at h
    cases hfit : p.isLong with
    | true =>
      rw [hfit, if_pos rfl] at h
      cases h
    | false =>
      rw [hfit, if_neg (by nofun)] at h
      cases hw : d.walk .content maxLinks [] p.names.dropLast with
      | error c =>
        rw [hw] at h
        cases h
      | ok place =>
        rw [hw] at h
        dsimp only at h
        split at h
        · rename_i hdir
          split at h
          · cases h
          · rename_i hup
            cases h
            obtain ⟨k, left, hlinks, htrail⟩ := trail_of_walk hw hdir
            obtain ⟨pre, hcat⟩ := List.getLast?_eq_some_iff.1 hlast
            obtain ⟨hempty, hdot⟩ := hp n (by simp [hcat])
            rw [hcat, List.dropLast_concat] at htrail
            exact ⟨pre, k, hcat, ⟨hempty, hdot, by simpa using hup, hlong⟩, by omega, hfit, htrail⟩
        · cases h
        · cases h

/-- A move that is done moves what is no directory to where no directory is. -/
theorem moveEntry_ok {a b : Place} (h : d.moveEntry a b = .ok d') :
    ∃ node, d.node? a = some node ∧ node ≠ .dir ∧
      (a = b ∨ d.node? b ≠ some .dir ∧ d' = (d.drop a).put b node) := by
  unfold moveEntry at h
  split at h
  · cases h
  · cases h
  · rename_i node hdir hnode
    refine ⟨node, hnode, fun he => hdir he, ?_⟩
    split at h
    · rename_i heq
      exact .inl heq
    · split at h
      · cases h
      · rename_i hdir'
        cases h
        exact .inr ⟨fun hd => hdir' (isDirNode_iff.2 hd), rfl⟩

/-- Between what places a file is moved. -/
theorem moveFile_finds {a b : FilePath} (ha : a.Proper) (hb : b.Proper)
    (h : d.moveFile a b = .ok d') : ∃ dir n dir' n', d.Finds a dir n ∧ d.Finds b dir' n' ∧
      d.moveEntry (dir ++ [n]) (dir' ++ [n']) = .ok d' := by
  cases hnul : a.hasNul || b.hasNul with
  | true =>
    rw [moveFile, if_pos hnul] at h
    cases h
  | false =>
    obtain ⟨hnula, hnulb⟩ := Bool.or_eq_false_iff.1 hnul
    have h' := h
    rw [moveFile, if_neg (by rw [hnul]; exact Bool.false_ne_true)] at h'
    cases hsource : d.locateParent a with
    | error c =>
      rw [hsource] at h'
      cases h'
    | ok x =>
      cases htarget : d.locateParent b with
      | error c =>
        rw [hsource, htarget] at h'
        cases x <;> cases h'
      | ok y =>
        rw [hsource, htarget] at h'
        cases x with
        | none => cases h'
        | some x =>
          cases y with
          | none => cases h'
          | some y =>
            obtain ⟨hn, hn', hmove⟩ := (moveFile_parents hnula hnulb hsource htarget).1 h
            exact ⟨x.1, x.2, y.1, y.2, locateParent_finds ha hsource hn,
              locateParent_finds hb htarget hn', hmove⟩

theorem moveFile_hasNul {a b : FilePath} (h : d.moveFile a b = .ok d') : b.hasNul = false := by
  cases hnul : a.hasNul || b.hasNul with
  | true =>
    rw [moveFile, if_pos hnul] at h
    cases h
  | false => exact (Bool.or_eq_false_iff.1 hnul).2

section Aside

variable {ending : String} (hp : p.Proper) (hlong : 2 < ending.toList.length)

include hp hlong

/-- **A file is moved aside** to the place beside its own, whose name is `n` with the ending behind
    it. -/
theorem moveFile_aside (h : d.moveFile p (p.addSuffix ending) = .ok d') : ∃ dir n node,
    d.Finds p dir n ∧ d.Finds (p.addSuffix ending) dir (n ++ ending) ∧
      d.node? (dir ++ [n]) = some node ∧ node ≠ .dir ∧
      d.node? (dir ++ [n ++ ending]) ≠ some .dir ∧
      d' = (d.drop (dir ++ [n])).put (dir ++ [n ++ ending]) node := by
  obtain ⟨dir, n, dir', n', hfinds, hfinds', hmove⟩ :=
    moveFile_finds hp (hp.addSuffix hlong) h
  obtain ⟨rfl, rfl⟩ := hfinds.beside hfinds'
  obtain ⟨node, hnode, hdir, hsame | ⟨hdir', rfl⟩⟩ := moveEntry_ok hmove
  · exact absurd (List.append_cancel_left hsame) (by simpa using (append_ending_ne hlong n).symm)
  · exact ⟨dir', n, node, hfinds, hfinds', hnode, hdir, hdir', rfl⟩

/-- **A file is moved in** from the place beside its own, whose name is `n` with the ending behind
    it. -/
theorem moveFile_back (h : d.moveFile (p.addSuffix ending) p = .ok d') : ∃ dir n node,
    d.Finds p dir n ∧ d.Finds (p.addSuffix ending) dir (n ++ ending) ∧
      d.node? (dir ++ [n ++ ending]) = some node ∧ node ≠ .dir ∧
      d.node? (dir ++ [n]) ≠ some .dir ∧
      d' = (d.drop (dir ++ [n ++ ending])).put (dir ++ [n]) node := by
  obtain ⟨dir', n', dir, n, hfinds', hfinds, hmove⟩ :=
    moveFile_finds (hp.addSuffix hlong) hp h
  obtain ⟨rfl, rfl⟩ := hfinds.beside hfinds'
  obtain ⟨node, hnode, hdir, hsame | ⟨hdir', rfl⟩⟩ := moveEntry_ok hmove
  · exact absurd (List.append_cancel_left hsame) (by simpa using append_ending_ne hlong n)
  · exact ⟨dir', n, node, hfinds, hfinds', hnode, hdir, hdir', rfl⟩

end Aside

theorem removeFile_finds (hp : p.Proper) (h : d.removeFile p = .ok d') : ∃ dir n node,
    d.Finds p dir n ∧ d.node? (dir ++ [n]) = some node ∧ node ≠ .dir ∧
      d' = d.drop (dir ++ [n]) := by
  unfold removeFile at h
  split at h
  · cases h
  · unfold locateEntry entryPlace at h
    cases hparent : d.locateParent p with
    | error c =>
      rw [hparent] at h
      cases h
    | ok x =>
      rw [hparent] at h
      cases x with
      | none => cases h
      | some x =>
        obtain ⟨dir, n⟩ := x
        dsimp only at h
        cases hlong : isLongName n with
        | true =>
          rw [hlong] at h
          cases h
        | false =>
          have hfinds := locateParent_finds hp hparent hlong
          rw [hlong] at h
          simp only [Bool.false_eq_true, if_false, Except.map] at h
          cases hnode : d.node? (dir ++ [n]) with
          | none =>
            rw [hnode] at h
            cases h
          | some node =>
            rw [hnode] at h
            cases node with
            | dir => cases h
            | file bytes =>
              cases h
              exact ⟨dir, n, _, hfinds, hnode, nofun, rfl⟩
            | link target =>
              cases h
              exact ⟨dir, n, _, hfinds, hnode, nofun, rfl⟩

/-- **A file is written beside a path** where nothing but a link would lead elsewhere. -/
theorem writeFile_finds {ending : String} (hne : p.names ≠ []) (hlong : 2 < ending.toList.length)
    {bytes : ByteArray} (h : d.writeFile (p.addSuffix ending) bytes = .ok d') : ∃ dir n,
    d.Finds (p.addSuffix ending) dir (n ++ ending) ∧
      ((∀ target, d.node? (dir ++ [n ++ ending]) ≠ some (.link target)) →
        d.node? (dir ++ [n ++ ending]) ≠ some .dir ∧
          d' = d.put (dir ++ [n ++ ending]) (.file bytes)) := by
  obtain ⟨pre, n, hcat⟩ := List.eq_nil_or_concat p.names |>.resolve_left hne
  rw [List.concat_eq_append] at hcat
  have hname := isName_ending hlong n
  unfold writeFile at h
  split at h
  · cases h
  · unfold locate at h
    cases hfit : (p.addSuffix ending).isLong with
    | true =>
      rw [hfit, if_pos rfl] at h
      cases h
    | false =>
      rw [hfit, if_neg Bool.false_ne_true, FilePath.addSuffix_names hcat] at h
      cases hw : d.walk .making maxLinks [] (pre ++ [n ++ ending]) with
      | error c =>
        rw [hw] at h
        cases h
      | ok place =>
        rw [hw] at h
        dsimp only at h
        obtain ⟨k, left, dir, hlinks, htrail, hlast, -⟩ :=
          walk_split hw (.inl (by simpa [isSlashes] using hname.1))
        have hstep := isStep_of_walk hname hlast
        refine ⟨dir, n, ⟨pre, k, FilePath.addSuffix_names hcat, hstep, by omega, hfit, htrail⟩,
          fun hlink => ?_⟩
        rcases walk_last hstep (by simp) hlast with ⟨rfl, -⟩ | ⟨target, -, hnode, -⟩
        · split at h
          · cases h
          · rename_i hdir
            cases h
            exact ⟨fun hd => hdir hd, rfl⟩
        · exact absurd hnode (hlink target)

end Operations

/-! ## Files moved aside -/

/-- That `d'` is `d` with `node`, which was at `p` and led to no directory, moved aside. -/
structure MovesAside (d d' : Disk) (p : FilePath) (dir : Place) (n : String) (node : Node) :
    Prop where
  finds : d.Finds p dir n
  findsAside : d.Finds (backupPath p) dir (n ++ backupEnding)
  there : d.node? (dir ++ [n]) = some node
  notDir : node ≠ .dir
  free : d.node? (dir ++ [n ++ backupEnding]) ≠ some .dir
  moved : d' = (d.drop (dir ++ [n])).put (dir ++ [n ++ backupEnding]) node
  shut : ∀ target, node = .link target → d.Shut dir target

section Aside

variable {d d' e : Disk} {p : FilePath} {dir : Place} {n : String} {node : Node}

theorem movesAside (hp : p.Proper) (hfile : d.isFile p = .ok true)
    (h : d.moveFile p (backupPath p) = .ok d') : ∃ dir n node, d.MovesAside d' p dir n node := by
  obtain ⟨dir, n, node, hfinds, hfinds', hnode, hdir, hdir', hd⟩ := moveFile_aside hp (by decide) h
  obtain ⟨-, bytes, hlook⟩ := isFile_iff.1 hfile
  exact ⟨dir, n, node, hfinds, hfinds', hnode, hdir, hdir', hd,
    fun target hl => hfinds.shut hlook (hl ▸ hnode)⟩

namespace MovesAside

variable (h : d.MovesAside d' p dir n node)

include h

/-- Nothing is left at the path, and all else is as it was but where the file was moved to. -/
theorem node_of_ne {q : Place} (hq : q ≠ dir ++ [n ++ backupEnding]) :
    d'.node? q = if q = dir ++ [n] then none else d.node? q := by
  rw [h.moved, node?_put _ (by simp), if_neg hq, node?_drop _ (by simp)]

theorem node_aside : d'.node? (dir ++ [n ++ backupEnding]) = some node := by
  rw [h.moved, node?_put _ (by simp), if_pos rfl]

theorem narrows (hnarrow : e.Narrows d) (hretain : e.Retains d) : e.Narrows d' := by
  rw [h.moved]
  exact (hnarrow.drop (by simp)).put h.notDir fun target hl =>
    .inr (hretain.shut (h.shut target hl))

end MovesAside

end Aside

end Disk

/-! ## Operations of a run -/

namespace Drive

variable {sabotage : Sabotage} {v v' : Drive}

theorem perform_done {op : DiskOp} (h : v.perform sabotage op = (v', none)) :
    v.disk.run op = (v'.disk, none) := by
  rcases perform_cases h with ⟨_, -, hnone, -⟩ | ⟨-, hrun⟩
  · cases hnone
  · exact hrun

/-- An operation that is done in one step changes nothing if it fails. -/
theorem perform_still {op : DiskOp} {f : DiskFault} (hop : ∀ n, op.cutShort n = none)
    (h : v.perform sabotage op = (v', some f)) : v'.disk = v.disk := by
  rcases perform_cases h with ⟨_, -, -, hdisk⟩ | ⟨-, hrun⟩
  · rw [hdisk, Disk.breakOff_of_atomic hop]
  · cases op with
    | makeDirs p => cases hop 0
    | write p bytes => cases hop 0
    | remove p | move p q =>
      rw [Disk.run] at hrun
      split at hrun
      · cases (Prod.mk.inj hrun).2
      · exact (Prod.mk.inj hrun).1.symm

theorem makeDirs_grown {p : FilePath} {f : Option DiskFault}
    (h : v.perform sabotage (.makeDirs p) = (v', f)) : v.disk.Grown v'.disk := by
  rcases perform_cases h with ⟨_, -, -, hdisk⟩ | ⟨-, hrun⟩
  · rw [hdisk]
    exact Disk.breakOff_makeDirs_grown
  · have hgrown : v.disk.Grown (v.disk.makeDirs p).1 := Disk.makeDirs_grown
    rwa [show v.disk.makeDirs p = (v'.disk, f) from hrun] at hgrown

theorem write_done {p : FilePath} {bytes : ByteArray}
    (h : v.perform sabotage (.write p bytes) = (v', none)) :
    v.disk.writeFile p bytes = .ok v'.disk := by
  have hrun := perform_done h
  rw [Disk.run] at hrun
  split at hrun
  · rename_i hok
    rw [hok, (Prod.mk.inj hrun).1]
  · cases (Prod.mk.inj hrun).2

theorem move_done {p q : FilePath} (h : v.perform sabotage (.move p q) = (v', none)) :
    v.disk.moveFile p q = .ok v'.disk := by
  have hrun := perform_done h
  rw [Disk.run] at hrun
  split at hrun
  · rename_i hok
    rw [hok, (Prod.mk.inj hrun).1]
  · cases (Prod.mk.inj hrun).2

/-- Removing a file removes what the path leads to, or nothing. -/
theorem removeQuietly_finds {p : FilePath} (hp : p.Proper) :
    (removeQuietly sabotage v p).1.disk = v.disk ∨ ∃ dir n node, v.disk.Finds p dir n ∧
      v.disk.node? (dir ++ [n]) = some node ∧ node ≠ .dir ∧
      (removeQuietly sabotage v p).1.disk = v.disk.drop (dir ++ [n]) := by
  rw [removeQuietly_drive]
  generalize hperform : v.perform sabotage (.remove p) = r
  rcases perform_cases (f := r.2) hperform with ⟨_, -, -, hdisk⟩ | ⟨-, hrun⟩
  · rw [Disk.breakOff_of_atomic fun _ => rfl] at hdisk
    exact .inl hdisk
  · rw [Disk.run] at hrun
    split at hrun
    · rename_i hok
      rw [← (Prod.mk.inj hrun).1]
      exact .inr (Disk.removeFile_finds hp hok)
    · exact .inl (Prod.mk.inj hrun).1.symm

end Drive

/-! ## Targets -/

section Targets

variable {sabotage : Sabotage} {d : Disk} {root : FilePath}

theorem targetOf_ok {path : String} {t : Target} (h : targetOf d root path = .ok t) :
    t = ⟨path, root.joinText path⟩ ∧ d.isWithin root (root.joinText path) = .ok true := by
  unfold targetOf at h
  split at h
  · cases h
  · cases h
  · rename_i hwithin
    exact ⟨(Except.ok.inj h).symm, hwithin⟩

theorem mapM_ok {α β : Type} {f : α → Except Failure β} {g : α → β}
    (hf : ∀ a b, f a = .ok b → b = g a) {l : List α} {l' : List β} (h : l.mapM f = .ok l') :
    (∀ a ∈ l, f a = .ok (g a)) ∧ l' = l.map g := by
  induction l generalizing l' with
  | nil =>
    cases h
    exact ⟨nofun, rfl⟩
  | cons a l ih =>
    rw [List.mapM_cons] at h
    cases ha : f a with
    | error c =>
      rw [ha] at h
      cases h
    | ok b =>
      cases hl : l.mapM f with
      | error c =>
        rw [ha, hl] at h
        cases h
      | ok bs =>
        rw [ha, hl] at h
        cases h
        obtain ⟨hrest, rfl⟩ := ih hl
        obtain rfl := hf a b ha
        refine ⟨fun x hx => ?_, rfl⟩
        rcases List.mem_cons.1 hx with rfl | hx
        · exact ha
        · exact hrest x hx

variable (sabotage d root) in
/-- A commit fails before its two phases, with new directories at most, or all its paths lead into
    the project and it is the two phases. -/
theorem commitSnapshot_phases (s : Snapshot) :
    (d.Grown (commitSnapshot sabotage d root s).drive.disk ∧
      ∃ f, (commitSnapshot sabotage d root s).outcome = .error f) ∨
    ∃ v, d.Grown v.disk ∧ (∀ p ∈ s.paths, v.disk.isWithin root (root.joinText p) = .ok true) ∧
      commitSnapshot sabotage d root s =
        commitTargets sabotage v root (s.targets root) (s.pendings root) := by
  have hgrown : d.Grown ((Drive.start d).perform sabotage (.makeDirs root)).1.disk :=
    Drive.makeDirs_grown rfl
  unfold commitSnapshot
  split
  · rename_i heq
    rw [heq] at hgrown
    exact .inl ⟨hgrown, _, rfl⟩
  · rename_i v heq
    rw [heq] at hgrown
    cases hdeletes : deleteTargets v.disk root s.deletes with
    | error f => exact .inl ⟨hgrown, f, rfl⟩
    | ok ts =>
      dsimp only
      cases hwrites : writeTargets v.disk root (sortedWrites s) with
      | error f => exact .inl ⟨hgrown, f, rfl⟩
      | ok ws =>
        dsimp only
        obtain ⟨hin, rfl⟩ := mapM_ok (fun _ _ ha => (targetOf_ok ha).1) hdeletes
        have hpending : ∀ (w : String × String) (x : Pending),
            (do return ⟨← targetOf v.disk root w.1, w.2⟩ : Except Failure Pending) = .ok x →
              x = ⟨⟨w.1, root.joinText w.1⟩, w.2⟩ := by
          intro w x hx
          cases hw : targetOf v.disk root w.1 with
          | error f =>
            rw [hw] at hx
            cases hx
          | ok t =>
            rw [hw] at hx
            cases hx
            rw [(targetOf_ok hw).1]
        obtain ⟨hin', rfl⟩ := mapM_ok hpending hwrites
        refine .inr ⟨v, hgrown, fun p hp => ?_, rfl⟩
        rcases List.mem_append.1 hp with hp | hp
        · exact (targetOf_ok (hin p hp)).2
        · obtain ⟨content, hcontent⟩ := Option.isSome_iff_exists.1 (Table.mem_keys.1 hp)
          have hok := hin' (p, content) (mem_sortedWrites.2 hcontent)
          cases hw : targetOf v.disk root p with
          | error f =>
            rw [hw] at hok
            cases hok
          | ok t => exact (targetOf_ok hw).2

end Targets

end StagedEdits
