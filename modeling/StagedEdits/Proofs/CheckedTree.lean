import StagedEdits.Disk.Listing
import StagedEdits.Proofs.CommitRealised
import StagedEdits.Proofs.CommitRollBack
import StagedEdits.Proofs.OverlayLayers

set_option autoImplicit false

/-! # The tree that is checked

What a type checker is handed are the files that there would be: the listing of the base with the
pending changes put over it. Reading a path through the overlay goes the other way, from the path
down to the base. The two agree at every path that is pending or listed, and nothing else is handed
over; over files held in memory they agree everywhere.

A project on a disk may have no listing. Looking at a link fails if a name in it is too long, and
one such link anywhere in the project, also where nothing is listed, leaves the type checker without
any file.

Main statements: `Snapshot.get?_materialize`, `Overlay.get?_materialize`, `Disk.mem_listFiles`,
`Applier.checked_tree_as_read`, `Disk.long_link_hides_tree`. -/

namespace StagedEdits

/-! ## Putting files together -/

/-- Rows that all give their keys the values of one function give each key among them that value. -/
theorem Table.get?_foldl_of_values {α : Type} {f : String → Option α} {rows : List (String × α)}
    (h : ∀ r ∈ rows, f r.1 = some r.2) (t : Table α) (k : String) :
    (rows.foldl (fun t r => t.set r.1 r.2) t).get? k =
      if k ∈ rows.map Prod.fst then f k else t.get? k := by
  induction rows generalizing t with
  | nil => rfl
  | cons r rows ih =>
    obtain ⟨hr, hrows⟩ := List.forall_mem_cons.1 h
    rw [List.foldl_cons, ih hrows, Table.get?_set, List.map_cons]
    by_cases hk : k ∈ rows.map Prod.fst
    · rw [if_pos hk, if_pos (List.mem_cons_of_mem _ hk)]
    · rw [if_neg hk]
      by_cases hr' : k = r.1
      · rw [if_pos hr', if_pos (List.mem_cons.2 (.inl hr')), hr', hr]
      · rw [if_neg hr', if_neg fun hmem => (List.mem_cons.1 hmem).elim hr' hk]

namespace Snapshot

variable (base : BaseTree)

/-- **What is materialized of a path** is its pending content, else what the base reads of it if it
    is listed there and not deleted. -/
theorem get?_materialize (s : Snapshot) (p : String) :
    (s.materialize base).get? p =
      if s.writes.has p then s.writes.get? p
      else if p ∈ base.listing ∧ p ∉ s.deletes then base.read p
      else none := by
  rw [materialize, Table.ofList, List.foldl_append]
  rw [Table.get?_foldl_of_values (f := s.writes.get?) fun r hr => Table.get?_of_mem hr]
  have hwritten : p ∈ s.writes.rows.map Prod.fst ↔ s.writes.has p = true := Table.mem_keys
  by_cases hw : s.writes.has p = true
  · rw [if_pos (hwritten.2 hw), if_pos hw]
  rw [if_neg fun hmem => hw (hwritten.1 hmem), if_neg hw]
  rw [Table.get?_foldl_of_values (f := base.read) ?values, Table.get?_empty]
  case values =>
    rintro ⟨q, content⟩ hr
    obtain ⟨path, -, hread⟩ := List.mem_filterMap.1 hr
    obtain ⟨c, hc, he⟩ := Option.map_eq_some_iff.1 hread
    cases he
    exact hc
  -- a path that is kept but cannot be read comes to nothing either way
  have hkept : p ∈ (List.filterMap (fun p => (base.read p).map (fun content => (p, content)))
        (base.listing.filter (fun p => !s.deletes.contains p && !s.writes.has p))).map Prod.fst ↔
      (p ∈ base.listing ∧ p ∉ s.deletes) ∧ (base.read p).isSome = true := by
    simp only [List.mem_map, List.mem_filterMap, List.mem_filter, Option.map_eq_some_iff]
    constructor
    · rintro ⟨⟨q, content⟩, ⟨path, ⟨hl, hf⟩, c, hc, he⟩, rfl⟩
      obtain ⟨rfl, rfl⟩ := Prod.mk.inj he
      simp only [Bool.and_eq_true, Bool.not_eq_true', List.contains_eq_mem] at hf
      exact ⟨⟨hl, by simpa using hf.1⟩, by rw [hc]; rfl⟩
    · rintro ⟨⟨hl, hd⟩, hread⟩
      obtain ⟨content, hc⟩ := Option.isSome_iff_exists.1 hread
      exact ⟨(p, content), ⟨p, ⟨hl, by simp [hd, hw]⟩, content, hc, rfl⟩, rfl⟩
  by_cases hl : p ∈ base.listing ∧ p ∉ s.deletes
  · rw [if_pos hl]
    cases hread : base.read p with
    | none => exact ite_self _
    | some content => rw [if_pos (hkept.2 ⟨hl, by rw [hread]; rfl⟩)]
  · rw [if_neg hl, if_neg fun hmem => hl (hkept.1 hmem).1]

/-- There are files just if the base can be listed. -/
theorem effectiveFiles_eq_ok_iff {s : Snapshot} {tree : Table String} :
    s.effectiveFiles base = .ok tree ↔ base.unlistable = none ∧ tree = s.materialize base := by
  unfold effectiveFiles
  cases base.unlistable with
  | some f => exact ⟨nofun, nofun⟩
  | none => exact ⟨fun h => ⟨rfl, (Except.ok.inj h).symm⟩, fun h => congrArg Except.ok h.2.symm⟩

theorem effectiveFiles_eq_error_iff {s : Snapshot} {f : Failure} :
    s.effectiveFiles base = .error f ↔ base.unlistable = some f := by
  unfold effectiveFiles
  cases base.unlistable with
  | some g => exact ⟨fun h => congrArg some (Except.error.inj h), fun h => by cases h; rfl⟩
  | none => exact ⟨nofun, nofun⟩

end Snapshot

namespace Overlay

variable (base : BaseTree)

/-- **A path that is pending or listed is materialized as it reads**, and no other path is. -/
theorem get?_materialize (o : Overlay) (p : String) :
    (o.snapshot.materialize base).get? p =
      if o.writes.has p = true ∨ p ∈ base.listing then o.view base p else none := by
  rw [Snapshot.get?_materialize]
  show (if o.writes.has p then o.writes.get? p
    else if p ∈ base.listing ∧ p ∉ o.deletes then base.read p else none) = _
  unfold view Table.has
  cases o.writes.get? p with
  | some content => rfl
  | none =>
    by_cases hl : p ∈ base.listing <;> by_cases hd : p ∈ o.deletes <;> simp [hl, hd]

/-- What an overlay has deleted and not written is materialized over no base. -/
theorem Coherent.get?_materialize {o : Overlay} (h : o.Coherent) {p : String}
    (hp : p ∈ o.deletes) : (o.snapshot.materialize base).get? p = none := by
  have hview : o.view base p = none := by
    rw [view, h.apart p hp]
    exact if_pos hp
  rw [Overlay.get?_materialize, hview, ite_self]

/-- Over files held in memory every path is materialized as it reads. -/
theorem get?_materialize_ofFiles (o : Overlay) (files : Table String) (p : String) :
    (o.snapshot.materialize (.ofFiles files)).get? p = o.view (.ofFiles files) p := by
  rw [get?_materialize]
  split
  · rfl
  · rename_i hneither
    obtain ⟨hwritten, hlisted⟩ := not_or.1 hneither
    have hfiles : files.get? p = none := by
      rw [← Option.not_isSome_iff_eq_none, ← Table.mem_keys]
      exact fun hmem => hlisted (Names.mem_ofList.2 hmem)
    have hpending : o.writes.get? p = none := by
      rw [← Option.not_isSome_iff_eq_none]
      exact hwritten
    rw [view, hpending]
    show none = if p ∈ o.deletes then none else files.get? p
    rw [hfiles, ite_self]

/-- Over files held in memory a file is there just if it can be read. -/
theorem has_ofFiles (o : Overlay) (files : Table String) (p : String) :
    o.has (.ofFiles files) p = (o.view (.ofFiles files) p).isSome := by
  unfold has view Table.has
  cases o.writes.get? p with
  | some content => rfl
  | none =>
    show (if p ∈ o.deletes then false else files.has p) =
      (if p ∈ o.deletes then none else files.get? p).isSome
    split <;> rfl

end Overlay

/-! ## Listing a project -/

namespace Disk

variable {d : Disk} {root : FilePath} {ignored : List String}

/-- **What is listed** are the entries below the directory that lead to a file, without those under
    an ignored name or a name that starts with a dot. -/
theorem mem_listFiles {p : String} :
    p ∈ d.listFiles root ignored ↔
      ∃ names node, (names, node) ∈ d.entriesBelow root ∧ p = "/".intercalate names ∧
        (∀ n ∈ names, isHiddenName ignored n = false) ∧
        d.isFileEntry (entryPath root names) = true := by
  have hshown : ∀ names : List String, (names.any (isHiddenName ignored)) = false ↔
      ∀ n ∈ names, isHiddenName ignored n = false := fun names => by
    simp only [List.any_eq_false, Bool.not_eq_true]
  unfold listFiles
  simp only [List.mem_map, List.mem_mergeSort, List.mem_filter, Bool.and_eq_true,
    Bool.not_eq_true', hshown]
  constructor
  · rintro ⟨names, ⟨⟨⟨q, node⟩, hmem, rfl⟩, hnames, hfile⟩, rfl⟩
    exact ⟨q, node, hmem, rfl, hnames, hfile⟩
  · rintro ⟨names, node, hmem, rfl, hnames, hfile⟩
    exact ⟨names, ⟨⟨(names, node), hmem, rfl⟩, hnames, hfile⟩, rfl⟩

theorem isSome_lookup_of_mem {q : Place} {node : Node} {es : List (Place × Node)}
    (h : (q, node) ∈ es) : (lookup q es).isSome = true := by
  induction es with
  | nil => cases h
  | cons e es ih =>
    obtain ⟨r, m⟩ := e
    rw [lookup]
    split
    · rfl
    · rename_i hne
      exact ih ((List.mem_cons.1 h).resolve_left fun he => hne (Prod.mk.inj he).1.symm)

/-- On a disk where everything is in a directory, no link is on the way from a listed directory to
    an entry below it. -/
theorem Grounded.of_mem_entriesBelow (h : d.Grounded) {names : List String} {node : Node}
    (hmem : (names, node) ∈ d.entriesBelow root) {top : Place}
    (htop : d.locate .content root = .ok top) {r : List String} (hr : r <+: names)
    (hne : r ≠ names) : d.node? (top ++ r) = some .dir := by
  rw [entriesBelow, htop] at hmem
  obtain ⟨⟨q, n⟩, hentry, hq⟩ := List.mem_filterMap.1 hmem
  dsimp only at hq
  split at hq
  · rename_i hbelow
    obtain ⟨rfl, rfl⟩ := Prod.mk.inj (Option.some.inj hq)
    obtain ⟨rest, rfl⟩ := List.isPrefixOf_iff_prefix.1 (Bool.and_eq_true_iff.1 hbelow).1
    rw [List.drop_left] at hr hne
    have hnode : (d.node? (top ++ rest)).isSome = true := by
      rw [node?]
      split
      · rfl
      · exact isSome_lookup_of_mem hentry
    obtain ⟨m, hm⟩ := Option.isSome_iff_exists.1 hnode
    exact h _ m hm _ ((List.prefix_append_right_inj top).2 hr) fun he =>
      hne (List.append_cancel_left he)
  · cases hq

end Disk

/-! ## What the type checker is handed -/

/-- **The type checker is handed what the overlay reads**, whatever was applied to the overlay. Over
    files held in memory this is so for every path. A project on a disk is handed over just if it
    can be listed; then it is so for every path that is pending or listed, that is for no path under
    an ignored name, a name that starts with a dot, or a linked directory, unless it is pending, and
    no other path is handed over. No path that is deleted or was renamed away is handed over. -/
theorem Applier.checked_tree_as_read (session : String) (dependencies : Names)
    (history : List Directive) (cs : List (BaseTree × Call)) :
    let o := ((⟨Overlay.empty, dependencies, history⟩ : Applier).callsOver session cs).overlay
    (∀ files : Table String, ∃ tree,
      o.snapshot.effectiveFiles (.ofFiles files) = .ok tree ∧
      ∀ p, tree.get? p = o.view (.ofFiles files) p ∧ tree.has p = o.has (.ofFiles files) p) ∧
    (∀ (d : Disk) (root : FilePath) (ignored : List String) (walk : Disk.TreeWalk),
      let base := d.project root ignored walk
      (∀ f, o.snapshot.effectiveFiles base = .error f ↔
        d.listingFailure root ignored walk = some f) ∧
      (∀ tree, o.snapshot.effectiveFiles base = .ok tree →
        (∀ p, o.writes.has p = true ∨ p ∈ base.listing → tree.get? p = o.view base p) ∧
        ∀ p, o.writes.has p = false → p ∉ base.listing → tree.get? p = none) ∧
      ∀ p ∈ base.listing, ∃ names, p = "/".intercalate names ∧
        (∀ n ∈ names, Disk.isHiddenName ignored n = false) ∧
        ∀ top, d.Grounded → d.locate .content root = .ok top →
          ∀ r, r <+: names → r ≠ names → d.node? (top ++ r) = some .dir) ∧
    ∀ base tree, o.snapshot.effectiveFiles base = .ok tree →
      (∀ p ∈ o.deletes, tree.get? p = none) ∧
      ∀ p q, o.renames.get? p = some q → tree.get? p = none := by
  intro o
  have hcoherent : o.Coherent := callsOver_coherent Overlay.empty_coherent cs
  refine ⟨fun files => ⟨_, rfl, fun p => ?_⟩, fun d root ignored walk => ⟨fun f => ?_, ?_, ?_⟩, ?_⟩
  · have hp := o.get?_materialize_ofFiles files p
    exact ⟨hp, by rw [Table.has, hp, Overlay.has_ofFiles]⟩
  · exact Snapshot.effectiveFiles_eq_error_iff _
  · intro tree htree
    obtain ⟨-, rfl⟩ := (Snapshot.effectiveFiles_eq_ok_iff _).1 htree
    refine ⟨fun p hp => ?_, fun p hw hl => ?_⟩
    · rw [Overlay.get?_materialize, if_pos hp]
    · rw [Overlay.get?_materialize, if_neg (not_or.2 ⟨by simp [hw], hl⟩)]
  · intro p hp
    obtain ⟨names, node, hmem, hname, hshown, -⟩ := Disk.mem_listFiles.1 hp
    exact ⟨names, hname, hshown, fun top hgrounded htop r hr hne =>
      hgrounded.of_mem_entriesBelow hmem htop hr hne⟩
  · intro base tree htree
    obtain ⟨-, rfl⟩ := (Snapshot.effectiveFiles_eq_ok_iff _).1 htree
    exact ⟨fun p hp => hcoherent.get?_materialize base hp, fun p q hpq =>
      hcoherent.get?_materialize base (hcoherent.source p q hpq)⟩

/-! ## A project that cannot be listed -/

namespace Disk

/-- A project with a link in it. The name in the link is too long. -/
def longLink : Disk :=
  ⟨[(["proj"], .dir), (["proj", "l"], .link overlongName)]⟩

/-- Looking at a path fails if a name on the way is too long. -/
theorem lookFailure_of_walk {d : Disk} {p : FilePath} (hnul : p.hasNul = false)
    (hfit : p.isLong = false)
    (hwalk : d.walk .content maxLinks [] p.names = .error .nameTooLong) :
    d.lookFailure p = some (DiskFault.at .nameTooLong p).toFailure := by
  rw [lookFailure, isFile, looksLike, hnul, if_neg Bool.false_ne_true, look, locate, hfit,
    if_neg Bool.false_ne_true, hwalk]
  rfl

theorem longLink_listingFailure (walk : TreeWalk) :
    (longLink.listingFailure ⟨1, ["proj"]⟩ ["node_modules"] walk).isSome = true := by
  have hshort : isLongName "proj" = false ∧ isLongName "l" = false ∧
      isLongName overlongName = true ∧ (⟨1, ["proj"]⟩ : FilePath).isLong = false ∧
      (⟨1, ["proj", "l"]⟩ : FilePath).isLong = false := by decide +kernel
  obtain ⟨hproj, hl, hlong, hfit, hfit'⟩ := hshort
  have hproper := overlongName_normalized.names
  rw [ofText_overlongName] at hproper
  obtain ⟨hempty, hdot, hup, -⟩ := hproper.2.2 overlongName (List.mem_singleton.2 rfl)
  have hpieces : piecesOf overlongName = [overlongName] := by
    have hchars : overlongName.toList = List.replicate 256 'b' := String.toList_ofList
    rw [piecesOf, hchars, splitOnChar_of_not_mem overlongName_proper.slash, List.map_singleton]
    rfl
  have hrelative : (FilePath.ofText overlongName).isAbsolute = false := by
    rw [ofText_overlongName]
    rfl
  generalize hd : longLink = d
  have hnodes : d.node? ["proj"] = some .dir ∧
      d.node? ["proj", "l"] = some (.link overlongName) := by
    rw [← hd]
    exact ⟨rfl, rfl⟩
  obtain ⟨hdir, hlink⟩ := hnodes
  have htop : d.locate .content ⟨1, ["proj"]⟩ = .ok ["proj"] := by
    simp [locate, hfit, Disk.walk, isDirNode, hdir, hproj]
  have hroot : d.lookFailure ⟨1, ["proj"]⟩ = none := by
    simp [lookFailure, isFile, looksLike, FilePath.hasNul, look, htop, hdir]
  have hbelow : d.entriesBelow ⟨1, ["proj"]⟩ = [(["l"], .link overlongName)] := by
    rw [entriesBelow, htop, ← hd]
    rfl
  have hfails : d.walk .content maxLinks [] ["proj", "l"] = .error .nameTooLong := by
    simp [Disk.walk, isDirNode, hdir, hlink, hproj, hl, hpieces, hrelative, hlong, hempty, hdot,
      hup, maxLinks]
  have hlook := lookFailure_of_walk (by decide) hfit' hfails
  -- the link is under no ignored name, so either walk looks at it
  have hlooks : walk.looksAt ["node_modules"] (["l"], .link overlongName) = true := by
    have hshown : ["l"].any (isHiddenName ["node_modules"]) = false := by decide
    simp only [TreeWalk.looksAt, hshown, Bool.not_false, Bool.or_true]
  rw [listingFailure, hroot, hbelow]
  refine List.findSome?_isSome_iff.2 ⟨_, List.mem_filter.2 ⟨List.mem_cons_self, hlooks⟩, ?_⟩
  exact Option.isSome_iff_exists.2 ⟨_, hlook⟩

/-- **A link can hide the whole project**, however the walk treats links. A written path reads as
    its content, and no file is handed to the type checker. -/
theorem long_link_hides_tree :
    longLink.node? ["proj", "l"] = some (.link overlongName) ∧
    ∀ walk : TreeWalk,
      let base := longLink.project ⟨1, ["proj"]⟩ ["node_modules"] walk
      let o := (Applier.empty.callsOver "session" [(base, .apply (.write "w" "1" none))]).overlay
      o.writes.has "w" = true ∧ o.view base "w" = some "1" ∧
        ¬∃ tree, o.snapshot.effectiveFiles base = .ok tree ∧ tree.get? "w" = o.view base "w" := by
  refine ⟨rfl, fun walk => ?_⟩
  intro base o
  have happlied : o = Applier.empty.overlay.write "w" "1" := by
    cases walk <;> rfl
  have hpending : o.writes.get? "w" = some "1" := by
    rw [happlied]
    decide
  refine ⟨by rw [Table.has, hpending]; rfl, by rw [Overlay.view, hpending], ?_⟩
  rintro ⟨tree, htree, -⟩
  have hlisted := ((Snapshot.effectiveFiles_eq_ok_iff base).1 htree).1
  have hfailure : (base.unlistable).isSome = true := longLink_listingFailure walk
  rw [hlisted] at hfailure
  cases hfailure

end Disk

end StagedEdits
