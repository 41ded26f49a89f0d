import StagedEdits.Disk.Operation

set_option autoImplicit false

/-! # Disks without links on the way

What the operations on a disk do at a path each name of which names something in the directory
before it, if no link is on the way to it. Such a path leads to the place of its names, an operation
that goes through changes what is at these places and nothing else, and where it can go through is
told by the directories on the way and by the length of the names.

Main definitions: `FilePath.Plain`, `Disk.Unlinked`, `Disk.Reaches`. Main statements:
`Disk.walk_plain`, `Disk.locateEntry_plain`, `Disk.removeFile_plain`, `Disk.moveFile_plain`,
`Disk.writeFile_plain`, `Disk.makeDirs_grown`. -/

namespace StagedEdits

/-! ## Paths -/

namespace FilePath

/-- That each name of `p` names something in the directory before it. -/
structure Plain (p : FilePath) : Prop where
  names : ∀ n ∈ p.names, n ≠ "" ∧ n ≠ "." ∧ n ≠ ".."
  nul : p.hasNul = false

/-- That neither `p` nor any of its names is too long. -/
def Fits (p : FilePath) : Prop := p.isLong = false ∧ ∀ n ∈ p.names, isLongName n = false

instance (p : FilePath) : Decidable p.Fits := inferInstanceAs (Decidable (_ ∧ _))

end FilePath

namespace Disk

variable {d d' : Disk} {p : FilePath}

/-- That no link is on the way to `q` nor at it. -/
def Unlinked (d : Disk) (q : Place) : Prop :=
  ∀ r target, r <+: q → d.node? r ≠ some (.link target)

/-- That the directories on the way to `q` are there. -/
def Holds (d : Disk) (q : Place) : Prop := ∀ r, r <+: q → r ≠ q → d.node? r = some .dir

/-- That an entry can be looked up where `p` leads. -/
def Reaches (d : Disk) (p : FilePath) : Prop := p.Fits ∧ d.Holds p.names

/-! ## Entries -/

theorem lookup_mem {q : Place} {node : Node} {es : List (Place × Node)}
    (h : lookup q es = some node) : (q, node) ∈ es := by
  induction es with
  | nil => cases h
  | cons e es ih =>
    obtain ⟨r, m⟩ := e
    rw [lookup] at h
    split at h
    · rename_i heq
      cases h
      exact heq ▸ List.mem_cons_self
    · exact List.mem_cons_of_mem _ (ih h)

/-- There is no link on a disk if none of its entries is one. -/
theorem no_link_of_entries (h : ∀ e ∈ d.entries, ∀ target, e.2 ≠ .link target) (q : Place)
    (target : String) : d.node? q ≠ some (.link target) := by
  intro hq
  unfold node? at hq
  split at hq
  · cases hq
  · exact h _ (lookup_mem hq) target rfl

/-! ## Walking -/

theorem isDirNode_iff {n : Option Node} : isDirNode n = true ↔ n = some .dir := by
  rcases n with _ | _ | _ | _ <;> simp [isDirNode]

section Walking

variable {errand : Errand} {links : Nat}

theorem walk_nil {here : Place} : d.walk errand links here [] = .ok here := by rw [walk]

/-- One step of a walk along plain names that meets no link. -/
theorem walk_cons {here : Place} {n : String} {rest : List String}
    (hplain : ∀ m ∈ n :: rest, m ≠ "" ∧ m ≠ "." ∧ m ≠ "..")
    (hlink : ∀ target, d.node? (here ++ [n]) ≠ some (.link target)) :
    d.walk errand links here (n :: rest) =
      if d.node? here ≠ some .dir then .error .notDirectory
      else if isLongName n then .error .nameTooLong
      else if d.node? (here ++ [n]) = none ∧ rest = [] then .ok (here ++ [n])
      else if d.node? (here ++ [n]) = none then .error .missing
      else d.walk errand links (here ++ [n]) rest := by
  obtain ⟨hempty, hdot, hup⟩ := hplain n List.mem_cons_self
  have hslashes : isSlashes rest = true ↔ rest = [] := by
    cases rest with
    | nil => simp [isSlashes]
    | cons m ms => simp [isSlashes, (hplain m (by simp)).1]
  have hmaking : (errand == .making && !rest.isEmpty && isSlashes rest) = false := by
    cases rest with
    | nil => simp
    | cons m ms => simp [isSlashes, (hplain m (by simp)).1]
  have hidle : (n == "" || n == ".") = false := by simp [hempty, hdot]
  have hclimbs : (n == "..") = false := by simp [hup]
  rw [walk]
  simp only [hidle, hclimbs, hmaking, Bool.false_eq_true, if_false]
  by_cases hdir : d.node? here = some .dir
  · have hdir' : ¬d.node? here ≠ some .dir := fun h => h hdir
    rw [isDirNode_iff.2 hdir, if_neg hdir', if_neg (by simp)]
    refine ite_congr rfl (fun _ => rfl) fun _ => ?_
    cases hnode : d.node? (here ++ [n]) with
    | none =>
      by_cases hnil : rest = []
      · subst hnil
        simp [isSlashes]
      · simp [hslashes, hnil]
    | some node =>
      cases node with
      | link target => exact absurd hnode (hlink target)
      | _ => simp
  · have hnot : isDirNode (d.node? here) = false := by
      simpa using fun h => hdir (isDirNode_iff.1 h)
    rw [hnot, if_pos (by simp), if_pos hdir]

section Behind

variable {here : Place} {n : String} {rest : List String}

/-- A walk that meets no link meets none behind its first name. -/
theorem links_behind
    (hlinks : ∀ r target, r <+: n :: rest → d.node? (here ++ r) ≠ some (.link target))
    (r : Place) (target : String) (hr : r <+: rest) :
    d.node? (here ++ [n] ++ r) ≠ some (.link target) := by
  rw [List.append_assoc]
  exact hlinks (n :: r) target ((List.prefix_cons_inj n).2 hr)

/-- The directories on a way are the one where it starts and those behind its first name. -/
theorem dirs_cons :
    (∀ r, r <+: n :: rest → r ≠ n :: rest → d.node? (here ++ r) = some .dir) ↔
      d.node? here = some .dir ∧
        ∀ r, r <+: rest → r ≠ rest → d.node? (here ++ [n] ++ r) = some .dir := by
  constructor
  · intro h
    constructor
    · have hnode := h [] List.nil_prefix nofun
      rwa [List.append_nil] at hnode
    · intro r hr hne
      rw [List.append_assoc]
      exact h (n :: r) ((List.prefix_cons_inj n).2 hr) fun he => hne (List.cons.inj he).2
  · rintro ⟨hdir, h⟩ r hr hne
    rcases List.prefix_cons_iff.1 hr with rfl | ⟨r', rfl, hr'⟩
    · rwa [List.append_nil]
    · have hnode := h r' hr' fun he => hne (he ▸ rfl)
      rwa [List.append_assoc] at hnode

/-- A walk goes through if it comes behind its first name and goes through from there. -/
theorem walk_cons_ok {place : Place} (hplain : ∀ m ∈ n :: rest, m ≠ "" ∧ m ≠ "." ∧ m ≠ "..")
    (hlinks : ∀ r target, r <+: n :: rest → d.node? (here ++ r) ≠ some (.link target)) :
    d.walk errand links here (n :: rest) = .ok place ↔ d.node? here = some .dir ∧
      isLongName n = false ∧ d.walk errand links (here ++ [n]) rest = .ok place := by
  rw [walk_cons hplain fun target => hlinks [n] target ⟨rest, rfl⟩]
  by_cases hdir : d.node? here = some .dir
  · rw [if_neg fun h => h hdir]
    cases hlong : isLongName n with
    | true => simp
    | false =>
      by_cases hnone : d.node? (here ++ [n]) = none
      · cases rest with
        | nil => simp [hdir, hnone, walk_nil]
        | cons m ms =>
          -- where nothing is, no walk goes on
          rw [walk_cons (fun x hx => hplain x (List.mem_cons_of_mem n hx))
            fun target => links_behind hlinks [m] target ⟨ms, rfl⟩]
          simp [hnone]
      · simp [hdir, hnone]
  · simp [hdir]

end Behind

/-- A walk along plain names on which it meets no link leads to their place, if the directories on
    the way are there and no name is too long. -/
theorem walk_plain (here : Place) {names : List String}
    (hplain : ∀ n ∈ names, n ≠ "" ∧ n ≠ "." ∧ n ≠ "..")
    (hlinks : ∀ r target, r <+: names → d.node? (here ++ r) ≠ some (.link target)) {place : Place} :
    d.walk errand links here names = .ok place ↔
      place = here ++ names ∧ (∀ n ∈ names, isLongName n = false) ∧
        ∀ r, r <+: names → r ≠ names → d.node? (here ++ r) = some .dir := by
  induction names generalizing here with
  | nil =>
    rw [walk_nil, List.append_nil]
    constructor
    · intro h
      exact ⟨(Except.ok.inj h).symm, nofun, fun r hr hne => absurd (List.prefix_nil.1 hr) hne⟩
    · rintro ⟨rfl, -, -⟩
      rfl
  | cons n rest ih =>
    have hrest := ih (here ++ [n]) (fun m hm => hplain m (List.mem_cons_of_mem n hm))
      (links_behind hlinks)
    rw [walk_cons_ok hplain hlinks, hrest, dirs_cons, List.forall_mem_cons, List.append_assoc]
    constructor
    · rintro ⟨hdir, hlong, hplace, hlongs, hdirs⟩
      exact ⟨hplace, ⟨hlong, hlongs⟩, hdir, hdirs⟩
    · rintro ⟨hplace, ⟨hlong, hlongs⟩, hdir, hdirs⟩
      exact ⟨hdir, hlong, hplace, hlongs, hdirs⟩

/-- A walk along plain names on which it meets no link stops only where nothing is to be found, or
    at a name that is too long. -/
theorem walk_plain_error (here : Place) {names : List String}
    (hplain : ∀ n ∈ names, n ≠ "" ∧ n ≠ "." ∧ n ≠ "..")
    (hlinks : ∀ r target, r <+: names → d.node? (here ++ r) ≠ some (.link target)) {c : DiskCause}
    (h : d.walk errand links here names = .error c) :
    c.isAbsence = true ∨ c = .nameTooLong ∧ ∃ n ∈ names, isLongName n = true := by
  induction names generalizing here with
  | nil =>
    rw [walk_nil] at h
    cases h
  | cons n rest ih =>
    rw [walk_cons hplain fun target => hlinks [n] target ⟨rest, rfl⟩] at h
    split at h
    · cases h
      exact .inl rfl
    · split at h
      · rename_i hlong
        cases h
        exact .inr ⟨rfl, n, List.mem_cons_self, hlong⟩
      · split at h
        · cases h
        · split at h
          · cases h
            exact .inl rfl
          · have hrest := ih (here ++ [n]) (fun m hm => hplain m (List.mem_cons_of_mem n hm))
              (links_behind hlinks) h
            refine hrest.imp_right fun ⟨hc, m, hm, hlong⟩ => ⟨hc, m, ?_, hlong⟩
            exact List.mem_cons_of_mem n hm

/-- Where all directories on the way are there, nothing but a name that is too long stops a walk. -/
theorem walk_held (here : Place) {names : List String}
    (hplain : ∀ n ∈ names, n ≠ "" ∧ n ≠ "." ∧ n ≠ "..")
    (hlinks : ∀ r target, r <+: names → d.node? (here ++ r) ≠ some (.link target))
    (hdirs : ∀ r, r <+: names → r ≠ names → d.node? (here ++ r) = some .dir) {c : DiskCause}
    (h : d.walk errand links here names = .error c) : c = .nameTooLong := by
  induction names generalizing here with
  | nil =>
    rw [walk_nil] at h
    cases h
  | cons n rest ih =>
    obtain ⟨hdir, hdirs'⟩ := dirs_cons.1 hdirs
    rw [walk_cons hplain fun target => hlinks [n] target ⟨rest, rfl⟩,
      if_neg fun hne => hne hdir] at h
    split at h
    · exact (Except.error.inj h).symm
    · split at h
      · cases h
      · rename_i hlast
        split at h
        · rename_i hnone
          have hne : rest ≠ [] := fun hnil => hlast ⟨hnone, hnil⟩
          rw [hdirs [n] ⟨rest, rfl⟩ fun he => hne (List.cons.inj he).2.symm] at hnone
          cases hnone
        · exact ih (here ++ [n]) (fun m hm => hplain m (List.mem_cons_of_mem n hm))
            (links_behind hlinks) hdirs' h

end Walking

/-! ## Looking -/

section Looking

variable (hp : p.Plain) (hun : d.Unlinked p.names)

include hp hun

/-- A plain path leads to the place of its names, if it leads anywhere. -/
theorem locate_plain {errand : Errand} {place : Place} :
    d.locate errand p = .ok place ↔ place = p.names ∧ d.Reaches p := by
  have hwalk : d.walk errand maxLinks [] p.names = .ok place ↔ place = p.names ∧
      (∀ n ∈ p.names, isLongName n = false) ∧ d.Holds p.names := walk_plain [] hp.names hun
  unfold locate Reaches FilePath.Fits Holds
  cases hlong : p.isLong
  · simp only [Bool.false_eq_true, if_false, hwalk, true_and, Holds]
  · simp

/-- What a look at a plain path finds is what is at the place of its names. -/
theorem look_plain {n : Node} :
    d.look p = .ok n ↔ d.Reaches p ∧ d.node? p.names = some n := by
  have hlocate : ∀ place, d.locate .content p = .ok place ↔ place = p.names ∧ d.Reaches p :=
    fun place => locate_plain hp hun
  unfold look
  cases hl : d.locate .content p with
  | error c =>
    have hnot : ¬d.Reaches p := fun hr => by
      rw [(hlocate p.names).2 ⟨rfl, hr⟩] at hl
      cases hl
    simp [hnot]
  | ok place =>
    obtain ⟨rfl, hr⟩ := (hlocate place).1 hl
    dsimp only
    cases hn : d.node? p.names <;> simp [hr]

/-- A look at a plain path fails only where nothing is to be found, or because it does not fit. -/
theorem look_plain_error {c : DiskCause} (h : d.look p = .error c) :
    c.isAbsence = true ∨ c = .nameTooLong ∧ ¬p.Fits := by
  unfold look at h
  cases hl : d.locate .content p with
  | ok place =>
    rw [hl] at h
    dsimp only at h
    cases hn : d.node? place with
    | none =>
      rw [hn] at h
      cases h
      exact .inl rfl
    | some n =>
      rw [hn] at h
      cases h
  | error c' =>
    rw [hl] at h
    cases h
    unfold locate at hl
    split at hl
    · rename_i hlong
      cases hl
      exact .inr ⟨rfl, fun hf => by simp [hf.1] at hlong⟩
    · rcases walk_plain_error [] hp.names hun hl with habsent | ⟨hc, n, hn, hlong⟩
      · exact .inl habsent
      · exact .inr ⟨hc, fun hf => by simp [hf.2 n hn] at hlong⟩

theorem isFile_plain : d.isFile p = .ok true ↔
    d.Reaches p ∧ ∃ bytes, d.node? p.names = some (.file bytes) := by
  have hlook : ∀ n, d.look p = .ok n ↔ d.Reaches p ∧ d.node? p.names = some n := fun n =>
    look_plain hp hun
  unfold isFile looksLike
  rw [hp.nul]
  cases hl : d.look p with
  | ok n =>
    obtain ⟨hr, hn⟩ := (hlook n).1 hl
    cases n <;> simp [hr, hn]
  | error c =>
    have hnot : ∀ n, ¬(d.Reaches p ∧ d.node? p.names = some n) := fun n hn => by
      rw [(hlook n).2 hn] at hl
      cases hl
    constructor
    · intro h
      dsimp only at h
      split at h
      · cases h
      · split at h <;> cases h
    · rintro ⟨hr, bytes, hn⟩
      exact absurd ⟨hr, hn⟩ (hnot _)

/-- Where a plain path reaches, it leads to what is there. -/
theorem looksLike_there {test : Node → Bool} {n : Node} (hr : d.Reaches p)
    (hn : d.node? p.names = some n) : d.looksLike test p = .ok (test n) := by
  rw [looksLike, hp.nul, if_neg Bool.false_ne_true, (look_plain hp hun).2 ⟨hr, hn⟩]

/-- Where a plain path reaches, it leads to nothing if nothing is there. -/
theorem looksLike_free {test : Node → Bool} (hr : d.Reaches p) (hn : d.node? p.names = none) :
    d.looksLike test p = .ok false := by
  have hplace : d.locate .content p = .ok p.names := (locate_plain hp hun).2 ⟨rfl, hr⟩
  rw [looksLike, hp.nul, if_neg Bool.false_ne_true, look, hplace]
  dsimp only
  rw [hn]
  rfl

/-- Asking what a plain path leads to fails only if the path does not fit. -/
theorem looksLike_plain_error {test : Node → Bool} {f : DiskFault}
    (h : d.looksLike test p = .error f) : f = .at .nameTooLong p ∧ ¬p.Fits := by
  unfold looksLike at h
  rw [hp.nul] at h
  cases hl : d.look p with
  | ok n =>
    rw [hl] at h
    cases h
  | error c =>
    rw [hl] at h
    dsimp only at h
    split at h
    · cases h
    · split at h
      · cases h
      · rename_i habsent
        cases h
        rcases look_plain_error hp hun hl with ha | ⟨rfl, hfit⟩
        · exact absurd ha habsent
        · exact ⟨rfl, hfit⟩

/-- Where the directories on the way are there, asking for a file finds it or fails. -/
theorem isFile_held (hh : d.Holds p.names) {bytes : ByteArray}
    (hn : d.node? p.names = some (.file bytes)) : d.isFile p ≠ .ok false := by
  intro h
  unfold isFile looksLike at h
  rw [hp.nul] at h
  cases hl : d.look p with
  | ok n =>
    rw [hl] at h
    obtain ⟨-, hn'⟩ := (look_plain hp hun).1 hl
    rw [hn] at hn'
    cases hn'
    cases h
  | error c =>
    have hlong : c = .nameTooLong := by
      unfold look at hl
      cases hloc : d.locate .content p with
      | ok place =>
        obtain ⟨rfl, -⟩ := (locate_plain hp hun).1 hloc
        rw [hloc] at hl
        dsimp only at hl
        rw [hn] at hl
        cases hl
      | error c' =>
        rw [hloc] at hl
        cases hl
        unfold locate at hloc
        split at hloc
        · exact (Except.error.inj hloc).symm
        · exact walk_held [] hp.names hun hh hloc
    subst hlong
    rw [hl] at h
    cases h

end Looking

/-! ## Entries -/

theorem holds_concat {q : Place} {n : String} :
    d.Holds (q ++ [n]) ↔ d.Holds q ∧ d.node? q = some .dir := by
  constructor
  · intro h
    refine ⟨fun r hr _ => h r (hr.trans (List.prefix_append q [n])) ?_, h q ⟨[n], rfl⟩ (by simp)⟩
    rintro rfl
    exact absurd hr.length_le (by simp)
  · rintro ⟨hdirs, hdir⟩ r hr hne
    rcases List.prefix_concat_iff.1 hr with rfl | hr
    · exact absurd rfl hne
    · by_cases hq : r = q
      · exact hq ▸ hdir
      · exact hdirs r hr hq

/-- An entry right below the top is reached. -/
theorem reaches_top {slashes : Nat} {n : String} (hfit : FilePath.Fits ⟨slashes, [n]⟩) :
    d.Reaches ⟨slashes, [n]⟩ := by
  refine ⟨hfit, (holds_concat (q := [])).2 ⟨fun r hr hne => ?_, node?_nil d⟩⟩
  exact absurd (List.prefix_nil.1 hr) hne

/-- An entry of a directory that is reached is reached. -/
theorem Reaches.child {slashes : Nat} {q : Place} {n : String} (hr : d.Reaches ⟨slashes, q⟩)
    (hdir : d.node? q = some .dir) (hfit : FilePath.Fits ⟨slashes, q ++ [n]⟩) :
    d.Reaches ⟨slashes, q ++ [n]⟩ := ⟨hfit, holds_concat.2 ⟨hr.2, hdir⟩⟩

/-- A path beside one that is reached is reached if it fits. -/
theorem Reaches.addSuffix {ending : String} (hr : d.Reaches p) (hne : p.names ≠ [])
    (hfit : (p.addSuffix ending).Fits) : d.Reaches (p.addSuffix ending) := by
  refine ⟨hfit, ?_⟩
  obtain ⟨pre, n, hcat⟩ := List.eq_nil_or_concat p.names |>.resolve_left hne
  rw [List.concat_eq_append] at hcat
  have hholds := hr.2
  rw [hcat, holds_concat] at hholds
  rw [FilePath.addSuffix, hcat, List.dropLast_concat]
  exact holds_concat.2 hholds

section Entries

variable (hp : p.Plain) (hun : d.Unlinked p.names) {pre : Place} {n : String}
  (hcat : p.names = pre ++ [n])

include hp hun hcat

theorem locateParent_plain {x : Option (Place × String)} : d.locateParent p = .ok x ↔
    x = some (pre, n) ∧ p.isLong = false ∧ (∀ m ∈ pre, isLongName m = false) ∧ d.Holds p.names := by
  have hn := hp.names n (by simp [hcat])
  have hwalk : ∀ place, d.walk .content maxLinks [] pre = .ok place ↔
      place = pre ∧ (∀ m ∈ pre, isLongName m = false) ∧ d.Holds pre := fun place =>
    walk_plain [] (fun m hm => hp.names m (by simp [hcat, hm]))
      (fun r target hr => hun r target (hcat ▸ hr.trans (List.prefix_append pre [n])))
  have hup : (n == "..") = false := by simp [hn.2.2]
  rw [hcat, holds_concat]
  unfold locateParent
  rw [hcat, List.getLast?_concat, List.dropLast_concat]
  dsimp only
  cases hlong : p.isLong with
  | true => simp
  | false =>
    simp only [Bool.false_eq_true, if_false, true_and, hup]
    cases hw : d.walk .content maxLinks [] pre with
    | error c =>
      have hnot : ¬((∀ m ∈ pre, isLongName m = false) ∧ d.Holds pre) := fun hr => by
        rw [(hwalk pre).2 ⟨rfl, hr⟩] at hw
        cases hw
      constructor
      · intro h
        cases h
      · rintro ⟨-, hm, hh, -⟩
        exact absurd ⟨hm, hh⟩ hnot
    | ok place =>
      obtain ⟨rfl, hm, hh⟩ := (hwalk place).1 hw
      dsimp only
      constructor
      · intro h
        split at h
        · rename_i hdir
          exact ⟨(Except.ok.inj h).symm, hm, hh, hdir⟩
        · cases h
        · cases h
      · rintro ⟨rfl, -, -, hdir⟩
        rw [hdir]

omit hp hun in
theorem reaches_iff : d.Reaches p ↔ p.isLong = false ∧ (∀ m ∈ pre, isLongName m = false) ∧
    isLongName n = false ∧ d.Holds p.names := by
  unfold Reaches FilePath.Fits
  rw [hcat]
  simp only [List.mem_append, List.mem_singleton, or_imp, forall_and, forall_eq, and_assoc]

end Entries

section Files

variable (hp : p.Plain) (hun : d.Unlinked p.names) (hne : p.names ≠ [])

include hp hun

/-- A file is written where a plain path reaches, unless a directory is there. -/
theorem writeFile_plain {bytes : ByteArray} : d.writeFile p bytes = .ok d' ↔
    d.Reaches p ∧ d.node? p.names ≠ some .dir ∧ d' = d.put p.names (.file bytes) := by
  unfold writeFile
  rw [hp.nul]
  cases hl : d.locate .making p with
  | error c =>
    constructor
    · intro h
      cases h
    · rintro ⟨hr, -⟩
      rw [(locate_plain hp hun).2 ⟨rfl, hr⟩] at hl
      cases hl
  | ok place =>
    obtain ⟨rfl, hr⟩ := (locate_plain hp hun).1 hl
    dsimp only
    cases hn : d.node? p.names with
    | none => simp [hr, eq_comm]
    | some node => cases node <;> simp [hr, eq_comm]

include hne

/-- The entry that a plain path leads to is at the place of its names. -/
theorem locateEntry_plain {x : Option Place} :
    d.locateEntry p = .ok x ↔ x = some p.names ∧ d.Reaches p := by
  obtain ⟨pre, n, hcat⟩ := List.eq_nil_or_concat p.names |>.resolve_left hne
  rw [List.concat_eq_append] at hcat
  have hparent : ∀ x, d.locateParent p = .ok x ↔ _ := fun x => locateParent_plain hp hun hcat
  rw [reaches_iff hcat, hcat]
  unfold locateEntry
  cases hl : d.locateParent p with
  | error c =>
    constructor
    · intro h
      cases h
    · rintro ⟨-, hlong, hpre, -, hh⟩
      rw [(hparent _).2 ⟨rfl, hlong, hpre, hcat ▸ hh⟩] at hl
      cases hl
  | ok y =>
    obtain ⟨rfl, hlong, hpre, hh⟩ := (hparent y).1 hl
    rw [hcat] at hh
    dsimp only [entryPlace]
    cases hn : isLongName n with
    | true => simp [Except.map]
    | false =>
      simp only [Except.map, Bool.false_eq_true, if_false]
      constructor
      · intro h
        exact ⟨(Except.ok.inj h).symm, hlong, hpre, trivial, hh⟩
      · rintro ⟨rfl, -⟩
        rfl

/-- A file is removed where a plain path reaches one, and nothing else is. -/
theorem removeFile_plain : d.removeFile p = .ok d' ↔
    d.Reaches p ∧ (∃ bytes, d.node? p.names = some (.file bytes)) ∧ d' = d.drop p.names := by
  have hentry : ∀ x, d.locateEntry p = .ok x ↔ _ := fun x => locateEntry_plain hp hun hne
  unfold removeFile
  rw [hp.nul]
  cases hl : d.locateEntry p with
  | error c =>
    constructor
    · intro h
      cases h
    · rintro ⟨hr, -⟩
      rw [(hentry _).2 ⟨rfl, hr⟩] at hl
      cases hl
  | ok x =>
    obtain ⟨rfl, hr⟩ := (hentry x).1 hl
    dsimp only
    cases hn : d.node? p.names with
    | none => simp
    | some node =>
      cases node with
      | dir => simp
      | link target => exact absurd hn (hun p.names target List.prefix_rfl)
      | file bytes => simp [hr, eq_comm]

end Files

theorem moveEntry_plain {a b : Place} (hab : a ≠ b) (hlink : ∀ target, d.node? a ≠ some (.link target)) :
    d.moveEntry a b = .ok d' ↔ d.node? b ≠ some .dir ∧
      ∃ bytes, d.node? a = some (.file bytes) ∧ d' = (d.drop a).put b (.file bytes) := by
  unfold moveEntry
  cases hn : d.node? a with
  | none => simp
  | some node =>
    cases node with
    | dir => simp
    | link target => exact absurd hn (hlink target)
    | file bytes =>
      dsimp only
      rw [if_neg hab]
      by_cases hdir : d.node? b = some .dir
      · rw [isDirNode_iff.2 hdir, if_pos rfl]
        simp [hdir]
      · rw [if_neg fun h => hdir (isDirNode_iff.1 h)]
        constructor
        · intro h
          exact ⟨hdir, bytes, rfl, (Except.ok.inj h).symm⟩
        · rintro ⟨-, bytes', hb, rfl⟩
          cases hb
          rfl

@[simp] theorem mapError_ok {ε ε' α : Type} (f : ε → ε') (x : α) :
    Except.mapError f (Except.ok x : Except ε α) = .ok x := rfl

@[simp] theorem mapError_error {ε ε' α : Type} (f : ε → ε') (e : ε) :
    Except.mapError f (Except.error e : Except ε α) = .error (f e) := rfl

theorem moveFile_parents {a b : FilePath} {pre pre' : Place} {n n' : String}
    (hnul : a.hasNul = false) (hnul' : b.hasNul = false)
    (ha : d.locateParent a = .ok (some (pre, n))) (hb : d.locateParent b = .ok (some (pre', n'))) :
    d.moveFile a b = .ok d' ↔ isLongName n = false ∧ isLongName n' = false ∧
      d.moveEntry (pre ++ [n]) (pre' ++ [n']) = .ok d' := by
  unfold moveFile
  rw [hnul, hnul', ha, hb]
  cases hn : isLongName n with
  | true => simp [entryPlace, hn, bind, Except.bind]
  | false =>
    cases hsome : d.node? (pre ++ [n]) with
    | none => simp [entryPlace, hn, hsome, moveEntry, bind, Except.bind]
    | some node =>
      cases hn' : isLongName n' with
      | true => simp [entryPlace, hn, hn', hsome, bind, Except.bind]
      | false =>
        cases hmove : d.moveEntry (pre ++ [n]) (pre' ++ [n']) <;>
          simp [entryPlace, hn, hn', hsome, hmove, bind, Except.bind]

/-- A file is moved from where one plain path reaches it to where another reaches, unless a directory
    is there. -/
theorem moveFile_plain {a b : FilePath} (ha : a.Plain) (hb : b.Plain) (hane : a.names ≠ [])
    (hbne : b.names ≠ []) (hua : d.Unlinked a.names) (hub : d.Unlinked b.names)
    (hab : a.names ≠ b.names) : d.moveFile a b = .ok d' ↔
    d.Reaches a ∧ d.Reaches b ∧ d.node? b.names ≠ some .dir ∧
      ∃ bytes, d.node? a.names = some (.file bytes) ∧
        d' = (d.drop a.names).put b.names (.file bytes) := by
  obtain ⟨pre, n, hcat⟩ := List.eq_nil_or_concat a.names |>.resolve_left hane
  obtain ⟨pre', n', hcat'⟩ := List.eq_nil_or_concat b.names |>.resolve_left hbne
  rw [List.concat_eq_append] at hcat hcat'
  have hsource : ∀ x, d.locateParent a = .ok x ↔ _ := fun x => locateParent_plain ha hua hcat
  have htarget : ∀ x, d.locateParent b = .ok x ↔ _ := fun x => locateParent_plain hb hub hcat'
  rw [reaches_iff hcat, reaches_iff hcat', hcat, hcat']
  rw [hcat] at hsource
  rw [hcat'] at htarget
  cases hs : d.locateParent a with
  | error c =>
    constructor
    · intro h
      rw [moveFile, ha.nul, hb.nul, hs] at h
      cases h
    · rintro ⟨⟨hlong, hpre, -, hh⟩, -⟩
      rw [(hsource _).2 ⟨rfl, hlong, hpre, hh⟩] at hs
      cases hs
  | ok x =>
    obtain ⟨rfl, hlong, hpre, hh⟩ := (hsource x).1 hs
    cases ht : d.locateParent b with
    | error c =>
      constructor
      · intro h
        rw [moveFile, ha.nul, hb.nul, hs, ht] at h
        cases h
      · rintro ⟨-, ⟨hlong', hpre', -, hh'⟩, -⟩
        rw [(htarget _).2 ⟨rfl, hlong', hpre', hh'⟩] at ht
        cases ht
    | ok x' =>
      obtain ⟨rfl, hlong', hpre', hh'⟩ := (htarget x').1 ht
      have hentry : d.moveEntry (pre ++ [n]) (pre' ++ [n']) = .ok d' ↔ _ :=
        moveEntry_plain (hcat ▸ hcat' ▸ hab) fun target => hcat ▸ hua a.names target List.prefix_rfl
      rw [moveFile_parents ha.nul hb.nul hs ht, hentry]
      constructor
      · rintro ⟨hn, hn', hdir, hfile⟩
        exact ⟨⟨hlong, hpre, hn, hh⟩, ⟨hlong', hpre', hn', hh'⟩, hdir, hfile⟩
      · rintro ⟨⟨-, -, hn, -⟩, ⟨-, -, hn', -⟩, hdir, hfile⟩
        exact ⟨hn, hn', hdir, hfile⟩

/-! ## Directories -/

/-- That `d'` differs from the earlier disk `d` by new directories at most. -/
def Grown (d d' : Disk) : Prop :=
  ∀ q, d'.node? q = d.node? q ∨ d.node? q = none ∧ d'.node? q = some .dir

theorem Grown.refl (d : Disk) : d.Grown d := fun _ => .inl rfl

theorem Grown.trans {e : Disk} (h : d.Grown e) (h' : e.Grown d') : d.Grown d' := by
  intro q
  rcases h' q with hsame | ⟨hnone, hdir⟩
  · rw [hsame]
    exact h q
  · rcases h q with hq | ⟨-, hq⟩
    · exact .inr ⟨hq ▸ hnone, hdir⟩
    · rw [hq] at hnone
      cases hnone

theorem makeDir_grown (h : d.makeDir p = .ok d') : d.Grown d' := by
  unfold makeDir at h
  split at h
  · cases h
  · split at h
    · cases h
    · cases h
    · rename_i place hplace
      split at h
      · cases h
      · rename_i hnone
        cases h
        have hne : place ≠ [] := by
          rintro rfl
          rw [node?_nil] at hnone
          cases hnone
        intro q
        rw [node?_put d hne]
        by_cases hq : q = place
        · rw [if_pos hq, hq]
          exact .inr ⟨hnone, rfl⟩
        · rw [if_neg hq]
          exact .inl rfl

theorem ensureDir_grown (h : d.ensureDir p = .ok d') : d.Grown d' := by
  unfold ensureDir at h
  split at h
  · rename_i hmake
    cases h
    exact makeDir_grown hmake
  · cases h
  · split at h
    · cases h
      exact .refl d
    · cases h
    · cases h

theorem makeDirsUpTo_grown (depth : Nat) : d.Grown (d.makeDirsUpTo p depth).1 := by
  induction depth generalizing p with
  | zero => exact .refl d
  | succ depth ih =>
    unfold makeDirsUpTo
    split
    · rename_i hmake
      exact makeDir_grown hmake
    · split
      · exact .refl d
      · rename_i parent _
        have hparent := ih (p := parent)
        split
        · rename_i hup
          rwa [hup] at hparent
        · rename_i hup
          rw [hup] at hparent
          split
          · rename_i hlast
            exact hparent.trans (ensureDir_grown hlast)
          · exact hparent
    · split
      · rename_i hlast
        exact ensureDir_grown hlast
      · exact .refl d

/-- A directory that is there is not made again. -/
theorem makeDirs_there (hp : p.Plain) (hun : d.Unlinked p.names) (hne : p.names ≠ [])
    (hr : d.Reaches p) (hdir : d.node? p.names = some .dir) : d.makeDirs p = (d, none) := by
  have htaken : d.makeDir p = .error (.at .taken p) := by
    rw [makeDir, hp.nul, if_neg Bool.false_ne_true, (locateEntry_plain hp hun hne).2 ⟨rfl, hr⟩]
    dsimp only
    rw [hdir]
  have hthere : d.ensureDir p = .ok d := by
    have hisDir : d.isDir p = .ok true := looksLike_there hp hun hr hdir
    rw [ensureDir, htaken]
    dsimp only
    rw [hisDir]
  rw [makeDirs, makeDirsUpTo, htaken]
  dsimp only
  rw [hthere]

/-- Making directories changes nothing else, also where it stops half way. -/
theorem makeDirs_grown : d.Grown (d.makeDirs p).1 := makeDirsUpTo_grown _

theorem makeDir_ne_nul (hnul : p.hasNul = false) : d.makeDir p ≠ .error .nul := by
  intro h
  rw [makeDir, hnul] at h
  grind

theorem ensureDir_ne_nul (hnul : p.hasNul = false) : d.ensureDir p ≠ .error .nul := by
  intro h
  unfold ensureDir at h
  split at h
  · cases h
  · rename_i hmake
    exact makeDir_ne_nul hnul hmake
  · rename_i hf
    split at h
    · cases h
    · cases h
      exact makeDir_ne_nul hnul hf
    · rename_i hdir
      cases h
      unfold isDir looksLike at hdir
      grind

theorem makeDirsUpTo_ne_nul (hnul : p.hasNul = false) (depth : Nat) :
    (d.makeDirsUpTo p depth).2 ≠ some .nul := by
  induction depth generalizing p with
  | zero => nofun
  | succ depth ih =>
    unfold makeDirsUpTo
    split
    · nofun
    · split
      · nofun
      · rename_i parent hshort
        have hparent : parent.hasNul = false := by
          unfold shorter? at hshort
          split at hshort
          · cases hshort
          · cases hshort
            unfold FilePath.hasNul at hnul ⊢
            rw [List.any_eq_false] at hnul ⊢
            exact fun n hn => hnul n ((List.dropLast_prefix _).subset hn)
        have hup := ih hparent
        split
        · rename_i f hfault
          rwa [hfault] at hup
        · split
          · nofun
          · rename_i f hlast
            rintro ⟨⟩
            exact ensureDir_ne_nul hnul hlast
    · split
      · nofun
      · rename_i f hlast
        rintro ⟨⟩
        exact ensureDir_ne_nul hnul hlast

/-- Making directories along a path without a NUL never fails for one. -/
theorem makeDirs_ne_nul (hnul : p.hasNul = false) : (d.makeDirs p).2 ≠ some .nul :=
  makeDirsUpTo_ne_nul hnul _

/-! ## Ways -/

/-- That the directories of the earlier disk `d` are still there on `d'` and that no link is new. -/
structure KeepsWays (d d' : Disk) : Prop where
  dir : ∀ q, d.node? q = some .dir → d'.node? q = some .dir
  link : ∀ q target, d'.node? q = some (.link target) → d.node? q = some (.link target)

namespace KeepsWays

theorem trans {e : Disk} (h : d.KeepsWays e) (h' : e.KeepsWays d') : d.KeepsWays d' :=
  ⟨fun q hq => h'.dir q (h.dir q hq), fun q target hq => h.link q target (h'.link q target hq)⟩

theorem holds (h : d.KeepsWays d') {q : Place} (hq : d.Holds q) : d'.Holds q :=
  fun r hr hne => h.dir r (hq r hr hne)

/-- What was reached is still reached. -/
theorem reaches (h : d.KeepsWays d') (hp : d.Reaches p) : d'.Reaches p := ⟨hp.1, h.holds hp.2⟩

theorem unlinked (h : d.KeepsWays d') {q : Place} (hq : d.Unlinked q) : d'.Unlinked q :=
  fun r target hr hlink => hq r target hr (h.link r target hlink)

/-- A plain path that led to a directory still does. -/
theorem isDir (h : d.KeepsWays d') (hp : p.Plain) (hun : d.Unlinked p.names)
    (hdir : d.isDir p = .ok true) : d'.isDir p = .ok true := by
  have hthere : d.Reaches p ∧ d.node? p.names = some .dir := by
    rw [Disk.isDir, looksLike, hp.nul, if_neg Bool.false_ne_true] at hdir
    cases hl : d.look p with
    | error c =>
      rw [hl] at hdir
      dsimp only at hdir
      split at hdir <;> cases hdir
    | ok n =>
      rw [hl] at hdir
      obtain ⟨hreach, hn⟩ := (look_plain hp hun).1 hl
      cases n with
      | dir => exact ⟨hreach, hn⟩
      | file bytes => cases hdir
      | link target => cases hdir
  exact looksLike_there hp (h.unlinked hun) (h.reaches hthere.1) (h.dir _ hthere.2)

end KeepsWays

theorem Grown.keepsWays (h : d.Grown d') : d.KeepsWays d' := by
  constructor
  · intro q hq
    rcases h q with hsame | ⟨-, hdir⟩
    · rw [hsame, hq]
    · exact hdir
  · intro q target hq
    rcases h q with hsame | ⟨-, hdir⟩
    · rw [← hsame, hq]
    · rw [hdir] at hq
      cases hq

theorem keepsWays_put {q : Place} (hne : q ≠ []) (hdir : d.node? q ≠ some .dir) (bytes : ByteArray) :
    d.KeepsWays (d.put q (.file bytes)) := by
  constructor
  · intro r hr
    rw [node?_put d hne, if_neg]
    · exact hr
    · rintro rfl
      exact hdir hr
  · intro r target hr
    rw [node?_put d hne] at hr
    split at hr
    · cases hr
    · exact hr

theorem keepsWays_drop {q : Place} (hne : q ≠ []) (hdir : d.node? q ≠ some .dir) :
    d.KeepsWays (d.drop q) := by
  constructor
  · intro r hr
    rw [node?_drop d hne, if_neg]
    · exact hr
    · rintro rfl
      exact hdir hr
  · intro r target hr
    rw [node?_drop d hne] at hr
    split at hr
    · cases hr
    · exact hr

end Disk

end StagedEdits
