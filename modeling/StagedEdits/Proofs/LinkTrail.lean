import StagedEdits.Proofs.PlainDisk

set_option autoImplicit false

/-! # Trails through links

Where the pieces of a path lead on a disk with links. A trail goes down by a name, back up, and
through the links on its way. A trail on which every place is a directory is what a walk takes. A
trail that asks nothing of its places also goes on below what is not there, so it tells where a path
would lead once the missing directories were made; it depends on the links of the disk alone.

A disk that narrows another one takes no way that the other had not. Links may be moved on it, as
long as they led to no directory.

Main definitions: `Disk.Trail`, `Disk.Shut`, `Disk.Narrows`, `Disk.Retains`. Main statements:
`Disk.Trail.unique`, `Disk.walk_split`, `Disk.Trail.walk`, `Disk.Narrows.trail`. -/

namespace StagedEdits

/-- That the piece `n` of a path is a name to go down by. -/
def IsStep (n : String) : Prop := n ≠ "" ∧ n ≠ "." ∧ n ≠ ".." ∧ isLongName n = false

namespace Disk

/-- Where `target` starts from, what a link leads to that stands in the directory `here`. -/
def linkStart (here : Place) (target : String) : Place :=
  if (FilePath.ofText target).isAbsolute then [] else here

/-- That pieces of a path lead from one place of `d` to another through a number of links, over
    places that all pass `S`. -/
inductive Trail (d : Disk) (S : Place → Prop) : Nat → Place → List String → Place → Prop
  | nil {here : Place} (hS : S here) : Trail d S 0 here [] here
  | stay {k : Nat} {here place : Place} {n : String} {rest : List String} (hS : S here)
    (hn : n = "" ∨ n = ".") (h : Trail d S k here rest place) : Trail d S k here (n :: rest) place
  | up {k : Nat} {here place : Place} {rest : List String} (hS : S here)
    (h : Trail d S k here.dropLast rest place) : Trail d S k here (".." :: rest) place
  | down {k : Nat} {here place : Place} {n : String} {rest : List String} (hS : S here)
    (hn : IsStep n) (hnode : ∀ target, d.node? (here ++ [n]) ≠ some (.link target))
    (h : Trail d S k (here ++ [n]) rest place) : Trail d S k here (n :: rest) place
  | link {i j : Nat} {here mid place : Place} {n target : String} {rest : List String}
    (hS : S here) (hn : IsStep n) (hnode : d.node? (here ++ [n]) = some (.link target))
    (ht : Trail d S i (linkStart here target) (piecesOf target) mid)
    (h : Trail d S j mid rest place) : Trail d S (i + j + 1) here (n :: rest) place

/-- That a directory is at `q`. -/
def IsDirAt (d : Disk) (q : Place) : Prop := d.node? q = some .dir

/-- The test that every place passes. -/
def AnyPlace (_ : Place) : Prop := True

namespace Trail

variable {d d' : Disk} {S S' : Place → Prop} {i j k : Nat} {here mid place : Place}
  {xs ys : List String}

theorem start (h : d.Trail S k here xs place) : S here := by
  cases h <;> assumption

/-- A trail ends where its test is passed. -/
theorem finish (h : d.Trail S k here xs place) : S place := by
  induction h with
  | nil hS => exact hS
  | stay _ _ _ ih => exact ih
  | up _ _ ih => exact ih
  | down _ _ _ _ ih => exact ih
  | link _ _ _ _ _ _ ih => exact ih

theorem append (h : d.Trail S i here xs mid) (h' : d.Trail S j mid ys place) :
    d.Trail S (i + j) here (xs ++ ys) place := by
  induction h with
  | nil => rwa [Nat.zero_add]
  | stay hS hn _ ih => exact .stay hS hn (ih h')
  | up hS _ ih => exact .up hS (ih h')
  | down hS hn hnode _ ih => exact .down hS hn hnode (ih h')
  | @link i₁ j₁ _ _ _ _ _ _ hS hn hnode ht _ _ ih =>
    have hcount : i₁ + j₁ + 1 + j = i₁ + (j₁ + j) + 1 := by omega
    rw [hcount]
    exact .link hS hn hnode ht (ih h')

/-- A trail may be cut between any two pieces. -/
theorem split (h : d.Trail S k here (xs ++ ys) place) : ∃ i j mid, k = i + j ∧
    d.Trail S i here xs mid ∧ d.Trail S j mid ys place := by
  induction xs generalizing k here with
  | nil => exact ⟨0, k, here, (Nat.zero_add k).symm, .nil h.start, h⟩
  | cons x xs ih =>
    cases h with
    | stay hS hn h =>
      obtain ⟨i, j, mid, hk, hlead, hrest⟩ := ih h
      exact ⟨i, j, mid, hk, .stay hS hn hlead, hrest⟩
    | up hS h =>
      obtain ⟨i, j, mid, hk, hlead, hrest⟩ := ih h
      exact ⟨i, j, mid, hk, .up hS hlead, hrest⟩
    | down hS hn hnode h =>
      obtain ⟨i, j, mid, hk, hlead, hrest⟩ := ih h
      exact ⟨i, j, mid, hk, .down hS hn hnode hlead, hrest⟩
    | @link i _ _ _ _ _ _ _ hS hn hnode ht h =>
      obtain ⟨i', j', mid', rfl, hlead, hrest⟩ := ih h
      exact ⟨i + i' + 1, j', mid', by omega, .link hS hn hnode ht hlead, hrest⟩

/-- **Pieces lead to one place only**, whatever the test. -/
theorem unique {k' : Nat} {place' : Place} (h : d.Trail S k here xs place)
    (h' : d.Trail S' k' here xs place') : k = k' ∧ place = place' := by
  induction h generalizing k' place' with
  | nil =>
    cases h'
    exact ⟨rfl, rfl⟩
  | stay _ hn _ ih =>
    cases h' with
    | stay _ _ h' => exact ih h'
    | up => exact absurd hn (by decide)
    | down _ hn' => exact (hn.elim hn'.1 hn'.2.1).elim
    | link _ hn' => exact (hn.elim hn'.1 hn'.2.1).elim
  | up _ _ ih =>
    cases h' with
    | stay _ hn' => exact absurd hn' (by decide)
    | up _ h' => exact ih h'
    | down _ hn' => exact absurd rfl hn'.2.2.1
    | link _ hn' => exact absurd rfl hn'.2.2.1
  | down _ hn hnode _ ih =>
    cases h' with
    | stay _ hn' => exact (hn'.elim hn.1 hn.2.1).elim
    | up => exact absurd rfl hn.2.2.1
    | down _ _ _ h' => exact ih h'
    | link _ _ hnode' => exact absurd hnode' (hnode _)
  | link _ hn hnode _ _ iht ih =>
    cases h' with
    | stay _ hn' => exact (hn'.elim hn.1 hn.2.1).elim
    | up => exact absurd rfl hn.2.2.1
    | down _ _ hnode' => exact absurd hnode (hnode' _)
    | link _ _ hnode' ht' h' =>
      rw [hnode] at hnode'
      cases hnode'
      obtain ⟨rfl, rfl⟩ := iht ht'
      obtain ⟨rfl, rfl⟩ := ih h'
      exact ⟨rfl, rfl⟩

/-- A trail under one test is one under another that asks for less, on a disk with the same
    links. -/
theorem imp (hS : ∀ q, S q → S' q)
    (hlinks : ∀ q target, d.node? q = some (.link target) ↔ d'.node? q = some (.link target))
    (h : d.Trail S k here xs place) : d'.Trail S' k here xs place := by
  induction h with
  | nil hs => exact .nil (hS _ hs)
  | stay hs hn _ ih => exact .stay (hS _ hs) hn ih
  | up hs _ ih => exact .up (hS _ hs) ih
  | down hs hn hnode _ ih =>
    exact .down (hS _ hs) hn (fun target hl => hnode target ((hlinks _ target).2 hl)) ih
  | link hs hn hnode _ _ iht ih => exact .link (hS _ hs) hn ((hlinks _ _).1 hnode) iht ih

/-- Pieces that are no more than names lead to the place of the names where no link is. -/
theorem eq_of_plain (hlinks : ∀ q target, d.node? q ≠ some (.link target))
    (hplain : ∀ n ∈ xs, n ≠ "" ∧ n ≠ "." ∧ n ≠ "..") (h : d.Trail S k here xs place) :
    place = here ++ xs := by
  induction h with
  | nil => exact (List.append_nil _).symm
  | stay _ hn =>
    obtain ⟨hempty, hdot, -⟩ := hplain _ List.mem_cons_self
    exact (hn.elim hempty hdot).elim
  | up => exact absurd rfl (hplain _ List.mem_cons_self).2.2
  | down _ _ _ _ ih =>
    rw [ih fun m hm => hplain m (List.mem_cons_of_mem _ hm), List.append_assoc]
    rfl
  | link _ _ hnode => exact absurd hnode (hlinks _ _)

/-- A walk goes along a trail over directories. -/
theorem walk (h : d.Trail d.IsDirAt k here xs place) (links : Nat) (ys : List String) :
    d.walk .content (k + links) here (xs ++ ys) = d.walk .content links place ys := by
  induction h generalizing links ys with
  | nil => rw [Nat.zero_add, List.nil_append]
  | stay hS hn _ ih =>
    rw [List.cons_append, Disk.walk, isDirNode_iff.2 hS, if_neg (by simp),
      if_pos (by simpa using hn)]
    exact ih links ys
  | up hS _ ih =>
    rw [List.cons_append, Disk.walk, isDirNode_iff.2 hS, if_neg (by simp), if_neg (by decide),
      if_pos (by decide)]
    exact ih links ys
  | @down k here place n rest hS hn hnode h ih =>
    obtain ⟨hempty, hdot, hup, hlong⟩ := hn
    have hdir : d.node? (here ++ [n]) = some .dir := h.start
    rw [List.cons_append, Disk.walk, isDirNode_iff.2 hS, if_neg (by simp),
      if_neg (by simp [hempty, hdot]), if_neg (by simpa using hup), if_neg (by simp),
      if_neg (by simp [hlong]), hdir]
    exact ih links ys
  | @link i j here mid place n target rest hS hn hnode _ _ iht ih =>
    obtain ⟨hempty, hdot, hup, hlong⟩ := hn
    have hcount : i + j + 1 + links = (i + (j + links)) + 1 := by omega
    rw [List.cons_append, Disk.walk, isDirNode_iff.2 hS, if_neg (by simp),
      if_neg (by simp [hempty, hdot]), if_neg (by simpa using hup), if_neg (by simp),
      if_neg (by simp [hlong]), hnode]
    dsimp only
    rw [if_neg (by simp), hcount]
    exact (iht (j + links) (rest ++ ys)).trans (ih links ys)

end Trail

/-! ## Walks -/

section Walks

variable {d : Disk} {errand : Errand} {links : Nat} {here place : Place}

/-- More links do not change where a walk leads. -/
theorem walk_more {pieces : List String} (h : d.walk errand links here pieces = .ok place)
    (more : Nat) : d.walk errand (links + more) here pieces = .ok place := by
  fun_induction walk d errand links here pieces with
  | case1 => rw [walk, h]
  | case2 | case5 | case6 | case8 | case10 => cases h
  | case3 _ _ _ _ hdir hn ih =>
    rw [walk, if_neg hdir, if_pos hn]
    exact ih h
  | case4 _ _ _ _ hdir hn hup ih =>
    rw [walk, if_neg hdir, if_neg hn, if_pos hup]
    exact ih h
  | case7 _ _ _ _ hdir hn hup hmaking hlong hnode hslashes =>
    rw [walk, if_neg hdir, if_neg hn, if_neg hup, if_neg hmaking, if_neg hlong, hnode]
    exact (if_pos hslashes).trans h
  | case9 _ _ _ _ hdir hn hup hmaking hlong target hnode hentry =>
    rw [walk, if_neg hdir, if_neg hn, if_neg hup, if_neg hmaking, if_neg hlong, hnode]
    exact (if_pos hentry).trans h
  | case11 here n rest hdir hn hup hmaking hlong target hnode hentry links start ih =>
    have hcount : links.succ + more = (links + more) + 1 := by omega
    rw [walk, if_neg hdir, if_neg hn, if_neg hup, if_neg hmaking, if_neg hlong, hnode, hcount]
    exact (if_neg hentry).trans (ih h)
  | case12 links here n rest hdir hn hup hmaking hlong node hlink hnode ih =>
    rw [walk, if_neg hdir, if_neg hn, if_neg hup, if_neg hmaking, if_neg hlong, hnode]
    cases node with
    | link target => exact (hlink target rfl).elim
    | _ => exact ih h

/-- A walk to what is there leads to the same place if nothing changed on the disk but what is in
    files. -/
theorem walk_kept {d' : Disk} (hkept : ∀ q node, d.node? q = some node → d'.node? q = some node ∨
      ∃ bytes bytes', node = .file bytes ∧ d'.node? q = some (.file bytes'))
    {pieces : List String} (h : d.walk .content links here pieces = .ok place)
    (hplace : d.node? place ≠ none) : d'.walk .content links here pieces = .ok place := by
  have hdirs : ∀ {q}, ¬(!isDirNode (d.node? q)) = true → ¬(!isDirNode (d'.node? q)) = true := by
    intro q hq
    have hdir : d.node? q = some .dir := isDirNode_iff.1 (by simpa using hq)
    rcases hkept q _ hdir with hsame | ⟨_, _, hfile, -⟩
    · simp [isDirNode_iff.2 hsame]
    · cases hfile
  generalize herrand : Errand.content = errand at h ⊢
  fun_induction walk d errand links here pieces with
  | case1 => rw [walk, h]
  | case2 | case5 | case6 | case8 | case10 => cases h
  | case3 _ _ _ _ hdir hn ih =>
    rw [walk, if_neg (hdirs hdir), if_pos hn]
    exact ih h
  | case4 _ _ _ _ hdir hn hup ih =>
    rw [walk, if_neg (hdirs hdir), if_neg hn, if_pos hup]
    exact ih h
  | case7 _ _ _ _ hdir hn hup hmaking hlong hnode hslashes =>
    cases h
    exact absurd hnode hplace
  | case9 _ _ _ _ hdir hn hup hmaking hlong target hnode hentry =>
    subst herrand
    simp at hentry
  | case11 here n rest hdir hn hup hmaking hlong target hnode hentry links start ih =>
    have hsame : d'.node? (here ++ [n]) = some (.link target) := by
      rcases hkept _ _ hnode with hsame | ⟨_, _, hfile, -⟩
      · exact hsame
      · cases hfile
    rw [walk, if_neg (hdirs hdir), if_neg hn, if_neg hup, if_neg hmaking, if_neg hlong, hsame]
    exact (if_neg hentry).trans (ih h)
  | case12 links here n rest hdir hn hup hmaking hlong node hlink hnode ih =>
    rw [walk, if_neg (hdirs hdir), if_neg hn, if_neg hup, if_neg hmaking, if_neg hlong]
    rcases hkept _ _ hnode with hsame | ⟨_, bytes', -, hfile⟩
    · rw [hsame]
      cases node with
      | link target => exact (hlink target rfl).elim
      | _ => exact ih h
    · rw [hfile]
      exact ih h

/-- How a walk takes its first piece `n` at `here`, if it leads to `place` over `rest`. -/
inductive FirstStep (d : Disk) (errand : Errand) (links : Nat) (here : Place) (n : String)
    (rest : List String) (place : Place) : Prop
  | stay (hn : n = "" ∨ n = ".") (h : d.walk errand links here rest = .ok place)
  | up (hn : n = "..") (h : d.walk errand links here.dropLast rest = .ok place)
  | gap (hn : IsStep n) (hnode : d.node? (here ++ [n]) = none) (hrest : isSlashes rest = true)
    (hplace : place = here ++ [n])
  | entry {target : String} (hn : IsStep n) (hnode : d.node? (here ++ [n]) = some (.link target))
    (hrest : rest = []) (herrand : errand = .entry) (hplace : place = here ++ [n])
  | link {target : String} {left : Nat} (hn : IsStep n)
    (hnode : d.node? (here ++ [n]) = some (.link target)) (hlinks : links = left + 1)
    (h : d.walk errand left (linkStart here target) (piecesOf target ++ rest) = .ok place)
  | down {node : Node} (hn : IsStep n) (hnode : d.node? (here ++ [n]) = some node)
    (hlink : ∀ target, node ≠ .link target)
    (h : d.walk errand links (here ++ [n]) rest = .ok place)

/-- A walk takes its first piece from a directory. -/
theorem firstStep_of_walk {n : String} {rest : List String}
    (h : d.walk errand links here (n :: rest) = .ok place) :
    d.node? here = some .dir ∧ d.FirstStep errand links here n rest place := by
  rw [walk] at h
  split at h
  · cases h
  · rename_i hdir
    refine ⟨isDirNode_iff.1 (by simpa using hdir), ?_⟩
    split at h
    · rename_i hn
      exact .stay (by simpa using hn) h
    · rename_i hn
      obtain ⟨hempty, hdot⟩ : n ≠ "" ∧ n ≠ "." := by simpa using hn
      split at h
      · rename_i hup
        exact .up (by simpa using hup) h
      · rename_i hup
        split at h
        · cases h
        · split at h
          · cases h
          · rename_i hlong
            have hstep : IsStep n :=
              ⟨hempty, hdot, by simpa using hup, by simpa using hlong⟩
            split at h
            · rename_i hnode
              split at h
              · rename_i hslashes
                cases h
                exact .gap hstep hnode hslashes rfl
              · cases h
            · rename_i target hnode
              split at h
              · rename_i hentry
                cases h
                obtain ⟨hrest, herrand⟩ : rest = [] ∧ errand = .entry := by simpa using hentry
                exact .entry hstep hnode hrest herrand rfl
              · split at h
                · cases h
                · exact .link hstep hnode rfl h
            · rename_i node hlink hnode
              exact .down hstep hnode hlink h

theorem isSlashes_append {xs ys : List String} (h : isSlashes ys = false) :
    isSlashes (xs ++ ys) = false := by
  rw [isSlashes, List.all_append, show ys.all (· == "") = false from h, Bool.and_false]

/-- **A walk takes the trail over directories** of the pieces `xs`, as far as there is more than
    slashes behind them in `ys`, and the whole way if it comes to a directory. -/
theorem walk_split {xs ys : List String} (h : d.walk errand links here (xs ++ ys) = .ok place)
    (hys : isSlashes ys = false ∨ errand = .content ∧ d.node? place = some .dir) :
    ∃ k left mid, links = k + left ∧ d.Trail d.IsDirAt k here xs mid ∧
      d.walk errand left mid ys = .ok place ∧ d.node? mid = some .dir := by
  -- through a link it goes on with one link less, else with one piece less
  induction links using Nat.strongRecOn generalizing here xs with
  | ind links ihlinks =>
    induction xs generalizing here with
    | nil =>
      have hdir : d.node? here = some .dir := by
        cases ys with
        | nil =>
          obtain ⟨-, hplace⟩ := hys.resolve_left nofun
          rw [List.append_nil, walk_nil] at h
          cases h
          exact hplace
        | cons y ys => exact (firstStep_of_walk h).1
      exact ⟨0, links, here, (Nat.zero_add links).symm, .nil hdir, h, hdir⟩
    | cons n xs ih =>
      rw [List.cons_append] at h
      obtain ⟨hdir, hstep⟩ := firstStep_of_walk h
      cases hstep with
      | stay hn h =>
        obtain ⟨k, left, mid, hlinks, htrail, hrest⟩ := ih h
        exact ⟨k, left, mid, hlinks, .stay hdir hn htrail, hrest⟩
      | up hn h =>
        obtain ⟨k, left, mid, hlinks, htrail, hrest⟩ := ih h
        subst hn
        exact ⟨k, left, mid, hlinks, .up hdir htrail, hrest⟩
      | gap hn hnode hrest hplace =>
        exfalso
        rcases hys with hys | ⟨-, hys⟩
        · rw [isSlashes_append hys] at hrest
          cases hrest
        · rw [hplace, hnode] at hys
          cases hys
      | entry hn hnode hrest herrand hplace =>
        exfalso
        rcases hys with hys | ⟨herrand', -⟩
        · rw [(List.append_eq_nil_iff.1 hrest).2] at hys
          cases hys
        · rw [herrand] at herrand'
          cases herrand'
      | @link target left hn hnode hlinks h =>
        rw [← List.append_assoc] at h
        obtain ⟨k, left', mid, hleft, htrail, hrest⟩ := ihlinks left (by omega) h
        obtain ⟨i, j, mid', rfl, htarget, htrail'⟩ := htrail.split
        exact ⟨i + j + 1, left', mid, by omega, .link hdir hn hnode htarget htrail', hrest⟩
      | down hn hnode hlink h =>
        obtain ⟨k, left, mid, hlinks, htrail, hrest⟩ := ih h
        refine ⟨k, left, mid, hlinks, .down hdir hn (fun target hl => ?_) htrail, hrest⟩
        rw [hnode] at hl
        exact hlink target (Option.some.inj hl)

/-- A walk goes down by no name that is too long. -/
theorem isStep_of_walk {n : String} (hn : n ≠ "" ∧ n ≠ "." ∧ n ≠ "..")
    (h : d.walk errand links here [n] = .ok place) : IsStep n := by
  cases (firstStep_of_walk h).2 with
  | stay hn' => exact (hn'.elim hn.1 hn.2.1).elim
  | up hn' => exact absurd hn' hn.2.2
  | gap hstep | entry hstep | link hstep | down hstep => exact hstep

/-- A walk along one name leads to the place of the name, or on through the link there. -/
theorem walk_last {n : String} (hn : IsStep n) (herrand : errand ≠ .entry)
    (h : d.walk errand links here [n] = .ok place) :
    (place = here ++ [n] ∧ ∀ target, d.node? (here ++ [n]) ≠ some (.link target)) ∨
    ∃ target left, d.node? (here ++ [n]) = some (.link target) ∧
      d.walk errand left (linkStart here target) (piecesOf target) = .ok place := by
  obtain ⟨-, hstep⟩ := firstStep_of_walk h
  cases hstep with
  | stay hn' => exact (hn'.elim hn.1 hn.2.1).elim
  | up hn' => exact absurd hn' hn.2.2.1
  | gap _ hnode _ hplace => exact .inl ⟨hplace, by rw [hnode]; nofun⟩
  | entry _ _ _ hentry => exact absurd hentry herrand
  | @link target left _ hnode _ h =>
    rw [List.append_nil] at h
    exact .inr ⟨target, left, hnode, h⟩
  | down _ hnode hlink h =>
    rw [walk_nil] at h
    cases h
    exact .inl ⟨rfl, fun target hl => hlink target (Option.some.inj (hnode.symm.trans hl))⟩

/-- A walk that comes to a directory takes the trail to it. -/
theorem trail_of_walk {xs : List String} (h : d.walk .content links here xs = .ok place)
    (hplace : d.node? place = some .dir) :
    ∃ k left, links = k + left ∧ d.Trail d.IsDirAt k here xs place := by
  rw [← List.append_nil xs] at h
  obtain ⟨k, left, mid, hlinks, htrail, hnil, -⟩ := walk_split h (.inr ⟨rfl, hplace⟩)
  rw [walk_nil] at hnil
  cases hnil
  exact ⟨k, left, hlinks, htrail⟩

end Walks

/-! ## Disks that change -/

/-- That a link to `target` in the directory `here` does not lead to a directory. -/
def Shut (d : Disk) (here : Place) (target : String) : Prop :=
  ∀ k mid, ¬d.Trail d.IsDirAt k (linkStart here target) (piecesOf target) mid

/-- A link that leads to a file is shut. -/
theorem shut_of_walk {d : Disk} {links : Nat} {here place : Place} {target : String}
    (h : d.walk .content links (linkStart here target) (piecesOf target) = .ok place)
    (hplace : d.node? place ≠ some .dir) : d.Shut here target := by
  intro k mid htrail
  have hmid : d.walk .content (k + links) (linkStart here target) (piecesOf target) = .ok mid := by
    have hwalk := htrail.walk links []
    rwa [List.append_nil, walk_nil] at hwalk
  have hsame := walk_more h k
  rw [Nat.add_comm, hmid] at hsame
  cases hsame
  exact hplace htrail.finish

/-- That the later disk `v` has no directories but those of `e`, and no links but those of `e` and
    such as were shut there. -/
structure Narrows (e v : Disk) : Prop where
  dir : ∀ q, v.IsDirAt q → e.IsDirAt q
  link : ∀ q n target, v.node? (q ++ [n]) = some (.link target) →
    e.node? (q ++ [n]) = some (.link target) ∨ e.Shut q target

/-- That the later disk `v` still has the directories of `e`, and its links but for such as were
    shut. -/
structure Retains (e v : Disk) : Prop where
  dir : ∀ q, e.IsDirAt q → v.IsDirAt q
  link : ∀ q n target, e.node? (q ++ [n]) = some (.link target) →
    v.node? (q ++ [n]) = some (.link target) ∨ e.Shut q target

section Changes

variable {e v : Disk} {k : Nat} {here place : Place} {xs : List String}

/-- A trail is one on another disk too that has its directories, and its links but for such as are
    shut on either disk. -/
theorem Trail.carry {d d' : Disk} (hdir : ∀ q, d.IsDirAt q → d'.IsDirAt q)
    (hlink : ∀ q n target, d.node? (q ++ [n]) = some (.link target) →
      d'.node? (q ++ [n]) = some (.link target) ∨ d.Shut q target ∨ d'.Shut q target)
    (h : d.Trail d.IsDirAt k here xs place) : d'.Trail d'.IsDirAt k here xs place := by
  induction h with
  | nil hS => exact .nil (hdir _ hS)
  | stay hS hn _ ih => exact .stay (hdir _ hS) hn ih
  | up hS _ ih => exact .up (hdir _ hS) ih
  | down hS hn _ h ih =>
    refine .down (hdir _ hS) hn (fun target hl => ?_) ih
    have hthere := hdir _ h.start
    rw [IsDirAt, hl] at hthere
    cases hthere
  | link hS hn hnode ht _ iht ih =>
    rcases hlink _ _ _ hnode with hsame | hshut | hshut
    · exact .link (hdir _ hS) hn hsame iht ih
    · exact absurd ht (hshut _ _)
    · exact absurd iht (hshut _ _)

/-- **A narrower disk takes no new way**: a trail over the directories of `v` is one of `e`. -/
theorem Narrows.trail (hnarrow : e.Narrows v) (h : v.Trail v.IsDirAt k here xs place) :
    e.Trail e.IsDirAt k here xs place :=
  h.carry hnarrow.dir fun q n target hl => (hnarrow.link q n target hl).imp_right .inr

/-- **All ways are still there** on a disk `v` that retains those of `e`. -/
theorem Retains.trail (hretain : e.Retains v) (h : e.Trail e.IsDirAt k here xs place) :
    v.Trail v.IsDirAt k here xs place :=
  h.carry hretain.dir fun q n target hl => (hretain.link q n target hl).imp_right .inl

theorem Retains.shut (hretain : e.Retains v) {target : String} (h : v.Shut here target) :
    e.Shut here target := fun k mid htrail => h k mid (hretain.trail htrail)

theorem Narrows.shut (hnarrow : e.Narrows v) {target : String} (h : e.Shut here target) :
    v.Shut here target := fun k mid htrail => h k mid (hnarrow.trail htrail)

theorem Narrows.refl (d : Disk) : d.Narrows d := ⟨fun _ => id, fun _ _ _ => .inl⟩

theorem Retains.refl (d : Disk) : d.Retains d := ⟨fun _ => id, fun _ _ _ => .inl⟩

theorem Narrows.drop (h : e.Narrows v) (hne : place ≠ []) : e.Narrows (v.drop place) := by
  constructor
  · intro q hq
    rw [IsDirAt, node?_drop v hne] at hq
    split at hq
    · cases hq
    · exact h.dir q hq
  · intro q n target hq
    rw [node?_drop v hne] at hq
    split at hq
    · cases hq
    · exact h.link q n target hq

/-- A disk stays narrower if what is put on it is no directory, and no link that is new and open. -/
theorem Narrows.put (h : e.Narrows v) {node : Node} {m : String} (hdir : node ≠ .dir)
    (hlink : ∀ target, node = .link target →
      e.node? (here ++ [m]) = some (.link target) ∨ e.Shut here target) :
    e.Narrows (v.put (here ++ [m]) node) := by
  constructor
  · intro q hq
    rw [IsDirAt, node?_put v (by simp)] at hq
    split at hq
    · exact absurd (Option.some.inj hq) hdir
    · exact h.dir q hq
  · intro q n target hq
    rw [node?_put v (by simp)] at hq
    split at hq
    · rename_i heq
      obtain ⟨rfl, hn⟩ := List.append_inj' heq rfl
      cases hn
      exact hlink target (Option.some.inj hq)
    · exact h.link q n target hq

theorem Retains.drop (h : e.Retains v) {m : String} (hdir : v.node? (here ++ [m]) ≠ some .dir)
    (hlink : ∀ target, v.node? (here ++ [m]) = some (.link target) → e.Shut here target) :
    e.Retains (v.drop (here ++ [m])) := by
  constructor
  · intro q hq
    rw [IsDirAt, node?_drop v (by simp), if_neg]
    · exact h.dir q hq
    · rintro rfl
      exact hdir (h.dir _ hq)
  · intro q n target hq
    rw [node?_drop v (by simp)]
    by_cases heq : q ++ [n] = here ++ [m]
    · obtain ⟨rfl, hn⟩ := List.append_inj' heq rfl
      cases hn
      exact .inr ((h.link _ _ _ hq).elim (hlink target) id)
    · rw [if_neg heq]
      exact h.link q n target hq

theorem Retains.put (h : e.Retains v) {node : Node} {m : String}
    (hdir : v.node? (here ++ [m]) ≠ some .dir)
    (hlink : ∀ target, e.node? (here ++ [m]) ≠ some (.link target)) :
    e.Retains (v.put (here ++ [m]) node) := by
  constructor
  · intro q hq
    rw [IsDirAt, node?_put v (by simp), if_neg]
    · exact h.dir q hq
    · rintro rfl
      exact hdir (h.dir _ hq)
  · intro q n target hq
    rw [node?_put v (by simp), if_neg]
    · exact h.link q n target hq
    · intro heq
      rw [heq] at hq
      exact hlink target hq

end Changes

end Disk

end StagedEdits
