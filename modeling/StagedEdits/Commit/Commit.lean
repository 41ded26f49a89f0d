import StagedEdits.Commit.Stage
import StagedEdits.Overlay.Basic

set_option autoImplicit false

/-! # Committing

Flushes a snapshot into a project directory, all or nothing. First every target is resolved and
every new content is staged beside its target; a fault here removes what was staged. Then the files
that go or are replaced are moved aside and the staged ones are moved in; a fault here takes back
what was moved in and restores what was moved aside.

Main definitions: `CommitReport`, `commitSnapshot`. -/

namespace StagedEdits

/-- What a commit did. -/
structure CommitReport where
  written : List String
  deleted : List String
  deriving DecidableEq, Inhabited

/-- A path of a snapshot and where it leads. -/
structure Target where
  path : String
  file : FilePath
  deriving DecidableEq

/-- A content to write. -/
structure Pending where
  target : Target
  content : String
  deriving DecidableEq

/-! ## Targets -/

/-- Where `path` leads below `root`, if that is inside of it. -/
def targetOf (d : Disk) (root : FilePath) (path : String) : Except Failure Target :=
  match d.isWithin root (root.joinText path) with
  | .error f => .error f
  | .ok false => .error (.fault (.persistence path "resolves outside the project root"))
  | .ok true => .ok ⟨path, root.joinText path⟩

/-- Where `paths`, the deletes of a snapshot, lead, in their order. -/
def deleteTargets (d : Disk) (root : FilePath) (paths : List String) :
    Except Failure (List Target) :=
  paths.mapM (targetOf d root)

/-- The writes of a snapshot in order of their paths. -/
def sortedWrites (s : Snapshot) : List (String × String) :=
  (Names.ofList s.writes.keys).toList.filterMap (fun p => (s.writes.get? p).map (fun c => (p, c)))

/-- Where `writes`, those of a snapshot, lead. -/
def writeTargets (d : Disk) (root : FilePath) (writes : List (String × String)) :
    Except Failure (List Pending) :=
  writes.mapM (fun w => do return ⟨← targetOf d root w.1, w.2⟩)

/-! ## The first phase -/

/-- The files that were `staged` before a fault, or all of them. -/
structure Staging where
  drive : Drive
  staged : List Target
  /-- The fault, if there was one. -/
  fault : Option Failure
  entries : List Entry

/-- Stages contents until one cannot be staged, behind those that are `staged` and `said`. -/
def stageAll (sabotage : Sabotage) (v : Drive) (staged : List Target) (said : List Entry) :
    List Pending → Staging
  | [] => ⟨v, staged, none, said⟩
  | w :: ws =>
    match v.disk.isDir w.target.file with
    | .error f => ⟨v, staged, some f.toFailure, said⟩
    | .ok true =>
      ⟨v, staged, some (.fault (.persistence w.target.path "target is a directory")), said⟩
    | .ok false =>
      match stageFile sabotage v w.target.file w.content with
      | ⟨v, .error f, more⟩ => ⟨v, staged, some f, said ++ more⟩
      | ⟨v, .ok _, more⟩ => stageAll sabotage v (staged ++ [w.target]) (said ++ more) ws

/-- Whether a fault is one of writing. -/
def Failure.isPersistence : Failure → Bool
  | .fault (.persistence ..) => true
  | _ => false

/-- Removes what `s` has staged before the fault `f`. Only a fault of writing is dealt with like
    this. -/
def discardStaged (sabotage : Sabotage) (s : Staging) (f : Failure) : DiskStep CommitReport :=
  if f.isPersistence then
    let (v, said) := removeAllQuietly sabotage s.drive (s.staged.map (fun t => stagingPath t.file))
    ⟨v, .error f, s.entries ++ said ++ [.note "COMMIT" ("❌ Staging failed, " ++
      toString s.staged.length ++ " staged files discarded")]⟩
  else ⟨s.drive, .error f, s.entries⟩

/-! ## The second phase -/

/-- How far the second phase has come. -/
structure Swap where
  drive : Drive
  /-- The files that were moved aside. -/
  moved : List FilePath
  /-- The files that were moved in. -/
  placed : List FilePath
  report : CommitReport

/-- Moves the file at `p` aside if there is one; tells whether there was. -/
def moveAside (sabotage : Sabotage) (s : Swap) (p : FilePath) : Swap × Except DiskFault Bool :=
  match s.drive.disk.isFile p with
  | .error f => (s, .error f)
  | .ok false => (s, .ok false)
  | .ok true =>
    match s.drive.perform sabotage (.move p (backupPath p)) with
    | (v, some f) => ({ s with drive := v }, .error f)
    | (v, none) => ({ s with drive := v, moved := s.moved ++ [p] }, .ok true)

/-- Moves the files to delete aside and reports them, up to a fault. -/
def moveDeleted (sabotage : Sabotage) (s : Swap) : List Target → Swap × Option DiskFault
  | [] => (s, none)
  | t :: ts =>
    match moveAside sabotage s t.file with
    | (s, .error f) => (s, some f)
    | (s, .ok false) => moveDeleted sabotage s ts
    | (s, .ok true) =>
      moveDeleted sabotage
        { s with report := { s.report with deleted := s.report.deleted ++ [t.path] } } ts

/-- Moves the files to replace aside, up to a fault. -/
def moveReplaced (sabotage : Sabotage) (s : Swap) : List Target → Swap × Option DiskFault
  | [] => (s, none)
  | t :: ts =>
    match moveAside sabotage s t.file with
    | (s, .error f) => (s, some f)
    | (s, .ok _) => moveReplaced sabotage s ts

/-- Moves the staged files to where they belong and reports them, up to a fault. -/
def moveIn (sabotage : Sabotage) (s : Swap) : List Target → Swap × Option DiskFault
  | [] => (s, none)
  | t :: ts =>
    match s.drive.perform sabotage (.move (stagingPath t.file) t.file) with
    | (v, some f) => ({ s with drive := v }, some f)
    | (v, none) =>
      moveIn sabotage
        { drive := v
          moved := s.moved
          placed := s.placed ++ [t.file]
          report := { s.report with written := s.report.written ++ [t.path] } } ts

/-- The whole second phase, up to a fault: `deletes` and the files under `staged` are moved aside,
    then what was staged is moved in. -/
def swapAll (sabotage : Sabotage) (v : Drive) (deletes staged : List Target) :
    Swap × Option DiskFault :=
  match moveDeleted sabotage ⟨v, [], [], ⟨[], []⟩⟩ deletes with
  | (s, some f) => (s, some f)
  | (s, none) =>
    match moveReplaced sabotage s staged with
    | (s, some f) => (s, some f)
    | (s, none) => moveIn sabotage s staged

/-- Moves files back that were moved aside, each as far as it can be. -/
def restoreAll (sabotage : Sabotage) (v : Drive) : List FilePath → Drive × List Entry
  | [] => (v, [])
  | p :: ps =>
    let (v, f) := v.perform sabotage (.move (backupPath p) p)
    let said : List Entry :=
      match f with
      | none => []
      | some f => [.note "COMMIT" ("⚠️ Could not restore " ++ p.text ++ ": " ++ f.text)]
    let (v, more) := restoreAll sabotage v ps
    (v, said ++ more)

/-- Takes the second phase back: removes what `s` moved in and what is still `staged`, then restores
    what it moved aside, the last first. -/
def rollBack (sabotage : Sabotage) (s : Swap) (staged : List Target) : Drive × List Entry :=
  let (v, said₁) := removeAllQuietly sabotage s.drive s.placed
  let (v, said₂) := removeAllQuietly sabotage v (staged.map (fun t => stagingPath t.file))
  let (v, said₃) := restoreAll sabotage v s.moved.reverse
  (v, said₁ ++ said₂ ++ said₃ ++ [.note "COMMIT" ("↩️ Rolled back: " ++
    toString s.placed.length ++ " writes undone, " ++ toString s.moved.length ++
    " files restored")])

/-! ## The whole commit -/

/-- What a commit of `writes` that went through with `report` says. -/
def doneEntries (report : CommitReport) (writes : List Pending) : List Entry :=
  report.deleted.map (fun p => .note "COMMIT" ("🗑️ Deleted: " ++ p)) ++
    writes.map (fun w => .note "COMMIT" ("✅ Written: " ++ w.target.path ++ " (" ++
      toString w.content.length ++ " chars)"))

/-- Both phases, once the targets are known: `stageAll`, then `swapAll`, each taken back at a
    fault. -/
def commitTargets (sabotage : Sabotage) (v : Drive) (root : FilePath) (deletes : List Target)
    (writes : List Pending) : DiskStep CommitReport :=
  let staging := stageAll sabotage v [] [] writes
  match staging.fault with
  | some f => discardStaged sabotage staging f
  | none =>
    match swapAll sabotage staging.drive deletes staging.staged with
    | (s, some f) =>
      let (v, said) := rollBack sabotage s staging.staged
      ⟨v, .error (.fault (.persistence root.text ("commit rolled back: " ++ f.text))),
        staging.entries ++ said⟩
    | (s, none) =>
      let (v, said) := removeAllQuietly sabotage s.drive (s.moved.map backupPath)
      ⟨v, .ok s.report, staging.entries ++ said ++ doneEntries s.report writes⟩

/-- Commits the snapshot `s` into the directory `root` of the disk `d`. -/
def commitSnapshot (sabotage : Sabotage) (d : Disk) (root : FilePath) (s : Snapshot) :
    DiskStep CommitReport :=
  match (Drive.start d).perform sabotage (.makeDirs root) with
  | (v, some f) => ⟨v, .error (notWritten root f), []⟩
  | (v, none) =>
    match deleteTargets v.disk root s.deletes with
    | .error f => ⟨v, .error f, []⟩
    | .ok deletes =>
      match writeTargets v.disk root (sortedWrites s) with
      | .error f => ⟨v, .error f, []⟩
      | .ok writes => commitTargets sabotage v root deletes writes

end StagedEdits
