import StagedEdits.Disk.Walk

set_option autoImplicit false

/-! # Disk operations

Making directories, writing, removing and moving files. On its own each operation either fails and
leaves the disk as it was, or does what it says; only making a chain of directories may stop half
way. An operation of a `Drive` may also be made to break off: then some of the directories of a
chain are there, or a file with the beginning of what it was to hold. Removing and moving are done
in one step or not at all.

Main definitions: `Disk.makeDir`, `Disk.makeDirs`, `Disk.writeFile`, `Disk.removeFile`,
`Disk.moveFile`, `DiskOp`, `Drive.perform`. -/

namespace StagedEdits

namespace Disk

/-- The directory that the last name of a path is in, and that name; for a path without names, or
    that ends in `..`, there is no such name. -/
def locateParent (d : Disk) (p : FilePath) : Except DiskCause (Option (Place × String)) :=
  match p.names.getLast? with
  | none => .ok none
  | some n =>
    match if p.isLong then .error .nameTooLong else d.walk .content maxLinks [] p.names.dropLast with
    | .error c => .error c
    | .ok dir =>
      match d.node? dir with
      | some .dir => .ok (if n == ".." then none else some (dir, n))
      | some _ => .error .notDirectory
      | none => .error .missing

/-- The place of `n` in the directory `dir`. -/
def entryPlace (dir : Place) (n : String) : Except DiskCause Place :=
  if isLongName n then .error .nameTooLong else .ok (dir ++ [n])

/-- The place that `p` leads to if its last name is not followed; none if there is no such name. -/
def locateEntry (d : Disk) (p : FilePath) : Except DiskCause (Option Place) :=
  match d.locateParent p with
  | .error c => .error c
  | .ok none => .ok none
  | .ok (some (dir, n)) => (entryPlace dir n).map some

/-! ## Directories -/

/-- Makes the directory `p`. -/
def makeDir (d : Disk) (p : FilePath) : Except DiskFault Disk :=
  if p.hasNul then .error .nul
  else
    match d.locateEntry p with
    | .error c => .error (.at c p)
    | .ok none => .error (.at .taken p)
    | .ok (some place) =>
      match d.node? place with
      | some _ => .error (.at .taken p)
      | none => .ok (d.put place .dir)

/-- Makes the directory `p`, unless it is there. -/
def ensureDir (d : Disk) (p : FilePath) : Except DiskFault Disk :=
  match d.makeDir p with
  | .ok d' => .ok d'
  | .error .nul => .error .nul
  | .error f =>
    match d.isDir p with
    | .ok true => .ok d
    | .ok false => .error f
    | .error g => .error g

/-- The path without its last name, if it has one. -/
def shorter? (p : FilePath) : Option FilePath :=
  if p.names.isEmpty then none else some p.parent

/-- Makes a directory and those it is in, as far as they are not there; `depth` bounds how many.
    The disk in the answer holds what was made before a fault. -/
def makeDirsUpTo (d : Disk) (p : FilePath) : (depth : Nat) → Disk × Option DiskFault
  | 0 => (d, none)
  | depth + 1 =>
    match d.makeDir p with
    | .ok d' => (d', none)
    | .error (.at .missing q) =>
      match shorter? p with
      | none => (d, some (.at .missing q))
      | some parent =>
        match d.makeDirsUpTo parent depth with
        | (d', some f) => (d', some f)
        | (d', none) =>
          match d'.ensureDir p with
          | .ok d'' => (d'', none)
          | .error f => (d', some f)
    | .error _ =>
      match d.ensureDir p with
      | .ok d' => (d', none)
      | .error f => (d, some f)

/-- Makes the directory `p` and those it is in, as far as they are not there. -/
def makeDirs (d : Disk) (p : FilePath) : Disk × Option DiskFault :=
  d.makeDirsUpTo p (p.names.length + 1)

/-! ## Files -/

/-- Writes a file of `bytes` at `p`, through a link if there is one. -/
def writeFile (d : Disk) (p : FilePath) (bytes : ByteArray) : Except DiskFault Disk :=
  if p.hasNul then .error .nul
  else
    match d.locate .making p with
    | .error c => .error (.at c p)
    | .ok place =>
      match d.node? place with
      | some .dir => .error (.at .isDirectory p)
      | _ => .ok (d.put place (.file bytes))

/-- Removes the file or link at `p`. -/
def removeFile (d : Disk) (p : FilePath) : Except DiskFault Disk :=
  if p.hasNul then .error .nul
  else
    match d.locateEntry p with
    | .error c => .error (.at c p)
    | .ok none => .error (.at .isDirectory p)
    | .ok (some place) =>
      match d.node? place with
      | none => .error (.at .missing p)
      | some .dir => .error (.at .isDirectory p)
      | some _ => .ok (d.drop place)

/-- Moves what is at the place `a` to the place `b`. -/
def moveEntry (d : Disk) (a b : Place) : Except DiskCause Disk :=
  match d.node? a with
  | none => .error .missing
  | some .dir => .error .invalid
  | some n =>
    if a = b then .ok d
    else if isDirNode (d.node? b) then
      .error (if b.isPrefixOf a then .notEmpty else .isDirectory)
    else .ok ((d.drop a).put b n)

/-- Moves the file or link at `source` to `target`, in place of a file or a link that is there.
    The directories that both are in are looked for before either of them is. Directories are not
    moved. -/
def moveFile (d : Disk) (source target : FilePath) : Except DiskFault Disk :=
  if source.hasNul || target.hasNul then .error .nul
  else
    Except.mapError (.moving · source target) (do
      let some (dir, n) ← d.locateParent source
        | do
          let _ ← d.locateParent target
          .error .busy
      let some (dir', n') ← d.locateParent target
        | .error .busy
      let a ← entryPlace dir n
      if (d.node? a).isNone then .error .missing
      else d.moveEntry a (← entryPlace dir' n'))

/-- Puts a link to `target` at `p`, where nothing may be. What a link leads to is written in one
    character or more, but in no more bytes than a path has. -/
def linkFile (d : Disk) (target : String) (p : FilePath) : Except DiskFault Disk :=
  if p.hasNul || target.toList.contains '\x00' then .error .nul
  else if target == "" then .error (.at .missing p)
  else if maxPathBytes ≤ target.utf8ByteSize then .error (.at .nameTooLong p)
  else
    match d.locateEntry p with
    | .error c => .error (.at c p)
    | .ok none => .error (.at .taken p)
    | .ok (some place) =>
      match d.node? place with
      | some _ => .error (.at .taken p)
      | none => .ok (d.put place (.link target))

end Disk

/-! ## Operations that may be made to fail -/

/-- One operation on a disk, as `Disk.run` performs it. -/
inductive DiskOp where
  /-- Make a directory and those it is in. -/
  | makeDirs (p : FilePath)
  | write (p : FilePath) (bytes : ByteArray)
  | remove (p : FilePath)
  | move (source target : FilePath)
  deriving DecidableEq

/-- What operations do on a disk, and where they fail. -/
def Disk.run (d : Disk) : DiskOp → Disk × Option DiskFault
  | .makeDirs p => d.makeDirs p
  | .write p bytes =>
    match d.writeFile p bytes with
    | .ok d' => (d', none)
    | .error f => (d, some f)
  | .remove p =>
    match d.removeFile p with
    | .ok d' => (d', none)
    | .error f => (d, some f)
  | .move source target =>
    match d.moveFile source target with
    | .ok d' => (d', none)
    | .error f => (d, some f)

/-- How a `DiskOp` is made to fail. -/
structure Breakdown where
  message : String
  /-- How far the operation has come by then, in directories or in bytes; none if it has not
      begun. -/
  progress : Option Nat

/-- What there is of an operation that has come so far: the first directories of a chain, or a file
    with the first bytes. -/
def DiskOp.cutShort (progress : Nat) : DiskOp → Option DiskOp
  | .makeDirs p => some (.makeDirs ⟨p.slashes, p.names.take progress⟩)
  | .write p bytes => some (.write p (bytes.extract 0 progress))
  | .remove _ => none
  | .move .. => none

/-- The disk that is left when `op` breaks off after `progress`. -/
def Disk.breakOff (d : Disk) (op : DiskOp) (progress : Option Nat) : Disk :=
  match progress.bind op.cutShort with
  | none => d
  | some part => (d.run part).1

/-- Which operations are made to fail, by their number in the run, and how. -/
abbrev Sabotage : Type := Nat → DiskOp → Option Breakdown

/-- No operation is made to fail. -/
def noSabotage : Sabotage := fun _ _ => none

/-- A disk in the middle of a run of operations, with those that were `performed`. -/
structure Drive where
  disk : Disk
  /-- The operations that were performed on it, each with its fault if it failed. -/
  performed : List (DiskOp × Option DiskFault)

namespace Drive

/-- A disk before the first operation. -/
def start (d : Disk) : Drive := ⟨d, []⟩

/-- The drive after an operation that led to `d`. -/
def record (v : Drive) (d : Disk) (op : DiskOp) (f : Option DiskFault) : Drive :=
  ⟨d, v.performed ++ [(op, f)]⟩

@[simp] theorem record_disk (v : Drive) (d : Disk) (op : DiskOp) (f : Option DiskFault) :
    (v.record d op f).disk = d := rfl

@[simp] theorem record_performed (v : Drive) (d : Disk) (op : DiskOp) (f : Option DiskFault) :
    (v.record d op f).performed = v.performed ++ [(op, f)] := rfl

/-- Performs `op`, unless `sabotage` makes it fail; a failed one may have come part of the way. -/
def perform (sabotage : Sabotage) (v : Drive) (op : DiskOp) : Drive × Option DiskFault :=
  match sabotage v.performed.length op with
  | some b => (v.record (v.disk.breakOff op b.progress) op (some (.told b.message)),
      some (.told b.message))
  | none =>
    let (d, f) := v.disk.run op
    (v.record d op f, f)

end Drive

end StagedEdits
