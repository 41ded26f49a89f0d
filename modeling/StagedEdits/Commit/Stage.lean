import StagedEdits.Disk.Operation
import StagedEdits.Journal

set_option autoImplicit false

/-! # Staging a file

A file is first written beside its target, under a name of its own, and then moved over the target
in one step.

Main definitions: `stageFile`, `replaceFile`. -/

namespace StagedEdits

/-- What a staged file is called: its target with an ending. -/
def stagingEnding : String := ".tmp"

/-- What a file that was moved aside is called: the file with an ending. -/
def backupEnding : String := ".patchloop.bak"

/-- Where the new content of a file is staged. -/
def stagingPath (p : FilePath) : FilePath := p.addSuffix stagingEnding

/-- Where a file is moved aside to. -/
def backupPath (p : FilePath) : FilePath := p.addSuffix backupEnding

/-- A step on a disk: the `drive` after it, what came of it and what was said. -/
structure DiskStep (α : Type) where
  drive : Drive
  outcome : Except Failure α
  entries : List Entry

/-- The failure of writing at `p` because of `f`. A path that cannot be fails by itself. -/
def notWritten (p : FilePath) (f : DiskFault) : Failure :=
  match f with
  | .nul => f.toFailure
  | f => .fault (.persistence p.text f.text)

/-- Removes the file at `p`. That it is not there is no matter; any other fault is only said. -/
def removeQuietly (sabotage : Sabotage) (v : Drive) (p : FilePath) : Drive × List Entry :=
  match v.perform sabotage (.remove p) with
  | (v, none) => (v, [])
  | (v, some (.at .missing _)) => (v, [])
  | (v, some f) => (v, [.note "COMMIT" ("⚠️ Could not remove " ++ p.text ++ ": " ++ f.text)])

/-- Removes files one after the other, each by `removeQuietly`. -/
def removeAllQuietly (sabotage : Sabotage) (v : Drive) : List FilePath → Drive × List Entry
  | [] => (v, [])
  | p :: ps =>
    let (v, said) := removeQuietly sabotage v p
    let (v, more) := removeAllQuietly sabotage v ps
    (v, said ++ more)

/-- Gives up staging for `p` after the fault `f`: what is at `stagingPath p` is removed, if that is
    a path that can be. -/
def abandonStaging (sabotage : Sabotage) (v : Drive) (p : FilePath) (f : DiskFault) :
    DiskStep FilePath :=
  if (stagingPath p).hasNul then ⟨v, .error DiskFault.nul.toFailure, []⟩
  else
    let (v, said) := removeQuietly sabotage v (stagingPath p)
    ⟨v, .error (notWritten p f), said⟩

/-- The failure of staging at a path without names, beside which nothing can be. -/
def namelessPath (p : FilePath) : Failure :=
  .other "ValueError" ("PosixPath(" ++ quoted p.text ++ ") has an empty name")

/-- Writes `content` at `stagingPath p`. The target `p` itself is not touched. -/
def stageFile (sabotage : Sabotage) (v : Drive) (p : FilePath) (content : String) :
    DiskStep FilePath :=
  if p.names.isEmpty then ⟨v, .error (namelessPath p), []⟩
  else
    match v.perform sabotage (.makeDirs p.parent) with
    | (v, some f) => abandonStaging sabotage v p f
    | (v, none) =>
      match v.perform sabotage (.write (stagingPath p) content.toUTF8) with
      | (v, some f) => abandonStaging sabotage v p f
      | (v, none) => ⟨v, .ok (stagingPath p), []⟩

/-- Writes `content` over the file at `p` in one step. -/
def replaceFile (sabotage : Sabotage) (v : Drive) (p : FilePath) (content : String) :
    DiskStep Unit :=
  match stageFile sabotage v p content with
  | ⟨v, .error f, said⟩ => ⟨v, .error f, said⟩
  | ⟨v, .ok staged, said⟩ =>
    match v.perform sabotage (.move staged p) with
    | (v, none) => ⟨v, .ok (), said⟩
    | (v, some f) =>
      let (v, more) := removeQuietly sabotage v staged
      ⟨v, .error (notWritten p f), said ++ more⟩

end StagedEdits
