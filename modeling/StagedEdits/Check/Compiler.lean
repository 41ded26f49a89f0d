import StagedEdits.Check.Report
import StagedEdits.Disk.Operation
import StagedEdits.Journal
import StagedEdits.Number.Binary64
import StagedEdits.Overlay.Basic
import StagedEdits.Text.Utf8

set_option autoImplicit false

/-! # The compiler as a type checker

A snapshot is judged by the compiler in a scratch directory: its files are written there, the
packages of the project are linked beside them, the compiler is run, and its report is read. A
compiler that cannot be run, takes too long, or fails without any finding is a fault of the type
checker and no judgement on the files.

Main definitions: `writeFiles`, `judge`. -/

namespace StagedEdits

/-! ## The scratch directory -/

/-- Writes files, each a path below `dir` and its content, until one cannot be written. -/
def writeFiles (d : Disk) (dir : FilePath) : List (String × String) → Disk × Option DiskFault
  | [] => (d, none)
  | (path, content) :: rest =>
    let target := dir.joinText path
    match d.makeDirs target.parent with
    | (d, some f) => (d, some f)
    | (d, none) =>
      match d.writeFile target content.toUTF8 with
      | .error f => (d, some f)
      | .ok d => writeFiles d dir rest

/-- The directory of the packages. -/
def packagesName : String := "node_modules"

/-- Links the packages of a project into `dir`, if it has any. -/
def linkPackages (d : Disk) (dir : FilePath) : Option FilePath → Except Failure Disk
  | none => .ok d
  | some root =>
    let source := root.joinText packagesName
    match d.isDir source with
    | .error f => .error f.toFailure
    | .ok false => .ok d
    | .ok true =>
      match d.resolve source with
      | .error f => .error f
      | .ok packages =>
        let link := dir.joinText packagesName
        match d.linkFile packages.text link with
        | .ok d => .ok d
        | .error (.at c _) => .error (DiskFault.moving c packages link).toFailure
        | .error f => .error f.toFailure

/-! ## Running the compiler -/

/-- What becomes of a compiler that is run. -/
inductive CompilerRun where
  | absent
  /-- It ends with a code, having printed some bytes. -/
  | ended (code : Int) (output : List UInt8)
  | endless
  /-- The check is cancelled while it runs. -/
  | interrupted

/-- How a judgement went. -/
structure Judgement where
  /-- The problems, or what was thrown. -/
  outcome : Except Failure (List Problem)
  /-- The disk when the compiler was started, if it was. -/
  atStart : Option Disk
  /-- Whether the compiler was stopped and waited for. -/
  stopped : Bool
  entries : List Entry

/-- The fault of a compiler that is of no use, at the first try. -/
def useless (reason : String) : Failure := .fault (.checkerUnavailable reason 1)

/-- The most characters of an output that are quoted. -/
def tailLength : Nat := 500

/-- The last characters of an output, without the blanks around it. -/
def outputTail (output : List Char) : String :=
  let cs := trim output
  String.ofList (cs.drop (cs.length - tailLength))

/-- What `output` comes to behind the exit code `code`; `files` has the source lines. -/
def readOutput (files : Table String) (code : Int) (output : List Char) :
    Except Failure (List Problem) :=
  match readReport files output with
  | .error f => .error (.other "ValueError" f.message)
  | .ok ps =>
    if code != 0 && ps.isEmpty then
      .error (useless ("tsc exited with " ++ toString code ++ " without diagnostics: " ++
        outputTail output))
    else .ok ps

/-- What a judgement says at its end. -/
def verdictEntry (ps : List Problem) : Entry :=
  .note "TYPECHECK" ((if ps.isEmpty then "✅" else "❌") ++ " tsc reported " ++
    toString ps.length ++ " problems")

/-- Runs `command` over `files`, which are in place on `d`; `process` is what becomes of it. A
    `timeout` that is not positive is over before the compiler can answer; one that is too large for
    a clock fails once the compiler is started. -/
def runCompiler (command : List String) (timeout : Seconds) (files : Table String) (d : Disk)
    (said : List Entry) (process : CompilerRun) : Judgement :=
  let left (f : Failure) (stopped : Bool) : Judgement :=
    { outcome := .error f, atStart := some d, stopped, entries := said }
  let late := left (useless ("tsc timed out after " ++ timeout.text ++ "s")) true
  match process with
  | .absent => left (useless ("command not found: " ++ command.headD "")) false
  | process =>
    if timeout.isNegative || timeout.isZero then late
    else if timeout.isEndless then left .clockOverflow false
    else
      match process with
      | .interrupted => left .cancelled true
      | .ended code bytes =>
        match readOutput files code (Utf8.decodeLossy bytes) with
        | .error f => left f false
        | .ok ps =>
          { outcome := .ok ps, atStart := some d, stopped := false,
            entries := said ++ [verdictEntry ps] }
      | _ => late

/-- Judges the snapshot `s` over `base`: its files are written below `scratch`, and `command` is run
    there. -/
def judge (command : List String) (timeout : Seconds) (d : Disk) (scratch : FilePath)
    (base : BaseTree) (s : Snapshot) (process : CompilerRun) : Judgement :=
  let said := s.materializeEntries base
  let broken (f : Failure) (said : List Entry) : Judgement :=
    { outcome := .error f, atStart := none, stopped := false, entries := said }
  match s.effectiveFiles base with
  | .error f => broken f []
  | .ok files =>
    match writeFiles d scratch files.rows with
    | (_, some f) => broken f.toFailure said
    | (d, none) =>
      match linkPackages d scratch base.root with
      | .error f => broken f said
      | .ok d =>
        runCompiler command timeout files d
          (said ++ [.note "TYPECHECK" ("🔍 Running " ++ " ".intercalate command ++ " on " ++
            toString files.size ++ " files")]) process

end StagedEdits
