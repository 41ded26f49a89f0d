import StagedEdits.Fault
import StagedEdits.Path.FilePath
import StagedEdits.Text.Quoted

set_option autoImplicit false

/-! # Disk faults

Why something could not be done on a disk.

Main definitions: `DiskCause`, `DiskFault`, `DiskFault.text`. -/

namespace StagedEdits

/-- The causes that a disk itself reports. -/
inductive DiskCause where
  /-- There is nothing at a path. -/
  | missing
  | busy
  /-- There is something at a path already. -/
  | taken
  /-- A path leads through something that is no directory. -/
  | notDirectory
  /-- A directory stands where a file is wanted. -/
  | isDirectory
  /-- What is asked for cannot be. -/
  | invalid
  /-- A name or a path is too long. -/
  | nameTooLong
  | notEmpty
  /-- A path leads through too many links. -/
  | tooManyLinks
  deriving DecidableEq, Inhabited, Repr

namespace DiskCause

/-- The number of a cause. -/
def number : DiskCause → Nat
  | .missing => 2
  | .busy => 16
  | .taken => 17
  | .notDirectory => 20
  | .isDirectory => 21
  | .invalid => 22
  | .nameTooLong => 36
  | .notEmpty => 39
  | .tooManyLinks => 40

/-- The wording of a cause. -/
def wording : DiskCause → String
  | .missing => "No such file or directory"
  | .busy => "Device or resource busy"
  | .taken => "File exists"
  | .notDirectory => "Not a directory"
  | .isDirectory => "Is a directory"
  | .invalid => "Invalid argument"
  | .nameTooLong => "File name too long"
  | .notEmpty => "Directory not empty"
  | .tooManyLinks => "Too many levels of symbolic links"

/-- The name of the kind of failure that a cause is. -/
def kind : DiskCause → String
  | .missing => "FileNotFoundError"
  | .taken => "FileExistsError"
  | .notDirectory => "NotADirectoryError"
  | .isDirectory => "IsADirectoryError"
  | _ => "OSError"

/-- Whether a cause means no more than that there is nothing to be found. -/
def isAbsence : DiskCause → Bool
  | .missing | .notDirectory | .tooManyLinks => true
  | _ => false

end DiskCause

/-- Something that could not be done on a disk: a `DiskCause` and where, or why there is none. -/
inductive DiskFault where
  | at (cause : DiskCause) (path : FilePath)
  /-- With a move from one path to another. -/
  | moving (cause : DiskCause) (source target : FilePath)
  /-- For a reason of its own. -/
  | told (message : String)
  | nul
  deriving DecidableEq, Inhabited

namespace DiskFault

/-- The number and wording of a cause. -/
def causeText (c : DiskCause) : String := "[Errno " ++ toString c.number ++ "] " ++ c.wording

/-- The text of a fault. -/
def text : DiskFault → String
  | .at c p => causeText c ++ ": " ++ quoted p.text
  | .moving c p q => causeText c ++ ": " ++ quoted p.text ++ " -> " ++ quoted q.text
  | .told m => m
  | .nul => "embedded null byte"

/-- The name of a fault's kind. -/
def kind : DiskFault → String
  | .at c _ => c.kind
  | .moving c _ _ => c.kind
  | .told _ => "OSError"
  | .nul => "ValueError"

/-- A fault as a failure. -/
def toFailure (f : DiskFault) : Failure := .other f.kind f.text

end DiskFault

end StagedEdits
