import StagedEdits.Disk.Operation
import StagedEdits.Overlay.Base
import StagedEdits.Text.Lines
import StagedEdits.Text.Utf8

set_option autoImplicit false

/-! # A project on a disk

The files of a project directory as a base tree. A file reads as the text it holds, with unified
newlines; one that is no text reads as nothing. The listing leaves out what is in a directory that
is ignored or under a name that starts with a dot, and does not enter linked directories.

Main definitions: `Disk.readText`, `Disk.listFiles`, `Disk.project`. -/

namespace StagedEdits

namespace Disk

/-! ## Reading -/

/-- The bytes of the file that `p` leads to. -/
def bytes? (d : Disk) (p : FilePath) : Option ByteArray :=
  if p.hasNul then none
  else
    match d.look p with
    | .ok (.file bytes) => some bytes
    | _ => none

/-- The text that some bytes are. -/
def textOf? (bytes : ByteArray) : Option String :=
  (String.fromUTF8? bytes).map (fun s => String.ofList (unifyNewlines s.toList))

/-- The text of the file that `p` leads to, each end of a line read as a line feed. -/
def readText (d : Disk) (p : FilePath) : Option String := (d.bytes? p).bind textOf?

/-- What reading `path`, which stands for `p`, says: why the bytes of the file are no text. -/
def readEntries (d : Disk) (path : String) (p : FilePath) : List Entry :=
  match d.bytes? p with
  | none => []
  | some bytes =>
    match Utf8.defect? 0 bytes.toList with
    | none => []
    | some defect =>
      [.note "OVERLAY" ("❌ Base read failed: " ++ path ++ " - " ++ defect.message)]

/-! ## Listing -/

/-- Whether one list of names comes no later than another. -/
def leNames : List String → List String → Bool
  | [], _ => true
  | _ :: _, [] => false
  | a :: as, b :: bs => if a = b then leNames as bs else decide (a < b)

/-- Whether a listing leaves out what `n` names: it is one of `ignored` or starts with a dot. -/
def isHiddenName (ignored : List String) (n : String) : Bool :=
  ignored.contains n || n.toList.head? == some '.'

/-- The path of the entry `names` below `root`. -/
def entryPath (root : FilePath) (names : List String) : FilePath :=
  ⟨root.slashes, root.names ++ names⟩

/-- Whether `p` leads to a file, also through a link. -/
def isFileEntry (d : Disk) (p : FilePath) : Bool :=
  match d.isFile p with
  | .ok b => b
  | .error _ => false

/-- The entries below the directory `root`, by the names from there on. -/
def entriesBelow (d : Disk) (root : FilePath) : List (Place × Node) :=
  match d.locate .content root with
  | .error _ => []
  | .ok top => d.below top

/-- The files below `root` as paths from there, in order of their names, without those that
    `isHiddenName` leaves out. -/
def listFiles (d : Disk) (root : FilePath) (ignored : List String) : List String :=
  let shown := ((d.entriesBelow root).map Prod.fst).filter (fun names =>
    !names.any (isHiddenName ignored) && d.isFileEntry (entryPath root names))
  (shown.mergeSort leNames).map ("/".intercalate ·)

/-! ## The base tree -/

/-- The failure of so much as looking at `p`. -/
def lookFailure (d : Disk) (p : FilePath) : Option Failure :=
  match d.isFile p with
  | .ok _ => none
  | .error f => some f.toFailure

/-- What a walk over a tree does with the links in it. It enters none of them. -/
inductive TreeWalk where
  /-- It asks each link whether it leads to a directory. -/
  | asksLinks
  /-- It passes over them. -/
  | passesLinks
  deriving DecidableEq

/-- Whether listing the files below a directory looks at the entry `e`: at a directory always, at a
    link if `walk` asks it, and at what is not left out. -/
def TreeWalk.looksAt (walk : TreeWalk) (ignored : List String) (e : Place × Node) : Bool :=
  match e.2 with
  | .dir => true
  | .link _ => walk = .asksLinks || !e.1.any (isHiddenName ignored)
  | .file _ => !e.1.any (isHiddenName ignored)

/-- The failure of listing the files below `root`: of looking at `root` itself or at an entry below
    it. -/
def listingFailure (d : Disk) (root : FilePath) (ignored : List String) (walk : TreeWalk) :
    Option Failure :=
  match d.lookFailure root with
  | some f => some f
  | none =>
    ((d.entriesBelow root).filter (walk.looksAt ignored)).findSome? (fun e =>
      d.lookFailure (entryPath root e.1))

/-- The directory `root` of the disk `d` as a base tree. -/
def project (d : Disk) (root : FilePath) (ignored : List String) (walk : TreeWalk) : BaseTree :=
  { root := some root
    read := fun path => d.readText (root.joinText path)
    has := fun path => (d.bytes? (root.joinText path)).isSome
    listing := d.listFiles root ignored
    unlistable := d.listingFailure root ignored walk
    trouble := fun path => d.lookFailure (root.joinText path)
    said := fun path => d.readEntries path (root.joinText path) }

end Disk

end StagedEdits
