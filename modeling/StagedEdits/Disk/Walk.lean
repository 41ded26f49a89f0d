import StagedEdits.Disk.Basic
import StagedEdits.Disk.Fault

set_option autoImplicit false

/-! # Walking paths

Where a path leads on a disk. A walk follows every link on its way, through at most forty of them.
It goes along the pieces between the slashes that are written, also the empty ones: a piece that is
empty or a dot is passed over, but only a directory has it.

Resolving a path goes further than walking it: it takes `..` back by name only and keeps the names
that lead nowhere. Where a link leads back into itself, the rest of what is written stays as it is.

Main definitions: `Errand`, `Disk.walk`, `Disk.locate`, `Disk.resolve`, `Disk.isWithin`. -/

namespace StagedEdits

/-- The most bytes of a name. -/
def maxNameBytes : Nat := 255

/-- The most bytes of a path, with one to end it. -/
def maxPathBytes : Nat := 4096

/-- The most links that a walk goes through. -/
def maxLinks : Nat := 40

/-- Whether a name is too long. -/
def isLongName (n : String) : Bool := maxNameBytes < n.utf8ByteSize

namespace FilePath

/-- Whether a path is too long as a whole. -/
def isLong (p : FilePath) : Bool := maxPathBytes ≤ p.text.utf8ByteSize

/-- Whether a path holds a NUL. -/
def hasNul (p : FilePath) : Bool := p.names.any (fun n => n.toList.contains '\x00')

end FilePath

namespace Disk

/-! ## Walking -/

/-- What a walk is for. -/
inductive Errand where
  /-- What stands at the very end of the path, which may be a link. -/
  | entry
  | content
  /-- A file that is made where the path leads to, if it is not there. -/
  | making
  deriving DecidableEq

/-- The pieces of a text between its slashes. -/
def piecesOf (target : String) : List String := (splitOnChar '/' target.toList).map String.ofList

/-- Whether nothing but slashes is left of a path. -/
def isSlashes (rest : List String) : Bool := rest.all (· == "")

/-- Walks along the pieces of a path from `here`, through at most `links` links. What is found need
    not be there, as long as the directory it would be in is. A file is not made where a slash
    follows on its name. -/
def walk (d : Disk) (errand : Errand) (links : Nat) (here : Place) :
    List String → Except DiskCause Place
  | [] => .ok here
  | n :: rest =>
    if !isDirNode (d.node? here) then .error .notDirectory
    else if n == "" || n == "." then d.walk errand links here rest
    else if n == ".." then d.walk errand links here.dropLast rest
    else if errand == .making && !rest.isEmpty && isSlashes rest then .error .isDirectory
    else if isLongName n then .error .nameTooLong
    else
      match d.node? (here ++ [n]) with
      | none => if isSlashes rest then .ok (here ++ [n]) else .error .missing
      | some (.link target) =>
        if rest.isEmpty && errand == .entry then .ok (here ++ [n])
        else
          match links with
          | 0 => .error .tooManyLinks
          | links + 1 =>
            let start := if (FilePath.ofText target).isAbsolute then [] else here
            d.walk errand links start (piecesOf target ++ rest)
      | some _ => d.walk errand links (here ++ [n]) rest
termination_by pieces => (links, pieces.length)

/-- The place that `p` leads to, for the sake of `errand`. -/
def locate (d : Disk) (errand : Errand) (p : FilePath) : Except DiskCause Place :=
  if p.isLong then .error .nameTooLong else d.walk errand maxLinks [] p.names

/-- What `p` leads to, all links followed. -/
def look (d : Disk) (p : FilePath) : Except DiskCause Node :=
  match d.locate .content p with
  | .error c => .error c
  | .ok place =>
    match d.node? place with
    | none => .error .missing
    | some n => .ok n

/-- Whether what `p` leads to passes `test`; nothing passes where there is nothing. -/
def looksLike (d : Disk) (test : Node → Bool) (p : FilePath) : Except DiskFault Bool :=
  if p.hasNul then .ok false
  else
    match d.look p with
    | .ok n => .ok (test n)
    | .error c => if c.isAbsence then .ok false else .error (.at c p)

/-- Whether `p` leads to a file. -/
def isFile (d : Disk) (p : FilePath) : Except DiskFault Bool :=
  d.looksLike (fun n => match n with | .file _ => true | _ => false) p

/-- Whether `p` leads to a directory. -/
def isDir (d : Disk) (p : FilePath) : Except DiskFault Bool :=
  d.looksLike (fun n => match n with | .dir => true | _ => false) p

/-! ## Resolving -/

/-- How following links ends. -/
inductive Followed where
  /-- At a place, which need not be there. -/
  | place (p : Place)
  /-- At a link that leads back into itself: the path as far as it was followed, and the rest of
      it. -/
  | loop (p : FilePath)
  deriving DecidableEq

/-- What the link `n` in `here` leads to, if there is one and the way to it is there. -/
def linkAt? (d : Disk) (here : Place) (n : String) : Option String :=
  if isLongName n || FilePath.isLong ⟨1, here ++ [n]⟩ || !isDirNode (d.node? here) then none
  else
    match d.node? (here ++ [n]) with
    | some (.link target) => some target
    | _ => none

/-- The path `p` with the pieces `rest` behind it that nobody followed. If a slash comes first they
    stand alone. -/
def unfollowed (p : FilePath) (rest : List String) : FilePath := p.joinText ("/".intercalate rest)

/-- Follows the links along pieces from a place, inside the links that are `open`. Every link that is
    entered is one more that is open, so `depth` bounds how deep links lead into each other. -/
def follow (d : Disk) (depth : Nat) (openLinks : List Place) (here : Place) :
    List String → Followed
  | [] => .place here
  | n :: rest =>
    if n == "" || n == "." then d.follow depth openLinks here rest
    else if n == ".." then d.follow depth openLinks here.dropLast rest
    else
      match d.linkAt? here n with
      | none => d.follow depth openLinks (here ++ [n]) rest
      | some target =>
        if openLinks.contains (here ++ [n]) then .loop (unfollowed ⟨1, here ++ [n]⟩ rest)
        else
          match depth with
          | 0 => .loop (unfollowed ⟨1, here ++ [n]⟩ rest)
          | depth + 1 =>
            match d.follow depth ((here ++ [n]) :: openLinks)
                (if (FilePath.ofText target).isAbsolute then [] else here) (piecesOf target) with
            | .loop p => .loop (unfollowed p rest)
            | .place p => d.follow (depth + 1) openLinks p rest
termination_by pieces => (depth, pieces.length)

/-- A path from the root with every `..` taken back by name. -/
def takeBackUps (p : FilePath) : FilePath :=
  ⟨p.slashes, p.names.foldl (fun kept n => if n == ".." then kept.dropLast else kept ++ [n]) []⟩

/-- The failure of resolving a path that leads back into itself. -/
def loopFailure (p : FilePath) : Failure :=
  .other "RuntimeError" ("Symlink loop from " ++ quoted p.text)

/-- Where a path leads once all links are followed. A link that leads back into itself is a failure
    only if it is still on the way after every `..` behind it was taken back. -/
def resolve (d : Disk) (p : FilePath) : Except Failure FilePath :=
  match d.follow (d.entries.length + 1) [] [] p.names with
  | .place q => .ok ⟨1, q⟩
  | .loop q =>
    match d.look (takeBackUps q) with
    | .error .tooManyLinks => .error (loopFailure (takeBackUps q))
    | _ => .ok (takeBackUps q)

/-- Whether `p` leads to a place inside `root`. A path that cannot be, as it holds a NUL, is not
    inside. -/
def isWithin (d : Disk) (root p : FilePath) : Except Failure Bool := do
  if p.hasNul then return false
  else
    let candidate ← d.resolve p
    if root.hasNul then return false
    else
      let top ← d.resolve root
      return top.slashes == candidate.slashes && top.names.isPrefixOf candidate.names

end Disk

end StagedEdits
