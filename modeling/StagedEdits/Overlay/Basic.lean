import StagedEdits.Overlay.Base

set_option autoImplicit false

/-! # The overlay

The pending writes, deletes and renames of a turn over a base tree. A pending write hides the base
file of its path, a pending delete makes the path absent. A rename is a delete of its source and a
write of its target, and is remembered so that it can be shown.

Main definitions: `Overlay`, `Overlay.view`, `Overlay.write`, `Overlay.delete`, `Overlay.rename`. -/

namespace StagedEdits

/-- The pending changes of a turn. -/
structure Overlay where
  writes : Table String
  /-- The paths that will be gone. -/
  deletes : Names
  /-- Where files were moved to, by where they came from. -/
  renames : Table String
  /-- The paths whose pending content was written as a whole. -/
  closed : Names
  deriving DecidableEq, Inhabited

namespace Overlay

/-- An overlay without changes. -/
def empty : Overlay := ⟨Table.empty, Names.empty, Table.empty, Names.empty⟩

/-- Whether nothing is pending. -/
def isEmpty (o : Overlay) : Bool :=
  o.writes.isEmpty && o.deletes.isEmpty && o.renames.isEmpty

/-- What `path` reads as over `base`: the pending content if there is one, nothing if the path is
    deleted, else what the base has. -/
def view (base : BaseTree) (o : Overlay) (path : String) : Option String :=
  match o.writes.get? path with
  | some content => some content
  | none => if path ∈ o.deletes then none else base.read path

/-- Whether a file is at `path`. -/
def has (base : BaseTree) (o : Overlay) (path : String) : Bool :=
  if o.writes.has path then true
  else if path ∈ o.deletes then false
  else base.has path

/-- Whether looking at `path` reaches the base. -/
def reachesBase (o : Overlay) (path : String) : Bool :=
  !o.writes.has path && !decide (path ∈ o.deletes)

/-! ## Changes -/

/-- Forgets the renames of which `p` holds. -/
def forgetRenames (o : Overlay) (p : (source target : String) → Bool) : Overlay :=
  { o with renames := o.renames.filter (fun s t => !p s t) }

/-- Deletes `path`. What was moved to it is gone. -/
def delete (o : Overlay) (path : String) : Overlay :=
  { o with
    writes := o.writes.erase path
    deletes := o.deletes.insert path
    closed := o.closed.erase path }.forgetRenames (fun _ target => target == path)

/-- Writes `content` at `path` as a whole. A file that was moved away from it counts as moved no
    longer. -/
def write (o : Overlay) (path content : String) : Overlay :=
  { o with
    writes := o.writes.set path content
    deletes := o.deletes.erase path
    closed := o.closed.insert path }.forgetRenames (fun source _ => source == path)

/-- Where the file at `path` came from: the sources that were moved there, or the path itself. -/
def origins (o : Overlay) (path : String) : List String :=
  match (o.renames.rows.filter (fun r => r.2 == path)).map Prod.fst with
  | [] => [path]
  | l => l

/-- Moves the file at `source`, which has `content`, to `target`. Two moves in a row count as one,
    from where the file first was. -/
def move (o : Overlay) (source target content : String) : Overlay :=
  let moved : Overlay :=
    { o with
      writes := (o.writes.erase source).set target content
      deletes := (o.deletes.erase target).insert source
      closed := o.closed.erase source }
  let kept := moved.forgetRenames (fun s t => s == target || t == source)
  { kept with
    renames := (o.origins source).foldl
      (fun table s => if s == target then table else table.set s target) kept.renames }

/-- The overlay as a JSON object. -/
def toJson (o : Overlay) : Json :=
  .obj [("writes", .obj (o.writes.rows.map (fun r => (r.1, .str r.2)))),
    ("deletes", .texts o.deletes.toList),
    ("renames", .obj (o.renames.rows.map (fun r => (r.1, .str r.2)))),
    ("closed_writes", .texts o.closed.toList), ("empty", .bool o.isEmpty)]

/-- How an overlay is named in a message. -/
def summary (o : Overlay) : String :=
  "OverlayStore(writes=" ++ toString o.writes.size ++ ", deletes=" ++ toString o.deletes.size ++
    ", renames=" ++ toString o.renames.size ++ ")"

end Overlay

/-! ## Snapshots -/

/-- The pending changes of one moment, as they are handed on. -/
structure Snapshot where
  writes : Table String
  deletes : List String
  renames : Table String
  deriving DecidableEq, Inhabited

/-- The pending changes of an overlay; the deletes are sorted. -/
def Overlay.snapshot (o : Overlay) : Snapshot := ⟨o.writes, o.deletes.toList, o.renames⟩

namespace Snapshot

/-- The files that there would be: those of `base` that are neither deleted nor written, in the
    order they are listed, and those written. -/
def materialize (base : BaseTree) (s : Snapshot) : Table String :=
  let kept := base.listing.filter (fun p => !s.deletes.contains p && !s.writes.has p)
  let files := kept.filterMap (fun p => (base.read p).map (fun content => (p, content)))
  Table.ofList (files ++ s.writes.rows)

/-- The files that there would be, unless `base` cannot be listed. -/
def effectiveFiles (base : BaseTree) (s : Snapshot) : Except Failure (Table String) :=
  match base.unlistable with
  | some f => .error f
  | none => .ok (s.materialize base)

/-- What `materialize` says. -/
def materializeEntries (base : BaseTree) (s : Snapshot) : List Entry :=
  (base.listing.filter (fun p => !s.deletes.contains p && !s.writes.has p)).flatMap base.said

end Snapshot

end StagedEdits
