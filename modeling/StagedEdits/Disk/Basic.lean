set_option autoImplicit false

/-! # Disks

The files, directories and links of a disk, by the place they are at: the list of names on the way
from the root, none of which is a link. The root is always a directory.

Main definitions: `Place`, `Node`, `Disk`, `Disk.node?`, `Disk.put`, `Disk.drop`. -/

namespace StagedEdits

/-- Where something is on a disk: the names from the root down. -/
abbrev Place : Type := List String

instance decidableEqBytes : DecidableEq ByteArray := ByteArray.decEq

/-- What is at a place. -/
inductive Node where
  | file (bytes : ByteArray)
  | dir
  /-- A link to the path that is written in it. -/
  | link (target : String)
  deriving DecidableEq, Inhabited

/-- A disk: which `Node` is at which place, in the order they came there. -/
structure Disk where
  /-- The places below the root with what is there; the first entry of a place counts. -/
  entries : List (Place × Node)
  deriving DecidableEq, Inhabited

namespace Disk

/-- A disk without anything below its root. -/
def empty : Disk := ⟨[]⟩

/-- The node of a place in some entries. -/
def lookup (p : Place) : List (Place × Node) → Option Node
  | [] => none
  | (q, n) :: rest => if q = p then some n else lookup p rest

/-- What is at `p`. -/
def node? (d : Disk) (p : Place) : Option Node :=
  if p = [] then some .dir else lookup p d.entries

/-- The disk `d` without what is at `p`. -/
def drop (d : Disk) (p : Place) : Disk := ⟨d.entries.filter (fun e => e.1 ≠ p)⟩

/-- The disk `d` with `n` at `p`, instead of what was there. -/
def put (d : Disk) (p : Place) (n : Node) : Disk := ⟨(d.drop p).entries ++ [(p, n)]⟩

/-- The entries below `p`, by the names from there on. -/
def below (d : Disk) (p : Place) : List (Place × Node) :=
  d.entries.filterMap (fun e =>
    if p.isPrefixOf e.1 && e.1 != p then some (e.1.drop p.length, e.2) else none)

/-- Whether a node is a directory. -/
def isDirNode : Option Node → Bool
  | some .dir => true
  | _ => false

/-! ## What the changes do -/

theorem lookup_filter {p q : Place} {es : List (Place × Node)} :
    lookup q (es.filter (fun e => e.1 ≠ p)) = if q = p then none else lookup q es := by
  induction es with
  | nil => simp [lookup]
  | cons e es ih =>
    obtain ⟨r, n⟩ := e
    simp only [List.filter_cons]
    split
    · simp only [lookup, ih]; grind
    · simp only [lookup, ih]; grind

theorem lookup_append {q : Place} {es fs : List (Place × Node)} :
    lookup q (es ++ fs) = (lookup q es).or (lookup q fs) := by
  induction es with
  | nil => simp [lookup]
  | cons e es ih =>
    obtain ⟨r, n⟩ := e
    simp only [List.cons_append, lookup]
    split
    · simp
    · exact ih

@[simp] theorem node?_nil (d : Disk) : d.node? [] = some .dir := by simp [node?]

/-- Dropping a place leaves nothing there and all else as it was. -/
theorem node?_drop (d : Disk) {p : Place} (hp : p ≠ []) (q : Place) :
    (d.drop p).node? q = if q = p then none else d.node? q := by
  simp only [node?, drop, lookup_filter]
  grind

/-- Putting a node at a place puts it there and leaves all else as it was. -/
theorem node?_put (d : Disk) {p : Place} (hp : p ≠ []) (n : Node) (q : Place) :
    (d.put p n).node? q = if q = p then some n else d.node? q := by
  simp only [node?, put, drop, lookup_append, lookup_filter, lookup]
  grind

end Disk

end StagedEdits
