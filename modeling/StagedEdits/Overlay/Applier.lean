import StagedEdits.Directive
import StagedEdits.Overlay.Basic

set_option autoImplicit false

/-! # Applying directives

Directives change the overlay one by one. A directive that changes nothing is skipped, and a rename
whose source is absent is a fault that stops nothing else. In a batch all deletes come first, then
the renames, the writes and the added packages. What changed something is kept in order, so that a
log of directives can be replayed from where it was broken off.

Main definitions: `Applier`, `Applier.apply`, `Applier.applyBatch`, `Applier.replay`. -/

namespace StagedEdits

/-- An `overlay` with what was applied to it. -/
structure Applier where
  overlay : Overlay
  dependencies : Names
  /-- The directives that changed something, in order. -/
  history : List Directive
  deriving DecidableEq, Inhabited

/-- What one directive came to. -/
inductive Effect where
  | changed
  | unchanged
  /-- The source of a rename is absent. -/
  | missing (source target : String)
  | failed (f : Failure)
  deriving BEq, Inhabited

/-- What is given to apply: a directive, a directive with its span, or a value of another type. -/
inductive Item where
  | directive (d : Directive)
  /-- A directive with the span of its tag. -/
  | parsed (p : Parsed)
  /-- A value of the named type. -/
  | foreign (typeName : String)
  deriving DecidableEq

/-- The directive of an item. -/
def Item.directive? : Item → Option Directive
  | .directive d => some d
  | .parsed p => some p.directive
  | .foreign _ => none

/-- The failure of applying a value of another type. -/
def unknownType (typeName : String) : Failure :=
  .other "TypeError" ("Unknown directive type: " ++ typeName)

/-- What some directives came to: each `Effect` has its list. -/
structure Batch where
  applied : List Directive
  skipped : List Directive
  errors : List Fault
  /-- The failure that stopped the batch. -/
  stopped : Option Failure
  entries : List Entry
  deriving Inhabited

namespace Batch

/-- A batch of nothing. -/
def empty : Batch := ⟨[], [], [], none, []⟩

/-- Whether a batch changed anything. -/
def changed (b : Batch) : Bool := !b.applied.isEmpty

/-- Whether there is something to tell about a batch. -/
def isNews (b : Batch) : Bool := !b.applied.isEmpty || !b.errors.isEmpty

/-- A batch as a JSON object. -/
def toJson (b : Batch) : Json :=
  .obj [("applied", .arr (b.applied.map Directive.toJson)),
    ("skipped", .arr (b.skipped.map Directive.toJson)),
    ("errors", .arr (b.errors.map Fault.toJson)), ("changed", .bool b.changed)]

end Batch

namespace Applier

/-- Nothing applied. -/
def empty : Applier := ⟨Overlay.empty, Names.empty, []⟩

/-! ## One directive -/

/-- Deletes `path`, unless it is deleted already. -/
def delete (a : Applier) (path : String) : Applier × Effect :=
  if path ∈ a.overlay.deletes then (a, .unchanged)
  else ({ a with overlay := a.overlay.delete path }, .changed)

/-- Moves `source` to `target`, if it is there and the two differ. -/
def rename (base : BaseTree) (a : Applier) (source target : String) : Applier × Effect :=
  if source = target then (a, .unchanged)
  else
    match if a.overlay.reachesBase source then base.trouble source else none with
    | some f => (a, .failed f)
    | none =>
      match a.overlay.view base source with
      | none => (a, .missing source target)
      | some content => ({ a with overlay := a.overlay.move source target content }, .changed)

/-- Writes `content` at `path`, unless it was written just so. -/
def write (a : Applier) (path content : String) : Applier × Effect :=
  if path ∈ a.overlay.closed ∧ a.overlay.writes.get? path = some content then (a, .unchanged)
  else ({ a with overlay := a.overlay.write path content }, .changed)

/-- Adds `packages`, if any of them is new. -/
def addPackages (a : Applier) (packages : Names) : Applier × Effect :=
  if (packages.diff a.dependencies).isEmpty then (a, .unchanged)
  else ({ a with dependencies := a.dependencies.union packages }, .changed)

/-- Applies one directive over `base`, without keeping it. -/
def apply (base : BaseTree) (a : Applier) : Directive → Applier × Effect
  | .delete path => a.delete path
  | .rename source target => a.rename base source target
  | .write path content _ => a.write path content
  | .addDependency packages => a.addPackages packages

/-- What applying `d` says. -/
def applyEntries (base : BaseTree) (session : String) (a : Applier) (d : Directive) :
    List Entry :=
  let looked : List Entry :=
    match d with
    | .rename source target =>
      if source != target && a.overlay.reachesBase source then base.said source else []
    | _ => []
  match d, (a.apply base d).2 with
  | .delete path, .changed => [.note "OVERLAY" ("🗑️ Pending delete: " ++ path)]
  | .rename source target, .changed =>
    looked ++ [.note "OVERLAY" ("🔀 Pending rename: " ++ source ++ " -> " ++ target)]
  | .write path content _, .changed =>
    [.note "OVERLAY" ("✍️ Pending write: " ++ path ++ " (" ++ toString content.length ++ " chars)")]
  | .addDependency packages, .changed =>
    [.noteFor session "APPLY" ("📦 Dependencies added: " ++
      " ".intercalate (packages.diff a.dependencies).toList)]
  | _, _ => looked

/-! ## Many directives -/

/-- Applies `d` and keeps what it came to, in the history and in `b`. -/
def applyInto (base : BaseTree) (session : String) (a : Applier) (b : Batch) (d : Directive) :
    Applier × Batch :=
  let said := b.entries ++ a.applyEntries base session d
  match a.apply base d with
  | (a', .changed) =>
    ({ a' with history := a'.history ++ [d] },
      { b with applied := b.applied ++ [d], entries := said })
  | (a', .unchanged) => (a', { b with skipped := b.skipped ++ [d], entries := said })
  | (a', .missing source target) =>
    let fault := Fault.sourceNotFound source target
    (a', { b with
      errors := b.errors ++ [fault]
      entries := said ++ [.noteFor session "APPLY" ("❌ " ++ fault.message)] })
  | (a', .failed f) => (a', { b with stopped := some f, entries := said })

/-- Applies directives in order until one fails, each with `applyInto`. -/
def applyAll (base : BaseTree) (session : String) (a : Applier) (b : Batch) :
    List Directive → Applier × Batch
  | [] => (a, b)
  | d :: ds =>
    let (a', b') := a.applyInto base session b d
    if b'.stopped.isSome then (a', b') else applyAll base session a' b' ds

/-- The place of a directive's kind in a batch: deletes, renames, writes, packages. -/
def rank : Directive → Nat
  | .delete _ => 0
  | .rename .. => 1
  | .write .. => 2
  | .addDependency _ => 3

/-- The directives of a batch in the order they are applied. Within a kind they keep their
    order. -/
def batchOrder (ds : List Directive) : List Directive :=
  [0, 1, 2, 3].flatMap (fun r => ds.filter (fun d => rank d == r))

/-- How many directives changed something, changed nothing and failed. -/
def counts (b : Batch) : String :=
  toString b.applied.length ++ " changed, " ++ toString b.skipped.length ++ " no-op, " ++
    toString b.errors.length ++ " failed"

/-- Adds the line about the batch `b`, if there is something to tell; `what` names it. -/
def conclude (session what : String) (b : Batch) : Batch :=
  if b.stopped.isNone && b.isNews then
    { b with entries := b.entries ++ [.noteFor session "APPLY" (what ++ ": " ++ counts b)] }
  else b

/-- Applies `items` in `batchOrder`: the deletes, then the renames, the writes and the packages.
    Values of other types are overlooked. -/
def applyBatch (base : BaseTree) (session : String) (a : Applier) (items : List Item) :
    Applier × Batch :=
  let (a', b) := a.applyAll base session Batch.empty (batchOrder (items.filterMap Item.directive?))
  (a', conclude session "📝 Batch applied" b)

/-- The number of leading items that are the leading directives of a history. -/
def commonLead : List Item → List Directive → Nat
  | [], _ => 0
  | _, [] => 0
  | i :: is, d :: ds => if i.directive? = some d then commonLead is ds + 1 else 0

/-- Applies items in order until one fails, each with `applyInto`; a value of another type is a
    failure. -/
def applyItems (base : BaseTree) (session : String) (a : Applier) (b : Batch) :
    List Item → Applier × Batch
  | [] => (a, b)
  | .foreign name :: _ => (a, { b with stopped := some (unknownType name) })
  | .directive d :: is =>
    let (a', b') := a.applyInto base session b d
    if b'.stopped.isSome then (a', b') else applyItems base session a' b' is
  | .parsed p :: is =>
    let (a', b') := a.applyInto base session b p.directive
    if b'.stopped.isSome then (a', b') else applyItems base session a' b' is

/-- Replays `log`: its `commonLead` with the history was applied already and is skipped, and the
    rest is applied in the order of the log. -/
def replay (base : BaseTree) (session : String) (a : Applier) (log : List Item) :
    Applier × Batch :=
  let done := commonLead log a.history
  let skipped := (log.take done).filterMap Item.directive?
  let (a', b) := a.applyItems base session { Batch.empty with skipped } (log.drop done)
  (a', conclude session "🔁 Replay" b)

/-- Drops the pending changes. What was applied stays on record. -/
def clear (a : Applier) : Applier := { a with overlay := Overlay.empty }

end Applier

end StagedEdits
