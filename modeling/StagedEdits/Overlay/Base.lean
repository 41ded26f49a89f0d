import StagedEdits.Fault
import StagedEdits.Journal
import StagedEdits.Path.FilePath
import StagedEdits.Store.Names
import StagedEdits.Store.Table

set_option autoImplicit false

/-! # The base tree

The files that a turn starts from, as the overlay sees them: a path is read, looked for or listed,
and nothing is ever written.

Main definitions: `BaseTree`, `BaseTree.ofFiles`. -/

namespace StagedEdits

/-- The read-only files below an overlay. -/
structure BaseTree where
  /-- The directory they are in, if they are on a disk. -/
  root : Option FilePath
  /-- The content of a file, if it is there and can be read. -/
  read : String → Option String
  has : String → Bool
  listing : List String
  /-- The failure of listing them, instead of which there is no listing. -/
  unlistable : Option Failure
  /-- The failure of so much as looking at a path. -/
  trouble : String → Option Failure
  said : String → List Entry

namespace BaseTree

/-- The base tree of files held in memory. -/
def ofFiles (files : Table String) : BaseTree :=
  { root := none
    read := files.get?
    has := files.has
    listing := (Names.ofList files.keys).toList
    unlistable := none
    trouble := fun _ => none
    said := fun _ => [] }

instance : Inhabited BaseTree := ⟨ofFiles Table.empty⟩

end BaseTree

end StagedEdits
