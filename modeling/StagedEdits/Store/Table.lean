set_option autoImplicit false

/-! # Tables

A finite map from texts that remembers in which order its keys came: setting a key that is there
keeps its place, a new key goes to the end.

Main definitions: `Table`, `Table.get?`, `Table.set`, `Table.erase`. Main statements: what each
operation does to `get?`. -/

namespace StagedEdits

/-! ## Rows -/

variable {α : Type}

/-- The value of a key in some rows. -/
def lookupRow (k : String) : List (String × α) → Option α
  | [] => none
  | (j, v) :: rows => if j = k then some v else lookupRow k rows

/-- The rows with `v` under `k`: in its place if the key is there, else at the end. -/
def setRow (k : String) (v : α) : List (String × α) → List (String × α)
  | [] => [(k, v)]
  | (j, w) :: rows => if j = k then (k, v) :: rows else (j, w) :: setRow k v rows

theorem keys_setRow {k j : String} {v : α} {rows : List (String × α)} :
    j ∈ (setRow k v rows).map Prod.fst ↔ j = k ∨ j ∈ rows.map Prod.fst := by
  induction rows with
  | nil => simp [setRow]
  | cons r rows ih =>
    obtain ⟨i, w⟩ := r
    simp only [setRow]
    split
    · rename_i h; subst h; simp
    · simp only [List.map_cons, List.mem_cons, ih]; grind

theorem nodup_setRow {k : String} {v : α} {rows : List (String × α)}
    (h : (rows.map Prod.fst).Nodup) : ((setRow k v rows).map Prod.fst).Nodup := by
  induction rows with
  | nil => simp [setRow]
  | cons r rows ih =>
    obtain ⟨i, w⟩ := r
    simp only [List.map_cons, List.nodup_cons] at h
    simp only [setRow]
    split
    · rename_i e; subst e; simpa using h
    · simp only [List.map_cons, List.nodup_cons, keys_setRow]
      rename_i e
      exact ⟨by simpa using ⟨e, by simpa using h.1⟩, ih h.2⟩

theorem lookupRow_setRow {k j : String} {v : α} {rows : List (String × α)} :
    lookupRow j (setRow k v rows) = if j = k then some v else lookupRow j rows := by
  induction rows with
  | nil => simp only [setRow, lookupRow]; grind
  | cons r rows ih =>
    obtain ⟨i, w⟩ := r
    simp only [setRow]
    split
    · rename_i e; subst e; simp only [lookupRow]; grind
    · simp only [lookupRow, ih]; grind

theorem lookupRow_filter {k j : String} {rows : List (String × α)} :
    lookupRow j (rows.filter (fun r => r.1 ≠ k)) = if j = k then none else lookupRow j rows := by
  induction rows with
  | nil => simp [lookupRow]
  | cons r rows ih =>
    obtain ⟨i, w⟩ := r
    simp only [List.filter_cons]
    split
    · simp only [lookupRow, ih]; grind
    · simp only [lookupRow, ih]; grind

theorem mem_keys_iff {k : String} {rows : List (String × α)} :
    k ∈ rows.map Prod.fst ↔ (lookupRow k rows).isSome := by
  induction rows with
  | nil => simp [lookupRow]
  | cons r rows ih =>
    obtain ⟨i, w⟩ := r
    simp only [List.map_cons, List.mem_cons, ih, lookupRow]
    grind

theorem lookupRow_of_mem {k : String} {v : α} {rows : List (String × α)}
    (hn : (rows.map Prod.fst).Nodup) (h : (k, v) ∈ rows) : lookupRow k rows = some v := by
  induction rows with
  | nil => simp at h
  | cons r rows ih =>
    obtain ⟨i, w⟩ := r
    simp only [List.map_cons, List.nodup_cons] at hn
    simp only [lookupRow]
    rcases List.mem_cons.1 h with e | h
    · cases e; simp
    · split
      · rename_i e
        subst e
        exact absurd (List.mem_map_of_mem (f := Prod.fst) h) hn.1
      · exact ih hn.2 h

/-! ## The type -/

/-- A finite map from texts to values, as its rows in the order in which their keys came. -/
structure Table (α : Type) where
  rows : List (String × α)
  nodup : (rows.map Prod.fst).Nodup

namespace Table

/-- The table without keys. -/
def empty : Table α := ⟨[], List.nodup_nil⟩

instance : Inhabited (Table α) := ⟨empty⟩

instance [DecidableEq α] : DecidableEq (Table α) := fun s t =>
  if h : s.rows = t.rows then .isTrue (by cases s; cases t; cases h; rfl)
  else .isFalse (by rintro rfl; exact h rfl)

/-- The value under `k`. -/
def get? (t : Table α) (k : String) : Option α := lookupRow k t.rows

/-- Whether a value is under `k`. -/
def has (t : Table α) (k : String) : Bool := (t.get? k).isSome

/-- The table `t` with `v` under `k`. -/
def set (t : Table α) (k : String) (v : α) : Table α :=
  ⟨setRow k v t.rows, nodup_setRow t.nodup⟩

/-- Drops the rows that do not satisfy `p`. -/
def filter (t : Table α) (p : String → α → Bool) : Table α :=
  ⟨t.rows.filter (fun r => p r.1 r.2),
    t.nodup.sublist ((List.filter_sublist).map Prod.fst)⟩

/-- The table `t` without the key `k`. -/
def erase (t : Table α) (k : String) : Table α := t.filter (fun j _ => j ≠ k)

/-- The keys in their order. -/
def keys (t : Table α) : List String := t.rows.map Prod.fst

/-- The number of keys. -/
def size (t : Table α) : Nat := t.rows.length

/-- Whether there are no keys. -/
def isEmpty (t : Table α) : Bool := t.rows.isEmpty

/-- The table of some rows; of two values for one key the later stays. -/
def ofList (rows : List (String × α)) : Table α :=
  rows.foldl (fun t r => t.set r.1 r.2) empty

@[simp] theorem get?_empty (k : String) : (empty : Table α).get? k = none := rfl

@[simp] theorem get?_set (t : Table α) (k j : String) (v : α) :
    (t.set k v).get? j = if j = k then some v else t.get? j :=
  lookupRow_setRow

@[simp] theorem get?_erase (t : Table α) (k j : String) :
    (t.erase k).get? j = if j = k then none else t.get? j :=
  lookupRow_filter

theorem mem_keys {t : Table α} {k : String} : k ∈ t.keys ↔ (t.get? k).isSome :=
  mem_keys_iff

theorem get?_of_mem {t : Table α} {k : String} {v : α} (h : (k, v) ∈ t.rows) :
    t.get? k = some v :=
  lookupRow_of_mem t.nodup h

end Table

end StagedEdits
