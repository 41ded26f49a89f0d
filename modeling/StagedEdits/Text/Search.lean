set_option autoImplicit false

/-! # Searching a text

The first place of a needle in a text, also from a given offset on, and the part between two
offsets. Offsets count characters.

Main definitions: `find`, `findFrom`, `slice`. Main statements: `find_some` (a hit is where the
needle stands and nothing is hit earlier), `findFrom_bounds` (a hit lies at or after the start and
inside the text). -/

namespace StagedEdits

/-! ## The first occurrence -/

/-- The offset of the first occurrence of `needle`. -/
def find (needle : List Char) : List Char → Option Nat
  | [] => if needle.isEmpty then some 0 else none
  | c :: cs =>
    if needle.isPrefixOf (c :: cs) then some 0 else (find needle cs).map (· + 1)

/-- The offset of the first occurrence of `needle` that starts at or after `start`. -/
def findFrom (needle text : List Char) (start : Nat) : Option Nat :=
  (find needle (text.drop start)).map (start + ·)

/-- A hit is a place where the needle stands. -/
theorem find_some {needle text : List Char} {i : Nat} (h : find needle text = some i) :
    needle <+: text.drop i ∧ i + needle.length ≤ text.length := by
  induction text generalizing i with
  | nil =>
    simp only [find] at h
    split at h
    · rename_i he
      have : needle = [] := by simpa using he
      subst this
      simp at h
      subst h
      simp
    · simp at h
  | cons c cs ih =>
    simp only [find] at h
    split at h
    · rename_i hp
      have hp' : needle <+: c :: cs := by simpa using hp
      simp at h
      subst h
      exact ⟨by simpa using hp', by simpa using hp'.length_le⟩
    · obtain ⟨j, hj, rfl⟩ := Option.map_eq_some_iff.1 h
      obtain ⟨h1, h2⟩ := ih hj
      exact ⟨by simpa using h1, by simp only [List.length_cons]; omega⟩

/-- No occurrence starts before a hit. -/
theorem find_first {needle text : List Char} {i : Nat} (h : find needle text = some i)
    {j : Nat} (hj : j < i) : ¬ needle <+: text.drop j := by
  induction text generalizing i j with
  | nil =>
    simp only [find] at h
    split at h <;> simp at h
    omega
  | cons c cs ih =>
    simp only [find] at h
    split at h
    · simp at h; omega
    · rename_i hp
      obtain ⟨k, hk, rfl⟩ := Option.map_eq_some_iff.1 h
      cases j with
      | zero => simpa using hp
      | succ j => simpa using ih hk (by omega)

/-- A text without a hit has the needle nowhere. -/
theorem find_none {needle text : List Char} (h : find needle text = none) (j : Nat) :
    ¬ needle <+: text.drop j := by
  induction text generalizing j with
  | nil =>
    simp only [find] at h
    split at h
    · simp at h
    · rename_i he
      intro hp
      have : needle = [] := by simpa using hp
      exact he (by simp [this])
  | cons c cs ih =>
    simp only [find] at h
    split at h
    · simp at h
    · rename_i hp
      have hn : find needle cs = none := by simpa using h
      cases j with
      | zero => simpa using hp
      | succ j => simpa using ih hn j

/-- A hit from `start` on lies at or after `start`, and the needle ends inside the text. -/
theorem findFrom_bounds {needle text : List Char} {start i : Nat} (hn : needle ≠ [])
    (h : findFrom needle text start = some i) :
    start ≤ i ∧ i + needle.length ≤ text.length := by
  obtain ⟨j, hj, rfl⟩ := Option.map_eq_some_iff.1 h
  have h2 := (find_some hj).2
  have h3 : 0 < needle.length := List.length_pos_iff.2 hn
  simp only [List.length_drop] at h2
  omega

/-! ## Parts -/

/-- The part of `text` from `start` to before `stop`. -/
def slice (text : List Char) (start stop : Nat) : List Char :=
  (text.drop start).take (stop - start)

/-- Whether `text` ends with `tail`. -/
def hasSuffix (tail text : List Char) : Bool :=
  tail.isSuffixOf text

end StagedEdits
