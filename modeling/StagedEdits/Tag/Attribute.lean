import StagedEdits.Store.Table
import StagedEdits.Text.Blank
import StagedEdits.Text.CharRef
import StagedEdits.Text.WordChar

set_option autoImplicit false

/-! # Attributes

The attributes in the head of a tag: a name, an equals sign with or without blanks around it, and a
value in quotes of either kind. The head is read from left to right; what is no attribute is passed
over one character at a time. Character references in a value are replaced, and of two attributes
of one name the later counts. If one of the references cannot be read, no attribute is.

Main definitions: `readAttribute`, `parseAttributes`. -/

namespace StagedEdits

/-- The attribute that a text starts with: its name, its value as written, and the rest. -/
def readAttribute : List Char → Option (List Char × List Char × List Char)
  | [] => none
  | c :: cs =>
    if isNameStart c then
      match (cs.dropWhile isNameChar).dropWhile isBlank with
      | '=' :: rest =>
        match rest.dropWhile isBlank with
        | q :: rest =>
          if q == '"' || q == '\'' then
            match rest.dropWhile (· != q) with
            | _ :: after => some (c :: cs.takeWhile isNameChar, rest.takeWhile (· != q), after)
            | [] => none
          else none
        | [] => none
      | _ => none
    else none

theorem length_dropWhile_le {α : Type} (p : α → Bool) (xs : List α) :
    (xs.dropWhile p).length ≤ xs.length :=
  (List.dropWhile_sublist p).length_le

/-- What comes after an attribute is shorter than what it was read from. -/
theorem readAttribute_shorter {cs name value rest : List Char}
    (h : readAttribute cs = some (name, value, rest)) : rest.length < cs.length := by
  cases cs with
  | nil => simp [readAttribute] at h
  | cons c cs =>
    simp only [readAttribute] at h
    split at h
    · split at h
      · rename_i r1 h1
        split at h
        · rename_i q r2 h2
          split at h
          · split at h
            · rename_i c' after h3
              simp only [Option.some.injEq, Prod.mk.injEq] at h
              obtain ⟨_, _, rfl⟩ := h
              have l1 := length_dropWhile_le isBlank (cs.dropWhile isNameChar)
              have l1' := length_dropWhile_le isNameChar cs
              have l2 := length_dropWhile_le isBlank r1
              have l3 := length_dropWhile_le (fun x => x != q) r2
              rw [h1] at l1
              rw [h2] at l2
              rw [h3] at l3
              simp only [List.length_cons] at *
              omega
            · simp at h
          · simp at h
        · simp at h
      · simp at h
    · simp at h

/-- The attributes of a head in the order they are written, values as written. -/
def rawAttributes : List Char → List (List Char × List Char)
  | [] => []
  | c :: cs =>
    match _h : readAttribute (c :: cs) with
    | some (name, value, rest) => (name, value) :: rawAttributes rest
    | none => rawAttributes cs
termination_by cs => cs.length
decreasing_by
  · exact readAttribute_shorter (by assumption)
  · simp

/-- The attributes of a head; the first reference in them that cannot be read is the fault. -/
def parseAttributes (head : List Char) : Except NumberFault (Table String) := do
  let attrs ← (rawAttributes head).mapM (fun a => do
    return (String.ofList a.1, String.ofList (← expandRefs a.2)))
  return Table.ofList attrs

end StagedEdits
