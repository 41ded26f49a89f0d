import StagedEdits.Proofs.PathGuard
import StagedEdits.Proofs.TagPlaces

set_option autoImplicit false

/-! # Guarded paths

Every path that the parser gives back has passed the guard: it is what the guard makes of the value
that was written last for its attribute, with the references in the value replaced. The references
are replaced before the guard looks at the value, so a way out of the project that is spelled with
references is seen as one.

Main definitions: `ClosedTag.Writes`. Main statements: `ClosedTag.exists_written` (the value of an
attribute is the one written last), `Parser.only_guarded_paths`. -/

namespace StagedEdits

/-! ## The value that counts -/

/-- That the attribute `name` of `t` is written with `value` and not written again behind it. -/
def ClosedTag.Writes {mark : String} (t : ClosedTag mark) (name : String) (value : List Char) :
    Prop :=
  ∃ before after,
    rawAttributes (dropEndWhile (· == '/') (trimEnd t.head)) =
      before ++ (name.toList, value) :: after ∧ ∀ a ∈ after, a.1 ≠ name.toList

theorem Table.get?_ofList_concat {α : Type} (rows : List (String × α)) (r : String × α)
    (k : String) :
    (ofList (rows ++ [r])).get? k = if r.1 = k then some r.2 else (ofList rows).get? k := by
  rw [ofList, List.foldl_append, List.foldl_cons, List.foldl_nil, get?_set]
  simp only [eq_comm, ofList]

/-- What is read of an attribute that is written as `a`: its name, and its value with the references
    expanded. -/
def expandAttribute (a : List Char × List Char) : Except NumberFault (String × String) := do
  return (String.ofList a.1, String.ofList (← expandRefs a.2))

theorem parseAttributes_eq (head : List Char) : parseAttributes head = (do
    let rows ← (rawAttributes head).mapM expandAttribute
    return Table.ofList rows) := rfl

/-- Of the values that are written for a name the last one counts. -/
theorem exists_last {written : List (List Char × List Char)} {rows : List (String × String)}
    {name raw : String} (hread : written.mapM expandAttribute = .ok rows)
    (hraw : (Table.ofList rows).get? name = some raw) :
    ∃ before after value u, written = before ++ (name.toList, value) :: after ∧
      (∀ a ∈ after, a.1 ≠ name.toList) ∧ expandRefs value = .ok u ∧ raw = String.ofList u := by
  induction written using List.reverseRecOn generalizing rows with
  | nil =>
    cases hread
    cases hraw
  | append_singleton written a ih =>
    rw [List.mapM_append] at hread
    cases hfront : written.mapM expandAttribute with
    | error f =>
      rw [hfront] at hread
      cases hread
    | ok front =>
      cases hvalue : expandRefs a.2 with
      | error f =>
        rw [hfront, List.mapM_cons, expandAttribute, hvalue] at hread
        cases hread
      | ok u =>
        rw [hfront, List.mapM_cons, expandAttribute, hvalue] at hread
        obtain rfl : front ++ [(String.ofList a.1, String.ofList u)] = rows := Except.ok.inj hread
        rw [Table.get?_ofList_concat] at hraw
        split at hraw
        · rename_i hname
          obtain rfl : String.ofList u = raw := Option.some.inj hraw
          refine ⟨written, [], a.2, u, ?_, nofun, hvalue, rfl⟩
          rw [← hname, String.toList_ofList]
        · rename_i hname
          obtain ⟨before, after, value, u', rfl, hafter, hu', hraw'⟩ := ih hfront hraw
          refine ⟨before, after ++ [a], value, u', ?_, ?_, hu', hraw'⟩
          · rw [List.append_assoc, List.cons_append]
          · refine List.forall_mem_append.2 ⟨hafter, List.forall_mem_singleton.2 fun he => hname ?_⟩
            rw [he, String.ofList_toList]

/-- The value of an attribute is the one that is written last, with its references replaced. -/
theorem ClosedTag.exists_written {mark : String} {t : ClosedTag mark} {attrs : Table String}
    {name raw : String} (hattrs : headAttributes t.head = .ok attrs)
    (hraw : attrs.get? name = some raw) :
    ∃ value u, t.Writes name value ∧ expandRefs value = .ok u ∧ raw = String.ofList u := by
  rw [headAttributes, parseAttributes_eq] at hattrs
  generalize hwritten : rawAttributes _ = written at hattrs
  cases hread : written.mapM expandAttribute with
  | error f =>
    rw [hread] at hattrs
    cases hattrs
  | ok rows =>
    rw [hread] at hattrs
    obtain rfl : Table.ofList rows = attrs := Except.ok.inj hattrs
    obtain ⟨before, after, value, u, rfl, hafter, hu, hval⟩ := exists_last hread hraw
    exact ⟨value, u, ⟨before, after, hwritten, hafter⟩, hu, hval⟩

namespace Parser

/-- **The guard lets a path through just if it stays inside the project and names something there,
    and gives out what is left of it; and no path comes out of a text but by the guard.** What
    `normalize` looks at is `cleanPath raw`; it accepts that if it is `Admissible`, and what it
    gives out is what is left when its segments are cancelled, a `ProjectRelative` path. Each path
    of a directive that a parser emits comes by `normalize` from the value of an attribute, its
    references expanded. -/
theorem only_guarded_paths (raw fallback : String) (asked : Option String) (pieces : List Piece) :
    (∃ before after, raw.toList.map (fun c => if c = '\\' then '/' else c) =
        before ++ cleanPath raw.toList ++ after ∧
      (∀ c ∈ before ++ after, isBlank c = true) ∧
      (∀ c, (cleanPath raw.toList).head? = some c → isBlank c = false) ∧
      (∀ c, (cleanPath raw.toList).getLast? = some c → isBlank c = false)) ∧
    ((∃ path, normalize raw = .ok path) ↔ Admissible (cleanPath raw.toList)) ∧
    (¬ Admissible (cleanPath raw.toList) →
      ∃ flaw, normalize raw = .error ⟨String.ofList (cleanPath raw.toList), flaw⟩) ∧
    (∀ path, normalize raw = .ok path → ∃ left,
      (∀ other, CancelsTo (splitOnChar '/' (cleanPath raw.toList)) other ↔ other = left) ∧
        path = String.ofList (joinWith '/' left) ∧ ProjectRelative path) ∧
    ∀ d ∈ ((new fallback asked).takeAll pieces).2.flatMap Fed.emitted,
      ∃ t : ClosedTag (markInUse fallback asked),
        slice (joinPieces pieces) d.start d.stop = t.text ∧ t.name.text = d.directive.kind ∧
        ∀ q ∈ d.directive.paths, ∃ value unescaped, t.Writes q.1 value ∧
          expandRefs value = .ok unescaped ∧ normalize (String.ofList unescaped) = .ok q.2 := by
  refine ⟨cleanPath_eq raw.toList, exists_normalize_iff, fun hno => ?_, fun path hpath => ?_,
    fun d hd => ?_⟩
  · cases hraw : normalize raw with
    | ok path => exact absurd (exists_normalize_iff.1 ⟨path, hraw⟩) hno
    | error r =>
      obtain ⟨path, flaw⟩ := r
      obtain rfl : path = String.ofList (cleanPath raw.toList) := path_of_refusal hraw
      exact ⟨flaw, rfl⟩
  · obtain ⟨left, hcancels, -, hjoin, hform⟩ := left_of_normalize hpath
    exact ⟨left, fun other => ⟨hcancels.unique, fun he => he ▸ hcancels⟩, hjoin, hform⟩
  · obtain ⟨t, hstands, tag, hto⟩ := placed_of_emitted hd
    obtain ⟨hstart, hstop, hkind, -⟩ := hto.alone
    refine ⟨t.tag, ?_, hkind, fun q hq => ?_⟩
    · rw [hstart, hstop]
      exact slice_of_isPrefix hstands
    · obtain ⟨attrs, hattrs, hbuild⟩ := hto
      obtain ⟨raw, hraw, hpath⟩ := (directive_of_build hbuild.symm).2 q hq
      obtain ⟨value, u, hwrites, hu, rfl⟩ := ClosedTag.exists_written hattrs hraw
      exact ⟨value, u, hwrites, hu, hpath⟩

end Parser

end StagedEdits
