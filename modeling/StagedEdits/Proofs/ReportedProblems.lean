import Mathlib.Data.List.Pairwise
import StagedEdits.Proofs.ReadFindings

set_option autoImplicit false

/-! # The problems of a report

A report is read line by line with the problem in hand that further lines may still belong to. What
comes out can be said without it: one problem for each line that is a finding, with the lines right
behind it that go on with its message.

Main definitions: `goesOn`, `problemsOf`. Main statements: `readLines_eq`, `readReport_eq`,
`sortProblems_stable`. -/

namespace StagedEdits

/-! ## Problems without a problem in hand -/

/-- Whether `line` goes on with the message of a finding right before it. -/
def goesOn (line : List Char) : Bool := isContinuation line && (readFinding? line).isNone

/-- The line of that number in `file`, if `files` has it and it is long enough; lines are numbered
    from one on. -/
def sourceLine? (files : Table String) (file : String) : Nat → Option String
  | 0 => none
  | n + 1 => (files.get? file).bind fun content =>
    ((splitLines content.toList)[n]?).map String.ofList

/-- The finding `f` as a problem, if the lines `rest` are behind it. -/
def Finding.problem (files : Table String) (f : Finding) (rest : List (List Char)) : Problem :=
  let file := String.ofList (reportedFile f.file)
  { file
    line := decimalValue f.line
    column := decimalValue f.column
    message := String.ofList (joinWith '\n' (trim f.message :: (rest.takeWhile goesOn).map trim))
    code := decimalValue f.code
    snippet := sourceLine? files file (decimalValue f.line) }

/-- The problems of some lines: one for each finding, in the order of the lines; `files` has the
    source lines. -/
def problemsOf (files : Table String) : List (List Char) → List Problem
  | [] => []
  | line :: rest => ((readFinding? line).map (·.problem files rest)).toList ++ problemsOf files rest

/-- That the numbers of `f` are short enough to be read. -/
def Finding.IsShort (f : Finding) : Prop :=
  f.line.length ≤ maxDigits ∧ f.column.length ≤ maxDigits ∧ f.code.length ≤ maxDigits

section Lines

variable {files : Table String} {f : Finding} {p : Problem} {line : List Char}
  {lines rest : List (List Char)}

theorem withSnippet_eq {n : Nat} (h : p.line = n) :
    withSnippet files p = { p with snippet := sourceLine? files p.file n } := by
  have hline : snippetOf files p.file n = sourceLine? files p.file n := by
    unfold snippetOf
    cases n with
    | zero =>
      cases files.get? p.file with
      | none => rfl
      | some content => exact if_neg (by decide)
    | succ n =>
      have hnum : ((n + 1 : Nat) : Int) - 1 = n := by omega
      cases hget : files.get? p.file with
      | none => simp [sourceLine?, hget]
      | some content =>
        dsimp only
        rw [if_pos (by omega), hnum, Int.toNat_natCast, sourceLine?, hget]
        rfl
  rw [withSnippet, h, hline]

theorem toProblem_eq (h : f.IsShort) : f.toProblem = .ok
    { file := String.ofList (reportedFile f.file), line := decimalValue f.line,
      column := decimalValue f.column, message := String.ofList (trim f.message),
      code := decimalValue f.code, snippet := none } := by
  have hread {ds : List Char} (hds : ds.length ≤ maxDigits) :
      readDigits ds = .ok (decimalValue ds) := if_neg (Nat.not_lt_of_le hds)
  rw [Finding.toProblem, hread h.1, hread h.2.1, hread h.2.2]
  rfl

theorem joinWith_cons (sep : Char) (w : List Char) (ws : List (List Char)) :
    joinWith sep (w :: ws) = w ++ ws.flatMap (sep :: ·) := by
  induction ws generalizing w with
  | nil => rw [joinWith, List.flatMap_nil, List.append_nil]
  | cons v ws ih => rw [joinWith, ih, List.flatMap_cons, List.cons_append]

/-- What the lines `rest` make of `p`, the problem in hand. -/
def Problem.extend (files : Table String) (p : Problem) (rest : List (List Char)) : Problem :=
  withSnippet files { p with
    message := p.message ++
      String.ofList ((rest.takeWhile goesOn).flatMap fun l => '\n' :: trim l) }

theorem extend_nil : p.extend files [] = withSnippet files p := by
  rw [Problem.extend, List.takeWhile_nil, List.flatMap_nil, String.ofList_nil, String.append_empty]

theorem extend_of_not_goesOn (h : goesOn line = false) :
    p.extend files (line :: rest) = withSnippet files p := by
  rw [Problem.extend, List.takeWhile_cons_of_neg (Bool.eq_false_iff.1 h), List.flatMap_nil,
    String.ofList_nil, String.append_empty]

theorem extend_of_goesOn (h : goesOn line = true) : p.extend files (line :: rest) =
    ({ p with message := p.message ++ "\n" ++ String.ofList (trim line) } : Problem).extend files
      rest := by
  rw [Problem.extend, Problem.extend, List.takeWhile_cons_of_pos h, List.flatMap_cons]
  simp [String.append_assoc]

theorem extend_toProblem (rest : List (List Char)) :
    ({ file := String.ofList (reportedFile f.file), line := decimalValue f.line,
       column := decimalValue f.column, message := String.ofList (trim f.message),
       code := decimalValue f.code, snippet := none } : Problem).extend files rest =
      f.problem files rest := by
  rw [Problem.extend, withSnippet_eq rfl, Finding.problem, joinWith_cons, List.flatMap_map,
    String.ofList_append]

/-- **Reading on finishes the problem in hand and reads the others**: `current` is extended by the
    `lines` that go on with it, and `problemsOf` are read behind it. -/
theorem readLines_eq (h : ∀ line ∈ lines, ∀ f, readFinding? line = some f → f.IsShort)
    (current : Option Problem) :
    readLines files current lines =
      .ok ((current.map (·.extend files lines)).toList ++ problemsOf files lines) := by
  induction lines generalizing current with
  | nil =>
    cases current with
    | none => rfl
    | some p =>
      rw [Option.map_some, extend_nil]
      rfl
  | cons line rest ih =>
    have hrest := ih fun line hline => h line (List.mem_cons_of_mem _ hline)
    have hproblems : problemsOf files (line :: rest) =
        ((readFinding? line).map (·.problem files rest)).toList ++ problemsOf files rest := rfl
    rw [readLines.eq_def, hproblems]
    dsimp only
    cases hread : readFinding? line with
    | some f =>
      have hstops : goesOn line = false := by rw [goesOn, hread, Option.isNone_some, Bool.and_false]
      have hcurrent : current.toList.map (withSnippet files) =
          (current.map (·.extend files (line :: rest))).toList := by
        cases current with
        | none => rfl
        | some p => rw [Option.map_some, extend_of_not_goesOn hstops]; rfl
      dsimp only
      rw [toProblem_eq (h line List.mem_cons_self f hread), hcurrent]
      show (readLines files (some _) rest).bind (fun ps => .ok (_ ++ ps)) = _
      rw [hrest, Option.map_some, extend_toProblem]
      rfl
    | none =>
      dsimp only
      cases current with
      | none => exact hrest none
      | some p =>
        dsimp only
        have hgoes : goesOn line = isContinuation line := by
          rw [goesOn, hread, Option.isNone_none, Bool.and_true]
        split
        · rename_i hcontinues
          rw [hrest, Option.map_some, Option.map_some, extend_of_goesOn (hgoes.trans hcontinues)]
          rfl
        · rename_i hstops
          rw [Option.map_some, extend_of_not_goesOn (hgoes.trans (Bool.eq_false_iff.2 hstops))]
          show (readLines files none rest).bind (fun ps => .ok (_ :: ps)) = _
          rw [hrest]
          rfl

/-- **A report is read as its problems**, `problemsOf` its lines, in order of their places, if the
    numbers of its findings are short. -/
theorem readReport_eq {report : List Char}
    (h : ∀ line ∈ splitLines report, ∀ f, readFinding? line = some f → f.IsShort) :
    readReport files report = .ok (sortProblems (problemsOf files (splitLines report))) := by
  show (readLines files none (splitLines report)).bind (fun ps => .ok (sortProblems ps)) = _
  rw [readLines_eq h]
  rfl

end Lines

/-! ## Order -/

/-- **Problems at one place keep their order**: those of `ps` at `file`, `line` and `column` stand
    in the sorted list as they stood before. -/
theorem sortProblems_stable (ps : List Problem) (file : String) (line column : Int) :
    (sortProblems ps).filter (fun p => p.file = file ∧ p.line = line ∧ p.column = column) =
      ps.filter (fun p => p.file = file ∧ p.line = line ∧ p.column = column) := by
  let here (p : Problem) : Bool := p.file = file ∧ p.line = line ∧ p.column = column
  have hsame : (ps.filter here).Pairwise fun a b => a.le b = true := by
    refine List.pairwise_of_forall_mem_list fun a ha b hb => ?_
    obtain ⟨hfile, hline, hcolumn⟩ := of_decide_eq_true (List.mem_filter.1 ha).2
    obtain ⟨hfile', hline', hcolumn'⟩ := of_decide_eq_true (List.mem_filter.1 hb).2
    rw [Problem.le, if_pos (hfile.trans hfile'.symm), if_pos (hline.trans hline'.symm), hcolumn,
      hcolumn']
    exact decide_eq_true (Int.le_refl _)
  have hsub : (ps.filter here).Sublist (sortProblems ps) :=
    List.sublist_mergeSort Problem.le_trans Problem.le_total hsame List.filter_sublist
  have hsub' : (ps.filter here).Sublist ((sortProblems ps).filter here) := by
    have hfilter := hsub.filter here
    rwa [List.filter_filter, funext fun p => Bool.and_self (here p)] at hfilter
  exact (hsub'.eq_of_length ((sortProblems_perm ps).filter here).length_eq.symm).symm

end StagedEdits
