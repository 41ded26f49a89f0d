import Mathlib.Data.List.Basic
import StagedEdits.Proofs.ReportedProblems

set_option autoImplicit false

/-! # Printed reports

A compiler prints each problem as one line with its file, its place, its code and the first line of
its message, and indents the further lines of the message below. Such a report is read back as the
problems that were printed, in order of their places, whatever else a file name or a message holds,
as long as it does not hold a finding itself.

Main definitions: `PrintedLine`, `Printed`, `Printed.lines`, `printedReport`. Main statements:
`Printed.isOn`, `problemsOf_printed`, `readReport_printed`, `reports_are_read_completely`. -/

namespace StagedEdits

/-! ## Numerals -/

/-- A numeral is written with ASCII digits. -/
theorem range_of_mem_toString {n : Nat} {c : Char} (hc : c ∈ (toString n).toList) :
    48 ≤ c.toNat ∧ c.toNat ≤ 57 := by
  rw [Nat.toString_eq_ofList_toDigits, String.toList_ofList] at hc
  exact Char.isDigit_iff_toNat.1 (Nat.isDigit_of_mem_toDigits (by decide) (by decide) hc)

theorem digitValue?_of_mem_toString {n : Nat} {c : Char} (hc : c ∈ (toString n).toList) :
    digitValue? c = some (c.toNat - '0'.toNat) := by
  have hrange := range_of_mem_toString hc
  have hfound : decimalZeros.find? (fun z => z ≤ c.toNat && c.toNat < z + 10) = some 48 := by
    rw [decimalZeros, List.find?_cons_of_pos]
    simp only [Bool.and_eq_true, decide_eq_true_eq]
    omega
  rw [digitValue?, hfound]
  rfl

theorem areDigits_toString (n : Nat) : AreDigits (toString n).toList := by
  refine ⟨?_, fun c hc => ?_⟩
  · rw [Nat.toString_eq_ofList_toDigits, String.toList_ofList]
    exact Nat.toDigits_ne_nil
  · rw [isDecimalDigit, digitValue?_of_mem_toString hc]
    rfl

theorem oneLine_toString {n : Nat} : ∀ c ∈ (toString n).toList, isLineEnd c = false := by
  intro c hc
  have hrange := range_of_mem_toString hc
  rw [Bool.eq_false_iff, isLineEnd]
  simp only [ne_eq, Bool.or_eq_true, Bool.and_eq_true, decide_eq_true_eq, beq_iff_eq]
  omega

/-- The numeral of a number is read as the number. -/
theorem decimalValue_toString (n : Nat) : decimalValue (toString n).toList = n := by
  have hread : decimalValue (toString n).toList = Nat.ofDigitChars 10 (toString n).toList 0 := by
    refine List.foldl_ext _ _ _ fun m c hc => ?_
    rw [digitValue?_of_mem_toString hc]
    rfl
  rw [hread, Nat.toString_eq_ofList_toDigits, String.toList_ofList, Nat.ofDigitChars_ten_toDigits]

/-! ## Printing -/

/-- That `text` is one line without blanks at its ends, and not empty. -/
structure IsPlain (text : List Char) : Prop where
  ne_nil : text ≠ []
  trimmed : trim text = text
  oneLine : ∀ c ∈ text, isLineEnd c = false

/-- A further line of a message, as it is printed. -/
structure PrintedLine where
  indent : List Char
  text : List Char
  indented : indent ≠ []
  blank : ∀ c ∈ indent, c = ' ' ∨ c = '\t'
  plain : IsPlain text
  no_finding : ∀ g : Finding, ¬g.Writes text

/-- A problem as it is printed. -/
structure Printed where
  file : List Char
  line : Nat
  column : Nat
  code : Nat
  message : List Char
  more : List PrintedLine
  /-- The name of a file is not empty, does not start with a blank or with `./`, and holds neither a
      backslash nor a line end. -/
  named : file ≠ []
  started : ∀ c, file.head? = some c → isBlank c = false
  bare : ¬['.', '/'] <+: file
  oneLine : ∀ c ∈ file, isLineEnd c = false
  forward : '\\' ∉ file
  /-- A file is not named like a finding. -/
  no_finding : ∀ g : Finding, ¬g.Writes file
  short : (toString line).length ≤ maxDigits ∧ (toString column).length ≤ maxDigits ∧
    (toString code).length ≤ maxDigits
  plain : IsPlain message

/-- The line `l` as it is printed. -/
def PrintedLine.chars (l : PrintedLine) : List Char := l.indent ++ l.text

namespace Printed

/-- The first line of `d` as a finding. -/
def finding (d : Printed) : Finding :=
  { file := d.file, line := (toString d.line).toList, column := (toString d.column).toList,
    code := (toString d.code).toList, message := d.message }

/-- The lines of `d` as they are printed. -/
def lines (d : Printed) : List (List Char) :=
  (d.finding.file ++ d.finding.tail) :: d.more.map PrintedLine.chars

/-- The problem that `d` prints, with its source line if `files` has it. -/
def problem (files : Table String) (d : Printed) : Problem :=
  { file := String.ofList d.file, line := d.line, column := d.column,
    message := String.ofList (joinWith '\n' (d.message :: d.more.map (·.text))), code := d.code,
    snippet := sourceLine? files (String.ofList d.file) d.line }

end Printed

/-- The report that `ds` are printed as. -/
def printedReport (ds : List Printed) : List Char :=
  (ds.flatMap Printed.lines).flatMap (· ++ ['\n'])

/-! ## Lines -/

theorem splitLines_append {l : List Char} (h : ∀ c ∈ l, isLineEnd c = false) (rest : List Char) :
    splitLines (l ++ '\n' :: rest) = l :: splitLines rest := by
  induction l with
  | nil => rfl
  | cons c l ih =>
    have hc := h c List.mem_cons_self
    have hrest := ih fun d hd => h d (List.mem_cons_of_mem _ hd)
    have hreturn : c ≠ '\r' := by
      rintro rfl
      cases hc
    rw [List.cons_append, splitLines, hc, hrest]
    · rfl
    · exact fun _ he => absurd he hreturn

/-- Lines that were ended one by one are split again. -/
theorem splitLines_ended {ls : List (List Char)} (h : ∀ l ∈ ls, ∀ c ∈ l, isLineEnd c = false) :
    splitLines (ls.flatMap (· ++ ['\n'])) = ls := by
  induction ls with
  | nil => rfl
  | cons l ls ih =>
    rw [List.flatMap_cons, List.append_assoc, List.singleton_append,
      splitLines_append (h l List.mem_cons_self), ih fun l hl => h l (List.mem_cons_of_mem _ hl)]

/-! ## A finding behind its file -/

section Behind

variable {f g : Finding} {file : List Char}

/-- A place opens one parenthesis, at its start. -/
theorem place_eq (h : f.Counted) : ∃ rest, f.place = '(' :: rest ∧ '(' ∉ rest := by
  refine ⟨f.line ++ ([','] ++ (f.column ++ ("): error TS".toList ++ (f.code ++ ": ".toList)))),
    by simp only [Finding.place, List.append_assoc, List.cons_append, List.nil_append], ?_⟩
  have hdigits {ds : List Char} (hds : AreDigits ds) : '(' ∉ ds :=
    fun hmem => absurd (hds.2 _ hmem) (by decide)
  simp only [List.mem_append, List.mem_cons, not_or]
  exact ⟨hdigits h.line, by decide, hdigits h.column, by decide, hdigits h.code, by decide⟩

/-- **A file that is not named like a finding is found whole**: no shorter one can be read in front
    of the place of `f`. -/
theorem shortest_of_not_writes (hf : f.Counted) (hg : g.Writes (file ++ f.tail))
    (hfile : ∀ e : Finding, ¬e.Writes file) : file.length ≤ g.file.length := by
  -- otherwise the place of the shorter one lies in the file, or reaches over its end
  by_contra hshorter
  have hinside (message : List Char) (he : file = g.file ++ (g.place ++ message)) : False :=
    hfile { g with message } ⟨⟨hg.line, hg.column, hg.code⟩, he, hg.file⟩
  rcases List.append_eq_append_iff.1 hg.text_eq with ⟨more, hmore, -⟩ | ⟨beyond, hbeyond, htail⟩
  · rw [hmore, List.length_append] at hshorter
    omega
  · rcases List.append_eq_append_iff.1 htail with ⟨message, hplace, -⟩ | ⟨more, hplace, hmore⟩
    · exact hinside message (hplace ▸ hbeyond)
    · cases more with
      | nil =>
        rw [List.append_nil] at hplace
        exact hinside [] (by rw [List.append_nil, hplace]; exact hbeyond)
      | cons c more =>
        obtain ⟨rest, hrest, -⟩ := place_eq hf
        obtain ⟨rest', hrest', hparen⟩ := place_eq hg.toCounted
        rw [Finding.tail, hrest] at hmore
        obtain rfl : '(' = c := (List.cons.inj hmore).1
        cases beyond with
        | nil =>
          rw [hbeyond, List.append_nil] at hshorter
          exact hshorter (Nat.le_refl _)
        | cons d beyond =>
          cases hrest'.symm.trans hplace
          exact hparen (List.mem_append_right _ List.mem_cons_self)

end Behind

/-! ## Reading what was printed -/

namespace IsPlain

variable {text : List Char} {c : Char}

theorem head (h : IsPlain text) (hc : text.head? = some c) : isBlank c = false :=
  isBlank_head?_trim (h.trimmed.symm ▸ hc)

theorem last (h : IsPlain text) (hc : text.getLast? = some c) : isBlank c = false :=
  isBlank_getLast?_trim (h.trimmed.symm ▸ hc)

end IsPlain

namespace PrintedLine

variable (l : PrintedLine)

theorem trim_chars : trim l.chars = l.text := by
  have hblank : ∀ c ∈ l.indent, isBlank c = true := by
    intro c hc
    rcases l.blank c hc with rfl | rfl <;> rfl
  have hstart : trimStart l.chars = trimStart l.text := List.dropWhile_append_of_pos hblank
  rw [trim, hstart]
  exact l.plain.trimmed

theorem readFinding?_chars : readFinding? l.chars = none :=
  readFinding?_eq_none_iff.2 (l.trim_chars.symm ▸ l.no_finding)

/-- A further line goes on with the message. -/
theorem goesOn_chars : goesOn l.chars = true := by
  have hsome : allBlank l.chars = false := by
    obtain ⟨c, more, htext⟩ := List.exists_cons_of_ne_nil l.plain.ne_nil
    have hc : isBlank c = false := l.plain.head (by rw [htext]; rfl)
    rw [allBlank, List.all_eq_false]
    exact ⟨c, List.mem_append_right _ (htext ▸ List.mem_cons_self), by rw [hc]; nofun⟩
  obtain ⟨c, more, hindent⟩ := List.exists_cons_of_ne_nil l.indented
  have hc : (c == ' ' || c == '\t') = true := by
    have hblank := l.blank c (hindent ▸ List.mem_cons_self)
    rcases hblank with rfl | rfl <;> rfl
  have hgoes : isContinuation l.chars = true := by
    rw [isContinuation.eq_def, hsome]
    simpa [chars, hindent] using hc
  rw [goesOn, l.readFinding?_chars, hgoes]
  rfl

theorem oneLine_chars : ∀ c ∈ l.chars, isLineEnd c = false := by
  intro c hc
  rcases List.mem_append.1 hc with hc | hc
  · rcases l.blank c hc with rfl | rfl <;> rfl
  · exact l.plain.oneLine c hc

end PrintedLine

namespace Printed

variable (d : Printed)

theorem counted : d.finding.Counted :=
  ⟨areDigits_toString _, areDigits_toString _, areDigits_toString _⟩

theorem isShort : d.finding.IsShort := d.short

/-- **The first line of a printed problem is its finding.** -/
theorem isOn : d.finding.IsOn (d.finding.file ++ d.finding.tail) := by
  have htrim : trim (d.finding.file ++ d.finding.tail) = d.finding.file ++ d.finding.tail := by
    refine trim_eq_self (fun c hc => ?_) (fun c hc => ?_)
    · have hhead : (d.finding.file ++ d.finding.tail).head? = d.file.head? :=
        List.head?_append_of_ne_nil _ d.named
      exact d.started c (hhead ▸ hc)
    · have hlast : (d.finding.file ++ d.finding.tail).getLast? = d.message.getLast? := by
        rw [Finding.tail, ← List.append_assoc]
        exact List.getLast?_append_of_ne_nil _ d.plain.ne_nil
      exact d.plain.last (hlast ▸ hc)
  refine ⟨?_, fun g hg => ?_⟩
  · rw [htrim]
    exact ⟨d.counted, rfl, d.named⟩
  · rw [htrim] at hg
    exact shortest_of_not_writes d.counted hg d.no_finding

theorem reportedFile_file : reportedFile d.file = d.file := by
  have hmap : d.file.map (fun c => if c = '\\' then '/' else c) = d.file := by
    refine (List.map_congr_left fun c hc => ?_).trans (List.map_id _)
    exact if_neg fun (he : c = '\\') => d.forward (he ▸ hc)
  rw [reportedFile, hmap]
  split
  · rename_i rest hfile
    exact absurd (hfile ▸ ⟨rest, rfl⟩) d.bare
  · rfl

/-- A finding with the further lines behind it is the problem that was printed. -/
theorem problem_eq (files : Table String) {rest : List (List Char)}
    (h : rest.takeWhile goesOn = d.more.map PrintedLine.chars) :
    d.finding.problem files rest = d.problem files := by
  have htexts : (d.more.map PrintedLine.chars).map trim = d.more.map (·.text) := by
    rw [List.map_map]
    exact List.map_congr_left fun l _ => l.trim_chars
  simp only [Finding.problem, problem, finding, h, htexts, d.reportedFile_file,
    decimalValue_toString, d.plain.trimmed]

theorem oneLine_tail : ∀ c ∈ d.finding.tail, isLineEnd c = false := by
  have hword : ∀ c ∈ "): error TS".toList, isLineEnd c = false := by simp [isLineEnd]
  have hcolon : ∀ c ∈ ": ".toList, isLineEnd c = false := by simp [isLineEnd]
  simp only [Finding.tail, Finding.place, finding, List.forall_mem_append,
    List.forall_mem_singleton, and_assoc]
  exact ⟨rfl, oneLine_toString, rfl, oneLine_toString, hword, oneLine_toString, hcolon,
    d.plain.oneLine⟩

theorem oneLine_lines : ∀ l ∈ d.lines, ∀ c ∈ l, isLineEnd c = false := by
  intro l hl
  rcases List.mem_cons.1 hl with rfl | hl
  · exact List.forall_mem_append.2 ⟨d.oneLine, d.oneLine_tail⟩
  · obtain ⟨more, -, rfl⟩ := List.mem_map.1 hl
    exact more.oneLine_chars

end Printed

section Reading

variable {files : Table String}

theorem problemsOf_append {ls : List (List Char)} (h : ∀ l ∈ ls, readFinding? l = none)
    (rest : List (List Char)) : problemsOf files (ls ++ rest) = problemsOf files rest := by
  induction ls with
  | nil => rfl
  | cons l ls ih =>
    rw [List.cons_append, problemsOf, h l List.mem_cons_self,
      ih fun l hl => h l (List.mem_cons_of_mem _ hl)]
    rfl

/-- No printed problem starts with a further line of another one. -/
theorem takeWhile_goesOn_printed (ds : List Printed) :
    (ds.flatMap Printed.lines).takeWhile goesOn = [] := by
  cases ds with
  | nil => rfl
  | cons d ds =>
    have hstops : goesOn (d.finding.file ++ d.finding.tail) = false := by
      rw [goesOn, readFinding?_eq_some_iff.2 d.isOn, Option.isNone_some, Bool.and_false]
    exact List.takeWhile_cons_of_neg (Bool.eq_false_iff.1 hstops)

/-- **Printed problems are found again**: the lines of `ds` have just the problems of `ds`. -/
theorem problemsOf_printed (ds : List Printed) :
    problemsOf files (ds.flatMap Printed.lines) = ds.map (·.problem files) := by
  induction ds with
  | nil => rfl
  | cons d ds ih =>
    have htake : (d.more.map PrintedLine.chars ++ ds.flatMap Printed.lines).takeWhile goesOn =
        d.more.map PrintedLine.chars := by
      rw [List.takeWhile_append_of_pos (List.forall_mem_map.2 fun l _ => l.goesOn_chars),
        takeWhile_goesOn_printed, List.append_nil]
    have hpass : ∀ l ∈ d.more.map PrintedLine.chars, readFinding? l = none :=
      List.forall_mem_map.2 fun l _ => l.readFinding?_chars
    rw [List.flatMap_cons, Printed.lines, List.cons_append, problemsOf,
      readFinding?_eq_some_iff.2 d.isOn, problemsOf_append hpass, ih, Option.map_some,
      d.problem_eq files htake]
    rfl

/-- **A printed report is read back as the problems that were printed**, in order of their
    places. -/
theorem readReport_printed (ds : List Printed) :
    readReport files (printedReport ds) = .ok (sortProblems (ds.map (·.problem files))) := by
  have hsplit : splitLines (printedReport ds) = ds.flatMap Printed.lines :=
    splitLines_ended fun l hl =>
      have ⟨d, _, hl⟩ := List.mem_flatMap.1 hl
      d.oneLine_lines l hl
  rw [readReport_eq, hsplit, problemsOf_printed]
  rw [hsplit]
  intro line hline f hread
  obtain ⟨d, -, hline⟩ := List.mem_flatMap.1 hline
  rcases List.mem_cons.1 hline with rfl | hmore
  · rw [readFinding?_eq_some_iff.2 d.isOn] at hread
    cases hread
    exact d.isShort
  · obtain ⟨l, -, rfl⟩ := List.mem_map.1 hmore
    cases hread.symm.trans l.readFinding?_chars

/-- A problem of a file with parentheses in its name, with a message of two lines. -/
example : ∃ d : Printed, printedReport [d] = "a(1).ts(2,3): error TS4: m\n\tn\n".toList := by
  have hfile : ∀ g : Finding, ¬g.Writes (trim "a(1).ts".toList) :=
    readFinding?_eq_none_iff.1 (by decide)
  have hmore : ∀ g : Finding, ¬g.Writes (trim ['n']) := readFinding?_eq_none_iff.1 (by decide)
  exact ⟨{
    file := "a(1).ts".toList, line := 2, column := 3, code := 4, message := ['m']
    more := [{
      indent := ['\t'], text := ['n'], indented := by decide, blank := by simp
      plain := ⟨by decide, by decide, by simp [isLineEnd]⟩, no_finding := hmore }]
    named := by decide, started := by simp [isBlank], bare := by decide
    oneLine := by simp [isLineEnd], forward := by decide, no_finding := hfile
    short := by decide, plain := ⟨by decide, by decide, by simp [isLineEnd]⟩ }, by cbv⟩

end Reading

/-- **Nothing in a report is lost and nothing is made up.** As long as each finding on its lines
    `IsShort`, with no number too long to be read, a report is read as its problems, one for each
    line that is a finding, with the lines that go on with its message and with its source line; a
    line is a finding just if it can be written as one, and then it is read with the shortest file.
    The problems come by their places, and those at one place in the order of the report. So what
    was `Printed` from problems is read back as these. -/
theorem reports_are_read_completely (files : Table String) :
    (∀ report : List Char,
      (∀ line ∈ splitLines report, ∀ f : Finding, f.IsOn line → f.IsShort) →
      readReport files report = .ok (sortProblems (problemsOf files (splitLines report)))) ∧
    (∀ line : List Char, (∀ f : Finding, readFinding? line = some f ↔ f.IsOn line) ∧
      (readFinding? line = none ↔ ∀ f : Finding, ¬f.Writes (trim line))) ∧
    (∀ ps : List Problem, (sortProblems ps).Perm ps ∧
      (sortProblems ps).Pairwise (fun a b => a.le b = true) ∧
      ∀ (file : String) (line column : Int),
        (sortProblems ps).filter (fun p => p.file = file ∧ p.line = line ∧ p.column = column) =
          ps.filter (fun p => p.file = file ∧ p.line = line ∧ p.column = column)) ∧
    (∀ ds : List Printed,
      readReport files (printedReport ds) = .ok (sortProblems (ds.map (·.problem files)))) := by
  refine ⟨fun report hshort => ?_, fun line => ?_, fun ps => ?_, readReport_printed⟩
  · exact readReport_eq fun line hline f hread =>
      hshort line hline f (readFinding?_eq_some_iff.1 hread)
  · exact ⟨fun f => readFinding?_eq_some_iff, readFinding?_eq_none_iff⟩
  · exact ⟨sortProblems_perm ps, sortProblems_pairwise ps, sortProblems_stable ps⟩

end StagedEdits
