import StagedEdits.Check.Report
import StagedEdits.Proofs.PathGuard

set_option autoImplicit false

/-! # What a line of a report says

A line is a finding if, blanks at its ends aside, it is written as one: a file, its place in
parentheses, the word error with a code, and a message. A text can be written so in several ways, as
a file name may hold parentheses and a message anything; the finding is the one with the shortest
file.

Main definitions: `Finding.Writes`, `Finding.IsOn`. Main statements: `readPlace?_eq_some_iff`,
`readFinding?_eq_some_iff`, `readFinding?_eq_none_iff`. -/

namespace StagedEdits

/-- That `ds` is a run of at least one digit. -/
def AreDigits (ds : List Char) : Prop := ds ≠ [] ∧ ∀ c ∈ ds, isDecimalDigit c = true

namespace Finding

/-- The place and the code of `f`, as they are written. -/
def place (f : Finding) : List Char :=
  ['('] ++ f.line ++ [','] ++ f.column ++ "): error TS".toList ++ f.code ++ ": ".toList

/-- What is written of `f` behind its file. -/
def tail (f : Finding) : List Char := f.place ++ f.message

/-- That the numbers of `f` are such. -/
structure Counted (f : Finding) : Prop where
  line : AreDigits f.line
  column : AreDigits f.column
  code : AreDigits f.code

/-- That `text` is `f` as it is written. -/
structure Writes (f : Finding) (text : List Char) : Prop extends f.Counted where
  text_eq : text = f.file ++ f.tail
  file : f.file ≠ []

/-- That `line` is `f`, blanks at its ends aside: of all ways to read it as a finding, that with the
    shortest file. -/
structure IsOn (f : Finding) (line : List Char) : Prop where
  writes : f.Writes (trim line)
  shortest : ∀ g : Finding, g.Writes (trim line) → f.file.length ≤ g.file.length

end Finding

/-! ## Pieces -/

section Pieces

variable {lead cs rest ds : List Char}

theorem dropLead?_eq_some_iff : dropLead? lead cs = some rest ↔ cs = lead ++ rest := by
  unfold dropLead?
  constructor
  · intro h
    split at h
    · rename_i hlead
      obtain ⟨more, rfl⟩ := List.isPrefixOf_iff_prefix.1 hlead
      rw [List.drop_left] at h
      cases h
      rfl
    · cases h
  · rintro rfl
    rw [if_pos (List.isPrefixOf_iff_prefix.2 (List.prefix_append _ _)), List.drop_left]

theorem takeDigits?_eq_some (h : takeDigits? cs = some (ds, rest)) :
    cs = ds ++ rest ∧ AreDigits ds := by
  have hdigits : ∀ c ∈ cs.takeWhile isDecimalDigit, isDecimalDigit c = true :=
    fun c hc => List.all_eq_true.1 List.all_takeWhile c hc
  unfold takeDigits? at h
  cases hw : cs.takeWhile isDecimalDigit with
  | nil =>
    rw [hw] at h
    cases h
  | cons d more =>
    rw [hw] at h hdigits
    cases h
    refine ⟨?_, List.cons_ne_nil _ _, hdigits⟩
    rw [← hw, List.takeWhile_append_dropWhile]

/-- A run of digits ends where no digit follows. -/
theorem takeDigits?_append (hds : AreDigits ds) {d : Char} (hlead : lead.head? = some d)
    (hd : isDecimalDigit d = false) (rest : List Char) :
    takeDigits? (ds ++ (lead ++ rest)) = some (ds, lead ++ rest) := by
  obtain ⟨hne, hdigits⟩ := hds
  obtain ⟨more, rfl⟩ : ∃ more, lead = d :: more := List.head?_eq_some_iff.1 hlead
  have hd : ¬isDecimalDigit d = true := Bool.eq_false_iff.1 hd
  unfold takeDigits?
  rw [List.takeWhile_append_of_pos hdigits, List.dropWhile_append_of_pos hdigits,
    List.cons_append, List.takeWhile_cons_of_neg hd, List.dropWhile_cons_of_neg hd,
    List.append_nil]
  cases ds with
  | nil => exact absurd rfl hne
  | cons d more => rfl

end Pieces

/-! ## A place -/

section Place

variable {before cs : List Char} {f g : Finding}

/-- A finding from its parenthesis on is read as it is written. -/
theorem readPlace?_eq_some_iff :
    readPlace? before cs = some f ↔ cs = f.tail ∧ f.Counted ∧ f.file = before.reverse := by
  simp only [readPlace?, Option.bind_eq_bind, Option.bind_eq_some_iff, Prod.exists,
    dropLead?_eq_some_iff, Option.pure_def, Option.some.injEq]
  constructor
  · rintro ⟨_, rfl, line, _, hline, _, rfl, column, _, hcolumn, _, rfl, code, _, hcode, message,
      rfl, rfl⟩
    obtain ⟨hline, hl⟩ := takeDigits?_eq_some hline
    obtain ⟨hcolumn, hc⟩ := takeDigits?_eq_some hcolumn
    obtain ⟨hcode, hn⟩ := takeDigits?_eq_some hcode
    refine ⟨?_, ⟨hl, hc, hn⟩, rfl⟩
    rw [hline, hcolumn, hcode]
    simp only [Finding.tail, Finding.place, List.append_assoc]
  · rintro ⟨rfl, h, hfile⟩
    have hcomma : [','].head? = some ',' := rfl
    have hword : "): error TS".toList.head? = some ')' := by decide
    have hcolon : ": ".toList.head? = some ':' := by decide
    refine ⟨f.line ++ ([','] ++ (f.column ++ ("): error TS".toList ++ (f.code ++ (": ".toList ++
      f.message))))), ?_, f.line, _, takeDigits?_append h.line hcomma (by decide) _, _, rfl,
      f.column, _, takeDigits?_append h.column hword (by decide) _, _, rfl,
      f.code, _, takeDigits?_append h.code hcolon (by decide) _, f.message, rfl, ?_⟩
    · simp only [Finding.tail, Finding.place, List.append_assoc]
    · rw [← hfile]

/-- Two findings that are written alike behind their files differ in nothing else. -/
theorem Finding.tail_injective (hf : f.Counted) (hg : g.Counted) (h : f.tail = g.tail)
    (hfile : f.file = g.file) : f = g := by
  have hread {e : Finding} (he : e.Counted) (hfile : e.file = f.file) (htail : e.tail = f.tail) :
      readPlace? f.file.reverse f.tail = some e :=
    readPlace?_eq_some_iff.2 ⟨htail.symm, he, by rw [List.reverse_reverse, hfile]⟩
  exact Option.some.inj ((hread hf rfl rfl).symm.trans (hread hg hfile.symm h.symm))

end Place

/-! ## A finding -/

section Findings

variable {before cs line : List Char} {f g : Finding}

theorem behind_cons {c : Char} : (c :: before).reverse ++ cs = before.reverse ++ c :: cs := by
  rw [List.reverse_cons, List.append_assoc, List.singleton_append]

/-- At one point a finding is read just if the text is written so that its file ends there. -/
theorem readPlace?_at :
    (if before.isEmpty then none else readPlace? before cs) = some f ↔
      f.Writes (before.reverse ++ cs) ∧ f.file.length = before.length := by
  constructor
  · intro h
    split at h
    · cases h
    · rename_i hne
      obtain ⟨rfl, hcounted, hfile⟩ := readPlace?_eq_some_iff.1 h
      refine ⟨⟨hcounted, by rw [hfile], ?_⟩, by rw [hfile, List.length_reverse]⟩
      rw [hfile]
      exact fun hnil => hne (List.isEmpty_iff.2 (List.reverse_eq_nil_iff.1 hnil))
  · rintro ⟨⟨hcounted, htext, hne⟩, hlength⟩
    obtain ⟨hfile, htail⟩ :=
      List.append_inj htext (by rw [List.length_reverse, hlength])
    rw [if_neg fun hempty => hne ?_]
    · exact readPlace?_eq_some_iff.2 ⟨htail, hcounted, hfile.symm⟩
    · rw [← hfile, List.isEmpty_iff.1 hempty]
      rfl

/-- What is found behind a part of a text is the way to write the text with the shortest file. -/
theorem writes_of_readFindingBehind? (h : readFindingBehind? before cs = some f) :
    f.Writes (before.reverse ++ cs) ∧ ∀ g : Finding, g.Writes (before.reverse ++ cs) →
      before.length ≤ g.file.length → f.file.length ≤ g.file.length := by
  induction cs generalizing before with
  | nil => cases h
  | cons c cs ih =>
    rw [readFindingBehind?] at h
    cases hat : if before.isEmpty then none else readPlace? before (c :: cs) with
    | some e =>
      rw [hat] at h
      cases h
      obtain ⟨hwrites, hlength⟩ := readPlace?_at.1 hat
      exact ⟨hwrites, fun g _ hg => hlength ▸ hg⟩
    | none =>
      rw [hat] at h
      obtain ⟨hwrites, hshortest⟩ := ih h
      rw [behind_cons] at hwrites hshortest
      refine ⟨hwrites, fun g hg hle => hshortest g hg (Nat.lt_of_le_of_ne hle fun he => ?_)⟩
      cases hat.symm.trans (readPlace?_at.2 ⟨hg, he.symm⟩)

/-- Where nothing is found, no way to write the text has its file end there. -/
theorem not_writes_of_readFindingBehind? (h : readFindingBehind? before cs = none)
    (hg : g.Writes (before.reverse ++ cs)) : g.file.length < before.length := by
  induction cs generalizing before with
  | nil =>
    have hlength := congrArg List.length hg.text_eq
    simp only [Finding.tail, Finding.place, List.length_append, List.length_reverse,
      List.length_singleton, List.length_nil] at hlength
    omega
  | cons c cs ih =>
    rw [readFindingBehind?] at h
    cases hat : if before.isEmpty then none else readPlace? before (c :: cs) with
    | some e =>
      rw [hat] at h
      cases h
    | none =>
      rw [hat] at h
      refine Nat.lt_of_le_of_ne (Nat.lt_succ_iff.1 (ih h (behind_cons ▸ hg))) fun he => ?_
      cases hat.symm.trans (readPlace?_at.2 ⟨hg, he⟩)

/-- Of the ways to write a text as a finding there is one for each file. -/
theorem Finding.Writes.unique {text : List Char} (hf : f.Writes text) (hg : g.Writes text)
    (h : f.file.length = g.file.length) : f = g := by
  obtain ⟨hfile, htail⟩ := List.append_inj (hf.text_eq.symm.trans hg.text_eq) h
  exact Finding.tail_injective hf.toCounted hg.toCounted htail hfile

/-- **A line is read as the finding that is on it**: as `f` just if `f` is `IsOn` the line. -/
theorem readFinding?_eq_some_iff : readFinding? line = some f ↔ f.IsOn line := by
  constructor
  · intro h
    obtain ⟨hwrites, hshortest⟩ := writes_of_readFindingBehind? h
    exact ⟨hwrites, fun g hg => hshortest g hg (Nat.zero_le _)⟩
  · rintro ⟨hwrites, hshortest⟩
    cases hread : readFinding? line with
    | none => exact absurd (not_writes_of_readFindingBehind? hread hwrites) (Nat.not_lt_zero _)
    | some e =>
      obtain ⟨he, hleast⟩ := writes_of_readFindingBehind? hread
      have hlength : e.file.length = f.file.length :=
        Nat.le_antisymm (hleast f hwrites (Nat.zero_le _)) (hshortest e he)
      rw [he.unique hwrites hlength]

/-- Parentheses in the name of a file are part of it, and a finding in a message is not one. -/
example : readFinding? "a(1).ts(2,3): error TS4: b(5,6): error TS7: c".toList =
    some { file := "a(1).ts".toList, line := ['2'], column := ['3'], code := ['4'],
           message := "b(5,6): error TS7: c".toList } := by
  decide

/-- **A line is passed over just if it cannot be read as a finding**: no `g` writes what is left of
    it by `trim`. -/
theorem readFinding?_eq_none_iff :
    readFinding? line = none ↔ ∀ g : Finding, ¬g.Writes (trim line) := by
  constructor
  · intro h g hg
    exact absurd (not_writes_of_readFindingBehind? h hg) (Nat.not_lt_zero _)
  · intro h
    cases hread : readFinding? line with
    | none => rfl
    | some f => exact absurd (readFinding?_eq_some_iff.1 hread).writes (h f)

end Findings

end StagedEdits
