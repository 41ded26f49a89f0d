import StagedEdits.Proofs.UnreadableHead

set_option autoImplicit false

/-! # The grammar of tags

A stream in which prose and well-formed tags alternate, as it is written: attributes in any order
with blanks before them and values in quotes of either kind, and behind the head a body and the
text that closes the tag, or nothing where the tag closes itself. A value may hold anything but its
own quote and an ampersand, a body anything but the text that closes it, and prose anything but the
text that opens a tag.

Two readers go over a head, the scan for its end and the reader of its attributes. Both are shown
to come to what was written.

Main definitions: `Attribute`, `Tag`, `Tag.Asks` (the directive a tag asks for), `Stream`,
`HeadText`. Main statements: `Parser.scanHead_of_headText`, `Tag.headText_head`,
`Tag.parseAttributes_head`. -/

namespace StagedEdits

/-! ## What is written -/

/-- An attribute as it is written, with the blanks before it. -/
structure Attribute where
  gap : List Char
  name : String
  quote : Char
  value : List Char
  gap_ne_nil : gap ≠ []
  gap_blank : ∀ c ∈ gap, isBlank c = true
  name_start : ∃ c cs, name.toList = c :: cs ∧ isNameStart c = true ∧
    ∀ d ∈ cs, isNameChar d = true
  quote_either : quote = '"' ∨ quote = '\''
  quote_notMem : quote ∉ value
  ampersand_notMem : '&' ∉ value

/-- The text of `a`. -/
def Attribute.text (a : Attribute) : List Char :=
  a.gap ++ (a.name.toList ++ '=' :: a.quote :: (a.value ++ [a.quote]))

/-- The names of `attrs` with their values. -/
def attributeRows (attrs : List Attribute) : List (String × String) :=
  attrs.map (fun a => (a.name, String.ofList a.value))

/-- The value of `name` among `attrs`, if it is there. -/
def valueOf? (attrs : List Attribute) (name : String) : Option String :=
  lookupRow name (attributeRows attrs)

/-- A tag of `mark` as it is written. -/
structure Tag (mark : String) where
  name : TagName
  attrs : List Attribute
  /-- The blanks behind the last attribute. -/
  gap : List Char
  /-- The body; a tag without one closes itself. -/
  body : Option (List Char)
  distinct : (attrs.map Attribute.name).Nodup
  gap_blank : ∀ c ∈ gap, isBlank c = true
  body_free : ∀ b ∈ body, ¬ (Parser.ofMark mark).closer name <:+: b

namespace Tag

variable {mark : String} (t : Tag mark)

/-- The attributes and the blanks behind them. -/
def head : List Char := t.attrs.flatMap Attribute.text ++ t.gap

/-- What stands behind the attributes: the end of the head and, unless the tag closes itself, the
    body and the text that closes the tag. -/
def ending : List Char :=
  match t.body with
  | none => ['/', '>']
  | some body => '>' :: (body ++ (Parser.ofMark mark).closer t.name)

/-- The text of a tag. -/
def text : List Char :=
  (Parser.ofMark mark).opener ++ (t.name.text.toList ++ (t.head ++ t.ending))

/-- The directive that `t`, if it is well-formed, asks for: its paths are accepted by the guard, a
    write has a body and a list of packages is not empty. -/
inductive Asks (t : Tag mark) : Directive → Prop
  | write {raw path : String} {body : List Char} (hname : t.name = .write)
      (hpath : valueOf? t.attrs "path" = some raw) (haccepted : normalize raw = .ok path)
      (hbody : t.body = some body) :
      Asks t (.write path (String.ofList (bodyContent body))
        ((valueOf? t.attrs "description").filter (· ≠ "")))
  | rename {rawSource rawTarget source target : String} (hname : t.name = .rename)
      (hfrom : valueOf? t.attrs "from" = some rawSource)
      (hto : valueOf? t.attrs "to" = some rawTarget)
      (hsource : normalize rawSource = .ok source) (htarget : normalize rawTarget = .ok target) :
      Asks t (.rename source target)
  | delete {raw path : String} (hname : t.name = .delete)
      (hpath : valueOf? t.attrs "path" = some raw) (haccepted : normalize raw = .ok path) :
      Asks t (.delete path)
  | addDependency {listing : String} (hname : t.name = .addDependency)
      (hpackages : valueOf? t.attrs "packages" = some listing)
      (hsome : words listing.toList ≠ []) :
      Asks t (.addDependency (Names.ofList ((words listing.toList).map String.ofList)))

end Tag

/-- Prose and a well-formed tag of `mark` behind it. -/
structure Passage (mark : String) where
  prose : List Char
  tag : Tag mark
  directive : Directive
  free : ¬ (Parser.ofMark mark).opener <:+: prose
  asks : tag.Asks directive

/-- The text of `s`. -/
def Passage.text {mark : String} (s : Passage mark) : List Char := s.prose ++ s.tag.text

/-- A stream in which prose and well-formed tags of `mark` alternate. -/
structure Stream (mark : String) where
  passages : List (Passage mark)
  /-- The prose behind the last tag. -/
  last : List Char
  free : ¬ (Parser.ofMark mark).opener <:+: last

/-- The text of `s`. -/
def Stream.text {mark : String} (s : Stream mark) : List Char :=
  s.passages.flatMap Passage.text ++ s.last

/-- The directives of passages, each with the place of its tag, if the first passage stands at
    `start`. -/
def parsedFrom {mark : String} (start : Nat) : List (Passage mark) → List Parsed
  | [] => []
  | s :: rest =>
    let opened := start + s.prose.length
    let closed := opened + s.tag.text.length
    ⟨s.directive, opened, closed⟩ :: parsedFrom closed rest

/-! ## Searching behind a text without the needle -/

theorem find_eq_none {needle text : List Char} (h : ¬ needle <:+: text) :
    find needle text = none := by
  cases hf : find needle text with
  | none => rfl
  | some i =>
    exact absurd ((find_some hf).1.isInfix.trans (List.drop_suffix i text).isInfix) h

/-- A needle that starts with a character which it does not hold again is not found before the
    place where it stands, if the text before that place does not hold it. -/
theorem find_behind {c : Char} {cs before : List Char} (hc : c ∉ cs)
    (h : ¬ (c :: cs) <:+: before) (rest : List Char) :
    find (c :: cs) (before ++ (c :: cs ++ rest)) = some before.length := by
  induction before with
  | nil => exact find_prefix (List.cons_ne_nil c cs) rest
  | cons d ds ih =>
    have hds : ¬ (c :: cs) <:+: ds := fun hi => h (hi.trans (List.suffix_cons d ds).isInfix)
    -- a hit here would end behind the prose, so the first character would stand in the needle again
    have hhere : ¬ (c :: cs) <+: (d :: ds) ++ (c :: cs ++ rest) := by
      intro hp
      rcases List.prefix_or_prefix_of_prefix hp (List.prefix_append (d :: ds) _) with hin | ⟨more, hm⟩
      · exact h hin.isInfix
      · rw [← hm, List.prefix_append_right_inj] at hp
        cases more with
        | nil =>
          rw [List.append_nil] at hm
          exact h (hm ▸ List.infix_rfl)
        | cons m ms =>
          have hmd : m = d := (List.cons_prefix_cons.1 hp).1
          rw [List.cons_append, List.cons.injEq] at hm
          refine hc ?_
          rw [← hm.2, ← hm.1, hmd]
          exact List.mem_append_right ds List.mem_cons_self
    rw [List.cons_append, find, if_neg (by simpa using hhere), ih hds]
    rfl

/-! ## Blanks -/

theorem isNameStart_of_isBlank {c : Char} (h : isBlank c = true) : isNameStart c = false := by
  cases hs : isNameStart c with
  | false => rfl
  | true =>
    simp only [isNameStart, isAsciiLetter, Bool.or_eq_true, Bool.and_eq_true, decide_eq_true_eq,
      beq_iff_eq] at hs
    simp only [isBlank, Bool.or_eq_true, Bool.and_eq_true, decide_eq_true_eq, beq_iff_eq] at h
    rcases hs with hs | rfl
    · omega
    · revert h
      decide

/-- Whether `c` neither ends a head nor opens a quote. -/
def isPlainInHead (c : Char) : Bool := !(['>', '<', '"', '\''].contains c)

/-- The characters of a class that has none of the four which count in a head are plain. -/
theorem isPlainInHead_of {p : Char → Bool} (hp : ['>', '<', '"', '\''].all (fun d => !p d) = true)
    {c : Char} (h : p c = true) : isPlainInHead c = true := by
  cases hc : ['>', '<', '"', '\''].contains c with
  | false => rw [isPlainInHead, hc]; rfl
  | true =>
    have hnot := List.all_eq_true.1 hp c (List.contains_iff_mem.1 hc)
    rw [h] at hnot
    exact absurd hnot (by decide)

theorem isPlainInHead_of_isBlank {c : Char} (h : isBlank c = true) : isPlainInHead c = true :=
  isPlainInHead_of (by decide) h

theorem isPlainInHead_of_isNameStart {c : Char} (h : isNameStart c = true) :
    isPlainInHead c = true :=
  isPlainInHead_of (by decide) h

theorem isPlainInHead_of_isNameChar {c : Char} (h : isNameChar c = true) :
    isPlainInHead c = true :=
  isPlainInHead_of (by decide) h

/-- The text of a head, as far as it counts where the head ends: values in quotes, which hold
    anything but their own quote, and other characters. -/
inductive HeadText : List Char → Prop
  | nil : HeadText []
  | plain {c : Char} {cs : List Char} (hc : isPlainInHead c = true) (hcs : HeadText cs) :
    HeadText (c :: cs)
  | quoted {q : Char} {value cs : List Char} (hq : q = '"' ∨ q = '\'') (hvalue : q ∉ value)
    (hcs : HeadText cs) : HeadText (q :: (value ++ q :: cs))

namespace HeadText

theorem append {cs ds : List Char} (h : HeadText cs) (hds : HeadText ds) :
    HeadText (cs ++ ds) := by
  induction h with
  | nil => exact hds
  | plain hc _ ih => exact ih.plain hc
  | quoted hq hvalue _ ih =>
    rw [List.cons_append, List.append_assoc, List.cons_append]
    exact ih.quoted hq hvalue

theorem of_plain {cs : List Char} (h : ∀ c ∈ cs, isPlainInHead c = true) : HeadText cs := by
  induction cs with
  | nil => exact .nil
  | cons c cs ih =>
    exact (ih fun d hd => h d (List.mem_cons_of_mem c hd)).plain (h c List.mem_cons_self)

end HeadText

/-- **The scan of a head passes over its text**: it ends in `rest` where it would end there
    alone. -/
theorem Parser.scanHead_of_headText {head : List Char} (h : HeadText head) (rest : List Char) :
    scanHead none (head ++ rest) = (scanHead none rest).shift head.length := by
  induction h with
  | nil => exact (HeadScan.shift_zero _).symm
  | @plain c cs hc _ ih =>
    simp only [isPlainInHead, List.contains_cons, List.contains_nil, Bool.or_false, Bool.not_or,
      Bool.and_eq_true, Bool.not_eq_true', beq_eq_false_iff_ne] at hc
    obtain ⟨hgt, hlt, hdouble, hsingle⟩ := hc
    rw [List.cons_append, scanHead_unquoted hgt hlt, if_neg (by simp [hdouble, hsingle]), ih,
      HeadScan.shift_shift]
    rfl
  | @quoted q value cs hq hvalue _ ih =>
    have hcount : q ≠ '>' ∧ q ≠ '<' ∧ (q = '"' || q = '\'') = true := by
      rcases hq with rfl | rfl <;> decide
    rw [List.cons_append, List.append_assoc, List.cons_append,
      scanHead_unquoted hcount.1 hcount.2.1, if_pos hcount.2.2, scanHead_of_quoted hvalue, ih,
      HeadScan.shift_shift, HeadScan.shift_shift]
    congr 1
    simp only [List.length_append, List.length_cons]
    omega

/-! ## Attributes -/

namespace Attribute

variable (a : Attribute)

/-- An attribute is text of a head. -/
theorem headText : HeadText a.text := by
  obtain ⟨c, cs, hname, hstart, hchars⟩ := a.name_start
  have hlead : ∀ d ∈ a.gap ++ (a.name.toList ++ ['=']), isPlainInHead d = true := by
    intro d hd
    rw [hname] at hd
    simp only [List.cons_append, List.mem_append, List.mem_cons, List.not_mem_nil, or_false] at hd
    rcases hd with hd | rfl | hd | rfl
    · exact isPlainInHead_of_isBlank (a.gap_blank d hd)
    · exact isPlainInHead_of_isNameStart hstart
    · exact isPlainInHead_of_isNameChar (hchars d hd)
    · decide
  have htext : a.text =
      (a.gap ++ (a.name.toList ++ ['='])) ++ (a.quote :: (a.value ++ [a.quote])) := by
    simp only [text, List.append_assoc, List.cons_append, List.nil_append]
  rw [htext]
  exact (HeadText.of_plain hlead).append (.quoted a.quote_either a.quote_notMem .nil)

/-- The reader of attributes reads what was written. -/
theorem readAttribute_text (rest : List Char) :
    readAttribute (a.name.toList ++ '=' :: a.quote :: (a.value ++ a.quote :: rest)) =
      some (a.name.toList, a.value, rest) := by
  obtain ⟨c, cs, hname, hstart, hchars⟩ := a.name_start
  rw [hname]
  refine readAttribute_of_quoted hstart hchars ?_ a.quote_notMem
  rcases a.quote_either with h | h <;> rw [h] <;> decide

end Attribute

/-- Blanks in front of attributes are passed over. -/
theorem rawAttributes_of_blank {gap : List Char} (h : ∀ c ∈ gap, isBlank c = true)
    (rest : List Char) : rawAttributes (gap ++ rest) = rawAttributes rest := by
  induction gap with
  | nil => rfl
  | cons c gap ih =>
    have hc := isNameStart_of_isBlank (h c List.mem_cons_self)
    rw [List.cons_append, rawAttributes_cons_of_none (by simp [readAttribute, hc]),
      ih fun d hd => h d (List.mem_cons_of_mem c hd)]

/-- The attributes of a head are read as they were written. -/
theorem rawAttributes_flatMap (attrs : List Attribute) {gap : List Char}
    (h : ∀ c ∈ gap, isBlank c = true) :
    rawAttributes (attrs.flatMap Attribute.text ++ gap) =
      attrs.map (fun a => (a.name.toList, a.value)) := by
  induction attrs with
  | nil =>
    have hgap := rawAttributes_of_blank h []
    rwa [List.append_nil, rawAttributes] at hgap
  | cons a attrs ih =>
    rw [List.flatMap_cons, Attribute.text, List.append_assoc, List.append_assoc,
      rawAttributes_of_blank a.gap_blank]
    simp only [List.append_assoc, List.cons_append, List.nil_append]
    rw [rawAttributes_of_some (a.readAttribute_text _), ih]
    rfl

/-- The table of a head. -/
theorem parseAttributes_flatMap (attrs : List Attribute) {gap : List Char}
    (h : ∀ c ∈ gap, isBlank c = true) :
    parseAttributes (attrs.flatMap Attribute.text ++ gap) =
      .ok (Table.ofList (attributeRows attrs)) := by
  have hrows : (attrs.map fun a => (a.name.toList, a.value)).mapM
      (fun a : List Char × List Char => do
        return (String.ofList a.1, String.ofList (← expandRefs a.2))) =
      (Except.ok (attributeRows attrs) : Except NumberFault _) := by
    induction attrs with
    | nil => rfl
    | cons a attrs ih =>
      rw [List.map_cons, List.mapM_cons, expandRefs_of_not_mem a.ampersand_notMem, ih]
      simp only [attributeRows, List.map_cons, String.ofList_toList]
      rfl
  rw [parseAttributes, rawAttributes_flatMap attrs h, hrows]
  rfl

namespace Table

variable {α : Type}

theorem get?_foldl_rows {rows : List (String × α)} (h : (rows.map Prod.fst).Nodup) (t : Table α)
    (k : String) :
    (rows.foldl (fun t r => t.set r.1 r.2) t).get? k = (lookupRow k rows).or (t.get? k) := by
  induction rows generalizing t with
  | nil => rfl
  | cons r rows ih =>
    obtain ⟨j, v⟩ := r
    rw [List.map_cons, List.nodup_cons] at h
    rw [List.foldl_cons, ih h.2, get?_set, lookupRow]
    by_cases hj : j = k
    · -- the key does not come again, so its value stays
      have hnone : lookupRow k rows = none := by
        rw [← Option.not_isSome_iff_eq_none, ← mem_keys_iff, ← hj]
        exact h.1
      rw [hnone, if_pos hj, if_pos hj.symm]
      rfl
    · rw [if_neg hj, if_neg (Ne.symm hj)]

/-- The table of rows with different keys gives each key the value of its row. -/
theorem get?_ofList {rows : List (String × α)} (h : (rows.map Prod.fst).Nodup) (k : String) :
    (ofList rows).get? k = lookupRow k rows := by
  rw [ofList, get?_foldl_rows h, get?_empty, Option.or_none]

end Table

/-! ## The end of a head -/

section Ends

variable {α : Type} {p : α → Bool} {xs ys : List α}

theorem dropEndWhile_append_of_pos (h : ∀ x ∈ ys, p x = true) :
    dropEndWhile p (xs ++ ys) = dropEndWhile p xs := by
  rw [dropEndWhile, List.reverse_append,
    List.dropWhile_append_of_pos fun x hx => h x (List.mem_reverse.1 hx)]
  rfl

theorem dropEndWhile_of_getLast? {x : α} (hx : xs.getLast? = some x) (h : p x = false) :
    dropEndWhile p xs = xs := by
  obtain ⟨ys, rfl⟩ := List.getLast?_eq_some_iff.1 hx
  exact dropEndWhile_concat_of_neg ys h

end Ends

/-- Attributes end with a quote. -/
theorem getLast?_flatMap_text {attrs : List Attribute} (h : attrs ≠ []) :
    ∃ q, (attrs.flatMap Attribute.text).getLast? = some q ∧ (q = '"' ∨ q = '\'') := by
  obtain ⟨lead, a, rfl⟩ := List.eq_nil_or_concat attrs |>.resolve_left h
  refine ⟨a.quote, ?_, a.quote_either⟩
  simp [Attribute.text, List.flatMap_append, List.getLast?_cons]

namespace Tag

variable {mark : String} (t : Tag mark)

theorem headText_head : HeadText t.head := by
  have hattrs (attrs : List Attribute) : HeadText (attrs.flatMap Attribute.text) := by
    induction attrs with
    | nil => exact .nil
    | cons a attrs ih =>
      rw [List.flatMap_cons]
      exact a.headText.append ih
  exact (hattrs t.attrs).append (.of_plain fun c hc => isPlainInHead_of_isBlank (t.gap_blank c hc))

/-- What the attributes of a tag are read as. -/
def table : Table String := Table.ofList (attributeRows t.attrs)

theorem get?_table (name : String) : t.table.get? name = valueOf? t.attrs name := by
  refine Table.get?_ofList ?_ name
  have hkeys : (attributeRows t.attrs).map Prod.fst = t.attrs.map Attribute.name := by
    simp only [attributeRows, List.map_map]
    rfl
  rw [hkeys]
  exact t.distinct

theorem parseAttributes_head : parseAttributes t.head = .ok t.table :=
  parseAttributes_flatMap t.attrs t.gap_blank

/-- The blanks at its end are no part of what is read of a head. -/
theorem parseAttributes_trimEnd (h : t.attrs ≠ []) :
    parseAttributes (dropEndWhile (· == '/') (trimEnd t.head)) = .ok t.table ∧
      ((trimEnd t.head).getLast? == some '/') = false := by
  obtain ⟨q, hq, heither⟩ := getLast?_flatMap_text h
  have htrim : trimEnd t.head = t.attrs.flatMap Attribute.text := by
    rw [trimEnd, head, dropEndWhile_append_of_pos t.gap_blank]
    refine dropEndWhile_of_getLast? hq ?_
    rcases heither with rfl | rfl <;> decide
  have hslash : (q == '/') = false := by rcases heither with rfl | rfl <;> decide
  rw [htrim, dropEndWhile_of_getLast? hq hslash, hq]
  have hread := @parseAttributes_flatMap t.attrs [] (by simp)
  rw [List.append_nil] at hread
  exact ⟨hread, by simpa using hslash⟩

/-- The slash of a tag that closes itself is no part of what is read of its head. -/
theorem parseAttributes_slash (h : t.attrs ≠ []) :
    parseAttributes (dropEndWhile (· == '/') (trimEnd (t.head ++ ['/']))) = .ok t.table ∧
      ((trimEnd (t.head ++ ['/'])).getLast? == some '/') = true := by
  have htrim : trimEnd (t.head ++ ['/']) = t.head ++ ['/'] :=
    dropEndWhile_concat_of_neg t.head (by decide)
  -- the head ends with the last quote or with a blank
  have hend : ∃ c, t.head.getLast? = some c ∧ (c == '/') = false := by
    cases hg : t.gap.getLast? with
    | some c =>
      have hc := t.gap_blank c (List.mem_of_getLast? hg)
      refine ⟨c, by rw [head, List.getLast?_append, hg]; rfl, ?_⟩
      exact beq_eq_false_iff_ne.2 fun e => by rw [e] at hc; revert hc; decide
    | none =>
      obtain ⟨q, hq, heither⟩ := getLast?_flatMap_text h
      refine ⟨q, by rw [head, List.getLast?_append, hg, hq]; rfl, ?_⟩
      rcases heither with rfl | rfl <;> decide
  obtain ⟨c, hc, hslash⟩ := hend
  rw [htrim, dropEndWhile_concat_of_pos _ (by decide), dropEndWhile_of_getLast? hc hslash]
  exact ⟨t.parseAttributes_head, by simp⟩

end Tag

/-! ## What a closed tag comes to -/

theorem Parser.given?_eq (attrs : Table String) (name : String) :
    given? attrs name = (attrs.get? name).filter (· ≠ "") := by
  unfold given?
  split
  · rename_i h
    rw [h]
    rfl
  · rename_i v h
    cases hv : attrs.get? name with
    | none => rfl
    | some s =>
      have hs : s ≠ "" := fun e => h (by rw [hv, e])
      simp [Option.filter, hs]

theorem ne_empty_of_normalize {raw path : String} (h : normalize raw = .ok path) : raw ≠ "" := by
  rintro rfl
  have hrefused : normalize "" = .error ⟨"", .namesNothing⟩ := by rfl
  rw [hrefused] at h
  cases h

/-- **A closed tag comes to the directive `d` that it asks for.** -/
theorem Tag.Asks.build {mark : String} {t : Tag mark} {d : Directive} (h : t.Asks d) (p : Parser)
    (start stop : Nat) :
    p.build t.name t.table t.body start stop = .directive t.name ⟨d, start, stop⟩ := by
  have hgiven : ∀ {name raw path : String}, valueOf? t.attrs name = some raw →
      normalize raw = .ok path → Parser.given? t.table name = some raw := by
    intro name raw path hv hn
    have hne := ne_empty_of_normalize hn
    rw [Parser.given?_eq, t.get?_table, hv]
    simp [Option.filter, hne]
  cases h with
  | write hname hpath haccepted hbody =>
    simp only [Parser.build, hname, hgiven hpath haccepted, hbody, haccepted, Parser.given?_eq,
      t.get?_table]
    rfl
  | rename hname hfrom hto hsource htarget =>
    simp only [Parser.build, hname, hgiven hfrom hsource, hgiven hto htarget, hsource, htarget]
    rfl
  | delete hname hpath haccepted =>
    simp only [Parser.build, hname, hgiven hpath haccepted, haccepted]
    rfl
  | addDependency hname hpackages hsome =>
    simp only [Parser.build, hname, t.get?_table, hpackages, Option.getD_some]

end StagedEdits
