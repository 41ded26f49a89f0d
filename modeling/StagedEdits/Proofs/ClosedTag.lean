import StagedEdits.Proofs.TagGrammar

set_option autoImplicit false

/-! # Closed tags

What a closed tag is, whatever it asks for: an opener with a known name, a head in which quotes
pair, and behind its `>` a body up to the first text that closes the tag, unless the head ends with
a slash. An opener that no tag of a known name stands at is prose if its name is not known or runs
into something else, or if its head runs into a `<`.

What the parser makes of an opener is decided by what stands there, and by nothing else: a closed
tag comes to one outcome, prose to none, a head that cannot be read stops the parser, and at what is
cut off it waits.

Main definitions: `ClosedTag`, `ProseOpener`, `UnreadableHead`, `Parser.AtOpener`. Main statements:
`Parser.nameStage_of_closed`, `Parser.nameStage_reads` (all that a pass makes of an opener),
`ClosedTag.unique`, `Parser.directive_of_build`. -/

namespace StagedEdits

/-! ## Parts of a text -/

section Parts

variable {text xs rest : List Char} {start : Nat}

theorem drop_of_drop (h : text.drop start = xs ++ rest) :
    text.drop (start + xs.length) = rest := by
  rw [← List.drop_drop, h, List.drop_left]

theorem slice_of_drop (h : text.drop start = xs ++ rest) :
    slice text start (start + xs.length) = xs := by
  rw [slice, h, Nat.add_sub_cancel_left, List.take_left]

end Parts

/-- A hit is the first place where the needle stands. -/
theorem find_eq_some {needle text : List Char} {i : Nat} (h : needle <+: text.drop i)
    (hfirst : ∀ j < i, ¬ needle <+: text.drop j) : find needle text = some i := by
  cases hf : find needle text with
  | none => exact absurd h (find_none hf i)
  | some k =>
    rcases Nat.lt_trichotomy i k with hlt | rfl | hgt
    · exact absurd h (find_first hf hlt)
    · rfl
    · exact absurd (find_some hf).1 (hfirst k hgt)

/-- That `body`, with `closer` behind it, holds that nowhere but there. -/
def EndsFirst (closer body : List Char) : Prop :=
  ∀ j < body.length, ¬ closer <+: (body ++ closer).drop j

theorem find_of_endsFirst {closer body : List Char} (h : EndsFirst closer body)
    (rest : List Char) : find closer (body ++ (closer ++ rest)) = some body.length := by
  refine find_eq_some (by rw [List.drop_left]; exact List.prefix_append closer rest) ?_
  intro j hj hp
  rw [← List.append_assoc] at hp
  exact h j hj (isPrefix_of_grown hp (by rw [List.length_append]; omega))

theorem endsFirst_of_find {closer text : List Char} {i : Nat} (h : find closer text = some i) :
    ∃ rest, text = text.take i ++ (closer ++ rest) ∧ EndsFirst closer (text.take i) := by
  obtain ⟨hp, hlen⟩ := find_some h
  obtain ⟨rest, hrest⟩ := hp
  have htext : text = text.take i ++ (closer ++ rest) := by rw [hrest, List.take_append_drop]
  have htake : (text.take i).length = i := List.length_take_of_le (by omega)
  refine ⟨rest, htext, fun j hj hj' => find_first h (htake ▸ hj) ?_⟩
  rw [htext, ← List.append_assoc, List.drop_append_of_le_length]
  · exact hj'.trans (List.prefix_append _ rest)
  · rw [List.length_append]
    omega

/-! ## Heads -/

/-- The attributes of `head`, without the slashes of a tag that closes itself. -/
def headAttributes (head : List Char) : Except NumberFault (Table String) :=
  parseAttributes (dropEndWhile (· == '/') (trimEnd head))

/-- Whether the tag of `head` closes itself. -/
def closesItself (head : List Char) : Bool := (trimEnd head).getLast? == some '/'

/-- That `head` may stand behind the name of a tag. -/
def StandsApart (head : List Char) : Prop := ∀ c ∈ head.head?, TagName.isEnd c = true

theorem StandsApart.cons {head : List Char} (h : StandsApart head) (rest : List Char) :
    ∃ c cs, head ++ '>' :: rest = c :: cs ∧ TagName.isEnd c = true := by
  cases head with
  | nil => exact ⟨'>', rest, rfl, by decide⟩
  | cons c cs => exact ⟨c, cs ++ '>' :: rest, rfl, h c rfl⟩

/-- Where a scan of a text ends that begins outside of quotes. -/
inductive HeadEnds : List Char → Parser.HeadScan → Prop
  | closed {head : List Char} (h : HeadText head) (rest : List Char) :
    HeadEnds (head ++ '>' :: rest) (.closed head.length)
  | prose {head : List Char} (h : HeadText head) (rest : List Char) :
    HeadEnds (head ++ '<' :: rest) .prose
  | more (cs : List Char) (quote : Option Char) : HeadEnds cs (.more quote)

theorem HeadEnds.plain {c : Char} {cs : List Char} {s : Parser.HeadScan} (h : HeadEnds cs s)
    (hc : isPlainInHead c = true) : HeadEnds (c :: cs) (s.shift 1) := by
  cases h with
  | closed h rest => exact .closed (h.plain hc) rest
  | prose h rest => exact .prose (h.plain hc) rest
  | more cs quote => exact .more _ _

theorem HeadEnds.quoted {q : Char} {value cs : List Char} {s : Parser.HeadScan}
    (h : HeadEnds cs s) (hq : q = '"' ∨ q = '\'') (hvalue : q ∉ value) :
    HeadEnds (q :: (value ++ q :: cs)) (s.shift (value.length + 2)) := by
  cases h with
  | @closed head h rest =>
    have hends := HeadEnds.closed (h.quoted hq hvalue) rest
    simp only [List.cons_append, List.append_assoc, List.length_cons, List.length_append] at hends
    have hlen : value.length + (head.length + 1) + 1 = head.length + (value.length + 2) := by omega
    rw [hlen] at hends
    exact hends
  | @prose head h rest =>
    have hends := HeadEnds.prose (h.quoted hq hvalue) rest
    simp only [List.cons_append, List.append_assoc] at hends
    exact hends
  | more cs quote => exact .more _ _

namespace Parser

/-- A quote that does not end is read on in. -/
theorem scanHead_of_open_quote {q : Char} {cs : List Char} (h : q ∉ cs) :
    scanHead (some q) cs = .more (some q) := by
  induction cs with
  | nil => rfl
  | cons c cs ih =>
    have hc : c ≠ q := fun e => h (by simp [e])
    rw [scanHead_quoted, if_neg hc, ih fun e => h (List.mem_cons_of_mem c e)]
    rfl

/-- **A scan ends where the head does, or at a `<` outside of quotes, or not at all.** -/
theorem scanHead_ends (cs : List Char) : HeadEnds cs (scanHead none cs) := by
  match cs with
  | [] => exact .more [] none
  | c :: cs =>
    by_cases hgt : c = '>'
    · subst hgt
      exact .closed .nil cs
    by_cases hlt : c = '<'
    · subst hlt
      exact .prose .nil cs
    rw [scanHead_unquoted hgt hlt]
    by_cases hq : (c = '"' || c = '\'') = true
    · rw [if_pos hq]
      have heither : c = '"' ∨ c = '\'' := by simpa using hq
      by_cases hmem : c ∈ cs
      · -- the scan goes on behind the first quote of the same kind
        obtain ⟨value, behind, rfl, hvalue⟩ := List.eq_append_cons_of_mem hmem
        have hbehind := (scanHead_ends behind).quoted heither hvalue
        rw [scanHead_of_quoted hvalue, HeadScan.shift_shift]
        exact hbehind
      · rw [scanHead_of_open_quote hmem]
        exact .more _ _
    · rw [if_neg hq]
      have hplain : isPlainInHead c = true := by
        have hquotes : c ≠ '"' ∧ c ≠ '\'' := by simpa using hq
        simp [isPlainInHead, hgt, hlt, hquotes]
      exact (scanHead_ends cs).plain hplain
termination_by cs.length
decreasing_by
  · subst_vars
    simp only [List.length_cons, List.length_append]
    omega
  · simp

end Parser

/-! ## What stands at an opener -/

/-- A tag of `mark` and a known name that has closed. -/
structure ClosedTag (mark : String) where
  name : TagName
  /-- What stands between the name and the `>`. -/
  head : List Char
  /-- What stands between the head and what closes the tag; a tag that closes itself has none. -/
  body : Option (List Char)
  head_apart : StandsApart head
  head_text : HeadText head
  body_none : body = none ↔ closesItself head = true
  body_ends : ∀ b ∈ body, EndsFirst ((Parser.ofMark mark).closer name) b

namespace ClosedTag

variable {mark : String} (t : ClosedTag mark)

/-- What stands behind the head. -/
def ending : List Char :=
  match t.body with
  | none => []
  | some b => b ++ (Parser.ofMark mark).closer t.name

/-- The text of a tag. -/
def text : List Char :=
  (Parser.ofMark mark).opener ++ (t.name.text.toList ++ (t.head ++ '>' :: t.ending))

theorem length_text :
    t.text.length = (Parser.ofMark mark).opener.length + t.name.text.toList.length + t.head.length +
      1 + t.ending.length := by
  simp only [text, List.length_append, List.length_cons]
  omega

/-- A tag stands where all its parts do. -/
theorem isPrefix_of_parts {cs rest : List Char}
    (h : cs = (Parser.ofMark mark).opener ++
      (t.name.text.toList ++ (t.head ++ '>' :: (t.ending ++ rest)))) : t.text <+: cs :=
  ⟨rest, by rw [h, text]; simp only [List.append_assoc, List.cons_append]⟩

theorem opener_isPrefix : (Parser.ofMark mark).opener <+: t.text := List.prefix_append _ _

theorem length_text_pos : 0 < t.text.length := by
  have h := t.opener_isPrefix.length_le
  have hpos := List.length_pos_iff.2 (Parser.ofMark mark).opener_ne_nil
  omega

end ClosedTag

/-- That at the beginning of a text stands an opener of `mark` that opens no tag: its name is not
    known or does not end, or its head runs into another tag. -/
inductive ProseOpener (mark : String) : List Char → Prop
  | name {name : List Char} {c : Char} {rest : List Char}
    (hread : TagName.read (name ++ c :: rest) = name)
    (h : TagName.ofChars? name = none ∨ TagName.isEnd c = false) :
    ProseOpener mark ((Parser.ofMark mark).opener ++ (name ++ c :: rest))
  | head (tag : TagName) {c : Char} {head : List Char} (rest : List Char)
    (hend : TagName.isEnd c = true) (h : HeadText (c :: head)) :
    ProseOpener mark ((Parser.ofMark mark).opener ++ (tag.text.toList ++ c :: (head ++ '<' :: rest)))

/-- That at the beginning of `text` stands a head whose attributes cannot be read. -/
def UnreadableHead (mark : String) (text : List Char) : Prop :=
  ∃ (tag : TagName) (head rest : List Char) (f : NumberFault), StandsApart head ∧ HeadText head ∧
    text = (Parser.ofMark mark).opener ++ (tag.text.toList ++ (head ++ '>' :: rest)) ∧
    headAttributes head = .error f

/-- Where a tag is open. -/
def Mode.start? : Mode → Option Nat
  | .prose => none
  | .naming start => some start
  | .head start .. => some start
  | .body start .. => some start

namespace Parser

variable {mark : String} {p : Parser} {start : Nat}

theorem opener_of_mark (h : p.mark = mark) : p.opener = (ofMark mark).opener := by
  rw [opener, h]
  rfl

theorem closer_of_mark (h : p.mark = mark) (tag : TagName) :
    p.closer tag = (ofMark mark).closer tag := by
  rw [closer, h]
  rfl

/-! ## What a pass makes of it -/

/-- A pass that starts in front of an opener goes on behind it. -/
theorem pass_at_opener (hmode : p.mode = .prose) (h : p.opener <+: p.buffer.drop p.cursor) :
    p.pass = p.nameStage p.cursor := by
  obtain ⟨rest, hrest⟩ := h
  have hfind : findFrom p.opener p.buffer p.cursor = some p.cursor := by
    rw [findFrom, ← hrest, find_prefix p.opener_ne_nil]
    rfl
  rw [pass_of_prose hmode, hfind]

/-- Behind a known name and a head the attributes are read: the parser is stuck if they cannot be,
    and else the tag closes or has a body. -/
theorem nameStage_of_head {tag : TagName} {head rest : List Char}
    (hdrop : p.buffer.drop start = p.opener ++ (tag.text.toList ++ (head ++ '>' :: rest)))
    (hapart : StandsApart head) (htext : HeadText head) :
    let nameEnd := start + p.opener.length + tag.text.toList.length
    let bodyStart := nameEnd + head.length + 1
    p.nameStage start =
        (match headAttributes head with
          | .error f =>
            .stuck { p with mode := .head start tag nameEnd (nameEnd + head.length) none } f
          | .ok attrs =>
            if closesItself head then
              .again (p.resume bodyStart) (some (p.build tag attrs none start bodyStart))
            else p.bodyStage start tag attrs bodyStart bodyStart) ∧
      p.buffer.drop bodyStart = rest := by
  intro nameEnd bodyStart
  obtain ⟨c, cs, hcons, hend⟩ := hapart.cons rest
  rw [hcons] at hdrop
  have hname := nameStage_of_name hdrop hend
  have hstage : p.nameStage start = p.headStage start tag nameEnd nameEnd none := hname.1
  have hhead : p.buffer.drop nameEnd = head ++ '>' :: rest := hcons ▸ hname.2
  have hscan : scanHead none (p.buffer.drop nameEnd) = .closed head.length := by
    rw [hhead, scanHead_of_headText htext]
    exact congrArg HeadScan.closed (Nat.zero_add _)
  have hslice : slice p.buffer nameEnd (nameEnd + head.length) = head := slice_of_drop hhead
  refine ⟨?_, ?_⟩
  · rw [hstage, headStage, hscan]
    simp only [hslice]
    rfl
  · rw [← List.drop_drop, drop_of_drop hhead, List.drop_succ_cons, List.drop_zero]

/-- **A closed tag comes to what its attributes and its body say, and nothing of it is read
    again**: the parser goes on at `stop`, behind the text of `t`, with the outcome that `build`
    makes of it. -/
theorem nameStage_of_closed (hp : p.mark = mark) {t : ClosedTag mark} {attrs : Table String}
    (hstands : t.text <+: p.buffer.drop start) (hattrs : headAttributes t.head = .ok attrs) :
    let stop := start + t.text.length
    p.nameStage start =
      .again (p.resume stop) (some (p.build t.name attrs t.body start stop)) := by
  intro stop
  obtain ⟨rest, hrest⟩ := hstands
  have hdrop : p.buffer.drop start =
      p.opener ++ (t.name.text.toList ++ (t.head ++ '>' :: (t.ending ++ rest))) := by
    rw [← hrest, ClosedTag.text, opener_of_mark hp]
    simp only [List.append_assoc, List.cons_append]
  obtain ⟨hstage, hbehind⟩ := nameStage_of_head hdrop t.head_apart t.head_text
  generalize hbody : start + p.opener.length + t.name.text.toList.length + t.head.length + 1 =
    bodyStart at hstage hbehind
  have hstop : stop = bodyStart + t.ending.length := by
    simp only [stop, t.length_text, ← hbody, opener_of_mark hp]
    omega
  simp only [hattrs] at hstage
  rw [hstage]
  cases hb : t.body with
  | none =>
    have hending : t.ending = [] := by rw [ClosedTag.ending, hb]
    rw [hending, List.length_nil, Nat.add_zero] at hstop
    rw [if_pos (t.body_none.1 hb), hstop]
  | some b =>
    have hending : t.ending = b ++ p.closer t.name := by
      rw [ClosedTag.ending, hb, closer_of_mark hp]
    have hopen : ¬ closesItself t.head = true := fun hc => by
      rw [t.body_none.2 hc] at hb
      cases hb
    rw [hending, List.append_assoc] at hbehind
    have hfind : findFrom (p.closer t.name) p.buffer bodyStart = some (bodyStart + b.length) := by
      have hfirst := t.body_ends b hb
      rw [← closer_of_mark hp] at hfirst
      rw [findFrom, hbehind, find_of_endsFirst hfirst]
      rfl
    rw [hending, List.length_append, ← Nat.add_assoc] at hstop
    rw [if_neg hopen]
    simp only [bodyStage, hfind, slice_of_drop hbehind, ← hstop]

/-- An opener that opens no tag is passed over. -/
theorem nameStage_of_prose (hp : p.mark = mark) (h : ProseOpener mark (p.buffer.drop start)) :
    p.nameStage start = .again (p.resume (start + 1)) none := by
  generalize htext : p.buffer.drop start = text at h
  cases h with
  | @name name c rest hread h =>
    rw [← opener_of_mark hp] at htext
    obtain ⟨hstage, -⟩ := nameStage_of_read htext hread
    rw [hstage]
    rcases h with hunknown | hend
    · rw [hunknown]
    · rw [hend]
      cases TagName.ofChars? name <;> rfl
  | @head tag c head rest hend h =>
    rw [← opener_of_mark hp] at htext
    obtain ⟨hstage, hhead⟩ := nameStage_of_name htext hend
    have hscan : scanHead none (c :: (head ++ '<' :: rest)) = .prose := by
      rw [← List.cons_append, scanHead_of_headText h]
      rfl
    simp only [hstage, headStage, hhead, hscan]

/-- A head that cannot be read stops the parser. -/
theorem nameStage_of_unreadable (hp : p.mark = mark)
    (h : UnreadableHead mark (p.buffer.drop start)) : ∃ q f, p.nameStage start = .stuck q f := by
  obtain ⟨tag, head, rest, f, hapart, htext, hdrop, hattrs⟩ := h
  rw [← opener_of_mark hp] at hdrop
  obtain ⟨hstage, -⟩ := nameStage_of_head hdrop hapart htext
  simp only [hattrs] at hstage
  exact ⟨_, f, hstage⟩

/-- What a pass of `p` makes of the opener at `start`, and what then stands there. -/
inductive AtOpener (p : Parser) (start : Nat) : Pass → Prop
  | prose (h : ProseOpener p.mark (p.buffer.drop start)) :
    AtOpener p start (.again (p.resume (start + 1)) none)
  | closed (t : ClosedTag p.mark) {attrs : Table String} (hstands : t.text <+: p.buffer.drop start)
    (hattrs : headAttributes t.head = .ok attrs) :
    AtOpener p start (.again (p.resume (start + t.text.length))
      (some (p.build t.name attrs t.body start (start + t.text.length))))
  | wait (mode : Mode) (hmode : mode.start? = some start) : AtOpener p start (.wait { p with mode })
  | stuck (mode : Mode) (hmode : mode.start? = some start) (f : NumberFault)
    (h : UnreadableHead p.mark (p.buffer.drop start)) : AtOpener p start (.stuck { p with mode } f)

end Parser

namespace TagName

theorem read_isPrefix (cs : List Char) : read cs <+: cs := by
  cases cs with
  | nil => exact List.prefix_rfl
  | cons c cs =>
    rw [read]
    split
    · exact List.cons_prefix_cons.2 ⟨rfl, List.takeWhile_prefix isPart⟩
    · exact List.nil_prefix

theorem text_of_ofChars? {cs : List Char} {tag : TagName} (h : ofChars? cs = some tag) :
    tag.text.toList = cs := by
  simpa using List.find?_some h

end TagName

namespace Parser

variable {p : Parser} {start : Nat} {tag : TagName}

theorem AtOpener.of_prose (h : ProseOpener p.mark (p.buffer.drop start)) :
    AtOpener p start (p.nameStage start) := by
  rw [nameStage_of_prose rfl h]
  exact .prose h

theorem AtOpener.of_closed (t : ClosedTag p.mark) {attrs : Table String}
    (hstands : t.text <+: p.buffer.drop start) (hattrs : headAttributes t.head = .ok attrs) :
    AtOpener p start (p.nameStage start) := by
  rw [nameStage_of_closed rfl hstands hattrs]
  exact .closed t hstands hattrs

/-- A head that begins with an end of the name before it stands apart from the name. -/
theorem standsApart_of_cons {c : Char} {cs head rest : List Char} (h : c :: cs = head ++ rest)
    (hend : TagName.isEnd c = true) : StandsApart head := by
  intro d hd
  cases head with
  | nil => cases hd
  | cons e head =>
    rw [List.cons_append, List.cons.injEq] at h
    rw [List.head?_cons, Option.mem_some_iff] at hd
    rwa [← hd, ← h.1]

/-- What a pass makes of an opener with a known name and an end behind it. -/
theorem headStage_reads {c : Char} {cs : List Char}
    (hdrop : p.buffer.drop start = p.opener ++ (tag.text.toList ++ c :: cs))
    (hend : TagName.isEnd c = true) : AtOpener p start (p.nameStage start) := by
  obtain ⟨hstage, hhead⟩ := nameStage_of_name hdrop hend
  generalize start + p.opener.length + tag.text.toList.length = nameEnd at hstage hhead
  generalize hcons : c :: cs = behind at hdrop hhead
  have hends := scanHead_ends behind
  generalize hscan : scanHead none behind = scan at hends
  cases hends with
  | more _ quote =>
    simp only [hstage, headStage, hhead, hscan]
    exact .wait _ rfl
  | @prose head htext rest =>
    refine .of_prose ?_
    rw [hdrop]
    cases head with
    | nil =>
      rw [List.nil_append, List.cons.injEq] at hcons
      rw [hcons.1] at hend
      exact absurd hend (by decide)
    | cons d head =>
      rw [List.cons_append, List.cons.injEq] at hcons
      exact .head tag rest (hcons.1 ▸ hend) htext
  | @closed head htext rest =>
    have hapart : StandsApart head := standsApart_of_cons hcons hend
    obtain ⟨hstage, hbehind⟩ := nameStage_of_head hdrop hapart htext
    cases hattrs : headAttributes head with
    | error f =>
      simp only [hattrs] at hstage
      rw [hstage]
      exact .stuck _ rfl f ⟨tag, head, rest, f, hapart, htext, hdrop, hattrs⟩
    | ok attrs =>
      by_cases hcloses : closesItself head = true
      · let t : ClosedTag p.mark :=
          { name := tag, head, body := none, head_apart := hapart, head_text := htext,
            body_none := iff_of_true rfl hcloses, body_ends := by rintro _ ⟨⟩ }
        exact .of_closed t (t.isPrefix_of_parts hdrop) hattrs
      · cases hfind : find (p.closer tag) rest with
        | none =>
          simp only [hattrs, if_neg hcloses, bodyStage, findFrom, hbehind, hfind,
            Option.map_none] at hstage
          rw [hstage]
          exact .wait _ rfl
        | some k =>
          obtain ⟨rest', hrest, hfirst⟩ := endsFirst_of_find hfind
          let t : ClosedTag p.mark :=
            { name := tag, head, body := some (rest.take k), head_apart := hapart,
              head_text := htext, body_none := iff_of_false (Option.some_ne_none _) hcloses
              body_ends := by rintro _ ⟨⟩; exact hfirst }
          have hparts : rest = t.ending ++ rest' := by
            rw [show t.ending = rest.take k ++ p.closer tag from rfl, List.append_assoc, ← hrest]
          exact .of_closed t (t.isPrefix_of_parts (hparts ▸ hdrop)) hattrs

/-- **All that a pass makes of an opener** at `start` is listed by `AtOpener`. -/
theorem nameStage_reads (h : p.opener <+: p.buffer.drop start) :
    AtOpener p start (p.nameStage start) := by
  obtain ⟨behind, hdrop⟩ := h
  have hname : p.buffer.drop (start + p.opener.length) = behind := drop_of_drop hdrop.symm
  obtain ⟨tail, htail⟩ := TagName.read_isPrefix behind
  cases tail with
  | nil =>
    -- the name reaches to the end of the text, so it may go on
    have hend : p.buffer[start + p.opener.length + (TagName.read behind).length]? = none := by
      rw [List.append_nil] at htail
      rw [htail, ← List.head?_drop, ← List.drop_drop, hname, List.drop_length, List.head?_nil]
    simp only [nameStage, hname, hend]
    exact .wait _ rfl
  | cons c cs =>
    generalize hread : TagName.read behind = name at htail
    subst htail
    by_cases h : TagName.ofChars? name = none ∨ TagName.isEnd c = false
    · have hprose : ProseOpener p.mark (p.buffer.drop start) := hdrop ▸ .name hread h
      rw [nameStage_of_prose rfl hprose]
      exact .prose hprose
    · rw [not_or] at h
      obtain ⟨tag, htag⟩ := Option.ne_none_iff_exists'.1 h.1
      rw [← TagName.text_of_ofChars? htag] at hdrop
      exact headStage_reads hdrop.symm (by simpa using h.2)

end Parser

/-! ## One tag in one place -/

namespace ClosedTag

variable {mark : String} {t u : ClosedTag mark} {cs : List Char}

theorem unreadable {f : NumberFault} (h : t.text <+: cs)
    (hattrs : headAttributes t.head = .error f) : UnreadableHead mark cs := by
  obtain ⟨rest, rfl⟩ := h
  refine ⟨t.name, t.head, t.ending ++ rest, f, t.head_apart, t.head_text, ?_, hattrs⟩
  rw [text]
  simp only [List.append_assoc, List.cons_append]

/-- A closed tag is no prose. -/
theorem not_prose (h : t.text <+: cs) : ¬ ProseOpener mark cs := by
  intro hprose
  let p := (Parser.ofMark mark).grow cs
  have hdrop : p.buffer.drop 0 = cs := rfl
  have hstage := @Parser.nameStage_of_prose mark p 0 rfl (hdrop ▸ hprose)
  cases hattrs : headAttributes t.head with
  | ok attrs =>
    rw [@Parser.nameStage_of_closed mark p 0 rfl t attrs (hdrop ▸ h) hattrs] at hstage
    exact absurd (Pass.again.inj hstage).2 (Option.some_ne_none _)
  | error f =>
    obtain ⟨q, f, hstuck⟩ := @Parser.nameStage_of_unreadable mark p 0 rfl
      (hdrop ▸ t.unreadable h hattrs)
    rw [hstuck] at hstage
    cases hstage

/-- **A text begins with one closed tag at most.** -/
theorem unique (ht : t.text <+: cs) (hu : u.text <+: cs) : t = u := by
  obtain ⟨rest, hrest⟩ := ht
  obtain ⟨rest', hrest'⟩ := hu
  have hparts := hrest.trans hrest'.symm
  simp only [text, List.append_assoc, List.cons_append, List.append_cancel_left_eq] at hparts
  have hname : t.name = u.name := by
    obtain ⟨c, cs, hcons, hend⟩ := t.head_apart.cons (t.ending ++ rest)
    obtain ⟨d, ds, hcons', hend'⟩ := u.head_apart.cons (u.ending ++ rest')
    have hread := congrArg TagName.read hparts
    rw [hcons, hcons', TagName.read_text _ (TagName.isPart_of_isEnd hend),
      TagName.read_text _ (TagName.isPart_of_isEnd hend')] at hread
    have hknown := congrArg TagName.ofChars? hread
    rwa [TagName.ofChars?_text, TagName.ofChars?_text, Option.some.injEq] at hknown
  rw [hname, List.append_cancel_left_eq] at hparts
  have hlength : t.head.length = u.head.length := by
    have hscan := congrArg (Parser.scanHead none) hparts
    rw [Parser.scanHead_of_headText t.head_text, Parser.scanHead_of_headText u.head_text] at hscan
    simpa [Parser.scanHead, Parser.HeadScan.shift] using hscan
  obtain ⟨hhead, hbehind⟩ := List.append_inj hparts hlength
  have hbody : t.body = u.body := by
    cases hb : t.body with
    | none => exact (u.body_none.2 (hhead ▸ t.body_none.1 hb)).symm
    | some b =>
      cases hb' : u.body with
      | none =>
        rw [t.body_none.2 (hhead ▸ u.body_none.1 hb')] at hb
        cases hb
      | some b' =>
        rw [List.cons.injEq, ending, hb, ending, hb', hname, List.append_assoc,
          List.append_assoc] at hbehind
        have hfind := congrArg (find ((Parser.ofMark mark).closer u.name)) hbehind.2
        rw [find_of_endsFirst (hname ▸ t.body_ends b hb), find_of_endsFirst (u.body_ends b' hb'),
          Option.some.injEq] at hfind
        rw [(List.append_inj hbehind.2 hfind).1]
  cases t
  cases u
  simp only at hname hhead hbody
  subst hname hhead hbody
  rfl

end ClosedTag

/-! ## What a closed tag comes to -/

/-- The paths of a directive, each with the name of the attribute that `Parser.build` reads it
    from. -/
def Directive.paths : Directive → List (String × String)
  | .write path _ _ => [("path", path)]
  | .rename source target => [("from", source), ("to", target)]
  | .delete path => [("path", path)]
  | .addDependency _ => []

namespace Outcome

/-- Where the tag of an outcome stands. -/
def span : Outcome → Nat × Nat
  | .directive _ d => (d.start, d.stop)
  | .refused _ start stop _ => (start, stop)
  | .malformed w => (w.start, w.stop)

/-- The outcome of the same tag where it stands from `start` to `stop`. -/
def moveTo (start stop : Nat) : Outcome → Outcome
  | .directive tag d => .directive tag ⟨d.directive, start, stop⟩
  | .refused tag _ _ r => .refused tag start stop r
  | .malformed w => .malformed ⟨w.tag, w.flaw, start, stop⟩

theorem span_moveTo (o : Outcome) (start stop : Nat) :
    (o.moveTo start stop).span = (start, stop) := by
  cases o <;> rfl

end Outcome

namespace Parser

section Build

variable (p : Parser) (tag : TagName) (attrs : Table String) (body : Option (List Char))
  (start stop : Nat)

/-- What a tag comes to does not depend on its place, which it names. -/
theorem build_moveTo (start' stop' : Nat) :
    (p.build tag attrs body start stop).moveTo start' stop' =
      p.build tag attrs body start' stop' := by
  cases tag with
  | write =>
    simp only [build]
    split
    · rfl
    · rfl
    · rename_i path _ _
      cases normalize path <;> rfl
  | rename =>
    simp only [build]
    split
    · rename_i source target _ _
      cases normalize source with
      | error r => rfl
      | ok _ => cases normalize target <;> rfl
    · rfl
  | delete =>
    simp only [build]
    split
    · rfl
    · rename_i path _
      cases normalize path <;> rfl
  | addDependency =>
    simp only [build]
    split <;> rfl

theorem span_build : (p.build tag attrs body start stop).span = (start, stop) := by
  rw [← p.build_moveTo tag attrs body 0 0, Outcome.span_moveTo]

variable {p tag attrs body start stop}

theorem get?_of_given? {name value : String} (h : given? attrs name = some value) :
    attrs.get? name = some value := by
  rw [given?_eq, Option.filter_eq_some_iff] at h
  exact h.1

/-- **A directive is of the kind of its tag, and its paths are those that the guard lets through of
    the attributes**: each is `normalize` of a value in `attrs`. -/
theorem directive_of_build {tag' : TagName} {d : Parsed}
    (h : p.build tag attrs body start stop = .directive tag' d) :
    d.directive.kind = tag.text ∧ ∀ q ∈ d.directive.paths,
      ∃ raw, attrs.get? q.1 = some raw ∧ normalize raw = .ok q.2 := by
  cases tag with
  | write =>
    simp only [build] at h
    split at h
    · cases h
    · cases h
    · rename_i raw _ hraw
      cases hpath : normalize raw <;> rw [hpath] at h <;> cases h
      exact ⟨rfl, List.forall_mem_singleton.2 ⟨raw, get?_of_given? hraw, hpath⟩⟩
  | rename =>
    simp only [build] at h
    split at h
    · rename_i rawSource rawTarget hfrom hto
      cases hsource : normalize rawSource <;> cases htarget : normalize rawTarget <;>
        rw [hsource, htarget] at h <;> cases h
      refine ⟨rfl, List.forall_mem_cons.2 ⟨?_, List.forall_mem_singleton.2 ?_⟩⟩
      · exact ⟨rawSource, get?_of_given? hfrom, hsource⟩
      · exact ⟨rawTarget, get?_of_given? hto, htarget⟩
    · cases h
  | delete =>
    simp only [build] at h
    split at h
    · cases h
    · rename_i raw hraw
      cases hpath : normalize raw <;> rw [hpath] at h <;> cases h
      exact ⟨rfl, List.forall_mem_singleton.2 ⟨raw, get?_of_given? hraw, hpath⟩⟩
  | addDependency =>
    simp only [build] at h
    split at h <;> cases h
    exact ⟨rfl, List.forall_mem_nil _⟩

end Build

end Parser

end StagedEdits
