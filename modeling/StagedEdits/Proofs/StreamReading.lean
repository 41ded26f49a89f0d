import StagedEdits.Proofs.ClosedTag
import StagedEdits.Proofs.Pieces

set_option autoImplicit false

/-! # Reading a stream of tags

A pass that starts in front of prose with a well-formed tag behind it ends behind the tag, with the
directive that the tag asks for; over the prose at the end a pass waits. By induction on the tags a
stream is read as it was written, and as reading does not depend on the cuts, so it is in whatever
pieces it comes.

The mark in front of the names holds no `<`: openers and closers then start with the only `<` in
them, so that none is found across the border between prose, or a body, and what stands behind it.

The mark is the one that is asked for or, where none or the empty one is, that of the settings: tags
that are written with the empty mark are no tags to a parser that is asked for it.

Main statements: `Parser.pass_of_tag`, `Parser.advance_of_stream`,
`Parser.stream_read_as_written`, `Parser.empty_mark_reads_other_tags`. -/

namespace StagedEdits

/-! ## One tag -/

namespace Tag

variable {mark : String} {t : Tag mark}

/-- A tag that asks for something has attributes. -/
theorem Asks.attrs_ne_nil {d : Directive} (h : t.Asks d) : t.attrs ≠ [] := by
  have hne : ∀ {name value : String}, valueOf? t.attrs name = some value → t.attrs ≠ [] := by
    intro name value hv hnil
    rw [hnil] at hv
    cases hv
  cases h with
  | write _ hpath _ _ => exact hne hpath
  | rename _ hfrom _ _ _ => exact hne hfrom
  | delete _ hpath _ => exact hne hpath
  | addDependency _ hpackages _ => exact hne hpackages

theorem head_eq_cons (h : t.attrs ≠ []) : ∃ c cs, t.head = c :: cs ∧ isBlank c = true := by
  obtain ⟨a, attrs, hattrs⟩ := List.exists_cons_of_ne_nil h
  obtain ⟨c, gap, hgap⟩ := List.exists_cons_of_ne_nil a.gap_ne_nil
  refine ⟨c, gap ++ (a.name.toList ++ '=' :: a.quote :: (a.value ++ [a.quote])) ++
    attrs.flatMap Attribute.text ++ t.gap, ?_, a.gap_blank c (by rw [hgap]; exact List.mem_cons_self)⟩
  rw [head, hattrs, List.flatMap_cons, Attribute.text, hgap]
  simp only [List.cons_append, List.append_assoc]

/-- What stands between the name of a tag and the `>`. -/
def fullHead (t : Tag mark) : List Char :=
  match t.body with
  | none => t.head ++ ['/']
  | some _ => t.head

theorem fullHead_eq_cons (h : t.attrs ≠ []) :
    ∃ c cs, t.fullHead = c :: cs ∧ isBlank c = true := by
  obtain ⟨c, cs, hhead, hblank⟩ := head_eq_cons h
  unfold fullHead
  split
  · exact ⟨c, cs ++ ['/'], by rw [hhead, List.cons_append], hblank⟩
  · exact ⟨c, cs, hhead, hblank⟩

/-- What is read of the head of a tag: its table, and whether the tag closes itself. -/
theorem fullHead_read (h : t.attrs ≠ []) :
    headAttributes t.fullHead = .ok t.table ∧ closesItself t.fullHead = t.body.isNone := by
  unfold fullHead
  split <;> rename_i hbody <;> rw [hbody]
  · exact t.parseAttributes_slash h
  · exact t.parseAttributes_trimEnd h

/-- A well-formed tag with attributes, as a closed tag. The text that closes it starts with the only
    `<` in it, so it is not found across the end of the body. -/
def asClosed (t : Tag mark) (hmark : '<' ∉ mark.toList) (h : t.attrs ≠ []) : ClosedTag mark where
  name := t.name
  head := t.fullHead
  body := t.body
  head_apart := by
    obtain ⟨c, cs, hhead, hblank⟩ := fullHead_eq_cons h
    rw [StandsApart, hhead]
    rintro d ⟨⟩
    exact TagName.isEnd_of_isBlank hblank
  head_text := by
    unfold fullHead
    split
    · exact t.headText_head.append (.of_plain (List.all_eq_true.1 (by decide)))
    · exact t.headText_head
  body_none := by
    rw [(fullHead_read h).2, Option.isNone_iff_eq_none]
  body_ends := by
    intro b hb
    have htag : '<' ∉ t.name.text.toList := by cases t.name <;> decide
    have hlt : '<' ∉ '/' :: mark.toList ++ '-' :: t.name.text.toList ++ ['>'] := by
      simp [hmark, htag]
    have hfind := find_behind hlt (t.body_free b hb) []
    rw [List.append_nil] at hfind
    exact fun j hj => find_first hfind hj

theorem asClosed_text (t : Tag mark) (hmark : '<' ∉ mark.toList) (h : t.attrs ≠ []) :
    (t.asClosed hmark h).text = t.text := by
  unfold ClosedTag.text Tag.text ClosedTag.ending Tag.ending asClosed fullHead
  simp only
  cases t.body with
  | none => simp only [List.append_assoc, List.cons_append, List.nil_append]
  | some b => rfl

theorem headAttributes_asClosed (t : Tag mark) (hmark : '<' ∉ mark.toList) (h : t.attrs ≠ []) :
    headAttributes (t.asClosed hmark h).head = .ok t.table :=
  (fullHead_read h).1

end Tag

namespace Parser

variable {mark : String} {p : Parser} {before prose rest : List Char}

/-- Behind prose without an opener the opener is found where it stands. -/
theorem findFrom_opener (hmark : '<' ∉ mark.toList) (hp : p.mark = mark)
    (hfree : ¬ (ofMark mark).opener <:+: prose) {start : Nat}
    (hdrop : p.buffer.drop start = prose ++ (p.opener ++ rest)) :
    findFrom p.opener p.buffer start = some (start + prose.length) := by
  have hlt : '<' ∉ mark.toList ++ ['-'] := by simp [hmark]
  rw [findFrom, hdrop, opener_of_mark hp]
  exact congrArg (Option.map (start + ·)) (find_behind hlt hfree rest)

/-- **A pass over prose and the well-formed tag `t` behind it ends behind the tag, with the
    directive `d` that the tag asks for and the place of the tag.** -/
theorem pass_of_tag (hmark : '<' ∉ mark.toList) (hp : p.mark = mark) {t : Tag mark}
    {d : Directive} (hasks : t.Asks d) (hfree : ¬ (ofMark mark).opener <:+: prose)
    (hmode : p.mode = .prose) (hdrop : p.buffer.drop p.cursor = prose ++ (t.text ++ rest)) :
    let opened := p.cursor + prose.length
    let closed := opened + t.text.length
    p.pass = .again (p.resume closed) (some (.directive t.name ⟨d, opened, closed⟩)) := by
  intro opened closed
  have hne := hasks.attrs_ne_nil
  have hopened : p.buffer.drop opened = t.text ++ rest := drop_of_drop hdrop
  have hfind : findFrom p.opener p.buffer p.cursor = some opened := by
    have htext : t.text ++ rest =
        p.opener ++ (t.name.text.toList ++ (t.head ++ t.ending) ++ rest) := by
      rw [Tag.text, opener_of_mark hp, List.append_assoc]
    exact findFrom_opener hmark hp hfree (hdrop.trans (congrArg (prose ++ ·) htext))
  have hstands : (t.asClosed hmark hne).text <+: p.buffer.drop opened := by
    rw [hopened, t.asClosed_text hmark hne]
    exact List.prefix_append _ _
  have hstage := nameStage_of_closed hp hstands (t.headAttributes_asClosed hmark hne)
  rw [t.asClosed_text hmark hne] at hstage
  rw [pass_of_prose hmode, hfind]
  exact hstage.trans (by rw [← hasks.build p opened closed]; rfl)

/-! ## All tags of a stream -/

/-- That what was fed was read to its end as `parsed` and nothing else. -/
structure ReadAs (parsed : List Parsed) (f : Fed) : Prop where
  stopped : f.stopped = none
  directives : f.outcomes.filterMap Outcome.directive? = parsed
  unrefused : f.outcomes.filterMap Outcome.refusal? = []
  sound : f.outcomes.filterMap Outcome.warning? = []
  closed : f.parser.hasPending = false
  refusals : f.parser.refusals = []
  warnings : f.parser.warnings = []

/-- A directive in front of what was read. -/
theorem ReadAs.cons {parsed : List Parsed} {f : Fed} (h : ReadAs parsed f) (tag : TagName)
    (d : Parsed) : ReadAs (d :: parsed) (f.precede [.directive tag d]) where
  stopped := h.stopped
  directives := congrArg (d :: ·) h.directives
  unrefused := h.unrefused
  sound := h.sound
  closed := h.closed
  refusals := h.refusals
  warnings := h.warnings

/-- At the end of a stream nothing is said if no tag is open. -/
theorem finish_warnings_of_closed (h : p.hasPending = false) :
    p.finish.warnings = p.warnings := by
  have hnone : p.unterminated? = none := by rw [unterminated?, h]; rfl
  rw [finish, hnone]
  split
  · rfl
  · exact List.append_nil _

/-- **Passes over a stream come to the directives of its tags, one for each in their order**, and
    `last`, which opens no tag, is left. -/
theorem advance_of_stream (hmark : '<' ∉ mark.toList) (hp : p.mark = mark) {last : List Char}
    (hlast : ¬ (ofMark mark).opener <:+: last) (hmode : p.mode = .prose) (hrefusals : p.refusals = [])
    (hwarnings : p.warnings = []) (passages : List (Passage mark))
    (hdrop : p.buffer.drop p.cursor = passages.flatMap Passage.text ++ last) :
    ReadAs (parsedFrom p.cursor passages) p.advance := by
  -- on the tags; the cursor stands behind those that were read
  induction passages generalizing p with
  | nil =>
    have hnone : findFrom p.opener p.buffer p.cursor = none := by
      rw [findFrom, hdrop, opener_of_mark hp, List.flatMap_nil, List.nil_append,
        find_eq_none hlast]
      rfl
    have hwait := pass_of_prose hmode
    rw [hnone] at hwait
    rw [advance_of_wait hwait]
    have hclosed : p.hasPending = false := by rw [hasPending, hmode]; rfl
    exact ⟨rfl, rfl, rfl, rfl, hclosed, hrefusals, hwarnings⟩
  | cons s passages ih =>
    have htext : p.buffer.drop p.cursor =
        s.prose ++ (s.tag.text ++ (passages.flatMap Passage.text ++ last)) := by
      rw [hdrop, List.flatMap_cons, Passage.text, List.append_assoc, List.append_assoc]
    have hpass := pass_of_tag hmark hp s.asks s.free hmode htext
    have hrest := @ih (p.resume (p.cursor + s.prose.length + s.tag.text.length)) hp rfl hrefusals
      hwarnings (drop_of_drop (drop_of_drop htext))
    rw [advance_of_again hpass]
    exact hrest.cons s.tag.name _

end Parser

/-- The place of a directive is where its tag stands. -/
theorem slice_of_parsedFrom {mark : String} {text rest : List Char} {start : Nat}
    {passages : List (Passage mark)}
    (h : text.drop start = passages.flatMap Passage.text ++ rest) :
    List.Forall₂ (fun d s => d.directive = s.directive ∧ slice text d.start d.stop = s.tag.text)
      (parsedFrom start passages) passages := by
  induction passages generalizing start with
  | nil => exact .nil
  | cons s passages ih =>
    have htext : text.drop start =
        s.prose ++ (s.tag.text ++ (passages.flatMap Passage.text ++ rest)) := by
      rw [h, List.flatMap_cons, Passage.text, List.append_assoc, List.append_assoc]
    have htag := drop_of_drop htext
    exact .cons ⟨rfl, slice_of_drop htag⟩ (ih (drop_of_drop htag))

namespace Parser

/-- **A stream in which prose and well-formed tags alternate is read as it was written, in whatever
    pieces it comes.** Let `s` be written with the mark that a parser reads which is asked for
    `asked`. Each tag comes to one directive, in order, at the place where the tag stands; no call
    is stopped, no path is refused, nothing is warned of, also not at the end of the stream, and no
    tag stays open. -/
theorem stream_read_as_written (fallback : String) (asked : Option String)
    (hmark : '<' ∉ (markInUse fallback asked).toList) (s : Stream (markInUse fallback asked))
    (pieces : List Piece) (hcut : joinPieces pieces = s.text) :
    let run := (new fallback asked).takeAll pieces
    let emitted := run.2.flatMap Fed.emitted
    emitted = parsedFrom 0 s.passages ∧
      List.Forall₂
        (fun d s' => d.directive = s'.directive ∧ slice s.text d.start d.stop = s'.tag.text)
        emitted s.passages ∧
      (∀ fed ∈ run.2, fed.stopped = none) ∧
      run.1.refusals = [] ∧ run.1.warnings = [] ∧ run.1.hasPending = false ∧
      run.1.finish.warnings = [] := by
  rw [new]
  generalize markInUse fallback asked = mark at *
  intro run emitted
  have hall : ReadAs (parsedFrom 0 s.passages) ((ofMark mark).grow s.text).advance :=
    @advance_of_stream mark ((ofMark mark).grow s.text) hmark rfl s.last s.free rfl rfl rfl
      s.passages rfl
  have hwhole := feed_ofMark mark s.text
  have hstopped : ((ofMark mark).feed s.text).stopped = none := by
    rw [hwhole]
    exact hall.stopped
  have hread : run.1.HasRead mark s.text := by
    rw [← hcut]
    exact takeAll_hasRead mark pieces
  have halike : run.1.Alike ((ofMark mark).feed s.text).parser := .of_settle hread
  have hemitted : emitted = parsedFrom 0 s.passages := by
    have hout := (hasRead_ofMark mark).takeAll_emitted pieces
      (by rw [List.nil_append, hcut]; exact hstopped)
    rw [takeAll_outcomes, hcut, hwhole] at hout
    exact hout.trans hall.directives
  have hcalls : ∀ fed ∈ run.2, fed.stopped = none := by
    refine ((hasRead_ofMark mark).takeAll_stopped (by rw [feed_nil rfl]) pieces).2 ?_
    rw [List.nil_append, hcut]
    exact hstopped
  have hclosed : run.1.hasPending = false := by
    rw [halike.hasPending, hwhole]
    exact hall.closed
  have hrefusals : run.1.refusals = [] := by
    rw [halike.refusals, hwhole]
    exact List.append_eq_nil_iff.2 ⟨hall.refusals, hall.unrefused⟩
  have hwarnings : run.1.warnings = [] := by
    rw [halike.warnings, hwhole]
    exact List.append_eq_nil_iff.2 ⟨hall.warnings, hall.sound⟩
  refine ⟨hemitted, ?_, hcalls, hrefusals, hwarnings, hclosed, ?_⟩
  · rw [hemitted]
    exact slice_of_parsedFrom (show s.text.drop 0 = _ from rfl)
  · rw [finish_warnings_of_closed hclosed, hwarnings]

/-- A write whose description holds the end of a head and the other quote, and whose body holds the
    beginning of what closes it. -/
def trickyWrite : Tag "pl" where
  name := .write
  attrs :=
    [{ gap := [' '], name := "description", quote := '\'', value := ['a', '/', '>', '"'],
       gap_ne_nil := by decide, gap_blank := List.all_eq_true.1 rfl,
       name_start := ⟨'d', "escription".toList, by decide, by decide, List.all_eq_true.1 rfl⟩,
       quote_either := by decide, quote_notMem := by decide, ampersand_notMem := by decide },
     { gap := ['\n', ' '], name := "path", quote := '"', value := ['.', '/', 'b'],
       gap_ne_nil := by decide, gap_blank := List.all_eq_true.1 rfl,
       name_start := ⟨'p', "ath".toList, by decide, by decide, List.all_eq_true.1 rfl⟩,
       quote_either := by decide, quote_notMem := by decide, ampersand_notMem := by decide }]
  gap := [' ']
  body := some ['x', '<', '/', 'p', 'l', '-']
  distinct := by decide
  gap_blank := List.all_eq_true.1 rfl
  body_free := by
    rintro b ⟨⟩
    decide

/-- A delete tag of `mark` that closes itself. -/
def plainDelete (mark : String) : Tag mark where
  name := .delete
  attrs :=
    [{ gap := [' '], name := "path", quote := '"', value := ['c'],
       gap_ne_nil := by decide, gap_blank := List.all_eq_true.1 rfl,
       name_start := ⟨'p', "ath".toList, by decide, by decide, List.all_eq_true.1 rfl⟩,
       quote_either := by decide, quote_notMem := by decide, ampersand_notMem := by decide }]
  gap := []
  body := none
  distinct := by decide
  gap_blank := List.all_eq_true.1 rfl
  body_free := by rintro b ⟨⟩

theorem trickyWrite_asks : trickyWrite.Asks (.write "b" "x</pl-" (some "a/>\"")) := by
  have hpath : valueOf? trickyWrite.attrs "path" = some "./b" := by decide +kernel
  have haccepted : normalize "./b" = .ok "b" := by rfl
  have hcontent : String.ofList (bodyContent ['x', '<', '/', 'p', 'l', '-']) = "x</pl-" := by rfl
  have hdescription : (valueOf? trickyWrite.attrs "description").filter (· ≠ "") =
      some "a/>\"" := by decide +kernel
  rw [← hcontent, ← hdescription]
  exact .write rfl hpath haccepted rfl

/-- A stream with prose that looks like the beginning of a tag. -/
def trickyStream : Stream "pl" where
  passages :=
    [⟨['<', 'p', 'l'], trickyWrite, .write "b" "x</pl-" (some "a/>\""), by decide,
      trickyWrite_asks⟩,
     ⟨[], plainDelete "pl", .delete "c", by decide, .delete rfl rfl rfl⟩]
  last := ['<']
  free := by decide

/-- The stream in three pieces, cut inside a value and behind its first tag. -/
def trickyPieces : List Piece :=
  [.alone (trickyStream.text.take 27), .behind ((trickyStream.text.drop 27).take 35),
   .alone (trickyStream.text.drop 62)]

theorem tricky_stream_read :
    '<' ∉ "pl".toList ∧ joinPieces trickyPieces = trickyStream.text ∧
      ((new "pl" none).takeAll trickyPieces).2.flatMap Fed.emitted =
        [⟨.write "b" "x</pl-" (some "a/>\""), 3, 62⟩, ⟨.delete "c", 62, 83⟩] ∧
      ((new "pl" none).takeAll trickyPieces).1.finish.warnings = [] := by
  have hmark : '<' ∉ "pl".toList := by decide
  have hcut : joinPieces trickyPieces = trickyStream.text := by decide +kernel
  have hread := stream_read_as_written "pl" none hmark trickyStream trickyPieces hcut
  exact ⟨hmark, hcut, hread.1.trans (by decide +kernel), hread.2.2.2.2.2.2⟩

/-- A stream of one tag that is written with the empty mark. -/
def unmarkedStream : Stream "" where
  passages := [⟨[], plainDelete "", .delete "c", by decide, .delete rfl rfl rfl⟩]
  last := []
  free := by decide

/-- **A parser that is asked for the empty mark reads other tags.** It reads those of the mark of the
    settings, and a tag that is written with the empty mark comes to nothing. -/
theorem empty_mark_reads_other_tags :
    let run := (new "pl" (some "")).takeAll [.alone unmarkedStream.text]
    '<' ∉ "".toList ∧ unmarkedStream.passages.map (·.directive) = [.delete "c"] ∧
      run.2.flatMap Fed.emitted = [] ∧
      run.2.flatMap Fed.emitted ≠ parsedFrom 0 unmarkedStream.passages := by
  intro run
  -- to this parser the whole stream is prose
  have hprose : ¬ (ofMark "pl").opener <:+: unmarkedStream.text := by decide +kernel
  have hread : ReadAs [] ((ofMark "pl").grow unmarkedStream.text).advance :=
    @advance_of_stream "pl" ((ofMark "pl").grow unmarkedStream.text) (by decide) rfl
      unmarkedStream.text hprose rfl rfl rfl [] rfl
  have hnone : run.2.flatMap Fed.emitted = [] := by
    show ((ofMark "pl").feed unmarkedStream.text).emitted ++ [] = []
    rw [feed_ofMark, List.append_nil]
    exact (Fed.emitted_of_none hread.stopped).trans hread.directives
  exact ⟨List.not_mem_nil, rfl, hnone, by rw [hnone]; exact nofun⟩

end Parser

end StagedEdits
