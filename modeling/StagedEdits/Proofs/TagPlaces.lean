import StagedEdits.Proofs.StreamReading

set_option autoImplicit false

/-! # Where the tags of a text stand

A text has its closed tags one behind the other, the openers outside of them are prose, and at most
one tag is open at its end. The parser finds just these tags, however the text is cut: each comes to
one outcome, which names the place of the tag and depends on nothing but the text of the tag.

The invariant of a run of passes is `Reading`, from the cursor on; what a pass does at an opener is
`Parser.AtOpener`.

A head that cannot be read stops the parser. Its tag comes to nothing then, and the directives that
the same call has found before are lost.

Main definitions: `PlacedTag`, `Reading`, `Parser.Accounted`. Main statements:
`Parser.advance_reads`, `Parser.closed_tags_come_out_once`, `Parser.closed_tag_comes_to_nothing` (a
tag that is lost). -/

namespace StagedEdits

/-! ## Tags and their places -/

/-- A closed tag of `mark` and where it starts. -/
structure PlacedTag (mark : String) where
  tag : ClosedTag mark
  start : Nat

namespace PlacedTag

variable {mark : String} (t : PlacedTag mark)

/-- Where a tag ends. -/
def stop : Nat := t.start + t.tag.text.length

theorem start_lt_stop : t.start < t.stop := Nat.lt_add_of_pos_right t.tag.length_text_pos

/-- That the closed tag comes to the outcome `o`. -/
def ComesTo (o : Outcome) : Prop :=
  ∃ attrs, headAttributes t.tag.head = .ok attrs ∧
    o = (Parser.ofMark mark).build t.tag.name attrs t.tag.body t.start t.stop

end PlacedTag

/-- How `text` reads from `cursor` on: `tags` are those that close, and `opened?` is where a tag is
    open at its end. -/
structure Reading (mark : String) (text : List Char) (cursor : Nat) (tags : List (PlacedTag mark))
    (opened? : Option Nat) : Prop where
  stands : ∀ t ∈ tags, t.tag.text <+: text.drop t.start
  behind : ∀ t ∈ tags, cursor ≤ t.start
  /-- Each tag starts where the one before has ended. -/
  apart : tags.Pairwise fun t u => t.stop ≤ u.start
  /-- An open tag starts where all others have ended. -/
  opened : ∀ start ∈ opened?, cursor ≤ start ∧ (Parser.ofMark mark).opener <+: text.drop start ∧
    ∀ t ∈ tags, t.stop ≤ start
  /-- Every opener stands in one of the tags or in the open one, or it is prose. -/
  covers : ∀ i, cursor ≤ i → (Parser.ofMark mark).opener <+: text.drop i →
    (∃ t ∈ tags, t.start ≤ i ∧ i < t.stop) ∨ (∃ start ∈ opened?, start ≤ i) ∨
      ProseOpener mark (text.drop i)

namespace Reading

variable {mark : String} {text : List Char} {cursor : Nat} {tags : List (PlacedTag mark)}
  {opened? : Option Nat}

/-- Prose. -/
theorem of_prose (h : ∀ i, cursor ≤ i → ¬ (Parser.ofMark mark).opener <+: text.drop i) :
    Reading mark text cursor [] none where
  stands := nofun
  behind := nofun
  apart := .nil
  opened := nofun
  covers i hi hopener := absurd hopener (h i hi)

/-- A tag that is open at once. -/
theorem of_open (h : (Parser.ofMark mark).opener <+: text.drop cursor) :
    Reading mark text cursor [] (some cursor) where
  stands := nofun
  behind := nofun
  apart := .nil
  opened := by
    rintro _ ⟨⟩
    exact ⟨Nat.le_refl _, h, nofun⟩
  covers i hi _ := .inr (.inl ⟨cursor, rfl, hi⟩)

/-- Prose before what is read. -/
theorem skip {next : Nat} (h : Reading mark text next tags opened?) (hle : cursor ≤ next)
    (hprose : ∀ i, cursor ≤ i → i < next → (Parser.ofMark mark).opener <+: text.drop i →
      ProseOpener mark (text.drop i)) : Reading mark text cursor tags opened? where
  stands := h.stands
  behind t ht := Nat.le_trans hle (h.behind t ht)
  apart := h.apart
  opened start hstart :=
    let ⟨hbehind, hrest⟩ := h.opened start hstart
    ⟨Nat.le_trans hle hbehind, hrest⟩
  covers i hi hopener := by
    by_cases hnext : next ≤ i
    · exact h.covers i hnext hopener
    · exact .inr (.inr (hprose i hi (Nat.lt_of_not_le hnext) hopener))

/-- A tag before what is read. -/
theorem cons (t : PlacedTag mark) (hstands : t.tag.text <+: text.drop t.start)
    (h : Reading mark text t.stop tags opened?) :
    Reading mark text t.start (t :: tags) opened? where
  stands := List.forall_mem_cons.2 ⟨hstands, h.stands⟩
  behind := List.forall_mem_cons.2
    ⟨Nat.le_refl _, fun u hu => Nat.le_trans t.start_lt_stop.le (h.behind u hu)⟩
  apart := h.apart.cons h.behind
  opened start hstart :=
    let ⟨hbehind, hopener, hrest⟩ := h.opened start hstart
    ⟨Nat.le_trans t.start_lt_stop.le hbehind, hopener, List.forall_mem_cons.2 ⟨hbehind, hrest⟩⟩
  covers i hi hopener := by
    by_cases hin : i < t.stop
    · exact .inl ⟨t, List.mem_cons_self, hi, hin⟩
    · rcases h.covers i (Nat.le_of_not_lt hin) hopener with ⟨u, hu, hplace⟩ | hrest
      · exact .inl ⟨u, List.mem_cons_of_mem t hu, hplace⟩
      · exact .inr hrest

/-- Every closed tag is one of the tags or stands in one of them or in the open one. -/
theorem covered (h : Reading mark text cursor tags opened?) {i : Nat} {t : ClosedTag mark}
    (hi : cursor ≤ i) (hstands : t.text <+: text.drop i) :
    (∃ u ∈ tags, u.start ≤ i ∧ i < u.stop) ∨ ∃ start ∈ opened?, start ≤ i := by
  rcases h.covers i hi (t.opener_isPrefix.trans hstands) with hin | hopen | hprose
  · exact .inl hin
  · exact .inr hopen
  · exact absurd hprose (t.not_prose hstands)

variable {t u : PlacedTag mark} {tags' : List (PlacedTag mark)}

theorem tail (h : Reading mark text cursor (t :: tags) opened?) :
    Reading mark text t.stop tags opened? where
  stands := (List.forall_mem_cons.1 h.stands).2
  behind := (List.pairwise_cons.1 h.apart).1
  apart := (List.pairwise_cons.1 h.apart).2
  opened start hstart :=
    let ⟨_, hopener, hrest⟩ := h.opened start hstart
    ⟨hrest t List.mem_cons_self, hopener, (List.forall_mem_cons.1 hrest).2⟩
  covers i hi hopener := by
    have hcursor : cursor ≤ i :=
      Nat.le_trans (h.behind t List.mem_cons_self) (Nat.le_trans t.start_lt_stop.le hi)
    rcases h.covers i hcursor hopener with ⟨u, hu, hplace⟩ | hrest
    · rcases List.mem_cons.1 hu with rfl | hu
      · exact absurd hplace.2 (Nat.not_lt.2 hi)
      · exact .inl ⟨u, hu, hplace⟩
    · exact .inr hrest

/-- A tag of one reading stands in a tag of every other one. -/
theorem mem_covered (h : Reading mark text cursor tags opened?)
    (h' : Reading mark text cursor tags' opened?) (ht : t ∈ tags') :
    ∃ v ∈ tags, v.start ≤ t.start := by
  rcases h.covered (h'.behind t ht) (h'.stands t ht) with ⟨v, hv, hle, -⟩ | ⟨start, hstart, hle⟩
  · exact ⟨v, hv, hle⟩
  · -- the open tag stands behind all others
    have hopen := (h'.opened start hstart).2.2 t ht
    exact absurd t.start_lt_stop (by omega)

/-- The first tag of one reading stands before every tag of another one. -/
theorem first_le (h : Reading mark text cursor (u :: tags) opened?)
    (h' : Reading mark text cursor tags' opened?) (ht : t ∈ tags') : u.start ≤ t.start := by
  obtain ⟨v, hv, hle⟩ := h.mem_covered h' ht
  rcases List.mem_cons.1 hv with rfl | hv
  · exact hle
  · have hbehind := (List.pairwise_cons.1 h.apart).1 v hv
    exact Nat.le_trans u.start_lt_stop.le (Nat.le_trans hbehind hle)

/-- Where one reading has no tags, none has. -/
theorem eq_nil (h : Reading mark text cursor [] opened?)
    (h' : Reading mark text cursor tags opened?) : tags = [] := by
  refine List.eq_nil_iff_forall_not_mem.2 fun t ht => ?_
  obtain ⟨v, hv, -⟩ := h.mem_covered h' ht
  exact absurd hv List.not_mem_nil

/-- **A text has one reading**: `tags` and `tags'` are the same. -/
theorem unique (h : Reading mark text cursor tags opened?)
    (h' : Reading mark text cursor tags' opened?) : tags' = tags := by
  induction tags generalizing cursor tags' with
  | nil => exact h.eq_nil h'
  | cons t tags ih =>
    cases tags' with
    | nil => exact (h'.eq_nil h).symm
    | cons u tags' =>
      have hstart : u.start = t.start :=
        Nat.le_antisymm (h'.first_le h List.mem_cons_self) (h.first_le h' List.mem_cons_self)
      have htag : u.tag = t.tag := by
        have hu := h'.stands u List.mem_cons_self
        rw [hstart] at hu
        exact ClosedTag.unique hu (h.stands t List.mem_cons_self)
      obtain ⟨tag, start⟩ := t
      obtain ⟨tag', start'⟩ := u
      obtain rfl : start' = start := hstart
      obtain rfl : tag' = tag := htag
      rw [ih h.tail h'.tail]

end Reading

/-! ## Passes over a text -/

/-- A hit from an offset on is the first place there where the needle stands. -/
theorem findFrom_some {needle text : List Char} {start i : Nat}
    (h : findFrom needle text start = some i) :
    start ≤ i ∧ needle <+: text.drop i ∧ ∀ j, start ≤ j → j < i → ¬ needle <+: text.drop j := by
  obtain ⟨k, hk, rfl⟩ := Option.map_eq_some_iff.1 h
  refine ⟨Nat.le_add_right start k, ?_, fun j hj hlt hp => ?_⟩
  · rw [← List.drop_drop]
    exact (find_some hk).1
  · obtain ⟨n, rfl⟩ := Nat.exists_eq_add_of_le hj
    rw [← List.drop_drop] at hp
    exact find_first hk (by omega) hp

theorem findFrom_none {needle text : List Char} {start : Nat}
    (h : findFrom needle text start = none) (j : Nat) (hj : start ≤ j) :
    ¬ needle <+: text.drop j := by
  obtain ⟨n, rfl⟩ := Nat.exists_eq_add_of_le hj
  rw [← List.drop_drop]
  exact find_none (Option.map_eq_none_iff.1 h) n

namespace Parser

/-- What a pass of `p` from prose comes to: it finds no opener, or does at the first one what is to
    be done there. -/
inductive FromProse (p : Parser) : Pass → Prop
  | prose (n : Nat) (hnone : ∀ i, p.cursor ≤ i → ¬ p.opener <+: p.buffer.drop i) :
    FromProse p (.wait (p.withCursor n))
  | opener (start : Nat) (hstart : p.cursor ≤ start) (hopener : p.opener <+: p.buffer.drop start)
    (hfirst : ∀ i, p.cursor ≤ i → i < start → ¬ p.opener <+: p.buffer.drop i) {pass : Pass}
    (hpass : p.nameStage start = pass) (h : AtOpener p start pass) : FromProse p pass

theorem pass_reads {p : Parser} (hmode : p.mode = .prose) : FromProse p p.pass := by
  rw [pass_of_prose hmode]
  cases hfind : findFrom p.opener p.buffer p.cursor with
  | none => exact .prose _ (findFrom_none hfind)
  | some start =>
    obtain ⟨hstart, hopener, hfirst⟩ := findFrom_some hfind
    exact .opener start hstart hopener hfirst rfl (nameStage_reads hopener)

/-- Nothing of a parser but its mark counts in what a closed tag comes to. -/
theorem build_ofMark (p : Parser) (tag : TagName) (attrs : Table String) (body : Option (List Char))
    (start stop : Nat) :
    p.build tag attrs body start stop = (ofMark p.mark).build tag attrs body start stop := rfl

/-- How `f`, passes over `text` from `cursor` that were made to their end, relates to it. -/
structure Done (mark : String) (text : List Char) (cursor : Nat) (f : Fed) : Prop where
  /-- The tags have come to the outcomes, one to each. -/
  tags : ∃ tags, Reading mark text cursor tags f.parser.mode.start? ∧
    List.Forall₂ PlacedTag.ComesTo tags f.outcomes
  /-- Where a tag is open there is none that has closed, if its head can be read. -/
  opened : ∀ start ∈ f.parser.mode.start?, ∀ t : ClosedTag mark, t.text <+: text.drop start →
    UnreadableHead mark (text.drop start)
  /-- The passes were stopped if the head of the open tag cannot be read. -/
  stopped : f.stopped = none ↔
    ∀ start ∈ f.parser.mode.start?, ¬ UnreadableHead mark (text.drop start)

/-- A closed tag that a pass does not go on behind has a head that cannot be read. -/
theorem unreadable_of_stands {p : Parser} {start : Nat} {t : ClosedTag p.mark}
    (hstands : t.text <+: p.buffer.drop start) (hstay : ∀ q o, p.nameStage start ≠ .again q o) :
    UnreadableHead p.mark (p.buffer.drop start) := by
  cases hattrs : headAttributes t.head with
  | ok attrs => exact absurd (nameStage_of_closed rfl hstands hattrs) (hstay _ _)
  | error f => exact t.unreadable hstands hattrs

/-- A parser that waits at an opener. -/
theorem Done.of_wait {p q : Parser} {start : Nat} (hopener : p.opener <+: p.buffer.drop start)
    (hstage : p.nameStage start = .wait q) (hstart : q.mode.start? = some start) :
    Done p.mark p.buffer start ⟨q, [], none⟩ where
  tags := ⟨[], hstart ▸ .of_open hopener, .nil⟩
  opened := by
    rw [hstart]
    rintro _ ⟨⟩ t hstands
    exact unreadable_of_stands hstands fun q o => by rw [hstage]; exact nofun
  stopped := by
    refine iff_of_true rfl ?_
    rw [hstart]
    rintro _ ⟨⟩ h
    obtain ⟨q', f, hstuck⟩ := nameStage_of_unreadable rfl h
    rw [hstage] at hstuck
    cases hstuck

/-- A parser that is stuck at an opener. -/
theorem Done.of_stuck {p q : Parser} {start : Nat} (hopener : p.opener <+: p.buffer.drop start)
    (hstart : q.mode.start? = some start) (h : UnreadableHead p.mark (p.buffer.drop start))
    (f : FeedFault) : Done p.mark p.buffer start ⟨q, [], some f⟩ where
  tags := ⟨[], hstart ▸ .of_open hopener, .nil⟩
  opened := by
    rw [hstart]
    rintro _ ⟨⟩ _ _
    exact h
  stopped := by
    refine iff_of_false nofun fun hnone => ?_
    rw [hstart] at hnone
    exact hnone start rfl h

/-- Prose in front of what was read. -/
theorem Done.skip {mark : String} {text : List Char} {cursor next : Nat} {f : Fed}
    (h : Done mark text next f) (hle : cursor ≤ next)
    (hprose : ∀ i, cursor ≤ i → i < next → (ofMark mark).opener <+: text.drop i →
      ProseOpener mark (text.drop i)) : Done mark text cursor f where
  tags :=
    let ⟨tags, hreading, houtcomes⟩ := h.tags
    ⟨tags, hreading.skip hle hprose, houtcomes⟩
  opened := h.opened
  stopped := h.stopped

/-- A closed tag in front of what was read. -/
theorem Done.cons {mark : String} {text : List Char} {f : Fed} {t : PlacedTag mark} {o : Outcome}
    (h : Done mark text t.stop f) (hstands : t.tag.text <+: text.drop t.start)
    (ho : t.ComesTo o) : Done mark text t.start (f.precede [o]) where
  tags :=
    let ⟨tags, hreading, houtcomes⟩ := h.tags
    ⟨t :: tags, .cons t hstands hreading, .cons ho houtcomes⟩
  opened := h.opened
  stopped := h.stopped

/-- **Passes over a text account for its closed tags**: what `advance` comes to is `Done` with those
    from the cursor of `p` on. -/
theorem advance_reads {p : Parser} (hmode : p.mode = .prose) :
    Done p.mark p.buffer p.cursor p.advance := by
  -- on the passes; what stands before the cursor has been accounted for
  fun_induction advance p with
  | case1 p q hpass =>
    have hreads := pass_reads hmode
    rw [hpass] at hreads
    cases hreads with
    | prose n hnone =>
      have hstart : (p.withCursor n).mode.start? = none := by rw [withCursor_mode, hmode]; rfl
      refine ⟨⟨[], ?_, .nil⟩, ?_, iff_of_true rfl ?_⟩ <;> rw [hstart]
      · exact .of_prose hnone
      · intro start hs
        cases hs
      · intro f hf
        cases hf
    | opener start hle hopener hfirst hstage h =>
      cases h with
      | wait mode hstart =>
        exact (Done.of_wait hopener hstage hstart).skip hle fun i hi hlt ho =>
          absurd ho (hfirst i hi hlt)
  | case2 p q f hpass =>
    have hreads := pass_reads hmode
    rw [hpass] at hreads
    cases hreads with
    | opener start hle hopener hfirst hstage h =>
      cases h with
      | stuck mode hstart f h =>
        exact (Done.of_stuck hopener hstart h _).skip hle fun i hi hlt ho =>
          absurd ho (hfirst i hi hlt)
  | case3 p q o hpass r ih =>
    have hreads := pass_reads hmode
    rw [hpass] at hreads
    cases hreads with
    | opener start hle hopener hfirst hstage h =>
      cases h with
      | prose h =>
        -- the next pass begins one character behind the opener
        refine (ih rfl).skip (Nat.le_succ_of_le hle) fun i hi hlt ho => ?_
        rcases Nat.lt_succ_iff_lt_or_eq.1 hlt with hlt | rfl
        · exact absurd ho (hfirst i hi hlt)
        · exact h
      | closed t hstands hattrs =>
        have hbehind : Done p.mark p.buffer (PlacedTag.stop ⟨t, start⟩) r := ih rfl
        refine (hbehind.cons hstands ⟨_, hattrs, p.build_ofMark ..⟩).skip hle ?_
        exact fun i hi hlt ho => absurd ho (hfirst i hi hlt)

/-! ## A tag by itself -/

/-- **A parser that gets just the text of a tag `t` comes to what the tag comes to, and to nothing
    else.** -/
theorem feed_alone {mark : String} (t : ClosedTag mark) {attrs : Table String} {tag : TagName}
    {d : Parsed} (hattrs : headAttributes t.head = .ok attrs)
    (ho : (ofMark mark).build t.name attrs t.body 0 t.text.length = .directive tag d) :
    ReadAs [d] ((ofMark mark).feed t.text) := by
  let p := (ofMark mark).grow t.text
  have hdrop : p.buffer.drop 0 = t.text := rfl
  have hpass : p.pass = .again (p.resume t.text.length) (some (.directive tag d)) := by
    have hstage := @nameStage_of_closed mark p 0 rfl t attrs (hdrop ▸ List.prefix_rfl) hattrs
    have hbuild : p.build t.name attrs t.body 0 t.text.length = .directive tag d := ho
    rw [Nat.zero_add] at hstage
    rw [pass_at_opener (p := p) rfl t.opener_isPrefix]
    exact hstage.trans (by rw [hbuild])
  -- nothing is left behind the tag
  let q := p.resume t.text.length
  have hnone : findFrom q.opener q.buffer q.cursor = none := by
    rw [findFrom, show q.buffer.drop q.cursor = [] from List.drop_length]
    rfl
  have hwait := @pass_of_prose q rfl
  rw [hnone] at hwait
  rw [feed_ofMark, show (ofMark mark).grow t.text = p from rfl, advance_of_again hpass,
    advance_of_wait hwait]
  exact ⟨rfl, rfl, rfl, rfl, rfl, rfl, rfl⟩

/-! ## The account of a text in pieces -/

theorem settle_mode (p : Parser) : p.settle.mode = p.mode := by
  simp only [settle]
  split <;> rfl

/-- The warning at the end of a stream is about the open tag and reaches to the end of the text. -/
theorem place_of_unterminated {p : Parser} {w : Warning} (h : p.unterminated? = some w) :
    p.mode.start? = some w.start ∧ w.stop = p.buffer.length := by
  simp only [unterminated?] at h
  split at h
  · rename_i hc
    cases h
    refine ⟨?_, rfl⟩
    cases hmode : p.mode with
    | prose => simp [hasPending, hmode] at hc
    | _ => simp only [Mode.start?, openStart, hmode]
  · cases h

theorem finish_warnings {p : Parser} (h : p.finished = false) :
    p.finish.warnings = p.warnings ++ p.unterminated?.toList := by
  rw [finish, if_neg (by simp [h])]

/-- The spans of what was found in `run`, in the order in which it was found: those of the closed
    tags and that of the warning at the end of the stream. -/
def spans (run : Parser × List Fed) : List (Nat × Nat) :=
  (run.2.flatMap (·.outcomes)).map Outcome.span ++
    run.1.unterminated?.toList.map fun w => (w.start, w.stop)

/-- What `run`, a parser and the calls that handed `text` to it, comes to by `tags`, those of the
    text. -/
structure Accounted (mark : String) (text : List Char) (tags : List (PlacedTag mark))
    (run : Parser × List Fed) : Prop where
  reading : Reading mark text 0 tags run.1.mode.start?
  /-- No other tags are the tags of the text. -/
  only : ∀ tags', Reading mark text 0 tags' run.1.mode.start? → tags' = tags
  /-- Every closed tag is one of them or stands in one of them or in the open tag. -/
  covered : ∀ i, ∀ t : ClosedTag mark, t.text <+: text.drop i →
    (∃ u ∈ tags, u.start ≤ i ∧ i < u.stop) ∨ ∃ start ∈ run.1.mode.start?, start ≤ i
  /-- Each of them comes to one outcome. -/
  outcomes : List.Forall₂ PlacedTag.ComesTo tags (run.2.flatMap (·.outcomes))
  /-- Where a tag is still open, there is none that has closed and can be read. -/
  opened : ∀ start ∈ run.1.mode.start?, ∀ t : ClosedTag mark, t.text <+: text.drop start →
    UnreadableHead mark (text.drop start)
  /-- The calls are made to their end just if the head of the open tag can be read. -/
  stopped : (∀ fed ∈ run.2, fed.stopped = none) ↔
    ∀ start ∈ run.1.mode.start?, ¬ UnreadableHead mark (text.drop start)
  /-- The calls give back the directives among the outcomes, if none is stopped. -/
  emitted : (∀ fed ∈ run.2, fed.stopped = none) → run.2.flatMap Fed.emitted =
    (run.2.flatMap (·.outcomes)).filterMap Outcome.directive?
  /-- They give back nothing else. -/
  emitted_only : (run.2.flatMap Fed.emitted).Sublist
    ((run.2.flatMap (·.outcomes)).filterMap Outcome.directive?)
  refusals : run.1.refusals = (run.2.flatMap (·.outcomes)).filterMap Outcome.refusal?
  warnings : run.1.warnings = (run.2.flatMap (·.outcomes)).filterMap Outcome.warning?
  /-- The end of the stream adds one warning at most. -/
  finish : run.1.finish.warnings = run.1.warnings ++ run.1.unterminated?.toList
  /-- It is about the open tag and reaches to the end of the text. -/
  last : ∀ w ∈ run.1.unterminated?, run.1.mode.start? = some w.start ∧ w.stop = text.length
  /-- Spans are not empty and end inside the text. -/
  inside : ∀ s ∈ spans run, s.1 < s.2 ∧ s.2 ≤ text.length
  /-- Each span starts where the ones before have ended. -/
  apart : (spans run).Pairwise fun s s' => s.2 ≤ s'.1
  /-- In the span of a directive stands a closed tag of its kind, which comes to the directive also
      by itself. -/
  alone : ∀ d ∈ run.2.flatMap Fed.emitted, ∃ t : ClosedTag mark,
    slice text d.start d.stop = t.text ∧ t.name.text = d.directive.kind ∧
      ReadAs [⟨d.directive, 0, d.stop - d.start⟩] ((ofMark mark).feed t.text)

end Parser

theorem PlacedTag.ComesTo.span {mark : String} {t : PlacedTag mark} {o : Outcome}
    (h : t.ComesTo o) : o.span = (t.start, t.stop) := by
  obtain ⟨attrs, -, rfl⟩ := h
  exact Parser.span_build ..

/-- Every outcome is that of a tag. -/
theorem exists_comesTo {mark : String} {tags : List (PlacedTag mark)} {outcomes : List Outcome}
    (h : List.Forall₂ PlacedTag.ComesTo tags outcomes) {o : Outcome} (ho : o ∈ outcomes) :
    ∃ t ∈ tags, t.ComesTo o := by
  induction h with
  | nil => cases ho
  | cons ht _ ih =>
    rcases List.mem_cons.1 ho with rfl | ho
    · exact ⟨_, List.mem_cons_self, ht⟩
    · obtain ⟨t, hmem, hto⟩ := ih ho
      exact ⟨t, List.mem_cons_of_mem _ hmem, hto⟩

theorem map_span_of_comesTo {mark : String} {tags : List (PlacedTag mark)}
    {outcomes : List Outcome} (h : List.Forall₂ PlacedTag.ComesTo tags outcomes) :
    outcomes.map Outcome.span = tags.map fun t => (t.start, t.stop) := by
  induction h with
  | nil => rfl
  | cons ht _ ih => rw [List.map_cons, List.map_cons, ht.span, ih]

/-- What stands at an offset ends inside the text. -/
theorem add_length_le_of_isPrefix {xs text : List Char} {start : Nat} (hne : xs ≠ [])
    (h : xs <+: text.drop start) : start + xs.length ≤ text.length := by
  have hlen := h.length_le
  have hpos := List.length_pos_iff.2 hne
  rw [List.length_drop] at hlen
  omega

theorem slice_of_isPrefix {xs text : List Char} {start : Nat} (h : xs <+: text.drop start) :
    slice text start (start + xs.length) = xs := by
  obtain ⟨rest, hrest⟩ := h
  exact slice_of_drop hrest.symm

/-- The directive of a tag stands where the tag does, is of its kind and is what the tag comes to by
    itself. -/
theorem PlacedTag.ComesTo.alone {mark : String} {t : PlacedTag mark} {tag : TagName} {d : Parsed}
    (h : t.ComesTo (.directive tag d)) : d.start = t.start ∧ d.stop = t.stop ∧
      t.tag.name.text = d.directive.kind ∧
      Parser.ReadAs [⟨d.directive, 0, d.stop - d.start⟩] ((Parser.ofMark mark).feed t.tag.text) := by
  have hspan := h.span
  obtain ⟨attrs, hattrs, hbuild⟩ := h
  simp only [Outcome.span, Prod.mk.injEq] at hspan
  have hlen : d.stop - d.start = t.tag.text.length := by
    rw [hspan.1, hspan.2, stop, Nat.add_sub_cancel_left]
  have hmoved := (Parser.ofMark mark).build_moveTo t.tag.name attrs t.tag.body t.start t.stop 0
    t.tag.text.length
  rw [← hbuild, Outcome.moveTo] at hmoved
  refine ⟨hspan.1, hspan.2, (Parser.directive_of_build hbuild.symm).1.symm, ?_⟩
  rw [hlen]
  exact Parser.feed_alone t.tag hattrs hmoved.symm

theorem Fed.emitted_sublist (f : Fed) :
    f.emitted.Sublist (f.outcomes.filterMap Outcome.directive?) := by
  rw [emitted]
  split
  · exact .refl _
  · exact List.nil_sublist _

namespace Parser

/-- A text at once. -/
theorem feed_done (mark : String) (text : List Char) :
    Done mark text 0 ((ofMark mark).feed text) := by
  have h : Done mark text 0 ((ofMark mark).grow text).advance :=
    @advance_reads ((ofMark mark).grow text) rfl
  rw [feed_ofMark]
  exact ⟨h.tags, h.opened, h.stopped⟩

section Spans

variable {mark : String} {text : List Char} {run : Parser × List Fed} {tags : List (PlacedTag mark)}

theorem spans_inside (h : Reading mark text 0 tags run.1.mode.start?)
    (hcome : List.Forall₂ PlacedTag.ComesTo tags (run.2.flatMap (·.outcomes)))
    (hlast : ∀ w ∈ run.1.unterminated?, run.1.mode.start? = some w.start ∧ w.stop = text.length) :
    ∀ s ∈ spans run, s.1 < s.2 ∧ s.2 ≤ text.length := by
  rw [spans, map_span_of_comesTo hcome]
  refine List.forall_mem_append.2 ⟨List.forall_mem_map.2 fun t ht => ?_,
    List.forall_mem_map.2 fun w hw => ?_⟩
  · have hne : t.tag.text ≠ [] := List.length_pos_iff.1 t.tag.length_text_pos
    exact ⟨t.start_lt_stop, add_length_le_of_isPrefix hne (h.stands t ht)⟩
  · obtain ⟨hstart, hstop⟩ := hlast w (Option.mem_toList.1 hw)
    obtain ⟨-, hopener, -⟩ := h.opened w.start hstart
    have hle := add_length_le_of_isPrefix (ofMark mark).opener_ne_nil hopener
    have hpos := List.length_pos_iff.2 (ofMark mark).opener_ne_nil
    exact ⟨by omega, hstop.le⟩

theorem spans_apart (h : Reading mark text 0 tags run.1.mode.start?)
    (hcome : List.Forall₂ PlacedTag.ComesTo tags (run.2.flatMap (·.outcomes)))
    (hlast : ∀ w ∈ run.1.unterminated?, run.1.mode.start? = some w.start ∧ w.stop = text.length) :
    (spans run).Pairwise fun s s' => s.2 ≤ s'.1 := by
  rw [spans, map_span_of_comesTo hcome]
  refine List.pairwise_append.2 ⟨List.pairwise_map.2 h.apart, ?_, ?_⟩
  · cases run.1.unterminated? with
    | none => exact .nil
    | some w => exact List.pairwise_singleton _ _
  · refine List.forall_mem_map.2 fun t ht => List.forall_mem_map.2 fun w hw => ?_
    obtain ⟨hstart, -⟩ := hlast w (Option.mem_toList.1 hw)
    exact (h.opened w.start hstart).2.2 t ht

end Spans

theorem emitted_sublist (feds : List Fed) : (feds.flatMap Fed.emitted).Sublist
    ((feds.flatMap (·.outcomes)).filterMap Outcome.directive?) := by
  induction feds with
  | nil => exact .refl _
  | cons fed feds ih =>
    rw [List.flatMap_cons, List.flatMap_cons, List.filterMap_append]
    exact fed.emitted_sublist.append ih

/-- A directive that a call gives back is what a tag of the text comes to. -/
theorem placed_of_emitted {mark : String} {pieces : List Piece} {d : Parsed}
    (hd : d ∈ ((ofMark mark).takeAll pieces).2.flatMap Fed.emitted) :
    ∃ t : PlacedTag mark, t.tag.text <+: (joinPieces pieces).drop t.start ∧
      ∃ tag, t.ComesTo (.directive tag d) := by
  obtain ⟨o, ho, hdirective⟩ := List.mem_filterMap.1 ((emitted_sublist _).subset hd)
  rw [takeAll_outcomes] at ho
  obtain ⟨tags, hreading, hcome⟩ := (feed_done mark (joinPieces pieces)).tags
  obtain ⟨t, ht, hto⟩ := exists_comesTo hcome ho
  cases o with
  | directive tag d' =>
    obtain rfl : d' = d := Option.some.inj hdirective
    exact ⟨t, hreading.stands t ht, tag, hto⟩
  | refused => cases hdirective
  | malformed => cases hdirective

/-- **Every closed tag comes out once, however the text is cut.** The `tags` of a text are
    determined by the text, and what its `pieces` come to is `Accounted` for by them: each comes to
    one outcome at its place, and the places are in order and apart. The exception is a tag whose
    head cannot be read: it comes to nothing, and so do the directives before it in the text of the
    call that it stops. -/
theorem closed_tags_come_out_once (fallback : String) (asked : Option String)
    (pieces : List Piece) :
    ∃ tags, Accounted (markInUse fallback asked) (joinPieces pieces) tags
      ((new fallback asked).takeAll pieces) := by
  rw [new]
  generalize markInUse fallback asked = mark
  have hread := takeAll_hasRead mark pieces
  have houtcomes := takeAll_outcomes mark pieces
  have hstopped := (hasRead_ofMark mark).takeAll_stopped (by rw [feed_nil rfl]) pieces
  have hemitted := (hasRead_ofMark mark).takeAll_emitted pieces
  have hplaced := fun d hd => @placed_of_emitted mark pieces d hd
  rw [List.nil_append] at hstopped hemitted
  generalize joinPieces pieces = text at *
  generalize (ofMark mark).takeAll pieces = run at *
  have halike : run.1.Alike ((ofMark mark).feed text).parser := .of_settle hread
  have hmode : run.1.mode = ((ofMark mark).feed text).parser.mode := by
    rw [← settle_mode, hread, settle_mode]
  obtain ⟨hrefusals, hwarnings⟩ := feed_collected (ofMark mark) text
  obtain ⟨⟨tags, hreading, hcome⟩, hopened, hstops⟩ := feed_done mark text
  rw [← hmode] at hreading hopened hstops
  rw [← houtcomes] at hcome hrefusals hwarnings
  have hlast : ∀ w ∈ run.1.unterminated?,
      run.1.mode.start? = some w.start ∧ w.stop = text.length := by
    intro w hw
    rw [← hread.buffer]
    exact place_of_unterminated hw
  refine ⟨tags,
    { reading := hreading
      only := fun _ => hreading.unique
      covered := fun i t => hreading.covered (Nat.zero_le i)
      outcomes := hcome
      opened := hopened
      stopped := hstopped.trans hstops
      emitted := fun h => hemitted (hstopped.1 h)
      emitted_only := emitted_sublist run.2
      refusals := halike.refusals.trans hrefusals
      warnings := halike.warnings.trans hwarnings
      finish := finish_warnings hread.finished
      last := hlast
      inside := spans_inside hreading hcome hlast
      apart := spans_apart hreading hcome hlast
      alone := fun d hd => ?_ }⟩
  obtain ⟨t, hstands, tag, hto⟩ := hplaced d hd
  obtain ⟨hstart, hstop, hkind, halone⟩ := hto.alone
  refine ⟨t.tag, ?_, hkind, halone⟩
  rw [hstart, hstop]
  exact slice_of_isPrefix hstands

/-- The tag `<pl-delete path="a"/>`. -/
def closedDelete : ClosedTag "pl" where
  name := .delete
  head := deleteHead ['a']
  body := none
  head_apart := (deleteHead_text (by decide)).1
  head_text := (deleteHead_text (by decide)).2
  body_none := iff_of_true rfl (by decide)
  body_ends := nofun

/-- **A closed tag in front of a head that cannot be read comes to nothing:** its directive is not
    given back, no path is refused, and the warning at the end of the stream is about the tag
    behind it. -/
theorem closed_tag_comes_to_nothing :
    let text := deleteTag ['a'] ++ deleteTag (zeroReference (maxDigits + 1))
    let run := (new "pl" none).takeAll [.alone text]
    closedDelete.text <+: text ∧ run.2.flatMap Fed.emitted = [] ∧ run.1.refusals = [] ∧
      ∀ w ∈ run.1.finish.warnings, closedDelete.text.length ≤ w.start := by
  intro text run
  obtain ⟨hstopped, houtcomes⟩ := feed_bothTags
  obtain ⟨hrefusals, hwarnings⟩ := feed_collected (ofMark "pl") text
  rw [houtcomes] at hrefusals hwarnings
  have hparser : run.1 = ((ofMark "pl").feed text).parser := rfl
  have hcalls : run.2 = [(ofMark "pl").feed text] := rfl
  have htext : closedDelete.text = deleteTag ['a'] := by decide
  refine ⟨htext ▸ List.prefix_append _ _, ?_, hrefusals, fun w hw => ?_⟩
  · rw [hcalls, List.flatMap_singleton, Fed.emitted_of_stopped hstopped]
  · -- the open tag starts where the closed one has ended
    obtain ⟨tags, hreading, hcome⟩ := (feed_done "pl" text).tags
    obtain ⟨t, ht, hto⟩ := exists_comesTo hcome (houtcomes ▸ List.mem_singleton_self _)
    have hfinished : run.1.finished = false := congrArg (fun s => s.2.2) (stream_feed_ofMark "pl" text)
    rw [finish_warnings hfinished, hparser, hwarnings] at hw
    obtain ⟨hstart, -⟩ := place_of_unterminated (Option.mem_toList.1 hw)
    have hstop : 21 = t.stop := congrArg Prod.snd hto.span
    have hbehind := (hreading.opened w.start hstart).2.2 t ht
    rw [← hstop] at hbehind
    exact hbehind

end Parser

end StagedEdits
