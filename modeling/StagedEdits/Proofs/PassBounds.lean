import StagedEdits.Proofs.Chunking

set_option autoImplicit false

/-! # The passes of a call

A call makes passes over the text until one of them leaves the loop. Falling back to prose takes a
tag that was scanned already back to right behind its start, so what goes forward is not how far
the text was scanned but where the next pass starts: the cursor, which never stands behind the start
of the open tag. It moves on with every pass that goes on and never leaves the text, which bounds
the passes.

The offsets that a parser writes down as it goes outlive the tags that they belong to. `Offsets`
holds each of them as it was written last; the parser reads those that its mode shows.

Main definitions: `Offsets`, `Parser.passOffsets` (what a pass writes down), `Tracked`,
`Parser.starts` (the parsers that the passes start from), `Parser.Passes`. Main statements:
`Tracked.Fits.pass` (one pass), `Parser.Passes.length_le` (a loop), `Tracked.Fits.call` (a call),
`Tracked.passes_end_in_bounds`. -/

namespace StagedEdits

/-! ## Offsets -/

/-- The offsets that a `Parser` writes down, each as it was written last. -/
structure Offsets where
  /-- Where the tag starts. -/
  tagStart : Nat
  /-- Where its name ends. -/
  nameEnd : Nat
  /-- How far its head is scanned. -/
  headScan : Nat
  /-- Where its body starts. -/
  bodyStart : Nat
  /-- From where on its closer is searched for. -/
  closerSearch : Nat

/-- The offsets of a parser before any text. -/
def Offsets.zero : Offsets := ⟨0, 0, 0, 0, 0⟩

/-- That offsets lie inside a text of length `n`. -/
structure Offsets.Within (o : Offsets) (n : Nat) : Prop where
  tagStart : o.tagStart ≤ n
  nameEnd : o.nameEnd ≤ n
  headScan : o.headScan ≤ n
  bodyStart : o.bodyStart ≤ n
  closerSearch : o.closerSearch ≤ n

theorem Offsets.Within.mono {o : Offsets} {m n : Nat} (h : o.Within m) (hmn : m ≤ n) :
    o.Within n where
  tagStart := Nat.le_trans h.tagStart hmn
  nameEnd := Nat.le_trans h.nameEnd hmn
  headScan := Nat.le_trans h.headScan hmn
  bodyStart := Nat.le_trans h.bodyStart hmn
  closerSearch := Nat.le_trans h.closerSearch hmn

/-- That a mode shows the offsets that were written down for it; `opener` is the length of what
    opens a tag. -/
def Mode.Shows (opener : Nat) (o : Offsets) : Mode → Prop
  | .prose => True
  | .naming start => o.tagStart = start ∧ o.headScan = start + opener
  | .head start _ nameEnd scanned _ =>
    o.tagStart = start ∧ o.nameEnd = nameEnd ∧ o.headScan = scanned
  | .body start _ _ bodyStart searched =>
    o.tagStart = start ∧ o.bodyStart = bodyStart ∧ o.closerSearch = searched

/-- That the offsets `o` of an open tag stand in their order, as far as its mode has come to
    them. -/
def Mode.Orders (o : Offsets) : Mode → Prop
  | .prose => True
  | .naming _ => True
  | .head .. => o.tagStart ≤ o.nameEnd ∧ o.nameEnd ≤ o.headScan
  | .body .. =>
    o.tagStart ≤ o.nameEnd ∧ o.nameEnd ≤ o.headScan ∧ o.bodyStart ≤ o.closerSearch

namespace Parser

/-- What `bodyStage` writes down. -/
def bodyOffsets (p : Parser) (tag : TagName) (bodyStart searched : Nat) (o : Offsets) : Offsets :=
  match findFrom (p.closer tag) p.buffer searched with
  | none =>
    { o with closerSearch := max bodyStart (p.buffer.length + 1 - (p.closer tag).length) }
  | some _ => o

/-- What `headStage` writes down. -/
def headOffsets (p : Parser) (tag : TagName) (nameEnd scanned : Nat) (quote : Option Char)
    (o : Offsets) : Offsets :=
  match scanHead quote (p.buffer.drop scanned) with
  | .more _ => { o with headScan := p.buffer.length }
  | .prose => o
  | .closed n =>
    let close := scanned + n
    let o := { o with headScan := close }
    let rest := trimEnd (slice p.buffer nameEnd close)
    match parseAttributes (dropEndWhile (· == '/') rest) with
    | .error _ => o
    | .ok _ =>
      if rest.getLast? == some '/' then o
      else
        p.bodyOffsets tag (close + 1) (close + 1)
          { o with bodyStart := close + 1, closerSearch := close + 1 }

/-- What `nameStage` writes down. -/
def nameOffsets (p : Parser) (start : Nat) (o : Offsets) : Offsets :=
  let nameStart := start + p.opener.length
  let name := TagName.read (p.buffer.drop nameStart)
  let nameEnd := nameStart + name.length
  match p.buffer[nameEnd]? with
  | none => o
  | some c =>
    match TagName.ofChars? name with
    | none => o
    | some tag =>
      if isBlank c || c == '/' || c == '>' then
        p.headOffsets tag nameEnd nameEnd none { o with nameEnd, headScan := nameEnd }
      else o

/-- What `pass` writes down. -/
def passOffsets (p : Parser) (o : Offsets) : Offsets :=
  match p.mode with
  | .prose =>
    match findFrom p.opener p.buffer p.cursor with
    | none => o
    | some i => p.nameOffsets i { o with tagStart := i, headScan := i + p.opener.length }
  | .naming start => p.nameOffsets start o
  | .head _ tag nameEnd scanned quote => p.headOffsets tag nameEnd scanned quote o
  | .body _ tag _ bodyStart searched => p.bodyOffsets tag bodyStart searched o

end Parser

/-! ## One pass -/

/-- A `parser` with the `offsets` that it wrote down. -/
structure Tracked where
  parser : Parser
  offsets : Offsets

namespace Tracked

/-- That the offsets of `s` lie inside its text, that its mode shows and orders them, and that the
    cursor stands no further than where the open tag starts. -/
structure Follows (s : Tracked) : Prop where
  cursor : s.parser.cursor ≤ s.parser.openStart
  within : s.offsets.Within s.parser.buffer.length
  shows : s.parser.mode.Shows s.parser.opener.length s.offsets
  orders : s.parser.mode.Orders s.offsets

/-- That all that the parser of `s` keeps follows its text. -/
structure Fits (s : Tracked) : Prop extends s.Follows where
  bounds : s.parser.InBounds

/-- The parser of `s` after one pass. -/
def pass (s : Tracked) : Tracked := ⟨s.parser.pass.parser, s.parser.passOffsets s.offsets⟩

section Stages

variable {p : Parser} {o : Offsets} {start : Nat} {tag : TagName} {attrs : Table String}
  {bodyStart searched nameEnd scanned : Nat} {quote : Option Char}

/-- A parser that is back in prose follows its text. -/
theorem follows_resume (ho : o.Within p.buffer.length) (n : Nat) : Follows ⟨p.resume n, o⟩ where
  cursor := Nat.le_refl n
  within := ho
  shows := trivial
  orders := trivial

theorem bodyStage_follows (hc : p.cursor ≤ start) (ho : o.Within p.buffer.length)
    (hs : (Mode.body start tag attrs bodyStart searched).Shows p.opener.length o)
    (hr : (Mode.body start tag attrs bodyStart searched).Orders o) :
    Follows ⟨(p.bodyStage start tag attrs bodyStart searched).parser,
      p.bodyOffsets tag bodyStart searched o⟩ := by
  obtain ⟨hstart, hbody, -⟩ := hs
  obtain ⟨hname, hhead, -⟩ := hr
  have hcloser := List.length_pos_iff.2 (p.closer_ne_nil tag)
  unfold Parser.bodyStage Parser.bodyOffsets
  dsimp only
  cases findFrom (p.closer tag) p.buffer searched with
  | none =>
    have hin : max bodyStart (p.buffer.length + 1 - (p.closer tag).length) ≤ p.buffer.length := by
      have := ho.bodyStart
      omega
    exact ⟨hc, ⟨ho.tagStart, ho.nameEnd, ho.headScan, ho.bodyStart, hin⟩,
      ⟨hstart, hbody, rfl⟩, ⟨hname, hhead, hbody ▸ Nat.le_max_left _ _⟩⟩
  | some i => exact follows_resume ho _

theorem headStage_follows (hc : p.cursor ≤ start) (ho : o.Within p.buffer.length)
    (hs : (Mode.head start tag nameEnd scanned quote).Shows p.opener.length o)
    (hr : (Mode.head start tag nameEnd scanned quote).Orders o) :
    Follows ⟨(p.headStage start tag nameEnd scanned quote).parser,
      p.headOffsets tag nameEnd scanned quote o⟩ := by
  obtain ⟨hstart, rfl, rfl⟩ := hs
  obtain ⟨hname, hhead⟩ := hr
  unfold Parser.headStage Parser.headOffsets
  cases hscan : Parser.scanHead quote (p.buffer.drop o.headScan) with
  | more quote =>
    exact ⟨hc, ⟨ho.tagStart, ho.nameEnd, Nat.le_refl _, ho.bodyStart, ho.closerSearch⟩,
      ⟨hstart, rfl, rfl⟩, ⟨hname, ho.nameEnd⟩⟩
  | prose => exact follows_resume ho _
  | closed n =>
    have hlt := Parser.scanHead_closed_lt hscan
    rw [List.length_drop] at hlt
    -- the head ends inside the text, so what is behind it does not start outside
    have hclose : o.headScan + n + 1 ≤ p.buffer.length := by omega
    have ho' : Offsets.Within { o with headScan := o.headScan + n } p.buffer.length :=
      ⟨ho.tagStart, ho.nameEnd, Nat.le_of_succ_le hclose, ho.bodyStart, ho.closerSearch⟩
    dsimp only
    cases parseAttributes (dropEndWhile (· == '/')
        (trimEnd (slice p.buffer o.nameEnd (o.headScan + n)))) with
    | error f => exact ⟨hc, ho', ⟨hstart, rfl, rfl⟩, ⟨hname, Nat.le_add_right_of_le hhead⟩⟩
    | ok attrs =>
      dsimp only
      by_cases hself :
          ((trimEnd (slice p.buffer o.nameEnd (o.headScan + n))).getLast? == some '/') = true
      · rw [if_pos hself, if_pos hself]
        exact follows_resume ho' _
      · rw [if_neg hself, if_neg hself]
        exact bodyStage_follows hc
          ⟨ho.tagStart, ho.nameEnd, ho'.headScan, hclose, hclose⟩
          ⟨hstart, rfl, rfl⟩ ⟨hname, Nat.le_add_right_of_le hhead, Nat.le_refl _⟩

theorem nameStage_follows (hc : p.cursor ≤ start) (ho : o.Within p.buffer.length)
    (hs : (Mode.naming start).Shows p.opener.length o) :
    Follows ⟨(p.nameStage start).parser, p.nameOffsets start o⟩ := by
  obtain ⟨rfl, hscan⟩ := hs
  unfold Parser.nameStage Parser.nameOffsets
  dsimp only
  generalize TagName.read (p.buffer.drop (o.tagStart + p.opener.length)) = name
  cases hnext : p.buffer[o.tagStart + p.opener.length + name.length]? with
  | none => exact ⟨hc, ho, ⟨rfl, hscan⟩, trivial⟩
  | some c =>
    have hin := (List.getElem?_eq_some_iff.1 hnext).1
    cases TagName.ofChars? name with
    | none => exact follows_resume ho _
    | some tag =>
      dsimp only
      by_cases hapart : (isBlank c || c == '/' || c == '>') = true
      · rw [if_pos hapart, if_pos hapart]
        refine headStage_follows hc
          ⟨ho.tagStart, Nat.le_of_lt hin, Nat.le_of_lt hin, ho.bodyStart, ho.closerSearch⟩
          ⟨rfl, rfl, rfl⟩ ⟨?_, Nat.le_refl _⟩
        show o.tagStart ≤ o.tagStart + p.opener.length + name.length
        omega
      · rw [if_neg hapart, if_neg hapart]
        exact follows_resume ho _

end Stages

/-- **A pass keeps the offsets inside the text.** -/
theorem Fits.pass {s : Tracked} (h : s.Fits) : s.pass.Fits := by
  refine ⟨?_, Parser.pass_inBounds h.bounds⟩
  obtain ⟨⟨hc, ho, hs, hr⟩, -⟩ := h
  obtain ⟨p, o⟩ := s
  unfold Tracked.pass Parser.pass Parser.passOffsets
  dsimp only at hc ho hs hr ⊢
  unfold Parser.openStart at hc
  cases hmode : p.mode with
  | prose =>
    dsimp only
    cases hfound : findFrom p.opener p.buffer p.cursor with
    | none => exact ⟨Nat.le_refl _, ho, trivial, trivial⟩
    | some i =>
      have hi := findFrom_bounds p.opener_ne_nil hfound
      exact nameStage_follows hi.1
        ⟨by show i ≤ p.buffer.length; omega, ho.nameEnd, hi.2, ho.bodyStart, ho.closerSearch⟩
        ⟨rfl, rfl⟩
  | naming start =>
    rw [hmode] at hc hs
    exact nameStage_follows hc ho hs
  | head start tag nameEnd scanned quote =>
    rw [hmode] at hc hs hr
    exact headStage_follows hc ho hs hr
  | body start tag attrs bodyStart searched =>
    rw [hmode] at hc hs hr
    exact bodyStage_follows hc ho hs hr

theorem Fits.of_pass {p : Parser} {o : Offsets} {r : Pass} (h : Fits ⟨p, o⟩) (hpass : p.pass = r) :
    Fits ⟨r.parser, p.passOffsets o⟩ :=
  hpass ▸ h.pass

end Tracked

/-! ## Moving on -/

/-- A pass that goes on ends behind the place where the open tag starts. -/
theorem Parser.openStart_lt_of_again {p q : Parser} {x : Option Outcome} (h : p.InBounds)
    (hpass : p.pass = .again q x) : p.openStart < q.cursor := by
  have hm := h.mode
  have hprose := (pass_again hpass).2.2
  unfold openStart
  unfold pass at hpass
  cases hmode : p.mode with
  | prose => exact (hprose hmode).1
  | naming start =>
    rw [hmode] at hpass
    exact (nameStage_again hpass).2.2
  | head start tag nameEnd scanned quote =>
    rw [hmode] at hpass hm
    obtain ⟨hname, hscan, -⟩ := hm
    exact (headStage_again hpass).2.2 (by omega)
  | body start tag attrs bodyStart searched =>
    rw [hmode] at hpass hm
    obtain ⟨hstart, -, hsearched, -⟩ := hm
    exact Nat.lt_trans (Nat.lt_of_lt_of_le hstart hsearched) (bodyStage_again hpass).2.2

/-- That a pass over a text of length `n` leaves the loop, or ends in prose with the cursor further
    on than it was, and not outside of the text. -/
def Pass.MovesOn (cursor n : Nat) : Pass → Prop
  | .wait _ => True
  | .stuck _ _ => True
  | .again q _ => q.mode = .prose ∧ cursor < q.cursor ∧ q.cursor ≤ n

/-- **A pass leaves the loop or moves on.** -/
theorem Tracked.Fits.movesOn {s : Tracked} (h : s.Fits) :
    s.parser.pass.MovesOn s.parser.cursor s.parser.buffer.length := by
  have hbounds := Parser.pass_inBounds h.bounds
  cases hpass : s.parser.pass with
  | wait q => trivial
  | stuck q f => trivial
  | again q x =>
    obtain ⟨hmode, hbuffer, -⟩ := Parser.pass_again hpass
    have hlt := Parser.openStart_lt_of_again h.bounds hpass
    rw [hpass] at hbounds
    exact ⟨hmode, Nat.lt_of_le_of_lt h.cursor hlt, hbuffer ▸ hbounds.cursor⟩

/-! ## All passes of a call -/

namespace Parser

/-- The parsers that the passes of a loop start from, in their order. -/
def starts (p : Parser) : List Parser :=
  p ::
    match _h : p.pass with
    | .wait _ => []
    | .stuck _ _ => []
    | .again q _ => starts q
termination_by (p.mode.rank, p.buffer.length - p.cursor)
decreasing_by
  obtain ⟨hmode, hbuffer, hprose⟩ := pass_again (by assumption)
  rw [hmode, hbuffer]
  cases hm : p.mode with
  | prose =>
    have hforward := hprose hm
    exact Prod.Lex.right _ (by omega)
  | _ => exact Prod.Lex.left _ _ Nat.one_pos

/-- That a loop makes its passes from these parsers, one from what the one before it left, up to one
    that leaves the loop, and comes to what was fed. -/
inductive Passes : Parser → List Parser → Fed → Prop
  | waits {p q : Parser} (h : p.pass = .wait q) : Passes p [p] ⟨q, [], none⟩
  | sticks {p q : Parser} {f : NumberFault} (h : p.pass = .stuck q f) :
    Passes p [p] ⟨q, [], some (.unreadable f)⟩
  | goesOn {p q : Parser} {x : Option Outcome} {qs : List Parser} {fed : Fed}
    (h : p.pass = .again q x) (hrest : Passes q qs fed) : Passes p (p :: qs) (fed.precede x.toList)

theorem starts_of_wait {p q : Parser} (h : p.pass = .wait q) : p.starts = [p] := by
  rw [starts]
  split
  · rfl
  · rfl
  · rename_i hp
    cases h.symm.trans hp

theorem starts_of_stuck {p q : Parser} {f : NumberFault} (h : p.pass = .stuck q f) :
    p.starts = [p] := by
  rw [starts]
  split
  · rfl
  · rfl
  · rename_i hp
    cases h.symm.trans hp

theorem starts_of_again {p q : Parser} {x : Option Outcome} (h : p.pass = .again q x) :
    p.starts = p :: q.starts := by
  rw [starts]
  split
  · rename_i hp
    cases h.symm.trans hp
  · rename_i hp
    cases h.symm.trans hp
  · rename_i hp
    cases h.symm.trans hp
    rfl

/-- **The loop ends, and comes to what the parser goes on with**: `p.starts` lists its passes, and
    `advance` is what it comes to. -/
theorem passes_starts (p : Parser) : p.Passes p.starts p.advance := by
  fun_induction advance p with
  | case1 p q hp =>
    rw [starts_of_wait hp]
    exact .waits hp
  | case2 p q f hp =>
    rw [starts_of_stuck hp]
    exact .sticks hp
  | case3 p q x hp r ih =>
    rw [starts_of_again hp]
    exact .goesOn hp ih

/-- The parsers that the passes over the text of `p` with `chunk` behind it start from: there are
    none if the stream has ended or `chunk` is empty. -/
def startsOf (p : Parser) (chunk : List Char) : List Parser :=
  if p.finished || chunk.isEmpty then [] else (p.grow chunk).starts

/-- **A piece is fed by making passes over the text with it behind, unless there is none or the
    stream has ended**: those of `startsOf chunk`. -/
theorem feed_passes (p : Parser) (chunk : List Char) :
    ((p.finished = true ∨ chunk = []) ∧ p.startsOf chunk = [] ∧ (p.feed chunk).parser = p) ∨
      ∃ fed, (p.grow chunk).Passes (p.startsOf chunk) fed ∧
        p.feed chunk = fed.keep fed.outcomes := by
  unfold startsOf
  cases hp : p.finished with
  | true =>
    have hfed : p.feed chunk = ⟨p, [], some .finished⟩ := if_pos hp
    exact .inl ⟨.inl rfl, rfl, hfed ▸ rfl⟩
  | false =>
    cases chunk with
    | nil => exact .inl ⟨.inr rfl, rfl, feed_nil hp ▸ rfl⟩
    | cons c cs =>
      exact .inr ⟨_, (p.grow (c :: cs)).passes_starts, feed_eq hp (List.cons_ne_nil c cs)⟩

end Parser

/-- What the passes that start from `ps` write down. -/
def Offsets.after (o : Offsets) (ps : List Parser) : Offsets :=
  ps.foldl (fun o p => p.passOffsets o) o

namespace Parser.Passes

variable {p : Parser} {o : Offsets} {qs : List Parser} {fed : Fed}

/-- **What a loop comes to fits, with what its passes wrote down.** -/
theorem fits (h : p.Passes qs fed) (hf : Tracked.Fits ⟨p, o⟩) :
    Tracked.Fits ⟨fed.parser, o.after qs⟩ := by
  induction h generalizing o with
  | waits hp => exact hf.of_pass hp
  | sticks hp => exact hf.of_pass hp
  | goesOn hp _ ih => exact ih (hf.of_pass hp)

/-- Each pass of a loop leaves it or moves on. -/
theorem movesOn (h : p.Passes qs fed) (hf : Tracked.Fits ⟨p, o⟩) :
    ∀ q ∈ qs, q.pass.MovesOn q.cursor p.buffer.length := by
  induction h generalizing o with
  | waits _ => exact List.forall_mem_singleton.2 hf.movesOn
  | sticks _ => exact List.forall_mem_singleton.2 hf.movesOn
  | goesOn hp _ ih =>
    have hbuffer := (pass_again hp).2.1
    exact List.forall_mem_cons.2 ⟨hf.movesOn, hbuffer ▸ ih (hf.of_pass hp)⟩

/-- A head in which another tag starts was prose: though it was scanned up to there, the next pass
    starts right behind where the head did. -/
example : ((ofMark "p").startsOf "<p-write <".toList).map cursor = [0, 1] := by cbv

/-- **A loop makes no more passes than there are offsets from its cursor on**: `qs` lists one offset
    for each. -/
theorem length_le (h : p.Passes qs fed) (hf : Tracked.Fits ⟨p, o⟩) :
    qs.length ≤ p.buffer.length - p.cursor + 1 := by
  induction h generalizing o with
  | waits _ => exact Nat.le_add_left 1 _
  | sticks _ => exact Nat.le_add_left 1 _
  | @goesOn p q x qs fed hp _ ih =>
    have hrest := ih (hf.of_pass hp)
    have hbuffer := (pass_again hp).2.1
    have hon : (Pass.again q x).MovesOn p.cursor p.buffer.length := hp ▸ hf.movesOn
    obtain ⟨-, hforward, hin⟩ := hon
    rw [hbuffer] at hrest
    rw [List.length_cons]
    omega

end Parser.Passes

/-! ## Calls -/

/-- What a parser is called for. -/
inductive ParserCall where
  | feed (chunk : List Char)
  | sync (whole : List Char)
  | finish
  | drain

namespace ParserCall

/-- The parser `p` after a call. -/
def parser (p : Parser) : ParserCall → Parser
  | .feed chunk => (p.feed chunk).parser
  | .sync whole => (p.sync whole).parser
  | .finish => p.finish
  | .drain => p.drain.1

/-- The parsers that the passes of a call start from. -/
def starts (p : Parser) : ParserCall → List Parser
  | .feed chunk => p.startsOf chunk
  | .sync whole =>
    if p.buffer.isPrefixOf whole then p.startsOf (whole.drop p.buffer.length) else []
  | .finish => []
  | .drain => []

end ParserCall

namespace Tracked

/-- A parser before any text, with nothing written down. -/
def new (fallback : String) (asked : Option String) : Tracked :=
  ⟨Parser.new fallback asked, Offsets.zero⟩

/-- The parser of `s` after the call `c`. -/
def call (s : Tracked) (c : ParserCall) : Tracked :=
  ⟨c.parser s.parser, s.offsets.after (c.starts s.parser)⟩

/-- The parser of `s` after `calls`. -/
def afterAll (s : Tracked) (calls : List ParserCall) : Tracked := calls.foldl call s

theorem new_fits (fallback : String) (asked : Option String) : (new fallback asked).Fits where
  cursor := Nat.le_refl 0
  within := ⟨Nat.le_refl 0, Nat.le_refl 0, Nat.le_refl 0, Nat.le_refl 0, Nat.le_refl 0⟩
  shows := trivial
  orders := trivial
  bounds := Parser.ofMark_inBounds (Parser.markInUse fallback asked)

namespace Fits

variable {p : Parser} {o : Offsets}

theorem grow (h : Fits ⟨p, o⟩) (more : List Char) : Fits ⟨p.grow more, o⟩ :=
  have hlen : p.buffer.length ≤ (p.buffer ++ more).length :=
    List.length_append ▸ Nat.le_add_right _ _
  { cursor := h.cursor
    within := h.within.mono hlen
    shows := h.shows
    orders := h.orders
    bounds := h.bounds.grow more }

/-- What a parser keeps besides its text and where it stands in it does not matter. -/
theorem withRest (h : Fits ⟨p, o⟩) (finished : Bool) (refusals : List PathRefusal)
    (warnings : List Warning) : Fits ⟨{ p with finished, refusals, warnings }, o⟩ where
  cursor := h.cursor
  within := h.within
  shows := h.shows
  orders := h.orders
  bounds := ⟨h.bounds.cursor, h.bounds.mode⟩

theorem feed (h : Fits ⟨p, o⟩) (chunk : List Char) :
    Fits ⟨(p.feed chunk).parser, o.after (p.startsOf chunk)⟩ := by
  obtain ⟨-, hnone, hsame⟩ | ⟨fed, hpasses, hfed⟩ := p.feed_passes chunk
  · rw [hnone, hsame]
    exact h
  · rw [hfed]
    exact (hpasses.fits (h.grow chunk)).withRest _ _ _

/-- **A call keeps the offsets inside the text.** -/
theorem call {s : Tracked} (h : s.Fits) (c : ParserCall) : (s.call c).Fits := by
  cases c with
  | feed chunk => exact h.feed chunk
  | sync whole =>
    show Fits ⟨(s.parser.sync whole).parser, s.offsets.after ((ParserCall.sync whole).starts _)⟩
    unfold Parser.sync ParserCall.starts
    dsimp only
    by_cases hext : s.parser.buffer.isPrefixOf whole = true
    · rw [if_pos hext, if_pos hext]
      exact h.feed _
    · rw [if_neg hext, if_neg hext]
      exact h
  | finish =>
    show Fits ⟨s.parser.finish, s.offsets⟩
    unfold Parser.finish
    cases s.parser.finished with
    | true => exact h
    | false => exact h.withRest _ _ _
  | drain => exact h.withRest _ _ _

/-- Calls keep the offsets inside the text. -/
theorem afterAll {s : Tracked} (h : s.Fits) (calls : List ParserCall) :
    (s.afterAll calls).Fits := by
  induction calls generalizing s with
  | nil => exact h
  | cons c cs ih => exact ih (h.call c)

end Fits

/-- **Whatever a parser was called for, its offsets lie inside its text, and the passes that the
    next piece takes move the cursor on until one of them leaves the loop, so that they are no more
    than the text has offsets from the cursor on.** The parsers that the passes over `chunk` start
    from are `startsOf chunk`. Between calls an open tag starts before its name ends and its head is
    scanned from there, and its closer is not searched for before the body starts. -/
theorem passes_end_in_bounds (fallback : String) (asked : Option String)
    (calls : List ParserCall) :
    let s := (new fallback asked).afterAll calls
    let p := s.parser
    p.cursor ≤ p.buffer.length ∧ s.offsets.Within p.buffer.length ∧
      p.mode.Shows p.opener.length s.offsets ∧ p.mode.Orders s.offsets ∧
      ∀ chunk : List Char,
        -- the passes are those of the call
        (((p.finished = true ∨ chunk = []) ∧ p.startsOf chunk = [] ∧
            (p.feed chunk).parser = p) ∨
          ∃ fed, (p.grow chunk).Passes (p.startsOf chunk) fed ∧
            p.feed chunk = fed.keep fed.outcomes) ∧
          (∀ q ∈ p.startsOf chunk, q.pass.MovesOn q.cursor (p.buffer ++ chunk).length) ∧
          (p.startsOf chunk).length ≤ (p.buffer ++ chunk).length - p.cursor + 1 := by
  intro s p
  have h : s.Fits := (new_fits fallback asked).afterAll calls
  refine ⟨h.bounds.cursor, h.within, h.shows, h.orders, fun chunk => ?_⟩
  have hfeed := p.feed_passes chunk
  refine ⟨hfeed, ?_⟩
  obtain ⟨-, hnone, -⟩ | ⟨fed, hpasses, -⟩ := hfeed
  · rw [hnone]
    exact ⟨fun q hq => absurd hq List.not_mem_nil, Nat.zero_le _⟩
  · have hgrown : Fits ⟨p.grow chunk, s.offsets⟩ := Fits.grow h chunk
    exact ⟨hpasses.movesOn hgrown, hpasses.length_le hgrown⟩

end Tracked

end StagedEdits
