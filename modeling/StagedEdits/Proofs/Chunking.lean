import StagedEdits.Proofs.ParserGrowth

set_option autoImplicit false

/-! # Passes over a text that grows

A parser makes passes over its text until it has to wait for more or is stuck. When more text comes
it makes the passes that it would have made over the whole text from there on, so that a piece which
is fed to a parser comes to what the grown text comes to beyond the text before.

Main statements: `Parser.advance_grow` (passes over a text go on where they stopped before it grew),
`Parser.HasRead.feed` (a piece against the grown text). -/

namespace StagedEdits

/-- What was fed, without a cursor that does not count. -/
def Fed.settle (f : Fed) : Fed := { f with parser := f.parser.settle }

/-- What was fed, with `os` as the outcomes before it. -/
def Fed.precede (os : List Outcome) (f : Fed) : Fed := { f with outcomes := os ++ f.outcomes }

theorem Fed.precede_precede (as bs : List Outcome) (f : Fed) :
    (f.precede bs).precede as = f.precede (as ++ bs) := by
  simp [Fed.precede, List.append_assoc]

theorem Fed.settle_precede (os : List Outcome) (f : Fed) :
    (f.precede os).settle = f.settle.precede os := rfl

namespace Parser

/-! ## Many passes -/

theorem advance_of_wait {p q : Parser} (h : p.pass = .wait q) : p.advance = ⟨q, [], none⟩ := by
  rw [advance]
  split <;> rename_i hp <;> rw [h] at hp <;> cases hp
  rfl

theorem advance_of_stuck {p q : Parser} {f : NumberFault} (h : p.pass = .stuck q f) :
    p.advance = ⟨q, [], some (.unreadable f)⟩ := by
  rw [advance]
  split <;> rename_i hp <;> rw [h] at hp <;> cases hp
  rfl

theorem advance_of_again {p q : Parser} {o : Option Outcome} (h : p.pass = .again q o) :
    p.advance = q.advance.precede o.toList := by
  rw [advance]
  split <;> rename_i hp <;> rw [h] at hp <;> cases hp
  rfl

/-- Parsers whose next passes are alike go on alike. -/
theorem advance_settle {p q : Parser} (h : p.pass.settle = q.pass.settle) :
    p.advance.settle = q.advance.settle := by
  cases hp : p.pass <;> cases hq : q.pass <;> rw [hp, hq] at h <;>
    simp only [Pass.settle, Pass.wait.injEq, Pass.stuck.injEq, Pass.again.injEq, reduceCtorEq] at h
  · rw [advance_of_wait hp, advance_of_wait hq]
    simp only [Fed.settle, h]
  · rw [advance_of_stuck hp, advance_of_stuck hq]
    simp only [Fed.settle, h]
  · rw [advance_of_again hp, advance_of_again hq, h.1, h.2]

/-- **Passes over a grown text end as those over the text before it grew, followed by the passes
    from where these stopped**: `advance` may be taken before `more` is there and again behind
    it. -/
theorem advance_grow {p : Parser} (h : p.InBounds) (more : List Char) :
    (p.grow more).advance.settle =
      ((p.advance.parser.grow more).advance.precede p.advance.outcomes).settle := by
  -- the passes over the short text are made over the grown one too, up to the last of them
  fun_induction advance p with
  | case1 p q hp =>
    have hg := pass_grows more h
    rw [hp] at hg
    cases hg with
    | wait q b hb => exact advance_settle hb
  | case2 p q f hp =>
    have hg := pass_grows more h
    rw [hp] at hg
    generalize hb : (p.grow more).pass = b at hg
    cases hg with
    | stuck q f hq => rw [advance_of_stuck hb, advance_of_stuck hq]; rfl
  | case3 p q o hp r ih =>
    have hg := pass_grows more h
    have hq := pass_inBounds h
    rw [hp] at hg hq
    generalize hb : (p.grow more).pass = b at hg
    cases hg with
    | again q o =>
      rw [advance_of_again hb, Fed.settle_precede, ih hq, ← Fed.settle_precede,
        Fed.precede_precede]

/-! ## What a pass leaves alone -/

section Leaves

-- whatever is read off a parser apart from where it stands
variable {α : Type} {f : Parser → α} (hf : ∀ p mode cursor, f { p with mode, cursor } = f p)
  (p : Parser) (start : Nat) (tag : TagName) (attrs : Table String)
  (bodyStart searched nameEnd scanned : Nat) (quote : Option Char)

include hf

theorem bodyStage_leaves : f (p.bodyStage start tag attrs bodyStart searched).parser = f p := by
  simp only [bodyStage]
  split
  · exact hf p _ p.cursor
  · exact hf p .prose _

theorem headStage_leaves : f (p.headStage start tag nameEnd scanned quote).parser = f p := by
  simp only [headStage]
  split
  · exact hf p _ p.cursor
  · exact hf p .prose _
  · split
    · exact hf p _ p.cursor
    · split
      · exact hf p .prose _
      · exact bodyStage_leaves hf p ..

theorem nameStage_leaves : f (p.nameStage start).parser = f p := by
  simp only [nameStage]
  split
  · exact hf p _ p.cursor
  · split
    · exact hf p .prose _
    · split
      · exact headStage_leaves hf p ..
      · exact hf p .prose _

theorem pass_leaves : f p.pass.parser = f p := by
  rw [pass]
  split
  · split
    · exact hf p p.mode _
    · exact nameStage_leaves hf p _
  · exact nameStage_leaves hf p _
  · exact headStage_leaves hf p ..
  · exact bodyStage_leaves hf p ..

/-- **Passes move a parser on and leave all else of it alone**: `f` is any part of it that no pass
    changes. -/
theorem advance_leaves : f p.advance.parser = f p := by
  fun_induction advance p with
  | case1 p q hp => rw [← pass_leaves hf p, hp]; rfl
  | case2 p q fault hp => rw [← pass_leaves hf p, hp]; rfl
  | case3 p q o hp r ih => rw [ih, ← pass_leaves hf p, hp]; rfl

end Leaves

/-- What `Parser.advance` leaves alone: the text, the mark before the names of the tags and whether
    the stream has ended. -/
def stream (p : Parser) : String × List Char × Bool := (p.mark, p.buffer, p.finished)

theorem advance_stream (p : Parser) : p.advance.parser.stream = p.stream :=
  advance_leaves (fun _ _ _ => rfl) p

/-- Passes leave alone what was collected. -/
theorem advance_collected (p : Parser) :
    p.advance.parser.refusals = p.refusals ∧ p.advance.parser.warnings = p.warnings :=
  ⟨advance_leaves (fun _ _ _ => rfl) p, advance_leaves (fun _ _ _ => rfl) p⟩

/-! ## What a pass does not look at -/

@[simp] theorem keep_buffer (p : Parser) (os : List Outcome) : (p.keep os).buffer = p.buffer := rfl

@[simp] theorem keep_mode (p : Parser) (os : List Outcome) : (p.keep os).mode = p.mode := rfl

@[simp] theorem keep_cursor (p : Parser) (os : List Outcome) : (p.keep os).cursor = p.cursor := rfl

@[simp] theorem keep_opener (p : Parser) (os : List Outcome) : (p.keep os).opener = p.opener := rfl

@[simp] theorem keep_closer (p : Parser) (os : List Outcome) (tag : TagName) :
    (p.keep os).closer tag = p.closer tag := rfl

theorem keep_nil (p : Parser) : p.keep [] = p := by simp [keep]

theorem keep_keep (p : Parser) (as bs : List Outcome) :
    (p.keep as).keep bs = p.keep (as ++ bs) := by
  simp [keep, List.append_assoc]

theorem settle_keep (p : Parser) (os : List Outcome) : (p.keep os).settle = p.settle.keep os := by
  by_cases h : p.mode = .prose
  · rw [settle_of_prose h, settle_of_prose (p := p.keep os) h]
  · rw [settle_of_pending h, settle_of_pending (p := p.keep os) h]
    rfl

end Parser

/-- A pass whose parser keeps what `os` leave behind. -/
def Pass.keep (os : List Outcome) : Pass → Pass
  | .wait p => .wait (p.keep os)
  | .stuck p f => .stuck (p.keep os) f
  | .again p o => .again (p.keep os) o

namespace Parser

section Keep

variable (p : Parser) (os : List Outcome) (start : Nat) (tag : TagName) (attrs : Table String)
  (bodyStart searched nameEnd scanned : Nat) (quote : Option Char)

theorem bodyStage_keep :
    (p.keep os).bodyStage start tag attrs bodyStart searched =
      (p.bodyStage start tag attrs bodyStart searched).keep os := by
  simp only [bodyStage, keep_closer, keep_buffer]
  split <;> rfl

theorem headStage_keep :
    (p.keep os).headStage start tag nameEnd scanned quote =
      (p.headStage start tag nameEnd scanned quote).keep os := by
  unfold headStage
  rw [keep_buffer]
  split
  · rfl
  · rfl
  · dsimp only
    split
    · rfl
    · split
      · rfl
      · exact bodyStage_keep p os ..

theorem nameStage_keep : (p.keep os).nameStage start = (p.nameStage start).keep os := by
  simp only [nameStage, keep_opener, keep_buffer]
  split
  · rfl
  · split
    · rfl
    · split
      · exact headStage_keep p os ..
      · rfl

/-- A pass does not look at what the tags before have left behind. -/
theorem pass_keep : (p.keep os).pass = p.pass.keep os := by
  cases hmode : p.mode with
  | prose =>
    rw [pass_of_prose hmode, pass_of_prose (p := p.keep os) hmode]
    simp only [keep_opener, keep_buffer, keep_cursor]
    split
    · rfl
    · exact nameStage_keep p os _
  | naming start =>
    simp only [pass, keep_mode, hmode]
    exact nameStage_keep p os start
  | head start tag nameEnd scanned quote =>
    simp only [pass, keep_mode, hmode]
    exact headStage_keep p os ..
  | body start tag attrs bodyStart searched =>
    simp only [pass, keep_mode, hmode]
    exact bodyStage_keep p os ..

end Keep

end Parser

/-- What was fed, with a parser that keeps what `os` leave behind. -/
def Fed.keep (os : List Outcome) (f : Fed) : Fed := { f with parser := f.parser.keep os }

theorem Fed.settle_keep (os : List Outcome) (f : Fed) : (f.keep os).settle = f.settle.keep os := by
  simp only [Fed.settle, Fed.keep, Parser.settle_keep]

theorem Fed.keep_keep (as bs : List Outcome) (f : Fed) :
    (f.keep as).keep bs = f.keep (as ++ bs) := by
  simp only [Fed.keep, Parser.keep_keep]

namespace Parser

theorem advance_keep (p : Parser) (os : List Outcome) :
    (p.keep os).advance = p.advance.keep os := by
  fun_induction advance p with
  | case1 p q hp =>
    have h := pass_keep p os
    rw [hp] at h
    exact advance_of_wait h
  | case2 p q f hp =>
    have h := pass_keep p os
    rw [hp] at h
    exact advance_of_stuck h
  | case3 p q o hp r ih =>
    have h := pass_keep p os
    rw [hp] at h
    rw [advance_of_again h, ih]
    rfl

/-! ## Feeding a piece -/

theorem settle_grow (p : Parser) (more : List Char) :
    (p.grow more).settle = p.settle.grow more := by
  by_cases h : p.mode = .prose
  · rw [settle_of_prose h, settle_of_prose (p := p.grow more) h]
  · rw [settle_of_pending h, settle_of_pending (p := p.grow more) h]
    rfl

/-- Parsers that differ in a cursor that does not count go on alike when text comes in. -/
theorem advance_grow_congr {p q : Parser} (h : p.settle = q.settle) (more : List Char) :
    (p.grow more).advance.settle = (q.grow more).advance.settle := by
  apply advance_settle
  rw [← pass_settle, settle_grow, h, ← settle_grow, pass_settle]

/-- A piece is fed by making passes over the grown text and keeping what they came to. -/
theorem feed_eq {p : Parser} (hp : p.finished = false) {chunk : List Char} (hc : chunk ≠ []) :
    p.feed chunk = (p.grow chunk).advance.keep (p.grow chunk).advance.outcomes := by
  cases chunk with
  | nil => exact absurd rfl hc
  | cons c cs =>
    unfold feed
    rw [if_neg (by simp [hp]), if_neg (by simp)]
    rfl

theorem feed_nil {p : Parser} (hp : p.finished = false) : p.feed [] = ⟨p, [], none⟩ := by
  simp [feed, hp]

/-- Before any text there is nothing to pass over. -/
theorem advance_ofMark (mark : String) : (ofMark mark).advance = ⟨ofMark mark, [], none⟩ := by
  apply advance_of_wait
  have hlen : 2 ≤ (ofMark mark).opener.length := by simp [opener]
  have hnone : findFrom (ofMark mark).opener (ofMark mark).buffer (ofMark mark).cursor = none := by
    simp [findFrom, ofMark, find, opener]
  rw [pass_of_prose rfl, hnone]
  have h0 : (ofMark mark).buffer.length + 1 - (ofMark mark).opener.length = 0 := by
    show 0 + 1 - (ofMark mark).opener.length = 0
    omega
  simp only [h0]
  rfl

/-- A whole text, empty or not, is fed by making passes over it. -/
theorem feed_ofMark (mark : String) (text : List Char) :
    (ofMark mark).feed text =
      ((ofMark mark).grow text).advance.keep ((ofMark mark).grow text).advance.outcomes := by
  by_cases h : text = []
  · subst h
    have h0 : (ofMark mark).grow [] = ofMark mark := rfl
    rw [feed_nil rfl, h0, advance_ofMark]
    simp only [Fed.keep, keep_nil]
  · exact feed_eq rfl h

/-- A parser that is fed keeps what the tags that close leave behind. -/
theorem feed_collected (p : Parser) (chunk : List Char) :
    let fed := p.feed chunk
    fed.parser.refusals = p.refusals ++ fed.outcomes.filterMap Outcome.refusal? ∧
      fed.parser.warnings = p.warnings ++ fed.outcomes.filterMap Outcome.warning? := by
  intro fed
  by_cases hp : p.finished = true
  · have hfed : fed = ⟨p, [], some .finished⟩ := if_pos hp
    rw [hfed]
    exact ⟨(List.append_nil _).symm, (List.append_nil _).symm⟩
  · have hp : p.finished = false := by simpa using hp
    by_cases hc : chunk = []
    · subst hc
      have hfed : fed = ⟨p, [], none⟩ := feed_nil hp
      rw [hfed]
      exact ⟨(List.append_nil _).symm, (List.append_nil _).symm⟩
    · obtain ⟨hrefusals, hwarnings⟩ := (p.grow chunk).advance_collected
      simp only [fed, feed_eq hp hc, Fed.keep, keep, hrefusals, hwarnings]
      exact ⟨rfl, rfl⟩

/-- The text of a parser that was fed is the text that was fed. -/
theorem stream_feed_ofMark (mark : String) (text : List Char) :
    ((ofMark mark).feed text).parser.stream = (mark, text, false) := by
  rw [feed_ofMark]
  exact advance_stream _

/-- That `p` has read `text` with `mark`, as far as it matters. -/
def HasRead (p : Parser) (mark : String) (text : List Char) : Prop :=
  p.settle = ((ofMark mark).feed text).parser.settle

theorem stream_settle (p : Parser) : p.settle.stream = p.stream := by
  simp only [settle]
  split <;> rfl

section Reading

variable {p : Parser} {mark : String} {text chunk : List Char}

theorem HasRead.stream (h : p.HasRead mark text) : p.stream = (mark, text, false) := by
  rw [← stream_settle, h, stream_settle, stream_feed_ofMark]

theorem HasRead.finished (h : p.HasRead mark text) : p.finished = false :=
  congrArg (fun s => s.2.2) h.stream

theorem HasRead.buffer (h : p.HasRead mark text) : p.buffer = text :=
  congrArg (fun s => s.2.1) h.stream

/-- **A piece that is fed to a parser which has read a text comes to what the grown text comes to
    beyond the text**, once the stopped parser is `settle`d. -/
theorem HasRead.feed (h : p.HasRead mark text) (hc : chunk ≠ []) :
    ((p.feed chunk).precede ((ofMark mark).feed text).outcomes).settle =
      ((ofMark mark).feed (text ++ chunk)).settle := by
  have hgrow := advance_grow ((ofMark_inBounds mark).grow text) chunk
  rw [grow_grow] at hgrow
  -- what the tags of the text have left behind is all that sets `p` apart from the passes' parser
  have hkeep : (p.grow chunk).advance.settle =
      ((((ofMark mark).grow text).advance.parser.grow chunk).advance.keep
        ((ofMark mark).grow text).advance.outcomes).settle := by
    rw [← advance_keep]
    exact advance_grow_congr (h.trans (by rw [feed_ofMark])) chunk
  rw [feed_eq h.finished hc, feed_ofMark, feed_ofMark]
  generalize ((ofMark mark).grow (text ++ chunk)).advance = whole at hgrow
  generalize (p.grow chunk).advance = piece at hkeep
  generalize ((ofMark mark).grow text).advance = before at hgrow hkeep
  generalize (before.parser.grow chunk).advance = behind at hgrow hkeep
  have hpo : piece.settle.outcomes = behind.outcomes := by rw [hkeep]; rfl
  have hwo : whole.settle.outcomes = before.outcomes ++ behind.outcomes := by rw [hgrow]; rfl
  -- both sides keep the outcomes of the text first and those of the piece behind them
  rw [Fed.settle_precede, Fed.settle_keep, Fed.settle_keep, hkeep, Fed.settle_keep, hgrow,
    show piece.outcomes = behind.outcomes from hpo,
    show whole.outcomes = before.outcomes ++ behind.outcomes from hwo, Fed.keep_keep]
  rfl

end Reading

end Parser

end StagedEdits
