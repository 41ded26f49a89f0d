import Mathlib.Data.List.Permutation
import StagedEdits.Proofs.Chunking
import StagedEdits.Proofs.ClosedTag

set_option autoImplicit false

/-! # Reading a text in pieces

A text may be handed over in pieces, some of them by themselves and some behind the whole text so
far. Whatever the cuts, the parser ends as it does when it gets the text at once, and the tags that
close come to the same in the same order. What callers get depends on the cuts in one case only: a
call that is stopped at a head whose attributes cannot be read gives back nothing, also nothing of
the tags that closed before in the text of that call.

Main statements: `Parser.takeAll_outcomes`, `Parser.takeAll_emitted_of_stuck` (what is lost at a
head that cannot be read), `Parser.pieces_read_as_whole`, `Parser.cut_saves_directive` (a text where
the cuts show). -/

namespace StagedEdits

/-! ## Pieces -/

/-- A piece of a text, as it is handed over to a `Parser`. -/
inductive Piece where
  /-- By itself. -/
  | alone (chunk : List Char)
  /-- Behind the whole text so far. -/
  | behind (chunk : List Char)

/-- What a piece adds to the text. -/
def Piece.text : Piece → List Char
  | .alone chunk => chunk
  | .behind chunk => chunk

/-- The text that is cut into `pieces`. -/
def joinPieces (pieces : List Piece) : List Char := pieces.flatMap Piece.text

theorem joinPieces_cons (piece : Piece) (rest : List Piece) :
    joinPieces (piece :: rest) = piece.text ++ joinPieces rest := rfl

/-- The directives that a call gives back: those among the outcomes of `f`, or none if it was
    stopped. -/
def Fed.emitted (f : Fed) : List Parsed :=
  match f.stopped with
  | none => f.outcomes.filterMap Outcome.directive?
  | some _ => []

theorem Fed.emitted_of_none {f : Fed} (h : f.stopped = none) :
    f.emitted = f.outcomes.filterMap Outcome.directive? := by
  rw [emitted, h]

theorem Fed.emitted_of_stopped {f : Fed} (h : f.stopped ≠ none) : f.emitted = [] := by
  obtain ⟨why, hw⟩ := Option.ne_none_iff_exists'.1 h
  rw [emitted, hw]

namespace Parser

/-- Hands a piece over to `p`. -/
def take (p : Parser) : Piece → Fed
  | .alone chunk => p.feed chunk
  | .behind chunk => p.sync (p.buffer ++ chunk)

/-- Hands pieces over to `p` one by one, whether or not a call is stopped: the parser behind them
    and what each call came to. -/
def takeAll (p : Parser) : List Piece → Parser × List Fed
  | [] => (p, [])
  | piece :: rest =>
    let behind := (p.take piece).parser.takeAll rest
    (behind.1, p.take piece :: behind.2)

/-- A whole text that starts with the text so far adds what is behind it. -/
theorem sync_append (p : Parser) (chunk : List Char) :
    p.sync (p.buffer ++ chunk) = p.feed chunk := by
  have h : p.buffer.isPrefixOf (p.buffer ++ chunk) = true :=
    List.isPrefixOf_iff_prefix.2 (List.prefix_append _ _)
  rw [sync, if_pos h, List.drop_left]

/-- It does not matter how a piece is handed over. -/
theorem take_eq_feed (p : Parser) (piece : Piece) : p.take piece = p.feed piece.text := by
  cases piece with
  | alone chunk => rfl
  | behind chunk => exact p.sync_append chunk

theorem takeAll_append (p : Parser) (lead rest : List Piece) :
    p.takeAll (lead ++ rest) =
      (((p.takeAll lead).1.takeAll rest).1,
        (p.takeAll lead).2 ++ ((p.takeAll lead).1.takeAll rest).2) := by
  induction lead generalizing p with
  | nil => rfl
  | cons piece lead ih =>
    simp only [List.cons_append, takeAll, ih]

/-! ## The parser behind the pieces -/

section Reading

variable {p : Parser} {mark : String} {text : List Char}

theorem hasRead_ofMark (mark : String) : (ofMark mark).HasRead mark [] := by
  rw [HasRead, feed_nil rfl]

/-- **After a piece the parser has read the grown text, and the tags that closed in the piece are
    those that close in the grown text and not before.** -/
theorem HasRead.take (h : p.HasRead mark text) (piece : Piece) :
    (p.take piece).parser.HasRead mark (text ++ piece.text) ∧
      ((ofMark mark).feed (text ++ piece.text)).outcomes =
        ((ofMark mark).feed text).outcomes ++ (p.take piece).outcomes := by
  rw [take_eq_feed]
  by_cases hc : piece.text = []
  · rw [hc, List.append_nil, feed_nil h.finished, List.append_nil]
    exact ⟨h, rfl⟩
  · have hfed := h.feed hc
    have hparser := congrArg (fun f : Fed => f.parser) hfed
    have hout := congrArg (fun f : Fed => f.outcomes) hfed
    exact ⟨hparser, hout.symm⟩

theorem HasRead.takeAll (h : p.HasRead mark text) (pieces : List Piece) :
    (p.takeAll pieces).1.HasRead mark (text ++ joinPieces pieces) ∧
      ((ofMark mark).feed (text ++ joinPieces pieces)).outcomes =
        ((ofMark mark).feed text).outcomes ++ (p.takeAll pieces).2.flatMap (·.outcomes) := by
  -- on the pieces; the text that was read grows by each of them
  induction pieces generalizing p text with
  | nil => simpa [Parser.takeAll, joinPieces] using h
  | cons piece rest ih =>
    obtain ⟨hread, hout⟩ := h.take piece
    obtain ⟨hread', hout'⟩ := ih hread
    rw [joinPieces_cons, ← List.append_assoc]
    refine ⟨hread', ?_⟩
    rw [hout', hout, List.append_assoc]
    rfl

end Reading

section Cuts

variable (mark : String) (pieces : List Piece)

theorem takeAll_hasRead : ((ofMark mark).takeAll pieces).1.HasRead mark (joinPieces pieces) :=
  ((hasRead_ofMark mark).takeAll pieces).1

/-- **The tags that close come to the same however the text is cut** into `pieces`. -/
theorem takeAll_outcomes :
    ((ofMark mark).takeAll pieces).2.flatMap (·.outcomes) =
      ((ofMark mark).feed (joinPieces pieces)).outcomes := by
  have h := ((hasRead_ofMark mark).takeAll pieces).2
  rw [List.nil_append, feed_nil rfl, List.nil_append] at h
  exact h.symm

end Cuts

/-! ## What does not depend on the cursor -/

section Settled

variable {p q : Parser}

theorem settle_buffer (p : Parser) : p.settle.buffer = p.buffer := by
  simp only [settle]
  split <;> rfl

theorem settle_hasPending (p : Parser) : p.settle.hasPending = p.hasPending := by
  simp only [settle]
  split <;> rfl

theorem settle_refusals (p : Parser) : p.settle.refusals = p.refusals := by
  simp only [settle]
  split <;> rfl

theorem settle_warnings (p : Parser) : p.settle.warnings = p.warnings := by
  simp only [settle]
  split <;> rfl

/-- A tag that is still open is told of alike wherever the cursor stands. -/
theorem unterminated?_cursor {p : Parser} (h : p.mode ≠ .prose) (n : Nat) :
    (p.withCursor n).unterminated? = p.unterminated? := by
  obtain ⟨mark, buffer, cursor, mode, finished, refusals, warnings⟩ := p
  cases mode with
  | prose => exact absurd rfl h
  | naming start => rfl
  | head => rfl
  | body => rfl

/-- The end of the stream is announced alike with and without a cursor that does not count. -/
theorem settle_finish_warnings (p : Parser) : p.settle.finish.warnings = p.finish.warnings := by
  by_cases h : p.mode = .prose
  · rw [settle_of_prose h]
  · rw [settle_of_pending h]
    unfold finish
    rw [unterminated?_cursor h]
    by_cases hf : p.finished = true
    · rw [if_pos hf, if_pos (show (p.withCursor 0).finished = true from hf)]
      rfl
    · rw [if_neg hf, if_neg (show ¬(p.withCursor 0).finished = true from hf)]
      rfl

end Settled

/-! ## Heads that cannot be read -/

/-- **A parser that was stopped at a head is stopped there again, by the same fault `f`, whatever
    text comes, and no tag closes any more.** -/
theorem advance_grow_stuck {p : Parser} {f : FeedFault} (h : p.InBounds)
    (hs : p.advance.stopped = some f) (more : List Char) :
    (p.advance.parser.grow more).advance = ⟨p.advance.parser.grow more, [], some f⟩ := by
  -- the last pass is the one that is stuck, and it is over the grown text, too
  fun_induction advance p with
  | case1 p q hp => cases hs
  | case2 p q fault hp =>
    have hg := pass_grows more h
    rw [hp] at hg
    generalize (p.grow more).pass = b at hg
    cases hg with
    | stuck q fault hq =>
      rw [advance_of_stuck hq]
      exact congrArg (Fed.mk _ _) hs
  | case3 p q o hp r ih =>
    have hq := pass_inBounds h
    rw [hp] at hq
    exact ih hq hs

section Stopped

variable {p : Parser} {mark : String} {text : List Char}

/-- A call that hands over some text is stopped where the whole text is. -/
theorem HasRead.take_stopped (h : p.HasRead mark text) {piece : Piece} (hc : piece.text ≠ []) :
    (p.take piece).stopped = ((ofMark mark).feed (text ++ piece.text)).stopped := by
  have hfed := congrArg (fun f : Fed => f.stopped) (h.feed hc)
  rw [take_eq_feed]
  exact hfed

/-- A call that hands over nothing is not stopped. -/
theorem HasRead.take_nil (h : p.HasRead mark text) {piece : Piece} (hc : piece.text = []) :
    p.take piece = ⟨p, [], none⟩ := by
  rw [take_eq_feed, hc, feed_nil h.finished]

/-- Behind a text that is read to its end every call is stopped where the whole text is. -/
theorem HasRead.take_stopped_of_none (h : p.HasRead mark text)
    (hs : ((ofMark mark).feed text).stopped = none) (piece : Piece) :
    (p.take piece).stopped = ((ofMark mark).feed (text ++ piece.text)).stopped := by
  by_cases hc : piece.text = []
  · rw [h.take_nil hc, hc, List.append_nil, hs]
  · exact h.take_stopped hc

/-- A text that starts with one that stops the parser stops it too, and no tag closes behind. -/
theorem feed_append_of_stopped (h : ((ofMark mark).feed text).stopped ≠ none) (more : List Char) :
    ((ofMark mark).feed (text ++ more)).stopped ≠ none ∧
      ((ofMark mark).feed (text ++ more)).outcomes = ((ofMark mark).feed text).outcomes := by
  obtain ⟨f, hf⟩ := Option.ne_none_iff_exists'.1 h
  rw [feed_ofMark] at hf
  have hin := (ofMark_inBounds mark).grow text
  have hgrow := advance_grow hin more
  rw [advance_grow_stuck hin hf, grow_grow] at hgrow
  have hs := congrArg (fun r : Fed => r.stopped) hgrow
  have ho := congrArg (fun r : Fed => r.outcomes) hgrow
  simp only [Fed.precede, List.append_nil] at ho
  rw [feed_ofMark, feed_ofMark]
  refine ⟨?_, ho⟩
  show ((ofMark mark).grow (text ++ more)).advance.stopped ≠ none
  rw [show ((ofMark mark).grow (text ++ more)).advance.stopped = some f from hs]
  exact Option.some_ne_none f

/-- Every beginning of a text that is read to its end is read to its end. -/
theorem stopped_eq_none_of_append {more : List Char}
    (h : ((ofMark mark).feed (text ++ more)).stopped = none) :
    ((ofMark mark).feed text).stopped = none := by
  by_cases hs : ((ofMark mark).feed text).stopped = none
  · exact hs
  · exact absurd h (feed_append_of_stopped hs more).1

/-- No call is stopped over a text that is read to its end. -/
theorem HasRead.takeAll_emitted (h : p.HasRead mark text) (pieces : List Piece)
    (hs : ((ofMark mark).feed (text ++ joinPieces pieces)).stopped = none) :
    (p.takeAll pieces).2.flatMap Fed.emitted =
      ((p.takeAll pieces).2.flatMap (·.outcomes)).filterMap Outcome.directive? := by
  induction pieces generalizing p text with
  | nil => rfl
  | cons piece rest ih =>
    rw [joinPieces_cons, ← List.append_assoc] at hs
    have hgrown := stopped_eq_none_of_append hs
    have hnone : (p.take piece).stopped = none := by
      rw [h.take_stopped_of_none (stopped_eq_none_of_append hgrown), hgrown]
    simp only [Parser.takeAll, List.flatMap_cons, List.filterMap_append, ih (h.take piece).1 hs,
      Fed.emitted_of_none hnone]

/-- Behind a head that stops the parser no call gives anything back. -/
theorem HasRead.takeAll_emitted_of_stuck (h : p.HasRead mark text) (pieces : List Piece)
    (hs : ((ofMark mark).feed text).stopped ≠ none) :
    (p.takeAll pieces).2.flatMap Fed.emitted = [] := by
  induction pieces generalizing p text with
  | nil => rfl
  | cons piece rest ih =>
    have hnone : (p.take piece).emitted = [] := by
      by_cases hc : piece.text = []
      · rw [h.take_nil hc]
        rfl
      · refine Fed.emitted_of_stopped ?_
        rw [h.take_stopped hc]
        exact (feed_append_of_stopped hs piece.text).1
    simp only [Parser.takeAll, List.flatMap_cons, hnone, List.nil_append]
    exact ih (h.take piece).1 (feed_append_of_stopped hs piece.text).1

end Stopped

/-- **What is lost at a head that cannot be read.** The calls give back the tags that close in the
    pieces `lead` before the one that stops the parser; those that close in that `piece`, before the
    head, are given back by no call. -/
theorem takeAll_emitted_of_stuck (mark : String) (lead rest : List Piece) (piece : Piece)
    (hlead : ((ofMark mark).feed (joinPieces lead)).stopped = none)
    (hstop : ((ofMark mark).feed (joinPieces lead ++ piece.text)).stopped ≠ none) :
    ((ofMark mark).takeAll (lead ++ piece :: rest)).2.flatMap Fed.emitted =
      ((ofMark mark).feed (joinPieces lead)).emitted := by
  have hread := takeAll_hasRead mark lead
  have hbefore := (hasRead_ofMark mark).takeAll_emitted lead hlead
  rw [takeAll_outcomes] at hbefore
  have hne : piece.text ≠ [] := fun hc => hstop (by rw [hc, List.append_nil, hlead])
  have hpiece : (((ofMark mark).takeAll lead).1.take piece).emitted = [] :=
    Fed.emitted_of_stopped (by rwa [hread.take_stopped hne])
  have hbehind := (hread.take piece).1.takeAll_emitted_of_stuck rest hstop
  rw [takeAll_append, List.flatMap_append, hbefore]
  simp only [Parser.takeAll, List.flatMap_cons, hpiece, hbehind, List.append_nil,
    Fed.emitted_of_none hlead]

/-- Calls over a text that could be read so far are all made to their end just if the whole text can
    be read. -/
theorem HasRead.takeAll_stopped {p : Parser} {mark : String} {text : List Char}
    (h : p.HasRead mark text) (hs : ((ofMark mark).feed text).stopped = none) (pieces : List Piece) :
    (∀ fed ∈ (p.takeAll pieces).2, fed.stopped = none) ↔
      ((ofMark mark).feed (text ++ joinPieces pieces)).stopped = none := by
  induction pieces generalizing p text with
  | nil => simp [Parser.takeAll, joinPieces, hs]
  | cons piece rest ih =>
    have hpiece := h.take_stopped_of_none hs piece
    rw [joinPieces_cons, ← List.append_assoc]
    simp only [Parser.takeAll, List.forall_mem_cons, hpiece]
    by_cases hnone : ((ofMark mark).feed (text ++ piece.text)).stopped = none
    · rw [← ih (h.take piece).1 hnone]
      exact and_iff_right hnone
    · -- a text that stops the parser at this piece stops it for good
      have hrest := (feed_append_of_stopped hnone (joinPieces rest)).1
      exact ⟨fun ⟨hn, _⟩ => absurd hn hnone, fun hn => absurd hn hrest⟩

/-! ## A tag that cannot be read behind one that closes -/

/-- A delete tag that closes itself, with `value` as the value of its path as it is written. -/
def deleteTag (value : List Char) : List Char :=
  ['<', 'p', 'l', '-', 'd', 'e', 'l', 'e', 't', 'e', ' ', 'p', 'a', 't', 'h', '=', '"'] ++
    (value ++ ['"', '/', '>'])

/-- A decimal reference of so many `digits`, all of them zeros. -/
def zeroReference (digits : Nat) : List Char := '&' :: '#' :: List.replicate digits '0'

/-- A parser behind a tag that has closed. -/
def behindTag : Parser := { ofMark "pl" with buffer := deleteTag ['a'], cursor := 21 }

theorem feed_deleteTag :
    (ofMark "pl").feed (deleteTag ['a']) =
      ⟨behindTag, [.directive .delete ⟨.delete "a", 0, 21⟩], none⟩ := by
  have hpass : ((ofMark "pl").grow (deleteTag ['a'])).pass =
      .again behindTag (some (.directive .delete ⟨.delete "a", 0, 21⟩)) := by
    cbv
  have hwait : behindTag.pass = .wait behindTag := by
    cbv
  rw [feed_ofMark, advance_of_again hpass, advance_of_wait hwait]
  rfl

/-- The tag as a text of its own. -/
theorem feed_deleteText :
    (ofMark "pl").feed (String.ofList (deleteTag ['a'])).toList =
      ⟨behindTag, [.directive .delete ⟨.delete "a", 0, 21⟩], none⟩ := by
  rw [String.toList_ofList, feed_deleteTag]

theorem expandRefs_zeroReference {digits : Nat} (h : maxDigits < digits) :
    expandRefs (zeroReference digits) = .error (.tooLong digits) := by
  have hrun : (List.replicate digits '0').takeWhile isAsciiDigit = List.replicate digits '0' := by
    rw [List.takeWhile_replicate, if_pos (by decide)]
  have hlong := @expandRefs_of_long (List.replicate digits '0')
  rw [hrun, List.length_replicate] at hlong
  exact hlong h

theorem quote_notMem_zeroReference (digits : Nat) : '"' ∉ zeroReference digits := by
  simp only [zeroReference, List.mem_cons, List.mem_replicate, not_or, not_and]
  exact ⟨by decide, by decide, fun _ => by decide⟩

/-- What stands between the name of a delete tag that closes itself and the `>`. -/
def deleteHead (value : List Char) : List Char :=
  [' ', 'p', 'a', 't', 'h', '='] ++ '"' :: (value ++ '"' :: ['/'])

theorem deleteTag_eq (value : List Char) :
    deleteTag value = behindTag.opener ++
      (TagName.delete.text.toList ++ (deleteHead value ++ '>' :: [])) := by
  have hlead : ['<', 'p', 'l', '-', 'd', 'e', 'l', 'e', 't', 'e'] =
      behindTag.opener ++ TagName.delete.text.toList := by decide
  rw [← List.append_assoc, ← hlead, deleteTag, deleteHead]
  simp only [List.append_assoc, List.cons_append, List.nil_append]

theorem deleteHead_text {value : List Char} (hquote : '"' ∉ value) :
    StandsApart (deleteHead value) ∧ HeadText (deleteHead value) := by
  refine ⟨?_, ?_⟩
  · rintro c ⟨⟩
    decide
  · have hname : HeadText [' ', 'p', 'a', 't', 'h', '='] :=
      .of_plain (List.all_eq_true.1 (by decide))
    have hslash : HeadText ['/'] := .of_plain (List.all_eq_true.1 (by decide))
    exact hname.append (.quoted (.inl rfl) hquote hslash)

/-- A path that cannot be read spoils the head of its tag. -/
theorem headAttributes_deleteHead {value : List Char} {f : NumberFault} (hquote : '"' ∉ value)
    (href : expandRefs value = .error f) : headAttributes (deleteHead value) = .error f := by
  have hend : trimEnd (deleteHead value) =
      ([' ', 'p', 'a', 't', 'h', '=', '"'] ++ value ++ ['"']) ++ ['/'] := by
    rw [trimEnd, ← dropEndWhile_concat_of_neg (p := isBlank) (x := '/') _ (by decide), deleteHead]
    simp only [List.append_assoc, List.cons_append, List.nil_append]
  rw [headAttributes, hend, dropEndWhile_concat_of_pos _ (by decide),
    dropEndWhile_concat_of_neg _ (by decide)]
  have hread : readAttribute ('p' :: (['a', 't', 'h'] ++ '=' :: '"' :: (value ++ '"' :: []))) =
      some (['p', 'a', 't', 'h'], value, []) :=
    readAttribute_of_quoted (by decide) (List.all_eq_true.1 (by decide)) (by decide) hquote
  have hparse := parseAttributes_of_unreadable hread href
  have hskip : parseAttributes (' ' :: 'p' :: (['a', 't', 'h'] ++ '=' :: '"' ::
      (value ++ '"' :: []))) = _ :=
    parseAttributes_cons (by rw [readAttribute, if_neg (by decide)])
  rw [← hskip] at hparse
  simpa only [List.append_assoc, List.cons_append, List.nil_append] using hparse

/-- A path that cannot be read stops the pass that comes to its tag. -/
theorem pass_deleteTag {p : Parser} {value : List Char} {f : NumberFault} (hmark : p.mark = "pl")
    (hmode : p.mode = .prose) (htext : p.buffer.drop p.cursor = deleteTag value)
    (hquote : '"' ∉ value) (href : expandRefs value = .error f) : ∃ q, p.pass = .stuck q f := by
  have hopener : behindTag.opener = p.opener := by
    rw [opener, opener, hmark]
    rfl
  have hdrop : p.buffer.drop p.cursor =
      p.opener ++ (TagName.delete.text.toList ++ (deleteHead value ++ '>' :: [])) := by
    rw [htext, deleteTag_eq, hopener]
  obtain ⟨hapart, hhead⟩ := deleteHead_text hquote
  obtain ⟨hstage, -⟩ := nameStage_of_head hdrop hapart hhead
  simp only [headAttributes_deleteHead hquote href] at hstage
  rw [pass_at_opener hmode (hdrop ▸ List.prefix_append _ _), hstage]
  exact ⟨_, rfl⟩

/-- A text that starts with a tag whose path cannot be read stops the parser. -/
theorem feed_unreadable {value : List Char} {f : NumberFault} (hquote : '"' ∉ value)
    (href : expandRefs value = .error f) :
    ((ofMark "pl").feed (deleteTag value)).stopped = some (.unreadable f) := by
  obtain ⟨q, hq⟩ := pass_deleteTag (p := (ofMark "pl").grow (deleteTag value)) rfl rfl rfl hquote
    href
  rw [feed_ofMark, advance_of_stuck hq]
  rfl

/-- A closed tag and one behind it that cannot be read, at once. -/
theorem feed_bothTags :
    let both := (ofMark "pl").feed (deleteTag ['a'] ++ deleteTag (zeroReference (maxDigits + 1)))
    both.stopped ≠ none ∧ both.outcomes = [.directive .delete ⟨.delete "a", 0, 21⟩] := by
  intro both
  let unreadable : Piece := .alone (deleteTag (zeroReference (maxDigits + 1)))
  have hdrop : (behindTag.grow unreadable.text).buffer.drop 21 = unreadable.text :=
    List.drop_left' (show (deleteTag ['a']).length = 21 by decide)
  obtain ⟨q, hq⟩ := pass_deleteTag (p := behindTag.grow unreadable.text) rfl rfl hdrop
    (quote_notMem_zeroReference (maxDigits + 1))
    (expandRefs_zeroReference (Nat.lt_succ_self maxDigits))
  have hread : behindTag.HasRead "pl" (deleteTag ['a']) := by rw [HasRead, feed_deleteTag]
  have hne : unreadable.text ≠ [] := List.cons_ne_nil _ _
  -- the call over both tags is stopped where the call over the second one alone is
  have hpiece : behindTag.take unreadable =
      Fed.keep [] ⟨q, [], some (.unreadable (.tooLong (maxDigits + 1)))⟩ := by
    rw [take_eq_feed, feed_eq hread.finished hne, advance_of_stuck hq]
  have hstop := hread.take_stopped hne
  have hout := (hread.take unreadable).2
  rw [hpiece] at hstop hout
  rw [feed_deleteTag] at hout
  exact ⟨fun h => Option.some_ne_none _ (hstop.trans h), hout⟩

/-! ## Pieces against the whole -/

/-- That `p` and `q` answer alike: they hold the same text, have both a tag open or both none, have
    collected the same, and say the same at the end of the stream. -/
structure Alike (p q : Parser) : Prop where
  /-- The text so far. -/
  buffer : p.buffer = q.buffer
  /-- Whether a tag is open. -/
  hasPending : p.hasPending = q.hasPending
  /-- The refused paths. -/
  refusals : p.refusals = q.refusals
  /-- The warnings. -/
  warnings : p.warnings = q.warnings
  /-- The warnings at the end of the stream. -/
  finish : p.finish.warnings = q.finish.warnings

theorem Alike.of_settle {p q : Parser} (h : p.settle = q.settle) : p.Alike q where
  buffer := by rw [← settle_buffer p, h, settle_buffer q]
  hasPending := by rw [← settle_hasPending p, h, settle_hasPending q]
  refusals := by rw [← settle_refusals p, h, settle_refusals q]
  warnings := by rw [← settle_warnings p, h, settle_warnings q]
  finish := by rw [← settle_finish_warnings p, h, settle_finish_warnings q]

/-- What `p` makes of calls that bring nothing new, do not fit or come too late. -/
structure Guarded (p : Parser) : Prop where
  /-- The text so far brings nothing. -/
  again : p.finished = false → p.sync p.buffer = ⟨p, [], none⟩
  /-- A text that does not start with the text so far is refused. -/
  foreign : ∀ text, ¬ p.buffer <+: text → p.sync text = ⟨p, [], some .notAnExtension⟩
  /-- Behind the end of the stream every piece is refused. -/
  feed_finish : ∀ chunk, p.finish.feed chunk = ⟨p.finish, [], some .finished⟩
  /-- Behind the end of the stream every whole text is refused. -/
  sync_finish : ∀ text, ∃ why, p.finish.sync text = ⟨p.finish, [], some why⟩
  /-- The stream ends once. -/
  finish_finish : p.finish.finish = p.finish

theorem finish_finished (p : Parser) : p.finish.finished = true := by
  unfold finish
  split
  · assumption
  · rfl

theorem guarded (p : Parser) : p.Guarded where
  again hp := by
    have h := p.sync_append []
    rwa [List.append_nil, feed_nil hp] at h
  foreign text h := by
    rw [sync, if_neg (by simpa using h)]
  feed_finish chunk := by
    rw [feed, if_pos p.finish_finished]
  sync_finish text := by
    unfold sync
    split
    · exact ⟨.finished, by rw [feed, if_pos p.finish_finished]⟩
    · exact ⟨.notAnExtension, rfl⟩
  finish_finish := by
    rw [finish, if_pos p.finish_finished]

/-- **A text that is handed over in `pieces` is read as it is at once.** The tags that close come to
    the same in the same order and the parser is `Alike`: it answers as one that got the `whole`
    text. The calls give back the same directives just if the whole text can be read, or they give
    back none; if it cannot, they give back those that close before the `piece` in which reading
    stops. -/
theorem pieces_read_as_whole (fallback : String) (asked : Option String) (pieces : List Piece) :
    let fresh := new fallback asked
    let run := fresh.takeAll pieces
    let whole := fresh.feed (joinPieces pieces)
    run.2.flatMap (·.outcomes) = whole.outcomes ∧
      run.1.Alike whole.parser ∧
      ((∀ fed ∈ run.2, fed.stopped = none) ↔ whole.stopped = none) ∧
      (run.2.flatMap Fed.emitted = whole.emitted ↔
        whole.stopped = none ∨ run.2.flatMap Fed.emitted = []) ∧
      (∀ lead piece rest, pieces = lead ++ piece :: rest →
        (fresh.feed (joinPieces lead)).stopped = none →
        (fresh.feed (joinPieces lead ++ piece.text)).stopped ≠ none →
        run.2.flatMap Fed.emitted = (fresh.feed (joinPieces lead)).emitted) ∧
      run.1.buffer = joinPieces pieces ∧ run.1.finished = false ∧ ∀ p : Parser, p.Guarded := by
  intro fresh run whole
  obtain ⟨mark, hfresh⟩ : ∃ mark, fresh = ofMark mark := ⟨_, rfl⟩
  subst run whole
  rw [hfresh]
  set run := (ofMark mark).takeAll pieces
  set whole := (ofMark mark).feed (joinPieces pieces)
  have hread : run.1.HasRead mark (joinPieces pieces) := takeAll_hasRead mark pieces
  have hout : run.2.flatMap (·.outcomes) = whole.outcomes := takeAll_outcomes mark pieces
  have hstopped : (∀ fed ∈ run.2, fed.stopped = none) ↔ whole.stopped = none :=
    (hasRead_ofMark mark).takeAll_stopped (by rw [feed_nil rfl]) pieces
  refine ⟨hout, .of_settle hread, hstopped, ⟨fun h => ?_, fun h => ?_⟩, ?_, hread.buffer,
    hread.finished, guarded⟩
  · by_cases hs : whole.stopped = none
    · exact .inl hs
    · exact .inr (h.trans (Fed.emitted_of_stopped hs))
  · by_cases hs : whole.stopped = none
    · have hemitted := (hasRead_ofMark mark).takeAll_emitted pieces hs
      rw [Fed.emitted_of_none hs, ← hout]
      exact hemitted
    · rw [h.resolve_left hs, Fed.emitted_of_stopped hs]
  · rintro lead piece rest hcut hlead hstop
    show ((ofMark mark).takeAll pieces).2.flatMap Fed.emitted = _
    rw [hcut]
    exact takeAll_emitted_of_stuck mark lead rest piece hlead hstop

/-- **A piece of its own saves a directive that is lost in the whole text.** -/
theorem cut_saves_directive :
    let closed := deleteTag ['a']
    let unreadable := deleteTag (zeroReference (maxDigits + 1))
    let run := (new "pl" none).takeAll [.alone closed, .alone unreadable]
    let whole := (new "pl" none).feed (closed ++ unreadable)
    run.2.flatMap Fed.emitted = [⟨.delete "a", 0, 21⟩] ∧ whole.emitted = [] ∧
      run.2.flatMap Fed.emitted ≠ whole.emitted := by
  intro closed unreadable run whole
  have hstop : whole.stopped ≠ none := feed_bothTags.1
  have hrun : run.2.flatMap Fed.emitted = [⟨.delete "a", 0, 21⟩] := by
    have hclosed : joinPieces [.alone closed] = closed := List.append_nil closed
    have h := takeAll_emitted_of_stuck "pl" [.alone closed] [] (.alone unreadable)
    rw [hclosed, feed_deleteTag] at h
    exact h rfl hstop
  have hwhole : whole.emitted = [] := Fed.emitted_of_stopped hstop
  exact ⟨hrun, hwhole, by rw [hrun, hwhole]; exact List.cons_ne_nil _ _⟩

end Parser

end StagedEdits
