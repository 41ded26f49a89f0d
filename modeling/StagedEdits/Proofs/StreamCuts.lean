import Mathlib.Data.List.Forall2
import StagedEdits.Proofs.Pieces
import StagedEdits.Proofs.TurnOutcome

set_option autoImplicit false

/-! # How a stream is cut

The network cuts the stream of the agent into chunks, and a turn applies each chunk as a batch. The
directives that close do not depend on the cuts, but a batch is applied in the order of its classes,
so the borders count for directives that clash and come in the other order. Turns over two cuts of
the same texts end alike if the cuts agree on which of those are in one chunk.

Main definitions: `directivesOf`, `Renames`, `Overlay.Same`. Main statements:
`Parser.batches_flatten` (cuts close the same directives), `Turn.cuts_end_alike`,
`Turn.border_decides` (a border that counts). -/

namespace StagedEdits

/-- The directives of the tags of `mark` that `text` closes. -/
def directivesOf (mark text : String) : List Directive :=
  (((Parser.ofMark mark).feed text.toList).outcomes.filterMap Outcome.directive?).map (·.directive)

/-- That a text of a turn, as `cuts` cut them, renames `source` to `target`. -/
def Renames (mark : String) (cuts : List (List String)) (source target : String) : Prop :=
  ∃ texts ∈ cuts, .rename source target ∈ directivesOf mark (String.join texts)

/-- That `o` and `o'` hold the same. -/
structure Overlay.Same (o o' : Overlay) : Prop where
  writes : ∀ path, o.writes.get? path = o'.writes.get? path
  deletes : o.deletes = o'.deletes
  renames : ∀ path, o.renames.get? path = o'.renames.get? path
  closed : o.closed = o'.closed

theorem Overlay.Same.of_shape {o o' : Overlay} (h : o.shape = o'.shape) : o.Same o' where
  writes := congrFun (congrArg Shape.writes h)
  deletes := congrArg Shape.deletes h
  renames path := Option.ext fun target =>
    iff_of_eq (congrFun (congrFun (congrArg Shape.moved h) path) target)
  closed := congrArg Shape.closed h

/-! ## Cuts of a text -/

namespace Parser

/-- The chunks `texts` of a stream, as pieces of a text. -/
def piecesOf (texts : List String) : List Piece := texts.map fun text => .alone text.toList

theorem joinPieces_piecesOf (texts : List String) :
    joinPieces (piecesOf texts) = (String.join texts).toList := by
  rw [String.toList_join, joinPieces, piecesOf, List.flatMap_map]
  rfl

/-- Refusals that were taken count for nothing in the text that comes. -/
theorem feed_keep {p : Parser} {os : List Outcome} (hos : os.filterMap Outcome.warning? = [])
    (chunk : List Char) :
    ((p.keep os).feed chunk).outcomes = (p.feed chunk).outcomes ∧
      ((p.keep os).feed chunk).stopped = (p.feed chunk).stopped ∧
      ((p.keep os).feed chunk).parser.drain.1 = (p.feed chunk).parser.drain.1 := by
  have hdrain (q : Parser) : (q.keep os).drain.1 = q.drain.1 := by
    simp only [drain, keep, hos, List.append_nil]
  by_cases hp : p.finished = true
  · have hk : (p.keep os).finished = true := hp
    rw [feed, if_pos hk, feed, if_pos hp]
    exact ⟨rfl, rfl, hdrain p⟩
  · have hp' : p.finished = false := by simpa using hp
    have hk : (p.keep os).finished = false := hp'
    by_cases hc : chunk = []
    · rw [hc, feed_nil hk, feed_nil hp']
      exact ⟨rfl, rfl, hdrain p⟩
    · rw [feed_eq hk hc, feed_eq hp' hc,
        show (p.keep os).grow chunk = (p.grow chunk).keep os from rfl, advance_keep]
      refine ⟨rfl, rfl, ?_⟩
      simp only [Fed.keep, drain, keep, hos, List.append_nil]

theorem feed_drain (p : Parser) (chunk : List Char) :
    (p.drain.1.feed chunk).outcomes = (p.feed chunk).outcomes ∧
      (p.drain.1.feed chunk).stopped = (p.feed chunk).stopped ∧
      (p.drain.1.feed chunk).parser.drain.1 = (p.feed chunk).parser.drain.1 := by
  let os : List Outcome := p.refusals.map (.refused .delete 0 0)
  have hwarnings : os.filterMap Outcome.warning? = [] := by
    rw [List.filterMap_map]
    exact List.filterMap_eq_nil_iff.2 fun _ _ => rfl
  have hrefusals : os.filterMap Outcome.refusal? = p.refusals := by
    rw [List.filterMap_map]
    exact List.filterMap_some
  have hp : p.drain.1.keep os = p := by
    simp only [keep, drain, hwarnings, hrefusals, List.append_nil, List.nil_append]
  obtain ⟨hout, hstopped, hparser⟩ := feed_keep (p := p.drain.1) hwarnings chunk
  rw [hp] at hout hstopped hparser
  exact ⟨hout.symm, hstopped.symm, hparser.symm⟩

/-- A stream closes the directives of its pieces. -/
theorem batches_drain (p : Parser) (texts : List String) :
    p.drain.1.batches texts = (p.takeAll (piecesOf texts)).2.map fun fed =>
      (fed.outcomes.filterMap Outcome.directive?).map (·.directive) := by
  induction texts generalizing p with
  | nil => rfl
  | cons text texts ih =>
    obtain ⟨hout, -, hparser⟩ := p.feed_drain text.toList
    rw [batches, hout, hparser, ih]
    rfl

theorem reads_drain (p : Parser) (texts : List String) :
    p.drain.1.Reads texts ↔ ∀ fed ∈ (p.takeAll (piecesOf texts)).2, fed.stopped = none := by
  induction texts generalizing p with
  | nil => exact ⟨fun _ => nofun, fun _ => trivial⟩
  | cons text texts ih =>
    obtain ⟨-, hstopped, hparser⟩ := p.feed_drain text.toList
    rw [Reads, hstopped, hparser, ih]
    show _ ↔ ∀ fed ∈ p.take (.alone text.toList) ::
      ((p.feed text.toList).parser.takeAll (piecesOf texts)).2, fed.stopped = none
    rw [List.forall_mem_cons]
    rfl

/-- **However a text is cut into chunks, they close its directives**: the batches of `texts`,
    joined, are `directivesOf` the joined text. -/
theorem batches_flatten (mark : String) (texts : List String) :
    ((ofMark mark).batches texts).flatten = directivesOf mark (String.join texts) := by
  have hdrain := (ofMark mark).batches_drain texts
  have hout := takeAll_outcomes mark (piecesOf texts)
  rw [joinPieces_piecesOf] at hout
  rw [show (ofMark mark).batches texts = _ from hdrain, directivesOf, ← hout, List.filterMap_flatMap,
    List.map_flatMap, List.flatMap_def]

/-- A stream that can be read is read however it is cut. -/
theorem reads_of_join {mark : String} {texts : List String}
    (h : ((ofMark mark).feed (String.join texts).toList).stopped = none) :
    (ofMark mark).Reads texts := by
  refine ((ofMark mark).reads_drain texts).2 ?_
  refine ((hasRead_ofMark mark).takeAll_stopped (by rw [feed_nil rfl]) (piecesOf texts)).2 ?_
  rw [List.nil_append, joinPieces_piecesOf]
  exact h

end Parser

/-! ## Turns over two cuts -/

theorem Shape.MovedAlong.foldl {base : BaseTree} {r : String → String → Prop} {s : Shape}
    (hs : s.MovedAlong r) {ds : List Directive}
    (hds : ∀ source target, .rename source target ∈ ds → r source target) :
    (ds.foldl (Shape.apply base) s).MovedAlong r := by
  induction ds generalizing s with
  | nil => exact hs
  | cons d ds ih =>
    refine ih (hs.apply fun source target he => ?_) fun source target h => ?_
    · exact hds source target (he ▸ List.mem_cons_self)
    · exact hds source target (List.mem_cons_of_mem d h)

/-- A check that finds nothing ends a turn. -/
theorem Upshot.ofTurn_of_no_problems {base : BaseTree} {config : TurnConfig}
    {verdicts : List Verdict} {batches : Nat → List (List Directive)} {repairs n m : Nat}
    {s : Shape} (h : (config.policy.runFrom "" (Rehearsal.answerOf verdicts)
      (config.policy.maxRetries + 1).toNat 0 m "" []).outcome = .ok []) :
    ofTurn base config verdicts batches repairs n m s =
      ⟨.clean, ((batches n).flatMap Applier.batchOrder).foldl (Shape.apply base) s⟩ := by
  cases repairs <;> rw [ofTurn, h] <;> rfl

/-- Turns over batches that come to the same end alike. -/
theorem Upshot.ofTurn_congr {base : BaseTree} {config : TurnConfig} {verdicts : List Verdict}
    {batches batches' : Nat → List (List Directive)} {G : Shape → Prop}
    (hsame : ∀ k s, G s → ((batches k).flatMap Applier.batchOrder).foldl (Shape.apply base) s =
      ((batches' k).flatMap Applier.batchOrder).foldl (Shape.apply base) s)
    (hgood : ∀ k s, G s → G (((batches k).flatMap Applier.batchOrder).foldl (Shape.apply base) s))
    (repairs n m : Nat) {s : Shape} (hs : G s) :
    ofTurn base config verdicts batches repairs n m s =
      ofTurn base config verdicts batches' repairs n m s := by
  induction repairs generalizing n m s with
  | zero => rw [ofTurn, ofTurn, hsame n s hs]
  | succ repairs ih =>
    rw [ofTurn, ofTurn, hsame n s hs, ih]
    rw [← hsame n s hs]
    exact hgood n s hs

namespace Rehearsal

/-- A stream plays one of the texts, the last one again and again. -/
theorem textsOf_eq (cuts : List (List String)) (n : Nat) :
    textsOf cuts n = (cuts[min n (cuts.length - 1)]?).getD [] := by
  unfold textsOf repeatLast
  by_cases hn : n < cuts.length
  · rw [Nat.min_eq_left (by omega), List.getElem?_eq_getElem hn]
    rfl
  · rw [Nat.min_eq_right (by omega), List.getElem?_eq_none (by omega), List.getLast?_eq_getElem?]
    rfl

theorem textsOf_mem (cuts : List (List String)) (n : Nat) :
    textsOf cuts n ∈ cuts ∨ textsOf cuts n = [] := by
  rw [textsOf_eq]
  cases h : cuts[min n (cuts.length - 1)]? with
  | none => exact .inr rfl
  | some texts => exact .inl (List.mem_of_getElem? h)

theorem textsOf_forall₂ {R : List String → List String → Prop} {cuts cuts' : List (List String)}
    (h : List.Forall₂ R cuts cuts') (hnil : R [] []) (n : Nat) :
    R (textsOf cuts n) (textsOf cuts' n) := by
  rw [textsOf_eq, textsOf_eq, ← h.length_eq]
  generalize min n (cuts.length - 1) = i
  induction h generalizing i with
  | nil => exact hnil
  | cons hfirst _ ih =>
    cases i with
    | zero => exact hfirst
    | succ i => exact ih i

end Rehearsal

namespace Turn

open Rehearsal

theorem start_opens {config : TurnConfig} {maxAttempts : Int} {t : Turn}
    (hnew : Turn.new? config maxAttempts = some t) (prompt : String) :
    ∃ u : Turn, t.start prompt = .ok u ∧ u.Opens config maxAttempts.toNat ∧
      u.overlay = Overlay.empty := by
  unfold Turn.new? Budget.new? at hnew
  split at hnew
  · cases hnew
  · cases hnew
    exact ⟨_, rfl, ⟨rfl, rfl, rfl, rfl, Nat.zero_add _, rfl⟩, rfl⟩

/-- **A turn ends alike over two cuts of its texts that agree where it counts.** The texts of `cuts`
    and `cuts'` are the same and can be read, and `base` can be looked at for what they rename. The
    cuts are `CutAlike` where two directives clash and the later one is of the earlier class: both
    have the two in one chunk, or neither. -/
theorem cuts_end_alike {config : TurnConfig} {maxAttempts : Int} {t : Turn}
    (hnew : Turn.new? config maxAttempts = some t) (prompt : String) (base : BaseTree)
    (verdicts : List Verdict) {cuts cuts' : List (List String)}
    (htext : List.Forall₂ (fun texts texts' => String.join texts = String.join texts') cuts cuts')
    (hread : ∀ texts ∈ cuts,
      ((Parser.ofMark config.mark).feed (String.join texts).toList).stopped = none)
    (hshow : ∀ source target, Renames config.mark cuts source target → base.trouble source = none)
    (halike : List.Forall₂ (fun texts texts' => CutAlike (Renames config.mark cuts)
      ((Parser.ofMark config.mark).batches texts) ((Parser.ofMark config.mark).batches texts'))
        cuts cuts') :
    ∃ u, t.start prompt = .ok u ∧ ∃ y y', (staged cuts verdicts u 0 0 []).Ends base y ∧
      (staged cuts' verdicts u 0 0 []).Ends base y' ∧ y.turn.status = y'.turn.status ∧
      y.turn.overlay.Same y'.turn.overlay := by
  obtain ⟨u, hstart, hopens, hempty⟩ := start_opens hnew prompt
  have hjoin (k : Nat) : String.join (textsOf cuts k) = String.join (textsOf cuts' k) :=
    textsOf_forall₂ htext rfl k
  have hlog (k : Nat) : ((Parser.ofMark config.mark).batches (textsOf cuts k)).flatten =
      ((Parser.ofMark config.mark).batches (textsOf cuts' k)).flatten := by
    rw [Parser.batches_flatten, Parser.batches_flatten, hjoin]
  have hmoves (k : Nat) (source target : String)
      (h : .rename source target ∈ ((Parser.ofMark config.mark).batches (textsOf cuts k)).flatten) :
      Renames config.mark cuts source target := by
    rcases textsOf_mem cuts k with hmem | hnil
    · rw [Parser.batches_flatten] at h
      exact ⟨_, hmem, h⟩
    · rw [hnil] at h
      exact absurd h List.not_mem_nil
  have hstop (k : Nat) :
      ((Parser.ofMark config.mark).feed (String.join (textsOf cuts k)).toList).stopped = none := by
    rcases textsOf_mem cuts k with hmem | hnil
    · exact hread _ hmem
    · rw [hnil]
      exact congrArg Fed.stopped (Parser.feed_nil rfl)
  have hshows (k : Nat) (d : Directive)
      (hd : d ∈ ((Parser.ofMark config.mark).batches (textsOf cuts k)).flatten) : base.Shows d :=
    fun source target he => hshow source target (hmoves k source target (he ▸ hd))
  have hcut (k : Nat) : CutAlike (Renames config.mark cuts)
      ((Parser.ofMark config.mark).batches (textsOf cuts k))
      ((Parser.ofMark config.mark).batches (textsOf cuts' k)) :=
    textsOf_forall₂ halike (fun _ _ _ _ _ hi => absurd hi nofun) k
  -- both rehearsals end as it can be told in advance, and the same is told of both
  let told (cuts : List (List String)) : Upshot := Upshot.ofTurn base config verdicts
    (fun k => (Parser.ofMark config.mark).batches (textsOf cuts k)) maxAttempts.toNat 0 0
    u.overlay.shape
  have hend : (staged cuts verdicts u 0 0 []).Settles base (told cuts) :=
    opening_settles (fun k => Parser.reads_of_join (hstop k)) hshows hopens
  have hend' : (staged cuts' verdicts u 0 0 []).Settles base (told cuts') :=
    opening_settles (fun k => Parser.reads_of_join (hjoin k ▸ hstop k))
      (fun k d hd => hshows k d (hlog k ▸ hd)) hopens
  have hsame : told cuts = told cuts' := by
    refine Upshot.ofTurn_congr (G := fun s => s.MovedAlong (Renames config.mark cuts))
      (fun k s hs => Shape.cuts_alike hs (hlog k) (hcut k) (hmoves k))
      (fun k s hs => hs.foldl fun source target h => ?_) maxAttempts.toNat 0 0 ?_
    · obtain ⟨b, hb, hd⟩ := List.mem_flatMap.1 h
      exact hmoves k source target (List.mem_flatten.2 ⟨b, hb, Applier.mem_of_mem_batchOrder hd⟩)
    · rw [hempty]
      exact fun p q h => absurd h nofun
  obtain ⟨y, hy, hstatus, hshape⟩ := hend
  obtain ⟨y', hy', hstatus', hshape'⟩ := hend'
  refine ⟨u, hstart, y, y', hy, hy', ?_, .of_shape ?_⟩
  · rw [hstatus, hstatus', hsame]
  · rw [hshape, hshape', hsame]

end Turn

/-! ## A write and a delete of one path -/

namespace Parser

/-- The last chunk closes what the chunk before it has left open. -/
theorem batches_pair {mark first last : String} {ds : List Directive}
    (h : directivesOf mark (String.join [first, last]) = directivesOf mark first ++ ds) :
    (ofMark mark).batches [first, last] = [directivesOf mark first, ds] := by
  obtain ⟨rest, hrest⟩ : ∃ rest, (ofMark mark).batches [first, last] =
      [directivesOf mark first, rest] := ⟨_, rfl⟩
  have hflat := batches_flatten mark [first, last]
  rw [hrest, h] at hflat
  rw [hrest]
  simpa using hflat

theorem batches_single (mark text : String) :
    (ofMark mark).batches [text] = [directivesOf mark text] := rfl

/-- A write tag. -/
def writeText : String := "<pl-write path=\"a\">x</pl-write>"

/-- A delete tag for the path of the write. -/
def deleteText : String := "<pl-delete path=\"a\"/>"

/-- A parser at `cursor`, behind the tags of `text` that have closed. -/
def behindTags (text : String) (cursor : Nat) : Parser :=
  { ofMark "pl" with buffer := text.toList, cursor }

theorem directivesOf_writeText : directivesOf "pl" writeText = [.write "a" "x" none] := by
  have hwrite : ((ofMark "pl").grow writeText.toList).pass =
      .again (behindTags writeText 31) (some (.directive .write ⟨.write "a" "x" none, 0, 31⟩)) := by
    cbv
  have hwait : (behindTags writeText 31).pass = .wait (behindTags writeText 31) := by
    cbv
  rw [directivesOf, feed_ofMark, advance_of_again hwrite, advance_of_wait hwait]
  rfl

/-- Both tags in a row. -/
def bothText : String := "<pl-write path=\"a\">x</pl-write><pl-delete path=\"a\"/>"

theorem feed_bothText : (ofMark "pl").feed bothText.toList =
    ⟨behindTags bothText 52, [.directive .write ⟨.write "a" "x" none, 0, 31⟩,
      .directive .delete ⟨.delete "a", 31, 52⟩], none⟩ := by
  have hwrite : ((ofMark "pl").grow bothText.toList).pass =
      .again (behindTags bothText 31) (some (.directive .write ⟨.write "a" "x" none, 0, 31⟩)) := by
    cbv
  have hdelete : (behindTags bothText 31).pass =
      .again (behindTags bothText 52) (some (.directive .delete ⟨.delete "a", 31, 52⟩)) := by
    cbv
  have hwait : (behindTags bothText 52).pass = .wait (behindTags bothText 52) := by
    cbv
  rw [feed_ofMark, advance_of_again hwrite, advance_of_again hdelete, advance_of_wait hwait]
  rfl

theorem directivesOf_bothText :
    directivesOf "pl" bothText = [.write "a" "x" none, .delete "a"] := by
  rw [directivesOf, feed_bothText]
  rfl

theorem directivesOf_openTag : directivesOf "pl" "<pl-wr" = [] := by
  have hwait : ((ofMark "pl").grow "<pl-wr".toList).pass =
      .wait { behindTags "<pl-wr" 0 with mode := .naming 0 } := by
    cbv
  rw [directivesOf, feed_ofMark, advance_of_wait hwait]
  rfl

end Parser

namespace Turn

open Rehearsal

/-- A border within a tag counts for nothing: the tags behind it close in one chunk all the same. -/
theorem border_in_tag :
    let policy : RetryPolicy := ⟨1, .real (.finite false 120 0), .whole 0⟩
    let config : TurnConfig := ⟨"session", "turn", "pl", none, policy, 50⟩
    let whole := [[Parser.bothText]]
    let cut := [["<pl-wr", "ite path=\"a\">x</pl-write><pl-delete path=\"a\"/>"]]
    ∃ t u, Turn.new? config 2 = some t ∧ t.start "go" = .ok u ∧ ∃ y y',
      (staged whole [] u 0 0 []).Ends default y ∧ (staged cut [] u 0 0 []).Ends default y' ∧
      y.turn.status = y'.turn.status ∧ y.turn.overlay.Same y'.turn.overlay := by
  intro policy config whole cut
  obtain ⟨t, hnew⟩ : ∃ t, Turn.new? config 2 = some t := ⟨_, rfl⟩
  have hjoin : Parser.bothText =
      String.join ["<pl-wr", "ite path=\"a\">x</pl-write><pl-delete path=\"a\"/>"] := by
    decide
  have hbatches : (Parser.ofMark "pl").batches
      ["<pl-wr", "ite path=\"a\">x</pl-write><pl-delete path=\"a\"/>"] =
        [directivesOf "pl" "<pl-wr", [.write "a" "x" none, .delete "a"]] := by
    refine Parser.batches_pair ?_
    rw [← hjoin, Parser.directivesOf_bothText, Parser.directivesOf_openTag]
    rfl
  have htext :
      List.Forall₂ (fun texts texts' => String.join texts = String.join texts') whole cut :=
    .cons hjoin .nil
  have hread : ∀ texts ∈ whole,
      ((Parser.ofMark "pl").feed (String.join texts).toList).stopped = none := by
    intro texts htexts
    rw [List.mem_singleton.1 htexts]
    exact congrArg Fed.stopped Parser.feed_bothText
  have halike : CutAlike (Renames "pl" whole) ((Parser.ofMark "pl").batches [Parser.bothText])
      ((Parser.ofMark "pl").batches
        ["<pl-wr", "ite path=\"a\">x</pl-write><pl-delete path=\"a\"/>"]) := by
    rw [Parser.batches_single, hbatches, Parser.directivesOf_bothText, Parser.directivesOf_openTag]
    intro i j d e hlt _ hj _ _
    have hj2 : j < 2 := (List.getElem?_eq_some_iff.1 hj).1
    obtain rfl : i = 0 := by omega
    obtain rfl : j = 1 := by omega
    decide
  obtain ⟨u, hu, hends⟩ := cuts_end_alike hnew "go" default [] htext hread (fun _ _ _ => rfl)
    (.cons halike .nil)
  exact ⟨t, u, hnew, hu, hends⟩

/-- **A border that counts.** A path is written and then deleted. In one chunk the delete goes
    first and the write stays; with a border between the tags the path is deleted in the end. -/
theorem border_decides :
    let policy : RetryPolicy := ⟨1, .real (.finite false 120 0), .whole 0⟩
    let config : TurnConfig := ⟨"session", "turn", "pl", none, policy, 50⟩
    let whole := [[Parser.bothText]]
    let cut := [[Parser.writeText, Parser.deleteText]]
    String.join [Parser.bothText] = String.join [Parser.writeText, Parser.deleteText] ∧
      ∃ t u, Turn.new? config 2 = some t ∧ t.start "go" = .ok u ∧ ∃ y y',
        (staged whole [] u 0 0 []).Ends default y ∧ (staged cut [] u 0 0 []).Ends default y' ∧
        y.turn.status = .clean ∧ y'.turn.status = .clean ∧
        y.turn.overlay.writes.get? "a" = some "x" ∧ y'.turn.overlay.writes.get? "a" = none := by
  intro policy config whole cut
  have hjoin : String.join [Parser.bothText] =
      String.join [Parser.writeText, Parser.deleteText] := by
    decide
  obtain ⟨t, hnew⟩ : ∃ t, Turn.new? config 2 = some t := ⟨_, rfl⟩
  obtain ⟨u, hstart, hopens, hempty⟩ := start_opens hnew "go"
  have hwhole (k : Nat) : textsOf whole k = [Parser.bothText] := by
    cases k <;> rfl
  have hcut (k : Nat) : textsOf cut k = [Parser.writeText, Parser.deleteText] := by
    cases k <;> rfl
  have hread : ((Parser.ofMark "pl").feed (String.join [Parser.bothText]).toList).stopped = none :=
    congrArg Fed.stopped Parser.feed_bothText
  have hend : (staged whole [] u 0 0 []).Settles default _ :=
    opening_settles (fun k => hwhole k ▸ Parser.reads_of_join hread)
      (fun _ _ _ _ _ _ => rfl) hopens
  have hend' : (staged cut [] u 0 0 []).Settles default _ :=
    opening_settles (fun k => hcut k ▸ Parser.reads_of_join (hjoin ▸ hread))
      (fun _ _ _ _ _ _ => rfl) hopens
  have hrun : (policy.runFrom "" (answerOf []) (policy.maxRetries + 1).toNat 0 0 "" []).outcome =
      .ok [] := rfl
  rw [Upshot.ofTurn_of_no_problems hrun, hempty] at hend hend'
  obtain ⟨y, hy, hstatus, hshape⟩ := hend
  obtain ⟨y', hy', hstatus', hshape'⟩ := hend'
  refine ⟨hjoin, t, u, hnew, hstart, y, y', hy, hy', hstatus, hstatus', ?_, ?_⟩
  · have hbatch : (Parser.ofMark "pl").batches (textsOf whole 0) =
        [[.write "a" "x" none, .delete "a"]] := by
      rw [hwhole, Parser.batches_single, Parser.directivesOf_bothText]
    have hwrites := congrFun (congrArg Shape.writes hshape) "a"
    dsimp only at hwrites
    rw [show (Parser.ofMark config.mark).batches _ = _ from hbatch] at hwrites
    exact hwrites.trans rfl
  · have hbatch : (Parser.ofMark "pl").batches (textsOf cut 0) =
        [[.write "a" "x" none], [.delete "a"]] := by
      have hpair : (Parser.ofMark "pl").batches [Parser.writeText, Parser.deleteText] =
          [directivesOf "pl" Parser.writeText, [.delete "a"]] := by
        refine Parser.batches_pair ?_
        rw [← hjoin, Parser.directivesOf_writeText]
        exact Parser.directivesOf_bothText
      rw [hcut, hpair, Parser.directivesOf_writeText]
    have hwrites := congrFun (congrArg Shape.writes hshape') "a"
    dsimp only at hwrites
    rw [show (Parser.ofMark config.mark).batches _ = _ from hbatch] at hwrites
    exact hwrites.trans rfl

end Turn

end StagedEdits
