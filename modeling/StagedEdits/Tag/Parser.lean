import StagedEdits.Directive
import StagedEdits.Fault
import StagedEdits.Journal
import StagedEdits.Tag.Attribute
import StagedEdits.Tag.Fence
import StagedEdits.Text.Search

set_option autoImplicit false

/-! # The tag parser

Finds edit tags in a text that arrives in pieces. A tag is emitted only once it has closed; offsets
only move forward, so no tag is emitted twice; and what is cut off at the end of the text so far
is kept for later. What stands outside of tags is prose, and so is a tag of an unknown name.

A pass of the parser starts in one of four modes: in prose, in an open tag whose name may still
go on, in the head of a tag of a known name, or in a body. It has to wait for more text, or is
stuck at a head whose attributes cannot be read, or ends back in prose, further on than it was,
with at most one outcome. A stuck parser stays where it is and is stuck again at the next piece.

Main definitions: `Parser`, `Parser.pass`, `Parser.feed`, `Parser.sync`, `Parser.finish`. Main
statement: `Parser.pass_again` (a pass that goes on moves forward), which is why the loop over
passes ends. -/

namespace StagedEdits

/-! ## Names of tags -/

/-- The tags that are known. -/
inductive TagName where
  | write
  | rename
  | delete
  | addDependency
  deriving DecidableEq, Repr

namespace TagName

/-- A name as it is written. -/
def text : TagName → String
  | .write => "write"
  | .rename => "rename"
  | .delete => "delete"
  | .addDependency => "add-dependency"

/-- All names. -/
def all : List TagName := [.write, .rename, .delete, .addDependency]

/-- The name that is written so. -/
def ofChars? (cs : List Char) : Option TagName :=
  all.find? (fun t => t.text.toList == cs)

/-- Whether a letter may start a name. -/
def isStart (c : Char) : Bool := 0x61 ≤ c.toNat && c.toNat ≤ 0x7A

/-- Whether a character may continue a name. -/
def isPart (c : Char) : Bool := isStart c || c == '-'

/-- The name that a text starts with, known or not. -/
def read : List Char → List Char
  | [] => []
  | c :: cs => if isStart c then c :: cs.takeWhile isPart else []

end TagName

/-! ## Outcomes -/

/-- What is wrong with a tag. -/
inductive TagFlaw where
  /-- A write or delete without a path. -/
  | missingPath
  | missingBody
  /-- A rename without its two paths. -/
  | missingEnds
  | noPackages
  /-- A tag that is still open at the end. -/
  | unterminated
  deriving DecidableEq, Repr

/-- The wording of a flaw. -/
def TagFlaw.reason : TagFlaw → String
  | .missingPath => "missing path attribute"
  | .missingBody => "write directive needs a body"
  | .missingEnds => "rename needs both from and to"
  | .noPackages => "no packages listed"
  | .unterminated => "unterminated at end of stream"

/-- A warning about a tag: how it is named, what is wrong and where it stands. -/
structure Warning where
  /-- The tag, with its leading mark. -/
  tag : String
  flaw : TagFlaw
  start : Nat
  stop : Nat
  deriving DecidableEq

/-- A warning as a fault. -/
def Warning.toFault (w : Warning) : Fault := .malformed w.tag w.flaw.reason w.start w.stop

/-- What a closed tag comes to. -/
inductive Outcome where
  | directive (tag : TagName) (parsed : Parsed)
  /-- A path that the guard refused. -/
  | refused (tag : TagName) (start stop : Nat) (refusal : PathRefusal)
  | malformed (warning : Warning)
  deriving DecidableEq

namespace Outcome

/-- The directive, if it is one. -/
def directive? : Outcome → Option Parsed
  | .directive _ p => some p
  | _ => none

/-- The refusal, if it is one. -/
def refusal? : Outcome → Option PathRefusal
  | .refused _ _ _ r => some r
  | _ => none

/-- The warning, if it is one. -/
def warning? : Outcome → Option Warning
  | .malformed w => some w
  | _ => none

end Outcome

/-! ## The state -/

/-- Where a parser stands: in prose, or in which part of which tag. -/
inductive Mode where
  | prose
  /-- Behind an opener at `start`, where the name may go on. -/
  | naming (start : Nat)
  /-- In the head of a tag whose name ends at `nameEnd`; read up to `scanned`, inside `quote`. -/
  | head (start : Nat) (tag : TagName) (nameEnd scanned : Nat) (quote : Option Char)
  /-- In a body that starts at `bodyStart`; no closer starts before `searched`. -/
  | body (start : Nat) (tag : TagName) (attrs : Table String) (bodyStart searched : Nat)
  deriving DecidableEq

/-- Orders prose before the other modes. -/
def Mode.rank : Mode → Nat
  | .prose => 0
  | _ => 1

/-- A parser of one stream. -/
structure Parser where
  /-- The mark that all tag names start with. -/
  mark : String
  buffer : List Char
  /-- Nothing before this offset opens a tag any more. -/
  cursor : Nat
  mode : Mode
  finished : Bool
  /-- The refusals that nobody has taken yet. -/
  refusals : List PathRefusal
  warnings : List Warning
  deriving DecidableEq

/-- The end of one `Parser.pass`. -/
inductive Pass where
  | wait (p : Parser)
  /-- The attributes of a head cannot be read. -/
  | stuck (p : Parser) (fault : NumberFault)
  /-- Back in prose, with what a tag came to if one closed. -/
  | again (p : Parser) (outcome : Option Outcome)

/-- Why `Parser.feed` or `Parser.sync` does not take a text. -/
inductive FeedFault where
  | finished
  /-- The text does not start with the text so far. -/
  | notAnExtension
  /-- The attributes of a tag cannot be read. -/
  | unreadable (fault : NumberFault)
  deriving DecidableEq

/-- The wording of a fault. -/
def FeedFault.message : FeedFault → String
  | .finished => "parser already finished; start a new one for the next stream"
  | .notAnExtension => "cumulative buffer does not extend the text already parsed"
  | .unreadable f => f.message

/-- What came of adding text to a parser: the `parser` then, and the `outcomes` of the tags that
    closed. -/
structure Fed where
  parser : Parser
  /-- What the tags that closed came to. -/
  outcomes : List Outcome
  /-- Why it did not come to the end of the text. -/
  stopped : Option FeedFault

namespace Parser

/-- A parser before any text that reads the tags of `mark`. -/
def ofMark (mark : String) : Parser :=
  { mark, buffer := [], cursor := 0, mode := .prose, finished := false, refusals := [],
    warnings := [] }

/-- The mark that a parser reads tags with which is asked for `asked`: no mark and the empty one
    stand for `fallback`, the mark of the settings. -/
def markInUse (fallback : String) : Option String → String
  | none => fallback
  | some "" => fallback
  | some mark => mark

/-- A parser before any text that is asked to read the tags of the mark `asked`. -/
def new (fallback : String) (asked : Option String) : Parser := ofMark (markInUse fallback asked)

/-- Whether a tag has opened and not closed. -/
def hasPending (p : Parser) : Bool := p.mode != .prose

/-- The text that opens a tag. -/
def opener (p : Parser) : List Char := '<' :: p.mark.toList ++ ['-']

/-- The text that closes `tag`. -/
def closer (p : Parser) (tag : TagName) : List Char :=
  '<' :: '/' :: p.mark.toList ++ '-' :: tag.text.toList ++ ['>']

/-- The tag name `name` with the mark before it. -/
def fullName (p : Parser) (name : String) : String := p.mark ++ "-" ++ name

/-- The parser `p` back in prose at `cursor`. -/
def resume (p : Parser) (cursor : Nat) : Parser := { p with mode := .prose, cursor }

/-! ## What a closed tag comes to -/

/-- The value under `name` in `attrs`, if it is there and not empty. -/
def given? (attrs : Table String) (name : String) : Option String :=
  match attrs.get? name with
  | some "" => none
  | v => v

/-- The directive of a closed tag with the attributes `attrs`, from `start` to `stop`, or what is
    wrong with it. A tag that closes itself has no `body`. -/
def build (p : Parser) (tag : TagName) (attrs : Table String) (body : Option (List Char))
    (start stop : Nat) : Outcome :=
  let lacks (flaw : TagFlaw) : Outcome := .malformed ⟨p.fullName tag.text, flaw, start, stop⟩
  let emit (d : Except PathRefusal Directive) : Outcome :=
    match d with
    | .ok d => .directive tag ⟨d, start, stop⟩
    | .error r => .refused tag start stop r
  match tag with
  | .write =>
    match given? attrs "path", body with
    | none, _ => lacks .missingPath
    | some _, none => lacks .missingBody
    | some path, some body =>
      emit ((normalize path).map (fun path =>
        .write path (String.ofList (bodyContent body)) (given? attrs "description")))
  | .rename =>
    match given? attrs "from", given? attrs "to" with
    | some source, some target =>
      emit (do return .rename (← normalize source) (← normalize target))
    | _, _ => lacks .missingEnds
  | .delete =>
    match given? attrs "path" with
    | none => lacks .missingPath
    | some path => emit ((normalize path).map .delete)
  | .addDependency =>
    match words ((attrs.get? "packages").getD "").toList with
    | [] => lacks .noPackages
    | packages => emit (.ok (.addDependency (Names.ofList (packages.map String.ofList))))

/-! ## One pass -/

/-- How `scanHead` ends. -/
inductive HeadScan where
  /-- At the end of the head, after so many characters. -/
  | closed (count : Nat)
  /-- At the start of another tag: the head was prose. -/
  | prose
  /-- At the end of the text, inside or outside of quotes. -/
  | more (quote : Option Char)
  deriving DecidableEq

/-- Reads on in a head: quoted values may hold anything. -/
def scanHead : (quote : Option Char) → List Char → HeadScan
  | quote, [] => .more quote
  | some q, c :: cs =>
    match scanHead (if c = q then none else some q) cs with
    | .closed n => .closed (n + 1)
    | other => other
  | none, c :: cs =>
    if c = '>' then .closed 0
    else if c = '<' then .prose
    else
      match scanHead (if c = '"' || c = '\'' then some c else none) cs with
      | .closed n => .closed (n + 1)
      | other => other

/-- Reads on in the body of `tag`, which begins at `bodyStart`; nothing before `searched` closes
    it. -/
def bodyStage (p : Parser) (start : Nat) (tag : TagName) (attrs : Table String)
    (bodyStart searched : Nat) : Pass :=
  let closer := p.closer tag
  match findFrom closer p.buffer searched with
  | none =>
    let searched := max bodyStart (p.buffer.length + 1 - closer.length)
    .wait { p with mode := .body start tag attrs bodyStart searched }
  | some i =>
    let stop := i + closer.length
    .again (p.resume stop)
      (some (p.build tag attrs (some (slice p.buffer bodyStart i)) start stop))

/-- Reads on in the head of `tag`, whose name ends at `nameEnd`: from `scanned`, inside of `quote`
    if there is one. -/
def headStage (p : Parser) (start : Nat) (tag : TagName) (nameEnd scanned : Nat)
    (quote : Option Char) : Pass :=
  match scanHead quote (p.buffer.drop scanned) with
  | .more quote =>
    .wait { p with mode := .head start tag nameEnd p.buffer.length quote }
  | .prose => .again (p.resume (start + 1)) none
  | .closed n =>
    let close := scanned + n
    let rest := trimEnd (slice p.buffer nameEnd close)
    match parseAttributes (dropEndWhile (· == '/') rest) with
    | .error f => .stuck { p with mode := .head start tag nameEnd close none } f
    | .ok attrs =>
      if rest.getLast? == some '/' then
        .again (p.resume (close + 1)) (some (p.build tag attrs none start (close + 1)))
      else p.bodyStage start tag attrs (close + 1) (close + 1)

/-- Reads the name behind the opener at `start`. -/
def nameStage (p : Parser) (start : Nat) : Pass :=
  let nameStart := start + p.opener.length
  let name := TagName.read (p.buffer.drop nameStart)
  let nameEnd := nameStart + name.length
  match p.buffer[nameEnd]? with
  | none => .wait { p with mode := .naming start }
  | some c =>
    match TagName.ofChars? name with
    | none => .again (p.resume (start + 1)) none
    | some tag =>
      if isBlank c || c == '/' || c == '>' then p.headStage start tag nameEnd nameEnd none
      else .again (p.resume (start + 1)) none

/-- One pass, from where the parser stands. In prose all but the last characters, which may be the
    beginning of an opener, are done with. -/
def pass (p : Parser) : Pass :=
  match p.mode with
  | .prose =>
    match findFrom p.opener p.buffer p.cursor with
    | none =>
      .wait { p with cursor := max p.cursor (p.buffer.length + 1 - p.opener.length) }
    | some i => p.nameStage i
  | .naming start => p.nameStage start
  | .head start tag nameEnd scanned quote => p.headStage start tag nameEnd scanned quote
  | .body start tag attrs bodyStart searched => p.bodyStage start tag attrs bodyStart searched

/-! ## A pass moves forward -/

theorem bodyStage_again {p q : Parser} {start : Nat} {tag : TagName} {attrs : Table String}
    {bodyStart searched : Nat} {o : Option Outcome}
    (h : p.bodyStage start tag attrs bodyStart searched = .again q o) :
    q.mode = .prose ∧ q.buffer = p.buffer ∧ searched < q.cursor := by
  simp only [bodyStage] at h
  split at h
  · exact absurd h (by simp)
  · rename_i i hi
    have hb := findFrom_bounds (by simp [closer]) hi
    have hl : 0 < (p.closer tag).length := by simp [closer]
    simp only [Pass.again.injEq] at h
    obtain ⟨rfl, _⟩ := h
    exact ⟨rfl, rfl, by show searched < i + (p.closer tag).length; omega⟩

theorem headStage_again {p q : Parser} {start : Nat} {tag : TagName} {nameEnd scanned : Nat}
    {quote : Option Char} {o : Option Outcome}
    (h : p.headStage start tag nameEnd scanned quote = .again q o) :
    q.mode = .prose ∧ q.buffer = p.buffer ∧ (start ≤ scanned → start < q.cursor) := by
  simp only [headStage] at h
  split at h
  · exact absurd h (by simp)
  · simp only [Pass.again.injEq] at h
    obtain ⟨rfl, _⟩ := h
    exact ⟨rfl, rfl, fun _ => Nat.lt_succ_self start⟩
  · rename_i n _
    split at h
    · exact absurd h (by simp)
    · split at h
      · simp only [Pass.again.injEq] at h
        obtain ⟨rfl, _⟩ := h
        exact ⟨rfl, rfl, fun hs => by show start < scanned + n + 1; omega⟩
      · obtain ⟨h1, h2, h3⟩ := bodyStage_again h
        exact ⟨h1, h2, fun hs => by omega⟩

theorem nameStage_again {p q : Parser} {start : Nat} {o : Option Outcome}
    (h : p.nameStage start = .again q o) :
    q.mode = .prose ∧ q.buffer = p.buffer ∧ start < q.cursor := by
  simp only [nameStage] at h
  split at h
  · exact absurd h (by simp)
  · split at h
    · simp only [Pass.again.injEq] at h
      obtain ⟨rfl, _⟩ := h
      exact ⟨rfl, rfl, Nat.lt_succ_self start⟩
    · split at h
      · obtain ⟨h1, h2, h3⟩ := headStage_again h
        exact ⟨h1, h2, h3 (by omega)⟩
      · simp only [Pass.again.injEq] at h
        obtain ⟨rfl, _⟩ := h
        exact ⟨rfl, rfl, Nat.lt_succ_self start⟩

/-- **A pass that goes on ends in prose over the same text, and one that started in prose ends
    further on than it started**: `q` has a greater cursor than `p`. -/
theorem pass_again {p q : Parser} {o : Option Outcome} (h : p.pass = .again q o) :
    q.mode = .prose ∧ q.buffer = p.buffer ∧
      (p.mode = .prose → p.cursor < q.cursor ∧ p.cursor < p.buffer.length) := by
  simp only [pass] at h
  split at h
  · split at h
    · exact absurd h (by simp)
    · rename_i i hi
      obtain ⟨h1, h2, h3⟩ := nameStage_again h
      have hb := findFrom_bounds (by simp [opener]) hi
      have hl : 0 < p.opener.length := by simp [opener]
      exact ⟨h1, h2, fun _ => ⟨by omega, by omega⟩⟩
  · rename_i start hm
    obtain ⟨h1, h2, _⟩ := nameStage_again h
    exact ⟨h1, h2, fun e => by rw [e] at hm; cases hm⟩
  · rename_i hm
    obtain ⟨h1, h2, _⟩ := headStage_again h
    exact ⟨h1, h2, fun e => by rw [e] at hm; cases hm⟩
  · rename_i hm
    obtain ⟨h1, h2, _⟩ := bodyStage_again h
    exact ⟨h1, h2, fun e => by rw [e] at hm; cases hm⟩

/-! ## Feeding -/

/-- Passes until more text is needed or a head cannot be read. -/
def advance (p : Parser) : Fed :=
  match _h : p.pass with
  | .wait q => ⟨q, [], none⟩
  | .stuck q f => ⟨q, [], some (.unreadable f)⟩
  | .again q o =>
    let r := advance q
    { r with outcomes := o.toList ++ r.outcomes }
termination_by (p.mode.rank, p.buffer.length - p.cursor)
decreasing_by
  obtain ⟨h1, h2, h3⟩ := pass_again (by assumption)
  cases hm : p.mode with
  | prose =>
    have h4 := h3 hm
    rw [h1]
    apply Prod.Lex.right
    rw [h2]
    omega
  | _ => rw [h1]; exact Prod.Lex.left _ _ (Nat.lt_succ_self 0)

/-- Keeps what `outcomes` leave behind: refusals to be taken and warnings. -/
def keep (p : Parser) (outcomes : List Outcome) : Parser :=
  { p with
    refusals := p.refusals ++ outcomes.filterMap Outcome.refusal?
    warnings := p.warnings ++ outcomes.filterMap Outcome.warning? }

/-- Adds `chunk` to the text and reads on. -/
def feed (p : Parser) (chunk : List Char) : Fed :=
  if p.finished then ⟨p, [], some .finished⟩
  else if chunk.isEmpty then ⟨p, [], none⟩
  else
    let r := advance { p with buffer := p.buffer ++ chunk }
    { r with parser := r.parser.keep r.outcomes }

/-- Takes `whole`, the whole text so far, instead of the next piece of it. -/
def sync (p : Parser) (whole : List Char) : Fed :=
  if p.buffer.isPrefixOf whole then p.feed (whole.drop p.buffer.length)
  else ⟨p, [], some .notAnExtension⟩

/-- The name of the open tag, as far as it is there. -/
def openName (p : Parser) : List Char :=
  match p.mode with
  | .prose => []
  | .naming start => TagName.read (p.buffer.drop (start + p.opener.length))
  | .head _ tag .. => tag.text.toList
  | .body _ tag .. => tag.text.toList

/-- Where the open tag starts. -/
def openStart (p : Parser) : Nat :=
  match p.mode with
  | .prose => p.cursor
  | .naming start => start
  | .head start .. => start
  | .body start .. => start

/-- The warning about a tag that is still open, if what is there of its name can become a known
    one. -/
def unterminated? (p : Parser) : Option Warning :=
  let name := p.openName
  if p.hasPending && !name.isEmpty && TagName.all.any (fun t => name.isPrefixOf t.text.toList)
  then some ⟨p.fullName (String.ofList name), .unterminated, p.openStart, p.buffer.length⟩
  else none

/-- Ends the stream. All warnings of it are in the result. -/
def finish (p : Parser) : Parser :=
  if p.finished then p
  else { p with finished := true, warnings := p.warnings ++ p.unterminated?.toList }

/-- Takes the refusals that nobody has taken yet. -/
def drain (p : Parser) : Parser × List PathRefusal :=
  ({ p with refusals := [] }, p.refusals)

/-! ## What a parser says -/

/-- The entry about a warning. -/
def warningEntry (w : Warning) : Entry :=
  .note "PARSER" ("⚠️ " ++ w.toFault.message)

/-- The entry about a closed tag. -/
def outcomeEntry (p : Parser) : Outcome → Entry
  | .directive tag d =>
    .note "PARSER" ("✅ Closed <" ++ p.fullName tag.text ++ "> [" ++ toString d.start ++ ":" ++
      toString d.stop ++ "]")
  | .refused tag start _ r =>
    .note "PARSER" ("⚠️ Skipping <" ++ p.fullName tag.text ++ "> at " ++ toString start ++ ": " ++
      (Fault.ofRefusal r).message)
  | .malformed w => warningEntry w

/-- What ending the stream says. -/
def finishEntries (p : Parser) : List Entry :=
  if p.finished then [] else p.unterminated?.toList.map warningEntry

end Parser

end StagedEdits
