import StagedEdits.Text.Units

set_option autoImplicit false

/-! # JSON tokens

The words that a JSON text is made of, read character by character. What is no word of JSON gives
the token `stray`, behind which nothing is read any more, so that the words before it can still be
judged on their own.

Main definitions: `JsonToken`, `JsonToken.scan`. -/

namespace StagedEdits

/-- A word of a JSON text. -/
inductive JsonToken where
  /-- The opening bracket of a list. -/
  | openList
  /-- The closing bracket of a list. -/
  | closeList
  /-- The opening brace of an object. -/
  | openObject
  /-- The closing brace of an object. -/
  | closeObject
  | comma
  | colon
  | text (s : String)
  /-- A number as it is written. -/
  | number (written : List Char)
  | null
  | truth (b : Bool)
  /-- The value that is no number. -/
  | notANumber
  | infinity (negative : Bool)
  /-- Something that is no word of JSON. -/
  | stray
  deriving DecidableEq

namespace JsonToken

/-! ## Numbers and names -/

/-- Whether a character may stand in a number. -/
def isNumberChar (c : Char) : Bool :=
  isAsciiDigit c || c == '-' || c == '+' || c == '.' || c == 'e' || c == 'E'

/-- The fraction that a text starts with: a point and digits, or nothing. -/
def fractionOf : List Char → List Char
  | '.' :: cs =>
    match cs.takeWhile isAsciiDigit with
    | [] => []
    | ds => '.' :: ds
  | _ => []

/-- The sign that an exponent may start with. -/
def signOf : List Char → List Char
  | '-' :: _ => ['-']
  | '+' :: _ => ['+']
  | _ => []

/-- The exponent that a text starts with: its letter, maybe a sign, and digits; or nothing. -/
def exponentOf : List Char → List Char
  | [] => []
  | c :: cs =>
    if c == 'e' || c == 'E' then
      match (cs.drop (signOf cs).length).takeWhile isAsciiDigit with
      | [] => []
      | ds => c :: signOf cs ++ ds
    else []

/-- The whole part that a text starts with: a zero, or digits that start with no zero. -/
def wholeOf : List Char → List Char
  | '0' :: _ => ['0']
  | cs => cs.takeWhile isAsciiDigit

/-- The number that a text starts with, as it is written; nothing if there is none. -/
def numberOf (cs : List Char) : List Char :=
  let sign := if cs.head? == some '-' then ['-'] else []
  match wholeOf (cs.drop sign.length) with
  | [] => []
  | whole =>
    let front := sign ++ whole
    let fraction := fractionOf (cs.drop front.length)
    front ++ fraction ++ exponentOf (cs.drop (front ++ fraction).length)

/-- The words of a run of number characters. -/
def ofNumber (run : List Char) : List JsonToken :=
  match numberOf run with
  | [] => [.stray]
  | written => if written.length < run.length then [.number written, .stray] else [.number written]

/-- The word that a run of letters is. -/
def ofName (run : List Char) : JsonToken :=
  match String.ofList run with
  | "null" => .null
  | "true" => .truth true
  | "false" => .truth false
  | "NaN" => .notANumber
  | "Infinity" => .infinity false
  | "-Infinity" => .infinity true
  | _ => .stray

/-! ## Texts -/

/-- The character that a letter behind a backslash stands for. -/
def escaped? (c : Char) : Option Char :=
  match c with
  | '"' => some '"'
  | '\\' => some '\\'
  | '/' => some '/'
  | 'b' => some '\u0008'
  | 'f' => some '\u000C'
  | 'n' => some '\n'
  | 'r' => some '\r'
  | 't' => some '\t'
  | _ => none

/-! ## Scanning -/

/-- What is being read. -/
inductive Scanning where
  | between
  /-- A number, the last character first. -/
  | number (run : List Char)
  /-- A name, the last letter first. -/
  | name (run : List Char)
  | text (t : UnitText)
  | escape (t : UnitText)
  /-- A code unit with so many digits to come. -/
  | unit (t : UnitText) (left value : Nat)
  /-- Nothing more, as the text is no JSON. -/
  | lost

/-- The first character of a word. -/
def scanFirst (c : Char) : Scanning × List JsonToken :=
  if c == ' ' || c == '\t' || c == '\n' || c == '\r' then (.between, [])
  else if c == '[' then (.between, [.openList])
  else if c == ']' then (.between, [.closeList])
  else if c == '\x7b' then (.between, [.openObject])
  else if c == '\x7d' then (.between, [.closeObject])
  else if c == ',' then (.between, [.comma])
  else if c == ':' then (.between, [.colon])
  else if c == '"' then (.text .empty, [])
  else if c == '-' || isAsciiDigit c then (.number [c], [])
  else if isAsciiLetter c then (.name [c], [])
  else (.lost, [.stray])

/-- What follows on the end of a word that the next character `c` has ended; `words` are there so
    far. -/
def scanAfter (words : List JsonToken) (c : Char) : Scanning × List JsonToken :=
  let (next, more) := scanFirst c
  (next, words ++ more)

/-- The next character: what is read then, and the words that were read. -/
def scanNext : Scanning → Char → Scanning × List JsonToken
  | .between, c => scanFirst c
  | .number run, c =>
    if isNumberChar c then (.number (c :: run), [])
    else if run == ['-'] && c == 'I' then (.name ['I', '-'], [])
    else scanAfter (ofNumber run.reverse) c
  | .name run, c =>
    if isAsciiLetter c then (.name (c :: run), []) else scanAfter [ofName run.reverse] c
  | .text t, c =>
    if c == '"' then (.between, [.text (String.ofList t.chars)])
    else if c == '\\' then (.escape t, [])
    else if c.toNat < 0x20 then (.lost, [.stray])
    else (.text (t.push c), [])
  | .escape t, c =>
    if c == 'u' then (.unit t 4 0, [])
    else
      match escaped? c with
      | some e => (.text (t.push e), [])
      | none => (.lost, [.stray])
  | .unit t left value, c =>
    match hexValue? c with
    | none => (.lost, [.stray])
    | some v =>
      if left ≤ 1 then (.text (t.pushUnit (16 * value + v)), [])
      else (.unit t (left - 1) (16 * value + v), [])
  | .lost, _ => (.lost, [])

/-- The words that are left when the text ends. -/
def scanEnd : Scanning → List JsonToken
  | .between | .lost => []
  | .number run => ofNumber run.reverse
  | .name run => [ofName run.reverse]
  | .text _ | .escape _ | .unit .. => [.stray]

/-- A scan as far as it has come. -/
structure Scan where
  now : Scanning
  /-- The words so far, the last one first. -/
  words : List JsonToken

/-- A scan before the first character. -/
def Scan.start : Scan := ⟨.between, []⟩

/-- The scan `s` after another character `c`. -/
def Scan.next (s : Scan) (c : Char) : Scan :=
  let (now, words) := scanNext s.now c
  ⟨now, words.reverse ++ s.words⟩

/-- The words of a scan whose text has ended. -/
def Scan.finish (s : Scan) : List JsonToken := s.words.reverse ++ scanEnd s.now

/-- The words of a text. -/
def scan (cs : List Char) : List JsonToken := (cs.foldl Scan.next .start).finish

end JsonToken

end StagedEdits
