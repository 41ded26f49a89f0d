import StagedEdits.Proofs.GrownText

set_option autoImplicit false

/-! # Passes over a growing text

What a pass of the tag parser comes to when more text has come in before it is made. The invariant
is `Parser.InBounds`: every offset that a parser keeps between two passes lies inside its text, and
the place where it goes on searching for a closer is one that no closer was missed before.

A pass that closed a tag or fell back to prose comes to the same over the longer text, a pass that
was stuck is stuck again, and a pass that waited goes on as if it had not been made. The cursor
counts for nothing while a tag is open, as leaving the tag sets it; `Parser.settle` forgets it
there.

Main statements: `Parser.pass_inBounds`, `Parser.pass_grows`. -/

namespace StagedEdits

/-! ## Offsets -/

/-- The offsets of a mode lie inside a text of length `n`, in their order; `opener` and `closer`
    are the lengths of the marks around a tag. -/
def Mode.InBounds (opener : Nat) (closer : TagName → Nat) (n : Nat) : Mode → Prop
  | .prose => True
  | .naming start => start + opener ≤ n
  | .head start _ nameEnd scanned _ =>
    start + opener ≤ nameEnd ∧ nameEnd ≤ scanned ∧ scanned ≤ n
  | .body start tag _ bodyStart searched =>
    start < bodyStart ∧ bodyStart ≤ n ∧ bodyStart ≤ searched ∧
      searched ≤ max bodyStart (n + 1 - closer tag)

/-- The parser of a pass. -/
def Pass.parser : Pass → Parser
  | .wait p => p
  | .stuck p _ => p
  | .again p _ => p

namespace Parser

/-- The offsets that `p` keeps lie inside its text. -/
structure InBounds (p : Parser) : Prop where
  cursor : p.cursor ≤ p.buffer.length
  mode : p.mode.InBounds p.opener.length (fun tag => (p.closer tag).length) p.buffer.length

/-- The parser `p` with `more` behind its text. -/
def grow (p : Parser) (more : List Char) : Parser := { p with buffer := p.buffer ++ more }

@[simp] theorem grow_buffer (p : Parser) (more : List Char) :
    (p.grow more).buffer = p.buffer ++ more := rfl

@[simp] theorem grow_mode (p : Parser) (more : List Char) : (p.grow more).mode = p.mode := rfl

@[simp] theorem grow_cursor (p : Parser) (more : List Char) :
    (p.grow more).cursor = p.cursor := rfl

@[simp] theorem grow_opener (p : Parser) (more : List Char) :
    (p.grow more).opener = p.opener := rfl

@[simp] theorem grow_closer (p : Parser) (more : List Char) (tag : TagName) :
    (p.grow more).closer tag = p.closer tag := rfl

theorem grow_grow (p : Parser) (a b : List Char) : (p.grow a).grow b = p.grow (a ++ b) := by
  simp [grow, List.append_assoc]

theorem opener_ne_nil (p : Parser) : p.opener ≠ [] := by simp [opener]

theorem closer_ne_nil (p : Parser) (tag : TagName) : p.closer tag ≠ [] := by simp [closer]

/-- Growing leaves the offsets inside. -/
theorem InBounds.grow {p : Parser} (h : p.InBounds) (more : List Char) :
    (p.grow more).InBounds := by
  obtain ⟨hc, hm⟩ := h
  refine ⟨by simp only [grow_cursor, grow_buffer, List.length_append]; omega, ?_⟩
  show p.mode.InBounds p.opener.length _ (p.buffer ++ more).length
  rw [List.length_append]
  cases hmode : p.mode <;> rw [hmode] at hm <;> simp only [Mode.InBounds, grow_closer] at hm ⊢ <;>
    omega

/-- A parser before any text keeps no offset. -/
theorem ofMark_inBounds (mark : String) : (Parser.ofMark mark).InBounds :=
  ⟨Nat.le_refl _, trivial⟩

section Bounds

variable {p : Parser} {start : Nat} {tag : TagName} {attrs : Table String}
  {bodyStart searched nameEnd scanned : Nat} {quote : Option Char}

theorem bodyStage_inBounds (hc : p.cursor ≤ p.buffer.length) (h1 : start < bodyStart)
    (h2 : bodyStart ≤ p.buffer.length) :
    (p.bodyStage start tag attrs bodyStart searched).parser.InBounds := by
  have hl := List.length_pos_iff.2 (p.closer_ne_nil tag)
  simp only [bodyStage]
  split
  · refine ⟨hc, ⟨h1, h2, Nat.le_max_left _ _, Nat.le_refl _⟩⟩
  · rename_i i hi
    have hb := findFrom_bounds (p.closer_ne_nil tag) hi
    exact ⟨hb.2, trivial⟩

theorem headStage_inBounds (hc : p.cursor ≤ p.buffer.length)
    (h1 : start + p.opener.length ≤ nameEnd) (h2 : nameEnd ≤ scanned)
    (h3 : scanned ≤ p.buffer.length) :
    (p.headStage start tag nameEnd scanned quote).parser.InBounds := by
  have hl := List.length_pos_iff.2 p.opener_ne_nil
  simp only [headStage]
  split
  · exact ⟨hc, ⟨h1, by omega, Nat.le_refl _⟩⟩
  · exact ⟨by show start + 1 ≤ p.buffer.length; omega, trivial⟩
  · rename_i n hn
    have hlt := scanHead_closed_lt hn
    rw [List.length_drop] at hlt
    split
    · exact ⟨hc, ⟨h1, by omega, by show scanned + n ≤ p.buffer.length; omega⟩⟩
    · split
      · exact ⟨by show scanned + n + 1 ≤ p.buffer.length; omega, trivial⟩
      · exact bodyStage_inBounds hc (by omega) (by omega)

theorem nameStage_inBounds (hc : p.cursor ≤ p.buffer.length)
    (h1 : start + p.opener.length ≤ p.buffer.length) : (p.nameStage start).parser.InBounds := by
  have hl := List.length_pos_iff.2 p.opener_ne_nil
  have hback : (p.resume (start + 1)).InBounds :=
    ⟨by show start + 1 ≤ p.buffer.length; omega, trivial⟩
  simp only [nameStage]
  split
  · exact ⟨hc, h1⟩
  · rename_i c hn
    have hlt := (List.getElem?_eq_some_iff.1 hn).1
    split
    · exact hback
    · split
      · exact headStage_inBounds hc (by omega) (Nat.le_refl _) (by omega)
      · exact hback

/-- **A pass leaves the offsets inside the text.** -/
theorem pass_inBounds (h : p.InBounds) : p.pass.parser.InBounds := by
  obtain ⟨hc, hm⟩ := h
  simp only [pass]
  cases hmode : p.mode with
  | prose =>
    simp only
    split
    · have hl := List.length_pos_iff.2 p.opener_ne_nil
      refine ⟨?_, trivial⟩
      show max p.cursor (p.buffer.length + 1 - p.opener.length) ≤ p.buffer.length
      omega
    · rename_i i hi
      exact nameStage_inBounds hc (findFrom_bounds p.opener_ne_nil hi).2
  | naming start =>
    rw [hmode] at hm
    exact nameStage_inBounds hc hm
  | head start tag nameEnd scanned quote =>
    rw [hmode] at hm
    exact headStage_inBounds hc hm.1 hm.2.1 hm.2.2
  | body start tag attrs bodyStart searched =>
    rw [hmode] at hm
    exact bodyStage_inBounds hc hm.1 hm.2.1

end Bounds

/-! ## The cursor -/

/-- The parser `p` with its cursor at `n`. -/
def withCursor (p : Parser) (n : Nat) : Parser := { p with cursor := n }

@[simp] theorem withCursor_buffer (p : Parser) (n : Nat) : (p.withCursor n).buffer = p.buffer := rfl

@[simp] theorem withCursor_mode (p : Parser) (n : Nat) : (p.withCursor n).mode = p.mode := rfl

@[simp] theorem withCursor_cursor (p : Parser) (n : Nat) : (p.withCursor n).cursor = n := rfl

@[simp] theorem withCursor_opener (p : Parser) (n : Nat) : (p.withCursor n).opener = p.opener := rfl

@[simp] theorem withCursor_closer (p : Parser) (n : Nat) (tag : TagName) :
    (p.withCursor n).closer tag = p.closer tag := rfl

/-- A pass in prose looks for an opener. -/
theorem pass_of_prose {p : Parser} (h : p.mode = .prose) :
    p.pass =
      match findFrom p.opener p.buffer p.cursor with
      | none => .wait (p.withCursor (max p.cursor (p.buffer.length + 1 - p.opener.length)))
      | some i => p.nameStage i := by
  rw [pass]
  split
  · rfl
  all_goals rename_i hm; rw [h] at hm; cases hm

/-- The parser `p` without its cursor, if a tag is open. -/
def settle (p : Parser) : Parser := if p.hasPending then p.withCursor 0 else p

theorem settle_of_prose {p : Parser} (h : p.mode = .prose) : p.settle = p := by
  simp [settle, hasPending, h]

theorem settle_of_pending {p : Parser} (h : p.mode ≠ .prose) :
    p.settle = p.withCursor 0 := by
  simp [settle, hasPending, h]

/-- Moving the cursor of a parser that has a tag open changes nothing that counts. -/
theorem settle_cursor {p : Parser} (h : p.mode ≠ .prose) (n : Nat) :
    (p.withCursor n).settle = p.settle := by
  rw [settle_of_pending h]
  exact settle_of_pending h

end Parser

/-- A pass without the cursor of its parser. -/
def Pass.settle : Pass → Pass
  | .wait p => .wait p.settle
  | .stuck p f => .stuck p.settle f
  | .again p o => .again p o

namespace Parser

section Cursor

variable (p : Parser) (n start : Nat) (tag : TagName) (attrs : Table String)
  (bodyStart searched nameEnd scanned : Nat) (quote : Option Char)

theorem bodyStage_cursor :
    ((p.withCursor n).bodyStage start tag attrs bodyStart searched).settle =
      (p.bodyStage start tag attrs bodyStart searched).settle := by
  simp only [bodyStage, withCursor_closer, withCursor_buffer]
  split
  · exact congrArg Pass.wait (settle_cursor (p := { p with mode := .body .. }) (by simp) n)
  · rfl

theorem headStage_cursor :
    ((p.withCursor n).headStage start tag nameEnd scanned quote).settle =
      (p.headStage start tag nameEnd scanned quote).settle := by
  unfold headStage
  rw [withCursor_buffer]
  split
  · exact congrArg Pass.wait (settle_cursor (p := { p with mode := .head .. }) (by simp) n)
  · rfl
  · dsimp only
    split
    · exact congrArg (Pass.stuck · _)
        (settle_cursor (p := { p with mode := .head .. }) (by simp) n)
    · split
      · rfl
      · exact bodyStage_cursor p n start tag _ _ _

theorem nameStage_cursor :
    ((p.withCursor n).nameStage start).settle = (p.nameStage start).settle := by
  simp only [nameStage, withCursor_opener, withCursor_buffer]
  split
  · exact congrArg Pass.wait (settle_cursor (p := { p with mode := .naming start }) (by simp) n)
  · split
    · rfl
    · split
      · exact headStage_cursor p n start _ _ _ _
      · rfl

/-- Where the cursor of a parser stands does not matter to a pass in an open tag. -/
theorem pass_cursor (h : p.mode ≠ .prose) : (p.withCursor n).pass.settle = p.pass.settle := by
  simp only [pass, withCursor_mode]
  cases hmode : p.mode with
  | prose => exact absurd hmode h
  | naming start => exact nameStage_cursor p n start
  | head start tag nameEnd scanned quote => exact headStage_cursor p n ..
  | body start tag attrs bodyStart searched => exact bodyStage_cursor p n ..

/-- A cursor that does not count makes no difference to a pass. -/
theorem pass_settle : p.settle.pass.settle = p.pass.settle := by
  by_cases h : p.mode = .prose
  · rw [settle_of_prose h]
  · rw [settle_of_pending h, pass_cursor p 0 h]

/-- A cursor in prose may be moved on to where the search for an opener comes to the same. -/
theorem pass_cursor_prose (h : p.mode = .prose)
    (hf : findFrom p.opener p.buffer p.cursor = findFrom p.opener p.buffer n)
    (hm : max p.cursor (p.buffer.length + 1 - p.opener.length) =
      max n (p.buffer.length + 1 - p.opener.length)) :
    p.pass.settle = (p.withCursor n).pass.settle := by
  rw [pass_of_prose h, pass_of_prose (p := p.withCursor n) h]
  simp only [withCursor_opener, withCursor_buffer, withCursor_cursor, ← hf, ← hm]
  split
  · rfl
  · exact (nameStage_cursor p n _).symm

end Cursor

/-! ## A pass in an open tag -/

section Modes

variable (p : Parser) (start : Nat) (tag : TagName) (attrs : Table String)
  (bodyStart searched nameEnd scanned : Nat) (quote : Option Char)

-- the stages do not read the mode, so a parser that was put into one passes on as it did without

theorem pass_of_body :
    ({ p with mode := .body start tag attrs bodyStart searched } : Parser).pass =
      p.bodyStage start tag attrs bodyStart searched := by
  simp only [pass, bodyStage, closer, fullName, resume, build]

theorem pass_of_head :
    ({ p with mode := .head start tag nameEnd scanned quote } : Parser).pass =
      p.headStage start tag nameEnd scanned quote := by
  simp only [pass, headStage, bodyStage, closer, fullName, resume, build]

theorem pass_of_naming :
    ({ p with mode := .naming start } : Parser).pass = p.nameStage start := by
  simp only [pass, nameStage, headStage, bodyStage, closer, opener, fullName, resume,
    build]
  rfl

end Modes

/-! ## A pass over more text -/

/-- That a pass is, over a text that has grown by `more`, what another one was before: the same if
    that one went on or was stuck, and what follows on it if it waited. -/
inductive Grows (more : List Char) : Pass → Pass → Prop
  | again (q : Parser) (o : Option Outcome) : Grows more (.again q o) (.again (q.grow more) o)
  | stuck (q : Parser) (f : NumberFault)
      (h : (q.grow more).pass = .stuck (q.grow more) f) :
      Grows more (.stuck q f) (.stuck (q.grow more) f)
  | wait (q : Parser) (b : Pass) (h : b.settle = (q.grow more).pass.settle) :
      Grows more (.wait q) b

section Growth

variable {p : Parser} {more : List Char} {start : Nat} {tag : TagName} {attrs : Table String}
  {bodyStart searched nameEnd scanned : Nat} {quote : Option Char}

theorem bodyStage_grows (h1 : bodyStart ≤ searched)
    (h2 : searched ≤ max bodyStart (p.buffer.length + 1 - (p.closer tag).length)) :
    Grows more (p.bodyStage start tag attrs bodyStart searched)
      ((p.grow more).bodyStage start tag attrs bodyStart searched) := by
  have hne := p.closer_ne_nil tag
  simp only [bodyStage]
  cases hf : findFrom (p.closer tag) p.buffer searched with
  | none =>
    refine .wait _ _ ?_
    -- the search goes on where a closer may begin that ends in the new text
    have hresume := findFrom_resume more hne hf
      (max bodyStart (p.buffer.length + 1 - (p.closer tag).length)) h2 (by omega)
    have hpass := pass_of_body (p.grow more) start tag attrs bodyStart
      (max bodyStart (p.buffer.length + 1 - (p.closer tag).length))
    refine Eq.trans ?_ (congrArg Pass.settle hpass.symm)
    simp only [bodyStage, grow_closer, grow_buffer, hresume]
  | some i =>
    have hb := findFrom_bounds hne hf
    have hl := List.length_pos_iff.2 hne
    have hslice : slice (p.buffer ++ more) bodyStart i = slice p.buffer bodyStart i :=
      slice_grow (by omega)
    simp only [grow_closer, grow_buffer, findFrom_grow hne hf, hslice]
    exact .again (p.resume _) _

theorem headStage_grows (h : scanned ≤ p.buffer.length) :
    Grows more (p.headStage start tag nameEnd scanned quote)
      ((p.grow more).headStage start tag nameEnd scanned quote) := by
  have hscan := scanHead_append quote (p.buffer.drop scanned) more
  rw [← drop_grow more h, List.length_drop] at hscan
  simp only [headStage, grow_buffer]
  cases hs : scanHead quote (p.buffer.drop scanned) with
  | more quote' =>
    refine .wait _ _ ?_
    rw [hs] at hscan
    have hrest : (p.buffer ++ more).drop p.buffer.length = more := by simp
    have hpass := pass_of_head (p.grow more) start tag nameEnd p.buffer.length quote'
    refine Eq.trans ?_ (congrArg Pass.settle hpass.symm)
    simp only [headStage, grow_buffer, hscan, hrest, HeadScan.andThen]
    cases scanHead quote' more with
    | closed n =>
      have hn : scanned + (n + (p.buffer.length - scanned)) = p.buffer.length + n := by omega
      simp only [HeadScan.shift, hn]
      rfl
    | prose => rfl
    | more q => rfl
  | prose =>
    rw [hs] at hscan
    simp only [hscan, HeadScan.andThen]
    exact .again _ _
  | closed n =>
    have hlt := scanHead_closed_lt hs
    rw [List.length_drop] at hlt
    rw [hs] at hscan
    simp only [hscan, HeadScan.andThen, slice_grow (show scanned + n ≤ p.buffer.length by omega)]
    split
    · rename_i f hf
      -- the pass starts over at the end of the head, which is there in the grown text, too
      refine .stuck _ f ?_
      obtain ⟨rest, hrest⟩ := scanHead_closed hs
      rw [List.drop_drop] at hrest
      have hclose : (p.buffer ++ more).drop (scanned + n) = '>' :: (rest ++ more) := by
        rw [drop_grow more (by omega), hrest, List.cons_append]
      have hparse := hf
      refine (pass_of_head (p.grow more) start tag nameEnd (scanned + n) none).trans ?_
      simp only [headStage, grow_buffer, hclose, scanHead, if_true, Nat.add_zero,
        slice_grow (show scanned + n ≤ p.buffer.length by omega), hparse]
      rfl
    · split
      · exact .again _ _
      · exact bodyStage_grows (Nat.le_refl _) (Nat.le_max_left _ _)

theorem nameStage_grows (h : start + p.opener.length ≤ p.buffer.length) :
    Grows more (p.nameStage start) ((p.grow more).nameStage start) := by
  simp only [nameStage]
  cases hc : p.buffer[start + p.opener.length +
      (TagName.read (p.buffer.drop (start + p.opener.length))).length]? with
  | none => exact .wait _ _ (congrArg Pass.settle (pass_of_naming (p.grow more) start).symm)
  | some c =>
    have hlt := (List.getElem?_eq_some_iff.1 hc).1
    have hread : TagName.read ((p.buffer ++ more).drop (start + p.opener.length)) =
        TagName.read (p.buffer.drop (start + p.opener.length)) := by
      rw [drop_grow more h]
      exact TagName.read_append (by rw [List.length_drop]; omega)
    simp only [grow_opener, grow_buffer, hread, List.getElem?_append_left hlt, hc]
    split
    · exact .again _ _
    · split
      · exact headStage_grows (by omega)
      · exact .again _ _

/-- **A pass over a grown text comes to what it came to before `more` was there, or follows on
    it.** -/
theorem pass_grows (more : List Char) (h : p.InBounds) : Grows more p.pass (p.grow more).pass := by
  obtain ⟨hc, hm⟩ := h
  have hne := p.opener_ne_nil
  cases hmode : p.mode with
  | prose =>
    rw [pass_of_prose hmode]
    cases hf : findFrom p.opener p.buffer p.cursor with
    | none =>
      refine .wait _ _ ?_
      -- in prose the search goes on where an opener may begin that ends in the new text
      have hresume := findFrom_resume more hne hf
        (max p.cursor (p.buffer.length + 1 - p.opener.length)) (by omega) (by omega)
      have hmax : max p.cursor ((p.buffer ++ more).length + 1 - p.opener.length) =
          max (max p.cursor (p.buffer.length + 1 - p.opener.length))
            ((p.buffer ++ more).length + 1 - p.opener.length) := by
        rw [List.length_append]
        omega
      exact pass_cursor_prose (p.grow more) _ hmode hresume hmax
    | some i =>
      rw [pass_of_prose (p := p.grow more) hmode]
      simp only [grow_opener, grow_buffer, grow_cursor, findFrom_grow hne hf]
      exact nameStage_grows (findFrom_bounds hne hf).2
  | naming start =>
    rw [hmode] at hm
    simp only [pass, grow_mode, hmode]
    exact nameStage_grows hm
  | head start tag nameEnd scanned quote =>
    rw [hmode] at hm
    simp only [pass, grow_mode, hmode]
    exact headStage_grows hm.2.2
  | body start tag attrs bodyStart searched =>
    rw [hmode] at hm
    simp only [pass, grow_mode, hmode]
    exact bodyStage_grows hm.2.2.1 hm.2.2.2

end Growth

end Parser

end StagedEdits
