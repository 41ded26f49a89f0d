import Mathlib.Data.List.Basic
import Mathlib.Data.List.TakeWhile
import StagedEdits.Proofs.PathGuard
import StagedEdits.Proofs.TagGrammar

set_option autoImplicit false

/-! # The text of a file in the body of a write

A text comes back from the body it was put into. In a fence it does if it ends with a line feed and
is more than that. As it is, behind a line break, it does just if its last line is not blank and its
lines do not look fenced themselves. A line feed at the end of a text begins no line.

Main definitions: `fencedLines`, `fileLines`, `BodyLike`. Main statements:
`bodyContent_fencedLines`, `bodyContent_eq_self_iff`, `write_body_round_trip`. -/

namespace StagedEdits

/-- The text `text` in a fence, with `info` behind the mark that opens it. -/
def fencedLines (info text : List Char) : List Char :=
  fenceMark ++ info ++ '\n' :: (text ++ fenceMark ++ ['\n'])

/-- The text `text` without the line feed at its end, if there is one. -/
def withoutFinalBreak (text : List Char) : List Char :=
  if text.getLast? = some '\n' then text.dropLast else text

/-- The lines of `text`. -/
def fileLines (text : List Char) : List (List Char) :=
  splitOnChar '\n' (withoutFinalBreak text)

/-- Whether `line` begins with the mark of a fence, behind blanks. -/
def marksFence (line : List Char) : Bool := fenceMark.isPrefixOf (trimStart line)

/-- That `text` can be the body of a write as it is: its last line is not blank, and it is the only
    one or one of the two lines at the ends does not mark a fence. -/
structure BodyLike (text : List Char) : Prop where
  last : allBlank ((fileLines text).getLastD []) = false
  unfenced : (fileLines text).length = 1 ∨
    ¬(marksFence ((fileLines text).headD []) ∧ marksFence ((fileLines text).getLastD []))

/-! ## Dropping at the end -/

section Dropping

variable {α : Type} {p : α → Bool} {xs ys : List α}

/-- Of two pieces the first is cut only if nothing remains of the second. -/
theorem dropEndWhile_append :
    dropEndWhile p (xs ++ ys) =
      if (dropEndWhile p ys).isEmpty then dropEndWhile p xs else xs ++ dropEndWhile p ys := by
  rw [dropEndWhile, dropEndWhile, dropEndWhile, List.reverse_append, List.dropWhile_append]
  cases hys : ys.reverse.dropWhile p <;> simp

theorem dropEndWhile_eq_nil_iff : dropEndWhile p xs = [] ↔ ∀ x ∈ xs, p x = true := by
  rw [dropEndWhile, List.reverse_eq_nil_iff, List.dropWhile_eq_nil_iff]
  simp

end Dropping

theorem ne_nil_of_allBlank {line : List Char} (h : allBlank line = false) : line ≠ [] := by
  rintro rfl
  exact Bool.noConfusion h

/-! ## Fences -/

section Fences

variable {line : List Char} {lines : List (List Char)}

/-- Blanks behind a line do not matter for the mark. -/
theorem isPrefixOf_trim : fenceMark.isPrefixOf (trim line) = marksFence line := by
  rw [marksFence, Bool.eq_iff_iff, List.isPrefixOf_iff_prefix, List.isPrefixOf_iff_prefix]
  refine ⟨fun h => h.trans (trimEnd_isPrefix _), ?_⟩
  rintro ⟨more, hmore⟩
  have hmark : dropEndWhile isBlank fenceMark = fenceMark := by decide
  rw [trim, ← hmore, trimEnd, dropEndWhile_append, hmark]
  split
  · exact List.prefix_refl _
  · exact List.prefix_append _ _

theorem isFenced_iff :
    isFenced lines = true ↔
      lines.length ≠ 1 ∧ marksFence (lines.headD []) ∧ marksFence (lines.getLastD []) := by
  match lines with
  | [] => decide
  | [line] => simp [isFenced]
  | first :: second :: more =>
    rw [isFenced, isPrefixOf_trim, Bool.and_eq_true]
    simp [marksFence, List.getLastD_eq_getLast?, List.getLast?_eq_some_getLast]

/-- The line that opens a fence. -/
theorem marksFence_opening (info : List Char) : marksFence (fenceMark ++ info) = true := by
  have hstart : trimStart (fenceMark ++ info) = fenceMark ++ info := rfl
  rw [marksFence, hstart, List.isPrefixOf_iff_prefix]
  exact List.prefix_append _ _

end Fences

/-! ## Lines that end with text -/

/-- That `lines` hold no line feed and the last of them is not blank. -/
structure Filled (lines : List (List Char)) : Prop where
  breaks : ∀ line ∈ lines, '\n' ∉ line
  last : allBlank (lines.getLastD []) = false

namespace Filled

variable {lines : List (List Char)} {text : List Char}

theorem ne_nil (h : Filled lines) : lines ≠ [] := by
  rintro rfl
  exact Bool.noConfusion h.last

theorem cut (h : Filled lines) :
    ∃ front line, lines = front ++ [line] ∧ '\n' ∉ line ∧ allBlank line = false := by
  obtain ⟨front, line, rfl⟩ := (List.eq_nil_or_concat' lines).resolve_left h.ne_nil
  exact ⟨front, line, rfl, h.breaks line (List.mem_append_right _ List.mem_cons_self),
    by simpa using h.last⟩

/-- Filled lines joined end with a line that is not blank. -/
theorem joined (h : Filled lines) :
    ∃ lead line, joinWith '\n' lines = lead ++ line ∧ '\n' ∉ line ∧ allBlank line = false := by
  obtain ⟨front, line, rfl, hbreaks, hlast⟩ := h.cut
  cases front with
  | nil => exact ⟨[], line, rfl, hbreaks, hlast⟩
  | cons w ws =>
    refine ⟨joinWith '\n' (w :: ws) ++ ['\n'], line, ?_, hbreaks, hlast⟩
    rw [joinWith_concat (List.cons_ne_nil w ws), List.append_assoc]
    rfl

theorem joined_ne_nil (h : Filled lines) : joinWith '\n' lines ≠ [] := by
  obtain ⟨lead, line, hjoin, -, hline⟩ := h.joined
  rw [hjoin]
  exact List.append_ne_nil_of_right_ne_nil lead (ne_nil_of_allBlank hline)

/-- Blanks at the end of filled lines stand behind some text of the last one. -/
theorem endsItsLine_joined (h : Filled lines) : endsItsLine (joinWith '\n' lines) = false := by
  obtain ⟨lead, line, hjoin, hbreak, hline⟩ := h.joined
  let q : Char → Bool := fun c => c == ' ' || c == '\t' || c == '\r'
  have hblank (c : Char) (hc : q c = true) : isBlank c = true := by
    simp only [q, Bool.or_eq_true, beq_iff_eq] at hc
    rcases hc with (rfl | rfl) | rfl <;> rfl
  have hrest : dropEndWhile q line ≠ [] := fun hnil => by
    have hall : allBlank line = true :=
      List.all_eq_true.2 fun c hc => hblank c (dropEndWhile_eq_nil_iff.1 hnil c hc)
    exact Bool.noConfusion (hall.symm.trans hline)
  obtain ⟨c, hc⟩ := Option.ne_none_iff_exists'.1 (mt List.getLast?_eq_none_iff.1 hrest)
  have hmem : c ∈ line := (dropEndWhile_isPrefix q line).subset (List.mem_of_getLast? hc)
  have hne : c ≠ '\n' := fun e => hbreak (e ▸ hmem)
  have hend : (dropEndWhile q (joinWith '\n' lines)).getLast? = some c := by
    rw [hjoin, dropEndWhile_append, if_neg (by simpa using hrest), List.getLast?_append, hc]
    rfl
  show ((dropEndWhile q (joinWith '\n' lines)).getLast? == some '\n') = false
  rw [hend]
  simpa using hne

theorem getLast?_joined (h : Filled lines) : (joinWith '\n' lines).getLast? ≠ some '\n' := by
  intro hend
  have hnot := h.endsItsLine_joined
  rw [endsItsLine, dropEndWhile_of_getLast? hend rfl, hend] at hnot
  exact Bool.noConfusion hnot

/-- The lines of a text made of filled lines, with a line feed at its end or without. -/
theorem fileLines_eq (h : Filled lines)
    (ht : text = joinWith '\n' lines ∨ text = joinWith '\n' lines ++ ['\n']) :
    fileLines text = lines := by
  have hcut : withoutFinalBreak text = joinWith '\n' lines := by
    rcases ht with rfl | rfl
    · rw [withoutFinalBreak, if_neg h.getLast?_joined]
    · rw [withoutFinalBreak, if_pos (by simp), List.dropLast_concat]
  rw [fileLines, hcut, splitOnChar_joinWith h.ne_nil h.breaks]

end Filled

theorem filled_of_split {lines : List (List Char)} {text : List Char}
    (hsplit : lines ⊆ splitOnChar '\n' text) (hlast : allBlank (lines.getLastD []) = false) :
    Filled lines where
  breaks line hline hmem := by
    simpa using (mem_of_mem_splitWhere (hsplit hline) hmem).2
  last := hlast

/-! ## The lines that are kept -/

/-- The lines of `text` up to the last one that is not blank. -/
def keptLines (text : List Char) : List (List Char) :=
  dropEndWhile allBlank (splitOnChar '\n' text)

section Kept

variable {text : List Char} {lines : List (List Char)}

theorem keptLines_filled (h : keptLines text ≠ []) : Filled (keptLines text) := by
  refine filled_of_split (dropEndWhile_isPrefix allBlank _).subset ?_
  obtain ⟨line, hline⟩ := Option.ne_none_iff_exists'.1 (mt List.getLast?_eq_none_iff.1 h)
  rw [List.getLastD_eq_getLast?, hline]
  exact getLast?_dropEndWhile hline

/-- Filled lines are all kept. -/
theorem Filled.keptLines_eq (h : Filled lines)
    (ht : text = joinWith '\n' lines ∨ text = joinWith '\n' lines ++ ['\n']) :
    keptLines text = lines := by
  obtain ⟨front, line, rfl, -, hline⟩ := h.cut
  have hkept : dropEndWhile allBlank (front ++ [line]) = front ++ [line] :=
    dropEndWhile_concat_of_neg front hline
  rcases ht with rfl | rfl
  · rw [keptLines, splitOnChar_joinWith h.ne_nil h.breaks, hkept]
  · rw [keptLines, splitOnChar_append_cons, splitOnChar_joinWith h.ne_nil h.breaks]
    exact (dropEndWhile_concat_of_pos _ rfl).trans hkept

/-- A text is its lines, with a line feed at its end or without. -/
theorem eq_join_fileLines (text : List Char) :
    text = joinWith '\n' (fileLines text) ∨ text = joinWith '\n' (fileLines text) ++ ['\n'] := by
  rw [fileLines, joinWith_splitOnChar, withoutFinalBreak]
  split
  · next hend =>
    obtain ⟨front, rfl⟩ := List.getLast?_eq_some_iff.1 hend
    exact .inr (by rw [List.dropLast_concat])
  · exact .inl rfl

end Kept

/-! ## What becomes of a body -/

section Content

variable {text : List Char} {lines : List (List Char)}

theorem bodyContent_of_fenced (h : isFenced (keptLines text) = true) :
    bodyContent ('\n' :: text) =
      if joinWith '\n' (keptLines text).tail.dropLast = [] then []
      else joinWith '\n' (keptLines text).tail.dropLast ++ ['\n'] := by
  have hcut : dropEndWhile allBlank (splitOnChar '\n' text) = keptLines text := rfl
  rw [bodyContent, dropOpeningBreak, hcut, h]
  cases hinner : joinWith '\n' (keptLines text).tail.dropLast <;> simp [hinner]

theorem bodyContent_of_unfenced (h : isFenced (keptLines text) = false) :
    bodyContent ('\n' :: text) =
      if endsItsLine text ∧ joinWith '\n' (keptLines text) ≠ [] then
        joinWith '\n' (keptLines text) ++ ['\n']
      else joinWith '\n' (keptLines text) := by
  have hcut : dropEndWhile allBlank (splitOnChar '\n' text) = keptLines text := rfl
  rw [bodyContent, dropOpeningBreak, hcut, h]
  simp

/-- A text of filled lines that are not fenced is its own body. -/
theorem Filled.bodyContent_eq (h : Filled lines) (hfence : isFenced lines = false)
    (ht : text = joinWith '\n' lines ∨ text = joinWith '\n' lines ++ ['\n']) :
    bodyContent ('\n' :: text) = text := by
  have hkept : keptLines text = lines := h.keptLines_eq ht
  rw [bodyContent_of_unfenced (hkept.symm ▸ hfence), hkept]
  rcases ht with rfl | rfl
  · rw [if_neg fun hend => Bool.noConfusion (h.endsItsLine_joined.symm.trans hend.1)]
  · have hend : endsItsLine (joinWith '\n' lines ++ ['\n']) = true := by
      rw [endsItsLine, dropEndWhile_concat_of_neg _ rfl, List.getLast?_concat]
      rfl
    rw [if_pos ⟨hend, h.joined_ne_nil⟩]

/-- A text that looks fenced loses its first and its last line. -/
theorem length_bodyContent_lt (hfence : isFenced (keptLines text) = true) :
    (bodyContent ('\n' :: text)).length < text.length := by
  obtain ⟨hone, -, hmark⟩ := isFenced_iff.1 hfence
  have hne : keptLines text ≠ [] := fun hnil => by
    rw [hnil] at hmark
    exact Bool.noConfusion hmark
  obtain ⟨front, line, hkept, -, hline⟩ := (keptLines_filled hne).cut
  have hpos : 0 < line.length := List.length_pos_iff.2 (ne_nil_of_allBlank hline)
  obtain ⟨first, inner, rfl⟩ : ∃ first inner, front = first :: inner :=
    List.exists_cons_of_ne_nil fun hnil => hone (by rw [hkept, hnil]; rfl)
  have hinner : (keptLines text).tail.dropLast = inner := by
    rw [hkept, List.cons_append, List.tail_cons, List.dropLast_concat]
  have hresult : (bodyContent ('\n' :: text)).length ≤ (joinWith '\n' inner).length + 1 := by
    rw [bodyContent_of_fenced hfence, hinner]
    split
    · exact Nat.zero_le _
    · rw [List.length_append, List.length_singleton]
  have hjoin : (joinWith '\n' (keptLines text)).length =
      (joinWith '\n' (first :: inner)).length + 1 + line.length := by
    rw [hkept, joinWith_concat (List.cons_ne_nil first inner), List.length_append,
      List.length_cons, Nat.add_right_comm, Nat.add_assoc]
  have hless : (joinWith '\n' inner).length ≤ (joinWith '\n' (first :: inner)).length :=
    (joinWith_sublist (List.sublist_cons_self first inner)).length_le
  have hall : (joinWith '\n' (keptLines text)).length ≤ text.length := by
    have hsub := @joinWith_sublist '\n' _ _
      (dropEndWhile_isPrefix allBlank (splitOnChar '\n' text)).sublist
    rw [joinWith_splitOnChar] at hsub
    exact hsub.length_le
  omega

/-- **A text comes back as it is just if it is like a body**, or is empty: `bodyContent` gives
    `text` again. -/
theorem bodyContent_eq_self_iff (text : List Char) :
    bodyContent ('\n' :: text) = text ↔ text = [] ∨ BodyLike text := by
  constructor
  · intro hsame
    have hfence : isFenced (keptLines text) = false := by
      refine Bool.eq_false_iff.2 fun hfence => ?_
      have hlt := length_bodyContent_lt hfence
      rw [hsame] at hlt
      exact Nat.lt_irrefl _ hlt
    have hjoin : text = joinWith '\n' (keptLines text) ∨
        text = joinWith '\n' (keptLines text) ++ ['\n'] := by
      rw [bodyContent_of_unfenced hfence] at hsame
      split at hsame
      · exact .inr hsame.symm
      · exact .inl hsame.symm
    by_cases hne : keptLines text = []
    · left
      rw [← hsame, bodyContent_of_unfenced hfence, hne]
      exact if_neg fun h => h.2 rfl
    · right
      have hfilled := keptLines_filled hne
      have hlines := hfilled.fileLines_eq hjoin
      refine ⟨hlines ▸ hfilled.last, ?_⟩
      rw [hlines]
      by_cases hone : (keptLines text).length = 1
      · exact .inl hone
      · right
        intro hmarks
        exact Bool.noConfusion (hfence.symm.trans (isFenced_iff.2 ⟨hone, hmarks⟩))
  · rintro (rfl | hbody)
    · rfl
    · have hfilled : Filled (fileLines text) :=
        filled_of_split (List.Subset.refl _) hbody.last
      refine hfilled.bodyContent_eq ?_ (eq_join_fileLines text)
      rw [← Bool.not_eq_true, isFenced_iff]
      rintro ⟨hone, hmarks⟩
      exact hbody.unfenced.elim hone fun h => h hmarks

/-- A form feed at the end is blank, and takes the line feed before it along. -/
example : bodyContent ['\n', 'a', '\n', '\u000C'] = ['a'] := by decide

/-- **What comes back from a fence** with `info` behind its opening: the text and its line feed, or
    nothing if the text is empty. -/
theorem bodyContent_fencedLines {info : List Char} (hinfo : '\n' ∉ info) (text : List Char) :
    bodyContent ('\n' :: fencedLines info (text ++ ['\n'])) =
      if text = [] then [] else text ++ ['\n'] := by
  have hmark : '\n' ∉ fenceMark := by decide
  have hopening : '\n' ∉ fenceMark ++ info := fun hmem =>
    (List.mem_append.1 hmem).elim hmark hinfo
  -- the lines are the opening one, those of the text, the closing one, and an empty one
  have hsplit : splitOnChar '\n' (fencedLines info (text ++ ['\n'])) =
      ((fenceMark ++ info) :: splitOnChar '\n' text) ++ [fenceMark] ++ [[]] := by
    have hbehind : text ++ ['\n'] ++ fenceMark ++ ['\n'] =
        text ++ '\n' :: (fenceMark ++ '\n' :: []) := by
      rw [List.append_assoc, List.append_assoc]
      rfl
    rw [fencedLines, splitOnChar_append hopening, hbehind, splitOnChar_append_cons,
      splitOnChar_append hmark, List.append_assoc]
    rfl
  have hkept : keptLines (fencedLines info (text ++ ['\n'])) =
      ((fenceMark ++ info) :: splitOnChar '\n' text) ++ [fenceMark] := by
    rw [keptLines, hsplit, dropEndWhile_concat_of_pos _ rfl]
    exact dropEndWhile_concat_of_neg _ (by decide)
  have hfence : isFenced (keptLines (fencedLines info (text ++ ['\n']))) = true := by
    rw [hkept, isFenced_iff, List.getLastD_eq_getLast?, List.getLast?_concat]
    exact ⟨by simp, marksFence_opening info, by decide⟩
  have hinner : (keptLines (fencedLines info (text ++ ['\n']))).tail.dropLast =
      splitOnChar '\n' text := by
    rw [hkept, List.cons_append, List.tail_cons, List.dropLast_concat]
  rw [bodyContent_of_fenced hfence, hinner, joinWith_splitOnChar]

/-- **The text of a file comes back from the body of a write.** A `text` that ends with a line
    feed comes back from a fence, whatever `info` stands behind the mark that opens it, unless
    the line feed is all of the text. Behind a line break a text comes back by `bodyContent` as
    it is just if it is empty, or it is `BodyLike`: its last line is not blank and its lines do
    not look fenced. -/
theorem write_body_round_trip (text : List Char) :
    (text.getLast? = some '\n' → ∀ info, '\n' ∉ info →
      (bodyContent ('\n' :: fencedLines info text) = text ↔ text ≠ ['\n'])) ∧
    (bodyContent ('\n' :: text) = text ↔ text = [] ∨ BodyLike text) := by
  refine ⟨fun hend info hinfo => ?_, bodyContent_eq_self_iff text⟩
  obtain ⟨front, rfl⟩ := List.getLast?_eq_some_iff.1 hend
  rw [bodyContent_fencedLines hinfo]
  cases front with
  | nil => decide
  | cons c cs => simp

end Content

end StagedEdits
