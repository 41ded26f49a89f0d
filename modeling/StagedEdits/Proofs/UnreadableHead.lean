import StagedEdits.Proofs.ParserGrowth

set_option autoImplicit false

/-! # Heads that cannot be read

A character reference of too many digits is not read at all, and neither are the attributes of the
head it stands in. The name in front of a head is read up to the first character that may follow it.

Main statements: `expandRefs_of_long`, `parseAttributes_of_unreadable`,
`Parser.nameStage_of_read`. -/

namespace StagedEdits

/-! ## The reference -/

/-- A reference of too many digits is not read. -/
theorem readRef_of_long {cs : List Char}
    (h : maxDigits < (cs.takeWhile isAsciiDigit).length) :
    readRef ('#' :: cs) = .error (.tooLong (cs.takeWhile isAsciiDigit).length) := by
  have hne : (!(cs.takeWhile isAsciiDigit).isEmpty) = true := by
    cases hd : cs.takeWhile isAsciiDigit with
    | nil => rw [hd] at h; exact absurd h (Nat.not_lt_zero _)
    | cons d ds => rfl
  simp only [readRef, hne, if_true, readDigits, if_pos h]
  rfl

/-- A text that starts with such a reference is not read. -/
theorem expandRefs_of_long {cs : List Char}
    (h : maxDigits < (cs.takeWhile isAsciiDigit).length) :
    expandRefs ('&' :: '#' :: cs) = .error (.tooLong (cs.takeWhile isAsciiDigit).length) := by
  rw [expandRefs, readRef_of_long h]

/-! ## The attribute -/

/-- An attribute in quotes is read up to the quote that closes it. -/
theorem readAttribute_of_quoted {c q : Char} {name value rest : List Char}
    (hc : isNameStart c = true) (hname : ∀ d ∈ name, isNameChar d = true)
    (hq : (q == '"' || q == '\'') = true) (hvalue : q ∉ value) :
    readAttribute (c :: (name ++ '=' :: q :: (value ++ q :: rest))) =
      some (c :: name, value, rest) := by
  have hblank : isBlank q = false := by
    rcases Bool.or_eq_true _ _ |>.mp hq with h | h <;> rw [eq_of_beq h] <;> rfl
  have hstop : isNameChar '=' = false := by decide
  have heq : isBlank '=' = false := by decide
  have hin : ∀ d ∈ value, (d != q) = true := fun d hd => by
    simpa using fun e : d = q => hvalue (e ▸ hd)
  -- the name ends at the equals sign, the value at its quote, and no blank is in between
  have hname' : (name ++ '=' :: q :: (value ++ q :: rest)).dropWhile isNameChar =
      '=' :: q :: (value ++ q :: rest) := by
    rw [List.dropWhile_append_of_pos hname, List.dropWhile_cons_of_neg (by simp [hstop])]
  have hnames : (name ++ '=' :: q :: (value ++ q :: rest)).takeWhile isNameChar = name := by
    rw [List.takeWhile_append_of_pos hname, List.takeWhile_cons_of_neg (by simp [hstop]),
      List.append_nil]
  have hbehind : (value ++ q :: rest).dropWhile (· != q) = q :: rest := by
    rw [List.dropWhile_append_of_pos hin, List.dropWhile_cons_of_neg (by simp)]
  have hvalues : (value ++ q :: rest).takeWhile (· != q) = value := by
    rw [List.takeWhile_append_of_pos hin, List.takeWhile_cons_of_neg (by simp), List.append_nil]
  simp only [readAttribute, if_pos hc, hname', hnames,
    List.dropWhile_cons_of_neg (p := isBlank) (a := '=') (by simp [heq]),
    List.dropWhile_cons_of_neg (p := isBlank) (a := q) (by simp [hblank]), if_pos hq, hbehind,
    hvalues]

/-- What an attribute stands in front of is read on behind it. -/
theorem rawAttributes_of_some {cs name value rest : List Char}
    (h : readAttribute cs = some (name, value, rest)) :
    rawAttributes cs = (name, value) :: rawAttributes rest := by
  cases cs with
  | nil => simp [readAttribute] at h
  | cons c cs =>
    rw [rawAttributes]
    split <;> rename_i hr <;> rw [h] at hr <;> cases hr
    rfl

/-- What starts no attribute is passed over. -/
theorem rawAttributes_cons_of_none {c : Char} {cs : List Char}
    (h : readAttribute (c :: cs) = none) : rawAttributes (c :: cs) = rawAttributes cs := by
  rw [rawAttributes]
  split
  · rename_i hr
    rw [h] at hr
    cases hr
  · rfl

/-- A head is not read if its first attribute holds a reference that is not. -/
theorem parseAttributes_of_unreadable {cs name value rest : List Char} {f : NumberFault}
    (h : readAttribute cs = some (name, value, rest)) (hv : expandRefs value = .error f) :
    parseAttributes cs = .error f := by
  rw [parseAttributes, rawAttributes_of_some h, List.mapM_cons, hv]
  rfl

theorem parseAttributes_cons {c : Char} {cs : List Char} (h : readAttribute (c :: cs) = none) :
    parseAttributes (c :: cs) = parseAttributes cs := by
  rw [parseAttributes, rawAttributes_cons_of_none h, ← parseAttributes]

/-! ## The end of a head -/

theorem dropEndWhile_concat_of_neg {α : Type} {p : α → Bool} {x : α} (xs : List α)
    (h : p x = false) : dropEndWhile p (xs ++ [x]) = xs ++ [x] := by
  simp [dropEndWhile, h]

theorem dropEndWhile_concat_of_pos {α : Type} {p : α → Bool} {x : α} (xs : List α)
    (h : p x = true) : dropEndWhile p (xs ++ [x]) = dropEndWhile p xs := by
  simp [dropEndWhile, h]

/-! ## The pass -/

namespace TagName

/-- Whether `c` may stand right behind the name of a tag. -/
def isEnd (c : Char) : Bool := isBlank c || c == '/' || c == '>'

theorem isEnd_of_isBlank {c : Char} (h : isBlank c = true) : isEnd c = true := by
  rw [isEnd, h, Bool.true_or, Bool.true_or]

/-- A blank is no part of a name. -/
theorem isPart_of_isBlank {c : Char} (h : isBlank c = true) : isPart c = false := by
  cases hp : isPart c with
  | false => rfl
  | true =>
    simp only [isPart, isStart, Bool.or_eq_true, Bool.and_eq_true, decide_eq_true_eq,
      beq_iff_eq] at hp
    simp only [isBlank, Bool.or_eq_true, Bool.and_eq_true, decide_eq_true_eq, beq_iff_eq] at h
    rcases hp with hp | rfl
    · omega
    · revert h
      decide

/-- What may stand behind a name is no part of it. -/
theorem isPart_of_isEnd {c : Char} (h : isEnd c = true) : isPart c = false := by
  simp only [isEnd, Bool.or_eq_true, beq_iff_eq] at h
  rcases h with (h | rfl) | rfl
  · exact isPart_of_isBlank h
  · decide
  · decide

theorem text_eq_cons (tag : TagName) : ∃ c cs, tag.text.toList = c :: cs ∧ isStart c = true := by
  cases tag <;> exact ⟨_, _, rfl, by decide⟩

theorem text_isPart (tag : TagName) : ∀ c ∈ tag.text.toList, isPart c = true := by
  have hall : tag.text.toList.all isPart = true := by cases tag <;> decide
  exact List.all_eq_true.1 hall

/-- A known name that does not go on is read. -/
theorem read_text (tag : TagName) {c : Char} (hpart : isPart c = false) (cs : List Char) :
    read (tag.text.toList ++ c :: cs) = tag.text.toList := by
  have hall := tag.text_isPart
  obtain ⟨d, ds, htext, hstart⟩ := tag.text_eq_cons
  rw [htext] at hall ⊢
  simp only [List.cons_append, read, if_pos hstart]
  rw [List.takeWhile_append_of_pos fun x hx => hall x (List.mem_cons_of_mem d hx),
    List.takeWhile_cons_of_neg (by simp [hpart]), List.append_nil]

theorem ofChars?_text (tag : TagName) : ofChars? tag.text.toList = some tag := by
  cases tag <;> decide

end TagName

/-- A needle is hit at once where it stands. -/
theorem find_prefix {needle : List Char} (hn : needle ≠ []) (rest : List Char) :
    find needle (needle ++ rest) = some 0 := by
  cases needle with
  | nil => exact absurd rfl hn
  | cons c cs =>
    rw [List.cons_append, find]
    exact if_pos (List.isPrefixOf_iff_prefix.2 (List.prefix_append (c :: cs) rest))

namespace Parser

/-- A quoted value is passed over up to the quote that closes it. -/
theorem scanHead_of_quoted {q : Char} {value : List Char} (h : q ∉ value) (rest : List Char) :
    scanHead (some q) (value ++ q :: rest) = (scanHead none rest).shift (value.length + 1) := by
  induction value with
  | nil => rw [List.nil_append, scanHead_quoted, if_pos rfl]; rfl
  | cons c value ih =>
    have hc : c ≠ q := fun e => h (by simp [e])
    rw [List.cons_append, scanHead_quoted, if_neg hc, ih fun e => h (List.mem_cons_of_mem c e),
      HeadScan.shift_shift]
    rfl

/-- Behind an opener a name is read, and what follows it decides: a known name with an end behind it
    has a head, any other is prose. -/
theorem nameStage_of_read {p : Parser} {start : Nat} {name cs : List Char} {c : Char}
    (hdrop : p.buffer.drop start = p.opener ++ (name ++ c :: cs))
    (hread : TagName.read (name ++ c :: cs) = name) :
    let nameEnd := start + p.opener.length + name.length
    p.nameStage start =
        (match TagName.ofChars? name with
          | none => .again (p.resume (start + 1)) none
          | some tag =>
            if TagName.isEnd c then p.headStage start tag nameEnd nameEnd none
            else .again (p.resume (start + 1)) none) ∧
      p.buffer.drop nameEnd = c :: cs := by
  intro nameEnd
  have hname : p.buffer.drop (start + p.opener.length) = name ++ c :: cs := by
    rw [← List.drop_drop, hdrop, List.drop_left]
  have hhead : p.buffer.drop nameEnd = c :: cs := by
    rw [← List.drop_drop, hname, List.drop_left]
  have hchar : p.buffer[nameEnd]? = some c := by
    rw [← List.head?_drop, hhead]
    rfl
  refine ⟨?_, hhead⟩
  simp only [nameStage, hname, hread]
  rw [hchar]
  rfl

/-- Behind an opener and a known name the head is read. -/
theorem nameStage_of_name {p : Parser} {start : Nat} {tag : TagName} {c : Char} {cs : List Char}
    (hdrop : p.buffer.drop start = p.opener ++ (tag.text.toList ++ c :: cs))
    (hend : TagName.isEnd c = true) :
    let nameEnd := start + p.opener.length + tag.text.toList.length
    p.nameStage start = p.headStage start tag nameEnd nameEnd none ∧
      p.buffer.drop nameEnd = c :: cs := by
  obtain ⟨hstage, hhead⟩ := nameStage_of_read hdrop
    (tag.read_text (TagName.isPart_of_isEnd hend) cs)
  simp only [TagName.ofChars?_text, if_pos hend] at hstage
  exact ⟨hstage, hhead⟩

end Parser

end StagedEdits
