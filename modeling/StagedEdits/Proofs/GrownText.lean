import StagedEdits.Tag.Parser

set_option autoImplicit false

/-! # Reading a text that grows

What the readers of the tag parser do when more text comes behind the text they have read: a hit of
the search stays where it is, a search that found nothing may go on behind what it has seen, the
scan of a head goes on from the quote it stands in, and a name that something stands behind is
finished.

Main statements: `findFrom_grow`, `findFrom_skip`, `scanHead_append`, `TagName.read_append`. -/

namespace StagedEdits

/-! ## Pieces of a grown text -/

/-- Growing a text leaves what stands at an offset inside it. -/
theorem drop_grow {α : Type} {text : List α} {start : Nat} (more : List α)
    (h : start ≤ text.length) : (text ++ more).drop start = text.drop start ++ more :=
  List.drop_append_of_le_length h

/-- Growing a text leaves the part of it that ends inside it. -/
theorem slice_grow {text more : List Char} {start stop : Nat} (h : stop ≤ text.length) :
    slice (text ++ more) start stop = slice text start stop := by
  unfold slice
  rcases Nat.le_total start text.length with hs | hs
  · rw [drop_grow more hs, List.take_append_of_le_length]
    rw [List.length_drop]
    omega
  · have h0 : stop - start = 0 := by omega
    rw [h0, List.take_zero, List.take_zero]

/-! ## Searching -/

section Searching

variable {needle text more : List Char} {start i : Nat}

/-- A needle that ends inside the text before it grew stood there before. -/
theorem isPrefix_of_grown (h : needle <+: (text ++ more).drop i)
    (hi : i + needle.length ≤ text.length) : needle <+: text.drop i := by
  rw [drop_grow more (by omega)] at h
  have hlen : needle.length ≤ (text.drop i).length := by rw [List.length_drop]; omega
  exact List.prefix_of_prefix_length_le h (List.prefix_append _ _) hlen

theorem find_grow (h : find needle text = some i) : find needle (text ++ more) = some i := by
  induction text generalizing i with
  | nil =>
    simp only [find] at h
    split at h
    · rename_i he
      have hn : needle = [] := by simpa using he
      subst hn
      cases more <;> simpa [find] using h
    · simp at h
  | cons c cs ih =>
    simp only [find] at h
    rw [List.cons_append, find]
    split at h
    · rename_i hp
      have hp' : needle <+: c :: (cs ++ more) :=
        (List.isPrefixOf_iff_prefix.1 hp).trans (List.prefix_append (c :: cs) more)
      rw [if_pos (List.isPrefixOf_iff_prefix.2 hp')]
      exact h
    · rename_i hp
      obtain ⟨j, hj, rfl⟩ := Option.map_eq_some_iff.1 h
      -- a needle that starts here and ends in the new text is too long for the hit behind
      have hp' : ¬ needle <+: (c :: cs ++ more).drop 0 := fun hn => by
        have hle := (find_some hj).2
        have := isPrefix_of_grown (i := 0) hn (by simp only [List.length_cons]; omega)
        exact hp (by simpa using this)
      rw [if_neg (by simpa using hp'), ih hj]
      rfl

/-- A hit stays the first one when the text grows. -/
theorem findFrom_grow (hn : needle ≠ []) (h : findFrom needle text start = some i) :
    findFrom needle (text ++ more) start = some i := by
  have hb := findFrom_bounds hn h
  obtain ⟨j, hj, rfl⟩ := Option.map_eq_some_iff.1 h
  unfold findFrom
  rw [drop_grow more (by omega), find_grow hj]
  rfl

/-- A search may leave out an offset where the needle does not stand. -/
theorem findFrom_succ (hn : needle ≠ []) (h : ¬ needle <+: text.drop start) :
    findFrom needle text start = findFrom needle text (start + 1) := by
  unfold findFrom
  cases hd : text.drop start with
  | nil =>
    have hd' : text.drop (start + 1) = [] := by
      rw [← List.drop_drop, hd, List.drop_nil]
    simp [hd', find, hn]
  | cons c cs =>
    have hd' : text.drop (start + 1) = cs := by
      rw [← List.drop_drop, hd, List.drop_succ_cons, List.drop_zero]
    rw [hd] at h
    rw [hd', find, if_neg (by simpa using h), Option.map_map]
    congr 1
    funext k
    simp only [Function.comp_apply]
    omega

/-- A search may leave out offsets where the needle does not stand. -/
theorem findFrom_skip (hn : needle ≠ []) (n : Nat)
    (h : ∀ j, start ≤ j → j < start + n → ¬ needle <+: text.drop j) :
    findFrom needle text start = findFrom needle text (start + n) := by
  induction n with
  | zero => rfl
  | succ n ih =>
    rw [ih fun j h1 h2 => h j h1 (by omega), findFrom_succ hn (h _ (by omega) (by omega))]
    rfl

/-- A search that found nothing goes on, when the text grows, where a needle may still begin that
    ends in the new text. -/
theorem findFrom_resume (more : List Char) (hn : needle ≠ [])
    (h : findFrom needle text start = none) (next : Nat) (h1 : start ≤ next)
    (h2 : next ≤ max start (text.length + 1 - needle.length)) :
    findFrom needle (text ++ more) start = findFrom needle (text ++ more) next := by
  have hnone : find needle (text.drop start) = none := Option.map_eq_none_iff.1 h
  have hlen : 0 < needle.length := List.length_pos_iff.2 hn
  obtain ⟨n, rfl⟩ := Nat.exists_eq_add_of_le h1
  -- a needle at an offset that is left out would have ended in the old text, where there is none
  refine findFrom_skip hn n fun j hj hj' hp => ?_
  have hp' := isPrefix_of_grown hp (by omega)
  obtain ⟨k, rfl⟩ := Nat.exists_eq_add_of_le hj
  refine find_none hnone k ?_
  rwa [List.drop_drop]

end Searching

/-! ## Names -/

/-- A name that something stands behind is not changed by what comes later. -/
theorem TagName.read_append {cs more : List Char} (h : (TagName.read cs).length < cs.length) :
    TagName.read (cs ++ more) = TagName.read cs := by
  cases cs with
  | nil => simp at h
  | cons c cs =>
    simp only [TagName.read, List.cons_append] at h ⊢
    by_cases hc : TagName.isStart c = true
    · rw [if_pos hc] at h ⊢
      rw [if_pos hc, List.takeWhile_append]
      have hne : (cs.takeWhile TagName.isPart).length ≠ cs.length := by
        simp only [List.length_cons] at h
        omega
      rw [if_neg hne]
    · rw [if_neg hc, if_neg hc]

/-! ## Heads -/

namespace Parser

/-- A scan that ends as another one did, `n` characters further on. -/
def HeadScan.shift (n : Nat) : HeadScan → HeadScan
  | .closed k => .closed (k + n)
  | s => s

theorem HeadScan.shift_zero (s : HeadScan) : s.shift 0 = s := by
  cases s <;> rfl

theorem HeadScan.shift_shift (m n : Nat) (s : HeadScan) :
    (s.shift m).shift n = s.shift (m + n) := by
  cases s <;> simp [HeadScan.shift, Nat.add_assoc]

/-- Inside a quote a character is passed over, and the quote may end with it. -/
theorem scanHead_quoted (q c : Char) (cs : List Char) :
    scanHead (some q) (c :: cs) = (scanHead (if c = q then none else some q) cs).shift 1 := by
  simp only [scanHead]
  cases scanHead (if c = q then none else some q) cs <;> rfl

/-- Outside of quotes a character that ends nothing is passed over, and may begin a quote. -/
theorem scanHead_unquoted {c : Char} (h1 : c ≠ '>') (h2 : c ≠ '<') (cs : List Char) :
    scanHead none (c :: cs) =
      (scanHead (if c = '"' || c = '\'' then some c else none) cs).shift 1 := by
  simp only [scanHead, if_neg h1, if_neg h2]
  cases scanHead (if c = '"' || c = '\'' then some c else none) cs <;> rfl

/-- What `more` text does to the scan `s` of one of the length `seen`: if it has not ended it goes
    on in that. -/
def HeadScan.andThen (s : HeadScan) (seen : Nat) (more : List Char) : HeadScan :=
  match s with
  | .more quote => (scanHead quote more).shift seen
  | s => s

theorem HeadScan.andThen_shift (s : HeadScan) (seen n : Nat) (more : List Char) :
    (s.shift n).andThen (seen + n) more = (s.andThen seen more).shift n := by
  cases s with
  | more quote => exact (HeadScan.shift_shift seen n _).symm
  | _ => rfl

/-- The scan of a text goes on behind it from the quote it ended in. -/
theorem scanHead_append (quote : Option Char) (cs more : List Char) :
    scanHead quote (cs ++ more) = (scanHead quote cs).andThen cs.length more := by
  induction cs generalizing quote with
  | nil =>
    cases quote <;> exact (HeadScan.shift_zero _).symm
  | cons c cs ih =>
    rw [List.length_cons, List.cons_append]
    cases quote with
    | some q => rw [scanHead_quoted, scanHead_quoted, ih, HeadScan.andThen_shift]
    | none =>
      by_cases hgt : c = '>'
      · simp only [scanHead, if_pos hgt, HeadScan.andThen]
      · by_cases hlt : c = '<'
        · simp only [scanHead, if_neg hgt, if_pos hlt, HeadScan.andThen]
        · rw [scanHead_unquoted hgt hlt, scanHead_unquoted hgt hlt, ih, HeadScan.andThen_shift]

/-- A head is closed where a `>` stands. -/
theorem scanHead_closed {quote : Option Char} {cs : List Char} {n : Nat}
    (h : scanHead quote cs = .closed n) : ∃ rest, cs.drop n = '>' :: rest := by
  induction cs generalizing quote n with
  | nil => cases quote <;> simp [scanHead] at h
  | cons c cs ih =>
    -- a character that is passed over only moves the end of the head one further on
    have behind : ∀ q, (scanHead q cs).shift 1 = .closed n →
        ∃ rest, (c :: cs).drop n = '>' :: rest := by
      intro q hq
      cases hs : scanHead q cs with
      | closed k =>
        rw [hs] at hq
        simp only [HeadScan.shift, HeadScan.closed.injEq] at hq
        subst hq
        simpa using ih hs
      | prose => rw [hs] at hq; simp [HeadScan.shift] at hq
      | more q' => rw [hs] at hq; simp [HeadScan.shift] at hq
    cases quote with
    | some q => exact behind _ ((scanHead_quoted q c cs).symm.trans h)
    | none =>
      by_cases hgt : c = '>'
      · simp only [scanHead, if_pos hgt, HeadScan.closed.injEq] at h
        subst h
        exact ⟨cs, by rw [hgt, List.drop_zero]⟩
      · by_cases hlt : c = '<'
        · simp only [scanHead, if_neg hgt, if_pos hlt] at h
          simp at h
        · exact behind _ ((scanHead_unquoted hgt hlt cs).symm.trans h)

/-- A head is closed inside the text. -/
theorem scanHead_closed_lt {quote : Option Char} {cs : List Char} {n : Nat}
    (h : scanHead quote cs = .closed n) : n < cs.length := by
  obtain ⟨rest, hr⟩ := scanHead_closed h
  refine Nat.lt_of_not_le fun hle => ?_
  rw [List.drop_eq_nil_of_le hle] at hr
  simp at hr

end Parser

end StagedEdits
