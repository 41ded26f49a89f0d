import StagedEdits.Path.FilePath
import StagedEdits.Path.Guard

set_option autoImplicit false

/-! # Paths that passed the guard

A path that the guard lets through is a relative path of one name or more, each of which names
something, and none of which holds a slash or a NUL. Such a path is told by its names.

Main definition: `Normalized`. Main statements: `Normalized.names`, `Normalized.eq_of_names`. -/

namespace StagedEdits

/-! ## Splitting and joining -/

section Splitting

theorem mem_of_mem_splitWhere {p : Char → Bool} {cs w : List Char} (h : w ∈ splitWhere p cs) {c : Char}
    (hc : c ∈ w) : c ∈ cs ∧ p c = false := by
  induction cs generalizing w with
  | nil =>
    simp only [splitWhere, List.mem_singleton] at h
    subst h
    cases hc
  | cons a cs ih =>
    simp only [splitWhere] at h
    split at h
    · rcases List.mem_cons.1 h with rfl | h
      · cases hc
      · obtain ⟨hmem, hp⟩ := ih h hc
        exact ⟨List.mem_cons_of_mem a hmem, hp⟩
    · rename_i hpa
      obtain ⟨v, vs, hv⟩ := List.exists_cons_of_ne_nil (splitWhere_ne_nil p cs)
      rw [hv] at h ih
      rcases List.mem_cons.1 h with rfl | h
      · rcases List.mem_cons.1 hc with rfl | hc
        · exact ⟨List.mem_cons_self, by simpa using hpa⟩
        · obtain ⟨hmem, hp⟩ := ih List.mem_cons_self hc
          exact ⟨List.mem_cons_of_mem a hmem, hp⟩
      · obtain ⟨hmem, hp⟩ := ih (List.mem_cons_of_mem v h) hc
        exact ⟨List.mem_cons_of_mem a hmem, hp⟩

variable {sep : Char}

theorem splitOnChar_append {w : List Char} (hw : sep ∉ w) (cs : List Char) :
    splitOnChar sep (w ++ sep :: cs) = w :: splitOnChar sep cs := by
  unfold splitOnChar
  induction w with
  | nil => simp [splitWhere]
  | cons a w ih =>
    obtain ⟨ha, hw⟩ := not_or.1 (fun h => hw (List.mem_cons.2 h))
    have hne : (a == sep) = false := by simpa using fun h => ha h.symm
    simp only [List.cons_append, splitWhere, hne, Bool.false_eq_true, if_false, ih hw]

theorem splitOnChar_of_not_mem {w : List Char} (hw : sep ∉ w) : splitOnChar sep w = [w] := by
  unfold splitOnChar
  induction w with
  | nil => rfl
  | cons a w ih =>
    obtain ⟨ha, hw⟩ := not_or.1 (fun h => hw (List.mem_cons.2 h))
    have hne : (a == sep) = false := by simpa using fun h => ha h.symm
    simp only [splitWhere, hne, Bool.false_eq_true, if_false, ih hw]

/-- Cutting pieces that were joined gives the pieces back, if none of them holds the character. -/
theorem splitOnChar_joinWith {ws : List (List Char)} (hne : ws ≠ []) (h : ∀ w ∈ ws, sep ∉ w) :
    splitOnChar sep (joinWith sep ws) = ws := by
  induction ws with
  | nil => exact absurd rfl hne
  | cons w ws ih =>
    have hw : sep ∉ w := h w List.mem_cons_self
    cases ws with
    | nil => exact splitOnChar_of_not_mem hw
    | cons v vs =>
      have hrest := ih (List.cons_ne_nil v vs) fun x hx => h x (List.mem_cons_of_mem w hx)
      rw [joinWith, splitOnChar_append hw, hrest]

end Splitting

/-! ## Segments -/

/-- What is kept of some segments names something. -/
theorem mem_of_resolveSegments {kept segments out : List (List Char)}
    (h : resolveSegments kept segments = some out) {s : List Char} (hs : s ∈ out) :
    s ∈ kept ∨ s ∈ segments ∧ isOrdinarySegment s = true := by
  induction segments generalizing kept with
  | nil =>
    cases h
    exact .inl (List.mem_reverse.1 hs)
  | cons x rest ih =>
    have hlater : s ∈ rest ∧ isOrdinarySegment s = true → s ∈ x :: rest ∧ isOrdinarySegment s = true :=
      fun h => ⟨List.mem_cons_of_mem x h.1, h.2⟩
    unfold resolveSegments at h
    split at h
    · exact (ih h).imp_right hlater
    · rename_i hidle
      split at h
      · cases kept with
        | nil => cases h
        | cons k kept => exact (ih h).imp (List.mem_cons_of_mem k) hlater
      · rename_i hup
        rcases ih h with hmem | hmem
        · rcases List.mem_cons.1 hmem with rfl | hmem
          · exact .inr ⟨List.mem_cons_self, by simp [isOrdinarySegment, hidle, hup]⟩
          · exact .inl hmem
        · exact .inr (hlater hmem)

/-- A segment `s` that names something, without a slash or a NUL in it. -/
structure ProperSegment (s : List Char) : Prop where
  ordinary : isOrdinarySegment s = true
  slash : '/' ∉ s
  nul : '\x00' ∉ s

theorem ProperSegment.ne {s : List Char} (h : ProperSegment s) :
    s ≠ [] ∧ s ≠ ['.'] ∧ s ≠ ['.', '.'] := by
  have ho := h.ordinary
  refine ⟨?_, ?_, ?_⟩ <;> rintro rfl <;> exact absurd ho (by decide)

/-- The names of a path that is written with proper segments are these segments. -/
theorem ofText_joinWith {segments : List (List Char)} (hne : segments ≠ [])
    (hproper : ∀ s ∈ segments, ProperSegment s) :
    FilePath.ofText (String.ofList (joinWith '/' segments)) = ⟨0, segments.map String.ofList⟩ := by
  have hsplit : splitOnChar '/' (joinWith '/' segments) = segments :=
    splitOnChar_joinWith hne fun s hs => (hproper s hs).slash
  have hslashes : FilePath.leadingSlashes (joinWith '/' segments) = 0 := by
    obtain ⟨s, rest, rfl⟩ := List.exists_cons_of_ne_nil hne
    obtain ⟨c, cs, rfl⟩ := List.exists_cons_of_ne_nil (hproper s List.mem_cons_self).ne.1
    have hc : (c == '/') = false := by
      simpa using fun he : c = '/' => (hproper _ List.mem_cons_self).slash (he ▸ List.mem_cons_self)
    have htake : ∀ l, (c :: l).takeWhile (· == '/') = [] := fun l => by
      rw [List.takeWhile_cons_of_neg (by simp [hc])]
    unfold FilePath.leadingSlashes
    cases rest <;> simp [joinWith, htake]
  have hnames : (segments.map String.ofList).filter (fun n => n != "" && n != ".") =
      segments.map String.ofList := by
    rw [List.filter_eq_self]
    intro n hn
    obtain ⟨s, hs, rfl⟩ := List.mem_map.1 hn
    obtain ⟨hempty, hdot, -⟩ := (hproper s hs).ne
    have h1 : String.ofList s ≠ "" := fun he => hempty (by simpa using congrArg String.toList he)
    have h2 : String.ofList s ≠ "." := fun he => hdot (by simpa using congrArg String.toList he)
    simp [h1, h2]
  rw [FilePath.ofText, FilePath.namesOf, String.toList_ofList, hsplit, hslashes, hnames]

/-! ## The names of a path -/

/-- That `p` is a path that `normalize` gives out. -/
def Normalized (p : String) : Prop := ∃ raw, normalize raw = .ok p

namespace Normalized

variable {p q : String}

theorem segments (h : Normalized p) : ∃ segments : List (List Char), segments ≠ [] ∧
    (∀ s ∈ segments, ProperSegment s) ∧ p = String.ofList (joinWith '/' segments) := by
  obtain ⟨raw, h⟩ := h
  unfold normalize at h
  dsimp only at h
  split at h
  · rename_i out hout
    cases h
    unfold guardCleaned at hout
    split at hout
    · cases hout
    · rename_i hnul
      split at hout
      · cases hout
      · split at hout
        · cases hout
        · cases hout
        · rename_i segments hne hsegments
          cases hout
          refine ⟨segments, hne, fun s hs => ?_, rfl⟩
          obtain hk | ⟨hmem, hordinary⟩ := mem_of_resolveSegments hsegments hs
          · cases hk
          have hpiece : ∀ c ∈ s, c ∈ cleanPath raw.toList ∧ (c == '/') = false :=
            fun c hc => mem_of_mem_splitWhere hmem hc
          refine ⟨hordinary, fun hc => ?_, fun hc => hnul ?_⟩
          · exact absurd (hpiece _ hc).2 (by decide)
          · exact List.contains_iff_mem.2 (hpiece _ hc).1
  · cases h

/-- The names of a path that passed the guard are its segments. -/
theorem ofText (h : Normalized p) : ∃ segments : List (List Char), segments ≠ [] ∧
    (∀ s ∈ segments, ProperSegment s) ∧ p = String.ofList (joinWith '/' segments) ∧
    FilePath.ofText p = ⟨0, segments.map String.ofList⟩ := by
  obtain ⟨segments, hne, hproper, rfl⟩ := h.segments
  exact ⟨segments, hne, hproper, rfl, ofText_joinWith hne hproper⟩

/-- A path that passed the guard leads from where it is looked at down to at least one name, and
    none of its names leads anywhere else. -/
theorem names (h : Normalized p) : (FilePath.ofText p).isAbsolute = false ∧
    (FilePath.ofText p).names ≠ [] ∧
    ∀ n ∈ (FilePath.ofText p).names, n ≠ "" ∧ n ≠ "." ∧ n ≠ ".." ∧ '\x00' ∉ n.toList := by
  obtain ⟨segments, hne, hproper, -, htext⟩ := h.ofText
  rw [htext]
  refine ⟨rfl, by simpa using hne, fun n hn => ?_⟩
  obtain ⟨s, hs, rfl⟩ := List.mem_map.1 hn
  obtain ⟨hempty, hdot, hup⟩ := (hproper s hs).ne
  refine ⟨fun he => hempty ?_, fun he => hdot ?_, fun he => hup ?_, ?_⟩
  · simpa using congrArg String.toList he
  · simpa using congrArg String.toList he
  · simpa using congrArg String.toList he
  · simpa using (hproper s hs).nul

/-- Two paths that passed the guard are equal if their names are. -/
theorem eq_of_names (hp : Normalized p) (hq : Normalized q)
    (h : (FilePath.ofText p).names = (FilePath.ofText q).names) : p = q := by
  obtain ⟨segments, -, -, rfl, hp'⟩ := hp.ofText
  obtain ⟨segments', -, -, rfl, hq'⟩ := hq.ofText
  rw [hp', hq'] at h
  have hinj : ∀ a b : List Char, String.ofList a = String.ofList b → a = b := fun a b hab => by
    simpa using congrArg String.toList hab
  rw [(List.map_inj_right hinj).1 h]

/-- A name without blanks, slashes, backslashes or colons passes the guard as it is. -/
theorem of_segment {cs : List Char} (hproper : ProperSegment cs)
    (hplain : ∀ c ∈ cs, isBlank c = false ∧ c ≠ '\\' ∧ c ≠ ':') : Normalized (String.ofList cs) := by
  have hblank : ∀ {l : List Char}, (∀ c ∈ l, isBlank c = false) → l.dropWhile isBlank = l := by
    intro l hl
    cases l with
    | nil => rfl
    | cons c l => rw [List.dropWhile_cons_of_neg (by simp [hl c List.mem_cons_self])]
  have hclean : cleanPath cs = cs := by
    have hmap : cs.map (fun c => if c = '\\' then '/' else c) = cs :=
      (List.map_congr_left fun c hc => if_neg (hplain c hc).2.1).trans (List.map_id cs)
    rw [cleanPath, hmap, trim, trimEnd, trimStart, hblank fun c hc => (hplain c hc).1, dropEndWhile,
      hblank fun c hc => (hplain c (List.mem_reverse.1 hc)).1, List.reverse_reverse]
  have hdrive : hasDrive cs = false := by
    unfold hasDrive
    split
    · rename_i c rest
      exact absurd rfl (hplain ':' (by simp)).2.2
    · rfl
  have hnul : cs.contains '\x00' = false := by
    simpa using hproper.nul
  have hsplit : splitOnChar '/' cs = [cs] := splitOnChar_of_not_mem hproper.slash
  have hordinary := hproper.ordinary
  have hresolve : resolveSegments [] [cs] = some [cs] := by
    simp only [isOrdinarySegment, Bool.and_eq_true, Bool.not_eq_true'] at hordinary
    simp [resolveSegments, hordinary.1, hordinary.2]
  refine ⟨String.ofList cs, ?_⟩
  rw [normalize, String.toList_ofList, hclean, guardCleaned, hnul, hdrive, hsplit, hresolve]
  rfl

end Normalized

end StagedEdits
