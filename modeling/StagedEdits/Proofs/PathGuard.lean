import StagedEdits.Proofs.Segments

set_option autoImplicit false

/-! # What the path guard lets through

The guard reads a path with backslashes as slashes and without blanks around it. It lets the path
through just if it holds no NUL, names no drive, and has at no point more `..` behind it than names,
with a name left in the end; what comes out is what is left of the names.

A path that came out is let through again as it is, unless it has a blank at an end or starts like a
drive. Both can happen: the blanks and the drive are looked for before the segments around the first
and the last name are dropped.

Main definitions: `Admissible`, `ProjectRelative`, `Settled`. Main statements:
`exists_normalize_iff`, `left_of_normalize`, `normalize_again_iff`, `drive_uncovered`. -/

namespace StagedEdits

/-! ## Trimming -/

section Trimming

variable {cs : List Char} {c : Char}

theorem dropEndWhile_isPrefix {α : Type} (p : α → Bool) (xs : List α) :
    dropEndWhile p xs <+: xs := by
  rw [dropEndWhile, ← List.reverse_suffix, List.reverse_reverse]
  exact List.dropWhile_suffix _

theorem getLast?_dropEndWhile {α : Type} {p : α → Bool} {xs : List α} {x : α}
    (h : (dropEndWhile p xs).getLast? = some x) : p x = false := by
  have hdrop := List.head?_dropWhile_not p xs.reverse
  rw [dropEndWhile, List.getLast?_reverse] at h
  rw [h] at hdrop
  simpa using hdrop

theorem trimEnd_isPrefix (cs : List Char) : trimEnd cs <+: cs := dropEndWhile_isPrefix isBlank cs

theorem trim_sublist (cs : List Char) : (trim cs).Sublist cs :=
  (trimEnd_isPrefix _).sublist.trans (List.dropWhile_sublist _)

/-- A trimmed text does not start with a blank. -/
theorem isBlank_head?_trim (h : (trim cs).head? = some c) : isBlank c = false := by
  have hstart : (trimStart cs).head? = some c := by
    obtain ⟨more, hmore⟩ := trimEnd_isPrefix (trimStart cs)
    rw [trim] at h
    rw [← hmore, List.head?_append, h]
    rfl
  have hdrop := List.head?_dropWhile_not isBlank cs
  rw [trimStart] at hstart
  rw [hstart] at hdrop
  simpa using hdrop

/-- A trimmed text does not end with a blank. -/
theorem isBlank_getLast?_trim (h : (trim cs).getLast? = some c) : isBlank c = false :=
  getLast?_dropEndWhile h

/-- A text without a blank at its ends is trimmed. -/
theorem trim_eq_self (hstart : ∀ c, cs.head? = some c → isBlank c = false)
    (hstop : ∀ c, cs.getLast? = some c → isBlank c = false) : trim cs = cs := by
  have hdrop : ∀ {ds : List Char}, (∀ c, ds.head? = some c → isBlank c = false) →
      ds.dropWhile isBlank = ds := by
    intro ds hds
    cases ds with
    | nil => rfl
    | cons d ds => exact List.dropWhile_cons_of_neg (by simp [hds d rfl])
  rw [trim, trimEnd, trimStart, hdrop hstart, dropEndWhile,
    hdrop fun c hc => hstop c (by rwa [List.head?_reverse] at hc), List.reverse_reverse]

/-- **A path is cleaned by reading its backslashes as slashes and taking the blanks off its ends**:
    `before` and `after` are those that go. -/
theorem cleanPath_eq (raw : List Char) :
    ∃ before after, raw.map (fun c => if c = '\\' then '/' else c) =
        before ++ cleanPath raw ++ after ∧
      (∀ c ∈ before ++ after, isBlank c = true) ∧
      (∀ c, (cleanPath raw).head? = some c → isBlank c = false) ∧
      (∀ c, (cleanPath raw).getLast? = some c → isBlank c = false) := by
  generalize hcs : raw.map (fun c => if c = '\\' then '/' else c) = cs
  have hclean : cleanPath raw = trim cs := by rw [cleanPath, hcs]
  refine ⟨cs.takeWhile isBlank, ((trimStart cs).reverse.takeWhile isBlank).reverse, ?_, ?_,
    fun c hc => isBlank_head?_trim (hclean ▸ hc), fun c hc => isBlank_getLast?_trim (hclean ▸ hc)⟩
  · have hend : trim cs ++ ((trimStart cs).reverse.takeWhile isBlank).reverse = trimStart cs := by
      rw [trim, trimEnd, dropEndWhile, ← List.reverse_append, List.takeWhile_append_dropWhile,
        List.reverse_reverse]
    rw [hclean, List.append_assoc, hend, trimStart, List.takeWhile_append_dropWhile]
  · intro c hc
    rcases List.mem_append.1 hc with hc | hc
    · exact List.all_eq_true.1 List.all_takeWhile c hc
    · exact List.all_eq_true.1 List.all_takeWhile c (List.mem_reverse.1 hc)

/-- No backslash is left in a cleaned path. -/
theorem backslash_notMem_cleanPath (raw : List Char) : '\\' ∉ cleanPath raw := by
  intro hmem
  obtain ⟨c, -, hc⟩ := List.mem_map.1 ((trim_sublist _).subset hmem)
  split at hc
  · exact absurd hc (by decide)
  · rename_i hne
    exact hne hc

/-- A path without backslashes is cleaned by trimming it. -/
theorem cleanPath_eq_trim (h : '\\' ∉ cs) : cleanPath cs = trim cs := by
  have hmap : cs.map (fun c => if c = '\\' then '/' else c) = cs :=
    (List.map_congr_left fun c hc => if_neg fun e : c = '\\' => h (e ▸ hc)).trans (List.map_id cs)
  rw [cleanPath, hmap]

/-- A drive is a letter and a colon. -/
theorem hasDrive_iff :
    hasDrive cs = true ↔
      ∃ letter rest, cs = letter :: ':' :: rest ∧ isAsciiLetter letter = true := by
  unfold hasDrive
  split
  · rename_i c rest
    exact ⟨fun h => ⟨c, rest, rfl, h⟩, fun ⟨_, _, he, h⟩ => by cases he; exact h⟩
  · rename_i hno
    exact iff_of_false (by simp) fun ⟨c, rest, he, _⟩ => hno c rest he

end Trimming

/-! ## Segments of a text -/

section Joined

variable {sep : Char}

/-- A text is cut at every place where the character stands. -/
theorem splitOnChar_append_cons (xs ys : List Char) :
    splitOnChar sep (xs ++ sep :: ys) = splitOnChar sep xs ++ splitOnChar sep ys := by
  unfold splitOnChar
  induction xs with
  | nil => simp [splitWhere]
  | cons x xs ih =>
    obtain ⟨w, ws, hw⟩ := List.exists_cons_of_ne_nil (splitWhere_ne_nil (· == sep) xs)
    rw [List.cons_append, splitWhere, splitWhere, ih, hw]
    by_cases hx : (x == sep) = true
    · rw [if_pos hx, if_pos hx]
      rfl
    · rw [if_neg hx, if_neg hx]
      rfl

/-- Leaving out pieces leaves out characters. -/
theorem joinWith_sublist {ws vs : List (List Char)} (h : ws.Sublist vs) :
    (joinWith sep ws).Sublist (joinWith sep vs) := by
  induction h with
  | slnil => exact List.Sublist.refl _
  | @cons ws vs v h ih =>
    cases vs with
    | nil =>
      rw [List.sublist_nil.1 h]
      exact List.nil_sublist _
    | cons u vs =>
      exact ih.trans ((List.sublist_cons_self sep _).trans (List.sublist_append_right v _))
  | @cons_cons ws vs v h ih =>
    cases ws with
    | nil =>
      cases vs with
      | nil => exact List.Sublist.refl _
      | cons u vs => exact List.sublist_append_left v _
    | cons w ws =>
      obtain ⟨u, vs, rfl⟩ := List.exists_cons_of_ne_nil fun e : vs = [] => by
        rw [e] at h
        cases h
      exact (ih.cons_cons sep).append_left v

theorem joinWith_concat {ws : List (List Char)} (h : ws ≠ []) (w : List Char) :
    joinWith sep (ws ++ [w]) = joinWith sep ws ++ sep :: w := by
  induction ws with
  | nil => exact absurd rfl h
  | cons v ws ih =>
    cases ws with
    | nil => rfl
    | cons u ws =>
      have hrest := ih (List.cons_ne_nil u ws)
      rw [List.cons_append] at hrest
      rw [List.cons_append, List.cons_append, joinWith, hrest, joinWith, List.append_assoc]
      rfl

/-- The characters of joined pieces stand in the pieces, or are the one they are joined by. -/
theorem mem_joinWith {ws : List (List Char)} {c : Char} (h : c ∈ joinWith sep ws) :
    c = sep ∨ ∃ w ∈ ws, c ∈ w := by
  induction ws with
  | nil => cases h
  | cons w ws ih =>
    cases ws with
    | nil => exact .inr ⟨w, List.mem_cons_self, h⟩
    | cons v vs =>
      rcases List.mem_append.1 h with h | h
      · exact .inr ⟨w, List.mem_cons_self, h⟩
      · rcases List.mem_cons.1 h with rfl | h
        · exact .inl rfl
        · exact (ih h).imp_right fun ⟨x, hx, hc⟩ => ⟨x, List.mem_cons_of_mem w hx, hc⟩

end Joined

/-! ## What the guard lets through -/

/-- What the guard asks of the cleaned path `c`. -/
structure Admissible (c : List Char) : Prop where
  nul : '\x00' ∉ c
  drive : ¬ ∃ letter rest, c = letter :: ':' :: rest ∧ isAsciiLetter letter = true
  /-- No beginning of the path leads out of the root. -/
  inside : ∀ lead, lead <+: splitOnChar '/' c → upCount lead ≤ ordinaryCount lead
  /-- The path leads to something. -/
  names : upCount (splitOnChar '/' c) < ordinaryCount (splitOnChar '/' c)

/-- The form of a path `p` that the guard gives out. -/
structure ProjectRelative (p : String) : Prop where
  ne_empty : p ≠ ""
  segments : ∀ s ∈ splitOnChar '/' p.toList, s ≠ [] ∧ s ≠ ['.'] ∧ s ≠ ['.', '.']
  backslash : '\\' ∉ p.toList
  nul : '\x00' ∉ p.toList
  head : p.toList.head? ≠ some '/'
  last : p.toList.getLast? ≠ some '/'

section Guard

variable {raw p : String} {c out : List Char}

/-- The guard gives out what is left of the segments, if something is. -/
theorem guardCleaned_eq_ok_iff :
    guardCleaned c = .ok out ↔ '\x00' ∉ c ∧ hasDrive c = false ∧
      ∃ left, CancelsTo (splitOnChar '/' c) left ∧ left ≠ [] ∧ out = joinWith '/' left := by
  simp only [guardCleaned, List.contains_iff_mem, ← resolveSegments_eq_some_iff]
  by_cases hnul : '\x00' ∈ c
  · simp [hnul]
  · by_cases hdrive : hasDrive c = true
    · simp [hnul, hdrive]
    · rw [if_neg hnul, if_neg hdrive]
      cases hres : resolveSegments [] (splitOnChar '/' c) with
      | none => simp
      | some left =>
        cases left with
        | nil => simp
        | cons s left => simp [hnul, hdrive, eq_comm]

theorem normalize_eq_ok_iff :
    normalize raw = .ok p ↔ guardCleaned (cleanPath raw.toList) = .ok p.toList := by
  unfold normalize
  dsimp only
  cases hguard : guardCleaned (cleanPath raw.toList) with
  | error flaw => simp
  | ok out =>
    simp only [Except.ok.injEq]
    exact ⟨fun h => by rw [← h, String.toList_ofList], fun h => by rw [h, String.ofList_toList]⟩

/-- **A path is let through just if its cleaned form is admissible**: `normalize` fails on no other
    one. -/
theorem exists_normalize_iff :
    (∃ p, normalize raw = .ok p) ↔ Admissible (cleanPath raw.toList) := by
  generalize hc : cleanPath raw.toList = c
  have hwalk := @isSome_resolveSegments_iff (splitOnChar '/' c) []
  simp only [List.length_nil, Nat.zero_add] at hwalk
  constructor
  · rintro ⟨p, hp⟩
    rw [normalize_eq_ok_iff, hc, guardCleaned_eq_ok_iff] at hp
    obtain ⟨hnul, hdrive, left, hcancels, hne, -⟩ := hp
    have hleft := resolveSegments_eq_some_iff.2 hcancels
    have hlength := length_of_resolveSegments hleft
    have hpos := List.length_pos_iff.2 hne
    simp only [List.length_nil, Nat.zero_add] at hlength
    refine ⟨hnul, fun hd => ?_, hwalk.1 (by rw [hleft]; rfl), by omega⟩
    rw [hasDrive_iff.2 hd] at hdrive
    cases hdrive
  · rintro ⟨hnul, hdrive, hinside, hnames⟩
    obtain ⟨left, hleft⟩ := Option.isSome_iff_exists.1 (hwalk.2 hinside)
    have hlength := length_of_resolveSegments hleft
    simp only [List.length_nil, Nat.zero_add] at hlength
    refine ⟨String.ofList (joinWith '/' left), ?_⟩
    rw [normalize_eq_ok_iff, hc, guardCleaned_eq_ok_iff, String.toList_ofList]
    refine ⟨hnul, ?_, left, resolveSegments_eq_some_iff.1 hleft, fun he => ?_, rfl⟩
    · exact Bool.eq_false_iff.2 fun hd => hdrive (hasDrive_iff.1 hd)
    · rw [he, List.length_nil] at hlength
      omega

/-- A path that is not let through is refused as it was cleaned. -/
theorem path_of_refusal {r : PathRefusal} (h : normalize raw = .error r) :
    r.path = String.ofList (cleanPath raw.toList) := by
  unfold normalize at h
  dsimp only at h
  split at h
  · cases h
  · cases h
    rfl

/-- What is left of the segments of a cleaned path are segments of it. -/
theorem CancelsTo.subset {segments left : List (List Char)} (h : CancelsTo segments left) :
    ∀ s ∈ left, s ∈ segments :=
  fun _ hs => (resolveSegments_sublist (resolveSegments_eq_some_iff.2 h)).subset hs

/-- Ordinary segments of a text are found again in what they are joined to. -/
theorem splitOnChar_of_cancelsTo {left : List (List Char)}
    (h : CancelsTo (splitOnChar '/' c) left) (hne : left ≠ []) :
    splitOnChar '/' (joinWith '/' left) = left :=
  splitOnChar_joinWith hne fun s hs hmem =>
    absurd (mem_of_mem_splitWhere (h.subset s hs) hmem).2 (by decide)

/-- **A path that is let through is what is left of its segments, and is relative to the project**:
    `p` is made of those that are `left` once each `..` has cancelled a segment. -/
theorem left_of_normalize (h : normalize raw = .ok p) :
    ∃ left, CancelsTo (splitOnChar '/' (cleanPath raw.toList)) left ∧ left ≠ [] ∧
      p = String.ofList (joinWith '/' left) ∧ ProjectRelative p := by
  rw [normalize_eq_ok_iff, guardCleaned_eq_ok_iff] at h
  obtain ⟨hnul, -, left, hcancels, hne, hp⟩ := h
  have hsplit : splitOnChar '/' p.toList = left := by rw [hp, splitOnChar_of_cancelsTo hcancels hne]
  have hordinary : ∀ s ∈ left, s ≠ [] ∧ s ≠ ['.'] ∧ s ≠ ['.', '.'] := by
    intro s hs
    have ho := hcancels.ordinary s hs
    refine ⟨?_, ?_, ?_⟩ <;> rintro rfl <;> exact absurd ho (by decide)
  have hchars : ∀ c ∈ p.toList, c = '/' ∨ c ∈ cleanPath raw.toList := by
    intro c hc
    rw [hp] at hc
    exact (mem_joinWith hc).imp_right fun ⟨s, hs, hcs⟩ =>
      (mem_of_mem_splitWhere (hcancels.subset s hs) hcs).1
  -- a slash at an end of the path would stand beside an empty segment
  have hempty : [] ∉ splitOnChar '/' p.toList := by
    rw [hsplit]
    exact fun hmem => (hordinary [] hmem).1 rfl
  refine ⟨left, hcancels, hne, by rw [← hp, String.ofList_toList], ?_, ?_, ?_, ?_, ?_, ?_⟩
  · rintro rfl
    exact hempty (by decide)
  · rw [hsplit]
    exact hordinary
  · exact fun hc => (hchars _ hc).elim (by decide) (backslash_notMem_cleanPath _)
  · exact fun hc => (hchars _ hc).elim (by decide) hnul
  · intro hhead
    obtain ⟨rest, hrest⟩ := List.head?_eq_some_iff.1 hhead
    rw [hrest] at hempty
    exact hempty List.mem_cons_self
  · intro hlast
    obtain ⟨lead, hlead⟩ := List.getLast?_eq_some_iff.1 hlast
    rw [hlead, splitOnChar_append_cons] at hempty
    exact hempty (List.mem_append_right _ List.mem_cons_self)

end Guard

/-! ## The guard made twice -/

/-- That the first steps of the guard have nothing to do on `p`: no blank stands at its ends, and it
    does not start like a drive. -/
structure Settled (p : String) : Prop where
  start : ∀ c, p.toList.head? = some c → isBlank c = false
  stop : ∀ c, p.toList.getLast? = some c → isBlank c = false
  drive : ¬ ∃ letter rest, p.toList = letter :: ':' :: rest ∧ isAsciiLetter letter = true

section Again

variable {raw p : String}

/-- A text starts as its first segment does. -/
theorem head?_of_splitOnChar {cs s : List Char} (h : (splitOnChar '/' cs).head? = some s)
    (hne : s ≠ []) : cs.head? = s.head? ∧ hasDrive cs = hasDrive s := by
  have hjoin := joinWith_splitOnChar '/' cs
  obtain ⟨segments, hsegments⟩ := List.head?_eq_some_iff.1 h
  rw [hsegments] at hjoin
  obtain ⟨x, xs, rfl⟩ := List.exists_cons_of_ne_nil hne
  cases segments with
  | nil =>
    rw [← hjoin]
    exact ⟨rfl, rfl⟩
  | cons v vs =>
    rw [← hjoin]
    refine ⟨rfl, ?_⟩
    cases xs with
    | nil => rfl
    | cons y ys =>
      by_cases hy : y = ':'
      · subst hy
        rfl
      · simp [joinWith, hasDrive, hy]

/-- A text ends as its last segment does. -/
theorem getLast?_of_splitOnChar {cs s : List Char} (h : (splitOnChar '/' cs).getLast? = some s)
    (hne : s ≠ []) : cs.getLast? = s.getLast? := by
  obtain ⟨segments, hsegments⟩ := List.getLast?_eq_some_iff.1 h
  have hjoin := joinWith_splitOnChar '/' cs
  rw [hsegments] at hjoin
  cases segments with
  | nil => exact congrArg List.getLast? hjoin.symm
  | cons v vs =>
    rw [← hjoin, joinWith_concat (List.cons_ne_nil v vs), List.append_cons,
      List.getLast?_append, List.getLast?_eq_some_getLast hne]
    rfl

/-- A path that is let through and settled is let through as it is. -/
theorem normalize_of_settled (h : normalize raw = .ok p) (hs : Settled p) :
    normalize p = .ok p := by
  obtain ⟨left, hcancels, hne, hp, hform⟩ := left_of_normalize h
  have hclean : cleanPath p.toList = p.toList := by
    rw [cleanPath_eq_trim hform.backslash, trim_eq_self hs.start hs.stop]
  have hsplit : splitOnChar '/' p.toList = left := by
    rw [hp, String.toList_ofList, splitOnChar_of_cancelsTo hcancels hne]
  rw [normalize_eq_ok_iff, hclean, guardCleaned_eq_ok_iff]
  refine ⟨hform.nul, Bool.eq_false_iff.2 fun hd => hs.drive (hasDrive_iff.1 hd), left, ?_, hne, ?_⟩
  · rw [hsplit]
    exact ⟨.refl, hcancels.ordinary⟩
  · rw [hp, String.toList_ofList]

/-- A path that is let through as it is was settled. -/
theorem settled_of_normalize_eq (h : normalize p = .ok p) : Settled p := by
  obtain ⟨left, hcancels, -, hp, hform⟩ := left_of_normalize h
  have hadmissible := exists_normalize_iff.1 ⟨p, h⟩
  have hclean := cleanPath_eq_trim hform.backslash
  -- what comes out is no longer than what was cleaned, so cleaning has taken nothing off
  have hsub : p.toList.Sublist (trim p.toList) := by
    have hkept := resolveSegments_sublist (resolveSegments_eq_some_iff.2 hcancels)
    have hjoin := @joinWith_sublist '/' _ _ hkept
    rw [List.reverse_nil, List.nil_append, joinWith_splitOnChar, hclean] at hjoin
    rwa [← String.toList_ofList (l := joinWith '/' left), ← hp] at hjoin
  have htrim : trim p.toList = p.toList := (trim_sublist _).eq_of_length_le hsub.length_le
  have hdrive := hadmissible.drive
  rw [hclean, htrim] at hdrive
  exact ⟨fun c hc => isBlank_head?_trim (htrim.symm ▸ hc),
    fun c hc => isBlank_getLast?_trim (htrim.symm ▸ hc), hdrive⟩

/-- A path whose first and last segment are those of the cleaned path is settled. -/
theorem settled_of_ends (h : normalize raw = .ok p)
    (hhead : (splitOnChar '/' p.toList).head? = (splitOnChar '/' (cleanPath raw.toList)).head?)
    (hlast : (splitOnChar '/' p.toList).getLast? =
      (splitOnChar '/' (cleanPath raw.toList)).getLast?) : Settled p := by
  obtain ⟨-, -, -, -, hstart, hstop⟩ := cleanPath_eq raw.toList
  have hdrive := (exists_normalize_iff.1 ⟨p, h⟩).drive
  obtain ⟨-, -, -, -, hform⟩ := left_of_normalize h
  have hne := splitWhere_ne_nil (· == '/') p.toList
  obtain ⟨first, hfirst⟩ : ∃ first, (splitOnChar '/' p.toList).head? = some first :=
    ⟨_, List.head?_eq_some_head hne⟩
  obtain ⟨last, hend⟩ : ∃ last, (splitOnChar '/' p.toList).getLast? = some last :=
    ⟨_, List.getLast?_eq_some_getLast hne⟩
  have hfirst' := (hform.segments first (List.mem_of_head? hfirst)).1
  have hend' := (hform.segments last (List.mem_of_getLast? hend)).1
  -- both texts start with the first segment and end with the last one
  obtain ⟨hp, hdp⟩ := head?_of_splitOnChar hfirst hfirst'
  obtain ⟨hc, hdc⟩ := head?_of_splitOnChar (hhead.symm.trans hfirst) hfirst'
  have hlp := getLast?_of_splitOnChar hend hend'
  have hlc := getLast?_of_splitOnChar (hlast.symm.trans hend) hend'
  refine ⟨fun c h => hstart c ?_, fun c h => hstop c ?_, fun hd => hdrive ?_⟩
  · rw [hc, ← hp, h]
  · rw [hlc, ← hlp, h]
  · rwa [← hasDrive_iff, hdc, ← hdp, hasDrive_iff]

/-- **What the guard makes of a path `p` that it let through.** It lets `p` through as it is just if
    `p` is `Settled`: no blank stands at an end of it and it does not start like a drive; and that
    is so wherever the first and the last segment of the cleaned path are left. -/
theorem normalize_again_iff (h : normalize raw = .ok p) :
    (normalize p = .ok p ↔ Settled p) ∧
      ((splitOnChar '/' p.toList).head? = (splitOnChar '/' (cleanPath raw.toList)).head? →
        (splitOnChar '/' p.toList).getLast? =
          (splitOnChar '/' (cleanPath raw.toList)).getLast? →
        normalize p = .ok p) :=
  ⟨⟨settled_of_normalize_eq, normalize_of_settled h⟩,
    fun hhead hlast => normalize_of_settled h (settled_of_ends h hhead hlast)⟩

end Again

/-- Blanks and colons inside a path stay as they are. -/
theorem inner_blank_kept :
    normalize "a b/x/../\\c:" = .ok "a b/c:" ∧ normalize "a b/c:" = .ok "a b/c:" :=
  have h : normalize "a b/x/../\\c:" = .ok "a b/c:" := by rfl
  ⟨h, (normalize_again_iff h).2 (by decide +kernel) (by decide +kernel)⟩

/-- **Dropping what stands in front of a name uncovers a drive, or a blank.** -/
theorem drive_uncovered :
    normalize "./C:/x" = .ok "C:/x" ∧ normalize "C:/x" = .error ⟨"C:/x", .drive⟩ ∧
      normalize "./ a" = .ok " a" ∧ normalize " a" = .ok "a" ∧
      normalize "a /." = .ok "a " ∧ normalize "a " = .ok "a" :=
  ⟨rfl, rfl, rfl, rfl, rfl, rfl⟩

end StagedEdits
