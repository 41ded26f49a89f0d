import StagedEdits.Path.SessionId
import StagedEdits.Proofs.NormalPath

set_option autoImplicit false

/-! # The directories of sessions

A session id consists of characters that a directory name keeps, and perhaps a line feed behind
them that it does not. Each session so has a directory of its own right below the workspaces, named
by its id, unless a line feed stands at the end of the id: that one becomes an underscore, and the
session shares the directory of the id that is written with the underscore.

Main statements: `sessions_kept_apart`, `line_feed_shares_directory`. -/

namespace StagedEdits

/-! ## Characters of an id -/

section Characters

variable {c : Char}

/-- What may stand in an id may stand in a directory name. -/
theorem isDirectoryChar_of_isIdChar (h : isIdChar c = true) : isDirectoryChar c = true := by
  rw [isDirectoryChar, h, Bool.true_or]

/-- An id holds none of the characters that count in a path, and no line feed. -/
theorem ne_of_isIdChar (h : isIdChar c = true) :
    c ≠ '.' ∧ c ≠ '/' ∧ c ≠ '\x00' ∧ c ≠ '\n' := by
  refine ⟨?_, ?_, ?_, ?_⟩ <;> rintro rfl <;> exact absurd h (by decide)

end Characters

/-! ## The name of a directory -/

/-- That `body` is a text of one to a hundred characters of an id. -/
structure IdBody (body : List Char) : Prop where
  ne_nil : body ≠ []
  short : body.length ≤ maxIdLength
  isIdChar : ∀ c ∈ body, isIdChar c = true

theorem isIdBody_iff {body : List Char} : isIdBody body = true ↔ IdBody body := by
  simp only [isIdBody, Bool.and_eq_true, Bool.not_eq_true', List.isEmpty_eq_false_iff,
    decide_eq_true_eq, List.all_eq_true, and_assoc]
  exact ⟨fun ⟨hne, hlen, hall⟩ => ⟨hne, hlen, hall⟩, fun h => ⟨h.ne_nil, h.short, h.isIdChar⟩⟩

/-- The characters of an id do not end with a line feed. -/
theorem IdBody.getLast?_ne {body : List Char} (h : IdBody body) : body.getLast? ≠ some '\n' :=
  fun hl => (ne_of_isIdChar (h.isIdChar _ (List.mem_of_getLast? hl))).2.2.2 rfl

/-- **A text is accepted as a session id just if it is made of one to a hundred characters of an id,
    with or without a line feed behind them**: `body` is what stands in front of it. -/
theorem isSessionId_iff {id : String} :
    isSessionId id = true ↔
      ∃ body, IdBody body ∧ (id = String.ofList body ∨ id = String.ofList (body ++ ['\n'])) := by
  have hdrop : ∀ {body : List Char}, IdBody body → dropFinalNewline body = body := fun hb => by
    rw [dropFinalNewline, if_neg (by simpa using hb.getLast?_ne)]
  constructor
  · intro h
    refine ⟨dropFinalNewline id.toList, isIdBody_iff.1 h, ?_⟩
    unfold dropFinalNewline
    split
    · rename_i hl
      obtain ⟨body, hbody⟩ := List.getLast?_eq_some_iff.1 (eq_of_beq hl)
      right
      rw [hbody, List.dropLast_concat, ← hbody, String.ofList_toList]
    · exact .inl (String.ofList_toList).symm
  · rintro ⟨body, hb, rfl | rfl⟩ <;> rw [isSessionId, String.toList_ofList]
    · rw [hdrop hb]
      exact isIdBody_iff.2 hb
    · rw [dropFinalNewline, if_pos (by simp), List.dropLast_concat]
      exact isIdBody_iff.2 hb

/-- What a directory is named by: the id, an underscore in the place of its line feed. -/
theorem sanitizeId_of_body {body : List Char} (h : IdBody body) :
    sanitizeId (String.ofList body) = String.ofList body ∧
      sanitizeId (String.ofList (body ++ ['\n'])) = String.ofList (body ++ ['_']) := by
  have hbody : body.map (fun c => if isDirectoryChar c then c else '_') = body :=
    (List.map_congr_left fun c hc =>
      if_pos (isDirectoryChar_of_isIdChar (h.isIdChar c hc))).trans (List.map_id body)
  constructor
  · rw [sanitizeId, String.toList_ofList, hbody]
  · rw [sanitizeId, String.toList_ofList, List.map_append, hbody]
    rfl

/-- The name of the directory of an accepted id is made of characters of an id. -/
theorem sanitizeId_chars {id : String} (h : isSessionId id = true) :
    (sanitizeId id).toList ≠ [] ∧ ∀ c ∈ (sanitizeId id).toList, isIdChar c = true := by
  obtain ⟨body, hb, rfl | rfl⟩ := isSessionId_iff.1 h
  · rw [(sanitizeId_of_body hb).1, String.toList_ofList]
    exact ⟨hb.ne_nil, hb.isIdChar⟩
  · rw [(sanitizeId_of_body hb).2, String.toList_ofList]
    refine ⟨by simp, fun c hc => ?_⟩
    rcases List.mem_append.1 hc with hc | hc
    · exact hb.isIdChar c hc
    · rw [List.mem_singleton.1 hc]
      decide

/-! ## The place of a directory -/

/-- A text of characters of an id is one segment of a path. -/
theorem properSegment_of_isIdChar {cs : List Char} (hne : cs ≠ [])
    (h : ∀ c ∈ cs, isIdChar c = true) : ProperSegment cs where
  ordinary := by
    -- a segment that names nothing is empty or starts with a dot
    cases cs with
    | nil => exact absurd rfl hne
    | cons c cs =>
      have hdot := (ne_of_isIdChar (h c List.mem_cons_self)).1
      simp [isOrdinarySegment, isIdleSegment, isUpSegment, hdot]
  slash hc := (ne_of_isIdChar (h _ hc)).2.1 rfl
  nul hc := (ne_of_isIdChar (h _ hc)).2.2.1 rfl

/-- The directory of an accepted id stands right below the workspaces. -/
theorem projectPath_eq (workspaces : FilePath) {id : String} (h : isSessionId id = true) :
    projectPath workspaces id = ⟨workspaces.slashes, workspaces.names ++ [sanitizeId id]⟩ := by
  obtain ⟨hne, hchars⟩ := sanitizeId_chars h
  have htext : FilePath.ofText (sanitizeId id) = ⟨0, [sanitizeId id]⟩ := by
    have hsegment := @ofText_joinWith [(sanitizeId id).toList] (List.cons_ne_nil _ _)
      fun s hs => by
        rw [List.mem_singleton.1 hs]
        exact properSegment_of_isIdChar hne hchars
    simpa only [joinWith, List.map_cons, List.map_nil, String.ofList_toList] using hsegment
  rw [projectPath, FilePath.joinText, htext, FilePath.join]
  rfl

/-- Two accepted ids have one directory just if their directories have one name. -/
theorem projectPath_inj (workspaces : FilePath) {id id' : String} (h : isSessionId id = true)
    (h' : isSessionId id' = true) :
    projectPath workspaces id = projectPath workspaces id' ↔ sanitizeId id = sanitizeId id' := by
  rw [projectPath_eq workspaces h, projectPath_eq workspaces h']
  simp

/-- That `id` is `id'` with a line feed in the place of its last underscore. -/
def BreaksFor (id id' : String) : Prop := ∃ lead : String, id = lead ++ "\n" ∧ id' = lead ++ "_"

theorem breaksFor_ofList (body : List Char) :
    BreaksFor (String.ofList (body ++ ['\n'])) (String.ofList (body ++ ['_'])) :=
  ⟨String.ofList body, String.ofList_append, String.ofList_append⟩

/-- **Different accepted ids give one name just if one of them is the other with a line feed in the
    place of its last underscore**, that is if one `BreaksFor` the other. -/
theorem sanitizeId_eq_iff {id id' : String} (h : isSessionId id = true)
    (h' : isSessionId id' = true) (hne : id ≠ id') :
    sanitizeId id = sanitizeId id' ↔ BreaksFor id id' ∨ BreaksFor id' id := by
  constructor
  · intro he
    obtain ⟨body, hb, rfl | rfl⟩ := isSessionId_iff.1 h <;>
      obtain ⟨body', hb', rfl | rfl⟩ := isSessionId_iff.1 h' <;>
      simp only [(sanitizeId_of_body hb).1, (sanitizeId_of_body hb).2, (sanitizeId_of_body hb').1,
        (sanitizeId_of_body hb').2] at he
    · exact absurd he hne
    · rw [he]
      exact .inr (breaksFor_ofList body')
    · rw [← he]
      exact .inl (breaksFor_ofList body)
    · rw [String.ofList_append, String.ofList_append, String.append_left_inj] at he
      exact absurd (by rw [String.ofList_append, String.ofList_append, he]) hne
  · have hbreak : ∀ {id id' : String}, BreaksFor id id' → sanitizeId id = sanitizeId id' := by
      rintro _ _ ⟨lead, rfl, rfl⟩
      simp [sanitizeId, isDirectoryChar, isIdChar, isAsciiLetter, isAsciiDigit]
    rintro (hb | hb)
    · exact hbreak hb
    · exact (hbreak hb).symm

/-! ## Sessions -/

/-- **Where sessions work.** The directory `projectPath workspaces id` of an accepted id stands
    right below the workspaces. It is named by the id unless the id ends with a line feed, and two
    sessions share one just if one id `BreaksFor` the other, being that with a line feed in the
    place of its last underscore: ids without line feeds never do. -/
theorem sessions_kept_apart (workspaces : FilePath) {id id' : String} (h : isSessionId id = true)
    (h' : isSessionId id' = true) (hne : id ≠ id') :
    (projectPath workspaces id).parent = workspaces ∧
      ((projectPath workspaces id).name = id ↔ '\n' ∉ id.toList) ∧
      (projectPath workspaces id = projectPath workspaces id' ↔
        BreaksFor id id' ∨ BreaksFor id' id) ∧
      ('\n' ∉ id.toList → '\n' ∉ id'.toList →
        projectPath workspaces id ≠ projectPath workspaces id') := by
  have hshared := (projectPath_inj workspaces h h').trans (sanitizeId_eq_iff h h' hne)
  have hname : (projectPath workspaces id).name = sanitizeId id := by
    rw [projectPath_eq workspaces h]
    simp [FilePath.name]
  refine ⟨?_, ?_, hshared, fun hid hid' he => ?_⟩
  · rw [projectPath_eq workspaces h]
    simp [FilePath.parent]
  · rw [hname]
    obtain ⟨body, hb, rfl | rfl⟩ := isSessionId_iff.1 h
    · rw [(sanitizeId_of_body hb).1, String.toList_ofList]
      exact iff_of_true rfl fun hc => (ne_of_isIdChar (hb.isIdChar _ hc)).2.2.2 rfl
    · rw [(sanitizeId_of_body hb).2, String.toList_ofList]
      simp
  · rcases hshared.1 he with ⟨lead, rfl, -⟩ | ⟨lead, rfl, -⟩
    · exact hid (by simp)
    · exact hid' (by simp)

/-- Two ids that differ in a letter and in a line feed. -/
theorem neighbours_kept_apart :
    isSessionId "p_1" = true ∧ isSessionId "q_1\n" = true ∧ "p_1" ≠ "q_1\n" ∧
      (projectPath (.ofText "/ws") "p_1").parent = .ofText "/ws" ∧
      (projectPath (.ofText "/ws") "p_1").name = "p_1" ∧
      projectPath (.ofText "/ws") "p_1" ≠ projectPath (.ofText "/ws") "q_1\n" := by
  have h : isSessionId "p_1" = true := by decide +kernel
  have h' : isSessionId "q_1\n" = true := by decide +kernel
  have hne : "p_1" ≠ "q_1\n" := by decide
  obtain ⟨hparent, hname, hshared, -⟩ := sessions_kept_apart (.ofText "/ws") h h' hne
  refine ⟨h, h', hne, hparent, hname.2 (by decide), fun he => ?_⟩
  -- of the two only the second one ends with a line feed, and the letters before it differ
  rcases hshared.1 he with ⟨lead, hl, -⟩ | ⟨lead, hl, hl'⟩
  · exact absurd (congrArg (fun s => s.toList.getLast?) hl) (by simp)
  · have hq := congrArg (fun s => s.toList.head?) hl
    have hp := congrArg (fun s => s.toList.head?) hl'
    cases hlead : lead.toList <;> simp [hlead] at hp hq
    rw [← hp] at hq
    exact absurd hq (by decide)

/-- **A line feed at its end lets a session into the directory of another one.** -/
theorem line_feed_shares_directory :
    isSessionId "a\n" = true ∧ isSessionId "a_" = true ∧ "a\n" ≠ "a_" ∧
      projectPath (.ofText "/ws") "a\n" = projectPath (.ofText "/ws") "a_" ∧
      (projectPath (.ofText "/ws") "a\n").name ≠ "a\n" := by
  decide +kernel

end StagedEdits
