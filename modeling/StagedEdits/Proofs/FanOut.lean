import Mathlib.Data.List.Basic
import StagedEdits.Service.Hub

set_option autoImplicit false

/-! # Messages to the sockets of a session

Sockets come and go, and one may listen to a session more than once. Beside the hub, which keeps a
list for each session that has one, stands the roll: one list of all registrations, in the order
they were made. Calls leave the two in step. A message reaches the registrations of its session
whose socket works, and takes all registrations off that session whose socket failed.

Main definitions: `HubCall`, `Hub.after`, `Roll`, `Roll.after`, `Hub.Follows`. Main statements:
`Hub.sockets_send` (one message), `Hub.Follows.call` (one call), `Hub.fans_out`. -/

namespace StagedEdits

/-- A call of `Hub` that may change who listens. -/
inductive HubCall (σ : Type) where
  | connect (socket : σ) (session : String)
  | disconnect (socket : σ) (session : String)
  /-- A message goes to a session; sockets may fail, for a reason. -/
  | send (fails : σ → Option String) (session : String)

/-- To take out one item for each that satisfies a test takes out all that do. -/
theorem diff_filter {α : Type} [DecidableEq α] (p : α → Bool) (l : List α) :
    l.diff (l.filter p) = l.filter (fun x => !p x) := by
  induction l with
  | nil => rfl
  | cons x l ih =>
    cases hp : p x with
    | true =>
      rw [List.filter_cons_of_pos hp, List.filter_cons_of_neg (by simp [hp]), List.diff_cons,
        List.erase_cons_head, ih]
    | false =>
      have hnot : x ∉ l.filter p := fun h => by simp [hp] at h
      rw [List.filter_cons_of_neg (by simp [hp]), List.filter_cons_of_pos (by simp [hp]),
        List.cons_diff_of_not_mem hnot, ih]

namespace Hub

/-! ## The list of a session -/

section Lists

variable {σ : Type} (h : Hub σ) (session s : String)

theorem get?_setSockets (l : List σ) :
    (h.setSockets session l).sessions.get? s =
      if s = session then if l = [] then none else some l else h.sessions.get? s := by
  cases l with
  | nil => simp [setSockets]
  | cons x l => simp [setSockets]

@[simp] theorem sockets_setSockets (l : List σ) :
    (h.setSockets session l).sockets s = if s = session then l else h.sockets s := by
  rw [sockets, get?_setSockets]
  by_cases hs : s = session
  · by_cases hl : l = [] <;> simp [hs, hl]
  · rw [if_neg hs, if_neg hs, sockets]

@[simp] theorem sockets_connect (socket : σ) :
    (h.connect socket session).sockets s =
      if s = session then h.sockets s ++ [socket] else h.sockets s := by
  rw [connect, sockets_setSockets]
  split
  · next hs => rw [hs]
  · rfl

/-- That `h` keeps no session that has no sockets. -/
def Tidy (h : Hub σ) : Prop := ∀ s, h.sessions.get? s ≠ some []

theorem empty_tidy : (empty : Hub σ).Tidy := fun _ => nofun

variable {h}

theorem Tidy.setSockets (ht : h.Tidy) (l : List σ) : (h.setSockets session l).Tidy := by
  intro s
  rw [get?_setSockets]
  split
  · split
    · exact nofun
    · next hl => simpa using hl
  · exact ht s

/-- What a tidy hub keeps of a session follows from its sockets. -/
theorem Tidy.get?_eq (ht : h.Tidy) :
    h.sessions.get? s = if h.sockets s = [] then none else some (h.sockets s) := by
  rw [sockets]
  cases hs : h.sessions.get? s with
  | none => rfl
  | some l =>
    have hl : l ≠ [] := fun e => ht s (e ▸ hs)
    simp [hl]

end Lists

variable {σ : Type} [DecidableEq σ]

/-! ## One call -/

section Calls

variable (h : Hub σ) (session s : String)

/-- The hub after a call. -/
def call (h : Hub σ) : HubCall σ → Hub σ
  | .connect socket session => h.connect socket session
  | .disconnect socket session => h.disconnect socket session
  | .send fails session => h.send fails session

/-- The hub `h` after `calls`, each made when the one before was over. -/
def after (h : Hub σ) (calls : List (HubCall σ)) : Hub σ := calls.foldl call h

@[simp] theorem sockets_disconnect (socket : σ) :
    (h.disconnect socket session).sockets s =
      if s = session then (h.sockets s).erase socket else h.sockets s := by
  rw [disconnect, sockets_setSockets]
  split
  · next hs => rw [hs]
  · rfl

theorem sockets_disconnects (sockets : List σ) :
    (sockets.foldl (fun h x => h.disconnect x session) h).sockets s =
      if s = session then (h.sockets s).diff sockets else h.sockets s := by
  induction sockets generalizing h with
  | nil => simp
  | cons x sockets ih =>
    rw [List.foldl_cons, ih, sockets_disconnect, List.diff_cons]
    split <;> rfl

/-- **A message leaves its session those sockets that it reached**, the `receivers`, in their order
    and as often as they listened, and leaves all other sessions alone. -/
@[simp] theorem sockets_send (fails : σ → Option String) :
    (h.send fails session).sockets s =
      if s = session then h.receivers fails s else h.sockets s := by
  rw [send, sockets_disconnects, missed, receivers]
  split
  · next hs => simp only [hs, diff_filter, Option.not_isSome]
  · rfl

variable {h}

theorem Tidy.call (ht : h.Tidy) (c : HubCall σ) : (h.call c).Tidy := by
  cases c with
  | connect => exact ht.setSockets _ _
  | disconnect => exact ht.setSockets _ _
  | send fails session =>
    show (List.foldl _ h _).Tidy
    generalize h.missed fails session = dead
    induction dead generalizing h with
    | nil => exact ht
    | cons x dead ih => exact ih (ht.setSockets _ _)

end Calls

end Hub

/-! ## The roll -/

variable {σ : Type} [DecidableEq σ]

/-- All registrations in the order they were made: each a session and a socket that listens. -/
abbrev Roll (σ : Type) := List (String × σ)

namespace Roll

/-- The roll after a call. A socket that goes away takes its first registration along, one that a
    message of a session does not reach all that it has there. -/
def call (r : Roll σ) : HubCall σ → Roll σ
  | .connect socket session => r ++ [(session, socket)]
  | .disconnect socket session => r.erase (session, socket)
  | .send fails session => r.filter (fun x => !(x.1 == session && (fails x.2).isSome))

/-- The roll after `calls`, at first empty. -/
def after (calls : List (HubCall σ)) : Roll σ := calls.foldl call []

/-- The sockets that the roll `r` names for `session`, in the order in which they registered. -/
def listeners (r : Roll σ) (session : String) : List σ :=
  (r.filter (fun x => x.1 == session)).map Prod.snd

section Listeners

variable {σ : Type} (r : Roll σ) (session s : String)

@[simp] theorem listeners_nil : listeners ([] : Roll σ) s = [] := rfl

@[simp] theorem listeners_cons (x : String × σ) :
    listeners (x :: r) s = if x.1 = s then x.2 :: listeners r s else listeners r s := by
  by_cases hx : x.1 = s
  · simp [listeners, hx]
  · simp [listeners, hx]

@[simp] theorem listeners_append (r' : Roll σ) :
    listeners (r ++ r') s = listeners r s ++ listeners r' s := by
  rw [listeners, List.filter_append, List.map_append, listeners, listeners]

theorem length_listeners : (listeners r s).length = r.countP (fun x => x.1 == s) := by
  rw [listeners, List.length_map, List.countP_eq_length_filter]

theorem listeners_filter (p : σ → Bool) :
    listeners (r.filter (fun x => !(x.1 == session && p x.2))) s =
      if s = session then (listeners r s).filter (fun x => !p x) else listeners r s := by
  induction r with
  | nil => simp
  | cons x r ih =>
    obtain ⟨t, w⟩ := x
    -- who is dropped listens to the session, so that its list loses the same socket
    by_cases hdrop : t = session ∧ p w = true
    · obtain ⟨rfl, hp⟩ := hdrop
      rw [List.filter_cons_of_neg (by simp [hp]), ih, listeners_cons]
      by_cases hs : t = s
      · simp [hs, hp]
      · simp [hs, Ne.symm hs]
    · rw [List.filter_cons_of_pos (by simpa [imp_iff_not_or] using hdrop), listeners_cons,
        listeners_cons, ih]
      by_cases hs : t = s
      · by_cases hsession : s = session
        · simp_all
        · simp [hs, hsession]
      · simp [hs]

end Listeners

theorem count_listeners (r : Roll σ) (socket : σ) (s : String) :
    (listeners r s).count socket = r.count (s, socket) := by
  induction r with
  | nil => rfl
  | cons x r ih =>
    obtain ⟨t, w⟩ := x
    by_cases hs : t = s
    · simp [List.count_cons, hs, ih]
    · simp [hs, ih]

theorem listeners_erase (r : Roll σ) (socket : σ) (session s : String) :
    listeners (r.erase (session, socket)) s =
      if s = session then (listeners r s).erase socket else listeners r s := by
  induction r with
  | nil => simp
  | cons x r ih =>
    by_cases hx : x = (session, socket)
    · subst hx
      by_cases hs : session = s
      · simp [hs]
      · simp [hs, Ne.symm hs]
    · obtain ⟨t, w⟩ := x
      rw [List.erase_cons_tail (by simpa using hx), listeners_cons, listeners_cons, ih]
      by_cases hs : t = s
      · by_cases hsession : s = session
        · have hw : w ≠ socket := by
            rintro rfl
            exact hx (by rw [hs, hsession])
          simp [hs, hsession, hw]
        · simp [hs, hsession]
      · simp [hs]

end Roll

/-! ## In step -/

namespace Hub

/-- That the hub `h` lists the sockets on the roll `r`: those of each session in the order they
    registered, and no session without any. -/
structure Follows (h : Hub σ) (r : Roll σ) : Prop where
  sockets : ∀ s, h.sockets s = Roll.listeners r s
  tidy : h.Tidy

variable {h : Hub σ} {r : Roll σ}

/-- **A call `c` keeps the hub in step with the roll** `r`. -/
theorem Follows.call (hr : h.Follows r) (c : HubCall σ) : (h.call c).Follows (Roll.call r c) := by
  refine ⟨fun s => ?_, hr.tidy.call c⟩
  cases c with
  | connect socket session =>
    rw [Hub.call, sockets_connect, Roll.call, Roll.listeners_append, hr.sockets,
      Roll.listeners_cons, Roll.listeners_nil]
    by_cases hs : s = session
    · simp [hs]
    · simp [hs, Ne.symm hs]
  | disconnect socket session =>
    rw [Hub.call, sockets_disconnect, Roll.call, Roll.listeners_erase, hr.sockets]
  | send fails session =>
    rw [Hub.call, sockets_send, Roll.call,
      Roll.listeners_filter r session s (fun x => (fails x).isSome), receivers, hr.sockets]
    simp only [Option.not_isSome]

theorem Follows.after (hr : h.Follows r) (calls : List (HubCall σ)) :
    (h.after calls).Follows (calls.foldl Roll.call r) := by
  induction calls generalizing h r with
  | nil => exact hr
  | cons c calls ih => exact ih (hr.call c)

theorem after_follows (calls : List (HubCall σ)) :
    ((empty : Hub σ).after calls).Follows (Roll.after calls) :=
  Follows.after ⟨fun _ => rfl, empty_tidy⟩ calls

/-- **A message reaches every registration of its session whose socket works.** Let sockets have
    come and gone and messages been sent by `calls` in any order, and any sockets have failed. The
    hub `h` lists the registrations on the roll `r` for each session in the order they were made,
    counts them, and keeps no session that has none. A message to `session` reaches, in that order,
    exactly its registrations whose socket does not fail, so that a socket gets it once for each
    time it is registered there, and none for its registrations elsewhere. What it leaves of the
    list of the session are these registrations in their order; what is kept of any other session
    stays as it is. -/
theorem fans_out (calls : List (HubCall σ)) (fails : σ → Option String) (session : String) :
    let h := (empty : Hub σ).after calls
    let r := Roll.after calls
    let told := h.receivers fails session
    let h' := h.send fails session
    (∀ s, h.sockets s = Roll.listeners r s ∧ h.count s = r.countP (fun x => x.1 == s) ∧
      h.sessions.get? s ≠ some []) ∧
    told = (r.filter (fun x => x.1 == session && (fails x.2).isNone)).map Prod.snd ∧
    (∀ socket, told.count socket =
      if (fails socket).isNone then r.count (session, socket) else 0) ∧
    h'.sockets session = (h.sockets session).filter (fun x => (fails x).isNone) ∧
    ∀ s, s ≠ session → h'.sessions.get? s = h.sessions.get? s := by
  intro h r told h'
  have hr : h.Follows r := after_follows calls
  have htold : told = (r.filter (fun x => x.1 == session && (fails x.2).isNone)).map Prod.snd := by
    have hsockets : told = (Roll.listeners r session).filter (fun x => (fails x).isNone) := by
      rw [← hr.sockets]
      rfl
    rw [hsockets, Roll.listeners, List.filter_map, List.filter_filter]
    simp only [Function.comp_def, Bool.and_comm]
  refine ⟨fun s => ⟨hr.sockets s, ?_, hr.tidy s⟩, htold, fun socket => ?_, ?_, fun s hs => ?_⟩
  · rw [count, hr.sockets, Roll.length_listeners]
  · rw [← Roll.count_listeners, ← hr.sockets]
    split
    · next hlive => exact List.count_filter hlive
    · next hdead => exact List.count_eq_zero.2 fun hmem => hdead (List.mem_filter.1 hmem).2
  · rw [sockets_send, if_pos rfl]
    rfl
  · have htidy : h'.Tidy := hr.tidy.call (.send fails session)
    rw [htidy.get?_eq, hr.tidy.get?_eq, sockets_send, if_neg hs]

end Hub

end StagedEdits
