import StagedEdits.Proofs.FanOut
import StagedEdits.Service.Server

set_option autoImplicit false

/-! # Clients that leave

A client that listens to a session is registered with the hub until it is taken off again. While it
listens, others use the hub as well, and sessions come and go. A client that leaves because it is
gone, and one that a message did not reach, leaves no trace on the hub. One that leaves in any other
way stays registered.

Main definitions: `StayMove`, `Stay`, `Hub.Hosts`. Main statements: `Hub.Hosts.call` (a call of
others), `Server.hub_hear` (a frame), `Stay.Hosted.step` (one move), `Stay.taken_off_iff`. -/

namespace StagedEdits

/-! ## A hub with a guest and without -/

section Guests

variable {σ : Type}

namespace HubCall

/-- That a call neither brings `socket` to `session` nor takes it off. -/
def Spares (socket : σ) (session : String) : HubCall σ → Prop
  | .connect x s => x = socket → s ≠ session
  | .disconnect x s => x = socket → s ≠ session
  | .send .. => True

/-- Whether a call is a message to `session` that does not reach `socket`. -/
def misses (socket : σ) (session : String) : HubCall σ → Bool
  | .send fails s => s == session && (fails socket).isSome
  | _ => false

end HubCall

variable [DecidableEq σ] {h alone : Hub σ} {socket : σ} {session : String} {there : Bool}

namespace Hub

/-- How often `socket` is registered for `session` in `h`. -/
def registrations (h : Hub σ) (socket : σ) (session : String) : Nat :=
  (h.sockets session).count socket

/-- That `h` is the hub `alone` but for one registration of `socket` for `session`. If `there`, `h`
    lists the sockets of `session` as `alone` does, with one `socket` put in somewhere; if not, just
    as `alone` does, and the registration is lost. -/
structure Hosts (h alone : Hub σ) (socket : σ) (session : String) (there : Bool) : Prop where
  others : ∀ s, alone.sockets s = if s = session then (h.sockets s).erase socket else h.sockets s
  guest : h.registrations socket session = if there then 1 else 0

/-- A socket that was not there comes to listen. -/
theorem hosts_connect (hnew : socket ∉ h.sockets session) :
    (h.connect socket session).Hosts h socket session true where
  others s := by
    rw [sockets_connect]
    split
    · next hs => rw [hs, List.erase_append_right _ hnew, List.erase_cons_head, List.append_nil]
    · rfl
  guest := by
    rw [registrations, sockets_connect, if_pos rfl, List.count_append, List.count_eq_zero.2 hnew]
    simp

/-- Without the guest its socket is not there. -/
theorem Hosts.not_mem_erase (hh : h.Hosts alone socket session there) :
    socket ∉ (h.sockets session).erase socket := by
  have hcount : (h.sockets session).count socket = _ := hh.guest
  rw [← List.count_eq_zero, List.count_erase_self, hcount]
  cases there <;> rfl

theorem Hosts.elsewhere (hh : h.Hosts alone socket session there) {s : String} (hs : s ≠ session) :
    h.sockets s = alone.sockets s := by
  rw [hh.others, if_neg hs]

/-- A hub that lost its guest is as the one without. -/
theorem Hosts.lost (hh : h.Hosts alone socket session false) :
    socket ∉ h.sockets session ∧ ∀ s, h.sockets s = alone.sockets s := by
  have hnot : socket ∉ h.sockets session := List.count_eq_zero.1 hh.guest
  refine ⟨hnot, fun s => ?_⟩
  by_cases hs : s = session
  · rw [hh.others, if_pos hs, hs, List.erase_of_not_mem hnot]
  · exact hh.elsewhere hs

/-- A hub with its guest counts one more. -/
theorem Hosts.present (hh : h.Hosts alone socket session true) :
    socket ∈ h.sockets session ∧ h.count session = alone.count session + 1 := by
  have hcount : (h.sockets session).count socket = 1 := hh.guest
  have hmem : socket ∈ h.sockets session := List.one_le_count_iff.1 (Nat.le_of_eq hcount.symm)
  refine ⟨hmem, ?_⟩
  rw [count, count, hh.others, if_pos rfl, List.length_erase_of_mem hmem,
    Nat.sub_add_cancel (List.length_pos_of_mem hmem)]

/-- A guest that is taken off is lost, also one that was lost before. -/
theorem Hosts.disconnect (hh : h.Hosts alone socket session there) :
    (h.disconnect socket session).Hosts alone socket session false where
  others s := by
    rw [hh.others, sockets_disconnect]
    split
    · next hs => rw [hs, List.erase_of_not_mem hh.not_mem_erase]
    · rfl
  guest := by
    rw [registrations, sockets_disconnect, if_pos rfl, List.count_eq_zero.2 hh.not_mem_erase]
    rfl

theorem erase_concat_of_ne {x : σ} (hx : x ≠ socket) (l : List σ) :
    (l ++ [x]).erase socket = l.erase socket ++ [x] := by
  by_cases hmem : socket ∈ l
  · rw [List.erase_append_left _ hmem]
  · rw [List.erase_append_right _ hmem, List.erase_of_not_mem hmem,
      List.erase_of_not_mem (by simpa using hx.symm)]

/-- Another registration comes. -/
theorem Hosts.connect_other (hh : h.Hosts alone socket session there) {x : σ} {t : String}
    (hx : x = socket → t ≠ session) :
    (h.connect x t).Hosts (alone.connect x t) socket session there := by
  refine ⟨fun s => ?_, ?_⟩
  · rw [sockets_connect, sockets_connect, hh.others]
    by_cases hs : s = session
    · by_cases ht : s = t
      · have hne : x ≠ socket := fun e => hx e (ht ▸ hs)
        rw [if_pos hs, if_pos ht, if_pos hs, if_pos ht, erase_concat_of_ne hne]
      · rw [if_pos hs, if_neg ht, if_pos hs, if_neg ht]
    · rw [if_neg hs, if_neg hs]
  · rw [← hh.guest, registrations, registrations, sockets_connect]
    split
    · next ht =>
      have hne : x ≠ socket := fun e => hx e ht.symm
      rw [List.count_append, List.count_singleton, if_neg (by simpa using hne), Nat.add_zero]
    · rfl

/-- Another registration goes. -/
theorem Hosts.disconnect_other (hh : h.Hosts alone socket session there) {x : σ} {t : String}
    (hx : x = socket → t ≠ session) :
    (h.disconnect x t).Hosts (alone.disconnect x t) socket session there := by
  refine ⟨fun s => ?_, ?_⟩
  · rw [sockets_disconnect, sockets_disconnect, hh.others]
    by_cases hs : s = session
    · by_cases ht : s = t
      · rw [if_pos hs, if_pos ht, if_pos hs, if_pos ht, List.erase_comm]
      · rw [if_pos hs, if_neg ht, if_pos hs, if_neg ht]
    · rw [if_neg hs, if_neg hs]
  · rw [← hh.guest, registrations, registrations, sockets_disconnect]
    split
    · next ht => exact List.count_erase_of_ne fun e => hx e.symm ht.symm
    · rfl

/-- A message goes to a session. -/
theorem Hosts.send (hh : h.Hosts alone socket session there) (fails : σ → Option String)
    (t : String) :
    (h.send fails t).Hosts (alone.send fails t) socket session
      (there && !(t == session && (fails socket).isSome)) := by
  refine ⟨fun s => ?_, ?_⟩
  · rw [sockets_send, sockets_send, receivers, receivers, hh.others]
    by_cases hs : s = session
    · by_cases ht : s = t
      · rw [if_pos hs, if_pos ht, if_pos hs, if_pos ht, List.erase_filter]
      · rw [if_pos hs, if_neg ht, if_pos hs, if_neg ht]
    · rw [if_neg hs, if_neg hs]
  · have hguest : (h.sockets session).count socket = if there then 1 else 0 := hh.guest
    rw [registrations, sockets_send, receivers]
    by_cases ht : t = session
    · rw [if_pos ht.symm]
      cases hfails : (fails socket).isSome with
      | true =>
        have hnot : socket ∉ (h.sockets session).filter (fun x => (fails x).isNone) := by
          intro hmem
          simp [Option.isNone_iff_eq_none.1 (List.mem_filter.1 hmem).2] at hfails
        rw [List.count_eq_zero.2 hnot]
        simp [ht]
      | false =>
        rw [List.count_filter (by simpa using hfails), hguest]
        simp [ht]
    · rw [if_neg (Ne.symm ht), hguest]
      simp [ht]

/-- **What others do with a hub they do alike with the guest and without.** The guest is lost when a
    message misses it, that is when `c.misses socket session`. -/
theorem Hosts.call (hh : h.Hosts alone socket session there) {c : HubCall σ}
    (hc : c.Spares socket session) :
    (h.call c).Hosts (alone.call c) socket session (there && !c.misses socket session) := by
  cases c with
  | connect x t =>
    show Hosts _ _ _ _ (there && !false)
    rw [Bool.not_false, Bool.and_true]
    exact hh.connect_other hc
  | disconnect x t =>
    show Hosts _ _ _ _ (there && !false)
    rw [Bool.not_false, Bool.and_true]
    exact hh.disconnect_other hc
  | send fails t => exact hh.send fails t

end Hub

end Guests

/-! ## The stay of a client -/

/-- What happens to a `Stay`: `hear` and `used` while the client listens, `usedLater` when it does
    so no more. The calls are those of all others on the hub, and between them the rest of the
    service may change as it likes. -/
inductive StayMove where
  /-- The client sends a frame, and this becomes of a reply to it. -/
  | frame (f : Server.Frame) (receipt : Server.Receipt)
  /-- Something breaks the waiting for a frame off. -/
  | cut
  /-- Others use the hub. -/
  | call (c : HubCall String)
  /-- What the service keeps besides the hub becomes anything else. -/
  | change (s : Server)

namespace StayMove

/-- The call of a move that uses the hub. -/
def call? : StayMove → Option (HubCall String)
  | .call c => some c
  | _ => none

/-- What others do with the hub in the course of `ms`. -/
def calls (ms : List StayMove) : List (HubCall String) := ms.filterMap call?

end StayMove

/-- A client that listens to a session, or did: `socket` and `id`, the `server`, and how it left, if
    it has. -/
structure Stay where
  socket : String
  id : String
  server : Server
  /-- How it left, once it did. -/
  left : Option Server.Departure

namespace Server

theorem hub_cancel (s : Server) (x : Session) : (s.cancel x).hub = s.hub := rfl

/-- A frame does nothing to the hub but take a client off that turns out to be gone. -/
theorem hub_hear (s : Server) (socket id : String) (f : Frame) (receipt : Receipt) :
    (s.hear socket id f receipt).1.hub =
      if (s.hear socket id f receipt).2 = some .gone then s.hub.disconnect socket id
      else s.hub := by
  cases f with
  | gone => rfl
  | unreadable => rfl
  | value v =>
    cases v with
    | obj fields =>
      cases hcancel : (Json.obj fields).field? "type" == some (.str "CANCEL") with
      | false => simp [hear, takeFrame, hcancel]
      | true =>
        cases hfind : s.find id with
        | ok x => simp [hear, takeFrame, hcancel, hfind, hub_cancel]
        | error => cases receipt <;> simp [hear, takeFrame, hcancel, hfind]
    | _ => rfl

end Server

namespace Stay

/-- The client at `socket` comes to listen to the session `id` of `s`. -/
def opened (s : Server) (socket id : String) : Stay := ⟨socket, id, s.connect socket id, none⟩

/-- The stay `e` after a move. A client that left is not listened to any more. -/
def step (e : Stay) : StayMove → Stay
  | .frame f receipt =>
    match e.left with
    | some _ => e
    | none =>
      let (server, left) := e.server.hear e.socket e.id f receipt
      { e with server, left }
  | .cut => { e with left := e.left <|> some .failed }
  | .call c => { e with server := { e.server with hub := e.server.hub.call c } }
  | .change s => { e with server := { s with hub := e.server.hub } }

/-- The stay `e` after the moves `ms`. -/
def after (e : Stay) (ms : List StayMove) : Stay := ms.foldl step e

/-- Whether the client of `e` was taken off the hub: it left because it is gone, or one of `calls`
    missed it. -/
def takenOff (e : Stay) (calls : List (HubCall String)) : Bool :=
  e.left == some .gone || calls.any (·.misses e.socket e.id)

/-- How the hub of `e` stands to that of `s` after `calls`, what it were if the client had never
    come and others had used it alike: it `Hosts` the registration of the client, which is there
    unless it was taken off. -/
def Hosted (e : Stay) (s : Server) (calls : List (HubCall String)) : Prop :=
  e.server.hub.Hosts (s.hub.after calls) e.socket e.id !e.takenOff calls

variable {e : Stay} {s : Server} {calls : List (HubCall String)}

/-- **A move `m` keeps the hub in step with the hub without the client**, if what others do by it
    spares the client. -/
theorem Hosted.step (h : e.Hosted s calls) {m : StayMove}
    (hm : ∀ c ∈ m.call?, c.Spares e.socket e.id) :
    (e.step m).Hosted s (calls ++ m.call?.toList) := by
  have hstays (m : StayMove) (hcall : m.call? = none) : calls ++ m.call?.toList = calls := by
    rw [hcall, Option.toList_none, List.append_nil]
  cases m with
  | frame f receipt =>
    rw [hstays _ rfl]
    cases hleft : e.left with
    | some d =>
      have hsame : e.step (.frame f receipt) = e := by simp only [Stay.step, hleft]
      rwa [hsame]
    | none =>
      have hstep : e.step (.frame f receipt) =
          { e with server := (e.server.hear e.socket e.id f receipt).1,
                   left := (e.server.hear e.socket e.id f receipt).2 } := by
        simp only [Stay.step, hleft]
      rw [hstep, Hosted, Server.hub_hear]
      by_cases hgone : (e.server.hear e.socket e.id f receipt).2 = some .gone
      · rw [if_pos hgone, takenOff, hgone]
        exact Hub.Hosts.disconnect h
      · have hstill : takenOff { e with
            server := (e.server.hear e.socket e.id f receipt).1,
            left := (e.server.hear e.socket e.id f receipt).2 } calls = e.takenOff calls := by
          simp [takenOff, hleft, hgone]
        rw [if_neg hgone, hstill]
        exact h
  | cut =>
    rw [hstays _ rfl]
    have hstill : (e.step .cut).takenOff calls = e.takenOff calls := by
      cases hleft : e.left <;> simp [takenOff, Stay.step, hleft]
    rw [Hosted, hstill]
    exact h
  | call c =>
    have hall : (e.step (.call c)).takenOff (calls ++ [c]) =
        (e.takenOff calls || c.misses e.socket e.id) := by
      simp [takenOff, Stay.step, Bool.or_assoc]
    have hcalls : s.hub.after (calls ++ [c]) = (s.hub.after calls).call c := by
      simp [Hub.after]
    rw [Hosted, StayMove.call?, Option.toList_some, hall, hcalls, Bool.not_or]
    exact Hub.Hosts.call h (hm c rfl)
  | change t =>
    rw [hstays _ rfl]
    exact h

theorem step_socket (e : Stay) (m : StayMove) : (e.step m).socket = e.socket := by
  cases m with
  | frame f receipt => cases hleft : e.left <;> simp only [Stay.step, hleft]
  | _ => rfl

theorem step_id (e : Stay) (m : StayMove) : (e.step m).id = e.id := by
  cases m with
  | frame f receipt => cases hleft : e.left <;> simp only [Stay.step, hleft]
  | _ => rfl

theorem after_socket (e : Stay) (ms : List StayMove) : (e.after ms).socket = e.socket := by
  induction ms generalizing e with
  | nil => rfl
  | cons m ms ih => exact (ih (e.step m)).trans (e.step_socket m)

theorem after_id (e : Stay) (ms : List StayMove) : (e.after ms).id = e.id := by
  induction ms generalizing e with
  | nil => rfl
  | cons m ms ih => exact (ih (e.step m)).trans (e.step_id m)

/-- **Moves in any order keep the hub in step with the hub without the client**, if all that others
    do in `ms` spares the client. -/
theorem Hosted.after (h : e.Hosted s calls) {ms : List StayMove}
    (hms : ∀ c ∈ StayMove.calls ms, c.Spares e.socket e.id) :
    (e.after ms).Hosted s (calls ++ StayMove.calls ms) := by
  induction ms generalizing e calls with
  | nil => rwa [StayMove.calls, List.filterMap_nil, List.append_nil]
  | cons m ms ih =>
    have hcalls : StayMove.calls (m :: ms) = m.call?.toList ++ StayMove.calls ms := by
      rw [StayMove.calls, List.filterMap_cons]
      cases m.call? <;> rfl
    rw [hcalls] at hms ⊢
    rw [← List.append_assoc]
    refine ih (h.step fun c hc => hms c ?_) fun c hc => ?_
    · exact List.mem_append_left _ (Option.mem_toList.2 hc)
    · rw [step_socket, step_id]
      exact hms c (List.mem_append_right _ hc)

theorem opened_hosted {socket id : String} (hnew : socket ∉ s.hub.sockets id) :
    (opened s socket id).Hosted s [] := Hub.hosts_connect hnew

/-- **A client leaves no trace on the hub just if it leaves because it is gone, or a message missed
    it.** Let a client come to listen to the session `id` with a `socket` of its own and send any
    frames, whatever becomes of the replies; let others use the hub meanwhile, and anything else of
    the service change: all that is `ms`. Then the hub `h` holds no registration of the client, and
    the lists and the numbers of the sockets of all sessions are those of `alone`, what they were if
    the client had never come, exactly if `off`: the client left because it is gone, or a message to
    the session did not reach it. Else it is registered once, for its session. So a client whose
    frame cannot be read or is no object, one whose reply fails otherwise, and one whose waiting is
    broken off stay registered. -/
theorem taken_off_iff {s : Server} {socket id : String} {ms : List StayMove}
    (hnew : socket ∉ s.hub.sockets id)
    (hspares : ∀ c ∈ StayMove.calls ms, c.Spares socket id) :
    let e := (opened s socket id).after ms
    let h := e.server.hub
    let alone := s.hub.after (StayMove.calls ms)
    let off := e.left = some .gone ∨ ∃ c ∈ StayMove.calls ms, c.misses socket id = true
    (off ↔ socket ∉ h.sockets id) ∧
    (off ↔ ∀ t, h.sockets t = alone.sockets t) ∧
    (off ↔ ∀ t, h.count t = alone.count t) ∧
    (¬off → h.registrations socket id = 1 ∧ h.count id = alone.count id + 1) ∧
    ∀ t, t ≠ id → h.sockets t = alone.sockets t := by
  intro e h alone off
  have hh : h.Hosts alone socket id !e.takenOff (StayMove.calls ms) := by
    have hhosted := (opened_hosted hnew).after hspares
    rw [List.nil_append, Hosted, after_socket, after_id] at hhosted
    exact hhosted
  have hoff : off ↔ e.takenOff (StayMove.calls ms) = true := by
    have hsocket : e.socket = socket := after_socket _ _
    have hid : e.id = id := after_id _ _
    simp [off, takenOff, hsocket, hid]
  cases hoff' : e.takenOff (StayMove.calls ms) with
  | true =>
    rw [hoff'] at hh hoff
    obtain ⟨hnot, hsame⟩ := hh.lost
    have hyes : off := hoff.2 rfl
    exact ⟨iff_of_true hyes hnot, iff_of_true hyes hsame,
      iff_of_true hyes fun t => congrArg List.length (hsame t), absurd hyes, fun t _ => hsame t⟩
  | false =>
    rw [hoff'] at hh hoff
    obtain ⟨hmem, hcount⟩ := hh.present
    have hno : ¬off := fun h => nomatch hoff.1 h
    have hmore : ¬∀ t, h.count t = alone.count t := fun hall => by
      have := hall id
      omega
    refine ⟨iff_of_false hno (not_not_intro hmem), iff_of_false hno fun hall => ?_,
      iff_of_false hno hmore, fun _ => ⟨hh.guest, hcount⟩, fun t ht => hh.elsewhere ht⟩
    exact hmore fun t => congrArg List.length (hall t)

/-- A client leaves in the middle of a reply, while another one listens that a message misses. -/
theorem gone_client_leaves_no_trace :
    let s := Server.start default true Disk.empty
    let ms : List StayMove := [.call (.connect "b" "s"),
      .call (.send (fun x => if x = "b" then some "closed" else none) "s"),
      .frame (.value (.obj [("type", .str "CANCEL")])) .gone]
    let e := (opened s "a" "s").after ms
    e.left = some .gone ∧ "a" ∉ e.server.hub.sockets "s" ∧
      ∀ t, e.server.hub.count t = (s.hub.after (StayMove.calls ms)).count t := by
  intro s ms e
  have hleft : e.left = some .gone := by decide +kernel
  have hnew : "a" ∉ s.hub.sockets "s" := by decide +kernel
  have hspares : ∀ c ∈ StayMove.calls ms, c.Spares "a" "s" := by
    simp [ms, StayMove.calls, StayMove.call?, HubCall.Spares]
  obtain ⟨hmem, -, hcount, -⟩ := taken_off_iff hnew hspares
  exact ⟨hleft, hmem.1 (.inl hleft), hcount.1 (.inl hleft)⟩

/-- A client that sends a list is listened to no more, and stays registered. -/
theorem listed_frame_leaves_registration :
    let s := Server.start default true Disk.empty
    let e := (opened s "a" "s").after [.frame (.value (.arr [.nat 1])) .taken]
    e.left = some .failed ∧ "a" ∈ e.server.hub.sockets "s" ∧
      e.server.hub.count "s" = 1 ∧ s.hub.count "s" = 0 := by
  decide +kernel

end Stay

end StagedEdits
