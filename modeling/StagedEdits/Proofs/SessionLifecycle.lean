import StagedEdits.Proofs.SessionMoves
import StagedEdits.Service.Exchange

set_option autoImplicit false

/-! # The life of a session

Requests that come one after the other, each when all turns have stopped, find the sessions in the
registry that they left behind: a session is active from the request that its turn was accepted with
until its turn stops to be dropped, or a commit goes through, or it is deleted. Between the requests
the world does what it likes with the turn that runs.

Main definitions: `Server.ask`, `Deed`, `Life`, `Life.step`. Main statements: `Server.ask_cases`,
`Life.Sound.step`, `Life.active_iff`, `Life.negative_setting_hides_conflict` (a request that is not
told of a conflict). -/

namespace StagedEdits

/-! ## Requests and what they do -/

/-- Whether a request only asks, wherever it goes. -/
def Dispatch.isReading : Dispatch → Bool
  | .to (.turns _) | .to (.commit _) | .to (.session _) => false
  | _ => true

namespace Server

/-- Whether no turn runs at `s`. -/
def isQuiet (s : Server) : Bool :=
  s.sessions.keys.all (fun u => (s.sessions.get? u).all (fun x => x.ended))

theorem ended_of_isQuiet {s : Server} (h : s.isQuiet = true) {u : String} {x : Session}
    (hx : s.sessions.get? u = some x) : x.ended = true := by
  have hkey : u ∈ s.sessions.keys := Table.mem_keys.2 (by rw [hx]; rfl)
  have hall := List.all_eq_true.1 h u hkey
  rw [hx] at hall
  exact hall

theorem mem_ids {s : Server} {id : String} :
    id ∈ s.registry.ids ↔ (s.registry.sessions.get? id).isSome = true := by
  rw [Registry.ids, Names.mem_toList, Names.mem_ofList, Table.mem_keys]

/-- Answers a request as `Server.respond` does; if it waits for a turn to stop, once that has
    stopped. -/
def ask (s : Server) (sabotage : Sabotage) (method path : String) (body : RequestBody) :
    Server × Response :=
  match s.respond sabotage method path body with
  | (s, .answered r) => (s, r)
  | (s, .removing x) => s.finishRemoval x

end Server

/-- What an answer tells to have been done under an id. -/
inductive Deed where
  /-- A turn was accepted. -/
  | accepted (id turnId : String)
  /-- A commit went through. -/
  | committed (id : String)
  | deleted (id : String)

namespace Deed

/-- The id that something was done under. -/
def id : Deed → String
  | .accepted id _ | .committed id | .deleted id => id

/-- What the response `r` to a request with `method` and `path` tells to have been done. -/
def ofResponse? (method path : String) (r : Response) : Option Deed :=
  match dispatch method path with
  | .to (.turns id) =>
    match r.content with
    | .events turnId => some (.accepted id turnId)
    | _ => none
  | .to (.commit id) => if r.status = 200 then some (.committed id) else none
  | .to (.session id) => if r.status = 200 then some (.deleted id) else none
  | _ => none

/-- The last of `deeds` under `id`. -/
def last? (deeds : List Deed) (id : String) : Option Deed :=
  (deeds.filter (fun d => d.id = id)).getLast?

theorem last?_append (deeds : List Deed) (d : Deed) (id : String) :
    last? (deeds ++ [d]) id = if d.id = id then some d else last? deeds id := by
  unfold last?
  rw [List.filter_append, List.getLast?_append]
  split
  · rename_i hd
    rw [List.filter_cons_of_pos (by simpa using hd)]
    rfl
  · rename_i hd
    rw [List.filter_cons_of_neg (by simpa using hd)]
    rfl

end Deed

namespace Response

/-- A failure is no success, and starts no turn. -/
theorem ofFailure_refuses (f : Failure) :
    (ofFailure f).status ≠ 200 ∧ ∀ u, (ofFailure f).content ≠ .events u := by
  unfold ofFailure
  split <;> exact ⟨by simp [refusal, broken], nofun⟩

theorem ofBodyFault_refuses (f : BodyFault) :
    (ofBodyFault f).status ≠ 200 ∧ ∀ u, (ofBodyFault f).content ≠ .events u := by
  unfold ofBodyFault
  split
  · exact ⟨by decide, nofun⟩
  · split <;> exact ⟨by decide, nofun⟩

end Response

namespace Server

section Requests

variable {s : Server}

/-- A request for a turn is refused, or opens a session. -/
theorem answerTurn_cases (s : Server) (id : String) (body : RequestBody) :
    let a := s.answerTurn id body
    s.Keeps a.1 ∧ (∀ u, a.2.content ≠ .events u) ∨
      ∃ y, s.Opens id y a.1 ∧ a.2.content = .events y.turnId := by
  intro a
  have ha : a = s.answerTurn id body := rfl
  unfold answerTurn at ha
  split at ha
  · rename_i f _
    rw [ha]
    exact .inl ⟨.refl, (Response.ofBodyFault_refuses f).2⟩
  · rename_i r _
    split at ha
    · rw [ha]
      exact .inl ⟨.refl, nofun⟩
    · split at ha
      · rw [ha]
        exact .inl ⟨.refl, nofun⟩
      · have hcases := s.startTurn_cases id r.prompt r.maxAttempts
        generalize s.startTurn id r.prompt r.maxAttempts = p at ha hcases
        obtain ⟨s', result⟩ := p
        dsimp only at ha hcases
        rcases hcases with ⟨-, hk, rfl⟩ | ⟨-, ⟨-, hk, rfl⟩ | ⟨y, ho, rfl⟩⟩
        · rw [ha]
          exact .inl ⟨hk, (Response.ofFailure_refuses _).2⟩
        · rw [ha]
          exact .inl ⟨hk, (Response.ofFailure_refuses _).2⟩
        · rw [ha]
          exact .inr ⟨y, ho, rfl⟩

/-- A commit finds no session that it may commit, or fails and leaves the session as it was, or goes
    through and frees the id. -/
theorem commitNow_cases (h : s.Orderly) (sabotage : Sabotage) (id : String) (force : Bool) :
    let a := s.commitNow sabotage id force
    s.Keeps a.1 ∧ a.2.status ≠ 200 ∨
      ∃ x y, s.registry.sessions.get? id = some x.turnId ∧
        s.sessions.get? x.turnId = some x ∧ x.id = id ∧ x.Rests y ∧
        (a.2.status = 200 ∧ s.Alters x y true a.1 ∨
          a.2.status ≠ 200 ∧ y.turn.overlay = x.turn.overlay ∧ s.Alters x y false a.1) := by
  intro a
  have ha : a = s.commitNow sabotage id force := rfl
  unfold commitNow at ha
  cases hb : s.beginCommit id force with
  | error f =>
    rw [hb] at ha
    rw [ha]
    exact .inl ⟨.refl, (Response.ofFailure_refuses _).1⟩
  | ok p =>
    rw [hb] at ha
    obtain ⟨hr, hx, hid, -⟩ := beginCommit_ok h hb
    obtain ⟨y, hrests, hend⟩ := endCommit_alters h hx rfl sabotage
    refine .inr ⟨p.session, y, hr, hx, hid, hrests, ?_⟩
    dsimp only at ha
    generalize s.endCommit sabotage p = e at ha hend
    obtain ⟨s', result⟩ := e
    rcases hend with ⟨report, rfl, halters⟩ | ⟨f, rfl, hoverlay, halters⟩
    · rw [ha]
      exact .inl ⟨rfl, halters⟩
    · rw [ha]
      exact .inr ⟨(Response.ofFailure_refuses _).1, hoverlay, halters⟩

/-- A removal that has found a session frees its id. -/
theorem removal_alters (h : s.Orderly) {id : String} {s' : Server} {x : Session}
    (hb : s.beginRemoval id = .ok (s', x)) :
    s.registry.sessions.get? id = some x.turnId ∧ s.sessions.get? x.turnId = some x ∧ x.id = id ∧
      (s'.finishRemoval x).2.status = 200 ∧
      ∃ y, x.Rests y ∧ s.Alters x y true (s'.finishRemoval x).1 := by
  obtain ⟨hr, hx, hid, y, hrests, halters⟩ := beginRemoval_ok h hb
  have hy : s'.sessions.get? x.turnId = some y := by rw [halters.sessions, if_pos rfl]
  obtain ⟨z, hrests', halters'⟩ := endRemoval_alters (h.alters hx hrests.toOnward halters) hy
  exact ⟨hr, hx, hid, rfl, z, hrests.trans hrests', halters.trans halters' hrests.toOnward⟩

/-- What a request to `s` can do, and what its answer tells of it. -/
inductive Answers (s : Server) : Option Deed → Server → Prop
  /-- Nothing is done. -/
  | nothing {s' : Server} (h : s.Keeps s') : Answers s none s'
  /-- A commit fails. -/
  | fails {s' : Server} {x y : Session} (hx : s.sessions.get? x.turnId = some x) (hr : x.Rests y)
    (h : s.Alters x y false s') : Answers s none s'
  /-- A turn is accepted. -/
  | opens {s' : Server} {id : String} {y : Session} (h : s.Opens id y s') :
    Answers s (some (.accepted id y.turnId)) s'
  /-- A commit goes through, or a session is deleted. -/
  | ends {s' : Server} {x y : Session} {d : Deed} (hx : s.sessions.get? x.turnId = some x)
    (hr : x.Rests y) (h : s.Alters x y true s') (hid : d.id = x.id)
    (hd : ∀ u, d ≠ .accepted x.id u) : Answers s (some d) s'

/-- A request for the session of an id that there is not, or that cannot be. -/
theorem withSession_cases (s : Server) (id : String) (next : Session → Server × Exchange) :
    (∃ x, s.find id = .ok x ∧ s.withSession id next = next x) ∨
      ∃ r, s.withSession id next = (s, .answered r) ∧ r.status ≠ 200 := by
  unfold withSession
  split
  · exact .inr ⟨_, rfl, by decide⟩
  · cases s.find id with
    | error f => exact .inr ⟨_, rfl, (Response.ofFailure_refuses _).1⟩
    | ok x => exact .inl ⟨x, rfl, rfl⟩

section Ask

variable (sabotage : Sabotage) {method path id : String} (body : RequestBody)

theorem ask_turns (hd : dispatch method path = .to (.turns id)) :
    s.ask sabotage method path body = s.answerTurn id body := by
  unfold ask respond
  rw [hd]
  rfl

/-- A valid request for a turn is told of a conflict exactly where the id is taken, unless there can
    be no turn. -/
theorem conflict_iff {r : TurnRequest} (hto : dispatch method path = .to (.turns id))
    (hbody : TurnRequest.ofBody body = .ok r) (hid : isSessionId id = true)
    (hagent : s.hasAgent = true) :
    if s.limitOf r.maxAttempts < 0 then (s.ask sabotage method path body).2.status = 500
    else ((s.ask sabotage method path body).2.status = 409 ↔ id ∈ s.registry.ids) := by
  rw [ask_turns sabotage body hto, answerTurn, hbody, mem_ids]
  simp only [hid, hagent, Bool.not_true, Bool.false_eq_true, if_false]
  have hcases := s.startTurn_cases id r.prompt r.maxAttempts
  generalize s.startTurn id r.prompt r.maxAttempts = p at hcases
  obtain ⟨s', result⟩ := p
  rcases hcases with ⟨hlimit, -, hres⟩ | ⟨hlimit, ⟨htaken, -, hres⟩ | ⟨y, ho, hres⟩⟩
  · rw [if_pos hlimit]
    cases hres
    rfl
  · rw [if_neg (by omega)]
    cases hres
    exact ⟨fun _ => htaken, fun _ => rfl⟩
  · rw [if_neg (by omega), ho.free]
    cases hres
    exact iff_of_false (fun hs => by cases hs) (fun hs => by cases hs)

theorem ask_commit (h : s.Orderly) (hd : dispatch method path = .to (.commit id)) :
    let a := s.ask sabotage method path body
    s.Keeps a.1 ∧ a.2.status ≠ 200 ∨
      ∃ x y, s.registry.sessions.get? id = some x.turnId ∧
        s.sessions.get? x.turnId = some x ∧ x.id = id ∧ x.Rests y ∧
        (a.2.status = 200 ∧ s.Alters x y true a.1 ∨
          a.2.status ≠ 200 ∧ y.turn.overlay = x.turn.overlay ∧ s.Alters x y false a.1) := by
  unfold ask respond
  rw [hd]
  simp only [respondAt]
  cases CommitRequest.ofBody body with
  | error f => exact .inl ⟨.refl, (Response.ofBodyFault_refuses f).1⟩
  | ok c =>
    dsimp only
    rcases s.withSession_cases id (fun _ => ((s.commitNow sabotage id c.force).1,
      .answered (s.commitNow sabotage id c.force).2)) with ⟨x, -, he⟩ | ⟨r, he, hr⟩
    · rw [he]
      exact commitNow_cases h sabotage id c.force
    · rw [he]
      exact .inl ⟨.refl, hr⟩

/-- A commit that does not go through leaves all ids and all overlays as they are. -/
theorem ask_commit_fails (h : s.Orderly) (hto : dispatch method path = .to (.commit id))
    (hstatus : (s.ask sabotage method path body).2.status ≠ 200) :
    (∀ j, (s.ask sabotage method path body).1.registry.sessions.get? j =
        s.registry.sessions.get? j) ∧
      ∀ u, ((s.ask sabotage method path body).1.sessions.get? u).map (·.turn.overlay) =
        (s.sessions.get? u).map (·.turn.overlay) := by
  rcases ask_commit sabotage body h hto with
    ⟨hk, -⟩ | ⟨x, y, -, hx, -, -, ⟨hs, -⟩ | ⟨-, hoverlay, ha⟩⟩
  · rw [hk.registry, hk.sessions]
    exact ⟨fun _ => rfl, fun _ => rfl⟩
  · exact absurd hs hstatus
  · refine ⟨fun j => ?_, fun u => ?_⟩
    · rw [ha.registry, if_neg (fun hf => absurd hf.1 nofun)]
    · rw [ha.sessions]
      split
      · rename_i hu
        subst hu
        rw [hx]
        exact congrArg some hoverlay
      · rfl

theorem ask_session (h : s.Orderly) (hd : dispatch method path = .to (.session id)) :
    let a := s.ask sabotage method path body
    s.Keeps a.1 ∧ a.2.status ≠ 200 ∨
      ∃ x y, s.registry.sessions.get? id = some x.turnId ∧
        s.sessions.get? x.turnId = some x ∧ x.id = id ∧ x.Rests y ∧
        a.2.status = 200 ∧ s.Alters x y true a.1 := by
  unfold ask respond
  rw [hd]
  simp only [respondAt]
  rcases s.withSession_cases id _ with ⟨x, hf, he⟩ | ⟨r, he, hr⟩
  · rw [he]
    cases hb : s.beginRemoval id with
    | error f => exact .inl ⟨.refl, (Response.ofFailure_refuses _).1⟩
    | ok p =>
      obtain ⟨s', w⟩ := p
      obtain ⟨hr, hx, hid, hstatus, y, hrests, halters⟩ := removal_alters h hb
      exact .inr ⟨w, y, hr, hx, hid, hrests, hstatus, halters⟩
  · rw [he]
    exact .inl ⟨.refl, hr⟩

/-- A request that only asks changes nothing. -/
theorem ask_keeps (hd : (dispatch method path).isReading = true) :
    s.Keeps (s.ask sabotage method path body).1 := by
  unfold ask respond
  cases hto : dispatch method path with
  | «to» r =>
    rw [hto] at hd
    cases r with
    | turns | commit | session => cases hd
    | files id =>
      simp only [respondAt]
      rcases s.withSession_cases id _ with ⟨x, -, he⟩ | ⟨r, he, -⟩ <;> rw [he] <;> exact .refl
    | _ => exact .refl
  | _ => exact .refl

/-- **What a request does, and what its answer tells of it**: the servers before and behind a call
    of `path` are as `Answers` says for what it did. -/
theorem ask_cases (h : s.Orderly) (method path : String) :
    let a := s.ask sabotage method path body
    s.Answers (Deed.ofResponse? method path a.2) a.1 := by
  intro a
  unfold Deed.ofResponse?
  cases hd : dispatch method path with
  | «to» r =>
    cases r with
    | turns id =>
      have ha : a = s.answerTurn id body := ask_turns sabotage body hd
      rw [ha]
      rcases s.answerTurn_cases id body with ⟨hk, hc⟩ | ⟨y, ho, hc⟩
      · dsimp only
        split
        · rename_i u hu
          exact absurd hu (hc u)
        · exact .nothing hk
      · dsimp only
        rw [hc]
        exact .opens ho
    | commit id =>
      rcases ask_commit sabotage body h hd with
        ⟨hk, hs⟩ | ⟨x, y, -, hx, hid, hrests, ⟨hs, ha⟩ | ⟨hs, -, ha⟩⟩
      · dsimp only
        rw [if_neg hs]
        exact .nothing hk
      · dsimp only
        rw [if_pos hs]
        exact .ends hx hrests ha hid.symm nofun
      · dsimp only
        rw [if_neg hs]
        exact .fails hx hrests ha
    | session id =>
      rcases ask_session sabotage body h hd with
        ⟨hk, hs⟩ | ⟨x, y, -, hx, hid, hrests, hs, ha⟩
      · dsimp only
        rw [if_neg hs]
        exact .nothing hk
      · dsimp only
        rw [if_pos hs]
        exact .ends hx hrests ha hid.symm nofun
    | _ => exact .nothing (ask_keeps sabotage body (by rw [hd]; rfl))
  | _ => exact .nothing (ask_keeps sabotage body (by rw [hd]; rfl))

end Ask

end Requests

end Server

theorem Session.not_isDropped_iff {x : Session} :
    x.isDropped = false ↔ x.turn.status = .clean ∨ x.turn.status = .failed := by
  unfold Session.isDropped
  cases x.turn.status <;> decide

/-! ## Requests one after the other -/

/-- What happens at a service whose requests come one after the other. -/
inductive LifeMove where
  /-- A request is made, and answered in full before the next. -/
  | ask (sabotage : Sabotage) (method path : String) (body : RequestBody)
  | world (m : Server.WorldMove)

/-- A service with what its answers told to have been done. -/
structure Life where
  server : Server
  deeds : List Deed

namespace Life

/-- The service before any request. -/
def new (settings : Settings) (hasAgent : Bool) (d : Disk) : Life :=
  ⟨Server.start settings hasAgent d, []⟩

/-- The service `w` after one more move; a request waits until no turn runs, and is not made
    before. -/
def step (w : Life) : LifeMove → Life
  | .ask sabotage method path body =>
    if w.server.isQuiet then
      let a := w.server.ask sabotage method path body
      ⟨a.1, w.deeds ++ (Deed.ofResponse? method path a.2).toList⟩
    else w
  | .world m => { w with server := w.server.moved m }

/-- The service `w` after `moves`. -/
def after (w : Life) (moves : List LifeMove) : Life := moves.foldl step w

/-- That the last thing done under `id` was to accept the turn `turnId`, whose session either runs
    or is not dropped. -/
def Stays (w : Life) (id turnId : String) : Prop :=
  Deed.last? w.deeds id = some (.accepted id turnId) ∧
    ∃ x, w.server.sessions.get? turnId = some x ∧ (x.ended = false ∨ x.isDropped = false)

/-- What holds of `w` at all times. -/
structure Sound (w : Life) : Prop where
  orderly : w.server.Orderly
  /-- A turn that was accepted has a session of that id. -/
  accepted : ∀ id u, Deed.last? w.deeds id = some (.accepted id u) →
    ∃ x, w.server.sessions.get? u = some x ∧ x.id = id
  active : ∀ id u, w.server.registry.sessions.get? id = some u ↔ w.Stays id u
  /-- A session whose turn runs is active. -/
  running : ∀ u x, w.server.sessions.get? u = some x → x.ended = false →
    w.server.registry.sessions.get? x.id = some u

section Step

variable {w : Life} {s' : Server} {x y : Session} {freed : Bool}

theorem Sound.keeps (h : w.Sound) (hk : w.server.Keeps s') : (Life.mk s' w.deeds).Sound := by
  refine ⟨h.orderly.keeps hk, ?_, ?_, ?_⟩
  · intro id u hlast
    obtain ⟨x, hx, hid⟩ := h.accepted id u hlast
    exact ⟨x, by rw [← hx, ← hk.sessions], hid⟩
  · intro id u
    unfold Stays
    dsimp only
    rw [hk.registry, hk.sessions]
    exact h.active id u
  · dsimp only
    rw [hk.registry, hk.sessions]
    exact h.running

/-- A turn is accepted where its id is free. -/
theorem Sound.opens (h : w.Sound) {id : String} (ho : w.server.Opens id y s') :
    (Life.mk s' (w.deeds ++ [.accepted id y.turnId])).Sound := by
  have hfresh := ho.fresh h.orderly
  have hnew : s'.sessions.get? y.turnId = some y := by rw [ho.sessions, if_pos rfl]
  refine ⟨h.orderly.opens ho, ?_, ?_, ?_⟩
  · intro j u hlast
    rw [Deed.last?_append] at hlast
    split at hlast
    · rename_i hj
      cases hlast
      exact ⟨y, hnew, ho.named⟩
    · obtain ⟨x, hx, hid⟩ := h.accepted j u hlast
      exact ⟨x, ho.get?_old h.orderly hx, hid⟩
  · intro j u
    unfold Stays
    dsimp only
    rw [Deed.last?_append, ho.registry]
    by_cases hj : j = id
    · subst hj
      rw [if_pos rfl, if_pos (show Deed.id (.accepted _ _) = j from rfl)]
      constructor
      · intro hu
        cases hu
        exact ⟨rfl, y, hnew, .inl ho.running⟩
      · rintro ⟨hlast, -⟩
        cases hlast
        rfl
    · rw [if_neg hj, if_neg (show ¬Deed.id (.accepted id _) = j from fun he => hj he.symm),
        h.active j u]
      constructor
      · rintro ⟨hlast, x, hx, hs⟩
        exact ⟨hlast, x, ho.get?_old h.orderly hx, hs⟩
      · rintro ⟨hlast, x, hx, hs⟩
        obtain ⟨x', hx', -⟩ := h.accepted j u hlast
        cases hx.symm.trans (ho.get?_old h.orderly hx')
        exact ⟨hlast, x, hx', hs⟩
  · intro u x hx hended
    rcases ho.get?_eq hx with ⟨rfl, rfl⟩ | hold
    · rw [ho.registry, if_pos ho.named]
    · have hr := h.running u x hold hended
      rw [ho.registry, if_neg, hr]
      intro hid
      rw [hid] at hr
      exact absurd (hr.symm.trans ho.free) nofun

section Onward

variable (h : w.Sound) (hx : w.server.sessions.get? x.turnId = some x)

include h hx

/-- A session whose id is freed was active under it, so no other session was. -/
theorem Sound.not_freed {id u : String} (hr : w.server.registry.sessions.get? id = some u)
    (hne : u ≠ x.turnId) : ¬((!x.ended && y.ended && y.isDropped) = true ∧ id = x.id) := by
  rintro ⟨hf, rfl⟩
  simp only [Bool.and_eq_true, Bool.not_eq_true'] at hf
  exact hne (Option.some.inj (hr.symm.trans (h.running _ x hx hf.1.1)))

variable (ho : x.Onward y) (ha : w.server.Alters x y (!x.ended && y.ended && y.isDropped) s')

include ho ha

/-- What is active behind a session that goes on stays so. -/
theorem Sound.onward_stays {id u : String} (hr : s'.registry.sessions.get? id = some u) :
    (Life.mk s' w.deeds).Stays id u := by
  obtain ⟨hr, hkept⟩ := ha.registry_eq hr
  obtain ⟨hlast, z, hz, hstay⟩ := (h.active id u).1 hr
  refine ⟨hlast, ?_⟩
  by_cases hu : u = x.turnId
  · subst hu
    cases hx.symm.trans hz
    obtain ⟨x', hx', hid⟩ := h.orderly.registered hr
    cases hx.symm.trans hx'
    have hf : (!x.ended && y.ended && y.isDropped) = false :=
      Bool.eq_false_iff.2 fun hf => hkept hf hid.symm
    refine ⟨y, by rw [ha.sessions, if_pos rfl], ?_⟩
    rcases hstay with hruns | hd
    · rw [hruns] at hf
      exact Bool.and_eq_false_iff.1 hf
    · exact .inr (ho.not_isDropped hd)
  · exact ⟨z, by rw [ha.sessions, if_neg hu, hz], hstay⟩

/-- What stays behind a session that goes on is active. -/
theorem Sound.onward_active {id u : String} (hstays : (Life.mk s' w.deeds).Stays id u) :
    s'.registry.sessions.get? id = some u := by
  obtain ⟨hlast, z, hz, hstay⟩ := hstays
  rcases ha.get?_eq hz with ⟨rfl, rfl⟩ | ⟨hne, hold⟩
  · have hbefore : x.ended = false ∨ x.isDropped = false := by
      cases hended : x.ended with
      | false => exact .inl rfl
      | true =>
        rcases hstay with hruns | hd
        · exact absurd ((ho.ended hended).symm.trans hruns) nofun
        · exact .inr ((ho.isDropped_of_ended hended).symm.trans hd)
    have hr := (h.active id _).2 ⟨hlast, x, hx, hbefore⟩
    rw [ha.registry, if_neg, hr]
    rintro ⟨hf, -⟩
    simp only [Bool.and_eq_true, Bool.not_eq_true'] at hf
    rcases hstay with hruns | hd
    · exact absurd (hf.1.2.symm.trans hruns) nofun
    · exact absurd (hf.2.symm.trans hd) nofun
  · have hr := (h.active id u).2 ⟨hlast, z, hold, hstay⟩
    rw [ha.registry, if_neg (h.not_freed hx hr hne), hr]

/-- Behind a session that goes on each session whose turn runs is active. -/
theorem Sound.onward_running {u : String} {z : Session} (hz : s'.sessions.get? u = some z)
    (hended : z.ended = false) : s'.registry.sessions.get? z.id = some u := by
  rcases ha.get?_eq hz with ⟨rfl, rfl⟩ | ⟨hne, hold⟩
  · have hruns : x.ended = false := Bool.eq_false_iff.2 fun he =>
      absurd ((ho.ended he).symm.trans hended) nofun
    have hr := h.running _ x hx hruns
    rw [ha.registry, ho.id, if_neg, hr]
    rintro ⟨hf, -⟩
    rw [hended, Bool.and_false] at hf
    cases hf
  · have hr := h.running u z hold hended
    rw [ha.registry, if_neg (h.not_freed hx hr hne), hr]

end Onward

/-- A session goes on, and stays active unless its turn stops and it is dropped. -/
theorem Sound.shifts (h : w.Sound) (hs : w.server.Shifts s') : (Life.mk s' w.deeds).Sound := by
  rcases hs with hk | ⟨x, y, hx, ho, ha⟩
  · exact h.keeps hk
  · refine ⟨h.orderly.alters hx ho ha, fun id u hlast => ?_,
      fun id u => ⟨h.onward_stays hx ho ha, h.onward_active hx ho ha⟩,
      fun u z => h.onward_running hx ho ha⟩
    obtain ⟨z, hz, hid⟩ := h.accepted id u hlast
    obtain ⟨z', hz', honward⟩ := ha.onward ho h.orderly hx hz
    exact ⟨z', hz', honward.id.trans hid⟩

/-- A session is committed or deleted when no turn runs. -/
theorem Sound.ends (h : w.Sound) (hq : w.server.isQuiet = true) {d : Deed}
    (hx : w.server.sessions.get? x.turnId = some x) (hr : x.Rests y)
    (ha : w.server.Alters x y true s') (hid : d.id = x.id) (hd : ∀ u, d ≠ .accepted x.id u) :
    (Life.mk s' (w.deeds ++ [d])).Sound := by
  have honward := hr.toOnward
  refine ⟨h.orderly.alters hx honward ha, ?_, ?_, ?_⟩
  · intro id u hlast
    rw [Deed.last?_append] at hlast
    split at hlast
    · rename_i hdid
      cases hdid.symm.trans hid
      exact absurd (Option.some.inj hlast) (hd u)
    · obtain ⟨z, hz, hzid⟩ := h.accepted id u hlast
      obtain ⟨z', hz', honward'⟩ := ha.onward honward h.orderly hx hz
      exact ⟨z', hz', honward'.id.trans hzid⟩
  · intro id u
    unfold Stays
    dsimp only
    rw [Deed.last?_append, ha.registry]
    by_cases hidx : id = x.id
    · subst hidx
      rw [if_pos ⟨rfl, rfl⟩, if_pos hid]
      exact ⟨nofun, fun hs => absurd (Option.some.inj hs.1) (hd u)⟩
    · rw [if_neg (fun hf => hidx hf.2), if_neg (fun he => hidx (he.symm.trans hid)), h.active id u,
        ha.sessions]
      refine and_congr_right fun _ => ?_
      split
      · rename_i hu
        subst hu
        rw [hx]
        simp only [Option.some.injEq, exists_eq_left', hr.running, hr.isDropped]
      · exact Iff.rfl
  · intro u z hz hended
    have hstopped : z.ended = true := by
      rcases ha.get?_eq hz with ⟨rfl, rfl⟩ | ⟨-, hold⟩
      · exact hr.running.trans (Server.ended_of_isQuiet hq hx)
      · exact Server.ended_of_isQuiet hq hold
    exact absurd (hstopped.symm.trans hended) nofun

end Step

/-- **Every move `m` keeps what holds at all times.** -/
theorem Sound.step {w : Life} (h : w.Sound) (m : LifeMove) : (w.step m).Sound := by
  cases m with
  | world m => exact h.shifts (Server.moved_shifts h.orderly m)
  | ask sabotage method path body =>
    simp only [Life.step]
    split
    · rename_i hq
      have hcases : w.server.Answers _ _ :=
        Server.ask_cases sabotage body h.orderly method path
      generalize w.server.ask sabotage method path body = a at hcases
      generalize Deed.ofResponse? method path a.2 = done at hcases
      cases hcases with
      | nothing hk =>
        rw [Option.toList_none, List.append_nil]
        exact h.keeps hk
      | fails hx hr ha =>
        rw [Option.toList_none, List.append_nil]
        exact h.shifts (ha.shifts_of_rests hx hr)
      | opens ho => exact h.opens ho
      | ends hx hr ha hid hd => exact h.ends hq hx hr ha hid hd
    · exact h

theorem new_sound (settings : Settings) (hasAgent : Bool) (d : Disk) :
    (new settings hasAgent d).Sound where
  orderly := Server.start_orderly settings hasAgent d
  accepted _ _ hlast := absurd hlast nofun
  active _ _ := ⟨fun hr => absurd hr nofun, fun hs => absurd hs.1 nofun⟩
  running _ _ hx := absurd hx nofun

theorem Sound.after {w : Life} (h : w.Sound) (moves : List LifeMove) : (w.after moves).Sound := by
  induction moves generalizing w with
  | nil => exact h
  | cons m moves ih => exact ih (h.step m)

/-- **When no turn runs, the active ids are those whose last accepted turn ended clean or failed and
    was neither committed nor deleted since.** That is so whenever the service `isQuiet` behind
    `moves`, requests that came one after the other, whatever the agents, the type checkers, the
    sockets and the disk did. A valid request for a turn is told of a conflict exactly at these ids,
    unless the number of repairs that it takes from the settings, `limitOf`, is negative. A commit
    that is refused or fails leaves all ids and all overlays as they are. -/
theorem active_iff (settings : Settings) (hasAgent : Bool) (d : Disk) (moves : List LifeMove) :
    let w := (new settings hasAgent d).after moves
    let s := w.server
    (s.isQuiet = true → ∀ id, id ∈ s.registry.ids ↔ ∃ u x,
      Deed.last? w.deeds id = some (.accepted id u) ∧ s.sessions.get? u = some x ∧
        (x.turn.status = .clean ∨ x.turn.status = .failed)) ∧
      (∀ sabotage method path id body r, dispatch method path = .to (.turns id) →
        TurnRequest.ofBody body = .ok r → isSessionId id = true → s.hasAgent = true →
          let status := (s.ask sabotage method path body).2.status
          if s.limitOf r.maxAttempts < 0 then status = 500
          else (status = 409 ↔ id ∈ s.registry.ids)) ∧
      ∀ sabotage method path id body, dispatch method path = .to (.commit id) →
        let a := s.ask sabotage method path body
        a.2.status ≠ 200 →
          (∀ j, a.1.registry.sessions.get? j = s.registry.sessions.get? j) ∧
            ∀ u, (a.1.sessions.get? u).map (·.turn.overlay) =
              (s.sessions.get? u).map (·.turn.overlay) := by
  intro w s
  have h : w.Sound := (new_sound settings hasAgent d).after moves
  refine ⟨fun hq id => ?_, fun sabotage method path id body r hto hbody hid hagent => ?_,
    fun sabotage method path id body hto => ?_⟩
  · rw [Server.mem_ids, Option.isSome_iff_exists]
    constructor
    · rintro ⟨u, hr⟩
      obtain ⟨hlast, x, hx, hstay⟩ := (h.active id u).1 hr
      refine ⟨u, x, hlast, hx, Session.not_isDropped_iff.1 ?_⟩
      rcases hstay with hruns | hd
      · exact absurd ((Server.ended_of_isQuiet hq hx).symm.trans hruns) nofun
      · exact hd
    · rintro ⟨u, x, hlast, hx, hs⟩
      exact ⟨u, (h.active id u).2 ⟨hlast, x, hx, .inr (Session.not_isDropped_iff.2 hs)⟩⟩
  · intro status
    exact Server.conflict_iff sabotage body hto hbody hid hagent
  · intro a hstatus
    exact Server.ask_commit_fails sabotage body h.orderly hto hstatus

/-- Behind a turn that failed its id stays taken: the next request for a turn is told of a conflict,
    and a commit that does not insist is refused and leaves the id and the overlay. -/
theorem failed_turn_holds_id :
    let u := turnIdOf 1
    let body : RequestBody := .value (.obj [("prompt", .str "go")])
    let moves : List LifeMove := [
      .ask noSabotage "POST" "/api/sessions/s/turns" body,
      .world (.reply u .opened), .world (.reply u (.failed (.other "RuntimeError" "lost"))),
      .world (.tell (fun _ => none) u), .world (.reply u .closed)]
    ∃ w, w = (new default true Disk.empty).after moves ∧ w.server.isQuiet = true ∧
      (∃ v x, Deed.last? w.deeds "s" = some (.accepted "s" v) ∧
        w.server.sessions.get? v = some x ∧
        (x.turn.status = .clean ∨ x.turn.status = .failed)) ∧
      (w.server.ask noSabotage "POST" "/api/sessions/s/turns" body).2.status = 409 ∧
      let a := w.server.ask noSabotage "POST" "/api/sessions/s/commit" .missing
      a.2.status ≠ 200 ∧
        a.1.registry.sessions.get? "s" = w.server.registry.sessions.get? "s" ∧
        (a.1.sessions.get? u).map (·.turn.overlay) =
          (w.server.sessions.get? u).map (·.turn.overlay) := by
  intro u body moves
  obtain ⟨hids, hconflict, hcommit⟩ := active_iff default true Disk.empty moves
  have hquiet : ((new default true Disk.empty).after moves).server.isQuiet = true := by
    decide +kernel
  have hactive : "s" ∈ ((new default true Disk.empty).after moves).server.registry.ids := by
    decide +kernel
  have hagent : ((new default true Disk.empty).after moves).server.hasAgent = true := by
    decide +kernel
  have hlimit : ¬((new default true Disk.empty).after moves).server.limitOf none < 0 := by
    decide +kernel
  have hrefused : (((new default true Disk.empty).after moves).server.ask noSabotage "POST"
      "/api/sessions/s/commit" .missing).2.status ≠ 200 := by
    decide +kernel
  have hturn := hconflict noSabotage "POST" "/api/sessions/s/turns" "s" body ⟨"go", none⟩
    (by decide) rfl (by decide) hagent
  rw [if_neg hlimit] at hturn
  obtain ⟨hregistry, hoverlays⟩ := hcommit noSabotage "POST" "/api/sessions/s/commit" "s" .missing
    (by decide) hrefused
  exact ⟨_, rfl, hquiet, (hids hquiet "s").1 hactive, hturn.2 hactive, hrefused, hregistry "s",
    hoverlays u⟩

/-- **A conflict that is not told.** The settings give a number of repairs that is negative, and a
    turn that was given one itself has failed. A request that gives none finds the service broken,
    though its id is active. -/
theorem negative_setting_hides_conflict :
    let env : String → Option String := fun name =>
      if name = "REPAIR_MAX_ATTEMPTS" then some "-1" else none
    let settings : Settings := { (default : Settings) with maxAttempts := -1 }
    let u := turnIdOf 1
    let body (fields : List (String × Json)) : RequestBody :=
      .value (.obj (("prompt", .str "go") :: fields))
    let moves : List LifeMove := [
      .ask noSabotage "POST" "/api/sessions/s/turns" (body [("max_attempts", .int 0)]),
      .world (.reply u .opened), .world (.reply u (.failed (.other "RuntimeError" "lost"))),
      .world (.tell (fun _ => none) u), .world (.reply u .closed)]
    let s := ((new settings true Disk.empty).after moves).server
    (Settings.ofEnvironment env ⟨0, ["srv"]⟩).toOption.map (·.maxAttempts) =
        some settings.maxAttempts ∧
      s.isQuiet = true ∧ "s" ∈ s.registry.ids ∧ isSessionId "s" = true ∧ s.hasAgent = true ∧
      (TurnRequest.ofBody (body [])).toOption = some ⟨"go", none⟩ ∧
      (s.ask noSabotage "POST" "/api/sessions/s/turns" (body [])).2.status = 500 := by
  decide +kernel

end Life

end StagedEdits
