import StagedEdits.Proofs.SessionMoves

set_option autoImplicit false

/-! # Who ends a session

A request to commit or to remove looks the active session of its id up, waits, and in the end takes
whichever session is active under that id out of the registry. While it waits the session that it
looked up may go, and another may be started under the id; then the request takes out a session that
it has nothing to do with, be its turn still running. Nothing else goes wrong: wherever every
request takes out none but a session that it could have looked up, each takes out its own, and so
does the task of a turn. How long a request waits is left open, but for a removal, which waits for
the turn of its session to stop.

Main definitions: `Errand`, `Traffic`, `Traffic.Own`, `Traffic.TakesLater`. Main statements:
`Traffic.own_iff_not_later`, `Traffic.removal_takes_later_session`. -/

namespace StagedEdits

/-! ## Requests that wait -/

/-- A request that has looked a session up and waits: to commit it for the files to be written, to
    remove it for its turn to stop. -/
structure Errand where
  /-- The session that was looked up, as it was then. -/
  session : Session
  /-- What is committed; none for a removal. -/
  handover : Option Turn.Handover
  /-- The turns that there had been when the session was looked up. -/
  known : List String

namespace Errand

/-- Whether `e` may go on by itself: a removal goes on once the turn has stopped. -/
def isReady (e : Errand) (s : Server) : Bool :=
  match e.handover, s.sessions.get? e.session.turnId with
  | none, some x => x.ended
  | _, _ => true

/-- The service `s` after the end of `e`. -/
def finish (e : Errand) (sabotage : Sabotage) (s : Server) : Server :=
  match e.handover with
  | some h => (s.endCommit sabotage ⟨e.session, h⟩).1
  | none => s.endRemoval e.session

end Errand

/-- What can happen at the service. -/
inductive TrafficMove where
  | world (m : Server.WorldMove)
  /-- A turn is to be started under an id. -/
  | start (id prompt : String) (maxAttempts : Option Nat)
  /-- A request comes to commit the session of an id. -/
  | commit (id : String) (force : Bool)
  /-- A request comes to remove the session of an id. -/
  | remove (id : String)
  /-- A request that waits goes on to its end, if it may. -/
  | finish (index : Nat) (sabotage : Sabotage)

/-- The `server` with the requests that wait. -/
structure Traffic where
  server : Server
  errands : List Errand

namespace Traffic

/-- The service before any move. -/
def new (settings : Settings) (hasAgent : Bool) (d : Disk) : Traffic :=
  ⟨Server.start settings hasAgent d, []⟩

/-- The traffic `w` after one more move. -/
def step (w : Traffic) : TrafficMove → Traffic
  | .world m => { w with server := w.server.moved m }
  | .start id prompt maxAttempts =>
    { w with server := (w.server.startTurn id prompt maxAttempts).1 }
  | .commit id force =>
    match w.server.beginCommit id force with
    | .error _ => w
    | .ok p =>
      { w with errands := w.errands ++ [⟨p.session, some p.handover, w.server.sessions.keys⟩] }
  | .remove id =>
    match w.server.beginRemoval id with
    | .error _ => w
    | .ok (s, x) => ⟨s, w.errands ++ [⟨x, none, w.server.sessions.keys⟩]⟩
  | .finish index sabotage =>
    match w.errands[index]? with
    | none => w
    | some e =>
      if e.isReady w.server then ⟨e.finish sabotage w.server, w.errands.eraseIdx index⟩ else w

/-- The traffic `w` after `moves`. -/
def after (w : Traffic) (moves : List TrafficMove) : Traffic := moves.foldl step w

/-- That `m` takes the session of the turn `turnId` out of the registry. -/
def Takes (w : Traffic) (m : TrafficMove) (turnId : String) : Prop :=
  ∃ id, w.server.registry.sessions.get? id = some turnId ∧
    (w.step m).server.registry.sessions.get? id ≠ some turnId

/-- That the session of the turn `turnId` is the one that a move has to do with: the task of the
    turn stops by it, with the session to be dropped, or it ends a request that looked the session
    up. -/
def Serves (w : Traffic) (turnId : String) : TrafficMove → Prop
  | .world m => ∃ x y, w.server.sessions.get? turnId = some x ∧ x.ended = false ∧
      (w.server.moved m).sessions.get? turnId = some y ∧ y.ended = true ∧ y.isDropped = true
  | .finish index _ => ∃ e, w.errands[index]? = some e ∧ e.session.turnId = turnId
  | _ => False

/-- That `m` takes no session out but the one that it has to do with: it `Serves` each of those that
    it `Takes`. -/
def Own (w : Traffic) (m : TrafficMove) : Prop := ∀ u, w.Takes m u → w.Serves u m

/-- That by `m` a request takes a session out which was started after it had looked up its own. -/
def TakesLater (w : Traffic) (m : TrafficMove) : Prop :=
  ∃ index sabotage e u, m = .finish index sabotage ∧ w.errands[index]? = some e ∧
    w.Takes m u ∧ u ∉ e.known

/-- That `m` starts no turn under the id of a request that waits. -/
def Undisturbed (w : Traffic) (m : TrafficMove) : Prop :=
  ∀ id prompt maxAttempts u, m = .start id prompt maxAttempts →
    (w.server.startTurn id prompt maxAttempts).2 = .ok u → ∀ e ∈ w.errands, e.session.id ≠ id

/-- That `P` holds of each of some moves when it comes. -/
def Always (P : Traffic → TrafficMove → Prop) (w : Traffic) : List TrafficMove → Prop
  | [] => True
  | m :: moves => P w m ∧ (w.step m).Always P moves

end Traffic

/-! ## What a request knows -/

/-- That the turn `v` was not made after `u`, by their ids. -/
def NotAfter (v u : String) : Prop := ∀ m n, v = turnIdOf m → u = turnIdOf n → m ≤ n

/-- That a session which is active at `s` was the last to be started under its id. -/
def Server.Latest (s : Server) : Prop :=
  ∀ id u v x, s.registry.sessions.get? id = some u → s.sessions.get? v = some x → x.id = id →
    NotAfter v u

/-- What holds at `s` of the request `e`, which waits. -/
structure Errand.Sound (e : Errand) (s : Server) : Prop where
  /-- Its session is there; one that is committed is not dropped any more. -/
  there : ∃ x, s.sessions.get? e.session.turnId = some x ∧ x.id = e.session.id ∧
    (e.handover.isSome = true → x.isDropped = false)
  own : e.session.turnId ∈ e.known
  known : ∀ u ∈ e.known, (s.sessions.get? u).isSome = true
  /-- Of those that it knows its session was the last to be started under the id. -/
  last : ∀ v ∈ e.known, ∀ x, s.sessions.get? v = some x → x.id = e.session.id →
    NotAfter v e.session.turnId

/-- What holds of `w` at all times. -/
structure Traffic.Sound (w : Traffic) : Prop where
  orderly : w.server.Orderly
  latest : w.server.Latest
  errands : ∀ e ∈ w.errands, e.Sound w.server

section Sound

variable {s s' : Server} {e : Errand}

theorem NotAfter.antisymm (h : s.Orderly) {u v : String} {x y : Session}
    (hu : s.sessions.get? u = some x) (hv : s.sessions.get? v = some y) (huv : NotAfter u v)
    (hvu : NotAfter v u) : u = v := by
  obtain ⟨n, -, rfl⟩ := h.numbered hu
  obtain ⟨m, -, rfl⟩ := h.numbered hv
  exact congrArg turnIdOf (Nat.le_antisymm (huv n m rfl rfl) (hvu m n rfl rfl))

theorem Server.Latest.change (hl : s.Latest) (h : s.Orderly) (hc : s.Change s') : s'.Latest := by
  intro id u v y hr hy hid
  obtain ⟨x, hx, honward⟩ := hc.get?_eq h hy
  have hr' : s.registry.sessions.get? id = some u := by
    cases hc with
    | keeps hk => rwa [hk.registry] at hr
    | alters _ _ ha => exact (ha.registry_eq hr).1
  exact hl _ _ _ _ hr' hx (honward.id ▸ hid)

theorem Server.Latest.opens (hl : s.Latest) (h : s.Orderly) {j : String} {w : Session}
    (ho : s.Opens j w s') : s'.Latest := by
  intro id u v y hr hy hid
  rcases ho.registry_eq hr with ⟨rfl, rfl⟩ | ⟨hne, hr⟩
  · -- the new turn has the highest number so far
    intro m n hv hn
    have hlast : n = s.made + 1 := turnIdOf_inj (hn.symm.trans ho.turnId)
    obtain ⟨k, hk, hvk⟩ := (h.opens ho).numbered hy
    have hm : m = k := turnIdOf_inj (hv.symm.trans hvk)
    have hmade := ho.made
    omega
  · rcases ho.get?_eq hy with ⟨rfl, rfl⟩ | hold
    · exact absurd (hid.symm.trans ho.named) hne
    · exact hl _ _ _ _ hr hold hid

theorem Errand.Sound.follows (he : e.Sound s) (hf : s.Follows s') : e.Sound s' where
  there := by
    obtain ⟨x, hx, hid, hd⟩ := he.there
    obtain ⟨y, hy, honward⟩ := hf _ x hx
    exact ⟨y, hy, honward.id.trans hid, fun hs => honward.not_isDropped (hd hs)⟩
  own := he.own
  known u hu := by
    obtain ⟨x, hx⟩ := Option.isSome_iff_exists.1 (he.known u hu)
    obtain ⟨y, hy, -⟩ := hf u x hx
    rw [hy]
    rfl
  last v hv y hy hid := by
    obtain ⟨x, hx⟩ := Option.isSome_iff_exists.1 (he.known v hv)
    obtain ⟨y', hy', honward⟩ := hf v x hx
    cases hy.symm.trans hy'
    exact he.last v hv x hx (honward.id.symm.trans hid)

/-- A request that looks a session up knows all that there are. -/
theorem Errand.sound_of_found (hl : s.Latest) {id : String} {x : Session}
    (hr : s.registry.sessions.get? id = some x.turnId) (hx : s.sessions.get? x.turnId = some x)
    (hid : x.id = id) {handover : Option Turn.Handover}
    (hd : handover.isSome = true → x.isDropped = false) :
    (Errand.mk x handover s.sessions.keys).Sound s where
  there := ⟨x, hx, rfl, hd⟩
  own := Table.mem_keys.2 (by rw [hx]; rfl)
  known _ hu := Table.mem_keys.1 hu
  last _ _ _ hy hyid := hl _ _ _ _ hr hy (hyid.trans hid)

/-- **An active session that a request knows is the one that it looked up.** -/
theorem Errand.Sound.eq_of_known (he : e.Sound s) (h : s.Orderly) (hl : s.Latest) {u : String}
    (hr : s.registry.sessions.get? e.session.id = some u) (hu : u ∈ e.known) :
    e.session.turnId = u := by
  obtain ⟨x, hx, hid, -⟩ := he.there
  obtain ⟨y, hy, hyid⟩ := h.registered hr
  exact NotAfter.antisymm h hx hy (hl _ _ _ _ hr hx hid) (he.last u hu y hy hyid)

end Sound

namespace Traffic

section Step

variable {w : Traffic}

/-- A request that waits and goes on changes its own session, and frees no id but its own. -/
theorem finish_alters (h : w.Sound) {e : Errand} (he : e ∈ w.errands) (sabotage : Sabotage) :
    ∃ x y freed, w.server.sessions.get? e.session.turnId = some x ∧ x.id = e.session.id ∧
      x.turnId = e.session.turnId ∧ (e.handover.isSome = true → x.isDropped = false) ∧
      x.Rests y ∧ w.server.Alters x y freed (e.finish sabotage w.server) := by
  obtain ⟨x, hx, hid, hd⟩ := (h.errands e he).there
  have hkey := h.orderly.keyed hx
  unfold Errand.finish
  cases ho : e.handover with
  | none =>
    obtain ⟨y, hrests, ha⟩ := Server.endRemoval_alters h.orderly hx
    exact ⟨x, y, true, hx, hid, hkey, nofun, hrests, ha⟩
  | some o =>
    rw [ho] at hd
    obtain ⟨y, hrests, hend⟩ := Server.endCommit_alters (p := ⟨e.session, o⟩) h.orderly hx hid
      sabotage
    rcases hend with ⟨-, -, ha⟩ | ⟨-, -, -, ha⟩
    · exact ⟨x, y, true, hx, hid, hkey, hd, hrests, ha⟩
    · exact ⟨x, y, false, hx, hid, hkey, hd, hrests, ha⟩

/-- What each move does to the sessions. -/
theorem step_cases (h : w.Sound) (m : TrafficMove) :
    (∃ id prompt maxAttempts y, m = .start id prompt maxAttempts ∧
      (w.server.startTurn id prompt maxAttempts).2 = .ok y.turnId ∧
      w.server.Opens id y (w.step m).server) ∨ w.server.Change (w.step m).server := by
  cases m with
  | world m =>
    rcases Server.moved_shifts h.orderly m with hk | ⟨x, y, hx, ho, ha⟩
    · exact .inr (.keeps hk)
    · exact .inr (.alters hx ho ha)
  | start id prompt maxAttempts =>
    rcases w.server.startTurn_cases id prompt maxAttempts with
      ⟨-, hk, -⟩ | ⟨-, ⟨-, hk, -⟩ | ⟨y, ho, hok⟩⟩
    · exact .inr (.keeps hk)
    · exact .inr (.keeps hk)
    · exact .inl ⟨id, prompt, maxAttempts, y, rfl, hok, ho⟩
  | commit id force =>
    simp only [step]
    split <;> exact .inr (.keeps .refl)
  | remove id =>
    simp only [step]
    split
    · exact .inr (.keeps .refl)
    · rename_i s x hb
      obtain ⟨-, hx, -, y, hrests, ha⟩ := Server.beginRemoval_ok h.orderly hb
      exact .inr (.alters hx hrests.toOnward ha)
  | finish index sabotage =>
    simp only [step]
    split
    · exact .inr (.keeps .refl)
    · rename_i e hget
      split
      · obtain ⟨x, y, freed, hx, -, hkey, -, hrests, ha⟩ :=
          finish_alters h (List.mem_of_getElem? hget) sabotage
        rw [← hkey] at hx
        exact .inr (.alters hx hrests.toOnward ha)
      · exact .inr (.keeps .refl)

theorem step_follows (h : w.Sound) (m : TrafficMove) : w.server.Follows (w.step m).server := by
  rcases step_cases h m with ⟨_, _, _, y, -, -, ho⟩ | hc
  · exact ho.follows h.orderly
  · exact hc.follows h.orderly

/-- A session that there was not before has been started. -/
theorem session_cases (h : w.Sound) {m : TrafficMove} {u : String} {y : Session}
    (hy : (w.step m).server.sessions.get? u = some y) :
    (∃ x, w.server.sessions.get? u = some x ∧ x.Onward y) ∨
      ∃ prompt maxAttempts, m = .start y.id prompt maxAttempts ∧
        (w.server.startTurn y.id prompt maxAttempts).2 = .ok u ∧
        (w.step m).server.registry.sessions.get? y.id = some u := by
  rcases step_cases h m with ⟨id, prompt, maxAttempts, z, rfl, hok, ho⟩ | hc
  · rcases ho.get?_eq hy with ⟨rfl, rfl⟩ | hold
    · cases ho.named
      exact .inr ⟨prompt, maxAttempts, rfl, hok, by rw [ho.registry, if_pos rfl]⟩
    · exact .inl ⟨y, hold, (Session.Rests.refl (h.orderly.placed hold)).toOnward⟩
  · exact .inl (hc.get?_eq h.orderly hy)

/-- A request that waits after a move waited before, or has just looked its session up. -/
theorem mem_errands_step (h : w.Sound) {m : TrafficMove} {e : Errand}
    (he : e ∈ (w.step m).errands) :
    e ∈ w.errands ∨ e.known = w.server.sessions.keys ∧ e.Sound w.server := by
  cases m with
  | world => exact .inl he
  | start => exact .inl he
  | commit id force =>
    simp only [step] at he
    split at he
    · exact .inl he
    · rename_i p hb
      obtain ⟨hr, hx, hid, hd⟩ := Server.beginCommit_ok h.orderly hb
      rcases List.mem_append.1 he with he | he
      · exact .inl he
      · cases List.mem_singleton.1 he
        exact .inr ⟨rfl, Errand.sound_of_found h.latest hr hx hid fun _ => hd⟩
  | remove id =>
    simp only [step] at he
    split at he
    · exact .inl he
    · rename_i s x hb
      obtain ⟨hr, hx, hid, -⟩ := Server.beginRemoval_ok h.orderly hb
      rcases List.mem_append.1 he with he | he
      · exact .inl he
      · cases List.mem_singleton.1 he
        exact .inr ⟨rfl, Errand.sound_of_found h.latest hr hx hid nofun⟩
  | finish index sabotage =>
    simp only [step] at he
    split at he
    · exact .inl he
    · split at he
      · exact .inl (List.mem_of_mem_eraseIdx he)
      · exact .inl he

/-- **Every move `m` keeps what holds at all times.** -/
theorem Sound.step (h : w.Sound) (m : TrafficMove) : (w.step m).Sound := by
  have herrands : ∀ e ∈ (w.step m).errands, e.Sound (w.step m).server := by
    intro e he
    rcases mem_errands_step h he with hold | ⟨-, hnew⟩
    · exact (h.errands e hold).follows (step_follows h m)
    · exact hnew.follows (step_follows h m)
  rcases step_cases h m with ⟨_, _, _, y, -, -, ho⟩ | hc
  · exact ⟨h.orderly.opens ho, h.latest.opens h.orderly ho, herrands⟩
  · exact ⟨h.orderly.change hc, h.latest.change h.orderly hc, herrands⟩

/-! ## What a move takes -/

/-- Only an end frees an id: that of a task whose session is dropped, or that of a request. -/
theorem takes_cases (h : w.Sound) {m : TrafficMove} {u : String} (ht : w.Takes m u) :
    (∃ n x y, m = .world n ∧ w.server.sessions.get? x.turnId = some x ∧ x.ended = false ∧
      x.isDropped = true ∧ w.server.registry.sessions.get? x.id = some u ∧
      (w.server.moved n).sessions.get? x.turnId = some y ∧ y.ended = true ∧ y.isDropped = true) ∨
    ∃ index sabotage e, m = .finish index sabotage ∧ w.errands[index]? = some e ∧
      w.server.registry.sessions.get? e.session.id = some u := by
  obtain ⟨id, hr, hlost⟩ := ht
  -- a move frees an id only by changing the session of it
  have hfreed : ∀ {x y : Session} {freed : Bool},
      w.server.Alters x y freed (w.step m).server → freed = true ∧ id = x.id := by
    intro x y freed ha
    rw [ha.registry] at hlost
    split at hlost
    · assumption
    · exact absurd hr hlost
  cases m with
  | world n =>
    rcases Server.moved_shifts h.orderly n with hk | ⟨x, y, hx, ho, ha⟩
    · exact absurd (show (w.server.moved n).registry.sessions.get? id = _ by rw [hk.registry, hr])
        hlost
    · obtain ⟨hf, rfl⟩ := hfreed ha
      simp only [Bool.and_eq_true, Bool.not_eq_true'] at hf
      exact .inl ⟨n, x, y, rfl, hx, hf.1.1, ho.isDropped hf.2, hr,
        by rw [ha.sessions, if_pos rfl], hf.1.2, hf.2⟩
  | start j prompt maxAttempts =>
    refine absurd ?_ hlost
    show (w.server.startTurn j prompt maxAttempts).1.registry.sessions.get? id = _
    rcases w.server.startTurn_cases j prompt maxAttempts with
      ⟨-, hk, -⟩ | ⟨-, ⟨-, hk, -⟩ | ⟨y, ho, -⟩⟩
    · rw [hk.registry, hr]
    · rw [hk.registry, hr]
    · rw [ho.registry, if_neg, hr]
      rintro rfl
      exact absurd (hr.symm.trans ho.free) nofun
  | commit j force =>
    refine absurd ?_ hlost
    simp only [step]
    split <;> exact hr
  | remove j =>
    simp only [step] at hlost hfreed
    split at hlost
    · exact absurd hr hlost
    · rename_i s x hb
      obtain ⟨-, -, -, y, -, ha⟩ := Server.beginRemoval_ok h.orderly hb
      rw [hb] at hfreed
      exact absurd (hfreed ha).1 nofun
  | finish index sabotage =>
    simp only [step] at hlost hfreed
    split at hlost
    · exact absurd hr hlost
    · rename_i e hget
      split at hlost
      · rename_i hready
        obtain ⟨x, y, freed, -, hid, -, -, -, ha⟩ :=
          finish_alters h (List.mem_of_getElem? hget) sabotage
        simp only [hget, hready, if_true] at hfreed
        obtain ⟨-, rfl⟩ := hfreed ha
        exact .inr ⟨index, sabotage, e, rfl, hget, by rw [← hid, hr]⟩
      · exact absurd hr hlost

/-! ## Own sessions -/

/-- That a session of `w` whose turn runs is active, unless it will not be dropped any more. -/
def Held (w : Traffic) : Prop :=
  ∀ u x, w.server.sessions.get? u = some x → x.ended = false → x.isDropped = true →
    w.server.registry.sessions.get? x.id = some u

/-- A session that a request serves and that may be taken is not to be dropped, or has stopped. -/
theorem Serves.resting (h : w.Sound) {u : String} {m : TrafficMove} (hs : w.Serves u m)
    (ht : w.Takes m u) {x y : Session} (hx : w.server.sessions.get? u = some x)
    (hy : (w.step m).server.sessions.get? u = some y) :
    x.isDropped = false ∨ y.ended = true := by
  cases m with
  | world n =>
    obtain ⟨_, z, -, -, hz, hended, -⟩ := hs
    cases hy.symm.trans hz
    exact .inr hended
  | finish index sabotage =>
    obtain ⟨e, hget, rfl⟩ := hs
    obtain ⟨x', hx', -, hd⟩ := (h.errands e (List.mem_of_getElem? hget)).there
    cases hx.symm.trans hx'
    obtain ⟨id, hr, hlost⟩ := ht
    simp only [step, hget] at hlost
    split at hlost
    · rename_i hready
      obtain ⟨y', hy', honward⟩ := step_follows h (.finish index sabotage) _ x hx
      cases hy.symm.trans hy'
      cases ho : e.handover with
      | some o => exact .inl (hd (by rw [ho]; rfl))
      | none =>
        simp only [Errand.isReady, ho, hx] at hready
        exact .inr (honward.ended hready)
    · exact absurd hr hlost
  | _ => exact hs.elim

/-- **As long as each end takes its own session only, a running session stays active**: a move `m`
    at which this is so keeps `Held`. -/
theorem Held.step (hq : w.Held) (h : w.Sound) {m : TrafficMove} (hown : w.Own m) :
    (w.step m).Held := by
  intro u y hy hended hd
  rcases session_cases h hy with ⟨x, hx, honward⟩ | ⟨_, _, -, -, hr⟩
  · have hruns : x.ended = false := Bool.eq_false_iff.2 fun he =>
      absurd ((honward.ended he).symm.trans hended) nofun
    have hr := hq u x hx hruns (honward.isDropped hd)
    rw [honward.id]
    refine Decidable.byContradiction fun hlost => ?_
    have ht : w.Takes m u := ⟨x.id, hr, hlost⟩
    rcases (hown u ht).resting h ht hx hy with hx' | hy'
    · exact absurd ((honward.isDropped hd).symm.trans hx') nofun
    · exact absurd (hy'.symm.trans hended) nofun
  · exact hr

theorem own_of_not_later (h : w.Sound) (hq : w.Held) {m : TrafficMove} (hl : ¬w.TakesLater m) :
    w.Own m := by
  intro u ht
  rcases takes_cases h ht with
    ⟨n, x, y, rfl, hx, hruns, hd, hr, hy, hended, hyd⟩ | ⟨index, sabotage, e, rfl, hget, hr⟩
  · -- a session whose task stops was active, so none but itself is taken
    cases (hq _ x hx hruns hd).symm.trans hr
    exact ⟨x, y, hx, hruns, hy, hended, hyd⟩
  · have hknown : u ∈ e.known := Decidable.byContradiction fun hu =>
      hl ⟨index, sabotage, e, u, rfl, hget, ht, hu⟩
    exact ⟨e, hget, (h.errands e (List.mem_of_getElem? hget)).eq_of_known h.orderly h.latest hr
      hknown⟩

theorem not_later_of_own (h : w.Sound) {m : TrafficMove} (hown : w.Own m) : ¬w.TakesLater m := by
  rintro ⟨index, sabotage, e, u, rfl, hget, ht, hu⟩
  obtain ⟨e', hget', rfl⟩ := hown u ht
  cases hget.symm.trans hget'
  exact hu (h.errands e (List.mem_of_getElem? hget)).own

/-! ## Requests that nothing comes in between -/

/-- That a request that waits in `w` knows all sessions of its id. -/
def Knowing (w : Traffic) : Prop :=
  ∀ e ∈ w.errands, ∀ u x, w.server.sessions.get? u = some x → x.id = e.session.id → u ∈ e.known

theorem Knowing.not_later (hk : w.Knowing) (h : w.Sound) (m : TrafficMove) : ¬w.TakesLater m := by
  rintro ⟨index, sabotage, e, u, rfl, hget, ht, hu⟩
  rcases takes_cases h ht with ⟨_, _, _, hm, -⟩ | ⟨_, _, e', hm, hget', hr⟩
  · cases hm
  · cases hm
    cases hget.symm.trans hget'
    obtain ⟨x, hx, hid⟩ := h.orderly.registered hr
    exact hu (hk e (List.mem_of_getElem? hget) u x hx hid)

theorem Knowing.step (hk : w.Knowing) (h : w.Sound) {m : TrafficMove} (hu : w.Undisturbed m) :
    (w.step m).Knowing := by
  intro e he u y hy hid
  rcases session_cases h hy with ⟨x, hx, honward⟩ | ⟨prompt, maxAttempts, rfl, hok, -⟩
  · rcases mem_errands_step h he with hold | ⟨hknown, -⟩
    · exact hk e hold u x hx (honward.id.symm.trans hid)
    · rw [hknown]
      exact Table.mem_keys.2 (by rw [hx]; rfl)
  · exact absurd hid.symm (hu y.id prompt maxAttempts u rfl hok e he)

theorem undisturbed_of_idle (h : w.errands.length = 0) (id prompt : String)
    (maxAttempts : Option Nat) : w.Undisturbed (.start id prompt maxAttempts) := by
  intro _ _ _ _ _ _ e he
  rw [List.eq_nil_of_length_eq_zero h] at he
  exact absurd he List.not_mem_nil

end Step

/-! ## Runs -/

theorem new_sound (settings : Settings) (hasAgent : Bool) (d : Disk) :
    (new settings hasAgent d).Sound where
  orderly := Server.start_orderly settings hasAgent d
  latest _ _ _ _ hr := absurd hr nofun
  errands _ he := absurd he List.not_mem_nil

theorem new_held (settings : Settings) (hasAgent : Bool) (d : Disk) :
    (new settings hasAgent d).Held :=
  fun _ _ hx => absurd hx nofun

theorem new_knowing (settings : Settings) (hasAgent : Bool) (d : Disk) :
    (new settings hasAgent d).Knowing :=
  fun _ he => absurd he List.not_mem_nil

theorem always_own_iff {w : Traffic} (h : w.Sound) (hq : w.Held) (moves : List TrafficMove) :
    w.Always Own moves ↔ w.Always (fun w m => ¬w.TakesLater m) moves := by
  induction moves generalizing w with
  | nil => exact Iff.rfl
  | cons m moves ih =>
    constructor
    · rintro ⟨hown, hrest⟩
      exact ⟨not_later_of_own h hown, (ih (h.step m) (hq.step h hown)).1 hrest⟩
    · rintro ⟨hl, hrest⟩
      have hown := own_of_not_later h hq hl
      exact ⟨hown, (ih (h.step m) (hq.step h hown)).2 hrest⟩

theorem always_not_later {w : Traffic} (h : w.Sound) (hk : w.Knowing) {moves : List TrafficMove}
    (hu : w.Always Undisturbed moves) : w.Always (fun w m => ¬w.TakesLater m) moves := by
  induction moves generalizing w with
  | nil => trivial
  | cons m moves ih => exact ⟨hk.not_later h m, ih (h.step m) (hk.step h hu.1) hu.2⟩

/-- **Each end takes its own session only, exactly where no request that ends takes a session which
    was started after it had looked up its own.** However starts, commits, removals and turns
    interleave in `moves`: each move takes its `Own` sessions only, so that the task of a turn that
    stops and a request that ends take out of the registry no session but the one they have to do
    with, as long as none `TakesLater` one, too late for it to have been looked up. None does where
    all moves are `Undisturbed`, no turn being started under an id while a request for it waits. -/
theorem own_iff_not_later (settings : Settings) (hasAgent : Bool) (d : Disk)
    (moves : List TrafficMove) :
    let w := new settings hasAgent d
    (w.Always Own moves ↔ w.Always (fun w m => ¬w.TakesLater m) moves) ∧
      (w.Always Undisturbed moves → w.Always Own moves) := by
  intro w
  have h : w.Sound := new_sound settings hasAgent d
  have hiff := always_own_iff h (new_held settings hasAgent d) moves
  exact ⟨hiff, fun hu => hiff.2 (always_not_later h (new_knowing settings hasAgent d) hu)⟩

/-- A removal takes its own session out where the next turn is started under the id only when the
    removal has come to its end. -/
theorem lone_removal_takes_own :
    let u := turnIdOf 1
    let moves : List TrafficMove := [.start "s" "go" none, .world (.reply u .opened), .remove "s",
      .world (.reply u (.failed .cancelled)), .world (.reply u .closed),
      .world (.tell (fun _ => none) u), .finish 0 noSabotage, .start "s" "go" none]
    (new default true Disk.empty).Always Undisturbed moves ∧
      (new default true Disk.empty).Always Own moves := by
  intro u moves
  have hu : (new default true Disk.empty).Always Undisturbed moves :=
    ⟨undisturbed_of_idle rfl _ _ _, nofun, nofun, nofun, nofun, nofun, nofun,
      undisturbed_of_idle (by decide +kernel) _ _ _, trivial⟩
  exact ⟨hu, (own_iff_not_later default true Disk.empty moves).2 hu⟩

/-- A removal waits for the turn that it cancels to stop. The turn's task releases the session, a
    new turn is started under the id, and then the removal takes out the session of that turn, which
    it has not looked up and whose turn runs on. -/
theorem removal_takes_later_session :
    let u := turnIdOf 1
    let v := turnIdOf 2
    let moves : List TrafficMove := [.start "s" "go" none, .world (.reply u .opened), .remove "s",
      .world (.reply u (.failed .cancelled)), .world (.reply u .closed),
      .world (.tell (fun _ => none) u), .start "s" "go" none]
    let w := (new default true Disk.empty).after moves
    let finish : TrafficMove := .finish 0 noSabotage
    w.TakesLater finish ∧ ¬w.Own finish ∧
      ((w.step finish).server.sessions.get? v).map Session.ended = some false := by
  intro u v moves w finish
  obtain ⟨e, hget, hturn, hknown⟩ : ∃ e, w.errands[0]? = some e ∧ e.session.turnId = u ∧
      e.known = [u] := by
    have hlooked : w.errands[0]?.map (fun e => (e.session.turnId, e.known)) = some (u, [u]) := by
      decide +kernel
    obtain ⟨e, hget, he⟩ := Option.map_eq_some_iff.1 hlooked
    exact ⟨e, hget, congrArg Prod.fst he, congrArg Prod.snd he⟩
  have htakes : w.Takes finish v := ⟨"s", by decide +kernel, by decide +kernel⟩
  have hne : u ≠ v := by decide +kernel
  refine ⟨⟨0, noSabotage, e, v, rfl, hget, htakes, ?_⟩, fun hown => ?_, by decide +kernel⟩
  · rw [hknown]
    exact fun hv => hne (List.mem_singleton.1 hv).symm
  · obtain ⟨e', hget', he'⟩ := hown v htakes
    cases hget.symm.trans hget'
    exact hne (hturn.symm.trans he')

end Traffic

end StagedEdits
