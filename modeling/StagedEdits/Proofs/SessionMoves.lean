import Mathlib.Algebra.Group.Nat.Defs
import StagedEdits.Proofs.CancelRequest
import StagedEdits.Service.Server

set_option autoImplicit false

/-! # Moves of the service

What the moves of the service do to its sessions and to the registry. Every move but the start of a
turn makes one session at most out of another, which keeps its id and its turn and, once the turn
has ended, its status; and it takes no other id out of the registry than that session's. What holds
along the life of the service is proved over these facts, and no proof about runs opens the moves
themselves.

Main definitions: `Session.Onward`, `Server.Alters`, `Server.Opens`, `Server.Orderly`, `WorldMove`.
Main statements: `turnIdOf_inj`, `Server.moved_shifts`, `Server.startTurn_cases`,
`Server.endCommit_alters`, `Server.endRemoval_alters`. -/

namespace StagedEdits

/-! ## The ids of turns -/

theorem hexDigit_inj : ∀ a b : Fin 16, hexDigit a = hexDigit b → a = b := by decide

/-- Digits that are enough for two numbers tell them apart. -/
theorem hexDigits_inj {width n m : Nat} (hn : n < 16 ^ width) (hm : m < 16 ^ width)
    (h : hexDigits width n = hexDigits width m) : n = m := by
  induction width generalizing n m with
  | zero => omega
  | succ width ih =>
    obtain ⟨hfirst, hlast⟩ := List.append_inj' h rfl
    have hdiv : n / 16 = m / 16 := ih (by omega) (by omega) hfirst
    have hdigit : hexDigit (n % 16) = hexDigit (m % 16) := List.head_eq_of_cons_eq hlast
    have hmod : (⟨n % 16, by omega⟩ : Fin 16) = ⟨m % 16, by omega⟩ := hexDigit_inj _ _ hdigit
    have hmod' : n % 16 = m % 16 := congrArg Fin.val hmod
    omega

/-- The digits of a turn's id are enough for its number. -/
theorem lt_turnIdWidth (n : Nat) : n < 16 ^ max 32 (n.log2 / 4 + 1) := by
  calc
    n < 2 ^ (n.log2 + 1) := Nat.lt_log2_self
    _ ≤ 2 ^ (4 * max 32 (n.log2 / 4 + 1)) := Nat.pow_le_pow_right (by omega) (by omega)
    _ = 16 ^ max 32 (n.log2 / 4 + 1) := Nat.pow_mul 2 4 _

/-- **No two turns have the same id**: `turnIdOf` tells their numbers apart. -/
theorem turnIdOf_inj {n m : Nat} (h : turnIdOf n = turnIdOf m) : n = m := by
  have hdigits := String.ofList_injective h
  have hwidth : max 32 (n.log2 / 4 + 1) = max 32 (m.log2 / 4 + 1) := by
    have hlength := congrArg List.length hdigits
    rwa [length_hexDigits, length_hexDigits] at hlength
  have hm := lt_turnIdWidth m
  rw [← hwidth] at hdigits hm
  exact hexDigits_inj (lt_turnIdWidth n) hm hdigits

/-! ## Sessions -/

namespace Turn

theorem Next.turnId {t : Turn} {ok : Failure → Prop} {ans : Option Answer} {c : Course} {p : Point}
    (h : t.Next ok ans c p) : c.turnId = t.config.turnId := by
  cases h <;> rfl

/-- A turn that is handed over to be committed has ended, and was not cancelled. -/
theorem beginCommit_not_dropped {t : Turn} {force : Bool} {h : Handover}
    (hb : t.beginCommit force = .ok h) : Server.isDropped t.status = false := by
  obtain ⟨-, -, hterminal, -⟩ := beginCommit_ok hb
  have hcancelled : (t.status == .cancelled) = false := by
    refine Bool.eq_false_iff.2 fun hc => ?_
    simp only [beginCommit, refusal?, hc, if_true] at hb
    cases hcommitted : t.committed <;> rw [hcommitted] at hb <;> cases hb
  rw [Server.isDropped, hcancelled, hterminal]
  rfl

end Turn

namespace Session

/-- The id of the turn of `x`. -/
def turnId (x : Session) : String := x.turn.config.turnId

/-- Whether `x` is dropped when its turn stops where it stands. -/
def isDropped (x : Session) : Bool := Server.isDropped x.turn.status

/-- That the session `x` goes on as `y`: it keeps its id and its turn, and where the turn has ended
    or stopped, that as well. -/
structure Onward (x y : Session) : Prop where
  id : y.id = x.id
  turnId : y.turnId = x.turnId
  placed : y.turn.Placed
  status : x.turn.status.isTerminal = true ∨ x.ended = true → y.turn.status = x.turn.status
  ended : x.ended = true → y.ended = true

/-- That the session `x` goes on as `y` without its turn going on. -/
structure Rests (x y : Session) : Prop extends x.Onward y where
  same : y.turn.status = x.turn.status
  running : y.ended = x.ended

/-- The session `x` once its turn has stopped. -/
def stopped (x : Session) : Session := { x with channel := x.channel.close, ended := true }

/-- The session `x` as it is kept, with nothing left to say. -/
def kept (x : Session) : Session := { x with turn := { x.turn with journal := [] } }

variable {x y z : Session}

theorem Rests.refl (h : x.turn.Placed) : x.Rests x :=
  ⟨⟨rfl, rfl, h, fun _ => rfl, fun he => he⟩, rfl, rfl⟩

theorem Onward.trans (h : x.Onward y) (h' : y.Onward z) : x.Onward z where
  id := h'.id.trans h.id
  turnId := h'.turnId.trans h.turnId
  placed := h'.placed
  status ht := by
    have hy := h.status ht
    exact (h'.status (ht.imp (fun ht => hy ▸ ht) h.ended)).trans hy
  ended he := h'.ended (h.ended he)

theorem Rests.trans (h : x.Rests y) (h' : y.Rests z) : x.Rests z :=
  ⟨h.toOnward.trans h'.toOnward, h'.same.trans h.same, h'.running.trans h.running⟩

theorem Onward.kept (h : x.Onward y) : x.Onward y.kept :=
  ⟨h.id, h.turnId, h.placed, h.status, h.ended⟩

theorem Onward.stopped (h : x.Onward y) : x.Onward y.stopped :=
  ⟨h.id, h.turnId, h.placed, h.status, fun _ => rfl⟩

theorem Rests.kept (h : x.Rests y) : x.Rests y.kept := ⟨h.toOnward.kept, h.same, h.running⟩

/-- A session that is dropped in the end was to be dropped before. -/
theorem Onward.isDropped (h : x.Onward y) (hd : y.isDropped = true) : x.isDropped = true := by
  by_cases ht : x.turn.status.isTerminal = true
  · unfold Session.isDropped at hd ⊢
    rwa [h.status (.inl ht)] at hd
  · simp [Session.isDropped, Server.isDropped, ht]

/-- A session that is not dropped stays so. -/
theorem Onward.not_isDropped (h : x.Onward y) (hd : x.isDropped = false) : y.isDropped = false :=
  Bool.eq_false_iff.2 fun hy => Bool.eq_false_iff.1 hd (h.isDropped hy)

/-- A session whose turn has stopped is dropped for good or for good not. -/
theorem Onward.isDropped_of_ended (h : x.Onward y) (he : x.ended = true) :
    y.isDropped = x.isDropped :=
  congrArg Server.isDropped (h.status (.inr he))

theorem Rests.isDropped (h : x.Rests y) : y.isDropped = x.isDropped :=
  congrArg Server.isDropped h.same

theorem rests_channel (h : x.turn.Placed) (c : Channel) : x.Rests { x with channel := c } :=
  ⟨⟨rfl, rfl, h, fun _ => rfl, fun he => he⟩, rfl, rfl⟩

/-- A reply leads a session on whose turn runs. -/
theorem onward_advance (h : x.turn.Placed) (he : x.ended = false) (base : BaseTree) (r : Reply) :
    x.Onward { x with turn := x.turn.advance base r } := by
  have hnext := Turn.advance_next h base r
  refine ⟨rfl, hnext.turnId, hnext.admits h, fun hs => ?_, fun he => he⟩
  rcases hs with ht | he'
  · exact congrArg Course.status (hnext.course_of_terminal h ht)
  · exact absurd (he'.symm.trans he) nofun

/-- Cancelling is only a request. -/
theorem rests_cancel (h : x.turn.Placed) : x.Rests { x with turn := x.turn.cancel } := by
  have hcourse := x.turn.cancel_course
  have hstatus : x.turn.cancel.status = x.turn.status := congrArg Course.status hcourse
  refine ⟨⟨rfl, congrArg Course.turnId hcourse, ?_, fun _ => hstatus,
    fun he => he⟩, hstatus, rfl⟩
  rw [Turn.Placed, hstatus, x.turn.cancel_point]
  exact h

end Session

namespace Server

/-! ## What a move changes -/

/-- That the move from `s` to `s'` changes nothing of the sessions and the registry. -/
structure Keeps (s s' : Server) : Prop where
  sessions : s'.sessions = s.sessions
  registry : s'.registry = s.registry
  made : s.made ≤ s'.made

/-- That the move from `s` to `s'` makes the session `y` out of `x` and lets all others be; if
    `freed`, it takes the id of `x` out of the registry. -/
structure Alters (s : Server) (x y : Session) (freed : Bool) (s' : Server) : Prop where
  sessions : ∀ u, s'.sessions.get? u = if u = x.turnId then some y else s.sessions.get? u
  registry : ∀ id, s'.registry.sessions.get? id =
    if freed = true ∧ id = x.id then none else s.registry.sessions.get? id
  made : s.made ≤ s'.made

/-- That the move from `s` to `s'` opens the session `y` with a new turn under `id`, which was
    free. -/
structure Opens (s : Server) (id : String) (y : Session) (s' : Server) : Prop where
  free : s.registry.sessions.get? id = none
  named : y.id = id
  turnId : y.turnId = turnIdOf (s.made + 1)
  placed : y.turn.Placed
  status : y.turn.status = .streaming
  running : y.ended = false
  sessions : ∀ u, s'.sessions.get? u = if u = y.turnId then some y else s.sessions.get? u
  registry : ∀ j, s'.registry.sessions.get? j =
    if j = id then some y.turnId else s.registry.sessions.get? j
  made : s'.made = s.made + 1

/-- That each session of `s` stands under the id of its own turn, each of these has its number, and
    the registry holds the ids of sessions that there are. -/
structure Orderly (s : Server) : Prop where
  keyed : ∀ {u x}, s.sessions.get? u = some x → x.turnId = u
  placed : ∀ {u x}, s.sessions.get? u = some x → x.turn.Placed
  numbered : ∀ {u x}, s.sessions.get? u = some x → ∃ n ≤ s.made, u = turnIdOf n
  registered : ∀ {id u}, s.registry.sessions.get? id = some u →
    ∃ x, s.sessions.get? u = some x ∧ x.id = id

section Moves

variable {s s' s'' : Server} {x y z : Session} {freed : Bool}

theorem start_orderly (settings : Settings) (hasAgent : Bool) (d : Disk) :
    (start settings hasAgent d).Orderly :=
  ⟨nofun, nofun, nofun, nofun⟩

theorem Orderly.keeps (h : s.Orderly) (hk : s.Keeps s') : s'.Orderly := by
  refine ⟨?_, ?_, ?_, ?_⟩ <;> simp only [hk.sessions, hk.registry]
  · exact h.keyed
  · exact h.placed
  · intro u x hx
    obtain ⟨n, hn, hu⟩ := h.numbered hx
    exact ⟨n, Nat.le_trans hn hk.made, hu⟩
  · exact h.registered

/-- The session under the key of a turn after a move. -/
theorem Alters.get?_eq (h : s.Alters x y freed s') {u : String} {w : Session}
    (hw : s'.sessions.get? u = some w) :
    u = x.turnId ∧ w = y ∨ u ≠ x.turnId ∧ s.sessions.get? u = some w := by
  rw [h.sessions] at hw
  split at hw
  · rename_i hu
    exact .inl ⟨hu, (Option.some.inj hw).symm⟩
  · rename_i hu
    exact .inr ⟨hu, hw⟩

/-- An id that is still in the registry was there before. -/
theorem Alters.registry_eq (h : s.Alters x y freed s') {id u : String}
    (hr : s'.registry.sessions.get? id = some u) :
    s.registry.sessions.get? id = some u ∧ (freed = true → id ≠ x.id) := by
  rw [h.registry] at hr
  split at hr
  · cases hr
  · rename_i hn
    exact ⟨hr, fun hf he => hn ⟨hf, he⟩⟩

/-- What each session goes on as after a move. -/
theorem Alters.onward (h : s.Alters x y freed s') (ho : x.Onward y) (hs : s.Orderly)
    {u : String} {w : Session} (hx : s.sessions.get? x.turnId = some x)
    (hw : s.sessions.get? u = some w) :
    ∃ w', s'.sessions.get? u = some w' ∧ w.Onward w' := by
  rw [h.sessions]
  split
  · rename_i hu
    subst hu
    cases hx.symm.trans hw
    exact ⟨y, rfl, ho⟩
  · exact ⟨w, hw, (Session.Rests.refl (hs.placed hw)).toOnward⟩

theorem Orderly.alters (h : s.Orderly) (hx : s.sessions.get? x.turnId = some x) (ho : x.Onward y)
    (ha : s.Alters x y freed s') : s'.Orderly where
  keyed {u w} hw := by
    rcases ha.get?_eq hw with ⟨rfl, rfl⟩ | ⟨-, hold⟩
    · exact ho.turnId
    · exact h.keyed hold
  placed {u w} hw := by
    rcases ha.get?_eq hw with ⟨rfl, rfl⟩ | ⟨-, hold⟩
    · exact ho.placed
    · exact h.placed hold
  numbered {u w} hw := by
    obtain ⟨n, hn, hu⟩ : ∃ n ≤ s.made, u = turnIdOf n := by
      rcases ha.get?_eq hw with ⟨rfl, rfl⟩ | ⟨-, hold⟩
      · exact h.numbered hx
      · exact h.numbered hold
    exact ⟨n, Nat.le_trans hn ha.made, hu⟩
  registered {id u} hr := by
    obtain ⟨w, hw, hid⟩ := h.registered (ha.registry_eq hr).1
    obtain ⟨w', hw', honward⟩ := ha.onward ho h hx hw
    exact ⟨w', hw', honward.id.trans hid⟩

/-- The number of a new turn is not taken. -/
theorem Opens.fresh {id : String} (ho : s.Opens id y s') (h : s.Orderly) :
    s.sessions.get? y.turnId = none := by
  rw [ho.turnId]
  cases hx : s.sessions.get? (turnIdOf (s.made + 1)) with
  | none => rfl
  | some x =>
    obtain ⟨n, hn, hu⟩ := h.numbered hx
    have := turnIdOf_inj hu
    omega

/-- A session that was there is there after the opening of another. -/
theorem Opens.get?_old {id : String} (ho : s.Opens id y s') (h : s.Orderly) {u : String}
    (hx : s.sessions.get? u = some x) : s'.sessions.get? u = some x := by
  rw [ho.sessions, if_neg, hx]
  rintro rfl
  exact absurd ((ho.fresh h).symm.trans hx) nofun

theorem Opens.get?_eq {id : String} (ho : s.Opens id y s') {u : String} {w : Session}
    (hw : s'.sessions.get? u = some w) :
    u = y.turnId ∧ w = y ∨ s.sessions.get? u = some w := by
  rw [ho.sessions] at hw
  split at hw
  · rename_i hu
    exact .inl ⟨hu, (Option.some.inj hw).symm⟩
  · exact .inr hw

theorem Opens.registry_eq {id j u : String} (ho : s.Opens id y s')
    (hr : s'.registry.sessions.get? j = some u) :
    j = id ∧ u = y.turnId ∨ j ≠ id ∧ s.registry.sessions.get? j = some u := by
  rw [ho.registry] at hr
  split at hr
  · rename_i hj
    exact .inl ⟨hj, (Option.some.inj hr).symm⟩
  · rename_i hj
    exact .inr ⟨hj, hr⟩

theorem Orderly.opens {id : String} (h : s.Orderly) (ho : s.Opens id y s') : s'.Orderly where
  keyed {u w} hw := by
    rcases ho.get?_eq hw with ⟨rfl, rfl⟩ | hold
    · rfl
    · exact h.keyed hold
  placed {u w} hw := by
    rcases ho.get?_eq hw with ⟨rfl, rfl⟩ | hold
    · exact ho.placed
    · exact h.placed hold
  numbered {u w} hw := by
    rw [ho.made]
    rcases ho.get?_eq hw with ⟨rfl, rfl⟩ | hold
    · exact ⟨s.made + 1, Nat.le_refl _, ho.turnId⟩
    · obtain ⟨n, hn, hu⟩ := h.numbered hold
      exact ⟨n, by omega, hu⟩
  registered {j u} hr := by
    rcases ho.registry_eq hr with ⟨rfl, rfl⟩ | ⟨-, hold⟩
    · exact ⟨y, by rw [ho.sessions, if_pos rfl], ho.named⟩
    · obtain ⟨w, hw, hid⟩ := h.registered hold
      exact ⟨w, ho.get?_old h hw, hid⟩

/-! ## One move -/

/-- What a move from `s` to `s'` other than the start of a turn can do to the sessions and the
    registry. -/
inductive Change (s s' : Server) : Prop where
  | keeps (h : s.Keeps s')
  | alters {x y : Session} {freed : Bool} (hx : s.sessions.get? x.turnId = some x)
    (ho : x.Onward y) (h : s.Alters x y freed s')

/-- That every session of `s` goes on in `s'`. -/
def Follows (s s' : Server) : Prop :=
  ∀ u x, s.sessions.get? u = some x → ∃ y, s'.sessions.get? u = some y ∧ x.Onward y

theorem Orderly.change (h : s.Orderly) (hc : s.Change s') : s'.Orderly := by
  cases hc with
  | keeps hk => exact h.keeps hk
  | alters hx honward ha => exact h.alters hx honward ha

theorem Change.follows (hc : s.Change s') (h : s.Orderly) : s.Follows s' := by
  intro u x hx
  cases hc with
  | keeps hk => exact ⟨x, by rw [hk.sessions, hx], (Session.Rests.refl (h.placed hx)).toOnward⟩
  | alters hw honward ha => exact ha.onward honward h hw hx

theorem Opens.follows {id : String} (ho : s.Opens id y s') (h : s.Orderly) : s.Follows s' :=
  fun _ x hx => ⟨x, ho.get?_old h hx, (Session.Rests.refl (h.placed hx)).toOnward⟩

/-- No move but a start makes a session. -/
theorem Change.get?_eq (hc : s.Change s') (h : s.Orderly) {u : String}
    (hy : s'.sessions.get? u = some y) : ∃ x, s.sessions.get? u = some x ∧ x.Onward y := by
  obtain ⟨x, hx⟩ : ∃ x, s.sessions.get? u = some x := by
    cases hc with
    | keeps hk => exact ⟨y, by rw [← hk.sessions, hy]⟩
    | alters hx _ ha =>
      rcases ha.get?_eq hy with ⟨rfl, -⟩ | ⟨-, hold⟩
      · exact ⟨_, hx⟩
      · exact ⟨y, hold⟩
  obtain ⟨y', hy', honward⟩ := hc.follows h u x hx
  cases hy.symm.trans hy'
  exact ⟨x, hx, honward⟩

/-! ## Keeping and releasing -/

/-- Keeping what a session has become changes that session. -/
theorem keep_alters (h : y.turnId = x.turnId) : s.Alters x y.kept false (s.keep y) where
  sessions u := by
    show (s.sessions.set y.turnId y.kept).get? u = _
    rw [Table.get?_set, h]
  registry _ := by simp only [Bool.false_eq_true, false_and, if_false]; rfl
  made := Nat.le_refl _

/-- A move after one that keeps all sessions. -/
theorem Keeps.alters (h : s.Keeps s') (h' : s'.Alters x y freed s'') : s.Alters x y freed s'' :=
  ⟨by rw [← h.sessions]; exact h'.sessions, by rw [← h.registry]; exact h'.registry,
    Nat.le_trans h.made h'.made⟩

theorem Keeps.refl : s.Keeps s := ⟨rfl, rfl, Nat.le_refl _⟩

theorem keeps_say (s : Server) (entries : List Entry) : s.Keeps (s.say entries) :=
  ⟨rfl, rfl, Nat.le_refl _⟩

theorem Alters.trans (h : s.Alters x y false s') (h' : s'.Alters y z freed s'')
    (ho : x.Onward y) : s.Alters x z freed s'' where
  sessions u := by
    rw [h'.sessions, h.sessions, ho.turnId]
    split <;> rfl
  registry id := by
    rw [h'.registry, h.registry, ho.id]
    simp only [Bool.false_eq_true, false_and, if_false]
  made := Nat.le_trans h.made h'.made

theorem Alters.release (h : s.Alters x y false s') : s.Alters x y true (s'.release x.id) where
  sessions u := h.sessions u
  registry id := by
    show (s'.registry.sessions.erase x.id).get? id = _
    rw [Table.get?_erase, h.registry]
    simp
  made := h.made

/-! ## Turns -/

/-- That the move from `s` to `s'` leaves the sessions as they are, or leads one of them on; its id
    is free then exactly if its turn stops by that move and the session is dropped. -/
def Shifts (s s' : Server) : Prop :=
  s.Keeps s' ∨ ∃ x y, s.sessions.get? x.turnId = some x ∧ x.Onward y ∧
    s.Alters x y (!x.ended && y.ended && y.isDropped) s'

/-- Where the turn of a session rests no id becomes free. -/
theorem Alters.shifts_of_rests (h : s.Alters x y false s')
    (hx : s.sessions.get? x.turnId = some x) (hr : x.Rests y) : s.Shifts s' := by
  refine .inr ⟨x, y, hx, hr.toOnward, ?_⟩
  rw [hr.running, Bool.not_and_self]
  exact h

/-- Stopping a turn leads its session on and frees its id if the session is dropped. -/
theorem stop_alters (x : Session) : s.Alters x x.stopped.kept x.isDropped (s.stop x) := by
  have hkeep := (s.keeps_say (crashEntries x)).alters (keep_alters (x := x) (y := x.stopped) rfl)
  unfold stop
  dsimp only
  split
  · rename_i hd
    rw [show x.isDropped = true from hd]
    exact hkeep.release
  · rename_i hd
    rw [show x.isDropped = false from Bool.eq_false_iff.2 hd]
    exact hkeep

/-- What a reply does to the session of its turn. -/
theorem advance_alters {u : String} (h : s.Orderly) (hx : s.sessions.get? u = some x) (r : Reply) :
    s.advance u r = s ∨ ∃ y, x.Onward y ∧
      s.Alters x y (!x.ended && y.ended && y.isDropped) (s.advance u r) := by
  unfold advance
  rw [hx]
  dsimp only
  split
  · exact .inl rfl
  · rename_i hended
    have hruns : (!x.ended) = true := by simpa using hended
    have honward := x.onward_advance (h.placed hx) (Bool.eq_false_iff.2 hended) (s.base x) r
    have hkeep := keep_alters (s := s) (x := x) honward.turnId
    refine .inr ?_
    split
    · -- the turn is over, and its session is kept once more as one that has stopped
      refine ⟨_, honward.kept.stopped.kept, ?_⟩
      rw [hruns]
      exact hkeep.trans (stop_alters _) honward.kept
    · refine ⟨_, honward.kept, ?_⟩
      show s.Alters x _ (!x.ended && x.ended && _) _
      rw [Bool.not_and_self]
      exact hkeep

theorem advance_shifts (h : s.Orderly) (u : String) (r : Reply) : s.Shifts (s.advance u r) := by
  cases hx : s.sessions.get? u with
  | none =>
    unfold advance
    rw [hx]
    exact .inl .refl
  | some x =>
    rcases advance_alters h hx r with heq | ⟨y, honward, ha⟩
    · rw [heq]
      exact .inl .refl
    · refine .inr ⟨x, y, ?_, honward, ha⟩
      rw [h.keyed hx, hx]

theorem cancel_alters (h : s.Orderly) {u : String} (hx : s.sessions.get? u = some x) :
    ∃ y, x.Rests y ∧ s.Alters x y false (s.cancel x) :=
  ⟨_, (Session.rests_cancel (h.placed hx)).kept,
    keep_alters (Session.rests_cancel (h.placed hx)).turnId⟩

/-- The active session of an id. -/
theorem find_ok (h : s.Orderly) {id : String} (hf : s.find id = .ok x) :
    s.registry.sessions.get? id = some x.turnId ∧ s.sessions.get? x.turnId = some x ∧
      x.id = id := by
  unfold find Registry.find at hf
  cases hr : s.registry.sessions.get? id with
  | none =>
    rw [hr] at hf
    cases hf
  | some u =>
    obtain ⟨w, hw, hid⟩ := h.registered hr
    simp only [hr, hw] at hf
    cases hf
    rw [h.keyed hw]
    exact ⟨rfl, hw, hid⟩

/-! ## What goes on besides requests -/

/-- A session that rests and whose turn then takes a reply. -/
theorem Alters.advance_shifts (ha : s.Alters x y false s') (h : s.Orderly)
    (hx : s.sessions.get? x.turnId = some x) (hr : x.Rests y) (r : Reply) :
    s.Shifts (s'.advance x.turnId r) := by
  have h' : s'.Orderly := h.alters hx hr.toOnward ha
  have hy : s'.sessions.get? x.turnId = some y := by rw [ha.sessions, if_pos rfl]
  rcases advance_alters h' hy r with heq | ⟨z, honward, hz⟩
  · rw [heq]
    exact ha.shifts_of_rests hx hr
  · rw [hr.running] at hz
    exact .inr ⟨x, z, hx, hr.toOnward.trans honward, ha.trans hz hr.toOnward⟩

theorem tell_shifts (h : s.Orderly) (fails : String → Option String) (u : String) :
    s.Shifts (s.tell fails u).1 := by
  unfold tell
  cases hx : s.sessions.get? u with
  | none => exact .inl .refl
  | some x =>
    dsimp only
    cases x.turn.events.getLast? with
    | none => exact .inl .refl
    | some e =>
      cases h.keyed hx
      have hrests := x.rests_channel (h.placed hx) (x.channel.publish e)
      have hkeeps : s.Keeps { s.say (s.hub.missedEntries fails x.id) with
          hub := s.hub.send fails x.id } := ⟨rfl, rfl, Nat.le_refl _⟩
      exact (hkeeps.alters (keep_alters hrests.turnId)).advance_shifts h hx hrests.kept .told

theorem drain_shifts (h : s.Orderly) (u : String) : s.Shifts (s.drain u).1 := by
  unfold drain
  cases hx : s.sessions.get? u with
  | none => exact .inl .refl
  | some x =>
    cases h.keyed hx
    have hrests := x.rests_channel (h.placed hx) x.channel.drain.1
    exact (keep_alters hrests.turnId).shifts_of_rests hx hrests.kept

theorem cancel_shifts (h : s.Orderly) (hk : s.Keeps s') {u : String}
    (hx : s.sessions.get? u = some x) : s.Shifts (s'.cancel x) := by
  cases h.keyed hx
  rw [← hk.sessions] at hx
  obtain ⟨y, hrests, ha⟩ := cancel_alters (h.keeps hk) hx
  rw [hk.sessions] at hx
  exact (hk.alters ha).shifts_of_rests hx hrests

theorem loseClient_shifts (h : s.Orderly) (u : String) : s.Shifts (s.loseClient u) := by
  unfold loseClient
  cases hx : s.sessions.get? u with
  | none => exact .inl .refl
  | some x =>
    dsimp only
    split
    · exact .inl .refl
    · exact cancel_shifts h (s.keeps_say _) hx

theorem takeFrame_shifts (h : s.Orderly) (socket id : String) (f : Frame) :
    s.Shifts (s.takeFrame socket id f).1 := by
  unfold takeFrame
  split
  · exact .inl ⟨rfl, rfl, Nat.le_refl _⟩
  · exact .inl .refl
  · split
    · cases hf : s.find id with
      | error => exact .inl .refl
      | ok x => exact cancel_shifts h .refl (find_ok h hf).2.1
    · exact .inl .refl
  · exact .inl .refl

end Moves

/-- What goes on at the service besides requests. -/
inductive WorldMove where
  /-- The world replies to a turn. -/
  | reply (turnId : String) (r : Reply)
  /-- The last event of a turn is told; sockets may fail, for a reason. -/
  | tell (fails : String → Option String) (turnId : String)
  /-- The client of a turn takes what waits for it. -/
  | drain (turnId : String)
  /-- The client of a turn goes away. -/
  | lose (turnId : String)
  /-- A socket comes to listen to a session. -/
  | connect (socket id : String)
  /-- A socket that listens to a session sends something. -/
  | frame (socket id : String) (f : Frame)

/-- The service `s` after a move of the world. -/
def moved (s : Server) : WorldMove → Server
  | .reply turnId r => s.advance turnId r
  | .tell fails turnId => (s.tell fails turnId).1
  | .drain turnId => (s.drain turnId).1
  | .lose turnId => s.loseClient turnId
  | .connect socket id => s.connect socket id
  | .frame socket id f => (s.takeFrame socket id f).1

/-- **A move of the world leads one session on at most, and an id becomes free only if the turn of
    that session stops and the session is dropped**: `Shifts` lists what `m` may do. -/
theorem moved_shifts {s : Server} (h : s.Orderly) (m : WorldMove) : s.Shifts (s.moved m) := by
  cases m with
  | reply u r => exact advance_shifts h u r
  | tell fails u => exact tell_shifts h fails u
  | drain u => exact drain_shifts h u
  | lose u => exact loseClient_shifts h u
  | connect => exact .inl ⟨rfl, rfl, Nat.le_refl _⟩
  | frame socket id f => exact takeFrame_shifts h socket id f

/-! ## Requests -/

section Requests

variable {s : Server} {x : Session}

/-- How often a turn may be repaired that a request with `maxAttempts` asks for. -/
def limitOf (s : Server) (maxAttempts : Option Nat) : Int :=
  (maxAttempts.map Int.ofNat).getD s.settings.maxAttempts

section Starting

variable (s : Server) (id prompt : String) (maxAttempts : Option Nat)

theorem startTurn_negative (h : s.limitOf maxAttempts < 0) :
    s.startTurn id prompt maxAttempts = ({ s with made := s.made + 1 },
      .error (.other "ValueError" Budget.negativeMessage)) := by
  have hnone : Turn.new? (s.turnConfig id) (s.limitOf maxAttempts) = none := by
    rw [Turn.new?, Budget.new?, if_pos h]
    rfl
  unfold startTurn
  dsimp only
  rw [← limitOf, hnone]

theorem exists_new (h : ¬s.limitOf maxAttempts < 0) :
    ∃ t, Turn.new? (s.turnConfig id) (s.limitOf maxAttempts) = some t := by
  rw [Turn.new?, Budget.new?, if_neg h]
  exact ⟨_, rfl⟩

theorem startTurn_taken (h : ¬s.limitOf maxAttempts < 0)
    (htaken : s.registry.sessions.has id = true) :
    s.startTurn id prompt maxAttempts =
      ({ s with made := s.made + 1 }, .error (.fault (.sessionConflict id))) := by
  obtain ⟨t, ht⟩ := s.exists_new id maxAttempts h
  unfold startTurn Registry.start
  dsimp only
  rw [← limitOf, ht, if_pos htaken]

/-- Where an id is free a turn is started under it. -/
theorem startTurn_opens (h : ¬s.limitOf maxAttempts < 0)
    (hfree : ¬s.registry.sessions.has id = true) :
    ∃ y, s.Opens id y (s.startTurn id prompt maxAttempts).1 ∧
      (s.startTurn id prompt maxAttempts).2 = .ok y.turnId := by
  obtain ⟨t, ht⟩ := s.exists_new id maxAttempts h
  obtain ⟨budget, -, hnew⟩ := Option.map_eq_some_iff.1 ht
  obtain ⟨u, hu, hconfig, hs, hpoint⟩ : ∃ u, t.start prompt = .ok u ∧
      u.config = s.turnConfig id ∧ u.status = .streaming ∧ u.point = .opening := by
    rw [← hnew]
    exact ⟨_, rfl, rfl, rfl, rfl⟩
  have hid : (Session.kept ⟨id, u, Channel.new, false⟩).turnId = turnIdOf (s.made + 1) := by
    show u.config.turnId = _
    rw [hconfig]
    rfl
  have hstart : s.startTurn id prompt maxAttempts = (((({ s with made := s.made + 1, registry :=
      ⟨s.registry.sessions.set id (turnIdOf (s.made + 1))⟩ } : Server).say
        [Registry.startEntry id]).keep ⟨id, u, Channel.new, false⟩),
      .ok (turnIdOf (s.made + 1))) := by
    unfold startTurn Registry.start
    dsimp only
    rw [← limitOf, ht, if_neg hfree]
    dsimp only
    rw [hu]
    rfl
  rw [hstart]
  refine ⟨Session.kept ⟨id, u, Channel.new, false⟩, ?_, by rw [hid]⟩
  refine ⟨by simpa [Table.has] using hfree, rfl, hid, ?_, hs, rfl, fun j => ?_, fun j => ?_, rfl⟩
  · show Turn.Admits u.status u.point
    rw [hpoint]
    exact hs
  · show (s.sessions.set u.config.turnId _).get? j = _
    rw [Table.get?_set]
    rfl
  · show (s.registry.sessions.set id (turnIdOf (s.made + 1))).get? j = _
    rw [Table.get?_set, hid]

/-- **A turn is started exactly where its id is free**, unless the number of its repairs, `limitOf
    maxAttempts`, is negative, for then there is no turn to start. -/
theorem startTurn_cases :
    let p := s.startTurn id prompt maxAttempts
    s.limitOf maxAttempts < 0 ∧ s.Keeps p.1 ∧
        p.2 = .error (.other "ValueError" Budget.negativeMessage) ∨
      0 ≤ s.limitOf maxAttempts ∧
        ((s.registry.sessions.get? id).isSome = true ∧ s.Keeps p.1 ∧
            p.2 = .error (.fault (.sessionConflict id)) ∨
          ∃ y, s.Opens id y p.1 ∧ p.2 = .ok y.turnId) := by
  intro p
  have hmade : s.Keeps { s with made := s.made + 1 } := ⟨rfl, rfl, Nat.le_succ _⟩
  by_cases hlimit : s.limitOf maxAttempts < 0
  · have hp : p = _ := s.startTurn_negative id prompt maxAttempts hlimit
    rw [hp]
    exact .inl ⟨hlimit, hmade, rfl⟩
  · refine .inr ⟨by omega, ?_⟩
    by_cases htaken : s.registry.sessions.has id = true
    · have hp : p = _ := s.startTurn_taken id prompt maxAttempts hlimit htaken
      rw [hp]
      exact .inl ⟨htaken, hmade, rfl⟩
    · exact .inr (s.startTurn_opens id prompt maxAttempts hlimit htaken)

end Starting

/-- A commit waits for the active session of its id, whose turn has ended and is not dropped. -/
theorem beginCommit_ok (h : s.Orderly) {id : String} {force : Bool} {p : PendingCommit}
    (hb : s.beginCommit id force = .ok p) :
    s.registry.sessions.get? id = some p.session.turnId ∧
      s.sessions.get? p.session.turnId = some p.session ∧ p.session.id = id ∧
      p.session.isDropped = false := by
  unfold beginCommit at hb
  cases hf : s.find id with
  | error f =>
    rw [hf] at hb
    cases hb
  | ok x =>
    rw [hf] at hb
    cases hh : x.turn.beginCommit force with
    | error f =>
      simp only [bind, Except.bind, hh] at hb
      cases hb
    | ok o =>
      simp only [bind, Except.bind, hh] at hb
      cases hb
      obtain ⟨hr, hx, hid⟩ := find_ok h hf
      exact ⟨hr, hx, hid, Turn.beginCommit_not_dropped hh⟩

/-- The end of a commit that went through frees the id of its session; one that failed leaves the
    session as it was. -/
theorem endCommit_alters (h : s.Orderly) {p : PendingCommit}
    (hx : s.sessions.get? p.session.turnId = some x) (hid : x.id = p.session.id)
    (sabotage : Sabotage) :
    let e := s.endCommit sabotage p
    ∃ y, x.Rests y ∧
      ((∃ report, e.2 = .ok report ∧ s.Alters x y true e.1) ∨
        ∃ f, e.2 = .error f ∧ y.turn.overlay = x.turn.overlay ∧ s.Alters x y false e.1) := by
  intro e
  generalize hstep : commitSnapshot sabotage s.disk (s.projectDir p.session) p.handover.snapshot =
    step
  have hx' : (s.sessions.get? p.session.turn.config.turnId).getD p.session = x := by
    rw [show s.sessions.get? p.session.turn.config.turnId = some x from hx]
    rfl
  have hplaced := h.placed hx
  have hrests : x.Rests { x with turn := x.turn.endCommit p.handover step.outcome } := by
    cases step.outcome <;> exact ⟨⟨rfl, rfl, hplaced, fun _ => rfl, fun he => he⟩, rfl, rfl⟩
  have hkeeps : s.Keeps ({ s with disk := step.drive.disk }.say step.entries) :=
    ⟨rfl, rfl, Nat.le_refl _⟩
  have hkeep := hkeeps.alters (keep_alters hrests.turnId)
  refine ⟨_, hrests.kept, ?_⟩
  cases ho : step.outcome with
  | ok report =>
    have he : e = ((({ s with disk := step.drive.disk }.say step.entries).keep
        { x with turn := x.turn.endCommit p.handover (.ok report) }).release p.session.id,
          .ok report) := by
      simp only [e, endCommit, hstep, ho, hx', say]
    rw [ho] at hkeep
    rw [he, ← hid]
    exact .inl ⟨report, rfl, hkeep.release⟩
  | error f =>
    have he : e = (({ s with disk := step.drive.disk }.say step.entries).keep
        { x with turn := x.turn.endCommit p.handover (.error f) }, .error f) := by
      simp only [e, endCommit, hstep, ho, hx', say]
    rw [ho] at hkeep
    rw [he]
    exact .inr ⟨f, rfl, rfl, hkeep⟩

/-- A removal looks the active session of its id up and requests to cancel its turn. -/
theorem beginRemoval_ok (h : s.Orderly) {id : String} {s' : Server}
    (hb : s.beginRemoval id = .ok (s', x)) :
    s.registry.sessions.get? id = some x.turnId ∧ s.sessions.get? x.turnId = some x ∧
      x.id = id ∧ ∃ y, x.Rests y ∧ s.Alters x y false s' := by
  unfold beginRemoval at hb
  cases hf : s.find id with
  | error f =>
    rw [hf] at hb
    cases hb
  | ok w =>
    rw [hf] at hb
    cases hb
    obtain ⟨hr, hx, hid⟩ := find_ok h hf
    exact ⟨hr, hx, hid, cancel_alters h hx⟩

/-- The end of a removal frees the id of its session. -/
theorem endRemoval_alters (h : s.Orderly) {w : Session}
    (hx : s.sessions.get? w.turnId = some x) :
    ∃ y, x.Rests y ∧ s.Alters x y true (s.endRemoval w) := by
  have hplaced := h.placed hx
  have hrests : x.Rests { x with turn := x.turn.discard } :=
    ⟨⟨rfl, rfl, hplaced, fun _ => rfl, fun he => he⟩, rfl, rfl⟩
  have hkeep := keep_alters (s := s) hrests.turnId
  refine ⟨_, hrests.kept, ?_⟩
  unfold endRemoval
  dsimp only
  rw [show s.sessions.get? w.turn.config.turnId = some x from hx]
  exact hkeep.release

end Requests

end Server

end StagedEdits
