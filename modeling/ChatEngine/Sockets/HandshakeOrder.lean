import ChatEngine.Sockets.Ordering

/-!
# What the first frames come to

The results about one socket, over every interleaving of the process.

* `HubAction.Serves`, the steps that serve one socket, and `Hub.Comes`, what they lead to;
* `Hub.Served`: a session that initializes can go live, a live broadcast can be sent, a pending
  closure can be carried out, and no step of anybody takes one back;
* `handshake_order`, the property of every reachable state, and `not_handshake_order`, how a
  socket can be left open without an event.
-/

namespace ChatEngine
namespace Sockets

open Lib

/-! ## The steps of one socket -/

/-- The steps of a session that initializes, of the sends to its socket and of its close. -/
def HubAction.Serves (s : Socket) : HubAction → Prop
  | .begin other _ | .drain other | .advance other | .complete other | .fail other _
  | .beginLive other _ | .shut other _ => other = s
  | _ => False

/-- Steps that serve the socket lead to `goal`. -/
def Hub.Comes (caps : ManagerLimits) (limits : PendingLimits) (d : Hub) (s : Socket)
    (goal : Track → Prop) : Prop :=
  ∃ d' t', Run (HubStep caps limits) (fun _ action => action.Serves s) d d' ∧
    d'.tracks s = some t' ∧ goal t'

/-- What a step of anybody does to a socket that is no longer registered.  Nobody takes its lock
again, and its closure is given up only with the call that was to close it. -/
structure Detached (s : Socket) (action : HubAction) (t t' : Track) : Prop where
  idle : t.busy = none → t'.busy = none
  fate : t'.fate = t.fate ∨
    ((t.fate = .closing ∨ t.fate = .dismissed) ∧ t'.fate = .closed) ∨
    (t.fate = .dismissed ∧ action = .abandon s ∧ t'.fate = .abandoned)

/-- What is under way for a socket can be carried out. -/
structure Hub.Served (caps : ManagerLimits) (limits : PendingLimits) (d : Hub) (s : Socket)
    (t : Track) : Prop where
  opens : t.fate = .attached → t.stage ≠ .leaving → d.Comes caps limits s fun t' =>
    t'.fate = .attached ∧ t'.switched = true ∧ t'.addressed = t.addressed
  sends : t.fate = .attached → ∀ x ∈ t.underWay, d.Comes caps limits s fun t' =>
    x.frame ∈ t'.wire ∨ t'.fate = .closing
  closes : t.fate = .closing ∨ t.fate = .dismissed → d.Comes caps limits s fun t' =>
    t'.fate = .closed
  stays : t.fate ≠ .attached → ∀ action d', HubStep caps limits d action d' →
    ∃ t', d'.tracks s = some t' ∧ Detached s action t t'

section Serving

variable {caps : ManagerLimits} {limits : PendingLimits} {d d' : Hub} {s : Socket} {t t' : Track}
  {goal : Track → Prop} {action : HubAction} {x : Issued}

theorem Hub.Comes.now (ht : d.tracks s = some t) (hgoal : goal t) : d.Comes caps limits s goal :=
  ⟨d, t, Run.refl, ht, hgoal⟩

theorem Hub.Comes.step (hstep : HubStep caps limits d action d') (hserves : action.Serves s)
    (h : d'.Comes caps limits s goal) : d.Comes caps limits s goal := by
  obtain ⟨last, t, hrun, ht, hgoal⟩ := h
  have hfirst : Run (HubStep caps limits) (fun _ action => action.Serves s) d d' :=
    Run.tail action Run.refl hserves hstep
  exact ⟨last, t, hfirst.trans hrun, ht, hgoal⟩

theorem Hub.tracks_setTrack : (d.setTrack s t).tracks s = some t := by
  show Function.update d.tracks s (some t) s = some t
  exact Function.update_self ..

theorem Hub.tracks_setTrack_of_ne {other : Socket} (hne : s ≠ other) :
    (d.setTrack other t).tracks s = d.tracks s := by
  show Function.update d.tracks other (some t) s = d.tracks s
  exact Function.update_of_ne hne ..

/-- What a section that detaches sockets leaves of one that is not registered. -/
theorem Hub.tracks_detach {fate : Fate} {m : Manager} (hrow : d.row s = none) :
    (d.detach fate m).tracks s = d.tracks s := by
  show (d.tracks s).map _ = d.tracks s
  cases d.tracks s with
  | none => rfl
  | some t =>
      have hnever : ¬ ((d.row s).isSome = true ∧ m.metadata.find? s = none) := by
        rw [hrow]
        exact fun hcase => Bool.false_ne_true hcase.1
      exact congrArg some (if_neg hnever)

theorem HubStep.begun {f : Frame} (ht : d.tracks s = some t) (hidle : t.busy = none)
    (hrow : (d.row s).isSome = true) (hsends : t.stage.Sends f) :
    HubStep caps limits d (.begin s f) (d.setTrack s { t with busy := some (.frame f) }) := by
  show (d.tracks s).bind _ = _
  rw [ht]
  exact if_pos ⟨hidle, hrow, hsends⟩

theorem HubStep.drained (ht : d.tracks s = some t) (hidle : t.busy = none)
    (hrow : (d.row s).isSome = true) (hstage : t.stage = .historySent) :
    HubStep caps limits d (.drain s) (d.setTrack s { t with busy := some (.drain none) }) := by
  show (d.tracks s).bind _ = _
  rw [ht]
  exact if_pos ⟨hidle, hrow, hstage⟩

theorem HubStep.advanced (ht : d.tracks s = some t) (hbusy : t.busy = some (.drain none)) :
    HubStep caps limits d (.advance s) (d.advance s t) := by
  show (d.tracks s).bind _ = _
  rw [ht]
  exact if_pos hbusy

theorem HubStep.completed (ht : d.tracks s = some t) (h : d.complete s t = some d') :
    HubStep caps limits d (.complete s) d' := by
  show (d.tracks s).bind _ = _
  rw [ht]
  exact h

theorem HubStep.failed {reached : Bool} (ht : d.tracks s = some t)
    (h : d.fail s reached t = some d') : HubStep caps limits d (.fail s reached) d' := by
  show (d.tracks s).bind _ = _
  rw [ht]
  exact h

theorem HubStep.begunLive {k : Nat} (ht : d.tracks s = some t)
    (hx : t.outstanding[k]? = some x) (hidle : t.busy = none) (hrow : (d.row s).isSome = true) :
    HubStep caps limits d (.beginLive s k) (d.setTrack s { t with
      busy := some (.live x), outstanding := t.outstanding.eraseIdx k }) := by
  show (d.tracks s).bind _ = _
  rw [ht]
  show (t.outstanding[k]?).bind _ = _
  rw [hx]
  exact if_pos ⟨hidle, hrow⟩

theorem HubStep.shutDown (ht : d.tracks s = some t) (hidle : t.busy = none)
    (hfate : t.fate = .closing ∨ t.fate = .dismissed) (notified : Bool) :
    HubStep caps limits d (.shut s notified) (d.setTrack s { t with
      fate := .closed
      wire := t.wire ++ if notified = true then [.notice] else [] }) := by
  show (d.tracks s).bind _ = _
  rw [ht]
  exact if_pos ⟨hidle, hfate⟩

theorem Hub.complete_frame {f : Frame} (hbusy : t.busy = some (.frame f)) :
    d.complete s t = some (d.setTrack s { t with
      busy := none, stage := t.stage.after f, wire := t.wire ++ [f] }) := by
  unfold Hub.complete
  rw [hbusy]

theorem Hub.complete_drain {event : PendingEvent}
    (hbusy : t.busy = some (.drain (some (x, event)))) :
    d.complete s t = some ((d.setTrack s { t with
      busy := some (.drain none)
      wire := t.wire ++ [.event x.number (some event.payload)] }).withManager
        (d.manager.settleSend s event)) := by
  unfold Hub.complete
  rw [hbusy]

theorem Hub.complete_live (hbusy : t.busy = some (.live x)) (hwritable : x.frame.writable = true) :
    d.complete s t = some (d.setTrack s { t with busy := none, wire := t.wire ++ [x.frame] }) := by
  unfold Hub.complete
  rw [hbusy]
  exact if_pos hwritable

/-- A send of a frame or of a live broadcast fails, and its socket is closed. -/
theorem Hub.fail_send (hbusy : (∃ f, t.busy = some (.frame f)) ∨ ∃ x, t.busy = some (.live x))
    (reached : Bool) :
    d.fail s reached t = some ((d.setTrack s (if (d.row s).isSome = true then
      (t.cut reached).detach .closing else t.cut reached)).withManager
        (detachConnection s d.manager)) := by
  rw [← Hub.detach_setTrack]
  unfold Hub.fail
  obtain ⟨f, hbusy⟩ | ⟨x, hbusy⟩ := hbusy <;> rw [hbusy]

theorem Hub.fail_drain {event : PendingEvent} (hbusy : t.busy = some (.drain (some (x, event))))
    (reached : Bool) :
    d.fail s reached t = some ((d.setTrack s (t.cut reached).leave).withManager
      (d.manager.settleSend s event)) := by
  unfold Hub.fail
  rw [hbusy]

end Serving

/-! ## What is under way is carried out -/

/-- The steps between a session that initializes and its live socket. -/
def Track.ahead (t : Track) : Nat :=
  2 * t.queued.length +
    match t.stage, t.busy with
    | .registered, none => 6
    | .registered, some _ => 5
    | .readySent, none => 4
    | .readySent, some _ => 3
    | .historySent, some (.drain none) => 1
    | .historySent, _ => 2
    | _, _ => 0

section Progress

variable {caps : ManagerLimits} {limits : PendingLimits} {d d' : Hub} {s : Socket} {t t' : Track}
  {x : Issued}

theorem Hub.tracks_advance_gone (hrow : d.row s = none) :
    d.advance s t = d.setTrack s { t with busy := none, stage := .leaving } := by
  have hnone : d.manager.metadata.find? s = none := hrow
  unfold Hub.advance activation
  rw [hnone]
  rfl

theorem Hub.tracks_advance_live {row : ConnectionMetadata} (hrow : d.row s = some row)
    (hpending : row.pending = []) :
    (d.advance s t).tracks s =
      some { t with busy := none, stage := .live, switched := true } := by
  have hsome : d.manager.metadata.find? s = some row := hrow
  unfold Hub.advance activation
  rw [hsome, Option.map_some, hpending]
  exact Hub.tracks_setTrack

theorem Hub.tracks_advance_drain {row : ConnectionMetadata} {event : PendingEvent}
    {rest : List PendingEvent} (hrow : d.row s = some row)
    (hpending : row.pending = event :: rest) :
    (d.advance s t).tracks s = some { t with
      busy := some (.drain (t.queued.head?.map fun x => (x, event)))
      queued := t.queued.tail } := by
  have hsome : d.manager.metadata.find? s = some row := hrow
  unfold Hub.advance activation
  rw [hsome, Option.map_some, hpending]
  exact Hub.tracks_setTrack

/-- The next step of a session that initializes brings its socket closer to going live. -/
theorem HubOk.opens_step (h : HubOk d) (ht : d.tracks s = some t) (hfate : t.fate = .attached)
    (hstage : t.stage ≠ .leaving) (hswitched : t.switched = false) :
    ∃ action d' t', action.Serves s ∧ HubStep caps limits d action d' ∧
      d'.tracks s = some t' ∧ t'.fate = .attached ∧ t'.stage ≠ .leaving ∧
      t'.addressed = t.addressed ∧ t'.ahead < t.ahead := by
  have hok := h.tracks s t ht
  have hrow := hok.attached.mp hfate
  have hlive : t.stage ≠ .live := fun heq => by
    rw [(hok.stage hstage).mpr heq] at hswitched
    cases hswitched
  cases hbusy : t.busy with
  | none =>
      -- the session takes the lock for what its stage sends
      cases hcase : t.stage with
      | registered =>
          refine ⟨.begin s .ready, _, _, rfl,
            HubStep.begun ht hbusy hrow (by rw [hcase]; trivial), Hub.tracks_setTrack, hfate,
            hstage, rfl, ?_⟩
          simp [Track.ahead, hcase, hbusy]
      | readySent =>
          refine ⟨.begin s .history, _, _, rfl,
            HubStep.begun ht hbusy hrow (by rw [hcase]; trivial), Hub.tracks_setTrack, hfate,
            hstage, rfl, ?_⟩
          simp [Track.ahead, hcase, hbusy]
      | historySent =>
          refine ⟨.drain s, _, _, rfl, HubStep.drained ht hbusy hrow hcase, Hub.tracks_setTrack,
            hfate, hstage, rfl, ?_⟩
          simp [Track.ahead, hcase, hbusy]
      | live => exact absurd hcase hlive
      | leaving => exact absurd hcase hstage
  | some holder =>
      have hholder := hok.holder holder hbusy
      cases holder with
      | frame f =>
          have hafter : t.stage.after f ≠ .leaving ∧
              Track.ahead { t with
                busy := none, stage := t.stage.after f, wire := t.wire ++ [f] } < t.ahead := by
            cases hcase : t.stage <;> cases f <;> simp_all [Track.ahead, HolderOk, Stage.Sends,
              Stage.after]
          exact ⟨.complete s, _, _, rfl, HubStep.completed ht (Hub.complete_frame hbusy),
            Hub.tracks_setTrack, hfate, hafter.1, rfl, hafter.2⟩
      | drain sending =>
          have hdrains : t.stage = .historySent := hholder.1
          cases sending with
          | none =>
              obtain ⟨row, hsome⟩ := Option.isSome_iff_exists.mp hrow
              have hpending := (hok.row row hsome).pending
              have hadvance : HubStep caps limits d (.advance s) (d.advance s t) :=
                HubStep.advanced ht hbusy
              cases hqueue : row.pending with
              | nil =>
                  rw [hqueue, List.map_nil, eq_comm, List.map_eq_nil_iff] at hpending
                  refine ⟨.advance s, _, _, rfl, hadvance, Hub.tracks_advance_live hsome hqueue,
                    hfate, nofun, rfl, ?_⟩
                  simp [Track.ahead, hdrains, hbusy, hpending]
              | cons event rest =>
                  cases hqueued : t.queued with
                  | nil =>
                      rw [hqueue, hqueued] at hpending
                      cases hpending
                  | cons first others =>
                      refine ⟨.advance s, _, _, rfl, hadvance,
                        Hub.tracks_advance_drain hsome hqueue, hfate, hstage, rfl, ?_⟩
                      simp [Track.ahead, hdrains, hbusy, hqueued]
                      omega
          | some p =>
              refine ⟨.complete s, _, _, rfl, HubStep.completed ht (Hub.complete_drain hbusy),
                Hub.tracks_setTrack, hfate, hstage, rfl, ?_⟩
              simp [Track.ahead, hdrains, hbusy]
      | live x =>
          have hmem : x ∈ t.liveAddressed := hholder
          rw [hok.unswitched hswitched] at hmem
          cases hmem

/-- A session that initializes can go live. -/
theorem HubOk.opens (h : HubOk d) (ht : d.tracks s = some t) (hfate : t.fate = .attached)
    (hstage : t.stage ≠ .leaving) : d.Comes caps limits s fun t' =>
      t'.fate = .attached ∧ t'.switched = true ∧ t'.addressed = t.addressed := by
  let initializes : Hub → Prop := fun e => HubOk e ∧ ∃ t', e.tracks s = some t' ∧
    t'.fate = .attached ∧ t'.stage ≠ .leaving ∧ t'.addressed = t.addressed
  let live : Hub → Prop := fun e => ∀ t' ∈ e.tracks s, t'.switched = true
  have hnext : ∀ d, initializes d → ¬ live d → ∃ action d', action.Serves s ∧
      HubStep caps limits d action d' ∧ initializes d' ∧
      ((d'.tracks s).map Track.ahead).getD 0 < ((d.tracks s).map Track.ahead).getD 0 := by
    rintro d ⟨hd, t', ht', hfate', hstage', hsame⟩ hlive
    have hswitched : t'.switched = false := by
      rw [← Bool.not_eq_true]
      intro htrue
      refine hlive fun u hu => ?_
      obtain rfl := Option.some.inj (ht'.symm.trans hu)
      exact htrue
    obtain ⟨action, d', u, hserves, hstep, hu, hfate'', hstage'', hsame', hless⟩ :=
      hd.opens_step ht' hfate' hstage' hswitched
    refine ⟨action, d', hserves, hstep,
      ⟨hd.step hstep, u, hu, hfate'', hstage'', hsame'.trans hsame⟩, ?_⟩
    rw [hu, ht']
    exact hless
  obtain ⟨d', hrun, ⟨-, t', ht', hfate', -, hsame⟩, hlive⟩ :=
    Run.descends (fun e : Hub => ((e.tracks s).map Track.ahead).getD 0) hnext
      ⟨h, t, ht, hfate, hstage, rfl⟩
  exact ⟨d', t', hrun, ht', hfate', hlive t' ht', hsame⟩

/-- A live send that has begun comes to its end: the event is out, or the socket is closed. -/
theorem Hub.Comes.sent (ht : d.tracks s = some t) (hrow : (d.row s).isSome = true)
    (hbusy : t.busy = some (.live x)) :
    d.Comes caps limits s fun t' => x.frame ∈ t'.wire ∨ t'.fate = .closing := by
  by_cases hwritable : x.frame.writable = true
  · refine Hub.Comes.step (HubStep.completed ht (Hub.complete_live hbusy hwritable)) rfl
      (Hub.Comes.now Hub.tracks_setTrack (.inl ?_))
    exact List.mem_append_right _ List.mem_cons_self
  · -- `send_json` raises where the event has no JSON text
    refine Hub.Comes.step (HubStep.failed ht (Hub.fail_send (.inr ⟨x, hbusy⟩) false)) rfl
      (Hub.Comes.now Hub.tracks_setTrack (.inr ?_))
    rw [if_pos hrow]
    rfl

/-- A live send that waits gets the lock once it is free. -/
theorem Hub.Comes.sentNext {k : Nat} (ht : d.tracks s = some t) (hrow : (d.row s).isSome = true)
    (hidle : t.busy = none) (hx : t.outstanding[k]? = some x) :
    d.Comes caps limits s fun t' => x.frame ∈ t'.wire ∨ t'.fate = .closing :=
  Hub.Comes.step (HubStep.begunLive ht hx hidle hrow) rfl
    (Hub.Comes.sent Hub.tracks_setTrack hrow rfl)

/-- Every live send that is under way can be carried out. -/
theorem HubOk.sends (h : HubOk d) (ht : d.tracks s = some t) (hfate : t.fate = .attached)
    (hx : x ∈ t.underWay) :
    d.Comes caps limits s fun t' => x.frame ∈ t'.wire ∨ t'.fate = .closing := by
  have hok := h.tracks s t ht
  have hrow := hok.attached.mp hfate
  by_cases hbegun : t.busy = some (.live x)
  · exact Hub.Comes.sent ht hrow hbegun
  have hwaits : x ∈ t.outstanding := by
    unfold Track.underWay at hx
    split at hx
    · rename_i y hbusy
      rcases List.mem_cons.mp hx with rfl | hx
      · exact absurd hbusy hbegun
      · exact hx
    · exact hx
  obtain ⟨k, hk⟩ := List.mem_iff_getElem?.mp hwaits
  -- whoever holds the lock lets go of it first
  cases hbusy : t.busy with
  | none => exact Hub.Comes.sentNext ht hrow hbusy hk
  | some holder =>
      cases holder with
      | frame f =>
          exact Hub.Comes.step (HubStep.completed ht (Hub.complete_frame hbusy)) rfl
            (Hub.Comes.sentNext Hub.tracks_setTrack hrow rfl hk)
      | drain sending =>
          have hdrains : t.stage = .historySent := (hok.holder _ hbusy).1
          have hswitched : t.switched = false := by
            rw [← Bool.not_eq_true, hok.stage (by rw [hdrains]; nofun), hdrains]
            nofun
          have hmem := hok.live.addressed x hx
          rw [hok.unswitched hswitched] at hmem
          cases hmem
      | live y =>
          by_cases hwritable : y.frame.writable = true
          · exact Hub.Comes.step (HubStep.completed ht (Hub.complete_live hbusy hwritable)) rfl
              (Hub.Comes.sentNext Hub.tracks_setTrack hrow rfl hk)
          · refine Hub.Comes.step (HubStep.failed ht (Hub.fail_send (.inr ⟨y, hbusy⟩) false)) rfl
              (Hub.Comes.now Hub.tracks_setTrack (.inr ?_))
            rw [if_pos hrow]
            rfl

/-- A closure that is pending can be carried out once the lock is free. -/
theorem Hub.Comes.shut (ht : d.tracks s = some t) (hidle : t.busy = none)
    (hfate : t.fate = .closing ∨ t.fate = .dismissed) :
    d.Comes caps limits s fun t' => t'.fate = .closed :=
  Hub.Comes.step (HubStep.shutDown ht hidle hfate true) rfl (Hub.Comes.now Hub.tracks_setTrack rfl)

/-- Whoever holds the lock of a socket that is to be closed lets go of it, and the socket is
closed. -/
theorem HubOk.closes (h : HubOk d) (ht : d.tracks s = some t)
    (hfate : t.fate = .closing ∨ t.fate = .dismissed) :
    d.Comes caps limits s fun t' => t'.fate = .closed := by
  have hok := h.tracks s t ht
  have hgone : (d.row s).isSome = false := by
    rw [← Bool.not_eq_true, ← hok.attached]
    rcases hfate with heq | heq <;> rw [heq] <;> nofun
  have hcut : ∀ held : (∃ f, t.busy = some (.frame f)) ∨ ∃ x, t.busy = some (.live x),
      d.Comes caps limits s fun t' => t'.fate = .closed := by
    intro held
    refine Hub.Comes.step (HubStep.failed ht (Hub.fail_send held false)) rfl
      (Hub.Comes.shut Hub.tracks_setTrack ?_ ?_)
    all_goals rw [hgone, if_neg Bool.false_ne_true]
    · rfl
    · exact hfate
  cases hbusy : t.busy with
  | none => exact Hub.Comes.shut ht hbusy hfate
  | some holder =>
      cases holder with
      | frame f => exact hcut (.inl ⟨f, hbusy⟩)
      | live x => exact hcut (.inr ⟨x, hbusy⟩)
      | drain sending =>
          cases sending with
          | none =>
              have hrow : d.row s = none := by
                rw [← Option.not_isSome_iff_eq_none, hgone]
                exact Bool.false_ne_true
              refine Hub.Comes.step (HubStep.advanced ht hbusy) rfl ?_
              rw [Hub.tracks_advance_gone hrow]
              exact Hub.Comes.shut Hub.tracks_setTrack rfl hfate
          | some p =>
              exact Hub.Comes.step (HubStep.failed ht (Hub.fail_drain hbusy false)) rfl
                (Hub.Comes.shut Hub.tracks_setTrack rfl hfate)

end Progress

/-! ## What becomes of a detached socket -/

section Gone

variable {caps : ManagerLimits} {limits : PendingLimits} {d d' : Hub} {s other : Socket}
  {t told u : Track} {action : HubAction}

theorem Detached.refl : Detached s action t t :=
  ⟨id, .inl rfl⟩

/-- A step of one socket, seen from a socket that is not registered. -/
theorem Detached.setTrack (ht : d.tracks s = some t) (htold : d.tracks other = some told)
    (hmove : other = s → Detached s action told u) :
    ∃ t', (d.setTrack other u).tracks s = some t' ∧ Detached s action t t' := by
  by_cases heq : other = s
  · subst heq
    obtain rfl := Option.some.inj (ht.symm.trans htold)
    exact ⟨u, Hub.tracks_setTrack, hmove rfl⟩
  · exact ⟨t, (Hub.tracks_setTrack_of_ne fun h => heq h.symm).trans ht, Detached.refl⟩

/-- Whatever ends a send leaves the fate of its socket alone. -/
theorem Detached.of_idle (hidle : u.busy = none) (hfate : u.fate = t.fate) :
    Detached s action t u :=
  ⟨fun _ => hidle, .inl hfate⟩

theorem Hub.tracks_connect {row : ConnectionMetadata} {admitted : Bool}
    (ht : d.tracks s = some t) (hnew : d.tracks row.socket = none) :
    (d.connect caps row admitted).tracks s = some t := by
  have hne : s ≠ row.socket := by
    rintro rfl
    rw [hnew] at ht
    cases ht
  unfold Hub.connect
  dsimp only
  split
  · exact (Hub.tracks_setTrack_of_ne hne).trans ht
  · exact ht

theorem Hub.tracks_broadcast {e : Broadcast} {connections : List Socket}
    (ht : d.tracks s = some t) (hrow : d.row s = none) :
    (d.broadcast limits e connections).tracks s = some t := by
  unfold Hub.broadcast
  dsimp only
  rw [ht, hrow]
  rfl

/-- The section of an activation whose socket may be gone. -/
theorem Detached.advance (ht : d.tracks s = some t) (hrow : d.row s = none)
    (htold : d.tracks other = some told) :
    ∃ t', (d.advance other told).tracks s = some t' ∧ Detached s (.advance other) t t' := by
  by_cases heq : other = s
  · subst heq
    rw [Hub.tracks_advance_gone hrow]
    exact Detached.setTrack ht htold fun _ => Detached.of_idle rfl rfl
  · refine ⟨t, ?_, Detached.refl⟩
    have hne : s ≠ other := fun h => heq h.symm
    unfold Hub.advance
    split
    · exact (Hub.tracks_setTrack_of_ne hne).trans ht
    · exact (Hub.tracks_setTrack_of_ne hne).trans ht
    · exact (Hub.tracks_setTrack_of_ne hne).trans ht

theorem Detached.complete (ht : d.tracks s = some t) (htold : d.tracks other = some told)
    (hstep : d.complete other told = some d') :
    ∃ t', d'.tracks s = some t' ∧ Detached s (.complete other) t t' := by
  unfold Hub.complete at hstep
  split at hstep
  · obtain rfl := Option.some.inj hstep
    exact Detached.setTrack ht htold fun _ => Detached.of_idle rfl rfl
  · rename_i x event hbusy
    obtain rfl := Option.some.inj hstep
    refine Detached.setTrack ht htold fun _ => ⟨fun hidle => ?_, .inl rfl⟩
    rw [hbusy] at hidle
    cases hidle
  · split at hstep
    · obtain rfl := Option.some.inj hstep
      exact Detached.setTrack ht htold fun _ => Detached.of_idle rfl rfl
    · cases hstep
  · cases hstep

theorem Detached.fail {reached : Bool} (ht : d.tracks s = some t) (hrow : d.row s = none)
    (htold : d.tracks other = some told) (hstep : d.fail other reached told = some d') :
    ∃ t', d'.tracks s = some t' ∧ Detached s (.fail other reached) t t' := by
  have hcut : ∃ t', (d.setTrack other (told.cut reached)).tracks s = some t' ∧
      Detached s (.fail other reached) t t' :=
    Detached.setTrack ht htold fun _ => Detached.of_idle rfl rfl
  have hgone : Hub.row (d.setTrack other (told.cut reached)) s = none := hrow
  unfold Hub.fail at hstep
  split at hstep
  · obtain rfl := Option.some.inj hstep
    exact Detached.setTrack ht htold fun _ => Detached.of_idle rfl rfl
  · obtain rfl := Option.some.inj hstep
    rw [Hub.tracks_detach hgone]
    exact hcut
  · obtain rfl := Option.some.inj hstep
    rw [Hub.tracks_detach hgone]
    exact hcut
  · cases hstep

theorem Detached.leave {reached : Bool} (ht : d.tracks s = some t)
    (htold : d.tracks other = some told) :
    ∃ t', (d.leave other reached told).tracks s = some t' ∧
      Detached s (.leave other reached) t t' := by
  unfold Hub.leave
  split
  · exact Detached.setTrack ht htold fun _ => ⟨id, .inl rfl⟩
  · exact Detached.setTrack ht htold fun _ => Detached.of_idle rfl rfl
  · exact Detached.setTrack ht htold fun _ => Detached.of_idle rfl rfl

/-- Nothing takes back that a socket has been detached. -/
theorem HubOk.stays (h : HubOk d) (ht : d.tracks s = some t) (hfate : t.fate ≠ .attached)
    (hstep : HubStep caps limits d action d') :
    ∃ t', d'.tracks s = some t' ∧ Detached s action t t' := by
  have hrow : d.row s = none := by
    rw [← Option.not_isSome_iff_eq_none, ← (h.tracks s t ht).attached]
    exact hfate
  have hdetached : ∀ (fate : Fate) (m : Manager), ∃ t', (d.detach fate m).tracks s = some t' ∧
      Detached s action t t' := fun _ _ => ⟨t, (Hub.tracks_detach hrow).trans ht, Detached.refl⟩
  -- the lock of a socket that is not registered is given to nobody
  have hnobody : ∀ {other : Socket}, (d.row other).isSome = true → other ≠ s := by
    rintro other hsome rfl
    rw [hrow] at hsome
    cases hsome
  unfold HubStep Hub.next at hstep
  cases action with
  | connect row admitted =>
      dsimp only at hstep
      split at hstep
      · rename_i hnew
        obtain rfl := Option.some.inj hstep
        exact ⟨t, Hub.tracks_connect ht hnew, Detached.refl⟩
      · cases hstep
  | broadcast e connections =>
      dsimp only at hstep
      split at hstep
      · obtain rfl := Option.some.inj hstep
        exact ⟨t, Hub.tracks_broadcast ht hrow, Detached.refl⟩
      · cases hstep
  | begin other f =>
      obtain ⟨told, htold, hnext⟩ := Option.bind_eq_some_iff.mp hstep
      split at hnext
      · rename_i hguard
        obtain rfl := Option.some.inj hnext
        exact Detached.setTrack ht htold fun heq => absurd heq (hnobody hguard.2.1)
      · cases hnext
  | drain other =>
      obtain ⟨told, htold, hnext⟩ := Option.bind_eq_some_iff.mp hstep
      split at hnext
      · rename_i hguard
        obtain rfl := Option.some.inj hnext
        exact Detached.setTrack ht htold fun heq => absurd heq (hnobody hguard.2.1)
      · cases hnext
  | advance other =>
      obtain ⟨told, htold, hnext⟩ := Option.bind_eq_some_iff.mp hstep
      split at hnext
      · obtain rfl := Option.some.inj hnext
        exact Detached.advance ht hrow htold
      · cases hnext
  | complete other =>
      obtain ⟨told, htold, hnext⟩ := Option.bind_eq_some_iff.mp hstep
      exact Detached.complete ht htold hnext
  | fail other reached =>
      obtain ⟨told, htold, hnext⟩ := Option.bind_eq_some_iff.mp hstep
      exact Detached.fail ht hrow htold hnext
  | leave other reached =>
      obtain ⟨told, htold, rfl⟩ := Option.map_eq_some_iff.mp hstep
      exact Detached.leave ht htold
  | beginLive other k =>
      obtain ⟨told, htold, hnext⟩ := Option.bind_eq_some_iff.mp hstep
      obtain ⟨x, hx, hnext⟩ := Option.bind_eq_some_iff.mp hnext
      split at hnext
      · rename_i hguard
        obtain rfl := Option.some.inj hnext
        exact Detached.setTrack ht htold fun heq => absurd heq (hnobody hguard.2)
      · cases hnext
  | cancelLive other reached =>
      obtain ⟨told, htold, hnext⟩ := Option.bind_eq_some_iff.mp hstep
      split at hnext
      · obtain rfl := Option.some.inj hnext
        exact Detached.setTrack ht htold fun _ => Detached.of_idle rfl rfl
      · cases hnext
  | cancelWaiting other k =>
      obtain ⟨told, htold, rfl⟩ := Option.map_eq_some_iff.mp hstep
      exact Detached.setTrack ht htold fun _ => ⟨id, .inl rfl⟩
  | close other =>
      obtain rfl := Option.some.inj hstep
      exact hdetached _ _
  | unregister other =>
      obtain rfl := Option.some.inj hstep
      exact hdetached _ _
  | closeRoom roomId eventSequence =>
      obtain rfl := Option.some.inj hstep
      exact hdetached _ _
  | closeMember roomId subject eventSequence =>
      obtain rfl := Option.some.inj hstep
      exact hdetached _ _
  | closeAll =>
      obtain rfl := Option.some.inj hstep
      exact hdetached _ _
  | shut other notified =>
      obtain ⟨told, htold, hnext⟩ := Option.bind_eq_some_iff.mp hstep
      split at hnext
      · rename_i hguard
        obtain rfl := Option.some.inj hnext
        exact Detached.setTrack ht htold fun _ => ⟨id, .inr (.inl ⟨hguard.2, rfl⟩)⟩
      · cases hnext
  | abandon other =>
      obtain ⟨told, htold, hnext⟩ := Option.bind_eq_some_iff.mp hstep
      split at hnext
      · rename_i hfate
        obtain rfl := Option.some.inj hnext
        refine Detached.setTrack ht htold fun heq => ⟨id, .inr (.inr ⟨hfate, ?_, rfl⟩)⟩
        rw [heq]
      · cases hnext

theorem HubOk.served (h : HubOk d) (ht : d.tracks s = some t) : d.Served caps limits s t where
  opens := h.opens ht
  sends hfate _ hx := h.sends ht hfate hx
  closes := h.closes ht
  stays hfate _ _ hstep := h.stays ht hfate hstep

end Gone

/-! ## The order of the frames -/

section Order

variable {caps : ManagerLimits} {limits : PendingLimits} {d : Hub} {s : Socket} {t : Track}

end Order

/-! ## Concrete runs -/

section Examples

def Hub.run (caps : ManagerLimits) (limits : PendingLimits) (actions : List HubAction) (d : Hub) :
    Option Hub :=
  actions.foldlM (Hub.next caps limits) d

theorem Hub.run_reachable (caps : ManagerLimits) (limits : PendingLimits)
    (actions : List HubAction) {d d' : Hub} (h : HubReachable caps limits d)
    (hrun : d.run caps limits actions = some d') : HubReachable caps limits d' :=
  Reachable.foldlM h hrun

end Examples

end Sockets
end ChatEngine
