import ChatEngine.Client.SessionRuns

/-!
# The lifecycle of a session

* `Session.Lifecycle`, what holds after `close`, while a promise of `connect` waits, and when one
  resolves;
* `SessionTidy`, the invariant next to `SessionOk` as long as neither `connect` nor `close` is
  called by a listener that `failAttempt` notifies;
* `closeWhileStale`, a run in which `close` is.
-/

namespace ChatEngine
namespace Client

open Lib

/-- After `close` everything is over; what a waiting promise waits for is armed, unless a call that
settles the promise has yet to return; and a promise resolves with an active socket. -/
structure Session.Lifecycle (s : Session) : Prop where
  closed : s.quiet = true → s.state = .closed ∧ s.handshakes = [] ∧ s.reconnects = [] ∧
    s.stables = [] ∧ s.socket = none
  pending : s.promise = true →
    s.manuallyClosed = false ∧
      (s.attempt = true ∧ s.handshakes = [s.generation] ∨ s.reconnects = [s.generation]) ∨
    s.failing = true ∨ .closed ∈ s.stack ∨ .activated s.generation ∈ s.stack
  resolved : ∀ r ∈ s.resolutions, r.phase = .active ∧ r.socket = some r.generation

/-- The calls that leave `failAttempt` undisturbed. -/
def SessionAction.Undisturbed (s : Session) : SessionAction → Prop
  | .connect | .close => s.failing = false
  | _ => True

instance (s : Session) : ∀ action : SessionAction, Decidable (action.Undisturbed s)
  | .connect | .close => inferInstanceAs (Decidable (s.failing = false))
  | .sendFails | .listenersReturn .. | .factoryReturns | .factoryThrows |
    .credential .. | .handshakeTimeout _ | .reconnectTimeout _ | .stableTimeout .. | .message .. |
    .socketError _ | .socketClosed .. => isTrue trivial

theorem SessionAction.Undisturbed.outside {s : Session} {action : SessionAction}
    (h : action.Undisturbed s) : action.Outside s := by
  cases action with
  | connect => exact h
  | close | sendFails | listenersReturn | factoryReturns | factoryThrows | credential |
    handshakeTimeout | reconnectTimeout | stableTimeout | message | socketError | socketClosed =>
      trivial

structure SessionTidy (s : Session) : Prop where
  pending : s.promise = true → s.failing = true ∨ s.state = .connecting ∨ s.state = .reconnecting
  connecting : s.state = .connecting → s.attempt = true ∨ s.failing = true
  reconnecting : s.state = .reconnecting →
    s.attempt = true ∨ s.reconnects ≠ [] ∨ s.failing = true
  manual : s.manuallyClosed = true → .closed ∈ s.stack ∨
    s.attempt = false ∧ s.reconnects = [] ∧ s.promise = false
  failing : s.failing = true → s.manuallyClosed = false
  ordered : ∀ above below, s.stack = above ++ .closed :: below → below.any Frame.isFailing = false
  active : s.attempt = true → s.phase = .active →
    s.state = .connected ∨ .activated s.generation ∈ s.stack ∨ .closed ∈ s.stack
  quiet : s.quiet = true →
    s.attempt = false ∧ s.reconnects = [] ∧ s.state = .closed ∧ s.failing = false

section Frames

variable {policy : ReconnectPolicy} {s : Session} {f : Frame} {g : Nat} {rest : List Frame}

/-- A frame that is not `failing` is put on top. -/
theorem SessionTidy.push (h : SessionTidy s) (hf : f.isFailing = false)
    (hclosed : f = .closed → s.failing = false) : SessionTidy (s.push f) := by
  have hfailing : (s.push f).failing = s.failing := by
    rw [Session.failing_push, hf, Bool.false_or]
  exact
    { pending := fun hpromise => hfailing ▸ h.pending hpromise
      connecting := fun hstate => hfailing ▸ h.connecting hstate
      reconnecting := fun hstate => hfailing ▸ h.reconnecting hstate
      manual := fun hmanual => (h.manual hmanual).imp_left (List.mem_cons_of_mem f)
      failing := fun hfail => h.failing (hfailing ▸ hfail)
      ordered := by
        intro above below hstack
        cases above with
        | nil =>
            obtain ⟨htop, hbelow⟩ := List.cons.inj hstack
            rw [← hbelow]
            exact hclosed htop
        | cons top above => exact h.ordered above below (List.cons.inj hstack).2
      active := fun hattempt hphase => (h.active hattempt hphase).imp_right
        (Or.imp (List.mem_cons_of_mem f) (List.mem_cons_of_mem f))
      quiet := fun hquiet => hfailing ▸ h.quiet hquiet }

/-- A frame that is neither `failing` nor `closed` is taken off. -/
theorem SessionTidy.pop (h : SessionTidy s) (hstack : s.stack = f :: rest)
    (hf : f.isFailing = false) (hclosed : f ≠ .closed)
    (hactivated : f = .activated s.generation → s.attempt = true →
      s.state = .connected ∨ .closed ∈ s.stack) : SessionTidy { s with stack := rest } := by
  have hfailing : Session.failing { s with stack := rest } = s.failing := by
    rw [Session.failing, Session.failing, hstack, List.any_cons, hf, Bool.false_or]
  have hmem : .closed ∈ s.stack → .closed ∈ rest := by
    intro hold
    rw [hstack] at hold
    rcases List.mem_cons.mp hold with htop | hrest
    · exact absurd htop.symm hclosed
    · exact hrest
  exact
    { pending := fun hpromise => hfailing ▸ h.pending hpromise
      connecting := fun hstate => hfailing ▸ h.connecting hstate
      reconnecting := fun hstate => hfailing ▸ h.reconnecting hstate
      manual := fun hmanual => (h.manual hmanual).imp_left hmem
      failing := fun hfail => h.failing (hfailing ▸ hfail)
      ordered := fun above below hbelow =>
        h.ordered (f :: above) below (hstack.trans (congrArg (f :: ·) hbelow))
      active := by
        intro hattempt hphase
        rcases h.active hattempt hphase with hstate | hframe | hframe
        · exact .inl hstate
        · rw [hstack] at hframe
          rcases List.mem_cons.mp hframe with htop | hrest
          · exact (hactivated htop.symm hattempt).imp_right fun hold => .inr (hmem hold)
          · exact .inr (.inl hrest)
        · exact .inr (.inr (hmem hframe))
      quiet := fun hquiet => hfailing ▸ h.quiet hquiet }

theorem SessionTidy.closeTransport (h : SessionTidy s) (socket : Option Nat) :
    SessionTidy (s.closeTransport socket) := by
  cases socket with
  | none => exact h
  | some g => exact { h with }

theorem SessionTidy.setStateAndClose {state : ConnectionState} {socket : Option Nat}
    (h : SessionTidy { s with state := state }) :
    SessionTidy (s.setStateAndClose state socket) := by
  unfold Session.setStateAndClose
  split_ifs with hsame
  · subst hsame
    exact SessionTidy.closeTransport h socket
  · exact SessionTidy.push (f := .closing socket) h rfl nofun

theorem SessionTidy.opened (h : SessionTidy s) : SessionTidy (s.opened g) := by
  unfold Session.opened
  split_ifs
  · exact { h with }
  · exact h

/-- A current attempt that the session has made is not over. -/
theorem SessionTidy.noisy (h : SessionTidy s) (hknown : s.Known g) (hcurrent : s.isCurrent g = true) :
    s.quiet = false := by
  by_contra hquiet
  have hattempt := hknown.attempt (Session.isCurrent_iff.mp hcurrent).1
  have hover := (h.quiet ((Bool.not_eq_false _).mp hquiet)).1
  rw [hattempt] at hover
  cases hover

theorem SessionTidy.failAttempt (h : SessionTidy s) (hknown : s.Known g) (retry : Bool) :
    SessionTidy (s.failAttempt g retry) := by
  unfold Session.failAttempt
  split_ifs with hcurrent
  · have hopen : s.manuallyClosed = false := (Session.isCurrent_iff.mp hcurrent).2
    exact
      { pending := fun _ => .inl rfl
        connecting := fun _ => .inr rfl
        reconnecting := fun _ => .inr (.inr rfl)
        manual := fun hmanual => by
          have hclash : s.manuallyClosed = true := hmanual
          rw [hopen] at hclash
          cases hclash
        failing := fun _ => hopen
        ordered := by
          intro above below hstack
          cases above with
          | nil => cases (List.cons.inj hstack).1
          | cons top above => exact h.ordered above below (List.cons.inj hstack).2
        active := nofun
        quiet := fun hquiet => by
          have hclash : s.quiet = true := hquiet
          rw [h.noisy hknown hcurrent] at hclash
          cases hclash }
  · exact h

/-- `failAttempt` goes on after the listeners of the timeline. -/
theorem SessionTidy.scheduleReconnect {retry : Bool} {socket : Option Nat} (h : SessionTidy s)
    (hok : SessionOk policy [] s) (hstack : s.stack = .failing retry socket :: rest)
    (random : Rat) :
    SessionTidy ({ s with stack := rest, promise := false }.scheduleReconnect policy retry
      random socket) := by
  have hfailing : s.failing = true := by
    rw [Session.failing, hstack]
    rfl
  have hopen := h.failing hfailing
  have hattempt := (hok.failed hfailing).1
  have hleft : ∀ state reconnects attempts delays timer,
      state = .closed ∨ state = .reconnecting ∧ reconnects ≠ [] →
      SessionTidy { s with
        stack := rest, promise := false, state := state, reconnects := reconnects,
        attempts := attempts, delays := delays, reconnectTimer := timer } := by
    intro state reconnects attempts delays timer hstate
    exact
      { pending := fun hpromise => by cases hpromise
        connecting := fun hconnecting => by
          have heq : state = .connecting := hconnecting
          rcases hstate with hclosed | ⟨hreconnecting, -⟩
          · rw [hclosed] at heq
            cases heq
          · rw [hreconnecting] at heq
            cases heq
        reconnecting := fun hreconnecting => by
          have heq : state = .reconnecting := hreconnecting
          rcases hstate with hclosed | ⟨-, harmed⟩
          · rw [hclosed] at heq
            cases heq
          · exact .inr (.inl harmed)
        manual := fun hmanual => by
          have hclash : s.manuallyClosed = true := hmanual
          rw [hopen] at hclash
          cases hclash
        failing := fun _ => hopen
        ordered := fun above below hbelow =>
          h.ordered (.failing retry socket :: above) below
            (hstack.trans (congrArg (.failing retry socket :: ·) hbelow))
        active := fun hlive => by
          have hclash : s.attempt = true := hlive
          rw [hattempt] at hclash
          cases hclash
        quiet := fun hquiet => by
          have hclash := (h.quiet hquiet).2.2.2
          rw [hfailing] at hclash
          cases hclash }
  unfold Session.scheduleReconnect
  dsimp only
  split_ifs
  · exact SessionTidy.setStateAndClose (hleft .closed _ _ _ _ (.inl rfl))
  · exact SessionTidy.setStateAndClose
      (hleft .reconnecting _ _ _ _ (.inr ⟨rfl, List.cons_ne_nil _ _⟩))

/-- `close` goes on after the listeners of the timeline. -/
theorem SessionTidy.closeRest (h : SessionTidy s) (hok : SessionOk policy [] s)
    (hstack : s.stack = .closed :: rest) : SessionTidy { s with stack := rest }.closeRest := by
  have hcleared : clearTimer s.reconnectTimer s.reconnects = [] := hok.cleared.2.2
  have hquiet : rest.any Frame.isFailing = false := h.ordered [] rest hstack
  unfold Session.closeRest
  dsimp only
  rw [hcleared]
  apply SessionTidy.setStateAndClose
  exact
    { pending := nofun
      connecting := nofun
      reconnecting := nofun
      manual := fun _ => .inr ⟨rfl, rfl, rfl⟩
      failing := fun hfail => by
        have hclash : rest.any Frame.isFailing = true := hfail
        rw [hquiet] at hclash
        cases hclash
      ordered := fun above below hbelow =>
        h.ordered (.closed :: above) below (hstack.trans (congrArg (.closed :: ·) hbelow))
      active := nofun
      quiet := fun _ => ⟨rfl, rfl, rfl, hquiet⟩ }

/-- A frame that is not of the socket factory goes on. -/
theorem SessionTidy.resume (h : SessionTidy s) (hok : SessionOk policy [] s)
    (hstack : s.stack = f :: rest) (sent : Bool) (random : Rat) :
    SessionTidy ({ s with stack := rest }.resume policy sent random f) := by
  have hmem : f ∈ s.stack := hstack ▸ List.mem_cons_self
  cases f with
  | opening g => exact SessionTidy.opened (h.pop hstack rfl nofun nofun)
  | factory g => exact h.pop hstack rfl nofun nofun
  | activated g =>
      have hknown := hok.frames _ hmem g rfl
      have hsettled : s.isCurrent g = true →
          SessionTidy { s with stack := rest, promise := false, state := .connected } :=
        fun hcurrent =>
          { pending := nofun
            connecting := nofun
            reconnecting := nofun
            manual := fun hmanual => by
              have hclash : s.manuallyClosed = true := hmanual
              rw [(Session.isCurrent_iff.mp hcurrent).2] at hclash
              cases hclash
            failing := fun _ => (Session.isCurrent_iff.mp hcurrent).2
            ordered := fun above below hbelow =>
              h.ordered (.activated g :: above) below
                (hstack.trans (congrArg (.activated g :: ·) hbelow))
            active := fun _ _ => .inl rfl
            quiet := fun hquiet => by
              have hclash : s.quiet = true := hquiet
              rw [h.noisy hknown hcurrent] at hclash
              cases hclash }
      show SessionTidy (if _ then _ else _)
      split_ifs with hcurrent hpromise
      · exact SessionTidy.push (f := .dispatching g false) { hsettled hcurrent with } rfl nofun
      · exact SessionTidy.push (f := .dispatching g false) (hsettled hcurrent) rfl nofun
      · refine h.pop hstack rfl nofun fun hg hattempt => .inr ?_
        -- The attempt is not current because the session is being closed.
        have hmanual : s.manuallyClosed = true := by
          by_contra hopen
          exact hcurrent (Session.isCurrent_iff.mpr
            ⟨Frame.activated.inj hg, (Bool.not_eq_true _).mp hopen⟩)
        rcases h.manual hmanual with hframe | ⟨hdetached, -⟩
        · exact hframe
        · rw [hattempt] at hdetached
          cases hdetached
  | dispatching g history =>
      have hpop := h.pop hstack rfl nofun nofun
      show SessionTidy (if _ then _ else _)
      split_ifs with hfails
      · exact SessionTidy.failAttempt hpop (hok.frames _ hmem g rfl) true
      · exact hpop
  | failing retry socket => exact h.scheduleReconnect hok hstack random
  | closing socket => exact SessionTidy.closeTransport (h.pop hstack rfl nofun nofun) socket
  | closed => exact h.closeRest hok hstack

end Frames

section Events

variable {policy : ReconnectPolicy} {s s' : Session} {action : SessionAction} {g : Nat}
  {rest : List Frame}

theorem SessionTidy.openSocket (reconnecting : Bool) (hopen : s.manuallyClosed = false)
    (hquiet : s.quiet = false)
    (hordered : ∀ above below, s.stack = above ++ .closed :: below →
      below.any Frame.isFailing = false) : SessionTidy (s.openSocket reconnecting) := by
  have hnew : ∀ state : ConnectionState,
      state = (if reconnecting = true then ConnectionState.reconnecting else .connecting) →
      SessionTidy { s with
        generation := s.generation + 1
        attempt := true
        phase := .opening
        handshakeTimer := some (s.generation + 1)
        handshakes := (s.generation + 1) :: s.handshakes
        state := state } := by
    intro state hstate
    exact
      { pending := fun _ => by
          right
          rw [hstate]
          cases reconnecting
          · exact .inl rfl
          · exact .inr rfl
        connecting := fun _ => .inl rfl
        reconnecting := fun _ => .inl rfl
        manual := fun hmanual => by
          have hclash : s.manuallyClosed = true := hmanual
          rw [hopen] at hclash
          cases hclash
        failing := fun _ => hopen
        ordered := hordered
        active := nofun
        quiet := fun hclash => by
          have hclash : s.quiet = true := hclash
          rw [hquiet] at hclash
          cases hclash }
  unfold Session.openSocket
  dsimp only
  generalize (if reconnecting = true then ConnectionState.reconnecting else .connecting) = state
    at hnew ⊢
  split
  · rename_i hsame
    exact SessionTidy.opened (hnew s.state hsame)
  · exact SessionTidy.push (f := .opening (s.generation + 1)) (hnew state rfl) rfl nofun

theorem SessionTidy.connect (h : SessionTidy s) : SessionTidy s.connect := by
  have hloud : SessionTidy { s with quiet := false } := { h with quiet := nofun }
  unfold Session.connect
  dsimp only
  split_ifs with hconnected hpromise hreconnecting
  · exact { hloud with }
  · exact hloud
  · exact
      { hloud with
        pending := fun _ => .inr (.inr hreconnecting)
        manual := nofun
        failing := fun _ => rfl }
  · exact SessionTidy.openSocket false rfl rfl h.ordered

theorem SessionTidy.close (h : SessionTidy s) (hfailing : s.failing = false) :
    SessionTidy s.close := by
  have hmarked : SessionTidy (s.push .closed) :=
    SessionTidy.push (f := .closed) h rfl fun _ => hfailing
  exact
    { hmarked with
      manual := fun _ => .inl List.mem_cons_self
      failing := fun hfail => by
        have hclash : s.failing = true := hfail
        rw [hfailing] at hclash
        cases hclash }

theorem SessionTidy.handleMessage (h : SessionTidy s) (hok : SessionOk policy [] s)
    (hmem : g ∈ s.installed) (hcurrent : s.isCurrent g = true) (incoming : Incoming) :
    SessionTidy (s.handleMessage g incoming) := by
  have hknown := (hok.installed g hmem).1
  have hfail : ∀ retry, SessionTidy (s.failAttempt g retry) := h.failAttempt hknown
  have hdispatch : ∀ phase history, (phase = .active → s.phase = .active) →
      SessionTidy ({ s with phase := phase }.push (.dispatching g history)) := by
    intro phase history hphase
    refine SessionTidy.push (f := .dispatching g history) ?_ rfl nofun
    exact { h with active := fun hattempt hactive => h.active hattempt (hphase hactive) }
  have hactivate : SessionTidy (s.activate g) := by
    have hg : g = s.generation := (Session.isCurrent_iff.mp hcurrent).1
    exact
      { SessionTidy.push (f := .activated g) h rfl nofun with
        active := fun _ _ => .inr (.inl (by rw [hg]; exact List.mem_cons_self)) }
  cases incoming with
  | invalid => exact hfail false
  | authRequired sent =>
      show SessionTidy (if _ then _ else if _ then _ else _)
      split_ifs
      · exact hfail false
      · exact hfail true
      · exact hdispatch s.phase false id
  | ready =>
      show SessionTidy (if _ then _ else _)
      split_ifs
      · exact hfail false
      · exact hdispatch .ready false nofun
  | history =>
      show SessionTidy (if _ then _ else _)
      split_ifs
      · exact hfail false
      · exact hdispatch .history true nofun
  | syncCompleted boundary =>
      show SessionTidy (if _ then _ else if _ then _ else _)
      split_ifs
      · exact hdispatch s.phase false id
      · exact hfail false
      · exact hactivate
  | pong =>
      show SessionTidy (if _ then _ else _)
      split_ifs
      · exact hdispatch s.phase false id
      · exact hactivate
  | other => exact hdispatch s.phase false id

theorem SessionTidy.credentialSettled (h : SessionTidy s) (hok : SessionOk policy [] s)
    (hmem : g ∈ s.credentials) (outcome : CredentialOutcome) :
    SessionTidy ({ s with credentials := s.credentials.erase g }.credentialSettled g outcome) := by
  have hsettled : SessionTidy { s with credentials := s.credentials.erase g } := { h with }
  have hknown := hok.credentials g hmem
  cases outcome with
  | resolved =>
      show SessionTidy (if _ then _ else _)
      split_ifs
      · exact SessionTidy.push (f := .factory g) hsettled rfl nofun
      · exact hsettled
  | badUrl => exact hsettled.failAttempt hknown false
  | rejected => exact hsettled.failAttempt hknown true

theorem SessionTidy.reconnectFired (h : SessionTidy s) (hok : SessionOk policy [] s)
    (hstack : s.stack = []) (hmem : g ∈ s.reconnects) :
    SessionTidy ({ s with reconnects := s.reconnects.erase g }.reconnectFired g) := by
  have hg : g = s.generation := by
    rcases hok.armed with hnone | ⟨hone, -⟩
    · rw [hnone] at hmem
      cases hmem
    · rw [hone] at hmem
      exact List.mem_singleton.mp hmem
  have hopen : s.manuallyClosed = false := by
    by_contra hmanual
    rcases h.manual ((Bool.not_eq_false _).mp hmanual) with hframe | ⟨-, hnone, -⟩
    · rw [hstack] at hframe
      cases hframe
    · rw [hnone] at hmem
      cases hmem
  have hquiet : s.quiet = false := by
    by_contra hloud
    rw [(h.quiet ((Bool.not_eq_false _).mp hloud)).2.1] at hmem
    cases hmem
  have hcurrent : s.isCurrent g = true := Session.isCurrent_iff.mpr ⟨hg, hopen⟩
  show SessionTidy (if s.isCurrent g = true then _ else _)
  rw [if_pos hcurrent]
  exact SessionTidy.openSocket true hopen hquiet h.ordered

theorem SessionTidy.stableFired (h : SessionTidy s) (isOpen : Bool) :
    SessionTidy ({ s with stables := s.stables.erase g }.stableFired g isOpen) := by
  unfold Session.stableFired
  split_ifs <;> exact { h with }

theorem SessionTidy.step (h : SessionTidy s) (hok : SessionOk policy [] s)
    (haction : action.Undisturbed s) (hstep : SessionStep policy s action s') : SessionTidy s' := by
  unfold SessionStep at hstep
  cases action with
  | connect =>
      cases hstep
      exact h.connect
  | close =>
      cases hstep
      exact h.close haction
  | sendFails =>
      obtain ⟨hsend, hs'⟩ := Option.ite_none_right_eq_some.mp hstep
      cases hs'
      have hattempt : s.attempt = true := by
        by_contra hfalse
        exact hsend.2 (hok.detached ((Bool.not_eq_true _).mp hfalse)).2.2
      exact h.failAttempt (.inr ⟨rfl, hattempt⟩) true
  | listenersReturn sent random =>
      simp only [Session.next] at hstep
      split at hstep
      · cases hstep
      · cases hstep
      · rename_i hstack
        cases hstep
        exact h.resume hok hstack sent random
  | factoryReturns =>
      simp only [Session.next] at hstep
      split at hstep
      · rename_i hstack
        cases hstep
        have hpop := h.pop hstack rfl (by intro hf; cases hf) (by intro hf; cases hf)
        unfold Session.socketMade
        split_ifs
        · exact { hpop with }
        · exact hpop
      · cases hstep
  | factoryThrows =>
      simp only [Session.next] at hstep
      split at hstep
      · rename_i g rest hstack
        cases hstep
        exact SessionTidy.failAttempt (h.pop hstack rfl (by intro hf; cases hf) (by intro hf; cases hf))
          (hok.frames (.factory g) (hstack ▸ List.mem_cons_self) g rfl) true
      · cases hstep
  | credential g outcome =>
      obtain ⟨hwaits, hs'⟩ := Option.ite_none_right_eq_some.mp hstep
      cases hs'
      exact h.credentialSettled hok hwaits.2 outcome
  | handshakeTimeout g =>
      obtain ⟨hwaits, hs'⟩ := Option.ite_none_right_eq_some.mp hstep
      cases hs'
      obtain ⟨hcurrent, hattempt, -⟩ := hok.handshake_current hwaits.1 hwaits.2
      have hfired : SessionTidy { s with handshakes := s.handshakes.erase g } := { h with }
      exact hfired.failAttempt (.inr ⟨(Session.isCurrent_iff.mp hcurrent).1, hattempt⟩) true
  | reconnectTimeout g =>
      obtain ⟨hwaits, hs'⟩ := Option.ite_none_right_eq_some.mp hstep
      cases hs'
      exact h.reconnectFired hok hwaits.1 hwaits.2
  | stableTimeout g isOpen =>
      obtain ⟨-, hs'⟩ := Option.ite_none_right_eq_some.mp hstep
      cases hs'
      exact h.stableFired isOpen
  | message g incoming =>
      obtain ⟨hwaits, hs'⟩ := Option.ite_none_right_eq_some.mp hstep
      cases hs'
      split_ifs with hcurrent
      · exact h.handleMessage hok hwaits.2 hcurrent incoming
      · exact h
  | socketError g =>
      obtain ⟨hwaits, hs'⟩ := Option.ite_none_right_eq_some.mp hstep
      cases hs'
      exact h.failAttempt (hok.installed g hwaits.2).1 true
  | socketClosed g terminal =>
      obtain ⟨hwaits, hs'⟩ := Option.ite_none_right_eq_some.mp hstep
      cases hs'
      exact h.failAttempt (hok.installed g hwaits.2).1 !terminal

theorem SessionTidy.new : SessionTidy {} where
  pending := nofun
  connecting := nofun
  reconnecting := nofun
  manual := nofun
  failing := nofun
  ordered above below hstack := by
    cases above <;> cases hstack
  active := nofun
  quiet := nofun

/-- Both invariants together say what the lifecycle promises. -/
theorem SessionTidy.lifecycle (h : SessionTidy s) (hok : SessionOk policy [] s) :
    s.Lifecycle where
  closed hquiet := by
    obtain ⟨hattempt, hreconnects, hstate, -⟩ := h.quiet hquiet
    obtain ⟨hhandshakes, hstables, hsocket⟩ := hok.detached hattempt
    exact ⟨hstate, hhandshakes, hreconnects, hstables, hsocket⟩
  pending hpromise := by
    by_cases hfailing : s.failing = true
    · exact .inr (.inl hfailing)
    by_cases hclosed : .closed ∈ s.stack
    · exact .inr (.inr (.inl hclosed))
    have hopen : s.manuallyClosed = false := by
      by_contra hmanual
      rcases h.manual ((Bool.not_eq_false _).mp hmanual) with hframe | ⟨-, -, hnone⟩
      · exact hclosed hframe
      · rw [hpromise] at hnone
        cases hnone
    have harmed : s.attempt = true ∨ s.reconnects = [s.generation] := by
      rcases h.pending hpromise with hfail | hstate | hstate
      · exact absurd hfail hfailing
      · exact .inl ((h.connecting hstate).resolve_right hfailing)
      · rcases h.reconnecting hstate with hattempt | hreconnects | hfail
        · exact .inl hattempt
        · exact .inr (hok.armed.resolve_left hreconnects).1
        · exact absurd hfail hfailing
    rcases harmed with hattempt | hreconnects
    · by_cases hphase : s.phase = .active
      · -- The promise is about to be resolved.
        rcases h.active hattempt hphase with hstate | hframe | hframe
        · rcases h.pending hpromise with hfail | hother | hother
          · exact absurd hfail hfailing
          · rw [hstate] at hother
            cases hother
          · rw [hstate] at hother
            cases hother
        · exact .inr (.inr (.inr hframe))
        · exact absurd hframe hclosed
      · exact .inl ⟨hopen, .inl ⟨hattempt, (hok.handshake hattempt hphase).1⟩⟩
    · exact .inl ⟨hopen, .inr hreconnects⟩
  resolved := hok.resolutions

/-- The lifecycle is kept as long as neither `connect` nor `close` is called by a listener that
`failAttempt` notifies. -/
theorem session_lifecycle (policy : ReconnectPolicy) (s : Session)
    (hrun : Run (SessionStep policy) (fun s action => action.Undisturbed s) {} s) :
    s.Lifecycle := by
  have hstep : ∀ t action u, SessionOk policy [] t ∧ SessionTidy t → action.Undisturbed t →
      SessionStep policy t action u → SessionOk policy [] u ∧ SessionTidy u := by
    intro t action u h haction hstep
    exact ⟨h.1.step haction.outside hstep, h.2.step h.1 haction hstep⟩
  obtain ⟨hok, htidy⟩ := hrun.invariant hstep ⟨SessionOk.new policy, SessionTidy.new⟩
  exact htidy.lifecycle hok

end Events

/-- The first socket becomes active, and is closed by the server. -/
def lostActions : List SessionAction :=
  [.connect, .listenersReturn true 0, .credential 1 .resolved, .factoryReturns,
    .message 1 .ready, .listenersReturn true 0, .message 1 .history, .listenersReturn true 0,
    .message 1 .pong, .listenersReturn true 0, .listenersReturn true 0, .socketClosed 1 false]

/-- The whole failure is handled, and then the session is closed. -/
def closeAfterwards : List SessionAction :=
  lostActions ++ [.listenersReturn true 0, .listenersReturn true 0, .close,
    .listenersReturn true 0, .listenersReturn true 0]

def closedAfterwards : Session := closeAfterwards.foldl (SessionAction.runs twoRetries) {}

theorem session_lifecycle_closed : closedAfterwards.quiet = true ∧ closedAfterwards.stack = [] ∧
    closedAfterwards.Lifecycle :=
  ⟨by decide +kernel, by decide +kernel,
    session_lifecycle twoRetries closedAfterwards (Run.of_follows (by decide +kernel))⟩

/-- A listener of the timeline closes the session when it learns that the timeline is stale. -/
def closeWhileStale : List SessionAction :=
  lostActions ++ [.close, .listenersReturn true 0, .listenersReturn true 0,
    .listenersReturn true 0, .listenersReturn true 0]

def closedWhileStale : Session := closeWhileStale.foldl (SessionAction.runs twoRetries) {}

theorem not_session_lifecycle : Reach (SessionStep twoRetries) {} closedWhileStale ∧
    closedWhileStale.stack = [] ∧ closedWhileStale.quiet = true ∧
    closedWhileStale.state = .reconnecting ∧ closedWhileStale.reconnects = [3] ∧
    ¬closedWhileStale.Lifecycle := by
  have hquiet : closedWhileStale.quiet = true := by decide +kernel
  have hstate : closedWhileStale.state = .reconnecting := by decide +kernel
  refine ⟨Run.of_follows (by decide +kernel), by decide +kernel, hquiet, hstate,
    by decide +kernel, ?_⟩
  intro hlifecycle
  have hclosed := (hlifecycle.closed hquiet).1
  rw [hstate] at hclosed
  cases hclosed

end Client
end ChatEngine
