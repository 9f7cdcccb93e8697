import ChatEngine.Lib.Run
import ChatEngine.Client.SessionInvariant

/-!
# The retry budget of a session

* `Retries`, steps without `connect` and without a connection that stays active, counted by the
  automatic attempts among them;
* `late_event` and `late_frame`, what events and returns of an earlier attempt change;
* `retry_budget`, for every run in which `connect` is not called while `failAttempt` notifies.
-/

namespace ChatEngine
namespace Client

open Lib

/-- The action opens a socket of its own accord. -/
def SessionAction.reopens (s : Session) : SessionAction → Bool
  | .reconnectTimeout g => s.isCurrent g
  | _ => false

/-- A connection has stayed active for the stable period. -/
def SessionAction.settles (s : Session) : SessionAction → Bool
  | .stableTimeout g isOpen => s.isCurrent g && decide (s.phase = .active ∧ isOpen = true)
  | _ => false

/-- The attempt whose timer, credential or socket an action is of. -/
def SessionAction.attempt? : SessionAction → Option Nat
  | .credential g _ | .handshakeTimeout g | .reconnectTimeout g | .stableTimeout g _ |
    .message g _ | .socketError g | .socketClosed g _ => some g
  | .connect | .close | .sendFails | .listenersReturn .. | .factoryReturns | .factoryThrows => none

/-- The action goes on with the frame on top. -/
def SessionAction.isReturn : SessionAction → Bool
  | .listenersReturn .. | .factoryReturns | .factoryThrows => true
  | _ => false

/-- Steps without `connect` and without a connection that stays active for the stable period, of
which `n` are automatic attempts. -/
inductive Retries (policy : ReconnectPolicy) (s : Session) : Nat → Session → Prop
  | refl : Retries policy s 0 s
  | tail {n : Nat} {s' s'' : Session} (action : SessionAction) :
      Retries policy s n s' → action ≠ .connect → action.settles s' = false →
      SessionStep policy s' action s'' →
      Retries policy s (n + if action.reopens s' = true then 1 else 0) s''

section Reopened

variable {policy : ReconnectPolicy} (s : Session) (g : Nat)

@[simp] theorem Session.reopened_failAttempt (retry : Bool) :
    (s.failAttempt g retry).reopened = s.reopened := by
  unfold Session.failAttempt
  split_ifs <;> rfl

@[simp] theorem Session.reopened_closeTransport (socket : Option Nat) :
    (s.closeTransport socket).reopened = s.reopened := by
  cases socket <;> rfl

@[simp] theorem Session.reopened_setStateAndClose (state : ConnectionState)
    (socket : Option Nat) : (s.setStateAndClose state socket).reopened = s.reopened := by
  unfold Session.setStateAndClose
  split_ifs
  · exact s.reopened_closeTransport socket
  · rfl

@[simp] theorem Session.reopened_scheduleReconnect (retry : Bool) (random : Rat)
    (socket : Option Nat) :
    (s.scheduleReconnect policy retry random socket).reopened = s.reopened := by
  unfold Session.scheduleReconnect
  split_ifs <;> rw [Session.reopened_setStateAndClose]

@[simp] theorem Session.reopened_opened : (s.opened g).reopened = s.reopened := by
  unfold Session.opened
  split_ifs <;> rfl

@[simp] theorem Session.reopened_openSocket (reconnecting : Bool) :
    (s.openSocket reconnecting).reopened = s.reopened := by
  unfold Session.openSocket
  dsimp only
  generalize (if reconnecting = true then ConnectionState.reconnecting else .connecting) = state
  split
  · rw [Session.reopened_opened]
  · rfl

@[simp] theorem Session.reopened_closeRest : s.closeRest.reopened = s.reopened := by
  unfold Session.closeRest
  rw [Session.reopened_setStateAndClose]
  rfl

@[simp] theorem Session.reopened_resume (sent : Bool) (random : Rat) (f : Frame) :
    (s.resume policy sent random f).reopened = s.reopened := by
  cases f with
  | opening g => exact s.reopened_opened g
  | factory g => rfl
  | activated g =>
      show (if _ then _ else _ : Session).reopened = _
      split_ifs <;> rfl
  | dispatching g history =>
      show (if _ then _ else _ : Session).reopened = _
      split_ifs
      · exact s.reopened_failAttempt g true
      · rfl
  | failing retry socket => exact Session.reopened_scheduleReconnect _ retry random socket
  | closing socket => exact s.reopened_closeTransport socket
  | closed => exact s.reopened_closeRest

@[simp] theorem Session.reopened_handleMessage (incoming : Incoming) :
    (s.handleMessage g incoming).reopened = s.reopened := by
  cases incoming <;> simp only [Session.handleMessage] <;> (try split_ifs) <;>
    first | exact s.reopened_failAttempt g _ | rfl

@[simp] theorem Session.reopened_credentialSettled (outcome : CredentialOutcome) :
    (s.credentialSettled g outcome).reopened = s.reopened := by
  cases outcome with
  | resolved =>
      unfold Session.credentialSettled
      split_ifs <;> rfl
  | badUrl => exact s.reopened_failAttempt g false
  | rejected => exact s.reopened_failAttempt g true

@[simp] theorem Session.reopened_socketMade : (s.socketMade g).reopened = s.reopened := by
  unfold Session.socketMade
  split_ifs <;> rfl

end Reopened

section Budget

variable {policy : ReconnectPolicy} {s s' : Session} {action : SessionAction} {g : Nat}

/-- What one step adds to the automatic attempts. -/
theorem reopened_step (hconnect : action ≠ .connect) (hsettles : action.settles s = false)
    (hstep : SessionStep policy s action s') :
    s'.reopened = s.reopened + if action.reopens s = true then 1 else 0 := by
  unfold SessionStep at hstep
  cases action with
  | connect => exact absurd rfl hconnect
  | close =>
      cases hstep
      rfl
  | sendFails =>
      obtain ⟨-, hs'⟩ := Option.ite_none_right_eq_some.mp hstep
      cases hs'
      exact s.reopened_failAttempt _ true
  | listenersReturn sent random =>
      simp only [Session.next] at hstep
      split at hstep
      · cases hstep
      · cases hstep
      · cases hstep
        exact Session.reopened_resume _ sent random _
  | factoryReturns =>
      simp only [Session.next] at hstep
      split at hstep
      · cases hstep
        exact Session.reopened_socketMade _ _
      · cases hstep
  | factoryThrows =>
      simp only [Session.next] at hstep
      split at hstep
      · cases hstep
        exact Session.reopened_failAttempt _ _ true
      · cases hstep
  | credential g outcome =>
      obtain ⟨-, hs'⟩ := Option.ite_none_right_eq_some.mp hstep
      cases hs'
      exact Session.reopened_credentialSettled _ g outcome
  | handshakeTimeout g =>
      obtain ⟨-, hs'⟩ := Option.ite_none_right_eq_some.mp hstep
      cases hs'
      exact Session.reopened_failAttempt _ g true
  | reconnectTimeout g =>
      obtain ⟨-, hs'⟩ := Option.ite_none_right_eq_some.mp hstep
      cases hs'
      show (if s.isCurrent g = true then _ else _ : Session).reopened =
        s.reopened + if s.isCurrent g = true then 1 else 0
      split_ifs
      · exact Session.reopened_openSocket _ true
      · rfl
  | stableTimeout g isOpen =>
      obtain ⟨-, hs'⟩ := Option.ite_none_right_eq_some.mp hstep
      cases hs'
      show (if s.isCurrent g = true then if s.phase = .active ∧ isOpen = true then _ else _
        else _ : Session).reopened = s.reopened
      split_ifs with hcurrent hstable
      · rw [SessionAction.settles, hcurrent, decide_eq_true hstable] at hsettles
        cases hsettles
      · rfl
      · rfl
  | message g incoming =>
      obtain ⟨-, hs'⟩ := Option.ite_none_right_eq_some.mp hstep
      cases hs'
      show (if s.isCurrent g = true then _ else _ : Session).reopened = s.reopened
      split_ifs
      · exact s.reopened_handleMessage g incoming
      · rfl
  | socketError g =>
      obtain ⟨-, hs'⟩ := Option.ite_none_right_eq_some.mp hstep
      cases hs'
      exact s.reopened_failAttempt g true
  | socketClosed g terminal =>
      obtain ⟨-, hs'⟩ := Option.ite_none_right_eq_some.mp hstep
      cases hs'
      exact s.reopened_failAttempt g !terminal

/-- Without `connect`, every step keeps the invariant. -/
theorem Retries.ok {n : Nat} (h : Retries policy s n s') (hs : SessionOk policy [] s) :
    SessionOk policy [] s' ∧ s'.reopened = s.reopened + n := by
  induction h with
  | refl => exact ⟨hs, rfl⟩
  | tail action _ hconnect hsettles hstep ih =>
      refine ⟨ih.1.step ?_ hstep, ?_⟩
      · cases action <;> first | exact absurd rfl hconnect | trivial
      · rw [reopened_step hconnect hsettles hstep, ih.2, Nat.add_assoc]

theorem Session.failAttempt_late {retry : Bool} (hlate : s.isCurrent g = false) :
    s.failAttempt g retry = s :=
  if_neg ((Bool.not_eq_true _).mpr hlate)

theorem Session.credentialSettled_late {outcome : CredentialOutcome}
    (hlate : s.isCurrent g = false) : s.credentialSettled g outcome = s := by
  cases outcome with
  | resolved => exact if_neg ((Bool.not_eq_true _).mpr hlate)
  | badUrl | rejected => exact Session.failAttempt_late hlate

theorem Session.reconnectFired_late (hlate : s.isCurrent g = false) : s.reconnectFired g = s :=
  if_neg ((Bool.not_eq_true _).mpr hlate)

theorem Session.stableFired_late {isOpen : Bool} (hlate : s.isCurrent g = false) :
    s.stableFired g isOpen = s :=
  if_neg ((Bool.not_eq_true _).mpr hlate)

theorem Session.socketMade_late (hlate : s.isCurrent g = false) : s.socketMade g = s :=
  if_neg ((Bool.not_eq_true _).mpr hlate)

/-- An event of an attempt that is over: it is taken note of, and that is all. -/
theorem late_event (hstep : SessionStep policy s action s') (hattempt : action.attempt? = some g)
    (hlate : s.isCurrent g = false) :
    s' = { s with
      credentials := s'.credentials
      handshakes := s'.handshakes
      reconnects := s'.reconnects
      stables := s'.stables } := by
  unfold SessionStep at hstep
  cases action with
  | connect | close | sendFails | listenersReturn | factoryReturns | factoryThrows =>
      cases hattempt
  | credential g' outcome =>
      cases hattempt
      obtain ⟨-, hs'⟩ := Option.ite_none_right_eq_some.mp hstep
      cases hs'
      rw [Session.credentialSettled_late (by exact hlate)]
  | handshakeTimeout g' =>
      cases hattempt
      obtain ⟨-, hs'⟩ := Option.ite_none_right_eq_some.mp hstep
      cases hs'
      rw [Session.failAttempt_late (by exact hlate)]
  | reconnectTimeout g' =>
      cases hattempt
      obtain ⟨-, hs'⟩ := Option.ite_none_right_eq_some.mp hstep
      cases hs'
      rw [Session.reconnectFired_late (by exact hlate)]
  | stableTimeout g' isOpen =>
      cases hattempt
      obtain ⟨-, hs'⟩ := Option.ite_none_right_eq_some.mp hstep
      cases hs'
      rw [Session.stableFired_late (by exact hlate)]
  | message g' incoming =>
      cases hattempt
      obtain ⟨-, hs'⟩ := Option.ite_none_right_eq_some.mp hstep
      cases hs'
      rw [if_neg ((Bool.not_eq_true _).mpr hlate)]
  | socketError g' =>
      cases hattempt
      obtain ⟨-, hs'⟩ := Option.ite_none_right_eq_some.mp hstep
      cases hs'
      rw [Session.failAttempt_late hlate]
  | socketClosed g' terminal =>
      cases hattempt
      obtain ⟨-, hs'⟩ := Option.ite_none_right_eq_some.mp hstep
      cases hs'
      rw [Session.failAttempt_late hlate]

/-- A call for an attempt that is over goes on with nothing. -/
theorem late_frame {f : Frame} {rest : List Frame} (hstep : SessionStep policy s action s')
    (hreturn : action.isReturn = true) (hstack : s.stack = f :: rest)
    (hattempt : f.attempt? = some g) (hlate : s.isCurrent g = false) :
    s' = { s with stack := rest } := by
  have hnot : ¬s.isCurrent g = true := (Bool.not_eq_true _).mpr hlate
  unfold SessionStep at hstep
  cases action with
  | connect | close | sendFails | credential | handshakeTimeout | reconnectTimeout |
    stableTimeout | message | socketError | socketClosed => cases hreturn
  | listenersReturn sent random =>
      cases f with
      | opening g' =>
          cases hattempt
          simp only [Session.next, hstack] at hstep
          exact (Option.some.inj hstep).symm.trans (if_neg hnot)
      | factory => simp [Session.next, hstack] at hstep
      | activated g' =>
          cases hattempt
          simp only [Session.next, hstack] at hstep
          exact (Option.some.inj hstep).symm.trans (if_neg hnot)
      | dispatching g' history =>
          cases hattempt
          simp only [Session.next, hstack] at hstep
          exact (Option.some.inj hstep).symm.trans (if_neg fun h => hnot h.2.1)
      | failing | closing | closed => cases hattempt
  | factoryReturns =>
      cases f with
      | factory g' =>
          cases hattempt
          simp only [Session.next, hstack] at hstep
          exact (Option.some.inj hstep).symm.trans (Session.socketMade_late hlate)
      | opening | activated | dispatching | failing | closing | closed =>
          simp [Session.next, hstack] at hstep
  | factoryThrows =>
      cases f with
      | factory g' =>
          cases hattempt
          simp only [Session.next, hstack] at hstep
          exact (Option.some.inj hstep).symm.trans (Session.failAttempt_late hlate)
      | opening | activated | dispatching | failing | closing | closed =>
          simp [Session.next, hstack] at hstep

/-- A run from a new session, in which `connect` is not called while `failAttempt` notifies. -/
theorem SessionOk.of_run
    (hrun : Run (SessionStep policy) (fun s action => action.Outside s) {} s) :
    SessionOk policy [] s :=
  hrun.invariant (fun _ _ _ h houtside hstep => h.step houtside hstep) (SessionOk.new policy)

theorem SessionOk.handshakes_length (h : SessionOk policy [] s) : s.handshakes.length ≤ 1 := by
  cases hattempt : s.attempt with
  | false =>
      rw [(h.detached hattempt).1]
      exact Nat.zero_le 1
  | true =>
      by_cases hphase : s.phase = .active
      · rw [h.shaken hattempt hphase]
        exact Nat.zero_le 1
      · rw [(h.handshake hattempt hphase).1]
        exact Nat.le_refl 1

theorem SessionOk.reconnects_length (h : SessionOk policy [] s) : s.reconnects.length ≤ 1 := by
  rcases h.armed with hnone | ⟨hone, -⟩
  · rw [hnone]
    exact Nat.zero_le 1
  · rw [hone]
    exact Nat.le_refl 1

/-- Automatic attempts stay within the policy, as do their delays; what is late changes nothing;
and there is at most one socket, one handshake timer and one reconnect timer. -/
theorem retry_budget (policy : ReconnectPolicy) (s : Session)
    (hrun : Run (SessionStep policy) (fun s action => action.Outside s) {} s) :
    (∀ n s', Retries policy s n s' → n ≤ policy.maxAttempts ∧
      s'.sockets.length ≤ 1 ∧ s'.handshakes.length ≤ 1 ∧ s'.reconnects.length ≤ 1) ∧
    (∀ attempts random,
      0 ≤ policy.delay attempts random ∧ policy.delay attempts random ≤ policy.maxDelayMs) ∧
    (∀ d ∈ s.delays, 0 ≤ d ∧ d ≤ policy.maxDelayMs) ∧
    (∀ action s' g, SessionStep policy s action s' → action.attempt? = some g →
      s.isCurrent g = false → s' = { s with
        credentials := s'.credentials
        handshakes := s'.handshakes
        reconnects := s'.reconnects
        stables := s'.stables }) ∧
    ∀ action s' f rest g, SessionStep policy s action s' → action.isReturn = true →
      s.stack = f :: rest → f.attempt? = some g → s.isCurrent g = false →
      s' = { s with stack := rest } := by
  have hok := SessionOk.of_run hrun
  refine ⟨?_, fun attempts random => policy.delay_bounds attempts random, hok.delays, ?_, ?_⟩
  · intro n s' hretries
    obtain ⟨hlater, hcount⟩ := hretries.ok hok
    have hbudget := hlater.budget
    have hbounded := hlater.bounded
    exact ⟨by omega, hlater.single, hlater.handshakes_length, hlater.reconnects_length⟩
  · intro action s' g hstep hattempt hlate
    exact late_event hstep hattempt hlate
  · intro action s' f rest g hstep hreturn hstack hattempt hlate
    exact late_frame hstep hreturn hstack hattempt hlate

end Budget

def twoRetries : ReconnectPolicy where
  enabled := true
  initialDelayMs := 10
  maxDelayMs := 100
  maxAttempts := 2
  jitter := 1 / 5

/-- The session after the actions that are possible. -/
def SessionAction.runs (policy : ReconnectPolicy) (s : Session) (action : SessionAction) :
    Session :=
  (s.next policy action).getD s

/-- The credential of the first attempt is rejected, and the second one is open. -/
def retriedActions : List SessionAction :=
  [.connect, .listenersReturn true 0, .credential 1 .rejected, .listenersReturn true (1 / 3),
    .listenersReturn true 0, .reconnectTimeout 2]

def retriedSession : Session := retriedActions.foldl (SessionAction.runs twoRetries) {}

theorem retry_budget_retried : retriedSession.attempts = 1 ∧ retriedSession.handshakes = [3] ∧
    ∀ n s', Retries twoRetries retriedSession n s' → n ≤ 2 ∧
      s'.sockets.length ≤ 1 ∧ s'.handshakes.length ≤ 1 ∧ s'.reconnects.length ≤ 1 :=
  ⟨by decide +kernel, by decide +kernel,
    (retry_budget twoRetries retriedSession (Run.of_follows (by decide +kernel))).1⟩

end Client
end ChatEngine
