import Mathlib.Data.Rat.Floor

/-!
# The room session of the client

`RoomSession` owns one connection attempt at a time, fails it and tries again.

* `Session`, the fields of the object, the timers and sockets it has outside, and the calls that
  wait for a listener to return (`Frame`);
* `Session.next`: public calls, from a listener or from outside, and, once no code of the session
  runs, timers, credentials and events of sockets, also late ones.
-/

namespace ChatEngine
namespace Client

/-- `ReconnectPolicy`, without the period of the stability timer. -/
structure ReconnectPolicy where
  enabled : Bool
  initialDelayMs : Nat
  maxDelayMs : Nat
  maxAttempts : Nat
  jitter : Rat

/-- `Math.round`. -/
def mathRound (x : Rat) : Int := ⌊x + 1 / 2⌋

/-- The delay before an automatic attempt, for the value of `Math.random`. -/
def ReconnectPolicy.delay (policy : ReconnectPolicy) (attempts : Nat) (random : Rat) : Int :=
  let baseDelay : Nat := min policy.maxDelayMs (policy.initialDelayMs * 2 ^ (attempts - 1))
  let jitter : Rat := baseDelay * policy.jitter * (random * 2 - 1)
  min policy.maxDelayMs (max 0 (mathRound (baseDelay + jitter)))

inductive Phase where
  | opening
  | ready
  | history
  | active
  deriving DecidableEq

inductive ConnectionState where
  | idle
  | connecting
  | connected
  | reconnecting
  | closed
  deriving DecidableEq

/-- What continues when listeners, or the socket factory, return. -/
inductive Frame where
  | opening (g : Nat)
  | factory (g : Nat)
  | activated (g : Nat)
  | dispatching (g : Nat) (history : Bool)
  | failing (retry : Bool) (socket : Option Nat)
  | closing (socket : Option Nat)
  | closed
  deriving DecidableEq

/-- What a session was when a promise of `connect` resolved. -/
structure Resolution where
  phase : Phase
  socket : Option Nat
  generation : Nat
  deriving DecidableEq

/-- An attempt, with its timers and its socket, is known by its generation.  `attempt` says that
the generation is of an attempt that is not detached; `handshakes`, `reconnects` and `stables` are
the armed timers and `sockets` the open sockets, `installed` the attempts whose handlers were
installed.  `reopened` counts automatic attempts since `attempts` was last set to zero, `quiet` says
that `connect` was not called since `close`. -/
structure Session where
  generation : Nat := 0
  attempt : Bool := false
  phase : Phase := .opening
  attempts : Nat := 0
  manuallyClosed : Bool := false
  state : ConnectionState := .idle
  socket : Option Nat := none
  handshakeTimer : Option Nat := none
  reconnectTimer : Option Nat := none
  stableTimer : Option Nat := none
  promise : Bool := false
  handshakes : List Nat := []
  reconnects : List Nat := []
  stables : List Nat := []
  sockets : List Nat := []
  credentials : List Nat := []
  installed : List Nat := []
  stack : List Frame := []
  reopened : Nat := 0
  delays : List Int := []
  resolutions : List Resolution := []
  quiet : Bool := false
  deriving DecidableEq

/-- What a message of the server is to `handleMessage`; `sent` is whether the reply to it is sent
without an error. -/
inductive Incoming where
  | invalid
  | authRequired (sent : Bool)
  | ready
  | history
  | syncCompleted (boundary : Bool)
  | pong
  | other
  deriving DecidableEq

inductive CredentialOutcome where
  | resolved
  | badUrl
  | rejected
  deriving DecidableEq

/-- `sent` is whether the activation probe is sent without an error, `random` the value of
`Math.random`. -/
inductive SessionAction where
  | connect
  | close
  | sendFails
  | listenersReturn (sent : Bool) (random : Rat)
  | factoryReturns
  | factoryThrows
  | credential (g : Nat) (outcome : CredentialOutcome)
  | handshakeTimeout (g : Nat)
  | reconnectTimeout (g : Nat)
  | stableTimeout (g : Nat) (isOpen : Bool)
  | message (g : Nat) (incoming : Incoming)
  | socketError (g : Nat)
  | socketClosed (g : Nat) (terminal : Bool)

/-- `clearTimeout`. -/
def clearTimer (timer : Option Nat) (armed : List Nat) : List Nat :=
  match timer with
  | none => armed
  | some g => armed.erase g

namespace Session

variable (s : Session)

def isCurrent (g : Nat) : Bool := decide (g = s.generation) && !s.manuallyClosed

def push (frame : Frame) : Session := { s with stack := frame :: s.stack }

/-- A promise of `connect` resolves. -/
def resolve : Session :=
  { s with resolutions := s.resolutions ++ [⟨s.phase, s.socket, s.generation⟩] }

def detachAttempt : Session :=
  { s with
    generation := s.generation + 1
    attempt := false
    handshakes := clearTimer s.handshakeTimer s.handshakes
    stables := clearTimer s.stableTimer s.stables
    handshakeTimer := none
    stableTimer := none
    socket := none }

/-- `failAttempt`, up to the listeners of the stale timeline. -/
def failAttempt (g : Nat) (retry : Bool) : Session :=
  if s.isCurrent g = true then s.detachAttempt.push (.failing retry s.socket) else s

def closeTransport (socket : Option Nat) : Session :=
  match socket with
  | none => s
  | some g => { s with sockets := s.sockets.erase g }

/-- `setState`, and then `closeTransport`. -/
def setStateAndClose (state : ConnectionState) (socket : Option Nat) : Session :=
  if s.state = state then s.closeTransport socket
  else { s with state := state }.push (.closing socket)

/-- `scheduleReconnect`, and then `closeTransport`. -/
def scheduleReconnect (policy : ReconnectPolicy) (retry : Bool) (random : Rat)
    (socket : Option Nat) : Session :=
  if retry = false ∨ policy.enabled = false ∨ policy.maxAttempts ≤ s.attempts then
    s.setStateAndClose .closed socket
  else
    { s with
      attempts := s.attempts + 1
      delays := s.delays ++ [policy.delay (s.attempts + 1) random]
      reconnectTimer := some s.generation
      reconnects := s.generation :: s.reconnects }.setStateAndClose .reconnecting socket

/-- `openSocket` after its state is published. -/
def opened (g : Nat) : Session :=
  if s.isCurrent g = true then { s with credentials := g :: s.credentials } else s

def openSocket (reconnecting : Bool) : Session :=
  let g := s.generation + 1
  let s' := { s with
    generation := g
    attempt := true
    phase := .opening
    handshakeTimer := some g
    handshakes := g :: s.handshakes }
  let state := if reconnecting = true then ConnectionState.reconnecting else .connecting
  if s'.state = state then s'.opened g else { s' with state := state }.push (.opening g)

def connect : Session :=
  let s' := { s with quiet := false }
  if s.state = .connected then s'.resolve
  else if s.promise = true then s'
  else if s.state = .reconnecting then { s' with manuallyClosed := false, promise := true }
  else { s' with
    manuallyClosed := false, promise := true, attempts := 0, reopened := 0 }.openSocket false

/-- `close`, up to the listeners of the stale timeline. -/
def close : Session := { s with manuallyClosed := true }.push .closed

/-- The rest of `close`. -/
def closeRest : Session :=
  { s.detachAttempt with
    reconnects := clearTimer s.reconnectTimer s.reconnects
    reconnectTimer := none
    promise := false
    quiet := true }.setStateAndClose .closed s.socket

/-- What follows once the listeners of a frame have returned. -/
def resume (policy : ReconnectPolicy) (sent : Bool) (random : Rat) : Frame → Session
  | .opening g => s.opened g
  | .factory _ => s
  | .activated g =>
      if s.isCurrent g = true then
        { (if s.promise = true then s.resolve else s) with
          promise := false
          state := .connected }.push (.dispatching g false)
      else s
  | .dispatching g history =>
      if history = true ∧ s.isCurrent g = true ∧ sent = false then s.failAttempt g true else s
  | .failing retry socket =>
      { s with promise := false }.scheduleReconnect policy retry random socket
  | .closing socket => s.closeTransport socket
  | .closed => s.closeRest

/-- The attempt is active: `sync.completed` or `pong` after the history. -/
def activate (g : Nat) : Session :=
  { s with
    phase := .active
    handshakes := clearTimer s.handshakeTimer s.handshakes
    handshakeTimer := none
    stableTimer := some g
    stables := g :: s.stables }.push (.activated g)

/-- `handleMessage`, up to the listeners. -/
def handleMessage (g : Nat) : Incoming → Session
  | .invalid => s.failAttempt g false
  | .authRequired sent =>
      if s.phase ≠ .opening then s.failAttempt g false
      else if sent = false then s.failAttempt g true
      else s.push (.dispatching g false)
  | .ready =>
      if s.phase ≠ .opening then s.failAttempt g false
      else { s with phase := .ready }.push (.dispatching g false)
  | .history =>
      if s.phase ≠ .ready then s.failAttempt g false
      else { s with phase := .history }.push (.dispatching g true)
  | .syncCompleted boundary =>
      if s.phase ≠ .history then s.push (.dispatching g false)
      else if boundary = false then s.failAttempt g false
      else s.activate g
  | .pong => if s.phase ≠ .history then s.push (.dispatching g false) else s.activate g
  | .other => s.push (.dispatching g false)

/-- What `openSocket` does with the outcome of its credential. -/
def credentialSettled (g : Nat) : CredentialOutcome → Session
  | .resolved => if s.isCurrent g = true then s.push (.factory g) else s
  | .badUrl => s.failAttempt g false
  | .rejected => s.failAttempt g true

/-- The socket of an attempt is there; one of an earlier attempt is closed at once. -/
def socketMade (g : Nat) : Session :=
  if s.isCurrent g = true then
    { s with socket := some g, sockets := g :: s.sockets, installed := g :: s.installed }
  else s

/-- The reconnect timer fires. -/
def reconnectFired (g : Nat) : Session :=
  if s.isCurrent g = true then
    { s with reconnectTimer := none, reopened := s.reopened + 1 }.openSocket true
  else s

/-- The stability timer fires. -/
def stableFired (g : Nat) (isOpen : Bool) : Session :=
  if s.isCurrent g = true then
    if s.phase = .active ∧ isOpen = true then
      { s with stableTimer := none, attempts := 0, reopened := 0 }
    else { s with stableTimer := none }
  else s

/-- The state after an action, where the action is possible. -/
def next (policy : ReconnectPolicy) : SessionAction → Option Session
  | .connect => some s.connect
  | .close => some s.close
  | .sendFails =>
      if s.state = .connected ∧ s.socket ≠ none then some (s.failAttempt s.generation true)
      else none
  | .listenersReturn sent random =>
      match s.stack with
      | [] => none
      | .factory _ :: _ => none
      | frame :: rest => some ({ s with stack := rest }.resume policy sent random frame)
  | .factoryReturns =>
      match s.stack with
      | .factory g :: rest => some ({ s with stack := rest }.socketMade g)
      | _ => none
  | .factoryThrows =>
      match s.stack with
      | .factory g :: rest => some ({ s with stack := rest }.failAttempt g true)
      | _ => none
  | .credential g outcome =>
      if s.stack = [] ∧ g ∈ s.credentials then
        some ({ s with credentials := s.credentials.erase g }.credentialSettled g outcome)
      else none
  | .handshakeTimeout g =>
      if s.stack = [] ∧ g ∈ s.handshakes then
        some ({ s with handshakes := s.handshakes.erase g }.failAttempt g true)
      else none
  | .reconnectTimeout g =>
      if s.stack = [] ∧ g ∈ s.reconnects then
        some ({ s with reconnects := s.reconnects.erase g }.reconnectFired g)
      else none
  | .stableTimeout g isOpen =>
      if s.stack = [] ∧ g ∈ s.stables then
        some ({ s with stables := s.stables.erase g }.stableFired g isOpen)
      else none
  | .message g incoming =>
      if s.stack = [] ∧ g ∈ s.installed then
        some (if s.isCurrent g = true then s.handleMessage g incoming else s)
      else none
  | .socketError g =>
      if s.stack = [] ∧ g ∈ s.installed then some (s.failAttempt g true) else none
  | .socketClosed g terminal =>
      if s.stack = [] ∧ g ∈ s.installed then some (s.failAttempt g !terminal) else none

end Session

/-- Steps of a session. -/
def SessionStep (policy : ReconnectPolicy) (s : Session) (action : SessionAction) (s' : Session) :
    Prop :=
  s.next policy action = some s'

end Client
end ChatEngine
