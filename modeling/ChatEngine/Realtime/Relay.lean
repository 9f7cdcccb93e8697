import ChatEngine.Realtime.Calls

/-!
# The PostgreSQL realtime relay

One process's relay task and the sockets it serves, suspended between awaits.

* `Relay`, the fields of `PostgresRealtimeRelay`, with `Relay.ready` and
  `Relay.admissionToken`;
* `Await`, where the relay task is suspended, and `Relay.top`, `Relay.handle`
  and `Relay.resume`, which run it from one await to the next;
* `Process`, the relay beside the registered sockets and the admissions under
  way; `Process.act` takes one step of either.

Clock readings are those of the process's monotonic clock.
-/

namespace ChatEngine
namespace Realtime

open Lib
open Models

variable {β : Type}

/-! ## The relay's fields -/

/-- What a relay and its connection manager are configured with. -/
structure RelayConfig where
  instanceId : String
  leaseSeconds : Nat := 30
  batchSize : Nat := 100
  limits : LagLimits := { maxPendingEvents := some 10_000, maxEventAgeSeconds := some 30 }
  maxConnections : Nat
  maxPerRoom : Nat
  instance_valid : matchesInstanceId instanceId = true
  lease_bounds : 3 ≤ leaseSeconds ∧ leaseSeconds ≤ 300 := by decide
  batch_bounds : 1 ≤ batchSize ∧ batchSize ≤ 1_000 := by decide

structure Relay where
  cursor : Option Nat := none
  generation : Option Generation := none
  nextHeartbeat : Timestamp := 0
  leaseDeadline : Timestamp := 0
  admissionEpoch : Nat := 0
  stop : Bool := false
  fenced : Bool := false
  fenceRequired : Bool := false
  gapRecoveryRequired : Bool := false
  lagRecoveryRequired : Bool := false
  recoveryGeneration : Option Generation := none
  deriving DecidableEq

/-- A gap or a lag must be recovered from. -/
def Relay.recoveryRequired (r : Relay) : Bool :=
  r.gapRecoveryRequired || r.lagRecoveryRequired

/-- `ready`: a locally unexpired claim and no pending fence or recovery. -/
def Relay.ready (time : Timestamp) (r : Relay) : Bool :=
  r.cursor.isSome && r.generation.isSome && !r.fenced && !r.fenceRequired &&
    !r.gapRecoveryRequired && !r.lagRecoveryRequired && r.recoveryGeneration.isNone &&
    !r.stop && decide (time < r.leaseDeadline)

/-- `admission_token`. -/
def Relay.admissionToken (time : Timestamp) (r : Relay) : Option (Generation × Nat) :=
  if r.ready time then r.generation.map fun g => (g, r.admissionEpoch) else none

/-! ## From one await to the next -/

/-- Where the relay task is suspended.  `fencing` waits for `close_all`, from an
exception handler or from the head of the loop; the connections may already be
detached.  `dispatching` waits for `_dispatch`, which may have handed the event
to its room already. -/
inductive Await (β : Type) where
  | created
  | opening (started : Timestamp)
  | initializing (started : Timestamp)
  | fencing (handler : Bool) (detached : Bool)
  | recovering (started : Timestamp)
  | beating (started : Timestamp)
  | reading
  | dispatching (event : RealtimeEvent β) (rest : List (RealtimeEvent β)) (count : Nat)
      (dispatched : Option Nat) (handed : Bool)
  | acknowledging (throughSequence count : Nat) (failed : Bool)
  | waiting
  | ended
  | releasing
  | closed
  deriving DecidableEq

/-- The `except` clauses of `run`, in order. -/
inductive Failure where
  | lag
  | gap
  | lease
  | unavailable
  | other
  deriving DecidableEq

/-- The clause an error of the foundation is caught by. -/
def Failure.of : FoundationError → Failure
  | .eventLogLag _ => lag
  | .eventLogGap => gap
  | .instanceLease _ => lease
  | .integrity => unavailable
  | .value _ => other

/-- The rest of the `try` block once the cursor is known. -/
def Relay.beat (time : Timestamp) (r : Relay) : Relay × Await β :=
  if r.nextHeartbeat ≤ time then (r, .beating time) else (r, .reading)

/-- `if self._cursor is None: await self.initialize()`. -/
def Relay.begin (time : Timestamp) (r : Relay) : Relay × Await β :=
  if r.cursor.isNone then ({ r with stop := false }, .initializing time) else r.beat time

/-- The `try` block of `run`. -/
def Relay.attempt (time : Timestamp) (fresh : Generation) (r : Relay) : Relay × Await β :=
  if r.recoveryRequired then
    if r.generation.isNone then
      (r, .waiting)
    else
      ({ r with recoveryGeneration := some (r.recoveryGeneration.getD fresh) }, .recovering time)
  else
    r.begin time

/-- `_fence` up to its await, or past it when the sockets are fenced already. -/
def Relay.startFence (handler : Bool) (r : Relay) : Relay × Await β :=
  ({ r with fenceRequired := true, admissionEpoch := r.admissionEpoch + 1 },
    .fencing handler false)

/-- The head of the loop in `run`. -/
def Relay.top (time : Timestamp) (fresh : Generation) (r : Relay) : Relay × Await β :=
  if r.stop then
    (r, .ended)
  else if r.fenceRequired || r.recoveryRequired then
    if r.fenced then
      Relay.attempt time fresh { r with fenceRequired := false }
    else
      r.startFence false
  else
    r.attempt time fresh

/-- What an `except` clause writes before it fences. -/
def Relay.failed (failure : Failure) (r : Relay) : Relay :=
  match failure with
  | .lag => { r with cursor := none, lagRecoveryRequired := true, fenceRequired := true }
  | .gap => { r with cursor := none, gapRecoveryRequired := true, fenceRequired := true }
  | .lease =>
      { r with
        cursor := none
        gapRecoveryRequired := false
        lagRecoveryRequired := false
        recoveryGeneration := none
        fenceRequired := true }
  | .unavailable => { r with cursor := none, fenceRequired := true }
  | .other => r

/-- An `except` clause of `run`. -/
def Relay.handle (failure : Failure) (r : Relay) : Relay × Await β :=
  match failure with
  | .other => (r, .waiting)
  | failure =>
      if r.fenced then
        ({ r.failed failure with fenceRequired := false }, .waiting)
      else
        (r.failed failure).startFence true

/-- The assignments of `initialize` once the claim has returned. -/
def Relay.registered (cfg : RelayConfig) (started time : Timestamp)
    (registration : InstanceRegistration) (r : Relay) : Relay :=
  { r with
    generation := some registration.generation
    admissionEpoch := r.admissionEpoch + 1
    cursor := some registration.lastSequence
    leaseDeadline := started + seconds cfg.leaseSeconds
    nextHeartbeat := time + seconds cfg.leaseSeconds / 3
    fenced := false
    fenceRequired := false }

/-- The assignments of `run` once the resynchronization has returned. -/
def Relay.resynchronized (cfg : RelayConfig) (started time : Timestamp)
    (registration : InstanceRegistration) (r : Relay) : Relay :=
  { r with
    generation := some registration.generation
    admissionEpoch := r.admissionEpoch + 1
    cursor := some registration.lastSequence
    leaseDeadline := started + seconds cfg.leaseSeconds
    nextHeartbeat := time + seconds cfg.leaseSeconds / 3
    gapRecoveryRequired := false
    lagRecoveryRequired := false
    recoveryGeneration := none
    fenced := false }

/-- The assignments of `heartbeat` once it has returned. -/
def Relay.renewed (cfg : RelayConfig) (started time : Timestamp) (r : Relay) : Relay :=
  { r with
    leaseDeadline := started + seconds cfg.leaseSeconds
    nextHeartbeat := time + seconds cfg.leaseSeconds / 3 }

/-- The end of the `try` block after `count` events. -/
def Relay.processed (cfg : RelayConfig) (time : Timestamp) (fresh : Generation) (count : Nat)
    (r : Relay) : Relay × Await β :=
  if count = cfg.batchSize then r.top time fresh else (r, .waiting)

/-- A call of the foundation has returned or raised. -/
def Relay.resume (cfg : RelayConfig) (time : Timestamp) (fresh : Generation)
    (outcome : Except Failure (Reply β)) (r : Relay) : Await β → Option (Relay × Await β)
  | .opening started =>
      match outcome with
      | .ok (.registration registration) =>
          some (r.registered cfg started time registration, .waiting)
      | .ok _ => none
      | .error _ => some (r, .closed)
  | .initializing started =>
      match outcome with
      | .ok (.registration registration) =>
          some ((r.registered cfg started time registration).beat time)
      | .ok _ => none
      | .error failure => some (r.handle failure)
  | .recovering started =>
      match outcome with
      | .ok (.registration registration) =>
          some ((r.resynchronized cfg started time registration).begin time)
      | .ok _ => none
      | .error failure => some (r.handle failure)
  | .beating started =>
      match outcome with
      | .ok .none => some (r.renewed cfg started time, .reading)
      | .ok _ => none
      | .error failure => some (r.handle failure)
  | .reading =>
      match outcome with
      | .ok (.events []) => some (r.processed cfg time fresh 0)
      | .ok (.events (event :: rest)) =>
          some (r, .dispatching event rest (rest.length + 1) none false)
      | .ok _ => none
      | .error failure => some (r.handle failure)
  | .acknowledging _ count failed =>
      match outcome with
      | .ok (.sequence n) =>
          if failed then some ({ r with cursor := some n }, .waiting)
          else some (Relay.processed cfg time fresh count { r with cursor := some n })
      | .ok _ => none
      | .error failure => some (r.handle failure)
  | .releasing => some (r, .closed)
  | _ => none

/-- `_dispatch` has returned or raised; the batch goes on, or its last dispatched
sequence is acknowledged. -/
def Await.dispatched (ok : Bool) : Await β → Option (Await β)
  | .dispatching event rest count dispatched handed =>
      if ok then
        if handed then
          match rest with
          | [] => some (.acknowledging event.sequence count false)
          | next :: rest => some (.dispatching next rest count (some event.sequence) false)
        else
          none
      else
        match dispatched with
        | none => some .waiting
        | some throughSequence => some (.acknowledging throughSequence count true)
  | _ => none

/-! ## The process -/

/-- A registered connection; `token` is the admission token it was admitted under. -/
structure Socket where
  websocket : Nat
  roomId : String
  afterSequence : Nat
  token : Generation × Nat
  deriving DecidableEq

/-- `admit_connection` under way: the token it read, and the lease once the
reservation has committed. -/
structure Admission where
  websocket : Nat
  roomId : String
  token : Generation × Nat
  lease : Option (Generation × Nat) := none
  deriving DecidableEq

/-- What a handled failure asks for before the relay may be ready again. -/
inductive Recovery where
  | claim
  | resynchronize
  deriving DecidableEq

/-- A relay with its sockets.  As history: the fence and the recovery that a
handled failure still asks for, the epoch of the last completed fence, and the
events handed to their rooms, each with its epoch. -/
structure Process (β : Type) where
  relay : Relay := {}
  await : Await β := .created
  admissions : Table Admission Nat Admission.websocket := ∅
  sockets : Table Socket Nat Socket.websocket := ∅
  fenceOwed : Bool := false
  recoveryOwed : Option Recovery := none
  lastFence : Nat := 0
  handed : List (Nat × RealtimeEvent β) := []

/-- The recovery a handled failure asks for, beside the one already asked for. -/
def Recovery.after (owed : Option Recovery) : Failure → Option Recovery
  | .lag | .gap => some .resynchronize
  | .lease => some .claim
  | .unavailable => some (owed.getD .claim)
  | .other => owed

/-- The recovery still asked for once a call has returned: a claim satisfies
every failure but a gap or a lag, a resynchronization satisfies all. -/
def Recovery.satisfied (owed : Option Recovery) : Await β → Option Recovery
  | .opening _ | .initializing _ => if owed = some .resynchronize then owed else none
  | .recovering _ => none
  | _ => owed

/-- A failure of these kinds must be followed by a completed fence. -/
def Failure.fences : Failure → Bool
  | .other => false
  | _ => true

/-- The calls whose failure `run` handles. -/
def Await.handles : Await β → Bool
  | .initializing _ | .recovering _ | .beating _ | .reading | .acknowledging _ _ _ => true
  | _ => false

/-- What may happen in a process. -/
inductive ProcessAction (β : Type) where
  | start
  | resume (outcome : Except Failure (Reply β))
  | hand
  | dispatched (ok : Bool)
  | detach
  | fenced (ok : Bool)
  | wake
  | stop
  | release
  | admitConnection (websocket : Nat) (roomId : String)
  | reserved (websocket : Nat) (generation : Generation) (sequence : Nat)
  | abandon (websocket : Nat)
  | register (websocket : Nat)
  | remove (websocket : Nat)

/-- The check `register` makes under the manager lock. -/
def Process.admits (time : Timestamp) (p : Process β) (admission : Admission) : Bool :=
  decide (p.relay.admissionToken time = some admission.token) &&
    admission.lease.any fun lease => lease.1 == admission.token.1

/-- The connection an admission registers. -/
def Admission.socket (admission : Admission) : Socket where
  websocket := admission.websocket
  roomId := admission.roomId
  afterSequence := (admission.lease.map Prod.snd).getD 0
  token := admission.token

/-- The admission of a websocket is over. -/
def Process.leave (p : Process β) (websocket : Nat) : Process β :=
  { p with admissions := p.admissions.deleteWhere fun a => a.websocket = websocket }

/-- `ConnectionManager.register` for an admission whose reservation has committed. -/
def Process.register (cfg : RelayConfig) (time : Timestamp) (p : Process β)
    (admission : Admission) : Process β :=
  if p.admits time admission ∧ p.sockets.count < cfg.maxConnections ∧
      (p.sockets.countWhere fun s => s.roomId = admission.roomId) < cfg.maxPerRoom then
    match p.sockets.insert? admission.socket with
    | some sockets => { p.leave admission.websocket with sockets := sockets }
    | none => p.leave admission.websocket
  else
    p.leave admission.websocket

/-- The process with its relay task moved on. -/
def Process.moved (p : Process β) (task : Relay × Await β) : Process β :=
  { p with relay := task.1, await := task.2 }

/-- The process whose relay task handles a failure. -/
def Process.owing (p : Process β) (task : Relay × Await β) (failure : Failure) : Process β :=
  { p.moved task with
    fenceOwed := p.fenceOwed || (failure.fences && !p.relay.fenced)
    recoveryOwed := Recovery.after p.recoveryOwed failure }

/-- The steps of the relay task and of the connections beside it. -/
def Process.act (cfg : RelayConfig) (time : Timestamp) (fresh : Generation) (p : Process β) :
    ProcessAction β → Option (Process β)
  | .start =>
      match p.await with
      | .created => some (p.moved ({ p.relay with stop := false }, .opening time))
      | _ => none
  | .resume outcome =>
      (p.relay.resume cfg time fresh outcome p.await).map fun task =>
        match outcome with
        | .ok _ => { p.moved task with recoveryOwed := Recovery.satisfied p.recoveryOwed p.await }
        | .error failure => if p.await.handles then p.owing task failure else p.moved task
  | .hand =>
      match p.await with
      | .dispatching event rest count dispatched false =>
          some { p with
            await := .dispatching event rest count dispatched true
            handed := p.handed ++ [(p.relay.admissionEpoch, event)] }
      | _ => none
  | .dispatched ok => (p.await.dispatched ok).map fun await => { p with await := await }
  | .detach =>
      match p.await with
      | .fencing handler _ => some { p with await := .fencing handler true, sockets := ∅ }
      | _ => none
  | .fenced ok =>
      match p.await with
      | .fencing handler detached =>
          if ok then
            if detached then
              let fenced := { p.relay with fenced := true, fenceRequired := false }
              let task := if handler then (fenced, .waiting) else fenced.attempt time fresh
              some { p.moved task with fenceOwed := false, lastFence := p.relay.admissionEpoch }
            else
              none
          else
            some { p with await := .waiting }
      | _ => none
  | .wake =>
      match p.await with
      | .waiting => some (p.moved (p.relay.top time fresh))
      | _ => none
  | .stop => some { p with relay := { p.relay with stop := true } }
  | .release =>
      match p.await with
      | .ended => some { p with await := .releasing }
      | _ => none
  | .admitConnection websocket roomId =>
      (p.relay.admissionToken time).bind fun token =>
        (p.admissions.insert?
          { websocket := websocket, roomId := roomId, token := token }).map fun admissions =>
          { p with admissions := admissions }
  | .reserved websocket generation sequence =>
      (p.admissions.find? websocket).map fun admission =>
        { p with
          admissions := p.admissions.upsert { admission with lease := some (generation, sequence) } }
  | .abandon websocket => some (p.leave websocket)
  | .register websocket => (p.admissions.find? websocket).map (p.register cfg time)
  | .remove websocket =>
      some { p with sockets := p.sockets.deleteWhere fun s => s.websocket = websocket }

end Realtime
end ChatEngine
