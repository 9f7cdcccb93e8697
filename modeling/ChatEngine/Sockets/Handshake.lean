import Mathlib.Algebra.Order.BigOperators.Group.List
import Mathlib.Algebra.Ring.Int.Defs
import Mathlib.Data.List.Perm.Basic
import ChatEngine.Lib.Run
import ChatEngine.Sockets.Manager

/-!
# Buffers for initializing sockets

Broadcasts to a socket that has not had its first frames yet wait in a queue of its own,
and what waits is charged to the socket and to a budget of the whole process.

* `offer` and `broadcast`, the section of `broadcast` under the manager's lock;
* `activation`, the section of `_activate` that takes the next event or goes live, and
  `Manager.settle`, the `finally` after the send;
* `Buffers`, the manager together with the detached metadata that a send still owns;
* `Accounted`, the books of both, kept by every step;
* `handshake_bytes_accounted`, what the books say in every reachable state.
-/

namespace ChatEngine
namespace Sockets

open Lib

/-! ## Broadcasts -/

/-- The bounds on what may wait; `__init__` refuses bounds below one. -/
structure PendingLimits where
  maxPendingEvents : Nat := 64
  maxPendingBytes : Nat := 262144
  maxTotalPendingBytes : Nat := 8388608
  events_pos : 1 ≤ maxPendingEvents := by decide
  bytes_pos : 1 ≤ maxPendingBytes := by decide
  total_pos : 1 ≤ maxTotalPendingBytes := by decide

/-- The arguments of `broadcast`.  `payload` is the event as JSON text, or nothing where
`json.dumps` or the encoding to UTF-8 raises. -/
structure Broadcast where
  roomId : String
  payload : Option String
  exclude : Option Socket := none
  excludeConnectionId : Option String := none
  eventSequence : Option Nat := none
  requiredPermission : Option String := none
  deriving DecidableEq

/-- The snapshot that is queued. -/
def Broadcast.buffered (e : Broadcast) : Option PendingEvent :=
  e.payload.map fun payload => { payload := payload, size := payload.utf8ByteSize }

/-- None of the three `continue`s before the socket's state is looked at. -/
def Broadcast.Addresses (e : Broadcast) (row : ConnectionMetadata) : Prop :=
  acceptsSequence row e.eventSequence ∧
    (∀ p ∈ e.requiredPermission, p ∈ row.permissions ∨ "admin" ∈ row.permissions) ∧
    e.exclude ≠ some row.socket ∧ (∀ c ∈ e.excludeConnectionId, row.connectionId ≠ some c)

instance (e : Broadcast) (row : ConnectionMetadata) : Decidable (e.Addresses row) := by
  unfold Broadcast.Addresses
  infer_instance

/-- The size of the event a send owns. -/
def ConnectionMetadata.retained (row : ConnectionMetadata) : Int :=
  ((row.inflight.map PendingEvent.size).getD 0 : Nat)

/-- `_discard_pending`, on the metadata itself. -/
def ConnectionMetadata.discarded (row : ConnectionMetadata) : ConnectionMetadata :=
  { row with pending := [], pendingBytes := row.retained }

/-- How many events the socket holds, the one in flight included. -/
def ConnectionMetadata.held (row : ConnectionMetadata) : Nat :=
  row.pending.length + if row.inflight.isSome then 1 else 0

/-- One more event would pass one of the three bounds. -/
def PendingLimits.Exceeded (limits : PendingLimits) (row : ConnectionMetadata) (total : Int)
    (event : PendingEvent) : Prop :=
  limits.maxPendingEvents ≤ row.held ∨
    (limits.maxPendingBytes : Int) < row.pendingBytes + event.size ∨
    (limits.maxTotalPendingBytes : Int) < total + event.size

instance (limits : PendingLimits) (row : ConnectionMetadata) (total : Int) (event : PendingEvent) :
    Decidable (limits.Exceeded row total event) := by
  unfold PendingLimits.Exceeded
  infer_instance

/-- The event waits behind the others of the socket. -/
def ConnectionMetadata.queue (event : PendingEvent) (row : ConnectionMetadata) :
    ConnectionMetadata :=
  { row with
    pending := row.pending ++ [event]
    pendingBytes := row.pendingBytes + event.size }

/-- The metadata of one socket is rewritten in place. -/
def Manager.update (socket : Socket) (f : ConnectionMetadata → ConnectionMetadata)
    (hf : ∀ row, (f row).socket = row.socket) (bytes : Int) (m : Manager) : Manager :=
  { m with
    metadata := m.metadata.updateWhere (fun row => row.socket = socket) f hf
    pendingBytes := bytes }

def Manager.enqueue (socket : Socket) (event : PendingEvent) (m : Manager) : Manager :=
  m.update socket (ConnectionMetadata.queue event) (fun _ => rfl) (m.pendingBytes + event.size)

/-- What the section of `broadcast` under the lock leaves: the manager, the sockets to
send to, and the metadata of those it detached as it stood. -/
structure Delivery where
  manager : Manager
  recipients : List Socket := []
  overflow : List ConnectionMetadata := []

/-- The socket does not fit the buffers and is detached. -/
def Delivery.refuse (row : ConnectionMetadata) (d : Delivery) : Delivery :=
  { d with
    manager := detachConnection row.socket d.manager
    overflow := d.overflow ++ [row] }

/-- One turn of the loop of `broadcast`. -/
def offer (limits : PendingLimits) (e : Broadcast) (d : Delivery) (connection : Socket) :
    Delivery :=
  match d.manager.metadata.find? connection with
  | none => d
  | some row =>
      if ¬ e.Addresses row then d
      else if row.broadcastReady = true then
        { d with recipients := d.recipients ++ [connection] }
      else
        match e.buffered with
        | none => d.refuse row
        | some event =>
            if limits.Exceeded row d.manager.pendingBytes event then d.refuse row
            else { d with manager := d.manager.enqueue connection event }

/-- The section of `broadcast` under the lock, the sockets of the room in some order. -/
def broadcast (limits : PendingLimits) (e : Broadcast) (connections : List Socket) (m : Manager) :
    Delivery :=
  connections.foldl (offer limits e) { manager := m }

/-! ## Activation -/

/-- The event leaves the queue for the wire. -/
def ConnectionMetadata.take (event : PendingEvent) (rest : List PendingEvent)
    (row : ConnectionMetadata) : ConnectionMetadata :=
  { row with pending := rest, inflight := some event }

def ConnectionMetadata.goLive (row : ConnectionMetadata) : ConnectionMetadata :=
  { row with broadcastReady := true }

/-- The `finally` after the send, on the metadata. -/
def ConnectionMetadata.settle (event : PendingEvent) (row : ConnectionMetadata) :
    ConnectionMetadata :=
  { row with inflight := none, pendingBytes := row.pendingBytes - event.size }

/-- The section of `_activate` under the lock: the event it took, or none when the queue
was empty and the socket went live. -/
def activation (socket : Socket) (m : Manager) : Option (Option PendingEvent × Manager) :=
  (m.metadata.find? socket).map fun row =>
    match row.pending with
    | [] => (none, m.update socket ConnectionMetadata.goLive (fun _ => rfl) m.pendingBytes)
    | event :: rest =>
        (some event,
          m.update socket (ConnectionMetadata.take event rest) (fun _ => rfl) m.pendingBytes)

/-- The `finally` after the send, for a socket that is still registered. -/
def Manager.settle (socket : Socket) (event : PendingEvent) (m : Manager) : Manager :=
  m.update socket (ConnectionMetadata.settle event) (fun _ => rfl) (m.pendingBytes - event.size)

/-! ## The buffers of the process -/

/-- The metadata that `register` creates: nothing waits. -/
def ConnectionMetadata.opened (row : ConnectionMetadata) : ConnectionMetadata :=
  { row with pending := [], pendingBytes := 0, inflight := none }

/-- Of detached metadata, what a send still owns. -/
def orphaned (rows : List ConnectionMetadata) : List ConnectionMetadata :=
  (rows.map ConnectionMetadata.discarded).filter fun row => row.inflight.isSome

/-- The manager, and the detached metadata whose activation is still in a send. -/
structure Buffers where
  manager : Manager := {}
  orphans : List ConnectionMetadata := []

/-- A critical section replaced the manager and detached these rows. -/
def Buffers.detached (rows : List ConnectionMetadata) (m : Manager) (b : Buffers) : Buffers :=
  { manager := m, orphans := b.orphans ++ orphaned rows }

inductive BufferAction where
  | register (row : ConnectionMetadata) (admitted : Bool)
  | broadcast (e : Broadcast) (connections : List Socket)
  | activate (socket : Socket)
  | finish (socket : Socket)
  | finishDetached (k : Nat)
  | detach (socket : Socket)
  | closeRoom (roomId : String) (eventSequence : Option Nat)
  | closeMember (roomId subject : String) (eventSequence : Option Nat)
  | closeAll

/-- The state after an action, where the action is possible.  `activate` is the section an
activation runs while it holds the operation lock and sends nothing; `finish` ends its
send, whether it went through, failed, timed out or was cancelled; `detach` is
`unregister` and `close`. -/
def Buffers.next (caps : ManagerLimits) (limits : PendingLimits) (b : Buffers) :
    BufferAction → Option Buffers
  | .register row admitted =>
      some { b with manager := (register caps row.opened admitted b.manager).2 }
  | .broadcast e connections =>
      if connections.Perm (b.manager.roomSockets e.roomId) then
        let d := broadcast limits e connections b.manager
        some (b.detached d.overflow d.manager)
      else none
  | .activate socket =>
      if (b.manager.metadata.find? socket).bind ConnectionMetadata.inflight = none then
        (activation socket b.manager).map fun taken => { b with manager := taken.2 }
      else none
  | .finish socket =>
      ((b.manager.metadata.find? socket).bind ConnectionMetadata.inflight).map fun event =>
        { b with manager := b.manager.settle socket event }
  | .finishDetached k =>
      ((b.orphans[k]?).bind ConnectionMetadata.inflight).map fun event =>
        { manager := { b.manager with pendingBytes := b.manager.pendingBytes - event.size }
          orphans := b.orphans.eraseIdx k }
  | .detach socket =>
      some (b.detached (b.manager.metadata.find? socket).toList
        (detachConnection socket b.manager))
  | .closeRoom roomId eventSequence =>
      some (b.detached (b.manager.selected roomId none eventSequence)
        (closeRoom roomId eventSequence b.manager))
  | .closeMember roomId subject eventSequence =>
      some (b.detached (b.manager.selected roomId (some subject) eventSequence)
        (closeMember roomId subject eventSequence b.manager))
  | .closeAll => some (b.detached b.manager.metadata.rows (closeAll b.manager))

/-- One step of the buffers. -/
def BufferStep (caps : ManagerLimits) (limits : PendingLimits) (b : Buffers)
    (action : BufferAction) (b' : Buffers) : Prop :=
  b.next caps limits action = some b'

/-- The states of every interleaving. -/
def BuffersReachable (caps : ManagerLimits) (limits : PendingLimits) : Buffers → Prop :=
  Reachable (fun b => b = {}) (BufferStep caps limits)

/-! ## The books -/

/-- The sizes of the events in the queue. -/
def ConnectionMetadata.queued (row : ConnectionMetadata) : Int :=
  (row.pending.map fun event => (event.size : Int)).sum

/-- A socket is charged for what it holds, within its bounds, and only while it
initializes. -/
structure ConnectionMetadata.Accounted (limits : PendingLimits) (row : ConnectionMetadata) :
    Prop where
  bytes : row.pendingBytes = row.queued + row.retained
  events : row.held ≤ limits.maxPendingEvents
  limit : row.pendingBytes ≤ limits.maxPendingBytes
  ready : row.broadcastReady = true → row.pending = [] ∧ row.inflight = none

/-- The process is charged for what its sockets are charged for. -/
structure Accounted (limits : PendingLimits) (b : Buffers) : Prop where
  rows : ∀ row ∈ b.manager.metadata, row.Accounted limits
  orphans : ∀ row ∈ b.orphans,
    row.Accounted limits ∧ row.pending = [] ∧ row.inflight.isSome = true
  total : b.manager.pendingBytes =
    b.manager.metadata.total ConnectionMetadata.pendingBytes +
      (b.orphans.map ConnectionMetadata.pendingBytes).sum
  limit : b.manager.pendingBytes ≤ limits.maxTotalPendingBytes

section Rows

variable {limits : PendingLimits} {row : ConnectionMetadata}

theorem ConnectionMetadata.queued_nonneg (row : ConnectionMetadata) : 0 ≤ row.queued := by
  apply List.sum_nonneg
  intro size hsize
  obtain ⟨event, -, rfl⟩ := List.mem_map.mp hsize
  exact Int.natCast_nonneg _

theorem ConnectionMetadata.retained_nonneg (row : ConnectionMetadata) : 0 ≤ row.retained :=
  Int.natCast_nonneg _

theorem ConnectionMetadata.retained_of_idle (h : row.inflight = none) : row.retained = 0 := by
  unfold ConnectionMetadata.retained
  rw [h]
  rfl

theorem ConnectionMetadata.retained_of_sending {event : PendingEvent}
    (h : row.inflight = some event) : row.retained = event.size := by
  unfold ConnectionMetadata.retained
  rw [h]
  rfl

theorem ConnectionMetadata.Accounted.nonneg (h : row.Accounted limits) : 0 ≤ row.pendingBytes := by
  rw [h.bytes]
  exact Int.add_nonneg row.queued_nonneg row.retained_nonneg

theorem ConnectionMetadata.Accounted.released_nonneg (h : row.Accounted limits) :
    0 ≤ row.released := by
  have hreleased : row.released = row.pendingBytes - row.retained := rfl
  have hqueued := row.queued_nonneg
  rw [hreleased, h.bytes]
  omega

theorem ConnectionMetadata.Accounted.opened (limits : PendingLimits) (row : ConnectionMetadata) :
    row.opened.Accounted limits where
  bytes := rfl
  events := Nat.zero_le _
  limit := Int.natCast_nonneg _
  ready _ := ⟨rfl, rfl⟩

/-- What is left of a socket that is detached in the middle of a send. -/
theorem ConnectionMetadata.Accounted.discarded (h : row.Accounted limits)
    (hsending : row.inflight.isSome = true) : row.discarded.Accounted limits where
  bytes := by
    show row.retained = 0 + row.retained
    omega
  events := by
    have hevents := h.events
    unfold ConnectionMetadata.held at *
    show 0 + _ ≤ _
    exact (Nat.add_le_add_right (Nat.zero_le _) _).trans hevents
  limit := by
    have hlimit := h.limit
    have hqueued := row.queued_nonneg
    rw [h.bytes] at hlimit
    show row.retained ≤ _
    omega
  ready hready := by
    rw [(h.ready hready).2] at hsending
    cases hsending

theorem ConnectionMetadata.Accounted.queue {event : PendingEvent} {total : Int}
    (h : row.Accounted limits) (hwaiting : row.broadcastReady = false)
    (hfits : ¬ limits.Exceeded row total event) : (row.queue event).Accounted limits := by
  unfold PendingLimits.Exceeded at hfits
  simp only [not_or, Nat.not_le, Int.not_lt] at hfits
  obtain ⟨hevents, hbytes, -⟩ := hfits
  refine ⟨?_, ?_, hbytes, ?_⟩
  · have hqueued : (row.queue event).queued = row.queued + event.size := by
      unfold ConnectionMetadata.queued ConnectionMetadata.queue
      simp
    have hretained : (row.queue event).retained = row.retained := rfl
    rw [hqueued, hretained]
    show row.pendingBytes + event.size = _
    rw [h.bytes]
    omega
  · unfold ConnectionMetadata.held ConnectionMetadata.queue at *
    simp only [List.length_append, List.length_singleton]
    omega
  · intro hready
    rw [show (row.queue event).broadcastReady = row.broadcastReady from rfl, hwaiting] at hready
    cases hready

theorem ConnectionMetadata.Accounted.goLive (h : row.Accounted limits) (hempty : row.pending = [])
    (hidle : row.inflight = none) : row.goLive.Accounted limits where
  bytes := h.bytes
  events := h.events
  limit := h.limit
  ready _ := ⟨hempty, hidle⟩

theorem ConnectionMetadata.Accounted.take {event : PendingEvent} {rest : List PendingEvent}
    (h : row.Accounted limits) (hpending : row.pending = event :: rest)
    (hidle : row.inflight = none) : (row.take event rest).Accounted limits := by
  refine ⟨?_, ?_, h.limit, ?_⟩
  · have hqueued : row.queued = event.size + (row.take event rest).queued := by
      unfold ConnectionMetadata.queued
      rw [hpending]
      rfl
    have hretained : (row.take event rest).retained = event.size :=
      ConnectionMetadata.retained_of_sending rfl
    rw [hretained]
    show row.pendingBytes = _
    rw [h.bytes, hqueued, ConnectionMetadata.retained_of_idle hidle]
    omega
  · have hevents := h.events
    unfold ConnectionMetadata.held at *
    rw [hpending, hidle] at hevents
    exact hevents
  · intro hready
    rw [(h.ready hready).1] at hpending
    cases hpending

theorem ConnectionMetadata.Accounted.settle {event : PendingEvent} (h : row.Accounted limits)
    (hsending : row.inflight = some event) : (row.settle event).Accounted limits := by
  have hbytes := h.bytes
  rw [ConnectionMetadata.retained_of_sending hsending] at hbytes
  refine ⟨?_, ?_, ?_, ?_⟩
  · have hretained : (row.settle event).retained = 0 := ConnectionMetadata.retained_of_idle rfl
    rw [hretained]
    show row.pendingBytes - event.size = row.queued + 0
    omega
  · have hevents := h.events
    unfold ConnectionMetadata.held at *
    exact (Nat.add_le_add_left (Nat.zero_le _) _).trans hevents
  · have hlimit := h.limit
    show row.pendingBytes - event.size ≤ _
    omega
  · intro hready
    rw [(h.ready hready).2] at hsending
    cases hsending

end Rows

/-! ## What a detachment takes -/

section Detached

variable {limits : PendingLimits} {b : Buffers} {m : Manager}

theorem mem_orphaned {rows : List ConnectionMetadata} {row : ConnectionMetadata} :
    row ∈ orphaned rows ↔ ∃ r ∈ rows, r.inflight.isSome = true ∧ r.discarded = row := by
  unfold orphaned
  rw [List.mem_filter, List.mem_map]
  constructor
  · rintro ⟨⟨r, hr, rfl⟩, hsending⟩
    exact ⟨r, hr, hsending, rfl⟩
  · rintro ⟨r, hr, hsending, rfl⟩
    exact ⟨⟨r, hr, rfl⟩, hsending⟩

/-- The bytes the sends keep and the bytes given back are all the bytes there were. -/
theorem orphaned_bytes (rows : List ConnectionMetadata) :
    ((orphaned rows).map ConnectionMetadata.pendingBytes).sum =
      (rows.map ConnectionMetadata.pendingBytes).sum -
        (rows.map ConnectionMetadata.released).sum := by
  induction rows with
  | nil => rfl
  | cons row rest ih =>
      have hreleased : row.released = row.pendingBytes - row.retained := rfl
      have hhead : ((orphaned (row :: rest)).map ConnectionMetadata.pendingBytes).sum =
          row.retained + ((orphaned rest).map ConnectionMetadata.pendingBytes).sum := by
        unfold orphaned
        rw [List.map_cons, List.filter_cons]
        cases hsending : row.inflight with
        | none =>
            have hidle : row.discarded.inflight.isSome = false := by
              show row.inflight.isSome = false
              rw [hsending]
              rfl
            rw [hidle, ConnectionMetadata.retained_of_idle hsending, Int.zero_add]
            rfl
        | some event =>
            have hbusy : row.discarded.inflight.isSome = true := by
              show row.inflight.isSome = true
              rw [hsending]
              rfl
            rw [if_pos hbusy, List.map_cons, List.sum_cons]
            rfl
      rw [hhead, ih, List.map_cons, List.map_cons, List.sum_cons, List.sum_cons, hreleased]
      omega

/-- Any section that drops the metadata of some sockets and gives back what they held in
their queues. -/
theorem Accounted.detached (h : Accounted limits b) (p : ConnectionMetadata → Prop)
    [DecidablePred p] (hmetadata : m.metadata = b.manager.metadata.deleteWhere p)
    (hbytes : m.pendingBytes = b.manager.pendingBytes -
      ((b.manager.metadata.rows.filter fun row => p row).map ConnectionMetadata.released).sum) :
    Accounted limits (b.detached (b.manager.metadata.rows.filter fun row => p row) m) := by
  have hgone : ∀ row ∈ b.manager.metadata.rows.filter fun row => p row, row.Accounted limits :=
    fun row hrow => h.rows row (List.mem_filter.mp hrow).1
  refine ⟨?_, ?_, ?_, ?_⟩
  · intro row hrow
    have hold : row ∈ m.metadata := hrow
    rw [hmetadata] at hold
    exact h.rows row (Table.mem_deleteWhere.mp hold).1
  · intro row hrow
    rcases List.mem_append.mp hrow with hold | hnew
    · exact h.orphans row hold
    · obtain ⟨r, hr, hsending, rfl⟩ := mem_orphaned.mp hnew
      exact ⟨(hgone r hr).discarded hsending, rfl, hsending⟩
  · show m.pendingBytes = m.metadata.total ConnectionMetadata.pendingBytes +
      ((b.orphans ++ orphaned _).map ConnectionMetadata.pendingBytes).sum
    rw [hbytes, hmetadata, Table.total_deleteWhere, List.map_append, List.sum_append,
      orphaned_bytes, h.total]
    omega
  · have hnonneg : 0 ≤ ((b.manager.metadata.rows.filter fun row => p row).map
        ConnectionMetadata.released).sum := by
      apply List.sum_nonneg
      intro bytes hmem
      obtain ⟨row, hrow, rfl⟩ := List.mem_map.mp hmem
      exact (hgone row hrow).released_nonneg
    have hlimit := h.limit
    show m.pendingBytes ≤ _
    omega

@[simp] theorem Manager.discard_pendingBytes (roomId : String) (sockets : List Socket) :
    (m.discard roomId sockets).pendingBytes = m.pendingBytes := by
  unfold Manager.discard
  split <;> rfl

theorem Accounted.detachConnection (h : Accounted limits b) (socket : Socket) :
    Accounted limits (b.detached (b.manager.metadata.find? socket).toList
      (detachConnection socket b.manager)) := by
  unfold Sockets.detachConnection
  cases hfind : b.manager.metadata.find? socket with
  | none =>
      have hsame : b.detached (none : Option ConnectionMetadata).toList b.manager = b := by
        unfold Buffers.detached orphaned
        simp
      rw [hsame]
      exact h
  | some row =>
      obtain ⟨hrow, rfl⟩ := Table.find?_eq_some.mp hfind
      have hone := Table.rows_filter_key hrow
      have hdetached := h.detached (m := Manager.discard row.roomId [row.socket]
          { b.manager with
            metadata := b.manager.metadata.deleteWhere fun r => r.socket = row.socket
            pendingBytes := b.manager.pendingBytes - row.released })
        (fun r => r.socket = row.socket) (Manager.discard_metadata _) ?_
      · rw [hone] at hdetached
        exact hdetached
      · rw [Manager.discard_pendingBytes, hone]
        simp

theorem Accounted.detachRoomConnections (h : Accounted limits b) (roomId : String)
    (subject : Option String) (eventSequence : Option Nat) :
    Accounted limits (b.detached (b.manager.selected roomId subject eventSequence)
      (detachRoomConnections roomId subject eventSequence b.manager).2) := by
  have hselected : (b.manager.metadata.rows.filter fun row => row.socket ∈
      (b.manager.selected roomId subject eventSequence).map ConnectionMetadata.socket) =
      b.manager.selected roomId subject eventSequence := by
    unfold Manager.selected
    apply List.filter_congr
    intro row hrow
    rw [decide_eq_decide, List.mem_map]
    constructor
    · rintro ⟨r, hr, hsocket⟩
      obtain ⟨hmem, hchosen⟩ := List.mem_filter.mp hr
      rw [← Table.eq_of_key hmem hrow hsocket]
      exact of_decide_eq_true hchosen
    · intro hchosen
      exact ⟨row, List.mem_filter.mpr ⟨hrow, decide_eq_true hchosen⟩, rfl⟩
  have hdetached := h.detached (m := (Sockets.detachRoomConnections roomId subject eventSequence
      b.manager).2)
    (fun row => row.socket ∈
      (b.manager.selected roomId subject eventSequence).map ConnectionMetadata.socket)
    (Manager.discard_metadata _) ?_
  · rw [hselected] at hdetached
    exact hdetached
  · rw [hselected]
    exact Manager.discard_pendingBytes roomId _

theorem Accounted.closeAll (h : Accounted limits b) :
    Accounted limits (b.detached b.manager.metadata.rows (closeAll b.manager)) := by
  have hall : (b.manager.metadata.rows.filter fun _ => True) = b.manager.metadata.rows :=
    List.filter_eq_self.mpr fun _ _ => rfl
  have hdetached := h.detached (m := Sockets.closeAll b.manager) (fun _ => True) ?_ ?_
  · rw [hall] at hdetached
    exact hdetached
  · apply Table.ext
    show [] = b.manager.metadata.rows.filter _
    simp
  · rw [hall]
    rfl

end Detached

/-! ## What a rewrite in place moves -/

section Updated

variable {limits : PendingLimits} {b : Buffers} {row : ConnectionMetadata}

theorem Manager.mem_update {m : Manager} {socket : Socket}
    {f : ConnectionMetadata → ConnectionMetadata} {hf : ∀ r, (f r).socket = r.socket} {bytes : Int} :
    row ∈ (m.update socket f hf bytes).metadata ↔
      (row ∈ m.metadata ∧ row.socket ≠ socket) ∨ ∃ r ∈ m.metadata, r.socket = socket ∧ f r = row := by
  show row ∈ m.metadata.updateWhere (fun r => r.socket = socket) f hf ↔ _
  exact Table.mem_updateWhere

/-- Metadata rewritten to `f row`, the total following what the row is charged for. -/
theorem Accounted.update (h : Accounted limits b)
    (hfind : b.manager.metadata.find? row.socket = some row)
    {f : ConnectionMetadata → ConnectionMetadata} (hf : ∀ r, (f r).socket = r.socket)
    (hrow : (f row).Accounted limits) {bytes : Int}
    (hbytes : bytes = b.manager.pendingBytes - row.pendingBytes + (f row).pendingBytes)
    (hlimit : bytes ≤ limits.maxTotalPendingBytes) :
    Accounted limits { b with manager := b.manager.update row.socket f hf bytes } := by
  have hmem := (Table.find?_eq_some.mp hfind).1
  refine ⟨?_, h.orphans, ?_, hlimit⟩
  · intro r hr
    rcases Manager.mem_update.mp hr with ⟨hold, -⟩ | ⟨s, hs, hsocket, rfl⟩
    · exact h.rows r hold
    · rw [Table.eq_of_key hs hmem hsocket]
      exact hrow
  · show bytes = (b.manager.metadata.updateWhere (fun r => r.socket = row.socket) f hf).total
        ConnectionMetadata.pendingBytes + (b.orphans.map ConnectionMetadata.pendingBytes).sum
    rw [hbytes, h.total, Table.total_updateKey hmem]
    omega

theorem Accounted.enqueue {event : PendingEvent} (h : Accounted limits b)
    (hfind : b.manager.metadata.find? row.socket = some row) (hwaiting : row.broadcastReady = false)
    (hfits : ¬ limits.Exceeded row b.manager.pendingBytes event) :
    Accounted limits { b with manager := b.manager.enqueue row.socket event } := by
  have hmem := (Table.find?_eq_some.mp hfind).1
  refine h.update hfind _ ((h.rows row hmem).queue hwaiting hfits) ?_ ?_
  · show _ = _ - row.pendingBytes + (row.pendingBytes + event.size)
    omega
  · unfold PendingLimits.Exceeded at hfits
    simp only [not_or, Int.not_lt] at hfits
    exact hfits.2.2

/-- What one turn of the loop can do with a socket that is registered. -/
theorem offer_cases {e : Broadcast} {d : Delivery}
    (hfind : d.manager.metadata.find? row.socket = some row) :
    (¬ e.Addresses row ∧ offer limits e d row.socket = d) ∨
      (e.Addresses row ∧ row.broadcastReady = true ∧
        offer limits e d row.socket = { d with recipients := d.recipients ++ [row.socket] }) ∨
      (e.Addresses row ∧ row.broadcastReady = false ∧
        offer limits e d row.socket = d.refuse row) ∨
      ∃ event, e.Addresses row ∧ row.broadcastReady = false ∧ e.buffered = some event ∧
        ¬ limits.Exceeded row d.manager.pendingBytes event ∧
        offer limits e d row.socket =
          { d with manager := d.manager.enqueue row.socket event } := by
  unfold offer
  rw [hfind]
  dsimp only
  by_cases haddressed : e.Addresses row
  · rw [if_neg (not_not_intro haddressed)]
    cases hready : row.broadcastReady with
    | true =>
        rw [if_pos rfl]
        exact .inr (.inl ⟨haddressed, rfl, rfl⟩)
    | false =>
        rw [if_neg Bool.false_ne_true]
        cases hbuffered : e.buffered with
        | none => exact .inr (.inr (.inl ⟨haddressed, rfl, rfl⟩))
        | some event =>
            dsimp only
            split
            · exact .inr (.inr (.inl ⟨haddressed, rfl, rfl⟩))
            · rename_i hfits
              exact .inr (.inr (.inr ⟨event, haddressed, rfl, rfl, hfits, rfl⟩))
  · rw [if_pos haddressed]
    exact .inl ⟨haddressed, rfl⟩

theorem offer_unregistered {e : Broadcast} {d : Delivery} {connection : Socket}
    (hfind : d.manager.metadata.find? connection = none) : offer limits e d connection = d := by
  unfold offer
  rw [hfind]

theorem Accounted.offer {e : Broadcast} {d : Delivery} {connection : Socket}
    (h : Accounted limits (b.detached d.overflow d.manager)) :
    Accounted limits (b.detached (offer limits e d connection).overflow
      (offer limits e d connection).manager) := by
  cases hfind : d.manager.metadata.find? connection with
  | none =>
      rw [offer_unregistered hfind]
      exact h
  | some row =>
      obtain rfl := (Table.find?_eq_some.mp hfind).2
      have hchanged := @offer_cases limits row e d hfind
      rcases hchanged with ⟨-, hskip⟩ | ⟨-, -, hlive⟩ | ⟨-, -, hrefused⟩ |
        ⟨event, -, hwaiting, -, hfits, hqueued⟩
      · rw [hskip]
        exact h
      · rw [hlive]
        exact h
      · -- the section detaches the socket as any other does
        rw [hrefused]
        have hdetached := h.detachConnection row.socket
        have hfind' : (b.detached d.overflow d.manager).manager.metadata.find? row.socket =
            some row := hfind
        rw [hfind'] at hdetached
        unfold Delivery.refuse Buffers.detached at *
        unfold orphaned at *
        simpa only [List.map_append, List.filter_append, List.append_assoc, Option.toList_some]
          using hdetached
      · rw [hqueued]
        exact h.enqueue hfind hwaiting hfits

theorem Accounted.broadcast {e : Broadcast} {connections : List Socket} (h : Accounted limits b) :
    Accounted limits (b.detached (broadcast limits e connections b.manager).overflow
      (broadcast limits e connections b.manager).manager) := by
  have hloop : ∀ d : Delivery, Accounted limits (b.detached d.overflow d.manager) →
      Accounted limits (b.detached (connections.foldl (Sockets.offer limits e) d).overflow
        (connections.foldl (Sockets.offer limits e) d).manager) := by
    induction connections with
    | nil => exact fun d hd => hd
    | cons connection rest ih => exact fun d hd => ih _ hd.offer
  apply hloop
  have hsame : b.detached [] b.manager = b := by
    unfold Buffers.detached orphaned
    simp
  rw [hsame]
  exact h

end Updated

/-! ## Every step keeps the books -/

section Steps

variable {caps : ManagerLimits} {limits : PendingLimits} {b b' : Buffers}

theorem Accounted.start (limits : PendingLimits) : Accounted limits {} where
  rows _ hrow := absurd hrow Table.not_mem_empty
  orphans _ hrow := absurd hrow List.not_mem_nil
  total := rfl
  limit := Int.natCast_nonneg _

theorem register_pendingBytes (caps : ManagerLimits) (row : ConnectionMetadata) (admitted : Bool)
    (m : Manager) : (register caps row admitted m).2.pendingBytes = m.pendingBytes := by
  unfold register
  split
  · rfl
  · split
    · rfl
    · split
      · exact Manager.discard_pendingBytes _ _
      · rfl

theorem Accounted.register (h : Accounted limits b) (row : ConnectionMetadata) (admitted : Bool) :
    Accounted limits
      { b with manager := (register caps row.opened admitted b.manager).2 } := by
  have hbytes := register_pendingBytes caps row.opened admitted b.manager
  rcases @register_ok b.manager caps row.opened admitted with
    ⟨-, hsame⟩ | ⟨-, hfresh, -, -, -, hadded⟩
  · refine ⟨?_, h.orphans, ?_, ?_⟩
    · intro r hr
      have hold : r ∈ (Sockets.register caps row.opened admitted b.manager).2.metadata := hr
      rw [hsame] at hold
      exact h.rows r hold
    · dsimp only
      rw [hbytes, hsame]
      exact h.total
    · dsimp only
      rw [hbytes]
      exact h.limit
  · refine ⟨?_, h.orphans, ?_, ?_⟩
    · intro r hr
      have hnew : r ∈ (Sockets.register caps row.opened admitted b.manager).2.metadata := hr
      rw [hadded] at hnew
      rcases Table.mem_upsert.mp hnew with rfl | ⟨hold, -⟩
      · exact ConnectionMetadata.Accounted.opened limits row
      · exact h.rows r hold
    · have hunregistered : ∀ r ∈ b.manager.metadata, r.socket ≠ row.opened.socket :=
        fun r hr heq => hfresh (Manager.registered_iff.mpr ⟨r, hr, heq⟩)
      have hzero : row.opened.pendingBytes = 0 := rfl
      dsimp only
      rw [hbytes, hadded, Table.total_upsert_new hunregistered, hzero, Int.add_zero]
      exact h.total
    · dsimp only
      rw [hbytes]
      exact h.limit

theorem Accounted.activation (h : Accounted limits b) {socket : Socket}
    {taken : Option PendingEvent × Manager}
    (hidle : (b.manager.metadata.find? socket).bind ConnectionMetadata.inflight = none)
    (htaken : activation socket b.manager = some taken) :
    Accounted limits { b with manager := taken.2 } := by
  obtain ⟨row, hfind, rfl⟩ := Option.map_eq_some_iff.mp htaken
  obtain ⟨hrow, rfl⟩ := Table.find?_eq_some.mp hfind
  rw [hfind, Option.bind_some] at hidle
  have hlimit := h.limit
  cases hpending : row.pending with
  | nil =>
      refine h.update hfind _ ((h.rows row hrow).goLive hpending hidle) ?_ hlimit
      show _ = _ - row.pendingBytes + row.pendingBytes
      omega
  | cons event rest =>
      refine h.update hfind _ ((h.rows row hrow).take hpending hidle) ?_ hlimit
      show _ = _ - row.pendingBytes + row.pendingBytes
      omega

theorem Accounted.settle (h : Accounted limits b) {socket : Socket} {event : PendingEvent}
    (hsending : (b.manager.metadata.find? socket).bind ConnectionMetadata.inflight = some event) :
    Accounted limits { b with manager := b.manager.settle socket event } := by
  obtain ⟨row, hfind, hinflight⟩ := Option.bind_eq_some_iff.mp hsending
  obtain ⟨hrow, rfl⟩ := Table.find?_eq_some.mp hfind
  refine h.update hfind _ ((h.rows row hrow).settle hinflight) ?_ ?_
  · show _ = _ - row.pendingBytes + (row.pendingBytes - event.size)
    omega
  · have hlimit := h.limit
    omega

/-- The end of a send whose socket has been detached meanwhile. -/
theorem Accounted.settleDetached (h : Accounted limits b) {k : Nat} {event : PendingEvent}
    (hsending : (b.orphans[k]?).bind ConnectionMetadata.inflight = some event) :
    Accounted limits
      { manager := { b.manager with pendingBytes := b.manager.pendingBytes - event.size }
        orphans := b.orphans.eraseIdx k } := by
  obtain ⟨row, hget, hinflight⟩ := Option.bind_eq_some_iff.mp hsending
  obtain ⟨hk, hrow⟩ := List.getElem?_eq_some_iff.mp hget
  have hmem : row ∈ b.orphans := List.mem_of_getElem? hget
  obtain ⟨hbooks, hempty, -⟩ := h.orphans row hmem
  have hperm := List.getElem_cons_eraseIdx_perm hk
  rw [hrow] at hperm
  -- a detached row has an empty queue, so the send is all it is charged for
  have hbytes : row.pendingBytes = event.size := by
    rw [hbooks.bytes, ConnectionMetadata.retained_of_sending hinflight]
    unfold ConnectionMetadata.queued
    rw [hempty]
    exact Int.zero_add _
  refine ⟨h.rows, fun r hr => h.orphans r (List.mem_of_mem_eraseIdx hr), ?_, ?_⟩
  · have hsum := (hperm.map ConnectionMetadata.pendingBytes).sum_eq
    rw [List.map_cons, List.sum_cons, hbytes] at hsum
    have htotal := h.total
    dsimp only
    omega
  · have hlimit := h.limit
    dsimp only
    omega

theorem Accounted.step {action : BufferAction} (h : Accounted limits b)
    (hstep : BufferStep caps limits b action b') : Accounted limits b' := by
  unfold BufferStep Buffers.next at hstep
  cases action with
  | register row admitted =>
      obtain rfl := Option.some.inj hstep
      exact h.register row admitted
  | broadcast e connections =>
      dsimp only at hstep
      split at hstep
      · obtain rfl := Option.some.inj hstep
        exact h.broadcast
      · cases hstep
  | activate socket =>
      dsimp only at hstep
      split at hstep
      · rename_i hidle
        obtain ⟨taken, htaken, rfl⟩ := Option.map_eq_some_iff.mp hstep
        exact h.activation hidle htaken
      · cases hstep
  | finish socket =>
      obtain ⟨event, hsending, rfl⟩ := Option.map_eq_some_iff.mp hstep
      exact h.settle hsending
  | finishDetached k =>
      obtain ⟨event, hsending, rfl⟩ := Option.map_eq_some_iff.mp hstep
      exact h.settleDetached hsending
  | detach socket =>
      obtain rfl := Option.some.inj hstep
      exact h.detachConnection socket
  | closeRoom roomId eventSequence =>
      obtain rfl := Option.some.inj hstep
      exact h.detachRoomConnections roomId none eventSequence
  | closeMember roomId subject eventSequence =>
      obtain rfl := Option.some.inj hstep
      exact h.detachRoomConnections roomId (some subject) eventSequence
  | closeAll =>
      obtain rfl := Option.some.inj hstep
      exact h.closeAll

theorem BuffersReachable.accounted (h : BuffersReachable caps limits b) : Accounted limits b := by
  refine h.invariant ?_ fun _ _ _ hb hstep => hb.step hstep
  rintro _ rfl
  exact Accounted.start limits

/-- In every reachable state of the buffers the process-wide counter is the sum of what the
sockets are charged for, those detached in the middle of a send included; a socket is
charged for exactly its queue and its send; no counter is negative or over its bound; and
once no socket initializes or sends, nothing is charged. -/
theorem handshake_bytes_accounted (h : BuffersReachable caps limits b) :
    b.manager.pendingBytes =
        b.manager.metadata.total ConnectionMetadata.pendingBytes +
          (b.orphans.map ConnectionMetadata.pendingBytes).sum ∧
      (∀ row, row ∈ b.manager.metadata ∨ row ∈ b.orphans →
        row.pendingBytes = row.queued + row.retained ∧
          0 ≤ row.pendingBytes ∧ row.pendingBytes ≤ limits.maxPendingBytes ∧
          row.held ≤ limits.maxPendingEvents) ∧
      0 ≤ b.manager.pendingBytes ∧ b.manager.pendingBytes ≤ limits.maxTotalPendingBytes ∧
      ((∀ row ∈ b.manager.metadata, row.broadcastReady = true) →
        (∀ row, row ∈ b.manager.metadata ∨ row ∈ b.orphans → row.inflight = none) →
        b.manager.pendingBytes = 0) := by
  have hbooks := h.accounted
  have hrows : ∀ row, row ∈ b.manager.metadata ∨ row ∈ b.orphans → row.Accounted limits := by
    rintro row (hrow | hrow)
    · exact hbooks.rows row hrow
    · exact (hbooks.orphans row hrow).1
  refine ⟨hbooks.total, ?_, ?_, hbooks.limit, ?_⟩
  · intro row hrow
    have hrow := hrows row hrow
    exact ⟨hrow.bytes, hrow.nonneg, hrow.limit, hrow.events⟩
  · rw [hbooks.total]
    apply Int.add_nonneg
    · apply List.sum_nonneg
      intro bytes hbytes
      obtain ⟨row, hrow, rfl⟩ := List.mem_map.mp hbytes
      exact (hrows row (.inl hrow)).nonneg
    · apply List.sum_nonneg
      intro bytes hbytes
      obtain ⟨row, hrow, rfl⟩ := List.mem_map.mp hbytes
      exact (hrows row (.inr hrow)).nonneg
  · intro hready hidle
    have hregistered : b.manager.metadata.total ConnectionMetadata.pendingBytes = 0 := by
      apply List.sum_eq_zero
      intro bytes hbytes
      obtain ⟨row, hrow, rfl⟩ := List.mem_map.mp hbytes
      obtain ⟨hempty, hnone⟩ := (hbooks.rows row hrow).ready (hready row hrow)
      rw [(hbooks.rows row hrow).bytes, ConnectionMetadata.retained_of_idle hnone]
      unfold ConnectionMetadata.queued
      rw [hempty]
      rfl
    have horphans : b.orphans = [] := by
      apply List.eq_nil_iff_forall_not_mem.mpr
      intro row hrow
      have hsending := (hbooks.orphans row hrow).2.2
      rw [hidle row (.inr hrow)] at hsending
      cases hsending
    rw [hbooks.total, hregistered, horphans]
    rfl

end Steps

/-! ## A socket detached in the middle of a send -/

section Examples

def Buffers.run (caps : ManagerLimits) (limits : PendingLimits) (actions : List BufferAction)
    (b : Buffers) : Option Buffers :=
  actions.foldlM (Buffers.next caps limits) b

theorem Buffers.run_reachable (caps : ManagerLimits) (limits : PendingLimits)
    (actions : List BufferAction) {b b' : Buffers} (h : BuffersReachable caps limits b)
    (hrun : b.run caps limits actions = some b') : BuffersReachable caps limits b' := by
  unfold Buffers.run at hrun
  induction actions generalizing b with
  | nil =>
      obtain rfl := Option.some.inj hrun
      exact h
  | cons action rest ih =>
      rw [List.foldlM_cons] at hrun
      obtain ⟨c, hnext, hrest⟩ := Option.bind_eq_some_iff.mp hrun
      exact ih (h.next action hnext) hrest

/-- An initializing socket of the room `r`. -/
def newcomer : ConnectionMetadata where
  socket := 1
  roomId := "r"
  username := "ada"
  subject := none
  permissions := []
  connectionId := none
  broadcastReady := false

def smallManager : ManagerLimits where
  maxConnections := 2
  maxPerRoom := 2

def announcement (text : String) : Broadcast := { roomId := "r", payload := some text }

/-- Two events wait, the first is being sent, and the socket is detached. -/
def detachedWhileSending : List BufferAction :=
  [.register newcomer true, .broadcast (announcement "first") [1],
    .broadcast (announcement "second") [1], .activate 1, .detach 1]

/-- Only the event in flight is still charged. -/
theorem handshake_bytes_accounted_detached :
    ∃ b, ({} : Buffers).run { maxConnections := 2, maxPerRoom := 2 } {} detachedWhileSending =
        some b ∧ b.manager.metadata.rows = [] ∧ b.manager.pendingBytes = 5 ∧
      b.manager.pendingBytes = b.manager.metadata.total ConnectionMetadata.pendingBytes +
        (b.orphans.map ConnectionMetadata.pendingBytes).sum := by
  refine ⟨_, rfl, by decide +kernel, by decide +kernel, ?_⟩
  exact (handshake_bytes_accounted (Buffers.run_reachable { maxConnections := 2, maxPerRoom := 2 }
    {} detachedWhileSending (Reachable.start rfl) rfl)).1

end Examples

end Sockets
end ChatEngine
