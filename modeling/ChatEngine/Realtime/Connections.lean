import ChatEngine.Realtime.Recovery
import ChatEngine.Store.Rooms

/-!
# Connection leases and typing state

The tables of `PostgresConnectionRegistry` and `PostgresTypingRegistry` beside the
rooms, the instance cursors and the event log they rest on.

* `Registry`, the tables; `Registry.Active` and `Registry.Stale`, the two readings
  of a lease row;
* `tryAcquire`, `renew`, `release`, `reapExpired` and `startTyping`, `stopTyping`,
  `reapTyping`, one transaction each, with one `_ok` lemma for each;
* `Registry.Logs`, what a transaction adds to the event log.

A transaction reads the database clock in several statements; `clock i` is the
reading of its statement `i`, and `countedAt i` the one its event `i` is made with.
Its sweeps skip the rows that other transactions hold locked.
-/

namespace ChatEngine
namespace Realtime

open Lib
open Models
open Store

/-! ## Tables -/

/-- The payload of an event, as far as the registries read or write it. -/
inductive ConnectionEvent where
  | presenceJoined (username : String) (activeConnections : Nat) (originConnectionId : String)
  | presenceLeft (username : String) (activeConnections : Nat) (originConnectionId : String)
  | typingStarted (username : String) (expiresIn : Timestamp) (originConnectionId : String)
  | typingStopped (username : String) (originConnectionId : String)
  | moderationUpdated (subject : String) (bannedUntil : Option Timestamp)
  | other (eventType : String)
  deriving DecidableEq

/-- One row of `samsarix_connection_leases`. -/
structure ConnectionLease where
  connectionId : String
  instanceId : String
  instanceGeneration : Generation
  roomId : String
  username : String
  subject : Option String
  leaseExpiresAt : Timestamp
  createdAt : Timestamp
  deriving DecidableEq

/-- One row of `samsarix_typing_states`. -/
structure TypingState where
  connectionId : String
  roomId : String
  username : String
  expiresAt : Timestamp
  deriving DecidableEq

/-- The database.  `history.db` holds the cursors and the log; the rest of `history`
is what a run has used up. -/
structure Registry where
  history : History ConnectionEvent := {}
  tables : Database := {}
  leases : Table ConnectionLease String ConnectionLease.connectionId := ∅
  typing : Table TypingState String TypingState.connectionId := ∅

/-- What the registries of a deployment are configured with. -/
structure RegistryConfig where
  store : Config
  maxConnections : Nat
  maxConnectionsPerRoom : Nat
  leaseSeconds : Nat := 30
  timeout : Timestamp := seconds 8
  connections_bounds : 1 ≤ maxConnectionsPerRoom ∧ maxConnectionsPerRoom ≤ maxConnections
  lease_bounds : 3 ≤ leaseSeconds ∧ leaseSeconds ≤ 300 := by decide
  timeout_bounds : seconds 1 ≤ timeout ∧ timeout ≤ seconds 30 := by decide

theorem halfMinute_bounds : 3 ≤ 30 ∧ 30 ≤ 300 := by decide

theorem eightSeconds_bounds : seconds 1 ≤ seconds 8 ∧ seconds 8 ≤ seconds 30 := by decide

theorem twoOfFour_bounds : 1 ≤ 2 ∧ 2 ≤ 4 := by decide

/-- What one call reads from outside the tables; `locked` are the connections whose rows other
transactions hold locked. -/
structure RegistryReadings where
  clock : Nat → Timestamp
  countedAt : Nat → Timestamp
  sequence : Nat → Nat
  fresh : Generation
  store : Readings
  locked : List String := []

inductive RegistryError where
  | foundation (error : FoundationError)
  | store (error : StoreError)
  | connectionLease (message : String)
  | roomUnavailable (room : Option RoomRow)
  | typingState (message : String)

abbrev RegistryTx := Tx RegistryError Registry

/-- The cursors and the log. -/
def Registry.foundation (s : Registry) : Foundation ConnectionEvent := s.history.db

/-- The database with its cursors and its log replaced. -/
def Registry.withFoundation (s : Registry) (f : Foundation ConnectionEvent) : Registry :=
  { s with history := { s.history with db := f } }

/-- The database with the chat store's tables replaced. -/
def Registry.withTables (s : Registry) (tables : Database) : Registry :=
  { s with tables := tables }

/-- A statement on the chat store's tables. -/
def onStore {α : Type} (tx : StoreTx α) : RegistryTx α :=
  Tx.embed Registry.tables Registry.withTables .store tx

/-- A statement on the cursors and the log. -/
def onFoundation {α : Type} (tx : FoundationTx ConnectionEvent α) : RegistryTx α :=
  Tx.embed Registry.foundation Registry.withFoundation .foundation tx

/-! ## Reading a lease -/

/-- The instance still runs under the generation that admitted the connection. -/
def Registry.Current (s : Registry) (now : Timestamp) (lease : ConnectionLease) : Prop :=
  ∃ owner ∈ s.foundation.cursor? lease.instanceId,
    owner.generation = lease.instanceGeneration ∧ owner.Live now

instance (s : Registry) (now : Timestamp) : DecidablePred (s.Current now) := by
  intro lease
  unfold Registry.Current
  infer_instance

/-- The room exists and is not archived. -/
def Registry.Open (s : Registry) (roomId : String) : Prop :=
  ∃ room ∈ s.tables.rooms.find? roomId, room.archivedAt = none

instance (s : Registry) : DecidablePred s.Open := by
  intro roomId
  unfold Registry.Open
  infer_instance

/-- What counts, renews and types. -/
def Registry.Active (s : Registry) (now : Timestamp) (lease : ConnectionLease) : Prop :=
  now < lease.leaseExpiresAt ∧ s.Current now lease ∧ s.Open lease.roomId

instance (s : Registry) (now : Timestamp) : DecidablePred (s.Active now) := by
  intro lease
  unfold Registry.Active
  infer_instance

/-- What a sweep may delete. -/
def Registry.Stale (s : Registry) (now : Timestamp) (lease : ConnectionLease) : Prop :=
  lease.leaseExpiresAt ≤ now ∨
    (∃ owner ∈ s.foundation.cursor? lease.instanceId,
      owner.leaseExpiresAt ≤ now ∨ owner.generation ≠ lease.instanceGeneration) ∨
    ∃ room ∈ s.tables.rooms.find? lease.roomId, room.archivedAt ≠ none

instance (s : Registry) (now : Timestamp) : DecidablePred (s.Stale now) := by
  intro lease
  unfold Registry.Stale
  infer_instance

/-- The deployment-wide occupancy. -/
def Registry.activeCount (s : Registry) (now : Timestamp) : Nat :=
  s.leases.countWhere (s.Active now)

/-- `_room_active_count`. -/
def Registry.roomActiveCount (s : Registry) (now : Timestamp) (roomId : String) : Nat :=
  s.leases.countWhere fun lease => lease.roomId = roomId ∧ s.Active now lease

/-- The connection has a typing row. -/
def Registry.Typing (s : Registry) (connectionId : String) : Prop :=
  (s.typing.find? connectionId).isSome = true

instance (s : Registry) : DecidablePred s.Typing := by
  intro connectionId
  unfold Registry.Typing
  infer_instance

/-! ## Statements -/

/-- `_validate_connection_id`. -/
def validateConnectionId (connectionId : String) : RegistryTx Unit :=
  Tx.require
    (matchesKey (fun c => isUpper c || isLower c || isDigit c)
      (fun c => isUpper c || isLower c || isDigit c ||
        c == '.' || c == '_' || c == ':' || c == '-') 127 connectionId = true)
    (.foundation (.value "invalid connection ID"))

/-- `_validate_connection`. -/
def validateConnection (connectionId instanceId roomId username : String)
    (subject : Option String) : RegistryTx Unit := do
  validateConnectionId connectionId
  onFoundation (validateInstanceId instanceId)
  Tx.require (matchesRoomId roomId = true) (.foundation (.value "invalid room ID"))
  Tx.require (1 ≤ username.length ∧ username.length ≤ 64)
    (.foundation (.value "username must be between 1 and 64 characters"))
  Tx.require (∀ s ∈ subject, 1 ≤ s.length ∧ s.length ≤ 64)
    (.foundation (.value "subject must be between 1 and 64 characters"))

/-- `append_event`, the `i`-th of the transaction. -/
def notify (rd : RegistryReadings) (i : Nat) (roomId : String) (event : ConnectionEvent) :
    RegistryTx Nat :=
  onFoundation (appendEvent (rd.sequence i) (rd.countedAt i) roomId event)

/-- The order of a sweep: the connection asked for, then by expiry and id. -/
def sweepLe (prioritized : Option String) (a b : ConnectionLease) : Prop :=
  (prioritized = some a.connectionId ∧ prioritized ≠ some b.connectionId) ∨
    ((prioritized = some b.connectionId → prioritized = some a.connectionId) ∧
      timeKeyLe ConnectionLease.leaseExpiresAt ConnectionLease.connectionId a b)

instance (prioritized : Option String) : DecidableRel (sweepLe prioritized) := by
  intro a b
  unfold sweepLe
  infer_instance

/-- The stale leases a sweep selects; it skips locked rows. -/
def Registry.swept (s : Registry) (now : Timestamp) (limit : Nat) (locked : List String)
    (prioritized : Option String) : List ConnectionLease :=
  firstBy (sweepLe prioritized) limit
    (s.leases.rows.filter fun lease => s.Stale now lease ∧ lease.connectionId ∉ locked)

/-- The leases of these connections are gone, and their typing rows with them. -/
def Registry.drop (s : Registry) (connectionIds : List String) : Registry :=
  { s with
    leases := s.leases.deleteWhere fun lease => lease.connectionId ∈ connectionIds
    typing := s.typing.deleteWhere fun state => state.connectionId ∈ connectionIds }

/-- `_delete_expired`: the deleted leases, each with whether it was typing. -/
def deleteExpired (now : Timestamp) (limit : Nat) (locked : List String)
    (prioritized : Option String) : RegistryTx (List (ConnectionLease × Bool)) := do
  let stale ← Tx.read fun s =>
    (s.swept now limit locked prioritized).map fun lease =>
      (lease, decide (s.Typing lease.connectionId))
  Tx.write fun s => s.drop (stale.map fun row => row.1.connectionId)
  pure stale

/-- The order departures are announced in. -/
def byConnectionId (a b : ConnectionLease × Bool) : Prop := a.1.connectionId ≤ b.1.connectionId

instance : DecidableRel byConnectionId :=
  fun a b => inferInstanceAs (Decidable (a.1.connectionId ≤ b.1.connectionId))

/-- `_append_typing_stopped`, for a connection that was typing. -/
def appendTypingStopped (rd : RegistryReadings) (i : Nat) (lease : ConnectionLease)
    (wasTyping : Bool) : RegistryTx Nat :=
  if wasTyping = true then do
    let _ ← notify rd i lease.roomId (.typingStopped lease.username lease.connectionId)
    pure (i + 1)
  else
    pure i

/-- The departure of one connection, from event `i` on. -/
def appendDeparture (rd : RegistryReadings) (i : Nat) (lease : ConnectionLease)
    (wasTyping : Bool) : RegistryTx Nat := do
  let i ← appendTypingStopped rd i lease wasTyping
  let active ← Tx.read fun s => s.roomActiveCount (rd.countedAt i) lease.roomId
  let _ ← notify rd i lease.roomId (.presenceLeft lease.username active lease.connectionId)
  pure (i + 1)

/-- The loop of `_append_departures`. -/
def appendEach (rd : RegistryReadings) :
    Nat → List (ConnectionLease × Bool) → RegistryTx Nat
  | i, [] => pure i
  | i, row :: rest => do
      let i ← appendDeparture rd i row.1 row.2
      appendEach rd i rest

/-- `_append_departures`; it returns how many events it appended. -/
def appendDepartures (rd : RegistryReadings) (rows : List (ConnectionLease × Bool)) :
    RegistryTx Nat :=
  appendEach rd 0 (rows.insertionSort byConnectionId)

/-! ## Connections -/

/-- `_ADMISSION_SWEEP_LIMIT`. -/
def admissionSweepLimit : Nat := 16

/-- How an acquisition that committed ended: refused for capacity, overtaken by the
expiry of its instance, or with a lease and its admission sequence. -/
inductive Acquisition where
  | refused
  | overtaken
  | leased (lease : ConnectionLease) (admissionSequence : Nat)
  deriving DecidableEq

/-- The row of a new lease. -/
def newLease (cfg : RegistryConfig) (rd : RegistryReadings) (connectionId instanceId : String)
    (generation : Generation) (roomId username : String) (subject : Option String) :
    ConnectionLease where
  connectionId := connectionId
  instanceId := instanceId
  instanceGeneration := generation
  roomId := roomId
  username := username
  subject := subject
  leaseExpiresAt := rd.clock 3 + seconds cfg.leaseSeconds
  createdAt := rd.clock 3

/-- The reservation, once there is capacity. -/
def reserve (rd : RegistryReadings) (i : Nat) (lease : ConnectionLease) :
    RegistryTx Acquisition := do
  let owned ← Tx.read fun s => decide (s.Current (rd.clock 3) lease)
  if owned = true then do
    let inserted ← Tx.read fun s => s.leases.insert? lease
    let inserted ← Tx.orRaise inserted (.connectionLease "connection ID is already leased")
    Tx.write fun s => { s with leases := inserted }
    let active ← Tx.read fun s => s.roomActiveCount (rd.countedAt i) lease.roomId
    let sequence ← notify rd i lease.roomId
      (.presenceJoined lease.username active lease.connectionId)
    pure (.leased lease sequence)
  else
    pure .overtaken

/-- `try_acquire`. -/
def tryAcquire (cfg : RegistryConfig) (rd : RegistryReadings)
    (connectionId instanceId roomId username : String) (subject : Option String) :
    RegistryTx Acquisition := do
  validateConnection connectionId instanceId roomId username subject
  let owner ← Tx.read fun s =>
    (s.foundation.cursor? instanceId).filter fun row => row.Live (rd.clock 0)
  let owner ← Tx.orRaise owner
    (.foundation (.instanceLease "instance lease is missing or expired"))
  let room ← Tx.read fun s => s.tables.rooms.find? roomId
  let room ← Tx.orRaise room (.roomUnavailable none)
  Tx.require (room.archivedAt = none) (.roomUnavailable (some room))
  let stale ← deleteExpired (rd.clock 1) admissionSweepLimit rd.locked (some connectionId)
  let i ← appendDepartures rd stale
  let total ← Tx.read fun s => s.activeCount (rd.clock 2)
  let roomTotal ← Tx.read fun s => s.roomActiveCount (rd.clock 2) roomId
  if cfg.maxConnections ≤ total ∨ cfg.maxConnectionsPerRoom ≤ roomTotal then
    pure .refused
  else
    reserve rd i (newLease cfg rd connectionId instanceId owner.generation roomId username subject)

/-- The lease with its expiry replaced. -/
def ConnectionLease.until (expiresAt : Timestamp) (lease : ConnectionLease) : ConnectionLease :=
  { lease with leaseExpiresAt := expiresAt }

/-- `renew`. -/
def renew (cfg : RegistryConfig) (rd : RegistryReadings) (connectionId instanceId roomId : String) :
    RegistryTx Timestamp := do
  validateConnectionId connectionId
  onFoundation (validateInstanceId instanceId)
  Tx.require (matchesRoomId roomId = true) (.foundation (.value "invalid room ID"))
  let lease ← Tx.read fun s =>
    (s.leases.find? connectionId).filter fun lease =>
      lease.instanceId = instanceId ∧ lease.roomId = roomId ∧ s.Active (rd.clock 0) lease
  match lease with
  | some lease => do
      let renewed := lease.until (rd.clock 1 + seconds cfg.leaseSeconds)
      Tx.write fun s => { s with leases := s.leases.upsert renewed }
      pure renewed.leaseExpiresAt
  | none => do
      let room ← Tx.read fun s => s.tables.rooms.find? roomId
      let room ← Tx.orRaise room (.roomUnavailable none)
      Tx.require (room.archivedAt = none) (.roomUnavailable (some room))
      Tx.raise (.connectionLease "connection lease is missing, expired, or unavailable")

/-- `release`. -/
def release (rd : RegistryReadings) (connectionId instanceId : String) : RegistryTx Bool := do
  validateConnectionId connectionId
  onFoundation (validateInstanceId instanceId)
  let lease ← Tx.read fun s =>
    (s.leases.find? connectionId).filter fun lease => lease.instanceId = instanceId
  match lease with
  | none => pure false
  | some lease => do
      let wasTyping ← Tx.read fun s => decide (s.Typing connectionId)
      Tx.write fun s => s.drop [connectionId]
      let _ ← appendDeparture rd 0 lease wasTyping
      pure true

/-- `reap_expired` of the connection registry: how many leases it deleted. -/
def reapExpired (rd : RegistryReadings) (limit : Nat) : RegistryTx Nat := do
  Tx.require (1 ≤ limit ∧ limit ≤ 1_000)
    (.foundation (.value "connection expiry batch must be between 1 and 1000"))
  let rows ← deleteExpired (rd.clock 0) limit rd.locked none
  let _ ← appendDepartures rd rows
  pure rows.length

/-! ## Typing -/

/-- `start`: whether typing has started, and not only been refreshed. -/
def startTyping (cfg : RegistryConfig) (rd : RegistryReadings) (connectionId instanceId : String) :
    RegistryTx Bool := do
  validateConnectionId connectionId
  onFoundation (validateInstanceId instanceId)
  let lease ← Tx.read fun s =>
    (s.leases.find? connectionId).filter fun lease =>
      lease.instanceId = instanceId ∧ s.Active (rd.clock 0) lease
  let lease ← Tx.orRaise lease
    (.typingState "typing connection is missing, expired, or unavailable")
  let active ← Tx.read fun s =>
    (s.typing.find? connectionId).any fun state => rd.clock 1 < state.expiresAt
  Tx.write fun s =>
    { s with
      typing := s.typing.upsert
        { connectionId := connectionId, roomId := lease.roomId, username := lease.username,
          expiresAt := rd.clock 2 + cfg.timeout } }
  if active = true then
    pure false
  else do
    let _ ← notify rd 0 lease.roomId (.typingStarted lease.username cfg.timeout connectionId)
    pure true

/-- The typing rows of these connections are gone. -/
def Registry.hush (s : Registry) (connectionIds : List String) : Registry :=
  { s with
    typing := s.typing.deleteWhere fun state => state.connectionId ∈ connectionIds }

/-- `stop`: whether there was typing to stop. -/
def stopTyping (rd : RegistryReadings) (connectionId instanceId : String) : RegistryTx Bool := do
  validateConnectionId connectionId
  onFoundation (validateInstanceId instanceId)
  let state ← Tx.read fun s =>
    (s.typing.find? connectionId).filter fun _ =>
      (s.leases.find? connectionId).any fun lease => lease.instanceId = instanceId
  match state with
  | none => pure false
  | some state => do
      Tx.write fun s => s.hush [connectionId]
      let _ ← notify rd 0 state.roomId (.typingStopped state.username connectionId)
      pure true

/-- The loop of `reap_expired` over the deleted typing rows. -/
def appendStops (rd : RegistryReadings) : Nat → List TypingState → RegistryTx Unit
  | _, [] => pure ()
  | i, state :: rest => do
      let _ ← notify rd i state.roomId (.typingStopped state.username state.connectionId)
      appendStops rd (i + 1) rest

/-- The typing rows a sweep selects; it skips locked rows. -/
def Registry.lapsed (s : Registry) (now : Timestamp) (limit : Nat) (locked : List String) :
    List TypingState :=
  firstBy (timeKeyLe TypingState.expiresAt TypingState.connectionId) limit
    (s.typing.rows.filter fun state => state.expiresAt ≤ now ∧ state.connectionId ∉ locked)

/-- `reap_expired` of the typing registry: how many rows it deleted. -/
def reapTyping (rd : RegistryReadings) (limit : Nat) : RegistryTx Nat := do
  Tx.require (1 ≤ limit ∧ limit ≤ 1_000)
    (.foundation (.value "typing expiry batch must be between 1 and 1000"))
  let rows ← Tx.read fun s => s.lapsed (rd.clock 0) limit rd.locked
  Tx.write fun s => s.hush (rows.map TypingState.connectionId)
  appendStops rd 0 rows
  pure rows.length

/-! ## What a transaction logs -/

/-- A presence or typing transition of a connection. -/
inductive Transition where
  | joined
  | left
  | started
  | stopped
  deriving DecidableEq

/-- The transition an event announces, and the connection it is about. -/
def ConnectionEvent.entry? : ConnectionEvent → Option (String × Transition)
  | presenceJoined _ _ connectionId => some (connectionId, .joined)
  | presenceLeft _ _ connectionId => some (connectionId, .left)
  | typingStarted _ _ connectionId => some (connectionId, .started)
  | typingStopped _ connectionId => some (connectionId, .stopped)
  | moderationUpdated _ _ | other _ => none

/-- The transitions in the log, oldest first. -/
def Registry.entries (s : Registry) : List (String × Transition) :=
  s.foundation.events.rows.filterMap fun e => e.payload.entry?

/-- The rows of the log stand in the order of their sequences. -/
structure Registry.Sequenced (s : Registry) : Prop where
  sorted : s.foundation.events.rows.Pairwise fun a b => a.sequence < b.sequence
  last : ∀ e ∈ s.foundation.events, e.sequence ≤ s.foundation.lastSequence

/-- The transaction from `s` to `s'` adds these transitions, and nothing else. -/
structure Registry.Logs (s s' : Registry) (entries : List (String × Transition)) : Prop where
  entries : s'.entries = s.entries ++ entries
  history : s'.history =
    { s.history with
      db :=
        { s.foundation with
          events := s'.foundation.events, lastSequence := s'.foundation.lastSequence } }
  tables : s'.tables = s.tables
  leases : s'.leases = s.leases
  typing : s'.typing = s.typing
  kept : ∀ e ∈ s.foundation.events, e ∈ s'.foundation.events
  advanced : s.foundation.lastSequence ≤ s'.foundation.lastSequence
  sequenced : s.Sequenced → s'.Sequenced

/-- What a departure announces. -/
def departure (row : ConnectionLease × Bool) : List (String × Transition) :=
  (if row.2 = true then [(row.1.connectionId, .stopped)] else []) ++
    [(row.1.connectionId, .left)]

section Logs

variable {s s' t : Registry} {rd : RegistryReadings}

theorem Registry.Logs.refl (s : Registry) : s.Logs s [] :=
  ⟨(List.append_nil _).symm, rfl, rfl, rfl, rfl, fun _ => id, Nat.le_refl _, id⟩

theorem Registry.Logs.trans {first second : List (String × Transition)} (h : s.Logs t first)
    (h' : t.Logs s' second) : s.Logs s' (first ++ second) where
  entries := by rw [h'.entries, h.entries, List.append_assoc]
  history := by
    have hdb : t.foundation = { s.foundation with
        events := t.foundation.events, lastSequence := t.foundation.lastSequence } :=
      congrArg History.db h.history
    rw [h'.history, hdb, h.history]
  tables := h'.tables.trans h.tables
  leases := h'.leases.trans h.leases
  typing := h'.typing.trans h.typing
  kept e he := h'.kept e (h.kept e he)
  advanced := h.advanced.trans h'.advanced
  sequenced := h'.sequenced ∘ h.sequenced

theorem Registry.Logs.cursor? {entries : List (String × Transition)} (h : s.Logs s' entries)
    (instanceId : String) : s'.foundation.cursor? instanceId = s.foundation.cursor? instanceId := by
  have hdb := congrArg History.db h.history
  exact (congrArg (fun f : Foundation ConnectionEvent => f.cursor? instanceId) hdb).trans rfl

theorem notify_ok {i n : Nat} {roomId : String} {event : ConnectionEvent}
    (h : Tx.Returns (notify rd i roomId event) s n s') :
    n = rd.sequence i ∧ s.foundation.lastSequence < n ∧ s.Logs s' event.entry?.toList := by
  obtain ⟨f, happend, rfl⟩ := Tx.returns_embed.mp h
  obtain ⟨rfl, hlast, inserted, hins, rfl⟩ := appendEvent_ok happend
  have hrows := (Table.insert?_eq_some.mp hins).2
  refine ⟨rfl, hlast, ?_, rfl, rfl, rfl, rfl,
    fun e he => (Table.mem_of_insert? hins).mpr (.inl he), hlast.le, ?_⟩
  · unfold Registry.entries
    change inserted.rows.filterMap _ = _
    rw [hrows, List.filterMap_append]
    cases hentry : event.entry? with
    | none => simp [hentry]
    | some entry => simp [hentry]
  · intro hseq
    refine ⟨?_, ?_⟩
    · change inserted.rows.Pairwise _
      rw [hrows, List.pairwise_append]
      refine ⟨hseq.sorted, List.pairwise_singleton _ _, ?_⟩
      intro a ha b hb
      rw [List.mem_singleton] at hb
      subst hb
      exact lt_of_le_of_lt (hseq.last a ha) hlast
    · intro e he
      rcases (Table.mem_of_insert? hins).mp he with hold | rfl
      · exact (hseq.last e hold).trans hlast.le
      · exact Nat.le_refl _

/-- The event a transaction appends is the last one of the log. -/
theorem notify_event {i n : Nat} {roomId : String} {event : ConnectionEvent}
    (h : Tx.Returns (notify rd i roomId event) s n s') :
    s'.foundation.lastSequence = rd.sequence i ∧
      ⟨rd.sequence i, roomId, event, rd.countedAt i⟩ ∈ s'.foundation.events := by
  obtain ⟨f, happend, rfl⟩ := Tx.returns_embed.mp h
  obtain ⟨rfl, -, inserted, hins, rfl⟩ := appendEvent_ok happend
  exact ⟨rfl, (Table.mem_of_insert? hins).mpr (.inr rfl)⟩

theorem appendDeparture_ok {i j : Nat} {lease : ConnectionLease} {wasTyping : Bool}
    (h : Tx.Returns (appendDeparture rd i lease wasTyping) s j s') :
    s.Logs s' (departure (lease, wasTyping)) := by
  unfold appendDeparture appendTypingStopped at h
  simp only [Tx.returns_bind, Tx.returns_ite, Tx.returns_read, Tx.returns_pure] at h
  obtain ⟨_, t, hstop, _, _, ⟨rfl, rfl⟩, _, _, hleft, -, rfl⟩ := h
  have hlast := (notify_ok hleft).2.2
  unfold departure
  rcases hstop with ⟨hwas, _, _, hnotify, -, rfl⟩ | ⟨hwas, -, rfl⟩
  · rw [if_pos hwas]
    exact (notify_ok hnotify).2.2.trans hlast
  · rw [if_neg hwas]
    exact hlast

theorem appendEach_ok {i j : Nat} {rows : List (ConnectionLease × Bool)}
    (h : Tx.Returns (appendEach rd i rows) s j s') : s.Logs s' (rows.flatMap departure) := by
  induction rows generalizing i s with
  | nil =>
      obtain ⟨-, rfl⟩ := Tx.returns_pure.mp h
      exact .refl _
  | cons row rest ih =>
      obtain ⟨k, t, hfirst, hrest⟩ := Tx.returns_bind.mp h
      rw [List.flatMap_cons]
      exact (appendDeparture_ok hfirst).trans (ih hrest)

theorem appendDepartures_ok {j : Nat} {rows : List (ConnectionLease × Bool)}
    (h : Tx.Returns (appendDepartures rd rows) s j s') :
    s.Logs s' ((rows.insertionSort byConnectionId).flatMap departure) :=
  appendEach_ok h

theorem appendStops_ok {i : Nat} {rows : List TypingState} {u : Unit}
    (h : Tx.Returns (appendStops rd i rows) s u s') :
    s.Logs s' (rows.map fun state => (state.connectionId, .stopped)) := by
  induction rows generalizing i s with
  | nil =>
      obtain ⟨-, rfl⟩ := Tx.returns_pure.mp h
      exact .refl _
  | cons state rest ih =>
      obtain ⟨_, t, hfirst, hrest⟩ := Tx.returns_bind.mp h
      exact (notify_ok hfirst).2.2.trans (ih hrest)

end Logs

/-! ## What the operations do -/

/-- The rows a sweep returns. -/
def Registry.sweptRows (s : Registry) (now : Timestamp) (limit : Nat) (locked : List String)
    (prioritized : Option String) : List (ConnectionLease × Bool) :=
  (s.swept now limit locked prioritized).map fun lease =>
    (lease, decide (s.Typing lease.connectionId))

/-- The database once a sweep has deleted its rows. -/
def Registry.sweep (s : Registry) (now : Timestamp) (limit : Nat) (locked : List String)
    (prioritized : Option String) : Registry :=
  s.drop ((s.swept now limit locked prioritized).map ConnectionLease.connectionId)

/-- The sweep and the departures it announces. -/
structure Swept (s s' : Registry) (now : Timestamp) (limit : Nat) (locked : List String)
    (prioritized : Option String) : Prop where
  logs : (s.sweep now limit locked prioritized).Logs s'
    (((s.sweptRows now limit locked prioritized).insertionSort byConnectionId).flatMap departure)

section Operations

variable {cfg : RegistryConfig} {s s' : Registry} {rd : RegistryReadings}

theorem deleteExpired_ok {now : Timestamp} {limit : Nat} {locked : List String}
    {prioritized : Option String} {rows : List (ConnectionLease × Bool)}
    (h : Tx.Returns (deleteExpired now limit locked prioritized) s rows s') :
    rows = s.sweptRows now limit locked prioritized ∧
      s' = s.sweep now limit locked prioritized := by
  unfold deleteExpired at h
  simp only [Tx.returns_bind, Tx.returns_read, Tx.returns_write, Tx.returns_pure] at h
  obtain ⟨_, _, ⟨rfl, rfl⟩, _, _, rfl, rfl, rfl⟩ := h
  refine ⟨rfl, ?_⟩
  unfold Registry.sweep
  rw [List.map_map]
  rfl

@[simp] theorem returns_onFoundation_validateInstanceId {instanceId : String} {u : Unit} :
    Tx.Returns (onFoundation (validateInstanceId instanceId)) s u s' ↔
      matchesInstanceId instanceId = true ∧ s' = s := by
  unfold onFoundation
  rw [Tx.returns_embed]
  constructor
  · rintro ⟨f, hvalid, rfl⟩
    obtain ⟨hmatch, rfl⟩ := returns_validateInstanceId.mp hvalid
    exact ⟨hmatch, rfl⟩
  · rintro ⟨hmatch, rfl⟩
    exact ⟨s'.foundation, returns_validateInstanceId.mpr ⟨hmatch, rfl⟩, rfl⟩

theorem validateConnectionId_ok {connectionId : String} {u : Unit}
    (h : Tx.Returns (validateConnectionId connectionId) s u s') : s' = s :=
  (Tx.returns_require.mp h).2

theorem validateConnection_ok {connectionId instanceId roomId username : String}
    {subject : Option String} {u : Unit}
    (h : Tx.Returns (validateConnection connectionId instanceId roomId username subject) s u s') :
    s' = s := by
  unfold validateConnection validateConnectionId at h
  simp only [Tx.returns_bind, Tx.returns_require, returns_onFoundation_validateInstanceId] at h
  obtain ⟨_, _, ⟨-, rfl⟩, _, _, ⟨-, rfl⟩, _, _, ⟨-, rfl⟩, _, _, ⟨-, rfl⟩, -, rfl⟩ := h
  rfl

/-- What the reservation came to. -/
inductive Reserved (s s' : Registry) (rd : RegistryReadings) (lease : ConnectionLease) :
    Acquisition → Prop
  | overtaken : s' = s → Reserved s s' rd lease .overtaken
  | leased {inserted : Table ConnectionLease String ConnectionLease.connectionId}
      {admissionSequence : Nat} :
      s.Current (rd.clock 3) lease → s.leases.insert? lease = some inserted →
      Registry.Logs { s with leases := inserted } s' [(lease.connectionId, .joined)] →
      s'.foundation.lastSequence = admissionSequence →
      Reserved s s' rd lease (.leased lease admissionSequence)

theorem reserve_ok {i : Nat} {lease : ConnectionLease} {outcome : Acquisition}
    (h : Tx.Returns (reserve rd i lease) s outcome s') : Reserved s s' rd lease outcome := by
  unfold reserve at h
  simp only [Tx.returns_bind, Tx.returns_read, Tx.returns_ite, Tx.returns_orRaise,
    Tx.returns_write, Tx.returns_pure] at h
  obtain ⟨_, _, ⟨rfl, rfl⟩, h⟩ := h
  rcases h with ⟨howned, _, _, ⟨rfl, rfl⟩, inserted, _, ⟨hins, rfl⟩, _, _, rfl, _, _, ⟨rfl, rfl⟩,
    n, _, hjoined, rfl, rfl⟩ | ⟨-, rfl, rfl⟩
  · exact .leased (of_decide_eq_true howned) hins (notify_ok hjoined).2.2
      ((notify_event hjoined).1.trans (notify_ok hjoined).1.symm)
  · exact .overtaken rfl

/-- What an acquisition that committed did: a sweep, and below both limits the
reservation. -/
structure Acquired (cfg : RegistryConfig) (rd : RegistryReadings) (s s' : Registry)
    (connectionId instanceId roomId username : String) (subject : Option String)
    (outcome : Acquisition) : Prop where
  opened : s.Open roomId
  decided : ∃ owner t, s.foundation.cursor? instanceId = some owner ∧ owner.Live (rd.clock 0) ∧
    Swept s t (rd.clock 1) admissionSweepLimit rd.locked (some connectionId) ∧
    ((outcome = .refused ∧ s' = t ∧
        (cfg.maxConnections ≤ t.activeCount (rd.clock 2) ∨
          cfg.maxConnectionsPerRoom ≤ t.roomActiveCount (rd.clock 2) roomId)) ∨
      (t.activeCount (rd.clock 2) < cfg.maxConnections ∧
        t.roomActiveCount (rd.clock 2) roomId < cfg.maxConnectionsPerRoom ∧
        Reserved t s' rd
          (newLease cfg rd connectionId instanceId owner.generation roomId username subject)
          outcome))

theorem tryAcquire_ok {connectionId instanceId roomId username : String}
    {subject : Option String} {outcome : Acquisition}
    (h : Tx.Returns (tryAcquire cfg rd connectionId instanceId roomId username subject)
      s outcome s') :
    Acquired cfg rd s s' connectionId instanceId roomId username subject outcome := by
  unfold tryAcquire at h
  simp only [Tx.returns_bind, Tx.returns_read, Tx.returns_orRaise, Tx.returns_require,
    Tx.returns_ite, Tx.returns_pure] at h
  obtain ⟨_, _, hvalid, _, _, ⟨rfl, rfl⟩, owner, _, ⟨howner, rfl⟩, _, _, ⟨rfl, rfl⟩, room, _,
    ⟨hroom, rfl⟩, _, _, ⟨hopen, rfl⟩, rows, _, hdelete, i, t, hdepart, _, _, ⟨rfl, rfl⟩, _, _,
    ⟨rfl, rfl⟩, h⟩ := h
  obtain rfl := validateConnection_ok hvalid
  obtain ⟨rfl, rfl⟩ := deleteExpired_ok hdelete
  rw [Option.filter_eq_some_iff, decide_eq_true_eq] at howner
  refine ⟨⟨room, hroom, hopen⟩, owner, _, howner.1, howner.2, ⟨appendDepartures_ok hdepart⟩, ?_⟩
  rcases h with ⟨hfull, rfl, rfl⟩ | ⟨hroomy, hreserve⟩
  · exact .inl ⟨rfl, rfl, hfull⟩
  · rw [not_or, Nat.not_le, Nat.not_le] at hroomy
    exact .inr ⟨hroomy.1, hroomy.2, reserve_ok hreserve⟩

theorem renew_ok {connectionId instanceId roomId : String} {expiresAt : Timestamp}
    (h : Tx.Returns (renew cfg rd connectionId instanceId roomId) s expiresAt s') :
    ∃ lease ∈ s.leases, lease.connectionId = connectionId ∧ s.Active (rd.clock 0) lease ∧
      s' = { s with
        leases := s.leases.upsert (lease.until (rd.clock 1 + seconds cfg.leaseSeconds)) } := by
  unfold renew at h
  simp only [Tx.returns_bind, Tx.returns_read, Tx.returns_require,
    returns_onFoundation_validateInstanceId] at h
  obtain ⟨_, _, hvalid, _, _, ⟨-, rfl⟩, _, _, ⟨-, rfl⟩, found, _, ⟨hfound, rfl⟩, h⟩ := h
  obtain rfl := validateConnectionId_ok hvalid
  cases found with
  | none =>
      simp only [Tx.returns_bind, Tx.returns_read, Tx.returns_orRaise, Tx.returns_require] at h
      obtain ⟨_, _, -, _, _, -, _, _, -, hraise⟩ := h
      exact absurd hraise Tx.returns_raise
  | some lease =>
      have hlease := hfound.symm
      rw [Option.filter_eq_some_iff, decide_eq_true_eq, Table.find?_eq_some] at hlease
      simp only [Tx.returns_bind, Tx.returns_write, Tx.returns_pure] at h
      obtain ⟨_, _, rfl, -, rfl⟩ := h
      exact ⟨lease, hlease.1.1, hlease.1.2, hlease.2.2.2, rfl⟩

theorem release_ok {connectionId instanceId : String} {released : Bool}
    (h : Tx.Returns (release rd connectionId instanceId) s released s') :
    s' = s ∨ ∃ lease ∈ s.leases, lease.connectionId = connectionId ∧
      (s.drop [connectionId]).Logs s' (departure (lease, decide (s.Typing connectionId))) := by
  unfold release at h
  simp only [Tx.returns_bind, Tx.returns_read, returns_onFoundation_validateInstanceId] at h
  obtain ⟨_, _, hvalid, _, _, ⟨-, rfl⟩, found, _, ⟨hfound, rfl⟩, h⟩ := h
  obtain rfl := validateConnectionId_ok hvalid
  cases found with
  | none => exact .inl (Tx.returns_pure.mp h).2
  | some lease =>
      have hlease := hfound.symm
      rw [Option.filter_eq_some_iff, decide_eq_true_eq, Table.find?_eq_some] at hlease
      simp only [Tx.returns_bind, Tx.returns_read, Tx.returns_write, Tx.returns_pure] at h
      obtain ⟨_, _, ⟨rfl, rfl⟩, _, _, rfl, _, _, hleft, -, rfl⟩ := h
      exact .inr ⟨lease, hlease.1.1, hlease.1.2, appendDeparture_ok hleft⟩

theorem reapExpired_ok {limit n : Nat} (h : Tx.Returns (reapExpired rd limit) s n s') :
    Swept s s' (rd.clock 0) limit rd.locked none := by
  unfold reapExpired at h
  simp only [Tx.returns_bind, Tx.returns_require, Tx.returns_pure] at h
  obtain ⟨_, _, ⟨-, rfl⟩, _, _, hdelete, _, _, hdepart, -, rfl⟩ := h
  obtain ⟨rfl, rfl⟩ := deleteExpired_ok hdelete
  exact ⟨appendDepartures_ok hdepart⟩

/-- Typing of a connection with a live lease has started, or has been refreshed. -/
theorem startTyping_ok {connectionId instanceId : String} {started : Bool}
    (h : Tx.Returns (startTyping cfg rd connectionId instanceId) s started s') :
    ∃ lease ∈ s.leases, lease.connectionId = connectionId ∧
      ∃ state : TypingState, state.connectionId = connectionId ∧
        ((s.Typing connectionId ∧ s' = { s with typing := s.typing.upsert state }) ∨
          Registry.Logs { s with typing := s.typing.upsert state } s'
            [(connectionId, .started)]) := by
  unfold startTyping at h
  simp only [Tx.returns_bind, Tx.returns_read, Tx.returns_orRaise, Tx.returns_write,
    Tx.returns_ite, Tx.returns_pure, returns_onFoundation_validateInstanceId] at h
  obtain ⟨_, _, hvalid, _, _, ⟨-, rfl⟩, _, _, ⟨rfl, rfl⟩, lease, _, ⟨hlease, rfl⟩, _, _,
    ⟨rfl, rfl⟩, _, _, rfl, h⟩ := h
  obtain rfl := validateConnectionId_ok hvalid
  rw [Option.filter_eq_some_iff, decide_eq_true_eq, Table.find?_eq_some] at hlease
  refine ⟨lease, hlease.1.1, hlease.1.2,
    ⟨connectionId, lease.roomId, lease.username, rd.clock 2 + cfg.timeout⟩, rfl, ?_⟩
  rcases h with ⟨hactive, -, rfl⟩ | ⟨-, _, _, hstarted, -, rfl⟩
  · refine .inl ⟨?_, rfl⟩
    obtain ⟨state, hstate, -⟩ := (Option.any_eq_true ..).mp hactive
    unfold Registry.Typing
    rw [hstate]
    rfl
  · exact .inr (notify_ok hstarted).2.2

theorem stopTyping_ok {connectionId instanceId : String} {stopped : Bool}
    (h : Tx.Returns (stopTyping rd connectionId instanceId) s stopped s') :
    s' = s ∨ (s.Typing connectionId ∧
      (s.hush [connectionId]).Logs s' [(connectionId, .stopped)]) := by
  unfold stopTyping at h
  simp only [Tx.returns_bind, Tx.returns_read, returns_onFoundation_validateInstanceId] at h
  obtain ⟨_, _, hvalid, _, _, ⟨-, rfl⟩, found, _, ⟨hfound, rfl⟩, h⟩ := h
  obtain rfl := validateConnectionId_ok hvalid
  cases found with
  | none => exact .inl (Tx.returns_pure.mp h).2
  | some state =>
      have hstate := hfound.symm
      rw [Option.filter_eq_some_iff] at hstate
      simp only [Tx.returns_bind, Tx.returns_write, Tx.returns_pure] at h
      obtain ⟨_, _, rfl, _, _, hstopped, -, rfl⟩ := h
      refine .inr ⟨?_, (notify_ok hstopped).2.2⟩
      unfold Registry.Typing
      rw [hstate.1]
      rfl

theorem reapTyping_ok {limit n : Nat} (h : Tx.Returns (reapTyping rd limit) s n s') :
    (s.hush ((s.lapsed (rd.clock 0) limit rd.locked).map TypingState.connectionId)).Logs s'
      ((s.lapsed (rd.clock 0) limit rd.locked).map fun state => (state.connectionId, .stopped)) := by
  unfold reapTyping at h
  simp only [Tx.returns_bind, Tx.returns_require, Tx.returns_read, Tx.returns_write,
    Tx.returns_pure] at h
  obtain ⟨_, _, ⟨-, rfl⟩, _, _, ⟨rfl, rfl⟩, _, _, rfl, _, _, hstops, -, rfl⟩ := h
  exact appendStops_ok hstops

end Operations

end Realtime
end ChatEngine
