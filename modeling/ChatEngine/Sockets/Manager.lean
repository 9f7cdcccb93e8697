import ChatEngine.Lib.Table
import ChatEngine.Lib.Transaction

/-!
# The connection manager

The registered sockets of one process, as `ConnectionManager` keeps them: a metadata
record for each socket, and the set of sockets of each room.

* `register`, `detachConnection` and `detachRoomConnections`, the three critical
  sections that change who is registered;
* `Manager.Ok`, the agreement of the two maps, kept by each of them;
* `register_ok`, `mem_detachConnection` and `mem_detachRoomConnections`, who is
  registered afterwards.
-/

namespace ChatEngine
namespace Sockets

open Lib

/-- The identity of a WebSocket object. -/
abbrev Socket := Nat

/-- `_PendingEvent`. -/
structure PendingEvent where
  payload : String
  size : Nat
  deriving DecidableEq

/-- `ConnectionMetadata`, under the socket it belongs to. -/
structure ConnectionMetadata where
  socket : Socket
  roomId : String
  username : String
  subject : Option String
  permissions : List String
  connectionId : Option String
  broadcastReady : Bool
  afterSequence : Option Nat := none
  pending : List PendingEvent := []
  pendingBytes : Int := 0
  inflight : Option PendingEvent := none
  deriving DecidableEq

/-- The sockets of one room. -/
structure RoomSockets where
  roomId : String
  sockets : List Socket
  deriving DecidableEq

/-- What the manager is configured with. -/
structure ManagerLimits where
  maxConnections : Nat
  maxPerRoom : Nat

/-- `_rooms`, `_metadata` and `_pending_bytes`. -/
structure Manager where
  rooms : Table RoomSockets String RoomSockets.roomId := ∅
  metadata : Table ConnectionMetadata Socket ConnectionMetadata.socket := ∅
  pendingBytes : Int := 0

/-- `_rooms.get(room_id, ())`. -/
def Manager.roomSockets (m : Manager) (roomId : String) : List Socket :=
  ((m.rooms.find? roomId).map RoomSockets.sockets).getD []

/-- The socket is registered. -/
def Manager.Registered (m : Manager) (socket : Socket) : Prop :=
  (m.metadata.find? socket).isSome = true

instance (m : Manager) : DecidablePred m.Registered := by
  intro socket
  unfold Manager.Registered
  infer_instance

/-- `_accepts_sequence`. -/
def acceptsSequence (row : ConnectionMetadata) (eventSequence : Option Nat) : Prop :=
  ∀ b ∈ eventSequence, ∀ s ∈ row.afterSequence, s < b

instance (eventSequence : Option Nat) (row : ConnectionMetadata) :
    Decidable (acceptsSequence row eventSequence) := by
  unfold acceptsSequence
  infer_instance

/-- The room's set without these sockets; an empty set is dropped. -/
def Manager.discard (roomId : String) (sockets : List Socket) (m : Manager) : Manager :=
  match m.rooms.find? roomId with
  | none => m
  | some room =>
      let rest := room.sockets.filter fun socket => socket ∉ sockets
      { m with
        rooms :=
          if rest = [] then m.rooms.deleteWhere fun r => r.roomId = roomId
          else m.rooms.upsert { roomId := roomId, sockets := rest } }

/-- What `_discard_pending` gives back to the process-wide budget. -/
def ConnectionMetadata.released (row : ConnectionMetadata) : Int :=
  row.pendingBytes - ((row.inflight.map PendingEvent.size).getD 0 : Nat)

/-- `register`; `admitted` is the answer of the admission check. -/
def register (limits : ManagerLimits) (row : ConnectionMetadata) (admitted : Bool)
    (m : Manager) : Bool × Manager :=
  if m.Registered row.socket then (false, m)
  else if admitted = false then (false, m)
  else if limits.maxConnections ≤ m.metadata.count ∨
      limits.maxPerRoom ≤ (m.roomSockets row.roomId).length then
    (false, m.discard row.roomId [])
  else
    (true,
      { m with
        rooms := m.rooms.upsert
          { roomId := row.roomId, sockets := m.roomSockets row.roomId ++ [row.socket] }
        metadata := m.metadata.upsert row })

/-- `_detach_connection`. -/
def detachConnection (socket : Socket) (m : Manager) : Manager :=
  match m.metadata.find? socket with
  | none => m
  | some row =>
      { m with
        metadata := m.metadata.deleteWhere fun r => r.socket = socket
        pendingBytes := m.pendingBytes - row.released }.discard row.roomId [socket]

/-- The sockets `_detach_room_connections` selects. -/
def Manager.selected (m : Manager) (roomId : String) (subject : Option String)
    (eventSequence : Option Nat) : List ConnectionMetadata :=
  m.metadata.rows.filter fun row =>
    row.socket ∈ m.roomSockets roomId ∧ (∀ s ∈ subject, row.subject = some s) ∧
      acceptsSequence row eventSequence

/-- `_detach_room_connections`: the sockets it detached. -/
def detachRoomConnections (roomId : String) (subject : Option String)
    (eventSequence : Option Nat) (m : Manager) : List Socket × Manager :=
  let sockets := (m.selected roomId subject eventSequence).map ConnectionMetadata.socket
  (sockets,
    { m with
      metadata := m.metadata.deleteWhere fun r => r.socket ∈ sockets
      pendingBytes := m.pendingBytes -
        ((m.selected roomId subject eventSequence).map ConnectionMetadata.released).sum }.discard
      roomId sockets)

/-- The registration part of `close_room`. -/
def closeRoom (roomId : String) (eventSequence : Option Nat) (m : Manager) : Manager :=
  (detachRoomConnections roomId none eventSequence m).2

/-- The registration part of `close_member`. -/
def closeMember (roomId subject : String) (eventSequence : Option Nat) (m : Manager) : Manager :=
  (detachRoomConnections roomId (some subject) eventSequence m).2

/-- The registration part of `close_all`. -/
def closeAll (m : Manager) : Manager :=
  { rooms := ∅
    metadata := ∅
    pendingBytes := m.pendingBytes - (m.metadata.rows.map ConnectionMetadata.released).sum }

/-! ## The two maps agree -/

/-- Every room set is not empty and holds exactly the registered sockets of its room. -/
structure Manager.Ok (m : Manager) : Prop where
  nonempty : ∀ room ∈ m.rooms, room.sockets ≠ []
  nodup : ∀ room ∈ m.rooms, room.sockets.Nodup
  mem_iff : ∀ roomId socket, socket ∈ m.roomSockets roomId ↔
    ∃ row ∈ m.metadata, row.socket = socket ∧ row.roomId = roomId

section Maps

variable {m : Manager} {roomId : String} {socket : Socket}

theorem Manager.registered_iff :
    m.Registered socket ↔ ∃ row ∈ m.metadata, row.socket = socket :=
  Table.find?_isSome

theorem Manager.roomSockets_of_find? {room : RoomSockets}
    (h : m.rooms.find? roomId = some room) : m.roomSockets roomId = room.sockets := by
  unfold Manager.roomSockets
  rw [h]
  rfl

theorem Manager.roomSockets_of_none (h : m.rooms.find? roomId = none) :
    m.roomSockets roomId = [] := by
  unfold Manager.roomSockets
  rw [h]
  rfl

@[simp] theorem Manager.discard_metadata (sockets : List Socket) :
    (m.discard roomId sockets).metadata = m.metadata := by
  unfold Manager.discard
  split <;> rfl

theorem Manager.mem_roomSockets_discard {other : String} {sockets : List Socket} :
    socket ∈ (m.discard roomId sockets).roomSockets other ↔
      socket ∈ m.roomSockets other ∧ (other = roomId → socket ∉ sockets) := by
  cases hroom : m.rooms.find? roomId with
  | none =>
      have hsame : m.discard roomId sockets = m := by
        unfold Manager.discard
        rw [hroom]
      rw [hsame]
      refine ⟨fun hmem => ⟨hmem, ?_⟩, And.left⟩
      rintro rfl
      rw [Manager.roomSockets_of_none hroom] at hmem
      cases hmem
  | some room =>
      have hrooms : (m.discard roomId sockets).rooms =
          if (room.sockets.filter fun socket => socket ∉ sockets) = [] then
            m.rooms.deleteWhere fun r => r.roomId = roomId
          else m.rooms.upsert
            ⟨roomId, room.sockets.filter fun socket => socket ∉ sockets⟩ := by
        unfold Manager.discard
        rw [hroom]
      by_cases hother : other = roomId
      · subst hother
        have hset : (m.discard other sockets).roomSockets other =
            room.sockets.filter fun socket => socket ∉ sockets := by
          unfold Manager.roomSockets
          rw [hrooms]
          split
          · rename_i hempty
            have hkey : room.roomId = other := (Table.find?_eq_some.mp hroom).2
            rw [Table.find?_deleteWhere, hroom, hempty]
            simp [Option.filter, hkey]
          · rw [Table.find?_upsert, if_pos rfl]
            rfl
        rw [hset, List.mem_filter, decide_eq_true_eq, Manager.roomSockets_of_find? hroom]
        exact and_congr_right fun _ => ⟨fun h _ => h, fun h => h rfl⟩
      · have hset : (m.discard roomId sockets).roomSockets other = m.roomSockets other := by
          unfold Manager.roomSockets
          rw [hrooms]
          split
          · rw [Table.find?_deleteWhere]
            congr 2
            cases hfind : m.rooms.find? other with
            | none => rfl
            | some found =>
                have hne : found.roomId ≠ roomId := by
                  rw [(Table.find?_eq_some.mp hfind).2]
                  exact hother
                simp [hne]
          · rw [Table.find?_upsert, if_neg fun heq => hother heq.symm]
        rw [hset]
        exact ⟨fun hmem => ⟨hmem, fun heq => absurd heq hother⟩, And.left⟩

/-- A set stays without repetition, and only sets with members are kept. -/
theorem Manager.discard_rooms {sockets : List Socket} (hnonempty : ∀ room ∈ m.rooms,
      room.sockets ≠ []) (hnodup : ∀ room ∈ m.rooms, room.sockets.Nodup) :
    ∀ room ∈ (m.discard roomId sockets).rooms, room.sockets ≠ [] ∧ room.sockets.Nodup := by
  intro room hmem
  unfold Manager.discard at hmem
  split at hmem
  · exact ⟨hnonempty room hmem, hnodup room hmem⟩
  · rename_i found hfound
    dsimp only at hmem
    split at hmem
    · have hold := (Table.mem_deleteWhere.mp hmem).1
      exact ⟨hnonempty room hold, hnodup room hold⟩
    · rename_i hrest
      rcases Table.mem_upsert.mp hmem with rfl | ⟨hold, -⟩
      · exact ⟨hrest, (hnodup found (Table.find?_eq_some.mp hfound).1).filter _⟩
      · exact ⟨hnonempty room hold, hnodup room hold⟩

/-- Dropping the metadata of some sockets of one room, and the sockets from its set. -/
theorem Manager.Ok.discard (h : m.Ok) {sockets : List Socket}
    {metadata : Table ConnectionMetadata Socket ConnectionMetadata.socket} {bytes : Int}
    (hkept : ∀ row, row ∈ metadata ↔ row ∈ m.metadata ∧ row.socket ∉ sockets)
    (hroom : ∀ row ∈ m.metadata, row.socket ∈ sockets → row.roomId = roomId) :
    (Manager.discard roomId sockets
      { m with metadata := metadata, pendingBytes := bytes }).Ok := by
  have hrooms : ∀ room ∈ (Manager.discard roomId sockets
      { m with metadata := metadata, pendingBytes := bytes }).rooms,
      room.sockets ≠ [] ∧ room.sockets.Nodup := Manager.discard_rooms h.nonempty h.nodup
  refine ⟨fun room hmem => (hrooms room hmem).1, fun room hmem => (hrooms room hmem).2, ?_⟩
  intro other x
  rw [Manager.mem_roomSockets_discard, Manager.discard_metadata]
  have hold := h.mem_iff other x
  constructor
  · rintro ⟨hmem, hout⟩
    obtain ⟨row, hrow, rfl, hother⟩ := hold.mp hmem
    refine ⟨row, (hkept row).mpr ⟨hrow, fun hin => ?_⟩, rfl, hother⟩
    exact hout (hother.symm.trans (hroom row hrow hin)) hin
  · rintro ⟨row, hrow, rfl, hother⟩
    obtain ⟨hrow, hout⟩ := (hkept row).mp hrow
    exact ⟨hold.mpr ⟨row, hrow, rfl, hother⟩, fun _ => hout⟩

end Maps

/-! ## The critical sections -/

section Sections

variable {m : Manager} {roomId : String} {limits : ManagerLimits} {row : ConnectionMetadata}

/-- A registration is refused and changes nobody's registration, or adds the socket. -/
theorem register_ok (admitted : Bool) :
    ((register limits row admitted m).1 = false ∧
        (register limits row admitted m).2.metadata = m.metadata) ∨
      ((register limits row admitted m).1 = true ∧ ¬ m.Registered row.socket ∧
        admitted = true ∧ m.metadata.count < limits.maxConnections ∧
        (m.roomSockets row.roomId).length < limits.maxPerRoom ∧
        (register limits row admitted m).2.metadata = m.metadata.upsert row) := by
  unfold register
  split
  · exact .inl ⟨rfl, rfl⟩
  · rename_i hfresh
    split
    · exact .inl ⟨rfl, rfl⟩
    · rename_i hadmitted
      split
      · exact .inl ⟨rfl, Manager.discard_metadata _⟩
      · rename_i hcapacity
        rw [not_or, Nat.not_le, Nat.not_le] at hcapacity
        exact .inr ⟨rfl, hfresh, Bool.not_eq_false _ |>.mp hadmitted, hcapacity.1, hcapacity.2, rfl⟩

theorem Manager.Ok.register (h : m.Ok) (admitted : Bool) :
    (register limits row admitted m).2.Ok := by
  unfold Sockets.register
  split
  · exact h
  · rename_i hfresh
    split
    · exact h
    · split
      · refine h.discard (fun r => (and_iff_left List.not_mem_nil).symm) ?_
        intro r _ hmem
        cases hmem
      · have hunregistered : ∀ r ∈ m.metadata, r.socket ≠ row.socket :=
          fun r hr heq => hfresh (Manager.registered_iff.mpr ⟨r, hr, heq⟩)
        have hset : ∀ other x, x ∈ Manager.roomSockets
            { m with
              rooms := m.rooms.upsert ⟨row.roomId, m.roomSockets row.roomId ++ [row.socket]⟩
              metadata := m.metadata.upsert row } other ↔
            x ∈ m.roomSockets other ∨ (other = row.roomId ∧ x = row.socket) := by
          intro other x
          by_cases hother : row.roomId = other
          · subst hother
            simp [Manager.roomSockets, Table.find?_upsert]
          · have hne : ¬ other = row.roomId := fun heq => hother heq.symm
            simp [Manager.roomSockets, Table.find?_upsert, hother, hne]
        refine ⟨?_, ?_, ?_⟩
        · intro room hroom
          rcases Table.mem_upsert.mp hroom with rfl | ⟨hold, -⟩
          · simp
          · exact h.nonempty room hold
        · intro room hroom
          rcases Table.mem_upsert.mp hroom with rfl | ⟨hold, -⟩
          · refine List.Nodup.append ?_ (List.nodup_singleton _) ?_
            · cases hfind : m.rooms.find? row.roomId with
              | none =>
                  rw [Manager.roomSockets_of_none hfind]
                  exact List.nodup_nil
              | some found =>
                  rw [Manager.roomSockets_of_find? hfind]
                  exact h.nodup found (Table.find?_eq_some.mp hfind).1
            · intro x hx hx'
              rw [List.mem_singleton] at hx'
              subst hx'
              obtain ⟨r, hr, hsocket, -⟩ := (h.mem_iff _ _).mp hx
              exact hunregistered r hr hsocket
          · exact h.nodup room hold
        · intro other x
          rw [hset, h.mem_iff]
          constructor
          · rintro (⟨r, hr, rfl, rfl⟩ | ⟨rfl, rfl⟩)
            · exact ⟨r, Table.mem_upsert.mpr (.inr ⟨hr, hunregistered r hr⟩), rfl, rfl⟩
            · exact ⟨row, Table.mem_upsert.mpr (.inl rfl), rfl, rfl⟩
          · rintro ⟨r, hr, rfl, rfl⟩
            rcases Table.mem_upsert.mp hr with rfl | ⟨hold, -⟩
            · exact .inr ⟨rfl, rfl⟩
            · exact .inl ⟨r, hold, rfl, rfl⟩

theorem mem_detachConnection {socket : Socket} :
    row ∈ (detachConnection socket m).metadata ↔ row ∈ m.metadata ∧ row.socket ≠ socket := by
  unfold detachConnection
  split
  · rename_i hnone
    refine ⟨fun hrow => ⟨hrow, Table.find?_eq_none.mp hnone row hrow⟩, And.left⟩
  · rw [Manager.discard_metadata]
    exact Table.mem_deleteWhere

theorem Manager.Ok.detachConnection (h : m.Ok) (socket : Socket) :
    (detachConnection socket m).Ok := by
  unfold Sockets.detachConnection
  split
  · exact h
  · rename_i found hfound
    obtain ⟨hmem, hsocket⟩ := Table.find?_eq_some.mp hfound
    refine h.discard ?_ ?_
    · intro r
      rw [Table.mem_deleteWhere, List.mem_singleton]
    · intro r hr hin
      rw [Table.eq_of_key hr hmem ((List.mem_singleton.mp hin).trans hsocket.symm)]

theorem mem_selected {subject : Option String} {eventSequence : Option Nat} (h : m.Ok) :
    row ∈ m.selected roomId subject eventSequence ↔
      row ∈ m.metadata ∧ row.roomId = roomId ∧ (∀ s ∈ subject, row.subject = some s) ∧
        acceptsSequence row eventSequence := by
  unfold Manager.selected
  rw [List.mem_filter, decide_eq_true_eq, h.mem_iff]
  constructor
  · rintro ⟨hrow, ⟨r, hr, hsocket, hroom⟩, hrest⟩
    rw [Table.eq_of_key hr hrow hsocket] at hroom
    exact ⟨hrow, hroom, hrest⟩
  · rintro ⟨hrow, hroom, hrest⟩
    exact ⟨hrow, ⟨row, hrow, rfl, hroom⟩, hrest⟩

theorem mem_detachRoomConnections {subject : Option String} {eventSequence : Option Nat}
    (h : m.Ok) :
    row ∈ (detachRoomConnections roomId subject eventSequence m).2.metadata ↔
      row ∈ m.metadata ∧ ¬ (row.roomId = roomId ∧ (∀ s ∈ subject, row.subject = some s) ∧
        acceptsSequence row eventSequence) := by
  unfold detachRoomConnections
  rw [Manager.discard_metadata, Table.mem_deleteWhere]
  refine and_congr_right fun hrow => not_congr ?_
  rw [List.mem_map]
  constructor
  · rintro ⟨r, hr, hsocket⟩
    obtain ⟨hmem, hselected⟩ := (mem_selected h).mp hr
    rw [← Table.eq_of_key hmem hrow hsocket]
    exact hselected
  · intro hselected
    exact ⟨row, (mem_selected h).mpr ⟨hrow, hselected⟩, rfl⟩

theorem Manager.Ok.detachRoomConnections (h : m.Ok) (subject : Option String)
    (eventSequence : Option Nat) :
    (detachRoomConnections roomId subject eventSequence m).2.Ok := by
  unfold Sockets.detachRoomConnections
  refine h.discard (fun r => Table.mem_deleteWhere) ?_
  intro r hr hin
  obtain ⟨found, hfound, hsocket⟩ := List.mem_map.mp hin
  obtain ⟨hmem, hroom, -⟩ := (mem_selected h).mp hfound
  rw [← Table.eq_of_key hmem hr hsocket]
  exact hroom

theorem Manager.Ok.closeAll (m : Manager) : (closeAll m).Ok where
  nonempty _ hroom := absurd hroom Table.not_mem_empty
  nodup _ hroom := absurd hroom Table.not_mem_empty
  mem_iff roomId socket := by
    constructor
    · intro hmem
      cases hmem
    · rintro ⟨row, hrow, -⟩
      exact absurd hrow Table.not_mem_empty

theorem Manager.Ok.start : ({} : Manager).Ok := Manager.Ok.closeAll {}

end Sections

end Sockets
end ChatEngine
