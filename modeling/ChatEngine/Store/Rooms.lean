import ChatEngine.Store.Messages

/-!
# Room, moderation and read-state operations

The remaining writes of the store: creating, changing and deleting rooms, the
audited export request, member moderation, and the read cursors.  As for the
message operations, each has one lemma about everything a successful call did.
-/

namespace ChatEngine
namespace Store

open Lib
open Models

/-! ## Rooms -/

/-- `_create_room_sync`. -/
def createRoom (cfg : Config) (rd : Readings) (payload : RoomCreate) (actor : String) :
    StoreTx Room := do
  let roomId := payload.id.getD (rd.uuid 0).roomId
  let count ← Tx.read fun db => db.rooms.count
  Tx.require (count < cfg.maxRooms) (.roomCapacity "room capacity reached")
  let row : RoomRow :=
    { id := roomId, name := payload.name, description := payload.description,
      createdAt := rd.now 0 }
  let inserted ← Tx.read fun db => db.rooms.insert? row
  let inserted ← Tx.orRaise inserted (.roomAlreadyExists roomId.val)
  Tx.write fun db => { db with rooms := inserted }
  insertAudit cfg (rd.uuid 1) (rd.now 1) .roomCreated actor roomId.val .none
  pure (roomFromRow row)

theorem createRoom_ok {cfg : Config} {rd : Readings} {payload : RoomCreate} {actor : String}
    {db db' : Database} {room : Room}
    (h : Tx.Returns (createRoom cfg rd payload actor) db room db') :
    db.rooms.count < cfg.maxRooms ∧
    ∃ row inserted, db.rooms.insert? row = some inserted ∧ room = roomFromRow row ∧
      SameButAudit { db with rooms := inserted } db' := by
  unfold createRoom at h
  simp only [Tx.returns_bind, Tx.returns_read, Tx.returns_require, Tx.returns_orRaise,
    Tx.returns_write, Tx.returns_pure] at h
  obtain ⟨_, _, ⟨rfl, rfl⟩, _, _, ⟨hcap, rfl⟩, _, _, ⟨rfl, rfl⟩, inserted, _, ⟨hins, rfl⟩, _, _,
    rfl, _, _, haudit, rfl, rfl⟩ := h
  exact ⟨hcap, _, inserted, hins, rfl, insertAudit_same haudit⟩

/-- Which flags a room-state call changed. -/
structure RoomChanges where
  archived : Bool
  frozen : Bool
  deriving DecidableEq, Repr

/-- One room rewritten in place. -/
def Database.setRoom (roomId : String) (f : RoomRow → RoomRow) (hkey : ∀ r, (f r).key = r.key)
    (db : Database) : Database :=
  { db with rooms := db.rooms.updateWhere (fun r => r.key = roomId) f hkey }

def RoomRow.setArchived (archivedAt : Option Timestamp) (r : RoomRow) : RoomRow :=
  { r with archivedAt := archivedAt }

def RoomRow.setFrozen (frozenAt : Option Timestamp) (r : RoomRow) : RoomRow :=
  { r with frozenAt := frozenAt }

@[simp] theorem RoomRow.setArchived_key (archivedAt : Option Timestamp) (r : RoomRow) :
    (r.setArchived archivedAt).key = r.key := rfl

@[simp] theorem RoomRow.setFrozen_key (frozenAt : Option Timestamp) (r : RoomRow) :
    (r.setFrozen frozenAt).key = r.key := rfl

/-- One flag of `_set_room_state_sync`: whether it changed. -/
def setRoomFlag (cfg : Config) (auditId : UuidHex) (stampedAt auditAt : Timestamp)
    (roomId actor : String) (requested : Option Bool) (stored : Option Timestamp)
    (set : Option Timestamp → RoomRow → RoomRow) (hkey : ∀ t r, (set t r).key = r.key)
    (on off : AuditAction) : StoreTx Bool :=
  match requested with
  | none => pure false
  | some wanted =>
      if stored.isSome = wanted then pure false
      else do
        Tx.write (Database.setRoom roomId (set (if wanted = true then some stampedAt else none))
          (hkey _))
        insertAudit cfg auditId auditAt (if wanted = true then on else off) actor roomId .none
        pure true

/-- `_set_room_state_sync`. -/
def setRoomState (cfg : Config) (rd : Readings) (roomId : String) (archived frozen : Option Bool)
    (actor : String) : StoreTx (Room × RoomChanges) := do
  let row ← Tx.read fun db => db.rooms.find? roomId
  let row ← Tx.orRaise row (.roomNotFound roomId)
  let archivedChanged ← setRoomFlag cfg (rd.uuid 0) (rd.now 0) (rd.now 1) roomId actor archived
    row.archivedAt RoomRow.setArchived RoomRow.setArchived_key .roomArchived .roomUnarchived
  let frozenChanged ← setRoomFlag cfg (rd.uuid 1) (rd.now 2) (rd.now 3) roomId actor frozen
    row.frozenAt RoomRow.setFrozen RoomRow.setFrozen_key .roomFrozen .roomUnfrozen
  let row ← Tx.read fun db => db.rooms.find? roomId
  let row ← Tx.orRaise row (.runtime "row is None")
  pure (roomFromRow row, { archived := archivedChanged, frozen := frozenChanged })

/-- Two databases whose rooms have the same keys and that otherwise differ in
their audit trail at most. -/
structure SameButRoomState (db db' : Database) : Prop where
  rooms : ∀ k, (db'.rooms.find? k).isSome = (db.rooms.find? k).isSome
  messages : db'.messages = db.messages
  reactions : db'.reactions = db.reactions
  memberControls : db'.memberControls = db.memberControls
  readStates : db'.readStates = db.readStates
  webhooks : db'.webhooks = db.webhooks

theorem SameButRoomState.refl (db : Database) : SameButRoomState db db :=
  ⟨fun _ => rfl, rfl, rfl, rfl, rfl, rfl⟩

theorem SameButRoomState.trans {db₁ db₂ db₃ : Database} (h : SameButRoomState db₁ db₂)
    (h' : SameButRoomState db₂ db₃) : SameButRoomState db₁ db₃ :=
  ⟨fun k => (h'.rooms k).trans (h.rooms k), h'.messages.trans h.messages,
    h'.reactions.trans h.reactions, h'.memberControls.trans h.memberControls,
    h'.readStates.trans h.readStates, h'.webhooks.trans h.webhooks⟩

theorem setRoomFlag_ok {cfg : Config} {auditId : UuidHex} {stampedAt auditAt : Timestamp}
    {roomId actor : String} {requested : Option Bool} {stored : Option Timestamp}
    {set : Option Timestamp → RoomRow → RoomRow} {hkey : ∀ t r, (set t r).key = r.key}
    {on off : AuditAction} {db db' : Database} {changed : Bool}
    (h : Tx.Returns (setRoomFlag cfg auditId stampedAt auditAt roomId actor requested stored set
      hkey on off) db changed db') : SameButRoomState db db' := by
  unfold setRoomFlag at h
  cases requested with
  | none =>
      obtain ⟨-, rfl⟩ := Tx.returns_pure.mp h
      exact SameButRoomState.refl _
  | some wanted =>
      simp only [Tx.returns_ite, Tx.returns_bind, Tx.returns_write, Tx.returns_pure] at h
      rcases h with ⟨-, -, rfl⟩ | ⟨-, _, _, rfl, _, _, haudit, -, rfl⟩
      · exact SameButRoomState.refl _
      · have hsame := insertAudit_same haudit
        refine ⟨fun k => ?_, hsame.messages, hsame.reactions, hsame.memberControls,
          hsame.readStates, hsame.webhooks⟩
        rw [hsame.rooms]
        unfold Database.setRoom
        simp only [Table.find?_updateWhere, Option.isSome_map]

theorem setRoomState_ok {cfg : Config} {rd : Readings} {roomId actor : String}
    {archived frozen : Option Bool} {db db' : Database} {reply : Room × RoomChanges}
    (h : Tx.Returns (setRoomState cfg rd roomId archived frozen actor) db reply db') :
    SameButRoomState db db' := by
  unfold setRoomState at h
  simp only [Tx.returns_bind, Tx.returns_read, Tx.returns_orRaise, Tx.returns_pure] at h
  obtain ⟨_, _, ⟨rfl, rfl⟩, _, _, ⟨-, rfl⟩, _, _, harchived, _, _, hfrozen, _, _, ⟨rfl, rfl⟩, _, _,
    ⟨-, rfl⟩, -, rfl⟩ := h
  exact (setRoomFlag_ok harchived).trans (setRoomFlag_ok hfrozen)

/-- `DELETE FROM rooms` with everything its foreign keys cascade to. -/
def Database.deleteRoom (roomId : String) (db : Database) : Database :=
  let emptied := db.deleteMessages
    ((db.messages.rows.filter fun r => r.roomId = roomId).map MessageRow.id)
  { emptied with
    rooms := emptied.rooms.deleteWhere fun r => r.key = roomId
    reactions := emptied.reactions.deleteWhere fun r => r.roomId = roomId
    memberControls := emptied.memberControls.deleteWhere fun r => r.roomId = roomId
    readStates := emptied.readStates.deleteWhere fun r => r.roomId = roomId }

/-- `_delete_room_sync`: the number of deleted messages. -/
def deleteRoom (cfg : Config) (rd : Readings) (roomId actor : String) : StoreTx Nat := do
  let row ← Tx.read fun db => db.rooms.find? roomId
  let row ← Tx.orRaise row (.roomNotFound roomId)
  Tx.require (row.archivedAt ≠ none) (.roomNotArchived roomId)
  let messageCount ← Tx.read fun db => db.messages.countWhere fun r => r.roomId = roomId
  insertAudit cfg (rd.uuid 0) (rd.now 0) .roomDeleted actor roomId (.deletedMessages messageCount)
  scrubRoomWebhooks roomId
  Tx.write (Database.deleteRoom roomId)
  pure messageCount

theorem deleteRoom_ok {cfg : Config} {rd : Readings} {roomId actor : String}
    {db db' : Database} {n : Nat} (h : Tx.Returns (deleteRoom cfg rd roomId actor) db n db') :
    (∃ row ∈ db.rooms, row.key = roomId ∧ row.archivedAt ≠ none) ∧
    ∃ audited, SameButAudit db audited ∧
      db' = ({ audited with
        webhooks := scrub audited.webhooks fun r => r.roomId = roomId } : Database).deleteRoom
          roomId := by
  unfold deleteRoom scrubRoomWebhooks at h
  simp only [Tx.returns_bind, Tx.returns_read, Tx.returns_orRaise, Tx.returns_require,
    Tx.returns_write, Tx.returns_pure] at h
  obtain ⟨_, _, ⟨rfl, rfl⟩, row, _, ⟨hfind, rfl⟩, _, _, ⟨harchived, rfl⟩, _, _, ⟨rfl, rfl⟩, _, _,
    haudit, _, _, rfl, _, _, rfl, -, rfl⟩ := h
  obtain ⟨hmem, hkey⟩ := Table.find?_eq_some.mp hfind
  exact ⟨⟨row, hmem, hkey, harchived⟩, _, insertAudit_same haudit, rfl⟩

/-- `_record_export_requested_sync`. -/
def recordExportRequested (cfg : Config) (rd : Readings) (roomId actor : String) :
    StoreTx Unit := do
  let row ← Tx.read fun db => db.rooms.find? roomId
  let _ ← Tx.orRaise row (.roomNotFound roomId)
  insertAudit cfg (rd.uuid 0) (rd.now 0) .roomExportRequested actor roomId .none

theorem recordExportRequested_ok {cfg : Config} {rd : Readings} {roomId actor : String}
    {db db' : Database} {u : Unit}
    (h : Tx.Returns (recordExportRequested cfg rd roomId actor) db u db') :
    SameButAudit db db' := by
  unfold recordExportRequested at h
  simp only [Tx.returns_bind, Tx.returns_read, Tx.returns_orRaise] at h
  obtain ⟨_, _, ⟨rfl, rfl⟩, _, _, ⟨-, rfl⟩, haudit⟩ := h
  exact insertAudit_same haudit

/-! ## Moderation -/

/-- The row a moderation call stores, when it keeps a control at all. -/
def moderationRow (roomId subject : String) (payload : MemberModerationUpdate) (now : Timestamp)
    (existing : Option MemberControlRow) : MemberControlRow :=
  { roomId := roomId
    subject := subject
    mutedUntil := applyDuration now payload.mutedForSeconds (existing.bind (·.mutedUntil))
    bannedUntil := applyDuration now payload.bannedForSeconds (existing.bind (·.bannedUntil))
    updatedAt := now }

/-- Replace or drop the controls of one member. -/
def Database.setControl (row : MemberControlRow) (db : Database) : Database :=
  { db with
    memberControls :=
      if row.mutedUntil = none ∧ row.bannedUntil = none then
        db.memberControls.deleteWhere fun r => r.key = row.key
      else db.memberControls.upsert row }

/-- `_set_member_moderation_sync`; `now 0` is read before the transaction. -/
def setMemberModeration (cfg : Config) (rd : Readings) (roomId subject : String)
    (payload : MemberModerationUpdate) (actor : String) : StoreTx MemberModeration := do
  let room ← Tx.read fun db => db.rooms.find? roomId
  let _ ← Tx.orRaise room (.roomNotFound roomId)
  let existing ← Tx.read fun db => db.memberControls.find? (roomId, subject)
  let row := moderationRow roomId subject payload (rd.now 0) existing
  Tx.write (Database.setControl row)
  insertAudit cfg (rd.uuid 0) (rd.now 1) .memberModerationUpdated actor roomId
    (.moderation subject row.mutedUntil row.bannedUntil)
  insertWebhook cfg (rd.uuid 1) .memberModerationUpdated roomId subject (rd.now 0)
    (.memberModerationUpdated actor
      { roomId := roomId, subject := subject, mutedUntil := row.mutedUntil,
        bannedUntil := row.bannedUntil, updatedAt := rd.now 0 })
  pure
    { roomId := stripWhitespace roomId, subject := stripWhitespace subject,
      mutedUntil := row.mutedUntil, bannedUntil := row.bannedUntil, updatedAt := rd.now 0 }

theorem setMemberModeration_ok {cfg : Config} {rd : Readings} {roomId subject : String}
    {payload : MemberModerationUpdate} {actor : String} {db db' : Database}
    {moderation : MemberModeration}
    (h : Tx.Returns (setMemberModeration cfg rd roomId subject payload actor) db moderation db') :
    (∃ room ∈ db.rooms, room.key = roomId) ∧
    ∃ row, row = moderationRow roomId subject payload (rd.now 0)
        (db.memberControls.find? (roomId, subject)) ∧
      CommitsWith cfg (db.setControl row)
        (webhookRow (rd.uuid 1) .memberModerationUpdated roomId subject (rd.now 0)
          (.memberModerationUpdated actor
            { roomId := roomId, subject := subject, mutedUntil := row.mutedUntil,
              bannedUntil := row.bannedUntil, updatedAt := rd.now 0 }))
        db' := by
  unfold setMemberModeration at h
  simp only [Tx.returns_bind, Tx.returns_read, Tx.returns_orRaise, Tx.returns_write,
    Tx.returns_pure, returns_insertWebhook] at h
  obtain ⟨_, _, ⟨rfl, rfl⟩, room, _, ⟨hfind, rfl⟩, _, _, ⟨rfl, rfl⟩, _, _, rfl, _, _, haudit, _, _,
    ⟨t, hgains, rfl⟩, rfl, rfl⟩ := h
  obtain ⟨hmem, hkey⟩ := Table.find?_eq_some.mp hfind
  exact ⟨⟨room, hmem, hkey⟩, _, rfl, CommitsWith.of_same (insertAudit_same haudit) hgains⟩

/-! ## Read cursors -/

/-- One signed subject's monotonic room cursor and derived unread count. -/
structure ReadState where
  roomId : String
  subject : String
  lastReadMessageId : Option String
  lastReadAt : Option Timestamp
  unreadCount : Nat
  deriving DecidableEq

/-- Content-free read progress for one explicitly requested room participant. -/
structure ReadReceipt where
  subject : String
  lastReadMessageId : Option String
  lastReadMessageAt : Option Timestamp
  lastReadAt : Option Timestamp
  deriving DecidableEq

/-- The `ReadReceipt` constructor. -/
def ReadReceipt.build (raw : ReadReceipt) : Except ValidationError ReadReceipt :=
  if ¬ actorLengthOk (stripWhitespace raw.subject) then
    .error ⟨"subject", "String should have 1 to 64 characters"⟩
  else if raw.lastReadMessageId.isNone ≠ raw.lastReadMessageAt.isNone then
    .error ⟨"", "last_read_message_id and last_read_message_at must both be set or both be null"⟩
  else if raw.lastReadMessageId.isSome ∧ raw.lastReadAt.isNone then
    .error ⟨"", "last_read_at is required when a message cursor is set"⟩
  else
    .ok
      { raw with
        subject := stripWhitespace raw.subject
        lastReadMessageId := raw.lastReadMessageId.map stripWhitespace }

theorem ReadReceipt.build_ok {raw receipt : ReadReceipt} (h : raw.build = .ok receipt) :
    receipt = { raw with
      subject := stripWhitespace raw.subject
      lastReadMessageId := raw.lastReadMessageId.map stripWhitespace } := by
  unfold ReadReceipt.build at h
  split_ifs at h
  exact (Except.ok.inj h).symm

/-- Internal read-state write result used to suppress duplicate receipt events. -/
structure ReadStateMutation where
  state : ReadState
  receipt : ReadReceipt
  changed : Bool
  deriving DecidableEq

/-- The messages a subject could have unread: live ones by other authors. -/
def unreadCandidate (roomId subject : String) (r : MessageRow) : Prop :=
  r.roomId = roomId ∧ r.deletedAt = none ∧
    (r.authorSubject = none ∨ r.authorSubject ≠ some subject)

instance (roomId subject : String) : DecidablePred (unreadCandidate roomId subject) := by
  intro r
  unfold unreadCandidate
  infer_instance

/-- A message lies after a stored cursor. -/
def afterCursor (cursor : ReadStateRow) (r : MessageRow) : Prop :=
  cursor.messageCreatedAt < r.createdAt ∨
    (r.createdAt = cursor.messageCreatedAt ∧ cursor.messageId.getD "" < r.id)

instance (cursor : ReadStateRow) : DecidablePred (afterCursor cursor) := by
  intro r
  unfold afterCursor
  infer_instance

/-- `_read_state_from_connection`. -/
def readState (roomId subject : String) (db : Database) : ReadState :=
  match db.readStates.find? (roomId, subject) with
  | none =>
      { roomId := stripWhitespace roomId, subject := stripWhitespace subject,
        lastReadMessageId := none, lastReadAt := none,
        unreadCount := db.messages.countWhere (unreadCandidate roomId subject) }
  | some cursor =>
      { roomId := stripWhitespace roomId, subject := stripWhitespace subject,
        lastReadMessageId := cursor.messageId.map stripWhitespace,
        lastReadAt := some cursor.updatedAt,
        unreadCount := db.messages.countWhere fun r =>
          unreadCandidate roomId subject r ∧ afterCursor cursor r }

/-- The newest message of a room by `created_at DESC, id DESC`. -/
def newestMessage (roomId : String) (db : Database) : Option MessageRow :=
  (firstBy (fun a b => messageOldestFirst b a) 1
    (db.messages.rows.filter fun r => r.roomId = roomId)).head?

/-- The row a read call points its cursor at. -/
def readTarget (roomId : String) (messageId : Option String) : StoreTx (Option MessageRow) :=
  match messageId with
  | none => Tx.read (newestMessage roomId)
  | some messageId => do
      let row ← requireMessage roomId messageId
      pure (some row)

theorem readTarget_same {roomId : String} {messageId : Option String} {db db' : Database}
    {target : Option MessageRow} (h : Tx.Returns (readTarget roomId messageId) db target db') :
    db' = db := by
  unfold readTarget at h
  cases messageId with
  | none => exact (Tx.returns_read.mp h).2
  | some messageId =>
      simp only [Tx.returns_bind, returns_requireMessage, Tx.returns_pure] at h
      obtain ⟨_, _, ⟨-, rfl⟩, -, rfl⟩ := h
      rfl

/-- A read call points at a message of its room. -/
theorem readTarget_mem {roomId : String} {messageId : Option String} {db db' : Database}
    {row : MessageRow} (h : Tx.Returns (readTarget roomId messageId) db (some row) db') :
    row ∈ db.messages := by
  unfold readTarget at h
  cases messageId with
  | none =>
      have hnewest := (Tx.returns_read.mp h).1
      have hmem := mem_of_mem_firstBy (List.mem_of_mem_head? hnewest.symm)
      exact (List.mem_filter.mp hmem).1
  | some messageId =>
      simp only [Tx.returns_bind, returns_requireMessage, Tx.returns_pure] at h
      obtain ⟨_, _, ⟨⟨hmem, -⟩, -⟩, hrow, -⟩ := h
      rw [Option.some.inj hrow]
      exact hmem

/-- `(created_at, id or "") > (created_at', id' or "")` of two cursors. -/
def cursorLt (a b : Timestamp × String) : Prop :=
  a.1 < b.1 ∨ (a.1 = b.1 ∧ a.2 < b.2)

instance (a b : Timestamp × String) : Decidable (cursorLt a b) := by
  unfold cursorLt
  infer_instance

/-- The position a stored cursor stands for. -/
def ReadStateRow.position (r : ReadStateRow) : Timestamp × String :=
  (r.messageCreatedAt, r.messageId.getD "")

/-- A read call stores its candidate when there is no cursor or it lies behind. -/
def cursorAdvances (existing : Option ReadStateRow) (candidate : ReadStateRow) : Bool :=
  match existing with
  | none => true
  | some row => decide (cursorLt row.position candidate.position)

/-- The cursor that points at a message of the room, or at its end when it is empty. -/
def readCandidate (roomId subject : String) (now : Timestamp) (target : Option MessageRow) :
    ReadStateRow :=
  { roomId := roomId
    subject := subject
    messageId := target.map MessageRow.id
    messageCreatedAt := (target.map MessageRow.createdAt).getD now
    updatedAt := now }

/-- The receipt of `_mark_read_sync`, from the state it read back. -/
def markReceipt (subject : String) (candidate : ReadStateRow) (existing : Option ReadStateRow)
    (state : ReadState) : ReadReceipt :=
  { subject := subject
    lastReadMessageId := state.lastReadMessageId
    lastReadMessageAt := state.lastReadMessageId.map fun _ =>
      if cursorAdvances existing candidate = true then candidate.messageCreatedAt
      else (existing.map ReadStateRow.messageCreatedAt).getD candidate.messageCreatedAt
    lastReadAt := state.lastReadAt }

/-- Store the candidate when it advances the cursor. -/
def Database.advanceCursor (existing : Option ReadStateRow) (candidate : ReadStateRow)
    (db : Database) : Database :=
  if cursorAdvances existing candidate = true then
    { db with readStates := db.readStates.upsert candidate }
  else db

/-- `_mark_read_sync`. -/
def markRead (cfg : Config) (rd : Readings) (roomId subject : String)
    (messageId : Option String) : StoreTx ReadStateMutation := do
  let room ← Tx.read fun db => db.rooms.find? roomId
  let _ ← Tx.orRaise room (.roomNotFound roomId)
  let target ← readTarget roomId messageId
  let candidate := readCandidate roomId subject (rd.now 0) target
  let existing ← Tx.read fun db => db.readStates.find? (roomId, subject)
  let count ← Tx.read fun db => db.readStates.countWhere fun r => r.roomId = roomId
  Tx.require (existing ≠ none ∨ count < cfg.maxReadStatesPerRoom) (.readStateCapacity roomId)
  Tx.write (Database.advanceCursor existing candidate)
  let state ← Tx.read (readState roomId subject)
  let receipt ← validated (markReceipt subject candidate existing state).build
  pure { state := state, receipt := receipt, changed := cursorAdvances existing candidate }

/-- `_clear_read_state_sync`. -/
def clearReadState (roomId subject : String) : StoreTx Bool := do
  let room ← Tx.read fun db => db.rooms.find? roomId
  let _ ← Tx.orRaise room (.roomNotFound roomId)
  let existing ← Tx.read fun db => (db.readStates.find? (roomId, subject)).isSome
  Tx.write fun db =>
    { db with readStates := db.readStates.deleteWhere fun r => r.key = (roomId, subject) }
  pure existing

/-- Two databases that differ in their read cursors at most. -/
def SameButReadStates (db db' : Database) : Prop :=
  ∃ t, db' = { db with readStates := t }

/-- What a successful read call did. -/
structure Marked (cfg : Config) (rd : Readings) (roomId subject : String)
    (messageId : Option String) (db : Database) (mutation : ReadStateMutation) (db' : Database) :
    Prop where
  room : ∃ room ∈ db.rooms, room.key = roomId
  effect : ∃ target, Tx.Returns (readTarget roomId messageId) db target db ∧
    db' = db.advanceCursor (db.readStates.find? (roomId, subject))
      (readCandidate roomId subject (rd.now 0) target) ∧
    mutation.state = readState roomId subject db' ∧
    (markReceipt subject (readCandidate roomId subject (rd.now 0) target)
      (db.readStates.find? (roomId, subject)) mutation.state).build = .ok mutation.receipt ∧
    mutation.changed = cursorAdvances (db.readStates.find? (roomId, subject))
      (readCandidate roomId subject (rd.now 0) target)

theorem markRead_marked {cfg : Config} {rd : Readings} {roomId subject : String}
    {messageId : Option String} {db db' : Database} {mutation : ReadStateMutation}
    (h : Tx.Returns (markRead cfg rd roomId subject messageId) db mutation db') :
    Marked cfg rd roomId subject messageId db mutation db' := by
  unfold markRead at h
  simp only [Tx.returns_bind, Tx.returns_read, Tx.returns_orRaise, Tx.returns_require,
    Tx.returns_write, Tx.returns_pure, returns_validated] at h
  obtain ⟨_, _, ⟨rfl, rfl⟩, room, _, ⟨hfind, rfl⟩, target, _, htarget, _, _, ⟨rfl, rfl⟩, _, _,
    ⟨rfl, rfl⟩, _, _, ⟨-, rfl⟩, _, _, rfl, _, _, ⟨rfl, rfl⟩, receipt, _, ⟨hreceipt, rfl⟩, rfl,
    rfl⟩ := h
  have hsame := readTarget_same htarget
  subst hsame
  obtain ⟨hmem, hkey⟩ := Table.find?_eq_some.mp hfind
  exact ⟨⟨room, hmem, hkey⟩, target, htarget, rfl, rfl, hreceipt, rfl⟩

theorem Database.advanceCursor_same (existing : Option ReadStateRow) (candidate : ReadStateRow)
    (db : Database) : SameButReadStates db (db.advanceCursor existing candidate) := by
  unfold Database.advanceCursor
  split
  · exact ⟨_, rfl⟩
  · exact ⟨_, rfl⟩

theorem markRead_ok {cfg : Config} {rd : Readings} {roomId subject : String}
    {messageId : Option String} {db db' : Database} {mutation : ReadStateMutation}
    (h : Tx.Returns (markRead cfg rd roomId subject messageId) db mutation db') :
    SameButReadStates db db' := by
  obtain ⟨target, -, rfl, -⟩ := (markRead_marked h).effect
  exact db.advanceCursor_same _ _

theorem clearReadState_states {roomId subject : String} {db db' : Database} {removed : Bool}
    (h : Tx.Returns (clearReadState roomId subject) db removed db') :
    db' = { db with
      readStates := db.readStates.deleteWhere fun r => r.key = (roomId, subject) } := by
  unfold clearReadState at h
  simp only [Tx.returns_bind, Tx.returns_read, Tx.returns_orRaise, Tx.returns_write,
    Tx.returns_pure] at h
  obtain ⟨_, _, ⟨rfl, rfl⟩, _, _, ⟨-, rfl⟩, _, _, ⟨rfl, rfl⟩, _, _, rfl, -, rfl⟩ := h
  rfl

theorem clearReadState_ok {roomId subject : String} {db db' : Database} {removed : Bool}
    (h : Tx.Returns (clearReadState roomId subject) db removed db') :
    SameButReadStates db db' :=
  ⟨_, clearReadState_states h⟩

end Store
end ChatEngine
