import ChatEngine.Lib.Table
import ChatEngine.Lib.Transaction
import ChatEngine.Models.Message

/-!
# The SQLite database of the chat store

The tables with their keys, the rows with the columns the engine reads, and the
statements several operations share.

* JSON columns hold the value their text decodes to; `messageFromRow` is the
  decoder every read goes through.
* Deleting messages cascades to their reactions and clears the parent reference
  of their replies, as the foreign keys say (`Database.deleteMessages`).
* The three scrubs of the outbox are one function of the rows they select
  (`scrub`): pending rows go, finished rows lose their payload.
-/

namespace ChatEngine
namespace Store

open Lib
open Models

/-! ## Rows -/

/-- A row of `rooms`. -/
structure RoomRow where
  id : RoomId
  name : String
  description : String
  createdAt : Timestamp
  archivedAt : Option Timestamp := none
  frozenAt : Option Timestamp := none
  deriving DecidableEq

/-- The primary key of `rooms`. -/
def RoomRow.key (r : RoomRow) : String := r.id.val

/-- A row of `messages`. -/
structure MessageRow where
  id : String
  roomId : String
  sender : String
  authorSubject : Option String := none
  content : String
  createdAt : Timestamp
  clientMessageId : Option String := none
  parentMessageId : Option String := none
  reactions : List ReactionSummary := []
  pinnedAt : Option Timestamp := none
  pinnedBy : Option String := none
  metadata : MessageMetadata := []
  attachments : List AttachmentReference := []
  mentionedSubjects : List String := []
  editedAt : Option Timestamp := none
  deletedAt : Option Timestamp := none
  deriving DecidableEq

/-- A row of `message_reactions`. -/
structure ReactionRow where
  messageId : String
  roomId : String
  reactor : String
  reactionKey : String
  createdAt : Timestamp
  deriving DecidableEq

/-- The primary key of `message_reactions`. -/
def ReactionRow.key (r : ReactionRow) : String × String × String :=
  (r.messageId, r.reactor, r.reactionKey)

/-- The actions the audit trail names. -/
inductive AuditAction where
  | roomCreated
  | roomArchived
  | roomUnarchived
  | roomFrozen
  | roomUnfrozen
  | roomDeleted
  | roomExportRequested
  | messageUpdated
  | messageDeleted
  | messagePinUpdated
  | memberModerationUpdated
  | retentionAutomatic
  | retentionExecuted
  deriving DecidableEq, Repr

/-- The `details_json` object of an audit row. -/
inductive AuditDetails where
  | none
  | deletedMessages (count : Nat)
  | message (messageId : String)
  | pin (messageId : String) (pinned : Bool)
  | moderation (subject : String) (mutedUntil bannedUntil : Option Timestamp)
  | automatic (ageDeleted globalCapDeleted roomCapDeleted : Nat) (triggerRoomId : String)
      (cutoff : Option Timestamp)
  | executed (deletedMessages : Nat) (cutoff : Timestamp)
  deriving DecidableEq, Repr

/-- A row of `audit_events`. -/
structure AuditRow where
  id : String
  action : AuditAction
  actor : String
  roomId : Option String := Option.none
  createdAt : Timestamp
  details : AuditDetails := .none
  deriving DecidableEq

/-- A row of `room_member_controls`. -/
structure MemberControlRow where
  roomId : String
  subject : String
  mutedUntil : Option Timestamp
  bannedUntil : Option Timestamp
  updatedAt : Timestamp
  deriving DecidableEq

/-- The primary key of `room_member_controls`. -/
def MemberControlRow.key (r : MemberControlRow) : String × String := (r.roomId, r.subject)

/-- A row of `room_read_states`. -/
structure ReadStateRow where
  roomId : String
  subject : String
  messageId : Option String
  messageCreatedAt : Timestamp
  updatedAt : Timestamp
  deriving DecidableEq

/-- The primary key of `room_read_states`. -/
def ReadStateRow.key (r : ReadStateRow) : String × String := (r.roomId, r.subject)

/-! ## The outbox -/

/-- The event types of the outbox, `WEBHOOK_EVENT_TYPES`. -/
inductive EventType where
  | messageCreated
  | messageUpdated
  | messageDeleted
  | messageReactionUpdated
  | messagePinUpdated
  | memberModerationUpdated
  deriving DecidableEq, Repr

/-- `event_type LIKE 'message.%'`. -/
def EventType.isMessage : EventType → Bool
  | .memberModerationUpdated => false
  | _ => true

/-- The event-specific part of an envelope. -/
inductive WebhookData where
  | messageCreated (message : Message)
  | messageUpdated (actor : String) (message : Message)
  | messageDeleted (actor : String) (message : Message)
  | messageReactionUpdated (mutation : ReactionMutation)
  | messagePinUpdated (mutation : PinMutation)
  | memberModerationUpdated (actor : String) (moderation : MemberModeration)
  deriving DecidableEq

/-- The message an event embeds. -/
def WebhookData.message? : WebhookData → Option Message
  | .messageCreated m => some m
  | .messageUpdated _ m => some m
  | .messageDeleted _ m => some m
  | .messageReactionUpdated mutation => some mutation.message
  | .messagePinUpdated mutation => some mutation.message
  | .memberModerationUpdated _ _ => none

/-- The JSON object of `payload_json`. -/
structure WebhookEnvelope where
  id : String
  type : EventType
  timestamp : Timestamp
  roomId : String
  data : WebhookData
  deriving DecidableEq

/-- A row of `webhook_deliveries`. -/
structure WebhookRow where
  id : String
  eventType : EventType
  roomId : String
  resourceId : String
  createdAt : Timestamp
  payload : Option WebhookEnvelope
  attemptCount : Nat := 0
  nextAttemptAt : Option Timestamp
  lastAttemptAt : Option Timestamp := none
  deliveredAt : Option Timestamp := none
  failedAt : Option Timestamp := none
  lastStatusCode : Option Int := none
  lastError : Option String := none
  deriving DecidableEq

/-- `delivered_at IS NOT NULL OR failed_at IS NOT NULL`. -/
def WebhookRow.Finished (r : WebhookRow) : Prop :=
  r.deliveredAt.isSome ∨ r.failedAt.isSome

instance (r : WebhookRow) : Decidable r.Finished := by
  unfold WebhookRow.Finished
  infer_instance

abbrev WebhookTable := Table WebhookRow String WebhookRow.id

/-- Delete the selected pending rows and null the payload of the selected finished ones. -/
def scrub (t : WebhookTable) (p : WebhookRow → Prop) [DecidablePred p] : WebhookTable :=
  (t.deleteWhere fun r => p r ∧ ¬ r.Finished).updateWhere
    (fun r => p r ∧ r.Finished) (fun r => { r with payload := none }) fun _ => rfl

/-- What a scrub leaves: the rows it did not select, and the selected finished
ones without their payload. -/
theorem mem_scrub {t : WebhookTable} {p : WebhookRow → Prop} [DecidablePred p] {r : WebhookRow} :
    r ∈ scrub t p ↔
      (r ∈ t ∧ ¬ p r) ∨ ∃ s ∈ t, p s ∧ s.Finished ∧ r = { s with payload := none } := by
  unfold scrub
  rw [Table.mem_updateWhere]
  constructor
  · rintro (⟨hr, hp⟩ | ⟨s, hs, ⟨hp, hfin⟩, rfl⟩)
    · obtain ⟨hrt, hkeep⟩ := Table.mem_deleteWhere.mp hr
      refine .inl ⟨hrt, fun hpr => ?_⟩
      by_cases hfin : r.Finished
      · exact hp ⟨hpr, hfin⟩
      · exact hkeep ⟨hpr, hfin⟩
    · exact .inr ⟨s, (Table.mem_deleteWhere.mp hs).1, hp, hfin, rfl⟩
  · rintro (⟨hr, hp⟩ | ⟨s, hs, hp, hfin, rfl⟩)
    · exact .inl ⟨Table.mem_deleteWhere.mpr ⟨hr, fun h => hp h.1⟩, fun h => hp h.1⟩
    · exact .inr ⟨s, Table.mem_deleteWhere.mpr ⟨hs, fun h => h.2 hfin⟩, ⟨hp, hfin⟩, rfl⟩

theorem count_scrub_le (t : WebhookTable) (p : WebhookRow → Prop) [DecidablePred p] :
    (scrub t p).count ≤ t.count := by
  unfold scrub
  rw [Table.count_updateWhere]
  exact Table.count_deleteWhere_le _ _

/-- A row that still has a payload after a scrub was there before, and was not
selected. -/
theorem mem_scrub_payload {t : WebhookTable} {p : WebhookRow → Prop} [DecidablePred p]
    {r : WebhookRow} (hr : r ∈ scrub t p) (hpayload : r.payload ≠ none) : r ∈ t ∧ ¬ p r := by
  rcases mem_scrub.mp hr with h | ⟨s, -, -, -, rfl⟩
  · exact h
  · exact absurd rfl hpayload

/-! ## The database -/

/-- The committed content of the SQLite file. -/
structure Database where
  rooms : Table RoomRow String RoomRow.key := ∅
  messages : Table MessageRow String MessageRow.id := ∅
  reactions : Table ReactionRow (String × String × String) ReactionRow.key := ∅
  auditEvents : Table AuditRow String AuditRow.id := ∅
  memberControls : Table MemberControlRow (String × String) MemberControlRow.key := ∅
  readStates : Table ReadStateRow (String × String) ReadStateRow.key := ∅
  webhooks : WebhookTable := ∅

/-- What the store was configured with. -/
structure Config where
  maxRooms : Nat
  maxStoredMessages : Nat
  maxStoredMessagesPerRoom : Nat
  maxReadStatesPerRoom : Nat := 10_000
  messageRetentionDays : Option Nat := none
  maxAuditEvents : Nat := 100_000
  webhookEvents : List EventType := []
  maxWebhookDeliveries : Nat := 100_000

/-- What one call reads from outside the database: `now i` and `uuid i` are the
values at its `i`-th call of `datetime.now` and of `uuid4().hex`. -/
structure Readings where
  now : Nat → Timestamp
  uuid : Nat → UuidHex

/-- The readings of a call made at one instant, with ids counted from `n`. -/
def Readings.fixed (t : Timestamp) (n : Nat) : Readings where
  now _ := t
  uuid i := UuidHex.ofNat (n + i)

/-- The errors the operations raise. -/
inductive StoreError where
  | roomAlreadyExists (roomId : String)
  | roomCapacity (message : String)
  | roomNotFound (roomId : String)
  | roomArchived (roomId : String)
  | roomFrozen (roomId : String)
  | roomNotArchived (roomId : String)
  | messageNotFound (messageId : String)
  | messageDeleted (messageId : String)
  | threadDepth (parentMessageId : String)
  | invalidCursor (before : String)
  | reactionCapacity (messageId : String)
  | messageOwnership (messageId : String)
  | memberMuted (subject : String)
  | memberBanned (subject : String)
  | readStateCapacity (roomId : String)
  | webhookCapacity (message : String)
  | webhookDeliveryNotFound (deliveryId : String)
  | webhookPayloadUnavailable (deliveryId : String)
  | retentionNotConfigured (message : String)
  /-- A `CHECK` constraint failed. -/
  | check
  /-- A key, a foreign key or a unique index failed. -/
  | integrity
  | validation (error : ValidationError)
  | runtime (message : String)
  | value (message : String)
  deriving DecidableEq, Repr

/-- A transaction of the store. -/
abbrev StoreTx := Tx StoreError Database

/-- Raise what a model's constructor raises. -/
def validated {α : Type} (x : Except ValidationError α) : StoreTx α :=
  Tx.lift (x.mapError StoreError.validation)

@[simp] theorem returns_validated {α : Type} {x : Except ValidationError α}
    {db db' : Database} {a : α} :
    Tx.Returns (validated x) db a db' ↔ x = .ok a ∧ db' = db := by
  unfold validated
  rw [Tx.returns_lift]
  cases x with
  | error e => simp [Except.mapError]
  | ok b => simp [Except.mapError]

/-! ## Reading rows -/

/-- The constructor call of `_message_from_row`, given the decoded lists. -/
def MessageRow.raw (row : MessageRow) (reactions : List ReactionSummary)
    (attachments : List AttachmentReference) : Message :=
  { id := row.id
    roomId := row.roomId
    sender := row.sender
    content := row.content
    createdAt := row.createdAt
    clientMessageId := row.clientMessageId
    parentMessageId := row.parentMessageId
    reactions := reactions
    pinnedAt := row.pinnedAt
    pinnedBy := row.pinnedBy
    metadata := row.metadata
    attachments := attachments
    mentionedSubjects := row.mentionedSubjects
    editedAt := row.editedAt
    deletedAt := row.deletedAt }

/-- `_message_from_row`. -/
def messageFromRow (row : MessageRow) : Except ValidationError Message :=
  match validateEach ReactionSummary.validate row.reactions with
  | .error e => .error e
  | .ok reactions =>
      match validateEach AttachmentReference.validate row.attachments with
      | .error e => .error e
      | .ok attachments => (row.raw reactions attachments).build

/-- `_room_from_row`. -/
def roomFromRow (row : RoomRow) : Room :=
  { id := stripWhitespace row.id.val
    name := stripWhitespace row.name
    description := stripWhitespace row.description
    createdAt := row.createdAt
    archivedAt := row.archivedAt
    frozenAt := row.frozenAt }

/-- What a decoded message took from its row. -/
theorem messageFromRow_ok {row : MessageRow} {m : Message} (h : messageFromRow row = .ok m) :
    m.id = stripWhitespace row.id ∧ m.roomId = stripWhitespace row.roomId ∧
      m.content = stripWhitespace row.content ∧
      m.createdAt = row.createdAt ∧
      m.clientMessageId = row.clientMessageId.map stripWhitespace ∧
      m.pinnedAt = row.pinnedAt ∧ m.editedAt = row.editedAt ∧ m.deletedAt = row.deletedAt ∧
      m.pinMetadataError? = none := by
  unfold messageFromRow at h
  cases hre : validateEach ReactionSummary.validate row.reactions with
  | error e => simp [hre] at h
  | ok reactions =>
      cases hatt : validateEach AttachmentReference.validate row.attachments with
      | error e => simp [hre, hatt] at h
      | ok attachments =>
          simp only [hre, hatt] at h
          have hbuilt := Message.build_ok h
          exact ⟨hbuilt.id, hbuilt.roomId, hbuilt.content, hbuilt.createdAt,
            hbuilt.clientMessageId, hbuilt.pinnedAt, hbuilt.editedAt, hbuilt.deletedAt,
            hbuilt.pinMetadata⟩

/-! ## Deleting messages -/

/-- The parent reference after its `ON DELETE SET NULL`. -/
def MessageRow.forgetParents (ids : List String) (r : MessageRow) : MessageRow :=
  { r with parentMessageId := r.parentMessageId.filter fun parent => decide (parent ∉ ids) }

@[simp] theorem MessageRow.forgetParents_id (ids : List String) (r : MessageRow) :
    (r.forgetParents ids).id = r.id := rfl

@[simp] theorem MessageRow.forgetParents_nil (r : MessageRow) : r.forgetParents [] = r := by
  unfold MessageRow.forgetParents
  cases hparent : r.parentMessageId with
  | none =>
      cases r
      cases hparent
      rfl
  | some parent =>
      cases r
      cases hparent
      rfl

/-- `DELETE FROM messages` with what its foreign keys cascade to. -/
def Database.deleteMessages (ids : List String) (db : Database) : Database :=
  { db with
    messages := (db.messages.deleteWhere fun r => r.id ∈ ids).modify
      (MessageRow.forgetParents ids) (MessageRow.forgetParents_id ids)
    reactions := db.reactions.deleteWhere fun r => r.messageId ∈ ids }

theorem Database.mem_deleteMessages {ids : List String} {db : Database} {r : MessageRow} :
    r ∈ (db.deleteMessages ids).messages ↔
      ∃ s ∈ db.messages, s.id ∉ ids ∧ s.forgetParents ids = r := by
  unfold Database.deleteMessages
  rw [Table.mem_modify]
  simp only [Table.mem_deleteWhere]
  constructor
  · rintro ⟨s, ⟨hs, hkeep⟩, hr⟩
    exact ⟨s, hs, hkeep, hr⟩
  · rintro ⟨s, hs, hkeep, hr⟩
    exact ⟨s, ⟨hs, hkeep⟩, hr⟩

/-- The rows a deletion batch selects from the outbox. -/
def inBatch (batch : List MessageRow) (r : WebhookRow) : Prop :=
  r.eventType.isMessage = true ∧ ∃ m ∈ batch, m.id = r.resourceId ∧ m.roomId = r.roomId

instance (batch : List MessageRow) : DecidablePred (inBatch batch) := by
  intro r
  unfold inBatch
  infer_instance

/-- Scrub and delete one batch of messages. -/
def Database.removeBatch (batch : List MessageRow) (db : Database) : Database :=
  { db with webhooks := scrub db.webhooks (inBatch batch) }.deleteMessages (batch.map MessageRow.id)

/-- `_delete_messages_with_webhook_scrub`: the number of deleted messages. -/
def deleteMessagesWithWebhookScrub (select : Database → List MessageRow) : StoreTx Nat := do
  let batch ← Tx.read select
  if batch.length = 0 then
    pure 0
  else
    Tx.write (Database.removeBatch batch)
    pure batch.length

@[simp] theorem Database.removeBatch_nil (db : Database) : db.removeBatch [] = db := by
  unfold Database.removeBatch Database.deleteMessages
  have hscrub : scrub db.webhooks (inBatch []) = db.webhooks := by
    apply Table.ext
    have hnone : ∀ r : WebhookRow, ¬ inBatch [] r := by
      rintro r ⟨-, m, hm, -⟩
      cases hm
    change ((db.webhooks.rows.filter _).map _) = _
    simp [hnone]
  have hmessages : (db.messages.deleteWhere fun r => r.id ∈ ([] : List String)).modify
      (MessageRow.forgetParents []) (MessageRow.forgetParents_id []) = db.messages := by
    apply Table.ext
    change ((db.messages.rows.filter _).map _) = _
    have hid : MessageRow.forgetParents [] = id := funext MessageRow.forgetParents_nil
    simp [hid]
  have hreactions : (db.reactions.deleteWhere fun r => r.messageId ∈ ([] : List String)) =
      db.reactions := Table.deleteWhere_eq_self (by simp)
  simp only [List.map_nil, hscrub, hmessages, hreactions]

@[simp] theorem returns_deleteMessagesWithWebhookScrub {select : Database → List MessageRow}
    {db db' : Database} {n : Nat} :
    Tx.Returns (deleteMessagesWithWebhookScrub select) db n db' ↔
      n = (select db).length ∧ db' = db.removeBatch (select db) := by
  unfold deleteMessagesWithWebhookScrub
  simp only [Tx.returns_bind, Tx.returns_read, Tx.returns_ite, Tx.returns_pure,
    Tx.returns_write]
  constructor
  · rintro ⟨batch, t, ⟨rfl, rfl⟩, ⟨hempty, rfl, rfl⟩ | ⟨-, -, -, rfl, rfl, rfl⟩⟩
    · rw [List.length_eq_zero_iff.mp hempty]
      simp
    · exact ⟨rfl, rfl⟩
  · rintro ⟨rfl, rfl⟩
    refine ⟨select db, db, ⟨rfl, rfl⟩, ?_⟩
    by_cases hempty : (select db).length = 0
    · have hnil : select db = [] := List.length_eq_zero_iff.mp hempty
      simp [hnil]
    · exact .inr ⟨hempty, (), _, rfl, rfl, rfl⟩

end Store
end ChatEngine
