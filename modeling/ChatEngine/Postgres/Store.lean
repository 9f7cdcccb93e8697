import ChatEngine.Postgres.Database

/-!
# The PostgreSQL chat store

Every operation of `PostgresChatStore` as the stages its transaction goes
through.  A stage begins where the source takes a lock that decides what it may
read next: the room row, the message capacity lock, a message row, and the
sequence lock of the event log.

* `Stage` and `Stage.body`, the statements between two such locks;
* `runStages` and `pgExec`, the transaction run without interruption;
* `PgStep` and `PgReachable`, sequences of transactions.

The advisory locks of the audit trail and of the outbox only keep transactions
apart that these stages let run side by side, and are left out.
-/

namespace ChatEngine
namespace Postgres

open Lib
open Models
open Store

/-! ## Calls -/

/-- The write operations of the PostgreSQL deployment.  `pruneEvents` is log
maintenance with the sequences it selected, and `notify` an event of the
presence and typing registries. -/
inductive PgCommand where
  | createRoom (payload : RoomCreate) (actor : String)
  | setRoomState (roomId : String) (archived frozen : Option Bool) (actor : String)
  | deleteRoom (roomId actor : String)
  | prepareExport (roomId actor : String)
  | createMessage (args : CreateMessage)
  | updateMessage (args : UpdateMessage)
  | deleteMessage (args : DeleteMessage)
  | setMessageReaction (args : SetMessageReaction)
  | setMessagePin (args : SetMessagePin)
  | setMemberModeration (roomId subject : String) (payload : MemberModerationUpdate)
      (actor : String)
  | markRead (roomId subject : String) (messageId : Option String)
  | clearReadState (roomId subject : String)
  | nextWebhookDelivery (worker : String) (skipped : List String)
  | recordWebhookAttempt (worker deliveryId : String) (attempt : WebhookAttempt)
  | retryWebhookDelivery (deliveryId : String)
  | runRetention (actor : String)
  | pruneEvents (sequences : List Nat)
  | notify (roomId eventType : String)

/-- What the operations return. -/
inductive PgReply where
  | tables (reply : Reply)
  | pending (delivery : Option PendingWebhook)
  deriving DecidableEq

/-- An event still to be appended. -/
structure EventDraft where
  roomId : String
  body : EventBody
  deriving DecidableEq

/-- How far a transaction has come: `begin` before its first lock, `inRoom` with
the room row locked and checked, `capped` with the message capacity lock,
`announce` with only its events still to append, `commit` with nothing left. -/
inductive Stage where
  | begin (cmd : PgCommand)
  | inRoom (cmd : PgCommand)
  | capped (cmd : PgCommand)
  | announce (events : List EventDraft) (reply : PgReply)
  | commit (reply : PgReply)

/-- The transaction has not reached its announcement. -/
def Stage.Early : Stage → Prop
  | begin _ | inRoom _ | capped _ => True
  | announce _ _ | commit _ => False

/-- The events a transaction still has to append. -/
def Stage.drafts : Stage → List EventDraft
  | announce events _ => events
  | _ => []

/-! ## Creating a message -/

/-- `SELECT … WHERE room_id = … AND client_message_id = …`. -/
def findByClientId (roomId : String) (clientMessageId : Option String) (db : Database) :
    Option MessageRow :=
  match clientMessageId with
  | none => none
  | some key =>
      db.messages.rows.find? fun r =>
        decide (r.roomId = roomId ∧ r.clientMessageId = some key)

/-- `jsonb` keeps the members of an object by the length of their name, then by name. -/
def jsonbObject (metadata : MessageMetadata) : MessageMetadata :=
  metadata.insertionSort fun a b =>
    a.1.utf8ByteSize < b.1.utf8ByteSize ∨ (a.1.utf8ByteSize = b.1.utf8ByteSize ∧ a.1 ≤ b.1)

/-- The row of `_CREATE_MESSAGE_SQL`. -/
def newPgRow (args : CreateMessage) (id : UuidHex) (createdAt : Timestamp) : MessageRow :=
  { id := id.text
    roomId := args.roomId
    sender := args.sender
    authorSubject := args.authorSubject
    content := args.content
    createdAt := createdAt
    clientMessageId := args.clientMessageId
    parentMessageId := args.parentMessageId
    metadata := jsonbObject args.metadata
    attachments := args.attachments
    mentionedSubjects := args.mentionedSubjects }

/-- The checks of `create_message` under the room lock, and its retry path. -/
def createBegin (rd : PgReadings) (args : CreateMessage) : PgTx Stage := do
  onTables (requireOpenRoom args.roomId args.allowFrozen)
  onTables (enforceMemberWrite args.roomId args.memberSubject (rd.now 0))
  let existing ← Tx.read fun db =>
    findByClientId args.roomId args.clientMessageId db.toDatabase
  match existing with
  | some row => do
      let message ← onTables (validated (messageFromRow row))
      pure (.commit (.tables (.message message false)))
  | none => pure (.inRoom (.createMessage args))

/-- One pass of `_trim_messages`: delete, and scrub the log. -/
def trimPass (select : Database → List MessageRow) : PgTx (List MessageRow) := do
  let batch ← deletePgMessages select
  scrubEvents batch
  pure batch

/-- `_trim_messages`. -/
def trimPgMessages (cfg : PgConfig) (roomId : String) (now : Timestamp) (auditId : UuidHex)
    (auditAt : Timestamp) : PgTx Unit := do
  let aged ← trimPass (pastAge cfg.store now)
  let capped ← trimPass (pastRoomCap cfg.store roomId)
  let overflow ← trimPass (pastGlobalCap cfg.store)
  if aged = [] ∧ capped = [] ∧ overflow = [] then
    pure ()
  else do
    insertPgAudit cfg auditId auditAt .retentionAutomatic "system:retention" none
      (.automatic aged.length overflow.length capped.length roomId
        (retentionCutoff cfg.store now))
    scrubWebhooks (aged ++ capped ++ overflow)

/-- `create_message` from its parent check to its outbox row. -/
def createCapped (cfg : PgConfig) (rd : PgReadings) (args : CreateMessage) : PgTx Stage := do
  onTables (requireParent args.roomId args.parentMessageId)
  insertPgMessage cfg (newPgRow args (rd.uuid 0) (rd.now 1))
  let message ← onTables (validated (messageFromRow (newPgRow args (rd.uuid 0) (rd.now 1))))
  trimPgMessages cfg args.roomId message.createdAt (rd.uuid 1) (rd.now 2)
  let persisted ← Tx.read fun db => db.messages.find? message.id
  let persisted ← Tx.orRaise persisted (.runtime "newly created message was not retained")
  let message ← onTables (validated (messageFromRow persisted))
  insertPgWebhook cfg (rd.uuid 2) .messageCreated args.roomId message.id message.createdAt
    (.messageCreated message)
  pure (.announce [⟨args.roomId, .messageCreated message⟩] (.tables (.message message true)))

/-! ## Editing and deleting a message -/

/-- The `UPDATE` of `_UPDATE_MESSAGE_SQL`. -/
def applyPgUpdate (args : UpdateMessage) (editedAt : Timestamp) (r : MessageRow) : MessageRow :=
  { r with
    content := args.content
    metadata := (args.metadata.map jsonbObject).getD r.metadata
    mentionedSubjects := args.mentionedSubjects.getD r.mentionedSubjects
    editedAt := some editedAt }

@[simp] theorem applyPgUpdate_id (args : UpdateMessage) (editedAt : Timestamp) (r : MessageRow) :
    (applyPgUpdate args editedAt r).id = r.id := rfl

/-- `update_message` from its message lock to its outbox row. -/
def updateCapped (cfg : PgConfig) (rd : PgReadings) (args : UpdateMessage) : PgTx Stage := do
  let row ← onTables (requireMessage args.roomId args.messageId)
  Tx.require (row.deletedAt = none) (.messageDeleted args.messageId)
  Tx.require (args.isAdmin = true ∨ row.sender = args.actor) (.messageOwnership args.messageId)
  let message ← updatePgMessage cfg args.messageId (applyPgUpdate args (rd.now 1))
    (applyPgUpdate_id args (rd.now 1))
  insertPgAudit cfg (rd.uuid 0) (rd.now 2) .messageUpdated args.actor args.roomId
    (.message args.messageId)
  insertPgWebhook cfg (rd.uuid 1) .messageUpdated args.roomId message.id
    (message.editedAt.getD message.createdAt) (.messageUpdated args.actor message)
  pure (.announce [⟨args.roomId, .messageUpdated message⟩] (.tables (.message message true)))

/-- `DELETE FROM samsarix_message_reactions WHERE message_id = …`. -/
def PgDatabase.dropReactionsOf (messageId : String) (db : PgDatabase) : PgDatabase :=
  db.withTables (db.toDatabase.deleteReactionsOf messageId)

/-- `delete_message` of a live message, up to its outbox row. -/
def deletePgLive (cfg : PgConfig) (rd : PgReadings) (args : DeleteMessage) (row : MessageRow) :
    PgTx Stage := do
  Tx.write (PgDatabase.dropReactionsOf args.messageId)
  let message ← updatePgMessage cfg args.messageId (MessageRow.tombstone (rd.now 1))
    (MessageRow.tombstone_id (rd.now 1))
  scrubEvents [row]
  insertPgAudit cfg (rd.uuid 0) (rd.now 2) .messageDeleted args.actor args.roomId
    (.message args.messageId)
  scrubWebhooks [row]
  insertPgWebhook cfg (rd.uuid 1) .messageDeleted args.roomId message.id
    (message.deletedAt.getD message.createdAt) (.messageDeleted args.actor message)
  pure (.announce [⟨args.roomId, .messageDeleted message⟩] (.tables (.message message true)))

/-- `delete_message` from its message lock to its outbox row. -/
def deleteCapped (cfg : PgConfig) (rd : PgReadings) (args : DeleteMessage) : PgTx Stage := do
  let row ← onTables (requireMessage args.roomId args.messageId)
  Tx.require (args.isAdmin = true ∨ row.sender = args.actor) (.messageOwnership args.messageId)
  if row.deletedAt ≠ none then do
    let message ← onTables (validated (messageFromRow row))
    pure (.commit (.tables (.message message false)))
  else
    deletePgLive cfg rd args row

/-! ## Reactions and pins -/

/-- Store the recomputed reaction summary of a message. -/
def refreshPgReactions (cfg : PgConfig) (messageId : String) : PgTx Message := do
  let summaries ← Tx.read fun db => reactionSummaries messageId db.toDatabase
  let summaries ← onTables (validated (validateEach ReactionSummary.validate summaries))
  updatePgMessage cfg messageId (MessageRow.setReactions summaries)
    (MessageRow.setReactions_id summaries)

/-- `set_message_reaction` from its message lock to its outbox row. -/
def reactInRoom (cfg : PgConfig) (rd : PgReadings) (args : SetMessageReaction) : PgTx Stage := do
  let row ← onTables (requireMessage args.roomId args.messageId)
  Tx.require (row.deletedAt = none) (.messageDeleted args.messageId)
  let changed ← onTables (changeReaction args (rd.now 1))
  if changed = true then do
    let message ← refreshPgReactions cfg args.messageId
    let mutation ← onTables <| validated <| ReactionMutation.build
      { message := message, key := args.key, reactor := args.reactor,
        present := args.present, changed := true, updatedAt := rd.now 1 }
    insertPgWebhook cfg (rd.uuid 0) .messageReactionUpdated args.roomId args.messageId (rd.now 1)
      (.messageReactionUpdated mutation)
    pure (.announce [⟨args.roomId, .messageReactionUpdated mutation⟩]
      (.tables (.reaction mutation)))
  else do
    let message ← onTables (validated (messageFromRow row))
    let mutation ← onTables <| validated <| ReactionMutation.build
      { message := message, key := args.key, reactor := args.reactor,
        present := args.present, changed := false, updatedAt := rd.now 1 }
    pure (.commit (.tables (.reaction mutation)))

/-- `set_message_pin` from its message lock to its outbox row. -/
def pinInRoom (cfg : PgConfig) (rd : PgReadings) (args : SetMessagePin) : PgTx Stage := do
  let row ← onTables (requireMessage args.roomId args.messageId)
  Tx.require (row.deletedAt = none) (.messageDeleted args.messageId)
  if row.pinnedAt.isSome ≠ args.pinned then do
    let message ← updatePgMessage cfg args.messageId (args.apply (rd.now 1))
      (args.apply_id (rd.now 1))
    insertPgAudit cfg (rd.uuid 0) (rd.now 2) .messagePinUpdated args.actor args.roomId
      (.pin args.messageId args.pinned)
    let mutation ← onTables <| validated <| PinMutation.build
      { message := message, pinner := args.pinner, pinned := args.pinned, changed := true,
        updatedAt := rd.now 1 }
    insertPgWebhook cfg (rd.uuid 1) .messagePinUpdated args.roomId args.messageId (rd.now 1)
      (.messagePinUpdated mutation)
    pure (.announce [⟨args.roomId, .messagePinUpdated mutation⟩] (.tables (.pin mutation)))
  else do
    let message ← onTables (validated (messageFromRow row))
    let mutation ← onTables <| validated <| PinMutation.build
      { message := message, pinner := args.pinner, pinned := args.pinned, changed := false,
        updatedAt := rd.now 1 }
    pure (.commit (.tables (.pin mutation)))

/-! ## Rooms and retention -/

/-- The archived check of `delete_room`. -/
def deleteRoomBegin (roomId actor : String) : PgTx Stage := do
  let row ← Tx.read fun db => db.rooms.find? roomId
  let row ← Tx.orRaise row (.roomNotFound roomId)
  Tx.require (row.archivedAt ≠ none) (.roomNotArchived roomId)
  pure (.inRoom (.deleteRoom roomId actor))

/-- The messages of a room. -/
def messagesOf (roomId : String) (db : Database) : List MessageRow :=
  db.messages.rows.filter fun r => r.roomId = roomId

/-- `delete_room` under the message capacity lock. -/
def deleteRoomCapped (cfg : PgConfig) (rd : PgReadings) (roomId actor : String) :
    PgTx Stage := do
  let batch ← Tx.read fun db => messagesOf roomId db.toDatabase
  scrubEvents batch
  insertPgAudit cfg (rd.uuid 0) (rd.now 0) .roomDeleted actor roomId
    (.deletedMessages batch.length)
  Tx.write (PgDatabase.scrubOutbox fun r => r.roomId = roomId)
  Tx.write fun db => db.withTables (db.toDatabase.deleteRoom roomId)
  pure (.announce [⟨roomId, .other "room.deleted"⟩] (.tables (.count batch.length)))

/-- `run_retention` under the message capacity lock; `now 0` is the clock of its
cutoff. -/
def retentionCapped (cfg : PgConfig) (rd : PgReadings) (actor : String) : PgTx Stage :=
  match retentionCutoff cfg.store (rd.now 0) with
  | none => Tx.raise (.retentionNotConfigured "message retention is not configured")
  | some cutoff => do
      let batch ← trimPass (olderThan cutoff)
      insertPgAudit cfg (rd.uuid 0) (rd.now 1) .retentionExecuted actor none
        (.executed batch.length cutoff)
      scrubWebhooks batch
      pure (.commit (.tables (.retention batch.length cutoff)))

/-- The events of `set_room_state`, in the order of their names. -/
def roomStateEvents (roomId : String) (archived frozen : Option Bool) (changes : RoomChanges) :
    List EventDraft :=
  (if changes.archived = true then
    [⟨roomId, .other (if archived = some true then "room.archived" else "room.unarchived")⟩]
  else []) ++
  (if changes.frozen = true then
    [⟨roomId, .other (if frozen = some true then "room.frozen" else "room.unfrozen")⟩]
  else [])

/-! ## The outbox -/

/-- Nobody holds a live lease on the delivery. -/
def PgDatabase.Unleased (now : Timestamp) (db : PgDatabase) (deliveryId : String) : Prop :=
  ∀ lease ∈ db.leases.find? deliveryId, lease.expiresAt ≤ now

instance (now : Timestamp) (db : PgDatabase) : DecidablePred (db.Unleased now) := by
  intro deliveryId
  unfold PgDatabase.Unleased
  infer_instance

/-- The row `next_webhook_delivery` claims, passing over the rows other
transactions have locked. -/
def claimCandidate (now : Timestamp) (skipped : List String) (db : PgDatabase) :
    Option WebhookRow :=
  (firstBy dueOrder 1 (db.webhooks.rows.filter fun r =>
    r.Due now ∧ db.Unleased now r.id ∧ r.id ∉ skipped)).head?

/-- `next_webhook_delivery`. -/
def claimNext (cfg : PgConfig) (rd : PgReadings) (worker : String) (skipped : List String) :
    PgTx Stage := do
  let candidate ← Tx.read (claimCandidate (rd.now 0) skipped)
  match candidate with
  | none => pure (.commit (.pending none))
  | some row => do
      Tx.write fun db =>
        { db with
          leases := db.leases.upsert
            { deliveryId := row.id, owner := worker,
              expiresAt := rd.now 1 + seconds cfg.webhookLeaseSeconds } }
      pure (.commit (.pending (row.payload.map fun payload =>
        { delivery := webhookFromRow row, payload := payload })))

/-- The outcome in database time: the retry delay is kept, the error cut to its column. -/
def WebhookAttempt.atDatabase (now : Timestamp) (attempt : WebhookAttempt) : WebhookAttempt :=
  { attempt with
    attemptedAt := now
    nextAttemptAt := attempt.nextAttemptAt.map fun next => now + max 0 (next - attempt.attemptedAt)
    error := attempt.error.map fun text => (text.take 1000).toString }

/-- The worker holds a live lease on the delivery. -/
def PgDatabase.LeasedTo (worker : String) (now : Timestamp) (db : PgDatabase)
    (deliveryId : String) : Prop :=
  ∃ lease ∈ db.leases.find? deliveryId, lease.owner = worker ∧ now < lease.expiresAt

instance (worker : String) (now : Timestamp) (db : PgDatabase) :
    DecidablePred (db.LeasedTo worker now) := by
  intro deliveryId
  unfold PgDatabase.LeasedTo
  cases db.leases.find? deliveryId with
  | none => exact .isFalse (by simp)
  | some lease =>
      exact decidable_of_iff (lease.owner = worker ∧ now < lease.expiresAt) (by simp)

/-- Drop the lease of a delivery. -/
def PgDatabase.release (deliveryId : String) (db : PgDatabase) : PgDatabase :=
  { db with leases := db.leases.deleteWhere fun lease => lease.deliveryId = deliveryId }

/-- `record_webhook_attempt`. -/
def recordClaimed (rd : PgReadings) (worker deliveryId : String) (attempt : WebhookAttempt) :
    PgTx Stage := do
  Tx.require (¬ (attempt.delivered = true ∧ attempt.failed = true))
    (.value "a webhook attempt cannot be delivered and failed")
  let leased ← Tx.read fun db => decide (db.LeasedTo worker (rd.now 0) deliveryId)
  Tx.require (leased = true) (.webhookDeliveryNotFound deliveryId)
  onTables (recordWebhookAttempt deliveryId (WebhookAttempt.atDatabase (rd.now 0) attempt))
  Tx.write (PgDatabase.release deliveryId)
  pure (.commit (.tables .unit))

/-- `retry_webhook_delivery`. -/
def retryClaimed (rd : PgReadings) (deliveryId : String) : PgTx Stage := do
  let delivery ← onTables (retryWebhookDelivery rd.toReadings deliveryId)
  Tx.write (PgDatabase.release deliveryId)
  pure (.commit (.tables (.delivery delivery)))

/-! ## The stages -/

/-- From the start of the transaction to the end of its first locked part. -/
def PgCommand.begin (cfg : PgConfig) (rd : PgReadings) : PgCommand → PgTx Stage
  | createRoom payload actor => do
      let room ← onTables (Store.createRoom cfg.store rd.toReadings payload actor)
      pure (.announce [⟨room.id, .other "room.created"⟩] (.tables (.room room)))
  | setRoomState roomId archived frozen actor => do
      let (room, changes) ←
        onTables (Store.setRoomState cfg.store rd.toReadings roomId archived frozen actor)
      pure (.announce (roomStateEvents roomId archived frozen changes)
        (.tables (.roomState room changes)))
  | deleteRoom roomId actor => deleteRoomBegin roomId actor
  | prepareExport roomId actor => do
      onTables (recordExportRequested cfg.store rd.toReadings roomId actor)
      pure (.commit (.tables .unit))
  | createMessage args => createBegin rd args
  | updateMessage args => do
      onTables (requireOpenRoom args.roomId args.isAdmin)
      onTables (enforceMemberWrite args.roomId args.memberSubject (rd.now 0))
      pure (.inRoom (.updateMessage args))
  | deleteMessage args => do
      onTables (requireDeletableRoom args.roomId args.isAdmin)
      onTables (enforceMemberWrite args.roomId args.memberSubject (rd.now 0))
      pure (.inRoom (.deleteMessage args))
  | setMessageReaction args => do
      onTables (requireOpenRoom args.roomId args.allowFrozen)
      onTables (enforceMemberWrite args.roomId args.memberSubject (rd.now 0))
      pure (.inRoom (.setMessageReaction args))
  | setMessagePin args => do
      onTables (requireOpenRoom args.roomId args.allowFrozen)
      onTables (enforceMemberWrite args.roomId args.memberSubject (rd.now 0))
      pure (.inRoom (.setMessagePin args))
  | setMemberModeration roomId subject payload actor => do
      let moderation ←
        onTables (Store.setMemberModeration cfg.store rd.toReadings roomId subject payload actor)
      pure (.announce [⟨roomId, .other "member.moderation.updated"⟩]
        (.tables (.moderation moderation)))
  | markRead roomId subject messageId => do
      let mutation ← onTables (Store.markRead cfg.store rd.toReadings roomId subject messageId)
      pure (.announce (if mutation.changed = true then [⟨roomId, .other "read.updated"⟩] else [])
        (.tables (.readState mutation)))
  | clearReadState roomId subject => do
      let changed ← onTables (Store.clearReadState roomId subject)
      pure (.announce (if changed = true then [⟨roomId, .other "read.updated"⟩] else [])
        (.tables (.flag changed)))
  | nextWebhookDelivery worker skipped => claimNext cfg rd worker skipped
  | recordWebhookAttempt worker deliveryId attempt => recordClaimed rd worker deliveryId attempt
  | retryWebhookDelivery deliveryId => retryClaimed rd deliveryId
  | runRetention actor => pure (.capped (.runRetention actor))
  | pruneEvents sequences => do
      Tx.write fun db =>
        { db with events := db.events.deleteWhere fun e => e.sequence ∈ sequences }
      pure (.commit (.tables .unit))
  | notify roomId eventType =>
      pure (.announce [⟨roomId, .other eventType⟩] (.tables .unit))

/-- From the checked room to the message capacity lock, or to the end of the change. -/
def PgCommand.inRoom (cfg : PgConfig) (rd : PgReadings) : PgCommand → PgTx Stage
  | setMessageReaction args => reactInRoom cfg rd args
  | setMessagePin args => pinInRoom cfg rd args
  | cmd => pure (.capped cmd)

/-- The change made under the message capacity lock. -/
def PgCommand.capped (cfg : PgConfig) (rd : PgReadings) : PgCommand → PgTx Stage
  | createMessage args => createCapped cfg rd args
  | updateMessage args => updateCapped cfg rd args
  | deleteMessage args => deleteCapped cfg rd args
  | deleteRoom roomId actor => deleteRoomCapped cfg rd roomId actor
  | runRetention actor => retentionCapped cfg rd actor
  | _ => Tx.raise (.runtime "no such stage")

/-- `append_event` for each draft, in order. -/
def appendEvents (cfg : PgConfig) (rd : PgReadings) : Nat → List EventDraft → PgTx Unit
  | _, [] => pure ()
  | i, draft :: rest => do
      appendEvent cfg (rd.sequence i) (rd.now 3) draft.roomId draft.body
      appendEvents cfg rd (i + 1) rest

/-- The statements of a stage. -/
def Stage.body (cfg : PgConfig) (rd : PgReadings) : Stage → PgTx Stage
  | begin cmd => cmd.begin cfg rd
  | inRoom cmd => cmd.inRoom cfg rd
  | capped cmd => cmd.capped cfg rd
  | announce events reply => do
      appendEvents cfg rd 0 events
      pure (.commit reply)
  | commit reply => pure (.commit reply)

/-! ## Whole transactions -/

/-- The reply of a transaction that reached its end. -/
def Stage.reply : Stage → PgTx PgReply
  | commit reply => pure reply
  | _ => Tx.raise (.runtime "transaction not finished")

/-- The stages of a transaction, one after the other. -/
def runStages (cfg : PgConfig) (rd : PgReadings) (cmd : PgCommand) : PgTx PgReply := do
  let stage ← Stage.body cfg rd (.begin cmd)
  let stage ← Stage.body cfg rd stage
  let stage ← Stage.body cfg rd stage
  let stage ← Stage.body cfg rd stage
  stage.reply

/-- One call of the store, run without interruption. -/
def pgExec (cfg : PgConfig) (rd : PgReadings) (cmd : PgCommand) (db : PgDatabase) :
    Except StoreError PgReply × PgDatabase :=
  Tx.atomically (runStages cfg rd cmd) db

/-- One step: a call with what it read from outside. -/
def PgStep (cfg : PgConfig) (db : PgDatabase) (call : PgReadings × PgCommand) (db' : PgDatabase) :
    Prop :=
  (pgExec cfg call.1 call.2 db).2 = db'

/-- The committed databases that sequences of calls build from the empty one. -/
def PgReachable (cfg : PgConfig) : PgDatabase → Prop :=
  Reachable (fun db => db = {}) (PgStep cfg)

/-- The database after a sequence of calls. -/
def runPgCalls (cfg : PgConfig) (calls : List (PgReadings × PgCommand)) (db : PgDatabase) :
    PgDatabase :=
  calls.foldl (fun db call => (pgExec cfg call.1 call.2 db).2) db

/-- Running calls from the empty database only reaches reachable ones. -/
theorem runPgCalls_reachable (cfg : PgConfig) (calls : List (PgReadings × PgCommand)) :
    PgReachable cfg (runPgCalls cfg calls {}) := by
  have hgeneral : ∀ db, PgReachable cfg db → PgReachable cfg (runPgCalls cfg calls db) := by
    induction calls with
    | nil => exact fun db hdb => hdb
    | cons call rest ih => exact fun db hdb => ih _ (hdb.next call rfl)
  exact hgeneral {} (Reachable.start rfl)

/-- A step either changes nothing or is a successful call. -/
theorem PgStep.cases {cfg : PgConfig} {db db' : PgDatabase} {call : PgReadings × PgCommand}
    (h : PgStep cfg db call db') :
    db' = db ∨ ∃ reply, Tx.Returns (runStages cfg call.1 call.2) db reply db' := by
  unfold PgStep pgExec at h
  rcases Tx.atomically_cases (runStages cfg call.1 call.2) db with
    ⟨e, herror⟩ | ⟨reply, t, hok, hrun⟩
  · rw [herror] at h
    exact .inl h.symm
  · rw [hrun] at h
    have ht : t = db' := h
    rw [ht] at hok
    exact .inr ⟨reply, hok⟩

/-- What every stage keeps, a whole transaction keeps. -/
theorem runStages_invariant {cfg : PgConfig} {rd : PgReadings} {cmd : PgCommand}
    {db db' : PgDatabase} {reply : PgReply} {Inv : Stage → PgDatabase → Prop}
    (hstage : ∀ stage db stage' db', Inv stage db →
      Tx.Returns (stage.body cfg rd) db stage' db' → Inv stage' db')
    (hbegin : Inv (.begin cmd) db) (h : Tx.Returns (runStages cfg rd cmd) db reply db') :
    Inv (.commit reply) db' := by
  unfold runStages at h
  simp only [Tx.returns_bind] at h
  obtain ⟨stage₁, db₁, h₁, stage₂, db₂, h₂, stage₃, db₃, h₃, stage₄, db₄, h₄, hreply⟩ := h
  have hlast : Inv stage₄ db₄ :=
    hstage _ _ _ _ (hstage _ _ _ _ (hstage _ _ _ _ (hstage _ _ _ _ hbegin h₁) h₂) h₃) h₄
  cases stage₄ with
  | commit last =>
      obtain ⟨rfl, rfl⟩ := Tx.returns_pure.mp hreply
      exact hlast
  | begin _ | inRoom _ | capped _ | announce _ _ => exact absurd hreply Tx.returns_raise

/-- The invariant rule for sequences of transactions: what holds before every
call in the empty database, and is kept by every stage and across commits, holds
before every call in every reachable one. -/
theorem PgReachable.invariant {cfg : PgConfig} {db : PgDatabase} (h : PgReachable cfg db)
    (Inv : Stage → PgDatabase → Prop) (hempty : ∀ cmd, Inv (.begin cmd) {})
    (hstage : ∀ rd stage db stage' db', Inv stage db →
      Tx.Returns (Stage.body cfg rd stage) db stage' db' → Inv stage' db')
    (hnext : ∀ reply cmd db, Inv (.commit reply) db → Inv (.begin cmd) db) (cmd : PgCommand) :
    Inv (.begin cmd) db := by
  obtain ⟨start, rfl, hrun⟩ := h
  have hcall : ∀ t call u, (∀ cmd, Inv (.begin cmd) t) → True → PgStep cfg t call u →
      ∀ cmd, Inv (.begin cmd) u := by
    intro t call u ht _ hstep cmd
    rcases hstep.cases with rfl | ⟨reply, hok⟩
    · exact ht cmd
    · exact hnext reply cmd u (runStages_invariant (hstage call.1) (ht call.2) hok)
  exact hrun.invariant hcall hempty cmd

end Postgres
end ChatEngine
