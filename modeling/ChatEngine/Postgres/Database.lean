import ChatEngine.Store.Privacy

/-!
# The PostgreSQL database of the chat store

The tables it shares with the SQLite store, the realtime event log, and the
lease columns of the outbox.

* `EventBody`, the payload of an event, and `EventBody.scrubbed`, what the
  privacy scrub makes of it;
* `PgDatabase`, which extends the shared tables; `onTables` runs a statement of
  the shared store on it;
* `scrubEvents`, `scrubWebhooks` and `appendEvent`, the statements only this
  store has.
-/

namespace ChatEngine
namespace Postgres

open Lib
open Models
open Store

/-! ## The event log -/

/-- The payload of an event of `samsarix_realtime_events`.  Only `message.*`
payloads are read here; of the others the model keeps the type. -/
inductive EventBody where
  | messageCreated (message : Message)
  | messageUpdated (message : Message)
  | messageDeleted (message : Message)
  | messageReactionUpdated (mutation : ReactionMutation)
  | messagePinUpdated (mutation : PinMutation)
  | other (eventType : String)
  deriving DecidableEq

/-- The `message` object of a `message.*` payload. -/
def EventBody.message? : EventBody → Option Message
  | messageCreated m => some m
  | messageUpdated m => some m
  | messageDeleted m => some m
  | messageReactionUpdated mutation => some mutation.message
  | messagePinUpdated mutation => some mutation.message
  | other _ => none

/-- The `jsonb_set` calls every branch of the scrub makes on `message`. -/
def scrubMessage (m : Message) : Message :=
  { m with
    content := ""
    reactions := []
    pinnedAt := none
    pinnedBy := none
    metadata := []
    attachments := []
    mentionedSubjects := [] }

/-- What a scrub writes in place of a reactor or a pinner. -/
def deletedActor : String := "[deleted]"

/-- The `CASE` of `_scrub_message_event_payloads`. -/
def EventBody.scrubbed : EventBody → EventBody
  | messageCreated m => messageCreated (scrubMessage m)
  | messageUpdated m => messageUpdated (scrubMessage m)
  | messageDeleted m => messageDeleted (scrubMessage m)
  | messageReactionUpdated mutation =>
      messageReactionUpdated
        { mutation with message := scrubMessage mutation.message, reactor := deletedActor }
  | messagePinUpdated mutation =>
      messagePinUpdated
        { mutation with message := scrubMessage mutation.message, pinner := deletedActor }
  | other eventType => other eventType

@[simp] theorem EventBody.message?_scrubbed (body : EventBody) :
    body.scrubbed.message? = body.message?.map scrubMessage := by
  cases body <;> rfl

theorem scrubMessage_contentFree (m : Message) : (scrubMessage m).ContentFree :=
  ⟨rfl, rfl, rfl, rfl, rfl, rfl, rfl⟩

@[simp] theorem scrubMessage_id (m : Message) : (scrubMessage m).id = m.id := rfl

/-- One row of the realtime event log. -/
structure EventRow where
  sequence : Nat
  roomId : String
  body : EventBody
  createdAt : Timestamp
  deriving DecidableEq

/-- The event is about this message. -/
def EventRow.About (messageId : String) (e : EventRow) : Prop :=
  ∃ m ∈ e.body.message?, m.id = messageId

instance (messageId : String) : DecidablePred (EventRow.About messageId) := by
  intro e
  unfold EventRow.About
  cases e.body.message? with
  | none => exact .isFalse (by simp)
  | some m => exact decidable_of_iff (m.id = messageId) (by simp)

/-- The `UPDATE` of a scrub on one event. -/
def EventRow.scrub (e : EventRow) : EventRow := { e with body := e.body.scrubbed }

@[simp] theorem EventRow.scrub_sequence (e : EventRow) : e.scrub.sequence = e.sequence := rfl

@[simp] theorem EventRow.scrub_roomId (e : EventRow) : e.scrub.roomId = e.roomId := rfl

@[simp] theorem EventRow.about_scrub {messageId : String} {e : EventRow} :
    e.scrub.About messageId ↔ e.About messageId := by
  unfold EventRow.About EventRow.scrub
  simp

/-! ## The database -/

/-- The lease columns of an outbox row; a row without a lease has no entry. -/
structure WebhookLease where
  deliveryId : String
  owner : String
  expiresAt : Timestamp
  deriving DecidableEq

abbrev EventTable := Table EventRow Nat EventRow.sequence

/-- The committed content of the PostgreSQL database.  `lastSequence` is the
greatest sequence a committed event was given. -/
structure PgDatabase extends Database where
  events : EventTable := ∅
  lastSequence : Nat := 0
  leases : Table WebhookLease String WebhookLease.deliveryId := ∅

/-- What a store process was configured with.  `jsonFits`, `eventFits` and
`webhookFits` are the size checks on JSON text: the `CHECK` constraints of the
message columns, `_validate_event`, and the `CHECK` on the outbox payload. -/
structure PgConfig where
  store : Config
  webhookLeaseSeconds : Nat := 60
  jsonFits : MessageRow → Bool := fun _ => true
  eventFits : EventBody → Bool := fun _ => true
  webhookFits : WebhookEnvelope → Bool := fun _ => true

/-- What one call reads from outside the tables: the database clock and `uuid4`
as for the SQLite store, and the identity values its events are given. -/
structure PgReadings extends Readings where
  sequence : Nat → Nat

/-- The database with its shared tables replaced. -/
def PgDatabase.withTables (db : PgDatabase) (tables : Database) : PgDatabase :=
  { db with toDatabase := tables }

/-- The database with its messages replaced. -/
def PgDatabase.withMessages (db : PgDatabase) (messages : Table MessageRow String MessageRow.id) :
    PgDatabase :=
  db.withTables { db.toDatabase with messages := messages }

/-- The database with its reactions replaced. -/
def PgDatabase.withReactions (db : PgDatabase)
    (reactions : Table ReactionRow (String × String × String) ReactionRow.key) : PgDatabase :=
  db.withTables { db.toDatabase with reactions := reactions }

/-- A transaction of the PostgreSQL store. -/
abbrev PgTx := Tx StoreError PgDatabase

/-- A statement on the shared tables. -/
def onTables {α : Type} (tx : StoreTx α) : PgTx α :=
  Tx.zoom PgDatabase.toDatabase PgDatabase.withTables tx

theorem returns_onTables {α : Type} {tx : StoreTx α} {db db' : PgDatabase} {a : α} :
    Tx.Returns (onTables tx) db a db' ↔
      ∃ tables, Tx.Returns tx db.toDatabase a tables ∧ db' = db.withTables tables := by
  unfold onTables
  exact Tx.returns_zoom

/-- A statement that only reads the shared tables. -/
theorem returns_onTables_reads {α : Type} {tx : StoreTx α} {P : Database → α → Prop}
    (htx : ∀ {d d' a}, Tx.Returns tx d a d' ↔ P d a ∧ d' = d) {db db' : PgDatabase} {a : α} :
    Tx.Returns (onTables tx) db a db' ↔ P db.toDatabase a ∧ db' = db := by
  rw [returns_onTables]
  constructor
  · rintro ⟨tables, hrun, rfl⟩
    obtain ⟨hp, rfl⟩ := htx.mp hrun
    exact ⟨hp, rfl⟩
  · rintro ⟨hp, rfl⟩
    exact ⟨_, htx.mpr ⟨hp, rfl⟩, rfl⟩

section Checks

variable {db db' : PgDatabase} {u : Unit}

@[simp] theorem returns_onTables_validated {α : Type} {x : Except ValidationError α} {a : α} :
    Tx.Returns (onTables (validated x)) db a db' ↔ x = .ok a ∧ db' = db :=
  returns_onTables_reads returns_validated

@[simp] theorem returns_onTables_requireMessage {roomId messageId : String} {row : MessageRow} :
    Tx.Returns (onTables (requireMessage roomId messageId)) db row db' ↔
      (row ∈ db.messages ∧ row.id = messageId ∧ row.roomId = roomId) ∧ db' = db :=
  returns_onTables_reads returns_requireMessage

@[simp] theorem returns_onTables_requireOpenRoom {roomId : String} {allowFrozen : Bool} :
    Tx.Returns (onTables (requireOpenRoom roomId allowFrozen)) db u db' ↔
      (∃ room ∈ db.rooms, room.key = roomId ∧ room.archivedAt = none ∧
        (room.frozenAt = none ∨ allowFrozen = true)) ∧ db' = db :=
  returns_onTables_reads returns_requireOpenRoom

@[simp] theorem returns_onTables_requireDeletableRoom {roomId : String} {isAdmin : Bool} :
    Tx.Returns (onTables (requireDeletableRoom roomId isAdmin)) db u db' ↔
      (∃ room ∈ db.rooms, room.key = roomId ∧
        (isAdmin = true ∨ (room.archivedAt = none ∧ room.frozenAt = none))) ∧ db' = db :=
  returns_onTables_reads returns_requireDeletableRoom

@[simp] theorem returns_onTables_enforceMemberWrite {roomId : String} {subject : Option String}
    {now : Timestamp} :
    Tx.Returns (onTables (enforceMemberWrite roomId subject now)) db u db' ↔
      MemberMayWrite roomId subject now db.toDatabase ∧ db' = db :=
  returns_onTables_reads returns_enforceMemberWrite

@[simp] theorem returns_onTables_requireParent {roomId : String}
    {parentMessageId : Option String} :
    Tx.Returns (onTables (requireParent roomId parentMessageId)) db u db' ↔
      (∀ parentId, parentMessageId = some parentId →
        ∃ parent ∈ db.messages, parent.id = parentId ∧ parent.roomId = roomId ∧
          parent.deletedAt = none ∧ parent.parentMessageId = none) ∧ db' = db :=
  returns_onTables_reads returns_requireParent

@[simp] theorem returns_onTables_rereadMessage {messageId : String} {m : Message} :
    Tx.Returns (onTables (rereadMessage messageId)) db m db' ↔
      (∃ row ∈ db.messages, row.id = messageId ∧ messageFromRow row = .ok m) ∧ db' = db :=
  returns_onTables_reads returns_rereadMessage

end Checks

/-! ## Event statements -/

/-- The events a scrub of a deleted batch rewrites. -/
def inScrub (batch : List MessageRow) (e : EventRow) : Prop :=
  ∃ m ∈ batch, e.roomId = m.roomId ∧ e.About m.id

instance (batch : List MessageRow) : DecidablePred (inScrub batch) := by
  intro e
  unfold inScrub
  infer_instance

/-- The log after the scrub of a deleted batch. -/
def scrubLog (batch : List MessageRow) (events : EventTable) : EventTable :=
  events.updateWhere (inScrub batch) EventRow.scrub EventRow.scrub_sequence

/-- `_scrub_message_event_payloads`. -/
def scrubEvents (batch : List MessageRow) : PgTx Unit :=
  Tx.write fun db => { db with events := scrubLog batch db.events }

/-- `append_event`, once the sequence lock is held.  The identity column gives a
value above every earlier one. -/
def appendEvent (cfg : PgConfig) (sequence : Nat) (createdAt : Timestamp) (roomId : String)
    (body : EventBody) : PgTx Unit := do
  Tx.require (matchesRoomId roomId = true ∧ cfg.eventFits body = true)
    (.value "invalid realtime event")
  let last ← Tx.read PgDatabase.lastSequence
  Tx.require (last < sequence) .integrity
  let inserted ← Tx.read fun db =>
    db.events.insert? { sequence := sequence, roomId := roomId, body := body, createdAt := createdAt }
  let inserted ← Tx.orRaise inserted .integrity
  Tx.write fun db => { db with events := inserted, lastSequence := sequence }

@[simp] theorem returns_scrubEvents {batch : List MessageRow} {db db' : PgDatabase} {u : Unit} :
    Tx.Returns (scrubEvents batch) db u db' ↔
      db' = { db with events := scrubLog batch db.events } := by
  unfold scrubEvents
  exact Tx.returns_write

theorem appendEvent_ok {cfg : PgConfig} {sequence : Nat} {createdAt : Timestamp} {roomId : String}
    {body : EventBody} {db db' : PgDatabase} {u : Unit}
    (h : Tx.Returns (appendEvent cfg sequence createdAt roomId body) db u db') :
    db.lastSequence < sequence ∧
      ∃ inserted,
        db.events.insert?
          { sequence := sequence, roomId := roomId, body := body, createdAt := createdAt } =
            some inserted ∧
        db' = { db with events := inserted, lastSequence := sequence } := by
  unfold appendEvent at h
  simp only [Tx.returns_bind, Tx.returns_read, Tx.returns_require, Tx.returns_orRaise,
    Tx.returns_write] at h
  obtain ⟨_, _, ⟨-, rfl⟩, _, _, ⟨rfl, rfl⟩, _, _, ⟨hlast, rfl⟩, _, _, ⟨rfl, rfl⟩, inserted, _,
    ⟨hins, rfl⟩, rfl⟩ := h
  exact ⟨hlast, inserted, hins, rfl⟩

/-! ## Outbox statements -/

/-- Scrub the selected outbox rows and clear their leases. -/
def PgDatabase.scrubOutbox (p : WebhookRow → Prop) [DecidablePred p] (db : PgDatabase) :
    PgDatabase :=
  { db with
    webhooks := Store.scrub db.webhooks p
    leases := db.leases.deleteWhere fun lease =>
      ∃ row ∈ db.webhooks.rows, p row ∧ row.id = lease.deliveryId }

/-- `_scrub_message_webhooks` of a deleted batch. -/
def scrubWebhooks (batch : List MessageRow) : PgTx Unit :=
  Tx.write (PgDatabase.scrubOutbox (inBatch batch))

/-- `_insert_audit`. -/
def insertPgAudit (cfg : PgConfig) (id : UuidHex) (createdAt : Timestamp) (action : AuditAction)
    (actor : String) (roomId : Option String) (details : AuditDetails) : PgTx Unit :=
  onTables (insertAudit cfg.store id createdAt action actor roomId details)

theorem insertPgAudit_ok {cfg : PgConfig} {id : UuidHex} {createdAt : Timestamp}
    {action : AuditAction} {actor : String} {roomId : Option String} {details : AuditDetails}
    {db db' : PgDatabase} {u : Unit}
    (h : Tx.Returns (insertPgAudit cfg id createdAt action actor roomId details) db u db') :
    ∃ tables, SameButAudit db.toDatabase tables ∧ db' = db.withTables tables := by
  obtain ⟨tables, haudit, rfl⟩ := returns_onTables.mp h
  exact ⟨tables, insertAudit_same haudit, rfl⟩

/-- `_insert_webhook`. -/
def insertPgWebhook (cfg : PgConfig) (id : UuidHex) (type : EventType)
    (roomId resourceId : String) (occurredAt : Timestamp) (data : WebhookData) : PgTx Unit := do
  onTables (insertWebhook cfg.store id type roomId resourceId occurredAt data)
  Tx.require (type ∉ cfg.store.webhookEvents ∨
    ((webhookRow id type roomId resourceId occurredAt data).payload.all cfg.webhookFits) = true)
    .integrity

@[simp] theorem returns_scrubWebhooks {batch : List MessageRow} {db db' : PgDatabase} {u : Unit} :
    Tx.Returns (scrubWebhooks batch) db u db' ↔ db' = db.scrubOutbox (inBatch batch) := by
  unfold scrubWebhooks
  exact Tx.returns_write

theorem insertPgWebhook_ok {cfg : PgConfig} {id : UuidHex} {type : EventType}
    {roomId resourceId : String} {occurredAt : Timestamp} {data : WebhookData}
    {db db' : PgDatabase} {u : Unit}
    (h : Tx.Returns (insertPgWebhook cfg id type roomId resourceId occurredAt data) db u db') :
    ∃ t, OutboxGains cfg.store (webhookRow id type roomId resourceId occurredAt data)
        db.webhooks t ∧ db' = db.withTables { db.toDatabase with webhooks := t } := by
  unfold insertPgWebhook at h
  simp only [Tx.returns_bind, returns_onTables, returns_insertWebhook, Tx.returns_require] at h
  obtain ⟨_, _, ⟨_, ⟨t, hgains, rfl⟩, rfl⟩, -, rfl⟩ := h
  exact ⟨t, hgains, rfl⟩

/-! ## Message statements -/

/-- The `CHECK` constraints of a text column. -/
def lengthBetween (low high : Nat) (s : String) : Bool :=
  decide (low ≤ s.length) && decide (s.length ≤ high)

/-- The `CHECK` constraints of `samsarix_messages`. -/
def PgConfig.Checks (cfg : PgConfig) (r : MessageRow) : Prop :=
  lengthBetween 1 128 r.id = true ∧ lengthBetween 1 64 r.sender = true ∧
    r.authorSubject.all (lengthBetween 1 64) = true ∧ lengthBetween 0 100_000 r.content = true ∧
    r.clientMessageId.all (lengthBetween 1 128) = true ∧
    r.pinnedBy.all (lengthBetween 1 64) = true ∧
    r.attachments.length ≤ 5 ∧ r.mentionedSubjects.length ≤ 10 ∧ cfg.jsonFits r = true

instance (cfg : PgConfig) : DecidablePred cfg.Checks := by
  intro r
  unfold PgConfig.Checks
  infer_instance

/-- `INSERT INTO samsarix_messages`. -/
def insertPgMessage (cfg : PgConfig) (row : MessageRow) : PgTx Unit := do
  Tx.require (cfg.Checks row) .integrity
  let admissible ← Tx.read fun db => decide (row.Admissible db.toDatabase)
  Tx.require (admissible = true) .integrity
  let inserted ← Tx.read fun db => db.messages.insert? row
  let inserted ← Tx.orRaise inserted .integrity
  Tx.write fun db => db.withMessages inserted

@[simp] theorem returns_insertPgMessage {cfg : PgConfig} {row : MessageRow} {db db' : PgDatabase}
    {u : Unit} :
    Tx.Returns (insertPgMessage cfg row) db u db' ↔
      cfg.Checks row ∧ row.Admissible db.toDatabase ∧
        ∃ inserted, db.messages.insert? row = some inserted ∧
          db' = db.withMessages inserted := by
  unfold insertPgMessage
  simp only [Tx.returns_bind, Tx.returns_read, Tx.returns_orRaise, Tx.returns_require,
    Tx.returns_write]
  constructor
  · rintro ⟨_, _, ⟨hchecks, rfl⟩, _, _, ⟨rfl, rfl⟩, _, _, ⟨hadm, rfl⟩, _, _, ⟨rfl, rfl⟩,
      inserted, _, ⟨hins, rfl⟩, rfl⟩
    exact ⟨hchecks, of_decide_eq_true hadm, inserted, hins, rfl⟩
  · rintro ⟨hchecks, hadm, inserted, hins, rfl⟩
    exact ⟨(), _, ⟨hchecks, rfl⟩, _, _, ⟨rfl, rfl⟩, (), _, ⟨decide_eq_true hadm, rfl⟩,
      _, _, ⟨rfl, rfl⟩, inserted, _, ⟨hins, rfl⟩, rfl⟩

/-- One message rewritten in place. -/
def PgDatabase.rewriteMessage (messageId : String) (f : MessageRow → MessageRow)
    (hid : ∀ r, (f r).id = r.id) (db : PgDatabase) : PgDatabase :=
  db.withTables (db.toDatabase.setMessage messageId f hid)

/-- `UPDATE samsarix_messages … WHERE id = … RETURNING`, decoded. -/
def updatePgMessage (cfg : PgConfig) (messageId : String) (f : MessageRow → MessageRow)
    (hid : ∀ r, (f r).id = r.id) : PgTx Message := do
  let checked ← Tx.read fun db =>
    decide (∀ r ∈ db.messages.rows, r.id = messageId → cfg.Checks (f r))
  Tx.require (checked = true) .integrity
  Tx.write (PgDatabase.rewriteMessage messageId f hid)
  onTables (rereadMessage messageId)

theorem updatePgMessage_ok {cfg : PgConfig} {messageId : String} {f : MessageRow → MessageRow}
    {hid : ∀ r, (f r).id = r.id} {db db' : PgDatabase} {m : Message} {row : MessageRow}
    (hrow : row ∈ db.messages) (hrowId : row.id = messageId)
    (h : Tx.Returns (updatePgMessage cfg messageId f hid) db m db') :
    messageFromRow (f row) = .ok m ∧ db' = db.rewriteMessage messageId f hid := by
  unfold updatePgMessage at h
  simp only [Tx.returns_bind, Tx.returns_read, Tx.returns_require, Tx.returns_write,
    returns_onTables_rereadMessage] at h
  obtain ⟨_, _, ⟨rfl, rfl⟩, _, _, ⟨-, rfl⟩, _, _, rfl, ⟨s, hs, hsid, hdecode⟩, rfl⟩ := h
  have hsf : s = f row := setMessage_row hrow hrowId hs hsid
  rw [hsf] at hdecode
  exact ⟨hdecode, rfl⟩

/-- `DELETE FROM samsarix_messages WHERE … RETURNING id, room_id`. -/
def deletePgMessages (select : Database → List MessageRow) : PgTx (List MessageRow) := do
  let batch ← Tx.read fun db => select db.toDatabase
  Tx.write fun db => db.withTables (db.toDatabase.deleteMessages (batch.map MessageRow.id))
  pure batch

@[simp] theorem returns_deletePgMessages {select : Database → List MessageRow}
    {db db' : PgDatabase} {batch : List MessageRow} :
    Tx.Returns (deletePgMessages select) db batch db' ↔
      batch = select db.toDatabase ∧
        db' = db.withTables
          (db.toDatabase.deleteMessages ((select db.toDatabase).map MessageRow.id)) := by
  unfold deletePgMessages
  simp only [Tx.returns_bind, Tx.returns_read, Tx.returns_write, Tx.returns_pure]
  constructor
  · rintro ⟨_, _, ⟨rfl, rfl⟩, _, _, rfl, rfl, rfl⟩
    exact ⟨rfl, rfl⟩
  · rintro ⟨rfl, rfl⟩
    exact ⟨_, _, ⟨rfl, rfl⟩, (), _, rfl, rfl, rfl⟩

end Postgres
end ChatEngine
