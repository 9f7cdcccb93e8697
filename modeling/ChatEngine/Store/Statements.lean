import ChatEngine.Models.Timestamps
import ChatEngine.Store.Database

/-!
# Statements the operations share

The room and member checks, the inserts with the constraints of their tables,
the audit trail with its cap, the outbox insert with its pruning, and the
trimming of messages.  Each comes with the lemma that says what it does to the
database when it succeeds, so that the operations above never unfold it.
-/

namespace ChatEngine
namespace Store

open Lib
open Models

/-! ## Checks -/

/-- The room exists, is not archived, and is not frozen unless the caller may
write to frozen rooms. -/
def requireOpenRoom (roomId : String) (allowFrozen : Bool) : StoreTx Unit := do
  let room ← Tx.read fun db => db.rooms.find? roomId
  let room ← Tx.orRaise room (.roomNotFound roomId)
  Tx.require (room.archivedAt = none) (.roomArchived roomId)
  Tx.require (¬ (room.frozenAt ≠ none ∧ allowFrozen = false)) (.roomFrozen roomId)

/-- `_enforce_member_write_sync`. -/
def enforceMemberWrite (roomId : String) (subject : Option String) (now : Timestamp) :
    StoreTx Unit :=
  match subject with
  | none => pure ()
  | some subject => do
      let row ← Tx.read fun db => db.memberControls.find? (roomId, subject)
      match row with
      | none => pure ()
      | some row => do
          Tx.require (¬ row.bannedUntil.any fun t => decide (now < t)) (.memberBanned subject)
          Tx.require (¬ row.mutedUntil.any fun t => decide (now < t)) (.memberMuted subject)

/-- The message of a room, or `MessageNotFoundError`. -/
def requireMessage (roomId messageId : String) : StoreTx MessageRow := do
  let row ← Tx.read fun db => (db.messages.find? messageId).filter fun r => r.roomId = roomId
  Tx.orRaise row (.messageNotFound messageId)

@[simp] theorem returns_requireOpenRoom {roomId : String} {allowFrozen : Bool}
    {db db' : Database} {u : Unit} :
    Tx.Returns (requireOpenRoom roomId allowFrozen) db u db' ↔
      (∃ room ∈ db.rooms, room.key = roomId ∧ room.archivedAt = none ∧
        (room.frozenAt = none ∨ allowFrozen = true)) ∧ db' = db := by
  unfold requireOpenRoom
  simp only [Tx.returns_bind, Tx.returns_read, Tx.returns_orRaise, Tx.returns_require]
  constructor
  · rintro ⟨_, _, ⟨rfl, rfl⟩, room, _, ⟨hfind, rfl⟩, _, _, ⟨harchived, rfl⟩, hfrozen, rfl⟩
    obtain ⟨hmem, hkey⟩ := Table.find?_eq_some.mp hfind
    refine ⟨⟨room, hmem, hkey, harchived, ?_⟩, rfl⟩
    by_cases h : room.frozenAt = none
    · exact .inl h
    · right
      cases allowFrozen with
      | true => rfl
      | false => exact absurd ⟨h, rfl⟩ hfrozen
  · rintro ⟨⟨room, hmem, hkey, harchived, hfrozen⟩, rfl⟩
    refine ⟨_, _, ⟨rfl, rfl⟩, room, _, ⟨Table.find?_eq_some.mpr ⟨hmem, hkey⟩, rfl⟩,
      (), _, ⟨harchived, rfl⟩, ?_, rfl⟩
    rintro ⟨hne, hfalse⟩
    rcases hfrozen with h | h
    · exact hne h
    · rw [h] at hfalse
      cases hfalse

/-- The member check either lets the call through unchanged or raises. -/
def MemberMayWrite (roomId : String) (subject : Option String) (now : Timestamp)
    (db : Database) : Prop :=
  ∀ s, subject = some s → ∀ row ∈ db.memberControls, row.key = (roomId, s) →
    (∀ t, row.bannedUntil = some t → t ≤ now) ∧ (∀ t, row.mutedUntil = some t → t ≤ now)

@[simp] theorem returns_enforceMemberWrite {roomId : String} {subject : Option String}
    {now : Timestamp} {db db' : Database} {u : Unit} :
    Tx.Returns (enforceMemberWrite roomId subject now) db u db' ↔
      MemberMayWrite roomId subject now db ∧ db' = db := by
  unfold enforceMemberWrite MemberMayWrite
  cases subject with
  | none => simp
  | some s =>
      simp only [Tx.returns_bind, Tx.returns_read, Option.some.injEq, forall_eq']
      cases hfind : db.memberControls.find? (roomId, s) with
      | none =>
          have habsent := Table.find?_eq_none.mp hfind
          constructor
          · rintro ⟨_, _, ⟨rfl, rfl⟩, h⟩
            exact ⟨fun row hrow hkey => absurd hkey (habsent row hrow), (Tx.returns_pure.mp h).2⟩
          · rintro ⟨-, rfl⟩
            refine ⟨_, _, ⟨rfl, rfl⟩, ?_⟩
            exact Tx.returns_pure.mpr ⟨rfl, rfl⟩
      | some row =>
          have hkey := (Table.find?_eq_some.mp hfind).2
          have hany : ∀ o : Option Timestamp,
              (¬ (o.any fun t => decide (now < t)) = true) ↔ ∀ t, o = some t → t ≤ now := by
            intro o
            cases o with
            | none => simp
            | some t => simp
          constructor
          · rintro ⟨_, _, ⟨rfl, rfl⟩, h⟩
            simp only [Tx.returns_bind, Tx.returns_require, hany] at h
            obtain ⟨_, _, ⟨hban, rfl⟩, hmute, rfl⟩ := h
            refine ⟨fun other hother hkey' => ?_, rfl⟩
            have hrow := (Table.find?_eq_some.mp hfind).1
            rw [Table.eq_of_key hother hrow (hkey'.trans hkey.symm)]
            exact ⟨hban, hmute⟩
          · rintro ⟨hall, rfl⟩
            obtain ⟨hban, hmute⟩ := hall row (Table.find?_eq_some.mp hfind).1 hkey
            refine ⟨_, _, ⟨rfl, rfl⟩, ?_⟩
            simp only [Tx.returns_bind, Tx.returns_require, hany]
            exact ⟨(), _, ⟨hban, rfl⟩, hmute, rfl⟩

@[simp] theorem returns_requireMessage {roomId messageId : String} {db db' : Database}
    {row : MessageRow} :
    Tx.Returns (requireMessage roomId messageId) db row db' ↔
      (row ∈ db.messages ∧ row.id = messageId ∧ row.roomId = roomId) ∧ db' = db := by
  unfold requireMessage
  simp only [Tx.returns_bind, Tx.returns_read, Tx.returns_orRaise]
  constructor
  · rintro ⟨_, _, ⟨rfl, rfl⟩, hrow, rfl⟩
    obtain ⟨hfind, hroom⟩ := Option.filter_eq_some_iff.mp hrow
    obtain ⟨hmem, hid⟩ := Table.find?_eq_some.mp hfind
    exact ⟨⟨hmem, hid, by simpa using hroom⟩, rfl⟩
  · rintro ⟨⟨hmem, hid, hroom⟩, rfl⟩
    refine ⟨_, _, ⟨rfl, rfl⟩, ?_, rfl⟩
    rw [Option.filter_eq_some_iff]
    exact ⟨Table.find?_eq_some.mpr ⟨hmem, hid⟩, by simpa using hroom⟩

/-! ## Audit trail -/

/-- `created_at DESC, id DESC` among audit rows. -/
abbrev auditNewestFirst (a b : AuditRow) : Prop :=
  timeKeyLe AuditRow.createdAt AuditRow.id b a

/-- The audit rows past the newest `n`. -/
def auditOverflow (n : Nat) (t : Table AuditRow String AuditRow.id) : List AuditRow :=
  (t.rows.insertionSort auditNewestFirst).drop n

/-- `_insert_audit`. -/
def insertAudit (cfg : Config) (id : UuidHex) (createdAt : Timestamp) (action : AuditAction)
    (actor : String) (roomId : Option String) (details : AuditDetails) : StoreTx Unit := do
  let inserted ← Tx.read fun db => db.auditEvents.insert?
    { id := id.text, action := action, actor := actor, roomId := roomId,
      createdAt := createdAt, details := details }
  let inserted ← Tx.orRaise inserted .integrity
  Tx.write fun db =>
    { db with
      auditEvents := inserted.deleteWhere fun r =>
        r.id ∈ (auditOverflow cfg.maxAuditEvents inserted).map AuditRow.id }

/-- Two databases that differ in their audit trail at most. -/
structure SameButAudit (db db' : Database) : Prop where
  rooms : db'.rooms = db.rooms
  messages : db'.messages = db.messages
  reactions : db'.reactions = db.reactions
  memberControls : db'.memberControls = db.memberControls
  readStates : db'.readStates = db.readStates
  webhooks : db'.webhooks = db.webhooks

theorem insertAudit_same {cfg : Config} {id : UuidHex} {createdAt : Timestamp}
    {action : AuditAction} {actor : String} {roomId : Option String} {details : AuditDetails}
    {db db' : Database} {u : Unit}
    (h : Tx.Returns (insertAudit cfg id createdAt action actor roomId details) db u db') :
    SameButAudit db db' := by
  unfold insertAudit at h
  simp only [Tx.returns_bind, Tx.returns_read, Tx.returns_orRaise, Tx.returns_write] at h
  obtain ⟨_, _, ⟨rfl, rfl⟩, _, _, ⟨-, rfl⟩, rfl⟩ := h
  exact ⟨rfl, rfl, rfl, rfl, rfl, rfl⟩

/-! ## Message rows -/

/-- SQLite's `length` of a text: the characters before its first NUL. -/
def sqliteLength (s : String) : Nat := (s.toList.takeWhile (· ≠ '\x00')).length

/-- `length(column) BETWEEN 1 AND 64`. -/
def sqliteActorOk (actor : String) : Bool :=
  decide (1 ≤ sqliteLength actor) && decide (sqliteLength actor ≤ 64)

/-- The `CHECK` constraints of `messages`. -/
def MessageRow.Checks (r : MessageRow) : Prop :=
  (∀ actor ∈ r.pinnedBy, sqliteActorOk actor = true) ∧
    (dumpsMetadata r.metadata).utf8ByteSize ≤ 4_096 ∧
    (dumpsAttachments r.attachments).utf8ByteSize ≤ 8_192 ∧
    (dumpsMentions r.mentionedSubjects).utf8ByteSize ≤ 4_096

instance (r : MessageRow) : Decidable r.Checks := by
  unfold MessageRow.Checks
  infer_instance

/-- The foreign keys and the unique idempotency key of a new message row. -/
def MessageRow.Admissible (r : MessageRow) (db : Database) : Prop :=
  (db.rooms.find? r.roomId).isSome = true ∧
    (∀ parent ∈ r.parentMessageId, (db.messages.find? parent).isSome = true) ∧
    (∀ key ∈ r.clientMessageId, ∀ s ∈ db.messages.rows,
      ¬ (s.roomId = r.roomId ∧ s.clientMessageId = some key))

instance (r : MessageRow) (db : Database) : Decidable (r.Admissible db) := by
  unfold MessageRow.Admissible
  infer_instance

/-- `INSERT INTO messages`. -/
def insertMessageRow (row : MessageRow) : StoreTx Unit := do
  Tx.require row.Checks .check
  let admissible ← Tx.read fun db => decide (row.Admissible db)
  Tx.require (admissible = true) .integrity
  let inserted ← Tx.read fun db => db.messages.insert? row
  let inserted ← Tx.orRaise inserted .integrity
  Tx.write fun db => { db with messages := inserted }

@[simp] theorem returns_insertMessageRow {row : MessageRow} {db db' : Database} {u : Unit} :
    Tx.Returns (insertMessageRow row) db u db' ↔
      row.Checks ∧ row.Admissible db ∧
        ∃ inserted, db.messages.insert? row = some inserted ∧
          db' = { db with messages := inserted } := by
  unfold insertMessageRow
  simp only [Tx.returns_bind, Tx.returns_read, Tx.returns_orRaise, Tx.returns_require,
    Tx.returns_write]
  constructor
  · rintro ⟨_, _, ⟨hchecks, rfl⟩, _, _, ⟨rfl, rfl⟩, _, _, ⟨hadm, rfl⟩, _, _, ⟨rfl, rfl⟩,
      inserted, _, ⟨hins, rfl⟩, rfl⟩
    exact ⟨hchecks, of_decide_eq_true hadm, inserted, hins, rfl⟩
  · rintro ⟨hchecks, hadm, inserted, hins, rfl⟩
    exact ⟨(), _, ⟨hchecks, rfl⟩, _, _, ⟨rfl, rfl⟩, (), _, ⟨decide_eq_true hadm, rfl⟩,
      _, _, ⟨rfl, rfl⟩, inserted, _, ⟨hins, rfl⟩, rfl⟩

/-- One row rewritten in place. -/
def Database.setMessage (messageId : String) (f : MessageRow → MessageRow)
    (hid : ∀ r, (f r).id = r.id) (db : Database) : Database :=
  { db with messages := db.messages.updateWhere (fun r => r.id = messageId) f hid }

/-- `UPDATE messages SET … WHERE id = ?`. -/
def updateMessageRow (messageId : String) (f : MessageRow → MessageRow)
    (hid : ∀ r, (f r).id = r.id) : StoreTx Unit := do
  let checked ← Tx.read fun db =>
    decide (∀ r ∈ db.messages.rows, r.id = messageId → (f r).Checks)
  Tx.require (checked = true) .check
  Tx.write (Database.setMessage messageId f hid)

@[simp] theorem returns_updateMessageRow {messageId : String} {f : MessageRow → MessageRow}
    {hid : ∀ r, (f r).id = r.id} {db db' : Database} {u : Unit} :
    Tx.Returns (updateMessageRow messageId f hid) db u db' ↔
      (∀ r ∈ db.messages, r.id = messageId → (f r).Checks) ∧
        db' = db.setMessage messageId f hid := by
  unfold updateMessageRow
  simp only [Tx.returns_bind, Tx.returns_read, Tx.returns_require, Tx.returns_write]
  constructor
  · rintro ⟨_, _, ⟨rfl, rfl⟩, _, _, ⟨hchecks, rfl⟩, rfl⟩
    exact ⟨of_decide_eq_true hchecks, rfl⟩
  · rintro ⟨hchecks, rfl⟩
    exact ⟨_, _, ⟨rfl, rfl⟩, (), _, ⟨decide_eq_true hchecks, rfl⟩, rfl⟩

/-- Re-read one message after a write. -/
def rereadMessage (messageId : String) : StoreTx Message := do
  let row ← Tx.read fun db => db.messages.find? messageId
  let row ← Tx.orRaise row (.runtime "row is None")
  validated (messageFromRow row)

@[simp] theorem returns_rereadMessage {messageId : String} {db db' : Database} {m : Message} :
    Tx.Returns (rereadMessage messageId) db m db' ↔
      (∃ row ∈ db.messages, row.id = messageId ∧ messageFromRow row = .ok m) ∧ db' = db := by
  unfold rereadMessage
  simp only [Tx.returns_bind, Tx.returns_read, Tx.returns_orRaise, returns_validated]
  constructor
  · rintro ⟨_, _, ⟨rfl, rfl⟩, row, _, ⟨hfind, rfl⟩, hrow, rfl⟩
    obtain ⟨hmem, hid⟩ := Table.find?_eq_some.mp hfind
    exact ⟨⟨row, hmem, hid, hrow⟩, rfl⟩
  · rintro ⟨⟨row, hmem, hid, hrow⟩, rfl⟩
    exact ⟨_, _, ⟨rfl, rfl⟩, row, _, ⟨Table.find?_eq_some.mpr ⟨hmem, hid⟩, rfl⟩, hrow, rfl⟩

/-! ## Outbox -/

/-- `created_at, id` among outbox rows. -/
abbrev webhookOldestFirst : WebhookRow → WebhookRow → Prop :=
  timeKeyLe WebhookRow.createdAt WebhookRow.id

/-- The finished rows that make room for one more: the oldest, as many as needed. -/
def webhookPruned (cap : Nat) (t : WebhookTable) : List WebhookRow :=
  firstBy webhookOldestFirst (t.count + 1 - cap) (t.rows.filter fun r => r.Finished)

/-- The outbox after its pruning. -/
def pruneWebhooks (cap : Nat) (t : WebhookTable) : WebhookTable :=
  t.deleteWhere fun r => r.id ∈ (webhookPruned cap t).map WebhookRow.id

/-- The row of a new event. -/
def webhookRow (id : UuidHex) (type : EventType) (roomId resourceId : String)
    (occurredAt : Timestamp) (data : WebhookData) : WebhookRow :=
  { id := "wh_" ++ id.text
    eventType := type
    roomId := roomId
    resourceId := resourceId
    createdAt := occurredAt
    payload := some
      { id := "wh_" ++ id.text, type := type, timestamp := occurredAt, roomId := roomId,
        data := data }
    nextAttemptAt := some occurredAt }

/-- `_insert_webhook`. -/
def insertWebhook (cfg : Config) (id : UuidHex) (type : EventType) (roomId resourceId : String)
    (occurredAt : Timestamp) (data : WebhookData) : StoreTx Unit :=
  if type ∉ cfg.webhookEvents then
    pure ()
  else do
    Tx.write fun db => { db with webhooks := pruneWebhooks cfg.maxWebhookDeliveries db.webhooks }
    let count ← Tx.read fun db => db.webhooks.count
    Tx.require (count < cfg.maxWebhookDeliveries)
      (.webhookCapacity "webhook delivery capacity reached")
    let inserted ← Tx.read fun db =>
      db.webhooks.insert? (webhookRow id type roomId resourceId occurredAt data)
    let inserted ← Tx.orRaise inserted .integrity
    Tx.write fun db => { db with webhooks := inserted }

/-- What `_insert_webhook` leaves in the outbox: nothing changes for a type that
is not selected; otherwise the pruned outbox, which has room, gains the new row. -/
def OutboxGains (cfg : Config) (row : WebhookRow) (t t' : WebhookTable) : Prop :=
  (row.eventType ∉ cfg.webhookEvents ∧ t' = t) ∨
    (row.eventType ∈ cfg.webhookEvents ∧
      (pruneWebhooks cfg.maxWebhookDeliveries t).count < cfg.maxWebhookDeliveries ∧
      (pruneWebhooks cfg.maxWebhookDeliveries t).insert? row = some t')

@[simp] theorem returns_insertWebhook {cfg : Config} {id : UuidHex} {type : EventType}
    {roomId resourceId : String} {occurredAt : Timestamp} {data : WebhookData}
    {db db' : Database} {u : Unit} :
    Tx.Returns (insertWebhook cfg id type roomId resourceId occurredAt data) db u db' ↔
      ∃ t, OutboxGains cfg (webhookRow id type roomId resourceId occurredAt data)
          db.webhooks t ∧ db' = { db with webhooks := t } := by
  unfold insertWebhook OutboxGains
  have htype : (webhookRow id type roomId resourceId occurredAt data).eventType = type := rfl
  rw [Tx.returns_ite, htype]
  simp only [Tx.returns_bind, Tx.returns_read, Tx.returns_orRaise, Tx.returns_require,
    Tx.returns_write, Tx.returns_pure]
  constructor
  · rintro (⟨hout, -, rfl⟩ | ⟨hin, _, _, rfl, _, _, ⟨rfl, rfl⟩, _, _, ⟨hroom, rfl⟩, _, _,
      ⟨rfl, rfl⟩, inserted, _, ⟨hins, rfl⟩, rfl⟩)
    · exact ⟨db'.webhooks, .inl ⟨hout, rfl⟩, rfl⟩
    · exact ⟨inserted, .inr ⟨not_not.mp hin, hroom, hins⟩, rfl⟩
  · rintro ⟨t, ⟨hout, rfl⟩ | ⟨hin, hroom, hins⟩, rfl⟩
    · exact .inl ⟨hout, trivial, rfl⟩
    · exact .inr ⟨not_not.mpr hin, (), _, rfl, _, _, ⟨rfl, rfl⟩, (), _, ⟨hroom, rfl⟩, _, _,
        ⟨rfl, rfl⟩, t, _, ⟨hins, rfl⟩, rfl⟩

/-- The rows `_scrub_message_webhooks` selects. -/
def ofMessage (roomId messageId : String) (r : WebhookRow) : Prop :=
  r.roomId = roomId ∧ r.resourceId = messageId ∧ r.eventType.isMessage = true

instance (roomId messageId : String) : DecidablePred (ofMessage roomId messageId) := by
  intro r
  unfold ofMessage
  infer_instance

/-- `_scrub_message_webhooks`. -/
def scrubMessageWebhooks (roomId messageId : String) : StoreTx Unit :=
  Tx.write fun db => { db with webhooks := scrub db.webhooks (ofMessage roomId messageId) }

/-- `_scrub_room_webhooks`. -/
def scrubRoomWebhooks (roomId : String) : StoreTx Unit :=
  Tx.write fun db => { db with webhooks := scrub db.webhooks fun r => r.roomId = roomId }

/-! ## Trimming -/

/-- `created_at, id` among messages. -/
abbrev messageOldestFirst : MessageRow → MessageRow → Prop :=
  timeKeyLe MessageRow.createdAt MessageRow.id

/-- `SELECT id, room_id FROM messages WHERE created_at < ?`. -/
def olderThan (cutoff : Timestamp) (db : Database) : List MessageRow :=
  db.messages.rows.filter fun r => r.createdAt < cutoff

/-- The oldest messages of a room past its cap. -/
def pastRoomCap (cfg : Config) (roomId : String) (db : Database) : List MessageRow :=
  let inRoom := db.messages.rows.filter fun r => r.roomId = roomId
  firstBy messageOldestFirst (inRoom.length - cfg.maxStoredMessagesPerRoom) inRoom

/-- The oldest messages past the global cap. -/
def pastGlobalCap (cfg : Config) (db : Database) : List MessageRow :=
  firstBy messageOldestFirst (db.messages.count - cfg.maxStoredMessages) db.messages.rows

/-- The column holds texts: what is trimmed by them is what is trimmed by the instants. -/
theorem trimmed_by_text {cfg : Config} {db : Database} {created : MessageRow → Datetime}
    (hcreated : ∀ r ∈ db.messages.rows, (created r).timestamp = r.createdAt) (roomId : String)
    (cutoff : Datetime) :
    (db.messages.rows.filter fun r => (created r).isoformat < cutoff.isoformat) =
        olderThan cutoff.timestamp db ∧
      firstBy (timeKeyLe (fun r => (created r).isoformat) MessageRow.id)
          ((db.messages.rows.filter fun r => r.roomId = roomId).length -
            cfg.maxStoredMessagesPerRoom) (db.messages.rows.filter fun r => r.roomId = roomId) =
        pastRoomCap cfg roomId db ∧
      firstBy (timeKeyLe (fun r => (created r).isoformat) MessageRow.id)
          (db.messages.count - cfg.maxStoredMessages) db.messages.rows =
        pastGlobalCap cfg db := by
  refine ⟨List.filter_congr fun r hr => ?_, firstBy_isoformat (fun r hr => ?_) _,
    firstBy_isoformat hcreated _⟩
  · refine decide_eq_decide.mpr ?_
    rw [isoformat_lt_iff, ← timestamp_lt_iff, hcreated r hr]
  · exact hcreated r (List.mem_of_mem_filter hr)

/-- The cutoff of the configured retention, if there is one. -/
def retentionCutoff (cfg : Config) (now : Timestamp) : Option Timestamp :=
  cfg.messageRetentionDays.map fun d => now - days d

/-- The messages past the configured age. -/
def pastAge (cfg : Config) (now : Timestamp) (db : Database) : List MessageRow :=
  match retentionCutoff cfg now with
  | none => []
  | some cutoff => olderThan cutoff db

/-- The age pass of `_trim_messages`. -/
def trimByAge (cfg : Config) (now : Timestamp) : StoreTx Nat :=
  if cfg.messageRetentionDays = none then pure 0
  else deleteMessagesWithWebhookScrub (pastAge cfg now)

@[simp] theorem returns_trimByAge {cfg : Config} {now : Timestamp} {db db' : Database} {n : Nat} :
    Tx.Returns (trimByAge cfg now) db n db' ↔
      n = (pastAge cfg now db).length ∧ db' = db.removeBatch (pastAge cfg now db) := by
  unfold trimByAge
  by_cases hnone : cfg.messageRetentionDays = none
  · have hempty : pastAge cfg now db = [] := by
      unfold pastAge retentionCutoff
      rw [hnone]
      rfl
    rw [if_pos hnone, hempty, Database.removeBatch_nil]
    exact Tx.returns_pure
  · rw [if_neg hnone]
    exact returns_deleteMessagesWithWebhookScrub

/-- `_trim_messages`. -/
def trimMessages (cfg : Config) (roomId : String) (now : Timestamp) (auditId : UuidHex)
    (auditAt : Timestamp) : StoreTx Unit := do
  let ageDeleted ← trimByAge cfg now
  let roomCapDeleted ← deleteMessagesWithWebhookScrub (pastRoomCap cfg roomId)
  let globalCapDeleted ← deleteMessagesWithWebhookScrub (pastGlobalCap cfg)
  if ageDeleted = 0 ∧ roomCapDeleted = 0 ∧ globalCapDeleted = 0 then
    pure ()
  else
    insertAudit cfg auditId auditAt .retentionAutomatic "system:retention" none
      (.automatic ageDeleted globalCapDeleted roomCapDeleted roomId (retentionCutoff cfg now))

/-- What trimming does to everything but the audit trail. -/
def Database.trim (cfg : Config) (roomId : String) (now : Timestamp) (db : Database) :
    Database :=
  let aged := db.removeBatch (pastAge cfg now db)
  let capped := aged.removeBatch (pastRoomCap cfg roomId aged)
  capped.removeBatch (pastGlobalCap cfg capped)

theorem trimMessages_same {cfg : Config} {roomId : String} {now : Timestamp}
    {auditId : UuidHex} {auditAt : Timestamp} {db db' : Database} {u : Unit}
    (h : Tx.Returns (trimMessages cfg roomId now auditId auditAt) db u db') :
    SameButAudit (db.trim cfg roomId now) db' := by
  unfold trimMessages at h
  simp only [Tx.returns_bind, Tx.returns_ite, Tx.returns_pure, returns_trimByAge,
    returns_deleteMessagesWithWebhookScrub] at h
  obtain ⟨_, _, ⟨-, rfl⟩, _, _, ⟨-, rfl⟩, _, _, ⟨-, rfl⟩, haudit⟩ := h
  rcases haudit with ⟨-, -, rfl⟩ | ⟨-, haudit⟩
  · exact ⟨rfl, rfl, rfl, rfl, rfl, rfl⟩
  · exact insertAudit_same haudit

end Store
end ChatEngine
