import ChatEngine.Store.Statements

/-!
# Message operations

The five operations that write messages, each as its transaction in source order
and with the lemma that says everything a successful call may have done:

* `createMessage` and `createMessage_ok`;
* `updateMessage` and `updateMessage_ok`;
* `deleteMessage` and `deleteMessage_ok`;
* `setMessageReaction` and `setMessageReaction_ok`;
* `setMessagePin` and `setMessagePin_ok`.

A committed change is stated with `CommitsWith`: the tables are those of an
explicit database, and the outbox has gained an explicit row.
-/

namespace ChatEngine
namespace Store

open Lib
open Models

/-- The database `db'` is `base`, apart from its audit trail, with one more
outbox row when the row's type is selected. -/
structure CommitsWith (cfg : Config) (base : Database) (row : WebhookRow) (db' : Database) :
    Prop where
  rooms : db'.rooms = base.rooms
  messages : db'.messages = base.messages
  reactions : db'.reactions = base.reactions
  memberControls : db'.memberControls = base.memberControls
  readStates : db'.readStates = base.readStates
  outbox : OutboxGains cfg row base.webhooks db'.webhooks

/-- An outbox insert after an audit insert. -/
theorem CommitsWith.of_same {cfg : Config} {base db : Database} {row : WebhookRow}
    {t : WebhookTable} (hsame : SameButAudit base db)
    (hgains : OutboxGains cfg row db.webhooks t) :
    CommitsWith cfg base row { db with webhooks := t } :=
  ⟨hsame.rooms, hsame.messages, hsame.reactions, hsame.memberControls, hsame.readStates,
    hsame.webhooks ▸ hgains⟩

theorem SameButAudit.scrub {base db : Database} {p : WebhookRow → Prop} [DecidablePred p]
    (h : SameButAudit base db) :
    SameButAudit { base with webhooks := Store.scrub base.webhooks p }
      { db with webhooks := Store.scrub db.webhooks p } :=
  ⟨h.rooms, h.messages, h.reactions, h.memberControls, h.readStates, by
    change Store.scrub db.webhooks p = Store.scrub base.webhooks p
    rw [h.webhooks]⟩

theorem SameButAudit.refl (db : Database) : SameButAudit db db :=
  ⟨rfl, rfl, rfl, rfl, rfl, rfl⟩

/-- What the room and member checks of a write let through. -/
structure MayWrite (roomId : String) (allowFrozen : Bool) (memberSubject : Option String)
    (now : Timestamp) (db : Database) : Prop where
  room : ∃ room ∈ db.rooms, room.key = roomId ∧ room.archivedAt = none ∧
    (room.frozenAt = none ∨ allowFrozen = true)
  member : MemberMayWrite roomId memberSubject now db

/-! ## Create -/

/-- The arguments of `create_message`. -/
structure CreateMessage where
  roomId : String
  sender : String
  content : String
  metadata : MessageMetadata := []
  attachments : List AttachmentReference := []
  mentionedSubjects : List String := []
  clientMessageId : Option String := none
  parentMessageId : Option String := none
  allowFrozen : Bool := false
  memberSubject : Option String := none
  authorSubject : Option String := none
  deriving DecidableEq

/-- The row an idempotency key names; the empty text is no key. -/
def findIdempotent (roomId : String) (clientMessageId : Option String) (db : Database) :
    Option MessageRow :=
  match clientMessageId with
  | none => none
  | some key =>
      if key = "" then none
      else db.messages.rows.find? fun r =>
        decide (r.roomId = roomId ∧ r.clientMessageId = some key)

theorem findIdempotent_eq_some {roomId : String} {clientMessageId : Option String}
    {db : Database} {row : MessageRow} (h : findIdempotent roomId clientMessageId db = some row) :
    ∃ key, clientMessageId = some key ∧ key ≠ "" ∧
      row ∈ db.messages ∧ row.roomId = roomId ∧ row.clientMessageId = some key := by
  unfold findIdempotent at h
  cases clientMessageId with
  | none => cases h
  | some key =>
      simp only at h
      split_ifs at h with hempty
      have hrow := List.find?_some h
      simp only [decide_eq_true_eq] at hrow
      exact ⟨key, rfl, hempty, List.mem_of_find?_eq_some h, hrow⟩

/-- The reply target exists in the room, is not deleted and is no reply itself. -/
def requireParent (roomId : String) (parentMessageId : Option String) : StoreTx Unit :=
  match parentMessageId with
  | none => pure ()
  | some parentId => do
      let parent ← requireMessage roomId parentId
      Tx.require (parent.deletedAt = none) (.messageDeleted parentId)
      Tx.require (parent.parentMessageId = none) (.threadDepth parentId)

@[simp] theorem returns_requireParent {roomId : String} {parentMessageId : Option String}
    {db db' : Database} {u : Unit} :
    Tx.Returns (requireParent roomId parentMessageId) db u db' ↔
      (∀ parentId, parentMessageId = some parentId →
        ∃ parent ∈ db.messages, parent.id = parentId ∧ parent.roomId = roomId ∧
          parent.deletedAt = none ∧ parent.parentMessageId = none) ∧ db' = db := by
  unfold requireParent
  cases parentMessageId with
  | none => simp
  | some parentId =>
      simp only [Tx.returns_bind, returns_requireMessage, Tx.returns_require,
        Option.some.injEq, forall_eq']
      constructor
      · rintro ⟨parent, _, ⟨⟨hmem, hid, hroom⟩, rfl⟩, _, _, ⟨hdeleted, rfl⟩, hdepth, rfl⟩
        exact ⟨⟨parent, hmem, hid, hroom, hdeleted, hdepth⟩, rfl⟩
      · rintro ⟨⟨parent, hmem, hid, hroom, hdeleted, hdepth⟩, rfl⟩
        exact ⟨parent, _, ⟨⟨hmem, hid, hroom⟩, rfl⟩, (), _, ⟨hdeleted, rfl⟩, hdepth, rfl⟩

/-- The constructor call of `_create_message_sync`. -/
def CreateMessage.raw (args : CreateMessage) (id : UuidHex) (createdAt : Timestamp) : Message :=
  { id := id.text
    roomId := args.roomId
    sender := args.sender
    content := args.content
    createdAt := createdAt
    clientMessageId := args.clientMessageId
    parentMessageId := args.parentMessageId
    metadata := args.metadata
    attachments := args.attachments
    mentionedSubjects := args.mentionedSubjects }

/-- The row `_create_message_sync` inserts. -/
def newMessageRow (message : Message) (authorSubject : Option String) : MessageRow :=
  { id := message.id
    roomId := message.roomId
    sender := message.sender
    authorSubject := authorSubject
    content := message.content
    createdAt := message.createdAt
    clientMessageId := message.clientMessageId
    parentMessageId := message.parentMessageId
    metadata := sortKeys message.metadata
    attachments := message.attachments
    mentionedSubjects := message.mentionedSubjects }

/-- The part of `_create_message_sync` after its idempotency check.  Readings:
`now 1` dates the message and `now 2` an audit row; `uuid 0`, `uuid 1` and
`uuid 2` name the message, the audit row and the outbox row. -/
def createNewMessage (cfg : Config) (rd : Readings) (args : CreateMessage) :
    StoreTx (Message × Bool) := do
  requireParent args.roomId args.parentMessageId
  let message ← validated (args.raw (rd.uuid 0) (rd.now 1)).build
  insertMessageRow (newMessageRow message args.authorSubject)
  trimMessages cfg args.roomId message.createdAt (rd.uuid 1) (rd.now 2)
  let persisted ← Tx.read fun db => db.messages.find? message.id
  let persisted ← Tx.orRaise persisted (.runtime "newly created message was not retained")
  let message ← validated (messageFromRow persisted)
  insertWebhook cfg (rd.uuid 2) .messageCreated args.roomId message.id message.createdAt
    (.messageCreated message)
  pure (message, true)

/-- `_create_message_sync`; `now 0` is the member check's reading. -/
def createMessage (cfg : Config) (rd : Readings) (args : CreateMessage) :
    StoreTx (Message × Bool) := do
  requireOpenRoom args.roomId args.allowFrozen
  enforceMemberWrite args.roomId args.memberSubject (rd.now 0)
  let existing ← Tx.read (findIdempotent args.roomId args.clientMessageId)
  match existing with
  | some row => do
      let message ← validated (messageFromRow row)
      pure (message, false)
  | none => createNewMessage cfg rd args

/-- What a successful insert of a new message did. -/
structure Created (cfg : Config) (rd : Readings) (args : CreateMessage) (db : Database)
    (m : Message) (db' : Database) : Prop where
  fresh : findIdempotent args.roomId args.clientMessageId db = none
  parent : ∀ parentId, args.parentMessageId = some parentId →
    ∃ parent ∈ db.messages, parent.id = parentId ∧ parent.roomId = args.roomId ∧
      parent.deletedAt = none ∧ parent.parentMessageId = none
  effect : ∃ built inserted,
    (args.raw (rd.uuid 0) (rd.now 1)).build = .ok built ∧
    (newMessageRow built args.authorSubject).Checks ∧
    (newMessageRow built args.authorSubject).Admissible db ∧
    db.messages.insert? (newMessageRow built args.authorSubject) = some inserted ∧
    (∃ row ∈ db'.messages, row.id = built.id ∧ messageFromRow row = .ok m) ∧
    CommitsWith cfg
      (({ db with messages := inserted } : Database).trim cfg args.roomId built.createdAt)
      (webhookRow (rd.uuid 2) .messageCreated args.roomId m.id m.createdAt (.messageCreated m))
      db'

theorem createNewMessage_ok {cfg : Config} {rd : Readings} {args : CreateMessage}
    {db db' : Database} {m : Message} {created : Bool}
    (hfresh : findIdempotent args.roomId args.clientMessageId db = none)
    (h : Tx.Returns (createNewMessage cfg rd args) db (m, created) db') :
    created = true ∧ Created cfg rd args db m db' := by
  unfold createNewMessage at h
  simp only [Tx.returns_bind, Tx.returns_read, Tx.returns_orRaise, Tx.returns_pure,
    returns_requireParent, returns_validated, returns_insertMessageRow,
    returns_insertWebhook] at h
  obtain ⟨_, _, ⟨hparent, rfl⟩, built, _, ⟨hbuild, rfl⟩, _, _,
    ⟨hchecks, hadm, inserted, hins, rfl⟩, _, trimmed, htrim, _, _, ⟨rfl, rfl⟩, row, _,
    ⟨hfind, rfl⟩, message, _, ⟨hrow, rfl⟩, _, _, ⟨t, hgains, rfl⟩, hresult, rfl⟩ := h
  cases hresult
  obtain ⟨hmem, hid⟩ := Table.find?_eq_some.mp hfind
  exact ⟨rfl, hfresh, hparent, built, inserted, hbuild, hchecks, hadm, hins,
    ⟨row, hmem, hid, hrow⟩, CommitsWith.of_same (trimMessages_same htrim) hgains⟩

/-- A successful create either returned the message its key already names, and
changed nothing, or inserted a new one. -/
theorem createMessage_ok {cfg : Config} {rd : Readings} {args : CreateMessage}
    {db db' : Database} {m : Message} {created : Bool}
    (h : Tx.Returns (createMessage cfg rd args) db (m, created) db') :
    MayWrite args.roomId args.allowFrozen args.memberSubject (rd.now 0) db ∧
      ((created = false ∧ db' = db ∧
          ∃ row, findIdempotent args.roomId args.clientMessageId db = some row ∧
            messageFromRow row = .ok m) ∨
        (created = true ∧ Created cfg rd args db m db')) := by
  unfold createMessage at h
  simp only [Tx.returns_bind, Tx.returns_read, returns_requireOpenRoom,
    returns_enforceMemberWrite] at h
  obtain ⟨_, _, ⟨hroom, rfl⟩, _, _, ⟨hmember, rfl⟩, existing, _, ⟨hexisting, rfl⟩, hrest⟩ := h
  refine ⟨⟨hroom, hmember⟩, ?_⟩
  cases existing with
  | some row =>
      simp only [Tx.returns_bind, returns_validated, Tx.returns_pure] at hrest
      obtain ⟨message, _, ⟨hrow, rfl⟩, hresult, rfl⟩ := hrest
      cases hresult
      exact .inl ⟨rfl, rfl, row, hexisting.symm, hrow⟩
  | none => exact .inr (createNewMessage_ok hexisting.symm hrest)

/-! ## Update -/

/-- The arguments of `update_message`. -/
structure UpdateMessage where
  roomId : String
  messageId : String
  actor : String
  content : String
  metadata : Option MessageMetadata := none
  mentionedSubjects : Option (List String) := none
  isAdmin : Bool := false
  memberSubject : Option String := none
  deriving DecidableEq

/-- The `UPDATE` of `_update_message_sync`. -/
def UpdateMessage.apply (args : UpdateMessage) (editedAt : Timestamp) (r : MessageRow) :
    MessageRow :=
  { r with
    content := args.content
    metadata := (args.metadata.map sortKeys).getD r.metadata
    mentionedSubjects := args.mentionedSubjects.getD r.mentionedSubjects
    editedAt := some editedAt }

@[simp] theorem UpdateMessage.apply_id (args : UpdateMessage) (editedAt : Timestamp)
    (r : MessageRow) : (args.apply editedAt r).id = r.id := rfl

/-- `_update_message_sync`. -/
def updateMessage (cfg : Config) (rd : Readings) (args : UpdateMessage) : StoreTx Message := do
  requireOpenRoom args.roomId args.isAdmin
  enforceMemberWrite args.roomId args.memberSubject (rd.now 0)
  let row ← requireMessage args.roomId args.messageId
  Tx.require (row.deletedAt = none) (.messageDeleted args.messageId)
  Tx.require (args.isAdmin = true ∨ row.sender = args.actor) (.messageOwnership args.messageId)
  updateMessageRow args.messageId (args.apply (rd.now 1)) (args.apply_id (rd.now 1))
  insertAudit cfg (rd.uuid 0) (rd.now 2) .messageUpdated args.actor args.roomId
    (.message args.messageId)
  let message ← rereadMessage args.messageId
  insertWebhook cfg (rd.uuid 1) .messageUpdated args.roomId message.id
    (message.editedAt.getD (rd.now 3)) (.messageUpdated args.actor message)
  pure message

/-- What a successful edit did. -/
structure Updated (cfg : Config) (rd : Readings) (args : UpdateMessage) (db : Database)
    (m : Message) (db' : Database) : Prop where
  mayWrite : MayWrite args.roomId args.isAdmin args.memberSubject (rd.now 0) db
  target : ∃ row ∈ db.messages, row.id = args.messageId ∧ row.roomId = args.roomId ∧
    row.deletedAt = none ∧ (args.isAdmin = true ∨ row.sender = args.actor) ∧
    messageFromRow (args.apply (rd.now 1) row) = .ok m
  commits : CommitsWith cfg
    (db.setMessage args.messageId (args.apply (rd.now 1)) (args.apply_id (rd.now 1)))
    (webhookRow (rd.uuid 1) .messageUpdated args.roomId m.id (m.editedAt.getD (rd.now 3))
      (.messageUpdated args.actor m))
    db'

theorem mem_setMessage {db : Database} {messageId : String} {f : MessageRow → MessageRow}
    {hid : ∀ r, (f r).id = r.id} {s : MessageRow} :
    s ∈ (db.setMessage messageId f hid).messages ↔
      (s ∈ db.messages ∧ s.id ≠ messageId) ∨ ∃ r ∈ db.messages, r.id = messageId ∧ f r = s := by
  change s ∈ db.messages.updateWhere (fun r => r.id = messageId) f hid ↔ _
  exact Table.mem_updateWhere

/-- The row a rewritten table holds under an id is the rewritten row. -/
theorem setMessage_row {db : Database} {messageId : String} {f : MessageRow → MessageRow}
    {hid : ∀ r, (f r).id = r.id} {row s : MessageRow} (hrow : row ∈ db.messages)
    (hrowId : row.id = messageId) (hs : s ∈ (db.setMessage messageId f hid).messages)
    (hsId : s.id = messageId) : s = f row := by
  rcases mem_setMessage.mp hs with ⟨hmem, hne⟩ | ⟨r, hr, hrid, rfl⟩
  · exact absurd hsId hne
  · rw [Table.eq_of_key hr hrow (hrid.trans hrowId.symm)]

theorem updateMessage_ok {cfg : Config} {rd : Readings} {args : UpdateMessage}
    {db db' : Database} {m : Message} (h : Tx.Returns (updateMessage cfg rd args) db m db') :
    Updated cfg rd args db m db' := by
  unfold updateMessage at h
  simp only [Tx.returns_bind, Tx.returns_require, Tx.returns_pure, returns_requireOpenRoom,
    returns_enforceMemberWrite, returns_requireMessage, returns_updateMessageRow,
    returns_rereadMessage, returns_insertWebhook] at h
  obtain ⟨_, _, ⟨hroom, rfl⟩, _, _, ⟨hmember, rfl⟩, row, _, ⟨⟨hmem, hid, hrowRoom⟩, rfl⟩, _, _,
    ⟨hdeleted, rfl⟩, _, _, ⟨howner, rfl⟩, _, _, ⟨-, rfl⟩, _, _, haudit, message, _,
    ⟨⟨reread, hreread, hrereadId, hdecode⟩, rfl⟩, _, _, ⟨t, hgains, rfl⟩, rfl, rfl⟩ := h
  have hsame := insertAudit_same haudit
  rw [hsame.messages] at hreread
  rw [setMessage_row hmem hid hreread hrereadId] at hdecode
  exact ⟨⟨hroom, hmember⟩, ⟨row, hmem, hid, hrowRoom, hdeleted, howner, hdecode⟩,
    CommitsWith.of_same hsame hgains⟩

/-! ## Delete -/

/-- The arguments of `delete_message`. -/
structure DeleteMessage where
  roomId : String
  messageId : String
  actor : String
  isAdmin : Bool := false
  memberSubject : Option String := none
  deriving DecidableEq

/-- The `UPDATE` of `_delete_message_sync`. -/
def MessageRow.tombstone (deletedAt : Timestamp) (r : MessageRow) : MessageRow :=
  { r with
    content := ""
    reactions := []
    pinnedAt := none
    metadata := []
    attachments := []
    mentionedSubjects := []
    pinnedBy := none
    deletedAt := some deletedAt }

@[simp] theorem MessageRow.tombstone_id (deletedAt : Timestamp) (r : MessageRow) :
    (r.tombstone deletedAt).id = r.id := rfl

/-- The room check of a deletion: an administrator may delete in any room. -/
def requireDeletableRoom (roomId : String) (isAdmin : Bool) : StoreTx Unit := do
  let room ← Tx.read fun db => db.rooms.find? roomId
  let room ← Tx.orRaise room (.roomNotFound roomId)
  Tx.require (isAdmin = true ∨ room.archivedAt = none) (.roomArchived roomId)
  Tx.require (isAdmin = true ∨ room.frozenAt = none) (.roomFrozen roomId)

@[simp] theorem returns_requireDeletableRoom {roomId : String} {isAdmin : Bool}
    {db db' : Database} {u : Unit} :
    Tx.Returns (requireDeletableRoom roomId isAdmin) db u db' ↔
      (∃ room ∈ db.rooms, room.key = roomId ∧
        (isAdmin = true ∨ (room.archivedAt = none ∧ room.frozenAt = none))) ∧ db' = db := by
  unfold requireDeletableRoom
  simp only [Tx.returns_bind, Tx.returns_read, Tx.returns_orRaise, Tx.returns_require]
  constructor
  · rintro ⟨_, _, ⟨rfl, rfl⟩, room, _, ⟨hfind, rfl⟩, _, _, ⟨harchived, rfl⟩, hfrozen, rfl⟩
    obtain ⟨hmem, hkey⟩ := Table.find?_eq_some.mp hfind
    exact ⟨⟨room, hmem, hkey, by tauto⟩, rfl⟩
  · rintro ⟨⟨room, hmem, hkey, hopen⟩, rfl⟩
    exact ⟨_, _, ⟨rfl, rfl⟩, room, _, ⟨Table.find?_eq_some.mpr ⟨hmem, hkey⟩, rfl⟩,
      (), _, ⟨by tauto, rfl⟩, by tauto, rfl⟩

/-- `DELETE FROM message_reactions WHERE message_id = ?`. -/
def Database.deleteReactionsOf (messageId : String) (db : Database) : Database :=
  { db with reactions := db.reactions.deleteWhere fun r => r.messageId = messageId }

/-- The part of `_delete_message_sync` for a message that is not a tombstone yet. -/
def deleteLiveMessage (cfg : Config) (rd : Readings) (args : DeleteMessage) :
    StoreTx (Message × Bool) := do
  Tx.write (Database.deleteReactionsOf args.messageId)
  updateMessageRow args.messageId (MessageRow.tombstone (rd.now 1))
    (MessageRow.tombstone_id (rd.now 1))
  insertAudit cfg (rd.uuid 0) (rd.now 2) .messageDeleted args.actor args.roomId
    (.message args.messageId)
  let message ← rereadMessage args.messageId
  scrubMessageWebhooks args.roomId args.messageId
  insertWebhook cfg (rd.uuid 1) .messageDeleted args.roomId message.id
    (message.deletedAt.getD (rd.now 3)) (.messageDeleted args.actor message)
  pure (message, true)

/-- `_delete_message_sync`. -/
def deleteMessage (cfg : Config) (rd : Readings) (args : DeleteMessage) :
    StoreTx (Message × Bool) := do
  requireDeletableRoom args.roomId args.isAdmin
  enforceMemberWrite args.roomId args.memberSubject (rd.now 0)
  let row ← requireMessage args.roomId args.messageId
  Tx.require (args.isAdmin = true ∨ row.sender = args.actor) (.messageOwnership args.messageId)
  if row.deletedAt ≠ none then do
    let message ← validated (messageFromRow row)
    pure (message, false)
  else
    deleteLiveMessage cfg rd args

/-- The database of a deletion before its own event enters the outbox. -/
def Database.tombstoneMessage (roomId messageId : String) (deletedAt : Timestamp)
    (db : Database) : Database :=
  { (db.deleteReactionsOf messageId).setMessage messageId (MessageRow.tombstone deletedAt)
      (MessageRow.tombstone_id deletedAt) with
    webhooks := scrub db.webhooks (ofMessage roomId messageId) }

/-- What a successful first deletion did. -/
structure Deleted (cfg : Config) (rd : Readings) (args : DeleteMessage) (db : Database)
    (row : MessageRow) (m : Message) (db' : Database) : Prop where
  live : row.deletedAt = none
  decodes : messageFromRow (row.tombstone (rd.now 1)) = .ok m
  commits : CommitsWith cfg (db.tombstoneMessage args.roomId args.messageId (rd.now 1))
    (webhookRow (rd.uuid 1) .messageDeleted args.roomId m.id (m.deletedAt.getD (rd.now 3))
      (.messageDeleted args.actor m))
    db'

theorem deleteLiveMessage_ok {cfg : Config} {rd : Readings} {args : DeleteMessage}
    {db db' : Database} {row : MessageRow} {m : Message} {changed : Bool}
    (hmem : row ∈ db.messages) (hid : row.id = args.messageId) (hlive : row.deletedAt = none)
    (h : Tx.Returns (deleteLiveMessage cfg rd args) db (m, changed) db') :
    changed = true ∧ Deleted cfg rd args db row m db' := by
  unfold deleteLiveMessage scrubMessageWebhooks at h
  simp only [Tx.returns_bind, Tx.returns_write, Tx.returns_pure, returns_updateMessageRow,
    returns_rereadMessage, returns_insertWebhook] at h
  obtain ⟨_, _, rfl, _, _, ⟨-, rfl⟩, _, _, haudit, message, _,
    ⟨⟨reread, hreread, hrereadId, hdecode⟩, rfl⟩, _, _, rfl, _, _, ⟨t, hgains, rfl⟩,
    hresult, rfl⟩ := h
  cases hresult
  have hsame := insertAudit_same haudit
  rw [hsame.messages] at hreread
  rw [setMessage_row hmem hid hreread hrereadId] at hdecode
  exact ⟨rfl, hlive, hdecode, CommitsWith.of_same hsame.scrub hgains⟩

theorem deleteMessage_ok {cfg : Config} {rd : Readings} {args : DeleteMessage}
    {db db' : Database} {m : Message} {changed : Bool}
    (h : Tx.Returns (deleteMessage cfg rd args) db (m, changed) db') :
    (∃ room ∈ db.rooms, room.key = args.roomId ∧
      (args.isAdmin = true ∨ (room.archivedAt = none ∧ room.frozenAt = none))) ∧
    MemberMayWrite args.roomId args.memberSubject (rd.now 0) db ∧
    ∃ row ∈ db.messages, row.id = args.messageId ∧ row.roomId = args.roomId ∧
      (args.isAdmin = true ∨ row.sender = args.actor) ∧
      ((changed = false ∧ db' = db ∧ row.deletedAt ≠ none ∧ messageFromRow row = .ok m) ∨
        (changed = true ∧ Deleted cfg rd args db row m db')) := by
  unfold deleteMessage at h
  simp only [Tx.returns_bind, Tx.returns_require, Tx.returns_ite, Tx.returns_pure,
    returns_requireDeletableRoom, returns_enforceMemberWrite, returns_requireMessage,
    returns_validated] at h
  obtain ⟨_, _, ⟨hroom, rfl⟩, _, _, ⟨hmember, rfl⟩, row, _, ⟨⟨hmem, hid, hrowRoom⟩, rfl⟩, _, _,
    ⟨howner, rfl⟩, hrest⟩ := h
  refine ⟨hroom, hmember, row, hmem, hid, hrowRoom, howner, ?_⟩
  rcases hrest with ⟨hdeleted, message, _, ⟨hrow, rfl⟩, hresult, rfl⟩ | ⟨hlive, hrest⟩
  · cases hresult
    exact .inl ⟨rfl, rfl, hdeleted, hrow⟩
  · exact .inr (deleteLiveMessage_ok hmem hid (not_not.mp hlive) hrest)

/-! ## Reactions -/

/-- The arguments of `set_message_reaction`. -/
structure SetMessageReaction where
  roomId : String
  messageId : String
  reactor : String
  key : String
  present : Bool
  allowFrozen : Bool := false
  memberSubject : Option String := none
  deriving DecidableEq

/-- The reaction keys on a message, one for each reactor. -/
def reactionKeys (messageId : String) (db : Database) : List String :=
  (db.reactions.rows.filter fun r => r.messageId = messageId).map ReactionRow.reactionKey

/-- `SELECT reaction_key, COUNT(*) … GROUP BY reaction_key ORDER BY reaction_key`. -/
def reactionSummaries (messageId : String) (db : Database) : List ReactionSummary :=
  ((reactionKeys messageId db).dedup.insertionSort (· ≤ ·)).map fun key =>
    { key := key, count := (reactionKeys messageId db).count key }

def maxReactionKeys : Nat := 20

/-- `INSERT INTO message_reactions` under its `CHECK` constraints and foreign keys. -/
def insertReactionRow (row : ReactionRow) : StoreTx Unit := do
  Tx.require (sqliteActorOk row.reactor = true ∧ matchesReactionKey row.reactionKey = true)
    .check
  let referenced ← Tx.read fun db =>
    (db.messages.find? row.messageId).isSome && (db.rooms.find? row.roomId).isSome
  Tx.require (referenced = true) .integrity
  let inserted ← Tx.read fun db => db.reactions.insert? row
  let inserted ← Tx.orRaise inserted .integrity
  Tx.write fun db => { db with reactions := inserted }

/-- Add or remove one actor's reaction: whether the table changed. -/
def changeReaction (args : SetMessageReaction) (now : Timestamp) : StoreTx Bool := do
  let existing ← Tx.read fun db =>
    (db.reactions.find? (args.messageId, args.reactor, args.key)).isSome
  if args.present = true ∧ existing = false then do
    let keys ← Tx.read (reactionKeys args.messageId)
    Tx.require (args.key ∈ keys ∨ keys.dedup.length < maxReactionKeys)
      (.reactionCapacity args.messageId)
    insertReactionRow
      { messageId := args.messageId, roomId := args.roomId, reactor := args.reactor,
        reactionKey := args.key, createdAt := now }
    pure true
  else if args.present = false ∧ existing = true then do
    Tx.write fun db =>
      { db with
        reactions := db.reactions.deleteWhere fun r =>
          r.key = (args.messageId, args.reactor, args.key) }
    pure true
  else
    pure false

/-- The summary column after a change of the reaction table. -/
def MessageRow.setReactions (summaries : List ReactionSummary) (r : MessageRow) : MessageRow :=
  { r with reactions := summaries }

@[simp] theorem MessageRow.setReactions_id (summaries : List ReactionSummary) (r : MessageRow) :
    (r.setReactions summaries).id = r.id := rfl

/-- Recompute and store the reaction summary of a message. -/
def refreshReactions (messageId : String) : StoreTx Unit := do
  let summaries ← Tx.read (reactionSummaries messageId)
  let summaries ← validated (validateEach ReactionSummary.validate summaries)
  updateMessageRow messageId (MessageRow.setReactions summaries)
    (MessageRow.setReactions_id summaries)

/-- `_set_message_reaction_sync`; `now 0` is read before the transaction. -/
def setMessageReaction (cfg : Config) (rd : Readings) (args : SetMessageReaction) :
    StoreTx ReactionMutation := do
  requireOpenRoom args.roomId args.allowFrozen
  enforceMemberWrite args.roomId args.memberSubject (rd.now 1)
  let row ← requireMessage args.roomId args.messageId
  Tx.require (row.deletedAt = none) (.messageDeleted args.messageId)
  let changed ← changeReaction args (rd.now 0)
  if changed = true then do
    refreshReactions args.messageId
    let message ← rereadMessage args.messageId
    let mutation ← validated <| ReactionMutation.build
      { message := message, key := args.key, reactor := args.reactor,
        present := args.present, changed := true, updatedAt := rd.now 0 }
    insertWebhook cfg (rd.uuid 0) .messageReactionUpdated args.roomId args.messageId (rd.now 0)
      (.messageReactionUpdated mutation)
    pure mutation
  else do
    let message ← validated (messageFromRow row)
    validated <| ReactionMutation.build
      { message := message, key := args.key, reactor := args.reactor,
        present := args.present, changed := false, updatedAt := rd.now 0 }

/-- The reaction table after a change. -/
inductive ReactionsChanged (args : SetMessageReaction) (now : Timestamp) (db : Database) :
    Table ReactionRow (String × String × String) ReactionRow.key → Prop
  | added {t : Table ReactionRow (String × String × String) ReactionRow.key} :
      args.present = true →
      (args.key ∈ reactionKeys args.messageId db ∨
        (reactionKeys args.messageId db).dedup.length < maxReactionKeys) →
      sqliteActorOk args.reactor = true → matchesReactionKey args.key = true →
      db.reactions.insert?
        { messageId := args.messageId, roomId := args.roomId, reactor := args.reactor,
          reactionKey := args.key, createdAt := now } = some t →
      ReactionsChanged args now db t
  | removed :
      args.present = false →
      (db.reactions.find? (args.messageId, args.reactor, args.key)).isSome = true →
      ReactionsChanged args now db (db.reactions.deleteWhere fun r =>
        r.key = (args.messageId, args.reactor, args.key))

theorem changeReaction_ok {args : SetMessageReaction} {now : Timestamp} {db db' : Database}
    {changed : Bool} (h : Tx.Returns (changeReaction args now) db changed db') :
    (changed = false ∧ db' = db ∧
      (args.present = (db.reactions.find? (args.messageId, args.reactor, args.key)).isSome)) ∨
    (changed = true ∧ ∃ t, ReactionsChanged args now db t ∧ db' = { db with reactions := t }) := by
  unfold changeReaction insertReactionRow at h
  simp only [Tx.returns_bind, Tx.returns_read, Tx.returns_ite, Tx.returns_require,
    Tx.returns_orRaise, Tx.returns_write, Tx.returns_pure] at h
  obtain ⟨_, _, ⟨rfl, rfl⟩, ⟨⟨hpresent, -⟩, _, _, ⟨rfl, rfl⟩, _, _, ⟨hcap, rfl⟩, _, _,
    ⟨_, _, ⟨hchecks, rfl⟩, _, _, ⟨rfl, rfl⟩, _, _, ⟨-, rfl⟩, _, _, ⟨rfl, rfl⟩, t, _,
      ⟨hins, rfl⟩, rfl⟩, rfl, rfl⟩ |
    ⟨hnotAdd, ⟨⟨hpresent, hexisting⟩, _, _, rfl, rfl, rfl⟩ | ⟨hnotRemove, rfl, rfl⟩⟩⟩ := h
  · exact .inr ⟨rfl, t, .added hpresent hcap hchecks.1 hchecks.2 hins, rfl⟩
  · exact .inr ⟨rfl, _, .removed hpresent hexisting, rfl⟩
  · refine .inl ⟨rfl, rfl, ?_⟩
    cases hp : args.present with
    | true =>
        cases he : (db'.reactions.find? (args.messageId, args.reactor, args.key)).isSome with
        | true => rfl
        | false => exact absurd ⟨hp, he⟩ hnotAdd
    | false =>
        cases he : (db'.reactions.find? (args.messageId, args.reactor, args.key)).isSome with
        | true => exact absurd ⟨hp, he⟩ hnotRemove
        | false => rfl

/-- What a successful reaction change did. -/
structure Reacted (cfg : Config) (rd : Readings) (args : SetMessageReaction) (db : Database)
    (row : MessageRow) (mutation : ReactionMutation) (db' : Database) : Prop where
  changed : mutation.changed = true
  effect : ∃ t summaries, ReactionsChanged args (rd.now 0) db t ∧
    validateEach ReactionSummary.validate
      (reactionSummaries args.messageId { db with reactions := t }) = .ok summaries ∧
    messageFromRow (row.setReactions summaries) = .ok mutation.message ∧
    CommitsWith cfg
      (({ db with reactions := t } : Database).setMessage args.messageId
        (MessageRow.setReactions summaries) (MessageRow.setReactions_id summaries))
      (webhookRow (rd.uuid 0) .messageReactionUpdated args.roomId args.messageId (rd.now 0)
        (.messageReactionUpdated mutation))
      db'

theorem setMessageReaction_ok {cfg : Config} {rd : Readings} {args : SetMessageReaction}
    {db db' : Database} {mutation : ReactionMutation}
    (h : Tx.Returns (setMessageReaction cfg rd args) db mutation db') :
    MayWrite args.roomId args.allowFrozen args.memberSubject (rd.now 1) db ∧
    ∃ row ∈ db.messages, row.id = args.messageId ∧ row.roomId = args.roomId ∧
      row.deletedAt = none ∧
      ((mutation.changed = false ∧ db' = db ∧ messageFromRow row = .ok mutation.message ∧
          args.present =
            (db.reactions.find? (args.messageId, args.reactor, args.key)).isSome) ∨
        Reacted cfg rd args db row mutation db') := by
  unfold setMessageReaction refreshReactions at h
  simp only [Tx.returns_bind, Tx.returns_read, Tx.returns_require, Tx.returns_ite,
    Tx.returns_pure, returns_requireOpenRoom, returns_enforceMemberWrite,
    returns_requireMessage, returns_validated, returns_updateMessageRow,
    returns_rereadMessage, returns_insertWebhook] at h
  obtain ⟨_, _, ⟨hroom, rfl⟩, _, _, ⟨hmember, rfl⟩, row, _, ⟨⟨hmem, hid, hrowRoom⟩, rfl⟩, _, _,
    ⟨hlive, rfl⟩, changed, _, hchange, hrest⟩ := h
  refine ⟨⟨hroom, hmember⟩, row, hmem, hid, hrowRoom, hlive, ?_⟩
  rcases changeReaction_ok hchange with ⟨rfl, rfl, hpresent⟩ | ⟨rfl, t, hreactions, rfl⟩
  · rcases hrest with ⟨htrue, -⟩ | ⟨-, message, _, ⟨hdecode, rfl⟩, hbuild, rfl⟩
    · cases htrue
    · obtain ⟨hmessage, hchanged⟩ := ReactionMutation.build_ok hbuild
      exact .inl ⟨hchanged, rfl, by rw [hmessage]; exact hdecode, hpresent⟩
  · rcases hrest with ⟨-, _, _, ⟨_, _, ⟨rfl, rfl⟩, summaries, _, ⟨hsummaries, rfl⟩, -, rfl⟩,
      message, _, ⟨⟨reread, hreread, hrereadId, hdecode⟩, rfl⟩, built, _, ⟨hbuild, rfl⟩, _, _,
      ⟨outbox, hgains, rfl⟩, rfl, rfl⟩ | ⟨hfalse, -⟩
    · obtain ⟨hmessage, hchanged⟩ := ReactionMutation.build_ok hbuild
      rw [setMessage_row hmem hid hreread hrereadId] at hdecode
      refine .inr ⟨hchanged, t, summaries, hreactions, hsummaries, ?_, ?_⟩
      · rw [hmessage]
        exact hdecode
      · exact CommitsWith.of_same (SameButAudit.refl _) hgains
    · exact absurd rfl hfalse

/-! ## Pins -/

/-- The arguments of `set_message_pin`. -/
structure SetMessagePin where
  roomId : String
  messageId : String
  pinner : String
  actor : String
  pinned : Bool
  allowFrozen : Bool := false
  memberSubject : Option String := none
  deriving DecidableEq

/-- The `UPDATE` of `_set_message_pin_sync`. -/
def SetMessagePin.apply (args : SetMessagePin) (now : Timestamp) (r : MessageRow) : MessageRow :=
  { r with
    pinnedAt := if args.pinned = true then some now else none
    pinnedBy := if args.pinned = true then some args.pinner else none }

@[simp] theorem SetMessagePin.apply_id (args : SetMessagePin) (now : Timestamp) (r : MessageRow) :
    (args.apply now r).id = r.id := rfl

/-- `_set_message_pin_sync`; `now 0` is read before the transaction. -/
def setMessagePin (cfg : Config) (rd : Readings) (args : SetMessagePin) :
    StoreTx PinMutation := do
  requireOpenRoom args.roomId args.allowFrozen
  enforceMemberWrite args.roomId args.memberSubject (rd.now 1)
  let row ← requireMessage args.roomId args.messageId
  Tx.require (row.deletedAt = none) (.messageDeleted args.messageId)
  if row.pinnedAt.isSome ≠ args.pinned then do
    updateMessageRow args.messageId (args.apply (rd.now 0)) (args.apply_id (rd.now 0))
    insertAudit cfg (rd.uuid 0) (rd.now 2) .messagePinUpdated args.actor args.roomId
      (.pin args.messageId args.pinned)
    let message ← rereadMessage args.messageId
    let mutation ← validated <| PinMutation.build
      { message := message, pinner := args.pinner, pinned := args.pinned, changed := true,
        updatedAt := rd.now 0 }
    insertWebhook cfg (rd.uuid 1) .messagePinUpdated args.roomId args.messageId (rd.now 0)
      (.messagePinUpdated mutation)
    pure mutation
  else do
    let message ← validated (messageFromRow row)
    validated <| PinMutation.build
      { message := message, pinner := args.pinner, pinned := args.pinned, changed := false,
        updatedAt := rd.now 0 }

/-- What a successful pin change did. -/
structure Pinned (cfg : Config) (rd : Readings) (args : SetMessagePin) (db : Database)
    (row : MessageRow) (mutation : PinMutation) (db' : Database) : Prop where
  changed : mutation.changed = true
  differs : row.pinnedAt.isSome ≠ args.pinned
  decodes : messageFromRow (args.apply (rd.now 0) row) = .ok mutation.message
  commits : CommitsWith cfg
    (db.setMessage args.messageId (args.apply (rd.now 0)) (args.apply_id (rd.now 0)))
    (webhookRow (rd.uuid 1) .messagePinUpdated args.roomId args.messageId (rd.now 0)
      (.messagePinUpdated mutation))
    db'

theorem setMessagePin_ok {cfg : Config} {rd : Readings} {args : SetMessagePin}
    {db db' : Database} {mutation : PinMutation}
    (h : Tx.Returns (setMessagePin cfg rd args) db mutation db') :
    MayWrite args.roomId args.allowFrozen args.memberSubject (rd.now 1) db ∧
    ∃ row ∈ db.messages, row.id = args.messageId ∧ row.roomId = args.roomId ∧
      row.deletedAt = none ∧
      ((mutation.changed = false ∧ db' = db ∧ messageFromRow row = .ok mutation.message ∧
          row.pinnedAt.isSome = args.pinned) ∨
        Pinned cfg rd args db row mutation db') := by
  unfold setMessagePin at h
  simp only [Tx.returns_bind, Tx.returns_require, Tx.returns_ite, Tx.returns_pure,
    returns_requireOpenRoom, returns_enforceMemberWrite, returns_requireMessage,
    returns_validated, returns_updateMessageRow, returns_rereadMessage,
    returns_insertWebhook] at h
  obtain ⟨_, _, ⟨hroom, rfl⟩, _, _, ⟨hmember, rfl⟩, row, _, ⟨⟨hmem, hid, hrowRoom⟩, rfl⟩, _, _,
    ⟨hlive, rfl⟩, hrest⟩ := h
  refine ⟨⟨hroom, hmember⟩, row, hmem, hid, hrowRoom, hlive, ?_⟩
  rcases hrest with ⟨hdiffers, _, _, ⟨-, rfl⟩, _, _, haudit, message, _,
    ⟨⟨reread, hreread, hrereadId, hdecode⟩, rfl⟩, built, _, ⟨hbuild, rfl⟩, _, _,
    ⟨outbox, hgains, rfl⟩, rfl, rfl⟩ | ⟨hsame, message, _, ⟨hdecode, rfl⟩, hbuild, rfl⟩
  · obtain ⟨hmessage, hchanged⟩ := PinMutation.build_ok hbuild
    have hsame := insertAudit_same haudit
    rw [hsame.messages] at hreread
    rw [setMessage_row hmem hid hreread hrereadId] at hdecode
    refine .inr ⟨hchanged, hdiffers, ?_, CommitsWith.of_same hsame hgains⟩
    rw [hmessage]
    exact hdecode
  · obtain ⟨hmessage, hchanged⟩ := PinMutation.build_ok hbuild
    exact .inl ⟨hchanged, rfl, by rw [hmessage]; exact hdecode, not_not.mp hsame⟩

end Store
end ChatEngine
