import ChatEngine.Store.Consistency

/-!
# Privacy of the outbox

The outbox holds copies of message content.  This module shows that a copy
outlives neither its message nor its room:

* `RowPrivate`, what a row that still has a payload may refer to;
* `removeBatch_private`, `tombstoneMessage_private` and `deleteRoom_private`,
  the three removal paths;
* `StoreReachable.outboxPrivate`, the invariant of every reachable database;
* `payload_origin`, where a payload comes from: replay and record never bring
  one back;
* `outbox_private`, the two together.
-/

namespace ChatEngine
namespace Store

open Lib
open Models

/-- What an outbox row with payload `p` may refer to in `db`: a room and, for a
message event, a message that exist; a tombstone only through its
`message.deleted` event, which carries nothing the user wrote. -/
structure RowPrivate (db : Database) (w : WebhookRow) (p : WebhookEnvelope) : Prop where
  room : HasRoom db w.roomId
  message : w.eventType.isMessage = true →
    ∃ m ∈ db.messages, m.id = w.resourceId ∧ m.roomId = w.roomId ∧
      (m.deletedAt ≠ none → w.eventType = .messageDeleted)
  embedded : ∀ m, p.data.message? = some m →
    w.eventType.isMessage = true ∧ m.id = w.resourceId
  deleted : w.eventType = .messageDeleted →
    ∃ actor m, p.data = .messageDeleted actor m ∧ m.ContentFree

/-- Every payload in the outbox is private. -/
def OutboxPrivate (db : Database) : Prop :=
  ∀ w ∈ db.webhooks, ∀ p, w.payload = some p → RowPrivate db w p

variable {cfg : Config} {rd : Readings} {cmd : Command} {db db' base : Database} {reply : Reply}

/-! ## Frames -/

/-- Privacy survives as long as the room stays and the message stays what it was. -/
theorem RowPrivate.frame {w : WebhookRow} {p : WebhookEnvelope} (h : RowPrivate db w p)
    (hroom : HasRoom db w.roomId → HasRoom db' w.roomId)
    (hmessage : ∀ m ∈ db.messages, m.id = w.resourceId → m.roomId = w.roomId →
      w.eventType.isMessage = true →
      ∃ m' ∈ db'.messages, m'.id = m.id ∧ m'.roomId = m.roomId ∧
        (m'.deletedAt ≠ none → m.deletedAt ≠ none)) :
    RowPrivate db' w p where
  room := hroom h.room
  message := by
    intro htype
    obtain ⟨m, hm, hid, hmroom, hdeleted⟩ := h.message htype
    obtain ⟨m', hm', hid', hroom', hdeleted'⟩ := hmessage m hm hid hmroom htype
    exact ⟨m', hm', hid'.trans hid, hroom'.trans hmroom, fun h => hdeleted (hdeleted' h)⟩
  embedded := h.embedded
  deleted := h.deleted

/-- Privacy looks at the rooms and the messages only. -/
theorem RowPrivate.congr {w : WebhookRow} {p : WebhookEnvelope} (h : RowPrivate db w p)
    (hrooms : db'.rooms = db.rooms) (hmessages : db'.messages = db.messages) :
    RowPrivate db' w p := by
  refine h.frame (fun hroom => hroom.of_eq hrooms) fun m hm _ _ _ => ?_
  exact ⟨m, hmessages ▸ hm, rfl, rfl, id⟩

/-- The same row, as far as privacy is concerned. -/
structure SamePayload (v w : WebhookRow) : Prop where
  id : w.id = v.id
  eventType : w.eventType = v.eventType
  roomId : w.roomId = v.roomId
  resourceId : w.resourceId = v.resourceId
  payload : w.payload = v.payload

theorem SamePayload.refl (w : WebhookRow) : SamePayload w w := ⟨rfl, rfl, rfl, rfl, rfl⟩

theorem RowPrivate.of_same {v w : WebhookRow} {p : WebhookEnvelope} (hsame : SamePayload v w)
    (h : RowPrivate db v p) : RowPrivate db w p := by
  obtain ⟨hroom, hmessage, hembedded, hdeleted⟩ := h
  rw [← hsame.roomId] at hroom hmessage
  rw [← hsame.eventType] at hmessage hembedded hdeleted
  rw [← hsame.resourceId] at hmessage hembedded
  exact ⟨hroom, hmessage, hembedded, hdeleted⟩

/-! ## The outbox insert -/

/-- A row of the outbox after an insert was there before or is the new one. -/
theorem OutboxGains.mem {row w : WebhookRow} {t t' : WebhookTable}
    (h : OutboxGains cfg row t t') (hw : w ∈ t') :
    w ∈ t ∨ (row.eventType ∈ cfg.webhookEvents ∧ w = row) := by
  rcases h with ⟨-, rfl⟩ | ⟨htype, -, hins⟩
  · exact .inl hw
  · rcases (Table.mem_of_insert? hins).mp hw with hold | hnew
    · exact .inl (Table.mem_deleteWhere.mp hold).1
    · exact .inr ⟨htype, hnew⟩

/-- A committed change is private when the database it is built on is, and when
its own event is. -/
theorem CommitsWith.outboxPrivate {row : WebhookRow} (h : CommitsWith cfg base row db')
    (hbase : OutboxPrivate base) (hnew : ∀ p, row.payload = some p → RowPrivate base row p) :
    OutboxPrivate db' := by
  intro w hw p hp
  rcases h.outbox.mem hw with hold | ⟨-, rfl⟩
  · exact (hbase w hold p hp).congr h.rooms h.messages
  · exact (hnew p hp).congr h.rooms h.messages

/-! ## The removal paths -/

/-- Deleting a batch of stored messages keeps the outbox private. -/
theorem removeBatch_private {batch : List MessageRow} (hsub : ∀ m ∈ batch, m ∈ db.messages)
    (h : OutboxPrivate db) : OutboxPrivate (db.removeBatch batch) := by
  intro w hw p hp
  have hpayload : w.payload ≠ none := by simp [hp]
  obtain ⟨hold, hout⟩ := mem_scrub_payload hw hpayload
  refine (h w hold p hp).frame (fun hroom => hroom) fun m hm hid hroom htype => ?_
  have hkeep : m.id ∉ batch.map MessageRow.id := by
    intro hmem
    obtain ⟨b, hb, hbid⟩ := List.mem_map.mp hmem
    have hbm : b = m := Table.eq_of_key (hsub b hb) hm hbid
    exact hout ⟨htype, b, hb, by rw [hbm, hid], by rw [hbm, hroom]⟩
  obtain ⟨m', hm', hsame⟩ := removeBatch_keeps hm hkeep
  refine ⟨m', hm', hsame.identity.id, hsame.identity.roomId, fun hdeleted => ?_⟩
  rw [hsame.same] at hdeleted
  exact hdeleted

theorem mem_pastAge {now : Timestamp} {m : MessageRow} (h : m ∈ pastAge cfg now db) :
    m ∈ db.messages := by
  unfold pastAge at h
  split at h
  · cases h
  · exact (List.mem_filter.mp h).1

theorem mem_pastRoomCap {roomId : String} {m : MessageRow} (h : m ∈ pastRoomCap cfg roomId db) :
    m ∈ db.messages ∧ m.roomId = roomId := by
  obtain ⟨hmem, hroom⟩ := List.mem_filter.mp (mem_of_mem_firstBy h)
  exact ⟨hmem, of_decide_eq_true hroom⟩

theorem mem_pastGlobalCap {m : MessageRow} (h : m ∈ pastGlobalCap cfg db) : m ∈ db.messages :=
  mem_of_mem_firstBy h

theorem mem_olderThan {cutoff : Timestamp} {m : MessageRow} (h : m ∈ olderThan cutoff db) :
    m ∈ db.messages ∧ m.createdAt < cutoff := by
  obtain ⟨hmem, hold⟩ := List.mem_filter.mp h
  exact ⟨hmem, of_decide_eq_true hold⟩

/-- Trimming by age and by both caps keeps the outbox private. -/
theorem trim_private {roomId : String} {now : Timestamp} (h : OutboxPrivate db) :
    OutboxPrivate (db.trim cfg roomId now) := by
  have haged : OutboxPrivate (db.removeBatch (pastAge cfg now db)) :=
    removeBatch_private (fun m hm => mem_pastAge hm) h
  have hcapped := removeBatch_private
    (fun m (hm : m ∈ pastRoomCap cfg roomId _) => (mem_pastRoomCap hm).1) haged
  exact removeBatch_private (fun m (hm : m ∈ pastGlobalCap cfg _) => mem_pastGlobalCap hm) hcapped

/-- Rewriting a row without deleting it keeps the outbox private. -/
theorem setMessage_private {messageId : String} {f : MessageRow → MessageRow}
    {hid : ∀ r, (f r).id = r.id} (hroom : ∀ r, (f r).roomId = r.roomId)
    (hdeleted : ∀ r, (f r).deletedAt = r.deletedAt) (h : OutboxPrivate db) :
    OutboxPrivate (db.setMessage messageId f hid) := by
  intro w hw p hp
  refine (h w hw p hp).frame (fun hroom => hroom) fun m hm _ _ _ => ?_
  by_cases hmid : m.id = messageId
  · refine ⟨f m, mem_setMessage.mpr (.inr ⟨m, hm, hmid, rfl⟩), hid m, hroom m, ?_⟩
    rw [hdeleted]
    exact id
  · exact ⟨m, mem_setMessage.mpr (.inl ⟨hm, hmid⟩), rfl, rfl, id⟩

theorem mem_tombstoneMessage {roomId messageId : String} {deletedAt : Timestamp}
    {row : MessageRow} (hrow : row ∈ db.messages) (hid : row.id = messageId) :
    row.tombstone deletedAt ∈ (db.tombstoneMessage roomId messageId deletedAt).messages := by
  change _ ∈ ((db.deleteReactionsOf messageId).setMessage messageId _
    (MessageRow.tombstone_id deletedAt)).messages
  exact mem_setMessage.mpr (.inr ⟨row, hrow, hid, rfl⟩)

/-- Turning a message into a tombstone keeps the outbox private. -/
theorem tombstoneMessage_private {roomId messageId : String} {deletedAt : Timestamp}
    {row : MessageRow} (hrow : row ∈ db.messages) (hid : row.id = messageId)
    (hroom : row.roomId = roomId) (h : OutboxPrivate db) :
    OutboxPrivate (db.tombstoneMessage roomId messageId deletedAt) := by
  intro w hw p hp
  have hpayload : w.payload ≠ none := by simp [hp]
  obtain ⟨hold, hout⟩ := mem_scrub_payload hw hpayload
  refine (h w hold p hp).frame (fun hroom => hroom) fun m hm hmid hmroom htype => ?_
  have hne : m.id ≠ messageId := by
    intro heq
    have hmrow : m = row := Table.eq_of_key hm hrow (heq.trans hid.symm)
    exact hout ⟨by rw [← hmroom, hmrow, hroom], by rw [← hmid, heq], htype⟩
  refine ⟨m, ?_, rfl, rfl, fun h => h⟩
  change m ∈ ((db.deleteReactionsOf messageId).setMessage messageId _
    (MessageRow.tombstone_id deletedAt)).messages
  exact mem_setMessage.mpr (.inl ⟨hm, hne⟩)

/-- Deleting a room keeps the outbox private. -/
theorem deleteRoom_private {roomId : String} (h : OutboxPrivate db) :
    OutboxPrivate (({ db with
      webhooks := scrub db.webhooks fun r => r.roomId = roomId } : Database).deleteRoom roomId) := by
  intro w hw p hp
  have hpayload : w.payload ≠ none := by simp [hp]
  obtain ⟨hold, hout⟩ := mem_scrub_payload hw hpayload
  refine (h w hold p hp).frame ?_ fun m hm _ hmroom _ => ?_
  · rintro ⟨room, hmem, hkey⟩
    exact ⟨room, Table.mem_deleteWhere.mpr ⟨hmem, by rw [hkey]; exact hout⟩, hkey⟩
  · have hkeep : m.id ∉
        ((db.messages.rows.filter fun r => r.roomId = roomId).map MessageRow.id) := by
      intro hmem
      obtain ⟨r, hr, hrid⟩ := List.mem_map.mp hmem
      obtain ⟨hrm, hrroom⟩ := List.mem_filter.mp hr
      have heq : r = m := Table.eq_of_key hrm hm hrid
      rw [heq] at hrroom
      exact hout (hmroom ▸ of_decide_eq_true hrroom)
    exact ⟨_, Database.mem_deleteMessages.mpr ⟨m, hm, hkeep, rfl⟩, rfl, rfl, fun h => h⟩

/-! ## The events -/

/-- A tombstone decodes to a message without content. -/
theorem tombstone_contentFree {row : MessageRow} {deletedAt : Timestamp} {m : Message}
    (h : messageFromRow (row.tombstone deletedAt) = .ok m) : m.ContentFree := by
  have hmetadata : validateMessageMetadata (stripMetadata []) = .ok [] := by decide
  have hattachments : validateAttachmentReferences [] = .ok [] := by decide
  have hmentions : validateMentionedSubjects [] = .ok [] := by decide
  have hcontent : stripWhitespace "" = "" := by decide
  unfold messageFromRow MessageRow.tombstone at h
  simp only [validateEach, MessageRow.raw, Message.build, Message.stripFields, hmetadata,
    hattachments, hmentions, hcontent, Option.map_none, Option.any_none, Bool.false_eq_true,
    if_false, List.map_nil] at h
  obtain ⟨rfl, -⟩ := Message.checked_ok h
  exact ⟨rfl, rfl, rfl, rfl, rfl, rfl, rfl⟩

/-- The event of a message operation is private when its message is there. -/
theorem webhookRow_private {id : UuidHex} {type : EventType} {roomId resourceId : String}
    {occurredAt : Timestamp} {data : WebhookData} {row : MessageRow}
    (hroom : HasRoom base roomId) (hrow : row ∈ base.messages) (hid : row.id = resourceId)
    (hrowRoom : row.roomId = roomId)
    (hdeleted : row.deletedAt ≠ none → type = .messageDeleted)
    (hembedded : ∀ m, data.message? = some m → type.isMessage = true ∧ m.id = resourceId)
    (hcontent : type = .messageDeleted →
      ∃ actor m, data = .messageDeleted actor m ∧ m.ContentFree) :
    ∀ p, (webhookRow id type roomId resourceId occurredAt data).payload = some p →
      RowPrivate base (webhookRow id type roomId resourceId occurredAt data) p := by
  rintro p hp
  cases hp
  exact ⟨hroom, fun _ => ⟨row, hrow, hid, hrowRoom, hdeleted⟩, hembedded, hcontent⟩

/-! ## Every call -/

/-- The call's room checks found the room. -/
theorem MayWrite.hasRoom {roomId : String} {allowFrozen : Bool} {subject : Option String}
    {now : Timestamp} (h : MayWrite roomId allowFrozen subject now db) : HasRoom db roomId := by
  obtain ⟨room, hmem, hkey, -⟩ := h.room
  exact ⟨room, hmem, hkey⟩

/-- Message ids are stored without surrounding white space. -/
def IdsStripped (db : Database) : Prop := ∀ m ∈ db.messages, stripWhitespace m.id = m.id

/-- Where ids are stored stripped, a decoded row has the id of the row. -/
theorem IdsStripped.decoded_id (hids : IdsStripped db) {row row' : MessageRow} {m : Message}
    (hrow : row ∈ db.messages) (hdecode : messageFromRow row' = .ok m) (hid : row'.id = row.id) :
    m.id = row.id := by
  rw [(messageFromRow_ok hdecode).1, hid]
  exact hids row hrow

theorem Created.outboxPrivate {args : CreateMessage} {m : Message}
    (hroom : HasRoom db args.roomId) (h : Created cfg rd args db m db')
    (hdb : OutboxPrivate db) : OutboxPrivate db' := by
  obtain ⟨built, inserted, hbuild, -, -, hins, ⟨row, hrow, hrowId, hdecode⟩, hcommits⟩ := h.effect
  have hinserted : OutboxPrivate { db with messages := inserted } := by
    intro w hw p hp
    refine (hdb w hw p hp).frame (fun hroom => hroom) fun m hm _ _ _ => ?_
    exact ⟨m, (Table.mem_of_insert? hins).mpr (.inl hm), rfl, rfl, id⟩
  have hbuilt := Message.build_ok hbuild
  have hm : m.id = built.id := by
    rw [(messageFromRow_ok hdecode).1, hrowId, hbuilt.id, stripWhitespace_idem]
  rw [hcommits.messages] at hrow
  obtain ⟨r, hr, hrs⟩ := mem_trim hrow
  have hnew : newMessageRow built args.authorSubject ∈ inserted :=
    (Table.mem_of_insert? hins).mpr (.inr rfl)
  have hrnew : r = newMessageRow built args.authorSubject :=
    Table.eq_of_key hr hnew (hrs.identity.id.symm.trans hrowId)
  refine hcommits.outboxPrivate (trim_private hinserted) (webhookRow_private ?_ hrow ?_ ?_ ?_ ?_ ?_)
  · exact hroom
  · rw [hrowId, hm]
  · rw [hrs.identity.roomId, hrnew]
    change built.roomId = args.roomId
    rw [hbuilt.roomId]
    exact hroom.stripped
  · intro hdeleted
    rw [hrs.same, hrnew] at hdeleted
    exact absurd rfl hdeleted
  · intro m' hm'
    cases hm'
    exact ⟨rfl, rfl⟩
  · intro htype
    cases htype

/-- The event of a rewritten, still live message. -/
theorem CommitsWith.rewritten_private {messageId roomId : String} {f : MessageRow → MessageRow}
    {hid : ∀ r, (f r).id = r.id} {row : MessageRow} {id : UuidHex} {type : EventType}
    {occurredAt : Timestamp} {data : WebhookData}
    (hcommits : CommitsWith cfg (base.setMessage messageId f hid)
      (webhookRow id type roomId messageId occurredAt data) db')
    (hbase : OutboxPrivate base) (hroom : HasRoom base roomId)
    (hrow : row ∈ base.messages) (hrowId : row.id = messageId) (hrowRoom : row.roomId = roomId)
    (hlive : row.deletedAt = none) (hkeepsRoom : ∀ r, (f r).roomId = r.roomId)
    (hkeepsDeleted : ∀ r, (f r).deletedAt = r.deletedAt)
    (hembedded : ∀ m, data.message? = some m → type.isMessage = true ∧ m.id = messageId)
    (htype : type ≠ .messageDeleted) : OutboxPrivate db' := by
  refine hcommits.outboxPrivate (setMessage_private hkeepsRoom hkeepsDeleted hbase)
    (webhookRow_private hroom (mem_setMessage.mpr (.inr ⟨row, hrow, hrowId, rfl⟩)) ?_ ?_ ?_
      hembedded ?_)
  · rw [hid, hrowId]
  · rw [hkeepsRoom, hrowRoom]
  · intro hdeleted
    rw [hkeepsDeleted] at hdeleted
    exact absurd hlive hdeleted
  · intro h
    exact absurd h htype

/-- Rewriting outbox rows without touching what they refer to. -/
theorem OutboxPrivate.of_same {t : WebhookTable} (h : OutboxPrivate db)
    (hsame : ∀ w ∈ t, ∃ v ∈ db.webhooks, SamePayload v w) :
    OutboxPrivate { db with webhooks := t } := by
  intro w hw p hp
  obtain ⟨v, hv, hvw⟩ := hsame w hw
  have hprivate := (h v hv p (hvw.payload ▸ hp)).of_same hvw
  exact hprivate.congr rfl rfl

theorem mem_updateWhere_same {t : WebhookTable} {p : WebhookRow → Prop} [DecidablePred p]
    {f : WebhookRow → WebhookRow} {hid : ∀ r, (f r).id = r.id}
    (hf : ∀ r, SamePayload r (f r)) {w : WebhookRow} (hw : w ∈ t.updateWhere p f hid) :
    ∃ v ∈ t, SamePayload v w := by
  rcases Table.mem_updateWhere.mp hw with ⟨hold, -⟩ | ⟨v, hv, -, rfl⟩
  · exact ⟨w, hold, SamePayload.refl w⟩
  · exact ⟨v, hv, hf v⟩

/-- Recording an attempt changes no payload. -/
theorem recordIn_same {deliveryId : String} {attempt : WebhookAttempt} {t : WebhookTable}
    {w : WebhookRow} (hw : w ∈ recordIn deliveryId attempt t) : ∃ v ∈ t, SamePayload v w := by
  unfold recordIn at hw
  refine mem_updateWhere_same (fun r => ?_) hw
  exact ⟨rfl, rfl, rfl, rfl, rfl⟩

/-- A replay changes no payload. -/
theorem resetIn_same {deliveryId : String} {now : Timestamp} {t : WebhookTable}
    {w : WebhookRow} (hw : w ∈ resetIn deliveryId now t) : ∃ v ∈ t, SamePayload v w := by
  unfold resetIn at hw
  refine mem_updateWhere_same (fun r => ?_) hw
  exact ⟨rfl, rfl, rfl, rfl, rfl⟩

/-- Rooms and messages unchanged, and no outbox row gained. -/
theorem OutboxPrivate.of_unchanged (h : OutboxPrivate db) (hwebhooks : db'.webhooks = db.webhooks)
    (hmessages : db'.messages = db.messages) (hrooms : ∀ k, HasRoom db k → HasRoom db' k) :
    OutboxPrivate db' := by
  intro w hw p hp
  rw [hwebhooks] at hw
  refine (h w hw p hp).frame (hrooms w.roomId) fun m hm _ _ _ => ?_
  exact ⟨m, hmessages ▸ hm, rfl, rfl, id⟩

/-- Every call keeps the outbox private. -/
theorem OutboxPrivate.call (hids : IdsStripped db) (hdb : OutboxPrivate db)
    (h : Tx.Returns (cmd.tx cfg rd) db reply db') : OutboxPrivate db' := by
  cases cmd with
  | createRoom payload actor =>
      obtain ⟨room, hok, -⟩ := Tx.returns_map.mp h
      obtain ⟨-, row, inserted, hins, -, hsame⟩ := createRoom_ok hok
      refine hdb.of_unchanged hsame.webhooks hsame.messages ?_
      rintro k ⟨old, hold, hkey⟩
      refine ⟨old, ?_, hkey⟩
      rw [hsame.rooms]
      exact (Table.mem_of_insert? hins).mpr (.inl hold)
  | setRoomState roomId archived frozen actor =>
      obtain ⟨r, hok, -⟩ := Tx.returns_map.mp h
      have hsame := setRoomState_ok hok
      refine hdb.of_unchanged hsame.webhooks hsame.messages fun k hroom => ?_
      rw [hasRoom_iff, hsame.rooms]
      exact hasRoom_iff.mp hroom
  | deleteRoom roomId actor =>
      obtain ⟨n, hok, -⟩ := Tx.returns_map.mp h
      obtain ⟨-, audited, hsame, rfl⟩ := deleteRoom_ok hok
      refine deleteRoom_private (hdb.of_unchanged hsame.webhooks hsame.messages fun k hroom => ?_)
      exact hroom.of_eq hsame.rooms
  | recordExportRequested roomId actor =>
      obtain ⟨u, hok, -⟩ := Tx.returns_map.mp h
      have hsame := recordExportRequested_ok hok
      exact hdb.of_unchanged hsame.webhooks hsame.messages fun k hroom => hroom.of_eq hsame.rooms
  | createMessage args =>
      obtain ⟨⟨m, created⟩, hok, -⟩ := Tx.returns_map.mp h
      obtain ⟨hwrite, ⟨-, rfl, -⟩ | ⟨-, hcreated⟩⟩ := createMessage_ok hok
      · exact hdb
      · exact hcreated.outboxPrivate hwrite.hasRoom hdb
  | updateMessage args =>
      obtain ⟨m, hok, -⟩ := Tx.returns_map.mp h
      have hupdated := updateMessage_ok hok
      obtain ⟨row, hrow, hid, hrowRoom, hlive, -, hdecode⟩ := hupdated.target
      have hm : m.id = args.messageId := (hids.decoded_id hrow hdecode rfl).trans hid
      have hcommits := hupdated.commits
      rw [hm] at hcommits
      refine hcommits.rewritten_private hdb hupdated.mayWrite.hasRoom hrow hid hrowRoom hlive
        (fun _ => rfl) (fun _ => rfl) ?_ (by decide)
      intro m' hm'
      cases hm'
      exact ⟨rfl, hm⟩
  | deleteMessage args =>
      obtain ⟨⟨m, changed⟩, hok, -⟩ := Tx.returns_map.mp h
      obtain ⟨⟨room, hroom, hroomKey, -⟩, -, row, hrow, hid, hrowRoom, -,
        ⟨-, rfl, -⟩ | ⟨-, hdeleted⟩⟩ := deleteMessage_ok hok
      · exact hdb
      · have hm : m.id = args.messageId :=
          (hids.decoded_id hrow hdeleted.decodes rfl).trans hid
        have hcommits := hdeleted.commits
        rw [hm] at hcommits
        refine hcommits.outboxPrivate (tombstoneMessage_private hrow hid hrowRoom hdb)
          (webhookRow_private ?_ (mem_tombstoneMessage hrow hid) hid hrowRoom (fun _ => rfl) ?_ ?_)
        · exact ⟨room, hroom, hroomKey⟩
        · intro m' hm'
          cases hm'
          exact ⟨rfl, hm⟩
        · intro _
          exact ⟨args.actor, m, rfl, tombstone_contentFree hdeleted.decodes⟩
  | setMessageReaction args =>
      obtain ⟨mutation, hok, -⟩ := Tx.returns_map.mp h
      obtain ⟨hwrite, row, hrow, hid, hrowRoom, hlive, ⟨-, rfl, -⟩ | hreacted⟩ :=
        setMessageReaction_ok hok
      · exact hdb
      · obtain ⟨t, summaries, -, -, hdecode, hcommits⟩ := hreacted.effect
        refine hcommits.rewritten_private ?_ hwrite.hasRoom hrow hid hrowRoom hlive
          (fun _ => rfl) (fun _ => rfl) ?_ (by decide)
        · exact hdb.of_unchanged rfl rfl fun k hroom => hroom
        · intro m' hm'
          cases hm'
          exact ⟨rfl, (hids.decoded_id hrow hdecode rfl).trans hid⟩
  | setMessagePin args =>
      obtain ⟨mutation, hok, -⟩ := Tx.returns_map.mp h
      obtain ⟨hwrite, row, hrow, hid, hrowRoom, hlive, ⟨-, rfl, -⟩ | hpinned⟩ :=
        setMessagePin_ok hok
      · exact hdb
      · refine hpinned.commits.rewritten_private hdb hwrite.hasRoom hrow hid hrowRoom hlive
          (fun _ => rfl) (fun _ => rfl) ?_ (by decide)
        intro m' hm'
        cases hm'
        exact ⟨rfl, (hids.decoded_id hrow hpinned.decodes rfl).trans hid⟩
  | setMemberModeration roomId subject payload actor =>
      obtain ⟨moderation, hok, -⟩ := Tx.returns_map.mp h
      obtain ⟨⟨room, hroom, hkey⟩, row, -, hcommits⟩ := setMemberModeration_ok hok
      refine hcommits.outboxPrivate (hdb.of_unchanged rfl rfl fun k hroom => hroom) ?_
      rintro p hp
      cases hp
      refine ⟨⟨room, hroom, hkey⟩, ?_, ?_, ?_⟩
      · intro htype
        cases htype
      · intro m hm
        cases hm
      · intro htype
        cases htype
  | markRead roomId subject messageId =>
      obtain ⟨mutation, hok, -⟩ := Tx.returns_map.mp h
      obtain ⟨t, rfl⟩ := markRead_ok hok
      exact hdb.of_unchanged rfl rfl fun k hroom => hroom
  | clearReadState roomId subject =>
      obtain ⟨removed, hok, -⟩ := Tx.returns_map.mp h
      obtain ⟨t, rfl⟩ := clearReadState_ok hok
      exact hdb.of_unchanged rfl rfl fun k hroom => hroom
  | recordWebhookAttempt deliveryId attempt =>
      obtain ⟨u, hok, -⟩ := Tx.returns_map.mp h
      obtain ⟨-, -, rfl⟩ := recordWebhookAttempt_ok hok
      exact hdb.of_same fun w hw => recordIn_same hw
  | retryWebhookDelivery deliveryId =>
      obtain ⟨delivery, hok, -⟩ := Tx.returns_map.mp h
      obtain ⟨row, -, -, -, -, rfl⟩ := retryWebhookDelivery_ok hok
      exact hdb.of_same fun w hw => resetIn_same hw
  | runRetention actor =>
      obtain ⟨r, hok, -⟩ := Tx.returns_map.mp h
      obtain ⟨-, hsame⟩ := runRetention_ok hok
      have hremoved := removeBatch_private
        (fun m (hm : m ∈ olderThan r.2 db) => (mem_olderThan hm).1) hdb
      exact hremoved.of_unchanged hsame.webhooks hsame.messages fun k hroom =>
        hroom.of_eq hsame.rooms

/-- The outbox of every reachable database is private. -/
theorem StoreReachable.outboxPrivate (h : StoreReachable cfg db) : OutboxPrivate db := by
  have hempty : OutboxPrivate {} := fun w hw => absurd hw Table.not_mem_empty
  have hboth := h.invariant (fun db => Consistent db ∧ OutboxPrivate db)
    ⟨Consistent.empty, hempty⟩
    fun _ _ _ _ _ hdb hok => ⟨hdb.1.call hok, hdb.2.call hdb.1.ids hok⟩
  exact hboth.2

/-! ## Where outbox rows come from -/

/-- A row that was there before, possibly scrubbed. -/
def ScrubbedFrom (t : WebhookTable) (w : WebhookRow) : Prop :=
  w ∈ t ∨ ∃ v ∈ t, v.Finished ∧ w = { v with payload := none }

theorem ScrubbedFrom.trans {t t' : WebhookTable} {w : WebhookRow} (h : ScrubbedFrom t' w)
    (h' : ∀ v ∈ t', ScrubbedFrom t v) : ScrubbedFrom t w := by
  rcases h with hw | ⟨v, hv, hfinished, rfl⟩
  · exact h' w hw
  · rcases h' v hv with hvt | ⟨u, hu, hufinished, rfl⟩
    · exact .inr ⟨v, hvt, hfinished, rfl⟩
    · exact .inr ⟨u, hu, hufinished, rfl⟩

theorem scrub_from {t : WebhookTable} {p : WebhookRow → Prop} [DecidablePred p] {w : WebhookRow}
    (hw : w ∈ scrub t p) : ScrubbedFrom t w := by
  rcases mem_scrub.mp hw with ⟨hold, -⟩ | ⟨v, hv, -, hfinished, rfl⟩
  · exact .inl hold
  · exact .inr ⟨v, hv, hfinished, rfl⟩

theorem removeBatch_from {batch : List MessageRow} {w : WebhookRow}
    (hw : w ∈ (db.removeBatch batch).webhooks) : ScrubbedFrom db.webhooks w := by
  change w ∈ scrub db.webhooks (inBatch batch) at hw
  exact scrub_from hw

theorem trim_from {roomId : String} {now : Timestamp} {w : WebhookRow}
    (hw : w ∈ (db.trim cfg roomId now).webhooks) : ScrubbedFrom db.webhooks w := by
  unfold Database.trim at hw
  refine (removeBatch_from hw).trans fun v hv => ?_
  refine (removeBatch_from hv).trans fun u hu => ?_
  exact removeBatch_from hu

theorem tombstoneMessage_from {roomId messageId : String} {deletedAt : Timestamp}
    {w : WebhookRow} (hw : w ∈ (db.tombstoneMessage roomId messageId deletedAt).webhooks) :
    ScrubbedFrom db.webhooks w := by
  change w ∈ scrub db.webhooks (ofMessage roomId messageId) at hw
  exact scrub_from hw

/-- After a call, an outbox row was there before (possibly scrubbed since), is
the call's event, or is what the call's record or replay made of a row. -/
inductive WebhookOrigin (rd : Readings) (cmd : Command) (db : Database) (w : WebhookRow) : Prop
  | kept : ScrubbedFrom db.webhooks w → WebhookOrigin rd cmd db w
  | event (i : Nat) (type : EventType) (roomId resourceId : String) (occurredAt : Timestamp)
      (data : WebhookData) :
      cmd.event = some type →
      w = webhookRow (rd.uuid i) type roomId resourceId occurredAt data →
      WebhookOrigin rd cmd db w
  | recorded (v : WebhookRow) (attempt : WebhookAttempt) :
      v ∈ db.webhooks → recordable v.id v → cmd = .recordWebhookAttempt v.id attempt →
      w = v.record attempt → WebhookOrigin rd cmd db w
  | reset (v : WebhookRow) :
      v ∈ db.webhooks → v.payload ≠ none → cmd = .retryWebhookDelivery v.id →
      w = v.reset (rd.now 0) → WebhookOrigin rd cmd db w

theorem WebhookOrigin.same {w : WebhookRow} (h : w ∈ db.webhooks) : WebhookOrigin rd cmd db w :=
  .kept (.inl h)

theorem CommitsWith.webhook_origin {w : WebhookRow} {i : Nat} {type : EventType}
    {roomId resourceId : String} {occurredAt : Timestamp} {data : WebhookData}
    (h : CommitsWith cfg base (webhookRow (rd.uuid i) type roomId resourceId occurredAt data) db')
    (hbase : ∀ v ∈ base.webhooks, ScrubbedFrom db.webhooks v) (htype : cmd.event = some type)
    (hw : w ∈ db'.webhooks) : WebhookOrigin rd cmd db w := by
  rcases h.outbox.mem hw with hold | ⟨-, rfl⟩
  · exact .kept (hbase w hold)
  · exact .event i type roomId resourceId occurredAt data htype rfl

/-- Where every outbox row comes from, for every call. -/
theorem webhook_origin (h : Tx.Returns (cmd.tx cfg rd) db reply db') {w : WebhookRow}
    (hw : w ∈ db'.webhooks) : WebhookOrigin rd cmd db w := by
  cases cmd with
  | createRoom payload actor =>
      obtain ⟨room, hok, -⟩ := Tx.returns_map.mp h
      obtain ⟨-, _, _, -, -, hsame⟩ := createRoom_ok hok
      exact .same (hsame.webhooks ▸ hw)
  | setRoomState roomId archived frozen actor =>
      obtain ⟨r, hok, -⟩ := Tx.returns_map.mp h
      exact .same ((setRoomState_ok hok).webhooks ▸ hw)
  | deleteRoom roomId actor =>
      obtain ⟨n, hok, -⟩ := Tx.returns_map.mp h
      obtain ⟨-, audited, hsame, rfl⟩ := deleteRoom_ok hok
      change w ∈ scrub audited.webhooks (fun r => r.roomId = roomId) at hw
      exact .kept (hsame.webhooks ▸ scrub_from hw)
  | recordExportRequested roomId actor =>
      obtain ⟨u, hok, -⟩ := Tx.returns_map.mp h
      exact .same ((recordExportRequested_ok hok).webhooks ▸ hw)
  | createMessage args =>
      obtain ⟨⟨m, created⟩, hok, -⟩ := Tx.returns_map.mp h
      obtain ⟨-, ⟨-, rfl, -⟩ | ⟨-, hcreated⟩⟩ := createMessage_ok hok
      · exact .same hw
      · obtain ⟨_, _, -, -, -, -, -, hcommits⟩ := hcreated.effect
        refine hcommits.webhook_origin (fun v hv => ?_) rfl hw
        have hold := trim_from hv
        exact hold
  | updateMessage args =>
      obtain ⟨m, hok, -⟩ := Tx.returns_map.mp h
      exact (updateMessage_ok hok).commits.webhook_origin (fun v hv => .inl hv) rfl hw
  | deleteMessage args =>
      obtain ⟨⟨m, changed⟩, hok, -⟩ := Tx.returns_map.mp h
      obtain ⟨-, -, row, -, -, -, -, ⟨-, rfl, -⟩ | ⟨-, hdeleted⟩⟩ := deleteMessage_ok hok
      · exact .same hw
      · exact hdeleted.commits.webhook_origin (fun v hv => tombstoneMessage_from hv) rfl hw
  | setMessageReaction args =>
      obtain ⟨mutation, hok, -⟩ := Tx.returns_map.mp h
      obtain ⟨-, row, -, -, -, -, ⟨-, rfl, -⟩ | hreacted⟩ := setMessageReaction_ok hok
      · exact .same hw
      · obtain ⟨_, _, -, -, -, hcommits⟩ := hreacted.effect
        exact hcommits.webhook_origin (fun v hv => .inl hv) rfl hw
  | setMessagePin args =>
      obtain ⟨mutation, hok, -⟩ := Tx.returns_map.mp h
      obtain ⟨-, row, -, -, -, -, ⟨-, rfl, -⟩ | hpinned⟩ := setMessagePin_ok hok
      · exact .same hw
      · exact hpinned.commits.webhook_origin (fun v hv => .inl hv) rfl hw
  | setMemberModeration roomId subject payload actor =>
      obtain ⟨moderation, hok, -⟩ := Tx.returns_map.mp h
      obtain ⟨-, row, -, hcommits⟩ := setMemberModeration_ok hok
      exact hcommits.webhook_origin (fun v hv => .inl hv) rfl hw
  | markRead roomId subject messageId =>
      obtain ⟨mutation, hok, -⟩ := Tx.returns_map.mp h
      obtain ⟨t, rfl⟩ := markRead_ok hok
      exact .same hw
  | clearReadState roomId subject =>
      obtain ⟨removed, hok, -⟩ := Tx.returns_map.mp h
      obtain ⟨t, rfl⟩ := clearReadState_ok hok
      exact .same hw
  | recordWebhookAttempt deliveryId attempt =>
      obtain ⟨u, hok, -⟩ := Tx.returns_map.mp h
      obtain ⟨-, -, rfl⟩ := recordWebhookAttempt_ok hok
      change w ∈ db.webhooks.updateWhere _ _ (WebhookRow.record_id attempt) at hw
      rcases Table.mem_updateWhere.mp hw with ⟨hold, -⟩ | ⟨v, hv, hrecordable, rfl⟩
      · exact .same hold
      · have hid : v.id = deliveryId := hrecordable.1
        subst hid
        exact .recorded v attempt hv hrecordable rfl rfl
  | retryWebhookDelivery deliveryId =>
      obtain ⟨delivery, hok, -⟩ := Tx.returns_map.mp h
      obtain ⟨row, hrow, hrowId, hpayload, -, rfl⟩ := retryWebhookDelivery_ok hok
      change w ∈ db.webhooks.updateWhere _ _ (WebhookRow.reset_id (rd.now 0)) at hw
      rcases Table.mem_updateWhere.mp hw with ⟨hold, -⟩ | ⟨v, hv, hid, rfl⟩
      · exact .same hold
      · have hvrow : v = row := Table.eq_of_key hv hrow (hid.trans hrowId.symm)
        subst hid
        exact .reset v hv (hvrow ▸ hpayload) rfl rfl
  | runRetention actor =>
      obtain ⟨r, hok, -⟩ := Tx.returns_map.mp h
      obtain ⟨-, hsame⟩ := runRetention_ok hok
      rw [hsame.webhooks] at hw
      exact .kept (removeBatch_from hw)

/-! ## Where payloads come from -/

/-- A row that was there before, with the payload it has now. -/
def CarriedOver (db : Database) (w : WebhookRow) : Prop := ∃ v ∈ db.webhooks, SamePayload v w

/-- A row that an event has just put into the outbox. -/
def NewEvent (cmd : Command) (w : WebhookRow) : Prop :=
  cmd.event = some w.eventType ∧ w.attemptCount = 0 ∧ w.lastAttemptAt = none ∧ ¬ w.Finished

theorem CarriedOver.of_mem {w : WebhookRow} (h : w ∈ db.webhooks) : CarriedOver db w :=
  ⟨w, h, SamePayload.refl w⟩

/-- After a call, a row with a payload had it before, or is the call's event.
In particular no record and no replay brings a payload back. -/
theorem payload_origin (h : Tx.Returns (cmd.tx cfg rd) db reply db') {w : WebhookRow}
    (hw : w ∈ db'.webhooks) (hpayload : w.payload ≠ none) :
    CarriedOver db w ∨ NewEvent cmd w := by
  cases webhook_origin h hw with
  | kept hkept =>
      rcases hkept with hold | ⟨v, -, -, rfl⟩
      · exact .inl (CarriedOver.of_mem hold)
      · exact absurd rfl hpayload
  | event i type roomId resourceId occurredAt data htype hrow =>
      subst hrow
      exact .inr ⟨htype, rfl, rfl, by simp [WebhookRow.Finished, webhookRow]⟩
  | recorded v attempt hv _ _ hrow =>
      subst hrow
      exact .inl ⟨v, hv, rfl, rfl, rfl, rfl, rfl⟩
  | reset v hv _ _ hrow =>
      subst hrow
      exact .inl ⟨v, hv, rfl, rfl, rfl, rfl, rfl⟩

/-- In every reachable database each payload of the outbox is private, and
whatever call comes next, a row that has a payload after it had that payload
before it or is the event the call has just emitted. -/
theorem outbox_private (h : StoreReachable cfg db) :
    OutboxPrivate db ∧
      ∀ call db', Step cfg db call db' → ∀ w ∈ db'.webhooks, w.payload ≠ none →
        CarriedOver db w ∨ NewEvent call.2 w := by
  refine ⟨h.outboxPrivate, ?_⟩
  intro call db' hstep w hw hpayload
  rcases hstep.cases with rfl | ⟨reply, hok⟩
  · exact .inl (CarriedOver.of_mem hw)
  · exact payload_origin hok hw hpayload

/-- A room, a message in it that is delivered to the receiver, and its deletion. -/
def deliveredThenDeleted : List (Readings × Command) :=
  [(.fixed 1 0, .createRoom
        { name := "General", id := some ⟨"general", matchesRoomId_general⟩ } "admin"),
   (.fixed 2 10, .createMessage { roomId := "general", sender := "ada", content := "hello" }),
   (.fixed 3 20, .recordWebhookAttempt ("wh_" ++ (UuidHex.ofNat 12).text)
      { attemptedAt := 3, statusCode := some 200, error := none, nextAttemptAt := none,
        delivered := true, failed := false }),
   (.fixed 4 30, .deleteMessage
      { roomId := "general", messageId := (UuidHex.ofNat 10).text, actor := "ada" })]

/-- The configuration of the worked examples: small caps, message events selected. -/
def smallConfig : Config :=
  { maxRooms := 3, maxStoredMessages := 10, maxStoredMessagesPerRoom := 5,
    webhookEvents := [.messageCreated, .messageUpdated, .messageDeleted,
      .messageReactionUpdated, .messagePinUpdated, .memberModerationUpdated],
    maxWebhookDeliveries := 2 }

/-- The delivered copy lost its payload to the deletion. -/
theorem outbox_private_deliveredThenDeleted :
    OutboxPrivate (runCalls smallConfig deliveredThenDeleted {}) ∧
      (runCalls smallConfig deliveredThenDeleted {}).webhooks.rows.map
          (fun r => (r.eventType, r.payload.isSome)) =
        [(.messageCreated, false), (.messageDeleted, true)] :=
  ⟨(outbox_private (runCalls_reachable smallConfig deliveredThenDeleted)).1, by decide⟩

end Store
end ChatEngine
