import ChatEngine.Store.ReadCursors
import ChatEngine.Store.RoundTrip

/-!
# The caps, and what a trim leaves

A create inserts its message and then trims: messages past the configured age, the oldest of the
room past its cap, and the oldest of the store past its cap.  "Oldest" is the order of the dates,
with ties broken by the random ids, so the new message itself may be among them.

* `mem_pastRoomCap_iff` and `mem_pastGlobalCap_iff`: a message goes when as many later ones as the
  cap allows are there;
* `stored_trim_iff`, the three passes together;
* `create_returns_stored_iff`: a create that passes its checks returns its message exactly when
  the trim leaves it.
-/

namespace ChatEngine
namespace Store

open Lib
open Models

/-- A message with this id is in the table. -/
def Stored (messageId : String) (db : Database) : Prop := ∃ r ∈ db.messages, r.id = messageId

/-- The number of messages of the room that come after `place`. -/
def laterInRoom (roomId : String) (place : Timestamp ×ₗ String) (db : Database) : Nat :=
  db.messages.countWhere fun r => r.roomId = roomId ∧ place < r.place

/-- The number of messages of the store that come after `place`. -/
def laterInStore (place : Timestamp ×ₗ String) (db : Database) : Nat :=
  db.messages.countWhere fun r => place < r.place

theorem SameIdentity.place {r s : MessageRow} (h : SameIdentity r s) : s.place = r.place := by
  unfold MessageRow.place
  rw [h.id, h.createdAt]

section Trim

variable {cfg : Config} {db : Database} {roomId : String} {r : MessageRow}
variable {batch : List MessageRow}

/-! ## One pass -/

/-- Stored messages have places of their own. -/
theorem eq_of_place {s : MessageRow} (hr : r ∈ db.messages) (hs : s ∈ db.messages)
    (hrs : messageOldestFirst r s) (hsr : messageOldestFirst s r) : s = r := by
  rw [messageOldestFirst_iff] at hrs hsr
  have hplace : s.place = r.place := le_antisymm hsr hrs
  have hid : s.id = r.id := congrArg (fun p => (ofLex p).2) hplace
  exact Table.eq_of_key hs hr hid

/-- A message of the room is past its cap when enough later ones are there. -/
theorem mem_pastRoomCap_iff (hr : r ∈ db.messages) (hroom : r.roomId = roomId) :
    r ∈ pastRoomCap cfg roomId db ↔
      cfg.maxStoredMessagesPerRoom ≤ laterInRoom roomId r.place db := by
  unfold pastRoomCap
  have hin : r ∈ db.messages.rows.filter fun s => s.roomId = roomId :=
    List.mem_filter.mpr ⟨hr, decide_eq_true hroom⟩
  have hnodup : (db.messages.rows.filter fun s => s.roomId = roomId).Nodup :=
    db.messages.rows_nodup.filter _
  rw [mem_firstBy_excess_iff hnodup _ hin, List.filter_filter]
  · unfold laterInRoom Table.countWhere
    have hsame : db.messages.rows.filter (fun s =>
          decide (¬ messageOldestFirst s r) && decide (s.roomId = roomId)) =
        db.messages.rows.filter fun s => s.roomId = roomId ∧ r.place < s.place := by
      apply List.filter_congr
      intro s _
      rw [Bool.and_comm, Bool.decide_and]
      simp only [messageOldestFirst_iff, not_le]
    rw [hsame]
  · intro s hs hrs hsr
    exact eq_of_place hr (List.mem_filter.mp hs).1 hrs hsr

/-- A message is past the global cap when enough later ones are there. -/
theorem mem_pastGlobalCap_iff (hr : r ∈ db.messages) :
    r ∈ pastGlobalCap cfg db ↔ cfg.maxStoredMessages ≤ laterInStore r.place db := by
  unfold pastGlobalCap Table.count
  rw [mem_firstBy_excess_iff db.messages.rows_nodup
    (fun s hs hrs hsr => eq_of_place hr hs hrs hsr) hr]
  unfold laterInStore Table.countWhere
  have hsame : db.messages.rows.filter (fun s => decide (¬ messageOldestFirst s r)) =
      db.messages.rows.filter fun s => r.place < s.place := by
    apply List.filter_congr
    intro s _
    simp only [messageOldestFirst_iff, not_le]
  rw [hsame]

theorem not_mem_batch_iff (hbatch : ∀ b ∈ batch, b ∈ db.messages) (hr : r ∈ db.messages) :
    r.id ∉ batch.map MessageRow.id ↔ r ∉ batch := by
  constructor
  · intro hout hin
    exact hout (List.mem_map.mpr ⟨r, hin, rfl⟩)
  · intro hout hin
    obtain ⟨b, hb, hbid⟩ := List.mem_map.mp hin
    rw [Table.eq_of_key (hbatch b hb) hr hbid] at hb
    exact hout hb

/-- A deletion batch leaves the messages that are not in it. -/
theorem stored_removeBatch_iff (hbatch : ∀ b ∈ batch, b ∈ db.messages) (hr : r ∈ db.messages) :
    Stored r.id (db.removeBatch batch) ↔ r ∉ batch := by
  rw [← not_mem_batch_iff hbatch hr]
  constructor
  · rintro ⟨s, hs, hid⟩
    obtain ⟨t, ht, hout, hts⟩ := mem_removeBatch hs
    rwa [← hid, hts.identity.id]
  · intro hout
    obtain ⟨s, hs, hrs⟩ := removeBatch_keeps hr hout
    exact ⟨s, hs, hrs.identity.id⟩

/-- A deletion batch leaves the number of messages none of which is in it. -/
theorem countWhere_removeBatch {p : MessageRow → Prop} [DecidablePred p]
    (hp : ∀ r s, SameIdentity r s → (p r ↔ p s)) (hbatch : ∀ b ∈ batch, b ∈ db.messages)
    (hnone : ∀ b ∈ batch, ¬ p b) :
    (db.removeBatch batch).messages.countWhere p = db.messages.countWhere p := by
  apply le_antisymm
  · apply Table.countWhere_le_of_key
    intro s hs hps
    obtain ⟨r, hr, -, hrs⟩ := mem_removeBatch hs
    exact ⟨r, hr, hrs.identity.id.symm, (hp r s hrs.identity).mpr hps⟩
  · apply Table.countWhere_le_of_key
    intro r hr hpr
    have hout : r ∉ batch := fun hin => hnone r hin hpr
    obtain ⟨s, hs, hrs⟩ := removeBatch_keeps hr ((not_mem_batch_iff hbatch hr).mpr hout)
    exact ⟨s, hs, hrs.identity.id, (hp r s hrs.identity).mp hpr⟩

variable (roomId) in
/-- Passes that take none of the later messages leave their number. -/
theorem later_removeBatch {place : Timestamp ×ₗ String} (hbatch : ∀ b ∈ batch, b ∈ db.messages)
    (hnone : ∀ b ∈ batch, ¬ place < b.place) :
    laterInRoom roomId place (db.removeBatch batch) = laterInRoom roomId place db ∧
      laterInStore place (db.removeBatch batch) = laterInStore place db := by
  constructor
  · apply countWhere_removeBatch _ hbatch
    · intro b hb hlater
      exact hnone b hb hlater.2
    · intro r s hrs
      rw [hrs.roomId, hrs.place]
  · apply countWhere_removeBatch _ hbatch hnone
    intro r s hrs
    rw [hrs.place]

/-! ## The three passes -/

/-- No message of the configured age or younger goes for its age. -/
theorem pastAge_before {now : Timestamp} {b : MessageRow} (h : b ∈ pastAge cfg now db)
    (hr : now ≤ r.createdAt) : b.place < r.place := by
  unfold pastAge retentionCutoff at h
  cases hdays : cfg.messageRetentionDays with
  | none => simp [hdays] at h
  | some d =>
      rw [hdays] at h
      have hold : b.createdAt < now - days d := of_decide_eq_true (List.mem_filter.mp h).2
      have hspan : 0 ≤ days d := by
        unfold days
        omega
      unfold MessageRow.place
      rw [Prod.Lex.toLex_lt_toLex]
      left
      calc b.createdAt < now - days d := hold
        _ ≤ now := Int.sub_le_self now hspan
        _ ≤ r.createdAt := hr

/-- A message of the trimmed room that is dated with the trim stays exactly when few enough later
ones are there. -/
theorem stored_trim_iff {now : Timestamp} (hr : r ∈ db.messages) (hroom : r.roomId = roomId)
    (hnow : now ≤ r.createdAt) :
    Stored r.id (db.trim cfg roomId now) ↔
      laterInRoom roomId r.place db < cfg.maxStoredMessagesPerRoom ∧
        laterInStore r.place db < cfg.maxStoredMessages := by
  unfold Database.trim
  dsimp only
  -- the pass by age
  have hage : ∀ b ∈ pastAge cfg now db, b ∈ db.messages := fun b hb => mem_pastAge hb
  have hyoung : ∀ b ∈ pastAge cfg now db, ¬ r.place < b.place :=
    fun b hb => (pastAge_before hb hnow).not_gt
  have hkept : r ∉ pastAge cfg now db := fun hin => (pastAge_before hin hnow).false
  obtain ⟨r₁, hr₁, hrr₁⟩ := removeBatch_keeps hr ((not_mem_batch_iff hage hr).mpr hkept)
  have hroom₁ : r₁.roomId = roomId := hrr₁.identity.roomId.trans hroom
  have hlater₁ := later_removeBatch roomId hage hyoung
  generalize hdb₁ : db.removeBatch (pastAge cfg now db) = db₁ at hr₁ hlater₁ ⊢
  rw [← hrr₁.identity.id]
  rw [← hlater₁.1, ← hlater₁.2, ← hrr₁.identity.place]
  -- the pass over the room
  have hinRoom : ∀ b ∈ pastRoomCap cfg roomId db₁, b ∈ db₁.messages :=
    fun b hb => (mem_pastRoomCap hb).1
  by_cases hpast : r₁ ∈ pastRoomCap cfg roomId db₁
  · have hcap := (mem_pastRoomCap_iff hr₁ hroom₁).mp hpast
    constructor
    · rintro ⟨s, hs, hid⟩
      obtain ⟨t, ht, -, hts⟩ := mem_removeBatch hs
      have hstored : Stored r₁.id (db₁.removeBatch (pastRoomCap cfg roomId db₁)) :=
        ⟨t, ht, hts.identity.id.symm.trans hid⟩
      exact absurd hpast ((stored_removeBatch_iff hinRoom hr₁).mp hstored)
    · rintro ⟨hlt, -⟩
      omega
  · have hcap : laterInRoom roomId r₁.place db₁ < cfg.maxStoredMessagesPerRoom := by
      by_contra hge
      exact hpast ((mem_pastRoomCap_iff hr₁ hroom₁).mpr (not_lt.mp hge))
    obtain ⟨r₂, hr₂, hrr₂⟩ := removeBatch_keeps hr₁ ((not_mem_batch_iff hinRoom hr₁).mpr hpast)
    have hearlier : ∀ b ∈ pastRoomCap cfg roomId db₁, ¬ r₁.place < b.place := by
      intro b hb
      have hin : r₁ ∈ db₁.messages.rows.filter fun s => s.roomId = roomId :=
        List.mem_filter.mpr ⟨hr₁, decide_eq_true hroom₁⟩
      have hle := firstBy_le_of_not_mem hb hin hpast
      exact (messageOldestFirst_iff.mp hle).not_gt
    have hlater₂ := (later_removeBatch roomId hinRoom hearlier).2
    -- the pass over the store
    have hinStore : ∀ b ∈ pastGlobalCap cfg (db₁.removeBatch (pastRoomCap cfg roomId db₁)),
        b ∈ (db₁.removeBatch (pastRoomCap cfg roomId db₁)).messages :=
      fun b hb => mem_pastGlobalCap hb
    rw [← hrr₂.identity.id, stored_removeBatch_iff hinStore hr₂, mem_pastGlobalCap_iff hr₂,
      hrr₂.identity.place, hlater₂]
    omega

end Trim

/-! ## Creates -/

/-- The row that a create inserts. -/
def CreateMessage.newRow (args : CreateMessage) (rd : Readings) : MessageRow :=
  newMessageRow (args.raw (rd.uuid 0) (rd.now 1)).stripFields args.authorSubject

/-- A create that passes every check, with generated ids that are not in use.  The outbox is
checked after the trim. -/
structure CreateMessage.Passes (args : CreateMessage) (cfg : Config) (rd : Readings)
    (db : Database) : Prop where
  mayWrite : MayWrite args.roomId args.allowFrozen args.memberSubject (rd.now 0) db
  fresh : findIdempotent args.roomId args.clientMessageId db = none
  parent : ∀ parentId, args.parentMessageId = some parentId →
    ∃ parent ∈ db.messages, parent.id = parentId ∧ parent.roomId = args.roomId ∧
      parent.deletedAt = none ∧ parent.parentMessageId = none
  content : args.Normal
  keys : (args.newRow rd).Admissible db
  messageId : ∀ r ∈ db.messages, r.id ≠ (rd.uuid 0).text
  auditId : ∀ r ∈ db.auditEvents, r.id ≠ (rd.uuid 1).text
  webhookId : ∀ r ∈ db.webhooks, r.id ≠ "wh_" ++ (rd.uuid 2).text
  capacity : ∀ inserted, db.messages.insert? (args.newRow rd) = some inserted →
    .messageCreated ∈ cfg.webhookEvents →
    (pruneWebhooks cfg.maxWebhookDeliveries
      (({ db with messages := inserted } : Database).trim cfg args.roomId
        (rd.now 1)).webhooks).count < cfg.maxWebhookDeliveries

/-- Few enough messages come after the new one, in its room and in the store. -/
def CreateMessage.Fits (args : CreateMessage) (cfg : Config) (rd : Readings) (db : Database) :
    Prop :=
  laterInRoom args.roomId (args.newRow rd).place db < cfg.maxStoredMessagesPerRoom ∧
    laterInStore (args.newRow rd).place db < cfg.maxStoredMessages

/-- The create returns a message that is stored under the new id. -/
def CreateMessage.ReturnsStored (args : CreateMessage) (cfg : Config) (rd : Readings)
    (db : Database) : Prop :=
  ∃ m db', exec cfg rd (.createMessage args) db = (.ok (.message m true), db') ∧
    ∃ row ∈ db'.messages, row.id = (rd.uuid 0).text ∧ messageFromRow row = .ok m

/-- The error of a create whose own trim deleted its message. -/
def notRetained : StoreError := .runtime "newly created message was not retained"

section Create

variable {cfg : Config} {rd : Readings} {args : CreateMessage} {db : Database}
variable {inserted : Table MessageRow String MessageRow.id}

theorem CreateMessage.newRow_id : (args.newRow rd).id = (rd.uuid 0).text :=
  (rd.uuid 0).stripWhitespace_eq

/-- The new row counts among the later ones of none. -/
theorem later_inserted {place : Timestamp ×ₗ String} (roomId : String) {row : MessageRow}
    (hins : db.messages.insert? row = some inserted) (hplace : ¬ place < row.place) :
    laterInRoom roomId place { db with messages := inserted } = laterInRoom roomId place db ∧
      laterInStore place { db with messages := inserted } = laterInStore place db := by
  unfold laterInRoom laterInStore
  constructor
  · apply le_antisymm
    · apply Table.countWhere_le_of_key
      intro r hr hlater
      rcases (Table.mem_of_insert? hins).mp hr with hold | rfl
      · exact ⟨r, hold, rfl, hlater⟩
      · exact absurd hlater.2 hplace
    · apply Table.countWhere_le_of_key
      intro r hr hlater
      exact ⟨r, (Table.mem_of_insert? hins).mpr (.inl hr), rfl, hlater⟩
  · apply le_antisymm
    · apply Table.countWhere_le_of_key
      intro r hr hlater
      rcases (Table.mem_of_insert? hins).mp hr with hold | rfl
      · exact ⟨r, hold, rfl, hlater⟩
      · exact absurd hlater hplace
    · apply Table.countWhere_le_of_key
      intro r hr hlater
      exact ⟨r, (Table.mem_of_insert? hins).mpr (.inl hr), rfl, hlater⟩

variable (cfg) in
/-- The trim leaves the new message exactly when it fits. -/
theorem stored_new_iff (hroom : stripWhitespace args.roomId = args.roomId)
    (hins : db.messages.insert? (args.newRow rd) = some inserted) :
    Stored (rd.uuid 0).text
        (({ db with messages := inserted } : Database).trim cfg args.roomId (rd.now 1)) ↔
      args.Fits cfg rd db := by
  have hmem : args.newRow rd ∈ ({ db with messages := inserted } : Database).messages :=
    (Table.mem_of_insert? hins).mpr (.inr rfl)
  have hlater := later_inserted args.roomId hins (lt_irrefl (args.newRow rd).place)
  have hid : (args.newRow rd).id = (rd.uuid 0).text := CreateMessage.newRow_id
  have hnow : rd.now 1 = (args.newRow rd).createdAt := rfl
  rw [← hid, hnow, stored_trim_iff hmem hroom le_rfl, hlater.1, hlater.2]
  rfl

theorem insertAudit_spares_fresh {bad : StoreError → Prop} {id : UuidHex} {createdAt : Timestamp}
    {action : AuditAction} {actor : String} {roomId : Option String} {details : AuditDetails}
    (hid : ∀ r ∈ db.auditEvents, r.id ≠ id.text) :
    Tx.Spares (insertAudit cfg id createdAt action actor roomId details) db bad := by
  unfold insertAudit
  apply Tx.spares_read.bind
  intro added t hread
  obtain ⟨rfl, rfl⟩ := Tx.returns_read.mp hread
  apply (Tx.spares_orRaise (.inl _)).bind
  · intro added _ _
    exact Tx.spares_write
  · intro hnone
    obtain ⟨r, hr, hkey⟩ := Table.insert?_eq_none.mp hnone
    exact hid r hr hkey

theorem trimMessages_spares_fresh {bad : StoreError → Prop} {roomId : String} {now auditAt : Timestamp}
    {auditId : UuidHex} (hid : ∀ r ∈ db.auditEvents, r.id ≠ auditId.text) :
    Tx.Spares (trimMessages cfg roomId now auditId auditAt) db bad := by
  unfold trimMessages
  apply (returns_trimByAge.mpr ⟨rfl, rfl⟩).spares.bind
  intro _ t haged
  obtain ⟨-, rfl⟩ := returns_trimByAge.mp haged
  apply (returns_deleteMessagesWithWebhookScrub.mpr ⟨rfl, rfl⟩).spares.bind
  intro _ t hroom
  obtain ⟨-, rfl⟩ := returns_deleteMessagesWithWebhookScrub.mp hroom
  apply (returns_deleteMessagesWithWebhookScrub.mpr ⟨rfl, rfl⟩).spares.bind
  intro _ t hglobal
  obtain ⟨-, rfl⟩ := returns_deleteMessagesWithWebhookScrub.mp hglobal
  apply Tx.spares_ite
  · intro _
    exact Tx.spares_pure
  · intro _
    exact insertAudit_spares_fresh hid

theorem CreateMessage.Passes.room_stripped (h : args.Passes cfg rd db) :
    stripWhitespace args.roomId = args.roomId := by
  obtain ⟨room, hmem, hkey, -⟩ := h.mayWrite.room
  exact HasRoom.stripped ⟨room, hmem, hkey⟩

theorem CreateMessage.Passes.inserts (h : args.Passes cfg rd db) :
    ∃ inserted, db.messages.insert? (args.newRow rd) = some inserted := by
  cases hins : db.messages.insert? (args.newRow rd) with
  | some inserted => exact ⟨inserted, rfl⟩
  | none =>
      obtain ⟨r, hr, hkey⟩ := Table.insert?_eq_none.mp hins
      exact absurd (hkey.trans CreateMessage.newRow_id) (h.messageId r hr)

/-- The outbox takes the event of a create that passes its checks. -/
theorem CreateMessage.Passes.outbox_takes (h : args.Passes cfg rd db)
    (hins : db.messages.insert? (args.newRow rd) = some inserted) (roomId resourceId : String)
    (occurredAt : Timestamp) (data : WebhookData) :
    ∃ t, OutboxGains cfg
      (webhookRow (rd.uuid 2) .messageCreated roomId resourceId occurredAt data)
      (({ db with messages := inserted } : Database).trim cfg args.roomId (rd.now 1)).webhooks
      t := by
  by_cases hselected : EventType.messageCreated ∈ cfg.webhookEvents
  · have hcapacity := h.capacity inserted hins hselected
    generalize htrimmed : ({ db with messages := inserted } : Database).trim cfg args.roomId
      (rd.now 1) = trimmed at hcapacity ⊢
    cases hadd : (pruneWebhooks cfg.maxWebhookDeliveries trimmed.webhooks).insert?
        (webhookRow (rd.uuid 2) .messageCreated roomId resourceId occurredAt data) with
    | some t => exact ⟨t, .inr ⟨hselected, hcapacity, hadd⟩⟩
    | none =>
        -- the id of the outbox row is in use by no row that was there before
        obtain ⟨w, hw, hkey⟩ := Table.insert?_eq_none.mp hadd
        have hold : w ∈ trimmed.webhooks := (Table.mem_deleteWhere.mp hw).1
        rw [← htrimmed] at hold
        rcases trim_from hold with hmem | ⟨v, hv, -, rfl⟩
        · exact absurd hkey (h.webhookId w hmem)
        · exact absurd hkey (h.webhookId v hv)
  · exact ⟨_, .inl ⟨hselected, rfl⟩⟩

/-- What a create that passes its checks may fail for: its own trim, when its message does not
fit. -/
def OwnTrim (args : CreateMessage) (cfg : Config) (rd : Readings) (db : Database)
    (e : StoreError) : Prop :=
  e = notRetained ∧ ¬ args.Fits cfg rd db

theorem CreateMessage.Passes.new_spares (h : args.Passes cfg rd db) :
    Tx.Spares (createNewMessage cfg rd args) db fun e => ¬ OwnTrim args cfg rd db e := by
  unfold createNewMessage
  apply (returns_requireParent (u := ()).mpr ⟨h.parent, rfl⟩).spares.bind
  intro _ t hparent
  obtain ⟨-, rfl⟩ := returns_requireParent.mp hparent
  apply (validated_spares (h.content.build_eq _ _)).bind
  intro message t hbuilt
  rw [returns_validated, h.content.build_eq] at hbuilt
  obtain ⟨hbuilt, rfl⟩ := hbuilt
  obtain rfl := (Except.ok.inj hbuilt).symm
  have hnew := newMessageRow_wellFormed h.content (rd.uuid 0) (rd.now 1) args.authorSubject
  obtain ⟨inserted, hins⟩ := h.inserts
  have hreturns := returns_insertMessageRow (u := ()).mpr
    ⟨hnew.checks, h.keys, inserted, hins, rfl⟩
  apply hreturns.spares.bind
  intro _ t' hinsert
  obtain ⟨-, -, inserted', hins', rfl⟩ := returns_insertMessageRow.mp hinsert
  change t.messages.insert? (args.newRow rd) = some inserted' at hins'
  have haudit : ∀ r ∈ ({ t with messages := inserted' } : Database).auditEvents,
      r.id ≠ (rd.uuid 1).text := h.auditId
  apply (trimMessages_spares_fresh haudit).bind
  intro _ trimmed htrim
  have hsame : SameButAudit (({ t with messages := inserted' } : Database).trim cfg args.roomId
      (rd.now 1)) trimmed := trimMessages_same htrim
  have hstored := stored_new_iff cfg h.room_stripped hins'
  apply Tx.spares_read.bind
  intro persisted t' hread
  obtain ⟨hpersisted, rfl⟩ := Tx.returns_read.mp hread
  have hid : (args.raw (rd.uuid 0) (rd.now 1)).stripFields.id = (rd.uuid 0).text :=
    CreateMessage.newRow_id
  rw [hid] at hpersisted
  apply Tx.Spares.bind
  · -- the message is not read back exactly when the trim deleted it
    intro e hnone
    obtain ⟨hlost, rfl⟩ := Tx.raises_orRaise.mp hnone
    rw [not_not]
    refine ⟨rfl, fun hfits => ?_⟩
    obtain ⟨row, hrow, hrowId⟩ := hstored.mpr hfits
    rw [hpersisted] at hlost
    apply Table.find?_eq_none.mp hlost row _ hrowId
    rw [hsame.messages]
    exact hrow
  · intro row t'' hrow
    obtain ⟨hfound, rfl⟩ := Tx.returns_orRaise.mp hrow
    have hwell : row.WellFormed := by
      rw [hpersisted] at hfound
      obtain ⟨hmem, hrowId⟩ := Table.find?_eq_some.mp hfound
      rw [hsame.messages] at hmem
      obtain ⟨r, hr, hforgets⟩ := mem_trim hmem
      rcases (Table.mem_of_insert? hins').mp hr with hold | rfl
      · exact absurd (hforgets.identity.id.symm.trans hrowId) (h.messageId r hold)
      · exact hnew.sameButParent hforgets.same
    apply (validated_spares hwell.messageFromRow_eq).bind
    intro message t'' hmessage
    obtain ⟨-, rfl⟩ := returns_validated.mp hmessage
    have htaken := h.outbox_takes hins' args.roomId message.id message.createdAt
      (.messageCreated message)
    rw [← hsame.webhooks] at htaken
    obtain ⟨outbox, hgains⟩ := htaken
    apply (returns_insertWebhook (u := ()).mpr ⟨outbox, hgains, rfl⟩).spares.bind
    intro _ _ _
    exact Tx.spares_pure

/-- A create that passes its checks fails for nothing but its own trim. -/
theorem CreateMessage.Passes.raises (h : args.Passes cfg rd db) {e : StoreError}
    (hraises : Tx.Raises (createMessage cfg rd args) db e) : OwnTrim args cfg rd db e := by
  have hspares : Tx.Spares (createMessage cfg rd args) db
      fun e => ¬ OwnTrim args cfg rd db e := by
    unfold createMessage
    apply (returns_requireOpenRoom (u := ()).mpr ⟨h.mayWrite.room, rfl⟩).spares.bind
    intro _ t hroom
    obtain ⟨-, rfl⟩ := returns_requireOpenRoom.mp hroom
    apply (returns_enforceMemberWrite (u := ()).mpr ⟨h.mayWrite.member, rfl⟩).spares.bind
    intro _ t hmember
    obtain ⟨-, rfl⟩ := returns_enforceMemberWrite.mp hmember
    apply Tx.spares_read.bind
    intro existing t hread
    obtain ⟨rfl, rfl⟩ := Tx.returns_read.mp hread
    rw [h.fresh]
    exact h.new_spares
  exact not_not.mp (hspares e hraises)

/-- A create that passes its checks and returns has its message stored, which then fits. -/
theorem CreateMessage.Passes.returned (h : args.Passes cfg rd db) {reply : Reply} {db' : Database}
    (hok : Tx.Returns (Command.tx cfg rd (.createMessage args)) db reply db') :
    args.Fits cfg rd db ∧ args.ReturnsStored cfg rd db := by
  have hexec := exec_ok.mpr hok
  obtain ⟨⟨m, created⟩, hcreate, rfl⟩ := Tx.returns_map.mp hok
  rcases (createMessage_ok hcreate).2 with ⟨-, -, row, hfound, -⟩ | ⟨rfl, hcreated⟩
  · rw [h.fresh] at hfound
    cases hfound
  · obtain ⟨built, inserted, hbuild, -, -, hins, ⟨row, hrow, hrowId, hdecode⟩, hcommits⟩ :=
      hcreated.effect
    rw [h.content.build_eq] at hbuild
    obtain rfl := Except.ok.inj hbuild
    have hid : (args.raw (rd.uuid 0) (rd.now 1)).stripFields.id = (rd.uuid 0).text :=
      CreateMessage.newRow_id
    rw [hid] at hrowId
    refine ⟨(stored_new_iff cfg h.room_stripped hins).mp ⟨row, ?_, hrowId⟩, m, db', hexec, row,
      hrow, hrowId, hdecode⟩
    rw [hcommits.messages] at hrow
    exact hrow

/-- A create that passes its checks returns its message when the message fits. -/
theorem CreateMessage.Passes.returns_stored (h : args.Passes cfg rd db)
    (hfits : args.Fits cfg rd db) : args.ReturnsStored cfg rd db := by
  rcases Tx.returns_or_raises (Command.tx cfg rd (.createMessage args)) db with
    ⟨reply, db', hok⟩ | ⟨e, hraises⟩
  · exact (h.returned hok).2
  · exact absurd hfits (h.raises (Tx.raises_map.mp hraises)).2

/-- A create that passes its checks returns its message, stored, exactly when the message fits;
else its own trim deletes it and the call fails. -/
theorem create_returns_stored_iff (h : args.Passes cfg rd db) :
    (args.ReturnsStored cfg rd db ↔ args.Fits cfg rd db) ∧
      (exec cfg rd (.createMessage args) db = (.error notRetained, db) ↔
        ¬ args.Fits cfg rd db) := by
  have hreturns : args.ReturnsStored cfg rd db ↔ args.Fits cfg rd db := by
    refine ⟨?_, h.returns_stored⟩
    rintro ⟨m, db', hexec, -⟩
    exact (h.returned (exec_ok.mp hexec)).1
  refine ⟨hreturns, ?_, ?_⟩
  · intro herror hfits
    obtain ⟨m, db', hexec, -⟩ := h.returns_stored hfits
    rw [herror] at hexec
    cases hexec
  · intro hlost
    rcases Tx.returns_or_raises (Command.tx cfg rd (.createMessage args)) db with
      ⟨reply, db', hok⟩ | ⟨e, hraises⟩
    · exact absurd (h.returned hok).1 hlost
    · obtain ⟨rfl, -⟩ := h.raises (Tx.raises_map.mp hraises)
      exact Tx.atomically_raises.mpr hraises

/-- One message a room, and no outbox. -/
def oneMessageConfig : Config :=
  { maxRooms := 3, maxStoredMessages := 10, maxStoredMessagesPerRoom := 1, webhookEvents := [],
    maxWebhookDeliveries := 2 }

/-- A room whose message is dated 5. -/
def oneKept : Database :=
  runCalls oneMessageConfig [(.fixed 1 0, makeRoom), (.fixed 5 20, sayFirst)] {}

def sayAgain : CreateMessage :=
  Principal.createMessage sharedKey "general" "ada" { content := "again" } none

theorem sayAgain_passes (t : Timestamp) : sayAgain.Passes oneMessageConfig (.fixed t 30) oneKept where
  mayWrite :=
    ⟨⟨{ id := ⟨"general", matchesRoomId_general⟩, name := "General", description := "",
        createdAt := 1 },
      Table.mem_rows.mp (by decide +kernel), rfl, rfl, .inl rfl⟩,
      fun _ hsubject => absurd hsubject (Option.some_ne_none _).symm⟩
  fresh := by decide +kernel
  parent := nofun
  content := ⟨NormalMetadata.nil, NormalAttachments.nil, NormalMentions.nil⟩
  keys := by
    refine ⟨?_, nofun, nofun⟩
    show (oneKept.rooms.find? (stripWhitespace "general")).isSome = true
    decide +kernel
  messageId := by
    show ∀ r ∈ oneKept.messages.rows, r.id ≠ (UuidHex.ofNat 30).text
    decide +kernel
  auditId := by
    show ∀ r ∈ oneKept.auditEvents.rows, r.id ≠ (UuidHex.ofNat 31).text
    decide +kernel
  webhookId := by
    show ∀ r ∈ oneKept.webhooks.rows, r.id ≠ "wh_" ++ (UuidHex.ofNat 32).text
    decide +kernel
  capacity := fun _ _ hselected => absurd hselected (by decide)

/-- A later message replaces the one that is there. -/
theorem create_returns_stored_later :
    sayAgain.ReturnsStored oneMessageConfig (.fixed 6 30) oneKept := by
  apply (create_returns_stored_iff (sayAgain_passes 6)).1.mpr
  exact ⟨by decide +kernel, by decide +kernel⟩

/-- With the clock stepped back, the create deletes its own message and fails. -/
theorem create_not_retained_clockBack :
    StoreReachable oneMessageConfig oneKept ∧
      sayAgain.Passes oneMessageConfig (.fixed 2 30) oneKept ∧
      exec oneMessageConfig (.fixed 2 30) (.createMessage sayAgain) oneKept =
        (.error notRetained, oneKept) :=
  ⟨runCalls_reachable _ _, sayAgain_passes 2, Prod.ext (by decide +kernel) rfl⟩

end Create

end Store
end ChatEngine
