import ChatEngine.Store.Privacy

/-!
# The transactional outbox

A call that changes data and its outbox row commit together or not at all.

* `MakesRoom`, what the pruning before an insert may remove: finished rows, the
  oldest first, and no more than needed;
* `StateChange` and `NoChange`, the two outcomes of a successful mutation;
* `StoreReachable.outbox_le`, the cap;
* `transactional_outbox`, the contract of every mutation.
-/

namespace ChatEngine
namespace Store

open Lib
open Models

variable {cfg : Config} {rd : Readings} {cmd : Command} {db db' base : Database} {reply : Reply}

/-! ## Making room -/

/-- Removing `removed` from `t` leaves `kept`, and touches finished rows only:
the oldest ones, and no more than a further row needs under the cap. -/
structure MakesRoom (cap : Nat) (t : WebhookTable) (removed : List WebhookRow)
    (kept : WebhookTable) : Prop where
  mem_kept : ∀ w, w ∈ kept ↔ w ∈ t ∧ w ∉ removed
  finished : ∀ w ∈ removed, w ∈ t ∧ w.Finished
  oldest : ∀ w ∈ removed, ∀ v ∈ kept, v.Finished → webhookOldestFirst w v
  needed : removed.length ≤ t.count + 1 - cap
  count : kept.count + removed.length = t.count

theorem mem_webhookPruned {cap : Nat} {t : WebhookTable} {w : WebhookRow}
    (h : w ∈ webhookPruned cap t) : w ∈ t ∧ w.Finished := by
  obtain ⟨hmem, hfinished⟩ := List.mem_filter.mp (mem_of_mem_firstBy h)
  exact ⟨hmem, of_decide_eq_true hfinished⟩

/-- The pruning of `_insert_webhook` makes room. -/
theorem pruneWebhooks_makesRoom (cap : Nat) (t : WebhookTable) :
    MakesRoom cap t (webhookPruned cap t) (pruneWebhooks cap t) := by
  have hkept : ∀ w, w ∈ pruneWebhooks cap t ↔ w ∈ t ∧ w ∉ webhookPruned cap t := by
    intro w
    unfold pruneWebhooks
    rw [Table.mem_deleteWhere]
    constructor
    · rintro ⟨hw, hout⟩
      exact ⟨hw, fun hmem => hout (List.mem_map.mpr ⟨w, hmem, rfl⟩)⟩
    · rintro ⟨hw, hout⟩
      refine ⟨hw, fun hmem => hout ?_⟩
      obtain ⟨v, hv, hid⟩ := List.mem_map.mp hmem
      rw [← Table.eq_of_key (mem_webhookPruned hv).1 hw hid]
      exact hv
  refine ⟨hkept, fun w hw => mem_webhookPruned hw, ?_, ?_, ?_⟩
  · intro w hw v hv hfinished
    obtain ⟨hvt, hvout⟩ := (hkept v).mp hv
    exact firstBy_le_of_not_mem hw
      (List.mem_filter.mpr ⟨hvt, decide_eq_true hfinished⟩) hvout
  · unfold webhookPruned
    rw [length_firstBy]
    exact Nat.min_le_left _ _
  · exact Table.length_deleteSelected t (webhookPruned cap t)
      (fun w hw => (mem_webhookPruned hw).1) (firstBy_nodup (t.rows_nodup.filter _))

/-! ## The cap -/

theorem count_removeBatch_le (batch : List MessageRow) (db : Database) :
    (db.removeBatch batch).webhooks.count ≤ db.webhooks.count :=
  count_scrub_le db.webhooks (inBatch batch)

theorem count_trim_le (cfg : Config) (roomId : String) (now : Timestamp) (db : Database) :
    (db.trim cfg roomId now).webhooks.count ≤ db.webhooks.count := by
  unfold Database.trim
  exact (count_removeBatch_le _ _).trans
    ((count_removeBatch_le _ _).trans (count_removeBatch_le _ _))

/-- A committed change respects the cap. -/
theorem CommitsWith.outbox_le {row : WebhookRow} (h : CommitsWith cfg base row db')
    (hbase : base.webhooks.count ≤ cfg.maxWebhookDeliveries) :
    db'.webhooks.count ≤ cfg.maxWebhookDeliveries := by
  rcases h.outbox with ⟨-, hsame⟩ | ⟨-, hroom, hins⟩
  · rw [hsame]
    exact hbase
  · rw [Table.count_of_insert? hins]
    exact hroom

/-- Every call respects the cap. -/
theorem outbox_le_call (hdb : db.webhooks.count ≤ cfg.maxWebhookDeliveries)
    (h : Tx.Returns (cmd.tx cfg rd) db reply db') :
    db'.webhooks.count ≤ cfg.maxWebhookDeliveries := by
  cases cmd with
  | createRoom payload actor =>
      obtain ⟨room, hok, -⟩ := Tx.returns_map.mp h
      obtain ⟨-, _, _, -, -, hsame⟩ := createRoom_ok hok
      rw [hsame.webhooks]
      exact hdb
  | setRoomState roomId archived frozen actor =>
      obtain ⟨r, hok, -⟩ := Tx.returns_map.mp h
      rw [(setRoomState_ok hok).webhooks]
      exact hdb
  | deleteRoom roomId actor =>
      obtain ⟨n, hok, -⟩ := Tx.returns_map.mp h
      obtain ⟨-, audited, hsame, rfl⟩ := deleteRoom_ok hok
      refine le_trans (count_scrub_le audited.webhooks fun r => r.roomId = roomId) ?_
      rw [hsame.webhooks]
      exact hdb
  | recordExportRequested roomId actor =>
      obtain ⟨u, hok, -⟩ := Tx.returns_map.mp h
      rw [(recordExportRequested_ok hok).webhooks]
      exact hdb
  | createMessage args =>
      obtain ⟨⟨m, created⟩, hok, -⟩ := Tx.returns_map.mp h
      obtain ⟨-, ⟨-, rfl, -⟩ | ⟨-, hcreated⟩⟩ := createMessage_ok hok
      · exact hdb
      · obtain ⟨_, _, -, -, -, -, -, hcommits⟩ := hcreated.effect
        exact hcommits.outbox_le ((count_trim_le _ _ _ _).trans hdb)
  | updateMessage args =>
      obtain ⟨m, hok, -⟩ := Tx.returns_map.mp h
      exact (updateMessage_ok hok).commits.outbox_le hdb
  | deleteMessage args =>
      obtain ⟨⟨m, changed⟩, hok, -⟩ := Tx.returns_map.mp h
      obtain ⟨-, -, row, -, -, -, -, ⟨-, rfl, -⟩ | ⟨-, hdeleted⟩⟩ := deleteMessage_ok hok
      · exact hdb
      · exact hdeleted.commits.outbox_le
          ((count_scrub_le db.webhooks (ofMessage args.roomId args.messageId)).trans hdb)
  | setMessageReaction args =>
      obtain ⟨mutation, hok, -⟩ := Tx.returns_map.mp h
      obtain ⟨-, row, -, -, -, -, ⟨-, rfl, -⟩ | hreacted⟩ := setMessageReaction_ok hok
      · exact hdb
      · obtain ⟨_, _, -, -, -, hcommits⟩ := hreacted.effect
        exact hcommits.outbox_le hdb
  | setMessagePin args =>
      obtain ⟨mutation, hok, -⟩ := Tx.returns_map.mp h
      obtain ⟨-, row, -, -, -, -, ⟨-, rfl, -⟩ | hpinned⟩ := setMessagePin_ok hok
      · exact hdb
      · exact hpinned.commits.outbox_le hdb
  | setMemberModeration roomId subject payload actor =>
      obtain ⟨moderation, hok, -⟩ := Tx.returns_map.mp h
      obtain ⟨-, row, -, hcommits⟩ := setMemberModeration_ok hok
      exact hcommits.outbox_le hdb
  | markRead roomId subject messageId =>
      obtain ⟨mutation, hok, -⟩ := Tx.returns_map.mp h
      obtain ⟨t, rfl⟩ := markRead_ok hok
      exact hdb
  | clearReadState roomId subject =>
      obtain ⟨removed, hok, -⟩ := Tx.returns_map.mp h
      obtain ⟨t, rfl⟩ := clearReadState_ok hok
      exact hdb
  | recordWebhookAttempt deliveryId attempt =>
      obtain ⟨u, hok, -⟩ := Tx.returns_map.mp h
      obtain ⟨-, -, rfl⟩ := recordWebhookAttempt_ok hok
      change (recordIn deliveryId attempt db.webhooks).count ≤ _
      unfold recordIn
      rw [Table.count_updateWhere]
      exact hdb
  | retryWebhookDelivery deliveryId =>
      obtain ⟨delivery, hok, -⟩ := Tx.returns_map.mp h
      obtain ⟨row, -, -, -, -, rfl⟩ := retryWebhookDelivery_ok hok
      change (resetIn deliveryId (rd.now 0) db.webhooks).count ≤ _
      unfold resetIn
      rw [Table.count_updateWhere]
      exact hdb
  | runRetention actor =>
      obtain ⟨r, hok, -⟩ := Tx.returns_map.mp h
      rw [(runRetention_ok hok).2.webhooks]
      exact (count_removeBatch_le _ _).trans hdb

/-- The outbox of a reachable database never exceeds its cap. -/
theorem StoreReachable.outbox_le (h : StoreReachable cfg db) :
    db.webhooks.count ≤ cfg.maxWebhookDeliveries :=
  h.invariant (fun db => db.webhooks.count ≤ cfg.maxWebhookDeliveries) (Nat.zero_le _)
    fun _ _ _ _ _ hdb hok => outbox_le_call hdb hok

/-! ## What a mutation did -/

/-- A successful mutation that changed nothing: an idempotent create, a repeated
deletion, a reaction or a pin that is already as asked. -/
inductive NoChange (db : Database) : Command → Reply → Prop
  | create {args : CreateMessage} {row : MessageRow} {m : Message} :
      findIdempotent args.roomId args.clientMessageId db = some row →
      messageFromRow row = .ok m →
      NoChange db (.createMessage args) (.message m false)
  | delete {args : DeleteMessage} {row : MessageRow} {m : Message} :
      row ∈ db.messages → row.id = args.messageId → row.roomId = args.roomId →
      row.deletedAt ≠ none → messageFromRow row = .ok m →
      NoChange db (.deleteMessage args) (.message m false)
  | reaction {args : SetMessageReaction} {mutation : ReactionMutation} :
      mutation.changed = false →
      args.present =
        (db.reactions.find? (args.messageId, args.reactor, args.key)).isSome →
      NoChange db (.setMessageReaction args) (.reaction mutation)
  | pin {args : SetMessagePin} {row : MessageRow} {mutation : PinMutation} :
      row ∈ db.messages → row.id = args.messageId → row.roomId = args.roomId →
      mutation.changed = false → row.pinnedAt.isSome = args.pinned →
      NoChange db (.setMessagePin args) (.pin mutation)

/-- The tables a successful mutation leaves, apart from its outbox row, and the
row it has for the outbox. -/
inductive StateChange (cfg : Config) (rd : Readings) (db : Database) :
    Command → Reply → Database → WebhookRow → Prop
  | create {args : CreateMessage} {built m : Message} {row : MessageRow}
      {inserted : Table MessageRow String MessageRow.id} :
      findIdempotent args.roomId args.clientMessageId db = none →
      (args.raw (rd.uuid 0) (rd.now 1)).build = .ok built →
      db.messages.insert? (newMessageRow built args.authorSubject) = some inserted →
      row ∈ (({ db with messages := inserted } : Database).trim cfg args.roomId
        built.createdAt).messages →
      row.id = built.id → messageFromRow row = .ok m →
      StateChange cfg rd db (.createMessage args) (.message m true)
        (({ db with messages := inserted } : Database).trim cfg args.roomId built.createdAt)
        (webhookRow (rd.uuid 2) .messageCreated args.roomId m.id m.createdAt (.messageCreated m))
  | update {args : UpdateMessage} {row : MessageRow} {m : Message} :
      row ∈ db.messages → row.id = args.messageId → row.roomId = args.roomId →
      row.deletedAt = none → messageFromRow (args.apply (rd.now 1) row) = .ok m →
      StateChange cfg rd db (.updateMessage args) (.message m true)
        (db.setMessage args.messageId (args.apply (rd.now 1)) (args.apply_id (rd.now 1)))
        (webhookRow (rd.uuid 1) .messageUpdated args.roomId m.id (m.editedAt.getD (rd.now 3))
          (.messageUpdated args.actor m))
  | delete {args : DeleteMessage} {row : MessageRow} {m : Message} :
      row ∈ db.messages → row.id = args.messageId → row.roomId = args.roomId →
      row.deletedAt = none → messageFromRow (row.tombstone (rd.now 1)) = .ok m →
      StateChange cfg rd db (.deleteMessage args) (.message m true)
        (db.tombstoneMessage args.roomId args.messageId (rd.now 1))
        (webhookRow (rd.uuid 1) .messageDeleted args.roomId m.id (m.deletedAt.getD (rd.now 3))
          (.messageDeleted args.actor m))
  | reaction {args : SetMessageReaction} {row : MessageRow} {mutation : ReactionMutation}
      {t : Table ReactionRow (String × String × String) ReactionRow.key}
      {summaries : List ReactionSummary} :
      row ∈ db.messages → row.id = args.messageId → row.roomId = args.roomId →
      row.deletedAt = none → mutation.changed = true →
      ReactionsChanged args (rd.now 0) db t →
      validateEach ReactionSummary.validate
        (reactionSummaries args.messageId { db with reactions := t }) = .ok summaries →
      messageFromRow (row.setReactions summaries) = .ok mutation.message →
      StateChange cfg rd db (.setMessageReaction args) (.reaction mutation)
        (({ db with reactions := t } : Database).setMessage args.messageId
          (MessageRow.setReactions summaries) (MessageRow.setReactions_id summaries))
        (webhookRow (rd.uuid 0) .messageReactionUpdated args.roomId args.messageId (rd.now 0)
          (.messageReactionUpdated mutation))
  | pin {args : SetMessagePin} {row : MessageRow} {mutation : PinMutation} :
      row ∈ db.messages → row.id = args.messageId → row.roomId = args.roomId →
      row.deletedAt = none → mutation.changed = true → row.pinnedAt.isSome ≠ args.pinned →
      messageFromRow (args.apply (rd.now 0) row) = .ok mutation.message →
      StateChange cfg rd db (.setMessagePin args) (.pin mutation)
        (db.setMessage args.messageId (args.apply (rd.now 0)) (args.apply_id (rd.now 0)))
        (webhookRow (rd.uuid 1) .messagePinUpdated args.roomId args.messageId (rd.now 0)
          (.messagePinUpdated mutation))
  | moderation {roomId subject actor : String} {payload : MemberModerationUpdate}
      {moderation : MemberModeration} {row : MemberControlRow} :
      row = moderationRow roomId subject payload (rd.now 0)
        (db.memberControls.find? (roomId, subject)) →
      StateChange cfg rd db (.setMemberModeration roomId subject payload actor)
        (.moderation moderation) (db.setControl row)
        (webhookRow (rd.uuid 1) .memberModerationUpdated roomId subject (rd.now 0)
          (.memberModerationUpdated actor
            { roomId := roomId, subject := subject, mutedUntil := row.mutedUntil,
              bannedUntil := row.bannedUntil, updatedAt := rd.now 0 }))

/-- A successful mutation changed nothing, or committed a state change with its
outbox row. -/
theorem mutation_cases {type : EventType} (hevent : cmd.event = some type)
    (h : Tx.Returns (cmd.tx cfg rd) db reply db') :
    (NoChange db cmd reply ∧ db' = db) ∨
      ∃ base row, StateChange cfg rd db cmd reply base row ∧ row.eventType = type ∧
        CommitsWith cfg base row db' := by
  cases cmd with
  | createMessage args =>
      obtain ⟨⟨m, created⟩, hok, rfl⟩ := Tx.returns_map.mp h
      cases hevent
      obtain ⟨-, ⟨rfl, hsame, row, hfind, hdecode⟩ | ⟨rfl, hcreated⟩⟩ := createMessage_ok hok
      · exact .inl ⟨.create hfind hdecode, hsame⟩
      · obtain ⟨built, inserted, hbuild, -, -, hins, ⟨row, hrow, hid, hdecode⟩, hcommits⟩ :=
          hcreated.effect
        rw [hcommits.messages] at hrow
        exact .inr ⟨_, _, .create hcreated.fresh hbuild hins hrow hid hdecode, rfl, hcommits⟩
  | updateMessage args =>
      obtain ⟨m, hok, rfl⟩ := Tx.returns_map.mp h
      cases hevent
      have hupdated := updateMessage_ok hok
      obtain ⟨row, hrow, hid, hroom, hlive, -, hdecode⟩ := hupdated.target
      exact .inr ⟨_, _, .update hrow hid hroom hlive hdecode, rfl, hupdated.commits⟩
  | deleteMessage args =>
      obtain ⟨⟨m, changed⟩, hok, rfl⟩ := Tx.returns_map.mp h
      cases hevent
      obtain ⟨-, -, row, hrow, hid, hroom, -, ⟨rfl, hsame, hgone, hdecode⟩ | ⟨rfl, hdeleted⟩⟩ :=
        deleteMessage_ok hok
      · exact .inl ⟨.delete hrow hid hroom hgone hdecode, hsame⟩
      · exact .inr ⟨_, _, .delete hrow hid hroom hdeleted.live hdeleted.decodes, rfl,
          hdeleted.commits⟩
  | setMessageReaction args =>
      obtain ⟨mutation, hok, rfl⟩ := Tx.returns_map.mp h
      cases hevent
      obtain ⟨-, row, hrow, hid, hroom, hlive, ⟨hchanged, hsame, -, hpresent⟩ | hreacted⟩ :=
        setMessageReaction_ok hok
      · exact .inl ⟨.reaction hchanged hpresent, hsame⟩
      · obtain ⟨t, summaries, hreactions, hsummaries, hdecode, hcommits⟩ := hreacted.effect
        exact .inr ⟨_, _, .reaction hrow hid hroom hlive hreacted.changed hreactions hsummaries
          hdecode, rfl, hcommits⟩
  | setMessagePin args =>
      obtain ⟨mutation, hok, rfl⟩ := Tx.returns_map.mp h
      cases hevent
      obtain ⟨-, row, hrow, hid, hroom, hlive, ⟨hchanged, hsame, -, hpinned⟩ | hpinned⟩ :=
        setMessagePin_ok hok
      · exact .inl ⟨.pin hrow hid hroom hchanged hpinned, hsame⟩
      · exact .inr ⟨_, _, .pin hrow hid hroom hlive hpinned.changed hpinned.differs
          hpinned.decodes, rfl, hpinned.commits⟩
  | setMemberModeration roomId subject payload actor =>
      obtain ⟨moderation, hok, rfl⟩ := Tx.returns_map.mp h
      cases hevent
      obtain ⟨-, row, hrow, hcommits⟩ := setMemberModeration_ok hok
      exact .inr ⟨_, _, .moderation hrow, rfl, hcommits⟩
  | createRoom payload actor => cases hevent
  | setRoomState roomId archived frozen actor => cases hevent
  | deleteRoom roomId actor => cases hevent
  | recordExportRequested roomId actor => cases hevent
  | markRead roomId subject messageId => cases hevent
  | clearReadState roomId subject => cases hevent
  | recordWebhookAttempt deliveryId attempt => cases hevent
  | retryWebhookDelivery deliveryId => cases hevent
  | runRetention actor => cases hevent

/-- `db'` is `base`, apart from the audit trail and the outbox. -/
structure SameTables (base db' : Database) : Prop where
  rooms : db'.rooms = base.rooms
  messages : db'.messages = base.messages
  reactions : db'.reactions = base.reactions
  memberControls : db'.memberControls = base.memberControls
  readStates : db'.readStates = base.readStates

/-- The outbox gains exactly the row `row`: nothing for a type that is not
selected, and otherwise one new last row after room was made for it. -/
inductive OneRowFor (cfg : Config) (row : WebhookRow) (t t' : WebhookTable) : Prop
  | notSelected : row.eventType ∉ cfg.webhookEvents → t' = t → OneRowFor cfg row t t'
  | selected (removed : List WebhookRow) (kept : WebhookTable) :
      row.eventType ∈ cfg.webhookEvents →
      MakesRoom cfg.maxWebhookDeliveries t removed kept →
      (∀ w ∈ kept, w.id ≠ row.id) → t'.rows = kept.rows ++ [row] → OneRowFor cfg row t t'

theorem OutboxGains.oneRowFor {row : WebhookRow} {t t' : WebhookTable}
    (h : OutboxGains cfg row t t') : OneRowFor cfg row t t' := by
  rcases h with ⟨hout, hsame⟩ | ⟨hin, -, hins⟩
  · exact .notSelected hout hsame
  · obtain ⟨hfresh, hrows⟩ := Table.insert?_eq_some.mp hins
    exact .selected _ _ hin (pruneWebhooks_makesRoom _ t) hfresh hrows

/-- The outcome of a mutation that emits events of one type. -/
inductive MutationOutcome (cfg : Config) (rd : Readings) (db : Database) (cmd : Command)
    (type : EventType) : Except StoreError Reply × Database → Prop
  | raised (e : StoreError) : MutationOutcome cfg rd db cmd type (.error e, db)
  | unchanged (reply : Reply) :
      NoChange db cmd reply → MutationOutcome cfg rd db cmd type (.ok reply, db)
  | committed (reply : Reply) (base : Database) (row : WebhookRow) (db' : Database) :
      StateChange cfg rd db cmd reply base row → row.eventType = type → SameTables base db' →
      OneRowFor cfg row base.webhooks db'.webhooks →
      MutationOutcome cfg rd db cmd type (.ok reply, db')

/-- In every reachable database, every message create, edit, deletion, reaction,
pin and moderation call raises and leaves the database as it was, or changes
nothing, or commits its change together with its one outbox row; and the outbox
stays within its cap. -/
theorem transactional_outbox (h : StoreReachable cfg db) (rd : Readings) (cmd : Command)
    (type : EventType) (hevent : cmd.event = some type) :
    MutationOutcome cfg rd db cmd type (exec cfg rd cmd db) ∧
      db.webhooks.count ≤ cfg.maxWebhookDeliveries ∧
      (exec cfg rd cmd db).2.webhooks.count ≤ cfg.maxWebhookDeliveries := by
  have hnext : StoreReachable cfg (exec cfg rd cmd db).2 := h.next (rd, cmd) rfl
  refine ⟨?_, h.outbox_le, hnext.outbox_le⟩
  rcases Tx.atomically_cases (cmd.tx cfg rd) db with ⟨e, herror⟩ | ⟨reply, db', hok, hrun⟩
  · unfold exec
    rw [herror]
    exact .raised e
  · unfold exec
    rw [hrun]
    rcases mutation_cases hevent hok with ⟨hnone, hsame⟩ | ⟨base, row, hchange, htype, hcommits⟩
    · rw [hsame]
      exact .unchanged reply hnone
    · exact .committed reply base row db' hchange htype
        ⟨hcommits.rooms, hcommits.messages, hcommits.reactions, hcommits.memberControls,
          hcommits.readStates⟩
        hcommits.outbox.oneRowFor

/-- A room, two messages in it, and the cap is reached by pending rows. -/
def outboxFull : List (Readings × Command) :=
  [(.fixed 1 0, .createRoom
        { name := "General", id := some ⟨"general", matchesRoomId_general⟩ } "admin"),
   (.fixed 2 10, .createMessage { roomId := "general", sender := "ada", content := "one" }),
   (.fixed 3 20, .createMessage { roomId := "general", sender := "ada", content := "two" })]

/-- An edit of the first of them. -/
def editFirst : Command :=
  .updateMessage
    { roomId := "general", messageId := (UuidHex.ofNat 10).text, actor := "ada",
      content := "edited" }

/-- With the cap reached by pending rows, an edit raises and is rolled back. -/
theorem transactional_outbox_full :
    MutationOutcome smallConfig (.fixed 4 30) (runCalls smallConfig outboxFull {}) editFirst
        .messageUpdated (exec smallConfig (.fixed 4 30) editFirst
          (runCalls smallConfig outboxFull {})) ∧
      (exec smallConfig (.fixed 4 30) editFirst (runCalls smallConfig outboxFull {})).1 =
        .error (.webhookCapacity "webhook delivery capacity reached") :=
  ⟨(transactional_outbox (runCalls_reachable smallConfig outboxFull) (.fixed 4 30) editFirst
    .messageUpdated rfl).1, by decide⟩

end Store
end ChatEngine
