import ChatEngine.Postgres.Store

/-!
# What each stage does

One lemma for every stage that touches messages, the log or the outbox, stating
everything a successful run of it may have done.

* `LogRemoved`, the messages and the log after a batch of messages is deleted;
* `PgCommits`, a change together with its outbox row;
* `createBegin_ok`, `createCapped_ok`, `updateCapped_ok`, `deleteCapped_ok`,
  `reactInRoom_ok`, `pinInRoom_ok`, `deleteRoomCapped_ok` and
  `retentionCapped_ok`;
* `begin_ok`, the part before a transaction's first lock, for every call;
* `appendEvents_ok`, the log after the events of a transaction.
-/

namespace ChatEngine
namespace Postgres

open Lib
open Models
open Store

variable {cfg : PgConfig} {rd : PgReadings} {db db' base : PgDatabase}

/-! ## Deleting a batch -/

theorem EventRow.scrub_scrub (e : EventRow) : e.scrub.scrub = e.scrub := by
  unfold EventRow.scrub
  cases e.body <;> rfl

theorem inScrub_scrub {batch : List MessageRow} {e : EventRow} :
    inScrub batch e.scrub ↔ inScrub batch e := by
  unfold inScrub
  simp

theorem inScrub_append {batch batch' : List MessageRow} {e : EventRow} :
    inScrub (batch ++ batch') e ↔ inScrub batch e ∨ inScrub batch' e := by
  unfold inScrub
  simp only [List.mem_append, or_and_right, exists_or]

theorem mem_scrubLog {batch : List MessageRow} {events : EventTable} {e : EventRow} :
    e ∈ scrubLog batch events ↔
      (e ∈ events ∧ ¬ inScrub batch e) ∨ ∃ e₀ ∈ events, inScrub batch e₀ ∧ e₀.scrub = e :=
  Table.mem_updateWhere

/-- The messages and the log of `db'` are those of `db` after the batch was
deleted and its events scrubbed. -/
structure LogRemoved (batch : List MessageRow) (db db' : PgDatabase) : Prop where
  stored : ∀ b ∈ batch, ∃ r ∈ db.messages, r.id = b.id ∧ r.roomId = b.roomId
  origin : ∀ s ∈ db'.messages,
    ∃ r ∈ db.messages, r.id ∉ batch.map MessageRow.id ∧ Orphaned db.toDatabase db'.toDatabase r s
  keeps : ∀ r ∈ db.messages, r.id ∉ batch.map MessageRow.id →
    ∃ s ∈ db'.messages, ForgetsParent r s
  events : ∀ e, e ∈ db'.events ↔
    (e ∈ db.events ∧ ¬ inScrub batch e) ∨ ∃ e₀ ∈ db.events, inScrub batch e₀ ∧ e₀.scrub = e
  lastSequence : db'.lastSequence = db.lastSequence

/-- Nothing was deleted. -/
theorem LogRemoved.of_same (hmessages : db'.messages = db.messages)
    (hevents : db'.events = db.events) (hlast : db'.lastSequence = db.lastSequence) :
    LogRemoved [] db db' := by
  refine ⟨by simp, ?_, ?_, ?_, hlast⟩
  · intro s hs
    exact ⟨s, hmessages ▸ hs, by simp, Orphaned.refl s⟩
  · intro r hr _
    exact ⟨r, hmessages.symm ▸ hr, ForgetsParent.refl r⟩
  · intro e
    have hnone : ¬ inScrub [] e := by
      rintro ⟨m, hm, -⟩
      cases hm
    rw [hevents]
    constructor
    · intro he
      exact .inl ⟨he, hnone⟩
    · rintro (⟨he, -⟩ | ⟨e₀, -, ⟨m, hm, -⟩, -⟩)
      · exact he
      · cases hm

theorem LogRemoved.ids_kept {batch : List MessageRow} (h : LogRemoved batch db db') :
    ∀ s ∈ db'.messages, ∃ r ∈ db.messages, r.id = s.id := by
  intro s hs
  obtain ⟨r, hr, -, hsame⟩ := h.origin s hs
  exact ⟨r, hr, hsame.identity.id.symm⟩

/-- Two batches, one after the other. -/
theorem LogRemoved.trans {batch batch' : List MessageRow} {db'' : PgDatabase}
    (h : LogRemoved batch db db') (h' : LogRemoved batch' db' db'') :
    LogRemoved (batch ++ batch') db db'' := by
  refine ⟨?_, ?_, ?_, ?_, h'.lastSequence.trans h.lastSequence⟩
  · intro b hb
    rcases List.mem_append.mp hb with hfirst | hsecond
    · exact h.stored b hfirst
    · obtain ⟨r', hr', hid, hroom⟩ := h'.stored b hsecond
      obtain ⟨r, hr, -, hsame⟩ := h.origin r' hr'
      exact ⟨r, hr, hsame.identity.id.symm.trans hid, hsame.identity.roomId.symm.trans hroom⟩
  · intro s hs
    obtain ⟨r', hr', hout', hsame'⟩ := h'.origin s hs
    obtain ⟨r, hr, hout, hsame⟩ := h.origin r' hr'
    refine ⟨r, hr, ?_, hsame.trans hsame' h.ids_kept h'.ids_kept⟩
    rw [List.map_append, List.mem_append, not_or]
    exact ⟨hout, hsame.identity.id ▸ hout'⟩
  · intro r hr hout
    rw [List.map_append, List.mem_append, not_or] at hout
    obtain ⟨r', hr', hsame⟩ := h.keeps r hr hout.1
    obtain ⟨s, hs, hsame'⟩ := h'.keeps r' hr' (by rw [hsame.identity.id]; exact hout.2)
    exact ⟨s, hs, hsame.trans hsame'⟩
  · intro e
    rw [h'.events, inScrub_append]
    constructor
    · rintro (⟨he, hout'⟩ | ⟨e₁, he₁, hin', rfl⟩)
      · rcases (h.events e).mp he with ⟨hold, hout⟩ | ⟨e₀, he₀, hin, rfl⟩
        · exact .inl ⟨hold, not_or.mpr ⟨hout, hout'⟩⟩
        · exact .inr ⟨e₀, he₀, inScrub_append.mpr (.inl hin), rfl⟩
      · rcases (h.events e₁).mp he₁ with ⟨hold, -⟩ | ⟨e₀, he₀, hin, rfl⟩
        · exact .inr ⟨e₁, hold, inScrub_append.mpr (.inr hin'), rfl⟩
        · exact .inr ⟨e₀, he₀, inScrub_append.mpr (.inl hin), e₀.scrub_scrub.symm⟩
    · rintro (⟨he, hout⟩ | ⟨e₀, he₀, hin, rfl⟩)
      · obtain ⟨hfirst, hsecond⟩ := not_or.mp hout
        exact .inl ⟨(h.events e).mpr (.inl ⟨he, hfirst⟩), hsecond⟩
      · by_cases hfirst : inScrub batch e₀
        · have hmem : e₀.scrub ∈ db'.events := (h.events _).mpr (.inr ⟨e₀, he₀, hfirst, rfl⟩)
          by_cases hsecond : inScrub batch' e₀
          · exact .inr ⟨e₀.scrub, hmem, inScrub_scrub.mpr hsecond, e₀.scrub_scrub⟩
          · exact .inl ⟨hmem, fun h => hsecond (inScrub_scrub.mp h)⟩
        · have hsecond : inScrub batch' e₀ := (inScrub_append.mp hin).resolve_left hfirst
          exact .inr ⟨e₀, (h.events e₀).mpr (.inl ⟨he₀, hfirst⟩), hsecond, rfl⟩

/-- What a removal looks like when only its messages and its log matter. -/
theorem LogRemoved.congr {batch : List MessageRow} {db'' : PgDatabase}
    (h : LogRemoved batch db db') (hmessages : db''.messages = db'.messages)
    (hevents : db''.events = db'.events) (hlast : db''.lastSequence = db'.lastSequence) :
    LogRemoved batch db db'' := by
  have hsame := h.trans (LogRemoved.of_same hmessages hevents hlast)
  rw [List.append_nil] at hsame
  exact hsame

theorem trimPass_ok {select : Database → List MessageRow} {batch : List MessageRow}
    (hselect : ∀ d, ∀ m ∈ select d, m ∈ d.messages)
    (h : Tx.Returns (trimPass select) db batch db') :
    batch = select db.toDatabase ∧ LogRemoved batch db db' ∧
      db'.rooms = db.rooms ∧ db'.memberControls = db.memberControls ∧
      db'.webhooks = db.webhooks ∧ db'.leases = db.leases := by
  unfold trimPass at h
  simp only [Tx.returns_bind, returns_deletePgMessages, returns_scrubEvents, Tx.returns_pure] at h
  obtain ⟨_, _, ⟨rfl, rfl⟩, _, _, rfl, rfl, rfl⟩ := h
  refine ⟨rfl, ⟨?_, ?_, ?_, ?_, rfl⟩, rfl, rfl, rfl, rfl⟩
  · intro b hb
    exact ⟨b, hselect _ b hb, rfl, rfl⟩
  · intro s hs
    obtain ⟨r, hr, hout, rfl⟩ := Database.mem_deleteMessages.mp hs
    refine ⟨r, hr, hout, orphaned_forgetParents ?_ ?_ r⟩
    · intro k hk
      obtain ⟨b, hb, hbid⟩ := List.mem_map.mp hk
      exact ⟨b, hselect _ b hb, hbid⟩
    · intro t ht
      obtain ⟨u, -, hkeep, rfl⟩ := Database.mem_deleteMessages.mp ht
      exact hkeep
  · intro r hr hout
    exact ⟨_, Database.mem_deleteMessages.mpr ⟨r, hr, hout, rfl⟩, forgetParents_forgets _ r⟩
  · intro e
    exact mem_scrubLog

/-- What trimming did: three passes as one batch, and the outbox scrubbed of it. -/
structure Trimmed (batch : List MessageRow) (db db' : PgDatabase) : Prop where
  removed : LogRemoved batch db db'
  rooms : db'.rooms = db.rooms
  memberControls : db'.memberControls = db.memberControls
  webhooks : ∀ w ∈ db'.webhooks,
    ScrubbedFrom db.webhooks w ∧ (w.payload ≠ none → ¬ inBatch batch w)

theorem trimPgMessages_ok {roomId : String} {now auditAt : Timestamp} {auditId : UuidHex}
    {u : Unit} (h : Tx.Returns (trimPgMessages cfg roomId now auditId auditAt) db u db') :
    ∃ batch, Trimmed batch db db' := by
  unfold trimPgMessages at h
  simp only [Tx.returns_bind, Tx.returns_ite, Tx.returns_pure, returns_scrubWebhooks] at h
  obtain ⟨aged, db₁, haged, capped, db₂, hcapped, overflow, db₃, hoverflow, hrest⟩ := h
  obtain ⟨-, h₁, hrooms₁, hcontrols₁, hwebhooks₁, -⟩ :=
    trimPass_ok (fun d m hm => mem_pastAge hm) haged
  obtain ⟨-, h₂, hrooms₂, hcontrols₂, hwebhooks₂, -⟩ :=
    trimPass_ok (fun d m hm => (mem_pastRoomCap hm).1) hcapped
  obtain ⟨-, h₃, hrooms₃, hcontrols₃, hwebhooks₃, -⟩ :=
    trimPass_ok (fun d m hm => mem_pastGlobalCap hm) hoverflow
  have hremoved := (h₁.trans h₂).trans h₃
  have hrooms := (hrooms₃.trans hrooms₂).trans hrooms₁
  have hcontrols := (hcontrols₃.trans hcontrols₂).trans hcontrols₁
  have hwebhooks := (hwebhooks₃.trans hwebhooks₂).trans hwebhooks₁
  rcases hrest with ⟨⟨rfl, rfl, rfl⟩, -, rfl⟩ | ⟨-, _, _, haudit, rfl⟩
  · refine ⟨[], hremoved, hrooms, hcontrols, fun w hw => ⟨.inl (hwebhooks ▸ hw), fun _ => ?_⟩⟩
    rintro ⟨-, m, hm, -⟩
    cases hm
  · obtain ⟨tables, hsame, rfl⟩ := insertPgAudit_ok haudit
    refine ⟨aged ++ capped ++ overflow, hremoved.congr hsame.messages rfl rfl,
      hsame.rooms.trans hrooms, hsame.memberControls.trans hcontrols, fun w hw => ?_⟩
    change w ∈ Store.scrub tables.webhooks (inBatch (aged ++ capped ++ overflow)) at hw
    rw [hsame.webhooks, hwebhooks] at hw
    exact ⟨scrub_from hw, fun hpayload => (mem_scrub_payload hw hpayload).2⟩

/-! ## A change with its outbox row -/

/-- The database `db'` is `base`, apart from its audit trail and its leases, with
one more outbox row when the row's type is selected. -/
structure PgCommits (cfg : PgConfig) (base : PgDatabase) (row : WebhookRow) (db' : PgDatabase) :
    Prop where
  tables : CommitsWith cfg.store base.toDatabase row db'.toDatabase
  events : db'.events = base.events
  lastSequence : db'.lastSequence = base.lastSequence

theorem PgCommits.messages {row : WebhookRow} (h : PgCommits cfg base row db') :
    db'.messages = base.messages := h.tables.messages

theorem PgCommits.of_insert {id : UuidHex} {type : EventType} {roomId resourceId : String}
    {occurredAt : Timestamp} {data : WebhookData} {tables : Database} {u : Unit}
    (hsame : SameButAudit base.toDatabase tables)
    (h : Tx.Returns (insertPgWebhook cfg id type roomId resourceId occurredAt data)
      (base.withTables tables) u db') :
    PgCommits cfg base (webhookRow id type roomId resourceId occurredAt data) db' := by
  obtain ⟨t, hgains, rfl⟩ := insertPgWebhook_ok h
  exact ⟨CommitsWith.of_same hsame hgains, rfl, rfl⟩

/-! ## Create -/

/-- Under the room lock a create finds the message of its key, or goes on. -/
theorem createBegin_ok {args : CreateMessage} {stage : Stage}
    (h : Tx.Returns (createBegin rd args) db stage db') :
    db' = db ∧ MayWrite args.roomId args.allowFrozen args.memberSubject (rd.now 0)
        db.toDatabase ∧
      ((∃ row m, findByClientId args.roomId args.clientMessageId db.toDatabase = some row ∧
          messageFromRow row = .ok m ∧ stage = .commit (.tables (.message m false))) ∨
        (findByClientId args.roomId args.clientMessageId db.toDatabase = none ∧
          stage = .inRoom (.createMessage args))) := by
  unfold createBegin at h
  simp only [Tx.returns_bind, Tx.returns_read, returns_onTables_requireOpenRoom,
    returns_onTables_enforceMemberWrite] at h
  obtain ⟨_, _, ⟨hroom, rfl⟩, _, _, ⟨hmember, rfl⟩, existing, _, ⟨hexisting, rfl⟩, hrest⟩ := h
  cases existing with
  | some row =>
      simp only [Tx.returns_bind, returns_onTables_validated, Tx.returns_pure] at hrest
      obtain ⟨m, _, ⟨hdecode, rfl⟩, rfl, rfl⟩ := hrest
      exact ⟨rfl, ⟨hroom, hmember⟩, .inl ⟨row, m, hexisting.symm, hdecode, rfl⟩⟩
  | none =>
      obtain ⟨rfl, rfl⟩ := Tx.returns_pure.mp hrest
      exact ⟨rfl, ⟨hroom, hmember⟩, .inr ⟨hexisting.symm, rfl⟩⟩

/-- What the insert of a new message did. -/
structure PgCreated (cfg : PgConfig) (rd : PgReadings) (args : CreateMessage) (db : PgDatabase)
    (m : Message) (db' : PgDatabase) : Prop where
  effect : ∃ inserted batch trimmed row,
    (newPgRow args (rd.uuid 0) (rd.now 1)).Admissible db.toDatabase ∧
    db.messages.insert? (newPgRow args (rd.uuid 0) (rd.now 1)) = some inserted ∧
    Trimmed batch (db.withMessages inserted) trimmed ∧
    row ∈ trimmed.messages ∧ row.id = (rd.uuid 0).text ∧ messageFromRow row = .ok m ∧
    PgCommits cfg trimmed
      (webhookRow (rd.uuid 2) .messageCreated args.roomId m.id m.createdAt (.messageCreated m))
      db'

theorem createCapped_ok {args : CreateMessage} {stage : Stage}
    (h : Tx.Returns (createCapped cfg rd args) db stage db') :
    ∃ m, stage = .announce [⟨args.roomId, .messageCreated m⟩] (.tables (.message m true)) ∧
      PgCreated cfg rd args db m db' := by
  unfold createCapped at h
  simp only [Tx.returns_bind, Tx.returns_read, Tx.returns_orRaise, Tx.returns_pure,
    returns_onTables_requireParent, returns_onTables_validated, returns_insertPgMessage] at h
  obtain ⟨_, _, ⟨-, rfl⟩, _, _, ⟨-, hadm, inserted, hins, rfl⟩, built, _, ⟨hbuilt, rfl⟩, _,
    trimmed, htrim, _, _, ⟨rfl, rfl⟩, row, _, ⟨hfind, rfl⟩, m, _, ⟨hdecode, rfl⟩, _, _, hwebhook,
    rfl, rfl⟩ := h
  obtain ⟨batch, htrimmed⟩ := trimPgMessages_ok htrim
  obtain ⟨hrow, hid⟩ := Table.find?_eq_some.mp hfind
  have hrowId : row.id = (rd.uuid 0).text := by
    rw [hid, (messageFromRow_ok hbuilt).1]
    exact (rd.uuid 0).stripWhitespace_eq
  exact ⟨m, rfl, inserted, batch, _, row, hadm, hins, htrimmed, hrow, hrowId, hdecode,
    PgCommits.of_insert (SameButAudit.refl _) hwebhook⟩

/-! ## Changes of one message -/

/-- The row a stage has locked. -/
structure LockedRow (roomId messageId : String) (db : PgDatabase) (row : MessageRow) : Prop where
  stored : row ∈ db.messages
  id : row.id = messageId
  room : row.roomId = roomId

theorem updateCapped_ok {args : UpdateMessage} {stage : Stage}
    (h : Tx.Returns (updateCapped cfg rd args) db stage db') :
    ∃ row m, LockedRow args.roomId args.messageId db row ∧ row.deletedAt = none ∧
      messageFromRow (applyPgUpdate args (rd.now 1) row) = .ok m ∧
      stage = .announce [⟨args.roomId, .messageUpdated m⟩] (.tables (.message m true)) ∧
      PgCommits cfg
        (db.rewriteMessage args.messageId (applyPgUpdate args (rd.now 1))
          (applyPgUpdate_id args (rd.now 1)))
        (webhookRow (rd.uuid 1) .messageUpdated args.roomId m.id (m.editedAt.getD m.createdAt)
          (.messageUpdated args.actor m))
        db' := by
  unfold updateCapped at h
  simp only [Tx.returns_bind, Tx.returns_require, Tx.returns_pure,
    returns_onTables_requireMessage] at h
  obtain ⟨row, _, ⟨⟨hmem, hid, hroom⟩, rfl⟩, _, _, ⟨hlive, rfl⟩, _, _, ⟨-, rfl⟩, m, _, hupdate, _,
    _, haudit, _, _, hwebhook, rfl, rfl⟩ := h
  obtain ⟨hdecode, rfl⟩ := updatePgMessage_ok hmem hid hupdate
  obtain ⟨tables, hsame, rfl⟩ := insertPgAudit_ok haudit
  exact ⟨row, m, ⟨hmem, hid, hroom⟩, hlive, hdecode, rfl, PgCommits.of_insert hsame hwebhook⟩

/-- The database of a deletion before its own outbox row. -/
def PgDatabase.tombstoned (row : MessageRow) (messageId : String) (deletedAt : Timestamp)
    (db : PgDatabase) : PgDatabase :=
  let rewritten := (db.dropReactionsOf messageId).rewriteMessage messageId
    (MessageRow.tombstone deletedAt) (MessageRow.tombstone_id deletedAt)
  { rewritten with events := scrubLog [row] rewritten.events }.scrubOutbox (inBatch [row])

theorem deleteCapped_ok {args : DeleteMessage} {stage : Stage}
    (h : Tx.Returns (deleteCapped cfg rd args) db stage db') :
    ∃ row m, LockedRow args.roomId args.messageId db row ∧
      ((row.deletedAt ≠ none ∧ messageFromRow row = .ok m ∧ db' = db ∧
          stage = .commit (.tables (.message m false))) ∨
        (row.deletedAt = none ∧ messageFromRow (row.tombstone (rd.now 1)) = .ok m ∧
          stage = .announce [⟨args.roomId, .messageDeleted m⟩] (.tables (.message m true)) ∧
          PgCommits cfg (db.tombstoned row args.messageId (rd.now 1))
            (webhookRow (rd.uuid 1) .messageDeleted args.roomId m.id
              (m.deletedAt.getD m.createdAt) (.messageDeleted args.actor m))
            db')) := by
  unfold deleteCapped deletePgLive at h
  simp only [Tx.returns_bind, Tx.returns_require, Tx.returns_ite, Tx.returns_pure,
    Tx.returns_write, returns_onTables_requireMessage, returns_onTables_validated,
    returns_scrubEvents, returns_scrubWebhooks] at h
  obtain ⟨row, _, ⟨⟨hmem, hid, hroom⟩, rfl⟩, _, _, ⟨-, rfl⟩,
    ⟨hdeleted, m, _, ⟨hdecode, rfl⟩, rfl, rfl⟩ |
    ⟨hlive, _, _, rfl, m, _, hupdate, _, _, rfl, _, _, haudit, _, _, rfl, _, _, hwebhook, rfl,
      rfl⟩⟩ := h
  · exact ⟨row, m, ⟨hmem, hid, hroom⟩, .inl ⟨hdeleted, hdecode, rfl, rfl⟩⟩
  · have hmem' : row ∈ (PgDatabase.dropReactionsOf args.messageId _).messages := hmem
    obtain ⟨hdecode, rfl⟩ := updatePgMessage_ok hmem' hid hupdate
    refine ⟨row, m, ⟨hmem, hid, hroom⟩, .inr ⟨not_not.mp hlive, hdecode, rfl, ?_⟩⟩
    obtain ⟨tables, hsame, rfl⟩ := insertPgAudit_ok haudit
    obtain ⟨t, hgains, rfl⟩ := insertPgWebhook_ok hwebhook
    exact ⟨CommitsWith.of_same hsame.scrub hgains, rfl, rfl⟩

theorem refreshPgReactions_ok {messageId : String} {m : Message} {row : MessageRow}
    (hrow : row ∈ db.messages) (hid : row.id = messageId)
    (h : Tx.Returns (refreshPgReactions cfg messageId) db m db') :
    ∃ summaries, messageFromRow (row.setReactions summaries) = .ok m ∧
      db' = db.rewriteMessage messageId (MessageRow.setReactions summaries)
        (MessageRow.setReactions_id summaries) := by
  unfold refreshPgReactions at h
  simp only [Tx.returns_bind, Tx.returns_read, returns_onTables_validated] at h
  obtain ⟨_, _, ⟨rfl, rfl⟩, summaries, _, ⟨-, rfl⟩, hupdate⟩ := h
  obtain ⟨hdecode, rfl⟩ := updatePgMessage_ok hrow hid hupdate
  exact ⟨summaries, hdecode, rfl⟩

theorem reactInRoom_ok {args : SetMessageReaction} {stage : Stage}
    (h : Tx.Returns (reactInRoom cfg rd args) db stage db') :
    ∃ row mutation, LockedRow args.roomId args.messageId db row ∧ row.deletedAt = none ∧
      ((db' = db ∧ mutation.changed = false ∧ messageFromRow row = .ok mutation.message ∧
          stage = .commit (.tables (.reaction mutation))) ∨
        (mutation.changed = true ∧
          stage = .announce [⟨args.roomId, .messageReactionUpdated mutation⟩]
            (.tables (.reaction mutation)) ∧
          ∃ t summaries, messageFromRow (row.setReactions summaries) = .ok mutation.message ∧
            PgCommits cfg
              ((db.withReactions t).rewriteMessage args.messageId
                (MessageRow.setReactions summaries) (MessageRow.setReactions_id summaries))
              (webhookRow (rd.uuid 0) .messageReactionUpdated args.roomId args.messageId
                (rd.now 1) (.messageReactionUpdated mutation))
              db')) := by
  unfold reactInRoom at h
  simp only [Tx.returns_bind, Tx.returns_require, Tx.returns_ite, Tx.returns_pure,
    returns_onTables_requireMessage, returns_onTables_validated] at h
  obtain ⟨row, _, ⟨⟨hmem, hid, hroom⟩, rfl⟩, _, _, ⟨hlive, rfl⟩, changed, _, hchanged, hrest⟩ := h
  obtain ⟨tables, hchange, rfl⟩ := returns_onTables.mp hchanged
  rcases changeReaction_ok hchange with ⟨rfl, rfl, -⟩ | ⟨rfl, t, -, rfl⟩
  · rcases hrest with ⟨htrue, -⟩ | ⟨-, m, _, ⟨hdecode, rfl⟩, mutation, _, ⟨hbuild, rfl⟩, rfl, rfl⟩
    · cases htrue
    · obtain ⟨hmessage, hchanged⟩ := ReactionMutation.build_ok hbuild
      refine ⟨row, mutation, ⟨hmem, hid, hroom⟩, hlive, .inl ⟨rfl, hchanged, ?_, rfl⟩⟩
      rw [hmessage]
      exact hdecode
  · rcases hrest with ⟨-, m, _, hrefresh, mutation, _, ⟨hbuild, rfl⟩, _, _, hwebhook, rfl, rfl⟩ |
      ⟨hfalse, -⟩
    · obtain ⟨hmessage, hchanged⟩ := ReactionMutation.build_ok hbuild
      have hmem' : row ∈ (PgDatabase.withReactions _ t).messages := hmem
      obtain ⟨summaries, hdecode, rfl⟩ := refreshPgReactions_ok hmem' hid hrefresh
      refine ⟨row, mutation, ⟨hmem, hid, hroom⟩, hlive,
        .inr ⟨hchanged, rfl, t, summaries, ?_, PgCommits.of_insert (SameButAudit.refl _) hwebhook⟩⟩
      rw [hmessage]
      exact hdecode
    · exact absurd rfl hfalse

theorem pinInRoom_ok {args : SetMessagePin} {stage : Stage}
    (h : Tx.Returns (pinInRoom cfg rd args) db stage db') :
    ∃ row mutation, LockedRow args.roomId args.messageId db row ∧ row.deletedAt = none ∧
      ((db' = db ∧ mutation.changed = false ∧ messageFromRow row = .ok mutation.message ∧
          stage = .commit (.tables (.pin mutation))) ∨
        (mutation.changed = true ∧
          stage = .announce [⟨args.roomId, .messagePinUpdated mutation⟩]
            (.tables (.pin mutation)) ∧
          messageFromRow (args.apply (rd.now 1) row) = .ok mutation.message ∧
          PgCommits cfg
            (db.rewriteMessage args.messageId (args.apply (rd.now 1)) (args.apply_id (rd.now 1)))
            (webhookRow (rd.uuid 1) .messagePinUpdated args.roomId args.messageId (rd.now 1)
              (.messagePinUpdated mutation))
            db')) := by
  unfold pinInRoom at h
  simp only [Tx.returns_bind, Tx.returns_require, Tx.returns_ite, Tx.returns_pure,
    returns_onTables_requireMessage, returns_onTables_validated] at h
  obtain ⟨row, _, ⟨⟨hmem, hid, hroom⟩, rfl⟩, _, _, ⟨hlive, rfl⟩, hrest⟩ := h
  rcases hrest with ⟨-, m, _, hupdate, _, _, haudit, mutation, _, ⟨hbuild, rfl⟩, _, _, hwebhook,
    rfl, rfl⟩ | ⟨-, m, _, ⟨hdecode, rfl⟩, mutation, _, ⟨hbuild, rfl⟩, rfl, rfl⟩
  · obtain ⟨hmessage, hchanged⟩ := PinMutation.build_ok hbuild
    obtain ⟨hdecode, rfl⟩ := updatePgMessage_ok hmem hid hupdate
    obtain ⟨tables, hsame, rfl⟩ := insertPgAudit_ok haudit
    refine ⟨row, mutation, ⟨hmem, hid, hroom⟩, hlive,
      .inr ⟨hchanged, rfl, ?_, PgCommits.of_insert hsame hwebhook⟩⟩
    rw [hmessage]
    exact hdecode
  · obtain ⟨hmessage, hchanged⟩ := PinMutation.build_ok hbuild
    refine ⟨row, mutation, ⟨hmem, hid, hroom⟩, hlive, .inl ⟨rfl, hchanged, ?_, rfl⟩⟩
    rw [hmessage]
    exact hdecode

/-! ## Rooms and retention -/

theorem deleteRoomBegin_ok {roomId actor : String} {stage : Stage}
    (h : Tx.Returns (deleteRoomBegin roomId actor) db stage db') :
    db' = db ∧ stage = .inRoom (.deleteRoom roomId actor) := by
  unfold deleteRoomBegin at h
  simp only [Tx.returns_bind, Tx.returns_read, Tx.returns_orRaise, Tx.returns_require,
    Tx.returns_pure] at h
  obtain ⟨_, _, ⟨rfl, rfl⟩, _, _, ⟨-, rfl⟩, _, _, ⟨-, rfl⟩, rfl, rfl⟩ := h
  exact ⟨rfl, rfl⟩

theorem mem_messagesOf {roomId : String} {d : Database} {m : MessageRow} :
    m ∈ messagesOf roomId d ↔ m ∈ d.messages ∧ m.roomId = roomId := by
  unfold messagesOf
  rw [List.mem_filter, decide_eq_true_eq]
  rfl

/-- What a room deletion did: its messages are gone from the log, and the tables
are those of the shared room deletion over a scrubbed outbox. -/
theorem deleteRoomCapped_ok {roomId actor : String} {stage : Stage}
    (h : Tx.Returns (deleteRoomCapped cfg rd roomId actor) db stage db') :
    ∃ audited, stage = .announce [⟨roomId, .other "room.deleted"⟩]
        (.tables (.count (messagesOf roomId db.toDatabase).length)) ∧
      LogRemoved (messagesOf roomId db.toDatabase) db db' ∧
      SameButAudit db.toDatabase audited ∧
      db'.toDatabase = ({ audited with
        webhooks := Store.scrub audited.webhooks fun r => r.roomId = roomId } :
          Database).deleteRoom roomId := by
  unfold deleteRoomCapped at h
  simp only [Tx.returns_bind, Tx.returns_read, Tx.returns_write, Tx.returns_pure,
    returns_scrubEvents] at h
  obtain ⟨_, _, ⟨rfl, rfl⟩, _, _, rfl, _, _, haudit, _, _, rfl, _, _, rfl, rfl, rfl⟩ := h
  obtain ⟨audited, hsame, rfl⟩ := insertPgAudit_ok haudit
  refine ⟨audited, rfl, ⟨?_, ?_, ?_, fun e => mem_scrubLog, rfl⟩, hsame, rfl⟩
  · intro b hb
    exact ⟨b, (mem_messagesOf.mp hb).1, rfl, rfl⟩
  · intro s hs
    obtain ⟨r, hr, hkeep, rfl⟩ := Database.mem_deleteMessages.mp hs
    change r ∈ audited.messages at hr
    rw [hsame.messages] at hr
    refine ⟨r, hr, fun hin => hkeep ?_, orphaned_forgetParents ?_ ?_ r⟩
    · change r.id ∈ (audited.messages.rows.filter _).map MessageRow.id
      rw [hsame.messages]
      exact hin
    · intro k hk
      obtain ⟨b, hb, hbid⟩ := List.mem_map.mp hk
      obtain ⟨hbmem, -⟩ := List.mem_filter.mp hb
      change b ∈ audited.messages at hbmem
      rw [hsame.messages] at hbmem
      exact ⟨b, hbmem, hbid⟩
    · intro t ht
      obtain ⟨u, -, hgone, rfl⟩ := Database.mem_deleteMessages.mp ht
      exact hgone
  · intro r hr hout
    refine ⟨_, Database.mem_deleteMessages.mpr ⟨r, ?_, fun hin => hout ?_, rfl⟩,
      forgetParents_forgets _ r⟩
    · change r ∈ audited.messages
      rw [hsame.messages]
      exact hr
    · change r.id ∈ (audited.messages.rows.filter _).map MessageRow.id at hin
      rw [hsame.messages] at hin
      exact hin

theorem retentionCapped_ok {actor : String} {stage : Stage}
    (h : Tx.Returns (retentionCapped cfg rd actor) db stage db') :
    ∃ batch reply, stage = .commit reply ∧ Trimmed batch db db' := by
  unfold retentionCapped at h
  cases hcutoff : retentionCutoff cfg.store (rd.now 0) with
  | none => simp [hcutoff] at h
  | some cutoff =>
      simp only [hcutoff, Tx.returns_bind, Tx.returns_pure, returns_scrubWebhooks] at h
      obtain ⟨batch, db₁, hpass, _, _, haudit, _, _, rfl, rfl, rfl⟩ := h
      obtain ⟨-, hremoved, hrooms, hcontrols, hwebhooks, -⟩ :=
        trimPass_ok (fun d m hm => (mem_olderThan hm).1) hpass
      obtain ⟨tables, hsame, rfl⟩ := insertPgAudit_ok haudit
      refine ⟨batch, _, rfl, hremoved.congr hsame.messages rfl rfl, hsame.rooms.trans hrooms,
        hsame.memberControls.trans hcontrols, fun w hw => ?_⟩
      change w ∈ Store.scrub tables.webhooks (inBatch batch) at hw
      rw [hsame.webhooks, hwebhooks] at hw
      exact ⟨scrub_from hw, fun hpayload => (mem_scrub_payload hw hpayload).2⟩

/-! ## Up to the first lock -/

/-- What a transaction did up to its first lock, or in all when it needs no
message: it changed no message and announces none. -/
structure Began (cfg : PgConfig) (rd : PgReadings) (db : PgDatabase) (stage : Stage)
    (db' : PgDatabase) : Prop where
  tables : db'.toDatabase = db.toDatabase ∨ ∃ cmd reply, Command.LeavesMessages cmd ∧
    Tx.Returns (cmd.tx cfg.store rd.toReadings) db.toDatabase reply db'.toDatabase
  events : ∀ e ∈ db'.events, e ∈ db.events
  lastSequence : db'.lastSequence = db.lastSequence
  drafts : ∀ draft ∈ stage.drafts, draft.body.message? = none
  unchanged : stage.Early → db' = db

/-- A stage that only read. -/
theorem Began.read {stage : Stage} (hstage : stage.drafts = []) : Began cfg rd db stage db where
  tables := .inl rfl
  events := fun _ he => he
  lastSequence := rfl
  drafts := by simp [hstage]
  unchanged := fun _ => rfl

/-- A stage that ran a call of the shared store. -/
theorem Began.call {α : Type} {tx : StoreTx α} {a : α} {stage : Stage} {f : α → Reply}
    (cmd : Command) (hcmd : cmd.LeavesMessages) (htx : cmd.tx cfg.store rd.toReadings = f <$> tx)
    (hdrafts : ∀ draft ∈ stage.drafts, draft.body.message? = none) (hdone : ¬ stage.Early)
    (h : Tx.Returns (onTables tx) db a db') : Began cfg rd db stage db' := by
  obtain ⟨tables, hrun, rfl⟩ := returns_onTables.mp h
  refine ⟨.inr ⟨cmd, f a, hcmd, ?_⟩, fun _ he => he, rfl, hdrafts, fun h => absurd h hdone⟩
  rw [htx]
  exact Tx.returns_map.mpr ⟨a, hrun, rfl⟩

/-- Releasing leases changes nothing else. -/
theorem Began.released {stage : Stage} (h : Began cfg rd db stage db') (hdone : ¬ stage.Early)
    (deliveryId : String) : Began cfg rd db stage (db'.release deliveryId) :=
  ⟨h.tables, h.events, h.lastSequence, h.drafts, fun h => absurd h hdone⟩

theorem roomStateEvents_quiet {roomId : String} {archived frozen : Option Bool}
    {changes : RoomChanges} :
    ∀ draft ∈ roomStateEvents roomId archived frozen changes, draft.body.message? = none := by
  intro draft hdraft
  unfold roomStateEvents at hdraft
  rcases List.mem_append.mp hdraft with h | h <;> split at h <;> simp_all [EventBody.message?]

theorem begin_ok {cmd : PgCommand} {stage : Stage}
    (h : Tx.Returns (cmd.begin cfg rd) db stage db') : Began cfg rd db stage db' := by
  cases cmd with
  | createRoom payload actor =>
      obtain ⟨room, _, hok, hpure⟩ := Tx.returns_bind.mp h
      obtain ⟨rfl, rfl⟩ := Tx.returns_pure.mp hpure
      exact .call (.createRoom payload actor) trivial rfl (by simp [Stage.drafts]; rfl) id hok
  | setRoomState roomId archived frozen actor =>
      obtain ⟨⟨room, changes⟩, _, hok, hpure⟩ := Tx.returns_bind.mp h
      obtain ⟨rfl, rfl⟩ := Tx.returns_pure.mp hpure
      exact .call (.setRoomState roomId archived frozen actor) trivial rfl
        roomStateEvents_quiet id hok
  | deleteRoom roomId actor =>
      obtain ⟨rfl, rfl⟩ := deleteRoomBegin_ok h
      exact .read rfl
  | prepareExport roomId actor =>
      obtain ⟨_, _, hok, hpure⟩ := Tx.returns_bind.mp h
      obtain ⟨rfl, rfl⟩ := Tx.returns_pure.mp hpure
      exact .call (.recordExportRequested roomId actor) trivial rfl (by simp [Stage.drafts])
        id hok
  | createMessage args =>
      obtain ⟨rfl, -, ⟨_, _, -, -, rfl⟩ | ⟨-, rfl⟩⟩ := createBegin_ok h
      · exact .read rfl
      · exact .read rfl
  | updateMessage args =>
      simp only [PgCommand.begin, Tx.returns_bind, returns_onTables_requireOpenRoom,
        returns_onTables_enforceMemberWrite, Tx.returns_pure] at h
      obtain ⟨_, _, ⟨-, rfl⟩, _, _, ⟨-, rfl⟩, rfl, rfl⟩ := h
      exact .read rfl
  | deleteMessage args =>
      simp only [PgCommand.begin, Tx.returns_bind, returns_onTables_requireDeletableRoom,
        returns_onTables_enforceMemberWrite, Tx.returns_pure] at h
      obtain ⟨_, _, ⟨-, rfl⟩, _, _, ⟨-, rfl⟩, rfl, rfl⟩ := h
      exact .read rfl
  | setMessageReaction args =>
      simp only [PgCommand.begin, Tx.returns_bind, returns_onTables_requireOpenRoom,
        returns_onTables_enforceMemberWrite, Tx.returns_pure] at h
      obtain ⟨_, _, ⟨-, rfl⟩, _, _, ⟨-, rfl⟩, rfl, rfl⟩ := h
      exact .read rfl
  | setMessagePin args =>
      simp only [PgCommand.begin, Tx.returns_bind, returns_onTables_requireOpenRoom,
        returns_onTables_enforceMemberWrite, Tx.returns_pure] at h
      obtain ⟨_, _, ⟨-, rfl⟩, _, _, ⟨-, rfl⟩, rfl, rfl⟩ := h
      exact .read rfl
  | setMemberModeration roomId subject payload actor =>
      obtain ⟨moderation, _, hok, hpure⟩ := Tx.returns_bind.mp h
      obtain ⟨rfl, rfl⟩ := Tx.returns_pure.mp hpure
      exact .call (.setMemberModeration roomId subject payload actor) trivial rfl
        (by simp [Stage.drafts]; rfl) id hok
  | markRead roomId subject messageId =>
      obtain ⟨mutation, _, hok, hpure⟩ := Tx.returns_bind.mp h
      obtain ⟨rfl, rfl⟩ := Tx.returns_pure.mp hpure
      refine .call (.markRead roomId subject messageId) trivial rfl ?_ id hok
      intro draft hdraft
      simp only [Stage.drafts] at hdraft
      split at hdraft <;> simp_all [EventBody.message?]
  | clearReadState roomId subject =>
      obtain ⟨changed, _, hok, hpure⟩ := Tx.returns_bind.mp h
      obtain ⟨rfl, rfl⟩ := Tx.returns_pure.mp hpure
      refine .call (.clearReadState roomId subject) trivial rfl ?_ id hok
      intro draft hdraft
      simp only [Stage.drafts] at hdraft
      split at hdraft <;> simp_all [EventBody.message?]
  | nextWebhookDelivery worker skipped =>
      obtain ⟨candidate, _, hread, hrest⟩ := Tx.returns_bind.mp h
      obtain ⟨-, rfl⟩ := Tx.returns_read.mp hread
      cases candidate with
      | none =>
          obtain ⟨rfl, rfl⟩ := Tx.returns_pure.mp hrest
          exact .read rfl
      | some row =>
          simp only [Tx.returns_bind, Tx.returns_write, Tx.returns_pure] at hrest
          obtain ⟨_, _, rfl, rfl, rfl⟩ := hrest
          exact ⟨.inl rfl, fun _ he => he, rfl, by simp [Stage.drafts], fun h => absurd h id⟩
  | recordWebhookAttempt worker deliveryId attempt =>
      simp only [PgCommand.begin, recordClaimed, Tx.returns_bind, Tx.returns_require,
        Tx.returns_read, Tx.returns_write, Tx.returns_pure] at h
      obtain ⟨_, _, ⟨-, rfl⟩, _, _, ⟨-, rfl⟩, _, _, ⟨-, rfl⟩, _, _, hok, _, _, rfl, rfl, rfl⟩ := h
      exact (Began.call (.recordWebhookAttempt deliveryId
        (WebhookAttempt.atDatabase (rd.now 0) attempt)) trivial rfl (by simp [Stage.drafts])
        id hok).released id deliveryId
  | retryWebhookDelivery deliveryId =>
      simp only [PgCommand.begin, retryClaimed, Tx.returns_bind, Tx.returns_write,
        Tx.returns_pure] at h
      obtain ⟨_, _, hok, _, _, rfl, rfl, rfl⟩ := h
      exact (Began.call (.retryWebhookDelivery deliveryId) trivial rfl
        (by simp [Stage.drafts]) id hok).released id deliveryId
  | runRetention actor =>
      obtain ⟨rfl, rfl⟩ := Tx.returns_pure.mp h
      exact .read rfl
  | pruneEvents sequences =>
      simp only [PgCommand.begin, Tx.returns_bind, Tx.returns_write, Tx.returns_pure] at h
      obtain ⟨_, _, rfl, rfl, rfl⟩ := h
      exact ⟨.inl rfl, fun e he => (Table.mem_deleteWhere.mp he).1, rfl, by simp [Stage.drafts],
        fun h => absurd h id⟩
  | notify roomId eventType =>
      obtain ⟨rfl, rfl⟩ := Tx.returns_pure.mp h
      exact ⟨.inl rfl, fun _ he => he, rfl, by simp [Stage.drafts, EventBody.message?],
        fun _ => rfl⟩

/-! ## The log -/

/-- The log after the events of a transaction: the tables are untouched, and the
new events follow every earlier one in their order. -/
theorem appendEvents_ok {i : Nat} {drafts : List EventDraft} {u : Unit}
    (h : Tx.Returns (appendEvents cfg rd i drafts) db u db') :
    db'.toDatabase = db.toDatabase ∧ db'.leases = db.leases ∧
      db.lastSequence ≤ db'.lastSequence ∧
      ∃ new : List EventRow, db'.events.rows = db.events.rows ++ new ∧
        new.map (fun e => (⟨e.roomId, e.body⟩ : EventDraft)) = drafts ∧
        (∀ e ∈ new, db.lastSequence < e.sequence ∧ e.sequence ≤ db'.lastSequence) ∧
        new.Pairwise fun a b => a.sequence < b.sequence := by
  induction drafts generalizing i db with
  | nil =>
      obtain ⟨-, rfl⟩ := Tx.returns_pure.mp h
      exact ⟨rfl, rfl, le_rfl, [], by simp, rfl, by simp, List.Pairwise.nil⟩
  | cons draft rest ih =>
      unfold appendEvents at h
      rw [Tx.returns_bind] at h
      obtain ⟨_, db₁, hfirst, hrest⟩ := h
      obtain ⟨hlast, inserted, hins, rfl⟩ := appendEvent_ok hfirst
      obtain ⟨htables, hleases, hle, new, hrows, hdrafts, hseq, hsorted⟩ := ih hrest
      obtain ⟨-, hinserted⟩ := Table.insert?_eq_some.mp hins
      refine ⟨htables, hleases, hlast.le.trans hle,
        { sequence := rd.sequence i, roomId := draft.roomId, body := draft.body,
          createdAt := rd.now 3 } :: new, ?_, ?_, ?_, ?_⟩
      · rw [hrows]
        change inserted.rows ++ new = _
        rw [hinserted, List.append_assoc]
        rfl
      · rw [List.map_cons, hdrafts]
      · intro e he
        rcases List.mem_cons.mp he with rfl | he
        · exact ⟨hlast, hle⟩
        · exact ⟨hlast.trans (hseq e he).1, (hseq e he).2⟩
      · exact List.pairwise_cons.mpr ⟨fun e he => (hseq e he).1, hsorted⟩

end Postgres
end ChatEngine
