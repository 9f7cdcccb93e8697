import ChatEngine.Postgres.Effects

/-!
# Privacy of the event log and of the outbox

The event log keeps copies of messages until it is pruned.  This module shows
that the copies of a message lose everything its author, a reactor or a pinner
put into them as soon as the message is gone or is a tombstone:

* `EventBody.Private`, a payload without user content;
* `Covered`, a payload that is private or whose message is live;
* `PgPrivate`, the invariant, and `PgPrivate.stage`, which every stage keeps;
* `log_and_outbox_private`, the invariant of every reachable database, read for
  one event and for one outbox row.
-/

namespace ChatEngine
namespace Postgres

open Lib
open Models
open Store

/-- A payload that carries nothing a user wrote: its message is content-free,
and a reactor or a pinner is replaced by the marker. -/
def EventBody.Private : EventBody → Prop
  | messageCreated m | messageUpdated m | messageDeleted m => m.ContentFree
  | messageReactionUpdated mutation =>
      mutation.message.ContentFree ∧ mutation.reactor = deletedActor
  | messagePinUpdated mutation => mutation.message.ContentFree ∧ mutation.pinner = deletedActor
  | other _ => True

theorem EventBody.private_scrubbed (body : EventBody) : body.scrubbed.Private := by
  cases body with
  | messageCreated m => exact scrubMessage_contentFree m
  | messageUpdated m => exact scrubMessage_contentFree m
  | messageDeleted m => exact scrubMessage_contentFree m
  | messageReactionUpdated mutation => exact ⟨scrubMessage_contentFree mutation.message, rfl⟩
  | messagePinUpdated mutation => exact ⟨scrubMessage_contentFree mutation.message, rfl⟩
  | other eventType => trivial

/-- A live message of the room. -/
def LiveIn (db : Database) (roomId messageId : String) : Prop :=
  ∃ r ∈ db.messages, r.id = messageId ∧ r.roomId = roomId ∧ r.deletedAt = none

/-- A payload of the room's log that may stay as it is. -/
def Covered (db : Database) (roomId : String) (body : EventBody) : Prop :=
  ∀ m ∈ body.message?, body.Private ∨ LiveIn db roomId m.id

/-- The invariant: every event is covered and every outbox payload is private. -/
structure PgPrivate (db : PgDatabase) : Prop where
  ids : IdsStripped db.toDatabase
  rooms : ∀ m ∈ db.messages, HasRoom db.toDatabase m.roomId
  log : ∀ e ∈ db.events, Covered db.toDatabase e.roomId e.body
  outbox : OutboxPrivate db.toDatabase

/-- The events a transaction still has to append are covered. -/
def DraftsCovered (db : PgDatabase) (stage : Stage) : Prop :=
  ∀ draft ∈ stage.drafts, Covered db.toDatabase draft.roomId draft.body

variable {cfg : PgConfig} {rd : PgReadings} {db db' base : PgDatabase}

/-! ## Frames -/

theorem Covered.of_live {d d' : Database} {roomId : String} {body : EventBody}
    (h : Covered d roomId body)
    (hlive : ∀ m ∈ body.message?, LiveIn d roomId m.id → LiveIn d' roomId m.id) :
    Covered d' roomId body := by
  intro m hm
  rcases h m hm with hprivate | hmessage
  · exact .inl hprivate
  · exact .inr (hlive m hm hmessage)

theorem Covered.of_none {d : Database} {roomId : String} {body : EventBody}
    (h : body.message? = none) : Covered d roomId body := by
  intro m hm
  rw [h] at hm
  cases hm

theorem LiveIn.of_messages {d d' : Database} {roomId messageId : String}
    (h : LiveIn d roomId messageId) (hmessages : d'.messages = d.messages) :
    LiveIn d' roomId messageId := by
  unfold LiveIn
  rw [hmessages]
  exact h

/-- Messages and log unchanged, rooms kept. -/
theorem PgPrivate.of_messages (h : PgPrivate db) (hmessages : db'.messages = db.messages)
    (hevents : ∀ e ∈ db'.events, e ∈ db.events)
    (hrooms : ∀ k, HasRoom db.toDatabase k → HasRoom db'.toDatabase k)
    (houtbox : OutboxPrivate db'.toDatabase) : PgPrivate db' where
  ids := fun m hm => h.ids m (hmessages ▸ hm)
  rooms := fun m hm => hrooms _ (h.rooms m (hmessages ▸ hm))
  log := fun e he => (h.log e (hevents e he)).of_live fun _ _ hlive => hlive.of_messages hmessages
  outbox := houtbox

/-! ## Deleting a batch -/

/-- A live message that no scrub of the batch is about survives the batch. -/
theorem LogRemoved.live {batch : List MessageRow} {roomId messageId : String}
    (h : LogRemoved batch db db') (hlive : LiveIn db.toDatabase roomId messageId)
    (hout : ∀ b ∈ batch, ¬ (roomId = b.roomId ∧ messageId = b.id)) :
    LiveIn db'.toDatabase roomId messageId := by
  obtain ⟨r, hr, hid, hroom, hdeleted⟩ := hlive
  have hkeep : r.id ∉ batch.map MessageRow.id := by
    intro hmem
    obtain ⟨b, hb, hbid⟩ := List.mem_map.mp hmem
    obtain ⟨r', hr', hid', hroom'⟩ := h.stored b hb
    have hrr : r' = r := Table.eq_of_key hr' hr (hid'.trans hbid)
    exact hout b hb ⟨by rw [← hroom, ← hrr, hroom'], by rw [← hid, hbid]⟩
  obtain ⟨s, hs, hsame⟩ := h.keeps r hr hkeep
  refine ⟨s, hs, hsame.identity.id.trans hid, hsame.identity.roomId.trans hroom, ?_⟩
  rw [hsame.same]
  exact hdeleted

/-- The log after a batch: a scrubbed event is private, and the message of any
other live one survives. -/
theorem LogRemoved.log {batch : List MessageRow} (h : LogRemoved batch db db')
    (hlog : ∀ e ∈ db.events, Covered db.toDatabase e.roomId e.body) :
    ∀ e ∈ db'.events, Covered db'.toDatabase e.roomId e.body := by
  intro e he
  rcases (h.events e).mp he with ⟨hold, hout⟩ | ⟨e₀, -, -, rfl⟩
  · refine (hlog e hold).of_live fun m hm hlive => h.live hlive ?_
    rintro b hb ⟨hroom, hid⟩
    exact hout ⟨b, hb, hroom, m, hm, hid⟩
  · exact fun m _ => .inl e₀.body.private_scrubbed

theorem LogRemoved.ids {batch : List MessageRow} (h : LogRemoved batch db db')
    (hids : IdsStripped db.toDatabase) : IdsStripped db'.toDatabase := by
  intro s hs
  obtain ⟨r, hr, -, hsame⟩ := h.origin s hs
  rw [hsame.identity.id]
  exact hids r hr

/-- An outbox row that was scrubbed from one of `t` and still has its payload is
a row of `t`. -/
theorem ScrubbedFrom.mem {t : WebhookTable} {w : WebhookRow} (h : ScrubbedFrom t w)
    (hpayload : w.payload ≠ none) : w ∈ t := by
  rcases h with hold | ⟨v, -, -, rfl⟩
  · exact hold
  · exact absurd rfl hpayload

/-- Trimming keeps the invariant. -/
theorem PgPrivate.trimmed {batch : List MessageRow} (h : PgPrivate db)
    (htrim : Trimmed batch db db') : PgPrivate db' where
  ids := htrim.removed.ids h.ids
  rooms := by
    intro s hs
    obtain ⟨r, hr, -, hsame⟩ := htrim.removed.origin s hs
    rw [hsame.identity.roomId]
    exact (h.rooms r hr).of_eq htrim.rooms
  log := htrim.removed.log h.log
  outbox := by
    intro w hw p hp
    have hpayload : w.payload ≠ none := by simp [hp]
    obtain ⟨hfrom, hout⟩ := htrim.webhooks w hw
    refine (h.outbox w (ScrubbedFrom.mem hfrom hpayload) p hp).frame
      (fun hroom => hroom.of_eq htrim.rooms) fun m hm hid hroom htype => ?_
    have hkeep : m.id ∉ batch.map MessageRow.id := by
      intro hmem
      obtain ⟨b, hb, hbid⟩ := List.mem_map.mp hmem
      obtain ⟨r, hr, hrid, hrroom⟩ := htrim.removed.stored b hb
      have hrm : r = m := Table.eq_of_key hr hm (hrid.trans hbid)
      exact hout hpayload
        ⟨htype, b, hb, by rw [hbid, hid], by rw [← hrroom, hrm, hroom]⟩
    obtain ⟨s, hs, hsame⟩ := htrim.removed.keeps m hm hkeep
    refine ⟨s, hs, hsame.identity.id, hsame.identity.roomId, fun hdeleted => ?_⟩
    rw [hsame.same] at hdeleted
    exact hdeleted

/-! ## Committed changes -/

theorem mem_rewriteMessage {messageId : String} {f : MessageRow → MessageRow}
    {hid : ∀ r, (f r).id = r.id} {s : MessageRow} :
    s ∈ (db.rewriteMessage messageId f hid).messages ↔
      (s ∈ db.messages ∧ s.id ≠ messageId) ∨ ∃ r ∈ db.messages, r.id = messageId ∧ f r = s :=
  mem_setMessage

/-- Rewriting a row without deleting it keeps its message live. -/
theorem LiveIn.rewritten {messageId roomId id : String} {f : MessageRow → MessageRow}
    {hid : ∀ r, (f r).id = r.id} (hroom : ∀ r, (f r).roomId = r.roomId)
    (hdeleted : ∀ r, (f r).deletedAt = r.deletedAt) (h : LiveIn db.toDatabase roomId id) :
    LiveIn (db.rewriteMessage messageId f hid).toDatabase roomId id := by
  obtain ⟨r, hr, hrid, hrroom, hlive⟩ := h
  by_cases heq : r.id = messageId
  · exact ⟨f r, mem_rewriteMessage.mpr (.inr ⟨r, hr, heq, rfl⟩), (hid r).trans hrid,
      (hroom r).trans hrroom, (hdeleted r).trans hlive⟩
  · exact ⟨r, mem_rewriteMessage.mpr (.inl ⟨hr, heq⟩), hrid, hrroom, hlive⟩

/-- Rewriting a row without deleting or moving it keeps the invariant. -/
theorem PgPrivate.rewritten {messageId : String} {f : MessageRow → MessageRow}
    {hid : ∀ r, (f r).id = r.id} (hroom : ∀ r, (f r).roomId = r.roomId)
    (hdeleted : ∀ r, (f r).deletedAt = r.deletedAt) (h : PgPrivate db) :
    PgPrivate (db.rewriteMessage messageId f hid) where
  ids := by
    intro s hs
    rcases mem_rewriteMessage.mp hs with ⟨hold, -⟩ | ⟨r, hr, -, rfl⟩
    · exact h.ids s hold
    · rw [hid]
      exact h.ids r hr
  rooms := by
    intro s hs
    rcases mem_rewriteMessage.mp hs with ⟨hold, -⟩ | ⟨r, hr, -, rfl⟩
    · exact h.rooms s hold
    · rw [hroom]
      exact h.rooms r hr
  log := fun e he => (h.log e he).of_live fun _ _ hlive => hlive.rewritten hroom hdeleted
  outbox := setMessage_private hroom hdeleted h.outbox

/-- A change of a locked live row, with its event in the outbox: the invariant
stays, and the row's message is live in the room of its draft. -/
theorem PgCommits.changed {messageId roomId : String} {f : MessageRow → MessageRow}
    {hid : ∀ r, (f r).id = r.id} {row : MessageRow} {id : UuidHex} {type : EventType}
    {occurredAt : Timestamp} {data : WebhookData}
    (hcommits : PgCommits cfg (db.rewriteMessage messageId f hid)
      (webhookRow id type roomId messageId occurredAt data) db')
    (h : PgPrivate db) (hlocked : LockedRow roomId messageId db row) (hlive : row.deletedAt = none)
    (hroom : ∀ r, (f r).roomId = r.roomId) (hdeleted : ∀ r, (f r).deletedAt = r.deletedAt)
    (hembedded : ∀ m, data.message? = some m → type.isMessage = true ∧ m.id = messageId)
    (htype : type ≠ .messageDeleted) :
    PgPrivate db' ∧ LiveIn db'.toDatabase roomId messageId := by
  have hhasRoom : HasRoom db.toDatabase roomId := hlocked.room ▸ h.rooms row hlocked.stored
  refine ⟨?_, ?_⟩
  · refine (h.rewritten hroom hdeleted).of_messages hcommits.messages
      (fun e he => hcommits.events ▸ he) (fun k hk => hk.of_eq hcommits.tables.rooms) ?_
    exact hcommits.tables.rewritten_private h.outbox hhasRoom hlocked.stored hlocked.id
      hlocked.room hlive hroom hdeleted hembedded htype
  · have hbefore : LiveIn db.toDatabase roomId messageId :=
      ⟨row, hlocked.stored, hlocked.id, hlocked.room, hlive⟩
    exact (hbefore.rewritten hroom hdeleted).of_messages hcommits.messages

/-! ## Create -/

/-- A create keeps the invariant, and its message is live in its room. -/
theorem PgCreated.keepsPrivate {args : CreateMessage} {m : Message}
    (h : PgCreated cfg rd args db m db') (hdb : PgPrivate db) :
    PgPrivate db' ∧ LiveIn db'.toDatabase args.roomId m.id := by
  obtain ⟨inserted, batch, trimmed, row, hadm, hins, htrim, hrow, hrowId, hdecode, hcommits⟩ :=
    h.effect
  have hroom : HasRoom db.toDatabase args.roomId := hasRoom_iff.mpr hadm.1
  have hinserted : PgPrivate (db.withMessages inserted) := by
    constructor
    · intro r hr
      rcases (Table.mem_of_insert? hins).mp hr with hold | rfl
      · exact hdb.ids r hold
      · exact (rd.uuid 0).stripWhitespace_eq
    · intro r hr
      rcases (Table.mem_of_insert? hins).mp hr with hold | rfl
      · exact hdb.rooms r hold
      · exact hroom
    · refine fun e he => (hdb.log e he).of_live fun m hm hlive => ?_
      obtain ⟨r, hr, hlive⟩ := hlive
      exact ⟨r, (Table.mem_of_insert? hins).mpr (.inl hr), hlive⟩
    · intro w hw p hp
      refine (hdb.outbox w hw p hp).frame (fun hroom => hroom) fun m hm _ _ _ => ?_
      exact ⟨m, (Table.mem_of_insert? hins).mpr (.inl hm), rfl, rfl, id⟩
  have htrimmed : PgPrivate trimmed := hinserted.trimmed htrim
  -- the row that was read back is the inserted one
  obtain ⟨r, hr, -, hsame⟩ := htrim.removed.origin row hrow
  have hnew : newPgRow args (rd.uuid 0) (rd.now 1) ∈ inserted :=
    (Table.mem_of_insert? hins).mpr (.inr rfl)
  have hrnew : r = newPgRow args (rd.uuid 0) (rd.now 1) :=
    Table.eq_of_key hr hnew (hsame.identity.id.symm.trans hrowId)
  rw [hrnew] at hsame
  have hrowRoom : row.roomId = args.roomId := hsame.identity.roomId
  have hlive : row.deletedAt = none := by rw [hsame.forgets.same]; rfl
  have hm : m.id = row.id := htrimmed.ids.decoded_id hrow hdecode rfl
  refine ⟨htrimmed.of_messages hcommits.messages (fun e he => hcommits.events ▸ he)
      (fun k hk => hk.of_eq hcommits.tables.rooms) ?_, ?_⟩
  · refine hcommits.tables.outboxPrivate htrimmed.outbox
      (webhookRow_private ?_ hrow hm.symm hrowRoom ?_ ?_ ?_)
    · rw [← hrowRoom]
      exact htrimmed.rooms row hrow
    · intro hdeleted
      exact absurd hlive hdeleted
    · intro m' hm'
      cases hm'
      exact ⟨rfl, rfl⟩
    · intro htype
      cases htype
  · exact ⟨row, hcommits.messages ▸ hrow, hm.symm, hrowRoom, hlive⟩

/-! ## Delete -/

theorem mem_tombstoned {row s : MessageRow} {messageId : String} {deletedAt : Timestamp} :
    s ∈ (db.tombstoned row messageId deletedAt).messages ↔
      (s ∈ db.messages ∧ s.id ≠ messageId) ∨
        ∃ r ∈ db.messages, r.id = messageId ∧ r.tombstone deletedAt = s := by
  change s ∈ ((db.dropReactionsOf messageId).rewriteMessage messageId
    (MessageRow.tombstone deletedAt) (MessageRow.tombstone_id deletedAt)).messages ↔ _
  exact mem_rewriteMessage

/-- Turning a message into a tombstone keeps the invariant. -/
theorem PgPrivate.tombstoned {roomId messageId : String} {row : MessageRow}
    {deletedAt : Timestamp} (h : PgPrivate db) (hlocked : LockedRow roomId messageId db row) :
    PgPrivate (db.tombstoned row messageId deletedAt) := by
  obtain ⟨hrow, hrowId, hrowRoom⟩ := hlocked
  constructor
  · intro s hs
    rcases mem_tombstoned.mp hs with ⟨hold, -⟩ | ⟨r, hr, -, rfl⟩
    · exact h.ids s hold
    · exact h.ids r hr
  · intro s hs
    rcases mem_tombstoned.mp hs with ⟨hold, -⟩ | ⟨r, hr, -, rfl⟩
    · exact h.rooms s hold
    · exact h.rooms r hr
  · intro e he
    change e ∈ scrubLog [row] db.events at he
    rcases mem_scrubLog.mp he with ⟨hold, hout⟩ | ⟨e₀, -, -, rfl⟩
    · refine (h.log e hold).of_live fun m hm hlive => ?_
      obtain ⟨r, hr, hrid, hrroom, hlive⟩ := hlive
      refine ⟨r, mem_tombstoned.mpr (.inl ⟨hr, fun heq => hout ?_⟩), hrid, hrroom, hlive⟩
      have hrrow : r = row := Table.eq_of_key hr hrow (heq.trans hrowId.symm)
      exact ⟨row, by simp, by rw [← hrroom, hrrow], m, hm, by rw [← hrid, hrrow]⟩
    · exact fun m _ => .inl e₀.body.private_scrubbed
  · intro w hw p hp
    change w ∈ Store.scrub db.webhooks (inBatch [row]) at hw
    have hpayload : w.payload ≠ none := by simp [hp]
    obtain ⟨hold, hout⟩ := mem_scrub_payload hw hpayload
    refine (h.outbox w hold p hp).frame (fun hroom => hroom) fun m hm hid hroom htype => ?_
    refine ⟨m, mem_tombstoned.mpr (.inl ⟨hm, fun heq => hout ?_⟩), rfl, rfl, fun h => h⟩
    have hmrow : m = row := Table.eq_of_key hm hrow (heq.trans hrowId.symm)
    exact ⟨htype, row, by simp, by rw [← hid, hmrow], by rw [← hroom, hmrow]⟩

/-! ## Every stage -/

/-- A draft about a live message of its room is covered. -/
theorem DraftsCovered.single {roomId : String} {body : EventBody} {m : Message} {reply : PgReply}
    (hbody : body.message? = some m) (hlive : LiveIn db.toDatabase roomId m.id) :
    DraftsCovered db (.announce [⟨roomId, body⟩] reply) := by
  intro draft hdraft
  rw [List.mem_singleton.mp hdraft]
  intro m' hm'
  cases hbody.symm.trans hm'
  exact .inr hlive

theorem DraftsCovered.none {stage : Stage} (h : stage.drafts = []) : DraftsCovered db stage := by
  intro draft hdraft
  rw [h] at hdraft
  cases hdraft

theorem Began.keepsPrivate {stage : Stage} (h : Began cfg rd db stage db') (hdb : PgPrivate db) :
    PgPrivate db' ∧ DraftsCovered db' stage := by
  refine ⟨?_, fun draft hdraft => Covered.of_none (h.drafts draft hdraft)⟩
  rcases h.tables with hsame | ⟨cmd, reply, hleaves, hrun⟩
  · refine hdb.of_messages (by rw [hsame]) h.events (fun k hk => ?_) ?_
    · rw [hsame]
      exact hk
    · rw [hsame]
      exact hdb.outbox
  · refine hdb.of_messages (messages_left hrun hleaves) h.events (fun k hk => ?_)
      (hdb.outbox.call hdb.ids hrun)
    rcases room_kept hrun hk with hkept | ⟨actor, rfl⟩
    · exact hkept
    · exact absurd hleaves id

theorem reactInRoom_private {args : SetMessageReaction} {stage : Stage} (hdb : PgPrivate db)
    (h : Tx.Returns (reactInRoom cfg rd args) db stage db') :
    PgPrivate db' ∧ DraftsCovered db' stage := by
  obtain ⟨row, mutation, hlocked, hlive, ⟨rfl, -, -, rfl⟩ |
    ⟨-, rfl, t, summaries, hdecode, hcommits⟩⟩ := reactInRoom_ok h
  · exact ⟨hdb, .none rfl⟩
  · have hm : mutation.message.id = args.messageId :=
      (hdb.ids.decoded_id hlocked.stored hdecode rfl).trans hlocked.id
    have hreactions : PgPrivate (db.withReactions t) :=
      hdb.of_messages rfl (fun _ he => he) (fun _ hk => hk)
        (hdb.outbox.of_unchanged rfl rfl fun _ hk => hk)
    have hlocked' : LockedRow args.roomId args.messageId (db.withReactions t) row :=
      ⟨hlocked.stored, hlocked.id, hlocked.room⟩
    have hchanged : PgPrivate db' ∧ LiveIn db'.toDatabase args.roomId args.messageId := by
      refine hcommits.changed hreactions hlocked' hlive (fun _ => rfl) (fun _ => rfl) ?_ ?_
      · intro m hm'
        cases hm'
        exact ⟨rfl, hm⟩
      · decide
    exact ⟨hchanged.1, .single rfl (hm ▸ hchanged.2)⟩

theorem pinInRoom_private {args : SetMessagePin} {stage : Stage} (hdb : PgPrivate db)
    (h : Tx.Returns (pinInRoom cfg rd args) db stage db') :
    PgPrivate db' ∧ DraftsCovered db' stage := by
  obtain ⟨row, mutation, hlocked, hlive, ⟨rfl, -, -, rfl⟩ | ⟨-, rfl, hdecode, hcommits⟩⟩ :=
    pinInRoom_ok h
  · exact ⟨hdb, .none rfl⟩
  · have hm : mutation.message.id = args.messageId :=
      (hdb.ids.decoded_id hlocked.stored hdecode rfl).trans hlocked.id
    have hchanged : PgPrivate db' ∧ LiveIn db'.toDatabase args.roomId args.messageId := by
      refine hcommits.changed hdb hlocked hlive (fun _ => rfl) (fun _ => rfl) ?_ ?_
      · intro m hm'
        cases hm'
        exact ⟨rfl, hm⟩
      · decide
    exact ⟨hchanged.1, .single rfl (hm ▸ hchanged.2)⟩

theorem updateCapped_private {args : UpdateMessage} {stage : Stage} (hdb : PgPrivate db)
    (h : Tx.Returns (updateCapped cfg rd args) db stage db') :
    PgPrivate db' ∧ DraftsCovered db' stage := by
  obtain ⟨row, m, hlocked, hlive, hdecode, rfl, hcommits⟩ := updateCapped_ok h
  have hm : m.id = args.messageId :=
    (hdb.ids.decoded_id hlocked.stored hdecode rfl).trans hlocked.id
  rw [hm] at hcommits
  have hchanged : PgPrivate db' ∧ LiveIn db'.toDatabase args.roomId args.messageId := by
    refine hcommits.changed hdb hlocked hlive (fun _ => rfl) (fun _ => rfl) ?_ ?_
    · intro m' hm'
      cases hm'
      exact ⟨rfl, hm⟩
    · decide
  exact ⟨hchanged.1, .single rfl (hm ▸ hchanged.2)⟩

theorem deleteCapped_private {args : DeleteMessage} {stage : Stage} (hdb : PgPrivate db)
    (h : Tx.Returns (deleteCapped cfg rd args) db stage db') :
    PgPrivate db' ∧ DraftsCovered db' stage := by
  obtain ⟨row, m, hlocked, ⟨-, -, rfl, rfl⟩ | ⟨-, hdecode, rfl, hcommits⟩⟩ := deleteCapped_ok h
  · exact ⟨hdb, .none rfl⟩
  · have hm : m.id = args.messageId :=
      (hdb.ids.decoded_id hlocked.stored hdecode rfl).trans hlocked.id
    have hfree : m.ContentFree := tombstone_contentFree hdecode
    have hbase : PgPrivate (db.tombstoned row args.messageId (rd.now 1)) := hdb.tombstoned hlocked
    refine ⟨hbase.of_messages hcommits.messages (fun e he => hcommits.events ▸ he)
      (fun k hk => hk.of_eq hcommits.tables.rooms) ?_, ?_⟩
    · have hroom : HasRoom db.toDatabase args.roomId :=
        hlocked.room ▸ hdb.rooms row hlocked.stored
      have hrow : row.tombstone (rd.now 1) ∈
          (db.tombstoned row args.messageId (rd.now 1)).messages :=
        mem_tombstoned.mpr (.inr ⟨row, hlocked.stored, hlocked.id, rfl⟩)
      refine hcommits.tables.outboxPrivate hbase.outbox (webhookRow_private hroom hrow ?_
        hlocked.room (fun _ => rfl) ?_ ?_)
      · exact hlocked.id.trans hm.symm
      · intro m' hm'
        cases hm'
        exact ⟨rfl, rfl⟩
      · exact fun _ => ⟨args.actor, m, rfl, hfree⟩
    · intro draft hdraft
      rw [List.mem_singleton.mp hdraft]
      intro m' hm'
      cases hm'
      exact .inl hfree

theorem deleteRoomCapped_private {roomId actor : String} {stage : Stage} (hdb : PgPrivate db)
    (h : Tx.Returns (deleteRoomCapped cfg rd roomId actor) db stage db') :
    PgPrivate db' ∧ DraftsCovered db' stage := by
  obtain ⟨audited, rfl, hremoved, hsame, htables⟩ := deleteRoomCapped_ok h
  have hrooms : ∀ k, HasRoom db.toDatabase k → HasRoom audited k := fun k hk =>
    hk.of_eq hsame.rooms
  refine ⟨⟨hremoved.ids hdb.ids, ?_, hremoved.log hdb.log, ?_⟩, ?_⟩
  · intro s hs
    have hs' := hs
    rw [htables] at hs'
    obtain ⟨r, hr, hne, hrs⟩ := mem_deleteRoom hs'
    change r ∈ audited.messages at hr
    rw [hsame.messages] at hr
    obtain ⟨room, hroom, hkey⟩ := hrooms _ (hdb.rooms r hr)
    rw [htables]
    refine ⟨room, Table.mem_deleteWhere.mpr ⟨hroom, ?_⟩, ?_⟩
    · rw [hkey]
      exact hne
    · rw [hkey, hrs.identity.roomId]
  · rw [htables]
    exact deleteRoom_private (hdb.outbox.of_unchanged hsame.webhooks hsame.messages hrooms)
  · intro draft hdraft
    rw [List.mem_singleton.mp hdraft]
    exact Covered.of_none rfl

theorem appendEvents_private {events : List EventDraft} {reply : PgReply} {u : Unit}
    (hdb : PgPrivate db) (hdrafts : DraftsCovered db (.announce events reply))
    (h : Tx.Returns (appendEvents cfg rd 0 events) db u db') : PgPrivate db' := by
  obtain ⟨htables, -, -, new, hrows, hnew, -⟩ := appendEvents_ok h
  constructor
  · rw [htables]
    exact hdb.ids
  · rw [htables]
    exact hdb.rooms
  · intro e he
    rw [htables]
    change e ∈ db'.events.rows at he
    rw [hrows] at he
    rcases List.mem_append.mp he with hold | hgained
    · exact hdb.log e hold
    · have hdraft : (⟨e.roomId, e.body⟩ : EventDraft) ∈ events :=
        hnew ▸ List.mem_map.mpr ⟨e, hgained, rfl⟩
      exact hdrafts _ hdraft
  · rw [htables]
    exact hdb.outbox

/-- Every stage keeps the invariant and covers the events it leaves to append. -/
theorem PgPrivate.stage {stage stage' : Stage} (hdb : PgPrivate db)
    (hdrafts : DraftsCovered db stage) (h : Tx.Returns (stage.body cfg rd) db stage' db') :
    PgPrivate db' ∧ DraftsCovered db' stage' := by
  cases stage with
  | begin cmd => exact (begin_ok h).keepsPrivate hdb
  | inRoom cmd =>
      cases cmd with
      | setMessageReaction args => exact reactInRoom_private hdb h
      | setMessagePin args => exact pinInRoom_private hdb h
      | _ =>
          obtain ⟨rfl, rfl⟩ := Tx.returns_pure.mp h
          exact ⟨hdb, .none rfl⟩
  | capped cmd =>
      cases cmd with
      | createMessage args =>
          obtain ⟨m, rfl, hcreated⟩ := createCapped_ok h
          obtain ⟨hprivate, hlive⟩ := hcreated.keepsPrivate hdb
          exact ⟨hprivate, .single rfl hlive⟩
      | updateMessage args => exact updateCapped_private hdb h
      | deleteMessage args => exact deleteCapped_private hdb h
      | deleteRoom roomId actor => exact deleteRoomCapped_private hdb h
      | runRetention actor =>
          obtain ⟨batch, reply, rfl, htrim⟩ := retentionCapped_ok h
          exact ⟨hdb.trimmed htrim, .none rfl⟩
      | _ => exact absurd h Tx.returns_raise
  | announce events reply =>
      obtain ⟨_, _, happend, hpure⟩ := Tx.returns_bind.mp h
      obtain ⟨rfl, rfl⟩ := Tx.returns_pure.mp hpure
      exact ⟨appendEvents_private hdb hdrafts happend, .none rfl⟩
  | commit reply =>
      obtain ⟨rfl, rfl⟩ := Tx.returns_pure.mp h
      exact ⟨hdb, .none rfl⟩

/-- Every reachable database satisfies the invariant. -/
theorem PgReachable.keptPrivate (h : PgReachable cfg db) : PgPrivate db := by
  have hempty : PgPrivate {} := by
    constructor <;> intro x hx <;> exact absurd hx Table.not_mem_empty
  have hinv := h.invariant (fun stage db => PgPrivate db ∧ DraftsCovered db stage)
    (fun cmd => ⟨hempty, .none rfl⟩) (fun rd stage db stage' db' hdb hok => hdb.1.stage hdb.2 hok)
    (fun reply cmd db hdb => ⟨hdb.1, .none rfl⟩) (.pruneEvents [])
  exact hinv.1

/-- In every committed state, an event of the log about a message that is gone or
is a tombstone carries no user content, and an outbox row of a message event that
still has its payload refers to an existing message, to a tombstone only as its
`message.deleted` row. -/
theorem log_and_outbox_private (h : PgReachable cfg db) :
    (∀ e ∈ db.events, ∀ m ∈ e.body.message?,
      (∀ r ∈ db.messages, r.id = m.id → r.deletedAt ≠ none) → e.body.Private) ∧
    ∀ w ∈ db.webhooks, w.eventType.isMessage = true → w.payload ≠ none →
      ∃ r ∈ db.messages, r.id = w.resourceId ∧
        (r.deletedAt ≠ none → w.eventType = .messageDeleted) := by
  have hdb := h.keptPrivate
  refine ⟨?_, ?_⟩
  · intro e he m hm hgone
    rcases hdb.log e he m hm with hprivate | ⟨r, hr, hid, -, hlive⟩
    · exact hprivate
    · exact absurd hlive (hgone r hr hid)
  · intro w hw htype hpayload
    obtain ⟨p, hp⟩ := Option.ne_none_iff_exists'.mp hpayload
    obtain ⟨r, hr, hid, -, hdeleted⟩ := (hdb.outbox w hw p hp).message htype
    exact ⟨r, hr, hid, hdeleted⟩

/-- Constant readings: one clock value, and uuids and sequences from a base on. -/
def PgReadings.fixed (now : Timestamp) (base : Nat) : PgReadings :=
  { Readings.fixed now base with sequence := fun i => base + i }

/-- The configuration of the worked examples. -/
def smallPgConfig : PgConfig := { store := smallConfig }

/-- A room, a message in it that receives a reaction, and its deletion. -/
def reactedThenDeleted : List (PgReadings × PgCommand) :=
  [(.fixed 1 1, .createRoom
        { name := "General", id := some ⟨"general", matchesRoomId_general⟩ } "admin"),
   (.fixed 2 10, .createMessage { roomId := "general", sender := "ada", content := "hello" }),
   (.fixed 3 20, .setMessageReaction
      { roomId := "general", messageId := (UuidHex.ofNat 10).text, key := "thumbs", reactor := "bob",
        present := true }),
   (.fixed 4 30, .deleteMessage
      { roomId := "general", messageId := (UuidHex.ofNat 10).text, actor := "ada" })]

/-- Every copy of the message in the log and in the outbox was scrubbed. -/
theorem log_and_outbox_private_reactedThenDeleted :
    (∀ e ∈ (runPgCalls smallPgConfig reactedThenDeleted {}).events, ∀ m ∈ e.body.message?,
      e.body.Private) ∧
    (runPgCalls smallPgConfig reactedThenDeleted {}).events.rows.map EventRow.sequence =
      [1, 10, 20, 30] ∧
    (runPgCalls smallPgConfig reactedThenDeleted {}).webhooks.rows.map
      (fun r => (r.eventType, r.payload.isSome)) =
      [(.messageDeleted, true)] := by
  refine ⟨fun e he m hm => ?_, by decide +kernel, by decide +kernel⟩
  refine (log_and_outbox_private (runPgCalls_reachable smallPgConfig reactedThenDeleted)).1
    e he m hm ?_
  revert e m
  decide +kernel

end Postgres
end ChatEngine
