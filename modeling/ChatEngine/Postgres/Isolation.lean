import ChatEngine.Postgres.Sessions

/-!
# What concurrent transactions can do to each other

The messages and the log a transaction is about to commit, relative to what is
committed now.

* `Effect`, what the stages before the announcement do to messages and log, and
  `stage_effect`, which says that each of them does nothing else;
* `Prepared`, what a transaction that is past them would commit: one rewritten
  message at most, whose events are appended or still to append;
* `Prepared.frame`, which keeps it true while other transactions commit;
* `SessionsOk`, the invariant of all running transactions, and its step lemmas.
-/

namespace ChatEngine
namespace Postgres

open Lib
open Models
open Store

variable {cfg : PgConfig} {rd : PgReadings} {db db' base : PgDatabase}

/-! ## The stages before the announcement -/

/-- A message as an event tells it to a room. -/
structure Announcement where
  roomId : String
  body : EventBody
  message : Message

/-- The id of the announced message. -/
abbrev Announcement.id (a : Announcement) : String := a.message.id

/-- The messages that a list of events announces. -/
def announced (events : List EventDraft) : List Announcement :=
  events.filterMap fun draft => draft.body.message?.map fun m => ⟨draft.roomId, draft.body, m⟩

/-- An event of the log, without its sequence and its time. -/
def EventRow.draft (e : EventRow) : EventDraft := ⟨e.roomId, e.body⟩

/-- The events to append announce this message, and no other. -/
def Stage.Announces (stage : Stage) (target : Option Announcement) : Prop :=
  announced stage.drafts = target.toList

/-- A stage turned `db` into `db'`.  Apart from the target message, rows were
removed or lost their parent; events were pruned, or scrubbed because their
message is the target or was removed. -/
structure Effect (target : Option Announcement) (db db' : PgDatabase) : Prop where
  rows : ∀ s ∈ db'.messages, (∀ m ∈ target, s.id ≠ m.id) →
    ∃ r ∈ db.messages, Orphaned db.toDatabase db'.toDatabase r s
  row : ∀ m ∈ target, ∃ s ∈ db'.messages,
    s.id = m.id ∧ s.roomId = m.roomId ∧ messageFromRow s = .ok m.message
  events : ∀ e' ∈ db'.events, e' ∈ db.events ∨ ∃ e ∈ db.events, e' = e.scrub ∧
    ∀ k, e.About k → (∃ m ∈ target, m.id = k) ∨
      ((∃ r ∈ db.messages, r.id = k) ∧ ∀ s ∈ db'.messages, s.id ≠ k)
  lastSequence : db'.lastSequence = db.lastSequence

theorem EventRow.About.unique {e : EventRow} {k k' : String} (h : e.About k) (h' : e.About k') :
    k = k' := by
  obtain ⟨m, hm, rfl⟩ := h
  obtain ⟨m', hm', rfl⟩ := h'
  cases hm.symm.trans hm'
  rfl

theorem Effect.of_messages (hmessages : db'.messages = db.messages)
    (hevents : ∀ e ∈ db'.events, e ∈ db.events) (hlast : db'.lastSequence = db.lastSequence) :
    Effect none db db' where
  rows := fun s hs _ => ⟨s, hmessages ▸ hs, Orphaned.refl s⟩
  row := by
    intro m hm
    cases hm
  events := fun e he => .inl (hevents e he)
  lastSequence := hlast

/-- Only messages, log and last sequence matter. -/
theorem Effect.congr {target : Option Announcement} {db'' : PgDatabase} (h : Effect target db db')
    (hmessages : db''.messages = db'.messages) (hevents : db''.events = db'.events)
    (hlast : db''.lastSequence = db'.lastSequence) : Effect target db db'' := by
  obtain ⟨hrows, hrow, hlog, hlastSequence⟩ := h
  refine ⟨?_, ?_, ?_, hlast.trans hlastSequence⟩
  · unfold Orphaned
    rw [hmessages]
    exact hrows
  · rw [hmessages]
    exact hrow
  · rw [hmessages, hevents]
    exact hlog

/-- A removed batch. -/
theorem LogRemoved.effect {batch : List MessageRow} (h : LogRemoved batch db db') :
    Effect none db db' where
  rows := by
    intro s hs _
    obtain ⟨r, hr, -, hsame⟩ := h.origin s hs
    exact ⟨r, hr, hsame⟩
  row := by
    intro m hm
    cases hm
  events := by
    intro e' he'
    rcases (h.events e').mp he' with ⟨he, -⟩ | ⟨e, he, ⟨b, hb, -, habout⟩, rfl⟩
    · exact .inl he
    · refine .inr ⟨e, he, rfl, fun k hk => .inr ?_⟩
      obtain rfl := hk.unique habout
      obtain ⟨r, hr, hid, -⟩ := h.stored b hb
      refine ⟨⟨r, hr, hid⟩, fun s hs heq => ?_⟩
      obtain ⟨r', -, hout, hsame⟩ := h.origin s hs
      exact hout (List.mem_map.mpr ⟨b, hb, by rw [← heq, hsame.identity.id]⟩)
  lastSequence := h.lastSequence

/-- One locked row rewritten, its events left alone. -/
theorem Effect.rewritten {roomId messageId : String} {f : MessageRow → MessageRow}
    {hid : ∀ r, (f r).id = r.id} {row : MessageRow} {m : Message} {body : EventBody}
    (hlocked : LockedRow roomId messageId db row) (hroom : (f row).roomId = row.roomId)
    (hm : m.id = messageId) (hdecode : messageFromRow (f row) = .ok m) :
    Effect (some ⟨roomId, body, m⟩) db (db.rewriteMessage messageId f hid) where
  rows := by
    intro s hs hne
    rcases mem_setMessage.mp hs with ⟨hold, -⟩ | ⟨r, -, hr, rfl⟩
    · exact ⟨s, hold, Orphaned.refl s⟩
    · exact absurd ((hid r).trans (hr.trans hm.symm)) (hne ⟨roomId, body, m⟩ rfl)
  row := by
    intro a ha
    cases ha
    exact ⟨f row, mem_setMessage.mpr (.inr ⟨row, hlocked.stored, hlocked.id, rfl⟩),
      (hid row).trans (hlocked.id.trans hm.symm), hroom.trans hlocked.room, hdecode⟩
  events := fun e he => .inl he
  lastSequence := rfl

/-- The same with the events of the row scrubbed. -/
theorem Effect.tombstoned {row : MessageRow} {roomId messageId : String} {deletedAt : Timestamp}
    {m : Message} {body : EventBody} (hlocked : LockedRow roomId messageId db row)
    (hm : m.id = messageId) (hdecode : messageFromRow (row.tombstone deletedAt) = .ok m) :
    Effect (some ⟨roomId, body, m⟩) db (db.tombstoned row messageId deletedAt) := by
  have hrewritten : Effect (some ⟨roomId, body, m⟩) (db.dropReactionsOf messageId)
      ((db.dropReactionsOf messageId).rewriteMessage messageId
        (MessageRow.tombstone deletedAt) (MessageRow.tombstone_id deletedAt)) :=
    Effect.rewritten ⟨hlocked.stored, hlocked.id, hlocked.room⟩ rfl hm hdecode
  refine ⟨hrewritten.rows, hrewritten.row, ?_, rfl⟩
  intro e' he'
  change e' ∈ scrubLog [row] db.events at he'
  rcases mem_scrubLog.mp he' with ⟨he, -⟩ | ⟨e, he, ⟨b, hb, -, habout⟩, rfl⟩
  · exact .inl he
  · refine .inr ⟨e, he, rfl, fun k hk => .inl ⟨⟨roomId, body, m⟩, rfl, ?_⟩⟩
    obtain rfl := hk.unique habout
    rw [List.mem_singleton.mp hb, hlocked.id]
    exact hm

/-- The insert of a new message, and the trimming after it. -/
theorem PgCreated.effect_ok {args : CreateMessage} {m : Message}
    (h : PgCreated cfg rd args db m db') :
    Effect (some ⟨args.roomId, .messageCreated m, m⟩) db db' ∧ m.id = (rd.uuid 0).text ∧
      ∀ r ∈ db.messages, r.id ≠ m.id := by
  obtain ⟨inserted, batch, trimmed, row, -, hins, htrim, hrow, hrowId, hdecode, hcommits⟩ :=
    h.effect
  have hm : m.id = (rd.uuid 0).text := by
    rw [(messageFromRow_ok hdecode).1, hrowId]
    exact (rd.uuid 0).stripWhitespace_eq
  have hremoved := htrim.removed.effect
  refine ⟨?_, hm, ?_⟩
  · have htrimmed : Effect (some ⟨args.roomId, .messageCreated m, m⟩) db trimmed := by
      refine ⟨?_, ?_, ?_, hremoved.lastSequence⟩
      · intro s hs hne
        obtain ⟨r, hr, hsame⟩ := hremoved.rows s hs fun m hm => by cases hm
        rcases (Table.mem_of_insert? hins).mp hr with hold | rfl
        · refine ⟨r, hold, hsame.imp id ?_⟩
          rintro ⟨p, hp, ⟨t, ht, htp⟩, hgone, hforgot⟩
          -- the inserted row is still there, so it is no parent that was trimmed
          rcases (Table.mem_of_insert? hins).mp ht with ht | rfl
          · exact ⟨p, hp, ⟨t, ht, htp⟩, hgone, hforgot⟩
          · exact absurd (hrowId.trans htp) (hgone row hrow)
        · exact absurd (hsame.identity.id.trans hm.symm)
            (hne ⟨args.roomId, .messageCreated m, m⟩ rfl)
      · intro a ha
        cases ha
        obtain ⟨r, hr, hsame⟩ := hremoved.rows row hrow fun m hm => by cases hm
        have hnew : newPgRow args (rd.uuid 0) (rd.now 1) ∈ inserted :=
          (Table.mem_of_insert? hins).mpr (.inr rfl)
        have hrnew : r = newPgRow args (rd.uuid 0) (rd.now 1) :=
          Table.eq_of_key hr hnew (hsame.identity.id.symm.trans hrowId)
        refine ⟨row, hrow, hrowId.trans hm.symm, ?_, hdecode⟩
        rw [hsame.identity.roomId, hrnew]
        rfl
      · intro e' he'
        rcases hremoved.events e' he' with he | ⟨e, he, rfl, habout⟩
        · exact .inl he
        · refine .inr ⟨e, he, rfl, fun k hk => ?_⟩
          rcases habout k hk with ⟨_, hnone, -⟩ | ⟨⟨r, hr, hrid⟩, hgone⟩
          · cases hnone
          · rcases (Table.mem_of_insert? hins).mp hr with hold | rfl
            · exact .inr ⟨⟨r, hold, hrid⟩, hgone⟩
            · exact .inl ⟨⟨args.roomId, .messageCreated m, m⟩, rfl, hm.trans hrid⟩
    exact htrimmed.congr hcommits.messages hcommits.events hcommits.lastSequence
  · intro r hr
    rw [hm]
    exact (Table.insert?_eq_some.mp hins).1 r hr

/-! ## Every stage before the announcement -/

theorem Stage.Announces.none {stage : Stage}
    (h : ∀ draft ∈ stage.drafts, draft.body.message? = none) : stage.Announces none := by
  unfold Stage.Announces announced
  rw [Option.toList_none, List.filterMap_eq_nil_iff]
  intro draft hdraft
  rw [h draft hdraft]
  rfl

theorem Stage.Announces.single {roomId : String} {body : EventBody} {m : Message}
    {reply : PgReply} (h : body.message? = some m) :
    Stage.Announces (.announce [⟨roomId, body⟩] reply) (some ⟨roomId, body, m⟩) := by
  simp [Stage.Announces, announced, Stage.drafts, h]

/-- What a stage before the announcement did, and which lock covers its target. -/
structure StageEffect (stage : Stage) (target : Option Announcement) (db : PgDatabase)
    (stage' : Stage) (db' : PgDatabase) : Prop where
  effect : Effect target db db'
  announces : stage'.Announces target
  covered : ∀ m ∈ target,
    Lock.row (.message m.id) ∈ stage.locks ∨ ∀ r ∈ db.messages, r.id ≠ m.id
  unchanged : stage'.Early → db' = db

/-- A stage that changed no message and has none to announce. -/
theorem StageEffect.quiet {stage stage' : Stage} (heffect : Effect none db db')
    (hdrafts : ∀ draft ∈ stage'.drafts, draft.body.message? = none)
    (hunchanged : stage'.Early → db' = db) : StageEffect stage none db stage' db' :=
  ⟨heffect, .none hdrafts, fun m hm => (by cases hm), hunchanged⟩

/-- A stage that changed nothing. -/
theorem StageEffect.same {stage stage' : Stage} (hdrafts : stage'.drafts = []) :
    StageEffect stage none db stage' db :=
  .quiet (.of_messages rfl (fun _ he => he) rfl) (by simp [hdrafts]) fun _ => rfl

/-- A stage that rewrote one locked message and has it to announce. -/
theorem StageEffect.told {stage : Stage} {roomId : String} {body : EventBody} {m : Message}
    {reply : PgReply} {row : WebhookRow} (heffect : Effect (some ⟨roomId, body, m⟩) db base)
    (hcommits : PgCommits cfg base row db') (hbody : body.message? = some m)
    (hcovered : Lock.row (.message m.id) ∈ stage.locks ∨ ∀ r ∈ db.messages, r.id ≠ m.id) :
    StageEffect stage (some ⟨roomId, body, m⟩) db (.announce [⟨roomId, body⟩] reply) db' where
  effect := heffect.congr hcommits.messages hcommits.events hcommits.lastSequence
  announces := .single hbody
  covered := by
    intro m' hm'
    cases hm'
    exact hcovered
  unchanged := fun h => absurd h id

theorem begin_effect {cmd : PgCommand} {stage' : Stage}
    (h : Tx.Returns (cmd.begin cfg rd) db stage' db') :
    StageEffect (.begin cmd) none db stage' db' := by
  have hbegan := begin_ok h
  refine .quiet (.of_messages ?_ hbegan.events hbegan.lastSequence) hbegan.drafts hbegan.unchanged
  rcases hbegan.tables with hsame | ⟨cmd', reply, hleaves, hrun⟩
  · rw [hsame]
  · exact messages_left hrun hleaves

theorem inRoom_effect {cmd : PgCommand} {stage' : Stage} (hids : IdsStripped db.toDatabase)
    (h : Tx.Returns (cmd.inRoom cfg rd) db stage' db') :
    ∃ target, StageEffect (.inRoom cmd) target db stage' db' := by
  cases cmd with
  | setMessageReaction args =>
      obtain ⟨row, mutation, hlocked, hlive, ⟨rfl, -, -, rfl⟩ |
        ⟨-, rfl, t, summaries, hdecode, hcommits⟩⟩ := reactInRoom_ok h
      · exact ⟨none, .same rfl⟩
      · have hm : mutation.message.id = args.messageId :=
          (hids.decoded_id hlocked.stored hdecode rfl).trans hlocked.id
        have hrewritten : Effect
            (some ⟨args.roomId, .messageReactionUpdated mutation, mutation.message⟩)
            (db.withReactions t) ((db.withReactions t).rewriteMessage args.messageId
              (MessageRow.setReactions summaries) (MessageRow.setReactions_id summaries)) :=
          Effect.rewritten ⟨hlocked.stored, hlocked.id, hlocked.room⟩ rfl hm hdecode
        have hfrom : Effect
            (some ⟨args.roomId, .messageReactionUpdated mutation, mutation.message⟩) db _ :=
          ⟨hrewritten.rows, hrewritten.row, hrewritten.events, hrewritten.lastSequence⟩
        exact ⟨_, .told hfrom hcommits rfl (.inl (by rw [hm]; simp [Stage.locks]))⟩
  | setMessagePin args =>
      obtain ⟨row, mutation, hlocked, hlive, ⟨rfl, -, -, rfl⟩ | ⟨-, rfl, hdecode, hcommits⟩⟩ :=
        pinInRoom_ok h
      · exact ⟨none, .same rfl⟩
      · have hm : mutation.message.id = args.messageId :=
          (hids.decoded_id hlocked.stored hdecode rfl).trans hlocked.id
        exact ⟨_, .told (.rewritten hlocked rfl hm hdecode) hcommits rfl
          (.inl (by rw [hm]; simp [Stage.locks]))⟩
  | _ =>
      obtain ⟨rfl, rfl⟩ := Tx.returns_pure.mp h
      exact ⟨none, .same rfl⟩

theorem capped_effect {cmd : PgCommand} {stage' : Stage} (hids : IdsStripped db.toDatabase)
    (h : Tx.Returns (cmd.capped cfg rd) db stage' db') :
    ∃ target, StageEffect (.capped cmd) target db stage' db' := by
  cases cmd with
  | createMessage args =>
      obtain ⟨m, rfl, hcreated⟩ := createCapped_ok h
      obtain ⟨heffect, -, hfresh⟩ := hcreated.effect_ok
      refine ⟨some ⟨args.roomId, .messageCreated m, m⟩, heffect, .single rfl, ?_,
        fun h => absurd h id⟩
      intro m' hm'
      cases hm'
      exact .inr hfresh
  | updateMessage args =>
      obtain ⟨row, m, hlocked, -, hdecode, rfl, hcommits⟩ := updateCapped_ok h
      have hm : m.id = args.messageId :=
        (hids.decoded_id hlocked.stored hdecode rfl).trans hlocked.id
      exact ⟨_, .told (.rewritten hlocked rfl hm hdecode) hcommits rfl
        (.inl (by rw [hm]; simp [Stage.locks]))⟩
  | deleteMessage args =>
      obtain ⟨row, m, hlocked, ⟨-, -, rfl, rfl⟩ | ⟨-, hdecode, rfl, hcommits⟩⟩ := deleteCapped_ok h
      · exact ⟨none, .same rfl⟩
      · have hm : m.id = args.messageId :=
          (hids.decoded_id hlocked.stored hdecode rfl).trans hlocked.id
        exact ⟨_, .told (.tombstoned hlocked hm hdecode) hcommits rfl
          (.inl (by rw [hm]; simp [Stage.locks]))⟩
  | deleteRoom roomId actor =>
      obtain ⟨audited, rfl, hremoved, -⟩ := deleteRoomCapped_ok h
      refine ⟨none, .quiet hremoved.effect ?_ fun h => absurd h id⟩
      intro draft hdraft
      rw [List.mem_singleton.mp hdraft]
      rfl
  | runRetention actor =>
      obtain ⟨batch, reply, rfl, htrim⟩ := retentionCapped_ok h
      exact ⟨none, .quiet htrim.removed.effect (by simp [Stage.drafts]) fun h => absurd h id⟩
  | _ => exact absurd h Tx.returns_raise

/-- Every stage before the announcement rewrites at most one message, which it
has locked or just inserted, and leaves exactly that message to announce. -/
theorem stage_effect {stage stage' : Stage} (hids : IdsStripped db.toDatabase)
    (hearly : stage.Early) (h : Tx.Returns (stage.body cfg rd) db stage' db') :
    ∃ target, StageEffect stage target db stage' db' := by
  cases stage with
  | begin cmd => exact ⟨none, begin_effect h⟩
  | inRoom cmd => exact inRoom_effect hids h
  | capped cmd => exact capped_effect hids h
  | announce events reply => exact absurd hearly id
  | commit reply => exact absurd hearly id

/-! ## Views -/

section Views

variable {ses other : Session}

theorem mem_view_messages {r : MessageRow} :
    r ∈ (ses.view db).messages ↔
      (r ∈ db.messages ∧ RowKey.message r.id ∉ ses.touched) ∨
        (r ∈ ses.own.messages ∧ RowKey.message r.id ∈ ses.touched) :=
  Table.mem_overlay

theorem mem_view_events {e : EventRow} :
    e ∈ (ses.view db).events ↔
      (e ∈ db.events ∧ RowKey.event e.sequence ∉ ses.touched) ∨
        (e ∈ ses.own.events ∧ RowKey.event e.sequence ∈ ses.touched) :=
  Table.mem_overlay

theorem le_view_lastSequence : db.lastSequence ≤ (ses.view db).lastSequence :=
  le_max_left _ _

/-- A transaction that has changed nothing sees the committed database. -/
theorem view_untouched (htouched : ses.touched = [])
    (hlast : ses.own.lastSequence ≤ db.lastSequence) : ses.view db = db := by
  unfold Session.view PgDatabase.overlay
  simp only [htouched, List.not_mem_nil, not_false_eq_true, implies_true, Table.overlay_untouched,
    max_eq_left hlast]

theorem message_mem_changedRows {old new : PgDatabase} {k : String} :
    RowKey.message k ∈ changedRows old new ↔ k ∈ Table.changedKeys old.messages new.messages := by
  unfold changedRows
  simp

theorem event_mem_changedRows {old new : PgDatabase} {k : Nat} :
    RowKey.event k ∈ changedRows old new ↔ k ∈ Table.changedKeys old.events new.events := by
  unfold changedRows
  simp

theorem changedRows_self : changedRows db db = [] := by
  unfold changedRows Table.changedKeys
  simp

variable {stage : Stage} {own : PgDatabase}

/-- After a stage a transaction sees the messages that the stage left. -/
theorem mem_advance_messages {r : MessageRow} :
    r ∈ ((ses.advance db stage own).view db).messages ↔ r ∈ own.messages := by
  have hbefore : ∀ k, RowKey.message k ∈ ses.touched →
      RowKey.message k ∈ changedRows (ses.view db) own ++ ses.touched :=
    fun k hk => List.mem_append_right _ hk
  have hchanged : ∀ k ∈ Table.changedKeys
      (db.messages.overlay ses.own.messages fun k => RowKey.message k ∈ ses.touched) own.messages,
      RowKey.message k ∈ changedRows (ses.view db) own ++ ses.touched :=
    fun k hk => List.mem_append_left _ (message_mem_changedRows.mpr hk)
  exact Table.mem_overlay_changed hbefore hchanged

/-- After a stage a transaction sees the log that the stage left. -/
theorem mem_advance_events {e : EventRow} :
    e ∈ ((ses.advance db stage own).view db).events ↔ e ∈ own.events := by
  have hbefore : ∀ k, RowKey.event k ∈ ses.touched →
      RowKey.event k ∈ changedRows (ses.view db) own ++ ses.touched :=
    fun k hk => List.mem_append_right _ hk
  have hchanged : ∀ k ∈ Table.changedKeys
      (db.events.overlay ses.own.events fun k => RowKey.event k ∈ ses.touched) own.events,
      RowKey.event k ∈ changedRows (ses.view db) own ++ ses.touched :=
    fun k hk => List.mem_append_left _ (event_mem_changedRows.mpr hk)
  exact Table.mem_overlay_changed hbefore hchanged

theorem touched_advance {key : RowKey} (h : key ∈ ses.touched) :
    key ∈ (ses.advance db stage own).touched := List.mem_append_right _ h

theorem mem_locks {lock : Lock} :
    lock ∈ ses.locks ↔ lock ∈ ses.locked ∨ ∃ key ∈ ses.touched, Lock.row key = lock := by
  unfold Session.locks
  rw [List.mem_append, List.mem_map]

theorem touched_locked {key : RowKey} (h : key ∈ ses.touched) : Lock.row key ∈ ses.locks :=
  mem_locks.mpr (.inr ⟨key, h, rfl⟩)

/-- No lock is ever given up before the end. -/
theorem locks_advance {lock : Lock} (h : lock ∈ ses.locks) :
    lock ∈ (ses.advance db stage own).locks := by
  rcases mem_locks.mp h with hlocked | ⟨key, hkey, rfl⟩
  · exact mem_locks.mpr (.inl (List.mem_append_right _ hlocked))
  · exact touched_locked (touched_advance hkey)

theorem stage_locks_advance {lock : Lock} (h : lock ∈ ses.stage.locks) :
    lock ∈ (ses.advance db stage own).locks :=
  mem_locks.mpr (.inl (List.mem_append_left _ h))

end Views

/-! ## What a transaction would commit -/

/-- A transaction past its changes: `target` is the one message it rewrote, and
`fresh` are the events it appended.  Every other row and event it would commit is
a committed one, apart from removals, forgotten parents and scrubs. -/
structure Prepared (target : Option Announcement) (fresh : List EventRow) (db : PgDatabase)
    (ses : Session) : Prop where
  rows : ∀ s ∈ (ses.view db).messages, (∀ m ∈ target, s.id ≠ m.id) →
    ∃ r ∈ db.messages, Orphaned db.toDatabase (ses.view db).toDatabase r s
  row : ∀ m ∈ target, Lock.row (.message m.id) ∈ ses.locks ∧
    ∃ s ∈ (ses.view db).messages,
      s.id = m.id ∧ s.roomId = m.roomId ∧ messageFromRow s = .ok m.message
  events : ∀ e' ∈ (ses.view db).events, e' ∈ fresh ∨ e' ∈ db.events ∨
    ∃ e ∈ db.events, e' = e.scrub ∧ ∀ k, e.About k → (∃ m ∈ target, m.id = k) ∨
      (RowKey.message k ∈ ses.touched ∧ ∀ s ∈ ses.own.messages, s.id ≠ k)
  appended : ∀ e ∈ fresh, e ∈ (ses.view db).events ∧ db.lastSequence < e.sequence ∧
    e.sequence ≤ (ses.view db).lastSequence
  told : announced (fresh.map EventRow.draft ++ ses.stage.drafts) = target.toList

/-- The invariant of one transaction. -/
structure SessionOk (db : PgDatabase) (ses : Session) : Prop where
  early : ses.stage.Early → ses.touched = [] ∧ ses.own.lastSequence ≤ db.lastSequence
  sequence : db.lastSequence < ses.own.lastSequence → Lock.eventSequence ∈ ses.locks
  prepared : ¬ ses.stage.Early → ∃ target fresh, Prepared target fresh db ses

section Advance

variable {ses : Session} {stage' : Stage} {own : PgDatabase}

/-- A stage before the announcement prepares what it changed. -/
theorem SessionOk.advance_early (hids : IdsStripped db.toDatabase) (h : SessionOk db ses)
    (hearly : ses.stage.Early)
    (hrun : Tx.Returns (ses.stage.body cfg rd) (ses.view db) stage' own) :
    SessionOk db (ses.advance db stage' own) := by
  obtain ⟨htouched, hlast⟩ := h.early hearly
  have hview : ses.view db = db := view_untouched htouched hlast
  rw [hview] at hrun
  obtain ⟨target, heffect, hannounces, hcovered, hunchanged⟩ := stage_effect hids hearly hrun
  refine ⟨?_, ?_, fun _ => ⟨target, [], ?_, ?_, ?_, ?_, ?_⟩⟩
  · intro hstage
    have hsame : own = db := hunchanged hstage
    subst hsame
    refine ⟨?_, le_rfl⟩
    change changedRows (ses.view own) own ++ ses.touched = []
    rw [hview, changedRows_self, htouched, List.append_nil]
  · intro hlt
    exact absurd heffect.lastSequence (Nat.ne_of_gt hlt)
  · intro s hs hne
    obtain ⟨r, hr, hsame⟩ := heffect.rows s (mem_advance_messages.mp hs) hne
    exact ⟨r, hr, hsame.of_messages fun t => mem_advance_messages.mp⟩
  · intro m hm
    obtain ⟨s, hs, hid, hroom, hdecode⟩ := heffect.row m hm
    refine ⟨?_, s, mem_advance_messages.mpr hs, hid, hroom, hdecode⟩
    rcases hcovered m hm with hlock | hnew
    · exact stage_locks_advance hlock
    · refine touched_locked (List.mem_append_left _ (message_mem_changedRows.mpr ?_))
      rw [hview, ← hid]
      exact Table.changed_of_added (fun hold => hnew s hold hid) hs
  · intro e' he'
    rcases heffect.events e' (mem_advance_events.mp he') with he | ⟨e, he, rfl, habout⟩
    · exact .inr (.inl he)
    · refine .inr (.inr ⟨e, he, rfl, fun k hk => ?_⟩)
      rcases habout k hk with htarget | ⟨⟨r, hr, rfl⟩, hgone⟩
      · exact .inl htarget
      · refine .inr ⟨List.mem_append_left _ (message_mem_changedRows.mpr ?_), hgone⟩
        rw [hview]
        exact Table.changed_of_removed hr fun hs => hgone r hs rfl
  · intro e he
    cases he
  · exact hannounces

/-- Appending the announced events moves them from the drafts to the fresh ones. -/
theorem Prepared.append {target : Option Announcement} {fresh new : List EventRow}
    (h : Prepared target fresh db ses) (hmessages : own.messages = (ses.view db).messages)
    (hrows : own.events.rows = (ses.view db).events.rows ++ new)
    (hlast : (ses.view db).lastSequence ≤ own.lastSequence)
    (hnew : ∀ e ∈ new, (ses.view db).lastSequence < e.sequence ∧ e.sequence ≤ own.lastSequence)
    (hdrafts : new.map EventRow.draft = ses.stage.drafts)
    (hdone : stage'.drafts = []) :
    Prepared target (fresh ++ new) db (ses.advance db stage' own) := by
  have hevents : ∀ e, e ∈ own.events ↔ e ∈ (ses.view db).events ∨ e ∈ new := by
    intro e
    rw [← Table.mem_rows, hrows, List.mem_append]
    rfl
  have hview : ((ses.advance db stage' own).view db).lastSequence = own.lastSequence :=
    max_eq_right (le_view_lastSequence.trans hlast)
  refine ⟨?_, ?_, ?_, ?_, ?_⟩
  · intro s hs hne
    rw [mem_advance_messages, hmessages] at hs
    obtain ⟨r, hr, hsame⟩ := h.rows s hs hne
    refine ⟨r, hr, hsame.of_messages fun t ht => ?_⟩
    rw [mem_advance_messages, hmessages] at ht
    exact ht
  · intro m hm
    obtain ⟨hlock, s, hs, hid, hroom, hdecode⟩ := h.row m hm
    refine ⟨locks_advance hlock, s, mem_advance_messages.mpr ?_, hid, hroom, hdecode⟩
    rw [hmessages]
    exact hs
  · intro e' he'
    rcases (hevents e').mp (mem_advance_events.mp he') with hold | hnew
    · rcases h.events e' hold with hfresh | hcommitted | ⟨e, he, rfl, habout⟩
      · exact .inl (List.mem_append_left _ hfresh)
      · exact .inr (.inl hcommitted)
      · refine .inr (.inr ⟨e, he, rfl, fun k hk => ?_⟩)
        rcases habout k hk with htarget | ⟨htouched, hgone⟩
        · exact .inl htarget
        · refine .inr ⟨touched_advance htouched, fun s hs hid => ?_⟩
          change s ∈ own.messages at hs
          rw [hmessages] at hs
          rcases mem_view_messages.mp hs with ⟨-, hout⟩ | ⟨hown, -⟩
          · exact hout (hid ▸ htouched)
          · exact hgone s hown hid
    · exact .inl (List.mem_append_right _ hnew)
  · intro e he
    rw [hview]
    rcases List.mem_append.mp he with hfresh | hgained
    · obtain ⟨hmem, hgt, hle⟩ := h.appended e hfresh
      exact ⟨mem_advance_events.mpr ((hevents e).mpr (.inl hmem)), hgt, hle.trans hlast⟩
    · obtain ⟨hgt, hle⟩ := hnew e hgained
      exact ⟨mem_advance_events.mpr ((hevents e).mpr (.inr hgained)),
        le_view_lastSequence.trans_lt hgt, hle⟩
  · change announced ((fresh ++ new).map EventRow.draft ++ stage'.drafts) = _
    rw [hdone, List.append_nil, List.map_append, hdrafts]
    exact h.told

/-- Every stage keeps the transaction's own invariant. -/
theorem SessionOk.advance (hids : IdsStripped db.toDatabase) (h : SessionOk db ses)
    (hrun : Tx.Returns (ses.stage.body cfg rd) (ses.view db) stage' own) :
    SessionOk db (ses.advance db stage' own) := by
  cases hstage : ses.stage with
  | begin cmd => exact h.advance_early hids (by rw [hstage]; trivial) hrun
  | inRoom cmd => exact h.advance_early hids (by rw [hstage]; trivial) hrun
  | capped cmd => exact h.advance_early hids (by rw [hstage]; trivial) hrun
  | announce drafts reply =>
      have hlate : ¬ ses.stage.Early := by rw [hstage]; exact id
      obtain ⟨target, fresh, hprepared⟩ := h.prepared hlate
      rw [hstage] at hrun
      obtain ⟨_, _, happend, hpure⟩ := Tx.returns_bind.mp hrun
      obtain ⟨rfl, rfl⟩ := Tx.returns_pure.mp hpure
      obtain ⟨htables, -, hlast, new, hrows, hdrafts, hnew, -⟩ := appendEvents_ok happend
      have hnewDrafts : new.map EventRow.draft = ses.stage.drafts := by
        rw [hstage]
        exact hdrafts
      refine ⟨fun h => absurd h id, fun hlt => ?_, fun _ => ⟨target, fresh ++ new, ?_⟩⟩
      · cases drafts with
        | nil =>
            obtain ⟨-, hsame⟩ := Tx.returns_pure.mp happend
            rw [hsame] at hlt
            exact locks_advance (h.sequence ((lt_max_iff.mp hlt).resolve_left (lt_irrefl _)))
        | cons draft rest =>
            refine stage_locks_advance ?_
            rw [hstage]
            simp [Stage.locks]
      · exact hprepared.append (by rw [htables]) hrows hlast hnew hnewDrafts rfl
  | commit reply =>
      have hlate : ¬ ses.stage.Early := by rw [hstage]; exact id
      obtain ⟨target, fresh, hprepared⟩ := h.prepared hlate
      rw [hstage] at hrun
      obtain ⟨rfl, rfl⟩ := Tx.returns_pure.mp hrun
      refine ⟨fun h => absurd h id, fun hlt => ?_, fun _ => ⟨target, fresh ++ [], ?_⟩⟩
      · exact locks_advance (h.sequence ((lt_max_iff.mp hlt).resolve_left (lt_irrefl _)))
      · refine hprepared.append rfl (List.append_nil _).symm le_rfl (by simp) ?_ rfl
        rw [hstage]
        rfl

end Advance

/-! ## Other transactions commit -/

section Frame

variable {ses other : Session}

/-- A committed message that `ses` has locked is left alone by another commit. -/
theorem locked_message_kept {r : MessageRow} (hr : r ∈ db.messages)
    (hlock : Lock.row (.message r.id) ∈ ses.locks)
    (hdisjoint : ∀ lock ∈ ses.locks, lock ∉ other.locks) :
    r ∈ (other.view db).messages :=
  mem_view_messages.mpr (.inl ⟨hr, fun htouched => hdisjoint _ hlock (touched_locked htouched)⟩)

/-- A parent that `ses` has removed stays there until `ses` commits. -/
theorem orphaned_frame {r s : MessageRow}
    (h : Orphaned db.toDatabase (ses.view db).toDatabase r s)
    (hdisjoint : ∀ lock ∈ ses.locks, lock ∉ other.locks) :
    Orphaned (other.view db).toDatabase (ses.view (other.view db)).toDatabase r s := by
  refine h.imp id ?_
  rintro ⟨p, hp, ⟨t, ht, rfl⟩, hgone, hforgot⟩
  have htouched : RowKey.message t.id ∈ ses.touched := by
    by_contra hout
    exact hgone t (mem_view_messages.mpr (.inl ⟨ht, hout⟩)) rfl
  refine ⟨t.id, hp, ⟨t, locked_message_kept ht (touched_locked htouched) hdisjoint, rfl⟩, ?_,
    hforgot⟩
  intro u hu hut
  rcases mem_view_messages.mp hu with ⟨-, hout⟩ | hown
  · exact hout (hut ▸ htouched)
  · exact hgone u (mem_view_messages.mpr (.inr hown)) hut

/-- A committed event that `ses` has changed is left alone by another commit. -/
theorem locked_event_kept {e : EventRow} (he : e ∈ db.events)
    (hlock : Lock.row (.event e.sequence) ∈ ses.locks)
    (hdisjoint : ∀ lock ∈ ses.locks, lock ∉ other.locks) : e ∈ (other.view db).events :=
  mem_view_events.mpr (.inl ⟨he, fun htouched => hdisjoint _ hlock (touched_locked htouched)⟩)

/-- While `ses` holds the sequence lock no other commit appends an event. -/
theorem SessionOk.lastSequence_kept (hother : SessionOk db other)
    (hlock : Lock.eventSequence ∈ ses.locks)
    (hdisjoint : ∀ lock ∈ ses.locks, lock ∉ other.locks) :
    (other.view db).lastSequence = db.lastSequence := by
  change max db.lastSequence other.own.lastSequence = db.lastSequence
  refine max_eq_left (not_lt.mp fun hlt => ?_)
  exact hdisjoint _ hlock (hother.sequence hlt)

/-- What a transaction has prepared stays prepared while another commits. -/
theorem Prepared.frame {target : Option Announcement} {fresh : List EventRow}
    (h : Prepared target fresh db ses) (hses : SessionOk db ses) (hother : SessionOk db other)
    (hdisjoint : ∀ lock ∈ ses.locks, lock ∉ other.locks)
    (hsequences : ∀ e ∈ db.events, e.sequence ≤ db.lastSequence) :
    Prepared target fresh (other.view db) ses where
  rows := by
    intro s hs hne
    rcases mem_view_messages.mp hs with ⟨hcommitted, -⟩ | ⟨hown, htouched⟩
    · exact ⟨s, hcommitted, Orphaned.refl s⟩
    · obtain ⟨r, hr, hsame⟩ := h.rows s (mem_view_messages.mpr (.inr ⟨hown, htouched⟩)) hne
      rw [hsame.identity.id] at htouched
      exact ⟨r, locked_message_kept hr (touched_locked htouched) hdisjoint,
        orphaned_frame hsame hdisjoint⟩
  row := by
    intro m hm
    obtain ⟨hlock, s, hs, hid, hroom, hdecode⟩ := h.row m hm
    refine ⟨hlock, s, ?_, hid, hroom, hdecode⟩
    rcases mem_view_messages.mp hs with ⟨hcommitted, hout⟩ | hown
    · exact mem_view_messages.mpr
        (.inl ⟨locked_message_kept hcommitted (by rw [hid]; exact hlock) hdisjoint, hout⟩)
    · exact mem_view_messages.mpr (.inr hown)
  events := by
    intro e' he'
    rcases mem_view_events.mp he' with ⟨hcommitted, -⟩ | ⟨hown, htouched⟩
    · exact .inr (.inl hcommitted)
    · have hlock := touched_locked htouched
      rcases h.events e' (mem_view_events.mpr (.inr ⟨hown, htouched⟩)) with
        hfresh | hcommitted | ⟨e, he, rfl, habout⟩
      · exact .inl hfresh
      · exact .inr (.inl (locked_event_kept hcommitted hlock hdisjoint))
      · exact .inr (.inr ⟨e, locked_event_kept he hlock hdisjoint, rfl, habout⟩)
  appended := by
    intro e he
    obtain ⟨hmem, hgt, hle⟩ := h.appended e he
    have hlast : (other.view db).lastSequence = db.lastSequence := by
      refine hother.lastSequence_kept (hses.sequence ?_) hdisjoint
      exact (lt_max_iff.mp (hgt.trans_le hle)).resolve_left (lt_irrefl _)
    refine ⟨?_, hlast.symm ▸ hgt, ?_⟩
    · rcases mem_view_events.mp hmem with ⟨hcommitted, -⟩ | hown
      · exact absurd (hsequences e hcommitted) (Nat.not_le.mpr hgt)
      · exact mem_view_events.mpr (.inr hown)
    · change e.sequence ≤ max (other.view db).lastSequence ses.own.lastSequence
      rw [hlast]
      exact hle
  told := h.told

/-- A transaction's own invariant survives another commit. -/
theorem SessionOk.frame (hses : SessionOk db ses) (hother : SessionOk db other)
    (hdisjoint : ∀ lock ∈ ses.locks, lock ∉ other.locks)
    (hsequences : ∀ e ∈ db.events, e.sequence ≤ db.lastSequence) :
    SessionOk (other.view db) ses where
  early := by
    intro hearly
    obtain ⟨htouched, hlast⟩ := hses.early hearly
    exact ⟨htouched, hlast.trans le_view_lastSequence⟩
  sequence := fun hlt => hses.sequence (le_view_lastSequence.trans_lt hlt)
  prepared := by
    intro hlate
    obtain ⟨target, fresh, hprepared⟩ := hses.prepared hlate
    exact ⟨target, fresh, hprepared.frame hses hother hdisjoint hsequences⟩

end Frame

/-! ## All transactions -/

/-- The invariant of the system of transactions. -/
structure SessionsOk (s : State) : Prop where
  sessions : ∀ ses ∈ s.sessions, SessionOk s.db ses
  exclusive : ∀ a ∈ s.sessions, ∀ b ∈ s.sessions, a.id ≠ b.id →
    ∀ lock ∈ a.locks, lock ∉ b.locks
  ids : IdsStripped s.db.toDatabase
  sequences : ∀ e ∈ s.db.events, e.sequence ≤ s.db.lastSequence

variable {s s' : State} {ses : Session}

theorem SessionsOk.empty : SessionsOk {} := by
  constructor <;> intro x hx <;> exact absurd hx Table.not_mem_empty

theorem SessionsOk.started {id : Nat} {cmd : PgCommand} {sessions : Table Session Nat Session.id}
    (h : SessionsOk s) (hins : s.sessions.insert? { id := id, call := cmd } = some sessions) :
    SessionsOk { s with sessions := sessions } where
  sessions := by
    intro ses hses
    rcases (Table.mem_of_insert? hins).mp hses with hold | rfl
    · exact h.sessions ses hold
    · exact ⟨fun _ => ⟨rfl, Nat.zero_le _⟩, fun hlt => absurd hlt (Nat.not_lt_zero _),
        fun hlate => absurd trivial hlate⟩
  exclusive := by
    intro a ha b hb hne lock hlock hlock'
    rcases (Table.mem_of_insert? hins).mp ha with ha | rfl
    · rcases (Table.mem_of_insert? hins).mp hb with hb | rfl
      · exact h.exclusive a ha b hb hne lock hlock hlock'
      · cases hlock'
    · cases hlock
  ids := h.ids
  sequences := h.sequences

theorem SessionsOk.advanced {stage : Stage} {own : PgDatabase} (h : SessionsOk s)
    (hses : ses ∈ s.sessions) (hrun : Tx.Returns (ses.stage.body cfg rd) (ses.view s.db) stage own)
    (hfree : s.Free ses.id (ses.advance s.db stage own).locks) :
    SessionsOk { s with sessions := s.sessions.upsert (ses.advance s.db stage own) } where
  sessions := by
    intro other hother
    rcases Table.mem_upsert.mp hother with rfl | ⟨hold, -⟩
    · exact (h.sessions ses hses).advance h.ids hrun
    · exact h.sessions other hold
  exclusive := by
    intro a ha b hb hne lock hlock hlock'
    rcases Table.mem_upsert.mp ha with rfl | ⟨ha, hane⟩
    · rcases Table.mem_upsert.mp hb with rfl | ⟨hb, hbne⟩
      · exact absurd rfl hne
      · exact hfree b hb hbne lock hlock hlock'
    · rcases Table.mem_upsert.mp hb with rfl | ⟨hb, -⟩
      · exact hfree a ha hane lock hlock' hlock
      · exact h.exclusive a ha b hb hne lock hlock hlock'
  ids := h.ids
  sequences := h.sequences

theorem SessionsOk.dropped (h : SessionsOk s) (id : Nat) : SessionsOk (s.drop id) where
  sessions := fun ses hses => h.sessions ses (Table.mem_deleteWhere.mp hses).1
  exclusive := fun a ha b hb =>
    h.exclusive a (Table.mem_deleteWhere.mp ha).1 b (Table.mem_deleteWhere.mp hb).1
  ids := h.ids
  sequences := h.sequences

/-- What a transaction in its last stage commits. -/
theorem SessionsOk.prepared {reply : PgReply} (h : SessionsOk s) (hses : ses ∈ s.sessions)
    (hstage : ses.stage = .commit reply) :
    ∃ target fresh, Prepared target fresh s.db ses ∧
      announced (fresh.map EventRow.draft) = target.toList := by
  have hlate : ¬ ses.stage.Early := by rw [hstage]; exact id
  obtain ⟨target, fresh, hprepared⟩ := (h.sessions ses hses).prepared hlate
  have htold := hprepared.told
  rw [hstage] at htold
  exact ⟨target, fresh, hprepared, by simpa [Stage.drafts] using htold⟩

theorem SessionsOk.published {reply : PgReply} (h : SessionsOk s) (hses : ses ∈ s.sessions)
    (hstage : ses.stage = .commit reply) : SessionsOk (s.publish ses) := by
  obtain ⟨target, fresh, hprepared, -⟩ := h.prepared hses hstage
  constructor
  · intro other hother
    obtain ⟨hother, hne⟩ := Table.mem_deleteWhere.mp hother
    exact (h.sessions other hother).frame (h.sessions ses hses)
      (h.exclusive other hother ses hses hne) h.sequences
  · intro a ha b hb
    exact h.exclusive a (Table.mem_deleteWhere.mp ha).1 b (Table.mem_deleteWhere.mp hb).1
  · intro r hr
    by_cases htarget : ∀ m ∈ target, r.id ≠ m.id
    · obtain ⟨r', hr', hsame⟩ := hprepared.rows r hr htarget
      rw [hsame.identity.id]
      exact h.ids r' hr'
    · push Not at htarget
      obtain ⟨m, hm, hid⟩ := htarget
      obtain ⟨-, s', hs', hsid, -, hdecode⟩ := hprepared.row m hm
      obtain rfl := Table.eq_of_key hr hs' (hid.trans hsid.symm)
      exact (messageFromRow_ok hdecode).1.symm.trans hid.symm
  · intro e he
    rcases hprepared.events e he with hfresh | hcommitted | ⟨e₀, he₀, rfl, -⟩
    · exact (hprepared.appended e hfresh).2.2
    · exact (h.sequences e hcommitted).trans le_view_lastSequence
    · exact (h.sequences e₀ he₀).trans le_view_lastSequence

/-- Every step keeps the invariant. -/
theorem SessionsOk.step {action : Action} (h : SessionsOk s) (hstep : SessionStep cfg s action s') :
    SessionsOk s' := by
  cases hstep.moves with
  | started id cmd sessions hins => exact h.started hins
  | advanced rd ses stage own hses hrun hfree => exact h.advanced hses hrun hfree
  | committed ses reply hses hstage => exact h.published hses hstage
  | dropped action id => exact h.dropped id

/-- Every reachable state satisfies the invariant. -/
theorem SessionReachable.sessionsOk (h : SessionReachable cfg s) : SessionsOk s := by
  refine Reachable.invariant ?_ (fun _ _ _ hs hstep => hs.step hstep) h
  rintro s rfl
  exact SessionsOk.empty

end Postgres
end ChatEngine
