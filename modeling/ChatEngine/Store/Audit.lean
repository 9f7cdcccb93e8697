import ChatEngine.Lib.Trail
import ChatEngine.Store.Newest

/-!
# The audit trail

What every call owes the audit trail, told from its arguments, its reply and the databases before
and after it, and what the trail then holds after any run.

* `Command.auditRows`, the entries of one call; `Excess`, what a create makes its trim remove;
* `audited`: a call that returns appends exactly its entries to the capped trail;
* `AuditStep`, the runs with the history of all entries, and `audit_complete`, for every run.
-/

namespace ChatEngine
namespace Store

open Lib
open Models

/-! ## The entries of a call -/

/-- A room carries a flag. -/
def roomFlag (flag : RoomRow → Option Timestamp) (roomId : String) (db : Database) : Bool :=
  (db.rooms.find? roomId).any fun r => (flag r).isSome

/-- A message carries a mark. -/
def messageMark (mark : MessageRow → Option Timestamp) (messageId : String) (db : Database) :
    Bool :=
  (db.messages.find? messageId).any fun r => (mark r).isSome

/-- The entry of a flag that is not what it was. -/
def flagRows (flag : RoomRow → Option Timestamp) (on off : AuditAction) (id : UuidHex)
    (createdAt : Timestamp) (roomId actor : String) (db db' : Database) : List AuditRow :=
  if roomFlag flag roomId db' = roomFlag flag roomId db then []
  else
    [{ id := id.text, action := if roomFlag flag roomId db' = true then on else off,
       actor := actor, roomId := roomId, createdAt := createdAt }]

/-- A message is past the configured age. -/
def TooOld (cfg : Config) (now : Timestamp) (r : MessageRow) : Prop :=
  ∃ cutoff ∈ retentionCutoff cfg now, r.createdAt < cutoff

instance (cfg : Config) (now : Timestamp) : DecidablePred (TooOld cfg now) := by
  intro r
  unfold TooOld
  infer_instance

/-- How many messages one more message in a room puts past the age and the two caps. -/
structure Excess where
  aged : Nat
  room : Nat
  store : Nat
  deriving DecidableEq, Repr

/-- The messages past their age go first, then what the room and then what the store hold too
many, the new message counted. -/
def excessOf (cfg : Config) (roomId : String) (now : Timestamp) (db : Database) : Excess :=
  let aged := db.messages.countWhere (TooOld cfg now)
  let inRoom := db.messages.countWhere fun r => r.roomId = roomId ∧ ¬ TooOld cfg now r
  let room := inRoom + 1 - cfg.maxStoredMessagesPerRoom
  { aged := aged, room := room,
    store := db.messages.count - aged + 1 - room - cfg.maxStoredMessages }

/-- The entry of a create that left fewer messages than one more than before. -/
def trimRows (cfg : Config) (id : UuidHex) (createdAt now : Timestamp) (roomId : String)
    (db db' : Database) : List AuditRow :=
  if db'.messages.count = db.messages.count + 1 then []
  else
    [{ id := id.text, action := .retentionAutomatic, actor := "system:retention",
       createdAt := createdAt,
       details := .automatic (excessOf cfg roomId now db).aged (excessOf cfg roomId now db).store
         (excessOf cfg roomId now db).room roomId (retentionCutoff cfg now) }]

/-- The entries of a call that returned, with the databases before and after it. -/
def Command.auditRows (cfg : Config) (rd : Readings) (db db' : Database) :
    Command → Reply → List AuditRow
  | createRoom payload actor, _ =>
      [{ id := (rd.uuid 1).text, action := .roomCreated, actor := actor,
         roomId := some (payload.id.getD (rd.uuid 0).roomId).val, createdAt := rd.now 1 }]
  | setRoomState roomId _ _ actor, _ =>
      flagRows RoomRow.archivedAt .roomArchived .roomUnarchived (rd.uuid 0) (rd.now 1) roomId actor
          db db' ++
        flagRows RoomRow.frozenAt .roomFrozen .roomUnfrozen (rd.uuid 1) (rd.now 3) roomId actor
          db db'
  | deleteRoom roomId actor, .count n =>
      [{ id := (rd.uuid 0).text, action := .roomDeleted, actor := actor, roomId := roomId,
         createdAt := rd.now 0, details := .deletedMessages n }]
  | recordExportRequested roomId actor, _ =>
      [{ id := (rd.uuid 0).text, action := .roomExportRequested, actor := actor, roomId := roomId,
         createdAt := rd.now 0 }]
  | createMessage args, .message _ true =>
      trimRows cfg (rd.uuid 1) (rd.now 2) (rd.now 1) args.roomId db db'
  | updateMessage args, _ =>
      [{ id := (rd.uuid 0).text, action := .messageUpdated, actor := args.actor,
         roomId := args.roomId, createdAt := rd.now 2, details := .message args.messageId }]
  | deleteMessage args, _ =>
      if messageMark MessageRow.deletedAt args.messageId db' =
          messageMark MessageRow.deletedAt args.messageId db then []
      else
        [{ id := (rd.uuid 0).text, action := .messageDeleted, actor := args.actor,
           roomId := args.roomId, createdAt := rd.now 2, details := .message args.messageId }]
  | setMessagePin args, _ =>
      if messageMark MessageRow.pinnedAt args.messageId db' =
          messageMark MessageRow.pinnedAt args.messageId db then []
      else
        [{ id := (rd.uuid 0).text, action := .messagePinUpdated, actor := args.actor,
           roomId := args.roomId, createdAt := rd.now 2,
           details := .pin args.messageId args.pinned }]
  | setMemberModeration roomId subject _ actor, .moderation m =>
      [{ id := (rd.uuid 0).text, action := .memberModerationUpdated, actor := actor,
         roomId := roomId, createdAt := rd.now 1,
         details := .moderation subject m.mutedUntil m.bannedUntil }]
  | runRetention actor, .retention deleted cutoff =>
      [{ id := (rd.uuid 0).text, action := .retentionExecuted, actor := actor,
         createdAt := rd.now 1, details := .executed deleted cutoff }]
  | _, _ => []

/-- The trail of the second database is that of the first with the rows appended. -/
def AuditsAll (cfg : Config) (rows : List AuditRow) (db db' : Database) : Prop :=
  Table.AppendsAll AuditRow.createdAt cfg.maxAuditEvents rows db.auditEvents db'.auditEvents

section Inserts

variable {cfg : Config} {rd : Readings} {db db' : Database}

theorem AuditsAll.none (h : db'.auditEvents = db.auditEvents) : AuditsAll cfg [] db db' := h

theorem AuditsAll.congr {t t' : Database} {rows : List AuditRow} (h : AuditsAll cfg rows t t')
    (hbefore : t.auditEvents = db.auditEvents) (hafter : db'.auditEvents = t'.auditEvents) :
    AuditsAll cfg rows db db' := by
  unfold AuditsAll at *
  rw [← hbefore, hafter]
  exact h

theorem insertAudit_audits {id : UuidHex} {createdAt : Timestamp} {action : AuditAction}
    {actor : String} {roomId : Option String} {details : AuditDetails} {u : Unit}
    (h : Tx.Returns (insertAudit cfg id createdAt action actor roomId details) db u db') :
    AuditsAll cfg
      [{ id := id.text, action := action, actor := actor, roomId := roomId,
         createdAt := createdAt, details := details }] db db' := by
  unfold insertAudit at h
  simp only [Tx.returns_bind, Tx.returns_read, Tx.returns_orRaise, Tx.returns_write] at h
  obtain ⟨_, _, ⟨rfl, rfl⟩, inserted, _, ⟨hinsert, rfl⟩, rfl⟩ := h
  exact Table.appendsAll_singleton.mpr ⟨inserted, hinsert, rfl⟩

end Inserts

section Calls

variable {cfg : Config} {rd : Readings} {db db' : Database}

/-! ## Rooms -/

theorem createRoom_audits {payload : RoomCreate} {actor : String} {room : Room}
    (h : Tx.Returns (createRoom cfg rd payload actor) db room db') :
    AuditsAll cfg ((Command.createRoom payload actor).auditRows cfg rd db db' (.room room))
      db db' := by
  unfold createRoom at h
  simp only [Tx.returns_bind, Tx.returns_read, Tx.returns_require, Tx.returns_orRaise,
    Tx.returns_write, Tx.returns_pure] at h
  obtain ⟨_, _, ⟨rfl, rfl⟩, _, _, ⟨-, rfl⟩, _, _, ⟨rfl, rfl⟩, inserted, _, ⟨-, rfl⟩, _, _,
    rfl, _, _, haudit, rfl, rfl⟩ := h
  exact (insertAudit_audits haudit).congr rfl rfl

theorem deleteRoom_audits {roomId actor : String} {n : Nat}
    (h : Tx.Returns (deleteRoom cfg rd roomId actor) db n db') :
    AuditsAll cfg ((Command.deleteRoom roomId actor).auditRows cfg rd db db' (.count n)) db db' := by
  unfold deleteRoom scrubRoomWebhooks at h
  simp only [Tx.returns_bind, Tx.returns_read, Tx.returns_orRaise, Tx.returns_require,
    Tx.returns_write, Tx.returns_pure] at h
  obtain ⟨_, _, ⟨rfl, rfl⟩, row, _, ⟨-, rfl⟩, _, _, ⟨-, rfl⟩, _, _, ⟨rfl, rfl⟩, _, _,
    haudit, _, _, rfl, _, _, rfl, rfl, rfl⟩ := h
  exact (insertAudit_audits haudit).congr rfl rfl

theorem recordExportRequested_audits {roomId actor : String} {u : Unit}
    (h : Tx.Returns (recordExportRequested cfg rd roomId actor) db u db') :
    AuditsAll cfg ((Command.recordExportRequested roomId actor).auditRows cfg rd db db' .unit)
      db db' := by
  unfold recordExportRequested at h
  simp only [Tx.returns_bind, Tx.returns_read, Tx.returns_orRaise] at h
  obtain ⟨_, _, ⟨rfl, rfl⟩, _, _, ⟨-, rfl⟩, haudit⟩ := h
  exact insertAudit_audits haudit

theorem roomFlag_eq {flag : RoomRow → Option Timestamp} {roomId : String} {row : RoomRow}
    (h : db.rooms.find? roomId = some row) : roomFlag flag roomId db = (flag row).isSome := by
  unfold roomFlag
  rw [h]
  rfl

/-- What one flag of a room-state call does: its own entry, and to its own flag only. -/
structure FlagSet (cfg : Config) (flag : RoomRow → Option Timestamp)
    (set : Option Timestamp → RoomRow → RoomRow) (on off : AuditAction) (id : UuidHex)
    (createdAt : Timestamp) (roomId actor : String) (row : RoomRow) (db db' : Database) : Prop where
  audits : AuditsAll cfg (flagRows flag on off id createdAt roomId actor db db') db db'
  row : db'.rooms.find? roomId = some row ∨ ∃ t, db'.rooms.find? roomId = some (set t row)

theorem setRoomFlag_audits {id : UuidHex} {stampedAt createdAt : Timestamp}
    {roomId actor : String} {requested : Option Bool} {flag : RoomRow → Option Timestamp}
    {set : Option Timestamp → RoomRow → RoomRow} {hkey : ∀ t r, (set t r).key = r.key}
    {on off : AuditAction} {row : RoomRow} {changed : Bool} {stored : Option Timestamp}
    (hset : ∀ t r, flag (set t r) = t) (hrow : db.rooms.find? roomId = some row)
    (hstored : stored = flag row)
    (h : Tx.Returns (setRoomFlag cfg id stampedAt createdAt roomId actor requested stored set
      hkey on off) db changed db') :
    FlagSet cfg flag set on off id createdAt roomId actor row db db' := by
  have hsame : db' = db → FlagSet cfg flag set on off id createdAt roomId actor row db db' := by
    rintro rfl
    refine ⟨?_, .inl hrow⟩
    unfold flagRows
    rw [if_pos rfl]
    exact AuditsAll.none rfl
  unfold setRoomFlag at h
  cases requested with
  | none => exact hsame (Tx.returns_pure.mp h).2
  | some wanted =>
      simp only [Tx.returns_ite, Tx.returns_bind, Tx.returns_write, Tx.returns_pure] at h
      rcases h with ⟨-, -, rfl⟩ | ⟨hdiffers, _, _, rfl, _, _, haudit, -, rfl⟩
      · exact hsame rfl
      · have hrooms := (insertAudit_same haudit).rooms
        have hafter : db'.rooms.find? roomId =
            some (set (if wanted = true then some stampedAt else none) row) := by
          rw [hrooms]
          unfold Database.setRoom
          rw [Table.find?_updateWhere, hrow, Option.map_some,
            if_pos (Table.find?_eq_some.mp hrow).2]
        refine ⟨?_, .inr ⟨_, hafter⟩⟩
        have hwanted : roomFlag flag roomId db' = wanted := by
          rw [roomFlag_eq hafter, hset]
          cases wanted <;> rfl
        unfold flagRows
        rw [hwanted, roomFlag_eq hrow, if_neg fun heq => hdiffers (hstored ▸ heq.symm)]
        exact (insertAudit_audits haudit).congr rfl rfl

theorem setRoomState_audits {roomId actor : String} {archived frozen : Option Bool}
    {reply : Room × RoomChanges}
    (h : Tx.Returns (setRoomState cfg rd roomId archived frozen actor) db reply db') :
    AuditsAll cfg
      (flagRows RoomRow.archivedAt .roomArchived .roomUnarchived (rd.uuid 0) (rd.now 1) roomId
          actor db db' ++
        flagRows RoomRow.frozenAt .roomFrozen .roomUnfrozen (rd.uuid 1) (rd.now 3) roomId actor
          db db') db db' := by
  unfold setRoomState at h
  simp only [Tx.returns_bind, Tx.returns_read, Tx.returns_orRaise, Tx.returns_pure] at h
  obtain ⟨_, _, ⟨rfl, rfl⟩, row, start, ⟨hrow, rfl⟩, _, between, harchived, _, _, hfrozen, _, _,
    ⟨rfl, rfl⟩, _, _, ⟨-, rfl⟩, -, rfl⟩ := h
  have hfirst : FlagSet cfg RoomRow.archivedAt _ _ _ _ _ _ _ _ _ _ :=
    setRoomFlag_audits (fun _ _ => rfl) hrow rfl harchived
  -- neither flag touches the other one
  obtain ⟨mid, hmid, hmidFrozen⟩ : ∃ mid, between.rooms.find? roomId = some mid ∧
      mid.frozenAt = row.frozenAt := by
    rcases hfirst.row with hkept | ⟨t, hset⟩
    · exact ⟨row, hkept, rfl⟩
    · exact ⟨_, hset, rfl⟩
  have hsecond : FlagSet cfg RoomRow.frozenAt _ _ _ _ _ _ _ _ _ _ :=
    setRoomFlag_audits (fun _ _ => rfl) hmid hmidFrozen.symm hfrozen
  obtain ⟨last, hlast, hlastArchived⟩ : ∃ last, db'.rooms.find? roomId = some last ∧
      last.archivedAt = mid.archivedAt := by
    rcases hsecond.row with hkept | ⟨t, hset⟩
    · exact ⟨mid, hkept, rfl⟩
    · exact ⟨_, hset, rfl⟩
  have harchivedFlag : roomFlag RoomRow.archivedAt roomId db' =
      roomFlag RoomRow.archivedAt roomId between := by
    rw [roomFlag_eq hlast, roomFlag_eq hmid, hlastArchived]
  have hfrozenFlag : roomFlag RoomRow.frozenAt roomId start =
      roomFlag RoomRow.frozenAt roomId between := by
    rw [roomFlag_eq hrow, roomFlag_eq hmid, hmidFrozen]
  have hall := Table.AppendsAll.append hfirst.audits hsecond.audits
  unfold flagRows at hall ⊢
  rw [harchivedFlag, hfrozenFlag]
  exact hall

/-! ## Messages -/

theorem messageMark_eq {mark : MessageRow → Option Timestamp} {messageId : String}
    {row : MessageRow} (hrow : row ∈ db.messages) (hid : row.id = messageId) :
    messageMark mark messageId db = (mark row).isSome := by
  unfold messageMark
  rw [Table.find?_eq_some.mpr ⟨hrow, hid⟩]
  rfl

/-- The mark of a message that was rewritten. -/
theorem messageMark_set {mark : MessageRow → Option Timestamp} {messageId : String}
    {row : MessageRow} {f : MessageRow → MessageRow} {hf : ∀ r, (f r).id = r.id}
    (hrow : row ∈ db.messages) (hid : row.id = messageId)
    (hafter : db'.messages = (db.setMessage messageId f hf).messages) :
    messageMark mark messageId db' = (mark (f row)).isSome := by
  apply messageMark_eq _ ((hf row).trans hid)
  rw [hafter]
  exact mem_setMessage.mpr (.inr ⟨row, hrow, hid, rfl⟩)

theorem updateMessage_audits {args : UpdateMessage} {m : Message}
    (h : Tx.Returns (updateMessage cfg rd args) db m db') :
    AuditsAll cfg ((Command.updateMessage args).auditRows cfg rd db db' (.message m true))
      db db' := by
  unfold updateMessage at h
  simp only [Tx.returns_bind, Tx.returns_require, Tx.returns_pure, returns_requireOpenRoom,
    returns_enforceMemberWrite, returns_requireMessage, returns_updateMessageRow,
    returns_rereadMessage, returns_insertWebhook] at h
  obtain ⟨_, _, ⟨-, rfl⟩, _, _, ⟨-, rfl⟩, row, _, ⟨-, rfl⟩, _, _, ⟨-, rfl⟩, _, _, ⟨-, rfl⟩, _, _,
    ⟨-, rfl⟩, _, _, haudit, message, _, ⟨-, rfl⟩, _, _, ⟨t, -, rfl⟩, rfl, rfl⟩ := h
  exact (insertAudit_audits haudit).congr rfl rfl

theorem deleteLiveMessage_audits {args : DeleteMessage} {reply : Message × Bool}
    (h : Tx.Returns (deleteLiveMessage cfg rd args) db reply db') :
    AuditsAll cfg
      [{ id := (rd.uuid 0).text, action := .messageDeleted, actor := args.actor,
         roomId := args.roomId, createdAt := rd.now 2, details := .message args.messageId }]
      db db' := by
  unfold deleteLiveMessage scrubMessageWebhooks at h
  simp only [Tx.returns_bind, Tx.returns_write, Tx.returns_pure, returns_updateMessageRow,
    returns_rereadMessage, returns_insertWebhook] at h
  obtain ⟨_, _, rfl, _, _, ⟨-, rfl⟩, _, _, haudit, message, _, ⟨-, rfl⟩, _, _, rfl, _, _,
    ⟨t, -, rfl⟩, -, rfl⟩ := h
  exact (insertAudit_audits haudit).congr rfl rfl

theorem deleteMessage_audits {args : DeleteMessage} {m : Message} {changed : Bool}
    (h : Tx.Returns (deleteMessage cfg rd args) db (m, changed) db') :
    AuditsAll cfg ((Command.deleteMessage args).auditRows cfg rd db db' (.message m changed))
      db db' := by
  obtain ⟨-, -, row, hrow, hid, -, -, hcases⟩ := deleteMessage_ok h
  show AuditsAll cfg (if messageMark MessageRow.deletedAt args.messageId db' =
    messageMark MessageRow.deletedAt args.messageId db then [] else _) db db'
  rcases hcases with ⟨-, rfl, -⟩ | ⟨-, hdeleted⟩
  · rw [if_pos rfl]
    exact AuditsAll.none rfl
  · have hbefore : messageMark MessageRow.deletedAt args.messageId db = false := by
      rw [messageMark_eq hrow hid, hdeleted.live]
      rfl
    have hafter : messageMark MessageRow.deletedAt args.messageId db' = true := by
      have hmessages : db'.messages = (db.setMessage args.messageId
          (MessageRow.tombstone (rd.now 1)) (MessageRow.tombstone_id _)).messages :=
        hdeleted.commits.messages
      rw [messageMark_set hrow hid hmessages]
      rfl
    rw [hbefore, hafter, if_neg (by decide)]
    unfold deleteMessage at h
    simp only [Tx.returns_bind, Tx.returns_require, Tx.returns_ite, Tx.returns_pure,
      returns_requireDeletableRoom, returns_enforceMemberWrite, returns_requireMessage,
      returns_validated] at h
    obtain ⟨_, _, ⟨-, rfl⟩, _, _, ⟨-, rfl⟩, target, _, ⟨⟨htarget, htargetId, -⟩, rfl⟩, _, _,
      ⟨-, rfl⟩, ⟨hgone, -⟩ | ⟨-, hrest⟩⟩ := h
    · rw [Table.eq_of_key htarget hrow (htargetId.trans hid.symm)] at hgone
      exact absurd hdeleted.live hgone
    · exact deleteLiveMessage_audits hrest

theorem setMessagePin_audits {args : SetMessagePin} {mutation : PinMutation}
    (h : Tx.Returns (setMessagePin cfg rd args) db mutation db') :
    AuditsAll cfg ((Command.setMessagePin args).auditRows cfg rd db db' (.pin mutation))
      db db' := by
  obtain ⟨-, row, hrow, hid, -, -, hcases⟩ := setMessagePin_ok h
  show AuditsAll cfg (if messageMark MessageRow.pinnedAt args.messageId db' =
    messageMark MessageRow.pinnedAt args.messageId db then [] else _) db db'
  rcases hcases with ⟨-, rfl, -⟩ | hpinned
  · rw [if_pos rfl]
    exact AuditsAll.none rfl
  · have hbefore : messageMark MessageRow.pinnedAt args.messageId db ≠ args.pinned := by
      rw [messageMark_eq hrow hid]
      exact hpinned.differs
    have hafter : messageMark MessageRow.pinnedAt args.messageId db' = args.pinned := by
      rw [messageMark_set hrow hid hpinned.commits.messages]
      unfold SetMessagePin.apply
      cases args.pinned <;> rfl
    rw [hafter, if_neg hbefore.symm]
    unfold setMessagePin at h
    simp only [Tx.returns_bind, Tx.returns_require, Tx.returns_ite, Tx.returns_pure,
      returns_requireOpenRoom, returns_enforceMemberWrite, returns_requireMessage,
      returns_validated, returns_updateMessageRow, returns_rereadMessage,
      returns_insertWebhook] at h
    obtain ⟨_, _, ⟨-, rfl⟩, _, _, ⟨-, rfl⟩, target, _, ⟨⟨htarget, htargetId, -⟩, rfl⟩, _, _,
      ⟨-, rfl⟩, hrest⟩ := h
    rcases hrest with ⟨-, _, _, ⟨-, rfl⟩, _, _, haudit, _, _, ⟨-, rfl⟩, _, _, ⟨-, rfl⟩, _, _,
      ⟨t, -, rfl⟩, -, rfl⟩ | ⟨hsame, -⟩
    · exact (insertAudit_audits haudit).congr rfl rfl
    · rw [Table.eq_of_key htarget hrow (htargetId.trans hid.symm)] at hsame
      exact absurd hpinned.differs hsame

theorem setMemberModeration_audits {roomId subject : String} {payload : MemberModerationUpdate}
    {actor : String} {moderation : MemberModeration}
    (h : Tx.Returns (setMemberModeration cfg rd roomId subject payload actor) db moderation db') :
    AuditsAll cfg ((Command.setMemberModeration roomId subject payload actor).auditRows cfg rd
      db db' (.moderation moderation)) db db' := by
  unfold setMemberModeration at h
  simp only [Tx.returns_bind, Tx.returns_read, Tx.returns_orRaise, Tx.returns_write,
    Tx.returns_pure, returns_insertWebhook] at h
  obtain ⟨_, _, ⟨rfl, rfl⟩, room, _, ⟨-, rfl⟩, _, _, ⟨rfl, rfl⟩, _, _, rfl, _, _, haudit, _, _,
    ⟨t, -, rfl⟩, rfl, rfl⟩ := h
  exact (insertAudit_audits haudit).congr rfl rfl

theorem runRetention_audits {actor : String} {reply : Nat × Timestamp}
    (h : Tx.Returns (runRetention cfg rd actor) db reply db') :
    AuditsAll cfg ((Command.runRetention actor).auditRows cfg rd db db'
      (.retention reply.1 reply.2)) db db' := by
  unfold runRetention at h
  cases hcutoff : retentionCutoff cfg (rd.now 0) with
  | none => simp [hcutoff] at h
  | some cutoff =>
      simp only [hcutoff, Tx.returns_bind, Tx.returns_pure,
        returns_deleteMessagesWithWebhookScrub] at h
      obtain ⟨_, _, ⟨rfl, rfl⟩, _, _, haudit, rfl, rfl⟩ := h
      exact (insertAudit_audits haudit).congr rfl rfl

theorem setMessageReaction_trail {args : SetMessageReaction} {mutation : ReactionMutation}
    (h : Tx.Returns (setMessageReaction cfg rd args) db mutation db') :
    db'.auditEvents = db.auditEvents := by
  unfold setMessageReaction refreshReactions at h
  simp only [Tx.returns_bind, Tx.returns_read, Tx.returns_require, Tx.returns_ite,
    Tx.returns_pure, returns_requireOpenRoom, returns_enforceMemberWrite,
    returns_requireMessage, returns_validated, returns_updateMessageRow,
    returns_rereadMessage, returns_insertWebhook] at h
  obtain ⟨_, _, ⟨-, rfl⟩, _, _, ⟨-, rfl⟩, row, _, ⟨-, rfl⟩, _, _, ⟨-, rfl⟩, changed, _, hchange,
    hrest⟩ := h
  rcases changeReaction_ok hchange with ⟨rfl, rfl, -⟩ | ⟨rfl, t, -, rfl⟩
  · rcases hrest with ⟨hfalse, -⟩ | ⟨-, message, _, ⟨-, rfl⟩, -, rfl⟩
    · cases hfalse
    · rfl
  · rcases hrest with ⟨-, _, _, ⟨_, _, ⟨rfl, rfl⟩, summaries, _, ⟨-, rfl⟩, -, rfl⟩, message, _,
      ⟨-, rfl⟩, built, _, ⟨-, rfl⟩, _, _, ⟨outbox, -, rfl⟩, -, rfl⟩ | ⟨hfalse, -⟩
    · rfl
    · exact absurd rfl hfalse

/-! ## The trim of a create -/

theorem length_pastAge {now : Timestamp} :
    (pastAge cfg now db).length = db.messages.countWhere (TooOld cfg now) := by
  unfold pastAge olderThan Table.countWhere
  cases hcutoff : retentionCutoff cfg now with
  | none =>
      have hnone : db.messages.rows.filter (fun r => decide (TooOld cfg now r)) = [] := by
        apply List.filter_eq_nil_iff.mpr
        intro r _ hold
        obtain ⟨cutoff, hmem, -⟩ := of_decide_eq_true hold
        rw [hcutoff] at hmem
        cases hmem
      rw [hnone]
  | some cutoff =>
      congr 1
      apply List.filter_congr
      intro r _
      unfold TooOld
      simp [hcutoff]

theorem mem_pastAge_iff {now : Timestamp} {r : MessageRow} (hr : r ∈ db.messages) :
    r ∈ pastAge cfg now db ↔ TooOld cfg now r := by
  unfold pastAge olderThan TooOld
  cases retentionCutoff cfg now with
  | none => simp
  | some cutoff =>
      simp only [List.mem_filter, decide_eq_true_eq, Option.mem_def, Option.some.injEq,
        exists_eq_left']
      exact and_iff_right hr

/-- A message of this moment is not too old. -/
theorem not_tooOld {now : Timestamp} {r : MessageRow} (h : r.createdAt = now) :
    ¬ TooOld cfg now r := by
  rintro ⟨cutoff, hcutoff, hlt⟩
  unfold retentionCutoff at hcutoff
  cases hdays : cfg.messageRetentionDays with
  | none =>
      rw [hdays] at hcutoff
      cases hcutoff
  | some d =>
      rw [hdays] at hcutoff
      obtain rfl := Option.some.inj hcutoff
      rw [h] at hlt
      have hspan : 0 ≤ days d := by
        unfold days
        omega
      exact absurd hlt (Int.not_lt.mpr (Int.sub_le_self now hspan))

/-- The messages of a database, however many of them are asked for. -/
theorem countWhere_true (db : Database) :
    db.messages.countWhere (fun _ => True) = db.messages.count := by
  unfold Table.countWhere Table.count
  simp

theorem count_removeBatch {batch : List MessageRow} (hbatch : ∀ b ∈ batch, b ∈ db.messages)
    (hnodup : batch.Nodup) :
    (db.removeBatch batch).messages.count + batch.length = db.messages.count := by
  have h := countWhere_removeBatch_add (p := fun _ => True) (fun _ _ _ => Iff.rfl)
    (fun b hb => ⟨hbatch b hb, trivial⟩) hnodup
  rwa [countWhere_true, countWhere_true] at h

theorem TooOld.identity {now : Timestamp} {r s : MessageRow} (h : SameIdentity r s) :
    TooOld cfg now r ↔ TooOld cfg now s := by
  unfold TooOld
  rw [h.createdAt]

theorem pastAge_nodup {now : Timestamp} : (pastAge cfg now db).Nodup := by
  unfold pastAge
  cases retentionCutoff cfg now with
  | none => exact List.nodup_nil
  | some cutoff => exact db.messages.rows_nodup.filter _

/-- After the age pass no message is too old. -/
theorem inRoom_afterAge {roomId : String} {now : Timestamp} :
    (db.removeBatch (pastAge cfg now db)).messages.countWhere (fun r => r.roomId = roomId) =
      db.messages.countWhere fun r => r.roomId = roomId ∧ ¬ TooOld cfg now r := by
  have hbatch : ∀ b ∈ pastAge cfg now db, b ∈ db.messages := fun b hb => mem_pastAge hb
  have hyoung : ∀ s ∈ (db.removeBatch (pastAge cfg now db)).messages, ¬ TooOld cfg now s := by
    intro s hs
    obtain ⟨r, hr, hout, hrs⟩ := mem_removeBatch hs
    rw [← TooOld.identity hrs.identity, ← mem_pastAge_iff hr]
    exact (not_mem_batch_iff hbatch hr).mp hout
  rw [← countWhere_removeBatch _ hbatch]
  · unfold Table.countWhere
    congr 1
    apply List.filter_congr
    intro s hs
    have hkept := hyoung s hs
    simp only [hkept, not_false_eq_true, and_true]
  · intro b hb hkept
    exact hkept.2 ((mem_pastAge_iff (hbatch b hb)).mp hb)
  · intro r s hrs
    rw [hrs.roomId, TooOld.identity hrs]

theorem length_pastRoomCap {roomId : String} :
    (pastRoomCap cfg roomId db).length =
      db.messages.countWhere (fun r => r.roomId = roomId) - cfg.maxStoredMessagesPerRoom := by
  have hlength : (pastRoomCap cfg roomId db).length =
      min ((roomRows roomId db).length - cfg.maxStoredMessagesPerRoom)
        (roomRows roomId db).length := length_firstBy
  rw [hlength]
  exact Nat.min_eq_left (Nat.sub_le _ _)

theorem length_pastGlobalCap :
    (pastGlobalCap cfg db).length = db.messages.count - cfg.maxStoredMessages := by
  have hlength : (pastGlobalCap cfg db).length =
      min (db.messages.count - cfg.maxStoredMessages) db.messages.count := length_firstBy
  rw [hlength]
  exact Nat.min_eq_left (Nat.sub_le _ _)

/-- What the three passes of a trim remove. -/
structure TrimRemoves (cfg : Config) (roomId : String) (now : Timestamp) (base : Database)
    (e : Excess) : Prop where
  aged : (pastAge cfg now base).length = e.aged
  room : (pastRoomCap cfg roomId (base.removeBatch (pastAge cfg now base))).length = e.room
  store : (pastGlobalCap cfg ((base.removeBatch (pastAge cfg now base)).removeBatch
    (pastRoomCap cfg roomId (base.removeBatch (pastAge cfg now base))))).length = e.store
  left : (base.trim cfg roomId now).messages.count + (e.aged + e.room + e.store) =
    base.messages.count

/-- A trim after the insert of a message of the room, dated with it. -/
theorem trim_removes {roomId : String} {now : Timestamp} {row : MessageRow}
    {inserted : Table MessageRow String MessageRow.id}
    (hins : db.messages.insert? row = some inserted) (hroom : row.roomId = roomId)
    (hdate : row.createdAt = now) :
    TrimRemoves cfg roomId now { db with messages := inserted } (excessOf cfg roomId now db) := by
  have hnew : ¬ TooOld cfg now row := not_tooOld hdate
  have hinserted : ∀ (p : MessageRow → Prop) [DecidablePred p],
      inserted.countWhere p = db.messages.countWhere p + if p row then 1 else 0 := by
    intro p _
    unfold Table.countWhere
    rw [(Table.insert?_eq_some.mp hins).2, List.filter_append, List.length_append,
      List.filter_singleton]
    by_cases hp : p row <;> simp [hp]
  generalize hbase : ({ db with messages := inserted } : Database) = base
  have hrows : base.messages = inserted := by rw [← hbase]
  have hcount : base.messages.count = db.messages.count + 1 := by
    rw [hrows, Table.count_of_insert? hins]
  have haged : (pastAge cfg now base).length = (excessOf cfg roomId now db).aged := by
    rw [length_pastAge, hrows, hinserted, if_neg hnew]
    rfl
  have hageNodup : (pastAge cfg now base).Nodup := pastAge_nodup
  have hageCount := count_removeBatch (fun b hb => mem_pastAge hb) hageNodup
  have hroomExcess : (pastRoomCap cfg roomId (base.removeBatch (pastAge cfg now base))).length =
      (excessOf cfg roomId now db).room := by
    rw [length_pastRoomCap, inRoom_afterAge, hrows, hinserted, if_pos ⟨hroom, hnew⟩]
    rfl
  generalize hafterAge : base.removeBatch (pastAge cfg now base) = aged at hageCount hroomExcess
  have hroomCount := count_removeBatch (fun b hb => (mem_pastRoomCap hb).1)
    (firstBy_nodup (aged.messages.rows_nodup.filter _) : (pastRoomCap cfg roomId aged).Nodup)
  generalize hafterRoom : aged.removeBatch (pastRoomCap cfg roomId aged) = capped at hroomCount
  have hstoreExcess : (pastGlobalCap cfg capped).length = (excessOf cfg roomId now db).store := by
    show _ = db.messages.count - (excessOf cfg roomId now db).aged + 1 -
      (excessOf cfg roomId now db).room - cfg.maxStoredMessages
    rw [length_pastGlobalCap]
    have hold : (excessOf cfg roomId now db).aged ≤ db.messages.count :=
      Table.countWhere_le_count db.messages (TooOld cfg now)
    omega
  have hstoreCount := count_removeBatch (fun b hb => mem_pastGlobalCap hb)
    (firstBy_nodup capped.messages.rows_nodup : (pastGlobalCap cfg capped).Nodup)
  have htrim : base.trim cfg roomId now = capped.removeBatch (pastGlobalCap cfg capped) := by
    rw [← hafterRoom, ← hafterAge]
    rfl
  constructor
  · exact haged
  · rw [hafterAge]
    exact hroomExcess
  · rw [hafterAge, hafterRoom]
    exact hstoreExcess
  · rw [htrim]
    omega

theorem trimMessages_audits {roomId : String} {now auditAt : Timestamp} {auditId : UuidHex}
    {e : Excess} {u : Unit} (hremoves : TrimRemoves cfg roomId now db e)
    (h : Tx.Returns (trimMessages cfg roomId now auditId auditAt) db u db') :
    AuditsAll cfg (if e.aged = 0 ∧ e.room = 0 ∧ e.store = 0 then []
      else
        [{ id := auditId.text, action := .retentionAutomatic, actor := "system:retention",
           createdAt := auditAt,
           details := .automatic e.aged e.store e.room roomId (retentionCutoff cfg now) }])
      db db' := by
  unfold trimMessages at h
  simp only [Tx.returns_bind, Tx.returns_ite, Tx.returns_pure, returns_trimByAge,
    returns_deleteMessagesWithWebhookScrub] at h
  obtain ⟨_, _, ⟨haged, rfl⟩, _, _, ⟨hroom, rfl⟩, _, _, ⟨hstore, rfl⟩, haudit⟩ := h
  rw [hremoves.aged] at haged
  rw [hremoves.room] at hroom
  rw [hremoves.store] at hstore
  subst haged hroom hstore
  rcases haudit with ⟨hnone, -, rfl⟩ | ⟨hsome, haudit⟩
  · rw [if_pos hnone]
    exact AuditsAll.none rfl
  · rw [if_neg hsome]
    exact (insertAudit_audits haudit).congr rfl rfl

theorem createNewMessage_audits {args : CreateMessage} {m : Message} {created : Bool}
    (hroom : HasRoom db args.roomId)
    (h : Tx.Returns (createNewMessage cfg rd args) db (m, created) db') :
    AuditsAll cfg (trimRows cfg (rd.uuid 1) (rd.now 2) (rd.now 1) args.roomId db db') db db' := by
  unfold createNewMessage at h
  simp only [Tx.returns_bind, Tx.returns_read, Tx.returns_orRaise, Tx.returns_pure,
    returns_requireParent, returns_validated, returns_insertMessageRow,
    returns_insertWebhook] at h
  obtain ⟨_, _, ⟨-, rfl⟩, built, start, ⟨hbuild, rfl⟩, _, _, ⟨-, -, inserted, hins, rfl⟩, _,
    _, htrim, _, _, ⟨rfl, rfl⟩, row, _, ⟨-, rfl⟩, message, trimmed, ⟨-, rfl⟩, _, _,
    ⟨t, -, rfl⟩, -, rfl⟩ := h
  have hbuilt := Message.build_ok hbuild
  have hroomId : built.roomId = args.roomId := hbuilt.roomId.trans hroom.stripped
  have hdate : built.createdAt = rd.now 1 := hbuilt.createdAt
  have hremoves : TrimRemoves cfg args.roomId (rd.now 1) _ _ := trim_removes hins hroomId hdate
  rw [hdate] at htrim
  have haudits := trimMessages_audits hremoves htrim
  have hmessages := (trimMessages_same htrim).messages
  have hleft := hremoves.left
  rw [← hmessages] at hleft
  have hcount : inserted.count = start.messages.count + 1 := Table.count_of_insert? hins
  change trimmed.messages.count + _ = inserted.count at hleft
  have hnone : trimmed.messages.count = start.messages.count + 1 ↔
      (excessOf cfg args.roomId (rd.now 1) start).aged = 0 ∧
        (excessOf cfg args.roomId (rd.now 1) start).room = 0 ∧
        (excessOf cfg args.roomId (rd.now 1) start).store = 0 := by
    omega
  rw [← if_congr hnone rfl rfl] at haudits
  exact haudits.congr rfl rfl

theorem createMessage_audits {args : CreateMessage} {m : Message} {created : Bool}
    (h : Tx.Returns (createMessage cfg rd args) db (m, created) db') :
    AuditsAll cfg ((Command.createMessage args).auditRows cfg rd db db' (.message m created))
      db db' := by
  obtain ⟨hmay, ⟨rfl, rfl, -⟩ | ⟨rfl, -⟩⟩ := createMessage_ok h
  · exact AuditsAll.none rfl
  · obtain ⟨room, hroomRow, hroomKey, -⟩ := hmay.room
    have hroom : HasRoom db args.roomId := ⟨room, hroomRow, hroomKey⟩
    unfold createMessage at h
    simp only [Tx.returns_bind, Tx.returns_read, returns_requireOpenRoom,
      returns_enforceMemberWrite] at h
    obtain ⟨_, _, ⟨-, rfl⟩, _, _, ⟨-, rfl⟩, existing, _, ⟨hexisting, rfl⟩, hrest⟩ := h
    cases existing with
    | some row =>
        simp only [Tx.returns_bind, returns_validated, Tx.returns_pure] at hrest
        obtain ⟨message, _, -, hresult, -⟩ := hrest
        cases hresult
    | none => exact createNewMessage_audits hroom hrest

/-! ## Every call -/

/-- A call that returns appends its entries to the trail, and nothing else. -/
theorem audited {cmd : Command} {reply : Reply} (h : Tx.Returns (cmd.tx cfg rd) db reply db') :
    AuditsAll cfg (cmd.auditRows cfg rd db db' reply) db db' := by
  cases cmd with
  | createRoom payload actor =>
      obtain ⟨room, hok, rfl⟩ := Tx.returns_map.mp h
      exact createRoom_audits hok
  | setRoomState roomId archived frozen actor =>
      obtain ⟨reply, hok, rfl⟩ := Tx.returns_map.mp h
      exact setRoomState_audits hok
  | deleteRoom roomId actor =>
      obtain ⟨n, hok, rfl⟩ := Tx.returns_map.mp h
      exact deleteRoom_audits hok
  | recordExportRequested roomId actor =>
      obtain ⟨u, hok, rfl⟩ := Tx.returns_map.mp h
      exact recordExportRequested_audits hok
  | createMessage args =>
      obtain ⟨⟨m, created⟩, hok, rfl⟩ := Tx.returns_map.mp h
      exact createMessage_audits hok
  | updateMessage args =>
      obtain ⟨m, hok, rfl⟩ := Tx.returns_map.mp h
      exact updateMessage_audits hok
  | deleteMessage args =>
      obtain ⟨⟨m, changed⟩, hok, rfl⟩ := Tx.returns_map.mp h
      exact deleteMessage_audits hok
  | setMessageReaction args =>
      obtain ⟨mutation, hok, rfl⟩ := Tx.returns_map.mp h
      exact AuditsAll.none (setMessageReaction_trail hok)
  | setMessagePin args =>
      obtain ⟨mutation, hok, rfl⟩ := Tx.returns_map.mp h
      exact setMessagePin_audits hok
  | setMemberModeration roomId subject payload actor =>
      obtain ⟨moderation, hok, rfl⟩ := Tx.returns_map.mp h
      exact setMemberModeration_audits hok
  | markRead roomId subject messageId =>
      obtain ⟨mutation, hok, rfl⟩ := Tx.returns_map.mp h
      obtain ⟨t, rfl⟩ := markRead_ok hok
      exact AuditsAll.none rfl
  | clearReadState roomId subject =>
      obtain ⟨removed, hok, rfl⟩ := Tx.returns_map.mp h
      obtain ⟨t, rfl⟩ := clearReadState_ok hok
      exact AuditsAll.none rfl
  | recordWebhookAttempt deliveryId attempt =>
      obtain ⟨u, hok, rfl⟩ := Tx.returns_map.mp h
      obtain ⟨-, -, rfl⟩ := recordWebhookAttempt_ok hok
      exact AuditsAll.none rfl
  | retryWebhookDelivery deliveryId =>
      obtain ⟨delivery, hok, rfl⟩ := Tx.returns_map.mp h
      obtain ⟨row, -, -, -, -, rfl⟩ := retryWebhookDelivery_ok hok
      exact AuditsAll.none rfl
  | runRetention actor =>
      obtain ⟨reply, hok, rfl⟩ := Tx.returns_map.mp h
      exact runRetention_audits hok

end Calls

section Runs

variable {cfg : Config} {rd : Readings} {db db' : Database} {cmd : Command} {reply : Reply}

/-! ## The history -/

theorem mem_flagRows {flag : RoomRow → Option Timestamp} {on off : AuditAction} {id : UuidHex}
    {createdAt : Timestamp} {roomId actor : String} {r : AuditRow}
    (h : r ∈ flagRows flag on off id createdAt roomId actor db db') :
    r.createdAt = createdAt ∧ r.id = id.text := by
  unfold flagRows at h
  split at h
  · cases h
  · rw [List.mem_singleton.mp h]
    exact ⟨rfl, rfl⟩

/-- Every entry bears a time and an id that the call has read. -/
theorem auditRows_read {r : AuditRow} (h : r ∈ cmd.auditRows cfg rd db db' reply) :
    (∃ i, r.createdAt = rd.now i) ∧ ∃ i, r.id = (rd.uuid i).text := by
  unfold Command.auditRows at h
  split at h
  case h_2 =>
    rcases List.mem_append.mp h with harchived | hfrozen
    · exact ⟨⟨1, (mem_flagRows harchived).1⟩, 0, (mem_flagRows harchived).2⟩
    · exact ⟨⟨3, (mem_flagRows hfrozen).1⟩, 1, (mem_flagRows hfrozen).2⟩
  case h_5 =>
    unfold trimRows at h
    split at h
    · cases h
    · rw [List.mem_singleton.mp h]
      exact ⟨⟨2, rfl⟩, 1, rfl⟩
  case h_11 => cases h
  all_goals
    first
      | rw [List.mem_singleton.mp h]
        exact ⟨⟨_, rfl⟩, _, rfl⟩
      | split at h
        · cases h
        · rw [List.mem_singleton.mp h]
          exact ⟨⟨_, rfl⟩, _, rfl⟩

/-- The ids of a stored trail are those that `uuid4` has made. -/
theorem StoreReachable.auditIds (h : StoreReachable cfg db) :
    ∀ r ∈ db.auditEvents, ∃ id : UuidHex, r.id = id.text := by
  apply h.invariant fun db => ∀ r ∈ db.auditEvents, ∃ id : UuidHex, r.id = id.text
  · intro r hr
    exact absurd hr Table.not_mem_empty
  · intro db rd cmd reply db' hold hok r hr
    rcases (audited hok).mem hr with hbefore | hnew
    · exact hold r hbefore
    · obtain ⟨i, hid⟩ := (auditRows_read hnew).2
      exact ⟨rd.uuid i, hid⟩

theorem ascending_flagRows {flag : RoomRow → Option Timestamp} {on off : AuditAction}
    {id : UuidHex} {createdAt : Timestamp} {roomId actor : String} :
    Ascending AuditRow.createdAt (flagRows flag on off id createdAt roomId actor db db') := by
  apply Ascending.of_length
  unfold flagRows
  split <;> simp

/-- A call enters its entries in the order of its readings. -/
theorem auditRows_ascending (hread : ∀ i < 3, rd.now i < rd.now (i + 1)) :
    Ascending AuditRow.createdAt (cmd.auditRows cfg rd db db' reply) := by
  unfold Command.auditRows
  split
  case h_2 =>
    -- the only call with two entries
    apply List.pairwise_append.mpr
    refine ⟨ascending_flagRows, ascending_flagRows, ?_⟩
    intro a ha b hb
    rw [(mem_flagRows ha).1, (mem_flagRows hb).1]
    exact (hread 1 (by decide)).trans (hread 2 (by decide))
  all_goals
    apply Ascending.of_length
    first
      | exact Nat.le_refl 1
      | exact Nat.zero_le 1
      | unfold trimRows
        split <;> simp
      | split <;> simp

/-- The entries of a call: none when it raises. -/
def entriesOf (cfg : Config) (call : Readings × Command) (db : Database) : List AuditRow :=
  match exec cfg call.1 call.2 db with
  | (.ok reply, db') => call.2.auditRows cfg call.1 db db' reply
  | (.error _, _) => []

/-- A store, its clock, and every entry its calls ever owed the trail, oldest first. -/
structure AuditLedger where
  store : Timed
  history : List AuditRow

/-- An empty store, whatever its clock shows. -/
def AuditLedger.Empty (s : AuditLedger) : Prop := s.store.db = {} ∧ s.history = []

/-- One call under a clock that moves on with every reading, of which no call makes more than
four, with the history kept up. -/
structure AuditStep (cfg : Config) (s : AuditLedger) (call : Readings × Command)
    (s' : AuditLedger) : Prop where
  step : StrictStep cfg s.store call s'.store
  increasing : ∀ i < 3, call.1.now i < call.1.now (i + 1)
  history : s'.history = s.history ++ entriesOf cfg call s.store.db

/-- A refused call leaves nothing, and an entry enters the trail with the call it is about. -/
structure CommitsTogether (cfg : Config) (s : AuditLedger) (call : Readings × Command)
    (s' : AuditLedger) : Prop where
  refused : ∀ e, (exec cfg call.1 call.2 s.store.db).1 = .error e →
    s'.store.db = s.store.db ∧ s'.history = s.history
  together : ∀ r ∈ s'.store.db.auditEvents, r ∈ s.store.db.auditEvents ∨
    ∃ reply, exec cfg call.1 call.2 s.store.db = (.ok reply, s'.store.db) ∧
      r ∈ call.2.auditRows cfg call.1 s.store.db s'.store.db reply

/-- The trail holds the newest entries of the history, none of which is dated after the clock. -/
structure Recorded (cfg : Config) (s : AuditLedger) : Prop where
  trail : Table.Trails AuditRow.createdAt cfg.maxAuditEvents s.history s.store.db.auditEvents
  dated : ∀ r ∈ s.history, r.createdAt ≤ s.store.clock

variable {s s' : AuditLedger} {call : Readings × Command}

/-- The trail after a step is that before it with the entries of the call. -/
theorem AuditStep.audits (h : AuditStep cfg s call s') :
    AuditsAll cfg (entriesOf cfg call s.store.db) s.store.db s'.store.db := by
  have hdb : (exec cfg call.1 call.2 s.store.db).2 = s'.store.db := h.step.step
  unfold entriesOf
  cases hexec : exec cfg call.1 call.2 s.store.db with
  | mk outcome after =>
      rw [hexec] at hdb
      obtain rfl : after = s'.store.db := hdb
      cases outcome with
      | error e => exact AuditsAll.none (congrArg Database.auditEvents (exec_error hexec))
      | ok reply => exact audited (exec_ok.mp hexec)

theorem mem_entriesOf {r : AuditRow} (h : r ∈ entriesOf cfg call db) :
    ∃ reply db', exec cfg call.1 call.2 db = (.ok reply, db') ∧
      r ∈ call.2.auditRows cfg call.1 db db' reply := by
  unfold entriesOf at h
  cases hexec : exec cfg call.1 call.2 db with
  | mk outcome after =>
      rw [hexec] at h
      cases outcome with
      | error e => cases h
      | ok reply => exact ⟨reply, after, rfl, h⟩

theorem Recorded.start (h : s.Empty) : Recorded cfg s := by
  constructor
  · rw [h.1, h.2]
    exact Table.Trails.empty
  · intro r hr
    rw [h.2] at hr
    cases hr

theorem Recorded.step (h : Recorded cfg s) (hstep : AuditStep cfg s call s') : Recorded cfg s' := by
  have hread : ∀ r ∈ entriesOf cfg call s.store.db, ∃ i, r.createdAt = call.1.now i := by
    intro r hr
    obtain ⟨reply, after, -, hmem⟩ := mem_entriesOf hr
    exact (auditRows_read hmem).1
  have hascending : Ascending AuditRow.createdAt (entriesOf cfg call s.store.db) := by
    unfold entriesOf
    split
    · exact auditRows_ascending hstep.increasing
    · exact List.Pairwise.nil
  constructor
  · rw [hstep.history]
    apply h.trail.appendAll _ hascending hstep.audits
    intro b hb r hr
    obtain ⟨i, hi⟩ := hread r hr
    rw [hi]
    exact (h.dated b hb).trans_lt (hstep.step.strict i)
  · intro r hr
    rw [hstep.history] at hr
    rcases List.mem_append.mp hr with hold | hnew
    · exact (h.dated r hold).trans hstep.step.clock_le
    · obtain ⟨i, hi⟩ := hread r hnew
      rw [hi]
      exact hstep.step.latest i

theorem AuditStep.together (h : AuditStep cfg s call s') : CommitsTogether cfg s call s' where
  refused := by
    intro e hraised
    have hpair : exec cfg call.1 call.2 s.store.db =
        (.error e, (exec cfg call.1 call.2 s.store.db).2) := by
      rw [← hraised]
    have hsame : s'.store.db = s.store.db := by
      rw [← exec_error hpair]
      exact h.step.step.symm
    refine ⟨hsame, ?_⟩
    rw [h.history]
    unfold entriesOf
    rw [hpair]
    exact List.append_nil _
  together := by
    intro r hr
    rcases Table.AppendsAll.mem h.audits hr with hold | hnew
    · exact .inl hold
    · right
      obtain ⟨reply, after, hexec, hmem⟩ := mem_entriesOf hnew
      have hdb : (exec cfg call.1 call.2 s.store.db).2 = s'.store.db := h.step.step
      rw [hexec] at hdb
      obtain rfl : after = s'.store.db := hdb
      exact ⟨reply, hexec, hmem⟩

/-- In every run under a strictly increasing clock the trail holds the newest entries of the
history, and every entry is committed with the call it is about. -/
theorem audit_complete (h : Reachable AuditLedger.Empty (AuditStep cfg) s) :
    Table.Trails AuditRow.createdAt cfg.maxAuditEvents s.history s.store.db.auditEvents ∧
      ∀ call s', AuditStep cfg s call s' → CommitsTogether cfg s call s' := by
  have hrecorded : Recorded cfg s :=
    h.invariant (fun _ hempty => Recorded.start hempty) fun t call u ht hstep => ht.step hstep
  exact ⟨hrecorded.trail, fun call s' hstep => hstep.together⟩

/-! ## A run -/

/-- The readings of a call that begins at `t` and takes its time, with ids counted from `n`. -/
def Readings.ticking (t : Timestamp) (n : Nat) : Readings where
  now i := t + (min i 3 : Nat)
  uuid i := UuidHex.ofNat (n + i)

/-- The state after a call that takes its time. -/
def AuditLedger.next (cfg : Config) (s : AuditLedger) (t : Timestamp) (n : Nat) (cmd : Command) :
    AuditLedger where
  store := { db := (exec cfg (.ticking t n) cmd s.store.db).2, clock := t + 3 }
  history := s.history ++ entriesOf cfg (.ticking t n, cmd) s.store.db

theorem AuditStep.ticking {t : Timestamp} {n : Nat} (h : s.store.clock < t) :
    AuditStep cfg s (.ticking t n, cmd) (s.next cfg t n cmd) := by
  have hnow : ∀ i, (Readings.ticking t n).now i = t + (min i 3 : Nat) := fun _ => rfl
  have hclock : (s.next cfg t n cmd).store.clock = t + 3 := rfl
  constructor
  · refine ⟨⟨rfl, fun i => ?_, fun i j hij => ?_, fun i => ?_⟩, fun i => ?_⟩
    · rw [hnow]
      exact h.le.trans (Int.le_add_of_nonneg_right (Int.natCast_nonneg _))
    · rw [hnow, hnow]
      exact Int.add_le_add_left (Int.ofNat_le.mpr (min_le_min_right 3 hij)) t
    · rw [hnow, hclock]
      exact Int.add_le_add_left (Int.ofNat_le.mpr (min_le_right i 3)) t
    · rw [hnow]
      exact h.trans_le (Int.le_add_of_nonneg_right (Int.natCast_nonneg _))
  · intro i hi
    rw [hnow, hnow]
    apply Int.add_lt_add_left
    apply Int.ofNat_lt.mpr
    omega
  · rfl

/-- A store that keeps two entries, after a room was created, archived and opened again. -/
def auditedRoom : AuditLedger :=
  (((AuditLedger.mk { clock := 0 } []).next { smallConfig with maxAuditEvents := 2 } 10 0
    makeRoom).next { smallConfig with maxAuditEvents := 2 } 20 10
      (.setRoomState "general" (some true) (some true) "admin")).next
        { smallConfig with maxAuditEvents := 2 } 30 20
          (.setRoomState "general" (some true) (some false) "admin")

/-- The newest two of four entries: the repeated archiving is none. -/
theorem audit_complete_newest :
    Table.Trails AuditRow.createdAt 2 auditedRoom.history auditedRoom.store.db.auditEvents ∧
      auditedRoom.history.map AuditRow.action =
        [.roomCreated, .roomArchived, .roomFrozen, .roomUnfrozen] ∧
      auditedRoom.store.db.auditEvents.rows.map AuditRow.action =
        [.roomFrozen, .roomUnfrozen] := by
  have hrun : Reachable AuditLedger.Empty (AuditStep { smallConfig with maxAuditEvents := 2 })
      auditedRoom := by
    apply Reachable.next _ _ (AuditStep.ticking (show (23 : Timestamp) < 30 by decide))
    apply Reachable.next _ _ (AuditStep.ticking (show (13 : Timestamp) < 20 by decide))
    apply Reachable.next _ _ (AuditStep.ticking (show (0 : Timestamp) < 10 by decide))
    exact Reachable.start ⟨rfl, rfl⟩
  refine ⟨(audit_complete hrun).1, ?_, ?_⟩
  · decide +kernel
  · decide +kernel

end Runs

end Store
end ChatEngine
