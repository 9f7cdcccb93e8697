import ChatEngine.Store.Privacy

/-!
# Who may write messages

The five calls that change message data repeat the checks of the room, of the member and
of the message, each with its own exceptions for administrators.

* `WriteRequest` and `Command.writeRequest?`, what such a call asks for;
* `WriteRequest.Allowed`, what all of them have checked when they change anything;
* `message_writes_allowed`, the property of every call in every state.
-/

namespace ChatEngine
namespace Store

open Lib
open Models

/-- What a call that writes message data asks for. -/
structure WriteRequest where
  roomId : String
  messageId : Option String
  /-- The actor whose own message it has to be. -/
  owner : Option String
  memberSubject : Option String
  /-- `is_admin` or `allow_frozen`. -/
  privileged : Bool
  deletes : Bool
  /-- The clock reading of the member check. -/
  checkedAt : Timestamp
  deriving DecidableEq

/-- The request of a create, update, delete, reaction or pin call. -/
def Command.writeRequest? (rd : Readings) : Command → Option WriteRequest
  | createMessage args => some
      { roomId := args.roomId, messageId := none, owner := none,
        memberSubject := args.memberSubject, privileged := args.allowFrozen, deletes := false,
        checkedAt := rd.now 0 }
  | updateMessage args => some
      { roomId := args.roomId, messageId := some args.messageId, owner := some args.actor,
        memberSubject := args.memberSubject, privileged := args.isAdmin, deletes := false,
        checkedAt := rd.now 0 }
  | deleteMessage args => some
      { roomId := args.roomId, messageId := some args.messageId, owner := some args.actor,
        memberSubject := args.memberSubject, privileged := args.isAdmin, deletes := true,
        checkedAt := rd.now 0 }
  | setMessageReaction args => some
      { roomId := args.roomId, messageId := some args.messageId, owner := none,
        memberSubject := args.memberSubject, privileged := args.allowFrozen, deletes := false,
        checkedAt := rd.now 1 }
  | setMessagePin args => some
      { roomId := args.roomId, messageId := some args.messageId, owner := none,
        memberSubject := args.memberSubject, privileged := args.allowFrozen, deletes := false,
        checkedAt := rd.now 1 }
  | _ => none

/-- The room and the message stand in the state that the request needs. -/
structure WriteRequest.Allowed (w : WriteRequest) (db : Database) : Prop where
  room : ∃ room ∈ db.rooms, room.key = w.roomId ∧
    (room.archivedAt = none ∨ (w.deletes = true ∧ w.privileged = true)) ∧
    (room.frozenAt = none ∨ w.privileged = true)
  member : ∀ s, w.memberSubject = some s → ∀ row ∈ db.memberControls, row.key = (w.roomId, s) →
    (∀ t, row.bannedUntil = some t → t ≤ w.checkedAt) ∧
      (∀ t, row.mutedUntil = some t → t ≤ w.checkedAt)
  message : ∀ id, w.messageId = some id → ∃ row ∈ db.messages, row.id = id ∧
    row.roomId = w.roomId ∧ row.deletedAt = none ∧
      ∀ actor, w.owner = some actor → w.privileged = true ∨ row.sender = actor

/-- The call left other message data than it found. -/
def MessageDataChanged (db db' : Database) : Prop :=
  db'.messages ≠ db.messages ∨ db'.reactions ≠ db.reactions

section Gating

variable {cfg : Config} {rd : Readings} {db db' : Database} {cmd : Command} {w : WriteRequest}

theorem not_messageDataChanged (db : Database) : ¬ MessageDataChanged db db := by
  simp [MessageDataChanged]

/-- A write behind `requireOpenRoom` is allowed once its message is. -/
theorem MayWrite.allowed {roomId : String} {messageId owner memberSubject : Option String}
    {allowFrozen : Bool} {checkedAt : Timestamp}
    (h : MayWrite roomId allowFrozen memberSubject checkedAt db)
    (hmessage : ∀ id, messageId = some id → ∃ row ∈ db.messages, row.id = id ∧
      row.roomId = roomId ∧ row.deletedAt = none ∧
        ∀ actor, owner = some actor → allowFrozen = true ∨ row.sender = actor) :
    WriteRequest.Allowed
      { roomId := roomId, messageId := messageId, owner := owner, memberSubject := memberSubject,
        privileged := allowFrozen, deletes := false, checkedAt := checkedAt } db := by
  obtain ⟨⟨room, hroom, hkey, harchived, hfrozen⟩, hmember⟩ := h
  exact ⟨⟨room, hroom, hkey, .inl harchived, hfrozen⟩, hmember, hmessage⟩

/-- One case for each of the five calls. -/
theorem returns_allowed {reply : Reply} (hw : cmd.writeRequest? rd = some w)
    (h : Tx.Returns (cmd.tx cfg rd) db reply db') (hchanged : MessageDataChanged db db') :
    w.Allowed db := by
  cases cmd with
  | createMessage args =>
      cases hw
      obtain ⟨⟨m, created⟩, hok, -⟩ := Tx.returns_map.mp h
      apply (createMessage_ok hok).1.allowed
      intro id hid
      cases hid
  | updateMessage args =>
      cases hw
      obtain ⟨m, hok, -⟩ := Tx.returns_map.mp h
      have hupdated := updateMessage_ok hok
      obtain ⟨row, hrow, hid, hroom, hlive, howner, -⟩ := hupdated.target
      apply hupdated.mayWrite.allowed
      intro id heq
      cases heq
      refine ⟨row, hrow, hid, hroom, hlive, ?_⟩
      intro actor hactor
      cases hactor
      exact howner
  | deleteMessage args =>
      cases hw
      obtain ⟨⟨m, changed⟩, hok, -⟩ := Tx.returns_map.mp h
      obtain ⟨⟨room, hroom, hkey, hopen⟩, hmember, row, hrow, hid, hrowRoom, howner, hcases⟩ :=
        deleteMessage_ok hok
      -- a tombstone is returned as it is
      rcases hcases with ⟨-, rfl, -⟩ | ⟨-, hdeleted⟩
      · exact absurd hchanged (not_messageDataChanged _)
      · refine ⟨⟨room, hroom, hkey, ?_, ?_⟩, hmember, ?_⟩
        · rcases hopen with hadmin | ⟨harchived, -⟩
          · exact .inr ⟨rfl, hadmin⟩
          · exact .inl harchived
        · rcases hopen with hadmin | ⟨-, hfrozen⟩
          · exact .inr hadmin
          · exact .inl hfrozen
        · intro id heq
          cases heq
          refine ⟨row, hrow, hid, hrowRoom, hdeleted.live, ?_⟩
          intro actor hactor
          cases hactor
          exact howner
  | setMessageReaction args =>
      cases hw
      obtain ⟨mutation, hok, -⟩ := Tx.returns_map.mp h
      obtain ⟨hmay, row, hrow, hid, hroom, hlive, -⟩ := setMessageReaction_ok hok
      apply hmay.allowed
      intro id heq
      cases heq
      exact ⟨row, hrow, hid, hroom, hlive, nofun⟩
  | setMessagePin args =>
      cases hw
      obtain ⟨mutation, hok, -⟩ := Tx.returns_map.mp h
      obtain ⟨hmay, row, hrow, hid, hroom, hlive, -⟩ := setMessagePin_ok hok
      apply hmay.allowed
      intro id heq
      cases heq
      exact ⟨row, hrow, hid, hroom, hlive, nofun⟩
  | _ => cases hw

/-- In any state, a call of the five that changes message data was allowed to, and a call
that raises changes no table. -/
theorem message_writes_allowed (cfg : Config) (rd : Readings) (cmd : Command) (db : Database) :
    (∀ w, cmd.writeRequest? rd = some w → MessageDataChanged db (exec cfg rd cmd db).2 →
      w.Allowed db) ∧
    ∀ e, (exec cfg rd cmd db).1 = .error e → (exec cfg rd cmd db).2 = db := by
  rcases Tx.atomically_cases (cmd.tx cfg rd) db with ⟨e, herror⟩ | ⟨reply, db', hok, hrun⟩
  · have hexec : exec cfg rd cmd db = (.error e, db) := herror
    rw [hexec]
    refine ⟨?_, fun _ _ => rfl⟩
    intro w _ hchanged
    exact absurd hchanged (not_messageDataChanged db)
  · have hexec : exec cfg rd cmd db = (.ok reply, db') := hrun
    rw [hexec]
    refine ⟨?_, nofun⟩
    intro w hw hchanged
    exact returns_allowed hw hok hchanged

/-- The first message of an open room. -/
theorem message_writes_allowed_firstMessage :
    WriteRequest.Allowed
      { roomId := "general", messageId := none, owner := none, memberSubject := some "ada",
        privileged := false, deletes := false, checkedAt := 2 }
      (runCalls smallConfig (deliveredThenDeleted.take 1) {}) := by
  have hchanged : MessageDataChanged (runCalls smallConfig (deliveredThenDeleted.take 1) {})
      (exec smallConfig (.fixed 2 10)
        (.createMessage
          { roomId := "general", sender := "ada", content := "hello", memberSubject := some "ada" })
        (runCalls smallConfig (deliveredThenDeleted.take 1) {})).2 := by
    left
    intro heq
    have hcount := congrArg Table.count heq
    revert hcount
    decide
  exact (message_writes_allowed smallConfig _ _ _).1 _ rfl hchanged

end Gating

end Store
end ChatEngine
