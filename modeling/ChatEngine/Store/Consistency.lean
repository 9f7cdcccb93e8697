import ChatEngine.Store.Commands

/-!
# Consistency of every reachable database

Where the message rows of a database come from, and what follows for all of
them.

* `Origin` and `message_origin`: after a call every message row is a row from
  before it, with the identity columns it had, or the row the call created;
* `room_kept`: only its own deletion removes a room;
* `Consistent` and `StoreReachable.consistent`: identifiers are their own
  stripped form, every message's room exists, every row decodes, and an
  idempotency key names at most one message of a room.
-/

namespace ChatEngine
namespace Store

open Lib
open Models

/-! ## Rows that differ in little -/

/-- A row that every read accepts. -/
def Decodes (row : MessageRow) : Prop := ∃ m, messageFromRow row = .ok m

/-- The same row, apart from its parent reference. -/
def SameButParent (r s : MessageRow) : Prop :=
  s = { r with parentMessageId := s.parentMessageId }

theorem SameButParent.refl (r : MessageRow) : SameButParent r r := rfl

theorem forgetParents_same (ids : List String) (r : MessageRow) :
    SameButParent r (r.forgetParents ids) := rfl

/-- The parent reference has no say in whether a row decodes. -/
theorem messageFromRow_setParent (row : MessageRow) (parent : Option String) :
    messageFromRow { row with parentMessageId := parent } =
      (messageFromRow row).map (Message.withParent parent) := by
  unfold messageFromRow
  dsimp only
  cases validateEach ReactionSummary.validate row.reactions with
  | error e => rfl
  | ok reactions =>
      cases validateEach AttachmentReference.validate row.attachments with
      | error e => rfl
      | ok attachments => exact Message.build_setParent (row.raw reactions attachments) parent

theorem SameButParent.decodes {r s : MessageRow} (h : SameButParent r s) (hr : Decodes r) :
    Decodes s := by
  obtain ⟨m, hm⟩ := hr
  rw [h]
  exact ⟨_, by rw [messageFromRow_setParent, hm]; rfl⟩

/-- The columns no operation changes after the insert. -/
structure SameIdentity (r s : MessageRow) : Prop where
  id : s.id = r.id
  roomId : s.roomId = r.roomId
  sender : s.sender = r.sender
  authorSubject : s.authorSubject = r.authorSubject
  createdAt : s.createdAt = r.createdAt
  clientMessageId : s.clientMessageId = r.clientMessageId

theorem SameIdentity.refl (r : MessageRow) : SameIdentity r r :=
  ⟨rfl, rfl, rfl, rfl, rfl, rfl⟩

theorem SameButParent.identity {r s : MessageRow} (h : SameButParent r s) :
    SameIdentity r s := by
  rw [h]
  exact ⟨rfl, rfl, rfl, rfl, rfl, rfl⟩

/-- The same row, or the row with its parent forgotten. -/
def ForgetsParent (r s : MessageRow) : Prop :=
  s = r ∨ s = { r with parentMessageId := none }

theorem ForgetsParent.refl (r : MessageRow) : ForgetsParent r r := .inl rfl

theorem ForgetsParent.trans {r s t : MessageRow} (h : ForgetsParent r s)
    (h' : ForgetsParent s t) : ForgetsParent r t := by
  rcases h with rfl | rfl
  · exact h'
  · rcases h' with rfl | rfl
    · exact .inr rfl
    · exact .inr rfl

theorem ForgetsParent.same {r s : MessageRow} (h : ForgetsParent r s) : SameButParent r s := by
  rcases h with rfl | rfl
  · exact SameButParent.refl s
  · rfl

theorem ForgetsParent.identity {r s : MessageRow} (h : ForgetsParent r s) : SameIdentity r s :=
  h.same.identity

theorem forgetParents_forgets (ids : List String) (r : MessageRow) :
    ForgetsParent r (r.forgetParents ids) := by
  unfold MessageRow.forgetParents
  cases hparent : r.parentMessageId with
  | none => exact .inr rfl
  | some parent =>
      by_cases hin : parent ∈ ids
      · right
        rw [Option.filter_some, if_neg (by simpa using hin)]
      · left
        rw [Option.filter_some, if_pos (by simpa using hin), ← hparent]

/-- The row after a call: the same, or without its parent, which the call removed. -/
def Orphaned (db db' : Database) (r s : MessageRow) : Prop :=
  s = r ∨ ∃ p, r.parentMessageId = some p ∧ (∃ t ∈ db.messages, t.id = p) ∧
    (∀ t ∈ db'.messages, t.id ≠ p) ∧ s = { r with parentMessageId := none }

theorem Orphaned.refl {db db' : Database} (r : MessageRow) : Orphaned db db' r r := .inl rfl

theorem Orphaned.forgets {db db' : Database} {r s : MessageRow} (h : Orphaned db db' r s) :
    ForgetsParent r s := by
  rcases h with rfl | ⟨_, -, -, -, rfl⟩
  · exact .refl s
  · exact .inr rfl

theorem Orphaned.identity {db db' : Database} {r s : MessageRow} (h : Orphaned db db' r s) :
    SameIdentity r s :=
  h.forgets.identity

theorem Orphaned.of_messages {db db₁ db' : Database} {r s : MessageRow} (h : Orphaned db db₁ r s)
    (hmessages : ∀ t ∈ db'.messages, t ∈ db₁.messages) : Orphaned db db' r s := by
  refine h.imp id ?_
  rintro ⟨p, hp, hbefore, hafter, hforgot⟩
  exact ⟨p, hp, hbefore, fun t ht => hafter t (hmessages t ht), hforgot⟩

/-- A parent that is gone once stays gone. -/
theorem Orphaned.trans {db db₁ db' : Database} {r s t : MessageRow} (h : Orphaned db db₁ r s)
    (h' : Orphaned db₁ db' s t)
    (hids : ∀ u ∈ db₁.messages, ∃ v ∈ db.messages, v.id = u.id)
    (hids' : ∀ u ∈ db'.messages, ∃ v ∈ db₁.messages, v.id = u.id) : Orphaned db db' r t := by
  rcases h with rfl | ⟨p, hp, hbefore, hafter, rfl⟩
  · rcases h' with rfl | ⟨p, hp, ⟨u, hu, huid⟩, hafter, rfl⟩
    · exact .refl t
    · obtain ⟨v, hv, hvid⟩ := hids u hu
      exact .inr ⟨p, hp, ⟨v, hv, hvid.trans huid⟩, hafter, rfl⟩
  · have hgone : ∀ u ∈ db'.messages, u.id ≠ p := by
      intro u hu hup
      obtain ⟨v, hv, hvid⟩ := hids' u hu
      exact hafter v hv (hvid.trans hup)
    rcases h' with rfl | ⟨q, hq, -⟩
    · exact .inr ⟨p, hp, hbefore, hgone, rfl⟩
    · cases hq

/-- A row forgets a parent of a batch that was stored and is gone. -/
theorem orphaned_forgetParents {db db' : Database} {ids : List String}
    (hstored : ∀ k ∈ ids, ∃ t ∈ db.messages, t.id = k) (hgone : ∀ t ∈ db'.messages, t.id ∉ ids)
    (r : MessageRow) : Orphaned db db' r (r.forgetParents ids) := by
  unfold MessageRow.forgetParents
  cases hparent : r.parentMessageId with
  | none =>
      left
      show { r with parentMessageId := none } = r
      rw [← hparent]
  | some p =>
      by_cases hin : p ∈ ids
      · refine .inr ⟨p, hparent, hstored p hin, fun t ht htp => hgone t ht (htp ▸ hin), ?_⟩
        rw [Option.filter_some, if_neg (by simpa using hin)]
      · left
        rw [Option.filter_some, if_pos (by simpa using hin), ← hparent]

/-! ## Rows after a deletion batch -/

theorem mem_removeBatch {batch : List MessageRow} {db : Database} {s : MessageRow}
    (h : s ∈ (db.removeBatch batch).messages) :
    ∃ r ∈ db.messages, r.id ∉ batch.map MessageRow.id ∧ ForgetsParent r s := by
  obtain ⟨r, hr, hkeep, rfl⟩ := Database.mem_deleteMessages.mp h
  exact ⟨r, hr, hkeep, forgetParents_forgets _ r⟩

/-- A row outside the batch is still there, apart from its parent reference. -/
theorem removeBatch_keeps {batch : List MessageRow} {db : Database} {r : MessageRow}
    (hr : r ∈ db.messages) (hkeep : r.id ∉ batch.map MessageRow.id) :
    ∃ s ∈ (db.removeBatch batch).messages, ForgetsParent r s :=
  ⟨_, Database.mem_deleteMessages.mpr ⟨r, hr, hkeep, rfl⟩, forgetParents_forgets _ r⟩

theorem mem_trim {cfg : Config} {roomId : String} {now : Timestamp} {db : Database}
    {s : MessageRow} (h : s ∈ (db.trim cfg roomId now).messages) :
    ∃ r ∈ db.messages, ForgetsParent r s := by
  obtain ⟨r₁, h₁, -, hs₁⟩ := mem_removeBatch h
  obtain ⟨r₂, h₂, -, hs₂⟩ := mem_removeBatch h₁
  obtain ⟨r₃, h₃, -, hs₃⟩ := mem_removeBatch h₂
  exact ⟨r₃, h₃, (hs₃.trans hs₂).trans hs₁⟩

theorem mem_deleteRoom {roomId : String} {db : Database} {s : MessageRow}
    (h : s ∈ (db.deleteRoom roomId).messages) :
    ∃ r ∈ db.messages, r.roomId ≠ roomId ∧ ForgetsParent r s := by
  obtain ⟨r, hr, hkeep, rfl⟩ := Database.mem_deleteMessages.mp h
  refine ⟨r, hr, fun hroom => hkeep ?_, forgetParents_forgets _ r⟩
  exact List.mem_map.mpr ⟨r, List.mem_filter.mpr ⟨hr, by simpa using hroom⟩, rfl⟩

/-! ## Where the message rows of a call come from -/

/-- After a call, a message row is an earlier row whose identity it keeps, or
the row a create inserted. -/
inductive Origin (rd : Readings) (cmd : Command) (db : Database) (s : MessageRow) : Prop
  | kept (r : MessageRow) :
      r ∈ db.messages → SameIdentity r s → (Decodes r → Decodes s) → Origin rd cmd db s
  | created (args : CreateMessage) (built : Message) :
      cmd = .createMessage args →
      findIdempotent args.roomId args.clientMessageId db = none →
      (args.raw (rd.uuid 0) (rd.now 1)).build = .ok built →
      (newMessageRow built args.authorSubject).Admissible db →
      SameIdentity (newMessageRow built args.authorSubject) s → Decodes s →
      Origin rd cmd db s

variable {cfg : Config} {rd : Readings} {cmd : Command} {db db' : Database} {reply : Reply}

theorem Origin.same {s : MessageRow} (h : s ∈ db.messages) : Origin rd cmd db s :=
  .kept s h (SameIdentity.refl s) id

theorem Origin.sameButParent {r s : MessageRow} (hr : r ∈ db.messages)
    (h : SameButParent r s) : Origin rd cmd db s :=
  .kept r hr h.identity h.decodes

/-- A rewritten table holds the rewritten row, which decodes, and the others. -/
theorem Origin.setMessage {messageId : String} {f : MessageRow → MessageRow}
    (hid : ∀ r, (f r).id = r.id) {row s : MessageRow} {m : Message} (base : Database)
    (hmessages : base.messages = db.messages) (hrow : row ∈ db.messages)
    (hrowId : row.id = messageId) (hsame : SameIdentity row (f row))
    (hdecode : messageFromRow (f row) = .ok m)
    (hs : s ∈ (base.setMessage messageId f hid).messages) : Origin rd cmd db s := by
  rcases mem_setMessage.mp hs with ⟨hmem, -⟩ | ⟨r, hr, hrid, rfl⟩
  · exact Origin.same (hmessages ▸ hmem)
  · rw [hmessages] at hr
    have hrow' : r = row := Table.eq_of_key hr hrow (hrid.trans hrowId.symm)
    rw [hrow']
    exact .kept row hrow hsame fun _ => ⟨m, hdecode⟩

theorem Created.origin {args : CreateMessage} {m : Message} {s : MessageRow}
    (h : Created cfg rd args db m db') (hs : s ∈ db'.messages) :
    Origin rd (.createMessage args) db s := by
  obtain ⟨built, inserted, hbuild, -, hadm, hins, ⟨row, hrow, hrowId, hdecode⟩, hcommits⟩ :=
    h.effect
  have hs' := hs
  rw [hcommits.messages] at hs'
  obtain ⟨r, hr, hrs⟩ := mem_trim hs'
  rcases (Table.mem_of_insert? hins).mp hr with hr | rfl
  · exact Origin.sameButParent hr hrs.same
  · have hid : s.id = row.id := by
      rw [hrs.identity.id, hrowId]
      rfl
    have hrow' : s = row := Table.eq_of_key hs hrow hid
    exact .created args built rfl h.fresh hbuild hadm hrs.identity
      ⟨m, by rw [hrow']; exact hdecode⟩

/-- Where every message row comes from, for every call. -/
theorem message_origin (h : Tx.Returns (cmd.tx cfg rd) db reply db') {s : MessageRow}
    (hs : s ∈ db'.messages) : Origin rd cmd db s := by
  cases cmd with
  | createRoom payload actor =>
      obtain ⟨room, hok, -⟩ := Tx.returns_map.mp h
      obtain ⟨-, _, _, -, -, hsame⟩ := createRoom_ok hok
      exact Origin.same (hsame.messages ▸ hs)
  | setRoomState roomId archived frozen actor =>
      obtain ⟨r, hok, -⟩ := Tx.returns_map.mp h
      exact Origin.same ((setRoomState_ok hok).messages ▸ hs)
  | deleteRoom roomId actor =>
      obtain ⟨n, hok, -⟩ := Tx.returns_map.mp h
      obtain ⟨-, audited, hsame, rfl⟩ := deleteRoom_ok hok
      obtain ⟨r, hr, -, hrs⟩ := mem_deleteRoom hs
      change r ∈ audited.messages at hr
      exact Origin.sameButParent (hsame.messages ▸ hr) hrs.same
  | recordExportRequested roomId actor =>
      obtain ⟨u, hok, -⟩ := Tx.returns_map.mp h
      exact Origin.same ((recordExportRequested_ok hok).messages ▸ hs)
  | createMessage args =>
      obtain ⟨⟨m, created⟩, hok, -⟩ := Tx.returns_map.mp h
      rcases (createMessage_ok hok).2 with ⟨-, rfl, -⟩ | ⟨-, hcreated⟩
      · exact Origin.same hs
      · exact hcreated.origin hs
  | updateMessage args =>
      obtain ⟨m, hok, -⟩ := Tx.returns_map.mp h
      have hupdated := updateMessage_ok hok
      obtain ⟨row, hrow, hid, -, -, -, hdecode⟩ := hupdated.target
      rw [hupdated.commits.messages] at hs
      exact Origin.setMessage (args.apply_id _) db rfl hrow hid ⟨rfl, rfl, rfl, rfl, rfl, rfl⟩
        hdecode hs
  | deleteMessage args =>
      obtain ⟨⟨m, changed⟩, hok, -⟩ := Tx.returns_map.mp h
      obtain ⟨-, -, row, hrow, hid, -, -, hcases⟩ := deleteMessage_ok hok
      rcases hcases with ⟨-, rfl, -⟩ | ⟨-, hdeleted⟩
      · exact Origin.same hs
      · rw [hdeleted.commits.messages] at hs
        exact Origin.setMessage (MessageRow.tombstone_id _) (db.deleteReactionsOf args.messageId) rfl
          hrow hid
          ⟨rfl, rfl, rfl, rfl, rfl, rfl⟩ hdeleted.decodes hs
  | setMessageReaction args =>
      obtain ⟨mutation, hok, -⟩ := Tx.returns_map.mp h
      obtain ⟨-, row, hrow, hid, -, -, hcases⟩ := setMessageReaction_ok hok
      rcases hcases with ⟨-, rfl, -⟩ | hreacted
      · exact Origin.same hs
      · obtain ⟨t, summaries, -, -, hdecode, hcommits⟩ := hreacted.effect
        rw [hcommits.messages] at hs
        exact Origin.setMessage (MessageRow.setReactions_id summaries) { db with reactions := t } rfl
          hrow hid
          ⟨rfl, rfl, rfl, rfl, rfl, rfl⟩ hdecode hs
  | setMessagePin args =>
      obtain ⟨mutation, hok, -⟩ := Tx.returns_map.mp h
      obtain ⟨-, row, hrow, hid, -, -, hcases⟩ := setMessagePin_ok hok
      rcases hcases with ⟨-, rfl, -⟩ | hpinned
      · exact Origin.same hs
      · rw [hpinned.commits.messages] at hs
        exact Origin.setMessage (args.apply_id _) db rfl hrow hid ⟨rfl, rfl, rfl, rfl, rfl, rfl⟩
          hpinned.decodes hs
  | setMemberModeration roomId subject payload actor =>
      obtain ⟨moderation, hok, -⟩ := Tx.returns_map.mp h
      obtain ⟨-, row, -, hcommits⟩ := setMemberModeration_ok hok
      exact Origin.same (hcommits.messages ▸ hs)
  | markRead roomId subject messageId =>
      obtain ⟨mutation, hok, -⟩ := Tx.returns_map.mp h
      obtain ⟨t, rfl⟩ := markRead_ok hok
      exact Origin.same hs
  | clearReadState roomId subject =>
      obtain ⟨removed, hok, -⟩ := Tx.returns_map.mp h
      obtain ⟨t, rfl⟩ := clearReadState_ok hok
      exact Origin.same hs
  | recordWebhookAttempt deliveryId attempt =>
      obtain ⟨u, hok, -⟩ := Tx.returns_map.mp h
      obtain ⟨-, -, rfl⟩ := recordWebhookAttempt_ok hok
      exact Origin.same hs
  | retryWebhookDelivery deliveryId =>
      obtain ⟨delivery, hok, -⟩ := Tx.returns_map.mp h
      obtain ⟨row, -, -, -, -, rfl⟩ := retryWebhookDelivery_ok hok
      exact Origin.same hs
  | runRetention actor =>
      obtain ⟨r, hok, -⟩ := Tx.returns_map.mp h
      obtain ⟨-, hsame⟩ := runRetention_ok hok
      rw [hsame.messages] at hs
      obtain ⟨r, hr, -, hrs⟩ := mem_removeBatch hs
      exact Origin.sameButParent hr hrs.same

/-- A row found under the id of an earlier row is that row, with its identity. -/
theorem identity_kept (h : Tx.Returns (cmd.tx cfg rd) db reply db') {s r : MessageRow}
    (hs : s ∈ db'.messages) (hr : r ∈ db.messages) (hid : r.id = s.id) : SameIdentity r s := by
  cases message_origin h hs with
  | kept old hold hsame _ =>
      rw [Table.eq_of_key hr hold (hid.trans hsame.id)]
      exact hsame
  | created args built hcmd hfresh hbuild _ hsame _ =>
      -- the id of a create is taken by no row from before
      subst hcmd
      obtain ⟨⟨m, created⟩, hok, -⟩ := Tx.returns_map.mp h
      rcases (createMessage_ok hok).2 with ⟨-, rfl, row, hfound, -⟩ | ⟨-, hcreated⟩
      · rw [hfresh] at hfound
        cases hfound
      · obtain ⟨built', inserted, hbuild', -, -, hins, -, -⟩ := hcreated.effect
        rw [hbuild] at hbuild'
        cases hbuild'
        exact absurd (hid.trans hsame.id) ((Table.insert?_eq_some.mp hins).1 r hr)

/-- The calls that change no message. -/
def Command.LeavesMessages : Command → Prop
  | deleteRoom _ _ | createMessage _ | updateMessage _ | deleteMessage _ => False
  | setMessageReaction _ | setMessagePin _ | runRetention _ => False
  | _ => True

theorem messages_left (h : Tx.Returns (cmd.tx cfg rd) db reply db')
    (hcmd : cmd.LeavesMessages) : db'.messages = db.messages := by
  cases cmd with
  | createRoom payload actor =>
      obtain ⟨room, hok, -⟩ := Tx.returns_map.mp h
      obtain ⟨-, _, _, -, -, hsame⟩ := createRoom_ok hok
      exact hsame.messages
  | setRoomState roomId archived frozen actor =>
      obtain ⟨r, hok, -⟩ := Tx.returns_map.mp h
      exact (setRoomState_ok hok).messages
  | recordExportRequested roomId actor =>
      obtain ⟨u, hok, -⟩ := Tx.returns_map.mp h
      exact (recordExportRequested_ok hok).messages
  | setMemberModeration roomId subject payload actor =>
      obtain ⟨moderation, hok, -⟩ := Tx.returns_map.mp h
      obtain ⟨-, row, -, hcommits⟩ := setMemberModeration_ok hok
      exact hcommits.messages
  | markRead roomId subject messageId =>
      obtain ⟨mutation, hok, -⟩ := Tx.returns_map.mp h
      obtain ⟨t, rfl⟩ := markRead_ok hok
      rfl
  | clearReadState roomId subject =>
      obtain ⟨removed, hok, -⟩ := Tx.returns_map.mp h
      obtain ⟨t, rfl⟩ := clearReadState_ok hok
      rfl
  | recordWebhookAttempt deliveryId attempt =>
      obtain ⟨u, hok, -⟩ := Tx.returns_map.mp h
      obtain ⟨-, -, rfl⟩ := recordWebhookAttempt_ok hok
      rfl
  | retryWebhookDelivery deliveryId =>
      obtain ⟨delivery, hok, -⟩ := Tx.returns_map.mp h
      obtain ⟨row, -, -, -, -, rfl⟩ := retryWebhookDelivery_ok hok
      rfl
  | deleteRoom _ _ => exact absurd hcmd id
  | createMessage _ => exact absurd hcmd id
  | updateMessage _ => exact absurd hcmd id
  | deleteMessage _ => exact absurd hcmd id
  | setMessageReaction _ => exact absurd hcmd id
  | setMessagePin _ => exact absurd hcmd id
  | runRetention _ => exact absurd hcmd id

/-- The calls that leave the table of cursors as it is. -/
def Command.LeavesCursors : Command → Prop
  | markRead _ _ _ | clearReadState _ _ | deleteRoom _ _ => False
  | _ => True

theorem readStates_left (h : Tx.Returns (cmd.tx cfg rd) db reply db')
    (hcmd : cmd.LeavesCursors) : db'.readStates = db.readStates := by
  cases cmd with
  | createRoom payload actor =>
      obtain ⟨room, hok, -⟩ := Tx.returns_map.mp h
      obtain ⟨-, _, _, -, -, hsame⟩ := createRoom_ok hok
      exact hsame.readStates
  | setRoomState roomId archived frozen actor =>
      obtain ⟨r, hok, -⟩ := Tx.returns_map.mp h
      exact (setRoomState_ok hok).readStates
  | recordExportRequested roomId actor =>
      obtain ⟨u, hok, -⟩ := Tx.returns_map.mp h
      exact (recordExportRequested_ok hok).readStates
  | createMessage args =>
      obtain ⟨⟨m, created⟩, hok, -⟩ := Tx.returns_map.mp h
      rcases (createMessage_ok hok).2 with ⟨-, rfl, -⟩ | ⟨-, hcreated⟩
      · rfl
      · obtain ⟨_, _, -, -, -, -, -, hcommits⟩ := hcreated.effect
        exact hcommits.readStates
  | updateMessage args =>
      obtain ⟨m, hok, -⟩ := Tx.returns_map.mp h
      exact (updateMessage_ok hok).commits.readStates
  | deleteMessage args =>
      obtain ⟨⟨m, changed⟩, hok, -⟩ := Tx.returns_map.mp h
      obtain ⟨-, -, row, -, -, -, -, ⟨-, rfl, -⟩ | ⟨-, hdeleted⟩⟩ := deleteMessage_ok hok
      · rfl
      · exact hdeleted.commits.readStates
  | setMessageReaction args =>
      obtain ⟨mutation, hok, -⟩ := Tx.returns_map.mp h
      obtain ⟨-, row, -, -, -, -, ⟨-, rfl, -⟩ | hreacted⟩ := setMessageReaction_ok hok
      · rfl
      · obtain ⟨_, _, -, -, -, hcommits⟩ := hreacted.effect
        exact hcommits.readStates
  | setMessagePin args =>
      obtain ⟨mutation, hok, -⟩ := Tx.returns_map.mp h
      obtain ⟨-, row, -, -, -, -, ⟨-, rfl, -⟩ | hpinned⟩ := setMessagePin_ok hok
      · rfl
      · exact hpinned.commits.readStates
  | setMemberModeration id subject payload actor =>
      obtain ⟨moderation, hok, -⟩ := Tx.returns_map.mp h
      obtain ⟨-, row, -, hcommits⟩ := setMemberModeration_ok hok
      rw [hcommits.readStates]
      rfl
  | recordWebhookAttempt deliveryId attempt =>
      obtain ⟨u, hok, -⟩ := Tx.returns_map.mp h
      obtain ⟨-, -, rfl⟩ := recordWebhookAttempt_ok hok
      rfl
  | retryWebhookDelivery deliveryId =>
      obtain ⟨delivery, hok, -⟩ := Tx.returns_map.mp h
      obtain ⟨row, -, -, -, -, rfl⟩ := retryWebhookDelivery_ok hok
      rfl
  | runRetention actor =>
      obtain ⟨r, hok, -⟩ := Tx.returns_map.mp h
      exact (runRetention_ok hok).2.readStates
  | markRead _ _ _ => exact absurd hcmd id
  | clearReadState _ _ => exact absurd hcmd id
  | deleteRoom _ _ => exact absurd hcmd id

/-- The calls that change no message leave the reactions too. -/
theorem reactions_left (h : Tx.Returns (cmd.tx cfg rd) db reply db')
    (hcmd : cmd.LeavesMessages) : db'.reactions = db.reactions := by
  cases cmd with
  | createRoom payload actor =>
      obtain ⟨room, hok, -⟩ := Tx.returns_map.mp h
      obtain ⟨-, _, _, -, -, hsame⟩ := createRoom_ok hok
      exact hsame.reactions
  | setRoomState roomId archived frozen actor =>
      obtain ⟨r, hok, -⟩ := Tx.returns_map.mp h
      exact (setRoomState_ok hok).reactions
  | recordExportRequested roomId actor =>
      obtain ⟨u, hok, -⟩ := Tx.returns_map.mp h
      exact (recordExportRequested_ok hok).reactions
  | setMemberModeration roomId subject payload actor =>
      obtain ⟨moderation, hok, -⟩ := Tx.returns_map.mp h
      obtain ⟨-, row, -, hcommits⟩ := setMemberModeration_ok hok
      exact hcommits.reactions
  | markRead roomId subject messageId =>
      obtain ⟨mutation, hok, -⟩ := Tx.returns_map.mp h
      obtain ⟨t, rfl⟩ := markRead_ok hok
      rfl
  | clearReadState roomId subject =>
      obtain ⟨removed, hok, -⟩ := Tx.returns_map.mp h
      obtain ⟨t, rfl⟩ := clearReadState_ok hok
      rfl
  | recordWebhookAttempt deliveryId attempt =>
      obtain ⟨u, hok, -⟩ := Tx.returns_map.mp h
      obtain ⟨-, -, rfl⟩ := recordWebhookAttempt_ok hok
      rfl
  | retryWebhookDelivery deliveryId =>
      obtain ⟨delivery, hok, -⟩ := Tx.returns_map.mp h
      obtain ⟨row, -, -, -, -, rfl⟩ := retryWebhookDelivery_ok hok
      rfl
  | deleteRoom _ _ => exact absurd hcmd id
  | createMessage _ => exact absurd hcmd id
  | updateMessage _ => exact absurd hcmd id
  | deleteMessage _ => exact absurd hcmd id
  | setMessageReaction _ => exact absurd hcmd id
  | setMessagePin _ => exact absurd hcmd id
  | runRetention _ => exact absurd hcmd id

/-! ## Rooms of a call -/

/-- A room with this id exists. -/
def HasRoom (db : Database) (roomId : String) : Prop := ∃ room ∈ db.rooms, room.key = roomId

theorem hasRoom_iff {roomId : String} :
    HasRoom db roomId ↔ (db.rooms.find? roomId).isSome = true :=
  Table.find?_isSome.symm

/-- Room ids are patterns without white space. -/
theorem HasRoom.stripped {roomId : String} (h : HasRoom db roomId) :
    stripWhitespace roomId = roomId := by
  obtain ⟨room, -, rfl⟩ := h
  exact room.id.stripWhitespace_eq

theorem HasRoom.of_eq {roomId : String} (h : HasRoom db roomId) (hrooms : db'.rooms = db.rooms) :
    HasRoom db' roomId := by
  unfold HasRoom
  rw [hrooms]
  exact h

/-- Only its own deletion removes a room. -/
theorem room_kept (h : Tx.Returns (cmd.tx cfg rd) db reply db') {roomId : String}
    (hroom : HasRoom db roomId) :
    HasRoom db' roomId ∨ ∃ actor, cmd = .deleteRoom roomId actor := by
  cases cmd with
  | createRoom payload actor =>
      obtain ⟨room, hok, -⟩ := Tx.returns_map.mp h
      obtain ⟨-, row, inserted, hins, -, hsame⟩ := createRoom_ok hok
      obtain ⟨old, hold, hkey⟩ := hroom
      refine .inl ⟨old, ?_, hkey⟩
      rw [hsame.rooms]
      exact (Table.mem_of_insert? hins).mpr (.inl hold)
  | setRoomState id archived frozen actor =>
      obtain ⟨r, hok, -⟩ := Tx.returns_map.mp h
      left
      rw [hasRoom_iff, (setRoomState_ok hok).rooms]
      exact hasRoom_iff.mp hroom
  | deleteRoom id actor =>
      obtain ⟨n, hok, -⟩ := Tx.returns_map.mp h
      obtain ⟨-, audited, hsame, rfl⟩ := deleteRoom_ok hok
      by_cases hid : id = roomId
      · exact .inr ⟨actor, by rw [hid]⟩
      · obtain ⟨old, hold, hkey⟩ := hroom
        refine .inl ⟨old, Table.mem_deleteWhere.mpr ⟨?_, ?_⟩, hkey⟩
        · change old ∈ audited.rooms
          rw [hsame.rooms]
          exact hold
        · rw [hkey]
          exact fun h => hid h.symm
  | recordExportRequested id actor =>
      obtain ⟨u, hok, -⟩ := Tx.returns_map.mp h
      exact .inl (hroom.of_eq (recordExportRequested_ok hok).rooms)
  | createMessage args =>
      obtain ⟨⟨m, created⟩, hok, -⟩ := Tx.returns_map.mp h
      rcases (createMessage_ok hok).2 with ⟨-, rfl, -⟩ | ⟨-, hcreated⟩
      · exact .inl hroom
      · obtain ⟨_, _, -, -, -, -, -, hcommits⟩ := hcreated.effect
        exact .inl (hroom.of_eq hcommits.rooms)
  | updateMessage args =>
      obtain ⟨m, hok, -⟩ := Tx.returns_map.mp h
      exact .inl (hroom.of_eq (updateMessage_ok hok).commits.rooms)
  | deleteMessage args =>
      obtain ⟨⟨m, changed⟩, hok, -⟩ := Tx.returns_map.mp h
      obtain ⟨-, -, row, -, -, -, -, ⟨-, rfl, -⟩ | ⟨-, hdeleted⟩⟩ := deleteMessage_ok hok
      · exact .inl hroom
      · exact .inl (hroom.of_eq hdeleted.commits.rooms)
  | setMessageReaction args =>
      obtain ⟨mutation, hok, -⟩ := Tx.returns_map.mp h
      obtain ⟨-, row, -, -, -, -, ⟨-, rfl, -⟩ | hreacted⟩ := setMessageReaction_ok hok
      · exact .inl hroom
      · obtain ⟨_, _, -, -, -, hcommits⟩ := hreacted.effect
        exact .inl (hroom.of_eq hcommits.rooms)
  | setMessagePin args =>
      obtain ⟨mutation, hok, -⟩ := Tx.returns_map.mp h
      obtain ⟨-, row, -, -, -, -, ⟨-, rfl, -⟩ | hpinned⟩ := setMessagePin_ok hok
      · exact .inl hroom
      · exact .inl (hroom.of_eq hpinned.commits.rooms)
  | setMemberModeration id subject payload actor =>
      obtain ⟨moderation, hok, -⟩ := Tx.returns_map.mp h
      obtain ⟨-, row, -, hcommits⟩ := setMemberModeration_ok hok
      exact .inl (hroom.of_eq hcommits.rooms)
  | markRead id subject messageId =>
      obtain ⟨mutation, hok, -⟩ := Tx.returns_map.mp h
      obtain ⟨t, rfl⟩ := markRead_ok hok
      exact .inl hroom
  | clearReadState id subject =>
      obtain ⟨removed, hok, -⟩ := Tx.returns_map.mp h
      obtain ⟨t, rfl⟩ := clearReadState_ok hok
      exact .inl hroom
  | recordWebhookAttempt deliveryId attempt =>
      obtain ⟨u, hok, -⟩ := Tx.returns_map.mp h
      obtain ⟨-, -, rfl⟩ := recordWebhookAttempt_ok hok
      exact .inl hroom
  | retryWebhookDelivery deliveryId =>
      obtain ⟨delivery, hok, -⟩ := Tx.returns_map.mp h
      obtain ⟨row, -, -, -, -, rfl⟩ := retryWebhookDelivery_ok hok
      exact .inl hroom
  | runRetention actor =>
      obtain ⟨r, hok, -⟩ := Tx.returns_map.mp h
      exact .inl (hroom.of_eq (runRetention_ok hok).2.rooms)

/-- A row that survives a call did not belong to the room the call deleted. -/
theorem deleteRoom_survivor {roomId actor : String} {s : MessageRow}
    (h : Tx.Returns (Command.tx cfg rd (.deleteRoom roomId actor)) db reply db')
    (hs : s ∈ db'.messages) : s.roomId ≠ roomId := by
  obtain ⟨n, hok, -⟩ := Tx.returns_map.mp h
  obtain ⟨-, audited, -, rfl⟩ := deleteRoom_ok hok
  obtain ⟨r, -, hne, hrs⟩ := mem_deleteRoom hs
  rw [hrs.identity.roomId]
  exact hne

/-! ## The invariant -/

/-- What holds of the message rows of every reachable database. -/
structure Consistent (db : Database) : Prop where
  ids : ∀ m ∈ db.messages, stripWhitespace m.id = m.id
  rooms : ∀ m ∈ db.messages, HasRoom db m.roomId
  decodes : ∀ m ∈ db.messages, Decodes m
  clientKeys : ∀ m ∈ db.messages, ∀ key ∈ m.clientMessageId, stripWhitespace key = key
  clientUnique : ∀ m ∈ db.messages, ∀ n ∈ db.messages, m.roomId = n.roomId →
    m.clientMessageId = n.clientMessageId → m.clientMessageId ≠ none → m = n

theorem Consistent.empty : Consistent {} := by
  constructor <;> intro m hm <;> exact absurd hm Table.not_mem_empty

theorem Consistent.call (hdb : Consistent db) (h : Tx.Returns (cmd.tx cfg rd) db reply db') :
    Consistent db' := by
  constructor
  · intro s hs
    cases message_origin h hs with
    | kept r hr hsame _ =>
        rw [hsame.id]
        exact hdb.ids r hr
    | created args built _ _ hbuild _ hsame _ =>
        rw [hsame.id]
        change stripWhitespace built.id = built.id
        rw [(Message.build_ok hbuild).id, stripWhitespace_idem]
  · intro s hs
    have hroom : HasRoom db s.roomId := by
      cases message_origin h hs with
      | kept r hr hsame _ =>
          rw [hsame.roomId]
          exact hdb.rooms r hr
      | created args built _ _ _ hadm hsame _ =>
          rw [hsame.roomId]
          exact hasRoom_iff.mpr hadm.1
    rcases room_kept h hroom with hkept | ⟨actor, rfl⟩
    · exact hkept
    · exact absurd rfl (deleteRoom_survivor h hs)
  · intro s hs
    cases message_origin h hs with
    | kept r hr _ hdecodes => exact hdecodes (hdb.decodes r hr)
    | created _ _ _ _ _ _ _ hdecodes => exact hdecodes
  · intro s hs key hkey
    cases message_origin h hs with
    | kept r hr hsame _ =>
        rw [hsame.clientMessageId] at hkey
        exact hdb.clientKeys r hr key hkey
    | created args built _ _ hbuild _ hsame _ =>
        rw [hsame.clientMessageId] at hkey
        change key ∈ built.clientMessageId at hkey
        rw [(Message.build_ok hbuild).clientMessageId] at hkey
        obtain ⟨raw, -, rfl⟩ := Option.map_eq_some_iff.mp (Option.mem_def.mp hkey)
        exact stripWhitespace_idem raw
  · intro s hs t ht hroom hkey hsome
    apply Table.eq_of_key hs ht
    cases message_origin h hs with
    | kept r hr hsame _ =>
        cases message_origin h ht with
        | kept r' hr' hsame' _ =>
            have hrr : r = r' := hdb.clientUnique r hr r' hr'
              (by rw [← hsame.roomId, ← hsame'.roomId, hroom])
              (by rw [← hsame.clientMessageId, ← hsame'.clientMessageId, hkey])
              (by rw [← hsame.clientMessageId]; exact hsome)
            rw [hsame.id, hsame'.id, hrr]
        | created args built _ _ _ hadm hsame' _ =>
            exfalso
            obtain ⟨key, hsomeKey⟩ := Option.ne_none_iff_exists'.mp hsome
            refine hadm.2.2 key ?_ r hr ⟨?_, ?_⟩
            · rw [← hsame'.clientMessageId, ← hkey, hsomeKey]
              rfl
            · rw [← hsame.roomId, ← hsame'.roomId, hroom]
            · rw [← hsame.clientMessageId, hsomeKey]
    | created args built hcmd _ hbuild hadm hsame _ =>
        cases message_origin h ht with
        | kept r' hr' hsame' _ =>
            exfalso
            obtain ⟨key, hsomeKey⟩ := Option.ne_none_iff_exists'.mp hsome
            refine hadm.2.2 key ?_ r' hr' ⟨?_, ?_⟩
            · rw [← hsame.clientMessageId, hsomeKey]
              rfl
            · rw [← hsame.roomId, ← hsame'.roomId, hroom]
            · rw [← hsame'.clientMessageId, ← hkey, hsomeKey]
        | created args' built' hcmd' _ hbuild' _ hsame' _ =>
            rw [hcmd] at hcmd'
            cases hcmd'
            rw [hbuild] at hbuild'
            cases hbuild'
            rw [hsame.id, hsame'.id]

/-- Every reachable database is consistent. -/
theorem StoreReachable.consistent (h : StoreReachable cfg db) : Consistent db :=
  h.invariant Consistent Consistent.empty fun _ _ _ _ _ hdb hok => hdb.call hok

end Store
end ChatEngine
