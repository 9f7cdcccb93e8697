import ChatEngine.Store.Caps

/-!
# How one call changes the message table

Every call of the store does one of three things to the table of messages.

* `Prunes`: it deletes rows, and the rows that stay lose their reference to a deleted parent;
* `Rewrites`: it rewrites one row that is not deleted, as an edit, a deletion, a reaction or a pin;
* it inserts a row and prunes the table in the same transaction.

`messages_changed` says which, and `Command.Selects` which rows a call deletes.  A row that stays
is therefore known exactly, and the properties of every run that follow from it need no look at
the operations.
-/

namespace ChatEngine
namespace Store

open Lib
open Models

/-! ## Pruning -/

/-- The rows under these ids are deleted, and the others forget such a parent. -/
def Prunes (ids : List String) (db db' : Database) : Prop :=
  ∀ s, s ∈ db'.messages ↔ ∃ r ∈ db.messages, r.id ∉ ids ∧ r.forgetParents ids = s

section Prunes

variable {cfg : Config} {ids ids' : List String} {db db₁ db' : Database} {r : MessageRow}

theorem MessageRow.forgetParents_forgetParents :
    (r.forgetParents ids).forgetParents ids' = r.forgetParents (ids ++ ids') := by
  unfold MessageRow.forgetParents
  dsimp only
  rw [Option.filter_filter]
  congr 2
  ext p
  simp only [List.mem_append, not_or, Bool.decide_and]

theorem Prunes.of_same (h : db'.messages = db.messages) : Prunes [] db db' := by
  intro s
  rw [h]
  simp

theorem Prunes.trans (h : Prunes ids db db₁) (h' : Prunes ids' db₁ db') :
    Prunes (ids ++ ids') db db' := by
  intro s
  rw [h' s]
  constructor
  · rintro ⟨t, ht, hout', rfl⟩
    obtain ⟨r, hr, hout, rfl⟩ := (h t).mp ht
    refine ⟨r, hr, ?_, MessageRow.forgetParents_forgetParents.symm⟩
    rw [List.mem_append, not_or]
    exact ⟨hout, hout'⟩
  · rintro ⟨r, hr, hout, rfl⟩
    rw [List.mem_append, not_or] at hout
    refine ⟨r.forgetParents ids, (h _).mpr ⟨r, hr, hout.1, rfl⟩, hout.2, ?_⟩
    exact MessageRow.forgetParents_forgetParents

theorem Prunes.congr_left (h : Prunes ids db₁ db') (hsame : db₁.messages = db.messages) :
    Prunes ids db db' := by
  intro s
  rw [h s, hsame]

theorem Prunes.congr_right (h : Prunes ids db db₁) (hsame : db'.messages = db₁.messages) :
    Prunes ids db db' := by
  intro s
  rw [hsame]
  exact h s

theorem prunes_deleteMessages : Prunes ids db (db.deleteMessages ids) :=
  fun _ => Database.mem_deleteMessages

theorem prunes_removeBatch {batch : List MessageRow} :
    Prunes (batch.map MessageRow.id) db (db.removeBatch batch) :=
  fun _ => Database.mem_deleteMessages

/-- The row a pruned table holds for a row that was not deleted. -/
theorem Prunes.kept (h : Prunes ids db db') (hr : r ∈ db.messages) (hout : r.id ∉ ids) :
    r.forgetParents ids ∈ db'.messages :=
  (h _).mpr ⟨r, hr, hout, rfl⟩

theorem Prunes.stored_iff (h : Prunes ids db db') (hr : r ∈ db.messages) :
    Stored r.id db' ↔ r.id ∉ ids := by
  constructor
  · rintro ⟨s, hs, hid⟩
    obtain ⟨t, ht, hout, rfl⟩ := (h s).mp hs
    have htr : t.id = r.id := hid
    rwa [htr] at hout
  · intro hout
    exact ⟨_, h.kept hr hout, rfl⟩

/-- The messages a trim deletes: those of its three passes. -/
def Database.trimmed (cfg : Config) (roomId : String) (now : Timestamp) (db : Database) :
    List MessageRow :=
  let aged := db.removeBatch (pastAge cfg now db)
  let capped := aged.removeBatch (pastRoomCap cfg roomId aged)
  pastAge cfg now db ++ pastRoomCap cfg roomId aged ++ pastGlobalCap cfg capped

theorem prunes_trim (roomId : String) (now : Timestamp) :
    Prunes ((db.trimmed cfg roomId now).map MessageRow.id) db (db.trim cfg roomId now) := by
  unfold Database.trimmed Database.trim
  dsimp only
  rw [List.map_append, List.map_append]
  exact (prunes_removeBatch.trans prunes_removeBatch).trans prunes_removeBatch

theorem MessageRow.forgetParents_of_not_mem
    (h : ∀ p, r.parentMessageId = some p → p ∉ ids) : r.forgetParents ids = r := by
  have hparent : r.parentMessageId.filter (fun p => decide (p ∉ ids)) = r.parentMessageId := by
    cases hp : r.parentMessageId with
    | none => rfl
    | some p => rw [Option.filter_some, if_pos (decide_eq_true (h p hp))]
  unfold MessageRow.forgetParents
  rw [hparent]

theorem MessageRow.forgetParents_of_mem {p : String} (hparent : r.parentMessageId = some p)
    (hp : p ∈ ids) : r.forgetParents ids = { r with parentMessageId := none } := by
  unfold MessageRow.forgetParents
  rw [hparent, Option.filter_some, if_neg (by simpa using hp)]

theorem MessageRow.parent_of_forgetParents {p : String}
    (h : (r.forgetParents ids).parentMessageId = some p) :
    r.parentMessageId = some p ∧ p ∉ ids := by
  obtain ⟨hparent, hout⟩ := Option.filter_eq_some_iff.mp h
  exact ⟨hparent, of_decide_eq_true hout⟩

end Prunes

/-! ## Rewriting one row -/

/-- The four ways in which a call rewrites a message row that is not deleted. -/
inductive Rewrites (rd : Readings) (r : MessageRow) : Command → MessageRow → Prop
  | edited (args : UpdateMessage) :
      Rewrites rd r (.updateMessage args) (args.apply (rd.now 1) r)
  | deleted (args : DeleteMessage) :
      Rewrites rd r (.deleteMessage args) (r.tombstone (rd.now 1))
  | reacted (args : SetMessageReaction) (summaries : List ReactionSummary) :
      Rewrites rd r (.setMessageReaction args) (r.setReactions summaries)
  | pinned (args : SetMessagePin) :
      Rewrites rd r (.setMessagePin args) (args.apply (rd.now 0) r)

section Rewrites

variable {cfg : Config} {rd : Readings} {cmd : Command} {db db' : Database} {reply : Reply}
  {r s : MessageRow}

theorem Rewrites.identity (h : Rewrites rd r cmd s) : SameIdentity r s := by
  cases h with
  | edited args => exact ⟨rfl, rfl, rfl, rfl, rfl, rfl⟩
  | deleted args => exact ⟨rfl, rfl, rfl, rfl, rfl, rfl⟩
  | reacted args summaries => exact ⟨rfl, rfl, rfl, rfl, rfl, rfl⟩
  | pinned args => exact ⟨rfl, rfl, rfl, rfl, rfl, rfl⟩

theorem Rewrites.parent (h : Rewrites rd r cmd s) : s.parentMessageId = r.parentMessageId := by
  cases h with
  | edited args => rfl
  | deleted args => rfl
  | reacted args summaries => rfl
  | pinned args => rfl

/-- The table with one row in the place of another. -/
def Replaces (db : Database) (r s : MessageRow) (db' : Database) : Prop :=
  ∀ t, t ∈ db'.messages ↔ (t ∈ db.messages ∧ t.id ≠ r.id) ∨ t = s

theorem Replaces.of_setMessage {base : Database} (hbase : base.messages = db.messages)
    {f : MessageRow → MessageRow} {hid : ∀ r, (f r).id = r.id} {messageId : String}
    (hr : r ∈ db.messages) (hrid : r.id = messageId)
    (hafter : db'.messages = (base.setMessage messageId f hid).messages) :
    Replaces db r (f r) db' := by
  intro t
  rw [hafter, mem_setMessage, hbase, hrid]
  apply or_congr_right
  constructor
  · rintro ⟨q, hq, hqid, rfl⟩
    rw [Table.eq_of_key hq hr (hqid.trans hrid.symm)]
  · rintro rfl
    exact ⟨r, hr, hrid, rfl⟩

/-! ## Every call -/

/-- The rows that a call deletes: those of the deleted room, those past the configured age, and
those that the trim of a create selects. -/
def Command.Selects (cfg : Config) (rd : Readings) (db : Database) :
    Command → MessageRow → Prop
  | .deleteRoom roomId _, r => r.roomId = roomId
  | .runRetention _, r => ∃ cutoff ∈ retentionCutoff cfg (rd.now 0), r.createdAt < cutoff
  | .createMessage args, r => ∃ built inserted,
      findIdempotent args.roomId args.clientMessageId db = none ∧
      (args.raw (rd.uuid 0) (rd.now 1)).build = .ok built ∧
      db.messages.insert? (newMessageRow built args.authorSubject) = some inserted ∧
      r.id ∈ (({ db with messages := inserted } : Database).trimmed cfg args.roomId
        built.createdAt).map MessageRow.id
  | _, _ => False

/-- What a call does to the table of messages. -/
inductive MessagesChanged (cfg : Config) (rd : Readings) (cmd : Command) (db db' : Database) : Prop
  | pruned (ids : List String) :
      (∀ r ∈ db.messages, r.id ∈ ids → cmd.Selects cfg rd db r) → Prunes ids db db' →
      MessagesChanged cfg rd cmd db db'
  | rewrote (r s : MessageRow) :
      r ∈ db.messages → r.deletedAt = none → Rewrites rd r cmd s → Replaces db r s db' →
      MessagesChanged cfg rd cmd db db'
  | created (args : CreateMessage) (m : Message) (built : Message)
      (inserted : Table MessageRow String MessageRow.id) :
      cmd = .createMessage args → Created cfg rd args db m db' →
      (args.raw (rd.uuid 0) (rd.now 1)).build = .ok built →
      db.messages.insert? (newMessageRow built args.authorSubject) = some inserted →
      Prunes ((({ db with messages := inserted } : Database).trimmed cfg args.roomId
        built.createdAt).map MessageRow.id) { db with messages := inserted } db' →
      Stored built.id db' →
      MessagesChanged cfg rd cmd db db'

theorem MessagesChanged.of_same (h : db'.messages = db.messages) :
    MessagesChanged cfg rd cmd db db' :=
  .pruned [] (fun _ _ hid => absurd hid List.not_mem_nil) (Prunes.of_same h)

/-- Every call prunes the table, rewrites one row that is not deleted, or inserts a row. -/
theorem messages_changed (h : Tx.Returns (cmd.tx cfg rd) db reply db') :
    MessagesChanged cfg rd cmd db db' := by
  cases cmd with
  | createMessage args =>
      obtain ⟨⟨m, created⟩, hok, -⟩ := Tx.returns_map.mp h
      rcases (createMessage_ok hok).2 with ⟨-, rfl, -⟩ | ⟨-, hcreated⟩
      · exact .of_same rfl
      · obtain ⟨built, inserted, hbuild, -, -, hins, ⟨row, hrow, hrowId, -⟩, hcommits⟩ :=
          hcreated.effect
        exact .created args m built inserted rfl hcreated hbuild hins
          ((prunes_trim _ _).congr_right hcommits.messages) ⟨row, hrow, hrowId⟩
  | updateMessage args =>
      obtain ⟨m, hok, -⟩ := Tx.returns_map.mp h
      have hupdated := updateMessage_ok hok
      obtain ⟨row, hrow, hid, -, hlive, -, -⟩ := hupdated.target
      exact .rewrote row _ hrow hlive (.edited args)
        (Replaces.of_setMessage rfl hrow hid hupdated.commits.messages)
  | deleteMessage args =>
      obtain ⟨⟨m, changed⟩, hok, -⟩ := Tx.returns_map.mp h
      obtain ⟨-, -, row, hrow, hid, -, -, ⟨-, rfl, -⟩ | ⟨-, hdeleted⟩⟩ := deleteMessage_ok hok
      · exact .of_same rfl
      · have hbase : (db.deleteReactionsOf args.messageId).messages = db.messages := rfl
        have hafter : db'.messages = ((db.deleteReactionsOf args.messageId).setMessage
            args.messageId (MessageRow.tombstone (rd.now 1))
            (MessageRow.tombstone_id (rd.now 1))).messages := hdeleted.commits.messages
        exact .rewrote row _ hrow hdeleted.live (.deleted args)
          (Replaces.of_setMessage hbase hrow hid hafter)
  | setMessageReaction args =>
      obtain ⟨mutation, hok, -⟩ := Tx.returns_map.mp h
      obtain ⟨-, row, hrow, hid, -, hlive, ⟨-, rfl, -⟩ | hreacted⟩ := setMessageReaction_ok hok
      · exact .of_same rfl
      · obtain ⟨t, summaries, -, -, -, hcommits⟩ := hreacted.effect
        have hbase : ({ db with reactions := t } : Database).messages = db.messages := rfl
        exact .rewrote row _ hrow hlive (.reacted args summaries)
          (Replaces.of_setMessage hbase hrow hid hcommits.messages)
  | setMessagePin args =>
      obtain ⟨mutation, hok, -⟩ := Tx.returns_map.mp h
      obtain ⟨-, row, hrow, hid, -, hlive, ⟨-, rfl, -⟩ | hpinned⟩ := setMessagePin_ok hok
      · exact .of_same rfl
      · exact .rewrote row _ hrow hlive (.pinned args)
          (Replaces.of_setMessage rfl hrow hid hpinned.commits.messages)
  | deleteRoom roomId actor =>
      obtain ⟨n, hok, -⟩ := Tx.returns_map.mp h
      obtain ⟨-, audited, hsame, rfl⟩ := deleteRoom_ok hok
      apply MessagesChanged.pruned
        ((audited.messages.rows.filter fun r => r.roomId = roomId).map MessageRow.id)
      · intro r hr hin
        obtain ⟨b, hb, hbid⟩ := List.mem_map.mp hin
        obtain ⟨hmem, hroom⟩ := List.mem_filter.mp hb
        rw [hsame.messages] at hmem
        have hbroom : b.roomId = roomId := of_decide_eq_true hroom
        rw [Table.eq_of_key hmem hr hbid] at hbroom
        exact hbroom
      · exact prunes_deleteMessages.congr_left hsame.messages
  | runRetention actor =>
      obtain ⟨r, hok, -⟩ := Tx.returns_map.mp h
      obtain ⟨hcutoff, hsame⟩ := runRetention_ok hok
      apply MessagesChanged.pruned ((olderThan r.2 db).map MessageRow.id)
      · intro s hs hin
        obtain ⟨b, hb, hbid⟩ := List.mem_map.mp hin
        obtain ⟨hmem, hold⟩ := List.mem_filter.mp hb
        rw [← Table.eq_of_key hmem hs hbid]
        exact ⟨r.2, hcutoff, of_decide_eq_true hold⟩
      · exact prunes_removeBatch.congr_right hsame.messages
  | _ => exact .of_same (messages_left h trivial)

end Rewrites

end Store
end ChatEngine
