import ChatEngine.Store.Reads
import ChatEngine.Store.WellFormed

/-!
# What is written can be read

Runs of the calls that the endpoints make, with a ledger of what the last write of every message
returned.

* `Submitted`, the calls whose arguments the API models have accepted;
* `reply_decodes` and `others_kept`: a call returns what its message row decodes to, and leaves
  every other row as it is, apart from the parent of a reply;
* `read_back`, the property of the runs: no accepted write is refused for its content, and every
  row decodes to what the last write of its message returned.
-/

namespace ChatEngine
namespace Store

open Lib
open Models

/-! ## The calls of the endpoints -/

/-- The create call of the endpoint: the header's key comes before the payload's. -/
def Principal.createMessage (p : Principal) (roomId sender : String) (payload : MessageCreate)
    (idempotencyKey : Option String) : CreateMessage :=
  { roomId := roomId
    sender := sender
    content := payload.content
    metadata := payload.metadata
    attachments := payload.attachments
    mentionedSubjects := payload.mentionedSubjects
    clientMessageId := idempotencyKey.or payload.clientMessageId
    parentMessageId := payload.parentMessageId
    allowFrozen := p.isAdmin
    memberSubject := if p.isAdmin = true then none else p.subject
    authorSubject := p.subject }

/-- The update call of the endpoint. -/
def Principal.updateMessage (p : Principal) (roomId messageId actor : String)
    (payload : MessageUpdate) : UpdateMessage :=
  { roomId := roomId
    messageId := messageId
    actor := actor
    content := payload.content
    metadata := payload.metadata
    mentionedSubjects := payload.mentionedSubjects
    isAdmin := p.isAdmin
    memberSubject := if p.isAdmin = true then none else p.subject }

/-- The arguments of a call are what the API models have accepted. -/
def Submitted : Command → Prop
  | .createMessage args =>
      ∃ p : Principal, ∃ raw payload sender key, MessageCreate.build raw = .ok payload ∧
        args = Principal.createMessage p args.roomId sender payload key
  | .updateMessage args =>
      ∃ p : Principal, ∃ raw payload, MessageUpdate.build raw = .ok payload ∧
        args = Principal.updateMessage p args.roomId args.messageId args.actor payload
  | .setMessageReaction args =>
      matchesReactionKey args.key = true ∧
        ∃ p : Principal, ∃ raw given, ReactionActor.build raw = .ok given ∧
          p.actor given = some args.reactor
  | .setMessagePin args =>
      ∃ p : Principal, ∃ raw given, PinActor.build raw = .ok given ∧
        p.actor given = some args.pinner
  | _ => True

/-- The name that the call stores does not begin with a NUL. -/
def NoLeadingNul : Command → Prop
  | .setMessageReaction args => args.present = true → args.reactor.toList.head? ≠ some '\x00'
  | .setMessagePin args => args.pinned = true → args.pinner.toList.head? ≠ some '\x00'
  | _ => True

/-- SQLite counts a name of 1 to 64 characters in the same way unless it begins with a NUL. -/
theorem sqliteActorOk_of_normal {actor : String} (h : NormalActor actor)
    (hnul : actor.toList.head? ≠ some '\x00') : sqliteActorOk actor = true := by
  have hlength := h.length
  unfold actorLengthOk at hlength
  rw [Bool.and_eq_true, decide_eq_true_eq, decide_eq_true_eq] at hlength
  unfold sqliteActorOk sqliteLength
  rw [Bool.and_eq_true, decide_eq_true_eq, decide_eq_true_eq]
  have hcount : actor.toList.length = actor.length := String.length_toList
  have hprefix := (List.takeWhile_prefix (l := actor.toList) (· ≠ '\x00')).length_le
  refine ⟨?_, by omega⟩
  cases hlist : actor.toList with
  | nil =>
      rw [hlist] at hcount
      simp at hcount
      omega
  | cons c rest =>
      rw [hlist] at hnul
      have hc : c ≠ '\x00' := fun heq => hnul (by rw [heq]; rfl)
      simp [hc]

section Submitted

variable {cfg : Config} {rd : Readings} {cmd : Command} {db db' : Database} {reply : Reply}

theorem Submitted.create {args : CreateMessage} (h : Submitted (.createMessage args)) :
    args.Normal := by
  obtain ⟨p, raw, payload, sender, key, hbuild, hargs⟩ := h
  have hnormal := MessageCreate.build_ok hbuild
  rw [hargs]
  exact ⟨hnormal.metadata, hnormal.attachments, hnormal.mentions⟩

theorem Submitted.update {args : UpdateMessage} (h : Submitted (.updateMessage args)) :
    args.Normal := by
  obtain ⟨p, raw, payload, hbuild, hargs⟩ := h
  have hnormal := MessageUpdate.build_ok hbuild
  rw [hargs]
  exact ⟨hnormal.metadata, hnormal.mentions⟩

theorem Submitted.reaction {args : SetMessageReaction} (h : Submitted (.setMessageReaction args))
    (hnul : NoLeadingNul (.setMessageReaction args)) : args.Normal := by
  obtain ⟨hkey, p, raw, given, hbuild, hactor⟩ := h
  have hnormal := p.actor_normal (validateActor_ok hbuild) args.reactor hactor
  exact ⟨hnormal, fun hpresent => sqliteActorOk_of_normal hnormal (hnul hpresent), hkey⟩

theorem Submitted.pin {args : SetMessagePin} (h : Submitted (.setMessagePin args))
    (hnul : NoLeadingNul (.setMessagePin args)) : args.Normal := by
  obtain ⟨p, raw, given, hbuild, hactor⟩ := h
  have hnormal := p.actor_normal (validateActor_ok hbuild) args.pinner hactor
  exact ⟨hnormal, fun hpinned => sqliteActorOk_of_normal hnormal (hnul hpinned)⟩

/-! ## The tables stay sound -/

theorem Sound.empty : Sound {} :=
  ⟨fun _ hr => absurd hr Table.not_mem_empty, fun _ hr => absurd hr Table.not_mem_empty⟩

theorem Sound.of_kept (h : Sound db)
    (hrows : ∀ s ∈ db'.messages, ∃ r ∈ db.messages, SameButParent r s)
    (hreactions : ∀ r ∈ db'.reactions, r ∈ db.reactions) : Sound db' := by
  constructor
  · intro s hs
    obtain ⟨r, hr, hsame⟩ := hrows s hs
    exact (h.rows r hr).sameButParent hsame
  · intro r hr
    exact h.reactions r (hreactions r hr)

theorem Sound.of_same (h : Sound db) (hmessages : db'.messages = db.messages)
    (hreactions : db'.reactions = db.reactions) : Sound db' :=
  h.of_kept (fun s hs => ⟨s, hmessages ▸ hs, SameButParent.refl s⟩) fun _ hr => hreactions ▸ hr

/-- One row rewritten to a well-formed one. -/
theorem Sound.setMessage (h : Sound db) {messageId : String} {f : MessageRow → MessageRow}
    {hid : ∀ r, (f r).id = r.id}
    (hf : ∀ r ∈ db.messages, r.id = messageId → (f r).WellFormed) :
    Sound (db.setMessage messageId f hid) := by
  constructor
  · intro s hs
    rcases mem_setMessage.mp hs with ⟨hmem, -⟩ | ⟨r, hr, hrid, rfl⟩
    · exact h.rows s hmem
    · exact hf r hr hrid
  · exact h.reactions

theorem Sound.removeBatch (h : Sound db) (batch : List MessageRow) :
    Sound (db.removeBatch batch) := by
  apply h.of_kept
  · intro s hs
    obtain ⟨r, hr, -, hforgets⟩ := mem_removeBatch hs
    exact ⟨r, hr, hforgets.same⟩
  · intro r hr
    exact (Table.mem_deleteWhere.mp hr).1

theorem Sound.trim (h : Sound db) (roomId : String) (now : Timestamp) :
    Sound (db.trim cfg roomId now) :=
  ((h.removeBatch _).removeBatch _).removeBatch _

/-- Accepted calls keep the tables sound. -/
theorem Sound.call (h : Sound db) (hsubmitted : Submitted cmd) (hnul : NoLeadingNul cmd)
    (hok : Tx.Returns (cmd.tx cfg rd) db reply db') : Sound db' := by
  cases cmd with
  | createMessage args =>
      obtain ⟨⟨m, created⟩, hcreate, -⟩ := Tx.returns_map.mp hok
      rcases (createMessage_ok hcreate).2 with ⟨-, rfl, -⟩ | ⟨-, hcreated⟩
      · exact h
      · obtain ⟨built, inserted, hbuild, -, -, hins, -, hcommits⟩ := hcreated.effect
        have hnormal := hsubmitted.create
        rw [hnormal.build_eq] at hbuild
        obtain rfl := (Except.ok.inj hbuild).symm
        have hinserted : Sound { db with messages := inserted } := by
          refine ⟨?_, h.reactions⟩
          intro s hs
          rcases (Table.mem_of_insert? hins).mp hs with hold | rfl
          · exact h.rows s hold
          · exact newMessageRow_wellFormed hnormal _ _ _
        exact (hinserted.trim args.roomId _).of_same hcommits.messages hcommits.reactions
  | updateMessage args =>
      obtain ⟨m, hupdate, -⟩ := Tx.returns_map.mp hok
      have hupdated := updateMessage_ok hupdate
      obtain ⟨row, hrow, hid, -, hlive, -⟩ := hupdated.target
      apply Sound.of_same _ hupdated.commits.messages hupdated.commits.reactions
      apply h.setMessage
      intro r hr hrid
      rw [Table.eq_of_key hr hrow (hrid.trans hid.symm)]
      exact hsubmitted.update.apply (h.rows row hrow) hlive _
  | deleteMessage args =>
      obtain ⟨⟨m, changed⟩, hdelete, -⟩ := Tx.returns_map.mp hok
      obtain ⟨-, -, row, -, -, -, -, ⟨-, rfl, -⟩ | ⟨-, hdeleted⟩⟩ := deleteMessage_ok hdelete
      · exact h
      · have hreactions : Sound (db.deleteReactionsOf args.messageId) :=
          ⟨h.rows, fun r hr => h.reactions r (Table.mem_deleteWhere.mp hr).1⟩
        have htombstone : Sound ((db.deleteReactionsOf args.messageId).setMessage args.messageId
            (MessageRow.tombstone (rd.now 1)) (MessageRow.tombstone_id (rd.now 1))) :=
          hreactions.setMessage fun r _ _ => MessageRow.WellFormed.tombstoned r _
        exact htombstone.of_same hdeleted.commits.messages hdeleted.commits.reactions
  | setMessageReaction args =>
      obtain ⟨mutation, hreact, -⟩ := Tx.returns_map.mp hok
      obtain ⟨-, row, -, -, -, -, ⟨-, rfl, -⟩ | hreacted⟩ := setMessageReaction_ok hreact
      · exact h
      · obtain ⟨t, summaries, hreactions, hsummaries, -, hcommits⟩ := hreacted.effect
        have hkeys := hreactions.keys h.reactions
        have hvalid := reactionSummaries_valid { db with reactions := t } args.messageId hkeys
        rw [hvalid] at hsummaries
        obtain rfl := Except.ok.inj hsummaries
        have hchanged : Sound { db with reactions := t } := ⟨h.rows, hkeys⟩
        apply Sound.of_same _ hcommits.messages hcommits.reactions
        exact hchanged.setMessage fun r hr _ => (h.rows r hr).reacted hvalid
  | setMessagePin args =>
      obtain ⟨mutation, hpin, -⟩ := Tx.returns_map.mp hok
      obtain ⟨-, row, hrow, hid, -, hlive, ⟨-, rfl, -⟩ | hpinned⟩ := setMessagePin_ok hpin
      · exact h
      · apply Sound.of_same _ hpinned.commits.messages hpinned.commits.reactions
        apply h.setMessage
        intro r hr hrid
        rw [Table.eq_of_key hr hrow (hrid.trans hid.symm)]
        exact (hsubmitted.pin hnul).apply (h.rows row hrow) hlive _
  | deleteRoom roomId actor =>
      obtain ⟨n, hdelete, -⟩ := Tx.returns_map.mp hok
      obtain ⟨-, audited, hsame, rfl⟩ := deleteRoom_ok hdelete
      have haudited : Sound audited := h.of_same hsame.messages hsame.reactions
      apply haudited.of_kept
      · intro s hs
        obtain ⟨r, hr, -, hforgets⟩ := mem_deleteRoom hs
        exact ⟨r, hr, hforgets.same⟩
      · intro r hr
        exact (Table.mem_deleteWhere.mp (Table.mem_deleteWhere.mp hr).1).1
  | runRetention actor =>
      obtain ⟨r, hretention, -⟩ := Tx.returns_map.mp hok
      have hsame := (runRetention_ok hretention).2
      exact (h.removeBatch _).of_same hsame.messages hsame.reactions
  | _ =>
      have hreactions := reactions_left hok trivial
      exact h.of_same (messages_left hok trivial) hreactions

end Submitted

/-! ## What a call leaves of the other rows -/

/-- Every row that is left was there before, apart from parents that were removed. -/
structure Removes (db db' : Database) : Prop where
  ids : ∀ s ∈ db'.messages, ∃ r ∈ db.messages, r.id = s.id
  rows : ∀ s ∈ db'.messages, ∃ r ∈ db.messages, Orphaned db db' r s

section Removal

variable {cfg : Config} {rd : Readings} {cmd : Command} {db db₁ db' : Database} {reply : Reply}

theorem Removes.of_same (h : db'.messages = db.messages) : Removes db db' := by
  constructor
  · intro s hs
    exact ⟨s, h ▸ hs, rfl⟩
  · intro s hs
    exact ⟨s, h ▸ hs, .inl rfl⟩

theorem Removes.trans (h : Removes db db₁) (h' : Removes db₁ db') : Removes db db' := by
  constructor
  · intro s hs
    obtain ⟨t, ht, hts⟩ := h'.ids s hs
    obtain ⟨r, hr, hrt⟩ := h.ids t ht
    exact ⟨r, hr, hrt.trans hts⟩
  · intro s hs
    obtain ⟨t, ht, hts⟩ := h'.rows s hs
    obtain ⟨r, hr, hrt⟩ := h.rows t ht
    exact ⟨r, hr, hrt.trans hts h.ids h'.ids⟩

theorem removes_deleteMessages {batch : List MessageRow} {base : Database}
    (hbase : base.messages = db.messages) (hbatch : ∀ b ∈ batch, b ∈ db.messages) :
    Removes db (base.deleteMessages (batch.map MessageRow.id)) := by
  constructor
  · intro s hs
    obtain ⟨r, hr, -, rfl⟩ := Database.mem_deleteMessages.mp hs
    exact ⟨r, hbase ▸ hr, rfl⟩
  · intro s hs
    obtain ⟨r, hr, -, rfl⟩ := Database.mem_deleteMessages.mp hs
    refine ⟨r, hbase ▸ hr, orphaned_forgetParents ?_ ?_ r⟩
    · intro k hk
      obtain ⟨b, hb, hbid⟩ := List.mem_map.mp hk
      exact ⟨b, hbatch b hb, hbid⟩
    · intro t ht
      obtain ⟨u, -, hkeep, rfl⟩ := Database.mem_deleteMessages.mp ht
      exact hkeep

theorem removes_removeBatch {batch : List MessageRow} (hbatch : ∀ b ∈ batch, b ∈ db.messages) :
    Removes db (db.removeBatch batch) :=
  removes_deleteMessages rfl hbatch

theorem removes_trim (roomId : String) (now : Timestamp) : Removes db (db.trim cfg roomId now) := by
  apply Removes.trans (removes_removeBatch _) (Removes.trans (removes_removeBatch _)
    (removes_removeBatch _))
  · intro b hb
    exact mem_pastAge hb
  · intro b hb
    exact (List.mem_filter.mp (mem_of_mem_firstBy hb)).1
  · intro b hb
    exact mem_of_mem_firstBy hb

/-! ## What a call returns -/

/-- The message that a reply shows. -/
def Reply.message? : Reply → Option Message
  | .message m _ => some m
  | .reaction mutation => some mutation.message
  | .pin mutation => some mutation.message
  | _ => none

/-- After a call: the message it returned is what its row decodes to, and the other rows were
there before. -/
structure Answers (db db' : Database) (answer : Option Message) : Prop where
  reply : ∀ m, answer = some m → ∃ s ∈ db'.messages, s.id = m.id ∧ messageFromRow s = .ok m
  others : ∀ s ∈ db'.messages, (∀ m, answer = some m → m.id ≠ s.id) →
    ∃ r ∈ db.messages, Orphaned db db' r s

theorem Answers.of_removes (h : Removes db db') : Answers db db' none :=
  ⟨fun _ hm => absurd hm (Option.some_ne_none _).symm, fun s hs _ => h.rows s hs⟩

/-- A call that changed nothing and returned what a row decodes to. -/
theorem Answers.of_unchanged (hids : ∀ r ∈ db.messages, stripWhitespace r.id = r.id)
    {row : MessageRow} {m : Message} (hrow : row ∈ db.messages)
    (hdecode : messageFromRow row = .ok m) : Answers db db (some m) := by
  constructor
  · intro m' hm'
    cases hm'
    refine ⟨row, hrow, ?_, hdecode⟩
    rw [(messageFromRow_ok hdecode).1, hids row hrow]
  · intro s hs _
    exact ⟨s, hs, .inl rfl⟩

/-- A call that rewrote one row and returned what the rewritten row decodes to. -/
theorem Answers.of_setMessage (hids : ∀ r ∈ db.messages, stripWhitespace r.id = r.id)
    {base : Database} (hbase : base.messages = db.messages) {messageId : String}
    {f : MessageRow → MessageRow} {hid : ∀ r, (f r).id = r.id}
    (hafter : db'.messages = (base.setMessage messageId f hid).messages)
    {row : MessageRow} (hrow : row ∈ db.messages) (hrowId : row.id = messageId) {m : Message}
    (hdecode : messageFromRow (f row) = .ok m) : Answers db db' (some m) := by
  have hmid : m.id = messageId := by
    rw [(messageFromRow_ok hdecode).1, hid, hids row hrow, hrowId]
  constructor
  · intro m' hm'
    cases hm'
    refine ⟨f row, ?_, by rw [hid, hrowId, hmid], hdecode⟩
    rw [hafter]
    exact mem_setMessage.mpr (.inr ⟨row, hbase ▸ hrow, hrowId, rfl⟩)
  · intro s hs hother
    rw [hafter] at hs
    rcases mem_setMessage.mp hs with ⟨hmem, -⟩ | ⟨r, -, hrid, rfl⟩
    · exact ⟨s, hbase ▸ hmem, .inl rfl⟩
    · exact absurd (hmid.trans (hrid.symm.trans (hid r).symm)) (hother m rfl)

/-- A create returns what its row decodes to, and leaves the rows from before. -/
theorem Created.answers {args : CreateMessage} {m : Message}
    (h : Created cfg rd args db m db')
    (hids : ∀ r ∈ db'.messages, stripWhitespace r.id = r.id) : Answers db db' (some m) := by
  obtain ⟨built, inserted, -, -, -, hins, ⟨row, hrow, hrowId, hdecode⟩, hcommits⟩ := h.effect
  have hmid : m.id = row.id := by rw [(messageFromRow_ok hdecode).1, hids row hrow]
  constructor
  · intro m' hm'
    cases hm'
    exact ⟨row, hrow, hmid.symm, hdecode⟩
  · intro s hs hother
    have hnew : s.id ≠ built.id := by
      intro heq
      exact hother m rfl (hmid.trans (hrowId.trans heq.symm))
    have hold : ∀ t ∈ inserted, t.id ≠ built.id → t ∈ db.messages := by
      intro t ht hne
      rcases (Table.mem_of_insert? hins).mp ht with hmem | rfl
      · exact hmem
      · exact absurd rfl hne
    have hs' := hs
    rw [hcommits.messages] at hs'
    obtain ⟨r, hr, hrs⟩ := (removes_trim args.roomId built.createdAt).rows s hs'
    change r ∈ inserted at hr
    rcases hrs with rfl | ⟨p, hp, ⟨t, ht, htp⟩, hgone, rfl⟩
    · exact ⟨s, hold s hr hnew, .inl rfl⟩
    · -- the removed parent is not the new message, which is still stored
      rw [← hcommits.messages] at hgone
      have hpne : p ≠ built.id := fun heq => hgone row hrow (hrowId.trans heq.symm)
      have htold := hold t ht (htp ▸ hpne)
      exact ⟨r, hold r hr hnew, .inr ⟨p, hp, ⟨t, htold, htp⟩, hgone, rfl⟩⟩

/-- What every call returns and leaves. -/
theorem answers (hdb : Consistent db) (h : Tx.Returns (cmd.tx cfg rd) db reply db') :
    Answers db db' reply.message? := by
  cases cmd with
  | createMessage args =>
      have hdb' := hdb.call h
      obtain ⟨⟨m, created⟩, hok, rfl⟩ := Tx.returns_map.mp h
      rcases (createMessage_ok hok).2 with ⟨-, rfl, row, hfound, hdecode⟩ | ⟨-, hcreated⟩
      · obtain ⟨key, -, -, hmem, -⟩ := findIdempotent_eq_some hfound
        exact Answers.of_unchanged hdb.ids hmem hdecode
      · exact hcreated.answers hdb'.ids
  | updateMessage args =>
      obtain ⟨m, hok, rfl⟩ := Tx.returns_map.mp h
      have hupdated := updateMessage_ok hok
      obtain ⟨row, hrow, hid, -, -, -, hdecode⟩ := hupdated.target
      exact Answers.of_setMessage hdb.ids rfl hupdated.commits.messages hrow hid hdecode
  | deleteMessage args =>
      obtain ⟨⟨m, changed⟩, hok, rfl⟩ := Tx.returns_map.mp h
      obtain ⟨-, -, row, hrow, hid, -, -, hcases⟩ := deleteMessage_ok hok
      rcases hcases with ⟨-, rfl, -, hdecode⟩ | ⟨-, hdeleted⟩
      · exact Answers.of_unchanged hdb.ids hrow hdecode
      · have hbase : (db.deleteReactionsOf args.messageId).messages = db.messages := rfl
        have hafter : db'.messages = ((db.deleteReactionsOf args.messageId).setMessage
            args.messageId (MessageRow.tombstone (rd.now 1))
            (MessageRow.tombstone_id (rd.now 1))).messages := hdeleted.commits.messages
        exact Answers.of_setMessage hdb.ids hbase hafter hrow hid hdeleted.decodes
  | setMessageReaction args =>
      obtain ⟨mutation, hok, rfl⟩ := Tx.returns_map.mp h
      obtain ⟨-, row, hrow, hid, -, -, hcases⟩ := setMessageReaction_ok hok
      rcases hcases with ⟨-, rfl, hdecode, -⟩ | hreacted
      · exact Answers.of_unchanged hdb.ids hrow hdecode
      · obtain ⟨t, summaries, -, -, hdecode, hcommits⟩ := hreacted.effect
        have hbase : ({ db with reactions := t } : Database).messages = db.messages := rfl
        exact Answers.of_setMessage hdb.ids hbase hcommits.messages hrow hid hdecode
  | setMessagePin args =>
      obtain ⟨mutation, hok, rfl⟩ := Tx.returns_map.mp h
      obtain ⟨-, row, hrow, hid, -, -, hcases⟩ := setMessagePin_ok hok
      rcases hcases with ⟨-, rfl, hdecode, -⟩ | hpinned
      · exact Answers.of_unchanged hdb.ids hrow hdecode
      · exact Answers.of_setMessage hdb.ids rfl hpinned.commits.messages hrow hid hpinned.decodes
  | deleteRoom roomId actor =>
      obtain ⟨n, hok, rfl⟩ := Tx.returns_map.mp h
      obtain ⟨-, audited, hsame, rfl⟩ := deleteRoom_ok hok
      have hremoves : Removes db (audited.deleteMessages
          ((audited.messages.rows.filter fun r => r.roomId = roomId).map MessageRow.id)) :=
        removes_deleteMessages hsame.messages fun b hb =>
          hsame.messages ▸ (List.mem_filter.mp hb).1
      exact Answers.of_removes ⟨hremoves.ids, hremoves.rows⟩
  | runRetention actor =>
      obtain ⟨r, hok, rfl⟩ := Tx.returns_map.mp h
      have hsame := (runRetention_ok hok).2
      have hremoves : Removes db (db.removeBatch (olderThan r.2 db)) :=
        removes_removeBatch fun b hb => (List.mem_filter.mp hb).1
      exact Answers.of_removes (hremoves.trans (Removes.of_same hsame.messages))
  | _ =>
      obtain ⟨_, -, rfl⟩ := Tx.returns_map.mp h
      exact Answers.of_removes (Removes.of_same (messages_left h trivial))

end Removal

/-! ## The ledger of a run -/

/-- A store with what the last write of each message returned, and the messages it has removed. -/
structure Answered where
  db : Database := {}
  last : String → Option Message := fun _ => none
  removed : String → Prop := fun _ => False

/-- The ledger once a call has returned this message, or none. -/
def record (answer : Option Message) (last : String → Option Message) : String → Option Message :=
  match answer with
  | none => last
  | some m => Function.update last m.id (some m)

/-- The state after a call. -/
def Answered.next (cfg : Config) (s : Answered) (call : Readings × Command) : Answered :=
  match exec cfg call.1 call.2 s.db with
  | (.error _, db) => { s with db := db }
  | (.ok reply, db) =>
      { db := db
        last := record reply.message? s.last
        removed := fun id =>
          s.removed id ∨ (∃ t ∈ s.db.messages, t.id = id) ∧ ∀ t ∈ db.messages, t.id ≠ id }

/-- The message is what the last write of it returned, apart from a reference to a parent that
has been removed. -/
def Answered.Current (s : Answered) (m : Message) : Prop :=
  ∃ last, s.last m.id = some last ∧
    (m = last ∨ ∃ p, last.parentMessageId = some p ∧ s.removed p ∧ m = last.withParent none)

/-- The calls that write a message. -/
def Command.WritesMessage : Command → Prop
  | createMessage _ | updateMessage _ | deleteMessage _ => True
  | setMessageReaction _ | setMessagePin _ => True
  | _ => False

/-- Nothing accepted is refused for its content or unreadable, and every read shows what the last
write returned. -/
structure Intact (cfg : Config) (accepted : Command → Prop) (s : Answered) : Prop where
  writes : ∀ rd cmd e db', cmd.WritesMessage → accepted cmd →
    exec cfg rd cmd s.db = (.error e, db') → ¬ Poison e
  rows : ∀ row ∈ s.db.messages, ∃ m, messageFromRow row = .ok m ∧ m.id = row.id ∧ s.Current m
  reads : ∀ query : MessageQuery, Tx.Spares query.tx s.db Poison
  pages : ∀ query : MessageQuery, ∀ page db', Tx.Returns query.tx s.db page db' →
    ∀ m ∈ page.1, s.Current m
  retries : ∀ rd args m db',
    exec cfg rd (.createMessage args) s.db = (.ok (.message m false), db') → s.Current m

/-- The runs whose calls are all accepted lead to intact states only. -/
def ReadsBack (cfg : Config) (accepted : Command → Prop) : Prop :=
  ∀ s, Run (fun s call s' => Answered.next cfg s call = s') (fun _ call => accepted call.2) {} s →
    Intact cfg accepted s

section Ledger

variable {cfg : Config} {rd : Readings} {cmd : Command} {db' : Database} {reply : Reply}
variable {s : Answered}

theorem Answered.next_error {e : StoreError} (h : exec cfg rd cmd s.db = (.error e, db')) :
    s.next cfg (rd, cmd) = s := by
  obtain rfl := exec_error h
  unfold Answered.next
  rw [h]

theorem Answered.next_ok (h : exec cfg rd cmd s.db = (.ok reply, db')) :
    s.next cfg (rd, cmd) =
      { db := db'
        last := record reply.message? s.last
        removed := fun id =>
          s.removed id ∨ (∃ t ∈ s.db.messages, t.id = id) ∧ ∀ t ∈ db'.messages, t.id ≠ id } := by
  unfold Answered.next
  rw [h]

theorem record_other {answer : Option Message} {last : String → Option Message} {id : String}
    (h : ∀ m, answer = some m → m.id ≠ id) : record answer last id = last id := by
  cases answer with
  | none => rfl
  | some m => exact Function.update_of_ne (h m rfl).symm _ _

/-- What holds along a run of accepted calls. -/
structure Kept (s : Answered) : Prop where
  consistent : Consistent s.db
  sound : Sound s.db
  current : ∀ row ∈ s.db.messages, ∃ m, messageFromRow row = .ok m ∧ s.Current m

theorem Kept.start : Kept {} :=
  ⟨Consistent.empty, Sound.empty, fun _ hr => absurd hr Table.not_mem_empty⟩

theorem messageFromRow_parent {row : MessageRow} {m : Message} (h : messageFromRow row = .ok m) :
    m.parentMessageId = row.parentMessageId.map stripWhitespace := by
  have hparent := messageFromRow_setParent row row.parentMessageId
  change messageFromRow row = _ at hparent
  rw [h] at hparent
  exact congrArg Message.parentMessageId (Except.ok.inj hparent)

/-- A row loses a parent that the call removed, or nothing. -/
theorem Kept.orphaned (h : Kept s) (hok : exec cfg rd cmd s.db = (.ok reply, db'))
    {r row : MessageRow} (hr : r ∈ s.db.messages) (horphaned : Orphaned s.db db' r row)
    (hother : ∀ m, reply.message? = some m → m.id ≠ row.id) :
    ∃ m, messageFromRow row = .ok m ∧ (s.next cfg (rd, cmd)).Current m := by
  rw [Answered.next_ok hok]
  obtain ⟨m, hdecode, last, hlast, hcurrent⟩ := h.current r hr
  have hmid : m.id = r.id := by rw [(messageFromRow_ok hdecode).1, h.consistent.ids r hr]
  rcases horphaned with rfl | ⟨p, hp, ⟨t, ht, htp⟩, hgone, rfl⟩
  · refine ⟨m, hdecode, last, ?_, ?_⟩
    · show record _ _ m.id = some last
      rw [record_other (hmid ▸ hother), hlast]
    · rcases hcurrent with hsame | ⟨p, hp, hremoved, hforgot⟩
      · exact .inl hsame
      · exact .inr ⟨p, hp, .inl hremoved, hforgot⟩
  · have hparent : m.parentMessageId = some p := by
      have hbuilt := (messageFromRow_parent hdecode)
      rw [hp, Option.map_some, ← htp, h.consistent.ids t ht, htp] at hbuilt
      exact hbuilt
    have hsame : m = last := by
      rcases hcurrent with hsame | ⟨q, -, -, hforgot⟩
      · exact hsame
      · rw [hforgot] at hparent
        cases hparent
    refine ⟨m.withParent none, ?_, last, ?_, .inr ⟨p, ?_, .inr ⟨⟨t, ht, htp⟩, hgone⟩, ?_⟩⟩
    · rw [messageFromRow_setParent, hdecode]
      rfl
    · show record _ _ m.id = some last
      rw [record_other (hmid ▸ hother), hlast]
    · rw [← hsame, hparent]
    · rw [hsame]

theorem Kept.next (h : Kept s) (hsubmitted : Submitted cmd) (hnul : NoLeadingNul cmd)
    (hok : exec cfg rd cmd s.db = (.ok reply, db')) : Kept (s.next cfg (rd, cmd)) := by
  have hreturns := exec_ok.mp hok
  have hanswers := answers h.consistent hreturns
  have hconsistent := h.consistent.call hreturns
  have hdb : (s.next cfg (rd, cmd)).db = db' := by rw [Answered.next_ok hok]
  refine ⟨hdb ▸ hconsistent, hdb ▸ h.sound.call hsubmitted hnul hreturns, ?_⟩
  rw [hdb]
  intro row hrow
  by_cases hanswered : ∃ m, reply.message? = some m ∧ m.id = row.id
  · obtain ⟨m, hm, hmid⟩ := hanswered
    obtain ⟨t, ht, htid, hdecode⟩ := hanswers.reply m hm
    obtain rfl := Table.eq_of_key ht hrow (htid.trans hmid)
    refine ⟨m, hdecode, m, ?_, .inl rfl⟩
    rw [Answered.next_ok hok, hm]
    exact Function.update_self _ _ _
  · have hother : ∀ m, reply.message? = some m → m.id ≠ row.id :=
      fun m hm hmid => hanswered ⟨m, hm, hmid⟩
    obtain ⟨r, hr, horphaned⟩ := hanswers.others row hrow hother
    exact h.orphaned hok hr horphaned hother

/-- The reads of a sound store raise nothing for the content of a row. -/
theorem readPage_spares {db : Database} (h : Sound db)
    {order : MessageRow → MessageRow → Prop} [DecidableRel order]
    {select : MessageRow → Prop} [DecidablePred select]
    {beyond : MessageRow → MessageRow → Prop} [DecidableRel beyond]
    {cursor : Option MessageRow} {limit : Nat} {chronological : Bool} :
    Tx.Spares (readPage order select beyond cursor limit chronological) db Poison := by
  unfold readPage
  apply Tx.spares_read.bind
  intro rows t hread
  obtain ⟨rfl, rfl⟩ := Tx.returns_read.mp hread
  apply Tx.Spares.bind
  · have hrows : ∀ row ∈ (paginateRows (firstBy order (limit + 1)
        (t.messages.rows.filter fun r => select r ∧ cursor.all fun c => decide (beyond c r)))
        limit chronological).1, ∃ m, messageFromRow row = .ok m := by
      intro row hrow
      have hmem := mem_of_mem_firstBy (mem_of_mem_paginateRows hrow)
      exact ⟨_, (h.rows row (List.mem_filter.mp hmem).1).messageFromRow_eq⟩
    obtain ⟨ms, hms⟩ := decodeRows_of_each hrows
    exact validated_spares hms
  · intro _ _ _
    exact Tx.spares_pure

theorem requireRoom_spares {db : Database} {roomId : String} :
    Tx.Spares (requireRoom roomId) db Poison := by
  unfold requireRoom
  apply Tx.spares_read.bind
  intro room _ _
  apply (Tx.spares_orRaise (.inr (by simp [Poison]))).bind
  intro _ _ _
  exact Tx.spares_pure

theorem readCursor_spares {db : Database} {before : Option String}
    {select : MessageRow → Prop} [DecidablePred select] :
    Tx.Spares (readCursor before select) db Poison := by
  unfold readCursor
  split
  · exact Tx.spares_pure
  · apply Tx.spares_read.bind
    intro row _ _
    apply (Tx.spares_orRaise (.inr (by simp [Poison]))).bind
    intro _ _ _
    exact Tx.spares_pure

/-- No list of a sound store is unreadable. -/
theorem MessageQuery.spares {db : Database} (h : Sound db) (query : MessageQuery) :
    Tx.Spares query.tx db Poison := by
  cases query with
  | messages roomId limit before =>
      show Tx.Spares (listMessages roomId limit before) db Poison
      unfold listMessages
      apply requireRoom_spares.bind
      intro _ t hroom
      obtain ⟨-, rfl⟩ := returns_requireRoom.mp hroom
      apply readCursor_spares.bind
      intro cursor t' hcursor
      obtain rfl := readCursor_ok hcursor
      exact readPage_spares h
  | pins roomId limit before =>
      show Tx.Spares (listPinnedMessages roomId limit before) db Poison
      unfold listPinnedMessages
      apply requireRoom_spares.bind
      intro _ t hroom
      obtain ⟨-, rfl⟩ := returns_requireRoom.mp hroom
      apply readCursor_spares.bind
      intro cursor t' hcursor
      obtain rfl := readCursor_ok hcursor
      exact readPage_spares h
  | replies roomId parentMessageId limit before =>
      show Tx.Spares (listReplies roomId parentMessageId limit before) db Poison
      unfold listReplies
      apply requireRoom_spares.bind
      intro _ t hroom
      obtain ⟨-, rfl⟩ := returns_requireRoom.mp hroom
      apply requireMessage_spares.bind
      intro parent t' hparent
      obtain ⟨-, rfl⟩ := returns_requireMessage.mp hparent
      apply (Tx.spares_require (.inr (by simp [Poison]))).bind
      intro _ t hdepth
      obtain ⟨-, rfl⟩ := Tx.returns_require.mp hdepth
      apply readCursor_spares.bind
      intro cursor t' hcursor
      obtain rfl := readCursor_ok hcursor
      exact readPage_spares h
  | search roomId contains limit before =>
      show Tx.Spares (searchMessages roomId contains limit before) db Poison
      unfold searchMessages
      apply requireRoom_spares.bind
      intro _ t hroom
      obtain ⟨-, rfl⟩ := returns_requireRoom.mp hroom
      apply readCursor_spares.bind
      intro cursor t' hcursor
      obtain rfl := readCursor_ok hcursor
      exact readPage_spares h

/-- No accepted write of a message is refused for its content. -/
theorem Kept.writes (h : Kept s) (hwrites : cmd.WritesMessage) (hsubmitted : Submitted cmd)
    (hnul : NoLeadingNul cmd) : Tx.Spares (cmd.tx cfg rd) s.db Poison := by
  cases cmd with
  | createMessage args => exact (createMessage_spares h.sound hsubmitted.create).map
  | updateMessage args => exact (updateMessage_spares h.sound hsubmitted.update).map
  | deleteMessage args => exact (deleteMessage_spares h.sound).map
  | setMessageReaction args =>
      exact (setMessageReaction_spares h.sound (hsubmitted.reaction hnul)).map
  | setMessagePin args => exact (setMessagePin_spares h.sound (hsubmitted.pin hnul)).map
  | _ => exact absurd hwrites id

theorem Kept.intact (h : Kept s) :
    Intact cfg (fun cmd => Submitted cmd ∧ NoLeadingNul cmd) s where
  writes := by
    intro rd cmd e db' hwrites haccepted herror
    obtain rfl := exec_error herror
    exact h.writes hwrites haccepted.1 haccepted.2 e (Tx.atomically_raises.mp herror)
  rows := by
    intro row hrow
    obtain ⟨m, hdecode, hcurrent⟩ := h.current row hrow
    refine ⟨m, hdecode, ?_, hcurrent⟩
    rw [(messageFromRow_ok hdecode).1, h.consistent.ids row hrow]
  reads := fun query => query.spares h.sound
  pages := by
    intro query page db' hpage m hm
    obtain ⟨-, hpageOf⟩ := MessageQuery.page_decodes hpage
    obtain ⟨row, hrow, hdecode⟩ := hpageOf m hm
    obtain ⟨m', hdecode', hcurrent⟩ := h.current row hrow
    rw [hdecode] at hdecode'
    rwa [Except.ok.inj hdecode']
  retries := by
    intro rd args m db' hretry
    obtain ⟨⟨m', created⟩, hok, hreply⟩ := Tx.returns_map.mp (exec_ok.mp hretry)
    cases hreply
    rcases (createMessage_ok hok).2 with ⟨-, -, row, hfound, hdecode⟩ | ⟨hcreated, -⟩
    · obtain ⟨key, -, -, hrow, -⟩ := findIdempotent_eq_some hfound
      obtain ⟨m', hdecode', hcurrent⟩ := h.current row hrow
      rw [hdecode] at hdecode'
      rwa [Except.ok.inj hdecode']
    · cases hcreated

/-- In every run of accepted calls whose stored names do not begin with a NUL, no accepted write
is refused for its content, and every read shows what the last write of a message returned. -/
theorem read_back (cfg : Config) : ReadsBack cfg fun cmd => Submitted cmd ∧ NoLeadingNul cmd := by
  intro s hrun
  have hkept : Kept s := by
    apply hrun.invariant _ Kept.start
    rintro t ⟨rd, cmd⟩ u ht ⟨hsubmitted, hnul⟩ rfl
    cases hexec : exec cfg rd cmd t.db with
    | mk result db' =>
        cases result with
        | error e => rwa [Answered.next_error hexec]
        | ok reply => exact ht.next hsubmitted hnul hexec
  exact hkept.intact

/-- A caller without a subject of its own, as with a shared key. -/
def sharedKey : Principal := ⟨none, true, nofun⟩

/-- The calls that make a room with one message. -/
def makeRoom : Command :=
  .createRoom { name := "General", id := some ⟨"general", matchesRoomId_general⟩ } "admin"

def sayFirst : Command :=
  .createMessage (Principal.createMessage sharedKey "general" "ada" { content := "first" } none)

/-- The call that pins the message under a name of the caller's choice. -/
def pinFirst (pinner : String) : Command :=
  .setMessagePin
    { roomId := "general", messageId := (UuidHex.ofNat 20).text, pinner := pinner,
      actor := "admin", pinned := true, allowFrozen := true }

def answeredMessage : Answered :=
  (Answered.next smallConfig {} (.fixed 1 0, makeRoom)).next smallConfig (.fixed 2 20, sayFirst)

theorem answeredMessage_run :
    Run (fun s call s' => Answered.next smallConfig s call = s')
      (fun _ call => Submitted call.2 ∧ NoLeadingNul call.2) {} answeredMessage := by
  have hroom : Submitted makeRoom ∧ NoLeadingNul makeRoom := ⟨trivial, trivial⟩
  have hfirst : Submitted sayFirst ∧ NoLeadingNul sayFirst :=
    ⟨⟨sharedKey, { content := "first" }, { content := "first" }, "ada", none, by decide +kernel,
      rfl⟩, trivial⟩
  exact Run.tail (.fixed 2 20, sayFirst) (Run.tail (.fixed 1 0, makeRoom) Run.refl hroom rfl)
    hfirst rfl

theorem pinFirst_submitted {pinner : String}
    (h : PinActor.build (some pinner) = .ok (some pinner)) : Submitted (pinFirst pinner) :=
  ⟨sharedKey, some pinner, some pinner, h, rfl⟩

/-- The pinned message can be read. -/
theorem read_back_pinned :
    Intact smallConfig (fun cmd => Submitted cmd ∧ NoLeadingNul cmd)
      (answeredMessage.next smallConfig (.fixed 3 30, pinFirst "ada")) := by
  have hnul : NoLeadingNul (pinFirst "ada") := fun _ => by decide +kernel
  exact read_back smallConfig _ (Run.tail (.fixed 3 30, pinFirst "ada") answeredMessage_run
    ⟨pinFirst_submitted (by decide +kernel), hnul⟩ rfl)

/-- SQLite counts a name up to its first NUL, so the table refuses this one. -/
theorem not_read_back : ¬ ReadsBack smallConfig Submitted := by
  intro h
  have hintact := h answeredMessage (answeredMessage_run.weaken fun _ _ hcond => hcond.1)
  have hrefused : exec smallConfig (.fixed 3 30) (pinFirst "\x00ada") answeredMessage.db =
      (.error .check, answeredMessage.db) := Prod.ext (by decide +kernel) rfl
  have hsubmitted : Submitted (pinFirst "\x00ada") := pinFirst_submitted (by decide +kernel)
  exact hintact.writes (.fixed 3 30) (pinFirst "\x00ada") .check answeredMessage.db trivial
    hsubmitted hrefused (.inl rfl)

end Ledger

end Store
end ChatEngine
