import ChatEngine.Store.Caps
import ChatEngine.Store.Clock

/-!
# The retained messages are the newest

Runs of the store under a clock that moves on between calls, with no retention by age and with a
ledger of every message that was ever created.

* `StrictStep` and `Archive`, the runs and their ledger;
* `NewestKept`: a pass removes no message while an older one of its room stays;
* `Capped`, what holds of every state, and `Explained`, what every removal had for a reason;
* `caps_keep_newest`, for every run.
-/

namespace ChatEngine
namespace Store

open Lib
open Models

/-- A call whose readings are all behind the earlier ones. -/
structure StrictStep (cfg : Config) (s : Timed) (call : Readings × Command) (s' : Timed) :
    Prop extends TimedStep cfg s call s' where
  strict : ∀ i, s.clock < call.1.now i

/-- A store, its clock, and every message its creates have returned, oldest first. -/
structure Archive where
  store : Timed
  created : List Message

/-- The messages that a call created. -/
def newMessages : Command → Except StoreError Reply → List Message
  | .createMessage _, .ok (.message m true) => [m]
  | _, _ => []

/-- One call, with the ledger kept up. -/
structure ArchiveStep (cfg : Config) (s : Archive) (call : Readings × Command) (s' : Archive) :
    Prop where
  step : StrictStep cfg s.store call s'.store
  created : s'.created = s.created ++ newMessages call.2 (exec cfg call.1 call.2 s.store.db).1

/-- An empty store, whatever its clock shows. -/
def Archive.Empty (s : Archive) : Prop := s.store.db = {} ∧ s.created = []

/-- The rows of a room. -/
def roomRows (roomId : String) (db : Database) : List MessageRow :=
  db.messages.rows.filter fun r => r.roomId = roomId

/-- The row is that of the message. -/
def RowOf (m : Message) (r : MessageRow) : Prop :=
  r.id = m.id ∧ r.roomId = m.roomId ∧ r.createdAt = m.createdAt

/-- Neither cap is exceeded, and the messages of every room are the newest ever created in it. -/
structure Capped (cfg : Config) (s : Archive) : Prop where
  roomCap : ∀ roomId, (roomRows roomId s.store.db).length ≤ cfg.maxStoredMessagesPerRoom
  storeCap : s.store.db.messages.count ≤ cfg.maxStoredMessages
  known : ∀ r ∈ s.store.db.messages, ∃ m ∈ s.created, RowOf m r
  newest : ∀ m ∈ s.created, ∀ r ∈ s.store.db.messages, r.roomId = m.roomId →
    r.createdAt < m.createdAt → ∃ row ∈ s.store.db.messages, RowOf m row

/-- More rows than the cap are held, and the row is among the oldest ones in excess. -/
def OldestExcess (cap : Nat) (held : List MessageRow) (r : MessageRow) : Prop :=
  cap < held.length ∧ (held.filter fun s => s.place < r.place).length < held.length - cap

/-- With the message of this create inserted, the room or then the store held more than its cap,
and the row was among the oldest in excess. -/
def PastCap (cfg : Config) (db : Database) (args : CreateMessage) (r : MessageRow) : Prop :=
  ∃ row inserted base, db.messages.insert? row = some inserted ∧ row.roomId = args.roomId ∧
    base = { db with messages := inserted } ∧
    ((r.roomId = args.roomId ∧
        OldestExcess cfg.maxStoredMessagesPerRoom (roomRows args.roomId base) r) ∨
      OldestExcess cfg.maxStoredMessages
        (base.removeBatch (pastRoomCap cfg args.roomId base)).messages.rows r)

/-- The message just created is stored, a create that passes its checks is not refused for the
caps, and what is removed was past a cap or is excused. -/
structure Explained (cfg : Config) (excused : Command → MessageRow → Prop) (s : Archive)
    (call : Readings × Command) (s' : Archive) : Prop where
  retained : ∀ m ∈ newMessages call.2 (exec cfg call.1 call.2 s.store.db).1,
    ∃ row ∈ s'.store.db.messages, RowOf m row
  accepted : ∀ args, call.2 = .createMessage args → args.Passes cfg call.1 s.store.db →
    args.ReturnsStored cfg call.1 s.store.db
  removed : ∀ r ∈ s.store.db.messages, ¬ Stored r.id s'.store.db →
    (∃ args, call.2 = .createMessage args ∧ PastCap cfg s.store.db args r) ∨ excused call.2 r

/-- Every state of every run is capped, and every step of it explained. -/
def CapsKeepNewest (cfg : Config) (excused : Command → MessageRow → Prop) : Prop :=
  ∀ s, Reachable Archive.Empty (ArchiveStep cfg) s →
    Capped cfg s ∧ ∀ call s', ArchiveStep cfg s call s' → Explained cfg excused s call s'

section Passes

variable {cfg : Config} {db db₁ db' : Database} {roomId : String} {batch : List MessageRow}

/-! ## What a pass counts -/

/-- A deletion batch of counted messages lowers their number by its length. -/
theorem countWhere_removeBatch_add {p : MessageRow → Prop} [DecidablePred p]
    (hp : ∀ r s, SameIdentity r s → (p r ↔ p s)) (hbatch : ∀ b ∈ batch, b ∈ db.messages ∧ p b)
    (hnodup : batch.Nodup) :
    (db.removeBatch batch).messages.countWhere p + batch.length = db.messages.countWhere p := by
  rw [← db.messages.countWhere_deleteSelected p batch hbatch hnodup]
  congr 1
  exact Table.countWhere_modify _ (MessageRow.forgetParents_id (batch.map MessageRow.id))
    fun r => (hp r _ (forgetParents_forgets _ r).identity).symm

theorem countWhere_removeBatch_le {p : MessageRow → Prop} [DecidablePred p]
    (hp : ∀ r s, SameIdentity r s → (p r ↔ p s)) :
    (db.removeBatch batch).messages.countWhere p ≤ db.messages.countWhere p := by
  apply Table.countWhere_le_of_key
  intro s hs hps
  obtain ⟨r, hr, -, hrs⟩ := mem_removeBatch hs
  exact ⟨r, hr, hrs.identity.id.symm, (hp r s hrs.identity).mpr hps⟩

theorem inRoom_identity (r s : MessageRow) (h : SameIdentity r s) :
    r.roomId = roomId ↔ s.roomId = roomId := by
  rw [h.roomId]

/-- The room pass leaves no more than the cap of the room. -/
theorem roomRows_pastRoomCap :
    (roomRows roomId (db.removeBatch (pastRoomCap cfg roomId db))).length ≤
      cfg.maxStoredMessagesPerRoom := by
  have hnodup : (pastRoomCap cfg roomId db).Nodup :=
    firstBy_nodup (db.messages.rows_nodup.filter _)
  have hcount := countWhere_removeBatch_add (p := fun r => r.roomId = roomId) inRoom_identity
    (fun b hb => mem_pastRoomCap hb) hnodup
  have hlength : (pastRoomCap cfg roomId db).length =
      min ((roomRows roomId db).length - cfg.maxStoredMessagesPerRoom)
        (roomRows roomId db).length := length_firstBy
  have hrooms : ∀ t : Database,
      t.messages.countWhere (fun r => r.roomId = roomId) = (roomRows roomId t).length :=
    fun _ => rfl
  rw [hrooms, hrooms] at hcount
  omega

/-- The store pass leaves no more than the cap of the store. -/
theorem count_pastGlobalCap :
    (db.removeBatch (pastGlobalCap cfg db)).messages.count ≤ cfg.maxStoredMessages := by
  have hnodup : (pastGlobalCap cfg db).Nodup := firstBy_nodup db.messages.rows_nodup
  have hcount := countWhere_removeBatch_add (p := fun _ => True) (fun _ _ _ => Iff.rfl)
    (fun b hb => ⟨mem_pastGlobalCap hb, trivial⟩) hnodup
  have hlength : (pastGlobalCap cfg db).length =
      min (db.messages.count - cfg.maxStoredMessages) db.messages.rows.length := length_firstBy
  have hall : ∀ t : Database, t.messages.countWhere (fun _ => True) = t.messages.count := by
    intro t
    unfold Table.countWhere Table.count
    simp
  rw [hall, hall] at hcount
  have hrows : db.messages.rows.length = db.messages.count := rfl
  omega

/-- What a selection past a cap takes is among the oldest in excess. -/
theorem oldestExcess_of_mem {cap : Nat} {held : List MessageRow} {r : MessageRow}
    (hnodup : held.Nodup) (hids : ∀ s ∈ held, ∀ t ∈ held, s.id = t.id → s = t)
    (h : r ∈ firstBy messageOldestFirst (held.length - cap) held) : OldestExcess cap held r := by
  have hr := mem_of_mem_firstBy h
  have hanti : ∀ s ∈ held, messageOldestFirst r s → messageOldestFirst s r → s = r := by
    intro s hs hrs hsr
    rw [messageOldestFirst_iff] at hrs hsr
    have hplace : s.place = r.place := le_antisymm hsr hrs
    exact hids s hs r hr (congrArg (fun p => (ofLex p).2) hplace)
  have hfew := (mem_firstBy_iff hnodup hanti hr).mp h
  simp only [messageOldestFirst_iff, not_le] at hfew
  exact ⟨by omega, hfew⟩

/-! ## What a pass keeps -/

/-- No message is removed while an older one of its room stays. -/
def NewestKept (db db' : Database) : Prop :=
  ∀ r ∈ db.messages, ∀ s ∈ db'.messages, s.roomId = r.roomId → s.place < r.place →
    Stored r.id db'

/-- The row that is left of a message is the message's. -/
theorem Removes.identity (h : Removes db db') {r s : MessageRow} (hr : r ∈ db.messages)
    (hs : s ∈ db'.messages) (hid : s.id = r.id) : SameIdentity r s := by
  obtain ⟨t, ht, hts⟩ := h.rows s hs
  rw [Table.eq_of_key hr ht (hid.symm.trans hts.identity.id)]
  exact hts.identity

theorem NewestKept.trans (h : NewestKept db db₁) (h' : NewestKept db₁ db')
    (hfirst : Removes db db₁) (hsecond : Removes db₁ db') : NewestKept db db' := by
  intro r hr s hs hroom hplace
  obtain ⟨s₁, hs₁, horphaned⟩ := hsecond.rows s hs
  have hsame := horphaned.identity
  rw [hsame.roomId] at hroom
  rw [hsame.place] at hplace
  obtain ⟨r₁, hr₁, hid⟩ := h r hr s₁ hs₁ hroom hplace
  have hrr₁ := hfirst.identity hr hr₁ hid
  have hstored := h' r₁ hr₁ s hs (by rw [hsame.roomId, hrr₁.roomId, hroom])
    (by rw [hsame.place, hrr₁.place]; exact hplace)
  rwa [hid] at hstored

/-- A batch of the oldest of some rows, which hold whole rooms, is such a pass. -/
theorem newestKept_removeBatch (n : Nat) (held : List MessageRow)
    (hheld : ∀ r ∈ held, r ∈ db.messages)
    (hroom : ∀ r ∈ held, ∀ s ∈ db.messages, s.roomId = r.roomId → s ∈ held) :
    NewestKept db (db.removeBatch (firstBy messageOldestFirst n held)) := by
  intro r hr s hs hsroom hplace
  have hbatch : ∀ b ∈ firstBy messageOldestFirst n held, b ∈ db.messages :=
    fun b hb => hheld b (mem_of_mem_firstBy hb)
  rw [stored_removeBatch_iff hbatch hr]
  intro hin
  obtain ⟨t, ht, hout, hts⟩ := mem_removeBatch hs
  have htroom : t.roomId = r.roomId := hts.identity.roomId.symm.trans hsroom
  have htheld := hroom r (mem_of_mem_firstBy hin) t ht htroom
  have hle := firstBy_le_of_not_mem hin htheld ((not_mem_batch_iff hbatch ht).mp hout)
  rw [messageOldestFirst_iff] at hle
  rw [hts.identity.place] at hplace
  exact hle.not_gt hplace

/-- Without retention by age a trim is the two passes. -/
theorem trim_eq (hage : cfg.messageRetentionDays = none) (now : Timestamp) :
    db.trim cfg roomId now =
      (db.removeBatch (pastRoomCap cfg roomId db)).removeBatch
        (pastGlobalCap cfg (db.removeBatch (pastRoomCap cfg roomId db))) := by
  have hempty : pastAge cfg now db = [] := by
    unfold pastAge retentionCutoff
    rw [hage]
    rfl
  unfold Database.trim
  dsimp only
  rw [hempty, Database.removeBatch_nil]

theorem newestKept_trim (hage : cfg.messageRetentionDays = none) (now : Timestamp) :
    NewestKept db (db.trim cfg roomId now) := by
  rw [trim_eq hage now]
  have hroom : NewestKept db (db.removeBatch (pastRoomCap cfg roomId db)) := by
    apply newestKept_removeBatch _ (roomRows roomId db)
    · exact fun r hr => (List.mem_filter.mp hr).1
    · intro r hr s hs hroom
      refine List.mem_filter.mpr ⟨hs, decide_eq_true ?_⟩
      exact hroom.trans (of_decide_eq_true (List.mem_filter.mp hr).2)
  apply hroom.trans
  · exact newestKept_removeBatch _ _ (fun r hr => hr) fun _ _ s hs _ => hs
  · exact removes_removeBatch fun b hb => (mem_pastRoomCap hb).1
  · exact removes_removeBatch fun b hb => mem_pastGlobalCap hb

/-- A trim leaves no room and not the store past its cap. -/
theorem trim_caps (hage : cfg.messageRetentionDays = none) (now : Timestamp)
    (hothers : ∀ other, other ≠ roomId →
      (roomRows other db).length ≤ cfg.maxStoredMessagesPerRoom) :
    (∀ other, (roomRows other (db.trim cfg roomId now)).length ≤ cfg.maxStoredMessagesPerRoom) ∧
      (db.trim cfg roomId now).messages.count ≤ cfg.maxStoredMessages := by
  rw [trim_eq hage now]
  refine ⟨fun other => ?_, count_pastGlobalCap⟩
  have hsecond : (roomRows other ((db.removeBatch (pastRoomCap cfg roomId db)).removeBatch
      (pastGlobalCap cfg (db.removeBatch (pastRoomCap cfg roomId db))))).length ≤
      (roomRows other (db.removeBatch (pastRoomCap cfg roomId db))).length :=
    countWhere_removeBatch_le inRoom_identity
  apply hsecond.trans
  by_cases hother : other = roomId
  · rw [hother]
    exact roomRows_pastRoomCap
  · have hfirst : (roomRows other (db.removeBatch (pastRoomCap cfg roomId db))).length ≤
        (roomRows other db).length := countWhere_removeBatch_le inRoom_identity
    exact hfirst.trans (hothers other hother)

/-- What a trim removes was past the cap of the room or then of the store. -/
theorem trim_removed (hage : cfg.messageRetentionDays = none) (now : Timestamp) {r : MessageRow}
    (hr : r ∈ db.messages) (hgone : ¬ Stored r.id (db.trim cfg roomId now)) :
    (r.roomId = roomId ∧
        OldestExcess cfg.maxStoredMessagesPerRoom (roomRows roomId db) r) ∨
      OldestExcess cfg.maxStoredMessages
        (db.removeBatch (pastRoomCap cfg roomId db)).messages.rows r := by
  rw [trim_eq hage now] at hgone
  have hinRoom : ∀ b ∈ pastRoomCap cfg roomId db, b ∈ db.messages :=
    fun b hb => (mem_pastRoomCap hb).1
  by_cases hpast : r ∈ pastRoomCap cfg roomId db
  · left
    refine ⟨(mem_pastRoomCap hpast).2, oldestExcess_of_mem (db.messages.rows_nodup.filter _) ?_ hpast⟩
    intro s hs t ht hid
    exact Table.eq_of_key (List.mem_filter.mp hs).1 (List.mem_filter.mp ht).1 hid
  · right
    obtain ⟨r₁, hr₁, hrr₁⟩ := removeBatch_keeps hr ((not_mem_batch_iff hinRoom hr).mpr hpast)
    have hglobal : r₁ ∈ pastGlobalCap cfg (db.removeBatch (pastRoomCap cfg roomId db)) := by
      by_contra hout
      apply hgone
      rw [← hrr₁.identity.id]
      exact (stored_removeBatch_iff (fun b hb => mem_pastGlobalCap hb) hr₁).mpr hout
    have hexcess := oldestExcess_of_mem
      (db.removeBatch (pastRoomCap cfg roomId db)).messages.rows_nodup
      (fun s hs t ht hid => Table.eq_of_key hs ht hid) hglobal
    unfold OldestExcess at *
    rwa [hrr₁.identity.place] at hexcess

end Passes

section Calls

variable {cfg : Config} {rd : Readings} {cmd : Command} {db db' : Database} {reply : Reply}

/-! ## What a call keeps -/

theorem stored_setMessage {messageId : String} {f : MessageRow → MessageRow}
    (hid : ∀ r, (f r).id = r.id) {r : MessageRow} (hr : r ∈ db.messages)
    (hafter : db'.messages = (db.setMessage messageId f hid).messages) : Stored r.id db' := by
  unfold Stored
  rw [hafter]
  by_cases hrid : r.id = messageId
  · exact ⟨f r, mem_setMessage.mpr (.inr ⟨r, hr, hrid, rfl⟩), hid r⟩
  · exact ⟨r, mem_setMessage.mpr (.inl ⟨hr, hrid⟩), rfl⟩

/-- Without retention by age, a message goes with its room or for the trim of a create only. -/
theorem stored_call (hage : cfg.messageRetentionDays = none)
    (h : Tx.Returns (cmd.tx cfg rd) db reply db') {r : MessageRow} (hr : r ∈ db.messages)
    (hcreate : ∀ args, cmd ≠ .createMessage args)
    (hroom : ∀ actor, cmd ≠ .deleteRoom r.roomId actor) : Stored r.id db' := by
  cases cmd with
  | createMessage args => exact absurd rfl (hcreate args)
  | updateMessage args =>
      obtain ⟨m, hok, -⟩ := Tx.returns_map.mp h
      exact stored_setMessage (args.apply_id _) hr (updateMessage_ok hok).commits.messages
  | deleteMessage args =>
      obtain ⟨⟨m, changed⟩, hok, -⟩ := Tx.returns_map.mp h
      obtain ⟨-, -, row, -, -, -, -, ⟨-, rfl, -⟩ | ⟨-, hdeleted⟩⟩ := deleteMessage_ok hok
      · exact ⟨r, hr, rfl⟩
      · exact stored_setMessage (MessageRow.tombstone_id _) hr hdeleted.commits.messages
  | setMessageReaction args =>
      obtain ⟨mutation, hok, -⟩ := Tx.returns_map.mp h
      obtain ⟨-, row, -, -, -, -, ⟨-, rfl, -⟩ | hreacted⟩ := setMessageReaction_ok hok
      · exact ⟨r, hr, rfl⟩
      · obtain ⟨_, summaries, -, -, -, hcommits⟩ := hreacted.effect
        exact stored_setMessage (MessageRow.setReactions_id summaries) hr hcommits.messages
  | setMessagePin args =>
      obtain ⟨mutation, hok, -⟩ := Tx.returns_map.mp h
      obtain ⟨-, row, -, -, -, -, ⟨-, rfl, -⟩ | hpinned⟩ := setMessagePin_ok hok
      · exact ⟨r, hr, rfl⟩
      · exact stored_setMessage (args.apply_id _) hr hpinned.commits.messages
  | deleteRoom roomId actor =>
      obtain ⟨n, hok, -⟩ := Tx.returns_map.mp h
      obtain ⟨-, audited, hsame, rfl⟩ := deleteRoom_ok hok
      have hother : r.roomId ≠ roomId := fun heq => hroom actor (by rw [heq])
      have hkeep : r.id ∉ (audited.messages.rows.filter fun s => s.roomId = roomId).map
          MessageRow.id := by
        intro hin
        obtain ⟨b, hb, hbid⟩ := List.mem_map.mp hin
        obtain ⟨hbmem, hbroom⟩ := List.mem_filter.mp hb
        rw [Table.mem_rows, hsame.messages] at hbmem
        rw [Table.eq_of_key hbmem hr hbid] at hbroom
        exact hother (of_decide_eq_true hbroom)
      have hr' : r ∈ audited.messages := hsame.messages ▸ hr
      exact ⟨_, Database.mem_deleteMessages.mpr ⟨r, hr', hkeep, rfl⟩, rfl⟩
  | runRetention actor =>
      obtain ⟨n, hok, -⟩ := Tx.returns_map.mp h
      obtain ⟨hcutoff, -⟩ := runRetention_ok hok
      unfold retentionCutoff at hcutoff
      rw [hage] at hcutoff
      cases hcutoff
  | _ => exact ⟨r, messages_left h trivial ▸ hr, rfl⟩

/-- Calls that create nothing leave rows from before. -/
theorem rows_from (h : Tx.Returns (cmd.tx cfg rd) db reply db')
    (hcreate : ∀ args, cmd ≠ .createMessage args) :
    ∀ s ∈ db'.messages, ∃ r ∈ db.messages, SameIdentity r s := by
  intro s hs
  cases message_origin h hs with
  | kept r hr hsame _ => exact ⟨r, hr, hsame⟩
  | created args _ hcmd => exact absurd hcmd (hcreate args)

/-- What a create that returned a new message did: it inserted the message's row and trimmed. -/
structure Inserts (cfg : Config) (rd : Readings) (args : CreateMessage) (db : Database)
    (m : Message) (row : MessageRow) (table : Table MessageRow String MessageRow.id)
    (db' : Database) : Prop where
  inserted : db.messages.insert? row = some table
  rowOf : RowOf m row
  room : row.roomId = args.roomId
  dated : row.createdAt = rd.now 1
  trimmed : db'.messages =
    (({ db with messages := table } : Database).trim cfg args.roomId (rd.now 1)).messages
  stored : Stored row.id db'

theorem createMessage_inserts {args : CreateMessage} {m : Message}
    (h : Tx.Returns (createMessage cfg rd args) db (m, true) db') :
    ∃ row table, Inserts cfg rd args db m row table db' := by
  obtain ⟨hmay, ⟨hfalse, -⟩ | ⟨-, hcreated⟩⟩ := createMessage_ok h
  · cases hfalse
  · obtain ⟨built, inserted, hbuild, -, -, hins, ⟨row, hrow, hrowId, hdecode⟩, hcommits⟩ :=
      hcreated.effect
    have hbuilt := Message.build_ok hbuild
    obtain ⟨roomRow, hroomRow, hroomKey, -⟩ := hmay.room
    have hstripped : stripWhitespace args.roomId = args.roomId :=
      HasRoom.stripped ⟨roomRow, hroomRow, hroomKey⟩
    have hroom : built.roomId = args.roomId := hbuilt.roomId.trans hstripped
    have hdated : built.createdAt = rd.now 1 := hbuilt.createdAt
    -- the row that is read back is the inserted one
    have hsame : SameIdentity (newMessageRow built args.authorSubject) row := by
      have hmem := hrow
      rw [hcommits.messages] at hmem
      have hremoves : Removes { db with messages := inserted }
          (({ db with messages := inserted } : Database).trim cfg args.roomId built.createdAt) :=
        removes_trim args.roomId built.createdAt
      exact hremoves.identity ((Table.mem_of_insert? hins).mpr (.inr rfl)) hmem hrowId
    obtain ⟨hid, hmroom, -, hmdate, -⟩ := messageFromRow_ok hdecode
    refine ⟨newMessageRow built args.authorSubject, inserted, hins, ⟨?_, ?_, ?_⟩, hroom, hdated,
      ?_, row, hrow, hrowId⟩
    · show built.id = m.id
      rw [hid, hrowId, hbuilt.id, stripWhitespace_idem]
    · show built.roomId = m.roomId
      rw [hmroom, hsame.roomId]
      show built.roomId = stripWhitespace built.roomId
      rw [hroom, hstripped]
    · show built.createdAt = m.createdAt
      rw [hmdate, hsame.createdAt]
      rfl
    · rw [hcommits.messages, hdated]

end Calls

section Runs

variable {cfg : Config} {rd : Readings} {cmd : Command} {s s' : Archive}
variable {call : Readings × Command}

/-! ## One step -/

theorem newMessages_error {e : StoreError} : newMessages cmd (.error e) = [] := by
  cases cmd <;> rfl

theorem newMessages_other {outcome : Except StoreError Reply}
    (hcreate : ∀ args, cmd ≠ .createMessage args) : newMessages cmd outcome = [] := by
  cases cmd with
  | createMessage args => exact absurd rfl (hcreate args)
  | _ => rfl

theorem RowOf.identity {m : Message} {r x : MessageRow} (h : RowOf m r) (hsame : SameIdentity r x) :
    RowOf m x :=
  ⟨hsame.id.trans h.1, hsame.roomId.trans h.2.1, hsame.createdAt.trans h.2.2⟩

/-- What happens in one step: nothing, a call that creates nothing, or a create. -/
inductive StepKind (cfg : Config) (s s' : Archive) (call : Readings × Command) : Prop
  | same : s'.store.db = s.store.db → s'.created = s.created →
      newMessages call.2 (exec cfg call.1 call.2 s.store.db).1 = [] → StepKind cfg s s' call
  | other (reply : Reply) : (∀ args, call.2 ≠ .createMessage args) →
      Tx.Returns (call.2.tx cfg call.1) s.store.db reply s'.store.db →
      s'.created = s.created →
      newMessages call.2 (exec cfg call.1 call.2 s.store.db).1 = [] → StepKind cfg s s' call
  | create (args : CreateMessage) (m : Message) (row : MessageRow)
      (table : Table MessageRow String MessageRow.id) : call.2 = .createMessage args →
      Inserts cfg call.1 args s.store.db m row table s'.store.db →
      s'.created = s.created ++ [m] →
      newMessages call.2 (exec cfg call.1 call.2 s.store.db).1 = [m] → StepKind cfg s s' call

theorem ArchiveStep.kind (h : ArchiveStep cfg s call s') : StepKind cfg s s' call := by
  obtain ⟨rd, cmd⟩ := call
  have hcreated := h.created
  have hdb : (exec cfg rd cmd s.store.db).2 = s'.store.db := h.step.step
  cases hexec : exec cfg rd cmd s.store.db with
  | mk outcome db' =>
      rw [hexec] at hdb hcreated
      obtain rfl : db' = s'.store.db := hdb
      cases outcome with
      | error e =>
          have hnone : newMessages cmd (exec cfg rd cmd s.store.db).1 = [] := by
            rw [hexec, newMessages_error]
          refine .same (exec_error hexec) ?_ hnone
          rw [hcreated, newMessages_error, List.append_nil]
      | ok reply =>
          have hok := exec_ok.mp hexec
          by_cases hcreate : ∀ args, cmd ≠ .createMessage args
          · have hnone : newMessages cmd (exec cfg rd cmd s.store.db).1 = [] :=
              newMessages_other hcreate
            refine .other reply hcreate hok ?_ hnone
            rw [hcreated, newMessages_other hcreate, List.append_nil]
          · push Not at hcreate
            obtain ⟨args, rfl⟩ := hcreate
            obtain ⟨⟨m, created⟩, hmessage, rfl⟩ := Tx.returns_map.mp hok
            cases created with
            | false =>
                have hsame : s'.store.db = s.store.db := by
                  rcases (createMessage_ok hmessage).2 with ⟨-, hsame, -⟩ | ⟨htrue, -⟩
                  · exact hsame
                  · cases htrue
                refine .same hsame ?_ (by rw [hexec]; rfl)
                rw [hcreated]
                exact List.append_nil _
            | true =>
                obtain ⟨row, table, hinserts⟩ := createMessage_inserts hmessage
                exact .create args m row table rfl hinserts hcreated (by rw [hexec]; rfl)

/-! ## The invariant -/

/-- A state is capped, and its clock shows no less than the date of any message. -/
structure Archived (cfg : Config) (s : Archive) : Prop where
  capped : Capped cfg s
  dated : ∀ m ∈ s.created, m.createdAt ≤ s.store.clock

theorem Archived.start (h : s.Empty) : Archived cfg s := by
  have hempty : ∀ r ∈ s.store.db.messages, False := by
    rw [h.1]
    exact fun r hr => Table.not_mem_empty hr
  refine ⟨⟨?_, ?_, fun r hr => (hempty r hr).elim, ?_⟩, ?_⟩
  · intro roomId
    rw [h.1]
    exact Nat.zero_le _
  · rw [h.1]
    exact Nat.zero_le _
  · intro m hm
    rw [h.2] at hm
    cases hm
  · intro m hm
    rw [h.2] at hm
    cases hm

/-- Every stored row is dated before the next reading. -/
theorem Archived.before (h : Archived cfg s) (hstep : ArchiveStep cfg s call s') {r : MessageRow}
    (hr : r ∈ s.store.db.messages) : r.createdAt < call.1.now 1 := by
  obtain ⟨m, hm, -, -, hdate⟩ := h.capped.known r hr
  rw [hdate]
  exact (h.dated m hm).trans_lt (hstep.step.strict 1)

/-- Steps that create nothing and remove whole rooms only. -/
theorem Capped.kept (h : Capped cfg s) (hcreated : s'.created = s.created)
    (hrows : ∀ x ∈ s'.store.db.messages, ∃ r ∈ s.store.db.messages, SameIdentity r x)
    (hstored : ∀ r ∈ s.store.db.messages, ∀ x ∈ s'.store.db.messages, x.roomId = r.roomId →
      Stored r.id s'.store.db) : Capped cfg s' where
  roomCap := by
    intro roomId
    refine le_trans ?_ (h.roomCap roomId)
    apply Table.countWhere_le_of_key
    intro x hx hroom
    obtain ⟨r, hr, hsame⟩ := hrows x hx
    exact ⟨r, hr, hsame.id.symm, hsame.roomId.symm.trans hroom⟩
  storeCap := by
    refine le_trans ?_ h.storeCap
    have hall : ∀ t : Database, t.messages.count = t.messages.countWhere fun _ => True := by
      intro t
      unfold Table.countWhere Table.count
      simp
    rw [hall, hall]
    apply Table.countWhere_le_of_key
    intro x hx _
    obtain ⟨r, hr, hsame⟩ := hrows x hx
    exact ⟨r, hr, hsame.id.symm, trivial⟩
  known := by
    intro x hx
    obtain ⟨r, hr, hsame⟩ := hrows x hx
    obtain ⟨m, hm, hrowOf⟩ := h.known r hr
    exact ⟨m, hcreated ▸ hm, hrowOf.identity hsame⟩
  newest := by
    intro m hm x hx hroom hdate
    rw [hcreated] at hm
    obtain ⟨r, hr, hsame⟩ := hrows x hx
    rw [hsame.roomId] at hroom
    rw [hsame.createdAt] at hdate
    obtain ⟨row, hrow, hrowOf⟩ := h.newest m hm r hr hroom hdate
    have hxroom : x.roomId = row.roomId := by rw [hsame.roomId, hroom, hrowOf.2.1]
    obtain ⟨y, hy, hyid⟩ := hstored row hrow x hx hxroom
    obtain ⟨t, ht, hty⟩ := hrows y hy
    rw [Table.eq_of_key ht hrow (hty.id.symm.trans hyid)] at hty
    exact ⟨y, hy, hrowOf.identity hty⟩

/-- Creates keep the caps, and the newest messages. -/
theorem Archived.create (h : Archived cfg s) (hage : cfg.messageRetentionDays = none)
    (hstep : ArchiveStep cfg s call s') {args : CreateMessage} {m : Message} {row : MessageRow}
    {table : Table MessageRow String MessageRow.id}
    (hinserts : Inserts cfg call.1 args s.store.db m row table s'.store.db)
    (hcreated : s'.created = s.created ++ [m]) : Capped cfg s' := by
  have hin : ∀ r, r ∈ table ↔ r ∈ s.store.db.messages ∨ r = row :=
    fun r => Table.mem_of_insert? hinserts.inserted
  have htrimmed := hinserts.trimmed
  generalize hbase : ({ s.store.db with messages := table } : Database) = base at htrimmed
  have hrowsOf : base.messages = table := by rw [← hbase]
  have hremoves : Removes base (base.trim cfg args.roomId (call.1.now 1)) :=
    removes_trim args.roomId (call.1.now 1)
  have hfrom : ∀ x ∈ s'.store.db.messages, ∃ r ∈ table, SameIdentity r x := by
    intro x hx
    rw [htrimmed] at hx
    obtain ⟨r, hr, horphaned⟩ := hremoves.rows x hx
    exact ⟨r, hrowsOf ▸ hr, horphaned.identity⟩
  have hkept : ∀ r ∈ table, ∀ x ∈ s'.store.db.messages, x.id = r.id → SameIdentity r x := by
    intro r hr x hx hid
    rw [htrimmed] at hx
    exact hremoves.identity (hrowsOf ▸ hr) hx hid
  have hothers : ∀ other, other ≠ args.roomId →
      (roomRows other base).length ≤ cfg.maxStoredMessagesPerRoom := by
    intro other hother
    refine le_trans ?_ (h.capped.roomCap other)
    apply Table.countWhere_le_of_key
    intro r hr hroom
    rw [hrowsOf] at hr
    rcases (hin r).mp hr with hold | rfl
    · exact ⟨r, hold, rfl, hroom⟩
    · exact absurd (hroom.symm.trans hinserts.room) hother
  have hcaps := trim_caps hage (call.1.now 1) hothers
  constructor
  · intro roomId
    unfold roomRows
    rw [htrimmed]
    exact hcaps.1 roomId
  · rw [htrimmed]
    exact hcaps.2
  · intro x hx
    obtain ⟨r, hr, hsame⟩ := hfrom x hx
    rw [hcreated]
    rcases (hin r).mp hr with hold | rfl
    · obtain ⟨n, hn, hrowOf⟩ := h.capped.known r hold
      exact ⟨n, List.mem_append_left _ hn, hrowOf.identity hsame⟩
    · exact ⟨m, List.mem_append_right _ List.mem_cons_self, hinserts.rowOf.identity hsame⟩
  · intro n hn x hx hroom hdate
    rw [hcreated] at hn
    rcases List.mem_append.mp hn with hold | hnew
    · obtain ⟨r, hr, hsame⟩ := hfrom x hx
      rw [hsame.roomId] at hroom
      rw [hsame.createdAt] at hdate
      -- the new message is younger than every earlier one
      have hrold : r ∈ s.store.db.messages := by
        rcases (hin r).mp hr with hrold | rfl
        · exact hrold
        · have hlt := (h.dated n hold).trans_lt (hstep.step.strict 1)
          rw [← hinserts.dated] at hlt
          exact absurd hdate hlt.not_gt
      obtain ⟨kept, hkeptRow, hrowOf⟩ := h.capped.newest n hold r hrold hroom hdate
      have hkeptTable : kept ∈ table := (hin kept).mpr (.inl hkeptRow)
      have hxroom : x.roomId = kept.roomId := by rw [hsame.roomId, hroom, hrowOf.2.1]
      have hxplace : x.place < kept.place := by
        rw [hsame.place]
        apply Prod.Lex.toLex_lt_toLex.mpr
        left
        show r.createdAt < kept.createdAt
        rw [hrowOf.2.2]
        exact hdate
      have hxtrim := hx
      rw [htrimmed] at hxtrim
      obtain ⟨y, hy, hyid⟩ := newestKept_trim hage (call.1.now 1) kept (hrowsOf ▸ hkeptTable) x
        hxtrim hxroom hxplace
      rw [← htrimmed] at hy
      exact ⟨y, hy, hrowOf.identity (hkept kept hkeptTable y hy hyid)⟩
    · rw [List.mem_singleton] at hnew
      subst hnew
      obtain ⟨y, hy, hyid⟩ := hinserts.stored
      have hrow : row ∈ table := (hin row).mpr (.inr rfl)
      exact ⟨y, hy, hinserts.rowOf.identity (hkept row hrow y hy hyid)⟩

theorem Archived.step (h : Archived cfg s) (hage : cfg.messageRetentionDays = none)
    (hstep : ArchiveStep cfg s call s') : Archived cfg s' := by
  have hclock := hstep.step.clock_le
  have hdated : ∀ m ∈ s.created, m.createdAt ≤ s'.store.clock :=
    fun m hm => (h.dated m hm).trans hclock
  cases hstep.kind with
  | same hdb hcreated _ =>
      refine ⟨h.capped.kept hcreated ?_ ?_, hcreated ▸ hdated⟩
      · rw [hdb]
        exact fun x hx => ⟨x, hx, SameIdentity.refl x⟩
      · intro r hr x _ _
        rw [hdb]
        exact ⟨r, hr, rfl⟩
  | other reply hcreate hok hcreated _ =>
      refine ⟨h.capped.kept hcreated (rows_from hok hcreate) ?_, hcreated ▸ hdated⟩
      intro r hr x hx hroom
      apply stored_call hage hok hr hcreate
      -- a deleted room keeps no message
      intro actor hdelete
      rw [hdelete] at hok
      exact deleteRoom_survivor hok hx hroom
  | create args m row table _ hinserts hcreated _ =>
      refine ⟨h.create hage hstep hinserts hcreated, ?_⟩
      intro n hn
      rw [hcreated] at hn
      rcases List.mem_append.mp hn with hold | hnew
      · exact hdated n hold
      · rw [List.mem_singleton] at hnew
        rw [hnew, ← hinserts.rowOf.2.2, hinserts.dated]
        exact hstep.step.latest 1

/-- Every step of a state under the invariant is explained. -/
theorem Archived.explained (h : Archived cfg s) (hage : cfg.messageRetentionDays = none)
    (hroomCap : 1 ≤ cfg.maxStoredMessagesPerRoom) (hstoreCap : 1 ≤ cfg.maxStoredMessages)
    (hstep : ArchiveStep cfg s call s') :
    Explained cfg (fun cmd r => ∃ actor, cmd = .deleteRoom r.roomId actor) s call s' := by
  constructor
  · intro m hm
    cases hstep.kind with
    | same _ _ hnone =>
        rw [hnone] at hm
        cases hm
    | other _ _ _ _ hnone =>
        rw [hnone] at hm
        cases hm
    | create args n row table _ hinserts _ hnew =>
        rw [hnew, List.mem_singleton] at hm
        subst hm
        obtain ⟨y, hy, hyid⟩ := hinserts.stored
        have hrow : row ∈ ({ s.store.db with messages := table } : Database).messages :=
          (Table.mem_of_insert? hinserts.inserted).mpr (.inr rfl)
        have hmem := hy
        rw [hinserts.trimmed] at hmem
        have hsame := (removes_trim args.roomId (call.1.now 1)).identity hrow hmem hyid
        exact ⟨y, hy, hinserts.rowOf.identity hsame⟩
  · intro args _ hpasses
    apply hpasses.returns_stored
    -- no stored message comes after the new one
    have hnone : ∀ r ∈ s.store.db.messages, ¬ (args.newRow call.1).place < r.place := by
      intro r hr hlt
      have hdate := h.before hstep hr
      rcases Prod.Lex.toLex_lt_toLex.mp hlt with hlater | ⟨hsame, -⟩
      · exact hlater.not_gt hdate
      · exact hdate.ne hsame.symm
    have hcount : ∀ (p : MessageRow → Prop) [DecidablePred p],
        (∀ r ∈ s.store.db.messages, ¬ p r) → s.store.db.messages.countWhere p = 0 := by
      intro p _ hp
      unfold Table.countWhere
      rw [List.length_eq_zero_iff, List.filter_eq_nil_iff]
      intro r hr htrue
      exact hp r hr (of_decide_eq_true htrue)
    unfold CreateMessage.Fits laterInRoom laterInStore
    rw [hcount _ fun r hr hlater => hnone r hr hlater.2, hcount _ hnone]
    exact ⟨hroomCap, hstoreCap⟩
  · intro r hr hgone
    cases hstep.kind with
    | same hdb _ _ =>
        rw [hdb] at hgone
        exact absurd ⟨r, hr, rfl⟩ hgone
    | other reply hcreate hok _ _ =>
        right
        by_contra hroom
        push Not at hroom
        exact hgone (stored_call hage hok hr hcreate hroom)
    | create args m row table hcmd hinserts _ _ =>
        left
        refine ⟨args, hcmd, row, table, _, hinserts.inserted, hinserts.room, rfl, ?_⟩
        apply trim_removed hage (call.1.now 1)
        · exact (Table.mem_of_insert? hinserts.inserted).mpr (.inl hr)
        · intro hstored
          apply hgone
          obtain ⟨y, hy, hyid⟩ := hstored
          rw [← hinserts.trimmed] at hy
          exact ⟨y, hy, hyid⟩

/-- In every run without retention by age, the caps hold, the retained messages of a room are the
newest, and a message is removed with its room or among the oldest past a cap. -/
theorem caps_keep_newest (hage : cfg.messageRetentionDays = none)
    (hroomCap : 1 ≤ cfg.maxStoredMessagesPerRoom) (hstoreCap : 1 ≤ cfg.maxStoredMessages) :
    CapsKeepNewest cfg fun cmd r => ∃ actor, cmd = .deleteRoom r.roomId actor := by
  intro s hs
  have harchived : Archived cfg s := hs.invariant (fun _ hempty => Archived.start hempty)
    fun t call u ht hstep => ht.step hage hstep
  exact ⟨harchived.capped, fun call s' hstep =>
    harchived.explained hage hroomCap hstoreCap hstep⟩

/-! ## Two runs -/

/-- The state after a call whose readings are all the same. -/
def Archive.next (cfg : Config) (s : Archive) (call : Readings × Command) : Archive :=
  { store := s.store.next cfg call
    created := s.created ++ newMessages call.2 (exec cfg call.1 call.2 s.store.db).1 }

theorem ArchiveStep.fixed {t : Timestamp} {n : Nat} (h : s.store.clock < t) :
    ArchiveStep cfg s (.fixed t n, cmd) (s.next cfg (.fixed t n, cmd)) :=
  ⟨⟨TimedStep.fixed h.le, fun _ => h⟩, rfl⟩

/-- A room with one message. -/
def archivedMessage (cfg : Config) : Archive :=
  (Archive.next cfg ⟨{ clock := 0 }, []⟩ (.fixed 1 0, makeRoom)).next cfg (.fixed 5 20, sayFirst)

theorem archivedMessage_reachable (cfg : Config) :
    Reachable Archive.Empty (ArchiveStep cfg) (archivedMessage cfg) := by
  apply Reachable.next _ _ (ArchiveStep.fixed (show (1 : Timestamp) < 5 by decide))
  apply Reachable.next _ _ (ArchiveStep.fixed (show (0 : Timestamp) < 1 by decide))
  exact Reachable.start ⟨rfl, rfl⟩

/-- The second message of a room that keeps one. -/
theorem caps_keep_newest_second :
    Capped oneMessageConfig
      ((archivedMessage oneMessageConfig).next oneMessageConfig
        (.fixed 6 30, .createMessage sayAgain)) :=
  (caps_keep_newest (by rfl) (by decide) (by decide) _
    ((archivedMessage_reachable oneMessageConfig).next _
      (ArchiveStep.fixed (show (5 : Timestamp) < 6 by decide)))).1

/-- The same room, archived. -/
def archivedRoom : Archive :=
  (archivedMessage smallConfig).next smallConfig
    (.fixed 6 40, .setRoomState "general" (some true) none "admin")

/-- The message goes with its room, without any cap being exceeded. -/
theorem not_caps_keep_newest : ¬ CapsKeepNewest smallConfig fun _ _ => False := by
  intro h
  have hreachable : Reachable Archive.Empty (ArchiveStep smallConfig) archivedRoom :=
    (archivedMessage_reachable smallConfig).next _
      (ArchiveStep.fixed (show (5 : Timestamp) < 6 by decide))
  have hstep : ArchiveStep smallConfig archivedRoom
      (.fixed 7 50, .deleteRoom "general" "admin") _ :=
    ArchiveStep.fixed (show (6 : Timestamp) < 7 by decide)
  have hexplained := (h archivedRoom hreachable).2 _ _ hstep
  obtain ⟨r, hr⟩ : ∃ r, r ∈ archivedRoom.store.db.messages.rows :=
    List.exists_mem_of_length_pos (by decide +kernel)
  have hempty : (archivedRoom.next smallConfig
      (.fixed 7 50, .deleteRoom "general" "admin")).store.db.messages.rows = [] := by
    decide +kernel
  rcases hexplained.removed r hr (by
    rintro ⟨s, hs, -⟩
    rw [← Table.mem_rows, hempty] at hs
    cases hs) with ⟨args, hcmd, -⟩ | hfalse
  · cases hcmd
  · exact hfalse

end Runs

end Store
end ChatEngine
