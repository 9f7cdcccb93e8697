import ChatEngine.Store.Changes

/-!
# The shape of threads

* `ThreadShape`: a reply refers to a stored message of its own room, which is no reply itself;
* `RepliesStay`: no call that deletes a message, or makes it a tombstone, takes its replies along;
* `thread_shape`: both, in every reachable database and for every call from it.

The depth of a thread is checked when a reply is created.  A deleted parent frees its replies,
and such a reply may get replies of its own, so the invariant has to follow the references and not
the way in which they came about.
-/

namespace ChatEngine
namespace Store

open Lib
open Models

/-- Every reply refers to a message of its room that is no reply. -/
def ThreadShape (db : Database) : Prop :=
  ∀ m ∈ db.messages, ∀ parentId, m.parentMessageId = some parentId →
    ∃ parent ∈ db.messages, parent.id = parentId ∧ parent.roomId = m.roomId ∧
      parent.parentMessageId = none

/-- What a call does to a reply of a message: unless the call deletes the reply for its own sake,
the reply stays, with its reference as long as the message is there. -/
structure RepliesStay (cfg : Config) (rd : Readings) (cmd : Command) (db db' : Database)
    (parent r : MessageRow) : Prop where
  removed : ¬ Stored parent.id db' → ¬ cmd.Selects cfg rd db r →
    { r with parentMessageId := none } ∈ db'.messages
  tombstoned : parent.deletedAt = none →
    (∃ q ∈ db'.messages, q.id = parent.id ∧ q.deletedAt ≠ none) → r ∈ db'.messages
  referred : Stored parent.id db' → ¬ cmd.Selects cfg rd db r →
    ∃ s ∈ db'.messages, s.id = r.id ∧ s.parentMessageId = some parent.id

section Shape

variable {cfg : Config} {rd : Readings} {cmd : Command} {db base db' : Database} {reply : Reply}
  {ids : List String}

/-! ## The invariant -/

theorem ThreadShape.empty : ThreadShape {} :=
  fun _ hm => absurd hm Table.not_mem_empty

/-- A deletion of rows keeps the shape: a reference that is left has its row left. -/
theorem ThreadShape.prunes (h : ThreadShape db) (hprunes : Prunes ids db db') :
    ThreadShape db' := by
  intro s hs parentId hparent
  obtain ⟨r, hr, -, rfl⟩ := (hprunes s).mp hs
  obtain ⟨hparent, hout⟩ := MessageRow.parent_of_forgetParents hparent
  obtain ⟨parent, hmem, rfl, hroom, hnone⟩ := h r hr parentId hparent
  refine ⟨_, hprunes.kept hmem hout, rfl, hroom, ?_⟩
  show parent.parentMessageId.filter _ = none
  rw [hnone]
  rfl

/-- A rewritten row keeps its room and its reference, and the rows that refer to it. -/
theorem ThreadShape.replaces {r s : MessageRow} (h : ThreadShape db) (hr : r ∈ db.messages)
    (hsame : SameIdentity r s) (hparent : s.parentMessageId = r.parentMessageId)
    (hreplaces : Replaces db r s db') : ThreadShape db' := by
  have hparents : ∀ parentId m, m ∈ db.messages → m.parentMessageId = some parentId →
      ∃ parent ∈ db'.messages, parent.id = parentId ∧ parent.roomId = m.roomId ∧
        parent.parentMessageId = none := by
    intro parentId m hm hreply
    obtain ⟨parent, hmem, rfl, hroom, hnone⟩ := h m hm parentId hreply
    by_cases hid : parent.id = r.id
    · rw [Table.eq_of_key hmem hr hid] at hroom hnone ⊢
      exact ⟨s, (hreplaces s).mpr (.inr rfl), hsame.id, hsame.roomId.trans hroom,
        hparent.trans hnone⟩
    · exact ⟨parent, (hreplaces parent).mpr (.inl ⟨hmem, hid⟩), rfl, hroom, hnone⟩
  intro t ht parentId hreply
  rcases (hreplaces t).mp ht with ⟨hmem, -⟩ | rfl
  · exact hparents parentId t hmem hreply
  · rw [hsame.roomId]
    exact hparents parentId r hr (hparent ▸ hreply)

/-- A new reply has passed the check of its parent. -/
theorem ThreadShape.inserted {args : CreateMessage} {m built : Message}
    {inserted : Table MessageRow String MessageRow.id} (h : ThreadShape db)
    (hdb : Consistent db) (hcreated : Created cfg rd args db m db')
    (hbuild : (args.raw (rd.uuid 0) (rd.now 1)).build = .ok built)
    (hins : db.messages.insert? (newMessageRow built args.authorSubject) = some inserted) :
    ThreadShape { db with messages := inserted } := by
  intro s hs parentId hparent
  rcases (Table.mem_of_insert? hins).mp hs with hold | rfl
  · obtain ⟨parent, hmem, hrest⟩ := h s hold parentId hparent
    exact ⟨parent, (Table.mem_of_insert? hins).mpr (.inl hmem), hrest⟩
  · have hbuilt := Message.build_ok hbuild
    change built.parentMessageId = some parentId at hparent
    rw [hbuilt.parentMessageId] at hparent
    obtain ⟨raw, hraw, rfl⟩ := Option.map_eq_some_iff.mp hparent
    obtain ⟨parent, hmem, hid, hroom, -, hnone⟩ := hcreated.parent raw hraw
    refine ⟨parent, (Table.mem_of_insert? hins).mpr (.inl hmem), ?_, ?_, hnone⟩
    · -- the id that was looked up is stored, so it is its own stripped form
      rw [← hid, hdb.ids parent hmem]
    · have hstripped : stripWhitespace args.roomId = args.roomId := by
        rw [← hroom]
        exact (hdb.rooms parent hmem).stripped
      show parent.roomId = built.roomId
      rw [hbuilt.roomId, hroom]
      exact hstripped.symm

theorem ThreadShape.call (h : ThreadShape db) (hdb : Consistent db)
    (hok : Tx.Returns (cmd.tx cfg rd) db reply db') : ThreadShape db' := by
  cases messages_changed hok with
  | pruned ids _ hprunes => exact h.prunes hprunes
  | rewrote r s hr _ hrewrites hreplaces =>
      exact h.replaces hr hrewrites.identity hrewrites.parent hreplaces
  | created args m built inserted _ hcreated hbuild hins hprunes _ =>
      exact (h.inserted hdb hcreated hbuild hins).prunes hprunes

theorem StoreReachable.threadShape (h : StoreReachable cfg db) : ThreadShape db := by
  have hboth : Consistent db ∧ ThreadShape db := by
    apply h.invariant fun db => Consistent db ∧ ThreadShape db
    · exact ⟨Consistent.empty, ThreadShape.empty⟩
    · intro db rd cmd reply db' hdb hok
      exact ⟨hdb.1.call hok, hdb.2.call hdb.1 hok⟩
  exact hboth.2

/-! ## What stays of a thread -/

/-- A deletion of rows leaves the replies that it does not select. -/
theorem RepliesStay.of_prunes {parent r : MessageRow} (hparent : parent ∈ base.messages)
    (hr : r ∈ base.messages) (hreply : r.parentMessageId = some parent.id)
    (hprunes : Prunes ids base db') (hselects : r.id ∈ ids → cmd.Selects cfg rd db r) :
    RepliesStay cfg rd cmd db db' parent r := by
  constructor
  · intro hgone hout
    have hin : parent.id ∈ ids := by
      by_contra hkeep
      exact hgone ((hprunes.stored_iff hparent).mpr hkeep)
    rw [← MessageRow.forgetParents_of_mem hreply hin]
    exact hprunes.kept hr fun hselected => hout (hselects hselected)
  · rintro hlive ⟨q, hq, hqid, hdeleted⟩
    -- no deletion of rows makes a tombstone
    obtain ⟨t, ht, -, rfl⟩ := (hprunes q).mp hq
    have htp : t = parent := Table.eq_of_key ht hparent hqid
    rw [htp] at hdeleted
    exact absurd hlive hdeleted
  · intro hstored hout
    have hkeep := (hprunes.stored_iff hparent).mp hstored
    refine ⟨_, hprunes.kept hr fun hselected => hout (hselects hselected), rfl, ?_⟩
    rw [MessageRow.forgetParents_of_not_mem]
    · exact hreply
    · intro p hp
      rw [hreply] at hp
      cases hp
      exact hkeep

/-- The rewriting of one row leaves its replies, and a reply that is rewritten its reference. -/
theorem RepliesStay.of_replaces {parent r x y : MessageRow} (h : ThreadShape db)
    (hparent : parent ∈ db.messages) (hr : r ∈ db.messages)
    (hreply : r.parentMessageId = some parent.id) (hx : x ∈ db.messages)
    (hsame : SameIdentity x y) (hxy : y.parentMessageId = x.parentMessageId)
    (hreplaces : Replaces db x y db') : RepliesStay cfg rd cmd db db' parent r := by
  have hstored : Stored parent.id db' := by
    by_cases hid : parent.id = x.id
    · exact ⟨y, (hreplaces y).mpr (.inr rfl), hsame.id.trans hid.symm⟩
    · exact ⟨parent, (hreplaces parent).mpr (.inl ⟨hparent, hid⟩), rfl⟩
  constructor
  · intro hgone _
    exact absurd hstored hgone
  · rintro hlive ⟨q, hq, hqid, hdeleted⟩
    apply (hreplaces r).mpr
    left
    refine ⟨hr, fun hrid => ?_⟩
    have hrx : r = x := Table.eq_of_key hr hx hrid
    rcases (hreplaces q).mp hq with ⟨hmem, -⟩ | rfl
    · rw [Table.eq_of_key hmem hparent hqid] at hdeleted
      exact hdeleted hlive
    · -- the row that became a tombstone is the parent, which is no reply
      have hpx : parent = x := Table.eq_of_key hparent hx (hqid.symm.trans hsame.id)
      obtain ⟨top, htop, htopId, -, hnone⟩ := h r hr parent.id hreply
      rw [Table.eq_of_key htop hparent htopId, hpx, ← hrx, hreply] at hnone
      cases hnone
  · intro _ _
    by_cases hrid : r.id = x.id
    · refine ⟨y, (hreplaces y).mpr (.inr rfl), hsame.id.trans hrid.symm, ?_⟩
      rw [hxy, ← Table.eq_of_key hr hx hrid, hreply]
    · exact ⟨r, (hreplaces r).mpr (.inl ⟨hr, hrid⟩), rfl, hreply⟩

theorem repliesStay (h : ThreadShape db) (hok : Tx.Returns (cmd.tx cfg rd) db reply db')
    {parent r : MessageRow} (hparent : parent ∈ db.messages) (hr : r ∈ db.messages)
    (hreply : r.parentMessageId = some parent.id) : RepliesStay cfg rd cmd db db' parent r := by
  cases messages_changed hok with
  | pruned ids hselects hprunes =>
      exact RepliesStay.of_prunes hparent hr hreply hprunes (hselects r hr)
  | rewrote x y hx _ hrewrites hreplaces =>
      exact RepliesStay.of_replaces h hparent hr hreply hx hrewrites.identity hrewrites.parent
        hreplaces
  | created args m built inserted hcmd hcreated hbuild hins hprunes _ =>
      have hbase : parent ∈ Database.messages { db with messages := inserted } :=
        (Table.mem_of_insert? hins).mpr (.inl hparent)
      apply RepliesStay.of_prunes hbase
        ((Table.mem_of_insert? hins).mpr (.inl hr)) hreply hprunes
      intro hin
      rw [hcmd]
      exact ⟨built, inserted, hcreated.fresh, hbuild, hins, hin⟩

end Shape

/-- In every reachable database threads have one level, inside one room; and no call takes the
replies of a message that it deletes along. -/
theorem thread_shape {cfg : Config} {db : Database} (h : StoreReachable cfg db) :
    ThreadShape db ∧
      ∀ rd cmd db', Step cfg db (rd, cmd) db' →
        ∀ parent ∈ db.messages, ∀ r ∈ db.messages, r.parentMessageId = some parent.id →
          RepliesStay cfg rd cmd db db' parent r := by
  have hshape := h.threadShape
  refine ⟨hshape, ?_⟩
  intro rd cmd db' hstep parent hparent r hr hreply
  rcases hstep.cases with rfl | ⟨reply, hok⟩
  · exact RepliesStay.of_prunes hparent hr hreply (Prunes.of_same rfl) nofun
  · exact repliesStay hshape hok hparent hr hreply

/-- The call that answers the first message. -/
def replyFirst : Command :=
  .createMessage (Principal.createMessage sharedKey "general" "bob"
    { content := "second", parentMessageId := some (UuidHex.ofNat 20).text } none)

/-- A room with a message and its reply. -/
def replied : Database :=
  runCalls { smallConfig with webhookEvents := [] }
    [(.fixed 1 0, makeRoom), (.fixed 2 20, sayFirst), (.fixed 3 30, replyFirst)] {}

def deleteFirst : Command :=
  .deleteMessage { roomId := "general", messageId := (UuidHex.ofNat 20).text, actor := "ada" }

/-- The reply stays, with its reference to the tombstone. -/
theorem thread_shape_replied :
    ∃ r ∈ (exec { smallConfig with webhookEvents := [] } (.fixed 4 40) deleteFirst
      replied).2.messages, r.content = "second" ∧
        r.parentMessageId = some (UuidHex.ofNat 20).text := by
  have hrow : ∃ p ∈ replied.messages.rows, p.id = (UuidHex.ofNat 20).text ∧ p.deletedAt = none ∧
      ∃ r ∈ replied.messages.rows, r.content = "second" ∧ r.parentMessageId = some p.id := by
    decide +kernel
  have hdeleted : ∃ q ∈ (exec { smallConfig with webhookEvents := [] } (.fixed 4 40) deleteFirst
      replied).2.messages.rows, q.id = (UuidHex.ofNat 20).text ∧ q.deletedAt ≠ none := by
    decide +kernel
  obtain ⟨p, hp, hid, hlive, r, hr, hcontent, hreply⟩ := hrow
  have hstays := (thread_shape (runCalls_reachable _ _)).2 (.fixed 4 40) deleteFirst _ rfl p hp r hr
    hreply
  exact ⟨r, hstays.tombstoned hlive (hid ▸ hdeleted), hcontent, hid ▸ hreply⟩

end Store
end ChatEngine
