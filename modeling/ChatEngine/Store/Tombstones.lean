import ChatEngine.Store.Changes
import ChatEngine.Store.Privacy

/-!
# Deleted messages stay deleted

* `MessageRow.IsTombstone` and `ShowsTombstone`: what is left of a deleted message;
* `RowSettled`: the pin columns are paired and a deleted row is a tombstone;
* `StaysDeleted`: what a later database, and every call on it, knows of a deleted message;
* `tombstones_absorb`: both, over every run that leaves the row in its table.

No operation checks this for the others.  Each of the four that rewrite a row refuses a deleted
one, and an idempotent create returns the row that its key names, so the proof goes over what a
call can do to one row.
-/

namespace ChatEngine
namespace Store

open Lib
open Models

/-! ## Tombstones -/

/-- The row of a message that was deleted at this time. -/
structure MessageRow.IsTombstone (deletedAt : Timestamp) (r : MessageRow) : Prop where
  dated : r.deletedAt = some deletedAt
  content : r.content = ""
  reactions : r.reactions = []
  pinnedAt : r.pinnedAt = none
  pinnedBy : r.pinnedBy = none
  metadata : r.metadata = []
  attachments : r.attachments = []
  mentionedSubjects : r.mentionedSubjects = []

/-- What is shown of a message that was deleted at this time. -/
def ShowsTombstone (deletedAt : Timestamp) (m : Message) : Prop :=
  m.deletedAt = some deletedAt ∧ m.ContentFree

/-- The columns of a row agree on its pin and on its deletion. -/
structure RowSettled (r : MessageRow) : Prop where
  pins : r.pinnedAt = none ↔ r.pinnedBy = none
  deleted : ∀ t, r.deletedAt = some t → r.IsTombstone t

/-- The databases that calls build as long as the message is stored. -/
def ReachWhileStored (cfg : Config) (messageId : String) : Database → Database → Prop :=
  Reach fun db call db' => Step cfg db call db' ∧ Stored messageId db'

/-- What is known later of a message that was deleted at this time. -/
structure StaysDeleted (cfg : Config) (r : MessageRow) (deletedAt : Timestamp) (db : Database) :
    Prop where
  row : ∃ s ∈ db.messages, SameIdentity r s ∧ s.IsTombstone deletedAt
  byId : ∀ s m, db.messages.find? r.id = some s → messageFromRow s = .ok m →
    ShowsTombstone deletedAt m
  byClientMessageId : ∀ s m, r.clientMessageId ≠ none →
    findIdempotent r.roomId r.clientMessageId db = some s → messageFromRow s = .ok m →
    m.id = r.id ∧ ShowsTombstone deletedAt m
  replies : ∀ rd cmd reply db' m, exec cfg rd cmd db = (.ok reply, db') →
    reply.message? = some m → m.id = r.id → ShowsTombstone deletedAt m

section Tombstones

variable {cfg : Config} {rd : Readings} {cmd : Command} {db db' : Database} {reply : Reply}
  {r s : MessageRow} {t : Timestamp}

theorem MessageRow.IsTombstone.sameButParent (h : r.IsTombstone t) (hsame : SameButParent r s) :
    s.IsTombstone t := by
  rw [hsame]
  exact ⟨h.dated, h.content, h.reactions, h.pinnedAt, h.pinnedBy, h.metadata, h.attachments,
    h.mentionedSubjects⟩

theorem RowSettled.sameButParent (h : RowSettled r) (hsame : SameButParent r s) :
    RowSettled s := by
  constructor
  · rw [hsame]
    exact h.pins
  · intro t ht
    have hdated : s.deletedAt = r.deletedAt := by
      rw [hsame]
    exact (h.deleted t (hdated ▸ ht)).sameButParent hsame

/-- A tombstone is what the deletion would make of it. -/
theorem MessageRow.IsTombstone.eq (h : r.IsTombstone t) : r = r.tombstone t := by
  obtain ⟨hdated, hcontent, hreactions, hpinnedAt, hpinnedBy, hmetadata, hattachments, hmentions⟩ :=
    h
  unfold MessageRow.tombstone
  rw [← hdated, ← hcontent, ← hreactions, ← hmetadata, ← hattachments, ← hmentions]
  cases r with
  | mk =>
      dsimp only at hpinnedAt hpinnedBy ⊢
      rw [hpinnedAt, hpinnedBy]

/-- A tombstone decodes to an empty message. -/
theorem MessageRow.IsTombstone.shows (h : r.IsTombstone t) {m : Message}
    (hdecode : messageFromRow r = .ok m) : ShowsTombstone t m := by
  obtain ⟨-, -, -, -, -, -, -, hdeleted, -⟩ := messageFromRow_ok hdecode
  refine ⟨hdeleted.trans h.dated, ?_⟩
  rw [h.eq] at hdecode
  exact tombstone_contentFree hdecode

/-! ## One call -/

theorem RowSettled.rewrites (h : RowSettled r) (hlive : r.deletedAt = none)
    (hrewrites : Rewrites rd r cmd s) : RowSettled s := by
  cases hrewrites with
  | edited args =>
      refine ⟨h.pins, fun t ht => ?_⟩
      change r.deletedAt = some t at ht
      rw [hlive] at ht
      cases ht
  | deleted args =>
      refine ⟨⟨fun _ => rfl, fun _ => rfl⟩, fun t ht => ?_⟩
      exact ⟨ht, rfl, rfl, rfl, rfl, rfl, rfl, rfl⟩
  | reacted args summaries =>
      refine ⟨h.pins, fun t ht => ?_⟩
      change r.deletedAt = some t at ht
      rw [hlive] at ht
      cases ht
  | pinned args =>
      constructor
      · show (if args.pinned = true then some (rd.now 0) else none) = none ↔
          (if args.pinned = true then some args.pinner else none) = none
        cases args.pinned with
        | true => simp
        | false => simp
      · intro t ht
        change r.deletedAt = some t at ht
        rw [hlive] at ht
        cases ht

/-- The rows of a call are settled when those before it are. -/
theorem rowSettled_call (h : ∀ r ∈ db.messages, RowSettled r)
    (hok : Tx.Returns (cmd.tx cfg rd) db reply db') : ∀ s ∈ db'.messages, RowSettled s := by
  intro s hs
  cases messages_changed hok with
  | pruned ids _ hprunes =>
      obtain ⟨r, hr, -, rfl⟩ := (hprunes s).mp hs
      exact (h r hr).sameButParent (forgetParents_same ids r)
  | rewrote r x hr hlive hrewrites hreplaces =>
      rcases (hreplaces s).mp hs with ⟨hmem, -⟩ | rfl
      · exact h s hmem
      · exact (h r hr).rewrites hlive hrewrites
  | created args m built inserted _ _ _ hins hprunes _ =>
      obtain ⟨r, hr, -, rfl⟩ := (hprunes s).mp hs
      rcases (Table.mem_of_insert? hins).mp hr with hold | rfl
      · exact (h r hold).sameButParent (forgetParents_same _ r)
      · exact ⟨⟨fun _ => rfl, fun _ => rfl⟩, nofun⟩

/-- A call leaves a tombstone as it is, or without its parent, or deletes its row. -/
theorem MessageRow.IsTombstone.call (h : r.IsTombstone t) (hr : r ∈ db.messages)
    (hok : Tx.Returns (cmd.tx cfg rd) db reply db') (hs : s ∈ db'.messages)
    (hid : s.id = r.id) : SameButParent r s := by
  cases messages_changed hok with
  | pruned ids _ hprunes =>
      obtain ⟨x, hx, -, rfl⟩ := (hprunes s).mp hs
      rw [← Table.eq_of_key hx hr hid]
      exact forgetParents_same ids x
  | rewrote x y hx hlive hrewrites hreplaces =>
      rcases (hreplaces s).mp hs with ⟨hmem, -⟩ | rfl
      · rw [Table.eq_of_key hmem hr hid]
        exact SameButParent.refl r
      · -- the row that was rewritten was not deleted
        rw [Table.eq_of_key hx hr (hrewrites.identity.id.symm.trans hid), h.dated] at hlive
        cases hlive
  | created args m built inserted _ _ _ hins hprunes _ =>
      obtain ⟨x, hx, -, rfl⟩ := (hprunes s).mp hs
      have hold : r ∈ inserted := (Table.mem_of_insert? hins).mpr (.inl hr)
      rw [← Table.eq_of_key hx hold hid]
      exact forgetParents_same _ x

/-! ## Every run -/

theorem StoreReachable.rowSettled (h : StoreReachable cfg db) :
    ∀ r ∈ db.messages, RowSettled r := by
  apply h.invariant fun db => ∀ r ∈ db.messages, RowSettled r
  · exact fun _ hr => absurd hr Table.not_mem_empty
  · exact fun _ _ _ _ _ hdb hok => rowSettled_call hdb hok

theorem SameIdentity.trans {a b c : MessageRow} (h : SameIdentity a b) (h' : SameIdentity b c) :
    SameIdentity a c :=
  ⟨h'.id.trans h.id, h'.roomId.trans h.roomId, h'.sender.trans h.sender,
    h'.authorSubject.trans h.authorSubject, h'.createdAt.trans h.createdAt,
    h'.clientMessageId.trans h.clientMessageId⟩

/-- A tombstone is there as long as its row is. -/
theorem MessageRow.IsTombstone.kept (h : r.IsTombstone t) (hr : r ∈ db.messages)
    (hrun : ReachWhileStored cfg r.id db db') :
    ∃ s ∈ db'.messages, SameIdentity r s ∧ s.IsTombstone t := by
  unfold ReachWhileStored at hrun
  induction hrun with
  | refl => exact ⟨r, hr, SameIdentity.refl r, h⟩
  | tail call _ _ hlater ih =>
      obtain ⟨s, hs, hsame, htomb⟩ := ih
      obtain ⟨hstep, x, hx, hxid⟩ := hlater
      rcases hstep.cases with rfl | ⟨reply, hok⟩
      · exact ⟨s, hs, hsame, htomb⟩
      · have hsx := htomb.call hs hok hx (hxid.trans hsame.id.symm)
        exact ⟨x, hx, hsame.trans hsx.identity, htomb.sameButParent hsx⟩

theorem ReachWhileStored.reachable {messageId : String} (h : StoreReachable cfg db)
    (hrun : ReachWhileStored cfg messageId db db') : StoreReachable cfg db' :=
  hrun.invariant (fun _ call _ ht _ hstep => ht.next call hstep.1) h

theorem MessageRow.IsTombstone.staysDeleted (hdb : Consistent db) {x : MessageRow}
    (hx : x ∈ db.messages) (hsame : SameIdentity r x) (h : x.IsTombstone t) :
    StaysDeleted cfg r t db := by
  constructor
  · exact ⟨x, hx, hsame, h⟩
  · intro s m hfind hdecode
    obtain ⟨hs, hid⟩ := Table.find?_eq_some.mp hfind
    rw [Table.eq_of_key hs hx (hid.trans hsame.id.symm)] at hdecode
    exact h.shows hdecode
  · intro s m hkey hfind hdecode
    obtain ⟨key, hsome, -, hs, hroom, hskey⟩ := findIdempotent_eq_some hfind
    have hsx : s = x := hdb.clientUnique s hs x hx (hroom.trans hsame.roomId.symm)
      (by rw [hskey, hsame.clientMessageId, hsome]) (by rw [hskey]; exact Option.some_ne_none key)
    rw [hsx] at hdecode
    refine ⟨?_, h.shows hdecode⟩
    rw [(messageFromRow_ok hdecode).1, hdb.ids x hx, hsame.id]
  · intro rd cmd reply db' m hexec hreply hid
    have hok := exec_ok.mp hexec
    obtain ⟨s, hs, hsid, hdecode⟩ := (answers hdb hok).reply m hreply
    have hxs := h.call hx hok hs (hsid.trans (hid.trans hsame.id.symm))
    exact (h.sameButParent hxs).shows hdecode

end Tombstones

/-- In every reachable database the pin columns are paired and a deleted message is a tombstone;
and it stays one, for every lookup and every call, as long as its row is stored. -/
theorem tombstones_absorb {cfg : Config} {db : Database} (h : StoreReachable cfg db) :
    (∀ r ∈ db.messages, r.pinnedAt = none ↔ r.pinnedBy = none) ∧
      ∀ r ∈ db.messages, ∀ t, r.deletedAt = some t →
        ∀ db', ReachWhileStored cfg r.id db db' → StaysDeleted cfg r t db' := by
  refine ⟨fun r hr => (h.rowSettled r hr).pins, ?_⟩
  intro r hr t ht db' hrun
  obtain ⟨s, hs, hsame, htomb⟩ := ((h.rowSettled r hr).deleted t ht).kept hr hrun
  exact htomb.staysDeleted (hrun.reachable h).consistent hs hsame

/-- The call that sends the first message under a key. -/
def sayKeyed : Command :=
  .createMessage (Principal.createMessage sharedKey "general" "ada" { content := "first" }
    (some "key-1"))

/-- A room whose only message was deleted at 4. -/
def deletedKeyed : Database :=
  runCalls smallConfig
    [(.fixed 1 0, makeRoom), (.fixed 2 20, sayKeyed),
      (.fixed 4 40, .deleteMessage
        { roomId := "general", messageId := (UuidHex.ofNat 20).text, actor := "ada" })] {}

/-- The message stays deleted when its create is sent again. -/
theorem tombstones_absorb_retried :
    ∃ r ∈ deletedKeyed.messages, r.clientMessageId = some "key-1" ∧
      StaysDeleted smallConfig r 4
        (exec smallConfig (.fixed 5 50) sayKeyed deletedKeyed).2 := by
  have hrow : ∃ r ∈ deletedKeyed.messages.rows, r.clientMessageId = some "key-1" ∧
      r.deletedAt = some 4 ∧
      ∃ s ∈ (exec smallConfig (.fixed 5 50) sayKeyed deletedKeyed).2.messages.rows,
        s.id = r.id := by
    decide +kernel
  obtain ⟨r, hr, hkey, hdeleted, hstored⟩ := hrow
  refine ⟨r, hr, hkey, ?_⟩
  apply (tombstones_absorb (runCalls_reachable smallConfig _)).2 r hr 4 hdeleted
  exact Run.tail (.fixed 5 50, sayKeyed) Run.refl trivial ⟨rfl, hstored⟩

end Store
end ChatEngine
