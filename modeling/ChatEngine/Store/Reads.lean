import ChatEngine.Store.Messages

/-!
# Pages of messages

The four endpoints that list messages read one row more than a page holds, to know whether older
rows remain, and decode the rows of the page.

* `paginateRows`, the cut that every list shares;
* `listMessages`, `listPinnedMessages`, `listReplies` and `searchMessages`, one body (`readPage`)
  with the rows, the order and the direction of each;
* `MessageQuery`, any of the four, with `MessageQuery.page_decodes`: what a page shows is what
  stored rows of the room decode to.
-/

namespace ChatEngine
namespace Store

open Lib
open Models

/-- `ORDER BY created_at DESC, id DESC`. -/
abbrev messageNewestFirst (a b : MessageRow) : Prop := messageOldestFirst b a

/-- `ORDER BY pinned_at DESC, id DESC`, for pinned rows. -/
abbrev pinnedNewestFirst (a b : MessageRow) : Prop :=
  timeKeyLe (fun r : MessageRow => r.pinnedAt.getD 0) MessageRow.id b a

/-- The row is older than the row of the cursor. -/
def MessageRow.olderThanCursor (cursor r : MessageRow) : Prop :=
  r.createdAt < cursor.createdAt ∨ (r.createdAt = cursor.createdAt ∧ r.id < cursor.id)

instance (cursor r : MessageRow) : Decidable (cursor.olderThanCursor r) :=
  inferInstanceAs (Decidable (_ ∨ _))

/-- The row was pinned before the row of the cursor. -/
def MessageRow.pinnedBefore (cursor r : MessageRow) : Prop :=
  r.pinnedAt.getD 0 < cursor.pinnedAt.getD 0 ∨
    (r.pinnedAt.getD 0 = cursor.pinnedAt.getD 0 ∧ r.id < cursor.id)

instance (cursor r : MessageRow) : Decidable (cursor.pinnedBefore r) :=
  inferInstanceAs (Decidable (_ ∨ _))

/-- The columns hold texts: the rows of a page by them are the rows by the instants. -/
theorem listed_by_text {rows : List MessageRow} {created pinned : MessageRow → Datetime}
    (hcreated : ∀ r ∈ rows, (created r).timestamp = r.createdAt)
    (hpinned : ∀ r ∈ rows, (pinned r).timestamp = r.pinnedAt.getD 0) (n : Nat) :
    firstBy (fun a b => timeKeyLe (fun r => (created r).isoformat) MessageRow.id b a) n rows =
        firstBy messageNewestFirst n rows ∧
      firstBy (fun a b => timeKeyLe (fun r => (pinned r).isoformat) MessageRow.id b a) n rows =
        firstBy pinnedNewestFirst n rows ∧
      ∀ cursor ∈ rows, ∀ r ∈ rows,
        ((created r).isoformat < (created cursor).isoformat ∨
            (created r).isoformat = (created cursor).isoformat ∧ r.id < cursor.id ↔
          cursor.olderThanCursor r) := by
  refine ⟨firstBy_congr (fun r hr s hs => ?_) n, firstBy_congr (fun r hr s hs => ?_) n, ?_⟩
  · exact timeKeyLe_isoformat (hcreated s hs) (hcreated r hr)
  · exact timeKeyLe_isoformat (hpinned s hs) (hpinned r hr)
  · intro cursor hcursor r hr
    unfold MessageRow.olderThanCursor
    rw [isoformat_lt_iff, ← timestamp_lt_iff, isoformat_eq_iff,
      hcreated r hr, hcreated cursor hcursor]

/-- `_paginate_rows`: the rows were read with a limit of one more than the page. -/
def paginateRows (rows : List MessageRow) (limit : Nat) (chronological : Bool) :
    List MessageRow × Option String :=
  let pageRows := rows.take limit
  let nextBefore := if limit < rows.length then pageRows.getLast?.map MessageRow.id else none
  (if chronological = true then pageRows.reverse else pageRows, nextBefore)

theorem mem_of_mem_paginateRows {rows : List MessageRow} {limit : Nat} {chronological : Bool}
    {r : MessageRow} (h : r ∈ (paginateRows rows limit chronological).1) : r ∈ rows := by
  unfold paginateRows at h
  dsimp only at h
  split at h
  · exact List.mem_of_mem_take (List.mem_reverse.mp h)
  · exact List.mem_of_mem_take h

/-- Decode the rows of a page one after the other. -/
def decodeRows : List MessageRow → Except ValidationError (List Message)
  | [] => .ok []
  | row :: rest =>
      match messageFromRow row with
      | .error e => .error e
      | .ok m =>
          match decodeRows rest with
          | .error e => .error e
          | .ok ms => .ok (m :: ms)

theorem decodeRows_ok {rows : List MessageRow} {ms : List Message}
    (h : decodeRows rows = .ok ms) : ∀ m ∈ ms, ∃ row ∈ rows, messageFromRow row = .ok m := by
  induction rows generalizing ms with
  | nil =>
      obtain rfl := Except.ok.inj h
      intro m hm
      exact absurd hm List.not_mem_nil
  | cons row rest ih =>
      unfold decodeRows at h
      cases hrow : messageFromRow row with
      | error e => simp [hrow] at h
      | ok first =>
          cases hrest : decodeRows rest with
          | error e => simp [hrow, hrest] at h
          | ok others =>
              rw [hrow, hrest] at h
              obtain rfl := Except.ok.inj h
              intro m hm
              rcases List.mem_cons.mp hm with rfl | hm
              · exact ⟨row, List.mem_cons_self, hrow⟩
              · obtain ⟨r, hr, hdecodes⟩ := ih hrest m hm
                exact ⟨r, List.mem_cons_of_mem row hr, hdecodes⟩

/-- Rows that all decode form a page. -/
theorem decodeRows_of_each {rows : List MessageRow}
    (h : ∀ row ∈ rows, ∃ m, messageFromRow row = .ok m) : ∃ ms, decodeRows rows = .ok ms := by
  induction rows with
  | nil => exact ⟨[], rfl⟩
  | cons row rest ih =>
      obtain ⟨m, hm⟩ := h row List.mem_cons_self
      obtain ⟨ms, hms⟩ := ih fun r hr => h r (List.mem_cons_of_mem row hr)
      refine ⟨m :: ms, ?_⟩
      unfold decodeRows
      rw [hm, hms]

/-! ## The lists -/

/-- The row that `before` names, when a cursor is given at all. -/
def readCursor (before : Option String) (select : MessageRow → Prop) [DecidablePred select] :
    StoreTx (Option MessageRow) :=
  match before.filter (· ≠ "") with
  | none => pure none
  | some id => do
      let row ← Tx.read fun db => (db.messages.find? id).filter fun r => decide (select r)
      let row ← Tx.orRaise row (.invalidCursor id)
      pure (some row)

/-- One page of the selected rows beyond the cursor. -/
def readPage (order : MessageRow → MessageRow → Prop) [DecidableRel order]
    (select : MessageRow → Prop) [DecidablePred select]
    (beyond : MessageRow → MessageRow → Prop) [DecidableRel beyond]
    (cursor : Option MessageRow) (limit : Nat) (chronological : Bool) :
    StoreTx (List Message × Option String) := do
  let rows ← Tx.read fun db =>
    firstBy order (limit + 1)
      (db.messages.rows.filter fun r => select r ∧ cursor.all fun c => decide (beyond c r))
  let page := paginateRows rows limit chronological
  let messages ← validated (decodeRows page.1)
  pure (messages, page.2)

/-- The room exists, or `RoomNotFoundError`. -/
def requireRoom (roomId : String) : StoreTx Unit := do
  let room ← Tx.read fun db => db.rooms.find? roomId
  let _ ← Tx.orRaise room (.roomNotFound roomId)
  pure ()

/-- `_list_messages_sync`. -/
def listMessages (roomId : String) (limit : Nat) (before : Option String) :
    StoreTx (List Message × Option String) := do
  requireRoom roomId
  let cursor ← readCursor before fun r => r.roomId = roomId
  readPage messageNewestFirst (fun r => r.roomId = roomId) MessageRow.olderThanCursor cursor limit
    true

/-- `_list_pinned_messages_sync`. -/
def listPinnedMessages (roomId : String) (limit : Nat) (before : Option String) :
    StoreTx (List Message × Option String) := do
  requireRoom roomId
  let cursor ← readCursor before fun r => r.roomId = roomId ∧ r.pinnedAt ≠ none
  readPage pinnedNewestFirst (fun r => r.roomId = roomId ∧ r.pinnedAt ≠ none)
    MessageRow.pinnedBefore cursor limit false

/-- `_list_replies_sync`. -/
def listReplies (roomId parentMessageId : String) (limit : Nat) (before : Option String) :
    StoreTx (List Message × Option String) := do
  requireRoom roomId
  let parent ← requireMessage roomId parentMessageId
  Tx.require (parent.parentMessageId = none) (.threadDepth parentMessageId)
  let cursor ← readCursor before fun r =>
    r.roomId = roomId ∧ r.parentMessageId = some parentMessageId
  readPage messageNewestFirst
    (fun r => r.roomId = roomId ∧ r.parentMessageId = some parentMessageId)
    MessageRow.olderThanCursor cursor limit true

/-- `_search_messages_sync`, given which contents hold the normalized query. -/
def searchMessages (roomId : String) (contains : String → Bool) (limit : Nat)
    (before : Option String) : StoreTx (List Message × Option String) := do
  requireRoom roomId
  let cursor ← readCursor before fun r => r.roomId = roomId
  readPage messageNewestFirst
    (fun r => r.roomId = roomId ∧ r.deletedAt = none ∧ contains r.content = true)
    MessageRow.olderThanCursor cursor limit true

/-- A request for one page of messages. -/
inductive MessageQuery where
  | messages (roomId : String) (limit : Nat) (before : Option String)
  | pins (roomId : String) (limit : Nat) (before : Option String)
  | replies (roomId parentMessageId : String) (limit : Nat) (before : Option String)
  | search (roomId : String) (contains : String → Bool) (limit : Nat) (before : Option String)

/-- The read of a request. -/
def MessageQuery.tx : MessageQuery → StoreTx (List Message × Option String)
  | messages roomId limit before => listMessages roomId limit before
  | pins roomId limit before => listPinnedMessages roomId limit before
  | replies roomId parentMessageId limit before => listReplies roomId parentMessageId limit before
  | search roomId contains limit before => searchMessages roomId contains limit before

section Reads

variable {db db' : Database} {roomId : String} {limit : Nat} {chronological : Bool}
variable {page : List Message × Option String}
variable {order : MessageRow → MessageRow → Prop} [DecidableRel order]
variable {select : MessageRow → Prop} [DecidablePred select]
variable {beyond : MessageRow → MessageRow → Prop} [DecidableRel beyond]

@[simp] theorem returns_requireRoom {u : Unit} :
    Tx.Returns (requireRoom roomId) db u db' ↔
      (∃ room ∈ db.rooms, room.key = roomId) ∧ db' = db := by
  unfold requireRoom
  simp only [Tx.returns_bind, Tx.returns_read, Tx.returns_orRaise, Tx.returns_pure]
  constructor
  · rintro ⟨_, _, ⟨rfl, rfl⟩, room, _, ⟨hfind, rfl⟩, -, rfl⟩
    exact ⟨⟨room, Table.find?_eq_some.mp hfind⟩, rfl⟩
  · rintro ⟨⟨room, hroom⟩, rfl⟩
    exact ⟨_, _, ⟨rfl, rfl⟩, room, _, ⟨Table.find?_eq_some.mpr hroom, rfl⟩, trivial, rfl⟩

/-- A cursor is looked up without a change. -/
theorem readCursor_ok {before : Option String} {cursor : Option MessageRow}
    (h : Tx.Returns (readCursor before select) db cursor db') : db' = db := by
  unfold readCursor at h
  split at h
  · exact (Tx.returns_pure.mp h).2
  · simp only [Tx.returns_bind, Tx.returns_read, Tx.returns_orRaise, Tx.returns_pure] at h
    obtain ⟨_, _, ⟨-, rfl⟩, _, _, ⟨-, rfl⟩, -, rfl⟩ := h
    rfl

theorem readPage_ok {cursor : Option MessageRow}
    (h : Tx.Returns (readPage order select beyond cursor limit chronological) db page db') :
    db' = db ∧ ∀ m ∈ page.1, ∃ row ∈ db.messages, messageFromRow row = .ok m := by
  unfold readPage at h
  simp only [Tx.returns_bind, Tx.returns_read, returns_validated, Tx.returns_pure] at h
  obtain ⟨_, _, ⟨rfl, rfl⟩, messages, _, ⟨hdecode, rfl⟩, rfl, rfl⟩ := h
  refine ⟨rfl, ?_⟩
  intro m hm
  obtain ⟨row, hrow, hdecodes⟩ := decodeRows_ok hdecode m hm
  have hread := mem_of_mem_firstBy (mem_of_mem_paginateRows hrow)
  exact ⟨row, (List.mem_filter.mp hread).1, hdecodes⟩

/-- A page changes nothing, and shows what stored rows decode to. -/
theorem MessageQuery.page_decodes {query : MessageQuery}
    (h : Tx.Returns query.tx db page db') :
    db' = db ∧ ∀ m ∈ page.1, ∃ row ∈ db.messages, messageFromRow row = .ok m := by
  cases query with
  | messages roomId limit before =>
      change Tx.Returns (listMessages roomId limit before) db page db' at h
      unfold listMessages at h
      simp only [Tx.returns_bind, returns_requireRoom] at h
      obtain ⟨_, _, ⟨-, rfl⟩, _, _, hcursor, hpage⟩ := h
      obtain rfl := readCursor_ok hcursor
      exact readPage_ok hpage
  | pins roomId limit before =>
      change Tx.Returns (listPinnedMessages roomId limit before) db page db' at h
      unfold listPinnedMessages at h
      simp only [Tx.returns_bind, returns_requireRoom] at h
      obtain ⟨_, _, ⟨-, rfl⟩, _, _, hcursor, hpage⟩ := h
      obtain rfl := readCursor_ok hcursor
      exact readPage_ok hpage
  | replies roomId parentMessageId limit before =>
      change Tx.Returns (listReplies roomId parentMessageId limit before) db page db' at h
      unfold listReplies at h
      simp only [Tx.returns_bind, returns_requireRoom, returns_requireMessage,
        Tx.returns_require] at h
      obtain ⟨_, _, ⟨-, rfl⟩, _, _, ⟨-, rfl⟩, _, _, ⟨-, rfl⟩, _, _, hcursor, hpage⟩ := h
      obtain rfl := readCursor_ok hcursor
      exact readPage_ok hpage
  | search roomId contains limit before =>
      change Tx.Returns (searchMessages roomId contains limit before) db page db' at h
      unfold searchMessages at h
      simp only [Tx.returns_bind, returns_requireRoom] at h
      obtain ⟨_, _, ⟨-, rfl⟩, _, _, hcursor, hpage⟩ := h
      obtain rfl := readCursor_ok hcursor
      exact readPage_ok hpage

end Reads

end Store
end ChatEngine
