import ChatEngine.Lib.Pages
import ChatEngine.Store.Audit
import ChatEngine.Store.Reads

/-!
# Following the pages of a listing

* `listAuditEvents` and `listWebhookDeliveries`, the two lists of the operator;
* `MessageListing`, the four lists of a room, each with what it shows and in which order;
* `listings_exact`: in every state that the store reaches, following the cursors of any of the six
  ends, and the pages put together are exactly the rows of the listing.
-/

namespace ChatEngine
namespace Store

open Lib
open Models

/-! ## The lists of the operator -/

/-- An administrative event. -/
structure AuditEvent where
  id : String
  action : AuditAction
  actor : String
  roomId : Option String
  createdAt : Timestamp
  details : AuditDetails
  deriving DecidableEq

/-- `_audit_from_row`. -/
def auditFromRow (row : AuditRow) : AuditEvent :=
  { id := stripWhitespace row.id
    action := row.action
    actor := stripWhitespace row.actor
    roomId := row.roomId.map stripWhitespace
    createdAt := row.createdAt
    details := row.details }

/-- What the two lists of the operator raise. -/
inductive OperatorListError where
  | invalidAuditCursor (before : String)
  | invalidWebhookCursor (before : String)
  deriving DecidableEq, Repr

/-- `_paginate_rows` for rows that are shown one by one. -/
def paginateShown {α β : Type} (key : α → String) (shown : α → β) (rows : List α) (limit : Nat)
    (chronological : Bool) : List β × Option String :=
  let page := cutPage key limit rows
  ((if chronological = true then page.1.reverse else page.1).map shown, page.2)

/-- The row comes after the cursor by `created_at DESC, id DESC`. -/
def AuditRow.olderThanCursor (cursor r : AuditRow) : Prop :=
  r.createdAt < cursor.createdAt ∨ (r.createdAt = cursor.createdAt ∧ r.id < cursor.id)

instance (cursor r : AuditRow) : Decidable (cursor.olderThanCursor r) :=
  inferInstanceAs (Decidable (_ ∨ _))

/-- `_list_audit_events_sync`; the empty text is no cursor. -/
def listAuditEvents (limit : Nat) (before : Option String) (db : Database) :
    Except OperatorListError (List AuditEvent × Option String) :=
  match before.filter (· ≠ "") with
  | none =>
      let rows := firstBy auditNewestFirst (limit + 1) db.auditEvents.rows
      .ok (paginateShown AuditRow.id auditFromRow rows limit true)
  | some id =>
      match db.auditEvents.find? id with
      | none => .error (.invalidAuditCursor id)
      | some cursor =>
          let rows := firstBy auditNewestFirst (limit + 1)
            (db.auditEvents.rows.filter fun r => cursor.olderThanCursor r)
          .ok (paginateShown AuditRow.id auditFromRow rows limit true)

/-- The status filter of the deliveries; no filter lets every row through. -/
def ofStatus (status : Option String) (r : WebhookRow) : Prop :=
  status = none ∨
    (status = some "pending" ∧ r.deliveredAt = none ∧ r.failedAt = none) ∨
    (status = some "delivered" ∧ r.deliveredAt ≠ none) ∨
    (status = some "failed" ∧ r.failedAt ≠ none)

instance (status : Option String) : DecidablePred (ofStatus status) := by
  intro r
  unfold ofStatus
  infer_instance

/-- `created_at DESC, id DESC` among outbox rows. -/
abbrev webhookNewestFirst (a b : WebhookRow) : Prop := webhookOldestFirst b a

/-- The row comes after the cursor by `created_at DESC, id DESC`. -/
def WebhookRow.olderThanCursor (cursor r : WebhookRow) : Prop :=
  r.createdAt < cursor.createdAt ∨ (r.createdAt = cursor.createdAt ∧ r.id < cursor.id)

instance (cursor r : WebhookRow) : Decidable (cursor.olderThanCursor r) :=
  inferInstanceAs (Decidable (_ ∨ _))

/-- `_list_webhook_deliveries_sync`; here the empty text is a cursor like any other. -/
def listWebhookDeliveries (limit : Nat) (before status : Option String) (db : Database) :
    Except OperatorListError (List WebhookDelivery × Option String) :=
  match before with
  | none =>
      let rows := firstBy webhookNewestFirst (limit + 1)
        (db.webhooks.rows.filter fun r => ofStatus status r)
      .ok (paginateShown WebhookRow.id webhookFromRow rows limit false)
  | some id =>
      match db.webhooks.find? id with
      | none => .error (.invalidWebhookCursor id)
      | some cursor =>
          let rows := firstBy webhookNewestFirst (limit + 1)
            (db.webhooks.rows.filter fun r => ofStatus status r ∧ cursor.olderThanCursor r)
          .ok (paginateShown WebhookRow.id webhookFromRow rows limit false)

/-! ## Orders of two columns -/

section Orders

variable {α : Type} {time : α → Timestamp} {key : α → String}

/-- Earlier by time, and by key among rows of one time. -/
def Earlier (time : α → Timestamp) (key : α → String) (a b : α) : Prop :=
  time a < time b ∨ (time a = time b ∧ key a < key b)

instance (time : α → Timestamp) (key : α → String) :
    Std.Total fun a b => timeKeyLe time key b a :=
  ⟨fun a b => Std.Total.total (r := timeKeyLe time key) b a⟩

instance (time : α → Timestamp) (key : α → String) :
    IsTrans α fun a b => timeKeyLe time key b a :=
  ⟨fun _ _ _ hab hbc => IsTrans.trans (r := timeKeyLe time key) _ _ _ hbc hab⟩

theorem not_timeKeyLe {a b : α} : ¬ timeKeyLe time key a b ↔ Earlier time key b a := by
  unfold timeKeyLe Earlier
  constructor
  · intro h
    rcases lt_trichotomy (time b) (time a) with hlt | heq | hgt
    · exact .inl hlt
    · refine .inr ⟨heq, ?_⟩
      by_contra hkey
      exact h (.inr ⟨heq.symm, not_lt.mp hkey⟩)
    · exact absurd (.inl hgt) h
  · rintro (hlt | ⟨heq, hkey⟩) (hlt' | ⟨heq', hkey'⟩)
    · exact hlt.asymm hlt'
    · exact hlt.ne' heq'
    · exact hlt'.ne' heq
    · exact hkey.not_ge hkey'

theorem eq_of_timeKeyLe {t : Table α String key} {a b : α} (ha : a ∈ t) (hb : b ∈ t)
    (hab : timeKeyLe time key b a) (hba : timeKeyLe time key a b) : a = b := by
  apply Table.eq_of_key ha hb
  by_contra hne
  rcases hab with hlt | ⟨heq, hkey⟩
  · rcases hba with hlt' | ⟨heq', -⟩
    · exact hlt.asymm hlt'
    · exact hlt.ne' heq'
  · rcases hba with hlt' | ⟨-, hkey'⟩
    · exact hlt'.ne' heq
    · exact hne (le_antisymm hkey' hkey)

/-- Different rows of a table, one not after the other. -/
theorem earlier_of_ne {t : Table α String key} {a b : α} (ha : a ∈ t) (hb : b ∈ t)
    (hab : timeKeyLe time key b a) (hne : a ≠ b) : Earlier time key b a := by
  apply not_timeKeyLe.mp
  intro hba
  exact hne (eq_of_timeKeyLe ha hb hab hba)

end Orders

/-! ## The lists of a room -/

/-- One of the four lists of messages. -/
inductive MessageListing where
  | messages (roomId : String)
  | pins (roomId : String)
  | replies (roomId parentMessageId : String)
  | search (roomId : String) (contains : String → Bool)

/-- The request for one page of the list. -/
def MessageListing.query (limit : Nat) (before : Option String) : MessageListing → MessageQuery
  | messages roomId => .messages roomId limit before
  | pins roomId => .pins roomId limit before
  | replies roomId parentMessageId => .replies roomId parentMessageId limit before
  | search roomId contains => .search roomId contains limit before

/-- The answer to the request for one page. -/
def MessageListing.fetch (db : Database) (limit : Nat) (listing : MessageListing)
    (before : Option String) : Except StoreError (List Message × Option String) :=
  ((listing.query limit before).tx db).1

/-- The list exists: its room does, and the parent of its replies, which is no reply itself. -/
def MessageListing.Open (db : Database) : MessageListing → Prop
  | messages roomId => HasRoom db roomId
  | pins roomId => HasRoom db roomId
  | replies roomId parentMessageId => HasRoom db roomId ∧
      ∃ parent ∈ db.messages, parent.id = parentMessageId ∧ parent.roomId = roomId ∧
        parent.parentMessageId = none
  | search roomId _ => HasRoom db roomId

/-- The rows of the list. -/
def MessageListing.Selected : MessageListing → MessageRow → Prop
  | messages roomId, r => r.roomId = roomId
  | pins roomId, r => r.roomId = roomId ∧ r.pinnedAt ≠ none
  | replies roomId parentMessageId, r =>
      r.roomId = roomId ∧ r.parentMessageId = some parentMessageId
  | search roomId contains, r =>
      r.roomId = roomId ∧ r.deletedAt = none ∧ contains r.content = true

/-- Only the pins are read newest first. -/
def MessageListing.chronological : MessageListing → Bool
  | pins _ => false
  | _ => true

/-- The order in which the list is read. -/
def MessageListing.Precedes : MessageListing → MessageRow → MessageRow → Prop
  | pins _, a, b => Earlier (fun r => r.pinnedAt.getD 0) MessageRow.id b a
  | _, a, b => Earlier MessageRow.createdAt MessageRow.id a b

/-- The row decodes to the message. -/
def MessageRow.Shows (r : MessageRow) (m : Message) : Prop := messageFromRow r = .ok m

/-- The message of a row that decodes. -/
def MessageRow.shown (r : MessageRow) : Message :=
  match messageFromRow r with
  | .ok m => m
  | .error _ => r.raw [] []

section Requests

variable {db : Database} {limit : Nat} {chronological : Bool}
variable {order : MessageRow → MessageRow → Prop} [DecidableRel order]
variable {select : MessageRow → Prop} [DecidablePred select]
variable {beyond : MessageRow → MessageRow → Prop} [DecidableRel beyond]

theorem fetch_of_returns {α : Type} {tx : StoreTx α} {a : α} (h : Tx.Returns tx db a db) :
    (tx db).1 = .ok a :=
  congrArg Prod.fst h

theorem decodes_shown {r : MessageRow} (h : Decodes r) : r.Shows r.shown := by
  unfold MessageRow.Shows
  obtain ⟨m, hm⟩ := h
  unfold MessageRow.shown
  rw [hm]

theorem decodeRows_shown {rows : List MessageRow} (h : ∀ r ∈ rows, Decodes r) :
    decodeRows rows = .ok (rows.map MessageRow.shown) := by
  induction rows with
  | nil => rfl
  | cons row rest ih =>
      unfold decodeRows
      rw [show messageFromRow row = .ok row.shown from decodes_shown (h row List.mem_cons_self),
        ih fun r hr => h r (List.mem_cons_of_mem row hr)]
      rfl

theorem readCursor_none : Tx.Returns (readCursor none select) db none db :=
  Tx.returns_pure.mpr ⟨rfl, rfl⟩

theorem readCursor_some {c : MessageRow} (hc : c ∈ db.messages) (hid : c.id ≠ "")
    (hselect : select c) : Tx.Returns (readCursor (some c.id) select) db (some c) db := by
  unfold readCursor
  rw [Option.filter_some, if_pos (by simpa using hid)]
  simp only [Tx.returns_bind, Tx.returns_read, Tx.returns_orRaise, Tx.returns_pure]
  refine ⟨_, _, ⟨rfl, rfl⟩, c, db, ⟨?_, rfl⟩, rfl, rfl⟩
  rw [Table.find?_of_mem hc, Option.filter_some, if_pos (decide_eq_true hselect)]

/-- A page is the cut of the rows beyond the cursor. -/
theorem readPage_returns {cursor : Option MessageRow} (hdecodes : ∀ r ∈ db.messages, Decodes r)
    (hbeyond : ∀ c r, beyond c r ↔ ¬ order r c) :
    Tx.Returns (readPage order select beyond cursor limit chronological) db
      ((if chronological = true then
          (cutPage MessageRow.id limit (rowsBeyond order select db.messages cursor)).1.reverse
        else (cutPage MessageRow.id limit (rowsBeyond order select db.messages cursor)).1).map
          MessageRow.shown,
        (cutPage MessageRow.id limit (rowsBeyond order select db.messages cursor)).2) db := by
  have hrows : firstBy order (limit + 1)
      (db.messages.rows.filter fun r => select r ∧ cursor.all fun c => decide (beyond c r)) =
      (rowsBeyond order select db.messages cursor).take (limit + 1) := by
    unfold firstBy rowsBeyond
    simp only [hbeyond]
  have hdecode : decodeRows (paginateRows ((rowsBeyond order select db.messages cursor).take
      (limit + 1)) limit chronological).1 =
      .ok ((paginateRows ((rowsBeyond order select db.messages cursor).take (limit + 1)) limit
        chronological).1.map MessageRow.shown) := by
    apply decodeRows_shown
    intro r hr
    have hread := List.mem_of_mem_take (mem_of_mem_paginateRows hr)
    exact hdecodes r (List.mem_filter.mp ((List.mem_insertionSort order).mp hread)).1
  unfold readPage
  simp only [Tx.returns_bind, Tx.returns_read, returns_validated, Tx.returns_pure]
  rw [← hrows] at hdecode
  refine ⟨_, _, ⟨rfl, rfl⟩, _, _, ⟨hdecode, rfl⟩, ?_, rfl⟩
  rw [hrows, ← cutPage_take]
  rfl

/-- The list whose requests look the cursor up and then read a page beyond it. -/
theorem lists_of_readPage {fetch : Option String → Except StoreError (List Message × Option String)}
    {precedes : MessageRow → MessageRow → Prop} {cursorSelect : MessageRow → Prop}
    [DecidablePred cursorSelect] [Std.Total order] [IsTrans MessageRow order] (hlimit : 1 ≤ limit)
    (hdecodes : ∀ r ∈ db.messages, Decodes r) (hids : ∀ r ∈ db.messages, r.id ≠ "")
    (hbeyond : ∀ c r, beyond c r ↔ ¬ order r c) (hcursor : ∀ r, select r → cursorSelect r)
    (hanti : ∀ a ∈ db.messages, ∀ b ∈ db.messages, order a b → order b a → a = b)
    (hprecedes : ∀ a ∈ db.messages, ∀ b ∈ db.messages, select a → select b → order a b → a ≠ b →
      if chronological = true then precedes b a else precedes a b)
    (hfetch : ∀ before cursor page, Tx.Returns (readCursor before cursorSelect) db cursor db →
      Tx.Returns (readPage order select beyond cursor limit chronological) db page db →
      fetch before = .ok page) :
    ListsExactly fetch chronological db.messages select precedes MessageRow.Shows := by
  apply lists_exactly hlimit hanti (fun r hr _ => decodes_shown (hdecodes r hr)) hprecedes
  intro cursor hselected
  apply hfetch _ cursor _ _ (readPage_returns hdecodes hbeyond)
  cases cursor with
  | none => exact readCursor_none
  | some c =>
      obtain ⟨hc, hselect⟩ := hselected c rfl
      exact readCursor_some hc (hids c hc) (hcursor c hselect)

variable {cfg : Config} {roomId : String}

/-- The ids of stored messages are those that `uuid4` has made. -/
theorem StoreReachable.messageIds (h : StoreReachable cfg db) :
    ∀ r ∈ db.messages, ∃ id : UuidHex, r.id = id.text := by
  apply h.invariant fun db => ∀ r ∈ db.messages, ∃ id : UuidHex, r.id = id.text
  · intro r hr
    exact absurd hr Table.not_mem_empty
  · intro db rd cmd reply db' hold hok s hs
    cases message_origin hok hs with
    | kept r hr hsame _ =>
        rw [hsame.id]
        exact hold r hr
    | created args built _ _ hbuild _ hsame _ =>
        rw [hsame.id]
        exact ⟨rd.uuid 0, (Message.build_ok hbuild).id.trans (rd.uuid 0).stripWhitespace_eq⟩

theorem uuidText_ne_empty (id : UuidHex) : id.text ≠ "" := by
  intro hempty
  have hlength := id.length_eq
  rw [hempty] at hlength
  exact absurd hlength (by decide)

/-- A request of a list that is there: the cursor is looked up and a page is read beyond it. -/
theorem MessageListing.Open.lists_exactly {listing : MessageListing} (hopen : listing.Open db)
    (hreach : StoreReachable cfg db) (hlimit : 1 ≤ limit) :
    ListsExactly (listing.fetch db limit) listing.chronological db.messages listing.Selected
      listing.Precedes MessageRow.Shows := by
  have hdecodes := hreach.consistent.decodes
  have hids : ∀ r ∈ db.messages, r.id ≠ "" := by
    intro r hr
    obtain ⟨id, hid⟩ := hreach.messageIds r hr
    rw [hid]
    exact uuidText_ne_empty id
  have holder : ∀ c r : MessageRow, c.olderThanCursor r ↔ ¬ messageNewestFirst r c := by
    intro c r
    exact not_timeKeyLe.symm
  cases listing with
  | messages roomId =>
      show ListsExactly _ true db.messages (fun r => r.roomId = roomId)
        (Earlier MessageRow.createdAt MessageRow.id) _
      refine lists_of_readPage hlimit hdecodes hids holder (fun _ h => h)
        (fun _ ha _ hb => eq_of_timeKeyLe ha hb) (fun _ ha _ hb _ _ => earlier_of_ne ha hb) ?_
      intro before cursor page hcursor hpage
      apply fetch_of_returns
      show Tx.Returns (listMessages roomId limit before) db page db
      unfold listMessages
      simp only [Tx.returns_bind, returns_requireRoom]
      exact ⟨(), db, ⟨hopen, rfl⟩, cursor, db, hcursor, hpage⟩
  | pins roomId =>
      show ListsExactly _ false db.messages (fun r => r.roomId = roomId ∧ r.pinnedAt ≠ none)
        (fun a b => Earlier (fun r => r.pinnedAt.getD 0) MessageRow.id b a) _
      have hbefore : ∀ c r : MessageRow, c.pinnedBefore r ↔ ¬ pinnedNewestFirst r c := by
        intro c r
        show Earlier (fun r : MessageRow => r.pinnedAt.getD 0) MessageRow.id r c ↔ _
        exact not_timeKeyLe.symm
      refine lists_of_readPage hlimit hdecodes hids hbefore (fun _ h => h)
        (fun _ ha _ hb => eq_of_timeKeyLe ha hb) (fun _ ha _ hb _ _ => earlier_of_ne ha hb) ?_
      intro before cursor page hcursor hpage
      apply fetch_of_returns
      show Tx.Returns (listPinnedMessages roomId limit before) db page db
      unfold listPinnedMessages
      simp only [Tx.returns_bind, returns_requireRoom]
      exact ⟨(), db, ⟨hopen, rfl⟩, cursor, db, hcursor, hpage⟩
  | replies roomId parentMessageId =>
      show ListsExactly _ true db.messages
        (fun r => r.roomId = roomId ∧ r.parentMessageId = some parentMessageId)
        (Earlier MessageRow.createdAt MessageRow.id) _
      refine lists_of_readPage hlimit hdecodes hids holder (fun _ h => h)
        (fun _ ha _ hb => eq_of_timeKeyLe ha hb) (fun _ ha _ hb _ _ => earlier_of_ne ha hb) ?_
      intro before cursor page hcursor hpage
      obtain ⟨hroom, parent, hparent, hid, hparentRoom, hdepth⟩ := hopen
      apply fetch_of_returns
      show Tx.Returns (listReplies roomId parentMessageId limit before) db page db
      unfold listReplies
      simp only [Tx.returns_bind, returns_requireRoom, returns_requireMessage, Tx.returns_require]
      exact ⟨(), db, ⟨hroom, rfl⟩, parent, db, ⟨⟨hparent, hid, hparentRoom⟩, rfl⟩, (), db,
        ⟨hdepth, rfl⟩, cursor, db, hcursor, hpage⟩
  | search roomId contains =>
      show ListsExactly _ true db.messages
        (fun r => r.roomId = roomId ∧ r.deletedAt = none ∧ contains r.content = true)
        (Earlier MessageRow.createdAt MessageRow.id) _
      refine lists_of_readPage hlimit hdecodes hids holder (fun _ h => h.1)
        (fun _ ha _ hb => eq_of_timeKeyLe ha hb) (fun _ ha _ hb _ _ => earlier_of_ne ha hb) ?_
      intro before cursor page hcursor hpage
      apply fetch_of_returns
      show Tx.Returns (searchMessages roomId contains limit before) db page db
      unfold searchMessages
      simp only [Tx.returns_bind, returns_requireRoom]
      exact ⟨(), db, ⟨hopen, rfl⟩, cursor, db, hcursor, hpage⟩

/-- A page is answered only where the list is there. -/
theorem MessageListing.open_of_page {listing : MessageListing} {before : Option String}
    {page : List Message × Option String} {db' : Database}
    (h : Tx.Returns (listing.query limit before).tx db page db') : listing.Open db := by
  cases listing with
  | messages roomId =>
      change Tx.Returns (listMessages roomId limit before) db page db' at h
      unfold listMessages at h
      simp only [Tx.returns_bind, returns_requireRoom] at h
      obtain ⟨_, _, ⟨hroom, -⟩, -⟩ := h
      exact hroom
  | pins roomId =>
      change Tx.Returns (listPinnedMessages roomId limit before) db page db' at h
      unfold listPinnedMessages at h
      simp only [Tx.returns_bind, returns_requireRoom] at h
      obtain ⟨_, _, ⟨hroom, -⟩, -⟩ := h
      exact hroom
  | replies roomId parentMessageId =>
      change Tx.Returns (listReplies roomId parentMessageId limit before) db page db' at h
      unfold listReplies at h
      simp only [Tx.returns_bind, returns_requireRoom, returns_requireMessage,
        Tx.returns_require] at h
      obtain ⟨_, _, ⟨hroom, rfl⟩, parent, _, ⟨⟨hparent, hid, hparentRoom⟩, rfl⟩, _, _,
        ⟨hdepth, -⟩, -⟩ := h
      exact ⟨hroom, parent, hparent, hid, hparentRoom, hdepth⟩
  | search roomId contains =>
      change Tx.Returns (searchMessages roomId contains limit before) db page db' at h
      unfold searchMessages at h
      simp only [Tx.returns_bind, returns_requireRoom] at h
      obtain ⟨_, _, ⟨hroom, -⟩, -⟩ := h
      exact hroom

end Requests

section Operator

variable {cfg : Config} {db : Database} {limit : Nat}

theorem paginateShown_take {α β : Type} {key : α → String} {shown : α → β} {rows : List α}
    {chronological : Bool} :
    paginateShown key shown (rows.take (limit + 1)) limit chronological =
      ((if chronological = true then (cutPage key limit rows).1.reverse
        else (cutPage key limit rows).1).map shown, (cutPage key limit rows).2) := by
  unfold paginateShown
  rw [cutPage_take]

theorem auditEvents_exactly (hreach : StoreReachable cfg db) (hlimit : 1 ≤ limit) :
    ListsExactly (fun before => listAuditEvents limit before db) true db.auditEvents
      (fun _ => True) (Earlier AuditRow.createdAt AuditRow.id) fun r e => e = auditFromRow r := by
  have hshown : ∀ r ∈ db.auditEvents, True → auditFromRow r = auditFromRow r := fun _ _ _ => rfl
  refine lists_exactly hlimit (fun _ ha _ hb hab => eq_of_timeKeyLe ha hb hab) hshown
    (fun _ ha _ hb _ _ => earlier_of_ne ha hb) ?_
  intro cursor hcursor
  rw [← paginateShown_take]
  unfold listAuditEvents rowsBeyond firstBy
  cases cursor with
  | none => simp
  | some c =>
      have hc := (hcursor c rfl).1
      obtain ⟨id, hid⟩ := hreach.auditIds c hc
      have hne : c.id ≠ "" := by
        rw [hid]
        exact uuidText_ne_empty id
      have hbeyond : ∀ r : AuditRow, c.olderThanCursor r ↔ ¬ auditNewestFirst r c :=
        fun r => not_timeKeyLe.symm
      rw [Option.map_some, Option.filter_some, if_pos (by simpa using hne)]
      simp only [Table.find?_of_mem hc, hbeyond, Option.all_some, decide_eq_true_eq, true_and]

theorem webhookDeliveries_exactly (hlimit : 1 ≤ limit) (status : Option String) :
    ListsExactly (fun before => listWebhookDeliveries limit before status db) false db.webhooks
      (ofStatus status) (fun a b => Earlier WebhookRow.createdAt WebhookRow.id b a)
      fun r d => d = webhookFromRow r := by
  have hshown : ∀ r ∈ db.webhooks, ofStatus status r → webhookFromRow r = webhookFromRow r :=
    fun _ _ _ => rfl
  refine lists_exactly hlimit (fun _ ha _ hb hab => eq_of_timeKeyLe ha hb hab) hshown
    (fun _ ha _ hb _ _ => earlier_of_ne ha hb) ?_
  intro cursor hcursor
  rw [← paginateShown_take]
  unfold listWebhookDeliveries rowsBeyond firstBy
  cases cursor with
  | none => simp
  | some c =>
      have hc := (hcursor c rfl).1
      have hbeyond : ∀ r : WebhookRow, c.olderThanCursor r ↔ ¬ webhookNewestFirst r c :=
        fun r => not_timeKeyLe.symm
      simp only [Option.map_some, Table.find?_of_mem hc, hbeyond, Option.all_some,
        decide_eq_true_eq]

/-- In every state that the store reaches, following the cursors of a listing ends, and its pages
put together are exactly its rows, in order; a list that is not there has no page. -/
theorem listings_exact (hreach : StoreReachable cfg db) (hlimit : 1 ≤ limit) :
    (∀ listing : MessageListing, listing.Open db →
      ListsExactly (listing.fetch db limit) listing.chronological db.messages listing.Selected
        listing.Precedes MessageRow.Shows) ∧
    (∀ listing : MessageListing, ¬ listing.Open db →
      ∀ before, ∃ e, listing.fetch db limit before = .error e) ∧
    ListsExactly (fun before => listAuditEvents limit before db) true db.auditEvents
      (fun _ => True) (Earlier AuditRow.createdAt AuditRow.id) (fun r e => e = auditFromRow r) ∧
    ∀ status, ListsExactly (fun before => listWebhookDeliveries limit before status db) false
      db.webhooks (ofStatus status) (fun a b => Earlier WebhookRow.createdAt WebhookRow.id b a)
      fun r d => d = webhookFromRow r := by
  refine ⟨fun listing hopen => hopen.lists_exactly hreach hlimit, fun listing hclosed before => ?_,
    auditEvents_exactly hreach hlimit, webhookDeliveries_exactly hlimit⟩
  rcases Tx.returns_or_raises (listing.query limit before).tx db with ⟨page, _, hpage⟩ | ⟨e, hraise⟩
  · exact absurd (MessageListing.open_of_page hpage) hclosed
  · exact ⟨e, hraise⟩

/-- The messages of a room of two, a page at a time. -/
theorem listings_exact_two :
    ListsExactly ((MessageListing.messages "general").fetch
        (runCalls smallConfig [(.fixed 1 0, makeRoom), (.fixed 5 20, sayFirst),
          (.fixed 5 30, .createMessage sayAgain)] {}) 1) true
      (runCalls smallConfig [(.fixed 1 0, makeRoom), (.fixed 5 20, sayFirst),
        (.fixed 5 30, .createMessage sayAgain)] {}).messages
      (fun r => r.roomId = "general") (Earlier MessageRow.createdAt MessageRow.id)
      MessageRow.Shows :=
  (listings_exact (runCalls_reachable smallConfig _) (le_refl 1)).1 (.messages "general")
    (hasRoom_iff.mpr (by decide +kernel))

end Operator

end Store
end ChatEngine
