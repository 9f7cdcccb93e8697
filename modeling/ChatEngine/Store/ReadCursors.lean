import Mathlib
import ChatEngine.Store.Privacy

/-!
# Read cursors only move forward

A subject's cursor in a room is a place in the room's history: a time and a message id,
compared lexicographically.  No stored cursor is the least place of all.

* `cursorAt`, the place of a stored cursor;
* `Marked.cursor`, what one read call does to its own cursor and to the others;
* `read_cursors_monotone`, the runs of the store and the refusals of a read call.
-/

namespace ChatEngine
namespace Store

open Lib
open Models

/-- The place in a room's history a cursor stands for. -/
def ReadStateRow.place (r : ReadStateRow) : Timestamp ×ₗ String := toLex r.position

/-- The stored cursor of a subject in a room, `⊥` when there is none. -/
def cursorAt (roomId subject : String) (db : Database) : WithBot (Timestamp ×ₗ String) :=
  (db.readStates.find? (roomId, subject)).map ReadStateRow.place

/-- What a receipt query shows of a stored cursor. -/
def ReadStateRow.receipt (r : ReadStateRow) : ReadReceipt :=
  { subject := stripWhitespace r.subject
    lastReadMessageId := r.messageId.map stripWhitespace
    lastReadMessageAt := r.messageId.map fun _ => r.messageCreatedAt
    lastReadAt := some r.updatedAt }

theorem cursorLt_iff {a b : Timestamp × String} : cursorLt a b ↔ toLex a < toLex b :=
  Prod.Lex.toLex_lt_toLex.symm

theorem cursorAt_of_found {roomId subject : String} {db : Database} {row : ReadStateRow}
    (h : db.readStates.find? (roomId, subject) = some row) :
    cursorAt roomId subject db = (row.place : WithBot (Timestamp ×ₗ String)) := by
  unfold cursorAt
  rw [h]
  rfl

theorem cursorAt_of_none {roomId subject : String} {db : Database}
    (h : db.readStates.find? (roomId, subject) = none) : cursorAt roomId subject db = ⊥ := by
  unfold cursorAt
  rw [h]
  rfl

/-- A candidate is stored exactly when it lies beyond the stored cursor. -/
theorem cursorAdvances_iff {roomId subject : String} {db : Database} {candidate : ReadStateRow} :
    cursorAdvances (db.readStates.find? (roomId, subject)) candidate = true ↔
      cursorAt roomId subject db < (candidate.place : WithBot (Timestamp ×ₗ String)) := by
  cases hfind : db.readStates.find? (roomId, subject) with
  | none =>
      rw [cursorAt_of_none hfind]
      simp [cursorAdvances, WithBot.bot_lt_coe]
  | some row =>
      rw [cursorAt_of_found hfind, WithBot.coe_lt_coe]
      unfold cursorAdvances
      rw [decide_eq_true_eq, cursorLt_iff]
      rfl

/-- The place of a message in the history of its room. -/
def MessageRow.place (r : MessageRow) : Timestamp ×ₗ String := toLex (r.createdAt, r.id)

theorem afterCursor_iff {cursor : ReadStateRow} {r : MessageRow} :
    afterCursor cursor r ↔ cursor.place < r.place := by
  unfold afterCursor ReadStateRow.place ReadStateRow.position MessageRow.place
  rw [Prod.Lex.toLex_lt_toLex]
  simp only [eq_comm]

theorem messageOldestFirst_iff {a b : MessageRow} :
    messageOldestFirst a b ↔ a.place ≤ b.place := by
  unfold MessageRow.place
  rw [Prod.Lex.toLex_le_toLex]
  rfl

instance : Std.Total fun a b : MessageRow => messageOldestFirst b a :=
  ⟨fun a b => Std.Total.total b a⟩

instance : IsTrans MessageRow fun a b => messageOldestFirst b a :=
  ⟨fun _ _ _ hab hbc =>
    messageOldestFirst_iff.mpr
      ((messageOldestFirst_iff.mp hbc).trans (messageOldestFirst_iff.mp hab))⟩

section Cursors

variable {cfg : Config} {rd : Readings} {cmd : Command} {db db' : Database} {reply : Reply}
variable {roomId subject : String} {messageId : Option String} {mutation : ReadStateMutation}

/-! ## One read call -/

variable (db) in
/-- The cursor after a read call is the later of the old one and the candidate. -/
theorem cursorAt_advanceCursor {candidate : ReadStateRow} (hkey : candidate.key = (roomId, subject)) :
    cursorAt roomId subject
        (db.advanceCursor (db.readStates.find? (roomId, subject)) candidate) =
      max (cursorAt roomId subject db) candidate.place := by
  unfold Database.advanceCursor
  by_cases hadvances : cursorAdvances (db.readStates.find? (roomId, subject)) candidate = true
  · rw [if_pos hadvances, max_eq_right (cursorAdvances_iff.mp hadvances).le]
    apply cursorAt_of_found
    show (db.readStates.upsert candidate).find? (roomId, subject) = some candidate
    rw [Table.find?_upsert, if_pos hkey]
  · rw [if_neg hadvances, max_eq_left]
    exact not_lt.mp fun hlt => hadvances (cursorAdvances_iff.mpr hlt)

/-- A read call moves no other cursor. -/
theorem cursorAt_advanceCursor_other {candidate : ReadStateRow} {otherRoom otherSubject : String}
    {existing : Option ReadStateRow} (hkey : candidate.key ≠ (otherRoom, otherSubject)) :
    cursorAt otherRoom otherSubject (db.advanceCursor existing candidate) =
      cursorAt otherRoom otherSubject db := by
  unfold Database.advanceCursor cursorAt
  split
  · show ((db.readStates.upsert candidate).find? (otherRoom, otherSubject)).map _ = _
    rw [Table.find?_upsert, if_neg hkey]
  · rfl

variable (db) in
/-- The row behind the cursor after a read call: the candidate, or the row from before. -/
theorem advanceCursor_row {candidate : ReadStateRow} (hkey : candidate.key = (roomId, subject)) :
    ∃ row, (db.advanceCursor (db.readStates.find? (roomId, subject)) candidate).readStates.find?
        (roomId, subject) = some row ∧
      row = (if cursorAdvances (db.readStates.find? (roomId, subject)) candidate = true
        then candidate else (db.readStates.find? (roomId, subject)).getD candidate) := by
  unfold Database.advanceCursor
  by_cases hadvances : cursorAdvances (db.readStates.find? (roomId, subject)) candidate = true
  · refine ⟨candidate, ?_, by rw [if_pos hadvances]⟩
    rw [if_pos hadvances]
    show (db.readStates.upsert candidate).find? (roomId, subject) = some candidate
    rw [Table.find?_upsert, if_pos hkey]
  · rw [if_neg hadvances]
    cases hfind : db.readStates.find? (roomId, subject) with
    | none =>
        rw [hfind] at hadvances
        exact absurd rfl hadvances
    | some row =>
        rw [hfind] at hadvances
        exact ⟨row, rfl, by rw [if_neg hadvances]; rfl⟩

/-- The receipt of a read call is the one a query shows of the stored row. -/
theorem Marked.receipt (h : Marked cfg rd roomId subject messageId db mutation db') :
    ∃ row, db'.readStates.find? (roomId, subject) = some row ∧ mutation.receipt = row.receipt := by
  obtain ⟨target, -, hdb', hstate, hreceipt, -⟩ := h.effect
  have hkey : (readCandidate roomId subject (rd.now 0) target).key = (roomId, subject) := rfl
  obtain ⟨row, hrow, hcases⟩ := advanceCursor_row db hkey
  rw [← hdb'] at hrow
  refine ⟨row, hrow, ?_⟩
  have hsubject : row.subject = subject := congrArg Prod.snd (Table.find?_eq_some.mp hrow).2
  have hstateId : mutation.state.lastReadMessageId = row.messageId.map stripWhitespace := by
    rw [hstate, readState, hrow]
  have hstateAt : mutation.state.lastReadAt = some row.updatedAt := by
    rw [hstate, readState, hrow]
  -- the receipt takes its time from the candidate or from the row that was there
  have htime : ∀ existing : Option ReadStateRow, ∀ candidate : ReadStateRow,
      (if cursorAdvances existing candidate = true then candidate.messageCreatedAt
        else (existing.map ReadStateRow.messageCreatedAt).getD candidate.messageCreatedAt) =
      (if cursorAdvances existing candidate = true then candidate
        else existing.getD candidate).messageCreatedAt := by
    intro existing candidate
    split
    · rfl
    · cases existing <;> rfl
  rw [ReadReceipt.build_ok hreceipt]
  simp only [markReceipt, ReadStateRow.receipt, htime, ← hcases, hstateId, hstateAt, hsubject,
    ReadReceipt.mk.injEq, Option.map_map, and_true, true_and]
  constructor
  · cases row.messageId <;> simp
  · rfl

/-- A message that has the newest place of its room. -/
theorem newestMessage_eq_some {top : MessageRow} (h : newestMessage roomId db = some top) :
    (top ∈ db.messages ∧ top.roomId = roomId) ∧
      ∀ r ∈ db.messages, r.roomId = roomId → r.place ≤ top.place := by
  obtain ⟨hmem, htop⟩ := head?_firstBy_one h
  rw [List.mem_filter, decide_eq_true_eq] at hmem
  refine ⟨hmem, ?_⟩
  intro r hr hroom
  apply messageOldestFirst_iff.mp
  exact htop r (List.mem_filter.mpr ⟨hr, decide_eq_true hroom⟩)

theorem newestMessage_eq_none (h : newestMessage roomId db = none) :
    ∀ r ∈ db.messages, r.roomId ≠ roomId := by
  intro r hr hroom
  have hempty := head?_firstBy_one_none h
  have hin : r ∈ db.messages.rows.filter fun r => r.roomId = roomId :=
    List.mem_filter.mpr ⟨hr, decide_eq_true hroom⟩
  rw [hempty] at hin
  cases hin

/-- Reading to the end of a room leaves nothing unread. -/
theorem Marked.unread_zero (h : Marked cfg rd roomId subject none db mutation db') :
    mutation.state.unreadCount = 0 := by
  obtain ⟨target, htarget, rfl, hstate, -⟩ := h.effect
  have hnewest : target = newestMessage roomId db := (Tx.returns_read.mp htarget).1
  have hkey : (readCandidate roomId subject (rd.now 0) target).key = (roomId, subject) := rfl
  obtain ⟨row, hrow, -⟩ := advanceCursor_row db hkey
  obtain ⟨t, hsame⟩ := db.advanceCursor_same (db.readStates.find? (roomId, subject))
    (readCandidate roomId subject (rd.now 0) target)
  have hmax := cursorAt_advanceCursor db hkey
  rw [cursorAt_of_found hrow] at hmax
  have hplace : (readCandidate roomId subject (rd.now 0) target).place ≤ row.place := by
    rw [← WithBot.coe_le_coe, hmax]
    exact le_max_right _ _
  rw [hstate]
  unfold readState
  rw [hrow]
  show Table.countWhere _ _ = 0
  unfold Table.countWhere
  rw [List.length_eq_zero_iff, List.filter_eq_nil_iff]
  intro r hr
  rw [decide_eq_true_eq]
  rintro ⟨⟨hroom, -⟩, hafter⟩
  have hmem : r ∈ db.messages := by
    rw [hsame] at hr
    exact hr
  -- the candidate stands at the newest message, so no message lies beyond the cursor
  cases hnew : newestMessage roomId db with
  | none => exact newestMessage_eq_none hnew r hmem hroom
  | some top =>
      have htop := (newestMessage_eq_some hnew).2 r hmem hroom
      rw [hnewest, hnew] at hplace
      have hbeyond : row.place < r.place := afterCursor_iff.mp hafter
      exact absurd (hbeyond.trans_le htop) (not_lt.mpr hplace)

/-- A read call reports a change exactly when its cursor has moved forward. -/
theorem Marked.changed_iff (h : Marked cfg rd roomId subject messageId db mutation db') :
    mutation.changed = true ↔ cursorAt roomId subject db < cursorAt roomId subject db' := by
  obtain ⟨target, -, rfl, -, -, hchanged⟩ := h.effect
  have hkey : (readCandidate roomId subject (rd.now 0) target).key = (roomId, subject) := rfl
  rw [hchanged, cursorAt_advanceCursor db hkey, cursorAdvances_iff, lt_max_iff, or_iff_right]
  exact lt_irrefl _

/-- A read call moves no cursor back. -/
theorem Marked.cursor_le (h : Marked cfg rd roomId subject messageId db mutation db')
    (otherRoom otherSubject : String) :
    cursorAt otherRoom otherSubject db ≤ cursorAt otherRoom otherSubject db' := by
  obtain ⟨target, -, rfl, -⟩ := h.effect
  by_cases hkey : (readCandidate roomId subject (rd.now 0) target).key = (otherRoom, otherSubject)
  · have hroom : roomId = otherRoom := congrArg Prod.fst hkey
    have hsubject : subject = otherSubject := congrArg Prod.snd hkey
    subst hroom hsubject
    rw [cursorAt_advanceCursor db hkey]
    exact le_max_left _ _
  · rw [cursorAt_advanceCursor_other hkey]

/-! ## The other calls -/

/-- The calls that take no cursor away: all but clearing one and deleting a room. -/
def Command.KeepsCursors : Command → Prop
  | clearReadState _ _ | deleteRoom _ _ => False
  | _ => True

theorem cursorAt_congr (h : db'.readStates = db.readStates) :
    cursorAt roomId subject db' = cursorAt roomId subject db := by
  unfold cursorAt
  rw [h]

/-- One call moves no cursor back. -/
theorem cursor_le_step {call : Readings × Command} (hkeeps : call.2.KeepsCursors)
    (hstep : Step cfg db call db') : cursorAt roomId subject db ≤ cursorAt roomId subject db' := by
  rcases hstep.cases with rfl | ⟨reply, hok⟩
  · exact le_refl _
  · obtain ⟨rd, cmd⟩ := call
    cases cmd with
    | markRead room reader messageId =>
        obtain ⟨mutation, hmark, -⟩ := Tx.returns_map.mp hok
        exact (markRead_marked hmark).cursor_le roomId subject
    | clearReadState _ _ => exact absurd hkeeps id
    | deleteRoom _ _ => exact absurd hkeeps id
    | _ => exact (cursorAt_congr (readStates_left hok trivial)).ge

/-! ## Refusals -/

/-- The message of a read call is not in its room. -/
theorem exec_markRead_missing {id : String} (hroom : HasRoom db roomId)
    (hmissing : ∀ r ∈ db.messages, ¬ (r.id = id ∧ r.roomId = roomId)) :
    exec cfg rd (.markRead roomId subject (some id)) db = (.error (.messageNotFound id), db) := by
  apply Tx.atomically_raises.mpr
  show Tx.Raises (Reply.readState <$> markRead cfg rd roomId subject (some id)) db _
  unfold markRead readTarget requireMessage
  obtain ⟨room, hfind⟩ := Option.isSome_iff_exists.mp (hasRoom_iff.mp hroom)
  have hnone : (db.messages.find? id).filter (fun r => r.roomId = roomId) = none := by
    rw [Option.filter_eq_none_iff]
    intro r hr hrRoom
    obtain ⟨hmem, hid⟩ := Table.find?_eq_some.mp hr
    exact hmissing r hmem ⟨hid, of_decide_eq_true hrRoom⟩
  simp only [Tx.raises_map, Tx.raises_bind, Tx.returns_read, Tx.raises_read, Tx.returns_orRaise,
    Tx.raises_orRaise, false_or]
  refine ⟨_, _, ⟨rfl, rfl⟩, .inr ⟨room, _, ⟨hfind, rfl⟩, .inl (.inl ?_)⟩⟩
  exact ⟨_, _, ⟨rfl, rfl⟩, hnone, trivial⟩

/-- The room has no place for one more cursor. -/
theorem exec_markRead_full {target : Option MessageRow} (hroom : HasRoom db roomId)
    (htarget : Tx.Returns (readTarget roomId messageId) db target db)
    (habsent : db.readStates.find? (roomId, subject) = none)
    (hfull : cfg.maxReadStatesPerRoom ≤ db.readStates.countWhere fun r => r.roomId = roomId) :
    exec cfg rd (.markRead roomId subject messageId) db =
      (.error (.readStateCapacity roomId), db) := by
  apply Tx.atomically_raises.mpr
  show Tx.Raises (Reply.readState <$> markRead cfg rd roomId subject messageId) db _
  unfold markRead
  obtain ⟨room, hfind⟩ := Option.isSome_iff_exists.mp (hasRoom_iff.mp hroom)
  simp only [Tx.raises_map, Tx.raises_bind, Tx.returns_read, Tx.raises_read, Tx.returns_orRaise,
    Tx.raises_require, false_or]
  refine ⟨_, _, ⟨rfl, rfl⟩, .inr ⟨room, _, ⟨hfind, rfl⟩, .inr ⟨target, _, htarget, ?_⟩⟩⟩
  refine ⟨_, _, ⟨rfl, rfl⟩, _, _, ⟨rfl, rfl⟩, .inl ⟨?_, trivial⟩⟩
  rintro (hsome | hlt)
  · exact hsome habsent
  · exact absurd hlt (not_lt.mpr hfull)

/-! ## Runs -/

/-- The cursors of the subjects of a room in every run without clearing and without deletion of
rooms, and what one read call does and reports in any state. -/
theorem read_cursors_monotone (cfg : Config) :
    (∀ db db', Run (Step cfg) (fun _ call => call.2.KeepsCursors) db db' →
      ∀ roomId subject, cursorAt roomId subject db ≤ cursorAt roomId subject db') ∧
    (∀ rd roomId subject messageId db mutation db',
      exec cfg rd (.markRead roomId subject messageId) db = (.ok (.readState mutation), db') →
        (mutation.changed = true ↔ cursorAt roomId subject db < cursorAt roomId subject db') ∧
        (∃ row, db'.readStates.find? (roomId, subject) = some row ∧
          mutation.receipt = row.receipt) ∧
        (messageId = none → mutation.state.unreadCount = 0)) ∧
    (∀ rd roomId subject messageId db, HasRoom db roomId →
      (∀ id, messageId = some id → (∀ r ∈ db.messages, ¬ (r.id = id ∧ r.roomId = roomId)) →
        exec cfg rd (.markRead roomId subject messageId) db = (.error (.messageNotFound id), db)) ∧
      (∀ target, Tx.Returns (readTarget roomId messageId) db target db →
        db.readStates.find? (roomId, subject) = none →
        cfg.maxReadStatesPerRoom ≤ (db.readStates.countWhere fun r => r.roomId = roomId) →
        exec cfg rd (.markRead roomId subject messageId) db =
          (.error (.readStateCapacity roomId), db))) ∧
    (∀ rd roomId subject messageId db e db',
      exec cfg rd (.markRead roomId subject messageId) db = (.error e, db') → db' = db) := by
  refine ⟨?_, ?_, ?_, ?_⟩
  · intro db db' hrun roomId subject
    apply hrun.relates
    · intro t
      exact le_refl (cursorAt roomId subject t)
    · intro s t u hst htu
      exact hst.trans htu
    · intro t call u hkeeps hstep
      exact cursor_le_step hkeeps hstep
  · intro rd roomId subject messageId db mutation db' hexec
    obtain ⟨result, hmark, hresult⟩ := Tx.returns_map.mp (exec_ok.mp hexec)
    cases hresult
    have hmarked := markRead_marked hmark
    refine ⟨hmarked.changed_iff, hmarked.receipt, ?_⟩
    rintro rfl
    exact hmarked.unread_zero
  · intro rd roomId subject messageId db hroom
    constructor
    · rintro id rfl hmissing
      exact exec_markRead_missing hroom hmissing
    · intro target htarget habsent hfull
      exact exec_markRead_full hroom htarget habsent hfull
  · intro rd roomId subject messageId db e db' hexec
    exact exec_error hexec

/-- A late retry of an older message, and a read to the end. -/
def lateRetry : List (Readings × Command) :=
  [(.fixed 1 0, .createRoom
        { name := "General", id := some ⟨"general", matchesRoomId_general⟩ } "admin"),
   (.fixed 2 10, .createMessage { roomId := "general", sender := "ada", content := "first" }),
   (.fixed 3 20, .createMessage { roomId := "general", sender := "ada", content := "second" }),
   (.fixed 4 30, .markRead "general" "bob" none),
   (.fixed 5 40, .markRead "general" "bob" (some (UuidHex.ofNat 10).text))]

/-- The retry does not take the cursor back. -/
theorem read_cursors_monotone_lateRetry :
    cursorAt "general" "bob" (runCalls smallConfig (lateRetry.take 4) {}) ≤
      cursorAt "general" "bob" (runCalls smallConfig lateRetry {}) := by
  apply (read_cursors_monotone smallConfig).1
  exact Run.tail (lateRetry.getLast (by decide)) Run.refl trivial rfl

end Cursors

end Store
end ChatEngine
