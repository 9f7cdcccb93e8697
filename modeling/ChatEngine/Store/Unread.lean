import ChatEngine.Store.Clock
import ChatEngine.Store.ReadCursors

/-!
# What a subject has not read

The unread count compares places in the history, not the order in which messages arrived: a
message created after a read call is unread when its place is beyond the cursor.

* `CountedUnread`, a message the unread count of a subject includes;
* `AfterTies`, creates that do not fall behind a cursor at the very time it stands for;
* `Watched`: the row of a retained message keeps who wrote it and when;
* `later_message_counted`, for every run of such calls.
-/

namespace ChatEngine
namespace Store

open Lib
open Models

/-- Without the message the subject would have one unread message less. -/
def CountedUnread (roomId subject messageId : String) (db : Database) : Prop :=
  (readState roomId subject
      { db with messages := db.messages.deleteWhere fun r => r.id = messageId }).unreadCount + 1 =
    (readState roomId subject db).unreadCount

/-- The row a subject's cursor is stored in. -/
def cursorRow (roomId subject : String) (s : Timed) : Option ReadStateRow :=
  s.db.readStates.find? (roomId, subject)

/-- A message with this id is stored. -/
def Retained (messageId : String) (s : Timed) : Prop := ∃ r ∈ s.db.messages, r.id = messageId

/-- A create at the very time of another subject's cursor in its room draws an id beyond the
cursor's. -/
def AfterTies (s : Timed) (call : Readings × Command) : Prop :=
  ∀ args, call.2 = .createMessage args → ∀ c ∈ s.db.readStates, c.roomId = args.roomId →
    args.authorSubject ≠ some c.subject → c.messageCreatedAt = call.1.now 1 →
    c.messageId.getD "" < (call.1.uuid 0).text

/-- A message that another author creates after a subject's read call is counted as unread, in
every run whose steps meet `cond`, for as long as the cursor stays and the message is retained
and not deleted. -/
def LaterMessagesCounted (cfg : Config)
    (cond : Timed → Readings × Command → Prop) : Prop :=
  ∀ s₀ s₁ s₂ s₃ s₄ : Timed, ∀ rd rd' : Readings, ∀ roomId subject : String,
  ∀ messageId : Option String, ∀ mutation : ReadStateMutation, ∀ args : CreateMessage,
  ∀ m : Message, ∀ row : MessageRow,
    TimedReachable cfg s₀ →
    TimedStep cfg s₀ (rd, .markRead roomId subject messageId) s₁ →
    exec cfg rd (.markRead roomId subject messageId) s₀.db =
      (.ok (.readState mutation), s₁.db) →
    Run (TimedStep cfg)
      (fun t call => cond t call ∧ cursorRow roomId subject t = cursorRow roomId subject s₁)
      s₁ s₂ →
    cond s₂ (rd', .createMessage args) →
    cursorRow roomId subject s₂ = cursorRow roomId subject s₁ →
    TimedStep cfg s₂ (rd', .createMessage args) s₃ →
    exec cfg rd' (.createMessage args) s₂.db = (.ok (.message m true), s₃.db) →
    args.roomId = roomId → args.authorSubject ≠ some subject →
    Run (TimedStep cfg)
      (fun t call => cond t call ∧ Retained m.id t ∧
        cursorRow roomId subject t = cursorRow roomId subject s₁)
      s₃ s₄ →
    cursorRow roomId subject s₄ = cursorRow roomId subject s₁ →
    row ∈ s₄.db.messages → row.id = m.id → row.deletedAt = none →
    CountedUnread roomId subject m.id s₄.db

section Unread

variable {cfg : Config} {rd : Readings} {cmd : Command} {db db' : Database} {reply : Reply}

/-! ## The count -/

/-- A stored row that the filter accepts is one of those it counts. -/
theorem countedUnread_of_accepted {roomId subject : String} {row : MessageRow}
    {cursor : ReadStateRow} (hcursor : db.readStates.find? (roomId, subject) = some cursor)
    (hrow : row ∈ db.messages) (hcandidate : unreadCandidate roomId subject row)
    (hafter : afterCursor cursor row) : CountedUnread roomId subject row.id db := by
  unfold CountedUnread readState
  rw [hcursor]
  exact Table.countWhere_deleteKey hrow ⟨hcandidate, hafter⟩

/-! ## The row of a retained message -/

/-- The message's row, wherever it is stored, says where it belongs, who wrote it and when. -/
def Watched (messageId roomId : String) (author : Option String) (createdAt : Timestamp)
    (s : Timed) : Prop :=
  ∀ r ∈ s.db.messages, r.id = messageId →
    r.roomId = roomId ∧ r.authorSubject = author ∧ r.createdAt = createdAt

theorem Watched.step {messageId roomId : String} {author : Option String} {createdAt : Timestamp}
    {s s' : Timed} {call : Readings × Command} (h : Watched messageId roomId author createdAt s)
    (hretained : Retained messageId s) (hstep : TimedStep cfg s call s') :
    Watched messageId roomId author createdAt s' := by
  intro r hr hid
  rcases hstep.step.cases with hsame | ⟨reply, hok⟩
  · rw [hsame] at hr
    exact h r hr hid
  · obtain ⟨old, hold, holdId⟩ := hretained
    have hidentity := identity_kept hok hr hold (holdId.trans hid.symm)
    obtain ⟨hroom, hauthor, hcreated⟩ := h old hold holdId
    exact ⟨hidentity.roomId.trans hroom, hidentity.authorSubject.trans hauthor,
      hidentity.createdAt.trans hcreated⟩

theorem Watched.run {messageId roomId : String} {author : Option String} {createdAt : Timestamp}
    {s s' : Timed} {cond : Timed → Readings × Command → Prop}
    (hrun : Run (TimedStep cfg) cond s s') (hretained : ∀ t call, cond t call → Retained messageId t)
    (h : Watched messageId roomId author createdAt s) :
    Watched messageId roomId author createdAt s' :=
  hrun.invariant (fun t call _ ht hcond hstep => ht.step (hretained t call hcond) hstep) h

/-- What a create stores under the id it returns. -/
theorem Created.watched {args : CreateMessage} {m : Message} {s : Timed}
    (h : Created cfg rd args db m s.db) (hroom : stripWhitespace args.roomId = args.roomId) :
    m.id = (rd.uuid 0).text ∧
      Watched m.id args.roomId args.authorSubject (rd.now 1) s := by
  obtain ⟨built, inserted, hbuild, -, -, hins, ⟨row, hrow, hrowId, hdecode⟩, hcommits⟩ := h.effect
  have hbuilt := Message.build_ok hbuild
  have hbuiltId : built.id = (rd.uuid 0).text := by
    rw [hbuilt.id]
    exact (rd.uuid 0).stripWhitespace_eq
  have hid : m.id = (rd.uuid 0).text := by
    rw [(messageFromRow_ok hdecode).1, hrowId, hbuiltId]
    exact (rd.uuid 0).stripWhitespace_eq
  refine ⟨hid, ?_⟩
  intro r hr hrId
  rw [hcommits.messages] at hr
  obtain ⟨old, hold, hsame⟩ := mem_trim hr
  have hidentity := hsame.identity
  -- the trimmed table holds the rows from before and the new one; the id is the new one's
  rcases (Table.mem_of_insert? hins).mp hold with holdDb | rfl
  · exfalso
    apply (Table.insert?_eq_some.mp hins).1 old holdDb
    rw [← hidentity.id, hrId, hid]
    exact hbuiltId.symm
  · refine ⟨?_, hidentity.authorSubject, ?_⟩
    · rw [hidentity.roomId, ← hroom]
      exact hbuilt.roomId
    · rw [hidentity.createdAt]
      exact hbuilt.createdAt

/-! ## Runs -/

/-- In every run in which creates do not fall behind a cursor at its very time, a message created
after a read call is counted for as long as it can be. -/
theorem later_message_counted (cfg : Config) : LaterMessagesCounted cfg AfterTies := by
  intro s₀ s₁ s₂ s₃ s₄ rd rd' roomId subject messageId mutation args m row hreach hmark hmarked
    hrun₁ hties hcursor₂ hcreate hcreated hroom hauthor hrun₂ hcursor₄ hrow hrowId hlive
  subst hroom
  have hreach₂ : TimedReachable cfg s₂ := by
    obtain ⟨start, hstart, hbefore⟩ := hreach
    exact ⟨start, hstart, (Run.tail _ hbefore trivial hmark).trans hrun₁.reach⟩
  -- the read call stored a cursor, and it is still there
  obtain ⟨result, hok, hresult⟩ := Tx.returns_map.mp (exec_ok.mp hmarked)
  cases hresult
  obtain ⟨cursor, hcursor, -⟩ := (markRead_marked hok).receipt
  have hstored : s₂.db.readStates.find? (args.roomId, subject) = some cursor :=
    hcursor₂.trans hcursor
  obtain ⟨hmem, hkey⟩ := Table.find?_eq_some.mp hstored
  have hcursorRoom : cursor.roomId = args.roomId := congrArg Prod.fst hkey
  have hcursorSubject : cursor.subject = subject := congrArg Prod.snd hkey
  -- the created row
  obtain ⟨⟨n, created⟩, hokCreate, hreply⟩ := Tx.returns_map.mp (exec_ok.mp hcreated)
  cases hreply
  obtain ⟨hmay, hcases⟩ := createMessage_ok hokCreate
  obtain ⟨roomRow, hroomRow, hroomKey, -⟩ := hmay.room
  have hstrip : stripWhitespace args.roomId = args.roomId :=
    HasRoom.stripped ⟨roomRow, hroomRow, hroomKey⟩
  rcases hcases with ⟨hfalse, -⟩ | ⟨-, hnew⟩
  · cases hfalse
  obtain ⟨hid, hwatched⟩ := hnew.watched hstrip
  obtain ⟨hrowRoom, hrowAuthor, hrowCreated⟩ :=
    (hwatched.run hrun₂ fun _ _ hcond => hcond.2.1) row hrow hrowId
  have hcandidate : unreadCandidate args.roomId subject row := by
    refine ⟨hrowRoom, hlive, ?_⟩
    rw [hrowAuthor]
    exact .inr hauthor
  have hafter : afterCursor cursor row := by
    -- the clock has not gone back since the cursor was stored
    have hle : cursor.messageCreatedAt ≤ rd'.now 1 :=
      (hreach₂.dated.cursors cursor hmem).trans (hcreate.forward 1)
    rw [← hrowCreated] at hle
    rcases lt_or_eq_of_le hle with hlt | heq
    · exact .inl hlt
    · refine .inr ⟨heq.symm, ?_⟩
      rw [hrowId, hid]
      exact hties args rfl cursor hmem hcursorRoom (by rw [hcursorSubject]; exact hauthor)
        (heq.trans hrowCreated)
  rw [← hrowId]
  exact countedUnread_of_accepted (hcursor₄.trans hcursor) hrow hcandidate hafter

/-! ## Two messages at one reading of the clock -/

/-- A room with one message. -/
def oneMessage : Timed :=
  (Timed.next smallConfig { clock := 0 } (.fixed 1 0,
      .createRoom { name := "General", id := some ⟨"general", matchesRoomId_general⟩ } "admin")).next
    smallConfig (.fixed 2 20, .createMessage
      { roomId := "general", sender := "ada", content := "first" })

/-- The reader has read to the end. -/
def readToEnd : Timed := oneMessage.next smallConfig (.fixed 2 30, .markRead "general" "bob" none)

/-- What the read call returns. -/
def readToEndReply : ReadStateMutation :=
  { state :=
      { roomId := "general", subject := "bob", lastReadMessageId := some (UuidHex.ofNat 20).text,
        lastReadAt := some 2, unreadCount := 0 }
    receipt :=
      { subject := "bob", lastReadMessageId := some (UuidHex.ofNat 20).text,
        lastReadMessageAt := some 2, lastReadAt := some 2 }
    changed := true }

/-- A second message at the same reading, with the `n`-th id. -/
def secondMessage : CreateMessage := { roomId := "general", sender := "ada", content := "second" }

def afterSecond (n : Nat) : Timed :=
  readToEnd.next smallConfig (.fixed 2 n, .createMessage secondMessage)

/-- The row of the second message. -/
def secondRow (n : Nat) : MessageRow :=
  { id := (UuidHex.ofNat n).text, roomId := "general", sender := "ada", content := "second",
    createdAt := 2 }

/-- The second message as its create call returns it. -/
def secondReply (n : Nat) : Message :=
  { id := (UuidHex.ofNat n).text, roomId := "general", sender := "ada", content := "second",
    createdAt := 2 }

theorem oneMessage_reachable : TimedReachable smallConfig oneMessage := by
  apply Reachable.next _ _ (TimedStep.fixed (by decide))
  apply Reachable.next _ _ (TimedStep.fixed (by decide))
  exact Reachable.start rfl

theorem readToEnd_reply :
    exec smallConfig (.fixed 2 30) (.markRead "general" "bob" none) oneMessage.db =
      (.ok (.readState readToEndReply), readToEnd.db) :=
  Prod.ext (by decide +kernel) rfl

/-- The second message is counted when its id is beyond the first one's. -/
theorem later_message_counted_nextId :
    CountedUnread "general" "bob" (secondReply 40).id (afterSecond 40).db := by
  have hties : AfterTies readToEnd (.fixed 2 40, .createMessage secondMessage) := by
    intro args hargs
    cases hargs
    decide +kernel
  exact later_message_counted smallConfig oneMessage readToEnd readToEnd (afterSecond 40)
    (afterSecond 40) (.fixed 2 30) (.fixed 2 40) "general" "bob" none readToEndReply secondMessage
    (secondReply 40) (secondRow 40) oneMessage_reachable (TimedStep.fixed (by decide))
    readToEnd_reply Run.refl hties rfl (TimedStep.fixed (by decide))
    (Prod.ext (by decide +kernel) rfl) rfl (by decide) Run.refl (by decide +kernel)
    (Table.mem_rows.mp (by decide +kernel)) rfl rfl

/-- The second message is not counted when its id is less than the first one's. -/
theorem later_message_not_counted : ¬ LaterMessagesCounted smallConfig fun _ _ => True := by
  intro h
  have hcounted := h oneMessage readToEnd readToEnd (afterSecond 10)
    (afterSecond 10) (.fixed 2 30) (.fixed 2 10) "general" "bob" none readToEndReply secondMessage
    (secondReply 10) (secondRow 10) oneMessage_reachable (TimedStep.fixed (by decide))
    readToEnd_reply Run.refl trivial rfl (TimedStep.fixed (by decide))
    (Prod.ext (by decide +kernel) rfl) rfl (by decide) Run.refl (by decide +kernel)
    (Table.mem_rows.mp (by decide +kernel)) rfl rfl
  revert hcounted
  unfold CountedUnread
  decide +kernel

end Unread

end Store
end ChatEngine
