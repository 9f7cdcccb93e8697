import Mathlib.Data.List.Dedup
import ChatEngine.Store.ReadCursors

/-!
# Read states of many rooms at once

* `queryReadStates`, the joined query: one row for each requested room, with its own expressions
  for the cursor, the unread messages, the newest message and the ban;
* `AgreesWithSingle`, what a summary has in common with `readState`;
* `TellsBans`: the bans that the query sees are those that run at its time, to the millisecond;
* `query_agrees`: an accepted query answers with agreeing summaries in the order of the rooms, or
  raises for the first room that is missing or bans the subject;
* `not_query_agrees_any`: the empty list of rooms is refused, and a ban that has just ended may
  still be seen.
-/

namespace ChatEngine
namespace Store

open Lib
open Models

/-! ## The query -/

/-- `READ_STATE_QUERY_MAX_ROOMS`. -/
def readStateQueryMaxRooms : Nat := 100

/-- `validate_read_state_query_room_ids`. -/
def validateReadStateQueryRoomIds (value : List String) : Except StoreError (List String) :=
  if ¬ (1 ≤ value.length ∧ value.length ≤ readStateQueryMaxRooms) then
    .error (.value "room_ids must contain between 1 and 100 items")
  else if value.any fun roomId => matchesRoomId roomId = false then
    .error (.value "room_ids must contain valid room IDs")
  else if value.length ≠ value.dedup.length then
    .error (.value "room_ids must not contain duplicates")
  else
    .ok value

/-- SQLite's `julianday` of a stored time, in milliseconds.  How a fraction of a second is rounded,
or cut off after its third digit, depends on the release: the value is right to the millisecond. -/
structure JulianDay where
  millis : Timestamp → Int
  accurate : ∀ t, t - 1_000 < 1_000 * millis t ∧ 1_000 * millis t < t + 1_000

theorem nearest_accurate (t : Int) :
    t - 1_000 < 1_000 * ((t + 500) / 1_000) ∧ 1_000 * ((t + 500) / 1_000) < t + 1_000 := by
  omega

/-- The nearest millisecond. -/
def JulianDay.nearest : JulianDay where
  millis t := (t + 500) / 1_000
  accurate := nearest_accurate

/-- The `julianday` of `'now'`, in milliseconds: the clock is read to the millisecond. -/
def julianNow (now : Timestamp) : Int := now / 1_000

/-- `COALESCE(julianday(banned_until) > julianday('now'), FALSE)`. -/
def bannedAt (julian : JulianDay) (now : Timestamp) (control : Option MemberControlRow) : Bool :=
  match control.bind (·.bannedUntil) with
  | none => false
  | some bannedUntil => decide (julianNow now < julian.millis bannedUntil)

/-- One row of the joined query. -/
structure ReadStateQueryRow where
  roomId : String
  roomExists : Bool
  messageId : Option String
  updatedAt : Option Timestamp
  unreadCount : Nat
  latestMessageId : Option String
  latestMessageAt : Option Timestamp
  banned : Bool
  deriving DecidableEq

/-- The messages that the correlated count takes, given the joined cursor. -/
def countedUnread (roomId subject : String) (cursor : Option ReadStateRow) (unread : MessageRow) :
    Prop :=
  unread.roomId = roomId ∧ unread.deletedAt = none ∧
    (unread.authorSubject = none ∨ unread.authorSubject ≠ some subject) ∧
    match cursor.map ReadStateRow.messageCreatedAt with
    | none => True
    | some createdAt => createdAt < unread.createdAt ∨
        (unread.createdAt = createdAt ∧ (cursor.bind (·.messageId)).getD "" < unread.id)

instance (roomId subject : String) (cursor : Option ReadStateRow) :
    DecidablePred (countedUnread roomId subject cursor) := by
  intro r
  unfold countedUnread
  cases cursor.map ReadStateRow.messageCreatedAt <;> infer_instance

/-- `ORDER BY latest.created_at DESC, latest.id DESC LIMIT 1` among the live messages. -/
def latestMessage (roomId : String) (db : Database) : Option MessageRow :=
  (firstBy (fun a b => messageOldestFirst b a) 1
    (db.messages.rows.filter fun r => r.roomId = roomId ∧ r.deletedAt = none)).head?

/-- The row of one requested room. -/
def readStateQueryRow (julian : JulianDay) (now : Timestamp) (subject : String) (db : Database)
    (roomId : String) : ReadStateQueryRow :=
  let readState := db.readStates.find? (roomId, subject)
  { roomId := roomId
    roomExists := (db.rooms.find? roomId).isSome
    messageId := readState.bind (·.messageId)
    updatedAt := readState.map (·.updatedAt)
    unreadCount := db.messages.countWhere (countedUnread roomId subject readState)
    latestMessageId := (latestMessage roomId db).map MessageRow.id
    latestMessageAt := (latestMessage roomId db).map MessageRow.createdAt
    banned := bannedAt julian now (db.memberControls.find? (roomId, subject)) }

/-- One room's cursor, unread count, and latest activity. -/
structure ReadStateSummary where
  roomId : String
  lastReadMessageId : Option String
  lastReadAt : Option Timestamp
  unreadCount : Nat
  latestMessageId : Option String
  latestMessageAt : Option Timestamp
  deriving DecidableEq

/-- The `ReadStateSummary` constructor. -/
def ReadStateSummary.build (raw : ReadStateSummary) : Except ValidationError ReadStateSummary :=
  if raw.latestMessageId.isNone ≠ raw.latestMessageAt.isNone then
    .error ⟨"", "latest_message_id and latest_message_at must both be set or both be null"⟩
  else
    .ok
      { raw with
        roomId := stripWhitespace raw.roomId
        lastReadMessageId := raw.lastReadMessageId.map stripWhitespace
        latestMessageId := raw.latestMessageId.map stripWhitespace }

/-- The constructor call for a row. -/
def ReadStateQueryRow.raw (row : ReadStateQueryRow) : ReadStateSummary :=
  { roomId := row.roomId
    lastReadMessageId := row.messageId
    lastReadAt := row.updatedAt
    unreadCount := row.unreadCount
    latestMessageId := row.latestMessageId
    latestMessageAt := row.latestMessageAt }

/-- The loop over the rows: the first missing or banning room stops it. -/
def summariesOf (subject : String) :
    List ReadStateQueryRow → Except StoreError (List ReadStateSummary)
  | [] => .ok []
  | row :: rest =>
      if row.roomExists = false then .error (.roomNotFound row.roomId)
      else if row.banned = true then .error (.memberBanned subject)
      else
        match row.raw.build with
        | .error e => .error (.validation e)
        | .ok summary =>
            match summariesOf subject rest with
            | .error e => .error e
            | .ok summaries => .ok (summary :: summaries)

/-- `query_read_states` with `_query_read_states_sync`; `now` is SQLite's reading of the clock for
the whole statement. -/
def queryReadStates (julian : JulianDay) (now : Timestamp) (roomIds : List String)
    (subject : String) (db : Database) : Except StoreError (List ReadStateSummary) :=
  match validateReadStateQueryRoomIds roomIds with
  | .error e => .error e
  | .ok roomIds => summariesOf subject (roomIds.map (readStateQueryRow julian now subject db))

/-! ## Agreement with the single read -/

/-- Which rooms ban a subject at a time. -/
abbrev Bans := Timestamp → String → Database → String → Prop

/-- The subject has a ban from the room that ends at this time. -/
def BanUntil (subject : String) (db : Database) (roomId : String) (bannedUntil : Timestamp) : Prop :=
  ∃ control ∈ db.memberControls, control.key = (roomId, subject) ∧
    control.bannedUntil = some bannedUntil

/-- The ban runs at the time. -/
def BannedFrom : Bans := fun now subject db roomId =>
  ∃ bannedUntil, BanUntil subject db roomId bannedUntil ∧ now < bannedUntil

/-- A ban counts that has a millisecond or more to run, and one that has been over for a millisecond
does not. -/
structure TellsBans (banned : Bans) : Prop where
  running : ∀ now subject db roomId bannedUntil, BanUntil subject db roomId bannedUntil →
    now + 1_000 ≤ bannedUntil → banned now subject db roomId
  recent : ∀ now subject db roomId, banned now subject db roomId →
    ∃ bannedUntil, BanUntil subject db roomId bannedUntil ∧ now < bannedUntil + 1_000

/-- The bans that the query sees. -/
def JulianDay.Banned (julian : JulianDay) : Bans := fun now subject db roomId =>
  ∃ bannedUntil, BanUntil subject db roomId bannedUntil ∧
    julianNow now < julian.millis bannedUntil

theorem julianNow_lt {now bannedUntil millis : Int} (h : now + 1_000 ≤ bannedUntil)
    (hmillis : bannedUntil - 1_000 < 1_000 * millis) : julianNow now < millis := by
  unfold julianNow
  omega

theorem lt_of_julianNow_lt {now bannedUntil millis : Int} (h : julianNow now < millis)
    (hmillis : 1_000 * millis < bannedUntil + 1_000) : now < bannedUntil + 1_000 := by
  unfold julianNow at h
  omega

theorem JulianDay.tellsBans (julian : JulianDay) : TellsBans julian.Banned := by
  constructor
  · intro now subject db roomId bannedUntil hban hrunning
    exact ⟨bannedUntil, hban, julianNow_lt hrunning (julian.accurate bannedUntil).1⟩
  · rintro now subject db roomId ⟨bannedUntil, hban, hseen⟩
    exact ⟨bannedUntil, hban, lt_of_julianNow_lt hseen (julian.accurate bannedUntil).2⟩

/-- The id and the date are those of the greatest live message of the room, if it has one. -/
def IsLatest (roomId : String) (db : Database) (id : Option String) (createdAt : Option Timestamp) :
    Prop :=
  (id = none ∧ createdAt = none ∧
    ∀ m ∈ db.messages, m.roomId = roomId → m.deletedAt ≠ none) ∨
  ∃ top ∈ db.messages, top.roomId = roomId ∧ top.deletedAt = none ∧
    id = some (stripWhitespace top.id) ∧ createdAt = some top.createdAt ∧
    ∀ m ∈ db.messages, m.roomId = roomId → m.deletedAt = none → m.place ≤ top.place

/-- A summary tells what the read state of its room tells, and the room's newest message. -/
structure AgreesWithSingle (subject : String) (db : Database) (roomId : String)
    (summary : ReadStateSummary) : Prop where
  room : summary.roomId = (readState roomId subject db).roomId
  message : summary.lastReadMessageId = (readState roomId subject db).lastReadMessageId
  readAt : summary.lastReadAt = (readState roomId subject db).lastReadAt
  unread : summary.unreadCount = (readState roomId subject db).unreadCount
  latest : IsLatest roomId db summary.latestMessageId summary.latestMessageAt

/-- The room exists and does not ban the subject. -/
def Readable (banned : Bans) (now : Timestamp) (subject : String) (db : Database)
    (roomId : String) : Prop :=
  HasRoom db roomId ∧ ¬ banned now subject db roomId

/-- What a query of distinct room ids does, for the lists of rooms that are `accepted`. -/
structure QueryAgrees (julian : JulianDay) (banned : Bans) (accepted : List String → Prop) :
    Prop where
  answers : ∀ now subject db roomIds, accepted roomIds → roomIds.Nodup →
    (∀ roomId ∈ roomIds, matchesRoomId roomId = true) →
    (∀ roomId ∈ roomIds, Readable banned now subject db roomId) →
    ∃ summaries, queryReadStates julian now roomIds subject db = .ok summaries ∧
      List.Forall₂ (AgreesWithSingle subject db) roomIds summaries
  missing : ∀ now subject db before roomId after, accepted (before ++ roomId :: after) →
    (before ++ roomId :: after).Nodup →
    (∀ id ∈ before ++ roomId :: after, matchesRoomId id = true) →
    (∀ id ∈ before, Readable banned now subject db id) → ¬ HasRoom db roomId →
    queryReadStates julian now (before ++ roomId :: after) subject db =
      .error (.roomNotFound roomId)
  banned : ∀ now subject db before roomId after, accepted (before ++ roomId :: after) →
    (before ++ roomId :: after).Nodup →
    (∀ id ∈ before ++ roomId :: after, matchesRoomId id = true) →
    (∀ id ∈ before, Readable banned now subject db id) → HasRoom db roomId →
    banned now subject db roomId →
    queryReadStates julian now (before ++ roomId :: after) subject db =
      .error (.memberBanned subject)

section Query

variable {julian : JulianDay} {now : Timestamp} {subject roomId : String} {db : Database}
  {roomIds : List String}

theorem validate_accepts (hlength : 1 ≤ roomIds.length ∧ roomIds.length ≤ readStateQueryMaxRooms)
    (hids : ∀ roomId ∈ roomIds, matchesRoomId roomId = true) (hdistinct : roomIds.Nodup) :
    validateReadStateQueryRoomIds roomIds = .ok roomIds := by
  unfold validateReadStateQueryRoomIds
  rw [if_neg (not_not.mpr hlength), if_neg, if_neg]
  · rw [List.dedup_eq_self.mpr hdistinct]
    exact not_not.mpr rfl
  · intro hany
    obtain ⟨roomId, hmem, hfalse⟩ := List.any_eq_true.mp hany
    have hmatch := hids roomId hmem
    simp [hmatch] at hfalse

theorem roomExists_iff :
    (readStateQueryRow julian now subject db roomId).roomExists = true ↔ HasRoom db roomId :=
  hasRoom_iff.symm

theorem banned_iff :
    (readStateQueryRow julian now subject db roomId).banned = true ↔
      julian.Banned now subject db roomId := by
  show bannedAt julian now (db.memberControls.find? (roomId, subject)) = true ↔ _
  unfold bannedAt JulianDay.Banned
  constructor
  · intro h
    cases hfind : db.memberControls.find? (roomId, subject) with
    | none => simp [hfind] at h
    | some control =>
        obtain ⟨hmem, hkey⟩ := Table.find?_eq_some.mp hfind
        rw [hfind] at h
        cases huntil : control.bannedUntil with
        | none => simp [huntil] at h
        | some bannedUntil =>
            simp only [Option.bind_some, huntil, decide_eq_true_eq] at h
            exact ⟨bannedUntil, ⟨control, hmem, hkey, huntil⟩, h⟩
  · rintro ⟨bannedUntil, ⟨control, hmem, hkey, huntil⟩, hlt⟩
    rw [Table.find?_eq_some.mpr ⟨hmem, hkey⟩]
    simp only [Option.bind_some, huntil]
    exact decide_eq_true hlt

theorem latestMessage_isLatest :
    IsLatest roomId db ((latestMessage roomId db).map fun top => stripWhitespace top.id)
      ((latestMessage roomId db).map MessageRow.createdAt) := by
  cases hlatest : latestMessage roomId db with
  | none =>
      refine .inl ⟨rfl, rfl, fun m hm hroom hlive => ?_⟩
      have hempty := head?_firstBy_one_none hlatest
      have hin : m ∈ db.messages.rows.filter fun r => r.roomId = roomId ∧ r.deletedAt = none :=
        List.mem_filter.mpr ⟨hm, decide_eq_true ⟨hroom, hlive⟩⟩
      rw [hempty] at hin
      cases hin
  | some top =>
      obtain ⟨hmem, htop⟩ := head?_firstBy_one hlatest
      rw [List.mem_filter, decide_eq_true_eq] at hmem
      refine .inr ⟨top, hmem.1, hmem.2.1, hmem.2.2, rfl, rfl, fun m hm hroom hlive => ?_⟩
      apply messageOldestFirst_iff.mp
      exact htop m (List.mem_filter.mpr ⟨hm, decide_eq_true ⟨hroom, hlive⟩⟩)

/-- The correlated count takes the messages that the single read counts. -/
theorem countedUnread_count :
    db.messages.countWhere
        (countedUnread roomId subject (db.readStates.find? (roomId, subject))) =
      (readState roomId subject db).unreadCount := by
  unfold readState Table.countWhere
  cases db.readStates.find? (roomId, subject) with
  | none =>
      show _ = (db.messages.rows.filter fun r => decide (unreadCandidate roomId subject r)).length
      congr 1
      apply List.filter_congr
      intro r _
      unfold countedUnread unreadCandidate
      simp only [Option.map_none, and_true]
  | some cursor =>
      show _ = (db.messages.rows.filter fun r =>
        decide (unreadCandidate roomId subject r ∧ afterCursor cursor r)).length
      congr 1
      apply List.filter_congr
      intro r _
      unfold countedUnread unreadCandidate afterCursor
      simp only [Option.map_some, Option.bind_some, and_assoc]

variable (julian now subject roomId db) in
/-- The single read, from the columns of the joined row. -/
theorem readState_eq_row :
    readState roomId subject db =
      { roomId := stripWhitespace roomId
        subject := stripWhitespace subject
        lastReadMessageId :=
          (readStateQueryRow julian now subject db roomId).messageId.map stripWhitespace
        lastReadAt := (readStateQueryRow julian now subject db roomId).updatedAt
        unreadCount := (readStateQueryRow julian now subject db roomId).unreadCount } := by
  have hcount : (readStateQueryRow julian now subject db roomId).unreadCount =
      (readState roomId subject db).unreadCount := countedUnread_count
  rw [hcount]
  unfold readState readStateQueryRow
  cases db.readStates.find? (roomId, subject) with
  | none => rfl
  | some cursor => rfl

/-- The constructor accepts every row, and the summary agrees with the single read. -/
theorem build_agrees :
    ∃ summary, (readStateQueryRow julian now subject db roomId).raw.build = .ok summary ∧
      AgreesWithSingle subject db roomId summary := by
  have hboth : (readStateQueryRow julian now subject db roomId).raw.latestMessageId.isNone =
      (readStateQueryRow julian now subject db roomId).raw.latestMessageAt.isNone := by
    show ((latestMessage roomId db).map MessageRow.id).isNone =
      ((latestMessage roomId db).map MessageRow.createdAt).isNone
    rw [Option.isNone_map, Option.isNone_map]
  have hlatest : IsLatest roomId db
      (((latestMessage roomId db).map MessageRow.id).map stripWhitespace)
      ((latestMessage roomId db).map MessageRow.createdAt) := by
    rw [Option.map_map]
    exact latestMessage_isLatest
  unfold ReadStateSummary.build
  rw [if_neg (not_not.mpr hboth)]
  refine ⟨_, rfl, ?_⟩
  have hread := readState_eq_row julian now subject roomId db
  constructor
  · rw [hread]
    rfl
  · rw [hread]
    rfl
  · rw [hread]
    rfl
  · rw [hread]
    rfl
  · exact hlatest

/-! ## The loop over the rows -/

/-- A room that can be read contributes its summary. -/
theorem summariesOf_cons {rest : List ReadStateQueryRow} {summary : ReadStateSummary}
    (h : Readable julian.Banned now subject db roomId)
    (hbuild : (readStateQueryRow julian now subject db roomId).raw.build = .ok summary) :
    summariesOf subject (readStateQueryRow julian now subject db roomId :: rest) =
      match summariesOf subject rest with
      | .error e => .error e
      | .ok summaries => .ok (summary :: summaries) := by
  have hexists : ¬ (readStateQueryRow julian now subject db roomId).roomExists = false := by
    rw [Bool.not_eq_false, roomExists_iff]
    exact h.1
  have hbanned : ¬ (readStateQueryRow julian now subject db roomId).banned = true := by
    rw [banned_iff]
    exact h.2
  conv_lhs => unfold summariesOf
  rw [if_neg hexists, if_neg hbanned, hbuild]

/-- Rooms that can be read are summarized one after the other. -/
theorem summariesOf_readable (rest : List ReadStateQueryRow)
    (h : ∀ roomId ∈ roomIds, Readable julian.Banned now subject db roomId) :
    ∃ summaries, List.Forall₂ (AgreesWithSingle subject db) roomIds summaries ∧
      summariesOf subject (roomIds.map (readStateQueryRow julian now subject db) ++ rest) =
        match summariesOf subject rest with
        | .error e => .error e
        | .ok others => .ok (summaries ++ others) := by
  induction roomIds with
  | nil =>
      refine ⟨[], List.Forall₂.nil, ?_⟩
      show summariesOf subject rest = _
      cases summariesOf subject rest <;> rfl
  | cons roomId others ih =>
      have hreadable := h roomId List.mem_cons_self
      obtain ⟨summaries, hagree, hrest⟩ := ih fun id hid => h id (List.mem_cons_of_mem roomId hid)
      obtain ⟨summary, hbuild, hsummary⟩ : ∃ summary,
          (readStateQueryRow julian now subject db roomId).raw.build = .ok summary ∧
            AgreesWithSingle subject db roomId summary := build_agrees
      refine ⟨summary :: summaries, List.Forall₂.cons hsummary hagree, ?_⟩
      rw [List.map_cons, List.cons_append, summariesOf_cons hreadable hbuild, hrest]
      cases summariesOf subject rest <;> rfl

/-- Lists of one to a hundred rooms are answered in agreement with the single read, whatever the
release makes of a fraction of a second: it only decides on bans that end within a millisecond. -/
theorem query_agrees (julian : JulianDay) :
    ∃ banned, TellsBans banned ∧ QueryAgrees julian banned fun roomIds =>
      1 ≤ roomIds.length ∧ roomIds.length ≤ readStateQueryMaxRooms := by
  refine ⟨julian.Banned, julian.tellsBans, ?_⟩
  constructor
  · intro now subject db roomIds hlength hdistinct hids hreadable
    obtain ⟨summaries, hagree, hloop⟩ := summariesOf_readable [] hreadable
    refine ⟨summaries, ?_, hagree⟩
    unfold queryReadStates
    rw [validate_accepts hlength hids hdistinct]
    rw [List.append_nil] at hloop
    show summariesOf subject _ = _
    rw [hloop]
    show Except.ok (summaries ++ []) = _
    rw [List.append_nil]
  · intro now subject db before roomId after hlength hdistinct hids hreadable hmissing
    obtain ⟨summaries, -, hloop⟩ := summariesOf_readable
      ((roomId :: after).map (readStateQueryRow julian now subject db)) hreadable
    unfold queryReadStates
    rw [validate_accepts hlength hids hdistinct]
    show summariesOf subject _ = _
    have hstop : summariesOf subject
        ((roomId :: after).map (readStateQueryRow julian now subject db)) =
        .error (.roomNotFound roomId) := by
      rw [List.map_cons]
      unfold summariesOf
      rw [if_pos]
      · rfl
      · rw [← Bool.not_eq_true, roomExists_iff]
        exact hmissing
    rw [List.map_append, hloop, hstop]
  · intro now subject db before roomId after hlength hdistinct hids hreadable hroom hbanned
    obtain ⟨summaries, -, hloop⟩ := summariesOf_readable
      ((roomId :: after).map (readStateQueryRow julian now subject db)) hreadable
    unfold queryReadStates
    rw [validate_accepts hlength hids hdistinct]
    show summariesOf subject _ = _
    have hstop : summariesOf subject
        ((roomId :: after).map (readStateQueryRow julian now subject db)) =
        .error (.memberBanned subject) := by
      rw [List.map_cons]
      unfold summariesOf
      rw [if_neg, if_pos (banned_iff.mpr hbanned)]
      rw [Bool.not_eq_false, roomExists_iff]
      exact hroom
    rw [List.map_append, hloop, hstop]

/-- A room with a ban up to 1.6 milliseconds. -/
def shortBan : Database :=
  { rooms := Table.empty.upsert
      { id := ⟨"general", matchesRoomId_general⟩, name := "General", description := "",
        createdAt := 0 }
    memberControls := Table.empty.upsert
      { roomId := "general", subject := "alice", mutedUntil := none, bannedUntil := some 1_600,
        updatedAt := 0 } }

/-- The nearest millisecond is the second one, and the clock shows 1.7. -/
theorem shortBan_seen :
    queryReadStates .nearest 1_700 ["general"] "alice" shortBan = .error (.memberBanned "alice") := by
  decide +kernel

/-- No room at all is refused, and to the microsecond the query does not tell bans that run from
those that have ended. -/
theorem not_query_agrees_any :
    (¬ QueryAgrees .nearest BannedFrom fun _ => True) ∧
      ¬ QueryAgrees .nearest BannedFrom fun roomIds =>
        1 ≤ roomIds.length ∧ roomIds.length ≤ readStateQueryMaxRooms := by
  constructor
  · intro h
    obtain ⟨summaries, hquery, -⟩ :=
      h.answers 0 "alice" {} [] trivial List.nodup_nil nofun nofun
    cases hquery
  · intro h
    have hreadable : ∀ roomId ∈ ["general"], Readable BannedFrom 1_700 "alice" shortBan roomId := by
      intro roomId hmem
      obtain rfl := List.mem_singleton.mp hmem
      refine ⟨hasRoom_iff.mpr (by decide +kernel), ?_⟩
      rintro ⟨bannedUntil, ⟨control, hcontrol, -, huntil⟩, hruns⟩
      obtain rfl := List.mem_singleton.mp hcontrol
      obtain rfl := Option.some.inj huntil
      exact absurd hruns (by decide)
    obtain ⟨summaries, hquery, -⟩ := h.answers 1_700 "alice" shortBan ["general"]
      (by decide) (List.nodup_singleton _) (by decide) hreadable
    rw [shortBan_seen] at hquery
    cases hquery

end Query

end Store
end ChatEngine
