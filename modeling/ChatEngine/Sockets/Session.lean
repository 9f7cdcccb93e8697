import ChatEngine.Lib.LastWrite
import ChatEngine.Sockets.Manager
import ChatEngine.Store.Rooms

/-!
# Opening a session

The access checks of `run_socket_session`, which are the same before and after the
socket is registered, and what an administrator's commit says about them.

* `accessRefusal`, the decision on a room and a moderation that have been read;
* `SessionPhase`, where a session stands between its awaits;
* `Matter` and `Verdict`, what a commit rules; `Database.verdict`, what the tables
  say, and how `setRoomState` and `setMemberModeration` change it;
* `Informed`, what the reads of a session say about the commits before them.
-/

namespace ChatEngine
namespace Sockets

open Lib
open Models
open Store

/-! ## Access checks -/

/-- Who opens a session, and where. -/
structure Opening where
  roomId : String
  username : String
  subject : Option String
  isAdmin : Bool
  permissions : List String
  connectionId : String
  deriving DecidableEq

/-- What the session registers with. -/
def Opening.metadata (o : Opening) (socket : Socket) (afterSequence : Option Nat) :
    ConnectionMetadata where
  socket := socket
  roomId := o.roomId
  username := o.username
  subject := o.subject
  permissions := o.permissions
  connectionId := some o.connectionId
  broadcastReady := false
  afterSequence := afterSequence

/-- `get_room`. -/
def getRoom (db : Database) (roomId : String) : Option Room :=
  (db.rooms.find? roomId).map roomFromRow

/-- `_moderation_from_row`. -/
def moderationFromRow (row : MemberControlRow) : MemberModeration where
  roomId := stripWhitespace row.roomId
  subject := stripWhitespace row.subject
  mutedUntil := row.mutedUntil
  bannedUntil := row.bannedUntil
  updatedAt := row.updatedAt

/-- `get_member_moderation`. -/
def getMemberModeration (db : Database) (roomId subject : String) : Option MemberModeration :=
  (db.memberControls.find? (roomId, subject)).map moderationFromRow

/-- The moderation of the session's subject, if it has one. -/
def Opening.moderation (o : Opening) (db : Database) : Option MemberModeration :=
  (o.subject.filter fun s => s ≠ "").bind fun s => getMemberModeration db o.roomId s

/-- Why a session is turned away. -/
inductive Refusal where
  | roomNotFound
  | roomBanned
  | roomArchived
  deriving DecidableEq

/-- The subject is banned at `now`. -/
def Opening.Banned (o : Opening) (moderation : Option MemberModeration) (now : Timestamp) : Prop :=
  o.isAdmin = false ∧ ∃ m ∈ moderation, ∃ t ∈ m.bannedUntil, now < t

instance (o : Opening) (moderation : Option MemberModeration) :
    DecidablePred (o.Banned moderation) := by
  intro now
  unfold Opening.Banned
  infer_instance

/-- The check before registration and after it. -/
def accessRefusal (o : Opening) (room : Option Room) (moderation : Option MemberModeration)
    (now : Timestamp) : Option Refusal :=
  match room with
  | none => some .roomNotFound
  | some room =>
      if o.Banned moderation now then some .roomBanned
      else if room.archivedAt ≠ none then some .roomArchived
      else none

/-- Where a session stands; `α` is the state of its registration. -/
inductive SessionPhase (α : Type) where
  | checkRoom
  | checkMember (room : Room)
  | judge (room : Room) (moderation : Option MemberModeration)
  | admitting (state : α)
  | recheckRoom
  | recheckMember (room : Option Room)
  | rejudge (room : Option Room) (moderation : Option MemberModeration)
  | refuse (refusal : Refusal)
  | ready
  | ended
  deriving DecidableEq

/-- The manager may hold the socket of a session in this phase. -/
def SessionPhase.Admitted {α : Type} : SessionPhase α → Prop
  | checkRoom | checkMember _ | judge _ _ | admitting _ | ended => False
  | recheckRoom | recheckMember _ | rejudge _ _ | refuse _ | ready => True

/-- The session has finished its check after registration. -/
def SessionPhase.Finished {α : Type} : SessionPhase α → Prop
  | ready | ended => True
  | _ => False

instance {α : Type} : DecidablePred (SessionPhase.Finished (α := α)) := by
  intro phase
  cases phase <;> unfold SessionPhase.Finished <;> infer_instance

/-! ## Rulings -/

/-- What an administrator's commit is about. -/
inductive Matter where
  | room (roomId : String)
  | member (roomId subject : String)
  deriving DecidableEq

/-- What it says. -/
inductive Verdict where
  | archived (value : Bool)
  | banned (deadline : Option Timestamp)
  deriving DecidableEq

/-- The verdict keeps sessions out at `now`. -/
def Verdict.Bars (v : Verdict) (now : Timestamp) : Prop :=
  match v with
  | archived value => value = true
  | banned deadline => ∃ t ∈ deadline, now < t

instance (v : Verdict) : DecidablePred v.Bars := by
  intro now
  cases v <;> unfold Verdict.Bars <;> infer_instance

/-- The matter is about the session. -/
def Matter.Covers (k : Matter) (o : Opening) : Prop :=
  match k with
  | room roomId => o.roomId = roomId
  | member roomId subject => o.roomId = roomId ∧ o.subject = some subject ∧ o.isAdmin = false

instance (k : Matter) : DecidablePred k.Covers := by
  intro o
  cases k <;> unfold Matter.Covers <;> infer_instance

/-- No route takes an empty subject. -/
def Matter.Named : Matter → Prop
  | room _ => True
  | member _ subject => subject ≠ ""

/-- What an administrator asks for. -/
inductive AdminRequest where
  | updateRoom (roomId : String) (archived frozen : Option Bool) (actor : String)
  | updateMember (roomId subject : String) (payload : MemberModerationUpdate) (actor : String)
  deriving DecidableEq

/-- The routes take a subject of 1 to 64 characters without surrounding white space. -/
def AdminRequest.Accepted : AdminRequest → Prop
  | updateRoom _ _ _ _ => True
  | updateMember _ subject _ _ =>
      (1 ≤ subject.length ∧ subject.length ≤ 64) ∧ pyStrip subject = subject

instance : DecidablePred AdminRequest.Accepted := by
  intro request
  cases request <;> unfold AdminRequest.Accepted <;> infer_instance

/-- What the request is about. -/
def AdminRequest.matter : AdminRequest → Matter
  | updateRoom roomId _ _ _ => .room roomId
  | updateMember roomId subject _ _ => .member roomId subject

theorem AdminRequest.Accepted.named {request : AdminRequest} (h : request.Accepted) :
    request.matter.Named := by
  cases request with
  | updateRoom _ _ _ _ => trivial
  | updateMember _ subject _ _ =>
      rintro rfl
      exact absurd h.1.1 (by decide)

/-- What a room that has been read says. -/
def roomVerdict (room : Option Room) : Option Verdict :=
  room.map fun r => .archived r.archivedAt.isSome

/-- What a moderation that has been read says. -/
def memberVerdict (moderation : Option MemberModeration) : Verdict :=
  .banned (moderation.bind MemberModeration.bannedUntil)

/-- What the tables say of a matter. -/
def verdictOf (db : Database) : Matter → Option Verdict
  | .room roomId => roomVerdict (getRoom db roomId)
  | .member roomId subject => some (memberVerdict (getMemberModeration db roomId subject))

/-- The rulings of `setRoomState`. -/
def roomRulings (roomId : String) (archived : Option Bool) (changes : RoomChanges) :
    List (Matter × Verdict) :=
  if changes.archived = true then [(.room roomId, .archived (decide (archived = some true)))]
  else []

/-- The ruling of `setMemberModeration`. -/
def memberRulings (roomId subject : String) (moderation : MemberModeration) :
    List (Matter × Verdict) :=
  [(.member roomId subject, .banned moderation.bannedUntil)]

/-- The tables hold the last ruling on every matter. -/
def Agrees (db : Database) (rulings : List (Matter × Verdict)) : Prop :=
  ∀ k v, lastWrite rulings k = some v → verdictOf db k = some v

section Rulings

variable {cfg : Config} {rd : Readings} {db db' : Database} {roomId subject actor : String}
  {rulings more : List (Matter × Verdict)} {k : Matter} {v : Verdict} {now now' : Timestamp}

theorem Verdict.Bars.before (h : v.Bars now') (hle : now ≤ now') : v.Bars now := by
  cases v with
  | archived value => exact h
  | banned deadline =>
      obtain ⟨t, ht, hlt⟩ := h
      exact ⟨t, ht, lt_of_le_of_lt hle hlt⟩

theorem roomFromRow_archivedAt (row : RoomRow) : (roomFromRow row).archivedAt = row.archivedAt :=
  rfl

/-- What one flag of `setRoomState` leaves in the room table. -/
theorem setRoomFlag_find? {auditId : UuidHex} {stampedAt auditAt : Timestamp}
    {requested : Option Bool} {stored : Option Timestamp}
    {set : Option Timestamp → RoomRow → RoomRow} {hkey : ∀ t r, (set t r).key = r.key}
    {on off : AuditAction} {changed : Bool}
    (h : Tx.Returns (setRoomFlag cfg auditId stampedAt auditAt roomId actor requested stored set
      hkey on off) db changed db') (other : String) :
    db'.rooms.find? other = (db.rooms.find? other).map fun r =>
      if changed = true ∧ r.key = roomId then
        set (if requested = some true then some stampedAt else none) r
      else r := by
  unfold setRoomFlag at h
  cases requested with
  | none =>
      obtain ⟨rfl, rfl⟩ := Tx.returns_pure.mp h
      simp
  | some wanted =>
      simp only [Tx.returns_ite, Tx.returns_bind, Tx.returns_write, Tx.returns_pure] at h
      rcases h with ⟨-, rfl, rfl⟩ | ⟨-, _, _, rfl, _, _, haudit, rfl, rfl⟩
      · simp
      · rw [(insertAudit_same haudit).rooms]
        unfold Database.setRoom
        rw [Table.find?_updateWhere]
        simp

/-- `setRoomState` decides the archive flag of its room where it changes it, and of no
other room. -/
theorem roomVerdict_setRoomState {archived frozen : Option Bool} {room : Room}
    {changes : RoomChanges}
    (hset : Tx.Returns (setRoomState cfg rd roomId archived frozen actor) db (room, changes) db')
    (other : String) :
    roomVerdict (getRoom db' other) =
      if other = roomId ∧ changes.archived = true then
        some (.archived (decide (archived = some true)))
      else roomVerdict (getRoom db other) := by
  unfold setRoomState at hset
  simp only [Tx.returns_bind, Tx.returns_read, Tx.returns_orRaise, Tx.returns_pure] at hset
  obtain ⟨_, u, ⟨rfl, hu⟩, row, u', ⟨hrow, hu'⟩, archivedChanged, t, harchived, frozenChanged, _,
    hfrozen, _, _, ⟨rfl, rfl⟩, _, _, ⟨-, rfl⟩, hreply, rfl⟩ := hset
  obtain rfl := hu'.symm
  obtain rfl := hu.symm
  cases hreply
  unfold roomVerdict getRoom
  rw [setRoomFlag_find? hfrozen, setRoomFlag_find? harchived]
  cases hfind : db.rooms.find? other with
  | none =>
      have hother : other ≠ roomId := by
        rintro rfl
        rw [hrow] at hfind
        cases hfind
      simp [hother]
  | some r =>
      have hkey : r.key = other := (Table.find?_eq_some.mp hfind).2
      subst hkey
      -- the freeze flag is written after the archive flag, and leaves it alone
      have hkept : ∀ x : RoomRow, (if frozenChanged = true ∧ x.key = roomId then
          RoomRow.setFrozen (if frozen = some true then some (rd.now 2) else none) x
        else x).archivedAt = x.archivedAt := by
        intro x
        split <;> rfl
      simp only [Option.map_some, roomFromRow_archivedAt, hkept]
      by_cases hchanged : r.key = roomId ∧ archivedChanged = true
      · rw [if_pos hchanged, if_pos hchanged.symm]
        by_cases hwanted : archived = some true
        · simp [hwanted, RoomRow.setArchived]
        · simp [hwanted, RoomRow.setArchived]
      · rw [if_neg hchanged, if_neg fun hboth => hchanged hboth.symm]

theorem Agrees.setRoomState {archived frozen : Option Bool} {room : Room} {changes : RoomChanges}
    (h : Agrees db rulings)
    (hset : Tx.Returns (setRoomState cfg rd roomId archived frozen actor) db (room, changes) db') :
    Agrees db' (rulings ++ roomRulings roomId archived changes) := by
  intro k v hlast
  unfold roomRulings at hlast
  cases k with
  | room other =>
      change roomVerdict (getRoom db' other) = some v
      rw [roomVerdict_setRoomState hset]
      by_cases hchanged : changes.archived = true
      · rw [if_pos hchanged] at hlast
        by_cases hother : other = roomId
        · subst hother
          rw [lastWrite_append_single] at hlast
          rw [if_pos ⟨rfl, hchanged⟩]
          exact hlast
        · rw [if_neg fun hboth => hother hboth.1]
          refine h _ _ ((lastWrite_append_of_forall_ne ?_).symm.trans hlast)
          intro w hw heq
          rw [List.mem_singleton.mp hw] at heq
          cases heq
          exact hother rfl
      · rw [if_neg hchanged, List.append_nil] at hlast
        rw [if_neg fun hboth => hchanged hboth.2]
        exact h _ _ hlast
  | member other subject =>
      have hsame : verdictOf db' (.member other subject) = verdictOf db (.member other subject) := by
        unfold verdictOf getMemberModeration
        rw [(setRoomState_ok hset).memberControls]
      rw [hsame]
      refine h _ _ ((lastWrite_append_of_forall_ne ?_).symm.trans hlast)
      intro w hw heq
      split at hw
      · rw [List.mem_singleton.mp hw] at heq
        cases heq
      · cases hw

theorem find?_setControl {row : MemberControlRow} (key : String × String) :
    ((db.setControl row).memberControls.find? key).bind MemberControlRow.bannedUntil =
      if key = row.key then row.bannedUntil
      else (db.memberControls.find? key).bind MemberControlRow.bannedUntil := by
  unfold Database.setControl
  dsimp only
  by_cases hkey : key = row.key
  · subst hkey
    rw [if_pos rfl]
    split
    · rename_i hempty
      have hnone : (db.memberControls.deleteWhere fun r => r.key = row.key).find? row.key =
          none := by
        rw [Table.find?_eq_none]
        intro r hr heq
        exact (Table.mem_deleteWhere.mp hr).2 heq
      rw [hnone, hempty.2]
      rfl
    · rw [Table.find?_upsert, if_pos rfl]
      rfl
  · rw [if_neg hkey]
    split
    · rw [Table.find?_deleteWhere]
      cases hfind : db.memberControls.find? key with
      | none => rfl
      | some found =>
          have hne : found.key ≠ row.key := by
            rw [(Table.find?_eq_some.mp hfind).2]
            exact hkey
          simp [Option.filter, hne]
    · rw [Table.find?_upsert, if_neg fun heq => hkey heq.symm]

theorem memberVerdict_getMemberModeration :
    memberVerdict (getMemberModeration db roomId subject) =
      .banned ((db.memberControls.find? (roomId, subject)).bind MemberControlRow.bannedUntil) := by
  unfold memberVerdict getMemberModeration
  cases db.memberControls.find? (roomId, subject) <;> rfl

theorem setMemberModeration_reply {payload : MemberModerationUpdate}
    {moderation : MemberModeration}
    (h : Tx.Returns (setMemberModeration cfg rd roomId subject payload actor) db moderation db') :
    moderation.subject = stripWhitespace subject ∧
      moderation.bannedUntil = (moderationRow roomId subject payload (rd.now 0)
        (db.memberControls.find? (roomId, subject))).bannedUntil := by
  unfold setMemberModeration at h
  simp only [Tx.returns_bind, Tx.returns_read, Tx.returns_orRaise, Tx.returns_write,
    Tx.returns_pure] at h
  obtain ⟨_, _, ⟨rfl, rfl⟩, _, _, ⟨-, rfl⟩, _, _, ⟨rfl, rfl⟩, _, _, -, _, _, -, _, _, -, hreply,
    -⟩ := h
  rw [hreply]
  exact ⟨rfl, rfl⟩

theorem Agrees.setMemberModeration {payload : MemberModerationUpdate} {moderation : MemberModeration}
    (h : Agrees db rulings)
    (hset : Tx.Returns (setMemberModeration cfg rd roomId subject payload actor) db moderation
      db') :
    Agrees db' (rulings ++ memberRulings roomId subject moderation) := by
  have hdeadline := (setMemberModeration_reply hset).2
  obtain ⟨-, row, hrow, hcommits⟩ := setMemberModeration_ok hset
  intro k v hlast
  unfold memberRulings at hlast
  cases k with
  | room other =>
      have hsame : verdictOf db' (.room other) = verdictOf db (.room other) := by
        unfold verdictOf getRoom
        rw [hcommits.rooms]
        rfl
      rw [hsame]
      refine h _ _ ((lastWrite_append_of_forall_ne ?_).symm.trans hlast)
      intro w hw heq
      rw [List.mem_singleton.mp hw] at heq
      cases heq
  | member other person =>
      change some (memberVerdict (getMemberModeration db' other person)) = some v
      rw [memberVerdict_getMemberModeration, hcommits.memberControls, find?_setControl]
      have hkey : row.key = (roomId, subject) := by
        rw [hrow]
        rfl
      rw [hkey]
      by_cases hsame : (other, person) = (roomId, subject)
      · cases hsame
        rw [lastWrite_append_single] at hlast
        rw [if_pos rfl, hrow, ← hdeadline]
        exact hlast
      · rw [if_neg hsame]
        have hold := h (.member other person) v
          ((lastWrite_append_of_forall_ne (by
            intro w hw heq
            rw [List.mem_singleton.mp hw] at heq
            cases heq
            exact hsame rfl)).symm.trans hlast)
        rw [← hold]
        exact congrArg some memberVerdict_getMemberModeration.symm

end Rulings

/-! ## What a session has read -/

/-- A session, with how many rulings had been committed when it read the room, and
when it read the moderation, after its registration. -/
structure SocketSession (α : Type) where
  opening : Opening
  phase : SessionPhase α := .checkRoom
  checkedRoom : Nat := 0
  checkedMember : Nat := 0
  deriving DecidableEq

section Moves

variable {α : Type}

def SocketSession.moveTo (phase : SessionPhase α) (s : SocketSession α) : SocketSession α :=
  { s with phase := phase }

/-- The second read of the room, `n` rulings after the start. -/
def SocketSession.readRoom (n : Nat) (room : Option Room) (s : SocketSession α) :
    SocketSession α :=
  { s with phase := .recheckMember room, checkedRoom := n }

/-- The second read of the moderation. -/
def SocketSession.readMember (n : Nat) (room : Option Room)
    (moderation : Option MemberModeration) (s : SocketSession α) : SocketSession α :=
  { s with phase := .rejudge room moderation, checkedMember := n }

end Moves

/-- When the session read a matter. -/
def SocketSession.checked {α : Type} (s : SocketSession α) : Matter → Nat
  | .room _ => s.checkedRoom
  | .member _ _ => s.checkedMember

/-- The session has read the matter after its registration. -/
def SessionPhase.HasChecked {α : Type} (phase : SessionPhase α) (k : Matter) : Prop :=
  match phase, k with
  | recheckMember _, .room _ => True
  | rejudge _ _, _ | refuse _, _ | ready, _ => True
  | _, _ => False

/-- One await of the session, but its registration and its close: `n` rulings have been
committed, and `a` is the state a registration begins in. -/
def SocketSession.step {α : Type} (a : α) (db : Database) (now : Timestamp) (n : Nat)
    (s : SocketSession α) : Option (SocketSession α) :=
  match s.phase with
  | .checkRoom =>
      match getRoom db s.opening.roomId with
      | none => some (s.moveTo .ended)
      | some room => some (s.moveTo (.checkMember room))
  | .checkMember room => some (s.moveTo (.judge room (s.opening.moderation db)))
  | .judge room moderation =>
      match accessRefusal s.opening (some room) moderation now with
      | some _ => some (s.moveTo .ended)
      | none => some (s.moveTo (.admitting a))
  | .recheckRoom => some (s.readRoom n (getRoom db s.opening.roomId))
  | .recheckMember room => some (s.readMember n room (s.opening.moderation db))
  | .rejudge room moderation =>
      match accessRefusal s.opening room moderation now with
      | some refusal => some (s.moveTo (.refuse refusal))
      | none => some (s.moveTo .ready)
  | .admitting _ | .refuse _ | .ready | .ended => none

/-- What the reads of a session say about the rulings before them. -/
def Informed {α : Type} (rulings : List (Matter × Verdict)) (now : Timestamp)
    (s : SocketSession α) : Prop :=
  match s.phase with
  | .recheckMember room =>
      s.checkedRoom ≤ rulings.length ∧
        ∀ v, lastWrite (rulings.take s.checkedRoom) (.room s.opening.roomId) = some v →
          roomVerdict room = some v
  | .rejudge room moderation =>
      (s.checkedRoom ≤ rulings.length ∧
        ∀ v, lastWrite (rulings.take s.checkedRoom) (.room s.opening.roomId) = some v →
          roomVerdict room = some v) ∧
      s.checkedMember ≤ rulings.length ∧
        ∀ subject, s.opening.subject = some subject → subject ≠ "" →
          ∀ v, lastWrite (rulings.take s.checkedMember)
            (.member s.opening.roomId subject) = some v → memberVerdict moderation = v
  | .ready =>
      (s.checkedRoom ≤ rulings.length ∧ s.checkedMember ≤ rulings.length) ∧
        ∀ k, k.Covers s.opening → k.Named →
          ∀ v, lastWrite (rulings.take (s.checked k)) k = some v → ¬ v.Bars now
  | _ => True

section Informed

variable {α : Type} {rulings more : List (Matter × Verdict)} {now now' : Timestamp}
  {s : SocketSession α} {k : Matter} {v : Verdict} {db : Database}

/-- Later rulings do not change what was read. -/
theorem Informed.append (h : Informed rulings now s) : Informed (rulings ++ more) now s := by
  have hle : rulings.length ≤ (rulings ++ more).length := by
    rw [List.length_append]
    exact Nat.le_add_right _ _
  unfold Informed at h ⊢
  split
  · rename_i room hphase
    rw [hphase] at h
    refine ⟨h.1.trans hle, ?_⟩
    rw [List.take_append_of_le_length h.1]
    exact h.2
  · rename_i room moderation hphase
    rw [hphase] at h
    refine ⟨⟨h.1.1.trans hle, ?_⟩, h.2.1.trans hle, ?_⟩
    · rw [List.take_append_of_le_length h.1.1]
      exact h.1.2
    · rw [List.take_append_of_le_length h.2.1]
      exact h.2.2
  · rename_i hphase
    rw [hphase] at h
    refine ⟨⟨h.1.1.trans hle, h.1.2.trans hle⟩, ?_⟩
    intro k hcovers hnamed v hlast
    refine h.2 k hcovers hnamed v ?_
    rw [List.take_append_of_le_length] at hlast
    · exact hlast
    · cases k with
      | room _ => exact h.1.1
      | member _ _ => exact h.1.2
  · trivial

/-- What does not bar a session stays so. -/
theorem Informed.later (h : Informed rulings now s) (hle : now ≤ now') :
    Informed rulings now' s := by
  unfold Informed at h ⊢
  split
  · rename_i room hphase
    rw [hphase] at h
    exact h
  · rename_i room moderation hphase
    rw [hphase] at h
    exact h
  · rename_i hphase
    rw [hphase] at h
    exact ⟨h.1, fun k hcovers hnamed v hlast hbars =>
      h.2 k hcovers hnamed v hlast (hbars.before hle)⟩
  · trivial

/-- The read of the room. -/
theorem Informed.recheckRoom (hdb : Agrees db rulings) :
    Informed rulings now (s.readRoom rulings.length (getRoom db s.opening.roomId)) := by
  refine ⟨Nat.le_refl _, fun v hlast => hdb (.room s.opening.roomId) v ?_⟩
  rw [← hlast]
  exact congrArg (lastWrite · _) List.take_length.symm

/-- The read of the moderation. -/
theorem Informed.recheckMember {room : Option Room} (h : Informed rulings now s)
    (hphase : s.phase = .recheckMember room) (hdb : Agrees db rulings) :
    Informed rulings now (s.readMember rulings.length room (s.opening.moderation db)) := by
  unfold Informed at h
  rw [hphase] at h
  refine ⟨h, Nat.le_refl _, fun subject hsubject hnamed v hlast => ?_⟩
  have hopening : s.opening.subject = some subject := hsubject
  have hread : s.opening.moderation db = getMemberModeration db s.opening.roomId subject := by
    unfold Opening.moderation
    rw [hopening]
    simp [Option.filter, hnamed]
  have hwhole : lastWrite rulings (.member s.opening.roomId subject) = some v := by
    rw [← hlast]
    exact congrArg (lastWrite · _) List.take_length.symm
  rw [hread]
  exact Option.some.inj (hdb _ v hwhole)

/-- A session that is let in has read nothing that bars it. -/
theorem Informed.rejudge {room : Option Room} {moderation : Option MemberModeration}
    (h : Informed rulings now s) (hphase : s.phase = .rejudge room moderation)
    (hpass : accessRefusal s.opening room moderation now = none) :
    Informed rulings now (s.moveTo .ready) := by
  unfold Informed at h
  rw [hphase] at h
  obtain ⟨⟨hroomLe, hroom⟩, hmemberLe, hmember⟩ := h
  unfold accessRefusal at hpass
  cases room with
  | none => cases hpass
  | some room =>
      dsimp only at hpass
      split at hpass
      · cases hpass
      · rename_i hbanned
        split at hpass
        · cases hpass
        · rename_i hopen
          refine ⟨⟨hroomLe, hmemberLe⟩, fun k hcovers hnamed v hlast hbars => ?_⟩
          cases k with
          | room roomId =>
              obtain rfl : s.opening.roomId = roomId := hcovers
              cases hroom v hlast
              have harchived : room.archivedAt.isSome = true := hbars
              rw [not_not.mp hopen] at harchived
              cases harchived
          | member roomId subject =>
              obtain ⟨rfl, hsubject, hadmin⟩ := hcovers
              cases hmember subject hsubject hnamed v hlast
              obtain ⟨t, ht, hlt⟩ := hbars
              obtain ⟨m, hm, hdeadline⟩ := Option.bind_eq_some_iff.mp ht
              exact hbanned ⟨hadmin, m, hm, t, hdeadline, hlt⟩

/-- What an await leaves of a session. -/
structure Stepped (rulings : List (Matter × Verdict)) (now : Timestamp)
    (s s' : SocketSession α) : Prop where
  opening : s'.opening = s.opening
  admitted : s'.phase.Admitted ↔ s.phase.Admitted
  checked : ∀ k, s'.phase.HasChecked k →
    (s.phase.HasChecked k ∧ s'.checked k = s.checked k) ∨ s'.checked k = rulings.length
  informed : Informed rulings now s'

theorem SocketSession.step_ok {a : α} {s' : SocketSession α} (hdb : Agrees db rulings)
    (h : Informed rulings now s) (hstep : s.step a db now rulings.length = some s') :
    Stepped rulings now s s' := by
  obtain ⟨opening, phase, checkedRoom, checkedMember⟩ := s
  unfold SocketSession.step at hstep
  cases phase with
  | checkRoom =>
      dsimp only at hstep
      split at hstep <;> cases hstep <;> exact ⟨rfl, Iff.rfl, nofun, trivial⟩
  | checkMember room =>
      cases hstep
      exact ⟨rfl, Iff.rfl, nofun, trivial⟩
  | judge room moderation =>
      dsimp only at hstep
      split at hstep <;> cases hstep <;> exact ⟨rfl, Iff.rfl, nofun, trivial⟩
  | recheckRoom =>
      cases hstep
      refine ⟨rfl, Iff.rfl, ?_, .recheckRoom hdb⟩
      intro k hk
      cases k with
      | room _ => exact .inr rfl
      | member _ _ => cases hk
  | recheckMember room =>
      cases hstep
      refine ⟨rfl, Iff.rfl, ?_, h.recheckMember rfl hdb⟩
      intro k _
      cases k with
      | room _ => exact .inl ⟨trivial, rfl⟩
      | member _ _ => exact .inr rfl
  | rejudge room moderation =>
      dsimp only at hstep
      split at hstep
      · cases hstep
        exact ⟨rfl, Iff.rfl, fun k _ => .inl ⟨trivial, by cases k <;> rfl⟩, trivial⟩
      · rename_i hpass
        cases hstep
        exact ⟨rfl, Iff.rfl, fun k _ => .inl ⟨trivial, by cases k <;> rfl⟩, h.rejudge rfl hpass⟩
  | admitting _ | refuse _ | ready | ended => cases hstep

/-- A registration begins in the state that the session is given. -/
theorem SocketSession.step_admit {a b : α} {n : Nat} {s' : SocketSession α}
    (hstep : s.step a db now n = some s') (hphase : s'.phase = .admitting b) : b = a := by
  obtain ⟨opening, phase, checkedRoom, checkedMember⟩ := s
  unfold SocketSession.step at hstep
  cases phase with
  | checkRoom =>
      dsimp only at hstep
      split at hstep <;> cases hstep <;> cases hphase
  | judge room moderation =>
      dsimp only at hstep
      split at hstep <;> cases hstep <;> cases hphase
      rfl
  | rejudge room moderation =>
      dsimp only at hstep
      split at hstep <;> cases hstep <;> cases hphase
  | checkMember _ | recheckRoom | recheckMember _ =>
      cases hstep
      cases hphase
  | admitting _ | refuse _ | ready | ended => cases hstep

/-- Among the rulings on a matter that a session let in could have read, from any of
them on, there is one that does not bar it. -/
theorem Informed.standing {c : Nat} (h : Informed rulings now s) (hphase : s.phase = .ready)
    (hcovers : k.Covers s.opening) (hnamed : k.Named) (hc : rulings[c]? = some (k, v))
    (hlt : c < s.checked k) :
    ∃ c' v', c ≤ c' ∧ rulings[c']? = some (k, v') ∧ ¬ v'.Bars now := by
  unfold Informed at h
  rw [hphase] at h
  obtain ⟨c', v', hle, hc', hlast⟩ := lastWrite_take hc hlt
  exact ⟨c', v', hle, hc', h.2 k hcovers hnamed v' hlast⟩

end Informed

end Sockets
end ChatEngine
