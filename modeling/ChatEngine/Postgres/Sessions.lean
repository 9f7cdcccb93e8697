import ChatEngine.Lib.Overlay
import ChatEngine.Postgres.Effects

/-!
# Concurrent transactions of the PostgreSQL store

Any number of transactions at `READ COMMITTED`, each somewhere in its stages.

* `Lock` and `Stage.locks`, the locks a stage takes before its statements;
* `Session`, a running transaction: what it changed, and the locks it holds;
* `Session.view`, the database a transaction sees, its own changes laid over
  what is committed;
* `State.next` and `SessionStep`: a transaction starts, goes through its next
  stage, commits or is rolled back, in any order with the others.

A stage waits until the rows it locks or changes are free.  Shared locks and the
advisory locks of rooms, audit trail and outbox are left out: they only keep
transactions apart that may run side by side here.
-/

namespace ChatEngine
namespace Postgres

open Lib
open Models
open Store

/-! ## Rows and locks -/

/-- A row of one of the tables.  The lease of a delivery belongs to its outbox row. -/
inductive RowKey where
  | room (id : String)
  | message (id : String)
  | reaction (key : String × String × String)
  | audit (id : String)
  | memberControl (key : String × String)
  | readState (key : String × String)
  | webhook (id : String)
  | event (sequence : Nat)
  deriving DecidableEq

/-- What a transaction may hold to its end. -/
inductive Lock where
  | row (key : RowKey)
  | messageCapacity
  | eventSequence
  deriving DecidableEq

/-- The room row a call locks `FOR UPDATE`. -/
def PgCommand.roomLocks : PgCommand → List Lock
  | setRoomState roomId _ _ _ | deleteRoom roomId _ => [.row (.room roomId)]
  | setMemberModeration roomId _ _ _ => [.row (.room roomId)]
  | markRead roomId _ _ | clearReadState roomId _ => [.row (.room roomId)]
  | createMessage args => [.row (.room args.roomId)]
  | updateMessage args => [.row (.room args.roomId)]
  | deleteMessage args => [.row (.room args.roomId)]
  | setMessageReaction args => [.row (.room args.roomId)]
  | setMessagePin args => [.row (.room args.roomId)]
  | _ => []

/-- The locks a stage takes before its statements. -/
def Stage.locks : Stage → List Lock
  | begin cmd => cmd.roomLocks
  | inRoom (.setMessageReaction args) => [.row (.message args.messageId)]
  | inRoom (.setMessagePin args) => [.row (.message args.messageId)]
  | inRoom _ => []
  | capped (.updateMessage args) => [.messageCapacity, .row (.message args.messageId)]
  | capped (.deleteMessage args) => [.messageCapacity, .row (.message args.messageId)]
  | capped _ => [.messageCapacity]
  | announce [] _ => []
  | announce (_ :: _) _ => [.eventSequence]
  | commit _ => []

/-! ## What a transaction sees -/

/-- The committed database with a transaction's own rows laid over it. -/
def PgDatabase.overlay (db own : PgDatabase) (touched : List RowKey) : PgDatabase where
  rooms := db.rooms.overlay own.rooms fun k => .room k ∈ touched
  messages := db.messages.overlay own.messages fun k => .message k ∈ touched
  reactions := db.reactions.overlay own.reactions fun k => .reaction k ∈ touched
  auditEvents := db.auditEvents.overlay own.auditEvents fun k => .audit k ∈ touched
  memberControls := db.memberControls.overlay own.memberControls fun k => .memberControl k ∈ touched
  readStates := db.readStates.overlay own.readStates fun k => .readState k ∈ touched
  webhooks := db.webhooks.overlay own.webhooks fun k => .webhook k ∈ touched
  events := db.events.overlay own.events fun k => .event k ∈ touched
  leases := db.leases.overlay own.leases fun k => .webhook k ∈ touched
  lastSequence := max db.lastSequence own.lastSequence

/-- The rows in which two databases differ. -/
def changedRows (old new : PgDatabase) : List RowKey :=
  (Table.changedKeys old.rooms new.rooms).map .room ++
  (Table.changedKeys old.messages new.messages).map .message ++
  (Table.changedKeys old.reactions new.reactions).map .reaction ++
  (Table.changedKeys old.auditEvents new.auditEvents).map .audit ++
  (Table.changedKeys old.memberControls new.memberControls).map .memberControl ++
  (Table.changedKeys old.readStates new.readStates).map .readState ++
  (Table.changedKeys old.webhooks new.webhooks).map .webhook ++
  (Table.changedKeys old.events new.events).map .event ++
  (Table.changedKeys old.leases new.leases).map .webhook

/-- A running transaction of a call.  `own` is what its last stage left, and
`touched` the rows in which that differs from what was committed. -/
structure Session where
  id : Nat
  call : PgCommand
  stage : Stage := .begin call
  own : PgDatabase := {}
  touched : List RowKey := []
  locked : List Lock := []

/-- The database as the transaction sees it. -/
def Session.view (ses : Session) (db : PgDatabase) : PgDatabase :=
  db.overlay ses.own ses.touched

/-- Everything the transaction holds. -/
def Session.locks (ses : Session) : List Lock :=
  ses.locked ++ ses.touched.map .row

/-- The transaction after a stage that left `own`. -/
def Session.advance (ses : Session) (db : PgDatabase) (stage : Stage) (own : PgDatabase) :
    Session where
  id := ses.id
  call := ses.call
  stage := stage
  own := own
  touched := changedRows (ses.view db) own ++ ses.touched
  locked := ses.stage.locks ++ ses.locked

/-! ## The system -/

/-- The committed database, the running transactions, and, as history, the
sequence and the message of every message event committed, and the messages that
commits have removed. -/
structure State where
  db : PgDatabase := {}
  sessions : Table Session Nat Session.id := ∅
  told : List (Nat × String) := []
  removed : List String := []

/-- What the system does next. -/
inductive Action where
  | start (id : Nat) (cmd : PgCommand)
  | advance (id : Nat) (rd : PgReadings)
  | commit (id : Nat)
  | rollback (id : Nat)

/-- No other transaction holds any of the locks. -/
def State.Free (s : State) (id : Nat) (locks : List Lock) : Prop :=
  ∀ other ∈ s.sessions.rows, other.id ≠ id → ∀ lock ∈ locks, lock ∉ other.locks

instance (s : State) (id : Nat) : DecidablePred (s.Free id) := by
  intro locks
  unfold State.Free
  infer_instance

/-- The message events of `db'` that `db` did not have yet. -/
def newlyTold (db db' : PgDatabase) : List (Nat × String) :=
  db'.events.rows.filterMap fun e =>
    if db.lastSequence < e.sequence then e.body.message?.map fun m => (e.sequence, m.id) else none

/-- The messages of `db` that `db'` has no more. -/
def newlyRemoved (db db' : PgDatabase) : List String :=
  (db.messages.rows.filter fun r => db'.messages.find? r.id = none).map MessageRow.id

/-- The transaction is over without effect. -/
def State.drop (s : State) (id : Nat) : State :=
  { s with sessions := s.sessions.deleteWhere fun ses => ses.id = id }

/-- The transaction's changes become the committed database. -/
def State.publish (s : State) (ses : Session) : State where
  db := ses.view s.db
  sessions := s.sessions.deleteWhere fun other => other.id = ses.id
  told := newlyTold s.db (ses.view s.db) ++ s.told
  removed := newlyRemoved s.db (ses.view s.db) ++ s.removed

/-- A transaction goes through its next stage, waits for a lock, or fails. -/
def State.advance (cfg : PgConfig) (rd : PgReadings) (s : State) (ses : Session) : Option State :=
  match ses.stage.body cfg rd (ses.view s.db) with
  | (.ok stage, own) =>
      if s.Free ses.id (ses.advance s.db stage own).locks then
        some { s with sessions := s.sessions.upsert (ses.advance s.db stage own) }
      else
        none
  | (.error _, _) => some (s.drop ses.id)

/-- The state after an action, where the action is possible. -/
def State.next (cfg : PgConfig) (s : State) : Action → Option State
  | .start id cmd =>
      (s.sessions.insert? { id := id, call := cmd }).map fun sessions =>
        { s with sessions := sessions }
  | .advance id rd => (s.sessions.find? id).bind (s.advance cfg rd)
  | .commit id =>
      (s.sessions.find? id).bind fun ses =>
        match ses.stage with
        | .commit _ => some (s.publish ses)
        | _ => none
  | .rollback id => some (s.drop id)

/-- One step of the system. -/
def SessionStep (cfg : PgConfig) (s : State) (action : Action) (s' : State) : Prop :=
  s.next cfg action = some s'

/-- The states that concurrent transactions reach from the empty database. -/
def SessionReachable (cfg : PgConfig) : State → Prop :=
  Reachable (fun s => s = {}) (SessionStep cfg)

/-- What a step may be. -/
inductive Moves (cfg : PgConfig) (s : State) : Action → State → Prop
  | started (id : Nat) (cmd : PgCommand) (sessions : Table Session Nat Session.id) :
      s.sessions.insert? { id := id, call := cmd } = some sessions →
      Moves cfg s (.start id cmd) { s with sessions := sessions }
  | advanced (rd : PgReadings) (ses : Session) (stage : Stage) (own : PgDatabase) :
      ses ∈ s.sessions → Tx.Returns (ses.stage.body cfg rd) (ses.view s.db) stage own →
      s.Free ses.id (ses.advance s.db stage own).locks →
      Moves cfg s (.advance ses.id rd)
        { s with sessions := s.sessions.upsert (ses.advance s.db stage own) }
  | committed (ses : Session) (reply : PgReply) :
      ses ∈ s.sessions → ses.stage = .commit reply → Moves cfg s (.commit ses.id) (s.publish ses)
  | dropped (action : Action) (id : Nat) : Moves cfg s action (s.drop id)

theorem SessionStep.moves {cfg : PgConfig} {s s' : State} {action : Action}
    (h : SessionStep cfg s action s') : Moves cfg s action s' := by
  unfold SessionStep State.next at h
  cases action with
  | start id cmd =>
      obtain ⟨sessions, hins, rfl⟩ := Option.map_eq_some_iff.mp h
      exact .started id cmd sessions hins
  | advance id rd =>
      obtain ⟨ses, hfind, hadvance⟩ := Option.bind_eq_some_iff.mp h
      obtain ⟨hses, rfl⟩ := Table.find?_eq_some.mp hfind
      unfold State.advance at hadvance
      split at hadvance
      · rename_i stage own hrun
        split at hadvance
        · rename_i hfree
          cases hadvance
          exact .advanced rd ses stage own hses hrun hfree
        · cases hadvance
      · cases hadvance
        exact .dropped _ ses.id
  | commit id =>
      obtain ⟨ses, hfind, hcommit⟩ := Option.bind_eq_some_iff.mp h
      obtain ⟨hses, rfl⟩ := Table.find?_eq_some.mp hfind
      cases hstage : ses.stage with
      | commit reply =>
          rw [hstage] at hcommit
          cases hcommit
          exact .committed ses reply hses hstage
      | begin _ | inRoom _ | capped _ | announce _ _ =>
          rw [hstage] at hcommit
          cases hcommit
  | rollback id =>
      cases h
      exact .dropped _ id

/-- The state after a sequence of actions, skipping those that are not possible. -/
def State.run (cfg : PgConfig) (actions : List Action) (s : State) : State :=
  actions.foldl (fun s action => (s.next cfg action).getD s) s

/-- Running actions from the empty database only reaches reachable states. -/
theorem run_reachable (cfg : PgConfig) (actions : List Action) :
    SessionReachable cfg (State.run cfg actions {}) := by
  have hgeneral : ∀ s, SessionReachable cfg s → SessionReachable cfg (State.run cfg actions s) := by
    induction actions with
    | nil => exact fun s hs => hs
    | cons action rest ih =>
        intro s hs
        refine ih _ ?_
        change SessionReachable cfg ((s.next cfg action).getD s)
        cases hnext : s.next cfg action with
        | none => exact hs
        | some s' => exact hs.next action hnext
  exact hgeneral {} (Reachable.start rfl)

end Postgres
end ChatEngine
