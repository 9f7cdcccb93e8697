import ChatEngine.Lib.Run
import ChatEngine.Store.Webhooks

/-!
# The store as a transition system

Every write of the store as one command, executed as one transaction: the
application write lock and SQLite's own write lock serialize them, and the
connection context manager commits on success and rolls back on an error.

* `exec`, one call with its outcome and the database after it;
* `Step` and `StoreReachable`, the runs of the store from an empty database.
-/

namespace ChatEngine
namespace Store

open Lib
open Models

/-- The write operations of `ChatStore`. -/
inductive Command where
  | createRoom (payload : RoomCreate) (actor : String)
  | setRoomState (roomId : String) (archived frozen : Option Bool) (actor : String)
  | deleteRoom (roomId actor : String)
  | recordExportRequested (roomId actor : String)
  | createMessage (args : CreateMessage)
  | updateMessage (args : UpdateMessage)
  | deleteMessage (args : DeleteMessage)
  | setMessageReaction (args : SetMessageReaction)
  | setMessagePin (args : SetMessagePin)
  | setMemberModeration (roomId subject : String) (payload : MemberModerationUpdate)
      (actor : String)
  | markRead (roomId subject : String) (messageId : Option String)
  | clearReadState (roomId subject : String)
  | recordWebhookAttempt (deliveryId : String) (attempt : WebhookAttempt)
  | retryWebhookDelivery (deliveryId : String)
  | runRetention (actor : String)

/-- What the operations return. -/
inductive Reply where
  | room (room : Room)
  | roomState (room : Room) (changes : RoomChanges)
  | count (n : Nat)
  | unit
  | message (message : Message) (changed : Bool)
  | reaction (mutation : ReactionMutation)
  | pin (mutation : PinMutation)
  | moderation (moderation : MemberModeration)
  | readState (mutation : ReadStateMutation)
  | flag (b : Bool)
  | delivery (delivery : WebhookDelivery)
  | retention (deleted : Nat) (cutoff : Timestamp)
  deriving DecidableEq

/-- The transaction of a command. -/
def Command.tx (cfg : Config) (rd : Readings) : Command → StoreTx Reply
  | createRoom payload actor => Reply.room <$> Store.createRoom cfg rd payload actor
  | setRoomState roomId archived frozen actor =>
      (fun r => Reply.roomState r.1 r.2) <$>
        Store.setRoomState cfg rd roomId archived frozen actor
  | deleteRoom roomId actor => Reply.count <$> Store.deleteRoom cfg rd roomId actor
  | recordExportRequested roomId actor =>
      (fun _ => Reply.unit) <$> Store.recordExportRequested cfg rd roomId actor
  | createMessage args => (fun r => Reply.message r.1 r.2) <$> Store.createMessage cfg rd args
  | updateMessage args => (fun m => Reply.message m true) <$> Store.updateMessage cfg rd args
  | deleteMessage args => (fun r => Reply.message r.1 r.2) <$> Store.deleteMessage cfg rd args
  | setMessageReaction args => Reply.reaction <$> Store.setMessageReaction cfg rd args
  | setMessagePin args => Reply.pin <$> Store.setMessagePin cfg rd args
  | setMemberModeration roomId subject payload actor =>
      Reply.moderation <$> Store.setMemberModeration cfg rd roomId subject payload actor
  | markRead roomId subject messageId =>
      Reply.readState <$> Store.markRead cfg rd roomId subject messageId
  | clearReadState roomId subject => Reply.flag <$> Store.clearReadState roomId subject
  | recordWebhookAttempt deliveryId attempt =>
      (fun _ => Reply.unit) <$> Store.recordWebhookAttempt deliveryId attempt
  | retryWebhookDelivery deliveryId =>
      Reply.delivery <$> Store.retryWebhookDelivery rd deliveryId
  | runRetention actor =>
      (fun r => Reply.retention r.1 r.2) <$> Store.runRetention cfg rd actor

/-- One call of the store. -/
def exec (cfg : Config) (rd : Readings) (cmd : Command) (db : Database) :
    Except StoreError Reply × Database :=
  Tx.atomically (cmd.tx cfg rd) db

/-- One step of the store: a call with what it read from outside. -/
def Step (cfg : Config) (db : Database) (call : Readings × Command) (db' : Database) : Prop :=
  (exec cfg call.1 call.2 db).2 = db'

/-- The databases that the store's calls build from the empty one. -/
def StoreReachable (cfg : Config) : Database → Prop :=
  Reachable (fun db => db = {}) (Step cfg)

/-- The database after a sequence of calls. -/
def runCalls (cfg : Config) (calls : List (Readings × Command)) (db : Database) : Database :=
  calls.foldl (fun db call => (exec cfg call.1 call.2 db).2) db

/-- Running calls from the empty database only reaches reachable ones. -/
theorem runCalls_reachable (cfg : Config) (calls : List (Readings × Command)) :
    StoreReachable cfg (runCalls cfg calls {}) := by
  have hgeneral : ∀ db, StoreReachable cfg db → StoreReachable cfg (runCalls cfg calls db) := by
    induction calls with
    | nil => exact fun db hdb => hdb
    | cons call rest ih => exact fun db hdb => ih _ (hdb.next call rfl)
  exact hgeneral {} (Reachable.start rfl)

/-- The outbox event a call may emit. -/
def Command.event : Command → Option EventType
  | createMessage _ => some .messageCreated
  | updateMessage _ => some .messageUpdated
  | deleteMessage _ => some .messageDeleted
  | setMessageReaction _ => some .messageReactionUpdated
  | setMessagePin _ => some .messagePinUpdated
  | setMemberModeration _ _ _ _ => some .memberModerationUpdated
  | _ => none

/-- A call that raises leaves the database as it was. -/
theorem exec_error {cfg : Config} {rd : Readings} {cmd : Command} {db db' : Database}
    {e : StoreError} (h : exec cfg rd cmd db = (.error e, db')) : db' = db :=
  Tx.atomically_error h

theorem exec_ok {cfg : Config} {rd : Readings} {cmd : Command} {db db' : Database}
    {reply : Reply} :
    exec cfg rd cmd db = (.ok reply, db') ↔ Tx.Returns (cmd.tx cfg rd) db reply db' :=
  Tx.returns_atomically

/-- A step either changes nothing or is a successful call. -/
theorem Step.cases {cfg : Config} {db db' : Database} {call : Readings × Command}
    (h : Step cfg db call db') :
    db' = db ∨ ∃ reply, Tx.Returns (call.2.tx cfg call.1) db reply db' := by
  unfold Step exec at h
  rcases Tx.atomically_cases (call.2.tx cfg call.1) db with ⟨e, herror⟩ | ⟨reply, t, hok, hrun⟩
  · rw [herror] at h
    exact .inl h.symm
  · rw [hrun] at h
    have ht : t = db' := h
    rw [ht] at hok
    exact .inr ⟨reply, hok⟩

/-- The invariant rule for the store: an invariant of the empty database that
every successful call keeps holds in every reachable one. -/
theorem StoreReachable.invariant {cfg : Config} {db : Database} (h : StoreReachable cfg db)
    (Inv : Database → Prop) (hempty : Inv {})
    (hcall : ∀ db rd cmd reply db', Inv db →
      Tx.Returns (Command.tx cfg rd cmd) db reply db' → Inv db') : Inv db := by
  obtain ⟨start, rfl, hrun⟩ := h
  refine hrun.invariant ?_ hempty
  intro t call u ht _ hstep
  rcases hstep.cases with rfl | ⟨reply, hok⟩
  · exact ht
  · exact hcall t call.1 call.2 reply u ht hok

end Store
end ChatEngine
