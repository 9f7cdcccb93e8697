import ChatEngine.Lib.Run
import ChatEngine.Realtime.Connections

/-!
# Runs of the registries

Every operation of the connection and typing registries, of the instance cursors
and of the rooms as one call on the shared database.

* `RegistryCall` and `RegistryCall.exec`: a call commits or leaves no trace;
* `DeploymentStep`, calls in any order while the database clock advances;
* `Effect` and `RegistryCall.effect`, what a transaction that commits has done;
* `RegistryOk`, the foreign keys and the order of generations, kept by every step.
-/

namespace ChatEngine
namespace Realtime

open Lib
open Models
open Store

/-! ## Calls -/

inductive RegistryCall where
  | onInstance (call : Call ConnectionEvent)
  | createRoom (payload : RoomCreate) (actor : String)
  | setRoomState (roomId : String) (archived frozen : Option Bool) (actor : String)
  | setMemberModeration (roomId subject : String) (payload : MemberModerationUpdate)
      (actor : String)
  | deleteRoom (roomId actor : String)
  | tryAcquire (connectionId instanceId roomId username : String) (subject : Option String)
  | renew (connectionId instanceId roomId : String)
  | release (connectionId instanceId : String)
  | reapExpired (limit : Nat)
  | startTyping (connectionId instanceId : String)
  | stopTyping (connectionId instanceId : String)
  | reapTyping (limit : Nat)
  | announce (roomId eventType : String)

/-- What a call returns. -/
inductive RegistryReply where
  | foundation (reply : Reply ConnectionEvent)
  | room (room : Room)
  | roomState (room : Room) (changes : RoomChanges)
  | moderation (moderation : MemberModeration)
  | acquisition (outcome : Acquisition)
  | time (expiresAt : Timestamp)
  | flag (value : Bool)
  | count (n : Nat)
  deriving DecidableEq

/-- The types of the events of `set_room_state`, in the order of their names. -/
def roomStateTypes (archived frozen : Option Bool) (changes : RoomChanges) : List String :=
  (if changes.archived = true then
    [if archived = some true then "room.archived" else "room.unarchived"]
  else []) ++
  (if changes.frozen = true then
    [if frozen = some true then "room.frozen" else "room.unfrozen"]
  else [])

/-- `append_event` for events of other kinds, in order. -/
def announceAll (rd : RegistryReadings) (roomId : String) : Nat → List String → RegistryTx Unit
  | _, [] => pure ()
  | i, eventType :: rest => do
      let _ ← notify rd i roomId (.other eventType)
      announceAll rd roomId (i + 1) rest

/-- `delete_room`: the leases and the typing rows of the room go with it. -/
def Registry.dropRoom (s : Registry) (roomId : String) : Registry :=
  s.drop ((s.leases.rows.filter fun lease => lease.roomId = roomId).map
    ConnectionLease.connectionId)

/-- The transactions but those of the instance cursors. -/
def RegistryCall.body (cfg : RegistryConfig) (rd : RegistryReadings) :
    RegistryCall → RegistryTx RegistryReply
  | .onInstance _ => pure (.flag false)
  | .createRoom payload actor => do
      let room ← onStore (Store.createRoom cfg.store rd.store payload actor)
      announceAll rd room.id 0 ["room.created"]
      pure (.room room)
  | .setRoomState roomId archived frozen actor => do
      let (room, changes) ←
        onStore (Store.setRoomState cfg.store rd.store roomId archived frozen actor)
      announceAll rd roomId 0 (roomStateTypes archived frozen changes)
      pure (.roomState room changes)
  | .setMemberModeration roomId subject payload actor => do
      let moderation ←
        onStore (Store.setMemberModeration cfg.store rd.store roomId subject payload actor)
      let _ ← notify rd 0 roomId
        (.moderationUpdated moderation.subject moderation.bannedUntil)
      pure (.moderation moderation)
  | .deleteRoom roomId actor => do
      let deleted ← onStore (Store.deleteRoom cfg.store rd.store roomId actor)
      Tx.write fun s => s.dropRoom roomId
      announceAll rd roomId 0 ["room.deleted"]
      pure (.count deleted)
  | .tryAcquire connectionId instanceId roomId username subject =>
      RegistryReply.acquisition <$>
        Realtime.tryAcquire cfg rd connectionId instanceId roomId username subject
  | .renew connectionId instanceId roomId =>
      RegistryReply.time <$> Realtime.renew cfg rd connectionId instanceId roomId
  | .release connectionId instanceId =>
      RegistryReply.flag <$> Realtime.release rd connectionId instanceId
  | .reapExpired limit => RegistryReply.count <$> Realtime.reapExpired rd limit
  | .startTyping connectionId instanceId =>
      RegistryReply.flag <$> Realtime.startTyping cfg rd connectionId instanceId
  | .stopTyping connectionId instanceId =>
      RegistryReply.flag <$> Realtime.stopTyping rd connectionId instanceId
  | .reapTyping limit => RegistryReply.count <$> Realtime.reapTyping rd limit
  | .announce roomId eventType => do
      announceAll rd roomId 0 [eventType]
      pure (.flag true)

/-- What a call of the instance cursors reads. -/
def RegistryReadings.onInstance (rd : RegistryReadings) : CallReadings := ⟨rd.clock, rd.fresh⟩

/-- The database once a call of the instance cursors has been served. -/
def Registry.served (s : Registry) (rd : RegistryReadings) (call : Call ConnectionEvent) :
    Registry :=
  { s with history := s.history.after call rd.onInstance }

/-- A call commits or is rolled back. -/
def RegistryCall.exec (cfg : RegistryConfig) (rd : RegistryReadings) (call : RegistryCall)
    (s : Registry) : Except RegistryError RegistryReply × Registry :=
  match call with
  | .onInstance call =>
      (((call.exec rd.onInstance s.foundation).1.mapError RegistryError.foundation).map
        RegistryReply.foundation, s.served rd call)
  | call => Tx.atomically (call.body cfg rd) s

/-! ## Runs -/

/-- The database and its clock. -/
structure Deployment where
  now : Timestamp := 0
  registry : Registry := {}

inductive DeploymentAction where
  | tick (now : Timestamp)
  | call (rd : RegistryReadings) (now : Timestamp) (call : RegistryCall)

/-- The clock readings of a call are in order, and before its commit.  Where the call overlaps
others it may have made them before these committed. -/
structure Timely (now now' : Timestamp) (rd : RegistryReadings) : Prop where
  present : now ≤ now'
  sweep : rd.clock 0 ≤ rd.clock 1
  count : rd.clock 1 ≤ rd.clock 2
  insert : rd.clock 2 ≤ rd.clock 3
  commit : rd.clock 3 ≤ now'

instance (now now' : Timestamp) : DecidablePred (Timely now now') := fun rd =>
  decidable_of_iff
    (now ≤ now' ∧ rd.clock 0 ≤ rd.clock 1 ∧ rd.clock 1 ≤ rd.clock 2 ∧
      rd.clock 2 ≤ rd.clock 3 ∧ rd.clock 3 ≤ now')
    ⟨fun ⟨h₀, h₁, h₂, h₃, h₄⟩ => ⟨h₀, h₁, h₂, h₃, h₄⟩, fun ⟨h₀, h₁, h₂, h₃, h₄⟩ =>
      ⟨h₀, h₁, h₂, h₃, h₄⟩⟩

/-- A call of the instance cursors is about an instance, and mints no UUID twice. -/
def RegistryCall.Possible (rd : RegistryReadings) (s : Registry) : RegistryCall → Prop
  | .onInstance call => call.instance?.isSome = true ∧ call.Admissible s.history rd.onInstance
  | _ => True

instance (rd : RegistryReadings) (s : Registry) : DecidablePred (RegistryCall.Possible rd s)
  | .onInstance call =>
      inferInstanceAs
        (Decidable (call.instance?.isSome = true ∧ call.Admissible s.history rd.onInstance))
  | .createRoom .. | .setRoomState .. | .setMemberModeration .. | .deleteRoom .. |
    .tryAcquire .. | .renew .. | .release .. | .reapExpired _ | .startTyping .. |
    .stopTyping .. | .reapTyping _ | .announce .. => isTrue trivial

/-- The state after an action, where the action is possible. -/
def Deployment.next (cfg : RegistryConfig) (d : Deployment) :
    DeploymentAction → Option Deployment
  | .tick now => if d.now ≤ now then some { d with now := now } else none
  | .call rd now call =>
      if Timely d.now now rd ∧ call.Possible rd d.registry then
        some { now := now, registry := (call.exec cfg rd d.registry).2 }
      else
        none

/-- One step of the deployment. -/
def DeploymentStep (cfg : RegistryConfig) (d : Deployment) (action : DeploymentAction)
    (d' : Deployment) : Prop :=
  d.next cfg action = some d'

/-- A call changes nothing, or is one that commits. -/
inductive Committed (cfg : RegistryConfig) (rd : RegistryReadings) (s s' : Registry) :
    RegistryCall → Prop
  | failed {call : RegistryCall} : s' = s → Committed cfg rd s s' call
  | onInstance {call : Call ConnectionEvent} :
      s' = s.served rd call → Committed cfg rd s s' (.onInstance call)
  | body {call : RegistryCall} {reply : RegistryReply} :
      (∀ c, call ≠ .onInstance c) → Tx.Returns (call.body cfg rd) s reply s' →
      Committed cfg rd s s' call

theorem RegistryCall.committed (cfg : RegistryConfig) (rd : RegistryReadings) (s : Registry)
    (call : RegistryCall) : Committed cfg rd s (call.exec cfg rd s).2 call := by
  have hbody : (∀ c, call ≠ .onInstance c) →
      Committed cfg rd s (Tx.atomically (call.body cfg rd) s).2 call := by
    intro hne
    rcases Tx.atomically_cases (call.body cfg rd) s with ⟨e, herror⟩ | ⟨reply, s', hok, hrun⟩
    · rw [herror]
      exact .failed rfl
    · rw [hrun]
      exact .body hne hok
  cases call with
  | onInstance call => exact .onInstance rfl
  | createRoom _ _ | setRoomState _ _ _ _ | setMemberModeration _ _ _ _ | deleteRoom _ _
  | tryAcquire _ _ _ _ _ | renew _ _ _
  | release _ _ | reapExpired _ | startTyping _ _ | stopTyping _ _ | reapTyping _
  | announce _ _ => exact hbody nofun

/-- The state after a sequence of actions, skipping those that are not possible. -/
def Deployment.run (cfg : RegistryConfig) (actions : List DeploymentAction) (d : Deployment) :
    Deployment :=
  actions.foldl (fun d action => (d.next cfg action).getD d) d

/-- Each action of the sequence meets the condition in the state that it finds. -/
def Deployment.Meets (cfg : RegistryConfig) (cond : Deployment → DeploymentAction → Prop) :
    Deployment → List DeploymentAction → Prop
  | _, [] => True
  | d, action :: rest => cond d action ∧ Meets cfg cond ((d.next cfg action).getD d) rest

instance Deployment.Meets.decidable {cfg : RegistryConfig}
    {cond : Deployment → DeploymentAction → Prop} [∀ d, DecidablePred (cond d)] :
    ∀ (d : Deployment) (actions : List DeploymentAction),
      Decidable (Deployment.Meets cfg cond d actions)
  | _, [] => isTrue trivial
  | d, action :: rest =>
      have : Decidable (Deployment.Meets cfg cond ((d.next cfg action).getD d) rest) :=
        decidable ((d.next cfg action).getD d) rest
      inferInstanceAs
        (Decidable (cond d action ∧ Deployment.Meets cfg cond ((d.next cfg action).getD d) rest))

/-- A sequence of actions is a run under the condition that they meet. -/
theorem Deployment.run_of_meets {cfg : RegistryConfig}
    {cond : Deployment → DeploymentAction → Prop} {actions : List DeploymentAction}
    {d : Deployment} (h : Deployment.Meets cfg cond d actions) :
    Run (DeploymentStep cfg) cond d (d.run cfg actions) := by
  induction actions generalizing d with
  | nil => exact .refl
  | cons action rest ih =>
      have hrest := ih h.2
      refine Run.trans ?_ hrest
      cases hnext : d.next cfg action with
      | none => exact .refl
      | some d' => exact .tail action .refl h.1 hnext

/-- A sequence of actions is a run under what holds of each of them in any state. -/
theorem Deployment.run_of_forall {cfg : RegistryConfig}
    {cond : Deployment → DeploymentAction → Prop} {actions : List DeploymentAction}
    (h : ∀ action ∈ actions, ∀ d, cond d action) (d : Deployment) :
    Run (DeploymentStep cfg) cond d (d.run cfg actions) := by
  have hmeets : ∀ d, Deployment.Meets cfg cond d actions := by
    induction actions with
    | nil => exact fun _ => trivial
    | cons action rest ih =>
        intro d
        exact ⟨h action List.mem_cons_self d, ih (fun a ha => h a (List.mem_cons_of_mem _ ha)) _⟩
  exact Deployment.run_of_meets (hmeets d)

/-- The readings of a call made at one instant, with sequences and ids from `n` on. -/
def RegistryReadings.fixed (now : Timestamp) (n : Nat) : RegistryReadings where
  clock _ := now
  countedAt _ := now
  sequence i := n + i
  fresh := n
  store := .fixed now n

/-- A call that begins and commits at one instant. -/
def DeploymentAction.at (now : Timestamp) (n : Nat) (call : RegistryCall) : DeploymentAction :=
  .call (.fixed now n) now call

/-! ## Foreign keys and generations -/

/-- The foreign keys of the lease and typing rows, and the order of generations: a
lease whose instance moved on was admitted under a generation that is replaced. -/
structure RegistryOk (s : Registry) : Prop where
  ordered : Ordered s.history
  owners : ∀ lease ∈ s.leases, ∃ owner, s.foundation.cursor? lease.instanceId = some owner ∧
    (owner.generation = lease.instanceGeneration ∨
      (lease.instanceId, lease.instanceGeneration) ∈ s.history.replaced)
  rooms : ∀ lease ∈ s.leases, (s.tables.rooms.find? lease.roomId).isSome = true
  typing : ∀ state ∈ s.typing, ∃ lease ∈ s.leases, lease.connectionId = state.connectionId
  sequenced : s.Sequenced

section Steps

variable {cfg : RegistryConfig} {rd : RegistryReadings} {s s' t : Registry}
  {call : Call ConnectionEvent}

/-- The order of generations is about the stored generations alone. -/
theorem Ordered.same_generations {β : Type} {h : History β} {db : Foundation β} (hord : Ordered h)
    (hsame : ∀ i, db.generation? i = h.db.generation? i) : Ordered { h with db := db } where
  stored i g hg := hord.stored i g ((hsame i).symm.trans hg)
  issued := hord.issued
  retained := hord.retained
  replaced := hord.replaced
  current i g hg := hord.current i g ((hsame i).symm.trans hg)
  order i g r hmem hr := hord.order i g r hmem (hr.imp_left (hsame i).symm.trans)

theorem Registry.Logs.history_eq {entries : List (String × Transition)} (h : s.Logs s' entries) :
    s'.history = { s.history with db := s'.foundation } := by
  have hdb : s'.foundation = { s.foundation with
      events := s'.foundation.events, lastSequence := s'.foundation.lastSequence } :=
    congrArg History.db h.history
  rw [hdb]
  exact h.history

theorem RegistryOk.logs {entries : List (String × Transition)} (h : RegistryOk s)
    (hlogs : s.Logs s' entries) : RegistryOk s' where
  ordered := by
    rw [hlogs.history_eq]
    refine h.ordered.same_generations fun i => ?_
    unfold Foundation.generation?
    exact congrArg (Option.map InstanceCursor.generation) (hlogs.cursor? i)
  owners lease hlease := by
    rw [hlogs.leases] at hlease
    rw [hlogs.cursor?, hlogs.history_eq]
    exact h.owners lease hlease
  rooms lease hlease := by
    rw [hlogs.leases] at hlease
    rw [hlogs.tables]
    exact h.rooms lease hlease
  typing := by
    rw [hlogs.typing, hlogs.leases]
    exact h.typing
  sequenced := hlogs.sequenced h.sequenced

theorem mem_drop_leases {connectionIds : List String} {lease : ConnectionLease} :
    lease ∈ (s.drop connectionIds).leases ↔
      lease ∈ s.leases ∧ lease.connectionId ∉ connectionIds :=
  Table.mem_deleteWhere

theorem mem_drop_typing {connectionIds : List String} {state : TypingState} :
    state ∈ (s.drop connectionIds).typing ↔
      state ∈ s.typing ∧ state.connectionId ∉ connectionIds :=
  Table.mem_deleteWhere

theorem RegistryOk.drop (h : RegistryOk s) (connectionIds : List String) :
    RegistryOk (s.drop connectionIds) where
  ordered := h.ordered
  owners lease hlease := h.owners lease (mem_drop_leases.mp hlease).1
  rooms lease hlease := h.rooms lease (mem_drop_leases.mp hlease).1
  typing state hstate := by
    obtain ⟨hold, hkept⟩ := mem_drop_typing.mp hstate
    obtain ⟨lease, hlease, hid⟩ := h.typing state hold
    exact ⟨lease, mem_drop_leases.mpr ⟨hlease, hid ▸ hkept⟩, hid⟩
  sequenced := ⟨h.sequenced.sorted, h.sequenced.last⟩

theorem RegistryOk.hush (h : RegistryOk s) (connectionIds : List String) :
    RegistryOk (s.hush connectionIds) where
  ordered := h.ordered
  owners := h.owners
  rooms := h.rooms
  typing state hstate := h.typing state (Table.mem_deleteWhere.mp hstate).1
  sequenced := ⟨h.sequenced.sorted, h.sequenced.last⟩

theorem RegistryOk.swept {now : Timestamp} {limit : Nat} {locked : List String}
    {prioritized : Option String} (h : RegistryOk s)
    (hswept : Swept s s' now limit locked prioritized) : RegistryOk s' :=
  (h.drop _).logs hswept.logs

theorem RegistryOk.typed {state : TypingState} (h : RegistryOk s)
    (hlease : ∃ lease ∈ s.leases, lease.connectionId = state.connectionId) :
    RegistryOk { s with typing := s.typing.upsert state } where
  ordered := h.ordered
  owners := h.owners
  rooms := h.rooms
  typing x hx := by
    rcases Table.mem_upsert.mp hx with rfl | ⟨hold, -⟩
    · exact hlease
    · exact h.typing x hold
  sequenced := ⟨h.sequenced.sorted, h.sequenced.last⟩

theorem RegistryOk.renewed {lease : ConnectionLease} {expiresAt : Timestamp} (h : RegistryOk s)
    (hlease : lease ∈ s.leases) :
    RegistryOk { s with leases := s.leases.upsert (lease.until expiresAt) } where
  ordered := h.ordered
  owners x hx := by
    rcases Table.mem_upsert.mp hx with rfl | ⟨hold, -⟩
    · exact h.owners lease hlease
    · exact h.owners x hold
  rooms x hx := by
    rcases Table.mem_upsert.mp hx with rfl | ⟨hold, -⟩
    · exact h.rooms lease hlease
    · exact h.rooms x hold
  typing state hstate := by
    obtain ⟨old, hold, hid⟩ := h.typing state hstate
    by_cases hkey : old.connectionId = lease.connectionId
    · exact ⟨lease.until expiresAt, Table.mem_upsert.mpr (.inl rfl), hkey.symm.trans hid⟩
    · exact ⟨old, Table.mem_upsert.mpr (.inr ⟨hold, hkey⟩), hid⟩
  sequenced := ⟨h.sequenced.sorted, h.sequenced.last⟩

theorem RegistryOk.inserted {lease : ConnectionLease} {now : Timestamp}
    {inserted : Table ConnectionLease String ConnectionLease.connectionId} (h : RegistryOk s)
    (hins : s.leases.insert? lease = some inserted) (hcurrent : s.Current now lease)
    (hopen : s.Open lease.roomId) : RegistryOk { s with leases := inserted } where
  ordered := h.ordered
  owners x hx := by
    rcases (Table.mem_of_insert? hins).mp hx with hold | rfl
    · exact h.owners x hold
    · obtain ⟨owner, howner, hgen, -⟩ := hcurrent
      exact ⟨owner, howner, .inl hgen⟩
  rooms x hx := by
    rcases (Table.mem_of_insert? hins).mp hx with hold | rfl
    · exact h.rooms x hold
    · obtain ⟨room, hroom, -⟩ := hopen
      rw [hroom]
      rfl
  typing state hstate := by
    obtain ⟨old, hold, hid⟩ := h.typing state hstate
    exact ⟨old, (Table.mem_of_insert? hins).mpr (.inl hold), hid⟩
  sequenced := ⟨h.sequenced.sorted, h.sequenced.last⟩

/-- Nothing but the chat store's tables changed, and no room of a lease is gone. -/
theorem RegistryOk.tables {tables : Database} (h : RegistryOk s)
    (hrooms : ∀ lease ∈ s.leases, (tables.rooms.find? lease.roomId).isSome = true) :
    RegistryOk (s.withTables tables) :=
  ⟨h.ordered, h.owners, hrooms, h.typing, ⟨h.sequenced.sorted, h.sequenced.last⟩⟩

theorem announceAll_ok {roomId : String} {i : Nat} {types : List String} {u : Unit}
    (h : Tx.Returns (announceAll rd roomId i types) s u s') : s.Logs s' [] := by
  induction types generalizing i s with
  | nil =>
      obtain ⟨-, rfl⟩ := Tx.returns_pure.mp h
      exact .refl _
  | cons eventType rest ih =>
      obtain ⟨_, t, hfirst, hrest⟩ := Tx.returns_bind.mp h
      exact (notify_ok hfirst).2.2.trans (ih hrest)

/-- A call about an instance leaves the log alone. -/
theorem Call.log_kept {β : Type} {call : Call β} {cr : CallReadings} {f f' : Foundation β}
    {reply : Reply β} (hinstance : call.instance?.isSome = true)
    (hrun : Tx.Returns (call.body cr) f reply f') :
    f'.events = f.events ∧ f'.lastSequence = f.lastSequence := by
  cases call with
  | append _ _ _ _ | prune _ _ _ _ => cases hinstance
  | claim _ _ _ =>
      obtain ⟨_, hclaim, -⟩ := Tx.returns_map.mp hrun
      obtain ⟨_, -, rfl, -⟩ := claimInstance_ok hclaim
      exact ⟨rfl, rfl⟩
  | register _ _ =>
      obtain ⟨_, hregister, -⟩ := Tx.returns_map.mp hrun
      obtain ⟨_, -, rfl, -⟩ := registerInstance_ok hregister
      exact ⟨rfl, rfl⟩
  | release _ _ =>
      obtain ⟨_, hrelease, -⟩ := Tx.returns_map.mp hrun
      obtain ⟨-, rfl⟩ | ⟨_, -, -, rfl⟩ := releaseInstance_ok hrelease
      · exact ⟨rfl, rfl⟩
      · exact ⟨rfl, rfl⟩
  | heartbeat _ _ _ =>
      obtain ⟨_, hbeat, -⟩ := Tx.returns_map.mp hrun
      obtain ⟨_, -, rfl⟩ := heartbeatInstance_ok hbeat
      exact ⟨rfl, rfl⟩
  | recover _ _ _ =>
      obtain ⟨_, hrecover, -⟩ := Tx.returns_map.mp hrun
      obtain ⟨_, -, -, -, -, rfl⟩ := recoverInstanceAfterGap_ok hrecover
      exact ⟨rfl, rfl⟩
  | resynchronize _ _ _ _ =>
      obtain ⟨_, hresync, -⟩ := Tx.returns_map.mp hrun
      obtain ⟨-, -, _, -, ⟨-, -, rfl⟩ | ⟨-, -, rfl⟩⟩ :=
        returns_resynchronizeClaimedInstance.mp hresync
      · exact ⟨rfl, rfl⟩
      · exact ⟨rfl, rfl⟩
  | read _ _ _ _ =>
      obtain ⟨_, hread, -⟩ := Tx.returns_map.mp hrun
      obtain ⟨rfl, -⟩ := readEvents_ok hread
      exact ⟨rfl, rfl⟩
  | acknowledge _ _ _ =>
      obtain ⟨_, hack, -⟩ := Tx.returns_map.mp hrun
      obtain ⟨_, -, ⟨-, -, rfl⟩ | ⟨-, -, -, rfl⟩⟩ := acknowledgeEvents_ok hack
      · exact ⟨rfl, rfl⟩
      · exact ⟨rfl, rfl⟩

theorem served_log (hinstance : call.instance?.isSome = true) :
    (s.served rd call).foundation.events = s.foundation.events ∧
      (s.served rd call).foundation.lastSequence = s.foundation.lastSequence := by
  change (call.exec rd.onInstance s.foundation).2.events = _ ∧
    (call.exec rd.onInstance s.foundation).2.lastSequence = _
  rcases call.exec_cases rd.onInstance s.foundation with ⟨e, hexec⟩ | ⟨reply, f', hrun, hexec⟩
  · rw [hexec]
    exact ⟨rfl, rfl⟩
  · rw [hexec]
    exact Call.log_kept hinstance hrun

/-- No call removes a cursor row. -/
theorem served_cursor? {owner : InstanceCursor} {instanceId : String}
    (h : s.foundation.cursor? instanceId = some owner) :
    ∃ owner', (s.served rd call).foundation.cursor? instanceId = some owner' ∧
      (owner'.generation = owner.generation ∨
        (instanceId, owner.generation) ∈ (s.served rd call).history.replaced) := by
  have hgen : s.foundation.generation? instanceId = some owner.generation :=
    congrArg (Option.map InstanceCursor.generation) h
  have hstored : ∃ g, (s.served rd call).foundation.generation? instanceId = some g ∧
      (call.instance? = some instanceId ∨ g = owner.generation) := by
    rcases call.exec_generations rd.onInstance s.foundation instanceId with
      hsame | ⟨hcall, hnew | ⟨_, _, -, -, -, hnew⟩⟩
    · exact ⟨owner.generation, hsame.trans hgen, .inr rfl⟩
    · exact ⟨_, hnew, .inl hcall⟩
    · exact ⟨_, hnew, .inl hcall⟩
  obtain ⟨g, hg, hcause⟩ := hstored
  obtain ⟨owner', howner', rfl⟩ := Option.map_eq_some_iff.mp hg
  refine ⟨owner', howner', ?_⟩
  by_cases hsame : owner'.generation = owner.generation
  · exact .inl hsame
  · have hcall := hcause.resolve_right hsame
    refine .inr (List.mem_append_left _ (mem_replacedBy.mpr ⟨hcall, hgen, _, hg, ?_⟩))
    exact fun heq => hsame heq.symm

theorem RegistryOk.served (h : RegistryOk s) (hinstance : call.instance?.isSome = true)
    (hadmissible : call.Admissible s.history rd.onInstance) : RegistryOk (s.served rd call) where
  ordered := h.ordered.after hadmissible
  owners lease hlease := by
    obtain ⟨owner, howner, hgen⟩ := h.owners lease hlease
    have hmoved : ∃ owner', (s.served rd call).foundation.cursor? lease.instanceId = some owner' ∧
        (owner'.generation = owner.generation ∨
          (lease.instanceId, owner.generation) ∈ (s.served rd call).history.replaced) :=
      served_cursor? howner
    obtain ⟨owner', howner', hgen'⟩ := hmoved
    refine ⟨owner', howner', ?_⟩
    rcases hgen with hsame | hreplaced
    · exact hsame ▸ hgen'
    · exact .inr (List.mem_append_right _ hreplaced)
  rooms := h.rooms
  typing := h.typing
  sequenced := by
    have hlog : (s.served rd call).foundation.events = s.foundation.events ∧
        (s.served rd call).foundation.lastSequence = s.foundation.lastSequence :=
      served_log hinstance
    obtain ⟨hevents, hlast⟩ := hlog
    refine ⟨?_, ?_⟩
    · rw [hevents]
      exact h.sequenced.sorted
    · rw [hevents, hlast]
      exact h.sequenced.last

/-! ## What a call does -/

/-- What a committed transaction makes of the leases, the typing rows and the log. -/
inductive Effect (cfg : RegistryConfig) (rd : RegistryReadings) (s s' : Registry) :
    RegistryCall → RegistryReply → Prop
  | tables {call : RegistryCall} {reply : RegistryReply} {tables : Database} :
      (∀ roomId, (s.tables.rooms.find? roomId).isSome = true →
        (tables.rooms.find? roomId).isSome = true) →
      (s.withTables tables).Logs s' [] → Effect cfg rd s s' call reply
  | deleted {roomId actor : String} {reply : RegistryReply} {tables : Database} :
      (∀ other, other ≠ roomId → (s.tables.rooms.find? other).isSome = true →
        (tables.rooms.find? other).isSome = true) →
      ((s.withTables tables).dropRoom roomId).Logs s' [] →
      Effect cfg rd s s' (.deleteRoom roomId actor) reply
  | acquired {connectionId instanceId roomId username : String} {subject : Option String}
      {outcome : Acquisition} :
      Acquired cfg rd s s' connectionId instanceId roomId username subject outcome →
      Effect cfg rd s s' (.tryAcquire connectionId instanceId roomId username subject)
        (.acquisition outcome)
  | renewed {connectionId instanceId roomId : String} {reply : RegistryReply}
      {lease : ConnectionLease} {expiresAt : Timestamp} :
      lease ∈ s.leases → s.Active (rd.clock 0) lease →
      s' = { s with leases := s.leases.upsert (lease.until expiresAt) } →
      Effect cfg rd s s' (.renew connectionId instanceId roomId) reply
  | released {connectionId instanceId : String} {reply : RegistryReply} {lease : ConnectionLease} :
      lease ∈ s.leases → lease.connectionId = connectionId →
      (s.drop [connectionId]).Logs s'
        (departure (lease, decide (s.Typing connectionId))) →
      Effect cfg rd s s' (.release connectionId instanceId) reply
  | swept {limit : Nat} {reply : RegistryReply} :
      Swept s s' (rd.clock 0) limit rd.locked none → Effect cfg rd s s' (.reapExpired limit) reply
  | refreshed {connectionId instanceId : String} {reply : RegistryReply} {lease : ConnectionLease}
      {state : TypingState} :
      lease ∈ s.leases → lease.connectionId = state.connectionId → s.Typing state.connectionId →
      s' = { s with typing := s.typing.upsert state } →
      Effect cfg rd s s' (.startTyping connectionId instanceId) reply
  | started {connectionId instanceId : String} {reply : RegistryReply} {lease : ConnectionLease}
      {state : TypingState} :
      lease ∈ s.leases → lease.connectionId = state.connectionId →
      Registry.Logs { s with typing := s.typing.upsert state } s'
        [(state.connectionId, .started)] →
      Effect cfg rd s s' (.startTyping connectionId instanceId) reply
  | stopped {call : RegistryCall} {reply : RegistryReply} {connectionIds : List String} :
      connectionIds.Nodup → (∀ connectionId ∈ connectionIds, s.Typing connectionId) →
      (s.hush connectionIds).Logs s'
        (connectionIds.map fun connectionId => (connectionId, .stopped)) →
      Effect cfg rd s s' call reply

/-- Nothing changed. -/
theorem Effect.idle {call : RegistryCall} {reply : RegistryReply} (s : Registry) :
    Effect cfg rd s s call reply := by
  have hlogs : (s.withTables s.tables).Logs s [] := .refl s
  exact .tables (fun _ => id) hlogs

/-- The statements of the chat store run on its tables. -/
theorem returns_onStore {α : Type} {tx : StoreTx α} {a : α} :
    Tx.Returns (onStore tx) s a s' ↔
      ∃ tables, Tx.Returns tx s.tables a tables ∧ s' = s.withTables tables := by
  unfold onStore
  exact Tx.returns_embed

/-- The spec of the transactions. -/
theorem RegistryCall.effect {c : RegistryCall} {reply : RegistryReply}
    (hne : ∀ call, c ≠ .onInstance call) (h : Tx.Returns (c.body cfg rd) s reply s') :
    Effect cfg rd s s' c reply := by
  cases c with
  | onInstance call => exact absurd rfl (hne call)
  | createRoom payload actor =>
      obtain ⟨room, t, hcreate, hrest⟩ := Tx.returns_bind.mp h
      obtain ⟨_, u, hannounce, hpure⟩ := Tx.returns_bind.mp hrest
      obtain ⟨-, rfl⟩ := Tx.returns_pure.mp hpure
      obtain ⟨tables, hstore, rfl⟩ := returns_onStore.mp hcreate
      obtain ⟨-, row, inserted, hins, -, hsame⟩ := createRoom_ok hstore
      refine .tables ?_ (announceAll_ok hannounce)
      intro roomId hroom
      rw [hsame.rooms]
      obtain ⟨x, hx, hkey⟩ := Table.find?_isSome.mp hroom
      exact Table.find?_isSome.mpr ⟨x, (Table.mem_of_insert? hins).mpr (.inl hx), hkey⟩
  | setRoomState roomId archived frozen actor =>
      obtain ⟨⟨room, changes⟩, t, hset, hrest⟩ := Tx.returns_bind.mp h
      obtain ⟨_, u, hannounce, hpure⟩ := Tx.returns_bind.mp hrest
      obtain ⟨-, rfl⟩ := Tx.returns_pure.mp hpure
      obtain ⟨tables, hstore, rfl⟩ := returns_onStore.mp hset
      refine .tables ?_ (announceAll_ok hannounce)
      intro other hroom
      rw [(setRoomState_ok hstore).rooms]
      exact hroom
  | setMemberModeration roomId subject payload actor =>
      obtain ⟨moderation, t, hset, hrest⟩ := Tx.returns_bind.mp h
      obtain ⟨_, u, hnotify, hpure⟩ := Tx.returns_bind.mp hrest
      obtain ⟨-, rfl⟩ := Tx.returns_pure.mp hpure
      obtain ⟨tables, hstore, rfl⟩ := returns_onStore.mp hset
      refine .tables ?_ (notify_ok hnotify).2.2
      intro other hroom
      rw [(setMemberModeration_ok hstore).2.choose_spec.2.rooms]
      exact hroom
  | deleteRoom roomId actor =>
      obtain ⟨n, t, hdelete, hrest⟩ := Tx.returns_bind.mp h
      obtain ⟨_, u, hdrop, hrest⟩ := Tx.returns_bind.mp hrest
      obtain ⟨_, v, hannounce, hpure⟩ := Tx.returns_bind.mp hrest
      obtain ⟨-, rfl⟩ := Tx.returns_pure.mp hpure
      obtain ⟨tables, hstore, rfl⟩ := returns_onStore.mp hdelete
      obtain rfl := Tx.returns_write.mp hdrop
      obtain ⟨-, audited, hsame, rfl⟩ := deleteRoom_ok hstore
      refine .deleted ?_ (announceAll_ok hannounce)
      intro other hother hroom
      obtain ⟨x, hx, hkey⟩ := Table.find?_isSome.mp hroom
      refine Table.find?_isSome.mpr ⟨x, Table.mem_deleteWhere.mpr ⟨?_, ?_⟩, hkey⟩
      · rw [← hsame.rooms] at hx
        exact hx
      · exact fun heq => hother (hkey.symm.trans heq)
  | tryAcquire connectionId instanceId roomId username subject =>
      obtain ⟨outcome, hacquire, rfl⟩ := Tx.returns_map.mp h
      exact .acquired (tryAcquire_ok hacquire)
  | renew connectionId instanceId roomId =>
      obtain ⟨expiresAt, hrenew, -⟩ := Tx.returns_map.mp h
      obtain ⟨lease, hlease, -, hactive, heq⟩ := renew_ok hrenew
      exact .renewed hlease hactive heq
  | release connectionId instanceId =>
      obtain ⟨_, hrelease, -⟩ := Tx.returns_map.mp h
      rcases release_ok hrelease with rfl | ⟨lease, hlease, hid, hlogs⟩
      · exact .idle _
      · exact .released hlease hid hlogs
  | reapExpired limit =>
      obtain ⟨_, hreap, -⟩ := Tx.returns_map.mp h
      exact .swept (reapExpired_ok hreap)
  | startTyping connectionId instanceId =>
      obtain ⟨_, hstart, -⟩ := Tx.returns_map.mp h
      obtain ⟨lease, hlease, hid, state, rfl, ⟨htyping, heq⟩ | hlogs⟩ := startTyping_ok hstart
      · exact .refreshed hlease hid htyping heq
      · exact .started hlease hid hlogs
  | stopTyping connectionId instanceId =>
      obtain ⟨_, hstop, -⟩ := Tx.returns_map.mp h
      rcases stopTyping_ok hstop with rfl | ⟨htyping, hlogs⟩
      · exact .idle _
      · refine .stopped (List.nodup_singleton connectionId) ?_ hlogs
        intro other hother
        rw [List.mem_singleton.mp hother]
        exact htyping
  | reapTyping limit =>
      obtain ⟨_, hreap, -⟩ := Tx.returns_map.mp h
      have hlogs :
          (s.hush ((s.lapsed (rd.clock 0) limit rd.locked).map TypingState.connectionId)).Logs s'
          (((s.lapsed (rd.clock 0) limit rd.locked).map TypingState.connectionId).map
            fun connectionId => (connectionId, .stopped)) := by
        rw [List.map_map]
        exact reapTyping_ok hreap
      refine .stopped (firstBy_map_nodup ?_) ?_ hlogs
      · exact s.typing.keys_nodup.sublist (List.filter_sublist.map _)
      · intro connectionId hid
        obtain ⟨state, hstate, rfl⟩ := List.mem_map.mp hid
        have hrow : state ∈ s.typing := (List.mem_filter.mp (mem_of_mem_firstBy hstate)).1
        exact Table.find?_isSome.mpr ⟨state, hrow, rfl⟩
  | announce roomId eventType =>
      obtain ⟨_, u, hannounce, hpure⟩ := Tx.returns_bind.mp h
      obtain ⟨-, rfl⟩ := Tx.returns_pure.mp hpure
      have hlogs : (s.withTables s.tables).Logs s' [] := announceAll_ok hannounce
      exact .tables (fun _ => id) hlogs

/-- The registries leave the rooms and their members alone. -/
theorem Acquired.tables {connectionId instanceId roomId username : String} {subject : Option String}
    {outcome : Acquisition}
    (h : Acquired cfg rd s s' connectionId instanceId roomId username subject outcome) :
    s'.tables = s.tables := by
  obtain ⟨-, _, t, -, -, ⟨hswept⟩, ⟨-, rfl, -⟩ | ⟨-, -, hreserved⟩⟩ := h
  · exact hswept.tables
  · cases hreserved with
    | overtaken heq => exact heq ▸ hswept.tables
    | leased _ _ hlogs _ => exact hlogs.tables.trans hswept.tables

/-- A transaction removes no event, and takes no sequence back. -/
structure Registry.Grows (s s' : Registry) : Prop where
  kept : ∀ e ∈ s.foundation.events, e ∈ s'.foundation.events
  advanced : s.foundation.lastSequence ≤ s'.foundation.lastSequence

theorem Effect.grows {c : RegistryCall} {reply : RegistryReply} (h : Effect cfg rd s s' c reply) :
    s.Grows s' := by
  cases h with
  | tables _ hlogs => exact ⟨hlogs.kept, hlogs.advanced⟩
  | deleted _ hlogs => exact ⟨hlogs.kept, hlogs.advanced⟩
  | acquired hacquired =>
      obtain ⟨-, _, t, -, -, ⟨hswept⟩, ⟨-, rfl, -⟩ | ⟨-, -, hreserved⟩⟩ := hacquired
      · exact ⟨hswept.kept, hswept.advanced⟩
      · cases hreserved with
        | overtaken heq =>
            subst heq
            exact ⟨hswept.kept, hswept.advanced⟩
        | leased _ _ hlogs _ =>
            exact ⟨fun e he => hlogs.kept e (hswept.kept e he),
              hswept.advanced.trans hlogs.advanced⟩
  | renewed _ _ heq =>
      subst heq
      exact ⟨fun _ => id, Nat.le_refl _⟩
  | released _ _ hlogs => exact ⟨hlogs.kept, hlogs.advanced⟩
  | swept hswept => exact ⟨hswept.logs.kept, hswept.logs.advanced⟩
  | refreshed _ _ _ heq =>
      subst heq
      exact ⟨fun _ => id, Nat.le_refl _⟩
  | started _ _ hlogs => exact ⟨hlogs.kept, hlogs.advanced⟩
  | stopped _ _ hlogs => exact ⟨hlogs.kept, hlogs.advanced⟩

theorem RegistryCall.grows {c : RegistryCall} (hpossible : c.Possible rd s) :
    s.Grows (c.exec cfg rd s).2 := by
  cases c.committed cfg rd s with
  | failed heq =>
      rw [heq]
      exact ⟨fun _ => id, Nat.le_refl _⟩
  | @onInstance call heq =>
      rw [heq]
      have hlog : (s.served rd call).foundation.events = s.foundation.events ∧
          (s.served rd call).foundation.lastSequence = s.foundation.lastSequence :=
        served_log hpossible.1
      exact ⟨fun e he => hlog.1 ▸ he, hlog.2.ge⟩
  | body hne hrun => exact (RegistryCall.effect hne hrun).grows

theorem RegistryOk.reserved {lease : ConnectionLease} {outcome : Acquisition}
    (h : RegistryOk s) (hreserved : Reserved s s' rd lease outcome) (hopen : s.Open lease.roomId) :
    RegistryOk s' := by
  cases hreserved with
  | overtaken heq =>
      subst heq
      exact h
  | leased hcurrent hins hlogs _ => exact (h.inserted hins hcurrent hopen).logs hlogs

/-- A sweep touches no room. -/
theorem Swept.open_iff {now : Timestamp} {limit : Nat} {locked : List String}
    {prioritized : Option String} (h : Swept s t now limit locked prioritized) (roomId : String) :
    t.Open roomId ↔ s.Open roomId := by
  unfold Registry.Open
  rw [h.logs.tables]
  exact Iff.rfl

theorem RegistryOk.effect {c : RegistryCall} {reply : RegistryReply} (h : RegistryOk s)
    (heffect : Effect cfg rd s s' c reply) : RegistryOk s' := by
  cases heffect with
  | tables hrooms hlogs =>
      exact (h.tables fun lease hlease => hrooms _ (h.rooms lease hlease)).logs hlogs
  | @deleted roomId actor reply tables hrooms hlogs =>
      -- the leases of the room are dropped, so that no other lease loses its room
      have hdropped := h.drop ((s.leases.rows.filter fun lease => lease.roomId = roomId).map
        ConnectionLease.connectionId)
      have hok : RegistryOk ((s.withTables tables).dropRoom roomId) := by
        refine hdropped.tables ?_
        intro lease hlease
        obtain ⟨hold, hkept⟩ := mem_drop_leases.mp hlease
        refine hrooms _ ?_ (h.rooms lease hold)
        intro heq
        refine hkept (List.mem_map.mpr ⟨lease, ?_, rfl⟩)
        exact List.mem_filter.mpr ⟨hold, decide_eq_true heq⟩
      exact hok.logs hlogs
  | acquired hacquired =>
      obtain ⟨hopen, owner, t, -, -, hswept, ⟨-, rfl, -⟩ | ⟨-, -, hreserved⟩⟩ := hacquired
      · exact h.swept hswept
      · exact (h.swept hswept).reserved hreserved ((hswept.open_iff _).mpr hopen)
  | renewed hlease _ heq =>
      subst heq
      exact h.renewed hlease
  | released _ _ hlogs => exact (h.drop _).logs hlogs
  | swept hswept => exact h.swept hswept
  | refreshed hlease hid _ heq =>
      subst heq
      exact h.typed ⟨_, hlease, hid⟩
  | started hlease hid hlogs => exact (h.typed ⟨_, hlease, hid⟩).logs hlogs
  | stopped _ _ hlogs => exact (h.hush _).logs hlogs

/-- The step lemma. -/
theorem RegistryOk.step {d d' : Deployment} {action : DeploymentAction}
    (h : RegistryOk d.registry) (hstep : DeploymentStep cfg d action d') :
    RegistryOk d'.registry := by
  unfold DeploymentStep at hstep
  cases action with
  | tick now =>
      simp only [Deployment.next] at hstep
      split at hstep
      · cases hstep
        exact h
      · cases hstep
  | call rd now c =>
      simp only [Deployment.next] at hstep
      split at hstep
      · rename_i hguard
        obtain ⟨-, hpossible⟩ := hguard
        cases hstep
        cases c.committed cfg rd d.registry with
        | failed heq =>
            rw [heq]
            exact h
        | onInstance heq =>
            rw [heq]
            exact h.served hpossible.1 hpossible.2
        | body hne hrun => exact h.effect (RegistryCall.effect hne hrun)
      · cases hstep

theorem RegistryOk.start : RegistryOk ({} : Registry) where
  ordered := Ordered.start
  owners _ hlease := absurd hlease Table.not_mem_empty
  rooms _ hlease := absurd hlease Table.not_mem_empty
  typing _ hstate := absurd hstate Table.not_mem_empty
  sequenced := ⟨List.Pairwise.nil, fun _ he => absurd he Table.not_mem_empty⟩

end Steps

end Realtime
end ChatEngine
