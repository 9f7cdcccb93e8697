import ChatEngine.Realtime.Foundation

/-!
# Calls of the foundation

Every transaction of the foundation as one call.

* `Call`, `Reply` and `Call.exec`: a call commits or leaves no trace;
* `CursorEffect`, what a committed call may have done to the cursor row it is
  about, and `Call.moves`, that it did nothing else to the cursors.
-/

namespace ChatEngine
namespace Realtime

open Lib
open Models

variable {β : Type}

/-- The operations, with the arguments their callers choose. -/
inductive Call (β : Type) where
  | append (sequence : Nat) (createdAt : Timestamp) (roomId : String) (payload : β)
  | prune (locked : List Nat) (maxEvents maxAgeSeconds limit : Nat)
  | claim (instanceId : String) (leaseSeconds : Nat) (generation : Option Generation)
  | register (instanceId : String) (leaseSeconds : Nat)
  | release (instanceId : String) (generation : Generation)
  | heartbeat (instanceId : String) (generation : Option Generation) (leaseSeconds : Nat)
  | recover (instanceId : String) (generation : Option Generation) (leaseSeconds : Nat)
  | resynchronize (instanceId : String) (generation recoveryGeneration : Generation)
      (leaseSeconds : Nat)
  | read (instanceId : String) (limit : Nat) (generation : Option Generation) (limits : LagLimits)
  | acknowledge (instanceId : String) (throughSequence : Nat) (generation : Option Generation)
  deriving DecidableEq

/-- What a call returns. -/
inductive Reply (β : Type) where
  | none
  | sequence (n : Nat)
  | pruned (result : EventPruneResult)
  | registration (registration : InstanceRegistration)
  | released (released : Bool)
  | events (events : List (RealtimeEvent β))
  deriving DecidableEq

/-- The database clock as a call reads it, and what `gen_random_uuid` gives it. -/
structure CallReadings where
  clock : Nat → Timestamp
  fresh : Generation

/-- The transaction of a call. -/
def Call.body (rd : CallReadings) : Call β → FoundationTx β (Reply β)
  | append sequence createdAt roomId payload =>
      Reply.sequence <$> appendEvent sequence createdAt roomId payload
  | prune locked maxEvents maxAgeSeconds limit =>
      Reply.pruned <$> pruneEvents rd.clock locked maxEvents maxAgeSeconds limit
  | claim instanceId leaseSeconds generation =>
      Reply.registration <$> claimInstance rd.clock rd.fresh instanceId leaseSeconds generation
  | register instanceId leaseSeconds =>
      Reply.sequence <$> registerInstance rd.clock rd.fresh instanceId leaseSeconds
  | release instanceId generation =>
      Reply.released <$> releaseInstance rd.clock instanceId generation
  | heartbeat instanceId generation leaseSeconds =>
      (fun _ => Reply.none) <$> heartbeatInstance rd.clock instanceId generation leaseSeconds
  | recover instanceId generation leaseSeconds =>
      Reply.registration <$>
        recoverInstanceAfterGap rd.clock rd.fresh instanceId generation leaseSeconds
  | resynchronize instanceId generation recoveryGeneration leaseSeconds =>
      Reply.registration <$>
        resynchronizeClaimedInstance rd.clock instanceId generation recoveryGeneration leaseSeconds
  | read instanceId limit generation limits =>
      Reply.events <$> readEvents rd.clock instanceId limit generation limits
  | acknowledge instanceId throughSequence generation =>
      Reply.sequence <$> acknowledgeEvents rd.clock instanceId throughSequence generation

/-- A call commits or is rolled back. -/
def Call.exec (rd : CallReadings) (call : Call β) :
    Foundation β → Except FoundationError (Reply β) × Foundation β :=
  Tx.atomically (call.body rd)

/-- The instance a call is about. -/
def Call.instance? : Call β → Option String
  | append .. | prune .. => none
  | claim instanceId .. | register instanceId .. | release instanceId .. => some instanceId
  | heartbeat instanceId .. | recover instanceId .. => some instanceId
  | resynchronize instanceId .. | read instanceId .. => some instanceId
  | acknowledge instanceId .. => some instanceId

/-! ## Effects on the cursors -/

/-- What a committed call may make of the cursor row it is about. -/
inductive CursorEffect (f : Foundation β) (rd : CallReadings) :
    Call β → InstanceCursor → Prop
  | created {call : Call β} {instanceId : String} {leaseSeconds : Nat} :
      f.cursor? instanceId = none →
      CursorEffect f rd call (f.newCursor instanceId rd.fresh (rd.clock 1) leaseSeconds)
  | renewed {call : Call β} {row : InstanceCursor} {expiresAt : Timestamp} :
      f.cursor? row.instanceId = some row →
      CursorEffect f rd call { row with leaseExpiresAt := expiresAt }
  | taken {call : Call β} {row : InstanceCursor} {leaseSeconds : Nat} :
      f.cursor? row.instanceId = some row → ¬ row.Live (rd.clock 0) →
      CursorEffect f rd call ({ row with generation := rd.fresh }.leased (rd.clock 1) leaseSeconds)
  | recovered {generation : Option Generation} {row : InstanceCursor} {leaseSeconds : Nat} :
      f.cursor? row.instanceId = some row →
      CursorEffect f rd (.recover row.instanceId generation leaseSeconds)
        (f.recovered row rd.fresh (rd.clock 0) leaseSeconds)
  | resynchronized {recoveryGeneration : Generation} {row : InstanceCursor} {leaseSeconds : Nat} :
      f.cursor? row.instanceId = some row → row.generation ≠ recoveryGeneration →
      CursorEffect f rd
        (.resynchronize row.instanceId row.generation recoveryGeneration leaseSeconds)
        (f.recovered row recoveryGeneration (rd.clock 0) leaseSeconds)
  | advanced {generation : Option Generation} {row : InstanceCursor} {throughSequence : Nat} :
      f.cursor? row.instanceId = some row → (∀ g ∈ generation, row.generation = g) →
      row.lastSequence < throughSequence → (∃ e ∈ f.events, e.sequence = throughSequence) →
      CursorEffect f rd (.acknowledge row.instanceId throughSequence generation)
        { row with lastSequence := throughSequence }

/-- A committed call leaves the cursors alone, or writes one row. -/
inductive CursorsMove (f : Foundation β) (rd : CallReadings) (call : Call β) :
    Foundation β → Prop
  | same {f' : Foundation β} : f'.cursors = f.cursors → CursorsMove f rd call f'
  | put {row : InstanceCursor} :
      call.instance? = some row.instanceId → CursorEffect f rd call row →
      CursorsMove f rd call (f.putCursor row)

@[simp] theorem InstanceCursor.leased_instanceId (row : InstanceCursor) (now : Timestamp)
    (leaseSeconds : Nat) : (row.leased now leaseSeconds).instanceId = row.instanceId := rfl

@[simp] theorem Foundation.recovered_instanceId (f : Foundation β) (row : InstanceCursor)
    (generation : Generation) (now : Timestamp) (leaseSeconds : Nat) :
    (f.recovered row generation now leaseSeconds).instanceId = row.instanceId := rfl

@[simp] theorem Foundation.cursors_prune (f : Foundation β) (batch : List (RealtimeEvent β)) :
    (f.prune batch).cursors = f.cursors := by
  unfold Foundation.prune
  split <;> rfl

section Effects

variable {rd : CallReadings} {call : Call β} {f f' : Foundation β} {reply : Reply β}

/-- The row a lookup found belongs to the instance looked up. -/
theorem cursor?_self {instanceId : String} {row : InstanceCursor}
    (h : f.cursor? instanceId = some row) : f.cursor? row.instanceId = some row := by
  rw [Foundation.instanceId_of_cursor? h]
  exact h

/-- A row of the call's instance that replaces a row found under its id. -/
theorem CursorsMove.of_found {instanceId : String} {old row : InstanceCursor}
    (hcall : call.instance? = some instanceId) (hold : f.cursor? instanceId = some old)
    (hid : row.instanceId = old.instanceId) (heffect : CursorEffect f rd call row) :
    CursorsMove f rd call (f.putCursor row) := by
  refine .put ?_ heffect
  rw [hcall, hid, Foundation.instanceId_of_cursor? hold]

/-- A call touches no other cursor than that of its instance. -/
theorem Call.moves (h : Tx.Returns (call.body rd) f reply f') : CursorsMove f rd call f' := by
  cases call with
  | append sequence createdAt roomId payload =>
      obtain ⟨_, hrun, -⟩ := Tx.returns_map.mp h
      obtain ⟨-, -, _, -, rfl⟩ := appendEvent_ok hrun
      exact .same rfl
  | prune locked maxEvents maxAgeSeconds limit =>
      obtain ⟨_, hrun, -⟩ := Tx.returns_map.mp h
      rw [pruneEvents_ok hrun]
      exact .same (Foundation.cursors_prune f _)
  | claim instanceId leaseSeconds generation =>
      obtain ⟨_, hrun, -⟩ := Tx.returns_map.mp h
      obtain ⟨_, -, rfl, ⟨hnone, rfl⟩ | ⟨old, hold, ⟨-, -, rfl⟩ | ⟨hdead, rfl⟩⟩⟩ :=
        claimInstance_ok hrun
      · exact .put rfl (.created hnone)
      · exact .of_found rfl hold rfl (.renewed (cursor?_self hold))
      · exact .of_found rfl hold rfl (.taken (cursor?_self hold) hdead)
  | register instanceId leaseSeconds =>
      obtain ⟨_, hrun, -⟩ := Tx.returns_map.mp h
      obtain ⟨_, -, rfl, ⟨hnone, rfl⟩ | ⟨old, hold, ⟨-, rfl⟩ | ⟨hdead, rfl⟩⟩⟩ :=
        registerInstance_ok hrun
      · exact .put rfl (.created hnone)
      · exact .of_found rfl hold rfl (.renewed (cursor?_self hold))
      · exact .of_found rfl hold rfl (.taken (cursor?_self hold) hdead)
  | release instanceId generation =>
      obtain ⟨_, hrun, -⟩ := Tx.returns_map.mp h
      rcases releaseInstance_ok hrun with ⟨-, rfl⟩ | ⟨old, howned, -, rfl⟩
      · exact .same rfl
      · have hold := (Foundation.owned_eq_some.mp howned).1
        exact .of_found rfl hold rfl (.renewed (cursor?_self hold))
  | heartbeat instanceId generation leaseSeconds =>
      obtain ⟨_, hrun, -⟩ := Tx.returns_map.mp h
      obtain ⟨old, howned, rfl⟩ := heartbeatInstance_ok hrun
      have hold := (Foundation.owned_eq_some.mp howned).1
      exact .of_found rfl hold rfl (.renewed (cursor?_self hold))
  | recover instanceId generation leaseSeconds =>
      obtain ⟨_, hrun, -⟩ := Tx.returns_map.mp h
      obtain ⟨old, hold, -, -, -, rfl⟩ := recoverInstanceAfterGap_ok hrun
      obtain rfl := Foundation.instanceId_of_cursor? hold
      exact .of_found rfl hold rfl (.recovered hold)
  | resynchronize instanceId generation recoveryGeneration leaseSeconds =>
      obtain ⟨_, hrun, -⟩ := Tx.returns_map.mp h
      obtain ⟨-, hne, old, hold, ⟨-, -, rfl⟩ | ⟨rfl, -, rfl⟩⟩ :=
        returns_resynchronizeClaimedInstance.mp hrun
      · exact .of_found rfl hold rfl (.renewed (cursor?_self hold))
      · obtain rfl := Foundation.instanceId_of_cursor? hold
        exact .of_found rfl hold rfl (.resynchronized hold hne)
  | read instanceId limit generation limits =>
      obtain ⟨_, hrun, -⟩ := Tx.returns_map.mp h
      rw [(readEvents_ok hrun).1]
      exact .same rfl
  | acknowledge instanceId throughSequence generation =>
      obtain ⟨_, hrun, -⟩ := Tx.returns_map.mp h
      obtain ⟨old, howned, ⟨-, -, rfl⟩ | ⟨hlt, -, hevent, rfl⟩⟩ := acknowledgeEvents_ok hrun
      · exact .same rfl
      · obtain ⟨hold, -, hgen⟩ := Foundation.owned_eq_some.mp howned
        obtain rfl := Foundation.instanceId_of_cursor? hold
        exact .of_found rfl hold rfl (.advanced hold hgen hlt hevent)

/-- A call that failed changed nothing. -/
theorem Call.exec_cases (rd : CallReadings) (call : Call β) (f : Foundation β) :
    (∃ e, call.exec rd f = (.error e, f)) ∨
      ∃ reply f', Tx.Returns (call.body rd) f reply f' ∧ call.exec rd f = (.ok reply, f') :=
  Tx.atomically_cases (call.body rd) f

end Effects

end Realtime
end ChatEngine
