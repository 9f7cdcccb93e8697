import ChatEngine.Realtime.Epochs
import ChatEngine.Realtime.Recovery

/-!
# Processes over one database

Any number of relay processes, some of them under one instance id, and the
database they share.

* `Await.call?`, the transaction a suspended relay has asked for; its request,
  its commit and its reply are separate steps, a reply may be lost, and a
  request given up on may still be served later;
* `Call.found`, the cursor with which a read has passed its checks: its batch is
  selected by a later statement, which sees what has been committed since;
* `Appending`, the transaction that holds the sequence lock;
* `Cluster.next` and `ClusterStep`: every process, every request and the clock,
  in any order.

All clocks run at one rate: a process's monotonic clock is the database clock
plus a constant.
-/

namespace ChatEngine
namespace Realtime

open Lib
open Models

variable {β : Type}

/-! ## Requests -/

/-- The call a suspended relay waits for. -/
def Await.call? (cfg : RelayConfig) (r : Relay) : Await β → Option (Call β)
  | .opening _ | .initializing _ => some (.claim cfg.instanceId cfg.leaseSeconds r.generation)
  | .recovering _ =>
      match r.generation, r.recoveryGeneration with
      | some generation, some recoveryGeneration =>
          some (.resynchronize cfg.instanceId generation recoveryGeneration cfg.leaseSeconds)
      | _, _ => none
  | .beating _ =>
      r.generation.map fun generation =>
        .heartbeat cfg.instanceId (some generation) cfg.leaseSeconds
  | .reading =>
      r.generation.map fun generation =>
        .read cfg.instanceId cfg.batchSize (some generation) cfg.limits
  | .acknowledging throughSequence _ _ =>
      r.generation.map fun generation =>
        .acknowledge cfg.instanceId throughSequence (some generation)
  | .releasing => r.generation.map fun generation => .release cfg.instanceId generation
  | _ => none

/-- When the request was sent, by the process's clock, where the relay counts
its lease from there. -/
def Await.started? : Await β → Option Timestamp
  | .opening started | .initializing started | .recovering started | .beating started =>
      some started
  | _ => none

/-- The cursor with which a read has passed its checks. -/
def Call.found (rd : CallReadings) (f : Foundation β) (call : Call β) : Option Nat :=
  match call, (call.exec rd f).1 with
  | .read instanceId _ generation _, .ok _ =>
      (f.owned (rd.clock 0) instanceId generation).map InstanceCursor.lastSequence
  | _, _ => none

/-! ## The state -/

/-- A process, what its request came to, the cursor of a read that has passed its
checks and not selected its batch yet, and the requests it gave up on. -/
structure Node (β : Type) where
  process : Process β := {}
  outcome : Option (Except FoundationError (Reply β)) := none
  selecting : Option Nat := none
  orphans : List (Call β) := []

/-- The transaction that holds the sequence lock: the events it has appended, and
the admission it reserves capacity for, if it does. -/
structure Appending (β : Type) where
  events : List (RealtimeEvent β) := []
  admission : Option (Nat × Nat) := none

/-- The processes and their database.  `writtenAt` is the database clock when the
cursor row of an instance was last changed.  As history: who minted which UUID,
the recovery requests minted, and every event ever committed. -/
structure Cluster (β : Type) where
  now : Timestamp := 0
  writtenAt : String → Timestamp := fun _ => 0
  history : History β := {}
  appending : Option (Appending β) := none
  nodes : Nat → Node β := fun _ => {}
  minted : List (Generation × Nat) := []
  requested : List (String × Generation × Generation) := []
  committed : List (RealtimeEvent β) := []

/-- The configuration of every process, and how far its clock is ahead. -/
structure ClusterConfig where
  relay : Nat → RelayConfig
  offset : Nat → Timestamp

/-- A process's monotonic clock. -/
def Cluster.time (cfg : ClusterConfig) (c : Cluster β) (i : Nat) : Timestamp :=
  c.now + cfg.offset i

/-- The cluster with one process replaced. -/
def Cluster.setNode (c : Cluster β) (i : Nat) (n : Node β) : Cluster β :=
  { c with nodes := Function.update c.nodes i n }

@[simp] theorem Cluster.setNode_self (c : Cluster β) (i : Nat) (n : Node β) :
    (c.setNode i n).nodes i = n := by
  unfold Cluster.setNode
  exact Function.update_self i n c.nodes

theorem Cluster.setNode_other {c : Cluster β} {i j : Nat} {n : Node β} (h : j ≠ i) :
    (c.setNode i n).nodes j = c.nodes j := by
  unfold Cluster.setNode
  exact Function.update_of_ne h n c.nodes

/-- A UUID nobody has minted. -/
def Cluster.Unminted (c : Cluster β) (g : Generation) : Prop := g ∉ c.minted.map Prod.fst

instance (c : Cluster β) : DecidablePred c.Unminted := by
  intro g
  unfold Cluster.Unminted
  infer_instance

/-! ## Steps -/

inductive ClusterAction (β : Type) where
  | tick (now : Timestamp)
  | act (i : Nat) (fresh : Generation) (action : ProcessAction β)
  | execute (i : Nat) (rd : CallReadings)
  | select (i : Nat)
  | reply (i : Nat) (fresh : Generation)
  | lose (i : Nat) (fresh : Generation)
  | late (i k : Nat) (rd : CallReadings)
  | prune (rd : CallReadings) (locked : List Nat) (maxEvents maxAgeSeconds limit : Nat)
  | lock (admission : Option (Nat × Nat))
  | append (event : RealtimeEvent β)
  | commit (clock : Timestamp)
  | rollback

/-- A step of the process that involves no reply of the database. -/
def ProcessAction.Local : ProcessAction β → Prop
  | .resume _ | .reserved _ _ _ => False
  | _ => True

instance : DecidablePred (ProcessAction.Local (β := β)) := by
  intro action
  cases action <;> unfold ProcessAction.Local <;> infer_instance

/-- The recovery UUID a step of the relay mints, if it does. -/
def mintedRecovery (cfg : RelayConfig) (p p' : Process β) :
    List (String × Generation × Generation) :=
  match p.relay.recoveryGeneration, p'.relay.generation, p'.relay.recoveryGeneration with
  | none, some generation, some recovery => [(cfg.instanceId, generation, recovery)]
  | _, _, _ => []

/-- Process `i` has moved on, and may have minted a recovery UUID. -/
def Cluster.moved (cfg : ClusterConfig) (c : Cluster β) (i : Nat) (fresh : Generation)
    (n : Node β) : Cluster β :=
  { c.setNode i n with
    minted := (fresh, i) :: c.minted
    requested := mintedRecovery (cfg.relay i) (c.nodes i).process n.process ++ c.requested }

/-- The call reads the clock with the cursor row of its instance as it stands
locked, and before it commits. -/
def Cluster.Clocked (c : Cluster β) (rd : CallReadings) (call : Call β) : Prop :=
  (∀ instanceId ∈ call.instance?, c.writtenAt instanceId ≤ rd.clock 0) ∧
    rd.clock 0 ≤ rd.clock 1 ∧ rd.clock 1 ≤ c.now

instance (c : Cluster β) (rd : CallReadings) : DecidablePred (c.Clocked rd) := by
  intro call
  unfold Cluster.Clocked
  infer_instance

/-- A request is served. -/
def Cluster.served (c : Cluster β) (i : Nat) (rd : CallReadings) (call : Call β) : Cluster β :=
  { c with
    writtenAt := fun instanceId =>
      if (call.exec rd c.history.db).2.cursor? instanceId = c.history.db.cursor? instanceId then
        c.writtenAt instanceId
      else
        c.now
    history := c.history.after call rd
    minted := (rd.fresh, i) :: c.minted }

/-- The request of process `i` is served. -/
def Cluster.execute (cfg : ClusterConfig) (c : Cluster β) (i : Nat) (rd : CallReadings) :
    Option (Cluster β) :=
  match (c.nodes i).outcome with
  | some _ => none
  | none =>
      ((c.nodes i).process.await.call? (cfg.relay i) (c.nodes i).process.relay).bind fun call =>
        if c.Clocked rd call ∧ c.Unminted rd.fresh ∧
            ∀ started ∈ (c.nodes i).process.await.started?,
              started ≤ rd.clock 0 + cfg.offset i then
          some ((c.served i rd call).setNode i
            { c.nodes i with
              outcome := some (call.exec rd c.history.db).1
              selecting := call.found rd c.history.db })
        else
          none

/-- The last statement of a read: the batch from the cursor its checks have found,
of what is committed by now. -/
def Cluster.select (cfg : ClusterConfig) (c : Cluster β) (i : Nat) : Option (Cluster β) :=
  match (c.nodes i).outcome, (c.nodes i).selecting with
  | some (.ok (.events _)), some cursor =>
      some (c.setNode i { c.nodes i with
        outcome := some (.ok (.events (c.history.db.batch cursor (cfg.relay i).batchSize)))
        selecting := none })
  | _, _ => none

/-- Process `i` sees what its request came to, or that the connection is lost. -/
def Cluster.resume (cfg : ClusterConfig) (c : Cluster β) (i : Nat) (fresh : Generation)
    (outcome : Except Failure (Reply β)) (orphans : List (Call β)) : Option (Cluster β) :=
  if c.Unminted fresh then
    ((c.nodes i).process.act (cfg.relay i) (c.time cfg i) fresh (.resume outcome)).map fun p =>
      c.moved cfg i fresh { process := p, outcome := none, orphans := orphans }
  else
    none

/-- What the commit of a transaction means to the admission it reserves capacity
for: `presence.joined` is its last event, and the instance row is locked and live. -/
def Cluster.reserve (cfg : ClusterConfig) (c : Cluster β) (clock : Timestamp)
    (tx : Appending β) : Option (Cluster β) :=
  match tx.admission with
  | none => some c
  | some (i, websocket) =>
      tx.events.getLast?.bind fun joined =>
        (c.history.db.cursor? (cfg.relay i).instanceId).bind fun row =>
          if row.Live clock ∧ c.writtenAt row.instanceId ≤ clock then
            match (c.nodes i).process.act (cfg.relay i) (c.time cfg i) 0
                (.reserved websocket row.generation joined.sequence) with
            | some p => some (c.setNode i { c.nodes i with process := p })
            -- the admission was given up meanwhile; the reservation commits all the same
            | none => some c
          else
            none

/-- The events of a transaction become part of the log. -/
def Foundation.appendAll (f : Foundation β) (events : List (RealtimeEvent β)) :
    Option (Foundation β) :=
  events.foldlM (fun f e =>
    (f.events.insert? e).map fun inserted =>
      { f with events := inserted, lastSequence := max f.lastSequence e.sequence }) f

/-- The state after an action, where the action is possible. -/
def Cluster.next (cfg : ClusterConfig) (c : Cluster β) : ClusterAction β → Option (Cluster β)
  | .tick now => if c.now ≤ now then some { c with now := now } else none
  | .act i fresh action =>
      if action.Local ∧ c.Unminted fresh then
        ((c.nodes i).process.act (cfg.relay i) (c.time cfg i) fresh action).map fun p =>
          c.moved cfg i fresh { c.nodes i with process := p }
      else
        none
  | .execute i rd => c.execute cfg i rd
  | .select i => c.select cfg i
  | .reply i fresh =>
      if (c.nodes i).selecting = none then
        (c.nodes i).outcome.bind fun outcome =>
          c.resume cfg i fresh (outcome.mapError Failure.of) (c.nodes i).orphans
      else
        none
  | .lose i fresh =>
      let call := (c.nodes i).process.await.call? (cfg.relay i) (c.nodes i).process.relay
      let given := if (c.nodes i).outcome.isSome then [] else call.toList
      c.resume cfg i fresh (.error .unavailable) (given ++ (c.nodes i).orphans)
  | .late i k rd =>
      ((c.nodes i).orphans[k]?).bind fun call =>
        if c.Clocked rd call ∧ c.Unminted rd.fresh then
          some ((c.served i rd call).setNode i
            { c.nodes i with orphans := (c.nodes i).orphans.eraseIdx k })
        else
          none
  | .prune rd locked maxEvents maxAgeSeconds limit =>
      if c.Clocked rd (.prune locked maxEvents maxAgeSeconds limit : Call β) ∧
          c.Unminted rd.fresh then
        some (c.served 0 rd (.prune locked maxEvents maxAgeSeconds limit))
      else
        none
  | .lock admission =>
      if c.appending.isNone then some { c with appending := some { admission := admission } }
      else none
  | .append event =>
      c.appending.bind fun tx =>
        if c.history.db.lastSequence < event.sequence ∧
            ∀ e ∈ tx.events, e.sequence < event.sequence then
          some { c with appending := some { tx with events := tx.events ++ [event] } }
        else
          none
  | .commit clock =>
      if clock ≤ c.now then
        c.appending.bind fun tx =>
          (c.history.db.appendAll tx.events).bind fun db =>
            Cluster.reserve cfg
              { c with
                history := { c.history with db := db }
                appending := none
                committed := c.committed ++ tx.events }
              clock tx
      else
        none
  | .rollback => if c.appending.isSome then some { c with appending := none } else none

/-- One step of the cluster. -/
def ClusterStep (cfg : ClusterConfig) (c : Cluster β) (action : ClusterAction β)
    (c' : Cluster β) : Prop :=
  c.next cfg action = some c'

/-- The states a cluster reaches from the empty database. -/
def ClusterReachable (cfg : ClusterConfig) : Cluster β → Prop :=
  Reachable (fun c => c = {}) (ClusterStep cfg)

end Realtime
end ChatEngine
