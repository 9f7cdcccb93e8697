import ChatEngine.Lib.Table
import ChatEngine.Lib.Transaction
import ChatEngine.Models.Content

/-!
# The PostgreSQL foundation

The realtime event log, its retention watermark and the cursors of the
instances that read it.

* `Foundation`, the three tables; `Foundation.head`, the greatest committed
  sequence;
* `pruneEvents`, `claimInstance`, `releaseInstance`, `heartbeatClaimedInstance`,
  `resynchronizeClaimedInstance`, `readEvents` and `acknowledgeEvents`, one
  transaction each, and the operations that name no generation;
* one `_ok` lemma for each: what a transaction that commits may have done.

The payload of an event is a type parameter.  A transaction reads the database
clock several times; `clock i` is its reading in program order.
-/

namespace ChatEngine
namespace Realtime

open Lib
open Models

/-! ## Tables -/

/-- A UUID; nothing but equality is asked of it. -/
abbrev Generation := Nat

/-- One committed row of the event log. -/
structure RealtimeEvent (β : Type) where
  sequence : Nat
  roomId : String
  payload : β
  createdAt : Timestamp
  deriving DecidableEq

/-- One row of `samsarix_instance_cursors`. -/
structure InstanceCursor where
  instanceId : String
  generation : Generation
  lastSequence : Nat
  leaseExpiresAt : Timestamp
  deriving DecidableEq

/-- The tables of the foundation.  `lastSequence` is the greatest sequence an
event was ever committed with. -/
structure Foundation (β : Type) where
  events : Table (RealtimeEvent β) Nat RealtimeEvent.sequence := ∅
  lastSequence : Nat := 0
  prunedThrough : Nat := 0
  cursors : Table InstanceCursor String InstanceCursor.instanceId := ∅

inductive FoundationError where
  | value (message : String)
  | instanceLease (message : String)
  | eventLogGap
  | eventLogLag (reason : String)
  | integrity
  deriving DecidableEq

abbrev FoundationTx (β : Type) := Tx FoundationError (Foundation β)

/-- One exclusively claimed process generation and its durable cursor. -/
structure InstanceRegistration where
  generation : Generation
  lastSequence : Nat
  deriving DecidableEq

/-- Result of one bounded maintenance pass of the event log. -/
structure EventPruneResult where
  prunedEvents : Nat
  prunedThroughSequence : Nat
  deriving DecidableEq

variable {β : Type}

/-- The rows in the order of their sequence. -/
def bySequence (a b : RealtimeEvent β) : Prop := a.sequence ≤ b.sequence

instance : DecidableRel (bySequence (β := β)) :=
  fun a b => inferInstanceAs (Decidable (a.sequence ≤ b.sequence))

instance : Std.Total (bySequence (β := β)) where
  total a b := Nat.le_total a.sequence b.sequence

instance : IsTrans (RealtimeEvent β) bySequence where
  trans _ _ _ := Nat.le_trans

/-! ## What the statements read and write -/

/-- `COALESCE(MAX(sequence), 0)`. -/
def maxSequence (rows : List (RealtimeEvent β)) : Nat :=
  rows.foldr (fun e n => max e.sequence n) 0

theorem maxSequence_le {rows : List (RealtimeEvent β)} {n : Nat}
    (h : ∀ e ∈ rows, e.sequence ≤ n) : maxSequence rows ≤ n := by
  induction rows with
  | nil => exact Nat.zero_le n
  | cons a rest ih =>
      change max a.sequence (maxSequence rest) ≤ n
      exact Nat.max_le.mpr
        ⟨h a List.mem_cons_self, ih fun e he => h e (List.mem_cons_of_mem a he)⟩

/-- The greatest committed sequence still known, or zero. -/
def Foundation.head (f : Foundation β) : Nat :=
  max (maxSequence f.events.rows) f.prunedThrough

/-- The cursor row of an instance. -/
def Foundation.cursor? (f : Foundation β) (instanceId : String) : Option InstanceCursor :=
  f.cursors.find? instanceId

/-- The row is inserted, or replaces the one of its instance. -/
def Foundation.putCursor (f : Foundation β) (row : InstanceCursor) : Foundation β :=
  { f with cursors := f.cursors.upsert row }

@[simp] theorem Foundation.cursor?_putCursor (f : Foundation β) (row : InstanceCursor) :
    (f.putCursor row).cursor? row.instanceId = some row := by
  unfold Foundation.cursor? Foundation.putCursor
  rw [Table.find?_upsert, if_pos rfl]

theorem Foundation.cursor?_putCursor_other {f : Foundation β} {row : InstanceCursor}
    {instanceId : String} (h : row.instanceId ≠ instanceId) :
    (f.putCursor row).cursor? instanceId = f.cursor? instanceId := by
  unfold Foundation.cursor? Foundation.putCursor
  rw [Table.find?_upsert, if_neg h]

@[simp] theorem Foundation.events_putCursor (f : Foundation β) (row : InstanceCursor) :
    (f.putCursor row).events = f.events := rfl

@[simp] theorem Foundation.lastSequence_putCursor (f : Foundation β) (row : InstanceCursor) :
    (f.putCursor row).lastSequence = f.lastSequence := rfl

@[simp] theorem Foundation.prunedThrough_putCursor (f : Foundation β) (row : InstanceCursor) :
    (f.putCursor row).prunedThrough = f.prunedThrough := rfl

@[simp] theorem Foundation.head_putCursor (f : Foundation β) (row : InstanceCursor) :
    (f.putCursor row).head = f.head := rfl

theorem Foundation.instanceId_of_cursor? {f : Foundation β} {instanceId : String}
    {row : InstanceCursor} (h : f.cursor? instanceId = some row) :
    row.instanceId = instanceId :=
  (Table.find?_eq_some.mp h).2

/-- The events after a sequence, in order. -/
def Foundation.unread (f : Foundation β) (cursor : Nat) : List (RealtimeEvent β) :=
  f.events.rows.filter fun e => cursor < e.sequence

/-- `_INSTANCE_ID_PATTERN`. -/
def matchesInstanceId (s : String) : Bool :=
  matchesKey (fun c => isUpper c || isLower c || isDigit c)
    (fun c => isUpper c || isLower c || isDigit c ||
      c == '.' || c == '_' || c == ':' || c == '-') 127 s

/-- `_validate_instance_id`. -/
def validateInstanceId (instanceId : String) : FoundationTx β Unit :=
  Tx.require (matchesInstanceId instanceId = true) (.value "invalid instance ID")

/-- `_validate_instance`. -/
def validateInstance (instanceId : String) (leaseSeconds : Nat) : FoundationTx β Unit := do
  validateInstanceId instanceId
  Tx.require (1 ≤ leaseSeconds ∧ leaseSeconds ≤ 300)
    (.value "instance lease must be between 1 and 300 seconds")

@[simp] theorem returns_validateInstanceId {instanceId : String} {f f' : Foundation β} {u : Unit} :
    Tx.Returns (validateInstanceId instanceId) f u f' ↔
      matchesInstanceId instanceId = true ∧ f' = f := by
  unfold validateInstanceId
  exact Tx.returns_require

@[simp] theorem returns_validateInstance {instanceId : String} {leaseSeconds : Nat}
    {f f' : Foundation β} {u : Unit} :
    Tx.Returns (validateInstance instanceId leaseSeconds) f u f' ↔
      (matchesInstanceId instanceId = true ∧ 1 ≤ leaseSeconds ∧ leaseSeconds ≤ 300) ∧ f' = f := by
  unfold validateInstance
  simp only [Tx.returns_bind, returns_validateInstanceId, Tx.returns_require]
  constructor
  · rintro ⟨_, _, ⟨hid, rfl⟩, hlease, rfl⟩
    exact ⟨⟨hid, hlease⟩, rfl⟩
  · rintro ⟨⟨hid, hlease⟩, rfl⟩
    exact ⟨(), _, ⟨hid, rfl⟩, hlease, rfl⟩

/-! ## Appending and pruning -/

/-- `append_event`: the identity column gives a sequence above every earlier one,
under a lock that is held until the transaction commits. -/
def appendEvent (sequence : Nat) (createdAt : Timestamp) (roomId : String) (payload : β) :
    FoundationTx β Nat := do
  let last ← Tx.read Foundation.lastSequence
  Tx.require (last < sequence) .integrity
  let inserted ← Tx.read fun f =>
    f.events.insert?
      { sequence := sequence, roomId := roomId, payload := payload, createdAt := createdAt }
  let inserted ← Tx.orRaise inserted .integrity
  Tx.write fun f => { f with events := inserted, lastSequence := sequence }
  pure sequence

/-- The lease has not expired. -/
def InstanceCursor.Live (now : Timestamp) (row : InstanceCursor) : Prop :=
  now < row.leaseExpiresAt

instance (now : Timestamp) : DecidablePred (InstanceCursor.Live now) :=
  fun row => inferInstanceAs (Decidable (now < row.leaseExpiresAt))

/-- The least cursor of a live instance, or the head when there is none. -/
def Foundation.safeThrough (f : Foundation β) (now : Timestamp) : Nat :=
  (((f.cursors.rows.filter fun row => row.Live now).map InstanceCursor.lastSequence).min?).getD
    f.head

/-- The newest sequence that is beyond the retained count. -/
def Foundation.countCutoff (f : Foundation β) (maxEvents : Nat) : Option Nat :=
  (((f.events.rows.insertionSort bySequence).reverse.drop maxEvents).head?).map
    RealtimeEvent.sequence

/-- The batch a prune deletes; rows that another transaction has locked are skipped. -/
def Foundation.prunable (f : Foundation β) (now : Timestamp) (maxAgeSeconds limit : Nat)
    (safeThrough : Nat) (countCutoff : Option Nat) (locked : List Nat) :
    List (RealtimeEvent β) :=
  firstBy bySequence limit
    (f.events.rows.filter fun e =>
      e.sequence ≤ safeThrough ∧
        (e.createdAt < now - seconds maxAgeSeconds ∨ ∃ cutoff ∈ countCutoff, e.sequence ≤ cutoff) ∧
        e.sequence ∉ locked)

/-- The log without a batch, and the watermark it leaves. -/
def Foundation.prune (f : Foundation β) (batch : List (RealtimeEvent β)) : Foundation β :=
  match batch.getLast? with
  | none => f
  | some last =>
      { f with
        events := f.events.deleteWhere fun e =>
          e.sequence ∈ batch.map RealtimeEvent.sequence
        prunedThrough := max f.prunedThrough last.sequence }

/-- `prune_events`. -/
def pruneEvents (clock : Nat → Timestamp) (locked : List Nat)
    (maxEvents maxAgeSeconds limit : Nat) : FoundationTx β EventPruneResult := do
  Tx.require (1 ≤ maxEvents ∧ maxEvents ≤ 10_000_000)
    (.value "event retention count must be between 1 and 10000000")
  Tx.require (60 ≤ maxAgeSeconds ∧ maxAgeSeconds ≤ 31_536_000)
    (.value "event retention age must be between 60 and 31536000 seconds")
  Tx.require (1 ≤ limit ∧ limit ≤ 10_000)
    (.value "event prune limit must be between 1 and 10000")
  let safeThrough ← Tx.read fun f => f.safeThrough (clock 0)
  let countCutoff ← Tx.read fun f => f.countCutoff maxEvents
  let batch ← Tx.read fun f =>
    f.prunable (clock 1) maxAgeSeconds limit safeThrough countCutoff locked
  Tx.write fun f => f.prune batch
  let prunedThrough ← Tx.read Foundation.prunedThrough
  pure ⟨batch.length, prunedThrough⟩

theorem appendEvent_ok {sequence : Nat} {createdAt : Timestamp} {roomId : String} {payload : β}
    {f f' : Foundation β} {n : Nat}
    (h : Tx.Returns (appendEvent sequence createdAt roomId payload) f n f') :
    n = sequence ∧ f.lastSequence < sequence ∧
      ∃ inserted,
        f.events.insert?
          { sequence := sequence, roomId := roomId, payload := payload, createdAt := createdAt } =
            some inserted ∧
        f' = { f with events := inserted, lastSequence := sequence } := by
  unfold appendEvent at h
  simp only [Tx.returns_bind, Tx.returns_read, Tx.returns_require, Tx.returns_orRaise,
    Tx.returns_write, Tx.returns_pure] at h
  obtain ⟨_, _, ⟨rfl, rfl⟩, _, _, ⟨hlast, rfl⟩, _, _, ⟨rfl, rfl⟩, inserted, _, ⟨hins, rfl⟩, _, _,
    rfl, rfl, rfl⟩ := h
  exact ⟨rfl, hlast, inserted, hins, rfl⟩

theorem pruneEvents_ok {clock : Nat → Timestamp} {locked : List Nat}
    {maxEvents maxAgeSeconds limit : Nat} {f f' : Foundation β} {result : EventPruneResult}
    (h : Tx.Returns (pruneEvents clock locked maxEvents maxAgeSeconds limit) f result f') :
    f' = f.prune
      (f.prunable (clock 1) maxAgeSeconds limit (f.safeThrough (clock 0))
        (f.countCutoff maxEvents) locked) := by
  unfold pruneEvents at h
  simp only [Tx.returns_bind, Tx.returns_read, Tx.returns_require, Tx.returns_write,
    Tx.returns_pure] at h
  obtain ⟨_, _, ⟨-, rfl⟩, _, _, ⟨-, rfl⟩, _, _, ⟨-, rfl⟩, _, _, ⟨rfl, rfl⟩, _, _, ⟨rfl, rfl⟩, _, _,
    ⟨rfl, rfl⟩, _, _, rfl, _, _, ⟨rfl, rfl⟩, rfl, rfl⟩ := h
  rfl

/-! ## Claiming and renewing -/

/-- The row with its lease renewed. -/
def InstanceCursor.leased (row : InstanceCursor) (now : Timestamp) (leaseSeconds : Nat) :
    InstanceCursor :=
  { row with leaseExpiresAt := now + seconds leaseSeconds }

/-- `UPDATE … RETURNING generation, last_sequence`. -/
def storeCursor (row : InstanceCursor) : FoundationTx β InstanceRegistration := do
  Tx.write fun f => f.putCursor row
  pure ⟨row.generation, row.lastSequence⟩

@[simp] theorem returns_storeCursor {row : InstanceCursor} {f f' : Foundation β}
    {registration : InstanceRegistration} :
    Tx.Returns (storeCursor row) f registration f' ↔
      registration = ⟨row.generation, row.lastSequence⟩ ∧ f' = f.putCursor row := by
  unfold storeCursor
  simp only [Tx.returns_bind, Tx.returns_write, Tx.returns_pure]
  constructor
  · rintro ⟨_, _, rfl, hreg, rfl⟩
    exact ⟨hreg, rfl⟩
  · rintro ⟨hreg, rfl⟩
    exact ⟨(), _, rfl, hreg, rfl⟩

/-- The row an instance gets that has none: its cursor is the head. -/
def Foundation.newCursor (f : Foundation β) (instanceId : String) (generation : Generation)
    (now : Timestamp) (leaseSeconds : Nat) : InstanceCursor where
  instanceId := instanceId
  generation := generation
  lastSequence := f.head
  leaseExpiresAt := now + seconds leaseSeconds

/-- `claim_instance`; `fresh` is what `gen_random_uuid` returns. -/
def claimInstance (clock : Nat → Timestamp) (fresh : Generation) (instanceId : String)
    (leaseSeconds : Nat) (generation : Option Generation) :
    FoundationTx β InstanceRegistration := do
  validateInstance instanceId leaseSeconds
  let row ← Tx.read fun f => f.cursor? instanceId
  match row with
  | none =>
      let row ← Tx.read fun f => f.newCursor instanceId fresh (clock 1) leaseSeconds
      storeCursor row
  | some row =>
      if row.Live (clock 0) then do
        Tx.require (generation = some row.generation)
          (.instanceLease "instance ID is already active")
        storeCursor (row.leased (clock 1) leaseSeconds)
      else
        storeCursor ({ row with generation := fresh }.leased (clock 1) leaseSeconds)

/-- `register_instance`. -/
def registerInstance (clock : Nat → Timestamp) (fresh : Generation) (instanceId : String)
    (leaseSeconds : Nat) : FoundationTx β Nat := do
  validateInstance instanceId leaseSeconds
  let row ← Tx.read fun f => f.cursor? instanceId
  match row with
  | none =>
      let row ← Tx.read fun f => f.newCursor instanceId fresh (clock 1) leaseSeconds
      let registration ← storeCursor row
      pure registration.lastSequence
  | some row =>
      let generation := if row.Live (clock 0) then row.generation else fresh
      let registration ←
        storeCursor ({ row with generation := generation }.leased (clock 1) leaseSeconds)
      pure registration.lastSequence

/-- The row of an instance, when its lease and its generation qualify. -/
def Foundation.owned (f : Foundation β) (now : Timestamp) (instanceId : String)
    (generation : Option Generation) : Option InstanceCursor :=
  (f.cursor? instanceId).filter fun row =>
    decide (row.Live now ∧ ∀ g ∈ generation, row.generation = g)

theorem Foundation.owned_eq_some {f : Foundation β} {now : Timestamp} {instanceId : String}
    {generation : Option Generation} {row : InstanceCursor} :
    f.owned now instanceId generation = some row ↔
      f.cursor? instanceId = some row ∧ row.Live now ∧
        ∀ g ∈ generation, row.generation = g := by
  unfold Foundation.owned
  rw [Option.filter_eq_some_iff, decide_eq_true_eq]

/-- `release_instance`. -/
def releaseInstance (clock : Nat → Timestamp) (instanceId : String) (generation : Generation) :
    FoundationTx β Bool := do
  validateInstanceId instanceId
  let row ← Tx.read fun f => f.owned (clock 0) instanceId (some generation)
  match row with
  | none => pure false
  | some row => do
      Tx.write fun f => f.putCursor (row.leased (clock 1) 0)
      pure true

/-- `heartbeat_claimed_instance`, and without a generation `heartbeat_instance`. -/
def heartbeatInstance (clock : Nat → Timestamp) (instanceId : String)
    (generation : Option Generation) (leaseSeconds : Nat) : FoundationTx β Unit := do
  validateInstance instanceId leaseSeconds
  let row ← Tx.read fun f => f.owned (clock 0) instanceId generation
  let row ← Tx.orRaise row
    (.instanceLease
      (if generation.isSome then "instance generation is missing or expired"
      else "instance lease is missing or expired"))
  Tx.write fun f => f.putCursor (row.leased (clock 1) leaseSeconds)

theorem claimInstance_ok {clock : Nat → Timestamp} {fresh : Generation} {instanceId : String}
    {leaseSeconds : Nat} {generation : Option Generation} {f f' : Foundation β}
    {registration : InstanceRegistration}
    (h : Tx.Returns (claimInstance clock fresh instanceId leaseSeconds generation)
      f registration f') :
    ∃ row, registration = ⟨row.generation, row.lastSequence⟩ ∧ f' = f.putCursor row ∧
      ((f.cursor? instanceId = none ∧ row = f.newCursor instanceId fresh (clock 1) leaseSeconds) ∨
        ∃ old, f.cursor? instanceId = some old ∧
          ((old.Live (clock 0) ∧ generation = some old.generation ∧
              row = old.leased (clock 1) leaseSeconds) ∨
            (¬ old.Live (clock 0) ∧
              row = { old with generation := fresh }.leased (clock 1) leaseSeconds))) := by
  unfold claimInstance at h
  simp only [Tx.returns_bind, returns_validateInstance, Tx.returns_read] at h
  obtain ⟨_, _, ⟨-, rfl⟩, found, _, ⟨hfound, rfl⟩, h⟩ := h
  cases found with
  | none =>
      simp only [Tx.returns_bind, Tx.returns_read, returns_storeCursor] at h
      obtain ⟨row, _, ⟨rfl, rfl⟩, hreg, rfl⟩ := h
      exact ⟨_, hreg, rfl, .inl ⟨hfound.symm, rfl⟩⟩
  | some old =>
      simp only [Tx.returns_ite, Tx.returns_bind, Tx.returns_require, returns_storeCursor] at h
      rcases h with ⟨hlive, _, _, ⟨hgen, rfl⟩, hreg, rfl⟩ | ⟨hdead, hreg, rfl⟩
      · exact ⟨_, hreg, rfl, .inr ⟨old, hfound.symm, .inl ⟨hlive, hgen, rfl⟩⟩⟩
      · exact ⟨_, hreg, rfl, .inr ⟨old, hfound.symm, .inr ⟨hdead, rfl⟩⟩⟩

theorem registerInstance_ok {clock : Nat → Timestamp} {fresh : Generation} {instanceId : String}
    {leaseSeconds : Nat} {f f' : Foundation β} {cursor : Nat}
    (h : Tx.Returns (registerInstance clock fresh instanceId leaseSeconds) f cursor f') :
    ∃ row, cursor = row.lastSequence ∧ f' = f.putCursor row ∧
      ((f.cursor? instanceId = none ∧ row = f.newCursor instanceId fresh (clock 1) leaseSeconds) ∨
        ∃ old, f.cursor? instanceId = some old ∧
          ((old.Live (clock 0) ∧ row = old.leased (clock 1) leaseSeconds) ∨
            (¬ old.Live (clock 0) ∧
              row = { old with generation := fresh }.leased (clock 1) leaseSeconds))) := by
  unfold registerInstance at h
  simp only [Tx.returns_bind, returns_validateInstance, Tx.returns_read] at h
  obtain ⟨_, _, ⟨-, rfl⟩, found, _, ⟨hfound, rfl⟩, h⟩ := h
  cases found with
  | none =>
      simp only [Tx.returns_bind, Tx.returns_read, returns_storeCursor, Tx.returns_pure] at h
      obtain ⟨row, _, ⟨rfl, rfl⟩, _, _, ⟨rfl, rfl⟩, rfl, rfl⟩ := h
      exact ⟨_, rfl, rfl, .inl ⟨hfound.symm, rfl⟩⟩
  | some old =>
      simp only [Tx.returns_bind, returns_storeCursor, Tx.returns_pure] at h
      obtain ⟨_, _, ⟨rfl, rfl⟩, rfl, rfl⟩ := h
      refine ⟨_, rfl, rfl, .inr ⟨old, hfound.symm, ?_⟩⟩
      by_cases hlive : old.Live (clock 0)
      · rw [if_pos hlive]
        exact .inl ⟨hlive, rfl⟩
      · rw [if_neg hlive]
        exact .inr ⟨hlive, rfl⟩

theorem releaseInstance_ok {clock : Nat → Timestamp} {instanceId : String}
    {generation : Generation} {f f' : Foundation β} {released : Bool}
    (h : Tx.Returns (releaseInstance clock instanceId generation) f released f') :
    (released = false ∧ f' = f) ∨
      ∃ row, f.owned (clock 0) instanceId (some generation) = some row ∧ released = true ∧
        f' = f.putCursor (row.leased (clock 1) 0) := by
  unfold releaseInstance at h
  simp only [Tx.returns_bind, returns_validateInstanceId, Tx.returns_read] at h
  obtain ⟨_, _, ⟨-, rfl⟩, found, _, ⟨hfound, rfl⟩, h⟩ := h
  cases found with
  | none => exact .inl (Tx.returns_pure.mp h)
  | some row =>
      simp only [Tx.returns_bind, Tx.returns_write, Tx.returns_pure] at h
      obtain ⟨_, _, rfl, rfl, rfl⟩ := h
      exact .inr ⟨row, hfound.symm, rfl, rfl⟩

theorem heartbeatInstance_ok {clock : Nat → Timestamp} {instanceId : String}
    {generation : Option Generation} {leaseSeconds : Nat} {f f' : Foundation β} {u : Unit}
    (h : Tx.Returns (heartbeatInstance clock instanceId generation leaseSeconds) f u f') :
    ∃ row, f.owned (clock 0) instanceId generation = some row ∧
      f' = f.putCursor (row.leased (clock 1) leaseSeconds) := by
  unfold heartbeatInstance at h
  simp only [Tx.returns_bind, returns_validateInstance, Tx.returns_read, Tx.returns_orRaise,
    Tx.returns_write] at h
  obtain ⟨_, _, ⟨-, rfl⟩, _, _, ⟨rfl, rfl⟩, row, _, ⟨hrow, rfl⟩, rfl⟩ := h
  exact ⟨row, hrow, rfl⟩

/-! ## Recovering -/

/-- The row of a recovered instance: its cursor is the head. -/
def Foundation.recovered (f : Foundation β) (row : InstanceCursor) (generation : Generation)
    (now : Timestamp) (leaseSeconds : Nat) : InstanceCursor :=
  { row with generation := generation, lastSequence := f.head }.leased now leaseSeconds

/-- `recover_claimed_instance_after_gap`, and without a generation
`recover_instance_after_gap`. -/
def recoverInstanceAfterGap (clock : Nat → Timestamp) (fresh : Generation) (instanceId : String)
    (generation : Option Generation) (leaseSeconds : Nat) :
    FoundationTx β InstanceRegistration := do
  validateInstance instanceId leaseSeconds
  let row ← Tx.read fun f =>
    (f.cursor? instanceId).filter fun row => decide (∀ g ∈ generation, row.generation = g)
  let row ← Tx.orRaise row
    (.instanceLease
      (if generation.isSome then "instance generation is missing"
      else "instance cursor is missing"))
  let pruned ← Tx.read Foundation.prunedThrough
  Tx.require (row.lastSequence < pruned)
    (.instanceLease "instance cursor has no retained event gap")
  let row ← Tx.read fun f => f.recovered row fresh (clock 0) leaseSeconds
  storeCursor row

/-- `resynchronize_claimed_instance`. -/
def resynchronizeClaimedInstance (clock : Nat → Timestamp) (instanceId : String)
    (generation recoveryGeneration : Generation) (leaseSeconds : Nat) :
    FoundationTx β InstanceRegistration := do
  validateInstance instanceId leaseSeconds
  Tx.require (generation ≠ recoveryGeneration)
    (.value "recovery generation must differ from the current generation")
  let row ← Tx.read fun f => f.cursor? instanceId
  let row ← Tx.orRaise row (.instanceLease "instance generation is missing")
  Tx.require (row.generation = generation ∨ row.generation = recoveryGeneration)
    (.instanceLease "instance generation is missing")
  if row.generation = recoveryGeneration then
    storeCursor (row.leased (clock 0) leaseSeconds)
  else do
    let row ← Tx.read fun f => f.recovered row recoveryGeneration (clock 0) leaseSeconds
    storeCursor row

theorem recoverInstanceAfterGap_ok {clock : Nat → Timestamp} {fresh : Generation}
    {instanceId : String} {generation : Option Generation} {leaseSeconds : Nat}
    {f f' : Foundation β} {registration : InstanceRegistration}
    (h : Tx.Returns (recoverInstanceAfterGap clock fresh instanceId generation leaseSeconds)
      f registration f') :
    ∃ old, f.cursor? instanceId = some old ∧ (∀ g ∈ generation, old.generation = g) ∧
      old.lastSequence < f.prunedThrough ∧ registration = ⟨fresh, f.head⟩ ∧
      f' = f.putCursor (f.recovered old fresh (clock 0) leaseSeconds) := by
  unfold recoverInstanceAfterGap at h
  simp only [Tx.returns_bind, returns_validateInstance, Tx.returns_read, Tx.returns_orRaise,
    Tx.returns_require, returns_storeCursor] at h
  obtain ⟨_, _, ⟨-, rfl⟩, _, _, ⟨rfl, rfl⟩, old, _, ⟨hold, rfl⟩, _, _, ⟨rfl, rfl⟩, _, _,
    ⟨hgap, rfl⟩, _, _, ⟨rfl, rfl⟩, hreg, rfl⟩ := h
  rw [Option.filter_eq_some_iff, decide_eq_true_eq] at hold
  exact ⟨old, hold.1, hold.2, hgap, hreg, rfl⟩

theorem returns_resynchronizeClaimedInstance {clock : Nat → Timestamp} {instanceId : String}
    {generation recoveryGeneration : Generation} {leaseSeconds : Nat} {f f' : Foundation β}
    {registration : InstanceRegistration} :
    Tx.Returns
        (resynchronizeClaimedInstance clock instanceId generation recoveryGeneration leaseSeconds)
        f registration f' ↔
      (matchesInstanceId instanceId = true ∧ 1 ≤ leaseSeconds ∧ leaseSeconds ≤ 300) ∧
      generation ≠ recoveryGeneration ∧
      ∃ old, f.cursor? instanceId = some old ∧
        ((old.generation = recoveryGeneration ∧
            registration = ⟨old.generation, old.lastSequence⟩ ∧
            f' = f.putCursor (old.leased (clock 0) leaseSeconds)) ∨
          (old.generation = generation ∧ registration = ⟨recoveryGeneration, f.head⟩ ∧
            f' = f.putCursor
              (f.recovered old recoveryGeneration (clock 0) leaseSeconds))) := by
  unfold resynchronizeClaimedInstance
  simp only [Tx.returns_bind, returns_validateInstance, Tx.returns_read, Tx.returns_orRaise,
    Tx.returns_require, Tx.returns_ite, returns_storeCursor]
  constructor
  · rintro ⟨_, _, ⟨hvalid, rfl⟩, _, _, ⟨hne, rfl⟩, _, _, ⟨rfl, rfl⟩, old, _, ⟨hold, rfl⟩, _, _,
      ⟨hgen, rfl⟩, ⟨hrec, hreg, rfl⟩ | ⟨hother, _, _, ⟨rfl, rfl⟩, hreg, rfl⟩⟩
    · exact ⟨hvalid, hne, old, hold, .inl ⟨hrec, hreg, rfl⟩⟩
    · exact ⟨hvalid, hne, old, hold, .inr ⟨hgen.resolve_right hother, hreg, rfl⟩⟩
  · rintro ⟨hvalid, hne, old, hold, ⟨hrec, hreg, rfl⟩ | ⟨hgen, hreg, rfl⟩⟩
    · exact ⟨(), _, ⟨hvalid, rfl⟩, (), _, ⟨hne, rfl⟩, _, _, ⟨rfl, rfl⟩, old, _, ⟨hold, rfl⟩, (),
        _, ⟨.inr hrec, rfl⟩, .inl ⟨hrec, hreg, rfl⟩⟩
    · exact ⟨(), _, ⟨hvalid, rfl⟩, (), _, ⟨hne, rfl⟩, _, _, ⟨rfl, rfl⟩, old, _, ⟨hold, rfl⟩, (),
        _, ⟨.inl hgen, rfl⟩, .inr ⟨fun hrec => hne (hgen.symm.trans hrec), _, _, ⟨rfl, rfl⟩, hreg,
          rfl⟩⟩

/-! ## Reading and acknowledging -/

/-- What `read_events` may be asked to check before it hands out a batch. -/
structure LagLimits where
  maxPendingEvents : Option Nat
  maxEventAgeSeconds : Option Nat
  deriving DecidableEq

/-- `_validate_lag_limits`. -/
def validateLagLimits (limits : LagLimits) : FoundationTx β Unit := do
  Tx.require (∀ n ∈ limits.maxPendingEvents, 1 ≤ n ∧ n ≤ 100_000)
    (.value "pending event limit must be an integer between 1 and 100000")
  Tx.require (∀ n ∈ limits.maxEventAgeSeconds, 1 ≤ n ∧ n ≤ 3_600)
    (.value "pending event age must be an integer between 1 and 3600 seconds")

/-- More events are unread than the limit allows. -/
def Foundation.lagsByCount (f : Foundation β) (cursor : Nat) (limits : LagLimits) : Prop :=
  ∃ limit ∈ limits.maxPendingEvents, limit < (f.unread cursor).length

/-- The first unread event is older than the limit allows. -/
def Foundation.lagsByAge (f : Foundation β) (now : Timestamp) (cursor : Nat)
    (limits : LagLimits) : Prop :=
  ∃ age ∈ limits.maxEventAgeSeconds,
    ∃ e ∈ (firstBy bySequence 1 (f.unread cursor)), e.createdAt < now - seconds age

instance (f : Foundation β) (cursor : Nat) (limits : LagLimits) :
    Decidable (f.lagsByCount cursor limits) := by
  unfold Foundation.lagsByCount
  infer_instance

instance (f : Foundation β) (now : Timestamp) (cursor : Nat) (limits : LagLimits) :
    Decidable (f.lagsByAge now cursor limits) := by
  unfold Foundation.lagsByAge
  infer_instance

/-- The next batch after a cursor. -/
def Foundation.batch (f : Foundation β) (cursor limit : Nat) : List (RealtimeEvent β) :=
  firstBy bySequence limit (f.unread cursor)

/-- `read_events`, against one state of the tables.  Its last statement, the batch, sees what has
been committed since the checks: `Cluster.select`. -/
def readEvents (clock : Nat → Timestamp) (instanceId : String) (limit : Nat)
    (generation : Option Generation) (limits : LagLimits) :
    FoundationTx β (List (RealtimeEvent β)) := do
  validateInstanceId instanceId
  Tx.require (1 ≤ limit ∧ limit ≤ 1_000) (.value "event read limit must be between 1 and 1000")
  validateLagLimits limits
  let row ← Tx.read fun f => f.owned (clock 0) instanceId generation
  let row ← Tx.orRaise row (.instanceLease "instance lease is missing or expired")
  let pruned ← Tx.read Foundation.prunedThrough
  Tx.require (pruned ≤ row.lastSequence) .eventLogGap
  let byCount ← Tx.read fun f => decide (f.lagsByCount row.lastSequence limits)
  let byAge ← Tx.read fun f => decide (f.lagsByAge (clock 1) row.lastSequence limits)
  Tx.require (byCount = false) (.eventLogLag "count")
  Tx.require (byAge = false) (.eventLogLag "age")
  Tx.read fun f => f.batch row.lastSequence limit

/-- `acknowledge_events`. -/
def acknowledgeEvents (clock : Nat → Timestamp) (instanceId : String) (throughSequence : Nat)
    (generation : Option Generation) : FoundationTx β Nat := do
  validateInstanceId instanceId
  let row ← Tx.read fun f => f.owned (clock 0) instanceId generation
  let row ← Tx.orRaise row (.instanceLease "instance lease is missing or expired")
  if throughSequence ≤ row.lastSequence then
    pure row.lastSequence
  else do
    let head ← Tx.read Foundation.head
    Tx.require (throughSequence ≤ head)
      (.instanceLease "instance cursor cannot advance beyond the event head")
    let retained ← Tx.read fun f => (f.events.find? throughSequence).isSome
    Tx.require (retained = true)
      (.instanceLease "instance cursor target is not a committed event")
    Tx.write fun f => f.putCursor { row with lastSequence := throughSequence }
    pure throughSequence

theorem readEvents_ok {clock : Nat → Timestamp} {instanceId : String} {limit : Nat}
    {generation : Option Generation} {limits : LagLimits} {f f' : Foundation β}
    {events : List (RealtimeEvent β)}
    (h : Tx.Returns (readEvents clock instanceId limit generation limits) f events f') :
    f' = f ∧ ∃ row, f.owned (clock 0) instanceId generation = some row ∧
      f.prunedThrough ≤ row.lastSequence ∧ events = f.batch row.lastSequence limit := by
  unfold readEvents validateLagLimits at h
  simp only [Tx.returns_bind, returns_validateInstanceId, Tx.returns_read, Tx.returns_orRaise,
    Tx.returns_require] at h
  obtain ⟨_, _, ⟨-, rfl⟩, _, _, ⟨-, rfl⟩, _, _, ⟨_, _, ⟨-, rfl⟩, -, rfl⟩, _, _, ⟨rfl, rfl⟩,
    row, _, ⟨hrow, rfl⟩, _, _, ⟨rfl, rfl⟩, _, _, ⟨hgap, rfl⟩, _, _, ⟨rfl, rfl⟩, _, _, ⟨rfl, rfl⟩,
    _, _, ⟨-, rfl⟩, _, _, ⟨-, rfl⟩, rfl, rfl⟩ := h
  exact ⟨rfl, row, hrow, hgap, rfl⟩

theorem acknowledgeEvents_ok {clock : Nat → Timestamp} {instanceId : String}
    {throughSequence : Nat} {generation : Option Generation} {f f' : Foundation β} {cursor : Nat}
    (h : Tx.Returns (acknowledgeEvents clock instanceId throughSequence generation)
      f cursor f') :
    ∃ row, f.owned (clock 0) instanceId generation = some row ∧
      ((throughSequence ≤ row.lastSequence ∧ cursor = row.lastSequence ∧ f' = f) ∨
        (row.lastSequence < throughSequence ∧ cursor = throughSequence ∧
          (∃ e ∈ f.events, e.sequence = throughSequence) ∧
          f' = f.putCursor { row with lastSequence := throughSequence })) := by
  unfold acknowledgeEvents at h
  simp only [Tx.returns_bind, returns_validateInstanceId, Tx.returns_read, Tx.returns_orRaise,
    Tx.returns_ite, Tx.returns_require, Tx.returns_write, Tx.returns_pure] at h
  obtain ⟨_, _, ⟨-, rfl⟩, _, _, ⟨rfl, rfl⟩, row, _, ⟨hrow, rfl⟩, h⟩ := h
  rcases h with ⟨hle, rfl, rfl⟩ | ⟨hgt, _, _, ⟨rfl, rfl⟩, _, _, ⟨-, rfl⟩, _, _, ⟨rfl, rfl⟩, _, _,
    ⟨hretained, rfl⟩, _, _, rfl, rfl, rfl⟩
  · exact ⟨row, hrow, .inl ⟨hle, rfl, rfl⟩⟩
  · exact ⟨row, hrow, .inr ⟨Nat.lt_of_not_le hgt, rfl, Table.find?_isSome.mp hretained, rfl⟩⟩

end Realtime
end ChatEngine
