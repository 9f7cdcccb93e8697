import Mathlib.Data.Finset.Basic
import ChatEngine.Lib.Run
import ChatEngine.Lib.Table
import ChatEngine.Models.Content

/-!
# The rate limiter of the PostgreSQL deployment

A bucket is a row for one scope, one key digest and one window of database time, and counts the
calls that were allowed.  `consume` first tries to count its call in the stored bucket; where there
is none, a second transaction takes the capacity lock, deletes the expired buckets and inserts one.

* `Limiter`, `RateLimits`, `RateBucket` and `RateLimitDecision`, the settings and the rows;
* `Phase`, the statement that a call executes next, with what it has read so far;
* `RateState.statement`, one statement of one call: transactions read what is committed, a row
  that another transaction has updated and the advisory lock make a statement wait, and a
  transaction's own writes become visible when it commits;
* `rateStep`, the statements of all calls in any order, with the clock moving on between them.

Keys that share a digest share their buckets, so a key is its digest here.  Buckets of one scope
and digest belong to one limiter, and all limiters share the table and its capacity.
-/

namespace ChatEngine
namespace Postgres

open Lib
open Models

/-! ## Settings and rows -/

/-- `RateLimitScope`. -/
inductive RateLimitScope where
  | message
  | search
  | typing
  deriving DecidableEq, Repr

/-- The settings of a limiter, as its constructor checks them. -/
structure Limiter where
  limit : Nat
  windowSeconds : Nat
  limit_bounds : 1 ≤ limit ∧ limit ≤ 100_000
  window_bounds : 1 ≤ windowSeconds ∧ windowSeconds ≤ 3_600

/-- Whose calls a bucket counts. -/
structure RateOwner (κ : Type) where
  scope : RateLimitScope
  digest : κ
  deriving DecidableEq, Repr

/-- The limiters of a deployment, and the capacity of the table that they share. -/
structure RateLimits (κ : Type) where
  limiter : RateOwner κ → Limiter
  maxBuckets : Nat
  maxBuckets_bounds : 1 ≤ maxBuckets ∧ maxBuckets ≤ 10_000_000

/-- The primary key of `samsarix_rate_buckets`. -/
structure BucketKey (κ : Type) where
  owner : RateOwner κ
  windowStartedAt : Timestamp
  deriving DecidableEq

/-- A row of `samsarix_rate_buckets`. -/
structure RateBucket (κ : Type) where
  key : BucketKey κ
  eventCount : Nat
  expiresAt : Timestamp
  deriving DecidableEq

/-- `RateLimitDecision`. -/
structure RateLimitDecision where
  allowed : Bool
  remaining : Nat
  retryAfterSeconds : Int
  resetAt : Timestamp
  deriving DecidableEq

/-- 2000-01-01 00:00:00 UTC. -/
def binOrigin : Timestamp := seconds 946_684_800

/-- `date_bin(stride, source, origin)`. -/
def dateBin (stride source : Timestamp) : Timestamp := source - (source - binOrigin) % stride

/-- `math.ceil(_.total_seconds())` of a span. -/
def ceilSeconds (span : Int) : Int := -(-span / 1_000_000)

section Settings

variable {κ : Type} (L : RateLimits κ)

/-- How often the bucket's calls may be allowed. -/
def RateLimits.limit (k : BucketKey κ) : Nat := (L.limiter k.owner).limit

/-- The length of the bucket's window. -/
def RateLimits.span (owner : RateOwner κ) : Timestamp := seconds (L.limiter owner).windowSeconds

/-- The end of the bucket's window: its `reset_at` and its `expires_at`. -/
def RateLimits.resetAt (k : BucketKey κ) : Timestamp := k.windowStartedAt + L.span k.owner

/-- The bucket of the window of a time. -/
def RateLimits.bucketAt (owner : RateOwner κ) (now : Timestamp) : BucketKey κ :=
  ⟨owner, dateBin (L.span owner) now⟩

/-- `_decision`. -/
def RateLimits.decision (allowed : Bool) (count : Nat) (now : Timestamp) (k : BucketKey κ) :
    RateLimitDecision :=
  { allowed := allowed
    remaining := L.limit k - count
    retryAfterSeconds := if allowed = true then 0 else max 1 (ceilSeconds (L.resetAt k - now))
    resetAt := L.resetAt k }

theorem RateLimits.span_pos (owner : RateOwner κ) : 0 < L.span owner := by
  have hwindow := (L.limiter owner).window_bounds.1
  show (0 : Int) < ((L.limiter owner).windowSeconds : Int) * 1_000_000
  omega

/-- A time lies before the end of its window. -/
theorem RateLimits.lt_resetAt (owner : RateOwner κ) (now : Timestamp) :
    now < L.resetAt (L.bucketAt owner now) := by
  have hmod := Int.emod_lt_of_pos (now - binOrigin) (L.span_pos owner)
  show now < now - (now - binOrigin) % L.span owner + L.span owner
  calc now = now - L.span owner + L.span owner := (Int.sub_add_cancel now _).symm
    _ < now - (now - binOrigin) % L.span owner + L.span owner :=
      Int.add_lt_add_right (Int.sub_lt_sub_left hmod now) _

end Settings

/-! ## Calls -/

/-- One call in progress. -/
abbrev CallId := Nat

/-- The time that a transaction has read, and the bucket of its window. -/
structure Pass (κ : Type) where
  now : Timestamp
  key : BucketKey κ
  deriving DecidableEq

/-- The second transaction of a call knows the buckets that it has deleted; the first deletes
none. -/
abbrev Deleted (κ : Type) := Option (List (BucketKey κ))

/-- The statement that a call executes next.  `tries` counts the rounds of `_consume_existing`
that have found a bucket with allowance after all. -/
inductive Phase (κ : Type) where
  | idle
  | opening (owner : RateOwner κ)
  | update (tx : Deleted κ) (pass : Pass κ) (tries : Nat)
  | read (tx : Deleted κ) (pass : Pass κ) (tries : Nat)
  | granted (tx : Deleted κ) (pass : Pass κ) (count : Nat)
  | refused (tx : Deleted κ) (pass : Pass κ) (count : Nat) (observedAt : Timestamp)
  | queueing (owner : RateOwner κ)
  | clearing (owner : RateOwner κ)
  | timing (deleted : List (BucketKey κ)) (owner : RateOwner κ)
  | counting (deleted : List (BucketKey κ)) (pass : Pass κ)
  | inserting (deleted : List (BucketKey κ)) (pass : Pass κ)
  | inserted (deleted : List (BucketKey κ)) (pass : Pass κ)
  | pruneQueueing
  | pruneClearing
  | pruned (deleted : List (BucketKey κ))
  deriving DecidableEq

/-- How `consume` ends. -/
inductive RateOutcome where
  | decided (decision : RateLimitDecision)
  | bucketCapacity
  | uniqueViolation
  deriving DecidableEq

/-- A call that has ended, with the bucket it was about. -/
structure RateRecord (κ : Type) where
  key : BucketKey κ
  outcome : RateOutcome
  deriving DecidableEq

/-- The call was decided that way. -/
def RateRecord.isDecided (allowed : Bool) (r : RateRecord κ) : Bool :=
  match r.outcome with
  | .decided d => d.allowed == allowed
  | _ => false

/-- The committed buckets, the locks, the calls in progress and those that have ended. -/
structure RateState (κ : Type) where
  clock : Timestamp
  buckets : Table (RateBucket κ) (BucketKey κ) RateBucket.key := ∅
  rowLock : BucketKey κ → Option CallId := fun _ => none
  capLock : Option CallId := none
  calls : CallId → Phase κ := fun _ => .idle
  log : List (RateRecord κ) := []

section Statements

variable {κ : Type} [DecidableEq κ] (L : RateLimits κ)

namespace RateState

variable (s : RateState κ)

/-- The call goes on with another statement. -/
def moveTo (c : CallId) (p : Phase κ) : RateState κ :=
  { s with calls := Function.update s.calls c p }

/-- The committed bucket, unless it has expired. -/
def live (k : BucketKey κ) : Option (RateBucket κ) :=
  (s.buckets.find? k).filter fun r => s.clock < r.expiresAt

/-- The buckets that a `DELETE … WHERE expires_at <= clock_timestamp()` takes. -/
def expired : List (BucketKey κ) :=
  (s.buckets.rows.filter fun r => r.expiresAt ≤ s.clock).map RateBucket.key

/-- The buckets that a transaction still sees. -/
def seen (deleted : List (BucketKey κ)) : Nat := s.buckets.countWhere fun r => r.key ∉ deleted

instance (key : BucketKey κ) : Decidable (key ∈ s.buckets.keys) := inferInstance

/-- The end of a transaction: its writes are committed and its locks released. -/
def close (c : CallId) (buckets : Table (RateBucket κ) (BucketKey κ) RateBucket.key)
    (ended : List (RateRecord κ)) (next : Phase κ) : RateState κ :=
  { s with
    buckets := buckets
    rowLock := fun k => if s.rowLock k = some c then none else s.rowLock k
    capLock := if s.capLock = some c then none else s.capLock
    calls := Function.update s.calls c next
    log := s.log ++ ended }

/-- The buckets without those that the transaction has deleted. -/
def without (deleted : List (BucketKey κ)) :
    Table (RateBucket κ) (BucketKey κ) RateBucket.key :=
  s.buckets.deleteWhere fun r => r.key ∈ deleted

/-- The `DELETE` of the expired buckets waits for the updates of others to be committed. -/
def clear (c : CallId) (next : List (BucketKey κ) → Phase κ) : Option (RateState κ) :=
  if ∀ k ∈ s.expired, s.rowLock k = none then some (s.moveTo c (next s.expired)) else none

/-- `pg_advisory_xact_lock` waits for the lock to be released. -/
def takeCap (c : CallId) (next : Phase κ) : Option (RateState κ) :=
  if s.capLock = none then some { s.moveTo c next with capLock := some c } else none

/-- The next statement of a call; nothing while it waits or where there is none. -/
def statement (c : CallId) : Option (RateState κ) :=
  match s.calls c with
  | .idle => none
  | .opening owner => some (s.moveTo c (.update none ⟨s.clock, L.bucketAt owner s.clock⟩ 0))
  | .update tx pass tries =>
      match (s.live pass.key).filter fun r => r.eventCount < L.limit pass.key with
      | none => some (s.moveTo c (.read tx pass tries))
      | some row =>
          if s.rowLock pass.key = none then
            some { s.moveTo c (.granted tx pass (row.eventCount + 1)) with
              rowLock := Function.update s.rowLock pass.key (some c) }
          else none
  | .read tx pass tries =>
      match s.live pass.key, tx with
      | some row, _ =>
          if L.limit pass.key ≤ row.eventCount then
            some (s.moveTo c (.refused tx pass row.eventCount s.clock))
          else some (s.moveTo c (.update tx pass (tries + 1)))
      -- the first transaction ends here
      | none, none => some (s.moveTo c (.queueing pass.key.owner))
      | none, some deleted => some (s.moveTo c (.counting deleted pass))
  | .granted tx pass count =>
      some (s.close c
        ((s.without (tx.getD [])).updateWhere (fun r => r.key = pass.key)
          (fun r => { r with eventCount := r.eventCount + 1 }) fun _ => rfl)
        [⟨pass.key, .decided (L.decision true count pass.now pass.key)⟩] .idle)
  | .refused tx pass count observedAt =>
      some (s.close c (s.without (tx.getD []))
        [⟨pass.key, .decided (L.decision false count observedAt pass.key)⟩] .idle)
  | .queueing owner => s.takeCap c (.clearing owner)
  | .clearing owner => s.clear c fun deleted => .timing deleted owner
  | .timing deleted owner =>
      some (s.moveTo c (.update (some deleted) ⟨s.clock, L.bucketAt owner s.clock⟩ 0))
  | .counting deleted pass =>
      -- an error rolls the deletions back
      if L.maxBuckets ≤ s.seen deleted then
        some (s.close c s.buckets [⟨pass.key, .bucketCapacity⟩] .idle)
      else some (s.moveTo c (.inserting deleted pass))
  | .inserting deleted pass =>
      if (s.buckets.find? pass.key).isSome = true ∧ pass.key ∉ deleted then
        some (s.close c s.buckets [⟨pass.key, .uniqueViolation⟩] .idle)
      else some (s.moveTo c (.inserted deleted pass))
  | .inserted deleted pass =>
      some (s.close c
        ((s.without deleted).upsert ⟨pass.key, 1, L.resetAt pass.key⟩)
        [⟨pass.key, .decided (L.decision true 1 pass.now pass.key)⟩] .idle)
  | .pruneQueueing => s.takeCap c .pruneClearing
  | .pruneClearing => s.clear c .pruned
  | .pruned deleted => some (s.close c (s.without deleted) [] .idle)

end RateState

/-! ## Interleavings -/

/-- What happens next: time passes, a call begins, or a call executes its next statement. -/
inductive RateLabel (κ : Type) where
  | tick (elapsed : Nat)
  | consume (c : CallId) (owner : RateOwner κ)
  | prune (c : CallId)
  | next (c : CallId)

/-- One step of the deployment. -/
def rateStep (s : RateState κ) : RateLabel κ → Option (RateState κ)
  | .tick elapsed => some { s with clock := s.clock + elapsed }
  | .consume c owner => if s.calls c = .idle then some (s.moveTo c (.opening owner)) else none
  | .prune c => if s.calls c = .idle then some (s.moveTo c .pruneQueueing) else none
  | .next c => s.statement L c

/-- The steps as a relation. -/
def RateStep (s : RateState κ) (label : RateLabel κ) (s' : RateState κ) : Prop :=
  rateStep L s label = some s'

instance (s : RateState κ) (label : RateLabel κ) :
    Decidable (RateStep L s label ((rateStep L s label).getD s)) :=
  decidable_of_iff ((rateStep L s label).isSome = true) (by
    unfold RateStep
    cases rateStep L s label with
    | none => simp
    | some s' => simp)

/-- No bucket is stored and no call is in progress. -/
def RateStart (s : RateState κ) : Prop := ∃ t, s = { clock := t }

/-- The calls that were allowed in the window of a bucket. -/
def RateState.allowed (s : RateState κ) (k : BucketKey κ) : Nat :=
  s.log.countP fun r => r.key = k ∧ r.isDecided true = true

/-- An upper bound on the statements that a call still executes. -/
def Phase.remaining : Phase κ → Nat
  | .idle => 0
  | .opening _ => 20
  | .update none _ tries => 19 - 2 * tries
  | .read none _ tries => 18 - 2 * tries
  | .queueing _ => 15
  | .clearing _ => 14
  | .timing _ _ => 13
  | .update (some _) _ tries => 12 - 2 * tries
  | .read (some _) _ tries => 11 - 2 * tries
  | .counting _ _ => 8
  | .inserting _ _ => 7
  | .inserted _ _ => 6
  | .granted _ _ _ => 5
  | .refused _ _ _ _ => 5
  | .pruneQueueing => 4
  | .pruneClearing => 3
  | .pruned _ => 2

end Statements

end Postgres
end ChatEngine
