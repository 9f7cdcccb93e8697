import ChatEngine.Postgres.RateLimits

/-!
# What the rate limiter allows

* `PhaseOk`, what a call may rely on before each of its statements, and `Grows`, what the
  statements of other calls leave it of that;
* `Books`, what the stored buckets and the ended calls have to do with each other;
* `RateOk`, the invariant of every run: no window allows more than its limit, calls are refused
  only in full windows, and the table stays within its capacity;
* `WindowOpen`, the steps on which no window with a stored bucket ends under a call that has read
  its time under the capacity lock;
* `rate_limits`: in runs of such steps, no call ends with a unique violation either.
-/

namespace ChatEngine
namespace Postgres

open Lib
open Models

section Invariant

variable {κ : Type} [DecidableEq κ] (L : RateLimits κ)

/-- The call holds the capacity lock, and deletes buckets that ended by a time. -/
def HoldsCap (s : RateState κ) (c : CallId) (deleted : List (BucketKey κ)) (upTo : Timestamp) :
    Prop :=
  s.capLock = some c ∧ ∀ k ∈ deleted, s.rowLock k = none ∧ L.resetAt k ≤ upTo

/-- A bucket that is not stored has allowed nothing. -/
def Unused (s : RateState κ) (k : BucketKey κ) : Prop := k ∉ s.buckets.keys → s.allowed k = 0

/-- The time that a transaction has read lies in its window.  No one inserts buckets beside the
second transaction. -/
structure InWindow (s : RateState κ) (c : CallId) (tx : Deleted κ) (pass : Pass κ) : Prop where
  past : pass.now ≤ s.clock
  inside : pass.now < L.resetAt pass.key
  second : ∀ deleted ∈ tx, HoldsCap L s c deleted pass.now ∧ Unused s pass.key

/-- The stored bucket has no allowance left. -/
def Full (s : RateState κ) (k : BucketKey κ) : Prop :=
  ∃ r ∈ s.buckets, r.key = k ∧ L.limit k ≤ r.eventCount

/-- What a call may rely on before the statement. -/
def PhaseOk (s : RateState κ) (c : CallId) : Phase κ → Prop
  | .idle => True
  | .opening _ => True
  | .update tx pass tries => InWindow L s c tx pass ∧ tries ≤ 1 ∧
      (tries = 1 → L.resetAt pass.key ≤ s.clock ∨ pass.key ∈ s.buckets.keys)
  | .read tx pass tries => InWindow L s c tx pass ∧ tries ≤ 1 ∧
      (tries = 1 → L.resetAt pass.key ≤ s.clock ∨ Full L s pass.key)
  | .granted tx pass count => InWindow L s c tx pass ∧ s.rowLock pass.key = some c ∧
      ∃ r ∈ s.buckets, r.key = pass.key ∧ r.eventCount + 1 = count ∧ count ≤ L.limit pass.key
  | .refused tx pass _ _ => InWindow L s c tx pass ∧ L.limit pass.key ≤ s.allowed pass.key
  | .queueing _ => True
  | .clearing _ => s.capLock = some c
  | .timing deleted _ => HoldsCap L s c deleted s.clock
  | .counting deleted pass => InWindow L s c (some deleted) pass ∧
      (pass.key ∈ s.buckets.keys → L.resetAt pass.key ≤ s.clock)
  | .inserting deleted pass => InWindow L s c (some deleted) pass ∧
      (pass.key ∈ s.buckets.keys → L.resetAt pass.key ≤ s.clock) ∧ s.seen deleted < L.maxBuckets
  | .inserted deleted pass => InWindow L s c (some deleted) pass ∧
      pass.key ∉ s.buckets.keys ∧ s.seen deleted < L.maxBuckets
  | .pruneQueueing => True
  | .pruneClearing => s.capLock = some c
  | .pruned deleted => HoldsCap L s c deleted s.clock

/-- The statement is executed under the capacity lock. -/
def Phase.Locked : Phase κ → Prop
  | .update (some _) _ _ => True
  | .read (some _) _ _ => True
  | .granted (some _) _ _ => True
  | .refused (some _) _ _ _ => True
  | .clearing _ => True
  | .timing _ _ => True
  | .counting _ _ => True
  | .inserting _ _ => True
  | .inserted _ _ => True
  | .pruneClearing => True
  | .pruned _ => True
  | _ => False

/-- The stored buckets count the calls that were allowed. -/
structure Books (s : RateState κ) : Prop where
  rows : ∀ r ∈ s.buckets, r.expiresAt = L.resetAt r.key ∧ r.eventCount = s.allowed r.key
  absent : ∀ k, k ∉ s.buckets.keys → s.clock < L.resetAt k → s.allowed k = 0
  within : ∀ k, s.allowed k ≤ L.limit k
  refusals : ∀ r ∈ s.log, r.isDecided false = true → L.limit r.key ≤ s.allowed r.key
  bounded : s.buckets.count ≤ L.maxBuckets

/-- The invariant of every run. -/
structure RateOk (s : RateState κ) : Prop where
  books : Books L s
  phases : ∀ c, PhaseOk L s c (s.calls c)
  rowLocks : ∀ k c, s.rowLock k = some c →
    ∃ tx pass count, s.calls c = .granted tx pass count ∧ pass.key = k
  capLocks : ∀ c, s.capLock = some c → (s.calls c).Locked

/-- What the steps of others leave to a call. -/
structure Grows (c : CallId) (s s' : RateState κ) : Prop where
  clock : s.clock ≤ s'.clock
  capLock : s.capLock = some c → s'.capLock = some c
  mine : ∀ k, s.rowLock k = some c →
    s'.rowLock k = some c ∧ ∀ r ∈ s.buckets, r.key = k → r ∈ s'.buckets
  unlocked : ∀ k, L.resetAt k ≤ s.clock → s.rowLock k = none → s'.rowLock k = none
  allowed : ∀ k, s.allowed k ≤ s'.allowed k
  rows : ∀ r ∈ s.buckets, L.resetAt r.key ≤ s'.clock ∨
    ∃ r' ∈ s'.buckets, r'.key = r.key ∧ r.eventCount ≤ r'.eventCount
  held : s.capLock = some c → s'.buckets.keys = s.buckets.keys ∧
    ∀ k, k ∉ s.buckets.keys → s'.allowed k = s.allowed k

variable {L} {s s' : RateState κ} {c c' : CallId} {tx : Deleted κ} {pass : Pass κ}

theorem Grows.holdsCap (h : Grows L c s s') {deleted : List (BucketKey κ)} {upTo : Timestamp}
    (hpast : upTo ≤ s.clock) (hcap : HoldsCap L s c deleted upTo) :
    HoldsCap L s' c deleted upTo := by
  refine ⟨h.capLock hcap.1, ?_⟩
  intro k hk
  obtain ⟨hfree, hended⟩ := hcap.2 k hk
  exact ⟨h.unlocked k (le_trans hended hpast) hfree, hended⟩

theorem Grows.inWindow (h : Grows L c s s') (hin : InWindow L s c tx pass) :
    InWindow L s' c tx pass where
  past := le_trans hin.past h.clock
  inside := hin.inside
  second := by
    intro deleted hdeleted
    obtain ⟨hcap, hunused⟩ := hin.second deleted hdeleted
    obtain ⟨hkeys, hallowed⟩ := h.held hcap.1
    refine ⟨h.holdsCap hin.past hcap, ?_⟩
    intro habsent
    rw [hkeys] at habsent
    rw [hallowed _ habsent]
    exact hunused habsent

theorem Grows.ended (h : Grows L c s s') {k : BucketKey κ} (hended : L.resetAt k ≤ s.clock) :
    L.resetAt k ≤ s'.clock :=
  le_trans hended h.clock

theorem Grows.seen (h : Grows L c s s') (hcap : s.capLock = some c)
    (deleted : List (BucketKey κ)) : s'.seen deleted = s.seen deleted := by
  unfold RateState.seen
  rw [Table.countWhere_eq_keys s'.buckets fun k => k ∉ deleted,
    Table.countWhere_eq_keys s.buckets fun k => k ∉ deleted, (h.held hcap).1]

/-- Other calls leave a call what it relies on. -/
theorem PhaseOk.grows {p : Phase κ} (h : PhaseOk L s c p) (hgrows : Grows L c s s') :
    PhaseOk L s' c p := by
  cases p with
  | idle => trivial
  | opening owner => trivial
  | queueing owner => trivial
  | pruneQueueing => trivial
  | clearing owner => exact hgrows.capLock h
  | pruneClearing => exact hgrows.capLock h
  | timing deleted owner =>
      have hcap := hgrows.holdsCap (le_refl _) h
      exact ⟨hcap.1, fun k hk => ⟨(hcap.2 k hk).1, hgrows.ended (h.2 k hk).2⟩⟩
  | pruned deleted =>
      have hcap := hgrows.holdsCap (le_refl _) h
      exact ⟨hcap.1, fun k hk => ⟨(hcap.2 k hk).1, hgrows.ended (h.2 k hk).2⟩⟩
  | update tx pass tries =>
      obtain ⟨hin, hle, hagain⟩ := h
      refine ⟨hgrows.inWindow hin, hle, fun htries => ?_⟩
      rcases hagain htries with hended | hstored
      · exact .inl (hgrows.ended hended)
      · obtain ⟨r, hr, hkey⟩ := Table.mem_keys.mp hstored
        rw [← hkey]
        rcases hgrows.rows r hr with hended | ⟨r', hr', hkey', -⟩
        · exact .inl hended
        · exact .inr (Table.mem_keys.mpr ⟨r', hr', hkey'⟩)
  | read tx pass tries =>
      obtain ⟨hin, hle, hagain⟩ := h
      refine ⟨hgrows.inWindow hin, hle, fun htries => ?_⟩
      rcases hagain htries with hended | ⟨r, hr, hkey, hfull⟩
      · exact .inl (hgrows.ended hended)
      · rcases hgrows.rows r hr with hended | ⟨r', hr', hkey', hcount⟩
        · rw [hkey] at hended
          exact .inl hended
        · exact .inr ⟨r', hr', hkey'.trans hkey, le_trans hfull hcount⟩
  | granted tx pass count =>
      obtain ⟨hin, hlock, r, hr, hkey, hcount⟩ := h
      obtain ⟨hlock', hrows⟩ := hgrows.mine _ hlock
      exact ⟨hgrows.inWindow hin, hlock', r, hrows r hr hkey, hkey, hcount⟩
  | refused tx pass count observedAt =>
      exact ⟨hgrows.inWindow h.1, le_trans h.2 (hgrows.allowed _)⟩
  | counting deleted pass =>
      obtain ⟨hin, hstored⟩ := h
      have hkeys := (hgrows.held (hin.second deleted rfl).1.1).1
      refine ⟨hgrows.inWindow hin, fun hmem => ?_⟩
      rw [hkeys] at hmem
      exact hgrows.ended (hstored hmem)
  | inserting deleted pass =>
      obtain ⟨hin, hstored, hseen⟩ := h
      have hcap := (hin.second deleted rfl).1.1
      refine ⟨hgrows.inWindow hin, fun hmem => ?_, ?_⟩
      · rw [(hgrows.held hcap).1] at hmem
        exact hgrows.ended (hstored hmem)
      · rw [hgrows.seen hcap]
        exact hseen
  | inserted deleted pass =>
      obtain ⟨hin, habsent, hseen⟩ := h
      have hcap := (hin.second deleted rfl).1.1
      refine ⟨hgrows.inWindow hin, ?_, ?_⟩
      · rw [(hgrows.held hcap).1]
        exact habsent
      · rw [hgrows.seen hcap]
        exact hseen

/-! ## One statement -/

variable (L) in
/-- What a statement of the call changes for the others. -/
structure Advances (c : CallId) (s s' : RateState κ) : Prop where
  grows : ∀ c' ≠ c, Grows L c' s s'
  calls : ∀ c' ≠ c, s'.calls c' = s.calls c'
  rowLock : ∀ k, ∀ c' ≠ c, s'.rowLock k = some c' → s.rowLock k = some c'
  capLock : ∀ c' ≠ c, s'.capLock = some c' → s.capLock = some c'

theorem RateOk.advance (h : RateOk L s) (hadvances : Advances L c s s') (hbooks : Books L s')
    (hown : PhaseOk L s' c (s'.calls c))
    (hrow : ∀ k, s'.rowLock k = some c →
      ∃ tx pass count, s'.calls c = .granted tx pass count ∧ pass.key = k)
    (hcap : s'.capLock = some c → (s'.calls c).Locked) : RateOk L s' where
  books := hbooks
  phases := by
    intro c'
    by_cases hc : c' = c
    · rw [hc]
      exact hown
    · rw [hadvances.calls c' hc]
      exact (h.phases c').grows (hadvances.grows c' hc)
  rowLocks := by
    intro k c' hlock
    by_cases hc : c' = c
    · subst hc
      exact hrow k hlock
    · rw [hadvances.calls c' hc]
      exact h.rowLocks k c' (hadvances.rowLock k c' hc hlock)
  capLocks := by
    intro c' hlock
    by_cases hc : c' = c
    · subst hc
      exact hcap hlock
    · rw [hadvances.calls c' hc]
      exact h.capLocks c' (hadvances.capLock c' hc hlock)

/-- The books are about the clock, the buckets and the log. -/
theorem Books.of_same (h : Books L s) (hclock : s'.clock = s.clock)
    (hbuckets : s'.buckets = s.buckets) (hlog : s'.log = s.log) : Books L s' := by
  have hallowed : s'.allowed = s.allowed := by
    unfold RateState.allowed
    rw [hlog]
  constructor
  · rw [hbuckets, hallowed]
    exact h.rows
  · rw [hbuckets, hallowed, hclock]
    exact h.absent
  · rw [hallowed]
    exact h.within
  · rw [hlog, hallowed]
    exact h.refusals
  · rw [hbuckets]
    exact h.bounded

variable {p q : Phase κ}

theorem grows_moveTo : Grows L c' s (s.moveTo c p) where
  clock := le_refl _
  capLock hlock := hlock
  mine _ hlock := ⟨hlock, fun _ hr _ => hr⟩
  unlocked _ _ hlock := hlock
  allowed _ := le_refl _
  rows r hr := .inr ⟨r, hr, rfl, le_refl _⟩
  held _ := ⟨rfl, fun _ _ => rfl⟩

theorem advances_moveTo : Advances L c s (s.moveTo c p) where
  grows _ _ := grows_moveTo
  calls _ hne := Function.update_of_ne hne _ _
  rowLock _ _ _ hlock := hlock
  capLock _ _ hlock := hlock

/-- A call without a row lock goes on to a statement that it is ready for. -/
theorem RateOk.moveTo (h : RateOk L s) (hcall : s.calls c = q)
    (hfree : ∀ tx pass count, q ≠ .granted tx pass count) (hok : PhaseOk L s c p)
    (hlocked : q.Locked → p.Locked) : RateOk L (s.moveTo c p) := by
  have hself : (s.moveTo c p).calls c = p := Function.update_self _ _ _
  apply h.advance advances_moveTo (h.books.of_same rfl rfl rfl)
  · rw [hself]
    exact hok.grows grows_moveTo
  · intro k hlock
    obtain ⟨tx, pass, count, hgranted, -⟩ := h.rowLocks k c hlock
    exact absurd (hcall.symm.trans hgranted) (hfree tx pass count)
  · intro hlock
    rw [hself]
    exact hlocked (hcall ▸ h.capLocks c hlock)

/-- The capacity lock is free, and the call takes it. -/
theorem takeCap_spec (h : RateOk L s) (hcall : s.calls c = q)
    (hfree : ∀ tx pass count, q ≠ .granted tx pass count) (hstep : s.takeCap c p = some s')
    (hok : ∀ s : RateState κ, s.capLock = some c → PhaseOk L s c p) (hlocked : p.Locked) :
    RateOk L s' ∧ Advances L c s s' := by
  unfold RateState.takeCap at hstep
  split at hstep
  · rename_i hnone
    obtain rfl := Option.some.inj hstep
    have hother : ∀ c', s.capLock ≠ some c' := by
      intro c'
      rw [hnone]
      exact nofun
    have hadvances : Advances L c s { s.moveTo c p with capLock := some c } :=
      { grows := fun c' _ =>
          { clock := le_refl _
            capLock := fun hlock => absurd hlock (hother c')
            mine := fun _ hlock => ⟨hlock, fun _ hr _ => hr⟩
            unlocked := fun _ _ hlock => hlock
            allowed := fun _ => le_refl _
            rows := fun r hr => .inr ⟨r, hr, rfl, le_refl _⟩
            held := fun hlock => absurd hlock (hother c') }
        calls := fun _ hne => Function.update_of_ne hne _ _
        rowLock := fun _ _ _ hlock => hlock
        capLock := fun _ hne hlock => absurd (Option.some.inj hlock).symm hne }
    have hself : (s.moveTo c p).calls c = p := Function.update_self _ _ _
    refine ⟨h.advance hadvances (h.books.of_same rfl rfl rfl) ?_ ?_ ?_, hadvances⟩
    · show PhaseOk L _ c ((s.moveTo c p).calls c)
      rw [hself]
      exact hok _ rfl
    · intro k hlock
      obtain ⟨tx, pass, count, hgranted, -⟩ := h.rowLocks k c hlock
      exact absurd (hcall.symm.trans hgranted) (hfree tx pass count)
    · intro _
      show ((s.moveTo c p).calls c).Locked
      rw [hself]
      exact hlocked
  · cases hstep

/-- Buckets are deleted when they have expired and no update of them is open. -/
theorem clear_spec {next : List (BucketKey κ) → Phase κ} (h : RateOk L s) (hcall : s.calls c = q)
    (hfree : ∀ tx pass count, q ≠ .granted tx pass count) (hstep : s.clear c next = some s')
    (hcap : s.capLock = some c)
    (hok : ∀ deleted, HoldsCap L s c deleted s.clock → PhaseOk L s c (next deleted))
    (hlocked : ∀ deleted, (next deleted).Locked) : RateOk L s' ∧ Advances L c s s' := by
  unfold RateState.clear at hstep
  split at hstep
  · rename_i hunlocked
    obtain rfl := Option.some.inj hstep
    refine ⟨h.moveTo hcall hfree (hok _ ⟨hcap, ?_⟩) fun _ => hlocked _, advances_moveTo⟩
    intro k hk
    refine ⟨hunlocked k hk, ?_⟩
    obtain ⟨r, hr, rfl⟩ := List.mem_map.mp hk
    obtain ⟨hrow, hexpired⟩ := List.mem_filter.mp hr
    rw [← (h.books.rows r hrow).1]
    exact of_decide_eq_true hexpired
  · cases hstep

/-! ## Ends of transactions -/

variable {deleted : List (BucketKey κ)} {ended : List (RateRecord κ)}
variable {buckets : Table (RateBucket κ) (BucketKey κ) RateBucket.key}

theorem allowed_close {next : Phase κ} {k : BucketKey κ} :
    (s.close c buckets ended next).allowed k =
      s.allowed k + ended.countP fun r => r.key = k ∧ r.isDecided true = true :=
  List.countP_append

@[simp] theorem mem_without {r : RateBucket κ} :
    r ∈ s.without deleted ↔ r ∈ s.buckets ∧ r.key ∉ deleted :=
  Table.mem_deleteWhere

theorem without_nil : s.without [] = s.buckets :=
  Table.deleteWhere_eq_self fun _ _ => List.not_mem_nil

theorem count_without : (s.without deleted).count = s.seen deleted := rfl

/-- A commit releases the locks of its call only, and leaves what others have locked. -/
theorem advances_close {next : Phase κ}
    (hrows : ∀ r ∈ s.buckets, L.resetAt r.key ≤ s.clock ∨
      ∃ r' ∈ buckets, r'.key = r.key ∧ r.eventCount ≤ r'.eventCount)
    (hmine : ∀ c' ≠ c, ∀ r ∈ s.buckets, s.rowLock r.key = some c' → r ∈ buckets)
    (hheld : ∀ c' ≠ c, s.capLock = some c' → buckets.keys = s.buckets.keys ∧
      ∀ r ∈ ended, r.isDecided true = true → r.key ∈ s.buckets.keys) :
    Advances L c s (s.close c buckets ended next) := by
  have hrelease : ∀ {lock : Option CallId} {c' : CallId}, c' ≠ c → lock = some c' →
      (if lock = some c then none else lock) = some c' := by
    intro lock c' hne hlock
    rw [if_neg, hlock]
    rw [hlock]
    exact fun heq => hne (Option.some.inj heq)
  have hreleased : ∀ {lock : Option CallId} {c' : CallId},
      (if lock = some c then none else lock) = some c' → lock = some c' := by
    intro lock c' hlock
    split at hlock
    · cases hlock
    · exact hlock
  refine ⟨?_, fun _ hne => Function.update_of_ne hne _ _, fun _ _ _ => hreleased,
    fun _ _ => hreleased⟩
  intro c' hne
  constructor
  · exact le_refl _
  · exact hrelease hne
  · intro k hlock
    refine ⟨hrelease hne hlock, fun r hr hkey => hmine c' hne r hr ?_⟩
    rw [hkey]
    exact hlock
  · intro k _ hlock
    show (if s.rowLock k = some c then none else s.rowLock k) = none
    rw [hlock]
    rfl
  · intro k
    rw [allowed_close]
    exact Nat.le_add_right _ _
  · exact hrows
  · intro hlock
    obtain ⟨hkeys, hknown⟩ := hheld c' hne hlock
    refine ⟨hkeys, fun k hk => ?_⟩
    rw [allowed_close, List.countP_eq_zero.mpr]
    · rfl
    · intro r hr hcounted
      obtain ⟨hkey, hallowed⟩ := of_decide_eq_true hcounted
      rw [← hkey] at hk
      exact hk (hknown r hr hallowed)

/-- A call ends with its transaction. -/
theorem RateOk.close (h : RateOk L s) (hadvances : Advances L c s (s.close c buckets ended .idle))
    (hbooks : Books L (s.close c buckets ended .idle)) :
    RateOk L (s.close c buckets ended .idle) := by
  have hreleased : ∀ {lock : Option CallId}, (if lock = some c then none else lock) ≠ some c := by
    intro lock
    split
    · exact nofun
    · assumption
  have hself : (s.close c buckets ended .idle).calls c = .idle := Function.update_self _ _ _
  apply h.advance hadvances hbooks
  · rw [hself]
    trivial
  · intro k hlock
    exact absurd hlock hreleased
  · intro hlock
    exact absurd hlock hreleased

/-- The first transaction deletes nothing, and the second one holds the lock. -/
theorem InWindow.deletions (hin : InWindow L s c tx pass) :
    (∀ k ∈ tx.getD [], s.rowLock k = none ∧ L.resetAt k ≤ pass.now) ∧
      (tx.getD [] = [] ∨ s.capLock = some c) := by
  cases tx with
  | none => exact ⟨nofun, .inl rfl⟩
  | some deleted =>
      obtain ⟨hcap, hdeleted⟩ := (hin.second deleted rfl).1
      exact ⟨hdeleted, .inr hcap⟩

theorem InWindow.key_kept (hin : InWindow L s c tx pass) : pass.key ∉ tx.getD [] :=
  fun hmem => absurd (lt_of_lt_of_le hin.inside (hin.deletions.1 _ hmem).2) (lt_irrefl _)

/-- Calls that end without being allowed, with or without their deletions. -/
theorem close_without_spec (h : RateOk L s)
    (hdeleted : ∀ k ∈ deleted, s.rowLock k = none ∧ L.resetAt k ≤ s.clock)
    (hcap : deleted = [] ∨ s.capLock = some c)
    (hended : ∀ r ∈ ended, r.isDecided true = false ∧
      (r.isDecided false = true → L.limit r.key ≤ s.allowed r.key)) :
    RateOk L (s.close c (s.without deleted) ended .idle) ∧
      Advances L c s (s.close c (s.without deleted) ended .idle) := by
  have hadvances : Advances L c s (s.close c (s.without deleted) ended .idle) := by
    apply advances_close
    · intro r hr
      by_cases hmem : r.key ∈ deleted
      · exact .inl (hdeleted _ hmem).2
      · exact .inr ⟨r, mem_without.mpr ⟨hr, hmem⟩, rfl, le_refl _⟩
    · intro c' _ r hr hlock
      refine mem_without.mpr ⟨hr, fun hmem => ?_⟩
      rw [(hdeleted _ hmem).1] at hlock
      cases hlock
    · intro c' hne hlock
      rcases hcap with rfl | hcap
      · rw [without_nil]
        refine ⟨rfl, fun r hr hallowed => ?_⟩
        rw [(hended r hr).1] at hallowed
        cases hallowed
      · rw [hcap] at hlock
        exact absurd (Option.some.inj hlock).symm hne
  have hallowed : ∀ k, (s.close c (s.without deleted) ended .idle).allowed k = s.allowed k := by
    intro k
    rw [allowed_close, List.countP_eq_zero.mpr]
    · rfl
    · intro r hr hcounted
      rw [(hended r hr).1] at hcounted
      exact absurd (of_decide_eq_true hcounted).2 Bool.false_ne_true
  refine ⟨h.close hadvances ⟨?_, ?_, ?_, ?_, ?_⟩, hadvances⟩
  · intro r hr
    rw [hallowed]
    exact h.books.rows r (mem_without.mp hr).1
  · intro k hk hclock
    rw [hallowed]
    refine h.books.absent k (fun hstored => ?_) hclock
    obtain ⟨r, hr, rfl⟩ := Table.mem_keys.mp hstored
    by_cases hmem : r.key ∈ deleted
    · exact absurd (lt_of_lt_of_le hclock (hdeleted _ hmem).2) (lt_irrefl _)
    · exact hk (Table.mem_keys.mpr ⟨r, mem_without.mpr ⟨hr, hmem⟩, rfl⟩)
  · intro k
    rw [hallowed]
    exact h.books.within k
  · intro r hr hrefused
    rw [hallowed]
    rcases List.mem_append.mp hr with hold | hnew
    · exact h.books.refusals r hold hrefused
    · exact (hended r hnew).2 hrefused
  · exact le_trans (Table.count_deleteWhere_le _ _) h.books.bounded

/-- An error leaves the buckets as they are. -/
theorem close_error_spec (h : RateOk L s) {r : RateRecord κ}
    (hr : r.isDecided true = false ∧ r.isDecided false = false) :
    RateOk L (s.close c s.buckets [r] .idle) ∧
      Advances L c s (s.close c s.buckets [r] .idle) := by
  have hspec : (∀ r' ∈ [r], r'.isDecided true = false ∧
        (r'.isDecided false = true → L.limit r'.key ≤ s.allowed r'.key)) →
      RateOk L (s.close c (s.without []) [r] .idle) ∧
        Advances L c s (s.close c (s.without []) [r] .idle) :=
    close_without_spec h nofun (.inl rfl)
  rw [without_nil] at hspec
  apply hspec
  intro r' hr'
  rw [List.mem_singleton.mp hr']
  refine ⟨hr.1, fun hrefused => ?_⟩
  rw [hr.2] at hrefused
  cases hrefused

omit [DecidableEq κ] in
theorem isDecided_decision {k : BucketKey κ} {b allowed : Bool} {count : Nat} {now : Timestamp} :
    RateRecord.isDecided b ⟨k, .decided (L.decision allowed count now k)⟩ = (allowed == b) := rfl

/-- One more call is allowed in one window. -/
theorem allowed_close_granted {next : Phase κ} {k k' : BucketKey κ} {count : Nat}
    {now : Timestamp} :
    (s.close c buckets [⟨k, .decided (L.decision true count now k)⟩] next).allowed k' =
      s.allowed k' + if k = k' then 1 else 0 := by
  rw [allowed_close, List.countP_singleton]
  by_cases hk : k = k'
  · simp [hk, isDecided_decision]
  · simp [hk]

/-- The row that an update has locked counts one call more. -/
theorem granted_spec (h : RateOk L s) {count : Nat} (hcall : s.calls c = .granted tx pass count)
    (hstep : s.statement L c = some s') : RateOk L s' ∧ Advances L c s s' := by
  have hok := h.phases c
  unfold RateState.statement at hstep
  rw [hcall] at hstep hok
  obtain rfl := Option.some.inj hstep
  obtain ⟨hin, hlock, row, hrow, hkey, hcount, hlimit⟩ := hok
  obtain ⟨hdeleted, hcap⟩ := hin.deletions
  have hstored : pass.key ∈ s.buckets.keys := Table.mem_keys.mpr ⟨row, hrow, hkey⟩
  -- the committed rows
  have hmem : ∀ r, r ∈ (s.without (tx.getD [])).updateWhere (fun r => r.key = pass.key)
      (fun r => { r with eventCount := r.eventCount + 1 }) (fun _ => rfl) ↔
      (r ∈ s.buckets ∧ r.key ∉ tx.getD [] ∧ r.key ≠ pass.key) ∨
        r = { row with eventCount := row.eventCount + 1 } := by
    intro r
    rw [Table.mem_updateWhere, mem_without]
    constructor
    · rintro (⟨⟨hr, hkept⟩, hother⟩ | ⟨r', hr', hkey', rfl⟩)
      · exact .inl ⟨hr, hkept, hother⟩
      · right
        rw [Table.eq_of_key (mem_without.mp hr').1 hrow (hkey'.trans hkey.symm)]
    · rintro (⟨hr, hkept, hother⟩ | rfl)
      · exact .inl ⟨⟨hr, hkept⟩, hother⟩
      · refine .inr ⟨row, mem_without.mpr ⟨hrow, ?_⟩, hkey, rfl⟩
        rw [hkey]
        exact hin.key_kept
  refine ⟨h.close ?advances ⟨?rows, ?absent, ?within, ?refusals, ?bounded⟩, ?advances⟩
  case advances =>
    apply advances_close
    · intro r hr
      by_cases hgone : r.key ∈ tx.getD []
      · exact .inl (le_trans (hdeleted _ hgone).2 hin.past)
      · right
        by_cases hsame : r.key = pass.key
        · have hrow' : r = row := Table.eq_of_key hr hrow (hsame.trans hkey.symm)
          rw [hrow']
          exact ⟨_, (hmem _).mpr (.inr rfl), rfl, Nat.le_succ _⟩
        · exact ⟨r, (hmem r).mpr (.inl ⟨hr, hgone, hsame⟩), rfl, le_refl _⟩
    · intro c' hne r hr hlock'
      refine (hmem r).mpr (.inl ⟨hr, ?_, ?_⟩)
      · intro hgone
        rw [(hdeleted _ hgone).1] at hlock'
        cases hlock'
      · intro hsame
        rw [hsame, hlock] at hlock'
        exact hne (Option.some.inj hlock').symm
    · intro c' hne hlock'
      rcases hcap with hnone | hcap
      · rw [hnone, without_nil]
        refine ⟨Table.keys_updateWhere, fun r hr _ => ?_⟩
        rw [List.mem_singleton.mp hr]
        exact hstored
      · rw [hcap] at hlock'
        exact absurd (Option.some.inj hlock').symm hne
  case rows =>
    intro r hr
    rw [allowed_close_granted]
    rcases (hmem r).mp hr with ⟨hold, -, hother⟩ | rfl
    · rw [if_neg fun heq => hother heq.symm]
      exact h.books.rows r hold
    · rw [if_pos hkey.symm]
      exact ⟨(h.books.rows row hrow).1, congrArg (· + 1) (h.books.rows row hrow).2⟩
  case absent =>
    intro k hk hclock
    have habsent : k ∉ s.buckets.keys := by
      intro hmemk
      obtain ⟨r, hr, rfl⟩ := Table.mem_keys.mp hmemk
      apply hk
      by_cases hsame : r.key = pass.key
      · exact Table.mem_keys.mpr ⟨_, (hmem _).mpr (.inr rfl), hkey.trans hsame.symm⟩
      · refine Table.mem_keys.mpr ⟨r, (hmem r).mpr (.inl ⟨hr, fun hgone => ?_, hsame⟩), rfl⟩
        have hended := le_trans (hdeleted _ hgone).2 hin.past
        exact absurd (lt_of_lt_of_le hclock hended) (lt_irrefl _)
    have hne : pass.key ≠ k := by
      rintro rfl
      exact habsent hstored
    rw [allowed_close_granted, if_neg hne]
    exact h.books.absent k habsent hclock
  case within =>
    intro k
    rw [allowed_close_granted]
    split
    · rename_i heq
      subst heq
      have hbooked := (h.books.rows row hrow).2
      rw [hkey] at hbooked
      omega
    · exact h.books.within k
  case refusals =>
    intro r hr hrefused
    rcases List.mem_append.mp hr with hold | hnew
    · rw [allowed_close]
      exact le_trans (h.books.refusals r hold hrefused) (Nat.le_add_right _ _)
    · rw [List.mem_singleton.mp hnew] at hrefused
      cases hrefused
  case bounded =>
    show ((s.without (tx.getD [])).updateWhere (fun r => r.key = pass.key)
      (fun r => { r with eventCount := r.eventCount + 1 }) fun _ => rfl).count ≤ _
    rw [Table.count_updateWhere]
    exact le_trans (Table.count_deleteWhere_le _ _) h.books.bounded

/-- The new bucket counts the call that inserts it. -/
theorem inserted_spec (h : RateOk L s) (hcall : s.calls c = .inserted deleted pass)
    (hstep : s.statement L c = some s') : RateOk L s' ∧ Advances L c s s' := by
  have hok := h.phases c
  unfold RateState.statement at hstep
  rw [hcall] at hstep hok
  obtain rfl := Option.some.inj hstep
  obtain ⟨hin, habsent, hseen⟩ := hok
  obtain ⟨⟨hcap, hdeleted⟩, hunused⟩ := hin.second deleted rfl
  have hnone : s.allowed pass.key = 0 := hunused habsent
  have hother : ∀ r ∈ s.buckets, r.key ≠ pass.key :=
    fun r hr heq => habsent (Table.mem_keys.mpr ⟨r, hr, heq⟩)
  have hkept : ∀ r ∈ s.buckets, r.key ∉ deleted →
      r ∈ (s.without deleted).upsert ⟨pass.key, 1, L.resetAt pass.key⟩ :=
    fun r hr hmem => Table.mem_upsert.mpr (.inr ⟨mem_without.mpr ⟨hr, hmem⟩, hother r hr⟩)
  refine ⟨h.close ?advances ⟨?rows, ?absent, ?within, ?refusals, ?bounded⟩, ?advances⟩
  case advances =>
    apply advances_close
    · intro r hr
      by_cases hgone : r.key ∈ deleted
      · exact .inl (le_trans (hdeleted _ hgone).2 hin.past)
      · exact .inr ⟨r, hkept r hr hgone, rfl, le_refl _⟩
    · intro c' _ r hr hlock
      refine hkept r hr fun hgone => ?_
      rw [(hdeleted _ hgone).1] at hlock
      cases hlock
    · intro c' hne hlock
      rw [hcap] at hlock
      exact absurd (Option.some.inj hlock).symm hne
  case rows =>
    intro r hr
    rw [allowed_close_granted]
    rcases Table.mem_upsert.mp hr with rfl | ⟨hold, hne⟩
    · rw [if_pos rfl]
      refine ⟨rfl, ?_⟩
      show 1 = s.allowed pass.key + 1
      rw [hnone]
    · rw [if_neg fun heq => hne heq.symm]
      exact h.books.rows r (mem_without.mp hold).1
  case absent =>
    intro k hk hclock
    have hne : pass.key ≠ k := fun heq =>
      hk (Table.mem_keys.mpr ⟨_, Table.mem_upsert.mpr (.inl rfl), heq⟩)
    rw [allowed_close_granted, if_neg hne]
    refine h.books.absent k (fun hstored => ?_) hclock
    obtain ⟨r, hr, rfl⟩ := Table.mem_keys.mp hstored
    refine hk (Table.mem_keys.mpr ⟨r, hkept r hr fun hgone => ?_, rfl⟩)
    have hended := le_trans (hdeleted _ hgone).2 hin.past
    exact absurd (lt_of_lt_of_le hclock hended) (lt_irrefl _)
  case within =>
    intro k
    rw [allowed_close_granted]
    split
    · rename_i heq
      subst heq
      rw [hnone]
      exact (L.limiter pass.key.owner).limit_bounds.1
    · exact h.books.within k
  case refusals =>
    intro r hr hrefused
    rcases List.mem_append.mp hr with hold | hnew
    · rw [allowed_close]
      exact le_trans (h.books.refusals r hold hrefused) (Nat.le_add_right _ _)
    · rw [List.mem_singleton.mp hnew] at hrefused
      cases hrefused
  case bounded =>
    refine le_trans (Table.count_upsert_le _ _) ?_
    rw [count_without]
    exact hseen

/-! ## Every statement -/

theorem live_eq_some {k : BucketKey κ} {r : RateBucket κ} (h : Books L s) :
    s.live k = some r ↔ r ∈ s.buckets ∧ r.key = k ∧ s.clock < L.resetAt k := by
  unfold RateState.live
  rw [Option.filter_eq_some_iff, Table.find?_eq_some, decide_eq_true_eq]
  constructor
  · rintro ⟨⟨hr, hkey⟩, hclock⟩
    rw [(h.rows r hr).1, hkey] at hclock
    exact ⟨hr, hkey, hclock⟩
  · rintro ⟨hr, rfl, hclock⟩
    rw [(h.rows r hr).1]
    exact ⟨⟨hr, rfl⟩, hclock⟩

/-- What is not found is not stored, or has expired. -/
theorem live_eq_none {k : BucketKey κ} (h : Books L s) (hnone : s.live k = none)
    (hstored : k ∈ s.buckets.keys) : L.resetAt k ≤ s.clock := by
  obtain ⟨r, hr, hkey⟩ := Table.mem_keys.mp hstored
  by_contra hclock
  rw [(live_eq_some h).mpr ⟨hr, hkey, not_le.mp hclock⟩] at hnone
  cases hnone

/-- A row that is not locked and has not expired is locked. -/
theorem advances_lockRow {k : BucketKey κ} (hnone : s.rowLock k = none)
    (hclock : s.clock < L.resetAt k) :
    Advances L c s { s.moveTo c p with rowLock := Function.update s.rowLock k (some c) } where
  grows c' _ :=
    { clock := le_refl _
      capLock := fun hlock => hlock
      mine := by
        intro k' hlock
        have hne : k' ≠ k := by
          rintro rfl
          rw [hnone] at hlock
          cases hlock
        exact ⟨(Function.update_of_ne hne _ _).trans hlock, fun _ hr _ => hr⟩
      unlocked := by
        intro k' hended hlock
        have hne : k' ≠ k := by
          rintro rfl
          exact absurd (lt_of_lt_of_le hclock hended) (lt_irrefl _)
        exact (Function.update_of_ne hne _ _).trans hlock
      allowed := fun _ => le_refl _
      rows := fun r hr => .inr ⟨r, hr, rfl, le_refl _⟩
      held := fun _ => ⟨rfl, fun _ _ => rfl⟩ }
  calls _ hne := Function.update_of_ne hne _ _
  rowLock := by
    intro k' c' hne hlock
    change Function.update s.rowLock k (some c) k' = some c' at hlock
    by_cases hk : k' = k
    · rw [hk, Function.update_self] at hlock
      exact absurd (Option.some.inj hlock).symm hne
    · rwa [Function.update_of_ne hk] at hlock
  capLock _ _ hlock := hlock

/-- The `UPDATE` of a stored bucket: it waits for the bucket, or finds none with allowance. -/
theorem update_spec (h : RateOk L s) {tries : Nat} (hcall : s.calls c = .update tx pass tries)
    (hstep : s.statement L c = some s') : RateOk L s' ∧ Advances L c s s' := by
  have hlocked := h.capLocks c
  obtain ⟨hin, hle, hagain⟩ : PhaseOk L s c (.update tx pass tries) := hcall ▸ h.phases c
  unfold RateState.statement at hstep
  rw [hcall] at hstep hlocked
  dsimp only at hstep
  split at hstep
  · rename_i hnone
    obtain rfl := Option.some.inj hstep
    refine ⟨h.moveTo hcall nofun ⟨hin, hle, fun htries => ?_⟩ ?_, advances_moveTo⟩
    · rcases hagain htries with hended | hstored
      · exact .inl hended
      · by_cases hclock : L.resetAt pass.key ≤ s.clock
        · exact .inl hclock
        · obtain ⟨r, hr, hkey⟩ := Table.mem_keys.mp hstored
          refine .inr ⟨r, hr, hkey, ?_⟩
          rw [(live_eq_some h.books).mpr ⟨hr, hkey, not_le.mp hclock⟩, Option.filter_some] at hnone
          by_contra hless
          rw [if_pos (decide_eq_true (not_le.mp hless))] at hnone
          cases hnone
    · cases tx with
      | none => exact id
      | some deleted => exact id
  · rename_i row hfound
    split at hstep
    · rename_i hnone
      obtain rfl := Option.some.inj hstep
      obtain ⟨hlive, hless⟩ := Option.filter_eq_some_iff.mp hfound
      obtain ⟨hr, hkey, hclock⟩ := (live_eq_some h.books).mp hlive
      have hadvances := advances_lockRow (c := c) (p := .granted tx pass (row.eventCount + 1)) hnone
        hclock
      have hself : (s.moveTo c (.granted tx pass (row.eventCount + 1))).calls c =
          .granted tx pass (row.eventCount + 1) := Function.update_self _ _ _
      refine ⟨h.advance hadvances (h.books.of_same rfl rfl rfl) ?_ ?_ ?_, hadvances⟩
      · show PhaseOk L _ c ((s.moveTo c _).calls c)
        rw [hself]
        refine ⟨⟨hin.past, hin.inside, ?_⟩, Function.update_self _ _ _, row, hr, hkey, rfl, ?_⟩
        · intro deleted hdeleted
          obtain ⟨⟨hcap, hgone⟩, hunused⟩ := hin.second deleted hdeleted
          refine ⟨⟨hcap, fun k hk => ⟨?_, (hgone k hk).2⟩⟩, hunused⟩
          have hne : k ≠ pass.key := by
            rintro rfl
            exact absurd (lt_of_lt_of_le hin.inside (hgone _ hk).2) (lt_irrefl _)
          exact (Function.update_of_ne hne _ _).trans (hgone k hk).1
        · exact of_decide_eq_true hless
      · intro k hlock
        refine ⟨tx, pass, _, hself, ?_⟩
        by_contra hne
        have hold : s.rowLock k = some c :=
          (Function.update_of_ne (Ne.symm hne) _ _).symm.trans hlock
        obtain ⟨tx', pass', count', hcall', -⟩ := h.rowLocks k c hold
        rw [hcall] at hcall'
        cases hcall'
      · intro hlock
        show ((s.moveTo c _).calls c).Locked
        rw [hself]
        cases tx with
        | none => exact hlocked hlock
        | some deleted => trivial
    · cases hstep

/-- The `SELECT` of the bucket: the limit is reached, a bucket with allowance has come, or there
is none. -/
theorem read_spec (h : RateOk L s) {tries : Nat} (hcall : s.calls c = .read tx pass tries)
    (hstep : s.statement L c = some s') : RateOk L s' ∧ Advances L c s s' := by
  obtain ⟨hin, hle, hagain⟩ : PhaseOk L s c (.read tx pass tries) := hcall ▸ h.phases c
  have hrefused : ∀ count observedAt, (Phase.read tx pass tries).Locked →
      (Phase.refused tx pass count observedAt).Locked := by
    cases tx with
    | none => exact fun _ _ => id
    | some deleted => exact fun _ _ => id
  have hretried : ∀ tries', (Phase.read tx pass tries).Locked →
      (Phase.update tx pass tries').Locked := by
    cases tx with
    | none => exact fun _ => id
    | some deleted => exact fun _ => id
  unfold RateState.statement at hstep
  rw [hcall] at hstep
  dsimp only at hstep
  split at hstep
  · rename_i row hlive
    obtain ⟨hr, hkey, hclock⟩ := (live_eq_some h.books).mp hlive
    split at hstep
    · rename_i hfull
      obtain rfl := Option.some.inj hstep
      refine ⟨h.moveTo hcall nofun ⟨hin, ?_⟩ (hrefused _ _), advances_moveTo⟩
      rw [← hkey, ← (h.books.rows row hr).2, hkey]
      exact hfull
    · rename_i hless
      obtain rfl := Option.some.inj hstep
      -- the second reading of a window never finds allowance again
      have hfirst : tries = 0 := by
        by_contra hne
        rcases hagain (by omega) with hended | ⟨r, hr', hkey', hfull⟩
        · exact absurd (lt_of_lt_of_le hclock hended) (lt_irrefl _)
        · rw [Table.eq_of_key hr' hr (hkey'.trans hkey.symm)] at hfull
          exact hless hfull
      subst hfirst
      refine ⟨h.moveTo hcall nofun ⟨hin, le_refl 1, fun _ => ?_⟩ (hretried _), advances_moveTo⟩
      exact .inr (Table.mem_keys.mpr ⟨row, hr, hkey⟩)
  · obtain rfl := Option.some.inj hstep
    exact ⟨h.moveTo hcall nofun trivial id, advances_moveTo⟩
  · rename_i deleted hnone
    obtain rfl := Option.some.inj hstep
    exact ⟨h.moveTo hcall nofun ⟨hin, fun hstored => live_eq_none h.books hnone hstored⟩ id,
      advances_moveTo⟩

/-- What a statement of a call keeps, and what it leaves to the others. -/
theorem statement_spec (h : RateOk L s) (hstep : s.statement L c = some s') :
    RateOk L s' ∧ Advances L c s s' := by
  have hok := h.phases c
  have hbody := hstep
  unfold RateState.statement at hbody
  cases hcall : s.calls c with
  | update tx pass tries => exact update_spec h hcall hstep
  | read tx pass tries => exact read_spec h hcall hstep
  | granted tx pass count => exact granted_spec h hcall hstep
  | inserted deleted pass => exact inserted_spec h hcall hstep
  | idle =>
      rw [hcall] at hbody
      cases hbody
  | opening owner =>
      rw [hcall] at hbody
      obtain rfl := Option.some.inj hbody
      have hin : InWindow L s c none ⟨s.clock, L.bucketAt owner s.clock⟩ :=
        ⟨le_refl _, L.lt_resetAt owner s.clock, by intro _ hd; cases hd⟩
      exact ⟨h.moveTo hcall (by intro _ _ _ hq; cases hq)
        ⟨hin, Nat.zero_le 1, by intro hp; cases hp⟩ id, advances_moveTo⟩
  | timing deleted owner =>
      rw [hcall] at hbody hok
      obtain rfl := Option.some.inj hbody
      have hinside := L.lt_resetAt owner s.clock
      have hin : InWindow L s c (some deleted) ⟨s.clock, L.bucketAt owner s.clock⟩ := by
        refine ⟨le_refl _, hinside, ?_⟩
        rintro _ ⟨⟩
        exact ⟨hok, fun habsent => h.books.absent _ habsent hinside⟩
      exact ⟨h.moveTo hcall (by intro _ _ _ hq; cases hq)
        ⟨hin, Nat.zero_le 1, by intro hp; cases hp⟩ id, advances_moveTo⟩
  | queueing owner =>
      rw [hcall] at hbody
      exact takeCap_spec h hcall (by intro _ _ _ hq; cases hq) hbody (fun _ hcap => hcap) trivial
  | pruneQueueing =>
      rw [hcall] at hbody
      exact takeCap_spec h hcall (by intro _ _ _ hq; cases hq) hbody (fun _ hcap => hcap) trivial
  | clearing owner =>
      rw [hcall] at hbody hok
      exact clear_spec h hcall (by intro _ _ _ hq; cases hq) hbody hok (fun _ hcap => hcap)
        fun _ => trivial
  | pruneClearing =>
      rw [hcall] at hbody hok
      exact clear_spec h hcall (by intro _ _ _ hq; cases hq) hbody hok (fun _ hcap => hcap)
        fun _ => trivial
  | refused tx pass count observedAt =>
      rw [hcall] at hbody hok
      obtain rfl := Option.some.inj hbody
      obtain ⟨hdeleted, hcap⟩ := hok.1.deletions
      apply close_without_spec h _ hcap
      · intro r hr
        rw [List.mem_singleton.mp hr]
        exact ⟨rfl, fun _ => hok.2⟩
      · exact fun k hk => ⟨(hdeleted k hk).1, le_trans (hdeleted k hk).2 hok.1.past⟩
  | pruned deleted =>
      rw [hcall] at hbody hok
      obtain rfl := Option.some.inj hbody
      exact close_without_spec h hok.2 (.inr hok.1) (by intro _ hr; cases hr)
  | counting deleted pass =>
      rw [hcall] at hbody hok
      dsimp only at hbody
      split at hbody
      · obtain rfl := Option.some.inj hbody
        exact close_error_spec h ⟨rfl, rfl⟩
      · rename_i hseen
        obtain rfl := Option.some.inj hbody
        exact ⟨h.moveTo hcall (by intro _ _ _ hq; cases hq) ⟨hok.1, hok.2, not_le.mp hseen⟩ id,
          advances_moveTo⟩
  | inserting deleted pass =>
      rw [hcall] at hbody hok
      dsimp only at hbody
      split at hbody
      · obtain rfl := Option.some.inj hbody
        exact close_error_spec h ⟨rfl, rfl⟩
      · rename_i hnew
        obtain rfl := Option.some.inj hbody
        refine ⟨h.moveTo hcall (by intro _ _ _ hq; cases hq)
          ⟨hok.1, fun hstored => hnew ?_, hok.2.2⟩ id, advances_moveTo⟩
        exact ⟨Table.find?_isSome.mpr (Table.mem_keys.mp hstored), hok.1.key_kept⟩

theorem RateOk.start (h : RateStart s) : RateOk L s := by
  obtain ⟨t, rfl⟩ := h
  refine ⟨⟨?_, ?_, ?_, nofun, Nat.zero_le _⟩, fun _ => trivial, nofun, nofun⟩
  · exact fun r hr => absurd hr Table.not_mem_empty
  · exact fun _ _ _ => rfl
  · exact fun _ => Nat.zero_le _

theorem grows_tick {elapsed : Nat} : Grows L c s { s with clock := s.clock + elapsed } where
  clock := Int.le_add_of_nonneg_right (Int.natCast_nonneg elapsed)
  capLock hlock := hlock
  mine _ hlock := ⟨hlock, fun _ hr _ => hr⟩
  unlocked _ _ hlock := hlock
  allowed _ := le_refl _
  rows r hr := .inr ⟨r, hr, rfl, le_refl _⟩
  held _ := ⟨rfl, fun _ _ => rfl⟩

variable {label : RateLabel κ}

/-- The invariant survives every step. -/
theorem RateOk.step (h : RateOk L s) (hstep : RateStep L s label s') : RateOk L s' := by
  unfold RateStep rateStep at hstep
  cases label with
  | next c => exact (statement_spec h hstep).1
  | tick elapsed =>
      obtain rfl := Option.some.inj hstep
      have hlater : s.clock ≤ s.clock + elapsed := grows_tick (L := L) (c := 0) (s := s).clock
      refine ⟨⟨h.books.rows, ?_, h.books.within, h.books.refusals, h.books.bounded⟩,
        fun c => (h.phases c).grows grows_tick, h.rowLocks, h.capLocks⟩
      exact fun k hk hclock => h.books.absent k hk (lt_of_le_of_lt hlater hclock)
  | consume c owner =>
      dsimp only at hstep
      split at hstep
      · rename_i hidle
        obtain rfl := Option.some.inj hstep
        exact h.moveTo hidle nofun trivial nofun
      · cases hstep
  | prune c =>
      dsimp only at hstep
      split at hstep
      · rename_i hidle
        obtain rfl := Option.some.inj hstep
        exact h.moveTo hidle nofun trivial nofun
      · cases hstep

/-! ## Calls come to an end -/

/-- A call that is under way goes on, or waits for a row or for the capacity lock. -/
theorem runs_or_waits (hbusy : s.calls c ≠ .idle) :
    (∃ s', s.statement L c = some s') ∨ (∃ k c', s.rowLock k = some c') ∨
      ((∃ c', s.capLock = some c') ∧ ¬ (s.calls c).Locked) := by
  have hclear : ∀ next, (∃ s', s.clear c next = some s') ∨ ∃ k c', s.rowLock k = some c' := by
    intro next
    unfold RateState.clear
    by_cases hfree : ∀ k ∈ s.expired, s.rowLock k = none
    · rw [if_pos hfree]
      exact .inl ⟨_, rfl⟩
    · push Not at hfree
      obtain ⟨k, -, hlock⟩ := hfree
      exact .inr ⟨k, Option.ne_none_iff_exists'.mp hlock⟩
  have hcap : ∀ next, (∃ s', s.takeCap c next = some s') ∨ ∃ c', s.capLock = some c' := by
    intro next
    unfold RateState.takeCap
    by_cases hnone : s.capLock = none
    · rw [if_pos hnone]
      exact .inl ⟨_, rfl⟩
    · exact .inr (Option.ne_none_iff_exists'.mp hnone)
  unfold RateState.statement
  cases hcall : s.calls c with
  | idle => exact absurd hcall hbusy
  | opening owner => exact .inl ⟨_, rfl⟩
  | update tx pass tries =>
      dsimp only
      split
      · exact .inl ⟨_, rfl⟩
      · by_cases hnone : s.rowLock pass.key = none
        · rw [if_pos hnone]
          exact .inl ⟨_, rfl⟩
        · exact .inr (.inl ⟨_, Option.ne_none_iff_exists'.mp hnone⟩)
  | read tx pass tries =>
      left
      dsimp only
      split
      · split
        · exact ⟨_, rfl⟩
        · exact ⟨_, rfl⟩
      · exact ⟨_, rfl⟩
      · exact ⟨_, rfl⟩
  | granted tx pass count => exact .inl ⟨_, rfl⟩
  | refused tx pass count observedAt => exact .inl ⟨_, rfl⟩
  | queueing owner =>
      rcases hcap (.clearing owner) with hruns | hheld
      · exact .inl hruns
      · exact .inr (.inr ⟨hheld, id⟩)
  | clearing owner =>
      rcases hclear fun deleted => .timing deleted owner with hruns | hheld
      · exact .inl hruns
      · exact .inr (.inl hheld)
  | timing deleted owner => exact .inl ⟨_, rfl⟩
  | counting deleted pass =>
      left
      dsimp only
      split
      · exact ⟨_, rfl⟩
      · exact ⟨_, rfl⟩
  | inserting deleted pass =>
      left
      dsimp only
      split
      · exact ⟨_, rfl⟩
      · exact ⟨_, rfl⟩
  | inserted deleted pass => exact .inl ⟨_, rfl⟩
  | pruneQueueing =>
      rcases hcap .pruneClearing with hruns | hheld
      · exact .inl hruns
      · exact .inr (.inr ⟨hheld, id⟩)
  | pruneClearing =>
      rcases hclear .pruned with hruns | hheld
      · exact .inl hruns
      · exact .inr (.inl hheld)
  | pruned deleted => exact .inl ⟨_, rfl⟩

/-- Whoever has locked a row commits next. -/
theorem RateOk.rowLock_runs (h : RateOk L s) {k : BucketKey κ} (hlock : s.rowLock k = some c) :
    ∃ s', s.statement L c = some s' := by
  obtain ⟨tx, pass, count, hcall, -⟩ := h.rowLocks k c hlock
  unfold RateState.statement
  rw [hcall]
  exact ⟨_, rfl⟩

/-- No set of calls waits for each other. -/
theorem RateOk.goes_on (h : RateOk L s) (hbusy : s.calls c ≠ .idle) :
    ∃ c' s', s.statement L c' = some s' := by
  rcases runs_or_waits (L := L) hbusy with hruns | ⟨k, c', hlock⟩ | ⟨⟨c', hlock⟩, -⟩
  · exact ⟨c, hruns⟩
  · exact ⟨c', h.rowLock_runs hlock⟩
  · have hlocked := h.capLocks c' hlock
    have hbusy' : s.calls c' ≠ .idle := by
      intro hidle
      rw [hidle] at hlocked
      exact hlocked
    rcases runs_or_waits (L := L) hbusy' with hruns | ⟨k, c'', hlock'⟩ | ⟨-, hnot⟩
    · exact ⟨c', hruns⟩
    · exact ⟨c'', h.rowLock_runs hlock'⟩
    · exact absurd hlocked hnot

omit [DecidableEq κ] in
theorem idle_of_close : (s.close c buckets ended .idle).calls c = .idle :=
  Function.update_self _ _ _

omit [DecidableEq κ] in
theorem remaining_takeCap (hstep : s.takeCap c p = some s') :
    (s'.calls c).remaining = p.remaining := by
  unfold RateState.takeCap at hstep
  split at hstep
  · obtain rfl := Option.some.inj hstep
    exact congrArg Phase.remaining (Function.update_self _ _ _)
  · cases hstep

omit [DecidableEq κ] in
theorem remaining_clear {next : List (BucketKey κ) → Phase κ} {n : Nat}
    (hnext : ∀ deleted, (next deleted).remaining = n) (hstep : s.clear c next = some s') :
    (s'.calls c).remaining = n := by
  unfold RateState.clear at hstep
  split at hstep
  · obtain rfl := Option.some.inj hstep
    rw [← hnext s.expired]
    exact congrArg Phase.remaining (Function.update_self _ _ _)
  · cases hstep

/-- Every statement of a call brings it nearer to its end. -/
theorem RateOk.remaining_lt (h : RateOk L s) (hstep : s.statement L c = some s') :
    (s'.calls c).remaining < (s.calls c).remaining := by
  obtain ⟨hok', -⟩ := statement_spec h hstep
  have hphase := h.phases c
  have hphase' := hok'.phases c
  have hself : ∀ p : Phase κ, (s.moveTo c p).calls c = p := fun _ => Function.update_self _ _ _
  unfold RateState.statement at hstep
  cases hcall : s.calls c with
  | idle =>
      rw [hcall] at hstep
      cases hstep
  | opening owner =>
      rw [hcall] at hstep
      obtain rfl := Option.some.inj hstep
      rw [hself]
      show 19 - 2 * 0 < 20
      omega
  | update tx pass tries =>
      rw [hcall] at hstep hphase
      have htries := hphase.2.1
      have hgranted : ∀ n,
          (Phase.granted tx pass n).remaining < (Phase.update tx pass tries).remaining := by
        intro n
        cases tx with
        | none =>
            show 5 < 19 - 2 * tries
            omega
        | some deleted =>
            show 5 < 12 - 2 * tries
            omega
      have hread : (Phase.read tx pass tries).remaining < (Phase.update tx pass tries).remaining := by
        cases tx with
        | none =>
            show 18 - 2 * tries < 19 - 2 * tries
            omega
        | some deleted =>
            show 11 - 2 * tries < 12 - 2 * tries
            omega
      dsimp only at hstep
      split at hstep
      · obtain rfl := Option.some.inj hstep
        rw [hself]
        exact hread
      · split at hstep
        · obtain rfl := Option.some.inj hstep
          show ((s.moveTo c _).calls c).remaining < _
          rw [hself]
          exact hgranted _
        · cases hstep
  | read tx pass tries =>
      rw [hcall] at hstep hphase
      have htries := hphase.2.1
      have hrefused : ∀ n t, (Phase.refused tx pass n t).remaining <
          (Phase.read tx pass tries).remaining := by
        intro n t
        cases tx with
        | none =>
            show 5 < 18 - 2 * tries
            omega
        | some deleted =>
            show 5 < 11 - 2 * tries
            omega
      have hagain : tries + 1 ≤ 1 → (Phase.update tx pass (tries + 1)).remaining <
          (Phase.read tx pass tries).remaining := by
        intro hle
        cases tx with
        | none =>
            show 19 - 2 * (tries + 1) < 18 - 2 * tries
            omega
        | some deleted =>
            show 12 - 2 * (tries + 1) < 11 - 2 * tries
            omega
      dsimp only at hstep
      split at hstep
      · split at hstep
        · obtain rfl := Option.some.inj hstep
          rw [hself]
          exact hrefused _ _
        · obtain rfl := Option.some.inj hstep
          -- the invariant allows one more round only
          rw [hself] at hphase' ⊢
          exact hagain hphase'.2.1
      · obtain rfl := Option.some.inj hstep
        rw [hself]
        show 15 < 18 - 2 * tries
        omega
      · obtain rfl := Option.some.inj hstep
        rw [hself]
        show 8 < 11 - 2 * tries
        omega
  | granted tx pass count =>
      rw [hcall] at hstep
      obtain rfl := Option.some.inj hstep
      rw [idle_of_close]
      exact Nat.succ_pos 4
  | refused tx pass count observedAt =>
      rw [hcall] at hstep
      obtain rfl := Option.some.inj hstep
      rw [idle_of_close]
      exact Nat.succ_pos 4
  | inserted deleted pass =>
      rw [hcall] at hstep
      obtain rfl := Option.some.inj hstep
      rw [idle_of_close]
      exact Nat.succ_pos 5
  | pruned deleted =>
      rw [hcall] at hstep
      obtain rfl := Option.some.inj hstep
      rw [idle_of_close]
      exact Nat.succ_pos 1
  | timing deleted owner =>
      rw [hcall] at hstep
      obtain rfl := Option.some.inj hstep
      rw [hself]
      show 12 - 2 * 0 < 13
      omega
  | queueing owner =>
      rw [hcall] at hstep
      exact lt_of_eq_of_lt (remaining_takeCap hstep) (Nat.lt_succ_self 14)
  | pruneQueueing =>
      rw [hcall] at hstep
      exact lt_of_eq_of_lt (remaining_takeCap hstep) (Nat.lt_succ_self 3)
  | clearing owner =>
      rw [hcall] at hstep
      exact lt_of_eq_of_lt (remaining_clear (n := 13) (fun _ => rfl) hstep) (Nat.lt_succ_self 13)
  | pruneClearing =>
      rw [hcall] at hstep
      exact lt_of_eq_of_lt (remaining_clear (n := 2) (fun _ => rfl) hstep) (Nat.lt_succ_self 2)
  | counting deleted pass =>
      rw [hcall] at hstep
      dsimp only at hstep
      split at hstep
      · obtain rfl := Option.some.inj hstep
        rw [idle_of_close]
        exact Nat.succ_pos 7
      · obtain rfl := Option.some.inj hstep
        rw [hself]
        exact Nat.lt_succ_self 7
  | inserting deleted pass =>
      rw [hcall] at hstep
      dsimp only at hstep
      split at hstep
      · obtain rfl := Option.some.inj hstep
        rw [idle_of_close]
        exact Nat.succ_pos 6
      · obtain rfl := Option.some.inj hstep
        rw [hself]
        exact Nat.lt_succ_self 6

/-! ## Unique violations -/

variable (L) in
/-- The statement is not the `SELECT` that finds the bucket of a window expired which the second
transaction has read as the current one. -/
def WindowOpen (s : RateState κ) : RateLabel κ → Prop
  | .next c =>
      match s.calls c with
      | .read (some _) pass _ => pass.key ∈ s.buckets.keys → s.clock < L.resetAt pass.key
      | _ => True
  | _ => True

instance (s : RateState κ) (label : RateLabel κ) : Decidable (WindowOpen L s label) := by
  unfold WindowOpen
  cases label with
  | next c =>
      dsimp only
      split
      · infer_instance
      · infer_instance
  | tick elapsed => exact isTrue trivial
  | consume c owner => exact isTrue trivial
  | prune c => exact isTrue trivial

/-- A call that is about to insert a bucket finds none in its place. -/
def Vacant (s : RateState κ) : Phase κ → Prop
  | .counting _ pass => pass.key ∉ s.buckets.keys
  | .inserting _ pass => pass.key ∉ s.buckets.keys
  | _ => True

/-- No call has met a unique violation, and none is about to. -/
structure Clean (s : RateState κ) : Prop where
  vacant : ∀ c, Vacant s (s.calls c)
  outcomes : ∀ r ∈ s.log, r.outcome ≠ .uniqueViolation

/-- What the statement leaves to its own call, and what it logs. -/
def CleanStep (c : CallId) (s s' : RateState κ) : Prop :=
  Vacant s' (s'.calls c) ∧ ∀ r ∈ s'.log, r ∈ s.log ∨ r.outcome ≠ .uniqueViolation

omit [DecidableEq κ] in
theorem cleanStep_moveTo (hp : Vacant s p) : CleanStep c s (s.moveTo c p) := by
  refine ⟨?_, fun r hr => .inl hr⟩
  rw [show (s.moveTo c p).calls c = p from Function.update_self _ _ _]
  exact hp

omit [DecidableEq κ] in
theorem cleanStep_close (hended : ∀ r ∈ ended, r.outcome ≠ .uniqueViolation) :
    CleanStep c s (s.close c buckets ended .idle) := by
  refine ⟨?_, ?_⟩
  · rw [idle_of_close]
    trivial
  · intro r hr
    rcases List.mem_append.mp hr with hold | hnew
    · exact .inl hold
    · exact .inr (hended r hnew)

theorem statement_clean (h : RateOk L s) (hclean : Clean s) (hopen : WindowOpen L s (.next c))
    (hstep : s.statement L c = some s') : CleanStep c s s' := by
  have hvacant := hclean.vacant c
  have hone : ∀ {r : RateRecord κ}, r.outcome ≠ .uniqueViolation →
      ∀ r' ∈ [r], r'.outcome ≠ .uniqueViolation := by
    intro r hr r' hr'
    rwa [List.mem_singleton.mp hr']
  have hcap : ∀ {p : Phase κ}, (∀ t : RateState κ, Vacant t p) → s.takeCap c p = some s' →
      CleanStep c s s' := by
    intro p hp hstep
    unfold RateState.takeCap at hstep
    split at hstep
    · obtain rfl := Option.some.inj hstep
      refine ⟨?_, fun r hr => .inl hr⟩
      show Vacant _ ((s.moveTo c p).calls c)
      rw [show (s.moveTo c p).calls c = p from Function.update_self _ _ _]
      exact hp _
    · cases hstep
  have hclear : ∀ {next : List (BucketKey κ) → Phase κ}, (∀ deleted, Vacant s (next deleted)) →
      s.clear c next = some s' → CleanStep c s s' := by
    intro next hnext hstep
    unfold RateState.clear at hstep
    split at hstep
    · obtain rfl := Option.some.inj hstep
      exact cleanStep_moveTo (hnext _)
    · cases hstep
  unfold WindowOpen at hopen
  dsimp only at hopen
  unfold RateState.statement at hstep
  cases hcall : s.calls c with
  | idle =>
      rw [hcall] at hstep
      cases hstep
  | opening owner =>
      rw [hcall] at hstep
      obtain rfl := Option.some.inj hstep
      exact cleanStep_moveTo trivial
  | update tx pass tries =>
      rw [hcall] at hstep
      dsimp only at hstep
      split at hstep
      · obtain rfl := Option.some.inj hstep
        exact cleanStep_moveTo trivial
      · split at hstep
        · obtain rfl := Option.some.inj hstep
          refine ⟨?_, fun r hr => .inl hr⟩
          show Vacant _ ((s.moveTo c _).calls c)
          rw [show (s.moveTo c _).calls c = _ from Function.update_self _ _ _]
          trivial
        · cases hstep
  | read tx pass tries =>
      rw [hcall] at hstep hopen
      dsimp only at hstep
      split at hstep
      · split at hstep
        · obtain rfl := Option.some.inj hstep
          exact cleanStep_moveTo trivial
        · obtain rfl := Option.some.inj hstep
          exact cleanStep_moveTo trivial
      · obtain rfl := Option.some.inj hstep
        exact cleanStep_moveTo trivial
      · rename_i deleted hnone
        obtain rfl := Option.some.inj hstep
        -- a stored bucket would have been found, since its window is open
        refine cleanStep_moveTo fun hstored => ?_
        have hended := live_eq_none h.books hnone hstored
        exact absurd (lt_of_lt_of_le (hopen hstored) hended) (lt_irrefl _)
  | granted tx pass count =>
      rw [hcall] at hstep
      obtain rfl := Option.some.inj hstep
      exact cleanStep_close (hone nofun)
  | refused tx pass count observedAt =>
      rw [hcall] at hstep
      obtain rfl := Option.some.inj hstep
      exact cleanStep_close (hone nofun)
  | inserted deleted pass =>
      rw [hcall] at hstep
      obtain rfl := Option.some.inj hstep
      exact cleanStep_close (hone nofun)
  | pruned deleted =>
      rw [hcall] at hstep
      obtain rfl := Option.some.inj hstep
      exact cleanStep_close nofun
  | queueing owner =>
      rw [hcall] at hstep
      refine hcap ?_ hstep
      exact fun _ => trivial
  | pruneQueueing =>
      rw [hcall] at hstep
      refine hcap ?_ hstep
      exact fun _ => trivial
  | clearing owner =>
      rw [hcall] at hstep
      refine hclear ?_ hstep
      exact fun _ => trivial
  | pruneClearing =>
      rw [hcall] at hstep
      refine hclear ?_ hstep
      exact fun _ => trivial
  | timing deleted owner =>
      rw [hcall] at hstep
      obtain rfl := Option.some.inj hstep
      exact cleanStep_moveTo trivial
  | counting deleted pass =>
      rw [hcall] at hstep hvacant
      dsimp only at hstep
      split at hstep
      · obtain rfl := Option.some.inj hstep
        exact cleanStep_close (hone nofun)
      · obtain rfl := Option.some.inj hstep
        exact cleanStep_moveTo hvacant
  | inserting deleted pass =>
      rw [hcall] at hstep hvacant
      dsimp only at hstep
      split at hstep
      · rename_i hstored
        exact absurd (Table.mem_keys.mpr (Table.find?_isSome.mp hstored.1)) hvacant
      · obtain rfl := Option.some.inj hstep
        exact cleanStep_moveTo trivial

/-- The buckets in whose place a call is about to insert stay vacant while others go on. -/
theorem Vacant.grows {p : Phase κ} (h : Vacant s p) (hok : PhaseOk L s c p)
    (hgrows : Grows L c s s') : Vacant s' p := by
  cases p with
  | counting deleted pass =>
      show pass.key ∉ s'.buckets.keys
      rw [(hgrows.held (hok.1.second deleted rfl).1.1).1]
      exact h
  | inserting deleted pass =>
      show pass.key ∉ s'.buckets.keys
      rw [(hgrows.held (hok.1.second deleted rfl).1.1).1]
      exact h
  | _ => trivial

theorem Clean.step (hclean : Clean s) (h : RateOk L s) (hopen : WindowOpen L s label)
    (hstep : RateStep L s label s') : Clean s' := by
  unfold RateStep rateStep at hstep
  cases label with
  | next c =>
      obtain ⟨-, hadvances⟩ := statement_spec h hstep
      obtain ⟨hown, hlog⟩ := statement_clean h hclean hopen hstep
      constructor
      · intro c'
        by_cases hc : c' = c
        · rw [hc]
          exact hown
        · rw [hadvances.calls c' hc]
          exact (hclean.vacant c').grows (h.phases c') (hadvances.grows c' hc)
      · intro r hr
        rcases hlog r hr with hold | hnew
        · exact hclean.outcomes r hold
        · exact hnew
  | tick elapsed =>
      obtain rfl := Option.some.inj hstep
      exact ⟨fun c => (hclean.vacant c).grows (h.phases c) grows_tick, hclean.outcomes⟩
  | consume c owner =>
      dsimp only at hstep
      split at hstep
      · obtain rfl := Option.some.inj hstep
        refine ⟨fun c' => ?_, hclean.outcomes⟩
        by_cases hc : c' = c
        · rw [hc]
          refine (cleanStep_moveTo ?_).1
          trivial
        · rw [(advances_moveTo (L := L)).calls c' hc]
          exact hclean.vacant c'
      · cases hstep
  | prune c =>
      dsimp only at hstep
      split at hstep
      · obtain rfl := Option.some.inj hstep
        refine ⟨fun c' => ?_, hclean.outcomes⟩
        by_cases hc : c' = c
        · rw [hc]
          refine (cleanStep_moveTo ?_).1
          trivial
        · rw [(advances_moveTo (L := L)).calls c' hc]
          exact hclean.vacant c'
      · cases hstep

/-! ## Runs -/

variable (L) in
/-- What the limiter is to keep to. -/
structure KeepsLimits (s : RateState κ) : Prop where
  within : ∀ k, s.allowed k ≤ L.limit k
  refusals : ∀ r ∈ s.log, r.isDecided false = true → s.allowed r.key = L.limit r.key
  bounded : s.buckets.count ≤ L.maxBuckets
  outcomes : ∀ r ∈ s.log, r.outcome ≠ .uniqueViolation
  goesOn : ∀ c, s.calls c ≠ .idle → ∃ c' s', s.statement L c' = some s'
  ends : ∀ c s', s.statement L c = some s' →
    (s'.calls c).remaining < (s.calls c).remaining ∧ ∀ c' ≠ c, s'.calls c' = s.calls c'

theorem RateOk.keepsLimits (h : RateOk L s) (hclean : Clean s) : KeepsLimits L s where
  within := h.books.within
  refusals r hr hrefused :=
    Nat.le_antisymm (h.books.within r.key) (h.books.refusals r hr hrefused)
  bounded := h.books.bounded
  outcomes := hclean.outcomes
  goesOn _ hbusy := h.goes_on hbusy
  ends _ _ hstep := ⟨h.remaining_lt hstep, (statement_spec h hstep).2.calls⟩

/-- In every run on whose steps no second transaction finds its own window over and the bucket
still stored, no window allows more than its limit, a call is refused only in a full window, the
table stays within its capacity, and calls come to an end, none of them with a unique violation. -/
theorem rate_limits {s₀ : RateState κ} (hstart : RateStart s₀)
    (hrun : Run (RateStep L) (WindowOpen L) s₀ s) : KeepsLimits L s := by
  have hkept : ∀ t label u, RateOk L t ∧ Clean t → WindowOpen L t label →
      RateStep L t label u → RateOk L u ∧ Clean u := by
    intro t label u ht hopen hstep
    exact ⟨ht.1.step hstep, ht.2.step ht.1 hopen hstep⟩
  have hfirst : RateOk L s₀ ∧ Clean s₀ := by
    refine ⟨.start hstart, ?_, ?_⟩
    · obtain ⟨t, rfl⟩ := hstart
      exact fun _ => trivial
    · obtain ⟨t, rfl⟩ := hstart
      exact nofun
  have hboth := hrun.invariant hkept hfirst
  exact hboth.1.keepsLimits hboth.2

/-! ## A window that ends under the capacity lock -/

/-- Five calls a minute, in three buckets. -/
def fiveAMinute : RateLimits String where
  limiter _ := ⟨5, 60, by decide, by decide⟩
  maxBuckets := 3
  maxBuckets_bounds := by decide

def adaMessages : RateOwner String := ⟨.message, "ada"⟩

/-- The state after the steps. -/
def afterSteps (labels : List (RateLabel String)) : RateState String :=
  labels.foldl (fun s label => (rateStep fiveAMinute s label).getD s) { clock := 0 }

/-- One call of a new key from its beginning to its end. -/
def firstCall : List (RateLabel String) :=
  .consume 0 adaMessages :: List.replicate 11 (.next 0)

/-- The first call of a key is allowed, and leaves four more in its window. -/
theorem rate_limits_first :
    KeepsLimits fiveAMinute (afterSteps firstCall) ∧
      (afterSteps firstCall).log.map RateRecord.outcome =
        [.decided ⟨true, 4, 0, seconds 60⟩] :=
  ⟨rate_limits ⟨0, rfl⟩ (Run.of_follows (by decide +kernel)), by decide +kernel⟩

/-- Two calls of a new key find no bucket.  The first inserts it; the second then reads the time
under the capacity lock, and the window ends before it looks for the bucket. -/
def endingWindow : List (RateLabel String) :=
  [.consume 0 adaMessages, .consume 1 adaMessages] ++ List.replicate 3 (.next 0) ++
    List.replicate 3 (.next 1) ++ List.replicate 8 (.next 0) ++ List.replicate 3 (.next 1) ++
    [.tick 60_000_000] ++ List.replicate 4 (.next 1)

/-- The second call ends with a unique violation. -/
theorem not_rate_limits :
    ¬ ∀ s, Reachable RateStart (RateStep fiveAMinute) s → KeepsLimits fiveAMinute s := by
  intro hkeeps
  have hreach : Reachable RateStart (RateStep fiveAMinute) (afterSteps endingWindow) := by
    refine ⟨{ clock := 0 }, ⟨0, rfl⟩, Run.of_follows ?_⟩
    decide +kernel
  have hviolated : ∃ r ∈ (afterSteps endingWindow).log, r.outcome = .uniqueViolation := by
    decide +kernel
  obtain ⟨r, hr, hviolation⟩ := hviolated
  exact (hkeeps _ hreach).outcomes r hr hviolation

end Invariant

end Postgres
end ChatEngine
