import Mathlib.Algebra.Order.Group.Int
import Mathlib.Algebra.Order.Group.Unbundled.Basic
import Mathlib.Data.List.Dedup
import Mathlib.Data.List.Induction
import Mathlib.Data.List.Pairwise
import ChatEngine.Lib.Trail

/-!
# The in-memory rate limiter

`MessageRateLimiter` keeps, for each key, the times of the calls it has allowed, and forgets keys
when the table is full.

* `allow` and `discardInactive`, as the service computes them, over any ordered time;
* `Tracks`: what the table keeps of a key is what was allowed of it within the window;
* `allow_tracks`, one call, and `run_tracks`, a sequence of calls with few keys in any window;
* `message_rate_limiter`: the limit holds in every window, and the table does not outgrow its cap.
-/

namespace ChatEngine
namespace Server

open Lib

variable {κ τ : Type}

/-- What a `MessageRateLimiter` is made with. -/
structure RateLimiterConfig (τ : Type) where
  limit : Nat
  windowSeconds : τ
  maxKeys : Nat

/-- The deque of a key, oldest time first. -/
structure Deque (κ τ : Type) where
  key : κ
  times : List τ

/-- `_events`: the keys in the order they came in. -/
abbrev Events (κ τ : Type) := Table (Deque κ τ) κ Deque.key

/-- `_events[key]`; a key that is not there has an empty deque. -/
def Events.times [DecidableEq κ] (t : Events κ τ) (key : κ) : List τ :=
  ((t.find? key).map Deque.times).getD []

section Service

variable [DecidableEq κ] [AddCommGroup τ] [LinearOrder τ] (cfg : RateLimiterConfig τ)

/-- No call of the key was allowed after the cutoff. -/
def Deque.Inactive (cutoff : τ) (e : Deque κ τ) : Prop :=
  ∀ last ∈ e.times.getLast?, last ≤ cutoff

instance (cutoff : τ) : DecidablePred (Deque.Inactive (κ := κ) cutoff) :=
  fun e => inferInstanceAs (Decidable (∀ last ∈ e.times.getLast?, last ≤ cutoff))

/-- `_discard_inactive`: the inactive keys go, and then the oldest while there are too many. -/
def discardInactive (cutoff : τ) (t : Events κ τ) : Events κ τ :=
  let active := t.deleteWhere (Deque.Inactive cutoff)
  active.dropFirst (active.count - cfg.maxKeys)

/-- `allow`. -/
def allow (key : κ) (now : τ) (t : Events κ τ) : Bool × Events κ τ :=
  let cutoff := now - cfg.windowSeconds
  let events := (t.times key).dropWhile fun time => time ≤ cutoff
  if cfg.limit ≤ events.length then (false, t.upsert ⟨key, events⟩)
  else
    let appended := t.upsert ⟨key, events ++ [now]⟩
    (true, if cfg.maxKeys < appended.count then discardInactive cfg cutoff appended else appended)

/-- A call of `allow` with its answer. -/
structure Answer (κ τ : Type) where
  key : κ
  now : τ
  allowed : Bool

/-- One more call, with the calls so far. -/
def call (s : List (Answer κ τ) × Events κ τ) (c : κ × τ) : List (Answer κ τ) × Events κ τ :=
  let outcome := allow cfg c.1 c.2 s.2
  (s.1 ++ [⟨c.1, c.2, outcome.1⟩], outcome.2)

/-- The calls one after the other: their answers, and the table they leave. -/
def run (calls : List (κ × τ)) : List (Answer κ τ) × Events κ τ := calls.foldl (call cfg) ([], ∅)

/-- The times at which calls of the key were allowed. -/
def allowedTimes (key : κ) (log : List (Answer κ τ)) : List τ :=
  (log.filter fun c => c.key = key ∧ c.allowed = true).map Answer.now

/-- The keys used from `start` on for one window. -/
def keysWithin (start : τ) (calls : List (κ × τ)) : List κ :=
  ((calls.filter fun c => start ≤ c.2 ∧ c.2 < start + cfg.windowSeconds).map Prod.fst).dedup

/-- The clock does not go back, and at most `max_keys` keys are used within any window. -/
structure FewKeys (calls : List (κ × τ)) : Prop where
  clock : (calls.map Prod.snd).Pairwise (· ≤ ·)
  keys : ∀ start, (keysWithin cfg start calls).length ≤ cfg.maxKeys

end Service

/-! ## What the table keeps -/

section Deques

variable [DecidableEq κ] {t : Events κ τ}

theorem Events.times_upsert (t : Events κ τ) (e : Deque κ τ) (key : κ) :
    Events.times (t.upsert e) key = if e.key = key then e.times else t.times key := by
  unfold Events.times
  rw [Table.find?_upsert]
  split
  · rfl
  · rfl

/-- A row that is kept has kept its times, and a row that goes leaves none. -/
theorem Events.times_deleteWhere (t : Events κ τ) (p : Deque κ τ → Prop) [DecidablePred p]
    (key : κ) :
    Events.times (t.deleteWhere p) key = t.times key ∨
      Events.times (t.deleteWhere p) key = [] ∧ ∃ e ∈ t, e.key = key ∧ p e := by
  unfold Events.times
  rw [Table.find?_deleteWhere]
  cases hfind : t.find? key with
  | none => exact .inl rfl
  | some e =>
      obtain ⟨he, hkey⟩ := Table.find?_eq_some.mp hfind
      by_cases hp : p e
      · right
        refine ⟨?_, e, he, hkey, hp⟩
        rw [Option.filter_some_neg (by simpa using hp)]
        rfl
      · left
        rw [Option.filter_some_pos (by simpa using hp)]

theorem Events.times_of_mem {e : Deque κ τ} (he : e ∈ t) : t.times e.key = e.times := by
  unfold Events.times
  rw [Table.find?_of_mem he]
  rfl

theorem allowedTimes_append (key : κ) (log : List (Answer κ τ)) (c : Answer κ τ) :
    allowedTimes key (log ++ [c]) =
      allowedTimes key log ++ if c.key = key ∧ c.allowed = true then [c.now] else [] := by
  unfold allowedTimes
  rw [List.filter_append, List.map_append]
  congr 1
  by_cases h : c.key = key ∧ c.allowed = true
  · rw [if_pos h, List.filter_cons_of_pos (by simpa using h)]
    rfl
  · rw [if_neg h, List.filter_cons_of_neg (by simpa using h)]
    rfl

variable [LinearOrder τ]

/-- From a sorted deque, taking from the left until the cutoff is filtering. -/
theorem dropWhile_eq_filter {times : List τ} (h : times.Pairwise (· ≤ ·)) (cutoff : τ) :
    (times.dropWhile fun time => time ≤ cutoff) = times.filter fun time => cutoff < time := by
  induction times with
  | nil => rfl
  | cons first rest ih =>
      obtain ⟨hfirst, hrest⟩ := List.pairwise_cons.mp h
      by_cases hle : first ≤ cutoff
      · rw [List.dropWhile_cons_of_pos (by simpa using hle),
          List.filter_cons_of_neg (by simpa using hle)]
        exact ih hrest
      · rw [List.dropWhile_cons_of_neg (by simpa using hle)]
        symm
        apply List.filter_eq_self.mpr
        intro time htime
        rcases List.mem_cons.mp htime with rfl | hlater
        · exact decide_eq_true (not_le.mp hle)
        · exact decide_eq_true ((not_le.mp hle).trans_le (hfirst time hlater))

/-- A second cutoff that is later decides alone. -/
theorem filter_later {times : List τ} {cutoff later : τ} (h : cutoff ≤ later) :
    ((times.filter fun time => cutoff < time).filter fun time => later < time) =
      times.filter fun time => later < time := by
  rw [List.filter_filter]
  apply List.filter_congr
  intro time _
  by_cases hlater : later < time
  · simp [hlater, h.trans_lt hlater]
  · simp [hlater]

end Deques

section Tracking

variable [DecidableEq κ] [AddCommGroup τ] [LinearOrder τ]
variable {cfg : RateLimiterConfig τ} {t : Events κ τ} {log : List (Answer κ τ)} {key : κ} {now : τ}

/-- The deques are sorted and hold times of calls, and of every key they keep what was allowed
within the window. -/
structure Tracks (cfg : RateLimiterConfig τ) (log : List (Answer κ τ)) (t : Events κ τ) :
    Prop where
  sorted : ∀ key, (t.times key).Pairwise (· ≤ ·)
  used : ∀ key, ∀ time ∈ t.times key, ∃ c ∈ log, c.key = key ∧ c.now = time
  agrees : ∀ key now, (∀ c ∈ log, c.now ≤ now) →
    ((t.times key).filter fun time => now - cfg.windowSeconds < time) =
      (allowedTimes key log).filter fun time => now - cfg.windowSeconds < time

theorem Tracks.empty : Tracks cfg [] (∅ : Events κ τ) :=
  ⟨fun _ => List.Pairwise.nil, nofun, fun _ _ _ => rfl⟩

/-- The deque of the key after the times before the window have gone. -/
def recent (cfg : RateLimiterConfig τ) (t : Events κ τ) (key : κ) (now : τ) : List τ :=
  (t.times key).dropWhile fun time => time ≤ now - cfg.windowSeconds

theorem Tracks.recent (h : Tracks cfg log t) (hnow : ∀ c ∈ log, c.now ≤ now) :
    recent cfg t key now =
      (allowedTimes key log).filter fun time => now - cfg.windowSeconds < time := by
  unfold Server.recent
  rw [dropWhile_eq_filter (h.sorted key), h.agrees key now hnow]

variable [IsOrderedAddMonoid τ]

/-- The deque of the key is written back, with the call where it is allowed. -/
theorem Tracks.upsert (h : Tracks cfg log t) (hnow : ∀ c ∈ log, c.now ≤ now) (allowed : Bool) :
    Tracks cfg (log ++ [⟨key, now, allowed⟩])
      (t.upsert ⟨key, Server.recent cfg t key now ++ if allowed = true then [now] else []⟩) := by
  have hsublist : (Server.recent cfg t key now).Sublist (t.times key) :=
    List.dropWhile_sublist _
  have hbefore : ∀ time ∈ Server.recent cfg t key now, time ≤ now := by
    intro time htime
    obtain ⟨c, hc, -, rfl⟩ := h.used key time (hsublist.subset htime)
    exact hnow c hc
  have hadded : ∀ time ∈ (if allowed = true then [now] else []), time = now := by
    intro time htime
    split at htime
    · exact List.mem_singleton.mp htime
    · cases htime
  constructor
  · intro other
    rw [Events.times_upsert]
    by_cases hkey : key = other
    · rw [if_pos hkey]
      refine List.pairwise_append.mpr ⟨(h.sorted key).sublist hsublist, ?_, ?_⟩
      · split
        · exact List.pairwise_singleton _ _
        · exact List.Pairwise.nil
      · intro time htime added hmem
        rw [hadded added hmem]
        exact hbefore time htime
    · rw [if_neg hkey]
      exact h.sorted other
  · intro other time htime
    rw [Events.times_upsert] at htime
    by_cases hkey : key = other
    · rw [if_pos hkey] at htime
      rcases List.mem_append.mp htime with hold | hnew
      · obtain ⟨c, hc, hckey, hctime⟩ := h.used key time (hsublist.subset hold)
        exact ⟨c, List.mem_append_left _ hc, hckey.trans hkey, hctime⟩
      · rw [hadded time hnew]
        exact ⟨_, List.mem_append_right _ (List.mem_singleton_self _), hkey, rfl⟩
    · rw [if_neg hkey] at htime
      obtain ⟨c, hc, hckey⟩ := h.used other time htime
      exact ⟨c, List.mem_append_left _ hc, hckey⟩
  · intro other later hlater
    have hlog : ∀ c ∈ log, c.now ≤ later := fun c hc => hlater c (List.mem_append_left _ hc)
    have hwindow : now - cfg.windowSeconds ≤ later - cfg.windowSeconds :=
      sub_le_sub_right (hlater _ (List.mem_append_right _ (List.mem_singleton_self _))) _
    rw [Events.times_upsert, allowedTimes_append, List.filter_append, ← h.agrees other later hlog]
    by_cases hkey : key = other
    · subst hkey
      rw [if_pos rfl, List.filter_append]
      congr 1
      · unfold Server.recent
        rw [dropWhile_eq_filter (h.sorted key), filter_later hwindow]
      · simp only [true_and]
    · rw [if_neg hkey, if_neg (fun hsame => hkey hsame.1), List.filter_nil, List.append_nil]

/-- A key that is discarded has nothing in a window from now on. -/
theorem Tracks.deleteInactive (h : Tracks cfg log t) (hnow : ∃ c ∈ log, c.now = now) :
    Tracks cfg log (t.deleteWhere (Deque.Inactive (now - cfg.windowSeconds))) := by
  constructor
  · intro key
    rcases Events.times_deleteWhere t (Deque.Inactive (now - cfg.windowSeconds)) key with
      hsame | ⟨hnone, -⟩
    · rw [hsame]
      exact h.sorted key
    · rw [hnone]
      exact List.Pairwise.nil
  · intro key time htime
    rcases Events.times_deleteWhere t (Deque.Inactive (now - cfg.windowSeconds)) key with
      hsame | ⟨hnone, -⟩
    · rw [hsame] at htime
      exact h.used key time htime
    · rw [hnone] at htime
      cases htime
  · intro key later hlater
    rw [← h.agrees key later hlater]
    rcases Events.times_deleteWhere t (Deque.Inactive (now - cfg.windowSeconds)) key with
      hsame | ⟨hnone, e, he, rfl, hinactive⟩
    · rw [hsame]
    · rw [hnone, Events.times_of_mem he, List.filter_nil]
      symm
      rw [List.filter_eq_nil_iff]
      intro time htime
      obtain ⟨c, hc, rfl⟩ := hnow
      have hsorted := h.sorted e.key
      rw [Events.times_of_mem he] at hsorted
      have hlast : time ≤ c.now - cfg.windowSeconds := by
        have hne : e.times ≠ [] := List.ne_nil_of_mem htime
        have hle := hinactive (e.times.getLast hne) (List.getLast?_eq_some_getLast hne)
        exact (hsorted.rel_getLast htime).trans hle
      rw [decide_eq_true_eq, not_lt]
      exact hlast.trans (sub_le_sub_right (hlater c hc) _)

end Tracking

/-! ## One call -/

section Calls

variable [DecidableEq κ] [AddCommGroup τ] [LinearOrder τ]
variable {cfg : RateLimiterConfig τ} {t : Events κ τ} {log : List (Answer κ τ)} {key : κ} {now : τ}
variable {calls : List (κ × τ)}

theorem allow_full (h : cfg.limit ≤ (recent cfg t key now).length) :
    allow cfg key now t = (false, t.upsert ⟨key, recent cfg t key now⟩) := if_pos h

theorem allow_room (h : ¬ cfg.limit ≤ (recent cfg t key now).length) :
    allow cfg key now t =
      (true, if cfg.maxKeys < (t.upsert ⟨key, recent cfg t key now ++ [now]⟩).count then
        discardInactive cfg (now - cfg.windowSeconds)
          (t.upsert ⟨key, recent cfg t key now ++ [now]⟩)
        else t.upsert ⟨key, recent cfg t key now ++ [now]⟩) := if_neg h

theorem allow_iff : (allow cfg key now t).1 = true ↔ (recent cfg t key now).length < cfg.limit := by
  by_cases hfull : cfg.limit ≤ (recent cfg t key now).length
  · rw [allow_full hfull]
    exact iff_of_false Bool.false_ne_true (not_lt.mpr hfull)
  · rw [allow_room hfull]
    exact iff_of_true rfl (not_le.mp hfull)

/-- The table is the one before keys are discarded, or what is left of it. -/
theorem allow_events :
    ∃ appended : Events κ τ,
      appended = t.upsert ⟨key, recent cfg t key now ++
        if (allow cfg key now t).1 = true then [now] else []⟩ ∧
      ((allow cfg key now t).2 = appended ∨
        (allow cfg key now t).2 = discardInactive cfg (now - cfg.windowSeconds) appended) := by
  by_cases hfull : cfg.limit ≤ (recent cfg t key now).length
  · rw [allow_full hfull]
    refine ⟨_, rfl, .inl ?_⟩
    rw [if_neg Bool.false_ne_true, List.append_nil]
  · rw [allow_room hfull]
    refine ⟨_, rfl, ?_⟩
    rw [if_pos rfl]
    dsimp only
    split
    · exact .inr rfl
    · exact .inl rfl

/-- After each call the table is within its cap: a key that is refused was there already. -/
theorem allow_count (hlimit : 1 ≤ cfg.limit) (ht : t.count ≤ cfg.maxKeys) :
    (allow cfg key now t).2.count ≤ cfg.maxKeys := by
  by_cases hfull : cfg.limit ≤ (recent cfg t key now).length
  · rw [allow_full hfull]
    have hthere : ∃ e ∈ t, e.key = key := by
      cases hfind : t.find? key with
      | none =>
          have hempty : recent cfg t key now = [] := by
            unfold recent Events.times
            rw [hfind]
            rfl
          rw [hempty, List.length_nil] at hfull
          omega
      | some e => exact ⟨e, Table.find?_eq_some.mp hfind⟩
    obtain ⟨e, he, hkey⟩ := hthere
    dsimp only
    rw [Table.count_upsert_of_mem he hkey]
    exact ht
  · rw [allow_room hfull]
    dsimp only
    split
    · unfold discardInactive
      rw [Table.count_dropFirst]
      omega
    · rename_i hroom
      exact not_lt.mp hroom

/-- Few keys are used within the window before the time. -/
def FewRecent (cfg : RateLimiterConfig τ) (log : List (Answer κ τ)) (now : τ) : Prop :=
  ∀ keys : List κ, keys.Nodup →
    (∀ key ∈ keys, ∃ c ∈ log, c.key = key ∧ now - cfg.windowSeconds < c.now) →
      keys.length ≤ cfg.maxKeys

variable [IsOrderedAddMonoid τ]

/-- The keys that are not inactive were used within the window, so they are few and stay. -/
theorem Tracks.discardInactive (h : Tracks cfg log t) (hnow : ∃ c ∈ log, c.now = now)
    (hfew : FewRecent cfg log now) :
    Tracks cfg log (discardInactive cfg (now - cfg.windowSeconds) t) := by
  unfold Server.discardInactive
  have hcount : (t.deleteWhere (Deque.Inactive (now - cfg.windowSeconds))).count ≤
      cfg.maxKeys := by
    have hlength := hfew (t.deleteWhere (Deque.Inactive (now - cfg.windowSeconds))).keys
      (Table.keys_nodup _) ?_
    · unfold Table.keys at hlength
      rw [List.length_map] at hlength
      exact hlength
    · intro key hkey
      obtain ⟨e, he, rfl⟩ := Table.mem_keys.mp hkey
      obtain ⟨hold, hactive⟩ := Table.mem_deleteWhere.mp he
      unfold Deque.Inactive at hactive
      push Not at hactive
      obtain ⟨last, hlast, hlate⟩ := hactive
      have hmem : last ∈ t.times e.key := by
        rw [Events.times_of_mem hold]
        exact List.mem_of_getLast? hlast
      obtain ⟨c, hc, hckey, rfl⟩ := h.used e.key last hmem
      exact ⟨c, hc, hckey, hlate⟩
  show Tracks cfg log (Table.dropFirst _ _)
  rw [Nat.sub_eq_zero_of_le hcount, Table.dropFirst_zero]
  exact h.deleteInactive hnow

theorem Tracks.allow (h : Tracks cfg log t) (hnow : ∀ c ∈ log, c.now ≤ now)
    (hfew : ∀ allowed, FewRecent cfg (log ++ [⟨key, now, allowed⟩]) now) :
    Tracks cfg (log ++ [⟨key, now, (allow cfg key now t).1⟩]) (allow cfg key now t).2 := by
  obtain ⟨appended, happended, hsame | hdiscards⟩ := @allow_events κ τ _ _ _ cfg t key now
  · rw [hsame, happended]
    exact h.upsert hnow _
  · rw [hdiscards, happended]
    refine (h.upsert hnow _).discardInactive ?_ (hfew _)
    exact ⟨_, List.mem_append_right _ (List.mem_singleton_self _), rfl⟩

end Calls

/-! ## A sequence of calls -/

section Runs

variable [DecidableEq κ] [AddCommGroup τ] [LinearOrder τ]
variable {cfg : RateLimiterConfig τ} {key : κ} {now : τ} {calls : List (κ × τ)} {c : κ × τ}

theorem run_append (cfg : RateLimiterConfig τ) (calls : List (κ × τ)) (c : κ × τ) :
    run cfg (calls ++ [c]) = call cfg (run cfg calls) c := by
  unfold run
  rw [List.foldl_append]
  rfl

/-- The answers are to the calls. -/
theorem run_calls (cfg : RateLimiterConfig τ) (calls : List (κ × τ)) :
    (run cfg calls).1.map (fun c => (c.key, c.now)) = calls := by
  induction calls using List.reverseRecOn with
  | nil => rfl
  | append_singleton calls c ih =>
      rw [run_append]
      unfold call
      rw [List.map_append, ih]
      rfl

theorem run_count (hlimit : 1 ≤ cfg.limit) (calls : List (κ × τ)) :
    (run cfg calls).2.count ≤ cfg.maxKeys := by
  induction calls using List.reverseRecOn with
  | nil => exact Nat.zero_le _
  | append_singleton calls c ih =>
      rw [run_append]
      exact allow_count hlimit ih

theorem FewKeys.init (h : FewKeys cfg (calls ++ [c])) : FewKeys cfg calls := by
  constructor
  · have hclock := h.clock
    rw [List.map_append] at hclock
    exact (List.pairwise_append.mp hclock).1
  · intro start
    have hsublist : (keysWithin cfg start calls).length ≤
        (keysWithin cfg start (calls ++ [c])).length := by
      unfold keysWithin
      apply (List.subperm_of_subset (List.nodup_dedup _) _).length_le
      intro k hk
      rw [List.mem_dedup] at hk ⊢
      rw [List.filter_append, List.map_append]
      exact List.mem_append_left _ hk
    exact hsublist.trans (h.keys start)

/-- The clock has not gone back before the last call. -/
theorem FewKeys.before (h : FewKeys cfg (calls ++ [c])) : ∀ d ∈ (run cfg calls).1, d.now ≤ c.2 := by
  intro d hd
  have hclock := h.clock
  rw [List.map_append] at hclock
  refine (List.pairwise_append.mp hclock).2.2 d.now ?_ c.2 (List.mem_singleton_self _)
  have hmem : (d.key, d.now) ∈ calls := by
    rw [← run_calls cfg calls]
    exact List.mem_map_of_mem (f := fun c : Answer κ τ => (c.key, c.now)) hd
  exact List.mem_map_of_mem (f := Prod.snd) hmem

variable [IsOrderedAddMonoid τ]

/-- The window that starts with the first recent call holds all of them. -/
theorem FewKeys.recent (h : FewKeys cfg (calls ++ [c])) (allowed : Bool) :
    FewRecent cfg ((run cfg calls).1 ++ [⟨c.1, c.2, allowed⟩]) c.2 := by
  intro keys hnodup hused
  -- in terms of the calls
  have hcalls : ∀ key ∈ keys, ∃ d ∈ calls ++ [c], d.1 = key ∧ c.2 - cfg.windowSeconds < d.2 := by
    intro key hkey
    obtain ⟨d, hd, hdkey, hlate⟩ := hused key hkey
    refine ⟨(d.key, d.now), ?_, hdkey, hlate⟩
    rcases List.mem_append.mp hd with hold | hnew
    · apply List.mem_append_left
      rw [← run_calls cfg calls]
      exact List.mem_map_of_mem (f := fun c : Answer κ τ => (c.key, c.now)) hold
    · rw [List.mem_singleton.mp hnew]
      exact List.mem_append_right _ (List.mem_singleton_self _)
  have hlast : ∀ d ∈ calls ++ [c], d.2 ≤ c.2 := by
    intro d hd
    rcases List.mem_append.mp hd with hold | hnew
    · have hclock := h.clock
      rw [List.map_append] at hclock
      exact (List.pairwise_append.mp hclock).2.2 d.2 (List.mem_map_of_mem hold) c.2
        (List.mem_singleton_self _)
    · rw [List.mem_singleton.mp hnew]
  cases hfirst : (calls ++ [c]).filter fun d => c.2 - cfg.windowSeconds < d.2 with
  | nil =>
      have hnone : keys = [] := by
        apply List.eq_nil_iff_forall_not_mem.mpr
        intro key hkey
        obtain ⟨d, hd, -, hlate⟩ := hcalls key hkey
        have hmem : d ∈ (calls ++ [c]).filter fun d => c.2 - cfg.windowSeconds < d.2 :=
          List.mem_filter.mpr ⟨hd, decide_eq_true hlate⟩
        rw [hfirst] at hmem
        cases hmem
      rw [hnone]
      exact Nat.zero_le _
  | cons first rest =>
      have hsorted : (first :: rest).Pairwise fun d e => d.2 ≤ e.2 := by
        rw [← hfirst]
        exact (List.pairwise_map.mp h.clock).filter _
      have hin : first ∈ (calls ++ [c]).filter fun d => c.2 - cfg.windowSeconds < d.2 := by
        rw [hfirst]
        exact List.mem_cons_self
      have hstart : c.2 - cfg.windowSeconds < first.2 := of_decide_eq_true (List.mem_filter.mp hin).2
      have hsub : keys ⊆ keysWithin cfg first.2 (calls ++ [c]) := by
        intro key hkey
        obtain ⟨d, hd, rfl, hlate⟩ := hcalls key hkey
        unfold keysWithin
        rw [List.mem_dedup]
        refine List.mem_map_of_mem (List.mem_filter.mpr ⟨hd, decide_eq_true ⟨?_, ?_⟩⟩)
        · have hmem : d ∈ (calls ++ [c]).filter fun d => c.2 - cfg.windowSeconds < d.2 :=
            List.mem_filter.mpr ⟨hd, decide_eq_true hlate⟩
          rw [hfirst] at hmem
          rcases List.mem_cons.mp hmem with rfl | hlater
          · exact le_rfl
          · exact (List.pairwise_cons.mp hsorted).1 d hlater
        · exact (hlast d hd).trans_lt (sub_lt_iff_lt_add.mp hstart)
      exact (List.subperm_of_subset hnodup hsub).length_le.trans (h.keys first.2)

theorem run_tracks (h : FewKeys cfg calls) : Tracks cfg (run cfg calls).1 (run cfg calls).2 := by
  induction calls using List.reverseRecOn with
  | nil => exact .empty
  | append_singleton calls c ih =>
      rw [run_append]
      exact (ih h.init).allow h.before h.recent

/-- The answer to a call, by what was allowed of its key within the window before it. -/
theorem answer_iff (h : FewKeys cfg (calls ++ [c])) :
    (allow cfg c.1 c.2 (run cfg calls).2).1 = true ↔
      ((allowedTimes c.1 (run cfg calls).1).filter fun time =>
        c.2 - cfg.windowSeconds < time).length < cfg.limit := by
  rw [allow_iff, (run_tracks h.init).recent h.before]

/-- The times of an interval of which none is a window before another. -/
theorem window_limit (h : FewKeys cfg calls) (key : κ) (interval : τ → Prop)
    [DecidablePred interval]
    (hshort : ∀ x y, interval x → interval y → x - cfg.windowSeconds < y) :
    ((allowedTimes key (run cfg calls).1).filter fun time => interval time).length ≤
      cfg.limit := by
  induction calls using List.reverseRecOn with
  | nil => exact Nat.zero_le _
  | append_singleton calls c ih =>
      rw [run_append]
      show ((allowedTimes key ((run cfg calls).1 ++ [_])).filter _).length ≤ _
      rw [allowedTimes_append, List.filter_append, List.length_append]
      split
      · rename_i hallowed
        obtain ⟨rfl, hallowed⟩ := hallowed
        by_cases hin : interval c.2
        · -- the others of the interval are recent, and there were fewer of these than the limit
          have hfew := (answer_iff h).mp hallowed
          have hrecent : ((allowedTimes c.1 (run cfg calls).1).filter fun time =>
              interval time).length ≤ ((allowedTimes c.1 (run cfg calls).1).filter fun time =>
                c.2 - cfg.windowSeconds < time).length := by
            apply List.Sublist.length_le
            apply List.monotone_filter_right
            intro time htime
            exact decide_eq_true (hshort c.2 time hin (of_decide_eq_true htime))
          have hone : ([c.2].filter fun time => interval time).length ≤ 1 :=
            List.length_filter_le _ _
          exact (Nat.add_le_add hrecent hone).trans hfew
        · rw [List.filter_cons_of_neg (by simpa using hin)]
          exact ih h.init
      · exact ih h.init

/-- A call is refused only where the limit was used up within the window before it. -/
def RefusedWhenFull (cfg : RateLimiterConfig τ) (before : List (Answer κ τ)) (c : Answer κ τ) :
    Prop :=
  c.allowed = false →
    ((allowedTimes c.key before).filter fun time =>
      c.now - cfg.windowSeconds < time ∧ time ≤ c.now).length = cfg.limit

theorem run_refusals (h : FewKeys cfg calls) :
    Orderly (RefusedWhenFull cfg) (run cfg calls).1 := by
  induction calls using List.reverseRecOn with
  | nil => exact Orderly.nil
  | append_singleton calls c ih =>
      rw [run_append]
      apply (ih h.init).append
      intro hrefused
      have hfull : ¬ ((allowedTimes c.1 (run cfg calls).1).filter fun time =>
          c.2 - cfg.windowSeconds < time).length < cfg.limit := by
        rw [← answer_iff h]
        show ¬ (allow cfg c.1 c.2 (run cfg calls).2).1 = true
        rw [show (allow cfg c.1 c.2 (run cfg calls).2).1 = false from hrefused]
        exact Bool.false_ne_true
      have hwindow := window_limit h.init c.1
        (fun time => c.2 - cfg.windowSeconds < time ∧ time ≤ c.2)
        fun x y hx hy => (sub_le_sub_right hx.2 _).trans_lt hy.1
      have hsame : ((allowedTimes c.1 (run cfg calls).1).filter fun time =>
          c.2 - cfg.windowSeconds < time ∧ time ≤ c.2) =
          (allowedTimes c.1 (run cfg calls).1).filter fun time =>
            c.2 - cfg.windowSeconds < time := by
        apply List.filter_congr
        intro time htime
        obtain ⟨d, hd, rfl⟩ := List.mem_map.mp htime
        have hle := h.before d (List.mem_filter.mp hd).1
        simp only [hle, and_true]
      refine le_antisymm hwindow ?_
      show _ ≤ List.length (List.filter _ _)
      rw [hsame]
      exact not_lt.mp hfull

/-- The limit holds in every window of a sequence of calls with a clock that does not go back and
few keys, and only a key that has used up its limit is refused; whatever the calls, the table is
within its cap after each. -/
theorem message_rate_limiter (cfg : RateLimiterConfig τ) (hlimit : 1 ≤ cfg.limit)
    (calls : List (κ × τ)) :
    (FewKeys cfg calls →
      (∀ (key : κ) (start : τ),
        ((allowedTimes key (run cfg calls).1).filter fun time =>
          start ≤ time ∧ time < start + cfg.windowSeconds).length ≤ cfg.limit ∧
        ((allowedTimes key (run cfg calls).1).filter fun time =>
          start < time ∧ time ≤ start + cfg.windowSeconds).length ≤ cfg.limit) ∧
      Orderly (RefusedWhenFull cfg) (run cfg calls).1) ∧
    ∀ n, (run cfg (calls.take n)).2.count ≤ cfg.maxKeys := by
  refine ⟨fun h => ⟨fun key start => ⟨?_, ?_⟩, run_refusals h⟩, fun n => run_count hlimit _⟩
  · exact window_limit h key _ fun x y hx hy =>
      (sub_lt_iff_lt_add.mpr hx.2).trans_le hy.1
  · exact window_limit h key _ fun x y hx hy =>
      (sub_le_iff_le_add.mpr hx.2).trans_lt hy.1

end Runs

section Examples

/-- One call a minute, two keys. -/
def oneAMinute : RateLimiterConfig Int where
  limit := 1
  windowSeconds := 60
  maxKeys := 2

def twoKeys : List (String × Int) := [("a", 0), ("a", 30), ("b", 30), ("a", 61)]

theorem twoKeys_few : FewKeys oneAMinute twoKeys := by
  constructor
  · decide
  · intro start
    have hsub : keysWithin oneAMinute start twoKeys ⊆ ["a", "b"] := by
      intro key hkey
      unfold keysWithin at hkey
      rw [List.mem_dedup] at hkey
      obtain ⟨c, hc, rfl⟩ := List.mem_map.mp hkey
      have hall : ∀ c ∈ twoKeys, c.1 ∈ ["a", "b"] := by decide
      exact hall c (List.mem_filter.mp hc).1
    exact (List.subperm_of_subset (List.nodup_dedup _) hsub).length_le

theorem message_rate_limiter_minute :
    (run oneAMinute twoKeys).1.map Answer.allowed = [true, false, true, true] ∧
      (∀ start, ((allowedTimes "a" (run oneAMinute twoKeys).1).filter fun time =>
        start ≤ time ∧ time < start + 60).length ≤ 1) ∧
      Orderly (RefusedWhenFull oneAMinute) (run oneAMinute twoKeys).1 := by
  obtain ⟨hwindows, hrefusals⟩ :=
    (message_rate_limiter oneAMinute (by decide) twoKeys).1 twoKeys_few
  exact ⟨by decide, fun start => (hwindows "a" start).1, hrefusals⟩

end Examples

end Server
end ChatEngine
