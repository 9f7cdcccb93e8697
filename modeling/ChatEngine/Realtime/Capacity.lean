import ChatEngine.Realtime.Deployment
import ChatEngine.Store.Privacy

/-!
# Connection capacity

How many leases are active at once.

* `Registry.Alive`, a lease that counts or may count again: unexpired, its instance
  live under the generation that admitted it;
* `Unrevived`, what a call about an instance does to a lease that has lapsed;
* `RegistryReadings.Alone`, a call that overlaps no other;
* `CapacityOk`, the invariant: alive leases stay within both limits, and at most one
  row more than the limit is stored;
* `capacity_kept`, both limits in every run in which no calls overlap and no instance
  is revived, and `revived_over_capacity`, runs in which one is.
-/

namespace ChatEngine
namespace Realtime

open Lib
open Models
open Store

/-! ## Lapsed instances -/

section Lapsed

variable {β : Type} {f f' : Foundation β} {rd : CallReadings} {now : Timestamp}

/-- A cursor whose lease had lapsed by `now` is not renewed under its generation. -/
def Unrevived (now : Timestamp) (f f' : Foundation β) : Prop :=
  ∀ instanceId old row, f.cursor? instanceId = some old → f'.cursor? instanceId = some row →
    row.generation = old.generation →
      row.leaseExpiresAt = old.leaseExpiresAt ∨ old.Live now

theorem Unrevived.same (h : f'.cursors = f.cursors) : Unrevived now f f' := by
  intro instanceId old row hold hrow _
  unfold Foundation.cursor? at hold hrow
  rw [h, hold] at hrow
  cases hrow
  exact .inl rfl

theorem Unrevived.put {row : InstanceCursor}
    (h : ∀ old, f.cursor? row.instanceId = some old → row.generation = old.generation →
      row.leaseExpiresAt = old.leaseExpiresAt ∨ old.Live now) :
    Unrevived now f (f.putCursor row) := by
  intro instanceId old stored hold hstored hgen
  by_cases hid : row.instanceId = instanceId
  · subst hid
    rw [Foundation.cursor?_putCursor] at hstored
    cases hstored
    exact h old hold hgen
  · rw [Foundation.cursor?_putCursor_other hid, hold] at hstored
    cases hstored
    exact .inl rfl

theorem Unrevived.created {instanceId : String} {row : InstanceCursor}
    (hnone : f.cursor? instanceId = none) (hid : row.instanceId = instanceId) :
    Unrevived now f (f.putCursor row) := by
  refine .put fun stored hstored => ?_
  rw [hid, hnone] at hstored
  cases hstored

/-- A row found under its instance is replaced by one of the same instance. -/
theorem Unrevived.of_found {instanceId : String} {old row : InstanceCursor}
    (hold : f.cursor? instanceId = some old) (hid : row.instanceId = old.instanceId)
    (h : row.generation = old.generation →
      row.leaseExpiresAt = old.leaseExpiresAt ∨ old.Live now) :
    Unrevived now f (f.putCursor row) := by
  refine .put fun stored hstored hgen => ?_
  rw [hid, cursor?_self hold] at hstored
  cases hstored
  exact h hgen

/-- A recovery that is asked for again finds its instance still live. -/
def Call.NoRevival (now : Timestamp) (f : Foundation β) : Call β → Prop
  | .resynchronize instanceId _ recoveryGeneration _ =>
      ∀ row ∈ f.cursor? instanceId, row.generation = recoveryGeneration → row.Live now
  | _ => True

instance (now : Timestamp) (f : Foundation β) : DecidablePred (Call.NoRevival now f) := by
  intro call
  cases call <;> unfold Call.NoRevival <;> infer_instance

/-- A renewal asks for a live lease, a takeover mints a generation, and a recovery that
is not asked for again brings its own. -/
theorem Call.unrevived {call : Call β} {reply : Reply β}
    (hcond : call.NoRevival (rd.clock 0) f)
    (hfresh : ∀ instanceId, f.generation? instanceId ≠ some rd.fresh)
    (hrun : Tx.Returns (call.body rd) f reply f') : Unrevived (rd.clock 0) f f' := by
  have hminted : ∀ {instanceId old}, f.cursor? instanceId = some old →
      rd.fresh ≠ old.generation := by
    intro instanceId old hold heq
    refine hfresh instanceId ?_
    unfold Foundation.generation?
    rw [hold, heq]
    rfl
  cases call with
  | append _ _ _ _ =>
      obtain ⟨_, happend, -⟩ := Tx.returns_map.mp hrun
      obtain ⟨-, -, _, -, rfl⟩ := appendEvent_ok happend
      exact .same rfl
  | prune _ _ _ _ =>
      obtain ⟨_, hprune, -⟩ := Tx.returns_map.mp hrun
      rw [pruneEvents_ok hprune]
      exact .same (Foundation.cursors_prune f _)
  | claim _ _ _ =>
      obtain ⟨_, hclaim, -⟩ := Tx.returns_map.mp hrun
      obtain ⟨_, -, rfl, ⟨hnone, rfl⟩ | ⟨old, hold, ⟨hlive, -, rfl⟩ | ⟨-, rfl⟩⟩⟩ :=
        claimInstance_ok hclaim
      · exact .created hnone rfl
      · exact .of_found hold rfl fun _ => .inr hlive
      · exact .of_found hold rfl fun hgen => absurd hgen (hminted hold)
  | register _ _ =>
      obtain ⟨_, hregister, -⟩ := Tx.returns_map.mp hrun
      obtain ⟨_, -, rfl, ⟨hnone, rfl⟩ | ⟨old, hold, ⟨hlive, rfl⟩ | ⟨-, rfl⟩⟩⟩ :=
        registerInstance_ok hregister
      · exact .created hnone rfl
      · exact .of_found hold rfl fun _ => .inr hlive
      · exact .of_found hold rfl fun hgen => absurd hgen (hminted hold)
  | release _ _ =>
      obtain ⟨_, hrelease, -⟩ := Tx.returns_map.mp hrun
      obtain ⟨-, rfl⟩ | ⟨old, howned, -, rfl⟩ := releaseInstance_ok hrelease
      · exact .same rfl
      · obtain ⟨hold, hlive, -⟩ := Foundation.owned_eq_some.mp howned
        exact .of_found hold rfl fun _ => .inr hlive
  | heartbeat _ _ _ =>
      obtain ⟨_, hbeat, -⟩ := Tx.returns_map.mp hrun
      obtain ⟨old, howned, rfl⟩ := heartbeatInstance_ok hbeat
      obtain ⟨hold, hlive, -⟩ := Foundation.owned_eq_some.mp howned
      exact .of_found hold rfl fun _ => .inr hlive
  | recover _ _ _ =>
      obtain ⟨_, hrecover, -⟩ := Tx.returns_map.mp hrun
      obtain ⟨old, hold, -, -, -, rfl⟩ := recoverInstanceAfterGap_ok hrecover
      exact .of_found hold rfl fun hgen => absurd hgen (hminted hold)
  | resynchronize instanceId generation recoveryGeneration _ =>
      obtain ⟨_, hresync, -⟩ := Tx.returns_map.mp hrun
      obtain ⟨-, hne, old, hold, ⟨hagain, -, rfl⟩ | ⟨hfirst, -, rfl⟩⟩ :=
        returns_resynchronizeClaimedInstance.mp hresync
      · exact .of_found hold rfl fun _ => .inr (hcond old hold hagain)
      · exact .of_found hold rfl fun hgen => absurd (hfirst.symm.trans hgen.symm) hne
  | read _ _ _ _ =>
      obtain ⟨_, hread, -⟩ := Tx.returns_map.mp hrun
      obtain ⟨rfl, -⟩ := readEvents_ok hread
      exact .same rfl
  | acknowledge _ _ _ =>
      obtain ⟨_, hack, -⟩ := Tx.returns_map.mp hrun
      obtain ⟨old, howned, ⟨-, -, rfl⟩ | ⟨-, -, -, rfl⟩⟩ := acknowledgeEvents_ok hack
      · exact .same rfl
      · exact .of_found (Foundation.owned_eq_some.mp howned).1 rfl fun _ => .inl rfl

end Lapsed

/-! ## Alive leases -/

/-- The lease is active, unless its room is archived. -/
def Registry.Alive (s : Registry) (now : Timestamp) (lease : ConnectionLease) : Prop :=
  now < lease.leaseExpiresAt ∧ s.Current now lease

instance (s : Registry) (now : Timestamp) : DecidablePred (s.Alive now) := by
  intro lease
  unfold Registry.Alive
  infer_instance

/-- How many leases are alive, and how many of them in a room. -/
def Registry.aliveCount (s : Registry) (now : Timestamp) : Nat :=
  s.leases.countWhere (s.Alive now)

def Registry.roomAliveCount (s : Registry) (now : Timestamp) (roomId : String) : Nat :=
  s.leases.countWhere fun lease => lease.roomId = roomId ∧ s.Alive now lease

section Alive

variable {cfg : RegistryConfig} {rd : RegistryReadings} {s s' t : Registry}
  {now now' : Timestamp} {lease : ConnectionLease}

theorem Registry.Active.alive (h : s.Active now lease) : s.Alive now lease :=
  ⟨h.1, h.2.1⟩

/-- What is alive now was so before. -/
theorem Registry.Alive.before (h : s.Alive now' lease) (hle : now ≤ now') : s.Alive now lease := by
  obtain ⟨hexpires, owner, howner, hgen, hlive⟩ := h
  exact ⟨lt_of_le_of_lt hle hexpires, owner, howner, hgen, lt_of_le_of_lt hle hlive⟩

theorem alive_congr (h : ∀ instanceId, s'.foundation.cursor? instanceId =
    s.foundation.cursor? instanceId) : s'.Alive now lease ↔ s.Alive now lease := by
  unfold Registry.Alive Registry.Current
  rw [h]

/-- A lease no sweep may delete is active. -/
theorem active_of_not_stale (hok : RegistryOk s) (hlease : lease ∈ s.leases)
    (h : ¬ s.Stale now lease) : s.Active now lease := by
  unfold Registry.Stale at h
  rw [not_or, not_or] at h
  obtain ⟨hexpires, hcurrent, hopen⟩ := h
  obtain ⟨owner, howner, -⟩ := hok.owners lease hlease
  obtain ⟨room, hroom⟩ := Option.isSome_iff_exists.mp (hok.rooms lease hlease)
  have howned : ¬ (owner.leaseExpiresAt ≤ now ∨ owner.generation ≠ lease.instanceGeneration) :=
    fun hlapsed => hcurrent ⟨owner, howner, hlapsed⟩
  rw [not_or, not_not] at howned
  refine ⟨not_le.mp hexpires, ⟨owner, howner, howned.2, not_le.mp howned.1⟩, room, hroom, ?_⟩
  exact not_not.mp fun harchived => hopen ⟨room, hroom, harchived⟩

/-- Every lease of `s'` that is alive by `now'` continues one of `s` that was alive at
`now`, in the same room. -/
def Continues (s : Registry) (now : Timestamp) (s' : Registry) (now' : Timestamp) : Prop :=
  ∀ lease' ∈ s'.leases, s'.Alive now' lease' → ∃ lease ∈ s.leases,
    lease.connectionId = lease'.connectionId ∧ lease.roomId = lease'.roomId ∧ s.Alive now lease

theorem Continues.of_subset (hle : now ≤ now') (hsub : ∀ x ∈ s'.leases, x ∈ s.leases)
    (hcursors : ∀ instanceId, s'.foundation.cursor? instanceId =
      s.foundation.cursor? instanceId) : Continues s now s' now' := by
  intro x hx halive
  exact ⟨x, hsub x hx, rfl, rfl, ((alive_congr hcursors).mp halive).before hle⟩

theorem Continues.aliveCount_le (h : Continues s now s' now') :
    s'.aliveCount now' ≤ s.aliveCount now := by
  refine Table.countWhere_le_of_key fun x hx halive => ?_
  obtain ⟨old, hold, hid, -, hbefore⟩ := h x hx halive
  exact ⟨old, hold, hid, hbefore⟩

theorem Continues.roomAliveCount_le (h : Continues s now s' now') (roomId : String) :
    s'.roomAliveCount now' roomId ≤ s.roomAliveCount now roomId := by
  refine Table.countWhere_le_of_key fun x hx halive => ?_
  obtain ⟨old, hold, hid, hroom, hbefore⟩ := h x hx halive.2
  exact ⟨old, hold, hid, hroom.trans halive.1, hbefore⟩

/-- The invariant. -/
structure CapacityOk (cfg : RegistryConfig) (s : Registry) (now : Timestamp) : Prop where
  rows : RegistryOk s
  total : s.aliveCount now ≤ cfg.maxConnections
  room : ∀ roomId, s.roomAliveCount now roomId ≤ cfg.maxConnectionsPerRoom
  stored : s.leases.count ≤ cfg.maxConnections + 1

theorem CapacityOk.continues (h : CapacityOk cfg s now) (hrows : RegistryOk s')
    (hcontinues : Continues s now s' now') (hcount : s'.leases.count ≤ s.leases.count) :
    CapacityOk cfg s' now' where
  rows := hrows
  total := hcontinues.aliveCount_le.trans h.total
  room roomId := (hcontinues.roomAliveCount_le roomId).trans (h.room roomId)
  stored := hcount.trans h.stored

/-- What a call about an instance leaves alive was alive. -/
theorem Continues.served {call : Call ConnectionEvent} (hok : RegistryOk s)
    (hinstance : call.instance?.isSome = true)
    (hadmissible : call.Admissible s.history rd.onInstance)
    (hcond : call.NoRevival (rd.clock 0) s.foundation) (hbegin : now ≤ rd.clock 0)
    (hle : now ≤ now') : Continues s now (s.served rd call) now' := by
  intro lease hlease ⟨hexpires, owner', howner', hgen', hlive'⟩
  obtain ⟨owner, howner, hgen⟩ := hok.owners lease hlease
  have hordered := (hok.served hinstance hadmissible).ordered
  have hstored : (s.served rd call).foundation.generation? lease.instanceId =
      some lease.instanceGeneration := by
    unfold Foundation.generation?
    rw [howner', Option.map_some, hgen']
  refine ⟨lease, hlease, rfl, rfl, lt_of_le_of_lt hle hexpires, owner, howner, ?_, ?_⟩
  · rcases hgen with hsame | hreplaced
    · exact hsame
    · exact absurd (List.mem_append_right _ hreplaced) (hordered.current _ _ hstored)
  · have hsame : owner.generation = lease.instanceGeneration := by
      rcases hgen with hsame | hreplaced
      · exact hsame
      · exact absurd (List.mem_append_right _ hreplaced) (hordered.current _ _ hstored)
    have hunrevived : Unrevived (rd.clock 0) s.foundation (s.served rd call).foundation := by
      change Unrevived (rd.clock 0) s.foundation (call.exec rd.onInstance s.foundation).2
      rcases call.exec_cases rd.onInstance s.foundation with ⟨e, hexec⟩ | ⟨reply, f', hrun, hexec⟩
      · rw [hexec]
        exact .same rfl
      · rw [hexec]
        exact Call.unrevived hcond
          (fun i hfresh => hadmissible.1 (hok.ordered.stored i _ hfresh)) hrun
    rcases hunrevived _ owner owner' howner howner' (hgen'.trans hsame.symm) with hexp | hlive
    · exact lt_of_le_of_lt hle (lt_of_lt_of_eq hlive' hexp)
    · exact lt_of_le_of_lt hbegin hlive

theorem Swept.mem_leases {limit : Nat} {locked : List String} {prioritized : Option String}
    (h : Swept s t now limit locked prioritized) :
    lease ∈ t.leases ↔ lease ∈ s.leases ∧ lease.connectionId ∉
      (s.swept now limit locked prioritized).map ConnectionLease.connectionId := by
  rw [h.logs.leases]
  exact mem_drop_leases

/-- A sweep that finds no row locked and stops short of its limit leaves no stale lease. -/
theorem Swept.not_stale {limit : Nat} {prioritized : Option String}
    (h : Swept s t now limit [] prioritized)
    (hshort : (s.swept now limit [] prioritized).length < limit) (hlease : lease ∈ t.leases) :
    lease ∈ s.leases ∧ ¬ s.Stale now lease := by
  obtain ⟨hold, hkept⟩ := h.mem_leases.mp hlease
  refine ⟨hold, fun hstale => hkept (List.mem_map.mpr ⟨lease, ?_, rfl⟩)⟩
  exact mem_firstBy_of_length_lt hshort
    (List.mem_filter.mpr ⟨hold, decide_eq_true ⟨hstale, List.not_mem_nil⟩⟩)

theorem Swept.count {limit : Nat} {locked : List String} {prioritized : Option String}
    (h : Swept s t now limit locked prioritized) :
    t.leases.count + (s.swept now limit locked prioritized).length = s.leases.count := by
  rw [h.logs.leases]
  refine s.leases.length_deleteSelected _ ?_ ?_
  · intro x hx
    exact (List.mem_filter.mp (mem_of_mem_firstBy hx)).1
  · exact firstBy_nodup (s.leases.rows_nodup.filter _)

theorem Swept.cursor? {limit : Nat} {locked : List String} {prioritized : Option String}
    (h : Swept s t now limit locked prioritized) (instanceId : String) :
    t.foundation.cursor? instanceId = s.foundation.cursor? instanceId :=
  h.logs.cursor? instanceId

theorem Swept.continues {at' : Timestamp} {limit : Nat} {locked : List String}
    {prioritized : Option String} (h : Swept s t at' limit locked prioritized) (hle : now ≤ now') :
    Continues s now t now' :=
  .of_subset hle (fun _ hx => (h.mem_leases.mp hx).1) h.cursor?

theorem Swept.count_le {limit : Nat} {locked : List String} {prioritized : Option String}
    (h : Swept s t now limit locked prioritized) : t.leases.count ≤ s.leases.count :=
  (Nat.le_add_right _ _).trans h.count.le

/-- The call overlaps no other: it begins after the last commit, and finds no row locked. -/
structure RegistryReadings.Alone (now : Timestamp) (rd : RegistryReadings) : Prop where
  begin : now ≤ rd.clock 0
  unlocked : rd.locked = []

instance (now : Timestamp) : DecidablePred (RegistryReadings.Alone now) := fun rd =>
  decidable_of_iff (now ≤ rd.clock 0 ∧ rd.locked = [])
    ⟨fun ⟨hbegin, hunlocked⟩ => ⟨hbegin, hunlocked⟩, fun ⟨hbegin, hunlocked⟩ =>
      ⟨hbegin, hunlocked⟩⟩

/-- An acquisition that finds room keeps within both limits. -/
theorem CapacityOk.leased {roomId : String} {prioritized : Option String}
    {admissionSequence : Nat} (h : CapacityOk cfg s now) (htimely : Timely now now' rd)
    (hbegin : now ≤ rd.clock 0) (hrows : RegistryOk s') (hopen : s.Open lease.roomId)
    (hswept : Swept s t (rd.clock 1) admissionSweepLimit [] prioritized)
    (hroom : lease.roomId = roomId)
    (htotal : t.activeCount (rd.clock 2) < cfg.maxConnections)
    (hroomTotal : t.roomActiveCount (rd.clock 2) roomId < cfg.maxConnectionsPerRoom)
    (hreserved : Reserved t s' rd lease (.leased lease admissionSequence)) :
    CapacityOk cfg s' now' := by
  obtain ⟨hnow, hsweep, hcounted, hinsert, hcommit⟩ := htimely
  cases hreserved with
  | @leased inserted _ _ hins hlogs _ =>
      have halive : ∀ x, s'.Alive now' x ↔ t.Alive now' x :=
        fun x => alive_congr hlogs.cursor?
      have hcount : s'.leases.count = t.leases.count + 1 := by
        rw [hlogs.leases]
        exact Table.count_of_insert? hins
      -- an alive lease of an open room is counted
      have hactive : ∀ x, t.Open x.roomId → s'.Alive now' x → t.Active (rd.clock 2) x := by
        intro x hx hnow'
        obtain ⟨hexpires, hcurrent⟩ :=
          ((halive x).mp hnow').before (hinsert.trans hcommit)
        exact ⟨hexpires, hcurrent, hx⟩
      have hopenT : t.Open lease.roomId := (hswept.open_iff _).mpr hopen
      refine ⟨hrows, ?_, ?_, ?_⟩
      · by_cases hshort :
            (s.swept (rd.clock 1) admissionSweepLimit [] prioritized).length < admissionSweepLimit
        · have hle : t.leases.countWhere (s'.Alive now') ≤ t.activeCount (rd.clock 2) := by
            refine Table.countWhere_le_of_key fun x hx hx' => ⟨x, hx, rfl, hactive x ?_ hx'⟩
            obtain ⟨hold, hfresh⟩ := hswept.not_stale hshort hx
            exact (hswept.open_iff _).mpr (active_of_not_stale h.rows hold hfresh).2.2
          unfold Registry.aliveCount
          rw [hlogs.leases]
          exact (Table.countWhere_of_insert? hins _).trans (Nat.succ_le_of_lt (hle.trans_lt htotal))
        · refine (Table.countWhere_le_count _ _).trans ?_
          have hswept' := hswept.count
          have hstored := h.stored
          unfold admissionSweepLimit at hshort hswept'
          omega
      · intro other
        by_cases hother : other = roomId
        · subst hother
          have hle : t.leases.countWhere
              (fun x => x.roomId = other ∧ s'.Alive now' x) ≤
                t.roomActiveCount (rd.clock 2) other := by
            refine Table.countWhere_le_of_key fun x hx hx' => ⟨x, hx, rfl, hx'.1, ?_⟩
            exact hactive x (hx'.1 ▸ hroom ▸ hopenT) hx'.2
          unfold Registry.roomAliveCount
          rw [hlogs.leases]
          exact (Table.countWhere_of_insert? hins _).trans
            (Nat.succ_le_of_lt (hle.trans_lt hroomTotal))
        · refine le_trans ?_ (h.room other)
          refine Table.countWhere_le_of_key fun x hx hx' => ?_
          rw [hlogs.leases] at hx
          rcases (Table.mem_of_insert? hins).mp hx with hold | rfl
          · exact ⟨x, (hswept.mem_leases.mp hold).1, rfl, hx'.1, ((alive_congr hswept.cursor?).mp
              ((halive x).mp hx'.2)).before hnow⟩
          · exact absurd (hx'.1.symm.trans hroom) hother
      · by_cases hshort :
            (s.swept (rd.clock 1) admissionSweepLimit [] prioritized).length < admissionSweepLimit
        · have hle : t.leases.count ≤ s.aliveCount now := by
            have hall : t.leases.count = t.leases.countWhere fun _ => True := by
              unfold Table.count Table.countWhere
              rw [List.filter_eq_self.mpr]
              intro _ _
              exact decide_eq_true trivial
            rw [hall]
            refine Table.countWhere_le_of_key fun x hx _ => ?_
            obtain ⟨hold, hfresh⟩ := hswept.not_stale hshort hx
            exact ⟨x, hold, rfl,
              (active_of_not_stale h.rows hold hfresh).alive.before (hbegin.trans hsweep)⟩
          rw [hcount]
          exact Nat.succ_le_succ (hle.trans h.total)
        · have hswept' := hswept.count
          have hstored := h.stored
          unfold admissionSweepLimit at hshort hswept'
          omega

theorem count_upsert_of_mem {renewed : ConnectionLease} (h : lease ∈ s.leases)
    (hid : lease.connectionId = renewed.connectionId) :
    (s.leases.upsert renewed).count = s.leases.count := by
  unfold Table.upsert
  split
  · rename_i inserted hins
    exact absurd hid ((Table.insert?_eq_some.mp hins).1 lease h)
  · exact Table.count_modify

theorem CapacityOk.acquired {connectionId instanceId roomId username : String}
    {subject : Option String} {outcome : Acquisition} (h : CapacityOk cfg s now)
    (htimely : Timely now now' rd) (halone : rd.Alone now) (hrows : RegistryOk s')
    (hacquired : Acquired cfg rd s s' connectionId instanceId roomId username subject outcome) :
    CapacityOk cfg s' now' := by
  have hnow := htimely.present
  obtain ⟨hopen, owner, t, -, -, hswept, ⟨-, rfl, -⟩ | ⟨htotal, hroomTotal, hreserved⟩⟩ := hacquired
  · exact h.continues hrows (hswept.continues hnow) hswept.count_le
  · cases outcome with
    | refused => cases hreserved
    | overtaken =>
        cases hreserved with
        | overtaken heq =>
            subst heq
            exact h.continues hrows (hswept.continues hnow) hswept.count_le
    | leased lease admissionSequence =>
        have hlease : lease = newLease cfg rd connectionId instanceId owner.generation roomId
            username subject := by
          cases hreserved
          rfl
        subst hlease
        rw [halone.unlocked] at hswept
        exact h.leased htimely halone.begin hrows hopen hswept rfl htotal hroomTotal hreserved

theorem CapacityOk.effect {call : RegistryCall} {reply : RegistryReply} (h : CapacityOk cfg s now)
    (htimely : Timely now now' rd) (halone : rd.Alone now)
    (heffect : Effect cfg rd s s' call reply) : CapacityOk cfg s' now' := by
  have hrows := h.rows.effect heffect
  have hnow := htimely.present
  cases heffect with
  | tables _ hlogs =>
      refine h.continues hrows (.of_subset hnow ?_ hlogs.cursor?) ?_
      · intro x hx
        rw [hlogs.leases] at hx
        exact hx
      · exact (congrArg Table.count hlogs.leases).le
  | deleted _ hlogs =>
      refine h.continues hrows (.of_subset hnow ?_ hlogs.cursor?) ?_
      · intro x hx
        rw [hlogs.leases] at hx
        exact (mem_drop_leases.mp hx).1
      · exact (congrArg Table.count hlogs.leases).le.trans (Table.count_deleteWhere_le _ _)
  | acquired hacquired => exact h.acquired htimely halone hrows hacquired
  | @renewed _ _ _ _ lease expiresAt hlease hactive heq =>
      subst heq
      have hid : lease.connectionId = (lease.until expiresAt).connectionId := rfl
      refine h.continues hrows ?_ (count_upsert_of_mem hlease hid).le
      intro x hx halive
      rcases Table.mem_upsert.mp hx with rfl | ⟨hold, -⟩
      · exact ⟨lease, hlease, rfl, rfl, hactive.alive.before halone.begin⟩
      · exact ⟨x, hold, rfl, rfl, halive.before hnow⟩
  | released _ _ hlogs =>
      refine h.continues hrows (.of_subset hnow ?_ hlogs.cursor?) ?_
      · intro x hx
        rw [hlogs.leases] at hx
        exact (mem_drop_leases.mp hx).1
      · exact (congrArg Table.count hlogs.leases).le.trans (Table.count_deleteWhere_le _ _)
  | swept hswept => exact h.continues hrows (hswept.continues hnow) hswept.count_le
  | refreshed _ _ _ heq =>
      subst heq
      exact h.continues hrows (.of_subset hnow (fun _ hx => hx) fun _ => rfl) (Nat.le_refl _)
  | started _ _ hlogs =>
      refine h.continues hrows (.of_subset hnow ?_ hlogs.cursor?) ?_
      · intro x hx
        rw [hlogs.leases] at hx
        exact hx
      · exact (congrArg Table.count hlogs.leases).le
  | stopped _ _ hlogs =>
      refine h.continues hrows (.of_subset hnow ?_ hlogs.cursor?) ?_
      · intro x hx
        rw [hlogs.leases] at hx
        exact hx
      · exact (congrArg Table.count hlogs.leases).le

end Alive

/-! ## Every run -/

section Runs

variable {cfg : RegistryConfig} {d d' : Deployment}

/-- The action overlaps no other. -/
def Alone (d : Deployment) : DeploymentAction → Prop
  | .call rd _ _ => rd.Alone d.now
  | .tick _ => True

instance (d : Deployment) : DecidablePred (Alone d) := by
  intro action
  unfold Alone
  split <;> infer_instance

/-- The action revives no instance whose lease has lapsed. -/
def NoRevival (d : Deployment) : DeploymentAction → Prop
  | .call rd _ (.onInstance call) => call.NoRevival (rd.clock 0) d.registry.foundation
  | _ => True

instance (d : Deployment) : DecidablePred (NoRevival d) := by
  intro action
  unfold NoRevival
  split <;> infer_instance

/-- The invariant, at the present of a deployment. -/
def WithinCapacity (cfg : RegistryConfig) (d : Deployment) : Prop :=
  CapacityOk cfg d.registry d.now

/-- The step lemma. -/
theorem WithinCapacity.step {action : DeploymentAction} (h : WithinCapacity cfg d)
    (halone : Alone d action) (hcond : NoRevival d action) (hstep : DeploymentStep cfg d action d') :
    WithinCapacity cfg d' := by
  unfold WithinCapacity at h ⊢
  unfold DeploymentStep at hstep
  cases action with
  | tick now =>
      simp only [Deployment.next] at hstep
      split at hstep
      · rename_i hle
        cases hstep
        exact h.continues h.rows (.of_subset hle (fun _ hx => hx) fun _ => rfl) (Nat.le_refl _)
      · cases hstep
  | call rd now call =>
      simp only [Deployment.next] at hstep
      split at hstep
      · rename_i hguard
        obtain ⟨htimely, hpossible⟩ := hguard
        have hnow := htimely.present
        have hbegin := halone.begin
        cases hstep
        cases call.committed cfg rd d.registry with
        | failed heq =>
            rw [heq]
            exact h.continues h.rows (.of_subset hnow (fun _ hx => hx) fun _ => rfl)
              (Nat.le_refl _)
        | @onInstance served heq =>
            rw [heq]
            exact h.continues (h.rows.served hpossible.1 hpossible.2)
              (.served h.rows hpossible.1 hpossible.2 hcond hbegin hnow) (Nat.le_refl _)
        | body hne hrun => exact h.effect htimely halone (RegistryCall.effect hne hrun)
      · cases hstep

theorem WithinCapacity.start (cfg : RegistryConfig) : WithinCapacity cfg {} where
  rows := RegistryOk.start
  total := Nat.zero_le _
  room _ := Nat.zero_le _
  stored := Nat.zero_le _

/-- In every run whose calls do not overlap, and that revives no lapsed instance, the
active leases stay within both limits, until the next commit; and capacity is refused
only where a limit is reached. -/
theorem capacity_kept
    (hrun : Run (DeploymentStep cfg) (fun d action => Alone d action ∧ NoRevival d action) {} d) :
    (∀ now, d.now ≤ now → d.registry.activeCount now ≤ cfg.maxConnections ∧
      ∀ roomId, d.registry.roomActiveCount now roomId ≤ cfg.maxConnectionsPerRoom) ∧
    ∀ rd connectionId instanceId roomId username subject s',
      (RegistryCall.tryAcquire connectionId instanceId roomId username subject).exec cfg rd
          d.registry = (.ok (.acquisition .refused), s') →
        cfg.maxConnections ≤ s'.activeCount (rd.clock 2) ∨
          cfg.maxConnectionsPerRoom ≤ s'.roomActiveCount (rd.clock 2) roomId := by
  have hok : WithinCapacity cfg d :=
    hrun.invariant (fun _ _ _ h hcond hstep => h.step hcond.1 hcond.2 hstep) (.start cfg)
  constructor
  · intro now hnow
    refine ⟨le_trans ?_ hok.total, fun roomId => le_trans ?_ (hok.room roomId)⟩
    · exact Table.countWhere_le_of_key fun x hx hactive =>
        ⟨x, hx, rfl, hactive.alive.before hnow⟩
    · exact Table.countWhere_le_of_key fun x hx hactive =>
        ⟨x, hx, rfl, hactive.1, hactive.2.alive.before hnow⟩
  · intro rd connectionId instanceId roomId username subject s' hexec
    have hreturns := Tx.returns_atomically.mp hexec
    obtain ⟨outcome, hacquire, houtcome⟩ := Tx.returns_map.mp hreturns
    cases houtcome
    obtain ⟨-, _, t, -, -, -, ⟨-, rfl, hfull⟩ | ⟨-, -, hreserved⟩⟩ := tryAcquire_ok hacquire
    · exact hfull
    · cases hreserved

end Runs

/-- The configuration of the worked examples: three rooms of eight connections. -/
def crowdedRegistry : RegistryConfig where
  store := { smallConfig with maxRooms := 3 }
  maxConnections := 24
  maxConnectionsPerRoom := 8
  connections_bounds := by decide
  lease_bounds := halfMinute_bounds
  timeout_bounds := eightSeconds_bounds

/-- The id made of the `i`-th letter. -/
def letter (i : Nat) : String := String.singleton (Char.ofNat (97 + i))

def threeRooms : List DeploymentAction :=
  [.at 0 10 (.createRoom { name := "A", id := some ⟨"a", by decide⟩ } "admin"),
   .at 0 20 (.createRoom { name := "B", id := some ⟨"b", by decide⟩ } "admin"),
   .at 0 30 (.createRoom { name := "C", id := some ⟨"c", by decide⟩ } "admin")]

/-- `n` connections of one instance, eight to a room. -/
def crowd (n : Nat) : List DeploymentAction :=
  (List.range n).map fun i =>
    .at (seconds (1 + i / 16)) (100 + i)
      (.tryAcquire (letter i) "n" (letter (i / 8)) "u" none)

/-- A ninth connection to the first room. -/
def overcrowded : List DeploymentAction :=
  threeRooms ++ [.at 0 40 (.onInstance (.claim "n" 5 none))] ++ crowd 8 ++
    [.at (seconds 2) 200 (.tryAcquire "z" "n" "a" "u" none)]

theorem capacity_kept_overcrowded :
    (Deployment.run crowdedRegistry overcrowded {}).registry.roomActiveCount (seconds 2) "a" = 8 ∧
      (Deployment.run crowdedRegistry overcrowded {}).registry.roomActiveCount (seconds 2) "a" ≤
        crowdedRegistry.maxConnectionsPerRoom := by
  have hmeets : Deployment.Meets crowdedRegistry
      (fun d action => Alone d action ∧ NoRevival d action)
      {} overcrowded := by
    decide +kernel
  exact ⟨by decide +kernel,
    ((capacity_kept (Deployment.run_of_meets hmeets)).1 _ (by decide +kernel)).2 _⟩

/-- The rooms are full and the instance lease lapses; another instance admits one
connection more, whose sweep stops at sixteen leases; then the first instance asks
again for the recovery it has had. -/
def revived : List DeploymentAction :=
  threeRooms ++
    [.at 0 40 (.onInstance (.claim "n" 5 none)),
     .at 0 50 (.onInstance (.resynchronize "n" 40 500 5))] ++
    crowd 24 ++
    [.at (seconds 10) 200 (.onInstance (.claim "m" 30 none)),
     .at (seconds 10) 201 (.tryAcquire "z" "m" "c" "u" none),
     .at (seconds 10) 300 (.onInstance (.resynchronize "n" 40 500 5))]

/-- The same, but that the first instance has made a heartbeat before its lease lapsed, which
commits after the acquisition it overlaps. -/
def overlapped : List DeploymentAction :=
  threeRooms ++ [.at 0 40 (.onInstance (.claim "n" 5 none))] ++ crowd 24 ++
    [.at (seconds 10) 200 (.onInstance (.claim "m" 30 none)),
     .at (seconds 10) 201 (.tryAcquire "z" "m" "c" "u" none),
     .call (.fixed (seconds 4) 300) (seconds 10) (.onInstance (.heartbeat "n" none 60))]

/-- The third room then has nine active connections. -/
theorem revived_over_capacity :
    (Reach (DeploymentStep crowdedRegistry) {} (Deployment.run crowdedRegistry revived {}) ∧
      (Deployment.run crowdedRegistry revived {}).registry.roomActiveCount
        (Deployment.run crowdedRegistry revived {}).now "c" = 9) ∧
    (Reach (DeploymentStep crowdedRegistry) {} (Deployment.run crowdedRegistry overlapped {}) ∧
      (Deployment.run crowdedRegistry overlapped {}).registry.roomActiveCount
        (Deployment.run crowdedRegistry overlapped {}).now "c" = 9) ∧
    crowdedRegistry.maxConnectionsPerRoom = 8 :=
  ⟨⟨Deployment.run_of_forall (fun _ _ _ => trivial) {}, by decide +kernel⟩,
    ⟨Deployment.run_of_forall (fun _ _ _ => trivial) {}, by decide +kernel⟩, rfl⟩

end Realtime
end ChatEngine
