import ChatEngine.Realtime.Cluster

/-!
# One ready process per instance

At no time are two processes of one instance id ready.

* `Keeps` and `resume_cases`, what a step of the relay does to its generations
  and its deadline;
* `Call.SentBy`, the calls a process can have asked for, and `Call.SentBy.effect`,
  what such a call does to the cursor row of its instance;
* `Cluster.Covered` and `ClusterOk`, the invariant that relates both clocks: while
  a deadline a process counts on has not passed, the stored lease is its own and
  does not expire before it;
* `one_ready_per_instance`, the property of every run.
-/

namespace ChatEngine
namespace Realtime

open Lib
open Models

variable {β : Type}

/-! ## Generations and deadlines of a relay -/

/-- A step of the relay that adopts no generation. -/
structure Keeps (fresh : Generation) (r r' : Relay) : Prop where
  generation : r'.generation = r.generation
  leaseDeadline : r'.leaseDeadline = r.leaseDeadline
  recovery : r'.recoveryGeneration = r.recoveryGeneration ∨ r'.recoveryGeneration = none ∨
    (r.recoveryGeneration = none ∧ r'.recoveryGeneration = some fresh ∧
      r'.generation.isSome = true)
  recovers : (r.recoveryGeneration.isSome = true → r.recoveryRequired = true) →
    r'.recoveryGeneration.isSome = true → r'.recoveryRequired = true

section Relay

variable {cfg : RelayConfig} {r r' : Relay} {time : Timestamp} {fresh : Generation}

/-- The fields the ledger is about are untouched. -/
theorem Keeps.of_eq (hgen : r'.generation = r.generation)
    (hdeadline : r'.leaseDeadline = r.leaseDeadline)
    (hrecovery : r'.recoveryGeneration = r.recoveryGeneration)
    (hrequired : r'.recoveryRequired = r.recoveryRequired) : Keeps fresh r r' where
  generation := hgen
  leaseDeadline := hdeadline
  recovery := .inl hrecovery
  recovers h hsome := by
    rw [hrequired]
    exact h (hrecovery ▸ hsome)

theorem begin_keeps : Keeps fresh r (r.begin time : Relay × Await β).1 := by
  unfold Relay.begin Relay.beat
  split
  · exact .of_eq rfl rfl rfl rfl
  split
  · exact .of_eq rfl rfl rfl rfl
  · exact .of_eq rfl rfl rfl rfl

theorem attempt_keeps : Keeps fresh r (r.attempt time fresh : Relay × Await β).1 := by
  unfold Relay.attempt
  split
  · rename_i hrequired
    split
    · exact .of_eq rfl rfl rfl rfl
    · rename_i hgen
      have hsome : r.generation.isSome = true := by
        simpa [Option.isNone_iff_eq_none, Option.isSome_iff_ne_none] using hgen
      refine ⟨rfl, rfl, ?_, fun _ _ => hrequired⟩
      cases hrecovery : r.recoveryGeneration with
      | none => exact .inr (.inr ⟨rfl, rfl, hsome⟩)
      | some g => exact .inl rfl
  · exact begin_keeps

theorem top_keeps : Keeps fresh r (r.top time fresh : Relay × Await β).1 := by
  unfold Relay.top
  split
  · exact .of_eq rfl rfl rfl rfl
  split
  · split
    · have h : Keeps fresh { r with fenceRequired := false }
          (Relay.attempt time fresh { r with fenceRequired := false } : Relay × Await β).1 :=
        attempt_keeps
      exact ⟨h.generation, h.leaseDeadline, h.recovery, h.recovers⟩
    · exact .of_eq rfl rfl rfl rfl
  · exact attempt_keeps

theorem processed_keeps {count : Nat} :
    Keeps fresh r (r.processed cfg time fresh count : Relay × Await β).1 := by
  unfold Relay.processed
  split
  · exact top_keeps
  · exact .of_eq rfl rfl rfl rfl

theorem handle_keeps {failure : Failure} :
    Keeps fresh r (r.handle failure : Relay × Await β).1 := by
  unfold Relay.handle
  cases failure with
  | other => exact .of_eq rfl rfl rfl rfl
  | unavailable => cases r.fenced <;> exact .of_eq rfl rfl rfl rfl
  | lease => cases r.fenced <;> exact ⟨rfl, rfl, .inr (.inl rfl), fun _ h => by cases h⟩
  | lag =>
      cases r.fenced <;>
        exact ⟨rfl, rfl, .inl rfl, fun _ _ => by
          simp [Relay.failed, Relay.startFence, Relay.recoveryRequired]⟩
  | gap =>
      cases r.fenced <;>
        exact ⟨rfl, rfl, .inl rfl, fun _ _ => by
          simp [Relay.failed, Relay.startFence, Relay.recoveryRequired]⟩

/-- What the reply of a call makes of the relay: it keeps its generations and its
deadline, or it adopts the generation the reply carries and counts its lease from
when the request was sent, or it only does the latter. -/
inductive Resumed (cfg : RelayConfig) (fresh : Generation) (r : Relay) (a : Await β) :
    Except Failure (Reply β) → Relay → Prop
  | kept {outcome : Except Failure (Reply β)} {r' : Relay} :
      Keeps fresh r r' → (r.cursor = none → r'.cursor = none) → Resumed cfg fresh r a outcome r'
  | adopted {started : Timestamp} {registration : InstanceRegistration} (r₁ : Relay)
      {r' : Relay} :
      a.started? = some started → r₁.generation = some registration.generation →
      r₁.leaseDeadline = started + seconds cfg.leaseSeconds →
      (r₁.recoveryGeneration = none ∨
        (r₁.recoveryGeneration = r.recoveryGeneration ∧ r.recoveryRequired = false)) →
      r₁.recoveryRequired = false →
      Keeps fresh r₁ r' → Resumed cfg fresh r a (.ok (.registration registration)) r'
  | renewed {started time : Timestamp} :
      a.started? = some started →
      Resumed cfg fresh r a (.ok .none) (r.renewed cfg started time)

theorem resume_cases {a : Await β} {outcome : Except Failure (Reply β)}
    {task : Relay × Await β} (h : TaskOk r a)
    (hresume : r.resume cfg time fresh outcome a = some task) :
    Resumed cfg fresh r a outcome task.1 := by
  have hhandled : ∀ failure, r.cursor = none →
      (r.handle failure : Relay × Await β).1.cursor = none := by
    intro failure hcursor
    unfold Relay.handle
    cases failure with
    | other => exact hcursor
    | lag | gap | lease | unavailable => cases r.fenced <;> rfl
  cases outcome with
  | error failure =>
      cases a with
      | initializing _ | recovering _ | beating _ | reading | acknowledging _ _ _ =>
          cases hresume
          exact .kept handle_keeps (hhandled failure)
      | opening _ | releasing =>
          cases hresume
          exact .kept (.of_eq rfl rfl rfl rfl) id
      | created | fencing _ _ | dispatching _ _ _ _ _ | waiting | ended | closed => cases hresume
  | ok reply =>
      have hexpects := h.expects
      cases a with
      | created | fencing _ _ | dispatching _ _ _ _ _ | waiting | ended | closed => cases hresume
      | releasing =>
          cases hresume
          exact .kept (.of_eq rfl rfl rfl rfl) id
      | opening started =>
          cases reply with
          | registration registration =>
              cases hresume
              exact .adopted (r.registered cfg started time registration) rfl rfl rfl
                (.inr ⟨rfl, hexpects.2.2⟩) hexpects.2.2 (.of_eq rfl rfl rfl rfl)
          | none | sequence _ | pruned _ | released _ | events _ => cases hresume
      | initializing started =>
          cases reply with
          | registration registration =>
              cases hresume
              have hkeeps : Keeps fresh (r.registered cfg started time registration)
                  (Relay.beat time (r.registered cfg started time registration) :
                    Relay × Await β).1 := by
                unfold Relay.beat
                split
                · exact .of_eq rfl rfl rfl rfl
                · exact .of_eq rfl rfl rfl rfl
              exact .adopted (r.registered cfg started time registration) rfl rfl rfl
                (.inr ⟨rfl, hexpects.2.2⟩) hexpects.2.2 hkeeps
          | none | sequence _ | pruned _ | released _ | events _ => cases hresume
      | recovering started =>
          cases reply with
          | registration registration =>
              cases hresume
              exact .adopted (r.resynchronized cfg started time registration) rfl rfl rfl
                (.inl rfl) rfl begin_keeps
          | none | sequence _ | pruned _ | released _ | events _ => cases hresume
      | beating started =>
          cases reply with
          | none =>
              cases hresume
              exact .renewed rfl
          | registration _ | sequence _ | pruned _ | released _ | events _ => cases hresume
      | reading =>
          have hnone : r.cursor = none → False := by
            intro hcursor
            change r.cursor.isSome = true at hexpects
            rw [hcursor] at hexpects
            cases hexpects
          cases reply with
          | events events =>
              cases events with
              | nil =>
                  cases hresume
                  exact .kept processed_keeps fun hcursor => (hnone hcursor).elim
              | cons event rest =>
                  cases hresume
                  exact .kept (.of_eq rfl rfl rfl rfl) id
          | none | registration _ | sequence _ | pruned _ | released _ => cases hresume
      | acknowledging throughSequence count failed =>
          have hnone : r.cursor = none → False := by
            intro hcursor
            change r.cursor.isSome = true at hexpects
            rw [hcursor] at hexpects
            cases hexpects
          cases reply with
          | sequence n =>
              cases failed with
              | true =>
                  cases hresume
                  exact .kept (.of_eq rfl rfl rfl rfl) fun hcursor => (hnone hcursor).elim
              | false =>
                  cases hresume
                  have hkeeps : Keeps fresh { r with cursor := some n }
                      (Relay.processed cfg time fresh count { r with cursor := some n } :
                        Relay × Await β).1 := processed_keeps
                  exact .kept ⟨hkeeps.generation, hkeeps.leaseDeadline, hkeeps.recovery,
                    hkeeps.recovers⟩ fun hcursor => (hnone hcursor).elim
          | none | registration _ | pruned _ | released _ | events _ => cases hresume

end Relay

/-! ## Calls a process sends -/

/-- The generations a call names. -/
def Call.names : Call β → List Generation
  | .claim _ _ generation | .read _ _ generation _ | .acknowledge _ _ generation =>
      generation.toList
  | .heartbeat _ generation _ | .recover _ generation _ => generation.toList
  | .release _ generation => [generation]
  | .resynchronize _ generation recoveryGeneration _ => [generation, recoveryGeneration]
  | .append .. | .prune .. | .register .. => []

/-- A call the relay of `cfg` makes, under generations that are its own. -/
def Call.SentBy (cfg : RelayConfig) (mine : Generation → Prop) : Call β → Prop
  | .claim instanceId leaseSeconds generation =>
      instanceId = cfg.instanceId ∧ leaseSeconds = cfg.leaseSeconds ∧ ∀ g ∈ generation, mine g
  | .heartbeat instanceId generation leaseSeconds =>
      instanceId = cfg.instanceId ∧ leaseSeconds = cfg.leaseSeconds ∧
        ∃ g, generation = some g ∧ mine g
  | .resynchronize instanceId generation recoveryGeneration leaseSeconds =>
      instanceId = cfg.instanceId ∧ leaseSeconds = cfg.leaseSeconds ∧ mine generation ∧
        mine recoveryGeneration
  | .read instanceId _ generation _ | .acknowledge instanceId _ generation =>
      instanceId = cfg.instanceId ∧ ∃ g, generation = some g ∧ mine g
  | .release instanceId generation => instanceId = cfg.instanceId ∧ mine generation
  | .append .. | .prune .. | .register .. | .recover .. => False

/-- The calls that leave the caller with a full lease. -/
def Call.Leases : Call β → Prop
  | .claim .. | .heartbeat .. | .resynchronize .. => True
  | _ => False

def Call.Releases : Call β → Prop
  | .release .. => True
  | _ => False

/-- What a call of `cfg` leaves of the lease of its row. -/
inductive Leased (cfg : RelayConfig) (rd : CallReadings) (call : Call β) (f : Foundation β)
    (row' : InstanceCursor) : Prop
  | granted : rd.clock 0 + seconds cfg.leaseSeconds ≤ row'.leaseExpiresAt →
      row'.leaseExpiresAt ≤ rd.clock 1 + seconds cfg.leaseSeconds → Leased cfg rd call f row'
  | kept {row : InstanceCursor} : f.cursor? cfg.instanceId = some row →
      row'.generation = row.generation → row'.leaseExpiresAt = row.leaseExpiresAt →
      ¬ call.Leases → Leased cfg rd call f row'
  | released : call.Releases → row'.leaseExpiresAt ≤ rd.clock 1 → Leased cfg rd call f row'

/-- What a committed call of `cfg` wrote: the row of its own instance, which was
its own before or had expired, and is its own now. -/
structure Wrote (cfg : RelayConfig) (mine : Generation → Prop) (rd : CallReadings)
    (call : Call β) (f f' : Foundation β) (reply : Reply β) (row' : InstanceCursor) : Prop where
  stored : f'.cursor? cfg.instanceId = some row'
  own : row'.generation = rd.fresh ∨ mine row'.generation
  taken : ∀ row, f.cursor? cfg.instanceId = some row →
    mine row.generation ∨ ¬ row.Live (rd.clock 0)
  lease : Leased cfg rd call f row'
  reply : ∀ registration, reply = .registration registration →
    registration.generation = row'.generation

section Calls

variable {cfg : RelayConfig} {mine : Generation → Prop} {rd : CallReadings} {call : Call β}
  {f f' : Foundation β} {reply : Reply β}

theorem Call.SentBy.mono {mine' : Generation → Prop} (h : call.SentBy cfg mine)
    (hmine : ∀ g, mine g → mine' g) : call.SentBy cfg mine' := by
  cases call with
  | claim instanceId leaseSeconds generation =>
      exact ⟨h.1, h.2.1, fun g hg => hmine g (h.2.2 g hg)⟩
  | heartbeat instanceId generation leaseSeconds =>
      obtain ⟨hid, hlease, g, hg, hown⟩ := h
      exact ⟨hid, hlease, g, hg, hmine g hown⟩
  | resynchronize instanceId generation recoveryGeneration leaseSeconds =>
      exact ⟨h.1, h.2.1, hmine _ h.2.2.1, hmine _ h.2.2.2⟩
  | read instanceId limit generation limits =>
      obtain ⟨hid, g, hg, hown⟩ := h
      exact ⟨hid, g, hg, hmine g hown⟩
  | acknowledge instanceId throughSequence generation =>
      obtain ⟨hid, g, hg, hown⟩ := h
      exact ⟨hid, g, hg, hmine g hown⟩
  | release instanceId generation => exact ⟨h.1, hmine _ h.2⟩
  | append _ _ _ _ | prune _ _ _ _ | register _ _ | recover _ _ _ => exact h

theorem Call.SentBy.instance? (h : call.SentBy cfg mine) :
    call.instance? = some cfg.instanceId := by
  cases call with
  | claim _ _ _ | heartbeat _ _ _ | resynchronize _ _ _ _ | read _ _ _ _ | acknowledge _ _ _
  | release _ _ =>
      exact congrArg some h.1
  | append _ _ _ _ | prune _ _ _ _ | register _ _ | recover _ _ _ => exact h.elim

/-- A row found for the generation its owner names. -/
theorem owned_mine {now : Timestamp} {generation : Option Generation} {row : InstanceCursor}
    (hgen : ∃ g, generation = some g ∧ mine g)
    (howned : f.owned now cfg.instanceId generation = some row) :
    f.cursor? cfg.instanceId = some row ∧ row.Live now ∧ mine row.generation := by
  obtain ⟨hrow, hlive, hnamed⟩ := Foundation.owned_eq_some.mp howned
  obtain ⟨g, rfl, hown⟩ := hgen
  exact ⟨hrow, hlive, (hnamed g rfl).symm ▸ hown⟩

/-- A row put back for the instance it was found for. -/
theorem stored_put {row row' : InstanceCursor} (hrow : f.cursor? cfg.instanceId = some row)
    (hid : row'.instanceId = row.instanceId) :
    (f.putCursor row').cursor? cfg.instanceId = some row' := by
  rw [← Foundation.instanceId_of_cursor? hrow, ← hid]
  exact Foundation.cursor?_putCursor f row'

/-- A lease counted from a reading of the call. -/
theorem Leased.at_clock {row' : InstanceCursor} {now : Timestamp} (hfirst : rd.clock 0 ≤ now)
    (hlast : now ≤ rd.clock 1) (hlease : row'.leaseExpiresAt = now + seconds cfg.leaseSeconds) :
    Leased cfg rd call f row' := by
  refine .granted ?_ ?_
  · rw [hlease]
    exact Int.add_le_add_right hfirst _
  · rw [hlease]
    exact Int.add_le_add_right hlast _

/-- The step lemma of the ledger: a committed call leaves the row of its instance
as it was, or writes one that is the caller's. -/
theorem Call.SentBy.effect (h : call.SentBy cfg mine)
    (hrun : Tx.Returns (call.body rd) f reply f') (hclock : rd.clock 0 ≤ rd.clock 1) :
    (f' = f ∧ ¬ call.Leases ∧ ∀ registration, reply ≠ .registration registration) ∨
      ∃ row', Wrote cfg mine rd call f f' reply row' := by
  cases call with
  | append _ _ _ _ | prune _ _ _ _ | register _ _ | recover _ _ _ => exact h.elim
  | claim instanceId leaseSeconds generation =>
      obtain ⟨rfl, rfl, hgen⟩ := h
      obtain ⟨registration, hclaim, rfl⟩ := Tx.returns_map.mp hrun
      obtain ⟨row', hreg, rfl, hrow'⟩ := claimInstance_ok hclaim
      have hreply : ∀ r : InstanceRegistration,
          (Reply.registration registration : Reply β) = .registration r →
            r.generation = row'.generation := by
        rintro r hr
        cases hr
        rw [hreg]
      right
      rcases hrow' with ⟨hnone, rfl⟩ | ⟨old, hold, ⟨-, hnamed, rfl⟩ | ⟨hdead, rfl⟩⟩
      · refine ⟨_, Foundation.cursor?_putCursor f _, .inl rfl, ?_,
          .at_clock hclock (le_refl _) rfl, hreply⟩
        intro row hrow
        rw [hnone] at hrow
        cases hrow
      · have hown : mine old.generation := hgen _ hnamed
        refine ⟨_, stored_put hold rfl, .inr hown, ?_,
          .at_clock hclock (le_refl _) rfl, hreply⟩
        intro row hrow
        obtain rfl := Option.some.inj (hold.symm.trans hrow)
        exact .inl hown
      · refine ⟨_, stored_put hold rfl, .inl rfl, ?_,
          .at_clock hclock (le_refl _) rfl, hreply⟩
        intro row hrow
        obtain rfl := Option.some.inj (hold.symm.trans hrow)
        exact .inr hdead
  | heartbeat instanceId generation leaseSeconds =>
      obtain ⟨rfl, rfl, hgen⟩ := h
      obtain ⟨_, hbeat, rfl⟩ := Tx.returns_map.mp hrun
      obtain ⟨old, howned, rfl⟩ := heartbeatInstance_ok hbeat
      obtain ⟨hold, -, hown⟩ := owned_mine hgen howned
      right
      refine ⟨_, stored_put hold rfl, .inr hown, ?_,
        .at_clock hclock (le_refl _) rfl, nofun⟩
      intro row hrow
      obtain rfl := Option.some.inj (hold.symm.trans hrow)
      exact .inl hown
  | resynchronize instanceId generation recoveryGeneration leaseSeconds =>
      obtain ⟨rfl, rfl, hgen, hrecovery⟩ := h
      obtain ⟨registration, hresync, rfl⟩ := Tx.returns_map.mp hrun
      obtain ⟨-, -, old, hold, hcase⟩ := returns_resynchronizeClaimedInstance.mp hresync
      have htaken : mine old.generation → ∀ row, f.cursor? cfg.instanceId = some row →
          mine row.generation ∨ ¬ row.Live (rd.clock 0) := by
        intro hown row hrow
        obtain rfl := Option.some.inj (hold.symm.trans hrow)
        exact .inl hown
      right
      rcases hcase with ⟨rfl, rfl, rfl⟩ | ⟨rfl, rfl, rfl⟩
      · refine ⟨_, stored_put hold rfl, .inr hrecovery, htaken hrecovery,
          .at_clock (le_refl _) hclock rfl, ?_⟩
        rintro r hr
        cases hr
        rfl
      · refine ⟨_, stored_put hold rfl, .inr hrecovery, htaken hgen,
          .at_clock (le_refl _) hclock rfl, ?_⟩
        rintro r hr
        cases hr
        rfl
  | read instanceId limit generation limits =>
      obtain ⟨_, hread, rfl⟩ := Tx.returns_map.mp hrun
      exact .inl ⟨(readEvents_ok hread).1, id, nofun⟩
  | acknowledge instanceId throughSequence generation =>
      obtain ⟨rfl, hgen⟩ := h
      obtain ⟨_, hack, rfl⟩ := Tx.returns_map.mp hrun
      obtain ⟨old, howned, ⟨-, -, rfl⟩ | ⟨-, -, -, rfl⟩⟩ := acknowledgeEvents_ok hack
      · exact .inl ⟨rfl, id, nofun⟩
      · obtain ⟨hold, -, hown⟩ := owned_mine hgen howned
        right
        refine ⟨_, stored_put hold rfl, .inr hown, ?_, .kept hold rfl rfl id, nofun⟩
        intro row hrow
        obtain rfl := Option.some.inj (hold.symm.trans hrow)
        exact .inl hown
  | release instanceId generation =>
      obtain ⟨rfl, hgen⟩ := h
      obtain ⟨_, hrelease, rfl⟩ := Tx.returns_map.mp hrun
      rcases releaseInstance_ok hrelease with ⟨-, rfl⟩ | ⟨old, howned, -, rfl⟩
      · exact .inl ⟨rfl, id, nofun⟩
      · obtain ⟨hold, -, hown⟩ := owned_mine ⟨generation, rfl, hgen⟩ howned
        right
        refine ⟨_, stored_put hold rfl, .inr hown, ?_, .released trivial ?_, nofun⟩
        · intro row hrow
          obtain rfl := Option.some.inj (hold.symm.trans hrow)
          exact .inl hown
        · change rd.clock 1 + seconds 0 ≤ rd.clock 1
          simp [seconds]

/-- A call of another instance leaves the row alone. -/
theorem Call.other_instance {instanceId : String} (hrun : Tx.Returns (call.body rd) f reply f')
    (hne : call.instance? ≠ some instanceId) : f'.cursor? instanceId = f.cursor? instanceId := by
  cases Call.moves hrun with
  | same hcursors =>
      unfold Foundation.cursor?
      rw [hcursors]
  | put hcall _ =>
      refine Foundation.cursor?_putCursor_other ?_
      rintro rfl
      exact hne hcall

/-- What a call makes of the cursor rows: of its caller's instance alone. -/
def Call.Effected (cfg : RelayConfig) (mine : Generation → Prop) (rd : CallReadings)
    (f : Foundation β) (call : Call β) : Prop :=
  ∀ instanceId, (call.exec rd f).2.cursor? instanceId = f.cursor? instanceId ∨
    (instanceId = cfg.instanceId ∧
      ∃ reply row', (call.exec rd f).1 = .ok reply ∧
        Wrote cfg mine rd call f (call.exec rd f).2 reply row')

theorem Call.SentBy.effected (h : call.SentBy cfg mine) (hclock : rd.clock 0 ≤ rd.clock 1) :
    call.Effected cfg mine rd f := by
  intro instanceId
  rcases call.exec_cases rd f with ⟨e, hexec⟩ | ⟨reply, f', hrun, hexec⟩
  · rw [hexec]
    exact .inl rfl
  · rw [hexec]
    by_cases hid : instanceId = cfg.instanceId
    · rcases h.effect hrun hclock with ⟨rfl, -, -⟩ | ⟨row', hwrote⟩
      · exact .inl rfl
      · exact .inr ⟨hid, reply, row', rfl, hwrote⟩
    · left
      refine Call.other_instance hrun ?_
      rw [h.instance?]
      exact fun heq => hid (Option.some.inj heq).symm

/-- Pruning the log touches no cursor. -/
theorem prune_cursor? {locked : List Nat} {maxEvents maxAgeSeconds limit : Nat}
    (instanceId : String) :
    ((Call.prune locked maxEvents maxAgeSeconds limit : Call β).exec rd f).2.cursor? instanceId =
      f.cursor? instanceId := by
  rcases (Call.prune locked maxEvents maxAgeSeconds limit : Call β).exec_cases rd f with
    ⟨e, hexec⟩ | ⟨reply, f', hrun, hexec⟩
  · rw [hexec]
  · rw [hexec]
    exact Call.other_instance hrun nofun

end Calls

/-! ## The relay between its calls -/

/-- The awaits at which a call of the foundation is out. -/
def Await.Asks : Await β → Prop
  | .opening _ | .initializing _ | .recovering _ | .beating _ | .reading | .acknowledging _ _ _
  | .releasing => True
  | _ => False

/-- The relay task has not come to its end. -/
def Await.Active : Await β → Prop
  | .ended | .releasing | .closed => False
  | _ => True

/-- What a step that no reply is involved in makes of a process. -/
structure MovedOn (fresh : Generation) (p p' : Process β) : Prop where
  keeps : Keeps fresh p.relay p'.relay
  cursor : p'.relay.cursor.isSome = true → p.relay.cursor.isSome = true
  active : p'.await.Active → p.await.Active
  waits : p'.await = p.await ∨ ¬ p.await.Asks

section Process

variable {cfg : RelayConfig} {p p' : Process β} {time : Timestamp} {fresh : Generation}

theorem MovedOn.of_eq (hrelay : p'.relay = p.relay) (hawait : p'.await = p.await) :
    MovedOn fresh p p' where
  keeps := .of_eq (by rw [hrelay]) (by rw [hrelay]) (by rw [hrelay]) (by rw [hrelay])
  cursor h := by rwa [hrelay] at h
  active h := by rwa [hawait] at h
  waits := .inl hawait

/-- The relay task moved on from an await at which no call is out. -/
theorem MovedOn.of_task (hkeeps : Keeps fresh p.relay p'.relay)
    (hcursor : p'.relay.cursor = p.relay.cursor) (hactive : p.await.Active)
    (hasks : ¬ p.await.Asks) : MovedOn fresh p p' :=
  ⟨hkeeps, fun h => hcursor ▸ h, fun _ => hactive, .inr hasks⟩

/-- The step lemma for the steps inside a process. -/
theorem act_local {action : ProcessAction β} (hlocal : action.Local)
    (hact : p.act cfg time fresh action = some p') : MovedOn fresh p p' := by
  cases action with
  | resume _ | reserved _ _ _ => exact hlocal.elim
  | start =>
      cases hawait : p.await with
      | created =>
          simp only [Process.act, hawait, Option.some.injEq] at hact
          subst hact
          exact .of_task (.of_eq rfl rfl rfl rfl) rfl (by rw [hawait]; trivial)
            (by rw [hawait]; exact id)
      | opening _ | initializing _ | fencing _ _ | recovering _ | beating _ | reading
      | dispatching _ _ _ _ _ | acknowledging _ _ _ | waiting | ended | releasing | closed =>
          simp [Process.act, hawait] at hact
  | hand =>
      simp only [Process.act] at hact
      split at hact
      · rename_i hawait
        cases hact
        exact .of_task (.of_eq rfl rfl rfl rfl) rfl (by rw [hawait]; trivial)
          (by rw [hawait]; exact id)
      · cases hact
  | dispatched ok =>
      obtain ⟨await, hdispatched, rfl⟩ := Option.map_eq_some_iff.mp hact
      cases hawait : p.await with
      | dispatching event rest count dispatched handed =>
          exact .of_task (.of_eq rfl rfl rfl rfl) rfl (by rw [hawait]; trivial)
            (by rw [hawait]; exact id)
      | created | opening _ | initializing _ | fencing _ _ | recovering _ | beating _ | reading
      | acknowledging _ _ _ | waiting | ended | releasing | closed =>
          rw [hawait] at hdispatched
          cases hdispatched
  | detach =>
      simp only [Process.act] at hact
      split at hact
      · rename_i hawait
        cases hact
        exact .of_task (.of_eq rfl rfl rfl rfl) rfl (by rw [hawait]; trivial)
          (by rw [hawait]; exact id)
      · cases hact
  | fenced ok =>
      simp only [Process.act] at hact
      split at hact
      · rename_i handler detached hawait
        have hactive : p.await.Active := by
          rw [hawait]
          trivial
        have hasks : ¬ p.await.Asks := by
          rw [hawait]
          exact id
        cases ok with
        | false =>
            cases hact
            exact .of_task (.of_eq rfl rfl rfl rfl) rfl hactive hasks
        | true =>
            cases detached with
            | false => cases hact
            | true =>
                cases hact
                cases handler with
                | true => exact .of_task (.of_eq rfl rfl rfl rfl) rfl hactive hasks
                | false =>
                    have hattempt : Keeps fresh
                        { p.relay with fenced := true, fenceRequired := false }
                        (Relay.attempt time fresh
                          { p.relay with fenced := true, fenceRequired := false } :
                          Relay × Await β).1 := attempt_keeps
                    have hdebt : KeepsDebt { p.relay with fenced := true, fenceRequired := false }
                        (Relay.attempt time fresh
                          { p.relay with fenced := true, fenceRequired := false } :
                          Relay × Await β).1 := attempt_keepsDebt
                    exact .of_task ⟨hattempt.generation, hattempt.leaseDeadline, hattempt.recovery,
                      hattempt.recovers⟩ hdebt.cursor hactive hasks
      · cases hact
  | wake =>
      simp only [Process.act] at hact
      split at hact
      · rename_i hawait
        cases hact
        exact .of_task top_keeps top_keepsDebt.cursor (by rw [hawait]; trivial)
          (by rw [hawait]; exact id)
      · cases hact
  | stop =>
      cases hact
      exact ⟨.of_eq rfl rfl rfl rfl, id, id, .inl rfl⟩
  | release =>
      simp only [Process.act] at hact
      split at hact
      · rename_i hawait
        cases hact
        exact ⟨.of_eq rfl rfl rfl rfl, id, fun h => h.elim, .inr (by rw [hawait]; exact id)⟩
      · cases hact
  | admitConnection websocket roomId =>
      obtain ⟨token, -, hact⟩ := Option.bind_eq_some_iff.mp hact
      obtain ⟨admissions, -, rfl⟩ := Option.map_eq_some_iff.mp hact
      exact .of_eq rfl rfl
  | abandon websocket =>
      cases hact
      exact .of_eq rfl rfl
  | register websocket =>
      obtain ⟨admission, -, rfl⟩ := Option.map_eq_some_iff.mp hact
      obtain ⟨hrelay, hawait, -⟩ := register_frame cfg time p admission
      exact .of_eq hrelay hawait
  | remove websocket =>
      cases hact
      exact .of_eq rfl rfl

theorem act_resume {outcome : Except Failure (Reply β)}
    (hact : p.act cfg time fresh (.resume outcome) = some p') :
    ∃ task, p.relay.resume cfg time fresh outcome p.await = some task ∧ p'.relay = task.1 ∧
      p'.await = task.2 := by
  obtain ⟨task, hresume, rfl⟩ := Option.map_eq_some_iff.mp hact
  refine ⟨task, hresume, ?_⟩
  cases outcome with
  | ok reply => exact ⟨rfl, rfl⟩
  | error failure =>
      change (if p.await.handles then p.owing task failure else p.moved task).relay = _ ∧ _
      split
      · exact ⟨rfl, rfl⟩
      · exact ⟨rfl, rfl⟩

/-- A reply ends no task but one that releases its lease. -/
theorem resume_active {r : Relay} {a : Await β} {outcome : Except Failure (Reply β)}
    {task : Relay × Await β} (hresume : r.resume cfg time fresh outcome a = some task)
    (hactive : task.2.Active) : a.Active ∧ a.Asks := by
  cases a with
  | created | fencing _ _ | dispatching _ _ _ _ _ | waiting | ended | closed => cases hresume
  | releasing =>
      cases hresume
      exact hactive.elim
  | opening _ | initializing _ | recovering _ | beating _ | reading | acknowledging _ _ _ =>
      exact ⟨trivial, trivial⟩

theorem act_reserved {websocket sequence : Nat} {generation : Generation}
    (hact : p.act cfg time fresh (.reserved websocket generation sequence) = some p') :
    p'.relay = p.relay ∧ p'.await = p.await := by
  obtain ⟨admission, -, rfl⟩ := Option.map_eq_some_iff.mp hact
  exact ⟨rfl, rfl⟩

/-- What a relay asks for, it asks for under its own name and generations. -/
theorem call?_sent {r : Relay} {a : Await β} {call : Call β} {mine : Generation → Prop}
    (hgen : ∀ g ∈ r.generation, mine g) (hrecovery : ∀ g ∈ r.recoveryGeneration, mine g)
    (hcall : a.call? cfg r = some call) :
    call.SentBy cfg mine ∧ a.Asks ∧ (a.started?.isSome = true → call.Leases) ∧
      (a.Active → ¬ call.Releases) := by
  cases a with
  | created | fencing _ _ | dispatching _ _ _ _ _ | waiting | ended | closed => cases hcall
  | opening _ | initializing _ =>
      cases hcall
      exact ⟨⟨rfl, rfl, hgen⟩, trivial, fun _ => trivial, fun _ => id⟩
  | recovering _ =>
      simp only [Await.call?] at hcall
      split at hcall
      · rename_i generation recoveryGeneration hg hr
        cases hcall
        exact ⟨⟨rfl, rfl, hgen _ hg, hrecovery _ hr⟩, trivial, fun _ => trivial, fun _ => id⟩
      · cases hcall
  | beating _ =>
      obtain ⟨generation, hg, rfl⟩ := Option.map_eq_some_iff.mp hcall
      exact ⟨⟨rfl, rfl, generation, rfl, hgen _ hg⟩, trivial, fun _ => trivial, fun _ => id⟩
  | reading =>
      obtain ⟨generation, hg, rfl⟩ := Option.map_eq_some_iff.mp hcall
      exact ⟨⟨rfl, generation, rfl, hgen _ hg⟩, trivial, nofun, fun _ => id⟩
  | acknowledging _ _ _ =>
      obtain ⟨generation, hg, rfl⟩ := Option.map_eq_some_iff.mp hcall
      exact ⟨⟨rfl, generation, rfl, hgen _ hg⟩, trivial, nofun, fun _ => id⟩
  | releasing =>
      obtain ⟨generation, hg, rfl⟩ := Option.map_eq_some_iff.mp hcall
      exact ⟨⟨rfl, hgen _ hg⟩, trivial, nofun, fun h => h.elim⟩

end Process

/-! ## The ledger -/

/-- Process `i` minted the UUID. -/
def Cluster.Mine (c : Cluster β) (i : Nat) (g : Generation) : Prop := (g, i) ∈ c.minted

/-- Every generation a process names is its own, and a request to release is its
last. -/
structure NodeOk (cfg : RelayConfig) (mine : Generation → Prop) (n : Node β) : Prop where
  process : ProcessOk n.process
  generation : ∀ g ∈ n.process.relay.generation, mine g
  recovery : ∀ g ∈ n.process.relay.recoveryGeneration, mine g
  replied : ∀ registration, n.outcome = some (.ok (.registration registration)) →
    mine registration.generation
  asks : n.outcome.isSome = true → n.process.await.Asks
  orphans : ∀ call ∈ n.orphans, call.SentBy cfg mine
  unreleased : n.process.await.Active → ∀ call ∈ n.orphans, ¬ call.Releases

/-- A deadline the process counts on, or will once it sees the reply. -/
def Promised (cfg : RelayConfig) (n : Node β) (deadline : Timestamp) : Prop :=
  n.process.await.Active ∧
    ((n.process.relay.cursor.isSome = true ∧ deadline = n.process.relay.leaseDeadline) ∨
      ∃ started reply, n.process.await.started? = some started ∧
        n.outcome = some (.ok reply) ∧ deadline = started + seconds cfg.leaseSeconds)

/-- Until the deadline has passed by the clock of process `i`, the stored lease is
its own and does not expire before it. -/
def Cluster.Covered (cfg : ClusterConfig) (c : Cluster β) (i : Nat) (deadline : Timestamp) :
    Prop :=
  c.time cfg i < deadline →
    ∃ row, c.history.db.cursor? (cfg.relay i).instanceId = some row ∧
      c.Mine i row.generation ∧ deadline ≤ row.leaseExpiresAt + cfg.offset i

/-- The database's side of the ledger. -/
structure RowsOk (cfg : ClusterConfig) (c : Cluster β) : Prop where
  distinct : (c.minted.map Prod.fst).Nodup
  written : ∀ instanceId, c.writtenAt instanceId ≤ c.now
  stored : ∀ instanceId row, c.history.db.cursor? instanceId = some row →
    row.generation ∈ c.minted.map Prod.fst
  lease : ∀ i row, c.history.db.cursor? (cfg.relay i).instanceId = some row →
    c.Mine i row.generation →
      row.leaseExpiresAt ≤
        c.writtenAt (cfg.relay i).instanceId + seconds (cfg.relay i).leaseSeconds

/-- The invariant that relates both clocks. -/
structure ClusterOk (cfg : ClusterConfig) (c : Cluster β) : Prop where
  rows : RowsOk cfg c
  node : ∀ i, NodeOk (cfg.relay i) (c.Mine i) (c.nodes i)
  covered : ∀ i deadline, Promised (cfg.relay i) (c.nodes i) deadline → c.Covered cfg i deadline

section Ledger

variable {cfg : ClusterConfig} {c c' : Cluster β} {i j : Nat}

theorem NodeOk.mono {config : RelayConfig} {mine mine' : Generation → Prop} {n : Node β}
    (h : NodeOk config mine n) (hmine : ∀ g, mine g → mine' g) : NodeOk config mine' n where
  process := h.process
  generation g hg := hmine g (h.generation g hg)
  recovery g hg := hmine g (h.recovery g hg)
  replied registration hreply := hmine _ (h.replied registration hreply)
  asks := h.asks
  orphans call hcall := (h.orphans call hcall).mono hmine
  unreleased := h.unreleased

/-- A UUID has one owner. -/
theorem RowsOk.owner (h : RowsOk cfg c) {g : Generation} (hi : c.Mine i g) (hj : c.Mine j g) :
    i = j :=
  congrArg Prod.snd (List.inj_on_of_nodup_map h.distinct hi hj rfl)

/-- Who owns a stored generation owned it before a new UUID was minted. -/
theorem mine_before {fresh g : Generation}
    (hfresh : c.Unminted fresh) {k : Nat} (hminted : c'.minted = (fresh, k) :: c.minted)
    (hstored : g ∈ c.minted.map Prod.fst) (hmine : c'.Mine i g) : c.Mine i g := by
  unfold Cluster.Mine at hmine
  rw [hminted] at hmine
  rcases List.mem_cons.mp hmine with heq | hold
  · obtain ⟨rfl, rfl⟩ := Prod.mk.inj heq
    exact absurd hstored hfresh
  · exact hold

/-- A step that leaves the cursors alone, and may mint a UUID. -/
structure Frame (c c' : Cluster β) : Prop where
  cursors : ∀ instanceId,
    c'.history.db.cursor? instanceId = c.history.db.cursor? instanceId
  writtenAt : c'.writtenAt = c.writtenAt
  now : c.now ≤ c'.now
  minted : c'.minted = c.minted ∨
    ∃ fresh k, c.Unminted fresh ∧ c'.minted = (fresh, k) :: c.minted

theorem Frame.mine (h : Frame c c') {g : Generation} (hmine : c.Mine i g) : c'.Mine i g := by
  unfold Cluster.Mine
  rcases h.minted with heq | ⟨fresh, k, -, heq⟩
  · rw [heq]
    exact hmine
  · rw [heq]
    exact List.mem_cons_of_mem _ hmine

theorem RowsOk.frame (h : RowsOk cfg c) (hframe : Frame c c') : RowsOk cfg c' where
  distinct := by
    rcases hframe.minted with heq | ⟨fresh, k, hfresh, heq⟩
    · rw [heq]
      exact h.distinct
    · rw [heq]
      exact List.nodup_cons.mpr ⟨hfresh, h.distinct⟩
  written instanceId := by
    rw [hframe.writtenAt]
    exact (h.written instanceId).trans hframe.now
  stored instanceId row hrow := by
    have hold := h.stored instanceId row ((hframe.cursors instanceId).symm.trans hrow)
    obtain ⟨entry, hentry, heq⟩ := List.mem_map.mp hold
    exact List.mem_map.mpr ⟨entry, hframe.mine hentry, heq⟩
  lease i row hrow hmine := by
    have hrow' := (hframe.cursors (cfg.relay i).instanceId).symm.trans hrow
    rw [hframe.writtenAt]
    refine h.lease i row hrow' ?_
    rcases hframe.minted with heq | ⟨fresh, k, hfresh, heq⟩
    · unfold Cluster.Mine at hmine ⊢
      rwa [heq] at hmine
    · exact mine_before hfresh heq (h.stored _ row hrow') hmine

/-- The processes may move on as long as they count on no new deadline. -/
theorem ClusterOk.frame (h : ClusterOk cfg c) (hframe : Frame c c')
    (hnode : ∀ i, NodeOk (cfg.relay i) (c'.Mine i) (c'.nodes i))
    (hpromised : ∀ i deadline, Promised (cfg.relay i) (c'.nodes i) deadline →
      Promised (cfg.relay i) (c.nodes i) deadline) : ClusterOk cfg c' where
  rows := h.rows.frame hframe
  node := hnode
  covered i deadline hdeadline htime := by
    have hbefore : c.time cfg i < deadline :=
      lt_of_le_of_lt (Int.add_le_add_right hframe.now _) htime
    obtain ⟨row, hrow, hmine, hlease⟩ :=
      h.covered i deadline (hpromised i deadline hdeadline) hbefore
    exact ⟨row, (hframe.cursors _).trans hrow, hframe.mine hmine, hlease⟩

/-- A frame step in which one process moves on. -/
theorem ClusterOk.node_frame (h : ClusterOk cfg c) (hframe : Frame c c')
    (hothers : ∀ j, j ≠ i → c'.nodes j = c.nodes j)
    (hnode : NodeOk (cfg.relay i) (c'.Mine i) (c'.nodes i))
    (hpromised : ∀ deadline, Promised (cfg.relay i) (c'.nodes i) deadline →
      Promised (cfg.relay i) (c.nodes i) deadline) : ClusterOk cfg c' := by
  refine h.frame hframe ?_ ?_
  · intro j
    by_cases hj : j = i
    · subst hj
      exact hnode
    · rw [hothers j hj]
      exact (h.node j).mono fun g => hframe.mine
  · intro j deadline hdeadline
    by_cases hj : j = i
    · subst hj
      exact hpromised deadline hdeadline
    · rwa [hothers j hj] at hdeadline

/-! ## Requests served -/

theorem seconds_nonneg (n : Nat) : 0 ≤ seconds n := by
  unfold seconds
  omega

variable {rd : CallReadings} {call : Call β}

theorem Cluster.mine_served {k : Nat} {g : Generation} (hmine : c.Mine i g) :
    (c.served k rd call).Mine i g :=
  List.mem_cons_of_mem _ hmine

/-- What a request wrote belongs to the process that made it. -/
theorem Wrote.mine {reply : Reply β} {row' : InstanceCursor}
    (h : Wrote (cfg.relay i) (c.Mine i) rd call c.history.db (call.exec rd c.history.db).2 reply
      row') : (c.served i rd call).Mine i row'.generation := by
  rcases h.own with heq | hmine
  · rw [heq]
    exact List.mem_cons_self
  · exact Cluster.mine_served hmine

theorem RowsOk.served (h : RowsOk cfg c) (hsent : call.SentBy (cfg.relay i) (c.Mine i))
    (hclocked : c.Clocked rd call) (hfresh : c.Unminted rd.fresh) :
    RowsOk cfg (c.served i rd call) := by
  obtain ⟨-, hclock, hnow⟩ := hclocked
  have heffect : call.Effected (cfg.relay i) (c.Mine i) rd c.history.db := hsent.effected hclock
  have hdistinct : ((c.served i rd call).minted.map Prod.fst).Nodup :=
    List.nodup_cons.mpr ⟨hfresh, h.distinct⟩
  have hold : ∀ g, g ∈ c.minted.map Prod.fst → g ∈ (c.served i rd call).minted.map Prod.fst :=
    fun g hg => List.mem_cons_of_mem _ hg
  refine ⟨hdistinct, ?_, ?_, ?_⟩
  · intro instanceId
    change (if _ then _ else _) ≤ c.now
    split
    · exact h.written instanceId
    · exact le_refl _
  · intro instanceId row hrow
    rcases heffect instanceId with hsame | ⟨rfl, reply, row', -, hwrote⟩
    · exact hold _ (h.stored instanceId row (hsame.symm.trans hrow))
    · obtain rfl := Option.some.inj (hwrote.stored.symm.trans hrow)
      exact List.mem_map.mpr ⟨_, hwrote.mine, rfl⟩
  · intro j row hrow hmine
    have hunchanged : (call.exec rd c.history.db).2.cursor? (cfg.relay j).instanceId =
        c.history.db.cursor? (cfg.relay j).instanceId →
        row.leaseExpiresAt ≤ (c.served i rd call).writtenAt (cfg.relay j).instanceId +
          seconds (cfg.relay j).leaseSeconds := by
      intro hsame
      have hbefore := hsame.symm.trans hrow
      change _ ≤ (if _ then _ else _) + _
      rw [if_pos hsame]
      exact h.lease j row hbefore (mine_before hfresh rfl (h.stored _ row hbefore) hmine)
    by_cases hsame : (call.exec rd c.history.db).2.cursor? (cfg.relay j).instanceId =
        c.history.db.cursor? (cfg.relay j).instanceId
    · exact hunchanged hsame
    · rcases heffect (cfg.relay j).instanceId with hsame' | ⟨hid, reply, row', -, hwrote⟩
      · exact absurd hsame' hsame
      · have hstored := hwrote.stored
        rw [← hid] at hstored
        obtain rfl := Option.some.inj (hstored.symm.trans hrow)
        have hij : i = j :=
          congrArg Prod.snd (List.inj_on_of_nodup_map hdistinct hwrote.mine hmine rfl)
        subst hij
        change _ ≤ (if _ then _ else _) + _
        rw [if_neg hsame]
        have hlength := seconds_nonneg (cfg.relay i).leaseSeconds
        cases hwrote.lease with
        | granted _ hle => exact hle.trans (Int.add_le_add_right hnow _)
        | released _ hle =>
            calc
              row'.leaseExpiresAt ≤ c.now := hle.trans hnow
              _ ≤ c.now + seconds (cfg.relay i).leaseSeconds := Int.le_add_of_nonneg_right hlength
        | @kept row hrow hgen hlease _ =>
            have hbefore : c.Mine i row.generation := by
              rcases hwrote.own with heq | hown
              · rw [← heq, hgen] at hfresh
                exact absurd (h.stored _ row hrow) hfresh
              · rwa [hgen] at hown
            rw [hlease]
            exact (h.lease i row hrow hbefore).trans (Int.add_le_add_right (h.written _) _)

/-- No request but the owner's release takes a covered deadline away. -/
theorem Cluster.Covered.served {deadline : Timestamp} (hcovered : c.Covered cfg j deadline)
    (h : RowsOk cfg c) (hsent : call.SentBy (cfg.relay i) (c.Mine i))
    (hclocked : c.Clocked rd call) (hrelease : i = j → ¬ call.Releases) :
    (c.served i rd call).Covered cfg j deadline := by
  intro htime
  obtain ⟨row, hrow, hmine, hdeadline⟩ := hcovered htime
  obtain ⟨hlocked, hclock, hnow⟩ := hclocked
  have heffect : call.Effected (cfg.relay i) (c.Mine i) rd c.history.db := hsent.effected hclock
  rcases heffect (cfg.relay j).instanceId with hsame | ⟨hid, reply, row', -, hwrote⟩
  · exact ⟨row, hsame.trans hrow, Cluster.mine_served hmine, hdeadline⟩
  · have hlive : row.Live (rd.clock 0) := by
      have hearly : c.now + cfg.offset j < row.leaseExpiresAt + cfg.offset j :=
        lt_of_lt_of_le htime hdeadline
      exact lt_of_le_of_lt (hclock.trans hnow) (Int.lt_of_add_lt_add_right hearly)
    rw [hid] at hrow
    have hij : i = j :=
      h.owner ((hwrote.taken row hrow).resolve_right fun hdead => hdead hlive) hmine
    subst hij
    refine ⟨row', hwrote.stored, hwrote.mine, ?_⟩
    cases hwrote.lease with
    | released hreleases _ => exact absurd hreleases (hrelease rfl)
    | @kept old hold _ hlease _ =>
        obtain rfl := Option.some.inj (hold.symm.trans hrow)
        rwa [hlease]
    | granted hlease _ =>
        have hbefore := h.lease i row hrow hmine
        have hwritten : c.writtenAt (cfg.relay i).instanceId ≤ rd.clock 0 :=
          hlocked _ hsent.instance?
        calc
          deadline ≤ row.leaseExpiresAt + cfg.offset i := hdeadline
          _ ≤ rd.clock 0 + seconds (cfg.relay i).leaseSeconds + cfg.offset i :=
            Int.add_le_add_right (hbefore.trans (Int.add_le_add_right hwritten _)) _
          _ ≤ row'.leaseExpiresAt + cfg.offset i := Int.add_le_add_right hlease _

/-- A lease counted from before the request was served is covered. -/
theorem covered_granted {started : Timestamp} {reply : Reply β}
    (hsent : call.SentBy (cfg.relay i) (c.Mine i)) (hclocked : c.Clocked rd call)
    (hleases : call.Leases) (hok : (call.exec rd c.history.db).1 = .ok reply)
    (hstarted : started ≤ rd.clock 0 + cfg.offset i) :
    (c.served i rd call).Covered cfg i
      (started + seconds (cfg.relay i).leaseSeconds) := by
  intro _
  rcases call.exec_cases rd c.history.db with ⟨e, hexec⟩ | ⟨reply', f', hrun, hexec⟩
  · rw [hexec] at hok
    cases hok
  · rcases hsent.effect hrun hclocked.2.1 with ⟨-, hidle, -⟩ | ⟨row', hwrote⟩
    · exact absurd hleases hidle
    · have hdb : (c.served i rd call).history.db = f' := congrArg Prod.snd hexec
      have hwrote' : Wrote (cfg.relay i) (c.Mine i) rd call c.history.db
          (call.exec rd c.history.db).2 reply' row' := by
        rw [hexec]
        exact hwrote
      refine ⟨row', ?_, hwrote'.mine, ?_⟩
      · rw [hdb]
        exact hwrote.stored
      · cases hwrote.lease with
        | granted hlease _ =>
            calc
              started + seconds (cfg.relay i).leaseSeconds
                  ≤ rd.clock 0 + cfg.offset i + seconds (cfg.relay i).leaseSeconds :=
                Int.add_le_add_right hstarted _
              _ = rd.clock 0 + seconds (cfg.relay i).leaseSeconds + cfg.offset i :=
                Int.add_right_comm _ _ _
              _ ≤ row'.leaseExpiresAt + cfg.offset i := Int.add_le_add_right hlease _
        | kept _ _ _ hidle => exact absurd hleases hidle
        | released hreleases _ =>
            cases call <;> first | exact hleases.elim | exact hreleases.elim

/-- A generation a reply carries belongs to the process that asked. -/
theorem replied_mine {registration : InstanceRegistration}
    (hsent : call.SentBy (cfg.relay i) (c.Mine i)) (hclocked : c.Clocked rd call)
    (hok : (call.exec rd c.history.db).1 = .ok (.registration registration)) :
    (c.served i rd call).Mine i registration.generation := by
  rcases call.exec_cases rd c.history.db with ⟨e, hexec⟩ | ⟨reply', f', hrun, hexec⟩
  · rw [hexec] at hok
    cases hok
  · have hreply : reply' = .registration registration := by
      rw [hexec] at hok
      exact Except.ok.inj hok
    rcases hsent.effect hrun hclocked.2.1 with ⟨-, -, hnone⟩ | ⟨row', hwrote⟩
    · exact absurd hreply (hnone registration)
    · have hwrote' : Wrote (cfg.relay i) (c.Mine i) rd call c.history.db
          (call.exec rd c.history.db).2 reply' row' := by
        rw [hexec]
        exact hwrote
      rw [hwrote.reply registration hreply]
      exact hwrote'.mine

/-! ## Steps of one process -/

/-- A recovery UUID is the retained one or freshly minted. -/
theorem Keeps.recovery_mine {mine : Generation → Prop} {r r' : Relay} {fresh : Generation}
    (h : Keeps fresh r r') (hfresh : mine fresh) (hmine : ∀ g ∈ r.recoveryGeneration, mine g) :
    ∀ g ∈ r'.recoveryGeneration, mine g := by
  intro g hg
  rcases h.recovery with heq | hnone | ⟨-, hminted, -⟩
  · exact hmine g (heq ▸ hg)
  · rw [hnone] at hg
    cases hg
  · rw [hminted] at hg
    cases hg
    exact hfresh

theorem NodeOk.moved {config : RelayConfig} {mine : Generation → Prop} {n : Node β}
    {p' : Process β} {time : Timestamp} {fresh : Generation} {action : ProcessAction β}
    (h : NodeOk config mine n) (hfresh : mine fresh) (hlocal : action.Local)
    (hact : n.process.act config time fresh action = some p') :
    NodeOk config mine { n with process := p' } ∧
      ∀ deadline, Promised config { n with process := p' } deadline →
        Promised config n deadline := by
  have hmoved := act_local hlocal hact
  have hquiet : ¬ n.process.await.Asks → n.outcome = none := by
    intro hasks
    cases houtcome : n.outcome with
    | none => rfl
    | some outcome => exact absurd (h.asks (by rw [houtcome]; rfl)) hasks
  refine ⟨⟨h.process.act hact, ?_, ?_, h.replied, ?_, h.orphans, ?_⟩, ?_⟩
  · intro g hg
    exact h.generation g (hmoved.keeps.generation ▸ hg)
  · exact hmoved.keeps.recovery_mine hfresh h.recovery
  · intro hsome
    rcases hmoved.waits with heq | hasks
    · change p'.await.Asks
      rw [heq]
      exact h.asks hsome
    · have hnone := hquiet hasks
      change n.outcome.isSome = true at hsome
      rw [hnone] at hsome
      cases hsome
  · exact fun hactive => h.unreleased (hmoved.active hactive)
  · rintro deadline ⟨hactive, ⟨hcursor, rfl⟩ | ⟨started, reply, hstarted, hreply, rfl⟩⟩
    · exact ⟨hmoved.active hactive, .inl ⟨hmoved.cursor hcursor, hmoved.keeps.leaseDeadline⟩⟩
    · rcases hmoved.waits with heq | hasks
      · refine ⟨hmoved.active hactive, .inr ⟨started, reply, ?_, hreply, rfl⟩⟩
        rw [← heq]
        exact hstarted
      · have hnone := hquiet hasks
        change n.outcome = _ at hreply
        rw [hnone] at hreply
        cases hreply

/-- The process sees a reply that the database has given, or an error. -/
theorem NodeOk.resumed {config : RelayConfig} {mine : Generation → Prop} {n : Node β}
    {p' : Process β} {time : Timestamp} {fresh : Generation}
    {outcome : Except Failure (Reply β)} {orphans : List (Call β)}
    (h : NodeOk config mine n) (hfresh : mine fresh)
    (hact : n.process.act config time fresh (.resume outcome) = some p')
    (hreply : ∀ reply, outcome = .ok reply → n.outcome = some (.ok reply))
    (horphans : ∀ call ∈ orphans, call.SentBy config mine ∧
      (n.process.await.Active → ¬ call.Releases)) :
    NodeOk config mine { process := p', outcome := none, orphans := orphans } ∧
      ∀ deadline, Promised config { process := p', outcome := none, orphans := orphans } deadline →
        Promised config n deadline := by
  obtain ⟨task, hresume, hrelay, hawait⟩ := act_resume hact
  have hresumed := resume_cases h.process.task hresume
  rw [← hrelay] at hresumed
  have hactive : p'.await.Active → n.process.await.Active := by
    intro hactive
    rw [hawait] at hactive
    exact (resume_active hresume hactive).1
  have hledger : (∀ g ∈ p'.relay.generation, mine g) ∧
      (∀ g ∈ p'.relay.recoveryGeneration, mine g) ∧
      ∀ deadline, p'.await.Active → p'.relay.cursor.isSome = true →
        deadline = p'.relay.leaseDeadline → Promised config n deadline := by
    generalize p'.relay = r' at hresumed ⊢
    cases hresumed with
    | kept hkeeps hcursor =>
        refine ⟨?_, hkeeps.recovery_mine hfresh h.recovery, ?_⟩
        · intro g hg
          exact h.generation g (hkeeps.generation ▸ hg)
        · rintro deadline hp hsome rfl
          refine ⟨hactive hp, .inl ⟨?_, hkeeps.leaseDeadline⟩⟩
          by_contra hne
          rw [Bool.not_eq_true, Option.isSome_eq_false_iff, Option.isNone_iff_eq_none] at hne
          rw [hcursor hne] at hsome
          cases hsome
    | @adopted started registration r₁ _ hstarted hgen hlease hrecovery hrequired hkeeps =>
        have hanswer := hreply _ rfl
        refine ⟨?_, ?_, ?_⟩
        · intro g hg
          rw [hkeeps.generation, hgen] at hg
          cases hg
          exact h.replied registration hanswer
        · refine hkeeps.recovery_mine hfresh ?_
          rcases hrecovery with hnone | ⟨heq, -⟩
          · rw [hnone]
            nofun
          · rw [heq]
            exact h.recovery
        · rintro deadline hp - rfl
          refine ⟨hactive hp, .inr ⟨started, _, hstarted, hanswer, ?_⟩⟩
          rw [hkeeps.leaseDeadline, hlease]
    | @renewed started _ hstarted =>
        refine ⟨h.generation, h.recovery, ?_⟩
        rintro deadline hp - rfl
        exact ⟨hactive hp, .inr ⟨started, _, hstarted, hreply _ rfl, rfl⟩⟩
  refine ⟨⟨h.process.act hact, hledger.1, hledger.2.1, nofun, nofun,
    fun call hcall => (horphans call hcall).1,
    fun hp call hcall => (horphans call hcall).2 (hactive hp)⟩, ?_⟩
  rintro deadline ⟨hp, ⟨hcursor, rfl⟩ | ⟨_, _, _, hnone, _⟩⟩
  · exact hledger.2.2 _ hp hcursor rfl
  · cases hnone

/-! ## Steps of the cluster -/

/-- Process `i` has moved on. -/
theorem ClusterOk.moved (h : ClusterOk cfg c) {fresh : Generation} {n : Node β}
    (hfresh : c.Unminted fresh)
    (hnode : NodeOk (cfg.relay i) ((c.moved cfg i fresh n).Mine i) n)
    (hpromised : ∀ deadline, Promised (cfg.relay i) n deadline →
      Promised (cfg.relay i) (c.nodes i) deadline) : ClusterOk cfg (c.moved cfg i fresh n) := by
  have hself : (c.moved cfg i fresh n).nodes i = n := Cluster.setNode_self c i n
  have hframe : Frame c (c.moved cfg i fresh n) :=
    ⟨fun _ => rfl, rfl, le_refl _, .inr ⟨fresh, i, hfresh, rfl⟩⟩
  refine h.node_frame hframe (fun j hj => Cluster.setNode_other hj) ?_ ?_
  · rw [hself]
    exact hnode
  · rw [hself]
    exact hpromised

theorem mine_moved {fresh g : Generation} {n : Node β} (hmine : c.Mine i g) :
    (c.moved cfg j fresh n).Mine i g :=
  List.mem_cons_of_mem _ hmine

/-- The step lemma for a reply, or for one given up on. -/
theorem ClusterOk.resume (h : ClusterOk cfg c) {fresh : Generation}
    {outcome : Except Failure (Reply β)} {orphans : List (Call β)}
    (hresume : c.resume cfg i fresh outcome orphans = some c')
    (hreply : ∀ reply, outcome = .ok reply → (c.nodes i).outcome = some (.ok reply))
    (horphans : ∀ call ∈ orphans, call.SentBy (cfg.relay i) (c.Mine i) ∧
      ((c.nodes i).process.await.Active → ¬ call.Releases)) : ClusterOk cfg c' := by
  unfold Cluster.resume at hresume
  split at hresume
  · rename_i hfresh
    obtain ⟨p', hact, rfl⟩ := Option.map_eq_some_iff.mp hresume
    have hnode : NodeOk (cfg.relay i)
        ((c.moved cfg i fresh { process := p', outcome := none, orphans := orphans }).Mine i)
        (c.nodes i) := (h.node i).mono fun g => mine_moved
    obtain ⟨hok, hpromised⟩ := hnode.resumed List.mem_cons_self hact hreply
      fun call hcall => ⟨(horphans call hcall).1.mono fun g => mine_moved,
        (horphans call hcall).2⟩
    exact h.moved hfresh hok hpromised
  · cases hresume

/-- The step lemma for a request that is served. -/
theorem ClusterOk.served (h : ClusterOk cfg c) {n : Node β}
    (hsent : call.SentBy (cfg.relay i) (c.Mine i)) (hclocked : c.Clocked rd call)
    (hfresh : c.Unminted rd.fresh)
    (hrelease : (c.nodes i).process.await.Active → ¬ call.Releases)
    (hnode : NodeOk (cfg.relay i) ((c.served i rd call).Mine i) n)
    (hpromised : ∀ deadline, Promised (cfg.relay i) n deadline →
      Promised (cfg.relay i) (c.nodes i) deadline ∨
        (c.served i rd call).Covered cfg i deadline) :
    ClusterOk cfg ((c.served i rd call).setNode i n) := by
  have hkept : ∀ j deadline, Promised (cfg.relay j) (c.nodes j) deadline →
      (c.served i rd call).Covered cfg j deadline := by
    intro j deadline hdeadline
    refine (h.covered j deadline hdeadline).served h.rows hsent hclocked ?_
    rintro rfl
    exact hrelease hdeadline.1
  have hrows := h.rows.served hsent hclocked hfresh
  refine ⟨⟨hrows.distinct, hrows.written, hrows.stored, hrows.lease⟩, ?_, ?_⟩
  · intro j
    by_cases hj : j = i
    · subst hj
      rw [Cluster.setNode_self]
      exact hnode
    · rw [Cluster.setNode_other hj]
      have hmono : NodeOk (cfg.relay j) ((c.served i rd call).Mine j) (c.nodes j) :=
        (h.node j).mono fun g => Cluster.mine_served
      exact hmono
  · intro j deadline hdeadline
    by_cases hj : j = i
    · subst hj
      rw [Cluster.setNode_self] at hdeadline
      rcases hpromised deadline hdeadline with hold | hnew
      · exact hkept j deadline hold
      · exact hnew
    · rw [Cluster.setNode_other hj] at hdeadline
      exact hkept j deadline hdeadline

theorem ClusterOk.execute (h : ClusterOk cfg c) (hexecute : c.execute cfg i rd = some c') :
    ClusterOk cfg c' := by
  unfold Cluster.execute at hexecute
  split at hexecute
  · cases hexecute
  · rename_i hout
    obtain ⟨call, hcall, hexecute⟩ := Option.bind_eq_some_iff.mp hexecute
    split at hexecute
    · rename_i hguard
      obtain ⟨hclocked, hfresh, hstarted⟩ := hguard
      cases hexecute
      have hnode := h.node i
      obtain ⟨hsent, hasks, hleases, hrelease⟩ :=
        call?_sent hnode.generation hnode.recovery hcall
      have hmono : NodeOk (cfg.relay i) ((c.served i rd call).Mine i) (c.nodes i) :=
        hnode.mono fun g => Cluster.mine_served
      refine h.served hsent hclocked hfresh hrelease
        ⟨hmono.process, hmono.generation, hmono.recovery, ?_, fun _ => hasks, hmono.orphans,
          hmono.unreleased⟩ ?_
      · intro registration hreply
        exact replied_mine hsent hclocked (Option.some.inj hreply)
      · rintro deadline ⟨hactive, hcursor | ⟨started, reply, hstart, hreply, rfl⟩⟩
        · exact .inl ⟨hactive, .inl hcursor⟩
        · right
          exact covered_granted hsent hclocked (hleases (by rw [hstart]; rfl))
            (Option.some.inj hreply) (hstarted started hstart)
    · cases hexecute

/-- What the last statement of a read does: it answers the read of one process anew. -/
theorem select_cases (h : c.select cfg i = some c') :
    ∃ events cursor, (c.nodes i).outcome = some (.ok (.events events)) ∧
      (c.nodes i).selecting = some cursor ∧
      c' = c.setNode i { c.nodes i with
        outcome := some (.ok (.events (c.history.db.batch cursor (cfg.relay i).batchSize)))
        selecting := none } := by
  unfold Cluster.select at h
  split at h
  · rename_i events cursor hout hselecting
    exact ⟨events, cursor, hout, hselecting, (Option.some.inj h).symm⟩
  · cases h

theorem ClusterOk.select (h : ClusterOk cfg c) (hselect : c.select cfg i = some c') :
    ClusterOk cfg c' := by
  obtain ⟨events, cursor, hout, -, rfl⟩ := select_cases hselect
  have hnode := h.node i
  refine h.node_frame ⟨fun _ => rfl, rfl, le_refl _, .inl rfl⟩
    (fun j hj => Cluster.setNode_other hj) ?_ ?_
  · rw [Cluster.setNode_self]
    refine ⟨hnode.process, hnode.generation, hnode.recovery, ?_, ?_, hnode.orphans,
      hnode.unreleased⟩
    · intro registration hreply
      cases hreply
    · intro _
      exact hnode.asks (by rw [hout]; rfl)
  · rw [Cluster.setNode_self]
    rintro deadline ⟨hactive, hcursor | ⟨started, reply, hstarted, -, hdeadline⟩⟩
    · exact ⟨hactive, .inl hcursor⟩
    · exact ⟨hactive, .inr ⟨started, _, hstarted, hout, hdeadline⟩⟩

theorem appendAll_cursors {f f' : Foundation β} {events : List (RealtimeEvent β)}
    (h : f.appendAll events = some f') : f'.cursors = f.cursors := by
  induction events generalizing f with
  | nil =>
      cases h
      rfl
  | cons e rest ih =>
      obtain ⟨g, hg, hrest⟩ := Option.bind_eq_some_iff.mp h
      obtain ⟨inserted, -, rfl⟩ := Option.map_eq_some_iff.mp hg
      have hcursors : f'.cursors = Foundation.cursors
          { f with events := inserted, lastSequence := max f.lastSequence e.sequence } :=
        ih hrest
      exact hcursors

/-- An admission whose reservation commits changes nothing the ledger is about. -/
theorem ClusterOk.reserve (h : ClusterOk cfg c) {clock : Timestamp} {tx : Appending β}
    (hreserve : c.reserve cfg clock tx = some c') : ClusterOk cfg c' := by
  unfold Cluster.reserve at hreserve
  split at hreserve
  · cases hreserve
    exact h
  · rename_i i websocket hadmission
    obtain ⟨joined, -, hreserve⟩ := Option.bind_eq_some_iff.mp hreserve
    obtain ⟨row, -, hreserve⟩ := Option.bind_eq_some_iff.mp hreserve
    split at hreserve
    · split at hreserve
      · rename_i p' hact
        cases hreserve
        obtain ⟨hrelay, hawait⟩ := act_reserved hact
        have hframe : Frame c (c.setNode i { c.nodes i with process := p' }) :=
          ⟨fun _ => rfl, rfl, le_refl _, .inl rfl⟩
        have hnode := h.node i
        refine h.node_frame hframe (fun j hj => Cluster.setNode_other hj) ?_ ?_
        · rw [Cluster.setNode_self]
          refine ⟨hnode.process.act hact, ?_, ?_, hnode.replied, ?_, hnode.orphans, ?_⟩
          · change ∀ g ∈ p'.relay.generation, _
            rw [hrelay]
            exact hnode.generation
          · change ∀ g ∈ p'.relay.recoveryGeneration, _
            rw [hrelay]
            exact hnode.recovery
          · change _ → p'.await.Asks
            rw [hawait]
            exact hnode.asks
          · change p'.await.Active → _
            rw [hawait]
            exact hnode.unreleased
        · rw [Cluster.setNode_self]
          intro deadline hdeadline
          unfold Promised at hdeadline ⊢
          change p'.await.Active ∧ ((p'.relay.cursor.isSome = true ∧ _) ∨ _) at hdeadline
          rwa [hrelay, hawait] at hdeadline
      · cases hreserve
        exact h
    · cases hreserve

/-- The step lemma. -/
theorem ClusterOk.step {action : ClusterAction β} (h : ClusterOk cfg c)
    (hstep : ClusterStep cfg c action c') : ClusterOk cfg c' := by
  unfold ClusterStep at hstep
  cases action with
  | tick now =>
      simp only [Cluster.next] at hstep
      split at hstep
      · rename_i hnow
        cases hstep
        exact h.frame ⟨fun _ => rfl, rfl, hnow, .inl rfl⟩ h.node fun _ _ => id
      · cases hstep
  | act i fresh action =>
      simp only [Cluster.next] at hstep
      split at hstep
      · rename_i hguard
        obtain ⟨hlocal, hfresh⟩ := hguard
        obtain ⟨p', hact, rfl⟩ := Option.map_eq_some_iff.mp hstep
        have hnode : NodeOk (cfg.relay i)
            ((c.moved cfg i fresh { c.nodes i with process := p' }).Mine i) (c.nodes i) :=
          (h.node i).mono fun g => mine_moved
        obtain ⟨hok, hpromised⟩ := hnode.moved List.mem_cons_self hlocal hact
        exact h.moved hfresh hok hpromised
      · cases hstep
  | execute i rd => exact h.execute hstep
  | select i => exact h.select hstep
  | reply i fresh =>
      simp only [Cluster.next] at hstep
      split at hstep
      case isFalse => cases hstep
      case isTrue =>
        obtain ⟨outcome, hout, hstep⟩ := Option.bind_eq_some_iff.mp hstep
        refine h.resume hstep ?_ fun call hcall =>
          ⟨(h.node i).orphans call hcall, fun hactive => (h.node i).unreleased hactive call hcall⟩
        intro reply hreply
        cases outcome with
        | error e => cases hreply
        | ok reply' =>
            cases hreply
            exact hout
  | lose i fresh =>
      refine h.resume hstep nofun ?_
      intro call hcall
      rcases List.mem_append.mp hcall with hgiven | hold
      · split at hgiven
        · cases hgiven
        · obtain ⟨hsent, -, -, hrelease⟩ := call?_sent (h.node i).generation (h.node i).recovery
            (Option.mem_toList.mp hgiven)
          exact ⟨hsent, hrelease⟩
      · exact ⟨(h.node i).orphans call hold, fun hactive => (h.node i).unreleased hactive call hold⟩
  | late i k rd =>
      obtain ⟨call, hcall, hstep⟩ := Option.bind_eq_some_iff.mp hstep
      split at hstep
      · rename_i hguard
        obtain ⟨hclocked, hfresh⟩ := hguard
        cases hstep
        have hmem : call ∈ (c.nodes i).orphans := List.mem_of_getElem? hcall
        have hmono : NodeOk (cfg.relay i) ((c.served i rd call).Mine i) (c.nodes i) :=
          (h.node i).mono fun g => Cluster.mine_served
        have hsub : ∀ call', call' ∈ (c.nodes i).orphans.eraseIdx k →
            call' ∈ (c.nodes i).orphans := fun call' hcall' => List.mem_of_mem_eraseIdx hcall'
        refine h.served ((h.node i).orphans call hmem) hclocked hfresh
          (fun hactive => (h.node i).unreleased hactive call hmem)
          ⟨hmono.process, hmono.generation, hmono.recovery, hmono.replied, hmono.asks,
            fun call' hcall' => hmono.orphans call' (hsub call' hcall'),
            fun hactive call' hcall' => hmono.unreleased hactive call' (hsub call' hcall')⟩
          fun _ => .inl
      · cases hstep
  | prune rd locked maxEvents maxAgeSeconds limit =>
      simp only [Cluster.next] at hstep
      split at hstep
      · rename_i hguard
        cases hstep
        have hcursors : ∀ instanceId,
            ((Call.prune locked maxEvents maxAgeSeconds limit : Call β).exec rd
              c.history.db).2.cursor? instanceId = c.history.db.cursor? instanceId :=
          prune_cursor?
        have hframe : Frame c
            (c.served 0 rd (.prune locked maxEvents maxAgeSeconds limit)) := by
          refine ⟨hcursors, ?_, le_refl _, .inr ⟨rd.fresh, 0, hguard.2, rfl⟩⟩
          funext instanceId
          exact if_pos (hcursors instanceId)
        exact h.frame hframe (fun j => (h.node j).mono fun g => hframe.mine) fun _ _ => id
      · cases hstep
  | lock admission =>
      simp only [Cluster.next] at hstep
      split at hstep
      · cases hstep
        exact h.frame ⟨fun _ => rfl, rfl, le_refl _, .inl rfl⟩ h.node fun _ _ => id
      · cases hstep
  | append event =>
      obtain ⟨tx, -, hstep⟩ := Option.bind_eq_some_iff.mp hstep
      split at hstep
      · cases hstep
        exact h.frame ⟨fun _ => rfl, rfl, le_refl _, .inl rfl⟩ h.node fun _ _ => id
      · cases hstep
  | commit clock =>
      simp only [Cluster.next] at hstep
      split at hstep
      · obtain ⟨tx, -, hstep⟩ := Option.bind_eq_some_iff.mp hstep
        obtain ⟨db, hdb, hstep⟩ := Option.bind_eq_some_iff.mp hstep
        have hcursors : ∀ instanceId, db.cursor? instanceId = c.history.db.cursor? instanceId := by
          intro instanceId
          unfold Foundation.cursor?
          rw [appendAll_cursors hdb]
        have hframe : Frame c { c with
            history := { c.history with db := db }
            appending := none
            committed := c.committed ++ tx.events } :=
          ⟨hcursors, rfl, le_refl _, .inl rfl⟩
        exact (h.frame hframe h.node fun _ _ => id).reserve hstep
      · cases hstep
  | rollback =>
      simp only [Cluster.next] at hstep
      split at hstep
      · cases hstep
        exact h.frame ⟨fun _ => rfl, rfl, le_refl _, .inl rfl⟩ h.node fun _ _ => id
      · cases hstep

theorem ClusterOk.start : ClusterOk cfg ({} : Cluster β) where
  rows := ⟨List.nodup_nil, fun _ => le_refl _, nofun, nofun⟩
  node _ := ⟨ProcessOk.start, nofun, nofun, nofun, nofun, nofun, fun _ => nofun⟩
  covered i deadline := by
    rintro ⟨-, ⟨hcursor, -⟩ | ⟨_, _, _, hnone, _⟩⟩
    · cases hcursor
    · cases hnone

theorem ClusterReachable.ok (hreach : ClusterReachable cfg c) : ClusterOk cfg c := by
  have hinit : ∀ c : Cluster β, c = {} → ClusterOk cfg c := by
    rintro c rfl
    exact ClusterOk.start
  exact Reachable.invariant hinit (fun _ _ _ h hstep => h.step hstep) hreach

end Ledger

/-! ## Two processes of one instance -/

/-- The process reports ready. -/
def Cluster.Ready (cfg : ClusterConfig) (c : Cluster β) (i : Nat) : Prop :=
  (c.nodes i).process.relay.ready (c.time cfg i) = true

instance (cfg : ClusterConfig) (c : Cluster β) : DecidablePred (c.Ready cfg) := by
  intro i
  unfold Cluster.Ready
  infer_instance

/-- The generations a relay holds: its own, and the recovery generation it retains
until a resynchronization has returned. -/
def Relay.holds (r : Relay) : List Generation :=
  r.generation.toList ++ r.recoveryGeneration.toList

/-- The call of a suspended relay. -/
def Cluster.call? (cfg : ClusterConfig) (c : Cluster β) (i : Nat) : Option (Call β) :=
  (c.nodes i).process.await.call? (cfg.relay i) (c.nodes i).process.relay

/-- The calls that may take an instance over once its lease has expired. -/
def Call.Claims : Call β → Prop
  | .claim .. => True
  | _ => False

/-- The call does not return, or has released nothing, and leaves no trace. -/
def Call.Refused (rd : CallReadings) (f : Foundation β) (call : Call β) : Prop :=
  (call.exec rd f).2 = f ∧
    ∀ reply, (call.exec rd f).1 = .ok reply → reply = .released false

/-- The call is about the instance and made in the name of the generation alone. -/
def Call.InNameOf (instanceId : String) (g : Generation) : Call β → Prop
  | .heartbeat other generation _ | .recover other generation _ | .read other _ generation _
  | .acknowledge other _ generation => other = instanceId ∧ generation = some g
  | .release other generation => other = instanceId ∧ generation = g
  | _ => False

section Refusals

variable {rd : CallReadings} {f : Foundation β} {instanceId : String} {g : Generation}
  {row : InstanceCursor} {call : Call β}

theorem unowned (hrow : f.cursor? instanceId = some row) (hother : row.generation ≠ g)
    (now : Timestamp) (row' : InstanceCursor) : f.owned now instanceId (some g) ≠ some row' := by
  intro howned
  obtain ⟨hrow', -, hgen⟩ := Foundation.owned_eq_some.mp howned
  obtain rfl := Option.some.inj (hrow.symm.trans hrow')
  exact hother (hgen g rfl)

/-- What is asked in the name of a generation that is not the stored one. -/
theorem refused_in_name (hrow : f.cursor? instanceId = some row) (hother : row.generation ≠ g)
    (hcall : call.InNameOf instanceId g) : call.Refused rd f := by
  have hunowned := unowned hrow hother (rd.clock 0)
  unfold Call.Refused
  rcases call.exec_cases rd f with ⟨e, hexec⟩ | ⟨reply, f', hrun, hexec⟩
  · rw [hexec]
    exact ⟨rfl, nofun⟩
  rw [hexec]
  cases call with
  | append _ _ _ _ | prune _ _ _ _ | claim _ _ _ | register _ _ | resynchronize _ _ _ _ =>
      exact hcall.elim
  | heartbeat other generation leaseSeconds =>
      obtain ⟨rfl, rfl⟩ := hcall
      obtain ⟨_, hbeat, -⟩ := Tx.returns_map.mp hrun
      obtain ⟨old, howned, -⟩ := heartbeatInstance_ok hbeat
      exact absurd howned (hunowned old)
  | recover other generation leaseSeconds =>
      obtain ⟨rfl, rfl⟩ := hcall
      obtain ⟨_, hrecover, -⟩ := Tx.returns_map.mp hrun
      obtain ⟨old, hold, hgen, -⟩ := recoverInstanceAfterGap_ok hrecover
      obtain rfl := Option.some.inj (hrow.symm.trans hold)
      exact absurd (hgen g rfl) hother
  | read other limit generation limits =>
      obtain ⟨rfl, rfl⟩ := hcall
      obtain ⟨_, hread, -⟩ := Tx.returns_map.mp hrun
      obtain ⟨-, old, howned, -, -⟩ := readEvents_ok hread
      exact absurd howned (hunowned old)
  | acknowledge other throughSequence generation =>
      obtain ⟨rfl, rfl⟩ := hcall
      obtain ⟨_, hack, -⟩ := Tx.returns_map.mp hrun
      obtain ⟨old, howned, -⟩ := acknowledgeEvents_ok hack
      exact absurd howned (hunowned old)
  | release other generation =>
      obtain ⟨rfl, rfl⟩ := hcall
      obtain ⟨_, hrelease, rfl⟩ := Tx.returns_map.mp hrun
      rcases releaseInstance_ok hrelease with ⟨rfl, rfl⟩ | ⟨old, howned, -, -⟩
      · exact ⟨rfl, fun reply hreply => (Except.ok.inj hreply).symm⟩
      · exact absurd howned (hunowned old)

/-- A resynchronization neither of whose generations is the stored one. -/
theorem resynchronize_refused {recoveryGeneration : Generation} {leaseSeconds : Nat}
    (hrow : f.cursor? instanceId = some row) (hother : row.generation ≠ g)
    (hrecovery : row.generation ≠ recoveryGeneration) :
    (Call.resynchronize instanceId g recoveryGeneration leaseSeconds : Call β).Refused rd f := by
  unfold Call.Refused
  rcases (Call.resynchronize instanceId g recoveryGeneration leaseSeconds : Call β).exec_cases rd f
    with ⟨e, hexec⟩ | ⟨reply, f', hrun, hexec⟩
  · rw [hexec]
    exact ⟨rfl, nofun⟩
  obtain ⟨_, hresync, -⟩ := Tx.returns_map.mp hrun
  obtain ⟨-, -, old, hold, ⟨hgen, -, -⟩ | ⟨hgen, -, -⟩⟩ :=
    returns_resynchronizeClaimedInstance.mp hresync
  · obtain rfl := Option.some.inj (hrow.symm.trans hold)
    exact absurd hgen hrecovery
  · obtain rfl := Option.some.inj (hrow.symm.trans hold)
    exact absurd hgen hother

end Refusals

section Exclusion

variable {cfg : ClusterConfig} {c : Cluster β}

/-- A ready process owns the stored row. -/
theorem ClusterOk.ready_row (h : ClusterOk cfg c) {i : Nat} (hready : c.Ready cfg i) :
    ∃ row, c.history.db.cursor? (cfg.relay i).instanceId = some row ∧ c.Mine i row.generation := by
  obtain ⟨hserving, -, hstop, htime, -⟩ := ready_serving hready
  have hactive : (c.nodes i).process.await.Active := by
    have hexpects := (h.node i).process.task.expects
    cases hawait : (c.nodes i).process.await with
    | ended | releasing | closed =>
        rw [hawait] at hexpects
        rcases hexpects with hstopped | hcursor
        · rw [hstop] at hstopped
          cases hstopped
        · have hsome := hserving.cursor
          rw [hcursor] at hsome
          cases hsome
    | created | opening _ | initializing _ | fencing _ _ | recovering _ | beating _ | reading
    | dispatching _ _ _ _ _ | acknowledging _ _ _ | waiting => trivial
  obtain ⟨row, hrow, hmine, -⟩ :=
    h.covered i _ ⟨hactive, .inl ⟨hserving.cursor, rfl⟩⟩ htime
  exact ⟨row, hrow, hmine⟩

/-- A call that names no stored generation is refused. -/
theorem refused_of_stale {config : RelayConfig} {mine : Generation → Prop} {rd : CallReadings}
    {f : Foundation β} {call : Call β} {row : InstanceCursor} (hsent : call.SentBy config mine)
    (hrow : f.cursor? config.instanceId = some row) (hstale : row.generation ∉ call.names)
    (hlive : call.Claims → row.Live (rd.clock 0)) : call.Refused rd f := by
  have hother : ∀ g ∈ call.names, row.generation ≠ g := fun g hg heq => hstale (heq ▸ hg)
  cases call with
  | append _ _ _ _ | prune _ _ _ _ | register _ _ | recover _ _ _ => exact hsent.elim
  | claim instanceId leaseSeconds generation =>
      obtain ⟨rfl, -, -⟩ := hsent
      unfold Call.Refused
      rcases (Call.claim config.instanceId leaseSeconds generation : Call β).exec_cases rd f with
        ⟨e, hexec⟩ | ⟨reply, f', hrun, hexec⟩
      · rw [hexec]
        exact ⟨rfl, nofun⟩
      obtain ⟨_, hclaim, -⟩ := Tx.returns_map.mp hrun
      obtain ⟨_, -, -, ⟨hnone, -⟩ | ⟨old, hold, hcase⟩⟩ := claimInstance_ok hclaim
      · rw [hnone] at hrow
        cases hrow
      · obtain rfl := Option.some.inj (hrow.symm.trans hold)
        rcases hcase with ⟨-, hnamed, -⟩ | ⟨hdead, -⟩
        · exact absurd (Option.mem_toList.mpr hnamed) hstale
        · exact absurd (hlive trivial) hdead
  | heartbeat instanceId generation leaseSeconds =>
      obtain ⟨rfl, -, g, rfl, -⟩ := hsent
      exact refused_in_name hrow (hother g (List.mem_singleton_self g)) ⟨rfl, rfl⟩
  | resynchronize instanceId generation recoveryGeneration leaseSeconds =>
      obtain ⟨rfl, -, -, -⟩ := hsent
      exact resynchronize_refused hrow (hother _ List.mem_cons_self)
        (hother _ (List.mem_cons_of_mem _ List.mem_cons_self))
  | read instanceId limit generation limits =>
      obtain ⟨rfl, g, rfl, -⟩ := hsent
      exact refused_in_name hrow (hother g (List.mem_singleton_self g)) ⟨rfl, rfl⟩
  | acknowledge instanceId throughSequence generation =>
      obtain ⟨rfl, g, rfl, -⟩ := hsent
      exact refused_in_name hrow (hother g (List.mem_singleton_self g)) ⟨rfl, rfl⟩
  | release instanceId generation =>
      obtain ⟨rfl, -⟩ := hsent
      exact refused_in_name hrow (hother _ (List.mem_singleton_self generation)) ⟨rfl, rfl⟩

/-- A relay names only generations it holds. -/
theorem call?_names {config : RelayConfig} {r : Relay} {a : Await β} {call : Call β}
    (hcall : a.call? config r = some call) : ∀ g ∈ call.names, g ∈ r.holds := by
  have hown : ∀ g ∈ r.generation.toList, g ∈ r.holds := fun g hg => List.mem_append_left _ hg
  cases a with
  | created | fencing _ _ | dispatching _ _ _ _ _ | waiting | ended | closed => cases hcall
  | opening _ | initializing _ =>
      cases hcall
      exact hown
  | recovering _ =>
      simp only [Await.call?] at hcall
      split at hcall
      · rename_i generation recoveryGeneration hg hr
        cases hcall
        unfold Relay.holds
        rw [hg, hr]
        exact fun g hg => hg
      · cases hcall
  | beating _ | reading | acknowledging _ _ _ | releasing =>
      obtain ⟨generation, hg, rfl⟩ := Option.map_eq_some_iff.mp hcall
      rw [hg] at hown
      exact hown

/-- Two processes of one instance are never ready together, and a process that
holds no stored generation, neither as its own nor as the recovery generation it
retains, gets nothing done with the instance before it claims an expired lease. -/
theorem one_ready_per_instance (hreach : ClusterReachable cfg c) :
    (∀ i j, (cfg.relay i).instanceId = (cfg.relay j).instanceId → c.Ready cfg i → c.Ready cfg j →
      i = j) ∧
    ∀ i row, c.history.db.cursor? (cfg.relay i).instanceId = some row →
      (row.generation ∉ (c.nodes i).process.relay.holds → ∀ call, c.call? cfg i = some call →
        ∀ rd, (call.Claims → row.Live (rd.clock 0)) → call.Refused rd c.history.db) ∧
      ∀ call ∈ (c.nodes i).orphans, row.generation ∉ call.names →
        ∀ rd, (call.Claims → row.Live (rd.clock 0)) → call.Refused rd c.history.db := by
  have hok := hreach.ok
  refine ⟨?_, ?_⟩
  · intro i j hid hi hj
    obtain ⟨row, hrow, hmine⟩ := hok.ready_row hi
    obtain ⟨row', hrow', hmine'⟩ := hok.ready_row hj
    rw [← hid] at hrow'
    obtain rfl := Option.some.inj (hrow.symm.trans hrow')
    exact hok.rows.owner hmine hmine'
  · intro i row hrow
    refine ⟨?_, ?_⟩
    · intro hstale call hcall rd hlive
      obtain ⟨hsent, -⟩ := call?_sent (hok.node i).generation (hok.node i).recovery hcall
      exact refused_of_stale hsent hrow (fun hmem => hstale (call?_names hcall _ hmem)) hlive
    · intro call hcall hstale rd hlive
      exact refused_of_stale ((hok.node i).orphans call hcall) hrow hstale hlive

/-- The state after a sequence of actions, skipping those that are not possible. -/
def Cluster.run (cfg : ClusterConfig) (actions : List (ClusterAction β)) (c : Cluster β) :
    Cluster β :=
  actions.foldl (fun c action => (c.next cfg action).getD c) c

theorem Cluster.run_reach (cfg : ClusterConfig) (actions : List (ClusterAction β))
    (c : Cluster β) : Reach (ClusterStep cfg) c (c.run cfg actions) := by
  induction actions generalizing c with
  | nil => exact Run.refl
  | cons action rest ih =>
      have hfirst : Reach (ClusterStep cfg) c ((c.next cfg action).getD c) := by
        cases hnext : c.next cfg action with
        | none => exact Run.refl
        | some c' => exact Run.tail action Run.refl trivial hnext
      exact hfirst.trans (ih _)

end Exclusion

/-- Processes of one instance that fall behind with a second unread event; the clock
of process 1 is five seconds ahead. -/
def sharedCluster : ClusterConfig where
  relay _ := { pairConfig with limits := { maxPendingEvents := some 1, maxEventAgeSeconds := none } }
  offset i := if i = 1 then seconds 5 else 0

/-- A call that reads the clock once. -/
def readAt (now : Timestamp) (fresh : Generation) : CallReadings where
  clock _ := now
  fresh := fresh

/-- Process 0 claims the instance and lets its lease expire; process 1 takes it over
while process 0 is about to send a heartbeat. -/
def takenOver : Cluster Unit :=
  Cluster.run sharedCluster
    [.act 0 1 .start, .execute 0 (readAt 0 2), .reply 0 3, .tick (seconds 40), .act 1 4 .start,
      .execute 1 (readAt (seconds 40) 5), .reply 1 6, .act 0 7 .wake] {}

theorem one_ready_per_instance_takenOver :
    (takenOver.Ready sharedCluster 0 → (0 : Nat) = 1) ∧
      takenOver.call? sharedCluster 0 = some (.heartbeat "node-1" (some 2) 30) ∧
      (Call.heartbeat "node-1" (some 2) 30).Refused (readAt (seconds 40) 8)
        takenOver.history.db := by
  have hreach : ClusterReachable sharedCluster takenOver :=
    ⟨{}, rfl, Cluster.run_reach sharedCluster _ {}⟩
  have hready : takenOver.Ready sharedCluster 1 := by decide +kernel
  have hcall : takenOver.call? sharedCluster 0 = some (.heartbeat "node-1" (some 2) 30) := by
    decide +kernel
  have hrow : takenOver.history.db.cursor? "node-1" =
      some ⟨"node-1", 5, 0, seconds 70⟩ := by decide +kernel
  have hstale : (5 : Generation) ∉ (takenOver.nodes 0).process.relay.holds := by decide +kernel
  obtain ⟨hexclusive, hrefused⟩ := one_ready_per_instance hreach
  exact ⟨fun hi => hexclusive 0 1 rfl hi hready, hcall,
    (hrefused 0 _ hrow).1 hstale _ hcall _ nofun⟩

/-- Process 0 falls behind and resynchronizes; the reply is lost, and a second later
it is about to ask again. -/
def retriedRecovery : Cluster Unit :=
  Cluster.run sharedCluster
    [.act 0 1 .start, .execute 0 (readAt 0 2), .reply 0 3, .lock none,
      .append ⟨1, "general", (), 0⟩, .append ⟨2, "general", (), 0⟩, .commit 0, .act 0 4 .wake,
      .execute 0 (readAt 0 5), .reply 0 6, .act 0 7 .detach, .act 0 8 (.fenced true),
      .act 0 9 .wake, .execute 0 (readAt 0 10), .lose 0 11, .tick (seconds 1),
      .act 0 12 .wake] {}

/-- Its generation is no longer the stored one, and yet the call renews the lease. -/
theorem retried_recovery_renews :
    ClusterReachable sharedCluster retriedRecovery ∧
      (retriedRecovery.nodes 0).process.relay.generation = some 2 ∧
      retriedRecovery.history.db.cursor? "node-1" = some ⟨"node-1", 9, 2, seconds 30⟩ ∧
      retriedRecovery.call? sharedCluster 0 = some (.resynchronize "node-1" 2 9 30) ∧
      ((Call.resynchronize "node-1" 2 9 30).exec (readAt (seconds 1) 13)
        retriedRecovery.history.db).2.cursor? "node-1" =
          some ⟨"node-1", 9, 2, seconds 31⟩ :=
  ⟨⟨{}, rfl, Cluster.run_reach sharedCluster _ {}⟩, by decide +kernel, by decide +kernel,
    by decide +kernel, by decide +kernel⟩

end Realtime
end ChatEngine
