import ChatEngine.Realtime.Log

/-!
# Delivery without gaps

What the relay of a process has handed to its rooms while one admission window is open.

* `Process.handedIn`, the events handed in one epoch, and `Delivering`, the invariant of an open
  window: they are a feed of the log that begins where the log was when the window opened, and
  every socket was admitted past that;
* `HandedOk`, what holds of a process in any case;
* `Cluster.Spares`, the retention passes that overtake no read between its checks and its batch;
* `Handing`, both of one process, and one lemma for each kind of step up to `DeliveryOk.step`;
* `no_silent_gap`, the property of every run of such passes.
-/

namespace ChatEngine
namespace Realtime

open Lib
open Models

variable {β : Type}

/-! ## What was handed on -/

/-- The events handed to their rooms in an epoch. -/
def Process.handedIn (p : Process β) (epoch : Nat) : List (RealtimeEvent β) :=
  (p.handed.filter fun entry => entry.1 = epoch).map Prod.snd

/-- Events have been dispatched that the cursor row has not been told of. -/
def Node.Behind (n : Node β) : Prop :=
  match n.process.await with
  | .dispatching _ _ _ dispatched _ => dispatched.isSome = true
  | .acknowledging _ _ _ => ∀ reply, n.outcome ≠ some (.ok reply)
  | _ => False

/-- The batch that the relay is about to dispatch, is dispatching, or has dispatched. -/
def Node.Batched (log : List (RealtimeEvent β)) (base done last : Nat) (n : Node β) : Prop :=
  match n.process.await with
  | .reading => ∀ events, n.outcome = some (.ok (.events events)) →
      events <+: after RealtimeEvent.sequence log done ∧ ∀ cursor ∈ n.selecting, cursor = done
  | .dispatching event rest _ dispatched handed =>
      event :: rest <+: after RealtimeEvent.sequence log done ∧
        (∀ throughSequence ∈ dispatched, throughSequence = done) ∧
        (handed = true → last = event.sequence)
  | .acknowledging throughSequence _ _ =>
      throughSequence = done ∧ (∀ message, n.outcome ≠ some (.error (.value message))) ∧
        ∀ k, n.outcome = some (.ok (.sequence k)) → k ≤ max base done
  | _ => True

/-- A process whose admission window is open. -/
structure Delivering (cfg : RelayConfig) (f : Foundation β) (log : List (RealtimeEvent β))
    (n : Node β) (base done last : Nat) : Prop where
  feed : Feed RealtimeEvent.sequence log (n.process.handedIn n.process.relay.admissionEpoch)
    base done last
  base_le : base ≤ f.lastSequence
  last_le : last ≤ f.lastSequence
  cursor : ∀ k ∈ n.process.relay.cursor, k ≤ max base done
  sockets : ∀ s ∈ n.process.sockets, base ≤ s.afterSequence
  admissions : ∀ a ∈ n.process.admissions, a.token.2 = n.process.relay.admissionEpoch →
    ∀ lease ∈ a.lease, base ≤ lease.2
  orphans : ∀ instanceId throughSequence generation,
    Call.acknowledge instanceId throughSequence generation ∈ n.orphans → throughSequence ≤ base
  row : ∀ row, f.cursor? cfg.instanceId = some row →
    n.process.relay.generation = some row.generation →
      row.lastSequence ≤ max base done ∧ (¬ n.Behind → done ≤ row.lastSequence)
  batch : n.Batched log base done last

/-- What holds of a process whether its window is open or not. -/
structure HandedOk (cfg : RelayConfig) (f : Foundation β) (log : List (RealtimeEvent β))
    (n : Node β) : Prop where
  epochs : ∀ entry ∈ n.process.handed, entry.1 ≤ n.process.relay.admissionEpoch
  real : ∀ entry ∈ n.process.handed, entry.2 ∈ log
  tokens : ∀ a ∈ n.process.admissions, a.token.2 ≤ n.process.relay.admissionEpoch
  orphans : ∀ instanceId throughSequence generation,
    Call.acknowledge instanceId throughSequence generation ∈ n.orphans →
      throughSequence ≤ f.lastSequence
  replied : ∀ registration, n.outcome = some (.ok (.registration registration)) →
    registration.lastSequence ≤ f.lastSequence ∧
      ∀ row, f.cursor? cfg.instanceId = some row → row.generation = registration.generation →
        registration.lastSequence ≤ row.lastSequence

/-- The window of a process is open, and it delivers. -/
def Delivers (cfg : RelayConfig) (f : Foundation β) (log : List (RealtimeEvent β)) (n : Node β) :
    Prop :=
  n.process.relay.cursor.isSome = true → ∃ base done last, Delivering cfg f log n base done last

/-- Both, and the events after the cursor of a read that has not selected its batch are there. -/
structure Handing (cfg : RelayConfig) (f : Foundation β) (log : List (RealtimeEvent β))
    (n : Node β) : Prop where
  handed : HandedOk cfg f log n
  delivers : Delivers cfg f log n
  unpassed : ∀ cursor ∈ n.selecting, f.prunedThrough ≤ cursor

/-- A retention pass leaves the watermark at or below the cursor of every read that has passed
its checks and has not selected its batch yet. -/
def Cluster.Spares (c : Cluster β) : ClusterAction β → Prop
  | .prune rd locked maxEvents maxAgeSeconds limit =>
      ∀ i, ∀ cursor ∈ (c.nodes i).selecting,
        ((Call.prune locked maxEvents maxAgeSeconds limit : Call β).exec rd
          c.history.db).2.prunedThrough ≤ cursor
  | _ => True

/-- The invariant, next to those of the log and of the generations. -/
structure DeliveryOk (cfg : ClusterConfig) (c : Cluster β) : Prop where
  log : c.LogKept
  order : OrderOk cfg c
  nodes : ∀ i, Handing (cfg.relay i) c.history.db c.committed (c.nodes i)

/-! ## The tables move on -/

section Tables

variable {cfg : RelayConfig} {f f' : Foundation β} {log more : List (RealtimeEvent β)}
  {n : Node β} {base done last : Nat}

/-- A row of this generation is a row of before that went on, and within a bound. -/
def RowGoesOn (cfg : RelayConfig) (f f' : Foundation β) (g : Generation) (bound : Nat → Prop) :
    Prop :=
  ∀ row', f'.cursor? cfg.instanceId = some row' → row'.generation = g →
    ∃ row, f.cursor? cfg.instanceId = some row ∧ row.generation = g ∧
      row.lastSequence ≤ row'.lastSequence ∧
      (row'.lastSequence = row.lastSequence ∨ bound row'.lastSequence)

theorem Batched.grow (h : n.Batched log base done last) : n.Batched (log ++ more) base done last := by
  unfold Node.Batched at h ⊢
  split
  · rename_i hawait
    rw [hawait] at h
    intro events hevents
    exact ⟨batch_append (h events hevents).1, (h events hevents).2⟩
  · rename_i hawait
    rw [hawait] at h
    exact ⟨batch_append h.1, h.2⟩
  · rename_i hawait
    rw [hawait] at h
    exact h
  · trivial

/-- The database moves on while the process does nothing. -/
theorem Delivering.grow (h : Delivering cfg f log n base done last)
    (hlast : f.lastSequence ≤ f'.lastSequence) (hmore : ∀ e ∈ more, f.lastSequence < e.sequence)
    (hrow : ∀ g ∈ n.process.relay.generation, RowGoesOn cfg f f' g fun k => k ≤ base) :
    Delivering cfg f' (log ++ more) n base done last where
  feed := h.feed.append fun e he => h.last_le.trans_lt (hmore e he)
  base_le := h.base_le.trans hlast
  last_le := h.last_le.trans hlast
  cursor := h.cursor
  sockets := h.sockets
  admissions := h.admissions
  orphans := h.orphans
  row row' hrow' hgen := by
    obtain ⟨row, hold, heq, hle, hbound⟩ := hrow _ hgen row' hrow' rfl
    rw [← heq] at hgen
    obtain ⟨hupper, hlower⟩ := h.row row hold hgen
    refine ⟨?_, fun hbehind => (hlower hbehind).trans hle⟩
    rcases hbound with hsame | hbase
    · rw [hsame]
      exact hupper
    · exact hbase.trans (Nat.le_max_left base done)
  batch := Batched.grow h.batch

theorem HandedOk.grow (h : HandedOk cfg f log n) (hlast : f.lastSequence ≤ f'.lastSequence)
    (hrow : ∀ registration, n.outcome = some (.ok (.registration registration)) →
      RowGoesOn cfg f f' registration.generation fun _ => True) :
    HandedOk cfg f' (log ++ more) n where
  epochs := h.epochs
  real entry he := List.mem_append_left more (h.real entry he)
  tokens := h.tokens
  orphans instanceId throughSequence generation hmem :=
    (h.orphans instanceId throughSequence generation hmem).trans hlast
  replied registration hreply := by
    obtain ⟨hbound, hlower⟩ := h.replied registration hreply
    refine ⟨hbound.trans hlast, ?_⟩
    intro row' hrow' hgen
    obtain ⟨row, hold, heq, hle, -⟩ := hrow registration hreply row' hrow' hgen
    exact (hlower row hold heq).trans hle

theorem RowGoesOn.of_same {g : Generation} {bound : Nat → Prop}
    (h : f'.cursor? cfg.instanceId = f.cursor? cfg.instanceId) : RowGoesOn cfg f f' g bound := by
  intro row' hrow' hgen
  exact ⟨row', h.symm.trans hrow', hgen, Nat.le_refl _, .inl rfl⟩

end Tables

section Rows

variable {cfg : ClusterConfig} {c : Cluster β} {i j : Nat} {g : Generation} {rd : CallReadings}
  {call : Call β} {bound : Nat → Prop}

/-- No call but an acknowledgement of its own moves the cursor of a current generation. -/
theorem row_goes_on (hok : ClusterOk cfg c) (hsent : call.SentBy (cfg.relay i) (c.Mine i))
    (hrequest : ∀ request ∈ call.request?, c.age request.2.1 < c.age request.2.2)
    (hfresh : c.Unminted rd.fresh) (hg : c.Mine j g)
    (hcurrent : ∀ row, c.history.db.cursor? (cfg.relay j).instanceId = some row →
      c.age g ≤ c.age row.generation)
    (hack : i = j → ∀ instanceId throughSequence generation,
      call = .acknowledge instanceId throughSequence generation → bound throughSequence) :
    RowGoesOn (cfg.relay j) c.history.db (call.exec rd c.history.db).2 g bound := by
  intro row' hrow' hgen
  cases Call.row_step hrow' with
  | @kept row hrow hsame hlast =>
      exact ⟨row, hrow, hsame.symm.trans hgen, hlast.ge, .inl hlast⟩
  | minted hnew _ =>
      rw [← hnew, hgen] at hfresh
      exact absurd hg.minted hfresh
  | @recovered row hrow hasked _ =>
      have hlater := hrequest _ hasked
      have hle := hcurrent row hrow
      rw [hgen] at hlater
      exact absurd hlater (Nat.not_lt.mpr hle)
  | @advanced row throughSequence generation hrow hcall hnamed hlt _ hsame hlast =>
      subst hcall
      obtain ⟨-, g', rfl, hmine⟩ := hsent
      have hown : g = g' := hgen.symm.trans (hsame.trans (hnamed g' rfl))
      have hij : i = j := hok.rows.owner hmine (hown ▸ hg)
      refine ⟨row, hrow, hsame.symm.trans hgen, ?_, .inr ?_⟩
      · rw [hlast]
        exact hlt.le
      · rw [hlast]
        exact hack hij _ _ _ rfl

end Rows

/-! ## Steps inside a process -/

section Process

variable {cfg : RelayConfig} {f : Foundation β} {log : List (RealtimeEvent β)} {n n' : Node β}
  {base done last : Nat}

/-- The relay task waits for nothing that a batch depends on. -/
def Await.Quiet : Await β → Prop
  | .dispatching _ _ _ _ _ | .acknowledging _ _ _ => False
  | _ => True

theorem Node.not_behind (h : n.process.await.Quiet) : ¬ n.Behind := by
  unfold Node.Behind
  cases hawait : n.process.await with
  | dispatching _ _ _ _ _ | acknowledging _ _ _ =>
      rw [hawait] at h
      exact h.elim
  | created | opening _ | initializing _ | fencing _ _ | recovering _ | beating _ | reading
  | waiting | ended | releasing | closed => exact id

theorem Node.batched_quiet (h : n.process.await.Quiet) (hout : n.outcome = none) :
    n.Batched log base done last := by
  unfold Node.Batched
  cases hawait : n.process.await with
  | dispatching _ _ _ _ _ | acknowledging _ _ _ =>
      rw [hawait] at h
      exact h.elim
  | reading =>
      show ∀ events, n.outcome = some (.ok (.events events)) → _
      rw [hout]
      intro events hnone
      cases hnone
  | created | opening _ | initializing _ | fencing _ _ | recovering _ | beating _ | waiting
  | ended | releasing | closed => trivial

/-- The fields of a relay that a window rests on. -/
structure SameView (r r' : Relay) : Prop where
  cursor : r'.cursor = r.cursor
  generation : r'.generation = r.generation
  admissionEpoch : r'.admissionEpoch = r.admissionEpoch

/-- What a process keeps of its sockets and of what was handed to them. -/
structure SameRooms (p p' : Process β) : Prop where
  handed : p'.handed = p.handed
  sockets : p'.sockets = p.sockets
  admissions : p'.admissions = p.admissions

/-- The relay goes on in its window, perhaps with another cursor, and with the same batch or
without one. -/
theorem Delivering.move (h : Delivering cfg f log n base done last)
    (hcursor : ∀ k ∈ n'.process.relay.cursor, k ≤ max base done)
    (hgen : n'.process.relay.generation = n.process.relay.generation)
    (hepoch : n'.process.relay.admissionEpoch = n.process.relay.admissionEpoch)
    (hhanded : n'.process.handed = n.process.handed)
    (hsockets : ∀ s ∈ n'.process.sockets, base ≤ s.afterSequence)
    (hadmissions : ∀ a ∈ n'.process.admissions, a.token.2 = n.process.relay.admissionEpoch →
      ∀ lease ∈ a.lease, base ≤ lease.2)
    (horphans : ∀ instanceId throughSequence generation,
      Call.acknowledge instanceId throughSequence generation ∈ n'.orphans →
        throughSequence ≤ base)
    (hbehind : ¬ n'.Behind → ¬ n.Behind) (hbatch : n'.Batched log base done last) :
    Delivering cfg f log n' base done last := by
  refine ⟨?_, h.base_le, h.last_le, hcursor, hsockets, ?_, horphans, ?_, hbatch⟩
  · unfold Process.handedIn
    rw [hhanded, hepoch]
    exact h.feed
  · rw [hepoch]
    exact hadmissions
  · rw [hgen]
    intro row hrow hown
    obtain ⟨hupper, hlower⟩ := h.row row hrow hown
    exact ⟨hupper, fun hnot => hlower (hbehind hnot)⟩

/-- The relay goes on with the same window. -/
theorem Delivering.carry (h : Delivering cfg f log n base done last)
    (hview : SameView n.process.relay n'.process.relay)
    (hhanded : n'.process.handed = n.process.handed)
    (hsockets : ∀ s ∈ n'.process.sockets, base ≤ s.afterSequence)
    (hadmissions : ∀ a ∈ n'.process.admissions, a.token.2 = n.process.relay.admissionEpoch →
      ∀ lease ∈ a.lease, base ≤ lease.2)
    (horphans : ∀ instanceId throughSequence generation,
      Call.acknowledge instanceId throughSequence generation ∈ n'.orphans →
        throughSequence ≤ base)
    (hbehind : ¬ n'.Behind → ¬ n.Behind) (hbatch : n'.Batched log base done last) :
    Delivering cfg f log n' base done last := by
  refine h.move ?_ hview.generation hview.admissionEpoch hhanded hsockets hadmissions horphans
    hbehind hbatch
  rw [hview.cursor]
  exact h.cursor

end Process

section Task

variable {cfg : RelayConfig} {f : Foundation β} {log : List (RealtimeEvent β)} {n : Node β}
  {base done last : Nat} {r : Relay} {time : Timestamp} {fresh : Generation} {p' : Process β}
  {appending : Option (Appending β)}

theorem beat_serving (r : Relay) (time : Timestamp) : (r.beat time : Relay × Await β).1 = r ∧
    (r.beat time : Relay × Await β).2.Quiet := by
  unfold Relay.beat
  split
  · exact ⟨rfl, trivial⟩
  · exact ⟨rfl, trivial⟩

/-- A relay with its window open goes through the head of the loop as it is. -/
theorem top_serving (time : Timestamp) (fresh : Generation) (h : r.Serving) :
    (r.top time fresh : Relay × Await β).1 = r ∧
      (r.top time fresh : Relay × Await β).2.Quiet := by
  unfold Relay.top
  split
  · exact ⟨rfl, trivial⟩
  have hidle : ¬ ((r.fenceRequired || r.recoveryRequired) = true) := by
    simp [h.fenceRequired, h.recoveryRequired]
  rw [if_neg hidle]
  unfold Relay.attempt
  rw [if_neg (by simp [h.recoveryRequired])]
  unfold Relay.begin
  obtain ⟨k, hk⟩ := Option.isSome_iff_exists.mp h.cursor
  rw [if_neg (by simp [hk])]
  exact beat_serving r time

theorem processed_serving (cfg : RelayConfig) (time : Timestamp) (fresh : Generation) (count : Nat)
    (h : r.Serving) :
    (r.processed cfg time fresh count : Relay × Await β).1 = r ∧
      (r.processed cfg time fresh count : Relay × Await β).2.Quiet := by
  unfold Relay.processed
  split
  · exact top_serving time fresh h
  · exact ⟨rfl, trivial⟩

/-- An event is handed to its room. -/
theorem Delivering.hand (h : Delivering cfg f log n base done last)
    (hlog : LogOk f log appending) {event : RealtimeEvent β} {rest : List (RealtimeEvent β)}
    {count : Nat} {dispatched : Option Nat} {handed : Bool}
    (hawait : n.process.await = .dispatching event rest count dispatched handed) :
    Delivering cfg f log
      { n with process := { n.process with
          await := .dispatching event rest count dispatched true
          handed := n.process.handed ++ [(n.process.relay.admissionEpoch, event)] } }
      base done event.sequence := by
  have hbatch := h.batch
  unfold Node.Batched at hbatch
  rw [hawait] at hbatch
  obtain ⟨hnext, hdone, -⟩ := hbatch
  have hfeed := h.feed.pass hlog.ascending hnext
  refine ⟨?_, h.base_le, hlog.bounded event (mem_of_batch hnext).1, h.cursor, h.sockets,
    h.admissions, h.orphans, ?_, hnext, hdone, fun _ => rfl⟩
  · have hmore : Process.handedIn { n.process with
        await := .dispatching event rest count dispatched true
        handed := n.process.handed ++ [(n.process.relay.admissionEpoch, event)] }
        n.process.relay.admissionEpoch =
        n.process.handedIn n.process.relay.admissionEpoch ++ [event] := by
      unfold Process.handedIn
      simp
    show Feed _ _ (Process.handedIn _ n.process.relay.admissionEpoch) _ _ _
    rw [hmore]
    exact hfeed
  · intro row hrow hgen
    obtain ⟨hupper, hlower⟩ := h.row row hrow hgen
    refine ⟨hupper, fun hnot => hlower ?_⟩
    unfold Node.Behind at hnot ⊢
    rw [hawait]
    exact hnot

/-- The dispatch of an event is over. -/
theorem Delivering.dispatched (h : Delivering cfg f log n base done last)
    (hlog : LogOk f log appending) (hout : n.process.await.Asks ∨ n.outcome = none) {ok : Bool}
    {await : Await β} (hawait : n.process.await.dispatched ok = some await) :
    ∃ done', Delivering cfg f log { n with process := { n.process with await := await } }
      base done' last := by
  cases hold : n.process.await with
  | created | opening _ | initializing _ | fencing _ _ | recovering _ | beating _ | reading
  | acknowledging _ _ _ | waiting | ended | releasing | closed =>
      rw [hold] at hawait
      cases hawait
  | dispatching event rest count dispatched handed =>
      have hnone : n.outcome = none := by
        rcases hout with hasks | hnone
        · rw [hold] at hasks
          exact hasks.elim
        · exact hnone
      have hbatch := h.batch
      unfold Node.Batched at hbatch
      rw [hold] at hawait hbatch
      obtain ⟨hnext, hdone, hlast⟩ := hbatch
      have hsilent : ∀ reply : Reply β, n.outcome ≠ some (.ok reply) := by
        rw [hnone]
        intro reply hreply
        cases hreply
      have hnever : ∀ message, n.outcome ≠ some (.error (.value message)) := by
        rw [hnone]
        intro message hreply
        cases hreply
      cases ok with
      | true =>
          cases handed with
          | false => cases hawait
          | true =>
              -- what was handed is done with, and the row is behind until it is acknowledged
              obtain rfl := hlast rfl
              have hrow : ∀ row, f.cursor? cfg.instanceId = some row →
                  n.process.relay.generation = some row.generation →
                    row.lastSequence ≤ max base event.sequence := by
                intro row hrow hgen
                have hupper := (h.row row hrow hgen).1
                have hwithin := h.feed.within
                omega
              have hcursor : ∀ k ∈ n.process.relay.cursor, k ≤ max base event.sequence := by
                intro k hk
                have hupper := h.cursor k hk
                have hwithin := h.feed.within
                omega
              cases rest with
              | nil =>
                  cases hawait
                  refine ⟨event.sequence, h.feed.done_last, h.base_le, h.last_le, hcursor,
                    h.sockets, h.admissions, h.orphans, ?_, rfl, hnever, ?_⟩
                  · intro row hstored hgen
                    exact ⟨hrow row hstored hgen, fun hnot => absurd hsilent hnot⟩
                  · intro k hreply
                    exact absurd hreply (hsilent _)
              | cons next rest =>
                  cases hawait
                  refine ⟨event.sequence, h.feed.done_last, h.base_le, h.last_le, hcursor,
                    h.sockets, h.admissions, h.orphans, ?_,
                    batch_rest hlog.ascending hnext, ?_, ?_⟩
                  · intro row hstored hgen
                    exact ⟨hrow row hstored hgen, fun hnot => absurd rfl hnot⟩
                  · intro throughSequence hthrough
                    cases hthrough
                    rfl
                  · intro hhanded
                    cases hhanded
      | false =>
          cases dispatched with
          | none =>
              cases hawait
              refine ⟨done, h.carry ⟨rfl, rfl, rfl⟩ rfl h.sockets h.admissions h.orphans ?_ trivial⟩
              intro _ hbehind
              unfold Node.Behind at hbehind
              rw [hold] at hbehind
              cases hbehind
          | some throughSequence =>
              cases hawait
              refine ⟨done, h.carry ⟨rfl, rfl, rfl⟩ rfl h.sockets h.admissions h.orphans ?_ ?_⟩
              · intro hnot
                exact absurd hsilent hnot
              · refine ⟨hdone _ rfl, hnever, ?_⟩
                intro k hreply
                exact absurd hreply (hsilent _)

end Task

section Act

variable {cfg : RelayConfig} {f : Foundation β} {log : List (RealtimeEvent β)} {n : Node β}
  {time : Timestamp} {fresh : Generation} {p' : Process β} {appending : Option (Appending β)}
  {action : ProcessAction β}

/-- The sockets after a registration. -/
theorem mem_register {p : Process β} {admission : Admission} {s : Socket}
    (hs : s ∈ (p.register cfg time admission).sockets) :
    s ∈ p.sockets ∨ (s = admission.socket ∧ p.admits time admission = true) := by
  unfold Process.register at hs
  split at hs
  · rename_i hadmitted
    split at hs
    · rename_i sockets hinsert
      rcases (Table.mem_of_insert? hinsert).mp hs with hold | hnew
      · exact .inl hold
      · exact .inr ⟨hnew, hadmitted.1⟩
    · exact .inl hs
  · exact .inl hs

theorem admissions_register (cfg : RelayConfig) (time : Timestamp) (p : Process β)
    (admission : Admission) :
    (p.register cfg time admission).admissions =
        p.admissions.deleteWhere (fun a => a.websocket = admission.websocket) ∧
      (p.register cfg time admission).handed = p.handed := by
  unfold Process.register
  split
  · split
    · exact ⟨rfl, rfl⟩
    · exact ⟨rfl, rfl⟩
  · exact ⟨rfl, rfl⟩

/-- A socket whose reservation was committed after the window was opened is registered. -/
theorem Delivering.register {websocket : Nat} {admission : Admission} {base done last : Nat}
    (h : Delivering cfg f log n base done last)
    (hfound : n.process.admissions.find? websocket = some admission) :
    Delivering cfg f log { n with process := n.process.register cfg time admission }
      base done last := by
  obtain ⟨hrelay, hawait, -⟩ := register_frame cfg time n.process admission
  obtain ⟨hadmissions, hhanded⟩ := admissions_register cfg time n.process admission
  refine h.carry ?_ hhanded ?_ ?_ h.orphans ?_ ?_
  · show SameView _ (n.process.register cfg time admission).relay
    rw [hrelay]
    exact ⟨rfl, rfl, rfl⟩
  · intro s hs
    rcases mem_register hs with hold | ⟨rfl, hadmits⟩
    · exact h.sockets s hold
    · have htoken := (admissionToken_eq_some.mp (admits_token hadmits)).2
      unfold Process.admits at hadmits
      rw [Bool.and_eq_true] at hadmits
      cases hlease : admission.lease with
      | none =>
          rw [hlease] at hadmits
          cases hadmits.2
      | some lease =>
          have hepoch : admission.token.2 = n.process.relay.admissionEpoch := by
            obtain ⟨g, -, htoken⟩ := Option.map_eq_some_iff.mp htoken
            rw [← htoken]
          have hmem := (Table.find?_eq_some.mp hfound).1
          have hbase := h.admissions admission hmem hepoch lease hlease
          unfold Admission.socket
          rw [hlease]
          exact hbase
  · show ∀ a ∈ (n.process.register cfg time admission).admissions, _
    rw [hadmissions]
    intro a ha
    exact h.admissions a (Table.mem_deleteWhere.mp ha).1
  · unfold Node.Behind
    rw [hawait]
    exact id
  · have hbatch := h.batch
    unfold Node.Batched at hbatch ⊢
    rw [hawait]
    exact hbatch

/-- The loop of a relay that serves begins again. -/
theorem Delivering.wake {base done last : Nat} (h : Delivering cfg f log n base done last)
    (hserving : n.process.relay.Serving) (hawait : n.process.await = .waiting)
    (hnone : n.outcome = none) :
    Delivering cfg f log
      { n with process := n.process.moved (n.process.relay.top time fresh) } base done last := by
  obtain ⟨hsame, htask⟩ := top_serving (β := β) time fresh hserving
  refine h.carry ?_ rfl h.sockets h.admissions h.orphans ?_ (Node.batched_quiet htask hnone)
  · show SameView _ (n.process.relay.top time fresh : Relay × Await β).1
    rw [hsame]
    exact ⟨rfl, rfl, rfl⟩
  · intro _
    apply Node.not_behind
    rw [hawait]
    trivial

/-- The step lemma for the steps inside a process while its window is open. -/
theorem Delivers.act (h : Delivers cfg f log n) (hlog : LogOk f log appending)
    (hok : ProcessOk n.process) (hasks : n.outcome.isSome = true → n.process.await.Asks)
    (hlocal : action.Local) (hact : n.process.act cfg time fresh action = some p') :
    Delivers cfg f log { n with process := p' } := by
  intro hsome
  have hopen : n.process.relay.cursor.isSome = true := (act_local hlocal hact).cursor hsome
  obtain ⟨base, done, last, hwindow⟩ := h hopen
  have hserving := hok.task.serving hopen
  have hclosed : n.process.relay.cursor = none → False := by
    intro hcursor
    rw [hcursor] at hopen
    cases hopen
  have hquiet : ¬ n.process.await.Asks → n.outcome = none := by
    intro hnot
    by_contra hne
    exact hnot (hasks (Option.isSome_iff_ne_none.mpr hne))
  cases action with
  | resume _ | reserved _ _ _ => exact hlocal.elim
  | start =>
      cases hawait : n.process.await with
      | created =>
          have hexpects := hok.task.expects
          rw [hawait] at hexpects
          exact (hclosed hexpects.1).elim
      | opening _ | initializing _ | fencing _ _ | recovering _ | beating _ | reading
      | dispatching _ _ _ _ _ | acknowledging _ _ _ | waiting | ended | releasing | closed =>
          simp [Process.act, hawait] at hact
  | hand =>
      simp only [Process.act] at hact
      split at hact
      · rename_i event rest count dispatched hawait
        cases hact
        exact ⟨base, done, event.sequence, hwindow.hand hlog hawait⟩
      · cases hact
  | dispatched ok =>
      obtain ⟨await, hawait, rfl⟩ := Option.map_eq_some_iff.mp hact
      have hout : n.process.await.Asks ∨ n.outcome = none := by
        by_cases hnot : n.process.await.Asks
        · exact .inl hnot
        · exact .inr (hquiet hnot)
      obtain ⟨done', hnext⟩ := hwindow.dispatched hlog hout hawait
      exact ⟨base, done', last, hnext⟩
  | detach | fenced _ =>
      simp only [Process.act] at hact
      split at hact
      · rename_i hawait
        have hexpects := hok.task.expects
        rw [hawait] at hexpects
        exact (hclosed hexpects.1).elim
      · cases hact
  | wake =>
      simp only [Process.act] at hact
      split at hact
      · rename_i hawait
        cases hact
        have hnone : n.outcome = none := by
          apply hquiet
          rw [hawait]
          exact id
        exact ⟨base, done, last, hwindow.wake hserving hawait hnone⟩
      · cases hact
  | stop =>
      cases hact
      exact ⟨base, done, last, hwindow.carry ⟨rfl, rfl, rfl⟩ rfl hwindow.sockets
        hwindow.admissions hwindow.orphans id hwindow.batch⟩
  | release =>
      simp only [Process.act] at hact
      split at hact
      · rename_i hawait
        cases hact
        refine ⟨base, done, last, hwindow.carry ⟨rfl, rfl, rfl⟩ rfl hwindow.sockets
          hwindow.admissions hwindow.orphans ?_ trivial⟩
        intro _
        apply Node.not_behind
        rw [hawait]
        trivial
      · cases hact
  | admitConnection websocket roomId =>
      obtain ⟨token, -, hact⟩ := Option.bind_eq_some_iff.mp hact
      obtain ⟨admissions, hinsert, rfl⟩ := Option.map_eq_some_iff.mp hact
      refine ⟨base, done, last, hwindow.carry ⟨rfl, rfl, rfl⟩ rfl hwindow.sockets ?_
        hwindow.orphans id hwindow.batch⟩
      intro a ha htoken lease hlease
      rcases (Table.mem_of_insert? hinsert).mp ha with hold | rfl
      · exact hwindow.admissions a hold htoken lease hlease
      · cases hlease
  | abandon websocket =>
      cases hact
      refine ⟨base, done, last, hwindow.carry ⟨rfl, rfl, rfl⟩ rfl hwindow.sockets ?_
        hwindow.orphans id hwindow.batch⟩
      intro a ha
      exact hwindow.admissions a (Table.mem_deleteWhere.mp ha).1
  | register websocket =>
      obtain ⟨admission, hfound, rfl⟩ := Option.map_eq_some_iff.mp hact
      exact ⟨base, done, last, hwindow.register hfound⟩
  | remove websocket =>
      cases hact
      refine ⟨base, done, last, hwindow.carry ⟨rfl, rfl, rfl⟩ rfl ?_ hwindow.admissions
        hwindow.orphans id hwindow.batch⟩
      intro s hs
      exact hwindow.sockets s (Table.mem_deleteWhere.mp hs).1

/-- What was handed before an epoch stays so, and no admission is of a later one. -/
theorem HandedOk.carry (h : HandedOk cfg f log n)
    (hepoch : n.process.relay.admissionEpoch ≤ p'.relay.admissionEpoch)
    (hhanded : ∀ entry ∈ p'.handed, entry ∈ n.process.handed ∨
      (entry.1 = n.process.relay.admissionEpoch ∧ entry.2 ∈ log))
    (htokens : ∀ a ∈ p'.admissions, a ∈ n.process.admissions ∨
      a.token.2 ≤ n.process.relay.admissionEpoch) :
    HandedOk cfg f log { n with process := p' } where
  epochs entry hentry := by
    rcases hhanded entry hentry with hold | ⟨heq, -⟩
    · exact (h.epochs entry hold).trans hepoch
    · exact heq.le.trans hepoch
  real entry hentry := by
    rcases hhanded entry hentry with hold | ⟨-, hreal⟩
    · exact h.real entry hold
    · exact hreal
  tokens a ha := by
    rcases htokens a ha with hold | hle
    · exact (h.tokens a hold).trans hepoch
    · exact hle.trans hepoch
  orphans := h.orphans
  replied := h.replied

theorem HandedOk.act (h : HandedOk cfg f log n) (hdelivers : Delivers cfg f log n)
    (hok : ProcessOk n.process) (hlocal : action.Local)
    (hact : n.process.act cfg time fresh action = some p') :
    HandedOk cfg f log { n with process := p' } := by
  cases action with
  | resume _ | reserved _ _ _ => exact hlocal.elim
  | start | release =>
      simp only [Process.act] at hact
      split at hact
      · cases hact
        exact h.carry (Nat.le_refl _) (fun _ => .inl) fun _ => .inl
      · cases hact
  | hand =>
      simp only [Process.act] at hact
      split at hact
      · rename_i event rest count dispatched hawait
        cases hact
        have hopen : n.process.relay.cursor.isSome = true := by
          have hexpects := hok.task.expects
          rw [hawait] at hexpects
          exact hexpects
        obtain ⟨base, done, last, hwindow⟩ := hdelivers hopen
        have hbatch := hwindow.batch
        unfold Node.Batched at hbatch
        rw [hawait] at hbatch
        refine h.carry (Nat.le_refl _) ?_ fun _ => .inl
        intro entry hentry
        rcases List.mem_append.mp hentry with hold | hnew
        · exact .inl hold
        · rw [List.mem_singleton.mp hnew]
          exact .inr ⟨rfl, (mem_of_batch hbatch.1).1⟩
      · cases hact
  | dispatched ok =>
      obtain ⟨await, -, rfl⟩ := Option.map_eq_some_iff.mp hact
      exact h.carry (Nat.le_refl _) (fun _ => .inl) fun _ => .inl
  | detach =>
      simp only [Process.act] at hact
      split at hact
      · cases hact
        exact h.carry (Nat.le_refl _) (fun _ => .inl) fun _ => .inl
      · cases hact
  | fenced ok =>
      simp only [Process.act] at hact
      split at hact
      case h_2 => cases hact
      case h_1 handler detached hawait =>
        have hexpects := hok.task.expects
        rw [hawait] at hexpects
        cases ok with
        | false =>
            cases hact
            exact h.carry (Nat.le_refl _) (fun _ => .inl) fun _ => .inl
        | true =>
            cases detached with
            | false => cases hact
            | true =>
                cases hact
                refine h.carry ?_ (fun _ => .inl) fun _ => .inl
                cases handler with
                | true => exact Nat.le_refl _
                | false =>
                    have hattempt : Attempted
                        { n.process.relay with fenced := true, fenceRequired := false }
                        (Relay.attempt time fresh
                          { n.process.relay with fenced := true, fenceRequired := false } :
                          Relay × Await β) :=
                      attempt_attempted rfl (fun _ => hexpects.1) fun _ => hexpects.1
                    exact hattempt.same.admissionEpoch.ge
  | wake =>
      simp only [Process.act] at hact
      split at hact
      · cases hact
        exact h.carry (top_steps hok.task).window.epoch (fun _ => .inl) fun _ => .inl
      · cases hact
  | stop =>
      cases hact
      exact h.carry (Nat.le_refl _) (fun _ => .inl) fun _ => .inl
  | admitConnection websocket roomId =>
      obtain ⟨token, htoken, hact⟩ := Option.bind_eq_some_iff.mp hact
      obtain ⟨admissions, hinsert, rfl⟩ := Option.map_eq_some_iff.mp hact
      refine h.carry (Nat.le_refl _) (fun _ => .inl) ?_
      intro a ha
      rcases (Table.mem_of_insert? hinsert).mp ha with hold | rfl
      · exact .inl hold
      · obtain ⟨g, -, hcurrent⟩ := Option.map_eq_some_iff.mp (admissionToken_eq_some.mp htoken).2
        right
        rw [← hcurrent]
  | abandon websocket =>
      cases hact
      refine h.carry (Nat.le_refl _) (fun _ => .inl) ?_
      intro a ha
      exact .inl (Table.mem_deleteWhere.mp ha).1
  | register websocket =>
      obtain ⟨admission, -, rfl⟩ := Option.map_eq_some_iff.mp hact
      obtain ⟨hrelay, -⟩ := register_frame cfg time n.process admission
      obtain ⟨hadmissions, hhanded⟩ := admissions_register cfg time n.process admission
      refine h.carry ?_ ?_ ?_
      · rw [hrelay]
      · rw [hhanded]
        exact fun _ => .inl
      · rw [hadmissions]
        intro a ha
        exact .inl (Table.mem_deleteWhere.mp ha).1
  | remove websocket =>
      cases hact
      exact h.carry (Nat.le_refl _) (fun _ => .inl) fun _ => .inl

end Act

/-! ## Replies -/

section Resume

variable {cfg : RelayConfig} {f : Foundation β} {log : List (RealtimeEvent β)} {n : Node β}
  {base done last : Nat} {r : Relay} {a : Await β} {time : Timestamp} {fresh : Generation}
  {p' : Process β} {appending : Option (Appending β)} {outcome : Except Failure (Reply β)}
  {orphans : List (Call β)} {task : Relay × Await β}

theorem act_resume_rooms {p : Process β}
    (hact : p.act cfg time fresh (.resume outcome) = some p') : SameRooms p p' := by
  obtain ⟨task, -, rfl⟩ := Option.map_eq_some_iff.mp hact
  cases outcome with
  | ok reply => exact ⟨rfl, rfl, rfl⟩
  | error failure =>
      show SameRooms p (if p.await.handles then p.owing task failure else p.moved task)
      split
      · exact ⟨rfl, rfl, rfl⟩
      · exact ⟨rfl, rfl, rfl⟩

/-- A failure that is handled leaves the cursor alone only where it is of no known kind. -/
theorem handle_cursor {failure : Failure}
    (hsome : (r.handle failure : Relay × Await β).1.cursor.isSome = true) : failure = .other := by
  by_contra hne
  have hnone := (failed_cursor (r := r) hne).1
  have hhandled : (r.handle failure : Relay × Await β).1.cursor = none := by
    unfold Relay.handle
    cases failure with
    | other => exact absurd rfl hne
    | lag | gap | lease | unavailable => cases r.fenced <;> exact hnone
  rw [hhandled] at hsome
  cases hsome

/-- How a window is opened. -/
theorem resume_opened (h : TaskOk r a) (hresume : r.resume cfg time fresh outcome a = some task)
    (hclosed : r.cursor = none) (hsome : task.1.cursor.isSome = true) :
    ∃ registration, outcome = .ok (.registration registration) ∧
      task.1.cursor = some registration.lastSequence ∧
      task.1.generation = some registration.generation ∧
      task.1.admissionEpoch = r.admissionEpoch + 1 ∧ task.2.Quiet := by
  have hopen : a.Expects r → r.cursor.isSome = true → False := by
    intro _ hcursor
    rw [hclosed] at hcursor
    cases hcursor
  have hexpects := h.expects
  cases outcome with
  | error failure =>
      have hnone : task.1.cursor = none := by
        cases a with
        | initializing _ | recovering _ | beating _ | reading | acknowledging _ _ _ =>
            cases hresume
            by_contra hne
            have hother := handle_cursor (Option.isSome_iff_ne_none.mpr hne)
            subst hother
            exact hne hclosed
        | opening _ | releasing =>
            cases hresume
            exact hclosed
        | created | fencing _ _ | dispatching _ _ _ _ _ | waiting | ended | closed => cases hresume
      rw [hnone] at hsome
      cases hsome
  | ok reply =>
      cases a with
      | created | fencing _ _ | dispatching _ _ _ _ _ | waiting | ended | closed => cases hresume
      | releasing =>
          cases hresume
          rw [hclosed] at hsome
          cases hsome
      | beating _ | reading | acknowledging _ _ _ => exact (hopen hexpects hexpects).elim
      | opening started =>
          cases reply with
          | registration registration =>
              cases hresume
              exact ⟨registration, rfl, rfl, rfl, rfl, trivial⟩
          | none | sequence _ | pruned _ | released _ | events _ => cases hresume
      | initializing started =>
          cases reply with
          | registration registration =>
              cases hresume
              obtain ⟨hsame, hquiet⟩ := beat_serving (β := β)
                (r.registered cfg started time registration) time
              rw [hsame]
              exact ⟨registration, rfl, rfl, rfl, rfl, hquiet⟩
          | none | sequence _ | pruned _ | released _ | events _ => cases hresume
      | recovering started =>
          cases reply with
          | registration registration =>
              cases hresume
              obtain ⟨hsame, hquiet⟩ := beat_serving (β := β)
                (r.resynchronized cfg started time registration) time
              have hbegin : (Relay.begin time (r.resynchronized cfg started time registration) :
                  Relay × Await β) =
                    Relay.beat time (r.resynchronized cfg started time registration) := by
                unfold Relay.begin
                exact if_neg (by simp [Relay.resynchronized])
              rw [hbegin, hsame]
              exact ⟨registration, rfl, rfl, rfl, rfl, hquiet⟩
          | none | sequence _ | pruned _ | released _ | events _ => cases hresume

/-- A window opens where the log is now. -/
theorem Delivering.opened (hhanded : HandedOk cfg f log n) (hlog : LogOk f log appending)
    {n' : Node β} {registration : InstanceRegistration}
    (hreply : n.outcome = some (.ok (.registration registration)))
    (hrooms : SameRooms n.process n'.process) (hempty : ∀ s, s ∉ n.process.sockets)
    (hcursor : n'.process.relay.cursor = some registration.lastSequence)
    (hgen : n'.process.relay.generation = some registration.generation)
    (hepoch : n'.process.relay.admissionEpoch = n.process.relay.admissionEpoch + 1)
    (hquiet : n'.process.await.Quiet) (hout : n'.outcome = none)
    (horphans : ∀ instanceId throughSequence generation,
      Call.acknowledge instanceId throughSequence generation ∈ n'.orphans →
        throughSequence ≤ f.lastSequence) :
    Delivering cfg f log n' f.lastSequence registration.lastSequence
      registration.lastSequence := by
  obtain ⟨hbound, hlower⟩ := hhanded.replied registration hreply
  refine ⟨?_, Nat.le_refl _, hbound, ?_, ?_, ?_, horphans, ?_, Node.batched_quiet hquiet hout⟩
  · have hnothing : n'.process.handedIn n'.process.relay.admissionEpoch = [] := by
      unfold Process.handedIn
      rw [hrooms.handed, hepoch, List.map_eq_nil_iff, List.filter_eq_nil_iff]
      intro entry hentry heq
      have hle := hhanded.epochs entry hentry
      have heq := of_decide_eq_true heq
      omega
    rw [hnothing]
    exact .start hbound
  · rw [hcursor]
    intro k hk
    cases hk
    exact Nat.le_max_right _ _
  · rw [hrooms.sockets]
    intro s hs
    exact absurd hs (hempty s)
  · rw [hrooms.admissions]
    intro a ha htoken
    have hle := hhanded.tokens a ha
    omega
  · intro row hrow hown
    rw [hgen] at hown
    refine ⟨(hlog.cursors _ row hrow).trans (Nat.le_max_left _ _), fun _ => ?_⟩
    exact hlower row hrow (Option.some.inj hown).symm

/-- The process of `n` has seen a reply, and goes on as `n'` with the task it has come to. -/
structure Node.Resumed (n n' : Node β) (task : Relay × Await β) (base : Nat) : Prop where
  relay : n'.process.relay = task.1
  await : n'.process.await = task.2
  rooms : SameRooms n.process n'.process
  outcome : n'.outcome = none
  orphans : ∀ instanceId throughSequence generation,
    Call.acknowledge instanceId throughSequence generation ∈ n'.orphans → throughSequence ≤ base

/-- The window goes on with the cursor and the batch that the reply has left. -/
theorem Delivering.goes (h : Delivering cfg f log n base done last) {n' : Node β}
    (hnext : n.Resumed n' task base) (hcursor : ∀ k ∈ task.1.cursor, k ≤ max base done)
    (hgen : task.1.generation = n.process.relay.generation)
    (hepoch : task.1.admissionEpoch = n.process.relay.admissionEpoch) (hbehind : ¬ n.Behind)
    (hbatch : n'.Batched log base done last) : Delivering cfg f log n' base done last := by
  refine h.move ?_ ?_ ?_ hnext.rooms.handed ?_ ?_ hnext.orphans (fun _ => hbehind) hbatch
  · rw [hnext.relay]
    exact hcursor
  · rw [hnext.relay]
    exact hgen
  · rw [hnext.relay]
    exact hepoch
  · rw [hnext.rooms.sockets]
    exact h.sockets
  · rw [hnext.rooms.admissions]
    exact h.admissions

/-- The window goes on without a batch. -/
theorem Delivering.idles (h : Delivering cfg f log n base done last) {n' : Node β}
    (hnext : n.Resumed n' task base) (hcursor : ∀ k ∈ task.1.cursor, k ≤ max base done)
    (hgen : task.1.generation = n.process.relay.generation)
    (hepoch : task.1.admissionEpoch = n.process.relay.admissionEpoch) (hbehind : ¬ n.Behind)
    (hquiet : task.2.Quiet) : Delivering cfg f log n' base done last := by
  refine h.goes hnext hcursor hgen hepoch hbehind (Node.batched_quiet ?_ hnext.outcome)
  rw [hnext.await]
  exact hquiet

/-- The window over the reply to a heartbeat. -/
theorem Delivering.beaten {started : Timestamp} (h : Delivering cfg f log n base done last)
    (hawait : n.process.await = .beating started)
    (hresume : n.process.relay.resume cfg time fresh outcome n.process.await = some task)
    (hsome : task.1.cursor.isSome = true) {n' : Node β} (hnext : n.Resumed n' task base) :
    Delivering cfg f log n' base done last := by
  have hbehind : ¬ n.Behind := by
    apply Node.not_behind
    rw [hawait]
    trivial
  rw [hawait] at hresume
  cases outcome with
  | error failure =>
      cases hresume
      obtain rfl := handle_cursor hsome
      exact h.idles hnext h.cursor rfl rfl hbehind trivial
  | ok reply =>
      cases reply with
      | none =>
          cases hresume
          exact h.idles hnext h.cursor rfl rfl hbehind trivial
      | registration _ | sequence _ | pruned _ | released _ | events _ => cases hresume

/-- The window over a batch that was read, or over a read that failed. -/
theorem Delivering.seen (h : Delivering cfg f log n base done last)
    (hserving : n.process.relay.Serving) (hawait : n.process.await = .reading)
    (hresume : n.process.relay.resume cfg time fresh outcome n.process.await = some task)
    (hsome : task.1.cursor.isSome = true)
    (hreply : ∀ reply, outcome = .ok reply → n.outcome = some (.ok reply))
    {n' : Node β} (hnext : n.Resumed n' task base) : Delivering cfg f log n' base done last := by
  have hbehind : ¬ n.Behind := by
    apply Node.not_behind
    rw [hawait]
    trivial
  rw [hawait] at hresume
  cases outcome with
  | error failure =>
      cases hresume
      obtain rfl := handle_cursor hsome
      exact h.idles hnext h.cursor rfl rfl hbehind trivial
  | ok reply =>
      cases reply with
      | events events =>
          cases events with
          | nil =>
              cases hresume
              obtain ⟨hsame, hquiet⟩ := processed_serving (β := β) cfg time fresh 0 hserving
              apply h.idles hnext _ _ _ hbehind hquiet
              · rw [hsame]
                exact h.cursor
              · rw [hsame]
              · rw [hsame]
          | cons event rest =>
              cases hresume
              have hbatch := h.batch
              unfold Node.Batched at hbatch
              rw [hawait] at hbatch
              apply h.goes hnext h.cursor rfl rfl hbehind
              unfold Node.Batched
              rw [hnext.await]
              refine ⟨(hbatch _ (hreply _ rfl)).1, ?_, ?_⟩
              · intro throughSequence hthrough
                cases hthrough
              · intro hhanded
                cases hhanded
      | none | registration _ | sequence _ | pruned _ | released _ => cases hresume

/-- The window over the reply to an acknowledgement. -/
theorem Delivering.acked {throughSequence count : Nat} {failed : Bool}
    (h : Delivering cfg f log n base done last) (hserving : n.process.relay.Serving)
    (hawait : n.process.await = .acknowledging throughSequence count failed)
    (hresume : n.process.relay.resume cfg time fresh outcome n.process.await = some task)
    (hsome : task.1.cursor.isSome = true)
    (hreply : ∀ reply, outcome = .ok reply → n.outcome = some (.ok reply))
    (hother : outcome = .error .other → ∃ message, n.outcome = some (.error (.value message)))
    {n' : Node β} (hnext : n.Resumed n' task base) : Delivering cfg f log n' base done last := by
  have hbatch := h.batch
  unfold Node.Batched at hbatch
  rw [hawait] at hbatch hresume
  obtain ⟨-, hvalid, hadvanced⟩ := hbatch
  cases outcome with
  | error failure =>
      cases hresume
      obtain rfl := handle_cursor hsome
      obtain ⟨message, hmessage⟩ := hother rfl
      exact absurd hmessage (hvalid message)
  | ok reply =>
      have hanswered := hreply reply rfl
      have hbehind : ¬ n.Behind := by
        unfold Node.Behind
        rw [hawait]
        intro hnone
        exact hnone reply hanswered
      cases reply with
      | sequence k =>
          have hle : ∀ j ∈ some k, j ≤ max base done := by
            intro j hj
            cases hj
            exact hadvanced k hanswered
          have hacked : ({ n.process.relay with cursor := some k } : Relay).Serving :=
            ⟨rfl, hserving.fenceRequired, hserving.recoveryRequired, hserving.fenced⟩
          cases failed with
          | true =>
              cases hresume
              exact h.idles hnext hle rfl rfl hbehind trivial
          | false =>
              cases hresume
              obtain ⟨hsame, hquiet⟩ := processed_serving (β := β) cfg time fresh count hacked
              apply h.idles hnext _ _ _ hbehind hquiet
              · rw [hsame]
                exact hle
              · rw [hsame]
              · rw [hsame]
      | none | registration _ | pruned _ | released _ | events _ => cases hresume

/-- The window stays open over a reply. -/
theorem Delivering.resumed (h : Delivering cfg f log n base done last)
    (hok : TaskOk n.process.relay n.process.await)
    (hcursor : n.process.relay.cursor.isSome = true)
    (hresume : n.process.relay.resume cfg time fresh outcome n.process.await = some task)
    (hsome : task.1.cursor.isSome = true)
    (hreply : ∀ reply, outcome = .ok reply → n.outcome = some (.ok reply))
    (hother : outcome = .error .other → ∃ message, n.outcome = some (.error (.value message)))
    {n' : Node β} (hnext : n.Resumed n' task base) : Delivering cfg f log n' base done last := by
  have hexpects := hok.expects
  have hserving := hok.serving hcursor
  cases hawait : n.process.await with
  | created | fencing _ _ | dispatching _ _ _ _ _ | waiting | ended | closed =>
      rw [hawait] at hresume
      cases hresume
  | opening _ | initializing _ | recovering _ =>
      rw [hawait] at hexpects
      rw [hexpects.1] at hcursor
      cases hcursor
  | releasing =>
      rw [hawait] at hresume
      cases hresume
      refine h.idles hnext h.cursor rfl rfl ?_ trivial
      apply Node.not_behind
      rw [hawait]
      trivial
  | beating started => exact h.beaten hawait hresume hsome hnext
  | reading => exact h.seen hserving hawait hresume hsome hreply hnext
  | acknowledging throughSequence count failed =>
      exact h.acked hserving hawait hresume hsome hreply hother hnext

/-- What holds of the acknowledgements a process has given up on once it has seen a reply. -/
def LostAcks (n : Node β) (outcome : Except Failure (Reply β)) (orphans : List (Call β)) : Prop :=
  ∀ instanceId throughSequence generation,
    Call.acknowledge instanceId throughSequence generation ∈ orphans →
      Call.acknowledge instanceId throughSequence generation ∈ n.orphans ∨
        (outcome = .error .unavailable ∧
          ∃ count failed, n.process.await = .acknowledging throughSequence count failed)

theorem HandedOk.resume (h : HandedOk cfg f log n) (hdelivers : Delivers cfg f log n)
    (hok : ProcessOk n.process) (hact : n.process.act cfg time fresh (.resume outcome) = some p')
    (horphans : LostAcks n outcome orphans) :
    HandedOk cfg f log { process := p', outcome := none, orphans := orphans } := by
  obtain ⟨task, hresume, hrelay, -⟩ := act_resume hact
  obtain ⟨hhanded, -, hadmissions⟩ := act_resume_rooms hact
  have hepoch : n.process.relay.admissionEpoch ≤ p'.relay.admissionEpoch := by
    rw [hrelay]
    exact (resume_steps hok.task hresume).window.epoch
  have hcarried : HandedOk cfg f log { n with process := p' } := by
    apply h.carry hepoch
    · rw [hhanded]
      exact fun _ => .inl
    · rw [hadmissions]
      exact fun _ => .inl
  refine ⟨hcarried.epochs, hcarried.real, hcarried.tokens, ?_, ?_⟩
  · intro instanceId throughSequence generation hmem
    rcases horphans _ _ _ hmem with hold | ⟨-, count, failed, hawait⟩
    · exact h.orphans _ _ _ hold
    · have hexpects := hok.task.expects
      rw [hawait] at hexpects
      obtain ⟨base, done, last, hwindow⟩ := hdelivers hexpects
      have hbatch := hwindow.batch
      unfold Node.Batched at hbatch
      rw [hawait] at hbatch
      rw [hbatch.1]
      apply hwindow.feed.within.trans
      exact Nat.max_le.mpr ⟨hwindow.base_le, hwindow.last_le⟩
  · intro registration hnone
    cases hnone

/-- The step lemma for the replies. -/
theorem Delivers.resume (h : Delivers cfg f log n) (hhanded : HandedOk cfg f log n)
    (hlog : LogOk f log appending) (hok : ProcessOk n.process)
    (hact : n.process.act cfg time fresh (.resume outcome) = some p')
    (hreply : ∀ reply, outcome = .ok reply → n.outcome = some (.ok reply))
    (hother : outcome = .error .other → ∃ message, n.outcome = some (.error (.value message)))
    (horphans : LostAcks n outcome orphans) :
    Delivers cfg f log { process := p', outcome := none, orphans := orphans } := by
  intro hopen
  have hkept := hhanded.resume h hok hact horphans
  obtain ⟨task, hresume, hrelay, hawait⟩ := act_resume hact
  have hrooms := act_resume_rooms hact
  have hsome : task.1.cursor.isSome = true := by
    rw [← hrelay]
    exact hopen
  by_cases hcursor : n.process.relay.cursor.isSome = true
  · obtain ⟨base, done, last, hwindow⟩ := h hcursor
    refine ⟨base, done, last, hwindow.resumed hok.task hcursor hresume hsome hreply hother
      ⟨hrelay, hawait, hrooms, rfl, ?_⟩⟩
    intro instanceId throughSequence generation hmem
    rcases horphans _ _ _ hmem with hold | ⟨hlost, count, failed, hacking⟩
    · exact hwindow.orphans _ _ _ hold
    · -- a lost acknowledgement closes the window
      subst hlost
      rw [hacking] at hresume
      cases hresume
      cases handle_cursor hsome
  · have hclosed : n.process.relay.cursor = none := Option.not_isSome_iff_eq_none.mp hcursor
    obtain ⟨registration, rfl, hat, hgen, hepoch, hquiet⟩ :=
      resume_opened hok.task hresume hclosed hsome
    have hempty : ∀ s, s ∉ n.process.sockets := by
      cases (resume_steps hok.task hresume).window with
      | kept hsame _ =>
          rw [hsame.cursor] at hsome
          exact absurd hsome hcursor
      | closed hnone _ _ _ =>
          rw [hnone] at hsome
          cases hsome
      | opened _ hfence _ _ _ =>
          rcases hok.sockets.fencing hclosed with hrequired | hempty
          · rw [hfence] at hrequired
            cases hrequired
          · exact hempty
    refine ⟨f.lastSequence, registration.lastSequence, registration.lastSequence,
      Delivering.opened hhanded hlog (hreply _ rfl) hrooms hempty ?_ ?_ ?_ ?_ rfl hkept.orphans⟩
    · show p'.relay.cursor = _
      rw [hrelay]
      exact hat
    · show p'.relay.generation = _
      rw [hrelay]
      exact hgen
    · show p'.relay.admissionEpoch = _
      rw [hrelay]
      exact hepoch
    · show p'.await.Quiet
      rw [hawait]
      exact hquiet

end Resume

/-! ## Requests -/

section Requests

variable {cfg : RelayConfig} {f f' : Foundation β} {log : List (RealtimeEvent β)} {n : Node β}
  {base done last : Nat} {rd : CallReadings} {appending : Option (Appending β)}
  {outcome : Except FoundationError (Reply β)} {selecting : Option Nat}

/-- The request of a relay is answered, but for the batch of a read that is still to be
selected. -/
def Node.answered (n : Node β) (outcome : Except FoundationError (Reply β))
    (selecting : Option Nat) : Node β :=
  { n with outcome := some outcome, selecting := selecting }

/-- A request that moves no cursor. -/
theorem Delivering.asked (h : Delivering cfg f log n base done last) (hsame : SameLog f f')
    (hrow : ∀ g ∈ n.process.relay.generation, RowGoesOn cfg f f' g fun k => k ≤ base)
    (hbehind : ¬ (n.answered outcome selecting).Behind → ¬ n.Behind)
    (hbatch : (n.answered outcome selecting).Batched log base done last) :
    Delivering cfg f' log (n.answered outcome selecting) base done last := by
  have hnothing : ∀ e ∈ ([] : List (RealtimeEvent β)), f.lastSequence < e.sequence := by simp
  have hgrown := h.grow hsame.lastSequence.ge hnothing hrow
  rw [List.append_nil] at hgrown
  exact hgrown.carry ⟨rfl, rfl, rfl⟩ rfl h.sockets h.admissions h.orphans hbehind hbatch

theorem found_read {instanceId : String} {limit : Nat} {generation : Option Generation}
    {limits : LagLimits} {reply : Reply β} {row : InstanceCursor}
    (hexec : (Call.read instanceId limit generation limits : Call β).exec rd f = (.ok reply, f'))
    (howned : f.owned (rd.clock 0) instanceId generation = some row) :
    (Call.read instanceId limit generation limits : Call β).found rd f =
      some row.lastSequence := by
  unfold Call.found
  rw [hexec]
  dsimp only
  rw [howned]
  rfl

/-- A read that has found a cursor has passed its checks there. -/
theorem found_unpassed {call : Call β} {cursor : Nat} (h : call.found rd f = some cursor) :
    f.prunedThrough ≤ cursor := by
  unfold Call.found at h
  split at h
  · rename_i instanceId limit generation limits reply hreply
    rcases (Call.read instanceId limit generation limits : Call β).exec_cases rd f with
      ⟨e, hexec⟩ | ⟨_, f', hrun, hexec⟩
    · rw [hexec] at hreply
      cases hreply
    · obtain ⟨events, hread, -⟩ := Tx.returns_map.mp hrun
      obtain ⟨-, row, howned, hpruned, -⟩ := readEvents_ok hread
      rw [howned] at h
      obtain rfl := Option.some.inj h
      exact hpruned
  · cases h

/-- The batch that is read begins where the row is, and nothing past it was skipped. -/
theorem Delivering.batch_read (rd : CallReadings) (h : Delivering cfg f log n base done last)
    (hlog : LogOk f log appending) (hawait : n.process.await = .reading) {g : Generation}
    (hg : n.process.relay.generation = some g) :
    ∃ done', Delivering cfg
      ((Call.read cfg.instanceId cfg.batchSize (some g) cfg.limits : Call β).exec rd f).2 log
      (n.answered
        ((Call.read cfg.instanceId cfg.batchSize (some g) cfg.limits : Call β).exec rd f).1
        ((Call.read cfg.instanceId cfg.batchSize (some g) cfg.limits : Call β).found rd f))
      base done' last := by
  have hbehind : ¬ n.Behind := by
    apply Node.not_behind
    rw [hawait]
    trivial
  rcases (Call.read cfg.instanceId cfg.batchSize (some g) cfg.limits : Call β).exec_cases rd f with
    ⟨e, hexec⟩ | ⟨reply, f', hrun, hexec⟩
  · rw [hexec]
    refine ⟨done, h.asked ⟨rfl, rfl, rfl⟩ (fun _ _ => .of_same rfl) (fun _ => hbehind) ?_⟩
    unfold Node.Batched Node.answered
    dsimp only
    rw [hawait]
    intro events hevents
    cases hevents
  · rw [hexec]
    obtain ⟨events, hread, rfl⟩ := Tx.returns_map.mp hrun
    obtain ⟨rfl, row, howned, hpruned, rfl⟩ := readEvents_ok hread
    obtain ⟨hrow, -, hgen⟩ := Foundation.owned_eq_some.mp howned
    have hown : n.process.relay.generation = some row.generation := by
      rw [hg, hgen g rfl]
    obtain ⟨hupper, hlower⟩ := h.row row hrow hown
    have hdone := hlower hbehind
    have hmax : max base done ≤ max base row.lastSequence := by
      apply Nat.max_le.mpr
      exact ⟨Nat.le_max_left _ _, hdone.trans (Nat.le_max_right _ _)⟩
    refine ⟨row.lastSequence, h.feed.skip hdone hupper, h.base_le, h.last_le,
      fun k hk => (h.cursor k hk).trans hmax, h.sockets, h.admissions, h.orphans, ?_, ?_⟩
    · intro row' hrow' _
      obtain rfl := Option.some.inj (hrow.symm.trans hrow')
      exact ⟨Nat.le_max_right _ _, fun _ => Nat.le_refl _⟩
    · unfold Node.Batched Node.answered
      dsimp only
      rw [hawait]
      intro events hevents
      cases hevents
      refine ⟨batch_of_read hlog hpruned, ?_⟩
      intro cursor hcursor
      rw [found_read hexec howned] at hcursor
      exact (Option.some.inj hcursor).symm

/-- A relay's instance id is a valid one. -/
theorem acknowledge_not_value {throughSequence : Nat} {g : Generation} {message : String} :
    ((Call.acknowledge cfg.instanceId throughSequence (some g) : Call β).exec rd f).1 ≠
      .error (.value message) := by
  intro hraises
  have hspares : Tx.Spares
      (acknowledgeEvents rd.clock cfg.instanceId throughSequence (some g)) f
      fun e => ∃ message, e = .value message := by
    unfold acknowledgeEvents validateInstanceId
    apply (Tx.spares_require (.inl cfg.instance_valid)).bind
    intro _ _ _
    apply Tx.spares_read.bind
    intro row _ _
    apply (Tx.spares_orRaise (.inr (by simp))).bind
    intro row _ _
    apply Tx.spares_ite
    · intro _
      exact Tx.spares_pure
    · intro _
      apply Tx.spares_read.bind
      intro head _ _
      apply (Tx.spares_require (.inr (by simp))).bind
      intro _ _ _
      apply Tx.spares_read.bind
      intro retained _ _
      apply (Tx.spares_require (.inr (by simp))).bind
      intro _ _ _
      apply Tx.spares_write.bind
      intro _ _ _
      exact Tx.spares_pure
  rcases (Call.acknowledge cfg.instanceId throughSequence (some g) : Call β).exec_cases rd f with
    ⟨e, hexec⟩ | ⟨reply, f', -, hexec⟩
  · rw [hexec] at hraises
    cases hraises
    have hfails := Tx.raises_map.mp (Tx.atomically_raises.mp hexec)
    exact hspares _ hfails ⟨message, rfl⟩
  · rw [hexec] at hraises
    cases hraises

/-- The row is told of what was dispatched. -/
theorem Delivering.acknowledged (h : Delivering cfg f log n base done last)
    {throughSequence count : Nat} {failed : Bool}
    (hawait : n.process.await = .acknowledging throughSequence count failed) {g : Generation}
    (hg : n.process.relay.generation = some g) :
    Delivering cfg
      ((Call.acknowledge cfg.instanceId throughSequence (some g) : Call β).exec rd f).2 log
      (n.answered
        ((Call.acknowledge cfg.instanceId throughSequence (some g) : Call β).exec rd f).1
        selecting)
      base done last := by
  have hbatch := h.batch
  unfold Node.Batched at hbatch
  rw [hawait] at hbatch
  obtain ⟨rfl, -⟩ := hbatch
  have hvalid : ∀ message,
      ((Call.acknowledge cfg.instanceId throughSequence (some g) : Call β).exec rd f).1 ≠
        .error (.value message) := fun _ => acknowledge_not_value
  rcases (Call.acknowledge cfg.instanceId throughSequence (some g) : Call β).exec_cases rd f with
    ⟨e, hexec⟩ | ⟨reply, f', hrun, hexec⟩
  · rw [hexec] at hvalid ⊢
    have hsilent : (n.answered (.error e) selecting).Behind := by
      unfold Node.Behind Node.answered
      dsimp only
      rw [hawait]
      intro reply hreply
      cases hreply
    refine h.asked ⟨rfl, rfl, rfl⟩ (fun _ _ => .of_same rfl) (fun hnot => absurd hsilent hnot) ?_
    unfold Node.Batched Node.answered
    dsimp only
    rw [hawait]
    refine ⟨rfl, ?_, ?_⟩
    · intro message hmessage
      exact hvalid message (Option.some.inj hmessage)
    · intro k hk
      cases hk
  · rw [hexec]
    obtain ⟨k, hack, rfl⟩ := Tx.returns_map.mp hrun
    obtain ⟨row, howned, hcase⟩ := acknowledgeEvents_ok hack
    obtain ⟨hrow, -, hgen⟩ := Foundation.owned_eq_some.mp howned
    have hown : n.process.relay.generation = some row.generation := by
      rw [hg, hgen g rfl]
    have hupper := (h.row row hrow hown).1
    have hanswer : ∀ k, k ≤ max base throughSequence →
        (n.answered (.ok (.sequence k)) selecting).Batched log base throughSequence last := by
      intro k hk
      unfold Node.Batched Node.answered
      dsimp only
      rw [hawait]
      refine ⟨rfl, ?_, ?_⟩
      · intro message hmessage
        cases hmessage
      · intro k' hk'
        cases hk'
        exact hk
    rcases hcase with ⟨hle, rfl, rfl⟩ | ⟨hlt, rfl, -, rfl⟩
    · refine ⟨h.feed, h.base_le, h.last_le, h.cursor, h.sockets, h.admissions, h.orphans, ?_,
        hanswer _ hupper⟩
      intro row' hrow' _
      obtain rfl := Option.some.inj (hrow.symm.trans hrow')
      exact ⟨hupper, fun _ => hle⟩
    · refine ⟨h.feed, h.base_le, h.last_le, h.cursor, h.sockets, h.admissions, h.orphans, ?_,
        hanswer _ (Nat.le_max_right _ _)⟩
      intro row' hrow' _
      have hstored : (f.putCursor { row with lastSequence := k }).cursor? cfg.instanceId =
          some { row with lastSequence := k } := stored_put hrow rfl
      obtain rfl := Option.some.inj (hstored.symm.trans hrow')
      exact ⟨Nat.le_max_right _ _, fun _ => Nat.le_refl _⟩

end Requests


/-! ## The steps of the cluster -/

section Steps

variable {cfg : ClusterConfig} {c c' : Cluster β} {i j : Nat} {fresh : Generation}
  {rd : CallReadings} {call : Call β} {base done last : Nat} {f f' : Foundation β}
  {log more : List (RealtimeEvent β)} {n : Node β}

/-- The database moves on while no cursor does. -/
theorem Handing.grow {config : RelayConfig} (h : Handing config f log n)
    (hlast : f.lastSequence ≤ f'.lastSequence) (hmore : ∀ e ∈ more, f.lastSequence < e.sequence)
    (hcursor : f'.cursor? config.instanceId = f.cursor? config.instanceId)
    (hpruned : ∀ cursor ∈ n.selecting, f.prunedThrough ≤ cursor → f'.prunedThrough ≤ cursor) :
    Handing config f' (log ++ more) n where
  handed := h.handed.grow hlast fun _ _ => .of_same hcursor
  delivers hopen := by
    obtain ⟨base, done, last, hwindow⟩ := h.delivers hopen
    exact ⟨base, done, last, hwindow.grow hlast hmore fun _ _ => .of_same hcursor⟩
  unpassed cursor hselecting := hpruned cursor hselecting (h.unpassed cursor hselecting)

/-- A request is served while an open window goes on. -/
theorem Delivering.served (h : DeliveryOk cfg c) (hok : ClusterOk cfg c)
    (hsent : call.SentBy (cfg.relay i) (c.Mine i))
    (hrequest : ∀ request ∈ call.request?, c.age request.2.1 < c.age request.2.2)
    (hfresh : c.Unminted rd.fresh)
    (hwindow : Delivering (cfg.relay j) c.history.db c.committed (c.nodes j) base done last)
    (hack : i = j → ∀ instanceId throughSequence generation,
      call = .acknowledge instanceId throughSequence generation → throughSequence ≤ base) :
    Delivering (cfg.relay j) (call.exec rd c.history.db).2 c.committed (c.nodes j) base done
      last := by
  have hsame : SameLog c.history.db (call.exec rd c.history.db).2 := hsent.sameLog
  have hnothing : ∀ e ∈ ([] : List (RealtimeEvent β)),
      c.history.db.lastSequence < e.sequence := by simp
  have hgrown := hwindow.grow hsame.lastSequence.ge hnothing fun g hg =>
    row_goes_on hok hsent hrequest hfresh ((hok.node j).generation g hg)
      ((h.order j).current g hg) hack
  rw [List.append_nil] at hgrown
  exact hgrown

theorem HandedOk.served (h : DeliveryOk cfg c) (hok : ClusterOk cfg c)
    (hsent : call.SentBy (cfg.relay i) (c.Mine i))
    (hrequest : ∀ request ∈ call.request?, c.age request.2.1 < c.age request.2.2)
    (hfresh : c.Unminted rd.fresh) (j : Nat) :
    HandedOk (cfg.relay j) (call.exec rd c.history.db).2 c.committed (c.nodes j) := by
  have hsame : SameLog c.history.db (call.exec rd c.history.db).2 := hsent.sameLog
  have hrow : ∀ registration, (c.nodes j).outcome = some (.ok (.registration registration)) →
      RowGoesOn (cfg.relay j) c.history.db (call.exec rd c.history.db).2 registration.generation
        fun _ => True := by
    intro registration hreply
    exact row_goes_on hok hsent hrequest hfresh ((hok.node j).replied registration hreply)
      ((h.order j).replied registration hreply) fun _ _ _ _ _ => trivial
  have hgrown : HandedOk (cfg.relay j) (call.exec rd c.history.db).2 (c.committed ++ [])
      (c.nodes j) := (h.nodes j).handed.grow hsame.lastSequence.ge hrow
  rw [List.append_nil] at hgrown
  exact hgrown

/-- A request of another process. -/
theorem Handing.served (h : DeliveryOk cfg c) (hok : ClusterOk cfg c)
    (hsent : call.SentBy (cfg.relay i) (c.Mine i))
    (hrequest : ∀ request ∈ call.request?, c.age request.2.1 < c.age request.2.2)
    (hfresh : c.Unminted rd.fresh) (hij : i ≠ j) :
    Handing (cfg.relay j) (call.exec rd c.history.db).2 c.committed (c.nodes j) where
  handed := HandedOk.served h hok hsent hrequest hfresh j
  delivers hopen := by
    obtain ⟨base, done, last, hwindow⟩ := (h.nodes j).delivers hopen
    exact ⟨base, done, last, hwindow.served h hok hsent hrequest hfresh fun heq => absurd heq hij⟩
  unpassed := by
    rw [hsent.sameLog.prunedThrough]
    exact (h.nodes j).unpassed

/-- The request of the process itself is answered. -/
theorem Handing.execute (h : DeliveryOk cfg c) (hok : ClusterOk cfg c)
    (hcall : (c.nodes i).process.await.call? (cfg.relay i) (c.nodes i).process.relay = some call)
    (hclocked : c.Clocked rd call) (hfresh : c.Unminted rd.fresh) :
    Handing (cfg.relay i) (call.exec rd c.history.db).2 c.committed
      ((c.nodes i).answered (call.exec rd c.history.db).1 (call.found rd c.history.db)) := by
  have hnode := hok.node i
  have hsent := (call?_sent hnode.generation hnode.recovery hcall).1
  have hrequest : ∀ request ∈ call.request?, c.age request.2.1 < c.age request.2.2 := by
    intro request hrequest
    obtain ⟨hg, hr⟩ := call?_request hcall hrequest
    exact (h.order i).recovery _ hg _ hr
  have hlog : LogOk (call.exec rd c.history.db).2 c.committed c.appending :=
    LogOk.served h.log hsent.sameLog
  have hserved := HandedOk.served h hok hsent hrequest hfresh i
  have hunpassed : ∀ cursor ∈ call.found rd c.history.db,
      (call.exec rd c.history.db).2.prunedThrough ≤ cursor := by
    rw [hsent.sameLog.prunedThrough]
    exact fun cursor hfound => found_unpassed hfound
  refine ⟨⟨hserved.epochs, hserved.real, hserved.tokens, hserved.orphans, ?_⟩, ?_, hunpassed⟩
  · intro registration hreply
    obtain ⟨row, hrow, rfl⟩ := replied_row hsent hclocked (Option.some.inj hreply)
    refine ⟨hlog.cursors _ row hrow, ?_⟩
    intro row' hrow' _
    obtain rfl := Option.some.inj (hrow.symm.trans hrow')
    exact Nat.le_refl _
  · intro hopen
    have hcursor : (c.nodes i).process.relay.cursor.isSome = true := hopen
    obtain ⟨base, done, last, hwindow⟩ := (h.nodes i).delivers hcursor
    have hclosed : (c.nodes i).process.relay.cursor = none → False := by
      intro hnone
      rw [hnone] at hcursor
      cases hcursor
    -- what does not acknowledge leaves the row where it is
    have hplain : (c.nodes i).process.await.Quiet →
        (∀ instanceId throughSequence generation,
          call ≠ .acknowledge instanceId throughSequence generation) →
        ((c.nodes i).answered (call.exec rd c.history.db).1
          (call.found rd c.history.db)).Batched c.committed base done last →
        Delivering (cfg.relay i) (call.exec rd c.history.db).2 c.committed
          ((c.nodes i).answered (call.exec rd c.history.db).1 (call.found rd c.history.db))
          base done last := by
      intro hquiet hnot hbatch
      have hgoes := hwindow.served h hok hsent hrequest hfresh
        fun _ _ _ _ hcall => absurd hcall (hnot _ _ _)
      exact hgoes.carry ⟨rfl, rfl, rfl⟩ rfl hgoes.sockets hgoes.admissions hgoes.orphans
        (fun _ => Node.not_behind hquiet) hbatch
    have hexpects := hnode.process.task.expects
    cases hawait : (c.nodes i).process.await with
    | created | fencing _ _ | dispatching _ _ _ _ _ | waiting | ended | closed =>
        rw [hawait] at hcall
        cases hcall
    | opening _ | initializing _ | recovering _ =>
        rw [hawait] at hexpects
        exact (hclosed hexpects.1).elim
    | beating _ | releasing =>
        rw [hawait] at hcall
        obtain ⟨g, -, rfl⟩ := Option.map_eq_some_iff.mp hcall
        refine ⟨base, done, last, hplain ?_ ?_ ?_⟩
        · rw [hawait]
          trivial
        · intro instanceId throughSequence generation heq
          cases heq
        · unfold Node.Batched Node.answered
          dsimp only
          rw [hawait]
          trivial
    | reading =>
        rw [hawait] at hcall
        obtain ⟨g, hg, rfl⟩ := Option.map_eq_some_iff.mp hcall
        obtain ⟨done', hnext⟩ := hwindow.batch_read rd h.log hawait hg
        exact ⟨base, done', last, hnext⟩
    | acknowledging throughSequence count failed =>
        rw [hawait] at hcall
        obtain ⟨g, hg, rfl⟩ := Option.map_eq_some_iff.mp hcall
        exact ⟨base, done, last, hwindow.acknowledged hawait hg⟩

/-- The batch of a read is selected, of what is committed by now. -/
theorem Handing.select (h : DeliveryOk cfg c) (hselect : c.select cfg i = some c') :
    Handing (cfg.relay i) c'.history.db c'.committed (c'.nodes i) := by
  obtain ⟨events, cursor, hout, hselecting, rfl⟩ := select_cases hselect
  rw [Cluster.setNode_self]
  obtain ⟨hhanded, hdelivers, hunpassed⟩ := h.nodes i
  refine ⟨⟨hhanded.epochs, hhanded.real, hhanded.tokens, hhanded.orphans, nofun⟩, ?_, nofun⟩
  intro hopen
  obtain ⟨base, done, last, hwindow⟩ := hdelivers hopen
  refine ⟨base, done, last, hwindow.carry ⟨rfl, rfl, rfl⟩ rfl hwindow.sockets hwindow.admissions
    hwindow.orphans ?_ ?_⟩
  · -- the read has been answered before, and is answered still
    unfold Node.Behind
    cases (c.nodes i).process.await with
    | dispatching _ _ _ _ _ => exact id
    | acknowledging _ _ _ => exact fun _ hnone => hnone _ hout
    | created | opening _ | initializing _ | fencing _ _ | recovering _ | beating _ | reading
    | waiting | ended | releasing | closed => exact id
  · have hbatch := hwindow.batch
    unfold Node.Batched at hbatch ⊢
    dsimp only
    cases hawait : (c.nodes i).process.await with
    | reading =>
        rw [hawait] at hbatch
        obtain rfl := (hbatch events hout).2 cursor hselecting
        intro events' hevents'
        cases hevents'
        exact ⟨batch_of_read h.log (hunpassed cursor hselecting), nofun⟩
    | dispatching _ _ _ _ _ =>
        rw [hawait] at hbatch
        exact hbatch
    | acknowledging _ _ _ =>
        rw [hawait] at hbatch
        exact ⟨hbatch.1, nofun, nofun⟩
    | created | opening _ | initializing _ | fencing _ _ | recovering _ | beating _ | waiting
    | ended | releasing | closed => trivial

/-- A request that was given up on is served after all. -/
theorem Handing.late (h : DeliveryOk cfg c) (hok : ClusterOk cfg c) {k : Nat}
    (hcall : (c.nodes i).orphans[k]? = some call) (hfresh : c.Unminted rd.fresh) :
    Handing (cfg.relay i) (call.exec rd c.history.db).2 c.committed
      { c.nodes i with orphans := (c.nodes i).orphans.eraseIdx k } := by
  have hmem : call ∈ (c.nodes i).orphans := List.mem_of_getElem? hcall
  have hsent := (hok.node i).orphans call hmem
  have hrequest := (h.order i).orphaned call hmem
  have hserved := HandedOk.served h hok hsent hrequest hfresh i
  have hunpassed : ∀ cursor ∈ (c.nodes i).selecting,
      (call.exec rd c.history.db).2.prunedThrough ≤ cursor := by
    rw [hsent.sameLog.prunedThrough]
    exact (h.nodes i).unpassed
  refine ⟨⟨hserved.epochs, hserved.real, hserved.tokens, ?_, hserved.replied⟩, ?_, hunpassed⟩
  · intro instanceId throughSequence generation hleft
    exact hserved.orphans _ _ _ (List.mem_of_mem_eraseIdx hleft)
  · intro hopen
    obtain ⟨base, done, last, hwindow⟩ := (h.nodes i).delivers hopen
    have hgoes := hwindow.served h hok hsent hrequest hfresh fun _ instanceId throughSequence
      generation heq => hwindow.orphans instanceId throughSequence generation (heq ▸ hmem)
    refine ⟨base, done, last, hgoes.carry ⟨rfl, rfl, rfl⟩ rfl hgoes.sockets hgoes.admissions ?_ id
      hgoes.batch⟩
    intro instanceId throughSequence generation hleft
    exact hgoes.orphans _ _ _ (List.mem_of_mem_eraseIdx hleft)

/-- The process sees a reply, or that it has lost the connection. -/
theorem Handing.resume (h : DeliveryOk cfg c) (hok : ClusterOk cfg c)
    {outcome : Except Failure (Reply β)} {orphans : List (Call β)} {p' : Process β}
    {time : Timestamp}
    (hact : (c.nodes i).process.act (cfg.relay i) time fresh (.resume outcome) = some p')
    (hreply : ∀ reply, outcome = .ok reply → (c.nodes i).outcome = some (.ok reply))
    (hother : outcome = .error .other →
      ∃ message, (c.nodes i).outcome = some (.error (.value message)))
    (horphans : LostAcks (c.nodes i) outcome orphans) :
    Handing (cfg.relay i) c.history.db c.committed
      { process := p', outcome := none, orphans := orphans } := by
  obtain ⟨hhanded, hdelivers, -⟩ := h.nodes i
  have hprocess := (hok.node i).process
  exact ⟨hhanded.resume hdelivers hprocess hact horphans,
    hdelivers.resume hhanded h.log hprocess hact hreply hother horphans, nofun⟩

/-- The reservation of an admission is committed: its event is past the start of the window. -/
theorem Handing.reserved {config : RelayConfig} {f₀ : Foundation β} {websocket sequence : Nat}
    {generation : Generation} {time : Timestamp} {p' : Process β}
    (hold : Handing config f₀ log n) (hlast : f₀.lastSequence ≤ f.lastSequence)
    (hmore : ∀ e ∈ more, f₀.lastSequence < e.sequence)
    (hcursor : f.cursor? config.instanceId = f₀.cursor? config.instanceId)
    (hpruned : f.prunedThrough = f₀.prunedThrough)
    (hsequence : f₀.lastSequence < sequence)
    (hact : n.process.act config time 0 (.reserved websocket generation sequence) = some p') :
    Handing config f (log ++ more) { n with process := p' } := by
  obtain ⟨admission, hfound, rfl⟩ := Option.map_eq_some_iff.mp hact
  obtain ⟨hmem, -⟩ := Table.find?_eq_some.mp hfound
  obtain ⟨hhanded, hdelivers, hunpassed⟩ :=
    hold.grow hlast hmore hcursor fun _ _ hle => hpruned ▸ hle
  refine ⟨?_, ?_, hunpassed⟩
  · refine ⟨hhanded.epochs, hhanded.real, ?_, hhanded.orphans, hhanded.replied⟩
    intro a ha
    rcases Table.mem_upsert.mp ha with rfl | ⟨hkept, -⟩
    · exact hhanded.tokens admission hmem
    · exact hhanded.tokens a hkept
  · intro hopen
    obtain ⟨base, done, last, hwindow⟩ := hold.delivers hopen
    have hgoes : Delivering config f (log ++ more) n base done last :=
      hwindow.grow hlast hmore fun _ _ => .of_same hcursor
    refine ⟨base, done, last, hgoes.carry ⟨rfl, rfl, rfl⟩ rfl hgoes.sockets ?_ hgoes.orphans id
      hgoes.batch⟩
    intro a ha htoken lease hlease
    rcases Table.mem_upsert.mp ha with rfl | ⟨hkept, -⟩
    · cases hlease
      exact (hwindow.base_le.trans_lt hsequence).le
    · exact hgoes.admissions a hkept htoken lease hlease

/-- A committed transaction reaches every process. -/
theorem Handing.commit (h : DeliveryOk cfg c) {tx : Appending β} {db : Foundation β}
    {clock : Timestamp} (htx : c.appending = some tx)
    (hdb : c.history.db.appendAll tx.events = some db)
    (hreserve : Cluster.reserve cfg
      { c with
        history := { c.history with db := db }
        appending := none
        committed := c.committed ++ tx.events } clock tx = some c') (j : Nat) :
    Handing (cfg.relay j) c'.history.db c'.committed (c'.nodes j) := by
  obtain ⟨hascending, habove⟩ := h.log.appended tx htx
  have hlast := (h.log.idle.appendAll hascending habove hdb).2
  have hcursors : ∀ instanceId, db.cursor? instanceId = c.history.db.cursor? instanceId := by
    intro instanceId
    unfold Foundation.cursor?
    rw [appendAll_cursors hdb]
  have hpruned := appendAll_prunedThrough hdb
  have hgrown : ∀ k, Handing (cfg.relay k) db (c.committed ++ tx.events) (c.nodes k) :=
    fun k => (h.nodes k).grow hlast habove (hcursors _) fun _ _ hle => hpruned ▸ hle
  cases reserve_cases hreserve with
  | kept => exact hgrown j
  | @leased i websocket joined generation p' hjoined hact =>
      by_cases hj : j = i
      · subst hj
        rw [Cluster.setNode_self]
        exact (h.nodes j).reserved hlast habove (hcursors _) hpruned (habove joined hjoined) hact
      · rw [Cluster.setNode_other hj]
        exact hgrown j

/-- One process moves on, and the database does not. -/
theorem DeliveryOk.moved (h : DeliveryOk cfg c) {n : Node β}
    (hself : Handing (cfg.relay i) c.history.db c.committed n) (j : Nat) :
    Handing (cfg.relay j) (c.moved cfg i fresh n).history.db (c.moved cfg i fresh n).committed
      ((c.moved cfg i fresh n).nodes j) := by
  show Handing (cfg.relay j) c.history.db c.committed ((c.setNode i n).nodes j)
  by_cases hj : j = i
  · subst hj
    rw [Cluster.setNode_self]
    exact hself
  · rw [Cluster.setNode_other hj]
    exact h.nodes j

/-- A request is served, and its process is told or has given it up. -/
theorem DeliveryOk.served (h : DeliveryOk cfg c) (hok : ClusterOk cfg c)
    (hsent : call.SentBy (cfg.relay i) (c.Mine i))
    (hrequest : ∀ request ∈ call.request?, c.age request.2.1 < c.age request.2.2)
    (hfresh : c.Unminted rd.fresh) {n : Node β}
    (hself : Handing (cfg.relay i) (call.exec rd c.history.db).2 c.committed n) (j : Nat) :
    Handing (cfg.relay j) ((c.served i rd call).setNode i n).history.db
      ((c.served i rd call).setNode i n).committed (((c.served i rd call).setNode i n).nodes j) := by
  by_cases hj : j = i
  · subst hj
    rw [Cluster.setNode_self]
    exact hself
  · rw [Cluster.setNode_other hj]
    exact Handing.served h hok hsent hrequest hfresh fun heq => hj heq.symm

theorem DeliveryOk.resume (h : DeliveryOk cfg c) (hok : ClusterOk cfg c)
    {outcome : Except Failure (Reply β)} {orphans : List (Call β)}
    (hresume : c.resume cfg i fresh outcome orphans = some c')
    (hreply : ∀ reply, outcome = .ok reply → (c.nodes i).outcome = some (.ok reply))
    (hother : outcome = .error .other →
      ∃ message, (c.nodes i).outcome = some (.error (.value message)))
    (horphans : LostAcks (c.nodes i) outcome orphans) (j : Nat) :
    Handing (cfg.relay j) c'.history.db c'.committed (c'.nodes j) := by
  unfold Cluster.resume at hresume
  split at hresume
  case isFalse => cases hresume
  case isTrue =>
    obtain ⟨p', hact, rfl⟩ := Option.map_eq_some_iff.mp hresume
    exact h.moved (Handing.resume h hok hact hreply hother horphans) j

theorem lostAcks_kept {n : Node β} {outcome : Except Failure (Reply β)} :
    LostAcks n outcome n.orphans :=
  fun _ _ _ => .inl

/-- A request in flight when the connection is lost may be served later. -/
theorem lostAcks_lost {config : RelayConfig} {n : Node β} :
    LostAcks n (.error .unavailable : Except Failure (Reply β))
      ((if n.outcome.isSome then [] else
        (n.process.await.call? config n.process.relay).toList) ++ n.orphans) := by
  intro instanceId throughSequence generation hmem
  rcases List.mem_append.mp hmem with hnew | hold
  · right
    refine ⟨rfl, ?_⟩
    split at hnew
    · cases hnew
    have hcall := Option.mem_toList.mp hnew
    cases hawait : n.process.await with
    | acknowledging through count failed =>
        rw [hawait] at hcall
        obtain ⟨g, -, heq⟩ := Option.map_eq_some_iff.mp hcall
        cases heq
        exact ⟨count, failed, rfl⟩
    | created | fencing _ _ | dispatching _ _ _ _ _ | waiting | ended | closed =>
        rw [hawait] at hcall
        cases hcall
    | opening _ | initializing _ =>
        rw [hawait] at hcall
        cases hcall
    | recovering _ =>
        rw [hawait] at hcall
        simp only [Await.call?] at hcall
        split at hcall
        · cases hcall
        · cases hcall
    | beating _ | reading | releasing =>
        rw [hawait] at hcall
        obtain ⟨g, -, heq⟩ := Option.map_eq_some_iff.mp hcall
        cases heq
  · exact .inl hold

/-- The step lemma: every window goes on delivering. -/
theorem DeliveryOk.step {action : ClusterAction β} (h : DeliveryOk cfg c) (hok : ClusterOk cfg c)
    (hspares : c.Spares action) (hstep : ClusterStep cfg c action c') : DeliveryOk cfg c' := by
  refine ⟨h.log.step hok hstep, h.order.step hok hstep, ?_⟩
  unfold ClusterStep at hstep
  cases action with
  | tick now =>
      simp only [Cluster.next] at hstep
      split at hstep
      · cases hstep
        exact h.nodes
      · cases hstep
  | act i fresh action =>
      simp only [Cluster.next] at hstep
      split at hstep
      case isFalse => cases hstep
      case isTrue hguard =>
        obtain ⟨hlocal, -⟩ := hguard
        obtain ⟨p', hact, rfl⟩ := Option.map_eq_some_iff.mp hstep
        obtain ⟨hhanded, hdelivers, hunpassed⟩ := h.nodes i
        obtain ⟨hprocess, -, -, -, hasks, -, -⟩ := hok.node i
        exact h.moved ⟨hhanded.act hdelivers hprocess hlocal hact,
          hdelivers.act h.log hprocess hasks hlocal hact, hunpassed⟩
  | execute i rd =>
      simp only [Cluster.next, Cluster.execute] at hstep
      split at hstep
      · cases hstep
      obtain ⟨call, hcall, hstep⟩ := Option.bind_eq_some_iff.mp hstep
      split at hstep
      case isFalse => cases hstep
      case isTrue hguard =>
        obtain ⟨hclocked, hfresh, -⟩ := hguard
        cases hstep
        have hnode := hok.node i
        refine h.served hok (call?_sent hnode.generation hnode.recovery hcall).1 ?_ hfresh
          (Handing.execute h hok hcall hclocked hfresh)
        intro request hrequest
        obtain ⟨hg, hr⟩ := call?_request hcall hrequest
        exact (h.order i).recovery _ hg _ hr
  | select i =>
      intro j
      by_cases hj : j = i
      · subst hj
        exact Handing.select h hstep
      · obtain ⟨_, _, -, -, rfl⟩ := select_cases hstep
        rw [Cluster.setNode_other hj]
        exact h.nodes j
  | reply i fresh =>
      simp only [Cluster.next] at hstep
      split at hstep
      case isFalse => cases hstep
      case isTrue =>
        obtain ⟨outcome, hout, hstep⟩ := Option.bind_eq_some_iff.mp hstep
        refine h.resume hok hstep ?_ ?_ lostAcks_kept
        · intro reply hreply
          cases outcome with
          | error e => cases hreply
          | ok reply' =>
              cases hreply
              exact hout
        · intro hother
          cases outcome with
          | ok reply => cases hother
          | error e =>
              cases e with
              | value message => exact ⟨message, hout⟩
              | instanceLease _ | eventLogGap | eventLogLag _ | integrity => cases hother
  | lose i fresh =>
      refine h.resume hok hstep ?_ ?_ lostAcks_lost
      · intro reply hreply
        cases hreply
      · intro hother
        cases hother
  | late i k rd =>
      obtain ⟨call, hcall, hstep⟩ := Option.bind_eq_some_iff.mp hstep
      split at hstep
      case isFalse => cases hstep
      case isTrue hguard =>
        obtain ⟨-, hfresh⟩ := hguard
        cases hstep
        have hmem : call ∈ (c.nodes i).orphans := List.mem_of_getElem? hcall
        exact h.served hok ((hok.node i).orphans call hmem) ((h.order i).orphaned call hmem) hfresh
          (Handing.late h hok hcall hfresh)
  | prune rd locked maxEvents maxAgeSeconds limit =>
      simp only [Cluster.next] at hstep
      split at hstep
      · cases hstep
        intro j
        have hsame : ((Call.prune locked maxEvents maxAgeSeconds limit : Call β).exec rd
            c.history.db).2.lastSequence = c.history.db.lastSequence := prune_lastSequence
        have hnothing : ∀ e ∈ ([] : List (RealtimeEvent β)),
            c.history.db.lastSequence < e.sequence := by simp
        have hgrown := (h.nodes j).grow hsame.ge hnothing (prune_cursor? _)
          fun cursor hselecting _ => hspares j cursor hselecting
        rw [List.append_nil] at hgrown
        exact hgrown
      · cases hstep
  | lock admission =>
      simp only [Cluster.next] at hstep
      split at hstep
      · cases hstep
        exact h.nodes
      · cases hstep
  | append event =>
      obtain ⟨tx, -, hstep⟩ := Option.bind_eq_some_iff.mp hstep
      split at hstep
      · cases hstep
        exact h.nodes
      · cases hstep
  | commit clock =>
      simp only [Cluster.next] at hstep
      split at hstep
      · obtain ⟨tx, htx, hstep⟩ := Option.bind_eq_some_iff.mp hstep
        obtain ⟨db, hdb, hstep⟩ := Option.bind_eq_some_iff.mp hstep
        exact Handing.commit h htx hdb hstep
      · cases hstep
  | rollback =>
      simp only [Cluster.next] at hstep
      split at hstep
      · cases hstep
        exact h.nodes
      · cases hstep

theorem DeliveryOk.start : DeliveryOk cfg ({} : Cluster β) := by
  refine ⟨Cluster.LogKept.start, OrderOk.start, ?_⟩
  intro i
  refine ⟨⟨?_, ?_, ?_, ?_, ?_⟩, ?_, nofun⟩
  · intro entry hentry
    cases hentry
  · intro entry hentry
    cases hentry
  · intro a ha
    cases ha
  · intro instanceId throughSequence generation hmem
    cases hmem
  · intro registration hreply
    cases hreply
  · intro hopen
    cases hopen

/-- The run lemma. -/
theorem DeliveryOk.run (hrun : Run (ClusterStep cfg) Cluster.Spares {} c) :
    ClusterOk cfg c ∧ DeliveryOk cfg c := by
  have hstep : ∀ (c : Cluster β) action c', ClusterOk cfg c ∧ DeliveryOk cfg c →
      c.Spares action → ClusterStep cfg c action c' → ClusterOk cfg c' ∧ DeliveryOk cfg c' :=
    fun _ _ _ h hspares hnext => ⟨h.1.step hnext, h.2.step h.1 hspares hnext⟩
  have hboth := hrun.invariant hstep ⟨.start, .start⟩
  exact hboth

end Steps

/-! ## No gap -/

section Gaps

variable {cfg : ClusterConfig} {c : Cluster β}

/-- In a run whose retention passes overtake no read between its checks and its batch: while a
relay has a cursor, what it has handed on since it last had none is a front part of the log, in
order, for each of its sockets.  Of the events committed after the socket's admission none is left
out that the cursor has passed, or that is earlier than one handed on. -/
theorem no_silent_gap (hrun : Run (ClusterStep cfg) Cluster.Spares {} c) (i : Nat) {cursor : Nat}
    (hcursor : (c.nodes i).process.relay.cursor = some cursor) :
    ((c.nodes i).process.handedIn (c.nodes i).process.relay.admissionEpoch).Pairwise
        (fun a b => a.sequence ≤ b.sequence) ∧
      (∀ e ∈ (c.nodes i).process.handedIn (c.nodes i).process.relay.admissionEpoch,
        e ∈ c.committed) ∧
      ∀ s ∈ (c.nodes i).process.sockets,
        s.token.2 = (c.nodes i).process.relay.admissionEpoch ∧
          ∀ e ∈ c.committed, s.afterSequence < e.sequence →
            (e.sequence ≤ cursor ∨ ∃ later ∈ (c.nodes i).process.handedIn s.token.2,
              e.sequence ≤ later.sequence) →
            e ∈ (c.nodes i).process.handedIn s.token.2 := by
  have hopen : (c.nodes i).process.relay.cursor.isSome = true := by
    rw [hcursor]
    rfl
  obtain ⟨hok, hdelivery⟩ := DeliveryOk.run hrun
  obtain ⟨base, done, last, hwindow⟩ := (hdelivery.nodes i).delivers hopen
  have hsockets := (hok.node i).process.sockets
  refine ⟨hwindow.feed.inOrder, hwindow.feed.real, ?_⟩
  intro s hs
  have hepoch : s.token.2 = (c.nodes i).process.relay.admissionEpoch := by
    obtain ⟨g, -, htoken⟩ := Option.map_eq_some_iff.mp (hsockets.current hopen s hs)
    rw [← htoken]
  rw [hepoch]
  refine ⟨rfl, ?_⟩
  intro e he hafter hpassed
  have hbase : base < e.sequence := (hwindow.sockets s hs).trans_lt hafter
  apply hwindow.feed.complete e he hbase
  rcases hpassed with hle | ⟨later, hlater, hle⟩
  · have hupper := hwindow.cursor cursor hcursor
    have hwithin := hwindow.feed.within
    omega
  · exact hle.trans (hwindow.feed.upTo later hlater)

end Gaps

/-- The action is no retention pass. -/
def ClusterAction.Keeps : ClusterAction β → Prop
  | .prune _ _ _ _ _ => False
  | _ => True

instance : DecidablePred (ClusterAction.Keeps (β := β)) := by
  intro action
  cases action <;> unfold ClusterAction.Keeps <;> infer_instance

/-- A run without retention passes. -/
theorem Cluster.run_spares (cfg : ClusterConfig) {actions : List (ClusterAction β)}
    (hkeeps : ∀ action ∈ actions, action.Keeps) (c : Cluster β) :
    Run (ClusterStep cfg) Cluster.Spares c (c.run cfg actions) := by
  induction actions generalizing c with
  | nil => exact Run.refl
  | cons action rest ih =>
      have hfirst : Run (ClusterStep cfg) Cluster.Spares c ((c.next cfg action).getD c) := by
        cases hnext : c.next cfg action with
        | none => exact Run.refl
        | some c' =>
            refine Run.tail action Run.refl ?_ hnext
            have hkept := hkeeps action List.mem_cons_self
            cases action with
            | prune _ _ _ _ _ => exact hkept.elim
            | tick _ | act _ _ _ | execute _ _ | select _ | reply _ _ | lose _ _ | late _ _ _
            | lock _ | append _ | commit _ | rollback => trivial
      exact hfirst.trans (ih (fun a ha => hkeeps a (List.mem_cons_of_mem _ ha)) _)

/-- One process. -/
def deliveringCluster : ClusterConfig where
  relay _ := pairConfig
  offset _ := 0

/-- A socket is admitted behind event 1; of the events 2 and 3 that follow, the third fails to
reach everyone and is handed on once more.  Event 3 is committed between the checks of the first
read and its batch. -/
def handedTwice : Cluster Unit :=
  Cluster.run deliveringCluster
    [.act 0 1 .start, .execute 0 (readAt 0 2), .reply 0 3,
      .act 0 4 (.admitConnection 7 "general"), .lock (some (0, 7)),
      .append ⟨1, "general", (), 0⟩, .commit 0, .act 0 5 (.register 7),
      .lock none, .append ⟨2, "general", (), 0⟩, .commit 0,
      .act 0 6 .wake, .execute 0 (readAt 0 7),
      .lock none, .append ⟨3, "general", (), 0⟩, .commit 0, .select 0, .reply 0 8,
      .act 0 9 .hand, .act 0 10 (.dispatched true), .act 0 11 .hand,
      .act 0 12 (.dispatched true), .act 0 13 .hand, .act 0 14 (.dispatched false),
      .execute 0 (readAt 0 15), .reply 0 16, .act 0 17 .wake, .execute 0 (readAt 0 18),
      .select 0, .reply 0 19, .act 0 20 .hand] {}

theorem no_silent_gap_handedTwice :
    ((handedTwice.nodes 0).process.handedIn 1).map RealtimeEvent.sequence = [1, 2, 3, 3] ∧
      (⟨2, "general", (), 0⟩ : RealtimeEvent Unit) ∈ (handedTwice.nodes 0).process.handedIn 1 := by
  have hrun : Run (ClusterStep deliveringCluster) Cluster.Spares {} handedTwice :=
    Cluster.run_spares deliveringCluster (by decide) {}
  have hcursor : (handedTwice.nodes 0).process.relay.cursor = some 2 := by decide +kernel
  have hfound : (handedTwice.nodes 0).process.sockets.find? 7 =
      some ⟨7, "general", 1, (2, 1)⟩ := by decide +kernel
  have hcommitted : (⟨2, "general", (), 0⟩ : RealtimeEvent Unit) ∈ handedTwice.committed := by
    decide +kernel
  obtain ⟨-, -, hsockets⟩ := no_silent_gap hrun 0 hcursor
  obtain ⟨-, hcomplete⟩ := hsockets _ (Table.find?_eq_some.mp hfound).1
  refine ⟨by decide +kernel, ?_⟩
  exact hcomplete _ hcommitted (by decide) (.inl (by decide))

/-- The same socket, behind event 1; the lease runs out before the batch of the first read is
selected, and a retention pass takes the events 1 and 2. -/
def overtaken : Cluster Unit :=
  Cluster.run deliveringCluster
    [.act 0 1 .start, .execute 0 (readAt 0 2), .reply 0 3,
      .act 0 4 (.admitConnection 7 "general"), .lock (some (0, 7)),
      .append ⟨1, "general", (), 0⟩, .commit 0, .act 0 5 (.register 7),
      .lock none, .append ⟨2, "general", (), 0⟩, .append ⟨3, "general", (), 0⟩, .commit 0,
      .act 0 6 .wake, .execute 0 (readAt 0 7), .tick (seconds 40),
      .prune (readAt (seconds 40) 8) [] 1 60 10, .select 0, .reply 0 9, .act 0 10 .hand] {}

-- without the condition on the retention passes event 3 is handed on and event 2 never was
example :
    ((overtaken.nodes 0).process.handedIn 1).map RealtimeEvent.sequence = [3] ∧
      overtaken.committed.map RealtimeEvent.sequence = [1, 2, 3] := by
  decide +kernel

end Realtime
end ChatEngine
