import ChatEngine.Lib.Feed
import ChatEngine.Realtime.Exclusion

/-!
# The log of the cluster

What the processes can rely on of the event log and of the cursor rows.

* `LogOk`, the log beside every event ever committed: the table still holds each event above the
  pruning watermark, and no cursor is beyond the last sequence;
* `batch_of_read`, that a batch read from a cursor is a front part of what was committed after it;
* `RowStep`, what a served call leaves of a cursor row;
* `Cluster.age` and `OrderOk`: the generations of a row are adopted in the order in which their
  UUIDs were minted, so a row never returns to a generation that a process has left behind.
-/

namespace ChatEngine
namespace Realtime

open Lib
open Models

variable {β : Type}

/-! ## The log -/

/-- The tables and every event ever committed. -/
structure LogOk (f : Foundation β) (log : List (RealtimeEvent β))
    (appending : Option (Appending β)) : Prop where
  ascending : Ascending RealtimeEvent.sequence log
  bounded : ∀ e ∈ log, e.sequence ≤ f.lastSequence
  retained : ∀ e ∈ log, f.prunedThrough < e.sequence → e ∈ f.events
  stored : ∀ e ∈ f.events, e ∈ log
  pruned : f.prunedThrough ≤ f.lastSequence
  cursors : ∀ instanceId row, f.cursor? instanceId = some row → row.lastSequence ≤ f.lastSequence
  appended : ∀ tx ∈ appending, Ascending RealtimeEvent.sequence tx.events ∧
    ∀ e ∈ tx.events, f.lastSequence < e.sequence

/-- Two states of the tables with the same events. -/
structure SameLog (f f' : Foundation β) : Prop where
  events : f'.events = f.events
  lastSequence : f'.lastSequence = f.lastSequence
  prunedThrough : f'.prunedThrough = f.prunedThrough

theorem SameLog.put (f : Foundation β) (row : InstanceCursor) : SameLog f (f.putCursor row) :=
  ⟨rfl, rfl, rfl⟩

section Log

variable {f f' : Foundation β} {log more : List (RealtimeEvent β)}
  {appending : Option (Appending β)} {cfg : RelayConfig} {mine : Generation → Prop}
  {rd : CallReadings} {call : Call β} {instanceId : String} {row row' : InstanceCursor}

theorem LogOk.head_le (h : LogOk f log appending) : f.head ≤ f.lastSequence := by
  unfold Foundation.head
  apply Nat.max_le.mpr
  refine ⟨?_, h.pruned⟩
  apply maxSequence_le
  intro e he
  exact h.bounded e (h.stored e he)

/-- The events of the table past a cursor that is not below the watermark are those of the log. -/
theorem batch_of_read (h : LogOk f log appending) {cursor limit : Nat}
    (hpruned : f.prunedThrough ≤ cursor) :
    f.batch cursor limit <+: after RealtimeEvent.sequence log cursor := by
  have hsorted : Ascending RealtimeEvent.sequence (after RealtimeEvent.sequence log cursor) :=
    h.ascending.after
  have hperm : (f.unread cursor).Perm (after RealtimeEvent.sequence log cursor) := by
    unfold Foundation.unread
    apply (List.perm_ext_iff_of_nodup (f.events.rows_nodup.filter _) hsorted.nodup).mpr
    intro e
    rw [mem_after, List.mem_filter, decide_eq_true_eq]
    constructor
    · rintro ⟨he, hcursor⟩
      exact ⟨h.stored e he, hcursor⟩
    · rintro ⟨he, hcursor⟩
      exact ⟨h.retained e he (hpruned.trans_lt hcursor), hcursor⟩
  have hunique : (f.unread cursor).insertionSort bySequence =
      after RealtimeEvent.sequence log cursor := by
    apply insertionSort_unique hperm (hsorted.imp fun hlt => hlt.le)
    intro a ha b hb hab hba
    have hseq : a.sequence = b.sequence := le_antisymm hab hba
    have hstored : ∀ e, e ∈ f.unread cursor → e ∈ f.events := fun e he => List.mem_of_mem_filter he
    exact Table.eq_of_key (hstored a ha) (hstored b hb) hseq
  unfold Foundation.batch firstBy
  rw [hunique]
  exact List.take_prefix limit _

/-- What the relays ask for leaves the log alone. -/
theorem Call.SentBy.sameLog (h : call.SentBy cfg mine) : SameLog f (call.exec rd f).2 := by
  rcases call.exec_cases rd f with ⟨e, hexec⟩ | ⟨reply, f', hrun, hexec⟩
  · rw [hexec]
    exact ⟨rfl, rfl, rfl⟩
  rw [hexec]
  show SameLog f f'
  cases call with
  | append _ _ _ _ | prune _ _ _ _ | register _ _ | recover _ _ _ => exact h.elim
  | claim instanceId leaseSeconds generation =>
      obtain ⟨_, hclaim, -⟩ := Tx.returns_map.mp hrun
      obtain ⟨row, -, rfl, -⟩ := claimInstance_ok hclaim
      exact .put f row
  | heartbeat instanceId generation leaseSeconds =>
      obtain ⟨_, hbeat, -⟩ := Tx.returns_map.mp hrun
      obtain ⟨row, -, rfl⟩ := heartbeatInstance_ok hbeat
      exact .put f _
  | resynchronize instanceId generation recoveryGeneration leaseSeconds =>
      obtain ⟨_, hresync, -⟩ := Tx.returns_map.mp hrun
      obtain ⟨-, -, row, -, ⟨-, -, rfl⟩ | ⟨-, -, rfl⟩⟩ :=
        returns_resynchronizeClaimedInstance.mp hresync
      · exact .put f _
      · exact .put f _
  | read instanceId limit generation limits =>
      obtain ⟨_, hread, -⟩ := Tx.returns_map.mp hrun
      rw [(readEvents_ok hread).1]
      exact ⟨rfl, rfl, rfl⟩
  | acknowledge instanceId throughSequence generation =>
      obtain ⟨_, hack, -⟩ := Tx.returns_map.mp hrun
      obtain ⟨row, -, ⟨-, -, rfl⟩ | ⟨-, -, -, rfl⟩⟩ := acknowledgeEvents_ok hack
      · exact ⟨rfl, rfl, rfl⟩
      · exact .put f _
  | release instanceId generation =>
      obtain ⟨_, hrelease, -⟩ := Tx.returns_map.mp hrun
      rcases releaseInstance_ok hrelease with ⟨-, rfl⟩ | ⟨row, -, -, rfl⟩
      · exact ⟨rfl, rfl, rfl⟩
      · exact .put f _

/-! ## Cursor rows -/

/-- What a call leaves of the row of an instance. -/
inductive RowStep (f : Foundation β) (rd : CallReadings) (call : Call β) (instanceId : String)
    (row' : InstanceCursor) : Prop
  | kept {row : InstanceCursor} : f.cursor? instanceId = some row →
      row'.generation = row.generation → row'.lastSequence = row.lastSequence →
      RowStep f rd call instanceId row'
  | minted : row'.generation = rd.fresh →
      (row'.lastSequence = f.head ∨
        ∃ row, f.cursor? instanceId = some row ∧ row'.lastSequence = row.lastSequence) →
      RowStep f rd call instanceId row'
  | recovered {row : InstanceCursor} : f.cursor? instanceId = some row →
      call.request? = some (instanceId, row.generation, row'.generation) →
      row'.lastSequence = f.head → RowStep f rd call instanceId row'
  | advanced {row : InstanceCursor} {throughSequence : Nat} {generation : Option Generation} :
      f.cursor? instanceId = some row →
      call = .acknowledge instanceId throughSequence generation →
      (∀ g ∈ generation, row.generation = g) → row.lastSequence < throughSequence →
      (∃ e ∈ f.events, e.sequence = throughSequence) → row'.generation = row.generation →
      row'.lastSequence = throughSequence → RowStep f rd call instanceId row'

theorem Call.row_step (h : (call.exec rd f).2.cursor? instanceId = some row') :
    RowStep f rd call instanceId row' := by
  rcases call.exec_cases rd f with ⟨e, hexec⟩ | ⟨reply, f', hrun, hexec⟩
  · rw [hexec] at h
    exact .kept h rfl rfl
  rw [hexec] at h
  cases Call.moves hrun with
  | same hcursors =>
      have hsame : f'.cursor? instanceId = f.cursor? instanceId := by
        unfold Foundation.cursor?
        rw [hcursors]
      exact .kept (hsame.symm.trans h) rfl rfl
  | @put new hcall heffect =>
      by_cases hid : new.instanceId = instanceId
      · subst hid
        rw [Foundation.cursor?_putCursor] at h
        obtain rfl := Option.some.inj h
        cases heffect with
        | created _ => exact .minted rfl (.inl rfl)
        | renewed hold => exact .kept hold rfl rfl
        | taken hold _ => exact .minted rfl (.inr ⟨_, hold, rfl⟩)
        | recovered _ => exact .minted rfl (.inl rfl)
        | resynchronized hold _ => exact .recovered hold rfl rfl
        | advanced hold hgen hlt hevent => exact .advanced hold rfl hgen hlt hevent rfl rfl
      · rw [Foundation.cursor?_putCursor_other hid] at h
        exact .kept h rfl rfl

theorem LogOk.served (h : LogOk f log appending) (hsame : SameLog f (call.exec rd f).2) :
    LogOk (call.exec rd f).2 log appending := by
  obtain ⟨hevents, hlast, hpruned⟩ := hsame
  refine ⟨h.ascending, ?_, ?_, ?_, ?_, ?_, ?_⟩
  · rw [hlast]
    exact h.bounded
  · rw [hevents, hpruned]
    exact h.retained
  · rw [hevents]
    exact h.stored
  · rw [hlast, hpruned]
    exact h.pruned
  · intro instanceId row' hrow'
    rw [hlast]
    cases Call.row_step hrow' with
    | kept hrow _ heq =>
        rw [heq]
        exact h.cursors _ _ hrow
    | minted _ hat =>
        rcases hat with heq | ⟨row, hrow, heq⟩
        · rw [heq]
          exact h.head_le
        · rw [heq]
          exact h.cursors _ _ hrow
    | recovered _ _ heq =>
        rw [heq]
        exact h.head_le
    | advanced _ _ _ _ hevent _ heq =>
        obtain ⟨e, he, hseq⟩ := hevent
        rw [heq, ← hseq]
        exact h.bounded e (h.stored e he)
  · rw [hlast]
    exact h.appended

/-! ## Pruning and appending -/

/-- The last row of a sorted selection is the greatest. -/
theorem le_last_of_firstBy {limit : Nat} {rows : List (RealtimeEvent β)} {e last : RealtimeEvent β}
    (hlast : (firstBy bySequence limit rows).getLast? = some last)
    (he : e ∈ firstBy bySequence limit rows) : e.sequence ≤ last.sequence := by
  have hsorted : (firstBy bySequence limit rows).Pairwise bySequence :=
    (List.pairwise_insertionSort bySequence rows).sublist (List.take_sublist _ _)
  obtain ⟨front, hfront⟩ := List.getLast?_eq_some_iff.mp hlast
  rw [hfront] at hsorted he
  rcases List.mem_append.mp he with hin | hin
  · exact (List.pairwise_append.mp hsorted).2.2 e hin last List.mem_cons_self
  · rw [List.mem_singleton.mp hin]

theorem LogOk.prune (h : LogOk f log appending) {limit : Nat} {rows : List (RealtimeEvent β)}
    (hrows : ∀ e ∈ rows, e ∈ f.events) :
    LogOk (f.prune (firstBy bySequence limit rows)) log appending := by
  unfold Foundation.prune
  split
  · exact h
  rename_i last hlast
  have hmem : last ∈ f.events := by
    apply hrows
    exact mem_of_mem_firstBy (List.mem_of_getLast? hlast)
  refine ⟨h.ascending, h.bounded, ?_, ?_, ?_, h.cursors, h.appended⟩
  · intro e he hpast
    have hpruned : f.prunedThrough < e.sequence := (Nat.le_max_left _ _).trans_lt hpast
    have hbeyond : last.sequence < e.sequence := (Nat.le_max_right _ _).trans_lt hpast
    apply Table.mem_deleteWhere.mpr
    refine ⟨h.retained e he hpruned, ?_⟩
    intro hin
    obtain ⟨other, hother, heq⟩ := List.mem_map.mp hin
    have hle := le_last_of_firstBy hlast hother
    omega
  · intro e he
    exact h.stored e (Table.mem_deleteWhere.mp he).1
  · exact Nat.max_le.mpr ⟨h.pruned, h.bounded last (h.stored last hmem)⟩

theorem LogOk.prune_served (h : LogOk f log appending) {locked : List Nat}
    {maxEvents maxAgeSeconds limit : Nat} :
    LogOk ((Call.prune locked maxEvents maxAgeSeconds limit : Call β).exec rd f).2 log
      appending := by
  rcases (Call.prune locked maxEvents maxAgeSeconds limit : Call β).exec_cases rd f with
    ⟨e, hexec⟩ | ⟨reply, f', hrun, hexec⟩
  · rw [hexec]
    exact h
  · rw [hexec]
    obtain ⟨_, hprune, -⟩ := Tx.returns_map.mp hrun
    rw [pruneEvents_ok hprune]
    exact h.prune fun e he => List.mem_of_mem_filter he

theorem prune_lastSequence {locked : List Nat} {maxEvents maxAgeSeconds limit : Nat} :
    ((Call.prune locked maxEvents maxAgeSeconds limit : Call β).exec rd f).2.lastSequence =
      f.lastSequence := by
  rcases (Call.prune locked maxEvents maxAgeSeconds limit : Call β).exec_cases rd f with
    ⟨e, hexec⟩ | ⟨reply, f', hrun, hexec⟩
  · rw [hexec]
  · rw [hexec]
    obtain ⟨_, hprune, -⟩ := Tx.returns_map.mp hrun
    rw [pruneEvents_ok hprune]
    unfold Foundation.prune
    split
    · rfl
    · rfl

/-- The events of a transaction are committed in their order. -/
theorem LogOk.appendAll {events : List (RealtimeEvent β)} (h : LogOk f log none)
    (hevents : Ascending RealtimeEvent.sequence events)
    (hnew : ∀ e ∈ events, f.lastSequence < e.sequence)
    (happend : f.appendAll events = some f') :
    LogOk f' (log ++ events) none ∧ f.lastSequence ≤ f'.lastSequence := by
  induction events generalizing f log with
  | nil =>
      cases happend
      rw [List.append_nil]
      exact ⟨h, Nat.le_refl _⟩
  | cons e rest ih =>
      obtain ⟨g, hg, hrest⟩ := Option.bind_eq_some_iff.mp happend
      obtain ⟨inserted, hinsert, rfl⟩ := Option.map_eq_some_iff.mp hg
      obtain ⟨hlater, hascending⟩ := List.pairwise_cons.mp hevents
      have hfirst : f.lastSequence < e.sequence := hnew e List.mem_cons_self
      have hmax : max f.lastSequence e.sequence = e.sequence := Nat.max_eq_right hfirst.le
      have hstep : LogOk (Foundation.mk inserted (max f.lastSequence e.sequence) f.prunedThrough
          f.cursors) (log ++ [e]) none := by
        rw [hmax]
        refine ⟨?_, ?_, ?_, ?_, h.pruned.trans hfirst.le, ?_, by simp⟩
        · apply h.ascending.append
          intro b hb
          exact (h.bounded b hb).trans_lt hfirst
        · intro x hx
          rcases List.mem_append.mp hx with hold | hlast
          · exact (h.bounded x hold).trans hfirst.le
          · rw [List.mem_singleton.mp hlast]
        · intro x hx hpast
          apply (Table.mem_of_insert? hinsert).mpr
          rcases List.mem_append.mp hx with hold | hlast
          · exact .inl (h.retained x hold hpast)
          · exact .inr (List.mem_singleton.mp hlast)
        · intro x hx
          rcases (Table.mem_of_insert? hinsert).mp hx with hold | rfl
          · exact List.mem_append_left _ (h.stored x hold)
          · exact List.mem_append_right _ List.mem_cons_self
        · intro instanceId row hrow
          exact (h.cursors instanceId row hrow).trans hfirst.le
      have hafter : ∀ x ∈ rest, max f.lastSequence e.sequence < x.sequence := by
        intro x hx
        rw [hmax]
        exact hlater x hx
      obtain ⟨hok, hle⟩ := ih hstep hascending hafter hrest
      rw [List.append_assoc] at hok
      refine ⟨hok, ?_⟩
      exact (Nat.le_max_left _ _).trans hle

theorem appendAll_prunedThrough {f f' : Foundation β} {events : List (RealtimeEvent β)}
    (h : f.appendAll events = some f') : f'.prunedThrough = f.prunedThrough := by
  induction events generalizing f with
  | nil =>
      cases h
      rfl
  | cons e rest ih =>
      obtain ⟨g, hg, hrest⟩ := Option.bind_eq_some_iff.mp h
      obtain ⟨inserted, -, rfl⟩ := Option.map_eq_some_iff.mp hg
      have hrest : Foundation.appendAll _ rest = some f' := hrest
      rw [ih hrest]

end Log

/-! ## The order of generations -/

/-- How many UUIDs had been minted before this one. -/
def Cluster.age (c : Cluster β) (g : Generation) : Nat :=
  (c.minted.map Prod.fst).reverse.idxOf g

/-- The UUID has been minted. -/
def Cluster.Minted (c : Cluster β) (g : Generation) : Prop := g ∈ c.minted.map Prod.fst

/-- What a process names it has minted, or taken over, later than what it replaces. -/
structure NodeOrder (age : Generation → Nat) (f : Foundation β) (cfg : RelayConfig) (n : Node β) :
    Prop where
  orphaned : ∀ call ∈ n.orphans, ∀ request ∈ call.request?, age request.2.1 < age request.2.2
  recovering : n.process.relay.recoveryGeneration.isSome = true →
    n.process.relay.recoveryRequired = true
  recovery : ∀ g ∈ n.process.relay.generation, ∀ r ∈ n.process.relay.recoveryGeneration,
    age g < age r
  current : ∀ g ∈ n.process.relay.generation, ∀ row, f.cursor? cfg.instanceId = some row →
    age g ≤ age row.generation
  replied : ∀ registration, n.outcome = some (.ok (.registration registration)) →
    ∀ row, f.cursor? cfg.instanceId = some row → age registration.generation ≤ age row.generation

/-- Rows and processes go from one generation to later ones. -/
def OrderOk (cfg : ClusterConfig) (c : Cluster β) : Prop :=
  ∀ i, NodeOrder c.age c.history.db (cfg.relay i) (c.nodes i)

section Order

variable {cfg : ClusterConfig} {c c' : Cluster β} {i j k : Nat} {g fresh : Generation}
  {rd : CallReadings} {call : Call β}

theorem Cluster.Mine.minted (h : c.Mine i g) : c.Minted g :=
  List.mem_map.mpr ⟨(g, i), h, rfl⟩

theorem age_of_minted (hminted : c'.minted = (fresh, k) :: c.minted) (hg : c.Minted g) :
    c'.age g = c.age g := by
  unfold Cluster.age
  rw [hminted, List.map_cons, List.reverse_cons]
  exact List.idxOf_append_of_mem (List.mem_reverse.mpr hg)

theorem age_lt_fresh (hfresh : c.Unminted fresh) (hminted : c'.minted = (fresh, k) :: c.minted)
    (hg : c.Minted g) : c'.age g < c'.age fresh := by
  have hlength : c.age g < (c.minted.map Prod.fst).reverse.length :=
    List.idxOf_lt_length_iff.mpr (List.mem_reverse.mpr hg)
  have hlast : c'.age fresh = (c.minted.map Prod.fst).reverse.length := by
    unfold Cluster.age
    rw [hminted, List.map_cons, List.reverse_cons]
    rw [List.idxOf_append_of_notMem fun hmem => hfresh (List.mem_reverse.mp hmem)]
    simp
  rw [age_of_minted hminted hg, hlast]
  exact hlength

theorem Frame.age (h : Frame c c') (hg : c.Minted g) : c'.age g = c.age g := by
  rcases h.minted with heq | ⟨fresh, k, -, heq⟩
  · unfold Cluster.age
    rw [heq]
  · exact age_of_minted heq hg

/-- What a call asks to be replaced its caller has minted, and what by. -/
theorem Call.SentBy.request {config : RelayConfig} {mine : Generation → Prop}
    (h : call.SentBy config mine) {request : String × Generation × Generation}
    (hrequest : call.request? = some request) : mine request.2.1 ∧ mine request.2.2 := by
  cases call with
  | resynchronize instanceId generation recoveryGeneration leaseSeconds =>
      cases hrequest
      exact ⟨h.2.2.1, h.2.2.2⟩
  | append _ _ _ _ | prune _ _ _ _ | claim _ _ _ | register _ _ | release _ _ | heartbeat _ _ _
  | recover _ _ _ | read _ _ _ _ | acknowledge _ _ _ => cases hrequest

/-- The request a relay is about to make is the one it retains. -/
theorem call?_request {config : RelayConfig} {r : Relay} {a : Await β}
    (hcall : a.call? config r = some call) {request : String × Generation × Generation}
    (hrequest : call.request? = some request) :
    request.2.1 ∈ r.generation ∧ request.2.2 ∈ r.recoveryGeneration := by
  cases a with
  | recovering _ =>
      simp only [Await.call?] at hcall
      split at hcall
      · rename_i generation recoveryGeneration hg hr
        cases hcall
        cases hrequest
        exact ⟨hg, hr⟩
      · cases hcall
  | created | fencing _ _ | dispatching _ _ _ _ _ | waiting | ended | closed => cases hcall
  | opening _ | initializing _ =>
      cases hcall
      cases hrequest
  | beating _ | reading | acknowledging _ _ _ | releasing =>
      obtain ⟨_, -, rfl⟩ := Option.map_eq_some_iff.mp hcall
      cases hrequest

/-- A row goes on to a later generation. -/
theorem age_row_served (h : RowsOk cfg c) (hsent : call.SentBy (cfg.relay i) (c.Mine i))
    (hrequest : ∀ request ∈ call.request?, c.age request.2.1 < c.age request.2.2)
    (hfresh : c.Unminted rd.fresh) {instanceId : String} (hg : c.Minted g)
    (hcurrent : ∀ row, c.history.db.cursor? instanceId = some row → c.age g ≤ c.age row.generation)
    {row' : InstanceCursor}
    (hrow' : (call.exec rd c.history.db).2.cursor? instanceId = some row') :
    (c.served i rd call).age g ≤ (c.served i rd call).age row'.generation := by
  have hminted : (c.served i rd call).minted = (rd.fresh, i) :: c.minted := rfl
  rw [age_of_minted hminted hg]
  cases Call.row_step hrow' with
  | kept hrow hgen _ =>
      rw [hgen, age_of_minted hminted (h.stored _ _ hrow)]
      exact hcurrent _ hrow
  | minted hgen _ =>
      rw [hgen, ← age_of_minted hminted hg]
      exact (age_lt_fresh hfresh hminted hg).le
  | recovered hrow hasked _ =>
      have hlater : c.Minted row'.generation := (hsent.request hasked).2.minted
      rw [age_of_minted hminted hlater]
      exact (hcurrent _ hrow).trans (hrequest _ hasked).le
  | advanced hrow _ _ _ _ hgen _ =>
      rw [hgen, age_of_minted hminted (h.stored _ _ hrow)]
      exact hcurrent _ hrow

/-- A process that does nothing while UUIDs are minted and its row goes on. -/
theorem NodeOrder.mono {age age' : Generation → Nat} {f f' : Foundation β} {config : RelayConfig}
    {mine : Generation → Prop} {n : Node β} (h : NodeOrder age f config n)
    (hnode : NodeOk config mine n) (hage : ∀ g, mine g → age' g = age g)
    (hrow : ∀ g, mine g →
      (∀ row, f.cursor? config.instanceId = some row → age g ≤ age row.generation) →
      ∀ row', f'.cursor? config.instanceId = some row' → age' g ≤ age' row'.generation) :
    NodeOrder age' f' config n where
  orphaned call hcall request hrequest := by
    have hmine := (hnode.orphans call hcall).request hrequest
    rw [hage _ hmine.1, hage _ hmine.2]
    exact h.orphaned call hcall request hrequest
  recovering := h.recovering
  recovery g hg r hr := by
    rw [hage g (hnode.generation g hg), hage r (hnode.recovery r hr)]
    exact h.recovery g hg r hr
  current g hg := hrow g (hnode.generation g hg) (h.current g hg)
  replied registration hreply :=
    hrow _ (hnode.replied registration hreply) (h.replied registration hreply)

/-- A step of a relay that adopts no generation keeps the order. -/
theorem Keeps.order {age : Generation → Nat} {r r' : Relay} (h : Keeps fresh r r')
    (hfresh : ∀ g ∈ r'.generation, age g < age fresh)
    (hrecovering : r.recoveryGeneration.isSome = true → r.recoveryRequired = true)
    (hrecovery : ∀ g ∈ r.generation, ∀ q ∈ r.recoveryGeneration, age g < age q) :
    (r'.recoveryGeneration.isSome = true → r'.recoveryRequired = true) ∧
      ∀ g ∈ r'.generation, ∀ q ∈ r'.recoveryGeneration, age g < age q := by
  refine ⟨h.recovers hrecovering, ?_⟩
  intro g hg q hq
  rcases h.recovery with heq | hnone | ⟨-, hminted, -⟩
  · rw [heq] at hq
    rw [h.generation] at hg
    exact hrecovery g hg q hq
  · rw [hnone] at hq
    cases hq
  · rw [hminted] at hq
    cases hq
    exact hfresh g hg

/-! ### Its steps -/

theorem OrderOk.frame (h : OrderOk cfg c) (hok : ClusterOk cfg c) (hframe : Frame c c') (j : Nat) :
    NodeOrder c'.age c'.history.db (cfg.relay j) (c.nodes j) := by
  refine (h j).mono (hok.node j) (fun g hg => hframe.age hg.minted) ?_
  intro g hg hcurrent row hrow
  have hold := (hframe.cursors _).symm.trans hrow
  rw [hframe.age hg.minted, hframe.age (hok.rows.stored _ row hold)]
  exact hcurrent row hold

/-- A frame step in which one process moves on. -/
theorem OrderOk.node_frame (h : OrderOk cfg c) (hok : ClusterOk cfg c) (hframe : Frame c c')
    (hothers : ∀ j, j ≠ i → c'.nodes j = c.nodes j)
    (hnode : NodeOrder c'.age c'.history.db (cfg.relay i) (c'.nodes i)) : OrderOk cfg c' := by
  intro j
  by_cases hj : j = i
  · subst hj
    exact hnode
  · rw [hothers j hj]
    exact h.frame hok hframe j

variable {age : Generation → Nat} {f : Foundation β} {config : RelayConfig} {n : Node β}
  {p' : Process β}

theorem NodeOrder.moved (h : NodeOrder age f config n)
    (hkeeps : Keeps fresh n.process.relay p'.relay)
    (hfresh : ∀ g ∈ p'.relay.generation, age g < age fresh) :
    NodeOrder age f config { n with process := p' } := by
  obtain ⟨hrecovering, hrecovery⟩ := hkeeps.order hfresh h.recovering h.recovery
  refine ⟨h.orphaned, hrecovering, hrecovery, ?_, h.replied⟩
  intro g hg
  have hsame : g ∈ n.process.relay.generation := hkeeps.generation ▸ hg
  exact h.current g hsame

/-- A relay's generation is the one it had, or that of the reply. -/
theorem Resumed.generation {r r' : Relay} {a : Await β} {outcome : Except Failure (Reply β)}
    (h : Resumed config fresh r a outcome r') (hg : g ∈ r'.generation) :
    g ∈ r.generation ∨
      ∃ registration, outcome = .ok (.registration registration) ∧
        registration.generation = g := by
  cases h with
  | kept hkeeps _ => exact .inl (hkeeps.generation ▸ hg)
  | @adopted _ registration r₁ _ _ hgen _ _ _ hkeeps =>
      rw [hkeeps.generation, hgen] at hg
      exact .inr ⟨registration, rfl, Option.some.inj hg⟩
  | renewed _ => exact .inl hg

/-- The process sees a reply, or gives its request up. -/
theorem NodeOrder.resumed {outcome : Except Failure (Reply β)} {orphans : List (Call β)}
    (h : NodeOrder age f config n)
    (hresumed : Resumed config fresh n.process.relay n.process.await outcome p'.relay)
    (hreply : ∀ reply, outcome = .ok reply → n.outcome = some (.ok reply))
    (hfresh : ∀ g ∈ p'.relay.generation, age g < age fresh)
    (horphans : ∀ call ∈ orphans, ∀ request ∈ call.request?, age request.2.1 < age request.2.2) :
    NodeOrder age f config { process := p', outcome := none, orphans := orphans } := by
  have hrelay : (p'.relay.recoveryGeneration.isSome = true → p'.relay.recoveryRequired = true) ∧
      (∀ g ∈ p'.relay.generation, ∀ r ∈ p'.relay.recoveryGeneration, age g < age r) ∧
      ∀ g ∈ p'.relay.generation, ∀ row, f.cursor? config.instanceId = some row →
        age g ≤ age row.generation := by
    generalize p'.relay = r' at hresumed hfresh ⊢
    cases hresumed with
    | kept hkeeps _ =>
        obtain ⟨hrecovering, hrecovery⟩ := hkeeps.order hfresh h.recovering h.recovery
        refine ⟨hrecovering, hrecovery, ?_⟩
        rw [hkeeps.generation]
        exact h.current
    | @adopted started registration r₁ _ hstarted hgen hlease hnone hrequired hkeeps =>
        -- nothing is retained past the call that adopts a generation
        have hdropped : r₁.recoveryGeneration = none := by
          rcases hnone with hnone | ⟨heq, hidle⟩
          · exact hnone
          · rw [heq]
            by_contra hsome
            have hwaiting := h.recovering (Option.isSome_iff_ne_none.mpr hsome)
            rw [hidle] at hwaiting
            cases hwaiting
        have hquiet : r₁.recoveryGeneration.isSome = true → r₁.recoveryRequired = true := by
          rw [hdropped]
          intro hsome
          cases hsome
        have hnothing : ∀ g ∈ r₁.generation, ∀ q ∈ r₁.recoveryGeneration, age g < age q := by
          rw [hdropped]
          intro g _ q hq
          cases hq
        obtain ⟨hrecovering, hrecovery⟩ := hkeeps.order hfresh hquiet hnothing
        refine ⟨hrecovering, hrecovery, ?_⟩
        intro g hg
        rw [hkeeps.generation, hgen] at hg
        cases hg
        exact h.replied registration (hreply _ rfl)
    | renewed _ => exact ⟨h.recovering, h.recovery, h.current⟩
  refine ⟨horphans, hrelay.1, hrelay.2.1, hrelay.2.2, ?_⟩
  intro registration hnone
  cases hnone

/-- The generation that a reply carries is the one in the row. -/
theorem replied_row (hsent : call.SentBy (cfg.relay i) (c.Mine i)) (hclocked : c.Clocked rd call)
    {registration : InstanceRegistration}
    (hok : (call.exec rd c.history.db).1 = .ok (.registration registration)) :
    ∃ row, (call.exec rd c.history.db).2.cursor? (cfg.relay i).instanceId = some row ∧
      registration = ⟨row.generation, row.lastSequence⟩ := by
  rcases call.exec_cases rd c.history.db with ⟨e, hexec⟩ | ⟨reply, f', hrun, hexec⟩
  · rw [hexec] at hok
    cases hok
  · rw [hexec] at hok ⊢
    obtain rfl := Except.ok.inj hok
    cases call with
    | append _ _ _ _ | prune _ _ _ _ | register _ _ | recover _ _ _ => exact hsent.elim
    | claim instanceId leaseSeconds generation =>
        obtain ⟨rfl, -, -⟩ := hsent
        obtain ⟨_, hclaim, hreply⟩ := Tx.returns_map.mp hrun
        obtain ⟨row, rfl, rfl, hcase⟩ := claimInstance_ok hclaim
        cases hreply
        refine ⟨row, ?_, rfl⟩
        rcases hcase with ⟨-, rfl⟩ | ⟨old, hold, ⟨-, -, rfl⟩ | ⟨-, rfl⟩⟩
        · exact Foundation.cursor?_putCursor _ _
        · exact stored_put hold rfl
        · exact stored_put hold rfl
    | resynchronize instanceId generation recoveryGeneration leaseSeconds =>
        obtain ⟨rfl, -, -, -⟩ := hsent
        obtain ⟨_, hresync, hreply⟩ := Tx.returns_map.mp hrun
        obtain ⟨-, -, old, hold, ⟨-, rfl, rfl⟩ | ⟨-, rfl, rfl⟩⟩ :=
          returns_resynchronizeClaimedInstance.mp hresync
        · cases hreply
          exact ⟨_, stored_put hold rfl, rfl⟩
        · cases hreply
          exact ⟨_, stored_put hold rfl, rfl⟩
    | heartbeat _ _ _ | read _ _ _ _ | acknowledge _ _ _ | release _ _ =>
        obtain ⟨_, -, hreply⟩ := Tx.returns_map.mp hrun
        cases hreply

theorem OrderOk.served (h : OrderOk cfg c) (hok : ClusterOk cfg c)
    (hsent : call.SentBy (cfg.relay i) (c.Mine i)) (hfresh : c.Unminted rd.fresh)
    (hrequest : ∀ request ∈ call.request?, c.age request.2.1 < c.age request.2.2) (j : Nat) :
    NodeOrder (c.served i rd call).age (c.served i rd call).history.db (cfg.relay j)
      (c.nodes j) := by
  refine (h j).mono (hok.node j) (fun g hg => age_of_minted rfl hg.minted) ?_
  intro g hg hcurrent row' hrow'
  exact age_row_served hok.rows hsent hrequest hfresh hg.minted hcurrent hrow'

theorem OrderOk.execute (h : OrderOk cfg c) (hok : ClusterOk cfg c)
    (hexecute : c.execute cfg i rd = some c') : OrderOk cfg c' := by
  unfold Cluster.execute at hexecute
  split at hexecute
  · cases hexecute
  rename_i hout
  obtain ⟨call, hcall, hexecute⟩ := Option.bind_eq_some_iff.mp hexecute
  split at hexecute
  case isFalse => cases hexecute
  case isTrue hguard =>
    obtain ⟨hclocked, hfresh, -⟩ := hguard
    cases hexecute
    obtain ⟨hsent, -⟩ := call?_sent (hok.node i).generation (hok.node i).recovery hcall
    have hrequest : ∀ request ∈ call.request?, c.age request.2.1 < c.age request.2.2 := by
      intro request hrequest
      obtain ⟨hg, hr⟩ := call?_request hcall hrequest
      exact (h i).recovery _ hg _ hr
    intro j
    have hserved := h.served hok hsent hfresh hrequest j
    by_cases hj : j = i
    · subst hj
      rw [Cluster.setNode_self]
      refine ⟨hserved.orphaned, hserved.recovering, hserved.recovery, hserved.current, ?_⟩
      intro registration hreply row hrow
      obtain ⟨row', hrow', heq⟩ := replied_row hsent hclocked (Option.some.inj hreply)
      rw [heq]
      obtain rfl := Option.some.inj (hrow'.symm.trans hrow)
      exact Nat.le_refl _
    · rw [Cluster.setNode_other hj]
      exact hserved

theorem OrderOk.resume (h : OrderOk cfg c) (hok : ClusterOk cfg c)
    {outcome : Except Failure (Reply β)} {orphans : List (Call β)}
    (hresume : c.resume cfg i fresh outcome orphans = some c')
    (hreply : ∀ reply, outcome = .ok reply → (c.nodes i).outcome = some (.ok reply))
    (hsent : ∀ call ∈ orphans, call.SentBy (cfg.relay i) (c.Mine i))
    (horphans : ∀ call ∈ orphans, ∀ request ∈ call.request?,
      c.age request.2.1 < c.age request.2.2) : OrderOk cfg c' := by
  unfold Cluster.resume at hresume
  split at hresume
  case isFalse => cases hresume
  case isTrue hfresh =>
    obtain ⟨p', hact, rfl⟩ := Option.map_eq_some_iff.mp hresume
    obtain ⟨task, htask, hrelay, -⟩ := act_resume hact
    have hresumed := resume_cases (hok.node i).process.task htask
    rw [← hrelay] at hresumed
    have hframe : Frame c
        (c.moved cfg i fresh { process := p', outcome := none, orphans := orphans }) :=
      ⟨fun _ => rfl, rfl, le_refl _, .inr ⟨fresh, i, hfresh, rfl⟩⟩
    have hself : (c.moved cfg i fresh
        { process := p', outcome := none, orphans := orphans }).nodes i =
          { process := p', outcome := none, orphans := orphans } := Cluster.setNode_self c i _
    refine h.node_frame hok hframe (fun j hj => Cluster.setNode_other hj) ?_
    rw [hself]
    refine (h.frame hok hframe i).resumed hresumed hreply ?_ ?_
    · intro g hg
      apply age_lt_fresh hfresh rfl
      rcases hresumed.generation hg with hold | ⟨registration, hanswer, rfl⟩
      · exact ((hok.node i).generation g hold).minted
      · exact ((hok.node i).replied registration (hreply _ hanswer)).minted
    · intro call hcall request hrequest
      have hmine := (hsent call hcall).request hrequest
      rw [hframe.age hmine.1.minted, hframe.age hmine.2.minted]
      exact horphans call hcall request hrequest

/-- What the commit of a reservation makes of the cluster. -/
inductive ReserveStep (cfg : ClusterConfig) (c : Cluster β) (tx : Appending β) : Cluster β → Prop
  | kept : ReserveStep cfg c tx c
  | leased {i websocket : Nat} {joined : RealtimeEvent β} {generation : Generation}
      {p' : Process β} : joined ∈ tx.events →
      (c.nodes i).process.act (cfg.relay i) (c.time cfg i) 0
        (.reserved websocket generation joined.sequence) = some p' →
      ReserveStep cfg c tx (c.setNode i { c.nodes i with process := p' })

theorem reserve_cases {clock : Timestamp} {tx : Appending β}
    (h : c.reserve cfg clock tx = some c') : ReserveStep cfg c tx c' := by
  unfold Cluster.reserve at h
  split at h
  · cases h
    exact .kept
  rename_i i websocket hadmission
  obtain ⟨joined, hjoined, h⟩ := Option.bind_eq_some_iff.mp h
  obtain ⟨row, -, h⟩ := Option.bind_eq_some_iff.mp h
  split at h
  · split at h
    · rename_i p' hact
      cases h
      exact .leased (List.mem_of_getLast? hjoined) hact
    · cases h
      exact .kept
  · cases h

/-- A reservation moves no relay. -/
theorem ReserveStep.nodes {tx : Appending β} (h : ReserveStep cfg c tx c') (j : Nat) :
    (c'.nodes j).process.relay = (c.nodes j).process.relay ∧
      (c'.nodes j).outcome = (c.nodes j).outcome ∧ (c'.nodes j).orphans = (c.nodes j).orphans := by
  cases h with
  | kept => exact ⟨rfl, rfl, rfl⟩
  | @leased i _ _ _ p' _ hact =>
      by_cases hj : j = i
      · subst hj
        rw [Cluster.setNode_self]
        exact ⟨(act_reserved hact).1, rfl, rfl⟩
      · rw [Cluster.setNode_other hj]
        exact ⟨rfl, rfl, rfl⟩

theorem ReserveStep.frame {tx : Appending β} (h : ReserveStep cfg c tx c') : Frame c c' := by
  cases h with
  | kept => exact ⟨fun _ => rfl, rfl, le_refl _, .inl rfl⟩
  | leased _ _ => exact ⟨fun _ => rfl, rfl, le_refl _, .inl rfl⟩

/-- A step that leaves the rows and the processes alone. -/
theorem OrderOk.kept {d : Cluster β} (h : OrderOk cfg c) (hok : ClusterOk cfg c) (hframe : Frame c d)
    (hnodes : d.nodes = c.nodes) : OrderOk cfg d := by
  intro j
  rw [hnodes]
  exact h.frame hok hframe j

theorem OrderOk.act {i : Nat} {fresh : Generation} {action : ProcessAction β} {p' : Process β}
    (h : OrderOk cfg c) (hok : ClusterOk cfg c) (hlocal : action.Local) (hfresh : c.Unminted fresh)
    (hact : (c.nodes i).process.act (cfg.relay i) (c.time cfg i) fresh action = some p') :
    OrderOk cfg (c.moved cfg i fresh { c.nodes i with process := p' }) := by
  have hkeeps := (act_local hlocal hact).keeps
  have hframe : Frame c (c.moved cfg i fresh { c.nodes i with process := p' }) :=
    ⟨fun _ => rfl, rfl, le_refl _, .inr ⟨fresh, i, hfresh, rfl⟩⟩
  refine h.node_frame hok hframe (fun j hj => Cluster.setNode_other hj) ?_
  have hself : (c.moved cfg i fresh { c.nodes i with process := p' }).nodes i =
      { c.nodes i with process := p' } := Cluster.setNode_self c i _
  rw [hself]
  refine (h.frame hok hframe i).moved hkeeps ?_
  intro g hg
  have hold : g ∈ (c.nodes i).process.relay.generation := hkeeps.generation ▸ hg
  exact age_lt_fresh hfresh rfl ((hok.node i).generation g hold).minted

theorem OrderOk.select {i : Nat} (h : OrderOk cfg c) (hok : ClusterOk cfg c)
    (hselect : c.select cfg i = some c') : OrderOk cfg c' := by
  obtain ⟨_, _, -, -, rfl⟩ := select_cases hselect
  refine h.node_frame hok ⟨fun _ => rfl, rfl, le_refl _, .inl rfl⟩
    (fun j hj => Cluster.setNode_other hj) ?_
  rw [Cluster.setNode_self]
  refine ⟨(h i).orphaned, (h i).recovering, (h i).recovery, (h i).current, ?_⟩
  intro registration hreply
  cases hreply

/-- A process gives up on its request, which may still be served later. -/
theorem OrderOk.lose {i : Nat} {fresh : Generation} {given : List (Call β)} (h : OrderOk cfg c)
    (hok : ClusterOk cfg c)
    (hgiven : ∀ call ∈ given,
      (c.nodes i).process.await.call? (cfg.relay i) (c.nodes i).process.relay = some call)
    (hresume : c.resume cfg i fresh (.error .unavailable) (given ++ (c.nodes i).orphans) =
      some c') : OrderOk cfg c' := by
  refine h.resume hok hresume ?_ ?_ ?_
  · intro reply hreply
    cases hreply
  · intro call hcall
    rcases List.mem_append.mp hcall with hnew | hold
    · exact (call?_sent (hok.node i).generation (hok.node i).recovery (hgiven call hnew)).1
    · exact (hok.node i).orphans call hold
  · intro call hcall request hrequest
    rcases List.mem_append.mp hcall with hnew | hold
    · obtain ⟨hg, hr⟩ := call?_request (hgiven call hnew) hrequest
      exact (h i).recovery _ hg _ hr
    · exact (h i).orphaned call hold request hrequest

/-- A request given up on is served late. -/
theorem OrderOk.late {i k : Nat} {rd : CallReadings} {call : Call β} (h : OrderOk cfg c)
    (hok : ClusterOk cfg c) (hcall : (c.nodes i).orphans[k]? = some call)
    (hfresh : c.Unminted rd.fresh) :
    OrderOk cfg ((c.served i rd call).setNode i
      { c.nodes i with orphans := (c.nodes i).orphans.eraseIdx k }) := by
  have hmem : call ∈ (c.nodes i).orphans := List.mem_of_getElem? hcall
  intro j
  have hserved :=
    h.served hok ((hok.node i).orphans call hmem) hfresh ((h i).orphaned call hmem) j
  by_cases hj : j = i
  · subst hj
    rw [Cluster.setNode_self]
    refine ⟨?_, hserved.recovering, hserved.recovery, hserved.current, hserved.replied⟩
    intro other hother
    exact hserved.orphaned other (List.mem_of_mem_eraseIdx hother)
  · rw [Cluster.setNode_other hj]
    exact hserved

/-- A transaction commits its events, and the admission it reserved capacity for may go on. -/
theorem OrderOk.commit {clock : Timestamp} {tx : Appending β} {db : Foundation β}
    (h : OrderOk cfg c) (hok : ClusterOk cfg c) (hdb : c.history.db.appendAll tx.events = some db)
    (hreserve : Cluster.reserve cfg
      { c with
        history := { c.history with db := db }
        appending := none
        committed := c.committed ++ tx.events } clock tx = some c') : OrderOk cfg c' := by
  have hcursors : ∀ instanceId, db.cursor? instanceId = c.history.db.cursor? instanceId := by
    intro instanceId
    unfold Foundation.cursor?
    rw [appendAll_cursors hdb]
  have hcommitted : Frame c { c with
      history := { c.history with db := db }
      appending := none
      committed := c.committed ++ tx.events } :=
    ⟨hcursors, rfl, le_refl _, .inl rfl⟩
  have hreserved := reserve_cases hreserve
  intro j
  obtain ⟨hrelay, hout, horphans⟩ := hreserved.nodes j
  have hnode := (h.kept hok hcommitted rfl).frame (hok.frame hcommitted hok.node fun _ _ => id)
    hreserved.frame j
  refine ⟨?_, ?_, ?_, ?_, ?_⟩
  · rw [horphans]
    exact hnode.orphaned
  · rw [hrelay]
    exact hnode.recovering
  · rw [hrelay]
    exact hnode.recovery
  · rw [hrelay]
    exact hnode.current
  · rw [hout]
    exact hnode.replied

/-- The step lemma: no step takes a row back to an earlier generation. -/
theorem OrderOk.step {action : ClusterAction β} (h : OrderOk cfg c) (hok : ClusterOk cfg c)
    (hstep : ClusterStep cfg c action c') : OrderOk cfg c' := by
  unfold ClusterStep at hstep
  cases action with
  | tick now =>
      simp only [Cluster.next] at hstep
      split at hstep
      · rename_i hnow
        cases hstep
        exact h.kept hok ⟨fun _ => rfl, rfl, hnow, .inl rfl⟩ rfl
      · cases hstep
  | act i fresh action =>
      simp only [Cluster.next] at hstep
      split at hstep
      case isFalse => cases hstep
      case isTrue hguard =>
        obtain ⟨hlocal, hfresh⟩ := hguard
        obtain ⟨p', hact, rfl⟩ := Option.map_eq_some_iff.mp hstep
        exact h.act hok hlocal hfresh hact
  | execute i rd => exact h.execute hok hstep
  | select i => exact h.select hok hstep
  | reply i fresh =>
      simp only [Cluster.next] at hstep
      split at hstep
      case isFalse => cases hstep
      case isTrue =>
        obtain ⟨outcome, hout, hstep⟩ := Option.bind_eq_some_iff.mp hstep
        refine h.resume hok hstep ?_ (hok.node i).orphans (h i).orphaned
        intro reply hreply
        cases outcome with
        | error e => cases hreply
        | ok reply' =>
            cases hreply
            exact hout
  | lose i fresh =>
      refine h.lose hok ?_ hstep
      intro call hcall
      split at hcall
      · cases hcall
      · exact Option.mem_toList.mp hcall
  | late i k rd =>
      obtain ⟨call, hcall, hstep⟩ := Option.bind_eq_some_iff.mp hstep
      split at hstep
      case isFalse => cases hstep
      case isTrue hguard =>
        cases hstep
        exact h.late hok hcall hguard.2
  | prune rd locked maxEvents maxAgeSeconds limit =>
      simp only [Cluster.next] at hstep
      split at hstep
      case isFalse => cases hstep
      case isTrue hguard =>
        cases hstep
        have hcursors : ∀ instanceId,
            ((Call.prune locked maxEvents maxAgeSeconds limit : Call β).exec rd
              c.history.db).2.cursor? instanceId = c.history.db.cursor? instanceId :=
          prune_cursor?
        refine h.kept hok ⟨hcursors, ?_, le_refl _, .inr ⟨rd.fresh, 0, hguard.2, rfl⟩⟩ rfl
        funext instanceId
        exact if_pos (hcursors instanceId)
  | lock admission =>
      simp only [Cluster.next] at hstep
      split at hstep
      · cases hstep
        exact h.kept hok ⟨fun _ => rfl, rfl, le_refl _, .inl rfl⟩ rfl
      · cases hstep
  | append event =>
      obtain ⟨tx, -, hstep⟩ := Option.bind_eq_some_iff.mp hstep
      split at hstep
      · cases hstep
        exact h.kept hok ⟨fun _ => rfl, rfl, le_refl _, .inl rfl⟩ rfl
      · cases hstep
  | commit clock =>
      simp only [Cluster.next] at hstep
      split at hstep
      case isFalse => cases hstep
      case isTrue =>
        obtain ⟨tx, -, hstep⟩ := Option.bind_eq_some_iff.mp hstep
        obtain ⟨db, hdb, hstep⟩ := Option.bind_eq_some_iff.mp hstep
        exact h.commit hok hdb hstep
  | rollback =>
      simp only [Cluster.next] at hstep
      split at hstep
      · cases hstep
        exact h.kept hok ⟨fun _ => rfl, rfl, le_refl _, .inl rfl⟩ rfl
      · cases hstep

theorem OrderOk.start : OrderOk cfg ({} : Cluster β) := by
  intro i
  refine ⟨?_, ?_, ?_, ?_, ?_⟩
  · intro call hcall
    cases hcall
  · intro hsome
    cases hsome
  · intro g hg
    cases hg
  · intro g hg
    cases hg
  · intro registration hreply
    cases hreply

/-! ### The steps of the log -/

theorem LogOk.idle {f : Foundation β} {log : List (RealtimeEvent β)}
    {appending : Option (Appending β)} (h : LogOk f log appending) : LogOk f log none :=
  ⟨h.ascending, h.bounded, h.retained, h.stored, h.pruned, h.cursors, by simp⟩

theorem ReserveStep.log {tx : Appending β} (h : ReserveStep cfg c tx c') :
    c'.history = c.history ∧ c'.committed = c.committed ∧ c'.appending = c.appending := by
  cases h with
  | kept => exact ⟨rfl, rfl, rfl⟩
  | leased _ _ => exact ⟨rfl, rfl, rfl⟩

/-- The log of a cluster. -/
def Cluster.LogKept (c : Cluster β) : Prop := LogOk c.history.db c.committed c.appending

theorem logKept_served (h : c.LogKept) (hsent : call.SentBy (cfg.relay i) (c.Mine i))
    {n : Node β} : ((c.served i rd call).setNode i n).LogKept :=
  LogOk.served h hsent.sameLog

/-- The step lemma of the log. -/
theorem Cluster.LogKept.step {action : ClusterAction β} (h : c.LogKept) (hok : ClusterOk cfg c)
    (hstep : ClusterStep cfg c action c') : c'.LogKept := by
  unfold ClusterStep at hstep
  cases action with
  | tick now =>
      simp only [Cluster.next] at hstep
      split at hstep
      · cases hstep
        exact h
      · cases hstep
  | act i fresh action =>
      simp only [Cluster.next] at hstep
      split at hstep
      · obtain ⟨p', -, rfl⟩ := Option.map_eq_some_iff.mp hstep
        exact h
      · cases hstep
  | execute i rd =>
      simp only [Cluster.next, Cluster.execute] at hstep
      split at hstep
      · cases hstep
      obtain ⟨call, hcall, hstep⟩ := Option.bind_eq_some_iff.mp hstep
      split at hstep
      · cases hstep
        have hnode := hok.node i
        exact logKept_served h (call?_sent hnode.generation hnode.recovery hcall).1
      · cases hstep
  | select i =>
      obtain ⟨_, _, -, -, rfl⟩ := select_cases hstep
      exact h
  | reply i fresh =>
      simp only [Cluster.next] at hstep
      split at hstep
      case isFalse => cases hstep
      case isTrue =>
        obtain ⟨outcome, -, hstep⟩ := Option.bind_eq_some_iff.mp hstep
        unfold Cluster.resume at hstep
        split at hstep
        · obtain ⟨p', -, rfl⟩ := Option.map_eq_some_iff.mp hstep
          exact h
        · cases hstep
  | lose i fresh =>
      simp only [Cluster.next, Cluster.resume] at hstep
      split at hstep
      · obtain ⟨p', -, rfl⟩ := Option.map_eq_some_iff.mp hstep
        exact h
      · cases hstep
  | late i k rd =>
      obtain ⟨call, hcall, hstep⟩ := Option.bind_eq_some_iff.mp hstep
      split at hstep
      · cases hstep
        exact logKept_served h ((hok.node i).orphans call (List.mem_of_getElem? hcall))
      · cases hstep
  | prune rd locked maxEvents maxAgeSeconds limit =>
      simp only [Cluster.next] at hstep
      split at hstep
      · cases hstep
        exact LogOk.prune_served h
      · cases hstep
  | lock admission =>
      simp only [Cluster.next] at hstep
      split at hstep
      · cases hstep
        refine ⟨h.ascending, h.bounded, h.retained, h.stored, h.pruned, h.cursors, ?_⟩
        intro tx htx
        cases htx
        refine ⟨List.Pairwise.nil, ?_⟩
        intro e he
        cases he
      · cases hstep
  | append event =>
      obtain ⟨tx, htx, hstep⟩ := Option.bind_eq_some_iff.mp hstep
      split at hstep
      · rename_i hnew
        cases hstep
        obtain ⟨hascending, habove⟩ := h.appended tx htx
        refine ⟨h.ascending, h.bounded, h.retained, h.stored, h.pruned, h.cursors, ?_⟩
        intro tx' htx'
        cases htx'
        refine ⟨hascending.append hnew.2, ?_⟩
        intro e he
        rcases List.mem_append.mp he with hold | hlast
        · exact habove e hold
        · rw [List.mem_singleton.mp hlast]
          exact hnew.1
      · cases hstep
  | commit clock =>
      simp only [Cluster.next] at hstep
      split at hstep
      · obtain ⟨tx, htx, hstep⟩ := Option.bind_eq_some_iff.mp hstep
        obtain ⟨db, hdb, hstep⟩ := Option.bind_eq_some_iff.mp hstep
        obtain ⟨hascending, habove⟩ := h.appended tx htx
        obtain ⟨hhistory, hcommitted, happending⟩ := (reserve_cases hstep).log
        unfold Cluster.LogKept
        rw [hhistory, hcommitted, happending]
        exact (h.idle.appendAll hascending habove hdb).1
      · cases hstep
  | rollback =>
      simp only [Cluster.next] at hstep
      split at hstep
      · cases hstep
        exact h.idle
      · cases hstep

theorem Cluster.LogKept.start : ({} : Cluster β).LogKept := by
  refine ⟨List.Pairwise.nil, ?_, ?_, ?_, Nat.le_refl _, ?_, by simp⟩
  · intro e he
    cases he
  · intro e he
    cases he
  · intro e he
    cases he
  · intro instanceId row hrow
    cases hrow

end Order


end Realtime
end ChatEngine
