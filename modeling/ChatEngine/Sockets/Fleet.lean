import ChatEngine.Realtime.Deployment
import ChatEngine.Sockets.Session

/-!
# Sessions against administration, over PostgreSQL

Any number of processes on one database: sessions reserve their connection before they
register, and the relay of each process closes what a committed event is about.

* `callRulings`, what a transaction rules, and `callRulings_ok`, that its
  first event announces it;
* `dispatch`, what the relay does with an event;
* `FleetOk`, the invariant: a ruling is announced above the sequence of every session
  that checked too early to have read it;
* `closed_by_check_or_relay`, the property of every reachable state.

The relay is modelled by less than it does: it may dispatch any event of the log, in any
order and any number of times.
-/

namespace ChatEngine
namespace Sockets

open Lib
open Models
open Store
open Realtime

/-! ## Rulings of the database -/

/-- What the routes of the server ask for while no room is deleted. -/
def Routed : RegistryCall → Prop
  | .setMemberModeration roomId subject payload actor =>
      (AdminRequest.updateMember roomId subject payload actor).Accepted
  | .deleteRoom _ _ => False
  | _ => True

instance : DecidablePred Routed
  | .setMemberModeration roomId subject payload actor =>
      inferInstanceAs (Decidable (AdminRequest.updateMember roomId subject payload actor).Accepted)
  | .deleteRoom .. => isFalse id
  | .onInstance _ | .createRoom .. | .setRoomState .. | .tryAcquire .. | .renew .. |
    .release .. | .reapExpired _ | .startTyping .. | .stopTyping .. | .reapTyping _ |
    .announce .. => isTrue trivial

/-- What a call rules. -/
def callRulings : RegistryCall → RegistryReply → List (Matter × Verdict)
  | .setRoomState roomId archived _ _, .roomState _ changes => roomRulings roomId archived changes
  | .setMemberModeration roomId subject _ _, .moderation m => memberRulings roomId subject m
  | _, _ => []

/-- What a call rules that may fail. -/
def outcomeRulings (call : RegistryCall) :
    Except RegistryError RegistryReply → List (Matter × Verdict)
  | .ok reply => callRulings call reply
  | .error _ => []

/-- The event says what has been ruled. -/
def Announces (k : Matter) (v : Verdict) (e : RealtimeEvent ConnectionEvent) : Prop :=
  match k, v with
  | .room roomId, .archived value =>
      e.roomId = roomId ∧
        e.payload = .other (if value = true then "room.archived" else "room.unarchived")
  | .member roomId subject, .banned deadline =>
      e.roomId = roomId ∧ e.payload = .moderationUpdated subject deadline
  | _, _ => False

/-- The transaction from `s` to `s'` rules this. -/
structure Ruled (rd : RegistryReadings) (s s' : Registry) (rulings more : List (Matter × Verdict)) :
    Prop where
  agrees : Agrees s.tables rulings → Agrees s'.tables (rulings ++ more)
  single : more = [] ∨ ∃ k v, more = [(k, v)] ∧ k.Named ∧
    (s.foundation.lastSequence < rd.sequence 0 ∧ rd.sequence 0 ≤ s'.foundation.lastSequence) ∧
    ∃ e ∈ s'.foundation.events, e.sequence = rd.sequence 0 ∧ e.createdAt = rd.countedAt 0 ∧
      Announces k v e

section Rulings

variable {cfg : RegistryConfig} {rd : RegistryReadings} {s s' : Registry}
  {rulings : List (Matter × Verdict)} {call : RegistryCall} {reply : RegistryReply}

/-- A transaction on other tables rules nothing. -/
theorem Ruled.same (h : s'.tables = s.tables) : Ruled rd s s' rulings [] where
  agrees hagrees := by
    rw [h, List.append_nil]
    exact hagrees
  single := .inl rfl

/-- A new room is nothing a ruling is about. -/
theorem Agrees.createRoom {storeCfg : Config} {storeRd : Readings} {payload : RoomCreate}
    {actor : String} {db db' : Database} {room : Room} (h : Agrees db rulings)
    (hcreate : Tx.Returns (createRoom storeCfg storeRd payload actor) db room db') :
    Agrees db' rulings := by
  obtain ⟨-, row, inserted, hins, -, hsame⟩ := createRoom_ok hcreate
  intro k v hlast
  have hold := h k v hlast
  cases k with
  | room roomId =>
      obtain ⟨found, hfound, hv⟩ := Option.map_eq_some_iff.mp hold
      obtain ⟨stored, hstored, rfl⟩ := Option.map_eq_some_iff.mp hfound
      have hkept : db'.rooms.find? roomId = some stored := by
        rw [hsame.rooms]
        obtain ⟨hmem, hkey⟩ := Table.find?_eq_some.mp hstored
        exact Table.find?_eq_some.mpr ⟨(Table.mem_of_insert? hins).mpr (.inl hmem), hkey⟩
      change roomVerdict ((db'.rooms.find? roomId).map roomFromRow) = some v
      rw [hkept, ← hv]
      rfl
  | member roomId subject =>
      rw [← hold]
      unfold verdictOf getMemberModeration
      rw [hsame.memberControls]

/-- The first of several events. -/
theorem announceAll_first {roomId eventType : String} {types : List String} {u : Unit}
    (h : Tx.Returns (announceAll rd roomId 0 (eventType :: types)) s u s') :
    s'.tables = s.tables ∧
      (s.foundation.lastSequence < rd.sequence 0 ∧
        rd.sequence 0 ≤ s'.foundation.lastSequence) ∧
      ⟨rd.sequence 0, roomId, .other eventType, rd.countedAt 0⟩ ∈ s'.foundation.events := by
  obtain ⟨n, t, hfirst, hrest⟩ := Tx.returns_bind.mp h
  obtain ⟨rfl, hlast, hlogs⟩ := notify_ok hfirst
  obtain ⟨hseq, hevent⟩ := notify_event hfirst
  have hmore := announceAll_ok hrest
  exact ⟨hmore.tables.trans hlogs.tables, ⟨hlast, hseq ▸ hmore.advanced⟩, hmore.kept _ hevent⟩

/-- A transaction that commits rules what its first event announces. -/
theorem callRulings_ok (hrouted : Routed call)
    (hne : ∀ c, call ≠ .onInstance c) (h : Tx.Returns (call.body cfg rd) s reply s') :
    Ruled rd s s' rulings (callRulings call reply) := by
  cases call with
  | onInstance c => exact absurd rfl (hne c)
  | createRoom payload actor =>
      obtain ⟨room, t, hcreate, hrest⟩ := Tx.returns_bind.mp h
      obtain ⟨_, u, hannounce, hpure⟩ := Tx.returns_bind.mp hrest
      obtain ⟨-, rfl⟩ := Tx.returns_pure.mp hpure
      obtain ⟨tables, hstore, rfl⟩ := returns_onStore.mp hcreate
      refine ⟨fun hagrees => ?_, .inl rfl⟩
      change Agrees s'.tables (rulings ++ [])
      rw [(announceAll_ok hannounce).tables, List.append_nil]
      exact Agrees.createRoom hagrees hstore
  | setRoomState roomId archived frozen actor =>
      obtain ⟨⟨room, changes⟩, t, hset, hrest⟩ := Tx.returns_bind.mp h
      obtain ⟨_, u, hannounce, hpure⟩ := Tx.returns_bind.mp hrest
      obtain ⟨rfl, rfl⟩ := Tx.returns_pure.mp hpure
      obtain ⟨tables, hstore, rfl⟩ := returns_onStore.mp hset
      refine ⟨fun hagrees => ?_, ?_⟩
      · rw [(announceAll_ok hannounce).tables]
        exact hagrees.setRoomState hstore
      · by_cases hchanged : changes.archived = true
        · unfold roomStateTypes at hannounce
          rw [if_pos hchanged] at hannounce
          obtain ⟨-, hseq, hevent⟩ := announceAll_first hannounce
          refine .inr ⟨.room roomId, .archived (decide (archived = some true)), if_pos hchanged,
            trivial, hseq, _, hevent, rfl, rfl, rfl, ?_⟩
          by_cases hwanted : archived = some true <;> simp [hwanted]
        · exact .inl (if_neg hchanged)
  | setMemberModeration roomId subject payload actor =>
      obtain ⟨moderation, t, hset, hrest⟩ := Tx.returns_bind.mp h
      obtain ⟨_, u, hnotify, hpure⟩ := Tx.returns_bind.mp hrest
      obtain ⟨rfl, rfl⟩ := Tx.returns_pure.mp hpure
      obtain ⟨tables, hstore, rfl⟩ := returns_onStore.mp hset
      obtain ⟨-, hlast, hlogs⟩ := notify_ok hnotify
      obtain ⟨hseq, hevent⟩ := notify_event hnotify
      have haccepted : (AdminRequest.updateMember roomId subject payload actor).Accepted := hrouted
      refine ⟨fun hagrees => ?_, .inr ⟨.member roomId subject, .banned moderation.bannedUntil, rfl,
        haccepted.named, ⟨(notify_ok hnotify).1 ▸ hlast, hseq.ge⟩, _, hevent, rfl, rfl, rfl, ?_⟩⟩
      · rw [hlogs.tables]
        exact hagrees.setMemberModeration hstore
      · change ConnectionEvent.moderationUpdated moderation.subject moderation.bannedUntil = _
        rw [(setMemberModeration_reply hstore).1, stripWhitespace_of_pyStrip hrouted.2]
  | deleteRoom _ _ => exact absurd hrouted id
  | tryAcquire connectionId instanceId roomId username subject =>
      obtain ⟨outcome, hacquire, -⟩ := Tx.returns_map.mp h
      exact .same (tryAcquire_ok hacquire).tables
  | renew connectionId instanceId roomId =>
      obtain ⟨expiresAt, hrenew, -⟩ := Tx.returns_map.mp h
      obtain ⟨lease, -, -, -, rfl⟩ := renew_ok hrenew
      exact .same rfl
  | release connectionId instanceId =>
      obtain ⟨_, hrelease, -⟩ := Tx.returns_map.mp h
      rcases release_ok hrelease with rfl | ⟨lease, -, -, hlogs⟩
      · exact .same rfl
      · exact .same hlogs.tables
  | reapExpired limit =>
      obtain ⟨_, hreap, -⟩ := Tx.returns_map.mp h
      exact .same (reapExpired_ok hreap).logs.tables
  | startTyping connectionId instanceId =>
      obtain ⟨_, hstart, -⟩ := Tx.returns_map.mp h
      obtain ⟨lease, -, -, state, -, ⟨-, rfl⟩ | hlogs⟩ := startTyping_ok hstart
      · exact .same rfl
      · exact .same hlogs.tables
  | stopTyping connectionId instanceId =>
      obtain ⟨_, hstop, -⟩ := Tx.returns_map.mp h
      rcases stopTyping_ok hstop with rfl | ⟨-, hlogs⟩
      · exact .same rfl
      · exact .same hlogs.tables
  | reapTyping limit =>
      obtain ⟨_, hreap, -⟩ := Tx.returns_map.mp h
      exact .same (reapTyping_ok hreap).tables
  | announce roomId eventType =>
      obtain ⟨_, u, hannounce, hpure⟩ := Tx.returns_bind.mp h
      obtain ⟨-, rfl⟩ := Tx.returns_pure.mp hpure
      exact .same (announceAll_ok hannounce).tables

/-- The same of a call that may fail. -/
theorem outcomeRulings_ok (hrouted : Routed call) :
    Ruled rd s (call.exec cfg rd s).2 rulings (outcomeRulings call (call.exec cfg rd s).1) := by
  have hbody : (∀ c, call ≠ .onInstance c) →
      Ruled rd s (Tx.atomically (call.body cfg rd) s).2 rulings
        (outcomeRulings call (Tx.atomically (call.body cfg rd) s).1) := by
    intro hne
    rcases Tx.atomically_cases (call.body cfg rd) s with ⟨e, herror⟩ | ⟨reply, s', hok, hrun⟩
    · rw [herror]
      exact .same rfl
    · rw [hrun]
      exact callRulings_ok hrouted hne hok
  cases call with
  | onInstance c =>
      have hnone : outcomeRulings (.onInstance c)
          ((RegistryCall.onInstance c).exec cfg rd s).1 = [] := by
        cases ((RegistryCall.onInstance c).exec cfg rd s).1 <;> rfl
      rw [hnone]
      exact .same rfl
  | createRoom _ _ | setRoomState _ _ _ _ | setMemberModeration _ _ _ _ | deleteRoom _ _
  | tryAcquire _ _ _ _ _ | renew _ _ _
  | release _ _ | reapExpired _ | startTyping _ _ | stopTyping _ _ | reapTyping _
  | announce _ _ => exact hbody nofun

end Rulings

/-! ## The processes -/

/-- What a session does between its check and its registration: `try_acquire`, then
`register` behind the sequence of its `presence.joined`. -/
inductive Registration where
  | acquire
  | register (afterSequence : Nat)
  deriving DecidableEq

/-- One process, with the sequences its relay has dispatched. -/
structure Process where
  manager : Manager := {}
  dispatched : List Nat := []

/-- The database, the limits of every process, and which process a socket belongs to. -/
structure FleetConfig where
  registry : RegistryConfig
  limits : ManagerLimits
  instanceId : Nat → String
  host : Nat → Nat

/-- The deployment.  `rulings` and `ruledAt` are the history of what has been committed,
and under which sequence. -/
structure Fleet where
  deployment : Deployment := {}
  processes : Nat → Process := fun _ => {}
  sessions : Nat → Option (SocketSession Registration) := fun _ => none
  rulings : List (Matter × Verdict) := []
  ruledAt : List Nat := []

/-- The clock. -/
def Fleet.now (d : Fleet) : Timestamp := d.deployment.now

/-- The tables of the chat store. -/
def Fleet.tables (d : Fleet) : Database := d.deployment.registry.tables

/-- The log. -/
def Fleet.foundation (d : Fleet) : Foundation ConnectionEvent := d.deployment.registry.foundation

/-- The manager of a process. -/
def Fleet.manager (p : Nat) (d : Fleet) : Manager := (d.processes p).manager

def Fleet.setSession (i : Nat) (s : SocketSession Registration) (d : Fleet) : Fleet :=
  { d with sessions := Function.update d.sessions i (some s) }

/-- Process `p` changes who is registered with it. -/
def Fleet.setManager (p : Nat) (m : Manager) (d : Fleet) : Fleet :=
  { d with
    processes := Function.update d.processes p
      { manager := m, dispatched := (d.processes p).dispatched } }

/-- The relay of process `p` has dispatched event `b`. -/
def Fleet.setDispatched (p b : Nat) (d : Fleet) : Fleet :=
  { d with
    processes := Function.update d.processes p
      { manager := (d.processes p).manager, dispatched := b :: (d.processes p).dispatched } }

/-- A transaction of the database. -/
def Fleet.database (cfg : FleetConfig) (rd : RegistryReadings) (now : Timestamp)
    (call : RegistryCall) (d : Fleet) : Option Fleet :=
  if (Timely d.now now rd ∧ call.Possible rd d.deployment.registry) ∧ Routed call ∧
      rd.countedAt 0 ≤ now then
    let outcome := call.exec cfg.registry rd d.deployment.registry
    some { d with
      deployment := { now := now, registry := outcome.2 }
      rulings := d.rulings ++ outcomeRulings call outcome.1
      ruledAt := d.ruledAt ++ (outcomeRulings call outcome.1).map fun _ => rd.sequence 0 }
  else
    none

/-- The next await of session `i`, but its reservation and its registration. -/
def Fleet.advance (cfg : FleetConfig) (i : Nat) (d : Fleet) : Option Fleet :=
  (d.sessions i).bind fun s =>
    match s.step .acquire d.tables d.now d.rulings.length with
    | some s' => some (d.setSession i s')
    | none =>
        match s.phase with
        | .refuse _ =>
            some ((d.setSession i (s.moveTo .ended)).setManager (cfg.host i)
              (detachConnection i (d.manager (cfg.host i))))
        | _ => none

/-- What session `i` asks the connection registry for. -/
def Opening.acquire (cfg : FleetConfig) (i : Nat) (o : Opening) : RegistryCall :=
  .tryAcquire o.connectionId (cfg.instanceId (cfg.host i)) o.roomId o.username o.subject

/-- Where a session goes on from its reservation. -/
def acquiredPhase : Except RegistryError RegistryReply → SessionPhase Registration
  | .ok (.acquisition (.leased _ admissionSequence)) => .admitting (.register admissionSequence)
  | _ => .ended

/-- `try_acquire` for session `i`. -/
def Fleet.acquire (cfg : FleetConfig) (i : Nat) (rd : RegistryReadings) (now : Timestamp)
    (d : Fleet) : Option Fleet :=
  (d.sessions i).bind fun s =>
    match s.phase with
    | .admitting .acquire =>
        (d.database cfg rd now (s.opening.acquire cfg i)).map fun d' =>
          d'.setSession i (s.moveTo (acquiredPhase
            ((s.opening.acquire cfg i).exec cfg.registry rd d.deployment.registry).1))
    | _ => none

/-- `register` for session `i`; `admitted` is what the admission check answers. -/
def Fleet.register (cfg : FleetConfig) (i : Nat) (admitted : Bool) (d : Fleet) : Option Fleet :=
  (d.sessions i).bind fun s =>
    match s.phase with
    | .admitting (.register q) =>
        let outcome := Sockets.register cfg.limits (s.opening.metadata i (some q)) admitted
          (d.manager (cfg.host i))
        some ((d.setSession i
          (s.moveTo (if outcome.1 = true then .recheckRoom else .ended))).setManager (cfg.host i)
            outcome.2)
    | _ => none

/-- `_dispatch`, as far as it changes who is registered. -/
def dispatch (e : RealtimeEvent ConnectionEvent) (m : Manager) : Manager :=
  match e.payload with
  | .other eventType =>
      if eventType = "room.archived" then closeRoom e.roomId (some e.sequence) m else m
  | .moderationUpdated subject bannedUntil =>
      if ∃ t ∈ bannedUntil, e.createdAt < t then
        closeMember e.roomId subject (some e.sequence) m
      else m
  | _ => m

inductive FleetAction where
  | tick (now : Timestamp)
  | database (rd : RegistryReadings) (now : Timestamp) (call : RegistryCall)
  | connect (i : Nat) (opening : Opening)
  | advance (i : Nat)
  | acquire (i : Nat) (rd : RegistryReadings) (now : Timestamp)
  | register (i : Nat) (admitted : Bool)
  | dispatch (p : Nat) (e : RealtimeEvent ConnectionEvent)
  | detach (i : Nat)
  | closeAll (p : Nat)
  | leave (i : Nat)

/-- The state after an action, where the action is possible.  A socket may be detached
at any time, a process may close all of its sockets, and a session may end at any
await. -/
def Fleet.next (cfg : FleetConfig) (d : Fleet) : FleetAction → Option Fleet
  | .tick now =>
      if d.now ≤ now then
        some { d with deployment := { now := now, registry := d.deployment.registry } }
      else none
  | .database rd now call => d.database cfg rd now call
  | .connect i opening =>
      if d.sessions i = none then some (d.setSession i { opening := opening }) else none
  | .advance i => d.advance cfg i
  | .acquire i rd now => d.acquire cfg i rd now
  | .register i admitted => d.register cfg i admitted
  | .dispatch p e =>
      if e ∈ d.foundation.events.rows then
        some ((d.setManager p (Sockets.dispatch e (d.manager p))).setDispatched p e.sequence)
      else none
  | .detach i => some (d.setManager (cfg.host i) (detachConnection i (d.manager (cfg.host i))))
  | .closeAll p => some (d.setManager p (Sockets.closeAll (d.manager p)))
  | .leave i =>
      (d.sessions i).map fun s =>
        (d.setSession i (s.moveTo .ended)).setManager (cfg.host i)
          (detachConnection i (d.manager (cfg.host i)))

/-- One step of the deployment. -/
def FleetStep (cfg : FleetConfig) (d : Fleet) (action : FleetAction) (d' : Fleet) : Prop :=
  d.next cfg action = some d'

/-- The processes have just started, on a database with whatever rows its constraints
allow. -/
def Fleet.Started (d : Fleet) : Prop :=
  ∃ deployment : Deployment, RegistryOk deployment.registry ∧ d = { deployment := deployment }

/-- The states of every interleaving. -/
def FleetReachable (cfg : FleetConfig) : Fleet → Prop :=
  Reachable Fleet.Started (FleetStep cfg)

/-! ## The invariant -/

/-- The row belongs to a session that has been let in once, and everything that was
ruled after the session's check is announced above its admission. -/
structure Placed (d : Fleet) (row : ConnectionMetadata) (s : SocketSession Registration) (q : Nat) :
    Prop where
  admitted : s.phase.Admitted
  room : row.roomId = s.opening.roomId
  subject : row.subject = s.opening.subject
  after : row.afterSequence = some q
  reserved : q ≤ d.foundation.lastSequence
  checked : ∀ k, s.phase.HasChecked k → ∀ (c b : Nat), s.checked k ≤ c →
    d.ruledAt[c]? = some b → q < b

/-- The history of rulings: each is announced, in the order of the commits. -/
structure LedgerOk (d : Fleet) : Prop where
  tables : Agrees d.tables d.rulings
  length : d.ruledAt.length = d.rulings.length
  increasing : d.ruledAt.Pairwise (· < ·)
  below : ∀ b ∈ d.ruledAt, b ≤ d.foundation.lastSequence
  named : ∀ w ∈ d.rulings, w.1.Named
  announced : ∀ (c : Nat) (k : Matter) (v : Verdict) (b : Nat),
    d.rulings[c]? = some (k, v) → d.ruledAt[c]? = some b →
    ∃ e ∈ d.foundation.events, e.sequence = b ∧ e.createdAt ≤ d.now ∧ Announces k v e

structure FleetOk (cfg : FleetConfig) (d : Fleet) : Prop where
  registry : RegistryOk d.deployment.registry
  managers : ∀ p, (d.manager p).Ok
  ledger : LedgerOk d
  informed : ∀ i s, d.sessions i = some s → Informed d.rulings d.now s
  reserved : ∀ i s q, d.sessions i = some s → s.phase = .admitting (.register q) →
    q ≤ d.foundation.lastSequence
  rows : ∀ p, ∀ row ∈ (d.manager p).metadata, cfg.host row.socket = p ∧
    ∃ s q, d.sessions row.socket = some s ∧ Placed d row s q
  dispatched : ∀ p, ∀ b ∈ (d.processes p).dispatched, b ≤ d.foundation.lastSequence
  cleared : ∀ p, ∀ b ∈ (d.processes p).dispatched, ∀ (c : Nat) (k : Matter) (v : Verdict),
    d.rulings[c]? = some (k, v) →
    d.ruledAt[c]? = some b → v.Bars d.now →
    ∀ row ∈ (d.manager p).metadata, ∀ s, d.sessions row.socket = some s →
      k.Covers s.opening → s.phase.HasChecked k → c < s.checked k

section Steps

variable {cfg : FleetConfig} {d d' : Fleet} {i p : Nat} {s s' : SocketSession Registration}
  {m : Manager} {rd : RegistryReadings} {now : Timestamp} {call : RegistryCall}

/-- What a transaction leaves of the deployment. -/
structure Served (d d' : Fleet) (more : List (Matter × Verdict)) : Prop where
  registry : RegistryOk d.deployment.registry → RegistryOk d'.deployment.registry
  processes : d'.processes = d.processes
  sessions : d'.sessions = d.sessions
  rulings : d'.rulings = d.rulings ++ more
  now : d.now ≤ d'.now
  advanced : d.foundation.lastSequence ≤ d'.foundation.lastSequence
  ruledAt : ∀ (c b : Nat), d'.ruledAt[c]? = some b →
    d.ruledAt[c]? = some b ∨ d.foundation.lastSequence < b
  ledger : LedgerOk d'

theorem Fleet.database_ok (h : LedgerOk d) (hstep : d.database cfg rd now call = some d') :
    ∃ more, Served d d' more := by
  unfold Fleet.database at hstep
  split at hstep
  · rename_i hguard
    obtain ⟨⟨htimely, hpossible⟩, hrouted, hcounted⟩ := hguard
    cases hstep
    have hnow : d.now ≤ now := htimely.present
    have hgrows : d.deployment.registry.Grows (call.exec cfg.registry rd d.deployment.registry).2 :=
      RegistryCall.grows hpossible
    have hruled : Ruled rd d.deployment.registry
        (call.exec cfg.registry rd d.deployment.registry).2 d.rulings
        (outcomeRulings call (call.exec cfg.registry rd d.deployment.registry).1) :=
      outcomeRulings_ok hrouted
    generalize outcomeRulings call (call.exec cfg.registry rd d.deployment.registry).1 = more
      at hruled ⊢
    have htables := hruled.agrees h.tables
    have hregistry : RegistryOk d.deployment.registry →
        RegistryOk (call.exec cfg.registry rd d.deployment.registry).2 := by
      intro hok
      have hnext : DeploymentStep cfg.registry d.deployment (.call rd now call)
          { now := now, registry := (call.exec cfg.registry rd d.deployment.registry).2 } :=
        if_pos ⟨htimely, hpossible⟩
      exact hok.step hnext
    rcases hruled.single with rfl | ⟨k, v, rfl, hnamed, ⟨hlast, hle⟩, e, he, hseq, hat, hann⟩
    · refine ⟨[], hregistry, rfl, rfl, rfl, hnow, hgrows.advanced, fun c b hb => ?_,
        htables, ?_, ?_, ?_, ?_, ?_⟩
      · exact .inl (by simpa using hb)
      · simpa using h.length
      · simpa using h.increasing
      · intro b hb
        exact (h.below b (by simpa using hb)).trans hgrows.advanced
      · intro w hw
        exact h.named w (by simpa using hw)
      · intro c k v b hruling hb
        obtain ⟨e, he, hseq, hat, hann⟩ := h.announced c k v b (by simpa using hruling)
          (by simpa using hb)
        exact ⟨e, hgrows.kept e he, hseq, hat.trans hnow, hann⟩
    · refine ⟨[(k, v)], hregistry, rfl, rfl, rfl, hnow, hgrows.advanced, ?_, htables, ?_, ?_, ?_,
        ?_, ?_⟩
      · intro c b hb
        rcases getElem?_append_single hb with hold | ⟨-, rfl⟩
        · exact .inl hold
        · exact .inr hlast
      · simp [h.length]
      · refine List.pairwise_append.mpr ⟨h.increasing, List.pairwise_singleton _ _, ?_⟩
        intro a ha b hb
        obtain rfl := List.mem_singleton.mp hb
        exact lt_of_le_of_lt (h.below a ha) hlast
      · intro b hb
        rcases List.mem_append.mp hb with hold | hnew
        · exact (h.below b hold).trans hgrows.advanced
        · obtain rfl := List.mem_singleton.mp hnew
          exact hle
      · intro w hw
        rcases List.mem_append.mp hw with hold | hnew
        · exact h.named w hold
        · obtain rfl := List.mem_singleton.mp hnew
          exact hnamed
      · intro c k' v' b hruling hb
        rcases getElem?_append_single hruling with hold | ⟨rfl, hsame⟩
        · rcases getElem?_append_single hb with hb | ⟨rfl, -⟩
          · obtain ⟨e, he, hseq, hat, hann⟩ := h.announced c k' v' b hold hb
            exact ⟨e, hgrows.kept e he, hseq, hat.trans hnow, hann⟩
          · have hlt := (List.getElem?_eq_some_iff.mp hold).1
            rw [h.length] at hlt
            exact absurd hlt (Nat.lt_irrefl _)
        · cases hsame
          rcases getElem?_append_single hb with hb | ⟨-, rfl⟩
          · have hlt := (List.getElem?_eq_some_iff.mp hb).1
            rw [h.length] at hlt
            exact absurd hlt (Nat.lt_irrefl _)
          · exact ⟨e, he, hseq, hat ▸ hcounted, hann⟩
  · cases hstep

theorem Fleet.database_last (hstep : d.database cfg rd now call = some d') :
    d'.foundation.lastSequence =
      (call.exec cfg.registry rd d.deployment.registry).2.foundation.lastSequence := by
  unfold Fleet.database at hstep
  split at hstep
  · cases hstep
    rfl
  · cases hstep

theorem Fleet.manager_setManager (p : Nat) (m : Manager) (d : Fleet) (q : Nat) :
    (d.setManager p m).manager q = if q = p then m else d.manager q := by
  unfold Fleet.manager Fleet.setManager
  dsimp only
  by_cases hq : q = p
  · subst hq
    rw [Function.update_self, if_pos rfl]
  · rw [Function.update_of_ne hq, if_neg hq]

theorem Fleet.setManager_self (p : Nat) (d : Fleet) : d.setManager p (d.manager p) = d := by
  unfold Fleet.setManager
  change { d with processes := Function.update d.processes p (d.processes p) } = d
  rw [Function.update_eq_self]

theorem Fleet.dispatched_setManager (p : Nat) (m : Manager) (d : Fleet) (q : Nat) :
    ((d.setManager p m).processes q).dispatched = (d.processes q).dispatched := by
  unfold Fleet.setManager
  dsimp only
  by_cases hq : q = p
  · subst hq
    rw [Function.update_self]
  · rw [Function.update_of_ne hq]

theorem FleetOk.start (h : d.Started) : FleetOk cfg d := by
  obtain ⟨deployment, hregistry, rfl⟩ := h
  have hledger : LedgerOk { deployment := deployment } :=
    ⟨nofun, rfl, .nil, nofun, nofun, fun c k v b hruling => by cases hruling⟩
  refine ⟨hregistry, fun p => .start, hledger, ?_, ?_,
    fun p row hrow => absurd hrow Table.not_mem_empty,
    nofun, nofun⟩
  · intro i s hs
    cases hs
  · intro i s q hs
    cases hs

theorem FleetOk.database (h : FleetOk cfg d) (hstep : d.database cfg rd now call = some d') :
    FleetOk cfg d' := by
  obtain ⟨more, hserved⟩ := Fleet.database_ok h.ledger hstep
  have hmanager : ∀ p, d'.manager p = d.manager p := fun p =>
    congrArg (fun processes => (processes p).manager) hserved.processes
  refine ⟨hserved.registry h.registry, ?_, hserved.ledger, ?_, ?_, ?_, ?_, ?_⟩
  · intro p
    rw [hmanager]
    exact h.managers p
  · intro i s hs
    rw [hserved.sessions] at hs
    rw [hserved.rulings]
    exact ((h.informed i s hs).append).later hserved.now
  · intro i s q hs hphase
    rw [hserved.sessions] at hs
    exact (h.reserved i s q hs hphase).trans hserved.advanced
  · intro p row hrow
    rw [hmanager] at hrow
    rw [hserved.sessions]
    obtain ⟨hhost, s, q, hs, hplaced⟩ := h.rows p row hrow
    refine ⟨hhost, s, q, hs, hplaced.admitted, hplaced.room, hplaced.subject, hplaced.after,
      hplaced.reserved.trans hserved.advanced, fun k hhas c b hle hb => ?_⟩
    rcases hserved.ruledAt c b hb with hold | hnew
    · exact hplaced.checked k hhas c b hle hold
    · exact lt_of_le_of_lt hplaced.reserved hnew
  · intro p b hb
    rw [hserved.processes] at hb
    exact (h.dispatched p b hb).trans hserved.advanced
  · intro p b hdispatched c k v hruling hb hbars row hrow s hs
    rw [hserved.processes] at hdispatched
    rw [hmanager] at hrow
    rw [hserved.sessions] at hs
    -- a sequence that has been dispatched is not that of a new ruling
    have hold : d.ruledAt[c]? = some b :=
      (hserved.ruledAt c b hb).resolve_right (Nat.not_lt.mpr (h.dispatched p b hdispatched))
    have hlt : c < d.rulings.length := h.ledger.length ▸ (List.getElem?_eq_some_iff.mp hold).1
    rw [hserved.rulings, List.getElem?_append_left hlt] at hruling
    exact h.cleared p b hdispatched c k v hruling hold (hbars.before hserved.now) row hrow s hs

/-- Session `i` moves, and with it the manager of its process. -/
theorem FleetOk.moved (h : FleetOk cfg d) (hs : d.sessions i = some s) (hm : m.Ok)
    (hopening : s'.opening = s.opening)
    (hchecked : ∀ k, s'.phase.HasChecked k →
      (s.phase.HasChecked k ∧ s'.checked k = s.checked k) ∨ s'.checked k = d.rulings.length)
    (hinformed : Informed d.rulings d.now s')
    (hreserved : ∀ q, s'.phase = .admitting (.register q) → q ≤ d.foundation.lastSequence)
    (hrows : ∀ row ∈ m.metadata,
      (row ∈ (d.manager (cfg.host i)).metadata ∧ (row.socket = i → s'.phase.Admitted)) ∨
        (row.socket = i ∧ s'.phase.Admitted ∧ row.roomId = s.opening.roomId ∧
          row.subject = s.opening.subject ∧ (∀ k, ¬ s'.phase.HasChecked k) ∧
          ∃ q ≤ d.foundation.lastSequence, row.afterSequence = some q)) :
    FleetOk cfg ((d.setSession i s').setManager (cfg.host i) m) := by
  have hsessions : ∀ j x, ((d.setSession i s').setManager (cfg.host i) m).sessions j = some x →
      (j = i ∧ x = s') ∨ (j ≠ i ∧ d.sessions j = some x) := by
    intro j x hx
    change Function.update d.sessions i (some s') j = some x at hx
    by_cases hj : j = i
    · subst hj
      rw [Function.update_self] at hx
      cases hx
      exact .inl ⟨rfl, rfl⟩
    · rw [Function.update_of_ne hj] at hx
      exact .inr ⟨hj, hx⟩
  -- where a row of the new managers comes from
  have hfrom : ∀ p, ∀ row ∈ (((d.setSession i s').setManager (cfg.host i) m).manager p).metadata,
      (row ∈ (d.manager p).metadata ∧ (row.socket = i → s'.phase.Admitted)) ∨
        (p = cfg.host i ∧ row.socket = i ∧ s'.phase.Admitted ∧ row.roomId = s.opening.roomId ∧
          row.subject = s.opening.subject ∧ (∀ k, ¬ s'.phase.HasChecked k) ∧
          ∃ q ≤ d.foundation.lastSequence, row.afterSequence = some q) := by
    intro p row hrow
    rw [Fleet.manager_setManager] at hrow
    by_cases hp : p = cfg.host i
    · rw [if_pos hp] at hrow
      subst hp
      exact (hrows row hrow).imp_right fun hnew => ⟨rfl, hnew⟩
    · rw [if_neg hp] at hrow
      refine .inl ⟨hrow, fun hi => absurd ?_ hp⟩
      rw [← (h.rows p row hrow).1, hi]
  refine ⟨h.registry, ?_, ⟨h.ledger.tables, h.ledger.length, h.ledger.increasing, h.ledger.below,
    h.ledger.named, h.ledger.announced⟩, ?_, ?_, ?_, ?_, ?_⟩
  · intro p
    rw [Fleet.manager_setManager]
    split
    · exact hm
    · exact h.managers p
  · intro j x hx
    rcases hsessions j x hx with ⟨-, rfl⟩ | ⟨-, hold⟩
    · exact hinformed
    · exact h.informed j x hold
  · intro j x q hx
    rcases hsessions j x hx with ⟨-, rfl⟩ | ⟨-, hold⟩
    · exact hreserved q
    · exact h.reserved j x q hold
  · intro p row hrow
    change _ ∧ ∃ x q, Function.update d.sessions i (some s') row.socket = some x ∧ _
    rcases hfrom p row hrow with ⟨hold, hadmitted⟩ |
      ⟨rfl, hi, hadmitted, hroom, hsubject, hnone, q, hle, hafter⟩
    · obtain ⟨hhost, x, q, hx, hplaced⟩ := h.rows p row hold
      refine ⟨hhost, ?_⟩
      by_cases hi : row.socket = i
      · rw [hi] at hx ⊢
        rw [Function.update_self]
        cases hs.symm.trans hx
        refine ⟨s', q, rfl, hadmitted hi, hopening ▸ hplaced.room, hopening ▸ hplaced.subject,
          hplaced.after, hplaced.reserved, fun k hhas c b hle hb => ?_⟩
        rcases hchecked k hhas with ⟨hbefore, hsame⟩ | hnow
        · exact hplaced.checked k hbefore c b (hsame ▸ hle) hb
        · -- nothing has been ruled since this check
          have hlt : c < d.ruledAt.length := (List.getElem?_eq_some_iff.mp hb).1
          rw [h.ledger.length, ← hnow] at hlt
          exact absurd hlt (Nat.not_lt.mpr hle)
      · rw [Function.update_of_ne hi]
        exact ⟨x, q, hx, hplaced.admitted, hplaced.room, hplaced.subject, hplaced.after,
          hplaced.reserved, hplaced.checked⟩
    · rw [hi, Function.update_self]
      exact ⟨rfl, s', q, rfl, hadmitted, hopening ▸ hroom, hopening ▸ hsubject, hafter, hle,
        fun k hhas => absurd hhas (hnone k)⟩
  · intro p b hb
    rw [Fleet.dispatched_setManager] at hb
    exact h.dispatched p b hb
  · intro p b hdispatched c k v hruling hb hbars row hrow x hx hcovers hhas
    rw [Fleet.dispatched_setManager] at hdispatched
    rcases hsessions row.socket x hx with ⟨hi, rfl⟩ | ⟨hi, hold⟩
    · rcases hfrom p row hrow with ⟨hmem, -⟩ | ⟨-, -, -, -, -, hnone, -⟩
      · rcases hchecked k hhas with ⟨hbefore, hsame⟩ | hnow
        · rw [hsame]
          exact h.cleared p b hdispatched c k v hruling hb hbars row hmem s (hi ▸ hs)
            (hopening ▸ hcovers) hbefore
        · rw [hnow]
          exact (List.getElem?_eq_some_iff.mp hruling).1
      · exact absurd hhas (hnone k)
    · rcases hfrom p row hrow with ⟨hmem, -⟩ | ⟨-, heq, -⟩
      · exact h.cleared p b hdispatched c k v hruling hb hbars row hmem x hold hcovers hhas
      · exact absurd heq hi

/-- Sockets of process `p` are detached. -/
theorem FleetOk.detached (h : FleetOk cfg d) (hm : m.Ok)
    (hrows : ∀ row ∈ m.metadata, row ∈ (d.manager p).metadata) :
    FleetOk cfg (d.setManager p m) := by
  have hfrom : ∀ q, ∀ row ∈ ((d.setManager p m).manager q).metadata,
      row ∈ (d.manager q).metadata := by
    intro q row hrow
    rw [Fleet.manager_setManager] at hrow
    by_cases hq : q = p
    · rw [if_pos hq] at hrow
      exact hq ▸ hrows row hrow
    · rw [if_neg hq] at hrow
      exact hrow
  refine ⟨h.registry, ?_, ⟨h.ledger.tables, h.ledger.length, h.ledger.increasing, h.ledger.below,
    h.ledger.named, h.ledger.announced⟩, h.informed, h.reserved, ?_, ?_, ?_⟩
  · intro q
    rw [Fleet.manager_setManager]
    split
    · exact hm
    · exact h.managers q
  · intro q row hrow
    obtain ⟨hhost, s, n, hs, hplaced⟩ := h.rows q row (hfrom q row hrow)
    exact ⟨hhost, s, n, hs, hplaced.admitted, hplaced.room, hplaced.subject, hplaced.after,
      hplaced.reserved, hplaced.checked⟩
  · intro q b hb
    rw [Fleet.dispatched_setManager] at hb
    exact h.dispatched q b hb
  · intro q b hdispatched c k v hruling hb hbars row hrow
    rw [Fleet.dispatched_setManager] at hdispatched
    exact h.cleared q b hdispatched c k v hruling hb hbars row (hfrom q row hrow)

theorem FleetOk.tick (h : FleetOk cfg d) (hle : d.now ≤ now) :
    FleetOk cfg
      { d with deployment := { now := now, registry := d.deployment.registry } } where
  registry := h.registry
  managers := h.managers
  ledger := ⟨h.ledger.tables, h.ledger.length, h.ledger.increasing, h.ledger.below,
    h.ledger.named, fun c k v b hruling hb => by
      obtain ⟨e, he, hseq, hat, hann⟩ := h.ledger.announced c k v b hruling hb
      exact ⟨e, he, hseq, hat.trans hle, hann⟩⟩
  informed i s hs := (h.informed i s hs).later hle
  reserved := h.reserved
  rows p row hrow := by
    obtain ⟨hhost, s, n, hs, hplaced⟩ := h.rows p row hrow
    exact ⟨hhost, s, n, hs, hplaced.admitted, hplaced.room, hplaced.subject, hplaced.after,
      hplaced.reserved, hplaced.checked⟩
  dispatched := h.dispatched
  cleared p b hdispatched c k v hruling hb hbars :=
    h.cleared p b hdispatched c k v hruling hb (hbars.before hle)

/-- A session begins. -/
theorem FleetOk.connect {opening : Opening} (h : FleetOk cfg d) (hi : d.sessions i = none) :
    FleetOk cfg (d.setSession i { opening := opening }) where
  registry := h.registry
  managers := h.managers
  ledger := ⟨h.ledger.tables, h.ledger.length, h.ledger.increasing, h.ledger.below,
    h.ledger.named, h.ledger.announced⟩
  informed j x hx := by
    change Function.update d.sessions i _ j = some x at hx
    by_cases hj : j = i
    · subst hj
      rw [Function.update_self] at hx
      cases hx
      trivial
    · rw [Function.update_of_ne hj] at hx
      exact h.informed j x hx
  reserved j x q hx hphase := by
    change Function.update d.sessions i _ j = some x at hx
    by_cases hj : j = i
    · subst hj
      rw [Function.update_self] at hx
      cases hx
      cases hphase
    · rw [Function.update_of_ne hj] at hx
      exact h.reserved j x q hx hphase
  rows p row hrow := by
    obtain ⟨hhost, s, n, hs, hplaced⟩ := h.rows p row hrow
    have hne : row.socket ≠ i := by
      intro heq
      rw [heq, hi] at hs
      cases hs
    refine ⟨hhost, s, n, ?_, hplaced.admitted, hplaced.room, hplaced.subject, hplaced.after,
      hplaced.reserved, hplaced.checked⟩
    change Function.update d.sessions i _ row.socket = some s
    rw [Function.update_of_ne hne]
    exact hs
  dispatched := h.dispatched
  cleared p b hdispatched c k v hruling hb hbars row hrow x hx hcovers hhas := by
    change Function.update d.sessions i _ row.socket = some x at hx
    by_cases hj : row.socket = i
    · rw [hj, Function.update_self] at hx
      cases hx
      cases hhas
    · rw [Function.update_of_ne hj] at hx
      exact h.cleared p b hdispatched c k v hruling hb hbars row hrow x hx hcovers hhas

/-! ## The relay -/

theorem Manager.Ok.dispatch (h : m.Ok) (e : RealtimeEvent ConnectionEvent) :
    (dispatch e m).Ok := by
  unfold Sockets.dispatch
  split
  · split
    · exact h.detachRoomConnections none _
    · exact h
  · split
    · exact h.detachRoomConnections _ _
    · exact h
  · exact h

theorem mem_of_mem_dispatch {e : RealtimeEvent ConnectionEvent} {row : ConnectionMetadata}
    (h : m.Ok) (hrow : row ∈ (dispatch e m).metadata) : row ∈ m.metadata := by
  unfold dispatch at hrow
  split at hrow
  · split at hrow
    · exact ((mem_detachRoomConnections h).mp hrow).1
    · exact hrow
  · split at hrow
    · exact ((mem_detachRoomConnections h).mp hrow).1
    · exact hrow
  · exact hrow

/-- An event leaves the sockets admitted after it alone. -/
theorem mem_dispatch_of_le {e : RealtimeEvent ConnectionEvent} {row : ConnectionMetadata} {q : Nat}
    (h : m.Ok) (hrow : row ∈ m.metadata) (hafter : row.afterSequence = some q)
    (hle : e.sequence ≤ q) : row ∈ (dispatch e m).metadata := by
  have hrefused : ¬ acceptsSequence row (some e.sequence) := by
    intro haccepts
    exact absurd (haccepts e.sequence rfl q hafter) (Nat.not_lt.mpr hle)
  unfold dispatch
  split
  · split
    · exact (mem_detachRoomConnections h).mpr ⟨hrow, fun hselected => hrefused hselected.2.2⟩
    · exact hrow
  · split
    · exact (mem_detachRoomConnections h).mpr ⟨hrow, fun hselected => hrefused hselected.2.2⟩
    · exact hrow
  · exact hrow

/-- The event of a ruling that still bars detaches whom it is about, if admitted before. -/
theorem not_mem_dispatch {e : RealtimeEvent ConnectionEvent} {row : ConnectionMetadata} {q : Nat}
    {k : Matter} {v : Verdict} {o : Opening} (h : m.Ok) (hann : Announces k v e)
    (hbars : v.Bars now) (hat : e.createdAt ≤ now) (hcovers : k.Covers o)
    (hroom : row.roomId = o.roomId) (hsubject : row.subject = o.subject)
    (hafter : row.afterSequence = some q) (hlt : q < e.sequence) :
    row ∉ (dispatch e m).metadata := by
  have haccepts : acceptsSequence row (some e.sequence) := by
    intro b hb n hn
    cases hb
    cases hafter.symm.trans hn
    exact hlt
  intro hrow
  unfold dispatch at hrow
  cases k with
  | room roomId =>
      cases v with
      | banned deadline => exact hann
      | archived value =>
          obtain ⟨hevent, hpayload⟩ := hann
          have hvalue : value = true := hbars
          rw [hvalue, if_pos rfl] at hpayload
          rw [hpayload] at hrow
          dsimp only at hrow
          rw [if_pos rfl] at hrow
          refine ((mem_detachRoomConnections h).mp hrow).2 ⟨?_, nofun, haccepts⟩
          exact hroom.trans ((show o.roomId = roomId from hcovers).trans hevent.symm)
  | member roomId subject =>
      cases v with
      | archived value => exact hann
      | banned deadline =>
          obtain ⟨hevent, hpayload⟩ := hann
          obtain ⟨t, ht, hnow⟩ := hbars
          rw [hpayload] at hrow
          dsimp only at hrow
          rw [if_pos ⟨t, ht, lt_of_le_of_lt hat hnow⟩] at hrow
          refine ((mem_detachRoomConnections h).mp hrow).2
            ⟨hroom.trans (hcovers.1.trans hevent.symm), fun x hx => ?_, haccepts⟩
          cases hx
          exact hsubject.trans hcovers.2.1

theorem Fleet.manager_setDispatched (p b : Nat) (d : Fleet) (q : Nat) :
    (d.setDispatched p b).manager q = d.manager q := by
  unfold Fleet.manager Fleet.setDispatched
  dsimp only
  by_cases hq : q = p
  · subst hq
    rw [Function.update_self]
  · rw [Function.update_of_ne hq]

theorem Fleet.mem_dispatched_setDispatched {b q n : Nat}
    (h : n ∈ ((d.setDispatched p b).processes q).dispatched) :
    n ∈ (d.processes q).dispatched ∨ (q = p ∧ n = b) := by
  unfold Fleet.setDispatched at h
  dsimp only at h
  by_cases hq : q = p
  · subst hq
    rw [Function.update_self] at h
    rcases List.mem_cons.mp h with hnew | hold
    · exact .inr ⟨rfl, hnew⟩
    · exact .inl hold
  · rw [Function.update_of_ne hq] at h
    exact .inl h

theorem FleetOk.dispatch {e : RealtimeEvent ConnectionEvent} (h : FleetOk cfg d)
    (he : e ∈ d.foundation.events) :
    FleetOk cfg ((d.setManager p (Sockets.dispatch e (d.manager p))).setDispatched p
      e.sequence) := by
  have hclosed : FleetOk cfg (d.setManager p (Sockets.dispatch e (d.manager p))) :=
    h.detached ((h.managers p).dispatch e) fun row hrow => mem_of_mem_dispatch (h.managers p) hrow
  refine ⟨h.registry, ?_, ⟨h.ledger.tables, h.ledger.length, h.ledger.increasing, h.ledger.below,
    h.ledger.named, h.ledger.announced⟩, h.informed, h.reserved, ?_, ?_, ?_⟩
  · intro q
    rw [Fleet.manager_setDispatched]
    exact hclosed.managers q
  · intro q row hrow
    rw [Fleet.manager_setDispatched] at hrow
    obtain ⟨hhost, s, n, hs, hplaced⟩ := hclosed.rows q row hrow
    exact ⟨hhost, s, n, hs, hplaced.admitted, hplaced.room, hplaced.subject, hplaced.after,
      hplaced.reserved, hplaced.checked⟩
  · intro q b hb
    rcases Fleet.mem_dispatched_setDispatched hb with hold | ⟨-, rfl⟩
    · exact hclosed.dispatched q b hold
    · exact h.registry.sequenced.last e he
  · intro q b hb c k v hruling hat hbars row hrow s hs hcovers hhas
    rw [Fleet.manager_setDispatched] at hrow
    rcases Fleet.mem_dispatched_setDispatched hb with hold | ⟨rfl, rfl⟩
    · exact hclosed.cleared q b hold c k v hruling hat hbars row hrow s hs hcovers hhas
    · obtain ⟨e', he', hseq, hcreated, hann⟩ := h.ledger.announced c k v _ hruling hat
      obtain rfl : e' = e := Table.eq_of_key he' he hseq
      obtain ⟨-, x, n, hx, hplaced⟩ := hclosed.rows q row hrow
      cases hs.symm.trans hx
      by_contra hlate
      have hlt : n < e'.sequence :=
        hplaced.checked k hhas c _ (Nat.le_of_not_lt hlate) hat
      rw [Fleet.manager_setManager, if_pos rfl] at hrow
      exact not_mem_dispatch (h.managers q) hann hbars hcreated hcovers hplaced.room
        hplaced.subject hplaced.after hlt hrow

/-! ## Sessions -/

theorem FleetOk.advance (h : FleetOk cfg d) (hstep : d.advance cfg i = some d') :
    FleetOk cfg d' := by
  unfold Fleet.advance at hstep
  obtain ⟨s, hs, hnext⟩ := Option.bind_eq_some_iff.mp hstep
  have hrow : ∀ row ∈ (d.manager (cfg.host i)).metadata, row.socket = i → s.phase.Admitted := by
    intro row hrow hi
    obtain ⟨-, x, q, hx, hplaced⟩ := h.rows _ row hrow
    rw [hi] at hx
    cases hs.symm.trans hx
    exact hplaced.admitted
  split at hnext
  · rename_i s' hs'
    cases hnext
    have hstepped := SocketSession.step_ok h.ledger.tables (h.informed i s hs) hs'
    have hmoved : FleetOk cfg ((d.setSession i s').setManager (cfg.host i)
        (d.manager (cfg.host i))) := by
      refine h.moved hs (h.managers _) hstepped.opening hstepped.checked hstepped.informed ?_
        fun row hmem => .inl ⟨hmem, fun hi => hstepped.admitted.mpr (hrow row hmem hi)⟩
      intro q hq
      cases SocketSession.step_admit hs' hq
    rw [← Fleet.setManager_self (cfg.host i) (d.setSession i s')]
    exact hmoved
  · split at hnext
    · cases hnext
      refine h.moved hs ((h.managers _).detachConnection i) rfl nofun trivial nofun
        fun row hmem => ?_
      obtain ⟨hold, hne⟩ := mem_detachConnection.mp hmem
      exact .inl ⟨hold, fun hi => absurd hi hne⟩
    · cases hnext

theorem acquiredPhase_cases (outcome : Except RegistryError RegistryReply) :
    acquiredPhase outcome = .ended ∨
      ∃ lease q, outcome = .ok (.acquisition (.leased lease q)) ∧
        acquiredPhase outcome = .admitting (.register q) := by
  unfold acquiredPhase
  split
  · exact .inr ⟨_, _, rfl, rfl⟩
  · exact .inl rfl

/-- The sequence of a reservation is the last one of the log. -/
theorem acquire_sequence {o : Opening} {r : Registry} {lease : ConnectionLease} {q : Nat}
    (h : ((o.acquire cfg i).exec cfg.registry rd r).1 = .ok (.acquisition (.leased lease q))) :
    ((o.acquire cfg i).exec cfg.registry rd r).2.foundation.lastSequence = q := by
  change (Tx.atomically ((o.acquire cfg i).body cfg.registry rd) r).1 = _ at h
  change (Tx.atomically ((o.acquire cfg i).body cfg.registry rd) r).2.foundation.lastSequence = q
  rcases Tx.atomically_cases ((o.acquire cfg i).body cfg.registry rd) r with
    ⟨e, herror⟩ | ⟨reply, r', hok, hrun⟩
  · rw [herror] at h
    cases h
  · rw [hrun] at h ⊢
    cases h
    obtain ⟨outcome, hacquire, houtcome⟩ := Tx.returns_map.mp hok
    cases houtcome
    obtain ⟨-, _, t, -, -, -, ⟨hrefused, -⟩ | ⟨-, -, hreserved⟩⟩ := tryAcquire_ok hacquire
    · cases hrefused
    · cases hreserved with
      | leased _ _ _ hlast => exact hlast

theorem FleetOk.acquire (h : FleetOk cfg d) (hstep : d.acquire cfg i rd now = some d') :
    FleetOk cfg d' := by
  unfold Fleet.acquire at hstep
  obtain ⟨s, hs, hnext⟩ := Option.bind_eq_some_iff.mp hstep
  split at hnext
  · rename_i hphase
    obtain ⟨t, hdatabase, rfl⟩ := Option.map_eq_some_iff.mp hnext
    have ht : FleetOk cfg t := h.database hdatabase
    obtain ⟨more, hserved⟩ := Fleet.database_ok h.ledger hdatabase
    have hst : t.sessions i = some s := by
      rw [hserved.sessions]
      exact hs
    have hout : ∀ row ∈ (t.manager (cfg.host i)).metadata, row.socket ≠ i := by
      intro row hrow hi
      obtain ⟨-, x, q, hx, hplaced⟩ := ht.rows _ row hrow
      rw [hi] at hx
      cases hst.symm.trans hx
      have hadmitted := hplaced.admitted
      rw [hphase] at hadmitted
      exact hadmitted
    rw [← Fleet.setManager_self (cfg.host i) (t.setSession i _)]
    have hlast : t.foundation.lastSequence = ((s.opening.acquire cfg i).exec cfg.registry rd
        d.deployment.registry).2.foundation.lastSequence := Fleet.database_last hdatabase
    rcases acquiredPhase_cases ((s.opening.acquire cfg i).exec cfg.registry rd
      d.deployment.registry).1 with hended | ⟨lease, q, hleased, hregister⟩
    · rw [hended]
      exact ht.moved hst (ht.managers _) rfl nofun trivial nofun
        fun row hmem => .inl ⟨hmem, fun hi => absurd hi (hout row hmem)⟩
    · rw [hregister]
      refine ht.moved hst (ht.managers _) rfl nofun trivial (fun n hn => ?_)
        fun row hmem => .inl ⟨hmem, fun hi => absurd hi (hout row hmem)⟩
      cases hn
      rw [hlast, acquire_sequence hleased]
  · cases hnext

theorem FleetOk.register {admitted : Bool} (h : FleetOk cfg d)
    (hstep : d.register cfg i admitted = some d') : FleetOk cfg d' := by
  unfold Fleet.register at hstep
  obtain ⟨s, hs, hnext⟩ := Option.bind_eq_some_iff.mp hstep
  split at hnext
  · rename_i q hphase
    cases hnext
    have hout : ∀ row ∈ (d.manager (cfg.host i)).metadata, row.socket ≠ i := by
      intro row hrow hi
      obtain ⟨-, x, n, hx, hplaced⟩ := h.rows _ row hrow
      rw [hi] at hx
      cases hs.symm.trans hx
      have hadmitted := hplaced.admitted
      rw [hphase] at hadmitted
      exact hadmitted
    have hm : (Sockets.register cfg.limits (s.opening.metadata i (some q)) admitted
        (d.manager (cfg.host i))).2.Ok := (h.managers _).register admitted
    have hregister := @register_ok (d.manager (cfg.host i)) cfg.limits
      (s.opening.metadata i (some q)) admitted
    rcases hregister with ⟨hrefused, hsame⟩ | ⟨hadded, -, -, -, -, hrows⟩
    · rw [hrefused, if_neg Bool.false_ne_true]
      refine h.moved hs hm rfl nofun trivial nofun fun row hmem => .inl ?_
      rw [hsame] at hmem
      exact ⟨hmem, fun hi => absurd hi (hout row hmem)⟩
    · rw [hadded, if_pos rfl]
      refine h.moved hs hm rfl nofun trivial nofun fun row hmem => ?_
      rw [hrows] at hmem
      rcases Table.mem_upsert.mp hmem with rfl | ⟨hold, -⟩
      · exact .inr ⟨rfl, trivial, rfl, rfl, fun _ => id, q, h.reserved i s q hs hphase, rfl⟩
      · exact .inl ⟨hold, fun hi => absurd hi (hout row hold)⟩
  · cases hnext

/-- The step lemma. -/
theorem FleetOk.step {action : FleetAction} (h : FleetOk cfg d)
    (hstep : FleetStep cfg d action d') : FleetOk cfg d' := by
  unfold FleetStep at hstep
  cases action with
  | tick now =>
      simp only [Fleet.next] at hstep
      split at hstep
      · rename_i hle
        cases hstep
        exact h.tick hle
      · cases hstep
  | database rd now call => exact h.database hstep
  | connect i opening =>
      simp only [Fleet.next] at hstep
      split at hstep
      · rename_i hi
        cases hstep
        exact h.connect hi
      · cases hstep
  | advance i => exact h.advance hstep
  | acquire i rd now => exact h.acquire hstep
  | register i admitted => exact h.register hstep
  | dispatch p e =>
      simp only [Fleet.next] at hstep
      split at hstep
      · rename_i he
        cases hstep
        exact h.dispatch he
      · cases hstep
  | detach i =>
      cases hstep
      exact h.detached ((h.managers _).detachConnection i) fun row hmem =>
        (mem_detachConnection.mp hmem).1
  | closeAll p =>
      cases hstep
      exact h.detached (.closeAll _) fun row hmem => absurd hmem Table.not_mem_empty
  | leave i =>
      obtain ⟨s, hs, rfl⟩ := Option.map_eq_some_iff.mp hstep
      refine h.moved hs ((h.managers _).detachConnection i) rfl nofun trivial nofun
        fun row hmem => ?_
      obtain ⟨hold, hne⟩ := mem_detachConnection.mp hmem
      exact .inl ⟨hold, fun hi => absurd hi hne⟩

theorem FleetReachable.ok (h : FleetReachable cfg d) : FleetOk cfg d :=
  Reachable.invariant (fun _ => .start) (fun _ _ _ ht hstep => ht.step hstep) h

/-- Of a ruling `c` announced at `b`: once the relay of its process has dispatched `b`, and
as long as this ruling and every later one on the same matter keep sessions out, no
session the matter covers that has finished its check is registered; and a session
admitted after a later ruling is left alone by the dispatch of `b`. -/
theorem closed_by_check_or_relay {c b : Nat} {k : Matter} {v : Verdict}
    (hreach : FleetReachable cfg d) (hruling : d.rulings[c]? = some (k, v))
    (hat : d.ruledAt[c]? = some b) (hs : d.sessions i = some s) :
    (b ∈ (d.processes (cfg.host i)).dispatched →
      (∀ (c' : Nat) v', c ≤ c' → d.rulings[c']? = some (k, v') → v'.Bars d.now) →
      s.phase.Finished → k.Covers s.opening → ¬ (d.manager (cfg.host i)).Registered i) ∧
    ∀ row ∈ (d.manager (cfg.host i)).metadata, row.socket = i →
      ∀ (c' u q : Nat), c < c' → d.ruledAt[c']? = some u → row.afterSequence = some q → u ≤ q →
      ∀ p e d', e.sequence = b → FleetStep cfg d (.dispatch p e) d' →
        row ∈ (d'.manager (cfg.host i)).metadata := by
  have h := hreach.ok
  refine ⟨fun hdispatched hupheld hfinished hcovers hregistered => ?_, ?_⟩
  · obtain ⟨row, hrow, rfl⟩ := Manager.registered_iff.mp hregistered
    obtain ⟨-, x, q, hx, hplaced⟩ := h.rows _ row hrow
    cases hs.symm.trans hx
    have hadmitted := hplaced.admitted
    have hready : s.phase = .ready := by
      cases hphase : s.phase with
      | ready => rfl
      | _ =>
          rw [hphase] at hfinished hadmitted
          first
            | exact absurd hfinished id
            | exact absurd hadmitted id
    have hhas : s.phase.HasChecked k := by
      rw [hready]
      cases k <;> trivial
    have hlt := h.cleared _ b hdispatched c k v hruling hat
      (hupheld c v (Nat.le_refl c) hruling) row hrow s hs hcovers hhas
    have hnamed : k.Named := h.ledger.named (k, v) (List.mem_of_getElem? hruling)
    obtain ⟨c', v', hle, hruling', hopen⟩ :=
      (h.informed _ s hs).standing hready hcovers hnamed hruling hlt
    exact hopen (hupheld c' v' hle hruling')
  · intro row hrow hi c' u q hlater hu hafter hle p e d' hseq hstep
    have hlt : b < u := by
      obtain ⟨hc, hbc⟩ := List.getElem?_eq_some_iff.mp hat
      obtain ⟨hc', huc⟩ := List.getElem?_eq_some_iff.mp hu
      rw [← hbc, ← huc]
      exact List.pairwise_iff_getElem.mp h.ledger.increasing c c' hc hc' hlater
    simp only [FleetStep, Fleet.next] at hstep
    split at hstep
    · cases hstep
      rw [Fleet.manager_setDispatched, Fleet.manager_setManager]
      split
      · rename_i hp
        subst hp
        exact mem_dispatch_of_le (h.managers _) hrow hafter (hseq ▸ hlt.le.trans hle)
      · exact hrow
    · cases hstep

end Steps

/-! ## One run -/

/-- The state after a sequence of actions, skipping those that are not possible. -/
def Fleet.run (cfg : FleetConfig) (actions : List FleetAction) (d : Fleet) : Fleet :=
  actions.foldl (fun d action => (d.next cfg action).getD d) d

theorem Fleet.run_reach (cfg : FleetConfig) (actions : List FleetAction) (d : Fleet) :
    Reach (FleetStep cfg) d (d.run cfg actions) := by
  induction actions generalizing d with
  | nil => exact .refl
  | cons action rest ih =>
      refine Run.trans ?_ (ih ((d.next cfg action).getD d))
      cases hnext : d.next cfg action with
      | none => exact .refl
      | some d' => exact .tail action .refl trivial hnext

/-- The configuration of the worked example: every socket at one process. -/
def oneNode : FleetConfig where
  registry :=
    { store := { maxRooms := 3, maxStoredMessages := 10, maxStoredMessagesPerRoom := 5 }
      maxConnections := 4
      maxConnectionsPerRoom := 2
      connections_bounds := twoOfFour_bounds
      lease_bounds := halfMinute_bounds
      timeout_bounds := eightSeconds_bounds }
  limits := { maxConnections := 4, maxPerRoom := 2 }
  instanceId _ := "node-1"
  host _ := 0

def adaJoins : Opening where
  roomId := "general"
  username := "ada"
  subject := some "ada"
  isAdmin := false
  permissions := ["room:read"]
  connectionId := "socket-1"

/-- A call that begins and commits at one instant. -/
def FleetAction.at (now : Timestamp) (n : Nat) (call : RegistryCall) : FleetAction :=
  .database (.fixed now n) now call

def setBan (bannedForSeconds : Nat) : RegistryCall :=
  .setMemberModeration "general" "ada"
    { mutedForSeconds := none, bannedForSeconds := some bannedForSeconds } "admin"

/-- A session opens, up to its end, behind sequence `n`. -/
def opens (i n : Nat) (now : Timestamp) : List FleetAction :=
  [.connect i adaJoins, .advance i, .advance i, .advance i, .acquire i (.fixed now n) now,
    .register i true, .advance i, .advance i, .advance i]

/-- The event of the ban. -/
def banEvent : RealtimeEvent ConnectionEvent :=
  ⟨40, "general", .moderationUpdated "ada" (some (4 + seconds 60)), 4⟩

/-- A session is ready when its subject is banned, and the relay closes it. -/
def bannedWhileReady : List FleetAction :=
  [.at 1 10 (.createRoom
        { name := "General", id := some ⟨"general", matchesRoomId_general⟩ } "admin"),
    .at 2 20 (.onInstance (.claim "node-1" 30 none))] ++
  opens 0 30 3 ++ [.at 4 40 (setBan 60), .dispatch 0 banEvent]

/-- The ban is lifted, and the subject comes back. -/
def backAgain : List FleetAction :=
  bannedWhileReady ++ [.at 5 50 (setBan 0), .leave 0, .at 6 60 (.release "socket-1" "node-1")] ++
    opens 1 70 7

theorem closed_by_check_or_relay_backAgain :
    ¬ ((Fleet.run oneNode bannedWhileReady {}).manager 0).Registered 0 ∧
      ∀ d', FleetStep oneNode (Fleet.run oneNode backAgain {}) (.dispatch 0 banEvent) d' →
        adaJoins.metadata 1 (some 70) ∈ (d'.manager 0).metadata := by
  have hreach : ∀ actions, FleetReachable oneNode (Fleet.run oneNode actions {}) := fun actions =>
    ⟨{}, ⟨{}, .start, rfl⟩, Fleet.run_reach oneNode actions {}⟩
  refine ⟨?_, ?_⟩
  · have hs : (Fleet.run oneNode bannedWhileReady {}).sessions 0 = some ⟨adaJoins, .ready, 0, 0⟩ := by
      decide +kernel
    have hrulings : (Fleet.run oneNode bannedWhileReady {}).rulings =
        [(.member "general" "ada", .banned (some (4 + seconds 60)))] := by decide +kernel
    have hnow : (Fleet.run oneNode bannedWhileReady {}).now = 4 := by decide +kernel
    have hruling : (Fleet.run oneNode bannedWhileReady {}).rulings[0]? =
        some (.member "general" "ada", .banned (some (4 + seconds 60))) := by
      rw [hrulings]
      rfl
    refine (closed_by_check_or_relay (hreach _) hruling (b := 40) (by decide +kernel) hs).1
      (by decide +kernel) ?_ trivial ⟨rfl, rfl, rfl⟩
    intro c' v' _ hlater
    rw [hrulings] at hlater
    cases c' with
    | zero =>
        cases hlater
        rw [hnow]
        exact ⟨_, rfl, by decide⟩
    | succ c' => cases hlater
  · intro d' hstep
    have hs : (Fleet.run oneNode backAgain {}).sessions 1 = some ⟨adaJoins, .ready, 2, 2⟩ := by
      decide +kernel
    have hrows : ((Fleet.run oneNode backAgain {}).manager 0).metadata.rows =
        [adaJoins.metadata 1 (some 70)] := by decide +kernel
    have hmem : adaJoins.metadata 1 (some 70) ∈
        ((Fleet.run oneNode backAgain {}).manager 0).metadata := by
      change _ ∈ ((Fleet.run oneNode backAgain {}).manager 0).metadata.rows
      rw [hrows]
      exact List.mem_singleton_self _
    exact (closed_by_check_or_relay (hreach _) (c := 0) (b := 40) (k := .member "general" "ada")
      (v := .banned (some (4 + seconds 60))) (by decide +kernel) (by decide +kernel) hs).2 _ hmem rfl
      1 50 70 (by decide) (by decide +kernel) rfl (by decide) 0 banEvent d' rfl hstep

end Sockets
end ChatEngine
