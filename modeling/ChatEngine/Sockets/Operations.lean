import ChatEngine.Lib.Trail
import ChatEngine.Sockets.Ordering

/-!
# The operations of the connection manager

Every call of a method of `ConnectionManager` as an operation of its own: its section under the
manager's lock, and then what it does socket by socket under their operation locks, await by await.

* `Activity`, what an operation is doing for one socket;
* `Deed`, what has been done, with the operation that did it;
* `Operations.next`, every method and every await as a step; a send or a close that is awaited may
  go through, raise, run out of time or be cancelled;
* `Deed.Heeds`: a socket is detached once, only the operation that detached it closes it, once,
  and afterwards sends to it;
* `manager_structure`, what holds in every reachable state.
-/

namespace ChatEngine
namespace Sockets

open Lib

/-- A call of one of the methods. -/
abbrev Operation := Nat

/-- What an operation is doing for one socket.  Before `sending`, `activating` and `closing` go
on they wait for the operation lock of the socket, and `transmitting`, `draining`, `notifying` and
`shutting` hold it.  A shielded close cannot be cancelled. -/
inductive Activity where
  | sending
  | transmitting
  | activating
  | draining (event : PendingEvent)
  | dropping
  | closing (shielded notified : Bool)
  | notifying (shielded : Bool)
  | shutting (shielded : Bool)
  deriving DecidableEq

/-- What is done: a socket is registered or detached, `send_json` or `close` is called on it. -/
inductive Deed where
  | registered (s : Socket)
  | detached (o : Operation) (s : Socket)
  | sends (o : Operation) (s : Socket)
  | closes (o : Operation) (s : Socket)
  deriving DecidableEq

/-- The manager, the operations in progress, the operation locks, the number of operations so far
and what they have done. -/
structure Operations where
  manager : Manager := {}
  activities : Operation → Socket → Option Activity := fun _ _ => none
  lock : Socket → Option Operation := fun _ => none
  made : Nat := 0
  trace : List Deed := []

namespace Operations

variable (d : Operations)

/-- The next operation executes its section: it detaches sockets, and takes up activities. -/
def begin (m : Manager) (detached : List Socket) (activities : Socket → Option Activity) :
    Operations :=
  { d with
    manager := m
    activities := Function.update d.activities d.made activities
    made := d.made + 1
    trace := d.trace ++ detached.map (.detached d.made) }

/-- The activity of the operation for the socket goes on, with the lock in someone's hands. -/
def act (o : Operation) (s : Socket) (holder : Option Operation) (next : Option Activity)
    (deeds : List Deed) : Operations :=
  { d with
    activities := Function.update d.activities o (Function.update (d.activities o) s next)
    lock := Function.update d.lock s holder
    trace := d.trace ++ deeds }

def withManager (m : Manager) : Operations := { d with manager := m }

/-- The socket, where it is registered. -/
def standing (s : Socket) : List Socket := if d.manager.Registered s then [s] else []

/-- `register`, for a socket that has not been registered before. -/
def register (caps : ManagerLimits) (row : ConnectionMetadata) (admitted : Bool) :
    Option Operations :=
  if .registered row.socket ∈ d.trace then none
  else
    let outcome := Sockets.register caps row.opened admitted d.manager
    some
      { d with
        manager := outcome.2
        made := d.made + 1
        trace := d.trace ++ if outcome.1 = true then [.registered row.socket] else [] }

/-- The sockets are detached, and the operation is to close them. -/
def dismiss (m : Manager) (sockets : List Socket) (shielded notified : Bool) : Operations :=
  d.begin m sockets fun s => if s ∈ sockets then some (.closing shielded notified) else none

/-- `broadcast`, the sockets of the room in some order. -/
def broadcast (limits : PendingLimits) (e : Broadcast) (connections : List Socket) : Operations :=
  let delivery := Sockets.broadcast limits e connections d.manager
  let overflow := delivery.overflow.map ConnectionMetadata.socket
  d.begin delivery.manager overflow fun s =>
    if s ∈ overflow then some (.closing true false)
    else if s ∈ delivery.recipients then some .sending
    else none

/-- The section of `_activate` under the manager's lock. -/
def advance (o : Operation) (s : Socket) : Operations :=
  match activation s d.manager with
  | none => d.act o s none none []
  | some (none, m) => (d.act o s none none []).withManager m
  | some (some event, m) =>
      (d.act o s (some o) (some (.draining event)) [.sends o s]).withManager m

/-- The await of an activity goes through.  What `_notify_and_close` awaits may also raise. -/
def resume (o : Operation) (s : Socket) : Activity → Option Operations
  | .sending =>
      if d.lock s = none then
        if d.manager.Registered s then
          some (d.act o s (some o) (some .transmitting) [.sends o s])
        else some (d.act o s none none [])
      else none
  | .transmitting => some (d.act o s none none [])
  | .activating => if d.lock s = none then some (d.advance o s) else none
  | .draining event => some ((d.withManager (d.manager.settleSend s event)).advance o s)
  | .dropping =>
      if d.manager.Registered s then
        some ((d.act o s (d.lock s) (some (.closing true false)) [.detached o s]).withManager
          (detachConnection s d.manager))
      else some (d.act o s (d.lock s) none [])
  | .closing shielded notified =>
      if d.lock s = none then
        if notified = true then
          some (d.act o s (some o) (some (.notifying shielded)) [.sends o s])
        else some (d.act o s (some o) (some (.shutting shielded)) [.closes o s])
      else none
  | .notifying shielded => some (d.act o s (some o) (some (.shutting shielded)) [.closes o s])
  | .shutting _ => some (d.act o s none none [])

/-- The send raises or runs out of time: the socket is to be dropped. -/
def fail (o : Operation) (s : Socket) : Activity → Option Operations
  | .transmitting => some (d.act o s none (some .dropping) [])
  | .activating => some (d.act o s (d.lock s) (some .dropping) [])
  | .draining event =>
      some ((d.act o s none (some .dropping) []).withManager (d.manager.settleSend s event))
  | _ => none

/-- The caller is cancelled.  An activation still closes its socket. -/
def cancel (o : Operation) (s : Socket) : Activity → Option Operations
  | .sending => some (d.act o s (d.lock s) none [])
  | .transmitting => some (d.act o s none none [])
  | .activating => some (d.act o s (d.lock s) (some .dropping) [])
  | .draining event =>
      some ((d.act o s none (some .dropping) []).withManager (d.manager.settleSend s event))
  | .closing false _ => some (d.act o s (d.lock s) none [])
  | .notifying false => some (d.act o s none none [])
  | .shutting false => some (d.act o s none none [])
  | _ => none

end Operations

inductive OperationAction where
  | register (row : ConnectionMetadata) (admitted : Bool)
  | activate (s : Socket)
  | unregister (s : Socket)
  | send (s : Socket)
  | close (s : Socket) (notified : Bool)
  | broadcast (e : Broadcast) (connections : List Socket)
  | closeRoom (roomId : String) (eventSequence : Option Nat)
  | closeMember (roomId subject : String) (eventSequence : Option Nat)
  | closeAll
  | resume (o : Operation) (s : Socket)
  | fail (o : Operation) (s : Socket)
  | cancel (o : Operation) (s : Socket)

/-- The state after an action, where the action is possible. -/
def Operations.next (caps : ManagerLimits) (limits : PendingLimits) (d : Operations) :
    OperationAction → Option Operations
  | .register row admitted => d.register caps row admitted
  | .activate s =>
      some (d.begin d.manager [] fun s' =>
        if s' = s ∧ (d.manager.metadata.find? s).any (fun row => !row.broadcastReady) = true then
          some .activating
        else none)
  | .unregister s => some (d.begin (detachConnection s d.manager) (d.standing s) fun _ => none)
  | .send s =>
      some (d.begin d.manager [] fun s' =>
        if s' = s ∧ d.manager.Registered s then some .sending else none)
  | .close s notified =>
      some (d.dismiss (detachConnection s d.manager) (d.standing s) true notified)
  | .broadcast e connections =>
      if connections.Perm (d.manager.roomSockets e.roomId) then
        some (d.broadcast limits e connections)
      else none
  | .closeRoom roomId eventSequence =>
      let outcome := detachRoomConnections roomId none eventSequence d.manager
      some (d.dismiss outcome.2 outcome.1 false true)
  | .closeMember roomId subject eventSequence =>
      let outcome := detachRoomConnections roomId (some subject) eventSequence d.manager
      some (d.dismiss outcome.2 outcome.1 false true)
  | .closeAll =>
      some (d.dismiss (closeAll d.manager)
        (d.manager.metadata.rows.map ConnectionMetadata.socket) false false)
  | .resume o s => (d.activities o s).bind (d.resume o s)
  | .fail o s => (d.activities o s).bind (d.fail o s)
  | .cancel o s => (d.activities o s).bind (d.cancel o s)

/-- One step of the process. -/
def OperationStep (caps : ManagerLimits) (limits : PendingLimits) (d : Operations)
    (action : OperationAction) (d' : Operations) : Prop :=
  d.next caps limits action = some d'

/-- The states of every interleaving. -/
def OperationsReachable (caps : ManagerLimits) (limits : PendingLimits) : Operations → Prop :=
  Reachable (fun d => d = {}) (OperationStep caps limits)

/-- What a deed takes for granted about those before it. -/
def Deed.Heeds (before : List Deed) : Deed → Prop
  | .registered s => .registered s ∉ before
  | .detached _ s => .registered s ∈ before ∧ ∀ o', .detached o' s ∉ before
  | .sends o s => ∀ o', .detached o' s ∈ before → o' = o
  | .closes o s => .detached o s ∈ before ∧ ∀ o', .closes o' s ∉ before

/-! ## Sections of the manager -/

/-- The caps hold. -/
def Manager.Within (caps : ManagerLimits) (m : Manager) : Prop :=
  m.metadata.count ≤ caps.maxConnections ∧
    ∀ roomId, (m.roomSockets roomId).length ≤ caps.maxPerRoom

/-- A section detaches the sockets, which were registered, and no other. -/
structure Detaches (caps : ManagerLimits) (m : Manager) (sockets : List Socket) (m' : Manager) :
    Prop where
  ok : m'.Ok
  within : m'.Within caps
  nodup : sockets.Nodup
  registered : ∀ s ∈ sockets, m.Registered s
  rest : ∀ s, m'.Registered s ↔ m.Registered s ∧ s ∉ sockets

section Sections

variable {caps : ManagerLimits} {limits : PendingLimits} {m m' m'' : Manager} {s : Socket}

theorem Manager.Ok.roomSockets_nodup (h : m.Ok) (roomId : String) :
    (m.roomSockets roomId).Nodup := by
  cases hfind : m.rooms.find? roomId with
  | none =>
      rw [Manager.roomSockets_of_none hfind]
      exact List.nodup_nil
  | some room =>
      rw [Manager.roomSockets_of_find? hfind]
      exact h.nodup room (Table.find?_eq_some.mp hfind).1

/-- Fewer registrations keep the caps. -/
theorem Manager.Within.of_subset (h : m.Within caps) (hm : m.Ok) (hm' : m'.Ok)
    (hsub : ∀ row' ∈ m'.metadata, ∃ row ∈ m.metadata,
      row.socket = row'.socket ∧ row.roomId = row'.roomId) : m'.Within caps := by
  constructor
  · have hkeys : m'.metadata.keys ⊆ m.metadata.keys := by
      intro k hk
      obtain ⟨row', hrow', rfl⟩ := Table.mem_keys.mp hk
      obtain ⟨row, hrow, hsocket, -⟩ := hsub row' hrow'
      exact Table.mem_keys.mpr ⟨row, hrow, hsocket⟩
    have hlength := (List.subperm_of_subset m'.metadata.keys_nodup hkeys).length_le
    unfold Table.keys at hlength
    rw [List.length_map, List.length_map] at hlength
    exact hlength.trans h.1
  · intro roomId
    have hsockets : m'.roomSockets roomId ⊆ m.roomSockets roomId := by
      intro x hx
      obtain ⟨row', hrow', rfl, rfl⟩ := (hm'.mem_iff _ _).mp hx
      obtain ⟨row, hrow, hsocket, hroom⟩ := hsub row' hrow'
      exact (hm.mem_iff _ _).mpr ⟨row, hrow, hsocket, hroom⟩
    have hlength := (List.subperm_of_subset (hm'.roomSockets_nodup roomId) hsockets).length_le
    exact hlength.trans (h.2 roomId)

/-- A section that keeps some metadata and drops the rest. -/
theorem Detaches.of_metadata (hm : m.Ok) (hwithin : m.Within caps) (hm' : m'.Ok)
    {sockets : List Socket} (hnodup : sockets.Nodup) (hregistered : ∀ s ∈ sockets, m.Registered s)
    (hrows : ∀ row, row ∈ m'.metadata ↔ row ∈ m.metadata ∧ row.socket ∉ sockets) :
    Detaches caps m sockets m' where
  ok := hm'
  within := hwithin.of_subset hm hm' fun row hrow => ⟨row, ((hrows row).mp hrow).1, rfl, rfl⟩
  nodup := hnodup
  registered := hregistered
  rest := by
    intro s
    rw [Manager.registered_iff, Manager.registered_iff]
    constructor
    · rintro ⟨row, hrow, rfl⟩
      obtain ⟨hold, hkept⟩ := (hrows row).mp hrow
      exact ⟨⟨row, hold, rfl⟩, hkept⟩
    · rintro ⟨⟨row, hrow, rfl⟩, hkept⟩
      exact ⟨row, (hrows row).mpr ⟨hrow, hkept⟩, rfl⟩

theorem Detaches.refl (hm : m.Ok) (hwithin : m.Within caps) : Detaches caps m [] m :=
  .of_metadata hm hwithin hm List.nodup_nil nofun
    fun _ => (and_iff_left List.not_mem_nil).symm

theorem Detaches.trans {sockets more : List Socket} (h : Detaches caps m sockets m')
    (h' : Detaches caps m' more m'') : Detaches caps m (sockets ++ more) m'' where
  ok := h'.ok
  within := h'.within
  nodup := by
    refine h.nodup.append h'.nodup ?_
    intro s hs hs'
    exact ((h.rest s).mp (h'.registered s hs')).2 hs
  registered := by
    intro s hs
    rcases List.mem_append.mp hs with hs | hs
    · exact h.registered s hs
    · exact ((h.rest s).mp (h'.registered s hs)).1
  rest := by
    intro s
    rw [h'.rest, h.rest, List.mem_append, not_or, and_assoc]

/-- Metadata rewritten in place. -/
theorem detaches_update (hm : m.Ok) (hwithin : m.Within caps)
    {f : ConnectionMetadata → ConnectionMetadata} (hf : ∀ r, (f r).socket = r.socket)
    (hroom : ∀ r, (f r).roomId = r.roomId) (bytes : Int) :
    Detaches caps m [] (m.update s f hf bytes) where
  ok := hm.update hf hroom bytes
  within := by
    refine hwithin.of_subset hm (hm.update hf hroom bytes) ?_
    intro row hrow
    rcases Manager.mem_update.mp hrow with ⟨hold, -⟩ | ⟨r, hr, -, rfl⟩
    · exact ⟨row, hold, rfl, rfl⟩
    · exact ⟨r, hr, (hf r).symm, (hroom r).symm⟩
  nodup := List.nodup_nil
  registered := nofun
  rest := by
    intro s'
    rw [and_iff_left List.not_mem_nil]
    unfold Manager.Registered
    rw [find?_update]
    split
    · rw [Option.isSome_map]
    · exact Iff.rfl

theorem detaches_connection (hm : m.Ok) (hwithin : m.Within caps) (hs : m.Registered s) :
    Detaches caps m [s] (detachConnection s m) := by
  refine .of_metadata hm hwithin (hm.detachConnection s) (List.nodup_singleton s) ?_ ?_
  · intro x hx
    rw [List.mem_singleton.mp hx]
    exact hs
  · intro row
    rw [mem_detachConnection, List.mem_singleton]

theorem detachConnection_unregistered (hs : ¬ m.Registered s) : detachConnection s m = m := by
  unfold detachConnection
  unfold Manager.Registered at hs
  rw [Option.not_isSome_iff_eq_none.mp hs]

theorem detaches_standing {d : Operations} (hm : d.manager.Ok) (hwithin : d.manager.Within caps) :
    Detaches caps d.manager (d.standing s) (detachConnection s d.manager) := by
  unfold Operations.standing
  split
  · rename_i hs
    exact detaches_connection hm hwithin hs
  · rename_i hs
    rw [detachConnection_unregistered hs]
    exact .refl hm hwithin

theorem detaches_room (hm : m.Ok) (hwithin : m.Within caps) (roomId : String)
    (subject : Option String) (eventSequence : Option Nat) :
    Detaches caps m (detachRoomConnections roomId subject eventSequence m).1
      (detachRoomConnections roomId subject eventSequence m).2 := by
  have hsublist : (m.selected roomId subject eventSequence).Sublist m.metadata.rows :=
    List.filter_sublist
  refine .of_metadata hm hwithin (hm.detachRoomConnections subject eventSequence) ?_ ?_ ?_
  · exact m.metadata.keys_nodup.sublist (hsublist.map _)
  · intro x hx
    obtain ⟨row, hrow, rfl⟩ := List.mem_map.mp hx
    exact Manager.registered_iff.mpr ⟨row, hsublist.subset hrow, rfl⟩
  · intro row
    unfold detachRoomConnections
    rw [Manager.discard_metadata]
    exact Table.mem_deleteWhere

theorem detaches_all (hm : m.Ok) (hwithin : m.Within caps) :
    Detaches caps m (m.metadata.rows.map ConnectionMetadata.socket) (closeAll m) := by
  refine .of_metadata hm hwithin (Manager.Ok.closeAll m) m.metadata.keys_nodup ?_ ?_
  · intro x hx
    obtain ⟨row, hrow, rfl⟩ := List.mem_map.mp hx
    exact Manager.registered_iff.mpr ⟨row, hrow, rfl⟩
  · intro row
    constructor
    · intro hrow
      exact absurd hrow Table.not_mem_empty
    · rintro ⟨hrow, hout⟩
      exact absurd (List.mem_map.mpr ⟨row, hrow, rfl⟩) hout

/-- One turn of the loop of `broadcast` detaches its socket or none. -/
theorem detaches_offer {e : Broadcast} {delivery : Delivery} (hm : delivery.manager.Ok)
    (hwithin : delivery.manager.Within caps) :
    ∃ more : List ConnectionMetadata,
      (offer limits e delivery s).overflow = delivery.overflow ++ more ∧
      Detaches caps delivery.manager (more.map ConnectionMetadata.socket)
        (offer limits e delivery s).manager := by
  cases hfind : delivery.manager.metadata.find? s with
  | none =>
      rw [offer_unregistered hfind]
      exact ⟨[], (List.append_nil _).symm, .refl hm hwithin⟩
  | some row =>
      obtain rfl := (Table.find?_eq_some.mp hfind).2
      rcases @offer_cases limits row e delivery hfind with ⟨-, hsame⟩ | ⟨-, -, hsame⟩ |
        ⟨-, -, hgone⟩ | ⟨event, -, -, -, -, hqueued⟩
      · rw [hsame]
        exact ⟨[], (List.append_nil _).symm, .refl hm hwithin⟩
      · rw [hsame]
        exact ⟨[], (List.append_nil _).symm, .refl hm hwithin⟩
      · rw [hgone]
        have hregistered : delivery.manager.Registered row.socket := by
          unfold Manager.Registered
          rw [hfind]
          rfl
        exact ⟨[row], rfl, detaches_connection hm hwithin hregistered⟩
      · rw [hqueued]
        refine ⟨[], (List.append_nil _).symm, ?_⟩
        exact detaches_update (f := ConnectionMetadata.queue event) hm hwithin (fun _ => rfl)
          (fun _ => rfl) _

theorem detaches_broadcast (hm : m.Ok) (hwithin : m.Within caps) (e : Broadcast)
    (connections : List Socket) :
    Detaches caps m
      ((Sockets.broadcast limits e connections m).overflow.map ConnectionMetadata.socket)
      (Sockets.broadcast limits e connections m).manager := by
  -- over the loop, from any delivery that has detached its overflow
  have hloop : ∀ delivery : Delivery,
      Detaches caps m (delivery.overflow.map ConnectionMetadata.socket) delivery.manager →
      Detaches caps m
        ((connections.foldl (offer limits e) delivery).overflow.map ConnectionMetadata.socket)
        (connections.foldl (offer limits e) delivery).manager := by
    induction connections with
    | nil => exact fun delivery h => h
    | cons connection rest ih =>
        intro delivery h
        apply ih
        obtain ⟨more, hoverflow, hmore⟩ :=
          @detaches_offer caps limits connection e delivery h.ok h.within
        rw [hoverflow, List.map_append]
        exact h.trans hmore
  exact hloop { manager := m } (.refl hm hwithin)

theorem detaches_activation (hm : m.Ok) (hwithin : m.Within caps) {taken : Option PendingEvent}
    (h : activation s m = some (taken, m')) : Detaches caps m [] m' ∧ m.Registered s := by
  unfold activation at h
  obtain ⟨row, hrow, htaken⟩ := Option.map_eq_some_iff.mp h
  have hregistered : m.Registered s := by
    unfold Manager.Registered
    rw [hrow]
    rfl
  refine ⟨?_, hregistered⟩
  split at htaken
  · obtain ⟨-, rfl⟩ := Prod.mk.inj htaken
    exact detaches_update (f := ConnectionMetadata.goLive) hm hwithin (fun _ => rfl)
      (fun _ => rfl) _
  · rename_i event rest _
    obtain ⟨-, rfl⟩ := Prod.mk.inj htaken
    exact detaches_update (f := ConnectionMetadata.take event rest) hm hwithin (fun _ => rfl)
      (fun _ => rfl) _

theorem detaches_settleSend (hm : m.Ok) (hwithin : m.Within caps) (event : PendingEvent) :
    Detaches caps m [] (m.settleSend s event) := by
  unfold Manager.settleSend
  split
  · exact detaches_update (f := ConnectionMetadata.settle event) hm hwithin (fun _ => rfl)
      (fun _ => rfl) _
  · exact { Detaches.refl hm hwithin with ok := ⟨hm.nonempty, hm.nodup, hm.mem_iff⟩ }

/-- `register` keeps the caps it is given. -/
theorem Manager.Within.register (h : m.Within caps) (hm : m.Ok) (row : ConnectionMetadata)
    (admitted : Bool) : (Sockets.register caps row admitted m).2.Within caps := by
  have hregister := @register_ok m caps row admitted
  rcases hregister with
    ⟨-, hsame⟩ | ⟨htrue, -, -, hcount, hroom, hupsert⟩
  · refine h.of_subset hm (hm.register admitted) ?_
    intro r hr
    rw [hsame] at hr
    exact ⟨r, hr, rfl, rfl⟩
  · constructor
    · rw [hupsert]
      exact (Table.count_upsert_le _ _).trans hcount
    · intro roomId
      unfold Sockets.register at htrue ⊢
      split at htrue
      · cases htrue
      · rename_i hfresh
        split at htrue
        · cases htrue
        · rename_i hadmitted
          split at htrue
          · cases htrue
          · rename_i hcapacity
            rw [if_neg hfresh, if_neg hadmitted, if_neg hcapacity]
            show (Manager.roomSockets _ roomId).length ≤ _
            unfold Manager.roomSockets
            rw [Table.find?_upsert]
            split
            · show (m.roomSockets row.roomId ++ [row.socket]).length ≤ _
              rw [List.length_append, List.length_singleton]
              exact hroom
            · exact h.2 roomId

end Sections

/-! ## The invariant -/

/-- The activity leads to a close of the socket, or is one. -/
def Activity.Closes : Activity → Prop
  | .closing _ _ => True
  | .notifying _ => True
  | .shutting _ => True
  | _ => False

/-- The close is still to come. -/
def Activity.Early : Activity → Prop
  | .closing _ _ => True
  | .notifying _ => True
  | _ => False

theorem Activity.Early.closes {a : Activity} (h : a.Early) : a.Closes := by
  cases a with
  | closing => trivial
  | notifying => trivial
  | _ => exact h.elim

/-- The manager agrees with the trace, every deed heeds those before it, and an operation closes
what it has detached. -/
structure OperationsOk (caps : ManagerLimits) (d : Operations) : Prop where
  ok : d.manager.Ok
  within : d.manager.Within caps
  registered : ∀ s, d.manager.Registered s ↔
    .registered s ∈ d.trace ∧ ∀ o, .detached o s ∉ d.trace
  orderly : Orderly Deed.Heeds d.trace
  current : ∀ o s a, d.activities o s = some a → o < d.made
  past : ∀ o s, .detached o s ∈ d.trace → o < d.made
  closing : ∀ o s a, d.activities o s = some a → a.Closes → .detached o s ∈ d.trace
  early : ∀ o s a, d.activities o s = some a → a.Early → ∀ o', .closes o' s ∉ d.trace

section Invariant

variable {caps : ManagerLimits} {limits : PendingLimits} {d d' : Operations} {m : Manager}
variable {o o' : Operation} {s : Socket} {sockets : List Socket} {trace deeds : List Deed}

theorem OperationsOk.start : OperationsOk caps {} where
  ok := Manager.Ok.start
  within := ⟨Nat.zero_le _, fun _ => Nat.zero_le _⟩
  registered s := by
    constructor
    · intro h
      cases h
    · rintro ⟨h, -⟩
      cases h
  orderly := Orderly.nil
  current _ _ _ h := by cases h
  past _ _ h := by cases h
  closing _ _ _ h := by cases h
  early _ _ _ h := by cases h

/-- One operation has detached the socket. -/
theorem detacher_unique (h : Orderly Deed.Heeds trace) (ho : .detached o s ∈ trace)
    (ho' : .detached o' s ∈ trace) : o = o' := by
  rcases h.eq_or_before ho ho' with heq | ⟨before, hrule, hmem⟩ | ⟨before, hrule, hmem⟩
  · cases heq
    rfl
  · exact absurd hmem (hrule.2 o')
  · exact absurd hmem (hrule.2 o)

/-- Only what has been registered is detached. -/
theorem registered_of_detached (h : Orderly Deed.Heeds trace) (ho : .detached o s ∈ trace) :
    .registered s ∈ trace := by
  obtain ⟨before, after, rfl⟩ := List.append_of_mem ho
  exact List.mem_append_left _ (h before _ after rfl).1

/-- Sockets detached one after the other by one operation. -/
theorem orderly_detached (h : Orderly Deed.Heeds trace) (hnodup : sockets.Nodup)
    (hregistered : ∀ s ∈ sockets, .registered s ∈ trace ∧ ∀ o, .detached o s ∉ trace) :
    Orderly Deed.Heeds (trace ++ sockets.map (.detached o)) := by
  apply h.appendAll
  intro front a rest heq
  obtain ⟨before, after', rfl, rfl, hafter⟩ := List.map_eq_append_iff.mp heq
  obtain ⟨s, after, rfl, rfl, rfl⟩ := List.map_eq_cons_iff.mp hafter
  obtain ⟨hin, hout⟩ := hregistered s (List.mem_append_right _ List.mem_cons_self)
  refine ⟨List.mem_append_left _ hin, fun o' hmem => ?_⟩
  rcases List.mem_append.mp hmem with hold | hnew
  · exact hout o' hold
  · obtain ⟨s', hs', hsame⟩ := List.mem_map.mp hnew
    cases hsame
    exact (List.nodup_append.mp hnodup).2.2 s hs' s List.mem_cons_self rfl

/-- Who is registered after a section, by the trace with what the section has detached. -/
theorem OperationsOk.registered_after (h : OperationsOk caps d)
    (hdetaches : Detaches caps d.manager sockets m)
    (hdeeds : ∀ o' s', .detached o' s' ∈ deeds ↔ o' = o ∧ s' ∈ sockets)
    (hnone : ∀ s', .registered s' ∉ deeds) (s : Socket) :
    m.Registered s ↔
      .registered s ∈ d.trace ++ deeds ∧ ∀ o', .detached o' s ∉ d.trace ++ deeds := by
  rw [hdetaches.rest, h.registered]
  simp only [List.mem_append, hnone, or_false, not_or, forall_and, and_assoc]
  refine and_congr_right fun _ => and_congr_right fun _ => ?_
  constructor
  · intro hout o' hmem
    exact hout ((hdeeds o' s).mp hmem).2
  · intro hout hin
    exact hout o ((hdeeds o s).mpr ⟨rfl, hin⟩)

/-- A new operation has executed its section. -/
theorem OperationsOk.begin (h : OperationsOk caps d)
    (hdetaches : Detaches caps d.manager sockets m) {activities : Socket → Option Activity}
    (hcloses : ∀ s a, activities s = some a → a.Closes → s ∈ sockets) :
    OperationsOk caps (d.begin m sockets activities) := by
  have hself : (d.begin m sockets activities).activities d.made = activities :=
    Function.update_self _ _ _
  have hother : ∀ o, o ≠ d.made →
      (d.begin m sockets activities).activities o = d.activities o :=
    fun _ hne => Function.update_of_ne hne _ _
  have hdeeds : ∀ o' s', .detached o' s' ∈ sockets.map (Deed.detached d.made) ↔
      o' = d.made ∧ s' ∈ sockets := by
    intro o' s'
    rw [List.mem_map]
    constructor
    · rintro ⟨x, hx, hsame⟩
      cases hsame
      exact ⟨rfl, hx⟩
    · rintro ⟨rfl, hs'⟩
      exact ⟨s', hs', rfl⟩
  have hquiet : ∀ deed, deed ∈ sockets.map (Deed.detached d.made) →
      ∃ s', deed = .detached d.made s' := by
    intro deed hdeed
    obtain ⟨s', -, rfl⟩ := List.mem_map.mp hdeed
    exact ⟨s', rfl⟩
  constructor
  · exact hdetaches.ok
  · exact hdetaches.within
  · intro s
    apply h.registered_after hdetaches hdeeds
    intro s' hmem
    obtain ⟨_, heq⟩ := hquiet _ hmem
    cases heq
  · exact orderly_detached h.orderly hdetaches.nodup fun s hs =>
      (h.registered s).mp (hdetaches.registered s hs)
  · intro o s a ha
    by_cases ho : o = d.made
    · rw [ho]
      exact Nat.lt_succ_self _
    · rw [hother o ho] at ha
      exact Nat.lt_succ_of_lt (h.current o s a ha)
  · intro o s hmem
    rcases List.mem_append.mp hmem with hold | hnew
    · exact Nat.lt_succ_of_lt (h.past o s hold)
    · rw [((hdeeds o s).mp hnew).1]
      exact Nat.lt_succ_self _
  · intro o s a ha hcloses'
    by_cases ho : o = d.made
    · subst ho
      rw [hself] at ha
      exact List.mem_append_right _ ((hdeeds _ s).mpr ⟨rfl, hcloses s a ha hcloses'⟩)
    · rw [hother o ho] at ha
      exact List.mem_append_left _ (h.closing o s a ha hcloses')
  · intro o s a ha hearly o' hmem
    have hold : .closes o' s ∈ d.trace := by
      rcases List.mem_append.mp hmem with hold | hnew
      · exact hold
      · obtain ⟨_, heq⟩ := hquiet _ hnew
        cases heq
    by_cases ho : o = d.made
    · subst ho
      rw [hself] at ha
      -- the socket was registered, and nobody closes what is registered
      have hstanding := hdetaches.registered s (hcloses s a ha hearly.closes)
      obtain ⟨before, after, htrace⟩ := List.append_of_mem hold
      have hdetached := (h.orderly before _ after htrace).1
      apply ((h.registered s).mp hstanding).2 o'
      rw [htrace]
      exact List.mem_append_left _ hdetached
    · rw [hother o ho] at ha
      exact h.early o s a ha hearly o' hold

/-- An activity goes on; what it detaches and closes is its own socket. -/
theorem OperationsOk.act (h : OperationsOk caps d) {holder : Option Operation}
    {a : Activity} {next : Option Activity} (ha : d.activities o s = some a)
    (hdetaches : Detaches caps d.manager sockets m)
    (horderly : Orderly Deed.Heeds (d.trace ++ deeds))
    (hdetached : ∀ o' s', .detached o' s' ∈ deeds ↔ o' = o ∧ s' ∈ sockets)
    (hregistered : ∀ s', .registered s' ∉ deeds)
    (hclosed : ∀ o' s', .closes o' s' ∈ deeds → o' = o ∧ s' = s)
    (hcloses : ∀ b, next = some b → b.Closes → .detached o s ∈ d.trace ++ deeds)
    (hearly : ∀ b, next = some b → b.Early → ∀ o', .closes o' s ∉ d.trace ++ deeds) :
    OperationsOk caps ((d.act o s holder next deeds).withManager m) := by
  have hactivities : ∀ o₁ s₁ b,
      ((d.act o s holder next deeds).withManager m).activities o₁ s₁ = some b →
      (o₁ = o ∧ s₁ = s ∧ next = some b) ∨ (¬ (o₁ = o ∧ s₁ = s) ∧ d.activities o₁ s₁ = some b) := by
    intro o₁ s₁ b hb
    have hb' : Function.update d.activities o (Function.update (d.activities o) s next) o₁ s₁ =
        some b := hb
    by_cases ho : o₁ = o
    · subst ho
      rw [Function.update_self] at hb'
      by_cases hs : s₁ = s
      · subst hs
        rw [Function.update_self] at hb'
        exact .inl ⟨rfl, rfl, hb'⟩
      · rw [Function.update_of_ne hs] at hb'
        exact .inr ⟨fun hsame => hs hsame.2, hb'⟩
    · rw [Function.update_of_ne ho] at hb'
      exact .inr ⟨fun hsame => ho hsame.1, hb'⟩
  constructor
  · exact hdetaches.ok
  · exact hdetaches.within
  · exact h.registered_after hdetaches hdetached hregistered
  · exact horderly
  · intro o₁ s₁ b hb
    rcases hactivities o₁ s₁ b hb with ⟨rfl, -, -⟩ | ⟨-, hold⟩
    · exact h.current _ _ _ ha
    · exact h.current _ _ _ hold
  · intro o₁ s₁ hmem
    rcases List.mem_append.mp hmem with hold | hnew
    · exact h.past _ _ hold
    · rw [((hdetached _ _).mp hnew).1]
      exact h.current _ _ _ ha
  · intro o₁ s₁ b hb hb'
    rcases hactivities o₁ s₁ b hb with ⟨rfl, rfl, hnext⟩ | ⟨-, hold⟩
    · exact hcloses b hnext hb'
    · exact List.mem_append_left _ (h.closing _ _ _ hold hb')
  · intro o₁ s₁ b hb hb' o' hmem
    rcases hactivities o₁ s₁ b hb with ⟨rfl, rfl, hnext⟩ | ⟨hother, hold⟩
    · exact hearly b hnext hb' o' hmem
    · rcases List.mem_append.mp hmem with hpast | hnew
      · exact h.early _ _ _ hold hb' o' hpast
      · -- the close is of the operation that has detached the socket, and this is another one
        obtain ⟨rfl, rfl⟩ := hclosed _ _ hnew
        obtain ⟨before, after, htrace⟩ := List.append_of_mem hmem
        have hmine : .detached o' s₁ ∈ d.trace ++ deeds := by
          have hbefore := (horderly before _ after htrace).1
          have hmore := List.mem_append_left (.closes o' s₁ :: after) hbefore
          rwa [← htrace] at hmore
        have htheirs := h.closing _ _ _ hold hb'.closes
        have hsame := detacher_unique horderly (List.mem_append_left deeds htheirs) hmine
        exact hother ⟨hsame, rfl⟩

/-- An activity goes on, and nothing is done. -/
theorem OperationsOk.quiet (h : OperationsOk caps d) {holder : Option Operation} {a : Activity}
    {next : Option Activity} (ha : d.activities o s = some a)
    (hdetaches : Detaches caps d.manager [] m) (hnext : ∀ b, next = some b → ¬ b.Closes) :
    OperationsOk caps ((d.act o s holder next []).withManager m) := by
  apply h.act ha hdetaches
  · rw [List.append_nil]
    exact h.orderly
  · intro o' s'
    simp only [List.not_mem_nil, and_false]
  · exact fun _ => List.not_mem_nil
  · intro o' s' hmem
    cases hmem
  · exact fun b hb hb' => absurd hb' (hnext b hb)
  · exact fun b hb hb' => absurd hb'.closes (hnext b hb)

/-- An activity calls `send_json`. -/
theorem OperationsOk.sends (h : OperationsOk caps d) {holder : Option Operation} {a : Activity}
    {next : Activity} (ha : d.activities o s = some a)
    (hdetaches : Detaches caps d.manager [] m)
    (hmay : ∀ o', .detached o' s ∈ d.trace → o' = o)
    (hcloses : next.Closes → a.Early) :
    OperationsOk caps ((d.act o s holder (some next) [.sends o s]).withManager m) := by
  apply h.act ha hdetaches (h.orderly.append (a := .sends o s) hmay)
  · intro o' s'
    simp only [List.mem_singleton, reduceCtorEq, List.not_mem_nil, and_false]
  · intro s' hmem
    cases List.mem_singleton.mp hmem
  · intro o' s' hmem
    cases List.mem_singleton.mp hmem
  · intro b hb hb'
    obtain rfl := Option.some.inj hb
    exact List.mem_append_left _ (h.closing _ _ _ ha (hcloses hb').closes)
  · intro b hb hb' o' hmem
    obtain rfl := Option.some.inj hb
    rcases List.mem_append.mp hmem with hold | hnew
    · exact h.early _ _ _ ha (hcloses hb'.closes) o' hold
    · cases List.mem_singleton.mp hnew

/-- An activity that is to close its socket calls `close` on it. -/
theorem OperationsOk.shuts (h : OperationsOk caps d) {holder : Option Operation} {a : Activity}
    (shielded : Bool) (ha : d.activities o s = some a) (hearly : a.Early) :
    OperationsOk caps (d.act o s holder (some (.shutting shielded)) [.closes o s]) := by
  have hdetached := h.closing _ _ _ ha hearly.closes
  apply h.act ha (.refl h.ok h.within)
  · exact h.orderly.append ⟨hdetached, h.early _ _ _ ha hearly⟩
  · intro o' s'
    simp only [List.mem_singleton, reduceCtorEq, List.not_mem_nil, and_false]
  · intro s' hmem
    cases List.mem_singleton.mp hmem
  · intro o' s' hmem
    cases List.mem_singleton.mp hmem
    exact ⟨rfl, rfl⟩
  · exact fun _ _ _ => List.mem_append_left _ hdetached
  · intro b hb hb'
    obtain rfl := Option.some.inj hb
    exact hb'.elim

/-- An activity drops its socket, which is registered. -/
theorem OperationsOk.drops (h : OperationsOk caps d) {holder : Option Operation} {a : Activity}
    (shielded notified : Bool) (ha : d.activities o s = some a) (hs : d.manager.Registered s) :
    OperationsOk caps
      ((d.act o s holder (some (.closing shielded notified)) [.detached o s]).withManager
        (detachConnection s d.manager)) := by
  obtain ⟨hin, hout⟩ := (h.registered s).mp hs
  apply h.act ha (detaches_connection h.ok h.within hs)
  · exact h.orderly.append ⟨hin, hout⟩
  · intro o' s'
    rw [List.mem_singleton, List.mem_singleton, Deed.detached.injEq]
  · intro s' hmem
    cases List.mem_singleton.mp hmem
  · intro o' s' hmem
    cases List.mem_singleton.mp hmem
  · exact fun _ _ _ => List.mem_append_right _ (List.mem_singleton_self _)
  · intro b _ _ o' hmem
    rcases List.mem_append.mp hmem with hold | hnew
    · -- nobody closes what is registered
      obtain ⟨before, after, htrace⟩ := List.append_of_mem hold
      apply hout o'
      rw [htrace]
      exact List.mem_append_left _ (h.orderly before _ after htrace).1
    · cases List.mem_singleton.mp hnew

/-- The socket is registered: nobody has detached it. -/
theorem OperationsOk.detached_of_registered (h : OperationsOk caps d) (hs : d.manager.Registered s)
    (o' : Operation) : .detached o' s ∈ d.trace → o' = o :=
  fun hmem => absurd hmem (((h.registered s).mp hs).2 o')

theorem OperationsOk.register (h : OperationsOk caps d) {row : ConnectionMetadata} {admitted : Bool}
    (hstep : d.register caps row admitted = some d') : OperationsOk caps d' := by
  unfold Operations.register at hstep
  split at hstep
  · cases hstep
  · rename_i hfresh
    obtain rfl := Option.some.inj hstep
    have hcurrent : ∀ o s a, d.activities o s = some a → o < d.made + 1 :=
      fun o s a ha => Nat.lt_succ_of_lt (h.current o s a ha)
    have hok : (Sockets.register caps row.opened admitted d.manager).2.Ok :=
      h.ok.register admitted
    have hwithin := h.within.register h.ok row.opened admitted
    have hregister := @register_ok d.manager caps row.opened admitted
    rcases hregister with
      ⟨hfalse, hsame⟩ | ⟨htrue, -, -, -, -, hupsert⟩
    · -- nothing is registered
      rw [if_neg (by rw [hfalse]; exact Bool.false_ne_true), List.append_nil]
      refine ⟨hok, hwithin, ?_, h.orderly, hcurrent, ?_, h.closing, h.early⟩
      · intro s
        rw [← h.registered]
        unfold Manager.Registered
        rw [hsame]
      · exact fun o s hmem => Nat.lt_succ_of_lt (h.past o s hmem)
    · rw [if_pos htrue]
      have hdetached : ∀ o s,
          .detached o s ∈ d.trace ++ [Deed.registered row.socket] ↔ .detached o s ∈ d.trace := by
        intro o s
        simp only [List.mem_append, List.mem_singleton, reduceCtorEq, or_false]
      refine ⟨hok, hwithin, ?_, h.orderly.append hfresh, hcurrent, ?_, ?_, ?_⟩
      · intro s
        show Manager.Registered _ s ↔ _
        unfold Manager.Registered
        rw [hupsert, Table.find?_upsert, show row.opened.socket = row.socket from rfl]
        simp only [hdetached, List.mem_append, List.mem_singleton, Deed.registered.injEq]
        by_cases hs : row.socket = s
        · subst hs
          rw [if_pos rfl]
          refine iff_of_true rfl ⟨.inr rfl, fun o hmem => hfresh ?_⟩
          exact registered_of_detached h.orderly hmem
        · rw [if_neg hs, or_iff_left fun heq => hs heq.symm]
          exact h.registered s
      · exact fun o s hmem => Nat.lt_succ_of_lt (h.past o s ((hdetached o s).mp hmem))
      · exact fun o s a ha ha' => (hdetached o s).mpr (h.closing o s a ha ha')
      · intro o s a ha ha' o' hmem
        rcases List.mem_append.mp hmem with hold | hnew
        · exact h.early o s a ha ha' o' hold
        · cases List.mem_singleton.mp hnew

theorem OperationsOk.advance (h : OperationsOk caps d) {a : Activity}
    (ha : d.activities o s = some a) : OperationsOk caps (d.advance o s) := by
  unfold Operations.advance
  split
  · exact h.quiet ha (.refl h.ok h.within) nofun
  · rename_i m hactivation
    exact h.quiet ha (detaches_activation h.ok h.within hactivation).1 nofun
  · rename_i event m hactivation
    obtain ⟨hdetaches, hs⟩ := detaches_activation h.ok h.within hactivation
    exact h.sends ha hdetaches (h.detached_of_registered hs) False.elim

/-- The manager of a state in progress settles a send. -/
theorem OperationsOk.settleSend (h : OperationsOk caps d) (s : Socket) (event : PendingEvent) :
    OperationsOk caps (d.withManager (d.manager.settleSend s event)) := by
  have hdetaches := detaches_settleSend (s := s) h.ok h.within event
  refine ⟨hdetaches.ok, hdetaches.within, ?_, h.orderly, h.current, h.past, h.closing, h.early⟩
  intro s'
  show (d.manager.settleSend s event).Registered s' ↔ _
  rw [hdetaches.rest, and_iff_left List.not_mem_nil]
  exact h.registered s'

theorem OperationsOk.resume (h : OperationsOk caps d) {a : Activity}
    (ha : d.activities o s = some a) (hstep : d.resume o s a = some d') : OperationsOk caps d' := by
  have hstays := Detaches.refl h.ok h.within
  cases a with
  | sending =>
      unfold Operations.resume at hstep
      dsimp only at hstep
      split at hstep
      · split at hstep
        · rename_i hs
          obtain rfl := Option.some.inj hstep
          exact h.sends ha hstays (h.detached_of_registered hs) False.elim
        · obtain rfl := Option.some.inj hstep
          exact h.quiet ha hstays nofun
      · cases hstep
  | transmitting =>
      obtain rfl := Option.some.inj hstep
      exact h.quiet ha hstays nofun
  | activating =>
      unfold Operations.resume at hstep
      dsimp only at hstep
      split at hstep
      · obtain rfl := Option.some.inj hstep
        exact h.advance ha
      · cases hstep
  | draining event =>
      obtain rfl := Option.some.inj hstep
      exact (h.settleSend s event).advance ha
  | dropping =>
      unfold Operations.resume at hstep
      dsimp only at hstep
      split at hstep
      · rename_i hs
        obtain rfl := Option.some.inj hstep
        exact h.drops true false ha hs
      · obtain rfl := Option.some.inj hstep
        exact h.quiet ha hstays nofun
  | closing shielded notified =>
      have hdetached := h.closing _ _ _ ha trivial
      unfold Operations.resume at hstep
      dsimp only at hstep
      split at hstep
      · split at hstep
        · obtain rfl := Option.some.inj hstep
          exact h.sends ha hstays (fun o' hmem => detacher_unique h.orderly hmem hdetached)
            fun _ => trivial
        · obtain rfl := Option.some.inj hstep
          exact h.shuts shielded ha trivial
      · cases hstep
  | notifying shielded =>
      obtain rfl := Option.some.inj hstep
      exact h.shuts shielded ha trivial
  | shutting shielded =>
      obtain rfl := Option.some.inj hstep
      exact h.quiet ha hstays nofun

theorem Activity.not_closes_dropping {a : Activity} (h : some .dropping = some a) : ¬ a.Closes := by
  obtain rfl := Option.some.inj h
  exact id

theorem OperationsOk.fail (h : OperationsOk caps d) {a : Activity}
    (ha : d.activities o s = some a) (hstep : d.fail o s a = some d') : OperationsOk caps d' := by
  have hstays := Detaches.refl h.ok h.within
  cases a with
  | transmitting =>
      obtain rfl := Option.some.inj hstep
      exact h.quiet ha hstays fun _ => Activity.not_closes_dropping
  | activating =>
      obtain rfl := Option.some.inj hstep
      exact h.quiet ha hstays fun _ => Activity.not_closes_dropping
  | draining event =>
      obtain rfl := Option.some.inj hstep
      exact h.quiet ha (detaches_settleSend h.ok h.within event)
        fun _ => Activity.not_closes_dropping
  | _ => cases hstep

theorem OperationsOk.cancel (h : OperationsOk caps d) {a : Activity}
    (ha : d.activities o s = some a) (hstep : d.cancel o s a = some d') : OperationsOk caps d' := by
  have hstays := Detaches.refl h.ok h.within
  cases a with
  | sending =>
      obtain rfl := Option.some.inj hstep
      exact h.quiet ha hstays nofun
  | transmitting =>
      obtain rfl := Option.some.inj hstep
      exact h.quiet ha hstays nofun
  | activating =>
      obtain rfl := Option.some.inj hstep
      exact h.quiet ha hstays fun _ => Activity.not_closes_dropping
  | draining event =>
      obtain rfl := Option.some.inj hstep
      exact h.quiet ha (detaches_settleSend h.ok h.within event)
        fun _ => Activity.not_closes_dropping
  | dropping => cases hstep
  | closing shielded notified =>
      cases shielded with
      | true => cases hstep
      | false =>
          obtain rfl := Option.some.inj hstep
          exact h.quiet ha hstays nofun
  | notifying shielded =>
      cases shielded with
      | true => cases hstep
      | false =>
          obtain rfl := Option.some.inj hstep
          exact h.quiet ha hstays nofun
  | shutting shielded =>
      cases shielded with
      | true => cases hstep
      | false =>
          obtain rfl := Option.some.inj hstep
          exact h.quiet ha hstays nofun

/-- A new operation detaches the sockets and is to close them. -/
theorem OperationsOk.dismiss (h : OperationsOk caps d)
    (hdetaches : Detaches caps d.manager sockets m) (shielded notified : Bool) :
    OperationsOk caps (d.dismiss m sockets shielded notified) := by
  apply h.begin hdetaches
  intro s a ha _
  by_contra hs
  rw [if_neg hs] at ha
  cases ha

theorem OperationsOk.broadcast (h : OperationsOk caps d) (e : Broadcast)
    (connections : List Socket) : OperationsOk caps (d.broadcast limits e connections) := by
  apply h.begin (detaches_broadcast h.ok h.within e connections)
  intro s a ha hcloses
  split at ha
  · rename_i hs
    exact hs
  · split at ha
    · obtain rfl := Option.some.inj ha
      exact hcloses.elim
    · cases ha

theorem OperationsOk.step (h : OperationsOk caps d) (action : OperationAction)
    (hstep : OperationStep caps limits d action d') : OperationsOk caps d' := by
  unfold OperationStep at hstep
  cases action with
  | register row admitted => exact h.register hstep
  | activate s =>
      obtain rfl := Option.some.inj hstep
      apply h.begin (.refl h.ok h.within)
      intro s' a ha hcloses
      split at ha
      · obtain rfl := Option.some.inj ha
        exact hcloses.elim
      · cases ha
  | unregister s =>
      obtain rfl := Option.some.inj hstep
      exact h.begin (detaches_standing h.ok h.within) (by intro _ _ ha; cases ha)
  | send s =>
      obtain rfl := Option.some.inj hstep
      apply h.begin (.refl h.ok h.within)
      intro s' a ha hcloses
      split at ha
      · obtain rfl := Option.some.inj ha
        exact hcloses.elim
      · cases ha
  | close s notified =>
      obtain rfl := Option.some.inj hstep
      exact h.dismiss (detaches_standing h.ok h.within) true notified
  | broadcast e connections =>
      unfold Operations.next at hstep
      dsimp only at hstep
      split at hstep
      · obtain rfl := Option.some.inj hstep
        exact h.broadcast e connections
      · cases hstep
  | closeRoom roomId eventSequence =>
      obtain rfl := Option.some.inj hstep
      exact h.dismiss (detaches_room h.ok h.within roomId none eventSequence) false true
  | closeMember roomId subject eventSequence =>
      obtain rfl := Option.some.inj hstep
      exact h.dismiss (detaches_room h.ok h.within roomId (some subject) eventSequence) false true
  | closeAll =>
      obtain rfl := Option.some.inj hstep
      exact h.dismiss (detaches_all h.ok h.within) false false
  | resume o s =>
      obtain ⟨a, ha, hstep⟩ := Option.bind_eq_some_iff.mp hstep
      exact h.resume ha hstep
  | fail o s =>
      obtain ⟨a, ha, hstep⟩ := Option.bind_eq_some_iff.mp hstep
      exact h.fail ha hstep
  | cancel o s =>
      obtain ⟨a, ha, hstep⟩ := Option.bind_eq_some_iff.mp hstep
      exact h.cancel ha hstep

theorem OperationsReachable.ok (h : OperationsReachable caps limits d) : OperationsOk caps d := by
  refine h.invariant ?_ fun _ action _ hd hstep => hd.step action hstep
  rintro _ rfl
  exact OperationsOk.start

/-- In every reachable state: no room is empty, no socket is in two rooms or twice in one, and in
the rooms are the registered sockets, each in the room of its metadata; the caps hold; registered
is who was registered and not detached; and every deed so far has heeded those before it. -/
theorem manager_structure (h : OperationsReachable caps limits d) :
    (∀ room ∈ d.manager.rooms, room.sockets ≠ [] ∧ room.sockets.Nodup) ∧
      (∀ room ∈ d.manager.rooms, ∀ other ∈ d.manager.rooms, ∀ s ∈ room.sockets,
        s ∈ other.sockets → room = other) ∧
      (∀ roomId s, (∃ room ∈ d.manager.rooms, room.roomId = roomId ∧ s ∈ room.sockets) ↔
        ∃ row ∈ d.manager.metadata, row.socket = s ∧ row.roomId = roomId) ∧
      d.manager.metadata.count ≤ caps.maxConnections ∧
      (∀ room ∈ d.manager.rooms, room.sockets.length ≤ caps.maxPerRoom) ∧
      (∀ s, d.manager.Registered s ↔
        .registered s ∈ d.trace ∧ ∀ o, .detached o s ∉ d.trace) ∧
      Orderly Deed.Heeds d.trace := by
  have hok := h.ok
  have hfound : ∀ room ∈ d.manager.rooms, d.manager.roomSockets room.roomId = room.sockets :=
    fun room hroom => Manager.roomSockets_of_find? (Table.find?_eq_some.mpr ⟨hroom, rfl⟩)
  have hrooms : ∀ roomId s, (∃ room ∈ d.manager.rooms, room.roomId = roomId ∧ s ∈ room.sockets) ↔
      ∃ row ∈ d.manager.metadata, row.socket = s ∧ row.roomId = roomId := by
    intro roomId s
    rw [← hok.ok.mem_iff]
    constructor
    · rintro ⟨room, hroom, rfl, hs⟩
      rw [hfound room hroom]
      exact hs
    · intro hs
      cases hfind : d.manager.rooms.find? roomId with
      | none =>
          rw [Manager.roomSockets_of_none hfind] at hs
          cases hs
      | some room =>
          rw [Manager.roomSockets_of_find? hfind] at hs
          obtain ⟨hroom, hid⟩ := Table.find?_eq_some.mp hfind
          exact ⟨room, hroom, hid, hs⟩
  refine ⟨?_, ?_, hrooms, hok.within.1, ?_, hok.registered, hok.orderly⟩
  · exact fun room hroom => ⟨hok.ok.nonempty room hroom, hok.ok.nodup room hroom⟩
  · intro room hroom other hother s hs hs'
    obtain ⟨row, hrow, hsocket, hid⟩ := (hrooms room.roomId s).mp ⟨room, hroom, rfl, hs⟩
    obtain ⟨row', hrow', hsocket', hid'⟩ := (hrooms other.roomId s).mp ⟨other, hother, rfl, hs'⟩
    have hsame : row = row' := Table.eq_of_key hrow hrow' (hsocket.trans hsocket'.symm)
    rw [← hsame] at hid'
    exact Table.eq_of_key hroom hother (hid.symm.trans hid')
  · intro room hroom
    rw [← hfound room hroom]
    exact hok.within.2 room.roomId

end Invariant

/-! ## A concrete run -/

section Examples

/-- The socket goes live and is closed with a notice while a send to it waits. -/
def closesOnce : List OperationAction :=
  [.register newcomer true, .activate 1, .resume 1 1, .send 1, .close 1 true, .resume 3 1,
    .resume 3 1, .resume 3 1, .resume 2 1]

theorem manager_structure_closes :
    ∃ d, OperationsReachable smallManager {} d ∧
      d.trace = [.registered 1, .detached 3 1, .sends 3 1, .closes 3 1] ∧
      Orderly Deed.Heeds d.trace := by
  have htrace : (closesOnce.foldlM (Operations.next smallManager {}) {}).map Operations.trace =
      some [.registered 1, .detached 3 1, .sends 3 1, .closes 3 1] := by
    decide +kernel
  obtain ⟨d, hrun, htrace⟩ := Option.map_eq_some_iff.mp htrace
  have hreachable : OperationsReachable smallManager {} d :=
    Reachable.foldlM (Reachable.start rfl) hrun
  obtain ⟨-, -, -, -, -, -, horderly⟩ := manager_structure hreachable
  exact ⟨d, hreachable, htrace, horderly⟩

end Examples

end Sockets
end ChatEngine
