import ChatEngine.Sockets.Handshake

/-!
# The order of the first frames

What one socket is sent while it initializes and afterwards: the frames `ready` and
`history`, the broadcasts that waited, and the broadcasts made since it went live.

* `Track`, one socket as its session, its broadcasters and its closers see it, with the
  frames that went out and the broadcasts that were addressed to it;
* `Hub.next`, every await of a session, of a delivery and of a close as a step;
* `TrackOk`, the invariant: while a session initializes, what was addressed is what has
  been sent, then what is being sent, then what waits; of the live broadcasts of a socket
  that is registered, each is under way, was sent once or ended with its call;
* `HubReachable.ok`, the invariant in the states of every interleaving.
-/

namespace ChatEngine
namespace Sockets

open Lib

/-! ## Frames -/

/-- A broadcast, with its place among the broadcasts of the process. -/
structure Issued where
  number : Nat
  event : Broadcast
  deriving DecidableEq

/-- A frame for one socket.  A notice is an error, a reply or a closing notice. -/
inductive Frame where
  | ready
  | history
  | notice
  | event (number : Nat) (payload : Option String)
  deriving DecidableEq

def Issued.frame (x : Issued) : Frame := .event x.number x.event.payload

/-- `send_json` raises before it writes where the event has no JSON text. -/
def Frame.writable : Frame → Bool
  | .event _ none => false
  | _ => true

/-- The sequence of the broadcast, where it has one, is above the admission sequence. -/
def Issued.Above (admission : Option Nat) (x : Issued) : Prop :=
  ∀ b ∈ x.event.eventSequence, ∀ s ∈ admission, s < b

/-! ## One socket -/

/-- How far the session is.  It is `leaving` from its return or failure to its cleanup. -/
inductive Stage where
  | registered
  | readySent
  | historySent
  | live
  | leaving
  deriving DecidableEq

/-- What the session sends next at a stage. -/
def Stage.Sends : Stage → Frame → Prop
  | .registered, .ready => True
  | .readySent, .history => True
  | .live, .notice => True
  | .leaving, .notice => True
  | _, _ => False

instance (stage : Stage) (f : Frame) : Decidable (stage.Sends f) := by
  cases stage <;> cases f <;> first | exact isTrue trivial | exact isFalse id

def Stage.after : Stage → Frame → Stage
  | .registered, .ready => .readySent
  | .readySent, .history => .historySent
  | stage, _ => stage

/-- Who holds the operation lock: the session with a frame, its activation with the event
it has taken or none, or a broadcast. -/
inductive Holder where
  | frame (f : Frame)
  | drain (sending : Option (Issued × PendingEvent))
  | live (x : Issued)
  deriving DecidableEq

/-- What the holder is sending. -/
def Holder.sends : Holder → Option Frame
  | .frame f => some f
  | .drain sending => sending.map fun p => .event p.1.number (some p.2.payload)
  | .live x => some x.frame

/-- What has become of the registration: it stands, a task that cannot be cancelled closes
the socket, `close_room`, `close_member` or `close_all` is about to, the socket is closed,
nobody closes it after `unregister`, or the call that was about to was cancelled. -/
inductive Fate where
  | attached
  | closing
  | dismissed
  | closed
  | unregistered
  | abandoned
  deriving DecidableEq

/-- A socket that has been registered.  `addressed` and `liveAddressed` are the history of
the broadcasts addressed to it before and after it went live; `queued` names the broadcasts
its metadata holds, `outstanding` the live sends that wait for the operation lock, and
`cancelled` those that ended with the call of their broadcast. -/
structure Track where
  admission : Option Nat
  stage : Stage := .registered
  busy : Option Holder := none
  fate : Fate := .attached
  switched : Bool := false
  wire : List Frame := []
  addressed : List Issued := []
  queued : List Issued := []
  outstanding : List Issued := []
  liveAddressed : List Issued := []
  cancelled : List Issued := []
  deriving DecidableEq

/-- The broadcast an activation is sending. -/
def Track.sending (t : Track) : List Issued :=
  match t.busy with
  | some (.drain (some (x, _))) => [x]
  | _ => []

/-- The live sends that have begun or wait. -/
def Track.underWay (t : Track) : List Issued :=
  match t.busy with
  | some (.live x) => x :: t.outstanding
  | _ => t.outstanding

/-- A send that is broken off may or may not have reached the wire. -/
def Track.cut (reached : Bool) (t : Track) : Track :=
  { t with
    busy := none
    wire := t.wire ++
      ((t.busy.bind Holder.sends).filter fun f => reached && f.writable).toList }

def Track.leave (t : Track) : Track := { t with stage := .leaving }

/-- The registration ends; what waited is discarded. -/
def Track.detach (fate : Fate) (t : Track) : Track := { t with fate := fate, queued := [] }

/-- A broadcast goes over the socket, whose metadata was `row`; `kept` says whether it is
still registered afterwards. -/
def Track.offered (x : Issued) (row : Option ConnectionMetadata) (kept : Bool) (t : Track) :
    Track :=
  match row with
  | none => t
  | some row =>
      if row.roomId = x.event.roomId ∧ x.event.Addresses row then
        if row.broadcastReady = true then
          { t with
            liveAddressed := t.liveAddressed ++ [x]
            outstanding := t.outstanding ++ [x] }
        else if kept = true then
          { t with addressed := t.addressed ++ [x], queued := t.queued ++ [x] }
        else ({ t with addressed := t.addressed ++ [x] }).detach .closing
      else t

/-- The manager, every socket that was ever registered, and the number of broadcasts. -/
structure Hub where
  manager : Manager := {}
  tracks : Socket → Option Track := fun _ => none
  made : Nat := 0

def Hub.row (d : Hub) (s : Socket) : Option ConnectionMetadata := d.manager.metadata.find? s

def Hub.setTrack (s : Socket) (t : Track) (d : Hub) : Hub :=
  { d with tracks := Function.update d.tracks s (some t) }

def Hub.withManager (m : Manager) (d : Hub) : Hub := { d with manager := m }

/-- A section detached the sockets that are missing from `m`. -/
def Hub.detach (fate : Fate) (m : Manager) (d : Hub) : Hub :=
  { d with
    manager := m
    tracks := fun s => (d.tracks s).map fun t =>
      if (d.row s).isSome = true ∧ m.metadata.find? s = none then t.detach fate else t }

/-- The `finally` after a send of an activation: the metadata is charged no longer. -/
def Manager.settleSend (socket : Socket) (event : PendingEvent) (m : Manager) : Manager :=
  if m.Registered socket then m.settle socket event
  else { m with pendingBytes := m.pendingBytes - event.size }

inductive HubAction where
  | connect (row : ConnectionMetadata) (admitted : Bool)
  | broadcast (e : Broadcast) (connections : List Socket)
  | begin (s : Socket) (f : Frame)
  | drain (s : Socket)
  | advance (s : Socket)
  | complete (s : Socket)
  | fail (s : Socket) (reached : Bool)
  | leave (s : Socket) (reached : Bool)
  | beginLive (s : Socket) (k : Nat)
  | cancelLive (s : Socket) (reached : Bool)
  | cancelWaiting (s : Socket) (k : Nat)
  | close (s : Socket)
  | unregister (s : Socket)
  | closeRoom (roomId : String) (eventSequence : Option Nat)
  | closeMember (roomId subject : String) (eventSequence : Option Nat)
  | closeAll
  | shut (s : Socket) (notified : Bool)
  | abandon (s : Socket)

/-- The metadata of a socket that is not ready for broadcasts. -/
def ConnectionMetadata.initializing (row : ConnectionMetadata) : ConnectionMetadata :=
  { row.opened with broadcastReady := false }

/-- An endpoint registers its socket, not yet ready for broadcasts. -/
def Hub.connect (caps : ManagerLimits) (row : ConnectionMetadata) (admitted : Bool) (d : Hub) :
    Hub :=
  let outcome := register caps row.initializing admitted d.manager
  if outcome.1 = true then
    (d.setTrack row.socket { admission := row.afterSequence }).withManager outcome.2
  else d.withManager outcome.2

def Hub.broadcast (limits : PendingLimits) (e : Broadcast) (connections : List Socket) (d : Hub) :
    Hub :=
  let m := (Sockets.broadcast limits e connections d.manager).manager
  { manager := m
    tracks := fun s => (d.tracks s).map
      (Track.offered { number := d.made, event := e } (d.row s) (m.metadata.find? s).isSome)
    made := d.made + 1 }

/-- The section of `_activate` under the manager's lock. -/
def Hub.advance (s : Socket) (t : Track) (d : Hub) : Hub :=
  match activation s d.manager with
  | none => d.setTrack s { t with busy := none, stage := .leaving }
  | some (none, m) =>
      (d.setTrack s { t with busy := none, stage := .live, switched := true }).withManager m
  | some (some event, m) =>
      (d.setTrack s { t with
        busy := some (.drain (t.queued.head?.map fun x => (x, event)))
        queued := t.queued.tail }).withManager m

/-- The send of the holder went through. -/
def Hub.complete (s : Socket) (t : Track) (d : Hub) : Option Hub :=
  match t.busy with
  | some (.frame f) =>
      some (d.setTrack s { t with
        busy := none, stage := t.stage.after f, wire := t.wire ++ [f] })
  | some (.drain (some (x, event))) =>
      some ((d.setTrack s { t with
        busy := some (.drain none)
        wire := t.wire ++ [.event x.number (some event.payload)] }).withManager
          (d.manager.settleSend s event))
  | some (.live x) =>
      if x.frame.writable = true then
        some (d.setTrack s { t with busy := none, wire := t.wire ++ [x.frame] })
      else none
  | _ => none

/-- The send of the holder raised or ran out of time.  An activation leaves the close to
`activate`. -/
def Hub.fail (s : Socket) (reached : Bool) (t : Track) (d : Hub) : Option Hub :=
  match t.busy with
  | some (.drain (some (_, event))) =>
      some ((d.setTrack s (t.cut reached).leave).withManager (d.manager.settleSend s event))
  | some (.frame _) | some (.live _) =>
      some ((d.setTrack s (t.cut reached)).detach .closing (detachConnection s d.manager))
  | _ => none

/-- The session returns, fails or is cancelled, and whatever it was sending is broken off. -/
def Hub.leave (s : Socket) (reached : Bool) (t : Track) (d : Hub) : Hub :=
  match t.busy with
  | some (.live _) => d.setTrack s t.leave
  | some (.drain (some (_, event))) =>
      (d.setTrack s (t.cut reached).leave).withManager (d.manager.settleSend s event)
  | _ => d.setTrack s (t.cut reached).leave

/-- The state after an action, where the action is possible.  A send holds the operation
lock, and looks up the registration once it has it. -/
def Hub.next (caps : ManagerLimits) (limits : PendingLimits) (d : Hub) : HubAction → Option Hub
  | .connect row admitted =>
      if d.tracks row.socket = none then some (d.connect caps row admitted) else none
  | .broadcast e connections =>
      if connections.Perm (d.manager.roomSockets e.roomId) then
        some (d.broadcast limits e connections)
      else none
  | .begin s f => (d.tracks s).bind fun t =>
      if t.busy = none ∧ (d.row s).isSome = true ∧ t.stage.Sends f then
        some (d.setTrack s { t with busy := some (.frame f) })
      else none
  | .drain s => (d.tracks s).bind fun t =>
      if t.busy = none ∧ (d.row s).isSome = true ∧ t.stage = .historySent then
        some (d.setTrack s { t with busy := some (.drain none) })
      else none
  | .advance s => (d.tracks s).bind fun t =>
      if t.busy = some (.drain none) then some (d.advance s t) else none
  | .complete s => (d.tracks s).bind fun t => d.complete s t
  | .fail s reached => (d.tracks s).bind fun t => d.fail s reached t
  | .leave s reached => (d.tracks s).map fun t => d.leave s reached t
  | .beginLive s k => (d.tracks s).bind fun t => (t.outstanding[k]?).bind fun x =>
      if t.busy = none ∧ (d.row s).isSome = true then
        some (d.setTrack s { t with
          busy := some (.live x), outstanding := t.outstanding.eraseIdx k })
      else none
  | .cancelLive s reached => (d.tracks s).bind fun t =>
      match t.busy with
      | some (.live x) =>
          some (d.setTrack s { t.cut reached with cancelled := t.cancelled ++ [x] })
      | _ => none
  | .cancelWaiting s k => (d.tracks s).map fun t =>
      d.setTrack s { t with
        outstanding := t.outstanding.eraseIdx k
        cancelled := t.cancelled ++ (t.outstanding[k]?).toList }
  | .close s => some (d.detach .closing (detachConnection s d.manager))
  | .unregister s => some (d.detach .unregistered (detachConnection s d.manager))
  | .closeRoom roomId eventSequence =>
      some (d.detach .dismissed (closeRoom roomId eventSequence d.manager))
  | .closeMember roomId subject eventSequence =>
      some (d.detach .dismissed (closeMember roomId subject eventSequence d.manager))
  | .closeAll => some (d.detach .dismissed (closeAll d.manager))
  | .shut s notified => (d.tracks s).bind fun t =>
      if t.busy = none ∧ (t.fate = .closing ∨ t.fate = .dismissed) then
        some (d.setTrack s { t with
          fate := .closed
          wire := t.wire ++ if notified = true then [.notice] else [] })
      else none
  | .abandon s => (d.tracks s).bind fun t =>
      if t.fate = .dismissed then some (d.setTrack s { t with fate := .abandoned }) else none

/-- One step of the process. -/
def HubStep (caps : ManagerLimits) (limits : PendingLimits) (d : Hub) (action : HubAction)
    (d' : Hub) : Prop :=
  d.next caps limits action = some d'

/-- The states of every interleaving. -/
def HubReachable (caps : ManagerLimits) (limits : PendingLimits) : Hub → Prop :=
  Reachable (fun d => d = {}) (HubStep caps limits)

/-! ## What the sections do to one registration -/

section Registration

variable {m : Manager} {s socket : Socket} {limits : PendingLimits} {e : Broadcast}

theorem find?_detachConnection :
    (detachConnection socket m).metadata.find? s =
      if s = socket then none else m.metadata.find? s := by
  split
  · rename_i heq
    subst heq
    rw [Table.find?_eq_none]
    intro row hrow
    exact (mem_detachConnection.mp hrow).2
  · rename_i hne
    ext row
    rw [Table.find?_eq_some, Table.find?_eq_some, mem_detachConnection]
    constructor
    · rintro ⟨⟨hrow, -⟩, hsocket⟩
      exact ⟨hrow, hsocket⟩
    · rintro ⟨hrow, rfl⟩
      exact ⟨⟨hrow, hne⟩, rfl⟩

theorem find?_update {f : ConnectionMetadata → ConnectionMetadata}
    {hf : ∀ r, (f r).socket = r.socket} {bytes : Int} :
    (m.update socket f hf bytes).metadata.find? s =
      if s = socket then (m.metadata.find? s).map f else m.metadata.find? s := by
  show (m.metadata.updateWhere (fun r => r.socket = socket) f hf).find? s = _
  rw [Table.find?_updateWhere]
  cases hrow : m.metadata.find? s with
  | none => simp
  | some row =>
      obtain rfl := (Table.find?_eq_some.mp hrow).2
      by_cases heq : row.socket = socket
      · simp [heq]
      · simp [heq]

/-- A section that detaches sockets leaves the metadata of the others alone. -/
theorem find?_detachRoomConnections {roomId : String} {subject : Option String}
    {eventSequence : Option Nat} :
    (detachRoomConnections roomId subject eventSequence m).2.metadata.find? s = none ∨
      (detachRoomConnections roomId subject eventSequence m).2.metadata.find? s =
        m.metadata.find? s := by
  unfold detachRoomConnections
  dsimp only
  rw [Manager.discard_metadata, Table.find?_deleteWhere]
  cases m.metadata.find? s with
  | none => exact .inl rfl
  | some row =>
      rw [Option.filter_some]
      split
      · exact .inr rfl
      · exact .inl rfl

/-- Metadata rewritten in place stays in its room. -/
theorem Manager.Ok.update (h : m.Ok) {f : ConnectionMetadata → ConnectionMetadata}
    (hf : ∀ r, (f r).socket = r.socket) (hroom : ∀ r, (f r).roomId = r.roomId) (bytes : Int) :
    (m.update socket f hf bytes).Ok := by
  refine ⟨h.nonempty, h.nodup, ?_⟩
  intro roomId x
  have hsets : (m.update socket f hf bytes).roomSockets roomId = m.roomSockets roomId := rfl
  rw [hsets, h.mem_iff]
  constructor
  · rintro ⟨row, hrow, rfl, rfl⟩
    by_cases heq : row.socket = socket
    · exact ⟨f row, Manager.mem_update.mpr (.inr ⟨row, hrow, heq, rfl⟩), hf row, hroom row⟩
    · exact ⟨row, Manager.mem_update.mpr (.inl ⟨hrow, heq⟩), rfl, rfl⟩
  · rintro ⟨row, hrow, rfl, rfl⟩
    rcases Manager.mem_update.mp hrow with ⟨hold, -⟩ | ⟨r, hr, -, rfl⟩
    · exact ⟨row, hold, rfl, rfl⟩
    · exact ⟨r, hr, (hf r).symm, (hroom r).symm⟩

theorem Manager.Ok.offer {d : Delivery} (h : d.manager.Ok) :
    (offer limits e d socket).manager.Ok := by
  cases hfind : d.manager.metadata.find? socket with
  | none =>
      rw [offer_unregistered hfind]
      exact h
  | some row =>
      obtain rfl := (Table.find?_eq_some.mp hfind).2
      rcases @offer_cases limits row e d hfind with ⟨-, hsame⟩ | ⟨-, -, hsame⟩ | ⟨-, -, hgone⟩ |
        ⟨event, -, -, -, -, hqueued⟩
      · rw [hsame]
        exact h
      · rw [hsame]
        exact h
      · rw [hgone]
        exact h.detachConnection row.socket
      · rw [hqueued]
        have hroom : ∀ r, (ConnectionMetadata.queue event r).roomId = r.roomId := fun _ => rfl
        exact h.update _ hroom _

theorem Manager.Ok.broadcast (h : m.Ok) (connections : List Socket) :
    (broadcast limits e connections m).manager.Ok := by
  have hloop : ∀ d : Delivery, d.manager.Ok →
      (connections.foldl (Sockets.offer limits e) d).manager.Ok := by
    induction connections with
    | nil => exact fun d hd => hd
    | cons connection rest ih => exact fun d hd => ih _ hd.offer
  exact hloop _ h

theorem offer_other {d : Delivery} (hne : s ≠ socket) :
    (offer limits e d socket).manager.metadata.find? s = d.manager.metadata.find? s := by
  cases hfind : d.manager.metadata.find? socket with
  | none => rw [offer_unregistered hfind]
  | some row =>
      obtain rfl := (Table.find?_eq_some.mp hfind).2
      rcases @offer_cases limits row e d hfind with ⟨-, hsame⟩ | ⟨-, -, hsame⟩ | ⟨-, -, hgone⟩ |
        ⟨event, -, -, -, -, hqueued⟩
      · rw [hsame]
      · rw [hsame]
      · rw [hgone]
        exact find?_detachConnection.trans (if_neg hne)
      · rw [hqueued]
        exact find?_update.trans (if_neg hne)

/-- A broadcast changes the metadata of an addressed socket that initializes, and of no
other: the socket gets the event into its queue or is detached. -/
theorem broadcast_find? {connections : List Socket} (hnodup : connections.Nodup) :
    ((broadcast limits e connections m).manager.metadata.find? s = m.metadata.find? s ∧
        ∀ row ∈ m.metadata.find? s, s ∈ connections → e.Addresses row →
          row.broadcastReady = true) ∨
      ∃ row ∈ m.metadata.find? s, s ∈ connections ∧ e.Addresses row ∧
        row.broadcastReady = false ∧
        ((broadcast limits e connections m).manager.metadata.find? s = none ∨
          ∃ event, e.buffered = some event ∧
            (broadcast limits e connections m).manager.metadata.find? s =
              some (row.queue event)) := by
  have hloop : ∀ (connections : List Socket) (d : Delivery), s ∉ connections →
      (connections.foldl (offer limits e) d).manager.metadata.find? s =
        d.manager.metadata.find? s := by
    intro connections
    induction connections with
    | nil => exact fun d _ => rfl
    | cons connection rest ih =>
        intro d hout
        rw [List.mem_cons, not_or] at hout
        exact (ih _ hout.2).trans (offer_other hout.1)
  unfold broadcast
  by_cases hin : s ∈ connections
  · obtain ⟨before, after, rfl⟩ := List.append_of_mem hin
    have hsplit := List.nodup_append.mp hnodup
    have hbefore : s ∉ before := fun hmem =>
      hsplit.2.2 s hmem s List.mem_cons_self rfl
    have hafter : s ∉ after := (List.nodup_cons.mp hsplit.2.1).1
    rw [List.foldl_append, List.foldl_cons, hloop after _ hafter]
    generalize hd : before.foldl (offer limits e) { manager := m } = d
    have hkept : d.manager.metadata.find? s = m.metadata.find? s := by
      rw [← hd]
      exact hloop before _ hbefore
    cases hfind : m.metadata.find? s with
    | none =>
        rw [hfind] at hkept
        rw [offer_unregistered hkept]
        exact .inl ⟨hkept, fun row hrow => by cases hrow⟩
    | some row =>
        obtain rfl := (Table.find?_eq_some.mp hfind).2
        rw [hfind] at hkept
        rcases @offer_cases limits row e d hkept with ⟨hskip, hsame⟩ | ⟨-, hready, hsame⟩ |
          ⟨haddressed, hwaiting, hgone⟩ | ⟨event, haddressed, hwaiting, hbuffered, -, hqueued⟩
        · rw [hsame]
          refine .inl ⟨hkept, fun r hr _ haddressed => ?_⟩
          obtain rfl := Option.some.inj hr
          exact absurd haddressed hskip
        · rw [hsame]
          refine .inl ⟨hkept, fun r hr _ _ => ?_⟩
          obtain rfl := Option.some.inj hr
          exact hready
        · refine .inr ⟨row, rfl, hin, haddressed, hwaiting, .inl ?_⟩
          rw [hgone]
          exact find?_detachConnection.trans (if_pos rfl)
        · refine .inr ⟨row, rfl, hin, haddressed, hwaiting, .inr ⟨event, hbuffered, ?_⟩⟩
          rw [hqueued]
          refine find?_update.trans ?_
          rw [if_pos rfl, hkept]
          rfl
  · rw [hloop connections _ hin]
    exact .inl ⟨rfl, fun _ _ hmem => absurd hmem hin⟩

end Registration

/-! ## The invariant of one socket -/

/-- The frames that are out once the session has reached a stage. -/
def Stage.frames : Stage → List Frame
  | .registered => []
  | .readySent => [.ready]
  | _ => [.ready, .history]

/-- What a holder says about the session. -/
def HolderOk (t : Track) : Holder → Prop
  | .frame f => t.stage.Sends f
  | .drain sending =>
      t.stage = .historySent ∧ ∀ p ∈ sending, p.1.event.buffered = some p.2
  | .live x => x ∈ t.liveAddressed

/-- The metadata of a registered socket agrees with its history. -/
structure RowOk (t : Track) (row : ConnectionMetadata) : Prop where
  pending : row.pending.map some = t.queued.map fun x => x.event.buffered
  ready : row.broadcastReady = t.switched
  admission : row.afterSequence = t.admission

/-- The session is in its opening frames, or in a send that began in them. -/
def Track.Active (t : Track) : Prop :=
  (t.fate = .attached ∨ t.busy ≠ none) ∧ t.stage ≠ .leaving

/-- The wire holds opening frames, then broadcasts that waited, in their order, then live
broadcasts and notices; `rest` is what was addressed and has not gone out. -/
structure Split (t : Track) (first : List Frame) (delivered rest : List Issued)
    (late : List Frame) : Prop where
  wire : t.wire = first ++ delivered.map Issued.frame ++ late
  addressed : t.addressed = delivered ++ rest
  opening : first <+: [.ready, .history]
  started : delivered ≠ [] → first = [.ready, .history]
  staged : t.Active → first = t.stage.frames ∧ (t.switched = false → late = [])
  sending : t.sending <+: rest
  kept : t.fate = .attached → t.stage ≠ .leaving → rest = t.sending ++ t.queued
  switched : t.switched = true → first = [.ready, .history] ∧ rest = []
  lives : ∀ f ∈ late, f = .notice ∨ ∃ x ∈ t.liveAddressed, f = x.frame

/-- The live broadcasts of a socket: what is under way is not out yet, nothing is out twice,
and while the socket is registered none is lost except with the call of its broadcast. -/
structure LiveOk (fate : Fate) (underWay : List Issued) (wire : List Frame)
    (liveAddressed cancelled : List Issued) : Prop where
  addressed : ∀ x ∈ underWay, x ∈ liveAddressed
  nodup : underWay.Nodup
  unsent : ∀ x ∈ underWay, x.frame ∉ wire
  once : ∀ x ∈ liveAddressed, wire.count x.frame ≤ 1
  kept : fate = .attached → ∀ x ∈ liveAddressed,
    x ∈ cancelled ∨ x ∈ underWay ∨ x.frame ∈ wire

/-- The invariant of a socket, with its metadata while it is registered. -/
structure TrackOk (made : Nat) (t : Track) (row : Option ConnectionMetadata) : Prop where
  attached : t.fate = .attached ↔ row.isSome = true
  row : ∀ r ∈ row, RowOk t r
  holder : ∀ h ∈ t.busy, HolderOk t h
  stage : t.stage ≠ .leaving → (t.switched = true ↔ t.stage = .live)
  live : LiveOk t.fate t.underWay t.wire t.liveAddressed t.cancelled
  ordered : ((t.addressed ++ t.liveAddressed).map Issued.number).Pairwise (· < ·)
  below : ∀ x ∈ t.addressed ++ t.liveAddressed, x.number < made ∧ x.Above t.admission
  unswitched : t.switched = false → t.liveAddressed = []
  split : ∃ first delivered rest late, Split t first delivered rest late

section LiveSteps

variable {fate fate' : Fate} {u u' : List Issued} {wire frames : List Frame}
  {live cancelled cancelled' : List Issued} {x : Issued}

theorem LiveOk.start : LiveOk fate [] [] [] [] where
  addressed _ hx := by cases hx
  nodup := List.nodup_nil
  unsent _ hx := by cases hx
  once _ hx := by cases hx
  kept _ _ hx := by cases hx

/-- The sends that are under way go on in another order. -/
theorem LiveOk.perm (h : LiveOk fate u wire live cancelled) (hperm : u'.Perm u) :
    LiveOk fate u' wire live cancelled where
  addressed x hx := h.addressed x (hperm.subset hx)
  nodup := hperm.nodup_iff.mpr h.nodup
  unsent x hx := h.unsent x (hperm.subset hx)
  once := h.once
  kept hfate x hx := (h.kept hfate x hx).imp_right fun hx => hx.imp_left fun hmem =>
    hperm.symm.subset hmem

/-- Sends that wait end with the calls of their broadcasts. -/
theorem LiveOk.giveUp {gone : List Issued} (h : LiveOk fate u wire live cancelled)
    (hperm : (gone ++ u').Perm u) : LiveOk fate u' wire live (cancelled ++ gone) where
  addressed x hx := h.addressed x (hperm.subset (List.mem_append_right _ hx))
  nodup := (List.nodup_append.mp (hperm.nodup_iff.mpr h.nodup)).2.1
  unsent x hx := h.unsent x (hperm.subset (List.mem_append_right _ hx))
  once := h.once
  kept hfate x hx := by
    rcases h.kept hfate x hx with hcancelled | hunder | hsent
    · exact .inl (List.mem_append_left _ hcancelled)
    · rcases List.mem_append.mp (hperm.symm.subset hunder) with hgone | hleft
      · exact .inl (List.mem_append_right _ hgone)
      · exact .inr (.inl hleft)
    · exact .inr (.inr hsent)

/-- Once the registration has ended, nothing need be kept. -/
theorem LiveOk.detached (h : LiveOk fate u wire live cancelled) (hfate : fate' ≠ .attached) :
    LiveOk fate' u wire live cancelled' :=
  { h with kept := fun heq => absurd heq hfate }

/-- Frames go out that are no live broadcast of the socket. -/
theorem LiveOk.write (h : LiveOk fate u wire live cancelled)
    (hother : ∀ f ∈ frames, ∀ x ∈ live, f ≠ x.frame) :
    LiveOk fate u (wire ++ frames) live cancelled := by
  have habsent : ∀ x ∈ live, x.frame ∉ frames := fun x hx hmem => hother _ hmem x hx rfl
  refine { h with
    unsent := fun x hx hmem => ?_
    once := fun x hx => ?_
    kept := fun hfate x hx => (h.kept hfate x hx).imp_right fun hx => hx.imp_right
      fun hmem => List.mem_append_left _ hmem }
  · rcases List.mem_append.mp hmem with hold | hnew
    · exact h.unsent x hx hold
    · exact habsent x (h.addressed x hx) hnew
  · rw [List.count_append, List.count_eq_zero.mpr (habsent x hx)]
    exact h.once x hx

/-- One more live broadcast, which nobody has seen. -/
theorem LiveOk.add (h : LiveOk fate u wire live cancelled) (hnew : x ∉ live)
    (hunsent : x.frame ∉ wire) : LiveOk fate (u ++ [x]) wire (live ++ [x]) cancelled where
  addressed y hy := by
    rcases List.mem_append.mp hy with hy | hy
    · exact List.mem_append_left _ (h.addressed y hy)
    · exact List.mem_append_right _ hy
  nodup := by
    refine List.nodup_append.mpr ⟨h.nodup, List.nodup_singleton x, fun y hy z hz heq => ?_⟩
    obtain rfl := List.mem_singleton.mp hz
    exact hnew (heq ▸ h.addressed y hy)
  unsent y hy := by
    rcases List.mem_append.mp hy with hy | hy
    · exact h.unsent y hy
    · obtain rfl := List.mem_singleton.mp hy
      exact hunsent
  once y hy := by
    rcases List.mem_append.mp hy with hy | hy
    · exact h.once y hy
    · obtain rfl := List.mem_singleton.mp hy
      rw [List.count_eq_zero.mpr hunsent]
      exact Nat.zero_le _
  kept hfate y hy := by
    rcases List.mem_append.mp hy with hy | hy
    · exact (h.kept hfate y hy).imp_right fun hy => hy.imp_left fun hmem =>
        List.mem_append_left _ hmem
    · exact .inr (.inl (List.mem_append_right _ hy))

/-- A live send ends: its frame is out, or its call is cancelled, or the registration has
ended. -/
theorem LiveOk.finish (h : LiveOk fate (x :: u) wire live cancelled)
    (hinj : ∀ y ∈ live, y.frame = x.frame → y = x) (hframes : frames = [] ∨ frames = [x.frame])
    (hcancelled : ∀ y ∈ cancelled, y ∈ cancelled')
    (hdone : fate = .attached → frames = [x.frame] ∨ x ∈ cancelled') :
    LiveOk fate u (wire ++ frames) live cancelled' := by
  obtain ⟨hfresh, hnodup⟩ := List.nodup_cons.mp h.nodup
  have hcount : ∀ y ∈ live, y ≠ x → frames.count y.frame = 0 := by
    intro y hy hne
    rw [List.count_eq_zero]
    rcases hframes with rfl | rfl
    · exact List.not_mem_nil
    · exact fun hmem => hne (hinj y hy (List.mem_singleton.mp hmem))
  refine ⟨fun y hy => h.addressed y (List.mem_cons_of_mem _ hy), hnodup, fun y hy hmem => ?_,
    fun y hy => ?_, fun hfate y hy => ?_⟩
  · have hne : y ≠ x := fun heq => hfresh (heq ▸ hy)
    have hlive := h.addressed y (List.mem_cons_of_mem _ hy)
    rcases List.mem_append.mp hmem with hold | hnew
    · exact h.unsent y (List.mem_cons_of_mem _ hy) hold
    · exact List.count_eq_zero.mp (hcount y hlive hne) hnew
  · rw [List.count_append]
    by_cases heq : y = x
    · subst heq
      rw [List.count_eq_zero.mpr (h.unsent y List.mem_cons_self)]
      rcases hframes with rfl | rfl
      · exact Nat.zero_le _
      · rw [List.count_singleton_self]
    · rw [hcount y hy heq]
      exact h.once y hy
  · rcases h.kept hfate y hy with hgone | hunder | hsent
    · exact .inl (hcancelled y hgone)
    · rcases List.mem_cons.mp hunder with rfl | hunder
      · rcases hdone hfate with rfl | hgone
        · exact .inr (.inr (List.mem_append_right _ (List.mem_singleton.mpr rfl)))
        · exact .inl hgone
      · exact .inr (.inl hunder)
    · exact .inr (.inr (List.mem_append_left _ hsent))

end LiveSteps

section TrackSteps

variable {made : Nat} {t : Track} {row : Option ConnectionMetadata}

theorem Track.underWay_of_live {x : Issued} (h : t.busy = some (.live x)) :
    t.underWay = x :: t.outstanding := by
  unfold Track.underWay
  rw [h]

theorem Track.underWay_of_not_live (h : ∀ x, t.busy ≠ some (.live x)) :
    t.underWay = t.outstanding := by
  unfold Track.underWay
  split
  · rename_i x hbusy
    exact absurd hbusy (h x)
  · rfl

/-- An element of a list and those that are left without it. -/
theorem cons_eraseIdx_perm {xs : List Issued} {k : Nat} {x : Issued} (h : xs[k]? = some x) :
    (x :: xs.eraseIdx k).Perm xs := by
  obtain ⟨hlt, rfl⟩ := List.getElem?_eq_some_iff.mp h
  exact List.getElem_cons_eraseIdx_perm hlt

theorem toList_eraseIdx_perm (xs : List Issued) (k : Nat) :
    ((xs[k]?).toList ++ xs.eraseIdx k).Perm xs := by
  cases hx : xs[k]? with
  | none => rw [List.eraseIdx_of_length_le (List.getElem?_eq_none_iff.mp hx)]; rfl
  | some x => exact cons_eraseIdx_perm hx

theorem TrackOk.liveWaiting (h : TrackOk made t row) (hlive : ∀ x, t.busy ≠ some (.live x)) :
    LiveOk t.fate t.outstanding t.wire t.liveAddressed t.cancelled :=
  Track.underWay_of_not_live hlive ▸ h.live

/-- Broadcasts with one frame are one broadcast. -/
theorem TrackOk.frame_inj (h : TrackOk made t row) {x y : Issued} (hx : x ∈ t.liveAddressed)
    (hy : y ∈ t.liveAddressed) (hframe : y.frame = x.frame) : y = x := by
  have hordered := h.ordered
  rw [List.map_append, List.pairwise_append] at hordered
  have hnodup : (t.liveAddressed.map Issued.number).Nodup := hordered.2.1.imp Nat.ne_of_lt
  exact List.inj_on_of_nodup_map hnodup hy hx (Frame.event.inj hframe).1

/-- A broadcast that is only now made is not on the wire. -/
theorem TrackOk.unsent (h : TrackOk made t row) {x : Issued} (hnumber : made ≤ x.number) :
    x.frame ∉ t.wire := by
  obtain ⟨first, delivered, rest, late, hs⟩ := h.split
  have hnever : ∀ y ∈ t.addressed ++ t.liveAddressed, y.frame ≠ x.frame := by
    intro y hy hframe
    have hlt := (h.below y hy).1
    rw [(Frame.event.inj hframe).1] at hlt
    omega
  rw [hs.wire]
  intro hmem
  rcases List.mem_append.mp hmem with hmem | hlate
  · rcases List.mem_append.mp hmem with hfirst | hdelivered
    · have hopening := hs.opening.subset hfirst
      simp [Issued.frame] at hopening
    · obtain ⟨y, hy, hframe⟩ := List.mem_map.mp hdelivered
      refine hnever y (List.mem_append_left _ ?_) hframe
      rw [hs.addressed]
      exact List.mem_append_left _ hy
  · rcases hs.lives _ hlate with hnotice | ⟨y, hy, hframe⟩
    · cases hnotice
    · exact hnever y (List.mem_append_right _ hy) hframe.symm

theorem Track.sending_of_idle (h : t.busy = none) : t.sending = [] := by
  unfold Track.sending
  rw [h]

/-- A socket that has just been registered. -/
theorem TrackOk.opened {r : ConnectionMetadata} (hpending : r.pending = [])
    (hready : r.broadcastReady = false) :
    TrackOk made { admission := r.afterSequence } (some r) where
  attached := ⟨fun _ => rfl, fun _ => rfl⟩
  row r' hr' := by
    obtain rfl := Option.some.inj hr'
    refine ⟨?_, hready, rfl⟩
    rw [hpending]
    rfl
  holder _ hh := by cases hh
  stage _ := by
    constructor
    · intro h
      cases h
    · intro h
      cases h
  live := LiveOk.start
  ordered := List.Pairwise.nil
  below _ hx := by cases hx
  unswitched _ := rfl
  split := by
    refine ⟨[], [], [], [], rfl, rfl, List.nil_prefix, fun h => absurd rfl h, fun _ => ⟨rfl, ?_⟩,
      List.nil_prefix, fun _ _ => rfl, ?_, ?_⟩
    · exact fun _ => rfl
    · intro h
      cases h
    · intro f hf
      cases hf

/-- More broadcasts are made elsewhere. -/
theorem TrackOk.later {made' : Nat} (h : TrackOk made t row) (hle : made ≤ made') :
    TrackOk made' t row :=
  { h with below := fun x hx => ⟨(h.below x hx).1.trans_le hle, (h.below x hx).2⟩ }

/-- Metadata rewritten where the history does not look. -/
theorem TrackOk.rewritten {row' : Option ConnectionMetadata} (h : TrackOk made t row)
    (hsome : row'.isSome = row.isSome)
    (hsame : ∀ r' ∈ row', ∃ r ∈ row, r'.pending = r.pending ∧
      r'.broadcastReady = r.broadcastReady ∧ r'.afterSequence = r.afterSequence) :
    TrackOk made t row' :=
  { h with
    attached := by
      rw [hsome]
      exact h.attached
    row := by
      intro r' hr'
      obtain ⟨r, hr, hpending, hready, hadmission⟩ := hsame r' hr'
      have hok := h.row r hr
      exact ⟨hpending ▸ hok.pending, hready ▸ hok.ready, hadmission ▸ hok.admission⟩ }

/-- The lock is taken by somebody who has not taken an event yet. -/
theorem TrackOk.hold {holder : Holder} {outstanding : List Issued} (h : TrackOk made t row)
    (hidle : t.busy = none) (hrow : row.isSome = true) (hholder : HolderOk t holder)
    (hnone : Track.sending { t with busy := some holder } = [])
    (hperm : (Track.underWay { t with busy := some holder, outstanding := outstanding }).Perm
      t.outstanding) :
    TrackOk made { t with busy := some holder, outstanding := outstanding } row := by
  obtain ⟨first, delivered, rest, late, hs⟩ := h.split
  have hattached := h.attached.mpr hrow
  have hempty := Track.sending_of_idle hidle
  have hunder : t.underWay = t.outstanding := Track.underWay_of_not_live (by rw [hidle]; nofun)
  refine { h with
    row := fun r hr => ⟨(h.row r hr).pending, (h.row r hr).ready, (h.row r hr).admission⟩
    holder := ?_
    live := h.live.perm (hunder ▸ hperm)
    split := ⟨first, delivered, rest, late, { hs with
      staged := fun hactive => hs.staged ⟨.inl hattached, hactive.2⟩
      sending := ?_
      kept := ?_ }⟩ }
  · intro other hother
    obtain rfl := Option.some.inj hother
    exact hholder
  · show Track.sending { t with busy := some holder } <+: rest
    rw [hnone]
    exact List.nil_prefix
  · intro hfate hstage
    show rest = Track.sending { t with busy := some holder } ++ t.queued
    rw [hnone, hs.kept hfate hstage, hempty]

/-- Live sends that wait are given up. -/
theorem TrackOk.forget {gone outstanding : List Issued} (h : TrackOk made t row)
    (hperm : (gone ++ outstanding).Perm t.outstanding) :
    TrackOk made { t with outstanding := outstanding, cancelled := t.cancelled ++ gone } row := by
  obtain ⟨first, delivered, rest, late, hs⟩ := h.split
  refine { h with
    row := fun r hr => ⟨(h.row r hr).pending, (h.row r hr).ready, (h.row r hr).admission⟩
    holder := fun holder hholder => h.holder holder hholder
    live := h.live.giveUp ?_
    split := ⟨first, delivered, rest, late, { hs with }⟩ }
  unfold Track.underWay
  dsimp only
  split
  · exact List.perm_middle.trans (hperm.cons _)
  · exact hperm

/-- The registration ends, for whatever reason. -/
theorem TrackOk.detach (fate : Fate) (h : TrackOk made t row) (hfate : fate ≠ .attached) :
    TrackOk made (t.detach fate) none := by
  obtain ⟨first, delivered, rest, late, hs⟩ := h.split
  refine { h with
    attached := ⟨fun heq => absurd heq hfate, fun hnone => by cases hnone⟩
    row := fun r hr => by cases hr
    holder := fun holder hholder => h.holder holder hholder
    live := h.live.detached hfate
    split := ⟨first, delivered, rest, late, { hs with
      staged := ?_
      kept := fun heq => absurd heq hfate }⟩ }
  rintro ⟨hbusy, hstage⟩
  refine hs.staged ⟨.inr ?_, hstage⟩
  rcases hbusy with heq | hbusy
  · exact absurd heq hfate
  · exact hbusy

/-- A fate that is decided after the registration has ended. -/
theorem TrackOk.decided {fate : Fate} (h : TrackOk made t row) (hold : t.fate ≠ .attached)
    (hfate : fate ≠ .attached) : TrackOk made { t with fate := fate } row := by
  obtain ⟨first, delivered, rest, late, hs⟩ := h.split
  refine { h with
    attached := ⟨fun heq => absurd heq hfate, fun hsome => absurd (h.attached.mpr hsome) hold⟩
    row := fun r hr => ⟨(h.row r hr).pending, (h.row r hr).ready, (h.row r hr).admission⟩
    holder := fun holder hholder => h.holder holder hholder
    live := h.live.detached hfate
    split := ⟨first, delivered, rest, late, { hs with
      staged := ?_
      kept := fun heq => absurd heq hfate }⟩ }
  rintro ⟨hbusy, hstage⟩
  refine hs.staged ⟨.inr ?_, hstage⟩
  rcases hbusy with heq | hbusy
  · exact absurd heq hfate
  · exact hbusy

/-- Once the registration has ended and nobody holds the lock, any notice may go out. -/
theorem TrackOk.shut {notices : List Frame} (h : TrackOk made t row) (hold : t.fate ≠ .attached)
    (hidle : t.busy = none) (hnotices : ∀ f ∈ notices, f = .notice) :
    TrackOk made { t with fate := .closed, wire := t.wire ++ notices } row := by
  obtain ⟨first, delivered, rest, late, hs⟩ := h.split
  have hother : ∀ f ∈ notices, ∀ x ∈ t.liveAddressed, f ≠ x.frame := by
    intro f hf x _
    rw [hnotices f hf]
    nofun
  refine { h with
    attached := ⟨fun heq => (by cases heq), fun hsome => absurd (h.attached.mpr hsome) hold⟩
    row := fun r hr => ⟨(h.row r hr).pending, (h.row r hr).ready, (h.row r hr).admission⟩
    holder := fun holder hholder => h.holder holder hholder
    live := (h.live.write hother).detached nofun
    split := ⟨first, delivered, rest, late ++ notices, { hs with
      wire := ?_
      staged := ?_
      kept := fun heq => (by cases heq)
      lives := ?_ }⟩ }
  · show t.wire ++ notices = _
    rw [hs.wire]
    simp only [List.append_assoc]
  · rintro ⟨hbusy | hbusy, -⟩
    · cases hbusy
    · exact absurd hidle hbusy
  · intro f hf
    rcases List.mem_append.mp hf with hf | hf
    · exact hs.lives f hf
    · exact .inl (hnotices f hf)

/-- The broadcasts addressed so far, with one more at the end. -/
theorem ordered_append {xs : List Issued} {x : Issued}
    (h : (xs.map Issued.number).Pairwise (· < ·)) (hlt : ∀ y ∈ xs, y.number < x.number) :
    ((xs ++ [x]).map Issued.number).Pairwise (· < ·) := by
  rw [List.map_append, List.pairwise_append]
  refine ⟨h, List.pairwise_singleton _ _, ?_⟩
  intro a ha b hb
  obtain ⟨y, hy, rfl⟩ := List.mem_map.mp ha
  obtain rfl := List.mem_singleton.mp hb
  exact hlt y hy

/-- A live socket is to be sent the broadcast. -/
theorem TrackOk.addLive {x : Issued} (h : TrackOk made t row) (hnumber : x.number = made)
    (habove : x.Above t.admission) (hswitched : t.switched = true) :
    TrackOk (made + 1)
      { t with liveAddressed := t.liveAddressed ++ [x], outstanding := t.outstanding ++ [x] }
      row := by
  obtain ⟨first, delivered, rest, late, hs⟩ := h.split
  have hunder : Track.underWay { t with
      liveAddressed := t.liveAddressed ++ [x], outstanding := t.outstanding ++ [x] } =
      t.underWay ++ [x] := by
    unfold Track.underWay
    dsimp only
    split <;> rfl
  have hnew : x ∉ t.liveAddressed := by
    intro hx
    have hlt := (h.below x (List.mem_append_right _ hx)).1
    omega
  refine { h with
    row := fun r hr => ⟨(h.row r hr).pending, (h.row r hr).ready, (h.row r hr).admission⟩
    holder := ?_
    live := hunder ▸ h.live.add hnew (h.unsent hnumber.ge)
    ordered := ?_
    below := ?_
    unswitched := fun hfalse => ?_
    split := ⟨first, delivered, rest, late, { hs with lives := ?_ }⟩ }
  · intro holder hholder
    have hok := h.holder holder hholder
    cases holder with
    | frame f => exact hok
    | drain sending => exact hok
    | live y => exact List.mem_append_left _ hok
  · show ((t.addressed ++ (t.liveAddressed ++ [x])).map Issued.number).Pairwise _
    rw [← List.append_assoc]
    refine ordered_append h.ordered fun y hy => ?_
    rw [hnumber]
    exact (h.below y hy).1
  · intro y hy
    rw [← List.append_assoc] at hy
    rcases List.mem_append.mp hy with hy | hy
    · exact ⟨Nat.lt_succ_of_lt (h.below y hy).1, (h.below y hy).2⟩
    · obtain rfl := List.mem_singleton.mp hy
      exact ⟨hnumber ▸ Nat.lt_succ_self _, habove⟩
  · have htrue : t.switched = false := hfalse
    rw [hswitched] at htrue
    cases htrue
  · intro f hf
    rcases hs.lives f hf with hnotice | ⟨y, hy, hframe⟩
    · exact .inl hnotice
    · exact .inr ⟨y, List.mem_append_left _ hy, hframe⟩

/-- The history of a socket that is not live, with one more broadcast. -/
theorem TrackOk.history {x : Issued} (h : TrackOk made t row) (hnumber : x.number = made)
    (habove : x.Above t.admission) (hswitched : t.switched = false) :
    ((t.addressed ++ [x] ++ t.liveAddressed).map Issued.number).Pairwise (· < ·) ∧
      ∀ y ∈ t.addressed ++ [x] ++ t.liveAddressed, y.number < made + 1 ∧ y.Above t.admission := by
  have hordered := h.ordered
  have hbelow := h.below
  rw [h.unswitched hswitched, List.append_nil] at hordered hbelow ⊢
  constructor
  · refine ordered_append hordered fun y hy => ?_
    rw [hnumber]
    exact (hbelow y hy).1
  · intro y hy
    rcases List.mem_append.mp hy with hy | hy
    · exact ⟨Nat.lt_succ_of_lt (hbelow y hy).1, (hbelow y hy).2⟩
    · obtain rfl := List.mem_singleton.mp hy
      exact ⟨hnumber ▸ Nat.lt_succ_self _, habove⟩

/-- The broadcast waits with an initializing socket. -/
theorem TrackOk.addWaiting {x : Issued} {r : ConnectionMetadata} {event : PendingEvent}
    (h : TrackOk made t (some r)) (hnumber : x.number = made) (habove : x.Above t.admission)
    (hswitched : t.switched = false) (hbuffered : x.event.buffered = some event) :
    TrackOk (made + 1) { t with addressed := t.addressed ++ [x], queued := t.queued ++ [x] }
      (some (r.queue event)) := by
  obtain ⟨first, delivered, rest, late, hs⟩ := h.split
  obtain ⟨hordered, hbelow⟩ := h.history hnumber habove hswitched
  refine { h with
    attached := ⟨fun _ => rfl, fun _ => h.attached.mpr rfl⟩
    row := ?_
    holder := fun holder hholder => h.holder holder hholder
    ordered := hordered
    below := hbelow
    split := ⟨first, delivered, rest ++ [x], late, { hs with
      addressed := ?_
      sending := hs.sending.trans (List.prefix_append _ _)
      kept := ?_
      switched := ?_ }⟩ }
  · intro r' hr'
    obtain rfl := Option.some.inj hr'
    have hok := h.row r rfl
    refine ⟨?_, hok.ready, hok.admission⟩
    show (r.pending ++ [event]).map some = (t.queued ++ [x]).map _
    rw [List.map_append, List.map_append, hok.pending, List.map_singleton, List.map_singleton,
      hbuffered]
  · show t.addressed ++ [x] = delivered ++ (rest ++ [x])
    rw [hs.addressed, List.append_assoc]
  · intro hfate hstage
    show rest ++ [x] = t.sending ++ (t.queued ++ [x])
    rw [hs.kept hfate hstage, List.append_assoc]
  · intro htrue
    have hfalse : t.switched = true := htrue
    rw [hswitched] at hfalse
    cases hfalse

/-- The broadcast finds no room with an initializing socket, whose registration ends. -/
theorem TrackOk.refuse {x : Issued} (h : TrackOk made t row) (hnumber : x.number = made)
    (habove : x.Above t.admission) (hswitched : t.switched = false) :
    TrackOk (made + 1) (({ t with addressed := t.addressed ++ [x] } : Track).detach .closing)
      none := by
  obtain ⟨first, delivered, rest, late, hs⟩ := (h.detach .closing nofun).split
  obtain ⟨hordered, hbelow⟩ := h.history hnumber habove hswitched
  refine { h.detach .closing nofun with
    holder := fun holder hholder => h.holder holder hholder
    row := fun r hr => by cases hr
    ordered := hordered
    below := hbelow
    split := ⟨first, delivered, rest ++ [x], late, { hs with
      addressed := ?_
      sending := hs.sending.trans (List.prefix_append _ _)
      kept := fun heq => (by cases heq)
      switched := ?_ }⟩ }
  · show t.addressed ++ [x] = delivered ++ (rest ++ [x])
    rw [← List.append_assoc, ← hs.addressed]
    rfl
  · intro htrue
    have hfalse : t.switched = true := htrue
    rw [hswitched] at hfalse
    cases hfalse

/-- The activation takes the event that has waited longest. -/
theorem TrackOk.take {r : ConnectionMetadata} {event : PendingEvent} {pending : List PendingEvent}
    (h : TrackOk made t (some r)) (hbusy : t.busy = some (.drain none))
    (hpending : r.pending = event :: pending) :
    TrackOk made { t with
        busy := some (.drain (t.queued.head?.map fun x => (x, event)))
        queued := t.queued.tail }
      (some (r.take event pending)) := by
  obtain ⟨first, delivered, rest, late, hs⟩ := h.split
  have hok := h.row r rfl
  have hstage : t.stage = .historySent := (h.holder _ hbusy).1
  have hattached := h.attached.mpr rfl
  have hqueue := hok.pending
  cases hqueued : t.queued with
  | nil =>
      rw [hpending, hqueued] at hqueue
      cases hqueue
  | cons x others =>
      rw [hpending, hqueued, List.map_cons, List.map_cons, List.cons_eq_cons] at hqueue
      have hactive : t.Active := ⟨.inl hattached, by rw [hstage]; nofun⟩
      have hrest : rest = x :: others := by
        have hkept := hs.kept hattached hactive.2
        have hidle : t.sending = [] := by
          unfold Track.sending
          rw [hbusy]
        rw [hkept, hidle, hqueued]
        rfl
      refine { h with
        attached := ⟨fun _ => rfl, fun _ => hattached⟩
        row := ?_
        holder := ?_
        live := h.liveWaiting (by rw [hbusy]; nofun)
        split := ⟨first, delivered, rest, late, { hs with
          staged := fun _ => hs.staged hactive
          sending := ?_
          kept := ?_ }⟩ }
      · intro r' hr'
        obtain rfl := Option.some.inj hr'
        exact ⟨hqueue.2, hok.ready, hok.admission⟩
      · intro holder hholder
        obtain rfl := Option.some.inj hholder
        refine ⟨hstage, fun p hp => ?_⟩
        obtain rfl := Option.some.inj hp
        exact hqueue.1.symm
      · show [x] <+: rest
        rw [hrest]
        exact ⟨others, rfl⟩
      · intro _ _
        exact hrest

/-- The queue is empty and the socket goes live. -/
theorem TrackOk.goLive {r : ConnectionMetadata} (h : TrackOk made t (some r))
    (hbusy : t.busy = some (.drain none)) (hpending : r.pending = []) :
    TrackOk made { t with busy := none, stage := .live, switched := true } (some r.goLive) := by
  obtain ⟨first, delivered, rest, late, hs⟩ := h.split
  have hok := h.row r rfl
  have hstage : t.stage = .historySent := (h.holder _ hbusy).1
  have hattached := h.attached.mpr rfl
  have hactive : t.Active := ⟨.inl hattached, by rw [hstage]; nofun⟩
  have hempty : t.queued = [] := by
    have hqueue := hok.pending
    rw [hpending, List.map_nil, eq_comm, List.map_eq_nil_iff] at hqueue
    exact hqueue
  have hrest : rest = [] := by
    have hidle : t.sending = [] := by
      unfold Track.sending
      rw [hbusy]
    rw [hs.kept hattached hactive.2, hidle, hempty]
    rfl
  have hfirst : first = [.ready, .history] := by
    rw [(hs.staged hactive).1, hstage]
    rfl
  refine { h with
    attached := ⟨fun _ => rfl, fun _ => hattached⟩
    row := ?_
    holder := fun holder hholder => by cases hholder
    stage := fun _ => ⟨fun _ => rfl, fun _ => rfl⟩
    live := h.liveWaiting (by rw [hbusy]; nofun)
    unswitched := fun hfalse => by cases hfalse
    split := ⟨first, delivered, rest, late, { hs with
      staged := fun _ => ⟨hfirst, fun hfalse => (by cases hfalse)⟩
      sending := List.nil_prefix
      kept := ?_
      switched := fun _ => ⟨hfirst, hrest⟩ }⟩ }
  · intro r' hr'
    obtain rfl := Option.some.inj hr'
    exact ⟨hok.pending, rfl, hok.admission⟩
  · intro _ _
    show rest = [] ++ t.queued
    rw [hrest, hempty]
    rfl

/-- While the session is in its opening frames nothing else is on the wire. -/
theorem Split.beforeHistory {first late : List Frame} {delivered rest : List Issued}
    (hs : Split t first delivered rest late) (hactive : t.Active) (hswitched : t.switched = false)
    (hstage : t.stage.frames ≠ [.ready, .history]) : delivered = [] ∧ late = [] := by
  obtain ⟨hfirst, hlate⟩ := hs.staged hactive
  refine ⟨?_, hlate hswitched⟩
  by_contra hne
  exact hstage (hfirst.symm.trans (hs.started hne))

/-- An opening frame goes out. -/
theorem TrackOk.completeFrame {f : Frame} (h : TrackOk made t row)
    (hbusy : t.busy = some (.frame f)) :
    TrackOk made { t with busy := none, stage := t.stage.after f, wire := t.wire ++ [f] } row := by
  obtain ⟨first, delivered, rest, late, hs⟩ := h.split
  have hsends : t.stage.Sends f := h.holder _ hbusy
  have hidle : t.sending = [] := by
    unfold Track.sending
    rw [hbusy]
  have hrow : ∀ r ∈ row, RowOk { t with
      busy := none, stage := t.stage.after f, wire := t.wire ++ [f] } r :=
    fun r hr => ⟨(h.row r hr).pending, (h.row r hr).ready, (h.row r hr).admission⟩
  have hlive : LiveOk t.fate t.outstanding (t.wire ++ [f]) t.liveAddressed t.cancelled := by
    refine (h.liveWaiting (by rw [hbusy]; nofun)).write fun g hg x _ heq => ?_
    obtain rfl := List.mem_singleton.mp hg
    subst heq
    cases hstage : t.stage <;> rw [hstage] at hsends <;> exact hsends
  by_cases hnotice : f = .notice
  · -- a notice changes nothing for the session
    subst hnotice
    have hafter : t.stage.after .notice = t.stage := by cases t.stage <;> rfl
    rw [hafter] at hrow ⊢
    refine { h with
      row := hrow
      holder := fun holder hholder => by cases hholder
      live := hlive
      split := ⟨first, delivered, rest, late ++ [.notice], { hs with
        wire := ?_
        staged := ?_
        sending := List.nil_prefix
        kept := ?_
        lives := ?_ }⟩ }
    · show t.wire ++ [Frame.notice] = _
      rw [hs.wire]
      simp only [List.append_assoc]
    · rintro ⟨hattached | hbusy', hstage⟩
      · obtain ⟨hfirst, -⟩ := hs.staged ⟨.inl hattached, hstage⟩
        refine ⟨hfirst, fun hfalse => ?_⟩
        have hstaged : t.stage = .live := by
          cases hcase : t.stage with
          | live => rfl
          | leaving => exact absurd hcase hstage
          | registered | readySent | historySent =>
              rw [hcase] at hsends
              exact absurd hsends id
        have htrue := (h.stage hstage).mpr hstaged
        have hswitched : t.switched = false := hfalse
        rw [hswitched] at htrue
        cases htrue
      · exact absurd rfl hbusy'
    · intro hfate hstage
      show rest = [] ++ t.queued
      rw [hs.kept hfate hstage, hidle]
    · intro g hg
      rcases List.mem_append.mp hg with hg | hg
      · exact hs.lives g hg
      · exact .inl (List.mem_singleton.mp hg)
  · have hcases : (t.stage = .registered ∧ f = .ready) ∨ (t.stage = .readySent ∧ f = .history) := by
      cases hstage : t.stage <;> rw [hstage] at hsends <;> cases f
      all_goals first
        | exact absurd hsends id
        | exact absurd rfl hnotice
        | exact .inl ⟨rfl, rfl⟩
        | exact .inr ⟨rfl, rfl⟩
    have hactive : t.Active := by
      refine ⟨.inr (by rw [hbusy]; nofun), ?_⟩
      rcases hcases with ⟨hstage, -⟩ | ⟨hstage, -⟩ <;> rw [hstage] <;> nofun
    have hswitched : t.switched = false := by
      rw [← Bool.not_eq_true, h.stage hactive.2]
      rcases hcases with ⟨hstage, -⟩ | ⟨hstage, -⟩ <;> rw [hstage] <;> nofun
    have hearly : t.stage.frames ≠ [.ready, .history] := by
      rcases hcases with ⟨hstage, -⟩ | ⟨hstage, -⟩ <;> rw [hstage] <;> decide
    obtain ⟨rfl, rfl⟩ := hs.beforeHistory hactive hswitched hearly
    have hfirst := (hs.staged hactive).1
    have hnext : first ++ [f] = (t.stage.after f).frames := by
      rw [hfirst]
      rcases hcases with ⟨hstage, rfl⟩ | ⟨hstage, rfl⟩ <;> rw [hstage] <;> rfl
    have hafter : t.stage.after f ≠ .leaving ∧ t.stage.after f ≠ .live := by
      rcases hcases with ⟨hstage, rfl⟩ | ⟨hstage, rfl⟩ <;> rw [hstage] <;> exact ⟨nofun, nofun⟩
    refine { h with
      row := hrow
      holder := fun holder hholder => by cases hholder
      stage := ?_
      live := hlive
      split := ⟨first ++ [f], [], rest, [], { hs with
        wire := ?_
        opening := ?_
        started := fun hne => absurd rfl hne
        staged := fun _ => ⟨hnext, fun _ => rfl⟩
        sending := List.nil_prefix
        kept := ?_
        switched := ?_ }⟩ }
    · intro _
      constructor
      · intro htrue
        have hfalse : t.switched = true := htrue
        rw [hswitched] at hfalse
        cases hfalse
      · intro hstaged
        exact absurd hstaged hafter.2
    · show t.wire ++ [f] = _
      rw [hs.wire]
      simp
    · rw [hnext]
      rcases hcases with ⟨hstage, rfl⟩ | ⟨hstage, rfl⟩ <;> rw [hstage] <;> decide
    · intro hfate _
      show rest = [] ++ t.queued
      rw [hs.kept hfate hactive.2, hidle]
    · intro htrue
      have hfalse : t.switched = true := htrue
      rw [hswitched] at hfalse
      cases hfalse

/-- The event of an activation goes out. -/
theorem TrackOk.completeDrain {x : Issued} {event : PendingEvent} (h : TrackOk made t row)
    (hbusy : t.busy = some (.drain (some (x, event)))) :
    TrackOk made { t with
        busy := some (.drain none)
        wire := t.wire ++ [.event x.number (some event.payload)] } row := by
  obtain ⟨first, delivered, rest, late, hs⟩ := h.split
  obtain ⟨hstage, hbuffered⟩ : t.stage = .historySent ∧ _ := h.holder _ hbusy
  have hframe : Frame.event x.number (some event.payload) = x.frame := by
    have hpayload := hbuffered (x, event) rfl
    unfold Broadcast.buffered at hpayload
    obtain ⟨payload, hsome, rfl⟩ := Option.map_eq_some_iff.mp hpayload
    unfold Issued.frame
    rw [hsome]
  have hsending : t.sending = [x] := by
    unfold Track.sending
    rw [hbusy]
  have hactive : t.Active := ⟨.inr (by rw [hbusy]; nofun), by rw [hstage]; nofun⟩
  have hswitched : t.switched = false := by
    rw [← Bool.not_eq_true, h.stage hactive.2, hstage]
    nofun
  obtain ⟨hfirst, hlate⟩ := hs.staged hactive
  obtain rfl := hlate hswitched
  have hprefix := hs.sending
  rw [hsending] at hprefix
  obtain ⟨others, rfl⟩ := hprefix
  have hfull : first = [.ready, .history] := by
    rw [hfirst, hstage]
    rfl
  have hnone : ∀ f ∈ [x.frame], ∀ y ∈ t.liveAddressed, f ≠ y.frame := by
    rw [h.unswitched hswitched]
    nofun
  refine { h with
    row := fun r hr => ⟨(h.row r hr).pending, (h.row r hr).ready, (h.row r hr).admission⟩
    holder := ?_
    live := hframe ▸ (h.liveWaiting (by rw [hbusy]; nofun)).write hnone
    split := ⟨first, delivered ++ [x], others, [], { hs with
      wire := ?_
      addressed := ?_
      started := fun _ => hfull
      staged := fun _ => ⟨hfirst, fun _ => rfl⟩
      sending := List.nil_prefix
      kept := ?_
      switched := ?_ }⟩ }
  · intro holder hholder
    obtain rfl := Option.some.inj hholder
    exact ⟨hstage, fun p hp => by cases hp⟩
  · show t.wire ++ [_] = _
    rw [hs.wire, hframe]
    simp
  · show t.addressed = delivered ++ [x] ++ others
    rw [hs.addressed, List.append_assoc]
  · intro hfate hleaving
    have hkept := hs.kept hfate hleaving
    rw [hsending] at hkept
    exact List.append_cancel_left hkept
  · intro htrue
    have hfalse : t.switched = true := htrue
    rw [hswitched] at hfalse
    cases hfalse

/-- The end of a live send, with whatever reached the wire. -/
theorem TrackOk.endLive {x : Issued} {frames : List Frame} {cancelled : List Issued}
    (h : TrackOk made t row) (hbusy : t.busy = some (.live x))
    (hframes : frames = [] ∨ frames = [x.frame]) (hcancelled : ∀ y ∈ t.cancelled, y ∈ cancelled)
    (hdone : t.fate = .attached → frames = [x.frame] ∨ x ∈ cancelled) :
    TrackOk made { t with busy := none, wire := t.wire ++ frames, cancelled := cancelled }
      row := by
  obtain ⟨first, delivered, rest, late, hs⟩ := h.split
  have hlive : x ∈ t.liveAddressed := h.holder _ hbusy
  have hswitched : t.switched = true := by
    rw [← Bool.not_eq_false]
    intro hfalse
    rw [h.unswitched hfalse] at hlive
    cases hlive
  have hsending : t.sending = [] := by
    unfold Track.sending
    rw [hbusy]
  have hunder : LiveOk t.fate (x :: t.outstanding) t.wire t.liveAddressed t.cancelled :=
    Track.underWay_of_live hbusy ▸ h.live
  refine { h with
    row := fun r hr => ⟨(h.row r hr).pending, (h.row r hr).ready, (h.row r hr).admission⟩
    holder := fun holder hholder => by cases hholder
    live := hunder.finish (fun y hy => h.frame_inj hlive hy) hframes hcancelled hdone
    split := ⟨first, delivered, rest, late ++ frames, { hs with
      wire := ?_
      staged := ?_
      sending := List.nil_prefix
      kept := ?_
      lives := ?_ }⟩ }
  · show t.wire ++ frames = _
    rw [hs.wire]
    simp only [List.append_assoc]
  · rintro ⟨-, hstage⟩
    refine ⟨(hs.staged ⟨.inr (by rw [hbusy]; nofun), hstage⟩).1, fun hfalse => ?_⟩
    have hnot : t.switched = false := hfalse
    rw [hswitched] at hnot
    cases hnot
  · intro hfate hstage
    show rest = [] ++ t.queued
    rw [hs.kept hfate hstage, hsending]
  · intro f hf
    rcases List.mem_append.mp hf with hf | hf
    · exact hs.lives f hf
    · refine .inr ⟨x, hlive, ?_⟩
      rcases hframes with rfl | rfl
      · cases hf
      · exact List.mem_singleton.mp hf

/-- The session ends, and whatever it was sending has not reached the wire. -/
theorem TrackOk.stop (h : TrackOk made t row) (hlive : ∀ x, t.busy ≠ some (.live x)) :
    TrackOk made { t with busy := none, stage := .leaving } row := by
  obtain ⟨first, delivered, rest, late, hs⟩ := h.split
  exact { h with
    row := fun r hr => ⟨(h.row r hr).pending, (h.row r hr).ready, (h.row r hr).admission⟩
    holder := fun holder hholder => by cases hholder
    stage := fun hne => absurd rfl hne
    live := h.liveWaiting hlive
    split := ⟨first, delivered, rest, late, { hs with
      staged := fun hactive => absurd rfl hactive.2
      sending := List.nil_prefix
      kept := fun _ hne => absurd rfl hne }⟩ }

/-- The session ends while a broadcast holds the lock. -/
theorem TrackOk.leaveLive {x : Issued} (h : TrackOk made t row) (hbusy : t.busy = some (.live x)) :
    TrackOk made t.leave row := by
  obtain ⟨first, delivered, rest, late, hs⟩ := h.split
  refine { h with
    row := fun r hr => ⟨(h.row r hr).pending, (h.row r hr).ready, (h.row r hr).admission⟩
    holder := ?_
    stage := fun hne => absurd rfl hne
    split := ⟨first, delivered, rest, late, { hs with
      staged := fun hactive => absurd rfl hactive.2
      kept := fun _ hne => absurd rfl hne }⟩ }
  intro holder hholder
  have hsame : t.busy = some holder := hholder
  rw [hbusy] at hsame
  obtain rfl := Option.some.inj hsame
  exact h.holder _ hbusy

theorem Track.cut_cases (reached : Bool) (t : Track) :
    t.cut reached = { t with busy := none } ∨
      ∃ f, t.busy.bind Holder.sends = some f ∧ f.writable = true ∧
        t.cut reached = { t with busy := none, wire := t.wire ++ [f] } := by
  unfold Track.cut
  cases hsends : t.busy.bind Holder.sends with
  | none => exact .inl (by simp)
  | some f =>
      cases hreached : reached && f.writable with
      | false => exact .inl (by simp [Option.filter, hreached])
      | true =>
          rw [Bool.and_eq_true] at hreached
          exact .inr ⟨f, rfl, hreached.2, by simp [Option.filter, hreached.1, hreached.2]⟩

/-- The session ends in the middle of a send of its own. -/
theorem TrackOk.cutLeave (h : TrackOk made t row) (hlive : ∀ x, t.busy ≠ some (.live x))
    (reached : Bool) : TrackOk made (t.cut reached).leave row := by
  rcases t.cut_cases reached with hcut | ⟨f, hsends, -, hcut⟩
  · rw [hcut]
    exact h.stop hlive
  · rw [hcut]
    obtain ⟨holder, hbusy, hholder⟩ := Option.bind_eq_some_iff.mp hsends
    cases holder with
    | frame g =>
        obtain rfl := Option.some.inj hholder
        exact (h.completeFrame hbusy).stop nofun
    | drain sending =>
        obtain ⟨⟨x, event⟩, rfl, rfl⟩ := Option.map_eq_some_iff.mp hholder
        exact (h.completeDrain hbusy).stop nofun
    | live x => exact absurd hbusy (hlive x)

/-- A live send is broken off with the call of its broadcast. -/
theorem TrackOk.cutLive {x : Issued} (h : TrackOk made t row) (hbusy : t.busy = some (.live x))
    (reached : Bool) :
    TrackOk made { t.cut reached with cancelled := t.cancelled ++ [x] } row := by
  have hgone : x ∈ t.cancelled ++ [x] := List.mem_append_right _ List.mem_cons_self
  rcases t.cut_cases reached with hcut | ⟨f, hsends, -, hcut⟩
  · rw [hcut]
    have hnone : TrackOk made
        { t with busy := none, wire := t.wire ++ [], cancelled := t.cancelled ++ [x] } row :=
      h.endLive hbusy (.inl rfl) (fun y hy => List.mem_append_left _ hy) fun _ => .inr hgone
    rw [List.append_nil] at hnone
    exact hnone
  · rw [hcut]
    rw [hbusy] at hsends
    obtain rfl := Option.some.inj hsends
    exact h.endLive hbusy (.inr rfl) (fun y hy => List.mem_append_left _ hy) fun _ => .inr hgone

/-- The registration has ended, and with it the sends that were broken off. -/
theorem TrackOk.broken {stage : Stage} {fate : Fate} {queued cancelled : List Issued}
    (h : TrackOk made t row) (hidle : t.busy = none) (hfate : fate ≠ .attached)
    (hstage : stage ≠ .leaving → (t.switched = true ↔ stage = .live)) :
    TrackOk made { t with
      stage := stage, fate := fate, queued := queued, cancelled := cancelled } none := by
  obtain ⟨first, delivered, rest, late, hs⟩ := h.split
  exact { h with
    attached := ⟨fun heq => absurd heq hfate, fun hnone => by cases hnone⟩
    row := fun r hr => by cases hr
    holder := fun holder hholder => by
      have hsame : t.busy = some holder := hholder
      rw [hidle] at hsame
      cases hsame
    stage := hstage
    live := h.live.detached hfate
    split := ⟨first, delivered, rest, late, { hs with
      staged := by
        rintro ⟨hattached | hbusy, -⟩
        · exact absurd hattached hfate
        · exact absurd hidle hbusy
      kept := fun heq => absurd heq hfate }⟩ }

/-- A send is broken off and the registration ends, or had ended before. -/
theorem TrackOk.cutDetached {fate : Fate} {queued : List Issued} (h : TrackOk made t row)
    (reached : Bool) (hfate : fate ≠ .attached) :
    TrackOk made { t.cut reached with fate := fate, queued := queued } none := by
  by_cases hlive : ∃ x, t.busy = some (.live x)
  · obtain ⟨x, hbusy⟩ := hlive
    exact (h.cutLive hbusy reached).broken rfl hfate h.stage
  · have hnot : ∀ x, t.busy ≠ some (.live x) := fun x hbusy => hlive ⟨x, hbusy⟩
    exact (h.cutLeave hnot reached).broken rfl hfate h.stage

end TrackSteps

/-! ## The invariant of the process -/

structure HubOk (d : Hub) : Prop where
  manager : d.manager.Ok
  unknown : ∀ s, d.tracks s = none → d.row s = none
  tracks : ∀ s, ∀ t ∈ d.tracks s, TrackOk d.made t (d.row s)

section HubSteps

variable {caps : ManagerLimits} {limits : PendingLimits} {d d' : Hub} {s : Socket} {t t' : Track}
  {m : Manager}

theorem HubOk.start : HubOk {} where
  manager := Manager.Ok.start
  unknown _ _ := rfl
  tracks _ _ ht := by cases ht

/-- A step of one socket: its history changes, and only its metadata. -/
theorem HubOk.moved (h : HubOk d) (hm : m.Ok)
    (hothers : ∀ other, other ≠ s → m.metadata.find? other = d.row other)
    (ht : TrackOk d.made t' (m.metadata.find? s)) :
    HubOk ((d.setTrack s t').withManager m) where
  manager := hm
  unknown other hnone := by
    by_cases heq : other = s
    · subst heq
      have hset : Function.update d.tracks other (some t') other = none := hnone
      rw [Function.update_self] at hset
      cases hset
    · have hset : Function.update d.tracks s (some t') other = none := hnone
      rw [Function.update_of_ne heq] at hset
      exact (hothers other heq).trans (h.unknown other hset)
  tracks other t hsome := by
    by_cases heq : other = s
    · subst heq
      have hset : Function.update d.tracks other (some t') other = some t := hsome
      rw [Function.update_self] at hset
      obtain rfl := Option.some.inj hset
      exact ht
    · have hset : Function.update d.tracks s (some t') other = some t := hsome
      rw [Function.update_of_ne heq] at hset
      have hrow : Hub.row ((d.setTrack s t').withManager m) other = d.row other :=
        hothers other heq
      rw [hrow]
      exact h.tracks other t hset

theorem HubOk.retracked (h : HubOk d) (ht : TrackOk d.made t' (d.row s)) :
    HubOk (d.setTrack s t') :=
  h.moved h.manager (fun _ _ => rfl) ht

/-- A section that only detaches sockets. -/
theorem HubOk.detach {fate : Fate} (h : HubOk d) (hfate : fate ≠ .attached) (hm : m.Ok)
    (hsame : ∀ s, m.metadata.find? s = none ∨ m.metadata.find? s = d.row s) :
    HubOk (d.detach fate m) where
  manager := hm
  unknown other hnone := by
    rcases hsame other with hgone | hkept
    · exact hgone
    · exact hkept.trans (h.unknown other (Option.map_eq_none_iff.mp hnone))
  tracks other t ht := by
    obtain ⟨told, htold, rfl⟩ := Option.map_eq_some_iff.mp ht
    have hok := h.tracks other told htold
    show TrackOk d.made _ (m.metadata.find? other)
    by_cases hcase : (d.row other).isSome = true ∧ m.metadata.find? other = none
    · rw [if_pos hcase, hcase.2]
      exact hok.detach fate hfate
    · rw [if_neg hcase]
      rcases hsame other with hgone | hkept
      · have hrow : d.row other = none := by
          by_contra hne
          exact hcase ⟨Option.isSome_iff_ne_none.mpr hne, hgone⟩
        rw [hgone]
        rw [hrow] at hok
        exact hok
      · rw [hkept]
        exact hok

theorem HubOk.detachOne {fate : Fate} (h : HubOk d) (socket : Socket) (hfate : fate ≠ .attached) :
    HubOk (d.detach fate (detachConnection socket d.manager)) := by
  refine h.detach hfate (h.manager.detachConnection socket) fun s => ?_
  rw [find?_detachConnection]
  split
  · exact .inl rfl
  · exact .inr rfl

theorem HubOk.connect {row : ConnectionMetadata} {admitted : Bool} (h : HubOk d) :
    HubOk (d.connect caps row admitted) := by
  have hm : (register caps row.initializing admitted d.manager).2.Ok :=
    h.manager.register admitted
  unfold Hub.connect
  dsimp only
  rcases @register_ok d.manager caps row.initializing admitted with
    ⟨hrefused, hsame⟩ | ⟨hadded, -, -, -, -, hrows⟩
  · rw [hrefused, if_neg Bool.false_ne_true]
    have hrow : ∀ s, Hub.row (d.withManager
        (register caps row.initializing admitted d.manager).2) s =
          d.row s := by
      intro s
      unfold Hub.row Hub.withManager
      dsimp only
      rw [hsame]
    refine ⟨hm, fun s hnone => (hrow s).trans (h.unknown s hnone), fun s t ht => ?_⟩
    rw [hrow s]
    exact h.tracks s t ht
  · rw [hadded, if_pos rfl]
    refine h.moved hm ?_ ?_
    · intro other hne
      rw [hrows, Table.find?_upsert, if_neg fun heq => hne heq.symm]
      rfl
    · have hsocket : row.initializing.socket = row.socket := rfl
      rw [hrows, Table.find?_upsert, if_pos hsocket]
      exact @TrackOk.opened d.made row.initializing rfl rfl

/-- One broadcast, seen from one socket. -/
theorem TrackOk.offered {made : Nat} {e : Broadcast} {r r' : Option ConnectionMetadata}
    (h : TrackOk made t r)
    (hrow : (r' = r ∧ ∀ row ∈ r, row.roomId = e.roomId → e.Addresses row →
        row.broadcastReady = true) ∨
      ∃ row ∈ r, row.roomId = e.roomId ∧ e.Addresses row ∧ row.broadcastReady = false ∧
        (r' = none ∨ ∃ event, e.buffered = some event ∧ r' = some (row.queue event))) :
    TrackOk (made + 1) (t.offered { number := made, event := e } r r'.isSome) r' := by
  unfold Track.offered
  cases r with
  | none =>
      rcases hrow with ⟨rfl, -⟩ | ⟨row, hrow, -⟩
      · exact h.later (Nat.le_succ _)
      · cases hrow
  | some row =>
      have hok := h.row row rfl
      have habove : ∀ (_ : e.Addresses row), Issued.Above t.admission ⟨made, e⟩ := by
        intro haddressed b hb q hq
        refine haddressed.1 b hb q ?_
        rw [hok.admission]
        exact hq
      dsimp only
      by_cases hto : row.roomId = e.roomId ∧ e.Addresses row
      · rw [if_pos hto]
        cases hready : row.broadcastReady with
        | true =>
            rw [if_pos rfl]
            rcases hrow with ⟨rfl, -⟩ | ⟨other, hother, -, -, hwaiting, -⟩
            · exact h.addLive rfl (habove hto.2) (hok.ready.symm.trans hready)
            · obtain rfl := Option.some.inj hother
              rw [hready] at hwaiting
              cases hwaiting
        | false =>
            rw [if_neg Bool.false_ne_true]
            have hswitched : t.switched = false := hok.ready.symm.trans hready
            rcases hrow with ⟨-, hall⟩ | ⟨other, hother, -, -, -, rfl | ⟨event, hbuffered, rfl⟩⟩
            · rw [hall row rfl hto.1 hto.2] at hready
              cases hready
            · exact h.refuse rfl (habove hto.2) hswitched
            · obtain rfl := Option.some.inj hother
              exact h.addWaiting rfl (habove hto.2) hswitched hbuffered
      · rw [if_neg hto]
        rcases hrow with ⟨rfl, -⟩ | ⟨other, hother, hroom, haddressed, -⟩
        · exact h.later (Nat.le_succ _)
        · obtain rfl := Option.some.inj hother
          exact absurd ⟨hroom, haddressed⟩ hto

theorem HubOk.broadcast {e : Broadcast} {connections : List Socket} (h : HubOk d)
    (hperm : connections.Perm (d.manager.roomSockets e.roomId)) :
    HubOk (d.broadcast limits e connections) := by
  have hnodup : connections.Nodup := by
    rw [hperm.nodup_iff]
    cases hfind : d.manager.rooms.find? e.roomId with
    | none =>
        rw [Manager.roomSockets_of_none hfind]
        exact List.nodup_nil
    | some room =>
        rw [Manager.roomSockets_of_find? hfind]
        exact h.manager.nodup room (Table.find?_eq_some.mp hfind).1
  -- the sockets of the loop are those registered in the room
  have hroom : ∀ s, ∀ row ∈ d.row s, s ∈ connections ↔ row.roomId = e.roomId := by
    intro s row hrow
    obtain ⟨hmem, rfl⟩ := Table.find?_eq_some.mp hrow
    rw [hperm.mem_iff, h.manager.mem_iff]
    constructor
    · rintro ⟨r, hr, hsocket, hr'⟩
      rw [← Table.eq_of_key hr hmem hsocket]
      exact hr'
    · intro heq
      exact ⟨row, hmem, rfl, heq⟩
  refine ⟨h.manager.broadcast connections, ?_, ?_⟩
  · intro s hnone
    have hrow := h.unknown s (Option.map_eq_none_iff.mp hnone)
    rcases @broadcast_find? d.manager s limits e connections hnodup with ⟨hsame, -⟩ |
      ⟨row, hsome, -⟩
    · exact hsame.trans hrow
    · have hfound : d.row s = some row := hsome
      rw [hrow] at hfound
      cases hfound
  · intro s t ht
    obtain ⟨told, htold, rfl⟩ := Option.map_eq_some_iff.mp ht
    refine (h.tracks s told htold).offered ?_
    rcases @broadcast_find? d.manager s limits e connections hnodup with ⟨hsame, hready⟩ |
      ⟨row, hsome, hin, haddressed, hwaiting, hcases⟩
    · refine .inl ⟨hsame, fun row hrow heq haddressed => ?_⟩
      exact hready row hrow ((hroom s row hrow).mpr heq) haddressed
    · exact .inr ⟨row, hsome, (hroom s row hsome).mp hin, haddressed, hwaiting, hcases⟩

/-- An event of an activation is charged no longer; nobody's queue changes. -/
theorem find?_settleSend {socket : Socket} {event : PendingEvent} :
    (m.settleSend socket event).metadata.find? s =
      if s = socket then (m.metadata.find? s).map (ConnectionMetadata.settle event)
      else m.metadata.find? s := by
  unfold Manager.settleSend
  split
  · exact find?_update
  · rename_i hgone
    have hnone : m.metadata.find? socket = none := by
      unfold Manager.Registered at hgone
      simpa using hgone
    by_cases heq : s = socket
    · subst heq
      rw [if_pos rfl, hnone]
      rfl
    · rw [if_neg heq]

theorem Manager.Ok.settleSend (h : m.Ok) (socket : Socket) (event : PendingEvent) :
    (m.settleSend socket event).Ok := by
  unfold Manager.settleSend
  split
  · have hroom : ∀ r, (ConnectionMetadata.settle event r).roomId = r.roomId := fun _ => rfl
    exact h.update _ hroom _
  · exact ⟨h.nonempty, h.nodup, h.mem_iff⟩

/-- The end of a send of an activation. -/
theorem HubOk.settled {event : PendingEvent} (h : HubOk d) (ht : TrackOk d.made t' (d.row s)) :
    HubOk ((d.setTrack s t').withManager (d.manager.settleSend s event)) := by
  refine h.moved (h.manager.settleSend s event) ?_ ?_
  · intro other hne
    rw [find?_settleSend, if_neg hne]
    rfl
  · rw [find?_settleSend, if_pos rfl]
    refine ht.rewritten (Option.isSome_map) ?_
    intro r' hr'
    obtain ⟨r, hr, rfl⟩ := Option.map_eq_some_iff.mp hr'
    exact ⟨r, hr, rfl, rfl, rfl⟩

theorem HubOk.advance (h : HubOk d) (ht : d.tracks s = some t)
    (hbusy : t.busy = some (.drain none)) : HubOk (d.advance s t) := by
  have hok := h.tracks s t ht
  unfold Hub.advance activation
  cases hrow : d.manager.metadata.find? s with
  | none => exact h.retracked (hok.stop (by rw [hbusy]; nofun))
  | some row =>
      have hsome : d.row s = some row := hrow
      rw [hsome] at hok
      have hupdate : ∀ (f : ConnectionMetadata → ConnectionMetadata)
          (hf : ∀ r, (f r).socket = r.socket) (hroom : ∀ r, (f r).roomId = r.roomId)
          (t' : Track), TrackOk d.made t' (some (f row)) →
          HubOk ((d.setTrack s t').withManager
            (d.manager.update s f hf d.manager.pendingBytes)) := by
        intro f hf hroom t' ht'
        refine h.moved (h.manager.update hf hroom _) ?_ ?_
        · intro other hne
          exact find?_update.trans (if_neg hne)
        · rw [find?_update, if_pos rfl, hrow]
          exact ht'
      cases hpending : row.pending with
      | nil =>
          rw [Option.map_some, hpending]
          exact hupdate ConnectionMetadata.goLive (fun _ => rfl) (fun _ => rfl) _
            (hok.goLive hbusy hpending)
      | cons event rest =>
          rw [Option.map_some, hpending]
          exact hupdate (ConnectionMetadata.take event rest) (fun _ => rfl) (fun _ => rfl) _
            (hok.take hbusy hpending)

theorem HubOk.complete (h : HubOk d) (ht : d.tracks s = some t)
    (hstep : d.complete s t = some d') : HubOk d' := by
  have hok := h.tracks s t ht
  unfold Hub.complete at hstep
  split at hstep
  · rename_i f hbusy
    obtain rfl := Option.some.inj hstep
    exact h.retracked (hok.completeFrame hbusy)
  · rename_i x event hbusy
    obtain rfl := Option.some.inj hstep
    exact h.settled (hok.completeDrain hbusy)
  · rename_i x hbusy
    split at hstep
    · obtain rfl := Option.some.inj hstep
      exact h.retracked (hok.endLive hbusy (.inr rfl) (fun _ hx => hx) fun _ => .inl rfl)
    · cases hstep
  · cases hstep

/-- A failed send is a step of its own socket. -/
theorem Hub.detach_setTrack {fate : Fate} :
    (d.setTrack s t').detach fate (detachConnection s d.manager) =
      (d.setTrack s (if (d.row s).isSome = true then t'.detach fate else t')).withManager
        (detachConnection s d.manager) := by
  unfold Hub.detach Hub.setTrack Hub.withManager
  congr 1
  funext other
  dsimp only
  by_cases heq : other = s
  · subst heq
    rw [Function.update_self, Function.update_self, find?_detachConnection, if_pos rfl]
    cases hrow : (d.row other).isSome with
    | false => exact congrArg some (if_neg fun hcase => by
        rw [show (d.row other).isSome = true from hcase.1] at hrow
        cases hrow)
    | true => exact congrArg some (if_pos ⟨hrow, rfl⟩)
  · rw [Function.update_of_ne heq, Function.update_of_ne heq, find?_detachConnection,
      if_neg heq]
    cases d.tracks other with
    | none => rfl
    | some told =>
        have hnever : ¬ ((d.manager.metadata.find? other).isSome = true ∧
            d.manager.metadata.find? other = none) := by
          rintro ⟨hsome, hnone⟩
          rw [hnone] at hsome
          cases hsome
        exact congrArg some (if_neg hnever)

/-- A failed send ends the registration, if it has not ended before. -/
theorem HubOk.failed (h : HubOk d) (ht : d.tracks s = some t) (reached : Bool) :
    HubOk ((d.setTrack s (t.cut reached)).detach .closing (detachConnection s d.manager)) := by
  have hok := h.tracks s t ht
  rw [Hub.detach_setTrack]
  refine h.moved (h.manager.detachConnection s) ?_ ?_
  · intro other hne
    rw [find?_detachConnection, if_neg hne]
    rfl
  · rw [find?_detachConnection, if_pos rfl]
    split
    · exact hok.cutDetached reached nofun
    · rename_i hgone
      have hfate : t.fate ≠ .attached := fun heq => hgone (hok.attached.mp heq)
      exact hok.cutDetached reached hfate

theorem HubOk.leave (h : HubOk d) (ht : d.tracks s = some t) (reached : Bool) :
    HubOk (d.leave s reached t) := by
  have hok := h.tracks s t ht
  unfold Hub.leave
  split
  · rename_i x hbusy
    exact h.retracked (hok.leaveLive hbusy)
  · rename_i hbusy
    exact h.settled (hok.cutLeave (by rw [hbusy]; nofun) reached)
  · rename_i hlive _
    exact h.retracked (hok.cutLeave hlive reached)

theorem HubOk.step {action : HubAction} (h : HubOk d) (hstep : HubStep caps limits d action d') :
    HubOk d' := by
  unfold HubStep Hub.next at hstep
  cases action with
  | connect row admitted =>
      dsimp only at hstep
      split at hstep
      · obtain rfl := Option.some.inj hstep
        exact h.connect
      · cases hstep
  | broadcast e connections =>
      dsimp only at hstep
      split at hstep
      · rename_i hperm
        obtain rfl := Option.some.inj hstep
        exact h.broadcast hperm
      · cases hstep
  | begin s f =>
      obtain ⟨t, ht, hnext⟩ := Option.bind_eq_some_iff.mp hstep
      split at hnext
      · rename_i hguard
        obtain rfl := Option.some.inj hnext
        exact h.retracked ((h.tracks s t ht).hold hguard.1 hguard.2.1 hguard.2.2 rfl
          (List.Perm.refl _))
      · cases hnext
  | drain s =>
      obtain ⟨t, ht, hnext⟩ := Option.bind_eq_some_iff.mp hstep
      split at hnext
      · rename_i hguard
        obtain rfl := Option.some.inj hnext
        have hholder : HolderOk t (.drain none) := ⟨hguard.2.2, fun p hp => by cases hp⟩
        exact h.retracked ((h.tracks s t ht).hold hguard.1 hguard.2.1 hholder rfl
          (List.Perm.refl _))
      · cases hnext
  | advance s =>
      obtain ⟨t, ht, hnext⟩ := Option.bind_eq_some_iff.mp hstep
      split at hnext
      · rename_i hbusy
        obtain rfl := Option.some.inj hnext
        exact h.advance ht hbusy
      · cases hnext
  | complete s =>
      obtain ⟨t, ht, hnext⟩ := Option.bind_eq_some_iff.mp hstep
      exact h.complete ht hnext
  | fail s reached =>
      obtain ⟨t, ht, hnext⟩ := Option.bind_eq_some_iff.mp hstep
      unfold Hub.fail at hnext
      split at hnext
      · rename_i hbusy
        obtain rfl := Option.some.inj hnext
        exact h.settled ((h.tracks s t ht).cutLeave (by rw [hbusy]; nofun) reached)
      · obtain rfl := Option.some.inj hnext
        exact h.failed ht reached
      · obtain rfl := Option.some.inj hnext
        exact h.failed ht reached
      · cases hnext
  | leave s reached =>
      obtain ⟨t, ht, rfl⟩ := Option.map_eq_some_iff.mp hstep
      exact h.leave ht reached
  | beginLive s k =>
      obtain ⟨t, ht, hnext⟩ := Option.bind_eq_some_iff.mp hstep
      obtain ⟨x, hx, hnext⟩ := Option.bind_eq_some_iff.mp hnext
      split at hnext
      · rename_i hguard
        obtain rfl := Option.some.inj hnext
        have hok := h.tracks s t ht
        have hunder : t.underWay = t.outstanding :=
          Track.underWay_of_not_live (by rw [hguard.1]; nofun)
        have hholder : HolderOk t (.live x) :=
          hok.live.addressed x (hunder ▸ List.mem_of_getElem? hx)
        exact h.retracked (hok.hold hguard.1 hguard.2 hholder rfl (cons_eraseIdx_perm hx))
      · cases hnext
  | cancelLive s reached =>
      obtain ⟨t, ht, hnext⟩ := Option.bind_eq_some_iff.mp hstep
      split at hnext
      · rename_i x hbusy
        obtain rfl := Option.some.inj hnext
        exact h.retracked ((h.tracks s t ht).cutLive hbusy reached)
      · cases hnext
  | cancelWaiting s k =>
      obtain ⟨t, ht, rfl⟩ := Option.map_eq_some_iff.mp hstep
      exact h.retracked ((h.tracks s t ht).forget (toList_eraseIdx_perm t.outstanding k))
  | close s =>
      obtain rfl := Option.some.inj hstep
      exact h.detachOne s nofun
  | unregister s =>
      obtain rfl := Option.some.inj hstep
      exact h.detachOne s nofun
  | closeRoom roomId eventSequence =>
      obtain rfl := Option.some.inj hstep
      exact h.detach nofun (h.manager.detachRoomConnections none eventSequence)
        fun _ => find?_detachRoomConnections
  | closeMember roomId subject eventSequence =>
      obtain rfl := Option.some.inj hstep
      exact h.detach nofun (h.manager.detachRoomConnections (some subject) eventSequence)
        fun _ => find?_detachRoomConnections
  | closeAll =>
      obtain rfl := Option.some.inj hstep
      exact h.detach nofun (Manager.Ok.closeAll d.manager) fun _ => .inl rfl
  | shut s notified =>
      obtain ⟨t, ht, hnext⟩ := Option.bind_eq_some_iff.mp hstep
      split at hnext
      · rename_i hguard
        obtain rfl := Option.some.inj hnext
        have hgone : t.fate ≠ .attached := by
          rcases hguard.2 with hfate | hfate <;> rw [hfate] <;> nofun
        refine h.retracked ((h.tracks s t ht).shut hgone hguard.1 ?_)
        intro f hf
        split at hf
        · exact List.mem_singleton.mp hf
        · cases hf
      · cases hnext
  | abandon s =>
      obtain ⟨t, ht, hnext⟩ := Option.bind_eq_some_iff.mp hstep
      split at hnext
      · rename_i hfate
        obtain rfl := Option.some.inj hnext
        have hgone : t.fate ≠ .attached := by rw [hfate]; nofun
        exact h.retracked ((h.tracks s t ht).decided hgone nofun)
      · cases hnext

theorem HubReachable.ok (h : HubReachable caps limits d) : HubOk d := by
  refine h.invariant ?_ fun _ _ _ hd hstep => hd.step hstep
  rintro _ rfl
  exact HubOk.start

end HubSteps

end Sockets
end ChatEngine
