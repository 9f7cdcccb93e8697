import ChatEngine.Lib.Run
import ChatEngine.Sockets.Session

/-!
# Sessions against administration, in one process

The server on SQLite: sessions open, and administrators archive rooms and ban members,
with every await of either a step of its own.

* `Server.advance`, the next await of a session;
* `Server.commit` and `Server.settle`, an administrator's request: the transaction,
  and afterwards the close of the sockets it is about;
* `ServerOk`, the invariant: a session that is still registered has read every
  ruling whose request is done;
* `barred_session_not_registered`, the property of every reachable state.
-/

namespace ChatEngine
namespace Sockets

open Lib
open Models
open Store

/-! ## The server -/

/-- Where a request stands: its transaction, the check whether the ban still runs,
the close, and its end. -/
inductive RequestPhase where
  | begun
  | replied (deadline : Option Timestamp)
  | closing
  | done
  deriving DecidableEq

structure ServerConfig where
  store : Config
  limits : ManagerLimits

/-- The process.  `rulings` and `committedAt` are the history of what has been
committed, and as the how-manieth ruling of which request. -/
structure Server where
  now : Timestamp := 0
  tables : Database := {}
  manager : Manager := {}
  sessions : Nat → Option (SocketSession Unit) := fun _ => none
  requests : Nat → Option (AdminRequest × RequestPhase) := fun _ => none
  rulings : List (Matter × Verdict) := []
  committedAt : Nat → Option Nat := fun _ => none

def Server.setSession (i : Nat) (s : SocketSession Unit) (d : Server) : Server :=
  { d with sessions := Function.update d.sessions i (some s) }

def Server.setRequest (j : Nat) (request : AdminRequest) (phase : RequestPhase) (d : Server) :
    Server :=
  { d with requests := Function.update d.requests j (some (request, phase)) }

/-- The manager changes who is registered. -/
def Server.withManager (m : Manager) (d : Server) : Server := { d with manager := m }

/-- Request `j` commits these tables and rulings. -/
def Server.committed (j : Nat) (tables : Database) (more : List (Matter × Verdict)) (d : Server) :
    Server :=
  { d with
    tables := tables
    rulings := d.rulings ++ more
    committedAt :=
      if more = [] then d.committedAt
      else Function.update d.committedAt j (some d.rulings.length) }

/-- The next await of session `i`, whose socket is `i`. -/
def Server.advance (cfg : ServerConfig) (i : Nat) (d : Server) : Option Server :=
  (d.sessions i).bind fun s =>
    match s.step () d.tables d.now d.rulings.length with
    | some s' => some (d.setSession i s')
    | none =>
        match s.phase with
        | .admitting _ =>
            let outcome := register cfg.limits (s.opening.metadata i none) true d.manager
            some ((d.setSession i
              (s.moveTo (if outcome.1 = true then .recheckRoom else .ended))).withManager outcome.2)
        | .refuse _ =>
            some ((d.setSession i (s.moveTo .ended)).withManager (detachConnection i d.manager))
        | _ => none

/-- The transaction of request `j`. -/
def Server.commit (cfg : ServerConfig) (rd : Readings) (j : Nat) (d : Server) : Option Server :=
  match d.requests j with
  | some (.updateRoom roomId archived frozen actor, .begun) =>
      match Tx.atomically (setRoomState cfg.store rd roomId archived frozen actor) d.tables with
      | (.error _, _) => some (d.setRequest j (.updateRoom roomId archived frozen actor) .done)
      | (.ok (_, changes), tables) =>
          some ((d.committed j tables (roomRulings roomId archived changes)).setRequest j
            (.updateRoom roomId archived frozen actor)
            (if changes.archived = true ∧ archived = some true then .closing else .done))
  | some (.updateMember roomId subject payload actor, .begun) =>
      match Tx.atomically (setMemberModeration cfg.store rd roomId subject payload actor)
          d.tables with
      | (.error _, _) => some (d.setRequest j (.updateMember roomId subject payload actor) .done)
      | (.ok moderation, tables) =>
          some ((d.committed j tables (memberRulings roomId subject moderation)).setRequest j
            (.updateMember roomId subject payload actor) (.replied moderation.bannedUntil))
  | _ => none

/-- What request `j` does once it has committed. -/
def Server.settle (j : Nat) (d : Server) : Option Server :=
  match d.requests j with
  | some (request, .replied deadline) =>
      some (d.setRequest j request
        (if ∃ t ∈ deadline, d.now < t then .closing else .done))
  | some (.updateRoom roomId archived frozen actor, .closing) =>
      some ((d.setRequest j (.updateRoom roomId archived frozen actor) .done).withManager
        (closeRoom roomId none d.manager))
  | some (.updateMember roomId subject payload actor, .closing) =>
      some ((d.setRequest j (.updateMember roomId subject payload actor) .done).withManager
        (closeMember roomId subject none d.manager))
  | _ => none

inductive ServerAction where
  | tick (now : Timestamp)
  | connect (i : Nat) (opening : Opening)
  | advance (i : Nat)
  | detach (i : Nat)
  | leave (i : Nat)
  | submit (j : Nat) (request : AdminRequest)
  | commit (j : Nat) (rd : Readings)
  | settle (j : Nat)

/-- The state after an action, where the action is possible.  A socket may be detached
at any time, as a slow peer or at shutdown, and a session may end at any await. -/
def Server.next (cfg : ServerConfig) (d : Server) : ServerAction → Option Server
  | .tick now => if d.now ≤ now then some { d with now := now } else none
  | .connect i opening =>
      if d.sessions i = none then some (d.setSession i { opening := opening }) else none
  | .advance i => d.advance cfg i
  | .detach i => some (d.withManager (detachConnection i d.manager))
  | .leave i =>
      (d.sessions i).map fun s =>
        (d.setSession i (s.moveTo .ended)).withManager (detachConnection i d.manager)
  | .submit j request =>
      if d.requests j = none ∧ request.Accepted then some (d.setRequest j request .begun) else none
  | .commit j rd => d.commit cfg rd j
  | .settle j => d.settle j

/-- One step of the server. -/
def ServerStep (cfg : ServerConfig) (d : Server) (action : ServerAction) (d' : Server) : Prop :=
  d.next cfg action = some d'

/-- The process has just started, on any tables. -/
def Server.Started (d : Server) : Prop := ∃ now tables, d = { now := now, tables := tables }

/-- The states of every interleaving. -/
def ServerReachable (cfg : ServerConfig) : Server → Prop :=
  Reachable Server.Started (ServerStep cfg)

/-! ## The invariant -/

/-- The rows of the manager belong to sessions that have been let in once, and whoever
is still registered once a request is done has read its ruling. -/
structure ServerOk (d : Server) : Prop where
  manager : d.manager.Ok
  tables : Agrees d.tables d.rulings
  informed : ∀ i s, d.sessions i = some s → Informed d.rulings d.now s
  rows : ∀ row ∈ d.manager.metadata, ∃ s, d.sessions row.socket = some s ∧ s.phase.Admitted ∧
    row.roomId = s.opening.roomId ∧ row.subject = s.opening.subject
  accepted : ∀ j request phase, d.requests j = some (request, phase) → request.Accepted
  begun : ∀ j request, d.requests j = some (request, .begun) → d.committedAt j = none
  committed : ∀ j c, d.committedAt j = some c → ∃ request phase v,
    d.requests j = some (request, phase) ∧ d.rulings[c]? = some (request.matter, v) ∧
      ∀ deadline, phase = .replied deadline → v = .banned deadline
  cleared : ∀ j c request v, d.committedAt j = some c → d.requests j = some (request, .done) →
    d.rulings[c]? = some (request.matter, v) → v.Bars d.now →
    ∀ row ∈ d.manager.metadata, ∀ s, d.sessions row.socket = some s →
      request.matter.Covers s.opening → s.phase.HasChecked request.matter →
      c < s.checked request.matter

section Steps

variable {cfg : ServerConfig} {d d' : Server} {i j : Nat} {s s' : SocketSession Unit}
  {m : Manager}

theorem ServerOk.start (h : d.Started) : ServerOk d := by
  obtain ⟨now, tables, rfl⟩ := h
  refine ⟨.start, nofun, ?_, fun _ hrow => absurd hrow Table.not_mem_empty, ?_, ?_, ?_, ?_⟩
  · intro i s hs
    cases hs
  · intro j request phase hj
    cases hj
  · intro j request hj
    cases hj
  · intro j c hc
    cases hc
  · intro j c request v hc
    cases hc

/-- A session moves, and with it the manager. -/
theorem ServerOk.moved (h : ServerOk d) (hs : d.sessions i = some s) (hm : m.Ok)
    (hopening : s'.opening = s.opening)
    (hchecked : ∀ k, s'.phase.HasChecked k →
      (s.phase.HasChecked k ∧ s'.checked k = s.checked k) ∨ s'.checked k = d.rulings.length)
    (hinformed : Informed d.rulings d.now s')
    (hrows : ∀ row ∈ m.metadata,
      (row ∈ d.manager.metadata ∧ (row.socket = i → s'.phase.Admitted)) ∨
        (row.socket = i ∧ s'.phase.Admitted ∧ row.roomId = s.opening.roomId ∧
          row.subject = s.opening.subject ∧ ∀ k, ¬ s'.phase.HasChecked k)) :
    ServerOk ((d.setSession i s').withManager m) where
  manager := hm
  tables := h.tables
  informed k x hx := by
    change Function.update d.sessions i (some s') k = some x at hx
    by_cases hk : k = i
    · subst hk
      rw [Function.update_self] at hx
      cases hx
      exact hinformed
    · rw [Function.update_of_ne hk] at hx
      exact h.informed k x hx
  rows row hrow := by
    change ∃ x, Function.update d.sessions i (some s') row.socket = some x ∧ _
    rcases hrows row hrow with ⟨hold, hadmitted⟩ | ⟨hi, hadmitted, hroom, hsubject, -⟩
    · obtain ⟨x, hx, hxa, hroom, hsubject⟩ := h.rows row hold
      by_cases hi : row.socket = i
      · rw [hi] at hx ⊢
        rw [Function.update_self]
        cases hs.symm.trans hx
        exact ⟨s', rfl, hadmitted hi, hopening ▸ hroom, hopening ▸ hsubject⟩
      · rw [Function.update_of_ne hi]
        exact ⟨x, hx, hxa, hroom, hsubject⟩
    · rw [hi, Function.update_self]
      exact ⟨s', rfl, hadmitted, hopening ▸ hroom, hopening ▸ hsubject⟩
  accepted := h.accepted
  begun := h.begun
  committed := h.committed
  cleared j c request v hc hdone hruling hbars row hrow x hx hcovers hhas := by
    change Function.update d.sessions i (some s') row.socket = some x at hx
    by_cases hi : row.socket = i
    · rw [hi, Function.update_self] at hx
      cases hx
      rcases hchecked _ hhas with ⟨hold, hsame⟩ | hnow
      · rcases hrows row hrow with ⟨hmem, -⟩ | ⟨-, -, -, -, hnone⟩
        · rw [hsame]
          exact h.cleared j c request v hc hdone hruling hbars row hmem s (hi ▸ hs)
            (hopening ▸ hcovers) hold
        · exact absurd hhas (hnone _)
      · rw [hnow]
        exact (List.getElem?_eq_some_iff.mp hruling).1
    · rw [Function.update_of_ne hi] at hx
      rcases hrows row hrow with ⟨hmem, -⟩ | ⟨heq, -⟩
      · exact h.cleared j c request v hc hdone hruling hbars row hmem x hx hcovers hhas
      · exact absurd heq hi

/-- Sockets are detached. -/
theorem ServerOk.detached (h : ServerOk d) (hm : m.Ok)
    (hrows : ∀ row ∈ m.metadata, row ∈ d.manager.metadata) : ServerOk (d.withManager m) where
  manager := hm
  tables := h.tables
  informed := h.informed
  rows row hrow := h.rows row (hrows row hrow)
  accepted := h.accepted
  begun := h.begun
  committed := h.committed
  cleared j c request v hc hdone hruling hbars row hrow :=
    h.cleared j c request v hc hdone hruling hbars row (hrows row hrow)

theorem ServerOk.tick {now : Timestamp} (h : ServerOk d) (hle : d.now ≤ now) :
    ServerOk { d with now := now } where
  manager := h.manager
  tables := h.tables
  informed i s hs := (h.informed i s hs).later hle
  rows := h.rows
  accepted := h.accepted
  begun := h.begun
  committed := h.committed
  cleared j c request v hc hdone hruling hbars :=
    h.cleared j c request v hc hdone hruling (hbars.before hle)

/-- A session begins. -/
theorem ServerOk.connect {opening : Opening} (h : ServerOk d) (hi : d.sessions i = none) :
    ServerOk (d.setSession i { opening := opening }) where
  manager := h.manager
  tables := h.tables
  informed k x hx := by
    change Function.update d.sessions i _ k = some x at hx
    by_cases hk : k = i
    · subst hk
      rw [Function.update_self] at hx
      cases hx
      trivial
    · rw [Function.update_of_ne hk] at hx
      exact h.informed k x hx
  rows row hrow := by
    obtain ⟨x, hx, hrest⟩ := h.rows row hrow
    have hne : row.socket ≠ i := by
      rintro heq
      rw [heq, hi] at hx
      cases hx
    refine ⟨x, ?_, hrest⟩
    change Function.update d.sessions i _ row.socket = some x
    rw [Function.update_of_ne hne]
    exact hx
  accepted := h.accepted
  begun := h.begun
  committed := h.committed
  cleared j c request v hc hdone hruling hbars row hrow x hx hcovers hhas := by
    change Function.update d.sessions i _ row.socket = some x at hx
    by_cases hk : row.socket = i
    · rw [hk, Function.update_self] at hx
      cases hx
      cases hhas
    · rw [Function.update_of_ne hk] at hx
      exact h.cleared j c request v hc hdone hruling hbars row hrow x hx hcovers hhas

/-- A request is begun. -/
theorem ServerOk.submitted {request : AdminRequest} (h : ServerOk d) (hj : d.requests j = none)
    (haccepted : request.Accepted) : ServerOk (d.setRequest j request .begun) where
  manager := h.manager
  tables := h.tables
  informed := h.informed
  rows := h.rows
  accepted k x phase hx := by
    change Function.update d.requests j _ k = some (x, phase) at hx
    by_cases hk : k = j
    · subst hk
      rw [Function.update_self] at hx
      cases hx
      exact haccepted
    · rw [Function.update_of_ne hk] at hx
      exact h.accepted k x phase hx
  begun k x hx := by
    change Function.update d.requests j _ k = some (x, .begun) at hx
    by_cases hk : k = j
    · subst hk
      cases hc : d.committedAt k with
      | none => exact hc
      | some c =>
          obtain ⟨y, phase, v, hy, -⟩ := h.committed k c hc
          rw [hj] at hy
          cases hy
    · rw [Function.update_of_ne hk] at hx
      exact h.begun k x hx
  committed k c hc := by
    obtain ⟨x, phase, v, hx, hrest⟩ := h.committed k c hc
    have hne : k ≠ j := by
      rintro rfl
      rw [hj] at hx
      cases hx
    refine ⟨x, phase, v, ?_, hrest⟩
    change Function.update d.requests j _ k = some (x, phase)
    rw [Function.update_of_ne hne]
    exact hx
  cleared k c x v hc hdone := by
    change Function.update d.requests j _ k = some (x, .done) at hdone
    by_cases hk : k = j
    · subst hk
      rw [Function.update_self] at hdone
      cases hdone
    · rw [Function.update_of_ne hk] at hdone
      exact h.cleared k c x v hc hdone

/-- A request commits a ruling on its matter, or none. -/
theorem ServerOk.ruled {request : AdminRequest} {phase : RequestPhase} {tables : Database}
    {more : List (Matter × Verdict)} (h : ServerOk d)
    (hj : d.requests j = some (request, .begun))
    (hmore : more = [] ∨ ∃ v, more = [(request.matter, v)])
    (htables : Agrees tables (d.rulings ++ more)) (hbegun : phase ≠ .begun)
    (hreplied : ∀ deadline, phase = .replied deadline →
      more = [(request.matter, .banned deadline)])
    (hdone : phase = .done → ∀ v, more = [(request.matter, v)] → ¬ v.Bars d.now) :
    ServerOk ((d.committed j tables more).setRequest j request phase) := by
  have hold : ∀ k, k ≠ j → (d.committed j tables more).committedAt k = d.committedAt k := by
    intro k hk
    unfold Server.committed
    dsimp only
    split
    · rfl
    · exact Function.update_of_ne hk _ _
  have hkept : ∀ (c : Nat) x, d.rulings[c]? = some x → (d.rulings ++ more)[c]? = some x := by
    intro c x hx
    rw [List.getElem?_append_left (List.getElem?_eq_some_iff.mp hx).1]
    exact hx
  have hearlier : ∀ k (c : Nat), k ≠ j → d.committedAt k = some c →
      ∀ x, (d.rulings ++ more)[c]? = some x →
      d.rulings[c]? = some x := by
    intro k c _ hc x hx
    obtain ⟨_, _, _, -, hruling, -⟩ := h.committed k c hc
    rw [List.getElem?_append_left (List.getElem?_eq_some_iff.mp hruling).1] at hx
    exact hx
  have hnew : ∀ c : Nat, (d.committed j tables more).committedAt j = some c →
      c = d.rulings.length ∧ ∃ v, more = [(request.matter, v)] ∧
        (d.rulings ++ more)[c]? = some (request.matter, v) := by
    intro c hc
    unfold Server.committed at hc
    dsimp only at hc
    rcases hmore with rfl | ⟨v, rfl⟩
    · rw [if_pos rfl, h.begun j request hj] at hc
      cases hc
    · rw [if_neg (List.cons_ne_nil _ _), Function.update_self] at hc
      cases hc
      exact ⟨rfl, v, rfl, List.getElem?_concat_length⟩
  refine ⟨h.manager, htables, fun k x hx => (h.informed k x hx).append, h.rows, ?_, ?_, ?_, ?_⟩
  · intro k x phase' hx
    change Function.update d.requests j _ k = some (x, phase') at hx
    by_cases hk : k = j
    · subst hk
      rw [Function.update_self] at hx
      cases hx
      exact h.accepted k request _ hj
    · rw [Function.update_of_ne hk] at hx
      exact h.accepted k x phase' hx
  · intro k x hx
    change Function.update d.requests j _ k = some (x, .begun) at hx
    by_cases hk : k = j
    · subst hk
      rw [Function.update_self] at hx
      cases hx
      exact absurd rfl hbegun
    · rw [Function.update_of_ne hk] at hx
      exact (hold k hk).trans (h.begun k x hx)
  · intro k c hc
    change ∃ x phase' v, Function.update d.requests j _ k = some (x, phase') ∧
      (d.rulings ++ more)[c]? = _ ∧ _
    by_cases hk : k = j
    · subst hk
      obtain ⟨-, v, hv, hruling⟩ := hnew c hc
      refine ⟨request, phase, v, Function.update_self .., hruling, fun deadline hphase => ?_⟩
      have hsame := hv.symm.trans (hreplied deadline hphase)
      cases hsame
      rfl
    · obtain ⟨x, phase', v, hx, hruling, hrest⟩ := h.committed k c ((hold k hk).symm.trans hc)
      refine ⟨x, phase', v, ?_, hkept c _ hruling, hrest⟩
      rw [Function.update_of_ne hk]
      exact hx
  · intro k c x v hc hphase hruling hbars row hrow y hy hcovers hhas
    change Function.update d.requests j _ k = some (x, .done) at hphase
    by_cases hk : k = j
    · subst hk
      rw [Function.update_self] at hphase
      cases hphase
      obtain ⟨-, v', hv', hruling'⟩ := hnew c hc
      cases hruling.symm.trans hruling'
      exact absurd hbars (hdone rfl v hv')
    · rw [Function.update_of_ne hk] at hphase
      have hc' : d.committedAt k = some c := (hold k hk).symm.trans hc
      exact h.cleared k c x v hc' hphase (hearlier k c hk hc' _ hruling) hbars row hrow y hy
        hcovers hhas

/-- A request that has committed moves on. -/
theorem ServerOk.settled {request : AdminRequest} {phase phase' : RequestPhase} (h : ServerOk d)
    (hj : d.requests j = some (request, phase)) (hbegun : phase' ≠ .begun)
    (hreplied : ∀ deadline, phase' ≠ .replied deadline)
    (hdone : phase' = .done → ∀ c v, d.committedAt j = some c →
      d.rulings[c]? = some (request.matter, v) → v.Bars d.now →
      ∀ row ∈ d.manager.metadata, ∀ s, d.sessions row.socket = some s →
        request.matter.Covers s.opening → s.phase.HasChecked request.matter →
        c < s.checked request.matter) :
    ServerOk (d.setRequest j request phase') := by
  refine ⟨h.manager, h.tables, h.informed, h.rows, ?_, ?_, ?_, ?_⟩
  · intro k x p hx
    change Function.update d.requests j _ k = some (x, p) at hx
    by_cases hk : k = j
    · subst hk
      rw [Function.update_self] at hx
      cases hx
      exact h.accepted k request _ hj
    · rw [Function.update_of_ne hk] at hx
      exact h.accepted k x p hx
  · intro k x hx
    change Function.update d.requests j _ k = some (x, .begun) at hx
    by_cases hk : k = j
    · subst hk
      rw [Function.update_self] at hx
      cases hx
      exact absurd rfl hbegun
    · rw [Function.update_of_ne hk] at hx
      exact h.begun k x hx
  · intro k c hc
    obtain ⟨x, p, v, hx, hruling, hrest⟩ := h.committed k c hc
    change ∃ x p v, Function.update d.requests j _ k = some (x, p) ∧ _
    by_cases hk : k = j
    · subst hk
      cases hj.symm.trans hx
      exact ⟨request, phase', v, Function.update_self .., hruling,
        fun deadline hphase => absurd hphase (hreplied deadline)⟩
    · refine ⟨x, p, v, ?_, hruling, hrest⟩
      rw [Function.update_of_ne hk]
      exact hx
  · intro k c x v hc hphase hruling hbars row hrow y hy hcovers hhas
    change Function.update d.requests j _ k = some (x, .done) at hphase
    by_cases hk : k = j
    · subst hk
      rw [Function.update_self] at hphase
      cases hphase
      exact hdone rfl c v hc hruling hbars row hrow y hy hcovers hhas
    · rw [Function.update_of_ne hk] at hphase
      exact h.cleared k c x v hc hphase hruling hbars row hrow y hy hcovers hhas

theorem ServerOk.advance (h : ServerOk d) (hstep : d.advance cfg i = some d') : ServerOk d' := by
  unfold Server.advance at hstep
  obtain ⟨s, hs, hnext⟩ := Option.bind_eq_some_iff.mp hstep
  have hrow : ∀ row ∈ d.manager.metadata, row.socket = i → s.phase.Admitted := by
    intro row hrow hi
    obtain ⟨x, hx, hadmitted, -⟩ := h.rows row hrow
    rw [hi] at hx
    cases hs.symm.trans hx
    exact hadmitted
  split at hnext
  · rename_i s' hs'
    cases hnext
    have hstepped := SocketSession.step_ok h.tables (h.informed i s hs) hs'
    exact h.moved hs h.manager hstepped.opening hstepped.checked hstepped.informed
      fun row hmem => .inl ⟨hmem, fun hi => hstepped.admitted.mpr (hrow row hmem hi)⟩
  · split at hnext
    · rename_i state hphase
      cases hnext
      have hout : ∀ row ∈ d.manager.metadata, row.socket ≠ i := by
        intro row hmem hi
        have hadmitted := hrow row hmem hi
        rw [hphase] at hadmitted
        exact hadmitted
      have hm : (register cfg.limits (s.opening.metadata i none) true d.manager).2.Ok :=
        h.manager.register true
      have hregister := @register_ok d.manager cfg.limits (s.opening.metadata i none) true
      rcases hregister with ⟨hrefused, hsame⟩ | ⟨hadded, -, -, -, -, hrows⟩
      · rw [hrefused, if_neg Bool.false_ne_true]
        refine h.moved hs hm rfl nofun trivial fun row hmem => .inl ?_
        rw [hsame] at hmem
        exact ⟨hmem, fun hi => absurd hi (hout row hmem)⟩
      · rw [hadded, if_pos rfl]
        refine h.moved hs hm rfl nofun trivial fun row hmem => ?_
        rw [hrows] at hmem
        rcases Table.mem_upsert.mp hmem with rfl | ⟨hold, -⟩
        · exact .inr ⟨rfl, trivial, rfl, rfl, fun _ => id⟩
        · exact .inl ⟨hold, fun hi => absurd hi (hout row hold)⟩
    · cases hnext
      refine h.moved hs (h.manager.detachConnection i) rfl nofun trivial fun row hmem => ?_
      obtain ⟨hold, hne⟩ := mem_detachConnection.mp hmem
      exact .inl ⟨hold, fun hi => absurd hi hne⟩
    · cases hnext

theorem ServerOk.commit {rd : Readings} (h : ServerOk d) (hstep : d.commit cfg rd j = some d') :
    ServerOk d' := by
  unfold Server.commit at hstep
  split at hstep
  · rename_i roomId archived frozen actor hj
    split at hstep
    · cases hstep
      refine h.settled hj nofun nofun fun _ c v hc => ?_
      rw [h.begun j _ hj] at hc
      cases hc
    · rename_i room changes tables hexec
      cases hstep
      have hset := Tx.returns_atomically.mp hexec
      have htables := h.tables.setRoomState hset
      refine h.ruled hj ?_ htables ?_ ?_ ?_
      · unfold roomRulings
        split
        · exact .inr ⟨_, rfl⟩
        · exact .inl rfl
      · split <;> nofun
      · intro deadline hphase
        split at hphase <;> cases hphase
      · -- an unarchive is done at once, and bars nobody
        intro hphase v hv hbars
        unfold roomRulings at hv
        split at hv
        · rename_i hchanged
          cases hv
          have harchived : archived = some true := of_decide_eq_true hbars
          rw [if_pos ⟨hchanged, harchived⟩] at hphase
          cases hphase
        · cases hv
  · rename_i roomId subject payload actor hj
    split at hstep
    · cases hstep
      refine h.settled hj nofun nofun fun _ c v hc => ?_
      rw [h.begun j _ hj] at hc
      cases hc
    · rename_i moderation tables hexec
      cases hstep
      have htables := h.tables.setMemberModeration (Tx.returns_atomically.mp hexec)
      refine h.ruled hj (.inr ⟨_, rfl⟩) htables nofun ?_ nofun
      intro deadline hphase
      cases hphase
      rfl
  · cases hstep

theorem ServerOk.settle (h : ServerOk d) (hstep : d.settle j = some d') : ServerOk d' := by
  unfold Server.settle at hstep
  split at hstep
  · rename_i request deadline hj
    cases hstep
    refine h.settled hj ?_ ?_ ?_
    · split <;> nofun
    · intro other hphase
      split at hphase <;> cases hphase
    · -- a ban that has expired by now bars nobody
      intro hphase c v hc hruling hbars
      obtain ⟨x, phase, v', hx, hruling', hreplied⟩ := h.committed j c hc
      cases hj.symm.trans hx
      cases hruling.symm.trans hruling'
      cases hreplied deadline rfl
      have hruns : ∃ t ∈ deadline, d.now < t := hbars
      rw [if_pos hruns] at hphase
      cases hphase
  · rename_i roomId archived frozen actor hj
    cases hstep
    have hclosed : ServerOk (d.withManager (closeRoom roomId none d.manager)) :=
      h.detached (h.manager.detachRoomConnections none none) fun row hmem =>
        ((mem_detachRoomConnections h.manager).mp hmem).1
    refine hclosed.settled hj nofun nofun ?_
    intro _ c v _ _ _ row hmem s hs hcovers
    obtain ⟨hold, hkept⟩ := (mem_detachRoomConnections h.manager).mp hmem
    obtain ⟨x, hx, -, hroom, -⟩ := h.rows row hold
    cases hs.symm.trans hx
    exact absurd ⟨hroom.trans hcovers, nofun, nofun⟩ hkept
  · rename_i roomId subject payload actor hj
    cases hstep
    have hclosed : ServerOk (d.withManager (closeMember roomId subject none d.manager)) :=
      h.detached (h.manager.detachRoomConnections (some subject) none) fun row hmem =>
        ((mem_detachRoomConnections h.manager).mp hmem).1
    refine hclosed.settled hj nofun nofun ?_
    intro _ c v _ _ _ row hmem s hs hcovers
    obtain ⟨hold, hkept⟩ := (mem_detachRoomConnections h.manager).mp hmem
    obtain ⟨x, hx, -, hroom, hsubject⟩ := h.rows row hold
    cases hs.symm.trans hx
    refine absurd ⟨hroom.trans hcovers.1, fun p hp => ?_, nofun⟩ hkept
    cases hp
    exact hsubject.trans hcovers.2.1
  · cases hstep

/-- The step lemma. -/
theorem ServerOk.step {action : ServerAction} (h : ServerOk d)
    (hstep : ServerStep cfg d action d') : ServerOk d' := by
  unfold ServerStep at hstep
  cases action with
  | tick now =>
      simp only [Server.next] at hstep
      split at hstep
      · rename_i hle
        cases hstep
        exact h.tick hle
      · cases hstep
  | connect i opening =>
      simp only [Server.next] at hstep
      split at hstep
      · rename_i hi
        cases hstep
        exact h.connect hi
      · cases hstep
  | advance i => exact h.advance hstep
  | detach i =>
      cases hstep
      exact h.detached (h.manager.detachConnection i) fun row hmem =>
        (mem_detachConnection.mp hmem).1
  | leave i =>
      obtain ⟨s, hs, rfl⟩ := Option.map_eq_some_iff.mp hstep
      refine h.moved hs (h.manager.detachConnection i) rfl nofun trivial fun row hmem => ?_
      obtain ⟨hold, hne⟩ := mem_detachConnection.mp hmem
      exact .inl ⟨hold, fun hi => absurd hi hne⟩
  | submit j request =>
      simp only [Server.next] at hstep
      split at hstep
      · rename_i hguard
        cases hstep
        exact h.submitted hguard.1 hguard.2
      · cases hstep
  | commit j rd => exact h.commit hstep
  | settle j => exact h.settle hstep

theorem ServerReachable.ok (h : ServerReachable cfg d) : ServerOk d :=
  Reachable.invariant (fun _ => .start) (fun _ _ _ ht hstep => ht.step hstep) h

/-- Once a request is done, and as long as its ruling and every later one on the same
matter keep sessions out, no session the matter covers that has finished its check is
registered. -/
theorem barred_session_not_registered {c : Nat} {request : AdminRequest}
    (hreach : ServerReachable cfg d) (hdone : d.requests j = some (request, .done))
    (hcommitted : d.committedAt j = some c)
    (hupheld : ∀ c' v, c ≤ c' → d.rulings[c']? = some (request.matter, v) → v.Bars d.now)
    (hs : d.sessions i = some s) (hfinished : s.phase.Finished)
    (hcovers : request.matter.Covers s.opening) : ¬ d.manager.Registered i := by
  have h := hreach.ok
  intro hregistered
  obtain ⟨row, hrow, rfl⟩ := Manager.registered_iff.mp hregistered
  obtain ⟨x, hx, hadmitted, -⟩ := h.rows row hrow
  cases hs.symm.trans hx
  have hready : s.phase = .ready := by
    cases hphase : s.phase with
    | ready => rfl
    | _ =>
        rw [hphase] at hfinished hadmitted
        first
          | exact absurd hfinished id
          | exact absurd hadmitted id
  obtain ⟨y, phase, v, hy, hruling, -⟩ := h.committed j c hcommitted
  cases hdone.symm.trans hy
  have hhas : s.phase.HasChecked request.matter := by
    rw [hready]
    cases request.matter <;> trivial
  have hlt := h.cleared j c request v hcommitted hdone hruling
    (hupheld c v (Nat.le_refl c) hruling) row hrow s hs hcovers hhas
  obtain ⟨c', v', hle, hruling', hopen⟩ := (h.informed _ s hs).standing hready hcovers
    (h.accepted j request _ hdone).named hruling hlt
  exact hopen (hupheld c' v' hle hruling')

end Steps

/-! ## One run -/

/-- The state after a sequence of actions, skipping those that are not possible. -/
def Server.run (cfg : ServerConfig) (actions : List ServerAction) (d : Server) : Server :=
  actions.foldl (fun d action => (d.next cfg action).getD d) d

theorem Server.run_reach (cfg : ServerConfig) (actions : List ServerAction) (d : Server) :
    Reach (ServerStep cfg) d (d.run cfg actions) := by
  induction actions generalizing d with
  | nil => exact .refl
  | cons action rest ih =>
      refine Run.trans ?_ (ih ((d.next cfg action).getD d))
      cases hnext : d.next cfg action with
      | none => exact .refl
      | some d' => exact .tail action .refl trivial hnext

/-- The configuration of the worked example. -/
def smallServer : ServerConfig where
  store := { maxRooms := 3, maxStoredMessages := 10, maxStoredMessagesPerRoom := 5 }
  limits := { maxConnections := 4, maxPerRoom := 2 }

/-- A server with one open room. -/
def oneRoom : Server where
  tables := (Tx.atomically (createRoom smallServer.store (.fixed 1 10)
    { name := "General", id := some ⟨"general", matchesRoomId_general⟩ } "admin") {}).2

def adaOpens : Opening where
  roomId := "general"
  username := "ada"
  subject := some "ada"
  isAdmin := false
  permissions := ["room:read"]
  connectionId := "socket-1"

def banAda : AdminRequest :=
  .updateMember "general" "ada" { mutedForSeconds := none, bannedForSeconds := some 60 } "admin"

/-- One session is ready and another has just registered when the subject is banned;
the second learns of it from its check. -/
def bannedWhileOpening : Server :=
  Server.run smallServer
    (.connect 0 adaOpens :: List.replicate 7 (.advance 0) ++
      .connect 1 adaOpens :: List.replicate 4 (.advance 1) ++
      [.submit 0 banAda, .commit 0 (.fixed 2 20), .settle 0, .settle 0] ++
      List.replicate 4 (.advance 1)) oneRoom

theorem barred_session_not_registered_bannedWhileOpening :
    ¬ bannedWhileOpening.manager.Registered 0 ∧ ¬ bannedWhileOpening.manager.Registered 1 := by
  have hreach : ServerReachable smallServer bannedWhileOpening :=
    ⟨oneRoom, ⟨0, _, rfl⟩, Server.run_reach smallServer _ oneRoom⟩
  have hdone : bannedWhileOpening.requests 0 = some (banAda, .done) := by decide +kernel
  have hcommitted : bannedWhileOpening.committedAt 0 = some 0 := by decide +kernel
  have hfirst : bannedWhileOpening.sessions 0 = some ⟨adaOpens, .ready, 0, 0⟩ := by
    decide +kernel
  have hsecond : bannedWhileOpening.sessions 1 = some ⟨adaOpens, .ended, 1, 1⟩ := by
    decide +kernel
  have hnow : bannedWhileOpening.now = 0 := by decide +kernel
  have hrulings : bannedWhileOpening.rulings =
      [(.member "general" "ada", .banned (some (2 + seconds 60)))] := by decide +kernel
  have hupheld : ∀ c' v, 0 ≤ c' → bannedWhileOpening.rulings[c']? = some (banAda.matter, v) →
      v.Bars bannedWhileOpening.now := by
    intro c' v _ hruling
    rw [hrulings] at hruling
    cases c' with
    | zero =>
        cases hruling
        rw [hnow]
        exact ⟨_, rfl, by decide⟩
    | succ c' => cases hruling
  exact ⟨barred_session_not_registered hreach hdone hcommitted hupheld hfirst trivial
      ⟨rfl, rfl, rfl⟩,
    barred_session_not_registered hreach hdone hcommitted hupheld hsecond trivial
      ⟨rfl, rfl, rfl⟩⟩

end Sockets
end ChatEngine
