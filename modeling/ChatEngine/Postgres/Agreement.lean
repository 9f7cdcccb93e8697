import ChatEngine.Lib.LastWrite
import ChatEngine.Postgres.Isolation
import ChatEngine.Postgres.Privacy

/-!
# The log agrees with the message table

Whatever the transactions do to each other, the latest event of a message shows
the message as it is stored.

* `ShowsRow`, an event whose message is what a row decodes to, up to a parent
  that a commit has removed since;
* `LogAgrees`, the invariant of every reachable state;
* `CommitTells`, what one commit does to a message and to its events;
* `timeline_shows`, the messages that a client builds from the log of a room;
* `log_agrees_with_table`, the three together.
-/

namespace ChatEngine
namespace Postgres

open Lib
open Models
open Store

/-- The stored message is the told one, or lost its parent, a message that was removed. -/
def SameUpToParent (removed : List String) (told stored : Message) : Prop :=
  stored = told ∨ ∃ parent ∈ told.parentMessageId, parent ∈ removed ∧ stored = told.withParent none

theorem SameUpToParent.trans {removed removed' : List String} {m m' m'' : Message}
    (h : SameUpToParent removed m m') (h' : SameUpToParent removed' m' m'') :
    SameUpToParent (removed' ++ removed) m m'' := by
  rcases h with rfl | ⟨parent, hparent, hgone, rfl⟩
  · rcases h' with rfl | ⟨parent, hparent, hgone, rfl⟩
    · exact .inl rfl
    · exact .inr ⟨parent, hparent, List.mem_append_left _ hgone, rfl⟩
  · rcases h' with rfl | ⟨_, -, -, rfl⟩
    · exact .inr ⟨parent, hparent, List.mem_append_right _ hgone, rfl⟩
    · exact .inr ⟨parent, hparent, List.mem_append_right _ hgone, rfl⟩

theorem SameUpToParent.id {removed : List String} {m m' : Message}
    (h : SameUpToParent removed m m') : m'.id = m.id := by
  rcases h with rfl | ⟨_, -, -, rfl⟩
  · rfl
  · rfl

/-- The event, told in the row's room, shows the message of the row. -/
def ShowsRow (removed : List String) (e : EventRow) (r : MessageRow) : Prop :=
  e.roomId = r.roomId ∧ ∃ m ∈ e.body.message?, ∃ m', messageFromRow r = .ok m' ∧
    SameUpToParent removed m m'

/-- The sequence of the last event committed about a message. -/
def State.Latest (s : State) (messageId : String) (sequence : Nat) : Prop :=
  (sequence, messageId) ∈ s.told ∧ ∀ p ∈ s.told, p.2 = messageId → p.1 ≤ sequence

/-- The invariant: every message was told, and its latest event, as long as the
log has it, shows it. -/
structure LogAgrees (s : State) : Prop where
  told_le : ∀ p ∈ s.told, p.1 ≤ s.db.lastSequence
  recorded : ∀ e ∈ s.db.events, ∀ m ∈ e.body.message?, (e.sequence, m.id) ∈ s.told
  latest : ∀ r ∈ s.db.messages, ∃ q, s.Latest r.id q ∧
    ∀ e ∈ s.db.events, e.sequence = q → ShowsRow s.removed e r

/-- What a commit does to a message: it removes it or leaves it as it was, up to
a parent that it removes, and tells nothing about it; or it tells exactly one event about
it, after every earlier event, which carries the message as it is now stored. -/
def CommitTells (db db' : PgDatabase) (messageId : String) : Prop :=
  ((∀ s ∈ db'.messages, s.id = messageId → ∃ r ∈ db.messages,
      Orphaned db.toDatabase db'.toDatabase r s) ∧
    ∀ e ∈ db'.events, db.lastSequence < e.sequence → ¬ e.About messageId) ∨
  ∃ e ∈ db'.events, db.lastSequence < e.sequence ∧
    (∀ e' ∈ db'.events, db.lastSequence < e'.sequence → e'.About messageId → e' = e) ∧
    ∃ s ∈ db'.messages, s.id = messageId ∧ e.roomId = s.roomId ∧
      ∃ m ∈ e.body.message?, messageFromRow s = .ok m

variable {cfg : PgConfig} {s s' : State} {ses : Session} {db : PgDatabase}

/-! ## One commit -/

theorem mem_newlyTold {db db' : PgDatabase} {p : Nat × String} :
    p ∈ newlyTold db db' ↔ ∃ e ∈ db'.events, db.lastSequence < e.sequence ∧
      ∃ m ∈ e.body.message?, p = (e.sequence, m.id) := by
  unfold newlyTold
  rw [List.mem_filterMap]
  constructor
  · rintro ⟨e, he, hp⟩
    split at hp
    · rename_i hlt
      obtain ⟨m, hm, rfl⟩ := Option.map_eq_some_iff.mp hp
      exact ⟨e, he, hlt, m, hm, rfl⟩
    · cases hp
  · rintro ⟨e, he, hlt, m, hm, rfl⟩
    refine ⟨e, he, ?_⟩
    rw [if_pos hlt, Option.mem_def.mp hm]
    rfl

theorem mem_newlyRemoved {db db' : PgDatabase} {k : String} :
    k ∈ newlyRemoved db db' ↔ (∃ r ∈ db.messages, r.id = k) ∧ ∀ t ∈ db'.messages, t.id ≠ k := by
  unfold newlyRemoved
  rw [List.mem_map]
  constructor
  · rintro ⟨r, hr, rfl⟩
    obtain ⟨hr, hgone⟩ := List.mem_filter.mp hr
    exact ⟨⟨r, hr, rfl⟩, Table.find?_eq_none.mp (of_decide_eq_true hgone)⟩
  · rintro ⟨⟨r, hr, rfl⟩, hgone⟩
    refine ⟨r, List.mem_filter.mpr ⟨hr, decide_eq_true ?_⟩, rfl⟩
    exact Table.find?_eq_none.mpr hgone

/-- What the row decodes to after a commit, where the commit did not rewrite it. -/
theorem orphaned_decodes {db db' : PgDatabase} {r row : MessageRow} {m : Message}
    (h : Orphaned db.toDatabase db'.toDatabase r row) (hids : IdsStripped db.toDatabase)
    (hdecode : messageFromRow r = .ok m) :
    ∃ m', messageFromRow row = .ok m' ∧ SameUpToParent (newlyRemoved db db') m m' := by
  rcases h with rfl | ⟨p, hp, hbefore, hafter, rfl⟩
  · exact ⟨m, hdecode, .inl rfl⟩
  · -- the id of a stored message is the parent reference that the message shows
    have hshown := messageFromRow_setParent r r.parentMessageId
    change messageFromRow r = _ at hshown
    rw [hdecode] at hshown
    have hm : m = m.withParent r.parentMessageId := Except.ok.inj hshown
    have hstripped : stripWhitespace p = p := by
      obtain ⟨t, ht, rfl⟩ := hbefore
      exact hids t ht
    have hparent : m.parentMessageId = some p := by
      rw [hm, hp]
      show some (stripWhitespace p) = some p
      rw [hstripped]
    refine ⟨m.withParent none, ?_, .inr ⟨p, hparent, mem_newlyRemoved.mpr ⟨hbefore, hafter⟩, rfl⟩⟩
    rw [messageFromRow_setParent, hdecode]
    rfl

theorem announced_eq_nil {events : List EventRow} (h : announced (events.map EventRow.draft) = [])
    {e : EventRow} (he : e ∈ events) : e.body.message? = none := by
  unfold announced at h
  rw [List.filterMap_eq_nil_iff] at h
  have hnone := h e.draft (List.mem_map.mpr ⟨e, he, rfl⟩)
  rw [Option.map_eq_none_iff] at hnone
  exact hnone

/-- Events that announce one message: one of them carries it, the others none. -/
theorem announced_eq_singleton {events : List EventRow} {a : Announcement}
    (h : announced (events.map EventRow.draft) = [a]) :
    ∃ e ∈ events, e.roomId = a.roomId ∧ e.body.message? = some a.message ∧
      ∀ e' ∈ events, e'.body.message? ≠ none → e' = e := by
  induction events with
  | nil => cases h
  | cons e rest ih =>
      unfold announced at h
      rw [List.map_cons, List.filterMap_cons] at h
      cases hmessage : e.body.message? with
      | none =>
          have hdraft : e.draft.body.message? = none := hmessage
          rw [hdraft] at h
          obtain ⟨e', he', hroom, hbody, hunique⟩ := ih h
          refine ⟨e', List.mem_cons_of_mem _ he', hroom, hbody, fun e'' he'' hsome => ?_⟩
          rcases List.mem_cons.mp he'' with rfl | he''
          · exact absurd hmessage hsome
          · exact hunique e'' he'' hsome
      | some m =>
          have hdraft : e.draft.body.message? = some m := hmessage
          rw [hdraft] at h
          obtain ⟨rfl, hrest⟩ := List.cons.inj h
          refine ⟨e, by simp, rfl, hmessage, fun e' he' hsome => ?_⟩
          rcases List.mem_cons.mp he' with rfl | he'
          · rfl
          · exact absurd (announced_eq_nil hrest he') hsome

/-- The new events of a prepared transaction are its fresh ones. -/
theorem Prepared.fresh_of_new {target : Option Announcement} {fresh : List EventRow}
    (h : Prepared target fresh db ses) (hsequences : ∀ e ∈ db.events, e.sequence ≤ db.lastSequence)
    {e : EventRow} (he : e ∈ (ses.view db).events) (hnew : db.lastSequence < e.sequence) :
    e ∈ fresh := by
  rcases h.events e he with hfresh | hcommitted | ⟨e₀, he₀, rfl, -⟩
  · exact hfresh
  · exact absurd (hsequences e hcommitted) (Nat.not_le.mpr hnew)
  · exact absurd (hsequences e₀ he₀) (Nat.not_le.mpr hnew)

/-- A commit of the transaction, seen from one message. -/
theorem Prepared.tells {target : Option Announcement} {fresh : List EventRow}
    (h : Prepared target fresh db ses) (htold : announced (fresh.map EventRow.draft) = target.toList)
    (hsequences : ∀ e ∈ db.events, e.sequence ≤ db.lastSequence) (messageId : String) :
    CommitTells db (ses.view db) messageId := by
  cases target with
  | none =>
      left
      refine ⟨fun s hs _ => h.rows s hs fun a ha => (by cases ha), fun e he hnew habout => ?_⟩
      obtain ⟨m, hm, -⟩ := habout
      have hnone := announced_eq_nil htold (h.fresh_of_new hsequences he hnew)
      rw [hnone] at hm
      cases hm
  | some a =>
      obtain ⟨e, he, hroom, hbody, hunique⟩ := announced_eq_singleton htold
      obtain ⟨hmem, hgt, -⟩ := h.appended e he
      have honly : ∀ e' ∈ (ses.view db).events, db.lastSequence < e'.sequence →
          e'.body.message? ≠ none → e' = e := fun e' he' hnew hsome =>
        hunique e' (h.fresh_of_new hsequences he' hnew) hsome
      by_cases hid : a.id = messageId
      · right
        obtain ⟨-, row, hrow, hrowId, hrowRoom, hdecode⟩ := h.row a rfl
        refine ⟨e, hmem, hgt, fun e' he' hnew habout => honly e' he' hnew ?_, row, hrow,
          hrowId.trans hid, hroom.trans hrowRoom.symm, a.message, hbody, hdecode⟩
        obtain ⟨m, hm, -⟩ := habout
        rw [Option.mem_def.mp hm]
        exact Option.some_ne_none m
      · left
        refine ⟨fun s hs hsid => h.rows s hs fun a' ha' => ?_, fun e' he' hnew habout => hid ?_⟩
        · cases ha'
          rw [hsid]
          exact fun heq => hid heq.symm
        · obtain ⟨m, hm, hmid⟩ := habout
          have hsame := honly e' he' hnew (by rw [Option.mem_def.mp hm]; exact Option.some_ne_none m)
          rw [hsame, hbody] at hm
          cases hm
          exact hmid

/-! ## Every step -/

theorem LogAgrees.empty : LogAgrees {} := by
  constructor
  · intro p hp
    cases hp
  · intro e he
    exact absurd he Table.not_mem_empty
  · intro r hr
    exact absurd hr Table.not_mem_empty

/-- A commit keeps the agreement. -/
theorem LogAgrees.published {reply : PgReply} (h : LogAgrees s) (hok : SessionsOk s)
    (hses : ses ∈ s.sessions) (hstage : ses.stage = .commit reply) : LogAgrees (s.publish ses) := by
  obtain ⟨target, fresh, hprepared, htold⟩ := hok.prepared hses hstage
  have hpublished := hok.published hses hstage
  have hle : s.db.lastSequence ≤ (ses.view s.db).lastSequence := le_view_lastSequence
  have hmem : ∀ p, p ∈ (s.publish ses).told ↔ p ∈ newlyTold s.db (ses.view s.db) ∨ p ∈ s.told :=
    fun p => List.mem_append
  constructor
  · intro p hp
    rcases (hmem p).mp hp with hnew | hold
    · obtain ⟨e, he, -, m, -, rfl⟩ := mem_newlyTold.mp hnew
      exact hpublished.sequences e he
    · exact (h.told_le p hold).trans hle
  · intro e he m hm
    rw [hmem]
    rcases hprepared.events e he with hfresh | hcommitted | ⟨e₀, he₀, rfl, -⟩
    · exact .inl (mem_newlyTold.mpr ⟨e, he, (hprepared.appended e hfresh).2.1, m, hm, rfl⟩)
    · exact .inr (h.recorded e hcommitted m hm)
    · change m ∈ e₀.body.scrubbed.message? at hm
      rw [EventBody.message?_scrubbed] at hm
      obtain ⟨m₀, hm₀, rfl⟩ := Option.map_eq_some_iff.mp hm
      exact .inr (h.recorded e₀ he₀ m₀ hm₀)
  · intro row hrow
    by_cases htarget : ∀ a ∈ target, row.id ≠ a.id
    · -- the row of an earlier commit, up to its parent
      obtain ⟨r, hr, hsame⟩ := hprepared.rows row hrow htarget
      obtain ⟨q, ⟨hq, hmax⟩, hshows⟩ := h.latest r hr
      have hid : row.id = r.id := hsame.identity.id
      refine ⟨q, ⟨?_, ?_⟩, ?_⟩
      · rw [hmem, hid]
        exact .inr hq
      · intro p hp hpid
        rcases (hmem p).mp hp with hnew | hold
        · exfalso
          obtain ⟨e, he, hgt, m, hm, rfl⟩ := mem_newlyTold.mp hnew
          have hfresh := hprepared.fresh_of_new hok.sequences he hgt
          cases target with
          | none =>
              rw [announced_eq_nil htold hfresh] at hm
              cases hm
          | some a =>
              obtain ⟨e₁, -, -, hbody, hunique⟩ := announced_eq_singleton htold
              have hsome : e.body.message? ≠ none := by
                rw [Option.mem_def.mp hm]
                exact Option.some_ne_none m
              rw [hunique e hfresh hsome, hbody] at hm
              cases hm
              exact htarget a rfl hpid.symm
        · exact hmax p hold (hpid.trans hid)
      · intro e' he' hseq
        have hold : e'.sequence ≤ s.db.lastSequence := hseq ▸ h.told_le (q, r.id) hq
        rcases hprepared.events e' he' with hfresh | hcommitted | ⟨e, he, rfl, habout⟩
        · exact absurd (hprepared.appended e' hfresh).2.1 (Nat.not_lt.mpr hold)
        · obtain ⟨hroom, m, hm, m', hdecode, hsameMessage⟩ := hshows e' hcommitted hseq
          obtain ⟨m'', hdecode', hsame'⟩ := orphaned_decodes hsame hok.ids hdecode
          exact ⟨hroom.trans hsame.identity.roomId.symm, m, hm, m'', hdecode',
            hsameMessage.trans hsame'⟩
        · -- a scrub of this event would be a scrub of a message that is gone
          exfalso
          obtain ⟨-, m, hm, m', hdecode, hsameMessage⟩ := hshows e he hseq
          have hmid : m.id = row.id := by
            rw [hid, ← hsameMessage.id]
            exact hok.ids.decoded_id hr hdecode rfl
          rcases habout row.id ⟨m, hm, hmid⟩ with ⟨a, ha, haid⟩ | ⟨htouched, hgone⟩
          · exact htarget a ha haid.symm
          · rcases mem_view_messages.mp hrow with ⟨-, hout⟩ | ⟨hown, -⟩
            · exact hout htouched
            · exact hgone row hown rfl
    · -- the row this commit rewrote
      push Not at htarget
      obtain ⟨a, rfl, hid⟩ := htarget
      obtain ⟨e, he, hroom, hbody, -⟩ := announced_eq_singleton htold
      obtain ⟨hemem, hgt, -⟩ := hprepared.appended e he
      obtain ⟨-, r, hr, hrid, hrroom, hdecode⟩ := hprepared.row a rfl
      have hrow' : row = r := Table.eq_of_key hrow hr (hid.trans hrid.symm)
      refine ⟨e.sequence, ⟨?_, ?_⟩, ?_⟩
      · rw [hmem, hid]
        exact .inl (mem_newlyTold.mpr ⟨e, hemem, hgt, a.message, hbody, rfl⟩)
      · intro p hp hpid
        rcases (hmem p).mp hp with hnew | hold
        · obtain ⟨e', he', hgt', m, hm, rfl⟩ := mem_newlyTold.mp hnew
          obtain ⟨e₁, he₁, -, -, hunique⟩ := announced_eq_singleton htold
          have hsome : e'.body.message? ≠ none := by
            rw [Option.mem_def.mp hm]
            exact Option.some_ne_none m
          have he₁' : e = e₁ := hunique e he (by rw [hbody]; exact Option.some_ne_none _)
          have he₂ : e' = e₁ := hunique e' (hprepared.fresh_of_new hok.sequences he' hgt') hsome
          rw [he₁', he₂]
        · exact (h.told_le p hold).trans hgt.le
      · intro e' he' hseq
        obtain rfl := Table.eq_of_key he' hemem hseq
        rw [hrow']
        exact ⟨hroom.trans hrroom.symm, a.message, hbody, a.message, hdecode, .inl rfl⟩

/-- Steps that do not commit leave database and history alone. -/
theorem LogAgrees.of_same (h : LogAgrees s) (hdb : s'.db = s.db) (htold : s'.told = s.told)
    (hremoved : s'.removed = s.removed) : LogAgrees s' := by
  obtain ⟨htoldLe, hrecorded, hlatest⟩ := h
  constructor
  · rw [hdb, htold]
    exact htoldLe
  · rw [hdb, htold]
    exact hrecorded
  · unfold State.Latest
    rw [hdb, htold, hremoved]
    exact hlatest

theorem LogAgrees.step {action : Action} (h : LogAgrees s) (hok : SessionsOk s)
    (hstep : SessionStep cfg s action s') : LogAgrees s' := by
  cases hstep.moves with
  | started id cmd sessions hins => exact h.of_same rfl rfl rfl
  | advanced rd ses stage own hses hrun hfree => exact h.of_same rfl rfl rfl
  | committed ses reply hses hstage => exact h.published hok hses hstage
  | dropped action id => exact h.of_same rfl rfl rfl

theorem SessionReachable.logAgrees (h : SessionReachable cfg s) : LogAgrees s := by
  have hinit : ∀ s : State, s = {} → SessionsOk s ∧ LogAgrees s := by
    rintro s rfl
    exact ⟨SessionsOk.empty, LogAgrees.empty⟩
  have hstep : ∀ s action s', SessionsOk s ∧ LogAgrees s → SessionStep cfg s action s' →
      SessionsOk s' ∧ LogAgrees s' := fun s action s' hs hstep =>
    ⟨hs.1.step hstep, hs.2.step hs.1 hstep⟩
  exact (h.invariant hinit hstep).2

/-- Every step tells each message as `CommitTells` says. -/
theorem SessionsOk.tells {action : Action} (h : SessionsOk s)
    (hstep : SessionStep cfg s action s') (messageId : String) :
    CommitTells s.db s'.db messageId := by
  have hsame : CommitTells s.db s.db messageId := by
    left
    refine ⟨fun r hr _ => ⟨r, hr, Orphaned.refl r⟩, fun e he hnew => ?_⟩
    exact absurd (h.sequences e he) (Nat.not_le.mpr hnew)
  cases hstep.moves with
  | started id cmd sessions hins => exact hsame
  | advanced rd ses stage own hses hrun hfree => exact hsame
  | committed ses reply hses hstage =>
      obtain ⟨target, fresh, hprepared, htold⟩ := h.prepared hses hstage
      exact hprepared.tells htold h.sequences messageId
  | dropped action id => exact hsame

/-! ## The timeline of a room -/

/-- The events of a room in the order of their sequences. -/
def roomEvents (roomId : String) (events : EventTable) : List EventRow :=
  (events.rows.filter fun e => e.roomId = roomId).insertionSort fun a b => a.sequence ≤ b.sequence

/-- What a client shows after the message events: the last one of each message. -/
def timeline (events : List EventRow) : String → Option Message :=
  lastWrite (events.filterMap fun e => e.body.message?.map fun m => (m.id, m))

/-- The timeline of the room shows a message as it is stored, up to a parent that
was removed, as long as the log still has its latest event. -/
theorem timeline_shows (h : LogAgrees s) (hids : IdsStripped s.db.toDatabase) {r : MessageRow}
    (hr : r ∈ s.db.messages) {e : EventRow} (he : e ∈ s.db.events)
    (hlatest : s.Latest r.id e.sequence) :
    ∃ m m', timeline (roomEvents r.roomId s.db.events) r.id = some m ∧
      messageFromRow r = .ok m' ∧ SameUpToParent s.removed m m' := by
  obtain ⟨q, hq, hshows⟩ := h.latest r hr
  have hseq : e.sequence = q := le_antisymm (hq.2 _ hlatest.1 rfl) (hlatest.2 _ hq.1 rfl)
  obtain ⟨hroom, m, hm, m', hdecode, hsame⟩ := hshows e he hseq
  have hmid : m.id = r.id := by
    rw [← hsame.id]
    exact hids.decoded_id hr hdecode rfl
  refine ⟨m, m', ?_, hdecode, hsame⟩
  -- the log of the room around the latest event
  have hmem : e ∈ roomEvents r.roomId s.db.events := by
    rw [roomEvents, List.mem_insertionSort, List.mem_filter]
    exact ⟨he, decide_eq_true hroom⟩
  have hsorted : (roomEvents r.roomId s.db.events).Pairwise fun a b => a.sequence ≤ b.sequence :=
    List.pairwise_insertionSort _ _
  have hnodup : (roomEvents r.roomId s.db.events).Nodup :=
    (List.perm_insertionSort _ _).nodup_iff.mpr (s.db.events.rows_nodup.filter _)
  obtain ⟨before, after, hsplit⟩ := List.append_of_mem hmem
  rw [hsplit, List.pairwise_append, List.pairwise_cons] at hsorted
  rw [hsplit, List.nodup_append, List.nodup_cons] at hnodup
  unfold timeline
  rw [hsplit, List.filterMap_append, List.filterMap_cons, Option.mem_def.mp hm]
  simp only [Option.map_some, hmid]
  refine lastWrite_of_last ?_
  rintro w hw
  obtain ⟨e', he', hw'⟩ := List.mem_filterMap.mp hw
  obtain ⟨m₁, hm₁, rfl⟩ := Option.map_eq_some_iff.mp hw'
  intro hid
  have hevents : e' ∈ s.db.events := by
    have hall : e' ∈ roomEvents r.roomId s.db.events := by
      rw [hsplit]
      exact List.mem_append_right _ (List.mem_cons_of_mem _ he')
    rw [roomEvents, List.mem_insertionSort, List.mem_filter] at hall
    exact hall.1
  have hle : e'.sequence ≤ e.sequence :=
    hlatest.2 _ (h.recorded e' hevents m₁ hm₁) hid
  have hge : e.sequence ≤ e'.sequence := hsorted.2.1.1 e' he'
  obtain rfl := Table.eq_of_key hevents he (le_antisymm hle hge)
  exact hnodup.2.1.1 he'

/-- In every state that concurrent transactions reach, the latest event of every
message, while it is in the log, shows the message as it is stored, up to a
parent that a commit removed, and so does the timeline of its room; and every commit tells each
message it changed by exactly one event, after every event before it. -/
theorem log_agrees_with_table (h : SessionReachable cfg s) :
    (∀ r ∈ s.db.messages, ∃ q, s.Latest r.id q ∧
      ∀ e ∈ s.db.events, e.sequence = q → ShowsRow s.removed e r ∧
        ∃ m m', timeline (roomEvents r.roomId s.db.events) r.id = some m ∧
          messageFromRow r = .ok m' ∧ SameUpToParent s.removed m m') ∧
    (∀ e ∈ s.db.events, e.sequence ≤ s.db.lastSequence) ∧
    ∀ action s', SessionStep cfg s action s' →
      ∀ messageId, CommitTells s.db s'.db messageId := by
  have hok := h.sessionsOk
  have hagrees := h.logAgrees
  refine ⟨fun r hr => ?_, hok.sequences, fun action s' hstep messageId => hok.tells hstep messageId⟩
  obtain ⟨q, hq, hshows⟩ := hagrees.latest r hr
  refine ⟨q, hq, fun e he hseq => ⟨hshows e he hseq, ?_⟩⟩
  exact timeline_shows hagrees hok.ids hr he (hseq.symm ▸ hq)

/-- The configuration of the worked examples, with room in the outbox. -/
def roomyPgConfig : PgConfig := { store := { smallConfig with maxWebhookDeliveries := 5 } }

/-- A room, a message, and an edit that has to wait for a reaction to commit. -/
def reactionBeforeEdit : List Action :=
  [.start 0 (.createRoom
        { name := "General", id := some ⟨"general", matchesRoomId_general⟩ } "admin"),
   .advance 0 (.fixed 1 1), .advance 0 (.fixed 1 1), .commit 0,
   .start 1 (.createMessage { roomId := "general", sender := "ada", content := "hello" }),
   .advance 1 (.fixed 2 10), .advance 1 (.fixed 2 10), .advance 1 (.fixed 2 10),
   .advance 1 (.fixed 2 10), .commit 1,
   .start 2 (.setMessageReaction
      { roomId := "general", messageId := (UuidHex.ofNat 10).text, key := "thumbs",
        reactor := "bob", present := true }),
   .start 3 (.updateMessage
      { roomId := "general", messageId := (UuidHex.ofNat 10).text, content := "bye",
        actor := "ada" }),
   .advance 2 (.fixed 3 20), .advance 3 (.fixed 3 30), .advance 2 (.fixed 3 20),
   .advance 2 (.fixed 3 20), .commit 2,
   .advance 3 (.fixed 4 30), .advance 3 (.fixed 4 30), .advance 3 (.fixed 4 30),
   .advance 3 (.fixed 4 30), .commit 3]

/-- The edit is the latest event of the message and shows its row. -/
theorem log_agrees_with_table_reactionBeforeEdit :
    (∀ r ∈ (State.run roomyPgConfig reactionBeforeEdit {}).db.messages,
      ∃ q, (State.run roomyPgConfig reactionBeforeEdit {}).Latest r.id q ∧
        ∀ e ∈ (State.run roomyPgConfig reactionBeforeEdit {}).db.events, e.sequence = q →
          ShowsRow (State.run roomyPgConfig reactionBeforeEdit {}).removed e r) ∧
    (State.run roomyPgConfig reactionBeforeEdit {}).told.map Prod.fst = [30, 20, 10] ∧
    (State.run roomyPgConfig reactionBeforeEdit {}).db.messages.rows.map
      (fun r => (r.content, r.reactions.length)) = [("bye", 1)] := by
  refine ⟨fun r hr => ?_, by decide +kernel, by decide +kernel⟩
  obtain ⟨q, hq, hshows⟩ :=
    (log_agrees_with_table (run_reachable roomyPgConfig reactionBeforeEdit)).1 r hr
  exact ⟨q, hq, fun e he hseq => (hshows e he hseq).1⟩

end Postgres
end ChatEngine
