import ChatEngine.Lib.Pages
import ChatEngine.Lib.Run
import ChatEngine.Client.Timeline

/-!
# The cursor of the timeline

A room of the server beside a timeline that was given its newest page and is given events about
messages of the room.

* `PagedRoom`, every message the room has had, those it no longer retains, and the timeline;
  `PagedStep`, a reload, a new message, a change of a retained one, or a trim;
* `PagedRoom.NoHole`: whatever the room retains and the timeline lacks is before the cursor;
* `PagedRoom.EvictsSafely`: where an event makes the timeline evict, the oldest message it holds is
  the oldest for the server too, and nothing it lacks is after two messages that it holds;
* `timeline_pages`: while events evict safely there is no hole; `not_timeline_pages`, a hole.
-/

namespace ChatEngine
namespace Client

open Lib Models

/-- `messages` in its latest version, also where it is trimmed by now. -/
structure PagedRoom where
  messages : Table Message String Message.id
  trimmed : List String
  timeline : RoomTimeline

namespace PagedRoom

variable (collation : Collation) (size : Nat) (s : PagedRoom)

/-- The room has the message. -/
def Retained (m : Message) : Prop := m ∈ s.messages ∧ m.id ∉ s.trimmed

instance (m : Message) : Decidable (s.Retained m) :=
  inferInstanceAs (Decidable (m ∈ s.messages.rows ∧ m.id ∉ s.trimmed))

/-- The newest page of `_list_messages_sync`, in chronological order, with its cursor. -/
def page : List Message × Option String :=
  let rows := s.messages.rows.filter fun m => m.id ∉ s.trimmed
  let cut := cutPage Message.id size
    (rows.insertionSort fun a b => timeKeyLe Message.createdAt Message.id b a)
  (cut.1.reverse, cut.2)

/-- The history that a new connection is sent. -/
def history : RoomEvent := .history (s.page size).1 (s.page size).2

def withTimeline (t : RoomTimeline) : PagedRoom := { s with timeline := t }

end PagedRoom

inductive PagedAction where
  | load
  | wrote (m : Message)
  | changed (type : MessageEvent) (m : Message)
  | trimmed (ids : List String)

namespace PagedRoom

variable (collation : Collation) (size : Nat)

/-- A new message, or a retained one in its new version, is known to the room. -/
def knows (s : PagedRoom) : PagedAction → PagedRoom
  | .wrote m => { s with messages := s.messages.upsert m }
  | .changed _ m => { s with messages := s.messages.upsert m }
  | .trimmed ids => { s with trimmed := s.trimmed ++ ids }
  | .load => s

/-- The event that the timeline is given. -/
def event (s : PagedRoom) : PagedAction → Option RoomEvent
  | .load => some (s.history size)
  | .wrote m => some (.message .created m)
  | .changed type m => some (.message type m)
  | .trimmed _ => none

/-- A new message has a new id, and a change concerns a retained message and leaves its time. -/
def Admits (s : PagedRoom) : PagedAction → Prop
  | .wrote m => m.id ∉ s.messages.keys ∧ m.id ∉ s.trimmed
  | .changed _ m => ∃ old, s.Retained old ∧ old.id = m.id ∧ old.createdAt = m.createdAt
  | _ => True

/-- The room does what it does, and the timeline applies the event. -/
def next (s : PagedRoom) (action : PagedAction) : PagedRoom :=
  match s.event size action with
  | none => s.knows action
  | some event => (s.knows action).withTimeline (s.timeline.apply collation event)

end PagedRoom

def PagedStep (collation : Collation) (size : Nat) (s : PagedRoom) (action : PagedAction)
    (s' : PagedRoom) : Prop :=
  s.Admits action ∧ s' = s.next collation size action

/-- The message is not among the items. -/
def RoomTimeline.Lacks (t : RoomTimeline) (m : Message) : Prop :=
  m.id ∉ t.messages.keys

/-- What the room retains and the timeline lacks is before the message that the cursor names. -/
def PagedRoom.NoHole (s : PagedRoom) : Prop :=
  ∀ m, s.Retained m → s.timeline.Lacks m →
    ∃ b ∈ s.messages, s.timeline.currentNextBefore = some b.id ∧ ServerBefore m b

/-- The messages about to be evicted are before the oldest that stays for the server too. -/
def RoomTimeline.EvictsInOrder (collation : Collation) (t : RoomTimeline) : Prop :=
  ∀ e ∈ (t.items collation).take (t.messages.count - t.maxMessages.val),
    ∀ f ∈ (t.items collation)[t.messages.count - t.maxMessages.val]?, ServerBefore e f

/-- Of what the room retains and the timeline lacks, nothing is after two messages held. -/
def PagedRoom.NothingBetween (s : PagedRoom) (t : RoomTimeline) : Prop :=
  ∀ m, s.Retained m → t.Lacks m → ∀ a ∈ t.messages, ∀ b ∈ t.messages, a ≠ b →
    ¬ (ServerBefore a m ∧ ServerBefore b m)

/-- Where the event takes the timeline past its limit, the right message is evicted, and the
second oldest may become the cursor. -/
def PagedRoom.EvictsSafely (collation : Collation) (size : Nat) (s : PagedRoom) :
    PagedAction → Prop
  | .load => (s.timeline.received (s.history size)).EvictsInOrder collation
  | .wrote m =>
      let received := s.timeline.received (.message .created m)
      received.EvictsInOrder collation ∧
        (received.maxMessages.val < received.messages.count → s.NothingBetween received)
  | .changed type m =>
      let received := s.timeline.received (.message type m)
      received.EvictsInOrder collation ∧
        (received.maxMessages.val < received.messages.count → s.NothingBetween received)
  | .trimmed _ => True

/-! ## Eviction -/

section Eviction

variable {collation : Collation} {t : RoomTimeline} {a b c d m : Message}

/-- The order is a matter of the time and the id. -/
theorem ServerBefore.congr (h : ServerBefore a b) (ha : a.id = c.id)
    (ha' : a.createdAt = c.createdAt) (hb : b.id = d.id) (hb' : b.createdAt = d.createdAt) :
    ServerBefore c d := by
  unfold ServerBefore at *
  rw [← ha, ← ha', ← hb, ← hb']
  exact h

/-- The messages that stay, the cursor and the limit, where something is evicted. -/
theorem RoomTimeline.enforceLimit_full (h : t.maxMessages.val < t.messages.count) :
    t.enforceLimit collation =
      { t with
        messages := t.messages.deleteWhere fun m =>
          m.id ∈ ((t.items collation).take (t.messages.count - t.maxMessages.val)).map Message.id
        currentTruncated := true
        currentNextBefore :=
          (t.items collation)[t.messages.count - t.maxMessages.val]?.map Message.id } := by
  have hlength : (t.items collation).length = t.messages.count := (t.items_perm collation).length_eq
  unfold RoomTimeline.enforceLimit
  rw [if_neg (not_le.mpr h)]
  dsimp only
  rw [hlength]

theorem RoomTimeline.enforceLimit_count :
    (t.enforceLimit collation).messages.count ≤ (t.enforceLimit collation).maxMessages.val := by
  by_cases h : t.messages.count ≤ t.maxMessages.val
  · unfold RoomTimeline.enforceLimit
    rw [if_pos h]
    exact h
  · rw [RoomTimeline.enforceLimit_full (not_le.mp h)]
    have hlength : (t.items collation).length = t.messages.count :=
      (t.items_perm collation).length_eq
    have hnodup : (t.items collation).Nodup :=
      (t.items_perm collation).nodup_iff.mpr t.messages.rows_nodup
    have hdeleted := t.messages.length_deleteSelected
      ((t.items collation).take (t.messages.count - t.maxMessages.val))
      (fun r hr => RoomTimeline.mem_items.mp (List.mem_of_mem_take hr))
      (hnodup.sublist (List.take_sublist _ _))
    rw [List.length_take, hlength] at hdeleted
    dsimp only
    omega

/-- What the timeline lacks after the limit is enforced is before the cursor, if what it lacked
before is before the oldest message that stays. -/
theorem RoomTimeline.enforceLimit_noHole {known : Table Message String Message.id}
    (retained : Message → Prop)
    (hheld : ∀ m ∈ t.messages, ∃ r ∈ known, r.id = m.id ∧ r.createdAt = m.createdAt)
    (hknown : ∀ m, retained m → m ∈ known) (horder : t.EvictsInOrder collation)
    (hroom : t.messages.count ≤ t.maxMessages.val → ∀ m, retained m → t.Lacks m →
      ∃ b ∈ known, t.currentNextBefore = some b.id ∧ ServerBefore m b)
    (hfull : t.maxMessages.val < t.messages.count → ∀ m, retained m → t.Lacks m →
      ∀ f ∈ (t.items collation)[t.messages.count - t.maxMessages.val]?, ServerBefore m f)
    (hm : retained m) (hlacks : (t.enforceLimit collation).Lacks m) :
    ∃ b ∈ known, (t.enforceLimit collation).currentNextBefore = some b.id ∧ ServerBefore m b := by
  by_cases h : t.messages.count ≤ t.maxMessages.val
  · have hsame : t.enforceLimit collation = t := if_pos h
    rw [hsame] at hlacks ⊢
    exact hroom h m hm hlacks
  · have hmore := not_le.mp h
    rw [RoomTimeline.enforceLimit_full hmore] at hlacks ⊢
    have hlength : (t.items collation).length = t.messages.count :=
      (t.items_perm collation).length_eq
    have hindex : t.messages.count - t.maxMessages.val < (t.items collation).length := by
      have hpos := t.maxMessages.property.1
      omega
    have hfirst := List.getElem?_eq_getElem hindex
    obtain ⟨f, hf⟩ : ∃ f, (t.items collation)[t.messages.count - t.maxMessages.val]? = some f :=
      ⟨_, hfirst⟩
    have hfmem : f ∈ t.messages := RoomTimeline.mem_items.mp (List.mem_of_getElem? hf)
    obtain ⟨b, hb, hbid, hbtime⟩ := hheld f hfmem
    refine ⟨b, hb, ?_, ?_⟩
    · dsimp only
      rw [hf, hbid]
      rfl
    · have hbefore : ServerBefore m f := by
        by_cases hold : t.Lacks m
        · exact hfull hmore m hm hold f hf
        · -- the message was held, so it is one of those evicted
          obtain ⟨e, he, heid⟩ := Table.mem_keys.mp (not_not.mp hold)
          have hevicted : e.id ∈ ((t.items collation).take
              (t.messages.count - t.maxMessages.val)).map Message.id := by
            by_contra hstays
            apply hlacks
            exact Table.mem_keys.mpr ⟨e, Table.mem_deleteWhere.mpr ⟨he, hstays⟩, heid⟩
          obtain ⟨e', he', heid'⟩ := List.mem_map.mp hevicted
          have hsame : e' = e := Table.eq_of_key
            (RoomTimeline.mem_items.mp (List.mem_of_mem_take he')) he heid'
          rw [hsame] at he'
          obtain ⟨r, hr, hrid, hrtime⟩ := hheld e he
          have hrm : r = m := Table.eq_of_key hr (hknown m hm) (hrid.trans heid)
          rw [hrm] at hrtime
          exact (horder e he' f hf).congr heid hrtime.symm rfl rfl
      exact hbefore.congr rfl rfl hbid.symm hbtime.symm

end Eviction

/-! ## The newest page -/

section NewestPage

variable {collation : Collation} {size : Nat} {s : PagedRoom} {m p : Message}

/-- An id that was loaded is there. -/
theorem RoomTimeline.mem_keys_load {items : List Message} (h : m ∈ items) :
    m.id ∈ (RoomTimeline.load items).keys := by
  unfold RoomTimeline.load
  induction items using List.reverseRecOn with
  | nil => cases h
  | append_singleton items last ih =>
      rw [List.foldl_append]
      show m.id ∈ (Table.upsert _ last).keys
      by_cases hsame : m.id = last.id
      · exact Table.mem_keys.mpr ⟨last, Table.mem_upsert.mpr (.inl rfl), hsame.symm⟩
      · rcases List.mem_append.mp h with hold | hnew
        · obtain ⟨r, hr, hrid⟩ := Table.mem_keys.mp (ih hold)
          refine Table.mem_keys.mpr ⟨r, Table.mem_upsert.mpr (.inr ⟨hr, ?_⟩), hrid⟩
          rw [hrid]
          exact hsame
        · exact absurd (congrArg Message.id (List.mem_singleton.mp hnew)) hsame

/-- What is retained and not on the newest page is before the whole page, whose cursor names a
message of it. -/
theorem PagedRoom.page_rest (hsize : 1 ≤ size) (hm : s.Retained m) (hout : m ∉ (s.page size).1) :
    (∀ p ∈ (s.page size).1, ServerBefore m p) ∧
      ∃ b ∈ (s.page size).1, (s.page size).2 = some b.id := by
  unfold PagedRoom.page at *
  dsimp only at *
  generalize hsorted : (s.messages.rows.filter fun m => m.id ∉ s.trimmed).insertionSort
    (fun a b => timeKeyLe Message.createdAt Message.id b a) = sorted at *
  have htotal : Std.Total fun a b => timeKeyLe Message.createdAt Message.id b a :=
    ⟨fun a b => Std.Total.total (r := timeKeyLe Message.createdAt Message.id) b a⟩
  have htrans : IsTrans Message fun a b => timeKeyLe Message.createdAt Message.id b a :=
    ⟨fun _ _ _ hab hbc =>
      IsTrans.trans (r := timeKeyLe Message.createdAt Message.id) _ _ _ hbc hab⟩
  have hpairwise : sorted.Pairwise fun a b => timeKeyLe Message.createdAt Message.id b a := by
    rw [← hsorted]
    exact List.pairwise_insertionSort _ _
  have hperm : sorted.Perm (s.messages.rows.filter fun m => m.id ∉ s.trimmed) := by
    rw [← hsorted]
    exact List.perm_insertionSort _ _
  have hin : m ∈ sorted :=
    hperm.mem_iff.mpr (List.mem_filter.mpr ⟨hm.1, decide_eq_true hm.2⟩)
  have hknown : ∀ p ∈ sorted, p ∈ s.messages :=
    fun p hp => (List.mem_filter.mp (hperm.mem_iff.mp hp)).1
  have hrest : m ∈ sorted.drop size := by
    rw [← List.take_append_drop size sorted, List.mem_append] at hin
    exact hin.resolve_left fun htake => hout (List.mem_reverse.mpr htake)
  constructor
  · intro p hp
    have htake : p ∈ sorted.take size := List.mem_reverse.mp hp
    rw [← List.take_append_drop size sorted] at hpairwise
    rcases (List.pairwise_append.mp hpairwise).2.2 p htake m hrest with hlt | ⟨heq, hle⟩
    · exact .inl hlt
    · refine .inr ⟨heq, lt_of_le_of_ne hle fun hid => hout ?_⟩
      have hsame : m = p := Table.eq_of_key hm.1 (hknown p (List.mem_of_mem_take htake)) hid
      rw [hsame]
      exact hp
  · have hmore : size < sorted.length := by
      by_contra hall
      rw [List.drop_eq_nil_of_le (not_lt.mp hall)] at hrest
      cases hrest
    have hne : sorted.take size ≠ [] := by
      intro hnil
      have hlength := congrArg List.length hnil
      rw [List.length_take, List.length_nil] at hlength
      omega
    refine ⟨(sorted.take size).getLast hne, List.mem_reverse.mpr (List.getLast_mem hne), ?_⟩
    show (if size < sorted.length then _ else none) = _
    rw [if_pos hmore, List.getLast?_eq_some_getLast hne]
    rfl

theorem PagedRoom.mem_page (hp : p ∈ (s.page size).1) : p ∈ s.messages := by
  have htake := List.mem_of_mem_take (List.mem_reverse.mp hp)
  exact (List.mem_filter.mp ((List.perm_insertionSort _ _).mem_iff.mp htake)).1

end NewestPage

/-! ## Runs -/

section Runs

variable {collation : Collation} {size : Nat} {s s' : PagedRoom} {m : Message}

/-- What the timeline holds is known to the room under its time, it is within its limit, and
there is no hole. -/
structure PagedOk (s : PagedRoom) : Prop where
  held : ∀ m ∈ s.timeline.messages,
    ∃ r ∈ s.messages, r.id = m.id ∧ r.createdAt = m.createdAt
  count : s.timeline.messages.count ≤ s.timeline.maxMessages.val
  noHole : s.NoHole

/-- A reload leaves a timeline without a hole, whatever it was before. -/
theorem PagedOk.load (hsize : 1 ≤ size)
    (hsafe : (s.timeline.received (s.history size)).EvictsInOrder collation) :
    PagedOk (s.next collation size .load) := by
  have hreceived : ∀ m ∈ (s.timeline.received (s.history size)).messages,
      m ∈ (s.page size).1 := fun m hm => RoomTimeline.mem_load hm
  have hheld : ∀ m ∈ (s.timeline.received (s.history size)).messages,
      ∃ r ∈ s.messages, r.id = m.id ∧ r.createdAt = m.createdAt :=
    fun m hm => ⟨m, PagedRoom.mem_page (hreceived m hm), rfl, rfl⟩
  have hlacks : ∀ m, (s.timeline.received (s.history size)).Lacks m → m ∉ (s.page size).1 :=
    fun m hm hin => hm (RoomTimeline.mem_keys_load hin)
  refine ⟨?_, RoomTimeline.enforceLimit_count, ?_⟩
  · exact fun m hm => hheld m (RoomTimeline.mem_enforceLimit hm)
  · intro m hm hout
    refine RoomTimeline.enforceLimit_noHole s.Retained hheld (fun _ h => h.1) hsafe
      ?_ ?_ hm hout
    · intro _ m hm hout
      obtain ⟨hbefore, b, hb, hcursor⟩ := s.page_rest hsize hm (hlacks m hout)
      exact ⟨b, PagedRoom.mem_page hb, hcursor, hbefore b hb⟩
    · intro _ m hm hout f hf
      obtain ⟨hbefore, -⟩ := s.page_rest hsize hm (hlacks m hout)
      exact hbefore f (hreceived f (RoomTimeline.mem_items.mp (List.mem_of_getElem? hf)))

/-- An event about a message that the room knows by now, under the time it had before if it was
there. -/
theorem PagedOk.message (h : PagedOk s) (type : MessageEvent)
    (hold : ∀ r ∈ s.messages, r.id = m.id → r.createdAt = m.createdAt)
    (hsafe : (s.timeline.received (.message type m)).EvictsInOrder collation ∧
      ((s.timeline.received (.message type m)).maxMessages.val <
          (s.timeline.received (.message type m)).messages.count →
        s.NothingBetween (s.timeline.received (.message type m)))) :
    PagedOk { s with
      messages := s.messages.upsert m
      timeline := s.timeline.apply collation (.message type m) } := by
  obtain ⟨horder, hbetween⟩ := hsafe
  have hknown : ∀ r ∈ s.messages,
      ∃ r' ∈ s.messages.upsert m, r'.id = r.id ∧ r'.createdAt = r.createdAt := by
    intro r hr
    by_cases hsame : r.id = m.id
    · exact ⟨m, Table.mem_upsert.mpr (.inl rfl), hsame.symm, (hold r hr hsame).symm⟩
    · exact ⟨r, Table.mem_upsert.mpr (.inr ⟨hr, hsame⟩), rfl, rfl⟩
  have hheld : ∀ x ∈ (s.timeline.received (.message type m)).messages,
      ∃ r ∈ s.messages.upsert m, r.id = x.id ∧ r.createdAt = x.createdAt := by
    intro x hx
    rcases Table.mem_upsert.mp hx with rfl | ⟨hx', -⟩
    · exact ⟨x, Table.mem_upsert.mpr (.inl rfl), rfl, rfl⟩
    · obtain ⟨r, hr, hrid, hrtime⟩ := h.held x hx'
      obtain ⟨r', hr', hrid', hrtime'⟩ := hknown r hr
      exact ⟨r', hr', hrid'.trans hrid, hrtime'.trans hrtime⟩
  -- what is lacked now was lacked before
  have hlacked : ∀ x, x ∈ s.messages.upsert m ∧ x.id ∉ s.trimmed →
      (s.timeline.received (.message type m)).Lacks x → s.Retained x ∧ s.timeline.Lacks x := by
    intro x hx hout
    have hne : x.id ≠ m.id := fun hsame =>
      hout (Table.mem_keys.mpr ⟨m, Table.mem_upsert.mpr (.inl rfl), hsame.symm⟩)
    refine ⟨⟨?_, hx.2⟩, fun hin => hout ?_⟩
    · rcases Table.mem_upsert.mp hx.1 with rfl | ⟨hx', -⟩
      · exact absurd rfl hne
      · exact hx'
    · obtain ⟨y, hy, hyid⟩ := Table.mem_keys.mp hin
      refine Table.mem_keys.mpr ⟨y, Table.mem_upsert.mpr (.inr ⟨hy, ?_⟩), hyid⟩
      rw [hyid]
      exact hne
  refine ⟨?_, RoomTimeline.enforceLimit_count, ?_⟩
  · exact fun x hx => hheld x (RoomTimeline.mem_enforceLimit hx)
  · intro x hx hout
    refine RoomTimeline.enforceLimit_noHole
      (fun x => x ∈ s.messages.upsert m ∧ x.id ∉ s.trimmed) hheld (fun _ h => h.1)
      horder ?_ ?_ hx hout
    · intro _ x hx hout
      obtain ⟨hretained, hlacks⟩ := hlacked x hx hout
      obtain ⟨b, hb, hcursor, hbefore⟩ := h.noHole x hretained hlacks
      obtain ⟨b', hb', hbid, hbtime⟩ := hknown b hb
      refine ⟨b', hb', ?_, hbefore.congr rfl rfl hbid.symm hbtime.symm⟩
      rw [hbid]
      exact hcursor
    · intro hfull x hx hout f hf
      obtain ⟨hretained, hlacks⟩ := hlacked x hx hout
      -- one message goes, so the cursor is the second oldest
      have hone : (s.timeline.received (.message type m)).messages.count -
          (s.timeline.received (.message type m)).maxMessages.val = 1 := by
        have hcount := Table.count_upsert_le s.timeline.messages m
        have hbound := h.count
        have hfull' : s.timeline.maxMessages.val < (s.timeline.messages.upsert m).count := hfull
        show (s.timeline.messages.upsert m).count - s.timeline.maxMessages.val = 1
        omega
      rw [hone] at hf
      have horder' := horder
      unfold RoomTimeline.EvictsInOrder at horder'
      rw [hone] at horder'
      have hnodup : ((s.timeline.received (.message type m)).items collation).Nodup :=
        (RoomTimeline.items_perm collation _).nodup_iff.mpr (Table.rows_nodup _)
      have hmem : ∀ y ∈ (s.timeline.received (.message type m)).items collation,
          y ∈ (s.timeline.received (.message type m)).messages :=
        fun y hy => RoomTimeline.mem_items.mp hy
      generalize (s.timeline.received (.message type m)).items collation = ordered at *
      match ordered, hf with
      | e :: f' :: rest, hf =>
          obtain rfl : f' = f := Option.some.inj hf
          have hef : ServerBefore e f' := horder' e (List.mem_singleton_self _) f' rfl
          have hne : e ≠ f' := by
            rintro rfl
            exact (List.nodup_cons.mp hnodup).1 List.mem_cons_self
          have hnone := hbetween hfull x hretained hout e (hmem e List.mem_cons_self) f'
            (hmem f' (List.mem_cons_of_mem _ List.mem_cons_self)) hne
          have hid : f'.id ≠ x.id := fun hsame => hout (Table.mem_keys.mpr
            ⟨f', hmem f' (List.mem_cons_of_mem _ List.mem_cons_self), hsame⟩)
          rcases ServerBefore.total hid with hfx | hxf
          · exact absurd ⟨hef.trans hfx, hfx⟩ hnone
          · exact hxf

theorem PagedOk.step (hsize : 1 ≤ size) (h : PagedOk s) (action : PagedAction)
    (hsafe : s.EvictsSafely collation size action)
    (hstep : PagedStep collation size s action s') : PagedOk s' := by
  obtain ⟨hadmits, rfl⟩ := hstep
  cases action with
  | load => exact .load hsize hsafe
  | wrote m =>
      apply h.message .created _ hsafe
      intro r hr hid
      exact absurd (Table.mem_keys.mpr ⟨r, hr, hid⟩) hadmits.1
  | changed type m =>
      apply h.message type _ hsafe
      intro r hr hid
      obtain ⟨old, hretained, hold, htime⟩ := hadmits
      rw [Table.eq_of_key hr hretained.1 (hid.trans hold.symm)]
      exact htime
  | trimmed ids =>
      refine ⟨h.held, h.count, ?_⟩
      intro m hm hlacks
      refine h.noHole m ⟨hm.1, fun hin => hm.2 ?_⟩ hlacks
      exact List.mem_append_left _ hin

/-- From a first history on, while every event evicts safely, all that the room retains and the
timeline lacks is before the message that the cursor names; where no cursor is given nothing is
lacking. -/
theorem timeline_pages (collation : Collation) (hsize : 1 ≤ size) (start : PagedRoom)
    (hstart : start.EvictsSafely collation size .load)
    (hrun : Run (PagedStep collation size) (PagedRoom.EvictsSafely collation size)
      (start.next collation size .load) s) :
    s.NoHole ∧ (s.timeline.currentNextBefore = none → ∀ m, s.Retained m →
      m.id ∈ (s.timeline.items collation).map Message.id) := by
  have hok : PagedOk s :=
    hrun.invariant (fun _ action _ ht hsafe hstep => ht.step hsize action hsafe hstep)
      (.load hsize hstart)
  refine ⟨hok.noHole, fun hnone m hm => ?_⟩
  by_contra hout
  have hlacks : s.timeline.Lacks m := by
    intro hin
    obtain ⟨r, hr, hrid⟩ := Table.mem_keys.mp hin
    exact hout (List.mem_map.mpr ⟨r, RoomTimeline.mem_items.mpr hr, hrid⟩)
  obtain ⟨b, -, hcursor, -⟩ := hok.noHole m hm hlacks
  rw [hnone] at hcursor
  cases hcursor

end Runs

/-! ## Concrete rooms -/

section Examples

/-- As many messages as `_list_messages_sync` is asked for when a socket connects. -/
def historySize : Nat := 50

/-- One message a second. -/
def everySecond (n : Nat) : List Message := (List.range n).map fun i => stamped i (i * 1_000_000)

/-- A room with the messages, beside a timeline that has not been given anything. -/
def roomOf (messages : List Message) (limit : MessageLimit) : PagedRoom where
  messages := RoomTimeline.load messages
  trimmed := []
  timeline := { maxMessages := limit }

/-- The newest page is loaded, -/
def newestLoaded : PagedRoom :=
  (roomOf (everySecond 53) ⟨51, by decide⟩).next bytewise historySize .load

/-- and then an older message is updated, -/
def oneStraggler : PagedRoom :=
  newestLoaded.next bytewise historySize (.changed .updated (stamped 0 0))

/-- and then another. -/
def twoStragglers : PagedRoom :=
  oneStraggler.next bytewise historySize (.changed .updated (stamped 1 1_000_000))

theorem twoStragglers_reached :
    Reach (PagedStep bytewise historySize) newestLoaded twoStragglers := by
  have hfirst : newestLoaded.Retained (stamped 0 0) := by decide +kernel
  have hsecond : oneStraggler.Retained (stamped 1 1_000_000) := by decide +kernel
  have hone : Reach (PagedStep bytewise historySize) newestLoaded oneStraggler :=
    Run.tail (.changed .updated (stamped 0 0)) Run.refl trivial
      ⟨⟨stamped 0 0, hfirst, rfl, rfl⟩, rfl⟩
  exact Run.tail (.changed .updated (stamped 1 1_000_000)) hone trivial
    ⟨⟨stamped 1 1_000_000, hsecond, rfl, rfl⟩, rfl⟩

/-- The cursor names the second message, and the third is lacking. -/
theorem not_timeline_pages :
    ∃ s, Reach (PagedStep bytewise historySize) newestLoaded s ∧ ¬ s.NoHole := by
  have hstate : twoStragglers.Retained (stamped 2 2_000_000) ∧
      (stamped 2 2_000_000).id ∉ twoStragglers.timeline.messages.keys ∧
      ∀ b ∈ twoStragglers.messages.rows,
        twoStragglers.timeline.currentNextBefore = some b.id →
          ¬ ServerBefore (stamped 2 2_000_000) b := by
    decide +kernel
  obtain ⟨hretained, hlacks, hcursor⟩ := hstate
  refine ⟨twoStragglers, twoStragglers_reached, fun h => ?_⟩
  obtain ⟨b, hb, hnamed, hbefore⟩ := h _ hretained hlacks
  exact hcursor b hb hnamed hbefore

/-- A third message takes the place of the first. -/
theorem timeline_pages_third :
    PagedRoom.NoHole
      (((roomOf (everySecond 2) ⟨2, by decide⟩).next bytewise historySize .load).next bytewise
        historySize (.wrote (stamped 2 2_000_000))) := by
  refine (timeline_pages bytewise (show 1 ≤ historySize by decide)
    (roomOf (everySecond 2) ⟨2, by decide⟩) ?_ ?_).1
  · show RoomTimeline.EvictsInOrder bytewise _
    unfold RoomTimeline.EvictsInOrder
    decide +kernel
  · refine Run.tail (.wrote (stamped 2 2_000_000)) Run.refl ⟨?_, ?_⟩ ⟨⟨?_, List.not_mem_nil⟩, rfl⟩
    · unfold RoomTimeline.EvictsInOrder
      decide +kernel
    · intro _ m hm
      have hall : ∀ m ∈ (RoomTimeline.load (everySecond 2)).rows,
          m.id ∈ ((((roomOf (everySecond 2) ⟨2, by decide⟩).next bytewise historySize
            .load).timeline).received (.message .created (stamped 2 2_000_000))).messages.keys := by
        decide +kernel
      exact fun hlacks => absurd (hall m hm.1) hlacks
    · decide +kernel

end Examples

end Client
end ChatEngine
