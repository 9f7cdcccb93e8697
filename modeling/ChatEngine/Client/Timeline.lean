import Mathlib.Data.List.Induction
import ChatEngine.Lib.Table
import ChatEngine.Models.Message

/-!
# The timeline of the client

`RoomTimeline` keeps the messages of a room by id, sorts them for every snapshot and drops the
oldest past its limit.

* `Collation`, what is relied on of `localeCompare`, and `compareMessages`;
* `RoomTimeline.apply` and `RoomTimeline.enforceLimit`, and `RoomTimeline.items` of a snapshot;
* `ServerBefore`, the order in which the server lists messages;
* `timeline_order`: when the items are in the order of the server.
-/

namespace ChatEngine
namespace Client

open Lib Models

/-- `localeCompare` is consistent, and finds no two of the ids that the server makes equal. -/
structure Collation where
  compare : String → String → Int
  swap : ∀ a b, compare a b < 0 ↔ 0 < compare b a
  trans : ∀ a b c, compare a b ≤ 0 → compare b c ≤ 0 → compare a c ≤ 0
  distinct : ∀ u v : UuidHex, compare u.text v.text = 0 → u = v

/-- `Date.parse` of a timestamp that the server wrote: whole milliseconds. -/
def dateParse (t : Timestamp) : Int := t / 1_000

/-- `compareMessages`; the timestamps of the server parse. -/
def compareMessages (collation : Collation) (left right : Message) : Int :=
  let timeOrder := dateParse left.createdAt - dateParse right.createdAt
  if timeOrder ≠ 0 then timeOrder else collation.compare left.id right.id

/-- The sort of `compareMessages`. -/
def NotAfter (collation : Collation) (left right : Message) : Prop :=
  compareMessages collation left right ≤ 0

instance (collation : Collation) : DecidableRel (NotAfter collation) :=
  fun left right => inferInstanceAs (Decidable (compareMessages collation left right ≤ 0))

/-- The `ORDER BY created_at, id` of the server. -/
def ServerBefore (a b : Message) : Prop :=
  a.createdAt < b.createdAt ∨ (a.createdAt = b.createdAt ∧ a.id < b.id)

instance : DecidableRel ServerBefore := fun _ _ => inferInstanceAs (Decidable (_ ∨ _))

/-- The events that carry one message, each the whole of it. -/
inductive MessageEvent where
  | created
  | updated
  | deleted
  | pinUpdated
  | reactionUpdated
  deriving DecidableEq

/-- `RoomEvent`, as far as the timeline tells them apart. -/
inductive RoomEvent where
  | ready
  | history (items : List Message) (nextBefore : Option String)
  | message (type : MessageEvent) (message : Message)
  | syncCompleted
  | pong
  | other

/-- `RoomTimelineStatus`. -/
inductive TimelineStatus where
  | empty
  | synchronizing
  | synchronized
  | stale
  deriving DecidableEq

/-- `boundedMessageLimit`. -/
abbrev MessageLimit := { n : Nat // 1 ≤ n ∧ n ≤ 10_000 }

structure RoomTimeline where
  maxMessages : MessageLimit
  messages : Table Message String Message.id := ∅
  currentStatus : TimelineStatus := .empty
  currentGeneration : Nat := 0
  currentTruncated : Bool := false
  currentNextBefore : Option String := none

namespace RoomTimeline

variable (collation : Collation)

/-- `[...messages.values()].sort(compareMessages)`, also the `items` of a snapshot. -/
def items (t : RoomTimeline) : List Message := t.messages.rows.insertionSort (NotAfter collation)

/-- `enforceLimit`. -/
def enforceLimit (t : RoomTimeline) : RoomTimeline :=
  if t.messages.count ≤ t.maxMessages.val then t
  else
    let ordered := t.items collation
    let removeCount := ordered.length - t.maxMessages.val
    { t with
      messages := t.messages.deleteWhere fun m => m.id ∈ (ordered.take removeCount).map Message.id
      currentTruncated := true
      currentNextBefore := ordered[removeCount]?.map Message.id }

/-- The messages of a history one by one; a later one takes the place of an earlier one. -/
def load (items : List Message) : Table Message String Message.id :=
  items.foldl Table.upsert ∅

/-- The timeline before the limit is enforced. -/
def received (t : RoomTimeline) : RoomEvent → RoomTimeline
  | .history items nextBefore =>
      { t with messages := load items, currentNextBefore := nextBefore, currentTruncated := false }
  | .message _ message => { t with messages := t.messages.upsert message }
  | _ => t

/-- `apply`. -/
def apply (t : RoomTimeline) : RoomEvent → RoomTimeline
  | .ready => { t with currentStatus := .synchronizing }
  | .history items nextBefore =>
      { (t.received (.history items nextBefore)).enforceLimit collation with
        currentStatus := .synchronizing }
  | .message type message => (t.received (.message type message)).enforceLimit collation
  | .syncCompleted | .pong =>
      if t.currentStatus = .synchronizing then
        { t with currentStatus := .synchronized, currentGeneration := t.currentGeneration + 1 }
      else t
  | .other => t

/-- The events one after the other. -/
def applyAll (events : List RoomEvent) (t : RoomTimeline) : RoomTimeline :=
  events.foldl (apply collation) t

end RoomTimeline

/-- The messages that an event carries. -/
def RoomEvent.messages : RoomEvent → List Message
  | .history items _ => items
  | .message _ m => [m]
  | _ => []

/-- The ids are those that the server makes. -/
def FromServer (events : List RoomEvent) : Prop :=
  ∀ event ∈ events, ∀ m ∈ event.messages, ∃ u : UuidHex, m.id = u.text

/-! ## The two orders -/

section Orders

variable {collation : Collation} {a b c : Message}

theorem compareMessages_of_ne (h : dateParse a.createdAt ≠ dateParse b.createdAt) :
    compareMessages collation a b = dateParse a.createdAt - dateParse b.createdAt :=
  if_pos fun hzero => h (Int.sub_eq_zero.mp hzero)

theorem compareMessages_of_eq (h : dateParse a.createdAt = dateParse b.createdAt) :
    compareMessages collation a b = collation.compare a.id b.id := by
  unfold compareMessages
  rw [h, Int.sub_self]
  exact if_neg fun hne => hne rfl

theorem compareMessages_swap :
    compareMessages collation a b < 0 ↔ 0 < compareMessages collation b a := by
  by_cases h : dateParse a.createdAt = dateParse b.createdAt
  · rw [compareMessages_of_eq h, compareMessages_of_eq h.symm]
    exact collation.swap a.id b.id
  · rw [compareMessages_of_ne h, compareMessages_of_ne (Ne.symm h)]
    omega

theorem not_notAfter : ¬ NotAfter collation a b ↔ compareMessages collation b a < 0 := by
  unfold NotAfter
  rw [compareMessages_swap, not_le]

instance (collation : Collation) : Std.Total (NotAfter collation) where
  total a b := by
    by_cases h : NotAfter collation a b
    · exact .inl h
    · exact .inr (not_notAfter.mp h).le

instance (collation : Collation) : IsTrans Message (NotAfter collation) where
  trans a b c hab hbc := by
    unfold NotAfter at *
    by_cases h : dateParse a.createdAt = dateParse b.createdAt
    · by_cases h' : dateParse b.createdAt = dateParse c.createdAt
      · rw [compareMessages_of_eq h] at hab
        rw [compareMessages_of_eq h'] at hbc
        rw [compareMessages_of_eq (h.trans h')]
        exact collation.trans _ _ _ hab hbc
      · rw [compareMessages_of_ne h'] at hbc
        rw [compareMessages_of_ne (by rw [h]; exact h'), h]
        exact hbc
    · rw [compareMessages_of_ne h] at hab
      by_cases h' : dateParse b.createdAt = dateParse c.createdAt
      · rw [compareMessages_of_ne (by rw [← h']; exact h), ← h']
        exact hab
      · rw [compareMessages_of_ne h'] at hbc
        rw [compareMessages_of_ne (by omega)]
        omega

theorem ServerBefore.asymm (h : ServerBefore a b) : ¬ ServerBefore b a := by
  rintro (hlt | ⟨heq, hid⟩)
  · rcases h with hlt' | ⟨heq', -⟩
    · exact lt_asymm hlt hlt'
    · exact hlt.ne heq'.symm
  · rcases h with hlt' | ⟨-, hid'⟩
    · exact hlt'.ne heq.symm
    · exact lt_asymm hid hid'

theorem ServerBefore.trans (h : ServerBefore a b) (h' : ServerBefore b c) : ServerBefore a c := by
  rcases h with hlt | ⟨heq, hid⟩
  · rcases h' with hlt' | ⟨heq', -⟩
    · exact .inl (hlt.trans hlt')
    · exact .inl (hlt.trans_eq heq')
  · rcases h' with hlt' | ⟨heq', hid'⟩
    · exact .inl (heq.trans_lt hlt')
    · exact .inr ⟨heq.trans heq', hid.trans hid'⟩

theorem ServerBefore.total (h : a.id ≠ b.id) : ServerBefore a b ∨ ServerBefore b a := by
  rcases lt_trichotomy a.createdAt b.createdAt with hlt | heq | hgt
  · exact .inl (.inl hlt)
  · rcases lt_or_gt_of_ne h with hid | hid
    · exact .inl (.inr ⟨heq, hid⟩)
    · exact .inr (.inr ⟨heq.symm, hid⟩)
  · exact .inr (.inl hgt)

/-- Among messages of different milliseconds the client orders as the server does. -/
theorem compareMessages_neg_of_ne (h : dateParse a.createdAt ≠ dateParse b.createdAt)
    (hab : ServerBefore a b) : compareMessages collation a b < 0 := by
  rw [compareMessages_of_ne h]
  have hle : a.createdAt ≤ b.createdAt := by
    rcases hab with hlt | ⟨heq, -⟩
    · exact hlt.le
    · exact heq.le
  have hparse : dateParse a.createdAt ≤ dateParse b.createdAt :=
    Int.ediv_le_ediv (by decide) hle
  omega

end Orders

/-! ## What a timeline holds -/

section Holding

variable {collation : Collation} {t : RoomTimeline} {event : RoomEvent} {m : Message}

theorem RoomTimeline.items_perm (collation : Collation) (t : RoomTimeline) :
    (t.items collation).Perm t.messages.rows :=
  List.perm_insertionSort _ _

theorem RoomTimeline.mem_items : m ∈ t.items collation ↔ m ∈ t.messages :=
  (t.items_perm collation).mem_iff

theorem RoomTimeline.items_ids_nodup (collation : Collation) (t : RoomTimeline) :
    ((t.items collation).map Message.id).Nodup :=
  ((t.items_perm collation).map Message.id).nodup_iff.mpr t.messages.keys_nodup

theorem RoomTimeline.mem_enforceLimit (h : m ∈ (t.enforceLimit collation).messages) :
    m ∈ t.messages := by
  unfold RoomTimeline.enforceLimit at h
  split at h
  · exact h
  · exact (Table.mem_deleteWhere.mp h).1

/-- A row of a foldl of upserts is one of the rows. -/
theorem RoomTimeline.mem_load {items : List Message} (h : m ∈ RoomTimeline.load items) :
    m ∈ items := by
  unfold RoomTimeline.load at h
  induction items using List.reverseRecOn with
  | nil => exact absurd h Table.not_mem_empty
  | append_singleton items last ih =>
      rw [List.foldl_append] at h
      rcases Table.mem_upsert.mp h with rfl | ⟨hold, -⟩
      · exact List.mem_append_right _ (List.mem_singleton_self _)
      · exact List.mem_append_left _ (ih hold)

theorem RoomTimeline.mem_received (h : m ∈ (t.received event).messages) :
    m ∈ t.messages ∨ m ∈ event.messages := by
  cases event with
  | history items nextBefore => exact .inr (RoomTimeline.mem_load h)
  | message type last =>
      rcases Table.mem_upsert.mp h with rfl | ⟨hold, -⟩
      · exact .inr (List.mem_singleton_self _)
      · exact .inl hold
  | ready => exact .inl h
  | syncCompleted => exact .inl h
  | pong => exact .inl h
  | other => exact .inl h

/-- What is held after an event was held before it or came with it. -/
theorem RoomTimeline.mem_apply (h : m ∈ (t.apply collation event).messages) :
    m ∈ t.messages ∨ m ∈ event.messages := by
  cases event with
  | ready => exact .inl h
  | history items nextBefore =>
      exact RoomTimeline.mem_received (RoomTimeline.mem_enforceLimit h)
  | message type last =>
      exact RoomTimeline.mem_received (RoomTimeline.mem_enforceLimit h)
  | syncCompleted =>
      left
      unfold RoomTimeline.apply at h
      dsimp only at h
      split at h
      · exact h
      · exact h
  | pong =>
      left
      unfold RoomTimeline.apply at h
      dsimp only at h
      split at h
      · exact h
      · exact h
  | other => exact .inl h

theorem RoomTimeline.mem_applyAll {events : List RoomEvent}
    (h : m ∈ (t.applyAll collation events).messages) :
    m ∈ t.messages ∨ ∃ event ∈ events, m ∈ event.messages := by
  induction events generalizing t with
  | nil => exact .inl h
  | cons event rest ih =>
      rcases ih h with happlied | ⟨event', hevent', hm⟩
      · rcases RoomTimeline.mem_apply happlied with hold | hnew
        · exact .inl hold
        · exact .inr ⟨event, List.mem_cons_self, hnew⟩
      · exact .inr ⟨event', List.mem_cons_of_mem _ hevent', hm⟩

end Holding

/-! ## The order of the items -/

/-- The ids of messages held that were made within one millisecond compare as the server orders
the messages. -/
def SameMillisecondAgrees (collation : Collation) (t : RoomTimeline) : Prop :=
  ∀ a ∈ t.messages, ∀ b ∈ t.messages, dateParse a.createdAt = dateParse b.createdAt →
    ServerBefore a b → collation.compare a.id b.id < 0

/-- The items are strictly sorted by `compareMessages` when the ids are of the server. -/
theorem RoomTimeline.items_pairwise (collation : Collation) {t : RoomTimeline}
    (hids : ∀ m ∈ t.messages, ∃ u : UuidHex, m.id = u.text) :
    (t.items collation).Pairwise fun a b => compareMessages collation a b < 0 := by
  have hsorted : (t.items collation).Pairwise (NotAfter collation) :=
    List.pairwise_insertionSort _ _
  have hnodup : (t.items collation).Pairwise fun a b => a.id ≠ b.id :=
    List.pairwise_map.mp (t.items_ids_nodup collation)
  refine (hsorted.and hnodup).imp_of_mem ?_
  intro a b ha hb hab
  obtain ⟨hle, hne⟩ := hab
  refine lt_of_le_of_ne hle fun hzero => hne ?_
  obtain ⟨u, hu⟩ := hids a (RoomTimeline.mem_items.mp ha)
  obtain ⟨v, hv⟩ := hids b (RoomTimeline.mem_items.mp hb)
  by_cases hparse : dateParse a.createdAt = dateParse b.createdAt
  · rw [compareMessages_of_eq hparse, hu, hv] at hzero
    rw [hu, hv, collation.distinct u v hzero]
  · rw [compareMessages_of_ne hparse] at hzero
    omega

/-- After any events of the server every id is there once, and the items are in the order of the
server if and only if those of one millisecond are. -/
theorem timeline_order (collation : Collation) (limit : MessageLimit) (events : List RoomEvent)
    (hids : FromServer events) :
    (((RoomTimeline.applyAll collation events { maxMessages := limit }).items collation).map
        Message.id).Nodup ∧
      (((RoomTimeline.applyAll collation events { maxMessages := limit }).items
          collation).Pairwise ServerBefore ↔
        SameMillisecondAgrees collation
          (RoomTimeline.applyAll collation events { maxMessages := limit })) := by
  generalize hfinal : RoomTimeline.applyAll collation events { maxMessages := limit } = t
  refine ⟨t.items_ids_nodup collation, ?_⟩
  have hserver : ∀ m ∈ t.messages, ∃ u : UuidHex, m.id = u.text := by
    intro m hm
    rw [← hfinal] at hm
    rcases RoomTimeline.mem_applyAll hm with hnone | ⟨event, hevent, hin⟩
    · exact absurd hnone Table.not_mem_empty
    · exact hids event hevent m hin
  have hdistinct : ∀ a ∈ t.items collation, ∀ b ∈ t.items collation, a ≠ b → a.id ≠ b.id := by
    intro a ha b hb hne hid
    exact hne (Table.eq_of_key (RoomTimeline.mem_items.mp ha) (RoomTimeline.mem_items.mp hb) hid)
  rw [pairwise_iff_agrees (RoomTimeline.items_pairwise collation hserver)
    (fun a b hab hba => absurd (compareMessages_swap.mp hab) (not_lt.mpr hba.le))
    (fun a b => ServerBefore.asymm)
    (fun a ha b hb hne => ServerBefore.total (hdistinct a ha b hb hne))]
  unfold SameMillisecondAgrees
  constructor
  · intro h a ha b hb hparse hab
    rw [← compareMessages_of_eq hparse]
    exact h a (RoomTimeline.mem_items.mpr ha) b (RoomTimeline.mem_items.mpr hb) hab
  · intro h a ha b hb hab
    by_cases hparse : dateParse a.createdAt = dateParse b.createdAt
    · rw [compareMessages_of_eq hparse]
      exact h a (RoomTimeline.mem_items.mp ha) b (RoomTimeline.mem_items.mp hb) hparse hab
    · exact compareMessages_neg_of_ne hparse hab

/-! ## Concrete timelines -/

section Examples

/-- Digits and small letters of the alphabet are collated as their bytes are. -/
def bytewise : Collation where
  compare a b := if a < b then -1 else if b < a then 1 else 0
  swap a b := by
    rcases lt_trichotomy a b with h | rfl | h
    · rw [if_pos h, if_neg h.not_gt, if_pos h]
      decide
    · rw [if_neg (lt_irrefl a), if_neg (lt_irrefl a)]
    · rw [if_neg h.not_gt, if_pos h, if_pos h]
      decide
  trans a b c := by
    have hle : ∀ x y : String,
        (if x < y then (-1 : Int) else if y < x then 1 else 0) ≤ 0 ↔ x ≤ y := by
      intro x y
      rcases lt_trichotomy x y with h | rfl | h
      · rw [if_pos h]
        exact iff_of_true (by decide) h.le
      · rw [if_neg (lt_irrefl x), if_neg (lt_irrefl x)]
        exact iff_of_true le_rfl le_rfl
      · rw [if_neg h.not_gt, if_pos h]
        exact iff_of_false (by decide) (not_le.mpr h)
    rw [hle, hle, hle]
    exact le_trans
  distinct u v h := by
    have hsame : u.text = v.text := by
      rcases lt_trichotomy u.text v.text with hlt | heq | hgt
      · rw [if_pos hlt] at h
        cases h
      · exact heq
      · rw [if_neg hgt.not_gt, if_pos hgt] at h
        cases h
    cases u
    cases v
    cases hsame
    rfl

/-- An id that starts with two digits of the number. -/
def shortId (n : Nat) : UuidHex where
  text := String.ofList (decimalDigit n :: decimalDigit (n / 10) :: List.replicate 30 '0')
  length_eq := by simp
  digits := by
    simp only [String.toList_ofList, List.all_cons, isDigit_decimalDigit, Bool.or_true,
      Bool.true_and]
    decide

/-- A message of the server, made at the microsecond. -/
def stamped (n : Nat) (createdAt : Timestamp) : Message where
  id := (shortId n).text
  roomId := "general"
  sender := "ada"
  content := "hello"
  createdAt := createdAt

theorem fromServer_stamped (stamps : List (Nat × Timestamp)) :
    FromServer (stamps.map fun p => .message .created (stamped p.1 p.2)) := by
  intro event hevent m hm
  obtain ⟨p, -, rfl⟩ := List.mem_map.mp hevent
  rw [List.mem_singleton.mp hm]
  exact ⟨shortId p.1, rfl⟩

/-- Two messages of one millisecond, the later one with the smaller id. -/
def crossedIds : List RoomEvent :=
  [(2, 100), (1, 200)].map fun p => .message .created (stamped p.1 p.2)

/-- The client lists the later message first. -/
theorem not_timeline_order :
    FromServer crossedIds ∧
      ¬ ((RoomTimeline.applyAll bytewise crossedIds { maxMessages := ⟨10, by decide⟩ }).items
        bytewise).Pairwise ServerBefore :=
  ⟨fromServer_stamped _, by decide +kernel⟩

/-- The same two in the order of their ids. -/
def straightIds : List RoomEvent :=
  [(1, 100), (2, 200)].map fun p => .message .created (stamped p.1 p.2)

theorem timeline_order_straight :
    ((RoomTimeline.applyAll bytewise straightIds { maxMessages := ⟨10, by decide⟩ }).items
      bytewise).Pairwise ServerBefore := by
  refine (timeline_order bytewise ⟨10, by decide⟩ straightIds (fromServer_stamped _)).2.mpr ?_
  have hall : ∀ a ∈ (RoomTimeline.applyAll bytewise straightIds
      { maxMessages := ⟨10, by decide⟩ }).messages.rows,
      ∀ b ∈ (RoomTimeline.applyAll bytewise straightIds
        { maxMessages := ⟨10, by decide⟩ }).messages.rows,
        dateParse a.createdAt = dateParse b.createdAt → ServerBefore a b →
          bytewise.compare a.id b.id < 0 := by
    decide +kernel
  exact hall

end Examples

end Client
end ChatEngine
