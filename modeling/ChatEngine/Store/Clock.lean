import ChatEngine.Store.Consistency

/-!
# The store under a clock that does not go back

The calls of the store read the wall clock.  Here the clock is part of the state: a step is a
call whose readings are neither behind an earlier reading nor behind each other.

* `TimedStep` and `TimedReachable`, the runs under such a clock; two readings may be equal;
* `Dated`: no stored message and no stored cursor is dated after the clock.
-/

namespace ChatEngine
namespace Store

open Lib
open Models

/-- A store and the latest reading of its clock. -/
structure Timed where
  db : Database := {}
  clock : Timestamp

/-- One call under a clock that does not go back. -/
structure TimedStep (cfg : Config) (s : Timed) (call : Readings × Command) (s' : Timed) : Prop where
  step : Step cfg s.db call s'.db
  forward : ∀ i, s.clock ≤ call.1.now i
  monotone : ∀ i j, i ≤ j → call.1.now i ≤ call.1.now j
  latest : ∀ i, call.1.now i ≤ s'.clock

/-- The states that calls build from the empty store, whatever its clock showed. -/
def TimedReachable (cfg : Config) : Timed → Prop :=
  Reachable (fun s => s.db = {}) (TimedStep cfg)

section Clock

variable {cfg : Config} {rd : Readings} {cmd : Command} {db db' : Database} {reply : Reply}
variable {s s' : Timed} {call : Readings × Command}

theorem TimedStep.clock_le (h : TimedStep cfg s call s') : s.clock ≤ s'.clock :=
  (h.forward 0).trans (h.latest 0)

/-- The state after a call whose readings are all the same. -/
def Timed.next (cfg : Config) (s : Timed) (call : Readings × Command) : Timed :=
  { db := (exec cfg call.1 call.2 s.db).2, clock := call.1.now 0 }

theorem TimedStep.fixed {t : Timestamp} {n : Nat} (h : s.clock ≤ t) :
    TimedStep cfg s (.fixed t n, cmd) (s.next cfg (.fixed t n, cmd)) :=
  ⟨rfl, fun _ => h, fun _ _ _ => le_refl t, fun _ => le_refl t⟩

/-- No row is dated after the clock. -/
structure Dated (s : Timed) : Prop where
  messages : ∀ m ∈ s.db.messages, m.createdAt ≤ s.clock
  cursors : ∀ c ∈ s.db.readStates, c.messageCreatedAt ≤ s.clock

theorem Dated.start (h : s.db = {}) : Dated s := by
  constructor
  · intro m hm
    rw [h] at hm
    exact absurd hm Table.not_mem_empty
  · intro c hc
    rw [h] at hc
    exact absurd hc Table.not_mem_empty

/-- A message row of a call was there with its date, or is dated by the call. -/
theorem createdAt_origin (h : Tx.Returns (cmd.tx cfg rd) db reply db') {m : MessageRow}
    (hm : m ∈ db'.messages) :
    (∃ r ∈ db.messages, r.createdAt = m.createdAt) ∨ m.createdAt = rd.now 1 := by
  cases message_origin h hm with
  | kept r hr hsame _ => exact .inl ⟨r, hr, hsame.createdAt.symm⟩
  | created args built _ _ hbuild _ hsame _ =>
      right
      rw [hsame.createdAt]
      exact (Message.build_ok hbuild).createdAt

/-- A cursor of a call was there before, or points at a stored message or at the call's time. -/
theorem cursor_origin (h : Tx.Returns (cmd.tx cfg rd) db reply db') {c : ReadStateRow}
    (hc : c ∈ db'.readStates) :
    c ∈ db.readStates ∨ (∃ m ∈ db.messages, c.messageCreatedAt = m.createdAt) ∨
      c.messageCreatedAt = rd.now 0 := by
  by_cases hleft : cmd.LeavesCursors
  · rw [readStates_left h hleft] at hc
    exact .inl hc
  · cases cmd with
    | markRead roomId subject messageId =>
        obtain ⟨mutation, hok, -⟩ := Tx.returns_map.mp h
        obtain ⟨target, htarget, rfl, -⟩ := (markRead_marked hok).effect
        unfold Database.advanceCursor at hc
        split at hc
        · rcases Table.mem_upsert.mp hc with rfl | ⟨hold, -⟩
          · right
            cases target with
            | none => exact .inr rfl
            | some m => exact .inl ⟨m, readTarget_mem htarget, rfl⟩
          · exact .inl hold
        · exact .inl hc
    | clearReadState roomId subject =>
        obtain ⟨removed, hok, -⟩ := Tx.returns_map.mp h
        rw [clearReadState_states hok] at hc
        exact .inl (Table.mem_deleteWhere.mp hc).1
    | deleteRoom roomId actor =>
        obtain ⟨n, hok, -⟩ := Tx.returns_map.mp h
        obtain ⟨-, audited, hsame, rfl⟩ := deleteRoom_ok hok
        have hold : c ∈ audited.readStates := (Table.mem_deleteWhere.mp hc).1
        rw [hsame.readStates] at hold
        exact .inl hold
    | _ => exact absurd trivial hleft

theorem Dated.step (h : Dated s) (hstep : TimedStep cfg s call s') : Dated s' := by
  have hmessage : ∀ m ∈ s.db.messages, m.createdAt ≤ s'.clock := by
    intro m hm
    exact (h.messages m hm).trans hstep.clock_le
  rcases hstep.step.cases with hsame | ⟨reply, hok⟩
  · constructor
    · rw [hsame]
      exact hmessage
    · rw [hsame]
      intro c hc
      exact (h.cursors c hc).trans hstep.clock_le
  · constructor
    · intro m hm
      rcases createdAt_origin hok hm with ⟨r, hr, hdate⟩ | hdate
      · rw [← hdate]
        exact hmessage r hr
      · rw [hdate]
        exact hstep.latest 1
    · intro c hc
      rcases cursor_origin hok hc with hold | ⟨m, hm, hdate⟩ | hdate
      · exact (h.cursors c hold).trans hstep.clock_le
      · rw [hdate]
        exact hmessage m hm
      · rw [hdate]
        exact hstep.latest 0

theorem TimedReachable.dated (h : TimedReachable cfg s) : Dated s :=
  Reachable.invariant (fun _ ht => Dated.start ht) (fun _ _ _ ht hstep => ht.step hstep) h

end Clock

end Store
end ChatEngine
