import Mathlib.Logic.Function.Basic
import ChatEngine.Lib.Run

/-!
# The bounded transport

`BoundedTransport` runs one blocking function at a time on a thread of its own, each with a budget
that its caller and `close` can cancel.

* `AttemptBudget`, with `remaining`, `bind`, `cancel` and `finish`;
* `BoundedTransport.next`: calls of `run` and `close`, what the worker does, callbacks of the loop,
  each section under a lock and each operation of the queue as one step;
* `Slot`, `Owned`, `Accounted`, `Closing` and `Expected`, what every step keeps;
* `BoundedTransport.Answers`, how a call that waits gets the outcome of its item;
* `bounded_transport`, what holds in every reachable state.
-/

namespace ChatEngine
namespace Webhooks

open Lib

/-- A call of `run`, and its work item. -/
abbrev Call := Nat

/-- `AttemptBudget`: whether its deadline has passed, whether it is cancelled, and its socket. -/
structure AttemptBudget where
  expired : Bool := false
  cancelled : Bool := false
  connection : Option Nat := none
  deriving DecidableEq

namespace AttemptBudget

/-- `remaining` does not raise. -/
def remaining (b : AttemptBudget) : Bool := !b.cancelled && !b.expired

/-- `bind`; it raises where there is no budget. -/
def bind (connection : Nat) (b : AttemptBudget) : Bool × AttemptBudget :=
  if b.cancelled || b.expired then (false, b) else (true, { b with connection := some connection })

def cancel (b : AttemptBudget) : AttemptBudget := { b with cancelled := true }

def finish (b : AttemptBudget) : AttemptBudget :=
  { b with cancelled := true, connection := none }

end AttemptBudget

/-- What came of the function of a work item: its result, or `none` where something was raised. -/
structure Produced (ν : Type) where
  owner : Call
  value : Option ν
  deriving DecidableEq

/-- Where the worker thread is in its loop. -/
inductive Worker (ν : Type) where
  | idle
  | taken (work : Call)
  | admitted (work : Call)
  | executing (work : Call)
  | executed (work : Call) (outcome : Produced ν)
  | finishing (work : Call) (outcome : Produced ν)
  | finished (work : Call) (outcome : Produced ν)
  | posting (work : Call) (outcome : Produced ν) (closed : Bool)
  | gone
  deriving DecidableEq

inductive Future (ν : Type) where
  | pending
  | settled (outcome : Produced ν)
  | cancelled
  deriving DecidableEq

/-- A callback for the loop of the application. -/
inductive Post (ν : Type) where
  | finish (work : Call) (outcome : Produced ν)
  | cancel (work : Call)
  deriving DecidableEq

/-- How `run` ends once it has waited. -/
inductive Ending (ν : Type) where
  | own (outcome : Produced ν)
  | timeout
  | cancelled
  deriving DecidableEq

/-- A call of `run` is refused at once, or it waits, then cleans up, and then it has ended. -/
inductive CallState (ν : Type) where
  | refused
  | waiting
  | leaving (ending : Ending ν)
  | ended (ending : Ending ν)
  deriving DecidableEq

/-- A call of `close` that found an active item has yet to cancel its budget and its future. -/
inductive CloseState where
  | locked (work : Call)
  | signalled (work : Call)
  | returned
  deriving DecidableEq

/-- The transport, its threads, and the calls of its methods.  `overfull` says that an item was
put into a full queue, `looping` that the loop of the application is open. -/
structure BoundedTransport (ν : Type) where
  queue : List (Option Call) := []
  active : Option Call := none
  closed : Bool := false
  thread : Bool := false
  workers : List (Worker ν) := []
  budgets : Call → AttemptBudget := fun _ => {}
  futures : Call → Future ν := fun _ => .pending
  calls : Call → Option (CallState ν) := fun _ => none
  made : Nat := 0
  posts : List (Post ν) := []
  closers : List CloseState := []
  overfull : Bool := false
  looping : Bool := true

/-- `starts` is whether the thread starts, where `run` starts it; a function raises or returns. -/
inductive TransportAction (ν : Type) where
  | run (starts : Bool)
  | settle (c : Call)
  | timeout (c : Call)
  | cancel (c : Call)
  | leave (c : Call)
  | deliver
  | closeLoop
  | expire (c : Call)
  | take (i : Nat)
  | check (i : Nat)
  | start (i : Nat)
  | bind (i : Nat) (connection : Nat)
  | execute (i : Nat) (value : Option ν)
  | recheck (i : Nat)
  | finish (i : Nat)
  | release (i : Nat)
  | post (i : Nat)
  | close
  | closeCancel (k : Nat)
  | closePost (k : Nat)

/-- The coroutine `run` and the callbacks go on in the loop of the application. -/
def TransportAction.inLoop {ν : Type} : TransportAction ν → Bool
  | .run _ | .settle _ | .timeout _ | .cancel _ | .leave _ | .deliver => true
  | _ => false

namespace BoundedTransport

variable {ν : Type} (s : BoundedTransport ν)

/-- `put_nowait`, for a queue of one place. -/
def put (item : Option Call) : BoundedTransport ν :=
  if s.queue = [] then { s with queue := [item] } else { s with overfull := true }

def withBudget (c : Call) (f : AttemptBudget → AttemptBudget) : BoundedTransport ν :=
  { s with budgets := Function.update s.budgets c (f (s.budgets c)) }

def withCall (c : Call) (state : CallState ν) : BoundedTransport ν :=
  { s with calls := Function.update s.calls c (some state) }

def withWorker (i : Nat) (w : Worker ν) : BoundedTransport ν :=
  { s with workers := s.workers.set i w }

/-- `_post`; a callback for a loop that is closed is dropped. -/
def post (callback : Post ν) : BoundedTransport ν :=
  if s.looping = true then { s with posts := s.posts ++ [callback] } else s

/-- `Future.cancel`, which does nothing to a future that is done. -/
def cancelFuture (c : Call) : BoundedTransport ν :=
  match s.futures c with
  | .pending => { s with futures := Function.update s.futures c .cancelled }
  | _ => s

/-- `_finish`. -/
def settleFuture (c : Call) (outcome : Produced ν) : BoundedTransport ν :=
  match s.futures c with
  | .pending => { s with futures := Function.update s.futures c (.settled outcome) }
  | _ => s

/-- `run`, up to where it waits. -/
def run (starts : Bool) : BoundedTransport ν :=
  let s' := { s with made := s.made + 1 }
  if s.closed = true ∨ s.active ≠ none then s'.withCall s.made .refused
  else if s.thread = false then
    if starts = true then
      (({ s' with
          active := some s.made, thread := true,
          workers := s.workers ++ [Worker.idle] }).put (some s.made)).withCall s.made .waiting
    else s'.withCall s.made .refused
  else (({ s' with active := some s.made }).put (some s.made)).withCall s.made .waiting

/-- The wait is over since the future is done. -/
def settle (c : Call) : Option (BoundedTransport ν) :=
  match s.futures c with
  | .pending => none
  | .settled outcome => some (s.withCall c (.leaving (.own outcome)))
  | .cancelled => some (s.withCall c (.leaving .cancelled))

/-- A callback runs. -/
def callback : Post ν → BoundedTransport ν
  | .finish c outcome => s.settleFuture c outcome
  | .cancel c => s.cancelFuture c

/-- One step of `_worker`. -/
def work (i : Nat) : TransportAction ν → Worker ν → Option (BoundedTransport ν)
  | .take _, .idle =>
      match s.queue with
      | [] => none
      | some c :: rest => some ({ s with queue := rest }.withWorker i (.taken c))
      | none :: rest => some ({ s with queue := rest }.withWorker i .gone)
  | .check _, .taken c =>
      if (s.budgets c).remaining = true then some (s.withWorker i (.admitted c))
      else some (s.withWorker i (.finishing c ⟨c, none⟩))
  | .start _, .admitted c => some (s.withWorker i (.executing c))
  | .bind _ connection, .executing c =>
      some (s.withBudget c fun b => (b.bind connection).2)
  | .execute _ (some value), .executing c => some (s.withWorker i (.executed c ⟨c, some value⟩))
  | .execute _ none, .executing c => some (s.withWorker i (.finishing c ⟨c, none⟩))
  | .recheck _, .executed c outcome =>
      if (s.budgets c).remaining = true then some (s.withWorker i (.finishing c outcome))
      else some (s.withWorker i (.finishing c ⟨c, none⟩))
  | .finish _, .finishing c outcome =>
      some ((s.withBudget c AttemptBudget.finish).withWorker i (.finished c outcome))
  | .release _, .finished c outcome =>
      some ({ s with active := none }.withWorker i (.posting c outcome s.closed))
  | .post _, .posting c outcome closed =>
      some ((s.post (.finish c outcome)).withWorker i (if closed = true then .gone else .idle))
  | _, _ => none

/-- The section of `close` under the lock. -/
def close : BoundedTransport ν :=
  let s' := { s with
    closed := true
    closers := s.closers ++ [(s.active.map CloseState.locked).getD .returned] }
  if s.thread = true ∧ s.queue = [] then s'.put none else s'

/-- The state after an action, where the action is possible and its loop is open. -/
def act : TransportAction ν → Option (BoundedTransport ν)
  | .run starts => some (s.run starts)
  | .settle c =>
      match s.calls c with
      | some .waiting => s.settle c
      | _ => none
  | .timeout c =>
      match s.calls c, s.futures c with
      | some .waiting, .pending => some (s.withCall c (.leaving .timeout))
      | _, _ => none
  | .cancel c =>
      match s.calls c with
      | some .waiting => some (s.withCall c (.leaving .cancelled))
      | _ => none
  | .leave c =>
      match s.calls c with
      | some (.leaving ending) =>
          some (((s.withBudget c AttemptBudget.cancel).cancelFuture c).withCall c (.ended ending))
      | _ => none
  | .deliver =>
      match s.posts with
      | [] => none
      | post :: rest => some ({ s with posts := rest }.callback post)
  | .closeLoop => some { s with looping := false }
  | .expire c => some (s.withBudget c fun b => { b with expired := true })
  | .close => some s.close
  | .closeCancel k =>
      match s.closers[k]? with
      | some (.locked c) =>
          some { s.withBudget c AttemptBudget.cancel with
            closers := s.closers.set k (.signalled c) }
      | _ => none
  | .closePost k =>
      match s.closers[k]? with
      | some (.signalled c) =>
          some { s.post (.cancel c) with closers := s.closers.set k .returned }
      | _ => none
  | .take i => s.workers[i]?.bind (s.work i (.take i))
  | .check i => s.workers[i]?.bind (s.work i (.check i))
  | .start i => s.workers[i]?.bind (s.work i (.start i))
  | .bind i connection => s.workers[i]?.bind (s.work i (.bind i connection))
  | .execute i value => s.workers[i]?.bind (s.work i (.execute i value))
  | .recheck i => s.workers[i]?.bind (s.work i (.recheck i))
  | .finish i => s.workers[i]?.bind (s.work i (.finish i))
  | .release i => s.workers[i]?.bind (s.work i (.release i))
  | .post i => s.workers[i]?.bind (s.work i (.post i))

/-- Nothing of a closed loop goes on. -/
def next (action : TransportAction ν) : Option (BoundedTransport ν) :=
  if action.inLoop = true ∧ s.looping = false then none else s.act action

end BoundedTransport

/-- The states of every interleaving. -/
def TransportReachable {ν : Type} : BoundedTransport ν → Prop :=
  Reachable (fun s => s = {}) fun s action s' => s.next action = some s'

/-! ## What a step can do -/

section Steps

variable {ν : Type} {s s' : BoundedTransport ν} {i : Nat} {w : Worker ν}

/-- The worker goes on. -/
inductive WorkerStep (s : BoundedTransport ν) (i : Nat) : Worker ν → BoundedTransport ν → Prop
  | take (c : Call) (rest : List (Option Call)) : s.queue = some c :: rest →
      WorkerStep s i .idle ({ s with queue := rest }.withWorker i (.taken c))
  | stop (rest : List (Option Call)) : s.queue = none :: rest →
      WorkerStep s i .idle ({ s with queue := rest }.withWorker i .gone)
  | proceed (c : Call) : (s.budgets c).remaining = true →
      WorkerStep s i (.taken c) (s.withWorker i (.admitted c))
  | refuse (c : Call) : WorkerStep s i (.taken c) (s.withWorker i (.finishing c ⟨c, none⟩))
  | start (c : Call) : WorkerStep s i (.admitted c) (s.withWorker i (.executing c))
  | bind (c : Call) (connection : Nat) :
      WorkerStep s i (.executing c) (s.withBudget c fun b => (b.bind connection).2)
  | returns (c : Call) (value : ν) :
      WorkerStep s i (.executing c) (s.withWorker i (.executed c ⟨c, some value⟩))
  | raises (c : Call) :
      WorkerStep s i (.executing c) (s.withWorker i (.finishing c ⟨c, none⟩))
  | keep (c : Call) (outcome : Produced ν) :
      WorkerStep s i (.executed c outcome) (s.withWorker i (.finishing c outcome))
  | late (c : Call) (outcome : Produced ν) :
      WorkerStep s i (.executed c outcome) (s.withWorker i (.finishing c ⟨c, none⟩))
  | finish (c : Call) (outcome : Produced ν) :
      WorkerStep s i (.finishing c outcome)
        ((s.withBudget c AttemptBudget.finish).withWorker i (.finished c outcome))
  | release (c : Call) (outcome : Produced ν) :
      WorkerStep s i (.finished c outcome)
        ({ s with active := none }.withWorker i (.posting c outcome s.closed))
  | post (c : Call) (outcome : Produced ν) (closed : Bool) :
      WorkerStep s i (.posting c outcome closed)
        ((s.post (.finish c outcome)).withWorker i (if closed = true then .gone else .idle))

theorem work_cases {action : TransportAction ν} (h : s.work i action w = some s') :
    WorkerStep s i w s' := by
  unfold BoundedTransport.work at h
  split at h
  · split at h
    · cases h
    · rename_i c rest hqueue
      obtain rfl := Option.some.inj h
      exact .take c rest hqueue
    · rename_i rest hqueue
      obtain rfl := Option.some.inj h
      exact .stop rest hqueue
  · rename_i c
    split at h
    · rename_i hlive
      obtain rfl := Option.some.inj h
      exact .proceed c hlive
    · obtain rfl := Option.some.inj h
      exact .refuse c
  · rename_i c
    obtain rfl := Option.some.inj h
    exact .start c
  · rename_i connection c
    obtain rfl := Option.some.inj h
    exact .bind c connection
  · rename_i value c
    obtain rfl := Option.some.inj h
    exact .returns c value
  · rename_i c
    obtain rfl := Option.some.inj h
    exact .raises c
  · rename_i c outcome
    split at h
    · obtain rfl := Option.some.inj h
      exact .keep c outcome
    · obtain rfl := Option.some.inj h
      exact .late c outcome
  · rename_i c outcome
    obtain rfl := Option.some.inj h
    exact .finish c outcome
  · rename_i c outcome
    obtain rfl := Option.some.inj h
    exact .release c outcome
  · rename_i c outcome closed
    obtain rfl := Option.some.inj h
    exact .post c outcome closed
  · cases h

/-- One step of the transport. -/
inductive TransportStep (s : BoundedTransport ν) : BoundedTransport ν → Prop
  | refuse : TransportStep s ({ s with made := s.made + 1 }.withCall s.made .refused)
  | begin (workers : List (Worker ν)) : s.closed = false → s.active = none →
      (s.thread = true ∧ workers = s.workers ∨
        s.thread = false ∧ workers = s.workers ++ [Worker.idle]) →
      TransportStep s (({ s with
        made := s.made + 1, active := some s.made, thread := true,
        workers := workers }.put (some s.made)).withCall s.made .waiting)
  | settle (c : Call) (ending : Ending ν) : s.calls c = some .waiting →
      (∀ outcome, ending = .own outcome → s.futures c = .settled outcome) →
      TransportStep s (s.withCall c (.leaving ending))
  | leave (c : Call) (ending : Ending ν) : s.calls c = some (.leaving ending) →
      TransportStep s (((s.withBudget c AttemptBudget.cancel).cancelFuture c).withCall c
        (.ended ending))
  | deliver (post : Post ν) (rest : List (Post ν)) : s.posts = post :: rest →
      TransportStep s ({ s with posts := rest }.callback post)
  | closeLoop : TransportStep s { s with looping := false }
  | expire (c : Call) : TransportStep s (s.withBudget c fun b => { b with expired := true })
  | close : TransportStep s s.close
  | closeCancel (k : Nat) (c : Call) : s.closers[k]? = some (.locked c) →
      TransportStep s
        { s.withBudget c AttemptBudget.cancel with closers := s.closers.set k (.signalled c) }
  | closePost (k : Nat) (c : Call) : s.closers[k]? = some (.signalled c) →
      TransportStep s { s.post (.cancel c) with closers := s.closers.set k .returned }
  | work (i : Nat) (w : Worker ν) (s' : BoundedTransport ν) : s.workers[i]? = some w →
      WorkerStep s i w s' → TransportStep s s'

theorem act_cases {action : TransportAction ν} (h : s.act action = some s') :
    TransportStep s s' := by
  have hwork : ∀ i, s.workers[i]?.bind (s.work i action) = some s' → TransportStep s s' := by
    intro i hi
    obtain ⟨w, hw, hstep⟩ := Option.bind_eq_some_iff.mp hi
    exact .work i w s' hw (work_cases hstep)
  unfold BoundedTransport.act at h
  cases action with
  | run starts =>
      obtain rfl := Option.some.inj h
      unfold BoundedTransport.run
      dsimp only
      split
      · exact .refuse
      · rename_i hopen
        rw [not_or, Bool.not_eq_true, not_not] at hopen
        split
        · rename_i hthread
          split
          · exact .begin _ hopen.1 hopen.2 (.inr ⟨hthread, rfl⟩)
          · exact .refuse
        · rename_i hthread
          have htrue : s.thread = true := (Bool.not_eq_false _).mp hthread
          have hbegin := TransportStep.begin s.workers hopen.1 hopen.2 (.inl ⟨htrue, rfl⟩)
          rw [← htrue] at hbegin
          exact hbegin
  | settle c =>
      dsimp only at h
      split at h
      · rename_i hwaiting
        unfold BoundedTransport.settle at h
        split at h
        · cases h
        · rename_i outcome hfuture
          obtain rfl := Option.some.inj h
          refine .settle c _ hwaiting ?_
          intro outcome' heq
          cases heq
          exact hfuture
        · obtain rfl := Option.some.inj h
          exact .settle c _ hwaiting nofun
      · cases h
  | timeout c =>
      dsimp only at h
      split at h
      · rename_i hwaiting _
        obtain rfl := Option.some.inj h
        exact .settle c _ hwaiting nofun
      · cases h
  | cancel c =>
      dsimp only at h
      split at h
      · rename_i hwaiting
        obtain rfl := Option.some.inj h
        exact .settle c _ hwaiting nofun
      · cases h
  | leave c =>
      dsimp only at h
      split at h
      · rename_i ending hleaving
        obtain rfl := Option.some.inj h
        exact .leave c ending hleaving
      · cases h
  | deliver =>
      dsimp only at h
      split at h
      · cases h
      · rename_i post rest hposts
        obtain rfl := Option.some.inj h
        exact .deliver post rest hposts
  | closeLoop =>
      obtain rfl := Option.some.inj h
      exact .closeLoop
  | expire c =>
      obtain rfl := Option.some.inj h
      exact .expire c
  | close =>
      obtain rfl := Option.some.inj h
      exact .close
  | closeCancel k =>
      dsimp only at h
      split at h
      · rename_i c hlocked
        obtain rfl := Option.some.inj h
        exact .closeCancel k c hlocked
      · cases h
  | closePost k =>
      dsimp only at h
      split at h
      · rename_i c hsignalled
        obtain rfl := Option.some.inj h
        exact .closePost k c hsignalled
      · cases h
  | take i => exact hwork i h
  | check i => exact hwork i h
  | start i => exact hwork i h
  | bind i connection => exact hwork i h
  | execute i value => exact hwork i h
  | recheck i => exact hwork i h
  | finish i => exact hwork i h
  | release i => exact hwork i h
  | post i => exact hwork i h

theorem next_act {action : TransportAction ν} (h : s.next action = some s') :
    s.act action = some s' := by
  unfold BoundedTransport.next at h
  split at h
  · cases h
  · exact h

theorem next_cases {action : TransportAction ν} (h : s.next action = some s') :
    TransportStep s s' :=
  act_cases (next_act h)

/-- Every action is possible that the open loop admits. -/
theorem next_of_looping {action : TransportAction ν} (h : s.looping = true) :
    s.next action = s.act action := by
  unfold BoundedTransport.next
  rw [if_neg]
  rintro ⟨_, hclosed⟩
  exact Bool.false_ne_true (hclosed.symm.trans h)

end Steps

/-! ## The slot -/

section Slot

variable {ν : Type} {s s' : BoundedTransport ν}

/-- The item that the worker has taken and not yet released. -/
def Worker.held : Worker ν → List Call
  | .taken c | .admitted c | .executing c | .executed c _ | .finishing c _ | .finished c _ => [c]
  | .idle | .posting .. | .gone => []

/-- The items that are queued or with the worker. -/
def BoundedTransport.items (s : BoundedTransport ν) : List Call :=
  s.queue.filterMap id ++ s.workers.flatMap Worker.held

/-- The active item is the only one, in the queue or with the only worker. -/
structure Slot (queue : List (Option Call)) (active : Option Call) (closed thread : Bool)
    (workers : List (Worker ν)) (overfull : Bool) : Prop where
  located : queue.filterMap id ++ workers.flatMap Worker.held = active.toList
  single : queue.length ≤ 1
  sentinel : none ∈ queue → closed = true
  alone : workers.length ≤ 1
  unstarted : thread = false → workers = []
  fits : overfull = false

namespace Slot

variable {queue rest : List (Option Call)} {active : Option Call} {closed thread : Bool}
  {workers : List (Worker ν)} {overfull : Bool} {i : Nat} {w w' : Worker ν}

theorem worker (h : Slot queue active closed thread workers overfull)
    (hw : workers[i]? = some w) : i = 0 ∧ workers = [w] := by
  obtain ⟨hi, hget⟩ := List.getElem?_eq_some_iff.mp hw
  have hone : workers.length = 1 := by
    have := h.alone
    omega
  obtain ⟨only, rfl⟩ := List.length_eq_one_iff.mp hone
  have hzero : i = 0 := by simpa using hi
  subst hzero
  exact ⟨rfl, congrArg (· :: []) hget⟩

/-- What the worker holds is active. -/
theorem holds {c : Call} (h : Slot queue active closed thread workers overfull)
    (hw : workers[i]? = some w) (hc : c ∈ w.held) : active = some c := by
  have hmem : c ∈ active.toList := by
    rw [← h.located]
    exact List.mem_append_right _ (List.mem_flatMap.mpr ⟨w, List.mem_of_getElem? hw, hc⟩)
  exact Option.mem_toList.mp hmem

/-- The worker goes on with what it holds. -/
theorem goes_on (h : Slot queue active closed thread workers overfull)
    (hw : workers[i]? = some w) (hheld : w'.held = w.held) :
    Slot queue active closed thread (workers.set i w') overfull := by
  obtain ⟨rfl, rfl⟩ := h.worker hw
  exact
    { h with
      located := by
        have hlocated := h.located
        simpa [hheld] using hlocated
      alone := by simp
      unstarted := fun hthread => by simpa using h.unstarted hthread }

/-- An idle worker takes what is in the queue. -/
theorem takes {item : Option Call} (h : Slot (item :: rest) active closed thread workers overfull)
    (hw : workers[i]? = some w) (hidle : w.held = []) (hheld : w'.held = item.toList) :
    Slot rest active closed thread (workers.set i w') overfull := by
  obtain ⟨rfl, rfl⟩ := h.worker hw
  have hrest : rest = [] := by
    have hsingle := h.single
    rw [List.length_cons] at hsingle
    exact List.length_eq_zero_iff.mp (by omega)
  subst hrest
  exact
    { located := by
        have hlocated := h.located
        cases item <;> simpa [hidle, hheld] using hlocated
      single := Nat.zero_le _
      sentinel := fun hmem => absurd hmem List.not_mem_nil
      alone := by simp
      unstarted := fun hthread => by simpa using h.unstarted hthread
      fits := h.fits }

/-- A closed or busy transport apart, the queue is empty and the worker holds nothing. -/
theorem free (h : Slot queue none false thread workers overfull) :
    queue = [] ∧ workers.flatMap Worker.held = [] := by
  obtain ⟨hqueue, hworkers⟩ := List.append_eq_nil_iff.mp h.located
  refine ⟨?_, hworkers⟩
  cases queue with
  | nil => rfl
  | cons item rest =>
      cases item with
      | none => exact absurd (h.sentinel List.mem_cons_self) Bool.false_ne_true
      | some c => simp at hqueue

end Slot

theorem BoundedTransport.put_of_empty {item : Option Call} (h : s.queue = []) :
    s.put item = { s with queue := [item] } :=
  if_pos h

theorem BoundedTransport.post_eq (s : BoundedTransport ν) (callback : Post ν) :
    ∃ posts, s.post callback = { s with posts := posts } ∧
      (∀ old ∈ posts, old ∈ s.posts ∨ old = callback) ∧ (∀ old ∈ s.posts, old ∈ posts) ∧
      (s.looping = true → callback ∈ posts) := by
  unfold BoundedTransport.post
  split
  · refine ⟨_, rfl, ?_, ?_, ?_⟩
    · intro old hold
      exact (List.mem_append.mp hold).imp_right List.mem_singleton.mp
    · intro old hold
      exact List.mem_append_left _ hold
    · intro _
      exact List.mem_append_right _ (List.mem_singleton_self callback)
  · rename_i hclosed
    exact ⟨s.posts, rfl, fun _ hold => .inl hold, fun _ hold => hold,
      fun hlooping => absurd hlooping hclosed⟩

theorem BoundedTransport.cancelFuture_eq (s : BoundedTransport ν) (c : Call) :
    ∃ futures, s.cancelFuture c = { s with futures := futures } ∧
      (∀ d outcome, futures d = .settled outcome → s.futures d = .settled outcome) ∧
      ∀ d, futures d = .pending → s.futures d = .pending := by
  unfold BoundedTransport.cancelFuture
  split
  · refine ⟨_, rfl, ?_, ?_⟩
    · intro d outcome hd
      by_cases hdc : d = c
      · subst hdc
        rw [Function.update_self] at hd
        cases hd
      · rwa [Function.update_of_ne hdc] at hd
    · intro d hd
      by_cases hdc : d = c
      · subst hdc
        rw [Function.update_self] at hd
        cases hd
      · rwa [Function.update_of_ne hdc] at hd
  · exact ⟨s.futures, rfl, fun _ _ hd => hd, fun _ hd => hd⟩

theorem BoundedTransport.settleFuture_eq (s : BoundedTransport ν) (c : Call)
    (produced : Produced ν) :
    ∃ futures, s.settleFuture c produced = { s with futures := futures } ∧
      (∀ d outcome, futures d = .settled outcome →
        s.futures d = .settled outcome ∨ d = c ∧ outcome = produced) ∧
      ∀ d, futures d = .pending → s.futures d = .pending ∧ d ≠ c := by
  unfold BoundedTransport.settleFuture
  split
  · refine ⟨_, rfl, ?_, ?_⟩
    · intro d outcome hd
      by_cases hdc : d = c
      · subst hdc
        rw [Function.update_self] at hd
        cases hd
        exact .inr ⟨rfl, rfl⟩
      · rw [Function.update_of_ne hdc] at hd
        exact .inl hd
    · intro d hd
      by_cases hdc : d = c
      · subst hdc
        rw [Function.update_self] at hd
        cases hd
      · rw [Function.update_of_ne hdc] at hd
        exact ⟨hd, hdc⟩
  · rename_i hdone
    refine ⟨s.futures, rfl, fun _ _ hd => .inl hd, ?_⟩
    intro d hd
    refine ⟨hd, ?_⟩
    rintro rfl
    exact hdone hd

theorem BoundedTransport.callback_eq (s : BoundedTransport ν) (post : Post ν) :
    ∃ futures, s.callback post = { s with futures := futures } ∧
      (∀ d outcome, futures d = .settled outcome →
        s.futures d = .settled outcome ∨ post = .finish d outcome) ∧
      ∀ d, futures d = .pending →
        s.futures d = .pending ∧ ∀ outcome, post ≠ .finish d outcome := by
  cases post with
  | finish c produced =>
      obtain ⟨futures, hfutures, hsettled, hpending⟩ := s.settleFuture_eq c produced
      refine ⟨futures, hfutures, ?_, ?_⟩
      · intro d outcome hd
        rcases hsettled d outcome hd with hold | ⟨rfl, rfl⟩
        · exact .inl hold
        · exact .inr rfl
      · intro d hd
        obtain ⟨hold, hne⟩ := hpending d hd
        refine ⟨hold, ?_⟩
        intro outcome heq
        injection heq with hclash
        exact hne hclash.symm
  | cancel c =>
      obtain ⟨futures, hfutures, hsettled, hpending⟩ := s.cancelFuture_eq c
      exact ⟨futures, hfutures, fun d outcome hd => .inl (hsettled d outcome hd),
        fun d hd => ⟨hpending d hd, nofun⟩⟩

/-- The slot of a state. -/
abbrev BoundedTransport.HasSlot (s : BoundedTransport ν) : Prop :=
  Slot s.queue s.active s.closed s.thread s.workers s.overfull

theorem WorkerStep.slot {i : Nat} {w : Worker ν} (hstep : WorkerStep s i w s')
    (hw : s.workers[i]? = some w) (h : s.HasSlot) : s'.HasSlot := by
  cases hstep with
  | take c rest hqueue =>
      unfold BoundedTransport.HasSlot at h
      rw [hqueue] at h
      exact h.takes hw rfl rfl
  | stop rest hqueue =>
      unfold BoundedTransport.HasSlot at h
      rw [hqueue] at h
      exact h.takes hw rfl rfl
  | proceed c _ => exact h.goes_on hw rfl
  | refuse c => exact h.goes_on hw rfl
  | start c => exact h.goes_on hw rfl
  | bind c connection => exact h
  | returns c value => exact h.goes_on hw rfl
  | raises c => exact h.goes_on hw rfl
  | keep c outcome => exact h.goes_on hw rfl
  | late c outcome => exact h.goes_on hw rfl
  | finish c outcome => exact h.goes_on hw rfl
  | release c outcome =>
      obtain ⟨rfl, hworkers⟩ := h.worker hw
      have hlocated := h.located
      rw [hworkers] at hlocated
      have hqueue : s.queue.filterMap id = [] := by
        have hlength := congrArg List.length hlocated
        have hactive : s.active.toList.length ≤ 1 := by
          cases s.active <;> simp
        have hheld : ([Worker.finished c outcome].flatMap Worker.held).length = 1 := rfl
        rw [List.length_append, hheld] at hlength
        exact List.length_eq_zero_iff.mp (by omega)
      show Slot s.queue none s.closed s.thread (s.workers.set 0 (.posting c outcome s.closed))
        s.overfull
      rw [hworkers]
      exact
        { located := by
            show s.queue.filterMap id ++ [] = []
            rw [hqueue]
            rfl
          single := h.single
          sentinel := h.sentinel
          alone := Nat.le_refl _
          unstarted := fun hthread => by
            have hnone := h.unstarted hthread
            rw [hworkers] at hnone
            cases hnone
          fits := h.fits }
  | post c outcome closed =>
      obtain ⟨posts, hposts, _⟩ := s.post_eq (.finish c outcome)
      rw [hposts]
      refine Slot.goes_on (w := .posting c outcome closed) h hw ?_
      cases closed <;> rfl

theorem TransportStep.slot (hstep : TransportStep s s') (h : s.HasSlot) : s'.HasSlot := by
  cases hstep with
  | refuse => exact h
  | begin workers hopen hactive hthread =>
      unfold BoundedTransport.HasSlot at h
      rw [hopen, hactive] at h
      obtain ⟨hqueue, hheld⟩ := h.free
      rw [BoundedTransport.put_of_empty (by exact hqueue)]
      have hworkers : workers.flatMap Worker.held = [] ∧ workers.length ≤ 1 := by
        rcases hthread with ⟨_, rfl⟩ | ⟨hstopped, rfl⟩
        · exact ⟨hheld, h.alone⟩
        · rw [h.unstarted hstopped]
          exact ⟨rfl, Nat.le_refl _⟩
      show Slot [some s.made] (some s.made) s.closed true workers s.overfull
      exact
        { located := by simp [hworkers.1]
          single := Nat.le_refl _
          sentinel := fun hmem => by simp at hmem
          alone := hworkers.2
          unstarted := nofun
          fits := h.fits }
  | settle c ending => exact h
  | leave c ending =>
      obtain ⟨futures, hfutures, _, _⟩ :=
        (s.withBudget c AttemptBudget.cancel).cancelFuture_eq c
      rw [hfutures]
      exact h
  | deliver post rest _ =>
      obtain ⟨futures, hfutures, _, _⟩ := { s with posts := rest }.callback_eq post
      rw [hfutures]
      exact h
  | closeLoop => exact h
  | expire c => exact h
  | close =>
      unfold BoundedTransport.close
      dsimp only
      split
      · rename_i hfree
        rw [BoundedTransport.put_of_empty (by exact hfree.2)]
        have hlocated := h.located
        rw [hfree.2] at hlocated
        exact
          { located := hlocated
            single := Nat.le_refl _
            sentinel := fun _ => rfl
            alone := h.alone
            unstarted := h.unstarted
            fits := h.fits }
      · exact { h with sentinel := fun _ => rfl }
  | closeCancel k c _ => exact h
  | closePost k c _ =>
      obtain ⟨posts, hposts, _⟩ := s.post_eq (.cancel c)
      rw [hposts]
      exact h
  | work i w _ hw hwork => exact hwork.slot hw h

end Slot

/-! ## What comes of an item -/

section Owners

variable {ν : Type} {s s' : BoundedTransport ν}

/-- What a worker brings back is of the item it holds. -/
def Worker.Owned : Worker ν → Prop
  | .executed c outcome | .finishing c outcome | .finished c outcome | .posting c outcome _ =>
      outcome.owner = c
  | .idle | .taken _ | .admitted _ | .executing _ | .gone => True

/-- Whatever a worker, a callback, a future or a call of `run` has is of its own item. -/
structure Owned (workers : List (Worker ν)) (posts : List (Post ν)) (futures : Call → Future ν)
    (calls : Call → Option (CallState ν)) : Prop where
  workers : ∀ w ∈ workers, w.Owned
  posts : ∀ c outcome, .finish c outcome ∈ posts → outcome.owner = c
  futures : ∀ c outcome, futures c = .settled outcome → outcome.owner = c
  leaving : ∀ c outcome, calls c = some (.leaving (.own outcome)) → outcome.owner = c
  ended : ∀ c outcome, calls c = some (.ended (.own outcome)) → outcome.owner = c

abbrev BoundedTransport.IsOwned (s : BoundedTransport ν) : Prop :=
  Owned s.workers s.posts s.futures s.calls

/-- One worker goes on, with something of its own. -/
theorem Owned.set {workers : List (Worker ν)} {posts : List (Post ν)}
    {futures : Call → Future ν} {calls : Call → Option (CallState ν)} {i : Nat} {w : Worker ν}
    (h : Owned workers posts futures calls) (hw : w.Owned) :
    Owned (workers.set i w) posts futures calls where
  workers w' hmem := by
    rcases List.mem_or_eq_of_mem_set hmem with hold | rfl
    · exact h.workers w' hold
    · exact hw
  posts := h.posts
  futures := h.futures
  leaving := h.leaving
  ended := h.ended

/-- A call moves on, with something of its own. -/
theorem Owned.call {workers : List (Worker ν)} {posts : List (Post ν)}
    {futures : Call → Future ν} {calls : Call → Option (CallState ν)} {c : Call}
    {state : CallState ν} (h : Owned workers posts futures calls)
    (hstate : ∀ outcome, state = .leaving (.own outcome) ∨ state = .ended (.own outcome) →
      outcome.owner = c) :
    Owned workers posts futures (Function.update calls c (some state)) where
  workers := h.workers
  posts := h.posts
  futures := h.futures
  leaving d outcome hd := by
    by_cases hdc : d = c
    · subst hdc
      rw [Function.update_self] at hd
      exact hstate outcome (.inl (Option.some.inj hd))
    · rw [Function.update_of_ne hdc] at hd
      exact h.leaving d outcome hd
  ended d outcome hd := by
    by_cases hdc : d = c
    · subst hdc
      rw [Function.update_self] at hd
      exact hstate outcome (.inr (Option.some.inj hd))
    · rw [Function.update_of_ne hdc] at hd
      exact h.ended d outcome hd

theorem WorkerStep.owned {i : Nat} {w : Worker ν} (hstep : WorkerStep s i w s')
    (hw : s.workers[i]? = some w) (h : s.IsOwned) : s'.IsOwned := by
  have hown : w.Owned := h.workers w (List.mem_of_getElem? hw)
  cases hstep with
  | take c rest _ => exact h.set trivial
  | stop rest _ => exact h.set trivial
  | proceed c _ => exact h.set trivial
  | refuse c => exact h.set rfl
  | start c => exact h.set trivial
  | bind c connection => exact h
  | returns c value => exact h.set rfl
  | raises c => exact h.set rfl
  | keep c outcome => exact h.set hown
  | late c outcome => exact h.set rfl
  | finish c outcome => exact h.set hown
  | release c outcome => exact h.set hown
  | post c outcome closed =>
      obtain ⟨posts, hposts, hnew, _⟩ := s.post_eq (.finish c outcome)
      rw [hposts]
      have hposted : Owned s.workers posts s.futures s.calls :=
        { h with
          posts := by
            intro d produced hmem
            rcases hnew _ hmem with hold | heq
            · exact h.posts d produced hold
            · cases heq
              exact hown }
      exact hposted.set (by cases closed <;> trivial)

theorem TransportStep.owned (hstep : TransportStep s s') (h : s.IsOwned) : s'.IsOwned := by
  cases hstep with
  | refuse =>
      refine h.call ?_
      rintro outcome (hstate | hstate) <;> cases hstate
  | begin workers _ _ hthread =>
      have hworkers : Owned workers s.posts s.futures s.calls :=
        { h with
          workers := by
            rcases hthread with ⟨_, rfl⟩ | ⟨_, rfl⟩
            · exact h.workers
            · intro w hmem
              rcases List.mem_append.mp hmem with hold | hnew
              · exact h.workers w hold
              · cases List.mem_singleton.mp hnew
                trivial }
      have hwaiting : Owned workers s.posts s.futures
          (Function.update s.calls s.made (some .waiting)) := by
        refine hworkers.call ?_
        rintro outcome (hstate | hstate) <;> cases hstate
      unfold BoundedTransport.put
      split
      · exact hwaiting
      · exact hwaiting
  | settle c ending _ hending =>
      refine h.call ?_
      intro outcome hstate
      rcases hstate with hstate | hstate
      · exact h.futures c outcome (hending outcome (by injection hstate))
      · cases hstate
  | leave c ending hleaving =>
      obtain ⟨futures, hfutures, hsettled, _⟩ :=
        (s.withBudget c AttemptBudget.cancel).cancelFuture_eq c
      rw [hfutures]
      have hkept : Owned s.workers s.posts futures s.calls :=
        { h with futures := fun d outcome hd => h.futures d outcome (hsettled d outcome hd) }
      refine hkept.call ?_
      intro outcome hstate
      rcases hstate with hstate | hstate
      · cases hstate
      · have hown : ending = .own outcome := by injection hstate
        exact h.leaving c outcome (hown ▸ hleaving)
  | deliver post rest hposts =>
      obtain ⟨futures, hfutures, hsettled, _⟩ := { s with posts := rest }.callback_eq post
      rw [hfutures]
      exact
        { h with
          posts := fun d outcome hmem =>
            h.posts d outcome (hposts ▸ List.mem_cons_of_mem post hmem)
          futures := by
            intro d outcome hd
            rcases hsettled d outcome hd with hold | rfl
            · exact h.futures d outcome hold
            · exact h.posts d outcome (hposts ▸ List.mem_cons_self) }
  | closeLoop => exact h
  | expire c => exact h
  | close =>
      unfold BoundedTransport.close
      dsimp only
      split
      · unfold BoundedTransport.put
        split
        · exact h
        · exact h
      · exact h
  | closeCancel k c _ => exact h
  | closePost k c _ =>
      obtain ⟨posts, hposts, hnew, _⟩ := s.post_eq (.cancel c)
      rw [hposts]
      refine { h with posts := ?_ }
      intro d outcome hmem
      rcases hnew _ hmem with hold | heq
      · exact h.posts d outcome hold
      · cases heq
  | work i w _ hw hwork => exact hwork.owned hw h

end Owners

/-! ## Calls that have ended -/

section Ended

variable {ν : Type} {s s' : BoundedTransport ν}

/-- What is active is of a call that is under way, or that has ended and cancelled it. -/
structure Accounted (active : Option Call) (calls : Call → Option (CallState ν))
    (budgets : Call → AttemptBudget) (made : Nat) : Prop where
  begun : ∀ c state, calls c = some state → c < made
  accepted : ∀ c, active = some c → ∃ state, calls c = some state ∧ state ≠ .refused
  ended : ∀ c ending, calls c = some (.ended ending) → (budgets c).cancelled = true

abbrev BoundedTransport.IsAccounted (s : BoundedTransport ν) : Prop :=
  Accounted s.active s.calls s.budgets s.made

/-- A budget stays cancelled. -/
def KeepsCancelled (budgets budgets' : Call → AttemptBudget) : Prop :=
  ∀ c, (budgets c).cancelled = true → (budgets' c).cancelled = true

theorem keepsCancelled_update {budgets : Call → AttemptBudget} (c : Call)
    {f : AttemptBudget → AttemptBudget} (hf : ∀ b, b.cancelled = true → (f b).cancelled = true) :
    KeepsCancelled budgets (Function.update budgets c (f (budgets c))) := by
  intro d hd
  by_cases hdc : d = c
  · subst hdc
    rw [Function.update_self]
    exact hf _ hd
  · rwa [Function.update_of_ne hdc]

theorem AttemptBudget.bind_cancelled (b : AttemptBudget) (connection : Nat) :
    (b.bind connection).2.cancelled = b.cancelled := by
  unfold AttemptBudget.bind
  split <;> rfl

variable {active : Option Call} {calls : Call → Option (CallState ν)}
  {budgets budgets' : Call → AttemptBudget} {made : Nat}

theorem Accounted.budget (h : Accounted active calls budgets made)
    (hkeeps : KeepsCancelled budgets budgets') : Accounted active calls budgets' made :=
  { h with ended := fun c ending hc => hkeeps c (h.ended c ending hc) }

/-- A call that was made moves on. -/
theorem Accounted.call {c : Call} {state : CallState ν} (h : Accounted active calls budgets made)
    (hmade : c < made) (haccepted : state ≠ .refused)
    (hended : ∀ ending, state = .ended ending → (budgets c).cancelled = true) :
    Accounted active (Function.update calls c (some state)) budgets made where
  begun d old hd := by
    by_cases hdc : d = c
    · rwa [hdc]
    · rw [Function.update_of_ne hdc] at hd
      exact h.begun d old hd
  accepted d hd := by
    by_cases hdc : d = c
    · subst hdc
      exact ⟨state, Function.update_self .., haccepted⟩
    · rw [Function.update_of_ne hdc]
      exact h.accepted d hd
  ended d ending hd := by
    by_cases hdc : d = c
    · subst hdc
      rw [Function.update_self] at hd
      exact hended ending (Option.some.inj hd)
    · rw [Function.update_of_ne hdc] at hd
      exact h.ended d ending hd

theorem WorkerStep.accounted {i : Nat} {w : Worker ν} (hstep : WorkerStep s i w s')
    (h : s.IsAccounted) : s'.IsAccounted := by
  cases hstep with
  | take c rest _ => exact h
  | stop rest _ => exact h
  | proceed c _ => exact h
  | refuse c => exact h
  | start c => exact h
  | bind c connection =>
      exact h.budget (keepsCancelled_update c fun b hb => (b.bind_cancelled connection).trans hb)
  | returns c value => exact h
  | raises c => exact h
  | keep c outcome => exact h
  | late c outcome => exact h
  | finish c outcome => exact h.budget (keepsCancelled_update c fun _ _ => rfl)
  | release c outcome => exact { h with accepted := nofun }
  | post c outcome closed =>
      obtain ⟨posts, hposts, _⟩ := s.post_eq (.finish c outcome)
      rw [hposts]
      exact h

/-- A call is made. -/
theorem Accounted.make {state : CallState ν} {active' : Option Call}
    (h : Accounted active calls budgets made)
    (hactive : ∀ c, active' = some c → active = some c ∨ c = made ∧ state ≠ .refused)
    (hstate : ∀ ending, state ≠ .ended ending) :
    Accounted active' (Function.update calls made (some state)) budgets (made + 1) where
  begun d old hd := by
    by_cases hdc : d = made
    · exact hdc ▸ Nat.lt_succ_self _
    · rw [Function.update_of_ne hdc] at hd
      exact Nat.lt_succ_of_lt (h.begun d old hd)
  accepted d hd := by
    rcases hactive d hd with hold | ⟨rfl, hnew⟩
    · obtain ⟨old, hcall, hold⟩ := h.accepted d hold
      have hne : d ≠ made := Nat.ne_of_lt (h.begun d old hcall)
      exact ⟨old, (Function.update_of_ne hne ..).trans hcall, hold⟩
    · exact ⟨state, Function.update_self .., hnew⟩
  ended d ending hd := by
    by_cases hdc : d = made
    · subst hdc
      rw [Function.update_self] at hd
      exact absurd (Option.some.inj hd) (hstate ending)
    · rw [Function.update_of_ne hdc] at hd
      exact h.ended d ending hd

theorem TransportStep.accounted (hstep : TransportStep s s') (h : s.IsAccounted) :
    s'.IsAccounted := by
  cases hstep with
  | refuse => exact h.make (fun c hc => .inl hc) nofun
  | begin workers _ _ _ =>
      have hmade : Accounted (some s.made) (Function.update s.calls s.made (some .waiting))
          s.budgets (s.made + 1) :=
        h.make (fun c hc => .inr ⟨(Option.some.inj hc).symm, nofun⟩) nofun
      unfold BoundedTransport.put
      split
      · exact hmade
      · exact hmade
  | settle c ending hwaiting _ => exact h.call (h.begun c _ hwaiting) nofun nofun
  | leave c ending hleaving =>
      obtain ⟨futures, hfutures, _, _⟩ :=
        (s.withBudget c AttemptBudget.cancel).cancelFuture_eq c
      rw [hfutures]
      have hbudget := h.budget (keepsCancelled_update c (f := AttemptBudget.cancel) fun _ _ => rfl)
      refine hbudget.call (h.begun c _ hleaving) nofun ?_
      intro _ _
      rw [Function.update_self]
      rfl
  | deliver post rest _ =>
      obtain ⟨futures, hfutures, _, _⟩ := { s with posts := rest }.callback_eq post
      rw [hfutures]
      exact h
  | closeLoop => exact h
  | expire c =>
      exact h.budget
        (keepsCancelled_update c (f := fun b => { b with expired := true }) fun _ hb => hb)
  | close =>
      unfold BoundedTransport.close
      dsimp only
      split
      · unfold BoundedTransport.put
        split
        · exact h
        · exact h
      · exact h
  | closeCancel k c _ => exact h.budget (keepsCancelled_update c fun _ _ => rfl)
  | closePost k c _ =>
      obtain ⟨posts, hposts, _⟩ := s.post_eq (.cancel c)
      rw [hposts]
      exact h
  | work i w _ hw hwork => exact hwork.accounted h

end Ended

/-! ## After close -/

section Closing

variable {ν : Type} {s s' : BoundedTransport ν}

/-- A closed transport accepts no item, so a call of `close` that has yet to cancel its item is the
only thing that keeps an active budget alive. -/
structure Closing (active : Option Call) (closed : Bool) (budgets : Call → AttemptBudget)
    (closers : List CloseState) : Prop where
  flagged : closers ≠ [] → closed = true
  locked : ∀ c, .locked c ∈ closers → active = none ∨ active = some c
  quiet : ∀ closer ∈ closers, (∀ c, closer ≠ .locked c) →
    ∀ c, active = some c → (budgets c).cancelled = true

abbrev BoundedTransport.IsClosing (s : BoundedTransport ν) : Prop :=
  Closing s.active s.closed s.budgets s.closers

variable {active : Option Call} {closed : Bool} {budgets budgets' : Call → AttemptBudget}
  {closers : List CloseState}

theorem Closing.budget (h : Closing active closed budgets closers)
    (hkeeps : KeepsCancelled budgets budgets') : Closing active closed budgets' closers :=
  { h with quiet := fun closer hmem hnew c hc => hkeeps c (h.quiet closer hmem hnew c hc) }

/-- A call of `close` goes on, once nothing that is active has a live budget. -/
theorem Closing.set {k : Nat} {closer : CloseState} (h : Closing active closed budgets closers)
    (hk : k < closers.length) (hnew : ∀ c, closer ≠ .locked c)
    (hquiet : ∀ c, active = some c → (budgets c).cancelled = true) :
    Closing active closed budgets (closers.set k closer) where
  flagged _ := h.flagged (List.ne_nil_of_length_pos (by omega))
  locked c hmem := by
    rcases List.mem_or_eq_of_mem_set hmem with hold | hclash
    · exact h.locked c hold
    · exact absurd hclash.symm (hnew c)
  quiet _ _ _ c hc := hquiet c hc

theorem WorkerStep.closing {i : Nat} {w : Worker ν} (hstep : WorkerStep s i w s')
    (h : s.IsClosing) : s'.IsClosing := by
  cases hstep with
  | take c rest _ => exact h
  | stop rest _ => exact h
  | proceed c _ => exact h
  | refuse c => exact h
  | start c => exact h
  | bind c connection =>
      exact h.budget (keepsCancelled_update c fun b hb => (b.bind_cancelled connection).trans hb)
  | returns c value => exact h
  | raises c => exact h
  | keep c outcome => exact h
  | late c outcome => exact h
  | finish c outcome => exact h.budget (keepsCancelled_update c fun _ _ => rfl)
  | release c outcome =>
      exact
        { flagged := h.flagged
          locked := fun _ _ => .inl rfl
          quiet := nofun }
  | post c outcome closed =>
      obtain ⟨posts, hposts, _⟩ := s.post_eq (.finish c outcome)
      rw [hposts]
      exact h

theorem BoundedTransport.close_closing (h : s.IsClosing) : s.close.IsClosing := by
  have hclosed : Closing s.active true s.budgets
      (s.closers ++ [(s.active.map CloseState.locked).getD .returned]) := by
    refine ⟨fun _ => rfl, ?_, ?_⟩
    · intro c hmem
      rcases List.mem_append.mp hmem with hold | hnew
      · exact h.locked c hold
      · cases hactive : s.active with
        | none => exact .inl rfl
        | some d =>
            rw [hactive] at hnew
            cases List.mem_singleton.mp hnew
            exact .inr rfl
    · intro closer hmem hlocked c hc
      rcases List.mem_append.mp hmem with hold | hnew
      · exact h.quiet closer hold hlocked c hc
      · rw [hc] at hnew
        exact absurd (List.mem_singleton.mp hnew) (hlocked c)
  unfold BoundedTransport.close
  dsimp only
  split
  · unfold BoundedTransport.put
    split
    · exact hclosed
    · exact hclosed
  · exact hclosed

theorem TransportStep.closing (hstep : TransportStep s s') (h : s.IsClosing) : s'.IsClosing := by
  cases hstep with
  | refuse => exact h
  | begin workers hopen _ _ =>
      have hclosers : s.closers = [] := by
        by_contra hne
        exact Bool.false_ne_true (hopen.symm.trans (h.flagged hne))
      have hclosing : Closing (some s.made) s.closed s.budgets s.closers := by
        rw [hclosers]
        exact ⟨fun hne => absurd rfl hne, nofun, nofun⟩
      unfold BoundedTransport.put
      split
      · exact hclosing
      · exact hclosing
  | settle c ending _ _ => exact h
  | leave c ending _ =>
      obtain ⟨futures, hfutures, _, _⟩ :=
        (s.withBudget c AttemptBudget.cancel).cancelFuture_eq c
      rw [hfutures]
      exact h.budget (keepsCancelled_update c (f := AttemptBudget.cancel) fun _ _ => rfl)
  | deliver post rest _ =>
      obtain ⟨futures, hfutures, _, _⟩ := { s with posts := rest }.callback_eq post
      rw [hfutures]
      exact h
  | closeLoop => exact h
  | expire c =>
      exact h.budget
        (keepsCancelled_update c (f := fun b => { b with expired := true }) fun _ hb => hb)
  | close => exact BoundedTransport.close_closing h
  | closeCancel k c hlocked =>
      obtain ⟨hk, _⟩ := List.getElem?_eq_some_iff.mp hlocked
      have hbudget := h.budget (keepsCancelled_update c (f := AttemptBudget.cancel) fun _ _ => rfl)
      refine hbudget.set hk nofun ?_
      intro d hd
      -- The item that this call found is the only one that can still be active.
      rcases h.locked c (List.mem_of_getElem? hlocked) with hnone | hsome
      · rw [hnone] at hd
        cases hd
      · obtain rfl := Option.some.inj (hsome.symm.trans hd)
        rw [Function.update_self]
        rfl
  | closePost k c hsignalled =>
      obtain ⟨hk, _⟩ := List.getElem?_eq_some_iff.mp hsignalled
      obtain ⟨posts, hposts, _⟩ := s.post_eq (.cancel c)
      rw [hposts]
      exact h.set hk nofun
        (h.quiet _ (List.mem_of_getElem? hsignalled) nofun)
  | work i w _ hw hwork => exact hwork.closing h

end Closing

/-! ## Outcomes that are expected -/

section Expected

variable {ν : Type} {s s' : BoundedTransport ν}

/-- The worker brings back what came of the item. -/
def Worker.Brings (c : Call) : Worker ν → Prop
  | .posting d _ _ => d = c
  | _ => False

/-- While the loop is open, a call that waits for a pending future has its item in the slot, or the
worker brings its outcome back, or the callback that settles the future is on its way. -/
def Expected (looping : Bool) (active : Option Call) (workers : List (Worker ν))
    (posts : List (Post ν)) (futures : Call → Future ν) (calls : Call → Option (CallState ν)) :
    Prop :=
  looping = true → ∀ c, calls c = some .waiting → futures c = .pending →
    active = some c ∨ (∃ w ∈ workers, w.Brings c) ∨ ∃ outcome, .finish c outcome ∈ posts

abbrev BoundedTransport.IsExpected (s : BoundedTransport ν) : Prop :=
  Expected s.looping s.active s.workers s.posts s.futures s.calls

variable {looping : Bool} {active : Option Call} {workers : List (Worker ν)}
  {posts posts' : List (Post ν)} {futures futures' : Call → Future ν}
  {calls : Call → Option (CallState ν)} {c : Call}

/-- A call that moves on does not wait any longer. -/
theorem Expected.call {state : CallState ν}
    (h : Expected looping active workers posts futures calls) (hstate : state ≠ .waiting)
    (hfutures : ∀ d, futures' d = .pending → futures d = .pending) :
    Expected looping active workers posts futures' (Function.update calls c (some state)) := by
  intro hlooping d hd hpending
  by_cases hdc : d = c
  · subst hdc
    rw [Function.update_self] at hd
    exact absurd (Option.some.inj hd) hstate
  · rw [Function.update_of_ne hdc] at hd
    exact h hlooping d hd (hfutures d hpending)

/-- No callback is lost. -/
theorem Expected.post (h : Expected looping active workers posts futures calls)
    (hposts : ∀ post ∈ posts, post ∈ posts') :
    Expected looping active workers posts' futures calls := by
  intro hlooping d hd hpending
  rcases h hlooping d hd hpending with hactive | hbrings | ⟨outcome, hmem⟩
  · exact .inl hactive
  · exact .inr (.inl hbrings)
  · exact .inr (.inr ⟨outcome, hposts _ hmem⟩)

/-- A worker that brings nothing back goes on. -/
theorem Expected.set {i : Nat} {w w' : Worker ν}
    (h : Expected looping active workers posts futures calls) (hworkers : workers = [w])
    (hquiet : ∀ d, ¬ w.Brings d) :
    Expected looping active (workers.set i w') posts futures calls := by
  intro hlooping d hd hpending
  rcases h hlooping d hd hpending with hactive | ⟨old, hmem, hbrings⟩ | hposted
  · exact .inl hactive
  · rw [hworkers] at hmem
    cases List.mem_singleton.mp hmem
    exact absurd hbrings (hquiet d)
  · exact .inr (.inr hposted)

theorem WorkerStep.expected {i : Nat} {w : Worker ν} (hstep : WorkerStep s i w s')
    (hw : s.workers[i]? = some w) (hslot : s.HasSlot) (h : s.IsExpected) : s'.IsExpected := by
  obtain ⟨rfl, hworkers⟩ := hslot.worker hw
  cases hstep with
  | take c rest _ => exact h.set hworkers fun _ => not_false
  | stop rest _ => exact h.set hworkers fun _ => not_false
  | proceed c _ => exact h.set hworkers fun _ => not_false
  | refuse c => exact h.set hworkers fun _ => not_false
  | start c => exact h.set hworkers fun _ => not_false
  | bind c connection => exact h
  | returns c value => exact h.set hworkers fun _ => not_false
  | raises c => exact h.set hworkers fun _ => not_false
  | keep c outcome => exact h.set hworkers fun _ => not_false
  | late c outcome => exact h.set hworkers fun _ => not_false
  | finish c outcome => exact h.set hworkers fun _ => not_false
  | release c outcome =>
      intro hlooping d hd hpending
      have hactive : s.active = some c := hslot.holds hw (List.mem_singleton_self c)
      rcases h hlooping d hd hpending with hold | ⟨old, hmem, hbrings⟩ | hposted
      · -- The item leaves the slot, and the worker has its outcome.
        obtain rfl := Option.some.inj (hactive.symm.trans hold)
        refine .inr (.inl ⟨.posting c outcome s.closed, ?_, rfl⟩)
        show _ ∈ s.workers.set 0 (.posting c outcome s.closed)
        rw [hworkers]
        exact List.mem_singleton_self _
      · rw [hworkers] at hmem
        cases List.mem_singleton.mp hmem
        exact absurd hbrings not_false
      · exact .inr (.inr hposted)
  | post c outcome closed =>
      obtain ⟨posts, hposts, _, hkept, hnew⟩ := s.post_eq (.finish c outcome)
      rw [hposts]
      intro hlooping d hd hpending
      rcases h hlooping d hd hpending with hold | ⟨old, hmem, hbrings⟩ | ⟨produced, hposted⟩
      · exact .inl hold
      · rw [hworkers] at hmem
        cases List.mem_singleton.mp hmem
        obtain rfl : c = d := hbrings
        exact .inr (.inr ⟨outcome, hnew hlooping⟩)
      · exact .inr (.inr ⟨produced, hkept _ hposted⟩)

theorem TransportStep.expected (hstep : TransportStep s s') (hslot : s.HasSlot)
    (h : s.IsExpected) : s'.IsExpected := by
  cases hstep with
  | refuse => exact h.call nofun fun _ hpending => hpending
  | begin workers _ hactive hthread =>
      have hbegun : Expected s.looping (some s.made) workers s.posts s.futures
          (Function.update s.calls s.made (some .waiting)) := by
        intro hlooping d hd hpending
        by_cases hdc : d = s.made
        · exact .inl (hdc ▸ rfl)
        · rw [Function.update_of_ne hdc] at hd
          rcases h hlooping d hd hpending with hold | ⟨old, hmem, hbrings⟩ | hposted
          · cases hactive.symm.trans hold
          · refine .inr (.inl ⟨old, ?_, hbrings⟩)
            rcases hthread with ⟨_, rfl⟩ | ⟨_, rfl⟩
            · exact hmem
            · exact List.mem_append_left _ hmem
          · exact .inr (.inr hposted)
      unfold BoundedTransport.put
      split
      · exact hbegun
      · exact hbegun
  | settle c ending _ _ => exact h.call nofun fun _ hpending => hpending
  | leave c ending _ =>
      obtain ⟨futures, hfutures, _, hpending⟩ :=
        (s.withBudget c AttemptBudget.cancel).cancelFuture_eq c
      rw [hfutures]
      exact h.call nofun hpending
  | deliver post rest hposts =>
      obtain ⟨futures, hfutures, _, hpending⟩ := { s with posts := rest }.callback_eq post
      rw [hfutures]
      intro hlooping d hd hdone
      obtain ⟨hold, hother⟩ := hpending d hdone
      rcases h hlooping d hd hold with hactive | hbrings | ⟨outcome, hmem⟩
      · exact .inl hactive
      · exact .inr (.inl hbrings)
      · rw [hposts] at hmem
        rcases List.mem_cons.mp hmem with heq | hrest
        · exact absurd heq.symm (hother outcome)
        · exact .inr (.inr ⟨outcome, hrest⟩)
  | closeLoop => exact nofun
  | expire c => exact h
  | close =>
      unfold BoundedTransport.close
      dsimp only
      split
      · unfold BoundedTransport.put
        split
        · exact h
        · exact h
      · exact h
  | closeCancel k c _ => exact h
  | closePost k c _ =>
      obtain ⟨posts, hposts, _, hkept, _⟩ := s.post_eq (.cancel c)
      rw [hposts]
      exact h.post hkept
  | work i w _ hw hwork => exact hwork.expected hw hslot h

end Expected

/-! ## How a call ends -/

section Answers

variable {ν : Type} {s : BoundedTransport ν} {c : Call}

/-- The call ends so, after these actions. -/
def BoundedTransport.Ends (s : BoundedTransport ν) (c : Call) (path : List (TransportAction ν))
    (ending : Ending ν) : Prop :=
  ∃ s', path.foldlM BoundedTransport.next s = some s' ∧ s'.calls c = some (.ended ending)

/-- The call whose future a callback is about. -/
def Post.call : Post ν → Call
  | .finish c _ | .cancel c => c

/-- How a call ends that waits: with what its future holds, with a timeout while the future is
pending, and with the outcome of its item once the callback for it has run, which is never lost. -/
structure BoundedTransport.Answers (s : BoundedTransport ν) (c : Call) : Prop where
  settled : ∀ outcome, s.futures c = .settled outcome →
    s.Ends c [.settle c, .leave c] (.own outcome)
  cancelled : s.futures c = .cancelled → s.Ends c [.settle c, .leave c] .cancelled
  timeout : s.futures c = .pending → s.Ends c [.timeout c, .leave c] .timeout
  expected : s.futures c = .pending →
    c ∈ s.items ∨ (∃ w ∈ s.workers, w.Brings c) ∨ ∃ outcome, Post.finish c outcome ∈ s.posts
  posted : ∀ i outcome closed, s.workers[i]? = some (.posting c outcome closed) →
    ∃ s', s.next (.post i) = some s' ∧ s'.posts = s.posts ++ [.finish c outcome]
  reaches : s.futures c = .pending → ∀ ahead outcome rest,
    s.posts = ahead ++ Post.finish c outcome :: rest → (∀ post ∈ ahead, post.call ≠ c) →
      s.Ends c (List.replicate (ahead.length + 1) .deliver ++ [.settle c, .leave c]) (.own outcome)

/-- A call that cleans up ends. -/
theorem BoundedTransport.leaving_ends {ending : Ending ν} (hlooping : s.looping = true)
    (hc : s.calls c = some (.leaving ending)) :
    ∃ s', s.next (.leave c) = some s' ∧ s'.calls c = some (.ended ending) := by
  refine ⟨((s.withBudget c AttemptBudget.cancel).cancelFuture c).withCall c (.ended ending), ?_,
    Function.update_self ..⟩
  rw [next_of_looping hlooping]
  simp [BoundedTransport.act, hc]

/-- A call that stops waiting cleans up and ends. -/
theorem BoundedTransport.ends_of_leaving {action : TransportAction ν} {ending : Ending ν}
    (hlooping : s.looping = true)
    (h : s.act action = some (s.withCall c (.leaving ending))) :
    s.Ends c [action, .leave c] ending := by
  have hleft : (s.withCall c (.leaving ending)).calls c = some (.leaving ending) :=
    Function.update_self ..
  obtain ⟨s', hnext, hended⟩ := BoundedTransport.leaving_ends (by exact hlooping) hleft
  refine ⟨s', ?_, hended⟩
  rw [List.foldlM_cons, next_of_looping hlooping, h]
  simpa using hnext

theorem BoundedTransport.settled_ends {outcome : Produced ν} (hlooping : s.looping = true)
    (hc : s.calls c = some .waiting) (hfuture : s.futures c = .settled outcome) :
    s.Ends c [.settle c, .leave c] (.own outcome) := by
  refine BoundedTransport.ends_of_leaving hlooping ?_
  simp [BoundedTransport.act, BoundedTransport.settle, hc, hfuture]

theorem BoundedTransport.cancelled_ends (hlooping : s.looping = true)
    (hc : s.calls c = some .waiting) (hfuture : s.futures c = .cancelled) :
    s.Ends c [.settle c, .leave c] .cancelled := by
  refine BoundedTransport.ends_of_leaving hlooping ?_
  simp [BoundedTransport.act, BoundedTransport.settle, hc, hfuture]

theorem BoundedTransport.pending_ends (hlooping : s.looping = true)
    (hc : s.calls c = some .waiting) (hfuture : s.futures c = .pending) :
    s.Ends c [.timeout c, .leave c] .timeout := by
  refine BoundedTransport.ends_of_leaving hlooping ?_
  simp [BoundedTransport.act, hc, hfuture]

/-- A callback about another call leaves the future alone. -/
theorem BoundedTransport.callback_other {post : Post ν} (hother : post.call ≠ c) :
    (s.callback post).futures c = s.futures c := by
  cases post with
  | finish d outcome =>
      show (s.settleFuture d outcome).futures c = _
      unfold BoundedTransport.settleFuture
      split
      · exact Function.update_of_ne (Ne.symm hother) ..
      · rfl
  | cancel d =>
      show (s.cancelFuture d).futures c = _
      unfold BoundedTransport.cancelFuture
      split
      · exact Function.update_of_ne (Ne.symm hother) ..
      · rfl

/-- The callbacks run in their order, up to the one that settles the future. -/
theorem BoundedTransport.reaches {ahead rest : List (Post ν)} {outcome : Produced ν}
    (hlooping : s.looping = true) (hc : s.calls c = some .waiting)
    (hpending : s.futures c = .pending) (hposts : s.posts = ahead ++ .finish c outcome :: rest)
    (hahead : ∀ post ∈ ahead, post.call ≠ c) :
    s.Ends c (List.replicate (ahead.length + 1) .deliver ++ [.settle c, .leave c])
      (.own outcome) := by
  induction ahead generalizing s with
  | nil =>
      have hsettled : ({ s with posts := rest }.settleFuture c outcome) =
          { s with
            posts := rest
            futures := Function.update s.futures c (.settled outcome) } := by
        simp only [BoundedTransport.settleFuture, hpending]
      have hnext : s.next .deliver = some { s with
          posts := rest
          futures := Function.update s.futures c (.settled outcome) } := by
        rw [next_of_looping hlooping, ← hsettled]
        simp only [BoundedTransport.act, hposts]
        rfl
      obtain ⟨s', hpath, hended⟩ := BoundedTransport.settled_ends
        (s := { s with
          posts := rest
          futures := Function.update s.futures c (.settled outcome) })
        hlooping hc (Function.update_self ..)
      refine ⟨s', ?_, hended⟩
      show List.foldlM BoundedTransport.next s [.deliver, .settle c, .leave c] = _
      rw [List.foldlM_cons, hnext]
      exact hpath
  | cons post ahead ih =>
      have hnext : s.next .deliver =
          some ({ s with posts := ahead ++ Post.finish c outcome :: rest }.callback post) := by
        rw [next_of_looping hlooping]
        simp only [BoundedTransport.act, hposts]
        rfl
      have hfuture := BoundedTransport.callback_other
        (s := { s with posts := ahead ++ Post.finish c outcome :: rest })
        (hahead post List.mem_cons_self)
      obtain ⟨futures, hfutures, _⟩ :=
        { s with posts := ahead ++ Post.finish c outcome :: rest }.callback_eq post
      rw [hfutures] at hfuture hnext
      obtain ⟨s', hpath, hended⟩ := ih
        (s := { s with posts := ahead ++ Post.finish c outcome :: rest, futures := futures })
        hlooping hc (hfuture.trans hpending) rfl
        fun old hmem => hahead old (List.mem_cons_of_mem post hmem)
      refine ⟨s', ?_, hended⟩
      show List.foldlM BoundedTransport.next s
        (.deliver :: (List.replicate (ahead.length + 1) .deliver ++ [.settle c, .leave c])) = _
      rw [List.foldlM_cons, hnext]
      exact hpath

/-- A worker that brings an outcome back posts the callback. -/
theorem BoundedTransport.posted {i : Nat} {outcome : Produced ν} {closed : Bool}
    (hlooping : s.looping = true) (hw : s.workers[i]? = some (.posting c outcome closed)) :
    ∃ s', s.next (.post i) = some s' ∧ s'.posts = s.posts ++ [.finish c outcome] := by
  refine ⟨(s.post (.finish c outcome)).withWorker i (if closed = true then .gone else .idle),
    ?_, ?_⟩
  · rw [next_of_looping hlooping]
    simp only [BoundedTransport.act, hw, Option.bind_some, BoundedTransport.work]
  · show (s.post (.finish c outcome)).posts = _
    unfold BoundedTransport.post
    rw [if_pos hlooping]

theorem Expected.answers (h : s.IsExpected) (hslot : s.HasSlot) (hlooping : s.looping = true)
    (hc : s.calls c = some .waiting) : s.Answers c where
  settled outcome hfuture := BoundedTransport.settled_ends hlooping hc hfuture
  cancelled hfuture := BoundedTransport.cancelled_ends hlooping hc hfuture
  timeout hfuture := BoundedTransport.pending_ends hlooping hc hfuture
  expected hfuture := by
    refine (h hlooping c hc hfuture).imp_left ?_
    intro hactive
    rw [BoundedTransport.items, hslot.located, hactive]
    exact List.mem_singleton_self c
  posted i outcome closed hw := BoundedTransport.posted hlooping hw
  reaches hfuture ahead outcome rest hposts hahead :=
    BoundedTransport.reaches hlooping hc hfuture hposts hahead

end Answers

/-! ## Every interleaving -/

section Runs

variable {ν : Type} {s s' : BoundedTransport ν} {c : Call}

/-- What holds in every reachable state. -/
structure BoundedTransport.Invariant (s : BoundedTransport ν) : Prop where
  slot : s.HasSlot
  owned : s.IsOwned
  accounted : s.IsAccounted
  closing : s.IsClosing
  expected : s.IsExpected

theorem TransportReachable.invariant (h : TransportReachable s) : s.Invariant := by
  refine Reachable.invariant ?_ ?_ h
  · rintro _ rfl
    exact
      { slot := ⟨rfl, Nat.zero_le _, nofun, Nat.zero_le _, fun _ => rfl, rfl⟩
        owned := ⟨nofun, nofun, nofun, nofun, nofun⟩
        accounted := ⟨nofun, nofun, nofun⟩
        closing := ⟨fun hne => absurd rfl hne, nofun, nofun⟩
        expected := fun _ _ hc => nomatch hc }
  · intro t action u ht hnext
    have hstep := next_cases hnext
    exact ⟨hstep.slot ht.slot, hstep.owned ht.owned, hstep.accounted ht.accounted,
      hstep.closing ht.closing, hstep.expected ht.slot ht.expected⟩

/-- A function that starts is the active one. -/
theorem Slot.starts {i : Nat} (h : s.HasSlot) (hnext : s.next (.start i) = some s')
    (hstarted : s'.workers[i]? = some (.executing c)) :
    s.active = some c ∧ s'.budgets = s.budgets := by
  obtain ⟨w, hw, hwork⟩ := Option.bind_eq_some_iff.mp (next_act hnext)
  obtain ⟨rfl, hworkers⟩ := h.worker hw
  cases w with
  | admitted d =>
      obtain rfl := Option.some.inj hwork
      have hdc : d = c := by
        simpa [BoundedTransport.withWorker, hworkers] using hstarted
      exact ⟨h.holds hw (hdc ▸ List.mem_singleton_self d), rfl⟩
  | _ => cases hwork

end Runs

end Webhooks
end ChatEngine
