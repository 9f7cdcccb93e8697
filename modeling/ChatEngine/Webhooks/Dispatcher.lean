import ChatEngine.Store.Privacy

/-!
# The webhook dispatcher over the SQLite store

One worker selects the due delivery, sends it over the network and records the
outcome.  The operator's replay and every other call of the store run between
these steps.

* `DispatcherConfig.attempt`, the outcome the worker records, computed from the
  delivery as it was when it was selected;
* `State.next`, the steps of the worker and of the store's other callers;
* `attempts`, the attempts made and recorded since a delivery's last replay,
  read off the history of the run;
* `failed_after_full_budget`, what a run guarantees in which no failure is
  recorded of a delivery that was replayed since it was selected;
* `replayed_in_flight_fails_early`, a run in which one is.
-/

namespace ChatEngine
namespace Webhooks

open Lib
open Models
open Store

/-! ## One attempt -/

/-- Sanitized result retained by the durable outbox. -/
structure WebhookAttemptResult where
  statusCode : Option Int
  error : Option String
  retryAfter : Option Int := none
  deriving DecidableEq

/-- A 2xx answer. -/
def WebhookAttemptResult.delivered (result : WebhookAttemptResult) : Bool :=
  match result.statusCode with
  | none => false
  | some code => decide (200 ≤ code ∧ code < 300)

/-- `_RETRY_SCHEDULE_SECONDS`. -/
def retryScheduleSeconds : List Nat := [5, 300, 1_800, 7_200, 18_000, 36_000, 50_400, 72_000]

/-- What the worker was configured with; `digest` is the first two bytes of the
SHA-256 digest of `{delivery_id}:{attempt_number}`. -/
structure DispatcherConfig where
  store : Config
  maxAttempts : Nat
  digest : String → Nat → Fin 65536

/-- `_retry_delay` in microseconds, as `timedelta` rounds it: the scheduled delay within a fifth of
it. -/
def DispatcherConfig.retryDelay (cfg : DispatcherConfig) (deliveryId : String)
    (attemptNumber : Nat) : Int :=
  let index := min (attemptNumber - 1) (retryScheduleSeconds.length - 1)
  let base :=
    if attemptNumber ≤ retryScheduleSeconds.length then retryScheduleSeconds.getD index 0
    else 86_400
  -- 1 + (d / 65535 - 1/2) * 2/5, over one denominator, which is odd: no microsecond is halved
  let jittered :=
    seconds base * (262_140 + 2 * ((cfg.digest deliveryId attemptNumber).val : Int))
  max (seconds 1) ((2 * jittered + 327_675) / 655_350)

/-- The attempt is the last one: the budget is spent or the receiver is gone. -/
def DispatcherConfig.Terminal (cfg : DispatcherConfig) (attemptNumber : Nat)
    (result : WebhookAttemptResult) : Prop :=
  result.delivered = false ∧ (cfg.maxAttempts ≤ attemptNumber ∨ result.statusCode = some 410)

instance (cfg : DispatcherConfig) (attemptNumber : Nat) (result : WebhookAttemptResult) :
    Decidable (cfg.Terminal attemptNumber result) := by
  unfold DispatcherConfig.Terminal
  infer_instance

/-- When `_process_due_once` tries again. -/
def DispatcherConfig.nextAttemptAt (cfg : DispatcherConfig) (deliveryId : String)
    (attemptNumber : Nat) (attemptedAt : Timestamp) (result : WebhookAttemptResult) :
    Option Timestamp :=
  if result.delivered = true ∨ cfg.Terminal attemptNumber result then none
  else
    let delay := cfg.retryDelay deliveryId attemptNumber
    some (attemptedAt +
      match result.retryAfter with
      | none => delay
      | some wait => max delay wait)

/-- The outcome `_process_due_once` records.  The attempt number counts from the
delivery as it was selected, before the request went out. -/
def DispatcherConfig.attempt (cfg : DispatcherConfig) (pending : PendingWebhook)
    (attemptedAt : Timestamp) (result : WebhookAttemptResult) : WebhookAttempt :=
  let attemptNumber := pending.delivery.attemptCount + 1
  { attemptedAt := attemptedAt
    statusCode := result.statusCode
    error := result.error
    nextAttemptAt := cfg.nextAttemptAt pending.delivery.id attemptNumber attemptedAt result
    delivered := result.delivered
    failed := decide (cfg.Terminal attemptNumber result) }

/-! ## The history of a run -/

/-- What happened to a delivery. -/
inductive Entry where
  | selected (deliveryId : String)
  | sent (deliveryId : String)
  | recorded (deliveryId : String) (statusCode : Option Int)
  | replayed (deliveryId : String)
  deriving DecidableEq

/-- The delivery an entry is about. -/
def Entry.deliveryId : Entry → String
  | selected deliveryId => deliveryId
  | sent deliveryId => deliveryId
  | recorded deliveryId _ => deliveryId
  | replayed deliveryId => deliveryId

/-- The attempts of one delivery since its creation or most recent replay. -/
structure Attempts where
  /-- Attempts both sent and recorded. -/
  made : Nat := 0
  /-- The delivery was selected, and no outcome recorded. -/
  selected : Bool := false
  /-- An attempt was sent whose outcome is not recorded. -/
  outstanding : Bool := false
  /-- The receiver answered 410. -/
  gone : Bool := false
  deriving DecidableEq

/-- One more entry about the delivery. -/
def Attempts.note (a : Attempts) : Entry → Attempts
  | .selected _ => { a with selected := true }
  | .sent _ => { a with outstanding := true }
  | .recorded _ code =>
      { made := if a.outstanding = true then a.made + 1 else a.made
        selected := false
        outstanding := false
        gone := a.gone || decide (code = some 410) }
  | .replayed _ => {}

/-- The attempts of a delivery in a history, newest entry first. -/
def attempts (deliveryId : String) : List Entry → Attempts
  | [] => {}
  | entry :: rest =>
      if entry.deliveryId = deliveryId then (attempts deliveryId rest).note entry
      else attempts deliveryId rest

@[simp] theorem attempts_nil (deliveryId : String) : attempts deliveryId [] = {} := rfl

theorem attempts_cons (deliveryId : String) (entry : Entry) (rest : List Entry) :
    attempts deliveryId (entry :: rest) =
      if entry.deliveryId = deliveryId then (attempts deliveryId rest).note entry
      else attempts deliveryId rest := rfl

theorem attempts_cons_other {deliveryId : String} {entry : Entry} {rest : List Entry}
    (h : entry.deliveryId ≠ deliveryId) :
    attempts deliveryId (entry :: rest) = attempts deliveryId rest := by
  rw [attempts_cons, if_neg h]

/-- A delivery the history does not mention has made no attempt. -/
theorem attempts_eq_empty {deliveryId : String} {history : List Entry}
    (h : ∀ entry ∈ history, entry.deliveryId ≠ deliveryId) : attempts deliveryId history = {} := by
  induction history with
  | nil => rfl
  | cons entry rest ih =>
      rw [attempts_cons_other (h entry List.mem_cons_self)]
      exact ih fun e he => h e (List.mem_cons_of_mem _ he)

/-! ## The worker and the store's other callers -/

/-- Where the worker stands in `_process_due_once`. -/
inductive Stage where
  | idle
  | selected (pending : PendingWebhook) (attemptedAt : Timestamp)
  | sending (pending : PendingWebhook) (attemptedAt : Timestamp)
  | answered (pending : PendingWebhook) (attemptedAt : Timestamp) (result : WebhookAttemptResult)

/-- The delivery that the worker has selected. -/
def Stage.pending? : Stage → Option PendingWebhook
  | idle => none
  | selected pending _ => some pending
  | sending pending _ => some pending
  | answered pending _ _ => some pending

/-- The delivery that the worker has sent. -/
def Stage.sent? : Stage → Option PendingWebhook
  | idle => none
  | selected _ _ => none
  | sending pending _ => some pending
  | answered pending _ _ => some pending

/-- The store, the worker, and the history of the deliveries. -/
structure State where
  db : Database := {}
  stage : Stage := .idle
  history : List Entry := []

/-- The steps: the worker's own, its being stopped, cancelled or restarted at any
point, and a call of the store by anyone else. -/
inductive Event where
  | select (now : Timestamp)
  | send
  | answer (result : WebhookAttemptResult)
  | abandon
  | record
  | call (rd : Readings) (cmd : Command)

/-- The entry an accepted replay leaves in the history. -/
def replayNote : Command → Except StoreError Reply → List Entry
  | .retryWebhookDelivery deliveryId, .ok _ => [.replayed deliveryId]
  | _, _ => []

/-- `next_webhook_delivery`. -/
def State.select (now : Timestamp) (s : State) : State :=
  match s.stage, nextWebhookDelivery now s.db with
  | .idle, some pending =>
      { s with
        stage := .selected pending now
        history := .selected pending.delivery.id :: s.history }
  | _, _ => s

/-- The request goes out, with the delivery as it was when it was selected. -/
def State.send (s : State) : State :=
  match s.stage with
  | .selected pending attemptedAt =>
      { s with
        stage := .sending pending attemptedAt
        history := .sent pending.delivery.id :: s.history }
  | _ => s

/-- The request has its result. -/
def State.answer (result : WebhookAttemptResult) (s : State) : State :=
  match s.stage with
  | .sending pending attemptedAt => { s with stage := .answered pending attemptedAt result }
  | _ => s

/-- `record_webhook_attempt`; an outcome the store no longer takes is dropped. -/
def State.record (cfg : DispatcherConfig) (s : State) : State :=
  match s.stage with
  | .answered pending attemptedAt result =>
      match Tx.atomically (recordWebhookAttempt pending.delivery.id
          (cfg.attempt pending attemptedAt result)) s.db with
      | (.ok _, db) =>
          { db := db, stage := .idle,
            history := .recorded pending.delivery.id result.statusCode :: s.history }
      | (.error _, db) => { s with db := db, stage := .idle }
  | _ => s

/-- A call of the store. -/
def State.call (cfg : DispatcherConfig) (rd : Readings) (cmd : Command) (s : State) : State :=
  let outcome := exec cfg.store rd cmd s.db
  { s with db := outcome.2, history := replayNote cmd outcome.1 ++ s.history }

/-- The state after an event. -/
def State.next (cfg : DispatcherConfig) (s : State) : Event → State
  | .select now => s.select now
  | .send => s.send
  | .answer result => s.answer result
  | .abandon => { s with stage := .idle }
  | .record => s.record cfg
  | .call rd cmd => s.call cfg rd cmd

/-- Only the worker records attempts, and `uuid4` does not draw the id of a
delivery that was already selected. -/
def State.Admits (s : State) : Event → Prop
  | .call rd cmd =>
      (∀ deliveryId attempt, cmd ≠ .recordWebhookAttempt deliveryId attempt) ∧
        ∀ i, ∀ entry ∈ s.history, entry.deliveryId ≠ "wh_" ++ (rd.uuid i).text
  | _ => True

/-- One step of the worker and the store. -/
def DispatchStep (cfg : DispatcherConfig) (s : State) (e : Event) (s' : State) : Prop :=
  s.Admits e ∧ s.next cfg e = s'

/-- The step is about to record, on a delivery that is pending, a failure other
than 410 of an attempt for which the delivery was selected before its most recent
replay. -/
def State.RecordsStaleFailure (s : State) : Event → Prop
  | .record =>
      match s.stage with
      | .answered pending _ result =>
          (∃ row ∈ s.db.webhooks.rows, recordable pending.delivery.id row) ∧
            (attempts pending.delivery.id s.history).selected = false ∧
            result.delivered = false ∧ result.statusCode ≠ some 410
      | _ => False
  | _ => False

instance (s : State) (e : Event) : Decidable (s.RecordsStaleFailure e) := by
  cases e with
  | record =>
      unfold State.RecordsStaleFailure
      cases s.stage <;> infer_instance
  | _ => exact .isFalse id

variable {cfg : DispatcherConfig} {s s' : State}

/-! ## What each step does -/

/-- A row of the outbox that is still to be delivered. -/
theorem not_finished_iff {row : WebhookRow} :
    ¬ row.Finished ↔ row.deliveredAt = none ∧ row.failedAt = none := by
  unfold WebhookRow.Finished
  cases row.deliveredAt <;> cases row.failedAt <;> simp

/-- Recording an outcome: on a pending row of the delivery in flight, or nowhere. -/
theorem record_cases (cfg : DispatcherConfig) {pending : PendingWebhook}
    {attemptedAt : Timestamp} {result : WebhookAttemptResult}
    (hstage : s.stage = .answered pending attemptedAt result) :
    (s.record cfg = { s with stage := .idle }) ∨
      ∃ row ∈ s.db.webhooks, recordable pending.delivery.id row ∧
        s.record cfg =
          { db := { s.db with
              webhooks := recordIn pending.delivery.id (cfg.attempt pending attemptedAt result)
                s.db.webhooks }
            stage := .idle
            history := .recorded pending.delivery.id result.statusCode :: s.history } := by
  unfold State.record
  rw [hstage]
  rcases Tx.atomically_cases (recordWebhookAttempt pending.delivery.id
      (cfg.attempt pending attemptedAt result)) s.db with ⟨e, herror⟩ | ⟨u, db, hok, hrun⟩
  · left
    simp only [herror]
  · right
    obtain ⟨-, ⟨row, hrow, hrecordable⟩, rfl⟩ := recordWebhookAttempt_ok hok
    refine ⟨row, hrow, hrecordable, ?_⟩
    simp only [hrun]

/-- A call of another party: rolled back, a replay, or a call that touches the
rows of the outbox only as `WebhookOrigin` says. -/
theorem call_cases (cfg : DispatcherConfig) (s : State) (rd : Readings) (cmd : Command) :
    (s.call cfg rd cmd = s) ∨
      (∃ row ∈ s.db.webhooks, row.payload ≠ none ∧ cmd = .retryWebhookDelivery row.id ∧
        s.call cfg rd cmd =
          { s with
            db := { s.db with webhooks := resetIn row.id (rd.now 0) s.db.webhooks }
            history := .replayed row.id :: s.history }) ∨
      ∃ reply db, Tx.Returns (cmd.tx cfg.store rd) s.db reply db ∧
        (∀ deliveryId, cmd ≠ .retryWebhookDelivery deliveryId) ∧
        s.call cfg rd cmd = { s with db := db } := by
  unfold State.call
  unfold exec
  rcases Tx.atomically_cases (cmd.tx cfg.store rd) s.db with ⟨e, herror⟩ | ⟨reply, db, hok, hrun⟩
  · left
    rw [herror]
    cases cmd <;> rfl
  · rw [hrun]
    by_cases hretry : ∃ deliveryId, cmd = .retryWebhookDelivery deliveryId
    · obtain ⟨deliveryId, rfl⟩ := hretry
      right
      left
      obtain ⟨delivery, hdelivery, -⟩ := Tx.returns_map.mp hok
      obtain ⟨row, hrow, rfl, hpayload, -, rfl⟩ := retryWebhookDelivery_ok hdelivery
      exact ⟨row, hrow, hpayload, rfl, rfl⟩
    · right
      right
      refine ⟨reply, db, hok, fun deliveryId h => hretry ⟨deliveryId, h⟩, ?_⟩
      cases cmd with
      | retryWebhookDelivery deliveryId => exact absurd ⟨deliveryId, rfl⟩ hretry
      | _ => rfl

/-! ## The invariant -/

/-- What holds of the outbox and the worker as long as no stale failure is
recorded: a pending row counts the attempts made since its last replay, a failed
one has used its budget or met a 410, and unless the delivery was replayed since
it was selected, the worker's reading of the count is current, and what it has
sent is still to be recorded. -/
structure Budgeted (cfg : DispatcherConfig) (s : State) : Prop where
  payload : ∀ row ∈ s.db.webhooks, ¬ row.Finished → row.payload ≠ none
  pending : ∀ row ∈ s.db.webhooks, ¬ row.Finished →
    row.attemptCount = (attempts row.id s.history).made
  failed : ∀ row ∈ s.db.webhooks, row.failedAt ≠ none →
    cfg.maxAttempts ≤ (attempts row.id s.history).made ∨ (attempts row.id s.history).gone = true
  inFlight : ∀ p, s.stage.pending? = some p →
    (attempts p.delivery.id s.history).selected = true →
    ∀ row ∈ s.db.webhooks, row.id = p.delivery.id → ¬ row.Finished →
      p.delivery.attemptCount = row.attemptCount
  sent : ∀ p, s.stage.sent? = some p →
    (attempts p.delivery.id s.history).selected = true →
      (attempts p.delivery.id s.history).outstanding = true

theorem Budgeted.empty : Budgeted cfg {} where
  payload := by simp
  pending := by simp
  failed := by simp
  inFlight := by simp
  sent := by simp

/-- Leaving the delivery in flight keeps the invariant. -/
theorem Budgeted.idle (h : Budgeted cfg s) : Budgeted cfg { s with stage := .idle } where
  payload := h.payload
  pending := h.pending
  failed := h.failed
  inFlight := by
    intro p hp
    cases hp
  sent := by
    intro p hp
    cases hp

theorem Budgeted.answer (h : Budgeted cfg s) (result : WebhookAttemptResult) :
    Budgeted cfg (s.answer result) := by
  unfold State.answer
  cases hstage : s.stage with
  | sending pending attemptedAt =>
      refine ⟨h.payload, h.pending, h.failed, ?_, ?_⟩
      · intro p hp
        refine h.inFlight p ?_
        rw [hstage]
        exact hp
      · intro p hp
        refine h.sent p ?_
        rw [hstage]
        exact hp
  | _ => exact h

/-- Selecting changes neither what was made nor whether the receiver is gone. -/
theorem attempts_selected (deliveryId selectedId : String) (history : List Entry) :
    (attempts deliveryId (.selected selectedId :: history)).made =
        (attempts deliveryId history).made ∧
      (attempts deliveryId (.selected selectedId :: history)).gone =
        (attempts deliveryId history).gone ∧
      (attempts deliveryId (.selected selectedId :: history)).outstanding =
        (attempts deliveryId history).outstanding := by
  rw [attempts_cons]
  split <;> exact ⟨rfl, rfl, rfl⟩

/-- Nor does sending, which selects nothing either. -/
theorem attempts_sent (deliveryId sentId : String) (history : List Entry) :
    (attempts deliveryId (.sent sentId :: history)).made = (attempts deliveryId history).made ∧
      (attempts deliveryId (.sent sentId :: history)).gone =
        (attempts deliveryId history).gone ∧
      (attempts deliveryId (.sent sentId :: history)).selected =
        (attempts deliveryId history).selected := by
  rw [attempts_cons]
  split <;> exact ⟨rfl, rfl, rfl⟩

/-- Sending leaves an attempt under way. -/
theorem attempts_sent_outstanding {deliveryId sentId : String} {history : List Entry}
    (h : (attempts deliveryId history).outstanding = true ∨ deliveryId = sentId) :
    (attempts deliveryId (.sent sentId :: history)).outstanding = true := by
  rw [attempts_cons]
  split
  case isTrue => rfl
  case isFalse hother => exact h.resolve_right fun hid => hother hid.symm

theorem Budgeted.send (h : Budgeted cfg s) : Budgeted cfg s.send := by
  unfold State.send
  split
  · rename_i pending attemptedAt hstage
    refine ⟨h.payload, ?_, ?_, ?_, ?_⟩
    · intro r hr hpending
      rw [(attempts_sent _ _ _).1]
      exact h.pending r hr hpending
    · intro r hr hfailed
      rw [(attempts_sent _ _ _).1, (attempts_sent _ _ _).2.1]
      exact h.failed r hr hfailed
    · intro p hp hselected
      cases hp
      rw [(attempts_sent _ _ _).2.2] at hselected
      exact h.inFlight pending (by rw [hstage]; rfl) hselected
    · intro p hp _
      cases hp
      exact attempts_sent_outstanding (.inr rfl)
  · exact h

theorem Budgeted.select (h : Budgeted cfg s) (now : Timestamp) :
    Budgeted cfg (s.select now) := by
  unfold State.select
  split
  · rename_i selected hstage hnext
    obtain ⟨row, hrow, hdue, -, hdelivery⟩ := nextWebhookDelivery_eq_some hnext
    have hid : selected.delivery.id = row.id := by rw [hdelivery]; rfl
    have hcount : selected.delivery.attemptCount = row.attemptCount := by rw [hdelivery]; rfl
    refine ⟨h.payload, ?_, ?_, ?_, ?_⟩
    · intro r hr hpending
      rw [(attempts_selected _ _ _).1]
      exact h.pending r hr hpending
    · intro r hr hfailed
      rw [(attempts_selected _ _ _).1, (attempts_selected _ _ _).2.1]
      exact h.failed r hr hfailed
    · intro p hp _ r hr hrid _
      cases hp
      have hsame : r = row := Table.eq_of_key hr hrow (hrid.trans hid)
      rw [hsame, hcount]
    · intro p hp
      cases hp
  · exact h

/-- The outbox after the record of a pending delivery. -/
theorem mem_recordIn {t : WebhookTable} {row w : WebhookRow} {attempt : WebhookAttempt}
    (hrow : row ∈ t) (hrecordable : recordable row.id row) (hw : w ∈ recordIn row.id attempt t) :
    (w ∈ t ∧ w.id ≠ row.id) ∨ w = row.record attempt := by
  rcases Table.mem_updateWhere.mp hw with ⟨hold, hnot⟩ | ⟨v, hv, hvrecordable, rfl⟩
  · refine .inl ⟨hold, fun hid => hnot ?_⟩
    rw [Table.eq_of_key hold hrow hid]
    exact hrecordable
  · rw [Table.eq_of_key hv hrow hvrecordable.1]
    exact .inr rfl

/-- The outbox after a replay. -/
theorem mem_resetIn {t : WebhookTable} {row w : WebhookRow} {now : Timestamp}
    (hrow : row ∈ t) (hw : w ∈ resetIn row.id now t) :
    (w ∈ t ∧ w.id ≠ row.id) ∨ w = row.reset now := by
  rcases Table.mem_updateWhere.mp hw with ⟨hold, hnot⟩ | ⟨v, hv, hid, rfl⟩
  · exact .inl ⟨hold, hnot⟩
  · rw [Table.eq_of_key hv hrow hid]
    exact .inr rfl

theorem record_failedAt {row : WebhookRow} {pending : PendingWebhook} {attemptedAt : Timestamp}
    {result : WebhookAttemptResult} :
    (row.record (cfg.attempt pending attemptedAt result)).failedAt ≠ none ↔
      cfg.Terminal (pending.delivery.attemptCount + 1) result := by
  simp [WebhookRow.record, DispatcherConfig.attempt]

/-- A recorded row is pending when the attempt was a failure with budget left. -/
theorem record_not_finished {row : WebhookRow} {pending : PendingWebhook}
    {attemptedAt : Timestamp} {result : WebhookAttemptResult}
    (h : ¬ (row.record (cfg.attempt pending attemptedAt result)).Finished) :
    result.delivered = false ∧ ¬ cfg.Terminal (pending.delivery.attemptCount + 1) result := by
  obtain ⟨hdelivered, hfailed⟩ := not_finished_iff.mp h
  refine ⟨?_, fun hterminal => record_failedAt.mpr hterminal hfailed⟩
  cases hresult : result.delivered with
  | false => rfl
  | true => simp [WebhookRow.record, DispatcherConfig.attempt, hresult] at hdelivered

/-- The record of an outcome keeps the invariant unless it is a stale failure. -/
theorem Budgeted.record (h : Budgeted cfg s) (hcond : ¬ s.RecordsStaleFailure .record) :
    Budgeted cfg (s.record cfg) := by
  cases hstage : s.stage with
  | answered pending attemptedAt result =>
      rcases record_cases cfg hstage with hdropped | ⟨row, hrow, hrecordable, haccepted⟩
      · rw [hdropped]
        exact h.idle
      · rw [haccepted]
        obtain ⟨hid, hopen⟩ := hrecordable
        have hunfinished : ¬ row.Finished := not_finished_iff.mpr hopen
        rw [← hid]
        have hmade := h.pending row hrow hunfinished
        have hcurrent : (attempts row.id s.history).selected = true →
            pending.delivery.attemptCount = row.attemptCount := fun hselected =>
          h.inFlight pending (by rw [hstage]; rfl) (hid ▸ hselected) row hrow hid hunfinished
        have hsent : (attempts row.id s.history).selected = true →
            (attempts row.id s.history).outstanding = true := by
          rw [hid]
          exact h.sent pending (by rw [hstage]; rfl)
        -- an attempt that a replay overtook was delivered or met a 410
        have hovertaken : (attempts row.id s.history).selected = false →
            result.delivered = true ∨ result.statusCode = some 410 := by
          intro hselected
          by_contra hneither
          obtain ⟨hdelivered, hcode⟩ := not_or.mp hneither
          apply hcond
          unfold State.RecordsStaleFailure
          rw [hstage]
          exact ⟨⟨row, hrow, hid, hopen⟩, hid ▸ hselected, Bool.eq_false_iff.mpr hdelivered,
            hcode⟩
        have hnoted : attempts row.id (.recorded row.id result.statusCode :: s.history) =
            (attempts row.id s.history).note (.recorded row.id result.statusCode) := if_pos rfl
        refine ⟨?_, ?_, ?_, fun p hp => (nomatch hp), fun p hp => (nomatch hp)⟩
        · intro w hw hpending
          rcases mem_recordIn hrow ⟨rfl, hopen⟩ hw with ⟨hold, -⟩ | rfl
          · exact h.payload w hold hpending
          · exact h.payload row hrow hunfinished
        · intro w hw hpending
          rcases mem_recordIn hrow ⟨rfl, hopen⟩ hw with ⟨hold, hother⟩ | rfl
          · rw [attempts_cons_other (Ne.symm hother)]
            exact h.pending w hold hpending
          · obtain ⟨hdelivered, hbudget⟩ := record_not_finished hpending
            have hcode : result.statusCode ≠ some 410 := fun hgone =>
              hbudget ⟨hdelivered, .inr hgone⟩
            rw [WebhookRow.record_id, hnoted]
            cases hselected : (attempts row.id s.history).selected with
            | true => simp [Attempts.note, hsent hselected, WebhookRow.record, hmade]
            | false =>
                rcases hovertaken hselected with hyes | hgone
                · rw [hdelivered] at hyes
                  cases hyes
                · exact absurd hgone hcode
        · intro w hw hfailed
          rcases mem_recordIn hrow ⟨rfl, hopen⟩ hw with ⟨hold, hother⟩ | rfl
          · rw [attempts_cons_other (Ne.symm hother)]
            exact h.failed w hold hfailed
          · obtain ⟨hdelivered, hspent | hgone⟩ := record_failedAt.mp hfailed
            · rw [WebhookRow.record_id, hnoted]
              cases hselected : (attempts row.id s.history).selected with
              | true =>
                  left
                  rw [hcurrent hselected, hmade] at hspent
                  simpa [Attempts.note, hsent hselected] using hspent
              | false =>
                  right
                  rcases hovertaken hselected with hyes | hgone
                  · rw [hdelivered] at hyes
                    cases hyes
                  · simp [Attempts.note, hgone]
            · right
              rw [WebhookRow.record_id, hnoted]
              simp [Attempts.note, hgone]
  | _ =>
      unfold State.record
      rw [hstage]
      exact h

/-- A call of another party keeps the invariant. -/
theorem Budgeted.call (h : Budgeted cfg s) {rd : Readings} {cmd : Command}
    (hadmits : s.Admits (.call rd cmd)) : Budgeted cfg (s.call cfg rd cmd) := by
  obtain ⟨hworker, hfresh⟩ := hadmits
  rcases call_cases cfg s rd cmd with
    hsame | ⟨row, hrow, hpayload, -, hreset⟩ | ⟨reply, db, hok, hnotRetry, hcall⟩
  · rw [hsame]
    exact h
  · rw [hreset]
    have hnoted : attempts row.id (.replayed row.id :: s.history) = {} := if_pos rfl
    refine ⟨?_, ?_, ?_, ?_, ?_⟩
    · intro w hw hpending
      rcases mem_resetIn hrow hw with ⟨hold, -⟩ | rfl
      · exact h.payload w hold hpending
      · exact hpayload
    · intro w hw hpending
      rcases mem_resetIn hrow hw with ⟨hold, hother⟩ | rfl
      · rw [attempts_cons_other (Ne.symm hother)]
        exact h.pending w hold hpending
      · rw [WebhookRow.reset_id, hnoted]
        rfl
    · intro w hw hfailed
      rcases mem_resetIn hrow hw with ⟨hold, hother⟩ | rfl
      · rw [attempts_cons_other (Ne.symm hother)]
        exact h.failed w hold hfailed
      · exact absurd rfl hfailed
    · intro p hp hselected w hw hid hpending
      by_cases hreplayed : row.id = p.delivery.id
      · rw [← hreplayed, hnoted] at hselected
        cases hselected
      · have hother : (Entry.replayed row.id).deliveryId ≠ p.delivery.id := hreplayed
        rw [attempts_cons_other hother] at hselected
        rcases mem_resetIn hrow hw with ⟨hold, -⟩ | rfl
        · exact h.inFlight p hp hselected w hold hid hpending
        · exact absurd hid hreplayed
    · intro p hp hselected
      by_cases hreplayed : row.id = p.delivery.id
      · rw [← hreplayed, hnoted] at hselected
        cases hselected
      · have hother : (Entry.replayed row.id).deliveryId ≠ p.delivery.id := hreplayed
        rw [attempts_cons_other hother] at hselected ⊢
        exact h.sent p hp hselected
  · rw [hcall]
    -- a row is an old one, perhaps scrubbed since it finished, or a new event's
    have hrows : ∀ w ∈ db.webhooks, w ∈ s.db.webhooks ∨
        (∃ v ∈ s.db.webhooks, v.Finished ∧ w = { v with payload := none }) ∨
        (attempts w.id s.history = {} ∧ w.attemptCount = 0 ∧ w.failedAt = none ∧
          w.payload ≠ none) := by
      intro w hw
      cases webhook_origin hok hw with
      | kept hkept =>
          rcases hkept with hold | hscrubbed
          · exact .inl hold
          · exact .inr (.inl hscrubbed)
      | event i type roomId resourceId occurredAt data htype hnew =>
          subst hnew
          exact .inr (.inr ⟨attempts_eq_empty (hfresh i), rfl, rfl, by simp [webhookRow]⟩)
      | recorded v attempt hv _ hrecord _ => exact absurd hrecord (hworker v.id attempt)
      | reset v hv _ hretry _ => exact absurd hretry (hnotRetry v.id)
    refine ⟨?_, ?_, ?_, ?_, h.sent⟩
    · intro w hw hpending
      rcases hrows w hw with hold | ⟨v, -, hfinished, rfl⟩ | ⟨-, -, -, hpayload⟩
      · exact h.payload w hold hpending
      · exact absurd hfinished hpending
      · exact hpayload
    · intro w hw hpending
      rcases hrows w hw with hold | ⟨v, -, hfinished, rfl⟩ | ⟨hnone, hzero, -, -⟩
      · exact h.pending w hold hpending
      · exact absurd hfinished hpending
      · rw [hnone, hzero]
    · intro w hw hfailed
      rcases hrows w hw with hold | ⟨v, hv, -, rfl⟩ | ⟨-, -, hnone, -⟩
      · exact h.failed w hold hfailed
      · exact h.failed v hv hfailed
      · exact absurd hnone hfailed
    · intro p hp hselected w hw hid hpending
      rcases hrows w hw with hold | ⟨v, -, hfinished, rfl⟩ | ⟨hnone, -, -, -⟩
      · exact h.inFlight p hp hselected w hold hid hpending
      · exact absurd hfinished hpending
      · rw [← hid, hnone] at hselected
        cases hselected

/-- The invariant holds along every run that records no stale failure. -/
theorem Budgeted.of_run
    (hrun : Run (DispatchStep cfg) (fun s e => ¬ s.RecordsStaleFailure e) {} s) :
    Budgeted cfg s := by
  refine hrun.invariant ?_ Budgeted.empty
  rintro t e u ht hcond ⟨hadmits, rfl⟩
  cases e with
  | select now => exact ht.select now
  | send => exact ht.send
  | answer result => exact ht.answer result
  | abandon => exact ht.idle
  | record => exact ht.record hcond
  | call rd cmd => exact ht.call hadmits

/-- A record leaves a delivery pending only if it was pending before, with the
same payload. -/
theorem record_keeps_finished {w : WebhookRow} (hw : w ∈ (s.record cfg).db.webhooks)
    (hpending : ¬ w.Finished) :
    ∃ v ∈ s.db.webhooks, v.id = w.id ∧ ¬ v.Finished ∧ v.payload = w.payload := by
  cases hstage : s.stage with
  | answered pending attemptedAt result =>
      rcases record_cases cfg hstage with hdropped | ⟨row, hrow, hrecordable, haccepted⟩
      · rw [hdropped] at hw
        exact ⟨w, hw, rfl, hpending, rfl⟩
      · rw [haccepted] at hw
        obtain ⟨hid, hopen⟩ := hrecordable
        rw [← hid] at hw
        rcases mem_recordIn hrow ⟨rfl, hopen⟩ hw with ⟨hold, -⟩ | rfl
        · exact ⟨w, hold, rfl, hpending, rfl⟩
        · exact ⟨row, hrow, rfl, not_finished_iff.mpr hopen, rfl⟩
  | _ =>
      unfold State.record at hw
      rw [hstage] at hw
      exact ⟨w, hw, rfl, hpending, rfl⟩

/-- A replay that the store accepts starts the delivery's count anew. -/
theorem replay_resets {rd : Readings} {deliveryId : String} {reply : Reply}
    (haccepted : (exec cfg.store rd (.retryWebhookDelivery deliveryId) s.db).1 = .ok reply) :
    attempts deliveryId (s.call cfg rd (.retryWebhookDelivery deliveryId)).history = {} ∧
      ∃ w ∈ (s.call cfg rd (.retryWebhookDelivery deliveryId)).db.webhooks,
        w.id = deliveryId ∧ ¬ w.Finished ∧ w.attemptCount = 0 ∧ w.payload ≠ none := by
  unfold State.call
  rcases hexec : exec cfg.store rd (.retryWebhookDelivery deliveryId) s.db with ⟨outcome, db⟩
  rw [hexec] at haccepted
  have hreply : outcome = .ok reply := haccepted
  subst hreply
  obtain ⟨delivery, hok, -⟩ := Tx.returns_map.mp (exec_ok.mp hexec)
  obtain ⟨row, hrow, rfl, hpayload, -, rfl⟩ := retryWebhookDelivery_ok hok
  have hin : row.reset (rd.now 0) ∈ resetIn row.id (rd.now 0) s.db.webhooks := by
    unfold resetIn
    exact Table.mem_updateWhere.mpr (.inr ⟨row, hrow, rfl, rfl⟩)
  exact ⟨if_pos rfl, row.reset (rd.now 0), hin, rfl, not_finished_iff.mpr ⟨rfl, rfl⟩, rfl,
    hpayload⟩

/-! ## The budget -/

/-- In every run that records no failure of a delivery replayed since it was
selected, a delivery is failed only after the full budget of attempts made since
its last replay or after a 410, and the count of a pending delivery is exactly the
attempts made since then; an accepted replay starts that count anew; and a late
record never makes a delivery pending that was finished or removed. -/
theorem failed_after_full_budget
    (hrun : Run (DispatchStep cfg) (fun s e => ¬ s.RecordsStaleFailure e) {} s) :
    (∀ row ∈ s.db.webhooks, row.failedAt ≠ none →
      cfg.maxAttempts ≤ (attempts row.id s.history).made ∨
        (attempts row.id s.history).gone = true) ∧
    (∀ row ∈ s.db.webhooks, ¬ row.Finished →
      row.payload ≠ none ∧ row.attemptCount = (attempts row.id s.history).made) ∧
    (∀ rd deliveryId reply,
      (exec cfg.store rd (.retryWebhookDelivery deliveryId) s.db).1 = .ok reply →
      attempts deliveryId (s.next cfg (.call rd (.retryWebhookDelivery deliveryId))).history =
          {} ∧
        ∃ w ∈ (s.next cfg (.call rd (.retryWebhookDelivery deliveryId))).db.webhooks,
          w.id = deliveryId ∧ ¬ w.Finished ∧ w.attemptCount = 0 ∧ w.payload ≠ none) ∧
    ∀ w ∈ (s.next cfg .record).db.webhooks, ¬ w.Finished →
      ∃ v ∈ s.db.webhooks, v.id = w.id ∧ ¬ v.Finished ∧ v.payload = w.payload := by
  have hinv := Budgeted.of_run hrun
  refine ⟨hinv.failed, ?_, ?_, ?_⟩
  · exact fun row hrow hpending => ⟨hinv.payload row hrow hpending, hinv.pending row hrow hpending⟩
  · exact fun rd deliveryId reply haccepted => replay_resets haccepted
  · exact fun w hw hpending => record_keeps_finished hw hpending

/-- Two attempts per delivery; the digest bytes are those of the only delivery
the runs below send. -/
def twoAttempts : DispatcherConfig where
  store := smallConfig
  maxAttempts := 2
  digest _ attemptNumber := if attemptNumber = 1 then 975 else 62483

/-- The receiver is unavailable. -/
def unavailable : WebhookAttemptResult :=
  { statusCode := some 503, error := some "http_status_503" }

/-- The id of that delivery. -/
def firstDelivery : String := "wh_" ++ (UuidHex.ofNat 12).text

/-- A message is posted, and the first attempt to deliver its event fails. -/
def firstFailure : List Event :=
  [.call (.fixed 1 0)
      (.createRoom { name := "General", id := some ⟨"general", matchesRoomId_general⟩ } "admin"),
   .call (.fixed 2 10) (.createMessage { roomId := "general", sender := "ada", content := "one" }),
   .select 3, .send, .answer unavailable, .record]

/-- The operator replays the delivery. -/
def replay : Event :=
  .call { now := fun _ => seconds 11, uuid := fun _ => UuidHex.ofNat 99 }
    (.retryWebhookDelivery firstDelivery)

/-- The second attempt fails too, and the operator replays the failed delivery. -/
def replayedAfterFailure : List Event :=
  firstFailure ++ [.select (seconds 10), .send, .answer unavailable, .record, replay]

/-- The operator replays the delivery while the second attempt is in flight. -/
def replayedInFlight : List Event :=
  firstFailure ++ [.select (seconds 10), .send, replay, .answer unavailable, .record]

/-- A call with no delivery sent yet, or whose ids are all the same new one. -/
theorem admits_call {rd : Readings} {cmd : Command}
    (hworker : ∀ deliveryId attempt, cmd ≠ .recordWebhookAttempt deliveryId attempt)
    (hfresh : s.history = [] ∨ ∃ u : UuidHex, (∀ i, rd.uuid i = u) ∧
      ∀ entry ∈ s.history, entry.deliveryId ≠ "wh_" ++ u.text) : s.Admits (.call rd cmd) := by
  refine ⟨hworker, fun i entry hentry => ?_⟩
  rcases hfresh with hnone | ⟨u, huuid, hother⟩
  · rw [hnone] at hentry
    cases hentry
  · rw [huuid i]
    exact hother entry hentry

/-- The delivery failed after its two attempts, and its replay starts over. -/
theorem failed_after_full_budget_replayed :
    let s := replayedAfterFailure.foldl (State.next twoAttempts) {}
    (∀ row ∈ s.db.webhooks, ¬ row.Finished →
        row.payload ≠ none ∧ row.attemptCount = (attempts row.id s.history).made) ∧
      s.db.webhooks.rows.map (fun row => (row.attemptCount, row.failedAt)) = [(0, none)] := by
  have hrun : Run (DispatchStep twoAttempts) (fun s e => ¬ s.RecordsStaleFailure e) {}
      (replayedAfterFailure.foldl (State.next twoAttempts) {}) := by
    apply Run.of_follows
    refine ⟨by decide, ⟨admits_call (by simp) (.inl rfl), rfl⟩,
      by decide, ⟨admits_call (by simp) (.inl rfl), rfl⟩,
      by decide, ⟨trivial, rfl⟩, by decide, ⟨trivial, rfl⟩, by decide, ⟨trivial, rfl⟩,
      by decide, ⟨trivial, rfl⟩, by decide, ⟨trivial, rfl⟩, by decide, ⟨trivial, rfl⟩,
      by decide, ⟨trivial, rfl⟩, by decide, ⟨trivial, rfl⟩,
      by decide, ⟨admits_call (by simp) (.inr ⟨_, fun _ => rfl, by decide⟩), rfl⟩, trivial⟩
  exact ⟨(failed_after_full_budget hrun).2.1, by decide⟩

/-- Replayed in flight, the delivery fails with no attempt made since the replay. -/
theorem replayed_in_flight_fails_early :
    ¬ ∀ (cfg : DispatcherConfig) (s : State), Reachable (fun s => s = {}) (DispatchStep cfg) s →
      ∀ row ∈ s.db.webhooks, row.failedAt ≠ none →
        cfg.maxAttempts ≤ (attempts row.id s.history).made ∨
          (attempts row.id s.history).gone = true := by
  intro hclaim
  have hrun : Reach (DispatchStep twoAttempts) {}
      (replayedInFlight.foldl (State.next twoAttempts) {}) := by
    apply Run.of_follows
    refine ⟨trivial, ⟨admits_call (by simp) (.inl rfl), rfl⟩,
      trivial, ⟨admits_call (by simp) (.inl rfl), rfl⟩,
      trivial, ⟨trivial, rfl⟩, trivial, ⟨trivial, rfl⟩, trivial, ⟨trivial, rfl⟩,
      trivial, ⟨trivial, rfl⟩, trivial, ⟨trivial, rfl⟩, trivial, ⟨trivial, rfl⟩,
      trivial, ⟨admits_call (by simp) (.inr ⟨_, fun _ => rfl, by decide⟩), rfl⟩,
      trivial, ⟨trivial, rfl⟩, trivial, ⟨trivial, rfl⟩, trivial⟩
  have hbudget := hclaim twoAttempts _ ⟨{}, rfl, hrun⟩
  have hspent : ∃ row ∈ (replayedInFlight.foldl (State.next twoAttempts) {}).db.webhooks.rows,
      row.failedAt ≠ none ∧
        (attempts row.id (replayedInFlight.foldl (State.next twoAttempts) {}).history).made = 0 ∧
        (attempts row.id (replayedInFlight.foldl (State.next twoAttempts) {}).history).gone =
          false := by
    decide
  obtain ⟨row, hrow, hfailed, hmade, hgone⟩ := hspent
  rcases hbudget row hrow hfailed with hmax | hanswer
  · rw [hmade] at hmax
    cases hmax
  · rw [hgone] at hanswer
    cases hanswer

end Webhooks
end ChatEngine
