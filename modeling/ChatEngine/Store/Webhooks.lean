import ChatEngine.Store.Rooms

/-!
# Outbox delivery, replay and retention

What the dispatcher and the operator do to the outbox, and the explicit
retention pass:

* `nextWebhookDelivery`, the due row that is tried next;
* `recordWebhookAttempt`, the outcome of one attempt;
* `retryWebhookDelivery`, the operator's replay;
* `runRetention`.
-/

namespace ChatEngine
namespace Store

open Lib
open Models

/-- Persisted delivery metadata; payloads are intentionally omitted. -/
structure WebhookDelivery where
  id : String
  eventType : EventType
  roomId : String
  createdAt : Timestamp
  attemptCount : Nat
  nextAttemptAt : Option Timestamp
  lastAttemptAt : Option Timestamp
  deliveredAt : Option Timestamp
  failedAt : Option Timestamp
  lastStatusCode : Option Int
  lastError : Option String
  replayable : Bool
  deriving DecidableEq

/-- `_webhook_from_row`. -/
def webhookFromRow (row : WebhookRow) : WebhookDelivery :=
  { id := row.id
    eventType := row.eventType
    roomId := row.roomId
    createdAt := row.createdAt
    attemptCount := row.attemptCount
    nextAttemptAt := row.nextAttemptAt
    lastAttemptAt := row.lastAttemptAt
    deliveredAt := row.deliveredAt
    failedAt := row.failedAt
    lastStatusCode := row.lastStatusCode
    lastError := row.lastError
    replayable := row.payload.isSome }

/-- One due outbox row with the payload to sign and send. -/
structure PendingWebhook where
  delivery : WebhookDelivery
  payload : WebhookEnvelope
  deriving DecidableEq

/-- A pending row with a payload whose next attempt is due. -/
def WebhookRow.Due (now : Timestamp) (r : WebhookRow) : Prop :=
  r.deliveredAt = none ∧ r.failedAt = none ∧ r.payload ≠ none ∧
    ∃ t ∈ r.nextAttemptAt, t ≤ now

instance (now : Timestamp) : DecidablePred (WebhookRow.Due now) := by
  intro r
  unfold WebhookRow.Due
  cases r.nextAttemptAt with
  | none => exact .isFalse (by simp)
  | some t =>
      exact decidable_of_iff
        (r.deliveredAt = none ∧ r.failedAt = none ∧ r.payload ≠ none ∧ t ≤ now) (by simp)

/-- `next_attempt_at, created_at, id` among due rows. -/
def dueOrder (a b : WebhookRow) : Prop :=
  a.nextAttemptAt.getD 0 < b.nextAttemptAt.getD 0 ∨
    (a.nextAttemptAt.getD 0 = b.nextAttemptAt.getD 0 ∧ webhookOldestFirst a b)

instance : DecidableRel dueOrder := fun a b => by
  unfold dueOrder
  infer_instance

/-- `_next_webhook_delivery_sync`. -/
def nextWebhookDelivery (now : Timestamp) (db : Database) : Option PendingWebhook :=
  match firstBy dueOrder 1 (db.webhooks.rows.filter fun r => r.Due now) with
  | [] => none
  | row :: _ => row.payload.map fun payload => { delivery := webhookFromRow row, payload := payload }

/-- The selected delivery is a due row of the outbox. -/
theorem nextWebhookDelivery_eq_some {now : Timestamp} {db : Database} {p : PendingWebhook}
    (h : nextWebhookDelivery now db = some p) :
    ∃ row ∈ db.webhooks, row.Due now ∧ row.payload = some p.payload ∧
      p.delivery = webhookFromRow row := by
  unfold nextWebhookDelivery at h
  split at h
  · cases h
  · rename_i row rest hfirst
    have hmem : row ∈ firstBy dueOrder 1 (db.webhooks.rows.filter fun r => r.Due now) := by
      rw [hfirst]
      exact List.mem_cons_self
    obtain ⟨hrow, hdue⟩ := List.mem_filter.mp (mem_of_mem_firstBy hmem)
    obtain ⟨payload, hpayload, rfl⟩ := Option.map_eq_some_iff.mp h
    exact ⟨row, hrow, of_decide_eq_true hdue, hpayload, rfl⟩

/-- The outcome of one delivery attempt. -/
structure WebhookAttempt where
  attemptedAt : Timestamp
  statusCode : Option Int
  error : Option String
  nextAttemptAt : Option Timestamp
  delivered : Bool
  failed : Bool
  deriving DecidableEq

/-- The `UPDATE` of `_record_webhook_attempt_sync`. -/
def WebhookRow.record (attempt : WebhookAttempt) (r : WebhookRow) : WebhookRow :=
  { r with
    attemptCount := r.attemptCount + 1
    nextAttemptAt := attempt.nextAttemptAt
    lastAttemptAt := some attempt.attemptedAt
    deliveredAt := if attempt.delivered = true then some attempt.attemptedAt else none
    failedAt := if attempt.failed = true then some attempt.attemptedAt else none
    lastStatusCode := attempt.statusCode
    lastError := attempt.error }

@[simp] theorem WebhookRow.record_id (attempt : WebhookAttempt) (r : WebhookRow) :
    (r.record attempt).id = r.id := rfl

/-- The row a record may touch: the delivery, while it is pending. -/
def recordable (deliveryId : String) (r : WebhookRow) : Prop :=
  r.id = deliveryId ∧ r.deliveredAt = none ∧ r.failedAt = none

instance (deliveryId : String) : DecidablePred (recordable deliveryId) := by
  intro r
  unfold recordable
  infer_instance

/-- The outbox after a recorded attempt. -/
def recordIn (deliveryId : String) (attempt : WebhookAttempt) (t : WebhookTable) : WebhookTable :=
  t.updateWhere (recordable deliveryId) (WebhookRow.record attempt) (WebhookRow.record_id attempt)

/-- `_record_webhook_attempt_sync`. -/
def recordWebhookAttempt (deliveryId : String) (attempt : WebhookAttempt) : StoreTx Unit := do
  Tx.require (¬ (attempt.delivered = true ∧ attempt.failed = true))
    (.value "a webhook attempt cannot be delivered and failed")
  let updated ← Tx.read fun db => db.webhooks.countWhere (recordable deliveryId)
  Tx.write fun db => { db with webhooks := recordIn deliveryId attempt db.webhooks }
  Tx.require (updated ≠ 0) (.webhookDeliveryNotFound deliveryId)

theorem recordWebhookAttempt_ok {deliveryId : String} {attempt : WebhookAttempt}
    {db db' : Database} {u : Unit}
    (h : Tx.Returns (recordWebhookAttempt deliveryId attempt) db u db') :
    ¬ (attempt.delivered = true ∧ attempt.failed = true) ∧
      (∃ row ∈ db.webhooks, recordable deliveryId row) ∧
      db' = { db with webhooks := recordIn deliveryId attempt db.webhooks } := by
  unfold recordWebhookAttempt at h
  simp only [Tx.returns_bind, Tx.returns_read, Tx.returns_require, Tx.returns_write] at h
  obtain ⟨_, _, ⟨hexclusive, rfl⟩, _, _, ⟨rfl, rfl⟩, _, _, rfl, hupdated, rfl⟩ := h
  refine ⟨hexclusive, ?_, rfl⟩
  obtain ⟨row, hrow⟩ := List.exists_mem_of_length_pos (Nat.pos_of_ne_zero hupdated)
  obtain ⟨hmem, hrecordable⟩ := List.mem_filter.mp hrow
  exact ⟨row, hmem, of_decide_eq_true hrecordable⟩

/-- The `UPDATE` of `_retry_webhook_delivery_sync`. -/
def WebhookRow.reset (now : Timestamp) (r : WebhookRow) : WebhookRow :=
  { r with
    attemptCount := 0
    nextAttemptAt := some now
    lastAttemptAt := none
    deliveredAt := none
    failedAt := none
    lastStatusCode := none
    lastError := none }

@[simp] theorem WebhookRow.reset_id (now : Timestamp) (r : WebhookRow) :
    (r.reset now).id = r.id := rfl

/-- The outbox after a replay. -/
def resetIn (deliveryId : String) (now : Timestamp) (t : WebhookTable) : WebhookTable :=
  t.updateWhere (fun r => r.id = deliveryId) (WebhookRow.reset now) (WebhookRow.reset_id now)

/-- `_retry_webhook_delivery_sync`. -/
def retryWebhookDelivery (rd : Readings) (deliveryId : String) : StoreTx WebhookDelivery := do
  let existing ← Tx.read fun db => db.webhooks.find? deliveryId
  let existing ← Tx.orRaise existing (.webhookDeliveryNotFound deliveryId)
  Tx.require (existing.payload ≠ none) (.webhookPayloadUnavailable deliveryId)
  Tx.write fun db => { db with webhooks := resetIn deliveryId (rd.now 0) db.webhooks }
  let row ← Tx.read fun db => db.webhooks.find? deliveryId
  let row ← Tx.orRaise row (.runtime "row is None")
  pure (webhookFromRow row)

theorem retryWebhookDelivery_ok {rd : Readings} {deliveryId : String} {db db' : Database}
    {delivery : WebhookDelivery}
    (h : Tx.Returns (retryWebhookDelivery rd deliveryId) db delivery db') :
    ∃ row ∈ db.webhooks, row.id = deliveryId ∧ row.payload ≠ none ∧
      delivery = webhookFromRow (row.reset (rd.now 0)) ∧
      db' = { db with webhooks := resetIn deliveryId (rd.now 0) db.webhooks } := by
  unfold retryWebhookDelivery at h
  simp only [Tx.returns_bind, Tx.returns_read, Tx.returns_orRaise, Tx.returns_require,
    Tx.returns_write, Tx.returns_pure] at h
  obtain ⟨_, _, ⟨rfl, rfl⟩, row, _, ⟨hfind, rfl⟩, _, _, ⟨hpayload, rfl⟩, _, _, rfl, _, _,
    ⟨rfl, rfl⟩, reread, _, ⟨hreread, rfl⟩, rfl, rfl⟩ := h
  obtain ⟨hmem, hid⟩ := Table.find?_eq_some.mp hfind
  refine ⟨row, hmem, hid, hpayload, ?_, rfl⟩
  have hreset : (resetIn deliveryId (rd.now 0) _).find? deliveryId = some reread := hreread
  unfold resetIn at hreset
  rw [Table.find?_updateWhere, hfind] at hreset
  simp only [Option.map_some, hid, if_true, Option.some.injEq] at hreset
  rw [hreset]

/-- `run_retention` with its `_run_retention_sync`; `now 0` is the cutoff's reading. -/
def runRetention (cfg : Config) (rd : Readings) (actor : String) : StoreTx (Nat × Timestamp) :=
  match retentionCutoff cfg (rd.now 0) with
  | none => Tx.raise (.retentionNotConfigured "message retention is not configured")
  | some cutoff => do
      let deleted ← deleteMessagesWithWebhookScrub (olderThan cutoff)
      insertAudit cfg (rd.uuid 0) (rd.now 1) .retentionExecuted actor none
        (.executed deleted cutoff)
      pure (deleted, cutoff)

theorem runRetention_ok {cfg : Config} {rd : Readings} {actor : String} {db db' : Database}
    {reply : Nat × Timestamp} (h : Tx.Returns (runRetention cfg rd actor) db reply db') :
    retentionCutoff cfg (rd.now 0) = some reply.2 ∧
      SameButAudit (db.removeBatch (olderThan reply.2 db)) db' := by
  unfold runRetention at h
  cases hcutoff : retentionCutoff cfg (rd.now 0) with
  | none => simp [hcutoff] at h
  | some cutoff =>
      simp only [hcutoff, Tx.returns_bind, Tx.returns_pure,
        returns_deleteMessagesWithWebhookScrub] at h
      obtain ⟨_, _, ⟨rfl, rfl⟩, _, _, haudit, rfl, rfl⟩ := h
      exact ⟨rfl, insertAudit_same haudit⟩

end Store
end ChatEngine
