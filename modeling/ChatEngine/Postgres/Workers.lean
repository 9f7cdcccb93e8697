import ChatEngine.Postgres.Privacy
import ChatEngine.Webhooks.Dispatcher

/-!
# Webhook workers over the PostgreSQL store

Any number of workers, each under a name of its own, claim due deliveries, send them over the
network and record the outcome.  The operator's replay and every other call of the store run
between these steps.

* `OutboxFrom`, what a call that is no claim, record or replay makes of the outbox and of its
  leases;
* `Workers.next`, the steps of the workers and of the store's other callers;
* `Leased`, the invariant: who holds a lease holds it from the claim it is working on, and the
  delivery has not been touched since;
* `worker_budget`, what every run guarantees of the outcomes that are recorded.
-/

namespace ChatEngine
namespace Postgres

open Lib
open Models
open Store
open Webhooks

/-! ## The outbox over a call -/

/-- The row was there before, perhaps scrubbed since, or is an event of the call. -/
def RowOf (rd : PgReadings) (t : WebhookTable) (w : WebhookRow) : Prop :=
  ScrubbedFrom t w ∨ ∃ i type roomId resourceId occurredAt data,
    w = webhookRow (rd.uuid i) type roomId resourceId occurredAt data

/-- The outbox is made of the rows of `base` and new ones, and no lease is new. -/
structure OutboxFrom (rd : PgReadings) (base db : PgDatabase) : Prop where
  rows : ∀ w ∈ db.webhooks, RowOf rd base.webhooks w
  leases : ∀ lease ∈ db.leases, lease ∈ base.leases

section Outbox

variable {cfg : PgConfig} {rd : PgReadings} {base db db' : PgDatabase}

theorem RowOf.old {t : WebhookTable} {w : WebhookRow} (h : w ∈ t) : RowOf rd t w := .inl (.inl h)

/-- A new row is pending, so no scrub takes its payload and leaves it. -/
theorem RowOf.trans {t t' : WebhookTable} {w : WebhookRow} (h : RowOf rd t' w)
    (h' : ∀ v ∈ t', RowOf rd t v) : RowOf rd t w := by
  rcases h with (hw | ⟨v, hv, hfinished, rfl⟩) | hnew
  · exact h' w hw
  · rcases h' v hv with (hold | ⟨u, hu, hufinished, rfl⟩) | ⟨i, _, _, _, _, _, rfl⟩
    · exact .inl (.inr ⟨v, hold, hfinished, rfl⟩)
    · exact .inl (.inr ⟨u, hu, hufinished, rfl⟩)
    · rcases hfinished with hdelivered | hfailed
      · cases hdelivered
      · cases hfailed
  · exact .inr hnew

theorem OutboxFrom.refl : OutboxFrom rd base base := ⟨fun _ => .old, fun _ => id⟩

theorem OutboxFrom.onward (h : OutboxFrom rd base db)
    (hrows : ∀ w ∈ db'.webhooks, RowOf rd db.webhooks w)
    (hleases : ∀ lease ∈ db'.leases, lease ∈ db.leases) : OutboxFrom rd base db' :=
  ⟨fun w hw => (hrows w hw).trans h.rows, fun lease hl => h.leases lease (hleases lease hl)⟩

/-- A statement on the shared tables. -/
theorem preserves_onTables {α : Type} {tx : StoreTx α}
    (h : ∀ d a d', Tx.Returns tx d a d' → ∀ w ∈ d'.webhooks, RowOf rd d.webhooks w) :
    Tx.Preserves (onTables tx) (OutboxFrom rd base) := by
  intro s a s' hrun hs
  obtain ⟨tables, htx, rfl⟩ := returns_onTables.mp hrun
  exact hs.onward (h _ _ _ htx) fun _ => id

/-- A statement that leaves the outbox of the shared tables alone. -/
theorem preserves_onTables_same {α : Type} {tx : StoreTx α}
    (h : ∀ d a d', Tx.Returns tx d a d' → d'.webhooks = d.webhooks) :
    Tx.Preserves (onTables tx) (OutboxFrom rd base) := by
  apply preserves_onTables
  intro d a d' hrun w hw
  rw [h d a d' hrun] at hw
  exact .old hw

/-- The calls of the shared store that are no record and no replay. -/
def Bystander : Command → Prop
  | .recordWebhookAttempt _ _ | .retryWebhookDelivery _ => False
  | _ => True

/-- A whole call of the shared store that is no record and no replay. -/
theorem preserves_onTables_call {α : Type} {tx : StoreTx α} {f : α → Reply} (cmd : Command)
    (htx : cmd.tx cfg.store rd.toReadings = f <$> tx) (hcmd : Bystander cmd) :
    Tx.Preserves (onTables tx) (OutboxFrom rd base) := by
  apply preserves_onTables
  intro d a d' hrun w hw
  have hcall : Tx.Returns (cmd.tx cfg.store rd.toReadings) d (f a) d' := by
    rw [htx]
    exact Tx.returns_map.mpr ⟨a, hrun, rfl⟩
  cases webhook_origin hcall hw with
  | kept hkept => exact .inl hkept
  | event i type roomId resourceId occurredAt data _ hnew =>
      exact .inr ⟨i, type, roomId, resourceId, occurredAt, data, hnew⟩
  | recorded v attempt _ _ hrecord _ =>
      subst hrecord
      exact hcmd.elim
  | reset v _ _ hretry _ =>
      subst hretry
      exact hcmd.elim

/-- A write that leaves the outbox alone. -/
theorem preserves_write_same {f : PgDatabase → PgDatabase}
    (hwebhooks : ∀ db, (f db).webhooks = db.webhooks) (hleases : ∀ db, (f db).leases = db.leases) :
    Tx.Preserves (Tx.write f : PgTx Unit) (OutboxFrom rd base) := by
  apply Tx.preserves_write
  intro db h
  refine h.onward ?_ ?_
  · intro w hw
    rw [hwebhooks] at hw
    exact .old hw
  · intro lease hlease
    rw [hleases] at hlease
    exact hlease

theorem preserves_scrubOutbox {p : WebhookRow → Prop} [DecidablePred p] :
    Tx.Preserves (Tx.write (PgDatabase.scrubOutbox p) : PgTx Unit) (OutboxFrom rd base) := by
  apply Tx.preserves_write
  intro db h
  refine h.onward ?_ ?_
  · intro w hw
    exact .inl (scrub_from hw)
  · intro lease hlease
    exact (Table.mem_deleteWhere.mp hlease).1

theorem preserves_validated {α : Type} {x : Except ValidationError α} :
    Tx.Preserves (onTables (validated x)) (OutboxFrom rd base) :=
  Tx.preserves_of_same fun _ _ _ h => (returns_onTables_validated.mp h).2

theorem preserves_requireMessage {roomId messageId : String} :
    Tx.Preserves (onTables (requireMessage roomId messageId)) (OutboxFrom rd base) :=
  Tx.preserves_of_same fun _ _ _ h => (returns_onTables_requireMessage.mp h).2

theorem preserves_insertPgAudit {id : UuidHex} {createdAt : Timestamp} {action : AuditAction}
    {actor : String} {roomId : Option String} {details : AuditDetails} :
    Tx.Preserves (insertPgAudit cfg id createdAt action actor roomId details)
      (OutboxFrom rd base) := by
  unfold insertPgAudit
  apply preserves_onTables_same
  intro d a d' h
  exact (insertAudit_same h).webhooks

theorem preserves_insertPgWebhook {i : Nat} {type : EventType} {roomId resourceId : String}
    {occurredAt : Timestamp} {data : WebhookData} :
    Tx.Preserves (insertPgWebhook cfg (rd.uuid i) type roomId resourceId occurredAt data)
      (OutboxFrom rd base) := by
  intro s a s' h hs
  obtain ⟨t, hgains, rfl⟩ := insertPgWebhook_ok h
  refine hs.onward ?_ fun _ => id
  intro w hw
  rcases hgains.mem hw with hold | ⟨-, hnew⟩
  · exact .old hold
  · exact .inr ⟨i, type, roomId, resourceId, occurredAt, data, hnew⟩

theorem preserves_updatePgMessage {messageId : String} {f : MessageRow → MessageRow}
    {hid : ∀ r, (f r).id = r.id} :
    Tx.Preserves (updatePgMessage cfg messageId f hid) (OutboxFrom rd base) := by
  unfold updatePgMessage
  refine Tx.preserves_read.bind fun checked => ?_
  refine Tx.preserves_require.bind fun _ => ?_
  have hwrite : Tx.Preserves
      (Tx.write (PgDatabase.rewriteMessage messageId f hid) : PgTx Unit) (OutboxFrom rd base) :=
    preserves_write_same (fun _ => rfl) fun _ => rfl
  refine hwrite.bind fun _ => ?_
  exact Tx.preserves_of_same fun _ _ _ h => (returns_onTables_rereadMessage.mp h).2

theorem preserves_scrubEvents {batch : List MessageRow} :
    Tx.Preserves (scrubEvents batch) (OutboxFrom rd base) :=
  preserves_write_same (fun _ => rfl) fun _ => rfl

theorem preserves_trimPass {select : Database → List MessageRow} :
    Tx.Preserves (trimPass select) (OutboxFrom rd base) := by
  unfold trimPass deletePgMessages
  refine Tx.Preserves.bind ?_ fun batch => preserves_scrubEvents.bind fun _ => Tx.preserves_pure
  refine Tx.preserves_read.bind fun batch => ?_
  have hwrite : Tx.Preserves (Tx.write fun db =>
      db.withTables (Database.deleteMessages (batch.map MessageRow.id) db.toDatabase) : PgTx Unit)
      (OutboxFrom rd base) :=
    preserves_write_same (fun _ => rfl) fun _ => rfl
  exact hwrite.bind fun _ => Tx.preserves_pure

theorem preserves_trimPgMessages {roomId : String} {now auditAt : Timestamp} {auditId : UuidHex} :
    Tx.Preserves (trimPgMessages cfg roomId now auditId auditAt) (OutboxFrom rd base) := by
  unfold trimPgMessages
  refine preserves_trimPass.bind fun aged => ?_
  refine preserves_trimPass.bind fun capped => ?_
  refine preserves_trimPass.bind fun overflow => ?_
  refine Tx.preserves_ite (fun _ => Tx.preserves_pure) fun _ => ?_
  exact preserves_insertPgAudit.bind fun _ => preserves_scrubOutbox

theorem preserves_requireOpenRoom {roomId : String} {allowFrozen : Bool} :
    Tx.Preserves (onTables (requireOpenRoom roomId allowFrozen)) (OutboxFrom rd base) :=
  Tx.preserves_of_same fun _ _ _ h => (returns_onTables_requireOpenRoom.mp h).2

theorem preserves_requireDeletableRoom {roomId : String} {isAdmin : Bool} :
    Tx.Preserves (onTables (requireDeletableRoom roomId isAdmin)) (OutboxFrom rd base) :=
  Tx.preserves_of_same fun _ _ _ h => (returns_onTables_requireDeletableRoom.mp h).2

theorem preserves_enforceMemberWrite {roomId : String} {subject : Option String}
    {now : Timestamp} :
    Tx.Preserves (onTables (enforceMemberWrite roomId subject now)) (OutboxFrom rd base) :=
  Tx.preserves_of_same fun _ _ _ h => (returns_onTables_enforceMemberWrite.mp h).2

/-! ### The stages -/

/-- The calls that are no claim, no record and no replay. -/
def PgCommand.Bystander : PgCommand → Prop
  | nextWebhookDelivery _ _ | recordWebhookAttempt _ _ _ | retryWebhookDelivery _ => False
  | _ => True

theorem begin_outbox {cmd : PgCommand} (hcmd : cmd.Bystander) :
    Tx.Preserves (cmd.begin cfg rd) (OutboxFrom rd base) := by
  cases cmd with
  | createRoom payload actor =>
      exact (preserves_onTables_call (.createRoom payload actor) rfl trivial).bind fun _ =>
        Tx.preserves_pure
  | setRoomState roomId archived frozen actor =>
      exact (preserves_onTables_call (.setRoomState roomId archived frozen actor) rfl
        trivial).bind fun _ => Tx.preserves_pure
  | deleteRoom roomId actor => exact Tx.preserves_of_same fun _ _ _ h => (deleteRoomBegin_ok h).1
  | prepareExport roomId actor =>
      exact (preserves_onTables_call (.recordExportRequested roomId actor) rfl trivial).bind
        fun _ => Tx.preserves_pure
  | createMessage args => exact Tx.preserves_of_same fun _ _ _ h => (createBegin_ok h).1
  | updateMessage args =>
      exact preserves_requireOpenRoom.bind fun _ => preserves_enforceMemberWrite.bind fun _ =>
        Tx.preserves_pure
  | deleteMessage args =>
      exact preserves_requireDeletableRoom.bind fun _ => preserves_enforceMemberWrite.bind
        fun _ => Tx.preserves_pure
  | setMessageReaction args =>
      exact preserves_requireOpenRoom.bind fun _ => preserves_enforceMemberWrite.bind fun _ =>
        Tx.preserves_pure
  | setMessagePin args =>
      exact preserves_requireOpenRoom.bind fun _ => preserves_enforceMemberWrite.bind fun _ =>
        Tx.preserves_pure
  | setMemberModeration roomId subject payload actor =>
      exact (preserves_onTables_call (.setMemberModeration roomId subject payload actor) rfl
        trivial).bind fun _ => Tx.preserves_pure
  | markRead roomId subject messageId =>
      exact (preserves_onTables_call (.markRead roomId subject messageId) rfl trivial).bind
        fun _ => Tx.preserves_pure
  | clearReadState roomId subject =>
      have hcall : Command.tx cfg.store rd.toReadings (.clearReadState roomId subject) =
          Reply.flag <$> Store.clearReadState roomId subject := rfl
      exact (preserves_onTables_call _ hcall trivial).bind fun _ => Tx.preserves_pure
  | runRetention actor => exact Tx.preserves_pure
  | pruneEvents sequences =>
      have hwrite : Tx.Preserves (Tx.write fun db => { db with
          events := db.events.deleteWhere fun e => e.sequence ∈ sequences } : PgTx Unit)
          (OutboxFrom rd base) :=
        preserves_write_same (fun _ => rfl) fun _ => rfl
      exact hwrite.bind fun _ => Tx.preserves_pure
  | notify roomId eventType => exact Tx.preserves_pure
  | nextWebhookDelivery worker skipped => exact hcmd.elim
  | recordWebhookAttempt worker deliveryId attempt => exact hcmd.elim
  | retryWebhookDelivery deliveryId => exact hcmd.elim

theorem preserves_changeReaction {args : SetMessageReaction} {now : Timestamp} :
    Tx.Preserves (onTables (changeReaction args now)) (OutboxFrom rd base) := by
  apply preserves_onTables_same
  intro d changed d' h
  rcases changeReaction_ok h with ⟨-, rfl, -⟩ | ⟨-, t, -, rfl⟩
  · rfl
  · rfl

theorem inRoom_outbox {cmd : PgCommand} :
    Tx.Preserves (cmd.inRoom cfg rd) (OutboxFrom rd base) := by
  cases cmd with
  | setMessageReaction args =>
      change Tx.Preserves (reactInRoom cfg rd args) _
      unfold reactInRoom refreshPgReactions
      refine preserves_requireMessage.bind fun row => Tx.preserves_require.bind fun _ => ?_
      refine preserves_changeReaction.bind fun changed => ?_
      refine Tx.preserves_ite (fun _ => ?_) fun _ => ?_
      · refine Tx.Preserves.bind ?_ fun message => ?_
        · exact Tx.preserves_read.bind fun _ => preserves_validated.bind fun _ =>
            preserves_updatePgMessage
        · exact preserves_validated.bind fun mutation => preserves_insertPgWebhook.bind fun _ =>
            Tx.preserves_pure
      · exact preserves_validated.bind fun _ => preserves_validated.bind fun _ =>
          Tx.preserves_pure
  | setMessagePin args =>
      change Tx.Preserves (pinInRoom cfg rd args) _
      unfold pinInRoom
      refine preserves_requireMessage.bind fun row => Tx.preserves_require.bind fun _ => ?_
      refine Tx.preserves_ite (fun _ => ?_) fun _ => ?_
      · exact preserves_updatePgMessage.bind fun _ => preserves_insertPgAudit.bind fun _ =>
          preserves_validated.bind fun _ => preserves_insertPgWebhook.bind fun _ =>
            Tx.preserves_pure
      · exact preserves_validated.bind fun _ => preserves_validated.bind fun _ =>
          Tx.preserves_pure
  | _ => exact Tx.preserves_pure

theorem deleteCapped_outbox {args : DeleteMessage} :
    Tx.Preserves (deleteCapped cfg rd args) (OutboxFrom rd base) := by
  unfold deleteCapped deletePgLive
  refine preserves_requireMessage.bind fun row => Tx.preserves_require.bind fun _ => ?_
  refine Tx.preserves_ite (fun _ => preserves_validated.bind fun _ => Tx.preserves_pure)
    fun _ => ?_
  have hdrop : Tx.Preserves (Tx.write (PgDatabase.dropReactionsOf args.messageId) : PgTx Unit)
      (OutboxFrom rd base) :=
    preserves_write_same (fun _ => rfl) fun _ => rfl
  refine hdrop.bind fun _ => preserves_updatePgMessage.bind fun message => ?_
  refine preserves_scrubEvents.bind fun _ => preserves_insertPgAudit.bind fun _ => ?_
  exact preserves_scrubOutbox.bind fun _ => preserves_insertPgWebhook.bind fun _ =>
    Tx.preserves_pure

theorem capped_outbox {cmd : PgCommand} :
    Tx.Preserves (cmd.capped cfg rd) (OutboxFrom rd base) := by
  cases cmd with
  | createMessage args =>
      change Tx.Preserves (createCapped cfg rd args) _
      unfold createCapped
      have hinsert : Tx.Preserves (insertPgMessage cfg (newPgRow args (rd.uuid 0) (rd.now 1)))
          (OutboxFrom rd base) := by
        intro s a s' h hs
        obtain ⟨-, -, inserted, -, rfl⟩ := returns_insertPgMessage.mp h
        exact hs.onward (fun _ => .old) fun _ => id
      have hparent : Tx.Preserves (onTables (requireParent args.roomId args.parentMessageId))
          (OutboxFrom rd base) :=
        Tx.preserves_of_same fun _ _ _ h => (returns_onTables_requireParent.mp h).2
      refine hparent.bind fun _ => hinsert.bind fun _ => preserves_validated.bind fun _ => ?_
      refine preserves_trimPgMessages.bind fun _ => Tx.preserves_read.bind fun _ => ?_
      exact Tx.preserves_orRaise.bind fun _ => preserves_validated.bind fun _ =>
        preserves_insertPgWebhook.bind fun _ => Tx.preserves_pure
  | updateMessage args =>
      change Tx.Preserves (updateCapped cfg rd args) _
      unfold updateCapped
      refine preserves_requireMessage.bind fun row => Tx.preserves_require.bind fun _ => ?_
      refine Tx.preserves_require.bind fun _ => preserves_updatePgMessage.bind fun _ => ?_
      exact preserves_insertPgAudit.bind fun _ => preserves_insertPgWebhook.bind fun _ =>
        Tx.preserves_pure
  | deleteMessage args => exact deleteCapped_outbox
  | deleteRoom roomId actor =>
      change Tx.Preserves (deleteRoomCapped cfg rd roomId actor) _
      unfold deleteRoomCapped
      have hdelete : Tx.Preserves (Tx.write fun db =>
          db.withTables (db.toDatabase.deleteRoom roomId) : PgTx Unit) (OutboxFrom rd base) :=
        preserves_write_same (fun _ => rfl) fun _ => rfl
      refine Tx.preserves_read.bind fun batch => preserves_scrubEvents.bind fun _ => ?_
      exact preserves_insertPgAudit.bind fun _ => preserves_scrubOutbox.bind fun _ =>
        hdelete.bind fun _ => Tx.preserves_pure
  | runRetention actor =>
      change Tx.Preserves (retentionCapped cfg rd actor) _
      unfold retentionCapped
      cases retentionCutoff cfg.store (rd.now 0) with
      | none => exact Tx.preserves_raise
      | some cutoff =>
          exact preserves_trimPass.bind fun _ => preserves_insertPgAudit.bind fun _ =>
            preserves_scrubOutbox.bind fun _ => Tx.preserves_pure
  | _ => exact Tx.preserves_raise

/-- The stage is past the start of its transaction. -/
def Stage.Started : Stage → Prop
  | begin _ => False
  | _ => True

theorem begin_starts {cmd : PgCommand} : Tx.Yields (cmd.begin cfg rd) Stage.Started := by
  cases cmd with
  | createMessage args =>
      intro s stage s' h
      rcases (createBegin_ok h).2.2 with ⟨row, m, -, -, rfl⟩ | ⟨-, rfl⟩ <;> trivial
  | updateMessage args | deleteMessage args | setMessageReaction args | setMessagePin args =>
      exact .bind fun _ => .bind fun _ => Tx.yields_pure trivial
  | deleteRoom roomId actor =>
      intro s stage s' h
      obtain ⟨-, rfl⟩ := deleteRoomBegin_ok h
      trivial
  | nextWebhookDelivery worker skipped =>
      refine .bind fun candidate => ?_
      cases candidate with
      | none => exact Tx.yields_pure trivial
      | some row => exact .bind fun _ => Tx.yields_pure trivial
  | recordWebhookAttempt worker deliveryId attempt =>
      exact .bind fun _ => .bind fun _ => .bind fun _ => .bind fun _ => .bind fun _ =>
        Tx.yields_pure trivial
  | retryWebhookDelivery deliveryId => exact .bind fun _ => .bind fun _ => Tx.yields_pure trivial
  | runRetention _ | notify _ _ => exact Tx.yields_pure trivial
  | _ => exact .bind fun _ => Tx.yields_pure trivial

theorem inRoom_starts {cmd : PgCommand} : Tx.Yields (cmd.inRoom cfg rd) Stage.Started := by
  cases cmd with
  | setMessageReaction args =>
      intro s stage s' h
      obtain ⟨_, _, -, -, ⟨-, -, -, rfl⟩ | ⟨-, rfl, -⟩⟩ := reactInRoom_ok h <;> trivial
  | setMessagePin args =>
      intro s stage s' h
      obtain ⟨_, _, -, -, ⟨-, -, -, rfl⟩ | ⟨-, rfl, -⟩⟩ := pinInRoom_ok h <;> trivial
  | _ => exact Tx.yields_pure trivial

theorem capped_starts {cmd : PgCommand} : Tx.Yields (cmd.capped cfg rd) Stage.Started := by
  cases cmd with
  | createMessage args =>
      intro s stage s' h
      obtain ⟨m, rfl, -⟩ := createCapped_ok h
      trivial
  | updateMessage args =>
      intro s stage s' h
      obtain ⟨row, m, -, -, -, rfl, -⟩ := updateCapped_ok h
      trivial
  | deleteMessage args =>
      intro s stage s' h
      obtain ⟨row, m, -, ⟨-, -, -, rfl⟩ | ⟨-, -, rfl, -⟩⟩ := deleteCapped_ok h <;> trivial
  | deleteRoom roomId actor =>
      intro s stage s' h
      obtain ⟨audited, rfl, -⟩ := deleteRoomCapped_ok h
      trivial
  | runRetention actor =>
      intro s stage s' h
      obtain ⟨batch, reply, rfl, -⟩ := retentionCapped_ok h
      trivial
  | _ => exact Tx.yields_raise

/-- A bystander's transaction leaves the outbox with old rows, scrubbed ones and new events, and
hands out no lease. -/
theorem call_outbox {cmd : PgCommand} {reply : PgReply} (hcmd : cmd.Bystander)
    (h : Tx.Returns (runStages cfg rd cmd) base reply db') : OutboxFrom rd base db' := by
  have hstage : ∀ stage db stage' db',
      (∀ cmd, stage = .begin cmd → cmd.Bystander) ∧ OutboxFrom rd base db →
      Tx.Returns (Stage.body cfg rd stage) db stage' db' →
      (∀ cmd, stage' = .begin cmd → cmd.Bystander) ∧ OutboxFrom rd base db' := by
    rintro stage db stage' db' ⟨hbystander, hdb⟩ hbody
    have hnext : stage'.Started ∧ OutboxFrom rd base db' := by
      cases stage with
      | begin cmd =>
          exact ⟨begin_starts _ _ _ hbody, begin_outbox (hbystander cmd rfl) _ _ _ hbody hdb⟩
      | inRoom cmd => exact ⟨inRoom_starts _ _ _ hbody, inRoom_outbox _ _ _ hbody hdb⟩
      | capped cmd => exact ⟨capped_starts _ _ _ hbody, capped_outbox _ _ _ hbody hdb⟩
      | announce events reply =>
          obtain ⟨_, t, happend, hpure⟩ := Tx.returns_bind.mp hbody
          obtain ⟨rfl, rfl⟩ := Tx.returns_pure.mp hpure
          obtain ⟨htables, hleases, -⟩ := appendEvents_ok happend
          refine ⟨trivial, hdb.onward ?_ ?_⟩
          · intro w hw
            rw [htables] at hw
            exact .old hw
          · rw [hleases]
            exact fun _ => id
      | commit reply =>
          obtain ⟨rfl, rfl⟩ := Tx.returns_pure.mp hbody
          exact ⟨trivial, hdb⟩
    refine ⟨?_, hnext.2⟩
    rintro cmd rfl
    exact hnext.1.elim
  have hbegin : ∀ cmd', Stage.begin cmd = .begin cmd' → cmd'.Bystander := by
    rintro cmd' ⟨⟩
    exact hcmd
  have hlast := runStages_invariant hstage ⟨hbegin, .refl⟩ h
  exact hlast.2

end Outbox

/-! ## The claim, the record and the replay -/

section Claims

variable {cfg : PgConfig} {rd : PgReadings} {db db' : PgDatabase}

/-- A call that is over after its first stage. -/
theorem returns_runStages_of_commit {cmd : PgCommand} {reply : PgReply}
    (hcommit : ∀ stage t, Tx.Returns (cmd.begin cfg rd) db stage t → ∃ r, stage = .commit r) :
    Tx.Returns (runStages cfg rd cmd) db reply db' ↔
      Tx.Returns (cmd.begin cfg rd) db (.commit reply) db' := by
  unfold runStages
  simp only [Tx.returns_bind]
  constructor
  · rintro ⟨stage, t, hbegin, rest⟩
    obtain ⟨r, rfl⟩ := hcommit stage t hbegin
    obtain ⟨_, _, h₂, _, _, h₃, _, _, h₄, h₅⟩ := rest
    obtain ⟨rfl, rfl⟩ := Tx.returns_pure.mp h₂
    obtain ⟨rfl, rfl⟩ := Tx.returns_pure.mp h₃
    obtain ⟨rfl, rfl⟩ := Tx.returns_pure.mp h₄
    obtain ⟨rfl, rfl⟩ := Tx.returns_pure.mp h₅
    exact hbegin
  · intro hbegin
    have hlast : Tx.Returns (Stage.body cfg rd (.commit reply)) db' (.commit reply) db' :=
      Tx.returns_pure.mpr ⟨rfl, rfl⟩
    exact ⟨_, _, hbegin, _, _, hlast, _, _, hlast, _, _, hlast, Tx.returns_pure.mpr ⟨rfl, rfl⟩⟩

/-- What a claim takes: a due row nobody holds a live lease on. -/
theorem claimCandidate_eq_some {now : Timestamp} {skipped : List String} {row : WebhookRow}
    (h : claimCandidate now skipped db = some row) :
    row ∈ db.webhooks ∧ row.Due now ∧ db.Unleased now row.id := by
  unfold claimCandidate at h
  have hin := mem_of_mem_firstBy (List.mem_of_mem_head? h)
  obtain ⟨hrow, hclaimable⟩ := List.mem_filter.mp hin
  obtain ⟨hdue, hunleased, -⟩ := of_decide_eq_true hclaimable
  exact ⟨hrow, hdue, hunleased⟩

/-- A claim finds a row whenever there is one to take. -/
theorem claimCandidate_ne_none {now : Timestamp} {skipped : List String} {row : WebhookRow}
    (hrow : row ∈ db.webhooks) (hdue : row.Due now) (hunleased : db.Unleased now row.id)
    (hskipped : row.id ∉ skipped) : claimCandidate now skipped db ≠ none := by
  unfold claimCandidate
  intro hnone
  have hin : row ∈ db.webhooks.rows.filter fun r =>
      r.Due now ∧ db.Unleased now r.id ∧ r.id ∉ skipped :=
    List.mem_filter.mpr ⟨hrow, decide_eq_true ⟨hdue, hunleased, hskipped⟩⟩
  have hempty : firstBy dueOrder 1 (db.webhooks.rows.filter fun r =>
      r.Due now ∧ db.Unleased now r.id ∧ r.id ∉ skipped) = [] := List.head?_eq_none_iff.mp hnone
  have hlt : (firstBy dueOrder 1 (db.webhooks.rows.filter fun r =>
      r.Due now ∧ db.Unleased now r.id ∧ r.id ∉ skipped)).length < 1 := by
    rw [hempty]
    exact Nat.one_pos
  have hmem := mem_firstBy_of_length_lt hlt hin
  rw [hempty] at hmem
  cases hmem

/-- The lease a claim takes. -/
def claimLease (cfg : PgConfig) (rd : PgReadings) (worker deliveryId : String) : WebhookLease :=
  { deliveryId := deliveryId, owner := worker,
    expiresAt := rd.now 1 + seconds cfg.webhookLeaseSeconds }

theorem claim_commits {worker : String} {skipped : List String} {stage : Stage}
    (h : Tx.Returns ((PgCommand.nextWebhookDelivery worker skipped).begin cfg rd) db stage db') :
    ∃ reply, stage = .commit reply := by
  obtain ⟨candidate, _, -, hrest⟩ := Tx.returns_bind.mp h
  cases candidate with
  | none => exact ⟨_, (Tx.returns_pure.mp hrest).1⟩
  | some row =>
      obtain ⟨_, _, -, hpure⟩ := Tx.returns_bind.mp hrest
      exact ⟨_, (Tx.returns_pure.mp hpure).1⟩

/-- A claim takes nothing, or leases one due row and hands it out. -/
theorem claim_ok {worker : String} {skipped : List String} {reply : PgReply}
    (h : Tx.Returns (runStages cfg rd (.nextWebhookDelivery worker skipped)) db reply db') :
    (claimCandidate (rd.now 0) skipped db = none ∧ reply = .pending none ∧ db' = db) ∨
      ∃ row payload, claimCandidate (rd.now 0) skipped db = some row ∧
        row ∈ db.webhooks ∧ row.Due (rd.now 0) ∧ row.payload = some payload ∧
        reply = .pending (some { delivery := webhookFromRow row, payload := payload }) ∧
        db' = { db with leases := db.leases.upsert (claimLease cfg rd worker row.id) } := by
  have hbegin := (returns_runStages_of_commit fun _ _ => claim_commits).mp h
  obtain ⟨candidate, _, hread, hrest⟩ := Tx.returns_bind.mp hbegin
  obtain ⟨hcandidate, rfl⟩ := Tx.returns_read.mp hread
  cases candidate with
  | none =>
      obtain ⟨hreply, rfl⟩ := Tx.returns_pure.mp hrest
      exact .inl ⟨hcandidate.symm, Stage.commit.inj hreply, rfl⟩
  | some row =>
      obtain ⟨_, _, hwrite, hpure⟩ := Tx.returns_bind.mp hrest
      obtain ⟨hreply, rfl⟩ := Tx.returns_pure.mp hpure
      obtain ⟨hrow, hdue, -⟩ := claimCandidate_eq_some hcandidate.symm
      obtain ⟨payload, hpayload⟩ := Option.ne_none_iff_exists'.mp hdue.2.2.1
      rw [hpayload] at hreply
      exact .inr ⟨row, payload, hcandidate.symm, hrow, hdue, hpayload, Stage.commit.inj hreply,
        Tx.returns_write.mp hwrite⟩

/-- A claim never fails. -/
theorem claim_returns (cfg : PgConfig) (rd : PgReadings) (db : PgDatabase) (worker : String)
    (skipped : List String) :
    ∃ reply db', Tx.Returns (runStages cfg rd (.nextWebhookDelivery worker skipped)) db reply
      db' := by
  have hbegin : ∃ stage db', Tx.Returns
      ((PgCommand.nextWebhookDelivery worker skipped).begin cfg rd) db stage db' := by
    cases hcandidate : claimCandidate (rd.now 0) skipped db with
    | none =>
        exact ⟨_, _, Tx.returns_bind.mpr ⟨none, db, Tx.returns_read.mpr ⟨hcandidate.symm, rfl⟩,
          Tx.returns_pure.mpr ⟨rfl, rfl⟩⟩⟩
    | some row =>
        exact ⟨_, _, Tx.returns_bind.mpr ⟨some row, db, Tx.returns_read.mpr ⟨hcandidate.symm, rfl⟩,
          Tx.returns_bind.mpr ⟨(), _, Tx.returns_write.mpr rfl,
            Tx.returns_pure.mpr ⟨rfl, rfl⟩⟩⟩⟩
  obtain ⟨stage, db', hrun⟩ := hbegin
  obtain ⟨reply, rfl⟩ := claim_commits hrun
  exact ⟨reply, db', (returns_runStages_of_commit fun _ _ => claim_commits).mpr hrun⟩

/-- The outbox with an outcome recorded, and the lease gone. -/
def PgDatabase.recorded (deliveryId : String) (attempt : WebhookAttempt) (db : PgDatabase) :
    PgDatabase :=
  { db with
    webhooks := recordIn deliveryId attempt db.webhooks
    leases := db.leases.deleteWhere fun lease => lease.deliveryId = deliveryId }

/-- The outbox with a delivery reset, and the lease gone. -/
def PgDatabase.replayed (deliveryId : String) (now : Timestamp) (db : PgDatabase) : PgDatabase :=
  { db with
    webhooks := resetIn deliveryId now db.webhooks
    leases := db.leases.deleteWhere fun lease => lease.deliveryId = deliveryId }

/-- An accepted outcome: the worker holds a live lease, and loses it. -/
theorem record_ok {worker deliveryId : String} {attempt : WebhookAttempt} {reply : PgReply}
    (h : Tx.Returns (runStages cfg rd (.recordWebhookAttempt worker deliveryId attempt)) db reply
      db') :
    (∃ lease ∈ db.leases, lease.deliveryId = deliveryId ∧ lease.owner = worker) ∧
      (∃ row ∈ db.webhooks, recordable deliveryId row) ∧
      db' = db.recorded deliveryId (WebhookAttempt.atDatabase (rd.now 0) attempt) := by
  have hcommit : ∀ stage t, Tx.Returns
      ((PgCommand.recordWebhookAttempt worker deliveryId attempt).begin cfg rd) db stage t →
      ∃ r, stage = .commit r := by
    intro stage t hbegin
    simp only [PgCommand.begin, recordClaimed, Tx.returns_bind, Tx.returns_pure] at hbegin
    obtain ⟨_, _, -, _, _, -, _, _, -, _, _, -, _, _, -, rfl, -⟩ := hbegin
    exact ⟨_, rfl⟩
  have hbegin := (returns_runStages_of_commit hcommit).mp h
  simp only [PgCommand.begin, recordClaimed, Tx.returns_bind, Tx.returns_require, Tx.returns_read,
    Tx.returns_write, Tx.returns_pure] at hbegin
  obtain ⟨_, _, ⟨-, rfl⟩, _, _, ⟨rfl, rfl⟩, _, _, ⟨hleased, rfl⟩, _, _, hrecord, _, _, rfl, -,
    rfl⟩ := hbegin
  obtain ⟨tables, hok, rfl⟩ := returns_onTables.mp hrecord
  obtain ⟨-, hrow, rfl⟩ := recordWebhookAttempt_ok hok
  obtain ⟨lease, hlease, howner, -⟩ := of_decide_eq_true hleased
  obtain ⟨hmem, hid⟩ := Table.find?_eq_some.mp hlease
  exact ⟨⟨lease, hmem, hid, howner⟩, hrow, rfl⟩

/-- An accepted replay resets the row and takes the lease away. -/
theorem retry_ok {deliveryId : String} {reply : PgReply}
    (h : Tx.Returns (runStages cfg rd (.retryWebhookDelivery deliveryId)) db reply db') :
    ∃ row ∈ db.webhooks, row.id = deliveryId ∧ row.payload ≠ none ∧
      db' = db.replayed deliveryId (rd.now 0) := by
  have hcommit : ∀ stage t, Tx.Returns
      ((PgCommand.retryWebhookDelivery deliveryId).begin cfg rd) db stage t →
      ∃ r, stage = .commit r := by
    intro stage t hbegin
    simp only [PgCommand.begin, retryClaimed, Tx.returns_bind, Tx.returns_pure] at hbegin
    obtain ⟨_, _, -, _, _, -, rfl, -⟩ := hbegin
    exact ⟨_, rfl⟩
  have hbegin := (returns_runStages_of_commit hcommit).mp h
  simp only [PgCommand.begin, retryClaimed, Tx.returns_bind, Tx.returns_write,
    Tx.returns_pure] at hbegin
  obtain ⟨_, _, hretry, _, _, rfl, -, rfl⟩ := hbegin
  obtain ⟨tables, hok, rfl⟩ := returns_onTables.mp hretry
  obtain ⟨row, hrow, hid, hpayload, -, rfl⟩ := retryWebhookDelivery_ok hok
  exact ⟨row, hrow, hid, hpayload, rfl⟩

end Claims

/-! ## The workers and the store's other callers -/

/-- What the instances were configured with: each has a name of its own. -/
structure WorkersConfig where
  pg : PgConfig
  maxAttempts : Nat
  digest : String → Nat → Fin 65536
  worker : Nat → String
  worker_injective : Function.Injective worker

/-- The dispatcher every instance runs. -/
def WorkersConfig.dispatcher (cfg : WorkersConfig) : DispatcherConfig where
  store := cfg.pg.store
  maxAttempts := cfg.maxAttempts
  digest := cfg.digest

/-- The database, where each worker stands in `_process_due_once`, and the history of the
deliveries. -/
structure Workers where
  db : PgDatabase := {}
  stages : Nat → Webhooks.Stage := fun _ => .idle
  history : List Entry := []

/-- The steps: a worker's own, its being stopped, cancelled or restarted at any point, and a call
of the store by anyone else. -/
inductive WorkerEvent where
  | claim (i : Nat) (rd : PgReadings) (skipped : List String) (attemptedAt : Timestamp)
  | send (i : Nat)
  | answer (i : Nat) (result : WebhookAttemptResult)
  | abandon (i : Nat)
  | record (i : Nat) (rd : PgReadings)
  | call (rd : PgReadings) (cmd : PgCommand)

/-- The entry an accepted replay leaves in the history. -/
def pgReplayNote : PgCommand → Except StoreError PgReply → List Entry
  | .retryWebhookDelivery deliveryId, .ok _ => [.replayed deliveryId]
  | _, _ => []

/-- `next_webhook_delivery`. -/
def Workers.claim (cfg : WorkersConfig) (i : Nat) (rd : PgReadings) (skipped : List String)
    (attemptedAt : Timestamp) (s : Workers) : Workers :=
  match s.stages i with
  | .idle =>
      match pgExec cfg.pg rd (.nextWebhookDelivery (cfg.worker i) skipped) s.db with
      | (.ok (.pending (some pending)), db) =>
          { db := db
            stages := Function.update s.stages i (.selected pending attemptedAt)
            history := .selected pending.delivery.id :: s.history }
      | (_, db) => { s with db := db }
  | _ => s

/-- The request goes out. -/
def Workers.send (i : Nat) (s : Workers) : Workers :=
  match s.stages i with
  | .selected pending attemptedAt =>
      { s with
        stages := Function.update s.stages i (.sending pending attemptedAt)
        history := .sent pending.delivery.id :: s.history }
  | _ => s

/-- The request has its result. -/
def Workers.answer (i : Nat) (result : WebhookAttemptResult) (s : Workers) : Workers :=
  match s.stages i with
  | .sending pending attemptedAt =>
      { s with stages := Function.update s.stages i (.answered pending attemptedAt result) }
  | _ => s

/-- The worker is idle again. -/
def Workers.abandon (i : Nat) (s : Workers) : Workers :=
  { s with stages := Function.update s.stages i .idle }

/-- `record_webhook_attempt`; an outcome the store does not take is dropped. -/
def Workers.record (cfg : WorkersConfig) (i : Nat) (rd : PgReadings) (s : Workers) : Workers :=
  match s.stages i with
  | .answered pending attemptedAt result =>
      match pgExec cfg.pg rd (.recordWebhookAttempt (cfg.worker i) pending.delivery.id
          (cfg.dispatcher.attempt pending attemptedAt result)) s.db with
      | (.ok _, db) =>
          { db := db
            stages := Function.update s.stages i .idle
            history := .recorded pending.delivery.id result.statusCode :: s.history }
      | (.error _, _) => s.abandon i
  | _ => s

/-- A call of the store. -/
def Workers.call (cfg : WorkersConfig) (rd : PgReadings) (cmd : PgCommand) (s : Workers) :
    Workers :=
  let outcome := pgExec cfg.pg rd cmd s.db
  { s with db := outcome.2, history := pgReplayNote cmd outcome.1 ++ s.history }

/-- The state after an event. -/
def Workers.next (cfg : WorkersConfig) (s : Workers) : WorkerEvent → Workers
  | .claim i rd skipped attemptedAt => s.claim cfg i rd skipped attemptedAt
  | .send i => s.send i
  | .answer i result => s.answer i result
  | .abandon i => s.abandon i
  | .record i rd => s.record cfg i rd
  | .call rd cmd => s.call cfg rd cmd

/-- Only the workers claim and record, and `uuid4` does not draw the id of a delivery that was
already claimed. -/
def Workers.Admits (s : Workers) : WorkerEvent → Prop
  | .call rd cmd =>
      (cmd.Bystander ∨ ∃ deliveryId, cmd = .retryWebhookDelivery deliveryId) ∧
        ∀ i, ∀ entry ∈ s.history, entry.deliveryId ≠ "wh_" ++ (rd.uuid i).text
  | _ => True

/-- One step of the workers and the store. -/
def WorkerStep (cfg : WorkersConfig) (s : Workers) (e : WorkerEvent) (s' : Workers) : Prop :=
  s.Admits e ∧ s.next cfg e = s'

section Workers

variable {cfg : WorkersConfig} {s s' : Workers} {i : Nat}

/-! ### What each step does -/

/-- A claim changes nothing, or leases one due row. -/
theorem claim_cases (cfg : WorkersConfig) (s : Workers) (i : Nat) (rd : PgReadings)
    (skipped : List String) (attemptedAt : Timestamp) :
    (s.claim cfg i rd skipped attemptedAt = s ∧
        (s.stages i = .idle → claimCandidate (rd.now 0) skipped s.db = none)) ∨
      ∃ row payload, s.stages i = .idle ∧ row ∈ s.db.webhooks ∧ row.Due (rd.now 0) ∧
        s.claim cfg i rd skipped attemptedAt =
          { db := { s.db with
              leases := s.db.leases.upsert (claimLease cfg.pg rd (cfg.worker i) row.id) }
            stages := Function.update s.stages i
              (.selected { delivery := webhookFromRow row, payload := payload } attemptedAt)
            history := .selected row.id :: s.history } := by
  unfold Workers.claim
  cases hstage : s.stages i with
  | idle =>
      dsimp only
      obtain ⟨reply, db, hok⟩ := claim_returns cfg.pg rd s.db (cfg.worker i) skipped
      unfold pgExec
      rw [Tx.returns_atomically.mpr hok]
      rcases claim_ok hok with ⟨hnone, rfl, rfl⟩ | ⟨row, payload, -, hrow, hdue, -, rfl, rfl⟩
      · exact .inl ⟨rfl, fun _ => hnone⟩
      · exact .inr ⟨row, payload, rfl, hrow, hdue, rfl⟩
  | _ => exact .inl ⟨rfl, by rintro ⟨⟩⟩

/-- Recording an outcome: by the holder of the lease, or nowhere. -/
theorem record_cases (cfg : WorkersConfig) (s : Workers) (i : Nat) (rd : PgReadings) :
    (s.record cfg i rd = s ∨ s.record cfg i rd = s.abandon i) ∨
      ∃ pending attemptedAt result, s.stages i = .answered pending attemptedAt result ∧
        (∃ lease ∈ s.db.leases, lease.deliveryId = pending.delivery.id ∧
          lease.owner = cfg.worker i) ∧
        (∃ row ∈ s.db.webhooks, recordable pending.delivery.id row) ∧
        s.record cfg i rd =
          { db := s.db.recorded pending.delivery.id (WebhookAttempt.atDatabase (rd.now 0)
              (cfg.dispatcher.attempt pending attemptedAt result))
            stages := Function.update s.stages i .idle
            history := .recorded pending.delivery.id result.statusCode :: s.history } := by
  unfold Workers.record
  cases hstage : s.stages i with
  | answered pending attemptedAt result =>
      dsimp only
      unfold pgExec
      rcases Tx.atomically_cases (runStages cfg.pg rd (.recordWebhookAttempt (cfg.worker i)
          pending.delivery.id (cfg.dispatcher.attempt pending attemptedAt result))) s.db with
        ⟨e, herror⟩ | ⟨reply, db, hok, hrun⟩
      · rw [herror]
        exact .inl (.inr rfl)
      · rw [hrun]
        obtain ⟨hlease, hrow, rfl⟩ := record_ok hok
        exact .inr ⟨pending, attemptedAt, result, rfl, hlease, hrow, rfl⟩
  | _ => exact .inl (.inl rfl)

/-- A call of another party: rolled back, a replay, or a bystander's change of the outbox. -/
theorem call_cases (cfg : WorkersConfig) (s : Workers) {rd : PgReadings} {cmd : PgCommand}
    (hadmits : s.Admits (.call rd cmd)) :
    (s.call cfg rd cmd = s) ∨
      (∃ row ∈ s.db.webhooks, row.payload ≠ none ∧
        s.call cfg rd cmd =
          { s with
            db := s.db.replayed row.id (rd.now 0)
            history := .replayed row.id :: s.history }) ∨
      ∃ db, OutboxFrom rd s.db db ∧ s.call cfg rd cmd = { s with db := db } := by
  unfold Workers.call pgExec
  rcases Tx.atomically_cases (runStages cfg.pg rd cmd) s.db with
    ⟨e, herror⟩ | ⟨reply, db, hok, hrun⟩
  · left
    rw [herror]
    cases cmd <;> rfl
  · rw [hrun]
    rcases hadmits.1 with hbystander | ⟨deliveryId, rfl⟩
    · have hquiet : pgReplayNote cmd (.ok reply) = [] := by
        cases cmd with
        | retryWebhookDelivery deliveryId => exact hbystander.elim
        | _ => rfl
      right
      right
      refine ⟨db, call_outbox hbystander hok, ?_⟩
      dsimp only
      rw [hquiet]
      rfl
    · obtain ⟨row, hrow, rfl, hpayload, rfl⟩ := retry_ok hok
      exact .inr (.inl ⟨row, hrow, hpayload, rfl⟩)

/-! ### The invariant -/

/-- What holds of the outbox and the workers in every run: a row counts the attempts made since
its last replay, a failed one has used its budget or met a 410, a pending one is still scheduled,
a leased one is claimed and its outcome not recorded, and the holder's reading of the count is
current, and its request under way once it is sent. -/
structure Leased (cfg : WorkersConfig) (s : Workers) : Prop where
  scheduled : ∀ row ∈ s.db.webhooks, ¬ row.Finished →
    row.payload ≠ none ∧ row.nextAttemptAt ≠ none
  counted : ∀ row ∈ s.db.webhooks, row.attemptCount = (attempts row.id s.history).made
  failed : ∀ row ∈ s.db.webhooks, row.failedAt ≠ none →
    cfg.maxAttempts ≤ (attempts row.id s.history).made ∨ (attempts row.id s.history).gone = true
  claimed : ∀ lease ∈ s.db.leases, (attempts lease.deliveryId s.history).selected = true
  current : ∀ i p, (s.stages i).pending? = some p →
    ∀ lease ∈ s.db.leases, lease.deliveryId = p.delivery.id → lease.owner = cfg.worker i →
      ∀ row ∈ s.db.webhooks, row.id = p.delivery.id →
        p.delivery.attemptCount = row.attemptCount
  underWay : ∀ i p, (s.stages i).sent? = some p →
    ∀ lease ∈ s.db.leases, lease.deliveryId = p.delivery.id → lease.owner = cfg.worker i →
      (attempts p.delivery.id s.history).outstanding = true

theorem Leased.empty : Leased cfg {} where
  scheduled := by simp
  counted := by simp
  failed := by simp
  claimed := by simp
  current := by simp
  underWay := by simp

theorem pending_update {stages : Nat → Webhooks.Stage} {stage : Webhooks.Stage} {j : Nat}
    {p : PendingWebhook} (h : (Function.update stages i stage j).pending? = some p) :
    (j = i ∧ stage.pending? = some p) ∨ (j ≠ i ∧ (stages j).pending? = some p) := by
  by_cases hj : j = i
  · subst hj
    rw [Function.update_self] at h
    exact .inl ⟨rfl, h⟩
  · rw [Function.update_of_ne hj] at h
    exact .inr ⟨hj, h⟩

theorem sent_update {stages : Nat → Webhooks.Stage} {stage : Webhooks.Stage} {j : Nat}
    {p : PendingWebhook} (h : (Function.update stages i stage j).sent? = some p) :
    (j = i ∧ stage.sent? = some p) ∨ (j ≠ i ∧ (stages j).sent? = some p) := by
  by_cases hj : j = i
  · subst hj
    rw [Function.update_self] at h
    exact .inl ⟨rfl, h⟩
  · rw [Function.update_of_ne hj] at h
    exact .inr ⟨hj, h⟩

/-- A worker at a stage with the same delivery in flight, or with none. -/
theorem Leased.staged (h : Leased cfg s) {stage : Webhooks.Stage}
    (hstage : ∀ p, stage.pending? = some p → (s.stages i).pending? = some p)
    (hsent : ∀ p, stage.sent? = some p → (s.stages i).sent? = some p) :
    Leased cfg { s with stages := Function.update s.stages i stage } where
  scheduled := h.scheduled
  counted := h.counted
  failed := h.failed
  claimed := h.claimed
  current := by
    intro j p hp
    rcases pending_update hp with ⟨rfl, hnew⟩ | ⟨-, hold⟩
    · exact h.current j p (hstage p hnew)
    · exact h.current j p hold
  underWay := by
    intro j p hp
    rcases sent_update hp with ⟨rfl, hnew⟩ | ⟨-, hold⟩
    · exact h.underWay j p (hsent p hnew)
    · exact h.underWay j p hold

theorem Leased.abandon (h : Leased cfg s) : Leased cfg (s.abandon i) := by
  refine h.staged ?_ ?_
  · intro p hp
    cases hp
  · intro p hp
    cases hp

theorem Leased.answer (h : Leased cfg s) (result : WebhookAttemptResult) :
    Leased cfg (s.answer i result) := by
  unfold Workers.answer
  cases hstage : s.stages i with
  | sending pending attemptedAt =>
      refine h.staged ?_ ?_
      · intro p hp
        rw [hstage]
        exact hp
      · intro p hp
        rw [hstage]
        exact hp
  | _ => exact h

theorem Leased.send (h : Leased cfg s) : Leased cfg (s.send i) := by
  unfold Workers.send
  split
  · rename_i pending attemptedAt hstage
    refine ⟨h.scheduled, ?_, ?_, ?_, ?_, ?_⟩
    · intro r hr
      rw [(attempts_sent _ _ _).1]
      exact h.counted r hr
    · intro r hr hfailed
      rw [(attempts_sent _ _ _).1, (attempts_sent _ _ _).2.1]
      exact h.failed r hr hfailed
    · intro lease hlease
      rw [(attempts_sent _ _ _).2.2]
      exact h.claimed lease hlease
    · intro j p hp
      rcases pending_update hp with ⟨rfl, hnew⟩ | ⟨-, hold⟩
      · refine h.current j p ?_
        rw [hstage]
        exact hnew
      · exact h.current j p hold
    · intro j p hp lease hlease hid howner
      apply attempts_sent_outstanding
      rcases sent_update hp with ⟨-, hnew⟩ | ⟨-, hold⟩
      · cases hnew
        exact .inr rfl
      · exact .inl (h.underWay j p hold lease hlease hid howner)
  · exact h

/-- Claiming leaves an attempt without an outcome. -/
theorem attempts_selected_selected {deliveryId selectedId : String} {history : List Entry}
    (h : (attempts deliveryId history).selected = true ∨ deliveryId = selectedId) :
    (attempts deliveryId (.selected selectedId :: history)).selected = true := by
  rw [attempts_cons]
  split
  case isTrue => rfl
  case isFalse hother => exact h.resolve_right fun hid => hother hid.symm

theorem Leased.claim (h : Leased cfg s) (rd : PgReadings) (skipped : List String)
    (attemptedAt : Timestamp) : Leased cfg (s.claim cfg i rd skipped attemptedAt) := by
  rcases claim_cases cfg s i rd skipped attemptedAt with
    ⟨hsame, -⟩ | ⟨row, payload, hidle, hrow, hdue, hclaim⟩
  · rw [hsame]
    exact h
  · rw [hclaim]
    refine ⟨h.scheduled, ?_, ?_, ?_, ?_, ?_⟩
    · intro r hr
      rw [(attempts_selected _ _ _).1]
      exact h.counted r hr
    · intro r hr hfailed
      rw [(attempts_selected _ _ _).1, (attempts_selected _ _ _).2.1]
      exact h.failed r hr hfailed
    · intro lease hlease
      apply attempts_selected_selected
      rcases Table.mem_upsert.mp hlease with rfl | ⟨hold, -⟩
      · exact .inr rfl
      · exact .inl (h.claimed lease hold)
    · intro j p hp lease hlease hid howner r hr hrid
      rcases pending_update hp with ⟨-, hnew⟩ | ⟨hj, hp⟩
      · -- the reading the claim has just made
        obtain rfl := Option.some.inj hnew
        rw [Table.eq_of_key hr hrow hrid]
        rfl
      · rcases Table.mem_upsert.mp hlease with rfl | ⟨hold, -⟩
        · exact absurd (cfg.worker_injective howner) (Ne.symm hj)
        · exact h.current j p hp lease hold hid howner r hr hrid
    · intro j p hp lease hlease hid howner
      rw [(attempts_selected _ _ _).2.2]
      rcases sent_update hp with ⟨-, hnone⟩ | ⟨hj, hp⟩
      · cases hnone
      · rcases Table.mem_upsert.mp hlease with rfl | ⟨hold, -⟩
        · exact absurd (cfg.worker_injective howner) (Ne.symm hj)
        · exact h.underWay j p hp lease hold hid howner

/-- The database keeps the verdict of an outcome. -/
theorem recorded_failedAt {row : WebhookRow} {now : Timestamp} {pending : PendingWebhook}
    {attemptedAt : Timestamp} {result : WebhookAttemptResult} :
    (row.record (WebhookAttempt.atDatabase now
        (cfg.dispatcher.attempt pending attemptedAt result))).failedAt ≠ none ↔
      cfg.dispatcher.Terminal (pending.delivery.attemptCount + 1) result := by
  simp [WebhookRow.record, WebhookAttempt.atDatabase, DispatcherConfig.attempt]

/-- An outcome that leaves the delivery pending schedules its next attempt. -/
theorem recorded_scheduled {row : WebhookRow} {now : Timestamp} {pending : PendingWebhook}
    {attemptedAt : Timestamp} {result : WebhookAttemptResult}
    (h : ¬ (row.record (WebhookAttempt.atDatabase now
      (cfg.dispatcher.attempt pending attemptedAt result))).Finished) :
    (row.record (WebhookAttempt.atDatabase now
      (cfg.dispatcher.attempt pending attemptedAt result))).nextAttemptAt ≠ none := by
  obtain ⟨hdelivered, hfailed⟩ := not_finished_iff.mp h
  have hopen : ¬ (result.delivered = true ∨
      cfg.dispatcher.Terminal (pending.delivery.attemptCount + 1) result) := by
    rintro (hyes | hterminal)
    · simp [WebhookRow.record, WebhookAttempt.atDatabase, DispatcherConfig.attempt, hyes]
        at hdelivered
    · exact recorded_failedAt.mpr hterminal hfailed
  simp [WebhookRow.record, WebhookAttempt.atDatabase, DispatcherConfig.attempt,
    DispatcherConfig.nextAttemptAt, hopen]

/-- An accepted outcome keeps the invariant: it is that of the attempt under way. -/
theorem Leased.record (h : Leased cfg s) (rd : PgReadings) : Leased cfg (s.record cfg i rd) := by
  rcases record_cases cfg s i rd with (hsame | hdropped) |
    ⟨pending, attemptedAt, result, hstage, ⟨lease, hlease, hleaseId, howner⟩,
      ⟨row, hrow, hid, hopen⟩, haccepted⟩
  · rw [hsame]
    exact h
  · rw [hdropped]
    exact h.abandon
  · rw [haccepted]
    have hunfinished : ¬ row.Finished := not_finished_iff.mpr hopen
    have houtstanding : (attempts row.id s.history).outstanding = true := by
      rw [hid]
      exact h.underWay i pending (by rw [hstage]; rfl) lease hlease hleaseId howner
    have hcurrent : pending.delivery.attemptCount = row.attemptCount :=
      h.current i pending (by rw [hstage]; rfl) lease hlease hleaseId howner row hrow hid
    have hmade := h.counted row hrow
    rw [← hid]
    have hnoted : attempts row.id (.recorded row.id result.statusCode :: s.history) =
        (attempts row.id s.history).note (.recorded row.id result.statusCode) := if_pos rfl
    refine ⟨?_, ?_, ?_, ?_, ?_, ?_⟩
    · intro w hw hpending
      rcases mem_recordIn hrow ⟨rfl, hopen⟩ hw with ⟨hold, -⟩ | rfl
      · exact h.scheduled w hold hpending
      · exact ⟨(h.scheduled row hrow hunfinished).1, recorded_scheduled hpending⟩
    · intro w hw
      rcases mem_recordIn hrow ⟨rfl, hopen⟩ hw with ⟨hold, hother⟩ | rfl
      · rw [attempts_cons_other (Ne.symm hother)]
        exact h.counted w hold
      · rw [WebhookRow.record_id, hnoted]
        simp [Attempts.note, houtstanding, WebhookRow.record, hmade]
    · intro w hw hfailed
      rcases mem_recordIn hrow ⟨rfl, hopen⟩ hw with ⟨hold, hother⟩ | rfl
      · rw [attempts_cons_other (Ne.symm hother)]
        exact h.failed w hold hfailed
      · rw [WebhookRow.record_id, hnoted]
        obtain ⟨-, hspent | hgone⟩ := recorded_failedAt.mp hfailed
        · left
          rw [hcurrent, hmade] at hspent
          change cfg.maxAttempts ≤ (attempts row.id s.history).made + 1 at hspent
          simpa [Attempts.note, houtstanding] using hspent
        · right
          simp [Attempts.note, hgone]
    · intro other hother
      obtain ⟨hold, hne⟩ := Table.mem_deleteWhere.mp hother
      rw [attempts_cons_other (Ne.symm hne)]
      exact h.claimed other hold
    · intro j p hp other hother hotherId hotherOwner w hw hwid
      obtain ⟨hold, hne⟩ := Table.mem_deleteWhere.mp hother
      rcases pending_update hp with ⟨-, hnone⟩ | ⟨-, hp⟩
      · cases hnone
      · rcases mem_recordIn hrow ⟨rfl, hopen⟩ hw with ⟨hwold, -⟩ | rfl
        · exact h.current j p hp other hold hotherId hotherOwner w hwold hwid
        · exact absurd (hotherId.trans hwid.symm) hne
    · intro j p hp other hother hotherId hotherOwner
      obtain ⟨hold, hne⟩ := Table.mem_deleteWhere.mp hother
      rcases sent_update hp with ⟨-, hnone⟩ | ⟨-, hp⟩
      · cases hnone
      · rw [attempts_cons_other (hotherId ▸ Ne.symm hne)]
        exact h.underWay j p hp other hold hotherId hotherOwner

/-- A call of another party keeps the invariant. -/
theorem Leased.call (h : Leased cfg s) {rd : PgReadings} {cmd : PgCommand}
    (hadmits : s.Admits (.call rd cmd)) : Leased cfg (s.call cfg rd cmd) := by
  rcases call_cases cfg s hadmits with hsame | ⟨row, hrow, hpayload, hreset⟩ | ⟨db, hfrom, hcall⟩
  · rw [hsame]
    exact h
  · rw [hreset]
    have hnoted : attempts row.id (.replayed row.id :: s.history) = {} := if_pos rfl
    refine ⟨?_, ?_, ?_, ?_, ?_, ?_⟩
    · intro w hw hpending
      rcases mem_resetIn hrow hw with ⟨hold, -⟩ | rfl
      · exact h.scheduled w hold hpending
      · exact ⟨hpayload, Option.some_ne_none _⟩
    · intro w hw
      rcases mem_resetIn hrow hw with ⟨hold, hother⟩ | rfl
      · rw [attempts_cons_other (Ne.symm hother)]
        exact h.counted w hold
      · rw [WebhookRow.reset_id, hnoted]
        rfl
    · intro w hw hfailed
      rcases mem_resetIn hrow hw with ⟨hold, hother⟩ | rfl
      · rw [attempts_cons_other (Ne.symm hother)]
        exact h.failed w hold hfailed
      · exact absurd rfl hfailed
    · intro lease hlease
      obtain ⟨hold, hne⟩ := Table.mem_deleteWhere.mp hlease
      rw [attempts_cons_other (Ne.symm hne)]
      exact h.claimed lease hold
    · intro j p hp lease hlease hid howner w hw hwid
      obtain ⟨hold, hne⟩ := Table.mem_deleteWhere.mp hlease
      rcases mem_resetIn hrow hw with ⟨hwold, -⟩ | rfl
      · exact h.current j p hp lease hold hid howner w hwold hwid
      · exact absurd (hid.trans hwid.symm) hne
    · intro j p hp lease hlease hid howner
      obtain ⟨hold, hne⟩ := Table.mem_deleteWhere.mp hlease
      rw [attempts_cons_other (hid ▸ Ne.symm hne)]
      exact h.underWay j p hp lease hold hid howner
  · rw [hcall]
    -- a row is an old one, perhaps scrubbed since it finished, or a new event's
    have hrows : ∀ w ∈ db.webhooks, w ∈ s.db.webhooks ∨
        (∃ v ∈ s.db.webhooks, v.Finished ∧ w = { v with payload := none }) ∨
        (attempts w.id s.history = {} ∧ w.attemptCount = 0 ∧ w.failedAt = none ∧
          w.payload ≠ none ∧ w.nextAttemptAt ≠ none) := by
      intro w hw
      rcases hfrom.rows w hw with (hold | hscrubbed) | ⟨n, _, _, _, _, _, rfl⟩
      · exact .inl hold
      · exact .inr (.inl hscrubbed)
      · exact .inr (.inr ⟨attempts_eq_empty (hadmits.2 n), rfl, rfl, Option.some_ne_none _,
          Option.some_ne_none _⟩)
    refine ⟨?_, ?_, ?_, ?_, ?_, ?_⟩
    · intro w hw hpending
      rcases hrows w hw with hold | ⟨v, -, hfinished, rfl⟩ | ⟨-, -, -, hpayload, hnext⟩
      · exact h.scheduled w hold hpending
      · exact absurd hfinished hpending
      · exact ⟨hpayload, hnext⟩
    · intro w hw
      rcases hrows w hw with hold | ⟨v, hv, -, rfl⟩ | ⟨hnone, hzero, -⟩
      · exact h.counted w hold
      · exact h.counted v hv
      · rw [hnone, hzero]
    · intro w hw hfailed
      rcases hrows w hw with hold | ⟨v, hv, -, rfl⟩ | ⟨-, -, hnone, -⟩
      · exact h.failed w hold hfailed
      · exact h.failed v hv hfailed
      · exact absurd hnone hfailed
    · intro lease hlease
      exact h.claimed lease (hfrom.leases lease hlease)
    · intro j p hp lease hlease hid howner w hw hwid
      have hold := hfrom.leases lease hlease
      rcases hrows w hw with hwold | ⟨v, hv, -, rfl⟩ | ⟨hnone, -⟩
      · exact h.current j p hp lease hold hid howner w hwold hwid
      · exact h.current j p hp lease hold hid howner v hv hwid
      · -- a new delivery has not been claimed, so nobody holds a lease on it
        have hclaimed := h.claimed lease hold
        rw [hid, ← hwid, hnone] at hclaimed
        cases hclaimed
    · intro j p hp lease hlease
      exact h.underWay j p hp lease (hfrom.leases lease hlease)

theorem Leased.step {e : WorkerEvent} (h : Leased cfg s) (hstep : WorkerStep cfg s e s') :
    Leased cfg s' := by
  obtain ⟨hadmits, rfl⟩ := hstep
  cases e with
  | claim i rd skipped attemptedAt => exact h.claim rd skipped attemptedAt
  | send i => exact h.send
  | answer i result => exact h.answer result
  | abandon i => exact h.abandon
  | record i rd => exact h.record rd
  | call rd cmd => exact h.call hadmits

/-- The invariant holds along every run. -/
theorem Leased.of_run (hrun : Reach (WorkerStep cfg) {} s) : Leased cfg s := by
  refine hrun.invariant ?_ Leased.empty
  intro t e u ht _ hstep
  exact ht.step hstep

/-! ## The budget -/

/-- An accepted outcome is that of the attempt under way, read off the row as it still is. -/
theorem Leased.accepted (h : Leased cfg s) (rd : PgReadings) {p : PendingWebhook}
    (hp : (s.stages i).pending? = some p) (haccepted : (s.record cfg i rd).history ≠ s.history) :
    (attempts p.delivery.id s.history).outstanding = true ∧
      (∃ row ∈ s.db.webhooks, row.id = p.delivery.id ∧ ¬ row.Finished ∧
        row.attemptCount = p.delivery.attemptCount) ∧
      (attempts p.delivery.id (s.record cfg i rd).history).made =
        (attempts p.delivery.id s.history).made + 1 ∧
      (attempts p.delivery.id (s.record cfg i rd).history).outstanding = false := by
  rcases record_cases cfg s i rd with (hsame | hdropped) |
    ⟨pending, attemptedAt, result, hstage, ⟨lease, hlease, hleaseId, howner⟩,
      ⟨row, hrow, hid, hopen⟩, hrecord⟩
  · rw [hsame] at haccepted
    exact absurd rfl haccepted
  · rw [hdropped] at haccepted
    exact absurd rfl haccepted
  · have hpending : p = pending := by
      rw [hstage] at hp
      exact (Option.some.inj hp).symm
    subst hpending
    have houtstanding :=
      h.underWay i p (by rw [hstage]; rfl) lease hlease hleaseId howner
    have hcurrent := h.current i p hp lease hlease hleaseId howner row hrow hid
    refine ⟨houtstanding, ⟨row, hrow, hid, not_finished_iff.mpr hopen, hcurrent.symm⟩, ?_⟩
    rw [hrecord]
    have hnoted : attempts p.delivery.id (.recorded p.delivery.id result.statusCode :: s.history) =
        (attempts p.delivery.id s.history).note (.recorded p.delivery.id result.statusCode) :=
      if_pos rfl
    rw [hnoted]
    simp [Attempts.note, houtstanding]

/-- A pending delivery is never stranded: once it is due, its lease has run out and no other
transaction locks its row, an idle worker has a delivery to send. -/
theorem Leased.claimable (h : Leased cfg s) {row : WebhookRow} (hrow : row ∈ s.db.webhooks)
    (hpending : ¬ row.Finished) :
    ∃ due, row.nextAttemptAt = some due ∧ ∀ i rd skipped attemptedAt, s.stages i = .idle →
      due ≤ rd.now 0 → s.db.Unleased (rd.now 0) row.id → row.id ∉ skipped →
        ∃ p, ((s.claim cfg i rd skipped attemptedAt).stages i).pending? = some p := by
  obtain ⟨hpayload, hnext⟩ := h.scheduled row hrow hpending
  obtain ⟨due, hdue⟩ := Option.ne_none_iff_exists'.mp hnext
  refine ⟨due, hdue, ?_⟩
  intro i rd skipped attemptedAt hidle hle hunleased hunlocked
  obtain ⟨hdelivered, hfailed⟩ := not_finished_iff.mp hpending
  have hready : row.Due (rd.now 0) := ⟨hdelivered, hfailed, hpayload, due, hdue, hle⟩
  rcases claim_cases cfg s i rd skipped attemptedAt with
    ⟨-, hnone⟩ | ⟨taken, payload, -, -, -, hclaim⟩
  · exact absurd (hnone hidle) (claimCandidate_ne_none hrow hready hunleased hunlocked)
  · rw [hclaim]
    exact ⟨_, congrArg Webhooks.Stage.pending? (Function.update_self i _ s.stages)⟩

/-- In every run of any number of workers, with replays and the other calls of the store between
their steps: a row counts exactly the attempts sent and recorded since its last replay; a delivery
is failed only after the full budget of them or after a 410; an outcome the store accepts is that
of the one attempt under way, and ends it; and while a pending delivery is due, no live lease is
left on it and no other transaction locks its row, an idle worker that asks gets a delivery. -/
theorem worker_budget (hrun : Reach (WorkerStep cfg) {} s) :
    (∀ row ∈ s.db.webhooks, row.attemptCount = (attempts row.id s.history).made) ∧
    (∀ row ∈ s.db.webhooks, row.failedAt ≠ none →
      cfg.maxAttempts ≤ (attempts row.id s.history).made ∨
        (attempts row.id s.history).gone = true) ∧
    (∀ i rd p, (s.stages i).pending? = some p →
      (s.next cfg (.record i rd)).history ≠ s.history →
        (attempts p.delivery.id s.history).outstanding = true ∧
        (∃ row ∈ s.db.webhooks, row.id = p.delivery.id ∧ ¬ row.Finished ∧
          row.attemptCount = p.delivery.attemptCount) ∧
        (attempts p.delivery.id (s.next cfg (.record i rd)).history).made =
          (attempts p.delivery.id s.history).made + 1 ∧
        (attempts p.delivery.id (s.next cfg (.record i rd)).history).outstanding = false) ∧
    ∀ row ∈ s.db.webhooks, ¬ row.Finished →
      ∃ due, row.nextAttemptAt = some due ∧ ∀ i rd skipped attemptedAt, s.stages i = .idle →
        due ≤ rd.now 0 → s.db.Unleased (rd.now 0) row.id → row.id ∉ skipped →
          ∃ p, ((s.next cfg (.claim i rd skipped attemptedAt)).stages i).pending? = some p := by
  have hinv := Leased.of_run hrun
  refine ⟨hinv.counted, hinv.failed, ?_, ?_⟩
  · intro i rd p hp haccepted
    exact hinv.accepted rd hp haccepted
  · intro row hrow hpending
    exact hinv.claimable hrow hpending

end Workers

/-- A name for every worker. -/
def workerName (i : Nat) : String := String.ofList (List.replicate i 'a')

theorem workerName_injective : Function.Injective workerName := by
  intro i j h
  have hlength := congrArg List.length (String.ofList_injective h)
  rw [List.length_replicate, List.length_replicate] at hlength
  exact hlength

/-- Workers that try each delivery twice. -/
def twoTries : WorkersConfig where
  pg := smallPgConfig
  maxAttempts := twoAttempts.maxAttempts
  digest := twoAttempts.digest
  worker := workerName
  worker_injective := workerName_injective

/-- A message is posted; one worker hangs until its lease has run out, another takes the delivery
over; both attempts fail, and only the second worker's outcome counts; then the operator replays
the delivery. -/
def takenOver : List WorkerEvent :=
  [.call (.fixed 1 1)
      (.createRoom { name := "General", id := some ⟨"general", matchesRoomId_general⟩ } "admin"),
   .call (.fixed 2 10) (.createMessage { roomId := "general", sender := "ada", content := "one" }),
   .claim 0 (.fixed 3 20) [] 3, .send 0,
   .claim 1 (.fixed (seconds 61) 20) [] (seconds 61), .send 1,
   .answer 0 unavailable, .answer 1 unavailable,
   .record 0 (.fixed (seconds 62) 20), .record 1 (.fixed (seconds 63) 20),
   .call { now := fun _ => seconds 64, uuid := fun _ => UuidHex.ofNat 99, sequence := fun _ => 99 }
      (.retryWebhookDelivery firstDelivery)]

/-- A call with no delivery sent yet, or whose ids are all the same new one. -/
theorem admits_call {s : Workers} {rd : PgReadings} {cmd : PgCommand}
    (hcmd : cmd.Bystander ∨ ∃ deliveryId, cmd = .retryWebhookDelivery deliveryId)
    (hfresh : s.history = [] ∨ ∃ u : UuidHex, (∀ i, rd.uuid i = u) ∧
      ∀ entry ∈ s.history, entry.deliveryId ≠ "wh_" ++ u.text) : s.Admits (.call rd cmd) := by
  refine ⟨hcmd, fun i entry hentry => ?_⟩
  rcases hfresh with hnone | ⟨u, huuid, hother⟩
  · rw [hnone] at hentry
    cases hentry
  · rw [huuid i]
    exact hother entry hentry

/-- The hung worker's outcome was dropped, and the replay started the count anew. -/
theorem worker_budget_takenOver :
    let s := takenOver.foldl (Workers.next twoTries) {}
    (∀ row ∈ s.db.webhooks, row.attemptCount = (attempts row.id s.history).made) ∧
      s.db.webhooks.rows.map (fun row => (row.id, row.attemptCount)) = [(firstDelivery, 0)] ∧
      s.history = [.replayed firstDelivery, .recorded firstDelivery (some 503),
        .sent firstDelivery, .selected firstDelivery, .sent firstDelivery,
        .selected firstDelivery] := by
  have hfollows : Run.Follows (WorkerStep twoTries) (fun _ _ => True) (Workers.next twoTries) {}
      takenOver := by
    refine ⟨trivial, ⟨admits_call (.inl trivial) (.inl (by decide +kernel)), rfl⟩,
      trivial, ⟨admits_call (.inl trivial) (.inl (by decide +kernel)), rfl⟩,
      trivial, ⟨trivial, rfl⟩, trivial, ⟨trivial, rfl⟩, trivial, ⟨trivial, rfl⟩,
      trivial, ⟨trivial, rfl⟩, trivial, ⟨trivial, rfl⟩, trivial, ⟨trivial, rfl⟩,
      trivial, ⟨trivial, rfl⟩, trivial, ⟨trivial, rfl⟩,
      trivial, ⟨admits_call (.inr ⟨_, rfl⟩) (.inr ⟨_, fun _ => rfl, by decide +kernel⟩), rfl⟩,
      trivial⟩
  exact ⟨(worker_budget (Run.of_follows hfollows)).1, by decide +kernel, by decide +kernel⟩

end Postgres
end ChatEngine
