import ChatEngine.Store.Reactions

/-!
# Calls that add or remove a reaction

* `ReactionGate`: what a call must find apart from room for its key and its event, with
  `setMessageReaction_gate`, that a call which returns has found it, and `ReactionGate.spares`, that
  a call which finds it fails for want of room only;
* `ReactionEffect`: what a call leaves in the tables;
* `reactions_settled`: the summaries of every reachable database, and the calls on it: repeats
  change nothing, calls for different reactions commute, and a refusal changes nothing.
-/

namespace ChatEngine
namespace Store

open Lib
open Models

/-! ## What a call is about -/

/-- The primary key of the reaction a call is about. -/
def SetMessageReaction.target (args : SetMessageReaction) : String × String × String :=
  (args.messageId, args.reactor, args.key)

/-- The reaction is in the table. -/
def SetMessageReaction.existing (args : SetMessageReaction) (db : Database) : Bool :=
  (db.reactions.find? args.target).isSome

/-- The row of the reaction a call adds. -/
def SetMessageReaction.row (args : SetMessageReaction) (now : Timestamp) : ReactionRow :=
  { messageId := args.messageId, roomId := args.roomId, reactor := args.reactor,
    reactionKey := args.key, createdAt := now }

/-- The rows of the reaction table after a call. -/
def SetMessageReaction.After (args : SetMessageReaction) (now : Timestamp) (db : Database)
    (row : ReactionRow) : Prop :=
  if args.present = true then
    row ∈ db.reactions ∨ (args.existing db = false ∧ row = args.row now)
  else
    row ∈ db.reactions ∧ row.key ≠ args.target

/-- The room checks, the message, and the constraints on the names that the call stores. -/
structure ReactionGate (rd : Readings) (args : SetMessageReaction) (db : Database)
    (row : MessageRow) : Prop where
  mayWrite : MayWrite args.roomId args.allowFrozen args.memberSubject (rd.now 1) db
  mem : row ∈ db.messages
  id : row.id = args.messageId
  room : row.roomId = args.roomId
  live : row.deletedAt = none
  key : matchesReactionKey (stripWhitespace args.key) = true
  reactor : actorLengthOk (stripWhitespace args.reactor) = true
  checks : args.present ≠ args.existing db → row.Checks ∧
    (args.present = true → sqliteActorOk args.reactor = true ∧ matchesReactionKey args.key = true)

/-- What a successful call leaves in the tables. -/
structure ReactionEffect (rd : Readings) (args : SetMessageReaction) (db db' : Database) :
    Prop where
  rooms : db'.rooms = db.rooms
  memberControls : db'.memberControls = db.memberControls
  reactions : ∀ row, row ∈ db'.reactions ↔ args.After (rd.now 0) db row
  messages : ∀ m, m ∈ db'.messages ↔
    ∃ r ∈ db.messages, m = r.setReactions (reactionSummaries r.id db')
  webhooks : ∀ w ∈ db'.webhooks, w ∈ db.webhooks ∨ w.id = "wh_" ++ (rd.uuid 0).text

/-- The errors for want of room: for one more key, or for one more event. -/
def CapacityError (e : StoreError) : Prop :=
  (∃ messageId, e = .reactionCapacity messageId) ∨ ∃ text, e = .webhookCapacity text

section Calls

variable {cfg : Config} {rd : Readings} {args : SetMessageReaction} {db db' : Database}
  {mutation : ReactionMutation} {row : MessageRow}

theorem existing_iff :
    args.existing db = true ↔ ∃ r ∈ db.reactions, r.key = args.target := by
  unfold SetMessageReaction.existing
  exact Table.find?_isSome

theorem not_existing_iff :
    args.existing db = false ↔ ∀ r ∈ db.reactions, r.key ≠ args.target := by
  rw [← Bool.not_eq_true, existing_iff]
  simp only [not_exists, not_and]

/-! ## What a call that returns has found -/

theorem ReactionMutation.build_names {raw r : ReactionMutation} (h : raw.build = .ok r) :
    matchesReactionKey (stripWhitespace raw.key) = true ∧
      actorLengthOk (stripWhitespace raw.reactor) = true := by
  unfold ReactionMutation.build at h
  split_ifs at h with hkey hreactor
  exact ⟨hkey, hreactor⟩

theorem setMessageReaction_gate
    (h : Tx.Returns (setMessageReaction cfg rd args) db mutation db') :
    ∃ row, ReactionGate rd args db row := by
  unfold setMessageReaction refreshReactions at h
  simp only [Tx.returns_bind, Tx.returns_read, Tx.returns_require, Tx.returns_ite,
    Tx.returns_pure, returns_requireOpenRoom, returns_enforceMemberWrite,
    returns_requireMessage, returns_validated, returns_updateMessageRow,
    returns_rereadMessage, returns_insertWebhook] at h
  obtain ⟨_, _, ⟨hroom, rfl⟩, _, _, ⟨hmember, rfl⟩, row, _, ⟨⟨hmem, hid, hrowRoom⟩, rfl⟩, _, _,
    ⟨hlive, rfl⟩, changed, _, hchange, hrest⟩ := h
  rcases changeReaction_ok hchange with ⟨rfl, rfl, hpresent⟩ | ⟨rfl, t, hreactions, rfl⟩
  · rcases hrest with ⟨htrue, -⟩ | ⟨-, message, _, ⟨-, rfl⟩, hbuild, rfl⟩
    · cases htrue
    · obtain ⟨hkey, hreactor⟩ := ReactionMutation.build_names hbuild
      exact ⟨row, ⟨hroom, hmember⟩, hmem, hid, hrowRoom, hlive, hkey, hreactor,
        fun hdiffers => absurd hpresent hdiffers⟩
  · rcases hrest with ⟨-, _, _, ⟨_, _, ⟨rfl, rfl⟩, summaries, _, ⟨-, rfl⟩, hchecks, rfl⟩,
      message, _, ⟨-, rfl⟩, built, _, ⟨hbuild, rfl⟩, -⟩ | ⟨hfalse, -⟩
    · obtain ⟨hkey, hreactor⟩ := ReactionMutation.build_names hbuild
      refine ⟨row, ⟨hroom, hmember⟩, hmem, hid, hrowRoom, hlive, hkey, hreactor, fun _ => ?_⟩
      refine ⟨hchecks row hmem hid, fun hadds => ?_⟩
      cases hreactions with
      | added _ _ hactor hkeyOk _ => exact ⟨hactor, hkeyOk⟩
      | removed hremoves _ =>
          rw [hadds] at hremoves
          cases hremoves
    · exact absurd rfl hfalse

/-! ## What a call that finds it may fail for -/

theorem checked_setReactions {m n : Message} (reactions : List ReactionSummary)
    (h : m.checked = .ok n) :
    Message.checked { m with reactions := reactions } = .ok { n with reactions := reactions } := by
  obtain ⟨rfl, hpin⟩ := Message.checked_ok h
  have hpin' : Message.pinMetadataError? { n with reactions := reactions } = none := hpin
  unfold Message.checked
  rw [hpin']

/-- No validator of the message looks at its reactions. -/
theorem build_setReactions {raw m : Message} (reactions : List ReactionSummary)
    (h : raw.build = .ok m) :
    Message.build { raw with reactions := reactions } = .ok { m with reactions := reactions } := by
  unfold Message.build at h ⊢
  dsimp only
  split_ifs at h ⊢
  cases hmeta : validateMessageMetadata (stripMetadata raw.metadata) with
  | error e => simp [hmeta] at h
  | ok metadata =>
      cases hatt : validateAttachmentReferences raw.attachments with
      | error e => simp [hmeta, hatt] at h
      | ok attachments =>
          cases hmen : validateMentionedSubjects raw.mentionedSubjects with
          | error e => simp [hmeta, hatt, hmen] at h
          | ok mentioned =>
              simp only [hmeta, hatt, hmen] at h ⊢
              exact checked_setReactions reactions h

/-- A row that decodes still does with another valid summary. -/
theorem Decodes.setReactions {summaries : List ReactionSummary} (h : Decodes row)
    (hvalid : validateEach ReactionSummary.validate summaries = .ok summaries) :
    Decodes (row.setReactions summaries) := by
  obtain ⟨m, hm⟩ := h
  unfold messageFromRow at hm
  cases hold : validateEach ReactionSummary.validate row.reactions with
  | error e => simp [hold] at hm
  | ok reactions =>
      cases hatt : validateEach AttachmentReference.validate row.attachments with
      | error e => simp [hold, hatt] at hm
      | ok attachments =>
          simp only [hold, hatt] at hm
          refine ⟨{ m with reactions := summaries }, ?_⟩
          unfold messageFromRow MessageRow.setReactions
          dsimp only
          rw [hvalid, hatt]
          exact build_setReactions summaries hm

/-- A call may fail for want of room, and that only when it changes something. -/
def WantOfRoom (args : SetMessageReaction) (db : Database) (e : StoreError) : Prop :=
  args.present ≠ args.existing db ∧ CapacityError e

/-- The change of the table fails for want of room for its key only. -/
theorem ReactionGate.change_spares (h : ReactionGate rd args db row) :
    Tx.Spares (changeReaction args (rd.now 0)) db fun e => ¬ WantOfRoom args db e := by
  unfold changeReaction insertReactionRow
  apply Tx.spares_read.bind
  intro existing t hread
  obtain ⟨hexisting, rfl⟩ := Tx.returns_read.mp hread
  have hsame : existing = args.existing t := hexisting
  apply Tx.spares_ite
  · rintro ⟨hpresent, hnew⟩
    rw [hsame] at hnew
    have hdiffers : args.present ≠ args.existing t := by
      rw [hpresent, hnew]
      decide
    apply Tx.spares_read.bind
    intro keys t' hkeys
    obtain ⟨-, rfl⟩ := Tx.returns_read.mp hkeys
    have hfull : WantOfRoom args t' (.reactionCapacity args.messageId) :=
      ⟨hdiffers, .inl ⟨_, rfl⟩⟩
    apply Tx.Spares.bind
    · exact Tx.spares_require (.inr (not_not.mpr hfull))
    intro _ t' hroom
    obtain ⟨-, rfl⟩ := Tx.returns_require.mp hroom
    apply Tx.Spares.bind
    · apply (Tx.spares_require (.inl ((h.checks hdiffers).2 hpresent))).bind
      intro _ t' hnames
      obtain ⟨-, rfl⟩ := Tx.returns_require.mp hnames
      -- both foreign keys refer to what the call has read
      have hmessage : (t'.messages.find? args.messageId).isSome = true :=
        Table.find?_isSome.mpr ⟨row, h.mem, h.id⟩
      obtain ⟨room, hroom, hroomKey, -⟩ := h.mayWrite.room
      have hroomFound : (t'.rooms.find? args.roomId).isSome = true :=
        Table.find?_isSome.mpr ⟨room, hroom, hroomKey⟩
      apply Tx.spares_read.bind
      intro referenced s href
      obtain ⟨rfl, rfl⟩ := Tx.returns_read.mp href
      apply (Tx.spares_require (.inl (by rw [hmessage, hroomFound]; rfl))).bind
      intro _ s hreferenced
      obtain ⟨-, rfl⟩ := Tx.returns_require.mp hreferenced
      apply Tx.spares_read.bind
      intro inserted s hins
      obtain ⟨rfl, rfl⟩ := Tx.returns_read.mp hins
      apply (Tx.spares_orRaise (.inl _)).bind
      · intro inserted _ _
        exact Tx.spares_write
      · intro hnone
        obtain ⟨r, hr, hkey⟩ := Table.insert?_eq_none.mp hnone
        exact not_existing_iff.mp hnew r hr hkey
    · intro _ _ _
      exact Tx.spares_pure
  · intro _
    apply Tx.spares_ite
    · intro _
      apply Tx.spares_write.bind
      intro _ _ _
      exact Tx.spares_pure
    · intro _
      exact Tx.spares_pure

/-- An event under an id of its own fails for want of room only. -/
theorem insertWebhook_spares_fresh {bad : StoreError → Prop} {id : UuidHex} {type : EventType}
    {roomId resourceId : String} {occurredAt : Timestamp} {data : WebhookData}
    (hfresh : ∀ w ∈ db.webhooks, w.id ≠ "wh_" ++ id.text)
    (hbad : ∀ text, ¬ bad (.webhookCapacity text)) :
    Tx.Spares (insertWebhook cfg id type roomId resourceId occurredAt data) db bad := by
  unfold insertWebhook
  apply Tx.spares_ite
  · intro _
    exact Tx.spares_pure
  · intro _
    apply Tx.spares_write.bind
    intro _ t hpruned
    obtain rfl := Tx.returns_write.mp hpruned
    apply Tx.spares_read.bind
    intro count t hcount
    obtain ⟨-, rfl⟩ := Tx.returns_read.mp hcount
    apply (Tx.spares_require (.inr (hbad _))).bind
    intro _ t hroom
    obtain ⟨-, rfl⟩ := Tx.returns_require.mp hroom
    apply Tx.spares_read.bind
    intro inserted t hins
    obtain ⟨rfl, rfl⟩ := Tx.returns_read.mp hins
    apply (Tx.spares_orRaise (.inl _)).bind
    · intro inserted _ _
      exact Tx.spares_write
    · intro hnone
      obtain ⟨w, hw, hkey⟩ := Table.insert?_eq_none.mp hnone
      exact hfresh w (Table.mem_deleteWhere.mp hw).1 hkey

theorem ReactionMutation.build_total {raw : ReactionMutation}
    (hkey : matchesReactionKey (stripWhitespace raw.key) = true)
    (hreactor : actorLengthOk (stripWhitespace raw.reactor) = true) :
    ∃ mutation, raw.build = .ok mutation := by
  unfold ReactionMutation.build
  rw [if_neg (not_not.mpr hkey), if_neg (not_not.mpr hreactor)]
  exact ⟨_, rfl⟩

/-- The constructor call at the end of a call. -/
def SetMessageReaction.raw (args : SetMessageReaction) (message : Message) (changed : Bool)
    (now : Timestamp) : ReactionMutation :=
  { message := message, key := args.key, reactor := args.reactor, present := args.present,
    changed := changed, updatedAt := now }

/-- A change of the table was called for. -/
theorem ReactionsChanged.differs {now : Timestamp}
    {t : Table ReactionRow (String × String × String) ReactionRow.key}
    (h : ReactionsChanged args now db t) : args.present ≠ args.existing db := by
  cases h with
  | added hpresent _ _ _ hins =>
      have hnew := not_existing_iff.mpr (Table.insert?_eq_some.mp hins).1
      rw [hpresent]
      exact ne_of_eq_of_ne rfl (hnew ▸ Bool.noConfusion)
  | removed hpresent hexisting =>
      have hold : args.existing db = true := hexisting
      rw [hpresent, hold]
      decide

/-- A call that finds what it must find fails for want of room only. -/
theorem ReactionGate.spares (h : ReactionGate rd args db row) (hdb : Consistent db)
    (hreactions : ReactionsOk db)
    (hfresh : ∀ w ∈ db.webhooks, w.id ≠ "wh_" ++ (rd.uuid 0).text) :
    Tx.Spares (setMessageReaction cfg rd args) db fun e => ¬ WantOfRoom args db e := by
  unfold setMessageReaction refreshReactions
  apply (returns_requireOpenRoom (u := ()).mpr ⟨h.mayWrite.room, rfl⟩).spares.bind
  intro _ t hroom
  obtain ⟨-, rfl⟩ := returns_requireOpenRoom.mp hroom
  apply (returns_enforceMemberWrite (u := ()).mpr ⟨h.mayWrite.member, rfl⟩).spares.bind
  intro _ t hmember
  obtain ⟨-, rfl⟩ := returns_enforceMemberWrite.mp hmember
  apply (returns_requireMessage.mpr ⟨⟨h.mem, h.id, h.room⟩, rfl⟩).spares.bind
  intro found t hfound
  obtain ⟨⟨hmem, hid, -⟩, rfl⟩ := returns_requireMessage.mp hfound
  obtain rfl : found = row := Table.eq_of_key hmem h.mem (hid.trans h.id.symm)
  apply (Tx.spares_require (.inl h.live)).bind
  intro _ t hlive
  obtain ⟨-, rfl⟩ := Tx.returns_require.mp hlive
  apply h.change_spares.bind
  intro changed t' hchange
  have hbuilt : ∀ (message : Message) (changed : Bool), ∃ mutation,
      (args.raw message changed (rd.now 0)).build = .ok mutation :=
    fun _ _ => ReactionMutation.build_total h.key h.reactor
  apply Tx.spares_ite
  · intro htrue
    rcases changeReaction_ok hchange with ⟨hfalse, -⟩ | ⟨-, table, hchanged, rfl⟩
    · rw [hfalse] at htrue
      cases htrue
    have hvalid := reactionSummaries_valid { t with reactions := table } args.messageId
      (hchanged.keys hreactions.keys)
    apply Tx.Spares.bind
    · apply Tx.spares_read.bind
      intro summaries t' hread
      obtain ⟨rfl, rfl⟩ := Tx.returns_read.mp hread
      apply (validated_spares hvalid).bind
      intro summaries t' hvalidated
      obtain ⟨-, rfl⟩ := returns_validated.mp hvalidated
      -- the columns that the table checks are those of the row before
      apply (returns_updateMessageRow (u := ()).mpr ⟨_, rfl⟩).spares
      intro r hr hrid
      obtain rfl : r = found := Table.eq_of_key hr hmem (hrid.trans hid.symm)
      exact (h.checks hchanged.differs).1
    · intro _ t' hrefresh
      simp only [Tx.returns_bind, Tx.returns_read, returns_validated,
        returns_updateMessageRow] at hrefresh
      obtain ⟨_, _, ⟨rfl, rfl⟩, summaries, _, ⟨hsummaries, rfl⟩, -, rfl⟩ := hrefresh
      rw [hvalid] at hsummaries
      obtain rfl := Except.ok.inj hsummaries
      obtain ⟨message, hmessage⟩ := (hdb.decodes found hmem).setReactions hvalid
      have hreread : Tx.Returns (rereadMessage args.messageId)
          (({ t with reactions := table } : Database).setMessage args.messageId
            (MessageRow.setReactions (reactionSummaries args.messageId
              { t with reactions := table })) (MessageRow.setReactions_id _)) message _ :=
        returns_rereadMessage.mpr
          ⟨⟨_, mem_setMessage.mpr (.inr ⟨found, hmem, hid, rfl⟩), hid, hmessage⟩, rfl⟩
      apply hreread.spares.bind
      intro message t' hread
      obtain ⟨-, rfl⟩ := returns_rereadMessage.mp hread
      obtain ⟨mutation, hmutation⟩ := hbuilt message true
      apply (validated_spares hmutation).bind
      intro mutation t' hvalidated
      obtain ⟨-, rfl⟩ := returns_validated.mp hvalidated
      apply Tx.Spares.bind
      · refine insertWebhook_spares_fresh ?_ fun text => ?_
        · exact hfresh
        · exact not_not.mpr ⟨hchanged.differs, .inr ⟨text, rfl⟩⟩
      · intro _ _ _
        exact Tx.spares_pure
  · intro hfalse
    rcases changeReaction_ok hchange with ⟨-, rfl, -⟩ | ⟨htrue, -⟩
    · obtain ⟨message, hmessage⟩ := hdb.decodes found hmem
      apply (validated_spares hmessage).bind
      intro message _ _
      obtain ⟨mutation, hmutation⟩ := hbuilt message false
      exact validated_spares hmutation
    · exact absurd htrue hfalse

/-! ## What a call leaves -/

theorem MessageRow.setReactions_self (r : MessageRow) : r.setReactions r.reactions = r := rfl

/-- The messages of a database differ from those before a rewritten summary in their summaries. -/
theorem messages_of_rewritten {summaries : List ReactionSummary} (hok : ReactionsOk db')
    (hrow : row ∈ db.messages)
    (hreplaces : Replaces db row (row.setReactions summaries) db') (m : MessageRow) :
    m ∈ db'.messages ↔
      ∃ r ∈ db.messages, m = r.setReactions (reactionSummaries r.id db') := by
  have hown : row.setReactions summaries =
      row.setReactions (reactionSummaries row.id db') := by
    have hsummary := hok.summary _ ((hreplaces _).mpr (.inr rfl))
    change summaries = reactionSummaries row.id db' at hsummary
    rw [← hsummary]
  constructor
  · intro hm
    rcases (hreplaces m).mp hm with ⟨hmem, -⟩ | rfl
    · refine ⟨m, hmem, ?_⟩
      rw [← hok.summary m hm, MessageRow.setReactions_self]
    · exact ⟨row, hrow, hown⟩
  · rintro ⟨r, hr, rfl⟩
    by_cases hid : r.id = row.id
    · obtain rfl : r = row := Table.eq_of_key hr hrow hid
      rw [← hown]
      exact (hreplaces _).mpr (.inr rfl)
    · have hkept : r ∈ db'.messages := (hreplaces r).mpr (.inl ⟨hr, hid⟩)
      rw [← hok.summary r hkept, MessageRow.setReactions_self]
      exact hkept

theorem reaction_effect (hok : ReactionsOk db)
    (h : Tx.Returns (setMessageReaction cfg rd args) db mutation db') :
    mutation.changed = decide (args.present ≠ args.existing db) ∧
      ReactionEffect rd args db db' := by
  obtain ⟨-, row, hrow, hid, hroom, hlive, ⟨hunchanged, rfl, -, hpresent⟩ | hreacted⟩ :=
    setMessageReaction_ok h
  · have hsame : args.present = args.existing db' := hpresent
    refine ⟨by rw [hunchanged, hsame]; simp, rfl, rfl, ?_, ?_, fun w hw => .inl hw⟩
    · intro reaction
      unfold SetMessageReaction.After
      rw [hsame]
      cases hexisting : args.existing db' with
      | true => simp
      | false =>
          rw [if_neg Bool.false_ne_true]
          exact (and_iff_left_of_imp fun hr => not_existing_iff.mp hexisting reaction hr).symm
    · intro m
      constructor
      · intro hm
        exact ⟨m, hm, by rw [← hok.summary m hm, MessageRow.setReactions_self]⟩
      · rintro ⟨r, hr, rfl⟩
        rw [← hok.summary r hr, MessageRow.setReactions_self]
        exact hr
  · have hok' := hok.reacted hrow hid hroom hlive hreacted
    obtain ⟨t, summaries, hchanged, -, -, hcommits⟩ := hreacted.effect
    have hdiffers := hchanged.differs
    refine ⟨by rw [hreacted.changed, decide_eq_true hdiffers], hcommits.rooms,
      hcommits.memberControls, ?_, ?_, ?_⟩
    · intro reaction
      have hreactions : db'.reactions = t := hcommits.reactions
      unfold SetMessageReaction.After
      rw [hreactions]
      cases hchanged with
      | added hpresent _ _ _ hins =>
          rw [if_pos hpresent, Table.mem_of_insert? hins,
            not_existing_iff.mpr (Table.insert?_eq_some.mp hins).1]
          simp only [true_and]
          rfl
      | removed hpresent _ =>
          rw [if_neg (by rw [hpresent]; decide)]
          exact Table.mem_deleteWhere
    · have hbase : ({ db with reactions := t } : Database).messages = db.messages := rfl
      exact messages_of_rewritten hok' hrow
        (Replaces.of_setMessage hbase hrow hid hcommits.messages)
    · intro w hw
      rcases hcommits.outbox.mem hw with hold | ⟨-, rfl⟩
      · exact .inl hold
      · exact .inr rfl

/-! ## Calls for different reactions -/

variable {rd' : Readings} {other : SetMessageReaction}

/-- A call leaves the reactions under the other keys. -/
theorem ReactionEffect.frame (h : ReactionEffect rd args db db') {reaction : ReactionRow}
    (hkey : reaction.key ≠ args.target) : reaction ∈ db'.reactions ↔ reaction ∈ db.reactions := by
  rw [h.reactions reaction]
  unfold SetMessageReaction.After
  split_ifs
  · apply or_iff_left
    rintro ⟨-, rfl⟩
    exact hkey rfl
  · exact and_iff_left hkey

theorem ReactionEffect.existing (h : ReactionEffect rd args db db')
    (hne : args.target ≠ other.target) : other.existing db' = other.existing db := by
  rw [Bool.eq_iff_iff, existing_iff, existing_iff]
  constructor
  · rintro ⟨r, hr, hkey⟩
    exact ⟨r, (h.frame (hkey ▸ hne.symm)).mp hr, hkey⟩
  · rintro ⟨r, hr, hkey⟩
    exact ⟨r, (h.frame (hkey ▸ hne.symm)).mpr hr, hkey⟩

/-- What another call must find is not for this call to change. -/
theorem ReactionEffect.gate (h : ReactionEffect rd args db db')
    (hne : args.target ≠ other.target) :
    (∃ row, ReactionGate rd' other db' row) ↔ ∃ row, ReactionGate rd' other db row := by
  have hmay : MayWrite other.roomId other.allowFrozen other.memberSubject (rd'.now 1) db' ↔
      MayWrite other.roomId other.allowFrozen other.memberSubject (rd'.now 1) db := by
    constructor
    · rintro ⟨hroom, hmember⟩
      unfold MemberMayWrite at hmember
      rw [h.rooms] at hroom
      rw [h.memberControls] at hmember
      exact ⟨hroom, hmember⟩
    · rintro ⟨hroom, hmember⟩
      unfold MemberMayWrite at hmember
      rw [← h.rooms] at hroom
      rw [← h.memberControls] at hmember
      exact ⟨hroom, hmember⟩
  constructor
  · rintro ⟨row, hgate⟩
    obtain ⟨r, hr, rfl⟩ := (h.messages row).mp hgate.mem
    exact ⟨r, hmay.mp hgate.mayWrite, hr, hgate.id, hgate.room, hgate.live, hgate.key,
      hgate.reactor, h.existing hne ▸ hgate.checks⟩
  · rintro ⟨row, hgate⟩
    exact ⟨row.setReactions (reactionSummaries row.id db'), hmay.mpr hgate.mayWrite,
      (h.messages _).mpr ⟨row, hgate.mem, rfl⟩, hgate.id, hgate.room, hgate.live, hgate.key,
      hgate.reactor, (h.existing hne).symm ▸ hgate.checks⟩

/-- The other call's fresh event id stays fresh. -/
theorem ReactionEffect.fresh (h : ReactionEffect rd args db db')
    (huuid : (rd.uuid 0).text ≠ (rd'.uuid 0).text)
    (hfresh : ∀ w ∈ db.webhooks, w.id ≠ "wh_" ++ (rd'.uuid 0).text) :
    ∀ w ∈ db'.webhooks, w.id ≠ "wh_" ++ (rd'.uuid 0).text := by
  intro w hw
  rcases h.webhooks w hw with hold | hnew
  · exact hfresh w hold
  · rw [hnew]
    intro heq
    exact huuid (String.append_right_inj _ |>.mp heq)

/-- Two changes of different reactions leave the same rows in either order. -/
theorem after_comm {dbA dbB : Database} (hne : args.target ≠ other.target)
    (hA : ReactionEffect rd args db dbA) (hB : ReactionEffect rd' other db dbB)
    (reaction : ReactionRow) :
    other.After (rd'.now 0) dbA reaction ↔ args.After (rd.now 0) dbB reaction := by
  have hrow : (args.row (rd.now 0)).key = args.target := rfl
  have hrow' : (other.row (rd'.now 0)).key = other.target := rfl
  unfold SetMessageReaction.After
  rw [hA.reactions, hB.reactions, hA.existing hne, hB.existing hne.symm]
  unfold SetMessageReaction.After
  split_ifs
  · tauto
  · constructor
    · rintro (⟨hr, hkey⟩ | hnew)
      · exact ⟨.inl hr, hkey⟩
      · exact ⟨.inr hnew, by rw [hnew.2, hrow']; exact hne.symm⟩
    · rintro ⟨hr | hnew, hkey⟩
      · exact .inl ⟨hr, hkey⟩
      · exact .inr hnew
  · constructor
    · rintro ⟨hr | hnew, hkey⟩
      · exact .inl ⟨hr, hkey⟩
      · exact .inr hnew
    · rintro (⟨hr, hkey⟩ | hnew)
      · exact ⟨.inl hr, hkey⟩
      · exact ⟨.inr hnew, by rw [hnew.2, hrow]; exact hne⟩
  · tauto

/-- The messages after two calls are those before, with the summaries of the reactions after. -/
theorem messages_twice {dbA dbAB : Database} (hA : ReactionEffect rd args db dbA)
    (hAB : ReactionEffect rd' other dbA dbAB) (m : MessageRow) :
    m ∈ dbAB.messages ↔
      ∃ r ∈ db.messages, m = r.setReactions (reactionSummaries r.id dbAB) := by
  rw [hAB.messages m]
  constructor
  · rintro ⟨s, hs, rfl⟩
    obtain ⟨r, hr, rfl⟩ := (hA.messages s).mp hs
    exact ⟨r, hr, rfl⟩
  · rintro ⟨r, hr, rfl⟩
    exact ⟨_, (hA.messages _).mpr ⟨r, hr, rfl⟩, rfl⟩

/-! ## The outcome of a call -/

/-- The call was not refused for want of room. -/
def HadRoom (outcome : Except StoreError Reply) : Prop :=
  ∀ e, CapacityError e → outcome ≠ .error e

/-- Whether a call that was not refused changed something. -/
def changedOf : Except StoreError Reply → Option Bool
  | .ok (.reaction mutation) => some mutation.changed
  | _ => none

theorem changedOf_eq_some {outcome : Except StoreError Reply} {b : Bool}
    (h : changedOf outcome = some b) :
    ∃ mutation, outcome = .ok (.reaction mutation) ∧ mutation.changed = b := by
  unfold changedOf at h
  split at h
  · exact ⟨_, rfl, Option.some.inj h⟩
  · cases h

/-- The two ways in which a call that has room ends. -/
inductive ReactionOutcome (cfg : Config) (rd : Readings) (args : SetMessageReaction)
    (db : Database) : Prop
  | accepted (mutation : ReactionMutation) (db' : Database) :
      exec cfg rd (.setMessageReaction args) db = (.ok (.reaction mutation), db') →
      mutation.changed = decide (args.present ≠ args.existing db) →
      (∃ row, ReactionGate rd args db row) → ReactionEffect rd args db db' →
      ReactionOutcome cfg rd args db
  | refused (e : StoreError) :
      exec cfg rd (.setMessageReaction args) db = (.error e, db) →
      (¬ ∃ row, ReactionGate rd args db row) → ReactionOutcome cfg rd args db

theorem reaction_outcome (hdb : Consistent db) (hok : ReactionsOk db)
    (hfresh : ∀ w ∈ db.webhooks, w.id ≠ "wh_" ++ (rd.uuid 0).text)
    (hroom : HadRoom (exec cfg rd (.setMessageReaction args) db).1) :
    ReactionOutcome cfg rd args db := by
  rcases Tx.returns_or_raises (setMessageReaction cfg rd args) db with
    ⟨mutation, db', hreturns⟩ | ⟨e, hraises⟩
  · have hexec : exec cfg rd (.setMessageReaction args) db = (.ok (.reaction mutation), db') :=
      exec_ok.mpr (Tx.returns_map.mpr ⟨mutation, hreturns, rfl⟩)
    obtain ⟨hchanged, heffect⟩ := reaction_effect hok hreturns
    exact .accepted mutation db' hexec hchanged (setMessageReaction_gate hreturns) heffect
  · have hexec : exec cfg rd (.setMessageReaction args) db = (.error e, db) :=
      Tx.atomically_raises.mpr (Tx.raises_map.mpr hraises)
    refine .refused e hexec ?_
    rintro ⟨row, hgate⟩
    have hwant := not_not.mp (hgate.spares hdb hok hfresh e hraises)
    exact hroom e hwant.2 (by rw [hexec])

/-- A call whose reaction is as it asks returns, and changes nothing. -/
theorem reaction_repeated (hdb : Consistent db) (hgate : ReactionGate rd args db row)
    (hsame : args.present = args.existing db) :
    ∃ mutation, exec cfg rd (.setMessageReaction args) db = (.ok (.reaction mutation), db) ∧
      mutation.changed = false := by
  obtain ⟨message, hmessage⟩ := hdb.decodes row hgate.mem
  have hbuilt : ∃ mutation, (args.raw message false (rd.now 0)).build = .ok mutation :=
    ReactionMutation.build_total hgate.key hgate.reactor
  obtain ⟨mutation, hmutation⟩ := hbuilt
  have hreturns : Tx.Returns (setMessageReaction cfg rd args) db mutation db := by
    unfold setMessageReaction
    simp only [Tx.returns_bind, Tx.returns_require, Tx.returns_ite, returns_requireOpenRoom,
      returns_enforceMemberWrite, returns_requireMessage, returns_validated]
    refine ⟨(), db, ⟨hgate.mayWrite.room, rfl⟩, (), db, ⟨hgate.mayWrite.member, rfl⟩, row, db,
      ⟨⟨hgate.mem, hgate.id, hgate.room⟩, rfl⟩, (), db, ⟨hgate.live, rfl⟩, false, db, ?_,
      .inr ⟨Bool.false_ne_true, message, db, ⟨hmessage, rfl⟩, hmutation, rfl⟩⟩
    unfold changeReaction
    simp only [Tx.returns_bind, Tx.returns_read, Tx.returns_ite, Tx.returns_pure]
    have hfind : (db.reactions.find? (args.messageId, args.reactor, args.key)).isSome =
        args.present := hsame.symm
    refine ⟨_, db, ⟨rfl, rfl⟩, .inr ⟨?_, .inr ⟨?_, trivial, rfl⟩⟩⟩
    · rw [hfind]
      rintro ⟨htrue, hfalse⟩
      rw [htrue] at hfalse
      cases hfalse
    · rw [hfind]
      rintro ⟨hfalse, htrue⟩
      rw [hfalse] at htrue
      cases htrue
  exact ⟨mutation, exec_ok.mpr (Tx.returns_map.mpr ⟨mutation, hreturns, rfl⟩),
    (ReactionMutation.build_ok hmutation).2⟩

/-- After a call its reaction is as it asked. -/
theorem ReactionEffect.settled (h : ReactionEffect rd args db db') :
    args.present = args.existing db' := by
  symm
  cases hpresent : args.present with
  | true =>
      rw [existing_iff]
      cases hexisting : args.existing db with
      | true =>
          obtain ⟨r, hr, hkey⟩ := existing_iff.mp hexisting
          refine ⟨r, (h.reactions r).mpr ?_, hkey⟩
          unfold SetMessageReaction.After
          rw [if_pos hpresent]
          exact .inl hr
      | false =>
          refine ⟨args.row (rd.now 0), (h.reactions _).mpr ?_, rfl⟩
          unfold SetMessageReaction.After
          rw [if_pos hpresent]
          exact .inr ⟨hexisting, rfl⟩
  | false =>
      rw [not_existing_iff]
      intro r hr
      have hafter := (h.reactions r).mp hr
      unfold SetMessageReaction.After at hafter
      rw [if_neg (by rw [hpresent]; decide)] at hafter
      exact hafter.2

end Calls

/-! ## The calls on a reachable database -/

/-- A repeat changes nothing: of whatever caller and at whatever time, and it is not refused when
the caller may still write. -/
def ReactionsIdempotent (cfg : Config) (db : Database) : Prop :=
  ∀ rd args mutation db',
    exec cfg rd (.setMessageReaction args) db = (.ok (.reaction mutation), db') →
      (∀ (rd' : Readings) (again : SetMessageReaction), again.target = args.target →
        again.present = args.present →
          (exec cfg rd' (.setMessageReaction again) db').2 = db' ∧
            changedOf (exec cfg rd' (.setMessageReaction again) db').1 ≠ some true) ∧
      ∀ rd' : Readings, MemberMayWrite args.roomId args.memberSubject (rd'.now 1) db' →
        changedOf (exec cfg rd' (.setMessageReaction args) db').1 = some false

/-- The same messages, with the same summaries, and the same reactions. -/
def SameReactions (db db' : Database) : Prop :=
  (∀ m, m ∈ db.messages ↔ m ∈ db'.messages) ∧ ∀ r, r ∈ db.reactions ↔ r ∈ db'.reactions

/-- Two calls for different reactions, under event ids of their own, leave the same in either
order when none is refused for want of room, and each changes something in both or in neither. -/
def ReactionsCommute (cfg : Config) (db : Database) : Prop :=
  ∀ (rd rd' : Readings) (args other : SetMessageReaction), args.target ≠ other.target →
    (rd.uuid 0).text ≠ (rd'.uuid 0).text →
    (∀ w ∈ db.webhooks, w.id ≠ "wh_" ++ (rd.uuid 0).text ∧ w.id ≠ "wh_" ++ (rd'.uuid 0).text) →
    ∀ first second, exec cfg rd (.setMessageReaction args) db = first →
      exec cfg rd' (.setMessageReaction other) db = second →
      HadRoom first.1 → HadRoom (exec cfg rd' (.setMessageReaction other) first.2).1 →
      HadRoom second.1 → HadRoom (exec cfg rd (.setMessageReaction args) second.2).1 →
        SameReactions (exec cfg rd' (.setMessageReaction other) first.2).2
            (exec cfg rd (.setMessageReaction args) second.2).2 ∧
          changedOf first.1 = changedOf (exec cfg rd (.setMessageReaction args) second.2).1 ∧
          changedOf second.1 = changedOf (exec cfg rd' (.setMessageReaction other) first.2).1

section Theorems

variable {cfg : Config} {db : Database}

theorem exec_reaction_cases (cfg : Config) (rd : Readings) (args : SetMessageReaction)
    (db : Database) :
    (∃ mutation db', Tx.Returns (setMessageReaction cfg rd args) db mutation db' ∧
      exec cfg rd (.setMessageReaction args) db = (.ok (.reaction mutation), db')) ∨
    ∃ e, exec cfg rd (.setMessageReaction args) db = (.error e, db) := by
  rcases Tx.returns_or_raises (setMessageReaction cfg rd args) db with
    ⟨mutation, db', hreturns⟩ | ⟨e, hraises⟩
  · exact .inl ⟨mutation, db', hreturns,
      exec_ok.mpr (Tx.returns_map.mpr ⟨mutation, hreturns, rfl⟩)⟩
  · exact .inr ⟨e, Tx.atomically_raises.mpr (Tx.raises_map.mpr hraises)⟩

theorem returns_of_exec {rd : Readings} {args : SetMessageReaction} {mutation : ReactionMutation}
    {db' : Database}
    (h : exec cfg rd (.setMessageReaction args) db = (.ok (.reaction mutation), db')) :
    Tx.Returns (setMessageReaction cfg rd args) db mutation db' := by
  obtain ⟨mutation', hreturns, hreply⟩ := Tx.returns_map.mp (exec_ok.mp h)
  cases hreply
  exact hreturns

theorem reactionsIdempotent (h : StoreReachable cfg db) : ReactionsIdempotent cfg db := by
  intro rd args mutation db' hexec
  have hreturns := returns_of_exec hexec
  have hok := h.reactionsOk
  obtain ⟨hchanged, heffect⟩ := reaction_effect hok hreturns
  have hsettled := heffect.settled
  have hok' : ReactionsOk db' := hok.call (exec_ok.mp hexec)
  have hdb' : Consistent db' := h.consistent.call (exec_ok.mp hexec)
  constructor
  · intro rd' again htarget hpresent
    have hsame : again.present = again.existing db' := by
      unfold SetMessageReaction.existing
      rw [hpresent, htarget]
      exact hsettled
    rcases exec_reaction_cases cfg rd' again db' with
      ⟨mutation', u, hreturns', hexec'⟩ | ⟨e, herror⟩
    · rw [hexec']
      obtain ⟨-, row, -, -, -, -, ⟨hunchanged, rfl, -⟩ | hreacted⟩ :=
        setMessageReaction_ok hreturns'
      · exact ⟨rfl, by rw [changedOf, hunchanged]; decide⟩
      · obtain ⟨t, -, hmoved, -⟩ := hreacted.effect
        exact absurd hsame hmoved.differs
    · rw [herror]
      exact ⟨rfl, nofun⟩
  · intro rd' hmember
    obtain ⟨row, hgate⟩ := setMessageReaction_gate hreturns
    have hmem : row.setReactions (reactionSummaries row.id db') ∈ db'.messages :=
      (heffect.messages _).mpr ⟨row, hgate.mem, rfl⟩
    have hroom := hgate.mayWrite.room
    rw [← heffect.rooms] at hroom
    have hgate' : ReactionGate rd' args db'
        (row.setReactions (reactionSummaries row.id db')) :=
      ⟨⟨hroom, hmember⟩, hmem, hgate.id, hgate.room, hgate.live, hgate.key, hgate.reactor,
        fun hdiffers => absurd hsettled hdiffers⟩
    obtain ⟨mutation', hexec', hunchanged⟩ := reaction_repeated hdb' hgate' hsettled
    rw [hexec', changedOf, hunchanged]

theorem reactionsCommute (h : StoreReachable cfg db) : ReactionsCommute cfg db := by
  rintro rd rd' args other hne huuid hfresh first second rfl rfl hroomA hroomAB hroomB hroomBA
  have hok := h.reactionsOk
  have hdb := h.consistent
  have hfreshA : ∀ w ∈ db.webhooks, w.id ≠ "wh_" ++ (rd.uuid 0).text :=
    fun w hw => (hfresh w hw).1
  have hfreshB : ∀ w ∈ db.webhooks, w.id ≠ "wh_" ++ (rd'.uuid 0).text :=
    fun w hw => (hfresh w hw).2
  cases reaction_outcome hdb hok hfreshA hroomA with
  | refused e hA hgateA =>
      rw [hA] at hroomAB ⊢
      cases reaction_outcome hdb hok hfreshB hroomB with
      | refused e' hB hgateB =>
          -- neither changes anything
          rw [hB] at hroomBA ⊢
          dsimp only
          rw [hA]
          exact ⟨⟨fun _ => Iff.rfl, fun _ => Iff.rfl⟩, rfl, rfl⟩
      | accepted mutation dbB hB hchanged hgateB heffectB =>
          rw [hB] at hroomBA ⊢
          have hdbB : Consistent dbB := hdb.call (exec_ok.mp hB)
          have hokB : ReactionsOk dbB := hok.call (exec_ok.mp hB)
          dsimp only
          cases reaction_outcome hdbB hokB (heffectB.fresh huuid.symm hfreshA) hroomBA with
          | refused e' hBA _ =>
              rw [hBA]
              exact ⟨⟨fun _ => Iff.rfl, fun _ => Iff.rfl⟩, rfl, rfl⟩
          | accepted _ _ _ _ hgate _ =>
              exact absurd ((heffectB.gate hne.symm).mp hgate) hgateA
  | accepted mutationA dbA hA hchangedA hgateA heffectA =>
      rw [hA] at hroomAB ⊢
      have hdbA : Consistent dbA := hdb.call (exec_ok.mp hA)
      have hokA : ReactionsOk dbA := hok.call (exec_ok.mp hA)
      have hfreshAB := heffectA.fresh huuid hfreshB
      cases reaction_outcome hdb hok hfreshB hroomB with
      | refused e' hB hgateB =>
          rw [hB] at hroomBA ⊢
          dsimp only
          cases reaction_outcome hdbA hokA hfreshAB hroomAB with
          | refused e' hAB _ =>
              rw [hAB, hA]
              exact ⟨⟨fun _ => Iff.rfl, fun _ => Iff.rfl⟩, rfl, rfl⟩
          | accepted _ _ _ _ hgate _ =>
              exact absurd ((heffectA.gate hne).mp hgate) hgateB
      | accepted mutationB dbB hB hchangedB hgateB heffectB =>
          rw [hB] at hroomBA ⊢
          have hdbB : Consistent dbB := hdb.call (exec_ok.mp hB)
          have hokB : ReactionsOk dbB := hok.call (exec_ok.mp hB)
          dsimp only
          cases reaction_outcome hdbA hokA hfreshAB hroomAB with
          | refused e hAB hgate => exact absurd ((heffectA.gate hne).mpr hgateB) hgate
          | accepted mutationAB dbAB hAB hchangedAB _ heffectAB =>
              cases reaction_outcome hdbB hokB (heffectB.fresh huuid.symm hfreshA) hroomBA with
              | refused e hBA hgate => exact absurd ((heffectB.gate hne.symm).mpr hgateA) hgate
              | accepted mutationBA dbBA hBA hchangedBA _ heffectBA =>
                  rw [hAB, hBA]
                  have hreactions : ∀ r, r ∈ dbAB.reactions ↔ r ∈ dbBA.reactions := by
                    intro r
                    rw [heffectAB.reactions r, heffectBA.reactions r]
                    exact after_comm hne heffectA heffectB r
                  refine ⟨⟨fun m => ?_, hreactions⟩, ?_, ?_⟩
                  · rw [messages_twice heffectA heffectAB, messages_twice heffectB heffectBA]
                    have hsummaries : ∀ id, reactionSummaries id dbAB = reactionSummaries id dbBA :=
                      fun _ => reactionSummaries_congr fun r _ => hreactions r
                    simp only [hsummaries]
                  · show some mutationA.changed = some mutationBA.changed
                    rw [hchangedA, hchangedBA, heffectB.existing hne.symm]
                  · show some mutationB.changed = some mutationAB.changed
                    rw [hchangedB, hchangedAB, heffectA.existing hne]

end Theorems

/-- In every reachable database the summaries agree with the reactions; and of the calls on it,
repeats change nothing, calls for different reactions commute, and a call that is refused for want
of room for its key leaves the messages and the reactions as they are. -/
theorem reactions_settled {cfg : Config} {db : Database} (h : StoreReachable cfg db) :
    ReactionsAgree db ∧ ReactionsIdempotent cfg db ∧ ReactionsCommute cfg db ∧
      ∀ rd args messageId db', exec cfg rd (.setMessageReaction args) db =
        (.error (.reactionCapacity messageId), db') → db' = db :=
  ⟨h.reactionsOk.agree, reactionsIdempotent h, reactionsCommute h,
    fun _ _ _ _ hrefused => exec_error hrefused⟩

/-- A reaction of ada to the first message. -/
def reactFirst : Command :=
  .setMessageReaction
    { roomId := "general", messageId := (UuidHex.ofNat 20).text, reactor := "ada",
      key := "thumbs_up", present := true }

/-- A reaction that is sent again. -/
theorem reactions_settled_again :
    changedOf (exec smallConfig (.fixed 4 40) reactFirst
      (exec smallConfig (.fixed 3 30) reactFirst
        (runCalls smallConfig [(.fixed 1 0, makeRoom), (.fixed 2 20, sayFirst)] {})).2).1 =
      some false := by
  have hidempotent :=
    (reactions_settled (runCalls_reachable smallConfig
      [(.fixed 1 0, makeRoom), (.fixed 2 20, sayFirst)])).2.1
  have hfirst : changedOf (exec smallConfig (.fixed 3 30) reactFirst
      (runCalls smallConfig [(.fixed 1 0, makeRoom), (.fixed 2 20, sayFirst)] {})).1 =
        some true := by
    decide +kernel
  generalize hexec : exec smallConfig (.fixed 3 30) reactFirst
    (runCalls smallConfig [(.fixed 1 0, makeRoom), (.fixed 2 20, sayFirst)] {}) = reacted at hfirst
  obtain ⟨outcome, db'⟩ := reacted
  obtain ⟨mutation, rfl, -⟩ := changedOf_eq_some hfirst
  exact (hidempotent _ _ _ _ hexec).2 (.fixed 4 40) nofun

end Store
end ChatEngine
