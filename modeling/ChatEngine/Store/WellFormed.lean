import Mathlib.Data.List.Dedup
import ChatEngine.Models.Payloads
import ChatEngine.Store.Privacy

/-!
# Rows that every read accepts

Content is validated when it comes in, stored under the `CHECK` constraints of its table, and
validated again whenever a stored row is read.  A row is well formed when every later
validation accepts it unchanged.

* `MessageRow.WellFormed`, with `WellFormed.messageFromRow_eq` and `WellFormed.checks`;
* one lemma for each rewrite of a row that keeps it well formed;
* `Poison`, the errors refused content raises, and for each write operation the lemma that
  normal arguments raise none of them on well-formed tables (`Sound`).
-/

namespace ChatEngine
namespace Store

open Lib
open Models

/-- Every validation of the row accepts it and changes nothing. -/
structure MessageRow.WellFormed (r : MessageRow) : Prop where
  reactions : validateEach ReactionSummary.validate r.reactions = .ok r.reactions
  metadata : NormalMetadata r.metadata
  attachments : NormalAttachments r.attachments
  mentions : NormalMentions r.mentionedSubjects
  pins : r.pinnedAt.isNone = r.pinnedBy.isNone
  pinner : ∀ actor, r.pinnedBy = some actor → NormalActor actor ∧ sqliteActorOk actor = true
  tombstone : r.deletedAt ≠ none →
    r.pinnedAt = none ∧ r.metadata = [] ∧ r.attachments = [] ∧ r.mentionedSubjects = []

theorem MessageRow.WellFormed.checks {r : MessageRow} (h : r.WellFormed) : r.Checks :=
  ⟨fun actor hactor => (h.pinner actor hactor).2, h.metadata.size, h.attachments.size,
    h.mentions.size⟩

/-- The message a well-formed row decodes to. -/
def MessageRow.decoded (r : MessageRow) : Message := (r.raw r.reactions r.attachments).stripFields

/-- The rules of the whole message hold of what the row decodes to. -/
theorem MessageRow.WellFormed.pinMetadata {r : MessageRow} (h : r.WellFormed) :
    r.decoded.pinMetadataError? = none := by
  unfold Message.pinMetadataError? MessageRow.decoded MessageRow.raw Message.stripFields
  dsimp only
  have hpins : r.pinnedAt.isNone = (r.pinnedBy.map stripWhitespace).isNone := by
    rw [h.pins, Option.isNone_map]
  rw [if_neg (not_not.mpr hpins)]
  cases hdeleted : r.deletedAt with
  | none => simp
  | some t =>
      have hdead : r.deletedAt ≠ none := by
        rw [hdeleted]
        exact Option.some_ne_none t
      obtain ⟨hpinned, hmetadata, hattachments, hmentions⟩ := h.tombstone hdead
      simp [hpinned, hmetadata, hattachments, hmentions]

/-- Every read of the row succeeds. -/
theorem MessageRow.WellFormed.messageFromRow_eq {r : MessageRow} (h : r.WellFormed) :
    messageFromRow r = .ok r.decoded := by
  unfold messageFromRow
  rw [h.reactions, h.attachments.each]
  exact Message.build_normal h.metadata h.attachments h.mentions
    (fun actor hactor => (h.pinner actor hactor).1) h.pinMetadata

/-! ## Rewrites that keep a row well formed -/

theorem MessageRow.WellFormed.sameButParent {r s : MessageRow} (h : r.WellFormed)
    (hsame : SameButParent r s) : s.WellFormed := by
  rw [hsame]
  exact ⟨h.reactions, h.metadata, h.attachments, h.mentions, h.pins, h.pinner, h.tombstone⟩

/-- The content of a create is in the form its validation leaves. -/
structure CreateMessage.Normal (args : CreateMessage) : Prop where
  metadata : NormalMetadata args.metadata
  attachments : NormalAttachments args.attachments
  mentions : NormalMentions args.mentionedSubjects

theorem CreateMessage.Normal.build_eq {args : CreateMessage} (h : args.Normal) (id : UuidHex)
    (createdAt : Timestamp) :
    (args.raw id createdAt).build = .ok (args.raw id createdAt).stripFields :=
  Message.build_normal h.metadata h.attachments h.mentions nofun rfl

theorem newMessageRow_wellFormed {args : CreateMessage} (h : args.Normal) (id : UuidHex)
    (createdAt : Timestamp) (author : Option String) :
    (newMessageRow (args.raw id createdAt).stripFields author).WellFormed where
  reactions := rfl
  metadata := by
    show NormalMetadata (sortKeys args.metadata)
    rw [h.metadata.sortKeys_eq]
    exact h.metadata
  attachments := h.attachments
  mentions := h.mentions
  pins := rfl
  pinner := nofun
  tombstone := fun hdead => absurd rfl hdead

/-- What an update replaces is in the form its validation leaves. -/
structure UpdateMessage.Normal (args : UpdateMessage) : Prop where
  metadata : ∀ v, args.metadata = some v → NormalMetadata v
  mentions : ∀ v, args.mentionedSubjects = some v → NormalMentions v

theorem UpdateMessage.Normal.apply {args : UpdateMessage} (hargs : args.Normal) {r : MessageRow}
    (h : r.WellFormed) (hlive : r.deletedAt = none) (editedAt : Timestamp) :
    (args.apply editedAt r).WellFormed where
  reactions := h.reactions
  metadata := by
    show NormalMetadata ((args.metadata.map sortKeys).getD r.metadata)
    cases hmetadata : args.metadata with
    | none => exact h.metadata
    | some v =>
        have hv := hargs.metadata v hmetadata
        show NormalMetadata (sortKeys v)
        rw [hv.sortKeys_eq]
        exact hv
  attachments := h.attachments
  mentions := by
    show NormalMentions (args.mentionedSubjects.getD r.mentionedSubjects)
    cases hmentions : args.mentionedSubjects with
    | none => exact h.mentions
    | some v => exact hargs.mentions v hmentions
  pins := h.pins
  pinner := h.pinner
  tombstone := fun hdead => absurd hlive hdead

theorem MessageRow.WellFormed.tombstoned (r : MessageRow) (deletedAt : Timestamp) :
    (r.tombstone deletedAt).WellFormed where
  reactions := rfl
  metadata := NormalMetadata.nil
  attachments := NormalAttachments.nil
  mentions := NormalMentions.nil
  pins := rfl
  pinner := nofun
  tombstone := fun _ => ⟨rfl, rfl, rfl, rfl⟩

theorem MessageRow.WellFormed.reacted {r : MessageRow} (h : r.WellFormed)
    {summaries : List ReactionSummary}
    (hvalid : validateEach ReactionSummary.validate summaries = .ok summaries) :
    (r.setReactions summaries).WellFormed :=
  ⟨hvalid, h.metadata, h.attachments, h.mentions, h.pins, h.pinner, h.tombstone⟩

/-- A pinner whose name the models accept, and the table when it is stored. -/
structure SetMessagePin.Normal (args : SetMessagePin) : Prop where
  actor : NormalActor args.pinner
  column : args.pinned = true → sqliteActorOk args.pinner = true

theorem SetMessagePin.Normal.apply {args : SetMessagePin} (hargs : args.Normal) {r : MessageRow}
    (h : r.WellFormed) (hlive : r.deletedAt = none) (now : Timestamp) :
    (args.apply now r).WellFormed where
  reactions := h.reactions
  metadata := h.metadata
  attachments := h.attachments
  mentions := h.mentions
  pins := by
    show (if args.pinned = true then some now else none).isNone =
      (if args.pinned = true then some args.pinner else none).isNone
    split <;> rfl
  pinner := by
    intro actor hactor
    change (if args.pinned = true then some args.pinner else none) = some actor at hactor
    split_ifs at hactor with hpinned
    cases hactor
    exact ⟨hargs.actor, hargs.column hpinned⟩
  tombstone := fun hdead => absurd hlive hdead

/-! ## Errors of content -/

/-- The errors that refused content raises. -/
def Poison (e : StoreError) : Prop := e = .check ∨ ∃ v, e = .validation v

section Spares

variable {cfg : Config} {db : Database} {roomId : String} {now : Timestamp}

theorem validated_spares {α : Type} {x : Except ValidationError α} {a : α}
    {bad : StoreError → Prop} (h : x = .ok a) : Tx.Spares (validated x) db bad := by
  intro e hraises
  rw [h] at hraises
  cases hraises

theorem requireOpenRoom_spares {allowFrozen : Bool} :
    Tx.Spares (requireOpenRoom roomId allowFrozen) db Poison := by
  unfold requireOpenRoom
  apply Tx.spares_read.bind
  intro room _ _
  apply (Tx.spares_orRaise (.inr (by simp [Poison]))).bind
  intro room _ _
  apply (Tx.spares_require (.inr (by simp [Poison]))).bind
  intro _ _ _
  exact Tx.spares_require (.inr (by simp [Poison]))

theorem requireDeletableRoom_spares {isAdmin : Bool} :
    Tx.Spares (requireDeletableRoom roomId isAdmin) db Poison := by
  unfold requireDeletableRoom
  apply Tx.spares_read.bind
  intro room _ _
  apply (Tx.spares_orRaise (.inr (by simp [Poison]))).bind
  intro room _ _
  apply (Tx.spares_require (.inr (by simp [Poison]))).bind
  intro _ _ _
  exact Tx.spares_require (.inr (by simp [Poison]))

theorem enforceMemberWrite_spares {subject : Option String} :
    Tx.Spares (enforceMemberWrite roomId subject now) db Poison := by
  unfold enforceMemberWrite
  cases subject with
  | none => exact Tx.spares_pure
  | some subject =>
      apply Tx.spares_read.bind
      intro row _ _
      cases row with
      | none => exact Tx.spares_pure
      | some row =>
          apply (Tx.spares_require (.inr (by simp [Poison]))).bind
          intro _ _ _
          exact Tx.spares_require (.inr (by simp [Poison]))

theorem requireMessage_spares {messageId : String} :
    Tx.Spares (requireMessage roomId messageId) db Poison := by
  unfold requireMessage
  apply Tx.spares_read.bind
  intro row _ _
  exact Tx.spares_orRaise (.inr (by simp [Poison]))

theorem requireParent_spares {parentMessageId : Option String} :
    Tx.Spares (requireParent roomId parentMessageId) db Poison := by
  unfold requireParent
  cases parentMessageId with
  | none => exact Tx.spares_pure
  | some parentId =>
      apply requireMessage_spares.bind
      intro parent _ _
      apply (Tx.spares_require (.inr (by simp [Poison]))).bind
      intro _ _ _
      exact Tx.spares_require (.inr (by simp [Poison]))

theorem insertAudit_spares {id : UuidHex} {action : AuditAction} {actor : String}
    {room : Option String} {details : AuditDetails} :
    Tx.Spares (insertAudit cfg id now action actor room details) db Poison := by
  unfold insertAudit
  apply Tx.spares_read.bind
  intro inserted _ _
  apply (Tx.spares_orRaise (.inr (by simp [Poison]))).bind
  intro inserted _ _
  exact Tx.spares_write

theorem insertWebhook_spares {id : UuidHex} {type : EventType} {resourceId : String}
    {data : WebhookData} :
    Tx.Spares (insertWebhook cfg id type roomId resourceId now data) db Poison := by
  unfold insertWebhook
  apply Tx.spares_ite
  · intro _
    exact Tx.spares_pure
  · intro _
    apply Tx.spares_write.bind
    intro _ _ _
    apply Tx.spares_read.bind
    intro count _ _
    apply (Tx.spares_require (.inr (by simp [Poison]))).bind
    intro _ _ _
    apply Tx.spares_read.bind
    intro inserted _ _
    apply (Tx.spares_orRaise (.inr (by simp [Poison]))).bind
    intro inserted _ _
    exact Tx.spares_write

theorem deleteMessagesWithWebhookScrub_spares {select : Database → List MessageRow} :
    Tx.Spares (deleteMessagesWithWebhookScrub select) db Poison := by
  unfold deleteMessagesWithWebhookScrub
  apply Tx.spares_read.bind
  intro batch _ _
  apply Tx.spares_ite
  · intro _
    exact Tx.spares_pure
  · intro _
    apply Tx.spares_write.bind
    intro _ _ _
    exact Tx.spares_pure

theorem trimMessages_spares {auditId : UuidHex} {auditAt : Timestamp} :
    Tx.Spares (trimMessages cfg roomId now auditId auditAt) db Poison := by
  unfold trimMessages trimByAge
  apply Tx.Spares.bind
  · apply Tx.spares_ite
    · intro _
      exact Tx.spares_pure
    · intro _
      exact deleteMessagesWithWebhookScrub_spares
  intro _ _ _
  apply deleteMessagesWithWebhookScrub_spares.bind
  intro _ _ _
  apply deleteMessagesWithWebhookScrub_spares.bind
  intro _ _ _
  apply Tx.spares_ite
  · intro _
    exact Tx.spares_pure
  · intro _
    exact insertAudit_spares

/-- An insert of a well-formed row fails on keys only. -/
theorem insertMessageRow_spares {row : MessageRow} (h : row.WellFormed) :
    Tx.Spares (insertMessageRow row) db Poison := by
  unfold insertMessageRow
  apply (Tx.spares_require (.inl h.checks)).bind
  intro _ _ _
  apply Tx.spares_read.bind
  intro admissible _ _
  apply (Tx.spares_require (.inr (by simp [Poison]))).bind
  intro _ _ _
  apply Tx.spares_read.bind
  intro inserted _ _
  apply (Tx.spares_orRaise (.inr (by simp [Poison]))).bind
  intro inserted _ _
  exact Tx.spares_write

/-- An update to a well-formed row does not fail. -/
theorem updateMessageRow_spares {messageId : String} {f : MessageRow → MessageRow}
    {hid : ∀ r, (f r).id = r.id}
    (h : ∀ r ∈ db.messages, r.id = messageId → (f r).WellFormed) :
    Tx.Spares (updateMessageRow messageId f hid) db Poison := by
  unfold updateMessageRow
  apply Tx.spares_read.bind
  intro checked t hchecked
  obtain ⟨rfl, rfl⟩ := Tx.returns_read.mp hchecked
  apply Tx.Spares.bind
  · apply Tx.spares_require
    left
    exact decide_eq_true fun r hr hrid => (h r hr hrid).checks
  · intro _ _ _
    exact Tx.spares_write

theorem rereadMessage_spares {messageId : String}
    (h : ∀ r ∈ db.messages, r.id = messageId → r.WellFormed) :
    Tx.Spares (rereadMessage messageId) db Poison := by
  unfold rereadMessage
  apply Tx.spares_read.bind
  intro found t hfound
  obtain ⟨rfl, rfl⟩ := Tx.returns_read.mp hfound
  apply (Tx.spares_orRaise (.inr (by simp [Poison]))).bind
  intro row t' hrow
  obtain ⟨hfind, rfl⟩ := Tx.returns_orRaise.mp hrow
  obtain ⟨hmem, hid⟩ := Table.find?_eq_some.mp hfind
  exact validated_spares (h row hmem hid).messageFromRow_eq

end Spares

/-! ## The invariant -/

/-- Every message row is well formed, and every reaction row has a valid key. -/
structure Sound (db : Database) : Prop where
  rows : ∀ r ∈ db.messages, r.WellFormed
  reactions : ∀ r ∈ db.reactions, matchesReactionKey r.reactionKey = true

theorem validateEach_self {α : Type} {f : α → Except ValidationError α} {v : List α}
    (h : ∀ a ∈ v, f a = .ok a) : validateEach f v = .ok v := by
  induction v with
  | nil => rfl
  | cons a rest ih =>
      unfold validateEach
      rw [h a List.mem_cons_self, ih fun b hb => h b (List.mem_cons_of_mem a hb)]

/-- The summary of stored reactions is valid. -/
theorem reactionSummaries_valid (db : Database) (messageId : String)
    (h : ∀ r ∈ db.reactions, matchesReactionKey r.reactionKey = true) :
    validateEach ReactionSummary.validate (reactionSummaries messageId db) =
      .ok (reactionSummaries messageId db) := by
  apply validateEach_self
  intro summary hsummary
  unfold reactionSummaries at hsummary
  obtain ⟨key, hkey, rfl⟩ := List.mem_map.mp hsummary
  rw [List.mem_insertionSort, List.mem_dedup] at hkey
  have hmatches : matchesReactionKey key = true := by
    unfold reactionKeys at hkey
    obtain ⟨row, hrow, rfl⟩ := List.mem_map.mp hkey
    exact h row (List.mem_filter.mp hrow).1
  have hcount : 0 < (reactionKeys messageId db).count key := List.count_pos_iff.mpr hkey
  unfold ReactionSummary.validate
  dsimp only
  rw [stripWhitespace_of_matchesReactionKey hmatches, if_neg (not_not.mpr hmatches), if_neg]
  omega

section Calls

variable {cfg : Config} {rd : Readings} {cmd : Command} {db db' : Database} {reply : Reply}

/-! ## Accepted calls raise no such error -/

theorem createNewMessage_spares {args : CreateMessage} (hsound : Sound db) (hargs : args.Normal) :
    Tx.Spares (createNewMessage cfg rd args) db Poison := by
  unfold createNewMessage
  apply requireParent_spares.bind
  intro _ t hparent
  obtain ⟨-, rfl⟩ := returns_requireParent.mp hparent
  apply (validated_spares (hargs.build_eq _ _)).bind
  intro message t hbuilt
  rw [returns_validated, hargs.build_eq] at hbuilt
  obtain ⟨hbuilt, rfl⟩ := hbuilt
  obtain rfl := (Except.ok.inj hbuilt).symm
  have hnew := newMessageRow_wellFormed hargs (rd.uuid 0) (rd.now 1) args.authorSubject
  apply (insertMessageRow_spares hnew).bind
  intro _ t hinsert
  obtain ⟨-, -, inserted, hins, rfl⟩ := returns_insertMessageRow.mp hinsert
  apply trimMessages_spares.bind
  intro _ t htrim
  have hsame := trimMessages_same htrim
  apply Tx.spares_read.bind
  intro persisted t' hread
  obtain ⟨rfl, rfl⟩ := Tx.returns_read.mp hread
  apply (Tx.spares_orRaise (.inr (by simp [Poison]))).bind
  intro row t hrow
  obtain ⟨hfind, rfl⟩ := Tx.returns_orRaise.mp hrow
  -- the row read back is the new one or one from before, apart from its parent
  have hwell : row.WellFormed := by
    have hmem := (Table.find?_eq_some.mp hfind).1
    rw [hsame.messages] at hmem
    obtain ⟨r, hr, hforgets⟩ := mem_trim hmem
    rcases (Table.mem_of_insert? hins).mp hr with hold | rfl
    · exact (hsound.rows r hold).sameButParent hforgets.same
    · exact hnew.sameButParent hforgets.same
  apply (validated_spares hwell.messageFromRow_eq).bind
  intro message _ _
  apply insertWebhook_spares.bind
  intro _ _ _
  exact Tx.spares_pure

theorem createMessage_spares {args : CreateMessage} (hsound : Sound db) (hargs : args.Normal) :
    Tx.Spares (createMessage cfg rd args) db Poison := by
  unfold createMessage
  apply requireOpenRoom_spares.bind
  intro _ t hroom
  obtain ⟨-, rfl⟩ := returns_requireOpenRoom.mp hroom
  apply enforceMemberWrite_spares.bind
  intro _ t hmember
  obtain ⟨-, rfl⟩ := returns_enforceMemberWrite.mp hmember
  apply Tx.spares_read.bind
  intro existing t hread
  obtain ⟨rfl, rfl⟩ := Tx.returns_read.mp hread
  cases hfind : findIdempotent args.roomId args.clientMessageId t with
  | none => exact createNewMessage_spares hsound hargs
  | some row =>
      obtain ⟨key, -, -, hmem, -⟩ := findIdempotent_eq_some hfind
      apply (validated_spares (hsound.rows row hmem).messageFromRow_eq).bind
      intro message _ _
      exact Tx.spares_pure

theorem updateMessage_spares {args : UpdateMessage} (hsound : Sound db) (hargs : args.Normal) :
    Tx.Spares (updateMessage cfg rd args) db Poison := by
  unfold updateMessage
  apply requireOpenRoom_spares.bind
  intro _ t hroom
  obtain ⟨-, rfl⟩ := returns_requireOpenRoom.mp hroom
  apply enforceMemberWrite_spares.bind
  intro _ t hmember
  obtain ⟨-, rfl⟩ := returns_enforceMemberWrite.mp hmember
  apply requireMessage_spares.bind
  intro row t hrow
  obtain ⟨⟨hmem, hid, -⟩, rfl⟩ := returns_requireMessage.mp hrow
  apply (Tx.spares_require (.inr (by simp [Poison]))).bind
  intro _ t hrequired
  obtain ⟨hlive, rfl⟩ := Tx.returns_require.mp hrequired
  apply (Tx.spares_require (.inr (by simp [Poison]))).bind
  intro _ t howner
  obtain ⟨-, rfl⟩ := Tx.returns_require.mp howner
  have hupdated : ∀ r ∈ t.messages, r.id = args.messageId →
      (args.apply (rd.now 1) r).WellFormed := by
    intro r hr hrid
    rw [Table.eq_of_key hr hmem (hrid.trans hid.symm)]
    exact hargs.apply (hsound.rows row hmem) hlive _
  apply (updateMessageRow_spares hupdated).bind
  intro _ t' hupdate
  obtain ⟨-, rfl⟩ := returns_updateMessageRow.mp hupdate
  apply insertAudit_spares.bind
  intro _ t' haudit
  have hsame := insertAudit_same haudit
  apply (rereadMessage_spares _).bind
  · intro message _ _
    apply insertWebhook_spares.bind
    intro _ _ _
    exact Tx.spares_pure
  · intro r hr hrid
    rw [hsame.messages] at hr
    rw [setMessage_row hmem hid hr hrid]
    exact hupdated row hmem hid

theorem deleteMessage_spares {args : DeleteMessage} (hsound : Sound db) :
    Tx.Spares (deleteMessage cfg rd args) db Poison := by
  unfold deleteMessage deleteLiveMessage scrubMessageWebhooks
  apply requireDeletableRoom_spares.bind
  intro _ t hroom
  obtain ⟨-, rfl⟩ := returns_requireDeletableRoom.mp hroom
  apply enforceMemberWrite_spares.bind
  intro _ t hmember
  obtain ⟨-, rfl⟩ := returns_enforceMemberWrite.mp hmember
  apply requireMessage_spares.bind
  intro row t hrow
  obtain ⟨⟨hmem, hid, -⟩, rfl⟩ := returns_requireMessage.mp hrow
  apply (Tx.spares_require (.inr (by simp [Poison]))).bind
  intro _ t howner
  obtain ⟨-, rfl⟩ := Tx.returns_require.mp howner
  apply Tx.spares_ite
  · intro _
    apply (validated_spares (hsound.rows row hmem).messageFromRow_eq).bind
    intro _ _ _
    exact Tx.spares_pure
  · intro _
    apply Tx.spares_write.bind
    intro _ t' hwrite
    obtain rfl := Tx.returns_write.mp hwrite
    have htombstoned : ∀ r ∈ (t.deleteReactionsOf args.messageId).messages,
        r.id = args.messageId → (r.tombstone (rd.now 1)).WellFormed :=
      fun r _ _ => MessageRow.WellFormed.tombstoned r _
    apply (updateMessageRow_spares htombstoned).bind
    intro _ t' hupdate
    obtain ⟨-, rfl⟩ := returns_updateMessageRow.mp hupdate
    apply insertAudit_spares.bind
    intro _ t' haudit
    have hsame := insertAudit_same haudit
    apply (rereadMessage_spares _).bind
    · intro message _ _
      apply Tx.spares_write.bind
      intro _ _ _
      apply insertWebhook_spares.bind
      intro _ _ _
      exact Tx.spares_pure
    · intro r hr hrid
      rw [hsame.messages] at hr
      have hrow : row ∈ (t.deleteReactionsOf args.messageId).messages := hmem
      rw [setMessage_row hrow hid hr hrid]
      exact htombstoned row hrow hid

/-- A reaction whose actor and key the models accept, and the table when it is stored. -/
structure SetMessageReaction.Normal (args : SetMessageReaction) : Prop where
  actor : NormalActor args.reactor
  column : args.present = true → sqliteActorOk args.reactor = true
  key : matchesReactionKey args.key = true

theorem SetMessageReaction.Normal.build_eq {args : SetMessageReaction} (h : args.Normal)
    {raw : ReactionMutation} (hkey : raw.key = args.key) (hreactor : raw.reactor = args.reactor) :
    raw.build = .ok raw := by
  unfold ReactionMutation.build
  rw [hkey, hreactor, stripWhitespace_of_matchesReactionKey h.key, h.actor.stripped,
    if_neg (not_not.mpr h.key), if_neg (not_not.mpr h.actor.length)]
  cases raw
  cases hkey
  cases hreactor
  rfl

theorem changeReaction_spares {args : SetMessageReaction} (hargs : args.Normal) {now : Timestamp} :
    Tx.Spares (changeReaction args now) db Poison := by
  unfold changeReaction insertReactionRow
  apply Tx.spares_read.bind
  intro existing _ _
  apply Tx.spares_ite
  · intro hadds
    apply Tx.spares_read.bind
    intro keys _ _
    apply (Tx.spares_require (.inr (by simp [Poison]))).bind
    intro _ _ _
    apply Tx.Spares.bind
    · apply (Tx.spares_require (.inl ⟨hargs.column hadds.1, hargs.key⟩)).bind
      intro _ _ _
      apply Tx.spares_read.bind
      intro referenced _ _
      apply (Tx.spares_require (.inr (by simp [Poison]))).bind
      intro _ _ _
      apply Tx.spares_read.bind
      intro inserted _ _
      apply (Tx.spares_orRaise (.inr (by simp [Poison]))).bind
      intro inserted _ _
      exact Tx.spares_write
    · intro _ _ _
      exact Tx.spares_pure
  · intro _
    apply Tx.spares_ite
    · intro _
      apply Tx.spares_write.bind
      intro _ _ _
      exact Tx.spares_pure
    · intro _
      exact Tx.spares_pure

/-- The reaction table keeps valid keys. -/
theorem ReactionsChanged.keys {args : SetMessageReaction} {now : Timestamp}
    {t : Table ReactionRow (String × String × String) ReactionRow.key}
    (h : ReactionsChanged args now db t)
    (hkeys : ∀ r ∈ db.reactions, matchesReactionKey r.reactionKey = true) :
    ∀ r ∈ t, matchesReactionKey r.reactionKey = true := by
  intro r hr
  cases h with
  | added _ _ _ hkey hins =>
      rcases (Table.mem_of_insert? hins).mp hr with hold | rfl
      · exact hkeys r hold
      · exact hkey
  | removed _ _ => exact hkeys r (Table.mem_deleteWhere.mp hr).1

theorem setMessageReaction_spares {args : SetMessageReaction} (hsound : Sound db)
    (hargs : args.Normal) : Tx.Spares (setMessageReaction cfg rd args) db Poison := by
  unfold setMessageReaction refreshReactions
  apply requireOpenRoom_spares.bind
  intro _ t hroom
  obtain ⟨-, rfl⟩ := returns_requireOpenRoom.mp hroom
  apply enforceMemberWrite_spares.bind
  intro _ t hmember
  obtain ⟨-, rfl⟩ := returns_enforceMemberWrite.mp hmember
  apply requireMessage_spares.bind
  intro row t hrow
  obtain ⟨⟨hmem, hid, -⟩, rfl⟩ := returns_requireMessage.mp hrow
  apply (Tx.spares_require (.inr (by simp [Poison]))).bind
  intro _ t hrequired
  obtain ⟨hlive, rfl⟩ := Tx.returns_require.mp hrequired
  apply (changeReaction_spares hargs).bind
  intro changed t' hchange
  apply Tx.spares_ite
  · intro htrue
    rcases changeReaction_ok hchange with ⟨hfalse, -⟩ | ⟨-, reactions, hreactions, rfl⟩
    · rw [hfalse] at htrue
      cases htrue
    have hvalid := reactionSummaries_valid { t with reactions := reactions } args.messageId
      (hreactions.keys hsound.reactions)
    have hreacted : ∀ r ∈ t.messages, r.id = args.messageId →
        (r.setReactions (reactionSummaries args.messageId
          { t with reactions := reactions })).WellFormed :=
      fun r hr _ => (hsound.rows r hr).reacted hvalid
    apply Tx.Spares.bind
    · apply Tx.spares_read.bind
      intro summaries t' hread
      obtain ⟨rfl, rfl⟩ := Tx.returns_read.mp hread
      apply (validated_spares hvalid).bind
      intro summaries t' hvalidated
      rw [returns_validated, hvalid] at hvalidated
      obtain ⟨hsummaries, rfl⟩ := hvalidated
      obtain rfl := Except.ok.inj hsummaries
      exact updateMessageRow_spares hreacted
    · intro _ t' hrefresh
      simp only [Tx.returns_bind, Tx.returns_read, returns_validated,
        returns_updateMessageRow] at hrefresh
      obtain ⟨_, _, ⟨rfl, rfl⟩, summaries, _, ⟨hsummaries, rfl⟩, -, rfl⟩ := hrefresh
      rw [hvalid] at hsummaries
      obtain rfl := Except.ok.inj hsummaries
      apply (rereadMessage_spares _).bind
      · intro message _ _
        apply (validated_spares (hargs.build_eq rfl rfl)).bind
        intro mutation _ _
        apply insertWebhook_spares.bind
        intro _ _ _
        exact Tx.spares_pure
      · intro r hr hrid
        have hrow : row ∈ ({ t with reactions := reactions } : Database).messages := hmem
        rw [setMessage_row hrow hid hr hrid]
        exact hreacted row hmem hid
  · intro _
    apply (validated_spares (hsound.rows row hmem).messageFromRow_eq).bind
    intro message _ _
    exact validated_spares (hargs.build_eq rfl rfl)

theorem SetMessagePin.Normal.build_eq {args : SetMessagePin} (h : args.Normal) {raw : PinMutation}
    (hpinner : raw.pinner = args.pinner) : raw.build = .ok raw := by
  unfold PinMutation.build
  rw [hpinner, h.actor.stripped, if_neg (not_not.mpr h.actor.length)]
  cases raw
  cases hpinner
  rfl

theorem setMessagePin_spares {args : SetMessagePin} (hsound : Sound db) (hargs : args.Normal) :
    Tx.Spares (setMessagePin cfg rd args) db Poison := by
  unfold setMessagePin
  apply requireOpenRoom_spares.bind
  intro _ t hroom
  obtain ⟨-, rfl⟩ := returns_requireOpenRoom.mp hroom
  apply enforceMemberWrite_spares.bind
  intro _ t hmember
  obtain ⟨-, rfl⟩ := returns_enforceMemberWrite.mp hmember
  apply requireMessage_spares.bind
  intro row t hrow
  obtain ⟨⟨hmem, hid, -⟩, rfl⟩ := returns_requireMessage.mp hrow
  apply (Tx.spares_require (.inr (by simp [Poison]))).bind
  intro _ t hrequired
  obtain ⟨hlive, rfl⟩ := Tx.returns_require.mp hrequired
  apply Tx.spares_ite
  · intro _
    have hpinned : ∀ r ∈ t.messages, r.id = args.messageId →
        (args.apply (rd.now 0) r).WellFormed := by
      intro r hr hrid
      rw [Table.eq_of_key hr hmem (hrid.trans hid.symm)]
      exact hargs.apply (hsound.rows row hmem) hlive _
    apply (updateMessageRow_spares hpinned).bind
    intro _ t' hupdate
    obtain ⟨-, rfl⟩ := returns_updateMessageRow.mp hupdate
    apply insertAudit_spares.bind
    intro _ t' haudit
    have hsame := insertAudit_same haudit
    apply (rereadMessage_spares _).bind
    · intro message _ _
      apply (validated_spares (hargs.build_eq rfl)).bind
      intro mutation _ _
      apply insertWebhook_spares.bind
      intro _ _ _
      exact Tx.spares_pure
    · intro r hr hrid
      rw [hsame.messages] at hr
      rw [setMessage_row hmem hid hr hrid]
      exact hpinned row hmem hid
  · intro _
    apply (validated_spares (hsound.rows row hmem).messageFromRow_eq).bind
    intro message _ _
    exact validated_spares (hargs.build_eq rfl)

end Calls

end Store
end ChatEngine
