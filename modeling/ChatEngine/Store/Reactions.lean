import ChatEngine.Store.Changes
import Mathlib.Data.Finset.Card

/-!
# Reactions and their summaries

A message carries a copy of what the reaction table holds of it: how many reacted with each key.

* `ReactionsOk`: the invariant in the terms of the code, with `ReactionsOk.call` for every call;
* `Cascades`: what the foreign keys take from the reaction table when rows of messages go;
* `ReactionsAgree`: the same in terms of the distinct reactors of a key, with
  `ReactionsOk.agree`.
-/

namespace ChatEngine
namespace Store

open Lib
open Models

/-! ## The summary of a message -/

section Summaries

variable {db db' : Database} {messageId key : String}

theorem mem_reactionKeys :
    key ∈ reactionKeys messageId db ↔
      ∃ row ∈ db.reactions, row.messageId = messageId ∧ row.reactionKey = key := by
  unfold reactionKeys
  simp only [List.mem_map, List.mem_filter, decide_eq_true_eq, and_assoc]
  rfl

theorem reactionKeys_eq_nil (h : ∀ row ∈ db.reactions, row.messageId ≠ messageId) :
    reactionKeys messageId db = [] := by
  apply List.eq_nil_iff_forall_not_mem.mpr
  intro key hkey
  obtain ⟨row, hrow, hid, -⟩ := mem_reactionKeys.mp hkey
  exact h row hrow hid

/-- The reactions of a message are a matter of its rows, and not of their order. -/
theorem reactionKeys_perm
    (h : ∀ row, row.messageId = messageId → (row ∈ db'.reactions ↔ row ∈ db.reactions)) :
    (reactionKeys messageId db').Perm (reactionKeys messageId db) := by
  unfold reactionKeys
  apply List.Perm.map
  rw [List.perm_ext_iff_of_nodup (db'.reactions.rows_nodup.filter _)
    (db.reactions.rows_nodup.filter _)]
  intro row
  simp only [List.mem_filter, decide_eq_true_eq]
  constructor
  · rintro ⟨hrow, hid⟩
    exact ⟨(h row hid).mp hrow, hid⟩
  · rintro ⟨hrow, hid⟩
    exact ⟨(h row hid).mpr hrow, hid⟩

theorem reactionSummaries_congr
    (h : ∀ row, row.messageId = messageId → (row ∈ db'.reactions ↔ row ∈ db.reactions)) :
    reactionSummaries messageId db' = reactionSummaries messageId db := by
  have hperm := reactionKeys_perm h
  have hsorted : (reactionKeys messageId db').dedup.insertionSort (· ≤ ·) =
      (reactionKeys messageId db).dedup.insertionSort (· ≤ ·) := by
    apply List.Perm.eq_of_pairwise
      (fun a b _ _ hab hba => le_antisymm hab hba)
      (List.pairwise_insertionSort _ _) (List.pairwise_insertionSort _ _)
    exact ((List.perm_insertionSort _ _).trans hperm.dedup).trans
      (List.perm_insertionSort _ _).symm
  unfold reactionSummaries
  rw [hsorted]
  apply List.map_congr_left
  intro key _
  rw [hperm.count_eq]

theorem reactionSummaries_of_reactions (h : db'.reactions = db.reactions) :
    reactionSummaries messageId db' = reactionSummaries messageId db :=
  reactionSummaries_congr fun row _ => by rw [h]

theorem reactionSummaries_eq_nil (h : ∀ row ∈ db.reactions, row.messageId ≠ messageId) :
    reactionSummaries messageId db = [] := by
  unfold reactionSummaries
  rw [reactionKeys_eq_nil h]
  rfl

/-- Fewer rows have no more distinct keys. -/
theorem length_dedup_le {keys keys' : List String} (h : keys' ⊆ keys) :
    keys'.dedup.length ≤ keys.dedup.length := by
  apply List.Subperm.length_le
  apply List.Nodup.subperm (List.nodup_dedup keys')
  intro key hkey
  exact List.mem_dedup.mpr (h (List.mem_dedup.mp hkey))

end Summaries

/-! ## The invariant -/

/-- What holds of the reactions of every reachable database. -/
structure ReactionsOk (db : Database) : Prop where
  stored : ∀ row ∈ db.reactions, ∃ m ∈ db.messages,
    m.id = row.messageId ∧ m.roomId = row.roomId ∧ m.deletedAt = none
  keys : ∀ row ∈ db.reactions, matchesReactionKey row.reactionKey = true
  limit : ∀ messageId, (reactionKeys messageId db).dedup.length ≤ maxReactionKeys
  summary : ∀ m ∈ db.messages, m.reactions = reactionSummaries m.id db

/-- The reactions to the deleted messages are gone, and no others. -/
def Cascades (ids : List String) (db db' : Database) : Prop :=
  ∀ row, row ∈ db'.reactions ↔ row ∈ db.reactions ∧ row.messageId ∉ ids

section Invariant

variable {cfg : Config} {rd : Readings} {cmd : Command} {db db₁ db' : Database} {reply : Reply}
  {ids ids' : List String} {r s : MessageRow}

theorem Cascades.trans (h : Cascades ids db db₁) (h' : Cascades ids' db₁ db') :
    Cascades (ids ++ ids') db db' := by
  intro row
  rw [h' row, h row, List.mem_append, not_or, and_assoc]

theorem cascades_removeBatch {batch : List MessageRow} :
    Cascades (batch.map MessageRow.id) db (db.removeBatch batch) :=
  fun _ => Table.mem_deleteWhere

theorem cascades_trim (roomId : String) (now : Timestamp) :
    Cascades ((db.trimmed cfg roomId now).map MessageRow.id) db (db.trim cfg roomId now) := by
  unfold Database.trimmed Database.trim
  dsimp only
  rw [List.map_append, List.map_append]
  exact (cascades_removeBatch.trans cascades_removeBatch).trans cascades_removeBatch

theorem ReactionsOk.empty : ReactionsOk {} where
  stored _ hrow := absurd hrow Table.not_mem_empty
  keys _ hrow := absurd hrow Table.not_mem_empty
  limit _ := Nat.zero_le _
  summary _ hm := absurd hm Table.not_mem_empty

theorem ReactionsOk.of_same (h : ReactionsOk db) (hmessages : db'.messages = db.messages)
    (hreactions : db'.reactions = db.reactions) : ReactionsOk db' := by
  constructor
  · rw [hreactions, hmessages]
    exact h.stored
  · rw [hreactions]
    exact h.keys
  · intro messageId
    unfold reactionKeys
    rw [hreactions]
    exact h.limit messageId
  · intro m hm
    rw [reactionSummaries_of_reactions hreactions]
    exact h.summary m (hmessages ▸ hm)

/-- Messages that go take their reactions along. -/
theorem ReactionsOk.prunes (h : ReactionsOk db) (hprunes : Prunes ids db db')
    (hcascades : Cascades ids db db') : ReactionsOk db' := by
  constructor
  · intro row hrow
    obtain ⟨hold, hout⟩ := (hcascades row).mp hrow
    obtain ⟨m, hm, hid, hroom, hlive⟩ := h.stored row hold
    exact ⟨_, hprunes.kept hm (hid ▸ hout), hid, hroom, hlive⟩
  · intro row hrow
    exact h.keys row ((hcascades row).mp hrow).1
  · intro messageId
    apply (length_dedup_le _).trans (h.limit messageId)
    intro key hkey
    obtain ⟨row, hrow, hid, hrowKey⟩ := mem_reactionKeys.mp hkey
    exact mem_reactionKeys.mpr ⟨row, ((hcascades row).mp hrow).1, hid, hrowKey⟩
  · intro s hs
    obtain ⟨r, hr, hout, rfl⟩ := (hprunes s).mp hs
    show r.reactions = reactionSummaries r.id db'
    rw [h.summary r hr]
    symm
    apply reactionSummaries_congr
    intro row hid
    rw [hcascades row, hid]
    exact and_iff_left hout

/-- One message rewritten, with its reactions and its summary. -/
theorem ReactionsOk.replaces (h : ReactionsOk db) (hreplaces : Replaces db r s db')
    (hsame : SameIdentity r s)
    (hothers : ∀ row, row.messageId ≠ r.id → (row ∈ db'.reactions ↔ row ∈ db.reactions))
    (hown : ∀ row ∈ db'.reactions, row.messageId = r.id →
      row.roomId = r.roomId ∧ s.deletedAt = none ∧ matchesReactionKey row.reactionKey = true)
    (hlimit : (reactionKeys r.id db').dedup.length ≤ maxReactionKeys)
    (hsummary : s.reactions = reactionSummaries r.id db') : ReactionsOk db' := by
  constructor
  · intro row hrow
    by_cases hid : row.messageId = r.id
    · obtain ⟨hroom, hlive, -⟩ := hown row hrow hid
      exact ⟨s, (hreplaces s).mpr (.inr rfl), hsame.id.trans hid.symm,
        hsame.roomId.trans hroom.symm, hlive⟩
    · obtain ⟨m, hm, hmid, hrest⟩ := h.stored row ((hothers row hid).mp hrow)
      exact ⟨m, (hreplaces m).mpr (.inl ⟨hm, hmid ▸ hid⟩), hmid, hrest⟩
  · intro row hrow
    by_cases hid : row.messageId = r.id
    · exact (hown row hrow hid).2.2
    · exact h.keys row ((hothers row hid).mp hrow)
  · intro messageId
    by_cases hid : messageId = r.id
    · rw [hid]
      exact hlimit
    · rw [(reactionKeys_perm fun row hrow => hothers row (hrow ▸ hid)).dedup.length_eq]
      exact h.limit messageId
  · intro m hm
    rcases (hreplaces m).mp hm with ⟨hmem, hid⟩ | rfl
    · rw [h.summary m hmem]
      exact (reactionSummaries_congr fun row hrow => hothers row (hrow ▸ hid)).symm
    · rw [hsame.id]
      exact hsummary

/-- A change of a message that leaves its reactions alone. -/
theorem ReactionsOk.rewrites (h : ReactionsOk db) (hreplaces : Replaces db r s db')
    (hr : r ∈ db.messages) (hsame : SameIdentity r s) (hdeleted : s.deletedAt = r.deletedAt)
    (hsummary : s.reactions = r.reactions)
    (hreactions : db'.reactions = db.reactions) : ReactionsOk db' := by
  apply h.replaces hreplaces hsame
  · intro row _
    rw [hreactions]
  · intro row hrow hid
    rw [hreactions] at hrow
    obtain ⟨m, hm, hmid, hroom, hlive⟩ := h.stored row hrow
    have hmr : m = r := Table.eq_of_key hm hr (hmid.trans hid)
    rw [hmr] at hroom hlive
    exact ⟨hroom.symm, hdeleted.trans hlive, h.keys row hrow⟩
  · have hperm : (reactionKeys r.id db').Perm (reactionKeys r.id db) :=
      reactionKeys_perm fun row _ => by rw [hreactions]
    rw [hperm.dedup.length_eq]
    exact h.limit r.id
  · rw [hsummary, h.summary r hr, reactionSummaries_of_reactions hreactions]

/-- A new message has no reactions yet. -/
theorem ReactionsOk.inserted {row : MessageRow}
    {inserted : Table MessageRow String MessageRow.id} (h : ReactionsOk db)
    (hnew : row.reactions = []) (hins : db.messages.insert? row = some inserted) :
    ReactionsOk { db with messages := inserted } := by
  constructor
  · intro reaction hreaction
    obtain ⟨m, hm, hrest⟩ := h.stored reaction hreaction
    exact ⟨m, (Table.mem_of_insert? hins).mpr (.inl hm), hrest⟩
  · exact h.keys
  · exact h.limit
  · intro m hm
    rcases (Table.mem_of_insert? hins).mp hm with hold | rfl
    · exact h.summary m hold
    · rw [hnew]
      symm
      apply reactionSummaries_eq_nil
      intro reaction hreaction hid
      obtain ⟨m', hm', hmid, -⟩ := h.stored reaction hreaction
      exact (Table.insert?_eq_some.mp hins).1 m' hm' (hmid.trans hid)

/-- The distinct keys of a message after a change of its reactions. -/
theorem ReactionsChanged.limit {args : SetMessageReaction} {now : Timestamp}
    {t : Table ReactionRow (String × String × String) ReactionRow.key}
    (h : ReactionsChanged args now db t)
    (hlimit : (reactionKeys args.messageId db).dedup.length ≤ maxReactionKeys) :
    (reactionKeys args.messageId { db with reactions := t }).dedup.length ≤ maxReactionKeys := by
  cases h with
  | added _ hcap _ _ hins =>
      have hsubset : reactionKeys args.messageId { db with reactions := t } ⊆
          args.key :: reactionKeys args.messageId db := by
        intro key hkey
        obtain ⟨row, hrow, hid, rfl⟩ := mem_reactionKeys.mp hkey
        rcases (Table.mem_of_insert? hins).mp hrow with hold | rfl
        · exact List.mem_cons_of_mem _ (mem_reactionKeys.mpr ⟨row, hold, hid, rfl⟩)
        · exact List.mem_cons_self
      apply (length_dedup_le hsubset).trans
      by_cases hknown : args.key ∈ reactionKeys args.messageId db
      · rw [List.dedup_cons_of_mem hknown]
        exact hlimit
      · rw [List.dedup_cons_of_notMem hknown]
        exact hcap.resolve_left hknown
  | removed _ _ =>
      apply (length_dedup_le _).trans hlimit
      intro key hkey
      obtain ⟨row, hrow, hrest⟩ := mem_reactionKeys.mp hkey
      exact mem_reactionKeys.mpr ⟨row, (Table.mem_deleteWhere.mp hrow).1, hrest⟩

theorem ReactionsChanged.others {args : SetMessageReaction} {now : Timestamp}
    {t : Table ReactionRow (String × String × String) ReactionRow.key}
    (h : ReactionsChanged args now db t) {row : ReactionRow}
    (hrow : row.messageId ≠ args.messageId) : row ∈ t ↔ row ∈ db.reactions := by
  cases h with
  | added _ _ _ _ hins =>
      rw [Table.mem_of_insert? hins]
      apply or_iff_left
      rintro rfl
      exact hrow rfl
  | removed _ _ =>
      rw [Table.mem_deleteWhere]
      apply and_iff_left
      intro hkey
      exact hrow (congrArg Prod.fst hkey)

theorem ReactionsOk.reacted {args : SetMessageReaction} {mutation : ReactionMutation}
    (h : ReactionsOk db) (hr : r ∈ db.messages) (hrid : r.id = args.messageId)
    (hroom : r.roomId = args.roomId) (hlive : r.deletedAt = none)
    (hreacted : Reacted cfg rd args db r mutation db') : ReactionsOk db' := by
  obtain ⟨t, summaries, hchanged, hsummaries, -, hcommits⟩ := hreacted.effect
  have hreactions : db'.reactions = t := hcommits.reactions
  have hkeys := hchanged.keys h.keys
  rw [reactionSummaries_valid { db with reactions := t } args.messageId hkeys] at hsummaries
  obtain rfl := Except.ok.inj hsummaries
  have hbase : ({ db with reactions := t } : Database).messages = db.messages := rfl
  have hsame : SameIdentity r (r.setReactions (reactionSummaries args.messageId
      { db with reactions := t })) := ⟨rfl, rfl, rfl, rfl, rfl, rfl⟩
  apply h.replaces (Replaces.of_setMessage hbase hr hrid hcommits.messages) hsame
  · intro row hrow
    rw [hreactions]
    exact hchanged.others (hrid ▸ hrow)
  · intro row hrow hid
    rw [hreactions] at hrow
    refine ⟨?_, hlive, hkeys row hrow⟩
    have hkept : row ∈ db.reactions → row.roomId = r.roomId := by
      intro hold
      obtain ⟨m, hm, hmid, hmroom, -⟩ := h.stored row hold
      rw [← hmroom, Table.eq_of_key hm hr (hmid.trans hid)]
    cases hchanged with
    | added _ _ _ _ hins =>
        rcases (Table.mem_of_insert? hins).mp hrow with hold | rfl
        · exact hkept hold
        · exact hroom.symm
    | removed _ _ => exact hkept (Table.mem_deleteWhere.mp hrow).1
  · rw [hrid]
    unfold reactionKeys
    rw [hreactions]
    exact hchanged.limit (h.limit args.messageId)
  · rw [hrid]
    have hsame : reactionSummaries args.messageId db' =
        reactionSummaries args.messageId { db with reactions := t } :=
      reactionSummaries_of_reactions hreactions
    exact hsame.symm

theorem ReactionsOk.deleted {args : DeleteMessage} {m : Message} (h : ReactionsOk db)
    (hr : r ∈ db.messages) (hrid : r.id = args.messageId)
    (hdeleted : Deleted cfg rd args db r m db') : ReactionsOk db' := by
  have hbase : (db.deleteReactionsOf args.messageId).messages = db.messages := rfl
  have hafter : db'.messages = ((db.deleteReactionsOf args.messageId).setMessage args.messageId
      (MessageRow.tombstone (rd.now 1)) (MessageRow.tombstone_id (rd.now 1))).messages :=
    hdeleted.commits.messages
  have hreactions : ∀ row, row ∈ db'.reactions ↔
      row ∈ db.reactions ∧ ¬ row.messageId = args.messageId := by
    intro row
    rw [hdeleted.commits.reactions]
    exact Table.mem_deleteWhere
  have hgone : ∀ row ∈ db'.reactions, row.messageId ≠ r.id := by
    intro row hrow hid
    exact ((hreactions row).mp hrow).2 (hid.trans hrid)
  have hsame : SameIdentity r (r.tombstone (rd.now 1)) := ⟨rfl, rfl, rfl, rfl, rfl, rfl⟩
  apply h.replaces (Replaces.of_setMessage hbase hr hrid hafter) hsame
  · intro row hrow
    rw [hreactions row]
    exact and_iff_left (hrid ▸ hrow)
  · intro row hrow hid
    exact absurd hid (hgone row hrow)
  · rw [reactionKeys_eq_nil hgone]
    exact Nat.zero_le _
  · rw [reactionSummaries_eq_nil hgone]
    rfl

theorem ReactionsOk.call (h : ReactionsOk db) (hok : Tx.Returns (cmd.tx cfg rd) db reply db') :
    ReactionsOk db' := by
  cases cmd with
  | createMessage args =>
      obtain ⟨⟨m, created⟩, hcreate, -⟩ := Tx.returns_map.mp hok
      rcases (createMessage_ok hcreate).2 with ⟨-, rfl, -⟩ | ⟨-, hcreated⟩
      · exact h
      · obtain ⟨built, inserted, -, -, -, hins, -, hcommits⟩ := hcreated.effect
        have hinserted : ReactionsOk { db with messages := inserted } := h.inserted rfl hins
        exact (hinserted.prunes (prunes_trim args.roomId built.createdAt)
          (cascades_trim args.roomId built.createdAt)).of_same hcommits.messages
          hcommits.reactions
  | updateMessage args =>
      obtain ⟨m, hupdate, -⟩ := Tx.returns_map.mp hok
      have hupdated := updateMessage_ok hupdate
      obtain ⟨row, hrow, hid, -, -, -, -⟩ := hupdated.target
      have hreplaces := Replaces.of_setMessage rfl hrow hid hupdated.commits.messages
      exact h.rewrites hreplaces hrow ⟨rfl, rfl, rfl, rfl, rfl, rfl⟩ rfl rfl
        hupdated.commits.reactions
  | deleteMessage args =>
      obtain ⟨⟨m, changed⟩, hdelete, -⟩ := Tx.returns_map.mp hok
      obtain ⟨-, -, row, hrow, hid, -, -, ⟨-, rfl, -⟩ | ⟨-, hdeleted⟩⟩ := deleteMessage_ok hdelete
      · exact h
      · exact h.deleted hrow hid hdeleted
  | setMessageReaction args =>
      obtain ⟨mutation, hreact, -⟩ := Tx.returns_map.mp hok
      obtain ⟨-, row, hrow, hid, hroom, hlive, ⟨-, rfl, -⟩ | hreacted⟩ :=
        setMessageReaction_ok hreact
      · exact h
      · exact h.reacted hrow hid hroom hlive hreacted
  | setMessagePin args =>
      obtain ⟨mutation, hpin, -⟩ := Tx.returns_map.mp hok
      obtain ⟨-, row, hrow, hid, -, -, ⟨-, rfl, -⟩ | hpinned⟩ := setMessagePin_ok hpin
      · exact h
      · have hreplaces := Replaces.of_setMessage rfl hrow hid hpinned.commits.messages
        exact h.rewrites hreplaces hrow ⟨rfl, rfl, rfl, rfl, rfl, rfl⟩ rfl rfl
          hpinned.commits.reactions
  | deleteRoom roomId actor =>
      obtain ⟨n, hdelete, -⟩ := Tx.returns_map.mp hok
      obtain ⟨-, audited, hsame, rfl⟩ := deleteRoom_ok hdelete
      have haudited : ReactionsOk audited := h.of_same hsame.messages hsame.reactions
      have hprunes : Prunes ((audited.messages.rows.filter fun r => r.roomId = roomId).map
          MessageRow.id) audited (({ audited with
            webhooks := scrub audited.webhooks fun r => r.roomId = roomId } :
              Database).deleteRoom roomId) := prunes_deleteMessages
      apply haudited.prunes hprunes
      -- the room of a reaction is that of its message, so the two cascades agree
      intro row
      change row ∈ (audited.reactions.deleteWhere _).deleteWhere _ ↔ _
      rw [Table.mem_deleteWhere, Table.mem_deleteWhere]
      apply and_iff_left_of_imp
      rintro ⟨hrow, hout⟩ hroom
      obtain ⟨m, hm, hid, hmroom, -⟩ := haudited.stored row hrow
      apply hout
      rw [← hid]
      exact List.mem_map.mpr
        ⟨m, List.mem_filter.mpr ⟨hm, decide_eq_true (hmroom.trans hroom)⟩, rfl⟩
  | runRetention actor =>
      obtain ⟨r, hretention, -⟩ := Tx.returns_map.mp hok
      have hsame := (runRetention_ok hretention).2
      exact (h.prunes prunes_removeBatch cascades_removeBatch).of_same hsame.messages
        hsame.reactions
  | _ => exact h.of_same (messages_left hok trivial) (reactions_left hok trivial)

theorem StoreReachable.reactionsOk (h : StoreReachable cfg db) : ReactionsOk db :=
  h.invariant ReactionsOk ReactionsOk.empty fun _ _ _ _ _ hdb hok => hdb.call hok

end Invariant

/-! ## Distinct reactors -/

/-- Who reacted to a message with a key. -/
def reactorsOf (messageId key : String) (db : Database) : List String :=
  (db.reactions.rows.filter fun r => r.messageId = messageId ∧ r.reactionKey = key).map
    ReactionRow.reactor

/-- The summaries count the distinct reactors of each key, and tombstones have no reactions. -/
structure ReactionsAgree (db : Database) : Prop where
  counts : ∀ m ∈ db.messages, ∀ summary : ReactionSummary, summary ∈ m.reactions ↔
    summary.count = (reactorsOf m.id summary.key db).toFinset.card ∧ 0 < summary.count
  sorted : ∀ m ∈ db.messages, (m.reactions.map ReactionSummary.key).Pairwise (· < ·)
  limit : ∀ m ∈ db.messages, (reactionKeys m.id db).toFinset.card ≤ 20
  tombstones : ∀ m ∈ db.messages, m.deletedAt ≠ none →
    m.reactions = [] ∧ ∀ row ∈ db.reactions, row.messageId ≠ m.id
  stored : ∀ row ∈ db.reactions, Stored row.messageId db

section Reactors

variable {cfg : Config} {db : Database} {messageId key : String}

/-- A reactor reacts with a key to a message once. -/
theorem reactorsOf_nodup : (reactorsOf messageId key db).Nodup := by
  unfold reactorsOf
  apply List.Nodup.map_on _ (db.reactions.rows_nodup.filter _)
  intro a ha b hb hreactor
  obtain ⟨ha, haid⟩ := List.mem_filter.mp ha
  obtain ⟨hb, hbid⟩ := List.mem_filter.mp hb
  rw [decide_eq_true_eq] at haid hbid
  apply Table.eq_of_key ha hb
  show (a.messageId, a.reactor, a.reactionKey) = (b.messageId, b.reactor, b.reactionKey)
  rw [haid.1, haid.2, hbid.1, hbid.2, hreactor]

theorem count_reactionKeys :
    (reactionKeys messageId db).count key = (reactorsOf messageId key db).toFinset.card := by
  rw [List.toFinset_card_of_nodup reactorsOf_nodup]
  unfold reactionKeys reactorsOf
  rw [List.count, List.countP_map, List.countP_filter, List.length_map,
    ← List.countP_eq_length_filter]
  apply List.countP_congr
  intro r _
  simp only [Function.comp_apply, Bool.and_eq_true, beq_iff_eq, decide_eq_true_eq]
  exact and_comm

theorem mem_reactionSummaries {summary : ReactionSummary} :
    summary ∈ reactionSummaries messageId db ↔
      summary.count = (reactorsOf messageId summary.key db).toFinset.card ∧ 0 < summary.count := by
  unfold reactionSummaries
  rw [List.mem_map]
  constructor
  · rintro ⟨key, hkey, rfl⟩
    rw [List.mem_insertionSort, List.mem_dedup] at hkey
    have hpos := List.count_pos_iff.mpr hkey
    refine ⟨?_, ?_⟩
    · show ((reactionKeys messageId db).count key : Int) = _
      rw [count_reactionKeys]
    · show (0 : Int) < ((reactionKeys messageId db).count key : Int)
      omega
  · rintro ⟨hcount, hpos⟩
    rw [← count_reactionKeys] at hcount
    refine ⟨summary.key, ?_, ?_⟩
    · rw [List.mem_insertionSort, List.mem_dedup, ← List.count_pos_iff]
      omega
    · cases summary with
      | mk key count =>
          dsimp only at hcount ⊢
          rw [hcount]

theorem sorted_reactionSummaries :
    ((reactionSummaries messageId db).map ReactionSummary.key).Pairwise (· < ·) := by
  have hkeys : (reactionSummaries messageId db).map ReactionSummary.key =
      (reactionKeys messageId db).dedup.insertionSort (· ≤ ·) := by
    unfold reactionSummaries
    rw [List.map_map]
    exact List.map_id _
  rw [hkeys]
  have hle := List.pairwise_insertionSort (· ≤ ·) (reactionKeys messageId db).dedup
  have hnodup : ((reactionKeys messageId db).dedup.insertionSort (· ≤ ·)).Nodup :=
    (List.perm_insertionSort _ _).nodup_iff.mpr (List.nodup_dedup _)
  exact hle.imp₂ (fun _ _ hab hne => lt_of_le_of_ne hab hne) hnodup

theorem ReactionsOk.agree (h : ReactionsOk db) : ReactionsAgree db := by
  constructor
  · intro m hm summary
    rw [h.summary m hm]
    exact mem_reactionSummaries
  · intro m hm
    rw [h.summary m hm]
    exact sorted_reactionSummaries
  · intro m _
    exact h.limit m.id
  · intro m hm hdeleted
    have hnone : ∀ row ∈ db.reactions, row.messageId ≠ m.id := by
      intro row hrow hid
      obtain ⟨m', hm', hmid, -, hlive⟩ := h.stored row hrow
      rw [Table.eq_of_key hm' hm (hmid.trans hid)] at hlive
      exact hdeleted hlive
    refine ⟨?_, hnone⟩
    rw [h.summary m hm, reactionSummaries_eq_nil hnone]
  · intro row hrow
    obtain ⟨m, hm, hid, -⟩ := h.stored row hrow
    exact ⟨m, hm, hid⟩

end Reactors

end Store
end ChatEngine
