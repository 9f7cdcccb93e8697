import ChatEngine.Realtime.Delivery

/-!
# Retention and takeover over a run

What a run of the cluster never takes back.

* `TablesMove`, what one step of the cluster makes of the tables: one inversion lemma,
  `tables_move`, for all its actions;
* `no_gap_while_live`: as long as each prune finds the lease of an instance live, what the instance
  has not acknowledged is retained, and no read of its fails with a gap;
* `replaced_generation_stays`: a generation that has once been replaced is never stored again.
-/

namespace ChatEngine
namespace Realtime

open Lib
open Models

variable {β : Type}

/-! ## The tables over one step -/

/-- What a step of the cluster makes of the tables: it leaves the cursors and the watermark alone,
it prunes, or it serves what some relay has asked for. -/
inductive TablesMove (cfg : ClusterConfig) (c : Cluster β) (action : ClusterAction β)
    (c' : Cluster β) : Prop
  | kept : Frame c c' → c'.history.db.prunedThrough = c.history.db.prunedThrough →
      TablesMove cfg c action c'
  | pruned {rd : CallReadings} {locked : List Nat} {maxEvents maxAgeSeconds limit : Nat} :
      action = .prune rd locked maxEvents maxAgeSeconds limit → Frame c c' →
      c'.history.db =
        ((Call.prune locked maxEvents maxAgeSeconds limit : Call β).exec rd c.history.db).2 →
      TablesMove cfg c action c'
  | served {i : Nat} {rd : CallReadings} {call : Call β} : call.SentBy (cfg.relay i) (c.Mine i) →
      (∀ request ∈ call.request?, c.age request.2.1 < c.age request.2.2) → c.Unminted rd.fresh →
      c'.history.db = (call.exec rd c.history.db).2 → c'.minted = (rd.fresh, i) :: c.minted →
      TablesMove cfg c action c'

section Move

variable {cfg : ClusterConfig} {c c' : Cluster β} {g : Generation} {instanceId : String}

/-- The inversion lemma. -/
theorem tables_move {action : ClusterAction β} (hok : ClusterOk cfg c) (horder : OrderOk cfg c)
    (hstep : ClusterStep cfg c action c') : TablesMove cfg c action c' := by
  unfold ClusterStep at hstep
  cases action with
  | tick now =>
      simp only [Cluster.next] at hstep
      split at hstep
      · rename_i hnow
        cases hstep
        exact .kept ⟨fun _ => rfl, rfl, hnow, .inl rfl⟩ rfl
      · cases hstep
  | act i fresh action =>
      simp only [Cluster.next] at hstep
      split at hstep
      · rename_i hguard
        obtain ⟨p', -, rfl⟩ := Option.map_eq_some_iff.mp hstep
        exact .kept ⟨fun _ => rfl, rfl, le_refl _, .inr ⟨fresh, i, hguard.2, rfl⟩⟩ rfl
      · cases hstep
  | execute i rd =>
      simp only [Cluster.next, Cluster.execute] at hstep
      split at hstep
      · cases hstep
      obtain ⟨call, hcall, hstep⟩ := Option.bind_eq_some_iff.mp hstep
      split at hstep
      · rename_i hguard
        cases hstep
        have hnode := hok.node i
        refine .served (call?_sent hnode.generation hnode.recovery hcall).1 ?_ hguard.2.1 rfl rfl
        intro request hrequest
        obtain ⟨hg, hr⟩ := call?_request hcall hrequest
        exact (horder i).recovery _ hg _ hr
      · cases hstep
  | select i =>
      obtain ⟨_, _, -, -, rfl⟩ := select_cases hstep
      exact .kept ⟨fun _ => rfl, rfl, le_refl _, .inl rfl⟩ rfl
  | reply i fresh =>
      simp only [Cluster.next] at hstep
      split at hstep
      case isFalse => cases hstep
      case isTrue =>
        obtain ⟨outcome, -, hstep⟩ := Option.bind_eq_some_iff.mp hstep
        unfold Cluster.resume at hstep
        split at hstep
        · rename_i hfresh
          obtain ⟨p', -, rfl⟩ := Option.map_eq_some_iff.mp hstep
          exact .kept ⟨fun _ => rfl, rfl, le_refl _, .inr ⟨fresh, i, hfresh, rfl⟩⟩ rfl
        · cases hstep
  | lose i fresh =>
      simp only [Cluster.next, Cluster.resume] at hstep
      split at hstep
      · rename_i hfresh
        obtain ⟨p', -, rfl⟩ := Option.map_eq_some_iff.mp hstep
        exact .kept ⟨fun _ => rfl, rfl, le_refl _, .inr ⟨fresh, i, hfresh, rfl⟩⟩ rfl
      · cases hstep
  | late i k rd =>
      obtain ⟨call, hcall, hstep⟩ := Option.bind_eq_some_iff.mp hstep
      split at hstep
      · rename_i hguard
        cases hstep
        have hmem : call ∈ (c.nodes i).orphans := List.mem_of_getElem? hcall
        exact .served ((hok.node i).orphans call hmem) ((horder i).orphaned call hmem) hguard.2
          rfl rfl
      · cases hstep
  | prune rd locked maxEvents maxAgeSeconds limit =>
      simp only [Cluster.next] at hstep
      split at hstep
      · rename_i hguard
        cases hstep
        have hcursors : ∀ instanceId,
            ((Call.prune locked maxEvents maxAgeSeconds limit : Call β).exec rd
              c.history.db).2.cursor? instanceId = c.history.db.cursor? instanceId :=
          prune_cursor?
        refine .pruned rfl ⟨hcursors, ?_, le_refl _, .inr ⟨rd.fresh, 0, hguard.2, rfl⟩⟩ rfl
        funext instanceId
        exact if_pos (hcursors instanceId)
      · cases hstep
  | lock admission =>
      simp only [Cluster.next] at hstep
      split at hstep
      · cases hstep
        exact .kept ⟨fun _ => rfl, rfl, le_refl _, .inl rfl⟩ rfl
      · cases hstep
  | append event =>
      obtain ⟨tx, -, hstep⟩ := Option.bind_eq_some_iff.mp hstep
      split at hstep
      · cases hstep
        exact .kept ⟨fun _ => rfl, rfl, le_refl _, .inl rfl⟩ rfl
      · cases hstep
  | commit clock =>
      simp only [Cluster.next] at hstep
      split at hstep
      · obtain ⟨tx, -, hstep⟩ := Option.bind_eq_some_iff.mp hstep
        obtain ⟨db, hdb, hstep⟩ := Option.bind_eq_some_iff.mp hstep
        have hreserved := reserve_cases hstep
        have hcursors : ∀ instanceId, db.cursor? instanceId = c.history.db.cursor? instanceId := by
          intro instanceId
          unfold Foundation.cursor?
          rw [appendAll_cursors hdb]
        refine .kept ?_ ?_
        · obtain ⟨hrows, hwritten, hnow, hminted⟩ := hreserved.frame
          exact ⟨fun instanceId => (hrows instanceId).trans (hcursors instanceId), hwritten, hnow,
            hminted⟩
        · rw [hreserved.log.1]
          exact appendAll_prunedThrough hdb
      · cases hstep
  | rollback =>
      simp only [Cluster.next] at hstep
      split at hstep
      · cases hstep
        exact .kept ⟨fun _ => rfl, rfl, le_refl _, .inl rfl⟩ rfl
      · cases hstep

/-- A cursor row is never deleted. -/
theorem Call.cursor?_kept {rd : CallReadings} {call : Call β} {f : Foundation β}
    {row : InstanceCursor} (hrow : f.cursor? instanceId = some row) :
    ∃ row', (call.exec rd f).2.cursor? instanceId = some row' := by
  rcases call.exec_cases rd f with ⟨e, hexec⟩ | ⟨reply, f', hrun, hexec⟩
  · rw [hexec]
    exact ⟨row, hrow⟩
  rw [hexec]
  cases Call.moves hrun with
  | same hcursors =>
      refine ⟨row, ?_⟩
      unfold Foundation.cursor? at hrow ⊢
      rw [hcursors]
      exact hrow
  | @put new _ _ =>
      by_cases hid : new.instanceId = instanceId
      · subst hid
        exact ⟨new, Foundation.cursor?_putCursor f new⟩
      · exact ⟨row, (Foundation.cursor?_putCursor_other hid).trans hrow⟩

end Move

/-! ## Retention -/

section Retention

variable {cfg : ClusterConfig} {c c' : Cluster β} {instanceId : String}

/-- Where the step is a prune, it finds the lease of the instance live. -/
def Cluster.PrunesLive (instanceId : String) (c : Cluster β) : ClusterAction β → Prop
  | .prune rd _ _ _ _ =>
      ∀ row ∈ c.history.db.cursor? instanceId, row.Live (rd.clock 0)
  | _ => True

instance (instanceId : String) (c : Cluster β) (action : ClusterAction β) :
    Decidable (c.PrunesLive instanceId action) :=
  match action with
  | .prune rd _ _ _ _ =>
      inferInstanceAs
        (Decidable (∀ row ∈ c.history.db.cursor? instanceId, row.Live (rd.clock 0)))
  | .tick _ | .act _ _ _ | .execute _ _ | .select _ | .reply _ _ | .lose _ _ | .late _ _ _
  | .lock _ | .append _ | .commit _ | .rollback => isTrue trivial

/-- The watermark has not passed the cursor of the instance. -/
def Foundation.Retains (instanceId : String) (f : Foundation β) : Prop :=
  ∀ row, f.cursor? instanceId = some row → f.prunedThrough ≤ row.lastSequence

theorem safeThrough_le {f : Foundation β} {row : InstanceCursor} {now : Timestamp}
    (hrow : f.cursor? instanceId = some row) (hlive : row.Live now) :
    f.safeThrough now ≤ row.lastSequence := by
  have hmem : row ∈ f.cursors := (Table.find?_eq_some.mp hrow).1
  have hlisted : row.lastSequence ∈
      (f.cursors.rows.filter fun row => row.Live now).map InstanceCursor.lastSequence :=
    List.mem_map.mpr ⟨row, List.mem_filter.mpr ⟨hmem, decide_eq_true hlive⟩, rfl⟩
  unfold Foundation.safeThrough
  cases hleast : ((f.cursors.rows.filter fun row => row.Live now).map
      InstanceCursor.lastSequence).min? with
  | none =>
      rw [List.min?_eq_none_iff.mp hleast] at hlisted
      cases hlisted
  | some least => exact (List.min?_eq_some_iff.mp hleast).2 _ hlisted

/-- A prune stops at the cursor of a live instance. -/
theorem Foundation.Retains.prune {f : Foundation β} {rd : CallReadings} {locked : List Nat}
    {maxEvents maxAgeSeconds limit : Nat} (h : f.Retains instanceId)
    (hlive : ∀ row, f.cursor? instanceId = some row → row.Live (rd.clock 0)) :
    ((Call.prune locked maxEvents maxAgeSeconds limit : Call β).exec rd f).2.Retains
      instanceId := by
  intro row hrow
  rw [prune_cursor?] at hrow
  have hbefore := h row hrow
  rcases (Call.prune locked maxEvents maxAgeSeconds limit : Call β).exec_cases rd f with
    ⟨e, hexec⟩ | ⟨reply, f', hrun, hexec⟩
  · rw [hexec]
    exact hbefore
  · rw [hexec]
    obtain ⟨_, hprune, -⟩ := Tx.returns_map.mp hrun
    rw [pruneEvents_ok hprune]
    unfold Foundation.prune
    split
    · exact hbefore
    rename_i last hlast
    apply Nat.max_le.mpr
    refine ⟨hbefore, ?_⟩
    have hbatch := mem_of_mem_firstBy (List.mem_of_getLast? hlast)
    have hsafe := (of_decide_eq_true (List.mem_filter.mp hbatch).2).1
    exact hsafe.trans (safeThrough_le hrow (hlive row hrow))

/-- No call of a relay takes its cursor below the watermark. -/
theorem Foundation.Retains.served {f : Foundation β} {rd : CallReadings} {call : Call β}
    {config : RelayConfig} {mine : Generation → Prop} (h : f.Retains instanceId)
    (hsent : call.SentBy config mine) : (call.exec rd f).2.Retains instanceId := by
  have hsame : SameLog f (call.exec rd f).2 := hsent.sameLog
  intro row' hrow'
  rw [hsame.prunedThrough]
  have hhead : f.prunedThrough ≤ f.head := Nat.le_max_right _ _
  cases Call.row_step hrow' with
  | kept hrow _ heq =>
      rw [heq]
      exact h _ hrow
  | minted _ hat =>
      rcases hat with heq | ⟨row, hrow, heq⟩
      · rw [heq]
        exact hhead
      · rw [heq]
        exact h row hrow
  | recovered _ _ heq =>
      rw [heq]
      exact hhead
  | advanced hrow _ _ hlt _ _ heq =>
      rw [heq]
      exact (h _ hrow).trans hlt.le

/-- The step lemma. -/
theorem Foundation.Retains.step {action : ClusterAction β} (h : c.history.db.Retains instanceId)
    (hok : ClusterOk cfg c) (horder : OrderOk cfg c) (hlive : c.PrunesLive instanceId action)
    (hstep : ClusterStep cfg c action c') : c'.history.db.Retains instanceId := by
  cases tables_move hok horder hstep with
  | kept hframe hpruned =>
      intro row hrow
      rw [hpruned]
      exact h row ((hframe.cursors instanceId).symm.trans hrow)
  | pruned haction hframe hdb =>
      subst haction
      rw [hdb]
      exact h.prune hlive
  | served hsent _ _ hdb _ =>
      rw [hdb]
      exact h.served hsent

/-- A read fails with a gap only where the watermark has passed the cursor. -/
theorem readEvents_spares_gap {f : Foundation β} {clock : Nat → Timestamp} {limit : Nat}
    {generation : Option Generation} {limits : LagLimits} (h : f.Retains instanceId) :
    Tx.Spares (readEvents clock instanceId limit generation limits) f
      fun e => e = .eventLogGap := by
  unfold readEvents validateInstanceId validateLagLimits
  apply (Tx.spares_require (.inr (by simp))).bind
  intro _ f₁ hvalid
  obtain ⟨-, rfl⟩ := Tx.returns_require.mp hvalid
  apply (Tx.spares_require (.inr (by simp))).bind
  intro _ f₂ hlimit
  obtain ⟨-, rfl⟩ := Tx.returns_require.mp hlimit
  apply Tx.Spares.bind
  · apply (Tx.spares_require (.inr (by simp))).bind
    intro _ _ _
    exact Tx.spares_require (.inr (by simp))
  intro _ f₃ hlimits
  have hsame : f₃ = f₂ := by
    simp only [Tx.returns_bind, Tx.returns_require] at hlimits
    obtain ⟨_, _, ⟨-, rfl⟩, -, rfl⟩ := hlimits
    rfl
  subst hsame
  apply Tx.spares_read.bind
  intro owned f₄ howned
  obtain ⟨rfl, rfl⟩ := Tx.returns_read.mp howned
  apply (Tx.spares_orRaise (.inr (by simp))).bind
  intro row f₅ hrow
  obtain ⟨hrow, rfl⟩ := Tx.returns_orRaise.mp hrow
  apply Tx.spares_read.bind
  intro pruned f₆ hpruned
  obtain ⟨rfl, rfl⟩ := Tx.returns_read.mp hpruned
  have hretained : f₆.prunedThrough ≤ row.lastSequence :=
    h row (Foundation.owned_eq_some.mp hrow).1
  apply (Tx.spares_require (.inl hretained)).bind
  intro _ _ _
  apply Tx.spares_read.bind
  intro byCount _ _
  apply Tx.spares_read.bind
  intro byAge _ _
  apply (Tx.spares_require (.inr (by simp))).bind
  intro _ _ _
  apply (Tx.spares_require (.inr (by simp))).bind
  intro _ _ _
  exact Tx.spares_read

/-- In every run whose prunes all find the lease of an instance live, each event committed past
the instance's cursor is still in the log, and no read of the instance's fails with a gap. -/
theorem no_gap_while_live
    (hrun : Run (ClusterStep cfg) (Cluster.PrunesLive instanceId) ({} : Cluster β) c) :
    (∀ row, c.history.db.cursor? instanceId = some row →
      ∀ e ∈ c.committed, row.lastSequence < e.sequence → e ∈ c.history.db.events) ∧
      ∀ rd limit generation limits,
        ((Call.read instanceId limit generation limits : Call β).exec rd c.history.db).1 ≠
          .error .eventLogGap := by
  have hstep : ∀ (t : Cluster β) (action : ClusterAction β) (u : Cluster β),
      (ClusterOk cfg t ∧ OrderOk cfg t ∧ t.LogKept) ∧ t.history.db.Retains instanceId →
        t.PrunesLive instanceId action → ClusterStep cfg t action u →
        (ClusterOk cfg u ∧ OrderOk cfg u ∧ u.LogKept) ∧ u.history.db.Retains instanceId := by
    rintro t action u ⟨⟨hok, horder, hlog⟩, hretains⟩ hlive hnext
    exact ⟨⟨hok.step hnext, horder.step hok hnext, hlog.step hok hnext⟩,
      hretains.step hok horder hlive hnext⟩
  have hstart : ({} : Cluster β).history.db.Retains instanceId := by
    intro row hrow
    cases hrow
  obtain ⟨⟨-, -, hlog⟩, hretains⟩ :=
    hrun.invariant hstep ⟨⟨.start, .start, .start⟩, hstart⟩
  refine ⟨?_, ?_⟩
  · intro row hrow e he hpast
    exact hlog.retained e he ((hretains row hrow).trans_lt hpast)
  · intro rd limit generation limits hgap
    have hraises : Tx.Raises
        (readEvents rd.clock instanceId limit generation limits) c.history.db
        FoundationError.eventLogGap := by
      rcases (Call.read instanceId limit generation limits : Call β).exec_cases rd c.history.db with
        ⟨e, hexec⟩ | ⟨reply, f', -, hexec⟩
      · rw [hexec] at hgap
        cases hgap
        exact Tx.raises_map.mp (Tx.atomically_raises.mp hexec)
      · rw [hexec] at hgap
        cases hgap
    exact readEvents_spares_gap hretains _ hraises rfl

end Retention

/-- A step that is possible is the one `Cluster.next` computes. -/
instance (cfg : ClusterConfig) (c : Cluster β) (action : ClusterAction β) :
    Decidable (ClusterStep cfg c action ((c.next cfg action).getD c)) :=
  decidable_of_iff ((c.next cfg action).isSome = true) <| by
    unfold ClusterStep
    cases c.next cfg action with
    | none => simp
    | some c' => simp

/-- Three events, the first two acknowledged and then pruned. -/
def prunedActions : List (ClusterAction Unit) :=
  [.act 0 1 .start, .execute 0 (readAt 0 2), .reply 0 3, .lock none,
    .append ⟨1, "general", (), 0⟩, .append ⟨2, "general", (), 0⟩,
    .append ⟨3, "general", (), 0⟩, .commit 0, .act 0 4 .wake, .execute 0 (readAt 0 5), .select 0,
    .reply 0 6, .act 0 7 .hand, .act 0 8 (.dispatched true), .act 0 9 .hand,
    .act 0 10 (.dispatched true), .act 0 11 (.dispatched false), .execute 0 (readAt 0 12),
    .reply 0 13, .prune (readAt 0 14) [] 1 60 10]

def prunedCluster : Cluster Unit :=
  prunedActions.foldl (fun c action => (c.next deliveringCluster action).getD c) {}

/-- The third event is left for the instance to read. -/
theorem no_gap_while_live_pruned :
    prunedCluster.history.db.prunedThrough = 2 ∧
      (⟨3, "general", (), 0⟩ : RealtimeEvent Unit) ∈ prunedCluster.history.db.events ∧
      ((Call.read "node-1" 100 (some 2) pairConfig.limits).exec (readAt 0 15)
        prunedCluster.history.db).1 ≠ .error .eventLogGap := by
  have hrun : Run (ClusterStep deliveringCluster) (Cluster.PrunesLive "node-1")
      ({} : Cluster Unit) prunedCluster := by
    apply Run.of_follows
    decide +kernel
  have hrow : prunedCluster.history.db.cursor? "node-1" = some ⟨"node-1", 2, 2, seconds 30⟩ := by
    decide +kernel
  have hcommitted : (⟨3, "general", (), 0⟩ : RealtimeEvent Unit) ∈ prunedCluster.committed := by
    decide +kernel
  obtain ⟨hretained, hread⟩ := no_gap_while_live hrun
  exact ⟨by decide +kernel, hretained _ hrow _ hcommitted (by decide), hread _ _ _ _⟩

/-! ## Generations -/

section Generations

variable {cfg : ClusterConfig} {c c' c'' : Cluster β} {action : ClusterAction β} {g g' : Generation}
  {instanceId : String} {row row' : InstanceCursor}

theorem eq_of_age (hg : c.Minted g) (h : c.age g = c.age g') : g = g' := by
  unfold Cluster.age at h
  exact (List.idxOf_inj (List.mem_reverse.mpr hg)).mp h

theorem TablesMove.minted (h : TablesMove cfg c action c') (hg : c.Minted g) :
    c'.Minted g ∧ c'.age g = c.age g := by
  have hframe : Frame c c' → c'.Minted g ∧ c'.age g = c.age g := by
    intro hframe
    refine ⟨?_, hframe.age hg⟩
    unfold Cluster.Minted
    rcases hframe.minted with heq | ⟨fresh, k, -, heq⟩
    · rw [heq]
      exact hg
    · rw [heq]
      exact List.mem_cons_of_mem _ hg
  cases h with
  | kept hkept _ => exact hframe hkept
  | pruned _ hkept _ => exact hframe hkept
  | served _ _ _ _ hminted =>
      refine ⟨?_, age_of_minted hminted hg⟩
      unfold Cluster.Minted
      rw [hminted]
      exact List.mem_cons_of_mem _ hg

/-- The row of an instance stays, with the generation it had or a later one. -/
theorem TablesMove.row_later (h : TablesMove cfg c action c') (hok : ClusterOk cfg c)
    (hrow : c.history.db.cursor? instanceId = some row) :
    ∃ row', c'.history.db.cursor? instanceId = some row' ∧
      c'.age row.generation ≤ c'.age row'.generation := by
  have hframe : Frame c c' → ∃ row', c'.history.db.cursor? instanceId = some row' ∧
      c'.age row.generation ≤ c'.age row'.generation := by
    intro hframe
    exact ⟨row, (hframe.cursors instanceId).trans hrow, Nat.le_refl _⟩
  cases h with
  | kept hkept _ => exact hframe hkept
  | pruned _ hkept _ => exact hframe hkept
  | @served i rd call hsent hrequest hfresh hdb hminted =>
      have hkept : ∃ row', (call.exec rd c.history.db).2.cursor? instanceId = some row' :=
        Call.cursor?_kept hrow
      obtain ⟨row', hrow'⟩ := hkept
      have hcurrent : ∀ old, c.history.db.cursor? instanceId = some old →
          c.age row.generation ≤ c.age old.generation := by
        intro old hold
        obtain rfl := Option.some.inj (hrow.symm.trans hold)
        exact Nat.le_refl _
      have hlater := age_row_served hok.rows hsent hrequest hfresh
        (hok.rows.stored instanceId row hrow) hcurrent hrow'
      have hage : c'.age = (c.served i rd call).age := by
        funext g
        unfold Cluster.age
        rw [hminted]
        rfl
      rw [hdb, hage]
      exact ⟨row', hrow', hlater⟩

/-- The stored generation of the instance is `g` or a later one. -/
def Cluster.Reached (instanceId : String) (g : Generation) (c : Cluster β) : Prop :=
  c.Minted g ∧ ∃ row, c.history.db.cursor? instanceId = some row ∧ c.age g ≤ c.age row.generation

/-- The stored generation of the instance is a later one than `g`. -/
def Cluster.Replaced (instanceId : String) (g : Generation) (c : Cluster β) : Prop :=
  c.Minted g ∧ ∃ row, c.history.db.cursor? instanceId = some row ∧ c.age g < c.age row.generation

theorem Cluster.Reached.step (h : c.Reached instanceId g) (hok : ClusterOk cfg c)
    (hmove : TablesMove cfg c action c') : c'.Reached instanceId g := by
  obtain ⟨hg, row, hrow, hle⟩ := h
  obtain ⟨hminted, hage⟩ := hmove.minted hg
  obtain ⟨row', hrow', hlater⟩ := hmove.row_later hok hrow
  obtain ⟨-, hsame⟩ := hmove.minted (hok.rows.stored instanceId row hrow)
  refine ⟨hminted, row', hrow', ?_⟩
  rw [hage]
  rw [hsame] at hlater
  exact hle.trans hlater

theorem Cluster.Replaced.step (h : c.Replaced instanceId g) (hok : ClusterOk cfg c)
    (hmove : TablesMove cfg c action c') : c'.Replaced instanceId g := by
  obtain ⟨hg, row, hrow, hlt⟩ := h
  obtain ⟨hminted, hage⟩ := hmove.minted hg
  obtain ⟨row', hrow', hlater⟩ := hmove.row_later hok hrow
  obtain ⟨-, hsame⟩ := hmove.minted (hok.rows.stored instanceId row hrow)
  refine ⟨hminted, row', hrow', ?_⟩
  rw [hage]
  rw [hsame] at hlater
  exact hlt.trans_le hlater

/-- What every move of the tables keeps, a run keeps. -/
theorem run_keeps {J : Cluster β → Prop}
    (hJ : ∀ t action u, J t → ClusterOk cfg t → TablesMove cfg t action u → J u)
    (hok : ClusterOk cfg c) (horder : OrderOk cfg c) (hrun : Reach (ClusterStep cfg) c c')
    (hc : J c) : ClusterOk cfg c' ∧ OrderOk cfg c' ∧ J c' := by
  have hstep : ∀ (t : Cluster β) (action : ClusterAction β) (u : Cluster β),
      ClusterOk cfg t ∧ OrderOk cfg t ∧ J t → True → ClusterStep cfg t action u →
        ClusterOk cfg u ∧ OrderOk cfg u ∧ J u := by
    rintro t action u ⟨ht, horder, hj⟩ - hnext
    exact ⟨ht.step hnext, horder.step ht hnext, hJ t action u hj ht (tables_move ht horder hnext)⟩
  have hkept := hrun.invariant hstep ⟨hok, horder, hc⟩
  exact hkept

/-- A generation that was once replaced is never stored again, and what is asked in its name alone
is refused ever after, and so is a resynchronization from it to one that is not the stored one. -/
theorem replaced_generation_stays (hreach : ClusterReachable cfg c)
    (hrow : c.history.db.cursor? instanceId = some row) (hfirst : Reach (ClusterStep cfg) c c')
    (hnext : c'.history.db.cursor? instanceId = some row')
    (hreplaced : row'.generation ≠ row.generation) (hsecond : Reach (ClusterStep cfg) c' c'') :
    ∃ stored, c''.history.db.cursor? instanceId = some stored ∧
      stored.generation ≠ row.generation ∧
      ∀ rd : CallReadings,
        (∀ call : Call β, call.InNameOf instanceId row.generation →
          call.Refused rd c''.history.db) ∧
        ∀ recoveryGeneration leaseSeconds, recoveryGeneration ≠ stored.generation →
          (Call.resynchronize instanceId row.generation recoveryGeneration leaseSeconds :
            Call β).Refused rd c''.history.db := by
  have hok := hreach.ok
  have hminted : c.Minted row.generation := hok.rows.stored instanceId row hrow
  have horder : OrderOk cfg c := by
    obtain ⟨_, rfl, hrun⟩ := hreach
    have hnothing : ∀ (t : Cluster β) (action : ClusterAction β) (u : Cluster β), True →
        ClusterOk cfg t → TablesMove cfg t action u → True := fun _ _ _ _ _ _ => trivial
    exact (run_keeps hnothing .start .start hrun trivial).2.1
  have hreached : c.Reached instanceId row.generation := ⟨hminted, row, hrow, Nat.le_refl _⟩
  obtain ⟨hok', horder', hgone, old, hold, hle⟩ :=
    run_keeps (fun _ _ _ h hok hmove => h.step hok hmove) hok horder hfirst hreached
  obtain rfl := Option.some.inj (hnext.symm.trans hold)
  have hlt : c'.age row.generation < c'.age row'.generation := by
    apply lt_of_le_of_ne hle
    intro heq
    exact hreplaced (eq_of_age hgone heq).symm
  obtain ⟨-, -, -, stored, hstored, hlater⟩ :=
    run_keeps (fun _ _ _ (h : Cluster.Replaced instanceId row.generation _) hok hmove =>
      h.step hok hmove) hok' horder' hsecond ⟨hgone, row', hnext, hlt⟩
  have hother : stored.generation ≠ row.generation := by
    intro heq
    rw [heq] at hlater
    exact lt_irrefl _ hlater
  exact ⟨stored, hstored, hother, fun rd => ⟨fun call => refused_in_name hstored hother,
    fun _ _ hne => resynchronize_refused hstored hother hne.symm⟩⟩

end Generations

/-- Process 0 holds the instance, process 1 takes it over, and process 0 sends a heartbeat. -/
def heldFirst : Cluster Unit :=
  Cluster.run sharedCluster [.act 0 1 .start, .execute 0 (readAt 0 2), .reply 0 3] {}

def heldSecond : Cluster Unit :=
  Cluster.run sharedCluster
    [.tick (seconds 40), .act 1 4 .start, .execute 1 (readAt (seconds 40) 5), .reply 1 6,
      .act 0 7 .wake] heldFirst

def heldLater : Cluster Unit :=
  Cluster.run sharedCluster [.execute 0 (readAt (seconds 40) 8), .reply 0 9] heldSecond

theorem replaced_generation_stays_heldLater :
    (Call.heartbeat "node-1" (some 2) 30).Refused (readAt (seconds 41) 10)
        heldLater.history.db ∧
      (Call.recover "node-1" (some 2) 30).Refused (readAt (seconds 41) 10)
        heldLater.history.db := by
  have hreach : ClusterReachable sharedCluster heldFirst :=
    ⟨{}, rfl, Cluster.run_reach sharedCluster _ {}⟩
  have hfirst : heldFirst.history.db.cursor? "node-1" = some ⟨"node-1", 2, 0, seconds 30⟩ := by
    decide +kernel
  have hsecond : heldSecond.history.db.cursor? "node-1" = some ⟨"node-1", 5, 0, seconds 70⟩ := by
    decide +kernel
  obtain ⟨_, -, -, hrefused⟩ := replaced_generation_stays hreach hfirst
    (Cluster.run_reach sharedCluster _ heldFirst) hsecond (by decide)
    (Cluster.run_reach sharedCluster [.execute 0 (readAt (seconds 40) 8), .reply 0 9] heldSecond)
  exact ⟨(hrefused _).1 _ ⟨rfl, rfl⟩, (hrefused _).1 _ ⟨rfl, rfl⟩⟩

end Realtime
end ChatEngine
