import ChatEngine.Lib.LastWrite
import ChatEngine.Realtime.Deployment
import ChatEngine.Store.Privacy

/-!
# Presence and typing logs

The transitions the log records of a connection agree with its lease and typing
rows.

* `Phase.run`, the order in which a connection's transitions may come;
* `Follows`, the invariant: the log of a connection is such a run, and ends in the
  phase its rows are in;
* `Paired` and `paired_of_run`, what such a run says about the log as a list;
* `log_agrees_with_leases`, the property of every run.
-/

namespace ChatEngine
namespace Realtime

open Lib
open Models
open Store

/-! ## Phases -/

/-- Where a connection stands. -/
inductive Phase where
  | absent
  | present
  | typing
  deriving DecidableEq

/-- The transition a connection may take next. -/
def Phase.step : Phase → Transition → Option Phase
  | absent, .joined => some present
  | present, .left => some absent
  | present, .started => some typing
  | typing, .started => some typing
  | typing, .stopped => some present
  | _, _ => none

/-- Transitions taken in order. -/
def Phase.run (p : Phase) (log : List Transition) : Option Phase := log.foldlM Phase.step p

theorem Phase.run_append {p q : Phase} {first second : List Transition}
    (h : p.run first = some q) : p.run (first ++ second) = q.run second := by
  unfold Phase.run at h ⊢
  rw [List.foldlM_append, h]
  rfl

theorem Phase.run_append_single {p r : Phase} {log : List Transition} {t : Transition}
    (h : p.run (log ++ [t]) = some r) : ∃ q, p.run log = some q ∧ q.step t = some r := by
  unfold Phase.run at h
  rw [List.foldlM_append] at h
  obtain ⟨q, hlog, hlast⟩ := Option.bind_eq_some_iff.mp h
  obtain ⟨r', hstep, hnil⟩ := Option.bind_eq_some_iff.mp hlast
  cases hnil
  exact ⟨q, hlog, hstep⟩

/-! ## What a run of transitions says about the log -/

def Transition.isPresence : Transition → Bool
  | joined | left => true
  | started | stopped => false

def Transition.isTyping : Transition → Bool
  | joined | left => false
  | started | stopped => true

/-- The log of one connection: joins and departures alternate, every stop ends a
start, and nobody leaves while typing. -/
structure Paired (log : List Transition) (leased typing : Prop) : Prop where
  alternate : ∀ k t, (log.filter Transition.isPresence)[k]? = some t →
    t = if k % 2 = 0 then .joined else .left
  present : (log.filter Transition.isPresence).getLast? = some .joined ↔ leased
  typing : (log.filter Transition.isTyping).getLast? = some .started ↔ typing
  stops : ∀ k, (log.filter Transition.isTyping)[k]? = some .stopped →
    ∃ j, k = j + 1 ∧ (log.filter Transition.isTyping)[j]? = some .started
  order : ∀ k, log[k]? = some .left →
    ((log.take k).filter Transition.isTyping).getLast? ≠ some .started

section Snoc

variable {log : List Transition} {t : Transition} {leased leased' typing typing' : Prop}

/-- Nobody leaves while typing, also after one more transition. -/
theorem order_append
    (h : ∀ k, log[k]? = some .left →
      ((log.take k).filter Transition.isTyping).getLast? ≠ some .started)
    (hlast : t = .left → (log.filter Transition.isTyping).getLast? ≠ some .started) (k : Nat)
    (hk : (log ++ [t])[k]? = some .left) :
    (((log ++ [t]).take k).filter Transition.isTyping).getLast? ≠ some .started := by
  rcases getElem?_append_single hk with hold | ⟨rfl, ht⟩
  · have hlt : k ≤ log.length := (List.getElem?_eq_some_iff.mp hold).1.le
    rw [List.take_append_of_le_length hlt]
    exact h k hold
  · rw [List.take_append_of_le_length (Nat.le_refl _), List.take_length]
    exact hlast ht.symm

/-- The joins and departures of a connection that is gone are even in number. -/
theorem Paired.even_iff (h : Paired log leased typing) :
    (log.filter Transition.isPresence).length % 2 = 0 ↔ ¬ leased := by
  rw [← h.present]
  cases hlength : (log.filter Transition.isPresence).length with
  | zero =>
      rw [List.length_eq_zero_iff.mp hlength]
      exact ⟨fun _ => nofun, fun _ => rfl⟩
  | succ n =>
      obtain ⟨x, hx⟩ : ∃ x, (log.filter Transition.isPresence)[n]? = some x :=
        ⟨_, List.getElem?_eq_getElem (hlength ▸ Nat.lt_succ_self n)⟩
      have hturn := h.alternate n x hx
      rw [List.getLast?_eq_getElem?, hlength, Nat.add_sub_cancel, hx, hturn]
      by_cases hn : n % 2 = 0
      · rw [if_pos hn]
        exact ⟨fun hodd => by omega, fun hne => absurd rfl hne⟩
      · rw [if_neg hn]
        exact ⟨fun _ => nofun, fun _ => by omega⟩

/-- A join or a departure in its turn. -/
theorem Paired.snoc_presence (h : Paired log leased typing) (ht : t.isPresence = true)
    (hturn : t = .joined ↔ ¬ leased) (hleased : t = .joined ↔ leased')
    (hleft : t = .left → ¬ typing) (htyping' : typing ↔ typing') :
    Paired (log ++ [t]) leased' typing' := by
  have hpresence : (log ++ [t]).filter Transition.isPresence =
      log.filter Transition.isPresence ++ [t] := by
    rw [List.filter_append, List.filter_singleton, ht]
    rfl
  have htyping : (log ++ [t]).filter Transition.isTyping = log.filter Transition.isTyping := by
    have hnot : t.isTyping = false := by
      cases t with
      | joined | left => rfl
      | started | stopped => cases ht
    rw [List.filter_append, List.filter_singleton, hnot]
    exact List.append_nil _
  have hnext : t = if (log.filter Transition.isPresence).length % 2 = 0 then .joined else .left := by
    by_cases heven : (log.filter Transition.isPresence).length % 2 = 0
    · rw [if_pos heven]
      exact hturn.mpr (h.even_iff.mp heven)
    · rw [if_neg heven]
      have hne : t ≠ .joined := fun heq => heven (h.even_iff.mpr (hturn.mp heq))
      cases t with
      | left => rfl
      | joined => exact absurd rfl hne
      | started | stopped => cases ht
  refine ⟨?_, ?_, ?_, ?_, order_append h.order fun hl hlast => hleft hl (h.typing.mp hlast)⟩
  · rw [hpresence]
    intro k x hk
    rcases getElem?_append_single hk with hold | ⟨rfl, rfl⟩
    · exact h.alternate k x hold
    · exact hnext
  · rw [hpresence, List.getLast?_append_of_ne_nil _ (List.cons_ne_nil _ _)]
    exact (Option.some_inj).trans hleased
  · rw [htyping]
    exact h.typing.trans htyping'
  · rw [htyping]
    exact h.stops

/-- A start, or the stop of one. -/
theorem Paired.snoc_typing (h : Paired log leased typing) (ht : t.isTyping = true)
    (hstop : t = .stopped → typing) (htyping' : t = .started ↔ typing')
    (hleased : leased ↔ leased') : Paired (log ++ [t]) leased' typing' := by
  have htyping : (log ++ [t]).filter Transition.isTyping =
      log.filter Transition.isTyping ++ [t] := by
    rw [List.filter_append, List.filter_singleton, ht]
    rfl
  have hpresence : (log ++ [t]).filter Transition.isPresence =
      log.filter Transition.isPresence := by
    have hnot : t.isPresence = false := by
      cases t with
      | joined | left => cases ht
      | started | stopped => rfl
    rw [List.filter_append, List.filter_singleton, hnot]
    exact List.append_nil _
  have hleft : t ≠ .left := by
    rintro rfl
    cases ht
  refine ⟨?_, ?_, ?_, ?_, order_append h.order fun hl => absurd hl hleft⟩
  · rw [hpresence]
    exact h.alternate
  · rw [hpresence]
    exact h.present.trans hleased
  · rw [htyping, List.getLast?_append_of_ne_nil _ (List.cons_ne_nil _ _)]
    exact (Option.some_inj).trans htyping'
  · rw [htyping]
    intro k hk
    rcases getElem?_append_single hk with hold | ⟨rfl, hx⟩
    · obtain ⟨j, rfl, hj⟩ := h.stops k hold
      refine ⟨j, rfl, ?_⟩
      rw [List.getElem?_append_left (List.getElem?_eq_some_iff.mp hj).1]
      exact hj
    · have hlast := h.typing.mpr (hstop hx.symm)
      rw [List.getLast?_eq_getElem?] at hlast
      obtain ⟨hlt, -⟩ := List.getElem?_eq_some_iff.mp hlast
      refine ⟨_, (Nat.sub_one_add_one (Nat.ne_of_gt (Nat.lt_of_le_of_lt (Nat.zero_le _) hlt))).symm,
        ?_⟩
      rw [List.getElem?_append_left hlt]
      exact hlast

theorem Paired.congr (h : Paired log leased typing) (hleased : leased ↔ leased')
    (htyping : typing ↔ typing') : Paired log leased' typing' :=
  ⟨h.alternate, h.present.trans hleased, h.typing.trans htyping, h.stops, h.order⟩

end Snoc

/-- A run of transitions from outside, and where it has come. -/
theorem paired_of_run {log : List Transition} {p : Phase}
    (h : Phase.run .absent log = some p) : Paired log (p ≠ .absent) (p = .typing) := by
  induction log using List.reverseRecOn generalizing p with
  | nil =>
      cases h
      exact ⟨nofun, ⟨nofun, fun hleased => absurd rfl hleased⟩, ⟨nofun, nofun⟩, nofun, nofun⟩
  | append_singleton log t ih =>
      obtain ⟨q, hlog, hstep⟩ := Phase.run_append_single h
      have hpaired := ih hlog
      cases t with
      | joined =>
          cases q with
          | absent =>
              cases hstep
              exact hpaired.snoc_presence rfl (by decide) (by decide) nofun (by decide)
          | present | typing => cases hstep
      | left =>
          cases q with
          | present =>
              cases hstep
              exact hpaired.snoc_presence rfl (by decide) (by decide) (by decide) (by decide)
          | absent | typing => cases hstep
      | started =>
          cases q with
          | present | typing =>
              cases hstep
              exact hpaired.snoc_typing rfl nofun (by decide) (by decide)
          | absent => cases hstep
      | stopped =>
          cases q with
          | typing =>
              cases hstep
              exact hpaired.snoc_typing rfl (by decide) (by decide) (by decide)
          | absent | present => cases hstep

/-! ## The log of a connection -/

/-- The transitions of one connection. -/
def ownOf (connectionId : String) (entries : List (String × Transition)) : List Transition :=
  (entries.filter fun entry => entry.1 = connectionId).map Prod.snd

/-- The transitions the log records of a connection. -/
def Registry.transitions (s : Registry) (connectionId : String) : List Transition :=
  ownOf connectionId s.entries

/-- The connection has a lease row. -/
def Registry.Leased (s : Registry) (connectionId : String) : Prop :=
  (s.leases.find? connectionId).isSome = true

instance (s : Registry) : DecidablePred s.Leased := by
  intro connectionId
  unfold Registry.Leased
  infer_instance

/-- The phase the rows of a connection are in. -/
def Registry.phase (s : Registry) (connectionId : String) : Phase :=
  if s.Typing connectionId then .typing
  else if s.Leased connectionId then .present else .absent

/-- The log of a connection is a run of transitions that ends in its phase. -/
def Follows (s : Registry) (connectionId : String) : Prop :=
  Phase.run .absent (s.transitions connectionId) = some (s.phase connectionId)

section Log

variable {connectionId : String} {s s' t : Registry}

theorem ownOf_append (first second : List (String × Transition)) :
    ownOf connectionId (first ++ second) =
      ownOf connectionId first ++ ownOf connectionId second := by
  unfold ownOf
  rw [List.filter_append, List.map_append]

theorem ownOf_eq_nil {entries : List (String × Transition)}
    (h : ∀ entry ∈ entries, entry.1 ≠ connectionId) : ownOf connectionId entries = [] := by
  unfold ownOf
  rw [List.filter_eq_nil_iff.mpr]
  · rfl
  · intro entry hentry
    rw [decide_eq_true_eq]
    exact h entry hentry

theorem mem_departure {row : ConnectionLease × Bool} {entry : String × Transition}
    (h : entry ∈ departure row) : entry.1 = row.1.connectionId := by
  rcases List.mem_append.mp h with hstop | hleft
  · split at hstop
    · rw [List.mem_singleton.mp hstop]
    · cases hstop
  · rw [List.mem_singleton.mp hleft]

/-- The departure as its own connection sees it. -/
theorem ownOf_departure (row : ConnectionLease × Bool) :
    ownOf row.1.connectionId (departure row) =
      if row.2 = true then [.stopped, .left] else [.left] := by
  unfold ownOf departure
  split <;> simp

section Batches

variable {α : Type} {key : α → String} {announce : α → List (String × Transition)}
  {rows : List α} {row : α}

theorem ownOf_flatMap_of_not_mem (hkey : ∀ r, ∀ entry ∈ announce r, entry.1 = key r)
    (h : connectionId ∉ rows.map key) : ownOf connectionId (rows.flatMap announce) = [] := by
  refine ownOf_eq_nil fun entry hentry heq => ?_
  obtain ⟨r, hr, hmem⟩ := List.mem_flatMap.mp hentry
  exact h (List.mem_map.mpr ⟨r, hr, (hkey r entry hmem).symm.trans heq⟩)

/-- Of a batch that announces each connection once, a connection sees its own part. -/
theorem ownOf_flatMap (hkey : ∀ r, ∀ entry ∈ announce r, entry.1 = key r)
    (hnodup : (rows.map key).Nodup) (hrow : row ∈ rows) :
    ownOf (key row) (rows.flatMap announce) = ownOf (key row) (announce row) := by
  induction rows with
  | nil => cases hrow
  | cons first rest ih =>
      rw [List.map_cons, List.nodup_cons] at hnodup
      rw [List.flatMap_cons, ownOf_append]
      rcases List.mem_cons.mp hrow with rfl | hrest
      · rw [ownOf_flatMap_of_not_mem hkey hnodup.1, List.append_nil]
      · rw [ih hnodup.2 hrest, ownOf_eq_nil, List.nil_append]
        intro entry hentry heq
        refine hnodup.1 (List.mem_map.mpr ⟨row, hrest, ?_⟩)
        exact heq.symm.trans (hkey first entry hentry)

end Batches

/-! ## Phases of the rows -/

theorem phase_congr (hleased : s'.Leased connectionId ↔ s.Leased connectionId)
    (htyping : s'.Typing connectionId ↔ s.Typing connectionId) :
    s'.phase connectionId = s.phase connectionId := by
  unfold Registry.phase
  simp only [hleased, htyping]

theorem leased_drop {connectionIds : List String} :
    (s.drop connectionIds).Leased connectionId ↔
      s.Leased connectionId ∧ connectionId ∉ connectionIds := by
  unfold Registry.Leased
  rw [Table.find?_isSome, Table.find?_isSome]
  constructor
  · rintro ⟨lease, hlease, rfl⟩
    obtain ⟨hold, hkept⟩ := mem_drop_leases.mp hlease
    exact ⟨⟨lease, hold, rfl⟩, hkept⟩
  · rintro ⟨⟨lease, hold, rfl⟩, hkept⟩
    exact ⟨lease, mem_drop_leases.mpr ⟨hold, hkept⟩, rfl⟩

theorem typing_hush {connectionIds : List String} :
    (s.hush connectionIds).Typing connectionId ↔
      s.Typing connectionId ∧ connectionId ∉ connectionIds := by
  unfold Registry.Typing Registry.hush
  rw [Table.find?_isSome, Table.find?_isSome]
  constructor
  · rintro ⟨state, hstate, rfl⟩
    exact ⟨⟨state, (Table.mem_deleteWhere.mp hstate).1, rfl⟩, (Table.mem_deleteWhere.mp hstate).2⟩
  · rintro ⟨⟨state, hold, rfl⟩, hkept⟩
    exact ⟨state, Table.mem_deleteWhere.mpr ⟨hold, hkept⟩, rfl⟩

theorem typing_drop {connectionIds : List String} :
    (s.drop connectionIds).Typing connectionId ↔
      s.Typing connectionId ∧ connectionId ∉ connectionIds :=
  typing_hush

/-- The phase once rows of other connections have been deleted. -/
theorem phase_drop_of_not_mem {connectionIds : List String} (h : connectionId ∉ connectionIds) :
    (s.drop connectionIds).phase connectionId = s.phase connectionId :=
  phase_congr (leased_drop.trans (and_iff_left h)) (typing_drop.trans (and_iff_left h))

theorem phase_drop_of_mem {connectionIds : List String} (h : connectionId ∈ connectionIds) :
    (s.drop connectionIds).phase connectionId = .absent := by
  unfold Registry.phase
  rw [if_neg fun htyping => (typing_drop.mp htyping).2 h,
    if_neg fun hleased => (leased_drop.mp hleased).2 h]

/-- A departure takes the connection out, whether it was typing or not. -/
theorem phase_run_departure (hleased : s.Leased connectionId) :
    (s.phase connectionId).run
      (if s.Typing connectionId then [.stopped, .left] else [.left]) = some .absent := by
  unfold Registry.phase
  by_cases htyping : s.Typing connectionId
  · rw [if_pos htyping, if_pos htyping]
    rfl
  · rw [if_neg htyping, if_neg htyping, if_pos hleased]
    rfl

/-- A row with the connection's id is stored. -/
theorem leased_of_mem {lease : ConnectionLease} (h : lease ∈ s.leases) :
    s.Leased lease.connectionId :=
  Table.find?_isSome.mpr ⟨lease, h, rfl⟩

/-- A transaction that logs what its rows do keeps the log in step with them. -/
theorem Follows.logs {entries : List (String × Transition)} (h : Follows s connectionId)
    (hlogs : t.Logs s' entries) (hsame : t.entries = s.entries)
    (hrun : (s.phase connectionId).run (ownOf connectionId entries) =
      some (t.phase connectionId)) : Follows s' connectionId := by
  have htransitions : s'.transitions connectionId =
      s.transitions connectionId ++ ownOf connectionId entries := by
    unfold Registry.transitions
    rw [hlogs.entries, ownOf_append, hsame]
  have hphase : s'.phase connectionId = t.phase connectionId := by
    unfold Registry.phase Registry.Typing Registry.Leased
    simp only [hlogs.leases, hlogs.typing]
  unfold Follows
  rw [htransitions, Phase.run_append h, hrun, hphase]

/-- So does one that is about other connections. -/
theorem Follows.others {entries : List (String × Transition)} (h : Follows s connectionId)
    (hlogs : t.Logs s' entries) (hsame : t.entries = s.entries)
    (hown : ownOf connectionId entries = [])
    (hphase : t.phase connectionId = s.phase connectionId) : Follows s' connectionId := by
  refine h.logs hlogs hsame ?_
  rw [hown, hphase]
  rfl

end Log

/-! ## One step -/

section Step

variable {cfg : RegistryConfig} {rd : RegistryReadings} {connectionId : String}
  {s s' : Registry}

theorem ownOf_single_of_ne {other : String} {transition : Transition} (h : other ≠ connectionId) :
    ownOf connectionId [(other, transition)] = [] := by
  refine ownOf_eq_nil fun entry hentry => ?_
  rw [List.mem_singleton.mp hentry]
  exact h

theorem ownOf_single (transition : Transition) :
    ownOf connectionId [(connectionId, transition)] = [transition] := by
  simp [ownOf]

theorem Follows.swept {now : Timestamp} {limit : Nat} {locked : List String}
    {prioritized : Option String} (h : Follows s connectionId)
    (hswept : Swept s s' now limit locked prioritized) :
    Follows s' connectionId := by
  have hperm := List.perm_insertionSort byConnectionId (s.sweptRows now limit locked prioritized)
  have hids : (s.sweptRows now limit locked prioritized).map (fun r => r.1.connectionId) =
      (s.swept now limit locked prioritized).map ConnectionLease.connectionId := by
    unfold Registry.sweptRows
    rw [List.map_map]
    rfl
  have hnodup : ((s.swept now limit locked prioritized).map ConnectionLease.connectionId).Nodup :=
    firstBy_map_nodup (s.leases.keys_nodup.sublist (List.filter_sublist.map _))
  by_cases hmem : connectionId ∈
      (s.swept now limit locked prioritized).map ConnectionLease.connectionId
  · refine h.logs hswept.logs rfl ?_
    obtain ⟨lease, hlease, rfl⟩ := List.mem_map.mp hmem
    have hrow : (lease, decide (s.Typing lease.connectionId)) ∈
        (s.sweptRows now limit locked prioritized).insertionSort byConnectionId :=
      hperm.mem_iff.mpr (List.mem_map.mpr ⟨lease, hlease, rfl⟩)
    have hstored : lease ∈ s.leases := (List.mem_filter.mp (mem_of_mem_firstBy hlease)).1
    have hown := ownOf_flatMap (fun r entry => mem_departure)
      ((hperm.map _).nodup_iff.mpr (hids ▸ hnodup)) hrow
    have hdeparts := ownOf_departure (lease, decide (s.Typing lease.connectionId))
    simp only [decide_eq_true_eq] at hdeparts
    rw [hown.trans hdeparts, phase_run_departure (leased_of_mem hstored)]
    exact congrArg some (phase_drop_of_mem hmem).symm
  · refine h.others hswept.logs rfl ?_ (phase_drop_of_not_mem hmem)
    refine ownOf_flatMap_of_not_mem (fun r entry => mem_departure) ?_
    rw [(hperm.map _).mem_iff, hids]
    exact hmem

theorem Follows.reserved {lease : ConnectionLease} {outcome : Acquisition}
    (h : Follows s connectionId) (hok : RegistryOk s)
    (hreserved : Reserved s s' rd lease outcome) : Follows s' connectionId := by
  cases hreserved with
  | overtaken heq =>
      subst heq
      exact h
  | @leased inserted _ _ hins hlogs _ =>
      obtain ⟨hfresh, -⟩ := Table.insert?_eq_some.mp hins
      by_cases hid : lease.connectionId = connectionId
      · subst hid
        -- neither a lease nor a typing row of the connection was there
        have hleased : ¬ s.Leased lease.connectionId := by
          intro hfound
          obtain ⟨old, hold, hkey⟩ := Table.find?_isSome.mp hfound
          exact hfresh old hold hkey
        have htyping : ¬ s.Typing lease.connectionId := by
          intro hfound
          obtain ⟨state, hstate, hkey⟩ := Table.find?_isSome.mp hfound
          obtain ⟨old, hold, hsame⟩ := hok.typing state hstate
          exact hfresh old hold (hsame.trans hkey)
        have hnow : Registry.Leased { s with leases := inserted } lease.connectionId :=
          Table.find?_isSome.mpr ⟨lease, (Table.mem_of_insert? hins).mpr (.inr rfl), rfl⟩
        have hbefore : s.phase lease.connectionId = .absent := by
          unfold Registry.phase
          rw [if_neg htyping, if_neg hleased]
        have hafter : Registry.phase { s with leases := inserted } lease.connectionId =
            .present := by
          have hquiet : ¬ Registry.Typing { s with leases := inserted } lease.connectionId :=
            htyping
          unfold Registry.phase
          rw [if_neg hquiet, if_pos hnow]
        refine h.logs hlogs rfl ?_
        rw [ownOf_single, hbefore, hafter]
        rfl
      · refine h.others hlogs rfl (ownOf_single_of_ne hid) (phase_congr ?_ Iff.rfl)
        unfold Registry.Leased
        rw [Table.find?_isSome, Table.find?_isSome]
        constructor
        · rintro ⟨old, hold, hkey⟩
          rcases (Table.mem_of_insert? hins).mp hold with hmem | rfl
          · exact ⟨old, hmem, hkey⟩
          · exact absurd hkey hid
        · rintro ⟨old, hold, hkey⟩
          exact ⟨old, (Table.mem_of_insert? hins).mpr (.inl hold), hkey⟩

/-- The call does not delete a room in which the connection holds a lease. -/
def RegistryCall.KeepsRoomOf (connectionId : String) (s : Registry) : RegistryCall → Prop
  | .deleteRoom roomId _ =>
      ∀ lease ∈ s.leases, lease.connectionId = connectionId → lease.roomId ≠ roomId
  | _ => True

instance (connectionId : String) (s : Registry) :
    DecidablePred (RegistryCall.KeepsRoomOf connectionId s)
  | .deleteRoom roomId _ =>
      inferInstanceAs (Decidable
        (∀ lease ∈ s.leases, lease.connectionId = connectionId → lease.roomId ≠ roomId))
  | .onInstance _ | .createRoom .. | .setRoomState .. | .setMemberModeration .. |
    .tryAcquire .. | .renew .. | .release .. | .reapExpired _ | .startTyping .. |
    .stopTyping .. | .reapTyping _ | .announce .. => isTrue trivial

/-- A lease may be written again without its connection coming or going. -/
theorem leased_upsert {lease : ConnectionLease} (h : s.Leased lease.connectionId) :
    Registry.Leased { s with leases := s.leases.upsert lease } connectionId ↔
      s.Leased connectionId := by
  unfold Registry.Leased at h ⊢
  rw [Table.find?_upsert]
  split
  · rename_i hid
    subst hid
    exact ⟨fun _ => h, fun _ => rfl⟩
  · rfl

theorem typing_upsert {state : TypingState} :
    Registry.Typing { s with typing := s.typing.upsert state } connectionId ↔
      state.connectionId = connectionId ∨ s.Typing connectionId := by
  unfold Registry.Typing
  rw [Table.find?_upsert]
  split
  · rename_i hid
    exact ⟨fun _ => .inl hid, fun _ => rfl⟩
  · rename_i hid
    exact (or_iff_right hid).symm

theorem Follows.started {state : TypingState} (h : Follows s connectionId)
    (hleased : s.Leased state.connectionId)
    (hlogs : Registry.Logs { s with typing := s.typing.upsert state } s'
      [(state.connectionId, .started)]) : Follows s' connectionId := by
  by_cases hid : state.connectionId = connectionId
  · subst hid
    have hafter : Registry.phase { s with typing := s.typing.upsert state } state.connectionId =
        .typing := by
      unfold Registry.phase
      rw [if_pos (typing_upsert.mpr (.inl rfl))]
    refine h.logs hlogs rfl ?_
    rw [hafter, ownOf_single]
    unfold Registry.phase
    rw [if_pos hleased]
    split <;> rfl
  · exact h.others hlogs rfl (ownOf_single_of_ne hid)
      (phase_congr Iff.rfl (typing_upsert.trans (or_iff_right hid)))

theorem Follows.stopped {connectionIds : List String} (h : Follows s connectionId)
    (hok : RegistryOk s) (hnodup : connectionIds.Nodup)
    (htyping : ∀ connectionId ∈ connectionIds, s.Typing connectionId)
    (hlogs : (s.hush connectionIds).Logs s'
      (connectionIds.map fun connectionId => (connectionId, .stopped))) :
    Follows s' connectionId := by
  have hflat : (connectionIds.map fun connectionId => (connectionId, Transition.stopped)) =
      connectionIds.flatMap fun connectionId => [(connectionId, Transition.stopped)] :=
    List.map_eq_flatMap
  have hkey : ∀ id : String, ∀ entry ∈ [(id, Transition.stopped)], entry.1 = id := by
    intro id entry hentry
    rw [List.mem_singleton.mp hentry]
  by_cases hid : connectionId ∈ connectionIds
  · have hown : ownOf connectionId
        (connectionIds.map fun connectionId => (connectionId, Transition.stopped)) =
          [.stopped] := by
      rw [hflat]
      refine (ownOf_flatMap hkey ?_ hid).trans (ownOf_single .stopped)
      rw [List.map_id']
      exact hnodup
    have hleased : s.Leased connectionId := by
      obtain ⟨state, hstate, rfl⟩ := Table.find?_isSome.mp (htyping connectionId hid)
      obtain ⟨lease, hlease, hsame⟩ := hok.typing state hstate
      exact Table.find?_isSome.mpr ⟨lease, hlease, hsame⟩
    have hbefore : s.phase connectionId = .typing := by
      unfold Registry.phase
      rw [if_pos (htyping connectionId hid)]
    have hafter : (s.hush connectionIds).phase connectionId = .present := by
      have hstill : (s.hush connectionIds).Leased connectionId := hleased
      unfold Registry.phase
      rw [if_neg fun htyping => (typing_hush.mp htyping).2 hid, if_pos hstill]
    refine h.logs hlogs rfl ?_
    rw [hown, hbefore, hafter]
    rfl
  · refine h.others hlogs rfl ?_
      (phase_congr Iff.rfl (typing_hush.trans (and_iff_left hid)))
    rw [hflat]
    refine ownOf_flatMap_of_not_mem hkey ?_
    rw [List.map_id']
    exact hid

theorem Follows.effect {call : RegistryCall} {reply : RegistryReply} (h : Follows s connectionId)
    (hok : RegistryOk s) (hkeeps : call.KeepsRoomOf connectionId s)
    (heffect : Effect cfg rd s s' call reply) : Follows s' connectionId := by
  cases heffect with
  | tables _ hlogs => exact h.others hlogs rfl rfl rfl
  | deleted _ hlogs =>
      refine h.others hlogs rfl rfl ((phase_drop_of_not_mem ?_).trans rfl)
      intro hmem
      obtain ⟨lease, hlease, hid⟩ := List.mem_map.mp hmem
      obtain ⟨hstored, hroom⟩ := List.mem_filter.mp hlease
      exact hkeeps lease hstored hid (of_decide_eq_true hroom)
  | acquired hacquired =>
      obtain ⟨-, owner, t, -, -, hswept, ⟨-, rfl, -⟩ | ⟨-, -, hreserved⟩⟩ := hacquired
      · exact h.swept hswept
      · exact (h.swept hswept).reserved (hok.swept hswept) hreserved
  | @renewed _ _ _ _ lease expiresAt hlease _ heq =>
      subst heq
      have hleased : s.Leased (lease.until expiresAt).connectionId :=
        @leased_of_mem _ lease hlease
      exact h.others (.refl _) rfl rfl (phase_congr (leased_upsert hleased) Iff.rfl)
  | @released _ _ _ lease hlease hid hlogs =>
      subst hid
      by_cases hother : connectionId = lease.connectionId
      · subst hother
        have hown := ownOf_departure (lease, decide (s.Typing lease.connectionId))
        simp only [decide_eq_true_eq] at hown
        refine h.logs hlogs rfl ?_
        rw [hown, phase_run_departure (leased_of_mem hlease)]
        exact congrArg some (phase_drop_of_mem (List.mem_singleton.mpr rfl)).symm
      · refine h.others hlogs rfl (ownOf_eq_nil ?_) (phase_drop_of_not_mem ?_)
        · intro entry hentry heq
          exact hother (heq.symm.trans (mem_departure hentry))
        · intro hmem
          exact hother (List.mem_singleton.mp hmem)
  | swept hswept => exact h.swept hswept
  | refreshed _ _ htyping heq =>
      subst heq
      refine h.others (.refl _) rfl rfl
        (phase_congr Iff.rfl (typing_upsert.trans (or_iff_right_of_imp ?_)))
      rintro rfl
      exact htyping
  | started hlease hid hlogs => exact h.started (hid ▸ leased_of_mem hlease) hlogs
  | stopped hnodup htyping hlogs => exact h.stopped hok hnodup htyping hlogs

/-- The rows and the log of a connection, as every step keeps them. -/
def InStep (connectionId : String) (d : Deployment) : Prop :=
  RegistryOk d.registry ∧ Follows d.registry connectionId

/-- The action does not delete a room in which the connection holds a lease. -/
def KeepsRoomOf (connectionId : String) (d : Deployment) : DeploymentAction → Prop
  | .tick _ => True
  | .call _ _ call => call.KeepsRoomOf connectionId d.registry

instance (connectionId : String) (d : Deployment) : DecidablePred (KeepsRoomOf connectionId d)
  | .tick _ => isTrue trivial
  | .call _ _ call => inferInstanceAs (Decidable (call.KeepsRoomOf connectionId d.registry))

/-- The step lemma. -/
theorem InStep.step {d d' : Deployment} {action : DeploymentAction} (h : InStep connectionId d)
    (hkeeps : KeepsRoomOf connectionId d action) (hstep : DeploymentStep cfg d action d') :
    InStep connectionId d' := by
  refine ⟨h.1.step hstep, ?_⟩
  unfold DeploymentStep at hstep
  cases action with
  | tick now =>
      simp only [Deployment.next] at hstep
      split at hstep
      · cases hstep
        exact h.2
      · cases hstep
  | call rd now call =>
      simp only [Deployment.next] at hstep
      split at hstep
      · rename_i hguard
        cases hstep
        cases call.committed cfg rd d.registry with
        | failed heq =>
            rw [heq]
            exact h.2
        | @onInstance served heq =>
            -- a call about an instance touches neither the log nor a lease
            have hlog : (d.registry.served rd served).foundation.events =
                d.registry.foundation.events ∧ _ := served_log hguard.2.1
            rw [heq]
            unfold Follows Registry.transitions Registry.entries
            rw [hlog.1]
            exact h.2
        | body hne hrun => exact h.2.effect h.1 hkeeps (RegistryCall.effect hne hrun)
      · cases hstep

theorem InStep.start : InStep connectionId {} :=
  ⟨RegistryOk.start, rfl⟩

/-- In every run that deletes no room a connection is in, the log stands in the order
of its sequences, the joins and departures of the connection alternate, its last join
is open exactly while it has a lease row, its last typing start is open exactly while
it has a typing row, and it never departs before its typing has stopped. -/
theorem log_agrees_with_leases {connectionId : String} {d : Deployment}
    (hrun : Run (DeploymentStep cfg) (KeepsRoomOf connectionId) {} d) :
    d.registry.Sequenced ∧
      Paired (d.registry.transitions connectionId) (d.registry.Leased connectionId)
        (d.registry.Typing connectionId) := by
  have hok : InStep connectionId d :=
    hrun.invariant (fun _ _ _ h hkeeps hstep => h.step hkeeps hstep) .start
  obtain ⟨hrows, hfollows⟩ := hok
  refine ⟨hrows.sequenced, ?_⟩
  have htyping : d.registry.Typing connectionId → d.registry.Leased connectionId := by
    intro hfound
    obtain ⟨state, hstate, rfl⟩ := Table.find?_isSome.mp hfound
    obtain ⟨lease, hlease, hsame⟩ := hrows.typing state hstate
    exact Table.find?_isSome.mpr ⟨lease, hlease, hsame⟩
  refine (paired_of_run hfollows).congr ?_ ?_
  · unfold Registry.phase
    split
    · rename_i htypes
      exact ⟨fun _ => htyping htypes, fun _ => nofun⟩
    · split
      · rename_i hleased
        exact ⟨fun _ => hleased, fun _ => nofun⟩
      · rename_i hgone
        exact ⟨fun hne => absurd rfl hne, fun hleased => absurd hleased hgone⟩
  · unfold Registry.phase
    split
    · rename_i htypes
      exact ⟨fun _ => htypes, fun _ => rfl⟩
    · rename_i hquiet
      split
      · exact ⟨nofun, fun htypes => absurd htypes hquiet⟩
      · exact ⟨nofun, fun htypes => absurd htypes hquiet⟩

end Step

/-- The configuration of the worked examples. -/
def smallRegistry : RegistryConfig where
  store := smallConfig
  maxConnections := 4
  maxConnectionsPerRoom := 2
  connections_bounds := twoOfFour_bounds
  lease_bounds := halfMinute_bounds
  timeout_bounds := eightSeconds_bounds

/-- A connection comes, types and leaves, and comes again. -/
def comingAndGoing : List DeploymentAction :=
  [.at 1 10 (.createRoom
        { name := "General", id := some ⟨"general", matchesRoomId_general⟩ } "admin"),
   .at 2 20 (.onInstance (.claim "node-1" 30 none)),
   .at 3 30 (.tryAcquire "c-1" "node-1" "general" "ada" none),
   .at 4 40 (.startTyping "c-1" "node-1"),
   .at 5 50 (.release "c-1" "node-1"),
   .at 6 60 (.tryAcquire "c-1" "node-1" "general" "ada" none)]

theorem log_agrees_with_leases_comingAndGoing :
    (Deployment.run smallRegistry comingAndGoing {}).registry.transitions "c-1" =
        [.joined, .started, .stopped, .left, .joined] ∧
      Paired ((Deployment.run smallRegistry comingAndGoing {}).registry.transitions "c-1")
        ((Deployment.run smallRegistry comingAndGoing {}).registry.Leased "c-1")
        ((Deployment.run smallRegistry comingAndGoing {}).registry.Typing "c-1") := by
  refine ⟨by decide +kernel, (log_agrees_with_leases (Deployment.run_of_forall ?_ {})).2⟩
  intro action haction d
  simp only [comingAndGoing, List.mem_cons, List.not_mem_nil, or_false] at haction
  rcases haction with rfl | rfl | rfl | rfl | rfl | rfl <;> trivial

end Realtime
end ChatEngine
