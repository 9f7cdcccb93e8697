import ChatEngine.Lib.Run
import ChatEngine.Realtime.Calls

/-!
# Recovery under lost replies

Runs of the foundation's calls by any number of processes, in which one request
to resynchronize may be made again and again.

* `History`, the foundation with what a run has used up: the UUIDs minted, the
  recovery requests made, the generations replaced, the acknowledgements;
* `Call.Admissible`: a UUID is minted once, and a recovery UUID is retained by
  the one generation that minted it;
* `Ordered`, the invariant: a generation that was replaced never comes back;
* `recovery_moves_once`: only the first committed request moves the cursor.
-/

namespace ChatEngine
namespace Realtime

open Lib
open Models

variable {β : Type}

/-! ## Runs of calls -/

/-- The foundation, and as history what happened to it. -/
structure History (β : Type) where
  db : Foundation β := {}
  used : List Generation := []
  issued : List (String × Generation × Generation) := []
  replaced : List (String × Generation) := []
  acknowledged : List (String × Generation × Nat) := []

/-- The stored generation of an instance. -/
def Foundation.generation? (f : Foundation β) (instanceId : String) : Option Generation :=
  (f.cursor? instanceId).map InstanceCursor.generation

/-- The recovery request a call is, if it is one. -/
def Call.request? : Call β → Option (String × Generation × Generation)
  | resynchronize instanceId generation recoveryGeneration _ =>
      some (instanceId, generation, recoveryGeneration)
  | _ => none

/-- `gen_random_uuid` and `uuid4` never repeat a value, and a caller keeps one
recovery UUID for one recovery of its generation. -/
def Call.Admissible (h : History β) (rd : CallReadings) (call : Call β) : Prop :=
  rd.fresh ∉ h.used ∧
    ∀ request ∈ call.request?,
      request.2.2 ≠ rd.fresh ∧ (request.2.2 ∉ h.used ∨ request ∈ h.issued)

instance (h : History β) (rd : CallReadings) : DecidablePred (Call.Admissible h rd) := by
  intro call
  unfold Call.Admissible
  infer_instance

/-- The generation a step from `f` to `f'` replaced. -/
def replacedBy (instanceId : Option String) (f f' : Foundation β) :
    List (String × Generation) :=
  instanceId.toList.flatMap fun i =>
    ((f.generation? i).toList.filter fun g => decide (∃ g' ∈ f'.generation? i, g ≠ g')).map
      fun g => (i, g)

/-- The acknowledgement a call is, under the generation it was made for. -/
def Call.acknowledgedIn (f : Foundation β) : Call β → List (String × Generation × Nat)
  | acknowledge instanceId throughSequence _ =>
      ((f.generation? instanceId).map fun g => (instanceId, g, throughSequence)).toList
  | _ => []

/-- The history after a call. -/
def History.after (h : History β) (call : Call β) (rd : CallReadings) : History β where
  db := (call.exec rd h.db).2
  used := rd.fresh :: call.request?.toList.map (fun request => request.2.2) ++ h.used
  issued := call.request?.toList ++ h.issued
  replaced := replacedBy call.instance? h.db (call.exec rd h.db).2 ++ h.replaced
  acknowledged := call.acknowledgedIn h.db ++ h.acknowledged

/-- One call of some process. -/
def HistoryStep (h : History β) (step : Call β × CallReadings) (h' : History β) : Prop :=
  step.1.Admissible h step.2 ∧ h' = h.after step.1 step.2

/-- The histories that calls reach from the empty database. -/
def HistoryReachable : History β → Prop :=
  Reachable (fun h => h = {}) HistoryStep

/-! ## Generations -/

/-- What a call may make of the stored generations. -/
theorem Call.generations {rd : CallReadings} {call : Call β} {f f' : Foundation β}
    (hmove : CursorsMove f rd call f') (i : String) :
    f'.generation? i = f.generation? i ∨
      (call.instance? = some i ∧
        (f'.generation? i = some rd.fresh ∨
          ∃ g r, call.request? = some (i, g, r) ∧ f.generation? i = some g ∧ g ≠ r ∧
            f'.generation? i = some r)) := by
  unfold Foundation.generation?
  cases hmove with
  | same hcursors =>
      left
      unfold Foundation.cursor?
      rw [hcursors]
  | @put row hcall heffect =>
      by_cases hi : row.instanceId = i
      · subst hi
        rw [Foundation.cursor?_putCursor]
        cases heffect with
        | created _ => exact .inr ⟨hcall, .inl rfl⟩
        | renewed hold =>
            left
            rw [hold]
            rfl
        | taken _ _ => exact .inr ⟨hcall, .inl rfl⟩
        | recovered _ => exact .inr ⟨hcall, .inl rfl⟩
        | @resynchronized r old leaseSeconds hold hne =>
            refine .inr ⟨hcall, .inr ⟨old.generation, r, rfl, ?_, hne, rfl⟩⟩
            exact congrArg (Option.map InstanceCursor.generation) hold
        | advanced hold _ _ _ =>
            left
            rw [hold]
            rfl
      · left
        rw [Foundation.cursor?_putCursor_other hi]

/-- A generation that was replaced never comes back, and a recovery UUID is
stored only by replacing the generation it was minted for. -/
structure Ordered (h : History β) : Prop where
  stored : ∀ i g, h.db.generation? i = some g → g ∈ h.used
  issued : ∀ request ∈ h.issued, request.2.2 ∈ h.used
  retained : ∀ a ∈ h.issued, ∀ b ∈ h.issued, a.2.2 = b.2.2 → a = b
  replaced : ∀ p ∈ h.replaced, p.2 ∈ h.used
  current : ∀ i g, h.db.generation? i = some g → (i, g) ∉ h.replaced
  order : ∀ i g r, (i, g, r) ∈ h.issued →
    h.db.generation? i = some r ∨ (i, r) ∈ h.replaced → (i, g) ∈ h.replaced

section Order

variable {h : History β} {rd : CallReadings} {call : Call β}

/-- `Call.generations` for a call that commits or fails. -/
theorem Call.exec_generations (rd : CallReadings) (call : Call β) (f : Foundation β) (i : String) :
    (call.exec rd f).2.generation? i = f.generation? i ∨
      (call.instance? = some i ∧
        ((call.exec rd f).2.generation? i = some rd.fresh ∨
          ∃ g r, call.request? = some (i, g, r) ∧ f.generation? i = some g ∧ g ≠ r ∧
            (call.exec rd f).2.generation? i = some r)) := by
  rcases call.exec_cases rd f with ⟨e, hexec⟩ | ⟨reply, f', hrun, hexec⟩
  · rw [hexec]
    exact .inl rfl
  · rw [hexec]
    exact Call.generations (Call.moves hrun) i

theorem mem_replacedBy {instanceId : Option String} {f f' : Foundation β} {i : String}
    {g : Generation} :
    (i, g) ∈ replacedBy instanceId f f' ↔
      instanceId = some i ∧ f.generation? i = some g ∧
        ∃ g', f'.generation? i = some g' ∧ g ≠ g' := by
  unfold replacedBy
  simp only [List.mem_flatMap, Option.mem_toList, List.mem_map, List.mem_filter,
    decide_eq_true_eq, Option.mem_def, Prod.mk.injEq]
  constructor
  · rintro ⟨j, hj, g₀, ⟨hstored, hchanged⟩, rfl, rfl⟩
    exact ⟨hj, hstored, hchanged⟩
  · rintro ⟨hj, hstored, hchanged⟩
    exact ⟨i, hj, g, ⟨hstored, hchanged⟩, rfl, rfl⟩

/-- The generation a request names, when the request changed what is stored. -/
theorem Ordered.new_recovery (hord : Ordered h) (hadm : call.Admissible h rd) {i : String}
    {g r : Generation} (hrequest : call.request? = some (i, g, r))
    (hstored : h.db.generation? i = some g) : (i, r) ∉ h.replaced ∧ h.db.generation? i ≠ some r ∨
      g = r := by
  by_cases hgr : g = r
  · exact .inr hgr
  left
  obtain ⟨-, hminted⟩ := hadm
  obtain ⟨-, hunused | hissued⟩ := hminted (i, g, r) hrequest
  · exact ⟨fun hrep => hunused (hord.replaced (i, r) hrep),
      fun hr => hunused (hord.stored i r hr)⟩
  · have hcurrent := hord.current i g hstored
    exact ⟨fun hrep => hcurrent (hord.order i g r hissued (.inr hrep)),
      fun hr => hcurrent (hord.order i g r hissued (.inl hr))⟩

/-- The step lemma: every call keeps the order of generations. -/
theorem Ordered.after (hord : Ordered h) (hadm : call.Admissible h rd) :
    Ordered (h.after call rd) := by
  have hgen := call.exec_generations rd h.db
  obtain ⟨hfresh, hminted⟩ := hadm
  have hused : ∀ g, g ∈ h.used → g ∈ (h.after call rd).used := fun g hg =>
    List.mem_append_right _ hg
  have hfreshUsed : rd.fresh ∈ (h.after call rd).used := by
    unfold History.after
    simp
  have hrequestUsed : ∀ request ∈ call.request?, request.2.2 ∈ (h.after call rd).used := by
    intro request hrequest
    refine List.mem_append_left _ (List.mem_cons_of_mem _ ?_)
    exact List.mem_map.mpr ⟨request, Option.mem_toList.mpr hrequest, rfl⟩
  have hissued : ∀ request, request ∈ (h.after call rd).issued ↔
      request ∈ call.request? ∨ request ∈ h.issued := by
    intro request
    unfold History.after
    rw [List.mem_append, Option.mem_toList]
    exact Iff.rfl
  have hreplaced : ∀ i g, (i, g) ∈ (h.after call rd).replaced ↔
      (i, g) ∈ replacedBy call.instance? h.db (h.after call rd).db ∨ (i, g) ∈ h.replaced := by
    intro i g
    unfold History.after
    rw [List.mem_append]
  refine ⟨?_, ?_, ?_, ?_, ?_, ?_⟩
  · intro i g hg
    rcases hgen i with hsame | ⟨-, hnew | ⟨g₀, r, hrequest, -, -, hnew⟩⟩
    · exact hused g (hord.stored i g (hsame.symm.trans hg))
    · obtain rfl := Option.some.inj (hnew.symm.trans hg)
      exact hfreshUsed
    · obtain rfl := Option.some.inj (hnew.symm.trans hg)
      exact hrequestUsed _ hrequest
  · intro request hrequest
    rcases (hissued request).mp hrequest with hnew | hold
    · exact hrequestUsed request hnew
    · exact hused _ (hord.issued request hold)
  · have hmixed : ∀ a ∈ call.request?, ∀ b ∈ h.issued, a.2.2 = b.2.2 → a = b := by
      intro a ha b hb hab
      obtain ⟨-, hunused | hretained⟩ := hminted a ha
      · exact absurd (hab ▸ hord.issued b hb) hunused
      · exact hord.retained a hretained b hb hab
    intro a ha b hb hab
    rcases (hissued a).mp ha with hanew | haold
    · rcases (hissued b).mp hb with hbnew | hbold
      · exact Option.some.inj (hanew.symm.trans hbnew)
      · exact hmixed a hanew b hbold hab
    · rcases (hissued b).mp hb with hbnew | hbold
      · exact (hmixed b hbnew a haold hab.symm).symm
      · exact hord.retained a haold b hbold hab
  · rintro ⟨i, g⟩ hg
    rcases (hreplaced i g).mp hg with hnew | hold
    · exact hused g (hord.stored i g (mem_replacedBy.mp hnew).2.1)
    · exact hused g (hord.replaced (i, g) hold)
  · intro i g hg hmem
    rcases (hreplaced i g).mp hmem with hnew | hold
    · obtain ⟨-, -, g', hg', hne⟩ := mem_replacedBy.mp hnew
      exact hne (Option.some.inj (hg.symm.trans hg'))
    · rcases hgen i with hsame | ⟨-, hnew | ⟨g₀, r, hrequest, hstored, hne, hnew⟩⟩
      · exact hord.current i g (hsame.symm.trans hg) hold
      · obtain rfl := Option.some.inj (hnew.symm.trans hg)
        exact hfresh (hord.replaced _ hold)
      · obtain rfl := Option.some.inj (hnew.symm.trans hg)
        rcases hord.new_recovery ⟨hfresh, hminted⟩ hrequest hstored with ⟨hrep, -⟩ | heq
        · exact hrep hold
        · exact hne heq
  · intro i g r hmem hr
    have hchanged : ∀ g₀, h.db.generation? i = some g₀ → g₀ ≠ r → call.instance? = some i →
        (h.after call rd).db.generation? i = some r → g₀ = g →
        (i, g) ∈ (h.after call rd).replaced := by
      rintro g₀ hstored hne hcall hnew rfl
      exact (hreplaced i g₀).mpr (.inl (mem_replacedBy.mpr ⟨hcall, hstored, r, hnew, hne⟩))
    have hsource : (i, g, r) ∈ h.issued ∨
        (call.request? = some (i, g, r) ∧ r ∉ h.used ∧ r ≠ rd.fresh) := by
      rcases (hissued (i, g, r)).mp hmem with hrequest | hold
      · obtain ⟨hne, hunused | hretained⟩ := hminted _ hrequest
        · exact .inr ⟨hrequest, hunused, hne⟩
        · exact .inl hretained
      · exact .inl hold
    rcases hsource with hold | ⟨hrequest, hunused, hrfresh⟩
    · have hrUsed : r ∈ h.used := hord.issued (i, g, r) hold
      rcases hr with hr | hr
      · rcases hgen i with hsame | ⟨hcall, hnew | ⟨g₀, r', hrequest, hstored, hne, hnew⟩⟩
        · exact (hreplaced i g).mpr (.inr (hord.order i g r hold (.inl (hsame.symm.trans hr))))
        · have heq := Option.some.inj (hr.symm.trans hnew)
          exact absurd (heq ▸ hrUsed) hfresh
        · obtain rfl := Option.some.inj (hnew.symm.trans hr)
          obtain ⟨-, hunused | hretained⟩ := hminted _ hrequest
          · exact absurd hrUsed hunused
          · have heq := hord.retained _ hretained _ hold rfl
            exact hchanged g₀ hstored hne hcall hnew (congrArg (fun p => p.2.1) heq)
      · rcases (hreplaced i r).mp hr with hnew | hrep
        · have hstored := (mem_replacedBy.mp hnew).2.1
          exact (hreplaced i g).mpr (.inr (hord.order i g r hold (.inl hstored)))
        · exact (hreplaced i g).mpr (.inr (hord.order i g r hold (.inr hrep)))
    · rcases hr with hr | hr
      · rcases hgen i with hsame | ⟨hcall, hnew | ⟨g₀, r', hrequest', hstored, hne, hnew⟩⟩
        · exact absurd (hord.stored i r (hsame.symm.trans hr)) hunused
        · exact absurd (Option.some.inj (hr.symm.trans hnew)) hrfresh
        · obtain rfl := Option.some.inj (hnew.symm.trans hr)
          have heq := Option.some.inj (hrequest'.symm.trans hrequest)
          exact hchanged g₀ hstored hne hcall hnew (congrArg (fun p => p.2.1) heq)
      · rcases (hreplaced i r).mp hr with hnew | hold
        · exact absurd (hord.stored i r (mem_replacedBy.mp hnew).2.1) hunused
        · exact absurd (hord.replaced (i, r) hold) hunused

end Order

theorem Ordered.start : Ordered ({} : History β) := by
  refine ⟨?_, ?_, ?_, ?_, ?_, ?_⟩
  · intro i g hg
    cases hg
  · intro request hrequest
    cases hrequest
  · intro a ha
    cases ha
  · intro p hp
    cases hp
  · intro i g hg
    cases hg
  · intro i g r hmem
    cases hmem

theorem HistoryReachable.ordered {h : History β} (hreach : HistoryReachable h) : Ordered h := by
  have hinit : ∀ h : History β, h = {} → Ordered h := by
    rintro h rfl
    exact Ordered.start
  have hstep : ∀ (h : History β) (step : Call β × CallReadings) (h' : History β),
      Ordered h → HistoryStep h step h' → Ordered h' := by
    rintro h step h' hord ⟨hadm, rfl⟩
    exact hord.after hadm
  exact Reachable.invariant hinit hstep hreach

/-! ## The cursor of a recovered generation -/

/-- The recovery of `generation` by `recovery` has happened, and since then the
cursor of `recovery` is where it was then or at an acknowledgement of its own. -/
structure Recovered (i : String) (generation recovery : Generation) (cursor : Nat)
    (h : History β) : Prop where
  ordered : Ordered h
  issued : (i, generation, recovery) ∈ h.issued
  replaced : (i, generation) ∈ h.replaced
  cursor : ∀ row, h.db.cursor? i = some row → row.generation = recovery →
    row.lastSequence = cursor ∨ (i, recovery, row.lastSequence) ∈ h.acknowledged

/-- The history after a sequence of calls. -/
def History.run (steps : List (Call β × CallReadings)) (h : History β) : History β :=
  steps.foldl (fun h step => h.after step.1 step.2) h

/-- Every call of the sequence is admissible when it is made. -/
def AllAdmissible : History β → List (Call β × CallReadings) → Prop
  | _, [] => True
  | h, step :: rest => step.1.Admissible h step.2 ∧ AllAdmissible (h.after step.1 step.2) rest

instance AllAdmissible.decide : (h : History β) → (steps : List (Call β × CallReadings)) →
    Decidable (AllAdmissible h steps)
  | _, [] => .isTrue trivial
  | h, step :: rest =>
      haveI := AllAdmissible.decide (h.after step.1 step.2) rest
      inferInstanceAs (Decidable (_ ∧ _))

/-- Admissible calls are a run. -/
theorem AllAdmissible.reach {h : History β} {steps : List (Call β × CallReadings)}
    (hall : AllAdmissible h steps) : Reach HistoryStep h (h.run steps) := by
  induction steps generalizing h with
  | nil => exact Run.refl
  | cons step rest ih =>
      obtain ⟨hadm, hrest⟩ := hall
      exact (Run.tail step Run.refl trivial ⟨hadm, rfl⟩).trans (ih hrest)

section Recovered

variable {h : History β} {i : String} {generation recovery : Generation} {n : Nat}
  {rd : CallReadings} {call : Call β}

/-- The step lemma: no call moves the cursor of the recovered generation, other
than an acknowledgement. -/
theorem Recovered.after (hrec : Recovered i generation recovery n h)
    (hadm : call.Admissible h rd) : Recovered i generation recovery n (h.after call rd) := by
  have hacked : ∀ a, a ∈ h.acknowledged → a ∈ (h.after call rd).acknowledged :=
    fun a ha => List.mem_append_right _ ha
  refine ⟨hrec.ordered.after hadm, List.mem_append_right _ hrec.issued,
    List.mem_append_right _ hrec.replaced, ?_⟩
  intro row hrow hgen
  have hsame : ∀ old, h.db.cursor? i = some old → row.generation = old.generation →
      row.lastSequence = old.lastSequence →
      row.lastSequence = n ∨ (i, recovery, row.lastSequence) ∈ (h.after call rd).acknowledged := by
    intro old hold holdGen hlast
    rw [hlast]
    exact (hrec.cursor old hold (holdGen.symm.trans hgen)).imp id (hacked _)
  have hnotFresh : row.generation ≠ rd.fresh := by
    rw [hgen]
    intro hfresh
    have hused := hrec.ordered.issued _ hrec.issued
    rw [hfresh] at hused
    exact hadm.1 hused
  have hrow' : (call.exec rd h.db).2.cursor? i = some row := hrow
  rcases call.exec_cases rd h.db with ⟨e, hexec⟩ | ⟨reply, f', hrun, hexec⟩
  · rw [hexec] at hrow'
    exact hsame row hrow' rfl rfl
  · rw [hexec] at hrow'
    cases Call.moves hrun with
    | same hcursors =>
        have hcursor : h.db.cursor? i = some row := by
          rw [← hrow']
          unfold Foundation.cursor?
          rw [hcursors]
        exact hsame row hcursor rfl rfl
    | @put new hcall heffect =>
        by_cases hi : new.instanceId = i
        · subst hi
          rw [Foundation.cursor?_putCursor] at hrow'
          obtain rfl := Option.some.inj hrow'
          cases heffect with
          | created _ => exact absurd rfl hnotFresh
          | renewed hold => exact hsame _ hold rfl rfl
          | taken _ _ => exact absurd rfl hnotFresh
          | recovered _ => exact absurd rfl hnotFresh
          | @resynchronized r old leaseSeconds hold hne =>
              -- only the recovered generation itself may ask for this UUID
              obtain rfl : r = recovery := hgen
              have hasked : (old.instanceId, old.generation, r) ∈ h.issued := by
                obtain ⟨-, hminted⟩ := hadm
                obtain ⟨-, hunused | hissued⟩ := hminted (old.instanceId, old.generation, r) rfl
                · exact absurd (hrec.ordered.issued _ hrec.issued) hunused
                · exact hissued
              have heq := hrec.ordered.retained _ hasked _ hrec.issued rfl
              have hgenEq : old.generation = generation := congrArg (fun p => p.2.1) heq
              have hstored : h.db.generation? old.instanceId = some old.generation :=
                congrArg (Option.map InstanceCursor.generation) hold
              rw [hgenEq] at hstored
              exact absurd hrec.replaced (hrec.ordered.current _ _ hstored)
          | @advanced g old through hold _ _ _ =>
              right
              refine List.mem_append_left _ ?_
              have hstored : h.db.generation? old.instanceId = some old.generation :=
                congrArg (Option.map InstanceCursor.generation) hold
              obtain rfl : old.generation = recovery := hgen
              unfold Call.acknowledgedIn
              simp only [hstored, Option.map_some, Option.toList_some, List.mem_singleton]
        · rw [Foundation.cursor?_putCursor_other hi] at hrow'
          exact hsame row hrow' rfl rfl

end Recovered

/-! ## Retries -/

section Retries

variable {h h' : History β} {i : String} {generation recovery : Generation}
  {leaseSeconds leaseSeconds' : Nat} {rd rd' : CallReadings}
  {registration registration' : InstanceRegistration} {db db' : Foundation β}

theorem resynchronize_committed
    (hexec : (Call.resynchronize i generation recovery leaseSeconds).exec rd h.db =
      (.ok (.registration registration), db)) :
    generation ≠ recovery ∧ ∃ old, h.db.cursor? i = some old ∧
      ((old.generation = recovery ∧ registration = ⟨recovery, old.lastSequence⟩ ∧
          db = h.db.putCursor (old.leased (rd.clock 0) leaseSeconds)) ∨
        (old.generation = generation ∧ registration = ⟨recovery, h.db.head⟩ ∧
          db = h.db.putCursor (h.db.recovered old recovery (rd.clock 0) leaseSeconds))) := by
  have hrun := Tx.returns_atomically.mp hexec
  obtain ⟨committed, hcall, heq⟩ := Tx.returns_map.mp hrun
  cases heq
  obtain ⟨-, hne, old, hold, hcases⟩ := returns_resynchronizeClaimedInstance.mp hcall
  refine ⟨hne, old, hold, ?_⟩
  rcases hcases with ⟨hgen, hreg, hdb⟩ | ⟨hgen, hreg, hdb⟩
  · exact .inl ⟨hgen, hgen ▸ hreg, hdb⟩
  · exact .inr ⟨hgen, hreg, hdb⟩

/-- After a committed request the recovery has happened. -/
theorem Ordered.recovered (hord : Ordered h)
    (hadm : (Call.resynchronize (β := β) i generation recovery leaseSeconds).Admissible h rd)
    (hexec : (Call.resynchronize i generation recovery leaseSeconds).exec rd h.db =
      (.ok (.registration registration), db)) :
    Recovered i generation recovery registration.lastSequence
      (h.after (.resynchronize i generation recovery leaseSeconds) rd) := by
  have hord' := hord.after hadm
  have hissued : (i, generation, recovery) ∈
      (h.after (.resynchronize i generation recovery leaseSeconds) rd).issued :=
    List.mem_append_left _ (Option.mem_toList.mpr rfl)
  have hdb : (h.after (.resynchronize i generation recovery leaseSeconds) rd).db = db := by
    unfold History.after
    rw [hexec]
  obtain ⟨-, old, hold, hcases⟩ := resynchronize_committed hexec
  have hid := Foundation.instanceId_of_cursor? hold
  have hcursor : ∃ row, db.cursor? i = some row ∧ row.generation = recovery ∧
      row.lastSequence = registration.lastSequence := by
    rcases hcases with ⟨hgen, rfl, rfl⟩ | ⟨-, rfl, rfl⟩
    · refine ⟨old.leased (rd.clock 0) leaseSeconds, ?_, hgen, rfl⟩
      rw [← hid]
      exact Foundation.cursor?_putCursor h.db (old.leased (rd.clock 0) leaseSeconds)
    · refine ⟨h.db.recovered old recovery (rd.clock 0) leaseSeconds, ?_, rfl, rfl⟩
      rw [← hid]
      exact Foundation.cursor?_putCursor h.db
        (h.db.recovered old recovery (rd.clock 0) leaseSeconds)
  obtain ⟨row, hrow, hgen, hlast⟩ := hcursor
  have hstored : (h.after (.resynchronize i generation recovery leaseSeconds) rd).db.generation? i =
      some recovery := by
    rw [hdb, ← hgen]
    exact congrArg (Option.map InstanceCursor.generation) hrow
  refine ⟨hord', hissued, hord'.order i generation recovery hissued (.inl hstored), ?_⟩
  rintro row' hrow' -
  rw [hdb, hrow] at hrow'
  obtain rfl := Option.some.inj hrow'
  exact .inl hlast

/-- What a committed retry returns and leaves: the cursor where it was, at the
first call's head or at an acknowledgement since, and every unread event unread. -/
def RetryKeepsCursor (h : History β) (i : String) (recovery : Generation)
    (first registration : InstanceRegistration) (db : Foundation β) : Prop :=
  ∃ row row', h.db.cursor? i = some row ∧ db.cursor? i = some row' ∧
    row.generation = recovery ∧ row'.generation = recovery ∧
    row'.lastSequence = row.lastSequence ∧ registration = ⟨recovery, row.lastSequence⟩ ∧
    (row.lastSequence = first.lastSequence ∨
      (i, recovery, row.lastSequence) ∈ h.acknowledged) ∧
    db.unread row'.lastSequence = h.db.unread row.lastSequence

/-- A request of a generation that was replaced, other than by this recovery
itself, fails and changes nothing. -/
def ReplacedFails (h : History β) : Prop :=
  ∀ i generation recovery leaseSeconds rd, (i, generation) ∈ h.replaced →
    h.db.generation? i ≠ some recovery →
      ∃ e, (Call.resynchronize i generation recovery leaseSeconds).exec rd h.db =
        (.error e, h.db)

theorem Ordered.replacedFails (hord : Ordered h) : ReplacedFails h := by
  intro i generation recovery leaseSeconds rd hreplaced hother
  rcases (Call.resynchronize i generation recovery leaseSeconds).exec_cases rd h.db with
    ⟨e, hexec⟩ | ⟨reply, f', hrun, -⟩
  · exact ⟨e, hexec⟩
  · exfalso
    obtain ⟨_, hcall, -⟩ := Tx.returns_map.mp hrun
    obtain ⟨-, -, old, hold, hcases⟩ := returns_resynchronizeClaimedInstance.mp hcall
    have hstored : h.db.generation? i = some old.generation :=
      congrArg (Option.map InstanceCursor.generation) hold
    rcases hcases with ⟨hgen, -⟩ | ⟨hgen, -⟩
    · rw [hgen] at hstored
      exact hother hstored
    · rw [hgen] at hstored
      exact hord.current i generation hstored hreplaced

/-- A committed request moves the cursor to the head when it is the first; every
later committed request with its UUID leaves the cursor alone, whatever ran in
between, and a generation that was replaced can do nothing. -/
theorem recovery_moves_once
    (hreach : HistoryReachable h)
    (hadm : (Call.resynchronize (β := β) i generation recovery leaseSeconds).Admissible h rd)
    (hfirst : (Call.resynchronize i generation recovery leaseSeconds).exec rd h.db =
      (.ok (.registration registration), db))
    (hrun : Reach HistoryStep
      (h.after (.resynchronize i generation recovery leaseSeconds) rd) h')
    (hretry : (Call.resynchronize i generation recovery leaseSeconds').exec rd' h'.db =
      (.ok (.registration registration'), db')) :
    (h.db.generation? i = some generation → registration = ⟨recovery, h.db.head⟩) ∧
      RetryKeepsCursor h' i recovery registration registration' db' ∧ ReplacedFails h' := by
  have hord := hreach.ordered
  have hrec : Recovered i generation recovery registration.lastSequence h' := by
    refine Run.invariant ?_ hrun (hord.recovered hadm hfirst)
    rintro t step u ht - ⟨hadm', rfl⟩
    exact ht.after hadm'
  refine ⟨?_, ?_, hrec.ordered.replacedFails⟩
  · intro hstored
    obtain ⟨hne, old, hold, ⟨hgen, -⟩ | ⟨-, hreg, -⟩⟩ := resynchronize_committed hfirst
    · have hstored' : h.db.generation? i = some old.generation :=
        congrArg (Option.map InstanceCursor.generation) hold
      rw [hgen, hstored] at hstored'
      exact absurd (Option.some.inj hstored') hne
    · exact hreg
  · obtain ⟨-, row, hrow, ⟨hgen, hreg, rfl⟩ | ⟨hgen, -⟩⟩ := resynchronize_committed hretry
    · refine ⟨row, row.leased (rd'.clock 0) leaseSeconds', hrow, ?_, hgen, hgen, rfl, hreg,
        hrec.cursor row hrow hgen, rfl⟩
      rw [← Foundation.instanceId_of_cursor? hrow]
      exact Foundation.cursor?_putCursor h'.db (row.leased (rd'.clock 0) leaseSeconds')
    · have hstored : h'.db.generation? i = some row.generation :=
        congrArg (Option.map InstanceCursor.generation) hrow
      rw [hgen] at hstored
      exact absurd hrec.replaced (hrec.ordered.current i generation hstored)

end Retries

/-- Two calls of a run at one instant, with the UUID `gen_random_uuid` would give. -/
def atInstant (now : Timestamp) (fresh : Generation) : CallReadings where
  clock _ := now
  fresh := fresh

/-- A process claims its instance and falls behind by one event. -/
def beforeRecovery : History Unit :=
  History.run
    [(.claim "node-1" 30 none, atInstant 0 1), (.append 1 0 "general" (), atInstant 1 2)] {}

/-- Its request, retained across lost replies. -/
def recoveryRequest : Call Unit := .resynchronize "node-1" 1 10 30

/-- What happens before the retry: two events, the first of them acknowledged. -/
def betweenRetries : List (Call Unit × CallReadings) :=
  [(.append 2 2 "general" (), atInstant 3 4), (.acknowledge "node-1" 2 (some 10), atInstant 4 5),
    (.append 3 5 "general" (), atInstant 5 6)]

/-- The first call moves the cursor to 1; the retry returns 2, so event 3 is still unread. -/
theorem recovery_moves_once_retried :
    RetryKeepsCursor ((beforeRecovery.after recoveryRequest (atInstant 2 3)).run betweenRetries)
      "node-1" 10 ⟨10, 1⟩ ⟨10, 2⟩
      (recoveryRequest.exec (atInstant 6 7)
        ((beforeRecovery.after recoveryRequest (atInstant 2 3)).run betweenRetries).db).2 := by
  have hreach : HistoryReachable beforeRecovery :=
    ⟨{}, rfl, AllAdmissible.reach (by decide +kernel)⟩
  have hrun : Reach HistoryStep (beforeRecovery.after recoveryRequest (atInstant 2 3))
      ((beforeRecovery.after recoveryRequest (atInstant 2 3)).run betweenRetries) :=
    AllAdmissible.reach (by decide +kernel)
  have hadm : recoveryRequest.Admissible beforeRecovery (atInstant 2 3) := by decide +kernel
  have hfirst : (recoveryRequest.exec (atInstant 2 3) beforeRecovery.db).1 =
      .ok (.registration ⟨10, 1⟩) := by decide +kernel
  have hretry : (recoveryRequest.exec (atInstant 6 7)
      ((beforeRecovery.after recoveryRequest (atInstant 2 3)).run betweenRetries).db).1 =
      .ok (.registration ⟨10, 2⟩) := by decide +kernel
  exact (recovery_moves_once hreach hadm (Prod.ext hfirst rfl) hrun (Prod.ext hretry rfl)).2.1

end Realtime
end ChatEngine
