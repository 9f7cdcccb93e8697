import Mathlib.Logic.Basic

/-!
# Runs of a transition system

A transition system is a labelled step relation.  This module packages the one
induction every safety result of the development needs:

* `Run step cond s t` is a finite run from `s` to `t` each of whose steps was
  taken in a state where `cond` held of the state and the label;
* `Reach step s t` is the same without a condition;
* `Run.invariant` carries a property along a run from its one-step
  preservation, and `Run.relates` carries a reflexive and transitive relation
  between the first and the last state;
* `Run.descends` leads to a goal that some step always comes closer to.
-/

namespace ChatEngine
namespace Lib

variable {σ ι : Type}

/-- A finite run whose every step is taken under `cond`. -/
inductive Run (step : σ → ι → σ → Prop) (cond : σ → ι → Prop) (s : σ) : σ → Prop
  | refl : Run step cond s s
  | tail {t u : σ} (i : ι) :
      Run step cond s t → cond t i → step t i u → Run step cond s u

/-- A finite run with no condition on its steps. -/
abbrev Reach (step : σ → ι → σ → Prop) : σ → σ → Prop :=
  Run step (fun _ _ => True)

namespace Run

variable {step : σ → ι → σ → Prop} {cond cond' : σ → ι → Prop} {s t u : σ}

/-- The invariant rule: what one step preserves holds along the whole run. -/
theorem invariant {Inv : σ → Prop}
    (hstep : ∀ t i u, Inv t → cond t i → step t i u → Inv u)
    (hrun : Run step cond s t) (hs : Inv s) : Inv t := by
  induction hrun with
  | refl => exact hs
  | tail i _ hcond hnext ih => exact hstep _ i _ ih hcond hnext

/-- A run may be used wherever its steps meet a weaker condition. -/
theorem weaken (hcond : ∀ t i, cond t i → cond' t i)
    (hrun : Run step cond s t) : Run step cond' s t := by
  induction hrun with
  | refl => exact Run.refl
  | tail i _ hc hnext ih => exact Run.tail i ih (hcond _ _ hc) hnext

theorem reach (hrun : Run step cond s t) : Reach step s t :=
  hrun.weaken fun _ _ _ => trivial

theorem trans (hfirst : Run step cond s t) (hsecond : Run step cond t u) :
    Run step cond s u := by
  induction hsecond with
  | refl => exact hfirst
  | tail i _ hcond hnext ih => exact Run.tail i ih hcond hnext

/-- The rule of descent: what every state short of the goal can do to come closer to it leads
there. -/
theorem descends {Inv goal : σ → Prop} (ahead : σ → Nat)
    (hstep : ∀ t, Inv t → ¬ goal t →
      ∃ i u, cond t i ∧ step t i u ∧ Inv u ∧ ahead u < ahead t)
    (hs : Inv s) : ∃ t, Run step cond s t ∧ Inv t ∧ goal t := by
  have hevery : ∀ n, ∀ t, ahead t = n → Inv t → ∃ u, Run step cond t u ∧ Inv u ∧ goal u := by
    intro n
    induction n using Nat.strongRecOn with
    | ind n ih =>
        intro t hn ht
        by_cases hgoal : goal t
        · exact ⟨t, refl, ht, hgoal⟩
        · obtain ⟨i, u, hcond, hnext, hu, hless⟩ := hstep t ht hgoal
          obtain ⟨v, hrun, hv⟩ := ih (ahead u) (hn ▸ hless) u rfl hu
          exact ⟨v, (tail i refl hcond hnext).trans hrun, hv⟩
  exact hevery (ahead s) s rfl hs

/-- A relation that every step satisfies, and that composes, relates the two
ends of a run. -/
theorem relates {R : σ → σ → Prop} (hrefl : ∀ s, R s s)
    (htrans : ∀ s t u, R s t → R t u → R s u)
    (hstep : ∀ t i u, cond t i → step t i u → R t u)
    (hrun : Run step cond s t) : R s t := by
  induction hrun with
  | refl => exact hrefl s
  | tail i _ hcond hnext ih => exact htrans _ _ _ ih (hstep _ i _ hcond hnext)

/-- The events are steps of the system, taken one after the other by `next`,
each under `cond`. -/
def Follows (step : σ → ι → σ → Prop) (cond : σ → ι → Prop) (next : σ → ι → σ) :
    σ → List ι → Prop
  | _, [] => True
  | s, i :: rest => cond s i ∧ step s i (next s i) ∧ Follows step cond next (next s i) rest

instance Follows.decidable {next : σ → ι → σ} [∀ s i, Decidable (cond s i)]
    [∀ s i, Decidable (step s i (next s i))] :
    ∀ (s : σ) (events : List ι), Decidable (Follows step cond next s events)
  | _, [] => isTrue trivial
  | s, i :: rest =>
      have : Decidable (Follows step cond next (next s i) rest) := decidable (next s i) rest
      decidable_of_iff ((cond s i ∧ step s i (next s i)) ∧ Follows step cond next (next s i) rest)
        and_assoc

/-- A sequence of events is a run to the state it computes. -/
theorem of_follows {next : σ → ι → σ} {events : List ι} {s : σ}
    (h : Follows step cond next s events) : Run step cond s (events.foldl next s) := by
  induction events generalizing s with
  | nil => exact Run.refl
  | cons i rest ih =>
      obtain ⟨hcond, hstep, hrest⟩ := h
      exact (Run.tail i Run.refl hcond hstep).trans (ih hrest)

end Run

/-- States that a run reaches from some initial state. -/
def Reachable (init : σ → Prop) (step : σ → ι → σ → Prop) (t : σ) : Prop :=
  ∃ s, init s ∧ Reach step s t

namespace Reachable

variable {init : σ → Prop} {step : σ → ι → σ → Prop} {t u : σ}

theorem start (h : init t) : Reachable init step t :=
  ⟨t, h, Run.refl⟩

theorem next (h : Reachable init step t) (i : ι) (hstep : step t i u) :
    Reachable init step u := by
  obtain ⟨s, hs, hrun⟩ := h
  exact ⟨s, hs, Run.tail i hrun trivial hstep⟩

/-- The invariant rule for reachable states. -/
theorem invariant {Inv : σ → Prop} (hinit : ∀ s, init s → Inv s)
    (hstep : ∀ t i u, Inv t → step t i u → Inv u)
    (h : Reachable init step t) : Inv t := by
  obtain ⟨s, hs, hrun⟩ := h
  exact hrun.invariant (fun t i u ht _ hnext => hstep t i u ht hnext) (hinit s hs)

/-- A list of labels that a partial step function can follow. -/
theorem foldlM {next : σ → ι → Option σ} {labels : List ι}
    (h : Reachable init (fun s i s' => next s i = some s') t)
    (hrun : labels.foldlM next t = some u) :
    Reachable init (fun s i s' => next s i = some s') u := by
  induction labels generalizing t with
  | nil =>
      obtain rfl := Option.some.inj hrun
      exact h
  | cons i rest ih =>
      rw [List.foldlM_cons] at hrun
      obtain ⟨between, hnext, hrest⟩ := Option.bind_eq_some_iff.mp hrun
      exact ih (h.next i hnext) hrest

end Reachable

end Lib
end ChatEngine
