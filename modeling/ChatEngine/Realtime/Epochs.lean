import ChatEngine.Lib.Run
import ChatEngine.Realtime.Relay

/-!
# Fence epochs of the relay

Which sockets may be registered while the relay is ready.

* `TaskOk`, what holds of the relay at each of its awaits;
* `Window`, what a step makes of the admission window: it stays, closes with a
  fence required, or opens when no socket is left;
* `ProcessOk`, the invariant of a process, kept by every `ProcessStep`;
* `sockets_of_ready_epoch`, the property of every run.
-/

namespace ChatEngine
namespace Realtime

open Lib
open Models

variable {β : Type}

/-! ## The relay at its awaits -/

/-- What an await says about the relay. -/
def Await.Expects (r : Relay) : Await β → Prop
  | .created | .opening _ => r.cursor = none ∧ r.fenceRequired = false ∧ r.recoveryRequired = false
  | .initializing _ => r.cursor = none ∧ r.fenceRequired = false ∧ r.recoveryRequired = false
  | .fencing _ _ => r.cursor = none ∧ r.fenceRequired = true ∧ r.fenced = false
  | .recovering _ => r.cursor = none ∧ r.fenceRequired = false ∧ r.recoveryRequired = true
  | .beating _ | .reading | .dispatching .. | .acknowledging .. => r.cursor.isSome = true
  | .waiting => True
  | .ended | .releasing | .closed => r.stop = true ∨ r.cursor = none

/-- A fence or a recovery that is due leaves the relay without a cursor. -/
structure TaskOk (r : Relay) (a : Await β) : Prop where
  fenceRequired : r.fenceRequired = true → r.cursor = none
  recoveryRequired : r.recoveryRequired = true → r.cursor = none
  fenced : r.fenced = true → r.cursor = none
  expects : a.Expects r

/-- The fields that make up the admission window are untouched. -/
structure SameWindow (r r' : Relay) : Prop where
  cursor : r'.cursor.isSome = r.cursor.isSome
  generation : r'.generation = r.generation
  admissionEpoch : r'.admissionEpoch = r.admissionEpoch
  fenced : r'.fenced = r.fenced

/-- What a step of the relay task makes of the admission window: it stays, it
closes behind a fence, or it opens where no fence is due. -/
inductive Window (r r' : Relay) : Prop
  | kept : SameWindow r r' → (r'.fenceRequired = r.fenceRequired ∨ r.fenced = true) → Window r r'
  | closed : r'.cursor = none → r.admissionEpoch ≤ r'.admissionEpoch → r'.fenced = r.fenced →
      (r'.fenceRequired = true ∨ r.fenced = true) → Window r r'
  | opened : r.cursor = none → r.fenceRequired = false → r'.cursor.isSome = true →
      r'.admissionEpoch = r.admissionEpoch + 1 → r'.fenced = false → Window r r'

/-- The relay serves an admission window. -/
structure Relay.Serving (r : Relay) : Prop where
  cursor : r.cursor.isSome = true
  fenceRequired : r.fenceRequired = false
  recoveryRequired : r.recoveryRequired = false
  fenced : r.fenced = false

/-- What the relay task comes to from `r`. -/
structure Steps (r : Relay) (task : Relay × Await β) : Prop where
  ok : TaskOk task.1 task.2
  window : Window r task.1
  attached : ∀ handler, task.2 ≠ .fencing handler true

section Task

variable {cfg : RelayConfig} {r r' : Relay} {a : Await β} {time : Timestamp} {fresh : Generation}

theorem SameWindow.refl (r : Relay) : SameWindow r r := ⟨rfl, rfl, rfl, rfl⟩

theorem Relay.Serving.taskOk (h : r.Serving) (hexpects : a.Expects r) : TaskOk r a where
  fenceRequired hfence := by simp [h.fenceRequired] at hfence
  recoveryRequired hrecovery := by simp [h.recoveryRequired] at hrecovery
  fenced hfenced := by simp [h.fenced] at hfenced
  expects := hexpects

theorem TaskOk.serving (h : TaskOk r a) (hcursor : r.cursor.isSome = true) : r.Serving where
  cursor := hcursor
  fenceRequired := by
    by_contra hne
    simp [h.fenceRequired (by simpa using hne)] at hcursor
  recoveryRequired := by
    by_contra hne
    simp [h.recoveryRequired (by simpa using hne)] at hcursor
  fenced := by
    by_contra hne
    simp [h.fenced (by simpa using hne)] at hcursor

/-- The flags alone say whether a relay without an await is in order. -/
theorem TaskOk.change {b : Await β} (h : TaskOk r a) (hexpects : b.Expects r) : TaskOk r b :=
  ⟨h.fenceRequired, h.recoveryRequired, h.fenced, hexpects⟩

theorem beat_ok (h : r.Serving) :
    (r.beat time : Relay × Await β).1 = r ∧ TaskOk r (r.beat time : Relay × Await β).2 ∧
      ∀ handler, (r.beat time : Relay × Await β).2 ≠ .fencing handler true := by
  unfold Relay.beat
  split
  · exact ⟨rfl, h.taskOk h.cursor, nofun⟩
  · exact ⟨rfl, h.taskOk h.cursor, nofun⟩

/-- What running the `try` block up to its first await leaves. -/
structure Attempted (r : Relay) (task : Relay × Await β) : Prop where
  ok : TaskOk task.1 task.2
  same : SameWindow r task.1
  fenceRequired : task.1.fenceRequired = r.fenceRequired
  attached : ∀ handler, task.2 ≠ .fencing handler true

theorem begin_attempted (hfence : r.fenceRequired = false) (hrecovery : r.recoveryRequired = false)
    (hfenced : r.fenced = true → r.cursor = none) :
    Attempted r (r.begin time : Relay × Await β) := by
  unfold Relay.begin
  split
  · rename_i hcursor
    rw [Option.isNone_iff_eq_none] at hcursor
    exact ⟨⟨fun _ => hcursor, fun _ => hcursor, fun _ => hcursor, hcursor, hfence, hrecovery⟩,
      ⟨rfl, rfl, rfl, rfl⟩, rfl, nofun⟩
  · rename_i hcursor
    rw [Option.isNone_iff_eq_none, ← ne_eq, ← Option.isSome_iff_ne_none] at hcursor
    have hserving : r.Serving := by
      refine ⟨hcursor, hfence, hrecovery, ?_⟩
      by_contra hne
      simp [hfenced (by simpa using hne)] at hcursor
    obtain ⟨hsame, hok, hattached⟩ := beat_ok hserving
    refine ⟨?_, ?_, ?_, hattached⟩
    · rw [hsame]
      exact hok
    · rw [hsame]
      exact .refl r
    · rw [hsame]

theorem attempt_attempted (hfence : r.fenceRequired = false)
    (hrecovery : r.recoveryRequired = true → r.cursor = none)
    (hfenced : r.fenced = true → r.cursor = none) :
    Attempted r (r.attempt time fresh : Relay × Await β) := by
  unfold Relay.attempt
  split
  · rename_i hrequired
    have hcursor := hrecovery hrequired
    split
    · exact ⟨⟨fun _ => hcursor, fun _ => hcursor, hfenced, trivial⟩, .refl r, rfl, nofun⟩
    · exact ⟨⟨fun _ => hcursor, fun _ => hcursor, fun _ => hcursor, hcursor, hfence, hrequired⟩,
        ⟨rfl, rfl, rfl, rfl⟩, rfl, nofun⟩
  · rename_i hrequired
    exact begin_attempted hfence (by simpa using hrequired) hfenced

theorem Attempted.steps {task : Relay × Await β} (h : Attempted r task) : Steps r task :=
  ⟨h.ok, .kept h.same (.inl h.fenceRequired), h.attached⟩

theorem startFence_steps {handler : Bool} (hcursor : r.cursor = none) (hfenced : r.fenced = false) :
    Steps r (r.startFence handler : Relay × Await β) :=
  ⟨⟨fun _ => hcursor, fun _ => hcursor, fun _ => hcursor, hcursor, rfl, hfenced⟩,
    .closed hcursor (Nat.le_succ _) rfl (.inl rfl), nofun⟩

theorem top_steps (h : TaskOk r a) : Steps r (r.top time fresh : Relay × Await β) := by
  unfold Relay.top
  split
  · rename_i hstop
    exact ⟨h.change (.inl hstop), .kept (.refl r) (.inl rfl), nofun⟩
  split
  · rename_i hdue
    have hcursor : r.cursor = none := by
      rcases Bool.or_eq_true _ _ |>.mp hdue with hfence | hrecovery
      · exact h.fenceRequired hfence
      · exact h.recoveryRequired hrecovery
    split
    · rename_i hfenced
      have hattempt : Attempted { r with fenceRequired := false }
          (Relay.attempt time fresh { r with fenceRequired := false } : Relay × Await β) :=
        attempt_attempted rfl (fun _ => hcursor) fun _ => hcursor
      obtain ⟨hok, ⟨hsome, hgen, hepoch, hf⟩, -, hattached⟩ := hattempt
      exact ⟨hok, .kept ⟨hsome, hgen, hepoch, hf⟩ (.inr hfenced), hattached⟩
    · rename_i hfenced
      exact startFence_steps hcursor (by simpa using hfenced)
  · rename_i hdue
    simp only [Bool.or_eq_true, not_or, Bool.not_eq_true] at hdue
    exact (attempt_attempted hdue.1 h.recoveryRequired h.fenced).steps

/-- The relay goes through the loop head with its window open. -/
theorem processed_steps {count : Nat} (h : r.Serving) :
    Steps r (r.processed cfg time fresh count : Relay × Await β) := by
  unfold Relay.processed
  have hok : TaskOk r (.waiting : Await β) := h.taskOk trivial
  split
  · exact top_steps hok
  · exact ⟨hok, .kept (.refl r) (.inl rfl), nofun⟩

theorem failed_cursor {failure : Failure} (hne : failure ≠ .other) :
    (r.failed failure).cursor = none ∧ (r.failed failure).fenceRequired = true ∧
      (r.failed failure).fenced = r.fenced ∧
      (r.failed failure).admissionEpoch = r.admissionEpoch := by
  cases failure with
  | other => exact absurd rfl hne
  | lag | gap | lease | unavailable => exact ⟨rfl, rfl, rfl, rfl⟩

/-- A handled failure closes the window. -/
theorem handle_steps {failure : Failure} (h : TaskOk r a) :
    Steps r (r.handle failure : Relay × Await β) := by
  by_cases hother : failure = .other
  · subst hother
    exact ⟨h.change trivial, .kept (.refl r) (.inl rfl), nofun⟩
  · obtain ⟨hcursor, hrequired, hf, hepoch⟩ := failed_cursor (r := r) hother
    have hunfold : (r.handle failure : Relay × Await β) =
        if r.fenced then ({ r.failed failure with fenceRequired := false }, .waiting)
        else (r.failed failure).startFence true := by
      unfold Relay.handle
      cases failure with
      | other => exact absurd rfl hother
      | lag | gap | lease | unavailable => rfl
    rw [hunfold]
    split
    · rename_i hfenced
      exact ⟨⟨fun _ => hcursor, fun _ => hcursor, fun _ => hcursor, trivial⟩,
        .closed hcursor (Nat.le_of_eq hepoch.symm) hf (.inr hfenced), nofun⟩
    · rename_i hfenced
      have hsteps : Steps (r.failed failure)
          ((r.failed failure).startFence true : Relay × Await β) :=
        startFence_steps hcursor (hf.trans (by simpa using hfenced))
      refine ⟨hsteps.ok, .closed hcursor ?_ hf (.inl rfl), hsteps.attached⟩
      change r.admissionEpoch ≤ (r.failed failure).admissionEpoch + 1
      rw [hepoch]
      exact Nat.le_succ _

theorem registered_serving {started : Timestamp} {registration : InstanceRegistration}
    (hrecovery : r.recoveryRequired = false) :
    (r.registered cfg started time registration).Serving :=
  ⟨rfl, rfl, hrecovery, rfl⟩

theorem registered_window {started : Timestamp} {registration : InstanceRegistration}
    (hcursor : r.cursor = none) (hfence : r.fenceRequired = false) :
    Window r (r.registered cfg started time registration) :=
  .opened hcursor hfence rfl rfl rfl

/-- The step lemma of the relay task: a call returned or raised. -/
theorem resume_steps {outcome : Except Failure (Reply β)} {task : Relay × Await β}
    (h : TaskOk r a) (hresume : r.resume cfg time fresh outcome a = some task) :
    Steps r task := by
  cases a with
  | created | fencing _ _ | dispatching _ _ _ _ _ | waiting | ended | closed => cases hresume
  | opening started =>
      obtain ⟨hcursor, hfence, hrecovery⟩ := h.expects
      cases outcome with
      | error failure =>
          cases hresume
          exact ⟨h.change (.inr hcursor), .kept (.refl r) (.inl rfl), nofun⟩
      | ok reply =>
          cases reply with
          | registration registration =>
              cases hresume
              exact ⟨(registered_serving hrecovery).taskOk trivial,
                registered_window hcursor hfence, nofun⟩
          | none | sequence _ | pruned _ | released _ | events _ => cases hresume
  | initializing started =>
      obtain ⟨hcursor, hfence, hrecovery⟩ := h.expects
      cases outcome with
      | error failure =>
          cases hresume
          exact handle_steps h
      | ok reply =>
          cases reply with
          | registration registration =>
              cases hresume
              have hserving : (r.registered cfg started time registration).Serving :=
                registered_serving hrecovery
              obtain ⟨hsame, hok, hattached⟩ := beat_ok hserving
              refine ⟨?_, ?_, hattached⟩
              · rw [hsame]
                exact hok
              · rw [hsame]
                exact registered_window hcursor hfence
          | none | sequence _ | pruned _ | released _ | events _ => cases hresume
  | recovering started =>
      obtain ⟨hcursor, hfence, hrecovery⟩ := h.expects
      cases outcome with
      | error failure =>
          cases hresume
          exact handle_steps h
      | ok reply =>
          cases reply with
          | registration registration =>
              cases hresume
              have hattempt : Attempted (r.resynchronized cfg started time registration)
                  (Relay.begin time (r.resynchronized cfg started time registration) :
                    Relay × Await β) :=
                begin_attempted hfence rfl fun hfenced => by cases hfenced
              obtain ⟨hok, ⟨hsome, hgen, hepoch, hf⟩, -, hattached⟩ := hattempt
              exact ⟨hok, .opened hcursor hfence hsome hepoch hf, hattached⟩
          | none | sequence _ | pruned _ | released _ | events _ => cases hresume
  | beating started =>
      have hserving := h.serving h.expects
      cases outcome with
      | error failure =>
          cases hresume
          exact handle_steps h
      | ok reply =>
          cases reply with
          | none =>
              cases hresume
              have hrenewed : (r.renewed cfg started time).Serving :=
                ⟨hserving.cursor, hserving.fenceRequired, hserving.recoveryRequired,
                  hserving.fenced⟩
              exact ⟨hrenewed.taskOk hrenewed.cursor, .kept ⟨rfl, rfl, rfl, rfl⟩ (.inl rfl), nofun⟩
          | registration _ | sequence _ | pruned _ | released _ | events _ => cases hresume
  | reading =>
      have hserving := h.serving h.expects
      cases outcome with
      | error failure =>
          cases hresume
          exact handle_steps h
      | ok reply =>
          cases reply with
          | events events =>
              cases events with
              | nil =>
                  cases hresume
                  exact processed_steps hserving
              | cons event rest =>
                  cases hresume
                  exact ⟨hserving.taskOk hserving.cursor, .kept (.refl r) (.inl rfl), nofun⟩
          | none | registration _ | sequence _ | pruned _ | released _ => cases hresume
  | acknowledging throughSequence count failed =>
      have hserving := h.serving h.expects
      cases outcome with
      | error failure =>
          cases hresume
          exact handle_steps h
      | ok reply =>
          cases reply with
          | sequence n =>
              have hacked : ({ r with cursor := some n } : Relay).Serving :=
                ⟨rfl, hserving.fenceRequired, hserving.recoveryRequired, hserving.fenced⟩
              have hwindow : SameWindow r { r with cursor := some n } :=
                ⟨hserving.cursor.symm, rfl, rfl, rfl⟩
              cases failed with
              | true =>
                  cases hresume
                  exact ⟨hacked.taskOk trivial, .kept hwindow (.inl rfl), nofun⟩
              | false =>
                  cases hresume
                  have hsteps : Steps { r with cursor := some n }
                      (Relay.processed cfg time fresh count { r with cursor := some n } :
                        Relay × Await β) := processed_steps hacked
                  refine ⟨hsteps.ok, ?_, hsteps.attached⟩
                  cases hsteps.window with
                  | kept hsame hfence =>
                      exact .kept ⟨hsame.cursor.trans hwindow.cursor, hsame.generation,
                        hsame.admissionEpoch, hsame.fenced⟩ hfence
                  | closed hnone hepoch hf hfence => exact .closed hnone hepoch hf hfence
                  | opened hnone hfence hsome hepoch hf => cases hnone
          | none | registration _ | pruned _ | released _ | events _ => cases hresume
  | releasing =>
      cases hresume
      exact ⟨h.change h.expects, .kept (.refl r) (.inl rfl), nofun⟩

/-! ## What is still owed -/

/-- Running the loop writes neither the cursor nor the recovery flags. -/
structure KeepsDebt (r r' : Relay) : Prop where
  cursor : r'.cursor = r.cursor
  recoveryRequired : r'.recoveryRequired = r.recoveryRequired

theorem begin_keepsDebt : KeepsDebt r (r.begin time : Relay × Await β).1 := by
  unfold Relay.begin Relay.beat
  split
  · exact ⟨rfl, rfl⟩
  split
  · exact ⟨rfl, rfl⟩
  · exact ⟨rfl, rfl⟩

theorem attempt_keepsDebt : KeepsDebt r (r.attempt time fresh : Relay × Await β).1 := by
  unfold Relay.attempt
  split
  · split
    · exact ⟨rfl, rfl⟩
    · exact ⟨rfl, rfl⟩
  · exact begin_keepsDebt

theorem top_keepsDebt : KeepsDebt r (r.top time fresh : Relay × Await β).1 := by
  unfold Relay.top
  split
  · exact ⟨rfl, rfl⟩
  split
  · split
    · have h : KeepsDebt { r with fenceRequired := false }
          (Relay.attempt time fresh { r with fenceRequired := false } : Relay × Await β).1 :=
        attempt_keepsDebt
      exact ⟨h.cursor, h.recoveryRequired⟩
    · exact ⟨rfl, rfl⟩
  · exact attempt_keepsDebt

end Task

/-! ## The process -/

/-- Which sockets may be registered. -/
structure SocketsOk (p : Process β) : Prop where
  current : p.relay.cursor.isSome = true → ∀ s ∈ p.sockets,
    p.relay.generation.map (fun g => (g, p.relay.admissionEpoch)) = some s.token
  fencing : p.relay.cursor = none → p.relay.fenceRequired = true ∨ ∀ s, s ∉ p.sockets
  fenced : p.relay.fenced = true → ∀ s, s ∉ p.sockets
  epochs : ∀ s ∈ p.sockets, p.lastFence < s.token.2 ∧ s.token.2 ≤ p.relay.admissionEpoch
  lastFence : p.lastFence ≤ p.relay.admissionEpoch
  windowed : p.relay.cursor.isSome = true → p.lastFence < p.relay.admissionEpoch

/-- What a handled failure still asks for keeps the relay from being ready. -/
structure DebtOk (p : Process β) : Prop where
  fence : p.fenceOwed = true → p.relay.fenceRequired = true ∧ p.relay.fenced = false
  recovery : p.recoveryOwed.isSome = true → p.relay.cursor = none
  resynchronize : p.recoveryOwed = some .resynchronize → p.relay.recoveryRequired = true

/-- The invariant of a process. -/
structure ProcessOk (p : Process β) : Prop where
  task : TaskOk p.relay p.await
  sockets : SocketsOk p
  debt : DebtOk p
  detached : ∀ handler, p.await = .fencing handler true → ∀ s, s ∉ p.sockets

section Process

variable {cfg : RelayConfig} {time : Timestamp} {fresh : Generation} {p p' : Process β}

/-- A step of the relay task leaves only sockets of the open window. -/
theorem SocketsOk.window {r : Relay} (h : SocketsOk p) (hwindow : Window p.relay r)
    (hsockets : p'.sockets = p.sockets) (hlast : p'.lastFence = p.lastFence)
    (hrelay : p'.relay = r) : SocketsOk p' := by
  subst hrelay
  cases hwindow with
  | kept hsame hfence =>
      obtain ⟨hsome, hgen, hepoch, hf⟩ := hsame
      have hnone : p'.relay.cursor = none → p.relay.cursor = none := by
        intro hcursor
        rw [← Option.isNone_iff_eq_none, ← Option.not_isSome] at hcursor ⊢
        rwa [hsome] at hcursor
      refine ⟨?_, ?_, ?_, ?_, ?_, ?_⟩
      · rw [hsome, hgen, hepoch, hsockets]
        exact h.current
      · intro hcursor
        rw [hsockets]
        rcases h.fencing (hnone hcursor) with hrequired | hempty
        · rcases hfence with hsameFence | hfenced
          · exact .inl (hsameFence.trans hrequired)
          · exact .inr (h.fenced hfenced)
        · exact .inr hempty
      · rw [hf, hsockets]
        exact h.fenced
      · rw [hepoch, hsockets, hlast]
        exact h.epochs
      · rw [hepoch, hlast]
        exact h.lastFence
      · rw [hsome, hepoch, hlast]
        exact h.windowed
  | closed hnone hepoch hf hfence =>
      refine ⟨?_, ?_, ?_, ?_, ?_, ?_⟩
      · intro hcursor
        simp [hnone] at hcursor
      · intro _
        rw [hsockets]
        exact hfence.imp id h.fenced
      · rw [hf, hsockets]
        exact h.fenced
      · intro s hs
        rw [hsockets] at hs
        rw [hlast]
        exact ⟨(h.epochs s hs).1, (h.epochs s hs).2.trans hepoch⟩
      · rw [hlast]
        exact h.lastFence.trans hepoch
      · intro hcursor
        simp [hnone] at hcursor
  | opened hnone hfence hsome hepoch hf =>
      have hempty : ∀ s, s ∉ p'.sockets := by
        rw [hsockets]
        rcases h.fencing hnone with hrequired | hempty
        · simp [hfence] at hrequired
        · exact hempty
      refine ⟨fun _ s hs => absurd hs (hempty s), fun _ => .inr hempty, fun _ => hempty,
        fun s hs => absurd hs (hempty s), ?_, fun _ => ?_⟩
      · rw [hlast, hepoch]
        exact h.lastFence.trans (Nat.le_succ _)
      · rw [hlast, hepoch]
        exact Nat.lt_succ_of_le h.lastFence

/-- Fewer sockets are as good. -/
theorem SocketsOk.shrink (h : SocketsOk p) (hrelay : p'.relay = p.relay)
    (hlast : p'.lastFence = p.lastFence) (hsub : ∀ s ∈ p'.sockets, s ∈ p.sockets) :
    SocketsOk p' := by
  refine ⟨?_, ?_, ?_, ?_, ?_, ?_⟩
  · rw [hrelay]
    exact fun hcursor s hs => h.current hcursor s (hsub s hs)
  · rw [hrelay]
    exact fun hcursor => (h.fencing hcursor).imp id fun hempty s hs => hempty s (hsub s hs)
  · rw [hrelay]
    exact fun hfenced s hs => h.fenced hfenced s (hsub s hs)
  · rw [hrelay, hlast]
    exact fun s hs => h.epochs s (hsub s hs)
  · rw [hrelay, hlast]
    exact h.lastFence
  · rw [hrelay, hlast]
    exact h.windowed

theorem ready_serving {r : Relay} (h : r.ready time = true) :
    r.Serving ∧ r.generation.isSome = true ∧ r.stop = false ∧ time < r.leaseDeadline ∧
      r.recoveryGeneration = none := by
  unfold Relay.ready at h
  simp only [Bool.and_eq_true, Bool.not_eq_true', decide_eq_true_eq,
    Option.isNone_iff_eq_none] at h
  obtain ⟨⟨⟨⟨⟨⟨⟨⟨hcursor, hgen⟩, hfenced⟩, hfence⟩, hgap⟩, hlag⟩, hrecovery⟩, hstop⟩, htime⟩ := h
  refine ⟨⟨hcursor, hfence, ?_, hfenced⟩, hgen, hstop, htime, hrecovery⟩
  unfold Relay.recoveryRequired
  rw [hgap, hlag]
  rfl

theorem admissionToken_eq_some {r : Relay} {token : Generation × Nat} :
    r.admissionToken time = some token ↔
      r.ready time = true ∧ r.generation.map (fun g => (g, r.admissionEpoch)) = some token := by
  unfold Relay.admissionToken
  split
  · rename_i hready
    simp [hready]
  · rename_i hready
    simp [hready]

theorem admits_token {admission : Admission} (h : p.admits time admission = true) :
    p.relay.admissionToken time = some admission.token := by
  unfold Process.admits at h
  rw [Bool.and_eq_true, decide_eq_true_eq] at h
  exact h.1

/-- Registration checks the token, so the new socket belongs to the open window. -/
theorem SocketsOk.register {admission : Admission} (h : SocketsOk p) :
    SocketsOk (p.register cfg time admission) := by
  unfold Process.register
  split
  · rename_i hadmitted
    split
    · rename_i sockets hinsert
      obtain ⟨hready, htoken⟩ := admissionToken_eq_some.mp (admits_token hadmitted.1)
      obtain ⟨hserving, hgen, -⟩ := ready_serving hready
      have hepoch : admission.token.2 = p.relay.admissionEpoch := by
        obtain ⟨g, hg⟩ := Option.isSome_iff_exists.mp hgen
        rw [hg] at htoken
        exact (congrArg Prod.snd (Option.some.inj htoken)).symm
      have hmem : ∀ s, s ∈ sockets → s ∈ p.sockets ∨ s.token = admission.token := by
        intro s hs
        rcases (Table.mem_of_insert? hinsert).mp hs with hold | rfl
        · exact .inl hold
        · exact .inr rfl
      refine ⟨?_, ?_, ?_, ?_, h.lastFence, h.windowed⟩
      · intro hcursor s hs
        rcases hmem s hs with hold | hnew
        · exact h.current hcursor s hold
        · rw [hnew]
          exact htoken
      · intro hcursor
        have hnone : p.relay.cursor = none := hcursor
        have hsome := hserving.cursor
        rw [hnone] at hsome
        cases hsome
      · intro hfenced
        have htrue : p.relay.fenced = true := hfenced
        have hopen := hserving.fenced
        rw [htrue] at hopen
        cases hopen
      · intro s hs
        rcases hmem s hs with hold | hnew
        · exact h.epochs s hold
        · rw [hnew, hepoch]
          exact ⟨h.windowed hserving.cursor, Nat.le_refl _⟩
    · exact h.shrink rfl rfl fun s hs => hs
  · exact h.shrink rfl rfl fun s hs => hs

theorem register_frame (cfg : RelayConfig) (time : Timestamp) (p : Process β)
    (admission : Admission) :
    (p.register cfg time admission).relay = p.relay ∧
      (p.register cfg time admission).await = p.await ∧
      (p.register cfg time admission).fenceOwed = p.fenceOwed ∧
      (p.register cfg time admission).recoveryOwed = p.recoveryOwed ∧
      (p.register cfg time admission).lastFence = p.lastFence := by
  unfold Process.register
  split
  · split
    · exact ⟨rfl, rfl, rfl, rfl, rfl⟩
    · exact ⟨rfl, rfl, rfl, rfl, rfl⟩
  · exact ⟨rfl, rfl, rfl, rfl, rfl⟩

/-- Nothing is registered while the window is closed. -/
theorem register_closed {admission : Admission} (hcursor : p.relay.cursor = none) :
    (p.register cfg time admission).sockets = p.sockets := by
  unfold Process.register
  rw [if_neg]
  · rfl
  · rintro ⟨hadmits, -⟩
    obtain ⟨hready, -⟩ := admissionToken_eq_some.mp (admits_token hadmits)
    have hsome := (ready_serving hready).1.cursor
    rw [hcursor] at hsome
    cases hsome

/-- The debts of a process whose relay serves its window. -/
theorem DebtOk.none_owed (h : DebtOk p) (hserving : p.relay.Serving) :
    p.fenceOwed = false ∧ p.recoveryOwed = none := by
  constructor
  · by_contra hne
    have hrequired := (h.fence (by simpa using hne)).1
    rw [hserving.fenceRequired] at hrequired
    cases hrequired
  · by_contra hne
    have hcursor := h.recovery (by rwa [Option.isSome_iff_ne_none])
    have hsome := hserving.cursor
    rw [hcursor] at hsome
    cases hsome

theorem debtOk_of_none (hfence : p.fenceOwed = false) (hrecovery : p.recoveryOwed = none) :
    DebtOk p := by
  refine ⟨?_, ?_, ?_⟩
  · rw [hfence]
    exact fun h => by cases h
  · rw [hrecovery]
    exact fun h => by cases h
  · rw [hrecovery]
    exact fun h => by cases h

/-- A handled failure is written down with what it asks for. -/
theorem DebtOk.handled {failure : Failure} (h : DebtOk p)
    (hfence : p.relay.fenceRequired = false) :
    DebtOk (p.owing (p.relay.handle failure) failure) := by
  have hnot : p.fenceOwed = false := by
    by_contra hne
    have hrequired := (h.fence (by simpa using hne)).1
    rw [hfence] at hrequired
    cases hrequired
  refine ⟨?_, ?_, ?_⟩
  · change (p.fenceOwed || (failure.fences && !p.relay.fenced)) = true →
      (p.relay.handle failure : Relay × Await β).1.fenceRequired = true ∧
        (p.relay.handle failure : Relay × Await β).1.fenced = false
    rw [hnot]
    cases hfenced : p.relay.fenced with
    | true => simp
    | false =>
        cases failure with
        | other => simp [Failure.fences]
        | lag | gap | lease | unavailable =>
            intro _
            unfold Relay.handle
            simp only [hfenced]
            exact ⟨rfl, hfenced⟩
  · change (Recovery.after p.recoveryOwed failure).isSome = true →
      (p.relay.handle failure : Relay × Await β).1.cursor = none
    cases failure with
    | other => exact h.recovery
    | lag | gap | lease | unavailable =>
        intro _
        unfold Relay.handle
        cases p.relay.fenced <;> rfl
  · change Recovery.after p.recoveryOwed failure = some .resynchronize →
      (p.relay.handle failure : Relay × Await β).1.recoveryRequired = true
    unfold Relay.handle
    cases failure with
    | other => exact h.resynchronize
    | lag =>
        intro _
        cases p.relay.fenced <;> simp [Relay.failed, Relay.startFence, Relay.recoveryRequired]
    | gap =>
        intro _
        cases p.relay.fenced <;> simp [Relay.failed, Relay.startFence, Relay.recoveryRequired]
    | lease =>
        intro hclaim
        cases hclaim
    | unavailable =>
        intro hresync
        have hold : p.recoveryOwed = some .resynchronize := by
          cases hp : p.recoveryOwed with
          | none =>
              rw [hp] at hresync
              cases hresync
          | some owed =>
              rw [hp] at hresync
              exact hresync
        have hflags := h.resynchronize hold
        cases p.relay.fenced <;> exact hflags

/-- At an await whose failure is handled no fence is due. -/
theorem TaskOk.no_fence {r : Relay} {a : Await β} (h : TaskOk r a) (ha : a.handles = true) :
    r.fenceRequired = false := by
  cases a with
  | initializing _ => exact h.expects.2.1
  | recovering _ => exact h.expects.2.1
  | beating _ | reading | acknowledging _ _ _ => exact (h.serving h.expects).fenceRequired
  | created | opening _ | fencing _ _ | dispatching _ _ _ _ _ | waiting | ended | releasing
  | closed => cases ha

/-- A call that failed at an await whose failure is handled. -/
theorem resume_error {failure : Failure} {r : Relay} {a : Await β} (ha : a.handles = true) :
    r.resume cfg time fresh (.error failure) a = some (r.handle failure) := by
  cases a with
  | initializing _ | recovering _ | beating _ | reading | acknowledging _ _ _ => rfl
  | created | opening _ | fencing _ _ | dispatching _ _ _ _ _ | waiting | ended | releasing
  | closed => cases ha

/-- A failed call at any other await leaves the relay as it is. -/
theorem resume_error_kept {failure : Failure} {r : Relay} {a : Await β} {task : Relay × Await β}
    (ha : a.handles = false) (hresume : r.resume cfg time fresh (.error failure) a = some task) :
    task.1 = r := by
  cases a with
  | initializing _ | recovering _ | beating _ | reading | acknowledging _ _ _ => cases ha
  | opening _ | releasing =>
      cases hresume
      rfl
  | created | fencing _ _ | dispatching _ _ _ _ _ | waiting | ended | closed => cases hresume

/-- Debts follow the fields they are about. -/
theorem DebtOk.of_kept (h : DebtOk p) (hfence : p'.fenceOwed = p.fenceOwed)
    (hrecovery : p'.recoveryOwed = p.recoveryOwed)
    (hrequired : p.fenceOwed = true → p'.relay.fenceRequired = true)
    (hfenced : p'.relay.fenced = p.relay.fenced)
    (hkept : p'.relay.cursor = p.relay.cursor)
    (hflags : p'.relay.recoveryRequired = p.relay.recoveryRequired) : DebtOk p' := by
  refine ⟨?_, ?_, ?_⟩
  · rw [hfence, hfenced]
    exact fun howed => ⟨hrequired howed, (h.fence howed).2⟩
  · rw [hrecovery, hkept]
    exact h.recovery
  · rw [hrecovery, hflags]
    exact h.resynchronize

/-- A call returned: whatever it satisfies was all that was owed. -/
theorem DebtOk.returned {reply : Reply β} {task : Relay × Await β} (h : DebtOk p)
    (htask : TaskOk p.relay p.await)
    (hresume : p.relay.resume cfg time fresh (.ok reply) p.await = some task) :
    DebtOk { p.moved task with recoveryOwed := Recovery.satisfied p.recoveryOwed p.await } := by
  have hunowed : p.relay.fenceRequired = false → p.fenceOwed = false := by
    intro hfence
    by_contra hne
    have hrequired := (h.fence (by simpa using hne)).1
    rw [hfence] at hrequired
    cases hrequired
  have hclaimed : p.relay.fenceRequired = false → p.relay.recoveryRequired = false →
      p.fenceOwed = false ∧
        (if p.recoveryOwed = some .resynchronize then p.recoveryOwed else none) = none := by
    intro hfence hrecovery
    refine ⟨hunowed hfence, ?_⟩
    rw [if_neg]
    intro hresync
    have hflags := h.resynchronize hresync
    rw [hrecovery] at hflags
    cases hflags
  have hexpects := htask.expects
  have hserved : p.relay.cursor.isSome = true → p.fenceOwed = false ∧ p.recoveryOwed = none :=
    fun hcursor => h.none_owed (htask.serving hcursor)
  cases ha : p.await with
  | created | fencing _ _ | dispatching _ _ _ _ _ | waiting | ended | closed =>
      rw [ha] at hresume
      cases hresume
  | opening started =>
      rw [ha] at hexpects
      obtain ⟨hfence, hrecovery⟩ := hclaimed hexpects.2.1 hexpects.2.2
      exact debtOk_of_none hfence hrecovery
  | initializing started =>
      rw [ha] at hexpects
      obtain ⟨hfence, hrecovery⟩ := hclaimed hexpects.2.1 hexpects.2.2
      exact debtOk_of_none hfence hrecovery
  | recovering started =>
      rw [ha] at hexpects
      exact debtOk_of_none (hunowed hexpects.2.1) rfl
  | beating _ | reading | acknowledging _ _ _ =>
      rw [ha] at hexpects
      obtain ⟨hfence, hrecovery⟩ := hserved hexpects
      exact debtOk_of_none hfence hrecovery
  | releasing =>
      rw [ha] at hresume
      cases hresume
      exact h.of_kept rfl rfl (fun howed => (h.fence howed).1) rfl rfl rfl

/-- A process that keeps its relay, its await and its debts. -/
theorem ProcessOk.sockets_only (h : ProcessOk p) (hrelay : p'.relay = p.relay)
    (hawait : p'.await = p.await) (hfence : p'.fenceOwed = p.fenceOwed)
    (hrecovery : p'.recoveryOwed = p.recoveryOwed) (hsockets : SocketsOk p')
    (hdetached : p.relay.cursor = none → ∀ s ∈ p'.sockets, s ∈ p.sockets) : ProcessOk p' := by
  refine ⟨?_, hsockets, ?_, ?_⟩
  · rw [hrelay, hawait]
    exact h.task
  · refine h.debt.of_kept hfence hrecovery ?_ ?_ ?_ ?_
    · rw [hrelay]
      exact fun howed => (h.debt.fence howed).1
    · rw [hrelay]
    · rw [hrelay]
    · rw [hrelay]
  · intro handler ha s hs
    rw [hawait] at ha
    have hexpects := h.task.expects
    rw [ha] at hexpects
    exact h.detached handler ha s (hdetached hexpects.1 s hs)

/-- The relay task moves on with the debts settled separately. -/
theorem ProcessOk.task_only {task : Relay × Await β} (h : ProcessOk p)
    (hsteps : Steps p.relay task) (hrelay : p'.relay = task.1) (hawait : p'.await = task.2)
    (hsockets : p'.sockets = p.sockets) (hlast : p'.lastFence = p.lastFence) (hdebt : DebtOk p') :
    ProcessOk p' := by
  refine ⟨?_, h.sockets.window hsteps.window hsockets hlast hrelay, hdebt, ?_⟩
  · rw [hrelay, hawait]
    exact hsteps.ok
  · intro handler ha
    rw [hawait] at ha
    exact absurd ha (hsteps.attached handler)

/-- A fence that is due stays due. -/
theorem Window.fence_stays {r r' : Relay} (h : Window r r') (hrequired : r.fenceRequired = true)
    (hfenced : r.fenced = false) : r'.fenceRequired = true ∧ r'.fenced = false := by
  have hunfenced : ¬ r.fenced = true := by simp [hfenced]
  cases h with
  | kept hsame hfence =>
      exact ⟨(hfence.resolve_right hunfenced).trans hrequired, hsame.fenced.trans hfenced⟩
  | closed _ _ hkept hfence => exact ⟨hfence.resolve_right hunfenced, hkept.trans hfenced⟩
  | opened _ hfence _ _ _ =>
      rw [hrequired] at hfence
      cases hfence

/-! ### One lemma for each action -/

theorem ProcessOk.act_start (h : ProcessOk p)
    (hact : p.act cfg time fresh .start = some p') : ProcessOk p' := by
  cases ha : p.await with
  | created =>
      simp only [Process.act, ha, Option.some.injEq] at hact
      have hexpects := h.task.expects
      rw [ha] at hexpects
      have hsteps : Steps p.relay
          (({ p.relay with stop := false }, .opening time) : Relay × Await β) :=
        ⟨⟨h.task.fenceRequired, h.task.recoveryRequired, h.task.fenced, hexpects⟩,
          .kept ⟨rfl, rfl, rfl, rfl⟩ (.inl rfl), nofun⟩
      subst hact
      exact h.task_only hsteps rfl rfl rfl rfl
        (h.debt.of_kept rfl rfl (fun howed => (h.debt.fence howed).1) rfl rfl rfl)
  | opening _ | initializing _ | fencing _ _ | recovering _ | beating _ | reading
  | dispatching _ _ _ _ _ | acknowledging _ _ _ | waiting | ended | releasing | closed =>
      simp [Process.act, ha] at hact

/-- A call returned to the relay, or failed. -/
theorem ProcessOk.act_resume {outcome : Except Failure (Reply β)} (h : ProcessOk p)
    (hact : p.act cfg time fresh (.resume outcome) = some p') : ProcessOk p' := by
  obtain ⟨task, hresume, rfl⟩ := Option.map_eq_some_iff.mp hact
  have hsteps := resume_steps h.task hresume
  cases outcome with
  | ok reply => exact h.task_only hsteps rfl rfl rfl rfl (h.debt.returned h.task hresume)
  | error failure =>
      cases ha : p.await.handles with
      | true =>
          have hhandle : p.relay.resume cfg time fresh (.error failure) p.await =
              some (p.relay.handle failure) := resume_error ha
          obtain rfl := Option.some.inj (hresume.symm.trans hhandle)
          exact h.task_only hsteps rfl rfl rfl rfl (h.debt.handled (h.task.no_fence ha))
      | false =>
          have hkept := resume_error_kept ha hresume
          refine h.task_only hsteps rfl rfl rfl rfl ?_
          refine h.debt.of_kept rfl rfl ?_ ?_ ?_ ?_
          · show p.fenceOwed = true → task.1.fenceRequired = true
            rw [hkept]
            exact fun howed => (h.debt.fence howed).1
          · exact congrArg Relay.fenced hkept
          · exact congrArg Relay.cursor hkept
          · exact congrArg Relay.recoveryRequired hkept

/-- The relay goes on to another await, and neither its own fields nor the sockets change. -/
theorem ProcessOk.awaits {await : Await β} (h : ProcessOk p) (handed : List (Nat × RealtimeEvent β))
    (hexpects : await.Expects p.relay) (hattached : ∀ handler, await ≠ .fencing handler true) :
    ProcessOk { p with await := await, handed := handed } := by
  refine ⟨h.task.change hexpects, h.sockets.shrink rfl rfl fun s hs => hs, ?_, ?_⟩
  · exact h.debt.of_kept rfl rfl (fun howed => (h.debt.fence howed).1) rfl rfl rfl
  · exact fun handler ha => absurd ha (hattached handler)

theorem ProcessOk.act_hand (h : ProcessOk p)
    (hact : p.act cfg time fresh .hand = some p') : ProcessOk p' := by
  simp only [Process.act] at hact
  split at hact
  · rename_i event rest count dispatched ha
    cases hact
    have hexpects := h.task.expects
    rw [ha] at hexpects
    exact h.awaits _ hexpects nofun
  · cases hact

theorem TaskOk.dispatched {r : Relay} {a await : Await β} {ok : Bool} (h : TaskOk r a)
    (hawait : a.dispatched ok = some await) :
    await.Expects r ∧ ∀ handler, await ≠ .fencing handler true := by
  cases a with
  | dispatching event rest count dispatched handed =>
      have hexpects := h.expects
      simp only [Await.dispatched] at hawait
      split at hawait
      · split at hawait
        · split at hawait
          · cases hawait
            exact ⟨hexpects, nofun⟩
          · cases hawait
            exact ⟨hexpects, nofun⟩
        · cases hawait
      · split at hawait
        · cases hawait
          exact ⟨trivial, nofun⟩
        · cases hawait
          exact ⟨hexpects, nofun⟩
  | created | opening _ | initializing _ | fencing _ _ | recovering _ | beating _ | reading
  | acknowledging _ _ _ | waiting | ended | releasing | closed => cases hawait

theorem ProcessOk.act_dispatched {ok : Bool} (h : ProcessOk p)
    (hact : p.act cfg time fresh (.dispatched ok) = some p') : ProcessOk p' := by
  obtain ⟨await, hawait, rfl⟩ := Option.map_eq_some_iff.mp hact
  obtain ⟨hexpects, hattached⟩ := h.task.dispatched hawait
  exact h.awaits p.handed hexpects hattached

theorem ProcessOk.act_detach (h : ProcessOk p)
    (hact : p.act cfg time fresh .detach = some p') : ProcessOk p' := by
  simp only [Process.act] at hact
  split at hact
  · rename_i handler detached ha
    cases hact
    have hexpects := h.task.expects
    rw [ha] at hexpects
    have hempty : ∀ s : Socket, s ∉ (∅ : Table Socket Nat Socket.websocket) :=
      fun s => Table.not_mem_empty
    refine ⟨h.task.change hexpects, ?_, ?_, fun _ _ => hempty⟩
    · exact h.sockets.shrink rfl rfl fun s hs => absurd hs (hempty s)
    · exact h.debt.of_kept rfl rfl (fun howed => (h.debt.fence howed).1) rfl rfl rfl
  · cases hact

/-- A fence is done: every socket has been detached, and the debt of the fence is paid. -/
theorem ProcessOk.fence_done (h : ProcessOk p) (task : Relay × Await β)
    (hcursor : p.relay.cursor = none) (hempty : ∀ s, s ∉ p.sockets) (hok : TaskOk task.1 task.2)
    (hkeeps : KeepsDebt p.relay task.1) (hepoch : task.1.admissionEpoch = p.relay.admissionEpoch)
    (hattached : ∀ handler, task.2 ≠ .fencing handler true) :
    ProcessOk { p.moved task with fenceOwed := false, lastFence := p.relay.admissionEpoch } := by
  have hnone : task.1.cursor = none := hkeeps.cursor.trans hcursor
  refine ⟨hok, ⟨?_, fun _ => .inr hempty, fun _ => hempty, ?_, ?_, ?_⟩, ?_, ?_⟩
  · exact fun _ s hs => absurd hs (hempty s)
  · exact fun s hs => absurd hs (hempty s)
  · exact Nat.le_of_eq hepoch.symm
  · intro hsome
    change task.1.cursor.isSome = true at hsome
    rw [hnone] at hsome
    cases hsome
  · refine ⟨nofun, fun _ => hnone, ?_⟩
    exact fun hresync => hkeeps.recoveryRequired.trans (h.debt.resynchronize hresync)
  · exact fun handler ha => absurd ha (hattached handler)

/-- A fence is done, or the fence handler failed. -/
theorem ProcessOk.act_fenced {ok : Bool} (h : ProcessOk p)
    (hact : p.act cfg time fresh (.fenced ok) = some p') : ProcessOk p' := by
  simp only [Process.act] at hact
  split at hact
  case h_2 => cases hact
  case h_1 handler detached ha =>
    have hexpects := h.task.expects
    rw [ha] at hexpects
    obtain ⟨hcursor, -, -⟩ := hexpects
    split at hact
    · split at hact
      · rename_i hdetached
        subst hdetached
        have hempty := h.detached handler ha
        cases hact
        cases handler with
        | true =>
            exact h.fence_done ({ p.relay with fenced := true, fenceRequired := false }, .waiting)
              hcursor hempty ⟨fun _ => hcursor, h.task.recoveryRequired, fun _ => hcursor, trivial⟩
              ⟨rfl, rfl⟩ rfl nofun
        | false =>
            have hattempt : Attempted { p.relay with fenced := true, fenceRequired := false }
                (Relay.attempt time fresh
                  { p.relay with fenced := true, fenceRequired := false } :
                  Relay × Await β) :=
              attempt_attempted rfl h.task.recoveryRequired fun _ => hcursor
            have hkeeps : KeepsDebt { p.relay with fenced := true, fenceRequired := false }
                (Relay.attempt time fresh
                  { p.relay with fenced := true, fenceRequired := false } :
                  Relay × Await β).1 := attempt_keepsDebt
            exact h.fence_done _ hcursor hempty hattempt.ok ⟨hkeeps.cursor, hkeeps.recoveryRequired⟩
              hattempt.same.admissionEpoch hattempt.attached
      · cases hact
    · cases hact
      exact h.awaits p.handed trivial nofun

/-- The loop begins again, and a fence that is due stays due. -/
theorem ProcessOk.act_wake (h : ProcessOk p)
    (hact : p.act cfg time fresh .wake = some p') : ProcessOk p' := by
  simp only [Process.act] at hact
  split at hact
  · rename_i ha
    cases hact
    have hsteps : Steps p.relay (p.relay.top time fresh : Relay × Await β) := top_steps h.task
    have hkeeps : KeepsDebt p.relay (p.relay.top time fresh : Relay × Await β).1 := top_keepsDebt
    refine h.task_only hsteps rfl rfl rfl rfl ⟨?_, ?_, ?_⟩
    · intro howed
      obtain ⟨hrequired, hfenced⟩ := h.debt.fence howed
      exact hsteps.window.fence_stays hrequired hfenced
    · exact fun howed => hkeeps.cursor.trans (h.debt.recovery howed)
    · exact fun howed => hkeeps.recoveryRequired.trans (h.debt.resynchronize howed)
  · cases hact

theorem ProcessOk.act_stop (h : ProcessOk p)
    (hact : p.act cfg time fresh .stop = some p') : ProcessOk p' := by
  cases hact
  refine ⟨⟨h.task.fenceRequired, h.task.recoveryRequired, h.task.fenced, ?_⟩, ?_, ?_,
    h.detached⟩
  · have hexpects := h.task.expects
    cases ha : p.await with
    | ended | releasing | closed => exact .inl rfl
    | created | opening _ | initializing _ | fencing _ _ | recovering _ | beating _ | reading
    | dispatching _ _ _ _ _ | acknowledging _ _ _ | waiting =>
        rw [ha] at hexpects
        exact hexpects
  · have hwindow : Window p.relay { p.relay with stop := true } :=
      .kept ⟨rfl, rfl, rfl, rfl⟩ (.inl rfl)
    exact h.sockets.window hwindow rfl rfl rfl
  · exact h.debt.of_kept rfl rfl (fun howed => (h.debt.fence howed).1) rfl rfl rfl

theorem ProcessOk.act_release (h : ProcessOk p)
    (hact : p.act cfg time fresh .release = some p') : ProcessOk p' := by
  simp only [Process.act] at hact
  split at hact
  · rename_i ha
    cases hact
    have hexpects := h.task.expects
    rw [ha] at hexpects
    exact h.awaits p.handed hexpects nofun
  · cases hact

/-- An admission changes; the sockets do not. -/
theorem ProcessOk.admissions_only (h : ProcessOk p)
    (admissions : Table Admission Nat Admission.websocket) :
    ProcessOk { p with admissions := admissions } :=
  h.sockets_only rfl rfl rfl rfl (h.sockets.shrink rfl rfl fun _ hs => hs) fun _ _ hs => hs

/-- A socket that has been reserved is registered, if the window is still open. -/
theorem ProcessOk.act_register {websocket : Nat} (h : ProcessOk p)
    (hact : p.act cfg time fresh (.register websocket) = some p') : ProcessOk p' := by
  obtain ⟨admission, -, rfl⟩ := Option.map_eq_some_iff.mp hact
  obtain ⟨hrelay, hawait, hfence, hrecovery, -⟩ := register_frame cfg time p admission
  refine h.sockets_only hrelay hawait hfence hrecovery h.sockets.register ?_
  intro hcursor s hs
  rwa [register_closed hcursor] at hs

theorem ProcessOk.act_remove {websocket : Nat} (h : ProcessOk p)
    (hact : p.act cfg time fresh (.remove websocket) = some p') : ProcessOk p' := by
  cases hact
  exact h.sockets_only rfl rfl rfl rfl
    (h.sockets.shrink rfl rfl fun s hs => (Table.mem_deleteWhere.mp hs).1)
    fun _ s hs => (Table.mem_deleteWhere.mp hs).1

/-- The step lemma: whatever a process does next keeps its invariant. -/
theorem ProcessOk.act {action : ProcessAction β} (h : ProcessOk p)
    (hact : p.act cfg time fresh action = some p') : ProcessOk p' := by
  cases action with
  | start => exact h.act_start hact
  | resume outcome => exact h.act_resume hact
  | hand => exact h.act_hand hact
  | dispatched ok => exact h.act_dispatched hact
  | detach => exact h.act_detach hact
  | fenced ok => exact h.act_fenced hact
  | wake => exact h.act_wake hact
  | stop => exact h.act_stop hact
  | release => exact h.act_release hact
  | admitConnection websocket roomId =>
      obtain ⟨token, -, hadmit⟩ := Option.bind_eq_some_iff.mp hact
      obtain ⟨admissions, -, rfl⟩ := Option.map_eq_some_iff.mp hadmit
      exact h.admissions_only admissions
  | reserved websocket generation sequence =>
      obtain ⟨admission, -, rfl⟩ := Option.map_eq_some_iff.mp hact
      exact h.admissions_only _
  | abandon websocket =>
      cases hact
      exact h.admissions_only _
  | register websocket => exact h.act_register hact
  | remove websocket => exact h.act_remove hact

theorem Window.epoch {r r' : Relay} (h : Window r r') : r.admissionEpoch ≤ r'.admissionEpoch := by
  cases h with
  | kept hsame _ => exact Nat.le_of_eq hsame.admissionEpoch.symm
  | closed _ hepoch _ _ => exact hepoch
  | opened _ _ _ hepoch _ =>
      rw [hepoch]
      exact Nat.le_succ _

/-- Epochs never go back, and neither does the epoch of the last fence. -/
theorem ProcessOk.epochs {action : ProcessAction β} (h : ProcessOk p)
    (hact : p.act cfg time fresh action = some p') :
    p.relay.admissionEpoch ≤ p'.relay.admissionEpoch ∧ p.lastFence ≤ p'.lastFence := by
  cases action with
  | start | hand | detach | release =>
      simp only [Process.act] at hact
      split at hact
      · cases hact
        exact ⟨Nat.le_refl _, Nat.le_refl _⟩
      · cases hact
  | resume outcome =>
      obtain ⟨task, hresume, rfl⟩ := Option.map_eq_some_iff.mp hact
      have hepoch := (resume_steps h.task hresume).window.epoch
      cases outcome with
      | ok reply => exact ⟨hepoch, Nat.le_refl _⟩
      | error failure => cases p.await.handles <;> exact ⟨hepoch, Nat.le_refl _⟩
  | dispatched ok =>
      obtain ⟨await, -, rfl⟩ := Option.map_eq_some_iff.mp hact
      exact ⟨Nat.le_refl _, Nat.le_refl _⟩
  | fenced ok =>
      simp only [Process.act] at hact
      split at hact
      · rename_i handler detached ha
        have hexpects := h.task.expects
        rw [ha] at hexpects
        split at hact
        · split at hact
          · cases hact
            refine ⟨?_, h.sockets.lastFence⟩
            cases handler with
            | true => exact Nat.le_refl _
            | false =>
                have hattempt : Attempted { p.relay with fenced := true, fenceRequired := false }
                    (Relay.attempt time fresh
                      { p.relay with fenced := true, fenceRequired := false } :
                      Relay × Await β) :=
                  attempt_attempted rfl h.task.recoveryRequired fun _ => hexpects.1
                exact hattempt.steps.window.epoch
          · cases hact
        · cases hact
          exact ⟨Nat.le_refl _, Nat.le_refl _⟩
      · cases hact
  | wake =>
      simp only [Process.act] at hact
      split at hact
      · cases hact
        have hsteps : Steps p.relay (p.relay.top time fresh : Relay × Await β) :=
          top_steps h.task
        exact ⟨hsteps.window.epoch, Nat.le_refl _⟩
      · cases hact
  | stop | abandon _ | remove _ =>
      cases hact
      exact ⟨Nat.le_refl _, Nat.le_refl _⟩
  | admitConnection websocket roomId =>
      obtain ⟨token, -, hadmit⟩ := Option.bind_eq_some_iff.mp hact
      obtain ⟨admissions, -, rfl⟩ := Option.map_eq_some_iff.mp hadmit
      exact ⟨Nat.le_refl _, Nat.le_refl _⟩
  | reserved websocket generation sequence =>
      obtain ⟨admission, -, rfl⟩ := Option.map_eq_some_iff.mp hact
      exact ⟨Nat.le_refl _, Nat.le_refl _⟩
  | register websocket =>
      obtain ⟨admission, -, rfl⟩ := Option.map_eq_some_iff.mp hact
      obtain ⟨hrelay, -, -, -, hlast⟩ := register_frame cfg time p admission
      rw [hrelay, hlast]
      exact ⟨Nat.le_refl _, Nat.le_refl _⟩

theorem ProcessOk.start : ProcessOk ({} : Process β) := by
  have hempty : ∀ s : Socket, s ∉ (∅ : Table Socket Nat Socket.websocket) :=
    fun s => Table.not_mem_empty
  refine ⟨⟨nofun, nofun, nofun, rfl, rfl, rfl⟩, ?_, debtOk_of_none rfl rfl, nofun⟩
  exact ⟨nofun, fun _ => .inr hempty, fun _ => hempty, fun s hs => absurd hs (hempty s),
    Nat.le_refl _, nofun⟩

end Process

/-! ## Runs of one process -/

/-- A process and its monotonic clock. -/
structure Local (β : Type) where
  time : Timestamp := 0
  process : Process β := {}

/-- Time passes, or the process takes a step; a call of the foundation may return
anything and may fail, and `uuid4` may give anything. -/
inductive LocalAction (β : Type) where
  | tick (time : Timestamp)
  | act (fresh : Generation) (action : ProcessAction β)

/-- The state after an action, where the action is possible. -/
def Local.next (cfg : RelayConfig) (s : Local β) : LocalAction β → Option (Local β)
  | .tick time => if s.time ≤ time then some { s with time := time } else none
  | .act fresh action =>
      (s.process.act cfg s.time fresh action).map fun p => { s with process := p }

/-- One step of a process or of its clock. -/
def LocalStep (cfg : RelayConfig) (s : Local β) (action : LocalAction β) (s' : Local β) : Prop :=
  s.next cfg action = some s'

/-- The states a process reaches from its start. -/
def LocalReachable (cfg : RelayConfig) : Local β → Prop :=
  Reachable (fun s => s = {}) (LocalStep cfg)

section Runs

variable {cfg : RelayConfig} {s s' : Local β}

theorem ProcessOk.localStep {action : LocalAction β} (h : ProcessOk s.process)
    (hstep : LocalStep cfg s action s') :
    ProcessOk s'.process ∧ s.process.relay.admissionEpoch ≤ s'.process.relay.admissionEpoch ∧
      s.process.lastFence ≤ s'.process.lastFence := by
  unfold LocalStep Local.next at hstep
  cases action with
  | tick time =>
      simp only at hstep
      split at hstep
      · cases hstep
        exact ⟨h, Nat.le_refl _, Nat.le_refl _⟩
      · cases hstep
  | act fresh action =>
      obtain ⟨p, hact, rfl⟩ := Option.map_eq_some_iff.mp hstep
      exact ⟨h.act hact, h.epochs hact⟩

theorem LocalReachable.processOk (h : LocalReachable cfg s) : ProcessOk s.process := by
  have hinit : ∀ s : Local β, s = {} → ProcessOk s.process := by
    rintro s rfl
    exact ProcessOk.start
  have hstep : ∀ (s : Local β) action s', ProcessOk s.process → LocalStep cfg s action s' →
      ProcessOk s'.process := fun _ _ _ hs hnext => (hs.localStep hnext).1
  exact @Reachable.invariant _ _ _ _ s (fun s => ProcessOk s.process) hinit hstep h

/-- Along a run the epochs only grow. -/
theorem ProcessOk.run (h : ProcessOk s.process) (hrun : Reach (LocalStep cfg) s s') :
    ProcessOk s'.process ∧ s.process.relay.admissionEpoch ≤ s'.process.relay.admissionEpoch ∧
      s.process.lastFence ≤ s'.process.lastFence := by
  induction hrun with
  | refl => exact ⟨h, Nat.le_refl _, Nat.le_refl _⟩
  | tail i _ _ hnext ih =>
      obtain ⟨hok, hepoch, hlast⟩ := ih
      obtain ⟨hok', hepoch', hlast'⟩ := hok.localStep hnext
      exact ⟨hok', hepoch.trans hepoch', hlast.trans hlast'⟩

/-- A completed fence writes down its epoch. -/
theorem fenced_lastFence {fresh : Generation}
    (hstep : LocalStep cfg s (.act fresh (.fenced true)) s') :
    s'.process.lastFence = s.process.relay.admissionEpoch := by
  obtain ⟨p, hact, rfl⟩ := Option.map_eq_some_iff.mp hstep
  simp only [Process.act] at hact
  split at hact
  · simp only [if_true] at hact
    split at hact
    · cases hact
      rfl
    · cases hact
  · cases hact

/-- In every run: whenever the relay is ready, every registered socket was
admitted under its current token; once a fence has completed, no token that was
current before it has a registered socket; and while a handled failure still asks
for its fence or its recovery, the relay is not ready. -/
theorem sockets_of_ready_epoch (hreach : LocalReachable cfg s) :
    (s.process.relay.ready s.time = true → ∀ socket ∈ s.process.sockets,
        s.process.relay.admissionToken s.time = some socket.token) ∧
      (∀ s₀ s₁ s₂ token fresh, LocalReachable cfg s₀ →
        s₀.process.relay.admissionToken s₀.time = some token →
        Reach (LocalStep cfg) s₀ s₁ → LocalStep cfg s₁ (.act fresh (.fenced true)) s₂ →
        Reach (LocalStep cfg) s₂ s → ∀ socket ∈ s.process.sockets, socket.token ≠ token) ∧
      (s.process.fenceOwed = true ∨ s.process.recoveryOwed.isSome = true →
        s.process.relay.ready s.time = false) := by
  have hok := hreach.processOk
  refine ⟨?_, ?_, ?_⟩
  · intro hready socket hsocket
    have hserving := (ready_serving hready).1
    exact admissionToken_eq_some.mpr ⟨hready, hok.sockets.current hserving.cursor socket hsocket⟩
  · rintro s₀ s₁ s₂ token fresh hreach₀ htoken hbefore hfence hafter socket hsocket rfl
    have hok₀ := hreach₀.processOk
    obtain ⟨hok₁, hepoch, -⟩ := hok₀.run hbefore
    have hok₂ := (hok₁.localStep hfence).1
    obtain ⟨-, -, hlast⟩ := hok₂.run hafter
    rw [fenced_lastFence hfence] at hlast
    have hnew := (hok.sockets.epochs socket hsocket).1
    obtain ⟨-, hmap⟩ := admissionToken_eq_some.mp htoken
    obtain ⟨g, -, hg⟩ := Option.map_eq_some_iff.mp hmap
    have hold : socket.token.2 = s₀.process.relay.admissionEpoch := by rw [← hg]
    omega
  · intro howed
    by_contra hne
    have hready : s.process.relay.ready s.time = true := by simpa using hne
    obtain ⟨hfence, hrecovery⟩ := hok.debt.none_owed (ready_serving hready).1
    rw [hfence, hrecovery] at howed
    rcases howed with howed | howed
    · cases howed
    · cases howed

/-- The state after a sequence of actions, skipping those that are not possible. -/
def Local.run (cfg : RelayConfig) (actions : List (LocalAction β)) (s : Local β) : Local β :=
  actions.foldl (fun s action => (s.next cfg action).getD s) s

theorem Local.run_reach (cfg : RelayConfig) (actions : List (LocalAction β)) (s : Local β) :
    Reach (LocalStep cfg) s (s.run cfg actions) := by
  induction actions generalizing s with
  | nil => exact Run.refl
  | cons action rest ih =>
      have hfirst : Reach (LocalStep cfg) s ((s.next cfg action).getD s) := by
        cases hnext : s.next cfg action with
        | none => exact Run.refl
        | some s' => exact Run.tail action Run.refl trivial hnext
      exact hfirst.trans (ih _)

end Runs

/-- A relay serving up to two sockets. -/
def pairConfig : RelayConfig where
  instanceId := "node-1"
  maxConnections := 2
  maxPerRoom := 2
  instance_valid := by decide +kernel

/-- Generation 7 admits a socket, falls behind, fails to fence once, fences, recovers
as generation 9 and admits another; the first socket's late admission is refused. -/
def recoveredRelay : Local Unit :=
  Local.run pairConfig
    [.act 0 .start, .act 0 (.resume (.ok (.registration ⟨7, 3⟩))),
      .act 0 (.admitConnection 1 "general"), .act 0 (.reserved 1 7 4), .act 0 (.register 1),
      .act 0 (.admitConnection 2 "general"), .act 0 .wake,
      .act 0 (.resume (.error .lag)), .act 0 (.fenced false), .act 9 .wake, .act 0 .detach,
      .act 9 (.fenced true), .act 0 (.reserved 2 9 8), .act 0 (.register 2),
      .act 0 (.resume (.ok (.registration ⟨9, 8⟩))), .act 0 (.admitConnection 3 "general"),
      .act 0 (.reserved 3 9 10), .act 0 (.register 3)] {}

/-- Only the socket admitted after the recovery is registered, under the current token. -/
theorem sockets_of_ready_epoch_recovered :
    recoveredRelay.process.relay.ready recoveredRelay.time = true ∧
      recoveredRelay.process.sockets.rows.map Socket.websocket = [3] ∧
      ∀ socket ∈ recoveredRelay.process.sockets,
        recoveredRelay.process.relay.admissionToken recoveredRelay.time = some socket.token := by
  have hreach : LocalReachable pairConfig recoveredRelay :=
    ⟨{}, rfl, Local.run_reach pairConfig _ {}⟩
  have hready : recoveredRelay.process.relay.ready recoveredRelay.time = true := by
    decide +kernel
  exact ⟨hready, by decide +kernel, (sockets_of_ready_epoch hreach).1 hready⟩

end Realtime
end ChatEngine
