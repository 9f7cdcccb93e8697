import Mathlib.Logic.Basic

/-!
# Transactions over an explicit state

A transaction reads and rewrites a state and may stop with an error.  When it
stops it keeps what it had already written, exactly as a database connection
does before it rolls back; undoing those writes is a separate operation.

* `Tx ε σ α` and its monad;
* `Tx.Returns`, the big-step relation of a transaction that did not fail, with
  one inversion lemma for each way to build a transaction;
* `Tx.Raises`, the same for a transaction that stops with an error, and `Tx.Spares`, the rule
  for errors that cannot stop it;
* `Tx.zoom` and `Tx.embed`, a transaction on part of a larger state;
* `Tx.atomically`, which commits on success and restores the state on an error;
* `Tx.Preserves`, the rule for invariants.
-/

namespace ChatEngine
namespace Lib

/-- A transaction over states `σ`: it ends with a value or with an error, and
in both cases in a state. -/
def Tx (ε σ α : Type) : Type := σ → Except ε α × σ

namespace Tx

variable {ε σ α β : Type}

protected def pure (a : α) : Tx ε σ α := fun s => (.ok a, s)

protected def bind (tx : Tx ε σ α) (k : α → Tx ε σ β) : Tx ε σ β := fun s =>
  match tx s with
  | (.ok a, s') => k a s'
  | (.error e, s') => (.error e, s')

instance : Monad (Tx ε σ) where
  pure := Tx.pure
  bind := Tx.bind

/-- Read a value off the state. -/
def read (f : σ → α) : Tx ε σ α := fun s => (.ok (f s), s)

/-- Rewrite the state. -/
def write (f : σ → σ) : Tx ε σ Unit := fun s => (.ok (), f s)

/-- Stop with an error; the state keeps what was written before. -/
def raise (e : ε) : Tx ε σ α := fun s => (.error e, s)

/-- Continue only when `p` holds. -/
def require (p : Prop) [Decidable p] (e : ε) : Tx ε σ Unit :=
  if p then Tx.pure () else raise e

/-- Continue with the value of an option, or stop. -/
def orRaise (o : Option α) (e : ε) : Tx ε σ α :=
  match o with
  | some a => Tx.pure a
  | none => raise e

/-- Run a check that needs no state. -/
def lift (x : Except ε α) : Tx ε σ α := fun s => (x, s)

/-- Replace the error of a failing transaction. -/
def mapError (f : ε → ε) (tx : Tx ε σ α) : Tx ε σ α := fun s =>
  match tx s with
  | (.ok a, s') => (.ok a, s')
  | (.error e, s') => (.error (f e), s')

/-- Commit on success; on an error restore the state the transaction began in. -/
def atomically (tx : Tx ε σ α) : Tx ε σ α := fun s =>
  match tx s with
  | (.ok a, s') => (.ok a, s')
  | (.error e, _) => (.error e, s)

/-! ## Successful runs -/

/-- `tx` started in `s` ends without an error, with value `a` and in `s'`. -/
def Returns (tx : Tx ε σ α) (s : σ) (a : α) (s' : σ) : Prop :=
  tx s = (.ok a, s')

@[simp] theorem returns_pure {a b : α} {s s' : σ} :
    Returns (pure a : Tx ε σ α) s b s' ↔ b = a ∧ s' = s := by
  change ((Except.ok a : Except ε α), s) = (.ok b, s') ↔ _
  simp only [Prod.mk.injEq, Except.ok.injEq]
  constructor
  · rintro ⟨rfl, rfl⟩
    exact ⟨rfl, rfl⟩
  · rintro ⟨rfl, rfl⟩
    exact ⟨rfl, rfl⟩

@[simp] theorem returns_bind {tx : Tx ε σ α} {k : α → Tx ε σ β} {s s' : σ} {b : β} :
    Returns (tx >>= k) s b s' ↔
      ∃ a t, Returns tx s a t ∧ Returns (k a) t b s' := by
  change Tx.bind tx k s = (.ok b, s') ↔ _
  unfold Tx.bind Returns
  constructor
  · intro h
    cases hrun : tx s with
    | mk outcome t =>
        rw [hrun] at h
        cases outcome with
        | ok a => exact ⟨a, t, rfl, h⟩
        | error e => cases h
  · rintro ⟨a, t, hfirst, hrest⟩
    rw [hfirst]
    exact hrest

@[simp] theorem returns_map {tx : Tx ε σ α} {f : α → β} {s s' : σ} {b : β} :
    Returns (f <$> tx) s b s' ↔ ∃ a, Returns tx s a s' ∧ b = f a := by
  change Returns (tx >>= fun a => pure (f a)) s b s' ↔ _
  rw [returns_bind]
  simp only [returns_pure]
  constructor
  · rintro ⟨a, t, htx, hb, rfl⟩
    exact ⟨a, htx, hb⟩
  · rintro ⟨a, htx, hb⟩
    exact ⟨a, s', htx, hb, rfl⟩

@[simp] theorem returns_read {f : σ → α} {s s' : σ} {a : α} :
    Returns (read f : Tx ε σ α) s a s' ↔ a = f s ∧ s' = s :=
  returns_pure

@[simp] theorem returns_write {f : σ → σ} {s s' : σ} {u : Unit} :
    Returns (write f : Tx ε σ Unit) s u s' ↔ s' = f s := by
  unfold Returns write
  simp only [Prod.mk.injEq, true_and]
  exact eq_comm

@[simp] theorem returns_raise {e : ε} {s s' : σ} {a : α} :
    ¬ Returns (raise e : Tx ε σ α) s a s' := by
  intro h
  cases h

@[simp] theorem returns_require {p : Prop} [Decidable p] {e : ε} {s s' : σ} {u : Unit} :
    Returns (require p e : Tx ε σ Unit) s u s' ↔ p ∧ s' = s := by
  unfold require
  by_cases hp : p
  · rw [if_pos hp]
    have h : Returns (Tx.pure () : Tx ε σ Unit) s u s' ↔ u = () ∧ s' = s := returns_pure
    rw [h]
    simp [hp]
  · rw [if_neg hp]
    simp [hp]

@[simp] theorem returns_orRaise {o : Option α} {e : ε} {s s' : σ} {a : α} :
    Returns (orRaise o e : Tx ε σ α) s a s' ↔ o = some a ∧ s' = s := by
  cases o with
  | none => simp [orRaise]
  | some b =>
      have h : Returns (Tx.pure b : Tx ε σ α) s a s' ↔ a = b ∧ s' = s := returns_pure
      unfold orRaise
      rw [h]
      simp [eq_comm]

@[simp] theorem returns_lift {x : Except ε α} {s s' : σ} {a : α} :
    Returns (lift x : Tx ε σ α) s a s' ↔ x = .ok a ∧ s' = s := by
  unfold Returns lift
  simp only [Prod.mk.injEq]
  constructor
  · rintro ⟨hx, rfl⟩
    exact ⟨hx, rfl⟩
  · rintro ⟨hx, rfl⟩
    exact ⟨hx, rfl⟩

theorem returns_ite {p : Prop} [Decidable p] {t e : Tx ε σ α} {s s' : σ} {a : α} :
    Returns (if p then t else e) s a s' ↔
      (p ∧ Returns t s a s') ∨ (¬ p ∧ Returns e s a s') := by
  by_cases hp : p
  · simp [hp]
  · simp [hp]

@[simp] theorem returns_mapError {f : ε → ε} {tx : Tx ε σ α} {s s' : σ} {a : α} :
    Returns (mapError f tx) s a s' ↔ Returns tx s a s' := by
  unfold Returns mapError
  cases tx s with
  | mk outcome t => cases outcome <;> simp

@[simp] theorem returns_atomically {tx : Tx ε σ α} {s s' : σ} {a : α} :
    Returns (atomically tx) s a s' ↔ Returns tx s a s' := by
  unfold Returns atomically
  cases tx s with
  | mk outcome t => cases outcome <;> simp

/-! ## Failing runs -/

/-- `tx` started in `s` stops with the error `e`. -/
def Raises (tx : Tx ε σ α) (s : σ) (e : ε) : Prop :=
  (tx s).1 = .error e

@[simp] theorem raises_pure {a : α} {s : σ} {e : ε} : ¬ Raises (pure a : Tx ε σ α) s e := by
  intro h
  cases h

@[simp] theorem raises_bind {tx : Tx ε σ α} {k : α → Tx ε σ β} {s : σ} {e : ε} :
    Raises (tx >>= k) s e ↔ Raises tx s e ∨ ∃ a t, Returns tx s a t ∧ Raises (k a) t e := by
  change (Tx.bind tx k s).1 = .error e ↔ _
  unfold Tx.bind Raises Returns
  cases hrun : tx s with
  | mk outcome t =>
      cases outcome with
      | ok a =>
          constructor
          · intro h
            exact .inr ⟨a, t, rfl, h⟩
          · rintro (h | ⟨b, u, heq, h⟩)
            · cases h
            · cases heq
              exact h
      | error e' =>
          constructor
          · intro h
            cases h
            exact .inl rfl
          · rintro (h | ⟨b, u, heq, h⟩)
            · cases h
              rfl
            · cases heq

@[simp] theorem raises_map {tx : Tx ε σ α} {f : α → β} {s : σ} {e : ε} :
    Raises (f <$> tx) s e ↔ Raises tx s e := by
  change Raises (tx >>= fun a => pure (f a)) s e ↔ _
  simp

@[simp] theorem raises_read {f : σ → α} {s : σ} {e : ε} :
    ¬ Raises (read f : Tx ε σ α) s e := by
  intro h
  cases h

@[simp] theorem raises_write {f : σ → σ} {s : σ} {e : ε} :
    ¬ Raises (write f : Tx ε σ Unit) s e := by
  intro h
  cases h

@[simp] theorem raises_require {p : Prop} [Decidable p] {e e' : ε} {s : σ} :
    Raises (require p e : Tx ε σ Unit) s e' ↔ ¬ p ∧ e' = e := by
  unfold require
  by_cases hp : p
  · rw [if_pos hp]
    simp only [hp, not_true_eq_false, false_and, iff_false]
    exact raises_pure
  · rw [if_neg hp]
    simp only [hp, not_false_eq_true, true_and]
    change Except.error e = (.error e' : Except ε Unit) ↔ _
    rw [Except.error.injEq]
    exact eq_comm

@[simp] theorem raises_orRaise {o : Option α} {e e' : ε} {s : σ} :
    Raises (orRaise o e : Tx ε σ α) s e' ↔ o = none ∧ e' = e := by
  cases o with
  | none =>
      simp only [true_and]
      change Except.error e = (.error e' : Except ε α) ↔ _
      rw [Except.error.injEq]
      exact eq_comm
  | some a =>
      simp only [reduceCtorEq, false_and, iff_false]
      exact raises_pure

@[simp] theorem raises_lift {x : Except ε α} {s : σ} {e : ε} :
    Raises (lift x : Tx ε σ α) s e ↔ x = .error e := Iff.rfl

/-- A run either returns or raises. -/
theorem returns_or_raises (tx : Tx ε σ α) (s : σ) :
    (∃ a t, Returns tx s a t) ∨ ∃ e, Raises tx s e := by
  unfold Returns Raises
  cases tx s with
  | mk outcome t =>
      cases outcome with
      | ok a => exact .inl ⟨a, t, rfl⟩
      | error e => exact .inr ⟨e, rfl⟩

theorem Returns.not_raises {tx : Tx ε σ α} {s t : σ} {a : α} {e : ε} (h : Returns tx s a t) :
    ¬ Raises tx s e := by
  unfold Raises
  rw [h]
  intro heq
  cases heq

/-- No error of the kind `bad` stops `tx` in the state `s`. -/
def Spares (tx : Tx ε σ α) (s : σ) (bad : ε → Prop) : Prop :=
  ∀ e, Raises tx s e → ¬ bad e

section Spares

variable {bad : ε → Prop}

theorem Returns.spares {tx : Tx ε σ α} {s t : σ} {a : α} (h : Returns tx s a t) :
    Spares tx s bad :=
  fun _ hraises => absurd hraises h.not_raises

theorem Spares.bind {tx : Tx ε σ α} {k : α → Tx ε σ β} {s : σ} (htx : Spares tx s bad)
    (hk : ∀ a t, Returns tx s a t → Spares (k a) t bad) : Spares (tx >>= k) s bad := by
  intro e hraises
  rcases raises_bind.mp hraises with hfirst | ⟨a, t, hreturns, hrest⟩
  · exact htx e hfirst
  · exact hk a t hreturns e hrest

theorem Spares.map {tx : Tx ε σ α} {f : α → β} {s : σ} (htx : Spares tx s bad) :
    Spares (f <$> tx) s bad :=
  fun e hraises => htx e (raises_map.mp hraises)

theorem spares_pure {a : α} {s : σ} : Spares (pure a : Tx ε σ α) s bad :=
  fun _ hraises => absurd hraises raises_pure

theorem spares_read {f : σ → α} {s : σ} : Spares (read f : Tx ε σ α) s bad :=
  fun _ hraises => absurd hraises raises_read

theorem spares_write {f : σ → σ} {s : σ} : Spares (write f : Tx ε σ Unit) s bad :=
  fun _ hraises => absurd hraises raises_write

theorem spares_require {p : Prop} [Decidable p] {e : ε} {s : σ} (h : p ∨ ¬ bad e) :
    Spares (require p e : Tx ε σ Unit) s bad := by
  intro e' hraises
  obtain ⟨hp, rfl⟩ := raises_require.mp hraises
  exact h.resolve_left hp

theorem spares_orRaise {o : Option α} {e : ε} {s : σ} (h : o ≠ none ∨ ¬ bad e) :
    Spares (orRaise o e : Tx ε σ α) s bad := by
  intro e' hraises
  obtain ⟨ho, rfl⟩ := raises_orRaise.mp hraises
  exact h.resolve_left (not_not.mpr ho)

theorem spares_ite {p : Prop} [Decidable p] {t u : Tx ε σ α} {s : σ} (ht : p → Spares t s bad)
    (hu : ¬ p → Spares u s bad) : Spares (if p then t else u) s bad := by
  by_cases hp : p
  · rw [if_pos hp]
    exact ht hp
  · rw [if_neg hp]
    exact hu hp

end Spares

/-! ## Part of the state -/

variable {τ : Type}

/-- Run a transaction on the part of the state that `get` reads and `set` replaces. -/
def zoom (get : σ → τ) (set : σ → τ → σ) (tx : Tx ε τ α) : Tx ε σ α := fun s =>
  ((tx (get s)).1, set s (tx (get s)).2)

@[simp] theorem returns_zoom {get : σ → τ} {set : σ → τ → σ} {tx : Tx ε τ α} {s s' : σ} {a : α} :
    Returns (zoom get set tx) s a s' ↔ ∃ t, Returns tx (get s) a t ∧ s' = set s t := by
  unfold Returns zoom
  constructor
  · intro h
    cases hrun : tx (get s) with
    | mk outcome t =>
        rw [hrun] at h
        cases h
        exact ⟨t, rfl, rfl⟩
  · rintro ⟨t, hrun, rfl⟩
    rw [hrun]

/-- `zoom` for a transaction that raises errors of its own. -/
def embed {ε' : Type} (get : σ → τ) (set : σ → τ → σ) (f : ε → ε') (tx : Tx ε τ α) : Tx ε' σ α :=
  fun s => ((tx (get s)).1.mapError f, set s (tx (get s)).2)

@[simp] theorem returns_embed {ε' : Type} {get : σ → τ} {set : σ → τ → σ} {f : ε → ε'}
    {tx : Tx ε τ α} {s s' : σ} {a : α} :
    Returns (embed get set f tx) s a s' ↔ ∃ t, Returns tx (get s) a t ∧ s' = set s t := by
  unfold Returns embed
  constructor
  · intro h
    cases hrun : tx (get s) with
    | mk outcome t =>
        rw [hrun] at h
        cases outcome with
        | ok b =>
            cases h
            exact ⟨t, rfl, rfl⟩
        | error e => cases h
  · rintro ⟨t, hrun, rfl⟩
    rw [hrun]
    rfl

/-! ## Rollback -/

/-- A failed transaction leaves no trace. -/
theorem atomically_error {tx : Tx ε σ α} {s t : σ} {e : ε}
    (h : atomically tx s = (.error e, t)) : t = s := by
  unfold atomically at h
  cases hrun : tx s with
  | mk outcome u =>
      rw [hrun] at h
      cases outcome with
      | ok a => cases h
      | error e' =>
          cases h
          rfl

/-- A transaction that raises is rolled back. -/
theorem atomically_raises {tx : Tx ε σ α} {s : σ} {e : ε} :
    atomically tx s = (.error e, s) ↔ Raises tx s e := by
  unfold atomically Raises
  cases tx s with
  | mk outcome t => cases outcome <;> simp

/-- What a transaction may do to the state: nothing, or what its successful
run does. -/
theorem atomically_cases (tx : Tx ε σ α) (s : σ) :
    (∃ e, atomically tx s = (.error e, s)) ∨
      ∃ a t, Returns tx s a t ∧ atomically tx s = (.ok a, t) := by
  cases hrun : atomically tx s with
  | mk outcome t =>
      cases outcome with
      | error e =>
          have ht := atomically_error hrun
          subst ht
          exact .inl ⟨e, rfl⟩
      | ok a => exact .inr ⟨a, t, returns_atomically.mp hrun, rfl⟩

/-! ## Invariants -/

/-- Every successful run of `tx` keeps `Inv`. -/
def Preserves (tx : Tx ε σ α) (Inv : σ → Prop) : Prop :=
  ∀ s a s', Returns tx s a s' → Inv s → Inv s'

variable {Inv : σ → Prop}

theorem Preserves.bind {tx : Tx ε σ α} {k : α → Tx ε σ β}
    (htx : Preserves tx Inv) (hk : ∀ a, Preserves (k a) Inv) :
    Preserves (tx >>= k) Inv := by
  intro s b s' h hs
  obtain ⟨a, t, hfirst, hrest⟩ := returns_bind.mp h
  exact hk a t b s' hrest (htx s a t hfirst hs)

theorem preserves_write {f : σ → σ} (hf : ∀ s, Inv s → Inv (f s)) :
    Preserves (write f : Tx ε σ Unit) Inv := by
  intro s u s' h hs
  rw [returns_write] at h
  subst h
  exact hf s hs

/-- What leaves the state as it is keeps every invariant. -/
theorem preserves_of_same {tx : Tx ε σ α} (h : ∀ s a s', Returns tx s a s' → s' = s) :
    Preserves tx Inv := by
  intro s a s' hrun hs
  rw [h s a s' hrun]
  exact hs

theorem preserves_pure {a : α} : Preserves (pure a : Tx ε σ α) Inv :=
  preserves_of_same fun _ _ _ h => (returns_pure.mp h).2

theorem preserves_read {f : σ → α} : Preserves (read f : Tx ε σ α) Inv :=
  preserves_of_same fun _ _ _ h => (returns_read.mp h).2

theorem preserves_require {p : Prop} [Decidable p] {e : ε} :
    Preserves (require p e : Tx ε σ Unit) Inv :=
  preserves_of_same fun _ _ _ h => (returns_require.mp h).2

theorem preserves_orRaise {o : Option α} {e : ε} : Preserves (orRaise o e : Tx ε σ α) Inv :=
  preserves_of_same fun _ _ _ h => (returns_orRaise.mp h).2

theorem preserves_raise {e : ε} : Preserves (raise e : Tx ε σ α) Inv := by
  intro s a s' h
  exact absurd h returns_raise

theorem preserves_ite {p : Prop} [Decidable p] {t u : Tx ε σ α} (ht : p → Preserves t Inv)
    (hu : ¬ p → Preserves u Inv) : Preserves (if p then t else u) Inv := by
  by_cases hp : p
  · rw [if_pos hp]
    exact ht hp
  · rw [if_neg hp]
    exact hu hp

/-- Every value `tx` returns satisfies `P`. -/
def Yields (tx : Tx ε σ α) (P : α → Prop) : Prop :=
  ∀ s a s', Returns tx s a s' → P a

theorem Yields.bind {tx : Tx ε σ α} {k : α → Tx ε σ β} {P : β → Prop}
    (hk : ∀ a, Yields (k a) P) : Yields (tx >>= k) P := by
  intro s b s' h
  obtain ⟨a, t, -, hrest⟩ := returns_bind.mp h
  exact hk a t b s' hrest

theorem yields_pure {a : α} {P : α → Prop} (h : P a) : Yields (pure a : Tx ε σ α) P := by
  intro s b s' hrun
  rw [(returns_pure.mp hrun).1]
  exact h

theorem yields_raise {e : ε} {P : α → Prop} : Yields (raise e : Tx ε σ α) P := by
  intro s a s' h
  exact absurd h returns_raise

end Tx
end Lib
end ChatEngine
