import Mathlib.Data.List.Infix
import ChatEngine.Lib.Trail

/-!
# Following a log

A reader takes batches of a growing log from a cursor and passes their entries on, one after the
other.  When passing one on fails, it starts again at that entry.

* `after`, the log past a cursor, and what is known of a batch, a front part of it;
* `Feed`, what was passed on: entries of the log in their order, none left out between the place
  where the feed began and the last one;
* one lemma for each thing that may happen: the log grows (`Feed.append`), an entry is passed on
  (`Feed.pass`) and done with (`Feed.done_last`), the cursor skips what the feed need not have
  (`Feed.skip`).
-/

namespace ChatEngine
namespace Lib

variable {α κ : Type} [LinearOrder κ] {seq : α → κ}
variable {log more out batch rest : List α} {cursor base done last : κ} {e x : α}

/-- What the log lists past the cursor. -/
def after (seq : α → κ) (log : List α) (cursor : κ) : List α :=
  log.filter fun e => cursor < seq e

theorem mem_after : e ∈ after seq log cursor ↔ e ∈ log ∧ cursor < seq e := by
  simp [after]

theorem after_append :
    after seq (log ++ more) cursor = after seq log cursor ++ after seq more cursor :=
  List.filter_append _ _

theorem Ascending.after (h : Ascending seq log) : Ascending seq (after seq log cursor) :=
  h.sublist List.filter_sublist

/-- A batch is one of the log as it grows. -/
theorem batch_append (h : batch <+: after seq log cursor) :
    batch <+: after seq (log ++ more) cursor := by
  rw [after_append]
  exact h.trans (List.prefix_append _ _)

/-- What a batch starts with is the first entry past the cursor. -/
theorem batch_first (hlog : Ascending seq log) (h : e :: rest <+: after seq log cursor)
    (hx : x ∈ log) (hcursor : cursor < seq x) (hle : seq x ≤ seq e) : x = e := by
  obtain ⟨tail, htail⟩ := h
  have hmem : x ∈ e :: rest ++ tail := by
    rw [htail]
    exact mem_after.mpr ⟨hx, hcursor⟩
  have hsorted : Ascending seq (e :: (rest ++ tail)) := by
    show Ascending seq (e :: rest ++ tail)
    rw [htail]
    exact hlog.after
  rcases List.mem_cons.mp hmem with rfl | htail
  · rfl
  · exact absurd ((List.pairwise_cons.mp hsorted).1 x htail) (not_lt.mpr hle)

theorem mem_of_batch (h : e :: rest <+: after seq log cursor) : e ∈ log ∧ cursor < seq e :=
  mem_after.mp (h.subset List.mem_cons_self)

/-- The rest of a batch is a batch past its first entry. -/
theorem batch_rest (hlog : Ascending seq log) (h : e :: rest <+: after seq log cursor) :
    rest <+: after seq log (seq e) := by
  have hcursor := (mem_of_batch h).2
  obtain ⟨tail, htail⟩ := h
  have hsorted : Ascending seq (e :: (rest ++ tail)) := by
    show Ascending seq (e :: rest ++ tail)
    rw [htail]
    exact hlog.after
  have hlater : after seq log (seq e) = after seq (after seq log cursor) (seq e) := by
    unfold after
    rw [List.filter_filter]
    apply List.filter_congr
    intro x _
    have himp : seq e < seq x → cursor < seq x := hcursor.trans
    by_cases hx : seq e < seq x
    · simp [hx, himp hx]
    · simp [hx]
  have hall : after seq (rest ++ tail) (seq e) = rest ++ tail := by
    apply List.filter_eq_self.mpr
    intro x hx
    exact decide_eq_true ((List.pairwise_cons.mp hsorted).1 x hx)
  have hhead : after seq (e :: (rest ++ tail)) (seq e) = after seq (rest ++ tail) (seq e) := by
    unfold after
    rw [List.filter_cons_of_neg (by simp)]
  rw [hlater, ← htail]
  show rest <+: after seq (e :: (rest ++ tail)) (seq e)
  rw [hhead, hall]
  exact List.prefix_append rest tail

/-- What was passed on, `out`, of a log.  It began at `base`, its last entry is at `last`, and
the reader is done with everything up to `done`: it may have passed on one entry beyond. -/
structure Feed (seq : α → κ) (log out : List α) (base done last : κ) : Prop where
  inOrder : out.Pairwise fun a b => seq a ≤ seq b
  upTo : ∀ e ∈ out, seq e ≤ last
  real : ∀ e ∈ out, e ∈ log
  complete : ∀ e ∈ log, base < seq e → seq e ≤ last → e ∈ out
  pending : ∀ e ∈ log, done < seq e → seq e ≤ last → seq e = last
  within : done ≤ max base last

theorem Feed.start (h : done ≤ base) : Feed seq log [] base done done where
  inOrder := List.Pairwise.nil
  upTo e he := by cases he
  real e he := by cases he
  complete e _ hbase hle := absurd (hbase.trans_le hle) (not_lt.mpr h)
  pending e _ hdone hle := absurd hdone (not_lt.mpr hle)
  within := le_max_right base done

theorem Feed.append (h : Feed seq log out base done last) (hmore : ∀ e ∈ more, last < seq e) :
    Feed seq (log ++ more) out base done last where
  inOrder := h.inOrder
  upTo := h.upTo
  real e he := List.mem_append_left more (h.real e he)
  complete e he hbase hle := by
    rcases List.mem_append.mp he with hold | hnew
    · exact h.complete e hold hbase hle
    · exact absurd (hmore e hnew) (not_lt.mpr hle)
  pending e he hdone hle := by
    rcases List.mem_append.mp he with hold | hnew
    · exact h.pending e hold hdone hle
    · exact absurd (hmore e hnew) (not_lt.mpr hle)
  within := h.within

/-- Nothing that is past `base` is skipped. -/
theorem Feed.skip (h : Feed seq log out base done last) (hle : done ≤ cursor)
    (hbase : cursor ≤ max base done) : Feed seq log out base cursor last where
  inOrder := h.inOrder
  upTo := h.upTo
  real := h.real
  complete := h.complete
  pending e he hcursor := h.pending e he (hle.trans_lt hcursor)
  within := by
    apply hbase.trans
    exact max_le (le_max_left base last) h.within

/-- The first entry of a batch is passed on, perhaps for the second time. -/
theorem Feed.pass (h : Feed seq log out base done last) (hlog : Ascending seq log)
    (hbatch : e :: rest <+: after seq log done) :
    Feed seq log (out ++ [e]) base done (seq e) := by
  obtain ⟨hmem, hdone⟩ := mem_of_batch hbatch
  have hlast : last ≤ seq e := by
    by_contra hlt
    have heq := h.pending e hmem hdone (not_le.mp hlt).le
    exact hlt heq.ge
  refine ⟨?_, ?_, ?_, ?_, ?_, ?_⟩
  · apply List.pairwise_append.mpr
    refine ⟨h.inOrder, List.pairwise_singleton _ e, ?_⟩
    intro a ha b hb
    rw [List.mem_singleton.mp hb]
    exact (h.upTo a ha).trans hlast
  · intro a ha
    rcases List.mem_append.mp ha with hold | hnew
    · exact (h.upTo a hold).trans hlast
    · rw [List.mem_singleton.mp hnew]
  · intro a ha
    rcases List.mem_append.mp ha with hold | hnew
    · exact h.real a hold
    · rw [List.mem_singleton.mp hnew]
      exact hmem
  · intro x hx hbase hle
    by_cases hold : seq x ≤ last
    · exact List.mem_append_left _ (h.complete x hx hbase hold)
    · have hpast : done < seq x := by
        apply h.within.trans_lt
        exact max_lt hbase (not_le.mp hold)
      rw [batch_first hlog hbatch hx hpast hle]
      exact List.mem_append_right out List.mem_cons_self
  · intro x hx hpast hle
    rw [batch_first hlog hbatch hx hpast hle]
  · exact hdone.le.trans (le_max_right base (seq e))

/-- The entry that was passed on last is done with. -/
theorem Feed.done_last (h : Feed seq log out base done last) :
    Feed seq log out base last last where
  inOrder := h.inOrder
  upTo := h.upTo
  real := h.real
  complete := h.complete
  pending _ _ hlast hle := absurd hlast (not_lt.mpr hle)
  within := le_max_right base last

end Lib
end ChatEngine
