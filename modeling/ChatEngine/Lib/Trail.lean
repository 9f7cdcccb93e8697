import ChatEngine.Lib.Table

/-!
# A capped trail

A table that is appended to and then cut back to its newest rows, beside the list of everything
that was ever appended.

* `newest`, the end of a list, and `Ascending`, a list in the order of its times;
* `Table.overflow`, the rows of a table past its newest ones, and `Table.Appends`, an insert
  followed by the removal of its overflow;
* `Table.Trails`: the table holds the end of the list; every append keeps it so;
* `Orderly`, a list each of whose entries keeps to a rule about those before it.
-/

namespace ChatEngine
namespace Lib

section Newest

variable {α τ : Type}

/-- The last `n` entries of a list. -/
def newest (n : Nat) (log : List α) : List α := log.drop (log.length - n)

theorem newest_sublist (n : Nat) (log : List α) : (newest n log).Sublist log :=
  List.drop_sublist _ _

theorem newest_append (n : Nat) (log : List α) (a : α) :
    newest n (newest n log ++ [a]) = newest n (log ++ [a]) := by
  unfold newest
  simp only [List.length_append, List.length_drop, List.length_singleton]
  by_cases hn : log.length ≤ n
  · rw [show log.length - n = 0 by omega, List.drop_zero, Nat.sub_zero]
  · rw [← List.drop_append_of_le_length (by omega), List.drop_drop]
    congr 1
    omega

/-- The entries are listed in the order of their times, and no two have the same time. -/
def Ascending [LinearOrder τ] (time : α → τ) (log : List α) : Prop :=
  log.Pairwise fun a b => time a < time b

theorem Ascending.of_length [LinearOrder τ] {time : α → τ} {log : List α}
    (h : log.length ≤ 1) : Ascending time log := by
  match log, h with
  | [], _ => exact List.Pairwise.nil
  | [a], _ => exact List.pairwise_singleton _ a

theorem Ascending.append [LinearOrder τ] {time : α → τ} {log : List α} {a : α}
    (h : Ascending time log) (hafter : ∀ b ∈ log, time b < time a) :
    Ascending time (log ++ [a]) := by
  apply List.pairwise_append.mpr
  refine ⟨h, List.pairwise_singleton _ a, ?_⟩
  intro b hb c hc
  rw [List.mem_singleton.mp hc]
  exact hafter b hb

theorem Ascending.nodup [LinearOrder τ] {time : α → τ} {log : List α} (h : Ascending time log) :
    log.Nodup := by
  apply List.Pairwise.imp _ h
  intro a b hlt heq
  rw [heq] at hlt
  exact lt_irrefl _ hlt

end Newest

namespace Table

variable {α κ τ : Type} [LinearOrder τ] {time : α → τ} {key : α → κ}
variable {t t' : Table α κ key} {log : List α} {n : Nat} {a : α}

/-- The table holds the end of the log, which lists its entries in the order of their times. -/
structure Trails (time : α → τ) (n : Nat) (log : List α) (t : Table α κ key) : Prop where
  ascending : Ascending time log
  rows : ∀ r, r ∈ t ↔ r ∈ newest n log

theorem Trails.empty : Trails time n [] (∅ : Table α κ key) := by
  refine ⟨List.Pairwise.nil, fun r => ?_⟩
  show r ∈ ([] : List α) ↔ _
  rw [newest, List.drop_nil]

variable [LinearOrder κ]

/-- The rows past the newest `n`, newest first. -/
def overflow (time : α → τ) (n : Nat) (t : Table α κ key) : List α :=
  (t.rows.insertionSort fun a b => timeKeyLe time key b a).drop n

/-- The overflow of a table whose rows are listed by time is the front of that list. -/
theorem mem_overflow (hlog : Ascending time log) (hrows : ∀ r, r ∈ t ↔ r ∈ log) {r : α} :
    r ∈ overflow time n t ↔ r ∈ log.take (log.length - n) := by
  have hperm : t.rows.Perm log.reverse := by
    apply List.Perm.trans _ (List.reverse_perm log).symm
    exact (List.perm_ext_iff_of_nodup t.rows_nodup hlog.nodup).mpr hrows
  have hsorted : log.reverse.Pairwise fun a b => timeKeyLe time key b a := by
    apply List.pairwise_reverse.mpr
    exact hlog.imp fun hlt => .inl hlt
  have htotal : Std.Total fun a b => timeKeyLe time key b a :=
    ⟨fun a b => Std.Total.total (r := timeKeyLe time key) b a⟩
  have htrans : IsTrans α fun a b => timeKeyLe time key b a :=
    ⟨fun _ _ _ hab hbc => IsTrans.trans (r := timeKeyLe time key) _ _ _ hbc hab⟩
  have hanti : ∀ a ∈ t.rows, ∀ b ∈ t.rows, timeKeyLe time key b a → timeKeyLe time key a b →
      a = b := by
    intro a ha b hb hba hab
    apply eq_of_key ha hb
    rcases hba with hlt | ⟨heq, hkey⟩
    · rcases hab with hlt' | ⟨heq', -⟩
      · exact absurd hlt hlt'.not_gt
      · exact absurd heq' hlt.ne'
    · rcases hab with hlt' | ⟨-, hkey'⟩
      · exact absurd heq hlt'.ne'
      · exact le_antisymm hkey' hkey
  unfold overflow
  rw [insertionSort_unique hperm hsorted hanti, List.drop_reverse, List.mem_reverse]

variable [DecidableEq κ]

/-- One row is inserted, and then the overflow is removed. -/
def Appends (time : α → τ) (n : Nat) (a : α) (t t' : Table α κ key) : Prop :=
  ∃ inserted, t.insert? a = some inserted ∧
    t' = inserted.deleteWhere fun r => key r ∈ (overflow time n inserted).map key

/-- Rows are appended one after the other. -/
def AppendsAll (time : α → τ) (n : Nat) : List α → Table α κ key → Table α κ key → Prop
  | [], t, t' => t' = t
  | a :: rest, t, t' => ∃ between, Appends time n a t between ∧ AppendsAll time n rest between t'

theorem appendsAll_singleton : AppendsAll time n [a] t t' ↔ Appends time n a t t' := by
  constructor
  · rintro ⟨between, happend, rfl⟩
    exact happend
  · intro happend
    exact ⟨t', happend, rfl⟩

theorem AppendsAll.append {first second : List α} {t'' : Table α κ key}
    (h : AppendsAll time n first t t') (h' : AppendsAll time n second t' t'') :
    AppendsAll time n (first ++ second) t t'' := by
  induction first generalizing t with
  | nil =>
      rw [show t' = t from h] at h'
      exact h'
  | cons a rest ih =>
      obtain ⟨between, hfirst, hrest⟩ := h
      exact ⟨between, hfirst, ih hrest⟩

/-- The appended table holds no other rows. -/
theorem AppendsAll.mem {rows : List α} {r : α} (h : AppendsAll time n rows t t') (hr : r ∈ t') :
    r ∈ t ∨ r ∈ rows := by
  induction rows generalizing t with
  | nil =>
      rw [show t' = t from h] at hr
      exact .inl hr
  | cons a rest ih =>
      obtain ⟨between, ⟨inserted, hinsert, rfl⟩, hrest⟩ := h
      rcases ih hrest with hbetween | hin
      · rcases (mem_of_insert? hinsert).mp (mem_deleteWhere.mp hbetween).1 with hold | rfl
        · exact .inl hold
        · exact .inr List.mem_cons_self
      · exact .inr (List.mem_cons_of_mem _ hin)

/-- A row that is newer than the whole log is appended to the table as it is to the log. -/
theorem Trails.append (h : Trails time n log t) (hafter : ∀ b ∈ log, time b < time a)
    (happend : Appends time n a t t') : Trails time n (log ++ [a]) t' := by
  obtain ⟨inserted, hinsert, rfl⟩ := happend
  have hlog := h.ascending.append hafter
  have hheld : Ascending time (newest n log ++ [a]) :=
    hlog.sublist ((newest_sublist n log).append (List.Sublist.refl _))
  have hrows : ∀ r, r ∈ inserted ↔ r ∈ newest n log ++ [a] := by
    intro r
    rw [mem_of_insert? hinsert, h.rows, List.mem_append, List.mem_singleton]
  refine ⟨hlog, fun r => ?_⟩
  rw [mem_deleteWhere, hrows, ← newest_append]
  unfold newest at *
  generalize hsplit : (List.drop (log.length - n) log ++ [a]) = held at *
  have hparts := List.take_append_drop (held.length - n) held
  have hnodup := hheld.nodup
  rw [← hparts] at hnodup
  constructor
  · rintro ⟨hr, hout⟩
    rw [← hparts, List.mem_append] at hr
    refine hr.resolve_left fun hfront => hout ?_
    exact List.mem_map_of_mem ((mem_overflow hheld hrows).mpr hfront)
  · intro hr
    refine ⟨List.mem_of_mem_drop hr, fun hin => ?_⟩
    obtain ⟨s, hs, hkey⟩ := List.mem_map.mp hin
    have hfront := (mem_overflow hheld hrows).mp hs
    have hsame : s = r := eq_of_key ((hrows s).mpr (List.mem_of_mem_take hfront))
      ((hrows r).mpr (List.mem_of_mem_drop hr)) hkey
    rw [hsame] at hfront
    exact (List.nodup_append.mp hnodup).2.2 r hfront r hr rfl

/-- The same for several rows, each newer than the one before. -/
theorem Trails.appendAll {rows : List α} (h : Trails time n log t)
    (hafter : ∀ b ∈ log, ∀ r ∈ rows, time b < time r) (hrows : Ascending time rows)
    (happend : AppendsAll time n rows t t') : Trails time n (log ++ rows) t' := by
  induction rows generalizing log t with
  | nil =>
      rw [List.append_nil, show t' = t from happend]
      exact h
  | cons a rest ih =>
      obtain ⟨between, hfirst, hrest⟩ := happend
      obtain ⟨hbefore, hascending⟩ := List.pairwise_cons.mp hrows
      rw [List.append_cons]
      apply ih (h.append (fun b hb => hafter b hb a List.mem_cons_self) hfirst) _ hascending hrest
      intro b hb r hr
      rcases List.mem_append.mp hb with hold | hnew
      · exact hafter b hold r (List.mem_cons_of_mem _ hr)
      · rw [List.mem_singleton.mp hnew]
        exact hbefore r hr

end Table
/-! ## Rules about what came before -/

section Orderly

variable {α : Type} {rule : List α → α → Prop} {log : List α}

/-- Every entry keeps to a rule about the entries before it. -/
def Orderly (rule : List α → α → Prop) (log : List α) : Prop :=
  ∀ before a after, log = before ++ a :: after → rule before a

theorem Orderly.nil : Orderly rule [] := by
  intro before a after h
  cases before <;> cases h

theorem Orderly.append (h : Orderly rule log) {a : α} (ha : rule log a) :
    Orderly rule (log ++ [a]) := by
  intro before b after heq
  rcases List.eq_nil_or_concat after with rfl | ⟨front, last, rfl⟩
  · obtain ⟨rfl, hlast⟩ := List.append_inj' heq rfl
    obtain rfl := List.head_eq_of_cons_eq hlast
    exact ha
  · rw [List.concat_eq_append, ← List.cons_append, ← List.append_assoc] at heq
    exact h before b front (List.append_inj' heq rfl).1

/-- Entries that keep to the rule whatever else was added before them. -/
theorem Orderly.appendAll (h : Orderly rule log) {more : List α}
    (hmore : ∀ front a rest, more = front ++ a :: rest → rule (log ++ front) a) :
    Orderly rule (log ++ more) := by
  induction more generalizing log with
  | nil =>
      rw [List.append_nil]
      exact h
  | cons a rest ih =>
      have hfirst : Orderly rule (log ++ [a]) := by
        apply h.append
        have hrule := hmore [] a rest rfl
        rwa [List.append_nil] at hrule
      have happended := ih hfirst (by
        intro front b rest' heq
        rw [List.append_assoc]
        exact hmore (a :: front) b rest' (congrArg (a :: ·) heq))
      rwa [List.append_assoc] at happended

/-- Of two entries they are one, or one was there when the other came. -/
theorem Orderly.eq_or_before (h : Orderly rule log) {a b : α} (ha : a ∈ log) (hb : b ∈ log) :
    a = b ∨ (∃ before, rule before a ∧ b ∈ before) ∨ ∃ before, rule before b ∧ a ∈ before := by
  obtain ⟨before, after, rfl⟩ := List.append_of_mem ha
  rcases List.mem_append.mp hb with hfirst | hrest
  · exact .inr (.inl ⟨before, h before a after rfl, hfirst⟩)
  · rcases List.mem_cons.mp hrest with rfl | hlast
    · exact .inl rfl
    · obtain ⟨between, rest, rfl⟩ := List.append_of_mem hlast
      refine .inr (.inr ⟨before ++ a :: between, h _ b rest ?_, ?_⟩)
      · rw [List.append_assoc, List.cons_append]
      · exact List.mem_append_right _ List.mem_cons_self

end Orderly

end Lib
end ChatEngine
