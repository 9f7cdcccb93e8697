import ChatEngine.Lib.Table

/-!
# Keyset pagination

A list is read page by page: each page comes with the key of its last row when more rows are
left, and the next request asks for the rows after that key.

* `Pages fetch cursor pages`: a reader who starts at the cursor and follows the cursors until none
  is given sees these pages; `Pages.unique` says that there is one such sequence;
* `cutPage`, a page of the rows that are left, from a read of one row more;
* `pages_of_cut`: where every request is answered with the cut of what is left, following the
  cursors ends, and the pages make up the whole list;
* `insertionSort_after`: what is left after a row of a sorted selection is the selection of what
  comes after it.
-/

namespace ChatEngine
namespace Lib

section Pages

variable {α β κ ε : Type}

/-- The pages that are seen from a cursor until no next one is given. -/
inductive Pages (fetch : Option κ → Except ε (List β × Option κ)) :
    Option κ → List (List β) → Prop
  | last {cursor : Option κ} {page : List β} :
      fetch cursor = .ok (page, none) → Pages fetch cursor [page]
  | more {cursor : Option κ} {page : List β} {next : κ} {rest : List (List β)} :
      fetch cursor = .ok (page, some next) → Pages fetch (some next) rest →
      Pages fetch cursor (page :: rest)

/-- The pages are a matter of the answers. -/
theorem Pages.unique {fetch : Option κ → Except ε (List β × Option κ)} {cursor : Option κ}
    {pages pages' : List (List β)} (h : Pages fetch cursor pages)
    (h' : Pages fetch cursor pages') : pages = pages' := by
  induction h generalizing pages' with
  | last hfetch =>
      cases h' with
      | last hfetch' =>
          rw [hfetch] at hfetch'
          cases hfetch'
          rfl
      | more hfetch' _ =>
          rw [hfetch] at hfetch'
          cases hfetch'
  | more hfetch _ ih =>
      cases h' with
      | last hfetch' =>
          rw [hfetch] at hfetch'
          cases hfetch'
      | more hfetch' hrest =>
          rw [hfetch] at hfetch'
          cases hfetch'
          rw [ih hrest]

/-- The pages do not depend on how a failure is named. -/
theorem Pages.mapError {ε' : Type} {fetch : Option κ → Except ε (List β × Option κ)}
    {f : ε → ε'} {cursor : Option κ} {pages : List (List β)} (h : Pages fetch cursor pages) :
    Pages (fun before => (fetch before).mapError f) cursor pages := by
  induction h with
  | last hfetch =>
      apply Pages.last
      rw [hfetch]
      rfl
  | more hfetch _ ih =>
      refine Pages.more ?_ ih
      rw [hfetch]
      rfl

/-- A page of the rows that are left, and the key of its last row when there are more. -/
def cutPage (key : α → κ) (limit : Nat) (rows : List α) : List α × Option κ :=
  (rows.take limit, if limit < rows.length then (rows.take limit).getLast?.map key else none)

/-- One row more than the page tells whether there are more. -/
theorem cutPage_take {key : α → κ} {limit : Nat} {rows : List α} :
    cutPage key limit (rows.take (limit + 1)) = cutPage key limit rows := by
  unfold cutPage
  rw [List.take_take, Nat.min_eq_left (Nat.le_succ limit), List.length_take]
  have hmore : limit < min (limit + 1) rows.length ↔ limit < rows.length := by omega
  simp only [hmore]

/-- Where every request is answered with the cut of what is left, in some presentation, following
the cursors ends and shows every row, in order. -/
theorem pages_of_cut {fetch : Option κ → Except ε (List β × Option κ)} {key : α → κ}
    {limit : Nat} (hlimit : 0 < limit) (present : List α → List β) (all : List α)
    (hfetch : ∀ seen left, all = seen ++ left → fetch (seen.getLast?.map key) =
      .ok (present (cutPage key limit left).1, (cutPage key limit left).2)) :
    ∃ chunks : List (List α), Pages fetch none (chunks.map present) ∧ chunks.flatten = all := by
  -- from any point of the list on, by induction on what is left
  have hgeneral : ∀ n, ∀ seen left : List α, left.length = n → all = seen ++ left →
      ∃ chunks : List (List α), Pages fetch (seen.getLast?.map key) (chunks.map present) ∧
        chunks.flatten = left := by
    intro n
    induction n using Nat.strong_induction_on with
    | _ n ih =>
        intro seen left hlength hall
        have hanswer := hfetch seen left hall
        by_cases hmore : limit < left.length
        · have htaken : (left.take limit).getLast? ≠ none := by
            rw [ne_eq, List.getLast?_eq_none_iff, List.take_eq_nil_iff]
            rintro (h | h)
            · omega
            · rw [h] at hmore
              simp at hmore
          obtain ⟨last, hlast⟩ := Option.ne_none_iff_exists'.mp htaken
          have hnext : (seen ++ left.take limit).getLast? = some last := by
            rw [List.getLast?_append, hlast]
            rfl
          obtain ⟨chunks, hpages, hflatten⟩ := ih (left.drop limit).length
            (by rw [List.length_drop]; omega) (seen ++ left.take limit) (left.drop limit) rfl
            (by rw [List.append_assoc, List.take_append_drop]; exact hall)
          rw [hnext] at hpages
          change Pages fetch (some (key last)) _ at hpages
          refine ⟨left.take limit :: chunks, ?_, ?_⟩
          · refine Pages.more ?_ hpages
            rw [hanswer]
            unfold cutPage
            rw [if_pos hmore, hlast]
            rfl
          · rw [List.flatten_cons, hflatten, List.take_append_drop]
        · refine ⟨[left], ?_, List.flatten_singleton⟩
          apply Pages.last
          rw [hanswer]
          unfold cutPage
          rw [if_neg hmore, List.take_of_length_le (Nat.le_of_not_lt hmore)]
  exact hgeneral all.length [] all rfl rfl

/-- The rows in reading order, when each page shows its rows oldest first or newest first. -/
def joinPages (chronological : Bool) (pages : List (List β)) : List β :=
  if chronological = true then pages.reverse.flatten else pages.flatten

/-- What is read is read from one of the pages. -/
theorem exists_page_of_mem_joinPages {chronological : Bool} {pages : List (List β)} {b : β}
    (h : b ∈ joinPages chronological pages) : ∃ page ∈ pages, b ∈ page := by
  unfold joinPages at h
  split at h
  · obtain ⟨page, hpage, hb⟩ := List.mem_flatten.mp h
    exact ⟨page, List.mem_reverse.mp hpage, hb⟩
  · exact List.mem_flatten.mp h

/-- Pages that each turn their rows around are joined the other way round. -/
theorem joinPages_map {f : α → β} (chronological : Bool) (chunks : List (List α)) :
    joinPages chronological
        (chunks.map fun rows => (if chronological = true then rows.reverse else rows).map f) =
      (if chronological = true then chunks.flatten.reverse else chunks.flatten).map f := by
  unfold joinPages
  cases chronological with
  | true =>
      simp only [if_true]
      rw [List.reverse_flatten, List.map_flatten, ← List.map_reverse, ← List.map_reverse,
        List.map_map]
      rfl
  | false =>
      simp only [Bool.false_eq_true, if_false]
      rw [List.map_flatten]

end Pages

/-! ## Sorted selections -/

section Sorted

variable {α : Type} {le : α → α → Prop} [DecidableRel le] [Std.Total le] [IsTrans α le]

/-- What is left of a sorted selection after one of its rows is the sorted selection of the rows
that do not come before it. -/
theorem insertionSort_after {p q : α → Prop} [DecidablePred p] [DecidablePred q]
    {rows seen left : List α} {last : α} (hnodup : rows.Nodup)
    (hanti : ∀ a ∈ rows, ∀ b ∈ rows, le a b → le b a → a = b)
    (hsorted : (rows.filter fun r => p r).insertionSort le = seen ++ left)
    (hlast : seen.getLast? = some last)
    (hafter : ∀ r ∈ rows, q r ↔ p r ∧ ¬ le r last) :
    (rows.filter fun r => q r).insertionSort le = left := by
  have hpairwise := List.pairwise_insertionSort le (rows.filter fun r => p r)
  have hperm := List.perm_insertionSort le (rows.filter fun r => p r)
  have hall : (seen ++ left).Nodup := by
    rw [← hsorted]
    exact hperm.nodup_iff.mpr (hnodup.filter _)
  rw [hsorted] at hpairwise hperm
  have hmem : ∀ r, r ∈ seen ++ left ↔ r ∈ rows ∧ p r := by
    intro r
    rw [hperm.mem_iff, List.mem_filter, decide_eq_true_eq]
  obtain ⟨front, rfl⟩ : ∃ front, seen = front ++ [last] := by
    obtain ⟨hne, heq⟩ := List.getLast?_eq_some_iff.mp hlast
    exact ⟨hne, heq⟩
  obtain ⟨hseen, hleft, hbetween⟩ := List.pairwise_append.mp hpairwise
  have hlastMem : last ∈ rows :=
    ((hmem last).mp (List.mem_append_left _ (List.mem_append_right _ List.mem_cons_self))).1
  apply insertionSort_unique _ hleft
  · intro a ha b hb
    exact hanti a (List.mem_filter.mp ha).1 b (List.mem_filter.mp hb).1
  · rw [List.perm_ext_iff_of_nodup (hnodup.filter _) (List.nodup_append.mp hall).2.1]
    intro r
    rw [List.mem_filter, decide_eq_true_eq]
    constructor
    · rintro ⟨hr, hq⟩
      obtain ⟨hp, hnot⟩ := (hafter r hr).mp hq
      rcases List.mem_append.mp ((hmem r).mpr ⟨hr, hp⟩) with hin | hin
      · exfalso
        apply hnot
        rcases List.mem_append.mp hin with hfront | hsingle
        · exact (List.pairwise_append.mp hseen).2.2 r hfront last List.mem_cons_self
        · rw [List.mem_singleton.mp hsingle]
          exact (Std.Total.total last last).elim id id
      · exact hin
    · intro hr
      obtain ⟨hrow, hp⟩ := (hmem r).mp (List.mem_append_right _ hr)
      refine ⟨hrow, (hafter r hrow).mpr ⟨hp, fun hle => ?_⟩⟩
      have hlastSeen : last ∈ front ++ [last] := List.mem_append_right _ List.mem_cons_self
      have hsame : r = last := hanti r hrow last hlastMem hle (hbetween last hlastSeen r hr)
      have hdisjoint := (List.nodup_append.mp hall).2.2
      exact hdisjoint last hlastSeen r hr hsame.symm

end Sorted

/-! ## Listings of a table -/

section Listings

variable {α β ε κ : Type} {key : α → κ}

/-- Following the cursors ends, and the pages put together show exactly the selected rows of the
table, each once and in order. -/
def ListsExactly (fetch : Option κ → Except ε (List β × Option κ)) (chronological : Bool)
    (t : Table α κ key) (selected : α → Prop) (precedes : α → α → Prop) (shows : α → β → Prop) :
    Prop :=
  ∃ pages rows, Pages fetch none pages ∧ (∀ r, r ∈ rows ↔ r ∈ t ∧ selected r) ∧ rows.Nodup ∧
    rows.Pairwise precedes ∧ List.Forall₂ shows rows (joinPages chronological pages)

variable {order : α → α → Prop} [DecidableRel order]
variable {selected : α → Prop} [DecidablePred selected] {t : Table α κ key}

/-- The selected rows beyond a cursor, in order. -/
def rowsBeyond (order : α → α → Prop) [DecidableRel order] (selected : α → Prop)
    [DecidablePred selected] (t : Table α κ key) (cursor : Option α) : List α :=
  (t.rows.filter fun r => selected r ∧ cursor.all fun c => decide (¬ order r c)).insertionSort order

theorem rowsBeyond_none :
    rowsBeyond order selected t none =
      (t.rows.filter fun r => selected r).insertionSort order := by
  unfold rowsBeyond
  simp

theorem mem_rowsBeyond_none {r : α} : r ∈ rowsBeyond order selected t none ↔ r ∈ t ∧ selected r := by
  rw [rowsBeyond_none, List.mem_insertionSort, List.mem_filter, decide_eq_true_eq]
  exact Iff.rfl

theorem rowsBeyond_none_nodup : (rowsBeyond order selected t none).Nodup := by
  rw [rowsBeyond_none]
  exact (List.perm_insertionSort order _).nodup_iff.mpr (t.rows_nodup.filter _)

/-- What is left of a listing is what lies beyond the last row that was seen. -/
theorem rowsBeyond_getLast? [Std.Total order] [IsTrans α order] {seen left : List α}
    (hanti : ∀ a ∈ t, ∀ b ∈ t, order a b → order b a → a = b)
    (hsplit : rowsBeyond order selected t none = seen ++ left) :
    rowsBeyond order selected t seen.getLast? = left := by
  cases hlast : seen.getLast? with
  | none =>
      rw [List.getLast?_eq_none_iff.mp hlast] at hsplit
      exact hsplit
  | some last =>
      rw [rowsBeyond_none] at hsplit
      apply insertionSort_after t.rows_nodup hanti hsplit hlast
      intro r _
      simp

/-- A listing that answers each request with the cut of the selected rows beyond its cursor. -/
theorem lists_exactly [Std.Total order] [IsTrans α order]
    {fetch : Option κ → Except ε (List β × Option κ)} {chronological : Bool}
    {limit : Nat} {shown : α → β} {shows : α → β → Prop} {precedes : α → α → Prop}
    (hlimit : 0 < limit) (hanti : ∀ a ∈ t, ∀ b ∈ t, order a b → order b a → a = b)
    (hshown : ∀ r ∈ t, selected r → shows r (shown r))
    (hprecedes : ∀ a ∈ t, ∀ b ∈ t, selected a → selected b → order a b → a ≠ b →
      if chronological = true then precedes b a else precedes a b)
    (hfetch : ∀ cursor : Option α, (∀ c ∈ cursor, c ∈ t ∧ selected c) →
      fetch (cursor.map key) = .ok
        ((if chronological = true then
            (cutPage key limit (rowsBeyond order selected t cursor)).1.reverse
          else (cutPage key limit (rowsBeyond order selected t cursor)).1).map shown,
          (cutPage key limit (rowsBeyond order selected t cursor)).2)) :
    ListsExactly fetch chronological t selected precedes shows := by
  have hmem : ∀ r, r ∈ rowsBeyond order selected t none ↔ r ∈ t ∧ selected r :=
    fun _ => mem_rowsBeyond_none
  have hcut : ∀ seen left, rowsBeyond order selected t none = seen ++ left →
      fetch (seen.getLast?.map key) = .ok
        ((if chronological = true then (cutPage key limit left).1.reverse
          else (cutPage key limit left).1).map shown, (cutPage key limit left).2) := by
    intro seen left hsplit
    have hcursor : ∀ c ∈ seen.getLast?, c ∈ t ∧ selected c := by
      intro c hc
      apply (hmem c).mp
      rw [hsplit]
      exact List.mem_append_left _ (List.mem_of_getLast? hc)
    rw [hfetch seen.getLast? hcursor, rowsBeyond_getLast? hanti hsplit]
  obtain ⟨chunks, hpages, hflatten⟩ := pages_of_cut hlimit
    (fun rows => (if chronological = true then rows.reverse else rows).map shown) _ hcut
  have hjoined := joinPages_map (f := shown) chronological chunks
  rw [hflatten] at hjoined
  have hstrict : (rowsBeyond order selected t none).Pairwise fun a b =>
      if chronological = true then precedes b a else precedes a b := by
    have hsorted : (rowsBeyond order selected t none).Pairwise order := by
      rw [rowsBeyond_none]
      exact List.pairwise_insertionSort order _
    apply (hsorted.and rowsBeyond_none_nodup).imp_of_mem
    intro a b ha hb hab
    obtain ⟨hat, hselecta⟩ := (hmem a).mp ha
    obtain ⟨hbt, hselectb⟩ := (hmem b).mp hb
    exact hprecedes a hat b hbt hselecta hselectb hab.1 hab.2
  refine ⟨_, if chronological = true then (rowsBeyond order selected t none).reverse
    else rowsBeyond order selected t none, hpages, ?_, ?_, ?_, ?_⟩
  · intro r
    rw [← hmem r]
    split
    · exact List.mem_reverse
    · exact Iff.rfl
  · split
    · exact List.nodup_reverse.mpr rowsBeyond_none_nodup
    · exact rowsBeyond_none_nodup
  · cases chronological with
    | true => exact List.pairwise_reverse.mpr hstrict
    | false => exact hstrict
  · rw [hjoined, List.forall₂_map_right_iff, List.forall₂_same]
    intro r hr
    have hin : r ∈ rowsBeyond order selected t none := by
      split at hr
      · exact List.mem_reverse.mp hr
      · exact hr
    obtain ⟨hrt, hselect⟩ := (hmem r).mp hin
    exact hshown r hrt hselect

theorem exists_right_of_forall₂ {shows : α → β → Prop} {rows : List α} {shown : List β}
    (h : List.Forall₂ shows rows shown) {r : α} (hr : r ∈ rows) : ∃ b ∈ shown, shows r b := by
  induction h with
  | nil => exact absurd hr List.not_mem_nil
  | cons hab _ ih =>
      rcases List.mem_cons.mp hr with rfl | hin
      · exact ⟨_, List.mem_cons_self, hab⟩
      · obtain ⟨b, hb, hrb⟩ := ih hin
        exact ⟨b, List.mem_cons_of_mem _ hb, hrb⟩

section Answers

variable {fetch : Option κ → Except ε (List β × Option κ)} {chronological : Bool}
variable {t : Table α κ key} {selected selected' : α → Prop} {precedes : α → α → Prop}
variable {shows : α → β → Prop}

theorem ListsExactly.mapError {ε' : Type} {f : ε → ε'}
    (h : ListsExactly fetch chronological t selected precedes shows) :
    ListsExactly (fun before => (fetch before).mapError f) chronological t selected precedes
      shows := by
  obtain ⟨pages, rows, hpages, hrest⟩ := h
  exact ⟨pages, rows, hpages.mapError, hrest⟩

/-- A selected row is shown on one of the pages. -/
theorem ListsExactly.shown (h : ListsExactly fetch chronological t selected precedes shows)
    {r : α} (hr : r ∈ t) (hselected : selected r) :
    ∃ pages, Pages fetch none pages ∧ ∃ page ∈ pages, ∃ b ∈ page, shows r b := by
  obtain ⟨pages, rows, hpages, hrows, -, -, hshown⟩ := h
  obtain ⟨b, hb, hshows⟩ := exists_right_of_forall₂ hshown ((hrows r).mpr ⟨hr, hselected⟩)
  obtain ⟨page, hpage, hmem⟩ := exists_page_of_mem_joinPages hb
  exact ⟨pages, hpages, page, hpage, b, hmem, hshows⟩

/-- One way of answering lists one selection. -/
theorem ListsExactly.selects (h : ListsExactly fetch chronological t selected precedes shows)
    (h' : ListsExactly fetch chronological t selected' precedes shows)
    (hshows : ∀ r ∈ t, ∀ s ∈ t, ∀ b, shows r b → shows s b → r = s) {r : α} (hr : r ∈ t)
    (hselected : selected r) : selected' r := by
  obtain ⟨pages, rows, hpages, hrows, -, -, hshown⟩ := h
  obtain ⟨pages', rows', hpages', hrows', -, -, hshown'⟩ := h'
  obtain rfl := hpages.unique hpages'
  obtain ⟨b, hb, hrb⟩ := exists_right_of_forall₂ hshown ((hrows r).mpr ⟨hr, hselected⟩)
  obtain ⟨s, hs, hsb⟩ := exists_right_of_forall₂ (List.Forall₂.flip hshown') hb
  obtain ⟨hst, hselects⟩ := (hrows' s).mp hs
  rwa [hshows r hr s hst b hrb hsb]

end Answers

end Listings

end Lib
end ChatEngine
