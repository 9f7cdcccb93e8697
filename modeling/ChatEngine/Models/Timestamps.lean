import ChatEngine.Lib.Digits
import ChatEngine.Lib.Table
import ChatEngine.Models.Content

/-!
# Timestamps as text

The SQLite store writes every timestamp with `isoformat` and compares the texts.

* `Datetime`, a `datetime` in UTC, with `Datetime.isoformat` and `Datetime.timestamp`;
* `ordinal_lt_iff` and `timestamp_lt_iff`: instants compare as their fields do, the year first;
* `isoformat_lt_iff`: so do the texts, also where one has a fraction and the other has none;
* `isoformat_order`: the texts compare as the instants do, alone and before an id.
-/

namespace ChatEngine
namespace Models

open Lib

/-! ## Dates -/

/-- `_is_leap`. -/
def isLeap (year : Nat) : Bool :=
  year % 4 = 0 ∧ (year % 100 ≠ 0 ∨ year % 400 = 0)

/-- `_days_in_month`. -/
def daysInMonth (leap : Bool) (month : Nat) : Nat :=
  if month = 2 ∧ leap = true then 29
  else [0, 31, 28, 31, 30, 31, 30, 31, 31, 30, 31, 30, 31].getD month 0

/-- `_days_before_month`. -/
def daysBeforeMonth (leap : Bool) (month : Nat) : Nat :=
  [0, 0, 31, 59, 90, 120, 151, 181, 212, 243, 273, 304, 334].getD month 0 +
    if 2 < month ∧ leap = true then 1 else 0

/-- `_days_before_year`. -/
def daysBeforeYear (year : Nat) : Nat :=
  let y := year - 1
  y * 365 + y / 4 - y / 100 + y / 400

/-- A `datetime` whose `tzinfo` is UTC. -/
structure Datetime where
  year : Nat
  month : Nat
  day : Nat
  hour : Nat
  minute : Nat
  second : Nat
  microsecond : Nat
  year_valid : 1 ≤ year ∧ year ≤ 9999
  month_valid : 1 ≤ month ∧ month ≤ 12
  day_valid : 1 ≤ day ∧ day ≤ daysInMonth (isLeap year) month
  hour_valid : hour < 24
  minute_valid : minute < 60
  second_valid : second < 60
  microsecond_valid : microsecond < 1_000_000

namespace Datetime

/-- `toordinal`, by `_ymd2ord`. -/
def ordinal (d : Datetime) : Nat :=
  daysBeforeYear d.year + daysBeforeMonth (isLeap d.year) d.month + d.day

/-- The seconds of the day. -/
def clock (d : Datetime) : Nat := (d.hour * 60 + d.minute) * 60 + d.second

/-- The instant, in microseconds since the epoch, whose ordinal is 719163. -/
def timestamp (d : Datetime) : Timestamp :=
  (((d.ordinal * 86_400 + d.clock) * 1_000_000 + d.microsecond : Nat) : Int) -
    days 719_163

/-- The fraction of a second, which `isoformat` leaves out where it is zero. -/
def fraction (microsecond : Nat) : List Char :=
  if microsecond = 0 then [] else '.' :: columns 6 microsecond

/-- The offset of UTC. -/
def utcOffset : List Char := ['+', '0', '0', ':', '0', '0']

/-- `isoformat`, by `_format_time` and `_format_offset`. -/
def isoformat (d : Datetime) : String :=
  String.ofList
    (columns 4 d.year ++ '-' :: (columns 2 d.month ++ '-' :: (columns 2 d.day ++ 'T' ::
      (columns 2 d.hour ++ ':' :: (columns 2 d.minute ++ ':' :: (columns 2 d.second ++
        (fraction d.microsecond ++ utcOffset)))))))

example : isoformat ⟨2026, 1, 31, 9, 5, 0, 0, by decide, by decide, by decide, by decide,
    by decide, by decide, by decide⟩ = "2026-01-31T09:05:00+00:00" := by decide

example : timestamp ⟨1970, 1, 1, 0, 0, 1, 250, by decide, by decide, by decide, by decide,
    by decide, by decide, by decide⟩ = 1_000_250 := by decide

end Datetime

/-! ## Instants -/

/-- Blocks that follow one another compare first, and the places inside a block second. -/
theorem lt_iff_blocks {x y p q : Nat} {inner : Prop} (hlt : x < y → p < q) (hgt : y < x → q < p)
    (heq : x = y → (p < q ↔ inner)) : p < q ↔ x < y ∨ x = y ∧ inner := by
  rcases Nat.lt_trichotomy x y with h | h | h
  · exact iff_of_true (hlt h) (.inl h)
  · rw [heq h]
    constructor
    · exact fun hinner => .inr ⟨h, hinner⟩
    · rintro (hless | ⟨-, hinner⟩)
      · exact absurd hless (by omega)
      · exact hinner
  · apply iff_of_false
    · exact fun hless => absurd (hgt h) (by omega)
    · rintro (hless | ⟨hsame, -⟩) <;> omega

theorem daysBeforeYear_succ {year : Nat} (h : 1 ≤ year) :
    daysBeforeYear (year + 1) = daysBeforeYear year + if isLeap year then 366 else 365 := by
  obtain ⟨y, rfl⟩ : ∃ y, year = y + 1 := ⟨year - 1, by omega⟩
  have h4 : (y + 1) / 4 = y / 4 + if 4 ∣ y + 1 then 1 else 0 := Nat.succ_div
  have h100 : (y + 1) / 100 = y / 100 + if 100 ∣ y + 1 then 1 else 0 := Nat.succ_div
  have h400 : (y + 1) / 400 = y / 400 + if 400 ∣ y + 1 then 1 else 0 := Nat.succ_div
  have hle : y / 100 ≤ y := Nat.div_le_self y 100
  have hleap : isLeap (y + 1) = true ↔ 4 ∣ y + 1 ∧ (¬ 100 ∣ y + 1 ∨ 400 ∣ y + 1) := by
    unfold isLeap
    rw [decide_eq_true_eq, Nat.dvd_iff_mod_eq_zero, Nat.dvd_iff_mod_eq_zero,
      Nat.dvd_iff_mod_eq_zero]
  have hcentury : 100 ∣ y + 1 → 4 ∣ y + 1 := Nat.dvd_trans (by decide)
  have hfour : 400 ∣ y + 1 → 100 ∣ y + 1 := Nat.dvd_trans (by decide)
  show (y + 1) * 365 + (y + 1) / 4 - (y + 1) / 100 + (y + 1) / 400 =
    y * 365 + y / 4 - y / 100 + y / 400 + _
  rw [h4, h100, h400]
  generalize y / 4 = q, y / 100 = c, y / 400 = e at *
  by_cases hd4 : 4 ∣ y + 1
  · by_cases hd100 : 100 ∣ y + 1
    · by_cases hd400 : 400 ∣ y + 1
      · rw [if_pos hd4, if_pos hd100, if_pos hd400, if_pos (hleap.mpr ⟨hd4, .inr hd400⟩)]
        omega
      · have hcommon : ¬ isLeap (y + 1) = true := fun h =>
          (hleap.mp h).2.elim (fun hnot => hnot hd100) hd400
        rw [if_pos hd4, if_pos hd100, if_neg hd400, if_neg hcommon]
        omega
    · rw [if_pos hd4, if_neg hd100, if_neg (fun h => hd100 (hfour h)),
        if_pos (hleap.mpr ⟨hd4, .inl hd100⟩)]
      omega
  · have hd100 : ¬ 100 ∣ y + 1 := fun h => hd4 (hcentury h)
    rw [if_neg hd4, if_neg hd100, if_neg (fun h => hd100 (hfour h)),
      if_neg (fun h => hd4 (hleap.mp h).1)]
    omega

theorem daysBeforeYear_lt {year later : Nat} (h : 1 ≤ year) (hlt : year < later) :
    daysBeforeYear year + (if isLeap year then 366 else 365) ≤ daysBeforeYear later := by
  induction later, hlt using Nat.le_induction with
  | base => rw [Nat.succ_eq_add_one, daysBeforeYear_succ h]
  | succ later hle ih =>
      rw [daysBeforeYear_succ (by omega)]
      omega

theorem daysBeforeMonth_le (leap : Bool) {month : Nat} (h : month ≤ 12) :
    daysBeforeMonth leap month + daysInMonth leap month ≤ if leap then 366 else 365 := by
  revert leap month
  decide

theorem daysBeforeMonth_lt (leap : Bool) {month later : Nat} (h : 1 ≤ month) (hlt : month < later)
    (hlater : later ≤ 12) :
    daysBeforeMonth leap month + daysInMonth leap month ≤ daysBeforeMonth leap later := by
  have hall : ∀ leap, ∀ later ≤ 12, ∀ month < later, 1 ≤ month →
      daysBeforeMonth leap month + daysInMonth leap month ≤ daysBeforeMonth leap later := by
    decide
  exact hall leap later hlater month hlt h

variable (a b : Datetime)

/-- A day lies in its year. -/
theorem ordinal_le : a.ordinal ≤ daysBeforeYear a.year + if isLeap a.year then 366 else 365 := by
  have hmonth := daysBeforeMonth_le (isLeap a.year) a.month_valid.2
  have hday := a.day_valid.2
  unfold Datetime.ordinal
  omega

theorem ordinal_lt_iff :
    a.ordinal < b.ordinal ↔
      a.year < b.year ∨ a.year = b.year ∧
        (a.month < b.month ∨ a.month = b.month ∧ a.day < b.day) := by
  have hlater : ∀ {c d : Datetime}, c.year < d.year → c.ordinal < d.ordinal := by
    intro c d hlt
    have hyears := daysBeforeYear_lt c.year_valid.1 hlt
    have hday := d.day_valid.1
    calc c.ordinal
        ≤ daysBeforeYear c.year + if isLeap c.year then 366 else 365 := ordinal_le c
      _ ≤ daysBeforeYear d.year := hyears
      _ < d.ordinal := by
        unfold Datetime.ordinal
        omega
  refine lt_iff_blocks hlater hlater fun hyear => lt_iff_blocks ?_ ?_ ?_
  · intro hlt
    have hmonths := daysBeforeMonth_lt (isLeap a.year) a.month_valid.1 hlt b.month_valid.2
    have hday := a.day_valid.2
    have hday' := b.day_valid.1
    unfold Datetime.ordinal
    rw [← hyear]
    omega
  · intro hlt
    have hmonths := daysBeforeMonth_lt (isLeap b.year) b.month_valid.1 hlt a.month_valid.2
    have hday := b.day_valid.2
    have hday' := a.day_valid.1
    unfold Datetime.ordinal
    rw [hyear]
    omega
  · intro hmonth
    unfold Datetime.ordinal
    rw [hyear, hmonth]
    omega

/-- The fields in order, each only where those before it agree. -/
def FieldsBefore : Prop :=
  a.year < b.year ∨ a.year = b.year ∧ (a.month < b.month ∨ a.month = b.month ∧
    (a.day < b.day ∨ a.day = b.day ∧ (a.hour < b.hour ∨ a.hour = b.hour ∧
      (a.minute < b.minute ∨ a.minute = b.minute ∧ (a.second < b.second ∨ a.second = b.second ∧
        a.microsecond < b.microsecond)))))

theorem timestamp_lt_iff : a.timestamp < b.timestamp ↔ FieldsBefore a b := by
  have hhour := a.hour_valid
  have hminute := a.minute_valid
  have hsecond := a.second_valid
  have hmicrosecond := a.microsecond_valid
  have hhour' := b.hour_valid
  have hminute' := b.minute_valid
  have hsecond' := b.second_valid
  have hmicrosecond' := b.microsecond_valid
  have hclock : a.clock < 86_400 := by
    unfold Datetime.clock
    omega
  have hclock' : b.clock < 86_400 := by
    unfold Datetime.clock
    omega
  have htimestamp : a.timestamp < b.timestamp ↔ a.ordinal < b.ordinal ∨ a.ordinal = b.ordinal ∧
      (a.clock < b.clock ∨ a.clock = b.clock ∧ a.microsecond < b.microsecond) := by
    have hmicros : a.timestamp < b.timestamp ↔
        (a.ordinal * 86_400 + a.clock) * 1_000_000 + a.microsecond <
          (b.ordinal * 86_400 + b.clock) * 1_000_000 + b.microsecond :=
      (sub_lt_sub_iff_right _).trans Nat.cast_lt
    rw [hmicros]
    refine lt_iff_blocks ?_ ?_ fun hday => lt_iff_blocks ?_ ?_ ?_
    · omega
    · omega
    · rw [hday]
      omega
    · rw [hday]
      omega
    · rw [hday]
      omega
  have hclocks : a.clock < b.clock ∨ a.clock = b.clock ∧ a.microsecond < b.microsecond ↔
      a.hour < b.hour ∨ a.hour = b.hour ∧ (a.minute < b.minute ∨ a.minute = b.minute ∧
        (a.second < b.second ∨ a.second = b.second ∧ a.microsecond < b.microsecond)) := by
    unfold Datetime.clock
    omega
  have hdays := ordinal_lt_iff a b
  have hdays' := ordinal_lt_iff b a
  rw [htimestamp, hclocks]
  unfold FieldsBefore
  omega

/-! ## Texts -/

/-- `+`, with which the offset starts, is below `.`, with which a fraction starts. -/
theorem fraction_lt_iff {m n : Nat} (hm : m < 1_000_000) (hn : n < 1_000_000) :
    Datetime.fraction m ++ Datetime.utcOffset < Datetime.fraction n ++ Datetime.utcOffset ↔ m < n := by
  unfold Datetime.fraction
  by_cases hm0 : m = 0
  · by_cases hn0 : n = 0
    · rw [if_pos hm0, if_pos hn0]
      apply iff_of_false (List.lt_irrefl _)
      omega
    · rw [if_pos hm0, if_neg hn0]
      refine iff_of_true ?_ (by omega)
      exact List.cons_lt_cons_iff.mpr (.inl (by decide))
  · by_cases hn0 : n = 0
    · rw [if_neg hm0, if_pos hn0]
      apply iff_of_false
      · intro hlt
        rcases List.cons_lt_cons_iff.mp hlt with hhead | ⟨hhead, -⟩
        · exact absurd hhead (by decide)
        · exact absurd hhead (by decide)
      · omega
    · rw [if_neg hm0, if_neg hn0, List.cons_append, List.cons_append, List.cons_lt_cons_self,
        columns_append_lt_iff hm hn]
      constructor
      · rintro (h | ⟨-, h⟩)
        · exact h
        · exact absurd h (List.lt_irrefl _)
      · exact .inl

theorem isoformat_lt_iff : a.isoformat < b.isoformat ↔ FieldsBefore a b := by
  have hmonth := a.month_valid
  have hmonth' := b.month_valid
  have hday : ∀ d : Datetime, d.day < 10 ^ 2 := by
    intro d
    have hle : ∀ leap, ∀ month ≤ 12, daysInMonth leap month < 10 ^ 2 := by decide
    exact Nat.lt_of_le_of_lt d.day_valid.2 (hle _ _ d.month_valid.2)
  rw [String.lt_iff]
  unfold Datetime.isoformat FieldsBefore
  rw [String.toList_ofList, String.toList_ofList,
    columns_append_lt_iff (Nat.lt_succ_of_le a.year_valid.2) (Nat.lt_succ_of_le b.year_valid.2),
    List.cons_lt_cons_self, columns_append_lt_iff (by omega) (by omega),
    List.cons_lt_cons_self, columns_append_lt_iff (hday a) (hday b),
    List.cons_lt_cons_self, columns_append_lt_iff (by have := a.hour_valid; omega)
      (by have := b.hour_valid; omega),
    List.cons_lt_cons_self, columns_append_lt_iff (by have := a.minute_valid; omega)
      (by have := b.minute_valid; omega),
    List.cons_lt_cons_self, columns_append_lt_iff (by have := a.second_valid; omega)
      (by have := b.second_valid; omega),
    fraction_lt_iff a.microsecond_valid b.microsecond_valid]

theorem isoformat_eq_iff : a.isoformat = b.isoformat ↔ a.timestamp = b.timestamp := by
  have hless := (isoformat_lt_iff a b).trans (timestamp_lt_iff a b).symm
  have hmore := (isoformat_lt_iff b a).trans (timestamp_lt_iff b a).symm
  constructor
  · intro heq
    rw [heq] at hless hmore
    exact le_antisymm (not_lt.mp fun h => lt_irrefl _ (hmore.mpr h))
      (not_lt.mp fun h => lt_irrefl _ (hless.mpr h))
  · intro heq
    rw [heq] at hless hmore
    exact le_antisymm (not_lt.mp fun h => lt_irrefl _ (hmore.mp h))
      (not_lt.mp fun h => lt_irrefl _ (hless.mp h))

section Columns

variable {α κ : Type} [LinearOrder κ] {time : α → Timestamp} {key : α → κ} {written : α → Datetime}

/-- Rows are in the order of their texts where they are in the order of their instants. -/
theorem timeKeyLe_isoformat {r s : α} (hr : (written r).timestamp = time r)
    (hs : (written s).timestamp = time s) :
    timeKeyLe (fun x => (written x).isoformat) key r s ↔ timeKeyLe time key r s := by
  unfold timeKeyLe
  rw [isoformat_lt_iff, ← timestamp_lt_iff, isoformat_eq_iff, hr, hs]

/-- What a statement selects by a column of texts. -/
theorem firstBy_isoformat {rows : List α} (hrows : ∀ r ∈ rows, (written r).timestamp = time r)
    (n : Nat) :
    firstBy (timeKeyLe (fun x => (written x).isoformat) key) n rows =
      firstBy (timeKeyLe time key) n rows :=
  firstBy_congr (fun r hr s hs => timeKeyLe_isoformat (hrows r hr) (hrows s hs)) n

end Columns

/-- The texts of two timestamps compare as the instants do, also where an id decides between
rows of one timestamp. -/
theorem isoformat_order :
    (a.isoformat < b.isoformat ↔ a.timestamp < b.timestamp) ∧
      (a.isoformat ≤ b.isoformat ↔ a.timestamp ≤ b.timestamp) ∧
      (a.isoformat = b.isoformat ↔ a.timestamp = b.timestamp) ∧
      ∀ id id' : String,
        (a.isoformat < b.isoformat ∨ a.isoformat = b.isoformat ∧ id < id' ↔
          a.timestamp < b.timestamp ∨ a.timestamp = b.timestamp ∧ id < id') := by
  have hless : ∀ c d : Datetime, c.isoformat < d.isoformat ↔ c.timestamp < d.timestamp :=
    fun c d => (isoformat_lt_iff c d).trans (timestamp_lt_iff c d).symm
  refine ⟨hless a b, ?_, isoformat_eq_iff a b, ?_⟩
  · rw [← not_lt, ← not_lt, hless]
  · intro id id'
    rw [hless, isoformat_eq_iff]

end Models
end ChatEngine
