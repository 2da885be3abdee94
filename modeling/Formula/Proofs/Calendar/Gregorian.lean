import Formula.Proofs.Calendar
import Mathlib.Tactic.IntervalCases

/-! The calendar has the dates and the day numbers of the proleptic Gregorian calendar in the
standard library. -/

namespace Formula.Calendar

open Std.Time

def gregorianLength (year : Int) (month : Nat) : Nat :=
  if listed : 1 ≤ month ∧ month ≤ 12 then
    (Month.Ordinal.days (Year.Offset.ofInt year).isLeap (.ofNat month listed)).toNat
  else 0

theorem isLeap_eq_gregorian (year : Int) : isLeap year = (Year.Offset.ofInt year).isLeap := by
  have divides (n : Int) : year.tmod n = 0 ↔ year % n = 0 := by
    rw [← Int.dvd_iff_tmod_eq_zero, Int.dvd_iff_emod_eq_zero]
  rw [Bool.eq_iff_iff, isLeap_iff, Year.Offset.isLeap, decide_eq_true_iff]
  simp only [Year.Offset.toInt, Year.Offset.ofInt, divides, ne_eq]

theorem daysInMonth_eq_gregorianLength (year : Int) (month : Nat) :
    daysInMonth year month = gregorianLength year month := by
  by_cases listed : 1 ≤ month ∧ month ≤ 12
  · rw [gregorianLength, dif_pos listed, ← isLeap_eq_gregorian, daysInMonth, monthLengths]
    obtain ⟨first, last⟩ := listed
    cases isLeap year <;> interval_cases month <;> rfl
  · rw [gregorianLength, dif_neg listed, daysInMonth, List.getD_eq_getElem?_getD]
    obtain rfl | beyond : month = 0 ∨ 13 ≤ month := by omega
    · rfl
    · have absent : (0 :: monthLengths year)[month]? = none := List.getElem?_eq_none beyond
      rw [absent]
      rfl

theorem gregorianLength_of_month {year : Int} {month : Nat} {ordinal : Month.Ordinal}
    (same : ordinal.val = month) :
    gregorianLength year month = (ordinal.days (Year.Offset.ofInt year).isLeap).toNat := by
  have listed : 1 ≤ month ∧ month ≤ 12 := by
    have bounds := ordinal.property
    omega
  have ordinal' : Month.Ordinal.ofNat month listed = ordinal := Subtype.ext same.symm
  rw [gregorianLength, dif_pos listed, ordinal']

namespace Date

structure Denotes (date : Date) (plain : PlainDate) : Prop where
  year : plain.year.toInt = date.year
  month : plain.month.val = date.month
  day : plain.day.val = date.day

theorem valid_iff {date : Date} {month : Month.Ordinal} {day : Day.Ordinal}
    (sameMonth : month.val = date.month) (sameDay : day.val = date.day) :
    (Year.Offset.ofInt date.year).Valid month day ↔
      date.day ≤ daysInMonth date.year date.month := by
  have positive := (month.days (Year.Offset.ofInt date.year).isLeap).property.1
  rw [daysInMonth_eq_gregorianLength, gregorianLength_of_month sameMonth]
  change day.val ≤ (month.days _).val ↔ date.day ≤ (month.days _).val.toNat
  omega

theorem exists_iff_denotes {date : Date} : date.Exists ↔ ∃ plain, date.Denotes plain := by
  constructor
  · intro exists'
    obtain ⟨first, last, firstDay, lastDay⟩ := exists'
    let month := Month.Ordinal.ofNat date.month ⟨first, last⟩
    let day := Day.Ordinal.ofNat date.day ⟨firstDay, lastDay.trans (daysInMonth_le _ _)⟩
    have valid : (Year.Offset.ofInt date.year).Valid month day := (valid_iff rfl rfl).mpr lastDay
    exact ⟨⟨_, month, day, valid⟩, rfl, rfl, rfl⟩
  · intro denotes
    obtain ⟨⟨year, month, day, valid⟩, sameYear, sameMonth, sameDay⟩ := denotes
    simp only at sameYear sameMonth sameDay
    have bounds := month.property
    have firstDay := day.property.1
    subst sameYear
    exact ⟨by omega, by omega, by omega, (valid_iff sameMonth sameDay).mp valid⟩

theorem era_eq (year : Int) :
    (if year ≥ 0 then year else year - 399).tdiv 400 = year / 400 := by
  split
  · rename_i positive
    exact Int.tdiv_eq_ediv_of_nonneg positive
  · rename_i negative
    calc
      (year - 399).tdiv 400 = (-(399 - year)).tdiv 400 := by rw [Int.neg_sub]
      _ = -((399 - year) / 400) := by
        rw [Int.neg_tdiv, Int.tdiv_eq_ediv_of_nonneg (by omega)]
      _ = year / 400 := by omega

theorem eraDays_eq (year : Int) :
    year / 400 * 146097 + (year % 400 * 365 + year % 400 / 4 - year % 400 / 100) =
      daysBeforeYear (year + 1) - 366 := by
  have fourth : year / 4 = 100 * (year / 400) + year % 400 / 4 := by omega
  have hundredth : year / 100 = 4 * (year / 400) + year % 400 / 100 := by omega
  unfold daysBeforeYear
  omega

/-- The standard library counts years and months from March, so that the leap day is the last. -/
theorem toEpochDay_eq (plain : PlainDate) {year months : Int}
    (march : plain.year.toInt = year ∧ plain.month.val = months + 3 ∧ 0 ≤ months ∨
      plain.year.toInt = year + 1 ∧ plain.month.val = months - 9 ∧ months ≤ 11) :
    plain.toEpochDay.val =
      daysBeforeYear (year + 1) - 366 + (153 * months + 2) / 5 + (plain.day.val - 1) - 719468 := by
  have unfolded : ∃ year' months' : Int,
      year' = (if plain.month.val > 2 then plain.year.toInt else plain.year.toInt - 1) ∧
      months' = plain.month.val + (if plain.month.val > 2 then -3 else 9) ∧
      plain.toEpochDay.val =
        (if year' ≥ 0 then year' else year' - 399).tdiv 400 * 146097 +
          ((year' - (if year' ≥ 0 then year' else year' - 399).tdiv 400 * 400) * 365 +
            (year' - (if year' ≥ 0 then year' else year' - 399).tdiv 400 * 400).tdiv 4 -
            (year' - (if year' ≥ 0 then year' else year' - 399).tdiv 400 * 400).tdiv 100 +
            ((153 * months' + 2).tdiv 5 + plain.day.val - 1)) - 719468 := ⟨_, _, rfl, rfl, rfl⟩
  obtain ⟨year', months', sameYear, sameMonths, unfolded⟩ := unfolded
  have first := plain.month.property.1
  have years : year' = year := by
    rw [sameYear]
    split <;> omega
  have months : months' = months := by
    rw [sameMonths]
    split <;> omega
  have yearOfEra : year - year / 400 * 400 = year % 400 := by omega
  rw [unfolded, years, months, era_eq, yearOfEra, Int.tdiv_eq_ediv_of_nonneg (by omega),
    Int.tdiv_eq_ediv_of_nonneg (by omega), Int.tdiv_eq_ediv_of_nonneg (by omega), ← eraDays_eq]
  omega

theorem days_take_of_le (year : Int) {month : Nat} (first : 1 ≤ month) (early : month ≤ 2) :
    (days ((monthLengths year).take (month - 1)) : Int) = (153 * (month + 9) + 2) / 5 - 306 := by
  interval_cases month <;> rfl

theorem days_take_of_lt (year : Int) {month : Nat} (late : 2 < month) (last : month ≤ 12) :
    (days ((monthLengths year).take (month - 1)) : Int) =
      days (monthLengths year) - 306 + (153 * (month - 3) + 2) / 5 := by
  unfold monthLengths
  cases isLeap year <;> interval_cases month <;> rfl

theorem dayNumber_sub_epoch {date : Date} {plain : PlainDate} (denotes : date.Denotes plain) :
    date.dayNumber - epoch = plain.toEpochDay.val := by
  obtain ⟨sameYear, sameMonth, sameDay⟩ := denotes
  have bounds := plain.month.property
  rw [sameMonth] at bounds
  have start : epoch = 719528 := rfl
  obtain late | early := Nat.lt_or_ge 2 date.month
  · have same : plain.month.val = (date.month - 3 : Int) + 3 := by omega
    have counted := toEpochDay_eq plain (.inl ⟨sameYear, same, by omega⟩)
    have before := days_take_of_lt date.year late (by omega)
    rw [daysBeforeYear_succ] at counted
    rw [counted, dayNumber, start, before, sameDay]
    omega
  · have same : plain.month.val = (date.month + 9 : Int) - 9 := by omega
    have sameYear' : plain.year.toInt = (date.year - 1) + 1 := by omega
    have counted := toEpochDay_eq plain (.inr ⟨sameYear', same, by omega⟩)
    have before := days_take_of_le date.year (by omega) early
    rw [Int.sub_add_cancel] at counted
    rw [counted, dayNumber, start, before, sameDay]
    omega

end Date

end Formula.Calendar
