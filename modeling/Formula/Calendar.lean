/-! The proleptic Gregorian calendar: lengths of months, and dates as day numbers. -/

namespace Formula.Calendar

def isLeap (year : Int) : Bool := year % 4 == 0 && (year % 100 != 0 || year % 400 == 0)

def monthLengths (year : Int) : List Nat :=
  [31, if isLeap year then 29 else 28, 31, 30, 31, 30, 31, 31, 30, 31, 30, 31]

/-- Months count from one; any other month has no days. -/
def daysInMonth (year : Int) (month : Nat) : Nat := (0 :: monthLengths year).getD month 0

def days : List Nat → Nat
  | [] => 0
  | length :: lengths => length + days lengths

/-- The number of days from the start of year 0 to the start of `year`. -/
def daysBeforeYear (year : Int) : Int :=
  365 * year + (year + 3) / 4 - (year + 99) / 100 + (year + 399) / 400

theorem isLeap_iff (year : Int) :
    isLeap year ↔ year % 4 = 0 ∧ (year % 100 ≠ 0 ∨ year % 400 = 0) := by
  simp [isLeap]

theorem daysBeforeYear_succ (year : Int) :
    daysBeforeYear (year + 1) = daysBeforeYear year + days (monthLengths year) := by
  by_cases h : isLeap year
  · have total : days (monthLengths year) = 366 := by simp [monthLengths, days, h]
    have leap := (isLeap_iff year).1 h
    rw [total, daysBeforeYear, daysBeforeYear]
    omega
  · have total : days (monthLengths year) = 365 := by simp [monthLengths, days, h]
    have common := mt (isLeap_iff year).2 h
    rw [total, daysBeforeYear, daysBeforeYear]
    omega

structure Date where
  year : Int
  month : Nat
  day : Nat
  deriving DecidableEq, Repr

namespace Date

def Exists (date : Date) : Prop :=
  1 ≤ date.month ∧ date.month ≤ 12 ∧ 1 ≤ date.day ∧ date.day ≤ daysInMonth date.year date.month

def dayNumber (date : Date) : Int :=
  daysBeforeYear date.year + days ((monthLengths date.year).take (date.month - 1)) + (date.day - 1)

end Date

/-- The mean length of a year gives the year of a day, or the one before or after it. -/
def yearOfDay (number : Int) : Int :=
  let year := 400 * number / 146097
  if number < daysBeforeYear year then year - 1
  else if number < daysBeforeYear (year + 1) then year
  else year + 1

theorem yearOfDay_spec (number : Int) :
    daysBeforeYear (yearOfDay number) ≤ number ∧
      number < daysBeforeYear (yearOfDay number + 1) := by
  have lower : daysBeforeYear (400 * number / 146097 - 1) ≤ number := by
    unfold daysBeforeYear
    omega
  have upper : number < daysBeforeYear (400 * number / 146097 + 1 + 1) := by
    unfold daysBeforeYear
    omega
  simp only [yearOfDay]
  split
  · rename_i before
    exact ⟨lower, by simpa using before⟩
  · rename_i after
    split
    · rename_i within
      exact ⟨by omega, within⟩
    · rename_i beyond
      exact ⟨by omega, upper⟩

/-- The month, from one, and the day of the month at a distance from the first day of the first
month listed. -/
def monthAndDay : List Nat → Nat → Nat × Nat
  | [], distance => (1, distance + 1)
  | length :: lengths, distance =>
    if distance < length then (1, distance + 1)
    else
      let (month, day) := monthAndDay lengths (distance - length)
      (month + 1, day)

def Date.ofDayNumber (number : Int) : Date :=
  let year := yearOfDay number
  let (month, day) := monthAndDay (monthLengths year) (number - daysBeforeYear year).toNat
  ⟨year, month, day⟩

/-- The day number of 1 January 1970. -/
def epoch : Int := daysBeforeYear 1970

end Formula.Calendar
