import Formula.Instant

/-! Dates and day numbers, timestamps and instants are two names of the same thing. -/

namespace Formula

namespace Calendar

theorem daysBeforeYear_mono {year later : Int} (ordered : year ≤ later) :
    daysBeforeYear year ≤ daysBeforeYear later := by
  unfold daysBeforeYear
  omega

theorem yearOfDay_eq {number year : Int} (lower : daysBeforeYear year ≤ number)
    (upper : number < daysBeforeYear (year + 1)) : yearOfDay number = year := by
  rcases yearOfDay_spec number with ⟨lower', upper'⟩
  rcases Int.lt_trichotomy (yearOfDay number) year with before | same | after
  · have := daysBeforeYear_mono (Int.add_one_le_of_lt before)
    omega
  · exact same
  · have := daysBeforeYear_mono (Int.add_one_le_of_lt after)
    omega

theorem one_le_monthAndDay (lengths : List Nat) (distance : Nat) :
    1 ≤ (monthAndDay lengths distance).1 ∧ 1 ≤ (monthAndDay lengths distance).2 := by
  induction lengths generalizing distance with
  | nil => simp [monthAndDay]
  | cons length lengths ih =>
    unfold monthAndDay
    split
    · simp
    · exact ⟨Nat.le_add_left 1 _, (ih _).2⟩

theorem monthAndDay_spec {lengths : List Nat} {distance : Nat} (within : distance < days lengths) :
    (monthAndDay lengths distance).1 ≤ lengths.length ∧
      (monthAndDay lengths distance).2 ≤ lengths.getD ((monthAndDay lengths distance).1 - 1) 0 ∧
      days (lengths.take ((monthAndDay lengths distance).1 - 1)) +
        ((monthAndDay lengths distance).2 - 1) = distance := by
  induction lengths generalizing distance with
  | nil => exact absurd within (Nat.not_lt_zero _)
  | cons length lengths ih =>
    unfold monthAndDay
    split
    · rename_i first
      simpa [days] using Nat.succ_le_of_lt first
    · rename_i later
      rw [days] at within
      have within' : distance - length < days lengths := by omega
      rcases ih within' with ⟨listed, exists', same⟩
      obtain ⟨month, known⟩ : ∃ month, (monthAndDay lengths (distance - length)).1 = month + 1 :=
        ⟨_, (Nat.sub_add_cancel (one_le_monthAndDay _ _).1).symm⟩
      simp only [known, Nat.add_sub_cancel] at listed exists' same ⊢
      refine ⟨by simpa using listed, by simpa using exists', ?_⟩
      rw [List.take_succ_cons, days]
      omega

theorem monthAndDay_days_take {lengths : List Nat} {month day : Nat}
    (exists' : day < lengths.getD month 0) :
    monthAndDay lengths (days (lengths.take month) + day) = (month + 1, day + 1) := by
  induction lengths generalizing month with
  | nil => simp at exists'
  | cons length lengths ih =>
    cases month with
    | zero => simp_all [monthAndDay, days]
    | succ month =>
      have step := ih (by simpa using exists')
      have beyond : ¬ length + days (lengths.take month) + day < length := by omega
      have left : length + days (lengths.take month) + day - length =
          days (lengths.take month) + day := by omega
      simp only [List.take_succ_cons, days, monthAndDay, if_neg beyond, left, step]

theorem daysInMonth_eq (year : Int) {month : Nat} (positive : 1 ≤ month) :
    daysInMonth year month = (monthLengths year).getD (month - 1) 0 := by
  cases month with
  | zero => exact absurd positive (Nat.not_succ_le_zero 0)
  | succ month => simp [daysInMonth]

theorem daysInMonth_le (year : Int) (month : Nat) : daysInMonth year month ≤ 31 := by
  have all : ∀ length ∈ 0 :: monthLengths year, length ≤ 31 := by
    by_cases leap : isLeap year <;> simp [monthLengths, leap]
  rw [daysInMonth, List.getD_eq_getElem?_getD]
  cases found : (0 :: monthLengths year)[month]? with
  | none => simp
  | some length => exact all length (List.mem_of_getElem? found)

theorem days_take_add_lt {lengths : List Nat} {month day : Nat}
    (exists' : day < lengths.getD month 0) : days (lengths.take month) + day < days lengths := by
  induction lengths generalizing month with
  | nil => simp at exists'
  | cons length lengths ih =>
    cases month with
    | zero =>
      simp only [List.getD_cons_zero] at exists'
      simp only [List.take_zero, days]
      omega
    | succ month =>
      have step := ih (by simpa using exists')
      simp only [List.take_succ_cons, days]
      omega

namespace Date

theorem distance_lt (number : Int) :
    (number - daysBeforeYear (yearOfDay number)).toNat <
      days (monthLengths (yearOfDay number)) := by
  rcases yearOfDay_spec number with ⟨lower, upper⟩
  rw [daysBeforeYear_succ] at upper
  omega

theorem ofDayNumber_exists (number : Int) : (ofDayNumber number).Exists := by
  rcases monthAndDay_spec (distance_lt number) with ⟨listed, exists', -⟩
  obtain ⟨month, day⟩ := one_le_monthAndDay (monthLengths (yearOfDay number))
    (number - daysBeforeYear (yearOfDay number)).toNat
  rw [← daysInMonth_eq _ month] at exists'
  exact ⟨month, listed, day, exists'⟩

theorem dayNumber_ofDayNumber (number : Int) : (ofDayNumber number).dayNumber = number := by
  rcases monthAndDay_spec (distance_lt number) with ⟨-, -, same⟩
  have day := (one_le_monthAndDay (monthLengths (yearOfDay number))
    (number - daysBeforeYear (yearOfDay number)).toNat).2
  rcases yearOfDay_spec number with ⟨lower, -⟩
  simp only [dayNumber, ofDayNumber]
  omega

theorem Exists.day_lt {date : Date} (exists' : date.Exists) :
    date.day - 1 < (monthLengths date.year).getD (date.month - 1) 0 := by
  rcases exists' with ⟨firstMonth, -, firstDay, lastDay⟩
  rw [daysInMonth_eq _ firstMonth] at lastDay
  omega

theorem dayNumber_bounds {date : Date} (exists' : date.Exists) :
    daysBeforeYear date.year ≤ date.dayNumber ∧
      date.dayNumber < daysBeforeYear (date.year + 1) := by
  have bound := days_take_add_lt exists'.day_lt
  have firstDay := exists'.2.2.1
  rw [daysBeforeYear_succ, dayNumber]
  omega

theorem ofDayNumber_dayNumber {date : Date} (exists' : date.Exists) :
    ofDayNumber date.dayNumber = date := by
  have within := exists'.day_lt
  have known : yearOfDay date.dayNumber = date.year :=
    yearOfDay_eq (dayNumber_bounds exists').1 (dayNumber_bounds exists').2
  rcases date with ⟨year, month, day⟩
  rcases exists' with ⟨firstMonth, -, firstDay, -⟩
  simp only at firstMonth firstDay within known
  have distance : (dayNumber ⟨year, month, day⟩ - daysBeforeYear year).toNat =
      days ((monthLengths year).take (month - 1)) + (day - 1) := by
    simp only [dayNumber]
    omega
  simp only [ofDayNumber, known, distance, monthAndDay_days_take within,
    Nat.sub_add_cancel firstMonth, Nat.sub_add_cancel firstDay]

end Date

end Calendar

namespace Instant

def IsWhole (i : Instant) : Prop := i.nanosecond % 1000000 = 0

instance (i : Instant) : Decidable i.IsWhole := inferInstanceAs (Decidable (_ = _))

variable {i : Instant}

theorem date_exists (i : Instant) : i.timestamp.toDate.Exists :=
  Calendar.Date.ofDayNumber_exists _

theorem timestamp_exists (common : ¬ i.IsLeap) : i.timestamp.Exists := by
  refine ⟨i.date_exists, ?_⟩
  simp only [IsLeap] at common
  simp only [timestamp]
  omega

theorem instant_timestamp (common : ¬ i.IsLeap) (whole : i.IsWhole) : i.timestamp.instant = i := by
  obtain ⟨second, nanosecond, bound⟩ := i
  have day := Calendar.Date.dayNumber_ofDayNumber (second / 86400 + Calendar.epoch)
  simp only [IsLeap, IsWhole] at common whole
  simp only [Timestamp.instant, Timestamp.timeOfDay, timestamp, mk.injEq, day]
  omega

end Instant

namespace Timestamp

theorem instant_not_isLeap (t : Timestamp) : ¬ t.instant.IsLeap := by
  simp only [Instant.IsLeap, instant]
  omega

theorem instant_isWhole (t : Timestamp) : t.instant.IsWhole := Nat.mul_mod_left _ _

theorem timestamp_instant {t : Timestamp} (exists' : t.Exists) : t.instant.timestamp = t := by
  obtain ⟨date, hour, minute, second, millisecond⟩ := exists'
  have bound : t.timeOfDay < 86400 := by
    simp only [timeOfDay]
    omega
  have total : t.instant.second = (t.dayNumber - Calendar.epoch) * 86400 + t.timeOfDay := by
    simp only [instant]
    omega
  have day : t.instant.second / 86400 + Calendar.epoch = t.dayNumber := by omega
  have time : (t.instant.second % 86400).toNat = t.timeOfDay := by omega
  simp only [Instant.timestamp, day, time, Calendar.Date.ofDayNumber_dayNumber date]
  obtain ⟨date, h, m, s, ms⟩ := t
  simp only [timeOfDay, instant, mk.injEq, true_and] at *
  omega

end Timestamp

end Formula
