import Formula.Proofs.Calendar.Gregorian
import Formula.Proofs.Timestamp.Bytes

/-! A text is an instant if it has the form and its fields lie on the calendar and on the clock.
Otherwise the first field that does not is blamed. -/

namespace Formula

open Std.Time

namespace Timestamp

structure IsOnCalendar (t : Timestamp) : Prop where
  month : 1 ≤ t.month ∧ t.month ≤ 12
  day : 1 ≤ t.day ∧ t.day ≤ Calendar.gregorianLength t.year t.month
  hour : t.hour ≤ 23
  minute : t.minute ≤ 59
  second : t.second ≤ 59

/-- The error names the first field that is out of place, with what is written in it. -/
inductive Blames (t : Timestamp) : DateTimeError → Prop
  | month : ¬ (1 ≤ t.month ∧ t.month ≤ 12) → t.Blames (.month t.month)
  | day : 1 ≤ t.month ∧ t.month ≤ 12 →
      ¬ (1 ≤ t.day ∧ t.day ≤ Calendar.gregorianLength t.year t.month) →
      t.Blames (.day t.day t.month t.year)
  | hour : 1 ≤ t.month ∧ t.month ≤ 12 →
      1 ≤ t.day ∧ t.day ≤ Calendar.gregorianLength t.year t.month → 23 < t.hour →
      t.Blames (.hour t.hour)
  | minute : 1 ≤ t.month ∧ t.month ≤ 12 →
      1 ≤ t.day ∧ t.day ≤ Calendar.gregorianLength t.year t.month → t.hour ≤ 23 → 59 < t.minute →
      t.Blames (.minute t.minute)
  | second : 1 ≤ t.month ∧ t.month ≤ 12 →
      1 ≤ t.day ∧ t.day ≤ Calendar.gregorianLength t.year t.month → t.hour ≤ 23 →
      t.minute ≤ 59 → 59 < t.second → t.Blames (.second t.second)

variable {t : Timestamp} {e : DateTimeError} {i : Instant}

theorem exists_iff_isOnCalendar (short : t.millisecond < 1000) : t.Exists ↔ t.IsOnCalendar := by
  rw [Exists, Calendar.Date.Exists, Calendar.daysInMonth_eq_gregorianLength]
  constructor
  · intro exists'
    obtain ⟨⟨first, last, firstDay, lastDay⟩, hour, minute, second, -⟩ := exists'
    exact ⟨⟨first, last⟩, ⟨firstDay, lastDay⟩, by omega, by omega, by omega⟩
  · intro valid
    obtain ⟨month, day, hour, minute, second⟩ := valid
    exact ⟨⟨month.1, month.2, day.1, day.2⟩, by omega, by omega, by omega, short⟩

theorem check_eq_ok_iff_isOnCalendar (short : t.millisecond < 1000) :
    t.check = .ok i ↔ t.IsOnCalendar ∧ t.instant = i := by
  rw [check_eq_ok_iff short, exists_iff_isOnCalendar short]

theorem check_eq_error_iff : t.check = .error e ↔ t.Blames e := by
  simp only [check, Calendar.daysInMonth_eq_gregorianLength]
  constructor
  · intro checked
    split at checked
    · cases checked
      exact .month (by omega)
    split at checked
    · cases checked
      exact .day (by omega) (by omega)
    split at checked
    · cases checked
      exact .hour (by omega) (by omega) (by omega)
    split at checked
    · cases checked
      exact .minute (by omega) (by omega) (by omega) (by omega)
    split at checked
    · cases checked
      exact .second (by omega) (by omega) (by omega) (by omega) (by omega)
    · cases checked
  · intro blames
    cases blames with
    | month month => rw [if_pos (by omega)]
    | day month day => rw [if_neg (by omega), if_pos (by omega)]
    | hour month day hour => rw [if_neg (by omega), if_neg (by omega), if_pos hour]
    | minute month day hour minute =>
      rw [if_neg (by omega), if_neg (by omega), if_neg (by omega), if_pos minute]
    | second month day hour minute second =>
      rw [if_neg (by omega), if_neg (by omega), if_neg (by omega), if_neg (by omega), if_pos second]

end Timestamp

namespace Instant

open Timestamp

variable {text : String} {e : DateTimeError} {i : Instant}

theorem ofText_of_hasForm (form : HasForm text) : ofText text = (written text).check := by
  rw [ofText, form.read]

theorem ofText_of_not_hasForm (form : ¬ HasForm text) : ofText text = .error .malformed := by
  unfold ofText
  split
  · rename_i t found
    exact absurd (read_eq_some_iff_hasForm.mp found).1 form
  · rfl

theorem ofText_eq_ok_iff_isOnCalendar :
    ofText text = .ok i ↔
      HasForm text ∧ (written text).IsOnCalendar ∧ (written text).instant = i := by
  by_cases form : HasForm text
  · rw [ofText_of_hasForm form, check_eq_ok_iff_isOnCalendar form.fitsForm.millisecond,
      and_iff_right form]
  · rw [ofText_of_not_hasForm form]
    simp [form]

theorem ofText_eq_malformed_iff : ofText text = .error .malformed ↔ ¬ HasForm text := by
  refine ⟨fun failed form => ?_, ofText_of_not_hasForm⟩
  rw [ofText_of_hasForm form, check_eq_error_iff] at failed
  cases failed

theorem ofText_eq_error_iff_blames (other : e ≠ .malformed) :
    ofText text = .error e ↔ HasForm text ∧ (written text).Blames e := by
  by_cases form : HasForm text
  · rw [ofText_of_hasForm form, check_eq_error_iff, and_iff_right form]
  · rw [ofText_of_not_hasForm form]
    simp [form, other.symm]

/-- As `ofText`, but with an instant that is built after the check, where building may fail. -/
def ofTextBy (build : Timestamp → Option Instant) (text : String) : Except DateTimeError Instant :=
  match Timestamp.read text.toList with
  | some (t, []) =>
    match t.check with
    | .ok _ => (build t).elim (.error .malformed) .ok
    | .error e => .error e
  | _ => .error .malformed

/-- Instants are built at the days of the standard library, at least those in years of four
digits. -/
def BuildsDates (build : Timestamp → Option Instant) : Prop :=
  ∀ t plain, t.toDate.Denotes plain → 0 ≤ t.year ∧ t.year ≤ 9999 → t.hour ≤ 23 → t.minute ≤ 59 →
    t.second ≤ 59 → t.millisecond ≤ 999 →
    ∃ i, build t = some i ∧ i.second = plain.toEpochDay.val * 86400 + t.timeOfDay ∧
      i.nanosecond = t.millisecond * 1000000

theorem buildsDates_instant : BuildsDates fun t => some t.instant := by
  intro t plain denotes _ _ _ _ short
  refine ⟨t.instant, rfl, ?_, ?_⟩
  · simp only [Timestamp.instant, Calendar.Date.dayNumber_sub_epoch denotes]
    omega
  · simp only [Timestamp.instant]
    omega

theorem BuildsDates.eq_instant {build : Timestamp → Option Instant} (builds : BuildsDates build)
    {t : Timestamp} (exists' : t.Exists) (years : 0 ≤ t.year ∧ t.year ≤ 9999) :
    build t = some t.instant := by
  obtain ⟨date, hour, minute, second, millisecond⟩ := exists'
  obtain ⟨plain, denotes⟩ := Calendar.Date.exists_iff_denotes.mp date
  obtain ⟨i, built, seconds, nanoseconds⟩ := builds t plain denotes years (by omega) (by omega)
    (by omega) (by omega)
  obtain ⟨j, own, seconds', nanoseconds'⟩ := buildsDates_instant t plain denotes years (by omega)
    (by omega) (by omega) (by omega)
  cases own
  have same : i = t.instant :=
    Instant.ext (seconds.trans seconds'.symm) (nanoseconds.trans nanoseconds'.symm)
  rw [built, same]

theorem ofTextBy_eq {build : Timestamp → Option Instant} (builds : BuildsDates build)
    (text : String) : ofTextBy build text = ofText text := by
  by_cases form : HasForm text
  · have years := form.fitsForm.year
    have short := form.fitsForm.millisecond
    rw [ofTextBy, ofText_of_hasForm form, form.read]
    cases checked : (written text).check with
    | error e => simp only [checked]
    | ok i =>
      obtain ⟨exists', rfl⟩ := (check_eq_ok_iff short).mp checked
      simp only [checked, builds.eq_instant exists' years]
      rfl
  · rw [ofText_of_not_hasForm form]
    unfold ofTextBy
    split
    · rename_i t found
      exact absurd (read_eq_some_iff_hasForm.mp found).1 form
    · rfl

/-- Just the texts of the form are read whose fields lie on the calendar and on the clock. A text
without the form is malformed, any other one is blamed for its first field that is out of place. If
instants are built for the dates of the standard library, one is built for whatever passes. -/
theorem ofText_isOnCalendar_or_blames (text : String) :
    ((∃ i, ofText text = .ok i) ↔ HasForm text ∧ (written text).IsOnCalendar) ∧
    (ofText text = .error .malformed ↔ ¬ HasForm text) ∧
    (∀ e, e ≠ .malformed → (ofText text = .error e ↔ HasForm text ∧ (written text).Blames e)) ∧
    ∀ build, BuildsDates build → ofTextBy build text = ofText text := by
  refine ⟨?_, ofText_eq_malformed_iff, fun e => ofText_eq_error_iff_blames,
    fun build builds => ofTextBy_eq builds text⟩
  simp only [ofText_eq_ok_iff_isOnCalendar, exists_and_left, exists_eq', and_true]

theorem ofText_isOnCalendar_or_blames_centuries :
    BuildsDates (fun t => some t.instant) ∧
    ofTextBy (fun t => some t.instant) "2000-02-29T00:00:00.000Z" = .ok ⟨951782400, 0, by decide⟩ ∧
    HasForm "1900-02-29T24:00:00.000Z" ∧
    (written "1900-02-29T24:00:00.000Z").Blames (.day 29 2 1900) := by
  have leap : ofText "2000-02-29T00:00:00.000Z" = .ok ⟨951782400, 0, by decide⟩ := by decide
  have common : ofText "1900-02-29T24:00:00.000Z" = .error (.day 29 2 1900) := by decide
  obtain ⟨-, -, -, built⟩ := ofText_isOnCalendar_or_blames "2000-02-29T00:00:00.000Z"
  obtain ⟨-, -, blamed, -⟩ := ofText_isOnCalendar_or_blames "1900-02-29T24:00:00.000Z"
  exact ⟨buildsDates_instant, (built _ buildsDates_instant).trans leap,
    (blamed (.day 29 2 1900) nofun).mp common⟩

example : ofText "2016-02-é9T00:00:00.000Z" = .error .malformed := by decide

end Instant

end Formula
