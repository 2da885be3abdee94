import Formula.Proofs.Calendar
import Formula.Proofs.Decimal
import Formula.Timestamp

/-! Instants and their written form. -/

namespace Formula

attribute [local instance (high)] instPowNat

namespace Timestamp

theorem readNumber_eq_some {digits : List Char} {width : Nat} (plain : ∀ c ∈ digits, c.isDigit)
    (length : digits.length = width) (rest : List Char) :
    readNumber width (digits ++ rest) = some (Nat.ofDigitChars 10 digits 0, rest) := by
  subst length
  have all : digits.all Char.isDigit := List.all_eq_true.2 plain
  simp [readNumber, all]

theorem readNumber_paddedDigits {width n : Nat} (positive : 0 < width) (short : n < 10 ^ width)
    (rest : List Char) : readNumber width (paddedDigits width n ++ rest) = some (n, rest) := by
  have length := length_paddedDigits positive short
  rw [readNumber_eq_some (fun c => isDigit_of_mem_paddedDigits) length, ofDigitChars_paddedDigits]

theorem readNumber_lt {width n : Nat} {text rest : List Char}
    (found : readNumber width text = some (n, rest)) : n < 10 ^ width := by
  simp only [readNumber] at found
  split at found
  · rename_i digits
    cases found
    have bound := ofDigitChars_lt fun c present => List.all_eq_true.1 digits.2 c present
    rwa [digits.1] at bound
  · cases found

theorem readMark_cons (mark : Char) (rest : List Char) : readMark mark (mark :: rest) = some rest :=
  if_pos rfl

structure FitsForm (t : Timestamp) : Prop where
  year : 0 ≤ t.year ∧ t.year ≤ 9999
  month : t.month < 100
  day : t.day < 100
  hour : t.hour < 100
  minute : t.minute < 100
  second : t.second < 100
  millisecond : t.millisecond < 1000

theorem FitsForm.natAbs_year_lt {t : Timestamp} (fits : t.FitsForm) :
    t.year.natAbs < 10 ^ (4 : Nat) := by
  rcases fits.year with ⟨lower, upper⟩
  omega

theorem toList_text {t : Timestamp} (fits : t.FitsForm) :
    t.text.toList =
      paddedDigits 4 t.year.natAbs ++ '-' :: (paddedDigits 2 t.month ++ '-' ::
        (paddedDigits 2 t.day ++ 'T' :: (paddedDigits 2 t.hour ++ ':' ::
          (paddedDigits 2 t.minute ++ ':' :: (paddedDigits 2 t.second ++ '.' ::
            (paddedDigits 3 t.millisecond ++ ['Z'])))))) := by
  rcases fits.year with ⟨lower, upper⟩
  have year : yearText t.year = String.ofList (paddedDigits 4 t.year.natAbs) := by
    simp only [yearText]
    rw [if_neg (by omega), if_neg (by omega)]
  simp [text, year]

theorem read_text {t : Timestamp} (fits : t.FitsForm) (rest : List Char) :
    read (t.text.toList ++ rest) = some (t, rest) := by
  have sign : (t.year.natAbs : Int) = t.year := Int.natAbs_of_nonneg fits.year.1
  rw [toList_text fits]
  simp only [List.append_assoc, List.cons_append, List.nil_append, read, Option.bind_eq_bind,
    Option.bind_some, readMark_cons,
    readNumber_paddedDigits (by decide : 0 < 4) fits.natAbs_year_lt,
    readNumber_paddedDigits (by decide : 0 < 2) fits.month,
    readNumber_paddedDigits (by decide : 0 < 2) fits.day,
    readNumber_paddedDigits (by decide : 0 < 2) fits.hour,
    readNumber_paddedDigits (by decide : 0 < 2) fits.minute,
    readNumber_paddedDigits (by decide : 0 < 2) fits.second,
    readNumber_paddedDigits (by decide : 0 < 3) fits.millisecond, sign]
  rfl

theorem length_text {t : Timestamp} (fits : t.FitsForm) : t.text.toList.length = width := by
  rw [toList_text fits]
  simp only [List.length_append, List.length_cons, List.length_nil,
    length_paddedDigits (by decide : 0 < 4) fits.natAbs_year_lt,
    length_paddedDigits (by decide : 0 < 2) fits.month,
    length_paddedDigits (by decide : 0 < 2) fits.day,
    length_paddedDigits (by decide : 0 < 2) fits.hour,
    length_paddedDigits (by decide : 0 < 2) fits.minute,
    length_paddedDigits (by decide : 0 < 2) fits.second,
    length_paddedDigits (by decide : 0 < 3) fits.millisecond]
  rfl

theorem bounds_of_read {text rest : List Char} {t : Timestamp}
    (found : read text = some (t, rest)) : 0 ≤ t.year ∧ t.year ≤ 9999 ∧
      t.millisecond < 1000 := by
  simp only [read, Option.bind_eq_bind, Option.bind_eq_some_iff, Prod.exists] at found
  obtain ⟨year, _, yearFound, _, -, _, _, -, _, -, _, _, -, _, -, _, _, -, _, -, _, _, -, _, -,
    _, _, -, _, -, millisecond, _, millisecondFound, _, -, same⟩ := found
  cases same
  have upper := readNumber_lt yearFound
  have upper' := readNumber_lt millisecondFound
  simp only
  omega

theorem check_eq_ok_iff {t : Timestamp} {i : Instant} (milliseconds : t.millisecond < 1000) :
    t.check = .ok i ↔ t.Exists ∧ t.instant = i := by
  simp only [check, Exists, Calendar.Date.Exists]
  repeat' split
  iterate 5
    · simp only [reduceCtorEq, false_iff]
      omega
  · rw [Except.ok.injEq]
    exact ⟨fun same => ⟨by omega, same⟩, And.right⟩

end Timestamp

namespace Instant

/-- The instant has a written form that gives all of it. -/
def IsWritten (i : Instant) : Prop :=
  ¬ i.IsLeap ∧ i.IsWhole ∧ 0 ≤ i.timestamp.year ∧ i.timestamp.year ≤ 9999

instance (i : Instant) : Decidable i.IsWritten := inferInstanceAs (Decidable (_ ∧ _))

variable {i : Instant}

theorem fitsForm_timestamp (years : 0 ≤ i.timestamp.year ∧ i.timestamp.year ≤ 9999) :
    i.timestamp.FitsForm := by
  obtain ⟨-, month, -, day⟩ := i.date_exists
  have short := Calendar.daysInMonth_le i.timestamp.year i.timestamp.month
  have bound := i.nanosecond_lt
  refine ⟨years, by omega, by omega, ?_, ?_, ?_, ?_⟩ <;>
    simp only [timestamp] <;> omega

theorem ofText_text (years : 0 ≤ i.timestamp.year ∧ i.timestamp.year ≤ 9999) :
    ofText i.text = i.timestamp.check := by
  have read := Timestamp.read_text (fitsForm_timestamp years) []
  rw [List.append_nil] at read
  rw [ofText, text, read]

theorem IsWritten.fitsForm (written : i.IsWritten) : i.timestamp.FitsForm :=
  fitsForm_timestamp written.2.2

theorem read_text (written : i.IsWritten) (rest : List Char) :
    Timestamp.read (i.text.toList ++ rest) = some (i.timestamp, rest) :=
  Timestamp.read_text written.fitsForm rest

theorem length_text (written : i.IsWritten) : i.text.toList.length = Timestamp.width :=
  Timestamp.length_text written.fitsForm

theorem check_timestamp (written : i.IsWritten) : i.timestamp.check = .ok i := by
  have exists' := timestamp_exists written.1
  exact (Timestamp.check_eq_ok_iff exists'.2.2.2.2).mpr
    ⟨exists', instant_timestamp written.1 written.2.1⟩

theorem isWritten_of_read {text rest : List Char} {t : Timestamp}
    (found : Timestamp.read text = some (t, rest)) (checked : t.check = .ok i) : i.IsWritten := by
  rcases Timestamp.bounds_of_read found with ⟨lower, upper, millisecond⟩
  rcases (Timestamp.check_eq_ok_iff millisecond).mp checked with ⟨exists', rfl⟩
  refine ⟨t.instant_not_isLeap, t.instant_isWhole, ?_⟩
  rw [Timestamp.timestamp_instant exists']
  exact ⟨lower, upper⟩

/-- Half a second into the leap second at the end of June 2015. -/
def leapSecond : Instant := ⟨1435708799, 1500000000, by decide⟩

end Instant

end Formula
