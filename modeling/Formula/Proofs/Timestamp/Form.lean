import Formula.Proofs.Timestamp

/-! Which texts are written forms, and which instant is read from the written form of another. -/

namespace Formula

attribute [local instance (high)] instPowNat

namespace Timestamp

variable {text rest : List Char} {t : Timestamp}

theorem readNumber_eq_some_iff {width n : Nat} (positive : 0 < width) :
    readNumber width text = some (n, rest) ↔
      n < 10 ^ width ∧ text = paddedDigits width n ++ rest := by
  constructor
  · intro found
    refine ⟨readNumber_lt found, ?_⟩
    simp only [readNumber] at found
    split at found
    · rename_i digits
      cases found
      have plain (c : Char) (present : c ∈ text.take width) : c.isDigit :=
        List.all_eq_true.1 digits.2 c present
      rw [paddedDigits_ofDigitChars plain digits.1 positive, List.take_append_drop]
    · cases found
  · intro form
    rw [form.2]
    exact readNumber_paddedDigits positive form.1 rest

theorem readMark_eq_some_iff {mark : Char} : readMark mark text = some rest ↔ text = mark :: rest := by
  cases text with
  | nil => simp [readMark]
  | cons c text => simp [readMark, eq_comm]

/-- What is read is the written form of the timestamp that it is read as. -/
theorem read_eq_some_iff :
    read text = some (t, rest) ↔ t.FitsForm ∧ text = t.text.toList ++ rest := by
  constructor
  · intro found
    simp only [read, Option.bind_eq_bind, Option.bind_eq_some_iff, Prod.exists,
      readNumber_eq_some_iff (by decide : 0 < 4), readNumber_eq_some_iff (by decide : 0 < 3),
      readNumber_eq_some_iff (by decide : 0 < 2), readMark_eq_some_iff] at found
    obtain ⟨year, _, ⟨yearBound, rfl⟩, _, rfl, month, _, ⟨monthBound, rfl⟩, _, rfl, day, _,
      ⟨dayBound, rfl⟩, _, rfl, hour, _, ⟨hourBound, rfl⟩, _, rfl, minute, _, ⟨minuteBound, rfl⟩, _,
      rfl, second, _, ⟨secondBound, rfl⟩, _, rfl, millisecond, _, ⟨millisecondBound, rfl⟩, _, rfl,
      same⟩ := found
    cases same
    have fits : FitsForm ⟨⟨year, month, day⟩, hour, minute, second, millisecond⟩ :=
      ⟨by simp only; omega, monthBound, dayBound, hourBound, minuteBound, secondBound,
        millisecondBound⟩
    refine ⟨fits, ?_⟩
    rw [toList_text fits]
    simp only [Int.natAbs_natCast, List.append_assoc, List.cons_append, List.nil_append]
  · intro form
    rw [form.2]
    exact read_text form.1 rest

theorem readNumber_cons_eq_none {c : Char} (sign : c.isDigit = false) (width : Nat) :
    readNumber (width + 1) (c :: rest) = none := by
  apply if_neg
  rintro ⟨-, digits⟩
  rw [List.take_succ_cons, List.all_cons, sign] at digits
  cases digits

theorem read_text_eq_none (beyond : t.year < 0 ∨ 9999 < t.year) : read t.text.toList = none := by
  have signed (c : Char) (sign : c.isDigit = false) (rest : List Char) : read (c :: rest) = none := by
    rw [read, readNumber_cons_eq_none sign]
    rfl
  obtain before | after := beyond
  · have year : yearText t.year = "-" ++ String.ofList (paddedDigits 4 t.year.natAbs) :=
      if_pos before
    simp only [text, year, String.toList_append]
    exact signed '-' rfl _
  · have year : yearText t.year = "+" ++ String.ofList (paddedDigits 4 t.year.natAbs) := by
      simp only [yearText]
      rw [if_neg (by omega), if_pos after]
    simp only [text, year, String.toList_append]
    exact signed '+' rfl _

end Timestamp

namespace Instant

variable {text : String} {i : Instant}

def wholeBefore (i : Instant) : Instant where
  second := i.second
  nanosecond := i.nanosecond / 1000000 * 1000000
  nanosecond_lt := Nat.lt_of_le_of_lt (Nat.div_mul_le_self _ _) i.nanosecond_lt

theorem wholeBefore_isWhole (i : Instant) : i.wholeBefore.IsWhole := Nat.mul_mod_left _ _

theorem wholeBefore_le (i : Instant) : i.wholeBefore.nanosecond ≤ i.nanosecond :=
  Nat.div_mul_le_self _ _

theorem lt_wholeBefore_add (i : Instant) : i.nanosecond < i.wholeBefore.nanosecond + 1000000 := by
  simp only [wholeBefore]
  omega

theorem isLeap_wholeBefore_iff : i.wholeBefore.IsLeap ↔ i.IsLeap := by
  simp only [IsLeap, wholeBefore]
  omega

theorem timestamp_wholeBefore (i : Instant) : i.wholeBefore.timestamp = i.timestamp := by
  have leap : i.wholeBefore.nanosecond / 1000000000 = i.nanosecond / 1000000000 := by
    simp only [wholeBefore]
    omega
  have millisecond : i.wholeBefore.nanosecond % 1000000000 / 1000000 =
      i.nanosecond % 1000000000 / 1000000 := by
    simp only [wholeBefore]
    omega
  simp only [timestamp, leap, millisecond]
  rfl

theorem ofText_eq_ok_iff : ofText text = .ok i ↔ i.IsWritten ∧ i.text = text := by
  constructor
  · intro read
    unfold ofText at read
    split at read
    · rename_i t found
      have written := isWritten_of_read found read
      obtain ⟨fits, form⟩ := Timestamp.read_eq_some_iff.mp found
      obtain ⟨exists', rfl⟩ := (Timestamp.check_eq_ok_iff fits.millisecond).mp read
      refine ⟨written, String.toList_inj.mp ?_⟩
      rw [Instant.text, Timestamp.timestamp_instant exists', form, List.append_nil]
    · cases read
  · intro form
    rw [← form.2, ofText_text form.1.2.2]
    exact check_timestamp form.1

theorem ofText_text_eq_malformed (beyond : i.timestamp.year < 0 ∨ 9999 < i.timestamp.year) :
    ofText i.text = .error .malformed := by
  have unread : Timestamp.read i.text.toList = none := Timestamp.read_text_eq_none beyond
  rw [ofText, unread]

theorem check_timestamp_of_not_isLeap (common : ¬ i.IsLeap)
    (years : 0 ≤ i.timestamp.year ∧ i.timestamp.year ≤ 9999) :
    i.timestamp.check = .ok i.wholeBefore := by
  have written : i.wholeBefore.IsWritten := by
    refine ⟨mt isLeap_wholeBefore_iff.mp common, i.wholeBefore_isWhole, ?_⟩
    rwa [timestamp_wholeBefore]
  rw [← timestamp_wholeBefore]
  exact check_timestamp written

/-- A leap second behind the last second of a minute is the sixtieth, which no minute has. -/
theorem check_timestamp_of_isLeap (leap : i.IsLeap) (last : i.second % 60 = 59) :
    i.timestamp.check = .error (.second 60) := by
  obtain ⟨firstMonth, lastMonth, firstDay, lastDay⟩ := i.date_exists
  have bound := i.nanosecond_lt
  simp only [IsLeap] at leap
  have hour : i.timestamp.hour ≤ 23 := by
    simp only [timestamp]
    omega
  have minute : i.timestamp.minute ≤ 59 := by
    simp only [timestamp]
    omega
  have second : i.timestamp.second = 60 := by
    simp only [timestamp]
    omega
  rw [Timestamp.check, if_neg (by omega), if_neg (by omega), if_neg (by omega),
    if_neg (by omega), if_pos (by omega), second]

/-- The texts that are read as an instant are its written form, if it has one that gives all of it.
The written form of any instant in the years of four digits gives the start of its millisecond,
unless it lies inside a leap second, and that of an instant in any other year is not read. -/
theorem ofText_iff_and_text (text : String) (i : Instant) :
    (ofText text = .ok i ↔ i.IsWritten ∧ i.text = text) ∧
      ofText i.text =
        (if 0 ≤ i.timestamp.year ∧ i.timestamp.year ≤ 9999 then
          if i.IsLeap then i.timestamp.check else .ok i.wholeBefore
        else .error .malformed) ∧
      i.wholeBefore.IsWhole ∧ i.wholeBefore.second = i.second ∧
      i.wholeBefore.nanosecond ≤ i.nanosecond ∧
      i.nanosecond < i.wholeBefore.nanosecond + 1000000 ∧
      (i.IsLeap → i.second % 60 = 59 → i.timestamp.check = .error (.second 60)) := by
  refine ⟨ofText_eq_ok_iff, ?_, i.wholeBefore_isWhole, rfl, i.wholeBefore_le,
    i.lt_wholeBefore_add, check_timestamp_of_isLeap⟩
  split
  · rename_i years
    rw [ofText_text years]
    split
    · rfl
    · rename_i common
      exact check_timestamp_of_not_isLeap common years
  · rename_i beyond
    exact ofText_text_eq_malformed (by omega)

/-- The millisecond before 1970 is dropped to its start. -/
example : (⟨-1, 999999999, by decide⟩ : Instant).text = "1969-12-31T23:59:59.999Z" ∧
    (⟨-1, 999999999, by decide⟩ : Instant).wholeBefore = ⟨-1, 999000000, by decide⟩ := by decide

end Instant

end Formula
