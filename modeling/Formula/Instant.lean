import Formula.Calendar

/-! Instants, and the time of day at which they fall. -/

namespace Formula

/-- A point of time in UTC: a second, counted from the start of 1970, and the nanoseconds since that
second began. From a thousand million of them on, it falls inside a leap second behind that one. -/
@[ext]
structure Instant where
  second : Int
  nanosecond : Nat
  nanosecond_lt : nanosecond < 2000000000
  deriving DecidableEq, Repr

structure Timestamp extends Calendar.Date where
  hour : Nat
  minute : Nat
  second : Nat
  millisecond : Nat
  deriving DecidableEq, Repr

namespace Timestamp

def Exists (t : Timestamp) : Prop :=
  t.toDate.Exists ∧ t.hour < 24 ∧ t.minute < 60 ∧ t.second < 60 ∧ t.millisecond < 1000

def timeOfDay (t : Timestamp) : Nat := (t.hour * 60 + t.minute) * 60 + t.second

/-- No timestamp stands for an instant inside a leap second. -/
def instant (t : Timestamp) : Instant where
  second := (t.dayNumber - Calendar.epoch) * 86400 + t.timeOfDay + t.millisecond / 1000
  nanosecond := t.millisecond % 1000 * 1000000
  nanosecond_lt := by omega

end Timestamp

namespace Instant

def IsLeap (i : Instant) : Prop := 1000000000 ≤ i.nanosecond

instance (i : Instant) : Decidable i.IsLeap := inferInstanceAs (Decidable (_ ≤ _))

/-- A leap second lies between the second that it follows and the next one. -/
def compare (i j : Instant) : Ordering :=
  (Ord.compare i.second j.second).then (Ord.compare i.nanosecond j.nanosecond)

theorem compare_eq_eq_iff {i j : Instant} : i.compare j = .eq ↔ i = j := by
  rw [compare, Ordering.then_eq_eq, Std.LawfulEqCmp.compare_eq_iff_eq,
    Std.LawfulEqCmp.compare_eq_iff_eq, Instant.ext_iff]

theorem compare_self (i : Instant) : i.compare i = .eq := compare_eq_eq_iff.mpr rfl

/-- What is left of the last millisecond is dropped, and a leap second is counted in its minute. -/
def timestamp (i : Instant) : Timestamp :=
  let time := (i.second % 86400).toNat
  { Calendar.Date.ofDayNumber (i.second / 86400 + Calendar.epoch) with
    hour := time / 3600
    minute := time / 60 % 60
    second := time % 60 + i.nanosecond / 1000000000
    millisecond := i.nanosecond % 1000000000 / 1000000 }

end Instant

end Formula
