import Formula.Proofs.Calendar.Gregorian

/-! Day numbers are in the order of the dates, and the next day has the next number. -/

namespace Formula

theorem compare_eq_then {p q x y : Int} {rest : Ordering} (less : p < q → x < y)
    (greater : q < p → y < x) (same : p = q → compare x y = rest) :
    compare x y = (compare p q).then rest := by
  rcases Int.lt_trichotomy p q with before | level | after
  · rw [Int.compare_eq_lt.mpr (less before), Int.compare_eq_lt.mpr before]
    rfl
  · rw [same level, Int.compare_eq_eq.mpr level]
    rfl
  · rw [Int.compare_eq_gt.mpr (greater after), Int.compare_eq_gt.mpr after]
    rfl

theorem compare_eq_compare {p q x y : Int} (less : p < q → x < y) (greater : q < p → y < x)
    (same : p = q → x = y) : compare x y = compare p q :=
  (compare_eq_then less greater fun level => Int.compare_eq_eq.mpr (same level)).trans
    Ordering.then_eq

theorem compare_mul_add {base p q r s : Int} (positive : 0 ≤ r ∧ 0 ≤ s)
    (bound : r < base ∧ s < base) :
    compare (base * p + r) (base * q + s) = (compare p q).then (compare r s) := by
  have gap {p q r s : Int} (less : p < q) (short : r < base) (positive : 0 ≤ s) :
      base * p + r < base * q + s := by
    calc
      base * p + r < base * p + base := by omega
      _ = base * (p + 1) := by rw [Int.mul_add, Int.mul_one]
      _ ≤ base * q := Int.mul_le_mul_of_nonneg_left less (by omega)
      _ ≤ base * q + s := by omega
  refine compare_eq_then (fun less => gap less bound.1 positive.2)
    (fun greater => gap greater bound.2 positive.1) fun same => ?_
  rw [same]
  exact compare_eq_compare (by omega) (by omega) (by omega)

theorem compare_natCast (m n : Nat) : compare (m : Int) n = compare m n := by
  change compareOfLessAndEq (m : Int) n = compareOfLessAndEq m n
  simp only [compareOfLessAndEq, Int.ofNat_lt, Int.ofNat_inj]

namespace Instant

-- Behind a second there may be a leap second before the next one begins.
def rank (i : Instant) : Int := 2000000000 * i.second + i.nanosecond

theorem compare_eq_rank (i j : Instant) : i.compare j = Ord.compare i.rank j.rank := by
  have bound := i.nanosecond_lt
  have bound' := j.nanosecond_lt
  have nanosecond : Ord.compare i.nanosecond j.nanosecond =
      Ord.compare (i.nanosecond : Int) j.nanosecond := (compare_natCast _ _).symm
  rw [rank, rank, compare_mul_add ⟨by omega, by omega⟩ ⟨by omega, by omega⟩, compare, nanosecond]

end Instant

namespace Calendar

namespace Date

variable {date later : Date}

def next (date : Date) : Date :=
  if date.day < gregorianLength date.year date.month then ⟨date.year, date.month, date.day + 1⟩
  else if date.month < 12 then ⟨date.year, date.month + 1, 1⟩
  else ⟨date.year + 1, 1, 1⟩

end Date

end Calendar

end Formula
