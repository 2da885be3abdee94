import Formula.Decimal

/-! Binary64 numbers, the nearest one to a fraction, and their order. -/

namespace Formula

attribute [local instance (high)] instPowNat

namespace Double

def infinite : Nat := 2047 * 2 ^ (52 : Nat)

/-- A sign-free binary64 number, named by its position in ascending order, which is also its bit
pattern. Infinity comes last. -/
abbrev Magnitude := Fin (infinite + 1)

/-- The binary places after the point of the least positive magnitude, which is the unit of all. -/
def places : Nat := 1074

def one : Nat := 2 ^ places

namespace Magnitude

/-- Neighbours of `m` lie `2 ^ scale` units apart. -/
def scale (m : Magnitude) : Nat := m.val / 2 ^ (52 : Nat) - 1

def significand (m : Magnitude) : Nat := m.val - m.scale * 2 ^ (52 : Nat)

def units (m : Magnitude) : Nat := m.significand * 2 ^ m.scale

def clamp (position : Nat) : Magnitude :=
  ⟨min position infinite, Nat.lt_succ_of_le (Nat.min_le_right _ _)⟩

theorem significand_lt (m : Magnitude) : m.significand < 2 ^ (53 : Nat) := by
  have bound := m.isLt
  unfold infinite at bound
  unfold significand scale
  omega

theorem le_significand {m : Magnitude} (positive : 0 < m.scale) : 2 ^ (52 : Nat) ≤ m.significand := by
  unfold scale at positive
  unfold significand scale
  omega

theorem log2_units (m : Magnitude) : m.units.log2 - 52 = m.scale := by
  have upper := m.significand_lt
  by_cases fixed : m.scale = 0
  · by_cases zero : m.significand = 0
    · simp [units, fixed, zero]
    · have small := (Nat.log2_lt zero).2 upper
      simp only [units, fixed, Nat.pow_zero, Nat.mul_one]
      omega
  · have lower := le_significand (Nat.pos_of_ne_zero fixed)
    have power : 0 < 2 ^ m.scale := Nat.two_pow_pos _
    have exponent : m.units.log2 = 52 + m.scale := by
      rw [units, Nat.log2_eq_iff (Nat.ne_of_gt (Nat.mul_pos (by omega) power))]
      constructor
      · rw [Nat.pow_add]
        exact Nat.mul_le_mul_right _ lower
      · rw [Nat.add_right_comm, Nat.pow_add]
        exact Nat.mul_lt_mul_of_pos_right upper power
    omega

end Magnitude

/-- The whole number nearest to `num / den`; halfway, the even one. -/
def roundHalfEven (num den : Nat) : Nat :=
  let quotient := num / den
  let twice := 2 * (num % den)
  if twice < den then quotient
  else if den < twice then quotient + 1
  else quotient + quotient % 2

theorem one_pos : 0 < one := Nat.two_pow_pos _

theorem roundHalfEven_mul_left {k : Nat} (positive : 0 < k) (num den : Nat) :
    roundHalfEven (k * num) (k * den) = roundHalfEven num den := by
  have swap (n : Nat) : 2 * (k * n) = k * (2 * n) := Nat.mul_left_comm 2 k n
  simp only [roundHalfEven, Nat.mul_div_mul_left _ _ positive, Nat.mul_mod_mul_left, swap,
    Nat.mul_lt_mul_left positive]

theorem roundHalfEven_mul_self (n : Nat) {den : Nat} (positive : 0 < den) :
    roundHalfEven (n * den) den = n := by
  simp [roundHalfEven, Nat.mul_div_cancel _ positive, positive]

/-- The magnitude nearest to `num / den`. A significand that rounds up to `2 ^ 53` carries over into
the position of the next scale. -/
def nearest (num den : Nat) : Magnitude :=
  let units := num * one
  let scale := (units / den).log2 - 52
  .clamp (scale * 2 ^ (52 : Nat) + roundHalfEven units (den * 2 ^ scale))

theorem nearest_mul_left {k : Nat} (positive : 0 < k) (num den : Nat) :
    nearest (k * num) (k * den) = nearest num den := by
  simp only [nearest, Nat.mul_assoc, Nat.mul_div_mul_left _ _ positive,
    roundHalfEven_mul_left positive]

theorem nearest_units (m : Magnitude) : nearest m.units one = m := by
  have rounded : roundHalfEven (m.units * one) (one * 2 ^ m.scale) = m.significand := by
    have split : m.units * one = m.significand * (one * 2 ^ m.scale) := by
      rw [Magnitude.units, Nat.mul_assoc, Nat.mul_comm one]
    rw [split, roundHalfEven_mul_self _ (Nat.mul_pos one_pos (Nat.two_pow_pos _))]
  have bound := m.isLt
  simp only [nearest, Nat.mul_div_cancel _ one_pos, m.log2_units, rounded]
  apply Fin.ext
  simp only [Magnitude.clamp]
  unfold Magnitude.significand Magnitude.scale infinite at *
  omega

end Double

/-- A binary64 number; all not-a-numbers are one. -/
inductive Double
  | nan
  | signed (negative : Bool) (magnitude : Double.Magnitude)
  deriving DecidableEq

namespace Double

def ofDecimal (d : Decimal) : Double := .signed false (nearest d.digits (10 ^ d.places))

def neg : Double → Double
  | .nan => .nan
  | .signed negative magnitude => .signed (!negative) magnitude

def IsFinite : Double → Prop
  | .nan => False
  | .signed _ magnitude => magnitude.val < infinite

instance (x : Double) : Decidable x.IsFinite := by
  cases x <;> unfold IsFinite <;> infer_instance

/-- Numbers are ordered by signed position, which makes both zeros equal. -/
def rank : Double → Option Int
  | .nan => none
  | .signed false magnitude => some magnitude.val
  | .signed true magnitude => some (-magnitude.val)

def compare (x y : Double) : Option Ordering :=
  match x.rank, y.rank with
  | some a, some b => some (Ord.compare a b)
  | _, _ => none

def toFloat : Double → Float
  | .nan => Float.ofBits 0x7FF8000000000000
  | .signed negative magnitude =>
    Float.ofBits (UInt64.ofNat (magnitude.val + if negative then 2 ^ (63 : Nat) else 0))

def ofFloat (x : Float) : Double :=
  if x.isNaN then .nan
  else
    let bits := x.toBits.toNat
    .signed (decide (2 ^ (63 : Nat) ≤ bits)) (.clamp (bits % 2 ^ (63 : Nat)))

instance : Add Double := ⟨fun x y => ofFloat (x.toFloat + y.toFloat)⟩
instance : Sub Double := ⟨fun x y => ofFloat (x.toFloat - y.toFloat)⟩
instance : Mul Double := ⟨fun x y => ofFloat (x.toFloat * y.toFloat)⟩
instance : Div Double := ⟨fun x y => ofFloat (x.toFloat / y.toFloat)⟩

end Double

end Formula
