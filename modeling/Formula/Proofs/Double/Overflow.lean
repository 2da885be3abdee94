import Formula.Double
import Mathlib.Order.MinMax

/-! Which decimals are too large for binary64: from halfway between the greatest finite number and
the next one that a wider format would have. -/

namespace Formula.Double

attribute [local instance (high)] instPowNat

section Rounding

variable {num den m : Nat}

theorem roundHalfEven_le_iff (positive : 0 < den) (odd : m % 2 = 1) :
    roundHalfEven num den ≤ m ↔ 2 * num < (2 * m + 1) * den := by
  have parts : 2 * num = 2 * (num / den) * den + 2 * (num % den) := by
    rw [Nat.mul_assoc, Nat.mul_comm _ den, ← Nat.mul_add, Nat.div_add_mod]
  have rest : num % den < den := Nat.mod_lt num positive
  have bound : (2 * m + 1) * den = 2 * m * den + den := Nat.succ_mul _ _
  have scaled {a b : Nat} (le : a ≤ b) : 2 * a * den ≤ 2 * b * den :=
    Nat.mul_le_mul_right den (Nat.mul_le_mul_left 2 le)
  have next (a : Nat) : 2 * (a + 1) * den = 2 * a * den + 2 * den := by
    rw [Nat.mul_succ, Nat.add_mul]
  unfold roundHalfEven
  generalize num / den = quotient at *
  generalize num % den = remainder at *
  -- The remainder decides only if the quotient is `m` itself, and then halfway goes up.
  obtain below | rfl | above := Nat.lt_trichotomy quotient m
  · have within := scaled below
    rw [next] at within
    refine iff_of_true ?_ (by omega)
    dsimp only
    split
    · omega
    split <;> omega
  · dsimp only
    split
    · exact iff_of_true (Nat.le_refl _) (by omega)
    · refine iff_of_false ?_ (by omega)
      split <;> omega
  · have beyond := scaled above
    rw [next] at beyond
    refine iff_of_false ?_ (by omega)
    dsimp only
    split
    · omega
    split <;> omega

theorem div_le_roundHalfEven (num den : Nat) : num / den ≤ roundHalfEven num den := by
  unfold roundHalfEven
  dsimp only
  split
  · exact Nat.le_refl _
  split <;> omega

theorem roundHalfEven_le_succ (num den : Nat) : roundHalfEven num den ≤ num / den + 1 := by
  unfold roundHalfEven
  dsimp only
  split
  · exact Nat.le_succ _
  split <;> omega

end Rounding

def lastScale : Nat := 2045

def greatestSignificand : Nat := 2 ^ (53 : Nat) - 1

theorem two_mul_greatestSignificand_succ : 2 * greatestSignificand + 1 = 2 ^ (54 : Nat) - 1 := by decide

theorem infinite_eq : infinite = (lastScale + 2) * 2 ^ (52 : Nat) := rfl

section Position

variable {units den : Nat}

/-- The position that rounding gives to `units / den`, before it is clamped. -/
def position (units den : Nat) : Nat :=
  let scale := (units / den).log2 - 52
  scale * 2 ^ (52 : Nat) + roundHalfEven units (den * 2 ^ scale)

theorem position_lt_of_scale_lt (lower : (units / den).log2 - 52 < lastScale) :
    position units den < infinite := by
  rw [position]
  generalize scaled : (units / den).log2 - 52 = scale at *
  have below : units / den < 2 ^ (53 : Nat) * 2 ^ scale := by
    rw [← Nat.pow_add]
    exact Nat.lt_of_lt_of_le Nat.lt_log2_self (Nat.pow_le_pow_right (by decide) (by omega))
  have quotient : units / (den * 2 ^ scale) < 2 ^ (53 : Nat) := by
    rw [← Nat.div_div_eq_div_mul]
    exact Nat.div_lt_of_lt_mul (Nat.mul_comm (2 ^ (53 : Nat)) _ ▸ below)
  have rounded := roundHalfEven_le_succ units (den * 2 ^ scale)
  have last := infinite_eq
  omega

theorem infinite_le_of_lt_scale (upper : lastScale < (units / den).log2 - 52) :
    infinite ≤ position units den := by
  have present : units / den ≠ 0 := by
    intro none
    rw [none] at upper
    exact absurd upper (Nat.not_lt_zero _)
  rw [position]
  generalize scaled : (units / den).log2 - 52 = scale at *
  have above : 2 ^ (52 : Nat) * 2 ^ scale ≤ units / den := by
    rw [← Nat.pow_add]
    exact Nat.le_trans (Nat.pow_le_pow_right (by decide) (by omega)) (Nat.log2_self_le present)
  have quotient : 2 ^ (52 : Nat) ≤ units / (den * 2 ^ scale) := by
    rw [← Nat.div_div_eq_div_mul]
    exact (Nat.le_div_iff_mul_le (Nat.two_pow_pos _)).mpr above
  have rounded := div_le_roundHalfEven units (den * 2 ^ scale)
  have last := infinite_eq
  omega

theorem position_lt_iff_of_scale_eq (positive : 0 < den)
    (last : (units / den).log2 - 52 = lastScale) :
    position units den < infinite ↔
      2 * units < (2 * greatestSignificand + 1) * (den * 2 ^ lastScale) := by
  have room : 0 < den * 2 ^ lastScale := Nat.mul_pos positive (Nat.two_pow_pos _)
  have odd : greatestSignificand % 2 = 1 := rfl
  have significands : greatestSignificand + 1 = 2 * 2 ^ (52 : Nat) := rfl
  have place : position units den =
      lastScale * 2 ^ (52 : Nat) + roundHalfEven units (den * 2 ^ lastScale) := by rw [position, last]
  have rounded : roundHalfEven units _ ≤ _ ↔ _ := roundHalfEven_le_iff room odd
  rw [← rounded, place, infinite_eq]
  generalize roundHalfEven units (den * 2 ^ lastScale) = rounded
  constructor <;> intro <;> omega

/-- The finite positions are those of the numbers below the bound, halfway above the greatest one. -/
theorem position_lt_iff (positive : 0 < den) :
    position units den < infinite ↔
      2 * units < (2 * greatestSignificand + 1) * (den * 2 ^ lastScale) := by
  obtain lower | last | upper := Nat.lt_trichotomy ((units / den).log2 - 52) lastScale
  · refine iff_of_true (position_lt_of_scale_lt lower) ?_
    have below : units / den < 2 ^ (52 : Nat) * 2 ^ lastScale := by
      rw [← Nat.pow_add]
      exact Nat.lt_of_lt_of_le Nat.lt_log2_self (Nat.pow_le_pow_right (by decide) (by omega))
    rw [Nat.div_lt_iff_lt_mul positive, Nat.mul_assoc, Nat.mul_comm _ den] at below
    rw [two_mul_greatestSignificand_succ]
    omega
  · exact position_lt_iff_of_scale_eq positive last
  · refine iff_of_false (Nat.not_lt_of_le (infinite_le_of_lt_scale upper)) ?_
    have present : units / den ≠ 0 := by
      intro none
      rw [none] at upper
      exact absurd upper (Nat.not_lt_zero _)
    have above : 2 ^ (53 : Nat) * 2 ^ lastScale ≤ units / den := by
      rw [← Nat.pow_add]
      exact Nat.le_trans (Nat.pow_le_pow_right (by decide) (by omega)) (Nat.log2_self_le present)
    rw [Nat.le_div_iff_mul_le positive, Nat.mul_assoc, Nat.mul_comm _ den] at above
    rw [two_mul_greatestSignificand_succ]
    omega

end Position

/-- Halfway from the greatest finite number to `2 ^ 1024`. -/
def bound : Nat := (2 ^ (54 : Nat) - 1) * 2 ^ (970 : Nat)

theorem mul_two_pow_add (k a b : Nat) : k * 2 ^ (a + b) = 2 ^ a * (k * 2 ^ b) := by
  rw [Nat.pow_add, Nat.mul_left_comm]

theorem bound_eq : (2 ^ (54 : Nat) - 1) * 2 ^ lastScale = 2 ^ (places + 1) * bound := by
  have exponents : lastScale = places + 1 + 970 := rfl
  rw [exponents, mul_two_pow_add, bound]

theorem isFinite_ofDecimal_iff (d : Decimal) :
    (ofDecimal d).IsFinite ↔ d.digits < bound * 10 ^ d.places := by
  have positive : 0 < 10 ^ d.places := Nat.pow_pos (by decide)
  have clamped : (nearest d.digits (10 ^ d.places)).val =
      min (position (d.digits * one) (10 ^ d.places)) infinite := rfl
  have unit : 2 * one = 2 ^ (places + 1) := by rw [one, Nat.pow_succ']
  have scaled : 2 * (d.digits * one) = 2 ^ (places + 1) * d.digits := by
    rw [Nat.mul_left_comm, unit, Nat.mul_comm]
  have scaled' : (2 ^ (54 : Nat) - 1) * (10 ^ d.places * 2 ^ lastScale) =
      2 ^ (places + 1) * (bound * 10 ^ d.places) := by
    rw [Nat.mul_comm (10 ^ _), ← Nat.mul_assoc, bound_eq, Nat.mul_assoc]
  rw [ofDecimal, IsFinite, clamped, min_lt_iff, or_iff_left (Nat.lt_irrefl _),
    position_lt_iff positive, two_mul_greatestSignificand_succ, scaled, scaled',
    Nat.mul_lt_mul_left (Nat.two_pow_pos _)]

end Formula.Double
