/-! Decimal fractions and their positional notation. -/

namespace Formula

-- Powers are those of the core library, also where those of monoids are known.
attribute [local instance (high)] instPowNat

/-- The number `digits / 10 ^ places`. -/
structure Decimal where
  digits : Nat
  places : Nat
  deriving DecidableEq, Repr

/-- The decimal digits of `n`, with leading zeros up to `width`. -/
def paddedDigits (width n : Nat) : List Char := (Nat.toDigits 10 n).leftpad width '0'

namespace Decimal

def ofDigits (whole fraction : List Char) : Decimal :=
  ⟨Nat.ofDigitChars 10 (whole ++ fraction) 0, fraction.length⟩

def whole (d : Decimal) : Nat := d.digits / 10 ^ d.places

def fraction (d : Decimal) : List Char := paddedDigits d.places (d.digits % 10 ^ d.places)

def text (d : Decimal) : String :=
  if d.places = 0 then toString d.whole
  else toString d.whole ++ "." ++ String.ofList d.fraction

def pointed (d : Decimal) : String :=
  if d.places = 0 then toString d.whole ++ ".0" else d.text

end Decimal

end Formula
