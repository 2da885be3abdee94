import Formula.Double

/-! The shortest decimal that reads back as a given binary64 number, and the texts made of it. -/

namespace Formula.Double

attribute [local instance (high)] instPowNat

namespace Magnitude

def ReadsBack (m : Magnitude) (d : Decimal) : Prop := nearest d.digits (10 ^ d.places) = m

instance (m : Magnitude) (d : Decimal) : Decidable (m.ReadsBack d) :=
  inferInstanceAs (Decidable (_ = _))

/-- The exponent of a power of ten that is at least `m` and, unless `m` is zero, at most ten times as
large. -/
def ceilingExponent (m : Magnitude) : Int :=
  let width (n : Nat) : Int := (Nat.toDigits 10 n).length
  if m.units = 0 ∨ one ≤ m.units then width (m.units / one) else 1 - width (one / m.units)

/-- Of the two multiples of `10 ^ exponent` around `m` the nearer one that reads back; halfway, the
upper one goes first. -/
def onGrid (m : Magnitude) (exponent : Int) : Option Decimal :=
  let num := m.units * 10 ^ (-exponent).toNat
  let den := one * 10 ^ exponent.toNat
  let below := num / den
  let candidates := if 2 * (num % den) < den then [below, below + 1] else [below + 1, below]
  (candidates.map fun n => ⟨n * 10 ^ exponent.toNat, (-exponent).toNat⟩).find? (m.ReadsBack ·)

def exact (m : Magnitude) : Decimal := ⟨5 ^ places * m.units, places⟩

/-- The decimal of fewest digits that reads back. The search starts at the power of ten above `m` and
goes down by one place at a time; seventeen digits are enough. -/
def shortest (m : Magnitude) : Decimal :=
  ((List.range 18).findSome? fun (k : Nat) => m.onGrid (m.ceilingExponent - k)).getD m.exact

theorem readsBack_exact (m : Magnitude) : m.ReadsBack m.exact := by
  have split : (10 : Nat) ^ places = 5 ^ places * one := by
    rw [one, ← Nat.mul_pow]
  simp only [ReadsBack, exact, split]
  rw [nearest_mul_left (Nat.pow_pos (by decide))]
  exact nearest_units m

theorem readsBack_of_onGrid {m : Magnitude} {exponent : Int} {d : Decimal}
    (found : m.onGrid exponent = some d) : m.ReadsBack d := by
  simpa using List.find?_some found

theorem readsBack_shortest (m : Magnitude) : m.ReadsBack m.shortest := by
  unfold shortest
  cases search : (List.range 18).findSome? fun (k : Nat) => m.onGrid (m.ceilingExponent - k) with
  | none => exact m.readsBack_exact
  | some d =>
    obtain ⟨_, _, found⟩ := List.exists_of_findSome?_eq_some search
    exact readsBack_of_onGrid found

end Magnitude

def signText (negative : Bool) : String := if negative then "-" else ""

def textWith (finite : Decimal → String) : Double → String
  | .nan => "NaN"
  | .signed negative magnitude =>
    signText negative ++ if magnitude.val < infinite then finite magnitude.shortest else "inf"

def text (x : Double) : String := x.textWith Decimal.text

def literal (x : Double) : String := x.textWith Decimal.pointed

end Formula.Double
