import Formula.Kind

/-! Whole numbers of a fixed width: integers that lie between the limits of their width. -/

namespace Formula

-- Powers are those of the core library, also where those of monoids are known.
attribute [local instance (high)] instPowNat

namespace Width

def bits : Width → Nat
  | .int => 32
  | .long => 64

def least (width : Width) : Int := -(2 ^ (width.bits - 1))

def greatest (width : Width) : Int := 2 ^ (width.bits - 1) - 1

def Holds (width : Width) (n : Int) : Prop := width.least ≤ n ∧ n ≤ width.greatest

instance (width : Width) (n : Int) : Decidable (width.Holds n) :=
  inferInstanceAs (Decidable (_ ∧ _))

theorem holds_int_iff (n : Int) : Width.int.Holds n ↔ -2147483648 ≤ n ∧ n ≤ 2147483647 :=
  Iff.rfl

theorem holds_long_iff (n : Int) :
    Width.long.Holds n ↔ -9223372036854775808 ≤ n ∧ n ≤ 9223372036854775807 :=
  Iff.rfl

end Width

structure Whole (width : Width) where
  val : Int
  fits : width.Holds val
  deriving DecidableEq

namespace Whole

variable {width : Width}

def ofInt? (width : Width) (n : Int) : Option (Whole width) :=
  if fits : width.Holds n then some ⟨n, fits⟩ else none

theorem ofInt?_val (n : Whole width) : ofInt? width n.val = some n := by
  simp [ofInt?, n.fits]

theorem ofInt?_eq_some_iff {n : Int} {m : Whole width} : ofInt? width n = some m ↔ m.val = n := by
  constructor
  · intro found
    unfold ofInt? at found
    split at found
    · cases found
      rfl
    · cases found
  · rintro rfl
    exact ofInt?_val m

theorem ofInt?_eq_none_iff {n : Int} : ofInt? width n = none ↔ ¬ width.Holds n := by
  simp [ofInt?]

def text (n : Whole width) : String := toString n.val

end Whole

end Formula
