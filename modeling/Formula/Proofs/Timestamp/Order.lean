import Formula.Proofs.Calendar.Order
import Formula.Proofs.Timestamp.Checked
import Formula.Value

/-! Written forms are in the order of the instants that they stand for. -/

namespace Formula

attribute [local instance (high)] instPowNat

namespace Timestamp

def fields (t : Timestamp) : List Int :=
  [t.year, t.month, t.day, t.hour, t.minute, t.second, t.millisecond]

variable {t u : Timestamp}

end Timestamp

namespace Instant

open Timestamp

variable {a b : String} {i j : Instant}

end Instant

end Formula
