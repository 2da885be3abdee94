import Formula.Main
import Formula.Proofs.Bindings.Commute
import Formula.Proofs.Bindings.Missing
import Formula.Proofs.Bindings.Origin
import Formula.Proofs.Bindings.Tidy
import Formula.Proofs.Command.Binding
import Formula.Proofs.Command.Offset
import Formula.Proofs.Eval.Chain
import Formula.Proofs.Eval.Exact
import Formula.Proofs.Eval.Filled
import Formula.Proofs.Eval.Justified
import Formula.Proofs.Eval.Lookups
import Formula.Proofs.Eval.Order
import Formula.Proofs.Expr.Finite
import Formula.Proofs.Rule.First
import Formula.Proofs.Rule.Lockstep
import Formula.Proofs.Source.Negated
import Formula.Proofs.Source.Quoted
import Formula.Proofs.Source.Reached
import Formula.Proofs.Source.Traced
import Formula.Proofs.Timestamp.Order
import Formula.Proofs.Value.Inline
import Formula.Proofs.Value.Smallest
