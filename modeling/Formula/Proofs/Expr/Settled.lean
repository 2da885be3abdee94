import Formula.Proofs.Expr.Leaves
import Formula.Proofs.Expr.RoundTrip

/-! What was read and is printed again is read as the same expression, except for comparisons of
integers that only names are left of. -/

namespace Formula

def Kind.IsFinite : (k : Kind) → k.Carrier → Prop
  | .double, x => x.IsFinite
  | _, _ => True

namespace Expr

/-- A comparison as it is read when its operands are printed: of two names as integers nothing shows
that they are integers, so they are compared as texts. -/
def settledComparison (op : Relation) :
    (o : Ordered) → Expr (.ordered o) → Expr (.ordered o) → Expr .boolean
  | .number (.whole .int), .var name, .var name' =>
    .compare (o := .string) op (.var name) (.var name')
  | _, left, right => .compare op left right

def settled : {k : Kind} → Expr k → Expr k
  | _, .compare (o := o) op left right => settledComparison op o left right
  | _, .logic op left right => .logic op left.settled right.settled
  | _, e => e

/-- Somewhere two bare names are compared as integers. -/
def comparesIntNames : {k : Kind} → Expr k → Bool
  | _, .compare (o := .number (.whole .int)) _ left right => left.isVar && right.isVar
  | _, .logic _ left right => left.comparesIntNames || right.comparesIntNames
  | _, _ => false

def IsFinite : {k : Kind} → Expr k → Prop
  | k, .const value => k.IsFinite value
  | _, .var _ => True
  | _, .arith _ left right => left.IsFinite ∧ right.IsFinite
  | _, .compare _ left right => left.IsFinite ∧ right.IsFinite
  | _, .logic _ left right => left.IsFinite ∧ right.IsFinite

section Settling

variable {o : Ordered} {op : Relation} {left right : Expr (.ordered o)}

theorem settledComparison_eq (other : (compare op left right).comparesIntNames = false) :
    settledComparison op o left right = .compare op left right := by
  match o with
  | .string | .instant | .number (.whole .long) | .number .double => rfl
  | .number (.whole .int) => cases left <;> cases right <;> first | rfl | cases other

theorem settledComparison_same (names : (compare op left right).comparesIntNames) :
    (settledComparison op o left right).same (.compare op left right) = false := by
  match o with
  | .string | .instant | .number (.whole .long) | .number .double => cases names
  | .number (.whole .int) =>
    cases left <;> cases right <;> cases names
    simp [settledComparison, same]

theorem text_settled {k : Kind} (e : Expr k) : e.settled.text = e.text := by
  induction e with
  | const | var | arith => rfl
  | @compare o op left right =>
    rw [settled]
    unfold settledComparison
    split <;> rfl
  | logic op left right ih ih' => rw [settled, text, text, ih, ih']

theorem height_settled {k : Kind} (e : Expr k) : e.settled.height = e.height := by
  induction e with
  | const | var | arith => rfl
  | @compare o op left right =>
    rw [settled]
    unfold settledComparison
    split <;> rfl
  | logic op left right ih ih' => rw [settled, height, height, ih, ih']

theorem isWritten_settled {k : Kind} {e : Expr k} (written : e.IsWritten) :
    e.settled.IsWritten := by
  induction e with
  | const | var | arith => exact written
  | @compare o op left right =>
    rw [settled]
    unfold settledComparison
    split <;> exact written
  | logic op left right ih ih' => exact ⟨ih written.1, ih' written.2⟩

theorem settled_eq {k : Kind} {e : Expr k} (other : e.comparesIntNames = false) :
    e.settled = e := by
  induction e with
  | const | var | arith => rfl
  | compare => exact settledComparison_eq other
  | logic op left right ih ih' =>
    rcases Bool.or_eq_false_iff.mp other with ⟨first, second⟩
    rw [settled, ih first, ih' second]

end Settling

section Equality

theorem compare_self {k : Kind} {value : k.Carrier} (finite : k.IsFinite value) :
    k.compare value value = some .eq := by
  match k, value with
  | .whole _, n => exact congrArg some Std.ReflCmp.compare_self
  | .double, .nan => exact finite.elim
  | .double, .signed negative magnitude =>
    cases negative <;> exact congrArg some Std.ReflCmp.compare_self
  | .string, text => exact congrArg some (by simp [compareOfLessAndEq])
  | .instant, i => exact congrArg some i.compare_self
  | .boolean, b => exact congrArg some Std.ReflCmp.compare_self

theorem same_self {k : Kind} {e : Expr k} (finite : e.IsFinite) : e.same e := by
  induction e with
  | const value => simp [same, Value.same, Value.as?_mk, compare_self finite]
  | var name => simp [same]
  | arith op left right ih ih' => simp [same, ih finite.1, ih' finite.2]
  | compare op left right ih ih' => simp [same, ih finite.1, ih' finite.2]
  | logic op left right ih ih' => simp [same, ih finite.1, ih' finite.2]

theorem settled_same_iff {k : Kind} {e : Expr k} (finite : e.IsFinite) :
    e.settled.same e ↔ e.comparesIntNames = false := by
  constructor
  · intro equal
    induction e with
    | const | var | arith => rfl
    | compare op left right =>
      apply Bool.eq_false_iff.mpr
      intro names
      rw [settled, settledComparison_same names] at equal
      cases equal
    | logic op left right ih ih' =>
      simp only [settled, same, Bool.and_eq_true] at equal
      simp only [comparesIntNames, Bool.or_eq_false_iff]
      exact ⟨ih finite.1 equal.1.2, ih' finite.2 equal.2⟩
  · intro other
    rw [settled_eq other]
    exact same_self finite

end Equality

section Reading

variable {n : Numeric} {o : Ordered} {ts ls rs : List Token}

/-- A row whose expression has no constant reads in every kind of number. -/
theorem exists_readsNumber_of_not_hasConst {m : Numeric} {level : Level} {e : Expr (.number n)}
    (reads : ReadsNumber n level ts e) (bare : e.hasConst = false) :
    ∃ e', ReadsNumber m level ts e' := by
  induction reads with
  | parenthesized _ ih =>
    rcases ih bare with ⟨e', reads⟩
    exact ⟨e', .parenthesized reads⟩
  | name reads => exact ⟨_, .name reads⟩
  | literal | negated => cases bare
  | factor _ ih =>
    rcases ih bare with ⟨e', reads⟩
    exact ⟨e', .factor reads⟩
  | product _ ih =>
    rcases ih bare with ⟨e', reads⟩
    exact ⟨e', .product reads⟩
  | scaled operator _ _ ih ih' =>
    rcases Bool.or_eq_false_iff.mp bare with ⟨first, second⟩
    rcases ih first with ⟨l, reads⟩
    rcases ih' second with ⟨r, reads'⟩
    exact ⟨_, .scaled operator reads reads'⟩
  | shifted operator _ _ ih ih' =>
    rcases Bool.or_eq_false_iff.mp bare with ⟨first, second⟩
    rcases ih first with ⟨l, reads⟩
    rcases ih' second with ⟨r, reads'⟩
    exact ⟨_, .shifted operator reads reads'⟩

theorem hasConst_of_not_fits {m : Numeric} {l r : Expr (.number n)}
    (reads : ReadsOperand (.number n) ls l) (reads' : ReadsOperand (.number n) rs r)
    (unfit : ¬ Fits (.number m) ls rs) : l.hasConst ∨ r.hasConst := by
  cases reads with
  | number reads =>
  cases reads' with
  | number reads' =>
    by_cases has : l.hasConst
    · exact .inl has
    by_cases has' : r.hasConst
    · exact .inr has'
    rcases exists_readsNumber_of_not_hasConst (m := m) reads (by simpa using has) with
      ⟨l', first⟩
    rcases exists_readsNumber_of_not_hasConst (m := m) reads' (by simpa using has') with
      ⟨r', second⟩
    exact absurd ⟨⟨l', .number first⟩, r', .number second⟩ unfit

theorem isConst_of_not_fits {l r : Expr .instant} (reads : ReadsOperand .instant ls l)
    (reads' : ReadsOperand .instant rs r) (unfit : ¬ Fits .string ls rs) :
    l.isConst ∨ r.isConst := by
  cases reads with
  | instant i => exact .inl rfl
  | instantName reads =>
    cases reads' with
    | instant i => exact .inr rfl
    | instantName reads' => exact absurd ⟨⟨_, .stringName reads⟩, _, .stringName reads'⟩ unfit

theorem isShown_settledComparison {l r : Expr (.ordered o)} (reads : ReadsOperand o ls l)
    (reads' : ReadsOperand o rs r) (selected : Selected o ls rs) (op : Relation) :
    (settledComparison op o l r).IsShown := by
  match o with
  | .string => trivial
  | .instant => exact isConst_of_not_fits reads reads' (selected.first .string (by decide))
  | .number (.whole .int) =>
    cases l <;> cases r <;> simp [settledComparison, IsShown, Ordered.Shows, isVar]
  | .number (.whole .long) =>
    exact hasConst_of_not_fits reads reads' (selected.first (.number (.whole .int)) (by decide))
  | .number .double =>
    exact hasConst_of_not_fits reads reads' (selected.first (.number (.whole .int)) (by decide))

theorem isShown_settled {clause : Clause} {e : Expr .boolean}
    (reads : ReadsCondition Selected clause ts e) : e.settled.IsShown := by
  induction reads with
  | comparison reads reads' selected => exact isShown_settledComparison reads reads' selected _
  | parenthesized _ ih | term _ ih => exact ih
  | literal | name => trivial
  | joined _ _ ih ih' => exact ⟨ih, ih'⟩

theorem isFinite_of_mem_constants {k : Kind} {e : Expr k} (finite : e.IsFinite) :
    ∀ v ∈ e.constants, v.kind.IsFinite v.content := by
  induction e with
  | const => exact List.forall_mem_singleton.mpr finite
  | var => exact List.forall_mem_nil _
  | arith _ _ _ ih ih' | compare _ _ _ ih ih' | logic _ _ _ ih ih' =>
    exact List.forall_mem_append.mpr ⟨ih finite.1, ih' finite.2⟩

theorem isWritten_of_isReadable {k : Kind} {value : k.Carrier} (readable : k.IsReadable value)
    (finite : k.IsFinite value) : k.IsWritten value := by
  match k with
  | .double => exact finite
  | .instant => exact readable
  | .whole _ | .string | .boolean => trivial

theorem isWritten_of_leavesIn {k : Kind} {e : Expr k} (leaves : LeavesIn ts e)
    (written : ∀ t ∈ ts, t.IsWritten) (finite : e.IsFinite) : e.IsWritten := by
  have readable := leaves.readable written
  refine isWritten_iff.mpr ⟨readable.names, fun v present => ?_⟩
  exact isWritten_of_isReadable (readable.constants v present)
    (isFinite_of_mem_constants finite v present)

theorem isWritten_of_readsCondition {allowed : Ordered → List Token → List Token → Prop}
    {clause : Clause} {e : Expr .boolean} (reads : ReadsCondition allowed clause ts e)
    (written : ∀ t ∈ ts, t.IsWritten) (finite : e.IsFinite) : e.IsWritten :=
  isWritten_of_leavesIn reads.leavesIn written finite

end Reading

/-- Read, printed and read again, an expression is the settled one. It is equal to the first one
unless two bare names are compared as integers. -/
theorem ofSource_text_of_ofSource {source : String} {limit limit' : Nat} {e : Expr .boolean}
    (read : ofSource .boolean limit source = .ok e) (finite : e.IsFinite)
    (shallow : Source.depth e.text ≤ limit') :
    ofSource .boolean limit' e.text = .ok e.settled ∧
      (e.settled.same e ↔ e.comparesIntNames = false) ∧
      (e.comparesIntNames = false → e.settled = e) := by
  obtain ⟨located, found, parsed⟩ : ∃ located, Source.tokens source = .ok located ∧
      Source.parseTokens Rule.condition limit ⟨located, source.utf8ByteSize⟩ = .ok e := by
    rw [ofSource, Source.parse] at read
    cases found : Source.tokens source with
    | error failure =>
      rw [found] at read
      cases read
    | ok located =>
      rw [found] at read
      exact ⟨located, rfl, read⟩
  have reads := (Source.parseTokens_condition_eq_ok_iff.mp parsed).2
  have written := isWritten_of_readsCondition reads (Source.isWritten_of_tokens found) finite
  refine ⟨?_, settled_same_iff finite, settled_eq⟩
  rw [Source.depth_text written] at shallow
  rw [← text_settled e]
  exact ofSource_text .boolean (isWritten_settled written) (isShown_settled reads)
    (by rwa [height_settled])

/-- What `(a) == b && -2L * (n + 1L) >= c.d` is read as. -/
def ledger : Expr .boolean :=
  .logic .and
    (.compare (o := .number (.whole .int)) .eq (.var "a") (.var "b"))
    (.compare (o := .number (.whole .long)) .ge
      (.arith (n := .whole .long) .mul (.const ⟨-2, by decide⟩)
        (.arith (n := .whole .long) .add (.var "n") (.const ⟨1, by decide⟩)))
      (.var "c.d"))

theorem ofSource_ledger :
    ofSource .boolean 1 "(a) == b && -2L * (n + 1L) >= c.d" = .ok ledger := by
  have row : Source.tokens "(a) == b && -2L * (n + 1L) >= c.d" =
      .ok [⟨.openParen, 0⟩, ⟨.identifier "a", 1⟩, ⟨.closeParen, 2⟩, ⟨.relation .eq, 4⟩,
        ⟨.identifier "b", 7⟩, ⟨.connective .and, 9⟩, ⟨.arithmetic .sub, 12⟩, ⟨.long 2, 13⟩,
        ⟨.arithmetic .mul, 16⟩, ⟨.openParen, 18⟩, ⟨.identifier "n", 19⟩, ⟨.arithmetic .add, 21⟩,
        ⟨.long 1, 23⟩, ⟨.closeParen, 25⟩, ⟨.relation .ge, 27⟩, ⟨.identifier "c", 30⟩, ⟨.dot, 31⟩,
        ⟨.identifier "d", 32⟩] := rfl
  rw [ofSource, Source.parse, row]
  rfl

theorem isFinite_ledger : ledger.IsFinite :=
  ⟨⟨trivial, trivial⟩, ⟨trivial, trivial, trivial⟩, trivial⟩

theorem depth_text_ledger : Source.depth ledger.text = 4 := by
  have a : IsName "a" := by decide
  have b : IsName "b" := by decide
  have n : IsName "n" := by decide
  have c : IsName "c.d" := by decide
  exact Source.depth_text ⟨⟨a, b⟩, ⟨trivial, n, trivial⟩, c⟩

theorem ofSource_text_ledger :
    ofSource .boolean 1 "(a) == b && -2L * (n + 1L) >= c.d" = .ok ledger ∧ ledger.IsFinite ∧
      Source.depth ledger.text ≤ 4 ∧
      ofSource .boolean 4 ledger.text = .ok ledger.settled ∧
      (ledger.settled.same ledger ↔ ledger.comparesIntNames = false) ∧
      (ledger.comparesIntNames = false → ledger.settled = ledger) :=
  ⟨ofSource_ledger, isFinite_ledger, Nat.le_of_eq depth_text_ledger,
    ofSource_text_of_ofSource ofSource_ledger isFinite_ledger (Nat.le_of_eq depth_text_ledger)⟩

def nameComparison (o : Ordered) : Expr .boolean := .compare (o := o) .eq (.var "a") (.var "b")

/-- What `(a) == b` is read as is printed as `(a == b)`, and that is a comparison of texts. -/
theorem ofSource_text_ne_of_ofSource :
    ∃ e, ofSource .boolean Source.defaultLimit "(a) == b" = .ok e ∧ e.IsFinite ∧
      e.text = "(a == b)" ∧
      ∃ e', ofSource .boolean Source.defaultLimit e.text = .ok e' ∧ e'.same e = false := by
  have row : Source.tokens "(a) == b" =
      .ok [⟨.openParen, 0⟩, ⟨.identifier "a", 1⟩, ⟨.closeParen, 2⟩, ⟨.relation .eq, 4⟩,
        ⟨.identifier "b", 7⟩] := by
    rfl
  have row' : Source.tokens (nameComparison (.number (.whole .int))).text =
      .ok [⟨.openParen, 0⟩, ⟨.identifier "a", 1⟩, ⟨.relation .eq, 3⟩, ⟨.identifier "b", 6⟩,
        ⟨.closeParen, 7⟩] := by
    rfl
  have read : ofSource .boolean Source.defaultLimit "(a) == b" =
      .ok (nameComparison (.number (.whole .int))) := by
    rw [ofSource, Source.parse, row]
    rfl
  have reread :
      ofSource .boolean Source.defaultLimit (nameComparison (.number (.whole .int))).text =
        .ok (nameComparison .string) := by
    rw [ofSource, Source.parse, row']
    rfl
  exact ⟨_, read, ⟨trivial, trivial⟩, by decide, _, reread, by decide⟩

end Expr

end Formula
