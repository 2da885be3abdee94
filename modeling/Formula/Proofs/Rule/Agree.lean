import Formula.Proofs.Rule.Comparison
import Mathlib.Data.List.Forall2

/-! Rules that are made alike, of rules that agree at some cursors, agree at these cursors as well if
what the rules take leads from such cursors to such cursors. -/

namespace Formula

theorem ReadsComparison.balanced {o : Ordered} {ts rest : List Token} {e : Expr .boolean}
    (reads : ReadsComparison o ts rest e) : Balanced ts := by
  obtain ⟨ls, op, rs, l, r, rfl, left, right, -, -⟩ := reads
  exact balanced_append left.balanced (balanced_cons (fun _ => rfl) right.balanced)

namespace Rule

variable {α β : Type} {n : Numeric} {fits within : Cursor → Prop}

def AgreeOn (fits : Cursor → Prop) (rule rule' : Rule α) : Prop := ∀ c, fits c → rule c = rule' c

abbrev TakesBalanced (rule : Rule α) : Prop := Takes rule fun ts _ _ => Balanced ts

/-- Cursors that fit do so behind a balanced row as well, and a parenthesis that opens leads from
them to the cursors within. -/
structure Nests (fits within : Cursor → Prop) : Prop where
  behind : ∀ {taken rest : List Located} {stop : Nat}, Balanced (taken.map Located.token) →
    fits ⟨taken ++ rest, stop⟩ → fits ⟨rest, stop⟩
  inside : ∀ {t : Located} {rest : List Located} {stop : Nat}, t.token = .openParen →
    fits ⟨t :: rest, stop⟩ → within ⟨rest, stop⟩

section Balance

variable {operand atom inner : Rule α} {join : Token → Option (α → α → α)}

theorem takesBalanced_chain (plain : ∀ t combine, join t = some combine →
      ∀ opened, t.nest opened = some opened) (balanced : TakesBalanced operand) :
    TakesBalanced (chain operand join) := by
  refine (takes_chain (fun ts _ _ => Balanced ts) balanced (fun _ _ _ row => row) ?_).mono
    fun _ _ _ => And.left
  intro ls t rs rest left right combine joins before after
  exact balanced_append before (balanced_cons (plain t combine joins) after)

theorem takesBalanced_parenthesized (balanced : TakesBalanced inner) :
    TakesBalanced (parenthesized inner) := by
  apply (takes_parenthesized balanced).mono
  intro ts rest a row
  obtain ⟨us, rfl, inside⟩ := row
  exact balanced_parenthesized inside

theorem takesBalanced_take {expected : String} {read : Token → Option α}
    (plain : ∀ t a, read t = some a → ∀ opened, t.nest opened = some opened) :
    TakesBalanced (take expected read) := by
  apply takes_take.mono
  intro ts rest a row
  obtain ⟨t, rfl, reading⟩ := row
  exact balanced_cons (plain t a reading) balanced_nil

theorem takesBalanced_name {kind : Kind} : TakesBalanced (name : Rule (Expr kind)) := by
  apply takes_name.mono
  intro ts rest e row
  obtain ⟨text, reads, -, -⟩ := row
  exact reads.balanced

end Balance

theorem agreeOn_refl (fits : Cursor → Prop) (rule : Rule α) : AgreeOn fits rule rule :=
  fun _ _ => rfl

theorem agreeOn_bind (nests : Nests fits within) {first first' : Rule α}
    {second second' : α → Rule β} (balanced : TakesBalanced first)
    (agree : AgreeOn fits first first') (agree' : ∀ a, AgreeOn fits (second a) (second' a)) :
    AgreeOn fits (first >>= second) (first' >>= second') := by
  intro c start
  rw [bind_run, bind_run, ← agree c start]
  cases found : first c with
  | error e between => rfl
  | ok a between =>
    obtain ⟨taken, rfl, row⟩ := balanced c a between found
    exact agree' a between (nests.behind row start)

theorem agreeOn_parenthesized (nests : Nests fits within) {inner inner' : Rule α}
    (agree : AgreeOn within inner inner') :
    AgreeOn fits (parenthesized inner) (parenthesized inner') := by
  intro c start
  simp only [parenthesized, bind_run]
  cases found : expect .openParen c with
  | error e between => rfl
  | ok u between =>
    obtain ⟨t, rfl, opened⟩ := expect_eq_ok_iff.mp found
    simp only [agree between (nests.inside opened start)]

section Chain

variable {operand operand' : Rule α} {join : Token → Option (α → α → α)}

theorem agreeOn_chainFrom (nests : Nests fits within)
    (plain : ∀ t combine, join t = some combine → ∀ opened, t.nest opened = some opened)
    (balanced : TakesBalanced operand) (agree : AgreeOn fits operand operand') (steps : Nat)
    (left : α) :
    AgreeOn fits (chainFrom operand join steps left) (chainFrom operand' join steps left) := by
  induction steps generalizing left with
  | zero => exact agreeOn_refl _ _
  | succ steps ih =>
    intro c start
    rcases c with ⟨tokens, stop⟩
    cases tokens with
    | nil => rw [chainFrom_nil, chainFrom_nil]
    | cons t rest =>
      rw [chainFrom_cons, chainFrom_cons]
      cases joins : join t.token with
      | none => rfl
      | some combine =>
        have operator : Balanced ([t].map Located.token) :=
          balanced_cons (plain t.token combine joins) balanced_nil
        exact agreeOn_bind nests balanced agree (fun right => ih (combine left right)) ⟨rest, stop⟩
          (nests.behind operator start)

theorem agreeOn_chain (nests : Nests fits within)
    (plain : ∀ t combine, join t = some combine → ∀ opened, t.nest opened = some opened)
    (balanced : TakesBalanced operand) (agree : AgreeOn fits operand operand') :
    AgreeOn fits (chain operand join) (chain operand' join) := by
  rw [chain_eq_bind, chain_eq_bind]
  apply agreeOn_bind nests balanced agree
  intro left c start
  exact agreeOn_chainFrom nests plain balanced agree c.tokens.length left c start

end Chain

theorem agreeOn_choice {alternatives alternatives' : List (String × Rule α)}
    (agree : List.Forall₂ (fun x y => x.1 = y.1 ∧ AgreeOn fits x.2 y.2)
      alternatives alternatives') :
    AgreeOn fits (choice alternatives) (choice alternatives') := by
  intro c start
  unfold choice
  generalize c.offset = furthest
  generalize ([] : List String) = trace
  induction agree generalizing furthest trace with
  | nil => rfl
  | cons agree _ ih =>
    simp only [firstOf, agree.1, agree.2 c start]
    split
    · rfl
    · exact ih _ _

section Sum

variable {inner inner' : Rule (Expr (.number n))}

theorem agreeOn_factorOver (nests : Nests fits within) (agree : AgreeOn within inner inner') :
    AgreeOn fits (factorOver inner) (factorOver inner') := by
  intro c start
  rcases c with ⟨tokens, stop⟩
  cases tokens with
  | nil => rfl
  | cons t rest =>
    rw [factorOver_cons, factorOver_cons]
    split
    · exact agreeOn_parenthesized nests agree _ start
    · rfl
    · rfl
    · rfl

theorem agreeOn_productOver (nests : Nests fits within)
    (takes : Takes inner fun ts _ e => ReadsNumber n .sum ts e)
    (agree : AgreeOn within inner inner') :
    AgreeOn fits (productOver inner) (productOver inner') := by
  apply agreeOn_chain nests
  · intro t combine joins opened
    obtain ⟨op, rfl, -, -⟩ := joinProduct_eq_some_iff.mp joins
    rfl
  · exact (takes_factorOver takes).mono fun _ _ _ row => row.1.balanced
  · exact agreeOn_factorOver nests agree

theorem agreeOn_sumOver (nests : Nests fits within)
    (takes : Takes inner fun ts _ e => ReadsNumber n .sum ts e)
    (agree : AgreeOn within inner inner') : AgreeOn fits (sumOver inner) (sumOver inner') := by
  apply agreeOn_chain nests
  · intro t combine joins opened
    obtain ⟨op, rfl, -, -⟩ := joinSum_eq_some_iff.mp joins
    rfl
  · exact (takes_productOver takes).mono fun _ _ _ row => row.1.balanced
  · exact agreeOn_productOver nests takes agree

end Sum

section Condition

variable {o : Ordered} {atom atom' inner inner' : Rule (Expr .boolean)}

theorem nest_of_relation? {t : Token} {op : Relation} (relation : t.relation? = some op)
    (opened : Nat) : t.nest opened = some opened := by
  cases t <;> first | rfl | cases relation

theorem nest_of_joinCondition {t : Token} {combine : Expr .boolean → Expr .boolean → Expr .boolean}
    (joins : joinCondition t = some combine) (opened : Nat) : t.nest opened = some opened := by
  cases t <;> first | rfl | cases joins

theorem takesBalanced_operandWithin (depth : Nat) (o : Ordered) :
    TakesBalanced (operandWithin depth o) :=
  (takes_operandWithin depth o).mono fun _ _ _ row => row.1.balanced

def comparisonOver (operand : Rule (Expr (.ordered o))) : Rule (Expr .boolean) := do
  let left ← operand
  let op ← take "a relational operator" Token.relation?
  let right ← operand
  return .compare op left right

def relationOver (operand : (o : Ordered) → Rule (Expr (.ordered o))) : Rule (Expr .boolean) :=
  choice
    [("string", comparisonOver (operand .string)),
     ("date-time", comparisonOver (operand .instant)),
     ("int", comparisonOver (operand (.number (.whole .int)))),
     ("long", comparisonOver (operand (.number (.whole .long)))),
     ("double", comparisonOver (operand (.number .double)))]

theorem agreeOn_comparisonOver (nests : Nests fits within)
    {operand operand' : Rule (Expr (.ordered o))} (balanced : TakesBalanced operand)
    (agree : AgreeOn fits operand operand') :
    AgreeOn fits (comparisonOver operand) (comparisonOver operand') :=
  agreeOn_bind nests balanced agree fun _ =>
    agreeOn_bind nests (takesBalanced_take fun _ _ => nest_of_relation?) (agreeOn_refl _ _) fun _ =>
      agreeOn_bind nests balanced agree fun _ => agreeOn_refl _ _

theorem agreeOn_relationOver (nests : Nests fits within)
    {operand operand' : (o : Ordered) → Rule (Expr (.ordered o))}
    (balanced : ∀ o, TakesBalanced (operand o)) (agree : ∀ o, AgreeOn fits (operand o) (operand' o)) :
    AgreeOn fits (relationOver operand) (relationOver operand') := by
  apply agreeOn_choice
  repeat' constructor
  all_goals exact agreeOn_comparisonOver nests (balanced _) (agree _)

theorem takesBalanced_relationWithin (depth : Nat) : TakesBalanced (relationWithin depth) := by
  apply takes_choice
  simp only [List.mem_cons, List.not_mem_nil, or_false, forall_eq_or_imp, forall_eq]
  refine ⟨?_, ?_, ?_, ?_, ?_⟩ <;>
    exact (takes_comparisonWithin depth _).mono fun _ _ _ row => row.balanced

theorem takesBalanced_termOver (balanced : TakesBalanced atom) (balanced' : TakesBalanced inner) :
    TakesBalanced (termOver atom inner) := by
  apply takes_choice
  simp only [List.mem_cons, List.not_mem_nil, or_false, forall_eq_or_imp, forall_eq]
  refine ⟨balanced, takesBalanced_parenthesized balanced', takesBalanced_take ?_,
    takesBalanced_name⟩
  intro t e literal opened
  cases t <;> first | rfl | cases literal

theorem takesBalanced_conditionOver (balanced : TakesBalanced atom)
    (balanced' : TakesBalanced inner) : TakesBalanced (conditionOver atom inner) :=
  takesBalanced_chain (fun _ _ => nest_of_joinCondition) (takesBalanced_termOver balanced balanced')

theorem takesBalanced_conditionWithin (depth : Nat) : TakesBalanced (conditionWithin depth) := by
  induction depth with
  | zero => exact takesBalanced_conditionOver (takesBalanced_relationWithin 0) takes_exhausted
  | succ depth ih => exact takesBalanced_conditionOver (takesBalanced_relationWithin (depth + 1)) ih

theorem agreeOn_termOver (nests : Nests fits within) (agree : AgreeOn fits atom atom')
    (agree' : AgreeOn within inner inner') :
    AgreeOn fits (termOver atom inner) (termOver atom' inner') := by
  apply agreeOn_choice
  repeat' constructor
  · exact agree
  · exact agreeOn_parenthesized nests agree'
  · exact agreeOn_refl _ _
  · exact agreeOn_refl _ _

theorem agreeOn_conditionOver (nests : Nests fits within) (balanced : TakesBalanced atom)
    (balanced' : TakesBalanced inner) (agree : AgreeOn fits atom atom')
    (agree' : AgreeOn within inner inner') :
    AgreeOn fits (conditionOver atom inner) (conditionOver atom' inner') :=
  agreeOn_chain nests (fun _ _ => nest_of_joinCondition) (takesBalanced_termOver balanced balanced')
    (agreeOn_termOver nests agree agree')

end Condition

end Rule

end Formula
