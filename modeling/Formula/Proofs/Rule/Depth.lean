import Formula.Proofs.Rule.Agree
import Formula.Source

/-! The depth that a rule is given is never used up, so that the rules satisfy the equations of the
grammar without it. -/

namespace Formula.Rule

variable {α : Type} {n : Numeric}

def AgreeBelow (bound : Nat) (rule rule' : Rule α) : Prop :=
  ∀ c : Cursor, c.tokens.length < bound → rule c = rule' c

theorem agreeBelow_zero (rule rule' : Rule α) : AgreeBelow 0 rule rule' :=
  fun _ short => absurd short (Nat.not_lt_zero _)

theorem nests_length (bound : Nat) :
    Nests (fun c => c.tokens.length < bound + 1) (fun c => c.tokens.length < bound) where
  behind := by
    intro taken rest stop _ short
    simp only [List.length_append] at short ⊢
    omega
  inside := by
    intro t rest stop _ short
    simpa using short

theorem takes_sumWithin_sum (depth : Nat) :
    Takes (sumWithin n depth) fun ts _ e => ReadsNumber n .sum ts e :=
  (takes_sumWithin depth).mono fun _ _ _ => And.left

theorem agreeBelow_sumWithin {bound depth depth' : Nat} (enough : bound ≤ depth)
    (enough' : bound ≤ depth') :
    AgreeBelow (bound + 1) (sumWithin n depth) (sumWithin n depth') := by
  induction bound generalizing depth depth' with
  | zero =>
    cases depth <;> cases depth' <;>
      exact agreeOn_sumOver (nests_length 0)
        (by first | exact takes_exhausted | exact takes_sumWithin_sum _) (agreeBelow_zero _ _)
  | succ bound ih =>
    obtain ⟨depth, rfl⟩ : ∃ d, depth = d + 1 := Nat.exists_eq_add_one.2 (by omega)
    obtain ⟨depth', rfl⟩ : ∃ d, depth' = d + 1 := Nat.exists_eq_add_one.2 (by omega)
    exact agreeOn_sumOver (nests_length (bound + 1)) (takes_sumWithin_sum _)
      (ih (by omega) (by omega))

theorem sum_run (c : Cursor) : sum n c = sumWithin n c.tokens.length c := rfl

theorem sumWithin_eq_sum {depth : Nat} {c : Cursor} (enough : c.tokens.length ≤ depth) :
    sumWithin n depth c = sum n c :=
  agreeBelow_sumWithin enough (Nat.le_refl _) c (Nat.lt_succ_self _)

theorem takes_sum :
    Takes (sum n) fun ts rest e => ReadsNumber n .sum ts e ∧ Level.sum.Ends ts rest :=
  fun c _ _ found => takes_sumWithin c.tokens.length _ _ _ found

theorem agreeBelow_sum (bound : Nat) : AgreeBelow (bound + 1) (sumWithin n bound) (sum n) :=
  fun _ short => sumWithin_eq_sum (Nat.le_of_lt_succ short)

theorem factor_eq : factor n = factorOver (sum n) := by
  funext c
  exact agreeOn_factorOver (nests_length (c.tokens.length + 1)) (agreeBelow_sum c.tokens.length) c
    (by omega)

theorem product_eq : product n = chain (factor n) joinProduct := by
  rw [factor_eq]
  funext c
  exact agreeOn_productOver (nests_length (c.tokens.length + 1)) (takes_sumWithin_sum _)
    (agreeBelow_sum c.tokens.length) c (by omega)

theorem sum_eq : sum n = chain (product n) joinSum := by
  rw [product_eq, factor_eq]
  funext c
  rw [sum_run]
  cases length : c.tokens.length with
  | zero =>
    exact agreeOn_sumOver (nests_length 0) takes_exhausted (agreeBelow_zero _ _) c (by omega)
  | succ depth =>
    exact agreeOn_sumOver (nests_length (depth + 1)) (takes_sumWithin_sum depth)
      (agreeBelow_sum depth) c (by omega)

theorem sum_eq_sumOver : sum n = sumOver (sum n) := by
  rw [sumOver, productOver, ← factor_eq, ← product_eq, ← sum_eq]

section Condition

variable {o : Ordered}

theorem agreeBelow_operandWithin {bound depth depth' : Nat} (enough : bound ≤ depth)
    (enough' : bound ≤ depth') :
    AgreeBelow (bound + 1) (operandWithin depth o) (operandWithin depth' o) := by
  cases o with
  | string | instant => exact agreeOn_refl _ _
  | number n => exact agreeBelow_sumWithin enough enough'

theorem agreeBelow_relationWithin {bound depth depth' : Nat} (enough : bound ≤ depth)
    (enough' : bound ≤ depth') :
    AgreeBelow (bound + 1) (relationWithin depth) (relationWithin depth') :=
  agreeOn_relationOver (nests_length bound) (takesBalanced_operandWithin depth)
    fun _ => agreeBelow_operandWithin enough enough'

theorem agreeBelow_conditionWithin {bound depth depth' : Nat} (enough : bound ≤ depth)
    (enough' : bound ≤ depth') :
    AgreeBelow (bound + 1) (conditionWithin depth) (conditionWithin depth') := by
  induction bound generalizing depth depth' with
  | zero =>
    cases depth <;> cases depth' <;>
      exact agreeOn_conditionOver (nests_length 0) (takesBalanced_relationWithin _)
        (by first | exact takes_exhausted | exact takesBalanced_conditionWithin _)
        (agreeBelow_relationWithin (Nat.zero_le _) (Nat.zero_le _)) (agreeBelow_zero _ _)
  | succ bound ih =>
    obtain ⟨depth, rfl⟩ : ∃ d, depth = d + 1 := Nat.exists_eq_add_one.2 (by omega)
    obtain ⟨depth', rfl⟩ : ∃ d, depth' = d + 1 := Nat.exists_eq_add_one.2 (by omega)
    exact agreeOn_conditionOver (nests_length (bound + 1)) (takesBalanced_relationWithin _)
      (takesBalanced_conditionWithin depth) (agreeBelow_relationWithin enough enough')
      (ih (by omega) (by omega))

theorem agreeBelow_operand (bound : Nat) :
    AgreeBelow (bound + 1) (operandWithin bound o) (operand o) :=
  fun c short => agreeBelow_operandWithin (Nat.le_of_lt_succ short) (Nat.le_refl _) c
    (Nat.lt_succ_self _)

theorem comparison_eq_comparisonOver : comparison o = comparisonOver (operand o) := by
  funext c
  exact agreeOn_comparisonOver (nests_length c.tokens.length) (takesBalanced_operandWithin _ o)
    (agreeBelow_operand c.tokens.length) c (Nat.lt_succ_self _)

theorem comparison_eq :
    comparison o = do
      let left ← operand o
      let op ← take "a relational operator" Token.relation?
      let right ← operand o
      return .compare op left right :=
  comparison_eq_comparisonOver

theorem relation_eq :
    relation = choice
      [("string", comparison .string),
       ("date-time", comparison .instant),
       ("int", comparison (.number (.whole .int))),
       ("long", comparison (.number (.whole .long))),
       ("double", comparison (.number .double))] := rfl

theorem relation_eq_relationOver : relation = relationOver operand := by
  rw [relation_eq, relationOver]
  simp only [comparison_eq_comparisonOver]

theorem condition_run (c : Cursor) : condition c = conditionWithin c.tokens.length c := rfl

theorem agreeBelow_relation (bound : Nat) :
    AgreeBelow (bound + 1) (relationWithin bound) relation :=
  fun c short => agreeBelow_relationWithin (Nat.le_of_lt_succ short) (Nat.le_refl _) c
    (Nat.lt_succ_self _)

theorem agreeBelow_condition (bound : Nat) :
    AgreeBelow (bound + 1) (conditionWithin bound) condition :=
  fun c short => agreeBelow_conditionWithin (Nat.le_of_lt_succ short) (Nat.le_refl _) c
    (Nat.lt_succ_self _)

theorem takesBalanced_relation : TakesBalanced relation :=
  fun c _ _ found => takesBalanced_relationWithin c.tokens.length _ _ _ found

theorem takesBalanced_condition : TakesBalanced condition :=
  fun c _ _ found => takesBalanced_conditionWithin c.tokens.length _ _ _ found

theorem term_eq : term = termOver relation condition := by
  funext c
  have below := agreeBelow_condition c.tokens.length
  exact agreeOn_termOver (nests_length c.tokens.length) (agreeBelow_relation c.tokens.length)
    (fun between short => below between (Nat.lt_succ_of_lt short)) c (Nat.lt_succ_self _)

theorem condition_eq : condition = chain term joinCondition := by
  rw [term_eq]
  funext c
  rw [condition_run]
  cases length : c.tokens.length with
  | zero =>
    exact agreeOn_conditionOver (nests_length 0) (takesBalanced_relationWithin 0) takes_exhausted
      (agreeBelow_relation 0) (agreeBelow_zero _ _) c (by omega)
  | succ depth =>
    exact agreeOn_conditionOver (nests_length (depth + 1))
      (takesBalanced_relationWithin (depth + 1)) (takesBalanced_conditionWithin depth)
      (agreeBelow_relation (depth + 1)) (agreeBelow_condition depth) c (by omega)

theorem condition_eq_conditionOver : condition = conditionOver relation condition := by
  rw [conditionOver, ← term_eq, ← condition_eq]

end Condition

end Formula.Rule
