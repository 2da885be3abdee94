import Formula.Proofs.Rule.Run
import Formula.Source
import Mathlib.Data.List.Forall2

/-! The rules read tokens and not places: on the same tokens at other places, they make the same
value, or fail for the same cause at the place that goes with it. -/

namespace Formula

def ParseError.SameCause : ParseError → ParseError → Prop
  | .invalidToken text _, .invalidToken text' _ => text = text'
  | .invalidDateTime literal reason _, .invalidDateTime literal' reason' _ =>
    literal = literal' ∧ reason = reason'
  | .literalTooLarge literal _, .literalTooLarge literal' _ => literal = literal'
  | .unexpectedToken token expected _, .unexpectedToken token' expected' _ =>
    token = token' ∧ expected = expected'
  | .unexpectedEndOfInput expected _, .unexpectedEndOfInput expected' _ => expected = expected'
  | .unexpectedTrailingTokens token _, .unexpectedTrailingTokens token' _ => token = token'
  | .noMatchingAlternative _ trace, .noMatchingAlternative _ trace' => trace.length = trace'.length
  | .nestingTooDeep limit _, .nestingTooDeep limit' _ => limit = limit'
  | _, _ => False

variable (R : Nat → Nat → Prop)

def ParseError.Moved (e e' : ParseError) : Prop := e.SameCause e' ∧ R e.offset e'.offset

def Located.Moved (t t' : Located) : Prop := t.token = t'.token ∧ R t.offset t'.offset

def Cursor.Moved (c c' : Cursor) : Prop :=
  List.Forall₂ (Located.Moved R) c.tokens c'.tokens ∧ R c.stop c'.stop

theorem Cursor.Moved.offset {R : Nat → Nat → Prop} {c c' : Cursor} (moved : c.Moved R c') :
    R c.offset c'.offset := by
  obtain ⟨tokens, stop⟩ := c
  obtain ⟨tokens', stop'⟩ := c'
  obtain ⟨same, ends⟩ := moved
  cases same with
  | nil => exact ends
  | cons first _ => exact first.2

theorem ParseError.SameCause.length_linesUnder {e e' : ParseError} (same : e.SameCause e')
    (label : String) :
    (e.linesUnder label).length = (e'.linesUnder label).length := by
  unfold ParseError.SameCause at same
  split at same
  case h_7 => simp [linesUnder, same]
  case h_9 => exact same.elim
  all_goals rfl

namespace Rule

variable {α α' β β' : Type}

def Ends (V : α → α' → Prop) :
    EStateM.Result ParseError Cursor α → EStateM.Result ParseError Cursor α' → Prop
  | .ok a after, .ok a' after' => V a a' ∧ after.Moved R after'
  | .error e _, .error e' _ => e.Moved R e'
  | _, _ => False

def Alike (V : α → α' → Prop) (rule : Rule α) (rule' : Rule α') : Prop :=
  ∀ c c' : Cursor, c.Moved R c' → Ends R V (rule c) (rule' c')

variable {R} {V : α → α' → Prop} {W : β → β' → Prop}

theorem Ends.cases {result : EStateM.Result ParseError Cursor α}
    {result' : EStateM.Result ParseError Cursor α'} (ends : Ends R V result result') :
    (∃ a a' after after', result = .ok a after ∧ result' = .ok a' after' ∧ V a a' ∧
        after.Moved R after') ∨
      ∃ e e' after after', result = .error e after ∧ result' = .error e' after' ∧ e.Moved R e' := by
  cases result with
  | ok a after =>
    cases result' with
    | ok a' after' => exact .inl ⟨a, a', after, after', rfl, rfl, ends⟩
    | error e' after' => exact ends.elim
  | error e after =>
    cases result' with
    | ok a' after' => exact ends.elim
    | error e' after' => exact .inr ⟨e, e', after, after', rfl, rfl, ends⟩

theorem alike_pure {a : α} {a' : α'} (same : V a a') : Alike R V (pure a) (pure a') :=
  fun _ _ moved => ⟨same, moved⟩

theorem alike_throw {e e' : ParseError} (moved : e.Moved R e') :
    Alike R V (throw e) (throw e') :=
  fun _ _ _ => moved

theorem alike_bind {first : Rule α} {first' : Rule α'} {second : α → Rule β}
    {second' : α' → Rule β'} (alike : Alike R V first first')
    (alike' : ∀ a a', V a a' → Alike R W (second a) (second' a')) :
    Alike R W (first >>= second) (first' >>= second') := by
  intro c c' moved
  obtain ⟨a, a', after, after', found, found', same, moved'⟩ |
    ⟨e, e', after, after', found, found', moved'⟩ := (alike c c' moved).cases
  · rw [bind_run, bind_run, found, found']
    exact alike' a a' same after after' moved'
  · rw [bind_run, bind_run, found, found']
    exact moved'

theorem alike_offset : Alike R R offset offset := fun _ _ moved => ⟨moved.offset, moved⟩

theorem alike_remaining : Alike R Eq remaining remaining :=
  fun _ _ moved => ⟨moved.1.length_eq, moved⟩

theorem alike_peek : Alike R Eq peek peek := by
  intro c c' moved
  refine ⟨?_, moved⟩
  obtain ⟨tokens, stop⟩ := c
  obtain ⟨tokens', stop'⟩ := c'
  cases moved.1 with
  | nil => rfl
  | cons first _ => exact congrArg some first.1

theorem alike_next : Alike R (Option.Rel (Located.Moved R)) next next := by
  intro c c' moved
  obtain ⟨tokens, stop⟩ := c
  obtain ⟨tokens', stop'⟩ := c'
  obtain ⟨same, ends⟩ := moved
  cases same with
  | nil => exact ⟨.none, .nil, ends⟩
  | cons first rest => exact ⟨.some first, rest, ends⟩

/-- The rule makes the same value at places that go together, or errors that go together. -/
def Uniform (R : Nat → Nat → Prop) (rule : Rule α) : Prop := Alike R Eq rule rule

theorem uniform_take (expected : String) (read : Token → Option α) :
    Uniform R (take expected read) := by
  refine alike_bind alike_next fun t t' same => ?_
  cases same with
  | none => exact alike_bind alike_offset fun o o' place => alike_throw ⟨rfl, place⟩
  | @some t t' same =>
    simp only [same.1]
    cases read t'.token with
    | none => exact alike_throw ⟨⟨rfl, rfl⟩, same.2⟩
    | some a => exact alike_pure rfl

theorem uniform_refuse (expected : String) : Uniform R (refuse expected : Rule α) := by
  refine alike_bind alike_peek fun token token' same => ?_
  subst same
  cases token with
  | none => exact alike_bind alike_offset fun o o' place => alike_throw ⟨rfl, place⟩
  | some token => exact alike_bind alike_offset fun o o' place => alike_throw ⟨⟨rfl, rfl⟩, place⟩

theorem uniform_map {f : α → β} {rule : Rule α} (uniform : Uniform R rule) :
    Uniform R (f <$> rule) := by
  rw [← bind_pure_comp]
  exact alike_bind uniform fun a a' same => alike_pure (congrArg f same)

theorem uniform_parenthesized {inner : Rule α} (uniform : Uniform R inner) :
    Uniform R (parenthesized inner) := by
  refine alike_bind (uniform_take _ _) fun _ _ _ => ?_
  refine alike_bind uniform fun a a' same => ?_
  exact alike_bind (uniform_take _ _) fun _ _ _ => alike_pure same

theorem uniform_exhausted : Uniform R (exhausted : Rule α) :=
  alike_bind alike_offset fun _ _ place => alike_throw ⟨rfl, place⟩

section Chain

variable {operand : Rule α} {join : Token → Option (α → α → α)}

theorem uniform_chainFrom (uniform : Uniform R operand) (steps : Nat) (left : α) :
    Uniform R (chainFrom operand join steps left) := by
  induction steps generalizing left with
  | zero => exact alike_pure rfl
  | succ steps ih =>
    refine alike_bind alike_peek fun token token' same => ?_
    subst same
    cases token.bind join with
    | none => exact alike_pure rfl
    | some combine =>
      refine alike_bind alike_next fun _ _ _ => ?_
      refine alike_bind uniform fun right right' same => ?_
      subst same
      exact ih (combine left right)

theorem uniform_chain (uniform : Uniform R operand) : Uniform R (chain operand join) := by
  refine alike_bind uniform fun left left' same => ?_
  subst same
  refine alike_bind alike_remaining fun steps steps' same => ?_
  subst same
  exact uniform_chainFrom uniform steps left

end Chain

/-- The greatest of several places goes with the greatest of those that go with them. -/
def KeepsMax (R : Nat → Nat → Prop) : Prop :=
  ∀ o o' q q', R o o' → R q q' → R (max o q) (max o' q')

theorem ends_firstOf (greatest : KeepsMax R) {start start' : Cursor} (moved : start.Moved R start')
    {alternatives : List (String × Rule α)} (uniform : ∀ x ∈ alternatives, Uniform R x.2)
    {furthest furthest' : Nat} (place : R furthest furthest') {trace trace' : List String}
    (lines : trace.length = trace'.length) :
    Ends R Eq (firstOf start alternatives furthest trace)
      (firstOf start' alternatives furthest' trace') := by
  induction alternatives generalizing furthest furthest' trace trace' with
  | nil => exact ⟨lines, place⟩
  | cons alternative rest ih =>
    rw [List.forall_mem_cons] at uniform
    simp only [firstOf]
    obtain ⟨a, a', after, after', found, found', ends⟩ |
      ⟨e, e', after, after', found, found', same, place'⟩ := (uniform.1 start start' moved).cases
    · rw [found, found']
      exact ends
    · -- The lists of failures grow by as many lines, and the furthest places still go together.
      rw [found, found']
      refine ih uniform.2 (greatest _ _ _ _ place place') ?_
      rw [List.length_append, List.length_append, lines, same.length_linesUnder]

theorem uniform_choice (greatest : KeepsMax R) {alternatives : List (String × Rule α)}
    (uniform : ∀ x ∈ alternatives, Uniform R x.2) : Uniform R (choice alternatives) :=
  fun _ _ moved => ends_firstOf greatest moved uniform moved.offset rfl

section Numbers

variable {n : Numeric}

theorem uniform_dottedName : Uniform R dottedName := uniform_chain (uniform_take _ _)

theorem uniform_name {kind : Kind} : Uniform R (name : Rule (Expr kind)) :=
  uniform_map uniform_dottedName

theorem alike_literal (negative : Bool) {start start' : Nat} (place : R start start') :
    Alike R Eq (literal n negative start) (literal n negative start') := by
  refine alike_bind alike_next fun t t' same => ?_
  cases same with
  | none => exact alike_bind alike_offset fun o o' place => alike_throw ⟨rfl, place⟩
  | @some t t' same =>
    simp only [same.1]
    cases n with
    | whole width =>
      simp only [Numeric.literal?]
      cases Numeric.digits? width t'.token with
      | none => exact alike_throw ⟨⟨rfl, rfl⟩, same.2⟩
      | some m =>
        simp only [Option.map_some]
        cases Whole.ofInt? width (Numeric.signed negative m) with
        | none => exact alike_throw ⟨rfl, place⟩
        | some value => exact alike_pure rfl
    | double =>
      simp only [Numeric.literal?]
      cases t'.token with
      | double x => exact alike_pure rfl
      | _ => exact alike_throw ⟨⟨rfl, rfl⟩, same.2⟩

theorem uniform_factorOver {inner : Rule (Expr (.number n))} (uniform : Uniform R inner) :
    Uniform R (factorOver inner) := by
  refine alike_bind alike_peek fun token token' same => ?_
  subst same
  split
  · exact uniform_parenthesized uniform
  · exact uniform_name
  · refine alike_bind alike_offset fun start start' place => ?_
    exact alike_bind alike_next fun _ _ _ => alike_literal true place
  · exact alike_bind alike_offset fun start start' place => alike_literal false place

theorem uniform_sumOver {inner : Rule (Expr (.number n))} (uniform : Uniform R inner) :
    Uniform R (sumOver inner) :=
  uniform_chain (uniform_chain (uniform_factorOver uniform))

theorem uniform_sumWithin (depth : Nat) : Uniform R (sumWithin n depth) := by
  induction depth with
  | zero => exact uniform_sumOver uniform_exhausted
  | succ depth ih => exact uniform_sumOver ih

theorem uniform_sum : Uniform R (sum n) := by
  refine alike_bind alike_remaining fun depth depth' same => ?_
  subst same
  exact uniform_sumWithin depth

end Numbers

section Conditions

theorem uniform_stringOperand : Uniform R stringOperand := by
  refine alike_bind alike_peek fun token token' same => ?_
  subst same
  split
  · exact alike_bind alike_next fun _ _ _ => alike_pure rfl
  · exact uniform_name
  · exact uniform_refuse _

theorem uniform_instantOperand : Uniform R instantOperand := by
  refine alike_bind alike_peek fun token token' same => ?_
  subst same
  split
  · exact alike_bind alike_next fun _ _ _ => alike_pure rfl
  · exact uniform_name
  · exact uniform_refuse _

theorem uniform_operandWithin (depth : Nat) (o : Ordered) : Uniform R (operandWithin depth o) := by
  cases o with
  | string => exact uniform_stringOperand
  | instant => exact uniform_instantOperand
  | number n => exact uniform_sumWithin depth

theorem uniform_comparisonWithin (depth : Nat) (o : Ordered) :
    Uniform R (comparisonWithin depth o) := by
  refine alike_bind (uniform_operandWithin depth o) fun left left' same => ?_
  refine alike_bind (uniform_take _ _) fun op op' same' => ?_
  refine alike_bind (uniform_operandWithin depth o) fun right right' same'' => ?_
  rw [same, same', same'']
  exact alike_pure rfl

variable (greatest : KeepsMax R)

include greatest

theorem uniform_relationWithin (depth : Nat) : Uniform R (relationWithin depth) := by
  apply uniform_choice greatest
  simp only [List.forall_mem_cons]
  exact ⟨uniform_comparisonWithin depth _, uniform_comparisonWithin depth _,
    uniform_comparisonWithin depth _, uniform_comparisonWithin depth _,
    uniform_comparisonWithin depth _, nofun⟩

theorem uniform_conditionOver {relation inner : Rule (Expr .boolean)}
    (uniform : Uniform R relation) (uniform' : Uniform R inner) :
    Uniform R (conditionOver relation inner) := by
  apply uniform_chain
  apply uniform_choice greatest
  simp only [List.forall_mem_cons]
  exact ⟨uniform, uniform_parenthesized uniform', uniform_take _ _, uniform_name, nofun⟩

theorem uniform_conditionWithin (depth : Nat) : Uniform R (conditionWithin depth) := by
  induction depth with
  | zero =>
    exact uniform_conditionOver greatest (uniform_relationWithin greatest 0) uniform_exhausted
  | succ depth ih =>
    exact uniform_conditionOver greatest (uniform_relationWithin greatest (depth + 1)) ih

theorem uniform_condition : Uniform R condition := by
  refine alike_bind alike_remaining fun depth depth' same => ?_
  subst same
  exact uniform_conditionWithin greatest depth

theorem uniform_rule (goal : Goal) : Uniform R goal.rule := by
  cases goal with
  | boolean => exact uniform_condition greatest
  | number n => exact uniform_sum

end Conditions

end Rule

namespace Source

variable {α : Type} {R}

def Agree (R : Nat → Nat → Prop) (result result' : Except ParseError α) : Prop :=
  (∃ a, result = .ok a ∧ result' = .ok a) ∨
    ∃ e e', result = .error e ∧ result' = .error e' ∧ e.Moved R e'

theorem agree_checkNesting (limit opened : Nat) {tokens tokens' : List Located}
    (same : List.Forall₂ (Located.Moved R) tokens tokens') :
    Agree R (checkNesting limit opened tokens) (checkNesting limit opened tokens') := by
  induction same generalizing opened with
  | nil => exact .inl ⟨(), rfl, rfl⟩
  | @cons t t' rest rest' first _ ih =>
    simp only [checkNesting, first.1]
    cases t'.token with
    | openParen =>
      by_cases full : limit ≤ opened
      · rw [if_pos full, if_pos full]
        exact .inr ⟨_, _, rfl, rfl, rfl, first.2⟩
      · rw [if_neg full, if_neg full]
        exact ih (opened + 1)
    | closeParen => exact ih (opened - 1)
    | _ => exact ih opened

theorem agree_complete {rule : Rule α} (uniform : Rule.Uniform R rule) {c c' : Cursor}
    (moved : c.Moved R c') : Agree R (complete rule c) (complete rule c') := by
  obtain ⟨a, a', after, after', found, found', same, left, -⟩ |
    ⟨e, e', after, after', found, found', moved'⟩ := (uniform c c' moved).cases
  · subst same
    rw [complete, complete, found, found']
    obtain ⟨tokens, stop⟩ := after
    obtain ⟨tokens', stop'⟩ := after'
    cases left with
    | nil => exact .inl ⟨a, rfl, rfl⟩
    | cons first _ => exact .inr ⟨_, _, rfl, rfl, congrArg Token.text first.1, first.2⟩
  · rw [complete, complete, found, found']
    exact .inr ⟨e, e', rfl, rfl, moved'⟩

theorem agree_parseTokens {rule : Rule α} (uniform : Rule.Uniform R rule) (limit : Nat)
    {c c' : Cursor} (moved : c.Moved R c') :
    Agree R (parseTokens rule limit c) (parseTokens rule limit c') := by
  obtain ⟨_, nested, nested'⟩ | ⟨e, e', nested, nested', moved'⟩ :=
    agree_checkNesting limit 0 moved.1
  · rw [parseTokens, parseTokens, nested, nested']
    exact agree_complete uniform moved
  · rw [parseTokens, parseTokens, nested, nested']
    exact .inr ⟨e, e', rfl, rfl, moved'⟩

end Source

end Formula
