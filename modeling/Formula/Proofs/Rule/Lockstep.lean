import Formula.Proofs.Rule.Forward
import Formula.Proofs.Rule.Spot

/-! The rules of arithmetic of two kinds move in step until they take a literal of a number. -/

namespace Formula

def Token.isNumber : Token → Bool
  | .int _ | .long _ | .double _ => true
  | _ => false

def IsPlain (row : List Located) : Prop := ∀ t ∈ row, ¬ t.token.isNumber

instance (row : List Located) : Decidable (IsPlain row) :=
  inferInstanceAs (Decidable (∀ t ∈ row, ¬ t.token.isNumber))

inductive Expr.SameTree {n m : Numeric} : Expr (.number n) → Expr (.number m) → Prop
  | var (name : String) : SameTree (.var name) (.var name)
  | arith (op : Arithmetic) {l r : Expr (.number n)} {l' r' : Expr (.number m)} :
      SameTree l l' → SameTree r r' → SameTree (.arith op l r) (.arith op l' r')

theorem Numeric.IsLiteral.isNumber {n : Numeric} {t : Token} (literal : n.IsLiteral t) :
    t.isNumber := by
  cases n with
  | double =>
    obtain ⟨x, rfl⟩ := literal
    rfl
  | whole width =>
    obtain ⟨digits, rfl⟩ := literal
    cases width <;> rfl

theorem isPlain_nil : IsPlain [] := nofun

theorem isPlain_singleton {t : Located} (plain : ¬ t.token.isNumber) : IsPlain [t] := by
  intro t' present
  rwa [List.mem_singleton.mp present]

theorem IsPlain.append {front back : List Located} (first : IsPlain front)
    (second : IsPlain back) : IsPlain (front ++ back) := by
  intro t present
  obtain before | behind := List.mem_append.mp present
  · exact first t before
  · exact second t behind

namespace Rule

variable {α α' β β' : Type} {n m : Numeric} {V : α → α' → Prop} {W : β → β' → Prop} {c : Cursor}

/-- How two rules end that start at one cursor. Before either takes a literal of a number, both make
values that go together, or both fail, at one offset; else the first that they take is the same. -/
inductive InStep (V : α → α' → Prop) (c : Cursor) :
    EStateM.Result ParseError Cursor α → EStateM.Result ParseError Cursor α' → Prop
  | made {taken : List Located} {after : Cursor} {a : α} {a' : α'} :
      c = ⟨taken ++ after.tokens, after.stop⟩ → IsPlain taken → V a a' →
      InStep V c (.ok a after) (.ok a' after)
  | failed {taken : List Located} {after : Cursor} {e e' : ParseError} :
      c = ⟨taken ++ after.tokens, after.stop⟩ → IsPlain taken → e'.offset = e.offset →
      InStep V c (.error e after) (.error e' after)
  | met {front rest : List Located} {stop : Nat} {t : Located}
      {result : EStateM.Result ParseError Cursor α}
      {result' : EStateM.Result ParseError Cursor α'} :
      c = ⟨front ++ t :: rest, stop⟩ → IsPlain front → t.token.isNumber →
      Cursor.Precedes ⟨rest, stop⟩ (leaves result) →
      Cursor.Precedes ⟨rest, stop⟩ (leaves result') → InStep V c result result'

def Lockstep (V : α → α' → Prop) (rule : Rule α) (rule' : Rule α') : Prop :=
  ∀ c, InStep V c (rule c) (rule' c)

section Results

variable {result : EStateM.Result ParseError Cursor α}
  {result' : EStateM.Result ParseError Cursor α'}

theorem InStep.made_here {a : α} {a' : α'} (same : V a a') : InStep V c (.ok a c) (.ok a' c) :=
  .made (List.nil_append c.tokens ▸ rfl) isPlain_nil same

theorem InStep.failed_here {e e' : ParseError} (place : e'.offset = e.offset) :
    InStep V c (.error e c) (.error e' c) :=
  .failed (List.nil_append c.tokens ▸ rfl) isPlain_nil place

theorem InStep.met_here {t : Located} {rest : List Located} {stop : Nat}
    (literal : t.token.isNumber) (ahead : Cursor.Precedes ⟨rest, stop⟩ (leaves result))
    (ahead' : Cursor.Precedes ⟨rest, stop⟩ (leaves result')) :
    InStep V ⟨t :: rest, stop⟩ result result' :=
  .met (List.nil_append (t :: rest) ▸ rfl) isPlain_nil literal ahead ahead'

theorem InStep.behind {taken : List Located} (step : InStep V c result result')
    (plain : IsPlain taken) : InStep V ⟨taken ++ c.tokens, c.stop⟩ result result' := by
  cases step with
  | made shape plain' same =>
    subst shape
    exact .made (by rw [List.append_assoc]) (plain.append plain') same
  | failed shape plain' place =>
    subst shape
    exact .failed (by rw [List.append_assoc]) (plain.append plain') place
  | met shape plain' literal ahead ahead' =>
    subst shape
    exact .met (by rw [List.append_assoc]) (plain.append plain') literal ahead ahead'

theorem InStep.cons {t : Located} {rest : List Located} {stop : Nat}
    (step : InStep V ⟨rest, stop⟩ result result') (plain : ¬ t.token.isNumber) :
    InStep V ⟨t :: rest, stop⟩ result result' :=
  step.behind (isPlain_singleton plain)

end Results

theorem lockstep_pure {a : α} {a' : α'} (same : V a a') : Lockstep V (pure a) (pure a') :=
  fun _ => .made_here same

theorem lockstep_bind {first : Rule α} {first' : Rule α'} {second : α → Rule β}
    {second' : α' → Rule β'} (step : Lockstep V first first')
    (step' : ∀ a a', V a a' → Lockstep W (second a) (second' a'))
    (forward : ∀ a, Forward (second a)) (forward' : ∀ a', Forward (second' a')) :
    Lockstep W (first >>= second) (first' >>= second') := by
  intro c
  have start := step c
  generalize found : first c = result at start
  generalize found' : first' c = result' at start
  cases start with
  | made shape plain same =>
    subst shape
    rw [bind_run, bind_run, found, found']
    exact (step' _ _ same _).behind plain
  | failed shape plain place =>
    rw [bind_run, bind_run, found, found']
    exact .failed shape plain place
  | met shape plain literal ahead ahead' =>
    subst found found'
    exact .met shape plain literal (precedes_bind ahead forward) (precedes_bind ahead' forward')

theorem lockstep_map {f : α → β} {f' : α' → β'} {rule : Rule α} {rule' : Rule α'}
    (step : Lockstep V rule rule') (same : ∀ a a', V a a' → W (f a) (f' a')) :
    Lockstep W (f <$> rule) (f' <$> rule') := by
  rw [← bind_pure_comp, ← bind_pure_comp]
  exact lockstep_bind step (fun a a' same' => lockstep_pure (same a a' same'))
    (fun _ => forward_pure _) fun _ => forward_pure _

theorem lockstep_take (expected : String) (read : Token → Option α) :
    Lockstep Eq (take expected read) (take expected read) := by
  intro c
  obtain ⟨tokens, stop⟩ := c
  cases tokens with
  | nil => exact .failed_here rfl
  | cons t rest =>
    rw [take_cons]
    by_cases literal : t.token.isNumber
    · split <;> exact .met_here literal (.refl _) (.refl _)
    · split
      · exact (InStep.made_here rfl).cons literal
      · exact (InStep.failed_here rfl).cons literal

theorem lockstep_parenthesized {inner : Rule α} {inner' : Rule α'} (step : Lockstep V inner inner')
    (forward : Forward inner) (forward' : Forward inner') :
    Lockstep V (parenthesized inner) (parenthesized inner') := by
  refine lockstep_bind (lockstep_take _ _) (fun _ _ _ => ?_)
    (fun _ => forward_bind forward forward_closing) fun _ => forward_bind forward' forward_closing
  refine lockstep_bind step (fun a a' same => ?_) forward_closing forward_closing
  exact lockstep_bind (lockstep_take _ _) (fun _ _ _ => lockstep_pure same)
    (fun _ => forward_pure _) fun _ => forward_pure _

section Chain

variable {operand : Rule α} {operand' : Rule α'} {join : Token → Option (α → α → α)}
  {join' : Token → Option (α' → α' → α')}

structure JoinInStep (V : α → α' → Prop) (join : Token → Option (α → α → α))
    (join' : Token → Option (α' → α' → α')) : Prop where
  joins : ∀ t, Option.Rel (fun combine combine' =>
    ∀ a a' b b', V a a' → V b b' → V (combine a b) (combine' a' b')) (join t) (join' t)
  plain : ∀ t combine, join t = some combine → ¬ t.isNumber

theorem lockstep_chainFrom (step : Lockstep V operand operand') (forward : Forward operand)
    (forward' : Forward operand') (together : JoinInStep V join join') (steps : Nat) {a : α}
    {a' : α'} (same : V a a') :
    Lockstep V (chainFrom operand join steps a) (chainFrom operand' join' steps a') := by
  induction steps generalizing a a' with
  | zero => exact lockstep_pure same
  | succ steps ih =>
    intro c
    obtain ⟨tokens, stop⟩ := c
    cases tokens with
    | nil =>
      rw [chainFrom_nil, chainFrom_nil]
      exact .made_here same
    | cons t rest =>
      have joins := together.joins t.token
      rw [chainFrom_cons, chainFrom_cons]
      generalize joined : join t.token = combine at joins
      generalize join' t.token = combine' at joins
      cases joins with
      | none => exact .made_here same
      | some joins =>
        have goesOn := lockstep_bind step (fun b b' same' => ih (joins _ _ _ _ same same'))
          (fun _ => forward_chainFrom forward steps _) fun _ => forward_chainFrom forward' steps _
        exact (goesOn ⟨rest, stop⟩).cons (together.plain _ _ joined)

theorem lockstep_chain (step : Lockstep V operand operand') (forward : Forward operand)
    (forward' : Forward operand') (together : JoinInStep V join join') :
    Lockstep V (chain operand join) (chain operand' join') := by
  rw [chain_eq_bind, chain_eq_bind]
  exact lockstep_bind step
    (fun _ _ same c => lockstep_chainFrom step forward forward' together c.tokens.length same c)
    (fun a c => forward_chainFrom forward c.tokens.length a c)
    fun a c => forward_chainFrom forward' c.tokens.length a c

end Chain

section Numbers

theorem joinInStep_joinName : JoinInStep Eq joinName joinName where
  joins := by
    intro t
    cases joinName t with
    | none => exact .none
    | some combine =>
      refine .some fun a a' b b' same same' => ?_
      rw [same, same']
  plain := by
    intro t combine joins
    unfold joinName at joins
    split at joins
    · exact Bool.false_ne_true
    · cases joins

theorem lockstep_name :
    Lockstep Expr.SameTree (name : Rule (Expr (.number n))) (name : Rule (Expr (.number m))) := by
  have names : Lockstep Eq dottedName dottedName :=
    lockstep_chain (lockstep_take _ _) (forward_take _ _) (forward_take _ _) joinInStep_joinName
  refine lockstep_map names fun text text' same => ?_
  rw [same]
  exact .var text'

theorem lockstep_literal (negative : Bool) (start : Nat) :
    Lockstep Expr.SameTree (literal n negative start) (literal m negative start) := by
  intro c
  obtain ⟨tokens, stop⟩ := c
  cases tokens with
  | nil => exact .failed_here rfl
  | cons t rest =>
    have ahead {k : Numeric} :
        Cursor.Precedes ⟨rest, stop⟩ (leaves (literal k negative start ⟨t :: rest, stop⟩)) := by
      rw [literal_cons]
      split <;> exact .refl _
    by_cases number : t.token.isNumber
    · exact .met_here number ahead ahead
    · have other (k : Numeric) : k.literal? negative start t.token = none :=
        Numeric.literal?_eq_none (fun isLiteral => number isLiteral.isNumber) negative start
      rw [literal_cons, literal_cons, other n, other m]
      apply InStep.cons _ number
      exact .failed_here rfl

theorem lockstep_factorOver {inner : Rule (Expr (.number n))} {inner' : Rule (Expr (.number m))}
    (step : Lockstep Expr.SameTree inner inner') (forward : Forward inner)
    (forward' : Forward inner') :
    Lockstep Expr.SameTree (factorOver inner) (factorOver inner') := by
  intro c
  obtain ⟨tokens, stop⟩ := c
  cases tokens with
  | nil => exact .failed_here rfl
  | cons t rest =>
    rw [factorOver_cons, factorOver_cons]
    split
    · exact lockstep_parenthesized step forward forward' _
    · exact lockstep_name _
    · rename_i minus
      refine (lockstep_literal true t.offset ⟨rest, stop⟩).cons ?_
      rw [minus]
      exact Bool.false_ne_true
    · exact lockstep_literal false t.offset _

theorem joinInStep_joinProduct :
    JoinInStep Expr.SameTree (joinProduct (n := n)) (joinProduct (n := m)) where
  joins := by
    intro t
    cases t with
    | arithmetic op =>
      cases op with
      | mul | div => exact .some fun _ _ _ _ same same' => .arith _ same same'
      | add | sub => exact .none
    | _ => exact .none
  plain := by
    intro t combine joins
    obtain ⟨op, rfl, -⟩ := joinProduct_eq_some_iff.mp joins
    exact Bool.false_ne_true

theorem joinInStep_joinSum :
    JoinInStep Expr.SameTree (joinSum (n := n)) (joinSum (n := m)) where
  joins := by
    intro t
    cases t with
    | arithmetic op =>
      cases op with
      | add | sub => exact .some fun _ _ _ _ same same' => .arith _ same same'
      | mul | div => exact .none
    | _ => exact .none
  plain := by
    intro t combine joins
    obtain ⟨op, rfl, -⟩ := joinSum_eq_some_iff.mp joins
    exact Bool.false_ne_true

theorem lockstep_sumOver {inner : Rule (Expr (.number n))} {inner' : Rule (Expr (.number m))}
    (step : Lockstep Expr.SameTree inner inner') (forward : Forward inner)
    (forward' : Forward inner') :
    Lockstep Expr.SameTree (sumOver inner) (sumOver inner') := by
  have factors := lockstep_factorOver step forward forward'
  have products := lockstep_chain factors (forward_factorOver forward)
    (forward_factorOver forward') joinInStep_joinProduct
  exact lockstep_chain products (forward_chain (forward_factorOver forward))
    (forward_chain (forward_factorOver forward')) joinInStep_joinSum

theorem lockstep_sumWithin (depth : Nat) :
    Lockstep Expr.SameTree (sumWithin n depth) (sumWithin m depth) := by
  induction depth with
  | zero =>
    exact lockstep_sumOver (fun _ => .failed_here rfl) forward_exhausted forward_exhausted
  | succ depth ih => exact lockstep_sumOver ih (forward_sumWithin depth) (forward_sumWithin depth)

end Numbers

/-- The rule stands at the cursor at some time: it takes the tokens of its row one by one, and it ends
there or further on. -/
def Visits (rule : Rule α) (start here : Cursor) : Prop :=
  start.Precedes here ∧ here.Precedes (leaves (rule start))

theorem precedes_of_isPlain {front front' rest : List Located} {stop : Nat} {t : Located}
    {here : Cursor} (literal : t.token.isNumber) (plain : IsPlain front')
    (same : (⟨front ++ t :: rest, stop⟩ : Cursor) = ⟨front' ++ here.tokens, here.stop⟩) :
    here.Precedes ⟨rest, stop⟩ := by
  obtain ⟨row, rfl⟩ := Cursor.mk.inj same
  obtain ⟨more, rfl, split⟩ | ⟨more, -, split⟩ := List.append_eq_append_iff.mp row
  · cases more with
    | nil => exact ⟨[t], by rw [List.singleton_append, split]; rfl⟩
    | cons t' more =>
      cases split
      exact absurd literal (plain t (by simp))
  · exact ⟨more ++ [t], by rw [List.append_assoc, List.singleton_append, ← split]⟩

/-- Sums of two kinds are read in step. As long as no literal of a number is taken, the rule of the
other kind makes the same tree of the same tokens, or fails at the same offset; and before such a
literal, both stand at the same cursors. -/
theorem sum_inStep (n m : Numeric) (c : Cursor) :
    ∃ taken, c = ⟨taken ++ (leaves (sum n c)).tokens, (leaves (sum n c)).stop⟩ ∧
      (IsPlain taken →
        (∀ e after, sum n c = .ok e after → ∃ e', sum m c = .ok e' after ∧ e.SameTree e') ∧
        ∀ e after, sum n c = .error e after →
          ∃ e', sum m c = .error e' after ∧ e'.offset = e.offset) ∧
      ∀ front here, c = ⟨front ++ here.tokens, here.stop⟩ → IsPlain front →
        (Visits (sum n) c here ↔ Visits (sum m) c here) := by
  have step : InStep Expr.SameTree c (sum n c) (sum m c) := lockstep_sumWithin c.tokens.length c
  simp only [Visits]
  generalize sum n c = result at step ⊢
  generalize sum m c = result' at step ⊢
  cases step with
  | made shape plain same =>
    refine ⟨_, shape, fun _ => ⟨fun e after found => ?_, nofun⟩, fun _ _ _ _ => Iff.rfl⟩
    cases found
    exact ⟨_, rfl, same⟩
  | failed shape plain place =>
    refine ⟨_, shape, fun _ => ⟨nofun, fun e after found => ?_⟩, fun _ _ _ _ => Iff.rfl⟩
    cases found
    exact ⟨_, rfl, place⟩
  | @met front rest stop t _ _ shape plain literal ahead ahead' =>
    have ⟨more, end'⟩ := ahead
    refine ⟨front ++ t :: more, ?_, fun none => ?_, fun front' here start plain' => ?_⟩
    · obtain ⟨rfl, rfl⟩ := Cursor.mk.inj end'
      rw [shape, List.append_assoc, List.cons_append]
    · exact absurd literal (none t List.mem_append_cons_self)
    · have further := precedes_of_isPlain literal plain' (shape.symm.trans start)
      exact iff_of_true ⟨⟨front', start⟩, further.trans ahead⟩ ⟨⟨front', start⟩, further.trans ahead'⟩

def productOfNames : List Located :=
  [⟨.identifier "a", 0⟩, ⟨.arithmetic .mul, 2⟩, ⟨.openParen, 4⟩, ⟨.identifier "b", 5⟩,
    ⟨.arithmetic .sub, 7⟩, ⟨.identifier "c", 9⟩, ⟨.dot, 10⟩, ⟨.identifier "d", 11⟩, ⟨.closeParen, 12⟩]

theorem sum_inStep_product :
    sum (.whole .int) ⟨productOfNames ++ [⟨.int 5, 14⟩], 15⟩ =
        .ok (.arith .mul (.var "a") (.arith .sub (.var "b") (.var "c.d"))) ⟨[⟨.int 5, 14⟩], 15⟩ ∧
      IsPlain productOfNames ∧
      ∃ e : Expr .double,
        sum .double ⟨productOfNames ++ [⟨.int 5, 14⟩], 15⟩ = .ok e ⟨[⟨.int 5, 14⟩], 15⟩ ∧
          Expr.SameTree (n := .whole .int)
            (.arith .mul (.var "a") (.arith .sub (.var "b") (.var "c.d"))) e := by
  have found : sum (.whole .int) ⟨productOfNames ++ [⟨.int 5, 14⟩], 15⟩ =
      .ok (.arith .mul (.var "a") (.arith .sub (.var "b") (.var "c.d"))) ⟨[⟨.int 5, 14⟩], 15⟩ := by
    rfl
  have plain : IsPlain productOfNames := by decide
  obtain ⟨taken, start, ends, -⟩ :=
    sum_inStep (.whole .int) .double ⟨productOfNames ++ [⟨.int 5, 14⟩], 15⟩
  rw [found] at start
  obtain rfl : productOfNames = taken := List.append_cancel_right (Cursor.mk.inj start).1
  exact ⟨found, plain, (ends plain).1 _ _ found⟩

end Rule

end Formula
