import Formula.Proofs.Rule.Condition
import Formula.Proofs.Source.Nesting

/-! A printed expression is read as the tree that it was printed from. -/

namespace Formula

namespace Expr

def isVar {k : Kind} : Expr k → Bool
  | .var _ => true
  | _ => false

def isConst {k : Kind} : Expr k → Bool
  | .const _ => true
  | _ => false

def hasConst : {k : Kind} → Expr k → Bool
  | _, .const _ => true
  | _, .var _ => false
  | _, .arith _ left right => left.hasConst || right.hasConst
  | _, .compare _ left right => left.hasConst || right.hasConst
  | _, .logic _ left right => left.hasConst || right.hasConst

end Expr

/-- The operands of a comparison show of which kind they are, and not of a kind that is tried
before. -/
def Ordered.Shows : (o : Ordered) → Expr (.ordered o) → Expr (.ordered o) → Prop
  | .string, _, _ => True
  | .instant, left, right => left.isConst ∨ right.isConst
  | .number (.whole .int), left, right => ¬ (left.isVar ∧ right.isVar)
  | .number (.whole .long), left, right => left.hasConst ∨ right.hasConst
  | .number .double, left, right => left.hasConst ∨ right.hasConst

namespace Expr

def IsShown : {k : Kind} → Expr k → Prop
  | _, .const _ => True
  | _, .var _ => True
  | _, .arith _ _ _ => True
  | _, .compare (o := o) _ left right => o.Shows left right
  | _, .logic _ left right => left.IsShown ∧ right.IsShown

theorem readsName_tokens (name : String) : ReadsName (Name.ofText name).tokens name := by
  have reads := (Name.ofText name).readsName_tokens
  rwa [Name.text_ofText] at reads

section Operands

variable {n : Numeric} {o o' : Ordered}

theorem readsNumber_tokens : (e : Expr (.number n)) → ReadsNumber n .factor e.tokens e
  | .const value => by
    have denotes := n.denotes_unsigned value
    rw [tokens, Kind.tokens]
    split
    · rename_i sign
      rw [sign] at denotes
      exact .negated denotes
    · rename_i sign
      rw [Bool.eq_false_iff.mpr sign] at denotes
      exact .literal denotes
  | .var name => .name (readsName_tokens name)
  | .arith op left right => by
    have first := left.readsNumber_tokens
    have second := right.readsNumber_tokens
    apply ReadsNumber.parenthesized
    cases level : op.level with
    | factor => cases op <;> cases level
    | product => exact .product (.scaled level (.factor first) second)
    | sum => exact .shifted level (.product (.factor first)) (.factor second)

theorem readsOperand_tokens (e : Expr (.ordered o)) : ReadsOperand o e.tokens e := by
  match o, e with
  | .string, .const text => exact .string text
  | .string, .var name => exact .stringName (readsName_tokens name)
  | .instant, .const i => exact .instant i
  | .instant, .var name => exact .instantName (readsName_tokens name)
  | .number n, e => exact .number (.product (.factor e.readsNumber_tokens))

theorem exists_not_serves_literal (other : o' ≠ o) (value : o.Carrier) :
    ∃ t ∈ (Kind.ordered o).tokens value, t.serves o' = false := by
  match o, value with
  | .string, text => exact ⟨_, List.mem_singleton.2 rfl, by simpa [Token.serves] using other⟩
  | .instant, i => exact ⟨_, List.mem_singleton.2 rfl, by simpa [Token.serves] using other⟩
  | .number n, value =>
    refine ⟨n.unsigned value, ?_, ?_⟩
    · rw [Kind.tokens]
      split <;> simp
    · exact Bool.eq_false_iff.mpr fun serves =>
        other ((n.denotes_unsigned value).serves_iff.mp serves)

theorem exists_not_serves_of_hasConst (other : o' ≠ .number n) :
    (e : Expr (.number n)) → e.hasConst → ∃ t ∈ e.tokens, t.serves o' = false
  | .const value, _ => exists_not_serves_literal other value
  | .arith op left right, has => by
    rw [hasConst, Bool.or_eq_true] at has
    rcases has with has | has
    · rcases exists_not_serves_of_hasConst other left has with ⟨t, present, fails⟩
      exact ⟨t, by simp [tokens, present], fails⟩
    · rcases exists_not_serves_of_hasConst other right has with ⟨t, present, fails⟩
      exact ⟨t, by simp [tokens, present], fails⟩

theorem exists_not_serves_of_not_isVar (plain : o' = .string ∨ o' = .instant)
    (e : Expr (.number n)) (other : e.isVar = false) : ∃ t ∈ e.tokens, t.serves o' = false := by
  cases e with
  | const value =>
    refine exists_not_serves_literal (o := .number n) ?_ value
    rcases plain with rfl | rfl <;> simp
  | var name => cases other
  | arith op left right =>
    refine ⟨.openParen, by simp [tokens], ?_⟩
    rcases plain with rfl | rfl <;> rfl

theorem plain_of_rank_lt_int (before : o'.rank < (Ordered.number (.whole .int)).rank) :
    o' = .string ∨ o' = .instant := by
  match o' with
  | .string => exact .inl rfl
  | .instant => exact .inr rfl
  | .number (.whole .int) | .number (.whole .long) | .number .double =>
    simp [Ordered.rank] at before

theorem exists_not_serves_append {p : Expr (.ordered o) → Prop}
    (fails : ∀ e, p e → ∃ t ∈ e.tokens, t.serves o' = false) {l r : Expr (.ordered o)}
    (one : p l ∨ p r) : ∃ t ∈ l.tokens ++ r.tokens, t.serves o' = false := by
  rcases one with left | right
  · rcases fails l left with ⟨t, present, other⟩
    exact ⟨t, List.mem_append_left _ present, other⟩
  · rcases fails r right with ⟨t, present, other⟩
    exact ⟨t, List.mem_append_right _ present, other⟩

theorem exists_not_serves_of_shows {l r : Expr (.ordered o)} (shows : o.Shows l r)
    (before : o'.rank < o.rank) : ∃ t ∈ l.tokens ++ r.tokens, t.serves o' = false := by
  have other : o' ≠ o := by
    intro same
    rw [same] at before
    exact absurd before (Nat.lt_irrefl _)
  match o with
  | .string => simp [Ordered.rank] at before
  | .instant =>
    refine exists_not_serves_append (p := fun e => e.isConst) (fun e constant => ?_) shows
    cases e with
    | const i => exact exists_not_serves_literal other i
    | var name => cases constant
  | .number (.whole .int) =>
    refine exists_not_serves_append (p := fun e => e.isVar = false)
      (exists_not_serves_of_not_isVar (plain_of_rank_lt_int before)) ?_
    simpa [Ordered.Shows, imp_iff_not_or] using shows
  | .number (.whole .long) =>
    exact exists_not_serves_append (exists_not_serves_of_hasConst other) shows
  | .number .double =>
    exact exists_not_serves_append (exists_not_serves_of_hasConst other) shows

theorem eq_var_of_identifier {e : Expr (.ordered o)} {text : String} {more : List Token}
    (word : e.tokens = .identifier text :: more) : ∃ name, e = .var name := by
  match o, e with
  | _, .var name => exact ⟨name, rfl⟩
  | .string, .const _ | .instant, .const _ | .number _, .arith _ _ _ => cases word
  | .number n, .const value =>
    rw [tokens, Kind.tokens] at word
    split at word
    · cases word
    · exact absurd (List.cons.inj word).1 ((n.denotes_unsigned value).ne_identifier text)

theorem not_captured_tokens (ls : List Token) (e : Expr (.ordered o)) : ¬ Captured ls e.tokens := by
  intro reading
  rcases reading with ⟨-, front, name, op, more, row, reads⟩
  rcases reads.exists_cons with ⟨text, back, rfl⟩
  rcases eq_var_of_identifier row with ⟨name, rfl⟩
  have present : .arithmetic op ∈ (Name.ofText name).tokens := by
    rw [← tokens, row]
    simp
  cases (readsName_tokens name).serves .string _ present

theorem selected_tokens {l r : Expr (.ordered o)} (shows : o.Shows l r) :
    Selected o l.tokens r.tokens := by
  refine ⟨?_, not_captured_tokens _ r⟩
  intro o' before reading
  rcases reading with ⟨⟨l', reads⟩, r', reads'⟩
  rcases exists_not_serves_of_shows shows before with ⟨t, present, fails⟩
  have serves : t.serves o' := by
    rcases List.mem_append.1 present with present | present
    · exact reads.serves t present
    · exact reads'.serves t present
  rw [serves] at fails
  cases fails

end Operands

theorem readsCondition_tokens :
    (e : Expr .boolean) → e.IsShown → ReadsCondition Selected .term e.tokens e
  | .const b, _ => .literal b
  | .var name, _ => .name (readsName_tokens name)
  | .compare _ left right, shown =>
    .parenthesized (.term (.comparison left.readsOperand_tokens right.readsOperand_tokens
      (selected_tokens shown)))
  | .logic _ left right, shown =>
    .parenthesized (.joined (.term (left.readsCondition_tokens shown.1))
      (right.readsCondition_tokens shown.2))

/-- Behind the lexer, a printed expression is a row that the rule of its kind reads as the
expression. -/
theorem parseTokens_rule_tokens {goal : Goal} {e : Expr goal.kind} (shown : e.IsShown)
    {located : List Located} (row : located.map Located.token = e.tokens) {limit : Nat}
    (shallow : e.height ≤ limit) (stop : Nat) :
    Source.parseTokens goal.rule limit ⟨located, stop⟩ = .ok e := by
  have nesting : Source.checkNesting limit 0 located = .ok () := by
    apply Source.checkNesting_eq_ok
    have deep := e.deepest_tokens 0 []
    rw [List.append_nil] at deep
    rw [row, deep, deepest]
    omega
  cases goal with
  | boolean =>
    apply Source.parseTokens_condition_eq_ok_iff.mpr
    rw [row]
    exact ⟨nesting, .term (e.readsCondition_tokens shown)⟩
  | number n =>
    apply Source.parseTokens_sum_eq_ok_iff.mpr
    rw [row]
    exact ⟨nesting, .product (.factor e.readsNumber_tokens)⟩

theorem ofSource_text (goal : Goal) {e : Expr goal.kind} (written : e.IsWritten)
    (shown : e.IsShown) {limit : Nat} (shallow : e.height ≤ limit) :
    ofSource goal limit e.text = .ok e := by
  rcases Source.exists_tokens_text written with ⟨located, found, row⟩
  calc
    ofSource goal limit e.text =
        Source.parseTokens goal.rule limit ⟨located, e.text.utf8ByteSize⟩ := by
      rw [ofSource, Source.parse, found]
      rfl
    _ = .ok e := parseTokens_rule_tokens shown row shallow _

theorem exists_ofSource_text_eq_error {goal : Goal} {e : Expr goal.kind} (written : e.IsWritten)
    {limit : Nat} (deep : limit < e.height) :
    ∃ offset, ofSource goal limit e.text = .error (.nestingTooDeep limit offset) := by
  rcases Source.exists_tokens_text written with ⟨located, found, row⟩
  have nesting : limit < deepest 0 (located.map Located.token) := by
    have deepest_eq := e.deepest_tokens 0 []
    rw [List.append_nil] at deepest_eq
    rw [row, deepest_eq, deepest]
    omega
  rcases Source.exists_checkNesting_eq_error (Nat.zero_le limit) nesting with ⟨offset, failed⟩
  refine ⟨offset, ?_⟩
  calc
    ofSource goal limit e.text =
        Source.parseTokens goal.rule limit ⟨located, e.text.utf8ByteSize⟩ := by
      rw [ofSource, Source.parse, found]
      rfl
    _ = .error (.nestingTooDeep limit offset) := by
      rw [Source.parseTokens, failed]
      rfl

/-- The names, the constants and the kinds of the comparisons all show in the printed expression. -/
structure WellFormed {k : Kind} (e : Expr k) : Prop where
  written : e.IsWritten
  shown : e.IsShown

/-- A printed expression is read as the expression, unless it is higher than parentheses may
nest. -/
theorem ofSource_text_of_wellFormed (goal : Goal) {e : Expr goal.kind}
    (wellFormed : e.WellFormed) (limit : Nat) :
    (e.height ≤ limit → ofSource goal limit e.text = .ok e) ∧
      (limit < e.height →
        ∃ offset, ofSource goal limit e.text = .error (.nestingTooDeep limit offset)) :=
  ⟨ofSource_text goal wellFormed.written wellFormed.shown,
    exists_ofSource_text_eq_error wellFormed.written⟩

def leapDay : Instant := ⟨1456704000, 0, by decide⟩

def leastDouble : Double := .signed true ⟨Double.infinite - 1, by decide⟩

def offer : Expr .boolean :=
  .logic .or
    (.logic .and
      (.compare (o := .instant) .lt (.const leapDay) (.var "due"))
      (.compare (o := .string) .ne (.var "owner.name_1") (.const "(\"")))
    (.compare (o := .number .double) .ge (.var "price")
      (.arith (n := .double) .mul (.var "price") (.const leastDouble)))

theorem wellFormed_offer : offer.WellFormed := by
  have due : IsName "due" := by decide
  have owner : IsName "owner.name_1" := by decide
  have price : IsName "price" := by decide
  have written : leapDay.IsWritten := by decide
  have finite : leastDouble.IsFinite := by decide
  exact ⟨⟨⟨⟨written, due⟩, owner, trivial⟩, price, price, finite⟩, ⟨.inl rfl, trivial⟩, .inr rfl⟩

theorem ofSource_text_offer :
    offer.WellFormed ∧ offer.height = 3 ∧ ofSource .boolean 3 offer.text = .ok offer ∧
      ∃ offset, ofSource .boolean 2 offer.text = .error (.nestingTooDeep 2 offset) :=
  ⟨wellFormed_offer, rfl,
    (ofSource_text_of_wellFormed .boolean wellFormed_offer 3).1 (by decide),
    (ofSource_text_of_wellFormed .boolean wellFormed_offer 2).2 (by decide)⟩

/-- The comparison of `t` with an instant inside a leap second. -/
def reminder : Expr .boolean := .compare (o := .instant) .eq (.var "t") (.const Instant.leapSecond)

/-- The instant falls on a whole millisecond of 2015 and is printed, but no minute has a sixtieth
second. -/
theorem ofSource_text_reminder_ne_ok :
    IsName "t" ∧ Instant.leapSecond.IsWhole ∧ Instant.leapSecond.timestamp.year = 2015 ∧
      reminder.IsShown ∧ reminder.height = 1 ∧ reminder.text = "(t == 2015-06-30T23:59:60.500Z)" ∧
      ofSource .boolean 1 reminder.text =
        .error (.invalidDateTime "2015-06-30T23:59:60.500Z" (.second 60) 6) ∧
      ofSource .boolean 1 reminder.text ≠ .ok reminder := by
  have printed : reminder.text = "(t == 2015-06-30T23:59:60.500Z)" := by decide
  have refused : ofSource .boolean 1 reminder.text =
      .error (.invalidDateTime "2015-06-30T23:59:60.500Z" (.second 60) 6) := by
    rw [printed]
    rfl
  refine ⟨by decide, by decide, by decide, .inr rfl, rfl, printed, refused, ?_⟩
  rw [refused]
  exact nofun

end Expr

end Formula
