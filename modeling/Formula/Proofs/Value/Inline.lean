import Formula.Proofs.Source.Embedding
import Formula.Proofs.Value.ReadBack

/-! A literal has the same value whether it is bound from a text or written in a source. -/

namespace Formula

def Token.isLiteral : Token → Bool
  | .instant _ | .double _ | .long _ | .int _ | .string _ | .boolean _ => true
  | .identifier _ | .dot | .arithmetic _ | .relation _ | .connective _ | .openParen
  | .closeParen => false

def signedRow (negative : Bool) (t : Token) : List Token :=
  if negative then [.arithmetic .sub, t] else [t]

variable {n : Numeric} {negative : Bool} {t : Token}

section Rows

theorem signedRow_inj {negative' : Bool} {t' : Token}
    (same : signedRow negative t = signedRow negative' t') : negative = negative' ∧ t = t' := by
  cases negative <;> cases negative' <;> simp_all [signedRow]

theorem ReadsNumber.denotes_of_signedRow {level : Level} {v : n.Carrier}
    (reads : ReadsNumber n level (signedRow negative t) (.const v)) : n.Denotes negative t v := by
  generalize row : signedRow negative t = ts at reads
  generalize leaf : (Expr.const v : Expr (.number n)) = e at reads
  induction reads with
  | parenthesized _ _ =>
    cases negative <;> simp [signedRow] at row
  | literal denotes =>
    cases leaf
    cases negative with
    | true => simp [signedRow] at row
    | false =>
      obtain rfl : t = _ := by simpa [signedRow] using row
      exact denotes
  | negated denotes =>
    cases leaf
    cases negative with
    | false => simp [signedRow] at row
    | true =>
      obtain rfl : t = _ := by simpa [signedRow] using row
      exact denotes
  | factor _ ih | product _ ih => exact ih row leaf
  | name _ | scaled _ _ _ _ _ | shifted _ _ _ _ _ => cases leaf

theorem readsNumber_signedRow_iff {v : n.Carrier} :
    ReadsNumber n .sum (signedRow negative t) (.const v) ↔ n.Denotes negative t v := by
  constructor
  · exact ReadsNumber.denotes_of_signedRow
  · intro denotes
    cases negative with
    | false => exact .product (.factor (.literal denotes))
    | true => exact .product (.factor (.negated denotes))

theorem ReadsCondition.eq_of_signedRow {clause : Clause} {b : Bool} (literal : t.isLiteral)
    (reads : ReadsCondition Selected clause (signedRow negative t) (.const b)) :
    signedRow negative t = [.boolean b] := by
  generalize row : signedRow negative t = ts at reads
  generalize leaf : (Expr.const b : Expr .boolean) = e at reads
  induction reads with
  | literal b' =>
    cases leaf
    rfl
  | parenthesized _ _ =>
    cases negative with
    | true => simp [signedRow] at row
    | false =>
      rcases List.cons.inj row with ⟨rfl, -⟩
      cases literal
  | term _ ih => exact ih row leaf
  | name _ | comparison _ _ _ | joined _ _ _ _ => cases leaf

theorem readsCondition_signedRow_iff {b : Bool} (literal : t.isLiteral) :
    ReadsCondition Selected .chain (signedRow negative t) (.const b) ↔
      signedRow negative t = [.boolean b] := by
  constructor
  · exact ReadsCondition.eq_of_signedRow literal
  · intro row
    rw [row]
    exact .term (.literal b)

theorem deepest_signedRow (literal : t.isLiteral) : deepest 0 (signedRow negative t) = 0 := by
  cases negative <;> cases t <;> first | rfl | cases literal

end Rows

namespace Value

variable {k : Int}

theorem ofLong?_eq_some_iff {v : Whole .long} : ofLong? k = some ⟨.long, v⟩ ↔ v.val = k := by
  constructor
  · intro read
    rcases Option.map_eq_some_iff.mp read with ⟨long, held, same⟩
    cases same
    exact Whole.ofInt?_eq_some_iff.mp held
  · rintro rfl
    exact ofLong?_val v

theorem ofWhole?_eq_some_int_iff {v : Whole .int} : ofWhole? k = some ⟨.int, v⟩ ↔ v.val = k := by
  constructor
  · intro read
    unfold ofWhole? at read
    split at read
    · cases read
      exact Whole.ofInt?_eq_some_iff.mp ‹_›
    · cases kind_of_ofLong? read
  · rintro rfl
    exact ofWhole?_val v

/-- A number is read from a literal of its own kind. Only longs are read from others, too: from int
literals out of range. -/
theorem exists_signedRow_of_ofTokens? {ts : List Token} {v : n.Carrier}
    (read : ofTokens? ts = some ⟨.number n, v⟩) :
    ∃ negative t, ts = signedRow negative t ∧
      (n.Denotes negative t v ∨ n = .whole .long ∧ ∃ digits, t = .int digits) := by
  unfold ofTokens? at read
  match n with
  | .whole .int =>
    split at read
    case h_1 digits => exact ⟨false, _, rfl, .inl ⟨digits, rfl, ofWhole?_eq_some_int_iff.mp read⟩⟩
    case h_7 digits => exact ⟨true, _, rfl, .inl ⟨digits, rfl, ofWhole?_eq_some_int_iff.mp read⟩⟩
    case h_2 | h_8 => cases kind_of_ofLong? read
    all_goals cases read
  | .whole .long =>
    split at read
    case h_1 digits => exact ⟨false, _, rfl, .inr ⟨rfl, digits, rfl⟩⟩
    case h_7 digits => exact ⟨true, _, rfl, .inr ⟨rfl, digits, rfl⟩⟩
    case h_2 digits => exact ⟨false, _, rfl, .inl ⟨digits, rfl, ofLong?_eq_some_iff.mp read⟩⟩
    case h_8 digits => exact ⟨true, _, rfl, .inl ⟨digits, rfl, ofLong?_eq_some_iff.mp read⟩⟩
    all_goals cases read
  | .double =>
    split at read
    case h_1 | h_7 => rcases kind_of_ofWhole? read with kind | kind <;> cases kind
    case h_2 | h_8 => cases kind_of_ofLong? read
    case h_3 => cases read; exact ⟨false, _, rfl, .inl ⟨_, rfl, rfl⟩⟩
    case h_9 => cases read; exact ⟨true, _, rfl, .inl ⟨_, rfl, rfl⟩⟩
    all_goals cases read

theorem ofTokens?_signedRow_iff {v : n.Carrier}
    (long : n = .whole .long → ∃ digits, t = .long digits) :
    ofTokens? (signedRow negative t) = some ⟨.number n, v⟩ ↔ n.Denotes negative t v := by
  constructor
  · intro read
    rcases exists_signedRow_of_ofTokens? read with ⟨_, _, row, own⟩
    rcases signedRow_inj row with ⟨rfl, rfl⟩
    rcases own with denotes | ⟨isLong, _, rfl⟩
    · exact denotes
    · rcases long isLong with ⟨_, other⟩
      cases other
  · exact ofTokens?_of_denotes

theorem exists_isLiteral_of_ofTokens? {ts : List Token} {v : Value} (read : ofTokens? ts = some v) :
    ∃ negative t, ts = signedRow negative t ∧ t.isLiteral := by
  unfold ofTokens? at read
  split at read
  case h_1 | h_2 | h_3 | h_4 | h_5 | h_6 => exact ⟨false, _, rfl, rfl⟩
  case h_7 | h_8 | h_9 => exact ⟨true, _, rfl, rfl⟩
  case h_10 => cases read

theorem ofTokens?_signedRow_boolean_iff {b : Bool} :
    ofTokens? (signedRow negative t) = some ⟨.boolean, b⟩ ↔ signedRow negative t = [.boolean b] := by
  constructor
  · intro read
    unfold ofTokens? at read
    split at read
    case h_1 | h_7 => rcases kind_of_ofWhole? read with kind | kind <;> cases kind
    case h_2 | h_8 => cases kind_of_ofLong? read
    case h_6 row => cases read; exact row
    all_goals cases read
  · intro row
    rw [row]
    rfl

theorem ofTokens?_signedRow_iff_reads {goal : Goal} (literal : t.isLiteral)
    (long : goal = .number (.whole .long) → ∃ digits, t = .long digits) {v : goal.kind.Carrier} :
    ofTokens? (signedRow negative t) = some ⟨goal.kind, v⟩ ↔
      goal.Reads (signedRow negative t) (.const v) := by
  cases goal with
  | boolean => exact ofTokens?_signedRow_boolean_iff.trans (readsCondition_signedRow_iff literal).symm
  | number n =>
    have long' : n = .whole .long → ∃ digits, t = .long digits := fun same => long (same ▸ rfl)
    exact (ofTokens?_signedRow_iff long').trans readsNumber_signedRow_iff.symm

end Value

structure Source.IsLiteral (text : String) (negative : Bool) (t : Token) : Prop where
  row : ∃ located, tokens text = .ok located ∧ located.map Located.token = signedRow negative t
  literal : t.isLiteral

namespace Source.IsLiteral

variable {goal : Goal} {text : String}

theorem ofText_iff (isLiteral : IsLiteral text negative t) {v : goal.kind.Carrier} :
    Value.ofText text = ⟨goal.kind, v⟩ ↔
      Value.ofTokens? (signedRow negative t) = some ⟨goal.kind, v⟩ := by
  rcases isLiteral.row with ⟨located, found, row⟩
  rw [Value.ofText_of_tokens found, row]
  cases Value.ofTokens? (signedRow negative t) with
  | some value => simp
  | none =>
    -- A text that stands for itself is neither a number nor a truth value.
    refine iff_of_false (fun same => ?_) nofun
    cases goal <;> cases same

theorem ofSource_iff (isLiteral : IsLiteral text negative t) {limit : Nat} {e : Expr goal.kind} :
    Expr.ofSource goal limit text = .ok e ↔ goal.Reads (signedRow negative t) e := by
  rcases isLiteral.row with ⟨located, found, row⟩
  have shallow : deepest 0 (signedRow negative t) ≤ limit := by
    rw [deepest_signedRow isLiteral.literal]
    exact Nat.zero_le limit
  rw [Expr.ofSource, parse_eq_parseTokens found, parseTokens_rule_eq_ok_iff, row]
  exact and_iff_right shallow

end Source.IsLiteral

/-- A literal has the value as a text that it has as a source of that kind. Only an int literal may
also be a long, and is so only as a text. Any other text stands for itself. -/
theorem Value.ofText_eq_ofSource (text : String) (limit : Nat) :
    (∀ negative t, Source.IsLiteral text negative t → ∀ goal : Goal,
      (goal = .number (.whole .long) → ∃ digits, t = .long digits) → ∀ v : goal.kind.Carrier,
        ofText text = ⟨goal.kind, v⟩ ↔ Expr.ofSource goal limit text = .ok (.const v)) ∧
      ((∀ negative t, ¬ Source.IsLiteral text negative t) → ofText text = ⟨.string, text⟩) := by
  constructor
  · intro negative t isLiteral goal long v
    calc
      ofText text = ⟨goal.kind, v⟩ ↔ ofTokens? (signedRow negative t) = some ⟨goal.kind, v⟩ :=
        isLiteral.ofText_iff
      _ ↔ goal.Reads (signedRow negative t) (.const v) :=
        ofTokens?_signedRow_iff_reads isLiteral.literal long
      _ ↔ Expr.ofSource goal limit text = .ok (.const v) := isLiteral.ofSource_iff.symm
  · intro other
    cases found : Source.tokens text with
    | error e => rw [ofText, found]
    | ok located =>
      rw [ofText_of_tokens found]
      cases read : ofTokens? (located.map Located.token) with
      | none => rfl
      | some v =>
        rcases exists_isLiteral_of_ofTokens? read with ⟨negative, t, row, literal⟩
        exact absurd ⟨⟨located, found, row⟩, literal⟩ (other negative t)

theorem Value.ofText_least_int :
    Source.IsLiteral "-2147483648" true (.int 2147483648) ∧
      (∀ v, ofText "-2147483648" = ⟨.int, v⟩ ↔
        Expr.ofSource (.number (.whole .int)) 0 "-2147483648" = .ok (.const v)) ∧
      (∀ negative t, ¬ Source.IsLiteral " - - 1" negative t) ∧
      ofText " - - 1" = ⟨.string, " - - 1"⟩ := by
  have isLiteral : Source.IsLiteral "-2147483648" true (.int 2147483648) :=
    ⟨⟨[⟨.arithmetic .sub, 0⟩, ⟨.int 2147483648, 1⟩], rfl, rfl⟩, rfl⟩
  have other : ∀ negative t, ¬ Source.IsLiteral " - - 1" negative t := by
    intro negative t isLiteral
    rcases isLiteral.row with ⟨located, found, row⟩
    have signs : Source.tokens " - - 1" =
        .ok [⟨.arithmetic .sub, 1⟩, ⟨.arithmetic .sub, 3⟩, ⟨.int 1, 5⟩] := rfl
    rw [signs] at found
    cases found
    cases negative <;> cases row
  exact ⟨isLiteral, (ofText_eq_ofSource _ 0).1 _ _ isLiteral (.number (.whole .int)) nofun,
    other, (ofText_eq_ofSource _ 0).2 other⟩

end Formula
