import Formula.Rule

/-! What the rules that all others are made of do at a cursor. -/

namespace Formula.Rule

variable {α β : Type}

theorem pure_run (a : α) (c : Cursor) : (pure a : Rule α) c = .ok a c := rfl

theorem bind_run (first : Rule α) (second : α → Rule β) (c : Cursor) :
    (first >>= second) c =
      match first c with
      | .ok a after => second a after
      | .error e after => .error e after := by
  change EStateM.bind first second c = _
  unfold EStateM.bind
  cases first c <;> rfl

theorem peek_run (c : Cursor) : peek c = .ok (c.tokens.head?.map Located.token) c := rfl

theorem remaining_run (c : Cursor) : remaining c = .ok c.tokens.length c := rfl

theorem next_cons (t : Located) (rest : List Located) (stop : Nat) :
    next ⟨t :: rest, stop⟩ = .ok (some t) ⟨rest, stop⟩ := rfl

theorem bind_eq_ok_iff {first : Rule α} {second : α → Rule β} {c after : Cursor} {b : β} :
    (first >>= second) c = .ok b after ↔
      ∃ a between, first c = .ok a between ∧ second a between = .ok b after := by
  rw [bind_run]
  cases first c with
  | ok a between =>
    simp only [EStateM.Result.ok.injEq]
    constructor
    · intro found
      exact ⟨a, between, ⟨rfl, rfl⟩, found⟩
    · intro success
      rcases success with ⟨_, _, ⟨rfl, rfl⟩, found⟩
      exact found
  | error e between => simp

theorem bind_eq_error_iff {first : Rule α} {second : α → Rule β} {c after : Cursor}
    {e : ParseError} :
    (first >>= second) c = .error e after ↔
      first c = .error e after ∨
        ∃ a between, first c = .ok a between ∧ second a between = .error e after := by
  rw [bind_run]
  cases first c with
  | ok a between =>
    simp only [reduceCtorEq, false_or, EStateM.Result.ok.injEq]
    constructor
    · intro found
      exact ⟨a, between, ⟨rfl, rfl⟩, found⟩
    · intro failure
      rcases failure with ⟨_, _, ⟨rfl, rfl⟩, found⟩
      exact found
  | error e between => simp

theorem map_eq_ok_iff {f : α → β} {rule : Rule α} {c after : Cursor} {b : β} :
    (f <$> rule) c = .ok b after ↔ ∃ a, rule c = .ok a after ∧ f a = b := by
  change EStateM.map f rule c = _ ↔ _
  unfold EStateM.map
  cases rule c with
  | ok a between => grind
  | error e between => simp

theorem map_eq_error_iff {f : α → β} {rule : Rule α} {c after : Cursor} {e : ParseError} :
    (f <$> rule) c = .error e after ↔ rule c = .error e after := by
  change EStateM.map f rule c = _ ↔ _
  unfold EStateM.map
  cases rule c <;> simp

theorem take_cons (expected : String) (read : Token → Option α) (t : Located)
    (rest : List Located) (stop : Nat) :
    take expected read ⟨t :: rest, stop⟩ =
      match read t.token with
      | some a => .ok a ⟨rest, stop⟩
      | none => .error (.unexpectedToken t.token.text expected t.offset) ⟨rest, stop⟩ := by
  simp only [take, bind_run, next_cons]
  cases read t.token <;> rfl

theorem take_eq_ok_iff {expected : String} {read : Token → Option α} {c after : Cursor} {a : α} :
    take expected read c = .ok a after ↔
      ∃ t, c = ⟨t :: after.tokens, after.stop⟩ ∧ read t.token = some a := by
  rcases c with ⟨tokens, stop⟩
  cases tokens with
  | nil =>
    have failed : take expected read ⟨[], stop⟩ =
        .error (.unexpectedEndOfInput expected stop) ⟨[], stop⟩ := rfl
    simp [failed]
  | cons t rest =>
    rw [take_cons]
    constructor
    · intro found
      split at found
      · cases found
        exact ⟨t, rfl, by assumption⟩
      · cases found
    · intro success
      rcases success with ⟨t', start, found⟩
      cases start
      simp [found]

theorem expect_eq_ok_iff {token : Token} {c after : Cursor} {u : Unit} :
    expect token c = .ok u after ↔
      ∃ t, c = ⟨t :: after.tokens, after.stop⟩ ∧ t.token = token := by
  simp [expect, take_eq_ok_iff]

theorem parenthesized_eq_ok_iff {inner : Rule α} {c after : Cursor} {a : α} :
    parenthesized inner c = .ok a after ↔
      ∃ first last between, c = ⟨first :: between, c.stop⟩ ∧ first.token = .openParen ∧
        inner ⟨between, c.stop⟩ = .ok a ⟨last :: after.tokens, after.stop⟩ ∧
        last.token = .closeParen := by
  simp only [parenthesized, bind_eq_ok_iff, expect_eq_ok_iff, pure_run]
  constructor
  · intro success
    rcases success with
      ⟨_, ⟨between, stop⟩, ⟨first, rfl, opened⟩, _, _, found, _, _, ⟨last, rfl, closed⟩, made⟩
    cases made
    exact ⟨first, last, between, rfl, opened, found, closed⟩
  · intro success
    rcases success with ⟨first, last, between, start, opened, found, closed⟩
    exact ⟨(), ⟨between, c.stop⟩, ⟨first, start, opened⟩, a, _, found, (), after,
      ⟨last, rfl, closed⟩, rfl⟩

def Fails (rule : Rule α) (c : Cursor) : Prop := ∀ a after, rule c ≠ .ok a after

theorem firstOf_eq_ok_iff {start after : Cursor} {alternatives : List (String × Rule α)}
    {furthest : Nat} {trace : List String} {a : α} :
    firstOf start alternatives furthest trace = .ok a after ↔
      choice alternatives start = .ok a after := by
  unfold choice
  generalize start.offset = furthest'
  generalize ([] : List String) = trace'
  induction alternatives generalizing furthest trace furthest' trace' with
  | nil => simp [firstOf]
  | cons alternative rest ih =>
    simp only [firstOf]
    cases alternative.2 start with
    | ok a' after' => rfl
    | error e after' => exact ih _ _

theorem choice_nil {start after : Cursor} {a : α} : choice [] start ≠ .ok a after := by
  simp [choice, firstOf]

theorem choice_cons_eq_ok_iff {start after : Cursor} {label : String} {rule : Rule α}
    {rest : List (String × Rule α)} {a : α} :
    choice ((label, rule) :: rest) start = .ok a after ↔
      rule start = .ok a after ∨ Fails rule start ∧ choice rest start = .ok a after := by
  have unfolded : choice ((label, rule) :: rest) start =
      firstOf start ((label, rule) :: rest) start.offset [] := rfl
  rw [unfolded]
  simp only [firstOf]
  cases outcome : rule start with
  | ok a' after' => simp [Fails, outcome]
  | error e after' => simp [Fails, outcome, firstOf_eq_ok_iff]

end Formula.Rule
