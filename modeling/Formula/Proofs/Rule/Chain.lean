import Formula.Proofs.Rule.Run

/-! What rules take from the front of a row, and operands with operators between them. -/

namespace Formula.Rule

variable {α β : Type}

/-- The rule takes tokens from the front of a row, and these, the tokens it leaves and the value it
makes are of the sort. -/
def Takes (rule : Rule α) (sort : List Token → List Token → α → Prop) : Prop :=
  ∀ c a after, rule c = .ok a after →
    ∃ taken : List Located, c = ⟨taken ++ after.tokens, after.stop⟩ ∧
      sort (taken.map Located.token) (after.tokens.map Located.token) a

/-- The rule leaves an end of the row it is given. -/
abbrev Advances (rule : Rule α) : Prop := Takes rule fun _ _ _ => True

theorem Takes.mono {rule : Rule α} {sort sort' : List Token → List Token → α → Prop}
    (takes : Takes rule sort) (weaker : ∀ ts rest a, sort ts rest a → sort' ts rest a) :
    Takes rule sort' := by
  intro c a after found
  rcases takes c a after found with ⟨taken, start, sorted⟩
  exact ⟨taken, start, weaker _ _ _ sorted⟩

theorem Takes.advances {rule : Rule α} {sort : List Token → List Token → α → Prop}
    (takes : Takes rule sort) : Advances rule :=
  takes.mono fun _ _ _ _ => trivial

theorem Takes.length_le {rule : Rule α} {sort : List Token → List Token → α → Prop}
    (takes : Takes rule sort) {c after : Cursor} {a : α} (found : rule c = .ok a after) :
    after.tokens.length ≤ c.tokens.length := by
  rcases takes c a after found with ⟨taken, rfl, _⟩
  simp

theorem takes_exhausted {sort : List Token → List Token → α → Prop} :
    Takes exhausted sort := by
  intro c a after found
  cases found

theorem takes_take {expected : String} {read : Token → Option α} :
    Takes (take expected read) fun ts _ a => ∃ t, ts = [t] ∧ read t = some a := by
  intro c a after found
  rcases take_eq_ok_iff.mp found with ⟨t, start, reading⟩
  exact ⟨[t], start, t.token, rfl, reading⟩

theorem takes_map {rule : Rule α} {f : α → β} {sort : List Token → List Token → α → Prop}
    (takes : Takes rule sort) :
    Takes (f <$> rule) fun ts rest b => ∃ a, sort ts rest a ∧ f a = b := by
  intro c b after found
  rcases map_eq_ok_iff.mp found with ⟨a, found, made⟩
  rcases takes c a after found with ⟨taken, start, sorted⟩
  exact ⟨taken, start, a, sorted, made⟩

theorem takes_parenthesized {inner : Rule α} {sort : List Token → List Token → α → Prop}
    (takes : Takes inner sort) :
    Takes (parenthesized inner) fun ts rest a =>
      ∃ us, ts = .openParen :: us ++ [.closeParen] ∧ sort us (.closeParen :: rest) a := by
  intro c a after found
  rcases parenthesized_eq_ok_iff.mp found with ⟨first, last, between, start, opened, found, closed⟩
  rcases takes _ _ _ found with ⟨taken, inside, sorted⟩
  rcases Cursor.mk.inj inside with ⟨rfl, sameStop⟩
  refine ⟨first :: taken ++ [last], by rw [start, sameStop]; simp, taken.map Located.token, ?_, ?_⟩
  · simp [opened, closed]
  · simpa [closed] using sorted

theorem takes_choice {alternatives : List (String × Rule α)}
    {sort : List Token → List Token → α → Prop}
    (takes : ∀ x ∈ alternatives, Takes x.2 sort) : Takes (choice alternatives) sort := by
  intro c a after found
  induction alternatives with
  | nil => exact absurd found choice_nil
  | cons alternative rest ih =>
    rcases choice_cons_eq_ok_iff.mp found with found | ⟨-, found⟩
    · exact takes alternative (by simp) _ _ _ found
    · exact ih (fun x present => takes x (by simp [present])) found

section Chain

variable {operand : Rule α} {join : Token → Option (α → α → α)}

theorem chainFrom_nil (steps : Nat) (left : α) (stop : Nat) :
    chainFrom operand join steps left ⟨[], stop⟩ = .ok left ⟨[], stop⟩ := by
  cases steps <;> rfl

theorem chainFrom_cons (steps : Nat) (left : α) (t : Located) (rest : List Located) (stop : Nat) :
    chainFrom operand join (steps + 1) left ⟨t :: rest, stop⟩ =
      match join t.token with
      | none => .ok left ⟨t :: rest, stop⟩
      | some combine =>
        (operand >>= fun right => chainFrom operand join steps (combine left right))
          ⟨rest, stop⟩ := by
  simp only [chainFrom, bind_run, peek_run, List.head?_cons, Option.map_some, Option.bind_some]
  cases join t.token with
  | none => rfl
  | some combine => simp only [bind_run, next_cons]

def loop (operand : Rule α) (join : Token → Option (α → α → α)) (left : α) : Rule α := fun c =>
  chainFrom operand join c.tokens.length left c

theorem chain_eq_bind : chain operand join = operand >>= loop operand join := by
  funext c
  simp only [chain, bind_run, remaining_run]
  cases operand c <;> rfl

theorem chainFrom_eq_of_length_le (advances : Advances operand) {steps steps' : Nat} {left : α}
    {c : Cursor} (enough : c.tokens.length ≤ steps) (enough' : c.tokens.length ≤ steps') :
    chainFrom operand join steps left c = chainFrom operand join steps' left c := by
  induction steps generalizing steps' left c with
  | zero =>
    rcases c with ⟨tokens, stop⟩
    have empty : tokens = [] := List.length_eq_zero_iff.mp (Nat.le_zero.1 enough)
    rw [empty, chainFrom_nil, chainFrom_nil]
  | succ steps ih =>
    rcases c with ⟨tokens, stop⟩
    cases tokens with
    | nil => rw [chainFrom_nil, chainFrom_nil]
    | cons t rest =>
      cases steps' with
      | zero => exact absurd enough' (Nat.not_succ_le_zero _)
      | succ steps' =>
        rw [chainFrom_cons, chainFrom_cons]
        cases join t.token with
        | none => rfl
        | some combine =>
          simp only [bind_run]
          cases found : operand ⟨rest, stop⟩ with
          | error e between => rfl
          | ok right between =>
            have shorter := advances.length_le found
            simp only [List.length_cons] at enough enough' shorter
            exact ih (by omega) (by omega)

theorem loop_stop {left : α} {rest : List Located} {stop : Nat}
    (ends : ∀ t combine, (rest.map Located.token).head? = some t → join t ≠ some combine) :
    loop operand join left ⟨rest, stop⟩ = .ok left ⟨rest, stop⟩ := by
  cases rest with
  | nil => exact chainFrom_nil _ _ _
  | cons t rest =>
    have none : join t.token = none :=
      Option.eq_none_iff_forall_ne_some.mpr fun combine => ends t.token combine rfl
    rw [loop, List.length_cons, chainFrom_cons, none]

theorem loop_step (advances : Advances operand) {t : Located} {combine : α → α → α}
    (joins : join t.token = some combine) {rest : List Located} {stop : Nat} {right : α}
    {after : Cursor} (found : operand ⟨rest, stop⟩ = .ok right after) (left : α) :
    loop operand join left ⟨t :: rest, stop⟩ = loop operand join (combine left right) after := by
  simp only [loop, List.length_cons, chainFrom_cons, joins, bind_run, found]
  exact chainFrom_eq_of_length_le advances (advances.length_le found) (Nat.le_refl _)

variable {sort sort' : List Token → List Token → α → Prop}

theorem takes_chainFrom (takes : Takes operand sort)
    (step : ∀ ls t rs rest left right combine, join t = some combine →
      sort' ls (t :: rs ++ rest) left → sort rs rest right →
      sort' (ls ++ t :: rs) rest (combine left right))
    (steps : Nat) {c after : Cursor} {left a : α} {before : List Located}
    (sorted : sort' (before.map Located.token) (c.tokens.map Located.token) left)
    (found : chainFrom operand join steps left c = .ok a after) :
    ∃ taken : List Located, c = ⟨taken ++ after.tokens, after.stop⟩ ∧
      sort' ((before ++ taken).map Located.token) (after.tokens.map Located.token) a := by
  -- The tokens taken so far stay a row of the sort, whether or not an operator follows.
  induction steps generalizing c left before with
  | zero =>
    cases found
    exact ⟨[], rfl, by simpa using sorted⟩
  | succ steps ih =>
    rcases c with ⟨tokens, stop⟩
    cases tokens with
    | nil =>
      cases found
      exact ⟨[], rfl, by simpa using sorted⟩
    | cons t rest =>
      rw [chainFrom_cons] at found
      cases joins : join t.token with
      | none =>
        rw [joins] at found
        cases found
        exact ⟨[], rfl, by simpa using sorted⟩
      | some combine =>
        rw [joins] at found
        rcases bind_eq_ok_iff.mp found with ⟨right, between, found, found'⟩
        rcases takes _ _ _ found with ⟨taken, start, sorted'⟩
        cases start
        have joined := step _ _ _ _ _ _ _ joins (by simpa using sorted) sorted'
        have row : sort' ((before ++ t :: taken).map Located.token)
            (between.tokens.map Located.token) (combine left right) := by
          simpa using joined
        rcases ih row found' with ⟨taken', rfl, sorted''⟩
        exact ⟨t :: taken ++ taken', by simp, by simpa using sorted''⟩

theorem head_of_chainFrom {c after : Cursor} {left a : α} {steps : Nat}
    (advances : Advances operand) (enough : c.tokens.length ≤ steps)
    (found : chainFrom operand join steps left c = .ok a after) :
    (after.tokens.map Located.token).head?.bind join = none := by
  induction steps generalizing c left with
  | zero =>
    cases found
    rw [List.length_eq_zero_iff.mp (Nat.le_zero.1 enough)]
    rfl
  | succ steps ih =>
    rcases c with ⟨tokens, stop⟩
    cases tokens with
    | nil =>
      cases found
      rfl
    | cons t rest =>
      rw [chainFrom_cons] at found
      split at found
      · cases found
        assumption
      · rcases bind_eq_ok_iff.mp found with ⟨right, between, found, found'⟩
        have shorter := advances.length_le found
        simp only [List.length_cons] at enough shorter
        exact ih (by omega) found'

theorem takes_chain (sort' : List Token → List Token → α → Prop) (takes : Takes operand sort)
    (first : ∀ ts rest a, sort ts rest a → sort' ts rest a)
    (step : ∀ ls t rs rest left right combine, join t = some combine →
      sort' ls (t :: rs ++ rest) left → sort rs rest right →
      sort' (ls ++ t :: rs) rest (combine left right)) :
    Takes (chain operand join) fun ts rest a => sort' ts rest a ∧ rest.head?.bind join = none := by
  intro c a after found
  rw [chain_eq_bind] at found
  rcases bind_eq_ok_iff.mp found with ⟨left, between, found, found'⟩
  rcases takes _ _ _ found with ⟨taken, rfl, sorted⟩
  rcases takes_chainFrom takes step _ (first _ _ _ sorted) found' with ⟨taken', rfl, sorted'⟩
  have ends := head_of_chainFrom takes.advances (Nat.le_refl _) found'
  exact ⟨taken ++ taken', by simp, sorted', ends⟩

end Chain

end Formula.Rule
