import Formula.Proofs.Rule.Depth

/-! Arithmetic is read exactly as the grammar says: what a rule takes is a row of its level, and it
takes every row of its level that ends where the rule would stop. -/

namespace Formula

open Rule

variable {n : Numeric}

def Level.rule (n : Numeric) : Level → Rule (Expr (.number n))
  | .factor => Rule.factor n
  | .product => Rule.product n
  | .sum => Rule.sum n

def Level.resume (n : Numeric) : Level → Expr (.number n) → Rule (Expr (.number n))
  | .factor, e => pure e
  | .product, e => loop (Rule.factor n) joinProduct e
  | .sum, e => loop (Rule.product n) joinSum e

def Level.below : Level → Level
  | .factor | .product => .factor
  | .sum => .product

theorem Level.takes_rule (level : Level) :
    Takes (level.rule n) fun ts rest e => ReadsNumber n level ts e ∧ level.Ends ts rest := by
  have takes : Takes (Rule.sum n) fun ts _ e => ReadsNumber n .sum ts e :=
    takes_sum.mono fun _ _ _ => And.left
  cases level with
  | factor => simpa only [Level.rule, factor_eq] using takes_factorOver takes
  | product =>
    rw [Level.rule, product_eq, factor_eq]
    exact takes_productOver takes
  | sum => exact takes_sum

theorem Level.ends_cons {level : Level} {ts rest : List Token} {t : Token} (plain : t ≠ .dot)
    (operator : ∀ op, t = .arithmetic op → level.joins op = false) : level.Ends ts (t :: rest) := by
  constructor
  · intro dot
    exact absurd (Option.some.inj dot) plain
  · intro op next
    exact operator op (Option.some.inj next)

theorem Level.resume_stop {level : Level} {ts : List Token} {rest : List Located}
    (ends : level.Ends ts (rest.map Located.token)) (e : Expr (.number n)) (stop : Nat) :
    level.resume n e ⟨rest, stop⟩ = .ok e ⟨rest, stop⟩ := by
  cases level with
  | factor => rfl
  | product =>
    apply loop_stop
    intro t combine next joins
    rcases joinProduct_eq_some_iff.mp joins with ⟨op, rfl, level, -⟩
    have stops := ends.operator op next
    rw [← level, Level.joins_of_level] at stops
    cases stops
  | sum =>
    apply loop_stop
    intro t combine next joins
    rcases joinSum_eq_some_iff.mp joins with ⟨op, rfl, -⟩
    cases ends.operator op next

theorem ReadsName.head?_ne_dot {level : Level} {ts rest : List Token} {name : String}
    (reads : ReadsName ts name) (ends : level.Ends ts rest) : rest.head? ≠ some .dot := by
  intro dot
  rcases reads.exists_getLast? with ⟨text, last⟩
  exact ends.name dot text last

namespace Rule

def joinName : Token → Option (String → String → String)
  | .dot => some fun left right => left ++ "." ++ right
  | _ => none

theorem dottedName_eq : dottedName = chain identifier joinName := rfl

theorem advances_identifier : Advances identifier := takes_take.advances

theorem identifier_cons {text : String} {t : Located} (word : t.token = .identifier text)
    (rest : List Located) (stop : Nat) : identifier ⟨t :: rest, stop⟩ = .ok text ⟨rest, stop⟩ := by
  rw [identifier, take_cons, word]

theorem dottedName_of_readsName {ts : List Token} {text : String} (reads : ReadsName ts text)
    {taken : List Located} (row : taken.map Located.token = ts) (rest : List Located)
    (stop : Nat) :
    dottedName ⟨taken ++ rest, stop⟩ = loop identifier joinName text ⟨rest, stop⟩ := by
  induction reads generalizing taken rest with
  | identifier text =>
    rcases List.map_eq_singleton_iff.mp row with ⟨t, rfl, word⟩
    rw [dottedName_eq, chain_eq_bind, bind_run, List.singleton_append, identifier_cons word]
  | @dotted _ name text _ ih =>
    rcases exists_of_map_eq_append_cons row with ⟨front, dot, back, rfl, frontRow, isDot, backRow⟩
    rcases List.map_eq_singleton_iff.mp backRow with ⟨t, rfl, word⟩
    have joins : joinName dot.token = some fun left right => left ++ "." ++ right := by
      rw [isDot]
      rfl
    calc
      dottedName ⟨front ++ [dot, t] ++ rest, stop⟩ =
          loop identifier joinName name ⟨dot :: t :: rest, stop⟩ := by
        rw [List.append_assoc, ih frontRow]
        rfl
      _ = loop identifier joinName (name ++ "." ++ text) ⟨rest, stop⟩ :=
        loop_step advances_identifier joins (identifier_cons word rest stop) name

theorem dottedName_append {text : String} {taken rest : List Located}
    (reads : ReadsName (taken.map Located.token) text)
    (ends : (rest.map Located.token).head? ≠ some .dot) (stop : Nat) :
    dottedName ⟨taken ++ rest, stop⟩ = .ok text ⟨rest, stop⟩ := by
  have stops : loop identifier joinName text ⟨rest, stop⟩ = .ok text ⟨rest, stop⟩ := by
    apply loop_stop
    intro t combine next joins
    cases t <;> cases joins
    exact ends next
  exact (dottedName_of_readsName reads rfl rest stop).trans stops

theorem name_of_readsName (kind : Kind) {text : String} {taken rest : List Located}
    (reads : ReadsName (taken.map Located.token) text)
    (ends : (rest.map Located.token).head? ≠ some .dot) (stop : Nat) :
    (name : Rule (Expr kind)) ⟨taken ++ rest, stop⟩ = .ok (.var text) ⟨rest, stop⟩ :=
  map_eq_ok_iff.mpr ⟨text, dottedName_append reads ends stop, rfl⟩

theorem literal_of_denotes {negative : Bool} {t : Located} {value : n.Carrier}
    (denotes : n.Denotes negative t.token value) (start : Nat) (rest : List Located)
    (stop : Nat) :
    literal n negative start ⟨t :: rest, stop⟩ = .ok (.const value) ⟨rest, stop⟩ := by
  rw [literal_cons, Numeric.literal?_eq_ok_iff.mpr denotes]

theorem factorOver_of_denotes {inner : Rule (Expr (.number n))} {t : Located} {value : n.Carrier}
    (denotes : n.Denotes false t.token value) (rest : List Located) (stop : Nat) :
    factorOver inner ⟨t :: rest, stop⟩ = .ok (.const value) ⟨rest, stop⟩ := by
  have read := literal_of_denotes denotes t.offset rest stop
  rw [factorOver_cons, ← read]
  cases n with
  | double =>
    rcases denotes with ⟨x, isDouble, -⟩
    rw [isDouble]
  | whole width =>
    rcases denotes with ⟨digits, isWhole, -⟩
    cases width <;> simp only [isWhole, Token.whole]

theorem run_of_readsNumber {level : Level} {ts : List Token} {e : Expr (.number n)}
    (reads : ReadsNumber n level ts e) {taken : List Located} (row : taken.map Located.token = ts)
    {rest : List Located} (ends : level.below.Ends ts (rest.map Located.token)) (stop : Nat) :
    level.rule n ⟨taken ++ rest, stop⟩ = level.resume n e ⟨rest, stop⟩ := by
  -- What follows is general, since each part of the row is followed by the parts behind it.
  induction reads generalizing taken rest with
  | @parenthesized ts e _ ih =>
    rcases exists_of_map_eq_parenthesized row with
      ⟨first, inside, last, rfl, opened, insideRow, closed⟩
    have closes (level : Level) : level.Ends ts ((last :: rest).map Located.token) := by
      rw [List.map_cons, closed]
      exact Level.ends_cons (by simp) (by simp)
    have found := (ih insideRow (closes _)).trans (Level.resume_stop (closes _) e stop)
    rw [Level.rule, factor_eq, List.cons_append, List.cons_append, factorOver_cons, opened]
    exact parenthesized_eq_ok_iff.mpr
      ⟨first, last, inside ++ last :: rest, by simp, opened, found, closed⟩
  | name reads =>
    subst row
    rcases reads.exists_identifier with ⟨t, text, taken, rfl, word⟩
    have found := name_of_readsName (.number n) reads (reads.head?_ne_dot ends) stop
    rw [List.cons_append] at found ⊢
    rw [Level.rule, factor_eq, factorOver_cons, word]
    exact found
  | literal denotes =>
    rcases List.map_eq_singleton_iff.mp row with ⟨t, rfl, rfl⟩
    rw [Level.rule, factor_eq]
    exact factorOver_of_denotes denotes rest stop
  | negated denotes =>
    rcases List.map_eq_cons_iff.mp row with ⟨sign, back, rfl, minus, backRow⟩
    rcases List.map_eq_singleton_iff.mp backRow with ⟨t, rfl, rfl⟩
    rw [Level.rule, factor_eq, List.cons_append, factorOver_cons, minus]
    exact literal_of_denotes denotes sign.offset rest stop
  | factor _ ih =>
    have found : Rule.factor n ⟨taken ++ rest, stop⟩ = .ok _ ⟨rest, stop⟩ := ih row ends
    rw [Level.rule, product_eq, chain_eq_bind, bind_run, found]
    rfl
  | product _ ih =>
    have found : Rule.product n ⟨taken ++ rest, stop⟩ = .ok _ ⟨rest, stop⟩ :=
      (ih row ends.factor).trans (Level.resume_stop ends _ stop)
    rw [Level.rule, sum_eq, chain_eq_bind, bind_run, found]
    rfl
  | @scaled op ls rs l r level _ reads' ih ih' =>
    rcases exists_of_map_eq_append_cons row with ⟨left, t, right, rfl, leftRow, isOp, rightRow⟩
    have joins : joinProduct t.token = some (.arith (n := n) op) :=
      joinProduct_eq_some_iff.mpr ⟨op, isOp, level, rfl⟩
    have before : Level.factor.Ends ls ((t :: (right ++ rest)).map Located.token) := by
      rw [List.map_cons, isOp]
      exact Level.ends_cons (by simp) fun _ _ => rfl
    have found : Rule.factor n ⟨right ++ rest, stop⟩ = .ok r ⟨rest, stop⟩ :=
      ih' rightRow (ends.of_getLast?_eq (getLast?_append_cons _ reads'.ne_nil).symm)
    calc
      Level.product.rule n ⟨left ++ t :: right ++ rest, stop⟩ =
          Level.product.resume n l ⟨t :: (right ++ rest), stop⟩ := by
        rw [List.append_assoc, List.cons_append, ih leftRow before]
      _ = Level.product.resume n (.arith op l r) ⟨rest, stop⟩ :=
        loop_step (Level.factor.takes_rule).advances joins found l
  | @shifted op ls rs l r level _ reads' ih ih' =>
    rcases exists_of_map_eq_append_cons row with ⟨left, t, right, rfl, leftRow, isOp, rightRow⟩
    have joins : joinSum t.token = some (.arith (n := n) op) :=
      joinSum_eq_some_iff.mpr ⟨op, isOp, level, rfl⟩
    have before : Level.product.Ends ls ((t :: (right ++ rest)).map Located.token) := by
      rw [List.map_cons, isOp]
      apply Level.ends_cons (by simp)
      intro op' same
      cases same
      rw [Level.joins, level]
      rfl
    have ends' := ends.of_getLast?_eq (getLast?_append_cons ls reads'.ne_nil).symm
    have found : Rule.product n ⟨right ++ rest, stop⟩ = .ok r ⟨rest, stop⟩ :=
      (ih' rightRow ends'.factor).trans (Level.resume_stop ends' r stop)
    calc
      Level.sum.rule n ⟨left ++ t :: right ++ rest, stop⟩ =
          Level.sum.resume n l ⟨t :: (right ++ rest), stop⟩ := by
        rw [List.append_assoc, List.cons_append, ih leftRow before]
      _ = Level.sum.resume n (.arith op l r) ⟨rest, stop⟩ :=
        loop_step (Level.product.takes_rule).advances joins found l

theorem Level.below_ends {level : Level} {ts rest : List Token} (ends : level.Ends ts rest) :
    level.below.Ends ts rest := by
  cases level with
  | factor => exact ends
  | product => exact ends.factor
  | sum => exact ends.product

/-- The rule of a level makes `e` of a row exactly if the grammar does and the row ends there. -/
theorem rule_eq_ok_iff (level : Level) {c after : Cursor} {e : Expr (.number n)} :
    level.rule n c = .ok e after ↔
      ∃ taken : List Located, c = ⟨taken ++ after.tokens, after.stop⟩ ∧
        ReadsNumber n level (taken.map Located.token) e ∧
        level.Ends (taken.map Located.token) (after.tokens.map Located.token) := by
  constructor
  · exact level.takes_rule c e after
  · intro reading
    rcases reading with ⟨taken, rfl, reads, ends⟩
    rw [run_of_readsNumber reads rfl (Level.below_ends ends)]
    exact Level.resume_stop ends e after.stop

end Rule

theorem Level.ends_nil (level : Level) (ts : List Token) : level.Ends ts [] :=
  ⟨by simp, by simp⟩

/-- A row that ends before the rest is told apart from the rest in one way only, and reads as one
tree only. -/
theorem ReadsNumber.prefix_unique {level : Level} {ts us rest rest' : List Token}
    {e e' : Expr (.number n)} (reads : ReadsNumber n level ts e)
    (reads' : ReadsNumber n level us e') (ends : level.Ends ts rest) (ends' : level.Ends us rest')
    (same : ts ++ rest = us ++ rest') : ts = us ∧ e = e' := by
  let located : List Token → List Located := List.map fun t => ⟨t, 0⟩
  have row (ts : List Token) : (located ts).map Located.token = ts := by
    simp [located, Function.comp_def]
  have run {ts rest : List Token} {e : Expr (.number n)} (reads : ReadsNumber n level ts e)
      (ends : level.Ends ts rest) :
      level.rule n ⟨located (ts ++ rest), 0⟩ = .ok e ⟨located rest, 0⟩ :=
    (rule_eq_ok_iff level).mpr
      ⟨located ts, by simp [located], by rwa [row], by rwa [row, row]⟩
  have both := run reads ends
  rw [same, run reads' ends', EStateM.Result.ok.injEq, Cursor.mk.injEq] at both
  have rests : rest' = rest := by rw [← row rest', both.2.1, row]
  rw [rests] at same
  exact ⟨List.append_cancel_right same, both.1.symm⟩

theorem ReadsNumber.unique {level : Level} {ts : List Token} {e e' : Expr (.number n)}
    (reads : ReadsNumber n level ts e) (reads' : ReadsNumber n level ts e') : e = e' :=
  (reads.prefix_unique reads' (level.ends_nil _) (level.ends_nil _) rfl).2

theorem ReadsName.prefix_unique {ts us rest rest' : List Token} {name name' : String}
    (reads : ReadsName ts name) (reads' : ReadsName us name') (ends : rest.head? ≠ some .dot)
    (ends' : rest'.head? ≠ some .dot) (same : ts ++ rest = us ++ rest') : ts = us := by
  have factor {ts : List Token} {name : String} (reads : ReadsName ts name) :
      ReadsNumber .double .factor ts (.var name) := .name reads
  exact ((factor reads).prefix_unique (factor reads') ⟨fun dot => absurd dot ends, fun _ _ => rfl⟩
    ⟨fun dot => absurd dot ends', fun _ _ => rfl⟩ same).1

namespace Source

theorem complete_eq_ok_iff {α : Type} {rule : Rule α} {start : Cursor} {a : α} :
    complete rule start = .ok a ↔ ∃ stop, rule start = .ok a ⟨[], stop⟩ := by
  unfold complete
  cases rule start with
  | error e after => simp
  | ok a' after =>
    rcases after with ⟨tokens, stop⟩
    cases tokens <;> simp

theorem parseTokens_eq_ok_iff {α : Type} {rule : Rule α} {limit : Nat} {start : Cursor} {a : α} :
    parseTokens rule limit start = .ok a ↔
      checkNesting limit 0 start.tokens = .ok () ∧ complete rule start = .ok a := by
  unfold parseTokens
  cases checkNesting limit 0 start.tokens with
  | error e => simp [bind, Except.bind]
  | ok u => simp [bind, Except.bind]

theorem parse_eq_ok_iff {α : Type} {rule : Rule α} {limit : Nat} {source : String} {a : α} :
    parse rule limit source = .ok a ↔
      ∃ located, tokens source = .ok located ∧
        parseTokens rule limit ⟨located, source.utf8ByteSize⟩ = .ok a := by
  unfold parse
  cases tokens source with
  | error e => simp [bind, Except.bind]
  | ok located => simp [bind, Except.bind]

theorem complete_sum_eq_ok_iff {stop : Nat} {tokens : List Located} {e : Expr (.number n)} :
    complete (Rule.sum n) ⟨tokens, stop⟩ = .ok e ↔
      ReadsNumber n .sum (tokens.map Located.token) e := by
  rw [complete_eq_ok_iff]
  have exact (stop' : Nat) : Rule.sum n ⟨tokens, stop⟩ = .ok e ⟨[], stop'⟩ ↔
      ∃ taken : List Located, (⟨tokens, stop⟩ : Cursor) = ⟨taken ++ [], stop'⟩ ∧
        ReadsNumber n .sum (taken.map Located.token) e ∧
        Level.sum.Ends (taken.map Located.token) [] :=
    rule_eq_ok_iff .sum
  constructor
  · intro success
    rcases success with ⟨stop', found⟩
    rcases (exact stop').1 found with ⟨taken, start, reads, -⟩
    cases start
    simpa using reads
  · intro reads
    exact ⟨stop, (exact stop).2 ⟨tokens, by simp, reads, Level.ends_nil _ _⟩⟩

theorem parseTokens_sum_eq_ok_iff {limit stop : Nat} {tokens : List Located}
    {e : Expr (.number n)} :
    parseTokens (Rule.sum n) limit ⟨tokens, stop⟩ = .ok e ↔
      checkNesting limit 0 tokens = .ok () ∧
        ReadsNumber n .sum (tokens.map Located.token) e := by
  rw [parseTokens_eq_ok_iff, complete_sum_eq_ok_iff]

/-- A row of tokens within the nesting limit is an arithmetic expression exactly if the whole row
reads as one in the grammar, and then it reads as one tree only. -/
theorem parseTokens_sum_iff_readsNumber (n : Numeric) (limit : Nat) (tokens : List Located)
    (stop : Nat) :
    (∀ e, parseTokens (Rule.sum n) limit ⟨tokens, stop⟩ = .ok e ↔
      checkNesting limit 0 tokens = .ok () ∧
        ReadsNumber n .sum (tokens.map Located.token) e) ∧
    ((∃ e, ReadsNumber n .sum (tokens.map Located.token) e) →
      ∃! e, ReadsNumber n .sum (tokens.map Located.token) e) := by
  constructor
  · exact fun e => parseTokens_sum_eq_ok_iff
  · intro reading
    rcases reading with ⟨e, reads⟩
    exact ⟨e, reads, fun e' reads' => reads'.unique reads⟩

end Source

end Formula
