import Formula.Proofs.Rule.Relation

/-! Conditions are read exactly as the grammar says, with every comparison selected. -/

namespace Formula

open Rule

variable {o : Ordered} {ts rest : List Token}

def Clause.rule : Clause → Rule (Expr .boolean)
  | .term => Rule.term
  | .chain => Rule.condition

def Clause.resume : Clause → Expr .boolean → Rule (Expr .boolean)
  | .term, e => pure e
  | .chain, e => loop Rule.term joinCondition e

section Failures

theorem ReadsName.not_readsComparison {name : String} (reads : ReadsName ts name)
    (follow : EndsTerm rest) {us rest' : List Token} {e : Expr .boolean}
    (same : us ++ rest' = ts ++ rest) : ¬ ReadsComparison o us rest' e := by
  intro reading
  rcases reading with ⟨ls, op, rs, l, r, rfl, reads', -, -, -⟩
  have row : ts ++ rest = ls ++ (.relation op :: rs ++ rest') := by
    rw [← same, List.append_assoc]
  rcases reads'.eq_or_goesOn reads (by simp) follow.head?_ne_dot row with rfl | ⟨op', more, rfl⟩
  · have tail := List.append_cancel_left row
    exact not_endsTerm_relation (tail ▸ follow)
  · rw [List.append_assoc] at row
    have tail := List.append_cancel_left row
    exact not_endsTerm_arithmetic (tail ▸ follow)

theorem not_readsComparison_boolean {b : Bool} {us rest' : List Token} {e : Expr .boolean}
    (same : us ++ rest' = .boolean b :: rest) : ¬ ReadsComparison o us rest' e := by
  intro reading
  rcases reading with ⟨ls, op, rs, l, r, rfl, reads, -, -, -⟩
  rcases List.exists_cons_of_ne_nil reads.ne_nil with ⟨t, back, rfl⟩
  simp only [List.cons_append, List.cons.injEq] at same
  have serves := reads.serves t (by simp)
  rw [same.1] at serves
  cases serves

theorem ReadsOperand.exists_parenthesized {e : Expr (.ordered o)} (reads : ReadsOperand o ts e)
    {back : List Token} (opened : ts = .openParen :: back) :
    ∃ us more, back = us ++ .closeParen :: more ∧ Balanced us ∧
      (more = [] ∨ ∃ op more', more = .arithmetic op :: more') := by
  cases reads with
  | string text | instant i => simp at opened
  | stringName reads | instantName reads =>
    rcases reads.exists_cons with ⟨text, more, rfl⟩
    simp at opened
  | number reads =>
    rcases reads.exists_factor with ⟨front, more, e', rfl, factor, stops⟩
    cases factor with
    | @parenthesized us _ reads =>
      refine ⟨us, more, ?_, reads.balanced, stops⟩
      simpa using opened.symm
    | name reads =>
      rcases reads.exists_cons with ⟨text, more, rfl⟩
      simp at opened
    | literal denotes =>
      simp only [List.cons_append, List.cons.injEq] at opened
      have nest := denotes.nest 0
      rw [opened.1] at nest
      cases nest
    | negated denotes => simp at opened

theorem Balanced.not_readsComparison (balanced : Balanced ts) (follow : EndsTerm rest)
    {us rest' : List Token} {e : Expr .boolean}
    (same : us ++ rest' = .openParen :: ts ++ [.closeParen] ++ rest) :
    ¬ ReadsComparison o us rest' e := by
  intro reading
  rcases reading with ⟨ls, op, rs, l, r, rfl, reads, -, -, -⟩
  rcases List.exists_cons_of_ne_nil reads.ne_nil with ⟨t, back, rfl⟩
  simp only [List.cons_append, List.cons.injEq, List.append_assoc, List.nil_append] at same
  rcases reads.exists_parenthesized (by rw [same.1]) with ⟨inside, more, rfl, balanced', stops⟩
  rcases append_closeParen_inj balanced' balanced (by simpa using same.2) with ⟨-, rfl⟩
  rcases stops with rfl | ⟨op', more', rfl⟩
  · exact not_endsTerm_relation follow
  · exact not_endsTerm_arithmetic follow

end Failures

namespace Rule

theorem fails_relation {c : Cursor}
    (none : ∀ o us rest e, us ++ rest = c.tokens.map Located.token →
      ¬ ReadsComparison o us rest e) : Fails relation c := by
  intro e after found
  rcases relation_eq_ok_iff.mp found with ⟨o, found, -⟩
  exact fails_comparison_iff.mpr (none o) e after found

theorem fails_parenthesized {α : Type} {inner : Rule α} {t : Located} {rest : List Located}
    {stop : Nat} (plain : t.token ≠ .openParen) :
    Fails (parenthesized inner) ⟨t :: rest, stop⟩ := by
  intro a after found
  rcases parenthesized_eq_ok_iff.mp found with ⟨first, _, _, start, opened, -⟩
  cases start
  exact plain opened

theorem fails_booleanLiteral {t : Located} {rest : List Located} {stop : Nat}
    (plain : ∀ b, t.token ≠ .boolean b) : Fails booleanLiteral ⟨t :: rest, stop⟩ := by
  intro e after found
  rcases take_eq_ok_iff.mp found with ⟨t', start, reading⟩
  cases start
  split at reading
  · exact plain _ (by assumption)
  · cases reading

theorem term_eq_ok_iff {c after : Cursor} {e : Expr .boolean} :
    term c = .ok e after ↔
      relation c = .ok e after ∨ Fails relation c ∧
        (parenthesized condition c = .ok e after ∨ Fails (parenthesized condition) c ∧
          (booleanLiteral c = .ok e after ∨ Fails booleanLiteral c ∧ name c = .ok e after)) := by
  rw [term_eq, termOver]
  simp only [choice_cons_eq_ok_iff, choice_nil, and_false, or_false]

theorem joinCondition_eq_some_iff {t : Token}
    {combine : Expr .boolean → Expr .boolean → Expr .boolean} :
    joinCondition t = some combine ↔ ∃ op, t = .connective op ∧ combine = .logic op := by
  cases t <;> simp [joinCondition, Token.connective?, eq_comm]

theorem takes_relationWithin (depth : Nat) :
    Takes (relationWithin depth) fun ts rest e =>
      ts.length + rest.length ≤ depth → ReadsCondition Selected .term ts e := by
  intro c e after found
  rcases takesBalanced_relationWithin depth c e after found with ⟨taken, start, -⟩
  refine ⟨taken, start, ?_⟩
  intro short
  have same : relation c = .ok e after := by
    rw [← found]
    apply (agreeBelow_relation depth c _).symm
    rw [start]
    simpa using Nat.lt_succ_of_le short
  rcases takes_relation c e after same with
    ⟨taken', start', o, ls, op, rs, l, r, row, reads, reads', selected, rfl⟩
  have tokens : taken = taken' :=
    List.append_cancel_right (congrArg Cursor.tokens (start.symm.trans start'))
  rw [tokens, row]
  exact .comparison reads reads' selected

theorem takes_termOver {depth : Nat} {inner : Rule (Expr .boolean)}
    (takes : Takes inner fun ts rest e =>
      ts.length + rest.length < depth → ReadsCondition Selected .chain ts e) :
    Takes (termOver (relationWithin depth) inner) fun ts rest e =>
      ts.length + rest.length ≤ depth → ReadsCondition Selected .term ts e := by
  apply takes_choice
  simp only [List.mem_cons, List.not_mem_nil, or_false, forall_eq_or_imp, forall_eq]
  refine ⟨takes_relationWithin depth, (takes_parenthesized takes).mono ?_, takes_take.mono ?_,
    takes_name.mono ?_⟩
  · intro ts rest e reading short
    rcases reading with ⟨us, rfl, reads⟩
    refine .parenthesized (reads ?_)
    simp only [List.cons_append, List.length_cons, List.length_append, List.length_nil] at short
    simp only [List.length_cons]
    omega
  · intro ts rest e token short
    rcases token with ⟨t, rfl, reading⟩
    split at reading
    · cases reading
      exact .literal _
    · cases reading
  · intro ts rest e reading short
    rcases reading with ⟨text, reads, -, rfl⟩
    exact .name reads

theorem takes_conditionOver {depth : Nat} {inner : Rule (Expr .boolean)}
    (takes : Takes inner fun ts rest e =>
      ts.length + rest.length < depth → ReadsCondition Selected .chain ts e) :
    Takes (conditionOver (relationWithin depth) inner) fun ts rest e =>
      ts.length + rest.length ≤ depth → ReadsCondition Selected .chain ts e := by
  refine (takes_chain (fun ts rest e =>
    ts.length + rest.length ≤ depth → ReadsCondition Selected .chain ts e)
    (takes_termOver takes) ?_ ?_).mono fun _ _ _ => And.left
  · intro ts rest e reads short
    exact .term (reads short)
  · intro ls t rs rest l r combine joins reads reads' short
    rcases joinCondition_eq_some_iff.mp joins with ⟨op, rfl, rfl⟩
    simp only [List.length_append, List.length_cons] at short
    refine .joined (reads ?_) (reads' (by omega))
    simp only [List.cons_append, List.length_cons, List.length_append]
    omega

theorem takes_conditionWithin (depth : Nat) :
    Takes (conditionWithin depth) fun ts rest e =>
      ts.length + rest.length ≤ depth → ReadsCondition Selected .chain ts e := by
  induction depth with
  | zero => exact takes_conditionOver takes_exhausted
  | succ depth ih =>
    exact takes_conditionOver (ih.mono fun _ _ _ reads short => reads (Nat.le_of_lt_succ short))

theorem takes_condition :
    Takes condition fun ts _ e => ReadsCondition Selected .chain ts e := by
  intro c e after found
  rcases takes_conditionWithin c.tokens.length c e after found with ⟨taken, rfl, reads⟩
  exact ⟨taken, rfl, reads (by simp)⟩

theorem advances_term : Advances term := by
  rw [term_eq]
  exact (takesBalanced_termOver takesBalanced_relation takesBalanced_condition).advances

section Fails

variable {stop : Nat}

theorem term_parenthesized_of_fails {e : Expr .boolean} {first last : Located}
    {inside rest : List Located} (fails : Fails relation ⟨first :: inside ++ [last] ++ rest, stop⟩)
    (opened : first.token = .openParen) (closed : last.token = .closeParen)
    (found : condition ⟨inside ++ last :: rest, stop⟩ = .ok e ⟨last :: rest, stop⟩) :
    term ⟨first :: inside ++ [last] ++ rest, stop⟩ = .ok e ⟨rest, stop⟩ := by
  have read : parenthesized condition ⟨first :: inside ++ [last] ++ rest, stop⟩ =
      .ok e ⟨rest, stop⟩ :=
    parenthesized_eq_ok_iff.mpr
      ⟨first, last, inside ++ last :: rest, by simp, opened, found, closed⟩
  exact term_eq_ok_iff.mpr (.inr ⟨fails, .inl read⟩)

theorem term_name_of_fails {name : String} {taken rest : List Located}
    (fails : Fails relation ⟨taken ++ rest, stop⟩) (reads : ReadsName (taken.map Located.token) name)
    (ends : (rest.map Located.token).head? ≠ some .dot) :
    term ⟨taken ++ rest, stop⟩ = .ok (.var name) ⟨rest, stop⟩ := by
  have read := name_of_readsName .boolean reads ends stop
  rcases reads.exists_identifier with ⟨t, text, taken, rfl, word⟩
  have fails' : Fails (parenthesized condition) ⟨t :: (taken ++ rest), stop⟩ :=
    fails_parenthesized (by simp [word])
  have fails'' : Fails booleanLiteral ⟨t :: (taken ++ rest), stop⟩ :=
    fails_booleanLiteral (by simp [word])
  exact term_eq_ok_iff.mpr (.inr ⟨fails, .inr ⟨fails', .inr ⟨fails'', read⟩⟩⟩)

end Fails

theorem term_of_parenthesized {e : Expr .boolean} {first last : Located}
    {inside rest : List Located} {stop : Nat} (balanced : Balanced (inside.map Located.token))
    (follow : EndsTerm (rest.map Located.token)) (opened : first.token = .openParen)
    (closed : last.token = .closeParen)
    (found : condition ⟨inside ++ last :: rest, stop⟩ = .ok e ⟨last :: rest, stop⟩) :
    term ⟨first :: inside ++ [last] ++ rest, stop⟩ = .ok e ⟨rest, stop⟩ := by
  have fails : Fails relation ⟨first :: inside ++ [last] ++ rest, stop⟩ := by
    apply fails_relation
    intro o us rest' e same
    apply balanced.not_readsComparison follow
    simpa [opened, closed] using same
  exact term_parenthesized_of_fails fails opened closed found

theorem term_of_boolean {b : Bool} {t : Located} (literal : t.token = .boolean b)
    (rest : List Located) (stop : Nat) :
    term ⟨t :: rest, stop⟩ = .ok (.const b) ⟨rest, stop⟩ := by
  have fails : Fails relation ⟨t :: rest, stop⟩ := by
    apply fails_relation
    intro o us rest' e same
    exact not_readsComparison_boolean (by simpa [literal] using same)
  have fails' : Fails (parenthesized condition) ⟨t :: rest, stop⟩ :=
    fails_parenthesized (by simp [literal])
  have read : booleanLiteral ⟨t :: rest, stop⟩ = .ok (.const b) ⟨rest, stop⟩ :=
    take_eq_ok_iff.mpr ⟨t, rfl, by rw [literal]⟩
  exact term_eq_ok_iff.mpr (.inr ⟨fails, .inr ⟨fails', .inl read⟩⟩)

theorem term_of_readsName {name : String} {taken rest : List Located}
    (reads : ReadsName (taken.map Located.token) name)
    (follow : EndsTerm (rest.map Located.token)) (stop : Nat) :
    term ⟨taken ++ rest, stop⟩ = .ok (.var name) ⟨rest, stop⟩ := by
  have fails : Fails relation ⟨taken ++ rest, stop⟩ := by
    apply fails_relation
    intro o us rest' e same
    exact reads.not_readsComparison follow (by rw [same, List.map_append])
  exact term_name_of_fails fails reads follow.head?_ne_dot

end Rule

theorem Clause.resume_stop {clause : Clause} {rest : List Located}
    (closed : ∀ op, (rest.map Located.token).head? ≠ some (.connective op)) (e : Expr .boolean)
    (stop : Nat) :
    clause.resume e ⟨rest, stop⟩ = .ok e ⟨rest, stop⟩ := by
  cases clause with
  | term => rfl
  | chain =>
    apply loop_stop
    intro t combine next joins
    rcases joinCondition_eq_some_iff.mp joins with ⟨op, rfl, -⟩
    exact closed op next

theorem run_of_readsCondition {clause : Clause} {e : Expr .boolean}
    (reads : ReadsCondition Selected clause ts e) {taken rest : List Located}
    (row : taken.map Located.token = ts) (follow : EndsTerm (rest.map Located.token))
    (stop : Nat) :
    clause.rule ⟨taken ++ rest, stop⟩ = clause.resume e ⟨rest, stop⟩ := by
  -- What follows is general, as long as a term ends before it.
  induction reads generalizing taken rest with
  | @comparison o op ls rs l r reads reads' selected =>
    have found : relation ⟨taken ++ rest, stop⟩ = .ok (.compare op l r) ⟨rest, stop⟩ :=
      (relation_eq_ok_iff_selected follow).mpr
        ⟨taken, rfl, o, ls, op, rs, l, r, row, reads, reads', selected, rfl⟩
    exact term_eq_ok_iff.mpr (.inl found)
  | @parenthesized ts e reads ih =>
    rcases exists_of_map_eq_parenthesized row with
      ⟨first, inside, last, rfl, opened, insideRow, closed⟩
    have closes : EndsTerm ((last :: rest).map Located.token) := by
      rw [List.map_cons, closed]
      exact endsTerm_closeParen _
    have stops : Clause.chain.resume e ⟨last :: rest, stop⟩ = .ok e ⟨last :: rest, stop⟩ :=
      Clause.resume_stop (by simp [closed]) e stop
    exact term_of_parenthesized (insideRow ▸ reads.balanced) follow opened closed
      ((ih insideRow closes).trans stops)
  | literal b =>
    rcases List.map_eq_singleton_iff.mp row with ⟨t, rfl, literal⟩
    exact term_of_boolean literal rest stop
  | name reads =>
    subst row
    exact term_of_readsName reads follow stop
  | term _ ih =>
    have found : Rule.term ⟨taken ++ rest, stop⟩ = .ok _ ⟨rest, stop⟩ := ih row follow
    rw [Clause.rule, condition_eq, chain_eq_bind, bind_run, found]
    rfl
  | @joined op ls rs l r _ _ ih ih' =>
    rcases exists_of_map_eq_append_cons row with
      ⟨left, t, right, rfl, leftRow, isConnective, rightRow⟩
    have joins : joinCondition t.token = some (.logic op) :=
      joinCondition_eq_some_iff.mpr ⟨op, isConnective, rfl⟩
    have before : EndsTerm ((t :: (right ++ rest)).map Located.token) := by
      rw [List.map_cons, isConnective]
      exact endsTerm_connective op _
    have found : Rule.term ⟨right ++ rest, stop⟩ = .ok r ⟨rest, stop⟩ := ih' rightRow follow
    calc
      Clause.chain.rule ⟨left ++ t :: right ++ rest, stop⟩ =
          Clause.chain.resume l ⟨t :: (right ++ rest), stop⟩ := by
        rw [List.append_assoc, List.cons_append, ih leftRow before]
      _ = Clause.chain.resume (.logic op l r) ⟨rest, stop⟩ :=
        loop_step advances_term joins found l

namespace Source

/-- A row of tokens is a condition exactly if the whole row reads as one with every comparison
selected. -/
theorem complete_condition_eq_ok_iff {stop : Nat} {tokens : List Located} {e : Expr .boolean} :
    complete condition ⟨tokens, stop⟩ = .ok e ↔
      ReadsCondition Selected .chain (tokens.map Located.token) e := by
  rw [complete_eq_ok_iff]
  constructor
  · intro success
    obtain ⟨stop', found⟩ := success
    obtain ⟨taken, start, reads⟩ := takes_condition _ _ _ found
    cases start
    simpa using reads
  · intro reads
    have run : Rule.condition ⟨tokens ++ [], stop⟩ = Clause.chain.resume e ⟨[], stop⟩ := by
      apply run_of_readsCondition reads rfl
      exact endsTerm_nil
    have stops : Clause.chain.resume e ⟨[], stop⟩ = .ok e ⟨[], stop⟩ :=
      Clause.resume_stop (by simp) e stop
    rw [List.append_nil] at run
    exact ⟨stop, run.trans stops⟩

theorem parseTokens_condition_eq_ok_iff {limit stop : Nat} {tokens : List Located}
    {e : Expr .boolean} :
    parseTokens condition limit ⟨tokens, stop⟩ = .ok e ↔
      checkNesting limit 0 tokens = .ok () ∧
        ReadsCondition Selected .chain (tokens.map Located.token) e := by
  rw [parseTokens_eq_ok_iff, complete_condition_eq_ok_iff]

end Source

end Formula
