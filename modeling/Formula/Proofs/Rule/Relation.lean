import Formula.Proofs.Rule.Sum

/-! Comparisons are read in the first kind that fits, and whole unless they are captured. -/

namespace Formula

def EndsTerm (rest : List Token) : Prop :=
  ∀ t, rest.head? = some t → t = .closeParen ∨ ∃ op, t = .connective op

theorem endsTerm_nil : EndsTerm [] := by
  intro t next
  cases next

theorem endsTerm_closeParen (rest : List Token) : EndsTerm (.closeParen :: rest) := by
  intro t next
  cases next
  exact .inl rfl

theorem endsTerm_connective (op : Connective) (rest : List Token) :
    EndsTerm (.connective op :: rest) := by
  intro t next
  cases next
  exact .inr ⟨op, rfl⟩

theorem EndsTerm.ends {rest : List Token} (follow : EndsTerm rest) (level : Level)
    (ts : List Token) : level.Ends ts rest := by
  constructor
  · intro dot
    rcases follow _ dot with h | ⟨_, h⟩ <;> cases h
  · intro op next
    rcases follow _ next with h | ⟨_, h⟩ <;> cases h

theorem EndsTerm.head?_ne_dot {rest : List Token} (follow : EndsTerm rest) :
    rest.head? ≠ some .dot := by
  intro dot
  rcases follow _ dot with h | ⟨_, h⟩ <;> cases h

theorem not_endsTerm_arithmetic {op : Arithmetic} {rest : List Token} :
    ¬ EndsTerm (.arithmetic op :: rest) := by
  intro follow
  rcases follow _ rfl with h | ⟨_, h⟩ <;> cases h

theorem not_endsTerm_relation {op : Relation} {rest : List Token} :
    ¬ EndsTerm (.relation op :: rest) := by
  intro follow
  rcases follow _ rfl with h | ⟨_, h⟩ <;> cases h

namespace Rule

variable {o : Ordered}

theorem operand_eq_ok_iff {c after : Cursor} {e : Expr (.ordered o)} :
    operand o c = .ok e after ↔
      ∃ taken : List Located, c = ⟨taken ++ after.tokens, after.stop⟩ ∧
        ReadsOperand o (taken.map Located.token) e ∧
        o.level.Ends (taken.map Located.token) (after.tokens.map Located.token) := by
  constructor
  · exact takes_operandWithin c.tokens.length o c e after
  · intro reading
    rcases reading with ⟨taken, rfl, reads, ends⟩
    generalize row : taken.map Located.token = ts at reads ends
    cases reads with
    | string text =>
      rcases List.map_eq_singleton_iff.mp row with ⟨t, rfl, literal⟩
      change stringOperand ⟨t :: after.tokens, after.stop⟩ = _
      rw [stringOperand_cons, literal]
    | instant i =>
      rcases List.map_eq_singleton_iff.mp row with ⟨t, rfl, literal⟩
      change instantOperand ⟨t :: after.tokens, after.stop⟩ = _
      rw [instantOperand_cons, literal]
    | stringName reads =>
      subst row
      have found := name_of_readsName .string reads (reads.head?_ne_dot ends) after.stop
      rcases reads.exists_identifier with ⟨t, text, taken, rfl, word⟩
      change stringOperand ⟨t :: (taken ++ after.tokens), after.stop⟩ = _
      rw [stringOperand_cons, word]
      exact found
    | instantName reads =>
      subst row
      have found := name_of_readsName .instant reads (reads.head?_ne_dot ends) after.stop
      rcases reads.exists_identifier with ⟨t, text, taken, rfl, word⟩
      change instantOperand ⟨t :: (taken ++ after.tokens), after.stop⟩ = _
      rw [instantOperand_cons, word]
      exact found
    | number reads =>
      subst row
      exact (rule_eq_ok_iff .sum).mpr ⟨taken, rfl, reads, ends⟩

theorem relation_ends (level : Level) (ts rest : List Token) (op : Relation) :
    level.Ends ts (.relation op :: rest) :=
  Level.ends_cons (by simp) (by simp)

theorem comparison_eq_ok_iff {c after : Cursor} {e : Expr .boolean} :
    comparison o c = .ok e after ↔
      ∃ taken : List Located, c = ⟨taken ++ after.tokens, after.stop⟩ ∧
        ReadsComparison o (taken.map Located.token) (after.tokens.map Located.token) e := by
  constructor
  · exact takes_comparisonWithin c.tokens.length o c e after
  · intro reading
    rcases reading with ⟨taken, rfl, ls, op, rs, l, r, row, reads, reads', ends, rfl⟩
    rcases exists_of_map_eq_append_cons row with ⟨left, t, right, rfl, rfl, isRelation, rfl⟩
    have leftFound : operand o ⟨left ++ t :: right ++ after.tokens, after.stop⟩ =
        .ok l ⟨t :: (right ++ after.tokens), after.stop⟩ := by
      have ends' : o.level.Ends (left.map Located.token)
          ((t :: (right ++ after.tokens)).map Located.token) := by
        rw [List.map_cons, isRelation]
        exact relation_ends _ _ _ _
      exact operand_eq_ok_iff.mpr ⟨left, by simp, reads, ends'⟩
    have rightFound : operand o ⟨right ++ after.tokens, after.stop⟩ = .ok r after :=
      operand_eq_ok_iff.mpr ⟨right, rfl, reads', ends⟩
    have relationFound : take "a relational operator" Token.relation?
        ⟨t :: (right ++ after.tokens), after.stop⟩ = .ok op ⟨right ++ after.tokens, after.stop⟩ :=
      take_eq_ok_iff.mpr ⟨t, rfl, by rw [isRelation]; rfl⟩
    rw [comparison_eq]
    exact bind_eq_ok_iff.mpr ⟨l, _, leftFound, bind_eq_ok_iff.mpr ⟨op, _, relationFound,
      bind_eq_ok_iff.mpr ⟨r, after, rightFound, rfl⟩⟩⟩

theorem relation_eq_ok_iff {c after : Cursor} {e : Expr .boolean} :
    relation c = .ok e after ↔
      ∃ o, comparison o c = .ok e after ∧
        ∀ o' : Ordered, o'.rank < o.rank → Fails (comparison o') c := by
  rw [relation_eq]
  simp only [choice_cons_eq_ok_iff, choice_nil, and_false, or_false]
  constructor
  · intro tried
    rcases tried with found | ⟨string, found | ⟨instant, found | ⟨int, found | ⟨long, found⟩⟩⟩⟩ <;>
      refine ⟨_, found, fun o' before => ?_⟩ <;>
      match o' with
      | .string | .instant | .number (.whole .int) | .number (.whole .long) | .number .double =>
        first | assumption | simp [Ordered.rank] at before
  · intro success
    rcases success with ⟨o, found, failed⟩
    match o with
    | .string => exact .inl found
    | .instant => exact .inr ⟨failed .string (by decide), .inl found⟩
    | .number (.whole .int) =>
      exact .inr ⟨failed .string (by decide), .inr ⟨failed .instant (by decide), .inl found⟩⟩
    | .number (.whole .long) =>
      exact .inr ⟨failed .string (by decide), .inr ⟨failed .instant (by decide),
        .inr ⟨failed (.number (.whole .int)) (by decide), .inl found⟩⟩⟩
    | .number .double =>
      exact .inr ⟨failed .string (by decide), .inr ⟨failed .instant (by decide),
        .inr ⟨failed (.number (.whole .int)) (by decide),
          .inr ⟨failed (.number (.whole .long)) (by decide), found⟩⟩⟩⟩

end Rule

section Selection

variable {o o' : Ordered} {ls rs rest : List Token} {l r : Expr (.ordered o)}

theorem ReadsNumber.exists_name {n : Numeric} {level : Level} {e : Expr (.number n)}
    (reads : ReadsNumber n level ls e) {text : String} {more : List Token}
    (word : ls = .identifier text :: more) :
    ∃ front name more, ls = front ++ more ∧ ReadsName front name ∧
      (more = [] ∨ ∃ op more', more = .arithmetic op :: more') := by
  rcases reads.exists_factor with ⟨front, back, e', rfl, factor, ends⟩
  cases factor with
  | name reads => exact ⟨front, _, back, rfl, reads, ends⟩
  | literal denotes =>
    simp only [List.cons_append, List.cons.injEq] at word
    exact absurd word.1 (denotes.ne_identifier text)
  | parenthesized _ | negated _ => simp at word

theorem ReadsOperand.exists_name (reads : ReadsOperand o ls l) {text : String} {more : List Token}
    (word : ls = .identifier text :: more) :
    ∃ front name more, ls = front ++ more ∧ ReadsName front name ∧
      (more = [] ∨ ∃ op more', more = .arithmetic op :: more') := by
  cases reads with
  | stringName reads | instantName reads => exact ⟨ls, _, [], by simp, reads, .inl rfl⟩
  | number reads => exact reads.exists_name word
  | string text | instant i => simp at word

theorem ReadsOperand.readsName {l' : Expr (.ordered o')} (reads : ReadsOperand o ls l)
    (reads' : ReadsOperand o' ls l') (other : o' ≠ o) (plain : o' = .string ∨ o' = .instant) :
    ∃ name, ReadsName ls name := by
  have serves := reads.serves
  cases reads' with
  | stringName reads | instantName reads => exact ⟨_, reads⟩
  | number reads => simp at plain
  | string text | instant i =>
    simp only [List.mem_singleton, forall_eq, Token.serves, beq_iff_eq] at serves
    exact absurd serves.symm other

theorem ReadsOperand.eq_or_goesOn {rs' rest' : List Token} {name : String}
    (reads : ReadsOperand o rs r) (readsName : ReadsName rs' name) (ends : rest.head? ≠ some .dot)
    (ends' : rest'.head? ≠ some .dot) (same : rs' ++ rest' = rs ++ rest) :
    rs' = rs ∨ ∃ op more, rs = rs' ++ .arithmetic op :: more := by
  rcases readsName.exists_cons with ⟨text, _, shape⟩
  rcases List.exists_cons_of_ne_nil reads.ne_nil with ⟨t, more, rfl⟩
  have word : t = .identifier text := by
    rw [shape] at same
    simp only [List.cons_append, List.cons.injEq] at same
    exact same.1.symm
  rcases reads.exists_name (by rw [word]) with ⟨front, name', more', split, readsFront, stops⟩
  have frontEnds : (more' ++ rest).head? ≠ some .dot := by
    rcases stops with rfl | ⟨op, more'', rfl⟩
    · exact ends
    · simp
  have first : rs' = front :=
    readsName.prefix_unique readsFront ends' frontEnds (by rw [same, split, List.append_assoc])
  rw [first]
  rcases stops with rfl | ⟨op, more'', rfl⟩
  · left
    rw [split, List.append_nil]
  · right
    exact ⟨op, more'', split⟩

theorem ReadsNumber.eq_of_append_eq {n m : Numeric} {e : Expr (.number n)} {e' : Expr (.number m)}
    {rs' rest' : List Token} (reads : ReadsNumber n .sum rs e) (reads' : ReadsNumber m .sum rs' e')
    (other : m ≠ n) (ends : Level.sum.Ends rs rest) (ends' : Level.sum.Ends rs' rest')
    (same : rs' ++ rest' = rs ++ rest) : rs' = rs := by
  -- The shorter row has no literal, so that it reads in the other kind, too.
  rcases List.append_eq_append_iff.mp same with ⟨more, longer, -⟩ | ⟨more, longer, -⟩
  · have serves (t : Token) (present : t ∈ rs') : t.serves (.number n) :=
      reads.serves t (by simp [longer, present])
    rcases reads'.transfer serves other.symm with ⟨e'', transferred⟩
    exact (transferred.prefix_unique reads ends' ends same).1
  · have serves (t : Token) (present : t ∈ rs) : t.serves (.number m) :=
      reads'.serves t (by simp [longer, present])
    rcases reads.transfer serves other with ⟨e'', transferred⟩
    exact (reads'.prefix_unique transferred ends' ends same).1

/-- The right operands that two kinds find at the same place agree, unless the earlier kind finds a
name and the later one goes on after it. -/
theorem ReadsOperand.eq_or_captured {rs' rest' : List Token} {r' : Expr (.ordered o')}
    (reads : ReadsOperand o rs r) (reads' : ReadsOperand o' rs' r') (before : o'.rank < o.rank)
    (ends : o'.level.Ends rs' rest') (follow : EndsTerm rest) (same : rs' ++ rest' = rs ++ rest) :
    rs' = rs ∨ (o' = .string ∨ o' = .instant) ∧ (∃ name, ReadsName rs' name) ∧
      ∃ op more, rs = rs' ++ .arithmetic op :: more := by
  have named {name : String} (readsName : ReadsName rs' name) :=
    reads.eq_or_goesOn readsName follow.head?_ne_dot (readsName.head?_ne_dot ends) same
  cases reads' with
  | string text | instant i =>
    rcases List.exists_cons_of_ne_nil reads.ne_nil with ⟨t, more, rfl⟩
    simp only [List.cons_append, List.cons.injEq] at same
    have own := reads.serves t (by simp)
    rw [← same.1, Token.serves, beq_iff_eq] at own
    exact absurd before (by simp [own])
  | stringName readsName =>
    rcases named readsName with same | goesOn
    · exact .inl same
    · exact .inr ⟨.inl rfl, ⟨_, readsName⟩, goesOn⟩
  | instantName readsName =>
    rcases named readsName with same | goesOn
    · exact .inl same
    · exact .inr ⟨.inr rfl, ⟨_, readsName⟩, goesOn⟩
  | @number m _ e' readsEarlier =>
    left
    cases reads with
    | string text | instant i | stringName reads | instantName reads =>
      cases m with
      | double => simp [Ordered.rank] at before
      | whole width => cases width <;> simp [Ordered.rank] at before
    | @number n _ e readsLater =>
      have other : m ≠ n := by
        intro same
        subst same
        exact absurd before (Nat.lt_irrefl _)
      exact readsLater.eq_of_append_eq readsEarlier other (follow.ends _ _) ends same

theorem Selected.not_readsComparison {op : Relation} {ts rest' : List Token} {e : Expr .boolean}
    (selected : Selected o ls rs) (reads : ReadsOperand o ls l) (reads' : ReadsOperand o rs r)
    (follow : EndsTerm rest) (before : o'.rank < o.rank)
    (same : ts ++ rest' = ls ++ .relation op :: rs ++ rest) : ¬ ReadsComparison o' ts rest' e := by
  intro reading
  rcases reading with ⟨ls', op', rs', l', r', rfl, readsL, readsR, ends, -⟩
  have other : o' ≠ o := by
    intro same
    subst same
    exact absurd before (Nat.lt_irrefl _)
  have sides : ls' ++ .relation op' :: (rs' ++ rest') = ls ++ .relation op :: (rs ++ rest) := by
    simpa using same
  rcases append_relation_inj readsL.relation_not_mem reads.relation_not_mem sides with
    ⟨rfl, -, rights⟩
  rcases reads'.eq_or_captured readsR before ends follow rights with
    rfl | ⟨plain, ⟨name, readsName⟩, op, more, goesOn⟩
  · exact selected.first o' before ⟨⟨l', readsL⟩, r', readsR⟩
  · exact selected.whole ⟨reads.readsName readsL other plain, rs', name, op, more, goesOn,
      readsName⟩

theorem Captured.rank_string_lt (captured : Captured ls rs) (reads : ReadsOperand o rs r) :
    Ordered.string.rank < o.rank := by
  rcases captured with ⟨-, front, _, op, more, rfl, -⟩
  have serves := reads.serves (.arithmetic op) (by simp)
  match o with
  | .string | .instant => cases serves
  | .number (.whole .int) | .number (.whole .long) | .number .double => decide

theorem Captured.exists_readsComparison (captured : Captured ls rs) (op : Relation)
    (rest : List Token) :
    ∃ ts rest' e, ts ++ rest' = ls ++ .relation op :: rs ++ rest ∧
      ReadsComparison .string ts rest' e := by
  rcases captured with ⟨⟨name, reads⟩, front, name', op', more, rfl, reads'⟩
  refine ⟨ls ++ .relation op :: front, .arithmetic op' :: more ++ rest,
    .compare (o := .string) op (.var name) (.var name'), by simp, ls, op, front, .var name,
    .var name', rfl, .stringName reads, .stringName reads', ?_, rfl⟩
  exact Level.ends_cons (by simp) fun _ _ => rfl

end Selection

namespace Rule

theorem fails_comparison_iff {o : Ordered} {c : Cursor} :
    Fails (comparison o) c ↔
      ∀ ts rest e, ts ++ rest = c.tokens.map Located.token → ¬ ReadsComparison o ts rest e := by
  constructor
  · intro failed ts rest e row reads
    rcases List.map_eq_append_iff.mp row.symm with ⟨taken, left, split, rfl, rfl⟩
    exact failed e ⟨left, c.stop⟩ (comparison_eq_ok_iff.mpr ⟨taken, by rw [← split], reads⟩)
  · intro none e after found
    rcases comparison_eq_ok_iff.mp found with ⟨taken, rfl, reads⟩
    exact none _ _ _ (by simp) reads

/-- A row that ends in one kind of operand ends in every kind that is tried before it. -/
theorem ends_of_rank_lt {o o' : Ordered} {ts rest : List Token} (before : o'.rank < o.rank)
    (ends : o.level.Ends ts rest) : o'.level.Ends ts rest := by
  cases o' with
  | string | instant => exact ends.factor
  | number m =>
    cases o with
    | string | instant => rcases m with ⟨⟨⟩⟩ | _ <;> simp [Ordered.rank] at before
    | number n => exact ends

theorem takes_relation :
    Takes relation fun ts _ e =>
      ∃ o ls op rs l r, ts = ls ++ .relation op :: rs ∧
        ReadsOperand o ls l ∧ ReadsOperand o rs r ∧ Selected o ls rs ∧ e = .compare op l r := by
  intro c e after success
  rcases relation_eq_ok_iff.mp success with ⟨o, found, failed⟩
  rcases comparison_eq_ok_iff.mp found with
    ⟨taken, rfl, ls, op, rs, l, r, row, reads, reads', ends, rfl⟩
  have earlier {o' : Ordered} (before : o'.rank < o.rank) :=
    fails_comparison_iff.mp (failed o' before)
  simp only [List.map_append, row] at earlier
  refine ⟨taken, rfl, o, ls, op, rs, l, r, row, reads, reads', ⟨?_, ?_⟩, rfl⟩
  · intro o' before reading
    rcases reading with ⟨⟨l', readsL⟩, r', readsR⟩
    exact earlier before _ _ _ rfl
      ⟨ls, op, rs, l', r', rfl, readsL, readsR, ends_of_rank_lt before ends, rfl⟩
  · intro captured
    rcases captured.exists_readsComparison op (after.tokens.map Located.token) with
      ⟨ts, rest, e, same, comparison⟩
    exact earlier (captured.rank_string_lt reads') _ _ _ same comparison

/-- Before what may follow a term, a comparison is read exactly if it is selected. -/
theorem relation_eq_ok_iff_selected {c after : Cursor} {e : Expr .boolean}
    (follow : EndsTerm (after.tokens.map Located.token)) :
    relation c = .ok e after ↔
      ∃ taken : List Located, c = ⟨taken ++ after.tokens, after.stop⟩ ∧
        ∃ o ls op rs l r, taken.map Located.token = ls ++ .relation op :: rs ∧
          ReadsOperand o ls l ∧ ReadsOperand o rs r ∧ Selected o ls rs ∧ e = .compare op l r := by
  constructor
  · exact takes_relation c e after
  · intro reading
    rcases reading with ⟨taken, rfl, o, ls, op, rs, l, r, row, reads, reads', selected, rfl⟩
    refine relation_eq_ok_iff.mpr ⟨o, ?_, ?_⟩
    · exact comparison_eq_ok_iff.mpr
        ⟨taken, rfl, ls, op, rs, l, r, row, reads, reads', follow.ends _ _, rfl⟩
    · intro o' before
      apply fails_comparison_iff.mpr
      intro ts rest e same
      rw [List.map_append, row] at same
      exact selected.not_readsComparison reads reads' follow before same

end Rule

end Formula
