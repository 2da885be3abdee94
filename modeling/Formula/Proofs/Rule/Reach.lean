import Formula.Proofs.Rule.Trace

/-! How far the comparison at the start of a row reaches before it fails: no further than the error
that is reported, unless a name that is a condition by itself stands before an operator. -/

namespace Formula

open Rule

inductive Enclosed : List Token → String → Prop
  | name {ts : List Token} {text : String} : ReadsName ts text → Enclosed ts text
  | parenthesized {ts : List Token} {text : String} :
      Enclosed ts text → Enclosed (.openParen :: ts ++ [.closeParen]) text

namespace Enclosed

variable {ts : List Token} {text : String}

theorem readsNumber (enclosed : Enclosed ts text) (n : Numeric) :
    ReadsNumber n .sum ts (.var text) := by
  induction enclosed with
  | name reads => exact .product (.factor (.name reads))
  | parenthesized _ ih => exact .product (.factor (.parenthesized ih))

theorem readsCondition (enclosed : Enclosed ts text) :
    ReadsCondition Selected .chain ts (.var text) := by
  induction enclosed with
  | name reads => exact .term (.name reads)
  | parenthesized _ ih => exact .term (.parenthesized ih)

theorem readsName_or_exists (enclosed : Enclosed ts text) :
    ReadsName ts text ∨ ∃ us, ts = .openParen :: us := by
  cases enclosed with
  | name reads => exact .inl reads
  | parenthesized _ => exact .inr ⟨_, rfl⟩

end Enclosed

theorem ReadsCondition.enclosed_or_exists {allowed : Ordered → List Token → List Token → Prop}
    {clause : Clause} {ts : List Token} {e : Expr .boolean}
    (reads : ReadsCondition allowed clause ts e) :
    (∃ text, Enclosed ts text) ∨ ∃ t ∈ ts, ∀ n, t.serves (.number n) = false := by
  induction reads with
  | @comparison o op ls rs _ _ _ _ _ => exact .inr ⟨.relation op, by simp, fun _ => rfl⟩
  | parenthesized _ ih =>
    rcases ih with ⟨text, enclosed⟩ | ⟨t, present, alien⟩
    · exact .inl ⟨text, enclosed.parenthesized⟩
    · exact .inr ⟨t, by simp [present], alien⟩
  | literal b => exact .inr ⟨.boolean b, by simp, fun _ => rfl⟩
  | name reads => exact .inl ⟨_, .name reads⟩
  | term _ ih => exact ih
  | @joined op _ _ _ _ _ _ _ _ => exact .inr ⟨.connective op, by simp, fun _ => rfl⟩

namespace Spot

variable {n : Numeric} {s r q : Spot} {t : Located} {row rest : List Located} {stop : Nat}

theorem serves_of_literal (found : s.literal n t = some r) : t.token.serves (.number n) := by
  unfold literal at found
  split at found
  · rename_i value reading
    rcases s with ⟨place, opened⟩
    cases place with
    | operand | sign start => exact (Numeric.literal?_eq_ok_iff.mp reading).serves_iff.mpr rfl
    | segment | name | value => cases reading
  · cases found

theorem serves_of_resume {opened : Nat} {token : Token} (found : resume opened token = some r) :
    token.serves (.number n) := by
  unfold resume at found
  split at found
  · rfl
  · rfl
  · cases found

theorem serves_of_after (next : s.after n t = some r) : t.token.serves (.number n) := by
  unfold after at next
  split at next
  · split at next
    · simp [*, Token.serves]
    · simp [*, Token.serves]
    · simp [*, Token.serves]
    · exact serves_of_literal next
  · exact serves_of_literal next
  · split at next
    · simp [*, Token.serves]
    · cases next
  · split at next
    · simp [*, Token.serves]
    · exact serves_of_resume next
  · exact serves_of_resume next

theorem serves_of_walk (walked : walk n s row = some r) :
    ∀ t ∈ row, t.token.serves (.number n) := by
  induction row generalizing s with
  | nil => simp
  | cons t row ih =>
    rw [walk_cons] at walked
    rcases Option.bind_eq_some_iff.mp walked with ⟨q, next, walked⟩
    exact List.forall_mem_cons.mpr ⟨serves_of_after next, ih walked⟩

end Spot

namespace Rule

variable {n : Numeric} {o : Ordered} {q : Spot} {t : Located} {row front back rest : List Located}
  {stop : Nat} {c after : Cursor} {e : ParseError}

section Walked

theorem isMismatch_of_walk (walked : Spot.walk n Spot.start row = some q)
    (fresh : ∀ start, q.place ≠ .sign start) (failed : FailsWith (sum n) ⟨row ++ rest, stop⟩ e) :
    e.IsMismatch ⟨rest, stop⟩ := by
  rcases exists_walk_of_sum failed with ⟨front, back, r, split, walked', stops⟩
  rcases List.append_eq_append_iff.mp split with ⟨more, rfl, rfl⟩ | ⟨more, rfl, rfl⟩
  · rw [Spot.walk_append_of_eq_some walked] at walked'
    exact isMismatch_of_stops fresh walked' stops
  · cases more with
    | nil =>
      rw [List.append_nil, walked'] at walked
      cases walked
      have stays : Spot.walk n q [] = some q := rfl
      exact isMismatch_of_stops fresh stays stops
    | cons t more =>
      -- The token at which it stops would be one that is walked over.
      cases stops with
      | token _ refused =>
        rw [Spot.walk_eq_none walked' refused] at walked
        cases walked

theorem exists_of_sum_of_walk {value : Expr (.number n)}
    (walked : Spot.walk n Spot.start row = some q)
    (found : sum n ⟨row ++ rest, stop⟩ = .ok value after) :
    ∃ taken, rest = taken ++ after.tokens ∧ after.stop = stop := by
  rcases takes_sum _ _ _ found with ⟨taken, start, reads, ends⟩
  rcases Cursor.mk.inj start with ⟨split, rfl⟩
  rcases List.append_eq_append_iff.mp split with ⟨more, rfl, shape⟩ | ⟨more, rfl, shape⟩
  · exact ⟨more, shape, rfl⟩
  · cases more with
    | nil => exact ⟨[], shape.symm, rfl⟩
    | cons t more =>
      rw [shape] at ends
      rcases reads.passes taken 0 rfl with ⟨place, ended, last, passed⟩
      have walked' : Spot.walk n Spot.start taken = some ⟨place, 0⟩ := passed
      have refused : Spot.after n ⟨place, 0⟩ t = none :=
        Spot.after_eq_none ended last ends fun _ => rfl
      rw [Spot.walk_eq_none walked' refused] at walked
      cases walked

theorem exists_offset_of_sum (present : t ∈ front) (alien : t.token.serves (.number n) = false)
    (failed : FailsWith (sum n) ⟨front ++ back, stop⟩ e) : ∃ u ∈ front, u.offset = e.offset := by
  rcases exists_walk_of_sum failed with ⟨front', back', r, split, walked, stops⟩
  have absent : t ∉ front' := by
    intro within
    rw [Spot.serves_of_walk walked t within] at alien
    cases alien
  rcases List.append_eq_append_iff.mp split with ⟨more, rfl, -⟩ | ⟨more, rfl, rfl⟩
  · exact absurd (List.mem_append_left more present) absent
  · cases more with
    | nil =>
      rw [List.append_nil] at present
      exact absurd present absent
    | cons u more =>
      cases stops with
      | token _ refused =>
        have at' := isAt_of_after_eq_none (by simp [Spot.start]) walked refused
        have within : front' ++ [u] <:+: front' ++ u :: more := ⟨[], more, by simp⟩
        exact (at'.mono within).exists_offset

end Walked

section Compared

theorem comparison_failsWith_cases (failed : FailsWith (comparison o) c e) :
    FailsWith (operand o) c e ∨
      ∃ value after, operand o c = .ok value after ∧
        (FailsWith (take "a relational operator" Token.relation?) after e ∨
          ∃ op t rest, after = ⟨t :: rest, after.stop⟩ ∧ t.token = .relation op ∧
            FailsWith (operand o) ⟨rest, after.stop⟩ e) := by
  rcases failed with ⟨left, failed⟩
  rw [comparison_eq] at failed
  rcases bind_eq_error_iff.mp failed with first | ⟨value, after, found, behind⟩
  · exact .inl ⟨left, first⟩
  · refine .inr ⟨value, after, found, ?_⟩
    rcases bind_eq_error_iff.mp behind with missing | ⟨op, between, related, behind'⟩
    · exact .inl ⟨left, missing⟩
    · rcases take_eq_ok_iff.mp related with ⟨t, rfl, reading⟩
      rcases bind_eq_error_iff.mp behind' with second | ⟨_, _, _, made⟩
      · refine .inr ⟨op, t, between.tokens, rfl, ?_, left, second⟩
        cases shape : t.token <;> rw [shape] at reading <;> cases reading
        rfl
      · cases made

theorem fails_operand (alien : t.token.serves o = false) : Fails (operand o) ⟨t :: rest, stop⟩ := by
  intro value after found
  rcases operand_eq_ok_iff.mp found with ⟨taken, split, reads, -⟩
  cases taken with
  | nil => exact reads.ne_nil rfl
  | cons u taken =>
    rcases List.cons.inj (Cursor.mk.inj split).1 with ⟨rfl, -⟩
    rw [reads.serves t.token (by simp)] at alien
    cases alien

theorem offset_eq_of_operand (alien : t.token.serves o = false)
    (failed : FailsWith (operand o) ⟨t :: rest, stop⟩ e) : e.offset = t.offset := by
  match o with
  | .string =>
    rcases failed with ⟨left, failed⟩
    have refused : stringOperand ⟨t :: rest, stop⟩ = .error e left := failed
    rw [stringOperand_cons] at refused
    split at refused <;> rename_i shape
    · cases refused
    · rw [shape] at alien
      cases alien
    · cases refused
      rfl
  | .instant =>
    rcases failed with ⟨left, failed⟩
    have refused : instantOperand ⟨t :: rest, stop⟩ = .error e left := failed
    rw [instantOperand_cons] at refused
    split at refused <;> rename_i shape
    · cases refused
    · rw [shape] at alien
      cases alien
    · cases refused
      rfl
  | .number n =>
    have here : ∃ u ∈ [t], u.offset = e.offset :=
      exists_offset_of_sum (List.mem_singleton_self t) alien failed
    rcases here with ⟨u, present, place⟩
    rw [List.mem_singleton.mp present] at place
    exact place.symm

theorem offset_eq_of_comparison (alien : t.token.serves o = false)
    (failed : FailsWith (comparison o) ⟨t :: rest, stop⟩ e) : e.offset = t.offset := by
  rcases comparison_failsWith_cases failed with first | ⟨value, after, found, -⟩
  · exact offset_eq_of_operand alien first
  · exact absurd found (fails_operand alien _ _)

theorem offset_eq_of_comparison_of_ok {value : Expr (.ordered o)}
    (found : operand o c = .ok value ⟨t :: rest, stop⟩) (plain : ∀ op, t.token ≠ .relation op)
    (failed : FailsWith (comparison o) c e) : e.offset = t.offset := by
  rcases comparison_failsWith_cases failed with first | ⟨value', after, found', behind⟩
  · exact absurd found (first.fails _ _)
  · rw [found] at found'
    cases found'
    rcases behind with missing | ⟨op, u, rest', shape, related, -⟩
    · exact offset_eq_of_take missing
    · cases shape
      exact absurd related (plain op)

theorem offset_of_enclosed {text : String} (enclosed : Enclosed (front.map Located.token) text)
    (ends : Level.sum.Ends (front.map Located.token) ((t :: rest).map Located.token))
    (plain : ∀ op, t.token ≠ .relation op)
    (failed : FailsWith (comparison o) ⟨front ++ t :: rest, stop⟩ e) :
    e.offset = t.offset ∨ ∃ u ∈ front, u.offset = e.offset := by
  have here {e' : Expr (.ordered o)} (reads : ReadsOperand o (front.map Located.token) e')
      (ends' : o.level.Ends (front.map Located.token) ((t :: rest).map Located.token)) :
      e.offset = t.offset := by
    have found : operand o ⟨front ++ t :: rest, stop⟩ = .ok e' ⟨t :: rest, stop⟩ :=
      operand_eq_ok_iff.mpr ⟨front, rfl, reads, ends'⟩
    exact offset_eq_of_comparison_of_ok found plain failed
  -- Texts and instants are in no parentheses.
  have opened {us : List Token} (row : front.map Located.token = .openParen :: us)
      (alien : Token.openParen.serves o = false) : ∃ u ∈ front, u.offset = e.offset := by
    rcases List.map_eq_cons_iff.mp row with ⟨first, inside, rfl, isOpen, -⟩
    exact ⟨first, List.mem_cons_self .., (offset_eq_of_comparison (isOpen ▸ alien) failed).symm⟩
  match o with
  | .number n => exact .inl (here (.number (enclosed.readsNumber n)) ends)
  | .string =>
    rcases enclosed.readsName_or_exists with reads | ⟨us, row⟩
    · exact .inl (here (.stringName reads) ends.factor)
    · exact .inr (opened row rfl)
  | .instant =>
    rcases enclosed.readsName_or_exists with reads | ⟨us, row⟩
    · exact .inl (here (.instantName reads) ends.factor)
    · exact .inr (opened row rfl)

theorem fails_operand_of_parenthesized {first last : Located} {inside : List Located} {t : Token}
    (opened : first.token = .openParen) (closed : last.token = .closeParen)
    (balanced : Balanced (inside.map Located.token)) (present : t ∈ inside.map Located.token)
    (alien : t.serves (.number n) = false) :
    Fails (operand (.number n)) ⟨first :: inside ++ [last] ++ rest, stop⟩ := by
  intro value after found
  rcases operand_eq_ok_iff.mp found with ⟨taken, split, reads, -⟩
  cases taken with
  | nil => exact reads.ne_nil rfl
  | cons u taken =>
    have row := congrArg (fun c : Cursor => c.tokens.map Located.token) split
    simp only [List.cons_append, List.append_assoc, List.map_cons, List.map_append,
      List.cons.injEq, List.nil_append, closed] at row
    have isOpen : u.token = .openParen := row.1.symm.trans opened
    rcases reads.exists_parenthesized (by rw [List.map_cons, isOpen]) with
      ⟨us, more, shape, balanced', -⟩
    -- The parenthesis that the operand closes is the one that closes in the row.
    rw [shape, List.append_assoc, List.cons_append] at row
    rcases append_closeParen_inj balanced balanced' row.2 with ⟨rfl, -⟩
    have within : t ∈ (u :: taken).map Located.token := by
      rw [List.map_cons, shape]
      exact List.mem_cons_of_mem _ (List.mem_append_left _ present)
    rw [reads.serves t within] at alien
    cases alien

theorem exists_offset_of_parenthesized {first last : Located} {inside : List Located}
    (opened : first.token = .openParen) (closed : last.token = .closeParen)
    (balanced : Balanced (inside.map Located.token))
    (alien : ∃ t ∈ inside.map Located.token, ∀ n, t.serves (.number n) = false)
    (failed : FailsWith (comparison o) ⟨first :: inside ++ [last] ++ rest, stop⟩ e) :
    ∃ u ∈ first :: inside ++ [last], u.offset = e.offset := by
  have plain (alien : Token.openParen.serves o = false) :
      ∃ u ∈ first :: inside ++ [last], u.offset = e.offset :=
    ⟨first, by simp, (offset_eq_of_comparison (opened ▸ alien) failed).symm⟩
  match o with
  | .string | .instant => exact plain rfl
  | .number n =>
    rcases alien with ⟨_, present, alien⟩
    rcases comparison_failsWith_cases failed with within | ⟨value, after, found, -⟩
    · rcases List.mem_map.mp present with ⟨t, among, rfl⟩
      have inside' : t ∈ first :: inside ++ [last] := by simp [among]
      exact exists_offset_of_sum inside' (alien n) within
    · exact absurd found
        (fails_operand_of_parenthesized opened closed balanced present (alien n) value after)

end Compared

section Relation

/-- The relation fails where one of its comparisons does, or where it starts, and none of them fails
behind it. -/
theorem relation_offset (failed : FailsWith relation c e) :
    (e.offset = c.offset ∨ ∃ o e', FailsWith (comparison o) c e' ∧ e'.offset = e.offset) ∧
      ∀ o, ∃ e', FailsWith (comparison o) c e' ∧ e'.offset ≤ e.offset := by
  rcases exists_of_relation_failsWith failed with ⟨comparisons, furthest, fails, rfl, greatest⟩
  rw [offsets_comparisonFailures] at greatest
  rcases greatest with ⟨attained, bound⟩
  constructor
  · rcases attained with start | ⟨o, place⟩
    · exact .inl start
    · exact .inr ⟨o, comparisons o, fails o, place⟩
  · exact fun o => ⟨comparisons o, fails o, bound (Set.mem_insert_of_mem _ ⟨o, rfl⟩)⟩

theorem term_cases {value : Expr .boolean} (fails : Fails relation c)
    (found : term c = .ok value after) :
    (∃ first last inside, c = ⟨first :: inside ++ [last] ++ after.tokens, after.stop⟩ ∧
        first.token = .openParen ∧ last.token = .closeParen ∧
        ReadsCondition Selected .chain (inside.map Located.token) value) ∨
      (∃ u b, c = ⟨u :: after.tokens, after.stop⟩ ∧ u.token = .boolean b) ∨
      ∃ taken text, c = ⟨taken ++ after.tokens, after.stop⟩ ∧
        ReadsName (taken.map Located.token) text ∧
        (after.tokens.map Located.token).head? ≠ some .dot := by
  rcases term_eq_ok_iff.mp found with compared | ⟨-, enclosed | ⟨-, literal | ⟨-, named⟩⟩⟩
  · exact absurd compared (fails _ _)
  · rcases parenthesized_eq_ok_iff.mp enclosed with
      ⟨first, last, between, start, opened, inner, closed⟩
    rcases takes_condition _ _ _ inner with ⟨inside, split, reads⟩
    rcases Cursor.mk.inj split with ⟨rfl, same⟩
    exact .inl ⟨first, last, inside, by rw [start, same]; simp, opened, closed, reads⟩
  · rcases take_eq_ok_iff.mp literal with ⟨u, start, reading⟩
    refine .inr (.inl ⟨u, ?_⟩)
    split at reading
    · exact ⟨_, start, by assumption⟩
    · cases reading
  · rcases takes_name _ _ _ named with ⟨taken, start, text, reads, ends, -⟩
    exact .inr (.inr ⟨taken, text, start, reads, ends⟩)

end Relation

end Rule

/-- The row begins with a name that stands alone, be it in parentheses, and the token is the operator
or the relation behind it. -/
def OpensBare (row : List Located) (t : Located) : Prop :=
  ∃ front rest text, row = front ++ t :: rest ∧ Enclosed (front.map Located.token) text ∧
    ((∃ op, t.token = .arithmetic op) ∨ ∃ op, t.token = .relation op)

namespace Rule

variable {o : Ordered} {t : Located} {front rest : List Located} {stop : Nat} {c after : Cursor}
  {e r : ParseError} {value : Expr .boolean}

section Alone

theorem offset_of_alone {text : String} (bare : ¬ OpensBare (front ++ t :: rest) t)
    (enclosed : Enclosed (front.map Located.token) text)
    (name : t.token = .dot → ∀ text, (front.map Located.token).getLast? ≠ some (.identifier text))
    (failed : FailsWith (comparison o) ⟨front ++ t :: rest, stop⟩ e) :
    e.offset = t.offset ∨ ∃ u ∈ front, u.offset = e.offset := by
  have ends : Level.sum.Ends (front.map Located.token) ((t :: rest).map Located.token) := by
    constructor
    · exact fun dot => name (Option.some.inj dot)
    · intro op operator
      exact absurd ⟨front, rest, text, rfl, enclosed, .inl ⟨op, Option.some.inj operator⟩⟩ bare
  refine offset_of_enclosed enclosed ends (fun op related => ?_) failed
  exact bare ⟨front, rest, text, rfl, enclosed, .inr ⟨op, related⟩⟩

/-- Where a term is found that is no comparison, comparisons fail in it or at the token behind it,
unless it is a name and an operator follows. -/
theorem exists_front_of_term (reached : FailsWith relation c r)
    (found : term c = .ok value ⟨t :: rest, stop⟩) (bare : ¬ OpensBare c.tokens t) :
    ∃ front, front ≠ [] ∧ c = ⟨front ++ t :: rest, stop⟩ ∧
      ∀ o e, FailsWith (comparison o) c e → e.offset = t.offset ∨ ∃ u ∈ front, u.offset = e.offset := by
  rcases term_cases reached.fails found with
    ⟨first, last, inside, rfl, opened, closed, reads⟩ | ⟨u, b, rfl, literal⟩ |
      ⟨taken, text, rfl, reads, next⟩
  · refine ⟨first :: inside ++ [last], by simp, rfl, fun o e failed => ?_⟩
    rcases reads.enclosed_or_exists with ⟨text, enclosed⟩ | alien
    · have row : (first :: inside ++ [last]).map Located.token =
          .openParen :: inside.map Located.token ++ [.closeParen] := by
        simp [opened, closed]
      refine offset_of_alone bare (row ▸ enclosed.parenthesized) (fun _ text last => ?_) failed
      rw [row, List.getLast?_append] at last
      cases last
    · exact .inr (exists_offset_of_parenthesized opened closed reads.balanced alien failed)
  · refine ⟨[u], by simp, rfl, fun o e failed => .inr ⟨u, List.mem_singleton_self u, ?_⟩⟩
    exact (offset_eq_of_comparison (by rw [literal]; rfl) failed).symm
  · refine ⟨taken, fun none => ?_, rfl, fun o e failed => ?_⟩
    · rw [none] at reads
      exact reads.ne_nil rfl
    · refine offset_of_alone bare (.name reads) (fun dot => ?_) failed
      exact absurd (congrArg some dot) next

end Alone

section Bare

theorem isMismatch_of_operand {l : Expr (.ordered o)} (found : operand o c = .ok l after)
    (failed : FailsWith (comparison o) c e) : e.IsMismatch after := by
  rcases comparison_failsWith_cases failed with first | ⟨l', after', found', behind⟩
  · exact absurd found (first.fails _ _)
  · rw [found] at found'
    cases found'
    rcases behind with ⟨left, missing⟩ | ⟨op, t, rest, shape, related, left, second⟩
    · exact mismatches_take _ _ _ missing
    · rw [shape]
      exact (mismatches_operand o _ _ _ second).behind [t]

theorem isMismatch_of_related {l : Expr (.ordered o)} {op : Relation}
    (found : operand o c = .ok l ⟨t :: rest, stop⟩) (related : t.token = .relation op)
    (failed : FailsWith (comparison o) c e) : e.IsMismatch ⟨rest, stop⟩ := by
  rcases comparison_failsWith_cases failed with first | ⟨l', after', found', behind⟩
  · exact absurd found (first.fails _ _)
  · rw [found] at found'
    cases found'
    rcases behind with ⟨left, missing⟩ | ⟨op', u, rest', shape, -, left, second⟩
    · rw [take_cons, related] at missing
      cases missing
    · cases shape
      exact mismatches_operand o _ _ _ second

theorem isMismatch_of_enclosed {n : Numeric} {text : String}
    (enclosed : Enclosed (front.map Located.token) text)
    (operator : (∃ op, t.token = .arithmetic op) ∨ ∃ op, t.token = .relation op)
    (failed : FailsWith (comparison (.number n)) ⟨front ++ t :: rest, stop⟩ e) :
    e.IsMismatch ⟨rest, stop⟩ := by
  have reads := enclosed.readsNumber n
  rcases operator with ⟨op, isOp⟩ | ⟨op, related⟩
  · rcases reads.passes front 0 rfl with ⟨place, ends, -, walked⟩
    have next : Spot.after n ⟨place, 0⟩ t = some ⟨.operand, 0⟩ := by
      rw [Spot.after_of_ends ends (by simp [isOp]), isOp]
      rfl
    have passed : Spot.walk n Spot.start (front ++ [t]) = some ⟨.operand, 0⟩ := by
      rw [Spot.start, Spot.walk_append_of_eq_some walked, Spot.walk_cons_of_eq_some next]
      rfl
    rw [List.append_cons] at failed
    rcases comparison_failsWith_cases failed with first | ⟨l, after, found, -⟩
    · exact isMismatch_of_walk passed (by simp) first
    · rcases exists_of_sum_of_walk passed found with ⟨taken, rfl, rfl⟩
      exact (isMismatch_of_operand found failed).behind taken
  · have ends : Level.sum.Ends (front.map Located.token) ((t :: rest).map Located.token) := by
      rw [List.map_cons, related]
      exact relation_ends _ _ _ _
    have found : operand (.number n) ⟨front ++ t :: rest, stop⟩ =
        .ok (.var text) ⟨t :: rest, stop⟩ :=
      operand_eq_ok_iff.mpr ⟨front, rfl, .number reads, ends⟩
    exact isMismatch_of_related found related failed

theorem term_of_enclosed {text : String} (fails : Fails relation ⟨front ++ t :: rest, stop⟩)
    (enclosed : Enclosed (front.map Located.token) text) (plain : t.token ≠ .dot) :
    term ⟨front ++ t :: rest, stop⟩ = .ok (.var text) ⟨t :: rest, stop⟩ := by
  generalize row : front.map Located.token = ts at enclosed
  cases enclosed with
  | name reads =>
    have ends : ((t :: rest).map Located.token).head? ≠ some .dot :=
      fun dot => plain (Option.some.inj dot)
    exact term_name_of_fails fails (row ▸ reads) ends
  | @parenthesized ts _ enclosed =>
    rcases exists_of_map_eq_parenthesized row with
      ⟨first, inside, last, rfl, opened, insideRow, closed⟩
    have closes : EndsTerm ((last :: (t :: rest)).map Located.token) := by
      rw [List.map_cons, closed]
      exact endsTerm_closeParen _
    have stops : Clause.chain.resume (.var text) ⟨last :: (t :: rest), stop⟩ =
        .ok (.var text) ⟨last :: (t :: rest), stop⟩ :=
      Clause.resume_stop (by simp [closed]) _ stop
    have found : condition ⟨inside ++ last :: (t :: rest), stop⟩ =
        .ok (.var text) ⟨last :: (t :: rest), stop⟩ :=
      (run_of_readsCondition enclosed.readsCondition insideRow closes stop).trans stops
    exact term_parenthesized_of_fails fails opened closed found

end Bare

section Rest

theorem condition_of_term (found : term c = .ok value after) :
    condition c = loop term joinCondition value after := by
  rw [condition_eq, chain_eq_bind, bind_run, found]

theorem condition_of_enclosed {text : String} (fails : Fails relation ⟨front ++ t :: rest, stop⟩)
    (enclosed : Enclosed (front.map Located.token) text)
    (operator : (∃ op, t.token = .arithmetic op) ∨ ∃ op, t.token = .relation op) :
    condition ⟨front ++ t :: rest, stop⟩ = .ok (.var text) ⟨t :: rest, stop⟩ := by
  have plain : t.token ≠ .dot := by
    rcases operator with ⟨op, shape⟩ | ⟨op, shape⟩ <;> simp [shape]
  rw [condition_of_term (term_of_enclosed fails enclosed plain)]
  apply loop_stop
  intro u combine next joins
  cases Option.some.inj next
  rcases joinCondition_eq_some_iff.mp joins with ⟨op, connective, -⟩
  rcases operator with ⟨op', shape⟩ | ⟨op', shape⟩ <;> simp [shape] at connective

theorem uniform_term {R : Nat → Nat → Prop} (greatest : KeepsMax R) : Uniform R term := by
  rw [term_eq]
  apply uniform_choice greatest
  simp only [List.forall_mem_cons]
  refine ⟨?_, uniform_parenthesized (uniform_condition greatest), uniform_take _ _, uniform_name,
    nofun⟩
  refine alike_bind alike_remaining fun depth depth' same => ?_
  subst same
  exact uniform_relationWithin greatest depth

theorem uniform_loop {R : Nat → Nat → Prop} {α : Type} {operand : Rule α}
    {join : Token → Option (α → α → α)} (uniform : Uniform R operand) (left : α) :
    Uniform R (loop operand join left) := by
  intro c c' moved
  rw [loop, loop, moved.1.length_eq]
  exact uniform_chainFrom uniform _ left c c' moved

theorem offset_mem_places_of_term (found : term c = .ok value after)
    (failed : Source.complete condition c = .error e) : e.offset ∈ after.places := by
  have rest : Source.complete (loop term joinCondition value) after = .error e := by
    rw [← failed, Source.complete, Source.complete, condition_of_term found]
  have uniform : Uniform (fun o o' => o = o' ∧ o ∈ after.places) (loop term joinCondition value) :=
    uniform_loop (uniform_term (keepsMax_mem _)) value
  exact offset_mem_places_of_complete uniform rest

theorem offset_le_of_term (reached : FailsWith relation c r) (failed : FailsWith term c e) :
    r.offset ≤ e.offset := by
  rw [term_eq] at failed
  rcases exists_of_choice_eq_error failed with ⟨errors, furthest, fail, rfl, -, bound⟩
  cases fail with
  | cons first _ =>
    rcases reached with ⟨left, reached⟩
    rcases first with ⟨left', first⟩
    have same := reached.symm.trans first
    cases same
    exact bound (.inr ⟨r, List.mem_cons_self .., rfl⟩)

end Rest

end Rule

end Formula
