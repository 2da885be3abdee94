import Formula.Proofs.Rule.Condition

/-! Where the documented grammar is not accepted: a comparison of texts captures a name that goes on
with an operator. -/

namespace Formula

variable {ls rs ts rest : List Token}

def Unrestricted (_ : Ordered) (_ _ : List Token) : Prop := True

def OpensTerm (before : List Token) : Prop :=
  ∀ t, before.getLast? = some t → t = .openParen ∨ ∃ op, t = .connective op

/-- Some comparison of the row, of which the left side starts a term, is captured. -/
def HasCapture (ts : List Token) : Prop :=
  ∃ before ls op rs, ts = before ++ ls ++ .relation op :: rs ∧ OpensTerm before ∧ Captured ls rs

theorem opensTerm_nil : OpensTerm [] := by
  intro t last
  cases last

theorem opensTerm_openParen (before : List Token) : OpensTerm (before ++ [.openParen]) := by
  intro t last
  rw [List.getLast?_concat, Option.some_inj] at last
  exact .inl last.symm

theorem opensTerm_connective (before : List Token) (op : Connective) :
    OpensTerm (before ++ [.connective op]) := by
  intro t last
  rw [List.getLast?_concat, Option.some_inj] at last
  exact .inr ⟨op, last.symm⟩

theorem OpensTerm.of_append (before : List Token) {after : List Token}
    (opens : OpensTerm (before ++ after)) : OpensTerm after := by
  intro t last
  apply opens t
  rw [List.getLast?_append, last]
  rfl

theorem Captured.append (captured : Captured ls rs) (rest : List Token) :
    Captured ls (rs ++ rest) := by
  rcases captured with ⟨name, front, name', op, more, rfl, reads⟩
  exact ⟨name, front, name', op, more ++ rest, by simp, reads⟩

theorem EndsTerm.not_mem (follow : EndsTerm rest) {name : String} {t : Token}
    (reads : ReadsName ts name) (next : rest.head? = some t) : t ∉ ts := by
  intro present
  have plain := reads.serves .string t present
  rcases follow t next with rfl | ⟨op, rfl⟩ <;> cases plain

theorem Captured.of_append (captured : Captured ls (rs ++ rest)) (follow : EndsTerm rest) :
    Captured ls rs := by
  rcases captured with ⟨name, front, name', op, more, same, reads⟩
  rcases List.append_eq_append_iff.mp same with ⟨back, longer, tail⟩ | ⟨back, longer, tail⟩
  · cases back with
    | nil =>
      rw [List.nil_append] at tail
      exact (not_endsTerm_arithmetic (tail ▸ follow)).elim
    | cons t back =>
      have next : rest.head? = some t := by rw [tail]; rfl
      exact (follow.not_mem reads next (by rw [longer]; simp)).elim
  · cases back with
    | nil =>
      rw [List.nil_append] at tail
      exact (not_endsTerm_arithmetic (tail ▸ follow)).elim
    | cons t back =>
      rcases List.cons.inj tail with ⟨rfl, -⟩
      exact ⟨name, front, name', op, back, longer, reads⟩

section Accepted

theorem exists_first_of_fits {o : Ordered} (fits : Fits o ls rs) :
    ∃ o', Fits o' ls rs ∧ ∀ o'' : Ordered, o''.rank < o'.rank → ¬ Fits o'' ls rs := by
  by_cases first : ∀ o' : Ordered, o'.rank < o.rank → ¬ Fits o' ls rs
  · exact ⟨o, fits, first⟩
  · push Not at first
    rcases first with ⟨o', before, fits'⟩
    exact exists_first_of_fits fits'
termination_by o.rank

theorem ReadsCondition.uncaptured {allowed : Ordered → List Token → List Token → Prop}
    {clause : Clause} {e : Expr .boolean} (reads : ReadsCondition allowed clause ts e)
    {before rest : List Token} (opens : OpensTerm before)
    (free : ¬ HasCapture (before ++ ts ++ rest)) :
    ReadsCondition (fun o ls rs => allowed o ls rs ∧ ¬ Captured ls rs) clause ts e := by
  induction reads generalizing before rest with
  | @comparison o op ls rs l r reads reads' may =>
    refine .comparison reads reads' ⟨may, ?_⟩
    intro captured
    exact free ⟨before, ls, op, rs ++ rest, by simp, opens, captured.append rest⟩
  | @parenthesized ts e _ ih =>
    have free' : ¬ HasCapture (before ++ [.openParen] ++ ts ++ .closeParen :: rest) := by
      simpa using free
    exact .parenthesized (ih (opensTerm_openParen before) free')
  | literal b => exact .literal b
  | name reads => exact .name reads
  | term _ ih => exact .term (ih opens free)
  | @joined op ls rs l r _ _ ih ih' =>
    have left : ¬ HasCapture (before ++ ls ++ (.connective op :: (rs ++ rest))) := by
      simpa using free
    have right : ¬ HasCapture (before ++ ls ++ [.connective op] ++ rs ++ rest) := by
      simpa using free
    exact .joined (ih opens left) (ih' (opensTerm_connective _ op) right)

/-- Without captures every comparison reads in its first kind as well. -/
theorem ReadsCondition.exists_selected {clause : Clause} {e : Expr .boolean}
    (reads : ReadsCondition Unrestricted clause ts e) {before rest : List Token}
    (opens : OpensTerm before) (free : ¬ HasCapture (before ++ ts ++ rest)) :
    ∃ e', ReadsCondition Selected clause ts e' := by
  have uncaptured := reads.uncaptured opens free
  clear reads opens free
  induction uncaptured with
  | @comparison o op ls rs l r reads reads' may =>
    obtain ⟨o', ⟨⟨l', fits⟩, r', fits'⟩, first⟩ := exists_first_of_fits ⟨⟨l, reads⟩, r, reads'⟩
    exact ⟨.compare op l' r', .comparison fits fits' ⟨first, may.2⟩⟩
  | parenthesized _ ih =>
    obtain ⟨e', reads⟩ := ih
    exact ⟨e', .parenthesized reads⟩
  | literal b => exact ⟨_, .literal b⟩
  | name reads => exact ⟨_, .name reads⟩
  | term _ ih =>
    obtain ⟨e', reads⟩ := ih
    exact ⟨e', .term reads⟩
  | @joined op _ _ _ _ _ _ ih ih' =>
    obtain ⟨l', reads⟩ := ih
    obtain ⟨r', reads'⟩ := ih'
    exact ⟨.logic op l' r', .joined reads reads'⟩

end Accepted

section Refused

theorem ReadsOperand.not_opensTerm {o : Ordered} {e : Expr (.ordered o)} {name : String}
    {before : List Token} {t : Token} (reads : ReadsOperand o (before ++ [t] ++ ls) e)
    (readsName : ReadsName ls name) : ¬ OpensTerm (before ++ [t]) := by
  intro opens
  have serves := reads.serves t (by simp)
  rcases opens t (by simp) with rfl | ⟨op, rfl⟩
  · have closed := reads.balanced 0
    rw [List.foldlM_append, List.foldlM_append] at closed
    rcases Option.bind_eq_some_iff.mp closed with ⟨opened, closed, left⟩
    rcases Option.bind_eq_some_iff.mp closed with ⟨opened', -, opening⟩
    cases opening
    rw [readsName.balanced] at left
    cases left
  · cases serves

theorem ReadsOperand.not_before_relation {o : Ordered} {e : Expr (.ordered o)} {name : String}
    {before back : List Token} {t : Token} {op : Relation}
    (reads : ReadsOperand o (before ++ t :: back) e) (follow : EndsTerm rest)
    (readsName : ReadsName ls name) (row : t :: back ++ rest = ls ++ .relation op :: rs) :
    False := by
  rcases List.append_eq_append_iff.mp row with ⟨more, longer, tail⟩ | ⟨more, longer, tail⟩
  · cases more with
    | nil =>
      rw [List.nil_append] at tail
      exact not_endsTerm_relation (tail ▸ follow)
    | cons t' more =>
      have next : rest.head? = some t' := by rw [tail]; rfl
      exact follow.not_mem readsName next (by rw [longer]; simp)
  · cases more with
    | nil =>
      rw [List.nil_append] at tail
      exact not_endsTerm_relation (tail ▸ follow)
    | cons t' more =>
      rcases List.cons.inj tail with ⟨rfl, -⟩
      exact reads.relation_not_mem op (by rw [longer]; simp)

theorem Selected.not_captured {o : Ordered} {ls' rs' : List Token} {l r : Expr (.ordered o)}
    (selected : Selected o ls' rs') (reads : ReadsOperand o ls' l) (reads' : ReadsOperand o rs' r)
    (follow : EndsTerm rest) {before back : List Token} {text : String} {op op' : Relation}
    (split : ls' ++ .relation op' :: rs' = before ++ .identifier text :: back)
    (opens : OpensTerm before)
    (row : .identifier text :: back ++ rest = ls ++ .relation op :: rs) : ¬ Captured ls rs := by
  intro captured
  rcases captured.1 with ⟨name, readsName⟩
  rcases List.append_eq_append_iff.mp split with ⟨more, longer, tail⟩ | ⟨more, longer, tail⟩
  · cases more with
    | nil => simp at tail
    | cons t more =>
      -- The name stands inside the right operand.
      rcases List.cons.inj tail with ⟨rfl, rfl⟩
      exact reads'.not_before_relation follow readsName row
  · -- The name is what is left of the left operand.
    have same : ls ++ .relation op :: rs = more ++ .relation op' :: (rs' ++ rest) := by
      rw [← row, tail]
      simp
    have plain (op : Relation) : .relation op ∉ more := by
      intro present
      exact reads.relation_not_mem op (by rw [longer]; simp [present])
    have plain' (op : Relation) : .relation op ∉ ls := by
      intro present
      simpa [Token.serves] using readsName.serves .string _ present
    rcases append_relation_inj plain' plain same with ⟨rfl, -, rfl⟩
    rcases List.eq_nil_or_concat before with rfl | ⟨front, t, rfl⟩
    · rw [List.nil_append] at longer
      subst longer
      exact selected.whole (captured.of_append follow)
    · rw [List.concat_eq_append] at longer opens
      subst longer
      exact reads.not_opensTerm readsName opens

/-- In a row with every comparison selected no comparison is captured, wherever a term may start. -/
theorem ReadsCondition.not_captured {clause : Clause} {e : Expr .boolean}
    (reads : ReadsCondition Selected clause ts e) (follow : EndsTerm rest)
    {before back : List Token} {text : String} {op : Relation}
    (split : ts = before ++ .identifier text :: back) (opens : OpensTerm before)
    (row : .identifier text :: back ++ rest = ls ++ .relation op :: rs) : ¬ Captured ls rs := by
  -- The name stands in one part of the row, and what follows that part ends a term as well.
  induction reads generalizing before back rest with
  | comparison reads reads' selected =>
    exact selected.not_captured reads reads' follow split opens row
  | @parenthesized ts e _ ih =>
    cases before with
    | nil => simp at split
    | cons t before =>
      simp only [List.cons_append, List.cons.injEq] at split
      rcases split with ⟨rfl, split⟩
      have opens' : OpensTerm before := OpensTerm.of_append [.openParen] opens
      rcases List.append_eq_append_iff.mp split with ⟨more, longer, tail⟩ | ⟨more, longer, tail⟩
      · cases more <;> simp at tail
      · cases more with
        | nil => simp at tail
        | cons t more =>
          simp only [List.cons_append, List.cons.injEq] at tail
          rcases tail with ⟨rfl, rfl⟩
          exact ih (endsTerm_closeParen rest) longer opens' (by simpa using row)
  | literal b =>
    cases before with
    | nil => simp at split
    | cons t before => simp at split
  | name reads =>
    intro captured
    rcases captured.1 with ⟨name, readsName⟩
    subst split
    exact (ReadsOperand.stringName reads).not_before_relation follow readsName row
  | term _ ih => exact ih follow split opens row
  | @joined op' ls' rs' l r _ _ ih ih' =>
    rcases List.append_eq_append_iff.mp split with ⟨more, longer, tail⟩ | ⟨more, longer, tail⟩
    · cases more with
      | nil => simp at tail
      | cons t more =>
        simp only [List.cons_append, List.cons.injEq] at tail
        rcases tail with ⟨rfl, tail⟩
        have opens' : OpensTerm more := by
          rw [longer, List.append_cons] at opens
          exact OpensTerm.of_append _ opens
        exact ih' follow tail opens' row
    · cases more with
      | nil => simp at tail
      | cons t more =>
        simp only [List.cons_append, List.cons.injEq] at tail
        rcases tail with ⟨rfl, rfl⟩
        exact ih (endsTerm_connective op' (rs' ++ rest)) longer opens (by simpa using row)

end Refused

theorem ReadsCondition.not_hasCapture {e : Expr .boolean}
    (reads : ReadsCondition Selected .chain ts e) : ¬ HasCapture ts := by
  intro capture
  rcases capture with ⟨before, ls, op, rs, rfl, opens, captured⟩
  rcases captured.1 with ⟨name, readsName⟩
  rcases readsName.exists_cons with ⟨text, more, rfl⟩
  have split : before ++ .identifier text :: more ++ .relation op :: rs =
      before ++ .identifier text :: (more ++ .relation op :: rs) := by simp
  have row : .identifier text :: (more ++ .relation op :: rs) ++ [] =
      .identifier text :: more ++ .relation op :: rs := by simp
  exact reads.not_captured endsTerm_nil split opens row captured

namespace Source

/-- A row that the documented grammar reads is accepted exactly if it has no capture. -/
theorem exists_parseTokens_condition_iff_not_hasCapture {limit stop : Nat}
    {tokens : List Located} {e : Expr .boolean}
    (reads : ReadsCondition Unrestricted .chain (tokens.map Located.token) e)
    (shallow : checkNesting limit 0 tokens = .ok ()) :
    (∃ e', parseTokens Rule.condition limit ⟨tokens, stop⟩ = .ok e') ↔
      ¬ HasCapture (tokens.map Located.token) := by
  constructor
  · intro success
    rcases success with ⟨e', found⟩
    exact (parseTokens_condition_eq_ok_iff.mp found).2.not_hasCapture
  · intro free
    have free' : ¬ HasCapture ([] ++ tokens.map Located.token ++ []) := by simpa using free
    rcases reads.exists_selected opensTerm_nil free' with ⟨e', reads'⟩
    exact ⟨e', parseTokens_condition_eq_ok_iff.mpr ⟨shallow, reads'⟩⟩

def oneInt : (Numeric.whole .int).Carrier := ⟨1, by decide⟩

theorem reads_name (text : String) :
    ReadsOperand (.number (.whole .int)) [.identifier text] (.var text) :=
  .number (.product (.factor (.name (.identifier text))))

theorem reads_successor (text : String) :
    ReadsOperand (.number (.whole .int)) [.identifier text, .arithmetic .add, .int 1]
      (.arith .add (.var text) (.const oneInt)) := by
  have left : ReadsNumber (.whole .int) .sum [.identifier text] (.var text) :=
    .product (.factor (.name (.identifier text)))
  have right : ReadsNumber (.whole .int) .product [.int 1] (.const oneInt) :=
    .factor (.literal ⟨1, rfl, rfl⟩)
  exact .number (.shifted rfl left right)

/-- The tokens of `b + 1 == a || (c)`. -/
def sumFirst : List Located :=
  [⟨.identifier "b", 0⟩, ⟨.arithmetic .add, 2⟩, ⟨.int 1, 4⟩, ⟨.relation .eq, 6⟩,
    ⟨.identifier "a", 9⟩, ⟨.connective .or, 11⟩, ⟨.openParen, 14⟩, ⟨.identifier "c", 15⟩,
    ⟨.closeParen, 16⟩]

theorem reads_sumFirst :
    ReadsCondition Unrestricted .chain (sumFirst.map Located.token)
      (.logic .or
        (.compare (o := .number (.whole .int)) .eq (.arith .add (.var "b") (.const oneInt))
          (.var "a"))
        (.var "c")) := by
  have comparison : ReadsCondition Unrestricted .term
      ([.identifier "b", .arithmetic .add, .int 1] ++ .relation .eq :: [.identifier "a"])
      (.compare (o := .number (.whole .int)) .eq (.arith .add (.var "b") (.const oneInt))
        (.var "a")) :=
    .comparison (reads_successor "b") (reads_name "a") trivial
  have inner : ReadsCondition Unrestricted .chain [.identifier "c"] (.var "c") :=
    .term (.name (.identifier "c"))
  exact .joined (.term comparison) (.parenthesized inner)

theorem exists_parseTokens_sumFirst_iff :
    ReadsCondition Unrestricted .chain (sumFirst.map Located.token)
      (.logic .or
        (.compare (o := .number (.whole .int)) .eq (.arith .add (.var "b") (.const oneInt))
          (.var "a"))
        (.var "c")) ∧
      checkNesting 1 0 sumFirst = .ok () ∧
      ((∃ e', parseTokens Rule.condition 1 ⟨sumFirst, 17⟩ = .ok e') ↔
        ¬ HasCapture (sumFirst.map Located.token)) :=
  ⟨reads_sumFirst, rfl,
    exists_parseTokens_condition_iff_not_hasCapture reads_sumFirst rfl⟩

/-- The tokens of `a == b + 1`. -/
def sumLast : List Located :=
  [⟨.identifier "a", 0⟩, ⟨.relation .eq, 2⟩, ⟨.identifier "b", 5⟩, ⟨.arithmetic .add, 7⟩,
    ⟨.int 1, 9⟩]

/-- The texts `a` and `b` are compared, and the sum is left over. -/
theorem parse_sumLast_refused :
    Source.tokens "a == b + 1" = .ok sumLast ∧
      ReadsCondition Unrestricted .chain (sumLast.map Located.token)
        (.compare (o := .number (.whole .int)) .eq (.var "a")
          (.arith .add (.var "b") (.const oneInt))) ∧
      checkNesting defaultLimit 0 sumLast = .ok () ∧
      parseTokens Rule.condition defaultLimit ⟨sumLast, 10⟩ =
        .error (.unexpectedTrailingTokens "+" 7) :=
  ⟨rfl, .term (.comparison (reads_name "a") (reads_successor "b") trivial), rfl, rfl⟩

end Source

end Formula
