import Formula.Proofs.Grammar.Rows
import Formula.Proofs.Rule.Chain
import Formula.Rule.Number

/-! The rules of arithmetic take rows of the grammar, and stop where the row cannot go on. -/

namespace Formula

def Level.joins : Level → Arithmetic → Bool
  | .factor, _ => false
  | .product, op => op.level == .product
  | .sum, _ => true

/-- A row of the level ends before the rest: it goes on neither with a dot after an identifier nor
with an operator of the level. -/
structure Level.Ends (level : Level) (ts rest : List Token) : Prop where
  name : rest.head? = some .dot → ∀ text, ts.getLast? ≠ some (.identifier text)
  operator : ∀ op, rest.head? = some (.arithmetic op) → level.joins op = false

theorem Level.joins_of_level {op : Arithmetic} : op.level.joins op = true := by
  cases op <;> rfl

theorem Level.Ends.factor {level : Level} {ts rest : List Token} (ends : level.Ends ts rest) :
    Level.factor.Ends ts rest :=
  ⟨ends.name, fun _ _ => rfl⟩

theorem Level.Ends.product {ts rest : List Token} (ends : Level.sum.Ends ts rest) :
    Level.product.Ends ts rest :=
  ⟨ends.name, fun op next => absurd (ends.operator op next) (by simp [Level.joins])⟩

theorem Level.Ends.of_getLast?_eq {level : Level} {ts us rest : List Token}
    (ends : level.Ends ts rest) (same : us.getLast? = ts.getLast?) : level.Ends us rest :=
  ⟨by rw [same]; exact ends.name, ends.operator⟩

theorem Level.ends_of_getLast?_ne {level : Level} {ts rest : List Token} (last : Token)
    (ending : ts.getLast? = some last) (plain : ∀ text, last ≠ .identifier text)
    (operator : ∀ op, rest.head? = some (.arithmetic op) → level.joins op = false) :
    level.Ends ts rest := by
  refine ⟨fun _ text same => ?_, operator⟩
  rw [ending] at same
  exact plain text (Option.some.inj same)

namespace Numeric

theorem digits?_eq_some_iff {width : Width} {t : Token} {k : Nat} :
    digits? width t = some k ↔ t = .whole width k := by
  cases width <;> cases t <;> simp [digits?, Token.whole]

theorem literal?_whole_eq_ok_iff {width : Width} {negative : Bool} {start : Nat} {t : Token}
    {value : Whole width} :
    (whole width).literal? negative start t = some (.ok value) ↔
      ∃ k, digits? width t = some k ∧ Whole.ofInt? width (signed negative k) = some value := by
  rw [literal?, Option.map_eq_some_iff]
  apply exists_congr
  intro k
  apply and_congr_right
  intro _
  cases Whole.ofInt? width (signed negative k) with
  | none => simp
  | some value' => simp

theorem literal?_eq_ok_iff {n : Numeric} {negative : Bool} {start : Nat} {t : Token}
    {value : n.Carrier} :
    n.literal? negative start t = some (.ok value) ↔ n.Denotes negative t value := by
  cases n with
  | double => cases t <;> simp [literal?, Denotes, eq_comm]
  | whole width =>
    rw [literal?_whole_eq_ok_iff, Denotes]
    simp only [digits?_eq_some_iff, Whole.ofInt?_eq_some_iff, signed]

end Numeric

theorem Numeric.Denotes.ne_identifier {n : Numeric} {negative : Bool} {t : Token}
    {value : n.Carrier} (denotes : n.Denotes negative t value) (text : String) :
    t ≠ .identifier text := by
  intro same
  subst same
  cases n with
  | double => simp [Denotes] at denotes
  | whole width => cases width <;> simp [Denotes, Token.whole] at denotes

namespace Rule

variable {n : Numeric}

theorem joinProduct_eq_some_iff {t : Token}
    {combine : Expr (.number n) → Expr (.number n) → Expr (.number n)} :
    joinProduct t = some combine ↔
      ∃ op : Arithmetic, t = .arithmetic op ∧ op.level = .product ∧ combine = .arith op := by
  cases t with
  | arithmetic op => cases op <;> simp [joinProduct, Token.arithmetic?, Arithmetic.level, eq_comm]
  | _ => simp [joinProduct, Token.arithmetic?]

theorem joinSum_eq_some_iff {t : Token}
    {combine : Expr (.number n) → Expr (.number n) → Expr (.number n)} :
    joinSum t = some combine ↔
      ∃ op : Arithmetic, t = .arithmetic op ∧ op.level = .sum ∧ combine = .arith op := by
  cases t with
  | arithmetic op => cases op <;> simp [joinSum, Token.arithmetic?, Arithmetic.level, eq_comm]
  | _ => simp [joinSum, Token.arithmetic?]

theorem factorOver_cons (inner : Rule (Expr (.number n))) (t : Located) (rest : List Located)
    (stop : Nat) :
    factorOver inner ⟨t :: rest, stop⟩ =
      match t.token with
      | .openParen => parenthesized inner ⟨t :: rest, stop⟩
      | .identifier _ => name ⟨t :: rest, stop⟩
      | .arithmetic .sub => literal n true t.offset ⟨rest, stop⟩
      | _ => literal n false t.offset ⟨t :: rest, stop⟩ := by
  simp only [factorOver, bind_run, peek_run, List.head?_cons, Option.map_some]
  generalize t.token = token
  cases token with
  | arithmetic op => cases op <;> rfl
  | _ => rfl

theorem literal_cons (negative : Bool) (start : Nat) (t : Located) (rest : List Located)
    (stop : Nat) :
    literal n negative start ⟨t :: rest, stop⟩ =
      match n.literal? negative start t.token with
      | none => .error (.unexpectedToken t.token.text n.expected t.offset) ⟨rest, stop⟩
      | some (.error e) => .error e ⟨rest, stop⟩
      | some (.ok value) => .ok (.const value) ⟨rest, stop⟩ := by
  simp only [literal, bind_run, next_cons]
  cases n.literal? negative start t.token with
  | none => rfl
  | some reading => cases reading <;> rfl

theorem takes_dottedName :
    Takes dottedName fun ts rest name => ReadsName ts name ∧ rest.head? ≠ some .dot := by
  refine (takes_chain (fun ts _ name => ReadsName ts name) takes_take ?_ ?_).mono ?_
  · intro _ _ name token
    rcases token with ⟨t, rfl, reading⟩
    cases t <;> cases reading
    exact .identifier _
  · intro ls t _ rest left right combine joins reads token
    rcases token with ⟨t', rfl, reading⟩
    cases t <;> cases joins
    cases t' <;> cases reading
    exact .dotted _ reads
  · intro ts rest name reading
    rcases reading with ⟨reads, ends⟩
    refine ⟨reads, ?_⟩
    intro dot
    rw [dot] at ends
    cases ends

theorem takes_name {kind : Kind} :
    Takes (name : Rule (Expr kind)) fun ts rest e =>
      ∃ text, ReadsName ts text ∧ rest.head? ≠ some .dot ∧ e = .var text := by
  apply (takes_map takes_dottedName).mono
  intro ts rest e reading
  rcases reading with ⟨text, ⟨reads, ends⟩, rfl⟩
  exact ⟨text, reads, ends, rfl⟩

theorem takes_literal {negative : Bool} {start : Nat} :
    Takes (literal n negative start) fun ts _ e =>
      ∃ t value, ts = [t] ∧ n.Denotes negative t value ∧ e = .const value := by
  intro c e after found
  rcases c with ⟨tokens, stop⟩
  cases tokens with
  | nil => cases found
  | cons t rest =>
    rw [literal_cons] at found
    split at found
    · cases found
    · cases found
    · rename_i value reading
      cases found
      exact ⟨[t], rfl, t.token, value, rfl, Numeric.literal?_eq_ok_iff.mp reading, rfl⟩

theorem takes_factorOver {inner : Rule (Expr (.number n))}
    (takes : Takes inner fun ts _ e => ReadsNumber n .sum ts e) :
    Takes (factorOver inner) fun ts rest e =>
      ReadsNumber n .factor ts e ∧ Level.factor.Ends ts rest := by
  intro c e after found
  rcases c with ⟨tokens, stop⟩
  cases tokens with
  | nil => cases found
  | cons t rest =>
    rw [factorOver_cons] at found
    split at found
    · rcases takes_parenthesized takes _ _ _ found with ⟨taken, start, us, shape, reads⟩
      refine ⟨taken, start, by rw [shape]; exact .parenthesized reads, ?_⟩
      exact Level.ends_of_getLast?_ne .closeParen (by rw [shape]; exact List.getLast?_concat)
        (by simp) fun _ _ => rfl
    · rcases takes_name _ _ _ found with ⟨taken, start, text, reads, ends, rfl⟩
      exact ⟨taken, start, .name reads, fun dot => absurd dot ends, fun _ _ => rfl⟩
    · rename_i minus
      rcases takes_literal _ _ _ found with ⟨taken, start, t', value, shape, denotes, rfl⟩
      cases start
      refine ⟨t :: taken, rfl, ?_, ?_⟩
      · rw [List.map_cons, shape, minus]
        exact .negated denotes
      · rw [List.map_cons, shape]
        exact Level.ends_of_getLast?_ne t' rfl denotes.ne_identifier fun _ _ => rfl
    · rcases takes_literal _ _ _ found with ⟨taken, start, t', value, shape, denotes, rfl⟩
      refine ⟨taken, start, by rw [shape]; exact .literal denotes, ?_⟩
      rw [shape]
      exact Level.ends_of_getLast?_ne t' rfl denotes.ne_identifier fun _ _ => rfl

theorem takes_productOver {inner : Rule (Expr (.number n))}
    (takes : Takes inner fun ts _ e => ReadsNumber n .sum ts e) :
    Takes (productOver inner) fun ts rest e =>
      ReadsNumber n .product ts e ∧ Level.product.Ends ts rest := by
  refine (takes_chain
    (fun ts rest e => ReadsNumber n .product ts e ∧ Level.factor.Ends ts rest)
    (takes_factorOver takes) ?_ ?_).mono ?_
  · intro ts rest e reading
    rcases reading with ⟨reads, ends⟩
    exact ⟨.factor reads, ends⟩
  · intro ls t rs rest l r combine joins reading reading'
    rcases reading with ⟨reads, -⟩
    rcases reading' with ⟨reads', ends⟩
    rcases joinProduct_eq_some_iff.mp joins with ⟨op, rfl, level, rfl⟩
    exact ⟨.scaled level reads reads', ends.of_getLast?_eq (getLast?_append_cons _ reads'.ne_nil)⟩
  · intro ts rest e reading
    rcases reading with ⟨⟨reads, ends⟩, stopped⟩
    refine ⟨reads, ends.name, ?_⟩
    intro op next
    rw [next, Option.bind_some] at stopped
    cases op with
    | add | sub => rfl
    | mul | div => cases stopped

theorem takes_sumOver {inner : Rule (Expr (.number n))}
    (takes : Takes inner fun ts _ e => ReadsNumber n .sum ts e) :
    Takes (sumOver inner) fun ts rest e =>
      ReadsNumber n .sum ts e ∧ Level.sum.Ends ts rest := by
  refine (takes_chain
    (fun ts rest e => ReadsNumber n .sum ts e ∧ Level.product.Ends ts rest)
    (takes_productOver takes) ?_ ?_).mono ?_
  · intro ts rest e reading
    rcases reading with ⟨reads, ends⟩
    exact ⟨.product reads, ends⟩
  · intro ls t rs rest l r combine joins reading reading'
    rcases reading with ⟨reads, -⟩
    rcases reading' with ⟨reads', ends⟩
    rcases joinSum_eq_some_iff.mp joins with ⟨op, rfl, level, rfl⟩
    exact ⟨.shifted level reads reads', ends.of_getLast?_eq (getLast?_append_cons _ reads'.ne_nil)⟩
  · intro ts rest e reading
    rcases reading with ⟨⟨reads, ends⟩, stopped⟩
    refine ⟨reads, ends.name, ?_⟩
    intro op next
    have scales := ends.operator op next
    rw [next, Option.bind_some] at stopped
    cases op with
    | add | sub => cases stopped
    | mul | div => cases scales

theorem takes_sumWithin (depth : Nat) :
    Takes (sumWithin n depth) fun ts rest e =>
      ReadsNumber n .sum ts e ∧ Level.sum.Ends ts rest := by
  induction depth with
  | zero => exact takes_sumOver takes_exhausted
  | succ depth ih => exact takes_sumOver (ih.mono fun _ _ _ => And.left)

end Rule

end Formula
