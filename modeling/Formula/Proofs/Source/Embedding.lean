import Formula.Proofs.Expr.Readable
import Formula.Proofs.Rule.Condition
import Formula.Proofs.Source.Cut

/-! A source that is an expression is the same part of every larger source in which it stands in
parentheses, or at the left of an operator. -/

namespace Formula

def Goal.Reads : (goal : Goal) → List Token → Expr goal.kind → Prop
  | .boolean => ReadsCondition Selected .chain
  | .number n => ReadsNumber n .sum

theorem Goal.Reads.balanced {goal : Goal} {row : List Token} {e : Expr goal.kind}
    (reads : goal.Reads row e) : Balanced row := by
  cases goal with
  | boolean => exact ReadsCondition.balanced reads
  | number n => exact ReadsNumber.balanced reads

theorem Goal.Reads.parenthesized {goal : Goal} {row : List Token} {e : Expr goal.kind}
    (reads : goal.Reads row e) : goal.Reads (.openParen :: row ++ [.closeParen]) e := by
  cases goal with
  | boolean => exact .term (.parenthesized reads)
  | number n => exact .product (.factor (.parenthesized reads))

theorem Source.parseTokens_rule_eq_ok_iff {goal : Goal} {limit stop : Nat} {located : List Located}
    {e : Expr goal.kind} :
    parseTokens goal.rule limit ⟨located, stop⟩ = .ok e ↔
      deepest 0 (located.map Located.token) ≤ limit ∧ goal.Reads (located.map Located.token) e := by
  rw [← checkNesting_eq_ok_iff]
  cases goal with
  | boolean => exact parseTokens_condition_eq_ok_iff
  | number n => exact parseTokens_sum_eq_ok_iff

/-- The text becomes the row also before a break. Within the limit the row opens parentheses, and
closes them. -/
structure Embeds (limit : Nat) (text : List Char) (row : List Token) : Prop where
  spells : ∀ {tail : List Char} {ts : List Token}, Breaks tail → Spells tail ts →
    Spells (text ++ tail) (row ++ ts)
  shallow : deepest 0 row ≤ limit
  balanced : Balanced row

namespace Embeds

variable {limit : Nat} {text left right : List Char} {row ls rs : List Token}

theorem mono (embeds : Embeds limit text row) : Embeds (limit + 1) text row :=
  ⟨embeds.spells, Nat.le_succ_of_le embeds.shallow, embeds.balanced⟩

theorem parenthesized (embeds : Embeds limit text row) :
    Embeds (limit + 1) ('(' :: text ++ [')']) (.openParen :: row ++ [.closeParen]) where
  spells := by
    intro tail ts _ after
    have inner := embeds.spells (breaks_cons (by decide) tail) after.closeParen
    simpa using inner.openParen
  shallow := by
    rw [deepest_parenthesized embeds.balanced]
    exact Nat.succ_le_succ embeds.shallow
  balanced := balanced_parenthesized embeds.balanced

theorem separated (first : Embeds limit left ls) (second : Embeds limit right rs)
    {separator : Token} (plain : ∀ opened, separator.nest opened = some opened) (symbol : List Char)
    (separates : ∀ {tail : List Char} {ts : List Token}, Spells tail ts →
      Spells (symbol ++ ' ' :: tail) (separator :: ts)) :
    Embeds limit (left ++ ' ' :: (symbol ++ ' ' :: right)) (ls ++ separator :: rs) where
  spells := by
    intro tail ts breaks after
    have behind := (separates (second.spells breaks after)).blank
    simpa using first.spells (breaks_cons (by decide) _) behind
  shallow := by
    have open' : separator ≠ .openParen := fun same => by rw [same] at plain; cases plain 0
    have close : separator ≠ .closeParen := fun same => by rw [same] at plain; cases plain 0
    rw [deepest_separated first.balanced open' close]
    exact Nat.max_le.mpr ⟨first.shallow, second.shallow⟩
  balanced := balanced_append first.balanced (balanced_cons plain second.balanced)

end Embeds

section Selection

variable {n : Numeric} {ls rs : List Token} {l r : Expr (.number n)}

theorem ReadsNumber.exists_not_serves {level : Level} (reads : ReadsNumber n level ls l)
    (has : l.hasConst) {o : Ordered} (other : o ≠ .number n) : ∃ t ∈ ls, t.serves o = false := by
  induction reads with
  | parenthesized _ ih =>
    obtain ⟨t, present, fails⟩ := ih has
    exact ⟨t, by simp [present], fails⟩
  | name => cases has
  | literal denotes =>
    refine ⟨_, List.mem_singleton_self _, Bool.eq_false_iff.mpr fun serves => ?_⟩
    exact other (denotes.serves_iff.mp serves)
  | negated denotes =>
    refine ⟨_, List.mem_cons_of_mem _ (List.mem_singleton_self _),
      Bool.eq_false_iff.mpr fun serves => ?_⟩
    exact other (denotes.serves_iff.mp serves)
  | factor _ ih | product _ ih => exact ih has
  | scaled _ _ _ ih ih' | shifted _ _ _ ih ih' =>
    obtain has | has := Bool.or_eq_true_iff.mp has
    · obtain ⟨t, present, fails⟩ := ih has
      exact ⟨t, by simp [present], fails⟩
    · obtain ⟨t, present, fails⟩ := ih' has
      exact ⟨t, by simp [present], fails⟩

theorem selected_of_parenthesized (reads : ReadsNumber n .sum ls l)
    (reads' : ReadsNumber n .sum rs r) (shows : n = .whole .int ∨ l.hasConst ∨ r.hasConst) :
    Selected (.number n) (.openParen :: ls ++ [.closeParen])
      (.openParen :: rs ++ [.closeParen]) := by
  constructor
  · intro o before fits
    obtain ⟨⟨l', operand⟩, r', operand'⟩ := fits
    have other : o ≠ .number n := by
      rintro rfl
      exact Nat.lt_irrefl _ before
    obtain rfl | has | has := shows
    · have serves := operand.serves .openParen (by simp)
      obtain rfl | rfl := Expr.plain_of_rank_lt_int before
      · cases serves
      · cases serves
    · obtain ⟨t, present, fails⟩ := reads.exists_not_serves has other
      rw [operand.serves t (by simp [present])] at fails
      cases fails
    · obtain ⟨t, present, fails⟩ := reads'.exists_not_serves has other
      rw [operand'.serves t (by simp [present])] at fails
      cases fails
  · intro captured
    obtain ⟨⟨name, reads⟩, -⟩ := captured
    cases reads.serves .string .openParen (by simp)

end Selection

namespace Expr

variable {goal : Goal} {limit : Nat} {source : String} {row : List Token} {e : Expr goal.kind}

theorem exists_embeds_of_ofSource (read : ofSource goal limit source = .ok e) :
    ∃ row, Embeds limit source.toList row ∧ goal.Reads row e := by
  obtain ⟨located, found, parsed⟩ := Source.parse_eq_ok_iff.mp read
  have cut := Source.tokensFrom_eq_ok_iff.mp found
  obtain ⟨shallow, reads⟩ := Source.parseTokens_rule_eq_ok_iff.mp parsed
  exact ⟨_, ⟨cut.spells_append, shallow, reads.balanced⟩, reads⟩

theorem ofSource_of_embeds {text : List Char} (embeds : Embeds limit text row)
    (reads : goal.Reads row e) (shape : source.toList = text) :
    ofSource goal limit source = .ok e := by
  subst shape
  obtain ⟨located, found, tokens⟩ := embeds.spells breaks_nil .nil 0
  rw [List.append_nil] at found tokens
  refine Source.parse_eq_ok_iff.mpr ⟨located, found, ?_⟩
  rw [Source.parseTokens_rule_eq_ok_iff, tokens]
  exact ⟨embeds.shallow, reads⟩

theorem ofSource_parenthesized (read : ofSource goal limit source = .ok e) :
    ofSource goal (limit + 1) ("(" ++ source ++ ")") = .ok e := by
  obtain ⟨row, embeds, reads⟩ := exists_embeds_of_ofSource read
  exact ofSource_of_embeds embeds.parenthesized reads.parenthesized (by simp)

section Joined

variable {goal' : Goal} {first second : String} {l r : Expr goal.kind} {e : Expr goal'.kind}
  {separator : Token} (symbol : String) (plain : ∀ opened, separator.nest opened = some opened)
  (separates : ∀ {tail : List Char} {ts : List Token}, Spells tail ts →
    Spells (symbol.toList ++ ' ' :: tail) (separator :: ts))

include plain separates

theorem ofSource_joined (read : ofSource goal limit first = .ok l)
    (read' : ofSource goal limit second = .ok r)
    (joins : ∀ ls rs, goal.Reads ls l → goal.Reads rs r →
      goal'.Reads ((.openParen :: ls ++ [.closeParen]) ++
        separator :: (.openParen :: rs ++ [.closeParen])) e) :
    ofSource goal' (limit + 1) ("(" ++ first ++ ") " ++ symbol ++ " (" ++ second ++ ")") =
      .ok e := by
  obtain ⟨ls, left, reads⟩ := exists_embeds_of_ofSource read
  obtain ⟨rs, right, reads'⟩ := exists_embeds_of_ofSource read'
  have embeds := left.parenthesized.separated right.parenthesized plain symbol.toList separates
  exact ofSource_of_embeds embeds (joins ls rs reads reads') (by simp)

theorem ofSource_chained (read : ofSource goal limit first = .ok l)
    (read' : ofSource goal limit second = .ok r)
    (joins : ∀ ls rs, goal.Reads ls l → goal.Reads rs r →
      goal'.Reads (ls ++ separator :: (.openParen :: rs ++ [.closeParen])) e) :
    ofSource goal' (limit + 1) (first ++ " " ++ symbol ++ " (" ++ second ++ ")") = .ok e := by
  obtain ⟨ls, left, reads⟩ := exists_embeds_of_ofSource read
  obtain ⟨rs, right, reads'⟩ := exists_embeds_of_ofSource read'
  have embeds := left.mono.separated right.parenthesized plain symbol.toList separates
  exact ofSource_of_embeds embeds (joins ls rs reads reads') (by simp)

end Joined

section Numbers

variable {n : Numeric} {first second : String} {l r : Expr (.number n)}

theorem ofSource_arith (read : ofSource (.number n) limit first = .ok l)
    (read' : ofSource (.number n) limit second = .ok r) (op : Arithmetic) :
    ofSource (.number n) (limit + 1)
      ("(" ++ first ++ ") " ++ op.symbol ++ " (" ++ second ++ ")") = .ok (.arith op l r) := by
  apply ofSource_joined op.symbol (fun _ => rfl) (Spells.arithmetic op) read read'
  intro ls rs reads reads'
  have left : ReadsNumber n .factor (.openParen :: ls ++ [.closeParen]) l := .parenthesized reads
  have right : ReadsNumber n .factor (.openParen :: rs ++ [.closeParen]) r := .parenthesized reads'
  cases level : op.level with
  | factor => cases op <;> cases level
  | product => exact .product (.scaled level (.factor left) right)
  | sum => exact .shifted level (.product (.factor left)) (.factor right)

theorem ofSource_arith_of_sum (read : ofSource (.number n) limit first = .ok l)
    (read' : ofSource (.number n) limit second = .ok r) {op : Arithmetic}
    (level : op.level = .sum) :
    ofSource (.number n) (limit + 1) (first ++ " " ++ op.symbol ++ " (" ++ second ++ ")") =
      .ok (.arith op l r) := by
  apply ofSource_chained op.symbol (fun _ => rfl) (Spells.arithmetic op) read read'
  intro ls rs reads reads'
  exact .shifted level reads (.factor (.parenthesized reads'))

theorem ofSource_compare (read : ofSource (.number n) limit first = .ok l)
    (read' : ofSource (.number n) limit second = .ok r)
    (shows : n = .whole .int ∨ l.hasConst ∨ r.hasConst) (op : Relation) :
    ofSource .boolean (limit + 1) ("(" ++ first ++ ") " ++ op.symbol ++ " (" ++ second ++ ")") =
      .ok (.compare (o := .number n) op l r) := by
  apply ofSource_joined op.symbol (fun _ => rfl) (Spells.relation op) read read'
  intro ls rs reads reads'
  have left : ReadsNumber n .factor (.openParen :: ls ++ [.closeParen]) l := .parenthesized reads
  have right : ReadsNumber n .factor (.openParen :: rs ++ [.closeParen]) r := .parenthesized reads'
  exact .term (.comparison (.number (.product (.factor left))) (.number (.product (.factor right)))
    (selected_of_parenthesized reads reads' shows))

end Numbers

section Conditions

variable {first second : String} {l r : Expr .boolean}

theorem ofSource_logic (read : ofSource .boolean limit first = .ok l)
    (read' : ofSource .boolean limit second = .ok r) (op : Connective) :
    ofSource .boolean (limit + 1) ("(" ++ first ++ ") " ++ op.symbol ++ " (" ++ second ++ ")") =
      .ok (.logic op l r) := by
  apply ofSource_joined op.symbol (fun _ => rfl) (Spells.connective op) read read'
  intro ls rs reads reads'
  exact .joined (.term (.parenthesized reads)) (.parenthesized reads')

theorem ofSource_logic_of_chain (read : ofSource .boolean limit first = .ok l)
    (read' : ofSource .boolean limit second = .ok r) (op : Connective) :
    ofSource .boolean (limit + 1) (first ++ " " ++ op.symbol ++ " (" ++ second ++ ")") =
      .ok (.logic op l r) := by
  apply ofSource_chained op.symbol (fun _ => rfl) (Spells.connective op) read read'
  intro ls rs reads reads'
  exact .joined reads (.parenthesized reads')

end Conditions

/-- Sources that are accepted are accepted as parts of larger ones, and stay the expressions they
are. -/
theorem ofSource_embedded (limit : Nat) :
    (∀ (n : Numeric) (first second : String) (l r : Expr (.number n)),
      ofSource (.number n) limit first = .ok l → ofSource (.number n) limit second = .ok r →
        ofSource (.number n) (limit + 1) ("(" ++ first ++ ")") = .ok l ∧
        (∀ op : Arithmetic, ofSource (.number n) (limit + 1)
          ("(" ++ first ++ ") " ++ op.symbol ++ " (" ++ second ++ ")") = .ok (.arith op l r)) ∧
        (∀ op : Arithmetic, op = .add ∨ op = .sub → ofSource (.number n) (limit + 1)
          (first ++ " " ++ op.symbol ++ " (" ++ second ++ ")") = .ok (.arith op l r)) ∧
        (n = .whole .int ∨ l.hasConst ∨ r.hasConst →
          ∀ op : Relation, ofSource .boolean (limit + 1)
            ("(" ++ first ++ ") " ++ op.symbol ++ " (" ++ second ++ ")") =
              .ok (.compare (o := .number n) op l r))) ∧
      ∀ (first second : String) (l r : Expr .boolean),
        ofSource .boolean limit first = .ok l → ofSource .boolean limit second = .ok r →
          ofSource .boolean (limit + 1) ("(" ++ first ++ ")") = .ok l ∧
          ∀ op : Connective,
            ofSource .boolean (limit + 1)
              ("(" ++ first ++ ") " ++ op.symbol ++ " (" ++ second ++ ")") = .ok (.logic op l r) ∧
            ofSource .boolean (limit + 1)
              (first ++ " " ++ op.symbol ++ " (" ++ second ++ ")") = .ok (.logic op l r) := by
  constructor
  · intro n first second l r read read'
    refine ⟨ofSource_parenthesized read, ofSource_arith read read', ?_, ofSource_compare read read'⟩
    intro op sum
    have level : op.level = .sum := by
      obtain rfl | rfl := sum <;> rfl
    exact ofSource_arith_of_sum read read' level
  · intro first second l r read read'
    exact ⟨ofSource_parenthesized read,
      fun op => ⟨ofSource_logic read read' op, ofSource_logic_of_chain read read' op⟩⟩

def lessFive : Expr .int := .arith (n := .whole .int) .sub (.var "a") (.const ⟨5, by decide⟩)

def either : Expr .boolean := .logic .or (.var "x") (.var "y")

theorem ofSource_lessFive : ofSource (.number (.whole .int)) 0 "a - 5" = .ok lessFive := by
  have row : Source.tokens "a - 5" =
      .ok [⟨.identifier "a", 0⟩, ⟨.arithmetic .sub, 2⟩, ⟨.int 5, 4⟩] := rfl
  rw [ofSource, Source.parse, row]
  rfl

theorem ofSource_either : ofSource .boolean 0 "x || y" = .ok either := by
  have row : Source.tokens "x || y" =
      .ok [⟨.identifier "x", 0⟩, ⟨.connective .or, 2⟩, ⟨.identifier "y", 5⟩] := rfl
  rw [ofSource, Source.parse, row]
  rfl

theorem ofSource_lessFive_either_embedded :
    ofSource (.number (.whole .int)) 1 "(a - 5)" = .ok lessFive ∧
      ofSource (.number (.whole .int)) 1 "(a - 5) * (a - 5)" = .ok (.arith .mul lessFive lessFive) ∧
      ofSource (.number (.whole .int)) 1 "a - 5 - (a - 5)" = .ok (.arith .sub lessFive lessFive) ∧
      ofSource .boolean 1 "(a - 5) <= (a - 5)" =
        .ok (.compare (o := .number (.whole .int)) .le lessFive lessFive) ∧
      ofSource .boolean 1 "(x || y)" = .ok either ∧
      ofSource .boolean 1 "x || y && (x || y)" = .ok (.logic .and either either) := by
  obtain ⟨enclosed, arith, sum, compare⟩ :=
    (ofSource_embedded 0).1 (.whole .int) _ _ _ _ ofSource_lessFive ofSource_lessFive
  obtain ⟨enclosed', logic⟩ := (ofSource_embedded 0).2 _ _ _ _ ofSource_either ofSource_either
  exact ⟨enclosed, arith .mul, sum .sub (.inr rfl), compare (.inl rfl) .le, enclosed',
    (logic .and).2⟩

end Expr

end Formula
