import Formula.Proofs.Double.Overflow
import Formula.Proofs.Expr.Reprinted

/-! Arithmetic that was read and is printed is read as the same expression, as long as no literal of
the source is too large for a finite number: an infinite number is printed as a word. -/

namespace Formula

attribute [local instance (high)] instPowNat

def Token.IsFinite : Token → Prop
  | .double x => x.IsFinite
  | _ => True

section Rows

variable {n : Numeric} {ts ls rs : List Token}

theorem Double.isFinite_neg (x : Double) : x.neg.IsFinite ↔ x.IsFinite := by
  cases x <;> exact Iff.rfl

theorem Numeric.Denotes.isFinite_iff {negative : Bool} {t : Token} {value : n.Carrier}
    (denotes : n.Denotes negative t value) : (Kind.number n).IsFinite value ↔ t.IsFinite := by
  cases n with
  | double =>
    obtain ⟨x, rfl, rfl⟩ := denotes
    cases negative with
    | false => exact Iff.rfl
    | true => exact x.isFinite_neg
  | whole width =>
    obtain ⟨digits, rfl, -⟩ := denotes
    cases width <;> exact Iff.rfl

theorem ReadsName.isFinite {name : String} (reads : ReadsName ts name) :
    ∀ t ∈ ts, t.IsFinite := by
  intro t present
  have serves := reads.serves .string t present
  cases t with
  | double => cases serves
  | _ => trivial

theorem forall_isFinite_separated {op : Arithmetic} :
    (∀ t ∈ ls ++ .arithmetic op :: rs, t.IsFinite) ↔
      (∀ t ∈ ls, t.IsFinite) ∧ ∀ t ∈ rs, t.IsFinite := by
  rw [List.forall_mem_append, List.forall_mem_cons]
  exact and_congr_right fun _ => and_iff_right trivial

theorem ReadsNumber.isFinite_iff {level : Level} {e : Expr (.number n)}
    (reads : ReadsNumber n level ts e) : e.IsFinite ↔ ∀ t ∈ ts, t.IsFinite := by
  induction reads with
  | parenthesized _ ih =>
    rw [ih, List.cons_append, List.forall_mem_cons, List.forall_mem_append,
      List.forall_mem_singleton]
    exact ⟨fun all => ⟨trivial, all, trivial⟩, fun all => all.2.1⟩
  | name reads => exact iff_of_true trivial reads.isFinite
  | literal denotes =>
    rw [List.forall_mem_singleton]
    exact denotes.isFinite_iff
  | negated denotes =>
    rw [List.forall_mem_cons, List.forall_mem_singleton]
    exact denotes.isFinite_iff.trans (and_iff_right trivial).symm
  | factor _ ih | product _ ih => exact ih
  | scaled _ _ _ ih ih' | shifted _ _ _ ih ih' =>
    rw [forall_isFinite_separated, ← ih, ← ih', Expr.IsFinite]

end Rows

/-- Before a blank, a closing parenthesis or the end the text becomes a row of finite tokens. -/
def SpellsFinite (text : List Char) : Prop :=
  ∃ row, (∀ t ∈ row, t.IsFinite) ∧ ∀ {tail : List Char} {ts : List Token},
    Delimits tail → Spells tail ts → Spells (text ++ tail) (row ++ ts)

section Printed

theorem spellsFinite_name {name : String} (written : IsName name) : SpellsFinite name.toList :=
  ⟨(Name.ofText name).tokens, (Expr.readsName_tokens name).isFinite, written.spells⟩

theorem spellsFinite_infinity (negative : Bool) :
    SpellsFinite (Double.signText negative ++ "inf").toList := by
  refine ⟨if negative then [.arithmetic .sub, .identifier "inf"] else [.identifier "inf"], ?_, ?_⟩
  · cases negative <;> simp [Token.IsFinite]
  · intro tail ts delimits spells
    have written : Lexeme.IsIdentifier "inf" := by decide
    have word := spells.identifier written fun c next => delimits.not_isWordChar next
    have spelled := word.signed negative
    cases negative <;> exact spelled

theorem Kind.isFinite_tokens {k : Kind} {value : k.Carrier} (finite : k.IsFinite value) :
    ∀ t ∈ k.tokens value, t.IsFinite := by
  match k, value with
  | .string, _ | .instant, _ | .boolean, _ => exact List.forall_mem_singleton.mpr trivial
  | .number n, value =>
    have plain := (n.denotes_unsigned value).isFinite_iff.mp finite
    rw [Kind.tokens]
    split
    · exact List.forall_mem_cons.mpr ⟨trivial, List.forall_mem_singleton.mpr plain⟩
    · exact List.forall_mem_singleton.mpr plain

theorem spellsFinite_literal {k : Kind} {value : k.Carrier} (readable : k.IsReadable value) :
    SpellsFinite (k.literal value).toList := by
  by_cases finite : k.IsFinite value
  · exact ⟨k.tokens value, Kind.isFinite_tokens finite,
      Kind.spells_literal (Expr.isWritten_of_isReadable readable finite)⟩
  · match k, value with
    | .double, .nan => exact absurd rfl readable
    | .double, .signed negative magnitude =>
      have above : ¬ magnitude.val < Double.infinite := finite
      rw [Kind.literal, Double.literal, Double.textWith, if_neg above]
      exact spellsFinite_infinity negative
    | .whole _, _ | .string, _ | .instant, _ | .boolean, _ => exact absurd trivial finite

theorem spellsFinite_node {left right : String} (first : SpellsFinite left.toList)
    (second : SpellsFinite right.toList) (symbol : String) (separator : Token)
    (plain : separator.IsFinite)
    (separates : ∀ {tail : List Char} {ts : List Token}, Spells tail ts →
      Spells (symbol.toList ++ ' ' :: tail) (separator :: ts)) :
    SpellsFinite (Expr.nodeText left symbol right).toList := by
  obtain ⟨ls, finite, spells⟩ := first
  obtain ⟨rs, finite', spells'⟩ := second
  refine ⟨.openParen :: (ls ++ separator :: rs) ++ [.closeParen], ?_, ?_⟩
  · simp only [List.cons_append, List.forall_mem_cons, List.forall_mem_append]
    exact ⟨trivial, ⟨finite, plain, finite'⟩, trivial, nofun⟩
  · intro tail ts delimits after
    have behind := spells' (delimits_closeParen tail) after.closeParen
    have whole := spells (delimits_blank _) (separates behind).blank
    rw [Expr.toList_nodeText]
    simpa using whole.openParen

/-- What was read is printed without infinite numbers, also where it holds some. -/
theorem Expr.spellsFinite_text {k : Kind} {e : Expr k} (readable : e.HasReadableLeaves) :
    SpellsFinite e.text.toList := by
  induction e with
  | const value => exact spellsFinite_literal (readable.constants _ (List.mem_singleton_self _))
  | var name => exact spellsFinite_name (readable.names _ (List.mem_singleton_self _))
  | arith op left right ih ih' =>
    obtain ⟨first, second⟩ := readable.operands rfl rfl
    exact spellsFinite_node (ih first) (ih' second) op.symbol (.arithmetic op) trivial
      (Spells.arithmetic op)
  | compare op left right ih ih' =>
    obtain ⟨first, second⟩ := readable.operands rfl rfl
    exact spellsFinite_node (ih first) (ih' second) op.symbol (.relation op) trivial
      (Spells.relation op)
  | logic op left right ih ih' =>
    obtain ⟨first, second⟩ := readable.operands rfl rfl
    exact spellsFinite_node (ih first) (ih' second) op.symbol (.connective op) trivial
      (Spells.connective op)

end Printed

section Equality

theorem Double.isFinite_of_compare {x y : Double} (equal : x.compare y = some .eq)
    (finite : x.IsFinite) : y.IsFinite := by
  rw [Double.compare] at equal
  match x, y with
  | .nan, _ => exact finite.elim
  | .signed negative _, .nan => cases negative <;> cases equal
  | .signed negative m, .signed negative' m' =>
    have below : m.val < infinite := finite
    show m'.val < infinite
    cases negative <;> cases negative' <;> simp [rank] at equal <;> omega

theorem Value.isFinite_of_same {v w : Value} (equal : v.same w)
    (finite : v.kind.IsFinite v.content) : w.kind.IsFinite w.content := by
  obtain ⟨k, a⟩ := v
  obtain ⟨l, b⟩ := w
  by_cases kinds : l = k
  · subst kinds
    simp only [Value.same, Value.as?_mk, beq_iff_eq] at equal
    cases l with
    | boolean => trivial
    | ordered l =>
      cases l with
      | string | instant => trivial
      | number n =>
        cases n with
        | whole => trivial
        | double => exact Double.isFinite_of_compare equal finite
  · rw [Value.same, Value.as?_eq_none_iff.mpr kinds] at equal
    cases equal

theorem Expr.isFinite_of_same {k l : Kind} {e : Expr k} {e' : Expr l} (equal : e.same e')
    (finite : e.IsFinite) : e'.IsFinite := by
  fun_induction Expr.same e e' with
  | case1 => exact Value.isFinite_of_same equal finite
  | case2 => trivial
  | case3 _ _ _ _ _ _ _ _ ih ih' | case4 _ _ _ _ _ _ _ _ ih ih' | case5 _ _ _ _ _ _ ih ih' =>
    simp only [Bool.and_eq_true] at equal
    exact ⟨ih equal.1.2 finite.1, ih' equal.2 finite.2⟩
  | case6 => cases equal

end Equality

section Reread

variable {n : Numeric} {source : String} {limit limit' : Nat} {e : Expr (.number n)}

theorem Expr.settled_number (e : Expr (.number n)) : e.settled = e := by
  cases e <;> rfl

theorem Expr.isFinite_of_ofSource_text {e' : Expr (.number n)} (readable : e.HasReadableLeaves)
    (read : ofSource (.number n) limit e.text = .ok e') : e'.IsFinite := by
  obtain ⟨row, finite, spells⟩ := spellsFinite_text readable
  obtain ⟨located, found, tokens⟩ := spells delimits_nil Spells.nil 0
  rw [List.append_nil] at found tokens
  obtain ⟨located', found', parsed⟩ := Source.parse_eq_ok_iff.mp read
  obtain rfl := Except.ok.inj (found'.symm.trans found)
  have reads := (Source.parseTokens_rule_eq_ok_iff.mp parsed).2
  rw [tokens] at reads
  exact ReadsNumber.isFinite_iff reads |>.mpr finite

theorem Expr.isFinite_iff_forall_constants {k : Kind} {e : Expr k} :
    e.IsFinite ↔ ∀ v ∈ e.constants, v.kind.IsFinite v.content := by
  refine ⟨isFinite_of_mem_constants, fun all => ?_⟩
  induction e with
  | @const k value => exact all ⟨k, value⟩ (List.mem_singleton_self _)
  | var => trivial
  | arith _ _ _ ih ih' | compare _ _ _ ih ih' | logic _ _ _ ih ih' =>
    obtain ⟨first, second⟩ := List.forall_mem_append.mp all
    exact ⟨ih first, ih' second⟩

theorem Expr.kind_eq_of_mem_constants {k : Kind} {e : Expr k} (numeric : k = .number n) :
    ∀ v ∈ e.constants, v.kind = .number n := by
  induction e with
  | const => exact List.forall_mem_singleton.mpr numeric
  | var => exact List.forall_mem_nil _
  | arith _ _ _ ih ih' => exact List.forall_mem_append.mpr ⟨ih numeric, ih' numeric⟩
  | compare | logic => cases numeric

theorem Expr.ofSource_literal_iff {value : n.Carrier} (readable : (Kind.number n).IsReadable value) :
    ofSource (.number n) limit ((Kind.number n).literal value) = .ok (.const value) ↔
      (Kind.number n).IsFinite value := by
  constructor
  · intro read
    have leaves : (Expr.const value : Expr (.number n)).HasReadableLeaves :=
      ⟨List.forall_mem_nil _, List.forall_mem_singleton.mpr readable⟩
    exact isFinite_of_ofSource_text leaves read
  · intro finite
    have written : (Expr.const value : Expr (.number n)).IsWritten :=
      isWritten_of_isReadable readable finite
    exact ofSource_text (.number n) written trivial (Nat.zero_le limit)

/-- No literal of the source is a double too large for a finite number. -/
def Source.IsFinite (source : String) : Prop :=
  ∃ located, Source.tokens source = .ok located ∧ ∀ t ∈ located.map Located.token, t.IsFinite

theorem Expr.isFinite_iff_source (read : ofSource (.number n) limit source = .ok e) :
    e.IsFinite ↔ Source.IsFinite source := by
  obtain ⟨located, found, parsed⟩ := Source.parse_eq_ok_iff.mp read
  have reads := (Source.parseTokens_rule_eq_ok_iff.mp parsed).2
  rw [ReadsNumber.isFinite_iff reads]
  constructor
  · exact fun finite => ⟨located, found, finite⟩
  · intro finite
    obtain ⟨located', found', finite⟩ := finite
    rwa [Except.ok.inj (found.symm.trans found')]

theorem Expr.hasReadableLeaves_of_ofSource (read : ofSource (.number n) limit source = .ok e) :
    e.HasReadableLeaves := by
  obtain ⟨located, found, parsed⟩ := Source.parse_eq_ok_iff.mp read
  have reads := (Source.parseTokens_rule_eq_ok_iff.mp parsed).2
  exact (ReadsNumber.leavesIn reads).readable (Source.isWritten_of_tokens found)

theorem Expr.isFinite_whole {width : Width} (e : Expr (.whole width)) : e.IsFinite := by
  rw [isFinite_iff_forall_constants]
  intro v present
  obtain ⟨kind, content⟩ := v
  obtain rfl : kind = .whole width := kind_eq_of_mem_constants rfl _ present
  trivial

theorem Expr.ofSource_text_of_isFinite (read : ofSource (.number n) limit source = .ok e)
    (shallow : Source.depth e.text ≤ limit') (finite : e.IsFinite) :
    ofSource (.number n) limit' e.text = .ok e := by
  have written : e.settled.IsWritten := (@wellFormed_settled (.number n) _ _ e read finite).written
  rw [settled_number] at written
  rw [Source.depth_text written] at shallow
  have again := @ofSource_text_eq_settled (.number n) _ _ _ e read finite shallow
  rwa [settled_number] at again

/-- Arithmetic that was read and is printed is read again as an equal expression exactly if it holds
no infinite number, that is, if no literal of its source is too large. -/
theorem Expr.ofSource_text_iff_isFinite (read : ofSource (.number n) limit source = .ok e)
    (shallow : Source.depth e.text ≤ limit') :
    (ofSource (.number n) limit' e.text = .ok e ↔ e.IsFinite) ∧
      ((∃ e', ofSource (.number n) limit' e.text = .ok e' ∧ e'.same e) ↔ e.IsFinite) ∧
      ((∀ value, ⟨.number n, value⟩ ∈ e.constants →
          ofSource (.number n) limit' ((Kind.number n).literal value) = .ok (.const value)) ↔
        e.IsFinite) ∧
      (e.IsFinite ↔ Source.IsFinite source) ∧
      ∀ width, n = .whole width → e.IsFinite := by
  have readable := hasReadableLeaves_of_ofSource read
  have again := ofSource_text_of_isFinite read shallow
  refine ⟨⟨isFinite_of_ofSource_text readable, again⟩, ⟨?_, ?_⟩, ⟨?_, ?_⟩,
    isFinite_iff_source read, ?_⟩
  · intro equal
    obtain ⟨e', read', same⟩ := equal
    exact isFinite_of_same same (isFinite_of_ofSource_text readable read')
  · exact fun finite => ⟨e, again finite, same_self finite⟩
  · intro literals
    rw [isFinite_iff_forall_constants]
    intro v present
    obtain ⟨kind, content⟩ := v
    obtain rfl : kind = .number n := kind_eq_of_mem_constants rfl _ present
    exact (ofSource_literal_iff (readable.constants _ present)).mp (literals content present)
  · intro finite value present
    exact (ofSource_literal_iff (readable.constants _ present)).mpr
      (isFinite_of_mem_constants finite _ present)
  · intro width whole
    subst whole
    exact isFinite_whole e

def tripled : Expr .int :=
  .arith (n := .whole .int) .mul
    (.arith (n := .whole .int) .add (.const ⟨8, by decide⟩) (.var "x")) (.const ⟨3, by decide⟩)

theorem Expr.ofSource_text_tripled :
    ofSource (.number (.whole .int)) 1 "(8 + x) * 3" = .ok tripled ∧
      Source.depth tripled.text ≤ 2 ∧
      (ofSource (.number (.whole .int)) 2 tripled.text = .ok tripled ↔ tripled.IsFinite) ∧
      tripled.IsFinite := by
  have row : Source.tokens "(8 + x) * 3" =
      .ok [⟨.openParen, 0⟩, ⟨.int 8, 1⟩, ⟨.arithmetic .add, 3⟩, ⟨.identifier "x", 5⟩,
        ⟨.closeParen, 6⟩, ⟨.arithmetic .mul, 8⟩, ⟨.int 3, 10⟩] := rfl
  have read : ofSource (.number (.whole .int)) 1 "(8 + x) * 3" = .ok tripled := by
    rw [ofSource, Source.parse, row]
    rfl
  have x : IsName "x" := by decide
  have written : tripled.IsWritten := ⟨⟨trivial, x⟩, trivial⟩
  have depth : Source.depth tripled.text = 2 := Source.depth_text written
  have shallow := Nat.le_of_eq depth
  have reread := Expr.ofSource_text_iff_isFinite read shallow
  exact ⟨read, shallow, reread.1, reread.2.2.2.2 .int rfl⟩

end Reread

section Infinite

variable (limit : Nat)

theorem Expr.ofSource_decimal {whole fraction : List Char} (plain : ∀ c ∈ whole, c.isDigit)
    (plain' : ∀ c ∈ fraction, c.isDigit) (present : whole ≠ []) (present' : fraction ≠ []) :
    ofSource (.number .double) limit (String.ofList (whole ++ '.' :: fraction)) =
      .ok (.const (.ofDecimal (.ofDigits whole fraction))) := by
  have lexeme := Lexeme.number_double plain plain' present' delimits_nil
  have length : whole.length + 1 + fraction.length = (whole ++ '.' :: fraction).length := by
    simp only [List.length_append, List.length_cons]
    omega
  have shape : whole ++ '.' :: (fraction ++ []) = whole ++ '.' :: fraction ++ [] := by simp
  rw [length, shape] at lexeme
  obtain ⟨located, found, tokens⟩ := Spells.nil.number _ present plain lexeme 0
  rw [List.append_nil] at found
  refine Source.parse_eq_ok_iff.mpr ⟨located, by rwa [Source.tokens, String.toList_ofList], ?_⟩
  rw [Source.parseTokens_rule_eq_ok_iff, tokens]
  exact ⟨Nat.zero_le limit, .product (.factor (.literal ⟨_, rfl, rfl⟩))⟩

/-- The word that infinite numbers are printed as is a name. -/
theorem Expr.ofSource_inf : ofSource (.number .double) limit "inf" = .ok (.var "inf") := by
  have found : Source.tokens "inf" = .ok [⟨.identifier "inf", 0⟩] := rfl
  refine Source.parse_eq_ok_iff.mpr ⟨_, found, Source.parseTokens_rule_eq_ok_iff.mpr ?_⟩
  exact ⟨Nat.zero_le limit, .product (.factor (.name (.identifier "inf")))⟩

theorem Double.literal_ofDecimal {d : Decimal} (large : bound * 10 ^ d.places ≤ d.digits) :
    (Double.ofDecimal d).literal = "inf" := by
  have infinite : ¬ (nearest d.digits (10 ^ d.places)).val < infinite := fun finite =>
    Nat.not_lt_of_le large ((isFinite_ofDecimal_iff d).mp finite)
  rw [ofDecimal, literal, textWith, if_neg infinite]
  rfl

theorem Expr.text_of_le {whole fraction : List Char}
    (large : Double.bound * 10 ^ fraction.length ≤ Nat.ofDigitChars 10 (whole ++ fraction) 0) :
    (.const (.ofDecimal (.ofDigits whole fraction)) : Expr .double).text = "inf" := by
  rw [text, Kind.literal, Double.literal_ofDecimal large]

def manyDigits : List Char := '1' :: List.replicate 309 '0'

theorem Expr.ofSource_text_manyDigits_ne :
    ∃ e, ofSource (.number .double) Source.defaultLimit
          (String.ofList (manyDigits ++ ['.', '0'])) = .ok e ∧
      e.text = "inf" ∧ Source.depth e.text ≤ Source.defaultLimit ∧
      ∃ e', ofSource (.number .double) Source.defaultLimit e.text = .ok e' ∧
        e'.same e = false := by
  have plain : ∀ c ∈ manyDigits, c.isDigit := by
    intro c present
    obtain rfl | zero := List.mem_cons.mp present
    · decide
    · rw [List.eq_of_mem_replicate zero]
      decide
  have plain' : ∀ c ∈ ['0'], c.isDigit := List.forall_mem_singleton.mpr rfl
  have present : manyDigits ≠ [] := List.cons_ne_nil _ _
  have read := ofSource_decimal Source.defaultLimit plain plain' present (List.cons_ne_nil _ _)
  have large : Double.bound * 10 ^ ['0'].length ≤ Nat.ofDigitChars 10 (manyDigits ++ ['0']) 0 := by
    decide +kernel
  have printed := text_of_le large
  have flat : Source.depth "inf" ≤ Source.defaultLimit := by decide
  have shallow := (congrArg Source.depth printed).trans_le flat
  have reread := ofSource_inf Source.defaultLimit
  rw [← printed] at reread
  exact ⟨_, read, printed, shallow, _, reread, rfl⟩

end Infinite

end Formula
