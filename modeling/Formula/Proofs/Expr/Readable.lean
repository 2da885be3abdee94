import Formula.Proofs.Expr.Settled

/-! The conditions that some source is read as. -/

namespace Formula

/-- Where it is written with enough parentheses, the comparison is not read in an earlier kind. -/
def Ordered.Admits : (o : Ordered) → Expr (.ordered o) → Expr (.ordered o) → Prop
  | .string, _, _ => True
  | .instant, left, right => left.isConst ∨ right.isConst
  | .number (.whole .int), _, _ => True
  | .number (.whole .long), left, right => left.hasConst ∨ right.hasConst
  | .number .double, left, right => left.hasConst ∨ right.hasConst

namespace Expr

def IsAdmitted : {k : Kind} → Expr k → Prop
  | _, .compare (o := o) _ left right => o.Admits left right
  | _, .logic _ left right => left.IsAdmitted ∧ right.IsAdmitted
  | _, _ => True

structure IsReadable {k : Kind} (e : Expr k) : Prop where
  leaves : e.HasReadableLeaves
  comparisons : e.IsAdmitted

end Expr

section Reading

variable {o : Ordered} {ts ls rs : List Token}

theorem Selected.admits {l r : Expr (.ordered o)} (selected : Selected o ls rs)
    (reads : ReadsOperand o ls l) (reads' : ReadsOperand o rs r) : o.Admits l r := by
  match o with
  | .string | .number (.whole .int) => trivial
  | .instant => exact Expr.isConst_of_not_fits reads reads' (selected.first .string (by decide))
  | .number (.whole .long) | .number .double =>
    exact Expr.hasConst_of_not_fits reads reads'
      (selected.first (.number (.whole .int)) (by decide))

theorem ReadsCondition.isAdmitted {clause : Clause} {e : Expr .boolean}
    (reads : ReadsCondition Selected clause ts e) : e.IsAdmitted := by
  induction reads with
  | comparison reads reads' selected => exact selected.admits reads reads'
  | parenthesized _ ih | term _ ih => exact ih
  | literal | name => trivial
  | joined _ _ ih ih' => exact ⟨ih, ih'⟩

theorem Expr.isReadable_of_ofSource {e : Expr .boolean} {source : String} {limit : Nat}
    (read : ofSource .boolean limit source = .ok e) : e.IsReadable := by
  obtain ⟨located, found, parsed⟩ := Source.parse_eq_ok_iff.mp read
  have reads := (Source.parseTokens_condition_eq_ok_iff.mp parsed).2
  exact ⟨reads.leavesIn.readable (Source.isWritten_of_tokens found), reads.isAdmitted⟩

end Reading

/-- Some text becomes the row wherever it stands before a blank, a closing parenthesis or the
end. -/
def IsSpelled (row : List Token) : Prop :=
  ∃ text, ∀ {tail : List Char} {ts : List Token}, Delimits tail → Spells tail ts →
    Spells (text ++ tail) (row ++ ts)

section Spelling

variable {row ls rs : List Token}

theorem IsSpelled.exists_tokens (spelled : IsSpelled row) :
    ∃ source located, Source.tokens source = .ok located ∧ located.map Located.token = row := by
  obtain ⟨text, spells⟩ := spelled
  obtain ⟨located, found, tokens⟩ := spells delimits_nil Spells.nil 0
  refine ⟨String.ofList text, located, ?_, by simpa using tokens⟩
  rw [Source.tokens, String.toList_ofList]
  simpa using found

theorem IsSpelled.parenthesized (spelled : IsSpelled row) :
    IsSpelled (.openParen :: row ++ [.closeParen]) := by
  obtain ⟨text, spells⟩ := spelled
  refine ⟨'(' :: text ++ [')'], ?_⟩
  intro tail ts _ after
  have inner := spells (delimits_closeParen tail) after.closeParen
  simpa using inner.openParen

theorem IsSpelled.separated (left : IsSpelled ls) (right : IsSpelled rs) {separator : Token}
    (symbol : List Char)
    (separates : ∀ {tail : List Char} {ts : List Token}, Spells tail ts →
      Spells (symbol ++ ' ' :: tail) (separator :: ts)) :
    IsSpelled (ls ++ separator :: rs) := by
  obtain ⟨first, spells⟩ := left
  obtain ⟨second, spells'⟩ := right
  refine ⟨first ++ ' ' :: (symbol ++ ' ' :: second), ?_⟩
  intro tail ts delimits after
  have spelled := spells (delimits_blank _) (separates (spells' delimits after)).blank
  simpa using spelled

theorem isSpelled_literal {k : Kind} {value : k.Carrier} (readable : k.IsReadable value) :
    IsSpelled (k.tokens value) := by
  match k, value with
  | .double, .nan => exact absurd rfl readable
  | .double, .signed negative magnitude =>
    exact ⟨_, fun delimits after => (after.double magnitude delimits).signed negative⟩
  | .whole _, _ | .string, _ | .boolean, _ =>
    exact ⟨_, fun delimits after => Kind.spells_literal trivial delimits after⟩
  | .instant, i => exact ⟨_, fun delimits after => Kind.spells_literal readable delimits after⟩

theorem isSpelled_tokens {k : Kind} {e : Expr k} (readable : e.HasReadableLeaves) :
    IsSpelled e.tokens := by
  induction e with
  | const value => exact isSpelled_literal (readable.constants _ List.mem_cons_self)
  | var name =>
    exact ⟨_, fun delimits after => (readable.names name List.mem_cons_self).spells delimits after⟩
  | arith op left right ih ih' =>
    obtain ⟨first, second⟩ := readable.operands rfl rfl
    exact ((ih first).separated (ih' second) _ (Spells.arithmetic op)).parenthesized
  | compare op left right ih ih' =>
    obtain ⟨first, second⟩ := readable.operands rfl rfl
    exact ((ih first).separated (ih' second) _ (Spells.relation op)).parenthesized
  | logic op left right ih ih' =>
    obtain ⟨first, second⟩ := readable.operands rfl rfl
    exact ((ih first).separated (ih' second) _ (Spells.connective op)).parenthesized

end Spelling

section Writing

variable {o : Ordered}

theorem Ordered.Admits.shows {l r : Expr (.ordered o)} (admits : o.Admits l r)
    (other : o ≠ .number (.whole .int)) : o.Shows l r := by
  match o with
  | .string => trivial
  | .instant | .number (.whole .long) | .number .double => exact admits
  | .number (.whole .int) => exact absurd rfl other

theorem selected_parenthesized (ls : List Token) {r : Expr .int} :
    Selected (.number (.whole .int)) (.openParen :: ls ++ [.closeParen]) r.tokens := by
  refine ⟨?_, Expr.not_captured_tokens _ r⟩
  intro o' before fits
  obtain ⟨⟨l', reads⟩, -⟩ := fits
  have serves := reads.serves .openParen (by simp)
  obtain rfl | rfl := Expr.plain_of_rank_lt_int before
  · cases serves
  · cases serves

/-- Parentheses around the first operand show that a comparison is not one of texts. -/
theorem exists_readsCondition_compare (op : Relation) {l r : Expr (.ordered o)}
    (left : IsSpelled l.tokens) (right : IsSpelled r.tokens) (admits : o.Admits l r) :
    ∃ row, IsSpelled row ∧ ReadsCondition Selected .term row (.compare op l r) := by
  by_cases int : o = .number (.whole .int)
  · -- Two bare names would be compared as texts.
    subst int
    have first : ReadsOperand (.number (.whole .int)) (.openParen :: l.tokens ++ [.closeParen]) l :=
      .number (.product (.factor (.parenthesized (.product (.factor l.readsNumber_tokens)))))
    exact ⟨_, left.parenthesized.separated right _ (Spells.relation op),
      .comparison first r.readsOperand_tokens (selected_parenthesized _)⟩
  · exact ⟨_, left.separated right _ (Spells.relation op),
      .comparison l.readsOperand_tokens r.readsOperand_tokens
        (Expr.selected_tokens (admits.shows int))⟩

theorem exists_readsCondition : (e : Expr .boolean) → e.IsReadable →
    ∃ row, IsSpelled row ∧ ReadsCondition Selected .term row e
  | .const b, _ => ⟨[.boolean b], isSpelled_literal (k := .boolean) trivial, .literal b⟩
  | .var name, readable =>
    ⟨_, isSpelled_tokens readable.leaves, .name (Expr.readsName_tokens name)⟩
  | .compare op l r, readable => by
    obtain ⟨first, second⟩ := readable.leaves.operands rfl rfl
    exact exists_readsCondition_compare op (isSpelled_tokens first) (isSpelled_tokens second)
      readable.comparisons
  | .logic op l r, readable => by
    obtain ⟨first, second⟩ := readable.leaves.operands rfl rfl
    obtain ⟨ls, left, reads⟩ := exists_readsCondition l ⟨first, readable.comparisons.1⟩
    obtain ⟨rs, right, reads'⟩ := exists_readsCondition r ⟨second, readable.comparisons.2⟩
    exact ⟨_, (left.separated right _ (Spells.connective op)).parenthesized,
      .parenthesized (.joined (.term reads) reads')⟩

/-- The conditions that sources are read as are those in which names, constants and comparisons can
be written. -/
theorem Expr.exists_ofSource_iff (e : Expr .boolean) :
    (∃ source limit, ofSource .boolean limit source = .ok e) ↔ e.IsReadable := by
  constructor
  · intro read
    obtain ⟨source, limit, read⟩ := read
    exact isReadable_of_ofSource read
  · intro readable
    obtain ⟨row, spelled, reads⟩ := exists_readsCondition e readable
    obtain ⟨source, located, found, tokens⟩ := spelled.exists_tokens
    refine ⟨source, deepest 0 row, Source.parse_eq_ok_iff.mpr ⟨located, found, ?_⟩⟩
    apply Source.parseTokens_condition_eq_ok_iff.mpr
    have nesting : deepest 0 (located.map Located.token) ≤ deepest 0 row :=
      Nat.le_of_eq (congrArg (deepest 0) tokens)
    rw [tokens]
    exact ⟨Source.checkNesting_eq_ok nesting, .term reads⟩

/-- All of the comparison can be written but the instant, which falls on a whole millisecond of 2015
inside a leap second. -/
theorem Expr.ofSource_ne_reminder :
    reminder.names = ["t"] ∧ IsName "t" ∧ reminder.constants = [⟨.instant, Instant.leapSecond⟩] ∧
      Instant.leapSecond.IsWhole ∧ Instant.leapSecond.timestamp.year = 2015 ∧
      reminder.IsAdmitted ∧ ∀ source limit, ofSource .boolean limit source ≠ .ok reminder := by
  refine ⟨rfl, by decide, rfl, by decide, by decide, .inr rfl, fun source limit read => ?_⟩
  have written : Instant.leapSecond.IsWritten :=
    (isReadable_of_ofSource read).leaves.constants ⟨.instant, Instant.leapSecond⟩ (.head _)
  exact absurd written (by decide)

end Writing

end Formula
