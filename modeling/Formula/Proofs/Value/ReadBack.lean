import Formula.Proofs.Expr.Settled

/-! Which values are read back from their literals. -/

namespace Formula

namespace Value

variable {text : String}

theorem ofWhole?_val (n : Whole .int) : ofWhole? n.val = some ⟨.int, n⟩ := by
  rw [ofWhole?, Whole.ofInt?_val]

theorem ofLong?_val (n : Whole .long) : ofLong? n.val = some ⟨.long, n⟩ := by
  rw [ofLong?, Whole.ofInt?_val]
  rfl

theorem ofTokens?_of_denotes {n : Numeric} {negative : Bool} {t : Token} {value : n.Carrier}
    (denotes : n.Denotes negative t value) :
    ofTokens? (if negative then [.arithmetic .sub, t] else [t]) = some ⟨.number n, value⟩ := by
  match n with
  | .whole .int =>
    obtain ⟨digits, rfl, signed⟩ := denotes
    rw [← ofWhole?_val, signed]
    cases negative <;> rfl
  | .whole .long =>
    obtain ⟨digits, rfl, signed⟩ := denotes
    rw [← ofLong?_val, signed]
    cases negative <;> rfl
  | .double =>
    obtain ⟨x, rfl, rfl⟩ := denotes
    cases negative <;> rfl

theorem ofTokens?_tokens (k : Kind) (value : k.Carrier) :
    ofTokens? (k.tokens value) = some ⟨k, value⟩ := by
  match k, value with
  | .number n, value => exact ofTokens?_of_denotes (n.denotes_unsigned value)
  | .string, _ | .instant, _ | .boolean, _ => rfl

theorem kind_of_ofLong? {n : Int} {v : Value} (read : ofLong? n = some v) : v.kind = .long := by
  obtain ⟨long, -, rfl⟩ := Option.map_eq_some_iff.mp read
  rfl

theorem kind_of_ofWhole? {n : Int} {v : Value} (read : ofWhole? n = some v) :
    v.kind = .int ∨ v.kind = .long := by
  unfold ofWhole? at read
  split at read
  · cases read
    exact .inl rfl
  · exact .inr (kind_of_ofLong? read)

theorem eq_of_ofTokens?_instant {ts : List Token} {i : Instant}
    (read : ofTokens? ts = some ⟨.instant, i⟩) : ts = [.instant i] := by
  unfold ofTokens? at read
  split at read
  case h_5 => cases read; rfl
  case h_1 | h_7 => obtain own | own := kind_of_ofWhole? read <;> cases own
  case h_2 | h_8 => cases kind_of_ofLong? read
  all_goals cases read

theorem ofText_of_tokens {located : List Located} (found : Source.tokens text = .ok located) :
    ofText text = (ofTokens? (located.map Located.token)).getD ⟨.string, text⟩ := by
  rw [ofText, found]

theorem ofText_literal_of_isWritten {v : Value} (written : v.kind.IsWritten v.content) :
    ofText v.literal = v := by
  obtain ⟨located, found, row⟩ := Source.exists_tokens_text (e := .const v.content) written
  have found : Source.tokens v.literal = .ok located := found
  rw [ofText_of_tokens found, row, Expr.tokens, ofTokens?_tokens]
  rfl

theorem isWritten_of_ofText {i : Instant} (read : ofText text = ⟨.instant, i⟩) : i.IsWritten := by
  cases found : Source.tokens text with
  | error failure =>
    rw [ofText, found] at read
    cases read
  | ok located =>
    rw [ofText_of_tokens found] at read
    cases value : ofTokens? (located.map Located.token) with
    | none =>
      rw [value] at read
      cases read
    | some v =>
      rw [value, Option.getD_some] at read
      rw [read] at value
      have row := eq_of_ofTokens?_instant value
      exact Source.isWritten_of_tokens found (.instant i) (by simp [row])

theorem ofText_literal_of_not_isFinite {x : Double} (beyond : ¬ x.IsFinite) :
    ofText x.literal = ⟨.string, x.literal⟩ := by
  cases x with
  | nan => rfl
  | signed negative magnitude =>
    have above : ¬ magnitude.val < Double.infinite := beyond
    have infinite : (Double.signed negative magnitude).literal =
        Double.signText negative ++ "inf" := by
      rw [Double.literal, Double.textWith, if_neg above]
    rw [infinite]
    cases negative <;> rfl

theorem kind_of_same {v w : Value} (equal : v.same w) : v.kind = w.kind := by
  apply Decidable.byContradiction
  intro other
  have none := as?_eq_none_iff.mpr (Ne.symm other)
  rw [same, none] at equal
  cases equal

theorem eq_of_same_instant {v : Value} {i : Instant} (equal : v.same ⟨.instant, i⟩) :
    v = ⟨.instant, i⟩ := by
  obtain ⟨kind, content⟩ := v
  obtain rfl : kind = .instant := kind_of_same equal
  rw [same, as?_mk] at equal
  have order : content.compare i = .eq := by
    simpa [Kind.compare, Ordered.compare] using equal
  rw [Instant.compare_eq_eq_iff.mp order]

theorem same_self {v : Value} (finite : v.kind.IsFinite v.content) : v.same v := by
  have own : v.as? v.kind = some v.content := as?_mk v.kind v.content
  simp [same, own, Expr.compare_self finite]

theorem isFinite_of_isWritten {v : Value} (written : v.kind.IsWritten v.content) :
    v.kind.IsFinite v.content := by
  obtain ⟨kind, content⟩ := v
  match kind with
  | .double => exact written
  | .whole _ | .string | .instant | .boolean => trivial

theorem isWritten_of_forall {v : Value} (double : ∀ x, v = ⟨.double, x⟩ → x.IsFinite)
    (instant : ∀ i, v = ⟨.instant, i⟩ → i.IsWritten) : v.kind.IsWritten v.content := by
  obtain ⟨kind, content⟩ := v
  match kind with
  | .double => exact double content rfl
  | .instant => exact instant content rfl
  | .whole _ | .string | .boolean => trivial

theorem isWritten_of_ofText_literal {v : Value}
    (read : ofText v.literal = v ∨ (ofText v.literal).same v) : v.kind.IsWritten v.content := by
  apply isWritten_of_forall
  · rintro x rfl
    have kinds : (ofText x.literal).kind = .double := by
      obtain read | equal := read
      · exact congrArg kind read
      · exact kind_of_same equal
    apply Decidable.byContradiction
    intro beyond
    rw [ofText_literal_of_not_isFinite beyond] at kinds
    cases kinds
  · -- The instant that is read has a literal, and it is the one that was written.
    rintro i rfl
    obtain read | equal := read
    · exact isWritten_of_ofText read
    · exact isWritten_of_ofText (eq_of_same_instant equal)

/-- A value is read back from its literal exactly if the literal gives all of it, and what is read
back is equal to it in no other case. -/
theorem ofText_literal_iff (v : Value) :
    (ofText v.literal = v ↔ v.kind.IsWritten v.content) ∧
      ((ofText v.literal).same v ↔ v.kind.IsWritten v.content) := by
  refine ⟨⟨fun read => isWritten_of_ofText_literal (.inl read), ofText_literal_of_isWritten⟩,
    fun equal => isWritten_of_ofText_literal (.inr equal), ?_⟩
  intro written
  rw [ofText_literal_of_isWritten written]
  exact same_self (isFinite_of_isWritten written)

end Value

end Formula
