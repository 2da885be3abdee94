import Formula.Double.Shortest

/-! Digits and their value, and numbers and their positional notation. -/

namespace Formula

attribute [local instance (high)] instPowNat

section Digits

variable {digits digits' : List Char} {width n : Nat}

theorem ofDigitChars_cons_eq (c : Char) (digits : List Char) :
    Nat.ofDigitChars 10 (c :: digits) 0 =
      10 ^ digits.length * (c.toNat - '0'.toNat) + Nat.ofDigitChars 10 digits 0 := by
  rw [Nat.ofDigitChars_cons, Nat.ofDigitChars_eq_ofDigitChars_zero, Nat.mul_zero, Nat.zero_add]

theorem ofDigitChars_lt (plain : ∀ c ∈ digits, c.isDigit) :
    Nat.ofDigitChars 10 digits 0 < 10 ^ digits.length := by
  induction digits with
  | nil => simp
  | cons c digits ih =>
    have step := ih fun c present => plain c (by simp [present])
    have digit := (Char.isDigit_iff_toNat.mp (plain c (by simp))).2
    have value : c.toNat - '0'.toNat ≤ 9 := by
      simp only [Char.reduceToNat] at digit ⊢
      omega
    calc
      Nat.ofDigitChars 10 (c :: digits) 0 =
          10 ^ digits.length * (c.toNat - '0'.toNat) + Nat.ofDigitChars 10 digits 0 :=
        ofDigitChars_cons_eq c digits
      _ < 10 ^ digits.length * (c.toNat - '0'.toNat) + 10 ^ digits.length :=
        Nat.add_lt_add_left step _
      _ = 10 ^ digits.length * (c.toNat - '0'.toNat + 1) := (Nat.mul_succ _ _).symm
      _ ≤ 10 ^ digits.length * 10 := Nat.mul_le_mul_left _ (Nat.succ_le_succ value)
      _ = 10 ^ (c :: digits).length := (Nat.pow_succ _ _).symm

theorem isDigit_of_mem_paddedDigits {c : Char} (present : c ∈ paddedDigits width n) :
    c.isDigit := by
  rw [paddedDigits, List.leftpad, List.mem_append] at present
  rcases present with present | present
  · rw [List.eq_of_mem_replicate present]
    rfl
  · exact Nat.isDigit_of_mem_toDigits (by decide) (by decide) present

theorem paddedDigits_ne_nil : paddedDigits width n ≠ [] := by
  simp [paddedDigits, List.leftpad, Nat.toDigits_ne_nil]

theorem ofDigitChars_paddedDigits (width n : Nat) :
    Nat.ofDigitChars 10 (paddedDigits width n) 0 = n := by
  rw [paddedDigits, List.leftpad, Nat.ofDigitChars_append, Nat.ofDigitChars_replicate_zero,
    Nat.mul_zero, Nat.ofDigitChars_ten_toDigits]

theorem length_paddedDigits (positive : 0 < width) (short : n < 10 ^ width) :
    (paddedDigits width n).length = width := by
  rw [paddedDigits, List.length_leftpad]
  exact Nat.max_eq_left ((Nat.length_toDigits_le_iff (by decide) positive).mpr short)

theorem eq_of_mul_add_eq {base first first' last last' : Nat} (bound : last < base)
    (bound' : last' < base) (same : base * first + last = base * first' + last') :
    first = first' ∧ last = last' := by
  have positive : 0 < base := Nat.lt_of_le_of_lt (Nat.zero_le last) bound
  have quotient := congrArg (· / base) same
  have remainder := congrArg (· % base) same
  simp only [Nat.mul_add_div positive, Nat.div_eq_of_lt bound, Nat.div_eq_of_lt bound'] at quotient
  simp only [Nat.mul_add_mod, Nat.mod_eq_of_lt bound, Nat.mod_eq_of_lt bound'] at remainder
  exact ⟨quotient, remainder⟩

theorem eq_of_isDigit {c c' : Char} (digit : c.isDigit) (digit' : c'.isDigit)
    (same : c.toNat - '0'.toNat = c'.toNat - '0'.toNat) : c = c' := by
  have lower := (Char.isDigit_iff_toNat.mp digit).1
  have lower' := (Char.isDigit_iff_toNat.mp digit').1
  apply Char.toNat_inj.mp
  omega

theorem eq_of_ofDigitChars_eq (plain : ∀ c ∈ digits, c.isDigit) (plain' : ∀ c ∈ digits', c.isDigit)
    (length : digits.length = digits'.length)
    (same : Nat.ofDigitChars 10 digits 0 = Nat.ofDigitChars 10 digits' 0) : digits = digits' := by
  induction digits generalizing digits' with
  | nil => exact (List.length_eq_zero_iff.mp length.symm).symm
  | cons c digits ih =>
    obtain ⟨c', digits', rfl⟩ := List.exists_cons_of_length_eq_add_one length.symm
    rw [List.forall_mem_cons] at plain plain'
    have length : digits.length = digits'.length := Nat.succ.inj length
    have bound := ofDigitChars_lt plain.2
    have bound' := ofDigitChars_lt plain'.2
    rw [← length] at bound'
    rw [ofDigitChars_cons_eq, ofDigitChars_cons_eq, ← length] at same
    obtain ⟨first, rest⟩ := eq_of_mul_add_eq bound bound' same
    rw [eq_of_isDigit plain.1 plain'.1 first, ih plain.2 plain'.2 length rest]

theorem paddedDigits_ofDigitChars (plain : ∀ c ∈ digits, c.isDigit) (length : digits.length = width)
    (positive : 0 < width) : paddedDigits width (Nat.ofDigitChars 10 digits 0) = digits := by
  subst length
  have short := ofDigitChars_lt plain
  exact eq_of_ofDigitChars_eq (fun _ => isDigit_of_mem_paddedDigits) plain
    (length_paddedDigits positive short) (ofDigitChars_paddedDigits _ _)

end Digits

theorem Decimal.exists_digits_of_pointed (d : Decimal) :
    ∃ whole fraction, d.pointed.toList = whole ++ '.' :: fraction ∧ whole ≠ [] ∧ fraction ≠ [] ∧
      (∀ c ∈ whole, c.isDigit) ∧ (∀ c ∈ fraction, c.isDigit) ∧
      ∃ k, 0 < k ∧ (ofDigits whole fraction).digits = k * d.digits ∧
        10 ^ (ofDigits whole fraction).places = k * 10 ^ d.places := by
  have plain (c : Char) (present : c ∈ Nat.toDigits 10 d.whole) : c.isDigit :=
    Nat.isDigit_of_mem_toDigits (by decide) (by decide) present
  by_cases none : d.places = 0
  · refine ⟨Nat.toDigits 10 d.whole, ['0'], by simp [pointed, none], Nat.toDigits_ne_nil, by simp,
      plain, by simp, 10, by decide, ?_, by simp [ofDigits, none]⟩
    have whole : d.whole = d.digits := by simp [Decimal.whole, none]
    simp [ofDigits, Nat.ofDigitChars_append, Nat.ofDigitChars_cons, whole]
  · have short : d.digits % 10 ^ d.places < 10 ^ d.places :=
      Nat.mod_lt _ (Nat.pow_pos (by decide))
    have length : d.fraction.length = d.places :=
      length_paddedDigits (Nat.pos_of_ne_zero none) short
    refine ⟨Nat.toDigits 10 d.whole, d.fraction, by simp [pointed, text, none], Nat.toDigits_ne_nil,
      paddedDigits_ne_nil, plain, fun _ => isDigit_of_mem_paddedDigits, 1, by decide, ?_, ?_⟩
    · have value : Nat.ofDigitChars 10 d.fraction 0 = d.digits % 10 ^ d.places :=
        ofDigitChars_paddedDigits _ _
      calc
        Nat.ofDigitChars 10 (Nat.toDigits 10 d.whole ++ d.fraction) 0 =
            10 ^ d.places * d.whole + d.digits % 10 ^ d.places := by
          rw [Nat.ofDigitChars_append, Nat.ofDigitChars_ten_toDigits,
            Nat.ofDigitChars_eq_ofDigitChars_zero, value, length]
        _ = d.digits := Nat.div_add_mod d.digits (10 ^ d.places)
        _ = 1 * d.digits := (Nat.one_mul _).symm
    · simp [ofDigits, length]

theorem Double.Magnitude.ofDecimal_of_readsBack {m : Magnitude} {d d' : Decimal} {k : Nat}
    (reads : m.ReadsBack d) (positive : 0 < k) (digits : d'.digits = k * d.digits)
    (places : 10 ^ d'.places = k * 10 ^ d.places) : ofDecimal d' = .signed false m := by
  calc
    ofDecimal d' = .signed false (nearest (k * d.digits) (k * 10 ^ d.places)) := by
      rw [ofDecimal, digits, places]
    _ = .signed false (nearest d.digits (10 ^ d.places)) := by rw [nearest_mul_left positive]
    _ = .signed false m := congrArg (signed false) reads

end Formula
