import Formula.Proofs.Bindings.Collected
import Formula.Proofs.Command.Arguments
import Formula.Proofs.Token.Tight
import Formula.Proofs.Value.ReadBack

/-! A binding that is given as a text is the value that evaluation finds. -/

namespace Formula

namespace Text

theorem isTight_literal (text : String) : IsTight (literal text) := by
  have shape : (literal text).toList = '"' :: (encode text.toList ++ ['"']) := by simp [literal]
  rw [← String.ofList_toList (s := literal text), shape]
  exact isTight_quoted _

end Text

section Literals

open Text

variable {c : Char}

theorem not_isWhiteSpace_of_mem_sign {negative : Bool}
    (present : c ∈ if negative then ['-'] else []) : isWhiteSpace c = false := by
  cases negative with
  | false => cases present
  | true =>
    rw [List.eq_of_mem_singleton present]
    decide

theorem Whole.not_isWhiteSpace_of_mem_text {width : Width} {n : Whole width}
    (present : c ∈ n.text.toList) : isWhiteSpace c = false := by
  rw [n.toList_text, List.mem_append] at present
  obtain sign | digit := present
  · exact not_isWhiteSpace_of_mem_sign sign
  · exact not_isWhiteSpace_of_isDigit (Nat.isDigit_of_mem_toDigits (by decide) (by decide) digit)

theorem Double.not_isWhiteSpace_of_mem_literal {x : Double} (finite : x.IsFinite)
    (present : c ∈ x.literal.toList) : isWhiteSpace c = false := by
  cases x with
  | nan => exact finite.elim
  | signed negative magnitude =>
    obtain ⟨whole, fraction, shape, -, -, plain, plain', -⟩ :=
      magnitude.shortest.exists_digits_of_pointed
    rw [Double.toList_literal finite, shape, List.mem_append, List.mem_append,
      List.mem_cons] at present
    obtain sign | digit | rfl | digit := present
    · exact not_isWhiteSpace_of_mem_sign sign
    · exact not_isWhiteSpace_of_isDigit (plain c digit)
    · decide
    · exact not_isWhiteSpace_of_isDigit (plain' c digit)

theorem Kind.isTight_literal {k : Kind} {value : k.Carrier} (written : k.IsWritten value) :
    IsTight (k.literal value) := by
  match k, value with
  | .whole .int, n => exact isTight_of_forall fun c => Whole.not_isWhiteSpace_of_mem_text
  | .whole .long, n =>
    apply isTight_of_forall
    intro c present
    rw [Kind.literal, String.toList_append, List.mem_append] at present
    obtain number | mark := present
    · exact Whole.not_isWhiteSpace_of_mem_text number
    · rw [List.eq_of_mem_singleton mark]
      decide
  | .double, x => exact isTight_of_forall fun c => Double.not_isWhiteSpace_of_mem_literal written
  | .string, text => exact Text.isTight_literal text
  | .instant, i =>
    exact isTight_of_forall fun c => Timestamp.not_isWhiteSpace_of_mem_text written.fitsForm
  | .boolean, b =>
    have solid : (∀ c ∈ "true".toList, isWhiteSpace c = false) ∧
        ∀ c ∈ "false".toList, isWhiteSpace c = false := by
      simp [isWhiteSpace, whiteSpaceRanges]
    cases b with
    | true => exact isTight_of_forall solid.1
    | false => exact isTight_of_forall solid.2

end Literals

namespace Bindings

variable {name : String} {v : Value} {before after : List (String × Value)}

theorem named_ofList_append_cons
    (apart : ∀ pair ∈ after,
      ¬ Comparable (Name.ofText pair.1).segments (Name.ofText name).segments) :
    (ofList (before ++ (name, v) :: after)).named name = some v := by
  induction after using List.reverseRecOn with
  | nil =>
    rw [ofList_concat, named_insertPath, if_pos (comparable_self _), if_pos rfl]
  | append_singleton after pair ih =>
    rw [List.forall_mem_append] at apart
    rw [← List.cons_append, ← List.append_assoc, ofList_concat, named_insertPath,
      if_neg (apart.2 pair (by simp)), ih apart.1]

end Bindings

namespace Command

variable {name : String} {v : Value}

theorem bindingOfText_literal (present : name ≠ "") (plain : '=' ∉ name.toList)
    (tight : Text.IsTight name) (written : v.kind.IsWritten v.content) :
    bindingOfText (name ++ "=" ++ v.literal) = .ok (name, v) := by
  have shape : (name ++ "=" ++ v.literal).toList = name.toList ++ '=' :: v.literal.toList := by
    simp
  have literal : Text.trim v.literal = v.literal :=
    Text.trim_eq_self (Kind.isTight_literal written)
  simp only [bindingOfText, shape, splitAtEquals_append plain, String.ofList_toList,
    Text.trim_eq_self tight, if_neg present, literal, Value.ofText_literal_of_isWritten written]

/-- What is bound on the command line by a name and a literal is what the name stands for, unless a
later binding goes along its path. -/
theorem resolve_bindingOfText {before after : List (String × Value)} (present : name ≠ "")
    (plain : '=' ∉ name.toList) (tight : Text.IsTight name)
    (written : v.kind.IsWritten v.content)
    (apart : ∀ pair ∈ after,
      ¬ Comparable (Name.ofText pair.1).segments (Name.ofText name).segments) :
    bindingOfText (name ++ "=" ++ v.literal) = .ok (name, v) ∧
      ((Bindings.ofList (before ++ (name, v) :: after)).context.resolve v.kind name).result =
        .ok v.content :=
  ⟨bindingOfText_literal present plain tight written,
    Bindings.resolve_context_of_named (Bindings.named_ofList_append_cons apart)⟩

theorem resolve_bindingOfText_note :
    bindingOfText "order.note=\" a=\\\"b.c\\\"\"" = .ok ("order.note", ⟨.string, " a=\"b.c\""⟩) ∧
      ((Bindings.ofList [("order", ⟨.boolean, true⟩), ("order.note", ⟨.string, " a=\"b.c\""⟩),
          ("order.notes", ⟨.boolean, false⟩)]).context.resolve .string "order.note").result =
        .ok " a=\"b.c\"" := by
  have tight : Text.IsTight "order.note" := by
    simp [Text.IsTight, Text.isWhiteSpace, Text.whiteSpaceRanges]
  exact @resolve_bindingOfText "order.note" ⟨.string, " a=\"b.c\""⟩ [("order", ⟨.boolean, true⟩)]
    [("order.notes", ⟨.boolean, false⟩)] (by decide) (by decide) tight trivial (by decide)

/-- An instant on a whole millisecond of 2015 is bound as a text if it lies inside a leap second. -/
theorem resolve_bindingOfText_leapSecond :
    Instant.leapSecond.IsWhole ∧ Instant.leapSecond.timestamp.year = 2015 ∧
      bindingOfText ("n" ++ "=" ++ (Value.mk .instant Instant.leapSecond).literal) =
        .ok ("n", ⟨.string, "2015-06-30T23:59:60.500Z"⟩) ∧
      ((Bindings.ofList [("n", ⟨.string, "2015-06-30T23:59:60.500Z"⟩)]).context.resolve .instant
          "n").result = .error (.kindMismatch "n" .instant .string) := by
  have printed : "n" ++ "=" ++ (Value.mk .instant Instant.leapSecond).literal =
      "n=2015-06-30T23:59:60.500Z" := by decide
  refine ⟨by decide, by decide, ?_, rfl⟩
  rw [printed]
  rfl

end Command

end Formula
