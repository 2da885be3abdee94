import Mathlib.Data.List.Induction
import Formula.Proofs.Bindings.Path

/-! Bindings collected from a list of names and values: of the names on one path, the last one
stays. -/

namespace Formula.Bindings

variable (pairs : List (String × Value)) (name : String)

/-- The last pair whose name goes along the path of a name, as far as the shorter one of them
goes. -/
def lastComparable : Option (String × Value) :=
  (pairs.filter fun pair =>
    Comparable (Name.ofText pair.1).segments (Name.ofText name).segments).getLast?

theorem lastComparable_concat (pair : String × Value) :
    lastComparable (pairs ++ [pair]) name =
      if Comparable (Name.ofText pair.1).segments (Name.ofText name).segments then some pair
      else lastComparable pairs name := by
  rw [lastComparable, List.filter_append]
  by_cases comparable : Comparable (Name.ofText pair.1).segments (Name.ofText name).segments
  · simp [comparable]
  · simp [comparable, lastComparable]

theorem ofList_concat (pair : String × Value) :
    ofList (pairs ++ [pair]) = (ofList pairs).insertPath (.ofText pair.1) pair.2 := by
  simp only [ofList, List.foldl_append, List.foldl_cons, List.foldl_nil]

theorem named_ofList :
    (ofList pairs).named name =
      (lastComparable pairs name).bind fun pair =>
        if (Name.ofText pair.1).segments = (Name.ofText name).segments then some pair.2
        else none := by
  induction pairs using List.reverseRecOn with
  | nil => exact valueAt_empty _ _
  | append_singleton pairs pair ih =>
    rw [ofList_concat, named_insertPath, lastComparable_concat]
    by_cases comparable : Comparable (Name.ofText pair.1).segments (Name.ofText name).segments
    · rw [if_pos comparable, if_pos comparable, Option.bind_some]
    · rw [if_neg comparable, if_neg comparable, ih]

/-- The walk to a name in collected bindings finds what the name has there when it is cut at its last
dot: the value of the last pair on its path if that pair binds the very path, and nothing in all
other cases. -/
theorem find_ofList_iff :
    (∀ v, ((ofList pairs).context.find name [] (Name.ofText name).first
          (Name.ofText name).rest).result = .ok v ↔ (ofList pairs).Reads v name) ∧
      (∀ v, ((ofList pairs).context.find name [] (Name.ofText name).first
          (Name.ofText name).rest).result = .ok v ↔
        ∃ text, lastComparable pairs name = some (text, v) ∧
          (Name.ofText text).segments = (Name.ofText name).segments) ∧
      ((∃ missing, ((ofList pairs).context.find name [] (Name.ofText name).first
          (Name.ofText name).rest).result = .error (.variableNotFound name missing)) ↔
        ∀ text v, lastComparable pairs name = some (text, v) →
          (Name.ofText text).segments ≠ (Name.ofText name).segments) := by
  refine ⟨fun v => ?_, fun v => ?_, ?_⟩
  · rw [find_context_eq_ok_iff, reads_iff]
  · rw [find_context_eq_ok_iff, named_ofList]
    cases lastComparable pairs name with
    | none => simp
    | some pair => cases pair; simp [and_comm]
  · rw [exists_find_context_eq_error_iff, named_ofList]
    cases lastComparable pairs name with
    | none => simp
    | some pair => cases pair; simp

/-- A value gives way to the child that a later name needs, and the child to a later value. -/
example :
    ((ofList [("a", ⟨.boolean, true⟩), ("a.b", ⟨.boolean, false⟩)]).named "a").isNone ∧
      ((ofList [("a.b", ⟨.boolean, false⟩), ("a", ⟨.boolean, true⟩)]).named "a.b").isNone := by
  decide

end Formula.Bindings
