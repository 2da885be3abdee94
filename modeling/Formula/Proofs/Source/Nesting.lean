import Mathlib.Tactic.ByContra
import Formula.Proofs.Expr.Tokens
import Formula.Proofs.Grammar.Rows
import Formula.Source

/-! Parentheses are counted in the tokens, and a printed expression nests them as deep as its tree
is high. -/

namespace Formula

/-- The greatest number of parentheses open at once, where some are open before the row. -/
def deepest : Nat → List Token → Nat
  | opened, [] => opened
  | opened, .openParen :: ts => deepest (opened + 1) ts
  | opened, .closeParen :: ts => max opened (deepest (opened - 1) ts)
  | opened, _ :: ts => deepest opened ts

theorem le_deepest (opened : Nat) (ts : List Token) : opened ≤ deepest opened ts := by
  fun_induction deepest opened ts with
  | case1 => exact Nat.le_refl _
  | case2 opened ts ih => exact Nat.le_trans (Nat.le_succ opened) ih
  | case3 opened ts => exact Nat.le_max_left _ _
  | case4 opened t ts _ _ ih => exact ih

namespace Source

theorem checkNesting_eq_ok {limit opened : Nat} {located : List Located}
    (shallow : deepest opened (located.map Located.token) ≤ limit) :
    checkNesting limit opened located = .ok () := by
  induction located generalizing opened with
  | nil => rfl
  | cons t rest ih =>
    rcases t with ⟨token, offset⟩
    cases token with
    | openParen =>
      have room : ¬ limit ≤ opened := by
        have := le_deepest (opened + 1) (rest.map Located.token)
        simp only [List.map_cons, deepest] at shallow
        omega
      exact (if_neg room).trans (ih shallow)
    | closeParen => exact ih (Nat.le_trans (Nat.le_max_right _ _) shallow)
    | _ => exact ih shallow

theorem exists_checkNesting_eq_error {limit opened : Nat} {located : List Located}
    (room : opened ≤ limit) (deep : limit < deepest opened (located.map Located.token)) :
    ∃ offset, checkNesting limit opened located = .error (.nestingTooDeep limit offset) := by
  induction located generalizing opened with
  | nil => exact absurd deep (Nat.not_lt_of_le room)
  | cons t rest ih =>
    rcases t with ⟨token, offset⟩
    cases token with
    | openParen =>
      by_cases full : limit ≤ opened
      · exact ⟨offset, if_pos full⟩
      · have deeper : limit < deepest (opened + 1) (rest.map Located.token) := deep
        rcases ih (by omega) deeper with ⟨offset', failed⟩
        exact ⟨offset', (if_neg full).trans failed⟩
    | closeParen =>
      simp only [List.map_cons, deepest] at deep
      exact ih (by omega) (by omega)
    | _ => exact ih room deep

theorem checkNesting_eq_ok_iff {limit : Nat} {located : List Located} :
    checkNesting limit 0 located = .ok () ↔ deepest 0 (located.map Located.token) ≤ limit := by
  refine ⟨fun checked => ?_, checkNesting_eq_ok⟩
  by_contra deep
  obtain ⟨offset, failed⟩ :=
    exists_checkNesting_eq_error (Nat.zero_le limit) (Nat.lt_of_not_le deep)
  rw [checked] at failed
  cases failed

def depth (source : String) : Nat :=
  match tokens source with
  | .ok located => deepest 0 (located.map Located.token)
  | .error _ => 0

end Source

theorem deepest_cons_of_ne {t : Token} (open' : t ≠ .openParen) (close : t ≠ .closeParen)
    (opened : Nat) (ts : List Token) : deepest opened (t :: ts) = deepest opened ts := by
  cases t <;> first | rfl | contradiction

theorem deepest_append_of_not_mem {plain : List Token} (open' : .openParen ∉ plain)
    (close : .closeParen ∉ plain) (opened : Nat) (ts : List Token) :
    deepest opened (plain ++ ts) = deepest opened ts := by
  induction plain with
  | nil => rfl
  | cons t plain ih =>
    rw [List.mem_cons, not_or] at open' close
    rw [List.cons_append, deepest_cons_of_ne (Ne.symm open'.1) (Ne.symm close.1),
      ih open'.2 close.2]

theorem deepest_append {ts : List Token} {opened after : Nat}
    (nests : ts.foldlM Token.nest opened = some after) (us : List Token) :
    deepest opened (ts ++ us) = max (deepest opened ts) (deepest after us) := by
  induction ts generalizing opened with
  | nil =>
    cases nests
    exact (Nat.max_eq_right (le_deepest _ us)).symm
  | cons t ts ih =>
    rw [List.foldlM_cons] at nests
    cases t with
    | openParen => exact ih nests
    | closeParen =>
      cases opened with
      | zero => cases nests
      | succ opened =>
        rw [List.cons_append, deepest, deepest, ih nests, Nat.max_assoc]
    | _ => exact ih nests

theorem deepest_add {ts : List Token} {opened after : Nat}
    (nests : ts.foldlM Token.nest opened = some after) (more : Nat) :
    deepest (opened + more) ts = deepest opened ts + more := by
  induction ts generalizing opened with
  | nil => rfl
  | cons t ts ih =>
    rw [List.foldlM_cons] at nests
    cases t with
    | openParen =>
      rw [deepest, deepest, Nat.add_right_comm]
      exact ih nests
    | closeParen =>
      cases opened with
      | zero => cases nests
      | succ opened =>
        have less : opened + 1 + more - 1 = opened + more := by omega
        have step : deepest (opened + more) ts = deepest opened ts + more := ih nests
        rw [deepest, deepest, less, step]
        simp only [Nat.add_sub_cancel]
        omega
    | _ => exact ih nests

theorem deepest_parenthesized {ts : List Token} (balanced : Balanced ts) :
    deepest 0 (.openParen :: ts ++ [.closeParen]) = deepest 0 ts + 1 := by
  have least := le_deepest 1 ts
  calc
    deepest 0 (.openParen :: ts ++ [.closeParen]) = deepest 1 (ts ++ [.closeParen]) := rfl
    _ = max (deepest 1 ts) (deepest 1 [.closeParen]) := deepest_append (balanced 1) _
    _ = deepest 1 ts := Nat.max_eq_left least
    _ = deepest 0 ts + 1 := deepest_add (balanced 0) 1

theorem deepest_separated {ls rs : List Token} (balanced : Balanced ls) {separator : Token}
    (open' : separator ≠ .openParen) (close : separator ≠ .closeParen) :
    deepest 0 (ls ++ separator :: rs) = max (deepest 0 ls) (deepest 0 rs) := by
  rw [deepest_append (balanced 0), deepest_cons_of_ne open' close]

namespace Expr

/-- The greatest number of nodes on a way from the root to a leaf. -/
def height : {k : Kind} → Expr k → Nat
  | _, .const _ => 0
  | _, .var _ => 0
  | _, .arith _ left right => max left.height right.height + 1
  | _, .compare _ left right => max left.height right.height + 1
  | _, .logic _ left right => max left.height right.height + 1

theorem deepest_node {ls rs : List Token} {a b : Nat} {separator : Token}
    (left : ∀ opened ts, deepest opened (ls ++ ts) = max (opened + a) (deepest opened ts))
    (right : ∀ opened ts, deepest opened (rs ++ ts) = max (opened + b) (deepest opened ts))
    (open' : separator ≠ .openParen) (close : separator ≠ .closeParen) (opened : Nat)
    (ts : List Token) :
    deepest opened (.openParen :: (ls ++ separator :: rs) ++ [.closeParen] ++ ts) =
      max (opened + (max a b + 1)) (deepest opened ts) := by
  have row : .openParen :: (ls ++ separator :: rs) ++ [.closeParen] ++ ts =
      .openParen :: (ls ++ separator :: (rs ++ .closeParen :: ts)) := by simp
  have lower := le_deepest opened ts
  calc
    deepest opened (.openParen :: (ls ++ separator :: rs) ++ [.closeParen] ++ ts) =
        deepest (opened + 1) (ls ++ separator :: (rs ++ .closeParen :: ts)) := by
      rw [row, deepest]
    _ = max (opened + 1 + a) (deepest (opened + 1) (rs ++ .closeParen :: ts)) := by
      rw [left, deepest_cons_of_ne open' close]
    _ = max (opened + 1 + a) (max (opened + 1 + b) (max (opened + 1) (deepest opened ts))) := by
      rw [right, deepest, Nat.add_sub_cancel]
    _ = max (opened + (max a b + 1)) (deepest opened ts) := by omega

theorem deepest_literal {k : Kind} (value : k.Carrier) (opened : Nat) (ts : List Token) :
    deepest opened (k.tokens value ++ ts) = deepest opened ts := by
  match k, value with
  | .number n, value =>
    have nest := (n.denotes_unsigned value).nest 0
    have open' : n.unsigned value ≠ .openParen := fun same => by rw [same] at nest; cases nest
    have close : n.unsigned value ≠ .closeParen := fun same => by rw [same] at nest; cases nest
    rw [Kind.tokens]
    split
    · calc
        deepest opened (.arithmetic .sub :: n.unsigned value :: ts) =
            deepest opened (n.unsigned value :: ts) :=
          deepest_cons_of_ne (by simp) (by simp) opened _
        _ = deepest opened ts := deepest_cons_of_ne open' close opened ts
    · exact deepest_cons_of_ne open' close opened ts
  | .string, _ | .instant, _ | .boolean, _ => rfl

theorem deepest_tokens {k : Kind} (e : Expr k) (opened : Nat) (ts : List Token) :
    deepest opened (e.tokens ++ ts) = max (opened + e.height) (deepest opened ts) := by
  induction e generalizing opened ts with
  | const value =>
    rw [tokens, deepest_literal, height, Nat.add_zero, Nat.max_eq_right (le_deepest opened ts)]
  | var name =>
    have serves := (Name.ofText name).readsName_tokens.serves .string
    rw [tokens, deepest_append_of_not_mem (fun present => by cases serves _ present)
      (fun present => by cases serves _ present), height, Nat.add_zero,
      Nat.max_eq_right (le_deepest opened ts)]
  | arith op left right ih ih' => exact deepest_node ih ih' (by simp) (by simp) opened ts
  | compare op left right ih ih' => exact deepest_node ih ih' (by simp) (by simp) opened ts
  | logic op left right ih ih' => exact deepest_node ih ih' (by simp) (by simp) opened ts

end Expr

/-- The parentheses of a printed expression nest as deep as the tree is high. -/
theorem Source.depth_text {k : Kind} {e : Expr k} (written : e.IsWritten) :
    depth e.text = e.height := by
  rcases exists_tokens_text written with ⟨located, found, row⟩
  have deep := e.deepest_tokens 0 []
  rw [List.append_nil] at deep
  simp only [depth, found, row, deep, deepest]
  omega

end Formula
