import Formula.Proofs.Rule.Cause
import Formula.Proofs.Source.Nesting
import Mathlib.Data.List.Induction
import Mathlib.Order.Bounds.Basic
import Mathlib.Order.MinMax

/-! The nesting limit is exact: a source is refused for it at the first parenthesis with which some
run of tokens opens more parentheses than the limit allows beyond those it closes, and for any other
source it makes no difference. -/

namespace Formula

/-- The number of parentheses that are open behind the token. One that closes nothing does not
count. -/
def Token.count (opened : Nat) : Token → Nat
  | .openParen => opened + 1
  | .closeParen => opened - 1
  | _ => opened

def counted (ts : List Token) : Nat := ts.foldl Token.count 0

/-- How many more parentheses a row opens than it closes. -/
def surplus (ts : List Token) : Int := ts.count .openParen - ts.count .closeParen

theorem counted_concat (ts : List Token) (t : Token) : counted (ts ++ [t]) = t.count (counted ts) :=
  List.foldl_concat ..

theorem surplus_concat (ts : List Token) (t : Token) :
    surplus (ts ++ [t]) = surplus ts + surplus [t] := by
  simp only [surplus, List.count_append]
  omega

/-- The count, which starts anew when a parenthesis closes nothing, is the greatest surplus of an end
of the row. -/
theorem isGreatest_counted (ts : List Token) :
    IsGreatest {n | ∃ run, run <:+ ts ∧ surplus run = n} (counted ts) := by
  induction ts using List.reverseRecOn with
  | nil =>
    refine ⟨⟨[], List.suffix_refl [], rfl⟩, fun n found => ?_⟩
    obtain ⟨run, within, rfl⟩ := found
    rw [List.suffix_nil.mp within]
    rfl
  | append_singleton ts t ih =>
    obtain ⟨⟨greatest, within, attained⟩, bound⟩ := ih
    have below (run : List Token) (within : run <:+ ts) : surplus run ≤ counted ts :=
      bound ⟨run, within, rfl⟩
    have longer : surplus (greatest ++ [t]) = counted ts + surplus [t] := by
      rw [surplus_concat, attained]
    have present : greatest ++ [t] <:+ ts ++ [t] :=
      List.suffix_concat_iff.mpr (.inr ⟨greatest, rfl, within⟩)
    -- The greatest end goes on with the token, unless the token closes nothing.
    have step : ((t.count (counted ts) : Nat) : Int) = max 0 (counted ts + surplus [t]) := by
      cases t <;> simp [Token.count, surplus] <;> omega
    rw [counted_concat, step]
    constructor
    · obtain negative | positive := le_total (counted ts + surplus [t]) 0
      · exact ⟨[], List.nil_suffix, (max_eq_left negative).symm⟩
      · exact ⟨greatest ++ [t], present, longer.trans (max_eq_right positive).symm⟩
    · intro n found
      obtain ⟨run, end', rfl⟩ := found
      obtain rfl | ⟨front, rfl, within'⟩ := List.suffix_concat_iff.mp end'
      · exact le_max_left _ _
      · rw [surplus_concat]
        exact le_max_of_le_right (Int.add_le_add_right (below front within') _)

theorem lt_counted_iff {limit : Nat} {ts : List Token} :
    limit < counted ts ↔ ∃ run, run <:+ ts ∧ (limit : Int) < surplus run := by
  obtain ⟨⟨greatest, within, attained⟩, bound⟩ := isGreatest_counted ts
  constructor
  · intro deep
    exact ⟨greatest, within, by omega⟩
  · intro found
    obtain ⟨run, within', deep⟩ := found
    have := bound ⟨run, within', rfl⟩
    omega

theorem forall_counted_le_iff {limit : Nat} {ts : List Token} :
    (∀ front, front <+: ts → counted front ≤ limit) ↔
      ∀ run, run <:+: ts → surplus run ≤ limit := by
  constructor
  · intro shallow run within
    obtain ⟨front, back, rfl⟩ := within
    by_contra deep
    have exceeds : limit < counted (front ++ run) :=
      lt_counted_iff.mpr ⟨run, List.suffix_append _ _, by omega⟩
    exact absurd (shallow _ (List.prefix_append _ _)) (Nat.not_le_of_lt exceeds)
  · intro shallow front within
    by_contra deep
    obtain ⟨run, end', exceeds⟩ := lt_counted_iff.mp (Nat.lt_of_not_le deep)
    have := shallow run (end'.isInfix.trans within.isInfix)
    omega

theorem deepest_le_iff {limit opened : Nat} {ts : List Token} :
    deepest opened ts ≤ limit ↔ ∀ front, front <+: ts → front.foldl Token.count opened ≤ limit := by
  induction ts generalizing opened with
  | nil => simp [deepest]
  | cons t ts ih =>
    have step : deepest opened (t :: ts) ≤ limit ↔
        opened ≤ limit ∧ deepest (t.count opened) ts ≤ limit := by
      have grows := le_deepest (t.count opened) ts
      cases t <;> simp only [deepest, Token.count] at grows ⊢ <;> omega
    rw [step, ih]
    constructor
    · intro both front within
      obtain rfl | ⟨front', rfl, within'⟩ := List.prefix_cons_iff.mp within
      · exact both.1
      · exact both.2 front' within'
    · intro shallow
      exact ⟨shallow [] List.nil_prefix, fun front within =>
        shallow (t :: front) (List.cons_prefix_cons.mpr ⟨rfl, within⟩)⟩

/-- The first token with which a run of tokens ends that opens more than `limit` parentheses more
than it closes. -/
def FirstTooDeep (limit : Nat) (located : List Located) (t : Located) : Prop :=
  ∃ before rest, located = before ++ t :: rest ∧ t.token = .openParen ∧
    (∃ run, run <:+ before.map Located.token ++ [t.token] ∧ (limit : Int) < surplus run) ∧
    ∀ run, run <:+: before.map Located.token → surplus run ≤ limit

namespace Source

variable {limit opened : Nat} {located : List Located} {e : ParseError}

theorem checkNesting_cons (limit opened : Nat) (t : Located) (rest : List Located) :
    checkNesting limit opened (t :: rest) =
      if t.token = .openParen ∧ limit ≤ opened then .error (.nestingTooDeep limit t.offset)
      else checkNesting limit (t.token.count opened) rest := by
  obtain ⟨token, offset⟩ := t
  cases token <;> simp [checkNesting, Token.count]

/-- The check fails at the first token behind which more parentheses are open than the limit
allows. -/
theorem exists_of_checkNesting_eq_error (room : opened ≤ limit)
    (failed : checkNesting limit opened located = .error e) :
    ∃ before t rest, located = before ++ t :: rest ∧ t.token = .openParen ∧
      e = .nestingTooDeep limit t.offset ∧
      limit < ((before.map Located.token) ++ [t.token]).foldl Token.count opened ∧
      ∀ front, front <+: before.map Located.token → front.foldl Token.count opened ≤ limit := by
  induction located generalizing opened with
  | nil => cases failed
  | cons t rest ih =>
    rw [checkNesting_cons] at failed
    split at failed
    · rename_i exceeds
      cases failed
      refine ⟨[], t, rest, rfl, exceeds.1, rfl, ?_, fun front within => ?_⟩
      · simp only [exceeds.1, List.map_nil, List.nil_append, List.foldl_cons, List.foldl_nil,
          Token.count]
        exact Nat.lt_succ_of_le exceeds.2
      · rw [List.prefix_nil.mp within]
        exact room
    · rename_i fits
      have next : t.token.count opened ≤ limit := by
        cases token : t.token with
        | openParen => exact Nat.lt_of_not_le fun full => fits ⟨token, full⟩
        | closeParen => exact Nat.le_trans (Nat.sub_le opened 1) room
        | _ => exact room
      obtain ⟨before, t', rest', rfl, opens, rfl, exceeds, shallow⟩ := ih next failed
      refine ⟨t :: before, t', rest', rfl, opens, rfl, exceeds, fun front within => ?_⟩
      obtain rfl | ⟨front', rfl, within'⟩ := List.prefix_cons_iff.mp within
      · exact room
      · exact shallow front' within'

theorem checkNesting_eq_ok_iff_forall : checkNesting limit 0 located = .ok () ↔
    ∀ run, run <:+: located.map Located.token → surplus run ≤ limit :=
  calc
    checkNesting limit 0 located = .ok () ↔ deepest 0 (located.map Located.token) ≤ limit :=
      checkNesting_eq_ok_iff
    _ ↔ ∀ front, front <+: located.map Located.token → counted front ≤ limit := deepest_le_iff
    _ ↔ ∀ run, run <:+: located.map Located.token → surplus run ≤ limit := forall_counted_le_iff

theorem exists_firstTooDeep (failed : checkNesting limit 0 located = .error e) :
    ∃ t, FirstTooDeep limit located t ∧ e = .nestingTooDeep limit t.offset := by
  obtain ⟨before, t, rest, shape, opens, cause, exceeds, shallow⟩ :=
    exists_of_checkNesting_eq_error (Nat.zero_le limit) failed
  exact ⟨t, ⟨before, rest, shape, opens, lt_counted_iff.mp exceeds,
    forall_counted_le_iff.mp shallow⟩, cause⟩

theorem complete_ne_nestingTooDeep (goal : Goal) (start : Cursor) (max offset : Nat) :
    complete goal.rule start ≠ .error (.nestingTooDeep max offset) := by
  intro failed
  unfold complete at failed
  split at failed
  · rename_i e left refused
    cases failed
    cases Goal.isRefusal_of_rule refused
  · split at failed <;> cases failed

end Source

namespace Expr

variable {goal : Goal} {source : String} {located : List Located} {limit max offset : Nat}

theorem ofSource_eq_complete (found : Source.tokens source = .ok located)
    (shallow : ∀ run, run <:+: located.map Located.token → surplus run ≤ limit) :
    ofSource goal limit source = Source.complete goal.rule ⟨located, source.utf8ByteSize⟩ := by
  rw [ofSource, Source.parse_eq_parseTokens found, Source.parseTokens,
    Source.checkNesting_eq_ok_iff_forall.mpr shallow]
  rfl

theorem exists_firstTooDeep_of_ofSource (goal : Goal) (found : Source.tokens source = .ok located)
    (deep : ¬ ∀ run, run <:+: located.map Located.token → surplus run ≤ limit) :
    ∃ t, FirstTooDeep limit located t ∧
      ofSource goal limit source = .error (.nestingTooDeep limit t.offset) := by
  cases checked : Source.checkNesting limit 0 located with
  | ok u => exact absurd (Source.checkNesting_eq_ok_iff_forall.mp checked) deep
  | error e =>
    obtain ⟨t, first, rfl⟩ := Source.exists_firstTooDeep checked
    refine ⟨t, first, ?_⟩
    rw [ofSource, Source.parse_eq_parseTokens found, Source.parseTokens, checked]
    rfl

/-- A source that consists of tokens is too deep if some run of them opens more parentheses than it
closes and the limit allows. The error then names the limit and the first parenthesis that ends such
a run. For any other source, a greater limit has the same outcome. -/
theorem ofSource_limit_exact (goal : Goal) (found : Source.tokens source = .ok located)
    (limit : Nat) :
    ((∃ max offset, ofSource goal limit source = .error (.nestingTooDeep max offset)) ↔
      ∃ run, run <:+: located.map Located.token ∧ (limit : Int) < surplus run) ∧
    (∀ max offset, ofSource goal limit source = .error (.nestingTooDeep max offset) →
      max = limit ∧ ∃ t, FirstTooDeep limit located t ∧ t.offset = offset) ∧
    ((¬ ∃ max offset, ofSource goal limit source = .error (.nestingTooDeep max offset)) →
      ∀ larger, limit ≤ larger → ofSource goal larger source = ofSource goal limit source) := by
  by_cases shallow : ∀ run, run <:+: located.map Located.token → surplus run ≤ limit
  · have within : ofSource goal limit source = _ := ofSource_eq_complete found shallow
    have passes : ¬ ∃ max offset,
        ofSource goal limit source = .error (.nestingTooDeep max offset) := by
      intro failed
      obtain ⟨max, offset, failed⟩ := failed
      exact Source.complete_ne_nestingTooDeep goal _ max offset (within.symm.trans failed)
    refine ⟨iff_of_false passes ?_, fun max offset failed => absurd ⟨max, offset, failed⟩ passes,
      fun _ larger more => ?_⟩
    · intro found
      obtain ⟨run, present, deep⟩ := found
      exact absurd (shallow run present) (Int.not_le_of_gt deep)
    · have shallow' : ∀ run, run <:+: located.map Located.token → surplus run ≤ larger :=
        fun run present => (shallow run present).trans (Int.ofNat_le.mpr more)
      exact (ofSource_eq_complete found shallow').trans within.symm
  · obtain ⟨t, first, failed⟩ := exists_firstTooDeep_of_ofSource goal found shallow
    refine ⟨iff_of_true ⟨limit, t.offset, failed⟩ ?_, fun max offset failed' => ?_, ?_⟩
    · push Not at shallow
      exact shallow
    · rw [failed] at failed'
      cases failed'
      exact ⟨rfl, t, first, rfl⟩
    · exact fun passes => absurd ⟨limit, t.offset, failed⟩ passes

def unclosed : List Located :=
  [⟨.openParen, 0⟩, ⟨.openParen, 1⟩, ⟨.closeParen, 2⟩, ⟨.openParen, 3⟩]

theorem ofSource_unclosed :
    Source.tokens "(()(" = .ok unclosed ∧ (∃ t, FirstTooDeep 1 unclosed t ∧ t.offset = 1) ∧
      ∀ larger, 2 ≤ larger → ofSource .boolean larger "(()(" = ofSource .boolean 2 "(()(" := by
  have found : Source.tokens "(()(" = .ok unclosed := rfl
  have failed : ofSource .boolean 1 "(()(" = .error (.nestingTooDeep 1 1) := by
    rw [ofSource, Source.parse_eq_parseTokens found]
    rfl
  have passes :
      ¬ ∃ max offset, ofSource .boolean 2 "(()(" = .error (.nestingTooDeep max offset) := by
    intro failed
    obtain ⟨max, offset, failed⟩ := failed
    rw [ofSource, Source.parse_eq_parseTokens found] at failed
    exact Source.complete_ne_nestingTooDeep .boolean ⟨unclosed, 4⟩ max offset failed
  exact ⟨found, ((ofSource_limit_exact .boolean found 1).2.1 1 1 failed).2,
    (ofSource_limit_exact .boolean found 2).2.2 passes⟩

end Expr
end Formula
