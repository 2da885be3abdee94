import Formula.Proofs.Rule.Condition
import Formula.Proofs.Rule.Mismatch
import Formula.Proofs.Rule.Room

/-! The trace of a condition that fails: every alternative of the term at fault, and those of the
terms in its parentheses. -/

namespace Formula

open Rule

/-- A failure of an alternative, under the labels of all the choices that it was tried for. -/
structure Failure where
  path : String
  error : ParseError

namespace Failure

def line (f : Failure) : String := s!"{f.path}: {f.error.message}"

def within (label : String) (f : Failure) : Failure := ⟨s!"{label} > {f.path}", f.error⟩

theorem line_within (label : String) (f : Failure) :
    (f.within label).line = s!"{label} > {f.line}" := by
  simp [line, within, toString, String.append_assoc]

def offsets (failures : List Failure) : Set Nat := {o | ∃ f ∈ failures, f.error.offset = o}

variable {failures failures' : List Failure}

theorem offsets_append : offsets (failures ++ failures') = offsets failures ∪ offsets failures' := by
  ext o
  simp [offsets, or_and_right, exists_or]

theorem offsets_within (label : String) :
    offsets (failures.map (within label)) = offsets failures := by
  simp [offsets, within]

end Failure

structure Tells (start : Nat) (label : String) (e : ParseError) (failures : List Failure) :
    Prop where
  lines : e.linesUnder label = failures.map Failure.line
  furthest : IsGreatest (insert start (Failure.offsets failures)) (max start e.offset)

section Tells

variable {start furthest : Nat} {label : String} {c : Cursor} {e : ParseError}
  {failures : List Failure}

theorem tells_mismatch (mismatch : e.IsMismatch c) : Tells start label e [⟨label, e⟩] where
  lines := mismatch.linesUnder label
  furthest := by
    have alone : Failure.offsets [⟨label, e⟩] = {e.offset} := by
      ext o
      simp [Failure.offsets, eq_comm]
    rw [alone]
    exact isGreatest_singleton.insert start

theorem tells_choice
    (greatest : IsGreatest (insert start (Failure.offsets failures)) (max start furthest)) :
    Tells start label (.noMatchingAlternative furthest (failures.map Failure.line))
      (failures.map (Failure.within label)) where
  lines := by
    simp only [ParseError.linesUnder, List.map_map]
    exact List.map_congr_left fun f _ => (f.line_within label).symm
  furthest := by
    rw [Failure.offsets_within]
    exact greatest

inductive TellsAll (start : Nat) : List String → List ParseError → List Failure → Prop
  | nil : TellsAll start [] [] []
  | cons {label : String} {e : ParseError} {labels : List String} {errors : List ParseError}
      {failures failures' : List Failure} :
      Tells start label e failures → TellsAll start labels errors failures' →
      TellsAll start (label :: labels) (e :: errors) (failures ++ failures')

namespace TellsAll

variable {labels : List String} {errors : List ParseError}

theorem lines (tells : TellsAll start labels errors failures) :
    linesOf labels errors = failures.map Failure.line := by
  induction tells with
  | nil => rfl
  | @cons label e labels errors failures failures' first _ ih =>
    calc
      linesOf (label :: labels) (e :: errors) = e.linesUnder label ++ linesOf labels errors := rfl
      _ = (failures ++ failures').map Failure.line := by rw [first.lines, ih, List.map_append]

theorem max_mem (tells : TellsAll start labels errors failures) (present : e ∈ errors) :
    max start e.offset ∈ insert start (Failure.offsets failures) := by
  induction tells with
  | nil => cases present
  | cons first _ ih =>
    rw [Failure.offsets_append]
    rcases List.mem_cons.mp present with rfl | present
    · exact Set.insert_subset_insert Set.subset_union_left first.furthest.1
    · exact Set.insert_subset_insert Set.subset_union_right (ih present)

theorem exists_le_max (tells : TellsAll start labels errors failures) {o : Nat}
    (present : o ∈ Failure.offsets failures) : ∃ e ∈ errors, o ≤ max start e.offset := by
  induction tells with
  | nil =>
    rcases present with ⟨f, none, -⟩
    cases none
  | @cons label e labels errors failures failures' first _ ih =>
    rw [Failure.offsets_append] at present
    rcases present with within | within
    · exact ⟨e, List.mem_cons_self .., first.furthest.2 (Set.mem_insert_of_mem start within)⟩
    · rcases ih within with ⟨e', among, bound⟩
      exact ⟨e', List.mem_cons_of_mem e among, bound⟩

theorem isGreatest (tells : TellsAll start labels errors failures)
    (greatest : IsFurthest start errors furthest) :
    IsGreatest (insert start (Failure.offsets failures)) furthest := by
  rcases greatest with ⟨attained, bound⟩
  have above : start ≤ furthest := bound (Set.mem_insert _ _)
  have top {e : ParseError} (among : e ∈ errors) : max start e.offset ≤ furthest :=
    max_le above (bound (Set.mem_insert_of_mem start ⟨e, among, rfl⟩))
  constructor
  · rcases attained with rfl | ⟨e, among, rfl⟩
    · exact Set.mem_insert _ _
    · have reached := tells.max_mem among
      rwa [max_eq_right above] at reached
  · rintro o (rfl | within)
    · exact above
    · rcases tells.exists_le_max within with ⟨e, among, le⟩
      exact le.trans (top among)

end TellsAll

end Tells

/-- A term is due at the cursor: at the start of a row, or behind a condition and a connective. -/
inductive IsDue (start : Cursor) : Cursor → Prop
  | first : IsDue start start
  | next {front rest : List Located} {t : Located} {op : Connective} {e : Expr .boolean} :
      start.tokens = front ++ t :: rest → t.token = .connective op →
      ReadsCondition Selected .chain (front.map Located.token) e → IsDue start ⟨rest, start.stop⟩

namespace IsDue

variable {start c : Cursor}

theorem exists_append (due : IsDue start c) :
    ∃ taken, start = ⟨taken ++ c.tokens, c.stop⟩ ∧ Balanced (taken.map Located.token) := by
  cases due with
  | first => exact ⟨[], rfl, balanced_nil⟩
  | @next front rest t op e split connective reads =>
    rcases start with ⟨tokens, stop⟩
    refine ⟨front ++ [t], by rw [← List.append_cons]; exact congrArg (Cursor.mk · stop) split, ?_⟩
    rw [List.map_append, List.map_singleton, connective]
    exact balanced_append reads.balanced (balanced_cons (fun _ => rfl) balanced_nil)

theorem length_le (due : IsDue start c) : c.tokens.length ≤ start.tokens.length := by
  rcases due.exists_append with ⟨taken, rfl, -⟩
  simp

theorem hasRoom {depth : Nat} (due : IsDue start c) (room : Source.HasRoom depth start) :
    Source.HasRoom depth c := by
  rcases due.exists_append with ⟨taken, rfl, balanced⟩
  exact room.behind balanced

theorem isMismatch {e : ParseError} (due : IsDue start c) (mismatch : e.IsMismatch c) :
    e.IsMismatch start := by
  rcases due.exists_append with ⟨taken, rfl, -⟩
  exact mismatch.behind taken

end IsDue

namespace Ordered

def pick {α : Type} (string instant int long double : α) : Ordered → α
  | .string => string
  | .instant => instant
  | .number (.whole .int) => int
  | .number (.whole .long) => long
  | .number .double => double

theorem forall_iff {p : Ordered → Prop} :
    (∀ o, p o) ↔ p .string ∧ p .instant ∧ p (.number (.whole .int)) ∧ p (.number (.whole .long)) ∧
      p (.number .double) := by
  constructor
  · exact fun all => ⟨all _, all _, all _, all _, all _⟩
  · rintro ⟨string, instant, int, long, double⟩ o
    cases o with
    | string => exact string
    | instant => exact instant
    | number n =>
      cases n with
      | double => exact double
      | whole width =>
        cases width with
        | int => exact int
        | long => exact long

end Ordered

structure PlainFail (c : Cursor) (comparisons : Ordered → ParseError) (literal named : ParseError) :
    Prop where
  comparison : ∀ o, FailsWith (comparison o) c (comparisons o)
  literal : FailsWith booleanLiteral c literal
  named : FailsWith (name : Rule (Expr .boolean)) c named

def comparisonFailures (comparisons : Ordered → ParseError) : List Failure :=
  [⟨"string", comparisons .string⟩, ⟨"date-time", comparisons .instant⟩,
    ⟨"int", comparisons (.number (.whole .int))⟩, ⟨"long", comparisons (.number (.whole .long))⟩,
    ⟨"double", comparisons (.number .double)⟩]

theorem offsets_comparisonFailures (comparisons : Ordered → ParseError) :
    Failure.offsets (comparisonFailures comparisons) = {q | ∃ o, (comparisons o).offset = q} := by
  ext q
  constructor
  · rintro ⟨f, present, rfl⟩
    simp only [comparisonFailures, List.mem_cons, List.not_mem_nil, or_false] at present
    rcases present with rfl | rfl | rfl | rfl | rfl <;> exact ⟨_, rfl⟩
  · rintro ⟨o, rfl⟩
    let label := Ordered.pick "string" "date-time" "int" "long" "double"
    have present : ∀ o, ⟨label o, comparisons o⟩ ∈ comparisonFailures comparisons := by
      simp [Ordered.forall_iff, comparisonFailures, label, Ordered.pick]
    exact ⟨_, present o, rfl⟩

def termFailures (comparisons : Ordered → ParseError) (enclosed : List Failure)
    (literal named : ParseError) : List Failure :=
  (comparisonFailures comparisons).map (Failure.within "comparison") ++
    (enclosed ++ [⟨"boolean literal", literal⟩, ⟨"boolean variable", named⟩])

theorem PlainFail.isMismatch_of_mem {c : Cursor} {comparisons : Ordered → ParseError}
    {literal named : ParseError} {enclosed : List Failure}
    (plain : PlainFail c comparisons literal named) (inside : ∀ f ∈ enclosed, f.error.IsMismatch c) :
    ∀ f ∈ termFailures comparisons enclosed literal named, f.error.IsMismatch c := by
  have compared (o : Ordered) : (comparisons o).IsMismatch c := by
    rcases plain.comparison o with ⟨left, failed⟩
    exact mismatches_comparison o _ _ _ failed
  rcases plain with ⟨-, ⟨_, literal⟩, ⟨_, named⟩⟩
  intro f present
  simp only [termFailures, comparisonFailures, Failure.within, List.map_cons, List.map_nil,
    List.cons_append, List.nil_append, List.mem_cons, List.mem_append, List.not_mem_nil,
    or_false] at present
  rcases present with rfl | rfl | rfl | rfl | rfl | within | rfl | rfl
  · exact compared _
  · exact compared _
  · exact compared _
  · exact compared _
  · exact compared _
  · exact inside f within
  · exact mismatches_take _ _ _ literal
  · exact mismatches_name _ _ _ named

/-- All failures of a term that is tried at the cursor. In the parentheses at which it starts, there
may be another term that fails, in the parentheses of which there may be another one, and so on for
some number of terms. -/
inductive Tried : Nat → Cursor → List Failure → Prop
  | flat {c : Cursor} {comparisons : Ordered → ParseError} {enclosed literal named : ParseError} :
      PlainFail c comparisons literal named → FailsWith (parenthesized condition) c enclosed →
      enclosed.IsMismatch c →
      Tried 0 c (termFailures comparisons [⟨"parenthesized", enclosed⟩] literal named)
  | nested {k furthest : Nat} {c inner : Cursor} {t : Located} {rest : List Located}
      {comparisons : Ordered → ParseError} {literal named : ParseError} {failures : List Failure} :
      PlainFail c comparisons literal named →
      FailsWith (parenthesized condition) c
        (.noMatchingAlternative furthest (failures.map Failure.line)) →
      c.tokens = t :: rest → t.token = .openParen → IsDue ⟨rest, c.stop⟩ inner →
      Tried k inner failures →
      Tried (k + 1) c
        (termFailures comparisons (failures.map (Failure.within "parenthesized")) literal named)

namespace Tried

variable {k depth : Nat} {c : Cursor} {failures : List Failure}

theorem length_eq (tried : Tried k c failures) : failures.length = 8 + 7 * k := by
  induction tried with
  | flat _ _ _ => rfl
  | nested _ _ _ _ _ _ ih =>
    simp only [termFailures, comparisonFailures, List.length_append, List.length_map,
      List.length_cons, List.length_nil, ih]
    omega

theorem le_of_hasRoom (tried : Tried k c failures) (room : Source.HasRoom depth c) : k ≤ depth := by
  induction tried generalizing depth with
  | flat _ _ _ => exact Nat.zero_le depth
  | @nested k furthest c inner t rest _ _ _ _ _ _ split opens due _ ih =>
    rcases c with ⟨tokens, stop⟩
    cases split
    cases depth with
    | zero => exact (Source.nests_hasRoom_zero.inside opens room).elim
    | succ depth =>
      exact Nat.succ_le_succ (ih (due.hasRoom ((Source.nests_hasRoom depth).inside opens room)))

theorem isMismatch (tried : Tried k c failures) : ∀ f ∈ failures, f.error.IsMismatch c := by
  induction tried with
  | flat plain _ mismatch =>
    exact plain.isMismatch_of_mem (List.forall_mem_singleton.mpr mismatch)
  | @nested k furthest c inner t rest _ _ _ failures plain _ split _ due _ ih =>
    apply plain.isMismatch_of_mem
    intro f within
    rcases List.mem_map.mp within with ⟨f, present, rfl⟩
    rcases c with ⟨tokens, stop⟩
    cases split
    exact (due.isMismatch (ih f present)).behind [t]

end Tried

namespace Rule

variable {α : Type} {c left : Cursor} {e : ParseError}

theorem isMismatch_or_exists_of_parenthesized {inner : Rule α} (advances : Advances inner)
    (failed : FailsWith (parenthesized inner) c e) :
    e.IsMismatch c ∨ ∃ t rest, c.tokens = t :: rest ∧ t.token = .openParen ∧
      FailsWith inner ⟨rest, c.stop⟩ e := by
  rcases failed with ⟨left, failed⟩
  rcases bind_eq_error_iff.mp failed with opens | ⟨_, ⟨rest, stop⟩, opens, behind⟩
  · exact .inl (mismatches_take _ _ _ opens)
  · rcases expect_eq_ok_iff.mp opens with ⟨t, rfl, isOpen⟩
    rcases bind_eq_error_iff.mp behind with inside | ⟨a, between, found, closes⟩
    · exact .inr ⟨t, rest, rfl, isOpen, left, inside⟩
    · rcases advances _ _ _ found with ⟨taken, split, -⟩
      cases split
      rcases bind_eq_error_iff.mp closes with closes | ⟨_, _, _, made⟩
      · exact .inl ((mismatches_take _ _ _ closes).behind (t :: taken))
      · cases made

theorem offset_eq_of_take {expected : String} {read : Token → Option α}
    (failed : FailsWith (take expected read) c e) : e.offset = c.offset := by
  rcases failed with ⟨left, failed⟩
  rcases c with ⟨tokens, stop⟩
  cases tokens with
  | nil =>
    cases failed
    rfl
  | cons t rest =>
    rw [take_cons] at failed
    split at failed <;> cases failed
    rfl

theorem takes_term : Takes term fun ts _ e => ReadsCondition Selected .term ts e := by
  intro c e after found
  have takes := takes_termOver ((takes_conditionWithin c.tokens.length).mono
    fun _ _ _ reads short => reads (Nat.le_of_lt short))
  rcases takes c e after found with ⟨taken, rfl, reads⟩
  exact ⟨taken, rfl, reads (by simp)⟩

theorem exists_isDue_of_chainFrom (steps : Nat) {start : Cursor} {front : List Located}
    {value : Expr .boolean} (split : start = ⟨front ++ c.tokens, c.stop⟩)
    (reads : ReadsCondition Selected .chain (front.map Located.token) value)
    (failed : chainFrom term joinCondition steps value c = .error e left) :
    ∃ inner, IsDue start inner ∧ FailsWith term inner e := by
  induction steps generalizing front value c with
  | zero => cases failed
  | succ steps ih =>
    rcases c with ⟨tokens, stop⟩
    cases tokens with
    | nil => cases failed
    | cons t rest =>
      rw [chainFrom_cons] at failed
      split at failed
      · cases failed
      · rename_i combine joins
        rcases joinCondition_eq_some_iff.mp joins with ⟨op, connective, rfl⟩
        subst split
        rcases bind_eq_error_iff.mp failed with here | ⟨right, between, found, later⟩
        · exact ⟨⟨rest, stop⟩, .next rfl connective reads, left, here⟩
        · rcases takes_term _ _ _ found with ⟨taken, behind, reads'⟩
          cases behind
          have joined : ReadsCondition Selected .chain
              ((front ++ t :: taken).map Located.token) (.logic op value right) := by
            rw [List.map_append, List.map_cons, connective]
            exact .joined reads reads'
          exact ih (by simp) joined later

theorem exists_isDue_of_condition (failed : FailsWith condition c e) :
    ∃ inner, IsDue c inner ∧ FailsWith term inner e := by
  rcases failed with ⟨left, failed⟩
  rw [condition_eq, chain_eq_bind] at failed
  rcases bind_eq_error_iff.mp failed with failed | ⟨value, between, found, failed⟩
  · exact ⟨c, .first, left, failed⟩
  · rcases takes_term _ _ _ found with ⟨taken, split, reads⟩
    exact exists_isDue_of_chainFrom _ split (.term reads) failed

theorem exists_of_relation_failsWith (failed : FailsWith relation c e) :
    ∃ comparisons furthest, (∀ o, FailsWith (comparison o) c (comparisons o)) ∧
      e = .noMatchingAlternative furthest ((comparisonFailures comparisons).map Failure.line) ∧
      IsGreatest (insert c.offset (Failure.offsets (comparisonFailures comparisons))) furthest := by
  rw [relation_eq] at failed
  rcases exists_of_choice_eq_error failed with ⟨errors, furthest, fail, rfl, greatest⟩
  simp only [List.forall₂_cons_left_iff, List.forall₂_nil_left_iff] at fail
  rcases fail with ⟨e₁, _, string, ⟨e₂, _, instant, ⟨e₃, _, int, ⟨e₄, _, long, ⟨e₅, _, double, rfl,
    rfl⟩, rfl⟩, rfl⟩, rfl⟩, rfl⟩
  let comparisons := Ordered.pick e₁ e₂ e₃ e₄ e₅
  have fails : ∀ o, FailsWith (comparison o) c (comparisons o) :=
    Ordered.forall_iff.mpr ⟨string, instant, int, long, double⟩
  have one {label : String} (o : Ordered) :
      Tells c.offset label (comparisons o) [⟨label, comparisons o⟩] := by
    rcases fails o with ⟨left, failed⟩
    exact tells_mismatch (mismatches_comparison o _ _ _ failed)
  have all : TellsAll c.offset ["string", "date-time", "int", "long", "double"]
      [e₁, e₂, e₃, e₄, e₅] (comparisonFailures comparisons) :=
    .cons (one .string) (.cons (one .instant) (.cons (one (.number (.whole .int)))
      (.cons (one (.number (.whole .long))) (.cons (one (.number .double)) .nil))))
  exact ⟨comparisons, furthest, fails, congrArg _ all.lines, all.isGreatest greatest⟩

/-- All alternatives of a term that fails do, and what is in its parentheses completes the trace. -/
theorem exists_of_term_failsWith (failed : FailsWith term c e) :
    ∃ comparisons enclosed literal named furthest, PlainFail c comparisons literal named ∧
      FailsWith (parenthesized condition) c enclosed ∧
      ∀ inside, Tells c.offset "parenthesized" enclosed inside →
        e = .noMatchingAlternative furthest
          ((termFailures comparisons inside literal named).map Failure.line) ∧
        IsGreatest (Failure.offsets (termFailures comparisons inside literal named)) furthest := by
  rw [term_eq] at failed
  rcases exists_of_choice_eq_error failed with ⟨errors, furthest, fail, rfl, greatest⟩
  simp only [List.forall₂_cons_left_iff, List.forall₂_nil_left_iff] at fail
  rcases fail with ⟨compared, _, relation, ⟨enclosed, _, parenthesis, ⟨literal, _, boolean,
    ⟨named, _, variable', rfl, rfl⟩, rfl⟩, rfl⟩, rfl⟩
  rcases exists_of_relation_failsWith relation with
    ⟨comparisons, reached, fails, rfl, greatestCompared⟩
  have start : c.offset ≤ reached := greatestCompared.2 (Set.mem_insert _ _)
  have tellsCompared : Tells c.offset "comparison" _
      ((comparisonFailures comparisons).map (Failure.within "comparison")) :=
    tells_choice (by rwa [max_eq_right start])
  have tellsLiteral : Tells c.offset "boolean literal" literal [⟨"boolean literal", literal⟩] := by
    rcases boolean with ⟨_, boolean⟩
    exact tells_mismatch (mismatches_take _ _ _ boolean)
  have tellsNamed : Tells c.offset "boolean variable" named [⟨"boolean variable", named⟩] := by
    rcases variable' with ⟨_, variable'⟩
    exact tells_mismatch (mismatches_name _ _ _ variable')
  refine ⟨comparisons, enclosed, literal, named, furthest, ⟨fails, boolean, variable'⟩, parenthesis,
    fun inside tells => ?_⟩
  have all : TellsAll c.offset
      ["comparison", "parenthesized", "boolean literal", "boolean variable"] _
      (termFailures comparisons inside literal named) :=
    .cons tellsCompared (.cons tells (.cons tellsLiteral (.cons tellsNamed .nil)))
  -- The literal fails at the start, so that the start adds no place to those of the failures.
  have present : c.offset ∈ Failure.offsets (termFailures comparisons inside literal named) :=
    ⟨⟨"boolean literal", literal⟩, by simp [termFailures], offset_eq_of_take boolean⟩
  have farthest := all.isGreatest greatest
  rw [Set.insert_eq_of_mem present] at farthest
  exact ⟨congrArg _ all.lines, farthest⟩

/-- A term that fails reports all that it tried, at the furthest offset. -/
theorem exists_tried (failed : FailsWith term c e) :
    ∃ k failures furthest, Tried k c failures ∧
      e = .noMatchingAlternative furthest (failures.map Failure.line) ∧
      IsGreatest (Failure.offsets failures) furthest := by
  -- The terms in the parentheses at the cursor have fewer tokens.
  induction length : c.tokens.length using Nat.strongRecOn generalizing c e with
  | ind size ih =>
  rcases exists_of_term_failsWith failed with
    ⟨comparisons, enclosed, literal, named, furthest, plain, parenthesis, complete⟩
  rcases isMismatch_or_exists_of_parenthesized takesBalanced_condition.advances parenthesis with
    mismatch | ⟨t, rest, split, isOpen, inside⟩
  · exact ⟨0, _, furthest, .flat plain parenthesis mismatch, complete _ (tells_mismatch mismatch)⟩
  · rcases exists_isDue_of_condition inside with ⟨inner, due, failed⟩
    have shorter : inner.tokens.length < size := by
      have bound := due.length_le
      rw [← length, split]
      exact Nat.lt_succ_of_le bound
    rcases ih _ shorter failed rfl with ⟨k, failures, furthest', tried, rfl, greatest⟩
    exact ⟨k + 1, _, furthest, .nested plain parenthesis split isOpen due tried,
      complete _ (tells_choice (greatest.insert c.offset))⟩

end Rule

end Formula
