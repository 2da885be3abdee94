import Formula.Proofs.Expr.Tokens
import Formula.Proofs.Source.Written

/-! The names and the constants of an expression. All of them stand in the row that it is read from,
and those that stand in a source can be written. -/

namespace Formula

namespace Expr

def names : {k : Kind} → Expr k → List String
  | _, .const _ => []
  | _, .var name => [name]
  | _, .arith _ left right => left.names ++ right.names
  | _, .compare _ left right => left.names ++ right.names
  | _, .logic _ left right => left.names ++ right.names

def constants : {k : Kind} → Expr k → List Value
  | k, .const value => [⟨k, value⟩]
  | _, .var _ => []
  | _, .arith _ left right => left.constants ++ right.constants
  | _, .compare _ left right => left.constants ++ right.constants
  | _, .logic _ left right => left.constants ++ right.constants

end Expr

/-- The value that a literal token is, whether or not a minus sign stands before it. -/
inductive Token.Denotes : Token → Value → Prop
  | string (text : String) : Denotes (.string text) ⟨.string, text⟩
  | instant (i : Instant) : Denotes (.instant i) ⟨.instant, i⟩
  | boolean (b : Bool) : Denotes (.boolean b) ⟨.boolean, b⟩
  | number {n : Numeric} {negative : Bool} {t : Token} {value : n.Carrier} :
      n.Denotes negative t value → Denotes t ⟨.number n, value⟩

structure LeavesIn (ts : List Token) {k : Kind} (e : Expr k) : Prop where
  names : ∀ name ∈ e.names, ∃ us, us ⊆ ts ∧ ReadsName us name
  constants : ∀ v ∈ e.constants, ∃ t ∈ ts, t.Denotes v

section Leaves

variable {k l : Kind} {ts ls rs : List Token}

theorem LeavesIn.mono {e : Expr k} (leaves : LeavesIn ts e) (wider : ts ⊆ ls) : LeavesIn ls e := by
  constructor
  · intro name present
    obtain ⟨us, inside, reads⟩ := leaves.names name present
    exact ⟨us, List.Subset.trans inside wider, reads⟩
  · intro v present
    obtain ⟨t, inside, denotes⟩ := leaves.constants v present
    exact ⟨t, wider inside, denotes⟩

theorem LeavesIn.parenthesized {e : Expr k} (leaves : LeavesIn ts e) :
    LeavesIn (.openParen :: ts ++ [.closeParen]) e :=
  leaves.mono fun t present => by simp [present]

theorem LeavesIn.node {left right : Expr k} {e : Expr l} (first : LeavesIn ls left)
    (second : LeavesIn rs right) (separator : Token)
    (names : e.names = left.names ++ right.names)
    (constants : e.constants = left.constants ++ right.constants) :
    LeavesIn (ls ++ separator :: rs) e := by
  have first := first.mono (List.subset_append_left ls (separator :: rs))
  have second := second.mono fun t present =>
    List.mem_append_right ls (List.mem_cons_of_mem separator present)
  constructor
  · rw [names]
    exact List.forall_mem_append.mpr ⟨first.names, second.names⟩
  · rw [constants]
    exact List.forall_mem_append.mpr ⟨first.constants, second.constants⟩

theorem leavesIn_var {name : String} (reads : ReadsName ts name) :
    LeavesIn ts (.var name : Expr k) :=
  ⟨by simpa [Expr.names] using ⟨ts, List.Subset.refl ts, reads⟩, by simp [Expr.constants]⟩

theorem leavesIn_const {t : Token} {value : k.Carrier} (present : t ∈ ts)
    (denotes : t.Denotes ⟨k, value⟩) : LeavesIn ts (.const value : Expr k) :=
  ⟨by simp [Expr.names], by simpa [Expr.constants] using ⟨t, present, denotes⟩⟩

theorem ReadsNumber.leavesIn {n : Numeric} {level : Level} {e : Expr (.number n)}
    (reads : ReadsNumber n level ts e) : LeavesIn ts e := by
  induction reads with
  | parenthesized _ ih => exact ih.parenthesized
  | name reads => exact leavesIn_var reads
  | literal denotes | negated denotes => exact leavesIn_const (by simp) (.number denotes)
  | factor _ ih | product _ ih => exact ih
  | scaled _ _ _ ih ih' | shifted _ _ _ ih ih' => exact ih.node ih' _ rfl rfl

theorem ReadsOperand.leavesIn {o : Ordered} {e : Expr (.ordered o)} (reads : ReadsOperand o ts e) :
    LeavesIn ts e := by
  cases reads with
  | string text => exact leavesIn_const (by simp) (.string text)
  | instant i => exact leavesIn_const (by simp) (.instant i)
  | stringName reads | instantName reads => exact leavesIn_var reads
  | number reads => exact reads.leavesIn

theorem ReadsCondition.leavesIn {allowed : Ordered → List Token → List Token → Prop}
    {clause : Clause} {e : Expr .boolean} (reads : ReadsCondition allowed clause ts e) :
    LeavesIn ts e := by
  induction reads with
  | comparison reads reads' _ => exact reads.leavesIn.node reads'.leavesIn _ rfl rfl
  | parenthesized _ ih => exact ih.parenthesized
  | literal b => exact leavesIn_const (by simp) (.boolean b)
  | name reads => exact leavesIn_var reads
  | term _ ih => exact ih
  | joined _ _ ih ih' => exact ih.node ih' _ rfl rfl

end Leaves

/-- Some literal has the value. No literal is not-a-number, but one with many digits is infinite. -/
def Kind.IsReadable : (k : Kind) → k.Carrier → Prop
  | .double, x => x ≠ .nan
  | .instant, i => i.IsWritten
  | _, _ => True

structure Expr.HasReadableLeaves {k : Kind} (e : Expr k) : Prop where
  names : ∀ name ∈ e.names, IsName name
  constants : ∀ v ∈ e.constants, v.kind.IsReadable v.content

section Readable

variable {k l : Kind} {ts : List Token} {e : Expr k}

theorem Expr.HasReadableLeaves.operands {left right : Expr l} (readable : e.HasReadableLeaves)
    (names : e.names = left.names ++ right.names)
    (constants : e.constants = left.constants ++ right.constants) :
    left.HasReadableLeaves ∧ right.HasReadableLeaves := by
  obtain ⟨named, constant⟩ := readable
  rw [names, List.forall_mem_append] at named
  rw [constants, List.forall_mem_append] at constant
  exact ⟨⟨named.1, constant.1⟩, named.2, constant.2⟩

theorem Token.Denotes.isReadable {t : Token} {v : Value} (denotes : t.Denotes v)
    (written : t.IsWritten) : v.kind.IsReadable v.content := by
  cases denotes with
  | string | boolean => trivial
  | instant i => exact written
  | @number n negative _ value denotes =>
    match n with
    | .whole _ => trivial
    | .double =>
      obtain ⟨x, rfl, rfl⟩ := denotes
      cases x with
      | nan => exact absurd rfl written
      | signed => cases negative <;> exact nofun

theorem LeavesIn.readable (leaves : LeavesIn ts e) (written : ∀ t ∈ ts, t.IsWritten) :
    e.HasReadableLeaves := by
  constructor
  · intro name present
    obtain ⟨us, inside, reads⟩ := leaves.names name present
    exact reads.isName fun text listed => written (.identifier text) (inside listed)
  · intro v present
    obtain ⟨t, inside, denotes⟩ := leaves.constants v present
    exact denotes.isReadable (written t inside)

theorem Expr.isWritten_iff {k : Kind} {e : Expr k} :
    e.IsWritten ↔
      (∀ name ∈ e.names, IsName name) ∧ ∀ v ∈ e.constants, v.kind.IsWritten v.content := by
  induction e with
  | const | var => simp [IsWritten, names, constants]
  | arith _ _ _ ih ih' | compare _ _ _ ih ih' | logic _ _ _ ih ih' =>
    rw [IsWritten, ih, ih', names, constants, List.forall_mem_append, List.forall_mem_append,
      and_and_and_comm]

end Readable

end Formula
