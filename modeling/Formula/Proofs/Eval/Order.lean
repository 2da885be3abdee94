import Formula.Proofs.Eval.Parts
import Formula.Proofs.Text.Order

/-! The relations between values of one kind belong to one order, in which only not-a-number has no
place. -/

namespace Formula

namespace Relation

def negation : Relation → Relation
  | .eq => .ne
  | .ne => .eq
  | .lt => .ge
  | .le => .gt
  | .gt => .le
  | .ge => .lt

def mirror : Relation → Relation
  | .eq => .eq
  | .ne => .ne
  | .lt => .gt
  | .le => .ge
  | .gt => .lt
  | .ge => .le

variable {op : Relation}

theorem holds_mirror_swap (op : Relation) (order : Option Ordering) :
    op.mirror.holds (order.map Ordering.swap) = op.holds order := by
  cases op <;> cases order with
  | none => rfl
  | some order => cases order <;> rfl

theorem holds_negation_some (op : Relation) (order : Ordering) :
    op.negation.holds (some order) = !op.holds (some order) := by
  cases op <;> cases order <;> rfl

theorem holds_negation (equality : op = .eq ∨ op = .ne) (order : Option Ordering) :
    op.negation.holds order = !op.holds order := by
  obtain rfl | rfl := equality
  · rfl
  · exact (Bool.not_not _).symm

def ofOrdering : Ordering → Relation
  | .lt => .lt
  | .eq => .eq
  | .gt => .gt

theorem mem_and_holds_iff (op : Relation) (order : Ordering) :
    (op ∈ [eq, lt, gt] ∧ op.holds (some order)) ↔ op = ofOrdering order := by
  cases op <;> cases order <;> decide

theorem holds_lt_iff {order : Option Ordering} : lt.holds order ↔ order = some .lt := by
  simp [holds]

theorem holds_le_iff {order : Option Ordering} :
    le.holds order ↔ ∃ known, order = some known ∧ known.isLE := by
  cases order with
  | none => simp [holds]
  | some known => cases known <;> simp [holds]

end Relation

namespace Ordered

@[reducible] def Position : Ordered → Type
  | .string => List Nat
  | .instant => Int
  | .number _ => Int

instance : (o : Ordered) → Ord o.Position
  | .string => inferInstanceAs (Ord (List Nat))
  | .instant => inferInstanceAs (Ord Int)
  | .number _ => inferInstanceAs (Ord Int)

instance : (o : Ordered) → Std.TransOrd o.Position
  | .string => inferInstanceAs (Std.TransOrd (List Nat))
  | .instant => inferInstanceAs (Std.TransOrd Int)
  | .number _ => inferInstanceAs (Std.TransOrd Int)

def position? : (o : Ordered) → o.Carrier → Option o.Position
  | .string, text => some (codePoints text)
  | .instant, i => some i.rank
  | .number (.whole _), n => some n.val
  | .number .double, x => x.rank

/-- The value is no number, although its kind is one of numbers. -/
def IsNan : (o : Ordered) → o.Carrier → Prop
  | .number .double, x => x = .nan
  | _, _ => False

variable {o : Ordered} {a b c : o.Carrier}

theorem exists_position (number : ¬ o.IsNan a) : ∃ p, o.position? a = some p := by
  match o, a with
  | .string, text => exact ⟨_, rfl⟩
  | .instant, i => exact ⟨_, rfl⟩
  | .number (.whole _), n => exact ⟨_, rfl⟩
  | .number .double, .nan => exact absurd rfl number
  | .number .double, .signed false magnitude => exact ⟨_, rfl⟩
  | .number .double, .signed true magnitude => exact ⟨_, rfl⟩

theorem compare_eq_positions (a b : o.Carrier) :
    o.compare a b = (o.position? a).bind fun p => (o.position? b).map (Ord.compare p) := by
  match o, a, b with
  | .string, text, text' => exact compare_string_eq text text'
  | .instant, i, j => exact congrArg some (i.compare_eq_rank j)
  | .number (.whole _), n, n' => rfl
  | .number .double, x, y =>
    change Double.compare x y = x.rank.bind fun p => y.rank.map (Ord.compare p)
    rw [Double.compare]
    cases x.rank <;> cases y.rank <;> rfl

theorem compare_swap (a b : o.Carrier) : o.compare b a = (o.compare a b).map Ordering.swap := by
  rw [compare_eq_positions, compare_eq_positions]
  cases o.position? a with
  | none => cases o.position? b <;> rfl
  | some p =>
    cases o.position? b with
    | none => rfl
    | some q => exact congrArg some Std.OrientedOrd.eq_swap

theorem exists_compare (number : ¬ o.IsNan a) (number' : ¬ o.IsNan b) :
    ∃ order, o.compare a b = some order := by
  obtain ⟨p, place⟩ := exists_position number
  obtain ⟨q, place'⟩ := exists_position number'
  exact ⟨Ord.compare p q, by rw [compare_eq_positions, place, place']; rfl⟩

theorem compare_eq_some_iff {order : Ordering} :
    o.compare a b = some order ↔
      ∃ p q, o.position? a = some p ∧ o.position? b = some q ∧ Ord.compare p q = order := by
  simp only [compare_eq_positions, Option.bind_eq_some_iff, Option.map_eq_some_iff,
    exists_and_left]

theorem holds_trans {op : Relation} (ascending : op ∈ [Relation.lt, .le])
    (first : op.holds (o.compare a b)) (second : op.holds (o.compare b c)) :
    op.holds (o.compare a c) := by
  obtain rfl | rfl := List.mem_pair.mp ascending
  · rw [Relation.holds_lt_iff, compare_eq_some_iff] at first second ⊢
    obtain ⟨p, q, place, place', before⟩ := first
    obtain ⟨q', r, again, place'', after⟩ := second
    cases place'.symm.trans again
    exact ⟨p, r, place, place'', Std.TransCmp.lt_trans before after⟩
  · simp only [Relation.holds_le_iff, compare_eq_some_iff] at first second ⊢
    obtain ⟨_, ⟨p, q, place, place', rfl⟩, before⟩ := first
    obtain ⟨_, ⟨q', r, again, place'', rfl⟩, after⟩ := second
    cases place'.symm.trans again
    exact ⟨_, ⟨p, r, place, place'', rfl⟩, Std.TransCmp.isLE_trans before after⟩

end Ordered

namespace Expr

variable {o : Ordered} {c : Context} {l m r : Expr (.ordered o)} {a b d : o.Carrier}

theorem eval_compare_of_ok (left : l.eval c = .ok a) (right : r.eval c = .ok b) (op : Relation) :
    (compare op l r).eval c = .ok (op.holds (o.compare a b)) := by
  rw [eval_compare, left, right]
  rfl

/-- Comparisons of values follow one order: each relation has its negation and its mirror, of two
values one is the lesser unless they are equal, and what is below a value is below all that are
above it. Texts are in the order of their bytes. Not-a-number has no place in the order, but is
still either equal or different. -/
theorem eval_compare_consistent (left : l.eval c = .ok a) (middle : m.eval c = .ok b)
    (right : r.eval c = .ok d) :
    (∀ op, ∃ truth, (compare op l m).eval c = .ok truth ∧
        (compare op.mirror m l).eval c = .ok truth ∧
        (op = .eq ∨ op = .ne ∨ (¬ o.IsNan a ∧ ¬ o.IsNan b) →
          (compare op.negation l m).eval c = .ok !truth)) ∧
      (¬ o.IsNan a → ¬ o.IsNan b →
        ∃! op, op ∈ [Relation.eq, .lt, .gt] ∧ (compare op l m).eval c = .ok true) ∧
      (∀ op ∈ [Relation.lt, .le], (compare op l m).eval c = .ok true →
        (compare op m r).eval c = .ok true → (compare op l r).eval c = .ok true) ∧
      ∀ (p q : Expr .string) (s t : String), p.eval c = .ok s → q.eval c = .ok t → ∀ op,
        (compare op p q).eval c = .ok (op.holds (some (Ord.compare (bytes s) (bytes t)))) ∧
          Ord.compare (bytes s) (bytes t) = Ord.compare (codePoints s) (codePoints t) := by
  refine ⟨fun op => ⟨_, eval_compare_of_ok left middle op, ?_, ?_⟩, ?_, ?_, ?_⟩
  · rw [eval_compare_of_ok middle left, Ordered.compare_swap, Relation.holds_mirror_swap]
  · intro sound
    rw [eval_compare_of_ok left middle]
    obtain equal | different | ⟨number, number'⟩ := sound
    · rw [Relation.holds_negation (.inl equal)]
    · rw [Relation.holds_negation (.inr different)]
    · obtain ⟨order, placed⟩ := Ordered.exists_compare number number'
      rw [placed, Relation.holds_negation_some]
  · intro number number'
    obtain ⟨order, placed⟩ := Ordered.exists_compare number number'
    simp only [eval_compare_of_ok left middle, placed, Except.ok.injEq, Relation.mem_and_holds_iff]
    exact existsUnique_eq
  · intro op ascending first second
    rw [eval_compare_of_ok left middle, Except.ok.injEq] at first
    rw [eval_compare_of_ok middle right, Except.ok.injEq] at second
    rw [eval_compare_of_ok left right, Ordered.holds_trans ascending first second]
  · intro p q s t first second op
    rw [eval_compare_of_ok first second, compare_bytes_eq_codePoints, Ordered.compare_string_eq]
    exact ⟨rfl, rfl⟩

/-- Code units of 16 bits would put the clef, which takes two of them, before the circle. -/
theorem eval_compare_consistent_clef :
    let c := Context.flat fun name => if name = "mark" then some ⟨.string, "￮"⟩ else none
    let mark : Expr .string := .var "mark"
    let accent : Expr .string := .const "é"
    let clef : Expr .string := .const "𝄞"
    mark.eval c = .ok "￮" ∧ (compare .lt accent mark).eval c = .ok true ∧
      (compare .lt mark clef).eval c = .ok true ∧ (compare .lt accent clef).eval c = .ok true ∧
      (compare .ge accent mark).eval c = .ok false := by
  intro c mark accent clef
  have middle : mark.eval c = .ok "￮" := by rfl
  have first : (compare .lt accent mark).eval c = .ok true := by rfl
  have second : (compare .lt mark clef).eval c = .ok true := by rfl
  obtain ⟨laws, -, chain, -⟩ :=
    @eval_compare_consistent .string c accent mark clef "é" "￮" "𝄞" rfl middle rfl
  obtain ⟨truth, known, -, negated⟩ := laws .lt
  cases known.symm.trans first
  exact ⟨middle, first, second, chain .lt (by simp) first second,
    negated (.inr (.inr ⟨nofun, nofun⟩))⟩

end Expr

end Formula
