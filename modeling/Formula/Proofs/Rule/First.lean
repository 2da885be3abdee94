import Formula.Proofs.Rule.Capture

/-! Conditions are read in full, with every comparison in the first kind that its tokens fit. -/

namespace Formula

variable {o : Ordered} {ts ls rs : List Token}

def IsComparison (o : Ordered) (ts : List Token) : Prop :=
  ∃ ls op rs, ts = ls ++ .relation op :: rs ∧ Fits o ls rs

/-- The two rows with a relation between them are a comparison in no earlier kind. -/
def FirstKind (o : Ordered) (ls rs : List Token) : Prop :=
  ∀ o' : Ordered, o'.rank < o.rank → ∀ op, ¬ IsComparison o' (ls ++ .relation op :: rs)

theorem Fits.relation_not_mem (fits : Fits o ls rs) (op : Relation) :
    .relation op ∉ ls ∧ .relation op ∉ rs := by
  obtain ⟨⟨l, reads⟩, r, reads'⟩ := fits
  exact ⟨reads.relation_not_mem op, reads'.relation_not_mem op⟩

theorem isComparison_iff_fits (plain : ∀ op, .relation op ∉ ls) (op : Relation) :
    IsComparison o (ls ++ .relation op :: rs) ↔ Fits o ls rs := by
  constructor
  · intro comparison
    obtain ⟨ls', op', rs', same, fits⟩ := comparison
    obtain ⟨rfl, -, rfl⟩ :=
      append_relation_inj plain (fun op => (fits.relation_not_mem op).1) same
    exact fits
  · intro fits
    exact ⟨ls, op, rs, rfl, fits⟩

/-- What keeps a comparison from being selected is an earlier kind or a capture. -/
theorem selected_iff (plain : ∀ op, .relation op ∉ ls) :
    Selected o ls rs ↔ FirstKind o ls rs ∧ ¬ Captured ls rs := by
  constructor
  · intro selected
    refine ⟨?_, selected.whole⟩
    intro o' before op comparison
    exact selected.first o' before ((isComparison_iff_fits plain op).mp comparison)
  · intro both
    refine ⟨?_, both.2⟩
    intro o' before fits
    exact both.1 o' before .eq ((isComparison_iff_fits plain .eq).mpr fits)

theorem ReadsCondition.mono {allowed allowed' : Ordered → List Token → List Token → Prop}
    (weaker : ∀ {o ls rs} {l r : Expr (.ordered o)}, ReadsOperand o ls l → ReadsOperand o rs r →
      allowed o ls rs → allowed' o ls rs)
    {clause : Clause} {e : Expr .boolean} (reads : ReadsCondition allowed clause ts e) :
    ReadsCondition allowed' clause ts e := by
  induction reads with
  | comparison reads reads' may => exact .comparison reads reads' (weaker reads reads' may)
  | parenthesized _ ih => exact .parenthesized ih
  | literal b => exact .literal b
  | name reads => exact .name reads
  | term _ ih => exact .term ih
  | joined _ _ ih ih' => exact .joined ih ih'

theorem readsCondition_selected_iff {e : Expr .boolean} :
    ReadsCondition Selected .chain ts e ↔ ReadsCondition FirstKind .chain ts e ∧ ¬ HasCapture ts := by
  constructor
  · intro reads
    refine ⟨reads.mono fun left _ selected => ?_, reads.not_hasCapture⟩
    exact ((selected_iff left.relation_not_mem).mp selected).1
  · intro both
    obtain ⟨reads, free⟩ := both
    have free' : ¬ HasCapture ([] ++ ts ++ []) := by simpa using free
    exact (reads.uncaptured opensTerm_nil free').mono fun left _ may =>
      (selected_iff left.relation_not_mem).mpr may

/-- A condition that is made of a row of tokens is a reading of the whole row, in which every
comparison has the first kind that its tokens fit. Each such reading is made unless the row has a
capture. -/
theorem Source.complete_condition_iff_firstKind (tokens : List Located) (stop : Nat)
    (e : Expr .boolean) :
    complete Rule.condition ⟨tokens, stop⟩ = .ok e ↔
      ReadsCondition FirstKind .chain (tokens.map Located.token) e ∧
        ¬ HasCapture (tokens.map Located.token) := by
  rw [complete_condition_eq_ok_iff, readsCondition_selected_iff]

end Formula
