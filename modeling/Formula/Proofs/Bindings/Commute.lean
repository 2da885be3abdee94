import Mathlib.Data.List.Pairwise
import Formula.Proofs.Bindings.Collected
import Formula.Proofs.Bindings.Entries

/-! Two paths bound one after the other: the order does not matter if neither goes on from the other,
and else the later one stays, as if the earlier one had never been bound below it. -/

namespace Formula.Bindings

variable {b : Bindings} {content content' v : Value} {first first' : String}
  {path path' : List String}

/-- What binding a path makes of the entry of its first name, given the child that was there. -/
def entryAt (content : Value) (child : Option Bindings) : List String → Entry
  | [] => .value content
  | next :: rest => .child ((child.getD empty).insertAt content next rest)

theorem insertAt_eq_insert (b : Bindings) (content : Value) (first : String) (path : List String) :
    b.insertAt content first path = b.insert first (entryAt content (b.child? first) path) := by
  cases path <;> rfl

theorem child?_insertAt_of_ne (other : first ≠ first') :
    (b.insertAt content first path).child? first' = b.child? first' := by
  rw [insertAt_eq_insert, child?_insert, if_neg other]

theorem insertAt_comm_of_ne (other : first ≠ first') :
    (b.insertAt content first path).insertAt content' first' path' =
      (b.insertAt content' first' path').insertAt content first path := by
  rw [insertAt_eq_insert (b.insertAt content first path), child?_insertAt_of_ne other,
    insertAt_eq_insert (b.insertAt content' first' path'), child?_insertAt_of_ne other.symm,
    insertAt_eq_insert b, insertAt_eq_insert b, insert_insert_comm b _ _ other]

theorem insertAt_insertAt_cons (b : Bindings) (content content' : Value)
    (first next next' : String) (path path' : List String) :
    (b.insertAt content first (next :: path)).insertAt content' first (next' :: path') =
      b.insert first (.child ((((b.child? first).getD empty).insertAt content next path).insertAt
        content' next' path')) := by
  simp only [insertAt_eq_insert _ _ first, child?_insert, if_true, entryAt, insert_insert_self,
    Option.getD_some]

theorem insertAt_comm (apart : ¬ Comparable (first :: path) (first' :: path')) :
    (b.insertAt content first path).insertAt content' first' path' =
      (b.insertAt content' first' path').insertAt content first path := by
  induction path generalizing b first first' path' with
  | nil =>
    have other : first ≠ first' := fun same =>
      apart (comparable_cons_iff.mpr ⟨same, comparable_nil_left path'⟩)
    exact insertAt_comm_of_ne other
  | cons next path ih =>
    by_cases same : first = first'
    · subst same
      cases path' with
      | nil => exact absurd (comparable_cons_iff.mpr ⟨rfl, comparable_nil_right _⟩) apart
      | cons next' path' =>
        have below : ¬ Comparable (next :: path) (next' :: path') := fun comparable =>
          apart (comparable_cons_iff.mpr ⟨rfl, comparable⟩)
        rw [insertAt_insertAt_cons, insertAt_insertAt_cons, ih below]
    · exact insertAt_comm_of_ne same

theorem insertAt_of_prefix (short : first' :: path' <+: first :: path) :
    (b.insertAt content first path).insertAt content' first' path' =
      b.insertAt content' first' path' := by
  induction path' generalizing b first first' path with
  | nil =>
    obtain ⟨rfl, -⟩ := List.cons_prefix_cons.mp short
    rw [insertAt_eq_insert b content, insertAt, insertAt, insert_insert_self]
  | cons next' path' ih =>
    obtain ⟨rfl, below⟩ := List.cons_prefix_cons.mp short
    cases path with
    | nil => exact absurd (List.prefix_nil.mp below) (List.cons_ne_nil _ _)
    | cons next path => rw [insertAt_insertAt_cons, ih below, insertAt]

section Reflexive

variable {sought : List String}

theorem Stores.of_insertAt (stored : (b.insertAt content first path).Stores sought (.value v)) :
    v = content ∨ b.Stores sought (.value v) := by
  induction path generalizing b first sought with
  | nil =>
    rw [insertAt] at stored
    obtain ⟨-, same⟩ | ⟨inner, below, same, -, -⟩ | stored := stored.of_insert
    · cases same
      exact .inl rfl
    · cases same
    · exact .inr stored
  | cons next path ih =>
    rw [insertAt] at stored
    obtain ⟨-, same⟩ | ⟨inner, below, same, rfl, stored⟩ | stored := stored.of_insert
    · cases same
    · cases same
      refine (ih stored).imp_right fun stored => ?_
      cases found : b.child? first with
      | none =>
        rw [found] at stored
        exact absurd stored not_stores_empty
      | some inner =>
        rw [found] at stored
        exact .within (mem_entries_of_child? found) stored
    · exact .inr stored

theorem IsReflexive.insertPath (reflexive : b.IsReflexive) (real : content ≠ ⟨.double, .nan⟩)
    (name : Name) : (b.insertPath name content).IsReflexive := by
  intro sought v stored
  obtain rfl | stored := stored.of_insertAt
  · exact real
  · exact reflexive sought v stored

theorem isReflexive_empty : empty.IsReflexive :=
  fun _ _ stored => absurd stored not_stores_empty

theorem isReflexive_ofList {pairs : List (String × Value)}
    (real : ∀ pair ∈ pairs, pair.2 ≠ ⟨.double, .nan⟩) : (ofList pairs).IsReflexive := by
  induction pairs using List.reverseRecOn with
  | nil => exact isReflexive_empty
  | append_singleton pairs pair ih =>
    rw [List.forall_mem_append] at real
    rw [ofList_concat]
    exact (ih real.1).insertPath (real.2 pair (by simp)) _

end Reflexive

section Orders

variable {name name' : Name}

theorem insertPath_comm (b : Bindings) (content content' : Value)
    (apart : ¬ Comparable name.segments name'.segments) :
    (b.insertPath name content).insertPath name' content' =
      (b.insertPath name' content').insertPath name content :=
  insertAt_comm apart

theorem insertPath_of_prefix (b : Bindings) (content content' : Value)
    (short : name'.segments <+: name.segments) :
    (b.insertPath name content).insertPath name' content' = b.insertPath name' content' :=
  insertAt_of_prefix short

theorem ofList_of_perm {pairs pairs' : List (String × Value)} (perm : pairs.Perm pairs')
    (apart : pairs.Pairwise fun pair pair' =>
      ¬ Comparable (Name.ofText pair.1).segments (Name.ofText pair'.1).segments) :
    ofList pairs = ofList pairs' := by
  let Commutes (pair pair' : String × Value) : Prop := ∀ b : Bindings,
    (b.insertPath (.ofText pair.1) pair.2).insertPath (.ofText pair'.1) pair'.2 =
      (b.insertPath (.ofText pair'.1) pair'.2).insertPath (.ofText pair.1) pair.2
  have symmetric : Std.Symm Commutes := ⟨fun _ _ commutes b => (commutes b).symm⟩
  have commutes : pairs.Pairwise Commutes :=
    apart.imp fun apart b => insertPath_comm b _ _ apart
  have all := commutes.forall_of_forall fun pair _ b => rfl
  exact perm.foldl_eq' (fun pair present pair' present' b => all present present' b) empty

/-- Two paths may be bound in either order if neither goes on from the other; a path makes what was
bound below it before as if it had never been; and names that are apart in pairs may be collected in
every order. The bindings are the same ones, and so they are equal unless not-a-number, which is not
equal to itself, is among the values. -/
theorem insertPath_commutes_or_absorbs :
    (∀ (b : Bindings) (name name' : Name) (v w : Value),
        ¬ Comparable name.segments name'.segments →
          (b.insertPath name v).insertPath name' w = (b.insertPath name' w).insertPath name v ∧
            (b.IsReflexive → v ≠ ⟨.double, .nan⟩ → w ≠ ⟨.double, .nan⟩ →
              ((b.insertPath name v).insertPath name' w).same
                ((b.insertPath name' w).insertPath name v))) ∧
      (∀ (b : Bindings) (name name' : Name) (v w : Value), name'.segments <+: name.segments →
          (b.insertPath name v).insertPath name' w = b.insertPath name' w ∧
            (b.IsReflexive → w ≠ ⟨.double, .nan⟩ →
              ((b.insertPath name v).insertPath name' w).same (b.insertPath name' w))) ∧
      ∀ pairs pairs' : List (String × Value), pairs.Perm pairs' →
        (pairs.Pairwise fun pair pair' =>
          ¬ Comparable (Name.ofText pair.1).segments (Name.ofText pair'.1).segments) →
          ofList pairs = ofList pairs' ∧
            ((∀ pair ∈ pairs, pair.2 ≠ ⟨.double, .nan⟩) → (ofList pairs).same (ofList pairs')) := by
  refine ⟨fun b name name' v w apart => ?_, fun b name name' v w short => ?_,
    fun pairs pairs' perm apart => ?_⟩
  · have either := insertPath_comm b v w apart
    refine ⟨either, fun reflexive real real' => ?_⟩
    rw [either]
    exact same_self_iff.mpr ((reflexive.insertPath real' name').insertPath real name)
  · have absorbed := insertPath_of_prefix b v w short
    refine ⟨absorbed, fun reflexive real => ?_⟩
    rw [absorbed]
    exact same_self_iff.mpr (reflexive.insertPath real name')
  · have collected := ofList_of_perm perm apart
    refine ⟨collected, fun real => ?_⟩
    rw [← collected]
    exact same_self_iff.mpr (isReflexive_ofList real)

theorem insertPath_commutes_or_absorbs_order :
    let b : Bindings := .value "order" ⟨.boolean, true⟩ .empty
    let note : String × Value := ("order.note", ⟨.string, "urgent"⟩)
    let date : String × Value := ("order.date", ⟨.boolean, false⟩)
    let total : String × Value := ("total", ⟨.string, ""⟩)
    (b.insertPath (.ofText note.1) note.2).insertPath (.ofText date.1) date.2 =
        (b.insertPath (.ofText date.1) date.2).insertPath (.ofText note.1) note.2 ∧
      ((b.insertPath (.ofText note.1) note.2).insertPath (.ofText "order") total.2).same
        (b.insertPath (.ofText "order") total.2) ∧
      (ofList [note, date, total]).same (ofList [total, date, note]) := by
  intro b note date total
  obtain ⟨commutes, absorbs, collected⟩ := insertPath_commutes_or_absorbs
  have reflexive : b.IsReflexive := same_self_iff.mp rfl
  have apart : [note, date, total].Pairwise fun pair pair' =>
      ¬ Comparable (Name.ofText pair.1).segments (Name.ofText pair'.1).segments := by
    decide
  have real : ∀ pair ∈ [note, date, total], pair.2 ≠ ⟨.double, .nan⟩ := by
    simp [note, date, total]
  refine ⟨(commutes b _ _ _ _ (by decide)).1, ?_, ?_⟩
  · exact (absorbs b _ _ _ _ (by decide)).2 reflexive (by simp [total])
  · exact (collected _ _ (List.reverse_perm _).symm apart).2 real

end Orders

end Formula.Bindings
