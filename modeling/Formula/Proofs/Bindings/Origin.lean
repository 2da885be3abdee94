import Formula.Proofs.Bindings.Collected
import Formula.Proofs.Rule.Sum
import Formula.Proofs.Source.Written

/-! Where the segments come from along which a value is found: from the names that were bound. A
name that is no name of the grammar is found all the same if it was bound. -/

namespace Formula

/-- The grammar reads the text as a name, and as the very one that it is. -/
def IsAccepted (text : String) : Prop :=
  ∃ located, Source.tokens text = .ok located ∧
    Source.complete Rule.dottedName ⟨located, text.utf8ByteSize⟩ = .ok text

theorem isAccepted_iff {text : String} : IsAccepted text ↔ IsName text := by
  constructor
  · rintro ⟨located, found, complete⟩
    obtain ⟨stop, success⟩ := Source.complete_eq_ok_iff.mp complete
    obtain ⟨taken, start, reads, -⟩ := Rule.takes_dottedName _ _ _ success
    rw [List.append_nil, Cursor.mk.injEq] at start
    rw [← start.1] at reads
    exact reads.isName fun word present => Source.isWritten_of_tokens found _ present
  · intro written
    have spells := written.spells delimits_nil .nil
    rw [List.append_nil, List.append_nil] at spells
    obtain ⟨located, found, row⟩ := spells 0
    have reads : ReadsName (located.map Located.token) text := by
      have named := Name.readsName_tokens (.ofText text)
      rwa [← row, Name.text_ofText] at named
    have success : Rule.dottedName ⟨located ++ [], text.utf8ByteSize⟩ =
        .ok text ⟨[], text.utf8ByteSize⟩ := Rule.dottedName_append reads (by simp) _
    rw [List.append_nil] at success
    exact ⟨located, found, Source.complete_eq_ok_iff.mpr ⟨_, success⟩⟩

namespace Bindings

variable {given : String → Prop} {b inner : Bindings} {name first : String} {rest : List String}
  {entry : Entry} {v : Value}

/-- Made from no bindings at all, one operation after the other, by given names: a name is bound as
a whole to a value or to bindings made in this way, or its segments are bound to a value as a
path. -/
inductive BuiltOf (given : String → Prop) : Bindings → Prop
  | empty : BuiltOf given .empty
  | value {b : Bindings} {name : String} (content : Value) :
      BuiltOf given b → given name → BuiltOf given (b.insert name (.value content))
  | child {b inner : Bindings} {name : String} :
      BuiltOf given b → BuiltOf given inner → given name →
        BuiltOf given (b.insert name (.child inner))
  | path {b : Bindings} {text : String} (content : Value) :
      BuiltOf given b → given text → BuiltOf given (b.insertPath (.ofText text) content)

theorem builtOf_ofList {pairs : List (String × Value)} (all : ∀ pair ∈ pairs, given pair.1) :
    (ofList pairs).BuiltOf given := by
  induction pairs using List.reverseRecOn with
  | nil => exact .empty
  | append_singleton pairs pair ih =>
    rw [List.forall_mem_append, List.forall_mem_singleton] at all
    rw [ofList_concat]
    exact .path pair.2 (ih all.1) all.2

def Entry.valueAt : Entry → List String → Option Value
  | .value content, [] => some content
  | .child inner, next :: rest => inner.valueAt next rest
  | _, _ => none

theorem valueAt_insert :
    (b.insert name entry).valueAt first rest =
      if name = first then entry.valueAt rest else b.valueAt first rest := by
  cases rest with
  | nil =>
    rw [valueAt, value?_insert]
    cases entry <;> rfl
  | cons next rest =>
    rw [valueAt, child?_insert]
    split
    · cases entry <;> rfl
    · rfl

def IsLent (given : String → Prop) (segment : String) : Prop :=
  ∃ name, given name ∧ segment ∈ (Name.ofText name).segments

theorem isLent_of_not_mem (allowed : given name) (plain : '.' ∉ name.toList) :
    IsLent given name :=
  ⟨name, allowed, by simp [Name.segments_ofText_of_not_mem plain]⟩

/-- Values are found along segments of the given names alone. Names with dots that are bound as a
whole are no segments. -/
theorem BuiltOf.isLent (built : b.BuiltOf given)
    (plain : ∀ segment ∈ first :: rest, '.' ∉ segment.toList)
    (found : b.valueAt first rest = some v) : ∀ segment ∈ first :: rest, IsLent given segment := by
  induction built generalizing first rest with
  | empty =>
    rw [valueAt_empty] at found
    cases found
  | @value b name content _ allowed ih =>
    rw [valueAt_insert] at found
    split at found
    · rename_i same
      subst same
      -- A name that is bound as a whole is a segment only if it has no dots.
      cases rest with
      | nil => exact List.forall_mem_singleton.mpr (isLent_of_not_mem allowed (plain _ (by simp)))
      | cons next rest => cases found
    · exact ih plain found
  | @child b inner name _ _ allowed ih ih' =>
    rw [valueAt_insert] at found
    split at found
    · rename_i same
      subst same
      obtain ⟨head, below⟩ := List.forall_mem_cons.mp plain
      cases rest with
      | nil => cases found
      | cons next rest =>
        exact List.forall_mem_cons.mpr ⟨isLent_of_not_mem allowed head, ih' below found⟩
    · exact ih plain found
  | @path b text content _ allowed ih =>
    rw [insertPath, valueAt_insertAt] at found
    split at found
    · split at found
      · rename_i same
        rw [← same]
        exact fun segment present => ⟨text, allowed, present⟩
      · cases found
    · exact ih plain found

theorem BuiltOf.named_eq_none (built : b.BuiltOf given) {segment : String}
    (present : segment ∈ (Name.ofText name).segments) (foreign : ¬ IsLent given segment) :
    b.named name = none := by
  by_contra bound
  obtain ⟨v, found⟩ := Option.ne_none_iff_exists'.mp bound
  have plain : ∀ segment ∈ (Name.ofText name).segments, '.' ∉ segment.toList :=
    fun _ => Name.dot_not_mem_of_mem_segments
  exact foreign (built.isLent plain found segment present)

theorem eval_var_of_named_eq_none (unbound : b.named name = none) (kind : Kind) :
    ∃ missing, (.var name : Expr kind).eval b.context =
      .error (.variableNotFound name missing) := by
  obtain ⟨missing, failed⟩ := exists_find_context_eq_error_iff.mpr unbound
  exact ⟨missing, Context.resolve_eq_error_iff.mpr (.inl ⟨missing, rfl, failed⟩)⟩

/-- No segment that the two names share is one that the grammar rejects. -/
def SharesIdentifiers (name other : String) : Prop :=
  ∀ segment ∈ (Name.ofText other).segments, segment ∈ (Name.ofText name).segments →
    Lexeme.IsIdentifier segment

/-- A name that the grammar rejects does not resolve unless one of its rejected segments was given as
part of a name, as is never so if all given names are accepted. A path that was given resolves,
though, accepted or not. -/
theorem eval_var_of_not_isAccepted (rejected : ¬ IsAccepted name) :
    (∀ b, BuiltOf (SharesIdentifiers name) b → ∀ kind, ∃ missing,
        (.var name : Expr kind).eval b.context = .error (.variableNotFound name missing)) ∧
      (∀ other, IsAccepted other → SharesIdentifiers name other) ∧
      ∀ b v, (.var name : Expr v.kind).eval (insertPath b (.ofText name) v).context =
        .ok v.content := by
  refine ⟨fun b built kind => ?_, fun other accepted segment present _ => ?_, fun b v => ?_⟩
  · rw [isAccepted_iff, IsName, not_forall] at rejected
    obtain ⟨segment, odd⟩ := rejected
    obtain ⟨present, odd⟩ := Classical.not_imp.mp odd
    refine eval_var_of_named_eq_none (built.named_eq_none present ?_) kind
    rintro ⟨other, shares, lent⟩
    exact odd (shares segment lent present)
  · exact isAccepted_iff.mp accepted segment present
  · apply resolve_context_of_named
    rw [named_insertPath, if_pos (comparable_self _), if_pos rfl]

theorem eval_var_of_not_isAccepted_order :
    let b := (ofList [("order.note", ⟨.string, "urgent"⟩)]).insert "total" (.child .empty)
    ¬ IsAccepted "order.true" ∧ b.BuiltOf (SharesIdentifiers "order.true") ∧
      (∃ missing, (.var "order.true" : Expr .boolean).eval b.context =
        .error (.variableNotFound "order.true" missing)) ∧
      (.var "order.true" : Expr .boolean).eval
        (insertPath b (.ofText "order.true") ⟨.boolean, false⟩).context = .ok false := by
  intro b
  have rejected : ¬ IsAccepted "order.true" := by
    rw [isAccepted_iff]
    decide
  obtain ⟨fails, accepted, resolves⟩ := eval_var_of_not_isAccepted rejected
  have note : IsAccepted "order.note" := isAccepted_iff.mpr (by decide)
  have total : IsAccepted "total" := isAccepted_iff.mpr (by decide)
  have built : b.BuiltOf (SharesIdentifiers "order.true") :=
    .child (builtOf_ofList (List.forall_mem_singleton.mpr (accepted _ note))) .empty
      (accepted _ total)
  exact ⟨rejected, built, fails b built .boolean, resolves b ⟨.boolean, false⟩⟩

/-- A name with a blank in it is found where it is bound. -/
theorem not_forall_eval_var_fails :
    ¬ ∀ (name : String) (b : Bindings) (kind : Kind), ¬ IsAccepted name →
      b.BuiltOf (fun _ => True) → ∃ missing, (.var name : Expr kind).eval b.context =
        .error (.variableNotFound name missing) := by
  intro all
  have rejected : ¬ IsAccepted "a b" := by
    rw [isAccepted_iff]
    decide
  have one : Width.int.Holds 1 := by decide
  have built : (insert "a b" (.value ⟨.int, ⟨1, one⟩⟩) .empty).BuiltOf fun _ => True :=
    .value _ .empty trivial
  obtain ⟨missing, failed⟩ := all _ _ .int rejected built
  have found : (.var "a b" : Expr .int).eval
      (insert "a b" (.value ⟨.int, ⟨1, one⟩⟩) .empty).context = .ok ⟨1, one⟩ := by rfl
  rw [found] at failed
  cases failed

end Bindings

end Formula
