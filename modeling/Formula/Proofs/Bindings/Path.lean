import Formula.Proofs.Eval.Find
import Formula.Proofs.Name

/-! Where a path leads in bindings, and what binding a path changes: it binds one path, and unbinds
those that it goes on or that go on from it. -/

namespace Formula

/-- One of the rows is the other one or goes on after it. -/
def Comparable (path path' : List String) : Prop := path <+: path' ∨ path' <+: path

instance (path path' : List String) : Decidable (Comparable path path') :=
  inferInstanceAs (Decidable (_ ∨ _))

theorem comparable_cons_iff {first first' : String} {rest rest' : List String} :
    Comparable (first :: rest) (first' :: rest') ↔ first = first' ∧ Comparable rest rest' := by
  simp only [Comparable, List.cons_prefix_cons]
  grind

theorem comparable_nil_left (path : List String) : Comparable [] path := .inl List.nil_prefix

theorem comparable_nil_right (path : List String) : Comparable path [] := .inr List.nil_prefix

theorem comparable_self (path : List String) : Comparable path path := .inl (List.prefix_refl path)

namespace Bindings

variable (b : Bindings) (content : Value) (first sought next : String) (rest : List String)

def valueAt (b : Bindings) (first : String) : List String → Option Value
  | [] => b.value? first
  | next :: rest => (b.child? first).bind fun inner => inner.valueAt next rest

theorem value?_insert (entry : Entry) :
    (b.insert first entry).value? sought =
      if first = sought then
        match entry with
        | .value content => some content
        | .child _ => none
      else b.value? sought := by
  rw [value?, find?_insert]
  by_cases same : first = sought
  · rw [if_pos same, if_pos same]
    cases entry <;> rfl
  · rw [if_neg same, if_neg same]
    rfl

theorem child?_insert (entry : Entry) :
    (b.insert first entry).child? sought =
      if first = sought then
        match entry with
        | .value _ => none
        | .child inner => some inner
      else b.child? sought := by
  rw [child?, find?_insert]
  by_cases same : first = sought
  · rw [if_pos same, if_pos same]
    cases entry <;> rfl
  · rw [if_neg same, if_neg same]
    rfl

theorem valueAt_empty : empty.valueAt first rest = none := by
  cases rest <;> rfl

theorem valueAt_child : ((b.child? first).getD empty).valueAt next rest =
    b.valueAt first (next :: rest) := by
  rw [valueAt]
  cases b.child? first with
  | none => exact valueAt_empty next rest
  | some inner => rfl

/-- After a path is bound, the path has the value, comparable paths have none, and the others have
what they had. -/
theorem valueAt_insertAt (path : List String) :
    (b.insertAt content first path).valueAt sought rest =
      if Comparable (first :: path) (sought :: rest) then
        if first :: path = sought :: rest then some content else none
      else b.valueAt sought rest := by
  induction path generalizing b first sought rest with
  | nil =>
    cases rest with
    | nil =>
      rw [insertAt, valueAt, value?_insert]
      by_cases same : first = sought
      · simp [same, comparable_self]
      · simp [same, comparable_cons_iff, valueAt]
    | cons next rest =>
      rw [insertAt, valueAt, child?_insert]
      by_cases same : first = sought
      · simp [same, comparable_cons_iff, comparable_nil_left]
      · simp [same, comparable_cons_iff, valueAt]
  | cons second path ih =>
    cases rest with
    | nil =>
      rw [insertAt, valueAt, value?_insert]
      by_cases same : first = sought
      · simp [same, comparable_cons_iff, comparable_nil_right]
      · simp [same, comparable_cons_iff, valueAt]
    | cons next rest =>
      rw [insertAt, valueAt, child?_insert]
      by_cases same : first = sought
      · subst same
        simp [ih, valueAt_child, comparable_cons_iff]
      · simp [same, comparable_cons_iff, valueAt]

theorem descend_concat (front : List String) :
    b.descend (front ++ [first]) = (b.descend front).bind (·.child? first) := by
  induction front generalizing b with
  | nil =>
    cases found : b.child? first with
    | none => simp [descend, found]
    | some inner => simp [descend, found]
  | cons next front ih =>
    rw [List.cons_append, descend, descend]
    cases b.child? next with
    | none => rfl
    | some inner => exact ih inner

section Walk

variable {b} {front : List String} {inner : Bindings} (reached : b.descend front = some inner)

include reached

theorem find_context_nil (name : String) :
    (b.context.find name front first []).result =
      match inner.value? first with
      | some v => .ok v
      | none => .error (.variableNotFound name first) := by
  have asked : b.context.value front first = inner.value? first := by
    simp only [context, reached, Option.bind_some]
  have walk := b.context.find_nil name front first
  rw [asked] at walk
  exact congrArg Outcome.result walk

theorem find_context_cons (name : String) :
    (b.context.find name front first (next :: rest)).result =
      match inner.child? first with
      | some _ => (b.context.find name (front ++ [first]) next rest).result
      | none => .error (.variableNotFound name first) := by
  have asked : b.context.hasChild front first = (inner.child? first).isSome := by
    simp only [context, reached, Option.bind_some]
  cases child : inner.child? first with
  | none =>
    rw [child, Option.isSome_none] at asked
    rw [Context.find_cons_of_not_hasChild _ _ _ _ asked]
  | some deeper =>
    rw [child, Option.isSome_some] at asked
    rw [Context.find_cons_of_hasChild _ _ _ _ asked]

/-- The walk to a name ends with the value at the end of its path, or where a segment is missing. -/
theorem find_context_cases (name : String) :
    (∃ v, inner.valueAt first rest = some v ∧
        (b.context.find name front first rest).result = .ok v) ∨
      ∃ missing, inner.valueAt first rest = none ∧
        (b.context.find name front first rest).result =
          .error (.variableNotFound name missing) := by
  induction rest generalizing inner front first with
  | nil =>
    rw [find_context_nil first reached, valueAt]
    cases inner.value? first with
    | none => exact .inr ⟨first, rfl, rfl⟩
    | some v => exact .inl ⟨v, rfl, rfl⟩
  | cons next rest ih =>
    rw [find_context_cons first next rest reached, valueAt]
    cases child : inner.child? first with
    | none => exact .inr ⟨first, rfl, rfl⟩
    | some deeper => exact ih next (by rw [descend_concat, reached, Option.bind_some, child])

end Walk

theorem valueAt_append_singleton (last : String) :
    b.valueAt first (rest ++ [last]) = (b.descend (first :: rest)).bind (·.value? last) := by
  induction rest generalizing b first with
  | nil =>
    simp only [List.nil_append, valueAt, descend, Option.bind_assoc, Option.bind_some]
  | cons next rest ih =>
    rw [List.cons_append, valueAt, descend, Option.bind_assoc]
    exact Option.bind_congr fun inner _ => ih inner next

section Texts

variable {b} {content} {text last : String}

theorem insertPath_of_not_mem (plain : '.' ∉ text.toList) :
    b.insertPath (.ofText text) content = b.insert text (.value content) := by
  rw [insertPath, Name.ofText_of_not_mem plain]
  rfl

theorem insertPath_append_dot (plain : '.' ∉ first.toList) :
    b.insertPath (.ofText (first ++ "." ++ text)) content =
      b.insert first
        (.child (((b.child? first).getD .empty).insertPath (.ofText text) content)) := by
  rw [insertPath, Name.ofText_append_dot plain]
  rfl

def named (b : Bindings) (text : String) : Option Value :=
  b.valueAt (Name.ofText text).first (Name.ofText text).rest

theorem named_append_dot (plain : '.' ∉ last.toList) :
    b.named (text ++ "." ++ last) =
      (b.descend (Name.ofText text).segments).bind (·.value? last) := by
  have segments := Name.segments_ofText_append_dot text plain
  rw [Name.segments, Name.segments, List.cons_append, List.cons.injEq] at segments
  rw [named, segments.1, segments.2, valueAt_append_singleton, Name.segments]

theorem named_of_not_mem (plain : '.' ∉ text.toList) : b.named text = b.value? text := by
  rw [named, Name.ofText_of_not_mem plain]
  rfl

/-- Binds a text as it is cut at its first dots: what stands before a dot leads to a child, and the
rest is bound in that child. -/
inductive Writes (content : Value) : Bindings → String → Bindings → Prop
  | value {b : Bindings} {text : String} :
      '.' ∉ text.toList → Writes content b text (b.insert text (.value content))
  | child {b inner : Bindings} {first text : String} : '.' ∉ first.toList →
      Writes content ((b.child? first).getD .empty) text inner →
      Writes content b (first ++ "." ++ text) (b.insert first (.child inner))

/-- Finds a value as the text is cut at its last dot: what stands before it leads, segment by
segment, to the child in which the rest has the value. -/
inductive Reads (b : Bindings) (content : Value) : String → Prop
  | top {text : String} :
      '.' ∉ text.toList → b.value? text = some content → Reads b content text
  | inside {front last : String} {inner : Bindings} : '.' ∉ last.toList →
      b.descend (Name.ofText front).segments = some inner → inner.value? last = some content →
      Reads b content (front ++ "." ++ last)

theorem writes_insertAt (plain : ∀ segment ∈ first :: rest, '.' ∉ segment.toList) :
    Writes content b (String.intercalate "." (first :: rest)) (b.insertAt content first rest) := by
  induction rest generalizing b first with
  | nil =>
    rw [String.intercalate_singleton]
    exact .value (plain first (.head _))
  | cons next rest ih =>
    obtain ⟨head, others⟩ := List.forall_mem_cons.mp plain
    rw [String.intercalate_cons_cons]
    exact .child head (ih next others)

theorem writes_iff {after : Bindings} :
    Writes content b text after ↔ after = b.insertPath (.ofText text) content := by
  constructor
  · intro writes
    induction writes with
    | value plain => exact (insertPath_of_not_mem plain).symm
    | child plain _ ih => rw [insertPath_append_dot _ plain, ih]
  · rintro rfl
    have writes := @writes_insertAt b content (Name.ofText text).first (Name.ofText text).rest
      fun _ => Name.dot_not_mem_of_mem_segments
    have whole : String.intercalate "." ((Name.ofText text).first :: (Name.ofText text).rest) =
        text := Name.text_ofText text
    rwa [whole] at writes

theorem reads_iff : Reads b content text ↔ b.named text = some content := by
  constructor
  · intro reads
    cases reads with
    | top plain bound => rw [named_of_not_mem plain, bound]
    | inside plain reached bound => rw [named_append_dot plain, reached, Option.bind_some, bound]
  · intro bound
    obtain plain | ⟨front, last, plain, rfl⟩ := Name.not_mem_or_exists_last text
    · rw [named_of_not_mem plain] at bound
      exact .top plain bound
    · rw [named_append_dot plain] at bound
      obtain ⟨inner, reached, bound⟩ := Option.bind_eq_some_iff.mp bound
      exact .inside plain reached bound

theorem named_insertPath (name : Name) :
    (b.insertPath name content).named text =
      if Comparable name.segments (Name.ofText text).segments then
        if name.segments = (Name.ofText text).segments then some content else none
      else b.named text :=
  valueAt_insertAt b content name.first (Name.ofText text).first (Name.ofText text).rest name.rest

theorem find_context_eq_ok_iff {v : Value} :
    (b.context.find text [] (Name.ofText text).first (Name.ofText text).rest).result = .ok v ↔
      b.named text = some v := by
  have start : b.descend [] = some b := rfl
  rw [named]
  obtain ⟨found, bound, walk⟩ | ⟨missing, unbound, walk⟩ :=
    b.find_context_cases (Name.ofText text).first (Name.ofText text).rest start text
  · simp [bound, walk]
  · simp [unbound, walk]

theorem exists_find_context_eq_error_iff :
    (∃ missing, (b.context.find text [] (Name.ofText text).first (Name.ofText text).rest).result =
      .error (.variableNotFound text missing)) ↔ b.named text = none := by
  have start : b.descend [] = some b := rfl
  rw [named]
  obtain ⟨found, bound, walk⟩ | ⟨missing, unbound, walk⟩ :=
    b.find_context_cases (Name.ofText text).first (Name.ofText text).rest start text
  · simp [bound, walk]
  · simp [unbound, walk]

theorem resolve_context_of_named {v : Value} (bound : b.named text = some v) :
    (b.context.resolve v.kind text).result = .ok v.content := by
  have found := b.find_context_eq_ok_iff.mpr bound
  rw [Context.resolve, Outcome.bind_of_ok found, Value.as?_mk]
  rfl

/-- Binding a path, cut at its first dots, changes what the walk to a name finds only if one of them
goes on from the other: along the path itself it finds the value, and along any other such name
nothing. -/
theorem find_insertPath_iff (b : Bindings) (content : Value) (path text : String) :
    (∀ after, Writes content b path after ↔ after = b.insertPath (.ofText path) content) ∧
      (∀ v, ((b.insertPath (.ofText path) content).context.find text [] (Name.ofText text).first
          (Name.ofText text).rest).result = .ok v ↔
        if Comparable (Name.ofText path).segments (Name.ofText text).segments then
          (Name.ofText path).segments = (Name.ofText text).segments ∧ content = v
        else
          (b.context.find text [] (Name.ofText text).first (Name.ofText text).rest).result =
            .ok v) ∧
      ((∃ missing, ((b.insertPath (.ofText path) content).context.find text []
          (Name.ofText text).first (Name.ofText text).rest).result =
            .error (.variableNotFound text missing)) ↔
        if Comparable (Name.ofText path).segments (Name.ofText text).segments then
          (Name.ofText path).segments ≠ (Name.ofText text).segments
        else
          ∃ missing, (b.context.find text [] (Name.ofText text).first
            (Name.ofText text).rest).result = .error (.variableNotFound text missing)) := by
  refine ⟨fun _ => writes_iff, fun v => ?_, ?_⟩
  · rw [find_context_eq_ok_iff, find_context_eq_ok_iff, named_insertPath]
    split
    · by_cases same : (Name.ofText path).segments = (Name.ofText text).segments
      · simp [same]
      · simp [same]
    · rfl
  · rw [exists_find_context_eq_error_iff, exists_find_context_eq_error_iff, named_insertPath]
    split
    · by_cases same : (Name.ofText path).segments = (Name.ofText text).segments
      · simp [same]
      · simp [same]
    · rfl

end Texts

end Bindings

end Formula
